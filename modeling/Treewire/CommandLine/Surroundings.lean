import Treewire.CommandLine.Run

/-!
# What a run looks at

The paths at which a run of the command line may look for something. Which they are depends on the
configuration, so that they show completely only on a machine that has the configuration's file.
-/

namespace Treewire.CommandLine

namespace Request

def settings : Request → Settings
  | .check settings | .parse settings _ => settings

def files : Request → List Text
  | .check _ => []
  | .parse _ files => files

end Request

/-- The file that the configuration is read from. -/
def configurationFile? (m : Machine) (settings : Settings) : Option Path :=
  match settings.configuration with
  | some (s :: rest) => some (Path.ofText (s :: rest))
  | _ => (Configuration.value? m.vars Configuration.fileVariable).map Path.ofString

/-- Where the runtime may be. -/
def nodeCandidates (m : Machine) (c : Configuration) : List Path :=
  match c.paths.node with
  | some node => [node]
  | none =>
    ((Search.directories? m.vars c.fallbackDirs).getD []).map fun directory =>
      (Path.ofText directory).join (Path.ofText c.nodeBinary)

/-- All that a configuration names. -/
def configuredPaths (m : Machine) (c : Configuration) : List Path :=
  nodeCandidates m c ++ [c.paths.temporary, c.paths.script, c.paths.schema].filterMap id

/-- The paths that a run looks at, as far as the session shows them. -/
def surroundings (s : Session) (arguments : List Text) : List Path :=
  match Request.ofArguments arguments with
  | .ok (some request) =>
    let configured := match (configurationOf request.settings).run s with
      | (.ok c, _) => configuredPaths s.machine c
      | (.error _, _) => []
    (configurationFile? s.machine request.settings).toList ++ configured ++
      request.files.map Path.ofText ++ s.machine.temporaryCandidates.map Path.ofString ++
      [s.bundledScript, s.bundledSchema]
  | _ => []

end Treewire.CommandLine
