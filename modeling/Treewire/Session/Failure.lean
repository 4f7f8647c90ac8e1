import Treewire.Launcher
import Treewire.Log
import Treewire.Number.Decimal
import Treewire.Schema.Store

/-!
# Failures

Everything that can go wrong when a parser is set up or used. The failures that the program foresees
have an explanation; the others are those of the system or of values that it cannot work with.
-/

namespace Treewire

/-- Why there is no parser. -/
inductive Unavailability where
  | runtimeNotFound
  | selfCheckFailed
  deriving DecidableEq, Inhabited

def Unavailability.code : Unavailability → String
  | .runtimeNotFound => "runtime_not_found"
  | .selfCheckFailed => "self_check_failed"

namespace Duration

/-- All digits. -/
def text : Duration → String
  | .whole n => toString n
  | .real x => DecimalLayout.report.shortest x

/-- Six digits at most. -/
def brief (d : Duration) : String := DecimalLayout.brief.general d.toBinary64

end Duration

/-- A limit that no clock can count to. -/
inductive LimitFault where
  | tooLong
  | notNumber
  deriving DecidableEq, Inhabited

inductive Failure where
  | unavailable (reason : Unavailability) (detail : Text)
  /-- The script failed with a status, or could not be started. -/
  | failed (message : Text) (status : Option Int)
  | overran (limit : Duration) (output : Text)
  | unreadableOutput (file : Path) (error : FileError)
  | lastingOutput (file : Path) (error : FileError)
  | badPayload (size : Nat)
  | schema (fault : SchemaFault)
  | configuration (fault : ConfigurationFault)
  | system (error : FileError)
  | badText (fault : TextFault)
  | badLimit (fault : LimitFault)
  | badLog (fault : Log.Fault)
  /-- The message type lacks the field, or it has the wrong type. -/
  | noStatements (isMissing : Bool)
  deriving Inhabited

namespace Failure

/-- The explanation of a failure that the program foresees. -/
def message? : Failure → Option Text
  | .unavailable reason detail =>
    let plain := Text.ofString s!"JavaScript parser unavailable ({reason.code})"
    some (if detail = [] then plain else plain ++ Text.ofString ": " ++ detail)
  | .failed message _ => some message
  | .overran limit _ => some (Text.ofString s!"parser did not finish within {limit.brief}s")
  | .unreadableOutput file error =>
    some (Text.ofString "parser exited successfully but produced no readable output at " ++
      file.toText ++ Text.ofString ": " ++ error.report file.toText)
  | .lastingOutput file error =>
    some (Text.ofString "cannot remove temporary AST file " ++ file.toText ++
      Text.ofString ": " ++ error.report file.toText)
  | .badPayload size => some (Text.ofString s!"invalid AST payload ({size} bytes)")
  | .schema fault => fault.message?
  | .configuration fault => fault.message?
  | .system _ | .badText _ | .badLimit _ | .badLog _ | .noStatements _ => none

end Failure

end Treewire
