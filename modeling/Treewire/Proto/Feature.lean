import Treewire.Proto.Declaration

/-!
# Features

What a declaration means beyond its words is told by its features. A file's edition sets them all,
and the settings of a file, a message and a field may each change some; the innermost setting wins.
-/

namespace Treewire.Proto

/-- When a field counts as set. -/
inductive Presence where
  | explicit | implicit | required
  deriving DecidableEq, Inhabited

structure Features where
  presence : Presence
  closedEnums : Bool
  packed : Bool
  /-- Whether strings have to be UTF-8. -/
  checksStrings : Bool
  /-- Whether messages stand between a start and an end instead of behind their length. -/
  delimited : Bool
  /-- Whether names in JSON have to be distinct. -/
  strictJson : Bool
  /-- Whether names follow the style of the newest edition. -/
  styledNames : Bool
  deriving DecidableEq, Inhabited

def Edition.features : Edition → Features
  | .proto2 => ⟨.explicit, true, false, false, false, false, false⟩
  | .proto3 => ⟨.implicit, false, true, true, false, true, false⟩
  | .edition2023 => ⟨.explicit, false, true, true, false, true, false⟩
  | .edition2024 => ⟨.explicit, false, true, true, false, true, true⟩

/-- What options can be set on. -/
inductive Target where
  | file | message | field | oneof | enum | enumValue | service | method | range
  deriving DecidableEq, Inhabited

/-- A change to one feature. -/
inductive Change where
  | presence (p : Presence)
  | closedEnums (on : Bool)
  | packed (on : Bool)
  | checksStrings (on : Bool)
  | delimited (on : Bool)
  | strictJson (on : Bool)
  | styledNames (on : Bool)
  | visibility
  deriving DecidableEq, Inhabited

namespace Change

/-- The words that set features. -/
def ofWords? (feature value : String) : Option Change :=
  match feature, value with
  | "field_presence", "EXPLICIT" => some (.presence .explicit)
  | "field_presence", "IMPLICIT" => some (.presence .implicit)
  | "field_presence", "LEGACY_REQUIRED" => some (.presence .required)
  | "enum_type", "OPEN" => some (.closedEnums false)
  | "enum_type", "CLOSED" => some (.closedEnums true)
  | "repeated_field_encoding", "PACKED" => some (.packed true)
  | "repeated_field_encoding", "EXPANDED" => some (.packed false)
  | "utf8_validation", "VERIFY" => some (.checksStrings true)
  | "utf8_validation", "NONE" => some (.checksStrings false)
  | "message_encoding", "LENGTH_PREFIXED" => some (.delimited false)
  | "message_encoding", "DELIMITED" => some (.delimited true)
  | "json_format", "ALLOW" => some (.strictJson true)
  | "json_format", "LEGACY_BEST_EFFORT" => some (.strictJson false)
  | "enforce_naming_style", "STYLE2024" => some (.styledNames true)
  | "enforce_naming_style", "STYLE_LEGACY" => some (.styledNames false)
  | "default_symbol_visibility", "EXPORT_ALL" => some .visibility
  | "default_symbol_visibility", "EXPORT_TOP_LEVEL" => some .visibility
  | "default_symbol_visibility", "LOCAL_ALL" => some .visibility
  | "default_symbol_visibility", "STRICT" => some .visibility
  | _, _ => none

/-- Where a feature can be set. -/
def targets : Change → List Target
  | .presence _ | .packed _ | .checksStrings _ | .delimited _ => [.field, .file]
  | .closedEnums _ => [.enum, .file]
  | .strictJson _ => [.message, .enum, .file]
  | .styledNames _ =>
    [.file, .range, .message, .field, .oneof, .enum, .enumValue, .service, .method]
  | .visibility => [.file]

/-- Whether the feature came with the newest edition. -/
def isRecent : Change → Bool
  | .styledNames _ | .visibility => true
  | _ => false

def isAllowed (edition : Edition) (target : Target) (c : Change) : Bool :=
  edition.hasFeatures && c.targets.contains target && (edition == .edition2024 || !c.isRecent)

def apply (f : Features) : Change → Features
  | .presence p => { f with presence := p }
  | .closedEnums on => { f with closedEnums := on }
  | .packed on => { f with packed := on }
  | .checksStrings on => { f with checksStrings := on }
  | .delimited on => { f with delimited := on }
  | .strictJson on => { f with strictJson := on }
  | .styledNames on => { f with styledNames := on }
  | .visibility => f

end Change

/-! ## Settings that change features -/

def featuresOption : String := "features"

/-- The pairs of words in a block. A colon may stand between them; a comma or semicolon after. -/
def blockPairs? : List Token → Option (List (String × String))
  | [] => some []
  | .word feature :: .mark ':' :: .word value :: rest =>
    match rest with
    | .mark ',' :: rest | .mark ';' :: rest => (blockPairs? rest).map ((feature, value) :: ·)
    | rest => (blockPairs? rest).map ((feature, value) :: ·)
  | _ => none

/-- The feature that a setting names, with the rest of its words. -/
def featurePairs? (s : OptionSetting) : Option (List (String × String)) :=
  match s.parts, s.value with
  | [⟨_, false⟩], .block tokens => blockPairs? tokens
  | [⟨_, false⟩, ⟨feature, false⟩], .word value => some [(feature, value)]
  | _, _ => none

def isFeatureSetting (s : OptionSetting) : Bool :=
  s.parts.head? == some ⟨featuresOption, false⟩

/-- The changes that a setting makes, if it sets features and does so properly. -/
def changesOf? (s : OptionSetting) : Option (List Change) :=
  (featurePairs? s).bind fun pairs => pairs.mapM fun (feature, value) =>
    Change.ofWords? feature value

/-- All changes that settings make. -/
def changes (settings : List OptionSetting) : List Change :=
  (settings.filter isFeatureSetting).flatMap fun s => (changesOf? s).getD []

/-- The features of what stands inside features and has settings of its own. -/
def Features.within (f : Features) (settings : List OptionSetting) : Features :=
  (changes settings).foldl Change.apply f

/-- Settings leave the features alone if none is about them. -/
theorem Features.within_eq_self (f : Features) (settings : List OptionSetting)
    (h : ∀ s ∈ settings, isFeatureSetting s = false) : f.within settings = f := by
  have : settings.filter isFeatureSetting = [] := List.filter_eq_nil_iff.2 fun s hs => by
    simp [h s hs]
  simp [Features.within, changes, this]

end Treewire.Proto
