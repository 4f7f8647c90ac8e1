import Treewire.Proto.Feature

/-!
# Options

Every kind of declaration has a table of options, each with the type of its value. A setting names an
option of the table, gives it a fitting value, and does so once.
-/

namespace Treewire.Proto

inductive OptionType where
  | bool
  | string
  | choice (names : List String)
  /-- Any number of choices, one a setting. -/
  | choices (names : List String)
  | record
  deriving DecidableEq, Inhabited

def jsTypes : List String := ["JS_NORMAL", "JS_STRING", "JS_NUMBER"]

def targetNames : List String :=
  ["TARGET_TYPE_UNKNOWN", "TARGET_TYPE_FILE", "TARGET_TYPE_EXTENSION_RANGE",
    "TARGET_TYPE_MESSAGE", "TARGET_TYPE_FIELD", "TARGET_TYPE_ONEOF", "TARGET_TYPE_ENUM",
    "TARGET_TYPE_ENUM_ENTRY", "TARGET_TYPE_SERVICE", "TARGET_TYPE_METHOD"]

/-- Options with their types. -/
def knownOptions : Target → List (String × OptionType)
  | .file =>
    [("java_package", .string), ("java_outer_classname", .string),
      ("java_multiple_files", .bool), ("java_generate_equals_and_hash", .bool),
      ("java_string_check_utf8", .bool),
      ("optimize_for", .choice ["SPEED", "CODE_SIZE", "LITE_RUNTIME"]), ("go_package", .string),
      ("cc_generic_services", .bool), ("java_generic_services", .bool),
      ("py_generic_services", .bool), ("deprecated", .bool), ("cc_enable_arenas", .bool),
      ("objc_class_prefix", .string), ("csharp_namespace", .string), ("swift_prefix", .string),
      ("php_class_prefix", .string), ("php_namespace", .string),
      ("php_metadata_namespace", .string), ("ruby_package", .string)]
  | .message =>
    [("message_set_wire_format", .bool), ("no_standard_descriptor_accessor", .bool),
      ("deprecated", .bool), ("deprecated_legacy_json_field_conflicts", .bool)]
  | .field =>
    [("ctype", .choice ["STRING", "CORD", "STRING_PIECE"]), ("packed", .bool),
      ("jstype", .choice jsTypes), ("lazy", .bool), ("unverified_lazy", .bool),
      ("deprecated", .bool), ("weak", .bool), ("debug_redact", .bool),
      ("retention", .choice ["RETENTION_UNKNOWN", "RETENTION_RUNTIME", "RETENTION_SOURCE"]),
      ("targets", .choices targetNames), ("edition_defaults", .record),
      ("feature_support", .record)]
  | .oneof => []
  | .enum =>
    [("allow_alias", .bool), ("deprecated", .bool),
      ("deprecated_legacy_json_field_conflicts", .bool)]
  | .enumValue => [("deprecated", .bool), ("debug_redact", .bool), ("feature_support", .record)]
  | .service => [("deprecated", .bool)]
  | .method =>
    [("deprecated", .bool),
      ("idempotency_level", .choice ["IDEMPOTENCY_UNKNOWN", "NO_SIDE_EFFECTS", "IDEMPOTENT"])]
  | .range => [("declaration", .record), ("verification", .choice ["DECLARATION", "UNVERIFIED"])]

def OptionType.fits : OptionType → OptionValue → Bool
  | .bool, .word w => w == "true" || w == "false"
  | .string, .string _ => true
  | .choice names, .word w | .choices names, .word w => names.contains w
  | .record, .block _ => true
  | _, _ => false

/-- Whether a setting is one that the table or the features allow. -/
def isKnownSetting (edition : Edition) (target : Target) (s : OptionSetting) : Bool :=
  if isFeatureSetting s then
    (changesOf? s).any fun cs => cs.all (Change.isAllowed edition target)
  else match s.parts with
    | [⟨name, false⟩] => ((knownOptions target).lookup name).any fun t => t.fits s.value
    | _ => false

/-- What a setting sets, as names from the outside in. -/
def settingPaths (s : OptionSetting) : List (List String) :=
  if isFeatureSetting s then
    match s.parts, featurePairs? s with
    | [_], some pairs => [featuresOption] :: pairs.map fun p => [featuresOption, p.1]
    | _, _ => [s.parts.map (·.name)]
  else match s.parts with
    | [⟨"targets", _⟩] | [⟨"edition_defaults", _⟩] | [⟨"declaration", _⟩] => []
    | parts => [parts.map (·.name)]

/-- Whether no setting sets what one before it set, or a part of which one before it set. -/
def settleOnce (seen : List (List String)) : List OptionSetting → Bool
  | [] => true
  | s :: rest =>
    let paths := settingPaths s
    isDistinct paths && (paths.take 1).all (fun p => !(seen.any fun q => p.isPrefixOf q)) &&
      settleOnce (seen ++ paths) rest

/-- Whether all settings on a declaration are proper. -/
def areProperSettings (edition : Edition) (target : Target) (settings : List OptionSetting) :
    Bool :=
  settings.all (isKnownSetting edition target) && settleOnce [] settings

/-- The word that an option is set to. -/
def wordOf? (name : String) (settings : List OptionSetting) : Option String :=
  settings.findSome? fun s =>
    match s.parts, s.value with
    | [⟨n, false⟩], .word w => if n = name then some w else none
    | _, _ => none

/-- Whether an option is set to true. -/
def isSet (name : String) (settings : List OptionSetting) : Bool :=
  wordOf? name settings == some "true"

end Treewire.Proto
