import PerfLedger.Json.Reader
import PerfLedger.Text.Blank

/-!
# Settings

The settings of a store are the path of its database, a text that is not blank. They are made from
a path, from a mapping, or from a JSON text; entries besides the path are ignored, and without the
path its default is taken.
-/

namespace PerfLedger

/-- The settings of a store. -/
structure Settings where
  databasePath : String
  /-- The path has a character that is not blank. -/
  not_blank : Text.isBlankText databasePath = false
  deriving DecidableEq

/-- Why there are no settings. -/
inductive SettingsFault where
  /-- The text is no JSON, for the reason given. -/
  | notJson (reason : String)
  /-- The JSON text is no object. -/
  | notObject
  /-- The value is no mapping. -/
  | notMapping
  | pathNotText
  | pathNotUnicode
  | pathTooShort
  | pathBlank
  deriving DecidableEq

namespace SettingsFault

/-- The kind of a fault. -/
def code : SettingsFault → String
  | .notJson _ => "json_invalid"
  | .notObject | .notMapping => "model_type"
  | .pathNotText => "string_type"
  | .pathNotUnicode => "string_unicode"
  | .pathTooShort => "string_too_short"
  | .pathBlank => "value_error"

/-- The entry that is at fault, if it is not the whole. -/
def entry? : SettingsFault → Option String
  | .notJson _ | .notObject | .notMapping => none
  | _ => some "db_path"

/-- What is reported. -/
def message : SettingsFault → String
  | .notJson r => "Invalid JSON: " ++ r
  | .notObject => "Input should be an object"
  | .notMapping => "Input should be a valid dictionary or instance of StoreConfig"
  | .pathNotText => "Input should be a valid string"
  | .pathNotUnicode =>
    "Input should be a valid string, unable to parse raw data as a unicode string"
  | .pathTooShort => "String should have at least 1 character"
  | .pathBlank => "Value error, db_path must not be blank"

end SettingsFault

namespace Settings

/-- The path of a store that is not told where to keep its results. -/
def defaultPath : String := "results/results.db"

/-- The settings of a store that is told nothing. -/
def initial : Settings where
  databasePath := defaultPath
  not_blank := by decide +kernel

instance : Inhabited Settings := ⟨initial⟩

/-- The settings with a path. -/
def ofPath (s : String) : Except SettingsFault Settings :=
  if s = "" then .error .pathTooShort
  else if h : Text.isBlankText s = false then .ok ⟨s, h⟩
  else .error .pathBlank

/-- The settings with the path that a value gives: a text, or a text in UTF-8. Half a surrogate pair
has no place in either. -/
def ofPathValue : Value → Except SettingsFault Settings
  | .text s => ofPath s
  | .bytes bs =>
    match Text.decodeUtf8 bs with
    | .ok cs => ofPath (String.ofList cs)
    | .error _ => .error .pathNotUnicode
  | .brokenText => .error .pathNotUnicode
  | _ => .error .pathNotText

/-- The name under which the path is kept. -/
def pathKey : String := "db_path"

/-- A value that is a text. -/
def isText (s : String) : Value → Bool
  | .text t => t == s
  | _ => false

/-- The value of the last entry for the path. -/
def pathEntry? (entries : List (Value × Value)) : Option Value :=
  (entries.reverse.find? fun e => isText pathKey e.1).map (·.2)

/-- The settings in the entries of a mapping. -/
def ofEntries (entries : List (Value × Value)) : Except SettingsFault Settings :=
  match pathEntry? entries with
  | some v => ofPathValue v
  | none => .ok initial

/-- The settings in a value, which has to be a mapping. -/
def ofValue : Value → Except SettingsFault Settings
  | .dict entries => ofEntries entries
  | _ => .error .notMapping

/-- The settings in a JSON text, which has to be an object. -/
def ofJson (text : String) : Except SettingsFault Settings :=
  match Json.parse text with
  | .error f => .error (.notJson (f.message text))
  | .ok (.dict entries) => ofEntries entries
  | .ok _ => .error .notObject

/-- The settings as a mapping. -/
def toValue (s : Settings) : Value :=
  .dict [(.text pathKey, .text s.databasePath)]

/-- The settings as a JSON text. -/
def toJson (s : Settings) : String :=
  String.ofList <| '\x7b' :: Json.encode pathKey.toList ++ ':' ::
    Json.encode s.databasePath.toList ++ ['\x7d']

end Settings

end PerfLedger
