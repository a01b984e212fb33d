import PerfLedger.Files.Disk
import PerfLedger.Settings.Basic
import PerfLedger.Text.Utf8
import PerfLedger.Yaml.Document
import PerfLedger.Yaml.Printer

/-!
# Settings files

Settings are kept in a YAML file in UTF-8. A document that holds nothing gives the settings of a
store that is told nothing.
-/

namespace PerfLedger

/-- Why no settings can be read from a file. -/
inductive SettingsFileFault where
  | file (f : FileFault)
  | encoding (e : Text.Utf8Error)
  | document (f : Yaml.Fault)
  /-- The document gives no settings, for a reason of its own. -/
  | invalid (path : Path) (cause : SettingsFault)
  deriving DecidableEq

/-- What is reported; a cause is told after it. -/
def SettingsFileFault.message : SettingsFileFault → String
  | .file f => f.message
  | .encoding e => e.message
  | .document f => f.message
  | .invalid p _ => "Invalid store configuration in " ++ p.toText ++ ": "

/-- A value that counts as nothing: zero, or a text or collection without members. -/
def Value.isNothing : Value → Bool
  | .null | .bool false | .text "" | .bytes [] | .list [] | .tuple [] | .set [] | .dict [] => true
  | .int i => i == 0
  | .float x => x.isZero
  | .decimal d => d.isZero
  | _ => false

namespace Settings

/-! ## Reading -/

/-- The settings in the value of a document. -/
def ofDocument (v : Value) : Except SettingsFault Settings :=
  ofValue (if v.isNothing then .dict [] else v)

/-- The settings in a text. The value of the path lies two levels deep. -/
def ofYaml (path : Path) (text : List Char) : Except SettingsFileFault Settings := do
  let d ← (Yaml.Document.parse text).mapError .document
  (ofDocument (d.value 2)).mapError (.invalid path)

/-- The settings in the bytes of a file. -/
def ofBytes (path : Path) (bs : List UInt8) : Except SettingsFileFault Settings := do
  ofYaml path (← (Text.decodeUtf8 bs).mapError .encoding)

/-- The settings in a file. -/
def load (disk : Disk (List UInt8)) (path : Path) : Except SettingsFileFault Settings := do
  ofBytes path (← (disk.read path).mapError .file)

/-- What is noted when settings have been read. -/
def loadedMessage (path : Path) : String :=
  "Loaded store configuration from " ++ path.toText

/-- What is noted while settings are loaded from a file. -/
def loadNotes (disk : Disk (List UInt8)) (path : Path) : List String :=
  match load disk path with
  | .ok _ => [loadedMessage path]
  | .error _ => []

/-! ## Writing -/

/-- The settings as a YAML document. -/
def toYaml (s : Settings) : List Char :=
  Yaml.Printer.entry pathKey.toList s.databasePath.toList

/-- The disk with the settings in a file. The directory of the file is made if it is missing. -/
def save (s : Settings) (disk : Disk (List UInt8)) (path : Path) :
    Disk (List UInt8) × Except FileFault Unit :=
  match disk.ensureDirectory path.parent with
  | (disk, .error f) => (disk, .error f)
  | (disk, .ok _) =>
    match disk.write path (Text.encodeUtf8 s.toYaml) with
    | .ok disk => (disk, .ok ())
    | .error f => (disk, .error f)

end Settings

end PerfLedger
