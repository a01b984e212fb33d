import PerfLedger.Proofs.Settings.Load
import PerfLedger.Proofs.Files.Disk
import PerfLedger.Proofs.Text.Utf8
import PerfLedger.Proofs.Yaml.Printed

/-!
# Settings that are saved

Settings that were saved are loaded back, whatever their path is (`load_save`). Four steps meet
here: the file holds the bytes that were written, the bytes are the text that was printed, the text
is a document of one entry with the path in it, and the entry gives the settings.
-/

namespace PerfLedger

namespace Settings

open Yaml

variable {disk : Disk (List UInt8)} {path : Path}

/-! ## Documents -/

theorem isKeyWord_pathKey : IsKeyWord pathKey.toList where
  nonempty := by decide
  letters := List.all_eq_true.mp (by decide)
  short := by decide
  string := by decide +kernel

/-- The document that settings are printed as has their value. -/
theorem parse_toYaml (s : Settings) :
    ∃ d, Document.parse s.toYaml = .ok d ∧ ∀ n, d.value (n + 1) = s.toValue := by
  obtain ⟨d, hd, hvalue⟩ := parse_entry isKeyWord_pathKey s.databasePath.toList
  refine ⟨d, hd, fun n => ?_⟩
  rw [hvalue, String.ofList_toList, String.ofList_toList]
  rfl

theorem ofDocument_toValue (s : Settings) : ofDocument s.toValue = .ok s := by
  show ofPath s.databasePath = .ok s
  exact ofPath_eq_ok.mpr rfl

/-! ## Files -/

/-- A file that holds printed settings gives them. -/
theorem load_of_read {s : Settings} (h : disk.read path = .ok (Text.encodeUtf8 s.toYaml)) :
    load disk path = .ok s := by
  obtain ⟨d, hd, hvalue⟩ := s.parse_toYaml
  rw [load_eq h (Text.decodeUtf8_encodeUtf8 _) hd 0, hvalue, ofDocument_toValue]
  rfl

/--
**Settings that are saved are loaded back unchanged.**

Let every file of a disk that has a name exist. If the directory of a file can be made, and the path
of the file then leads somewhere but not to a directory, then any settings can be saved in the file,
and loading it gives just these settings.
-/
theorem load_save (s : Settings) (hdisk : disk.IsSound)
    (hdirectory : (disk.ensureDirectory path.parent).2 = .ok ()) {place : Place}
    (hplace : (disk.ensureDirectory path.parent).1.locate path = .ok place)
    (hfile : Disk.entry? (disk.ensureDirectory path.parent).1 place ≠ some .directory) :
    ∃ saved, s.save disk path = (saved, .ok ()) ∧ load saved path = .ok s := by
  obtain ⟨made, hmade⟩ : ∃ made, disk.ensureDirectory path.parent = (made, .ok ()) :=
    ⟨_, Prod.ext rfl hdirectory⟩
  have hsound : made.IsSound := by
    have hgains := disk.ensureDirectory_gains path.parent
    rw [hmade] at hgains
    exact hdisk.gainsDirectories hgains
  rw [hmade] at hplace hfile
  obtain ⟨opened, id, hopen⟩ := Disk.exists_openFile hplace hfile (Text.encodeUtf8 s.toYaml)
  obtain ⟨saved, hwrite⟩ : ∃ saved, made.write path (Text.encodeUtf8 s.toYaml) = .ok saved := by
    rw [Disk.write, hopen]
    exact ⟨_, rfl⟩
  refine ⟨saved, ?_, load_of_read (hsound.read_write hwrite)⟩
  simp only [save, hmade, hwrite]

/-- Settings with a path that needs quotes, escapes and more than one line. -/
def sampleFolded : Settings where
  databasePath :=
    String.ofList (" a: #\r\n\t'\"\\é ".toList ++ List.replicate 90 'b' ++ " c".toList)
  not_blank := by decide +kernel

/-- A path in a directory that is made first. -/
def nestedPath : Path :=
  ⟨"", ["nested", "store.yaml"]⟩

/-- Such settings are saved on an empty disk. -/
theorem load_save_nested :
    Disk.IsSound ({} : Disk (List UInt8)) ∧
      (({} : Disk (List UInt8)).ensureDirectory nestedPath.parent).2 = .ok () ∧
      ∃ saved, sampleFolded.save {} nestedPath = (saved, .ok ()) ∧
        load saved nestedPath = .ok sampleFolded := by
  have hdirectory : (({} : Disk (List UInt8)).ensureDirectory nestedPath.parent).2 = .ok () := by
    decide +kernel
  have hplace : (({} : Disk (List UInt8)).ensureDirectory nestedPath.parent).1.locate nestedPath
      = .ok ⟨false, 0, ["nested", "store.yaml"]⟩ := by decide +kernel
  have hfile : Disk.entry? (({} : Disk (List UInt8)).ensureDirectory nestedPath.parent).1
      ⟨false, 0, ["nested", "store.yaml"]⟩ ≠ some .directory := by decide +kernel
  exact ⟨Disk.isSound_empty, hdirectory,
    load_save sampleFolded Disk.isSound_empty hdirectory hplace hfile⟩

end Settings

end PerfLedger
