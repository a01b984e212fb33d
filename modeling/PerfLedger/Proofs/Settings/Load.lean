import PerfLedger.Proofs.Yaml.Document
import PerfLedger.Settings.File

/-!
# Which files give settings

A settings file gives settings by the value of its document: nothing at all, or a mapping whose last
entry for the path, if it has one, gives a path that is not blank (`Value.Configures`). A path is
given by a text, and also by bytes that are a text in UTF-8.

`load_configures` says that these are all the files with which loading succeeds, and that it notes
nothing where it fails. It leaves out the values besides these that count as nothing, such as zero
or an empty list.
-/

namespace PerfLedger

/-! ## Values -/

namespace Value

/-- A path is given by a text, or by bytes that are a text in UTF-8. -/
inductive GivesPath : Value → String → Prop where
  | text (s : String) : GivesPath (.text s) s
  | bytes {bs : List UInt8} {cs : List Char} (decoded : Text.decodeUtf8 bs = .ok cs) :
      GivesPath (.bytes bs) (String.ofList cs)

/-- The last entry for the path holds a value. -/
def HasPathEntry (entries : List (Value × Value)) (v : Value) : Prop :=
  ∃ before behind, entries = before ++ (.text Settings.pathKey, v) :: behind ∧
    ∀ e ∈ behind, e.1 ≠ .text Settings.pathKey

/-- A value is that of a document that gives settings with a path. -/
inductive Configures : Value → String → Prop where
  | nothing : Configures .null Settings.defaultPath
  | silent {entries : List (Value × Value)}
      (absent : ∀ e ∈ entries, e.1 ≠ .text Settings.pathKey) :
      Configures (.dict entries) Settings.defaultPath
  | entry {entries : List (Value × Value)} {v : Value} {p : String}
      (last : HasPathEntry entries v) (gives : v.GivesPath p)
      (notBlank : ∃ c ∈ p.toList, Text.isBlank c = false) : Configures (.dict entries) p

end Value

namespace Settings

variable {v : Value} {s : Settings} {p : String} {entries : List (Value × Value)}

theorem isText_iff {t : String} : isText t v = true ↔ v = .text t := by
  cases v <;> simp [isText]

theorem isText_eq_false {t : String} : isText t v = false ↔ v ≠ .text t := by
  rw [← Bool.not_eq_true, isText_iff]

theorem eq_of_databasePath {s t : Settings} (h : s.databasePath = t.databasePath) : s = t := by
  obtain ⟨p, hp⟩ := s
  obtain rfl : p = t.databasePath := h
  rfl

theorem isBlankText_eq_false :
    Text.isBlankText p = false ↔ ∃ c ∈ p.toList, Text.isBlank c = false := by
  simp [Text.isBlankText]

theorem ofPath_eq_ok : ofPath p = .ok s ↔ s.databasePath = p := by
  unfold ofPath
  constructor
  · intro h
    split at h
    · exact absurd h (by simp)
    · split at h
      · rw [← Except.ok.inj h]
      · exact absurd h (by simp)
  · rintro rfl
    have hne : s.databasePath ≠ "" := by
      intro hempty
      have hblank := s.not_blank
      rw [hempty] at hblank
      exact absurd hblank (by decide)
    rw [if_neg hne, dif_pos s.not_blank]

theorem ofPathValue_eq_ok : ofPathValue v = .ok s ↔ v.GivesPath s.databasePath := by
  constructor
  · intro h
    cases v with
    | text t =>
      rw [ofPath_eq_ok.mp h]
      exact .text t
    | bytes bs =>
      simp only [ofPathValue] at h
      split at h
      · next cs hcs =>
        rw [ofPath_eq_ok.mp h]
        exact .bytes hcs
      · exact absurd h (by simp)
    | _ => exact absurd h (by simp [ofPathValue])
  · generalize hp : s.databasePath = p
    rintro (t | hcs)
    · exact ofPath_eq_ok.mpr hp
    · simp only [ofPathValue, hcs]
      exact ofPath_eq_ok.mpr hp

theorem pathEntry_eq_some : pathEntry? entries = some v ↔ Value.HasPathEntry entries v := by
  unfold pathEntry?
  simp only [Option.map_eq_some_iff, List.find?_eq_some_iff_append, isText_iff]
  constructor
  · rintro ⟨⟨k, v'⟩, ⟨hk, as, bs, hrev, has⟩, rfl⟩
    refine ⟨bs.reverse, as.reverse, ?_, ?_⟩
    · rw [← entries.reverse_reverse, hrev, ← hk]
      simp
    · intro e he
      simpa [isText_eq_false] using has e (List.mem_reverse.mp he)
  · rintro ⟨before, behind, rfl, hbehind⟩
    refine ⟨(.text pathKey, v), ⟨rfl, behind.reverse, before.reverse, by simp, ?_⟩, rfl⟩
    intro e he
    simpa [isText_eq_false] using hbehind e (List.mem_reverse.mp he)

theorem pathEntry_eq_none :
    pathEntry? entries = none ↔ ∀ e ∈ entries, e.1 ≠ .text pathKey := by
  unfold pathEntry?
  simp [isText_iff]

theorem ofEntries_eq_ok :
    ofEntries entries = .ok s ↔ (Value.dict entries).Configures s.databasePath := by
  unfold ofEntries
  constructor
  · intro h
    split at h
    · next v hv =>
      exact .entry (pathEntry_eq_some.mp hv) (ofPathValue_eq_ok.mp h)
        (isBlankText_eq_false.mp s.not_blank)
    · next hnone =>
      rw [← Except.ok.inj h]
      exact .silent (pathEntry_eq_none.mp hnone)
  · generalize hp : s.databasePath = p
    intro h
    cases h with
    | silent absent =>
      rw [pathEntry_eq_none.mpr absent]
      exact congrArg Except.ok (eq_of_databasePath hp.symm)
    | entry last gives notBlank =>
      rw [pathEntry_eq_some.mpr last]
      exact ofPathValue_eq_ok.mpr (hp ▸ gives)

/-- **A value gives the settings that it configures**, unless it counts as nothing and is neither
nothing nor an empty mapping. -/
theorem ofDocument_eq_ok (hv : v.isNothing = true → v = .null ∨ v = .dict []) :
    ofDocument v = .ok s ↔ v.Configures s.databasePath := by
  have hinitial : initial = s ↔ Value.Configures .null s.databasePath := by
    constructor
    · rintro rfl
      exact .nothing
    · generalize hp : s.databasePath = p
      rintro ⟨⟩
      exact eq_of_databasePath hp.symm
  unfold ofDocument
  by_cases hnothing : v.isNothing = true
  · rw [if_pos hnothing]
    rcases hv hnothing with rfl | rfl
    · show Except.ok initial = .ok s ↔ _
      rw [Except.ok.injEq, hinitial]
    · show ofEntries [] = .ok s ↔ _
      exact ofEntries_eq_ok
  · rw [if_neg hnothing]
    cases v with
    | dict entries => exact ofEntries_eq_ok
    | null => exact absurd rfl hnothing
    | _ => exact ⟨fun h => absurd h (by simp [ofValue]), fun h => by cases h⟩

theorem exists_of_configures (h : v.Configures p) : ∃ s : Settings, s.databasePath = p := by
  cases h with
  | nothing => exact ⟨initial, rfl⟩
  | silent absent => exact ⟨initial, rfl⟩
  | entry last gives notBlank => exact ⟨⟨p, isBlankText_eq_false.mpr notBlank⟩, rfl⟩

/-! ## Documents -/

open Yaml

theorem isText_valueOf (d : Document) (t : String) (m n id : Nat) :
    isText t (d.valueOf m id) = isText t (d.valueOf n id) := by
  cases m <;> cases n <;> simp only [Document.valueOf] <;> split <;> rfl

theorem ofPathValue_valueOf (d : Document) (m n id : Nat) :
    ofPathValue (d.valueOf m id) = ofPathValue (d.valueOf n id) := by
  cases m <;> cases n <;> simp only [Document.valueOf] <;> split <;> rfl

theorem ofEntries_valueOf (d : Document) (m n : Nat) (es : List (Nat × Nat)) :
    ofEntries (es.map fun e => (d.valueOf m e.1, d.valueOf m e.2))
      = ofEntries (es.map fun e => (d.valueOf n e.1, d.valueOf n e.2)) := by
  -- The same entry is found at both depths.
  have hentry (k : Nat) :
      pathEntry? (es.map fun e => (d.valueOf k e.1, d.valueOf k e.2))
        = (es.reverse.find? fun e => isText pathKey (d.valueOf n e.1)).map
          fun e => d.valueOf k e.2 := by
    unfold pathEntry?
    simp only [← List.map_reverse, List.find?_map, Option.map_map, Function.comp_def,
      isText_valueOf d pathKey k n]
  unfold ofEntries
  rw [hentry m, hentry n]
  cases es.reverse.find? fun e => isText pathKey (d.valueOf n e.1) with
  | none => rfl
  | some e => exact ofPathValue_valueOf d m n e.2

/-- How deep a document is looked into makes no difference. -/
theorem ofDocument_value (d : Document) (m n : Nat) :
    ofDocument (d.value (m + 1)) = ofDocument (d.value (n + 1)) := by
  unfold Document.value
  cases d.root with
  | none => rfl
  | some id =>
    simp only [Document.valueOf]
    cases d.datum id with
    | scalar v => rfl
    | list xs => cases xs <;> rfl
    | pairs es => cases es <;> rfl
    | set xs => cases xs <;> rfl
    | dict es =>
      cases es with
      | nil => rfl
      | cons e es => exact ofEntries_valueOf d m n (e :: es)

/-! ## Files -/

variable {disk : Disk (List UInt8)} {path : Path} {bs : List UInt8} {cs : List Char} {d : Document}

theorem load_eq (hread : disk.read path = .ok bs) (htext : Text.decodeUtf8 bs = .ok cs)
    (hdoc : Document.parse cs = .ok d) (n : Nat) :
    load disk path = (ofDocument (d.value (n + 1))).mapError (.invalid path) := by
  simp only [load, ofBytes, ofYaml, hread, htext, hdoc, Except.mapError, bind, Except.bind]
  rw [ofDocument_value d 1 n]

/--
**Which files give settings.**

Let a file be a text in UTF-8, and the text a document, whose value is looked into to any depth but
zero. If the value is nothing, or a mapping, or does not count as nothing, then loading the file
gives settings with a path if and only if the value configures that path. Otherwise there is an
error, whose cause is what is wrong with the value, and nothing is noted.
-/
theorem load_configures (hread : disk.read path = .ok bs) (htext : Text.decodeUtf8 bs = .ok cs)
    (hdoc : Document.parse cs = .ok d) {n : Nat} {v : Value} (hvalue : d.value (n + 1) = v)
    (hv : v.isNothing = true → v = .null ∨ v = .dict []) :
    (∀ p, (∃ s, load disk path = .ok s ∧ s.databasePath = p) ↔ v.Configures p) ∧
      ((∀ p, ¬v.Configures p) → loadNotes disk path = [] ∧
        ∃ cause, ofValue v = .error cause ∧ load disk path = .error (.invalid path cause)) := by
  have hload : load disk path = (ofDocument v).mapError (.invalid path) := by
    rw [load_eq hread htext hdoc n, hvalue]
  constructor
  · intro p
    constructor
    · rintro ⟨s, hs, rfl⟩
      exact (ofDocument_eq_ok hv).mp (mapError_eq_ok.mp (hload ▸ hs))
    · intro hp
      obtain ⟨s, rfl⟩ := exists_of_configures hp
      exact ⟨s, hload.trans (mapError_eq_ok.mpr ((ofDocument_eq_ok hv).mpr hp)), rfl⟩
  · intro hnone
    have hsomething : v.isNothing = false := by
      by_contra hnothing
      rcases hv (eq_true_of_ne_false hnothing) with rfl | rfl
      · exact hnone _ .nothing
      · exact hnone _ (.silent (by simp))
    cases hof : ofDocument v with
    | ok s => exact absurd ((ofDocument_eq_ok hv).mp hof) (hnone _)
    | error cause =>
      have herror : load disk path = .error (.invalid path cause) := by
        rw [hload, hof]
        rfl
      refine ⟨by simp only [loadNotes, herror], cause, ?_, herror⟩
      rw [ofDocument, hsomething] at hof
      exact hof

/-! ## Samples -/

/-- The path of the samples. -/
def samplePath : Path :=
  ⟨"", ["store.yaml"]⟩

/-- A disk with one file. -/
def sampleDisk (text : String) : Disk (List UInt8) where
  entries := [(samplePath.start.inner "store.yaml", .file 0)]
  files := [Text.encodeUtf8 text.toList]

/-- The path is blank. -/
def sampleBlank : String := "db_path: ' '"

theorem tokens_sampleBlank :
    (tokenStream sampleBlank.toList).tokens
      = [.streamStart, .blockMappingStart, .key, .scalar true (some pathKey.toList), .value,
        .scalar false (some [' ']), .blockEnd, .streamEnd] ∧
      (tokenStream sampleBlank.toList).fault = none := by
  decide +kernel

theorem parse_sampleBlank :
    ∃ d, Document.parse sampleBlank.toList = .ok d ∧
      ∀ n, d.value (n + 1) = .dict [(.text pathKey, .text " ")] := by
  have hnodes : readNodes sampleBlank.toList = .ok (some 0, entryNodes
      ⟨Tag.str, .scalar (some pathKey.toList)⟩ ⟨Tag.str, .scalar (some [' '])⟩) := by
    simp only [readNodes, tokens_sampleBlank]
    rfl
  exact parse_entryNodes (by decide +kernel) (by decide +kernel) hnodes (by decide) (by rfl)

/-- A blank path is refused, and nothing is noted. -/
theorem load_configures_blank :
    ∃ d v, (sampleDisk sampleBlank).read samplePath = .ok (Text.encodeUtf8 sampleBlank.toList) ∧
      Text.decodeUtf8 (Text.encodeUtf8 sampleBlank.toList) = .ok sampleBlank.toList ∧
      Document.parse sampleBlank.toList = .ok d ∧ d.value 2 = v ∧
      (v.isNothing = true → v = .null ∨ v = .dict []) ∧ (∀ p, ¬v.Configures p) ∧
      loadNotes (sampleDisk sampleBlank) samplePath = [] ∧
      load (sampleDisk sampleBlank) samplePath = .error (.invalid samplePath .pathBlank) := by
  obtain ⟨d, hd, hvalue⟩ := parse_sampleBlank
  have hread : (sampleDisk sampleBlank).read samplePath
      = .ok (Text.encodeUtf8 sampleBlank.toList) := by decide +kernel
  have htext : Text.decodeUtf8 (Text.encodeUtf8 sampleBlank.toList) = .ok sampleBlank.toList := by
    decide +kernel
  have hv : (Value.dict [(.text pathKey, .text " ")]).isNothing = true →
      Value.dict [(.text pathKey, .text " ")] = .null ∨
        Value.dict [(.text pathKey, .text " ")] = .dict [] :=
    fun h => absurd h (by simp [Value.isNothing])
  have herror : load (sampleDisk sampleBlank) samplePath
      = .error (.invalid samplePath .pathBlank) := by
    rw [load_eq hread htext hd 1, hvalue]
    rfl
  obtain ⟨hloads, hfails⟩ := load_configures hread htext hd (hvalue 1) hv
  have hnone (p : String) : ¬(Value.dict [(.text pathKey, .text " ")]).Configures p := by
    intro h
    obtain ⟨s, hs, -⟩ := (hloads p).mpr h
    rw [herror] at hs
    exact absurd hs (by simp)
  exact ⟨d, _, hread, htext, hd, hvalue 1, hv, hnone, (hfails hnone).1, herror⟩

/-- The path is given in base 64. -/
def sampleBytes : String := "db_path: !!binary aGk="

theorem tokens_sampleBytes :
    (tokenStream sampleBytes.toList).tokens
      = [.streamStart, .blockMappingStart, .key, .scalar true (some pathKey.toList), .value,
        .tag (some "!!") "binary", .scalar true (some "aGk=".toList), .blockEnd, .streamEnd] ∧
      (tokenStream sampleBytes.toList).fault = none := by
  decide +kernel

theorem parse_sampleBytes :
    ∃ d, Document.parse sampleBytes.toList = .ok d ∧
      ∀ n, d.value (n + 1) = .dict [(.text pathKey, .bytes [104, 105])] := by
  have hnodes : readNodes sampleBytes.toList = .ok (some 0, entryNodes
      ⟨Tag.str, .scalar (some pathKey.toList)⟩ ⟨Tag.binary, .scalar (some "aGk=".toList)⟩) := by
    simp only [readNodes, tokens_sampleBytes]
    rfl
  exact parse_entryNodes (by decide +kernel) (by decide +kernel) hnodes (by decide) (by rfl)

/-- A mapping whose path is bytes gives settings. -/
theorem load_accepts_bytes :
    ∃ d, (sampleDisk sampleBytes).read samplePath = .ok (Text.encodeUtf8 sampleBytes.toList) ∧
      Text.decodeUtf8 (Text.encodeUtf8 sampleBytes.toList) = .ok sampleBytes.toList ∧
      Document.parse sampleBytes.toList = .ok d ∧
      (∀ n, d.value (n + 1) = .dict [(.text pathKey, .bytes [104, 105])]) ∧
      ∃ s, load (sampleDisk sampleBytes) samplePath = .ok s ∧ s.databasePath = "hi" := by
  obtain ⟨d, hd, hvalue⟩ := parse_sampleBytes
  have hread : (sampleDisk sampleBytes).read samplePath
      = .ok (Text.encodeUtf8 sampleBytes.toList) := by decide +kernel
  have htext : Text.decodeUtf8 (Text.encodeUtf8 sampleBytes.toList) = .ok sampleBytes.toList := by
    decide +kernel
  refine ⟨d, hread, htext, hd, hvalue, ⟨"hi", by decide⟩, ?_, rfl⟩
  rw [load_eq hread htext hd 0, hvalue]
  rfl

end Settings

end PerfLedger
