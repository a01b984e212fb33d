import PerfLedger.Files.Disk

/-!
# Disks that grow

Making directories and opening files only put something where there was nothing, so what a path led
to it leads to afterwards (`Extends`). The files keep their numbers and contents, and a file that is
made gets the next number.

A path that leads anywhere leads to a place that can be read off its names alone
(`locate_eq_place`): two paths lead to one file if and only if they have one place.
-/

namespace PerfLedger

/-- The place that names lead to if there are directories on the way. -/
def Place.along (p : Place) : List String → Place
  | [] => p
  | n :: ns => (if n = ".." then p.outer else p.inner n).along ns

/-- The place that a path leads to if it leads anywhere. -/
def Path.place (p : Path) : Place :=
  p.start.along p.names

namespace Disk

variable {α : Type} {d d' d'' : Disk α}

/-- What stands somewhere on the one disk stands there on the other one. -/
def Extends (d d' : Disk α) : Prop :=
  ∀ p e, d.entry? p = some e → d'.entry? p = some e

/-- Every file that has a name exists. -/
def IsSound (d : Disk α) : Prop :=
  ∀ p id, d.entry? p = some (.file id) → id < d.files.length

theorem Extends.refl (d : Disk α) : d.Extends d := fun _ _ h => h

theorem Extends.trans (h : d.Extends d') (h' : d'.Extends d'') : d.Extends d'' :=
  fun p e he => h' p e (h p e he)

theorem isSound_empty : IsSound ({} : Disk α) := by
  intro p id hp
  unfold entry? at hp
  split at hp
  · exact absurd hp (by simp)
  · exact absurd hp (by simp)

/-! ## Following paths -/

theorem entry?_of_names_eq_nil {p : Place} (h : p.names = []) : d.entry? p = some .directory :=
  if_pos h

theorem step_eq_ok {p q : Place} {n : String} (h : step p n = .ok q) :
    q = if n = ".." then p.outer else p.inner n := by
  unfold step at h
  split at h
  · next hn => rw [if_pos hn]; exact (Except.ok.inj h).symm
  · next hn =>
    rw [if_neg hn]
    split at h
    · exact absurd h (by simp)
    · exact (Except.ok.inj h).symm

theorem follow_cons_eq_ok {p q : Place} {n : String} {ns : List String} :
    d.follow p (n :: ns) = .ok q ↔
      d.entry? p = some .directory ∧ ∃ p', step p n = .ok p' ∧ d.follow p' ns = .ok q := by
  rw [follow]
  split
  · next h => simp [h]
  · next h => simp [h]
  · next h =>
    cases hs : step p n with
    | error e => simp [bind, Except.bind]
    | ok p' => simp [h, bind, Except.bind]

theorem follow_eq_along {p q : Place} {ns : List String} (h : d.follow p ns = .ok q) :
    q = p.along ns := by
  induction ns generalizing p with
  | nil => exact (Except.ok.inj h).symm
  | cons n ns ih =>
    obtain ⟨-, p', hp', h'⟩ := follow_cons_eq_ok.mp h
    rw [ih h', step_eq_ok hp']
    rfl

theorem locate_eq_ok {p : Path} {q : Place} :
    d.locate p = .ok q ↔ '\x00' ∉ p.toText.toList ∧ p.byteCount ≤ pathLimit ∧
      d.follow p.start p.names = .ok q := by
  simp only [locate, List.contains_iff_mem]
  split
  · next hnul => simp [hnul]
  · next hnul =>
    split
    · next hlen =>
      simp only [reduceCtorEq, false_iff]
      rintro ⟨-, hle, -⟩
      omega
    · next hlen => simp [hnul, Nat.le_of_not_lt hlen]

/-- **Where a path leads can be read off its names.** -/
theorem locate_eq_place {p : Path} {q : Place} (h : d.locate p = .ok q) : q = p.place :=
  follow_eq_along (locate_eq_ok.mp h).2.2

theorem Extends.follow (hd : d.Extends d') {p q : Place} {ns : List String}
    (h : d.follow p ns = .ok q) : d'.follow p ns = .ok q := by
  induction ns generalizing p with
  | nil => exact h
  | cons n ns ih =>
    obtain ⟨he, p', hp', h'⟩ := follow_cons_eq_ok.mp h
    exact follow_cons_eq_ok.mpr ⟨hd _ _ he, p', hp', ih h'⟩

theorem Extends.locate (hd : d.Extends d') {p : Path} {q : Place} (h : d.locate p = .ok q) :
    d'.locate p = .ok q := by
  obtain ⟨hnul, hlen, hfollow⟩ := locate_eq_ok.mp h
  exact locate_eq_ok.mpr ⟨hnul, hlen, hd.follow hfollow⟩

theorem find?_eq_some {p : Path} {e : DiskEntry} :
    d.find? p = some e ↔ d.locate p = .ok p.place ∧ d.entry? p.place = some e := by
  unfold find?
  cases h : d.locate p with
  | error f => simp
  | ok q =>
    obtain rfl := locate_eq_place h
    simp

theorem fileId?_eq_some {p : Path} {id : Nat} :
    d.fileId? p = some id ↔
      d.locate p = .ok p.place ∧ d.entry? p.place = some (.file id) := by
  rw [← find?_eq_some]
  unfold fileId?
  split
  · next h => rw [h]; simp
  · next h =>
    constructor
    · intro hc; exact absurd hc (by simp)
    · intro hc; exact absurd hc (h id)

theorem Extends.fileId? (hd : d.Extends d') {p : Path} {id : Nat} (h : d.fileId? p = some id) :
    d'.fileId? p = some id := by
  obtain ⟨hl, he⟩ := fileId?_eq_some.mp h
  exact fileId?_eq_some.mpr ⟨hd.locate hl, hd _ _ he⟩

theorem isDirectory_iff {p : Path} :
    d.isDirectory p = true ↔
      d.locate p = .ok p.place ∧ d.entry? p.place = some .directory := by
  rw [← find?_eq_some, isDirectory, beq_iff_eq]

/-! ## The directory that holds a file -/

theorem follow_concat_eq_ok {p q : Place} {ns : List String} {n : String} :
    d.follow p (ns ++ [n]) = .ok q ↔
      ∃ p', d.follow p ns = .ok p' ∧ d.entry? p' = some .directory ∧ step p' n = .ok q := by
  induction ns generalizing p with
  | nil =>
    rw [List.nil_append, follow_cons_eq_ok]
    constructor
    · rintro ⟨he, p', hp', hq⟩
      obtain rfl := Except.ok.inj hq
      exact ⟨p, rfl, he, hp'⟩
    · rintro ⟨p', hp', he, hq⟩
      obtain rfl := Except.ok.inj hp'
      exact ⟨he, q, hq, rfl⟩
  | cons m ns ih =>
    simp only [List.cons_append, follow_cons_eq_ok, ih]
    constructor
    · rintro ⟨he, p₁, hp₁, p', hp', hdir, hq⟩
      exact ⟨p', ⟨he, p₁, hp₁, hp'⟩, hdir, hq⟩
    · rintro ⟨p', ⟨he, p₁, hp₁, hp'⟩, hdir, hq⟩
      exact ⟨he, p₁, hp₁, p', hp', hdir, hq⟩

theorem intercalate_prefix (sep : List Char) (ls : List (List Char)) (l : List Char) :
    sep.intercalate ls <+: sep.intercalate (ls ++ [l]) := by
  induction ls with
  | nil => exact List.nil_prefix
  | cons x xs ih =>
    cases xs with
    | nil =>
      rw [List.intercalate_singleton, List.singleton_append, List.intercalate_cons_cons,
        List.append_assoc]
      exact List.prefix_append _ _
    | cons y ys =>
      rw [List.cons_append, List.cons_append, List.intercalate_cons_cons,
        List.intercalate_cons_cons]
      exact (List.prefix_append_right_inj _).mpr ih

/-- The text of a path starts with that of its parent, unless that one is a mere dot. -/
theorem toText_parent {p : Path} (h : p.names ≠ []) :
    p.parent.toText = "." ∨ p.parent.toText.toList <+: p.toText.toList := by
  by_cases hdot : p.parent.root = "" ∧ p.parent.names = []
  · exact .inl (if_pos hdot)
  · refine .inr ?_
    rw [Path.toText, if_neg hdot, Path.toText, if_neg fun hc => h hc.2, String.toList_append,
      String.toList_append, String.toList_intercalate, String.toList_intercalate]
    refine (List.prefix_append_right_inj _).mpr ?_
    rw [Path.parent, ← List.dropLast_concat_getLast h, List.map_append, List.dropLast_concat]
    exact intercalate_prefix _ _ _

/-- A path leads somewhere only through the directory that is its parent. -/
theorem isDirectory_parent_of_locate {p : Path} {q : Place} (h : d.locate p = .ok q)
    (hne : p.names ≠ []) : d.isDirectory p.parent = true := by
  obtain ⟨hnul, hlen, hl⟩ := locate_eq_ok.mp h
  rw [← List.dropLast_concat_getLast hne] at hl
  obtain ⟨q, hq, hdir, -⟩ := follow_concat_eq_ok.mp hl
  -- The text of the parent is no longer than that of the path, and holds no other characters.
  have hloc : d.locate p.parent = .ok q := by
    rw [locate_eq_ok]
    rcases toText_parent hne with hdot | ⟨cs, hcs⟩
    · rw [Path.byteCount, hdot]
      exact ⟨by decide, by decide +kernel, hq⟩
    · rw [← hcs] at hnul
      refine ⟨fun hc => hnul (List.mem_append_left _ hc), ?_, hq⟩
      rw [Path.byteCount, ← hcs, Text.encodeUtf8, List.flatMap_append, List.length_append] at hlen
      rw [Path.byteCount, Text.encodeUtf8]
      omega
  obtain rfl := locate_eq_place hloc
  exact isDirectory_iff.mpr ⟨hloc, hdir⟩

/-- What holds a file is a directory. -/
theorem isDirectory_parent {p : Path} {id : Nat} (h : d.fileId? p = some id) :
    d.isDirectory p.parent = true := by
  obtain ⟨hl, he⟩ := fileId?_eq_some.mp h
  refine isDirectory_parent_of_locate hl ?_
  intro hnil
  have hplace : p.place = p.start := by rw [Path.place, hnil, Place.along]
  rw [hplace, entry?_of_names_eq_nil rfl] at he
  exact absurd he (by simp)

/-! ## Putting something somewhere -/

theorem entry?_put (d : Disk α) (p q : Place) (e : DiskEntry) :
    Disk.entry? (d.put p e) q
      = if q.names = [] then some .directory else if p = q then some e else d.entry? q := by
  unfold entry?
  split
  · rfl
  · simp only [put, List.find?_cons]
    split
    · next h => rw [if_pos (beq_iff_eq.mp h)]; rfl
    · next h => rw [if_neg (by simpa using h)]

theorem names_ne_nil {p : Place} (h : d.entry? p = none) : p.names ≠ [] := by
  intro hc
  rw [entry?_of_names_eq_nil hc] at h
  exact absurd h (by simp)

theorem extends_put {p : Place} (h : d.entry? p = none) (e : DiskEntry) :
    d.Extends (d.put p e) := by
  intro q e' he'
  rw [entry?_put]
  split
  · next hq => rw [← he', entry?_of_names_eq_nil hq]
  · split
    · next hpq => rw [hpq, he'] at h; exact absurd h (by simp)
    · exact he'

/-- What has been put somewhere, or was there before. -/
theorem entry?_put_eq_file {p q : Place} {e : DiskEntry} {id : Nat}
    (h : Disk.entry? (d.put p e) q = some (.file id)) :
    (p = q ∧ e = .file id) ∨ d.entry? q = some (.file id) := by
  rw [entry?_put] at h
  split at h
  · exact absurd h (by simp)
  · split at h
    · next hpq => exact .inl ⟨hpq, Option.some.inj h⟩
    · exact .inr h

/-! ## Directories -/

theorem makeDirectory_spec {p : Path} (h : d.makeDirectory p = .ok d') :
    ∃ q, d.locate p = .ok q ∧ d.entry? q = none ∧ d' = d.put q .directory := by
  unfold makeDirectory at h
  cases hl : d.locate p with
  | error f => simp [hl, bind, Except.bind] at h
  | ok q =>
    simp only [hl, bind, Except.bind] at h
    split at h
    · exact absurd h (by simp)
    · next he => exact ⟨q, rfl, he, (Except.ok.inj h).symm⟩

/-- A disk with more directories. -/
structure GainsDirectories (d d' : Disk α) : Prop where
  ext : d.Extends d'
  files : d'.files = d.files
  entry_file {p : Place} {id : Nat} : d'.entry? p = some (.file id) → d.entry? p = some (.file id)

theorem GainsDirectories.refl (d : Disk α) : d.GainsDirectories d :=
  ⟨.refl d, rfl, id⟩

theorem GainsDirectories.trans (h : d.GainsDirectories d') (h' : d'.GainsDirectories d'') :
    d.GainsDirectories d'' :=
  ⟨h.ext.trans h'.ext, h'.files.trans h.files, fun he => h.entry_file (h'.entry_file he)⟩

theorem makeDirectory_gains {p : Path} (h : d.makeDirectory p = .ok d') :
    d.GainsDirectories d' := by
  obtain ⟨q, -, he, rfl⟩ := makeDirectory_spec h
  refine ⟨extends_put he _, rfl, fun hf => ?_⟩
  rcases entry?_put_eq_file hf with ⟨-, hc⟩ | hf
  · exact absurd hc (by simp)
  · exact hf

theorem ensureDirectory_gains (d : Disk α) (p : Path) :
    d.GainsDirectories (d.ensureDirectory p).1 := by
  fun_induction ensureDirectory d p with
  | case1 p d' h => exact makeDirectory_gains h
  | case2 p h hn => exact .refl d
  | case3 p h hn d' f hp ih => rw [hp] at ih; exact ih
  | case4 p h hn d' u hp d'' hm ih =>
    rw [hp] at ih
    exact ih.trans (makeDirectory_gains hm)
  | case5 p h hn d' u hp f hm ih => rw [hp] at ih; exact ih
  | case6 p f h hn => exact .refl d

/-- A directory that is there is not made again. -/
theorem ensureDirectory_of_isDirectory {p : Path} (h : d.isDirectory p = true) :
    d.ensureDirectory p = (d, .ok ()) := by
  obtain ⟨hl, he⟩ := isDirectory_iff.mp h
  have hm : d.makeDirectory p = .error .occupied := by
    simp only [makeDirectory, hl, he, bind, Except.bind]
  rw [ensureDirectory, hm]
  simp [settle, h]

/-! ## Files -/

/-- Opening a file finds it, or makes it with the next number. -/
theorem openFile_spec {p : Path} {content : α} {id : Nat}
    (h : d.openFile p content = .ok (d', id)) :
    (d' = d ∧ d.fileId? p = some id) ∨
      (d.locate p = .ok p.place ∧ d.entry? p.place = none ∧ id = d.files.length ∧
        d' = { d with files := d.files ++ [content] }.put p.place (.file id)) := by
  unfold openFile at h
  split at h
  · exact absurd h (by simp)
  · next q hl =>
    obtain rfl := locate_eq_place hl
    split at h
    · exact absurd h (by simp)
    · next he =>
      simp only [Except.ok.injEq, Prod.mk.injEq] at h
      obtain ⟨rfl, rfl⟩ := h
      exact .inl ⟨rfl, fileId?_eq_some.mpr ⟨hl, he⟩⟩
    · next he =>
      simp only [Except.ok.injEq, Prod.mk.injEq] at h
      obtain ⟨rfl, rfl⟩ := h
      exact .inr ⟨hl, he, rfl, rfl⟩

theorem openFile_of_fileId? {p : Path} {content : α} {id : Nat} (h : d.fileId? p = some id) :
    d.openFile p content = .ok (d, id) := by
  obtain ⟨hl, he⟩ := fileId?_eq_some.mp h
  simp only [openFile, hl, he]

theorem openFile_extends {p : Path} {content : α} {id : Nat}
    (h : d.openFile p content = .ok (d', id)) : d.Extends d' := by
  rcases openFile_spec h with ⟨rfl, -⟩ | ⟨-, he, -, rfl⟩
  · exact .refl _
  · exact extends_put (d := { d with files := _ }) he _

theorem fileId?_of_openFile {p : Path} {content : α} {id : Nat}
    (h : d.openFile p content = .ok (d', id)) : d'.fileId? p = some id := by
  rcases openFile_spec h with ⟨rfl, hid⟩ | ⟨hl, he, -, rfl⟩
  · exact hid
  · refine fileId?_eq_some.mpr ⟨(openFile_extends h).locate hl, ?_⟩
    rw [entry?_put, if_neg (names_ne_nil he), if_pos rfl]

theorem openFile_files {p : Path} {content : α} {id : Nat}
    (h : d.openFile p content = .ok (d', id)) :
    d'.files = d.files ∨ (d'.files = d.files ++ [content] ∧ id = d.files.length) := by
  rcases openFile_spec h with ⟨rfl, -⟩ | ⟨-, -, hid, rfl⟩
  · exact .inl rfl
  · exact .inr ⟨rfl, hid⟩

theorem IsSound.openFile (hd : d.IsSound) {p : Path} {content : α} {id : Nat}
    (h : d.openFile p content = .ok (d', id)) : d'.IsSound ∧ id < d'.files.length := by
  rcases openFile_spec h with ⟨rfl, hid⟩ | ⟨-, -, rfl, rfl⟩
  · exact ⟨hd, hd _ _ (fileId?_eq_some.mp hid).2⟩
  · have hlen : ({ d with files := d.files ++ [content] }.put p.place
        (.file d.files.length)).files.length = d.files.length + 1 := by simp [put]
    refine ⟨?_, by rw [hlen]; omega⟩
    intro q id hq
    rw [hlen]
    rcases entry?_put_eq_file hq with ⟨-, hid⟩ | hq
    · have := DiskEntry.file.inj hid
      omega
    · have := hd q id hq
      omega

theorem IsSound.gainsDirectories (hd : d.IsSound) (h : d.GainsDirectories d') : d'.IsSound :=
  fun p id hp => by rw [h.files]; exact hd p id (h.entry_file hp)

theorem content?_setContent (d : Disk α) (i j : Nat) (content : α) :
    (d.setContent i content).content? j
      = if i = j ∧ i < d.files.length then some content else d.content? j := by
  simp only [content?, setContent, List.getElem?_set]
  by_cases hij : i = j
  · subst hij
    by_cases hi : i < d.files.length
    · simp [hi]
    · simp [hi]
  · simp [hij]

@[simp] theorem length_files_setContent (d : Disk α) (i : Nat) (content : α) :
    (d.setContent i content).files.length = d.files.length := by
  simp [setContent]

theorem extends_setContent (d : Disk α) (i : Nat) (content : α) :
    d.Extends (d.setContent i content) := fun _ _ h => h

theorem follow_setContent (d : Disk α) (i : Nat) (content : α) (p : Place) (ns : List String) :
    (d.setContent i content).follow p ns = d.follow p ns := by
  induction ns generalizing p with
  | nil => rfl
  | cons n ns ih =>
    have hentry : Disk.entry? (d.setContent i content) p = d.entry? p := rfl
    unfold follow
    rw [hentry]
    split
    · rfl
    · rfl
    · exact bind_congr fun q => ih q

/-- A path leads to the same file, whatever files hold. -/
theorem fileId?_setContent (d : Disk α) (i : Nat) (content : α) (p : Path) :
    (d.setContent i content).fileId? p = d.fileId? p := by
  simp only [fileId?, find?, locate, follow_setContent]
  rfl

/-! ## Reading and writing -/

/-- A file can be opened where the path leads somewhere, and not to a directory. -/
theorem exists_openFile {p : Path} {q : Place} (hl : d.locate p = .ok q)
    (he : d.entry? q ≠ some .directory) (content : α) :
    ∃ d' id, d.openFile p content = .ok (d', id) := by
  cases hopen : d.openFile p content with
  | ok opened => exact ⟨opened.1, opened.2, rfl⟩
  | error f =>
    simp only [openFile, hl] at hopen
    split at hopen
    · next hdirectory => exact absurd hdirectory he
    · exact absurd hopen (by simp)
    · exact absurd hopen (by simp)

theorem read_of_fileId? {p : Path} {content : α} {id : Nat} (h : d.fileId? p = some id)
    (hcontent : d.content? id = some content) : d.read p = .ok content := by
  obtain ⟨hl, he⟩ := fileId?_eq_some.mp h
  simp only [read, hl, he, hcontent]

/-- **What was written is read back.** -/
theorem IsSound.read_write (hd : d.IsSound) {p : Path} {content : α}
    (h : d.write p content = .ok d') : d'.read p = .ok content := by
  unfold write at h
  cases hopen : d.openFile p content with
  | error f =>
    rw [hopen] at h
    exact absurd h (by simp [bind, Except.bind])
  | ok opened =>
    obtain ⟨d₁, id⟩ := opened
    rw [hopen] at h
    obtain rfl : d₁.setContent id content = d' := Except.ok.inj h
    obtain ⟨-, hid⟩ := hd.openFile hopen
    refine read_of_fileId?
      ((extends_setContent d₁ id content).fileId? (fileId?_of_openFile hopen)) ?_
    rw [content?_setContent, if_pos ⟨rfl, hid⟩]

end Disk

end PerfLedger
