import PerfLedger.Proofs.Files.Disk

/-!
# Making directories again

A directory that is made with all those above it may take several attempts: an attempt that fails
leaves the directories that it made. What the next one does is the same as if there had been none
before it (`ensureDirectory_resume`), and more directories never keep it from succeeding, as long as
the directory can be there at all (`ensureDirectory_of_gains`).
-/

namespace PerfLedger

/-- A path is above another one: the path itself, or a path above its parent. -/
inductive Path.IsAbove : Path → Path → Prop where
  | self (p : Path) : IsAbove p p
  | parent {q p : Path} (names : p.names ≠ []) (above : IsAbove q p.parent) : IsAbove q p

namespace Disk

variable {α : Type} {d d' D : Disk α} {p q r : Path}

/-! ## One directory -/

theorem makeDirectory_eq_missing (h : d.makeDirectory p = .error .missing) :
    d.locate p = .error .missing := by
  unfold makeDirectory at h
  cases hl : d.locate p with
  | error f => simpa [hl, bind, Except.bind] using h
  | ok q =>
    simp only [hl, bind, Except.bind] at h
    split at h
    · exact absurd h (by simp)
    · exact absurd h (by simp)

/-- What keeps a directory from being made at a place that the path leads to. -/
theorem makeDirectory_error_of_locate {problem : FileProblem} (hl : d.locate p = .ok p.place)
    (h : d.makeDirectory p = .error problem) :
    problem = .occupied ∧ ∃ e, d.entry? p.place = some e := by
  simp only [makeDirectory, hl, bind, Except.bind] at h
  split at h
  · next e he => exact ⟨(Except.error.inj h).symm, e, he⟩
  · exact absurd h (by simp)

theorem isDirectory_of_makeDirectory (h : d.makeDirectory p = .ok d') :
    d'.isDirectory p = true := by
  obtain ⟨q, hl, he, rfl⟩ := makeDirectory_spec h
  obtain rfl := locate_eq_place hl
  refine isDirectory_iff.mpr ⟨(extends_put he _).locate hl, ?_⟩
  rw [entry?_put, if_neg (names_ne_nil he), if_pos rfl]

theorem settle_eq_ok {problem : FileProblem} :
    d.settle p problem = .ok () ↔ d.isDirectory p = true := by
  unfold settle
  split
  · next h => simp [h]
  · next h => simp [h]

/-- Where there are more directories, a path that leads somewhere led there before, or a directory
on the way was missing. -/
theorem GainsDirectories.locate_or (h : d.GainsDirectories D) {q : Place}
    (hl : D.locate p = .ok q) : d.locate p = .ok q ∨ d.locate p = .error .missing := by
  obtain ⟨hnul, hlen, hfollow⟩ := locate_eq_ok.mp hl
  have hor : ∀ (ns : List String) (start : Place), D.follow start ns = .ok q →
      d.follow start ns = .ok q ∨ d.follow start ns = .error .missing := by
    intro ns
    induction ns with
    | nil => exact fun start hs => .inl hs
    | cons n ns ih =>
      intro start hs
      obtain ⟨hdir, next, hstep, hrest⟩ := follow_cons_eq_ok.mp hs
      cases he : d.entry? start with
      | none => exact .inr (by rw [follow, he])
      | some e =>
        obtain rfl : e = .directory := Option.some.inj ((h.ext _ _ he).symm.trans hdir)
        rcases ih next hrest with hok | hmissing
        · exact .inl (follow_cons_eq_ok.mpr ⟨he, next, hstep, hok⟩)
        · exact .inr (by simp only [follow, he, hstep, bind, Except.bind, hmissing])
  rcases hor p.names p.start hfollow with hok | hmissing
  · exact .inl (locate_eq_ok.mpr ⟨hnul, hlen, hok⟩)
  · refine .inr ?_
    rw [locate, if_neg (by simpa using hnul), if_neg (Nat.not_lt.mpr hlen)]
    exact hmissing

/-- Where the parent is a directory, a path leads where it leads on any other disk. -/
theorem locate_of_isDirectory_parent (hdir : d.isDirectory p.parent = true) {q : Place}
    (hl : D.locate p = .ok q) (hne : p.names ≠ []) : d.locate p = .ok q := by
  obtain ⟨hnul, hlen, hfollow⟩ := locate_eq_ok.mp hl
  obtain ⟨hl', he⟩ := isDirectory_iff.mp hdir
  refine locate_eq_ok.mpr ⟨hnul, hlen, ?_⟩
  rw [← List.dropLast_concat_getLast hne] at hfollow ⊢
  obtain ⟨q', hq', -, hstep⟩ := follow_concat_eq_ok.mp hfollow
  refine follow_concat_eq_ok.mpr ⟨p.parent.place, (locate_eq_ok.mp hl').2.2, he, ?_⟩
  obtain rfl : q' = p.parent.place := follow_eq_along hq'
  exact hstep

/-! ## Directories and those above -/

/-- A directory that was made is there. -/
theorem isDirectory_of_ensureDirectory (h : (d.ensureDirectory p).2 = .ok ()) :
    (d.ensureDirectory p).1.isDirectory p = true := by
  fun_induction ensureDirectory d p with
  | case1 p d' hm => exact isDirectory_of_makeDirectory hm
  | case2 p hm hn => exact absurd h (by simp)
  | case3 p hm hn d' f hp ih => exact absurd h (by simp)
  | case4 p hm hn d' u hp d'' hm' ih => exact isDirectory_of_makeDirectory hm'
  | case5 p hm hn d' u hp f hm' ih => exact settle_eq_ok.mp h
  | case6 p f hm hn => exact settle_eq_ok.mp h

/-- A path that leads to a directory where there are more directories leads to nothing else. -/
theorem GainsDirectories.isDirectory_of_entry? (h : d.GainsDirectories D)
    (hD : D.isDirectory p = true) (hl : d.locate p = .ok p.place) {e : DiskEntry}
    (he : d.entry? p.place = some e) : d.isDirectory p = true := by
  obtain rfl : e = .directory :=
    Option.some.inj ((h.ext _ _ he).symm.trans (isDirectory_iff.mp hD).2)
  exact isDirectory_iff.mpr ⟨hl, he⟩

/-- **A directory that is there where there are more directories can be made.** -/
theorem ensureDirectory_of_gains (h : d.GainsDirectories D) (hD : D.isDirectory p = true) :
    (d.ensureDirectory p).2 = .ok () := by
  obtain ⟨hl, he⟩ := isDirectory_iff.mp hD
  fun_induction ensureDirectory d p with
  | case1 p d' hm => rfl
  | case2 p hm hn =>
    -- The path of no names leads to a directory that is always there.
    have hmissing := makeDirectory_eq_missing hm
    obtain ⟨hnul, hlen, -⟩ := locate_eq_ok.mp hl
    rw [locate_eq_ok.mpr ⟨hnul, hlen, by rw [hn]; rfl⟩] at hmissing
    exact absurd hmissing (by simp)
  | case3 p hm hn d' f hp ih =>
    have hparent := isDirectory_parent_of_locate hl hn
    obtain ⟨hlp, hep⟩ := isDirectory_iff.mp hparent
    have hok := ih hparent hlp hep
    rw [hp] at hok
    exact absurd hok (by simp)
  | case4 p hm hn d' u hp d'' hm' ih => rfl
  | case5 p hm hn d' u hp f hm' ih =>
    have hparent : d'.isDirectory p.parent = true := by
      have := isDirectory_of_ensureDirectory (d := d) (p := p.parent) (by rw [hp])
      rwa [hp] at this
    have hl' := locate_of_isDirectory_parent hparent hl hn
    obtain ⟨-, e, he'⟩ := makeDirectory_error_of_locate hl' hm'
    have hgains : d.GainsDirectories d' := by
      have := d.ensureDirectory_gains p.parent
      rwa [hp] at this
    refine settle_eq_ok.mpr (isDirectory_iff.mpr ⟨hl', ?_⟩)
    cases e with
    | directory => exact he'
    | file id =>
      have hfile := h.ext _ _ (hgains.entry_file he')
      rw [he] at hfile
      exact absurd hfile (by simp)
  | case6 p f hn hm =>
    rcases h.locate_or hl with hl' | hmissing
    · obtain ⟨-, e, he'⟩ := makeDirectory_error_of_locate hl' hm
      exact settle_eq_ok.mpr (h.isDirectory_of_entry? hD hl' he')
    · simp only [makeDirectory, hmissing, bind, Except.bind, Except.error.injEq] at hm
      exact absurd hm.symm hn

/-- Once its parent is there, a directory is made by itself. -/
theorem ensureDirectory_of_parent (hne : p.names ≠ [])
    (hparent : d.ensureDirectory p.parent = (d', .ok ()))
    (hstart : d.isDirectory p.parent = true ∨ d.locate p = .error .missing) :
    d.ensureDirectory p =
      match d'.makeDirectory p with
      | .ok d'' => (d'', .ok ())
      | .error problem => (d', d'.settle p problem) := by
  rw [ensureDirectory]
  rcases hstart with hdir | hmissing
  · rw [ensureDirectory_of_isDirectory hdir] at hparent
    obtain rfl := (Prod.mk.inj hparent).1
    cases hm : d.makeDirectory p with
    | ok d'' => rfl
    | error problem =>
      cases problem with
      | missing => simp only [dif_neg hne, ensureDirectory_of_isDirectory hdir, hm]
      | _ => rfl
  · have hm : d.makeDirectory p = .error .missing := by
      simp only [makeDirectory, hmissing, bind, Except.bind]
    cases hm' : d'.makeDirectory p with
    | ok d'' => simp only [hm, dif_neg hne, hparent, hm']
    | error problem => simp only [hm, dif_neg hne, hparent, hm']

/-- **An attempt that went part of the way changes nothing about the next one.** -/
theorem ensureDirectory_resume (habove : q.IsAbove p) (h : (d.ensureDirectory p).2 = .ok ()) :
    (d.ensureDirectory q).1.ensureDirectory p = d.ensureDirectory p := by
  induction habove with
  | self =>
    rw [ensureDirectory_of_isDirectory (isDirectory_of_ensureDirectory h)]
    exact Prod.ext rfl h.symm
  | @parent p hne habove ih =>
    have hthere := isDirectory_of_ensureDirectory h
    obtain ⟨hl, -⟩ := isDirectory_iff.mp hthere
    -- What the attempts have in common is what they make of the parent.
    have hgains := d.ensureDirectory_gains p
    have hparent : (d.ensureDirectory p.parent).2 = .ok () :=
      ensureDirectory_of_gains hgains (isDirectory_parent_of_locate hl hne)
    have hsame := ih hparent
    obtain ⟨d₁, hd₁⟩ : ∃ d₁, d.ensureDirectory p.parent = (d₁, .ok ()) := ⟨_, Prod.ext rfl hparent⟩
    rw [hd₁] at hsame
    have hstart (c : Disk α) (hc : c.GainsDirectories (d.ensureDirectory p).1) :
        c.isDirectory p.parent = true ∨ c.locate p = .error .missing := by
      rcases hc.locate_or hl with hok | hmissing
      · exact .inl (isDirectory_parent_of_locate hok hne)
      · exact .inr hmissing
    have hfirst := ensureDirectory_of_parent hne hd₁ (hstart d hgains)
    have hmid : (d.ensureDirectory q).1.GainsDirectories (d.ensureDirectory p).1 := by
      have hto := (d.ensureDirectory q).1.ensureDirectory_gains p.parent
      rw [hsame] at hto
      refine hto.trans ?_
      rw [hfirst]
      cases hm : d₁.makeDirectory p with
      | ok d'' => exact makeDirectory_gains hm
      | error problem => exact .refl d₁
    rw [ensureDirectory_of_parent hne hsame (hstart _ hmid), hfirst]

end Disk

end PerfLedger
