import Mathlib.Data.List.Forall2

/-!
# Steps that may fail

What it takes for a chain of steps to succeed: every step does, each from what the one before it
gave. A list of steps that are made one by one succeeds if and only if all of them do, and the
answers stand in the order of the steps. Such a list and its answers match member by member.

A list of steps that fails does so as the first of them that fails (`FirstFails`).

Two chains of steps agree (`Agree`) if they succeed with related answers or fail with one error; for
that it is enough that their steps do.
-/

namespace PerfLedger

variable {ε φ α β : Type}

theorem bind_eq_ok {x : Except ε α} {f : α → Except ε β} {b : β} :
    x >>= f = .ok b ↔ ∃ a, x = .ok a ∧ f a = .ok b := by
  cases x with
  | error e => simp [bind, Except.bind]
  | ok a => simp [bind, Except.bind]

theorem pure_eq_ok {a b : α} : (pure a : Except ε α) = .ok b ↔ a = b := by
  simp [pure, Except.pure]

theorem map_eq_ok {x : Except ε α} {f : α → β} {b : β} :
    x.map f = .ok b ↔ ∃ a, x = .ok a ∧ f a = b := by
  cases x <;> simp [Except.map]

theorem toOption_eq_some {x : Except ε α} {a : α} : x.toOption = some a ↔ x = .ok a := by
  cases x <;> simp [Except.toOption]

theorem mapError_eq_ok {x : Except ε α} {f : ε → φ} {a : α} :
    x.mapError f = .ok a ↔ x = .ok a := by
  cases x <;> simp [Except.mapError]

theorem exists_bind_error {x : Except ε α} {f : α → Except ε β} :
    (∃ e, x >>= f = .error e) ↔ (∃ e, x = .error e) ∨ ∃ a, x = .ok a ∧ ∃ e, f a = .error e := by
  cases x with
  | error e => simp [bind, Except.bind]
  | ok a => simp [bind, Except.bind]

theorem exists_mapError_error {x : Except ε α} {f : ε → φ} :
    (∃ e, x.mapError f = .error e) ↔ ∃ e, x = .error e := by
  cases x <;> simp [Except.mapError]

/-- **A list of steps succeeds if and only if all of them do.** -/
theorem mapM_eq_ok {f : α → Except ε β} {as : List α} {bs : List β} :
    as.mapM f = .ok bs ↔ List.Forall₂ (fun a b => f a = .ok b) as bs := by
  induction as generalizing bs with
  | nil =>
    rw [List.mapM_nil, pure_eq_ok, List.forall₂_nil_left_iff, eq_comm]
  | cons a as ih =>
    simp only [List.mapM_cons, bind_eq_ok, pure_eq_ok, ih, List.forall₂_cons_left_iff]
    constructor
    · rintro ⟨b, hb, bs, hbs, rfl⟩
      exact ⟨b, bs, hb, hbs, rfl⟩
    · rintro ⟨b, bs, hb, hbs, rfl⟩
      exact ⟨b, hb, bs, hbs, rfl⟩

/-- A list of steps fails if and only if one of them does. -/
theorem exists_mapM_error {f : α → Except ε β} {as : List α} :
    (∃ e, as.mapM f = .error e) ↔ ∃ a ∈ as, ∃ e, f a = .error e := by
  induction as with
  | nil => simp [pure, Except.pure]
  | cons a as ih =>
    simp only [List.mapM_cons, exists_bind_error, ih, List.mem_cons, exists_eq_or_imp]
    constructor
    · rintro (h | ⟨b, -, h | ⟨bs, -, e, h⟩⟩)
      · exact .inl h
      · exact .inr h
      · exact absurd h (by simp [pure, Except.pure])
    · rintro (h | h)
      · exact .inl h
      · cases hb : f a with
        | error e => exact .inl ⟨e, rfl⟩
        | ok b => exact .inr ⟨b, rfl, .inl h⟩

theorem mapM_congr {f g : α → Except ε β} {as : List α} (h : ∀ a ∈ as, f a = g a) :
    as.mapM f = as.mapM g := by
  induction as with
  | nil => rfl
  | cons a as ih =>
    rw [List.mapM_cons, List.mapM_cons, h a List.mem_cons_self,
      ih fun x hx => h x (List.mem_cons_of_mem _ hx)]

/-- Steps that do not depend on their places in a list. -/
theorem mapM_zipIdx {f : α × Nat → Except ε β} {g : α → Except ε β} (h : ∀ a n, f (a, n) = g a)
    (as : List α) (n : Nat) : (as.zipIdx n).mapM f = as.mapM g := by
  have hplaces : (as.zipIdx n).mapM f = ((as.zipIdx n).map Prod.fst).mapM g := by
    rw [List.mapM_map]
    exact mapM_congr fun p _ => h p.1 p.2
  rw [hplaces, List.zipIdx_map_fst]

/-! ## Lists that match -/

variable {R : α → β → Prop}

theorem forall₂_append_left {as as' : List α} {bs : List β} :
    List.Forall₂ R (as ++ as') bs ↔
      ∃ cs cs', List.Forall₂ R as cs ∧ List.Forall₂ R as' cs' ∧ cs ++ cs' = bs := by
  constructor
  · intro h
    have ht := List.forall₂_take as.length h
    have hd := List.forall₂_drop as.length h
    rw [List.take_left] at ht
    rw [List.drop_left] at hd
    exact ⟨_, _, ht, hd, List.take_append_drop _ _⟩
  · rintro ⟨cs, cs', h, h', rfl⟩
    exact List.rel_append h h'

theorem exists_of_forall₂_left {as : List α} {bs : List β} (h : List.Forall₂ R as bs) {a : α}
    (ha : a ∈ as) : ∃ b ∈ bs, R a b := by
  induction h with
  | nil => exact absurd ha List.not_mem_nil
  | @cons a' b' _ _ hr _ ih =>
    rcases List.mem_cons.mp ha with rfl | ha
    · exact ⟨b', List.mem_cons_self, hr⟩
    · obtain ⟨b, hb, hr⟩ := ih ha
      exact ⟨b, List.mem_cons_of_mem _ hb, hr⟩

theorem exists_of_forall₂_right {as : List α} {bs : List β} (h : List.Forall₂ R as bs) {b : β}
    (hb : b ∈ bs) : ∃ a ∈ as, R a b :=
  exists_of_forall₂_left h.flip hb

theorem exists_forall₂ {as : List α} (h : ∀ a ∈ as, ∃ b, R a b) : ∃ bs, List.Forall₂ R as bs := by
  induction as with
  | nil => exact ⟨[], .nil⟩
  | cons a as ih =>
    obtain ⟨b, hb⟩ := h a List.mem_cons_self
    obtain ⟨bs, hbs⟩ := ih fun x hx => h x (List.mem_cons_of_mem _ hx)
    exact ⟨b :: bs, .cons hb hbs⟩

/-- Lists that match by way of a third kind of members have a list of these between them. -/
theorem exists_between_forall₂ {γ : Type} {S : β → γ → Prop} {as : List α} {cs : List γ}
    (h : List.Forall₂ (fun a c => ∃ b, R a b ∧ S b c) as cs) :
    ∃ bs, List.Forall₂ R as bs ∧ List.Forall₂ S bs cs := by
  induction h with
  | nil => exact ⟨[], .nil, .nil⟩
  | cons hac _ ih =>
    obtain ⟨b, hR, hS⟩ := hac
    obtain ⟨bs, hRs, hSs⟩ := ih
    exact ⟨b :: bs, .cons hR hRs, .cons hS hSs⟩

/-- Lists that match by way of a list between them match each other. -/
theorem forall₂_through {γ : Type} {S : β → γ → Prop} {T : α → γ → Prop} {as : List α}
    {bs : List β} {cs : List γ} (hab : List.Forall₂ R as bs) (hbc : List.Forall₂ S bs cs)
    (h : ∀ a b c, R a b → S b c → T a c) : List.Forall₂ T as cs := by
  induction hab generalizing cs with
  | nil =>
    rw [List.forall₂_nil_left_iff.mp hbc]
    exact .nil
  | cons hr _ ih =>
    obtain ⟨c, cs', hs, hcs', rfl⟩ := List.forall₂_cons_left_iff.mp hbc
    exact .cons (h _ _ _ hr hs) (ih hcs')

/-- Two lists that match one match each other. -/
theorem forall₂_of_common {S : β → β → Prop} {as : List α} {bs cs : List β}
    (hb : List.Forall₂ R as bs) (hc : List.Forall₂ R as cs)
    (h : ∀ a b c, R a b → R a c → S b c) : List.Forall₂ S bs cs :=
  forall₂_through hb.flip hc fun b a c => h a b c

/-- Steps that give the same along two lists that match. -/
theorem mapM_of_forall₂ {f : α → Except ε φ} {g : β → Except ε φ} {as : List α} {bs : List β}
    (h : List.Forall₂ (fun a b => f a = g b) as bs) : as.mapM f = bs.mapM g := by
  induction h with
  | nil => rfl
  | cons hab _ ih => rw [List.mapM_cons, List.mapM_cons, hab, ih]

/-- Two steps for each member, first the one for all of them and then the other, fail if and only if
one of them does for some member. -/
theorem exists_mapM_mapM_error {γ : Type} {f : α → Except ε β} {g : β → Except φ γ}
    {as : List α} :
    ((∃ e, as.mapM f = .error e) ∨ ∃ bs, as.mapM f = .ok bs ∧ ∃ e, bs.mapM g = .error e) ↔
      ∃ a ∈ as, (∃ e, f a = .error e) ∨ ∃ b, f a = .ok b ∧ ∃ e, g b = .error e := by
  constructor
  · rintro (hfail | ⟨bs, hbs, hfail⟩)
    · obtain ⟨a, ha, herror⟩ := exists_mapM_error.mp hfail
      exact ⟨a, ha, .inl herror⟩
    · obtain ⟨b, hb, herror⟩ := exists_mapM_error.mp hfail
      obtain ⟨a, ha, hab⟩ := exists_of_forall₂_right (mapM_eq_ok.mp hbs) hb
      exact ⟨a, ha, .inr ⟨b, hab, herror⟩⟩
  · rintro ⟨a, ha, herror⟩
    cases hbs : as.mapM f with
    | error e => exact .inl ⟨e, rfl⟩
    | ok bs =>
      obtain ⟨b, hb, hab⟩ := exists_of_forall₂_left (mapM_eq_ok.mp hbs) ha
      rcases herror with ⟨e, he⟩ | ⟨b', hb', herror⟩
      · rw [hab] at he
        exact absurd he (by simp)
      · obtain rfl := Except.ok.inj (hab.symm.trans hb')
        exact .inr ⟨bs, rfl, exists_mapM_error.mpr ⟨b, hb, herror⟩⟩

/-! ## The first failure -/

section first

variable {P Q : α → ε → Prop}

/-- The first member of a list that fails, if one does, and how it fails. -/
inductive FirstFails (P : α → ε → Prop) : List α → ε → Prop where
  | here {a : α} {as : List α} {e : ε} (fails : P a e) : FirstFails P (a :: as) e
  | later {a : α} {as : List α} {e : ε} (fine : ∀ e, ¬P a e) (rest : FirstFails P as e) :
      FirstFails P (a :: as) e

theorem bind_eq_error {x : Except ε α} {f : α → Except ε β} {e : ε} :
    x >>= f = .error e ↔ x = .error e ∨ ∃ a, x = .ok a ∧ f a = .error e := by
  cases x with
  | error e => simp [bind, Except.bind]
  | ok a => simp [bind, Except.bind]

theorem map_eq_error {x : Except ε α} {f : α → β} {e : ε} :
    x.map f = .error e ↔ x = .error e := by
  cases x <;> simp [Except.map]

theorem mapError_eq_error {x : Except ε α} {f : ε → φ} {e : φ} :
    x.mapError f = .error e ↔ ∃ e', x = .error e' ∧ f e' = e := by
  cases x <;> simp [Except.mapError]

theorem not_firstFails_nil {e : ε} : ¬FirstFails P [] e := by
  intro h
  cases h

theorem firstFails_cons {a : α} {as : List α} {e : ε} :
    FirstFails P (a :: as) e ↔ P a e ∨ ((∀ e, ¬P a e) ∧ FirstFails P as e) := by
  constructor
  · intro h
    cases h with
    | here fails => exact .inl fails
    | later fine rest => exact .inr ⟨fine, rest⟩
  · rintro (fails | ⟨fine, rest⟩)
    · exact .here fails
    · exact .later fine rest

theorem not_firstFails {as : List α} (h : ∀ a ∈ as, ∀ e, ¬P a e) {e : ε} : ¬FirstFails P as e := by
  intro hfails
  induction hfails with
  | here fails => exact h _ List.mem_cons_self _ fails
  | later _ _ ih => exact ih fun a ha => h a (List.mem_cons_of_mem _ ha)

theorem firstFails_congr (h : ∀ a e, P a e ↔ Q a e) {as : List α} {e : ε} :
    FirstFails P as e ↔ FirstFails Q as e := by
  induction as with
  | nil => simp only [not_firstFails_nil]
  | cons a as ih => simp only [firstFails_cons, h, ih]

theorem firstFails_map {P : β → ε → Prop} {g : α → β} {as : List α} {e : ε} :
    FirstFails P (as.map g) e ↔ FirstFails (fun a => P (g a)) as e := by
  induction as with
  | nil => simp only [List.map_nil, not_firstFails_nil]
  | cons a as ih => simp only [List.map_cons, firstFails_cons, ih]

/-- The first failure of a list in two parts is in the second only if the first part has none. -/
theorem firstFails_append {as bs : List α} {e : ε} :
    FirstFails P (as ++ bs) e ↔
      FirstFails P as e ∨ ((∀ a ∈ as, ∀ e, ¬P a e) ∧ FirstFails P bs e) := by
  induction as with
  | nil => simp [not_firstFails_nil]
  | cons a as ih =>
    simp only [List.cons_append, firstFails_cons, ih, List.forall_mem_cons, and_or_left, or_assoc,
      and_assoc]

/-- If all members fail in one way, that is how the list fails. -/
theorem firstFails_const {p : α → Prop} {e₀ : ε} {as : List α} {e : ε} :
    FirstFails (fun a e => p a ∧ e = e₀) as e ↔ (∃ a ∈ as, p a) ∧ e = e₀ := by
  induction as with
  | nil => simp [not_firstFails_nil]
  | cons a as ih =>
    rw [firstFails_cons, ih]
    by_cases ha : p a
    · simp [ha]
    · simp [ha]

theorem not_eq_error {x : Except ε α} : (∀ e, x ≠ .error e) ↔ ∃ a, x = .ok a := by
  cases x <;> simp

/-- **A list of steps fails as the first of them that fails.** -/
theorem mapM_eq_error {f : α → Except ε β} {as : List α} {e : ε} :
    as.mapM f = .error e ↔ FirstFails (fun a e => f a = .error e) as e := by
  induction as with
  | nil => simp [not_firstFails_nil, pure, Except.pure]
  | cons a as ih =>
    have hpure (b : β) (bs : List β) : (pure (b :: bs) : Except ε (List β)) ≠ .error e := by
      simp [pure, Except.pure]
    simp only [List.mapM_cons, bind_eq_error, ih, hpure, and_false, exists_false, or_false,
      firstFails_cons, ← ne_eq, not_eq_error, exists_and_right]

end first

/-! ## Steps that agree -/

section agree

variable {γ δ : Type} {S : β → γ → Prop} {T : α → γ → Prop} {U : γ → δ → Prop}

/-- Two steps succeed with related answers, or fail with one error. -/
inductive Agree (R : α → β → Prop) : Except ε α → Except ε β → Prop where
  | ok {a : α} {b : β} (rel : R a b) : Agree R (.ok a) (.ok b)
  | error (e : ε) : Agree R (.error e) (.error e)

theorem Agree.imp {R' : α → β → Prop} {x : Except ε α} {y : Except ε β} (h : Agree R x y)
    (hR : ∀ a b, R a b → R' a b) : Agree R' x y := by
  cases h with
  | ok rel => exact .ok (hR _ _ rel)
  | error e => exact .error e

theorem Agree.comp {x : Except ε α} {y : Except ε β} {z : Except ε γ} (h : Agree R x y)
    (h' : Agree S y z) (hT : ∀ a b c, R a b → S b c → T a c) : Agree T x z := by
  cases h with
  | ok rel =>
    cases h' with
    | ok rel' => exact .ok (hT _ _ _ rel rel')
  | error e =>
    cases h'
    exact .error e

theorem Agree.bind {x : Except ε α} {y : Except ε β} {f : α → Except ε γ} {g : β → Except ε δ}
    (h : Agree R x y) (hfg : ∀ a b, R a b → Agree U (f a) (g b)) :
    Agree U (x >>= f) (y >>= g) := by
  cases h with
  | ok rel => exact hfg _ _ rel
  | error e => exact .error e

theorem Agree.mapError {x : Except ε α} {y : Except ε β} (h : Agree R x y) (f : ε → φ) :
    Agree R (x.mapError f) (y.mapError f) := by
  cases h with
  | ok rel => exact .ok rel
  | error e => exact .error (f e)

/-- An answer that is related is an answer. -/
theorem Agree.attach {x : Except ε α} {y : Except ε β} (h : Agree R x y) :
    Agree (fun a b => x = .ok a ∧ R a b) x y := by
  cases h with
  | ok rel => exact .ok ⟨rfl, rel⟩
  | error e => exact .error e

/-- What agrees with a success is one. -/
theorem Agree.exists_ok {a : α} {y : Except ε β} (h : Agree R (.ok a) y) :
    ∃ b, y = .ok b ∧ R a b := by
  cases h with
  | ok rel => exact ⟨_, rfl, rel⟩

theorem Agree.exists_ok_left {x : Except ε α} {b : β} (h : Agree R x (.ok b)) :
    ∃ a, x = .ok a ∧ R a b := by
  cases h with
  | ok rel => exact ⟨_, rfl, rel⟩

theorem Agree.of_eq {R : α → α → Prop} (hR : ∀ a, R a a) {x y : Except ε α} (h : x = y) :
    Agree R x y := by
  subst h
  cases x with
  | ok a => exact .ok (hR a)
  | error e => exact .error e

end agree

end PerfLedger
