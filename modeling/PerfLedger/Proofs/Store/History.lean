import Mathlib.Order.Basic
import PerfLedger.Proofs.Store.Replay

/-!
# The history of a test

The history of a test consists of the results that were recorded under its name, the latest first,
and of the labels of all their baselines. Among results of one instant, the one that was recorded
last comes first.

`history_of_logs` says so of every database that holds a log. The order of the rows is that of their
stamps and numbers, which are texts and integers; it is the order of the instants and of the places
in the log because stamps of one width are ordered as their instants are, and numbers ascend.
-/

namespace PerfLedger

open Database

/-- Recorded results, with their place in the log, that stand before others in a history: they are
of a later instant, or of the same one and were recorded later. -/
def Later (a b : Results × Nat) : Prop :=
  b.1.time.instant < a.1.time.instant ∨ (b.1.time.instant = a.1.time.instant ∧ b.2 < a.2)

/-- The history of a test in a log. -/
structure History.Lists (log : List Results) (name : String) (h : History) : Prop where
  results : ∃ order : List (Results × Nat),
    order.Perm (log.zipIdx.filter fun e => e.1.name.label? == some name) ∧
    order.Pairwise Later ∧ List.Forall₂ (fun e q => e.1.Restores q) order h.results
  ascending : h.versions.Pairwise (· < ·)
  mem_versions : ∀ l, l ∈ h.versions ↔
    ∃ r ∈ log, r.name = .text name ∧ ∃ e ∈ r.baselines, e.2.version = .text l ∧ e.2.operations ≠ []

/-! ## The order of pairs of numbers -/

/-- The descending order of pairs. -/
def descending (a b : Int × Int) : Bool :=
  ((compare b.1 a.1).then (compare b.2 a.2)).isLE

theorem descending_iff {a b : Int × Int} :
    descending a b = true ↔ b.1 < a.1 ∨ (b.1 = a.1 ∧ b.2 ≤ a.2) := by
  unfold descending
  rcases Int.lt_trichotomy b.1 a.1 with h | h | h
  · rw [compare_lt_iff_lt.mpr h]
    simp [h]
  · rw [compare_eq_iff_eq.mpr h, Ordering.eq_then, Std.isLE_compare]
    simp [h]
  · rw [compare_gt_iff_gt.mpr h]
    simp only [Ordering.gt_then, Ordering.isLE_gt, Bool.false_eq_true, false_iff]
    omega

theorem pairwise_descending (ps : List (Int × Int)) :
    (ps.mergeSort descending).Pairwise fun a b => descending a b = true := by
  refine List.pairwise_mergeSort ?_ ?_ ps
  · intro a b c hab hbc
    rw [descending_iff] at hab hbc ⊢
    omega
  · intro a b
    rw [Bool.or_eq_true, descending_iff, descending_iff]
    omega

/-! ## The order of executions -/

/-- What executions are sorted by: the instant, and the number. -/
def LoggedExecution.key (e : LoggedExecution) : Int × Int :=
  (e.results.time.instant, e.row.id)

theorem orderExecutions_eq {a b : LoggedExecution} (ha : a.results.IsPlain)
    (hb : b.results.IsPlain) :
    (orderExecutions b.row a.row).isLE = descending a.key b.key := by
  obtain ⟨u, hu, hv, hi, hy, ht, -⟩ := a.row_holds.exists_utc ha.wall ha.year
  obtain ⟨u', hu', hv', hi', hy', ht', -⟩ := b.row_holds.exists_utc hb.wall hb.year
  have hinst := (Moment.toUtc?_spec ha.wall (Time.ensureUtc_eq_ok.mp hu)).2.2
  have hinst' := (Moment.toUtc?_spec hb.wall (Time.ensureUtc_eq_ok.mp hu')).2.2
  have htime : b.row.time.order a.row.time
      = compare b.results.time.instant a.results.time.instant := by
    rw [ht, ht', ← hinst, ← hinst', hi, hi', Time.compare_natCast]
    exact Time.compare_stamps hv' hv hy' hy
  rw [orderExecutions, htime]
  rfl

section history

variable {db : Database} {log : List Results} {es : List LoggedExecution}

/-- Numbers ascend with the places in the log. -/
theorem Database.Entries.lt_of_id_le (h : db.Entries es) {a b : LoggedExecution × Nat}
    (ha : a ∈ es.zipIdx) (hb : b ∈ es.zipIdx) (hne : a ≠ b) (hle : b.1.row.id ≤ a.1.row.id) :
    b.2 < a.2 := by
  obtain ⟨e, i⟩ := a
  obtain ⟨e', j⟩ := b
  have hi : es[i]? = some e := List.mem_zipIdx_iff_getElem?.mp ha
  have hj : es[j]? = some e' := List.mem_zipIdx_iff_getElem?.mp hb
  rcases Nat.lt_trichotomy j i with hlt | rfl | hgt
  · exact hlt
  · rw [hj] at hi
    exact absurd (by rw [Option.some.inj hi]) hne
  · have hasc := h.ascending
    rw [List.pairwise_map, List.pairwise_iff_getElem] at hasc
    obtain ⟨hi', rfl⟩ := List.getElem?_eq_some_iff.mp hi
    obtain ⟨hj', rfl⟩ := List.getElem?_eq_some_iff.mp hj
    have := hasc i j hi' hj' hgt
    dsimp only at hle
    omega

/-- The executions of a name, with their places in the log, in the order of the history. -/
def named (es : List LoggedExecution) (n : String) : List (LoggedExecution × Nat) :=
  (es.zipIdx.filter fun p => p.1.results.name.label? == some n).mergeSort
    fun a b => (orderExecutions b.1.row a.1.row).isLE

theorem mem_named {n : String} {p : LoggedExecution × Nat} :
    p ∈ named es n ↔ p ∈ es.zipIdx ∧ p.1.results.name = .text n := by
  rw [named, List.mem_mergeSort, List.mem_filter, beq_iff_eq, Results.label?_eq_some]

theorem fst_mem_of_mem_zipIdx {p : LoggedExecution × Nat} (h : p ∈ es.zipIdx) : p.1 ∈ es :=
  List.mem_of_getElem? (List.mem_zipIdx_iff_getElem?.mp h)

/-- The rows that are found for a name. -/
theorem executionsNamed_eq (h : db.Entries es) (hplain : ∀ e ∈ es, e.results.IsPlain)
    (n : String) : db.executionsNamed (.text n) = (named es n).map (·.1.row) := by
  -- The places in the log go along with the rows while these are filtered and sorted.
  have hrows : es.map (·.row) = es.zipIdx.map (·.1.row) := by
    conv_lhs => rw [← List.zipIdx_map_fst 0 es, List.map_map]
    rfl
  have hfilter : (es.zipIdx.map (·.1.row)).filter
        (fun e => Cell.text n != .null && e.name == Cell.text n)
      = (es.zipIdx.filter fun p => p.1.results.name.label? == some n).map (·.1.row) := by
    rw [List.filter_map]
    congr 1
    refine List.filter_congr ?_
    intro p hp
    obtain ⟨s, hs⟩ := (hplain p.1 (fst_mem_of_mem_zipIdx hp)).name
    rw [Function.comp_apply, p.1.row_holds.name_eq hs, hs, Bool.eq_iff_iff]
    simp [Value.label?]
  rw [executionsNamed, h.executions, hrows]
  change (List.filter (fun e : ExecutionRow => Cell.text n != .null && e.name == Cell.text n)
    _).mergeSort _ = _
  rw [hfilter, named]
  exact (List.map_mergeSort (f := fun p : LoggedExecution × Nat => p.1.row)
    (s := fun a b => (orderExecutions b a).isLE) fun _ _ _ _ => rfl).symm

/-- They are in the order of the instants, and then of the log. -/
theorem pairwise_named (h : db.Entries es) (hplain : ∀ e ∈ es, e.results.IsPlain) (n : String) :
    (named es n).Pairwise fun a b => Later (a.1.results, a.2) (b.1.results, b.2) := by
  obtain ⟨ps, hps⟩ : ∃ ps, ps = es.zipIdx.filter fun p => p.1.results.name.label? == some n :=
    ⟨_, rfl⟩
  have hmem : ∀ p ∈ ps, p ∈ es.zipIdx := fun p hp => (List.mem_filter.mp (hps ▸ hp)).1
  -- Sorting the rows sorts their keys.
  have hkeys : (named es n).map (·.1.key) = (ps.map (·.1.key)).mergeSort descending := by
    rw [named, ← hps]
    exact List.map_mergeSort fun a ha b hb =>
      orderExecutions_eq (hplain _ (fst_mem_of_mem_zipIdx (hmem a ha)))
        (hplain _ (fst_mem_of_mem_zipIdx (hmem b hb)))
  have hsorted : (named es n).Pairwise fun a b => descending a.1.key b.1.key = true := by
    have := pairwise_descending (ps.map (·.1.key))
    rwa [← hkeys, List.pairwise_map] at this
  have hnodup : (named es n).Pairwise (· ≠ ·) := by
    rw [← List.nodup_iff_pairwise_ne, named, (List.mergeSort_perm _ _).nodup_iff]
    exact List.Nodup.filter _ (List.Nodup.of_map Prod.snd (by simp [List.nodup_range']))
  refine (hsorted.and hnodup).imp_of_mem ?_
  rintro a b ha hb ⟨hdesc, hne⟩
  have ha := (mem_named.mp ha).1
  have hb := (mem_named.mp hb).1
  rcases descending_iff.mp hdesc with hlt | ⟨heq, hle⟩
  · exact .inl hlt
  · exact .inr ⟨heq, h.lt_of_id_le ha hb hne hle⟩

theorem named_perm (es : List LoggedExecution) (n : String) :
    ((named es n).map fun p => (p.1.results, p.2)).Perm
      ((es.map (·.results)).zipIdx.filter fun e => e.1.name.label? == some n) := by
  have hzip : (es.map (·.results)).zipIdx = es.zipIdx.map fun p => (p.1.results, p.2) := by
    rw [List.zipIdx_map]
    rfl
  rw [hzip, List.filter_map]
  exact (List.mergeSort_perm _ _).map _

/-- **The history of a test in a database that holds a log.** -/
theorem history_of_logs (h : Logs log db) (hplain : ∀ r ∈ log, r.IsPlain) (n : String) :
    ∃ found, (∀ a : Access, a.failing = none → db.history a (.text n) = .ok found) ∧
      found.Lists log n := by
  obtain ⟨es, rfl, hes⟩ := h.exists_entries
  have hplain : ∀ e ∈ es, e.results.IsPlain :=
    fun e he => hplain _ (List.mem_map.mpr ⟨e, he, rfl⟩)
  have hread : ∀ p ∈ named es n, ∃ q, (∃ x, p.1.row.fetch = .ok x ∧
      db.resultsOf {} (.text n) 0 x = .ok q) ∧ p.1.results.Restores q := by
    intro p hp
    obtain ⟨hmem, hname⟩ := mem_named.mp hp
    have hmem := fst_mem_of_mem_zipIdx hmem
    obtain ⟨x, q, hx, hq, hrest⟩ := resultsOf_restores hes hmem (hplain _ hmem)
    rw [hname] at hq
    exact ⟨q, ⟨x, hx, hq⟩, hrest⟩
  obtain ⟨qs, hqs⟩ := exists_forall₂ hread
  obtain ⟨xs, hxs, hall⟩ := exists_between_forall₂ (hqs.imp fun _ _ hpq => hpq.1)
  have hfetch : (db.executionsNamed (.text n)).mapM ExecutionRow.fetch = .ok xs := by
    rw [executionsNamed_eq hes hplain, mapM_eq_ok, List.forall₂_map_left_iff]
    exact hxs
  refine ⟨⟨sortTexts (qs.flatMap fun r => r.baselines.map (·.1)), qs⟩, ?_, ?_, ?_, ?_⟩
  · intro a ha
    rw [history_eq ha, hfetch]
    simp only [Except.mapError, bind, Except.bind, mapM_eq_ok.mpr hall]
    rfl
  · refine ⟨(named es n).map fun p => (p.1.results, p.2), named_perm es n, ?_, ?_⟩
    · rw [List.pairwise_map]
      exact pairwise_named hes hplain n
    · rw [List.forall₂_map_left_iff]
      exact hqs.imp fun _ _ hpq => hpq.2
  · exact pairwise_sortTexts _
  · intro l
    rw [mem_sortTexts, List.mem_flatMap]
    constructor
    · rintro ⟨q, hq, hl⟩
      obtain ⟨p, hp, -, hrest⟩ := exists_of_forall₂_right hqs hq
      obtain ⟨hmem, hname⟩ := mem_named.mp hp
      exact ⟨p.1.results, List.mem_map.mpr ⟨p.1, fst_mem_of_mem_zipIdx hmem, rfl⟩, hname,
        (hrest.mem_labels l).mp hl⟩
    · rintro ⟨r, hr, hname, hl⟩
      obtain ⟨e, he, rfl⟩ := List.mem_map.mp hr
      obtain ⟨i, hi⟩ := List.mem_iff_getElem?.mp he
      have hp : (e, i) ∈ named es n :=
        mem_named.mpr ⟨List.mem_zipIdx_iff_getElem?.mpr hi, hname⟩
      obtain ⟨q, hq, -, hrest⟩ := exists_of_forall₂_left hqs hp
      exact ⟨q, hq, (hrest.mem_labels l).mpr hl⟩

end history

end PerfLedger
