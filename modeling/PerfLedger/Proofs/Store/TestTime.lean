import PerfLedger.Store.Record
import PerfLedger.Proofs.Fallible
import PerfLedger.Proofs.Time.Clock
import PerfLedger.Proofs.Time.Stamp

/-!
# The time of a test

A moment is normalised in two places: when new results are made, and when a stamp is written. Both
take a moment without an offset to be in UTC and move one with an offset to a UTC clock, so both
fail for the same moments: those for which no UTC clock shows a reading (`ensureUtc_eq_error`,
`stamp_eq_error`). What the clock shows is found by counting, and is the reading that lies the
offset away (`isUtcForm_of_ensureUtc`).

Therefore a moment and its UTC form have one stamp, and results are recorded alike with either
(`utcForm_of_moment`).
-/

namespace PerfLedger.Time

variable {m u : Moment} {f : Fault}

/-- The count of microseconds of a moment in UTC: that of the wall clock, less the offset. -/
theorem instant_eq (m : Moment) :
    m.instant = m.wall.micros - m.offsetSeconds * 1000000 := rfl

/-- What a moment is normalised to. -/
structure IsUtcForm (m u : Moment) : Prop where
  zone : u.zone = .offset 0
  wall : u.wall.IsValid
  /-- The count is that of the wall clock, less the offset. -/
  micros : (u.wall.micros : ℤ) = m.wall.micros - m.offsetSeconds * 1000000
  /-- A clock east of UTC shows what the UTC clock shows after as many ticks as the offset has. -/
  east : ∀ k : ℕ, (k : ℤ) = m.offsetSeconds * 1000000 → WallTime.tick^[k] u.wall = m.wall
  /-- The UTC clock shows what a clock west of UTC shows after as many ticks as the offset has. -/
  west : ∀ k : ℕ, (k : ℤ) = -(m.offsetSeconds * 1000000) → WallTime.tick^[k] m.wall = u.wall

/-! ## Where a moment has no UTC form -/

theorem before?_eq_none {t : WallTime} {s : ℤ} :
    t.before? s = none ↔
      ¬∃ w : WallTime, w.IsValid ∧ (w.micros : ℤ) = t.micros - s * 1000000 := by
  rw [WallTime.exists_isValid_iff, WallTime.before?]
  split <;> simp_all

theorem toUtc?_eq_none (hm : m.wall.IsValid) :
    m.toUtc? = none ↔ ¬∃ w : WallTime, w.IsValid ∧
      (w.micros : ℤ) = m.wall.micros - m.offsetSeconds * 1000000 := by
  obtain ⟨wall, zone⟩ := m
  have shown : ∃ w : WallTime, w.IsValid ∧ (w.micros : ℤ) = wall.micros - 0 * 1000000 :=
    ⟨wall, hm, by omega⟩
  cases zone with
  | unknown => exact iff_of_false (by simp [Moment.toUtc?]) (not_not_intro shown)
  | silent => exact iff_of_false (by simp [Moment.toUtc?]) (not_not_intro shown)
  | offset s => exact Option.map_eq_none_iff.trans before?_eq_none

theorem ensureUtc_eq_error : ensureUtc m = .error f ↔ f = .outOfRange ∧ m.toUtc? = none := by
  unfold ensureUtc
  cases m.toUtc? <;> simp [eq_comm]

theorem stamp_eq_error : stamp m = .error f ↔ f = .outOfRange ∧ m.toUtc? = none := by
  cases hu : m.toUtc? with
  | some u => simp [stamp_of_toUtc? hu]
  | none =>
    obtain ⟨wall, zone⟩ := m
    cases zone with
    | unknown => exact absurd hu (by simp [Moment.toUtc?])
    | silent => exact absurd hu (by simp [Moment.toUtc?])
    | offset s => simp [stamp, Option.map_eq_none_iff.mp hu, eq_comm]

/-! ## The UTC form -/

theorem isUtcForm_of_ensureUtc (hm : m.wall.IsValid) (h : ensureUtc m = .ok u) :
    IsUtcForm m u := by
  obtain ⟨hzone, hwall, hinstant⟩ := Moment.toUtc?_spec hm (ensureUtc_eq_ok.mp h)
  have hu : u = ⟨u.wall, .offset 0⟩ := by rw [← hzone]
  have hmicros : (u.wall.micros : ℤ) = m.wall.micros - m.offsetSeconds * 1000000 := by
    rw [← Moment.instant_utc, ← hu, hinstant, instant_eq]
  refine ⟨hzone, hwall, hmicros, ?_, ?_⟩
  · intro k hk
    exact WallTime.iterate_tick_of_micros hwall hm (by omega)
  · intro k hk
    exact WallTime.iterate_tick_of_micros hm hwall (by omega)

theorem before?_zero {t : WallTime} (h : t.IsValid) : t.before? 0 = some t := by
  cases hu : t.before? 0 with
  | none => exact absurd ⟨t, h, by omega⟩ (before?_eq_none.mp hu)
  | some u =>
    obtain ⟨hvalid, hcount⟩ := WallTime.before?_spec hu
    rw [WallTime.micros_inj hvalid h (by omega)]

/-- A moment in UTC is not moved. -/
theorem ensureUtc_of_isUtcForm (h : IsUtcForm m u) : ensureUtc u = .ok u := by
  obtain ⟨wall, zone⟩ := u
  obtain rfl : zone = .offset 0 := h.zone
  have hutc : Moment.toUtc? ⟨wall, .offset 0⟩ =
      (wall.before? 0).map fun t => ⟨t, .offset 0⟩ := rfl
  rw [ensureUtc_eq_ok, hutc, before?_zero h.wall, Option.map_some]

/-- A moment and its UTC form have one stamp. -/
theorem stamp_eq_of_ensureUtc (hm : m.wall.IsValid) (h : ensureUtc m = .ok u) :
    stamp m = stamp u := by
  have hu := ensureUtc_of_isUtcForm (isUtcForm_of_ensureUtc hm h)
  rw [stamp_of_toUtc? (ensureUtc_eq_ok.mp h), stamp_of_toUtc? (ensureUtc_eq_ok.mp hu)]

/-- Results are recorded by the stamp of their time. -/
theorem record_congr {r : Results} (h : stamp m = stamp u) (db : Database) (a : Access) :
    db.record a { r with time := m } = db.record a { r with time := u } := by
  unfold Database.record
  rw [show stamp ({ r with time := m } : Results).time = stamp u from h]
  rfl

/--
**Normalising a moment keeps its instant, and both ways of doing it agree.**

Normalising fails exactly if no clock reading of the years 1 to 9999 has the count of the wall clock
less the offset. Otherwise the UTC form has that count, and is its own UTC form. A stamp fails to be
written for the same moments with the same fault, and a moment and its UTC form have one stamp. So
new results, of which the time is normalised, are recorded as they would be with the time they were
given.
-/
theorem utcForm_of_moment (hm : m.wall.IsValid) :
    (∀ f, ensureUtc m = .error f ↔ f = .outOfRange ∧ ¬∃ w : WallTime, w.IsValid ∧
      (w.micros : ℤ) = m.wall.micros - m.offsetSeconds * 1000000) ∧
    (∀ u, ensureUtc m = .ok u → IsUtcForm m u ∧ ensureUtc u = .ok u ∧ stamp m = stamp u) ∧
    (∀ f, stamp m = .error f ↔ ensureUtc m = .error f) ∧
    ∀ name version current r, Results.new name version m current = .ok r →
      ∀ db a, Database.record db a { r with time := m } = db.record a r := by
  refine ⟨?fails, ?form, ?stamps, ?recorded⟩
  case fails =>
    intro f
    rw [ensureUtc_eq_error, toUtc?_eq_none hm]
  case form =>
    intro u hu
    have hform := isUtcForm_of_ensureUtc hm hu
    exact ⟨hform, ensureUtc_of_isUtcForm hform, stamp_eq_of_ensureUtc hm hu⟩
  case stamps =>
    intro f
    rw [stamp_eq_error, ensureUtc_eq_error]
  case recorded =>
    intro name version current r hr db a
    obtain ⟨u, hu, hr⟩ := bind_eq_ok.mp hr
    obtain rfl := pure_eq_ok.mp hr
    exact record_congr (stamp_eq_of_ensureUtc hm hu) db a

/--
On a clock two seconds west of UTC the leap day still has a second to go when it is over in UTC. On
a clock one second east, year 1 begins before it does in UTC.
-/
theorem utcForm_of_moment_leap_day :
    IsUtcForm ⟨⟨2024, 2, 29, 23, 59, 59, 5⟩, .offset (-2)⟩
        ⟨⟨2024, 3, 1, 0, 0, 1, 5⟩, .offset 0⟩ ∧
      stamp ⟨⟨2024, 2, 29, 23, 59, 59, 5⟩, .offset (-2)⟩ =
        stamp ⟨⟨2024, 3, 1, 0, 0, 1, 5⟩, .offset 0⟩ ∧
      stamp ⟨WallTime.beginning, .offset 1⟩ = .error .outOfRange ∧
      ¬∃ w : WallTime, w.IsValid ∧
        (w.micros : ℤ) = WallTime.beginning.micros - 1 * 1000000 := by
  have hleap : ensureUtc ⟨⟨2024, 2, 29, 23, 59, 59, 5⟩, .offset (-2)⟩ =
      .ok ⟨⟨2024, 3, 1, 0, 0, 1, 5⟩, .offset 0⟩ := rfl
  have hfirst : ensureUtc ⟨WallTime.beginning, .offset 1⟩ = .error .outOfRange :=
    ensureUtc_eq_error.mpr ⟨rfl, by decide +kernel⟩
  obtain ⟨-, hform, -, -⟩ :=
    utcForm_of_moment (m := ⟨⟨2024, 2, 29, 23, 59, 59, 5⟩, .offset (-2)⟩) (by decide)
  obtain ⟨hfails, -, hstamp, -⟩ :=
    utcForm_of_moment (m := ⟨WallTime.beginning, .offset 1⟩) (by decide)
  exact ⟨(hform _ hleap).1, (hform _ hleap).2.2, (hstamp _).mpr hfirst, ((hfails _).mp hfirst).2⟩

end PerfLedger.Time
