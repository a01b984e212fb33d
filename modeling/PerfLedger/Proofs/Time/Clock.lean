import Mathlib.Logic.Function.Iterate
import PerfLedger.Proofs.Time.Moment

/-!
# Clocks that tick

The count of a clock reading is defined through the number of its date. Here it is shown to be what
it should be: how often a clock that was set to the beginning of year 1 has ticked, if it goes on by
one microsecond at a time and carries over to the seconds, minutes, hours, days, months and years
(`iterate_tick_micros`). A day carries over at the end of its month, be the year a leap year or not.

So the counts of valid readings are the numbers from zero to the limit, without a gap and each but
once (`exists_isValid_iff`, `micros_inj`).
-/

namespace PerfLedger

open Time

namespace Time

/-- The date after a date. -/
def nextDate (year month day : Nat) : Nat × Nat × Nat :=
  if day < daysInMonth year month then (year, month, day + 1)
  else if month < 12 then (year, month + 1, 1)
  else (year + 1, 1, 1)

variable {y m d : Nat}

theorem daysInMonth_pos (hpos : 1 ≤ m) (hle : m ≤ 12) : 1 ≤ daysInMonth y m := by
  obtain ⟨k, rfl⟩ : ∃ k, m = k + 1 := ⟨m - 1, by omega⟩
  have hlength : k < (monthLengths y).length := by rw [length_monthLengths]; omega
  have hall : ∀ n ∈ monthLengths y, 1 ≤ n := by
    unfold monthLengths
    cases isLeap y <;> decide
  show 1 ≤ (monthLengths y)[k]?.getD 0
  rw [List.getElem?_eq_getElem hlength, Option.getD_some]
  exact hall _ (List.getElem_mem hlength)

theorem dayNumber_lt_dayLimit (h : IsDate y m d) : dayNumber y m d < dayLimit :=
  calc dayNumber y m d < daysBeforeYear (y + 1) := h.dayNumber_lt_year
    _ ≤ daysBeforeYear 10000 := daysBeforeYear_mono (by omega) (Nat.succ_le_succ h.year_le)
    _ = dayLimit := rfl

/-- The days are numbered one by one, across the ends of months and years. -/
theorem dayNumber_nextDate (h : IsDate y m d) :
    dayNumber (nextDate y m d).1 (nextDate y m d).2.1 (nextDate y m d).2.2
      = dayNumber y m d + 1 := by
  have hpos := h.day_pos
  have hle := h.day_le
  unfold nextDate
  split
  · show daysBeforeYear y + daysBeforeMonth y m + d = dayNumber y m d + 1
    unfold dayNumber
    omega
  · next hlast =>
    obtain rfl : d = daysInMonth y m := by omega
    have hmonth := daysBeforeMonth_succ (y := y) h.month_pos
    split
    · show daysBeforeYear y + daysBeforeMonth y (m + 1) = dayNumber y m (daysInMonth y m) + 1
      unfold dayNumber
      omega
    · next hyear =>
      obtain rfl : m = 12 := by have := h.month_le; omega
      show daysBeforeYear (y + 1) = dayNumber y 12 (daysInMonth y 12) + 1
      rw [daysBeforeMonth_thirteen] at hmonth
      rw [daysBeforeYear_succ h.year_pos, hmonth]
      unfold dayNumber
      omega

theorem IsDate.nextDate (h : IsDate y m d) (hlimit : dayNumber y m d + 1 < dayLimit) :
    IsDate (nextDate y m d).1 (nextDate y m d).2.1 (nextDate y m d).2.2 := by
  have hnumber := dayNumber_nextDate h
  have hpos := h.month_pos
  have hle := h.month_le
  unfold Time.nextDate at hnumber ⊢
  split
  · next hday =>
    show IsDate y m (d + 1)
    exact ⟨h.year_pos, h.year_le, hpos, hle, by omega, hday⟩
  · next hlast =>
    rw [if_neg hlast] at hnumber
    split
    · next hmonth =>
      show IsDate y (m + 1) 1
      exact ⟨h.year_pos, h.year_le, by omega, hmonth, le_rfl, daysInMonth_pos (by omega) hmonth⟩
    · next hyear =>
      rw [if_neg hyear] at hnumber
      show IsDate (y + 1) 1 1
      -- Behind the last day of year 9999 is the limit.
      have hne : y ≠ 9999 := by
        rintro rfl
        have hend : dayNumber (9999 + 1) 1 1 = dayLimit := rfl
        exact Nat.ne_of_lt hlimit (hnumber.symm.trans hend)
      have hyear' := h.year_le
      exact ⟨by omega, by omega, le_rfl, by decide, le_rfl, daysInMonth_pos le_rfl (by decide)⟩

end Time

namespace WallTime

/-- The beginning of year 1. -/
def beginning : WallTime := ⟨1, 1, 1, 0, 0, 0, 0⟩

/-- The reading one microsecond later. -/
def tick (t : WallTime) : WallTime :=
  if t.microsecond < 999999 then { t with microsecond := t.microsecond + 1 }
  else if t.second < 59 then { t with second := t.second + 1, microsecond := 0 }
  else if t.minute < 59 then { t with minute := t.minute + 1, second := 0, microsecond := 0 }
  else if t.hour < 23 then
    { t with hour := t.hour + 1, minute := 0, second := 0, microsecond := 0 }
  else
    let (year, month, day) := nextDate t.year t.month t.day
    ⟨year, month, day, 0, 0, 0, 0⟩

variable {t u : WallTime}

theorem micros_lt_microsLimit (h : t.IsValid) : (t.micros : ℤ) < microsLimit := by
  have hdate := dayNumber_lt_dayLimit h.date
  have hhour := h.hour_lt
  have hminute := h.minute_lt
  have hsecond := h.second_lt
  have hmicro := h.microsecond_lt
  rw [micros_eq]
  unfold microsLimit
  omega

/-- Valid readings of one count are one. -/
theorem micros_inj (ht : t.IsValid) (hu : u.IsValid) (h : t.micros = u.micros) : t = u := by
  have horder := compare_micros ht hu
  rw [Nat.compare_eq_eq.mpr h, eq_comm, order] at horder
  simp only [Ordering.then_eq_eq, Nat.compare_eq_eq] at horder
  obtain ⟨h1, h2, h3, h4, h5, h6, h7⟩ := horder
  cases t
  cases u
  simp_all

/-- A tick adds one to the count, whatever it carries over to. -/
theorem micros_tick (h : t.IsValid) : t.tick.micros = t.micros + 1 := by
  have hhour := h.hour_lt
  have hminute := h.minute_lt
  have hsecond := h.second_lt
  have hmicro := h.microsecond_lt
  have hday := dayNumber_nextDate h.date
  unfold tick
  split
  · simp only [micros_eq]
    omega
  · split
    · simp only [micros_eq]
      omega
    · split
      · simp only [micros_eq]
        omega
      · split
        · simp only [micros_eq]
          omega
        · simp only [micros_eq, hday]
          omega

theorem IsValid.tick (h : t.IsValid) (hlimit : (t.micros + 1 : ℤ) < microsLimit) :
    t.tick.IsValid := by
  obtain ⟨hdate, hhour, hminute, hsecond, hmicro⟩ := h
  have hday : 0 < 24 := by decide
  have hsixty : 0 < 60 := by decide
  have hmillion : 0 < 1000000 := by decide
  unfold WallTime.tick
  split
  · next hlt => exact ⟨hdate, hhour, hminute, hsecond, Nat.succ_lt_succ hlt⟩
  · split
    · next hlt => exact ⟨hdate, hhour, hminute, Nat.succ_lt_succ hlt, hmillion⟩
    · split
      · next hlt => exact ⟨hdate, hhour, Nat.succ_lt_succ hlt, hsixty, hmillion⟩
      · split
        · next hlt => exact ⟨hdate, Nat.succ_lt_succ hlt, hsixty, hsixty, hmillion⟩
        · refine ⟨hdate.nextDate ?_, hday, hsixty, hsixty, hmillion⟩
          rw [micros_eq] at hlimit
          unfold microsLimit at hlimit
          omega

/-- After as many ticks, a clock that was set to the beginning shows a valid reading of that
count. -/
theorem iterate_tick_spec (n : Nat) (h : (n : ℤ) < microsLimit) :
    (tick^[n] beginning).IsValid ∧ (tick^[n] beginning).micros = n := by
  induction n with
  | zero => exact ⟨by decide, by decide⟩
  | succ n ih =>
    obtain ⟨hvalid, hcount⟩ := ih (by omega)
    rw [Function.iterate_succ_apply']
    refine ⟨hvalid.tick (by omega), ?_⟩
    rw [micros_tick hvalid, hcount]

/-- **The count of a reading is the number of ticks since the beginning.** -/
theorem iterate_tick_micros (h : t.IsValid) : tick^[t.micros] beginning = t := by
  obtain ⟨hvalid, hcount⟩ := iterate_tick_spec t.micros (micros_lt_microsLimit h)
  exact micros_inj hvalid h hcount

/-- A clock gets from one reading to another by as many ticks as lie between their counts. -/
theorem iterate_tick_of_micros (ht : t.IsValid) (hu : u.IsValid) {k : Nat}
    (h : u.micros = k + t.micros) : tick^[k] t = u := by
  rw [← iterate_tick_micros ht, ← Function.iterate_add_apply, ← h, iterate_tick_micros hu]

/-- **There is a reading of each count from zero to the limit, and of no other.** -/
theorem exists_isValid_iff (n : ℤ) :
    (∃ t : WallTime, t.IsValid ∧ (t.micros : ℤ) = n) ↔ 0 ≤ n ∧ n < microsLimit := by
  constructor
  · rintro ⟨t, hvalid, rfl⟩
    exact ⟨Int.natCast_nonneg _, micros_lt_microsLimit hvalid⟩
  · rintro ⟨hpos, hlimit⟩
    obtain ⟨k, rfl⟩ := Int.eq_ofNat_of_zero_le hpos
    obtain ⟨hvalid, hcount⟩ := iterate_tick_spec k hlimit
    exact ⟨_, hvalid, by rw [hcount]⟩

end WallTime

end PerfLedger
