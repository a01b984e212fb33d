import PerfLedger.Time.Calendar
import PerfLedger.Proofs.Text.Numeral

/-!
# Dates and their numbers

* `dateOfNumber_spec`: every number below the limit is that of a date.
* `compare_dayNumber`: dates are numbered in their order, by year, then month, then day.

Both go through the days before a year and before a month: a date lies between the days before its
own year and those before the next one, and the same holds of months within a year.
-/

namespace PerfLedger.Time

open PerfLedger.Text

/-- A date of the calendar: a year from 1 to 9999, a month, and a day of that month. -/
structure IsDate (year month day : Nat) : Prop where
  year_pos : 1 ≤ year
  year_le : year ≤ 9999
  month_pos : 1 ≤ month
  month_le : month ≤ 12
  day_pos : 1 ≤ day
  day_le : day ≤ daysInMonth year month

/-- The number of days of a year. -/
def yearLength (year : Nat) : Nat :=
  if isLeap year then 366 else 365

theorem isLeap_iff (y : Nat) :
    isLeap y = true ↔ y % 4 = 0 ∧ (y % 100 ≠ 0 ∨ y % 400 = 0) := by
  simp [isLeap]

theorem yearLength_eq (y : Nat) :
    yearLength y = if y % 4 = 0 ∧ (y % 100 ≠ 0 ∨ y % 400 = 0) then 366 else 365 := by
  unfold yearLength
  simp only [isLeap_iff]

/-! ## Years

A year is found by the cycles of 400, 100 and 4 years that have passed, and by the years of the
last cycle. In these terms leap years and days are linear.
-/

section cycles

variable {a b c d : Nat}

theorem daysBeforeYear_cycles (hb : b ≤ 3) (hc : c ≤ 24) (hd : d ≤ 3) :
    daysBeforeYear (400 * a + 100 * b + 4 * c + d + 1)
      = 146097 * a + 36524 * b + 1461 * c + 365 * d := by
  have h4 : (400 * a + 100 * b + 4 * c + d) / 4 = 100 * a + 25 * b + c := by omega
  have h100 : (400 * a + 100 * b + 4 * c + d) / 100 = 4 * a + b := by omega
  have h400 : (400 * a + 100 * b + 4 * c + d) / 400 = a := by omega
  simp only [daysBeforeYear, Nat.add_sub_cancel, h4, h100, h400]
  omega

theorem yearLength_cycles (hb : b ≤ 3) (hc : c ≤ 24) (hd : d ≤ 3) :
    yearLength (400 * a + 100 * b + 4 * c + d + 1)
      = if d = 3 ∧ (c = 24 → b = 3) then 366 else 365 := by
  have h4 : (400 * a + 100 * b + 4 * c + d + 1) % 4 = 0 ↔ d = 3 := by omega
  have h100 : (400 * a + 100 * b + 4 * c + d + 1) % 100 = 0 ↔ d = 3 ∧ c = 24 := by omega
  have h400 : (400 * a + 100 * b + 4 * c + d + 1) % 400 = 0 ↔ d = 3 ∧ c = 24 ∧ b = 3 := by omega
  rw [yearLength_eq]
  simp only [ne_eq, h4, h100, h400]
  exact ite_congr (propext (by omega)) (fun _ => rfl) fun _ => rfl

end cycles

theorem daysBeforeYear_succ {y : Nat} (hy : 1 ≤ y) :
    daysBeforeYear (y + 1) = daysBeforeYear y + yearLength y := by
  -- A quotient goes up in the years that its divisor divides.
  have hq (k : Nat) (hk : 0 < k) : y / k = (y - 1) / k + if y % k = 0 then 1 else 0 := by
    obtain ⟨x, rfl⟩ : ∃ x, y = x + 1 := ⟨y - 1, by omega⟩
    rw [Nat.add_sub_cancel, Nat.succ_div]
    simp only [Nat.dvd_iff_mod_eq_zero]
  have hle : (y - 1) / 100 ≤ (y - 1) / 4 := Nat.div_le_div_left (by decide) (by decide)
  rw [yearLength_eq, daysBeforeYear, daysBeforeYear, Nat.add_sub_cancel, hq 4 (by decide),
    hq 100 (by decide), hq 400 (by decide)]
  by_cases h4 : y % 4 = 0
  · by_cases h100 : y % 100 = 0
    · by_cases h400 : y % 400 = 0
      · simp only [h4, h100, h400, if_true, and_self, or_true]
        omega
      · simp only [h4, h100, h400, if_true, if_false, ne_eq, not_true, or_self, and_false]
        omega
    · have h400 : y % 400 ≠ 0 := by omega
      simp only [h4, h100, h400, if_true, if_false, ne_eq, not_false_iff, true_or, and_self]
      omega
  · have h100 : y % 100 ≠ 0 := by omega
    have h400 : y % 400 ≠ 0 := by omega
    simp only [h4, h100, h400, if_false, false_and]
    omega

theorem daysBeforeYear_mono {y z : Nat} (hy : 1 ≤ y) (h : y ≤ z) :
    daysBeforeYear y ≤ daysBeforeYear z := by
  obtain ⟨k, rfl⟩ := Nat.exists_eq_add_of_le h
  induction k with
  | zero => exact Nat.le_refl _
  | succ k ih =>
    rw [← Nat.add_assoc, daysBeforeYear_succ (by omega)]
    exact Nat.le_add_right_of_le (ih (by omega))

/-- The year of a day number, and the place of the day in it. -/
theorem yearAndDay_spec {n : Nat} (h : n < dayLimit) :
    1 ≤ (yearAndDay n).1 ∧ (yearAndDay n).1 ≤ 9999 ∧
      daysBeforeYear (yearAndDay n).1 + (yearAndDay n).2 = n ∧
      (yearAndDay n).2 < yearLength (yearAndDay n).1 := by
  unfold dayLimit at h
  obtain ⟨a, ha⟩ : ∃ a, a = n / 146097 := ⟨_, rfl⟩
  obtain ⟨b, hb⟩ : ∃ b, b = min (n % 146097 / 36524) 3 := ⟨_, rfl⟩
  obtain ⟨c, hc⟩ : ∃ c, c = (n % 146097 - b * 36524) / 1461 := ⟨_, rfl⟩
  obtain ⟨d, hd⟩ : ∃ d, d = min ((n % 146097 - b * 36524) % 1461 / 365) 3 := ⟨_, rfl⟩
  have hb3 : b ≤ 3 := by omega
  have hc24 : c ≤ 24 := by omega
  have hd3 : d ≤ 3 := by omega
  have hyd : yearAndDay n = (400 * a + 100 * b + 4 * c + d + 1,
      (n % 146097 - b * 36524) % 1461 - d * 365) := by
    rw [hd, hc, hb, ha]; rfl
  rw [hyd]
  simp only [daysBeforeYear_cycles hb3 hc24 hd3, yearLength_cycles hb3 hc24 hd3]
  -- Only the last of four centuries has a day more, and only the last of four years.
  have hr : n % 146097 - b * 36524 < 36525 := by omega
  have hr' : b < 3 → n % 146097 - b * 36524 < 36524 := by omega
  refine ⟨by omega, by omega, by omega, ?_⟩
  split <;> omega

/-! ## Months -/

theorem daysBeforeMonth_eq (y m : Nat) :
    daysBeforeMonth y m = ((monthLengths y).take (m - 1)).sum := rfl

theorem length_monthLengths (y : Nat) : (monthLengths y).length = 12 := rfl

theorem sum_monthLengths (y : Nat) : (monthLengths y).sum = yearLength y := by
  unfold monthLengths yearLength
  cases isLeap y <;> rfl

theorem daysBeforeMonth_succ {y m : Nat} (hm : 1 ≤ m) :
    daysBeforeMonth y (m + 1) = daysBeforeMonth y m + daysInMonth y m := by
  obtain ⟨k, rfl⟩ : ∃ k, m = k + 1 := ⟨m - 1, by omega⟩
  rw [daysBeforeMonth_eq, daysBeforeMonth_eq, Nat.add_sub_cancel, Nat.add_sub_cancel,
    List.take_add_one, List.sum_append]
  show _ = _ + (monthLengths y)[k]?.getD 0
  cases (monthLengths y)[k]? <;> simp

theorem daysBeforeMonth_mono {y m k : Nat} (hm : 1 ≤ m) (h : m ≤ k) :
    daysBeforeMonth y m ≤ daysBeforeMonth y k := by
  obtain ⟨j, rfl⟩ := Nat.exists_eq_add_of_le h
  induction j with
  | zero => exact Nat.le_refl _
  | succ j ih =>
    rw [← Nat.add_assoc, daysBeforeMonth_succ (by omega)]
    exact Nat.le_add_right_of_le (ih (by omega))

theorem daysBeforeMonth_thirteen (y : Nat) : daysBeforeMonth y 13 = yearLength y := by
  rw [daysBeforeMonth_eq, ← sum_monthLengths]
  rfl

theorem daysInMonth_le (y m : Nat) : daysInMonth y m ≤ 31 := by
  unfold daysInMonth monthLengths
  split
  · omega
  · next k =>
    match k with
    | 0 | 1 | 2 | 3 | 4 | 5 | 6 | 7 | 8 | 9 | 10 | 11 => cases isLeap y <;> decide
    | _ + 12 => simp

/-- Counting off whole months stops in the month that the day lies in. -/
theorem monthAndDay_spec {lengths : List Nat} {n : Nat} (h : n < lengths.sum) (m : Nat) :
    ∃ i d, i < lengths.length ∧ monthAndDay m n lengths = (m + i, d + 1) ∧
      (lengths.take i).sum + d = n ∧ d < lengths[i]?.getD 0 := by
  induction lengths generalizing m n with
  | nil => simp at h
  | cons k ks ih =>
    rw [List.sum_cons] at h
    unfold monthAndDay
    split
    · next hn => exact ⟨0, n, by simp, rfl, by simp, by simpa using hn⟩
    · next hn =>
      obtain ⟨i, d, hi, heq, hsum, hd⟩ := ih (n := n - k) (by omega) (m + 1)
      refine ⟨i + 1, d, by simpa using hi, ?_, ?_, by simpa using hd⟩
      · rw [heq]; congr 1; omega
      · rw [List.take_succ_cons, List.sum_cons]; omega

/-! ## Dates -/

/-- The date of a number, through the year and the month it lies in. -/
theorem dateOfNumber_spec {n : Nat} (h : n < dayLimit) :
    ∃ y m d, dateOfNumber n = (y, m, d) ∧ IsDate y m d ∧ dayNumber y m d = n := by
  obtain ⟨hpos, hle, hsum, hlt⟩ := yearAndDay_spec h
  rcases hyk : yearAndDay n with ⟨y, k⟩
  simp only [hyk] at hpos hle hsum hlt
  rw [← sum_monthLengths] at hlt
  obtain ⟨i, d, hi, heq, hk, hd⟩ := monthAndDay_spec hlt 1
  rw [length_monthLengths] at hi
  refine ⟨y, 1 + i, d + 1, ?_, ⟨hpos, hle, by omega, by omega, by omega, ?_⟩, ?_⟩
  · simp only [dateOfNumber, hyk, heq]
  · rw [Nat.add_comm 1 i]
    exact hd
  · simp only [dayNumber, daysBeforeMonth_eq, Nat.add_sub_cancel_left, Nat.add_sub_cancel]
    omega

namespace IsDate

variable {y m d y' m' d' : Nat}

/-- A date lies within its month. -/
theorem dayNumber_lt_month (h : IsDate y m d) :
    dayNumber y m d < daysBeforeYear y + daysBeforeMonth y (m + 1) := by
  have := h.day_pos
  have := h.day_le
  rw [daysBeforeMonth_succ h.month_pos]
  unfold dayNumber
  omega

/-- A date lies within its year. -/
theorem dayNumber_lt_year (h : IsDate y m d) : dayNumber y m d < daysBeforeYear (y + 1) := by
  have hm : daysBeforeMonth y (m + 1) ≤ daysBeforeMonth y 13 :=
    daysBeforeMonth_mono (by omega) (Nat.succ_le_succ h.month_le)
  rw [daysBeforeMonth_thirteen] at hm
  rw [daysBeforeYear_succ h.year_pos]
  exact Nat.lt_of_lt_of_le h.dayNumber_lt_month (Nat.add_le_add_left hm _)

theorem dayNumber_lt_of_year (h : IsDate y m d) (hy : y < y') :
    dayNumber y m d < dayNumber y' m' d' :=
  calc dayNumber y m d < daysBeforeYear (y + 1) := h.dayNumber_lt_year
    _ ≤ daysBeforeYear y' := daysBeforeYear_mono (by omega) hy
    _ ≤ dayNumber y' m' d' := by unfold dayNumber; omega

theorem dayNumber_lt_of_month (h : IsDate y m d) (hm : m < m') :
    dayNumber y m d < dayNumber y m' d' :=
  calc dayNumber y m d < daysBeforeYear y + daysBeforeMonth y (m + 1) := h.dayNumber_lt_month
    _ ≤ daysBeforeYear y + daysBeforeMonth y m' :=
      Nat.add_le_add_left (daysBeforeMonth_mono (by omega) hm) _
    _ ≤ dayNumber y m' d' := by unfold dayNumber; omega

end IsDate

/-- **Dates are numbered in their order.** -/
theorem compare_dayNumber {y m d y' m' d' : Nat} (h : IsDate y m d) (h' : IsDate y' m' d') :
    compare (dayNumber y m d) (dayNumber y' m' d')
      = (compare y y').then ((compare m m').then (compare d d')) := by
  rcases Nat.lt_trichotomy y y' with hy | rfl | hy
  · rw [Nat.compare_eq_lt.mpr hy, Nat.compare_eq_lt.mpr (h.dayNumber_lt_of_year hy)]; rfl
  · rw [Nat.compare_eq_eq.mpr rfl, Ordering.eq_then]
    rcases Nat.lt_trichotomy m m' with hm | rfl | hm
    · rw [Nat.compare_eq_lt.mpr hm, Nat.compare_eq_lt.mpr (h.dayNumber_lt_of_month hm)]; rfl
    · have := h.day_pos
      have := h'.day_pos
      rw [Nat.compare_eq_eq.mpr rfl, Ordering.eq_then]
      exact compare_nat_congr (by unfold dayNumber; omega) (by unfold dayNumber; omega)
    · rw [Nat.compare_eq_gt.mpr hm, Nat.compare_eq_gt.mpr (h'.dayNumber_lt_of_month hm)]; rfl
  · rw [Nat.compare_eq_gt.mpr hy, Nat.compare_eq_gt.mpr (h'.dayNumber_lt_of_year hy)]; rfl

end PerfLedger.Time
