import Mathlib.Algebra.Ring.Nat
import Mathlib.Data.Nat.Log
import PerfLedger.Decimal.Basic

/-!
# Counting digits

A coefficient has one digit more than its logarithm to base ten. So it lies between the powers of
ten for its digits (`digitCount_le_iff`, `lt_digitCount_iff`), and a power of ten adds as many
digits as it has zeros (`digitCount_mul_pow`).
-/

namespace PerfLedger.Decimal

theorem digitCount_eq_log (n : Nat) : digitCount n = Nat.log 10 n + 1 := by
  fun_induction digitCount n with
  | case1 n h => rw [Nat.log_of_lt h]
  | case2 n h ih =>
    rw [ih, Nat.log_div_base, Nat.sub_add_cancel (Nat.log_pos (by decide) (by omega))]

theorem digitCount_pos (n : Nat) : 0 < digitCount n := by
  rw [digitCount_eq_log]
  exact Nat.succ_pos _

theorem lt_pow_digitCount (n : Nat) : n < 10 ^ digitCount n := by
  rw [digitCount_eq_log]
  exact Nat.lt_pow_succ_log_self (by decide) n

theorem pow_le_of_pos {n : Nat} (h : 0 < n) : 10 ^ (digitCount n - 1) ≤ n := by
  rw [digitCount_eq_log, Nat.add_sub_cancel]
  exact Nat.pow_log_le_self 10 (by omega)

theorem lt_digitCount_iff {n k : Nat} (h : 0 < n) : k < digitCount n ↔ 10 ^ k ≤ n := by
  rw [digitCount_eq_log, Nat.lt_add_one_iff]
  exact Nat.le_log_iff_pow_le (by decide) (by omega)

theorem digitCount_le_iff {n k : Nat} (h : 0 < n) : digitCount n ≤ k ↔ n < 10 ^ k := by
  rw [← Nat.not_lt, lt_digitCount_iff h, Nat.not_le]

theorem digitCount_mul_pow {n : Nat} (h : 0 < n) (k : Nat) :
    digitCount (n * 10 ^ k) = digitCount n + k := by
  induction k with
  | zero => rw [Nat.pow_zero, Nat.mul_one, Nat.add_zero]
  | succ k ih =>
    have hpos : 0 < n * 10 ^ k := Nat.mul_pos h (Nat.pow_pos (by decide))
    rw [Nat.pow_succ, ← Nat.mul_assoc, digitCount_eq_log, Nat.log_mul_base (by decide) (by omega),
      ← digitCount_eq_log, ih, Nat.add_assoc]

theorem digitCount_mono {m n : Nat} (h : m ≤ n) : digitCount m ≤ digitCount n := by
  rw [digitCount_eq_log, digitCount_eq_log]
  exact Nat.add_le_add_right (Nat.log_mono_right h) 1

end PerfLedger.Decimal
