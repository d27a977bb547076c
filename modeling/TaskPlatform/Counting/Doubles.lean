import Mathlib.Algebra.Order.Ring.Int
import Mathlib.Data.Nat.Log

/-!
# Natural numbers as doubles

A double has 53 binary digits.  `nearestDouble` is the double nearest to a natural
number, and of two that are equally near the one whose last digit is 0.  It is the
number itself up to `2 ^ 53`.
-/

namespace TaskPlatform
namespace Counting

def nearestDouble (n : Nat) : Nat :=
  let unit := 2 ^ (n.log2 - 52)
  let digits := n / unit
  let rest := n % unit
  if 2 * rest < unit ∨ (2 * rest = unit ∧ digits % 2 = 0) then digits * unit
  else (digits + 1) * unit

theorem nearestDouble_of_le {n : Nat} (h : n ≤ 2 ^ 53) : nearestDouble n = n := by
  rcases Nat.lt_or_eq_of_le h with hlt | rfl
  · have hlog : n.log2 - 52 = 0 := by
      rcases Nat.eq_zero_or_pos n with rfl | hpos
      · rfl
      · have hbits := (Nat.log2_lt (by omega)).mpr hlt
        omega
    simp [nearestDouble, hlog, Nat.mod_one]
  · decide +kernel

/-- Rounding keeps a number with 53 digits or more above all that have fewer. -/
theorem le_nearestDouble {n : Nat} (h : 2 ^ 52 ≤ n) : 2 ^ 52 ≤ nearestDouble n := by
  let unit := 2 ^ (n.log2 - 52)
  have hunit : 0 < unit := Nat.two_pow_pos _
  have hdigits : 2 ^ 52 ≤ n / unit := by
    rw [Nat.le_div_iff_mul_le hunit, ← Nat.pow_add]
    have hlog : 52 ≤ n.log2 := (Nat.le_log2 (by omega)).mpr h
    rw [Nat.add_sub_cancel' hlog]
    exact Nat.log2_self_le (by omega)
  have hround : n / unit * unit ≤ nearestDouble n := by
    simp only [nearestDouble]
    split
    · exact le_refl _
    · exact Nat.mul_le_mul_right _ (Nat.le_succ _)
  calc 2 ^ 52 ≤ n / unit := hdigits
    _ ≤ n / unit * unit := Nat.le_mul_of_pos_right _ hunit
    _ ≤ nearestDouble n := hround

theorem nearestDouble_eq_iff {n k : Nat} (hk : k < 2 ^ 52) : nearestDouble n = k ↔ n = k := by
  rcases Nat.lt_or_ge n (2 ^ 52) with h | h
  · rw [nearestDouble_of_le (by omega)]
  · have hle := le_nearestDouble h
    constructor
    · omega
    · omega

example : [2 ^ 53 + 1, 2 ^ 53 + 3, 2 ^ 63 - 513, 2 ^ 63 - 512].map nearestDouble =
    [2 ^ 53, 2 ^ 53 + 4, 2 ^ 63 - 1024, 2 ^ 63] := by decide +kernel

end Counting
end TaskPlatform
