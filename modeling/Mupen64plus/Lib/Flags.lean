import Mathlib.Data.BitVec
import Mathlib.Tactic.Common

/-!
# Flags of a register

A register holds flags as bits; `x &&& m` reads the flags of a mask `m`. These lemmas read a mask
after other flags were set with `|||` or cleared with `&&& ~~~`.
-/

namespace Flags

variable {w : ℕ} {x v k m : BitVec w}

theorem or_and_ne_zero : (x ||| v) &&& m ≠ 0 ↔ x &&& m ≠ 0 ∨ v &&& m ≠ 0 := by
  have h : (x ||| v) &&& m = 0 ↔ x &&& m = 0 ∧ v &&& m = 0 := by
    rw [BitVec.and_or_distrib_right]
    exact BitVec.or_eq_zero_iff
  rw [ne_eq, h, not_and_or]

/-- Setting other flags. -/
theorem or_and_of_disjoint (h : v &&& m = 0) : (x ||| v) &&& m = x &&& m := by
  rw [BitVec.and_or_distrib_right, h]
  exact BitVec.or_zero

/-- Clearing other flags. -/
theorem andNot_and_of_disjoint (h : m &&& k = 0) : (x &&& ~~~k) &&& m = x &&& m := by
  ext i hi
  have hbit : (m[i] && k[i]) = false := by
    rw [← BitVec.getElem_and, h]
    exact BitVec.getElem_zero hi
  simp only [BitVec.getElem_and, BitVec.getElem_not]
  cases hm : m[i] with
  | false => simp
  | true =>
    rw [hm, Bool.true_and] at hbit
    simp [hbit]

/-- Clearing the flags that are read. -/
theorem andNot_and_of_covered (h : m &&& ~~~k = 0) : (x &&& ~~~k) &&& m = 0 := by
  rw [BitVec.and_assoc, BitVec.and_comm (~~~k) m, h]
  exact BitVec.and_zero

/-- A field of a number under its mask. -/
theorem and_field (n s k : ℕ) : n &&& 2 ^ s * (2 ^ k - 1) = 2 ^ s * (n / 2 ^ s % 2 ^ k) := by
  apply Nat.eq_of_testBit_eq
  intro i
  rw [Nat.testBit_and, Nat.testBit_two_pow_mul, Nat.testBit_two_pow_sub_one,
    Nat.testBit_two_pow_mul, Nat.testBit_mod_two_pow, Nat.testBit_div_two_pow]
  by_cases hi : s ≤ i
  · rw [decide_eq_true hi, Nat.sub_add_cancel hi, Bool.true_and, Bool.true_and, Bool.and_comm]
  · rw [decide_eq_false hi, Bool.false_and, Bool.false_and, Bool.and_false]

/-- The low bits of a word. -/
theorem toNat_and_low (n : ℕ) (h : m.toNat = 2 ^ n - 1) : (x &&& m).toNat = x.toNat % 2 ^ n := by
  rw [BitVec.toNat_and, h, Nat.and_two_pow_sub_one_eq_mod]

end Flags
