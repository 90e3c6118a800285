import Mathlib.Data.BitVec
import Mathlib.Data.Int.ModEq
import Mathlib.Tactic.Common
import Mathlib.Tactic.Linarith
import Mathlib.Tactic.Ring

/-!
# Absolute time read from a wrapping counter

A `w`-bit counter shows an absolute time `t : ℤ` as `BitVec.ofInt w t`. Differences of two
readings determine the difference of the two times as long as it stays inside a window: `2 ^ w`
ticks for the unsigned difference, `2 ^ (w - 1)` ticks to each side for the signed one.

## Main results

- `toNat_ofInt_sub` — unsigned differences are exact inside the window `[b, b + 2 ^ w)`
- `toInt_ofInt_of_window` — the signed reading of a difference is exact inside its window
-/

namespace CircularTime

variable {w : ℕ}

theorem ofInt_sub (a b : ℤ) : BitVec.ofInt w (a - b) = BitVec.ofInt w a - BitVec.ofInt w b := by
  rw [sub_eq_add_neg, BitVec.ofInt_add, BitVec.ofInt_neg, sub_eq_add_neg]

/-- A reading taken `t` ticks after zero shows `t` itself inside one period. -/
theorem toNat_ofInt_of_window {t : ℤ} (h0 : 0 ≤ t) (h1 : t < 2 ^ w) :
    ((BitVec.ofInt w t).toNat : ℤ) = t := by
  rw [BitVec.toNat_ofInt]
  have hcast : ((2 ^ w : ℕ) : ℤ) = 2 ^ w := by push_cast; rfl
  rw [hcast, Int.emod_eq_of_lt h0 h1]
  exact Int.toNat_of_nonneg h0

/-- Unsigned differences of readings are exact inside one period after the base. -/
theorem toNat_ofInt_sub {a b : ℤ} (h0 : b ≤ a) (h1 : a < b + 2 ^ w) :
    ((BitVec.ofInt w a - BitVec.ofInt w b).toNat : ℤ) = a - b := by
  rw [← ofInt_sub]
  exact toNat_ofInt_of_window (by linarith) (by linarith)

/-- Signed readings are exact inside half a period to each side. -/
theorem toInt_ofInt_of_window {t : ℤ} (h0 : -(2 ^ w) ≤ t) (h1 : t < 2 ^ w) :
    (BitVec.ofInt (w + 1) t).toInt = t := by
  rw [BitVec.toInt_ofInt]
  apply Int.bmod_eq_of_le <;> push_cast <;> rw [pow_succ] <;> omega

end CircularTime
