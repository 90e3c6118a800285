import Mathlib.Data.Nat.Bitwise

/-!
# Exclusive or with a small number

Where units of `2 ^ k` are stored in another order inside a block, an index is turned into the one
or the other order by an exclusive or with a number below `2 ^ k`. It stays inside its block.

## Main results

- `low_xor` — block and place after an exclusive or
- `xor_three`, `xor_four` — the order of bytes in a word reversed, and two words exchanged
-/

namespace LowXor

/-- The block of an index is kept, its place in the block is changed. -/
theorem low_xor {k m : ℕ} (hm : m < 2 ^ k) (a : ℕ) :
    a ^^^ m = 2 ^ k * (a / 2 ^ k) + (a % 2 ^ k ^^^ m) := by
  have hblock : (a ^^^ m) / 2 ^ k = a / 2 ^ k := by
    rw [Nat.xor_div_two_pow, Nat.div_eq_of_lt hm, Nat.xor_zero]
  have hplace : (a ^^^ m) % 2 ^ k = a % 2 ^ k ^^^ m := by
    rw [Nat.xor_mod_two_pow, Nat.mod_eq_of_lt hm]
  conv_lhs => rw [← Nat.div_add_mod (a ^^^ m) (2 ^ k), hblock, hplace]

theorem xor_three (a : ℕ) : a ^^^ 3 = 4 * (a / 4) + (3 - a % 4) := by
  have hplace : ∀ r < 4, r ^^^ 3 = 3 - r := by decide
  have h : a ^^^ 3 = 4 * (a / 4) + (a % 4 ^^^ 3) := low_xor (k := 2) (by decide) a
  rw [h, hplace _ (Nat.mod_lt _ (by decide))]

theorem xor_four (a : ℕ) : a ^^^ 4 = 8 * (a / 8) + (a % 8 + 4) % 8 := by
  have hplace : ∀ r < 8, r ^^^ 4 = (r + 4) % 8 := by decide
  have h : a ^^^ 4 = 8 * (a / 8) + (a % 8 ^^^ 4) := low_xor (k := 3) (by decide) a
  rw [h, hplace _ (Nat.mod_lt _ (by decide))]

theorem xor_two (a : ℕ) : a ^^^ 2 = 4 * (a / 4) + (a % 4 + 2) % 4 := by
  have hplace : ∀ r < 4, r ^^^ 2 = (r + 2) % 4 := by decide
  have h : a ^^^ 2 = 4 * (a / 4) + (a % 4 ^^^ 2) := low_xor (k := 2) (by decide) a
  rw [h, hplace _ (Nat.mod_lt _ (by decide))]

theorem xor_three_xor_three (a : ℕ) : a ^^^ 3 ^^^ 3 = a := by
  rw [Nat.xor_assoc, Nat.xor_self, Nat.xor_zero]

end LowXor
