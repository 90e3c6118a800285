import Mathlib.Tactic.Common
import Mathlib.Tactic.Ring
import Mathlib.Data.Nat.Notation
import Mathlib.Data.Int.ModEq
import Mathlib.Algebra.Order.Ring.Abs

/-!
# Products of 16-bit words

A product of two words computed in 32 bits, with each factor read as signed or as unsigned, is
exact. The facts are stated over `ℤ` and `ℕ`, where linear arithmetic closes what follows.

## Main results

- `signed_cases` — the signed reading of a word from the unsigned one
- `mul_signed`, `mul_mixed`, `mul_unsigned` — the three products
- `three_words_inj` — a value of three words determines them
-/

namespace WordProducts

theorem signed_cases (x : BitVec 16) :
    x.toInt = x.toNat ∧ x.toNat < 32768 ∨
      x.toInt = x.toNat - 65536 ∧ 32768 ≤ x.toNat ∧ x.toNat < 65536 := by
  have hx := x.isLt
  rw [BitVec.toInt_eq_toNat_cond]
  split <;> omega

theorem toNat_eq_emod (x : BitVec 32) : (x.toNat : ℤ) = x.toInt % 4294967296 := by
  have hx := x.isLt
  rw [BitVec.toInt_eq_toNat_cond]
  split <;> omega

theorem toInt_eq_of_bounds (x : BitVec 32) (z : ℤ) (hmod : x.toInt = z.bmod 4294967296)
    (hlo : -2147483648 ≤ z) (hhi : z < 2147483648) : x.toInt = z := by
  rw [hmod, Int.bmod_eq_of_le (by omega) (by omega)]

/-- Both factors signed. -/
theorem mul_signed (s t : BitVec 16) :
    (s.signExtend 32 * t.signExtend 32).toInt = s.toInt * t.toInt ∧
      -1073741824 ≤ s.toInt * t.toInt ∧ s.toInt * t.toInt ≤ 1073741824 := by
  have hlo : -(2 ^ (16 * 2 - 2)) ≤ s.toInt * t.toInt := BitVec.le_toInt_mul_toInt
  have hhi : s.toInt * t.toInt ≤ 2 ^ (16 * 2 - 2) := BitVec.toInt_mul_toInt_le
  have hmul : (s.signExtend 32 * t.signExtend 32).toInt =
      (s.toInt * t.toInt).bmod 4294967296 := by
    rw [BitVec.toInt_mul, BitVec.toInt_signExtend_of_le (by omega),
      BitVec.toInt_signExtend_of_le (by omega)]
  exact ⟨toInt_eq_of_bounds _ _ hmul (by omega) (by omega), by omega, by omega⟩

/-- Only the least word squared reaches the upper bound. -/
theorem mul_signed_lt (s t : BitVec 16) (h : ¬(s = 0x8000 ∧ t = 0x8000)) :
    s.toInt * t.toInt ≤ 1073709056 := by
  have hs := signed_cases s
  have ht := signed_cases t
  have hsabs : |s.toInt| ≤ 32768 := by rw [abs_le]; omega
  have htabs : |t.toInt| ≤ 32768 := by rw [abs_le]; omega
  have hle : s.toInt * t.toInt ≤ |s.toInt| * |t.toInt| := by
    rw [← abs_mul]
    exact le_abs_self _
  by_cases h8 : s = 0x8000
  · have ht8 : t.toNat ≠ 32768 := fun h0 => h ⟨h8, BitVec.eq_of_toNat_eq h0⟩
    have htless : |t.toInt| ≤ 32767 := by rw [abs_le]; omega
    have := mul_le_mul hsabs htless (abs_nonneg _) (by omega)
    omega
  · have hs8 : s.toNat ≠ 32768 := fun h0 => h8 (BitVec.eq_of_toNat_eq h0)
    have hsless : |s.toInt| ≤ 32767 := by rw [abs_le]; omega
    have := mul_le_mul hsless htabs (abs_nonneg _) (by omega)
    omega

/-- A product of a signed and an unsigned word: its bounds, and the product of the unsigned
    readings it comes from. -/
theorem mixed_bounds (s t : BitVec 16) :
    -2147483648 ≤ s.toInt * t.toNat ∧ s.toInt * t.toNat < 2147418112 ∧
      (0 ≤ s.toInt ∧ ((s.toNat * t.toNat : ℕ) : ℤ) = s.toInt * t.toNat ∨
        s.toInt < 0 ∧ ((s.toNat * t.toNat : ℕ) : ℤ) = s.toInt * t.toNat + 65536 * t.toNat) := by
  have ht := t.isLt
  have htlo : (0 : ℤ) ≤ t.toNat := Int.natCast_nonneg _
  have hthi : (t.toNat : ℤ) ≤ 65535 := by omega
  push_cast
  rcases signed_cases s with ⟨hs, hlt⟩ | ⟨hs, hge, hlt⟩
  · have hslo : (0 : ℤ) ≤ s.toNat := Int.natCast_nonneg _
    have hshi : (s.toNat : ℤ) ≤ 32767 := by omega
    have hprod : (s.toNat : ℤ) * t.toNat ≤ 32767 * 65535 :=
      Int.mul_le_mul hshi hthi htlo (by omega)
    have hpos : 0 ≤ (s.toNat : ℤ) * t.toNat := Int.mul_nonneg hslo htlo
    rw [hs]
    exact ⟨by omega, by omega, .inl ⟨hslo, rfl⟩⟩
  · have hneg : (s.toNat : ℤ) - 65536 ≤ 0 := by omega
    have hnlo : -32768 ≤ (s.toNat : ℤ) - 65536 := by omega
    have hup : ((s.toNat : ℤ) - 65536) * t.toNat ≤ 0 :=
      Int.mul_nonpos_of_nonpos_of_nonneg hneg htlo
    have hlow : -32768 * (t.toNat : ℤ) ≤ ((s.toNat : ℤ) - 65536) * t.toNat :=
      Int.mul_le_mul_of_nonneg_right hnlo htlo
    rw [hs]
    exact ⟨by omega, by omega, .inr ⟨by omega, by ring⟩⟩

/-- The first factor signed, the second unsigned. -/
theorem mul_mixed (s t : BitVec 16) :
    (s.signExtend 32 * t.setWidth 32).toInt = s.toInt * t.toNat := by
  obtain ⟨hlo, hhi, -⟩ := mixed_bounds s t
  have ht := t.isLt
  have hwide : (t.setWidth 32).toInt = t.toNat := by
    rw [BitVec.toInt_eq_toNat_cond, BitVec.toNat_setWidth]
    split <;> omega
  have hmul : (s.signExtend 32 * t.setWidth 32).toInt =
      (s.toInt * t.toNat).bmod 4294967296 := by
    rw [BitVec.toInt_mul, BitVec.toInt_signExtend_of_le (by omega), hwide]
  exact toInt_eq_of_bounds _ _ hmul hlo (by omega)

/-- Both factors unsigned. -/
theorem mul_unsigned (s t : BitVec 16) :
    (s.setWidth 32 * t.setWidth 32).toNat = s.toNat * t.toNat ∧
      s.toNat * t.toNat ≤ 4294836225 := by
  have hprod : s.toNat * t.toNat ≤ 65535 * 65535 :=
    Nat.mul_le_mul (by have := s.isLt; omega) (by have := t.isLt; omega)
  refine ⟨?_, by omega⟩
  rw [BitVec.toNat_mul, BitVec.toNat_setWidth, BitVec.toNat_setWidth,
    Nat.mod_eq_of_lt (a := s.toNat) (by have := s.isLt; omega),
    Nat.mod_eq_of_lt (a := t.toNat) (by have := t.isLt; omega), Nat.mod_eq_of_lt (by omega)]

/-- The low word of a product does not depend on the reading of its factors. -/
theorem mul_low (s t : BitVec 16) : ((s * t).toNat : ℤ) = (s.toNat * t.toNat : ℕ) % 65536 := by
  rw [BitVec.toNat_mul]
  omega

theorem signed_mul_low (s t : BitVec 16) :
    ((s * t).toNat : ℤ) = s.toInt * t.toInt % 65536 := by
  have hs : s.toInt ≡ s.toNat [ZMOD 65536] := by
    rcases signed_cases s with h | h <;> (unfold Int.ModEq; omega)
  have ht : t.toInt ≡ t.toNat [ZMOD 65536] := by
    rcases signed_cases t with h | h <;> (unfold Int.ModEq; omega)
  rw [mul_low, (hs.mul ht : s.toInt * t.toInt % 65536 = _)]
  push_cast
  rfl

/-- Flipping the top bit is adding it. -/
theorem xor_top (x : BitVec 16) : (x ^^^ 0x8000).toNat = (x.toNat + 32768) % 65536 := by
  have hx := x.isLt
  have hlow : (x.toNat ^^^ 32768) % 2 ^ 15 = x.toNat % 2 ^ 15 := by
    rw [Nat.xor_mod_two_pow, Nat.mod_self, Nat.xor_zero]
  have hhigh : (x.toNat ^^^ 32768) / 2 ^ 15 = x.toNat / 2 ^ 15 ^^^ 1 := Nat.xor_div_two_pow
  have hbit : x.toNat / 2 ^ 15 = 0 ∨ x.toNat / 2 ^ 15 = 1 := by omega
  rw [BitVec.toNat_xor]
  show x.toNat ^^^ 32768 = _
  rcases hbit with h | h
  · rw [h, Nat.zero_xor] at hhigh
    omega
  · rw [h, Nat.xor_self] at hhigh
    omega

/-- A value in three words determines the words. -/
theorem three_words_inj (h m l h' m' l' : BitVec 16)
    (heq : h.toNat * 4294967296 + m.toNat * 65536 + l.toNat =
      h'.toNat * 4294967296 + m'.toNat * 65536 + l'.toNat) : h = h' ∧ m = m' ∧ l = l' := by
  have hm := m.isLt
  have hl := l.isLt
  have hm' := m'.isLt
  have hl' := l'.isLt
  exact ⟨BitVec.eq_of_toNat_eq (by omega), BitVec.eq_of_toNat_eq (by omega),
    BitVec.eq_of_toNat_eq (by omega)⟩

end WordProducts
