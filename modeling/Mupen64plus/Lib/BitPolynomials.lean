import Mathlib.Algebra.Polynomial.Div
import Mathlib.Data.ZMod.Basic
import Mathlib.Tactic.Ring
import Mathlib.Tactic.LinearCombination
import Mathlib.Algebra.Field.ZMod
import Mathlib.Data.Nat.Prime.Defs

/-!
# Remainders by a shift register

Bit strings and words as polynomials over the field with two elements. A register that takes a
string in from its low end, one bit at a time, and subtracts the divisor whenever a bit falls out
of its high end, holds the remainder of what it has taken in.

## Main definitions

- `ofBits`, `ofWord` — the polynomials of a bit string and of a word
- `shiftIn`, `divisor` — one step of the register, and the polynomial it divides by

## Main result

- `ofWord_foldl_shiftIn` — the register holds the remainder
-/

namespace BitPolynomials

open Polynomial

variable {w : ℕ}

/-- The polynomial of a bit string, most significant bit first. -/
noncomputable def ofBits : List Bool → (ZMod 2)[X]
  | [] => 0
  | b :: l => C (b.toNat : ZMod 2) * X ^ l.length + ofBits l

/-- The polynomial of a word: bit `i` is the coefficient of `X ^ i`. -/
noncomputable def ofWord (v : BitVec w) : (ZMod 2)[X] :=
  ∑ i ∈ Finset.range w, monomial i ((v.getLsbD i).toNat : ZMod 2)

/-- The register after one more bit. -/
def shiftIn (taps v : BitVec w) (b : Bool) : BitVec w :=
  (v <<< 1 ||| (BitVec.ofBool b).zeroExtend w) ^^^ (if v.msb then taps else 0)

/-- The divisor of a register with these taps. -/
noncomputable def divisor (taps : BitVec w) : (ZMod 2)[X] := X ^ w + ofWord taps

-- ════════════════════════════════════════════════════════════════════════
-- Bit strings
-- ════════════════════════════════════════════════════════════════════════

-- the equations of these, generated once for the proofs below
attribute [local grind =] ofBits ofWord divisor

theorem ofBits_append (l l' : List Bool) :
    ofBits (l ++ l') = ofBits l * X ^ l'.length + ofBits l' := by
  induction l with
  | nil => simp [ofBits]
  | cons b l ih =>
    rw [List.cons_append, ofBits, ofBits, ih, List.length_append, pow_add]
    ring

theorem ofBits_concat (l : List Bool) (b : Bool) :
    ofBits (l ++ [b]) = ofBits l * X + C (b.toNat : ZMod 2) := by
  rw [ofBits_append]
  simp [ofBits]

theorem ofBits_replicate_false (n : ℕ) : ofBits (List.replicate n false) = 0 := by
  induction n with
  | zero => rfl
  | succ n ih =>
    rw [List.replicate_succ, ofBits, ih]
    simp

-- ════════════════════════════════════════════════════════════════════════
-- Words
-- ════════════════════════════════════════════════════════════════════════

theorem coeff_ofWord (v : BitVec w) (n : ℕ) :
    (ofWord v).coeff n = ((v.getLsbD n).toNat : ZMod 2) := by
  unfold ofWord
  rw [finsetSum_coeff]
  simp only [coeff_monomial, Finset.sum_ite_eq', Finset.mem_range]
  split
  · rfl
  · next hn => rw [BitVec.getLsbD_of_ge v n (by omega), Bool.toNat_false, Nat.cast_zero]

theorem degree_ofWord_lt (v : BitVec w) : (ofWord v).degree < w := by
  rw [degree_lt_iff_coeff_zero]
  intro n hn
  rw [coeff_ofWord, BitVec.getLsbD_of_ge v n hn, Bool.toNat_false, Nat.cast_zero]

theorem ofWord_zero : ofWord 0#w = 0 := by
  ext n
  rw [coeff_ofWord]
  simp

theorem toNat_xor (a b : Bool) :
    (((a ^^ b).toNat : ℕ) : ZMod 2) = (a.toNat : ZMod 2) + (b.toNat : ZMod 2) := by
  cases a <;> cases b <;> decide

/-- Exclusive or is the sum. -/
theorem ofWord_xor (u v : BitVec w) : ofWord (u ^^^ v) = ofWord u + ofWord v := by
  ext n
  rw [coeff_add, coeff_ofWord, coeff_ofWord, coeff_ofWord, BitVec.getLsbD_xor, toNat_xor]

/-- A shift to the left multiplies by `X`, less the bit that falls out. -/
theorem ofWord_shiftLeft_one (hw : 0 < w) (v : BitVec w) (b : Bool) :
    ofWord (v <<< 1 ||| (BitVec.ofBool b).zeroExtend w) + C (v.msb.toNat : ZMod 2) * X ^ w =
      ofWord v * X + C (b.toNat : ZMod 2) := by
  ext n
  rw [coeff_add, coeff_add, coeff_ofWord, coeff_C_mul, coeff_X_pow, BitVec.getLsbD_or,
    BitVec.getLsbD_shiftLeft, BitVec.getLsbD_setWidth, BitVec.getLsbD_ofBool]
  cases n with
  | zero => simp [hw, hw.ne]
  | succ n =>
    rw [coeff_mul_X, coeff_ofWord, coeff_C_succ]
    rcases lt_trichotomy (n + 1) w with hn | hn | hn
    · simp [hn, hn.ne]
    · have hmsb : v.msb = v.getLsbD n := by
        rw [BitVec.msb_eq_getLsbD_last, show w - 1 = n by omega]
      simp [hn, hmsb]
    · have hout : v.getLsbD n = false := BitVec.getLsbD_of_ge v n (by omega)
      simp [hn.ne', hout]

theorem monic_divisor (taps : BitVec w) : (divisor taps).Monic :=
  monic_X_pow_add (degree_ofWord_lt taps)

theorem degree_divisor (taps : BitVec w) : (divisor taps).degree = w := by
  unfold divisor
  rw [degree_add_eq_left_of_degree_lt, degree_X_pow]
  rw [degree_X_pow]
  exact degree_ofWord_lt taps

-- ════════════════════════════════════════════════════════════════════════
-- The register
-- ════════════════════════════════════════════════════════════════════════

/-- What one step subtracts is the divisor, if a bit falls out. -/
theorem ofWord_shiftIn (hw : 0 < w) (taps v : BitVec w) (b : Bool) :
    ofWord (shiftIn taps v b) =
      ofWord v * X + C (b.toNat : ZMod 2) - C (v.msb.toNat : ZMod 2) * divisor taps := by
  have hshift := ofWord_shiftLeft_one hw v b
  have htwo : ∀ p : (ZMod 2)[X], p + p = 0 := fun p => CharTwo.add_self_eq_zero p
  unfold shiftIn divisor
  rw [ofWord_xor, ← hshift]
  cases v.msb with
  | false => simp [ofWord_zero]
  | true =>
    simp only [Bool.toNat_true, Nat.cast_one, C_1, one_mul, if_true]
    linear_combination htwo (ofWord taps)

/-- **Step lemma**: the register stays congruent to what it has taken in. -/
theorem dvd_step (hw : 0 < w) {taps v : BitVec w} {p : (ZMod 2)[X]} (b : Bool)
    (h : divisor taps ∣ p - ofWord v) :
    divisor taps ∣ p * X + C (b.toNat : ZMod 2) - ofWord (shiftIn taps v b) := by
  obtain ⟨q, hq⟩ := h
  refine ⟨q * X + C (v.msb.toNat : ZMod 2), ?_⟩
  rw [ofWord_shiftIn hw]
  linear_combination hq * X

/-- A word congruent to a polynomial is its remainder. -/
theorem eq_modByMonic {taps v : BitVec w} {p : (ZMod 2)[X]} (h : divisor taps ∣ p - ofWord v) :
    ofWord v = p %ₘ divisor taps := by
  obtain ⟨q, hq⟩ := h
  have hdeg : (ofWord v).degree < (divisor taps).degree := by
    rw [degree_divisor]
    exact degree_ofWord_lt v
  exact (div_modByMonic_unique q (ofWord v) (monic_divisor taps)
    ⟨by linear_combination -hq, hdeg⟩).2.symm

/-- **Run lemma**: a register cleared at the start is congruent to the bits it has taken in. -/
theorem dvd_foldl_shiftIn (hw : 0 < w) (taps : BitVec w) (l : List Bool) :
    divisor taps ∣ ofBits l - ofWord (l.foldl (shiftIn taps) 0) := by
  induction l using List.reverseRecOn with
  | nil => simp [ofBits, ofWord_zero]
  | append_singleton l b ih =>
    rw [ofBits_concat, List.foldl_append]
    exact dvd_step hw b ih

theorem ofWord_foldl_shiftIn (hw : 0 < w) (taps : BitVec w) (l : List Bool) :
    ofWord (l.foldl (shiftIn taps) 0) = ofBits l %ₘ divisor taps :=
  eq_modByMonic (dvd_foldl_shiftIn hw taps l)

end BitPolynomials
