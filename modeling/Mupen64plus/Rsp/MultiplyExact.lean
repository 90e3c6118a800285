import Mupen64plus.Lib.Runs
import Mupen64plus.Rsp.MultiplyClamps

/-!
# What the multiplies compute

A multiply adds an exact product to the accumulator modulo `2^48`, or replaces it by one, and
clamps the accumulator it leaves. Both versions do the first, always; the second fails where a
clamp is blind.

## Main definitions

- `VuMultiply.product`, `VuMultiply.exact` — the exact product, and the accumulator after it
- `Multiplied` — a version did an operation as it should

## Main results

- `scalar_computed`, `sse2_computed` — the accumulators are exact and the result the code's clamp
-/

namespace Mupen64plus

open WordProducts

namespace VuMultiply

/-- The product of two words, as the operation reads and places it. -/
def product (op : VuMultiply) (s t : BitVec 16) : ℤ :=
  match op with
  | .vmulf | .vmulu => 2 * (s.toInt * t.toInt) + 0x8000
  | .vmudl | .vmadl => (s.toNat * t.toNat : ℕ) / 65536
  | .vmudm | .vmadm => s.toInt * t.toNat
  | .vmudn | .vmadn => s.toNat * t.toInt
  | .vmudh | .vmadh => s.toInt * t.toInt * 65536
  | .vmacf | .vmacu => 2 * (s.toInt * t.toInt)

/-- The operation adds to the accumulator. -/
def accumulates (op : VuMultiply) : Bool :=
  match op with
  | .vmulf | .vmulu | .vmudl | .vmudm | .vmudn | .vmudh => false
  | .vmacf | .vmacu | .vmadl | .vmadm | .vmadn | .vmadh => true

def clamp (op : VuMultiply) : Clamp :=
  match op with
  | .vmulf | .vmudm | .vmudh | .vmacf | .vmadm | .vmadh => .middle
  | .vmulu | .vmacu => .unsignedMiddle
  | .vmudl | .vmudn | .vmadl | .vmadn => .low

/-- The accumulators after the operation. -/
def exact (op : VuMultiply) (t : Lane → ℤ) (vs vt : V16) : Lane → ℤ := fun i =>
  ((if op.accumulates then t i else 0) + op.product (vs i) (vt i)) % 2 ^ 48

theorem exact_replaces {op : VuMultiply} (h : op.accumulates = false) (t : Lane → ℤ)
    (vs vt : V16) (i : Lane) : op.exact t vs vt i = op.product (vs i) (vt i) % 2 ^ 48 := by
  rw [exact, h, if_neg Bool.false_ne_true, Int.zero_add]

theorem exact_adds {op : VuMultiply} (h : op.accumulates = true) (t : Lane → ℤ)
    (vs vt : V16) (i : Lane) : op.exact t vs vt i = (t i + op.product (vs i) (vt i)) % 2 ^ 48 := by
  rw [exact, h, if_pos rfl]

end VuMultiply

-- ════════════════════
-- Words of the intrinsics and of the loops
-- ════════════════════

theorem and_low_word (x : BitVec 32) : (x &&& 0xffff).toNat = x.toNat % 65536 := by
  rw [BitVec.toNat_and]
  exact Nat.and_two_pow_sub_one_eq_mod x.toNat 16

theorem and_high_word (x : BitVec 32) :
    (((x &&& 0xffff0000) >>> 16).setWidth 16).toNat = x.toNat / 65536 := by
  have hmask : (0xffff0000 : BitVec 32) >>> 16 = 0xffff := by decide
  have hx := x.isLt
  rw [BitVec.ushiftRight_and_distrib, hmask, BitVec.toNat_setWidth, and_low_word,
    BitVec.toNat_ushiftRight, Nat.shiftRight_eq_div_pow]
  omega

/-- The upper part of a signed 32-bit value. -/
theorem sshiftRight_word (x : BitVec 32) (n : ℕ) :
    (((x.sshiftRight n).setWidth 16).toNat : ℤ) = x.toInt / 2 ^ n % 65536 := by
  have hshift : (x.sshiftRight n).toInt = x.toInt / 2 ^ n := by
    rw [BitVec.toInt_sshiftRight, Int.shiftRight_eq_div_pow]
    rfl
  have hnat := toNat_eq_emod (x.sshiftRight n)
  rw [hshift] at hnat
  rw [BitVec.toNat_setWidth]
  omega

-- ════════════════════
-- Fractions
-- ════════════════════

/-- Adding word by word, each carry into the next word, adds the numbers. -/
theorem add_words (h m l s y x : ℤ) :
    (h + s + (m + ((l + x) / 65536 + y)) / 65536) % 65536 * 4294967296 +
        (m + ((l + x) / 65536 + y)) % 65536 * 65536 + (l + x) % 65536 =
      (h * 4294967296 + m * 65536 + l + (s * 4294967296 + y * 65536 + x)) % 2 ^ 48 := by
  generalize hA : l + x = A
  generalize hB : m + (A / 65536 + y) = B
  have hsum : h * 4294967296 + m * 65536 + l + (s * 4294967296 + y * 65536 + x) =
      (h + s + B / 65536) * 4294967296 + B % 65536 * 65536 + A % 65536 := by
    omega
  rw [hsum]
  generalize h + s + B / 65536 = C
  clear hsum hB hA
  omega

/-- The words of twice a product. -/
theorem double_words {z : ℤ} (hlo : -1073741824 ≤ z) (hhi : z ≤ 1073741824) :
    (if z < 0 then -1 else 0) * 4294967296 + z / 32768 % 65536 * 65536 + 2 * z % 65536 =
      2 * z := by
  split <;> omega

theorem doMac_value (a : VAcc) (vs vt : V16) (i : Lane) : accValue (doMac a vs vt) i =
    (accValue a i + 2 * ((vs i).toInt * (vt i).toInt)) % 2 ^ 48 := by
  obtain ⟨hp, hlo, hhi⟩ := mul_signed (vs i) (vt i)
  have hnat := toNat_eq_emod ((vs i).signExtend 32 * (vt i).signExtend 32)
  have hshift := sshiftRight_word ((vs i).signExtend 32 * (vt i).signExtend 32) 15
  simp only [accValue, doMac]
  rw [hp] at hnat hshift
  rw [hp]
  rw [← double_words hlo hhi, ← add_words]
  generalize (vs i).signExtend 32 * (vt i).signExtend 32 = p at hnat hshift ⊢
  generalize (p.sshiftRight 15).setWidth 16 = q at hshift ⊢
  generalize (vs i).toInt * (vt i).toInt = z at *
  replace hshift : (q.toNat : ℤ) = z / 32768 % 65536 := hshift
  have hl : (((a.l i).setWidth 32 + (p <<< 1 &&& 0xffff)).toNat : ℤ) =
      (a.l i).toNat + 2 * z % 65536 := by
    have := (a.l i).isLt
    rw [BitVec.toNat_add, and_low_word, BitVec.toNat_setWidth, BitVec.toNat_shiftLeft,
      Nat.shiftLeft_eq]
    omega
  generalize (a.l i).setWidth 32 + (p <<< 1 &&& 0xffff) = low at hl ⊢
  have hm : (((a.m i).setWidth 32 + (low >>> 16 + q.setWidth 32)).toNat : ℤ) =
      (a.m i).toNat + ((low.toNat : ℤ) / 65536 + q.toNat) := by
    have := (a.m i).isLt
    have := q.isLt
    have := low.isLt
    rw [BitVec.toNat_add, BitVec.toNat_add, BitVec.toNat_setWidth, BitVec.toNat_setWidth,
      BitVec.toNat_ushiftRight, Nat.shiftRight_eq_div_pow]
    omega
  generalize (a.m i).setWidth 32 + (low >>> 16 + q.setWidth 32) = mid at hm ⊢
  have hh : ((a.h i - flag16 (z < 0) + (mid >>> 16).setWidth 16).toNat : ℤ) =
      ((a.h i).toNat + (if z < 0 then -1 else 0) + (mid.toNat : ℤ) / 65536) % 65536 := by
    have := (a.h i).isLt
    rw [BitVec.toNat_add, BitVec.toNat_sub, BitVec.toNat_setWidth, BitVec.toNat_ushiftRight,
      Nat.shiftRight_eq_div_pow, toNat_flag16]
    split <;> omega
  rw [hh, BitVec.toNat_setWidth, BitVec.toNat_setWidth, ← hl, ← hshift, ← hm]
  rfl

/-- The rounded product before it is cut into words. -/
theorem rounded_product (s t : BitVec 16) :
    ((s.signExtend 32 * t.signExtend 32).signExtend 64 <<< 1 + 32768).toInt =
      2 * (s.toInt * t.toInt) + 32768 := by
  obtain ⟨hp, hlo, hhi⟩ := mul_signed s t
  have hwide : ((s.signExtend 32 * t.signExtend 32).signExtend 64).toInt = s.toInt * t.toInt := by
    rw [BitVec.toInt_signExtend_of_le (by omega), hp]
  generalize (s.signExtend 32 * t.signExtend 32).signExtend 64 = x at hwide
  have hx := x.isLt
  rw [BitVec.toInt_eq_toNat_cond] at hwide ⊢
  simp only [BitVec.ofNat_eq_ofNat, BitVec.toNat_add, BitVec.toNat_shiftLeft, Nat.shiftLeft_eq,
    BitVec.toNat_ofNat]
  split at hwide <;> split <;> omega

theorem and_low_word64 (x : BitVec 64) : (x &&& 0xffff).toNat = x.toNat % 65536 := by
  rw [BitVec.toNat_and]
  exact Nat.and_two_pow_sub_one_eq_mod x.toNat 16

/-- A number of 33 bits cut into the words of the accumulator. -/
theorem cut_words (x : BitVec 64) (hlo : -2147483648 ≤ x.toInt) (hhi : x.toInt ≤ 2147516416) :
    ((-flag16 (x.toInt < 0)).toNat : ℤ) * 4294967296 +
        (((x &&& 0xffff0000) >>> 16).setWidth 16).toNat * 65536 +
        ((x &&& 0xffff).setWidth 16).toNat = x.toInt % 2 ^ 48 := by
  have hx := x.isLt
  have hmask : (0xffff0000 : BitVec 64) >>> 16 = 0xffff := by decide
  rw [BitVec.ushiftRight_and_distrib, hmask]
  simp only [BitVec.toNat_setWidth, and_low_word64, BitVec.toNat_ushiftRight,
    Nat.shiftRight_eq_div_pow, BitVec.toNat_neg, toNat_flag16]
  have hcases := BitVec.toInt_eq_toNat_cond x
  split at hcases <;> split <;> omega

theorem mulRounded_value (vs vt : V16) (i : Lane) : accValue (mulRounded vs vt) i =
    (2 * ((vs i).toInt * (vt i).toInt) + 32768) % 2 ^ 48 := by
  obtain ⟨-, hlo, hhi⟩ := mul_signed (vs i) (vt i)
  have hround := rounded_product (vs i) (vt i)
  rw [← hround, ← cut_words _ (by omega) (by omega)]
  rfl

/-- The upper half of the signed product. -/
theorem mulhi_word (s t : BitVec 16) :
    ((((s.signExtend 32 * t.signExtend 32) >>> 16).setWidth 16).toNat : ℤ) =
      s.toInt * t.toInt / 65536 % 65536 := by
  obtain ⟨hp, hlo, hhi⟩ := mul_signed s t
  have hnat := toNat_eq_emod (s.signExtend 32 * t.signExtend 32)
  rw [hp] at hnat
  rw [BitVec.toNat_setWidth, BitVec.toNat_ushiftRight, Nat.shiftRight_eq_div_pow]
  omega

/-- The upper half of the unsigned product. -/
theorem mulhiu_word (s t : BitVec 16) :
    (((s.setWidth 32 * t.setWidth 32) >>> 16).setWidth 16).toNat = s.toNat * t.toNat / 65536 := by
  obtain ⟨hp, hle⟩ := mul_unsigned s t
  rw [BitVec.toNat_setWidth, BitVec.toNat_ushiftRight, Nat.shiftRight_eq_div_pow, hp]
  omega

/-- The sign of a word, over all its bits. -/
theorem sign_word (x : BitVec 16) : x.sshiftRight 15 = if x.toNat < 32768 then 0 else 0xffff := by
  have hx := signed_cases x
  refine BitVec.eq_of_toInt_eq ?_
  rw [BitVec.toInt_sshiftRight, Int.shiftRight_eq_div_pow]
  split
  · show x.toInt / 32768 = 0
    omega
  · show x.toInt / 32768 = -1
    omega

/-- The middle and the low word of the SSE2 `VMULF` and `VMULU`. -/
def roundedMid (s t : BitVec 16) : BitVec 16 :=
  ((s.signExtend 32 * t.signExtend 32) >>> 16).setWidth 16 +
    ((s.signExtend 32 * t.signExtend 32) >>> 16).setWidth 16 + (s * t) >>> 15 +
    (s * t + s * t) >>> 15

def roundedLow (s t : BitVec 16) : BitVec 16 := s * t + s * t ^^^ 0x8000

/-- The lanes where both factors are the least word. -/
def leastMask (s t : BitVec 16) : BitVec 16 :=
  (if s = 0x8000 then 0xffff else 0) &&& (if t = 0x8000 then 0xffff else 0)

theorem leastMask_eq (s t : BitVec 16) :
    leastMask s t = if s = 0x8000 ∧ t = 0x8000 then 0xffff else 0 := by
  unfold leastMask
  by_cases hs : s = 0x8000
  · by_cases ht : t = 0x8000
    · rw [if_pos hs, if_pos ht, if_pos ⟨hs, ht⟩]
      rfl
    · rw [if_pos hs, if_neg ht, if_neg (c := s = 0x8000 ∧ t = 0x8000) fun h => ht h.2]
      rfl
  · rw [if_neg hs, if_neg (c := s = 0x8000 ∧ t = 0x8000) fun h => hs h.1]
    exact BitVec.zero_and

theorem roundedMid_toNat (s t : BitVec 16) :
    ((roundedMid s t).toNat : ℤ) = (2 * (s.toInt * t.toInt) + 32768) / 65536 % 65536 := by
  obtain ⟨-, hlo, hhi⟩ := mul_signed s t
  have hlow := signed_mul_low s t
  have hhigh := mulhi_word s t
  unfold roundedMid
  generalize ((s.signExtend 32 * t.signExtend 32) >>> 16).setWidth 16 = hi at hhigh ⊢
  generalize s * t = lo at hlow ⊢
  generalize s.toInt * t.toInt = z at *
  simp only [BitVec.toNat_add, BitVec.toNat_ushiftRight, Nat.shiftRight_eq_div_pow]
  omega

theorem roundedLow_toNat (s t : BitVec 16) :
    ((roundedLow s t).toNat : ℤ) = (2 * (s.toInt * t.toInt) + 32768) % 65536 := by
  have hlow := signed_mul_low s t
  unfold roundedLow
  rw [xor_top, BitVec.toNat_add]
  omega

/-- The upper word is the sign of the product, which the middle word shows except where both
    factors are the least word. -/
theorem rounded_high (s t : BitVec 16) :
    (((roundedMid s t).sshiftRight 15 ^^^ leastMask s t).toNat : ℤ) =
      (2 * (s.toInt * t.toInt) + 32768) / 4294967296 % 65536 := by
  obtain ⟨-, hlo, hhi⟩ := mul_signed s t
  have hmid := roundedMid_toNat s t
  rw [sign_word, leastMask_eq]
  by_cases hleast : s = 0x8000 ∧ t = 0x8000
  · obtain ⟨rfl, rfl⟩ := hleast
    decide
  · have hlt := mul_signed_lt s t hleast
    rw [if_neg hleast]
    split
    · show 0 = _
      omega
    · show 65535 = _
      omega

theorem rounded_value (s t : BitVec 16) :
    (((roundedMid s t).sshiftRight 15 ^^^ leastMask s t).toNat : ℤ) * 4294967296 +
        (roundedMid s t).toNat * 65536 + (roundedLow s t).toNat =
      (2 * (s.toInt * t.toInt) + 32768) % 2 ^ 48 := by
  rw [rounded_high, roundedMid_toNat, roundedLow_toNat]
  omega

/-- `round` of the SSE2 `VMULF` and `VMULU`. -/
theorem mmRound (vs : V16) : mmSlliEpi16 (mmCmpeqEpi16 vs vs) 15 = fun _ => 0x8000 := by
  funext i
  simp only [mmSlliEpi16, mmCmpeqEpi16, if_true]
  decide

theorem vmulfSse2_value (vs vt : V16) (i : Lane) : accValue (vmulfSse2 vs vt).1 i =
    (2 * ((vs i).toInt * (vt i).toInt) + 32768) % 2 ^ 48 := by
  rw [← rounded_value]
  simp only [vmulfSse2, mmRound]
  rfl

theorem vmuluSse2_value (vs vt : V16) (i : Lane) : accValue (vmuluSse2 vs vt).1 i =
    (2 * ((vs i).toInt * (vt i).toInt) + 32768) % 2 ^ 48 := by
  rw [← rounded_value]
  simp only [vmuluSse2, mmRound]
  rfl

/-- Bits 47..16 after a rounded product: the middle word's own value, except where both factors
    are the least word. -/
theorem rounded_mid (s t : BitVec 16) :
    bits4716 ((2 * (s.toInt * t.toInt) + 32768) % 2 ^ 48) =
      if s = 0x8000 ∧ t = 0x8000 then 32768 else (roundedMid s t).toInt := by
  obtain ⟨-, hlo, hhi⟩ := mul_signed s t
  have hmid := roundedMid_toNat s t
  have hsigned := signed_cases (roundedMid s t)
  by_cases hleast : s = 0x8000 ∧ t = 0x8000
  · obtain ⟨rfl, rfl⟩ := hleast
    decide
  · have hlt := mul_signed_lt s t hleast
    rw [if_neg hleast, bits4716, Int.bmod_def]
    split <;> omega

/-- The result of the SSE2 `VMULF`. -/
theorem vmulfSse2_result (vs vt : V16) :
    (vmulfSse2 vs vt).2 = Clamp.middle.code signedClampAmScalar (vmulfSse2 vs vt).1 := by
  funext i
  have hres : (vmulfSse2 vs vt).2 i = leastMask (vs i) (vt i) + roundedMid (vs i) (vt i) := by
    simp only [vmulfSse2, mmRound]
    rfl
  have hm : (vmulfSse2 vs vt).1.m i = roundedMid (vs i) (vt i) := rfl
  have hmid := rounded_mid (vs i) (vt i)
  have hsigned := signed_cases (roundedMid (vs i) (vt i))
  rw [hres, Clamp.code, signedClampAm_words, vmulfSse2_value, hmid, hm, leastMask_eq]
  by_cases hleast : vs i = 0x8000 ∧ vt i = 0x8000
  · rw [if_pos hleast, if_pos hleast, hleast.1, hleast.2]
    decide
  · rw [if_neg hleast, if_neg hleast, if_neg (by omega), if_neg (by omega)]
    exact BitVec.zero_add _

/-- The result of the SSE2 `VMULU`. -/
theorem vmuluSse2_result (vs vt : V16) :
    (vmuluSse2 vs vt).2 = Clamp.unsignedMiddle.code signedClampAmScalar (vmuluSse2 vs vt).1 := by
  funext i
  have hres : (vmuluSse2 vs vt).2 i =
      ~~~((roundedMid (vs i) (vt i)).sshiftRight 15 ^^^ leastMask (vs i) (vt i)) &&&
        (roundedMid (vs i) (vt i) ||| (roundedMid (vs i) (vt i)).sshiftRight 15) := by
    simp only [vmuluSse2, mmRound]
    rfl
  have hm : (vmuluSse2 vs vt).1.m i = roundedMid (vs i) (vt i) := rfl
  have hmid := rounded_mid (vs i) (vt i)
  have hsigned := signed_cases (roundedMid (vs i) (vt i))
  have hclamp := (Clamp.code_iff .unsignedMiddle (vmuluSse2 vs vt).1 i).mpr
  rw [Clamp.Blind, Clamp.value, accValue_m, vmuluSse2_value, hmid, hm] at hclamp
  by_cases hleast : vs i = 0x8000 ∧ vt i = 0x8000
  · rw [hres, hclamp, if_pos hleast, hleast.1, hleast.2]
    · decide
    · rw [hleast.1, hleast.2]
      decide
  · rw [if_neg hleast] at hclamp
    rw [hres, hclamp fun h => by omega, leastMask_eq, if_neg hleast, sign_word]
    by_cases hneg : (roundedMid (vs i) (vt i)).toNat < 32768
    · have hones : ~~~(0#16 ^^^ 0#16) = BitVec.allOnes 16 := by decide
      rw [if_pos hneg, if_neg (by omega), if_neg (by omega), BitVec.ofNat_eq_ofNat, hones,
        BitVec.or_zero, BitVec.allOnes_and]
    · have hzero : ~~~(0xffff#16 ^^^ 0#16) = 0#16 := by decide
      rw [if_neg hneg, if_pos (by omega), BitVec.ofNat_eq_ofNat, BitVec.ofNat_eq_ofNat, hzero,
        BitVec.zero_and]

-- ════════════════════
-- Products
-- ════════════════════

/-- A signed product of 32 bits, cut into words and its sign. -/
theorem signed_words (p : BitVec 32) (l m : BitVec 16) (hl : (l.toNat : ℤ) = p.toInt % 65536)
    (hm : (m.toNat : ℤ) = p.toInt / 65536 % 65536) :
    (((-flag16 (m.toInt < 0)).toNat : ℤ) * 4294967296 + m.toNat * 65536 + l.toNat =
      p.toInt % 2 ^ 48) ∧ ((m.sshiftRight 15).toNat : ℤ) * 4294967296 + m.toNat * 65536 + l.toNat =
      p.toInt % 2 ^ 48 := by
  have hlo : -2 ^ 31 ≤ p.toInt := BitVec.le_toInt p
  have hhi : p.toInt < 2 ^ 31 := BitVec.toInt_lt
  have hsigned := signed_cases m
  constructor
  · rw [BitVec.toNat_neg, toNat_flag16]
    split <;> omega
  · rw [sign_word]
    split
    · show (0 : ℤ) * _ + _ + _ = _
      omega
    · show (65535 : ℤ) * _ + _ + _ = _
      omega

theorem vmudlScalar_value (vs vt : V16) (i : Lane) : accValue (vmudlScalar vs vt).1 i =
    (((vs i).toNat * (vt i).toNat : ℕ) / 65536 : ℤ) % 2 ^ 48 := by
  have hword := mulhiu_word (vs i) (vt i)
  obtain ⟨-, hle⟩ := mul_unsigned (vs i) (vt i)
  simp only [accValue, vmudlScalar]
  rw [hword]
  show (0 : ℤ) * _ + 0 * _ + _ = _
  omega

theorem vmudlSse2_eq (vs vt : V16) : vmudlSse2 vs vt = vmudlScalar vs vt := by
  have hzero : mmCmpgtEpi16 vt vt = fun _ => 0 := by
    funext i
    have hirrefl : (vt i).slt (vt i) = false := by simp [BitVec.slt]
    rw [mmCmpgtEpi16, hirrefl]
    rfl
  simp only [vmudlSse2, hzero]
  rfl

/-- The words of a product of a signed and an unsigned factor, in 32 bits. -/
theorem mixed_words (p : BitVec 32) :
    (((p &&& 0xffff).setWidth 16).toNat : ℤ) = p.toInt % 65536 ∧
      ((((p &&& 0xffff0000) >>> 16).setWidth 16).toNat : ℤ) = p.toInt / 65536 % 65536 := by
  have hnat := toNat_eq_emod p
  rw [and_high_word, BitVec.toNat_setWidth, and_low_word]
  omega

/-- The same words by the intrinsics: the unsigned product, less the unsigned factor where the
    signed one is negative. -/
theorem mixed_words_sse2 (s t : BitVec 16) :
    ((s * t).toNat : ℤ) = (s.signExtend 32 * t.setWidth 32).toInt % 65536 ∧
      ((((s.setWidth 32 * t.setWidth 32) >>> 16).setWidth 16 - (t &&& s.sshiftRight 15)).toNat : ℤ)
        = (s.signExtend 32 * t.setWidth 32).toInt / 65536 % 65536 := by
  obtain ⟨hlo, hhi, hcases⟩ := mixed_bounds s t
  have hlow := mul_low s t
  have hs := signed_cases s
  have ht := t.isLt
  rw [mul_mixed, BitVec.toNat_sub, mulhiu_word, sign_word]
  generalize s.toNat * t.toNat = u at *
  generalize s.toInt * t.toNat = z at *
  split
  · have hkeep : (t &&& 0).toNat = 0 := by rw [BitVec.toNat_and]; exact Nat.and_zero _
    rw [hkeep]
    omega
  · have hkeep : (t &&& 0xffff).toNat = t.toNat := by
      rw [BitVec.toNat_and]
      show t.toNat &&& 2 ^ 16 - 1 = _
      rw [Nat.and_two_pow_sub_one_eq_mod]
      omega
    rw [hkeep]
    omega

theorem vmudmScalar_value (vs vt : V16) (i : Lane) : accValue (vmudmScalar vs vt).1 i =
    (vs i).toInt * (vt i).toNat % 2 ^ 48 := by
  obtain ⟨hl, hm⟩ := mixed_words ((vs i).signExtend 32 * (vt i).setWidth 32)
  rw [← mul_mixed]
  exact (signed_words _ _ _ hl hm).1

theorem vmudmSse2_value (vs vt : V16) (i : Lane) : accValue (vmudmSse2 vs vt).1 i =
    (vs i).toInt * (vt i).toNat % 2 ^ 48 := by
  obtain ⟨hl, hm⟩ := mixed_words_sse2 (vs i) (vt i)
  rw [← mul_mixed]
  exact (signed_words _ _ _ hl hm).2

theorem vmudnScalar_value (vs vt : V16) (i : Lane) : accValue (vmudnScalar vs vt).1 i =
    (vs i).toNat * (vt i).toInt % 2 ^ 48 := by
  obtain ⟨hl, hm⟩ := mixed_words ((vs i).setWidth 32 * (vt i).signExtend 32)
  rw [mul_comm, ← mul_mixed, BitVec.mul_comm]
  exact (signed_words _ _ _ hl hm).1

theorem vmudnSse2_value (vs vt : V16) (i : Lane) : accValue (vmudnSse2 vs vt).1 i =
    (vs i).toNat * (vt i).toInt % 2 ^ 48 := by
  obtain ⟨hl, hm⟩ := mixed_words_sse2 (vt i) (vs i)
  rw [mul_comm, ← mul_mixed]
  rw [BitVec.mul_comm] at hl
  rw [BitVec.mul_comm ((vt i).setWidth 32)] at hm
  exact (signed_words _ _ _ hl hm).2

theorem vmudhScalar_value (vs vt : V16) (i : Lane) : accValue (vmudhScalar vs vt).1 i =
    (vs i).toInt * (vt i).toInt * 65536 % 2 ^ 48 := by
  obtain ⟨hp, hlo, hhi⟩ := mul_signed (vs i) (vt i)
  have hnat := toNat_eq_emod ((vs i).signExtend 32 * (vt i).signExtend 32)
  have hhigh := sshiftRight_word ((vs i).signExtend 32 * (vt i).signExtend 32) 16
  simp only [accValue, vmudhScalar]
  rw [hhigh, BitVec.toNat_setWidth, hp]
  show _ + _ + (0 : ℤ) = _
  omega

theorem vmudhSse2_value (vs vt : V16) (i : Lane) : accValue (vmudhSse2 vs vt).1 i =
    (vs i).toInt * (vt i).toInt * 65536 % 2 ^ 48 := by
  have hlow := signed_mul_low (vs i) (vt i)
  have hhigh := mulhi_word (vs i) (vt i)
  simp only [accValue, vmudhSse2, mmMulhiEpi16, mmMulloEpi16, mmSetzeroSi128]
  rw [hhigh, hlow]
  show _ + _ + (0 : ℤ) = _
  omega

/-- A product of 32 bits is in bounds, and its middle and low word are its clamps. -/
theorem code_small (a : VAcc) (i : Lane) (z : ℤ) (hlo : -2147483648 ≤ z) (hhi : z < 2147483648)
    (ha : accValue a i = z % 2 ^ 48) : Clamp.middle.code signedClampAmScalar a i = a.m i ∧
      Clamp.low.code signedClampAmScalar a i = a.l i := by
  have hmid : bits4716 (accValue a i) = z / 65536 := by
    rw [ha, bits4716, Int.bmod_def]
    split <;> omega
  have hkeep : signedClampAmScalar a i = a.m i := by
    rw [signedClampAm_words, hmid, if_neg (by omega), if_neg (by omega)]
  refine ⟨hkeep, ?_⟩
  simp only [Clamp.code, signedClampAl]
  rw [hkeep, if_neg (not_not.mpr rfl)]

-- ════════════════════
-- Accumulated products
-- ════════════════════

/-- The unsigned comparison made of a saturating subtraction. -/
theorem cmplt_word (d s : BitVec 16) :
    ((~~~if s = d then (0xffff : BitVec 16) else 0) &&&
      if (if d < s then 0 else d - s) = 0 then 0xffff else 0) =
        if d.toNat < s.toNat then 0xffff else 0 := by
  by_cases heq : s = d
  · subst heq
    rw [if_pos rfl, if_neg (c := s.toNat < s.toNat) (Nat.lt_irrefl _)]
    exact BitVec.zero_and
  · have hne : s.toNat ≠ d.toNat := fun h => heq (BitVec.eq_of_toNat_eq h)
    rw [if_neg heq]
    by_cases hlt : d < s
    · rw [if_pos hlt, if_pos rfl, if_pos (BitVec.lt_def.mp hlt)]
      decide
    · have hge : ¬d.toNat < s.toNat := fun h => hlt (BitVec.lt_def.mpr h)
      have hsub : d - s ≠ 0 := fun h => by
        have h0 := congrArg BitVec.toNat h
        have hd := d.isLt
        rw [BitVec.toNat_sub] at h0
        simp only [BitVec.ofNat_eq_ofNat, BitVec.toNat_ofNat, Nat.zero_mod] at h0
        omega
      rw [if_neg hlt, if_neg hsub, if_neg hge]
      decide

theorem mmCmpltEpu16_apply (dst src : V16) (i : Lane) :
    mmCmpltEpu16 dst src i = if (dst i).toNat < (src i).toNat then 0xffff else 0 :=
  cmplt_word (dst i) (src i)

/-- Subtracting a comparison adds the carry it found. -/
theorem sub_mask (x : BitVec 16) (p : Prop) [Decidable p] :
    (x - if p then 0xffff else 0).toNat = (x.toNat + if p then 1 else 0) % 65536 := by
  have hx := x.isLt
  rw [BitVec.toNat_sub]
  split
  · show (2 ^ 16 - 65535 + x.toNat) % 2 ^ 16 = _
    omega
  · show (2 ^ 16 - 0 + x.toNat) % 2 ^ 16 = _
    omega

theorem vmadlScalar_value (a : VAcc) (vs vt : V16) (i : Lane) :
    accValue (vmadlScalar a vs vt).1 i =
      (accValue a i + ((vs i).toNat * (vt i).toNat : ℕ) / 65536) % 2 ^ 48 := by
  have hword := mulhiu_word (vs i) (vt i)
  obtain ⟨-, hle⟩ := mul_unsigned (vs i) (vt i)
  have hh := (a.h i).isLt
  have hm := (a.m i).isLt
  have hl := (a.l i).isLt
  simp only [accValue, vmadlScalar]
  generalize (((vs i).setWidth 32 * (vt i).setWidth 32) >>> 16).setWidth 16 = q at hword ⊢
  generalize (vs i).toNat * (vt i).toNat = u at *
  have hlow : ∀ x : BitVec 32, (x &&& 0x0000ffff).toNat = x.toNat % 65536 := and_low_word
  simp only [BitVec.toNat_add, BitVec.toNat_setWidth, BitVec.toNat_ushiftRight, hlow,
    Nat.shiftRight_eq_div_pow]
  omega

/-- The carries of the SSE2 `VMADL`. -/
theorem carry_words (h m l q : BitVec 16) :
    let overflow : BitVec 16 := if (l + q).toNat < q.toNat then 0xffff else 0
    let md := m - overflow
    ((h - (overflow &&& if md = 0 then 0xffff else 0)).toNat : ℤ) * 4294967296 +
        md.toNat * 65536 + (l + q).toNat =
      (h.toNat * 4294967296 + m.toNat * 65536 + l.toNat + q.toNat) % 2 ^ 48 := by
  intro overflow md
  have hh := h.isLt
  have hm := m.isLt
  have hl := l.isLt
  have hq := q.isLt
  have hsum := BitVec.toNat_add l q
  have hmd : md.toNat = (m.toNat + if (l + q).toNat < q.toNat then 1 else 0) % 65536 :=
    sub_mask m _
  by_cases hcarry : (l + q).toNat < q.toNat
  · have hover : overflow = 0xffff := if_pos hcarry
    have hand : ∀ x : BitVec 16, 0xffff &&& x = x := fun x => BitVec.allOnes_and
    rw [if_pos hcarry] at hmd
    rw [hover, hand, sub_mask]
    by_cases hzero : md = 0
    · have hz : md.toNat = 0 := by rw [hzero]; rfl
      rw [if_pos hzero]
      omega
    · have hz : md.toNat ≠ 0 := fun h0 => hzero (BitVec.eq_of_toNat_eq h0)
      rw [if_neg hzero]
      omega
  · have hover : overflow = 0#16 := if_neg hcarry
    rw [if_neg hcarry] at hmd
    rw [hover, BitVec.zero_and, BitVec.sub_zero]
    omega

theorem vmadlSse2_value (a : VAcc) (vs vt : V16) (i : Lane) :
    accValue (vmadlSse2 a vs vt).1 i =
      (accValue a i + ((vs i).toNat * (vt i).toNat : ℕ) / 65536) % 2 ^ 48 := by
  have hword := mulhiu_word (vs i) (vt i)
  have hcast : (((vs i).toNat * (vt i).toNat : ℕ) / 65536 : ℤ) =
      ((vs i).toNat * (vt i).toNat / 65536 : ℕ) := rfl
  rw [hcast, ← hword]
  simp only [accValue, vmadlSse2, mmSubEpi16, mmAndSi128, mmCmpeqEpi16, mmCmpltEpu16_apply,
    mmSetzeroSi128, mmAddEpi16]
  exact carry_words (a.h i) (a.m i) (a.l i) (mmMulhiEpu16 vs vt i)

theorem accumulateScalar_value (a : VAcc) (product : Lane → BitVec 32) (i : Lane) :
    accValue (accumulateScalar a product) i = (accValue a i + (product i).toInt) % 2 ^ 48 := by
  have hnat := toNat_eq_emod (product i)
  have hshift : ((product i).sshiftRight 16).toInt = (product i).toInt / 65536 := by
    rw [BitVec.toInt_sshiftRight, Int.shiftRight_eq_div_pow]
    rfl
  have hhigh := toNat_eq_emod ((product i).sshiftRight 16)
  rw [hshift] at hhigh
  have hh := (a.h i).isLt
  have hm := (a.m i).isLt
  have hl := (a.l i).isLt
  simp only [accValue, accumulateScalar]
  generalize (product i).sshiftRight 16 = q at hhigh ⊢
  generalize product i = p at *
  have hlow : ∀ x : BitVec 32, (x &&& 0x0000ffff).toNat = x.toNat % 65536 := and_low_word
  simp only [BitVec.toNat_add, BitVec.toNat_setWidth, BitVec.toNat_ushiftRight, hlow,
    Nat.shiftRight_eq_div_pow]
  omega

/-- The carries of the SSE2 `VMADM` and `VMADN`, with `x` the upper word of the product and the
    carry into it. -/
theorem accumulate_words (h m l lo x : BitVec 16) (z : ℤ) (hlo : -2147483648 ≤ z)
    (hhi : z < 2147418112) (hlow : (lo.toNat : ℤ) = z % 65536)
    (hx : (x.toNat : ℤ) = (z / 65536 + if (l + lo).toNat < lo.toNat then 1 else 0) % 65536) :
    ((h + x.sshiftRight 15 - if (m + x).toNat < x.toNat then 0xffff else 0).toNat : ℤ) *
          4294967296 + (m + x).toNat * 65536 + (l + lo).toNat =
      (h.toNat * 4294967296 + m.toNat * 65536 + l.toNat + z) % 2 ^ 48 := by
  have hh := h.isLt
  have hm := m.isLt
  have hl := l.isLt
  have hsum := BitVec.toNat_add l lo
  have hmid := BitVec.toNat_add m x
  rw [sub_mask, BitVec.toNat_add, sign_word]
  have hsign : ((if x.toNat < 32768 then 0 else 0xffff : BitVec 16).toNat : ℤ) =
      if x.toNat < 32768 then 0 else 65535 := by
    split <;> rfl
  generalize (if x.toNat < 32768 then 0 else 0xffff : BitVec 16).toNat = sign at hsign ⊢
  obtain ⟨q, hq⟩ : ∃ q : ℤ, z = 65536 * q + lo.toNat := ⟨z / 65536, by omega⟩
  have hdiv : z / 65536 = q := by omega
  rw [hdiv] at hx
  have hlt := x.isLt
  -- The sign word is what the carry into the upper word leaves of the product's sign.
  have hext : (x.toNat : ℤ) + 65536 * sign =
      q + (if (l + lo).toNat < lo.toNat then 1 else 0) +
        4294967296 * (if x.toNat < 32768 then 0 else 1) := by
    split at hx <;> split at hsign <;> omega
  have hcarry : (l.toNat : ℤ) + lo.toNat =
      (l + lo).toNat + 65536 * if (l + lo).toNat < lo.toNat then 1 else 0 := by
    split <;> omega
  have hcarry' : (m.toNat : ℤ) + x.toNat =
      (m + x).toNat + 65536 * if (m + x).toNat < x.toNat then 1 else 0 := by
    split <;> omega
  push_cast
  generalize (if (l + lo).toNat < lo.toNat then (1 : ℤ) else 0) = c at *
  generalize (if (m + x).toNat < x.toNat then (1 : ℤ) else 0) = d at *
  generalize (if x.toNat < 32768 then (0 : ℤ) else 1) = e at *
  omega

/-- The SSE2 accumulation takes the product as two words. Its upper word has room for the carry. -/
theorem accumulateSse2_value (a : VAcc) (prodHi prodLo : V16) (i : Lane) (z : ℤ)
    (hlo : -2147483648 ≤ z) (hhi : z < 2147418112) (hl : ((prodLo i).toNat : ℤ) = z % 65536)
    (hm : ((prodHi i).toNat : ℤ) = z / 65536 % 65536) :
    accValue (accumulateSse2 a prodHi prodLo) i = (accValue a i + z) % 2 ^ 48 := by
  have hmask := sub_mask (prodHi i) ((a.l i + prodLo i).toNat < (prodLo i).toNat)
  have hx : ((prodHi i - if (a.l i + prodLo i).toNat < (prodLo i).toNat then 0xffff else 0).toNat :
      ℤ) = (z / 65536 + if (a.l i + prodLo i).toNat < (prodLo i).toNat then 1 else 0) % 65536 := by
    rw [hmask]
    split <;> omega
  simp only [accValue, accumulateSse2, mmSubEpi16, mmSraiEpi16, mmCmpltEpu16_apply, mmAddEpi16]
  exact accumulate_words (a.h i) (a.m i) (a.l i) (prodLo i) _ z hlo hhi hl hx

theorem vmadmScalar_value (a : VAcc) (vs vt : V16) (i : Lane) :
    accValue (vmadmScalar a vs vt).1 i =
      (accValue a i + (vs i).toInt * (vt i).toNat) % 2 ^ 48 := by
  rw [← mul_mixed]
  exact accumulateScalar_value a _ i

theorem vmadmSse2_value (a : VAcc) (vs vt : V16) (i : Lane) :
    accValue (vmadmSse2 a vs vt).1 i =
      (accValue a i + (vs i).toInt * (vt i).toNat) % 2 ^ 48 := by
  obtain ⟨hlo, hhi, -⟩ := mixed_bounds (vs i) (vt i)
  obtain ⟨hl, hm⟩ := mixed_words_sse2 (vs i) (vt i)
  rw [mul_mixed] at hl hm
  exact accumulateSse2_value a _ _ i _ hlo hhi hl hm

theorem vmadnScalar_value (a : VAcc) (vs vt : V16) (i : Lane) :
    accValue (vmadnScalar a vs vt).1 i =
      (accValue a i + (vs i).toNat * (vt i).toInt) % 2 ^ 48 := by
  rw [mul_comm, ← mul_mixed, BitVec.mul_comm]
  exact accumulateScalar_value a _ i

theorem vmadnSse2_value (a : VAcc) (vs vt : V16) (i : Lane) :
    accValue (vmadnSse2 a vs vt).1 i =
      (accValue a i + (vs i).toNat * (vt i).toInt) % 2 ^ 48 := by
  obtain ⟨hlo, hhi, -⟩ := mixed_bounds (vt i) (vs i)
  obtain ⟨hl, hm⟩ := mixed_words_sse2 (vt i) (vs i)
  rw [mul_mixed] at hl hm
  rw [BitVec.mul_comm] at hl
  rw [BitVec.mul_comm ((vt i).setWidth 32)] at hm
  rw [mul_comm]
  exact accumulateSse2_value a _ _ i _ hlo hhi hl hm

theorem vmadhScalar_value (a : VAcc) (vs vt : V16) (i : Lane) :
    accValue (vmadhScalar a vs vt).1 i =
      (accValue a i + (vs i).toInt * (vt i).toInt * 65536) % 2 ^ 48 := by
  obtain ⟨hp, hlo, hhi⟩ := mul_signed (vs i) (vt i)
  have hnat := toNat_eq_emod ((vs i).signExtend 32 * (vt i).signExtend 32)
  have hshift : (((vs i).signExtend 32 * (vt i).signExtend 32).sshiftRight 16).toInt =
      (vs i).toInt * (vt i).toInt / 65536 := by
    rw [BitVec.toInt_sshiftRight, Int.shiftRight_eq_div_pow, hp]
    rfl
  have hhigh := toNat_eq_emod (((vs i).signExtend 32 * (vt i).signExtend 32).sshiftRight 16)
  rw [hshift] at hhigh
  rw [hp] at hnat
  have hh := (a.h i).isLt
  have hm := (a.m i).isLt
  simp only [accValue, vmadhScalar]
  generalize ((vs i).signExtend 32 * (vt i).signExtend 32).sshiftRight 16 = q at hhigh ⊢
  generalize (vs i).signExtend 32 * (vt i).signExtend 32 = p at hnat ⊢
  generalize (vs i).toInt * (vt i).toInt = z at *
  simp only [BitVec.toNat_add, BitVec.toNat_setWidth, BitVec.toNat_ushiftRight,
    Nat.shiftRight_eq_div_pow]
  omega

/-- The carry of the SSE2 `VMADH`. -/
theorem carry_high (h m l hi lo : BitVec 16) (z : ℤ) (hlo : (lo.toNat : ℤ) = z % 65536)
    (hhi : (hi.toNat : ℤ) = z / 65536 % 65536) :
    ((h + hi - if (lo + m).toNat < m.toNat then 0xffff else 0).toNat : ℤ) * 4294967296 +
        (lo + m).toNat * 65536 + l.toNat =
      (h.toNat * 4294967296 + m.toNat * 65536 + l.toNat + z * 65536) % 2 ^ 48 := by
  have hh := h.isLt
  have hm := m.isLt
  have hl := l.isLt
  have hsum := BitVec.toNat_add lo m
  rw [sub_mask, BitVec.toNat_add]
  split <;> omega

theorem vmadhSse2_value (a : VAcc) (vs vt : V16) (i : Lane) :
    accValue (vmadhSse2 a vs vt).1 i =
      (accValue a i + (vs i).toInt * (vt i).toInt * 65536) % 2 ^ 48 := by
  have hlow := signed_mul_low (vs i) (vt i)
  have hhigh := mulhi_word (vs i) (vt i)
  simp only [accValue, vmadhSse2, mmSubEpi16, mmCmpltEpu16_apply, mmAddEpi16]
  exact carry_high (a.h i) (a.m i) (a.l i) (mmMulhiEpi16 vs vt i) (mmMulloEpi16 vs vt i) _
    hlow hhigh

/-- The low clamp in SSE2 selects by masks what the scalar one selects by a condition. -/
theorem clampLowSse2_eq (a : VAcc) :
    clampLowSse2 a.h a.m a.l = Clamp.low.code signedClampAmScalar a := by
  funext i
  have hsat : mmPacksEpi32 (mmUnpackloEpi16 a.m a.h) (mmUnpackhiEpi16 a.m a.h) i =
      signedClampAmScalar a i := by
    rw [signedClampAmScalar_apply]
    exact mmPacks_unpack a.m a.h i
  simp only [clampLowSse2, Clamp.code, signedClampAl, mmXorSi128, mmOrSi128, mmAndSi128,
    mmCmpeqEpi16, mmSlliEpi16, hsat, if_true]
  generalize signedClampAmScalar a i = temp
  by_cases heq : temp = a.m i
  · have hzero : (0xffff ^^^ 0xffff : BitVec 16) = 0#16 := by decide
    have hall : ∀ x : BitVec 16, x &&& 0xffff = x := fun x => BitVec.and_allOnes
    rw [if_neg (not_not.mpr heq), if_pos heq.symm, hzero, hall, BitVec.and_zero, BitVec.zero_or,
      BitVec.zero_shiftLeft, BitVec.xor_zero]
  · have hones : (0 ^^^ 0xffff : BitVec 16) = BitVec.allOnes 16 := by decide
    have htop : BitVec.allOnes 16 <<< 15 = 0x8000#16 := by decide
    rw [if_pos heq, if_neg (Ne.symm heq), hones, BitVec.and_allOnes, htop, BitVec.ofNat_eq_ofNat,
      BitVec.and_zero, BitVec.or_zero]
    rfl

-- ════════════════════
-- Every operation
-- ════════════════════

/-- The accumulators are exact, and the result is the code's clamp of them. -/
structure Computed (op : VuMultiply) (a : VAcc) (vs vt : V16) (r : VAcc × V16) : Prop where
  accumulators : ∀ i, accValue r.1 i = op.exact (accValue a) vs vt i
  result : r.2 = op.clamp.code signedClampAmScalar r.1

theorem vmudm_result (r : VAcc × V16) (vs vt : V16) (hr : r.2 = r.1.m)
    (hval : ∀ i, accValue r.1 i = (vs i).toInt * (vt i).toNat % 2 ^ 48) :
    r.2 = Clamp.middle.code signedClampAmScalar r.1 := by
  funext i
  obtain ⟨hlo, hhi, -⟩ := mixed_bounds (vs i) (vt i)
  rw [(code_small r.1 i _ hlo (by omega) (hval i)).1, hr]

theorem vmudn_result (r : VAcc × V16) (vs vt : V16) (hr : r.2 = r.1.l)
    (hval : ∀ i, accValue r.1 i = (vs i).toNat * (vt i).toInt % 2 ^ 48) :
    r.2 = Clamp.low.code signedClampAmScalar r.1 := by
  funext i
  obtain ⟨hlo, hhi, -⟩ := mixed_bounds (vt i) (vs i)
  have hi := hval i
  rw [mul_comm] at hi
  rw [(code_small r.1 i _ hlo (by omega) hi).2, hr]

theorem vmudl_result (vs vt : V16) : (vmudlScalar vs vt).2 =
    Clamp.low.code signedClampAmScalar (vmudlScalar vs vt).1 := by
  funext i
  obtain ⟨-, hle⟩ := mul_unsigned (vs i) (vt i)
  have hsmall : (((vs i).toNat * (vt i).toNat : ℕ) / 65536 : ℤ) < 2147483648 := by omega
  rw [(code_small _ i _ (by omega) hsmall (vmudlScalar_value vs vt i)).2]
  rfl

theorem sse2_saturates (a : VAcc) : mmPacksEpi32 (mmUnpackloEpi16 a.m a.h)
    (mmUnpackhiEpi16 a.m a.h) = Clamp.middle.code signedClampAmScalar a :=
  congrFun signedClampAm_agree a

/-- A version that replaces the accumulators by the product. -/
theorem computed_replaces {op : VuMultiply} (h : op.accumulates = false) {a : VAcc} {vs vt : V16}
    {r : VAcc × V16} (hval : ∀ i, accValue r.1 i = op.product (vs i) (vt i) % 2 ^ 48)
    (hres : r.2 = op.clamp.code signedClampAmScalar r.1) : Computed op a vs vt r :=
  ⟨fun i => (hval i).trans (VuMultiply.exact_replaces h _ _ _ _).symm, hres⟩

/-- A version that adds the product to the accumulators. -/
theorem computed_adds {op : VuMultiply} (h : op.accumulates = true) {a : VAcc} {vs vt : V16}
    {r : VAcc × V16}
    (hval : ∀ i, accValue r.1 i = (accValue a i + op.product (vs i) (vt i)) % 2 ^ 48)
    (hres : r.2 = op.clamp.code signedClampAmScalar r.1) : Computed op a vs vt r :=
  ⟨fun i => (hval i).trans (VuMultiply.exact_adds h _ _ _ _).symm, hres⟩

/-- **Scalar**: every operation without SSE2. -/
theorem scalar_computed (op : VuMultiply) (a : VAcc) (vs vt : V16) :
    Computed op a vs vt (op.scalar a vs vt) := by
  cases op with
  | vmulf => exact computed_replaces rfl (mulRounded_value vs vt) rfl
  | vmulu => exact computed_replaces rfl (mulRounded_value vs vt) rfl
  | vmudl => exact computed_replaces rfl (vmudlScalar_value vs vt) (vmudl_result vs vt)
  | vmudm =>
    exact computed_replaces rfl (vmudmScalar_value vs vt)
      (vmudm_result _ vs vt rfl (vmudmScalar_value vs vt))
  | vmudn =>
    exact computed_replaces rfl (vmudnScalar_value vs vt)
      (vmudn_result _ vs vt rfl (vmudnScalar_value vs vt))
  | vmudh => exact computed_replaces rfl (vmudhScalar_value vs vt) rfl
  | vmacf => exact computed_adds rfl (doMac_value a vs vt) rfl
  | vmacu => exact computed_adds rfl (doMac_value a vs vt) rfl
  | vmadl => exact computed_adds rfl (vmadlScalar_value a vs vt) rfl
  | vmadm => exact computed_adds rfl (vmadmScalar_value a vs vt) rfl
  | vmadn => exact computed_adds rfl (vmadnScalar_value a vs vt) rfl
  | vmadh => exact computed_adds rfl (vmadhScalar_value a vs vt) rfl

/-- **SSE2**: every operation with it. -/
theorem sse2_computed (op : VuMultiply) (a : VAcc) (vs vt : V16) :
    Computed op a vs vt (op.sse2 a vs vt) := by
  cases op with
  | vmulf => exact computed_replaces rfl (vmulfSse2_value vs vt) (vmulfSse2_result vs vt)
  | vmulu => exact computed_replaces rfl (vmuluSse2_value vs vt) (vmuluSse2_result vs vt)
  | vmudl =>
    show Computed .vmudl a vs vt (vmudlSse2 vs vt)
    rw [vmudlSse2_eq]
    exact scalar_computed .vmudl a vs vt
  | vmudm =>
    exact computed_replaces rfl (vmudmSse2_value vs vt)
      (vmudm_result _ vs vt rfl (vmudmSse2_value vs vt))
  | vmudn =>
    exact computed_replaces rfl (vmudnSse2_value vs vt)
      (vmudn_result _ vs vt rfl (vmudnSse2_value vs vt))
  | vmudh =>
    exact computed_replaces rfl (vmudhSse2_value vs vt)
      (sse2_saturates ⟨mmMulhiEpi16 vs vt, mmMulloEpi16 vs vt, mmSetzeroSi128⟩)
  | vmacf =>
    show Computed .vmacf a vs vt (doMacf signedClampAmSse2 a vs vt)
    rw [signedClampAm_agree]
    exact scalar_computed .vmacf a vs vt
  | vmacu =>
    show Computed .vmacu a vs vt (doMacu signedClampAmSse2 a vs vt)
    rw [signedClampAm_agree]
    exact scalar_computed .vmacu a vs vt
  | vmadl =>
    exact computed_adds rfl (vmadlSse2_value a vs vt)
      (clampLowSse2_eq (vmadlSse2 a vs vt).1)
  | vmadm =>
    exact computed_adds rfl (vmadmSse2_value a vs vt)
      (sse2_saturates (vmadmSse2 a vs vt).1)
  | vmadn =>
    exact computed_adds rfl (vmadnSse2_value a vs vt)
      (clampLowSse2_eq (vmadnSse2 a vs vt).1)
  | vmadh =>
    exact computed_adds rfl (vmadhSse2_value a vs vt)
      (sse2_saturates (vmadhSse2 a vs vt).1)

/-- **Versions**: with and without SSE2 an operation does the same. -/
theorem versions_agree (op : VuMultiply) (a : VAcc) (vs vt : V16) :
    op.sse2 a vs vt = op.scalar a vs vt := by
  have hscalar := scalar_computed op a vs vt
  have hsse2 := sse2_computed op a vs vt
  have hacc : (op.sse2 a vs vt).1 = (op.scalar a vs vt).1 := accValue_inj fun i => by
    rw [hsse2.accumulators, hscalar.accumulators]
  refine Prod.ext hacc ?_
  rw [hsse2.result, hscalar.result, hacc]

-- ════════════════════
-- Sequences
-- ════════════════════

/-- An operation with its operands. -/
structure Multiply where
  op : VuMultiply
  vs : V16
  vt : V16

/-- The accumulators are exact and the result is their clamp. -/
structure Multiplied (x : Multiply) (a : VAcc) (r : VAcc × V16) : Prop where
  accumulators : ∀ i, accValue r.1 i = x.op.exact (accValue a) x.vs x.vt i
  result : ∀ i, r.2 i = x.op.clamp.value (x.op.exact (accValue a) x.vs x.vt i)

/-- The multiply does what it should, in both versions, which agree. -/
structure MultipliedRight (a : VAcc) (x : Multiply) : Prop where
  scalar : Multiplied x a (x.op.scalar a x.vs x.vt)
  sse2 : Multiplied x a (x.op.sse2 a x.vs x.vt)
  agree : x.op.sse2 a x.vs x.vt = x.op.scalar a x.vs x.vt

/-- The exact accumulators stay clear of those the clamp is blind to. -/
def Seen (t : Lane → ℤ) (x : Multiply) : Prop :=
  ∀ i, ¬x.op.clamp.Blind (x.op.exact t x.vs x.vt i)

theorem multiplied_iff {x : Multiply} {a : VAcc} {r : VAcc × V16}
    (h : Computed x.op a x.vs x.vt r) : Multiplied x a r ↔ Seen (accValue a) x := by
  have hlane : ∀ i, r.2 i = x.op.clamp.value (x.op.exact (accValue a) x.vs x.vt i) ↔
      ¬x.op.clamp.Blind (x.op.exact (accValue a) x.vs x.vt i) := by
    intro i
    rw [h.result, ← h.accumulators i]
    exact Clamp.code_iff x.op.clamp r.1 i
  exact ⟨fun hm i => (hlane i).mp (hm.result i),
    fun hs => ⟨h.accumulators, fun i => (hlane i).mpr (hs i)⟩⟩

/-- **One multiply**: it is right exactly where its clamp is not blind. -/
theorem multipliedRight_iff (a : VAcc) (x : Multiply) :
    MultipliedRight a x ↔ Seen (accValue a) x := by
  have hscalar := multiplied_iff (scalar_computed x.op a x.vs x.vt)
  have hsse2 := multiplied_iff (sse2_computed x.op a x.vs x.vt)
  exact ⟨fun h => hscalar.mp h.scalar,
    fun h => ⟨hscalar.mpr h, hsse2.mpr h, versions_agree x.op a x.vs x.vt⟩⟩

/-- The accumulators after a multiply of the code. -/
def vuMultiply (a : VAcc) (x : Multiply) : VAcc := (x.op.scalar a x.vs x.vt).1

/-- The exact accumulators after it. -/
def exactMultiply (t : Lane → ℤ) (x : Multiply) : Lane → ℤ := x.op.exact t x.vs x.vt

/-- **Multiplies**: along every sequence, from any accumulators, each multiply is right exactly
    when none meets an accumulator its clamp is blind to. -/
theorem multiplies_right_iff (a : VAcc) (multiplies : List Multiply) :
    Runs.Along vuMultiply MultipliedRight a multiplies ↔
      Runs.Along exactMultiply Seen (accValue a) multiplies := by
  have hview : ∀ a x, accValue (vuMultiply a x) = exactMultiply (accValue a) x := fun a x =>
    funext (scalar_computed x.op a x.vs x.vt).accumulators
  rw [Runs.along_congr multipliedRight_iff]
  exact Runs.along_view accValue hview Seen a multiplies

/-- An overflowed accumulator whose middle word is `0x7fff` already: `VMACU` gives `0x7fff` where
    the clamp is `0xffff`. -/
theorem vmacu_blind : ¬∀ (a : VAcc) (multiplies : List Multiply),
    Runs.Along vuMultiply MultipliedRight a multiplies := by
  intro h
  have hseen := (multipliedRight_iff ⟨fun _ => 1, fun _ => 0x7fff, fun _ => 0⟩
    ⟨.vmacu, fun _ => 0, fun _ => 0⟩).mp (h _ [_]).1 0
  exact hseen (by decide)

end Mupen64plus
