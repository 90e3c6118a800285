import Mupen64plus.Lib.BitPolynomials
import Mupen64plus.Device.Memory

/-!
# The check byte of controller paks

`pak_data_crc` of `game_controller.c`, by which a controller answers for a chunk it moved to or
from its pak.

## Main definitions

- `pakDataCrc` — the loop of the source over bytes and bits
- `blockBits` — the bits of a block, most significant first

## Main results

- `pakDataCrc_eq_foldl` — the loop feeds the bits of the block and eight zeros to a shift register
- `pakDataCrc_eq_remainder` — the check byte is a remainder
-/

namespace Mupen64plus

open Polynomial BitPolynomials

/-- The values of `mask` in the inner loop. -/
def crcMasks : List (BitVec 8) := (List.range 8).map fun k => 0x80#8 >>> k

/-- The body of the inner loop of `pak_data_crc`. -/
def pakCrcBit (data : Bytes) (size i : ℕ) (crc mask : BitVec 8) : BitVec 8 :=
  let xorTap : BitVec 8 := if crc &&& 0x80 ≠ 0 then 0x85 else 0x00
  let crc := crc <<< 1
  let crc := if i ≠ size ∧ data i &&& mask ≠ 0 then crc ||| 1 else crc
  crc ^^^ xorTap

/-- One round of the outer loop of `pak_data_crc`. -/
def pakCrcByte (data : Bytes) (size : ℕ) (crc : BitVec 8) (i : ℕ) : BitVec 8 :=
  crcMasks.foldl (pakCrcBit data size i) crc

/-- `pak_data_crc`. The round behind the data takes in eight zeros. -/
def pakDataCrc (data : Bytes) (size : ℕ) : BitVec 8 :=
  (List.range (size + 1)).foldl (pakCrcByte data size) 0

/-- The bits of a byte, most significant first. -/
def byteBits (b : BitVec 8) : List Bool := (List.range 8).map b.getMsbD

/-- The bits of a block, most significant first. -/
def blockBits (data : Bytes) (size : ℕ) : List Bool :=
  (List.range size).flatMap fun i => byteBits (data i)

-- ════════════════════
-- The loop as a shift register
-- ════════════════════

theorem and_mask_ne_zero (b : BitVec 8) {k : ℕ} (hk : k < 8) :
    b &&& 0x80#8 >>> k ≠ 0 ↔ b.getMsbD k = true := by
  have hpow : ∀ k < 8, (0x80#8 >>> k) = BitVec.twoPow 8 (7 - k) := by decide
  have hne : BitVec.twoPow 8 (7 - k) ≠ 0#8 := by
    rw [← hpow k hk]
    revert k
    decide
  rw [hpow k hk, BitVec.and_twoPow, BitVec.getMsbD_eq_getLsbD, decide_eq_true hk, Bool.true_and,
    show 8 - 1 - k = 7 - k by omega]
  split
  · next hbit => simp [hbit, hne]
  · next hbit => simp [hbit]

theorem pakCrcBit_eq_shiftIn (data : Bytes) (size i : ℕ) (crc mask : BitVec 8) :
    pakCrcBit data size i crc mask =
      shiftIn 0x85 crc (decide (i ≠ size ∧ data i &&& mask ≠ 0)) := by
  have hmsb : crc &&& 0x80 ≠ 0 ↔ crc.msb = true := and_mask_ne_zero crc (k := 0) (by decide)
  unfold pakCrcBit shiftIn
  simp only [hmsb]
  by_cases hbit : i ≠ size ∧ data i &&& mask ≠ 0
  · rw [if_pos hbit, decide_eq_true hbit]
    rfl
  · rw [if_neg hbit, decide_eq_false hbit]
    have hzero : (BitVec.ofBool false).zeroExtend 8 = 0#8 := rfl
    rw [hzero, BitVec.or_zero]

/-- The bits one round takes in. -/
def roundBits (data : Bytes) (size i : ℕ) : List Bool :=
  if i = size then List.replicate 8 false else byteBits (data i)

theorem pakCrcByte_eq_foldl (data : Bytes) (size : ℕ) (crc : BitVec 8) (i : ℕ) :
    pakCrcByte data size crc i = (roundBits data size i).foldl (shiftIn 0x85) crc := by
  have hbits : crcMasks.map (fun mask => decide (i ≠ size ∧ data i &&& mask ≠ 0)) =
      roundBits data size i := by
    unfold crcMasks roundBits
    rw [List.map_map]
    split
    · next hi => simp [hi]
    · next hi =>
      unfold byteBits
      refine List.map_congr_left fun k hk => ?_
      rw [Function.comp_apply, decide_eq_decide.mpr (and_iff_right hi), Bool.eq_iff_iff,
        decide_eq_true_iff]
      exact and_mask_ne_zero (data i) (List.mem_range.mp hk)
  rw [← hbits, List.foldl_map, pakCrcByte]
  congr 1
  funext crc mask
  exact pakCrcBit_eq_shiftIn data size i crc mask

theorem pakDataCrc_eq_foldl (data : Bytes) (size : ℕ) :
    pakDataCrc data size =
      (blockBits data size ++ List.replicate 8 false).foldl (shiftIn 0x85) 0 := by
  have hrounds : (List.range (size + 1)).flatMap (roundBits data size) =
      blockBits data size ++ List.replicate 8 false := by
    rw [List.range_succ, List.flatMap_append, List.flatMap_singleton, roundBits, if_pos rfl]
    congr 1
    refine List.flatMap_congr fun i hi => ?_
    rw [roundBits, if_neg (by have := List.mem_range.mp hi; omega)]
  rw [← hrounds, List.foldl_flatMap, pakDataCrc]
  congr 1
  funext crc i
  exact pakCrcByte_eq_foldl data size crc i

-- ════════════════════
-- The remainder
-- ════════════════════

/-- The taps are the generator less its leading term. -/
theorem divisor_taps : divisor (0x85 : BitVec 8) = X ^ 8 + X ^ 7 + X ^ 2 + 1 := by
  have htaps : ofWord (0x85 : BitVec 8) = X ^ 7 + X ^ 2 + 1 := by
    unfold ofWord
    simp only [Finset.sum_range_succ, Finset.sum_range_zero]
    simp [monomial_one_right_eq_X_pow]
    ring
  rw [divisor, htaps]
  ring

/-- **The check byte** of a block of any size is the remainder of the block, moved up by eight
    places, at the division by `X ^ 8 + X ^ 7 + X ^ 2 + 1`. -/
theorem pakDataCrc_eq_remainder (data : Bytes) (size : ℕ) :
    ofWord (pakDataCrc data size) =
      (ofBits (blockBits data size) * X ^ 8) %ₘ (X ^ 8 + X ^ 7 + X ^ 2 + 1) := by
  rw [pakDataCrc_eq_foldl, ofWord_foldl_shiftIn (by decide), divisor_taps, ofBits_append,
    ofBits_replicate_false, List.length_replicate, add_zero]

end Mupen64plus
