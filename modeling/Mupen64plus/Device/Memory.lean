import Mathlib.Data.BitVec
import Mathlib.Logic.Function.Basic
import Mathlib.Tactic.Common
import Mupen64plus.Lib.FinLiterals

/-!
# Memories of the console

A memory is the function from word index to word; its bytes are numbered in the order of the
console, which the source reaches with `address ^ S8` on a host of the other byte order.

## Main definitions

- `maskedWrite` — `masked_write`
- `Words`, `Words.byte`, `Words.setByte`, `Words.copyBytes` — words and their bytes
- `regAt` — the register an address selects in a block of registers

`copyBytes` is the byte loop every DMA of the source runs.
-/

namespace Mupen64plus

/-- `masked_write`. -/
def maskedWrite (dst value mask : BitVec 32) : BitVec 32 := (dst &&& ~~~mask) ||| (value &&& mask)

/-- The words of a memory. -/
abbrev Words := ℕ → BitVec 32

/-- The bytes of a buffer. -/
abbrev Bytes := ℕ → BitVec 8

/-- How far the byte at an address stands from the low end of its word. -/
def byteShift (a : ℕ) : ℕ := 8 * (3 - a % 4)

/-- The byte of a word at position `a % 4`, the first being the most significant. -/
def wordByte (w : BitVec 32) (a : ℕ) : BitVec 8 := w.extractLsb' (byteShift a) 8

/-- The word with its byte at position `a % 4` replaced. -/
def putWordByte (w : BitVec 32) (a : ℕ) (b : BitVec 8) : BitVec 32 :=
  maskedWrite w (b.zeroExtend 32 <<< byteShift a) (0xff#32 <<< byteShift a)

namespace Words

/-- `mem[a ^ S8]`. -/
def byte (m : Words) (a : ℕ) : BitVec 8 := wordByte (m (a / 4)) a

/-- `mem[a ^ S8] = b`. -/
def setByte (m : Words) (a : ℕ) (b : BitVec 8) : Words :=
  Function.update m (a / 4) (putWordByte (m (a / 4)) a b)

/-- `for (i = 0; i < n; ++i) mem[(at+i)^S8] = src(i);`. -/
def copyBytes (m : Words) (start : ℕ) (src : ℕ → BitVec 8) : ℕ → Words
  | 0 => m
  | n + 1 => (m.copyBytes start src n).setByte (start + n) (src n)

/-- A word written under a mask. -/
def write (m : Words) (i : ℕ) (value mask : BitVec 32) : Words :=
  Function.update m i (maskedWrite (m i) value mask)

end Words

/-- The register at `(address & 0xffff) >> 2` of a block, given in order. An index past the last
    register is undefined behaviour in the source. -/
def regAt {ι : Type*} (block : List ι) (address : BitVec 32) : Option ι :=
  block[((address &&& 0xffff) >>> 2).toNat]?

@[simp] theorem maskedWrite_zero (dst value : BitVec 32) : maskedWrite dst value 0#32 = dst := by
  have h : ~~~0#32 = BitVec.allOnes 32 := by decide
  rw [maskedWrite, h, BitVec.and_allOnes, BitVec.and_zero, BitVec.or_zero]

-- ════════════════════════════════════════════════════════════════════════
-- Bytes of a word
-- ════════════════════════════════════════════════════════════════════════

theorem getLsbD_byteMask (s j : ℕ) (hs : s ≤ 24) :
    (0xff#32 <<< s).getLsbD j = decide (s ≤ j ∧ j < s + 8) := by
  rw [BitVec.getLsbD_shiftLeft, BitVec.getLsbD_ofNat, show 0xff = 2 ^ 8 - 1 from rfl,
    Nat.testBit_two_pow_sub_one, Bool.eq_iff_iff]
  simp only [Bool.and_eq_true, Bool.not_eq_true', decide_eq_true_eq, decide_eq_false_iff_not]
  omega

theorem byteShift_le (a : ℕ) : byteShift a ≤ 24 := by
  unfold byteShift
  omega

theorem byteShift_apart {a c : ℕ} (h : a % 4 ≠ c % 4) :
    byteShift a + 8 ≤ byteShift c ∨ byteShift c + 8 ≤ byteShift a := by
  unfold byteShift
  omega

/-- A bit of a byte of a word with one byte replaced. -/
theorem getElem_wordByte_putWordByte (w : BitVec 32) (a c : ℕ) (b : BitVec 8) (i : ℕ)
    (hi : i < 8) :
    (wordByte (putWordByte w a b) c)[i] =
      (w.getLsbD (byteShift c + i) &&
          !decide (byteShift a ≤ byteShift c + i ∧ byteShift c + i < byteShift a + 8) ||
        b.getLsbD (byteShift c + i - byteShift a) &&
          decide (byteShift a ≤ byteShift c + i ∧ byteShift c + i < byteShift a + 8)) := by
  have hc := byteShift_le c
  rw [wordByte, putWordByte, maskedWrite, BitVec.getElem_extractLsb', BitVec.getLsbD_or,
    BitVec.getLsbD_and, BitVec.getLsbD_and, BitVec.getLsbD_not,
    getLsbD_byteMask _ _ (byteShift_le a), BitVec.getLsbD_shiftLeft, BitVec.getLsbD_setWidth]
  by_cases hin : byteShift a ≤ byteShift c + i ∧ byteShift c + i < byteShift a + 8
  · have hlt : byteShift c + i - byteShift a < 32 := by omega
    have hle : ¬byteShift c + i < byteShift a := by omega
    simp [hin, hlt, hle, show byteShift c + i < 32 by omega]
  · simp [hin, show byteShift c + i < 32 by omega]

/-- The byte written is the one read back. -/
theorem wordByte_putWordByte_self (w : BitVec 32) (a : ℕ) (b : BitVec 8) :
    wordByte (putWordByte w a b) a = b := by
  ext i hi
  rw [getElem_wordByte_putWordByte, decide_eq_true (by omega), Nat.add_sub_cancel_left,
    BitVec.getLsbD_eq_getElem hi]
  simp

/-- The other bytes of the word keep their values. -/
theorem wordByte_putWordByte_other {w : BitVec 32} {a c : ℕ} {b : BitVec 8} (h : a % 4 ≠ c % 4) :
    wordByte (putWordByte w a b) c = wordByte w c := by
  have hapart := byteShift_apart h
  ext i hi
  rw [getElem_wordByte_putWordByte, decide_eq_false (by omega), wordByte,
    BitVec.getElem_extractLsb']
  simp

theorem Words.byte_setByte (m : Words) (a c : ℕ) (b : BitVec 8) :
    (m.setByte a b).byte c = if c = a then b else m.byte c := by
  unfold byte setByte
  by_cases hw : c / 4 = a / 4
  · rw [hw, Function.update_self]
    split
    · subst c
      exact wordByte_putWordByte_self _ _ _
    · exact wordByte_putWordByte_other (by omega)
  · have hne : c ≠ a := by
      rintro rfl
      exact hw rfl
    rw [Function.update_of_ne hw, if_neg hne]

/-- A byte after the byte loop. -/
theorem Words.byte_copyBytes (m : Words) (start : ℕ) (src : ℕ → BitVec 8) (n a : ℕ) :
    (m.copyBytes start src n).byte a =
      if start ≤ a ∧ a < start + n then src (a - start) else m.byte a := by
  induction n with
  | zero => rw [copyBytes, if_neg (by omega)]
  | succ n ih =>
    rw [copyBytes, byte_setByte, ih]
    by_cases hlast : a = start + n
    · rw [if_pos hlast, if_pos (by omega), hlast, Nat.add_sub_cancel_left]
    · rw [if_neg hlast]
      by_cases hin : start ≤ a ∧ a < start + n
      · rw [if_pos hin, if_pos (by omega)]
      · rw [if_neg hin, if_neg (by omega)]

end Mupen64plus
