import Mathlib.Tactic.Common
import Mathlib.Data.Nat.Notation

/-!
# Units of bytes, the first being the most significant

A unit of `size` bytes that is loaded or stored at an address inside of an aligned unit: the left
part goes up to the end of the unit, the right part starts at its beginning. Two such accesses, of
the left part and of the right part, make up a unit at any address.

## Main definitions

- `beByte` — a byte of a unit
- `ofBytes` — the unit of some bytes
- `leftLoaded`, `rightLoaded`, `leftMask`, `rightMask` — the two parts

## Main results

- `eq_of_beByte`
- `beByte_leftLoaded`, `beByte_rightLoaded`, `beByte_leftStored`, `beByte_rightStored`
-/

namespace BigEndian

variable {w size : ℕ}

/-- Byte `i` of a unit. -/
def beByte (x : BitVec w) (i : ℕ) : BitVec 8 := x.extractLsb' (w - 8 * (i + 1)) 8

theorem getLsbD_beByte (x : BitVec w) (i k : ℕ) :
    (beByte x i).getLsbD k = (decide (k < 8) && x.getLsbD (w - 8 * (i + 1) + k)) := by
  rw [beByte, BitVec.getLsbD_extractLsb']

/-- The bytes determine a unit. -/
theorem eq_of_beByte (hw : w = 8 * size) {x y : BitVec w}
    (h : ∀ i < size, beByte x i = beByte y i) : x = y := by
  apply BitVec.eq_of_getLsbD_eq
  intro t ht
  have hbyte := congrArg (·.getLsbD (t % 8)) (h (size - 1 - t / 8) (by omega))
  simp only [getLsbD_beByte] at hbyte
  have hplace : w - 8 * (size - 1 - t / 8 + 1) + t % 8 = t := by omega
  rw [hplace, decide_eq_true (Nat.mod_lt _ (by decide)), Bool.true_and, Bool.true_and] at hbyte
  exact hbyte

/-- Bits of a byte, by their place in the unit. -/
theorem beByte_ext (hw : w = 8 * size) {x : BitVec w} {i : ℕ} (hi : i < size) {b : BitVec 8}
    (h : ∀ k < 8, x.getLsbD (8 * (size - 1 - i) + k) = b.getLsbD k) : beByte x i = b := by
  apply BitVec.eq_of_getLsbD_eq
  intro k hk
  have hplace : w - 8 * (i + 1) + k = 8 * (size - 1 - i) + k := by omega
  rw [getLsbD_beByte, decide_eq_true hk, Bool.true_and, hplace, h k hk]

theorem getLsbD_place (hw : w = 8 * size) (x : BitVec w) {i k : ℕ} (hi : i < size) (hk : k < 8) :
    x.getLsbD (8 * (size - 1 - i) + k) = (beByte x i).getLsbD k := by
  have hplace : w - 8 * (i + 1) + k = 8 * (size - 1 - i) + k := by omega
  rw [getLsbD_beByte, decide_eq_true hk, Bool.true_and, hplace]

-- ════════════════════════════════════════════════════════════════════════
-- The unit of some bytes
-- ════════════════════════════════════════════════════════════════════════

/-- The unit whose bytes are the first `n` of `b`. -/
def ofBytes (w : ℕ) (b : ℕ → BitVec 8) : ℕ → BitVec w
  | 0 => 0
  | n + 1 => (ofBytes w b n <<< 8) ||| (b n).setWidth w

theorem getLsbD_ofBytes (b : ℕ → BitVec 8) (n : ℕ) {t : ℕ} (ht : t < w) :
    (ofBytes w b n).getLsbD t =
      (decide (t < 8 * n) && (b (n - 1 - t / 8)).getLsbD (t % 8)) := by
  induction n generalizing t with
  | zero => simp [ofBytes]
  | succ n ih =>
    rw [ofBytes, BitVec.getLsbD_or, BitVec.getLsbD_shiftLeft, BitVec.getLsbD_setWidth,
      decide_eq_true ht, Bool.true_and, Bool.true_and]
    by_cases hlow : t < 8
    · have hdiv : t / 8 = 0 := by omega
      have hmod : t % 8 = t := by omega
      rw [decide_eq_true hlow, Bool.not_true, Bool.false_and, Bool.false_or,
        decide_eq_true (by omega), Bool.true_and, hdiv, hmod]
      rfl
    · have hdiv : n - 1 - (t - 8) / 8 = n + 1 - 1 - t / 8 := by omega
      have hmod : (t - 8) % 8 = t % 8 := by omega
      have hlt : (t - 8 < 8 * n) = (t < 8 * (n + 1)) := by
        apply propext
        omega
      rw [decide_eq_false hlow, Bool.not_false, Bool.true_and, ih (by omega), hdiv, hmod,
        BitVec.getLsbD_of_ge _ _ (Nat.le_of_not_lt hlow), Bool.or_false]
      simp only [hlt]

theorem beByte_ofBytes (hw : w = 8 * size) (b : ℕ → BitVec 8) {i : ℕ} (hi : i < size) :
    beByte (ofBytes w b size) i = b i := by
  apply beByte_ext hw hi
  intro k hk
  have hdiv : size - 1 - (8 * (size - 1 - i) + k) / 8 = i := by omega
  have hmod : (8 * (size - 1 - i) + k) % 8 = k := by omega
  rw [getLsbD_ofBytes _ _ (by omega), decide_eq_true (by omega), Bool.true_and, hdiv, hmod]

-- ════════════════════════════════════════════════════════════════════════
-- Parts of a unit
-- ════════════════════════════════════════════════════════════════════════

/-- `BITS_BELOW_MASK32` and `BITS_BELOW_MASK64`. -/
def bitsBelowMask (w b : ℕ) : BitVec w := (1#w <<< b) - 1#w

/-- `BITS_ABOVE_MASK32` and `BITS_ABOVE_MASK64`. -/
def bitsAboveMask (w b : ℕ) : BitVec w := ~~~bitsBelowMask w b

/-- A unit with the bits of a mask replaced. -/
def replaceBits (old value mask : BitVec w) : BitVec w := (old &&& ~~~mask) ||| (value &&& mask)

/-- A left part, from byte `n` on, is loaded in front of the bytes of `old`. -/
def leftLoaded (n : ℕ) (old unit : BitVec w) : BitVec w :=
  (old &&& bitsBelowMask w (8 * n)) ||| (unit <<< (8 * n))

/-- A right part, up to byte `n`, is loaded behind the bytes of `old`. -/
def rightLoaded (n : ℕ) (old unit : BitVec w) : BitVec w :=
  let mask := if n = w / 8 - 1 then 0 else bitsAboveMask w (8 * (n + 1))
  (old &&& mask) ||| (unit >>> (8 * (w / 8 - 1 - n)))

/-- The mask of a store from byte `n` on. -/
def leftMask (w n : ℕ) : BitVec w :=
  if n = 0 then BitVec.allOnes w else bitsBelowMask w (8 * (w / 8 - n))

/-- The mask of a store up to byte `n`. -/
def rightMask (w n : ℕ) : BitVec w := bitsAboveMask w (8 * (w / 8 - 1 - n))

theorem getLsbD_bitsBelowMask {b t : ℕ} (hb : b < w) (ht : t < w) :
    (bitsBelowMask w b).getLsbD t = decide (t < b) := by
  have hpow : 2 ^ b < 2 ^ w := Nat.pow_lt_pow_right (by decide) hb
  have hpos : 0 < 2 ^ b := Nat.two_pow_pos b
  have hone : 1 < 2 ^ w := Nat.one_lt_two_pow (by omega)
  have hmask : (bitsBelowMask w b).toNat = 2 ^ b - 1 := by
    rw [bitsBelowMask, BitVec.toNat_sub, BitVec.toNat_shiftLeft, BitVec.toNat_ofNat,
      Nat.mod_eq_of_lt hone, Nat.one_shiftLeft, Nat.mod_eq_of_lt hpow]
    have hsum : 2 ^ w - 1 + 2 ^ b = 2 ^ w + (2 ^ b - 1) := by omega
    rw [hsum, Nat.add_mod_left, Nat.mod_eq_of_lt (by omega)]
  rw [BitVec.getLsbD, hmask, Nat.testBit_two_pow_sub_one]

theorem getLsbD_bitsAboveMask {b t : ℕ} (hb : b < w) (ht : t < w) :
    (bitsAboveMask w b).getLsbD t = decide (b ≤ t) := by
  rw [bitsAboveMask, BitVec.getLsbD_not, getLsbD_bitsBelowMask hb ht, decide_eq_true ht,
    Bool.true_and]
  simp only [← decide_not, Nat.not_lt]

theorem beByte_leftLoaded (hw : w = 8 * size) {n i : ℕ} (hn : n < size) (hi : i < size)
    (old unit : BitVec w) : beByte (leftLoaded n old unit) i =
      if i + n < size then beByte unit (i + n) else beByte old i := by
  apply beByte_ext hw hi
  intro k hk
  rw [leftLoaded, BitVec.getLsbD_or, BitVec.getLsbD_and,
    getLsbD_bitsBelowMask (by omega) (by omega), BitVec.getLsbD_shiftLeft,
    decide_eq_true (show 8 * (size - 1 - i) + k < w by omega), Bool.true_and]
  split
  next hin =>
    have hplace : 8 * (size - 1 - i) + k - 8 * n = 8 * (size - 1 - (i + n)) + k := by omega
    rw [decide_eq_false (by omega), Bool.and_false, Bool.false_or, Bool.not_false, Bool.true_and,
      hplace, getLsbD_place hw _ hin hk]
  next hout =>
    rw [decide_eq_true (by omega), Bool.and_true, Bool.not_true, Bool.false_and, Bool.or_false,
      getLsbD_place hw _ hi hk]

theorem beByte_rightLoaded (hw : w = 8 * size) {n i : ℕ} (hn : n < size) (hi : i < size)
    (old unit : BitVec w) : beByte (rightLoaded n old unit) i =
      if size ≤ i + n + 1 then beByte unit (i + n + 1 - size) else beByte old i := by
  have hsize : w / 8 = size := by omega
  apply beByte_ext hw hi
  intro k hk
  have hmask : (if n = w / 8 - 1 then 0 else bitsAboveMask w (8 * (n + 1)) : BitVec w).getLsbD
      (8 * (size - 1 - i) + k) = decide (i + n + 1 < size) := by
    split
    next => rw [decide_eq_false (by omega)]; exact BitVec.getLsbD_zero
    next =>
      rw [getLsbD_bitsAboveMask (by omega) (by omega)]
      exact decide_eq_decide.mpr (by omega)
  rw [rightLoaded, BitVec.getLsbD_or, BitVec.getLsbD_and, hmask, BitVec.getLsbD_ushiftRight, hsize]
  split
  next hin =>
    have hplace : 8 * (size - 1 - n) + (8 * (size - 1 - i) + k) =
        8 * (size - 1 - (i + n + 1 - size)) + k := by omega
    rw [decide_eq_false (by omega), Bool.and_false, Bool.false_or, hplace,
      getLsbD_place hw _ (by omega) hk]
  next hout =>
    rw [decide_eq_true (by omega), Bool.and_true, BitVec.getLsbD_of_ge unit _ (by omega),
      Bool.or_false, getLsbD_place hw _ hi hk]

/-- A byte under a mask of whole bytes. -/
theorem beByte_replaceBits (hw : w = 8 * size) {i : ℕ} (hi : i < size) (old value mask : BitVec w)
    (inside : Prop) [Decidable inside]
    (hmask : ∀ k < 8, mask.getLsbD (8 * (size - 1 - i) + k) = decide inside) :
    beByte (replaceBits old value mask) i = if inside then beByte value i else beByte old i := by
  apply beByte_ext hw hi
  intro k hk
  rw [replaceBits, BitVec.getLsbD_or, BitVec.getLsbD_and, BitVec.getLsbD_and, BitVec.getLsbD_not,
    hmask k hk, decide_eq_true (show 8 * (size - 1 - i) + k < w by omega), Bool.true_and]
  split
  next hin =>
    rw [decide_eq_true hin, Bool.not_true, Bool.and_false, Bool.false_or, Bool.and_true,
      getLsbD_place hw _ hi hk]
  next hout =>
    rw [decide_eq_false hout, Bool.not_false, Bool.and_true, Bool.and_false, Bool.or_false,
      getLsbD_place hw _ hi hk]

theorem beByte_leftStored (hw : w = 8 * size) {n i : ℕ} (hn : n < size) (hi : i < size)
    (old value : BitVec w) : beByte (replaceBits old (value >>> (8 * n)) (leftMask w n)) i =
      if n ≤ i then beByte value (i - n) else beByte old i := by
  have hsize : w / 8 = size := by omega
  rw [beByte_replaceBits hw hi _ _ _ (n ≤ i)]
  · split
    next hin =>
      apply beByte_ext hw hi
      intro k hk
      have hplace : 8 * n + (8 * (size - 1 - i) + k) = 8 * (size - 1 - (i - n)) + k := by omega
      rw [BitVec.getLsbD_ushiftRight, hplace, getLsbD_place hw _ (by omega) hk]
    next => rfl
  · intro k hk
    unfold leftMask
    split
    next hzero =>
      rw [BitVec.getLsbD_allOnes, decide_eq_true (by omega), decide_eq_true (by omega)]
    next hpos =>
      rw [getLsbD_bitsBelowMask (by omega) (by omega), hsize]
      exact decide_eq_decide.mpr (by omega)

theorem beByte_rightStored (hw : w = 8 * size) {n i : ℕ} (hn : n < size) (hi : i < size)
    (old value : BitVec w) :
    beByte (replaceBits old (value <<< (8 * (size - 1 - n))) (rightMask w n)) i =
      if i ≤ n then beByte value (i + (size - 1 - n)) else beByte old i := by
  have hsize : w / 8 = size := by omega
  rw [beByte_replaceBits hw hi _ _ _ (i ≤ n)]
  · split
    next hin =>
      apply beByte_ext hw hi
      intro k hk
      have hplace : 8 * (size - 1 - i) + k - 8 * (size - 1 - n) =
          8 * (size - 1 - (i + (size - 1 - n))) + k := by omega
      rw [BitVec.getLsbD_shiftLeft, decide_eq_true (by omega), decide_eq_false (by omega),
        Bool.not_false, Bool.true_and, Bool.true_and, hplace, getLsbD_place hw _ (by omega) hk]
    next => rfl
  · intro k hk
    rw [rightMask, hsize, getLsbD_bitsAboveMask (by omega) (by omega)]
    exact decide_eq_decide.mpr (by omega)

end BigEndian
