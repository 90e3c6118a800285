import Mathlib.Data.List.Perm.Basic
import Mathlib.Data.Nat.Bitwise
import Mathlib.Order.Bounds.Defs
import Mathlib.Tactic.Common

/-!
# The depth buffer of the software renderer

`zbuffer.c` of angrylion: a depth of eighteen bits is kept in fourteen, finer the farther it is,
with a slope of four bits beside it, of which two are hidden behind the memory. A pixel of a span of
one cycle is drawn if it is in front of what is there and the blender keeps it. The color image lies
in the same memory.

## Main definitions

- `zComTable`, `zDecompress` — the tables of the depths
- `zStore`, `zCompare` — what is written and what is drawn
- `ZMemory.drawPixel` — one pixel of a span

## Main results

- `zDecompress_le_iff` — codes and depths, as an adjunction
- `zStore_read` — a pixel is read back with the greatest depth that can be stored and is not farther
- `depths_of_draws` — after pixels whose fate hangs on their own data and on the depth in front of
  them, the nearest depth is left, in whatever order they came
-/

namespace Mupen64plus

-- ════════════════════
-- Tables
-- ════════════════════

/-- `z_com_table`, as `z_build_com_table` fills it. -/
def zComTable (z : ℕ) : ℕ :=
  let segment := (z >>> 11) &&& 0x7f
  if segment < 0x40 then (z >>> 4) &&& 0x1ffc
  else if segment < 0x60 then ((z >>> 3) &&& 0x1ffc) ||| 0x2000
  else if segment < 0x70 then ((z >>> 2) &&& 0x1ffc) ||| 0x4000
  else if segment < 0x78 then ((z >>> 1) &&& 0x1ffc) ||| 0x6000
  else if segment < 0x7c then (z &&& 0x1ffc) ||| 0x8000
  else if segment < 0x7e then ((z <<< 1) &&& 0x1ffc) ||| 0xa000
  else if segment = 0x7e then ((z <<< 2) &&& 0x1ffc) ||| 0xc000
  else ((z <<< 2) &&& 0x1ffc) ||| 0xe000

/-- `z_dec_table`: `shift` and `add`. -/
def zDecTable (exponent : ℕ) : ℕ × ℕ :=
  [(6, 0x00000), (5, 0x20000), (4, 0x30000), (3, 0x38000), (2, 0x3c000), (1, 0x3e000),
    (0, 0x3f000), (0, 0x3f800)].getD exponent (0, 0)

/-- `z_complete_dec_table`. -/
def zCompleteDecTable (i : ℕ) : ℕ :=
  let entry := zDecTable ((i >>> 11) &&& 7)
  (((i &&& 0x7ff) <<< entry.1) + entry.2) &&& 0x3ffff

def zDecompress (zb : ℕ) : ℕ := zCompleteDecTable ((zb >>> 2) &&& 0x3fff)

/-- `deltaz_comparator_lut`: the highest bit. -/
def deltazComparatorLut (i : ℕ) : ℕ :=
  match (List.range 16).reverse.find? fun k => i &&& 1 <<< k ≠ 0 with
  | some k => 1 <<< k
  | none => 0

def dzDecompress (dzCompressed : ℕ) : ℕ := 1 <<< dzCompressed

def dzCompress (value : ℕ) : ℕ :=
  (if value &&& 0xff00 ≠ 0 then 8 else 0) ||| (if value &&& 0xf0f0 ≠ 0 then 4 else 0) |||
    (if value &&& 0xcccc ≠ 0 then 2 else 0) ||| (if value &&& 0xaaaa ≠ 0 then 1 else 0)

-- ════════════════════
-- Memory
-- ════════════════════

/-- RDRAM in half-words, and the bits hidden behind it. -/
structure ZMemory where
  rdram16 : ℕ → ℕ
  rdramHidden : ℕ → ℕ
  idxlim16 : ℕ

namespace ZMemory

/-- `in &= RDRAM_MASK >> 1`. -/
def index (pixel : ℕ) : ℕ := pixel &&& 0x7fffff

/-- `rdram_read_pair16`. -/
def readPair16 (mem : ZMemory) (pixel : ℕ) : ℕ × ℕ :=
  if index pixel ≤ mem.idxlim16 then
    (mem.rdram16 (index pixel ^^^ 1), mem.rdramHidden (index pixel))
  else (0, 0)

/-- `rdram_write_pair16`. -/
def writePair16 (mem : ZMemory) (pixel rval hval : ℕ) : ZMemory :=
  if index pixel ≤ mem.idxlim16 then
    { mem with
      rdram16 := Function.update mem.rdram16 (index pixel ^^^ 1) (rval % 0x10000)
      rdramHidden := Function.update mem.rdramHidden (index pixel) (hval % 0x100) }
  else mem

def zStore (mem : ZMemory) (zcurpixel z dzpixenc : ℕ) : ZMemory :=
  mem.writePair16 zcurpixel (zComTable (z &&& 0x3ffff) ||| dzpixenc >>> 2) (dzpixenc &&& 3)

end ZMemory

-- ════════════════════
-- Comparison
-- ════════════════════

inductive ZMode where
  | zmodeOpaque | zmodeInterpenetrating | zmodeTransparent | zmodeDecal
  deriving DecidableEq, Repr

/-- `other_modes`, as far as depths go. -/
structure ZModes where
  zCompareEn : Bool
  zUpdateEn : Bool
  forceBlend : Bool
  antialiasEn : Bool
  realblendershiftersneeded : Bool
  interpixelblendershiftersneeded : Bool
  zMode : ZMode
  imageReadEn : Bool
  alphaCompareEn : Bool
  ditherAlphaEn : Bool

structure ZShifters where
  blshifta : ℤ
  blshiftb : ℤ
  pastblshifta : ℤ
  pastblshiftb : ℤ
  pastrawdzmem : ℤ

/-- What `z_compare` returns and writes. -/
structure ZOutcome where
  pass : Bool
  blendEn : Bool
  prewrap : ℕ
  curpixelCvg : ℕ
  shifters : ZShifters

/-- `clamp`. -/
def clampTo (value low high : ℤ) : ℤ :=
  if value < low then low else if high < value then high else value

/-- The blender's shifts for a slope in memory. -/
def ZShifters.compare (s : ZShifters) (modes : ZModes) (dzpixenc rawdzmem : ℤ) : ZShifters where
  blshifta := if modes.realblendershiftersneeded then clampTo (dzpixenc - rawdzmem) 0 4
    else s.blshifta
  blshiftb := if modes.realblendershiftersneeded then clampTo (rawdzmem - dzpixenc) 0 4
    else s.blshiftb
  pastblshifta := if modes.interpixelblendershiftersneeded then
    clampTo (dzpixenc - s.pastrawdzmem) 0 4 else s.pastblshifta
  pastblshiftb := if modes.interpixelblendershiftersneeded then
    clampTo (s.pastrawdzmem - dzpixenc) 0 4 else s.pastblshiftb
  pastrawdzmem := rawdzmem

/-- The blender's shifts without a comparison. -/
def ZShifters.skip (s : ZShifters) (modes : ZModes) (dzpixenc : ℤ) : ZShifters where
  blshifta := if modes.realblendershiftersneeded then 0 else s.blshifta
  blshiftb := if modes.realblendershiftersneeded then (if dzpixenc < 0xb then 4 else 0xf - dzpixenc)
    else s.blshiftb
  pastblshifta := if modes.interpixelblendershiftersneeded then 0 else s.pastblshifta
  pastblshiftb := if modes.interpixelblendershiftersneeded then
    (if dzpixenc < 0xb then 4 else 0xf - dzpixenc) else s.pastblshiftb
  pastrawdzmem := 0xf

/-- The slope that is compared with, before its shift, and `force_coplanar`. -/
def dzNew (zval rawdzmem dzpix : ℕ) : ℕ × Bool :=
  let precisionFactor := (zval >>> 13) &&& 0xf
  let dzmem := dzDecompress rawdzmem
  if precisionFactor < 3 then
    if dzmem ≠ 0x8000 then
      (deltazComparatorLut (dzpix ||| max (dzmem <<< 1) (16 >>> precisionFactor)), false)
    else (deltazComparatorLut (dzpix ||| 0xffff), true)
  else (deltazComparatorLut (dzpix ||| dzmem), false)

def zCompare (modes : ZModes) (shifters : ZShifters) (mem : ZMemory)
    (zcurpixel sz dzpix dzpixenc curpixelCvg curpixelMemcvg : ℕ) : ZOutcome :=
  let sz := sz &&& 0x3ffff
  let overflow := (curpixelMemcvg + curpixelCvg) &&& 8
  if modes.zCompareEn then
    let pair := mem.readPair16 zcurpixel
    let oz := zDecompress pair.1
    let rawdzmem := ((pair.1 &&& 3) <<< 2) ||| pair.2
    let slope := dzNew pair.1 rawdzmem dzpix
    let dznew := slope.1 <<< 3
    let farther : Bool := slope.2 || oz ≤ sz + dznew
    let infront : Bool := sz < oz
    let nearer : Bool := slope.2 || (sz : ℤ) - dznew ≤ oz
    let max : Bool := oz = 0x3ffff
    let covered := max || if overflow ≠ 0 then infront else nearer
    let crossing := infront && farther && overflow ≠ 0
    let dzenc := dzCompress (slope.1 &&& 0xffff)
    let cvgcoeff := ((oz >>> dzenc) - (sz >>> dzenc)) &&& 0xf
    { pass :=
        match modes.zMode with
        | .zmodeOpaque => covered
        | .zmodeInterpenetrating => crossing || covered
        | .zmodeTransparent => infront || max
        | .zmodeDecal => farther && nearer && !max
      blendEn := modes.forceBlend || (overflow = 0 && modes.antialiasEn && farther)
      prewrap := overflow
      curpixelCvg :=
        if modes.zMode = .zmodeInterpenetrating ∧ crossing then
          ((cvgcoeff * curpixelCvg) >>> 3) &&& 0xf
        else curpixelCvg
      shifters := shifters.compare modes dzpixenc rawdzmem }
  else
    { pass := true
      blendEn := modes.forceBlend || (overflow = 0 && modes.antialiasEn)
      prewrap := overflow
      curpixelCvg := curpixelCvg
      shifters := shifters.skip modes dzpixenc }

/-- A pixel of a span, with the functions of its color image. -/
structure ZPixel where
  modes : ZModes
  zcurpixel : ℕ
  sz : ℕ
  dzpix : ℕ
  curpixelCvg : ℕ
  curpixelCvbit : ℕ
  /-- `pixel_color.a`. -/
  combAlpha : ℤ
  /-- `blend_color.a`. -/
  blendAlpha : ℤ
  /-- The random number that a dithered alpha is compared with. -/
  random : ℤ
  /-- The coverage that `fbread1_ptr` finds if images are read. -/
  memoryCvg : ZMemory → ℕ
  /-- `fbwrite_ptr`, with what the comparison says. -/
  fbwrite : ZOutcome → ZMemory → ZMemory

/-- `alpha_compare`. -/
def ZPixel.alphaCompare (d : ZPixel) : Bool :=
  if d.modes.alphaCompareEn then
    decide ((if d.modes.ditherAlphaEn then d.random else d.blendAlpha) ≤ d.combAlpha)
  else true

/-- What `blender_1cycle` returns. -/
def ZPixel.blender1cycle (d : ZPixel) (curpixelCvg : ℕ) : Bool :=
  d.alphaCompare && if d.modes.antialiasEn then curpixelCvg ≠ 0 else d.curpixelCvbit ≠ 0

/-- `curpixel_memcvg`. -/
def ZPixel.curpixelMemcvg (d : ZPixel) (mem : ZMemory) : ℕ :=
  if d.modes.imageReadEn then d.memoryCvg mem else 7

namespace ZMemory

/-- The part of `render_spans_1cycle_complete` that depths go through. -/
def drawPixel (s : ZShifters × ZMemory) (d : ZPixel) : ZShifters × ZMemory :=
  let dzpixenc := dzCompress d.dzpix
  let outcome := zCompare d.modes s.1 s.2 d.zcurpixel d.sz d.dzpix dzpixenc d.curpixelCvg
    (d.curpixelMemcvg s.2)
  (outcome.shifters,
    if outcome.pass && d.blender1cycle outcome.curpixelCvg then
      let mem := d.fbwrite outcome s.2
      if d.modes.zUpdateEn then mem.zStore d.zcurpixel d.sz dzpixenc else mem
    else s.2)

/-- The depth of a pixel, as it is read. -/
def depthAt (mem : ZMemory) (pixel : ℕ) : ℕ := zDecompress (mem.readPair16 pixel).1

/-- `rawdzmem`. -/
def slopeAt (mem : ZMemory) (pixel : ℕ) : ℕ :=
  (((mem.readPair16 pixel).1 &&& 3) <<< 2) ||| (mem.readPair16 pixel).2

end ZMemory

/-- What is left of a depth that is stored. -/
def zRounded (z : ℕ) : ℕ := zDecompress (zComTable (z &&& 0x3ffff))

/-- A pixel that is drawn if it is in front, as far as the depth in memory goes: it is compared, and
    transparent, or opaque with some coverage that the color image does not change; its alpha is not
    compared with a random number. -/
def ZPixel.InFront (d : ZPixel) : Prop :=
  d.modes.zCompareEn = true ∧
    (d.modes.zMode = .zmodeTransparent ∨ d.modes.zMode = .zmodeOpaque ∧
      d.modes.imageReadEn = false ∧ 1 ≤ d.curpixelCvg ∧ d.curpixelCvg ≤ 8) ∧
    (d.modes.alphaCompareEn = true → d.modes.ditherAlphaEn = false)

instance ZPixel.decidableInFront (d : ZPixel) : Decidable d.InFront :=
  inferInstanceAs (Decidable (_ ∧ (_ ∨ _ ∧ _ ∧ _ ∧ _) ∧ _))

/-- The color image of a pixel lies apart from a place. -/
def ZPixel.Apart (d : ZPixel) (place : ℕ) : Prop :=
  ∀ outcome mem, (d.fbwrite outcome mem).readPair16 place = mem.readPair16 place ∧
    (d.fbwrite outcome mem).idxlim16 = mem.idxlim16

/-- A pixel that leaves its depth at a place if it is in front there. -/
def ZPixel.Hits (d : ZPixel) (pixel : ℕ) : Bool :=
  ZMemory.index d.zcurpixel = ZMemory.index pixel && d.blender1cycle d.curpixelCvg &&
    d.modes.zUpdateEn

-- ════════════════════
-- The format
-- ════════════════════

theorem and_1ffc (y : ℕ) : y &&& 0x1ffc = 4 * (y / 4 % 2048) := by
  have hmask : (0x1ffc : ℕ) = 2 ^ 2 * (2 ^ 11 - 1) := rfl
  have hvalue : 4 * (y / 4 % 2048) = 2 ^ 2 * (y / 2 ^ 2 % 2 ^ 11) := rfl
  refine Nat.eq_of_testBit_eq fun j => ?_
  rw [hvalue, hmask, Nat.testBit_and, Nat.testBit_two_pow_mul, Nat.testBit_two_pow_mul,
    Nat.testBit_two_pow_sub_one, Nat.testBit_mod_two_pow, Nat.testBit_div_two_pow]
  by_cases hj : 2 ≤ j
  · rw [Nat.sub_add_cancel hj]
    simp [hj, Bool.and_comm]
  · simp [hj]

theorem or_segment {a : ℕ} (h : a < 0x2000) (k : ℕ) : a ||| 0x2000 * k = 0x2000 * k + a := by
  rw [Nat.or_comm]
  exact (Nat.two_pow_add_eq_or_of_lt (i := 13) h k).symm

theorem segment_eq (y k : ℕ) : (y &&& 0x1ffc) ||| 0x2000 * k = 4 * (2048 * k + y / 4 % 2048) := by
  rw [and_1ffc, or_segment (by omega)]
  omega

/-- The nearest depth of a segment. -/
def zStart (segment : ℕ) : ℕ := (zDecTable segment).2

/-- The distance of the depths of a segment. -/
def zScale (segment : ℕ) : ℕ := 2 ^ (zDecTable segment).1

/-- Segments follow each other, and the last one ends at the farthest depth. -/
theorem zStart_le : ∀ e < 8, ∀ e' < 8, e < e' → zStart e + 2048 * zScale e ≤ zStart e' := by
  decide

theorem zEnd_le : ∀ e < 8, zStart e + 2048 * zScale e ≤ 0x40000 := by
  decide

theorem mantissa_lt {m : ℕ} (hm : m < 2048) (e : ℕ) : m * zScale e < 2048 * zScale e :=
  Nat.mul_lt_mul_of_pos_right hm (Nat.two_pow_pos _)

/-- The depth of a code, by segments. -/
theorem zDecompress_eq {e m : ℕ} (he : e < 8) (hm : m < 2048) :
    zDecompress (4 * (2048 * e + m)) = zStart e + m * zScale e := by
  have hcode : ((4 * (2048 * e + m)) >>> 2) &&& 0x3fff = 2048 * e + m := by
    have hmask : ∀ y, y &&& 0x3fff = y % 2 ^ 14 := fun y => Nat.and_two_pow_sub_one_eq_mod y 14
    rw [hmask, Nat.shiftRight_eq_div_pow]
    omega
  have hexponent : ((2048 * e + m) >>> 11) &&& 7 = e := by
    have hmask : ∀ y, y &&& 7 = y % 2 ^ 3 := fun y => Nat.and_two_pow_sub_one_eq_mod y 3
    rw [hmask, Nat.shiftRight_eq_div_pow]
    omega
  have hmantissa : (2048 * e + m) &&& 0x7ff = m := by
    have hmask : ∀ y, y &&& 0x7ff = y % 2 ^ 11 := fun y => Nat.and_two_pow_sub_one_eq_mod y 11
    rw [hmask]
    omega
  have hmask : ∀ y, y &&& 0x3ffff = y % 2 ^ 18 := fun y => Nat.and_two_pow_sub_one_eq_mod y 18
  have hend := zEnd_le e he
  have hlt := mantissa_lt hm e
  unfold zDecompress zCompleteDecTable
  rw [hcode]
  simp only [hexponent, hmantissa, hmask]
  change (m <<< (zDecTable e).1 + zStart e) % 2 ^ 18 = _
  rw [Nat.shiftLeft_eq, ← zScale, Nat.mod_eq_of_lt (by omega), Nat.add_comm]

/-- The code of a depth, by segments: the depth is not before what the code stands for, and before
    what the next one would. -/
theorem zComTable_segment {z : ℕ} (hz : z < 0x40000) : ∃ e < 8, ∃ m < 2048,
    zComTable z = 4 * (2048 * e + m) ∧ zStart e + m * zScale e ≤ z ∧
      z < zStart e + (m + 1) * zScale e := by
  have hsegment : (z >>> 11) &&& 0x7f = z / 2048 := by
    have hmask : (z >>> 11) &&& 0x7f = (z >>> 11) % 2 ^ 7 := Nat.and_two_pow_sub_one_eq_mod _ 7
    rw [hmask, Nat.shiftRight_eq_div_pow]
    omega
  have hmantissa : ∀ y, y / 4 % 2048 < 2048 := fun y => Nat.mod_lt _ (by decide)
  unfold zComTable
  simp only [hsegment]
  split
  · refine ⟨0, by decide, _, hmantissa (z >>> 4), (and_1ffc _).trans (by omega), ?_⟩
    simp only [zStart, zScale, zDecTable, List.getD_cons_zero, Nat.shiftRight_eq_div_pow]
    omega
  split
  · refine ⟨1, by decide, _, hmantissa (z >>> 3), segment_eq (z >>> 3) 1, ?_⟩
    simp only [zStart, zScale, zDecTable, List.getD_cons_zero, List.getD_cons_succ,
      Nat.shiftRight_eq_div_pow]
    omega
  split
  · refine ⟨2, by decide, _, hmantissa (z >>> 2), segment_eq (z >>> 2) 2, ?_⟩
    simp only [zStart, zScale, zDecTable, List.getD_cons_zero, List.getD_cons_succ,
      Nat.shiftRight_eq_div_pow]
    omega
  split
  · refine ⟨3, by decide, _, hmantissa (z >>> 1), segment_eq (z >>> 1) 3, ?_⟩
    simp only [zStart, zScale, zDecTable, List.getD_cons_zero, List.getD_cons_succ,
      Nat.shiftRight_eq_div_pow]
    omega
  split
  · refine ⟨4, by decide, _, hmantissa z, segment_eq z 4, ?_⟩
    simp only [zStart, zScale, zDecTable, List.getD_cons_zero, List.getD_cons_succ]
    omega
  split
  · refine ⟨5, by decide, _, hmantissa (z <<< 1), segment_eq (z <<< 1) 5, ?_⟩
    simp only [zStart, zScale, zDecTable, List.getD_cons_zero, List.getD_cons_succ,
      Nat.shiftLeft_eq]
    omega
  split
  · refine ⟨6, by decide, _, hmantissa (z <<< 2), segment_eq (z <<< 2) 6, ?_⟩
    simp only [zStart, zScale, zDecTable, List.getD_cons_zero, List.getD_cons_succ,
      Nat.shiftLeft_eq]
    omega
  · refine ⟨7, by decide, _, hmantissa (z <<< 2), segment_eq (z <<< 2) 7, ?_⟩
    simp only [zStart, zScale, zDecTable, List.getD_cons_zero, List.getD_cons_succ,
      Nat.shiftLeft_eq]
    omega

theorem zDecompress_code (zb : ℕ) : zDecompress zb = zDecompress (4 * ((zb >>> 2) &&& 0x3fff)) := by
  have hcode : ((4 * ((zb >>> 2) &&& 0x3fff)) >>> 2) &&& 0x3fff = (zb >>> 2) &&& 0x3fff := by
    have hmask : ∀ y, y &&& 0x3fff = y % 2 ^ 14 := fun y => Nat.and_two_pow_sub_one_eq_mod y 14
    simp only [hmask, Nat.shiftRight_eq_div_pow]
    omega
  unfold zDecompress
  rw [hcode]

theorem code_parts {c : ℕ} (hc : c < 0x4000) : c / 2048 < 8 ∧ 2048 * (c / 2048) + c % 2048 = c :=
  ⟨Nat.div_lt_of_lt_mul hc, Nat.div_add_mod c 2048⟩

/-- **Depths that can be stored**: a code is not behind a depth if it is not above its code. -/
theorem zDecompress_le_iff {z c : ℕ} (hz : z < 0x40000) (hc : c < 0x4000) :
    zDecompress (4 * c) ≤ z ↔ 4 * c ≤ zComTable z := by
  obtain ⟨e, he, m, hm, hcom, hle, hlt⟩ := zComTable_segment hz
  obtain ⟨he', hparts⟩ := code_parts hc
  have hm' : c % 2048 < 2048 := Nat.mod_lt _ (by decide)
  rw [hcom, ← hparts, zDecompress_eq he' hm']
  generalize c / 2048 = e', c % 2048 = m' at he' hm'
  rcases Nat.lt_trichotomy e' e with hbefore | rfl | hbehind
  · have hsegments := zStart_le e' he' e he hbefore
    have hmantissa := mantissa_lt hm' e'
    exact iff_of_true (by omega) (by omega)
  · have hcodes : 4 * (2048 * e' + m') ≤ 4 * (2048 * e' + m) ↔ m' ≤ m := by omega
    rw [hcodes]
    constructor
    · intro h
      have hnext : m' * zScale e' < (m + 1) * zScale e' := by omega
      exact Nat.le_of_lt_succ (Nat.lt_of_mul_lt_mul_right hnext)
    · intro h
      have hmantissas := Nat.mul_le_mul_right (zScale e') h
      omega
  · have hsegments := zStart_le e he e' he' hbehind
    have hmantissa : (m + 1) * zScale e ≤ 2048 * zScale e := Nat.mul_le_mul_right _ hm
    exact iff_of_false (by omega) (by omega)

theorem zDecompress_lt {c c' : ℕ} (h : c < c') (hc' : c' < 0x4000) :
    zDecompress (4 * c) < zDecompress (4 * c') := by
  obtain ⟨he, hparts⟩ := code_parts (h.trans hc')
  obtain ⟨he', hparts'⟩ := code_parts hc'
  have hm : c % 2048 < 2048 := Nat.mod_lt _ (by decide)
  have hm' : c' % 2048 < 2048 := Nat.mod_lt _ (by decide)
  rw [← hparts, ← hparts'] at h ⊢
  rw [zDecompress_eq he hm, zDecompress_eq he' hm']
  generalize c / 2048 = e, c' / 2048 = e', c % 2048 = m, c' % 2048 = m' at *
  rcases eq_or_ne e e' with rfl | hne
  · have hmantissas : m < m' := by omega
    have hproducts : m * zScale e < m' * zScale e :=
      Nat.mul_lt_mul_of_pos_right hmantissas (Nat.two_pow_pos _)
    omega
  · have hsegments := zStart_le e he e' he' (by omega)
    have hmantissa := mantissa_lt hm e
    omega

theorem zDecompress_bound (zb : ℕ) : zDecompress zb < 0x40000 :=
  Nat.lt_succ_of_le Nat.and_le_right

theorem zDecompress_le_zDecompress {c c' : ℕ} (h : c ≤ c') (hc' : c' < 0x4000) :
    zDecompress (4 * c) ≤ zDecompress (4 * c') := by
  rcases h.eq_or_lt with rfl | hlt
  · exact le_rfl
  · exact (zDecompress_lt hlt hc').le

theorem exists_code {z : ℕ} (hz : z < 0x40000) : ∃ k < 0x4000, zComTable z = 4 * k := by
  obtain ⟨e, he, m, hm, hcom, -⟩ := zComTable_segment hz
  exact ⟨2048 * e + m, by omega, hcom⟩

/-- A depth that can be stored is stored as it is. -/
theorem zComTable_zDecompress {c : ℕ} (hc : c < 0x4000) :
    zComTable (zDecompress (4 * c)) = 4 * c := by
  obtain ⟨k, hk, hcode⟩ := exists_code (zDecompress_bound (4 * c))
  have hle := (zDecompress_le_iff (zDecompress_bound (4 * c)) hc).1 le_rfl
  have hge := (zDecompress_le_iff (zDecompress_bound (4 * c)) hk).2 hcode.symm.le
  rw [hcode] at hle ⊢
  by_contra hne
  exact absurd (zDecompress_lt (by omega : c < k) hk) (Nat.not_lt.2 hge)

theorem masked_lt (z : ℕ) : z &&& 0x3ffff < 0x40000 := Nat.lt_succ_of_le Nat.and_le_right

/-- The depth that is left is the greatest of those that can be stored. -/
theorem zRounded_isGreatest (z : ℕ) :
    IsGreatest {d | d ≤ z &&& 0x3ffff ∧ ∃ c < 0x4000, d = zDecompress (4 * c)} (zRounded z) := by
  obtain ⟨k, hk, hcode⟩ := exists_code (masked_lt z)
  have hrounded : zRounded z = zDecompress (4 * k) := congrArg zDecompress hcode
  rw [hrounded]
  refine ⟨⟨(zDecompress_le_iff (masked_lt z) hk).2 hcode.symm.le, k, hk, rfl⟩, ?_⟩
  rintro _ ⟨hle, c, hc, rfl⟩
  have hcodes := (zDecompress_le_iff (masked_lt z) hc).1 hle
  exact zDecompress_le_zDecompress (by omega) hk

theorem dzCompress_lt (value : ℕ) : dzCompress value < 16 := by
  unfold dzCompress
  split_ifs <;> decide

/-- The slope stands below the code. -/
theorem stored_word {z dz : ℕ} (hdz : dz < 16) :
    ∃ k < 0x4000, zComTable (z &&& 0x3ffff) = 4 * k ∧
      zComTable (z &&& 0x3ffff) ||| dz >>> 2 = 4 * k + dz / 4 := by
  obtain ⟨k, hk, hcode⟩ := exists_code (masked_lt z)
  refine ⟨k, hk, hcode, ?_⟩
  rw [hcode, Nat.shiftRight_eq_div_pow]
  exact (Nat.two_pow_add_eq_or_of_lt (i := 2) (by omega) k).symm

-- ════════════════════
-- What is read back
-- ════════════════════

namespace ZMemory

variable {mem : ZMemory} {pixel place : ℕ}

theorem readPair16_writePair16_self (hvalid : index pixel ≤ mem.idxlim16)
    (hplace : index place = index pixel) (rval hval : ℕ) :
    (mem.writePair16 pixel rval hval).readPair16 place = (rval % 0x10000, hval % 0x100) := by
  rw [writePair16, if_pos hvalid, readPair16, hplace]
  simp [hvalid]

theorem readPair16_writePair16_other (hplace : index place ≠ index pixel) (rval hval : ℕ) :
    (mem.writePair16 pixel rval hval).readPair16 place = mem.readPair16 place := by
  have hword : index place ^^^ 1 ≠ index pixel ^^^ 1 := fun h => hplace (Nat.xor_left_inj.1 h)
  unfold writePair16
  split
  · simp [readPair16, hplace, hword]
  · rfl

theorem depthAt_zStore_self (hvalid : index pixel ≤ mem.idxlim16)
    (hplace : index place = index pixel) (z : ℕ) {dz : ℕ} (hdz : dz < 16) :
    (mem.zStore pixel z dz).depthAt place = zRounded z := by
  obtain ⟨k, hk, hcode, hword⟩ := stored_word (z := z) hdz
  have hread : ((4 * k + dz / 4) % 0x10000) >>> 2 &&& 0x3fff = k := by
    have hmask : ∀ y, y &&& 0x3fff = y % 2 ^ 14 := fun y => Nat.and_two_pow_sub_one_eq_mod y 14
    rw [hmask, Nat.shiftRight_eq_div_pow]
    omega
  rw [depthAt, zStore, readPair16_writePair16_self hvalid hplace, hword, zDecompress_code, hread,
    zRounded, hcode]

theorem slopeAt_zStore_self (hvalid : index pixel ≤ mem.idxlim16)
    (hplace : index place = index pixel) (z : ℕ) {dz : ℕ} (hdz : dz < 16) :
    (mem.zStore pixel z dz).slopeAt place = dz := by
  obtain ⟨k, hk, hcode, hword⟩ := stored_word (z := z) hdz
  have hlow : ∀ y, y &&& 3 = y % 2 ^ 2 := fun y => Nat.and_two_pow_sub_one_eq_mod y 2
  rw [slopeAt, zStore, readPair16_writePair16_self hvalid hplace, hword]
  simp only [hlow, Nat.shiftLeft_eq, Nat.mul_comm _ (2 ^ 2)]
  rw [← Nat.two_pow_add_eq_or_of_lt (i := 2) (by omega)]
  omega

theorem depthAt_zStore_other (hplace : index place ≠ index pixel) (z dz : ℕ) :
    (mem.zStore pixel z dz).depthAt place = mem.depthAt place := by
  rw [depthAt, zStore, readPair16_writePair16_other hplace]
  rfl

/-- Past the end of the memory nothing is written, and the nearest depth is read. -/
theorem depthAt_invalid (hvalid : ¬index pixel ≤ mem.idxlim16) : mem.depthAt pixel = 0 := by
  rw [depthAt, readPair16, if_neg hvalid]
  rfl

end ZMemory

/-- **The format**: a pixel is read back with the greatest depth that can be stored and is not
    farther, and with its slope; that depth is stored as it is, and other pixels stay. -/
theorem zStore_read {mem : ZMemory} {pixel : ℕ} (hvalid : ZMemory.index pixel ≤ mem.idxlim16)
    (z : ℕ) {dz : ℕ} (hdz : dz < 16) :
    IsGreatest {d | d ≤ z &&& 0x3ffff ∧ ∃ c < 0x4000, d = zDecompress (4 * c)}
        ((mem.zStore pixel z dz).depthAt pixel) ∧
      (mem.zStore pixel z dz).slopeAt pixel = dz ∧
      (mem.zStore pixel z dz).zStore pixel ((mem.zStore pixel z dz).depthAt pixel) dz =
        mem.zStore pixel z dz ∧
      ∀ place, ZMemory.index place ≠ ZMemory.index pixel →
        (mem.zStore pixel z dz).readPair16 place = mem.readPair16 place := by
  rw [ZMemory.depthAt_zStore_self hvalid rfl z hdz]
  refine ⟨zRounded_isGreatest z, ZMemory.slopeAt_zStore_self hvalid rfl z hdz, ?_,
    fun place hplace => ZMemory.readPair16_writePair16_other hplace _ _⟩
  obtain ⟨k, hk, hcode⟩ := exists_code (masked_lt z)
  have hrounded : zRounded z = zDecompress (4 * k) := congrArg zDecompress hcode
  have hmasked : zRounded z &&& 0x3ffff = zRounded z := by
    have hmask : zRounded z &&& 0x3ffff = zRounded z % 2 ^ 18 := Nat.and_two_pow_sub_one_eq_mod _ 18
    rw [hmask]
    exact Nat.mod_eq_of_lt (zDecompress_bound _)
  have hagain : zComTable (zRounded z &&& 0x3ffff) = zComTable (z &&& 0x3ffff) := by
    rw [hmasked, hrounded, zComTable_zDecompress hk, hcode]
  simp [ZMemory.zStore, hagain, ZMemory.writePair16, hvalid]

/-- The depths of a cleared frame. -/
def clearedDepths : ZMemory := ⟨fun _ => 0xfffc, fun _ => 0, 0x3fffff⟩

theorem zStore_read_slope : (clearedDepths.zStore 5 0x12345 9).slopeAt 5 = 9 :=
  (zStore_read (by decide) 0x12345 (by decide)).2.1

-- ════════════════════
-- Runs
-- ════════════════════

/-- A pixel passes if it is in front or nothing was drawn yet, and keeps its coverage. -/
theorem zCompare_inFront {d : ZPixel} (h : d.InFront) (shifters : ZShifters) (mem : ZMemory)
    (dzpixenc : ℕ) {outcome : ZOutcome}
    (houtcome : outcome = zCompare d.modes shifters mem d.zcurpixel d.sz d.dzpix dzpixenc
      d.curpixelCvg (d.curpixelMemcvg mem)) :
    (outcome.pass = true ↔
      mem.depthAt d.zcurpixel = 0x3ffff ∨ d.sz &&& 0x3ffff < mem.depthAt d.zcurpixel) ∧
      outcome.curpixelCvg = d.curpixelCvg := by
  obtain ⟨henabled, hmode, -⟩ := h
  rw [houtcome]
  unfold zCompare
  rw [if_pos henabled]
  rcases hmode with htransparent | ⟨hsolid, hunread, hsome, hall⟩
  · simp only [htransparent, ZMemory.depthAt]
    simp [or_comm]
  · have hmemcvg : d.curpixelMemcvg mem = 7 := by simp [ZPixel.curpixelMemcvg, hunread]
    have hcovers : (7 + d.curpixelCvg) &&& 8 ≠ 0 := by
      have hoverflow : ∀ cvg ≤ 8, 1 ≤ cvg → (7 + cvg) &&& 8 ≠ 0 := by decide
      exact hoverflow _ hall hsome
    simp only [hsolid, hmemcvg, ZMemory.depthAt]
    simp [hcovers]

namespace ZMemory

theorem zRounded_le_of_lt {z d : ℕ} (h : z &&& 0x3ffff < d) : zRounded z ≤ d :=
  ((zRounded_isGreatest z).1.1).trans h.le

/-- What is read is a depth that can be stored. -/
theorem depthAt_le_zRounded {mem : ZMemory} {pixel z : ℕ}
    (h : mem.depthAt pixel ≤ z &&& 0x3ffff) : mem.depthAt pixel ≤ zRounded z :=
  (zRounded_isGreatest z).2 ⟨h, _, Nat.lt_succ_of_le Nat.and_le_right, zDecompress_code _⟩

/-- A pixel that is drawn if it is in front leaves the nearer depth at its place. -/
theorem depthAt_drawPixel {d : ZPixel} (h : d.InFront) {pixel : ℕ} (hapart : d.Apart pixel)
    (s : ZShifters × ZMemory) :
    (drawPixel s d).2.depthAt pixel =
      if d.Hits pixel then min (s.2.depthAt pixel) (zRounded d.sz) else s.2.depthAt pixel := by
  generalize houtcome : zCompare d.modes s.1 s.2 d.zcurpixel d.sz d.dzpix (dzCompress d.dzpix)
    d.curpixelCvg (d.curpixelMemcvg s.2) = outcome
  obtain ⟨hpass, hcvg⟩ := zCompare_inFront h s.1 s.2 (dzCompress d.dzpix) houtcome.symm
  obtain ⟨hread, hlimit⟩ := hapart outcome s.2
  have hwritten : (d.fbwrite outcome s.2).depthAt pixel = s.2.depthAt pixel := by
    rw [depthAt, depthAt, hread]
  have hdraw : (drawPixel s d).2 =
      if outcome.pass && d.blender1cycle d.curpixelCvg then
        if d.modes.zUpdateEn then (d.fbwrite outcome s.2).zStore d.zcurpixel d.sz
          (dzCompress d.dzpix)
        else d.fbwrite outcome s.2
      else s.2 := by
    rw [← hcvg, ← houtcome]
    rfl
  rw [hdraw]
  by_cases hhits : d.Hits pixel = true
  · rw [if_pos hhits]
    simp only [ZPixel.Hits, Bool.and_eq_true, decide_eq_true_eq] at hhits
    obtain ⟨⟨hplace, hkept⟩, hupdate⟩ := hhits
    have hsame : s.2.depthAt d.zcurpixel = s.2.depthAt pixel := by
      rw [depthAt, depthAt, readPair16, readPair16, hplace]
    rw [hsame] at hpass
    rw [hkept, hupdate, Bool.and_true, if_pos rfl]
    by_cases hfront : s.2.depthAt pixel = 0x3ffff ∨ d.sz &&& 0x3ffff < s.2.depthAt pixel
    · rw [if_pos (hpass.2 hfront)]
      have hle : zRounded d.sz ≤ s.2.depthAt pixel := by
        rcases hfront with hfar | hlt
        · exact hfar.symm ▸ Nat.le_of_lt_succ (zDecompress_bound _)
        · exact zRounded_le_of_lt hlt
      have hvalid : index d.zcurpixel ≤ s.2.idxlim16 := by
        by_contra hinvalid
        rw [hplace] at hinvalid
        rw [depthAt_invalid hinvalid] at hfront
        omega
      rw [Nat.min_eq_right hle]
      exact depthAt_zStore_self (hlimit.symm ▸ hvalid) hplace.symm d.sz (dzCompress_lt d.dzpix)
    · rw [if_neg fun htrue => hfront (hpass.1 htrue)]
      rw [not_or, Nat.not_lt] at hfront
      exact (Nat.min_eq_left (depthAt_le_zRounded hfront.2)).symm
  · rw [if_neg hhits]
    split
    next hdrawn =>
      split
      next hupdate =>
        have hplace : index pixel ≠ index d.zcurpixel := by
          rintro hplace
          refine hhits ?_
          rw [Bool.and_eq_true] at hdrawn
          simp [ZPixel.Hits, hplace, hdrawn.2, hupdate]
        rw [depthAt_zStore_other hplace, hwritten]
      next => exact hwritten
    next => rfl

theorem depthAt_foldl {draws : List ZPixel} {pixel : ℕ}
    (h : ∀ d ∈ draws, d.InFront ∧ d.Apart pixel) (s : ZShifters × ZMemory) :
    (draws.foldl drawPixel s).2.depthAt pixel =
      (draws.filter fun d => d.Hits pixel).foldl (fun z d => min z (zRounded d.sz))
        (s.2.depthAt pixel) := by
  induction draws generalizing s with
  | nil => rfl
  | cons d draws ih =>
    obtain ⟨hfront, hapart⟩ := h d List.mem_cons_self
    rw [List.foldl_cons, ih (fun d' hd' => h d' (List.mem_cons_of_mem d hd')),
      depthAt_drawPixel hfront hapart, List.filter_cons]
    split <;> rfl

end ZMemory

/-- **Hidden surfaces**: after any run of pixels that are drawn if they are in front, a place apart
    from their color images holds the nearest of what was there and what was drawn, as it is stored,
    and the order of the pixels does not matter. -/
theorem depths_of_draws {draws : List ZPixel} {pixel : ℕ}
    (h : ∀ d ∈ draws, d.InFront ∧ d.Apart pixel) (s : ZShifters × ZMemory) :
    (draws.foldl ZMemory.drawPixel s).2.depthAt pixel =
        (draws.filter fun d => d.Hits pixel).foldl (fun z d => min z (zRounded d.sz))
          (s.2.depthAt pixel) ∧
      ∀ draws' : List ZPixel, draws'.Perm draws →
        (draws'.foldl ZMemory.drawPixel s).2.depthAt pixel =
          (draws.foldl ZMemory.drawPixel s).2.depthAt pixel := by
  refine ⟨ZMemory.depthAt_foldl h s, fun draws' hperm => ?_⟩
  rw [ZMemory.depthAt_foldl h, ZMemory.depthAt_foldl fun d hd => h d (hperm.mem_iff.1 hd)]
  refine (hperm.filter _).foldl_eq' (fun d _ d' _ z => ?_) _
  rw [Nat.min_assoc, Nat.min_assoc, Nat.min_comm (zRounded d.sz)]

/-- A pixel of a surface that covers all of what is behind it, with its color at another place. -/
def solidPixel (sz : ℕ) : ZPixel where
  modes := ⟨true, true, false, true, false, false, .zmodeOpaque, false, false, false⟩
  zcurpixel := 5
  sz := sz
  dzpix := 1
  curpixelCvg := 8
  curpixelCvbit := 1
  combAlpha := 0xff
  blendAlpha := 0
  random := 0
  memoryCvg := fun _ => 0
  fbwrite := fun _ mem => mem.writePair16 0x1000 0xf801 3

theorem solidPixel_apart (sz : ℕ) : (solidPixel sz).Apart 5 := by
  intro outcome mem
  refine ⟨ZMemory.readPair16_writePair16_other (by decide) _ _, ?_⟩
  change (mem.writePair16 _ _ _).idxlim16 = _
  unfold ZMemory.writePair16
  split <;> rfl

theorem depths_of_draws_twoPixels :
    ([solidPixel 0x30000, solidPixel 0x1000].foldl ZMemory.drawPixel
      (⟨0, 0, 0, 0, 0⟩, clearedDepths)).2.depthAt 5 = 0x1000 := by
  have hpixels : ∀ d ∈ [solidPixel 0x30000, solidPixel 0x1000], d.InFront ∧ d.Apart 5 := by
    simp only [List.forall_mem_cons]
    exact ⟨⟨by decide, solidPixel_apart _⟩, ⟨by decide, solidPixel_apart _⟩, fun _ h => nomatch h⟩
  exact (depths_of_draws hpixels (⟨0, 0, 0, 0, 0⟩, clearedDepths)).1.trans (by decide)

end Mupen64plus
