import Mupen64plus.GLideN64.TmemAgreement

/-!
# Tiles that do not load

For each part of the condition under which loads and fetches agree, an image of which a texel is
fetched wrong where that part does not hold. Most images have one byte set.

## Main results

- `TileLoad.agrees_iff`
-/

namespace Mupen64plus

namespace TileLoad

variable {t : TileLoad} {size : RdramSize} {frameBufferTexture : Bool} {clampWidth : BitVec 16}
  {rdram : ℕ → BitVec 8} {tmem : Tmem}

theorem fetchTexel_zero (tx ty : ℕ) : t.fetchTexel clampWidth (fun _ => 0) tx ty = 0 := by
  unfold fetchTexel
  cases t.size with
  | bits4 =>
    dsimp only [get4BitPaletteColor]
    split <;> decide
  | bits8 => rfl
  | bits16 =>
    simp only [get16BitColor, Tmem.half16]
    decide
  | bits32 =>
    simp only [fetchTexel32, Tmem.half16]
    decide

theorem imageTexel_ones (s row : ℕ) : t.imageTexel (fun _ => 0xff) s row ≠ 0 := by
  unfold imageTexel imageByte
  cases t.size with
  | bits4 =>
    dsimp only
    split <;> decide
  | bits8 => dsimp only; decide
  | bits16 => dsimp only; decide
  | bits32 => dsimp only; decide

/-- TMEM that is left as it was does not agree with every image. -/
theorem not_agrees_of_unloaded
    (h : t.load (fun _ => 0xff) size frameBufferTexture (fun _ => 0) = fun _ => 0) :
    ¬t.Agrees size frameBufferTexture clampWidth (fun _ => 0xff) (fun _ => 0) := by
  intro hagrees
  have hfirst := hagrees 0 t.columns_pos 0 t.rows_pos
  rw [h, fetchTexel_zero] at hfirst
  exact imageTexel_ones _ _ hfirst.symm

/-- RDRAM with one byte set. -/
def oneByte (address : ℕ) (v : BitVec 8) : ℕ → BitVec 8 :=
  fun a => if a ^^^ 3 = address then v else 0

theorem imageByte_oneByte (address a : ℕ) (v : BitVec 8) :
    imageByte (oneByte address v) a = if a = address then v else 0 := by
  unfold imageByte oneByte
  rw [LowXor.xor_three_xor_three]

/-- A byte of an image without high bits. -/
theorem rowByte_low {last y j : ℕ} :
    t.rowByte (fun _ => 0x0f) last (fun _ => 0) y j >>> 4 = 0 := by
  unfold rowByte
  dsimp only
  generalize (if j / 8 < t.swapped last y then j ^^^ 4 else j) = k
  split
  · exact (by decide : (0x0f : BitVec 8) >>> 4 = 0)
  · decide

/-- A byte of a row that is not copied, or not exchanged, is not the one of the image. -/
theorem rowByte_oneByte {last y j : ℕ}
    (hmissed : ¬(j < t.numBytes last (t.rowAddress y) ∧ (y % 2 = 1 → j < 8 * (t.bpr / 8)))) :
    t.rowByte (oneByte (t.rowAddress y + j) 0xff) last (fun _ => 0) y (j ^^^ 4 * (y % 2)) = 0 := by
  unfold rowByte
  dsimp only
  rw [imageByte_oneByte]
  have hback : j ^^^ 4 ^^^ 4 = j := by
    rw [Nat.xor_assoc, Nat.xor_self, Nat.xor_zero]
  have hfour := LowXor.xor_four j
  have hcopied : t.copied last y ≤ t.numBytes last (t.rowAddress y) := by
    unfold copied
    split
    · exact le_rfl
    · exact Nat.zero_le _
  have hswapped : t.swapped last y ≤ t.bpr / 8 := by
    unfold swapped
    split
    · rw [Nat.shiftRight_eq_div_pow]
    · exact Nat.zero_le _
  rcases Nat.mod_two_eq_zero_or_one y with heven | hodd
  · have hnone : t.swapped last y = 0 := if_neg (by omega)
    rw [heven, Nat.mul_zero, Nat.xor_zero, hnone, if_neg (Nat.not_lt_zero _)]
    split
    · next hin =>
      exfalso
      omega
    · rfl
  · rw [hodd, Nat.mul_one]
    by_cases hexchanged : (j ^^^ 4) / 8 < t.swapped last y
    · rw [if_pos hexchanged, hback]
      split
      · next hin =>
        exfalso
        omega
      · rfl
    · rw [if_neg hexchanged]
      split
      · rw [if_neg (by omega)]
      · rfl

theorem append_ne_of_high {a b c d : BitVec 8} (h : a ≠ c) :
    (a ++ b).setWidth 32 ≠ (c ++ d).setWidth 32 := by
  intro heq
  have hhigh := congrArg (fun v : BitVec 32 => (v.setWidth 16).extractLsb' 8 8) heq
  simp only [BitVec.setWidth_setWidth_of_le _ (show 16 ≤ 32 by decide), BitVec.setWidth_eq,
    BitVec.extractLsb'_append_eq_left] at hhigh
  exact h hhigh

theorem append_ne_of_low {a b c d : BitVec 8} (h : b ≠ d) :
    (a ++ b).setWidth 32 ≠ (c ++ d).setWidth 32 := by
  intro heq
  have hlow := congrArg (fun v : BitVec 32 => (v.setWidth 16).extractLsb' 0 8) heq
  simp only [BitVec.setWidth_setWidth_of_le _ (show 16 ≤ 32 by decide), BitVec.setWidth_eq,
    BitVec.extractLsb'_append_eq_right] at hlow
  exact h hlow

/-- The last texel of a row, where the last byte of the row is missing. -/
theorem fetch_last (hregion : t.Region size) (hsize : t.size ≠ .bits32)
    (heven : t.size = .bits4 → t.uls.toNat % 2 = 0) {m : Tmem} {y : ℕ} (hy : y < t.rows)
    (hzero : m (BitVec.ofNat 12 (t.bytePlace y (t.rowBytes - 1))) = 0) :
    t.fetchTexel clampWidth m (t.columns - 1) y ≠
      t.imageTexel (oneByte (t.rowAddress y + (t.rowBytes - 1)) 0xff)
        (t.uls.toNat + (t.columns - 1)) (t.ult.toNat + y) := by
  have hpos := t.columns_pos
  unfold fetchTexel imageTexel
  cases hcase : t.size with
  | bits4 =>
    have hbytes := rowBytes_bits4 hcase
    have hlast : (t.columns - 1) / 2 = t.rowBytes - 1 := by omega
    dsimp only
    rw [get4BitPaletteColor, fetch_byte hregion hsize hy, Nat.shiftRight_eq_div_pow, pow_one,
      texelAddress_bits4 hcase (heven hcase), hlast, hzero, imageByte_oneByte, if_pos rfl]
    split <;> split <;> decide
  | bits8 =>
    have hbytes := rowBytes_bits8 hcase
    dsimp only
    rw [get8BitPaletteColor, fetch_byte hregion hsize hy, texelAddress_bits8 hcase, ← hbytes, hzero,
      imageByte_oneByte, if_pos rfl]
    decide
  | bits16 =>
    have hbytes := rowBytes_bits16 hcase
    have hlast : 2 * (t.columns - 1) + 1 = t.rowBytes - 1 := by omega
    have haddress : t.rowAddress y + 2 * (t.columns - 1) + 1 =
        t.rowAddress y + (t.rowBytes - 1) := by omega
    dsimp only
    rw [fetch_half hregion hcase (by omega) hy, hlast, hzero, texelAddress_bits16 hcase, haddress,
      imageByte_oneByte, if_pos rfl]
    exact append_ne_of_high (by decide)
  | bits32 => exact absurd hcase hsize

/-- The first texel, where its first byte is overwritten. -/
theorem fetch_first (hregion : t.Region size) (hsize : t.size ≠ .bits32)
    (heven : t.size = .bits4 → t.uls.toNat % 2 = 0) {m : Tmem}
    (hzero : m (BitVec.ofNat 12 (t.bytePlace 0 0)) = 0) :
    t.fetchTexel clampWidth m 0 0 ≠
      t.imageTexel (oneByte (t.rowAddress 0) 0xff) (t.uls.toNat + 0) (t.ult.toNat + 0) := by
  unfold fetchTexel imageTexel
  cases hcase : t.size with
  | bits4 =>
    have huls := heven hcase
    dsimp only
    rw [get4BitPaletteColor, fetch_byte hregion hsize t.rows_pos, show (0 : ℕ) >>> 1 = 0 from rfl,
      hzero, texelAddress_bits4 hcase huls, imageByte_oneByte, Nat.zero_div,
      if_pos (Nat.add_zero _), if_neg (by decide), if_neg (by omega)]
    decide
  | bits8 =>
    dsimp only
    rw [get8BitPaletteColor, fetch_byte hregion hsize t.rows_pos, hzero, texelAddress_bits8 hcase,
      imageByte_oneByte, if_pos (Nat.add_zero _)]
    decide
  | bits16 =>
    dsimp only
    rw [fetch_half hregion hcase t.columns_pos t.rows_pos, Nat.mul_zero, hzero,
      texelAddress_bits16 hcase, imageByte_oneByte, imageByte_oneByte, Nat.mul_zero,
      if_pos (c := t.rowAddress 0 + 0 = t.rowAddress 0) rfl]
    exact append_ne_of_low (by decide)
  | bits32 => exact absurd hcase hsize

/-- A tile of 4 bits from an odd column. -/
theorem fetch_odd (hregion : t.Region size) (hcase : t.size = .bits4) (hodd : t.uls.toNat % 2 = 1)
    {m : Tmem} (hbyte : m (BitVec.ofNat 12 (t.bytePlace 0 0)) >>> 4 = 0) :
    t.fetchTexel clampWidth m 0 0 ≠ t.imageTexel (fun _ => 0x0f) t.uls.toNat t.ult.toNat := by
  have hsize : t.size ≠ .bits32 := by
    rw [hcase]
    decide
  have hplace := fetch_byte hregion hsize t.rows_pos 0
  unfold fetchTexel imageTexel
  rw [hcase]
  dsimp only
  rw [if_pos hodd, if_neg (by decide), get4BitPaletteColor]
  rw [show (0 : ℕ) >>> 1 = 0 from rfl, hplace, hbyte]
  change BitVec.setWidth 32 (0 : BitVec 8) ≠ BitVec.setWidth 32 ((0x0f : BitVec 8) &&& 0x0F)
  decide

/-- A half word that is no texel's. -/
theorem loadRows32_frame {rows m : ℕ} (h : t.Placed32 t.columns rows) (hm : m < 1024)
    (hout : ∀ y, ¬(t.slot y 0 ≤ m ^^^ rowXor y ∧ m ^^^ rowXor y < t.slot y t.columns)) {y n : ℕ}
    (hn : y + n = rows) (bank : BitVec 1) (tmem : Tmem) :
    (t.loadRows32 rdram y n tmem).half16 (bank ++ BitVec.ofNat 10 m) =
      tmem.half16 (bank ++ BitVec.ofNat 10 m) := by
  induction n generalizing y tmem with
  | zero => rw [loadRows32]
  | succ n ih =>
    have hslot := h.slot_le (y := y) (by omega)
    have htline : t.tmem.toNat <<< 2 + t.line.toNat <<< 2 * y = t.slot y 0 := by
      unfold slot
      rw [Nat.shiftLeft_eq, Nat.shiftLeft_eq, Nat.mul_add, ← Nat.mul_assoc, Nat.add_zero,
        Nat.mul_comm t.tmem.toNat, Nat.mul_comm t.line.toNat (2 ^ 2)]
    have hzero : t.slot y 0 % 4 = 0 := Nat.mul_mod_right _ _
    have hcolumns : t.slot y t.columns = t.slot y 0 + (t.lrs.toNat - t.uls.toNat + 1) := rfl
    rw [loadRows32, ih (by omega), htline, show (if y % 2 = 1 then 3 else 1) = rowXor y from rfl,
      loadTexels32_apply (rowXor_lt y) hzero hm (by omega), if_neg]
    have hnot := hout y
    omega

/-- A texel of 32 bits in an image that starts inside of a word. -/
theorem fetch_misaligned (hsize : t.size = .bits32) (haligned : t.imageAddress % 4 ≠ 0) {m : Tmem}
    (hloaded : ∀ bank : BitVec 1, m.half16 (bank ++ BitVec.ofNat 10 (t.slot 0 0 ^^^ rowXor 0)) =
      bankHalf bank (rdramWord (oneByte (4 * t.texelWord 0 0) 0xff) (t.texelWord 0 0))) :
    t.fetchTexel clampWidth m 0 0 ≠
      t.imageTexel (oneByte (4 * t.texelWord 0 0) 0xff) t.uls.toNat t.ult.toNat := by
  have hbpl : t.imageBpl = 4 * t.imageWidth := by
    rw [imageBpl, hsize, TexelSize.code, Nat.shiftLeft_eq, Nat.shiftRight_eq_div_pow]
    omega
  have haddress : t.imageAddress + t.ult.toNat * t.imageBpl + 4 * t.uls.toNat =
      4 * t.texelWord 0 0 + t.imageAddress % 4 := by
    have hrow : t.ult.toNat * (4 * t.imageWidth) = 4 * ((0 + t.ult.toNat) * t.imageWidth) := by ring
    rw [texelWord, hbpl, hrow, Nat.shiftRight_eq_div_pow]
    omega
  have hword : rdramWord (oneByte (4 * t.texelWord 0 0) 0xff) (t.texelWord 0 0) = 0xff000000 := by
    have hbyte (b : ℕ) (hb : b < 4) : oneByte (4 * t.texelWord 0 0) 0xff (4 * t.texelWord 0 0 + b) =
        if b = 3 then 0xff else 0 := by
      unfold oneByte
      rw [LowXor.xor_three]
      by_cases hthree : b = 3
      · rw [if_pos hthree, if_pos (by omega)]
      · rw [if_neg hthree, if_neg (by omega)]
    rw [rdramWord, hbyte 3 (by decide), hbyte 2 (by decide), hbyte 1 (by decide),
      show oneByte _ _ (4 * t.texelWord 0 0) = _ from hbyte 0 (by decide)]
    decide
  unfold fetchTexel imageTexel
  rw [hsize]
  dsimp only
  rw [fetchTexel32, fetch_slot (Or.inl rfl), hloaded, hloaded, hword, haddress]
  simp only [imageByte_oneByte]
  rw [if_neg (by omega), if_neg (by omega), if_neg (by omega), if_neg (by omega)]
  decide

/-- Without a width to clamp at the lines of 32 bit texels are two half words too long. -/
theorem line32_zero : t.line32 0 = 4 * t.line.toNat + 2 := by
  have hzero : (0 : BitVec 16).toNat = 0 := rfl
  unfold line32
  rw [hzero]
  dsimp only
  split <;> split <;> omega

/-- The third half word of the second row is free where the rows are narrow. -/
theorem row_free (hline : 0 < t.line.toNat) (hnarrow : t.columns ≤ 2) (y : ℕ) :
    ¬(t.slot y 0 ≤ (t.slot 1 0 + 2) ^^^ rowXor 1 ^^^ rowXor y ∧
      (t.slot 1 0 + 2) ^^^ rowXor 1 ^^^ rowXor y < t.slot y t.columns) := by
  have hfirst : t.slot 1 0 = 4 * (t.tmem.toNat + t.line.toNat * 1) := rfl
  have hrow : t.slot y 0 = 4 * (t.tmem.toNat + t.line.toNat * y) := rfl
  have hend : t.slot y t.columns = 4 * (t.tmem.toNat + t.line.toNat * y) + t.columns := rfl
  by_cases hown : y = 1
  · subst hown
    have hback : (t.slot 1 0 + 2) ^^^ rowXor 1 ^^^ rowXor 1 = t.slot 1 0 + 2 := by
      rw [Nat.xor_assoc, Nat.xor_self, Nat.xor_zero]
    rw [hback]
    omega
  · have hblock := xor_low_div (rowXor_lt y) ((t.slot 1 0 + 2) ^^^ rowXor 1)
    have hblock' := xor_low_div (rowXor_lt 1) (t.slot 1 0 + 2)
    have hapart : t.line.toNat * y + t.line.toNat ≤ t.line.toNat * 1 ∨
        t.line.toNat * 1 + t.line.toNat ≤ t.line.toNat * y := by
      rcases Nat.lt_or_gt_of_ne hown with hlt | hlt
      · exact Or.inl (Nat.mul_le_mul_left t.line.toNat hlt)
      · exact Or.inr (Nat.mul_le_mul_left t.line.toNat hlt)
    omega

/-- The first texel of the second row, without a width to clamp at. -/
theorem fetch_unclamped (hregion : t.Region size) (hsize : t.size = .bits32)
    (hline : t.line ≠ 0) (haligned : t.imageAddress % 4 = 0) (hrows : 1 < t.rows) :
    t.fetchTexel 0 (t.loadRows32 (fun a => if a / 4 = t.texelWord 1 0 then 0xff else 0) 0 t.rows
        fun _ => 0) 0 1 ≠
      t.imageTexel (fun a => if a / 4 = t.texelWord 1 0 then 0xff else 0) t.uls.toNat
        (t.ult.toNat + 1) := by
  have hplaced := placed32 hregion hsize
  have hpos := line_pos hline
  have hslot := hplaced.slot_le hrows
  have hcolumns := t.columns_pos
  have hzero : t.slot 1 0 % 4 = 0 := Nat.mul_mod_right _ _
  have hadd (i : ℕ) : t.slot 1 i = t.slot 1 0 + i := rfl
  have hm : (t.slot 1 0 + 2) ^^^ rowXor 1 < 4 * 256 := by
    refine xor_low_lt (rowXor_lt 1) ?_
    rw [hadd] at hslot
    omega
  have hback : (t.slot 1 0 + 2) ^^^ rowXor 1 ^^^ rowXor 1 = t.slot 1 0 + 2 := by
    rw [Nat.xor_assoc, Nat.xor_self, Nat.xor_zero]
  generalize hrdram :
    (fun a : ℕ => if a / 4 = t.texelWord 1 0 then (0xff : BitVec 8) else 0) = rdram
  have hbyte (w b : ℕ) (hb : b < 4) : rdram (4 * w + b) =
      if w = t.texelWord 1 0 then 0xff else 0 := by
    have hdiv : (4 * w + b) / 4 = w := by omega
    rw [← hrdram]
    dsimp only
    rw [hdiv]
  have hhalf (bank : BitVec 1) : (t.loadRows32 rdram 0 t.rows fun _ => 0).half16
      (bank ++ BitVec.ofNat 10 ((t.slot 1 0 + 2) ^^^ rowXor 1)) = 0 := by
    by_cases hwide : 2 < t.columns
    · have hother : t.texelWord 1 2 ≠ t.texelWord 1 0 := by
        unfold texelWord
        omega
      rw [show t.slot 1 0 + 2 = t.slot 1 2 from rfl,
        loadRows32_apply hplaced hrows hwide (Nat.zero_add _), if_pos (Nat.zero_le 1), rdramWord,
        hbyte _ 3 (by decide), hbyte _ 2 (by decide), hbyte _ 1 (by decide),
        show rdram (4 * t.texelWord 1 2) = _ from hbyte (t.texelWord 1 2) 0 (by decide),
        if_neg hother]
      rcases BitVec.eq_zero_or_eq_one bank with rfl | rfl <;> decide
    · rw [loadRows32_frame hplaced hm (row_free hpos (Nat.not_lt.mp hwide)) (Nat.zero_add _)]
      exact (by decide : (0 : BitVec 8) ++ (0 : BitVec 8) = (0 : BitVec 16))
  have htaddr : BitVec.ofInt 10 (t.tmem.toNat * 4 + t.line32 0 * (1 : ℕ) + (0 : ℕ)) ^^^
      (if 1 % 2 = 1 then 3 else 1) = BitVec.ofNat 10 ((t.slot 1 0 + 2) ^^^ rowXor 1) := by
    have hint : (t.tmem.toNat * 4 + t.line32 0 * (1 : ℕ) + (0 : ℕ) : ℤ) =
        (t.slot 1 0 + 2 : ℕ) := by
      rw [line32_zero, slot]
      push_cast
      ring
    rw [hint, ofInt_rowXor]
  have hbpl : t.imageBpl = 4 * t.imageWidth := by
    rw [imageBpl, hsize, TexelSize.code, Nat.shiftLeft_eq, Nat.shiftRight_eq_div_pow]
    omega
  have haddress : t.imageAddress + (t.ult.toNat + 1) * t.imageBpl + 4 * t.uls.toNat =
      4 * t.texelWord 1 0 := by
    have hrow : (t.ult.toNat + 1) * (4 * t.imageWidth) =
        4 * ((1 + t.ult.toNat) * t.imageWidth) := by ring
    rw [texelWord, hbpl, hrow, Nat.shiftRight_eq_div_pow]
    omega
  have himage (b : ℕ) (hb : b < 4) : imageByte rdram (4 * t.texelWord 1 0 + b) = 0xff := by
    have hxor : (4 * t.texelWord 1 0 + b) ^^^ 3 = 4 * t.texelWord 1 0 + (3 - b) := by
      rw [LowXor.xor_three]
      omega
    rw [imageByte, hxor, hbyte _ _ (by omega), if_pos rfl]
  unfold fetchTexel imageTexel
  rw [hsize]
  dsimp only
  rw [fetchTexel32, htaddr, hhalf, hhalf, haddress, himage 3 (by decide), himage 2 (by decide),
    himage 1 (by decide), show imageByte rdram (4 * t.texelWord 1 0) = _ from himage 0 (by decide)]
  decide

-- ════════════════════════════════════════════════════════════════════════
-- Exactly the tiles that load
-- ════════════════════════════════════════════════════════════════════════

/-- What comes to the first byte, where the copy of the last row comes round to it. -/
theorem first_wrapped (hregion : t.Region size) (hline : t.line ≠ 0) (hsize : t.size ≠ .bits32)
    (hwraps : ¬t.FirstRowKept size.last.toNat) :
    ∃ a, t.rowAddress 0 < a ∧ ∀ rdram tmem,
      t.loadRows rdram size.last.toNat 0 t.address t.tmem.toNat t.height tmem
        (BitVec.ofNat 12 (t.place 0 0)) = imageByte rdram a := by
  have hplaced := placed hregion hline hsize
  have hpos := line_pos hline
  have hunits := t.rowUnits_pos
  unfold FirstRowKept at hwraps
  push Not at hwraps
  obtain ⟨y, hy, hwraps⟩ := hwraps
  have hinside := hplaced.row_inside hy
  have hlast : t.rowAddress y < size.last.toNat := by
    by_contra hend
    unfold numBytes bpl at hwraps
    rw [Nat.shiftLeft_eq] at hwraps
    split at hwraps <;> omega
  have hlastRow : y + 1 = t.height := by
    by_contra hother
    have hnum := hplaced.numBytes_le (by omega) size.last.toNat (t.rowAddress y)
    have hnext := hplaced.row_inside (y := y + 1) (by omega)
    rw [Nat.mul_add, Nat.mul_one] at hnext
    omega
  have hmono : t.rowAddress 0 ≤ t.rowAddress y := rowAddress_mono (Nat.zero_le _)
  refine ⟨t.rowAddress y + (4096 - 8 * (t.line.toNat * y)), by omega, ?_⟩
  intro rdram tmem
  rw [← rowAddress_zero]
  exact loadRows_wrapped hplaced hlastRow hunits hlast hwraps

variable (hagrees : ∀ rdram tmem, t.Agrees size frameBufferTexture clampWidth rdram tmem)

include hagrees

theorem line_of_agrees : t.line ≠ 0 := by
  intro hline
  refine not_agrees_of_unloaded ?_ (hagrees _ _)
  unfold load
  rw [if_pos hline, ite_self]

theorem loaded_of_agrees : frameBufferTexture = false := by
  cases hloaded : frameBufferTexture with
  | false => rfl
  | true =>
    subst hloaded
    refine absurd (hagrees _ _) (not_agrees_of_unloaded ?_)
    unfold load
    rw [if_pos rfl, ite_self, ite_self]

theorem start_of_agrees : t.rowAddress 0 < size.last.toNat := by
  by_contra hend
  rw [rowAddress_zero] at hend
  refine not_agrees_of_unloaded ?_ (hagrees _ _)
  unfold load
  rw [if_pos (Nat.not_lt.mp hend), ite_self, ite_self, ite_self]

/-- The texels that are fetched from the rows. -/
theorem fetch_of_agrees (hregion : t.Region size) (hsize : t.size ≠ .bits32) (rdram : ℕ → BitVec 8)
    (tmem : Tmem) {tx ty : ℕ} (htx : tx < t.columns) (hty : ty < t.rows) :
    t.fetchTexel clampWidth
        (t.loadRows rdram size.last.toNat 0 t.address t.tmem.toNat t.height tmem) tx ty =
      t.imageTexel rdram (t.uls.toNat + tx) (t.ult.toNat + ty) := by
  have hfetched := hagrees rdram tmem tx htx ty hty
  rw [loaded_of_agrees hagrees,
    load_small hregion (line_of_agrees hagrees) hsize (start_of_agrees hagrees)] at hfetched
  exact hfetched

theorem even_of_agrees (hregion : t.Region size) (hcase : t.size = .bits4) :
    t.uls.toNat % 2 = 0 := by
  have hline := line_of_agrees hagrees
  have hsize : t.size ≠ .bits32 := by
    rw [hcase]
    decide
  by_contra hodd
  refine fetch_odd hregion hcase (by omega) ?_
    (fetch_of_agrees hagrees hregion hsize (fun _ => 0x0f) (fun _ => 0) t.columns_pos t.rows_pos)
  by_cases hkept : t.FirstRowKept size.last.toNat
  · rw [loadRows_place hregion hline hsize hkept t.rows_pos t.rowBytes_pos]
    exact rowByte_low
  · obtain ⟨a, -, hfirst⟩ := first_wrapped hregion hline hsize hkept
    have hplace : t.bytePlace 0 0 = t.place 0 0 := rfl
    rw [hplace, hfirst]
    exact (by decide : (0x0f : BitVec 8) >>> 4 = 0)

theorem kept_of_agrees (hregion : t.Region size) (hsize : t.size ≠ .bits32) :
    t.FirstRowKept size.last.toNat := by
  by_contra hwraps
  obtain ⟨a, hbehind, hfirst⟩ := first_wrapped hregion (line_of_agrees hagrees) hsize hwraps
  refine fetch_first hregion hsize (even_of_agrees hagrees hregion) ?_
    (fetch_of_agrees hagrees hregion hsize (oneByte (t.rowAddress 0) 0xff) (fun _ => 0)
      t.columns_pos t.rows_pos)
  have hplace : t.bytePlace 0 0 = t.place 0 0 := rfl
  rw [hplace, hfirst, imageByte_oneByte, if_neg (by omega)]

theorem rowLoads_of_agrees (hregion : t.Region size) (hsize : t.size ≠ .bits32) {y : ℕ}
    (hy : y < t.rows) : t.RowLoads size.last.toNat y := by
  have hcolumns := t.columns_pos
  have hbytes := t.rowBytes_pos
  by_contra hmissed
  refine fetch_last hregion hsize (even_of_agrees hagrees hregion) hy ?_
    (fetch_of_agrees hagrees hregion hsize
      (oneByte (t.rowAddress y + (t.rowBytes - 1)) 0xff) (fun _ => 0) (by omega) hy)
  rw [loadRows_place hregion (line_of_agrees hagrees) hsize
    (kept_of_agrees hagrees hregion hsize) hy (by omega)]
  refine rowByte_oneByte ?_
  rintro ⟨hcopied, hswapped⟩
  refine hmissed ⟨by omega, fun hodd => ?_⟩
  have hin := hswapped hodd
  omega

/-- The texels that are fetched from the rows of 32 bit texels. -/
theorem fetch32_of_agrees (hregion : t.Region size) (hsize : t.size = .bits32)
    (rdram : ℕ → BitVec 8) (tmem : Tmem) {tx ty : ℕ} (htx : tx < t.columns) (hty : ty < t.rows) :
    t.fetchTexel clampWidth (t.loadRows32 rdram 0 t.rows tmem) tx ty =
      t.imageTexel rdram (t.uls.toNat + tx) (t.ult.toNat + ty) := by
  have hfetched := hagrees rdram tmem tx htx ty hty
  rw [loaded_of_agrees hagrees, load_32 hregion (line_of_agrees hagrees) hsize] at hfetched
  exact hfetched

theorem aligned_of_agrees (hregion : t.Region size) (hsize : t.size = .bits32) :
    t.imageAddress % 4 = 0 := by
  by_contra haligned
  refine fetch_misaligned hsize haligned ?_
    (fetch32_of_agrees hagrees hregion hsize (oneByte (4 * t.texelWord 0 0) 0xff) (fun _ => 0)
      t.columns_pos t.rows_pos)
  intro bank
  rw [loadRows32_apply (placed32 hregion hsize) t.rows_pos t.columns_pos (Nat.zero_add _),
    if_pos (Nat.le_refl 0)]

theorem clamped_of_agrees (hregion : t.Region size) (hsize : t.size = .bits32) :
    t.rows = 1 ∨ clampWidth ≠ 0 := by
  by_contra hclamp
  push Not at hclamp
  obtain ⟨hrows, rfl⟩ := hclamp
  have hpos := t.rows_pos
  exact fetch_unclamped hregion hsize (line_of_agrees hagrees)
    (aligned_of_agrees hagrees hregion hsize) (by omega)
    (fetch32_of_agrees hagrees hregion hsize _ (fun _ => 0) t.columns_pos (by omega))

omit hagrees

/-- **Loads and fetches agree** on exactly the tiles that load. -/
theorem agrees_iff (hregion : t.Region size) :
    (∀ rdram tmem, t.Agrees size frameBufferTexture clampWidth rdram tmem) ↔
      t.Loads size frameBufferTexture clampWidth := by
  constructor
  · intro hagrees
    exact
      { line := line_of_agrees hagrees
        loaded := loaded_of_agrees hagrees
        even := even_of_agrees hagrees hregion
        rows := fun hsize y hy => rowLoads_of_agrees hagrees hregion hsize hy
        kept := kept_of_agrees hagrees hregion
        aligned := aligned_of_agrees hagrees hregion
        clamped := clamped_of_agrees hagrees hregion }
  · intro hloads rdram tmem
    exact agrees_of_loads hregion hloads rdram tmem

end TileLoad

/-- RDRAM with the expansion. -/
def fullRdram : RdramSize := ⟨0x7fffff, lastOfEight_lt⟩

/-- Two rows of five texels of 16 bits, from column 3 of an image of 20 columns. -/
def smallTile : TileLoad where
  imageAddress := 0x100006
  imageWidth := 20
  size := .bits16
  tmem := 8
  line := 2
  uls := 3
  ult := 1
  lrs := 7
  lrt := 2

theorem smallTile_agrees : (∀ rdram tmem, smallTile.Agrees fullRdram false 5 rdram tmem) ↔
    smallTile.Loads fullRdram false 5 :=
  TileLoad.agrees_iff ⟨by decide, by decide, by decide, by decide, by decide⟩

/-- Eight texels of 8 bits in the last eight bytes of RDRAM. -/
def lastTile : TileLoad where
  imageAddress := 0x7ffff8
  imageWidth := 8
  size := .bits8
  tmem := 0
  line := 1
  uls := 0
  ult := 0
  lrs := 7
  lrt := 0

/-- The last one is not copied. -/
theorem lastTile_disagrees : ¬∀ (t : TileLoad) (size : RdramSize) (clampWidth : BitVec 16)
    (rdram : ℕ → BitVec 8) (tmem : Tmem), t.Region size →
    t.Agrees size false clampWidth rdram tmem := by
  intro h
  have hagrees := h lastTile fullRdram 8 (fun _ => 0xff) (fun _ => 0)
    ⟨by decide, by decide, by decide, by decide, by decide⟩ 7 (by decide) 0 (by decide)
  revert hagrees
  decide

end Mupen64plus
