import Mathlib.Tactic.Ring
import Mupen64plus.GLideN64.TmemCopies

/-!
# Loads and fetches agree

For which tiles `_getTextureDestData` fetches from TMEM what `gDPLoadTile` took from the texture
image.

## Main definitions

- `TileLoad.Region` — the rectangle lies in RDRAM, its rows lie in TMEM apart from each other
- `TileLoad.Agrees` — each texel that is fetched is the one of the image
- `TileLoad.Loads` — the condition

## Main results

- `TileLoad.loaded_byte` — where a byte of the image is after the load
- `TileLoad.agrees_of_loads`
-/

namespace Mupen64plus

/-- The bytes of a texel; two texels of 4 bits share one. -/
def TexelSize.bytes : TexelSize → ℕ
  | .bits4 => 1
  | .bits8 => 1
  | .bits16 => 2
  | .bits32 => 4

namespace TileLoad

variable (t : TileLoad)

def columns : ℕ := t.lrs.toNat - t.uls.toNat + 1

def rows : ℕ := t.lrt.toNat - t.ult.toNat + 1

/-- The bytes of a row of the rectangle. -/
def rowBytes : ℕ :=
  match t.size with
  | .bits4 => (t.columns + 1) / 2
  | .bits8 => t.columns
  | .bits16 => 2 * t.columns
  | .bits32 => 4 * t.columns

/-- The units of eight bytes of a row in TMEM, or in each of its banks. -/
def rowUnits : ℕ :=
  match t.size with
  | .bits32 => (t.columns + 3) / 4
  | _ => (t.rowBytes + 7) / 8

/-- The units of TMEM, or of each of its banks. -/
def capacity : ℕ :=
  match t.size with
  | .bits32 => 256
  | _ => 512

/-- The rectangle lies in RDRAM. Its rows lie in TMEM apart from each other. -/
structure Region (size : RdramSize) : Prop where
  columns : t.uls ≤ t.lrs
  rows : t.ult ≤ t.lrt
  inside : t.imageAddress + t.lrt.toNat * t.imageBpl + t.lrs.toNat <<< t.size.code >>> 1 +
    t.size.bytes ≤ size.last.toNat + 1
  fits : t.tmem.toNat + t.line.toNat * (t.rows - 1) + t.rowUnits ≤ t.capacity
  apart : t.rows = 1 ∨ t.rowUnits ≤ t.line.toNat

/-- Each texel of the rectangle that is fetched after the load is the one of the image. -/
def Agrees (size : RdramSize) (frameBufferTexture : Bool) (clampWidth : BitVec 16)
    (rdram : ℕ → BitVec 8) (tmem : Tmem) : Prop :=
  ∀ tx < t.columns, ∀ ty < t.rows,
    t.fetchTexel clampWidth (t.load rdram size frameBufferTexture tmem) tx ty =
      t.imageTexel rdram (t.uls.toNat + tx) (t.ult.toNat + ty)

/-- A row is copied whole, and its words are exchanged if it is odd. -/
structure RowLoads (last y : ℕ) : Prop where
  copied : t.rowBytes ≤ t.numBytes last (t.rowAddress y)
  swapped : y % 2 = 1 → t.rowBytes ≤ 8 * (t.bpr / 8)

instance decidableRowLoads (last y : ℕ) : Decidable (t.RowLoads last y) :=
  decidable_of_iff (t.rowBytes ≤ t.numBytes last (t.rowAddress y) ∧
      (y % 2 = 1 → t.rowBytes ≤ 8 * (t.bpr / 8)))
    ⟨fun h => ⟨h.1, h.2⟩, fun h => ⟨h.copied, h.swapped⟩⟩

/-- The tile has a line, it is no frame buffer texture, and the texels stand where the loops of
    their size take them to be. -/
structure Loads (size : RdramSize) (frameBufferTexture : Bool) (clampWidth : BitVec 16) :
    Prop where
  line : t.line ≠ 0
  loaded : frameBufferTexture = false
  even : t.size = .bits4 → t.uls.toNat % 2 = 0
  rows : t.size ≠ .bits32 → ∀ y < t.rows, t.RowLoads size.last.toNat y
  kept : t.size ≠ .bits32 → t.FirstRowKept size.last.toNat
  aligned : t.size = .bits32 → t.imageAddress % 4 = 0
  clamped : t.size = .bits32 → t.rows = 1 ∨ clampWidth ≠ 0

variable {t} {size : RdramSize} {frameBufferTexture : Bool} {clampWidth : BitVec 16}
  {rdram : ℕ → BitVec 8} {tmem : Tmem}

-- ════════════════════════════════════════════════════════════════════════
-- Bytes
-- ════════════════════════════════════════════════════════════════════════

theorem columns_le : t.columns ≤ 1024 := by
  have hlrs := t.lrs.isLt
  unfold columns
  omega

theorem columns_pos (t : TileLoad) : 0 < t.columns := Nat.succ_pos _

theorem rows_pos (t : TileLoad) : 0 < t.rows := Nat.succ_pos _

theorem rowBytes_pos (t : TileLoad) : 0 < t.rowBytes := by
  have hcolumns := t.columns_pos
  unfold rowBytes
  split <;> omega

theorem rowUnits_pos (t : TileLoad) : 0 < t.rowUnits := by
  have hcolumns := t.columns_pos
  have hbytes := t.rowBytes_pos
  unfold rowUnits
  split <;> omega

theorem capacity_eq (hsize : t.size ≠ .bits32) : t.capacity = 512 := by
  unfold capacity
  split
  · next hcase => exact absurd hcase hsize
  · rfl

theorem rowAddress_zero : t.rowAddress 0 = t.address := by
  rw [rowAddress, Nat.zero_mul, Nat.add_zero]

theorem Region.ordered (hregion : t.Region size) : ¬(t.lrs < t.uls ∨ t.lrt < t.ult) := by
  have hcolumns := hregion.columns
  have hlines := hregion.rows
  rw [BitVec.le_def] at hcolumns hlines
  rw [BitVec.lt_def, BitVec.lt_def]
  omega

theorem bpr_le (hsize : t.size ≠ .bits32) : t.bpr ≤ 8 * t.rowUnits := by
  have hle := t.columns_le
  have hwidth : t.width = t.columns % 1024 := rfl
  unfold bpr alignedWidth wmask rowUnits rowBytes
  rw [hwidth]
  cases hcase : t.size with
  | bits4 =>
    simp only [TexelSize.code, Nat.shiftLeft_zero, Nat.shiftRight_eq_div_pow, pow_one]
    split <;> omega
  | bits8 =>
    simp only [TexelSize.code, Nat.shiftLeft_eq, Nat.shiftRight_eq_div_pow, pow_one]
    split <;> omega
  | bits16 =>
    simp only [TexelSize.code, Nat.shiftLeft_eq, Nat.shiftRight_eq_div_pow, pow_one]
    split <;> omega
  | bits32 => exact absurd hcase hsize

theorem line_pos (hline : t.line ≠ 0) : 0 < t.line.toNat := by
  rw [Nat.pos_iff_ne_zero]
  intro hzero
  exact hline (BitVec.eq_of_toNat_eq hzero)

/-- The rows are fewer than those `gDPLoadTile` counts to. -/
theorem height_eq (hregion : t.Region size) (hline : t.line ≠ 0) : t.height = t.rows := by
  have hpos := line_pos hline
  have hcapacity : t.capacity ≤ 512 := by
    unfold capacity
    split <;> decide
  have hmul : t.rows - 1 ≤ t.line.toNat * (t.rows - 1) := Nat.le_mul_of_pos_left _ hpos
  have hfits := hregion.fits
  have hheight : t.height = t.rows % 1024 := rfl
  rw [hheight, Nat.mod_eq_of_lt (by omega)]

theorem rowBytes_le (hsize : t.size ≠ .bits32) : t.rowBytes ≤ 8 * t.rowUnits := by
  unfold rowUnits
  split
  · next hcase => exact absurd hcase hsize
  · omega

/-- The rows are placed for the loop over them. -/
theorem placed (hregion : t.Region size) (hline : t.line ≠ 0) (hsize : t.size ≠ .bits32) :
    t.Placed t.rowUnits := by
  have hheight := height_eq hregion hline
  have hcapacity := capacity_eq hsize
  refine ⟨bpr_le hsize, ?_, ?_⟩
  · rw [hheight, ← hcapacity]
    exact hregion.fits
  · rw [hheight]
    exact hregion.apart.imp Nat.le_of_eq id

/-- A row that is copied begins in RDRAM. -/
theorem row_start (hline : t.line ≠ 0) {last y : ℕ}
    (hcopied : t.rowBytes ≤ t.numBytes last (t.rowAddress y)) : t.rowAddress y < last := by
  have hpos := line_pos hline
  have hbytes := t.rowBytes_pos
  unfold numBytes bpl at hcopied
  rw [Nat.shiftLeft_eq] at hcopied
  split at hcopied <;> omega

/-- The place of a byte: the words of eight bytes are exchanged in odd rows. -/
def bytePlace (t : TileLoad) (y j : ℕ) : ℕ := t.place y (j ^^^ 4 * (y % 2))

theorem xor_swap_lt {y j n : ℕ} (h : j < 8 * n) : j ^^^ 4 * (y % 2) < 8 * n := by
  rcases Nat.mod_two_eq_zero_or_one y with heven | hodd
  · rw [heven, Nat.mul_zero, Nat.xor_zero]
    exact h
  · rw [hodd]
    exact xor_four_lt h

/-- The byte at a place after the load. -/
theorem loadRows_place (hregion : t.Region size) (hline : t.line ≠ 0) (hsize : t.size ≠ .bits32)
    (hkept : t.FirstRowKept size.last.toNat) {y j : ℕ} (hy : y < t.rows) (hj : j < t.rowBytes) :
    t.loadRows rdram size.last.toNat 0 t.address t.tmem.toNat t.height tmem
        (BitVec.ofNat 12 (t.bytePlace y j)) =
      t.rowByte rdram size.last.toNat tmem y (j ^^^ 4 * (y % 2)) := by
  have hplaced := placed hregion hline hsize
  have hheight := height_eq hregion hline
  have hunits := rowBytes_le hsize
  have htmem : t.tmem.toNat = t.tmem.toNat + t.line.toNat * 0 := rfl
  rw [← rowAddress_zero, htmem, bytePlace, loadRows_apply hplaced hkept (hheight.symm ▸ hy)
    (xor_swap_lt (by omega)) (Nat.zero_add _) tmem, if_pos (Nat.zero_le y)]

/-- **Where a byte of the image is** after the load. -/
theorem loaded_byte (hregion : t.Region size) (hline : t.line ≠ 0) (hsize : t.size ≠ .bits32)
    (hkept : t.FirstRowKept size.last.toNat) {y j : ℕ} (hrow : t.RowLoads size.last.toNat y)
    (hy : y < t.rows) (hj : j < t.rowBytes) :
    t.loadRows rdram size.last.toNat 0 t.address t.tmem.toNat t.height tmem
      (BitVec.ofNat 12 (t.bytePlace y j)) = imageByte rdram (t.rowAddress y + j) := by
  obtain ⟨hcopied, hswapped⟩ := hrow
  have hstart := row_start hline hcopied
  rw [loadRows_place hregion hline hsize hkept hy hj]
  unfold rowByte swapped copied
  rw [if_pos hstart]
  dsimp only
  rcases Nat.mod_two_eq_zero_or_one y with heven | hodd
  · rw [if_neg (c := t.rowAddress y < size.last.toNat ∧ y % 2 = 1) (by omega),
      if_neg (Nat.not_lt_zero _), heven, Nat.mul_zero, Nat.xor_zero, if_pos (by omega)]
  · have hback : j ^^^ 4 * (y % 2) ^^^ 4 = j := by
      rw [hodd, Nat.mul_one, Nat.xor_assoc, Nat.xor_self, Nat.xor_zero]
    have hin : (j ^^^ 4 * (y % 2)) / 8 < t.bpr >>> 3 := by
      have hunit := hswapped hodd
      rw [hodd, Nat.mul_one, LowXor.xor_four, Nat.shiftRight_eq_div_pow]
      omega
    rw [if_pos (c := t.rowAddress y < size.last.toNat ∧ y % 2 = 1) ⟨hstart, hodd⟩, if_pos hin,
      hback, if_pos (by omega)]

-- ════════════════════════════════════════════════════════════════════════
-- Texels of 4, 8 and 16 bits
-- ════════════════════════════════════════════════════════════════════════

theorem tmemOffset_eq (hregion : t.Region size) (hsize : t.size ≠ .bits32) {ty : ℕ}
    (hty : ty < t.rows) : t.tmemOffset ty = t.tmem.toNat + t.line.toNat * ty := by
  have hle : t.line.toNat * ty ≤ t.line.toNat * (t.rows - 1) :=
    Nat.mul_le_mul_left _ (Nat.le_sub_one_of_lt hty)
  have hcapacity := capacity_eq hsize
  have hunits := t.rowUnits_pos
  have hfits := hregion.fits
  rw [tmemOffset, Nat.mod_eq_of_lt (by omega)]

/-- The byte of a texel of 4 or 8 bits. -/
theorem fetch_byte (hregion : t.Region size) (hsize : t.size ≠ .bits32) {ty : ℕ}
    (hty : ty < t.rows) (j : ℕ) :
    BitVec.ofNat 12 (t.tmemOffset ty <<< 3 + (j ^^^ (ty % 2) <<< 1 <<< 1)) =
      BitVec.ofNat 12 (t.bytePlace ty j) := by
  have hshift : (ty % 2) <<< 1 <<< 1 = 4 * (ty % 2) := by
    rw [Nat.shiftLeft_eq, Nat.shiftLeft_eq]
    omega
  rw [tmemOffset_eq hregion hsize hty, hshift, Nat.shiftLeft_eq, bytePlace, place,
    Nat.mul_comm _ (2 ^ 3)]

theorem half_append {h b : ℕ} (hh : h < 2048) (hb : b < 2) :
    BitVec.ofNat 11 h ++ BitVec.ofNat 1 b = BitVec.ofNat 12 (2 * h + b) := by
  apply BitVec.eq_of_toNat_eq
  rw [BitVec.toNat_append, BitVec.toNat_ofNat, BitVec.toNat_ofNat, BitVec.toNat_ofNat,
    Nat.mod_eq_of_lt hh, Nat.mod_eq_of_lt (b := 2 ^ 1) hb, ← Nat.shiftLeft_add_eq_or_of_lt hb,
    Nat.shiftLeft_eq]
  omega

/-- A byte of a half word that is exchanged with its words. -/
theorem half_xor (x p b : ℕ) (hb : b < 2) (hp : p < 2) :
    2 * (x ^^^ p <<< 1) + b = (2 * x + b) ^^^ 4 * p := by
  rw [Nat.shiftLeft_eq]
  rcases Nat.lt_succ_iff_lt_or_eq.mp hp with hzero | rfl
  · obtain rfl := Nat.lt_one_iff.mp hzero
    simp
  · have htwo := LowXor.xor_two x
    have hfour := LowXor.xor_four (2 * x + b)
    change 2 * (x ^^^ 2) + b = (2 * x + b) ^^^ 4
    omega

/-- The half word of a texel of 16 bits. -/
theorem fetch_half (hregion : t.Region size) (hsize : t.size = .bits16) {tx ty : ℕ}
    (htx : tx < t.columns) (hty : ty < t.rows) (m : Tmem) :
    get16BitColor m (t.tmemOffset ty) tx ((ty % 2) <<< 1) =
      m (BitVec.ofNat 12 (t.bytePlace ty (2 * tx + 1))) ++
        m (BitVec.ofNat 12 (t.bytePlace ty (2 * tx))) := by
  have hne : t.size ≠ .bits32 := by
    rw [hsize]
    decide
  have hmod : ty % 2 < 2 := Nat.mod_lt _ (by decide)
  have hoffset := tmemOffset_eq hregion hne hty
  have hle : t.line.toNat * ty ≤ t.line.toNat * (t.rows - 1) :=
    Nat.mul_le_mul_left _ (Nat.le_sub_one_of_lt hty)
  have hfits := hregion.fits
  have hunits : t.rowUnits = (2 * t.columns + 7) / 8 := by
    unfold rowUnits rowBytes
    rw [hsize]
  have hcapacity : t.capacity = 512 := by
    unfold capacity
    rw [hsize]
  have hxor (b : ℕ) (hb : b < 2) : 2 * (t.tmemOffset ty <<< 2 + (tx ^^^ (ty % 2) <<< 1)) + b =
      t.bytePlace ty (2 * tx + b) := by
    have hhalf := half_xor tx (ty % 2) b hb hmod
    rw [bytePlace, place, ← hhalf, hoffset, Nat.shiftLeft_eq]
    omega
  have hlt : t.tmemOffset ty <<< 2 + (tx ^^^ (ty % 2) <<< 1) < 2048 := by
    have hin : t.bytePlace ty (2 * tx) < 8 * (t.tmem.toNat + t.line.toNat * ty + t.rowUnits) := by
      have hj : (2 * tx) ^^^ 4 * (ty % 2) < 8 * t.rowUnits := xor_swap_lt (by omega)
      rw [bytePlace, place]
      omega
    have hzero := hxor 0 (by decide)
    rw [Nat.add_zero, Nat.add_zero] at hzero
    omega
  have hone := hxor 1 (by decide)
  have hzero := hxor 0 (by decide)
  unfold get16BitColor Tmem.half16
  rw [← hone, show t.bytePlace ty (2 * tx) = _ from hzero.symm, ← half_append hlt (by decide),
    ← half_append hlt (by decide)]

theorem rowAddress_eq (y : ℕ) : t.rowAddress y =
    t.imageAddress + (t.ult.toNat + y) * t.imageBpl + t.uls.toNat <<< t.size.code >>> 1 := by
  unfold rowAddress address
  rw [Nat.add_mul]
  omega

/-- Where texels of 4 bits are in the rows. -/
theorem texelAddress_bits4 (hcase : t.size = .bits4) (heven : t.uls.toNat % 2 = 0) (tx ty : ℕ) :
    t.imageAddress + (t.ult.toNat + ty) * t.imageBpl + (t.uls.toNat + tx) / 2 =
      t.rowAddress ty + tx / 2 := by
  rw [rowAddress_eq, hcase, TexelSize.code, Nat.shiftLeft_zero, Nat.shiftRight_eq_div_pow, pow_one]
  omega

theorem texelAddress_bits8 (hcase : t.size = .bits8) (tx ty : ℕ) :
    t.imageAddress + (t.ult.toNat + ty) * t.imageBpl + (t.uls.toNat + tx) =
      t.rowAddress ty + tx := by
  rw [rowAddress_eq, hcase, TexelSize.code, Nat.shiftLeft_eq, Nat.shiftRight_eq_div_pow, pow_one]
  omega

theorem texelAddress_bits16 (hcase : t.size = .bits16) (tx ty : ℕ) :
    t.imageAddress + (t.ult.toNat + ty) * t.imageBpl + 2 * (t.uls.toNat + tx) =
      t.rowAddress ty + 2 * tx := by
  rw [rowAddress_eq, hcase, TexelSize.code, Nat.shiftLeft_eq, Nat.shiftRight_eq_div_pow, pow_one]
  omega

theorem rowBytes_bits4 (hcase : t.size = .bits4) : t.rowBytes = (t.columns + 1) / 2 := by
  unfold rowBytes
  rw [hcase]

theorem rowBytes_bits8 (hcase : t.size = .bits8) : t.rowBytes = t.columns := by
  unfold rowBytes
  rw [hcase]

theorem rowBytes_bits16 (hcase : t.size = .bits16) : t.rowBytes = 2 * t.columns := by
  unfold rowBytes
  rw [hcase]

/-- **Texels of 4, 8 and 16 bits** are fetched as they are in the image. -/
theorem fetch_small (hregion : t.Region size) (hsize : t.size ≠ .bits32) {m : Tmem}
    (heven : t.size = .bits4 → t.uls.toNat % 2 = 0)
    (hloaded : ∀ y < t.rows, ∀ j < t.rowBytes,
      m (BitVec.ofNat 12 (t.bytePlace y j)) = imageByte rdram (t.rowAddress y + j))
    {tx ty : ℕ} (htx : tx < t.columns) (hty : ty < t.rows) :
    t.fetchTexel clampWidth m tx ty =
      t.imageTexel rdram (t.uls.toNat + tx) (t.ult.toNat + ty) := by
  unfold fetchTexel imageTexel
  cases hcase : t.size with
  | bits4 =>
    have huls := heven hcase
    have hbytes := rowBytes_bits4 hcase
    have hparity : (t.uls.toNat + tx) % 2 = tx % 2 := by omega
    dsimp only
    rw [hparity, texelAddress_bits4 hcase huls, get4BitPaletteColor, fetch_byte hregion hsize hty,
      Nat.shiftRight_eq_div_pow, pow_one, hloaded ty hty _ (by omega)]
  | bits8 =>
    have hbytes := rowBytes_bits8 hcase
    dsimp only
    rw [texelAddress_bits8 hcase, get8BitPaletteColor, fetch_byte hregion hsize hty,
      hloaded ty hty _ (by omega)]
  | bits16 =>
    have hbytes := rowBytes_bits16 hcase
    dsimp only
    rw [texelAddress_bits16 hcase, fetch_half hregion hcase htx hty, hloaded ty hty _ (by omega),
      hloaded ty hty _ (by omega)]
    rfl
  | bits32 => exact absurd hcase hsize

-- ════════════════════════════════════════════════════════════════════════
-- Texels of 32 bits
-- ════════════════════════════════════════════════════════════════════════

/-- The line that `_getTextureDestData` computes from the width is the line of the tile. -/
theorem line32_eq (hclamp : clampWidth ≠ 0) : t.line32 clampWidth = 4 * t.line.toNat := by
  have hpos : 0 < clampWidth.toNat := by
    rw [Nat.pos_iff_ne_zero]
    intro hzero
    exact hclamp (BitVec.eq_of_toNat_eq hzero)
  unfold line32
  dsimp only
  split <;> split <;> omega

/-- The rows of 32 bit texels are placed for the loop over them. -/
theorem placed32 (hregion : t.Region size) (hsize : t.size = .bits32) :
    t.Placed32 t.columns t.rows := by
  have hunits : t.rowUnits = (t.columns + 3) / 4 := by
    unfold rowUnits
    rw [hsize]
  have hcapacity : t.capacity = 256 := by
    unfold capacity
    rw [hsize]
  have hfits := hregion.fits
  refine ⟨by omega, ?_⟩
  rcases hregion.apart with hone | hline
  · exact Or.inl hone.le
  · exact Or.inr (by omega)

theorem ofInt_rowXor (n y : ℕ) : BitVec.ofInt 10 (n : ℕ) ^^^ (if y % 2 = 1 then 3 else 1) =
    BitVec.ofNat 10 (n ^^^ rowXor y) := by
  rw [BitVec.ofInt_natCast]
  apply BitVec.eq_of_toNat_eq
  unfold rowXor
  split
  · rw [BitVec.toNat_xor, BitVec.toNat_ofNat, BitVec.toNat_ofNat, Nat.xor_mod_two_pow]
    rfl
  · rw [BitVec.toNat_xor, BitVec.toNat_ofNat, BitVec.toNat_ofNat, Nat.xor_mod_two_pow]
    rfl

/-- The half words of a texel that is fetched are those it was loaded to. -/
theorem fetch_slot {tx ty : ℕ} (hclamp : ty = 0 ∨ clampWidth ≠ 0) :
    BitVec.ofInt 10 (t.tmem.toNat * 4 + t.line32 clampWidth * ty + tx) ^^^
        (if ty % 2 = 1 then 3 else 1) = BitVec.ofNat 10 (t.slot ty tx ^^^ rowXor ty) := by
  have hslot : (t.tmem.toNat * 4 + t.line32 clampWidth * ty + tx : ℤ) = (t.slot ty tx : ℕ) := by
    have hline : t.line32 clampWidth * ty = 4 * (t.line.toNat * ty : ℕ) := by
      rcases hclamp with rfl | hwidth
      · simp
      · rw [line32_eq hwidth]
        push_cast
        ring
    rw [hline, slot]
    push_cast
    ring
  rw [hslot, ofInt_rowXor]

theorem swapword_append (a b : BitVec 8) : swapword (a ++ b) = b ++ a := by
  rw [swapword, BitVec.extractLsb'_append_eq_left, BitVec.extractLsb'_append_eq_right]

theorem word_append (a b c d : BitVec 8) :
    a ++ b ++ c ++ d = (a ++ b : BitVec 16) ++ (c ++ d : BitVec 16) := by
  apply BitVec.eq_of_getLsbD_eq
  intro i _
  simp only [BitVec.getLsbD_append]
  by_cases hd : i < 8
  · rw [if_pos hd, if_pos (by omega), if_pos hd]
  · by_cases hc : i < 16
    · rw [if_neg hd, if_pos (by omega), if_pos (by omega), if_neg hd]
    · have hshort : i - 8 - 8 = i - (8 + 8) := Nat.sub_sub ..
      rw [if_neg hd, if_neg (c := i - 8 < 8) (by omega), if_neg (c := i < 8 + 8) hc, hshort]

/-- Both halves of a word, with their bytes turned round. -/
theorem swapword_bankHalf (a b c d : BitVec 8) :
    swapword (bankHalf 1#1 (a ++ b ++ c ++ d)) ++ swapword (bankHalf 0#1 (a ++ b ++ c ++ d)) =
      d ++ c ++ b ++ a := by
  have hhigh : bankHalf 0#1 (a ++ b ++ c ++ d) = a ++ b := by
    rw [word_append]
    exact BitVec.extractLsb'_append_eq_left
  have hlow : bankHalf 1#1 (a ++ b ++ c ++ d) = c ++ d := by
    rw [word_append]
    exact BitVec.extractLsb'_append_eq_right
  rw [hhigh, hlow, swapword_append, swapword_append, word_append]

/-- **Texels of 32 bits** are fetched as they are in the image. -/
theorem fetch_32 (hsize : t.size = .bits32)
    (haligned : t.imageAddress % 4 = 0) {m : Tmem}
    (hloaded : ∀ y < t.rows, ∀ i < t.columns, ∀ bank : BitVec 1,
      m.half16 (bank ++ BitVec.ofNat 10 (t.slot y i ^^^ rowXor y)) =
        bankHalf bank (rdramWord rdram (t.texelWord y i)))
    {tx ty : ℕ} (hclamp : ty = 0 ∨ clampWidth ≠ 0) (htx : tx < t.columns) (hty : ty < t.rows) :
    t.fetchTexel clampWidth m tx ty =
      t.imageTexel rdram (t.uls.toNat + tx) (t.ult.toNat + ty) := by
  have hbpl : t.imageBpl = 4 * t.imageWidth := by
    rw [imageBpl, hsize, TexelSize.code, Nat.shiftLeft_eq, Nat.shiftRight_eq_div_pow]
    omega
  have haddress : t.imageAddress + (t.ult.toNat + ty) * t.imageBpl + 4 * (t.uls.toNat + tx) =
      4 * t.texelWord ty tx := by
    have hword : 4 * (t.imageAddress >>> 2) = t.imageAddress := by
      rw [Nat.shiftRight_eq_div_pow]
      omega
    have hrow : (t.ult.toNat + ty) * (4 * t.imageWidth) =
        4 * ((ty + t.ult.toNat) * t.imageWidth) := by ring
    rw [texelWord, hbpl, hrow]
    omega
  have hbyte (b : ℕ) (hb : b < 4) : imageByte rdram (4 * t.texelWord ty tx + b) =
      rdram (4 * t.texelWord ty tx + (3 - b)) := by
    refine congrArg rdram ?_
    rw [LowXor.xor_three]
    omega
  unfold fetchTexel imageTexel
  rw [hsize]
  dsimp only
  rw [haddress, hbyte 3 (by decide), hbyte 2 (by decide), hbyte 1 (by decide),
    show imageByte rdram (4 * t.texelWord ty tx) = _ from hbyte 0 (by decide), fetchTexel32,
    fetch_slot hclamp, hloaded ty hty tx htx, hloaded ty hty tx htx,
    rdramWord, swapword_bankHalf]
  rfl

-- ════════════════════════════════════════════════════════════════════════
-- Loads and fetches
-- ════════════════════════════════════════════════════════════════════════

/-- The address of the first texel is below the end of RDRAM. -/
theorem address_lt (hregion : t.Region size) (hsize : t.size = .bits32) :
    t.address < size.last.toNat := by
  have hinside := hregion.inside
  have hult : t.ult.toNat ≤ t.lrt.toNat := hregion.rows
  have huls : t.uls.toNat ≤ t.lrs.toNat := hregion.columns
  have hmul : t.ult.toNat * t.imageBpl ≤ t.lrt.toNat * t.imageBpl := Nat.mul_le_mul_right _ hult
  rw [hsize] at hinside
  unfold address
  rw [hsize]
  simp only [TexelSize.code, TexelSize.bytes, Nat.shiftLeft_eq, Nat.shiftRight_eq_div_pow]
    at hinside ⊢
  omega

theorem load_small (hregion : t.Region size) (hline : t.line ≠ 0) (hsize : t.size ≠ .bits32)
    (hstart : t.rowAddress 0 < size.last.toNat) :
    t.load rdram size false tmem =
      t.loadRows rdram size.last.toNat 0 t.address t.tmem.toNat t.height tmem := by
  rw [rowAddress_zero] at hstart
  unfold load
  rw [if_neg hregion.ordered, if_neg hline, if_neg Bool.false_ne_true,
    if_neg (Nat.not_le.mpr hstart), if_neg hsize]

theorem load_32 (hregion : t.Region size) (hline : t.line ≠ 0) (hsize : t.size = .bits32) :
    t.load rdram size false tmem = t.loadRows32 rdram 0 t.rows tmem := by
  unfold load
  rw [if_neg hregion.ordered, if_neg hline, if_neg Bool.false_ne_true,
    if_neg (Nat.not_le.mpr (address_lt hregion hsize)), if_pos hsize]
  rfl

/-- **Loads and fetches agree** where the tile loads. -/
theorem agrees_of_loads (hregion : t.Region size)
    (hloads : t.Loads size frameBufferTexture clampWidth) (rdram : ℕ → BitVec 8) (tmem : Tmem) :
    t.Agrees size frameBufferTexture clampWidth rdram tmem := by
  obtain ⟨hline, rfl, heven, hrows, hkept, haligned, hclamped⟩ := hloads
  intro tx htx ty hty
  by_cases hsize : t.size = .bits32
  · rw [load_32 hregion hline hsize]
    have hclamp : ty = 0 ∨ clampWidth ≠ 0 := (hclamped hsize).imp (fun hone => by omega) id
    refine fetch_32 hsize (haligned hsize) ?_ hclamp htx hty
    intro y hy i hi bank
    rw [loadRows32_apply (placed32 hregion hsize) hy hi (Nat.zero_add _), if_pos (Nat.zero_le y)]
  · rw [load_small hregion hline hsize (row_start hline (hrows hsize 0 t.rows_pos).copied)]
    refine fetch_small hregion hsize heven ?_ htx hty
    intro y hy j hj
    exact loaded_byte hregion hline hsize (hkept hsize) (hrows hsize y hy) hy hj

end TileLoad

end Mupen64plus
