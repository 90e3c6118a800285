import Mupen64plus.GLideN64.DisplayLists

/-!
# Loads of tiles into the texture memory

`gDP.cpp` and `convert.cpp`: `gDPLoadTile` copies a rectangle of a texture image from RDRAM to TMEM.
`Textures.cpp`: `_getTextureDestData` takes a texel from TMEM. RDRAM holds words in the order of the
host, so that byte `a` of the console is byte `a ^ 3`; TMEM holds bytes in the order of the console,
and the two words of eight bytes the other way round in odd rows.

## Main definitions

- `Tmem.unswapCopyWrap`, `Tmem.dwordInterleaveWrap`
- `TileLoad`, `TileLoad.load` — the registers, and `gDPLoadTile`
- `TileLoad.fetchTexel` — the texel of a place, as `_getTextureDestData` fetches it
- `TileLoad.imageTexel` — the texel of the image
-/

namespace Mupen64plus

/-- The bytes of TMEM. -/
abbrev Tmem := BitVec 12 → BitVec 8

/-- The size of a texel, of 4, 8, 16 or 32 bits. -/
inductive TexelSize where
  | bits4
  | bits8
  | bits16
  | bits32
  deriving DecidableEq, Repr

/-- `G_IM_SIZ_4b` to `G_IM_SIZ_32b`. -/
def TexelSize.code : TexelSize → ℕ
  | .bits4 => 0
  | .bits8 => 1
  | .bits16 => 2
  | .bits32 => 3

namespace Tmem

variable (src : ℕ → BitVec 8) (tmem : Tmem)

/-- Bytes of a word, from the last in the order of the host to the first. -/
def copyBytes (srcIdx destIdx : ℕ) : ℕ → Tmem → Tmem
  | 0, tmem => tmem
  | n + 1, tmem =>
    copyBytes (srcIdx - 1) (destIdx + 1) n
      (Function.update tmem (BitVec.ofNat 12 destIdx) (src srcIdx))

/-- The bytes of a word are turned round. -/
def copyDWord (srcIdx destIdx : ℕ) (tmem : Tmem) : Tmem :=
  let tmem := Function.update tmem (BitVec.ofNat 12 (destIdx + 3)) (src srcIdx)
  let tmem := Function.update tmem (BitVec.ofNat 12 (destIdx + 2)) (src (srcIdx + 1))
  let tmem := Function.update tmem (BitVec.ofNat 12 (destIdx + 1)) (src (srcIdx + 2))
  Function.update tmem (BitVec.ofNat 12 destIdx) (src (srcIdx + 3))

def copyDWords (srcIdx destIdx : ℕ) : ℕ → Tmem → Tmem
  | 0, tmem => tmem
  | n + 1, tmem =>
    copyDWords (srcIdx + 4) (destIdx + 4) n (copyDWord src srcIdx destIdx tmem)

/-- `UnswapCopyWrap` into TMEM: the rest of a word, whole words, and the start of a word. -/
def unswapCopyWrap (srcIdx destIdx numBytes : ℕ) (tmem : Tmem) : Tmem :=
  let leadingBytes := if srcIdx % 4 = 0 then 0 else min (4 - srcIdx % 4) numBytes
  let tmem := copyBytes src (srcIdx ^^^ 3) destIdx leadingBytes tmem
  let srcIdx := if leadingBytes = 0 then srcIdx else (srcIdx ^^^ 3) + 5 - leadingBytes
  let destIdx := destIdx + leadingBytes
  let numBytes := numBytes - leadingBytes
  let numDWords := numBytes / 4
  let tmem := copyDWords src srcIdx destIdx numDWords tmem
  copyBytes src ((srcIdx + 4 * numDWords) ^^^ 3) (destIdx + 4 * numDWords) (numBytes % 4) tmem

/-- A word of TMEM, as its four bytes. -/
def word32 (i : BitVec 10) (b : BitVec 2) : BitVec 8 := tmem (i ++ b)

def setWord32 (i : BitVec 10) (v : BitVec 2 → BitVec 8) : Tmem := fun p =>
  if p.extractLsb' 2 10 = i then v (p.extractLsb' 0 2) else tmem p

/-- `DWordInterleaveWrap` in TMEM. -/
def dwordInterleaveWrap (srcIdx : ℕ) : ℕ → Tmem → Tmem
  | 0, tmem => tmem
  | n + 1, tmem =>
    let idx0 := BitVec.ofNat 10 srcIdx
    let idx1 := BitVec.ofNat 10 (srcIdx + 1)
    let p0 := tmem.word32 idx0
    let tmem := tmem.setWord32 idx0 (tmem.word32 idx1)
    dwordInterleaveWrap (srcIdx + 2) n (tmem.setWord32 idx1 p0)

/-- A half word of TMEM. -/
def half16 (i : BitVec 11) : BitVec 16 := tmem (i ++ 1#1) ++ tmem (i ++ 0#1)

def setHalf16 (i : BitVec 11) (v : BitVec 16) : Tmem :=
  Function.update (Function.update tmem (i ++ 0#1) (v.extractLsb' 0 8)) (i ++ 1#1)
    (v.extractLsb' 8 8)

end Tmem

/-- The texture image, the tile, and the rectangle that is loaded. The texels of the image are of
    the size of the tile. -/
structure TileLoad where
  imageAddress : ℕ
  imageWidth : ℕ
  size : TexelSize
  tmem : BitVec 9
  line : BitVec 9
  uls : BitVec 10
  ult : BitVec 10
  lrs : BitVec 10
  lrt : BitVec 10

namespace TileLoad

variable (t : TileLoad) (rdram : ℕ → BitVec 8)

/-- `textureImage.bpl`. -/
def imageBpl : ℕ := t.imageWidth <<< t.size.code >>> 1

/-- `width` of `gDPLoadTile`. -/
def width : ℕ := (t.lrs.toNat - t.uls.toNat + 1) % 1024

/-- `height` of `gDPLoadTile`. -/
def height : ℕ := (t.lrt.toNat - t.ult.toNat + 1) % 1024

/-- `bpl` of `gDPLoadTile`. -/
def bpl : ℕ := t.line.toNat <<< 3

/-- `wmask` of `gDPLoadTile`. -/
def wmask : ℕ :=
  match t.size with
  | .bits4 => 0
  | .bits8 => 7
  | .bits16 => 3
  | .bits32 => 1

/-- `alignedWidth` of `gDPLoadTile`. The mask is one less than a power of two. -/
def alignedWidth : ℕ :=
  if t.width % (t.wmask + 1) ≠ 0 then t.width - t.width % (t.wmask + 1) + t.wmask + 1 else t.width

/-- `bpr` of `gDPLoadTile`. -/
def bpr : ℕ := t.alignedWidth <<< t.size.code >>> 1

/-- `address` of `gDPLoadTile`. -/
def address : ℕ :=
  t.imageAddress + t.ult.toNat * t.imageBpl + t.uls.toNat <<< t.size.code >>> 1

/-- A word of RDRAM. -/
def rdramWord (i : ℕ) : BitVec 32 :=
  rdram (4 * i + 3) ++ rdram (4 * i + 2) ++ rdram (4 * i + 1) ++ rdram (4 * i)

/-- The inner loop of `gDPLoadTile32b`, from texel `i` on. -/
def loadTexels32 (tline s xorval : ℕ) : ℕ → ℕ → Tmem → Tmem
  | _, 0, tmem => tmem
  | i, n + 1, tmem =>
    let c := rdramWord rdram (t.imageAddress >>> 2 + s + i)
    let ptr := BitVec.ofNat 10 ((tline + i) ^^^ xorval)
    let tmem := tmem.setHalf16 (0#1 ++ ptr) (c.extractLsb' 16 16)
    loadTexels32 tline s xorval (i + 1) n (tmem.setHalf16 (1#1 ++ ptr) (c.extractLsb' 0 16))

/-- The outer loop of `gDPLoadTile32b`, from row `j` on. -/
def loadRows32 : ℕ → ℕ → Tmem → Tmem
  | _, 0, tmem => tmem
  | j, n + 1, tmem =>
    let tline := t.tmem.toNat <<< 2 + t.line.toNat <<< 2 * j
    let s := (j + t.ult.toNat) * t.imageWidth + t.uls.toNat
    let xorval := if j % 2 = 1 then 3 else 1
    loadRows32 (j + 1) n
      (t.loadTexels32 rdram tline s xorval 0 (t.lrs.toNat - t.uls.toNat + 1) tmem)

/-- How much of a row `gDPLoadTile` copies. -/
def numBytes (last address : ℕ) : ℕ := if last < address + t.bpl then last - address else t.bpr

/-- A turn of the loop of `gDPLoadTile` over the rows. -/
def loadRow (last y address tmemAddr : ℕ) (tmem : Tmem) : Tmem :=
  let tmem := tmem.unswapCopyWrap rdram address (tmemAddr <<< 3) (t.numBytes last address)
  if y % 2 = 1 then tmem.dwordInterleaveWrap (tmemAddr <<< 1) (t.bpr >>> 3) else tmem

/-- The loop, from row `y` on. -/
def loadRows (last : ℕ) : ℕ → ℕ → ℕ → ℕ → Tmem → Tmem
  | _, _, _, 0, tmem => tmem
  | y, address, tmemAddr, n + 1, tmem =>
    if address < last then
      loadRows last (y + 1) (address + t.imageBpl) (tmemAddr + t.line.toNat) n
        (t.loadRow rdram last y address tmemAddr tmem)
    else tmem

/-- `gDPLoadTile`. `frameBufferTexture` is what `CheckForFrameBufferTexture` says. -/
def load (size : RdramSize) (frameBufferTexture : Bool) (tmem : Tmem) : Tmem :=
  if t.lrs < t.uls ∨ t.lrt < t.ult then tmem
  else if t.line = 0 then tmem
  else if frameBufferTexture then tmem
  else if size.last.toNat ≤ t.address then tmem
  else if t.size = .bits32 then
    t.loadRows32 rdram 0 (t.lrt.toNat - t.ult.toNat + 1) tmem
  else t.loadRows rdram size.last.toNat 0 t.address t.tmem.toNat t.height tmem

variable (clampWidth : BitVec 16) (tmem : Tmem)

/-- `Get4BitPaletteColor`. -/
def get4BitPaletteColor (offset x i : ℕ) : BitVec 8 :=
  tmem (BitVec.ofNat 12 (offset <<< 3 + (x >>> 1 ^^^ i <<< 1)))

/-- `Get8BitPaletteColor`. -/
def get8BitPaletteColor (offset x i : ℕ) : BitVec 8 :=
  tmem (BitVec.ofNat 12 (offset <<< 3 + (x ^^^ i <<< 1)))

/-- `Get16BitColor`. -/
def get16BitColor (offset x i : ℕ) : BitVec 16 :=
  tmem.half16 (BitVec.ofNat 11 (offset <<< 2 + (x ^^^ i)))

/-- `tmemOffset` of `_getTextureDestData`, without a texture LUT. -/
def tmemOffset (ty : ℕ) : ℕ := (t.tmem.toNat + t.line.toNat * ty) % 512

/-- `line32` of `_getTextureDestData`, of the width the texture is clamped at. -/
def line32 : ℤ :=
  let wid64 : ℤ := clampWidth.toNat * 4
  let wid64 := if wid64 % 16 ≠ 0 then wid64 + 16 else wid64
  let wid64 := (wid64 - wid64 % 16) / 8
  let rest := (t.line.toNat * 2 - wid64) * 8
  let wid64 := if wid64 < 1 then 1 else wid64
  wid64 * 2 + rest / 4

/-- `swapword`. -/
def swapword (v : BitVec 16) : BitVec 16 := v.extractLsb' 0 8 ++ v.extractLsb' 8 8

/-- The texel of 32 bits of `_getTextureDestData`. -/
def fetchTexel32 (tx ty : ℕ) : BitVec 32 :=
  let tline : ℤ := t.tmem.toNat * 4 + t.line32 clampWidth * ty
  let xorval := if ty % 2 = 1 then 3 else 1
  let taddr := BitVec.ofInt 10 (tline + tx) ^^^ xorval
  let gr := swapword (tmem.half16 (0#1 ++ taddr))
  let ab := swapword (tmem.half16 (1#1 ++ taddr))
  ab ++ gr

/-- The texel `_getTextureDestData` fetches for a place, in a format other than YUV. Its bytes are
    in the order of the console, the first one lowest. -/
def fetchTexel (tx ty : ℕ) : BitVec 32 :=
  let i := (ty % 2) <<< 1
  match t.size with
  | .bits4 =>
    let color4B := get4BitPaletteColor tmem (t.tmemOffset ty) tx i
    ((if tx % 2 = 1 then color4B &&& 0x0F else color4B >>> 4)).setWidth 32
  | .bits8 => (get8BitPaletteColor tmem (t.tmemOffset ty) tx i).setWidth 32
  | .bits16 => (get16BitColor tmem (t.tmemOffset ty) tx i).setWidth 32
  | .bits32 => t.fetchTexel32 clampWidth tmem tx ty

/-- The byte of the console at an address. -/
def imageByte (a : ℕ) : BitVec 8 := rdram (a ^^^ 3)

/-- The texel of the image at column `s` and row `row`. -/
def imageTexel (s row : ℕ) : BitVec 32 :=
  let rowAddress := t.imageAddress + row * t.imageBpl
  match t.size with
  | .bits4 =>
    let byte := imageByte rdram (rowAddress + s / 2)
    (if s % 2 = 1 then byte &&& 0x0F else byte >>> 4).setWidth 32
  | .bits8 => (imageByte rdram (rowAddress + s)).setWidth 32
  | .bits16 =>
    let a := rowAddress + 2 * s
    (imageByte rdram (a + 1) ++ imageByte rdram a).setWidth 32
  | .bits32 =>
    let a := rowAddress + 4 * s
    imageByte rdram (a + 3) ++ imageByte rdram (a + 2) ++ imageByte rdram (a + 1) ++
      imageByte rdram a

end TileLoad

end Mupen64plus
