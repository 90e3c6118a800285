import Mathlib.Data.BitVec
import Mathlib.Data.List.Basic
import Mathlib.Tactic.Common
import Mathlib.Tactic.IntervalCases
import Mupen64plus.GLideN64.PixelCopies

/-!
# Fills and copies of a frame buffer in RDRAM

`FrameBuffer.cpp`: `fillRDRAM` writes a rectangle to the color image of the buffer drawn to,
`copyRdram` keeps what RDRAM holds of the buffer or marks it, and `isValid` compares. RDRAM is taken
beyond its end, so that an access there can be said. Heights are those `setBufferChanged` can reach,
with which no sum leaves 32 bits. A quarter of a pixel is the unit of the scissor. The buffer drawn
to need not start at the color image: `saveBuffer` also keeps one that the image is a part of.
`_cutHeight` is the `cutHeight` of `RDRAMtoColorBuffer.cpp`, and `isMemoryWritable` always says yes.

## Main definitions

- `ImageArea` — what the color image and the buffer keep of an image
- `BufferFill` — the color image, the scissor, the rectangle and the buffer
- `BufferFill.fillRdram`, `BufferFill.copyWords`, `BufferFill.isValid`
- `BufferFill.AccessesExact`, `BufferFill.Fits`

## Main results

- `BufferFill.accessesExact_iff` — all accesses lie inside RDRAM and a filled buffer is valid
  exactly where the fill and the mark fit and the buffer is large enough
-/

namespace Mupen64plus

-- ════════════════════
-- The functions
-- ════════════════════

/-- The bytes of the host. -/
abbrev HostRdram := ℕ → BitVec 8

def getWord (rdram : HostRdram) (a : ℕ) : BitVec 32 :=
  rdram (a + 3) ++ rdram (a + 2) ++ rdram (a + 1) ++ rdram a

def putWord (v : BitVec 32) (rdram : HostRdram) (a : ℕ) : HostRdram := fun b =>
  if a ≤ b ∧ b < a + 4 then v.extractLsb' (8 * (b - a)) 8 else rdram b

/-- An image in an RDRAM that ends with the byte `last`. -/
structure ImageArea (last : ℕ) where
  address : ℕ
  width : ℕ
  size : ℕ
  address_le : address ≤ last
  width_pos : 0 < width
  width_le : width ≤ 4096
  size_le : size ≤ 3

namespace ImageArea

variable {last : ℕ} (image : ImageArea last)

def stride : ℕ := image.width <<< image.size >>> 1

/-- `ci_width_in_dwords`. -/
def lineWords : ℕ := image.width >>> (3 - image.size)

end ImageArea

/-- The color image, the scissor, the rectangle of the fill, and the buffer drawn to. -/
structure BufferFill where
  /-- `RDRAMSize`. -/
  last : ℕ
  last_lt : last < 2 ^ 31
  image : ImageArea last
  scissorUlx : BitVec 12
  scissorUly : BitVec 12
  scissorLrx : BitVec 12
  scissorLry : BitVec 12
  ulx : ℤ
  uly : ℤ
  lrx : ℤ
  lry : ℤ
  buffer : ImageArea last
  height : ℕ
  height_lt : height < 2 ^ 16
  endAddress : BitVec 32
  viWidth : ℕ
  copyAuxToRdram : Bool

namespace BufferFill

variable (f : BufferFill)

/-- A coordinate inside the scissor. -/
def clamp (x : ℤ) (low high : BitVec 12) : ℕ :=
  (min (max (4 * x) low.toNat) high.toNat).toNat / 4

def left : ℕ := clamp f.ulx f.scissorUlx f.scissorLrx >>> (3 - f.image.size)

def right : ℕ := clamp f.lrx f.scissorUlx f.scissorLrx >>> (3 - f.image.size)

def top : ℕ := clamp f.uly f.scissorUly f.scissorLry

/-- `lowerBound`. -/
def lowerBound : ℕ :=
  f.image.address + clamp f.lry f.scissorUly f.scissorLry * f.image.stride

/-- `lry`, as `fillRDRAM` cuts it. -/
def bottom : ℕ :=
  if f.last < f.lowerBound then
    clamp f.lry f.scissorUly f.scissorLry - (f.lowerBound - f.last) / f.image.stride
  else clamp f.lry f.scissorUly f.scissorLry

/-- The words of the rows from `top` on, in an image that starts at `base`. -/
def words (base lineWords bottom : ℕ) : List ℕ :=
  (List.range' f.top (bottom - f.top)).flatMap fun y =>
    (List.range' f.left (f.right - f.left)).map fun x => base + 4 * (y * lineWords + x)

def filledWords : List ℕ := f.words f.image.address f.image.lineWords f.bottom

/-- `fillRDRAM`, where it writes. -/
def fillRdram (color : BitVec 32) (rdram : HostRdram) : HostRdram :=
  f.filledWords.foldl (putWord color) rdram

/-- `lry` in `isValid`. -/
def checkedBottom : ℕ := cutHeight f.last f.buffer.address f.bottom f.buffer.stride

/-- The words `isValid` compares with the color of the fill. -/
def checkedWords : List ℕ :=
  f.words (4 * (f.buffer.address / 4)) f.buffer.lineWords f.checkedBottom

/-- `isValid` behind a fill, when it checks. -/
def isValid (color : BitVec 32) (rdram : HostRdram) : Bool :=
  f.checkedBottom ≠ 0 ∧
    f.checkedWords.countP (fun a =>
      getWord rdram a &&& 0xfffefffe#32 ≠ color &&& 0xfffefffe#32) <
      (f.endAddress - BitVec.ofNat 32 f.buffer.address).toNat / 400

def isAuxiliary : Prop := f.buffer.width ≠ f.viWidth ∨ f.buffer.size < 2

instance decidableIsAuxiliary : Decidable f.isAuxiliary := inferInstanceAs (Decidable (_ ∨ _))

/-- The rows `copyRdram` takes. -/
def copyHeight : ℕ := cutHeight f.last f.buffer.address f.height f.buffer.stride

def dataSize : ℕ := f.buffer.stride * f.copyHeight

/-- The words that `copyRdram` marks, and the bytes behind the address that it reads. -/
def copyWords : List ℕ × ℕ :=
  if f.copyHeight = 0 then ([], 0)
  else if f.isAuxiliary ∧ f.copyAuxToRdram = false then
    ((List.range (max 4 (f.dataSize / 200))).map fun i => 4 * (f.buffer.address / 4 + i), 0)
  else ([], f.dataSize)

/-- The words that `isValid` compares behind a copy: the mark, or the copy. -/
def copiedWords : List ℕ :=
  if f.copyHeight = 0 then []
  else if f.isAuxiliary ∧ f.copyAuxToRdram = false then
    (List.range 4).map fun i => 4 * (f.buffer.address / 4 + i)
  else (List.range (f.dataSize / 4)).map fun i => 4 * (f.buffer.address / 4 + i)

/-- All words lie inside RDRAM. -/
def Inside (words : List ℕ) : Prop := ∀ a ∈ words, a + 4 ≤ f.last + 1

/-- Nothing outside RDRAM is read or written, no shift is negative, nothing is divided by zero, and
    a buffer is valid behind a fill. -/
structure AccessesExact : Prop where
  fill : f.Inside f.filledWords
  check : f.Inside f.checkedWords
  mark : f.Inside f.copyWords.1
  copy : f.buffer.address + f.copyWords.2 ≤ f.last + 1
  compare : f.Inside f.copiedWords
  shift : 0 ≤ 3 - (f.image.size : ℤ) ∧ 0 ≤ 3 - (f.buffer.size : ℤ)
  fillStride : f.last < f.lowerBound → f.image.stride ≠ 0
  checkStride : f.last + 1 < f.buffer.address + f.buffer.stride * f.bottom → f.buffer.stride ≠ 0
  copyStride : f.last + 1 < f.buffer.address + f.buffer.stride * f.height → f.buffer.stride ≠ 0
  valid : ∀ color rdram, f.isValid color (f.fillRdram color rdram) = true

/-- The last words of both rectangles lie inside RDRAM, and so does the mark of a buffer that is
    only marked; rows are left to check, and the words of them that are not filled are fewer than
    `isValid` tolerates. -/
structure Fits : Prop where
  fill : f.top < f.bottom → f.left < f.right →
    f.image.address + 4 * ((f.bottom - 1) * f.image.lineWords + f.right) ≤ f.last + 1
  check : f.top < f.checkedBottom → f.left < f.right →
    4 * (f.buffer.address / 4) + 4 * ((f.checkedBottom - 1) * f.buffer.lineWords + f.right) ≤
      f.last + 1
  mark : f.copyHeight ≠ 0 → f.isAuxiliary → f.copyAuxToRdram = false →
    4 * (f.buffer.address / 4 + max 4 (f.dataSize / 200)) ≤ f.last + 1
  rows : f.checkedBottom ≠ 0
  wrong : f.checkedWords.countP (fun a => a ∉ f.filledWords) <
    (f.endAddress - BitVec.ofNat 32 f.buffer.address).toNat / 400

end BufferFill

-- ════════════════════
-- Words in RDRAM
-- ════════════════════

/-- What is left of the rows lies inside RDRAM. -/
theorem mul_cutHeight_le (last address height stride : ℕ) (haddress : address ≤ last) :
    address + stride * cutHeight last address height stride ≤ last + 1 := by
  unfold cutHeight
  rw [if_neg (Nat.not_lt.2 haddress)]
  split
  next =>
    have hdiv := Nat.mul_div_le (last + 1 - address) stride
    omega
  next h => omega

theorem getWord_putWord_self (v : BitVec 32) (rdram : HostRdram) (a : ℕ) :
    getWord (putWord v rdram a) a = v := by
  unfold getWord putWord
  rw [if_pos (by omega), if_pos (by omega), if_pos (by omega), if_pos (by omega),
    Nat.add_sub_cancel_left, Nat.add_sub_cancel_left, Nat.add_sub_cancel_left, Nat.sub_self]
  ext i hi
  simp only [BitVec.getElem_append, BitVec.getElem_extractLsb']
  grind

theorem getWord_putWord_of_ne (v : BitVec 32) (rdram : HostRdram) {a b : ℕ}
    (h : b + 4 ≤ a ∨ a + 4 ≤ b) : getWord (putWord v rdram a) b = getWord rdram b := by
  unfold getWord putWord
  rw [if_neg (by omega), if_neg (by omega), if_neg (by omega), if_neg (by omega)]

/-- Words that do not overlap are those of the fill behind it. -/
theorem getWord_foldl_putWord (v : BitVec 32) {l : List ℕ} {r : ℕ} (hl : ∀ a ∈ l, a % 4 = r)
    (rdram : HostRdram) {a : ℕ} (ha : a % 4 = r) (hmem : a ∈ l ∨ getWord rdram a = v) :
    getWord (l.foldl (putWord v) rdram) a = v := by
  induction l generalizing rdram with
  | nil => exact hmem.resolve_left List.not_mem_nil
  | cons k l ih =>
    refine ih (fun b hb => hl b (List.mem_cons_of_mem k hb)) _ ?_
    by_cases hak : a = k
    · exact .inr (hak ▸ getWord_putWord_self v rdram a)
    · rcases hmem with hmem | hword
      · exact .inl ((List.mem_cons.1 hmem).resolve_left hak)
      · have hk := hl k List.mem_cons_self
        refine .inr ((getWord_putWord_of_ne v rdram ?_).trans hword)
        omega

theorem getWord_foldl_putWord_of_notMem (v : BitVec 32) {l : List ℕ} {r : ℕ}
    (hl : ∀ a ∈ l, a % 4 = r) (rdram : HostRdram) {a : ℕ} (ha : a % 4 = r) (hnot : a ∉ l) :
    getWord (l.foldl (putWord v) rdram) a = getWord rdram a := by
  induction l generalizing rdram with
  | nil => rfl
  | cons k l ih =>
    rw [List.mem_cons, not_or] at hnot
    obtain ⟨hak, hnotMem⟩ := hnot
    have hk := hl k List.mem_cons_self
    calc
      getWord ((k :: l).foldl (putWord v) rdram) a
      _ = getWord (putWord v rdram k) a :=
        ih (fun b hb => hl b (List.mem_cons_of_mem k hb)) _ hnotMem
      _ = getWord rdram a := getWord_putWord_of_ne v rdram (by omega)

/-- A byte behind a fill of cleared memory is zero or the byte of the color at its place. -/
theorem foldl_putWord_byte (v : BitVec 32) {l : List ℕ} {r : ℕ} (hl : ∀ a ∈ l, a % 4 = r)
    (rdram : HostRdram) {b : ℕ}
    (hb : rdram b = 0 ∨ ∃ i < 4, (r + i) % 4 = b % 4 ∧ rdram b = v.extractLsb' (8 * i) 8) :
    (l.foldl (putWord v) rdram) b = 0 ∨
      ∃ i < 4, (r + i) % 4 = b % 4 ∧
        (l.foldl (putWord v) rdram) b = v.extractLsb' (8 * i) 8 := by
  induction l generalizing rdram with
  | nil => exact hb
  | cons k l ih =>
    refine ih (fun a ha => hl a (List.mem_cons_of_mem k ha)) _ ?_
    have hk := hl k List.mem_cons_self
    unfold putWord
    split
    next hin => exact .inr ⟨b - k, by omega, by omega, rfl⟩
    next => exact hb

theorem second_byte (w x y z : BitVec 8) :
    ((w ++ x ++ y ++ z) &&& 0xfffefffe#32).extractLsb' 8 8 = y := by
  ext i hi
  have hmask : (0xfffefffe#32).getLsbD (8 + i) = true := by
    interval_cases i <;> decide
  simp only [BitVec.getElem_extractLsb', BitVec.getLsbD_and, hmask, Bool.and_true,
    BitVec.getLsbD_append]
  grind

namespace BufferFill

variable {f : BufferFill}

-- ════════════════════
-- The words of a rectangle
-- ════════════════════

theorem mem_words {base lineWords bottom a : ℕ} :
    a ∈ f.words base lineWords bottom ↔ ∃ y x, (f.top ≤ y ∧ y < bottom) ∧
      (f.left ≤ x ∧ x < f.right) ∧ a = base + 4 * (y * lineWords + x) := by
  simp only [words, List.mem_flatMap, List.mem_map, List.mem_range'_1]
  constructor
  · rintro ⟨y, hy, x, hx, rfl⟩
    exact ⟨y, x, by omega, by omega, rfl⟩
  · rintro ⟨y, x, hy, hx, rfl⟩
    exact ⟨y, by omega, x, by omega, rfl⟩

theorem inside_words_iff {base lineWords bottom : ℕ} :
    f.Inside (f.words base lineWords bottom) ↔ (f.top < bottom → f.left < f.right →
      base + 4 * ((bottom - 1) * lineWords + f.right) ≤ f.last + 1) := by
  constructor
  · intro h hrows hcolumns
    have hlast := h _ (mem_words.2 ⟨bottom - 1, f.right - 1, by omega, by omega, rfl⟩)
    omega
  · intro h a ha
    obtain ⟨y, x, hy, hx, rfl⟩ := mem_words.1 ha
    have hfit := h (by omega) (by omega)
    have hline := Nat.mul_le_mul_right lineWords (by omega : y ≤ bottom - 1)
    omega

-- ════════════════════
-- The copy
-- ════════════════════

theorem inside_range {n : ℕ} (hn : 0 < n) :
    f.Inside ((List.range n).map fun i => 4 * (f.buffer.address / 4 + i)) ↔
      4 * (f.buffer.address / 4 + n) ≤ f.last + 1 := by
  simp only [Inside, List.mem_map, List.mem_range]
  constructor
  · intro h
    have hlast := h _ ⟨n - 1, by omega, rfl⟩
    omega
  · rintro h a ⟨i, hi, rfl⟩
    omega

theorem inside_mark_iff : f.Inside f.copyWords.1 ↔
    (f.copyHeight ≠ 0 → f.isAuxiliary → f.copyAuxToRdram = false →
      4 * (f.buffer.address / 4 + max 4 (f.dataSize / 200)) ≤ f.last + 1) := by
  unfold copyWords
  by_cases hrows : f.copyHeight = 0
  · rw [if_pos hrows]
    exact ⟨fun _ h => absurd hrows h, fun _ _ ha => absurd ha List.not_mem_nil⟩
  · rw [if_neg hrows]
    by_cases hmark : f.isAuxiliary ∧ f.copyAuxToRdram = false
    · rw [if_pos hmark, inside_range (by omega)]
      exact ⟨fun h _ _ _ => h, fun h => h hrows hmark.1 hmark.2⟩
    · rw [if_neg hmark]
      exact ⟨fun _ _ h h' => absurd ⟨h, h'⟩ hmark, fun _ _ ha => absurd ha List.not_mem_nil⟩

theorem dataSize_le : f.buffer.address + f.dataSize ≤ f.last + 1 :=
  mul_cutHeight_le _ _ _ _ f.buffer.address_le

theorem copied_le : f.buffer.address + f.copyWords.2 ≤ f.last + 1 := by
  have hle := f.buffer.address_le
  have hdata := f.dataSize_le
  unfold copyWords
  split
  · exact Nat.le_succ_of_le hle
  · split
    · exact Nat.le_succ_of_le hle
    · exact hdata

theorem inside_copied (h : f.Inside f.copyWords.1) : f.Inside f.copiedWords := by
  have hdata := f.dataSize_le
  rw [inside_mark_iff] at h
  unfold copiedWords
  by_cases hrows : f.copyHeight = 0
  · rw [if_pos hrows]
    exact fun _ ha => absurd ha List.not_mem_nil
  · rw [if_neg hrows]
    by_cases hmark : f.isAuxiliary ∧ f.copyAuxToRdram = false
    · rw [if_pos hmark, inside_range (by decide)]
      have hfit := h hrows hmark.1 hmark.2
      omega
    · rw [if_neg hmark]
      intro a ha
      obtain ⟨i, hi, rfl⟩ := List.mem_map.1 ha
      rw [List.mem_range] at hi
      omega

-- ════════════════════
-- The check behind a fill
-- ════════════════════

theorem isValid_iff {color : BitVec 32} {rdram : HostRdram} :
    f.isValid color rdram = true ↔ f.checkedBottom ≠ 0 ∧
      f.checkedWords.countP (fun a =>
        getWord rdram a &&& 0xfffefffe#32 ≠ color &&& 0xfffefffe#32) <
        (f.endAddress - BitVec.ofNat 32 f.buffer.address).toNat / 400 := by
  unfold isValid
  exact decide_eq_true_iff

theorem filledWords_mod {a : ℕ} (ha : a ∈ f.filledWords) : a % 4 = f.image.address % 4 := by
  obtain ⟨y, x, -, -, rfl⟩ := mem_words.1 ha
  omega

theorem checkedWords_mod {a : ℕ} (ha : a ∈ f.checkedWords) : a % 4 = 0 := by
  obtain ⟨y, x, -, -, rfl⟩ := mem_words.1 ha
  omega

theorem getWord_filled (color : BitVec 32) (rdram : HostRdram) {a : ℕ} (ha : a ∈ f.filledWords) :
    getWord (f.fillRdram color rdram) a = color :=
  getWord_foldl_putWord color (fun _ => filledWords_mod) rdram (filledWords_mod ha) (.inl ha)

/-- A color of which no two bytes are the same, in a cleared RDRAM, is found where it was filled
    only. -/
theorem getWord_not_filled {a : ℕ} (ha : a % 4 = 0) (hnot : a ∉ f.filledWords) :
    getWord (f.fillRdram 0x04030201#32 fun _ => 0) a &&& 0xfffefffe#32 ≠
      0x04030201#32 &&& 0xfffefffe#32 := by
  by_cases haligned : f.image.address % 4 = 0
  · rw [fillRdram, getWord_foldl_putWord_of_notMem _ (fun _ => filledWords_mod) _
      (ha.trans haligned.symm) hnot, getWord]
    decide
  · intro h
    have hsecond := congrArg (BitVec.extractLsb' 8 8) h
    rw [getWord, second_byte] at hsecond
    rcases foldl_putWord_byte 0x04030201#32 (l := f.filledWords) (fun _ => filledWords_mod)
        (fun _ => 0) (b := a + 1) (.inl rfl) with hzero | ⟨i, hi, hplace, hbyte⟩
    · rw [fillRdram, hzero] at hsecond
      exact absurd hsecond (by decide)
    · rw [fillRdram, hbyte] at hsecond
      obtain rfl | rfl | rfl | rfl : i = 0 ∨ i = 1 ∨ i = 2 ∨ i = 3 := by omega
      · exact absurd hsecond (by decide)
      · omega
      · exact absurd hsecond (by decide)
      · exact absurd hsecond (by decide)

theorem valid_iff : (∀ color rdram, f.isValid color (f.fillRdram color rdram) = true) ↔
    f.checkedBottom ≠ 0 ∧ f.checkedWords.countP (fun a => a ∉ f.filledWords) <
      (f.endAddress - BitVec.ofNat 32 f.buffer.address).toNat / 400 := by
  simp only [isValid_iff]
  constructor
  · intro h
    obtain ⟨hrows, hlt⟩ := h 0x04030201#32 fun _ => 0
    refine ⟨hrows, lt_of_le_of_lt (List.countP_mono_left fun a ha hnot => ?_) hlt⟩
    exact decide_eq_true
      (getWord_not_filled (checkedWords_mod ha) (of_decide_eq_true hnot))
  · rintro ⟨hrows, hlt⟩ color rdram
    refine ⟨hrows, lt_of_le_of_lt (List.countP_mono_left fun a ha hwrong => ?_) hlt⟩
    refine decide_eq_true fun hfilled => of_decide_eq_true hwrong ?_
    rw [getWord_filled color rdram hfilled]

/-- **Accesses of a frame buffer**: they are as they should be exactly where the fill, the check and
    the mark fit into RDRAM, rows are left to check and few of them are not filled. -/
theorem accessesExact_iff (f : BufferFill) : f.AccessesExact ↔ f.Fits := by
  constructor
  · intro h
    obtain ⟨hrows, hwrong⟩ := valid_iff.1 h.valid
    exact ⟨inside_words_iff.1 h.fill, inside_words_iff.1 h.check, inside_mark_iff.1 h.mark, hrows,
      hwrong⟩
  · intro h
    have hle := f.image.address_le
    have hbuffer := f.buffer.address_le
    have hmark := inside_mark_iff.2 h.mark
    have hsize := f.image.size_le
    have hbufferSize := f.buffer.size_le
    refine ⟨inside_words_iff.2 h.fill, inside_words_iff.2 h.check, hmark, copied_le,
      inside_copied hmark, ⟨by omega, by omega⟩, ?_, ?_, ?_, valid_iff.2 ⟨h.rows, h.wrong⟩⟩
    · intro hlt hzero
      rw [lowerBound, hzero, Nat.mul_zero] at hlt
      omega
    · intro hlt hzero
      rw [hzero, Nat.zero_mul] at hlt
      omega
    · intro hlt hzero
      rw [hzero, Nat.zero_mul] at hlt
      omega

/-- The end of an RDRAM of 8 MiB, 320 pixels of 16 bits wide: 1000 bytes. -/
def endArea : ImageArea 0x7fffff where
  address := 0x7ffc18
  width := 320
  size := 2
  address_le := by decide
  width_pos := by decide
  width_le := by decide
  size_le := by decide

/-- Ten rows of 640 bytes. -/
def endFill : BufferFill where
  last := 0x7fffff
  last_lt := by decide
  image := endArea
  scissorUlx := 0
  scissorUly := 0
  scissorLrx := 1280
  scissorLry := 960
  ulx := 0
  uly := 0
  lrx := 320
  lry := 10
  buffer := endArea
  height := 1
  height_lt := by decide
  endAddress := 0x7ffe97
  viWidth := 320
  copyAuxToRdram := false

/-- Two rows are filled, the second one past the end. -/
theorem not_accessesExact : ¬∀ f : BufferFill, f.AccessesExact := by
  intro h
  have hfit := inside_words_iff.1 (h endFill).fill (by decide) (by decide)
  exact absurd hfit (by decide)

end BufferFill

end Mupen64plus
