import Mathlib.Data.List.TakeWhile
import Mathlib.Logic.Function.Basic
import Mathlib.Data.BitVec
import Mathlib.Data.Nat.Bitwise

/-!
# Copies from RDRAM to the color buffer

`BufferCopy/RDRAMtoColorBuffer.cpp`: the addresses that were written, and the two copies, of the
whole buffer and of the listed pixels. The products of width and height are those of a destination
that is held in memory, so they stay below `2 ^ 32`.

## Main definitions

- `addAddress` — the list of the written addresses
- `copyBufferFromRdram`, `copyPixelsFromRdram` — the copies, with their accesses
- `CopyExact`, `CopiesAgree` — accesses in bounds, listed pixels as in the copy of the whole buffer,
  and 0 elsewhere
- `CopyFits` — the condition on the list

## Main results

- `mem_bufferPositions` — what the copy of the whole buffer writes
- `copiesAgree_iff` — the copies agree for all contents if and only if the condition holds
-/

namespace Mupen64plus

-- ════════════════════════════════════════════════════════════════════════
-- Pixels
-- ════════════════════════════════════════════════════════════════════════

/-- `G_IM_SIZ_16b` and `G_IM_SIZ_32b`. -/
inductive PixelSize where
  | b16 | b32
  deriving DecidableEq, Repr

namespace PixelSize

/-- `sizeof(TSrc)`. -/
def bytes : PixelSize → ℕ
  | b16 => 2
  | b32 => 4

/-- `_xor`. -/
def xor : PixelSize → ℕ
  | b16 => 1
  | b32 => 0

/-- `RGBA16ToABGR32`. -/
def rgba16ToAbgr32 (col : BitVec 16) (fullAlpha : Bool) : BitVec 32 :=
  let col := col.setWidth 32
  let r := ((col >>> 11) &&& 31) <<< 3
  let g := ((col >>> 6) &&& 31) <<< 3
  let b := ((col >>> 1) &&& 31) <<< 3
  let a : BitVec 32 := if fullAlpha then 0xff else if col &&& 1 ≠ 0 then 0xff else 0
  (a <<< 24) ||| (b <<< 16) ||| (g <<< 8) ||| r

/-- `RGBA32ToABGR32`. -/
def rgba32ToAbgr32 (col : BitVec 32) (fullAlpha : Bool) : BitVec 32 :=
  let r := (col >>> 24) &&& 0xff
  let g := (col >>> 16) &&& 0xff
  let b := (col >>> 8) &&& 0xff
  let a : BitVec 32 := if fullAlpha then 0xff else col &&& 0xff
  (a <<< 24) ||| (b <<< 16) ||| (g <<< 8) ||| r

/-- `src[idx]`, where `src` points to byte `address` of RDRAM, on a little-endian host. -/
def load (s : PixelSize) (ram : ℕ → BitVec 8) (address idx : ℕ) : BitVec 32 :=
  let at' := address + s.bytes * idx
  match s with
  | b16 => (ram (at' + 1) ++ ram at').setWidth 32
  | b32 => ram (at' + 3) ++ ram (at' + 2) ++ ram (at' + 1) ++ ram at'

/-- `converter`. -/
def convert (s : PixelSize) (col : BitVec 32) (fullAlpha : Bool) : BitVec 32 :=
  match s with
  | b16 => rgba16ToAbgr32 (col.setWidth 16) fullAlpha
  | b32 => rgba32ToAbgr32 col fullAlpha

end PixelSize

/-- What the copies read of `m_pCurBuffer`. -/
structure ColorBuffer where
  startAddress : ℕ
  width : ℕ
  size : PixelSize
  width_pos : 0 < width

-- ════════════════════════════════════════════════════════════════════════
-- The written addresses
-- ════════════════════════════════════════════════════════════════════════

/-- `m_pCurBuffer` and `m_vecAddress`. -/
structure WrittenPixels where
  curBuffer : Option ColorBuffer
  vecAddress : List ℕ

/-- `reset`. -/
def WrittenPixels.reset : WrittenPixels := ⟨none, []⟩

/-- `addAddress`; `find` is `findBuffer` of the list of frame buffers. -/
def addAddress (find : ℕ → Option ColorBuffer) (s : WrittenPixels) (address size : ℕ) :
    WrittenPixels :=
  match s.curBuffer <|> find address with
  | none => s
  | some b =>
    if size ≠ b.size.bytes ∧ 0 < address % b.size.bytes then { s with curBuffer := some b }
    else ⟨some b, s.vecAddress ++ [address]⟩

/-- The state after calls of `addAddress` with addresses and sizes. -/
def WrittenPixels.collect (find : ℕ → Option ColorBuffer) (calls : List (ℕ × ℕ)) : WrittenPixels :=
  calls.foldl (fun s call => addAddress find s call.1 call.2) reset

-- ════════════════════════════════════════════════════════════════════════
-- The copies
-- ════════════════════════════════════════════════════════════════════════

/-- The destination and `summ`, with the indices that were read and written. -/
structure CopyState where
  dst : ℕ → BitVec 32
  summ : BitVec 32
  reads : List ℕ
  writes : List ℕ

section

variable (ram : ℕ → BitVec 8) (fullAlpha : Bool) (b : ColorBuffer)

/-- `col = src[idx]; summ += col; dst[at] = converter(col)`. -/
def CopyState.copy (s : CopyState) (idx at' : ℕ) : CopyState :=
  let col := b.size.load ram b.startAddress idx
  { dst := Function.update s.dst at' (b.size.convert col fullAlpha)
    summ := s.summ + col
    reads := s.reads ++ [idx]
    writes := s.writes ++ [at'] }

/-- One row of `_copyBufferFromRdram`, with its `break`. -/
def copyRow (bound y : ℕ) : List ℕ → CopyState → CopyState
  | [], s => s
  | x :: xs, s =>
    let idx := (x + y * b.width) ^^^ b.size.xor
    if bound ≤ idx then s
    else copyRow bound y xs (s.copy ram fullAlpha b idx (x + y * b.width))

/-- `_copyBufferFromRdram`, for whole rows from the first one on. -/
def copyBufferFromRdram (rdramSize height : ℕ) (dst : ℕ → BitVec 32) : Bool × CopyState :=
  let s : CopyState := ⟨dst, 0, [], []⟩
  if b.startAddress % 2 ≠ 0 then (false, s)
  else
    let bound := (rdramSize + 1 - b.startAddress) / b.size.bytes
    let s := (List.range height).foldl (fun s y =>
      copyRow ram fullAlpha b bound y (List.range b.width) s) s
    (s.summ ≠ 0, s)

/-- The index of a listed address. -/
def ColorBuffer.index (address : ℕ) : ℕ := (address - b.startAddress) / b.size.bytes

/-- The loop of `_copyPixelsFromRdram`, with its two ways out. -/
def copyListed (height : ℕ) : List ℕ → CopyState → Bool × CopyState
  | [], s => (s.summ ≠ 0, s)
  | address :: rest, s =>
    if address < b.startAddress then (false, s)
    else
      let idx := b.index address
      let w := idx % b.width
      let h := idx / b.width
      if height < h then (false, s)
      else copyListed height rest (s.copy ram fullAlpha b idx ((w + h * b.width) ^^^ b.size.xor))

/-- `_copyPixelsFromRdram`; its first step clears the destination. -/
def copyPixelsFromRdram (height : ℕ) (addresses : List ℕ) (dst : ℕ → BitVec 32) :
    Bool × CopyState :=
  copyListed ram fullAlpha b height addresses
    ⟨fun p => if p < b.width * height then 0 else dst p, 0, [], []⟩

/-- `cutHeight`. -/
def cutHeight (rdramSize address height stride : ℕ) : ℕ :=
  if rdramSize < address then 0
  else if rdramSize + 1 < address + stride * height then (rdramSize + 1 - address) / stride
  else height

/-- The height `copyFromRDRAM` hands over, from that of the video interface. -/
def ColorBuffer.copyHeight (rdramSize viHeight : ℕ) : ℕ :=
  cutHeight rdramSize b.startAddress viHeight (b.width * b.size.bytes)

end

-- ════════════════════════════════════════════════════════════════════════
-- What the copies should do
-- ════════════════════════════════════════════════════════════════════════

namespace ColorBuffer

variable (b : ColorBuffer)

/-- The position in the destination of the pixel a listed address is in. -/
def position (address : ℕ) : ℕ := b.index address ^^^ b.size.xor

/-- Pixel `idx` lies in RDRAM. -/
def InRdram (rdramSize idx : ℕ) : Prop :=
  b.startAddress + b.size.bytes * idx + b.size.bytes ≤ rdramSize + 1

/-- An address of the list is in the pixel at `p`. -/
def Listed (addresses : List ℕ) (p : ℕ) : Prop :=
  ∃ address ∈ addresses, b.startAddress ≤ address ∧ b.position address = p

end ColorBuffer

/-- Both copies write inside the destination and read inside RDRAM, and the copy of the list holds
each listed pixel as the copy of the whole buffer writes it, and 0 elsewhere. -/
structure CopyExact (rdramSize height : ℕ) (b : ColorBuffer) (addresses : List ℕ)
    (buffer pixels : CopyState) : Prop where
  bufferWrites : ∀ p ∈ buffer.writes, p < b.width * height
  bufferReads : ∀ i ∈ buffer.reads, b.InRdram rdramSize i
  pixelWrites : ∀ p ∈ pixels.writes, p < b.width * height
  pixelReads : ∀ i ∈ pixels.reads, b.InRdram rdramSize i
  listed : ∀ p < b.width * height, b.Listed addresses p →
    p ∈ buffer.writes ∧ pixels.dst p = buffer.dst p
  others : ∀ p < b.width * height, ¬b.Listed addresses p → pixels.dst p = 0

/-- For all contents of RDRAM and of the destination. -/
def CopiesAgree (rdramSize viHeight : ℕ) (b : ColorBuffer) (addresses : List ℕ) : Prop :=
  let height := b.copyHeight rdramSize viHeight
  ∀ ram fullAlpha dst, CopyExact rdramSize height b addresses
    (copyBufferFromRdram ram fullAlpha b rdramSize height dst).2
    (copyPixelsFromRdram ram fullAlpha b height addresses dst).2

/-- A list that names every pixel gives the whole buffer. -/
theorem CopyExact.all {rdramSize height : ℕ} {b : ColorBuffer} {addresses : List ℕ}
    {buffer pixels : CopyState} (h : CopyExact rdramSize height b addresses buffer pixels)
    (hall : ∀ p < b.width * height, b.Listed addresses p) :
    ∀ p < b.width * height, pixels.dst p = buffer.dst p := fun p hp =>
  (h.listed p hp (hall p hp)).2

/-- The listed addresses before the first one that is below the buffer or more than a row behind
it. -/
def ColorBuffer.taken (b : ColorBuffer) (height : ℕ) (addresses : List ℕ) : List ℕ :=
  addresses.takeWhile fun a => b.startAddress ≤ a ∧ b.index a / b.width ≤ height

/-- The addresses before the first one that ends the copy are in pixels of the buffer, which have
their place in the destination and lie in RDRAM; every listed pixel is among them; and the buffer
starts at an even address if there is one. -/
structure CopyFits (rdramSize height : ℕ) (b : ColorBuffer) (addresses : List ℕ) : Prop where
  inside : ∀ a ∈ b.taken height addresses,
    b.position a < b.width * height ∧ b.InRdram rdramSize (b.index a)
  complete : ∀ p < b.width * height, b.Listed addresses p →
    b.Listed (b.taken height addresses) p
  even : ∀ p < b.width * height, b.Listed addresses p → b.startAddress % 2 = 0

-- ════════════════════════════════════════════════════════════════════════
-- Sequences of copied pixels
-- ════════════════════════════════════════════════════════════════════════

section

variable {ram : ℕ → BitVec 8} {fullAlpha : Bool} {b : ColorBuffer}

theorem xor_xor_cancel_right (i x : ℕ) : i ^^^ x ^^^ x = i := by
  rw [Nat.xor_assoc, Nat.xor_self, Nat.xor_zero]

/-- The pixels at these positions, in order. -/
def CopyState.copyAll (ram : ℕ → BitVec 8) (fullAlpha : Bool) (b : ColorBuffer) (s : CopyState)
    (positions : List ℕ) : CopyState :=
  positions.foldl (fun s p => s.copy ram fullAlpha b (p ^^^ b.size.xor) p) s

theorem copyAll_cons (s : CopyState) (p : ℕ) (ps : List ℕ) :
    s.copyAll ram fullAlpha b (p :: ps) =
      (s.copy ram fullAlpha b (p ^^^ b.size.xor) p).copyAll ram fullAlpha b ps := rfl

theorem copyAll_writes (s : CopyState) (ps : List ℕ) :
    (s.copyAll ram fullAlpha b ps).writes = s.writes ++ ps := by
  induction ps generalizing s with
  | nil => exact (List.append_nil _).symm
  | cons p ps ih => rw [copyAll_cons, ih, CopyState.copy, List.append_assoc, List.singleton_append]

theorem copyAll_reads (s : CopyState) (ps : List ℕ) :
    (s.copyAll ram fullAlpha b ps).reads = s.reads ++ ps.map (· ^^^ b.size.xor) := by
  induction ps generalizing s with
  | nil => exact (List.append_nil _).symm
  | cons p ps ih =>
    rw [copyAll_cons, ih, CopyState.copy, List.append_assoc, List.singleton_append, List.map_cons]

/-- The entry of a pixel. -/
def ColorBuffer.entry (b : ColorBuffer) (ram : ℕ → BitVec 8) (fullAlpha : Bool) (p : ℕ) :
    BitVec 32 :=
  b.size.convert (b.size.load ram b.startAddress (p ^^^ b.size.xor)) fullAlpha

theorem copyAll_dst (s : CopyState) (ps : List ℕ) (p : ℕ) :
    (s.copyAll ram fullAlpha b ps).dst p =
      if p ∈ ps then b.entry ram fullAlpha p else s.dst p := by
  induction ps generalizing s with
  | nil => rfl
  | cons q ps ih =>
    rw [copyAll_cons, ih]
    by_cases hmem : p ∈ ps
    · rw [if_pos hmem, if_pos (List.mem_cons_of_mem q hmem)]
    · rw [if_neg hmem, CopyState.copy]
      dsimp only
      by_cases hpq : p = q
      · subst hpq
        rw [Function.update_self, if_pos List.mem_cons_self]
        rfl
      · rw [Function.update_of_ne hpq, if_neg (by simp [hpq, hmem])]

theorem copyRow_eq (bound y : ℕ) (xs : List ℕ) (s : CopyState) :
    copyRow ram fullAlpha b bound y xs s =
      s.copyAll ram fullAlpha b ((xs.map (· + y * b.width)).takeWhile fun p =>
        p ^^^ b.size.xor < bound) := by
  induction xs generalizing s with
  | nil => rfl
  | cons x xs ih =>
    rw [copyRow, List.map_cons, List.takeWhile_cons]
    by_cases hbound : bound ≤ (x + y * b.width) ^^^ b.size.xor
    · simp only [if_pos hbound, not_lt.2 hbound, decide_false, Bool.false_eq_true, if_false]
      rfl
    · simp only [if_neg hbound, not_le.1 hbound, decide_true, if_true]
      rw [ih, copyAll_cons]

/-- The positions that the copy of the whole buffer writes. -/
def ColorBuffer.bufferPositions (b : ColorBuffer) (bound height : ℕ) : List ℕ :=
  (List.range height).flatMap fun y =>
    ((List.range b.width).map (· + y * b.width)).takeWhile fun p => p ^^^ b.size.xor < bound

/-- The number of pixels between the start of the buffer and the end of RDRAM. -/
def ColorBuffer.bound (b : ColorBuffer) (rdramSize : ℕ) : ℕ :=
  (rdramSize + 1 - b.startAddress) / b.size.bytes

theorem copyBufferFromRdram_eq (rdramSize height : ℕ) (dst : ℕ → BitVec 32) :
    (copyBufferFromRdram ram fullAlpha b rdramSize height dst).2 =
      CopyState.copyAll ram fullAlpha b ⟨dst, 0, [], []⟩ (if b.startAddress % 2 = 0 then
        b.bufferPositions (b.bound rdramSize) height else []) := by
  unfold copyBufferFromRdram
  by_cases heven : b.startAddress % 2 = 0
  · simp only [heven, ne_eq, not_true_eq_false, if_false, if_true, copyRow_eq]
    unfold ColorBuffer.bufferPositions CopyState.copyAll
    rw [List.foldl_flatMap]
    rfl
  · simp only [heven, ne_eq, not_false_eq_true, if_true, if_false]
    rfl

theorem copyListed_eq (height : ℕ) (addresses : List ℕ) (s : CopyState) :
    (copyListed ram fullAlpha b height addresses s).2 =
      s.copyAll ram fullAlpha b ((b.taken height addresses).map b.position) := by
  induction addresses generalizing s with
  | nil => rfl
  | cons a rest ih =>
    have hposition : (b.index a % b.width + b.index a / b.width * b.width) ^^^ b.size.xor =
        b.position a := by
      rw [Nat.mod_add_div']
      rfl
    have hindex : b.index a = b.position a ^^^ b.size.xor := (xor_xor_cancel_right _ _).symm
    unfold ColorBuffer.taken
    rw [copyListed, List.takeWhile_cons]
    by_cases hstart : a < b.startAddress
    · simp only [if_pos hstart, not_le.2 hstart, false_and, decide_false, Bool.false_eq_true,
        if_false]
      rfl
    · by_cases hheight : height < b.index a / b.width
      · simp only [if_neg hstart, if_pos hheight, not_le.2 hheight, and_false, decide_false,
          Bool.false_eq_true, if_false]
        rfl
      · simp only [if_neg hstart, if_neg hheight, not_lt.1 hstart, not_lt.1 hheight, and_self,
          decide_true, if_true]
        rw [ih, hposition, List.map_cons, copyAll_cons, ← hindex]
        rfl

end

-- ════════════════════════════════════════════════════════════════════════
-- The pixels in RDRAM
-- ════════════════════════════════════════════════════════════════════════

section

variable {b : ColorBuffer} {rdramSize height viHeight : ℕ}

theorem PixelSize.bytes_pos (s : PixelSize) : 0 < s.bytes := by
  cases s <;> decide

theorem inRdram_iff (i : ℕ) : b.InRdram rdramSize i ↔ i < b.bound rdramSize := by
  have hpos := b.size.bytes_pos
  unfold ColorBuffer.InRdram ColorBuffer.bound
  rw [← Nat.succ_le_iff, Nat.le_div_iff_mul_le hpos, Nat.succ_mul, Nat.mul_comm]
  omega

/-- The rows of a cut height lie in RDRAM. -/
theorem mul_copyHeight_le : b.width * b.copyHeight rdramSize viHeight ≤ b.bound rdramSize := by
  unfold ColorBuffer.bound ColorBuffer.copyHeight cutHeight
  rw [Nat.le_div_iff_mul_le b.size.bytes_pos, Nat.mul_right_comm]
  split
  · rw [Nat.mul_zero]
    exact Nat.zero_le _
  · split
    · exact Nat.mul_div_le _ _
    · omega

theorem mem_takeWhile_range' {f : ℕ → Bool} {n c x : ℕ} :
    x ∈ (List.range' c n).takeWhile f ↔ c ≤ x ∧ x < c + n ∧ ∀ q, c ≤ q → q ≤ x → f q = true := by
  induction n generalizing c with
  | zero =>
    rw [List.range'_zero, List.takeWhile_nil]
    exact iff_of_false List.not_mem_nil fun h => by omega
  | succ n ih =>
    rw [List.range'_succ, List.takeWhile_cons]
    by_cases hc : f c = true
    · rw [if_pos hc, List.mem_cons, ih]
      constructor
      · rintro (rfl | ⟨hle, hlt, hall⟩)
        · refine ⟨le_rfl, by omega, fun q hq hq' => ?_⟩
          rwa [Nat.le_antisymm hq' hq]
        · refine ⟨by omega, by omega, fun q hq hq' => ?_⟩
          rcases hq.eq_or_lt with rfl | hlt'
          · exact hc
          · exact hall q hlt' hq'
      · rintro ⟨hle, hlt, hall⟩
        rcases hle.eq_or_lt with rfl | hlt'
        · exact .inl rfl
        · exact .inr ⟨hlt', by omega, fun q hq hq' => hall q (by omega) hq'⟩
    · rw [if_neg hc]
      exact iff_of_false List.not_mem_nil fun h => hc (h.2.2 c le_rfl h.1)

theorem xor_le_succ (s : PixelSize) (q : ℕ) : q ^^^ s.xor ≤ q + 1 := by
  cases s with
  | b16 =>
    rcases Nat.even_or_odd q with heven | hodd
    · exact (Nat.xor_one_of_even heven).le
    · exact (Nat.xor_one_of_odd hodd).le.trans (by omega)
  | b32 => exact (Nat.xor_zero q).le.trans q.le_succ

/-- The copy of the whole buffer writes all its pixels that lie in RDRAM. -/
theorem mem_bufferPositions (hheight : b.width * height ≤ b.bound rdramSize) {p : ℕ} :
    p ∈ b.bufferPositions (b.bound rdramSize) height ↔
      p < b.width * height ∧ b.InRdram rdramSize (p ^^^ b.size.xor) := by
  have hrow : ∀ y, (List.range b.width).map (· + y * b.width) =
      List.range' (y * b.width) b.width := fun y => by
    rw [List.range'_eq_map_range]
    exact List.map_congr_left fun x _ => Nat.add_comm _ _
  unfold ColorBuffer.bufferPositions
  simp only [List.mem_flatMap, List.mem_range, hrow, mem_takeWhile_range', decide_eq_true_eq,
    inRdram_iff]
  constructor
  · rintro ⟨y, hy, hle, hlt, hall⟩
    have hmul : (y + 1) * b.width ≤ height * b.width := Nat.mul_le_mul_right _ hy
    rw [Nat.succ_mul, Nat.mul_comm height] at hmul
    exact ⟨by omega, hall p hle le_rfl⟩
  · rintro ⟨hp, hbound⟩
    refine ⟨p / b.width, Nat.div_lt_of_lt_mul hp, Nat.div_mul_le_self _ _, ?_, fun q _ hq => ?_⟩
    · have hmod := Nat.mod_lt p b.width_pos
      have hdiv := Nat.mod_add_div' p b.width
      omega
    · rcases hq.eq_or_lt with rfl | hlt
      · exact hbound
      · have hxor := xor_le_succ b.size q
        omega

end

-- ════════════════════════════════════════════════════════════════════════
-- Lists of pixels
-- ════════════════════════════════════════════════════════════════════════

section

variable {b : ColorBuffer} {rdramSize viHeight height : ℕ} {addresses : List ℕ}

theorem listed_taken {p : ℕ} :
    b.Listed (b.taken height addresses) p ↔
      p ∈ (b.taken height addresses).map b.position := by
  rw [List.mem_map]
  constructor
  · rintro ⟨a, ha, -, hp⟩
    exact ⟨a, ha, hp⟩
  · rintro ⟨a, ha, hp⟩
    have htaken := List.mem_takeWhile_imp ha
    exact ⟨a, ha, (of_decide_eq_true htaken).1, hp⟩

theorem Listed.of_taken {p : ℕ} (h : b.Listed (b.taken height addresses) p) :
    b.Listed addresses p := by
  obtain ⟨a, ha, hp⟩ := h
  exact ⟨a, (List.takeWhile_sublist _).subset ha, hp⟩

theorem load_white (t : PixelSize) (address i : ℕ) :
    t.load (fun _ => 0xff) address i = match t with | .b16 => 0xffff | .b32 => 0xffffffff := by
  cases t with
  | b16 => exact (by decide : ((0xff : BitVec 8) ++ (0xff : BitVec 8)).setWidth 32 = 0xffff)
  | b32 =>
    exact (by decide : (0xff : BitVec 8) ++ (0xff : BitVec 8) ++ (0xff : BitVec 8) ++
      (0xff : BitVec 8) = (0xffffffff : BitVec 32))

/-- No entry of a white pixel is 0. -/
theorem entry_white (p : ℕ) : b.entry (fun _ => 0xff) true p ≠ 0 := by
  unfold ColorBuffer.entry
  rw [load_white]
  cases b.size <;> decide

section

variable {ram : ℕ → BitVec 8} {fullAlpha : Bool} {dst : ℕ → BitVec 32}

theorem mem_bufferWrites (hheight : b.width * height ≤ b.bound rdramSize) {p : ℕ} :
    p ∈ (copyBufferFromRdram ram fullAlpha b rdramSize height dst).2.writes ↔
      b.startAddress % 2 = 0 ∧ p < b.width * height ∧
        b.InRdram rdramSize (p ^^^ b.size.xor) := by
  rw [copyBufferFromRdram_eq, copyAll_writes, List.nil_append]
  split
  · next heven => rw [mem_bufferPositions hheight, and_iff_right heven]
  · next hodd => exact iff_of_false List.not_mem_nil fun h => hodd h.1

theorem bufferReads_inRdram (hheight : b.width * height ≤ b.bound rdramSize) {i : ℕ}
    (hi : i ∈ (copyBufferFromRdram ram fullAlpha b rdramSize height dst).2.reads) :
    b.InRdram rdramSize i := by
  rw [copyBufferFromRdram_eq, copyAll_reads, List.nil_append] at hi
  split at hi
  · obtain ⟨p, hp, rfl⟩ := List.mem_map.1 hi
    exact ((mem_bufferPositions hheight).1 hp).2
  · exact absurd hi List.not_mem_nil

theorem bufferDst {p : ℕ}
    (hp : p ∈ (copyBufferFromRdram ram fullAlpha b rdramSize height dst).2.writes) :
    (copyBufferFromRdram ram fullAlpha b rdramSize height dst).2.dst p =
      b.entry ram fullAlpha p := by
  rw [copyBufferFromRdram_eq, copyAll_writes, List.nil_append] at hp
  rw [copyBufferFromRdram_eq, copyAll_dst, if_pos hp]

theorem pixelWrites_eq : (copyPixelsFromRdram ram fullAlpha b height addresses dst).2.writes =
    (b.taken height addresses).map b.position := by
  unfold copyPixelsFromRdram
  rw [copyListed_eq, copyAll_writes, List.nil_append]

theorem pixelReads_eq : (copyPixelsFromRdram ram fullAlpha b height addresses dst).2.reads =
    (b.taken height addresses).map b.index := by
  unfold copyPixelsFromRdram
  rw [copyListed_eq, copyAll_reads, List.nil_append, List.map_map]
  exact List.map_congr_left fun a _ => xor_xor_cancel_right _ _

theorem pixelDst {p : ℕ} (hp : p < b.width * height) :
    (b.Listed (b.taken height addresses) p →
      (copyPixelsFromRdram ram fullAlpha b height addresses dst).2.dst p =
        b.entry ram fullAlpha p) ∧
    (¬b.Listed (b.taken height addresses) p →
      (copyPixelsFromRdram ram fullAlpha b height addresses dst).2.dst p = 0) := by
  unfold copyPixelsFromRdram
  rw [copyListed_eq, copyAll_dst, listed_taken]
  exact ⟨fun h => if_pos h, fun h => (if_neg h).trans (if_pos hp)⟩

/-- The two copies agree where the accesses are in bounds and every listed pixel is reached, or its
entry happens to be 0. -/
theorem copyExact_iff (hheight : b.width * height ≤ b.bound rdramSize) :
    CopyExact rdramSize height b addresses
        (copyBufferFromRdram ram fullAlpha b rdramSize height dst).2
        (copyPixelsFromRdram ram fullAlpha b height addresses dst).2 ↔
      (∀ a ∈ b.taken height addresses,
        b.position a < b.width * height ∧ b.InRdram rdramSize (b.index a)) ∧
      ∀ p < b.width * height, b.Listed addresses p →
        b.startAddress % 2 = 0 ∧ b.InRdram rdramSize (p ^^^ b.size.xor) ∧
          (b.Listed (b.taken height addresses) p ∨ b.entry ram fullAlpha p = 0) := by
  constructor
  · intro h
    refine ⟨fun a ha => ⟨h.pixelWrites _ ?_, h.pixelReads _ ?_⟩, fun p hp hlisted => ?_⟩
    · rw [pixelWrites_eq]
      exact List.mem_map_of_mem ha
    · rw [pixelReads_eq]
      exact List.mem_map_of_mem ha
    · obtain ⟨hwritten, heq⟩ := h.listed p hp hlisted
      obtain ⟨heven, -, hin⟩ := (mem_bufferWrites hheight).1 hwritten
      refine ⟨heven, hin, or_iff_not_imp_left.2 fun hskipped => ?_⟩
      rw [← bufferDst hwritten, ← heq]
      exact (pixelDst hp).2 hskipped
  · rintro ⟨htaken, hlisted⟩
    have hwrites : ∀ p ∈ (copyPixelsFromRdram ram fullAlpha b height addresses dst).2.writes,
        p < b.width * height := by
      rw [pixelWrites_eq, List.forall_mem_map]
      exact fun a ha => (htaken a ha).1
    have hreads : ∀ i ∈ (copyPixelsFromRdram ram fullAlpha b height addresses dst).2.reads,
        b.InRdram rdramSize i := by
      rw [pixelReads_eq, List.forall_mem_map]
      exact fun a ha => (htaken a ha).2
    refine ⟨fun p hp => ((mem_bufferWrites hheight).1 hp).2.1,
      fun i hi => bufferReads_inRdram hheight hi, hwrites, hreads, fun p hp h => ?_,
      fun p hp h => (pixelDst hp).2 fun ht => h (Listed.of_taken ht)⟩
    obtain ⟨heven, hin, hentry⟩ := hlisted p hp h
    have hwritten : p ∈ (copyBufferFromRdram ram fullAlpha b rdramSize height dst).2.writes :=
      (mem_bufferWrites hheight).2 ⟨heven, hp, hin⟩
    refine ⟨hwritten, ?_⟩
    rw [bufferDst hwritten]
    by_cases hreached : b.Listed (b.taken height addresses) p
    · exact (pixelDst hp).1 hreached
    · exact ((pixelDst hp).2 hreached).trans (hentry.resolve_left hreached).symm

end

theorem CopyFits.agree (h : CopyFits rdramSize (b.copyHeight rdramSize viHeight) b addresses) :
    CopiesAgree rdramSize viHeight b addresses := by
  intro ram fullAlpha dst
  refine (copyExact_iff mul_copyHeight_le).2 ⟨h.inside, fun p hp hlisted => ?_⟩
  have htaken := h.complete p hp hlisted
  obtain ⟨a, ha, -, rfl⟩ := id htaken
  have hin := (h.inside a ha).2
  rw [← xor_xor_cancel_right (b.index a) b.size.xor] at hin
  exact ⟨h.even _ hp hlisted, hin, .inl htaken⟩

theorem CopiesAgree.fits (h : CopiesAgree rdramSize viHeight b addresses) :
    CopyFits rdramSize (b.copyHeight rdramSize viHeight) b addresses := by
  obtain ⟨hinside, hlisted⟩ :=
    (copyExact_iff mul_copyHeight_le).1 (h (fun _ => 0xff) true fun _ => 0)
  refine ⟨hinside, fun p hp hl => ?_, fun p hp hl => (hlisted p hp hl).1⟩
  exact (hlisted p hp hl).2.2.resolve_right (entry_white p)

/-- For every buffer, whether it is the current one or not, every height and sequence of
`addAddress`: the copies access only the destination
and RDRAM, and that of the listed pixels agrees with that of the whole buffer, for all contents,
exactly when the list fits. -/
theorem copiesAgree_iff (rdramSize viHeight : ℕ) (find : ℕ → Option ColorBuffer)
    (calls : List (ℕ × ℕ)) (b : ColorBuffer) :
    CopiesAgree rdramSize viHeight b (WrittenPixels.collect find calls).vecAddress ↔
      CopyFits rdramSize (b.copyHeight rdramSize viHeight) b
        (WrittenPixels.collect find calls).vecAddress :=
  ⟨CopiesAgree.fits, CopyFits.agree⟩

/-- Two rows of two pixels at the start of RDRAM. -/
def twoRows : ColorBuffer := ⟨0, 2, .b16, by decide⟩

/-- The first pixel of the row behind the buffer is listed. -/
theorem not_copiesAgree : ¬CopiesAgree 0x7fffff 2 twoRows
    (WrittenPixels.collect (fun _ => some twoRows) [(2, 2), (8, 2)]).vecAddress := by
  intro h
  exact absurd (h.fits.inside 8 (by decide)).1 (by decide)

end

end Mupen64plus
