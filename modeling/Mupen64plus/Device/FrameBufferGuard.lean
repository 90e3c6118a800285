import Mathlib.Data.List.Nodup
import Mathlib.Data.BitVec
import Mathlib.Tactic.Common
import Mathlib.Tactic.IntervalCases
import Mupen64plus.Lib.LowXor
import Mupen64plus.Rsp.DmaAgreement

/-!
# Frame buffers behind protected regions

`fb.c`: behind a graphics task the plugin reports up to six frame buffers, and the regions of RDRAM
they lie in are mapped to functions that tell it of stores. The interpreters store words under a
mask, a doubleword as two of them behind one look at the handlers, where SDL and SDR can leave one
of the two with mask 0; the signal processor stores rows.
The plugin has all three functions of the interface. Addresses are those in RDRAM on a host that
keeps words the other way around.

## Main definitions

- `FrameBufferInfo`, `FbReport` — a buffer, and a report of buffers inside RDRAM
- `Fb.protectFramebuffers`, `Fb.unprotectFramebuffers`, `Fb.preFramebufferRead`,
  `postFramebufferWrite` — the functions
- `FbEvent`, `Fb.step` — tasks, loads, stores and rows
- `Fb.Covered`, `Fb.Fits` — the plugin learns what is written, and when it does

## Main results

- `mem_bytesOf_post`, `nodup_bytesOf_post` — what the plugin is told of one write
- `words_covered` — what it is told of the words of a store
- `zeroMask_not_covered` — the word with mask 0
- `row_written` — the bytes of a row
-/

namespace Mupen64plus

open LowXor

-- ════════════════════════════════════════════════════════════════════════
-- The functions
-- ════════════════════════════════════════════════════════════════════════

/-- The functions a region of 64 KiB is mapped to. -/
inductive RdramHandler where
  | dram
  | fb
  deriving DecidableEq, Repr

structure FrameBufferInfo where
  addr : ℕ
  size : ℕ
  width : ℕ
  height : ℕ

namespace FrameBufferInfo

variable (info : FrameBufferInfo)

/-- `fb_buffer_size`. -/
def bufferSize : ℕ := info.width * info.height * info.size

/-- `end`. -/
def last : ℕ := info.addr + info.bufferSize - 1

def Contains (a : ℕ) : Prop := info.addr ≤ a ∧ a ≤ info.last

instance decidableContains (a : ℕ) : Decidable (info.Contains a) :=
  inferInstanceAs (Decidable (_ ∧ _))

end FrameBufferInfo

/-- `FB_INFOS_COUNT` entries. -/
abbrev FrameBufferInfos := Fin 6 → FrameBufferInfo

/-- `FB_DIRTY_PAGES_COUNT`. -/
def fbDirtyPagesCount : ℕ := 0x800

/-- `dram_size`, with the expansion pak and without. -/
def dramSize (expansion : Bool) : ℕ := if expansion then 0x800000 else 0x400000

/-- What the plugin reports. -/
structure FbReport (expansion : Bool) where
  infos : FrameBufferInfos
  inside : ∀ i, (infos i).addr + (infos i).bufferSize ≤ dramSize expansion

structure Fb where
  handlers : ℕ → RdramHandler
  infos : FrameBufferInfos
  dirtyPage : ℕ → Bool
  /-- Where `dirty_page` was read or written. -/
  pages : List ℕ

/-- `apply_mem_mapping`. -/
def applyMemMapping (handler : RdramHandler) (info : FrameBufferInfo)
    (handlers : ℕ → RdramHandler) : ℕ → RdramHandler := fun region =>
  if info.addr >>> 16 ≤ region ∧ region ≤ info.last >>> 16 then handler else handlers region

namespace Fb

/-- `poweron_fb`, with RDRAM mapped to its own functions. -/
def poweron : Fb where
  handlers := fun _ => .dram
  infos := fun _ => ⟨0, 0, 0, 0⟩
  dirtyPage := fun _ => false
  pages := []

/-- An entry is mapped, unless it is empty. -/
def mapTurn (handler : RdramHandler) (fb : Fb) (i : Fin 6) : Fb :=
  if (fb.infos i).addr = 0 then fb
  else { fb with handlers := applyMemMapping handler (fb.infos i) fb.handlers }

/-- The pages of an entry are marked, unless it is empty. -/
def markTurn (fb : Fb) (i : Fin 6) : Fb :=
  if (fb.infos i).addr = 0 then fb
  else
    let pages := List.range' ((fb.infos i).addr >>> 12)
      ((fb.infos i).last >>> 12 + 1 - (fb.infos i).addr >>> 12)
    { fb with
      dirtyPage := fun page => fb.dirtyPage page || pages.contains page
      pages := fb.pages ++ pages }

/-- `protect_framebuffers`. -/
def protectFramebuffers (infos : FrameBufferInfos) (fb : Fb) : Fb :=
  if (infos 0).addr = 0 then { fb with infos }
  else (List.finRange 6).foldl (fun fb i => (fb.mapTurn .fb i).markTurn i) { fb with infos }

/-- `unprotect_framebuffers`. -/
def unprotectFramebuffers (fb : Fb) : Fb :=
  if (fb.infos 0).addr = 0 then fb else (List.finRange 6).foldl (mapTurn .dram) fb

/-- A turn of `pre_framebuffer_read`: a dirty page is read and written. -/
def readTurn (address : ℕ) (fb : Fb) (i : Fin 6) : Fb :=
  if (fb.infos i).addr ≠ 0 ∧ (fb.infos i).Contains address then
    if fb.dirtyPage (address >>> 12) then
      { fb with
        dirtyPage := fun page => if page = address >>> 12 then false else fb.dirtyPage page
        pages := fb.pages ++ [address >>> 12, address >>> 12] }
    else { fb with pages := fb.pages ++ [address >>> 12] }
  else fb

def preFramebufferRead (address : ℕ) (fb : Fb) : Fb :=
  if (fb.infos 0).addr = 0 then fb else (List.finRange 6).foldl (readTurn address) fb

end Fb

/-- `size` in `post_framebuffer_write`. -/
def chunkSize (length : ℕ) : ℕ := if length % 4 = 0 then 4 else if length % 2 = 0 then 2 else 1

/-- `post_framebuffer_write`: the calls of `fBWrite` in the turn of an entry. -/
def postFramebufferWrite (infos : FrameBufferInfos) (address length : ℕ) (i : Fin 6) :
    List (ℕ × ℕ) :=
  if (infos 0).addr = 0 ∨ (infos i).addr = 0 then []
  else
    ((List.range (length / chunkSize length)).filter fun k =>
      (infos i).Contains (address + chunkSize length * k)).map fun k =>
        (address + chunkSize length * k, chunkSize length)

/-- The offset and the size `write_rdram_fb` reads off a mask. -/
def maskBytes (mask : BitVec 32) : ℕ × ℕ :=
  let s8 := 3
  let s16 := 2
  let sh16 := 1
  if mask = 0x000000ff#32 then (3 ^^^ s8, 1)
  else if mask = 0x0000ff00#32 then (2 ^^^ s8, 1)
  else if mask = 0x00ff0000#32 then (1 ^^^ s8, 1)
  else if mask = 0xff000000#32 then (0 ^^^ s8, 1)
  else if mask = 0x0000ffff#32 then (2 ^^^ s16, 2)
  else if mask = 0xffff0000#32 then (0 ^^^ s16, 2)
  else if mask = 0xffffff00#32 then (0 ^^^ sh16, 3)
  else if mask = 0x00ffffff#32 then (1 ^^^ sh16, 3)
  else (0, 4)

/-- `write_rdram_fb` for the words from `word` on. -/
def writeRdramFb (infos : FrameBufferInfos) (i : Fin 6) (word : ℕ) :
    List (BitVec 32) → List (ℕ × ℕ)
  | [] => []
  | mask :: masks =>
    postFramebufferWrite infos (4 * word + (maskBytes mask).1) (maskBytes mask).2 i ++
      writeRdramFb infos i (word + 1) masks

/-- A graphics task, loads and stores of words, and rows from RDRAM and to it. -/
inductive FbEvent (expansion : Bool) where
  | task (report : FbReport expansion)
  | load (word count : ℕ)
  | store (word : ℕ) (masks : List (BitVec 32))
  | rowFromDram (dramaddr : ℕ)
  | rowToDram (dramaddr : ℕ) (dma : SpDma)

namespace Fb

variable {expansion : Bool}

def step (fb : Fb) : FbEvent expansion → Fb
  | .task report => fb.unprotectFramebuffers.protectFramebuffers report.infos
  | .load word count =>
    if fb.handlers ((4 * word) >>> 16) = .fb then
      (List.range count).foldl (fun fb k => fb.preFramebufferRead (4 * (word + k))) fb
    else fb
  | .store _ _ => fb
  | .rowFromDram dramaddr => if dramaddr < 0x800000 then fb.preFramebufferRead dramaddr else fb
  | .rowToDram _ _ => fb

/-- The calls of `fBWrite` for an entry. -/
def calls (fb : Fb) (i : Fin 6) : FbEvent expansion → List (ℕ × ℕ)
  | .store word masks =>
    if fb.handlers ((4 * word) >>> 16) = .fb then writeRdramFb fb.infos i word masks else []
  | .rowToDram dramaddr dma =>
    if dramaddr + dma.rowLength.toNat ≤ 0x800000 then
      postFramebufferWrite fb.infos dramaddr (dma.rowLength.toNat) i
    else []
  | _ => []

end Fb

/-- `masked_write` changes the byte of RDRAM. -/
def WordWritten (expansion : Bool) (word : ℕ) (mask : BitVec 32) (x : ℕ) : Prop :=
  x / 4 = word ∧ 4 * word < dramSize expansion ∧ mask.extractLsb' (8 * (x % 4)) 8 ≠ 0

def WordsWritten (expansion : Bool) (word : ℕ) : List (BitVec 32) → ℕ → Prop
  | [], _ => False
  | mask :: masks, x =>
    WordWritten expansion word mask x ∨ WordsWritten expansion (word + 1) masks x

/-- The bytes of RDRAM an event writes. -/
def FbEvent.Written {expansion : Bool} : FbEvent expansion → ℕ → Prop
  | .store word masks, x => WordsWritten expansion word masks x
  | .rowToDram dramaddr dma, x =>
    ∃ i < dma.rowLength.toNat, x = ((dramaddr + i) ^^^ 3) % 0x800000
  | _, _ => False

/-- The bytes the plugin is told of. -/
def bytesOf (calls : List (ℕ × ℕ)) : List ℕ := calls.flatMap fun call => List.range' call.1 call.2

/-- The masks of stores of the CPU; 0 is that of a word which SDL or SDR leaves alone. -/
def storeMasks : List (BitVec 32) :=
  [0, 0x000000ff, 0x0000ff00, 0x00ff0000, 0xff000000, 0x0000ffff, 0xffff0000, 0xffffff00,
    0x00ffffff, 0xffffffff]

/-- No chunk lies across an end of the buffer. -/
def ChunksWhole (info : FrameBufferInfo) (address length : ℕ) : Prop :=
  ∀ k < length / chunkSize length, ∀ n < chunkSize length,
    (info.Contains (address + chunkSize length * k + n) ↔
      info.Contains (address + chunkSize length * k))

/-- The word lies outside the buffer, or it is told of and written as it is told. A word with mask 0
    is told of as a whole. -/
def WordFits (infos : FrameBufferInfos) (i : Fin 6) (word : ℕ) (mask : BitVec 32) : Prop :=
  (∀ k < 4, ¬(infos i).Contains (4 * word + k)) ∨
    (infos 0).addr ≠ 0 ∧ mask ∈ storeMasks ∧ mask ≠ 0 ∧
      ChunksWhole (infos i) (4 * word + (maskBytes mask).1) (maskBytes mask).2

def WordsFit (infos : FrameBufferInfos) (i : Fin 6) (word : ℕ) : List (BitVec 32) → Prop
  | [] => True
  | mask :: masks => WordFits infos i word mask ∧ WordsFit infos i (word + 1) masks

namespace Fb

variable {expansion : Bool}

/-- The plugin is told of every byte of a buffer that is written, once, and of no other. -/
def Covered (fb : Fb) (e : FbEvent expansion) : Prop :=
  ∀ i, (fb.infos i).addr ≠ 0 → (bytesOf (fb.calls i e)).Nodup ∧
    ∀ x, x ∈ bytesOf (fb.calls i e) ↔ e.Written x ∧ (fb.infos i).Contains x

/-- A store stays in one region and its words fit; a row lies outside the buffer, or starts at a
    word, ends inside the address space and has no chunk across an end of the buffer. -/
def Fits (fb : Fb) : FbEvent expansion → Prop
  | .store word masks => (4 * word) % 0x10000 + 4 * masks.length ≤ 0x10000 ∧
    ∀ i, (fb.infos i).addr ≠ 0 → WordsFit fb.infos i word masks
  | .rowToDram dramaddr dma => ∀ i, (fb.infos i).addr ≠ 0 →
    (∀ n < dma.rowLength.toNat, ¬(fb.infos i).Contains (((dramaddr + n) ^^^ 3) % 0x800000) ∧
      (dramaddr + dma.rowLength.toNat ≤ 0x800000 → ¬(fb.infos i).Contains (dramaddr + n))) ∨
    (fb.infos 0).addr ≠ 0 ∧ dramaddr % 4 = 0 ∧ dramaddr + dma.rowLength.toNat ≤ 0x800000 ∧
      ChunksWhole (fb.infos i) dramaddr (dma.rowLength.toNat)
  | _ => True

/-- Something holds of every step of a run. -/
def Along (P : Fb → FbEvent expansion → Prop) (fb : Fb) : List (FbEvent expansion) → Prop
  | [] => True
  | e :: es => P fb e ∧ Along P (fb.step e) es

end Fb

-- ════════════════════════════════════════════════════════════════════════
-- Chunks of a write
-- ════════════════════════════════════════════════════════════════════════

theorem dramSize_le (expansion : Bool) : dramSize expansion ≤ 0x800000 := by
  cases expansion <;> decide

theorem FrameBufferInfo.Contains.lt {info : FrameBufferInfo} {a n : ℕ} (h : info.Contains a)
    (haddr : info.addr ≠ 0) (hinside : info.addr + info.bufferSize ≤ n) : a < n := by
  obtain ⟨hbegin, hend⟩ := h
  unfold FrameBufferInfo.last at hend
  omega

theorem chunkSize_pos (length : ℕ) : 0 < chunkSize length := by
  unfold chunkSize
  split
  · decide
  · split <;> decide

theorem chunkSize_dvd (length : ℕ) : chunkSize length ∣ length := by
  unfold chunkSize
  split
  next h => exact Nat.dvd_of_mod_eq_zero h
  next =>
    split
    next h => exact Nat.dvd_of_mod_eq_zero h
    next => exact Nat.one_dvd length

theorem mem_bytesOf {calls : List (ℕ × ℕ)} {x : ℕ} :
    x ∈ bytesOf calls ↔ ∃ call ∈ calls, call.1 ≤ x ∧ x < call.1 + call.2 := by
  simp only [bytesOf, List.mem_flatMap, List.mem_range'_1]

theorem bytesOf_append (l l' : List (ℕ × ℕ)) : bytesOf (l ++ l') = bytesOf l ++ bytesOf l' :=
  List.flatMap_append

section

variable {infos : FrameBufferInfos} {i : Fin 6}

theorem mem_postFramebufferWrite {address length : ℕ} {call : ℕ × ℕ}
    (h : call ∈ postFramebufferWrite infos address length i) :
    ∃ k < length / chunkSize length, (infos i).Contains (address + chunkSize length * k) ∧
      call = (address + chunkSize length * k, chunkSize length) := by
  unfold postFramebufferWrite at h
  split at h
  next => exact absurd h List.not_mem_nil
  next =>
    obtain ⟨k, hk, rfl⟩ := List.mem_map.1 h
    rw [List.mem_filter, List.mem_range, decide_eq_true_eq] at hk
    exact ⟨k, hk.1, hk.2, rfl⟩

theorem postFramebufferWrite_eq_nil {address length : ℕ}
    (h : ∀ n < length, ¬(infos i).Contains (address + n)) :
    postFramebufferWrite infos address length i = [] := by
  refine List.eq_nil_iff_forall_not_mem.2 fun call hcall => ?_
  obtain ⟨k, hk, hcontains, -⟩ := mem_postFramebufferWrite hcall
  have hpos := chunkSize_pos length
  have hmul := Nat.div_mul_cancel (chunkSize_dvd length)
  have hlt := Nat.mul_lt_mul_of_pos_right hk hpos
  rw [hmul, Nat.mul_comm] at hlt
  exact h _ hlt hcontains

/-- Chunks do not overlap, so that no byte is told of twice. -/
theorem nodup_bytesOf_post (address length : ℕ) :
    (bytesOf (postFramebufferWrite infos address length i)).Nodup := by
  unfold postFramebufferWrite
  split
  next => exact List.nodup_nil
  next =>
    refine List.nodup_flatMap.2 ⟨fun call _ => List.nodup_range', ?_⟩
    refine List.pairwise_map.2 ((List.pairwise_lt_range.filter _).imp fun {k k'} hlt => ?_)
    have hmul := Nat.mul_le_mul_left (chunkSize length) (Nat.succ_le_of_lt hlt)
    rw [Nat.mul_succ] at hmul
    refine List.disjoint_left.2 fun x hx hx' => ?_
    rw [List.mem_range'_1] at hx hx'
    omega

/-- Where no chunk lies across an end of the buffer, the plugin is told of what is in it. -/
theorem mem_bytesOf_post {address length : ℕ} (hfirst : (infos 0).addr ≠ 0)
    (haddr : (infos i).addr ≠ 0) (hwhole : ChunksWhole (infos i) address length) {x : ℕ} :
    x ∈ bytesOf (postFramebufferWrite infos address length i) ↔
      (address ≤ x ∧ x < address + length) ∧ (infos i).Contains x := by
  have hpos := chunkSize_pos length
  have hmul := Nat.div_mul_cancel (chunkSize_dvd length)
  rw [mem_bytesOf]
  constructor
  · rintro ⟨call, hcall, hx⟩
    obtain ⟨k, hk, hcontains, rfl⟩ := mem_postFramebufferWrite hcall
    have hle := Nat.mul_le_mul_right (chunkSize length) (Nat.succ_le_of_lt hk)
    rw [hmul, Nat.succ_mul, Nat.mul_comm] at hle
    have hoffset : x = address + chunkSize length * k + (x - (address + chunkSize length * k)) := by
      omega
    refine ⟨⟨by omega, by omega⟩, ?_⟩
    rw [hoffset]
    exact (hwhole k hk _ (by omega)).2 hcontains
  · rintro ⟨⟨hle, hlt⟩, hcontains⟩
    have hmod := Nat.mod_lt (x - address) hpos
    have hdivmod := Nat.div_add_mod (x - address) (chunkSize length)
    have hk : (x - address) / chunkSize length < length / chunkSize length :=
      Nat.div_lt_div_of_lt_of_dvd (chunkSize_dvd length) (by omega)
    have hoffset : x = address + chunkSize length * ((x - address) / chunkSize length) +
        (x - address) % chunkSize length := by
      omega
    rw [hoffset, hwhole _ hk _ hmod] at hcontains
    refine ⟨(address + chunkSize length * ((x - address) / chunkSize length), chunkSize length),
      ?_, ?_⟩
    · rw [postFramebufferWrite, if_neg (not_or.2 ⟨hfirst, haddr⟩)]
      refine List.mem_map.2 ⟨_, ?_, rfl⟩
      rw [List.mem_filter, List.mem_range, decide_eq_true_eq]
      exact ⟨hk, hcontains⟩
    · exact ⟨by omega, by omega⟩

-- ════════════════════════════════════════════════════════════════════════
-- Stores
-- ════════════════════════════════════════════════════════════════════════

theorem maskBytes_le (mask : BitVec 32) : (maskBytes mask).1 + (maskBytes mask).2 ≤ 4 := by
  unfold maskBytes
  split_ifs <;> decide

/-- The bytes of a word that a mask of a store covers. -/
theorem maskBytes_exact {mask : BitVec 32} (hmask : mask ∈ storeMasks) (hne : mask ≠ 0) {k : ℕ}
    (hk : k < 4) :
    mask.extractLsb' (8 * k) 8 ≠ 0 ↔
      (maskBytes mask).1 ≤ k ∧ k < (maskBytes mask).1 + (maskBytes mask).2 := by
  simp only [storeMasks, List.mem_cons, List.not_mem_nil, or_false] at hmask
  rcases hmask with rfl | rfl | rfl | rfl | rfl | rfl | rfl | rfl | rfl | rfl
  · exact absurd rfl hne
  all_goals interval_cases k <;> decide

variable {expansion : Bool} {word : ℕ}

theorem mem_bytesOf_word {mask : BitVec 32} (haddr : (infos i).addr ≠ 0)
    (hinside : (infos i).addr + (infos i).bufferSize ≤ dramSize expansion)
    (hfits : WordFits infos i word mask) {x : ℕ} :
    x ∈ bytesOf (postFramebufferWrite infos (4 * word + (maskBytes mask).1)
        (maskBytes mask).2 i) ↔
      WordWritten expansion word mask x ∧ (infos i).Contains x := by
  have hle := maskBytes_le mask
  rcases hfits with hout | ⟨hfirst, hmask, hne, hwhole⟩
  · rw [postFramebufferWrite_eq_nil fun n hn => Nat.add_assoc _ _ n ▸ hout _ (by omega)]
    refine ⟨fun hx => absurd hx List.not_mem_nil, ?_⟩
    rintro ⟨⟨hword, -, -⟩, hcontains⟩
    refine absurd hcontains ?_
    have hx : x = 4 * word + x % 4 := by omega
    rw [hx]
    exact hout _ (Nat.mod_lt x (by decide))
  · rw [mem_bytesOf_post hfirst haddr hwhole]
    constructor
    · rintro ⟨hx, hcontains⟩
      have hlt := hcontains.lt haddr hinside
      refine ⟨⟨by omega, by omega, ?_⟩, hcontains⟩
      exact (maskBytes_exact hmask hne (Nat.mod_lt x (by decide))).2 (by omega)
    · rintro ⟨⟨hword, -, hbyte⟩, hcontains⟩
      have hplace := (maskBytes_exact hmask hne (Nat.mod_lt x (by decide))).1 hbyte
      exact ⟨by omega, hcontains⟩

theorem WordsWritten.le {masks : List (BitVec 32)} {x : ℕ}
    (h : WordsWritten expansion word masks x) : word ≤ x / 4 := by
  induction masks generalizing word with
  | nil => exact h.elim
  | cons mask masks ih =>
    rcases h with h | h
    · exact h.1.ge
    · exact (Nat.le_succ word).trans (ih h)

theorem writeRdramFb_eq_nil (hfirst : (infos 0).addr = 0) (masks : List (BitVec 32)) :
    writeRdramFb infos i word masks = [] := by
  induction masks generalizing word with
  | nil => rfl
  | cons mask masks ih =>
    rw [writeRdramFb, ih, postFramebufferWrite, if_pos (.inl hfirst)]
    rfl

/-- The words of a store, one after the other. -/
theorem words_covered {masks : List (BitVec 32)} (haddr : (infos i).addr ≠ 0)
    (hinside : (infos i).addr + (infos i).bufferSize ≤ dramSize expansion)
    (hfits : WordsFit infos i word masks) :
    (bytesOf (writeRdramFb infos i word masks)).Nodup ∧
      ∀ x, x ∈ bytesOf (writeRdramFb infos i word masks) ↔
        WordsWritten expansion word masks x ∧ (infos i).Contains x := by
  induction masks generalizing word with
  | nil => exact ⟨List.nodup_nil, fun x => ⟨fun h => absurd h List.not_mem_nil, fun h => h.1.elim⟩⟩
  | cons mask masks ih =>
    obtain ⟨hword, hwords⟩ := hfits
    obtain ⟨hnodup, hmem⟩ := ih hwords
    have hmemWord : ∀ x, x ∈ bytesOf (postFramebufferWrite infos
        (4 * word + (maskBytes mask).1) (maskBytes mask).2 i) ↔
        WordWritten expansion word mask x ∧ (infos i).Contains x := fun x =>
      mem_bytesOf_word haddr hinside hword
    rw [writeRdramFb, bytesOf_append]
    refine ⟨(nodup_bytesOf_post _ _).append hnodup (List.disjoint_left.2 fun x hx hx' => ?_),
      fun x => ?_⟩
    · have hfirst := ((hmemWord x).1 hx).1.1
      have hrest := ((hmem x).1 hx').1.le
      omega
    · rw [List.mem_append, hmemWord, hmem, ← or_and_right]
      exact Iff.rfl

end

/-- A word of a buffer that a store leaves alone is told of as if it were written. -/
theorem zeroMask_not_covered {expansion : Bool} {fb : Fb} {i : Fin 6} {word : ℕ}
    {masks : List (BitVec 32)} (hmapped : fb.handlers ((4 * word) >>> 16) = .fb)
    (hfirst : (fb.infos 0).addr ≠ 0) (haddr : (fb.infos i).addr ≠ 0)
    (hcontains : (fb.infos i).Contains (4 * word)) :
    ¬fb.Covered (.store word (0 :: masks) : FbEvent expansion) := by
  intro hcovered
  have hcall : (4 * word, 4) ∈ postFramebufferWrite fb.infos (4 * word) 4 i := by
    rw [postFramebufferWrite, if_neg (not_or.2 ⟨hfirst, haddr⟩)]
    refine List.mem_map.2 ⟨0, ?_, rfl⟩
    rw [List.mem_filter, List.mem_range, decide_eq_true_eq]
    exact ⟨by decide, hcontains⟩
  have htold : 4 * word ∈ bytesOf (fb.calls i (.store word (0 :: masks) : FbEvent expansion)) := by
    rw [Fb.calls, if_pos hmapped, writeRdramFb, bytesOf_append]
    refine List.mem_append_left _ (mem_bytesOf.2 ⟨_, hcall, ?_⟩)
    omega
  have hwritten : WordsWritten expansion word (0 :: masks) (4 * word) :=
    (((hcovered i haddr).2 _).1 htold).1
  rcases hwritten with ⟨-, -, hbyte⟩ | hrest
  · exact hbyte BitVec.extractLsb'_zero
  · have hle := hrest.le
    omega

-- ════════════════════════════════════════════════════════════════════════
-- Rows
-- ════════════════════════════════════════════════════════════════════════

/-- A row that starts at a word writes what the plugin is told of, in another order. -/
theorem row_written {dramaddr length : ℕ} (haligned : dramaddr % 4 = 0) (hlength : length % 4 = 0)
    (hend : dramaddr + length ≤ 0x800000) {x : ℕ} :
    (∃ i < length, x = ((dramaddr + i) ^^^ 3) % 0x800000) ↔
      dramaddr ≤ x ∧ x < dramaddr + length := by
  constructor
  · rintro ⟨i, hi, rfl⟩
    rw [xor_three]
    omega
  · intro hx
    refine ⟨(x ^^^ 3) - dramaddr, ?_, ?_⟩
    · rw [xor_three]
      omega
    · have hback := xor_three_xor_three x
      have hcancel : dramaddr + ((x ^^^ 3) - dramaddr) = x ^^^ 3 := by
        rw [xor_three]
        omega
      rw [hcancel, hback, Nat.mod_eq_of_lt (by omega)]

end Mupen64plus
