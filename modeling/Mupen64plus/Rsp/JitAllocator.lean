import Mathlib.Data.Nat.Bitwise
import Mathlib.Data.List.Pairwise
import Mathlib.Order.Interval.Set.Disjoint
import Mathlib.Order.CompletePartialOrder
import Mupen64plus.Lib.Runs

/-!
# The allocator of the recompiled code

`jit_allocator.cpp`: code is allocated by pages from reserved blocks, the last of which is the one
in use. The system may refuse a reservation or a change of the protection of pages.

## Main definitions

- `JitHost.alignPage`, `JitHost.allocateCode`
- `JitAllocator.step` — a request with what the system says to it
- `JitAllocator.RequestOk` — what a request gives, and that it is served where it fits

## Main results

- `JitAllocator.run_safe` — whatever fails, no request gives out what was given out before
- `JitAllocator.run_ok_iff` — all requests of a run are served exactly where none that fits follows
  a reservation that failed
-/

namespace Mupen64plus

-- ════════════════════
-- Requests
-- ════════════════════

/-- The platform: the bits of `size_t`, `huge_va`, and what `sysconf(_SC_PAGESIZE)` says, which is
    a `long` of as many bits. -/
structure JitHost where
  bits : ℕ
  hugeVa : Bool
  pageSize : ℤ
  pageSize_lt : pageSize < 2 ^ bits

/-- A record of `blocks`, without `code` where the reservation failed. -/
structure MmapBlock where
  code : Option ℕ
  size : ℕ
  offset : ℕ
  deriving DecidableEq, Repr

/-- A request, the address `mmap` returns if it is called, and whether `mprotect` succeeds. -/
structure JitRequest where
  size : ℕ
  reservation : Option ℕ
  protect : Bool
  deriving DecidableEq, Repr

inductive JitOutcome where
  | null
  | code (address : ℕ)
  | abort
  deriving DecidableEq, Repr

/-- `reserve_block`. -/
def MmapBlock.reserve (size : ℕ) (reservation : Option ℕ) : MmapBlock := ⟨reservation, size, 0⟩

namespace JitHost

variable (host : JitHost)

/-- `std::numeric_limits<size_t>::max()`. -/
def sizeMax : ℕ := 2 ^ host.bits - 1

/-- `align_page`. The complement of a mask is what it leaves of the largest value. -/
def alignPage (offset : ℕ) : ℕ :=
  if host.pageSize ≤ 0 then 0
  else
    let pageSize := host.pageSize.toNat
    let pageMask := pageSize - 1
    if pageSize = 0 ∨ pageSize &&& pageMask ≠ 0 ∨ host.sizeMax - pageMask < offset then 0
    else (offset + pageMask) &&& (host.sizeMax - pageMask)

/-- `block_size`. -/
def blockSize : ℕ := if host.hugeVa then 1024 * 1024 * 1024 else 2 * 1024 * 1024

/-- The end of `allocate_code`, with the block in use. -/
def allocateFrom (size : ℕ) (protect : Bool) (block : MmapBlock) (older : List MmapBlock) :
    List MmapBlock × JitOutcome :=
  match block.code with
  | none => (block :: older, .null)
  | some code =>
    if protect then
      ({ block with offset := block.offset + size } :: older, .code (code + block.offset))
    else (block :: older, .null)

/-- `allocate_code` after the first reservation, with `blocks.back()`. -/
def allocateIn (size : ℕ) (request : JitRequest) (block : MmapBlock) (older : List MmapBlock) :
    List MmapBlock × JitOutcome :=
  if block.code = none then (block :: older, .null)
  else if block.size - block.offset < size then
    if host.hugeVa then (block :: older, .abort)
    else
      allocateFrom size request.protect
        (.reserve (max size host.blockSize) request.reservation) (block :: older)
  else allocateFrom size request.protect block older

/-- `allocate_code`. The list has the last record first. -/
def allocateCode (request : JitRequest) (blocks : List MmapBlock) : List MmapBlock × JitOutcome :=
  let size := host.alignPage request.size
  if size = 0 then (blocks, .null)
  else
    match blocks with
    | [] =>
      host.allocateIn size request (.reserve (max size host.blockSize) request.reservation) []
    | block :: older => host.allocateIn size request block older

end JitHost

-- ════════════════════
-- Runs
-- ════════════════════

/-- The records, and the ranges that were given out. -/
structure JitAllocator where
  blocks : List MmapBlock
  granted : List (ℕ × ℕ)

namespace JitAllocator

def initial : JitAllocator := ⟨[], []⟩

variable (host : JitHost) (s : JitAllocator) (request : JitRequest)

def outcome : JitOutcome := (host.allocateCode request s.blocks).2

def step : JitAllocator :=
  let (blocks, outcome) := host.allocateCode request s.blocks
  match outcome with
  | .code address => ⟨blocks, (address, host.alignPage request.size) :: s.granted⟩
  | _ => { s with blocks := blocks }

/-- The addresses of a range. -/
def range (r : ℕ × ℕ) : Set ℕ := Set.Ico r.1 (r.1 + r.2)

/-- The addresses of a block. -/
def blockRange (b : MmapBlock) : Set ℕ :=
  match b.code with
  | some code => range (code, b.size)
  | none => ∅

/-- The system returns a reservation that starts at a page, ends within the address space and is
    disjoint from those it returned before. -/
def ReservationDisjoint : Prop :=
  ∀ base ∈ request.reservation,
    let size := max (host.alignPage request.size) host.blockSize
    host.pageSize.toNat ∣ base ∧ base + size ≤ 2 ^ host.bits ∧
      ∀ b ∈ s.blocks, Disjoint (range (base, size)) (blockRange b)

/-- What is given out is aligned, inside of a block and disjoint from what was given out before; a
    request that fails takes nothing of any block. -/
def RequestSafe : Prop :=
  match s.outcome host request with
  | .code address =>
    let size := host.alignPage request.size
    host.pageSize.toNat ∣ address ∧ host.pageSize.toNat ∣ size ∧
      (∃ b ∈ (s.step host request).blocks, range (address, size) ⊆ blockRange b) ∧
      ∀ r ∈ s.granted, Disjoint (range (address, size)) (range r)
  | _ => (s.step host request).blocks = s.blocks ∨
      ∃ b, b.offset = 0 ∧ (s.step host request).blocks = b :: s.blocks

/-- The request is for a size that can be rounded and, where there is one block only, for no more
    than it has left. -/
def RequestFits : Prop :=
  host.alignPage request.size ≠ 0 ∧ (host.hugeVa = true → ∀ b ∈ s.blocks, b.code ≠ none →
    host.alignPage request.size ≤ b.size - b.offset)

/-- The system calls of the request succeed. -/
def SystemSucceeds : Prop := request.reservation ≠ none ∧ request.protect = true

def RequestOk : Prop :=
  s.RequestSafe host request ∧
    (s.RequestFits host request → SystemSucceeds request →
      ∃ address, s.outcome host request = .code address)

/-- No record of a failed reservation is the last one. -/
def LastReserved : Prop := ∀ b ∈ s.blocks.head?, b.code ≠ none

/-- The last reservation did not fail, or the request is none that has to be served. -/
def RequestReserved : Prop :=
  s.RequestFits host request → SystemSucceeds request → s.LastReserved

end JitAllocator

-- ════════════════════
-- Pages
-- ════════════════════

/-- A word without its lowest bits. -/
theorem and_highBits {x k w : ℕ} (hx : x < 2 ^ w) (hk : k ≤ w) :
    x &&& (2 ^ w - 1 - (2 ^ k - 1)) = 2 ^ k * (x / 2 ^ k) := by
  have hmask : 2 ^ w - 1 - (2 ^ k - 1) = 2 ^ k * (2 ^ (w - k) - 1) := by
    have hpow : 2 ^ k * 2 ^ (w - k) = 2 ^ w := by rw [← pow_add, Nat.add_sub_cancel' hk]
    have hpos := Nat.one_le_two_pow (n := k)
    rw [Nat.mul_sub, Nat.mul_one, hpow]
    omega
  refine Nat.eq_of_testBit_eq fun i => ?_
  rw [hmask, Nat.testBit_and, Nat.testBit_two_pow_mul, Nat.testBit_two_pow_mul,
    Nat.testBit_two_pow_sub_one, Nat.testBit_div_two_pow]
  by_cases hlow : k ≤ i
  · have hsum : i - k + k = i := Nat.sub_add_cancel hlow
    simp only [ge_iff_le, hlow, decide_true, Bool.true_and, hsum]
    by_cases hhigh : i < w
    · have hlt : i - k < w - k := by omega
      simp only [hlt, decide_true, Bool.and_true]
    · have hzero : x.testBit i = false :=
        Nat.testBit_lt_two_pow (hx.trans_le (Nat.pow_le_pow_right (by decide) (by omega)))
      rw [hzero, Bool.false_and]
  · simp only [ge_iff_le, hlow, decide_false, Bool.false_and, Bool.and_false]

namespace JitHost

variable {host : JitHost}

theorem alignPage_spec {size : ℕ} (h : host.alignPage size ≠ 0) :
    0 < host.pageSize.toNat ∧ host.pageSize.toNat ∣ host.alignPage size ∧
      size ≤ host.alignPage size := by
  unfold alignPage at h ⊢
  dsimp only at h ⊢
  split at h
  · exact absurd rfl h
  next hpos =>
    rw [if_neg hpos]
    split at h
    · exact absurd rfl h
    next hok =>
      rw [if_neg hok]
      simp only [not_or, not_not, not_lt] at hok
      obtain ⟨hne, hpow, hle⟩ := hok
      obtain ⟨k, hk⟩ := (Nat.and_sub_one_eq_zero_iff_isPowerOfTwo hne).1 hpow
      have hlt : host.pageSize.toNat < 2 ^ host.bits := by
        have hpage := host.pageSize_lt
        have hcast : ((2 ^ host.bits : ℕ) : ℤ) = 2 ^ host.bits := by norm_cast
        omega
      rw [hk] at hlt hle ⊢
      have hbits : k ≤ host.bits := ((Nat.pow_lt_pow_iff_right (by decide)).1 hlt).le
      have hpos := Nat.one_le_two_pow (n := k)
      have hwhole := Nat.one_le_two_pow (n := host.bits)
      unfold sizeMax at hle ⊢
      rw [and_highBits (by omega) hbits]
      refine ⟨hpos, Nat.dvd_mul_right _ _, ?_⟩
      have hdiv := Nat.div_add_mod (size + (2 ^ k - 1)) (2 ^ k)
      have hmod := Nat.mod_lt (size + (2 ^ k - 1)) hpos
      omega

/-- What the end of a request does to the block in use. -/
theorem allocateFrom_cases (size : ℕ) (protect : Bool) (block : MmapBlock)
    (older : List MmapBlock) :
    allocateFrom size protect block older = (block :: older, .null) ∨
      ∃ code, block.code = some code ∧ allocateFrom size protect block older =
        ({ block with offset := block.offset + size } :: older, .code (code + block.offset)) := by
  unfold allocateFrom
  cases hcode : block.code with
  | none => exact .inl rfl
  | some code =>
    cases protect with
    | false => exact .inl rfl
    | true => exact .inr ⟨code, rfl, rfl⟩

/-- What a request does to the records. -/
theorem allocateCode_cases (host : JitHost) (request : JitRequest) (blocks : List MmapBlock) :
    let size := host.alignPage request.size
    let fresh := MmapBlock.reserve (max size host.blockSize) request.reservation
    (∃ o, host.allocateCode request blocks = (blocks, o) ∧ ∀ address, o ≠ .code address) ∨
    host.allocateCode request blocks = (fresh :: blocks, .null) ∨
    (size ≠ 0 ∧ ∃ block older code, blocks = block :: older ∧ block.code = some code ∧
      size ≤ block.size - block.offset ∧ host.allocateCode request blocks =
        ({ block with offset := block.offset + size } :: older, .code (code + block.offset))) ∨
    (size ≠ 0 ∧ ∃ base, request.reservation = some base ∧ host.allocateCode request blocks =
        ({ fresh with offset := size } :: blocks, .code base)) := by
  intro size fresh
  have hfresh : ∀ older, allocateFrom size request.protect fresh older = (fresh :: older, .null) ∨
      ∃ base, request.reservation = some base ∧ allocateFrom size request.protect fresh older =
        ({ fresh with offset := size } :: older, .code base) := by
    intro older
    rcases allocateFrom_cases size request.protect fresh older with h | ⟨code, hcode, h⟩
    · exact .inl h
    · refine .inr ⟨code, hcode, h.trans ?_⟩
      rw [show fresh.offset = 0 from rfl, Nat.zero_add, Nat.add_zero]
  unfold allocateCode
  by_cases hsize : size = 0
  · exact .inl ⟨.null, if_pos hsize, nofun⟩
  rw [if_neg hsize]
  cases blocks with
  | nil =>
    -- a first reservation, which is never too small
    dsimp only
    unfold allocateIn
    by_cases hcode : fresh.code = none
    · exact .inr (.inl (if_pos hcode))
    · have hroom : ¬fresh.size - fresh.offset < size := by
        change ¬max size host.blockSize - 0 < size
        omega
      rw [if_neg hcode, if_neg hroom]
      rcases hfresh [] with h | ⟨base, hbase, h⟩
      · exact .inr (.inl h)
      · exact .inr (.inr (.inr ⟨hsize, base, hbase, h⟩))
  | cons block older =>
    dsimp only
    unfold allocateIn
    by_cases hcode : block.code = none
    · exact .inl ⟨.null, if_pos hcode, nofun⟩
    rw [if_neg hcode]
    by_cases hfull : block.size - block.offset < size
    · rw [if_pos hfull]
      by_cases hhuge : host.hugeVa = true
      · exact .inl ⟨.abort, if_pos hhuge, nofun⟩
      · rw [if_neg hhuge]
        rcases hfresh (block :: older) with h | ⟨base, hbase, h⟩
        · exact .inr (.inl h)
        · exact .inr (.inr (.inr ⟨hsize, base, hbase, h⟩))
    · rw [if_neg hfull]
      rcases allocateFrom_cases size request.protect block older with h | ⟨code, hcode, h⟩
      · exact .inl ⟨.null, h, nofun⟩
      · exact .inr (.inr (.inl ⟨hsize, block, older, code, rfl, hcode, not_lt.1 hfull, h⟩))

end JitHost

-- ════════════════════
-- What the records keep
-- ════════════════════

namespace JitAllocator

theorem blockRange_eq {b : MmapBlock} {code : ℕ} (h : b.code = some code) :
    blockRange b = range (code, b.size) := by
  rw [blockRange, h]

theorem mem_range {r : ℕ × ℕ} {a : ℕ} : a ∈ range r ↔ r.1 ≤ a ∧ a < r.1 + r.2 := Set.mem_Ico

theorem range_subset {r r' : ℕ × ℕ} (hlo : r'.1 ≤ r.1) (hhi : r.1 + r.2 ≤ r'.1 + r'.2) :
    range r ⊆ range r' := fun _ ha => ⟨hlo.trans ha.1, ha.2.trans_le hhi⟩

/-- A block with its pages: what is used of it is a number of pages and within it. -/
structure BlockKept (host : JitHost) (b : MmapBlock) : Prop where
  page : ∀ code ∈ b.code, host.pageSize.toNat ∣ code
  offset : host.pageSize.toNat ∣ b.offset
  offset_le : b.offset ≤ b.size

/-- The blocks do not meet, and what was given out lies in the used part of one of them. -/
structure Kept (host : JitHost) (s : JitAllocator) : Prop where
  blocks : ∀ b ∈ s.blocks, BlockKept host b
  apart : s.blocks.Pairwise fun b c => Disjoint (blockRange b) (blockRange c)
  granted : ∀ r ∈ s.granted, ∃ b ∈ s.blocks, ∃ code, b.code = some code ∧
    code ≤ r.1 ∧ r.1 + r.2 ≤ code + b.offset

variable {host : JitHost} {s : JitAllocator} {request : JitRequest}

theorem initial_kept (host : JitHost) : initial.Kept host where
  blocks := nofun
  apart := .nil
  granted := nofun

theorem step_eq (s : JitAllocator) {blocks : List MmapBlock} {o : JitOutcome}
    (h : host.allocateCode request s.blocks = (blocks, o)) (ho : ∀ address, o ≠ .code address) :
    s.step host request = { s with blocks := blocks } ∧ s.outcome host request = o := by
  unfold step outcome
  rw [h]
  cases o with
  | null => exact ⟨rfl, rfl⟩
  | code address => exact absurd rfl (ho address)
  | abort => exact ⟨rfl, rfl⟩

theorem step_code (s : JitAllocator) {blocks : List MmapBlock} {address : ℕ}
    (h : host.allocateCode request s.blocks = (blocks, .code address)) :
    s.step host request = ⟨blocks, (address, host.alignPage request.size) :: s.granted⟩ ∧
      s.outcome host request = .code address := by
  unfold step outcome
  rw [h]
  exact ⟨rfl, rfl⟩

/-- A new block is apart from the others. -/
theorem ReservationDisjoint.fresh (hos : s.ReservationDisjoint host request) (offset : ℕ) :
    ∀ b ∈ s.blocks, Disjoint (blockRange ⟨request.reservation,
      max (host.alignPage request.size) host.blockSize, offset⟩) (blockRange b) := by
  intro b hb
  cases hbase : request.reservation with
  | none => exact Set.empty_disjoint _
  | some base => exact (hos base hbase).2.2 b hb

theorem Kept.push (hs : s.Kept host) (hos : s.ReservationDisjoint host request) {offset : ℕ}
    (hoffset : host.pageSize.toNat ∣ offset)
    (hle : offset ≤ max (host.alignPage request.size) host.blockSize) :
    Kept host ⟨⟨request.reservation, max (host.alignPage request.size) host.blockSize, offset⟩ ::
      s.blocks, s.granted⟩ where
  blocks := by
    intro b hb
    rcases List.mem_cons.1 hb with rfl | hb
    · exact ⟨fun code hcode => (hos code hcode).1, hoffset, hle⟩
    · exact hs.blocks b hb
  apart := List.pairwise_cons.2 ⟨hos.fresh offset, hs.apart⟩
  granted := by
    intro r hr
    obtain ⟨b, hb, hcode⟩ := hs.granted r hr
    exact ⟨b, List.mem_cons_of_mem _ hb, hcode⟩

/-- More of a block is used. -/
theorem Kept.use {block : MmapBlock} {older : List MmapBlock} {granted : List (ℕ × ℕ)} {size : ℕ}
    (hs : Kept host ⟨block :: older, granted⟩) (hsize : host.pageSize.toNat ∣ size)
    (hle : block.offset + size ≤ block.size) :
    Kept host ⟨{ block with offset := block.offset + size } :: older, granted⟩ where
  blocks := by
    intro b hb
    rcases List.mem_cons.1 hb with rfl | hb
    · have hkept := hs.blocks block List.mem_cons_self
      exact ⟨hkept.page, Nat.dvd_add hkept.offset hsize, hle⟩
    · exact hs.blocks b (List.mem_cons_of_mem _ hb)
  apart := List.pairwise_cons.2 (List.pairwise_cons.1 hs.apart)
  granted := by
    intro r hr
    obtain ⟨b, hb, code, hcode, hlo, hhi⟩ := hs.granted r hr
    rcases List.mem_cons.1 hb with rfl | hb
    · exact ⟨_, List.mem_cons_self, code, hcode, hlo, hhi.trans (by dsimp only; omega)⟩
    · exact ⟨b, List.mem_cons_of_mem _ hb, code, hcode, hlo, hhi⟩

/-- A range in the used part of a block is given out. -/
theorem Kept.grant {blocks : List MmapBlock} {granted : List (ℕ × ℕ)} {b : MmapBlock} {code : ℕ}
    {r : ℕ × ℕ} (hs : Kept host ⟨blocks, granted⟩) (hb : b ∈ blocks) (hcode : b.code = some code)
    (hlo : code ≤ r.1) (hhi : r.1 + r.2 ≤ code + b.offset) : Kept host ⟨blocks, r :: granted⟩ where
  blocks := hs.blocks
  apart := hs.apart
  granted := by
    intro r' hr'
    rcases List.mem_cons.1 hr' with rfl | hr'
    · exact ⟨b, hb, code, hcode, hlo, hhi⟩
    · exact hs.granted r' hr'

/-- What was given out of a block that is apart from a range is apart from it. -/
theorem disjoint_granted {b : MmapBlock} {code : ℕ} {r r' : ℕ × ℕ} (hb : BlockKept host b)
    (hcode : b.code = some code) (hlo : code ≤ r'.1) (hhi : r'.1 + r'.2 ≤ code + b.offset)
    (h : Disjoint (range r) (blockRange b)) : Disjoint (range r) (range r') := by
  refine h.mono_right ?_
  rw [blockRange_eq hcode]
  exact range_subset hlo (hhi.trans (Nat.add_le_add_left hb.offset_le code))

/-- One request keeps the blocks apart and gives nothing out twice. -/
theorem step_kept_safe (hs : s.Kept host) (hos : s.ReservationDisjoint host request) :
    (s.step host request).Kept host ∧ s.RequestSafe host request := by
  unfold RequestSafe
  rcases host.allocateCode_cases request s.blocks with ⟨o, h, ho⟩ | h |
    ⟨hsize, block, older, code, hblocks, hcode, hroom, h⟩ | ⟨hsize, base, hbase, h⟩
  · obtain ⟨hstep, hout⟩ := step_eq s h ho
    rw [hstep, hout]
    refine ⟨hs, ?_⟩
    cases o with
    | code address => exact absurd rfl (ho address)
    | null => exact .inl rfl
    | abort => exact .inl rfl
  · obtain ⟨hstep, hout⟩ := step_eq s h nofun
    rw [hstep, hout]
    exact ⟨hs.push hos ⟨0, rfl⟩ (Nat.zero_le _), .inr ⟨_, rfl, rfl⟩⟩
  · obtain ⟨hstep, hout⟩ := step_code s h
    obtain ⟨-, hpage, -⟩ := JitHost.alignPage_spec hsize
    rw [hstep, hout]
    have hcons : Kept host ⟨block :: older, s.granted⟩ := by
      rw [← hblocks]
      exact hs
    have hkept := hcons.blocks block List.mem_cons_self
    have hle : block.offset + host.alignPage request.size ≤ block.size := by
      have := hkept.offset_le
      omega
    refine ⟨(hcons.use hpage hle).grant List.mem_cons_self hcode (Nat.le_add_right _ _)
      (by dsimp only; omega), Nat.dvd_add (hkept.page code hcode) hkept.offset, hpage,
      ⟨_, List.mem_cons_self, ?_⟩, ?_⟩
    · have hrange := blockRange_eq (b := ⟨block.code, block.size,
        block.offset + host.alignPage request.size⟩) hcode
      rw [hrange]
      exact range_subset (Nat.le_add_right _ _) (by dsimp only; omega)
    · intro r hr
      obtain ⟨b, hb, code', hcode', hlo, hhi⟩ := hcons.granted r hr
      rcases List.mem_cons.1 hb with rfl | hb
      · -- given out of the same block, below its offset
        rw [hcode, Option.some_inj] at hcode'
        subst hcode'
        refine Set.disjoint_left.2 fun a ha ha' => ?_
        rw [mem_range] at ha ha'
        dsimp only at ha
        omega
      · refine disjoint_granted (hcons.blocks b (List.mem_cons_of_mem _ hb)) hcode' hlo hhi ?_
        refine ((List.pairwise_cons.1 hcons.apart).1 b hb).mono_left ?_
        rw [blockRange_eq hcode]
        exact range_subset (Nat.le_add_right _ _) (by dsimp only; omega)
  · obtain ⟨hstep, hout⟩ := step_code s h
    obtain ⟨-, hpage, -⟩ := JitHost.alignPage_spec hsize
    rw [hstep, hout]
    have hpush := hs.push hos hpage (le_max_left _ _)
    refine ⟨hpush.grant List.mem_cons_self hbase le_rfl le_rfl, (hos base hbase).1, hpage,
      ⟨_, List.mem_cons_self, ?_⟩, ?_⟩
    · rw [blockRange_eq hbase]
      exact range_subset le_rfl (Nat.add_le_add_left (le_max_left _ _) base)
    · intro r hr
      obtain ⟨b, hb, code', hcode', hlo, hhi⟩ := hs.granted r hr
      refine disjoint_granted (hs.blocks b hb) hcode' hlo hhi ?_
      refine ((hos base hbase).2.2 b hb).mono_left ?_
      exact range_subset le_rfl (Nat.add_le_add_left (le_max_left _ _) base)

/-- A request that fits is served exactly where the last record is none of a failed reservation. -/
theorem served_iff (hfits : s.RequestFits host request) (hsystem : SystemSucceeds request) :
    (∃ address, s.outcome host request = .code address) ↔ s.LastReserved := by
  obtain ⟨hsize, hhuge⟩ := hfits
  obtain ⟨hreservation, hprotect⟩ := hsystem
  obtain ⟨base, hbase⟩ := Option.ne_none_iff_exists'.1 hreservation
  have hfresh : ∀ older, JitHost.allocateFrom (host.alignPage request.size) request.protect
      (.reserve (max (host.alignPage request.size) host.blockSize) request.reservation) older
        = (⟨some base, max (host.alignPage request.size) host.blockSize,
            0 + host.alignPage request.size⟩ :: older, .code (base + 0)) := by
    intro older
    rw [hbase, hprotect]
    rfl
  unfold outcome LastReserved JitHost.allocateCode
  rw [if_neg hsize]
  cases hblocks : s.blocks with
  | nil =>
    have hroom : ¬max (host.alignPage request.size) host.blockSize - 0
        < host.alignPage request.size := by omega
    refine iff_of_true ⟨base + 0, ?_⟩ nofun
    dsimp only
    unfold JitHost.allocateIn
    have hcode : (MmapBlock.reserve (max (host.alignPage request.size) host.blockSize)
        request.reservation).code ≠ none := hreservation
    rw [if_neg hcode, MmapBlock.reserve, if_neg hroom]
    exact congrArg Prod.snd (hfresh [])
  | cons block older =>
    rw [hblocks] at hhuge
    dsimp only
    unfold JitHost.allocateIn
    cases hcode : block.code with
    | none =>
      refine iff_of_false ?_ fun h => h block rfl hcode
      rw [if_pos rfl]
      rintro ⟨address, h⟩
      exact absurd h nofun
    | some code =>
      have hlast : ∀ b ∈ (block :: older).head?, b.code ≠ none := by
        intro b hb
        rw [List.head?_cons, Option.mem_some_iff] at hb
        rw [← hb, hcode]
        exact nofun
      refine iff_of_true ?_ hlast
      rw [if_neg nofun]
      by_cases hfull : block.size - block.offset < host.alignPage request.size
      · have hva : ¬host.hugeVa = true := fun hva =>
          absurd (hhuge hva block List.mem_cons_self (by rw [hcode]; exact nofun))
            (Nat.not_le.2 hfull)
        rw [if_pos hfull, if_neg hva, hfresh]
        exact ⟨_, rfl⟩
      · rw [if_neg hfull, JitHost.allocateFrom, hcode, hprotect]
        exact ⟨_, rfl⟩

/-- One request is as it should be exactly under the condition. -/
theorem requestOk_iff (hs : s.Kept host) (hos : s.ReservationDisjoint host request) :
    s.RequestOk host request ↔ s.RequestReserved host request := by
  refine ⟨fun h hfits hsystem => (served_iff hfits hsystem).1 (h.2 hfits hsystem),
    fun h => ⟨(step_kept_safe hs hos).2, fun hfits hsystem => ?_⟩⟩
  exact (served_iff hfits hsystem).2 (h hfits hsystem)

/-- Over a run, whatever fails: nothing is given out twice. -/
theorem run_safe (requests : List JitRequest) (hos : Runs.Along (step host)
    (fun s request => s.ReservationDisjoint host request) initial requests) :
    Runs.Along (step host) (fun s request => s.RequestSafe host request) initial requests :=
  Runs.along_of_along (fun _ _ hs hos => (step_kept_safe hs hos).1)
    (fun _ _ hs hos => (step_kept_safe hs hos).2) (initial_kept host) hos

/-- **Runs of the allocator**: every range is aligned, in a block and apart from the others, a
    failed request takes no space, and every request that fits is served, exactly where none of
    these comes after a reservation that failed. -/
theorem run_ok_iff (host : JitHost) (requests : List JitRequest)
    (hos : Runs.Along (step host)
      (fun s request => s.ReservationDisjoint host request) initial requests) :
    Runs.Along (step host) (fun s request => s.RequestOk host request) initial requests ↔
      Runs.Along (step host)
        (fun s request => s.RequestReserved host request) initial requests := by
  constructor
  · intro h
    exact Runs.along_of_along (fun _ _ hs hok => (step_kept_safe hs hok.1).1)
      (fun _ _ hs hok => (requestOk_iff hs hok.1).1 hok.2) (initial_kept host)
      ((Runs.along_and initial requests).2 ⟨hos, h⟩)
  · intro h
    exact Runs.along_of_along (fun _ _ hs hok => (step_kept_safe hs hok.1).1)
      (fun _ _ hs hok => (requestOk_iff hs hok.1).2 hok.2) (initial_kept host)
      ((Runs.along_and initial requests).2 ⟨hos, h⟩)

/-- A host of 64 bits with pages of 4096 bytes. -/
def smallHost : JitHost := ⟨64, true, 4096, by decide⟩

/-- A request of one byte. -/
def oneByteRequest (reservation : Option ℕ) : JitRequest := ⟨1, reservation, true⟩

theorem oneByteRequest_disjoint (s : JitAllocator) (hs : ∀ b ∈ s.blocks, b.code = none) :
    s.ReservationDisjoint smallHost (oneByteRequest (some 0x40000000)) := by
  intro base hbase
  have heq : 0x40000000 = base := Option.some_inj.1 hbase
  subst heq
  refine ⟨by decide, by decide, fun b hb => ?_⟩
  rw [blockRange, hs b hb]
  exact Set.disjoint_empty _

theorem oneByteRequest_ok :
    Runs.Along (step smallHost) (fun s request => s.RequestOk smallHost request) initial
        [oneByteRequest (some 0x40000000)] ↔
      Runs.Along (step smallHost) (fun s request => s.RequestReserved smallHost request) initial
        [oneByteRequest (some 0x40000000)] :=
  run_ok_iff smallHost _ ⟨oneByteRequest_disjoint _ nofun, trivial⟩

/-- After a reservation that failed, a request of one byte is refused although every call of the
    system succeeds. -/
theorem not_run_ok :
    ¬∀ (host : JitHost) (requests : List JitRequest),
      Runs.Along (step host)
        (fun s request => s.ReservationDisjoint host request) initial requests →
      Runs.Along (step host) (fun s request => s.RequestOk host request) initial requests := by
  intro h
  have hfailed : ∀ b ∈ (step smallHost initial (oneByteRequest none)).blocks, b.code = none := by
    decide
  have hrun := h smallHost [oneByteRequest none, oneByteRequest (some 0x40000000)]
    ⟨nofun, oneByteRequest_disjoint _ hfailed, trivial⟩
  obtain ⟨address, hserved⟩ := hrun.2.1.2
    ⟨by decide, fun _ b hb hcode => absurd (hfailed b hb) hcode⟩ ⟨nofun, rfl⟩
  have hnull : (step smallHost initial (oneByteRequest none)).outcome smallHost
      (oneByteRequest (some 0x40000000)) = .null := by decide
  rw [hnull] at hserved
  exact absurd hserved nofun

end JitAllocator

end Mupen64plus
