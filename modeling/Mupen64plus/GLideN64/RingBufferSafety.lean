import Mupen64plus.Lib.Extents
import Mupen64plus.Lib.Runs
import Mupen64plus.GLideN64.RingBufferPool

/-!
# The live buffers of the pool

Free space is worked out from the two offsets and the full flag alone. As long as no buffer is put
where a live one starts, the live buffers form one chain from the start offset to the end offset, or
two: one from the start offset, and one from the front of the ring to the end offset.

## Main definitions

- `PoolSafe` — live buffers lie apart inside of the pool and hold what was stored in them
- `PoolStep.Sound` — no buffer is put where a live buffer starts
- `PoolLayout` — the chains of live buffers

## Main results

- `PoolLayout.place_end`, `PoolLayout.place_front`, `PoolLayout.remove` — what a call does to them
- `PoolRun.Sequenced.step`, `PoolRun.Sequenced.drained_created` — when all buffers are removed,
  there is room for any buffer
- `ringBuffer_safe_iff`
-/

namespace Mupen64plus

open Extents RingBufferPool

namespace PoolBuffer

def start (b : PoolBuffer) : ℕ := b.pointer.offset

def len (b : PoolBuffer) : ℕ := b.pointer.realSize

/-- The bytes of the pool that a buffer takes up. -/
def range (b : PoolBuffer) : Set ℕ := Extents.range start len b

end PoolBuffer

structure PoolSafe (s : PoolRun) : Prop where
  inside : ∀ b ∈ s.live, b.start + b.len ≤ s.pool.poolBufferSize
  apart : s.live.Pairwise fun a b => Disjoint a.range b.range
  stored : ∀ b ∈ s.live, ∃ bytes, s.pool.getBufferFromPool b.pointer = some bytes ∧
    ∀ i (h : i < b.stored.length), bytes i = b.stored[i]

namespace RingBufferPool

/-- The pool a buffer of this size is put into: the pool as it is, or grown to the buffer. -/
def roomFor (p : RingBufferPool) (realSize : ℕ) : Option RingBufferPool :=
  if p.remaining p.poolBufferSize ≥ realSize then some p
  else if realSize > p.maxBufferPoolSize then none
  else if p.poolBufferSize < realSize ∧ p.remaining realSize = realSize then
    some (p.resize realSize)
  else none

/-- The buffer does not fit behind the last one. -/
def StartsOver (p : RingBufferPool) (realSize : ℕ) : Prop :=
  p.inUseEndOffset + realSize > p.poolBufferSize

/-- A buffer that starts over waits for the oldest buffers to be removed. -/
def Ready (p : RingBufferPool) (realSize : ℕ) : Prop :=
  p.StartsOver realSize →
    realSize < p.inUseStartOffset ∨ p.inUseStartOffset = p.inUseEndOffset

instance decidableStartsOver (p : RingBufferPool) (realSize : ℕ) :
    Decidable (p.StartsOver realSize) :=
  inferInstanceAs (Decidable (_ > _))

instance decidableReady (p : RingBufferPool) (realSize : ℕ) : Decidable (p.Ready realSize) :=
  inferInstanceAs (Decidable (_ → _))

/-- Where a buffer is put. -/
def startFor (p : RingBufferPool) (realSize : ℕ) : ℕ :=
  if p.StartsOver realSize then 0 else p.inUseEndOffset

end RingBufferPool

/-- Every buffer that has bytes and is not kept waiting is put where no live buffer that has bytes
    starts. -/
def PoolStep.Sound (s : PoolRun) : PoolStep → Prop
  | .create buffer =>
    let realSize := realBufferSize buffer.length
    0 < realSize → ∀ p, s.pool.roomFor realSize = some p → p.Ready realSize →
      ∀ b ∈ s.live, b.len ≠ 0 → b.start ≠ p.startFor realSize
  | .remove => True

-- ════════════════════
-- What a call can do
-- ════════════════════

theorem length_le_realBufferSize (n : ℕ) : n ≤ realBufferSize n := by
  unfold realBufferSize
  split <;> omega

namespace RingBufferPool

theorem createFitting_eq (p : RingBufferPool) (buffer : List (BitVec 8)) :
    p.createFitting buffer =
      if p.Ready (realBufferSize buffer.length) then
        p.place buffer (p.startFor (realBufferSize buffer.length))
          (p.startFor (realBufferSize buffer.length) + realBufferSize buffer.length)
      else .waits := by
  rw [createFitting]
  by_cases hover : p.StartsOver (realBufferSize buffer.length)
  · have hstart : p.startFor (realBufferSize buffer.length) = 0 := if_pos hover
    by_cases hroom : realBufferSize buffer.length < p.inUseStartOffset ∨
        p.inUseStartOffset = p.inUseEndOffset
    · have hready : p.Ready (realBufferSize buffer.length) := fun _ => hroom
      rw [if_pos hready, hstart, Nat.zero_add]
      exact (if_pos hover).trans (if_pos hroom)
    · have hready : ¬p.Ready (realBufferSize buffer.length) := fun h => hroom (h hover)
      rw [if_neg hready]
      exact (if_pos hover).trans (if_neg hroom)
  · have hready : p.Ready (realBufferSize buffer.length) := fun h => absurd h hover
    have hstart : p.startFor (realBufferSize buffer.length) = p.inUseEndOffset := if_neg hover
    rw [if_pos hready, hstart]
    exact if_neg hover

/-- A call of `createPoolBuffer` places its buffer in the pool there is room in. -/
theorem createPoolBuffer_created {p q : RingBufferPool} {buffer : List (BitVec 8)}
    (hroom : p.roomFor (realBufferSize buffer.length) = some q)
    (hready : q.Ready (realBufferSize buffer.length)) :
    p.createPoolBuffer buffer = q.place buffer (q.startFor (realBufferSize buffer.length))
      (q.startFor (realBufferSize buffer.length) + realBufferSize buffer.length) := by
  rw [roomFor] at hroom
  rw [createPoolBuffer]
  split at hroom
  next hfits =>
    obtain rfl := Option.some.inj hroom
    rw [if_pos hfits, createFitting_eq, if_pos hready]
  next hfits =>
    rw [if_neg hfits]
    split at hroom
    next hmax => exact absurd hroom (by simp)
    next hmax =>
      rw [if_neg hmax]
      split at hroom
      next hgrow =>
        obtain ⟨hsmall, heq⟩ := hgrow
        obtain rfl := Option.some.inj hroom
        have hle : (p.resize (realBufferSize buffer.length)).remaining
            (p.resize (realBufferSize buffer.length)).poolBufferSize ≥
            realBufferSize buffer.length := heq.ge
        simp only [if_pos hsmall, heq, Nat.lt_irrefl, if_false, ne_eq, not_true_eq_false]
        rw [if_pos hle, createFitting_eq, if_pos hready]
      next hgrow => exact absurd hroom (by simp)

/-- Otherwise it waits or throws. -/
theorem createPoolBuffer_blocked {p : RingBufferPool} {buffer : List (BitVec 8)}
    (h : ∀ q, p.roomFor (realBufferSize buffer.length) = some q →
      ¬q.Ready (realBufferSize buffer.length)) :
    p.createPoolBuffer buffer = .waits ∨ p.createPoolBuffer buffer = .throws := by
  rw [roomFor] at h
  rw [createPoolBuffer]
  by_cases hfits : p.remaining p.poolBufferSize ≥ realBufferSize buffer.length
  · rw [if_pos hfits] at h
    rw [if_pos hfits, createFitting_eq, if_neg (h p rfl)]
    exact Or.inl rfl
  · rw [if_neg hfits] at h
    rw [if_neg hfits]
    by_cases hmax : realBufferSize buffer.length > p.maxBufferPoolSize
    · rw [if_pos hmax]
      exact Or.inr rfl
    · rw [if_neg hmax] at h
      rw [if_neg hmax]
      left
      by_cases hsmall : p.poolBufferSize < realBufferSize buffer.length
      · simp only [if_pos hsmall]
        by_cases heq : p.remaining (realBufferSize buffer.length) = realBufferSize buffer.length
        · rw [if_pos ⟨hsmall, heq⟩] at h
          have hle : (p.resize (realBufferSize buffer.length)).remaining
              (p.resize (realBufferSize buffer.length)).poolBufferSize ≥
              realBufferSize buffer.length := heq.ge
          simp only [heq, Nat.lt_irrefl, if_false, ne_eq, not_true_eq_false]
          rw [if_pos hle, createFitting_eq, if_neg (h _ rfl)]
        · split
          · rfl
          · rfl
      · simp only [if_neg hsmall]
        split
        · rfl
        · rfl

end RingBufferPool

namespace PoolRun

/-- The buffer that a call creates in a pool. -/
def newBuffer (p : RingBufferPool) (buffer : List (BitVec 8)) : PoolBuffer :=
  ⟨⟨p.startFor (realBufferSize buffer.length), buffer.length, realBufferSize buffer.length, true⟩,
    buffer⟩

/-- A pool and its live buffers behind that call. -/
def placed (p : RingBufferPool) (live : List PoolBuffer) (buffer : List (BitVec 8)) : PoolRun where
  pool := { p with
    inUseEndOffset := p.startFor (realBufferSize buffer.length) + realBufferSize buffer.length
    poolBuffer := copyIn p.poolBuffer (p.startFor (realBufferSize buffer.length)) buffer
    full := p.startFor (realBufferSize buffer.length) + realBufferSize buffer.length ==
      p.inUseStartOffset }
  live := live ++ [newBuffer p buffer]

theorem step_create {s : PoolRun} {buffer : List (BitVec 8)} {p : RingBufferPool}
    (hroom : s.pool.roomFor (realBufferSize buffer.length) = some p)
    (hready : p.Ready (realBufferSize buffer.length)) :
    s.step (.create buffer) = placed p s.live buffer := by
  rw [step, createPoolBuffer_created hroom hready]
  rfl

theorem step_blocked {s : PoolRun} {buffer : List (BitVec 8)}
    (h : ∀ p, s.pool.roomFor (realBufferSize buffer.length) = some p →
      ¬p.Ready (realBufferSize buffer.length)) : s.step (.create buffer) = s := by
  rw [step]
  rcases createPoolBuffer_blocked h with h | h
  · rw [h]
  · rw [h]

end PoolRun

-- ════════════════════
-- The chains of live buffers
-- ════════════════════

/-- What a live buffer holds. -/
structure PoolBuffer.Holds (b : PoolBuffer) (p : RingBufferPool) : Prop where
  valid : b.pointer.isValid = true
  fits : b.stored.length ≤ b.len
  bytes : ∀ i (h : i < b.stored.length), p.poolBuffer (b.start + i) = b.stored[i]

/-- The live buffers as one chain, or as two of which the second is at the front of the ring. The
    two do not overlap: the second ends before the first starts, or the first has no bytes. -/
structure PoolLayout (s : PoolRun) (xs ys : List PoolBuffer) (m : ℕ) : Prop where
  live : s.live = xs ++ ys
  holds : ∀ b ∈ s.live, b.Holds s.pool
  chain : Chained PoolBuffer.start PoolBuffer.len s.pool.inUseStartOffset xs m
  chain_le : m ≤ s.pool.poolBufferSize
  end_le : s.pool.inUseEndOffset ≤ s.pool.poolBufferSize
  full : s.pool.full = true → s.pool.inUseStartOffset = s.pool.inUseEndOffset
  shape : (ys = [] ∧ m = s.pool.inUseEndOffset) ∨
    Chained PoolBuffer.start PoolBuffer.len 0 ys s.pool.inUseEndOffset ∧
      0 < s.pool.inUseEndOffset ∧ 0 < s.pool.inUseStartOffset ∧
      (s.pool.inUseEndOffset ≤ s.pool.inUseStartOffset ∨ m = s.pool.inUseStartOffset)

namespace PoolLayout

variable {s : PoolRun} {xs ys : List PoolBuffer} {m : ℕ}

theorem fresh (poolSize : ℕ) : PoolLayout (.fresh poolSize) [] [] 0 where
  live := rfl
  holds := fun _ h => absurd h List.not_mem_nil
  chain := rfl
  chain_le := Nat.zero_le _
  end_le := Nat.zero_le _
  full := fun _ => rfl
  shape := Or.inl ⟨rfl, rfl⟩

theorem start_le (h : PoolLayout s xs ys m) : s.pool.inUseStartOffset ≤ s.pool.poolBufferSize :=
  h.chain.le.trans h.chain_le

theorem safe (h : PoolLayout s xs ys m) : PoolSafe s where
  inside := by
    intro b hb
    rw [h.live] at hb
    rcases List.mem_append.mp hb with hx | hy
    · exact (h.chain.bounds hx).2.trans h.chain_le
    · rcases h.shape with ⟨rfl, -⟩ | ⟨hys, -⟩
      · exact absurd hy List.not_mem_nil
      · exact (hys.bounds hy).2.trans h.end_le
  apart := by
    rw [h.live, List.pairwise_append]
    rcases h.shape with ⟨rfl, -⟩ | ⟨hys, -, -, happart⟩
    · exact ⟨h.chain.pairwise, List.Pairwise.nil, fun _ _ b hb => absurd hb List.not_mem_nil⟩
    · refine ⟨h.chain.pairwise, hys.pairwise, ?_⟩
      rcases happart with hle | rfl
      · exact h.chain.disjoint hys hle
      · intro a ha b _
        exact disjoint_of_empty_left b (h.chain.empty ha)
  stored := by
    intro b hb
    obtain ⟨hvalid, -, hbytes⟩ := h.holds b hb
    refine ⟨fun i => s.pool.poolBuffer (b.start + i), ?_, hbytes⟩
    rw [getBufferFromPool, hvalid]
    rfl

/-- Growing the pool moves no buffer. -/
theorem resize (h : PoolLayout s xs ys m) {size : ℕ} (hsize : s.pool.poolBufferSize ≤ size) :
    PoolLayout ⟨s.pool.resize size, s.live⟩ xs ys m where
  live := h.live
  holds := by
    intro b hb
    obtain ⟨hvalid, hfits, hbytes⟩ := h.holds b hb
    have hinside := h.safe.inside b hb
    refine ⟨hvalid, hfits, fun i hi => ?_⟩
    have hlt : b.start + i < s.pool.poolBufferSize := by omega
    exact (if_pos hlt).trans (hbytes i hi)
  chain := h.chain
  chain_le := h.chain_le.trans hsize
  end_le := h.end_le.trans hsize
  full := h.full
  shape := h.shape

/-- The bytes of the live buffers survive a copy into bytes that none of them takes up. -/
theorem holds_placed (h : PoolLayout s xs ys m) (buffer : List (BitVec 8))
    (hfree : ∀ b ∈ s.live, Disjoint b.range (PoolRun.newBuffer s.pool buffer).range) :
    ∀ b ∈ (PoolRun.placed s.pool s.live buffer).live,
      b.Holds (PoolRun.placed s.pool s.live buffer).pool := by
  have hlen := length_le_realBufferSize buffer.length
  intro b hb
  rcases List.mem_append.mp hb with hold | hnew
  · obtain ⟨hvalid, hfits, hbytes⟩ := h.holds b hold
    refine ⟨hvalid, hfits, fun i hi => ?_⟩
    have hmem : b.start + i ∈ b.range := ⟨Nat.le_add_right _ _, by omega⟩
    refine Eq.trans (if_neg ?_) (hbytes i hi)
    rintro ⟨hlow, hhigh⟩
    exact Set.disjoint_left.mp (hfree b hold) hmem
      ⟨hlow, hhigh.trans_le (Nat.add_le_add_left hlen _)⟩
  · obtain rfl := List.mem_singleton.mp hnew
    refine ⟨rfl, hlen, fun i hi => ?_⟩
    refine Eq.trans (if_pos ⟨Nat.le_add_right _ _, Nat.add_lt_add_left hi _⟩) ?_
    have hi' : i < buffer.length := hi
    change buffer.getD (s.pool.startFor _ + i - s.pool.startFor _) 0 = buffer[i]
    rw [Nat.add_sub_cancel_left, List.getD_eq_getElem?_getD, List.getElem?_eq_getElem hi',
      Option.getD_some]

/-- What is free tells whether a buffer with bytes fits. -/
theorem room_cases (h : PoolLayout s xs ys m) {r : ℕ} (hpos : 0 < r)
    (hroom : r ≤ s.pool.remaining s.pool.poolBufferSize) :
    s.pool.inUseEndOffset + r ≤ s.pool.inUseStartOffset ∨
      s.pool.inUseStartOffset ≤ s.pool.inUseEndOffset ∧ s.pool.full = false ∧
        s.pool.inUseEndOffset + r ≤ s.pool.poolBufferSize + s.pool.inUseStartOffset := by
  have hend := h.end_le
  rw [remaining] at hroom
  split at hroom
  next hbehind =>
    left
    omega
  next hbehind =>
    obtain ⟨hle, hfull⟩ := not_or.mp hbehind
    exact Or.inr ⟨by omega, Bool.eq_false_iff.mpr hfull, by omega⟩

/-- **A buffer behind the last one** -/
theorem place_end (h : PoolLayout s xs ys m) {buffer : List (BitVec 8)}
    (hroom : realBufferSize buffer.length ≤ s.pool.remaining s.pool.poolBufferSize)
    (hover : ¬s.pool.StartsOver (realBufferSize buffer.length))
    (hsound : 0 < realBufferSize buffer.length →
      ∀ b ∈ s.live, b.len ≠ 0 → b.start ≠ s.pool.inUseEndOffset) :
    ∃ xs' ys' m', PoolLayout (.placed s.pool s.live buffer) xs' ys' m' := by
  have hstart : s.pool.startFor (realBufferSize buffer.length) =
    s.pool.inUseEndOffset := if_neg hover
  have hnewStart : (PoolRun.newBuffer s.pool buffer).start = s.pool.inUseEndOffset := hstart
  have hfits : s.pool.inUseEndOffset + realBufferSize buffer.length ≤ s.pool.poolBufferSize :=
    Nat.le_of_not_gt hover
  have hnewEnd : (PoolRun.placed s.pool s.live buffer).pool.inUseEndOffset =
      s.pool.inUseEndOffset + realBufferSize buffer.length := congrArg (· + _) hstart
  have hnewFull : (PoolRun.placed s.pool s.live buffer).pool.full = true →
      s.pool.inUseStartOffset = (PoolRun.placed s.pool s.live buffer).pool.inUseEndOffset :=
    fun hfull => (beq_iff_eq.mp hfull).symm
  rcases h.shape with ⟨hys, hm⟩ | ⟨hys, hendPos, hstartPos, happart⟩
  · have hfree : ∀ b ∈ s.live, Disjoint b.range (PoolRun.newBuffer s.pool buffer).range := by
      intro b hb
      rw [h.live, hys, List.append_nil] at hb
      refine disjoint_of_le ?_
      rw [hnewStart, ← hm]
      exact (h.chain.bounds hb).2
    refine ⟨xs ++ [PoolRun.newBuffer s.pool buffer], [], s.pool.inUseEndOffset +
      realBufferSize buffer.length, ?_, h.holds_placed buffer hfree, ?_, hfits,
      hnewEnd.trans_le hfits, hnewFull, Or.inl ⟨rfl, hnewEnd.symm⟩⟩
    · rw [List.append_nil, PoolRun.placed, h.live, hys, List.append_nil]
    · rw [hm] at h
      exact h.chain.snoc hnewStart
  · -- the second chain grows towards the first, unless the first has no bytes
    have happart' : s.pool.inUseEndOffset + realBufferSize buffer.length ≤ s.pool.inUseStartOffset ∨
        m = s.pool.inUseStartOffset := by
      rcases Nat.eq_zero_or_pos (realBufferSize buffer.length) with hzero | hpos
      · rw [hzero]
        exact happart
      · rcases h.room_cases hpos hroom with hle | ⟨hle, -, -⟩
        · exact Or.inl hle
        · refine or_iff_not_imp_right.mpr fun hne => ?_
          have hge : s.pool.inUseEndOffset ≤ s.pool.inUseStartOffset := happart.resolve_right hne
          have hlt : s.pool.inUseStartOffset < m := lt_of_le_of_ne h.chain.le (Ne.symm hne)
          obtain ⟨b, hb, hlen, hbstart⟩ := h.chain.exists_first hlt
          have hlive : b ∈ s.live := h.live ▸ List.mem_append_left _ hb
          exact absurd (hbstart.trans (Nat.le_antisymm hle hge)) (hsound hpos b hlive hlen)
    have hfree : ∀ b ∈ s.live, Disjoint b.range (PoolRun.newBuffer s.pool buffer).range := by
      intro b hb
      rw [h.live] at hb
      rcases List.mem_append.mp hb with hx | hy
      · rcases happart' with hle | hempty
        · refine (disjoint_of_le ?_).symm
          rw [hnewStart]
          exact hle.trans (h.chain.bounds hx).1
        · exact disjoint_of_empty_left _ ((hempty ▸ h.chain).empty hx)
      · refine disjoint_of_le ?_
        rw [hnewStart]
        exact (hys.bounds hy).2
    refine ⟨xs, ys ++ [PoolRun.newBuffer s.pool buffer], m, ?_, h.holds_placed buffer hfree,
      h.chain, h.chain_le, hnewEnd.trans_le hfits, hnewFull, Or.inr ⟨?_, ?_, hstartPos, ?_⟩⟩
    · rw [PoolRun.placed, h.live, List.append_assoc]
    · rw [hnewEnd]
      exact hys.snoc hnewStart
    · rw [hnewEnd]
      exact Nat.add_pos_left hendPos _
    · rw [hnewEnd]
      exact happart'

/-- **A buffer at the front of the ring** -/
theorem place_front (h : PoolLayout s xs ys m) {buffer : List (BitVec 8)}
    (hroom : realBufferSize buffer.length ≤ s.pool.remaining s.pool.poolBufferSize)
    (hover : s.pool.StartsOver (realBufferSize buffer.length))
    (hready : s.pool.Ready (realBufferSize buffer.length))
    (hsound : ∀ b ∈ s.live, b.len ≠ 0 → b.start ≠ 0) :
    ∃ xs' ys' m', PoolLayout (.placed s.pool s.live buffer) xs' ys' m' := by
  have hover' : s.pool.inUseEndOffset + realBufferSize buffer.length >
    s.pool.poolBufferSize := hover
  have hend := h.end_le
  have hstart := h.start_le
  have hpos : 0 < realBufferSize buffer.length := by omega
  obtain ⟨hle, -, hsum⟩ := (h.room_cases hpos hroom).resolve_left (by omega)
  have hstartPos : 0 < s.pool.inUseStartOffset := by omega
  have hstartFor : s.pool.startFor (realBufferSize buffer.length) = 0 := if_pos hover
  have hnewStart : (PoolRun.newBuffer s.pool buffer).start = 0 := hstartFor
  have hnewEnd : (PoolRun.placed s.pool s.live buffer).pool.inUseEndOffset =
      realBufferSize buffer.length := (congrArg (· + _) hstartFor).trans (Nat.zero_add _)
  have hnewFull : (PoolRun.placed s.pool s.live buffer).pool.full = true →
      s.pool.inUseStartOffset = (PoolRun.placed s.pool s.live buffer).pool.inUseEndOffset :=
    fun hfull => (beq_iff_eq.mp hfull).symm
  rcases h.shape with ⟨hys, hm⟩ | ⟨hys, hendPos, -, -⟩
  · -- a chain that starts where it ends leaves the whole ring
    have happart : realBufferSize buffer.length ≤ s.pool.inUseStartOffset ∨
        m = s.pool.inUseStartOffset := by
      rcases hready hover with hlt | heq
      · exact Or.inl hlt.le
      · exact Or.inr (hm.trans heq.symm)
    have hfree : ∀ b ∈ s.live, Disjoint b.range (PoolRun.newBuffer s.pool buffer).range := by
      intro b hb
      rw [h.live, hys, List.append_nil] at hb
      rcases happart with hlow | hempty
      · refine (disjoint_of_le ?_).symm
        rw [hnewStart, Nat.zero_add]
        exact hlow.trans (h.chain.bounds hb).1
      · exact disjoint_of_empty_left _ ((hempty ▸ h.chain).empty hb)
    refine ⟨xs, [PoolRun.newBuffer s.pool buffer], m, ?_, h.holds_placed buffer hfree, h.chain,
      h.chain_le, ?_, hnewFull, Or.inr ⟨⟨hnewStart, ?_⟩, ?_, hstartPos, ?_⟩⟩
    · rw [PoolRun.placed, h.live, hys, List.append_nil]
    · rw [hnewEnd]
      show _ ≤ s.pool.poolBufferSize
      omega
    · rw [chained_nil, hnewEnd]
      exact Nat.zero_add _
    · rw [hnewEnd]
      exact hpos
    · rw [hnewEnd]
      exact happart
  · obtain ⟨b, hb, hlen, hbstart⟩ := hys.exists_first hendPos
    exact absurd hbstart (hsound b (h.live ▸ List.mem_append_right _ hb) hlen)

/-- **The oldest buffer goes** -/
theorem remove (h : PoolLayout s xs ys m) :
    ∃ xs' ys' m', PoolLayout (s.step .remove) xs' ys' m' := by
  rcases hlive : s.live with - | ⟨b, live⟩
  · refine ⟨xs, ys, m, ?_⟩
    rw [PoolRun.step, hlive]
    exact h
  · have hvalid := (h.holds b (hlive ▸ List.mem_cons_self)).valid
    have hpool : s.pool.removeBufferFromPool b.pointer =
        { s.pool with inUseStartOffset := b.start + b.len, full := false } := if_pos hvalid
    have hholds : ∀ b' ∈ live, b'.Holds s.pool := fun b' hb' =>
      h.holds b' (hlive ▸ List.mem_cons_of_mem _ hb')
    have hsplit : b :: live = xs ++ ys := hlive.symm.trans h.live
    rw [PoolRun.step, hlive]
    simp only [hpool]
    rcases xs with - | ⟨b', xs'⟩
    · -- the first chain is used up
      rcases h.shape with ⟨rfl, -⟩ | ⟨hys, -, -, -⟩
      · exact absurd hsplit (List.cons_ne_nil _ _)
      · rw [List.nil_append] at hsplit
        rw [← hsplit] at hys
        obtain ⟨hb, hrest⟩ := hys
        rw [hb]
        exact ⟨live, [], s.pool.inUseEndOffset, (List.append_nil _).symm, fun b' hb' =>
          ⟨(hholds b' hb').valid, (hholds b' hb').fits, (hholds b' hb').bytes⟩, hrest, h.end_le,
          h.end_le, fun hfull => absurd hfull Bool.false_ne_true, Or.inl ⟨rfl, rfl⟩⟩
    · obtain ⟨rfl, hrest⟩ := List.cons.inj hsplit
      obtain ⟨hb, hchain⟩ := h.chain
      rw [hb]
      refine ⟨xs', ys, m, hrest, fun b' hb' =>
        ⟨(hholds b' hb').valid, (hholds b' hb').fits, (hholds b' hb').bytes⟩, hchain, h.chain_le,
        h.end_le, fun hfull => absurd hfull Bool.false_ne_true, ?_⟩
      rcases h.shape with hlinear | ⟨hys, hendPos, hstartPos, happart⟩
      · exact Or.inl hlinear
      · refine Or.inr ⟨hys, hendPos, Nat.add_pos_left hstartPos _, ?_⟩
        rcases happart with hle | hempty
        · exact Or.inl (hle.trans (Nat.le_add_right _ _))
        · have hle := hchain.le
          have hlen : b.len = 0 := by omega
          right
          show m = s.pool.inUseStartOffset + b.len
          rw [hlen]
          exact hempty

end PoolLayout

-- ════════════════════
-- The calls of a run
-- ════════════════════

/-- There is room in the pool as it is, or in the pool when it has grown. -/
theorem RingBufferPool.roomFor_some {p q : RingBufferPool} {r : ℕ} (h : p.roomFor r = some q) :
    (q = p ∨ p.poolBufferSize < r ∧ q = p.resize r) ∧ r ≤ q.remaining q.poolBufferSize := by
  rw [roomFor] at h
  split at h
  next hfits =>
    obtain rfl := Option.some.inj h
    exact ⟨Or.inl rfl, hfits⟩
  next =>
    split at h
    next => exact absurd h (by simp)
    next =>
      split at h
      next hgrow =>
        obtain rfl := Option.some.inj h
        exact ⟨Or.inr ⟨hgrow.1, rfl⟩, hgrow.2.ge⟩
      next => exact absurd h (by simp)

/-- The live buffers form their chains. -/
def PoolLaidOut (s : PoolRun) : Prop := ∃ xs ys m, PoolLayout s xs ys m

theorem PoolLaidOut.roomFor {s : PoolRun} (h : PoolLaidOut s) {p : RingBufferPool} {r : ℕ}
    (hroom : s.pool.roomFor r = some p) : PoolLaidOut ⟨p, s.live⟩ := by
  obtain ⟨xs, ys, m, hlayout⟩ := h
  rcases (roomFor_some hroom).1 with rfl | ⟨hlt, rfl⟩
  · exact ⟨xs, ys, m, hlayout⟩
  · exact ⟨xs, ys, m, hlayout.resize hlt.le⟩

/-- A sound call keeps the chains. -/
theorem PoolLaidOut.step {s : PoolRun} (h : PoolLaidOut s) {a : PoolStep} (hsound : a.Sound s) :
    PoolLaidOut (s.step a) := by
  cases a with
  | create buffer =>
    by_cases hplaced : ∃ p, s.pool.roomFor (realBufferSize buffer.length) = some p ∧
        p.Ready (realBufferSize buffer.length)
    · obtain ⟨p, hroom, hready⟩ := hplaced
      have hle := (roomFor_some hroom).2
      have hclear := fun hpos => hsound hpos p hroom hready
      rw [PoolRun.step_create hroom hready]
      obtain ⟨xs, ys, m, hlayout⟩ := h.roomFor hroom
      rw [startFor] at hclear
      by_cases hover : p.StartsOver (realBufferSize buffer.length)
      · rw [if_pos hover] at hclear
        have hpos : 0 < realBufferSize buffer.length := by
          have hend : p.inUseEndOffset ≤ p.poolBufferSize := hlayout.end_le
          have hgt : p.inUseEndOffset + realBufferSize buffer.length > p.poolBufferSize := hover
          omega
        exact hlayout.place_front hle hover hready (hclear hpos)
      · rw [if_neg hover] at hclear
        exact hlayout.place_end hle hover hclear
    · rw [PoolRun.step_blocked fun p hroom hready => hplaced ⟨p, hroom, hready⟩]
      exact h
  | remove =>
    obtain ⟨xs, ys, m, hlayout⟩ := h
    exact hlayout.remove

/-- A buffer that is put where a live one starts shares its first byte. -/
theorem PoolSafe.sound {s : PoolRun} {a : PoolStep} (h : PoolSafe (s.step a)) : a.Sound s := by
  cases a with
  | create buffer =>
    intro hpos p hroom hready b hb hlen hstart
    have happart := h.apart
    rw [PoolRun.step_create hroom hready, PoolRun.placed, List.pairwise_append] at happart
    have hdisjoint := happart.2.2 b hb _ List.mem_cons_self
    have hold : b.start ∈ b.range := ⟨le_rfl, Nat.lt_add_of_pos_right (Nat.pos_of_ne_zero hlen)⟩
    have hnew : b.start ∈ (PoolRun.newBuffer p buffer).range := by
      rw [hstart]
      exact ⟨le_rfl, Nat.lt_add_of_pos_right hpos⟩
    exact Set.disjoint_left.mp hdisjoint hold hnew
  | remove => trivial

-- ════════════════════
-- A call that waits
-- ════════════════════

/-- What holds in every run: the offsets stay in the pool, the newest buffer ends at the end offset,
    and when no buffer is left the two offsets are the same and the pool is not full. -/
structure PoolRun.Sequenced (s : PoolRun) : Prop where
  start_le : s.pool.inUseStartOffset ≤ s.pool.poolBufferSize
  end_le : s.pool.inUseEndOffset ≤ s.pool.poolBufferSize
  valid : ∀ b ∈ s.live, b.pointer.isValid = true
  inside : ∀ b ∈ s.live, b.start + b.len ≤ s.pool.poolBufferSize
  newest : ∀ b, s.live.getLast? = some b → b.start + b.len = s.pool.inUseEndOffset
  empty : s.live = [] →
    s.pool.inUseStartOffset = s.pool.inUseEndOffset ∧ s.pool.full = false

namespace PoolRun

namespace Sequenced

variable {s : PoolRun}

theorem fresh (poolSize : ℕ) : (PoolRun.fresh poolSize).Sequenced where
  start_le := Nat.zero_le _
  end_le := Nat.zero_le _
  valid := fun _ h => absurd h List.not_mem_nil
  inside := fun _ h => absurd h List.not_mem_nil
  newest := fun _ h => absurd h (by simp [PoolRun.fresh])
  empty := fun _ => ⟨rfl, rfl⟩

theorem roomFor (h : s.Sequenced) {p : RingBufferPool} {r : ℕ}
    (hroom : s.pool.roomFor r = some p) : Sequenced ⟨p, s.live⟩ := by
  rcases (roomFor_some hroom).1 with rfl | ⟨hlt, rfl⟩
  · exact h
  · exact ⟨h.start_le.trans hlt.le, h.end_le.trans hlt.le, h.valid,
      fun b hb => (h.inside b hb).trans hlt.le, h.newest, h.empty⟩

theorem placed (h : s.Sequenced) {buffer : List (BitVec 8)}
    (hroom : realBufferSize buffer.length ≤ s.pool.remaining s.pool.poolBufferSize) :
    (PoolRun.placed s.pool s.live buffer).Sequenced := by
  have hstart := h.start_le
  have hend := h.end_le
  have hfits : s.pool.startFor (realBufferSize buffer.length) + realBufferSize buffer.length ≤
      s.pool.poolBufferSize := by
    rw [startFor]
    split
    · rw [remaining] at hroom
      split at hroom <;> omega
    next hover => exact Nat.le_of_not_gt hover
  refine ⟨hstart, hfits, ?_, ?_, ?_, ?_⟩
  · intro b hb
    rcases List.mem_append.mp hb with hold | hnew
    · exact h.valid b hold
    · obtain rfl := List.mem_singleton.mp hnew
      rfl
  · intro b hb
    rcases List.mem_append.mp hb with hold | hnew
    · exact h.inside b hold
    · obtain rfl := List.mem_singleton.mp hnew
      exact hfits
  · intro b hb
    obtain rfl := Option.some.inj (List.getLast?_concat.symm.trans hb)
    rfl
  · intro hlive
    exact absurd hlive (by simp [PoolRun.placed])

theorem remove (h : s.Sequenced) : (s.step .remove).Sequenced := by
  rcases hlive : s.live with - | ⟨b, live⟩
  · rw [PoolRun.step, hlive]
    exact h
  · have hb : b ∈ s.live := hlive ▸ List.mem_cons_self
    have hpool : s.pool.removeBufferFromPool b.pointer =
        { s.pool with inUseStartOffset := b.start + b.len, full := false } := if_pos (h.valid b hb)
    have hsub : ∀ b' ∈ live, b' ∈ s.live := fun b' hb' => hlive ▸ List.mem_cons_of_mem _ hb'
    rw [PoolRun.step, hlive]
    simp only [hpool]
    refine ⟨h.inside b hb, h.end_le, fun b' hb' => h.valid b' (hsub b' hb'),
      fun b' hb' => h.inside b' (hsub b' hb'), ?_, ?_⟩
    · intro b' hb'
      refine h.newest b' ?_
      rw [hlive, List.getLast?_cons, hb', Option.getD_some]
    · rintro rfl
      exact ⟨h.newest b (by rw [hlive, List.getLast?_singleton]), rfl⟩

theorem step (h : s.Sequenced) (a : PoolStep) : (s.step a).Sequenced := by
  cases a with
  | create buffer =>
    by_cases hplaced : ∃ p, s.pool.roomFor (realBufferSize buffer.length) = some p ∧
        p.Ready (realBufferSize buffer.length)
    · obtain ⟨p, hroom, hready⟩ := hplaced
      rw [step_create hroom hready]
      exact (h.roomFor hroom).placed (roomFor_some hroom).2
    · rw [step_blocked fun p hroom hready => hplaced ⟨p, hroom, hready⟩]
      exact h
  | remove => exact h.remove

end Sequenced

/-- The pool when the consumer has removed every live buffer. -/
def drained (s : PoolRun) : PoolRun :=
  Runs.runFrom step s (List.replicate s.live.length .remove)

theorem live_step_remove (s : PoolRun) : (s.step .remove).live = s.live.tail := by
  rw [step]
  split
  next hlive => rw [hlive, List.tail_nil]
  next hlive => rw [hlive, List.tail_cons]

theorem live_removed (s : PoolRun) (n : ℕ) :
    (Runs.runFrom step s (List.replicate n .remove)).live = s.live.drop n := by
  induction n generalizing s with
  | zero => rfl
  | succ n ih => rw [List.replicate_succ, Runs.runFrom_cons, ih, live_step_remove, List.drop_tail]

theorem drained_live (s : PoolRun) : s.drained.live = [] := by
  rw [drained, live_removed, List.drop_length]

theorem sizes_step_remove (s : PoolRun) : (s.step .remove).pool.poolBufferSize =
    s.pool.poolBufferSize ∧ (s.step .remove).pool.maxBufferPoolSize = s.pool.maxBufferPoolSize := by
  rw [step]
  split
  · exact ⟨rfl, rfl⟩
  next =>
    rw [removeBufferFromPool]
    split
    · exact ⟨rfl, rfl⟩
    · exact ⟨rfl, rfl⟩

theorem sizes_removed (s : PoolRun) (n : ℕ) :
    (Runs.runFrom step s (List.replicate n .remove)).pool.poolBufferSize = s.pool.poolBufferSize ∧
    (Runs.runFrom step s (List.replicate n .remove)).pool.maxBufferPoolSize =
      s.pool.maxBufferPoolSize := by
  induction n generalizing s with
  | zero => exact ⟨rfl, rfl⟩
  | succ n ih =>
    obtain ⟨hsize, hmax⟩ := s.sizes_step_remove
    rw [List.replicate_succ, Runs.runFrom_cons, ← hsize, ← hmax]
    exact ih _

theorem drained_sizes (s : PoolRun) : s.drained.pool.poolBufferSize = s.pool.poolBufferSize ∧
    s.drained.pool.maxBufferPoolSize = s.pool.maxBufferPoolSize :=
  s.sizes_removed _

theorem Sequenced.drained {s : PoolRun} (h : s.Sequenced) : s.drained.Sequenced :=
  Runs.invariant_end (fun _ a h => h.step a) h

/-- **An empty pool takes every buffer that it may grow to.** -/
theorem Sequenced.created {s : PoolRun} (h : s.Sequenced) (hlive : s.live = [])
    {buffer : List (BitVec 8)} (hsize : realBufferSize buffer.length ≤
      max s.pool.poolBufferSize s.pool.maxBufferPoolSize) :
    ∃ pointer pool, s.pool.createPoolBuffer buffer = .created pointer pool := by
  obtain ⟨hoffsets, hfull⟩ := h.empty hlive
  have hend := h.end_le
  have hremaining : ∀ n, s.pool.remaining n = n - s.pool.inUseEndOffset +
    s.pool.inUseEndOffset := by
    intro n
    rw [remaining, hoffsets, hfull, if_neg (by simp)]
  by_cases hfits : s.pool.remaining s.pool.poolBufferSize ≥ realBufferSize buffer.length
  · have hroom : s.pool.roomFor (realBufferSize buffer.length) = some s.pool := if_pos hfits
    rw [createPoolBuffer_created hroom fun _ => Or.inr hoffsets]
    exact ⟨_, _, rfl⟩
  · have hlt : s.pool.poolBufferSize < realBufferSize buffer.length := by
      rw [hremaining] at hfits
      omega
    have hmax : ¬realBufferSize buffer.length > s.pool.maxBufferPoolSize := by omega
    have hgrow : s.pool.remaining (realBufferSize buffer.length) =
      realBufferSize buffer.length := by
      rw [hremaining]
      omega
    have hroom : s.pool.roomFor (realBufferSize buffer.length) =
        some (s.pool.resize (realBufferSize buffer.length)) := by
      rw [RingBufferPool.roomFor, if_neg hfits, if_neg hmax, if_pos ⟨hlt, hgrow⟩]
    rw [createPoolBuffer_created hroom fun _ => Or.inr hoffsets]
    exact ⟨_, _, rfl⟩

end PoolRun

/-- **The buffer pool** Over any calls of the two threads the live buffers lie apart inside of the
    pool and hold what was stored in them, exactly when no buffer is put where a live one starts.
    In any case a call that the pool can grow to goes on at the latest when every buffer before it
    has been removed. -/
theorem ringBuffer_safe_iff (poolSize : ℕ) (steps : List PoolStep) :
    ((∀ s ∈ Runs.visited PoolRun.step (.fresh poolSize) steps, PoolSafe s) ↔
      Runs.Along PoolRun.step (fun s a => a.Sound s) (.fresh poolSize) steps) ∧
    ∀ s ∈ Runs.visited PoolRun.step (.fresh poolSize) steps, ∀ buffer : List (BitVec 8),
      realBufferSize buffer.length ≤ max s.pool.poolBufferSize s.pool.maxBufferPoolSize →
        ∃ pointer pool, s.drained.pool.createPoolBuffer buffer = .created pointer pool := by
  constructor
  · refine Runs.visited_iff_along_of (I := PoolLaidOut) ?_ (fun _ _ h hs => h.step hs)
      (fun _ _ _ hsafe => hsafe.sound) ⟨[], [], 0, PoolLayout.fresh poolSize⟩
    rintro s ⟨xs, ys, m, h⟩
    exact h.safe
  · intro s hs buffer hsize
    have hseq : s.Sequenced :=
      Runs.invariant_always (fun _ a h => h.step a) (PoolRun.Sequenced.fresh poolSize) s hs
    have hsizes := s.drained_sizes
    refine hseq.drained.created s.drained_live ?_
    rw [hsizes.1, hsizes.2]
    exact hsize

/-- With both offsets at 16, a buffer of the whole pool starts over, and what is free is then taken
    to be the sixteen bytes at its front. -/
theorem live_startedOver {poolSize : ℕ} {first second third : List (BitVec 8)}
    (hfirst : first.length = 16) (hsecond : second.length = startBufferPoolSize)
    (hthird : third.length = 8) :
    (Runs.runFrom PoolRun.step (.fresh poolSize)
      [.create first, .remove, .create second, .create third]).live =
      [⟨⟨0, startBufferPoolSize, startBufferPoolSize, true⟩, second⟩,
       ⟨⟨0, 8, 8, true⟩, third⟩] := by
  simp [PoolRun.step, PoolRun.fresh, createPoolBuffer, createFitting, place, remaining,
    removeBufferFromPool, realBufferSize, newRingBufferPool, startBufferPoolSize, hfirst, hsecond,
    hthird]

theorem ringBuffer_not_safe : ¬∀ (poolSize : ℕ) (steps : List PoolStep),
    ∀ s ∈ Runs.visited PoolRun.step (.fresh poolSize) steps, PoolSafe s := by
  intro h
  have hend := h (1024 * 1024 * 200) [.create (List.replicate 16 0), .remove,
    .create (List.replicate startBufferPoolSize 0), .create (List.replicate 8 0)] _
    (Runs.runFrom_mem_visited _ _ _)
  have happart := hend.apart
  rw [live_startedOver List.length_replicate List.length_replicate List.length_replicate,
    List.pairwise_pair] at happart
  have hfirst : 0 ∈ Set.Ico 0 (0 + startBufferPoolSize) := ⟨le_rfl, Nat.succ_pos _⟩
  exact Set.disjoint_left.mp happart hfirst ⟨le_rfl, Nat.succ_pos 7⟩

end Mupen64plus
