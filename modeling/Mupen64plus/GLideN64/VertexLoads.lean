import Mathlib.Data.List.Range
import Mupen64plus.GLideN64.DisplayLists
import Mupen64plus.Lib.Loops

/-!
# Vertex loads

`gSP.cpp` loads vertices in batches of `VEC_OPT`, and one by one what is left. Each batch fills
entries of the vertex buffer from records and processes them.

## Main definitions

- `VertexBatch` — a batch; `batchLoop` — the loop of every loader
- `VertexLoader`, `runBatches` — what batches do to the vertex buffer
- `VertexCall` — the functions that load vertices
- `VertexCall.Exact`, `VertexCall.Fits`

## Main results

- `vertexCall_exact_iff` — exactly when a load is the one of the vertices it is asked for
-/

namespace Mupen64plus

-- ════════════════════════════════════════════════════════════════════════
-- Batches
-- ════════════════════════════════════════════════════════════════════════

/-- `VEC_OPT`. -/
inductive VecOpt where
  | one | four
  deriving DecidableEq, Repr

def VecOpt.width : VecOpt → ℕ
  | one => 1
  | four => 4

/-- A turn of a loader: entries from `vi` on are filled from the records from `record` on, and
    `gSPProcessVertex<width>(vi, spVtx)` processes them. -/
structure VertexBatch where
  width : ℕ
  vi : ℕ
  record : ℕ
  deriving DecidableEq, Repr

/-- The entries with their records, `spVtx[vi+j]` with the index of 32 bits. -/
def VertexBatch.fills (b : VertexBatch) : List (ℕ × ℕ) :=
  (List.range b.width).map fun j => ((b.vi + j) % 2 ^ 32, b.record + j)

/-- The entries of a call of `gSPProcessVertex`. -/
def VertexBatch.processed (b : VertexBatch) : List ℕ :=
  (List.range b.width).map fun j => (b.vi + j) % 2 ^ 32

/-- `for (; vi < end; vi += VNUM)`: the last `vi` and the batches. -/
def batchLoop (width stop : ℕ) : ℕ → ℕ → ℕ → Option (ℕ × List VertexBatch)
  | 0, vi, _ => if vi < stop then none else some (vi, [])
  | fuel + 1, vi, record =>
    if vi < stop then
      (batchLoop width stop fuel ((vi + width) % 2 ^ 32) (record + width)).map fun r =>
        (r.1, ⟨width, vi, record⟩ :: r.2)
    else some (vi, [])

/-- The loop of the loaders whose `end` is `n - (n%VNUM) + v0`. -/
def loadVertexData (width v0 vi n record fuel : ℕ) : Option (ℕ × List VertexBatch) :=
  batchLoop width ((n - n % width + v0) % 2 ^ 32) fuel vi record

/-- `gSPLoadSWVertexData`, whose `end` is `n - (n%VNUM)`. -/
def loadSWVertexData (width vi n record fuel : ℕ) : Option (ℕ × List VertexBatch) :=
  batchLoop width (n - n % width) fuel vi record

/-- The call with `VEC_OPT`, and the one for the remainder. -/
def loadVertices (opt : VecOpt) (v0 n fuel : ℕ) : Option (List VertexBatch) :=
  (loadVertexData opt.width v0 v0 n 0 fuel).bind fun r =>
    if r.1 < (n + v0) % 2 ^ 32 then
      (loadVertexData 1 v0 r.1 n ((r.1 + 2 ^ 32 - v0) % 2 ^ 32) fuel).map fun rest => r.2 ++ rest.2
    else some r.2

-- ════════════════════════════════════════════════════════════════════════
-- The vertex buffer
-- ════════════════════════════════════════════════════════════════════════

/-- What a loader does: it fills an entry from a record, processes a batch and finishes an entry.
    The arithmetic is the host's; a batch changes its own entries only. -/
structure VertexLoader (R V : Type) where
  fill : R → ℕ → V → V
  process : VertexBatch → (ℕ → V) → ℕ → V
  finish : V → V
  process_outside : ∀ b buffer i, i ∉ b.processed → process b buffer i = buffer i

section

variable {R V : Type}

def fillBatch (loader : VertexLoader R V) (source : ℕ → R) (b : VertexBatch) (buffer : ℕ → V) :
    ℕ → V :=
  b.fills.foldl (fun buffer p =>
    Function.update buffer p.1 (loader.fill (source p.2) p.1 (buffer p.1))) buffer

def finishBatch (loader : VertexLoader R V) (b : VertexBatch) (buffer : ℕ → V) : ℕ → V :=
  b.processed.foldl (fun buffer i => Function.update buffer i (loader.finish (buffer i))) buffer

def runBatch (loader : VertexLoader R V) (source : ℕ → R) (buffer : ℕ → V) (b : VertexBatch) :
    ℕ → V :=
  finishBatch loader b (loader.process b (fillBatch loader source b buffer))

def runBatches (loader : VertexLoader R V) (source : ℕ → R) (batches : List VertexBatch)
    (buffer : ℕ → V) : ℕ → V :=
  batches.foldl (runBatch loader source) buffer

end

/-- The batches fill exactly these entries from these records in this order, process each of them
    once and no other, and leave the other entries as they are. -/
structure LoadsExactly (batches : List VertexBatch) (asked : List (ℕ × ℕ)) : Prop where
  fills : batches.flatMap VertexBatch.fills = asked
  processed : batches.flatMap VertexBatch.processed = asked.map Prod.fst
  others : ∀ (R V : Type) (loader : VertexLoader R V) (source : ℕ → R) (buffer : ℕ → V) (i : ℕ),
    i ∉ asked.map Prod.fst → runBatches loader source batches buffer i = buffer i

-- ════════════════════════════════════════════════════════════════════════
-- The functions
-- ════════════════════════════════════════════════════════════════════════

/-- `gSP.segment`, `gSP.DMAOffsets.vtx` and RDRAM. -/
structure VertexMemory where
  size : RdramSize
  segments : BitVec 4 → BitVec 32
  dmaVtx : BitVec 32

/-- `RSP_SegmentToPhysical`. -/
def VertexMemory.physical (mem : VertexMemory) (segaddr : BitVec 32) : BitVec 32 :=
  (mem.segments (segaddr.extractLsb' 24 4) + (segaddr &&& mem.size.last)) &&& mem.size.last

/-- `INDEXMAP_SIZE`. -/
def indexmapSize : BitVec 32 := 80#32

/-- How a call ends: at one of its checks, or with batches of records at an address. The address
    is 0 where the records are an array of the caller. -/
inductive VertexLoad where
  | rejected
  | loaded (address : BitVec 32) (batches : List VertexBatch)

/-- `(n + v0) > INDEXMAP_SIZE`. -/
def OutsideBuffer (n v0 : BitVec 32) : Prop := indexmapSize < n + v0

instance OutsideBuffer.decidable (n v0 : BitVec 32) : Decidable (OutsideBuffer n v0) :=
  inferInstanceAs (Decidable (_ < _))

/-- `(address + sizeof(..) * n) > RDRAMSize`, a sum of 64 bits. -/
def OutsideRdram (mem : VertexMemory) (recordSize : ℕ) (a n : BitVec 32) : Prop :=
  mem.size.last.toNat < (mem.physical a).toNat + recordSize * n.toNat

instance OutsideRdram.decidable (mem : VertexMemory) (recordSize : ℕ) (a n : BitVec 32) :
    Decidable (OutsideRdram mem recordSize a n) :=
  inferInstanceAs (Decidable (_ < _))

/-- The functions that load structures of a size. -/
def structVertex (mem : VertexMemory) (opt : VecOpt) (recordSize : ℕ) (a n v0 : BitVec 32)
    (fuel : ℕ) : Option VertexLoad :=
  if OutsideBuffer n v0 then some .rejected
  else if OutsideRdram mem recordSize a n then some .rejected
  else (loadVertices opt v0.toNat n.toNat fuel).map (.loaded (mem.physical a))

def gSPVertex (mem : VertexMemory) (opt : VecOpt) := structVertex mem opt 16

def gSPCIVertex (mem : VertexMemory) (opt : VecOpt) := structVertex mem opt 12

def gSPCBFDVertex (mem : VertexMemory) (opt : VecOpt) := structVertex mem opt 16

def gSPF3DAMVertex (mem : VertexMemory) (opt : VecOpt) := structVertex mem opt 16

/-- `gSP.DMAOffsets.vtx + RSP_SegmentToPhysical(a)`. -/
def VertexMemory.dmaAddress (mem : VertexMemory) (a : BitVec 32) : BitVec 32 :=
  mem.dmaVtx + mem.physical a

/-- `(address + 10 * n) > RDRAMSize`, a sum of 32 bits. -/
def OutsideDma (mem : VertexMemory) (a n : BitVec 32) : Prop :=
  mem.size.last < mem.dmaAddress a + 10#32 * n

instance OutsideDma.decidable (mem : VertexMemory) (a n : BitVec 32) :
    Decidable (OutsideDma mem a n) :=
  inferInstanceAs (Decidable (_ < _))

def gSPDMAVertex (mem : VertexMemory) (opt : VecOpt) (a n v0 : BitVec 32) (fuel : ℕ) :
    Option VertexLoad :=
  if OutsideBuffer n v0 then some .rejected
  else if OutsideDma mem a n then some .rejected
  else (loadVertices opt v0.toNat n.toNat fuel).map (.loaded (mem.dmaAddress a))

/-- `gSPSWVertex(vertex, n, verticesToProcess)`. -/
def gSPSWVertex (opt : VecOpt) (n : BitVec 32) (verticesToProcess : Option (ℕ → Bool)) (fuel : ℕ) :
    Option (List VertexBatch) :=
  match verticesToProcess with
  | none =>
    (loadSWVertexData opt.width 0 n.toNat 0 fuel).bind fun r =>
      if r.1 < n.toNat then
        (loadSWVertexData 1 r.1 n.toNat r.1 fuel).map fun rest => r.2 ++ rest.2
      else some r.2
  | some flags =>
    ((List.range n.toNat).filter flags).foldr (fun i rest =>
      (loadSWVertexData 1 i (i + 1) i fuel).bind fun r => rest.map fun batches => r.2 ++ batches)
      (some [])

/-- `gSPSWVertex(vertex, v0, n)`. -/
def gSPSWVertexFrom (opt : VecOpt) (v0 n : BitVec 32) (fuel : ℕ) : Option (List VertexBatch) :=
  let endIdx := (v0 + n).toNat
  (loadSWVertexData opt.width v0.toNat endIdx 0 fuel).bind fun r =>
    if r.1 < endIdx then
      (loadSWVertexData 1 r.1 endIdx (r.1 - v0.toNat) fuel).map fun rest => r.2 ++ rest.2
    else some r.2

/-- The calls that load vertices. -/
inductive VertexCall where
  | vertex (a n v0 : BitVec 32)
  | ciVertex (a n v0 : BitVec 32)
  | dmaVertex (a n v0 : BitVec 32)
  | cbfdVertex (a n v0 : BitVec 32)
  | f3damVertex (a n v0 : BitVec 32)
  | swVertex (n : BitVec 32) (verticesToProcess : Option (ℕ → Bool))
  | swVertexFrom (v0 n : BitVec 32)

def VertexCall.run (mem : VertexMemory) (opt : VecOpt) : VertexCall → ℕ → Option VertexLoad
  | vertex a n v0 => gSPVertex mem opt a n v0
  | ciVertex a n v0 => gSPCIVertex mem opt a n v0
  | dmaVertex a n v0 => gSPDMAVertex mem opt a n v0
  | cbfdVertex a n v0 => gSPCBFDVertex mem opt a n v0
  | f3damVertex a n v0 => gSPF3DAMVertex mem opt a n v0
  | swVertex n flags => fun fuel => (gSPSWVertex opt n flags fuel).map (.loaded 0)
  | swVertexFrom v0 n => fun fuel => (gSPSWVertexFrom opt v0 n fuel).map (.loaded 0)

/-- The entries `v0 .. v0+n-1` with the records `0 .. n-1`. -/
def consecutive (v0 n : ℕ) : List (ℕ × ℕ) :=
  (List.range n).map fun i => (v0 + i, i)

/-- The entries one-by-one loading fills, with their records. -/
def VertexCall.asked : VertexCall → List (ℕ × ℕ)
  | vertex _ n v0 | ciVertex _ n v0 | dmaVertex _ n v0 | cbfdVertex _ n v0 | f3damVertex _ n v0 =>
    consecutive v0.toNat n.toNat
  | swVertex n none => consecutive 0 n.toNat
  | swVertex n (some flags) => ((List.range n.toNat).filter flags).map fun i => (i, i)
  | swVertexFrom v0 n => consecutive v0.toNat n.toNat

/-- A call that its checks let through loads what it is asked for. -/
def VertexLoad.Exact (asked : List (ℕ × ℕ)) : VertexLoad → Prop
  | rejected => True
  | loaded _ batches => LoadsExactly batches asked

/-- The call ends, and batched loading equals one-by-one loading. -/
def VertexCall.Exact (mem : VertexMemory) (opt : VecOpt) (call : VertexCall) : Prop :=
  ∃ fuel load, call.run mem opt fuel = some load ∧ load.Exact call.asked

/-- The checks reject the call, or the end does not wrap. -/
def GuardedFits (outside : Prop) (n v0 : BitVec 32) : Prop :=
  OutsideBuffer n v0 ∨ outside ∨ v0.toNat + n.toNat < 2 ^ 32

/-- The calls whose batches end where the loads end. -/
def VertexCall.Fits (mem : VertexMemory) (opt : VecOpt) : VertexCall → Prop
  | vertex a n v0 => GuardedFits (OutsideRdram mem 16 a n) n v0
  | ciVertex a n v0 => GuardedFits (OutsideRdram mem 12 a n) n v0
  | dmaVertex a n v0 => GuardedFits (OutsideDma mem a n) n v0
  | cbfdVertex a n v0 => GuardedFits (OutsideRdram mem 16 a n) n v0
  | f3damVertex a n v0 => GuardedFits (OutsideRdram mem 16 a n) n v0
  | swVertex _ _ => True
  | swVertexFrom v0 n => v0.toNat + n.toNat < 2 ^ 32 ∧
      v0.toNat % opt.width ≤ (v0.toNat + n.toNat) % opt.width

-- ════════════════════════════════════════════════════════════════════════
-- What the batches fill
-- ════════════════════════════════════════════════════════════════════════

theorem VecOpt.width_pos (opt : VecOpt) : 0 < opt.width := by
  cases opt <;> decide

theorem VertexBatch.processed_eq (b : VertexBatch) : b.processed = b.fills.map Prod.fst := by
  simp [processed, fills]

theorem flatMap_processed (batches : List VertexBatch) :
    batches.flatMap VertexBatch.processed = (batches.flatMap VertexBatch.fills).map Prod.fst := by
  rw [List.map_flatMap]
  congr 1
  funext b
  exact b.processed_eq

/-- `k` batches one after another. -/
def batchRun (width vi record k : ℕ) : List VertexBatch :=
  (List.range k).map fun i => ⟨width, vi + width * i, record + width * i⟩

theorem batchRun_succ (width vi record k : ℕ) :
    batchRun width vi record (k + 1)
      = ⟨width, vi, record⟩ :: batchRun width (vi + width) (record + width) k := by
  unfold batchRun
  rw [List.range_succ_eq_map, List.map_cons, List.map_map]
  congr 1
  refine List.map_congr_left fun i _ => ?_
  rw [Function.comp_apply, Nat.mul_succ, Nat.add_comm (width * i), Nat.add_assoc, Nat.add_assoc]

theorem batchRun_fills {width vi k : ℕ} (hlt : vi + width * k ≤ 2 ^ 32) (record : ℕ) :
    (batchRun width vi record k).flatMap VertexBatch.fills
      = (List.range (width * k)).map fun j => (vi + j, record + j) := by
  induction k generalizing vi record with
  | zero => rfl
  | succ k ih =>
    rw [Nat.mul_succ] at hlt
    have hfills : VertexBatch.fills ⟨width, vi, record⟩
        = (List.range width).map fun j => (vi + j, record + j) := by
      refine List.map_congr_left fun j hj => ?_
      have hj' : j < width := List.mem_range.1 hj
      simp only [Nat.mod_eq_of_lt (show vi + j < 2 ^ 32 by omega)]
    rw [batchRun_succ, List.flatMap_cons, hfills, ih (by omega), Nat.mul_succ,
      Nat.add_comm (width * k), List.range_add, List.map_append, List.map_map]
    congr 1
    refine List.map_congr_left fun j _ => ?_
    rw [Function.comp_apply, Nat.add_assoc, Nat.add_assoc]

/-- The loop makes the turns that the condition allows. -/
theorem batchLoop_ends {width stop vi k : ℕ} (hgo : ∀ i < k, vi + width * i < stop)
    (hstop : stop ≤ vi + width * k) (hlt : vi + width * k < 2 ^ 32) (record : ℕ) :
    Ends (fun fuel => batchLoop width stop fuel vi record)
      (vi + width * k, batchRun width vi record k) := by
  refine ⟨k, fun fuel => ?_⟩
  dsimp only
  induction fuel generalizing k vi record with
  | zero =>
    cases k with
    | zero => rw [batchLoop, if_neg (by simpa using hstop)]; rfl
    | succ k =>
      have hnow : vi < stop := hgo 0 k.succ_pos
      rw [batchLoop, if_pos hnow, if_neg k.not_succ_le_zero]
  | succ fuel ih =>
    cases k with
    | zero => rw [batchLoop, if_neg (by simpa using hstop)]; rfl
    | succ k =>
      have hnow : vi < stop := hgo 0 k.succ_pos
      rw [Nat.mul_succ] at hstop hlt
      have hnext : ∀ i < k, vi + width + width * i < stop := by
        intro i hi
        have hturn := hgo (i + 1) (Nat.succ_lt_succ hi)
        rw [Nat.mul_succ] at hturn
        omega
      rw [batchLoop, if_pos hnow, Nat.mod_eq_of_lt (by omega),
        ih hnext (by omega) (by omega), batchRun_succ, Nat.mul_succ, Nat.add_assoc vi,
        Nat.add_comm width]
      simp only [Nat.succ_le_succ_iff]
      split <;> rfl

-- ════════════════════════════════════════════════════════════════════════
-- The other entries
-- ════════════════════════════════════════════════════════════════════════

section

variable {R V : Type}

theorem foldl_update_of_notMem {β : Type} (index : β → ℕ) (value : β → V → V) {i : ℕ} :
    ∀ (l : List β) (buffer : ℕ → V), i ∉ l.map index →
      l.foldl (fun buffer b => Function.update buffer (index b) (value b (buffer (index b))))
        buffer i = buffer i
  | [], _, _ => rfl
  | b :: l, buffer, h => by
    rw [List.map_cons, List.mem_cons, not_or] at h
    rw [List.foldl_cons, foldl_update_of_notMem index value l _ h.2, Function.update_of_ne h.1]

theorem runBatch_of_notMem (loader : VertexLoader R V) (source : ℕ → R) (buffer : ℕ → V)
    {b : VertexBatch} {i : ℕ} (h : i ∉ b.processed) :
    runBatch loader source buffer b i = buffer i := by
  have hfills : i ∉ b.fills.map Prod.fst := by rwa [← b.processed_eq]
  have hfinish : i ∉ b.processed.map id := by rwa [List.map_id]
  have hfinishBatch : ∀ buffer, finishBatch loader b buffer i = buffer i := fun buffer =>
    foldl_update_of_notMem id (fun _ => loader.finish) _ _ hfinish
  rw [runBatch, hfinishBatch, loader.process_outside b _ i h]
  exact foldl_update_of_notMem Prod.fst (fun p => loader.fill (source p.2) p.1) _ _ hfills

theorem runBatches_of_notMem (loader : VertexLoader R V) (source : ℕ → R) {i : ℕ} :
    ∀ (batches : List VertexBatch) (buffer : ℕ → V),
      i ∉ batches.flatMap VertexBatch.processed →
      runBatches loader source batches buffer i = buffer i
  | [], _, _ => rfl
  | b :: batches, buffer, h => by
    rw [List.flatMap_cons, List.mem_append, not_or] at h
    unfold runBatches
    rw [List.foldl_cons]
    exact (runBatches_of_notMem loader source batches _ h.2).trans
      (runBatch_of_notMem loader source buffer h.1)

end

/-- What is filled decides what is processed and what is left. -/
theorem loadsExactly_iff {batches : List VertexBatch} {asked : List (ℕ × ℕ)} :
    LoadsExactly batches asked ↔ batches.flatMap VertexBatch.fills = asked := by
  refine ⟨LoadsExactly.fills, ?_⟩
  rintro rfl
  exact
    { fills := rfl
      processed := flatMap_processed batches
      others := fun R V loader source buffer i hi =>
        runBatches_of_notMem loader source batches buffer (by rwa [flatMap_processed]) }

-- ════════════════════════════════════════════════════════════════════════
-- The loaders from `v0` on
-- ════════════════════════════════════════════════════════════════════════

theorem length_consecutive (v0 n : ℕ) : (consecutive v0 n).length = n := by
  rw [consecutive, List.length_map, List.length_range]

/-- Batches from `v0` on and one by one what is left fill as many entries as they turn over. -/
theorem batches_fills {v0 a b : ℕ} {opt : VecOpt} (hlt : v0 + (opt.width * a + b) ≤ 2 ^ 32) :
    (batchRun opt.width v0 0 a ++ batchRun 1 (v0 + opt.width * a) (opt.width * a) b).flatMap
      VertexBatch.fills = consecutive v0 (opt.width * a + b) := by
  rw [List.flatMap_append, batchRun_fills (by omega), batchRun_fills (by omega), Nat.one_mul,
    consecutive, List.range_add, List.map_append, List.map_map]
  congr 1
  · refine List.map_congr_left fun j _ => ?_
    rw [Nat.zero_add]
  · refine List.map_congr_left fun j _ => ?_
    rw [Function.comp_apply, Nat.add_assoc]

/-- The call for what is left goes from `vi` to the end, if that is further. -/
theorem remainder_ends (vi : ℕ) {stop : ℕ} (hstop : stop < 2 ^ 32) (record : ℕ)
    (first : List VertexBatch) :
    Ends (fun fuel => if vi < stop then
        (batchLoop 1 stop fuel vi record).map fun rest => first ++ rest.2
      else some first) (first ++ batchRun 1 vi record (stop - vi)) := by
  by_cases hlt : vi < stop
  · have hgo : ∀ i < stop - vi, vi + 1 * i < stop := fun i hi => by omega
    simp only [if_pos hlt]
    exact (batchLoop_ends hgo (by omega) (by omega) record).map fun rest => first ++ rest.2
  · simp only [if_neg hlt]
    refine Ends.of_eq fun _ => ?_
    rw [Nat.sub_eq_zero_of_le (Nat.le_of_not_lt hlt)]
    exact congrArg some (List.append_nil first).symm

/-- The batches of `loadVertices`, where the end does not wrap and where it does. -/
def loadedBatches (opt : VecOpt) (v0 n : ℕ) : List VertexBatch :=
  if v0 + n < 2 ^ 32 then
    batchRun opt.width v0 0 (n / opt.width) ++
      batchRun 1 (v0 + opt.width * (n / opt.width)) (opt.width * (n / opt.width)) (n % opt.width)
  else if v0 + opt.width * (n / opt.width) < 2 ^ 32 then batchRun opt.width v0 0 (n / opt.width)
  else []

/-- A loop whose end wraps below `v0` makes no turn. -/
theorem loadVertexData_ends (opt : VecOpt) {v0 n k : ℕ} (hv : v0 < 2 ^ 32) (hn : n < 2 ^ 32)
    (hwhole : n - n % opt.width = opt.width * k) :
    Ends (loadVertexData opt.width v0 v0 n 0) (if v0 + opt.width * k < 2 ^ 32 then
        (v0 + opt.width * k, batchRun opt.width v0 0 k)
      else (v0, [])) := by
  unfold loadVertexData
  rw [hwhole]
  split
  next hin =>
    have hgo : ∀ i < k, v0 + opt.width * i < v0 + opt.width * k := fun i hi =>
      Nat.add_lt_add_left (Nat.mul_lt_mul_of_pos_left hi opt.width_pos) v0
    rw [Nat.add_comm (opt.width * k), Nat.mod_eq_of_lt hin]
    exact batchLoop_ends hgo le_rfl hin 0
  next hin =>
    have hstop : (opt.width * k + v0) % 2 ^ 32 ≤ v0 + opt.width * 0 := by omega
    exact batchLoop_ends (fun i hi => absurd hi i.not_lt_zero) hstop (by omega) 0

theorem loadVertices_ends (opt : VecOpt) {v0 n : ℕ} (hv : v0 < 2 ^ 32) (hn : n < 2 ^ 32) :
    Ends (loadVertices opt v0 n) (loadedBatches opt v0 n) := by
  have hdiv := Nat.div_add_mod n opt.width
  have hwhole : n - n % opt.width = opt.width * (n / opt.width) := by omega
  have hfirst := loadVertexData_ends opt hv hn hwhole
  have hend : n - n % 1 + v0 = n + v0 := by rw [Nat.mod_one, Nat.sub_zero]
  unfold loadVertices loadedBatches
  simp only [loadVertexData.eq_1 1, hend]
  generalize n / opt.width = k at hdiv hfirst
  by_cases hfit : v0 + n < 2 ^ 32
  · have hin : v0 + opt.width * k < 2 ^ 32 := by omega
    have hrecord : (v0 + opt.width * k + 2 ^ 32 - v0) % 2 ^ 32 = opt.width * k := by omega
    have hrest := remainder_ends (v0 + opt.width * k) (show n + v0 < 2 ^ 32 by omega)
      (opt.width * k) (batchRun opt.width v0 0 k)
    rw [show n + v0 - (v0 + opt.width * k) = n % opt.width by omega] at hrest
    rw [if_pos hin] at hfirst
    rw [if_pos hfit, Nat.mod_eq_of_lt (by omega)]
    refine hfirst.bind ?_
    dsimp only
    rwa [hrecord]
  · -- the end has wrapped below `v0`, so there is no second call
    have hend : (n + v0) % 2 ^ 32 < v0 := by omega
    rw [if_neg hfit]
    split at hfirst
    next hin =>
      rw [if_pos hin]
      exact hfirst.bind (Ends.of_eq fun _ => if_neg (by dsimp only; omega))
    next hin =>
      rw [if_neg hin]
      exact hfirst.bind (Ends.of_eq fun _ => if_neg (by dsimp only; omega))

theorem loadedBatches_fills (opt : VecOpt) (v0 n : ℕ) (hn : v0 + n < 2 ^ 32) :
    (loadedBatches opt v0 n).flatMap VertexBatch.fills = consecutive v0 n := by
  have hdiv := Nat.div_add_mod n opt.width
  rw [loadedBatches, if_pos hn, batches_fills (by omega), hdiv]

/-- Where the end wraps, too few entries are filled. -/
theorem loadedBatches_ne (opt : VecOpt) {v0 n : ℕ} (hv : v0 < 2 ^ 32) (hwrap : ¬v0 + n < 2 ^ 32) :
    (loadedBatches opt v0 n).flatMap VertexBatch.fills ≠ consecutive v0 n := by
  have hdiv := Nat.div_add_mod n opt.width
  intro heq
  have hlen := congrArg List.length heq
  rw [loadedBatches, if_neg hwrap, length_consecutive] at hlen
  split at hlen
  next hin =>
    rw [batchRun_fills hin.le, List.length_map, List.length_range] at hlen
    omega
  next =>
    rw [List.flatMap_nil, List.length_nil] at hlen
    omega

/-- The entry of a function with checks, whatever they are. -/
theorem guarded_exact_iff {outside : Prop} [Decidable outside] {n v0 : BitVec 32} {opt : VecOpt}
    {address : BitVec 32} :
    (∃ fuel load, (if OutsideBuffer n v0 then some .rejected
        else if outside then some .rejected
        else (loadVertices opt v0.toNat n.toNat fuel).map (VertexLoad.loaded address)) = some load ∧
      load.Exact (consecutive v0.toNat n.toNat)) ↔ GuardedFits outside n v0 := by
  unfold GuardedFits
  by_cases hbuffer : OutsideBuffer n v0
  · simp only [hbuffer, if_true, true_or, iff_true]
    exact ⟨0, _, rfl, trivial⟩
  by_cases hout : outside
  · simp only [hbuffer, hout, if_false, if_true, true_or, or_true, iff_true]
    exact ⟨0, _, rfl, trivial⟩
  simp only [hbuffer, hout, if_false, false_or]
  rw [((loadVertices_ends opt v0.isLt n.isLt).map (VertexLoad.loaded address)).exists_iff
    (VertexLoad.Exact (consecutive v0.toNat n.toNat))]
  refine loadsExactly_iff.trans ⟨fun h => ?_, loadedBatches_fills opt _ _⟩
  by_contra hwrap
  exact loadedBatches_ne opt v0.isLt hwrap h

-- ════════════════════════════════════════════════════════════════════════
-- The loaders up to a rounded index
-- ════════════════════════════════════════════════════════════════════════

theorem gSPSWVertex_none (opt : VecOpt) (n : BitVec 32) :
    gSPSWVertex opt n none = gSPSWVertexFrom opt 0#32 n := by
  funext fuel
  simp [gSPSWVertex, gSPSWVertexFrom]

/-- As many batches as there are multiples of the width between `v0` and the end. -/
def swTurns (opt : VecOpt) (v0 n : ℕ) : ℕ :=
  (v0 + n) / opt.width - v0 / opt.width

theorem swTurns_end (opt : VecOpt) (v0 n : ℕ) :
    v0 + opt.width * swTurns opt v0 n
      = opt.width * ((v0 + n) / opt.width) + v0 % opt.width := by
  have hle : v0 / opt.width ≤ (v0 + n) / opt.width := Nat.div_le_div_right (Nat.le_add_right v0 n)
  have hmul : opt.width * (v0 / opt.width) ≤ opt.width * ((v0 + n) / opt.width) :=
    Nat.mul_le_mul_left _ hle
  have hdiv := Nat.div_add_mod v0 opt.width
  rw [swTurns, Nat.mul_sub]
  omega

/-- The last batch goes beyond the end where `v0` is further into its batch than the end is. -/
theorem swTurns_end_le (opt : VecOpt) (v0 n : ℕ) :
    v0 + opt.width * swTurns opt v0 n ≤ v0 + n
      ↔ v0 % opt.width ≤ (v0 + n) % opt.width := by
  have hdiv := Nat.div_add_mod (v0 + n) opt.width
  rw [swTurns_end]
  omega

theorem swTurns_end_lt (opt : VecOpt) {v0 n : ℕ} (hfit : v0 + n < 2 ^ 32) :
    v0 + opt.width * swTurns opt v0 n < 2 ^ 32 := by
  rw [swTurns_end]
  cases opt <;> simp only [VecOpt.width] <;> omega

theorem gSPSWVertexFrom_ends (opt : VecOpt) {v0 n : BitVec 32} {filled : ℕ}
    (hfit : v0.toNat + n.toNat < 2 ^ 32)
    (hfilled : filled = opt.width * swTurns opt v0.toNat n.toNat) :
    Ends (gSPSWVertexFrom opt v0 n)
      (batchRun opt.width v0.toNat 0 (swTurns opt v0.toNat n.toNat) ++
        batchRun 1 (v0.toNat + filled) filled (v0.toNat + n.toNat - (v0.toNat + filled))) := by
  subst hfilled
  have hend : (v0 + n).toNat = v0.toNat + n.toNat := by
    rw [BitVec.toNat_add, Nat.mod_eq_of_lt hfit]
  have hlast := swTurns_end opt v0.toNat n.toNat
  have hlt := swTurns_end_lt opt hfit
  have hdiv := Nat.div_add_mod (v0.toNat + n.toNat) opt.width
  have hmod := Nat.mod_lt v0.toNat opt.width_pos
  unfold gSPSWVertexFrom loadSWVertexData
  rw [hend]
  generalize swTurns opt v0.toNat n.toNat = k at hlast hlt ⊢
  have hgo : ∀ i < k, v0.toNat + opt.width * i
      < v0.toNat + n.toNat - (v0.toNat + n.toNat) % opt.width := by
    intro i hi
    have hmul := Nat.mul_le_mul_left opt.width (Nat.succ_le_of_lt hi)
    rw [Nat.mul_succ] at hmul
    omega
  refine (batchLoop_ends hgo (by omega) hlt 0).bind ?_
  have hrest := remainder_ends (v0.toNat + opt.width * k) hfit (opt.width * k)
    (batchRun opt.width v0.toNat 0 k)
  dsimp only
  rwa [Nat.mod_one, Nat.sub_zero, Nat.add_sub_cancel_left]

theorem gSPSWVertexFrom_ends_wrap (opt : VecOpt) {v0 n : BitVec 32}
    (hwrap : ¬v0.toNat + n.toNat < 2 ^ 32) : Ends (gSPSWVertexFrom opt v0 n) [] := by
  have hend : (v0 + n).toNat < v0.toNat := by
    rw [BitVec.toNat_add]
    omega
  have hnone : ∀ i < 0, v0.toNat + opt.width * i < (v0 + n).toNat - (v0 + n).toNat % opt.width :=
    fun i hi => absurd hi i.not_lt_zero
  unfold gSPSWVertexFrom loadSWVertexData
  refine (batchLoop_ends hnone (by omega) (by omega) 0).bind (Ends.of_eq fun _ => ?_)
  exact if_neg (by dsimp only; omega)

theorem gSPSWVertexFrom_exact_iff (opt : VecOpt) (v0 n : BitVec 32) :
    (∃ fuel load, (gSPSWVertexFrom opt v0 n fuel).map (VertexLoad.loaded 0) = some load ∧
      load.Exact (consecutive v0.toNat n.toNat)) ↔
      v0.toNat + n.toNat < 2 ^ 32 ∧
        v0.toNat % opt.width ≤ (v0.toNat + n.toNat) % opt.width := by
  by_cases hfit : v0.toNat + n.toNat < 2 ^ 32
  · rw [((gSPSWVertexFrom_ends opt hfit rfl).map (VertexLoad.loaded 0)).exists_iff
      (VertexLoad.Exact (consecutive v0.toNat n.toNat))]
    refine loadsExactly_iff.trans ?_
    have hlt := swTurns_end_lt opt hfit
    rw [batches_fills (by omega), ← swTurns_end_le]
    constructor
    · intro heq
      have hlen := congrArg List.length heq
      rw [length_consecutive, length_consecutive] at hlen
      exact ⟨hfit, by omega⟩
    · rintro ⟨-, hle⟩
      rw [show opt.width * swTurns opt v0.toNat n.toNat + (v0.toNat + n.toNat -
        (v0.toNat + opt.width * swTurns opt v0.toNat n.toNat)) = n.toNat by omega]
  · rw [((gSPSWVertexFrom_ends_wrap opt hfit).map (VertexLoad.loaded 0)).exists_iff
      (VertexLoad.Exact (consecutive v0.toNat n.toNat))]
    refine loadsExactly_iff.trans (iff_of_false (fun heq => ?_) fun h => hfit h.1)
    have hlen := congrArg List.length heq
    rw [length_consecutive, List.flatMap_nil, List.length_nil] at hlen
    omega

/-- A flagged entry is a batch of its own. -/
theorem gSPSWVertex_some_ends (opt : VecOpt) (n : BitVec 32) (flags : ℕ → Bool) :
    Ends (gSPSWVertex opt n (some flags))
      (((List.range n.toNat).filter flags).map fun i => ⟨1, i, i⟩) := by
  have hmem : ∀ i ∈ (List.range n.toNat).filter flags, i + 1 < 2 ^ 32 := by
    intro i hi
    have hlt := List.mem_range.1 (List.mem_of_mem_filter hi)
    omega
  unfold gSPSWVertex
  dsimp only
  generalize (List.range n.toNat).filter flags = l at hmem ⊢
  induction l with
  | nil => exact Ends.of_eq fun _ => rfl
  | cons i l ih =>
    have hgo : ∀ j < 1, i + 1 * j < i + 1 - (i + 1) % 1 := fun j hj => by omega
    have hone := batchLoop_ends hgo (by omega) (by rw [Nat.mul_one]; exact hmem i (.head _)) i
    have hrest := ih fun j hj => hmem j (.tail _ hj)
    exact hone.bind (hrest.map fun batches => batchRun 1 i i 1 ++ batches)

theorem gSPSWVertex_some_exact (opt : VecOpt) (n : BitVec 32) (flags : ℕ → Bool) :
    ∃ fuel load, (gSPSWVertex opt n (some flags) fuel).map (VertexLoad.loaded 0) = some load ∧
      load.Exact (((List.range n.toNat).filter flags).map fun i => (i, i)) := by
  rw [((gSPSWVertex_some_ends opt n flags).map (VertexLoad.loaded 0)).exists_iff
    (VertexLoad.Exact _)]
  refine loadsExactly_iff.2 ?_
  rw [List.flatMap_map, List.map_eq_flatMap]
  refine List.flatMap_congr fun i hi => ?_
  have hlt := List.mem_range.1 (List.mem_of_mem_filter hi)
  have hindex : (i + 0) % 2 ^ 32 = i := by omega
  exact congrArg (fun vi => [(vi, i)]) hindex

/-- A call ends, and batched loading equals one-by-one loading, exactly where its batches fit. -/
theorem vertexCall_exact_iff (mem : VertexMemory) (opt : VecOpt) (call : VertexCall) :
    call.Exact mem opt ↔ call.Fits mem opt := by
  cases call with
  | vertex a n v0 => exact guarded_exact_iff
  | ciVertex a n v0 => exact guarded_exact_iff
  | dmaVertex a n v0 => exact guarded_exact_iff
  | cbfdVertex a n v0 => exact guarded_exact_iff
  | f3damVertex a n v0 => exact guarded_exact_iff
  | swVertex n flags =>
    refine iff_of_true ?_ trivial
    cases flags with
    | none =>
      unfold VertexCall.Exact VertexCall.run VertexCall.asked
      simp only [gSPSWVertex_none]
      have hend : (0#32).toNat + n.toNat < 2 ^ 32 := by
        rw [BitVec.toNat_zero, Nat.zero_add]
        exact n.isLt
      exact (gSPSWVertexFrom_exact_iff opt 0#32 n).2 ⟨hend, by simp⟩
    | some flags => exact gSPSWVertex_some_exact opt n flags
  | swVertexFrom v0 n => exact gSPSWVertexFrom_exact_iff opt v0 n

/-- Two vertices from the entry 3 on fill the entries 3 to 6. -/
theorem not_vertexCall_exact :
    ¬∀ (mem : VertexMemory) (opt : VecOpt) (call : VertexCall), call.Exact mem opt := by
  intro h
  have hexact := h ⟨⟨0x3fffff, by decide⟩, fun _ => 0, 0⟩ .four (.swVertexFrom 3 2)
  have hfills := (gSPSWVertexFrom_exact_iff .four 3 2).1 hexact
  exact absurd hfills.2 (by decide)

end Mupen64plus
