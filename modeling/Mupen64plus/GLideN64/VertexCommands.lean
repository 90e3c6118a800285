import Mupen64plus.GLideN64.VertexLoads
import Mupen64plus.Lib.Runs

/-!
# Vertex commands

The vertex commands of F3DEX2, F3DDKR and F3DJFG: `F3DEX2.cpp` passes an end and takes the count
from it, `F3DDKR.cpp` appends to the vertices loaded before.

## Main definitions

- `VertexState`, `VertexCommand`, `VertexState.step`
- `VertexCommand.Safe` — the entries and the bytes of a command are where they should be
- `VertexCommand.Fits` — no whole batch ends before an end that wraps

## Main results

- `vertexi_reachable` — the append counter takes every value
- `vertexCommands_safe_iff` — exactly which sequences of commands are safe
-/

namespace Mupen64plus

-- ════════════════════
-- Commands
-- ════════════════════

/-- What the vertex commands read of `gSP`, and the size of RDRAM, which is whole words. -/
structure VertexState where
  size : RdramSize
  words : size.last.toNat % 4 = 3
  segments : BitVec 4 → BitVec 32
  dmaVtx : BitVec 24
  vertexi : BitVec 32
  billboard : Bool

inductive VertexCommand where
  | f3dex2Vtx (w0 w1 : BitVec 32)
  | f3ddkrDmaVtx (w0 w1 : BitVec 32)
  | f3djfgDmaVtx (w0 w1 : BitVec 32)
  | f3ddkrDmaTri (w0 w1 : BitVec 32)
  | f3ddkrDmaOffsets (w0 w1 : BitVec 32)
  /-- `F3DDKR_MoveWord` of `0x02`. -/
  | billboard (w1 : BitVec 32)
  /-- `F3D_MoveWord` of a segment. -/
  | segment (seg : BitVec 4) (w1 : BitVec 32)

def f3dex2Count (w0 : BitVec 32) : BitVec 32 := (w0.extractLsb' 12 8).setWidth 32

def f3dex2End (w0 : BitVec 32) : BitVec 32 := (w0.extractLsb' 1 7).setWidth 32

def f3ddkrCount (w0 : BitVec 32) : BitVec 32 := (w0.extractLsb' 19 5).setWidth 32 + 1#32

def f3djfgCount (w0 : BitVec 32) : BitVec 32 := (w0.extractLsb' 19 5).setWidth 32

namespace VertexState

variable (s : VertexState)

def memory : VertexMemory := ⟨s.size, s.segments, s.dmaVtx.setWidth 32⟩

/-- `gSP.vertexi` after the test of `F3DDKR_VTX_APPEND`. -/
def appendStart (w0 : BitVec 32) : BitVec 32 :=
  if w0.getLsbD 16 then if s.billboard then 1#32 else s.vertexi else 0#32

/-- The `v0` that `F3DDKR_DMA_Vtx` and `F3DJFG_DMA_Vtx` pass. -/
def dmaStart (w0 : BitVec 32) : BitVec 32 :=
  s.appendStart w0 + (w0.extractLsb' 9 5).setWidth 32

def step : VertexCommand → VertexState
  | .f3dex2Vtx _ _ => s
  | .f3ddkrDmaVtx w0 _ => { s with vertexi := s.appendStart w0 + f3ddkrCount w0 }
  | .f3djfgDmaVtx w0 _ => { s with vertexi := s.appendStart w0 + f3djfgCount w0 }
  | .f3ddkrDmaTri _ _ => { s with vertexi := 0 }
  | .f3ddkrDmaOffsets _ w1 => { s with dmaVtx := w1.extractLsb' 0 24 }
  | .billboard w1 => { s with billboard := w1.getLsbD 0 }
  | .segment seg w1 => { s with segments := Function.update s.segments seg (w1 &&& 0xffffff#32) }

end VertexState

/-- The load a command makes; the other commands make none. -/
def VertexCommand.load (opt : VecOpt) (s : VertexState) : VertexCommand → ℕ → Option VertexLoad
  | f3dex2Vtx w0 w1 =>
    gSPVertex s.memory opt w1 (f3dex2Count w0) (f3dex2End w0 - f3dex2Count w0)
  | f3ddkrDmaVtx w0 w1 => gSPDMAVertex s.memory opt w1 (f3ddkrCount w0) (s.dmaStart w0)
  | f3djfgDmaVtx w0 w1 => gSPDMAVertex s.memory opt w1 (f3djfgCount w0) (s.dmaStart w0)
  | _ => fun _ => some .rejected

-- ════════════════════
-- What a load touches
-- ════════════════════

/-- `VERTBUFF_SIZE`. -/
def vertbuffSize : ℕ := 256

/-- The bytes of a structure in an array at an address. -/
def structRecord (recordSize : ℕ) (address : BitVec 32) (record : ℕ) : List ℕ :=
  (List.range recordSize).map fun k => address.toNat + recordSize * record + k

/-- The bytes `gSPLoadDMAVertexData` reads: three halves of two bytes, and four bytes. -/
def dmaRecord (address : BitVec 32) (record : ℕ) : List ℕ :=
  let a := address + BitVec.ofNat 32 (10 * record)
  ([a, a + 2#32, a + 4#32].flatMap fun h => [(h ^^^ 2#32).toNat, (h ^^^ 2#32).toNat + 1]) ++
    [a + 6#32, a + 7#32, a + 8#32, a + 9#32].map fun b => (b ^^^ 3#32).toNat

/-- The entries lie in the vertex buffer and the records in RDRAM, the bytes `0 .. RDRAMSize`. -/
def VertexLoad.Safe (size : RdramSize) (record : BitVec 32 → ℕ → List ℕ) : VertexLoad → Prop
  | rejected => True
  | loaded address batches => ∀ p ∈ batches.flatMap VertexBatch.fills,
      p.1 < vertbuffSize ∧ ∀ byte ∈ record address p.2, byte ≤ size.last.toNat

def VertexCommand.record : VertexCommand → BitVec 32 → ℕ → List ℕ
  | f3dex2Vtx _ _ => structRecord 16
  | _ => dmaRecord

/-- The command ends, and its load touches only what it should. -/
def VertexCommand.Safe (opt : VecOpt) (s : VertexState) (command : VertexCommand) : Prop :=
  ∃ fuel load, command.load opt s fuel = some load ∧ load.Safe s.size command.record

/-- Where the end wraps, there is no whole batch, or the end of the whole batches wraps too. -/
def WrapFits (opt : VecOpt) (n v0 : BitVec 32) : Prop :=
  v0.toNat + n.toNat < 2 ^ 32 ∨ n.toNat < opt.width ∨
    2 ^ 32 ≤ v0.toNat + (n.toNat - n.toNat % opt.width)

/-- The commands whose entries lie in the buffer: F3DEX2 has an end that is not below the
    remainder of its count, and what F3DDKR and F3DJFG append does not wrap within a batch. -/
def VertexCommand.Fits (opt : VecOpt) (s : VertexState) : VertexCommand → Prop
  | f3dex2Vtx w0 w1 =>
    (f3dex2Count w0).toNat < opt.width ∨
      (f3dex2Count w0).toNat % opt.width ≤ (f3dex2End w0).toNat ∨
      OutsideRdram s.memory 16 w1 (f3dex2Count w0)
  | f3ddkrDmaVtx w0 w1 =>
    WrapFits opt (f3ddkrCount w0) (s.dmaStart w0) ∨ OutsideDma s.memory w1 (f3ddkrCount w0)
  | f3djfgDmaVtx w0 w1 =>
    WrapFits opt (f3djfgCount w0) (s.dmaStart w0) ∨ OutsideDma s.memory w1 (f3djfgCount w0)
  | _ => True

-- ════════════════════
-- The append counter
-- ════════════════════

/-- Every value of `gSP.vertexi` is reached, by appending one vertex at a time. -/
theorem vertexi_reachable (s : VertexState) (hbillboard : s.billboard = false) (x : BitVec 32) :
    ∃ commands, (Runs.runFrom VertexState.step s commands).vertexi = x := by
  have happend : ∀ k : ℕ, ∃ commands,
      (Runs.runFrom VertexState.step s commands).vertexi = BitVec.ofNat 32 k ∧
        (Runs.runFrom VertexState.step s commands).billboard = false := by
    intro k
    induction k with
    | zero => exact ⟨[.f3ddkrDmaTri 0 0], rfl, hbillboard⟩
    | succ k ih =>
      obtain ⟨commands, hvertexi, hboard⟩ := ih
      refine ⟨commands ++ [.f3djfgDmaVtx 0x90000#32 0], ?_, ?_⟩
      · rw [Runs.runFrom_append, BitVec.ofNat_add, ← hvertexi]
        change VertexState.appendStart _ _ + _ = _
        rw [VertexState.appendStart, hboard]
        rfl
      · rw [Runs.runFrom_append]
        exact hboard
  obtain ⟨commands, hvertexi, -⟩ := happend x.toNat
  exact ⟨commands, by rw [hvertexi, BitVec.ofNat_toNat, BitVec.setWidth_eq]⟩

-- ════════════════════
-- Entries
-- ════════════════════

/-- A load that the check of the buffer rejects does not wrap within a batch. -/
theorem wrapFits_of_outside {n v0 : BitVec 32} (h : OutsideBuffer n v0) (opt : VecOpt) :
    WrapFits opt n v0 := by
  have hsum : 80 < (n.toNat + v0.toNat) % 2 ^ 32 := by
    simpa [OutsideBuffer, indexmapSize, BitVec.lt_def] using h
  have hn := n.isLt
  have hmod : n.toNat % opt.width < 4 := by
    cases opt <;> simp only [VecOpt.width] <;> omega
  unfold WrapFits
  omega

theorem loaded_safe_iff {opt : VecOpt} {n v0 address : BitVec 32} {size : RdramSize}
    {record : BitVec 32 → ℕ → List ℕ} (hbuffer : ¬OutsideBuffer n v0)
    (hrecords : ∀ r < n.toNat, ∀ byte ∈ record address r, byte ≤ size.last.toNat) :
    (VertexLoad.loaded address (loadedBatches opt v0.toNat n.toNat)).Safe size record
      ↔ WrapFits opt n v0 := by
  have hdiv := Nat.div_add_mod n.toNat opt.width
  by_cases hfit : v0.toNat + n.toNat < 2 ^ 32
  · refine iff_of_true (fun p hp => ?_) (Or.inl hfit)
    have hsum : v0.toNat + n.toNat ≤ 80 := by
      have hle : (n.toNat + v0.toNat) % 2 ^ 32 ≤ 80 := by
        simpa [OutsideBuffer, indexmapSize, BitVec.lt_def] using hbuffer
      omega
    rw [loadedBatches_fills opt _ _ hfit, consecutive, List.mem_map] at hp
    obtain ⟨r, hr, rfl⟩ := hp
    have hr' := List.mem_range.1 hr
    exact ⟨show v0.toNat + r < 256 by omega, hrecords r hr'⟩
  · have hend : n.toNat - n.toNat % opt.width = opt.width * (n.toNat / opt.width) := by omega
    unfold WrapFits loadedBatches
    rw [if_neg hfit, hend]
    by_cases hin : v0.toNat + opt.width * (n.toNat / opt.width) < 2 ^ 32
    · rw [if_pos hin]
      by_cases hsmall : n.toNat < opt.width
      · -- no batch
        refine iff_of_true (fun p hp => ?_) (Or.inr (Or.inl hsmall))
        rw [Nat.div_eq_of_lt hsmall] at hp
        exact absurd hp List.not_mem_nil
      · -- the last entry of the last batch is too high
        have hmod := Nat.mod_lt n.toNat opt.width_pos
        have hwidth : opt.width ≤ 4 := by cases opt <;> decide
        refine iff_of_false (fun hall => ?_) (by omega)
        have hlast := hall (v0.toNat + (opt.width * (n.toNat / opt.width) - 1),
          0 + (opt.width * (n.toNat / opt.width) - 1)) (by
            rw [batchRun_fills hin.le]
            exact List.mem_map.2 ⟨_, List.mem_range.2 (by omega), rfl⟩)
        have hlt : v0.toNat + (opt.width * (n.toNat / opt.width) - 1) < 256 := hlast.1
        omega
    · rw [if_neg hin]
      refine iff_of_true (fun p hp => absurd hp List.not_mem_nil) (Or.inr (Or.inr ?_))
      omega

/-- A function with checks, whatever the second of them is. -/
theorem guarded_safe_iff {outside : Prop} [Decidable outside] {opt : VecOpt}
    {n v0 address : BitVec 32} {size : RdramSize} {record : BitVec 32 → ℕ → List ℕ}
    (hrecords : ¬outside → ∀ r < n.toNat, ∀ byte ∈ record address r, byte ≤ size.last.toNat) :
    (∃ fuel load, (if OutsideBuffer n v0 then some .rejected
        else if outside then some .rejected
        else (loadVertices opt v0.toNat n.toNat fuel).map (VertexLoad.loaded address)) = some load ∧
      load.Safe size record) ↔ WrapFits opt n v0 ∨ outside := by
  by_cases hbuffer : OutsideBuffer n v0
  · simp only [hbuffer, if_true]
    exact iff_of_true ⟨0, _, rfl, trivial⟩ (Or.inl (wrapFits_of_outside hbuffer opt))
  by_cases hout : outside
  · simp only [hbuffer, hout, if_false, if_true]
    exact iff_of_true ⟨0, _, rfl, trivial⟩ (Or.inr trivial)
  simp only [hbuffer, hout, if_false, or_false]
  rw [((loadVertices_ends opt v0.isLt n.isLt).map (VertexLoad.loaded address)).exists_iff
    (VertexLoad.Safe size record)]
  exact loaded_safe_iff hbuffer (hrecords hout)

-- ════════════════════
-- Records
-- ════════════════════

theorem structRecord_le {mem : VertexMemory} {recordSize : ℕ} {a n : BitVec 32}
    (h : ¬OutsideRdram mem recordSize a n) :
    ∀ r < n.toNat, ∀ byte ∈ structRecord recordSize (mem.physical a) r,
      byte ≤ mem.size.last.toNat := by
  intro r hr byte hbyte
  obtain ⟨k, hk, rfl⟩ := List.mem_map.1 hbyte
  have hk' := List.mem_range.1 hk
  have hmul := Nat.mul_le_mul_left recordSize (Nat.succ_le_of_lt hr)
  rw [Nat.mul_succ] at hmul
  unfold OutsideRdram at h
  omega

/-- An exclusive or with less than 4 stays in the word. -/
theorem xor_toNat_div (x y : BitVec 32) (hy : y.toNat < 4) :
    (x ^^^ y).toNat / 4 = x.toNat / 4 := by
  have hshift : y.toNat >>> 2 = 0 := by
    rw [Nat.shiftRight_eq_div_pow]
    exact Nat.div_eq_of_lt hy
  have hxor := Nat.shiftRight_xor_distrib (i := 2) (a := x.toNat) (b := y.toNat)
  rw [hshift, Nat.xor_zero, Nat.shiftRight_eq_div_pow, Nat.shiftRight_eq_div_pow] at hxor
  rw [BitVec.toNat_xor]
  exact hxor

theorem dmaRecord_le {size : RdramSize} (hwords : size.last.toNat % 4 = 3) {address : BitVec 32}
    {r : ℕ} (h : address.toNat + 10 * (r + 1) ≤ size.last.toNat) :
    ∀ byte ∈ dmaRecord address r, byte ≤ size.last.toNat := by
  have hlast := size.last_lt
  have hoff : ∀ k < 10, (address + BitVec.ofNat 32 (10 * r) + BitVec.ofNat 32 k).toNat
      = address.toNat + 10 * r + k := by
    intro k hk
    rw [BitVec.toNat_add, BitVec.toNat_add, BitVec.toNat_ofNat, BitVec.toNat_ofNat]
    omega
  -- a half or a byte, swapped within its word
  have hhalf : ∀ k ≤ 4, ((address + BitVec.ofNat 32 (10 * r) + BitVec.ofNat 32 k) ^^^ 2#32).toNat
      + 1 ≤ size.last.toNat := by
    intro k hk
    have hword := xor_toNat_div (address + BitVec.ofNat 32 (10 * r) + BitVec.ofNat 32 k) 2#32
      (by decide)
    rw [hoff k (by omega)] at hword
    omega
  have hone : ∀ k < 10, ((address + BitVec.ofNat 32 (10 * r) + BitVec.ofNat 32 k) ^^^ 3#32).toNat
      ≤ size.last.toNat := by
    intro k hk
    have hword := xor_toNat_div (address + BitVec.ofNat 32 (10 * r) + BitVec.ofNat 32 k) 3#32
      (by decide)
    rw [hoff k hk] at hword
    omega
  have hzero := hhalf 0 (by decide)
  have htwo := hhalf 2 (by decide)
  have hfour := hhalf 4 (by decide)
  rw [BitVec.add_zero] at hzero
  intro byte hbyte
  simp only [dmaRecord, List.flatMap_cons, List.flatMap_nil, List.append_nil, List.cons_append,
    List.nil_append, List.map_cons, List.map_nil, List.mem_cons, List.not_mem_nil, or_false]
    at hbyte
  rcases hbyte with rfl | rfl | rfl | rfl | rfl | rfl | rfl | rfl | rfl | rfl
  · exact (Nat.le_succ _).trans hzero
  · exact hzero
  · exact (Nat.le_succ _).trans htwo
  · exact htwo
  · exact (Nat.le_succ _).trans hfour
  · exact hfour
  · exact hone 6 (by decide)
  · exact hone 7 (by decide)
  · exact hone 8 (by decide)
  · exact hone 9 (by decide)

theorem dmaVertex_records {s : VertexState} {a n : BitVec 32} (hn : n.toNat ≤ 32)
    (h : ¬OutsideDma s.memory a n) :
    ∀ r < n.toNat, ∀ byte ∈ dmaRecord (s.memory.dmaAddress a) r, byte ≤ s.size.last.toNat := by
  intro r hr
  refine dmaRecord_le s.words ?_
  have hlast := s.size.last_lt
  have hphysical : (s.memory.physical a).toNat ≤ s.size.last.toNat := by
    rw [VertexMemory.physical, BitVec.toNat_and]
    exact Nat.and_le_right
  have hdma : (s.memory.dmaVtx).toNat < 2 ^ 24 := by
    change (s.dmaVtx.setWidth 32).toNat < _
    rw [BitVec.toNat_setWidth_of_le (by decide)]
    exact s.dmaVtx.isLt
  unfold OutsideDma at h
  rw [BitVec.not_lt, BitVec.le_def, BitVec.toNat_add, BitVec.toNat_mul] at h
  unfold VertexMemory.dmaAddress at h ⊢
  rw [BitVec.toNat_add] at h ⊢
  simp only [BitVec.toNat_ofNat] at h
  change _ ≤ s.size.last.toNat at h
  omega

-- ════════════════════
-- Runs
-- ════════════════════

theorem f3ddkrCount_le (w0 : BitVec 32) : (f3ddkrCount w0).toNat ≤ 32 := by
  have hfield := (w0.extractLsb' 19 5).isLt
  rw [f3ddkrCount, BitVec.toNat_add, BitVec.toNat_setWidth_of_le (by decide)]
  simp only [BitVec.toNat_ofNat]
  omega

theorem f3djfgCount_le (w0 : BitVec 32) : (f3djfgCount w0).toNat ≤ 32 := by
  have hfield := (w0.extractLsb' 19 5).isLt
  rw [f3djfgCount, BitVec.toNat_setWidth_of_le (by decide)]
  omega

/-- The start wraps where the count exceeds the end, and their sum is the end. -/
theorem f3dex2_wrapFits_iff (opt : VecOpt) (w0 : BitVec 32) :
    WrapFits opt (f3dex2Count w0) (f3dex2End w0 - f3dex2Count w0) ↔
      (f3dex2Count w0).toNat < opt.width ∨
        (f3dex2Count w0).toNat % opt.width ≤ (f3dex2End w0).toNat := by
  have hcount : (f3dex2Count w0).toNat < 256 := by
    rw [f3dex2Count, BitVec.toNat_setWidth_of_le (by decide)]
    exact (w0.extractLsb' 12 8).isLt
  have hend : (f3dex2End w0).toNat < 128 := by
    rw [f3dex2End, BitVec.toNat_setWidth_of_le (by decide)]
    exact (w0.extractLsb' 1 7).isLt
  have hle := Nat.mod_le (f3dex2Count w0).toNat opt.width
  unfold WrapFits
  rw [BitVec.toNat_sub]
  omega

theorem vertexCommand_safe_iff (opt : VecOpt) (s : VertexState) (command : VertexCommand) :
    command.Safe opt s ↔ command.Fits opt s := by
  cases command with
  | f3dex2Vtx w0 w1 =>
    refine (guarded_safe_iff structRecord_le).trans ?_
    rw [f3dex2_wrapFits_iff, or_assoc]
    exact Iff.rfl
  | f3ddkrDmaVtx w0 w1 => exact guarded_safe_iff (dmaVertex_records (f3ddkrCount_le w0))
  | f3djfgDmaVtx w0 w1 => exact guarded_safe_iff (dmaVertex_records (f3djfgCount_le w0))
  | _ => exact iff_of_true ⟨0, _, rfl, trivial⟩ trivial

/-- Every command of a sequence keeps to the vertex buffer and to RDRAM exactly where no start
    wraps and leaves whole batches below the wrap. -/
theorem vertexCommands_safe_iff (opt : VecOpt) (s : VertexState) (commands : List VertexCommand) :
    Runs.Along VertexState.step (fun s command => command.Safe opt s) s commands ↔
      Runs.Along VertexState.step (fun s command => command.Fits opt s) s commands :=
  Runs.along_congr (vertexCommand_safe_iff opt) s commands

/-- Five vertices that end at the entry 0: a batch of four is filled below it. -/
theorem not_vertexCommands_safe :
    ¬∀ (opt : VecOpt) (s : VertexState) (commands : List VertexCommand),
      Runs.Along VertexState.step (fun s command => command.Safe opt s) s commands := by
  intro h
  have hsafe := (h .four ⟨⟨0x3fffff#32, by decide⟩, by decide, fun _ => 0, 0, 0, false⟩
    [.f3dex2Vtx 0x5000#32 0]).1
  have hfits := (vertexCommand_safe_iff _ _ _).1 hsafe
  revert hfits
  change ¬((_ : Prop) ∨ _ ∨ _)
  decide

end Mupen64plus
