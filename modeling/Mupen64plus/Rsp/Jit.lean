import Mupen64plus.Device.Memory

/-!
# Blocks of the RSP recompiler

`rsp_jit.cpp` keeps the code it has compiled under three tables: a block for each word of IMEM, all
blocks by word and hash, and a copy of the IMEM that the first table belongs to. Here a block is the
words it was compiled from.

## Main definitions

- `analyzeStaticEnd` — where a block ends
- `hashImem` — the hash of a block
- `JitCpu`, with `invalidateImem`, `invalidateCode`, `getJitBlock` and `rspDmaRead`
- `JitStep`, `JitCpu.step` — what goes on in a run of the processor and between two runs
-/

namespace Mupen64plus

-- ════════════════════════════════════════════════════════════════════════
-- The end of a block
-- ════════════════════════════════════════════════════════════════════════

/-- What the scan does after an instruction: it goes on, or has found the end. -/
inductive JitScan where
  | next (maxStaticPc : ℕ)
  | done (maxStaticPc : ℕ)
  deriving DecidableEq, Repr

/-- A turn of the loop of `analyze_static_end`, for the instruction at `place`. -/
def scanInstr (instr : BitVec 32) (pc limit place maxStaticPc : ℕ) : JitScan :=
  let forwardGoto := decide (place + 1 < maxStaticPc)
  let maxStaticPc := if forwardGoto then maxStaticPc else place + 1
  let branch := ((BitVec.ofNat 32 place + 1 + instr) &&& 0x3ff).toNat
  let jump := (instr &&& 0x3ff).toNat
  let extended (target : ℕ) : ℕ :=
    if pc ≤ target ∧ target < limit then max maxStaticPc (target + 1) else maxStaticPc
  if instr >>> 25 = 0x25 then .next maxStaticPc
  else match (instr >>> 26).toNat with
    | 0o0 => match (instr &&& 63).toNat with
      | 0o10 | 0o11 =>
        if forwardGoto then .next maxStaticPc else .done (max (place + 2) maxStaticPc)
      | 0o15 => if forwardGoto then .next maxStaticPc else .done maxStaticPc
      | _ => .next maxStaticPc
    | 0o1 => match ((instr >>> 16) &&& 31).toNat with
      | 0o0 | 0o1 | 0o21 | 0o20 => .next (extended branch)
      | _ => .next maxStaticPc
    | 0o2 | 0o3 =>
      if forwardGoto then .next (extended jump) else .done (max (place + 2) maxStaticPc)
    | 0o4 | 0o5 | 0o6 | 0o7 => .next (extended branch)
    | _ => .next maxStaticPc

/-- The loop, with the number of instructions that are left. -/
def scanLoop (imem : Words) (pc limit : ℕ) : ℕ → ℕ → ℕ → ℕ
  | 0, _, maxStaticPc => maxStaticPc
  | n + 1, place, maxStaticPc =>
    match scanInstr (imem place) pc limit place maxStaticPc with
    | .next maxStaticPc => scanLoop imem pc limit n (place + 1) maxStaticPc
    | .done maxStaticPc => maxStaticPc

/-- `analyze_static_end`. -/
def analyzeStaticEnd (imem : Words) (pc limit : ℕ) : ℕ :=
  min (scanLoop imem pc limit (limit - pc) pc pc) limit

-- ════════════════════════════════════════════════════════════════════════
-- The tables
-- ════════════════════════════════════════════════════════════════════════

/-- The words of IMEM from `pc` on. -/
def imemWords (imem : Words) (pc count : ℕ) : List (BitVec 32) :=
  (List.range count).map fun i => imem (pc + i)

def fnvStep (h data : BitVec 64) : BitVec 64 := (h * 0x100000001b3) ^^^ data

/-- `hash_imem`, of the words from `pc` on. -/
def hashImem (pc : ℕ) (words : List (BitVec 32)) : BitVec 64 :=
  let h := fnvStep 0xcbf29ce484222325 (BitVec.ofNat 64 pc)
  let h := fnvStep h (BitVec.ofNat 64 words.length)
  words.foldl (fun h data => fnvStep h (data.zeroExtend 64)) h

/-- A block: where it starts, and the words that `jit_region` compiled. -/
structure JitBlock where
  pc : ℕ
  words : List (BitVec 32)
  deriving DecidableEq, Repr

/-- Where the thread that runs the processor is. -/
inductive JitPhase where
  /-- between two calls of `CPU::run`; `invalidate_imem` has looked at IMEM as it is -/
  | between (checked : Bool)
  | running
  deriving DecidableEq, Repr

structure JitCpu where
  imem : Words
  dmem : Words
  rdram : Words
  dmaCache : BitVec 32
  dmaDram : BitVec 32
  dmaReadLength : BitVec 32
  dirtyBlocks : BitVec 32
  blocks : ℕ → Option JitBlock
  cachedImem : Words
  cachedBlocks : ℕ → BitVec 64 → Option JitBlock
  phase : JitPhase

/-- The marks of a code block: its own, and that of the block before. -/
def blockMarks (block : ℕ) : BitVec 32 := (0x3#32 <<< block) >>> 1

namespace JitCpu

/-- `memcmp` of a code block. -/
def blockDiffers (s : JitCpu) (block : ℕ) : Bool :=
  (List.range 64).any fun i => s.cachedImem (64 * block + i) != s.imem (64 * block + i)

/-- `CPU::invalidate_imem`. -/
def invalidateImem (s : JitCpu) : JitCpu :=
  let mark (dirty : BitVec 32) (i : ℕ) : BitVec 32 :=
    if s.blockDiffers i then dirty ||| blockMarks i else dirty
  { s with dirtyBlocks := (List.range 16).foldl mark s.dirtyBlocks }

/-- `CPU::invalidate_code`. -/
def invalidateCode (s : JitCpu) : JitCpu :=
  { s with
    blocks := fun pc => if s.dirtyBlocks.getLsbD (pc / 64) then none else s.blocks pc
    cachedImem := fun i => if s.dirtyBlocks.getLsbD (i / 64) then s.imem i else s.cachedImem i
    dirtyBlocks := 0 }

/-- The words `get_jit_block` takes for a block at a word. -/
def blockWords (s : JitCpu) (wordPc : ℕ) : List (BitVec 32) :=
  let limit := min ((wordPc / 64 + 2) * 64) 1024
  imemWords s.imem wordPc (analyzeStaticEnd s.imem wordPc limit - wordPc)

/-- The word of `get_jit_block`. -/
def wordPc (pc : BitVec 32) : ℕ := ((pc &&& 0xfff) >>> 2).toNat

/-- `CPU::get_jit_block`. -/
def getJitBlock (s : JitCpu) (pc : BitVec 32) : JitBlock × JitCpu :=
  let wordPc := wordPc pc
  match s.blocks wordPc with
  | some block => (block, s)
  | none =>
    let words := s.blockWords wordPc
    let hash := hashImem wordPc words
    match s.cachedBlocks wordPc hash with
    | some block => (block, { s with blocks := Function.update s.blocks wordPc (some block) })
    | none =>
      let block : JitBlock := ⟨wordPc, words⟩
      (block, { s with
        blocks := Function.update s.blocks wordPc (some block)
        cachedBlocks := Function.update s.cachedBlocks wordPc
          (Function.update (s.cachedBlocks wordPc) hash (some block)) })

/-- A word of `rsp_dma_read`. -/
def dmaReadWord (source dest : BitVec 32) (s : JitCpu) (j : ℕ) : JitCpu :=
  let sourceAddr := (source + BitVec.ofNat 32 j) &&& 0x7ffffc
  let destAddr := (dest + BitVec.ofNat 32 j) &&& 0x1ffc
  let word := s.rdram (sourceAddr >>> 2).toNat
  if destAddr &&& 0x1000 ≠ 0 then
    let block := ((destAddr &&& 0xfff) / 256).toNat
    { s with
      dirtyBlocks := s.dirtyBlocks ||| blockMarks block
      imem := Function.update s.imem ((destAddr &&& 0xfff) >>> 2).toNat word }
  else { s with dmem := Function.update s.dmem (destAddr >>> 2).toNat word }

/-- The rows of `rsp_dma_read`, each of `length` bytes, a multiple of four. -/
def dmaReadRows (length skip : BitVec 32) : ℕ → BitVec 32 → BitVec 32 → JitCpu → JitCpu
  | 0, source, dest, s => { s with dmaDram := source, dmaCache := dest, dmaReadLength := 0xff8 }
  | count + 1, source, dest, s =>
    dmaReadRows length skip count (source + (length + skip)) (dest + length)
      ((List.range (length.toNat / 4)).foldl (fun s i => dmaReadWord source dest s (4 * i)) s)

/-- `rsp_dma_read`. -/
def rspDmaRead (s : JitCpu) : JitCpu :=
  let length := (s.dmaReadLength &&& 0xfff) + 1
  let skip := (s.dmaReadLength >>> 20) &&& 0xfff
  let count := (s.dmaReadLength >>> 12) &&& 0xff
  let length := (length + 7) &&& ~~~7
  let cache := s.dmaCache &&& ~~~3
  let dram := s.dmaDram &&& ~~~7
  let length := if (cache &&& 0xfff) + length > 0x1000 then 0x1000 - (cache &&& 0xfff) else length
  dmaReadRows length skip (count.toNat + 1) dram cache s

end JitCpu

inductive JitStep where
  /-- the host writes IMEM -/
  | host (imem : Words)
  | invalidateImem
  /-- `CPU::run` begins -/
  | run
  /-- `rsp_enter` -/
  | lookup (pc : BitVec 32)
  /-- `MTC0` to the length of a read -/
  | dmaRead (length : BitVec 32)
  /-- anything else that a program does -/
  | other (dmem rdram : Words) (dmaCache dmaDram : BitVec 32)
  /-- `CPU::run` returns -/
  | stop

namespace JitCpu

/-- A step that is not possible in a phase does nothing: the processor is not run before IMEM has
    been looked at, and the host waits for the end of a run. A transfer that has marked a block
    returns `MODE_CHECK_FLAGS`, which ends the run. -/
def step (s : JitCpu) : JitStep → JitCpu
  | .host imem => match s.phase with
    | .between _ => { s with imem := imem, phase := .between false }
    | .running => s
  | .invalidateImem => match s.phase with
    | .between _ => { s.invalidateImem with phase := .between true }
    | .running => s
  | .run => match s.phase with
    | .between true => { s.invalidateCode with phase := .running }
    | _ => s
  | .lookup pc => match s.phase with
    | .between _ => s
    | .running => (s.getJitBlock pc).2
  | .dmaRead length => match s.phase with
    | .between _ => s
    | .running =>
      let s := { s with dmaReadLength := length }.rspDmaRead
      if s.dirtyBlocks ≠ 0 then { s with phase := .between true } else s
  | .other dmem rdram dmaCache dmaDram =>
    { s with dmem := dmem, rdram := rdram, dmaCache := dmaCache, dmaDram := dmaDram }
  | .stop => match s.phase with
    | .between _ => s
    | .running => { s with phase := .between true }

/-- A recompiler that has not run anything. -/
def fresh (imem : Words) : JitCpu where
  imem := imem
  dmem := fun _ => 0
  rdram := fun _ => 0
  dmaCache := 0
  dmaDram := 0
  dmaReadLength := 0
  dirtyBlocks := 0
  blocks := fun _ => none
  cachedImem := fun _ => 0
  cachedBlocks := fun _ _ => none
  phase := .between false

end JitCpu

end Mupen64plus
