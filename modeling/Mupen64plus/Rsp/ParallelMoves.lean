import Mupen64plus.Rsp.VectorMemory

/-!
# Vector loads and stores of the recompiler

The routines of `ls.cpp` that compiled code calls for `LWC2` and `SWC2`, on the same host bytes as
the interpreter. A pass of a loop is a move of one byte or one lane, and what a routine touches is
read off its moves.

Indices are unsigned words, so an element beyond the offset wraps them around. Not every address is
masked again after it moved on.

## Main definitions

- `Transfer` — moves of a loop, with what they touch
- `rspLbv` to `rspStv`, `rspLwv`, `rspLfv`, `rspSwv` — the routines
-/

namespace Mupen64plus

open Assignments RspVectors

/-- The moves of a loop. Bytes are places on the host, of a register or of DMEM; a lane is a
    half-word of a register. -/
inductive Transfer where
  /-- `writeByteToHalfWords(reg, i, READ_MEM_U8(dmem, a))`: register and DMEM byte. -/
  | loadBytes (vt : Fin 32) (l : Moves)
  /-- `reg[i] = READ_MEM_U8(dmem, a) << shift`: lane and DMEM byte. -/
  | loadLanes (vt : Fin 32) (shift : ℕ) (l : Moves)
  /-- Register bytes, from half-words that were read from eight bytes of DMEM. -/
  | loadTemp (vt : Fin 32) (shift : ℕ) (temp : List ℕ) (l : List ℕ)
  /-- `WRITE_MEM_U8(dmem, a, byteFromHalfWords(reg, i))`: DMEM and register byte. -/
  | storeBytes (vt : Fin 32) (l : Moves)
  /-- `WRITE_MEM_U8(dmem, a, int16_t(reg[i]) >> shift)`: DMEM byte, lane and shift. -/
  | storeLanes (vt : Fin 32) (l : List (ℕ × ℕ × ℕ))
  /-- `WRITE_MEM_U8(dmem, a, x << 1 | y >> 7)`: DMEM byte and the two register bytes. -/
  | storePairs (vt : Fin 32) (l : List (ℕ × ℕ × ℕ))
  /-- `WRITE_MEM_U8(dmem, a, 0)`. -/
  | storeZeros (l : List ℕ)

namespace Transfer

/-- The state after the moves. -/
def run (s : RspVectors) : Transfer → RspVectors
  | .loadBytes vt l => s.moveIn vt l
  | .loadLanes vt shift l => s.lanesIn vt shift l
  | .loadTemp vt shift temp l =>
    let lane (j : ℕ) : BitVec 16 := (s.dmem (temp.getD (j / 2) 0)).setWidth 16 <<< shift
    let bytes := l.map fun j => (j, (lane j).extractLsb' (8 * (j % 2)) 8)
    { s with vr := Function.update s.vr vt (assign (s.vr vt) bytes) }
  | .storeBytes vt l => s.moveOut vt l
  | .storeLanes vt l =>
    { s with dmem := assign s.dmem (l.map fun p =>
        (p.1, ((s.lane vt p.2.1).sshiftRight p.2.2).setWidth 8)) }
  | .storePairs vt l =>
    { s with dmem := assign s.dmem (l.map fun p =>
        (p.1, (s.vr vt p.2.1 <<< 1) ||| (s.vr vt p.2.2 >>> 7))) }
  | .storeZeros l => { s with dmem := assign s.dmem (l.map fun a => (a, 0)) }

/-- The bytes of DMEM that are read or written. -/
def dmemBytes : Transfer → List ℕ
  | .loadBytes _ l => l.map Prod.snd
  | .loadLanes _ _ l => l.map Prod.snd
  | .loadTemp _ _ temp _ => temp
  | .storeBytes _ l => l.map Prod.fst
  | .storeLanes _ l => l.map Prod.fst
  | .storePairs _ l => l.map Prod.fst
  | .storeZeros l => l

/-- The bytes of a register that are read or written. -/
def registerBytes : Transfer → List ℕ
  | .loadBytes _ l => l.map Prod.fst
  | .loadLanes _ _ l => l.flatMap fun p => [2 * p.1, 2 * p.1 + 1]
  | .loadTemp _ _ _ l => l
  | .storeBytes _ l => l.map Prod.snd
  | .storeLanes _ l => l.flatMap fun p => [2 * p.2.1, 2 * p.2.1 + 1]
  | .storePairs _ l => l.flatMap fun p => [p.2.1, p.2.2]
  | .storeZeros _ => []

/-- All that is touched lies in DMEM and in the registers. -/
def InBounds (t : Transfer) : Prop :=
  (∀ a ∈ t.dmemBytes, a < 4096) ∧ ∀ j ∈ t.registerBytes, j < 16

end Transfer

/-- What a routine does. -/
abbrev Transfers := List Transfer

/-- A routine: its register, element, offset and base. -/
abbrev RspRoutine := RspVectors → Fin 32 → Fin 16 → BitVec 7 → Fin 32 → Transfers

namespace RspVectors

/-- `sr[base] + offset * scale`. -/
def wideAddress (s : RspVectors) (scale : BitVec 32) (offset : BitVec 7) (base : Fin 32) :
    BitVec 32 := s.sr base + scale * offset.signExtend 32

end RspVectors

/-- `READ_MEM_U8(rsp->dmem, addr & 0xfff)`: the byte of DMEM. -/
def maskedByte (addr : BitVec 32) : ℕ := bes (addr &&& 0xfff#32).toNat

/-- `(b - e + i) & 0xf` on unsigned words. -/
def wrapIndex (b e i : ℕ) : ℕ :=
  ((BitVec.ofNat 32 b - BitVec.ofNat 32 e + BitVec.ofNat 32 i) &&& 0xf#32).toNat

-- ════════════════════════════════════════════════════════════════════════
-- Bytes in order
-- ════════════════════════════════════════════════════════════════════════

/-- `for (i = start; i < end; i++)`, a byte of DMEM to element `i & 0xf` in each pass. -/
def loadPasses (start stop : ℕ) (addr : BitVec 32) : Moves :=
  (List.range (stop - start)).map fun k =>
    (mes ((start + k) % 16), maskedByte (addr + BitVec.ofNat 32 k))

/-- `for (i = e; i < e + n; i++)`, element `i & 0xf` to `addr++` in each pass. -/
def storePasses (n e addr : ℕ) : Moves :=
  (List.range n).map fun k => (bes (addr + k), mes ((e + k) % 16))

def rspLbv : RspRoutine := fun s rt e offset base =>
  [.loadBytes rt [(mes e.val, bes (s.address 1 offset base))]]

def rspSbv : RspRoutine := fun s rt e offset base =>
  [.storeBytes rt [(bes (s.address 1 offset base), mes e.val)]]

def rspLsv : RspRoutine := fun s rt e offset base =>
  let stop := if 14 < e.val then 16 else e.val + 2
  [.loadBytes rt (loadPasses e.val stop (s.wideAddress 2 offset base))]

def rspSsv : RspRoutine := fun s rt e offset base =>
  let addr := s.address 2 offset base
  [.storeBytes rt [(bes addr, mes e.val), (bes ((addr + 1) % 4096), mes ((e.val + 1) % 16))]]

def rspLlv : RspRoutine := fun s rt e offset base =>
  let stop := if 12 < e.val then 16 else e.val + 4
  [.loadBytes rt (loadPasses e.val stop (s.wideAddress 4 offset base))]

/-- The address is not masked again. -/
def rspSlv : RspRoutine := fun s rt e offset base =>
  [.storeBytes rt (storePasses 4 e.val (s.address 4 offset base))]

def rspLdv : RspRoutine := fun s rt e offset base =>
  let stop := if 8 < e.val then 16 else e.val + 8
  [.loadBytes rt (loadPasses e.val stop (s.wideAddress 8 offset base))]

/-- Half-words where both sides are aligned, bytes otherwise. -/
def rspSdv : RspRoutine := fun s rt e offset base =>
  let addr := s.address 8 offset base
  if 8 < e.val ∨ e.val % 2 = 1 ∨ addr % 2 = 1 then
    [.storeBytes rt ((List.range 8).map fun i =>
      (bes ((addr + i) % 4096), mes ((e.val + i) % 16)))]
  else
    [.storeBytes rt ((List.range 4).flatMap fun i =>
      half (2 * (hes ((addr + 2 * i) % 4096) / 2)) (2 * (e.val / 2 + i)))]

/-- The last pass is the one at the end of the quad-word, or at element 15. -/
def rspLqv : RspRoutine := fun s rt e offset base =>
  let addr := s.wideAddress 16 offset base
  let stop := 16 + e.val - (addr &&& 0xf#32).toNat
  [.loadBytes rt (loadPasses e.val (if 16 < stop then 16 else stop) addr)]

def rspSqv : RspRoutine := fun s rt e offset base =>
  let addr := s.address 16 offset base
  [.storeBytes rt (storePasses (16 - addr % 16) e.val addr)]

/-- Where the element is beyond the offset the first pass is beyond the last. -/
def rspLrv : RspRoutine := fun s rt e offset base =>
  let addr := s.wideAddress 16 offset base
  let start := 16 - ((addr &&& 0xf#32) - BitVec.ofNat 32 e.val)
  [.loadBytes rt (loadPasses start.toNat 16 (addr &&& ~~~0xf#32))]

def rspSrv : RspRoutine := fun s rt e offset base =>
  let addr := s.address 16 offset base
  [.storeBytes rt (storePasses (addr % 16) (e.val + (16 - addr % 16)) (addr - addr % 16))]

-- ════════════════════════════════════════════════════════════════════════
-- Lanes
-- ════════════════════════════════════════════════════════════════════════

/-- The moves of `LPV` and `LUV`. -/
def packedPasses (e addr : ℕ) : Moves :=
  (List.range 8).map fun i =>
    (i, bes ((addr - addr % 8 + wrapIndex (addr % 8) e i) % 4096))

def rspLpv : RspRoutine := fun s rt e offset base =>
  [.loadLanes rt 8 (packedPasses e.val (s.address 8 offset base))]

def rspLuv : RspRoutine := fun s rt e offset base =>
  [.loadLanes rt 7 (packedPasses e.val (s.address 8 offset base))]

/-- The moves of `SPV` and `SUV`; the shift is another from element 8 on. -/
def packedStores (e addr first second : ℕ) : List (ℕ × ℕ × ℕ) :=
  (List.range 8).map fun k =>
    (bes ((addr + k) % 4096), (e + k) % 8, if (e + k) % 16 < 8 then first else second)

def rspSpv : RspRoutine := fun s rt e offset base =>
  [.storeLanes rt (packedStores e.val (s.address 8 offset base) 8 7)]

def rspSuv : RspRoutine := fun s rt e offset base =>
  [.storeLanes rt (packedStores e.val (s.address 8 offset base) 7 8)]

def rspLhv : RspRoutine := fun s rt e offset base =>
  let addr := s.wideAddress 16 offset base
  [.loadLanes rt 7 ((List.range 8).map fun i =>
    (i, maskedByte ((addr &&& ~~~7#32) +
      BitVec.ofNat 32 (wrapIndex (addr &&& 7#32).toNat e.val (2 * i)))))]

/-- The address is not masked again. -/
def rspShv : RspRoutine := fun s rt e offset base =>
  let addr := s.address 16 offset base
  [.storePairs rt ((List.range 8).map fun i =>
    (bes (addr - addr % 8 + (addr % 8 + 2 * i) % 16),
      mes ((e.val + 2 * i) % 16), mes ((e.val + 2 * i + 1) % 16)))]

/-- The half-words of `temp`, and the bytes of them that are taken. -/
def rspLfv : RspRoutine := fun s rt e offset base =>
  let addr := s.wideAddress 16 offset base
  let stop := if 8 < e.val then 16 else e.val + 8
  let temp (i : ℕ) : ℕ := maskedByte ((addr &&& ~~~7#32) + BitVec.ofNat 32
    (wrapIndex (addr &&& 7#32).toNat e.val (if i < 4 then 4 * i else 4 * (i - 4) + 8)))
  [.loadTemp rt 7 ((List.range 8).map temp)
    ((List.range (stop - e.val)).map fun k => mes (e.val + k))]

/-- The lanes of `RSP_SFV_CASE`, by the element. -/
def sfvLanes (e : ℕ) : Option (List ℕ) :=
  match e with
  | 0 | 15 => some [0, 1, 2, 3]
  | 1 => some [6, 7, 4, 5]
  | 4 => some [1, 2, 3, 0]
  | 5 => some [7, 4, 5, 6]
  | 8 => some [4, 5, 6, 7]
  | 11 => some [3, 0, 1, 2]
  | 12 => some [5, 6, 7, 4]
  | _ => none

/-- The four bytes that `SFV` writes. -/
def sfvBytes (addr : ℕ) : List ℕ :=
  let quad := addr - addr % 8
  let base := addr % 8
  [bes (quad + base), bes (quad + 4 + base), bes (quad + (8 + base) % 16),
    bes (quad + (12 + base) % 16)]

/-- The address is not masked again. -/
def rspSfv : RspRoutine := fun s rt e offset base =>
  let bytes := sfvBytes (s.address 16 offset base)
  match sfvLanes e.val with
  | some lanes => [.storeLanes rt ((bytes.zip lanes).map fun p => (p.1, p.2, 7))]
  | none => [.storeZeros bytes]

-- ════════════════════════════════════════════════════════════════════════
-- Rotated and transposed vectors
-- ════════════════════════════════════════════════════════════════════════

/-- `i` runs from `16 - e` to `16 + e`, and the address by words. -/
def rspLwv : RspRoutine := fun s rt e offset base =>
  let addr := s.wideAddress 16 offset base
  [.loadBytes rt ((List.range (16 + e.val - (16 - e.val))).map fun k =>
    (mes ((16 - e.val + k) % 16), maskedByte (addr + BitVec.ofNat 32 (4 * k))))]

/-- The address is not masked again. -/
def rspSwv : RspRoutine := fun s rt e offset base =>
  let addr := s.address 16 offset base
  [.storeBytes rt ((List.range 16).map fun k =>
    (bes (addr - addr % 8 + (addr % 8 + k) % 16), mes ((e.val + k) % 16)))]

/-- `addr++; if (addr == start + 16) addr = start;`. -/
def ltvNext (start addr : BitVec 32) : BitVec 32 :=
  if addr + 1 = start + 16 then start else addr + 1

/-- The loop of `LTV`, from the element `i` and the register `j` on. -/
def ltvLoop (vt0 : ℕ) (start : BitVec 32) : ℕ → ℕ → ℕ → BitVec 32 → Transfers
  | 0, _, _, _ => []
  | passes + 1, i, j, addr =>
    let next := ltvNext start addr
    .loadBytes (Fin.ofNat 32 (vt0 + j % 8))
        [(mes i, maskedByte addr), (mes (i + 1), maskedByte next)] ::
      ltvLoop vt0 start passes (i + 2) (j % 8 + 1) (ltvNext start next)

def rspLtv : RspRoutine := fun s rt e offset base =>
  let addr := s.wideAddress 16 offset base
  let start := addr &&& ~~~7#32
  ltvLoop (rt.val / 8 * 8) start 8 0 (e.val / 2)
    (start + ((BitVec.ofNat 32 e.val + (addr &&& 8#32)) &&& 0xf#32))

/-- The address is not masked again. -/
def rspStv : RspRoutine := fun s rt e offset base =>
  let e := e.val / 2 * 2
  let addr := s.address 16 offset base
  let byte (k : ℕ) : ℕ × ℕ :=
    (bes (addr - addr % 8 + wrapIndex (addr % 8) e k), mes ((16 - e + k) % 16))
  (List.range 8).map fun k =>
    .storeBytes (Fin.ofNat 32 (rt.val / 8 * 8 + k)) [byte (2 * k), byte (2 * k + 1)]

-- ════════════════════════════════════════════════════════════════════════
-- Every routine
-- ════════════════════════════════════════════════════════════════════════

/-- The routines of `ls.cpp`: those of the interpreter's instructions, and three more. -/
inductive ParallelMove where
  | move (op : VectorMove)
  | lfv | lwv | swv
  deriving DecidableEq, Repr

namespace ParallelMove

def transfers : ParallelMove → RspRoutine
  | .move .lbv => rspLbv
  | .move .lsv => rspLsv
  | .move .llv => rspLlv
  | .move .ldv => rspLdv
  | .move .lpv => rspLpv
  | .move .luv => rspLuv
  | .move .lhv => rspLhv
  | .move .lqv => rspLqv
  | .move .lrv => rspLrv
  | .move .ltv => rspLtv
  | .move .sbv => rspSbv
  | .move .ssv => rspSsv
  | .move .slv => rspSlv
  | .move .sdv => rspSdv
  | .move .spv => rspSpv
  | .move .suv => rspSuv
  | .move .shv => rspShv
  | .move .sfv => rspSfv
  | .move .sqv => rspSqv
  | .move .srv => rspSrv
  | .move .stv => rspStv
  | .lfv => rspLfv
  | .lwv => rspLwv
  | .swv => rspSwv

/-- The state after a routine. -/
def run (p : ParallelMove) (s : RspVectors) (rt : Fin 32) (e : Fin 16) (offset : BitVec 7)
    (base : Fin 32) : RspVectors :=
  (p.transfers s rt e offset base).foldl Transfer.run s

end ParallelMove

end Mupen64plus
