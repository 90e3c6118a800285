import Mathlib.Data.BitVec
import Mathlib.Logic.Function.Basic
import Mupen64plus.Lib.FinLiterals

/-!
# The display list interpreter

`RSP.cpp`: the loop of `_ProcessDList` with the command tables of F3DEX2 and F3DDKR, as far as its
stacks go: the program counters, the counter of a counted list, and the index of the modelview
matrix. `fetched` lists what the last step has read of RDRAM.

## Main definitions

- `DListUcode`, `DListCommand`, `DListUcode.decode` — the tables and their commands
- `DListState`, `DListState.execute` — the state, and a command
- `DListState.next` — one turn of `_ProcessDList`, or of a loop inside one of its commands
- `DListState.step` — with the calls of `RSP_ProcessDList`
-/

namespace Mupen64plus

/-- `RDRAMSize`, the address of the last byte of RDRAM, of which there are 8 MiB at most. -/
structure RdramSize where
  last : BitVec 32
  last_lt : last.toNat < 0x800000

theorem lastOfEight_lt : (0x7fffff : BitVec 32).toNat < 0x800000 := by
  decide

/-- The microcodes that set the tables of F3DEX2 and F3DDKR. -/
inductive DListUcode where
  | f3dex2 (combineMatrices : Bool)
  | f3ddkr (fast3DPersp : Bool)
  | f3djfg (fast3DPersp : Bool)
  deriving DecidableEq, Repr

/-- What loading a microcode comes to: an unknown one is not made current. -/
inductive UcodeLoad where
  | unchanged
  | ours (ucode : DListUcode)
  | other
  deriving DecidableEq, Repr

/-- The commands that touch the stacks, or what addresses are computed with. -/
inductive DListCommand where
  | displayList (dl : BitVec 32)
  | branchList (dl : BitVec 32)
  | branchLessZ
  | dlistCount (count v : BitVec 32)
  | endDisplayList
  | cullDisplayList
  | matrix (mtx : BitVec 32) (projection push : Bool)
  | popMatrixN (num : BitVec 32)
  | forceMatrix (mptr skipped : BitVec 32)
  | dmaMatrix (mtx : BitVec 32) (index : BitVec 4)
  | modelViewIndex (index : BitVec 2)
  | segment (seg : BitVec 4) (base : BitVec 24)
  | setDMAOffsets (mtxoffset : BitVec 24)
  | rdpHalf_1 (w1 : BitVec 32)
  | loadUcode
  | texRect
  | other
  deriving DecidableEq, Repr

namespace DListUcode

/-- `GBI.PCStackSize`. -/
def pcStackSize : DListUcode → BitVec 32
  | f3dex2 _ => 18
  | f3ddkr _ | f3djfg _ => 10

/-- `G_RDPHALF_1`. With `fast3DPersp` it is the one of F3DBETA. -/
def rdpHalf_1 : DListUcode → BitVec 8
  | f3dex2 _ => 0xE1
  | f3ddkr fast3DPersp | f3djfg fast3DPersp => if fast3DPersp then 0xB3 else 0xB4

/-- `G_RDPHALF_2`. -/
def rdpHalf_2 : DListUcode → BitVec 8
  | f3dex2 _ => 0xF1
  | f3ddkr fast3DPersp | f3djfg fast3DPersp => if fast3DPersp then 0xB2 else 0xB3

/-- The type of a microcode, which decides whether a load sets the table anew. -/
def sameType : DListUcode → DListUcode → Bool
  | f3dex2 _, f3dex2 _ => true
  | f3ddkr _, f3ddkr _ => true
  | f3djfg _, f3djfg _ => true
  | _, _ => false

end DListUcode

section Decode

variable (w0 w1 : BitVec 32)

/-- `F3D_DList`. -/
def f3dDList : DListCommand :=
  match w0.extractLsb' 16 8 with
  | 0x00#8 => .displayList w1
  | 0x01#8 => .branchList w1
  | _ => .other

/-- `F3DEX2_Mtx`: the push bit is the other way round. -/
def f3dex2Mtx : DListCommand :=
  let param := w0.extractLsb' 0 8 ^^^ 0x01
  .matrix w1 (param &&& 0x04 ≠ 0) (param &&& 0x01 ≠ 0)

/-- `F3DEX2_MoveMem`. -/
def f3dex2MoveMem : DListCommand :=
  match w0.extractLsb' 0 8 with
  | 14#8 => .forceMatrix w1 8
  | _ => .other

/-- `F3DEX2_MoveWord`. -/
def f3dex2MoveWord : DListCommand :=
  match w0.extractLsb' 16 8 with
  | 0x06#8 => .segment (w0.extractLsb' 2 4) (w1.extractLsb' 0 24)
  | _ => .other

/-- `F3DEX2_Special_1`. -/
def f3dex2Special_1 (combineMatrices : Bool) : DListCommand :=
  if combineMatrices then .other else .dlistCount ((w0.extractLsb' 0 8).setWidth 32) w1

/-- `F3D_MoveMem`. -/
def f3dMoveMem : DListCommand :=
  match w0.extractLsb' 16 8 with
  | 0x9E#8 => .forceMatrix w1 24
  | _ => .other

/-- `F3DDKR_MoveWord`, with `F3D_MoveWord` as its last case. -/
def f3ddkrMoveWord : DListCommand :=
  match w0.extractLsb' 0 8 with
  | 0x0A#8 => .modelViewIndex (w1.extractLsb' 6 2)
  | 0x06#8 => .segment (w0.extractLsb' 10 4) (w1.extractLsb' 0 24)
  | _ => .other

/-- `F3DDKR_DMA_Mtx`: Diddy Kong Racing has the index in other bits. -/
def f3ddkrDmaMtx : DListCommand :=
  if w0.extractLsb' 0 16 ≠ 64 then .other
  else
    let index := w0.extractLsb' 16 4
    .dmaMatrix w1 (if index = 0 then (w0.extractLsb' 22 2).setWidth 4 else index)

/-- `GBI.cmd` as `F3DEX2_Init` sets it. -/
def f3dex2Command (combineMatrices : Bool) : DListCommand :=
  match w0.extractLsb' 24 8 with
  | 0x03#8 => .cullDisplayList
  | 0x04#8 => .branchLessZ
  | 0xD5#8 => f3dex2Special_1 w0 w1 combineMatrices
  | 0xD8#8 => .popMatrixN (w1 >>> 6)
  | 0xDA#8 => f3dex2Mtx w0 w1
  | 0xDB#8 => f3dex2MoveWord w0 w1
  | 0xDC#8 => f3dex2MoveMem w0 w1
  | 0xDD#8 => .loadUcode
  | 0xDE#8 => f3dDList w0 w1
  | 0xDF#8 => .endDisplayList
  | 0xE1#8 => .rdpHalf_1 w1
  | 0xE4#8 => .texRect
  | 0xE5#8 => .texRect
  | _ => .other

/-- `GBI.cmd` as `F3DDKR_Init` sets it, with the code of `F3D_RDPHalf_1`. -/
def f3ddkrCommand (rdpHalf_1 : BitVec 8) : DListCommand :=
  if w0.extractLsb' 24 8 = rdpHalf_1 then .rdpHalf_1 w1
  else match w0.extractLsb' 24 8 with
    | 0x01#8 => f3ddkrDmaMtx w0 w1
    | 0x03#8 => f3dMoveMem w0 w1
    | 0x06#8 => f3dDList w0 w1
    | 0x07#8 => .dlistCount ((w0.extractLsb' 16 8).setWidth 32) w1
    | 0xB8#8 => .endDisplayList
    | 0xBC#8 => f3ddkrMoveWord w0 w1
    | 0xBE#8 => .cullDisplayList
    | 0xBF#8 => .setDMAOffsets (w0.extractLsb' 0 24)
    | 0xE4#8 => .texRect
    | 0xE5#8 => .texRect
    | _ => .other

def DListUcode.decode : DListUcode → DListCommand
  | .f3dex2 combineMatrices => f3dex2Command w0 w1 combineMatrices
  | .f3ddkr fast3DPersp => f3ddkrCommand w0 w1 (DListUcode.f3ddkr fast3DPersp).rdpHalf_1
  | .f3djfg fast3DPersp => f3ddkrCommand w0 w1 (DListUcode.f3djfg fast3DPersp).rdpHalf_1

end Decode

/-- A read of RDRAM. `slot` is the entry of `RSP.PC` that holds the address it goes by. -/
structure DListFetch where
  slot : Option (BitVec 32)
  address : BitVec 32
  bytes : ℕ
  deriving DecidableEq, Repr

/-- Where the interpreter stands: before a command, in the loop of `RDP_Half_1`, in the one of
    `_lookAhead`, after the list, or in a list of another microcode. -/
inductive DListPhase where
  | fetch
  | triangle
  | lookAhead (pc : BitVec 32) (checkCoordinates : Bool)
  | done
  | left
  deriving DecidableEq, Repr

/-- What a turn of the loop meets: the content of RDRAM, the tests of `gSPCullVertices` and
    `gSPBranchLessZ`, which look at vertices, what `loadMicrocode` finds, the option for WinBack,
    and whether the texture rectangle makes the drawer look ahead. -/
structure DListEnv where
  rdram : BitVec 32 → BitVec 8
  culled : Bool
  less : Bool
  loaded : UcodeLoad
  hackWinBack : Bool
  lookAhead : Option Bool

/-- What `RSP_ProcessDList` reads of the task in DMEM, and the microcode it then runs with. -/
structure DListTask where
  dlistStart : BitVec 32
  stackBytes : BitVec 32
  loaded : UcodeLoad

structure DListState where
  ucode : DListUcode
  pc : BitVec 32 → BitVec 32
  pci : BitVec 32
  count : BitVec 32
  halt : Bool
  infloop : Bool
  modelViewi : BitVec 32
  stackSize : BitVec 32
  segments : BitVec 4 → BitVec 32
  mtxOffset : BitVec 24
  half_1 : BitVec 32
  phase : DListPhase
  fetched : List DListFetch

/-- A word of RDRAM, which holds words in the order of the host. -/
def dlistWord (rdram : BitVec 32 → BitVec 8) (address : BitVec 32) : BitVec 32 :=
  rdram (address + 3) ++ rdram (address + 2) ++ rdram (address + 1) ++ rdram address

namespace DListState

variable (size : RdramSize) (env : DListEnv) (s : DListState)

/-- `RSP_SegmentToPhysical`. -/
def segmentToPhysical (segaddr : BitVec 32) : BitVec 32 :=
  (s.segments (segaddr.extractLsb' 24 4) + (segaddr &&& size.last)) &&& size.last

def read (slot : Option (BitVec 32)) (address : BitVec 32) (bytes : ℕ) : DListState :=
  { s with fetched := s.fetched ++ [⟨slot, address, bytes⟩] }

def setPc (address : BitVec 32) : DListState :=
  { s with pc := Function.update s.pc s.pci address }

/-- The address the list has reached. -/
def top : BitVec 32 := s.pc s.pci

/-- The word at an offset from the address the list has reached. -/
def readTop (offset : BitVec 32) : DListState := s.read (some s.pci) (s.top + offset) 4

/-- `RSP_CheckDLCounter`. -/
def checkDLCounter : DListState :=
  if s.count = -1 then s
  else if s.count - 1 = 0 then { s with count := -1, pci := s.pci - 1 }
  else { s with count := s.count - 1 }

/-- `gSPDisplayList`. -/
def displayList (dl : BitVec 32) : DListState :=
  let address := s.segmentToPhysical size dl
  if size.last < address + 8 then s
  else if s.pci < s.ucode.pcStackSize - 1 then
    ({ s with pci := s.pci + 1 }.setPc address).readTop 0
  else s

/-- `gSPBranchList`. A list that branches to the branch itself waits for the processor. -/
def branchList (dl : BitVec 32) : DListState :=
  let address := s.segmentToPhysical size dl
  if size.last < address + 8 then s
  else if address = s.top - 8 then { s.setPc (s.top - 8) with infloop := true, halt := true }
  else (s.setPc address).readTop 0

/-- `gSPBranchLessZ`. -/
def branchLessZ : DListState :=
  let address := s.segmentToPhysical size s.half_1
  if size.last < address + 8 then s
  else if env.less then s.setPc address
  else s

/-- `gSPDlistCount`. -/
def dlistCount (count v : BitVec 32) : DListState :=
  let address := s.segmentToPhysical size v
  if address = 0 ∨ size.last < address + 8 then s
  else if 9 ≤ s.pci then s
  else { ({ s with pci := s.pci + 1 }.setPc address).readTop 0 with count := count + 1 }

/-- `gSPEndDisplayList`. -/
def endDisplayList : DListState :=
  if 0 < s.pci then { s with pci := s.pci - 1 } else { s with halt := true }

/-- `gSPCullDisplayList`. -/
def cullDisplayList : DListState := if env.culled then s.endDisplayList else s

/-- `gSPMatrix`. -/
def matrix (mtx : BitVec 32) (projection push : Bool) : DListState :=
  let address := s.segmentToPhysical size mtx
  if size.last < address + 64 then s
  else
    let s := s.read none address 64
    if projection then s
    else if push then
      if s.modelViewi < s.stackSize then { s with modelViewi := s.modelViewi + 1 } else s
    else s

/-- `gSPPopMatrixN`. -/
def popMatrixN (num : BitVec 32) : DListState :=
  if num - 1 < s.modelViewi then { s with modelViewi := s.modelViewi - num } else s

/-- `gSPForceMatrix`, and the commands the matrix takes. -/
def forceMatrix (mptr skipped : BitVec 32) : DListState :=
  let address := s.segmentToPhysical size mptr
  let s := if size.last < address + 64 then s else s.read none address 64
  s.setPc (s.top + skipped)

/-- `gSPDMAMatrix`. -/
def dmaMatrix (mtx : BitVec 32) (index : BitVec 4) : DListState :=
  let address := s.mtxOffset.setWidth 32 + s.segmentToPhysical size mtx
  if size.last < address + 64 then s
  else { s.read none address 64 with modelViewi := index.setWidth 32 }

/-- `_makeCurrent`. `F3DDKR_Init` sets the offsets of the matrices to 0. -/
def makeCurrent : UcodeLoad → DListState
  | .unchanged => s
  | .ours ucode =>
    if s.ucode.sameType ucode then { s with ucode := ucode }
    else match ucode with
      | .f3dex2 _ => { s with ucode := ucode }
      | .f3ddkr _ | .f3djfg _ => { s with ucode := ucode, mtxOffset := 0 }
  | .other => { s with phase := .left }

/-- `gSPLoadUcodeEx`. -/
def loadUcodeEx (loaded : UcodeLoad) : DListState :=
  { s with modelViewi := 0 }.makeCurrent loaded

/-- `F3D_RDPHalf_1` with `RDP_Half_1`: the word of a triangle makes the renderer read on. -/
def rdpHalf_1 (w1 : BitVec 32) : DListState :=
  let s := { s with half_1 := w1 }
  if 0xC8 ≤ w1.extractLsb' 24 8 ∧ w1.extractLsb' 24 8 ≤ 0xCF then { s with phase := .triangle }
  else s

/-- The commands `_getTexRectParams` finds after a texture rectangle. -/
inductive TexRectMode where
  | gspTexRect
  | gdpTexRect
  | halfTexRect
  deriving DecidableEq, Repr

def texRectMode : TexRectMode :=
  let cmd1 := (dlistWord env.rdram s.top).extractLsb' 24 8
  let cmd2 := (dlistWord env.rdram (s.top + 8)).extractLsb' 24 8
  if cmd1 = s.ucode.rdpHalf_1 then
    if cmd2 = s.ucode.rdpHalf_2 then .gspTexRect else .gdpTexRect
  else if cmd1 = 0xB3 ∨ cmd1 = 0xF1 then .halfTexRect
  else .gdpTexRect

/-- `_getTexRectParams`, whose result says whether there are any. -/
def getTexRectParams : DListState × Bool :=
  let mode := s.texRectMode env
  let s := (s.readTop 0).readTop 8
  match mode with
  | .gspTexRect =>
    let s := s.readTop 4
    let s := (s.setPc (s.top + 8)).readTop 4
    (s.setPc (s.top + 8), true)
  | .gdpTexRect =>
    if env.hackWinBack then (s.setPc (s.top + 8), false)
    else
      let s := (s.readTop 0).readTop 4
      (s.setPc (s.top + 8), true)
  | .halfTexRect =>
    let s := s.readTop 4
    (s.setPc (s.top + 8), true)

/-- `_TexRect`. -/
def texRect : DListState :=
  let (s, drawn) := s.getTexRectParams env
  match drawn, env.lookAhead with
  | true, some checkCoordinates => { s with phase := .lookAhead s.top checkCoordinates }
  | _, _ => s

def execute : DListCommand → DListState
  | .displayList dl => s.displayList size dl
  | .branchList dl => s.branchList size dl
  | .branchLessZ => s.branchLessZ size env
  | .dlistCount count v => s.dlistCount size count v
  | .endDisplayList => s.endDisplayList
  | .cullDisplayList => s.cullDisplayList env
  | .matrix mtx projection push => s.matrix size mtx projection push
  | .popMatrixN num => s.popMatrixN num
  | .forceMatrix mptr skipped => s.forceMatrix size mptr skipped
  | .dmaMatrix mtx index => s.dmaMatrix size mtx index
  | .modelViewIndex index => { s with modelViewi := index.setWidth 32 }
  | .segment seg base => { s with segments := Function.update s.segments seg (base.setWidth 32) }
  | .setDMAOffsets mtxoffset => { s with mtxOffset := mtxoffset }
  | .rdpHalf_1 w1 => s.rdpHalf_1 w1
  | .loadUcode => s.loadUcodeEx env.loaded
  | .texRect => s.texRect env
  | .other => s

/-- The command the list has come to. -/
def command : DListCommand :=
  s.ucode.decode (dlistWord env.rdram s.top) (dlistWord env.rdram (s.top + 4))

/-- The entry of `RSP.PC` the next command is looked up by. -/
def nextSlot : BitVec 32 := if s.count = 1 then s.pci - 1 else s.pci

/-- What `_ProcessDList` reads before it runs a command. -/
def fetch : DListState :=
  let s := (s.readTop 0).readTop 4
  let s := s.setPc (s.top + 8)
  s.read (some s.nextSlot) (s.pc s.nextSlot) 4

/-- A command that reads on is not over. -/
def afterCommand : DListState :=
  match s.phase with
  | .fetch => s.checkDLCounter
  | _ => s

/-- A turn of the loop of `RDP_Half_1`. -/
def triangle : DListState :=
  let s := s.checkDLCounter
  let cmd := (dlistWord env.rdram s.top).extractLsb' 24 8
  let s := (s.readTop 0).readTop 4
  let s := s.setPc (s.top + 8)
  if cmd = 0xB3 then { s with phase := .fetch }.checkDLCounter else s

/-- The commands `_lookAhead` goes over. -/
def skipped (cmd : BitVec 8) : Prop :=
  cmd = 0xE6 ∨ cmd = 0xE7 ∨ cmd = 0xE8 ∨ cmd = 0xF0 ∨ cmd = 0xF2 ∨ cmd = 0xF3 ∨ cmd = 0xF4 ∨
    cmd = 0xF5 ∨ cmd = 0xFD

instance decidableSkipped (cmd : BitVec 8) : Decidable (skipped cmd) := by
  unfold skipped
  infer_instance

/-- A turn of the loop of `_lookAhead`. -/
def lookAhead (pc : BitVec 32) (checkCoordinates : Bool) : DListState :=
  let cmd := (dlistWord env.rdram pc).extractLsb' 24 8
  let s := s.read none pc 4
  if skipped cmd then { s with phase := .lookAhead (pc + 8) checkCoordinates }
  else if (cmd = 0xE4 ∨ cmd = 0xE5) ∧ checkCoordinates then
    { (s.read none pc 4).read none (pc + 4) 4 with phase := .fetch }.checkDLCounter
  else { s with phase := .fetch }.checkDLCounter

/-- A new turn has read nothing yet. -/
def unread : DListState := { s with fetched := [] }

/-- One turn of the interpreter. -/
def next : DListState :=
  let s := s.unread
  match s.phase with
  | .fetch =>
    if s.halt ∨ size.last < s.top + 8 then { s with phase := .done }
    else (s.fetch.execute size env (s.command env)).afterCommand
  | .triangle => s.triangle env
  | .lookAhead pc checkCoordinates => s.lookAhead env pc checkCoordinates
  | .done => s
  | .left => s

/-- How many matrices the stack of the task holds, 32 at most. -/
def taskStackSize (bytes : BitVec 32) : BitVec 32 :=
  let n := if bytes >>> 6 < 32 then bytes >>> 6 else 32
  if n = 0 then 32 else n

/-- A new task, as `RSP_ProcessDList` starts it. -/
def start (task : DListTask) : DListState :=
  { s with
    pc := Function.update s.pc 0 task.dlistStart
    pci := 0
    count := -1
    halt := false
    infloop := false
    stackSize := taskStackSize task.stackBytes
    phase := .fetch }.unread.loadUcodeEx task.loaded

/-- `RSP_ProcessDList`, which takes up a list that waits where it stands. -/
def processDList (task : DListTask) : DListState :=
  if s.infloop then { s with infloop := false, halt := false, phase := .fetch }.unread
  else s.start task

end DListState

/-- What happens next: a turn of the loop, or a call of `RSP_ProcessDList`, which comes after the
    last one is over. -/
inductive DListOp where
  | next (env : DListEnv)
  | processDList (task : DListTask)

def DListState.step (size : RdramSize) (s : DListState) : DListOp → DListState
  | .next env => s.next size env
  | .processDList task => if s.phase = .done then s.processDList task else s

end Mupen64plus
