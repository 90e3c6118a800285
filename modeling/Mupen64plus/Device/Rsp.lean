import Mupen64plus.Device.Pif

/-!
# The signal and display processors

`rsp_core.c` and `rdp_core.c`: the DMA fifo between RDRAM and the memory of the signal processor,
the tasks its plugin runs, and the interrupts of both.

## Main definitions

- `doSpDma`, `spFifoPush`, `spFifoPop` — DMA
- `doSPTask` — one run of the plugin, which edits `MI_INTR_REG` without a check for interrupts
- `readRspRegs`, `writeRspRegs`, `rspInterruptEvent`, `rspEndOfDmaEvent`
- `writeDpcRegs`, `rdpInterruptEvent`
-/

namespace Mupen64plus

def spStatusHalt : BitVec 32 := 0x0001
def spStatusBroke : BitVec 32 := 0x0002
def spStatusDmaBusy : BitVec 32 := 0x0004
def spStatusDmaFull : BitVec 32 := 0x0008
def spStatusIntrBreak : BitVec 32 := 0x0040
def spStatusTaskdone : BitVec 32 := 0x0200

/-- `INTR_UNSAFE_RSP`. -/
def intrUnsafeRsp : BitVec 32 := 0x02

/-- A bit of a status register under a pair of write bits, of which exactly one must be set. -/
def clearOrSet (reg w clearBit setBit field : BitVec 32) : BitVec 32 :=
  if w &&& (clearBit ||| setBit) = clearBit then reg &&& ~~~field
  else if w &&& (clearBit ||| setBit) = setBit then reg ||| field
  else reg

/-- The write bits of the signals and of the modes of `SP_STATUS`, with the bit they control. -/
def spStatusPairs : List (BitVec 32 × BitVec 32 × BitVec 32) :=
  [(0x20, 0x40, 0x0020), (0x80, 0x100, 0x0040), (0x200, 0x400, 0x0080),
    (0x800, 0x1000, 0x0100), (0x2000, 0x4000, 0x0200), (0x8000, 0x10000, 0x0400),
    (0x20000, 0x40000, 0x0800), (0x80000, 0x100000, 0x1000), (0x200000, 0x400000, 0x2000),
    (0x800000, 0x1000000, 0x4000)]

/-- One row of a DMA to RDRAM, byte by byte. -/
def spRowToDram (src : Words) (bank : ℕ) (memaddr dramaddr : BitVec 32) (dst : Words) : ℕ → Words
  | 0 => dst
  | n + 1 =>
    (spRowToDram src bank memaddr dramaddr dst n).setByte
      ((dramaddr + BitVec.ofNat 32 n) &&& 0x7fffff).toNat
      (src.byte (bank + ((memaddr + BitVec.ofNat 32 n) &&& 0xfff).toNat))

/-- One row of a DMA to the memory of the signal processor, byte by byte. -/
def spRowToMem (src : Words) (bank : ℕ) (memaddr dramaddr : BitVec 32) (dst : Words) : ℕ → Words
  | 0 => dst
  | n + 1 =>
    (spRowToMem src bank memaddr dramaddr dst n).setByte
      (bank + ((memaddr + BitVec.ofNat 32 n) &&& 0xfff).toNat)
      (src.byte ((dramaddr + BitVec.ofNat 32 n) &&& 0x7fffff).toNat)

/-- The rows of a DMA: `row` moves one, and RDRAM is left `skip` bytes further after each. -/
def spRows (row : BitVec 32 → BitVec 32 → Words → Words) (length skip : BitVec 32) :
    ℕ → BitVec 32 → BitVec 32 → Words → Words × BitVec 32 × BitVec 32
  | 0, memaddr, dramaddr, dst => (dst, memaddr, dramaddr)
  | count + 1, memaddr, dramaddr, dst =>
    spRows row length skip count (memaddr + length) (dramaddr + length + skip)
      (row memaddr dramaddr dst)

/-- The number of bytes of a row. -/
def SpDma.rowLength (dma : SpDma) : BitVec 32 := ((dma.length &&& 0xfff) ||| 7) + 1

/-- The number of rows. -/
def SpDma.rowCount (dma : SpDma) : BitVec 32 := ((dma.length >>> 12) &&& 0xff) + 1

/-- The bytes of RDRAM between two rows. -/
def SpDma.skip (dma : SpDma) : BitVec 32 := (dma.length >>> 20) &&& 0xfff

/-- Where DMEM or IMEM starts. -/
def SpDma.bank (dma : SpDma) : ℕ := (dma.memaddr &&& 0x1000).toNat

namespace Device

def spStatus (d : Device) : BitVec 32 := d.sp.regs .status

def setSpFifo (d : Device) (i : Fin 2) (dma : SpDma) : Device :=
  { d with sp := { d.sp with fifo := Function.update d.sp.fifo i dma } }

def setSpMem (d : Device) (m : Words) : Device := { d with sp := { d.sp with mem := m } }

/-- The rows of `do_sp_dma`, with the addresses behind the last. -/
def spDmaRows (d : Device) (dma : SpDma) : Words × BitVec 32 × BitVec 32 :=
  let length := dma.rowLength
  let row (memaddr dramaddr : BitVec 32) (dst : Words) : Words :=
    if dma.dir = 0 then spRowToDram d.sp.mem dma.bank memaddr dramaddr dst length.toNat
    else spRowToMem d.rdram.dram dma.bank memaddr dramaddr dst length.toNat
  spRows row length dma.skip dma.rowCount.toNat (dma.memaddr &&& 0xff8) (dma.dramaddr &&& 0xfffff8)
    (if dma.dir = 0 then d.rdram.dram else d.sp.mem)

/-- `do_sp_dma`. -/
def doSpDma (d : Device) (dma : SpDma) : Device :=
  let (m, memaddr, dramaddr) := d.spDmaRows dma
  let d := if dma.dir = 0 then d.setDram m else d.setSpMem m
  let d := d.setSp .memAddr (memaddr &&& 0xfff)
  let d := d.setSp .dramAddr (dramaddr &&& 0xffffff)
  let d := d.setSp .rdLen 0xff8
  d.updateCount.addEvent .rspDma ((dma.rowCount * dma.rowLength) / 8)

/-- The transfer the registers ask for. -/
def spDmaOfRegs (d : Device) (dir : BitVec 32) : SpDma where
  dir := dir
  length := if dir = 0 then d.sp.regs .wrLen else d.sp.regs .rdLen
  memaddr := d.sp.regs .memAddr
  dramaddr := d.sp.regs .dramAddr

/-- `fifo_push` of the signal processor. -/
def spFifoPush (d : Device) (dir : BitVec 32) : Device :=
  let dma := d.spDmaOfRegs dir
  if d.sp.regs .dmaFull ≠ 0 then d
  else if d.sp.regs .dmaBusy ≠ 0 then
    let d := (d.setSpFifo 1 dma).setSp .dmaFull 1
    d.setSp .status (d.spStatus ||| spStatusDmaFull)
  else
    let d := (d.setSpFifo 0 dma).setSp .dmaBusy 1
    (d.setSp .status (d.spStatus ||| spStatusDmaBusy)).doSpDma dma

/-- `fifo_pop` of the signal processor, which is `rsp_end_of_dma_event`. -/
def rspEndOfDmaEvent (d : Device) : Device :=
  if d.sp.regs .dmaFull ≠ 0 then
    let d := (d.setSpFifo 0 (d.sp.fifo 1)).setSp .dmaFull 0
    let d := d.setSp .status (d.spStatus &&& ~~~spStatusDmaFull)
    d.doSpDma (d.sp.fifo 0)
  else
    let d := d.setSp .dmaBusy 0
    d.setSp .status (d.spStatus &&& ~~~spStatusDmaBusy)

-- ════════════════════════════════════════════════════════════════════════
-- Tasks
-- ════════════════════════════════════════════════════════════════════════

/-- `rsp.doRspCycles`, with the bits of `SP_PC_REG` above the program counter put back. -/
def runRsp (o : Outside) (d : Device) : Device :=
  let savePc := d.sp.regs2 .pc &&& ~~~0xfff
  let d := d.setSp2 .pc (d.sp.regs2 .pc &&& 0xfff)
  let d := d.plugin o.doRspCycles
  d.setSp2 .pc (d.sp.regs2 .pc ||| savePc)

/-- What a graphics task leaves of the DP interrupt: it is delayed by an event, or until the
    display processor is unfrozen. -/
def delayDpInt (d : Device) : Device :=
  if d.mi.regs .intr &&& miIntrDP = 0 then d
  else
    let d := d.setMi .intr (d.mi.regs .intr &&& ~~~miIntrDP)
    if d.dp.dpcRegs .status &&& 0x002 ≠ 0 then
      { d with dp := { d.dp with doOnUnfreeze := d.dp.doOnUnfreeze ||| 0x001 } }
    else d.updateCount.addEvent .dp 4000

/-- The task a header in DMEM announces, with the delay of its interrupt. -/
def runTask (o : Outside) (d : Device) : Device × BitVec 32 :=
  if d.sp.mem 0x3f0 = 1 then ((runRsp o d).delayDpInt, 1000)
  else if d.sp.mem 0x3f0 = 2 then (runRsp o d, 4000)
  else (runRsp o d, 0)

/-- `rsp_task_locked` and its bit of `interrupt_unsafe_state`. -/
def setTaskLocked (d : Device) (locked : Bool) : Device :=
  let unsafeState := d.cp0.interruptUnsafeState
  let d := { d with sp := { d.sp with rspTaskLocked := if locked then 1 else 0 } }
  d.onCp0 fun c => { c with interruptUnsafeState :=
    if locked then unsafeState ||| intrUnsafeRsp else unsafeState &&& ~~~intrUnsafeRsp }

/-- `do_SP_Task`. -/
def doSPTask (o : Outside) (d : Device) : Device :=
  let (d, spDelayTime) := runTask o d
  let d := d.setTaskLocked false
  let d :=
    if d.spStatus &&& (spStatusHalt ||| spStatusBroke) = 0 then
      (d.setTaskLocked true).setMi .intr (d.mi.regs .intr ||| miIntrSP)
    else d
  let d :=
    if d.mi.regs .intr &&& miIntrSP ≠ 0 then
      let d := d.updateCount.addEvent .sp spDelayTime
      d.setMi .intr (d.mi.regs .intr &&& ~~~miIntrSP)
    else d
  d.setSp .status (d.spStatus &&& ~~~(spStatusTaskdone ||| spStatusBroke ||| spStatusHalt))

/-- The bits of `SP_STATUS` that `update_sp_status` sets before it looks at the interrupt. -/
def spHaltBroke (status w : BitVec 32) : BitVec 32 :=
  let status := clearOrSet status w 0x1 0x2 spStatusHalt
  if w &&& 0x4 ≠ 0 then status &&& ~~~spStatusBroke else status

/-- Whether a write to `SP_STATUS` starts a task. -/
def startsTask (d : Device) (w : BitVec 32) : Bool :=
  let locked := d.sp.rspTaskLocked != 0
  if locked && (getEvent d.cp0.q .sp).isSome then false
  else if !(w &&& 0x3 == 1) && w &&& 0x4 == 0 && !locked then false
  else d.spStatus &&& spStatusHalt == 0

/-- `update_sp_status`. -/
def updateSpStatus (o : Outside) (d : Device) (w : BitVec 32) : Device :=
  let d := d.setSp .status (spHaltBroke d.spStatus w)
  let d := if w &&& 0x18 = 0x8 then d.clearRcpInterrupt miIntrSP else d
  let d := if w &&& 0x18 = 0x10 then d.signalRcpInterrupt miIntrSP else d
  let d := d.setSp .status
    (spStatusPairs.foldl (fun s p => clearOrSet s w p.1 p.2.1 p.2.2) d.spStatus)
  if d.startsTask w then doSPTask o d else d

/-- `poweron_rsp`. -/
def powerOnRsp (d : Device) : Device :=
  let d := { d with sp := { d.sp with
    mem := fun i => if i < 0x800 then 0 else d.sp.mem i
    regs := fun reg =>
      match reg with
      | .status => 1
      | .rdLen | .wrLen => 0xff8
      | _ => 0
    regs2 := fun _ => 0
    fifo := fun _ => ⟨0, 0, 0, 0⟩ } }
  d.setTaskLocked false

/-- `rsp_interrupt_event`. -/
def rspInterruptEvent (d : Device) : Device :=
  let d := if d.sp.rspTaskLocked = 0 then
      d.setSp .status (d.spStatus ||| (spStatusTaskdone ||| spStatusBroke ||| spStatusHalt))
    else d
  if d.spStatus &&& spStatusIntrBreak ≠ 0 then d.raiseRcpInterrupt miIntrSP else d

-- ════════════════════════════════════════════════════════════════════════
-- Memory and registers of the signal processor
-- ════════════════════════════════════════════════════════════════════════

/-- `rsp_mem_address`. -/
def rspMemAddress (address : BitVec 32) : ℕ := ((address &&& 0x1fff) >>> 2).toNat

/-- `read_rsp_mem`. -/
def readRspMem (d : Device) (address : BitVec 32) : BitVec 32 := d.sp.mem (rspMemAddress address)

/-- `write_rsp_mem`. -/
def writeRspMem (d : Device) (address value mask : BitVec 32) : Device :=
  d.setSpMem (d.sp.mem.write (rspMemAddress address) value mask)

/-- `read_rsp_regs`; reading the semaphore takes it. -/
def readRspRegs (d : Device) (address : BitVec 32) : BitVec 32 × Device :=
  match regAt SpReg.block address with
  | none => (0, d)
  | some .semaphore => (d.sp.regs .semaphore, d.setSp .semaphore 1)
  | some reg => (d.sp.regs reg, d)

/-- `write_rsp_regs`. -/
def writeRspRegs (o : Outside) (d : Device) (address value mask : BitVec 32) : Device :=
  match regAt SpReg.block address with
  | none | some .dmaFull | some .dmaBusy => d
  | some .status => updateSpStatus o d (value &&& mask)
  | some .rdLen => (d.setSp .rdLen (maskedWrite (d.sp.regs .rdLen) value mask)).spFifoPush 1
  | some .wrLen => (d.setSp .wrLen (maskedWrite (d.sp.regs .wrLen) value mask)).spFifoPush 0
  | some .semaphore => d.setSp .semaphore 0
  | some reg => d.setSp reg (maskedWrite (d.sp.regs reg) value mask)

/-- `read_rsp_regs2`. -/
def readRspRegs2 (d : Device) (address : BitVec 32) : BitVec 32 :=
  match regAt SpReg2.block address with
  | none => 0
  | some .pc => d.sp.regs2 .pc &&& 0xffc
  | some .ibist => d.sp.regs2 .ibist

/-- `write_rsp_regs2`. -/
def writeRspRegs2 (d : Device) (address value mask : BitVec 32) : Device :=
  match regAt SpReg2.block address with
  | none => d
  | some .pc => d.setSp2 .pc (maskedWrite (d.sp.regs2 .pc) value (mask &&& 0xffc))
  | some .ibist => d.setSp2 .ibist (maskedWrite (d.sp.regs2 .ibist) value mask)

-- ════════════════════════════════════════════════════════════════════════
-- The display processor
-- ════════════════════════════════════════════════════════════════════════

/-- The part of `update_dpc_status` that unfreezes: what was delayed is done now. -/
def dpcUnfreeze (d : Device) : Device :=
  let d := d.setDpc .status (d.dp.dpcRegs .status &&& ~~~0x002)
  let d := if d.dp.doOnUnfreeze &&& 0x001 ≠ 0 then d.signalRcpInterrupt miIntrDP else d
  { d with dp := { d.dp with doOnUnfreeze := 0 } }

/-- `update_dpc_status`. -/
def updateDpcStatus (d : Device) (w : BitVec 32) : Device :=
  let d := d.setDpc .status (clearSet (d.dp.dpcRegs .status) w 0x001 0x002 0x001)
  let d := if w &&& 0x004 ≠ 0 then d.dpcUnfreeze else d
  let d := if w &&& 0x008 ≠ 0 then d.setDpc .status (d.dp.dpcRegs .status ||| 0x002) else d
  let d := d.setDpc .status (clearSet (d.dp.dpcRegs .status) w 0x010 0x020 0x004)
  if w &&& 0x200 ≠ 0 then d.setDpc .clock 0 else d

/-- `poweron_rdp`. -/
def powerOnRdp (d : Device) : Device :=
  { d with dp := {
      dpcRegs := fun reg => if reg = .status then 0x008 else 0
      dpsRegs := fun _ => 0
      doOnUnfreeze := 0 } }

/-- `read_dpc_regs`. -/
def readDpcRegs (d : Device) (address : BitVec 32) : BitVec 32 :=
  ((regAt DpcReg.block address).map d.dp.dpcRegs).getD 0

/-- `write_dpc_regs`. -/
def writeDpcRegs (o : Outside) (d : Device) (address value mask : BitVec 32) : Device :=
  match regAt DpcReg.block address with
  | some .status => d.updateDpcStatus (value &&& mask)
  | some .start =>
    let d := d.setDpc .start (maskedWrite (d.dp.dpcRegs .start) value mask)
    d.setDpc .current (d.dp.dpcRegs .start)
  | some .stop =>
    let d := d.setDpc .stop (maskedWrite (d.dp.dpcRegs .stop) value mask)
    (d.plugin o.processRdpList).signalRcpInterrupt miIntrDP
  | _ => d

/-- `read_dps_regs`. -/
def readDpsRegs (d : Device) (address : BitVec 32) : BitVec 32 :=
  ((regAt DpsReg.block address).map d.dp.dpsRegs).getD 0

/-- `write_dps_regs`. -/
def writeDpsRegs (d : Device) (address value mask : BitVec 32) : Device :=
  match regAt DpsReg.block address with
  | some reg => d.setDps reg (maskedWrite (d.dp.dpsRegs reg) value mask)
  | none => d

/-- `rdp_interrupt_event`. -/
def rdpInterruptEvent (d : Device) : Device := d.raiseRcpInterrupt miIntrDP

end Device

end Mupen64plus
