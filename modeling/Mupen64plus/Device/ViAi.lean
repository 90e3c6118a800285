import Mupen64plus.Device.Cheat
import Mupen64plus.Device.Rsp

/-!
# The video and audio interfaces

`vi_controller.c` and `ai_controller.c`: the vertical interrupt, which repeats itself, and the two
buffers of samples the audio interface plays.

## Main definitions

- `setViVerticalInterrupt`, `viVerticalInterruptEvent`, `readViRegs`, `writeViRegs`
- `aiFifoPush`, `aiFifoPop`, `aiEndOfDmaEvent`, `readAiRegs`, `writeAiRegs`
-/

namespace Mupen64plus

namespace Device

-- ════════════════════════════════════════════════════════════════════════
-- Video
-- ════════════════════════════════════════════════════════════════════════

/-- `set_vi_vertical_interrupt`. -/
def setViVerticalInterrupt (d : Device) : Device :=
  if (getEvent d.cp0.q .vi).isNone ∧ d.vi.regs .vIntr < d.vi.regs .vSync then
    d.updateCount.addEvent .vi d.vi.delay
  else d

/-- `poweron_vi`. -/
def powerOnVi (d : Device) : Device :=
  { d with vi := { d.vi with
      regs := fun _ => 0
      field := 0
      delay := if d.vi.countPerScanlineOverride = 0 then 0 else 5000
      countPerScanline := d.vi.countPerScanlineOverride } }

/-- The line the beam is on, as `read_vi_regs` computes it. -/
def viCurrentLine (d : Device) (nextVi : BitVec 32) : BitVec 32 :=
  let current := (d.vi.delay - (nextVi - d.cp0.count)) / d.vi.countPerScanline
  if d.vi.regs .vSync ≤ current then current - d.vi.regs .vSync else current

/-- `read_vi_regs`. -/
def readViRegs (d : Device) (address : BitVec 32) : BitVec 32 × Device :=
  match regAt ViReg.block address with
  | none => (0, d)
  | some .current =>
    let d :=
      match getEvent d.cp0.q .vi with
      | none => d
      | some nextVi =>
        let d := d.updateCount
        d.setVi .current (d.viCurrentLine nextVi)
    let d := d.setVi .current ((d.vi.regs .current &&& ~~~1) ||| d.vi.field)
    (d.vi.regs .current, d)
  | some reg => (d.vi.regs reg, d)

/-- The lengths of a line and of a frame, from `VI_V_SYNC_REG`. -/
def viTiming (d : Device) : Device :=
  let lines := d.vi.regs .vSync + 1
  let countPerScanline :=
    if d.vi.countPerScanlineOverride = 0 then d.vi.clock / d.vi.expectedRefreshRate / lines
    else d.vi.countPerScanlineOverride
  { d with vi := { d.vi with
      countPerScanline := countPerScanline, delay := lines * countPerScanline } }

/-- `write_vi_regs`. -/
def writeViRegs (d : Device) (address value mask : BitVec 32) : Device :=
  match regAt ViReg.block address with
  | none => d
  | some .current => d.clearRcpInterrupt miIntrVI
  | some .vSync =>
    if d.vi.regs .vSync &&& mask ≠ value &&& mask then
      (d.setVi .vSync (maskedWrite (d.vi.regs .vSync) value mask)).viTiming.setViVerticalInterrupt
    else d
  | some .vIntr =>
    (d.setVi .vIntr (maskedWrite (d.vi.regs .vIntr) value mask)).setViVerticalInterrupt
  | some reg => d.setVi reg (maskedWrite (d.vi.regs reg) value mask)

/-- The delay of the next vertical interrupt. -/
def viNextDelay (d : Device) : BitVec 32 :=
  if d.vi.countPerScanlineOverride = 0 then d.vi.delay
  else if d.vi.regs .vSync = 0 then 500000
  else (d.vi.regs .vSync + 1) * d.vi.countPerScanline

/-- `vi_vertical_interrupt_event`, with its event at the head of the queue. -/
def viVerticalInterruptEvent (o : Outside) (d : Device) : Device :=
  let d :=
    if d.dp.doOnUnfreeze &&& 0x001 ≠ 0 then
      { d with dp := { d.dp with doOnUnfreeze := d.dp.doOnUnfreeze ||| 0x002 } }
    else d
  let d := gsApplyCheats o d
  let d := { d with vi := { d.vi with
    field := d.vi.field ^^^ ((d.vi.regs .status >>> 6) &&& 0x1)
    delay := d.viNextDelay } }
  let nextVi := (getEvent d.cp0.q .vi).getD 0 + d.vi.delay
  let d := d.onCp0 fun c => addInterruptEventCount (removeInterruptEvent c) .vi nextVi
  d.raiseRcpInterrupt miIntrVI

-- ════════════════════════════════════════════════════════════════════════
-- Audio
-- ════════════════════════════════════════════════════════════════════════

def aiStatusBusy : BitVec 32 := 0x40000000
def aiStatusFull : BitVec 32 := 0x80000000

def setAiFifo (d : Device) (i : Fin 2) (dma : AiDma) : Device :=
  { d with ai := { d.ai with fifo := Function.update d.ai.fifo i dma } }

/-- `get_remaining_dma_length`; the count is brought up to date unless nothing was queued yet. -/
def aiRemainingLength (d : Device) : BitVec 32 × Device :=
  let dma := d.ai.fifo 0
  if dma.duration = 0 then (0, d)
  else
    let d := d.updateCount
    match getEvent d.cp0.q .ai with
    | none => (0, d)
    | some next =>
      if 0 ≤ (d.cp0.count - next).toInt then (0, d)
      else
        let remaining := (next - d.cp0.count).zeroExtend 64
        let length := remaining * dma.length.zeroExtend 64 / dma.duration.zeroExtend 64
        ((length &&& ~~~7).truncate 32, d)

/-- `get_dma_duration`. -/
def aiDmaDuration (d : Device) : BitVec 32 :=
  let samplesPerSec := d.vi.clock / (1 + d.ai.regs .dacrate)
  let cpuCountsPerSec :=
    if d.vi.delay = 0 then d.vi.clock else d.vi.delay * d.vi.expectedRefreshRate
  d.ai.regs .len * (cpuCountsPerSec / (4 * samplesPerSec))

/-- The bytes `push_samples` is given: `n` bytes of the first buffer, from `diff` on. -/
def aiSamples (d : Device) (diff n : BitVec 32) : List (BitVec 8) :=
  let start := (d.ai.fifo 0).address.toNat / 4 * 4 + diff.toNat
  (List.range n.toNat).map fun j => d.rdram.dram.byte ((start + j) ^^^ 3)

/-- `push_samples`, and what is left to be played. -/
def aiPush (d : Device) (diff n lastRead : BitVec 32) : Device :=
  { d with ai := { d.ai with
      pushed := d.ai.pushed ++ d.aiSamples diff n, lastRead := lastRead } }

/-- The lazy initialization of the sample format in `do_dma`. -/
def aiFormat (d : Device) : Device :=
  if d.ai.samplesFormatChanged ≠ 0 then
    { d with ai := { d.ai with
        frequency :=
          if d.ai.regs .dacrate = 0 then 44100 else d.vi.clock / (1 + d.ai.regs .dacrate)
        samplesFormatChanged := 0 } }
  else d

/-- `do_dma` on the first buffer. -/
def aiDoDma (d : Device) : Device :=
  let d := d.aiFormat
  let dma := d.ai.fifo 0
  let address := if d.ai.delayedCarry ≠ 0 then dma.address + 0x2000 else dma.address
  let d := d.setAiFifo 0 { dma with address := address }
  let d := { d with ai := { d.ai with
    lastRead := dma.length
    delayedCarry := if (address + dma.length) &&& 0x1FFF = 0 then 1 else 0 } }
  d.updateCount.addEvent .ai dma.duration

/-- `fifo_push` of the audio interface. -/
def aiFifoPush (d : Device) : Device :=
  let dma : AiDma :=
    { address := d.ai.regs .dramAddr
      length := d.ai.regs .len &&& ~~~7
      duration := d.ai.dmaModifier d.aiDmaDuration }
  if d.ai.regs .status &&& aiStatusBusy ≠ 0 then
    (d.setAiFifo 1 dma).setAi .status (d.ai.regs .status ||| aiStatusFull)
  else ((d.setAiFifo 0 dma).setAi .status (d.ai.regs .status ||| aiStatusBusy)).aiDoDma

/-- `fifo_pop` of the audio interface. -/
def aiFifoPop (d : Device) : Device :=
  if d.ai.regs .status &&& aiStatusFull ≠ 0 then
    let d := d.setAiFifo 0 (d.ai.fifo 1)
    (d.setAi .status (d.ai.regs .status &&& ~~~aiStatusFull)).aiDoDma
  else
    let d := d.setAi .status (d.ai.regs .status &&& ~~~aiStatusBusy)
    { d with ai := { d.ai with delayedCarry := 0 } }

/-- `poweron_ai`. -/
def powerOnAi (d : Device) : Device :=
  { d with ai := { d.ai with
      regs := fun _ => 0
      fifo := fun _ => ⟨0, 0, 0⟩
      samplesFormatChanged := 0
      lastRead := 0
      delayedCarry := 0 } }

/-- `read_ai_regs`. -/
def readAiRegs (d : Device) (address : BitVec 32) : BitVec 32 × Device :=
  match regAt AiReg.block address with
  | none => (0, d)
  | some .len =>
    let (value, d) := d.aiRemainingLength
    if value < d.ai.lastRead then
      (value, d.aiPush ((d.ai.fifo 0).length - d.ai.lastRead) (d.ai.lastRead - value) value)
    else (value, d)
  | some reg => (d.ai.regs reg, d)

/-- `write_ai_regs`. -/
def writeAiRegs (d : Device) (address value mask : BitVec 32) : Device :=
  match regAt AiReg.block address with
  | none => d
  | some .len =>
    let d := d.setAi .len (maskedWrite (d.ai.regs .len) value mask)
    if d.ai.regs .len ≠ 0 then d.aiFifoPush else d
  | some .status => d.clearRcpInterrupt miIntrAI
  | some .dacrate =>
    let d' := d.setAi .dacrate (maskedWrite (d.ai.regs .dacrate) value mask)
    if d.ai.regs .dacrate ≠ value &&& mask then
      { d' with ai := { d'.ai with samplesFormatChanged := 1 } }
    else d'
  | some reg => d.setAi reg (maskedWrite (d.ai.regs reg) value mask)

/-- `ai_end_of_dma_event`. -/
def aiEndOfDmaEvent (d : Device) : Device :=
  let d := if d.ai.lastRead ≠ 0 then
      d.aiPush ((d.ai.fifo 0).length - d.ai.lastRead) d.ai.lastRead 0
    else d
  d.aiFifoPop.raiseRcpInterrupt miIntrAI

end Device

end Mupen64plus
