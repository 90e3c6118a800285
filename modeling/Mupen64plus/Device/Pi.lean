import Mupen64plus.Device.Dd

/-!
# The peripheral interface

`pi_controller.c` and `get_pi_dma_handler` of `device.c`: DMA between RDRAM and whatever sits on
the cartridge bus, one transfer at a time.

## Main definitions

- `PiDomain`, `getPiDmaHandler` — who answers at a bus address
- `dmaPiRead`, `dmaPiWrite`, `piEndOfDmaEvent`
- `readPiRegs`, `writePiRegs`
-/

namespace Mupen64plus

/-- The devices `get_pi_dma_handler` chooses from; both cartridge domains share one handler. -/
inductive PiDomain where
  | cartRom | cartDom2 | dd
  deriving DecidableEq, Repr

/-- `get_pi_dma_handler`. -/
def getPiDmaHandler (address : BitVec 32) : Option PiDomain :=
  if 0x10000000 ≤ address then some .cartRom
  else if 0x08000000 ≤ address then some .cartDom2
  else if 0x05000000 ≤ address then some .dd
  else none

namespace Device

/-- The `dma_read` callback of a domain. -/
def piDmaRead (d : Device) (dom : PiDomain) (dramAddr cartAddr length : BitVec 32) :
    Device × BitVec 32 :=
  match dom with
  | .cartRom => d.cartRomDmaRead dramAddr cartAddr length
  | .cartDom2 => d.cartDom2DmaRead dramAddr cartAddr length
  | .dd => d.ddDomDmaRead dramAddr cartAddr length

/-- The `dma_write` callback of a domain. -/
def piDmaWrite (o : Outside) (d : Device) (dom : PiDomain) (dramAddr cartAddr length : BitVec 32) :
    Device × BitVec 32 :=
  match dom with
  | .cartRom => cartRomDmaWrite o d dramAddr cartAddr length
  | .cartDom2 => d.cartDom2DmaWrite dramAddr cartAddr length
  | .dd => d.ddDomDmaWrite dramAddr cartAddr length

/-- The bus address of a transfer. -/
def piCartAddr (d : Device) : BitVec 32 := d.pi.regs .cartAddr &&& ~~~1

/-- The RDRAM address of a transfer. -/
def piDramAddr (d : Device) : BitVec 32 := d.pi.regs .dramAddr &&& 0xfffffe

/-- The end of `dma_pi_read` and `dma_pi_write`: the busy flag, the addresses behind the transfer
    and its completion event. -/
def piStarted (d : Device) (length cycles : BitVec 32) : Device :=
  let d := d.setPi .status (d.pi.regs .status ||| piStatusDmaBusy)
  let d := d.setPi .dramAddr ((d.pi.regs .dramAddr + length + 7) &&& ~~~7)
  let d := d.setPi .cartAddr ((d.pi.regs .cartAddr + length + 1) &&& ~~~1)
  d.updateCount.addEvent .pi cycles

/-- The length a register asks for, evened when it is long. -/
def piLength (reg : BitVec 32) : BitVec 32 :=
  let length := (reg &&& 0x00ffffff) + 1
  if 0x7f ≤ length ∧ length &&& 1 ≠ 0 then length + 1 else length

/-- `dma_pi_read`. -/
def dmaPiRead (d : Device) : Device :=
  if !d.piIdle then d.setPiError
  else
    match getPiDmaHandler d.piCartAddr with
    | none => d
    | some dom =>
      let length := piLength (d.pi.regs .rdLen)
      let (d, cycles) := d.piDmaRead dom d.piDramAddr d.piCartAddr length
      d.piStarted length cycles

/-- The length of a transfer to RDRAM: short ones lose what the start address is off by. -/
def piWriteLength (d : Device) : BitVec 32 :=
  let length := piLength (d.pi.regs .wrLen)
  if length ≤ 0x80 then length - (d.piDramAddr &&& 0x7) else length

/-- `dma_pi_write`. -/
def dmaPiWrite (o : Outside) (d : Device) : Device :=
  if !d.piIdle then d.setPiError
  else
    match getPiDmaHandler d.piCartAddr with
    | none => d
    | some dom =>
      let length := d.piWriteLength
      let (d, cycles) := piDmaWrite o d dom d.piDramAddr d.piCartAddr length
      d.piStarted length cycles

/-- `poweron_pi`. -/
def powerOnPi (d : Device) : Device := { d with pi := ⟨fun _ => 0⟩ }

/-- `read_pi_regs`. -/
def readPiRegs (d : Device) (address : BitVec 32) : BitVec 32 :=
  match regAt PiReg.block address with
  | none => 0
  | some .wrLen | some .rdLen => 0x7f
  | some .cartAddr => d.pi.regs .cartAddr &&& 0xfffffffe
  | some .dramAddr => d.pi.regs .dramAddr &&& 0xfffffe
  | some reg => d.pi.regs reg

/-- A write to `PI_STATUS_REG`, which clears the interrupt or resets the controller. -/
def writePiStatus (d : Device) (w : BitVec 32) : Device :=
  let d := if w &&& 0x02 ≠ 0 then
      (d.setPi .status (d.pi.regs .status &&& ~~~piStatusInterrupt)).clearRcpInterrupt miIntrPI
    else d
  if w &&& 0x01 ≠ 0 then d.setPi .status 0 else d

/-- `write_pi_regs`. -/
def writePiRegs (o : Outside) (d : Device) (address value mask : BitVec 32) : Device :=
  match regAt PiReg.block address with
  | none => d
  | some .rdLen => (d.setPi .rdLen (maskedWrite (d.pi.regs .rdLen) value mask)).dmaPiRead
  | some .wrLen => dmaPiWrite o (d.setPi .wrLen (maskedWrite (d.pi.regs .wrLen) value mask))
  | some .status => d.writePiStatus (value &&& mask)
  | some .dramAddr => d.setPi .dramAddr (maskedWrite (d.pi.regs .dramAddr) value mask)
  | some .cartAddr => d.setPi .cartAddr (maskedWrite (d.pi.regs .cartAddr) value mask)
  | some reg => d.setPi reg (maskedWrite (d.pi.regs reg) (value &&& 0xff) mask)

/-- `pi_end_of_dma_event`. -/
def piEndOfDmaEvent (d : Device) : Device :=
  let status := d.pi.regs .status &&& ~~~(piStatusDmaBusy ||| piStatusIoBusy)
  (d.setPi .status (status ||| piStatusInterrupt)).raiseRcpInterrupt miIntrPI

end Device

end Mupen64plus
