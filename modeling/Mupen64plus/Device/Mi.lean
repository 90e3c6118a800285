import Mupen64plus.R4300.CachedCode
import Mupen64plus.Device.State

/-!
# The MIPS interface

`mi_controller.c`: the interrupt register of the coprocessor, its mask, and the three ways a
device tells the CPU of an interrupt.

## Main definitions

- `raiseRcpInterrupt` — delivered at once, used by interrupt handlers only
- `signalRcpInterrupt`, `clearRcpInterrupt` — delivered by the event queue
- `readMiRegs`, `writeMiRegs`
-/

namespace Mupen64plus

def miIntrSP : BitVec 32 := 0x01
def miIntrSI : BitVec 32 := 0x02
def miIntrAI : BitVec 32 := 0x04
def miIntrVI : BitVec 32 := 0x08
def miIntrPI : BitVec 32 := 0x10
def miIntrDP : BitVec 32 := 0x20

/-- A bit of a register is cleared by one bit of the word written to it and set by another. -/
def clearSet (reg w clearBit setBit field : BitVec 32) : BitVec 32 :=
  let reg := if w &&& clearBit ≠ 0 then reg &&& ~~~field else reg
  if w &&& setBit ≠ 0 then reg ||| field else reg

/-- The register part of `update_mi_init_mode`. -/
def updateMiInitMode (reg w : BitVec 32) : BitVec 32 :=
  let reg := (reg &&& ~~~0x7f) ||| (w &&& 0x7f)
  let reg := clearSet reg w 0x80 0x100 0x80
  let reg := clearSet reg w 0x200 0x400 0x100
  clearSet reg w 0x1000 0x2000 0x200

/-- `update_mi_intr_mask`. -/
def updateMiIntrMask (reg w : BitVec 32) : BitVec 32 :=
  let reg := clearSet reg w 0x1 0x2 miIntrSP
  let reg := clearSet reg w 0x4 0x8 miIntrSI
  let reg := clearSet reg w 0x10 0x20 miIntrAI
  let reg := clearSet reg w 0x40 0x80 miIntrVI
  let reg := clearSet reg w 0x100 0x200 miIntrPI
  clearSet reg w 0x400 0x800 miIntrDP

namespace Device

/-- `MI_INTR & MI_INTR_MASK`, as a condition. -/
def rcpPending (d : Device) : Bool := d.mi.regs .intr &&& d.mi.regs .intrMask != 0

/-- `r4300_check_interrupt(r4300, CP0_CAUSE_IP2, MI_INTR & MI_INTR_MASK)`. -/
def checkRcp (d : Device) : Device :=
  d.onCp0 fun c => r4300CheckInterrupt c causeIP2 d.rcpPending

/-- `raise_rcp_interrupt`. -/
def raiseRcpInterrupt (d : Device) (intr : BitVec 32) : Device :=
  let d := d.setMi .intr (d.mi.regs .intr ||| intr)
  if d.rcpPending then d.onR4300 fun r => raiseMaskableInterrupt r causeIP2 else d

/-- `signal_rcp_interrupt`. -/
def signalRcpInterrupt (d : Device) (intr : BitVec 32) : Device :=
  (d.setMi .intr (d.mi.regs .intr ||| intr)).checkRcp

/-- `clear_rcp_interrupt`. -/
def clearRcpInterrupt (d : Device) (intr : BitVec 32) : Device :=
  (d.setMi .intr (d.mi.regs .intr &&& ~~~intr)).checkRcp

/-- `cp0_update_count` on the core of a device. -/
def updateCount (d : Device) : Device := d.onR4300 cp0UpdateCount

/-- `add_interrupt_event` on the core of a device. -/
def addEvent (d : Device) (type : IntType) (delay : BitVec 32) : Device :=
  d.onCp0 fun c => addInterruptEvent c type delay

/-- `remove_event` on the core of a device. -/
def dropEvent (d : Device) (type : IntType) : Device :=
  d.onCp0 fun c => { c with q := removeEvent c.q type }

/-- `invalidate_r4300_cached_code` on the core of a device. -/
def invalidate (d : Device) (address size : BitVec 32) : Device :=
  d.onR4300 fun r => invalidateR4300CachedCode r address size

/-- `poweron_mi`. -/
def powerOnMi (d : Device) : Device :=
  { d with mi := ⟨fun reg => if reg = .version then 0x02020102 else 0⟩ }

/-- `read_mi_regs`. -/
def readMiRegs (d : Device) (address : BitVec 32) : BitVec 32 :=
  ((regAt MiReg.block address).map d.mi.regs).getD 0

/-- `write_mi_regs`, over `gen_interrupt`. -/
def writeMiRegs (genInterrupt : Device → Device) (d : Device) (address value mask : BitVec 32) :
    Device :=
  match regAt MiReg.block address with
  | some .initMode =>
    let d := d.setMi .initMode (updateMiInitMode (d.mi.regs .initMode) (value &&& mask))
    if value &&& mask &&& 0x800 ≠ 0 then d.clearRcpInterrupt miIntrDP else d
  | some .intrMask =>
    let d := d.setMi .intrMask (updateMiIntrMask (d.mi.regs .intrMask) (value &&& mask))
    let d := d.checkRcp
    let d := d.updateCount
    if 0 ≤ d.cp0.cycleCount.toInt then genInterrupt d else d
  | _ => d

end Device

end Mupen64plus
