import Mupen64plus.Device.Bus
import Mupen64plus.Device.Savestate

/-!
# Power on, resets and the dispatch of events

`poweron_device`, `pif_bootrom_hle_execute` and `gen_interrupt`, with the handlers that belong to
no single device.

## Main definitions

- `powerOnDevice`, `bootromHle` — the state of the console when its program starts
- `nmiIntHandler`, `resetHardHandler`, `softResetDevice` — resets
- `interruptHandler`, `genInterrupt` — dispatch of the event at the head of the queue
- `store` — a write of the CPU, over `genInterrupt`
-/

namespace Mupen64plus

namespace Device

-- ════════════════════════════════════════════════════════════════════════
-- Power on
-- ════════════════════════════════════════════════════════════════════════

/-- `poweron_is_viewer`. -/
def powerOnIsViewer (d : Device) : Device :=
  { d with isViewer := fun i => if i < 0x1000 then 0 else d.isViewer i }

/-- `poweron_device`. -/
def powerOnDevice (o : Outside) (d : Device) : Device :=
  let d := d.powerOnRdram.onR4300 powerOnR4300
  let d := d.powerOnRdp.powerOnRsp.powerOnAi.powerOnMi.powerOnPi.powerOnRi.powerOnSi.powerOnVi
  let d := d.powerOnPif.powerOnCart.powerOnIsViewer
  let d := (List.finRange 4).foldl (fun d k => d.joybus (o.joybusPowerOn k)) d
  if 0 < d.dd.romSize then d.powerOnDd else d

/-- A store of `pif_bootrom_hle_execute`. None goes to the MIPS interface, so none dispatches. -/
def bootStore (o : Outside) (d : Device) (address value : BitVec 32) : Device :=
  (writeAlignedWord id o d address value 0xffffffff).2

/-- The instructions that `pif_bootrom_hle_execute` leaves in IMEM. -/
def bootImem : List (BitVec 32) :=
  [0x3c0dbfc0, 0x8da807fc, 0x25ad07c0, 0x31080080, 0x5500fffc, 0x3c0dbfc0, 0x8da80024, 0x3c0bb000]

/-- DMEM and IMEM after the boot ROM: IPL3 from the boot medium, and `bootImem`. -/
def bootSpMem (d : Device) (rom : Words) : Words := fun i =>
  if 0x10 ≤ i ∧ i < 0x400 then rom i
  else if 0x400 ≤ i ∧ i < 0x408 then bootImem.getD (i - 0x400) 0
  else d.sp.mem i

/-- The general registers as the boot ROM sets them, `pif24` being the word at `0x24` of PIF RAM. -/
def bootRegs (d : Device) (pif24 : BitVec 32) : Fin 32 → BitVec 64 := fun i =>
  match i.val with
  | 11 => 0xffffffffa4000040
  | 19 => ((pif24 >>> 19) &&& 0x01).zeroExtend 64
  | 20 => d.settings.tvType.zeroExtend 64
  | 21 => ((pif24 >>> 17) &&& 0x01).zeroExtend 64
  | 22 => ((pif24 >>> 8) &&& 0xff).zeroExtend 64
  | 23 => ((pif24 >>> 18) &&& 0x01).zeroExtend 64
  | 29 => 0xffffffffa4001ff0
  | 31 => 0xffffffffa4001550
  | _ => d.r4300.regs i

/-- The stores that stop the coprocessor, the peripheral interface, the screen and the sound. -/
def bootStop (o : Outside) (d : Device) : Device :=
  let d := bootStore o d 0xa4040010 0x0a
  let d := bootStore o d 0xa4600010 0x3
  let d := bootStore o d 0xa440000c 1023
  let d := bootStore o d 0xa4400010 0
  let d := bootStore o d 0xa4400024 0
  let d := bootStore o d 0xa4500000 0
  bootStore o d 0xa4500004 0

/-- The stores that set up the timing of the cartridge bus. -/
def bootDom1 (o : Outside) (d : Device) (config : BitVec 32) : Device :=
  let d := bootStore o d 0xa4600014 (config &&& 0xff)
  let d := bootStore o d 0xa4600018 ((config >>> 8) &&& 0xff)
  let d := bootStore o d 0xa460001c ((config >>> 16) &&& 0x0f)
  bootStore o d 0xa4600020 ((config >>> 20) &&& 0x03)

/-- `pif_bootrom_hle_execute`. -/
def bootromHle (o : Outside) (d : Device) : Device :=
  if d.r4300.startAddress = 0xbfc00000 then d
  else
    let d := d.onCp0 fun c => (c.set .status 0x34000000).set .config 0x7006e463
    let d := bootStop o d
    let (pif24, d) := readAlignedWord o d 0xbfc007e4
    let pif24 := pif24.getD o.garbage
    let d := d.onR4300 fun r => { r with regs := bootRegs d pif24 }
    let fromCart := (pif24 >>> 19) &&& 0x01 = 0
    let (config, d) := readAlignedWord o d (if fromCart then 0xb0000000 else 0xa6000000)
    let d := bootDom1 o d (config.getD o.garbage)
    let d := d.setSpMem (d.bootSpMem (if fromCart then d.cart.cartRom.rom else d.dd.rom))
    d.onCp0 fun c => { c with lastAddr := 0xa4000040 }

-- ════════════════════════════════════════════════════════════════════════
-- Resets
-- ════════════════════════════════════════════════════════════════════════

/-- The register writes of `nmi_int_handler` that set up Status. -/
def nmiStatus (status : BitVec 32) : BitVec 32 := (status &&& ~~~0x00380000) ||| 0x00500004

/-- The part of `nmi_int_handler` on the program counter: ErrorEPC and the jump. -/
def nmiJump (r : R4300) : R4300 :=
  let r := r.setCp0 .errorEpc r.pc
  let r := invalidateR4300CachedCode r 0 0
  let r := if r.inDelaySlot then r.setCp0 .errorEpc (r.cp0Reg .errorEpc - 4) else r
  let r := { r with delaySlot := 0, cp0 := { r.cp0 with lastAddr := r.startAddress } }
  genericJumpTo r r.startAddress

/-- `nmi_int_handler`. -/
def nmiIntHandler (o : Outside) (d : Device) : Device :=
  let d := d.resetPif 1
  let d := d.onCp0 fun c => (c.set .status (nmiStatus (c.regs .status))).set .cause 0
  let d := bootromHle o d
  let d := { d with gsViCounter := 0 }
  let d := d.onCp0 fun c => initInterrupt (c.set .count 0)
  let d := d.addEvent .vi d.vi.delay
  (d.setAi .status 0).onR4300 nmiJump

/-- `reset_hard_handler`. -/
def resetHardHandler (o : Outside) (d : Device) : Device :=
  let d := bootromHle o (powerOnDevice o d)
  let d := d.onCp0 fun c => initInterrupt
    { c with lastAddr := d.r4300.startAddress, nextInterrupt := 624999, cycleCount := 0 }
  let d := d.invalidate 0 0
  d.onR4300 fun r => genericJumpTo r r.cp0.lastAddr

/-- `soft_reset_device`. -/
def softResetDevice (d : Device) : Device := (d.addEvent .hw2 0).addEvent .nmi 50000000

-- ════════════════════════════════════════════════════════════════════════
-- Dispatch
-- ════════════════════════════════════════════════════════════════════════

/-- `remove_interrupt_event` on the core of a device. -/
def popEvent (d : Device) : Device := d.onCp0 removeInterruptEvent

/-- The `switch` of `gen_interrupt`. -/
def interruptHandler (o : Outside) (d : Device) : IntType → Device
  | .vi => viVerticalInterruptEvent o d
  | .compare => d.popEvent.onR4300 compareIntHandler
  | .check => d.popEvent.onR4300 checkIntHandler
  | .si => siEndOfDmaEvent o d.popEvent
  | .pi => d.popEvent.piEndOfDmaEvent
  | .special => d.onCp0 specialIntHandler
  | .ai => d.popEvent.aiEndOfDmaEvent
  | .sp => d.popEvent.rspInterruptEvent
  | .dp => d.popEvent.rdpInterruptEvent
  | .hw2 => d.popEvent.hw2IntHandler
  | .nmi => nmiIntHandler o d.popEvent
  | .rspDma => d.popEvent.rspEndOfDmaEvent
  | .ddMc => d.popEvent.ddMechaIntHandler
  | .ddBm => d.popEvent.ddUpdateBm
  | .ddDv => d.popEvent.ddDvIntHandler
  | .unknown _ => d.popEvent.onR4300 exceptionGeneral

/-- The dispatch of the head; callers of `gen_interrupt` hold a queue that is not empty. -/
def dispatch (o : Outside) (d : Device) : Device :=
  match d.cp0.q.events with
  | [] => d
  | e :: _ => interruptHandler o d e.type

/-- `savestates_load`; older formats than 1.3 leave the model. -/
def savestatesLoad (o : Outside) (data : List (BitVec 8)) (d : Device) : Device :=
  match savestatesLoadM64p o data d with
  | .loaded d => d
  | _ => d

/-- The branch of `gen_interrupt` that completes a jump out of a delay slot. -/
def completeJump (d : Device) : Device :=
  d.onR4300 fun r =>
    let dest := r.skipJump
    let r := { r with skipJump := 0, cp0 := { r.cp0.refresh with lastAddr := dest } }
    genericJumpTo r dest

/-- `gen_interrupt`. A save job changes nothing in the device. -/
def genInterrupt (o : Outside) (d : Device) : Device :=
  let d := if d.r4300.stop then { d with gsViCounter := 0 } else d
  match o.job, d.cp0.interruptUnsafeState == 0, d.r4300.resetHardJob with
  | .load data, true, _ => savestatesLoad o data d
  | _, true, true => resetHardHandler o d
  | _, _, _ => if d.r4300.skipJump ≠ 0 then d.completeJump else dispatch o d

/-- `r4300_write_aligned_word`, with whether no exception was raised. -/
def store (o : Outside) (d : Device) (address value mask : BitVec 32) : Bool × Device :=
  writeAlignedWord (genInterrupt o) o d address value mask

end Device

end Mupen64plus
