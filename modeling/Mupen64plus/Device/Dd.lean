import Mupen64plus.Device.Cart
import Mupen64plus.Device.Disk

/-!
# The 64DD

`dd_controller.c`: the commands of the drive, the buffer manager that moves sectors one event at a
time, and the timer that puts the motor to standby and to sleep.

## Main definitions

- `ddDvActive`, `ddDvStandby`, `ddDvSleep` — the modes of the motor; each drops the queued timer
- `ddUpdateBm` — one sector of a block transfer
- `readDdRegs`, `writeDdRegs`, with `ddCommand`, `ddBmControl` and `ddHardReset`
- `ddDomDmaRead`, `ddDomDmaWrite` — PI DMA with the buffers and the ROM of the drive
-/

namespace Mupen64plus

def ddStatusDataRq : BitVec 32 := 0x40000000
def ddStatusC2Xfer : BitVec 32 := 0x10000000
def ddStatusBmErr : BitVec 32 := 0x08000000
def ddStatusBmInt : BitVec 32 := 0x04000000
def ddStatusMechaInt : BitVec 32 := 0x02000000
def ddStatusDiskPres : BitVec 32 := 0x01000000
def ddStatusBusyState : BitVec 32 := 0x00800000
def ddStatusRstState : BitVec 32 := 0x00400000
def ddStatusMtrNSpin : BitVec 32 := 0x00100000
def ddStatusHeadRtrct : BitVec 32 := 0x00080000
def ddStatusWrPrErr : BitVec 32 := 0x00040000
def ddStatusDiskChng : BitVec 32 := 0x00010000

def ddBmStatusRunning : BitVec 32 := 0x80000000
def ddBmStatusMicro : BitVec 32 := 0x02000000
def ddBmStatusBlock : BitVec 32 := 0x01000000

def ddBmCtlStart : BitVec 32 := 0x80000000
def ddBmCtlReset : BitVec 32 := 0x10000000
def ddBmCtlBlkTrans : BitVec 32 := 0x02000000
def ddBmCtlMechaRst : BitVec 32 := 0x01000000

def ddTrackLock : BitVec 32 := 0x60000000

def mmDdC2sBuffer : BitVec 32 := 0x05000000
def mmDdDsBuffer : BitVec 32 := 0x05000400
def mmDdRegs : BitVec 32 := 0x05000500
def mmDdMsRam : BitVec 32 := 0x05000580
def mmDdRom : BitVec 32 := 0x06000000

/-- `startTrackZones` of `write_dd_regs`. -/
def startTrackZones : List (BitVec 32) := trackZoneStart ++ [0x497]

/-- `byte2bcd`. -/
def byte2bcd (n : ℕ) : BitVec 8 := BitVec.ofNat 8 ((n % 100 / 10) <<< 4 ||| n % 10)

/-- `time2data`. -/
def time2data (hi lo : ℕ) : BitVec 32 :=
  ((byte2bcd hi).zeroExtend 32 <<< 24) ||| ((byte2bcd lo).zeroExtend 32 <<< 16)

/-- `update_rtc`. -/
def DdRtc.update (rtc : DdRtc) (now : BitVec 64) : DdRtc :=
  { now := rtc.now + (now - rtc.lastUpdateRtc), lastUpdateRtc := now }

/-- The number of cycles a PI DMA with the drive takes. -/
def ddDmaCycles (length : BitVec 32) : BitVec 32 := (length * 63) / 25

namespace Device

abbrev ddReg (d : Device) (reg : DdReg) : BitVec 32 := d.dd.regs reg

def setDdBits (d : Device) (reg : DdReg) (bits : BitVec 32) : Device :=
  d.setDd reg (d.ddReg reg ||| bits)

def clearDdBits (d : Device) (reg : DdReg) (bits : BitVec 32) : Device :=
  d.setDd reg (d.ddReg reg &&& ~~~bits)

/-- `signal_dd_interrupt`. -/
def signalDdInterrupt (d : Device) (bmInt : BitVec 32) : Device :=
  (d.setDdBits .cmdStatus bmInt).onCp0 fun c => r4300CheckInterrupt c causeIP3 true

/-- `clear_dd_interrupt`. -/
def clearDdInterrupt (d : Device) (bmInt : BitVec 32) : Device :=
  (d.clearDdBits .cmdStatus bmInt).onCp0 fun c => r4300CheckInterrupt c causeIP3 false

/-- `dd_mecha_int_handler`. -/
def ddMechaIntHandler (d : Device) : Device :=
  (d.clearDdBits .cmdStatus ddStatusBusyState).signalDdInterrupt ddStatusMechaInt

-- ════════════════════════════════════════════════════════════════════════
-- The motor
-- ════════════════════════════════════════════════════════════════════════

/-- The end of `dd_dv_active` and `dd_dv_standby`: the motor timer is started anew, unless its
    delay is disabled. -/
def rearmMotor (d : Device) (timer : BitVec 16) : Device :=
  let d := d.dropEvent .ddDv
  if 0 ≤ timer.toInt then d.addEvent .ddDv (46875000 * timer.signExtend 32) else d

/-- `dd_dv_active`. -/
def ddDvActive (d : Device) : Device :=
  (d.clearDdBits .cmdStatus (ddStatusMtrNSpin ||| ddStatusHeadRtrct)).rearmMotor d.dd.timerStandby

/-- `dd_dv_standby`. -/
def ddDvStandby (d : Device) : Device :=
  let d := d.clearDdBits .cmdStatus ddStatusMtrNSpin
  (d.setDdBits .cmdStatus ddStatusHeadRtrct).rearmMotor d.dd.timerSleep

/-- `dd_dv_sleep`. -/
def ddDvSleep (d : Device) : Device :=
  (d.setDdBits .cmdStatus (ddStatusMtrNSpin ||| ddStatusHeadRtrct)).dropEvent .ddDv

/-- `dd_dv_int_handler`; the mode is read once, before either branch. -/
def ddDvIntHandler (d : Device) : Device :=
  let motorNotSpinning := d.ddReg .cmdStatus &&& ddStatusMtrNSpin != 0
  let headRetracted := d.ddReg .cmdStatus &&& ddStatusHeadRtrct != 0
  if motorNotSpinning then d
  else if headRetracted then d.ddDvSleep
  else d.ddDvStandby

def motorStopped (d : Device) : Bool :=
  d.ddReg .cmdStatus &&& (ddStatusMtrNSpin ||| ddStatusHeadRtrct) != 0

-- ════════════════════════════════════════════════════════════════════════
-- The buffer manager
-- ════════════════════════════════════════════════════════════════════════

/-- The sector counter of `DD_ASIC_CUR_SECTOR`, over both blocks of a track. -/
def curSector (d : Device) : BitVec 32 := (d.ddReg .curSector >>> 16) &&& 0xff

/-- `read_C2`. -/
def readC2 (d : Device) : Device :=
  let length := zoneSecSize.getD d.dd.bmZone.toNat 0
  let offset := 0x40 * ((d.curSector % 90).toNat - 85)
  { d with dd := { d.dd with c2sBuf := fun k =>
      if offset ≤ k ^^^ 3 ∧ k ^^^ 3 < offset + length then 0 else d.dd.c2sBuf k } }

/-- `seek_sector`. -/
def seekSector (d : Device) : Option ℕ × Device :=
  let head := (d.ddReg .curTk &&& 0x10000000) >>> 28
  let track := (d.ddReg .curTk &&& 0x0fff0000) >>> 16
  let sector := d.curSector - d.dd.bmWrite.zeroExtend 32
  match d.dd.disk.bind fun disk => getSectorBase disk head track (sector / 90) (sector % 90) with
  | some base => (some base, d)
  | none => (none, d.setDdBits .bmStatusCtl ddBmStatusMicro)

/-- The number of bytes of a sector, as the host has set it. -/
def hostSecLength (d : Device) : ℕ := (d.ddReg .hostSecbyte).toNat + 1

/-- `read_sector`. -/
def readSector (d : Device) : Device :=
  match d.seekSector with
  | (none, d) => d
  | (some base, d) =>
    let data := (d.dd.disk.map (·.data)).getD fun _ => 0
    { d with dd := { d.dd with dsBuf := fun k =>
        if k ^^^ 3 < d.hostSecLength then data (base + (k ^^^ 3)) else d.dd.dsBuf k } }

/-- `write_sector`. -/
def writeSector (d : Device) : Device :=
  match d.seekSector with
  | (none, d) => d
  | (some base, d) =>
    let put (disk : DdDisk) : DdDisk :=
      { disk with data := fun k =>
          if base ≤ k ∧ k < base + d.hostSecLength then d.dd.dsBuf ((k - base) ^^^ 3)
          else disk.data k }
    { d with dd := { d.dd with disk := d.dd.disk.map put } }

def nextSector (d : Device) : Device := d.setDd .curSector (d.ddReg .curSector + 0x10000)

/-- The first sector of the other block of the track. -/
def otherBlock (d : Device) (sector : BitVec 32) : BitVec 32 :=
  ((1 - d.curSector / 90) * 90 + sector) <<< 16

def blockPending (d : Device) : Bool := d.ddReg .bmStatusCtl &&& ddBmStatusBlock != 0

/-- The writing branch of `dd_update_bm`. -/
def bmWriteStep (d : Device) : Device :=
  let sector := d.curSector % 90
  if d.ddReg .cmdStatus &&& ddStatusWrPrErr ≠ 0 then
    let d := d.setDdBits .cmdStatus ddStatusBmErr
    let d := d.setDdBits .bmStatusCtl ddBmStatusMicro
    d.clearDdBits .bmStatusCtl ddBmStatusRunning
  else if sector = 0 then d.nextSector.setDdBits .cmdStatus ddStatusDataRq
  else if sector < 85 then d.writeSector.nextSector.setDdBits .cmdStatus ddStatusDataRq
  else if sector < 86 then
    let next := d.otherBlock 1
    let d := d.writeSector
    if d.blockPending then
      let d := d.setDd .curSector next
      let d := d.clearDdBits .bmStatusCtl ddBmStatusBlock
      d.setDdBits .cmdStatus ddStatusDataRq
    else d.nextSector.clearDdBits .bmStatusCtl ddBmStatusRunning
  else d

/-- The reading branch of `dd_update_bm`. -/
def bmReadStep (d : Device) : Device :=
  let sector := d.curSector % 90
  let block := d.curSector / 90
  let development := (d.dd.disk.map (·.development)).getD false
  if (d.ddReg .curTk >>> 16) &&& 0x1fff = 6 ∧ block = 0 ∧ !development then
    (d.clearDdBits .cmdStatus ddStatusDataRq).setDdBits .bmStatusCtl ddBmStatusMicro
  else if sector < 85 then d.readSector.nextSector.setDdBits .cmdStatus ddStatusDataRq
  else if sector < 88 then d.readC2.nextSector
  else if sector = 88 then
    let next := d.otherBlock 0
    let d := d.readC2.setDdBits .cmdStatus ddStatusC2Xfer
    if d.blockPending then (d.setDd .curSector next).clearDdBits .bmStatusCtl ddBmStatusBlock
    else d.clearDdBits .bmStatusCtl ddBmStatusRunning
  else d

/-- `dd_update_bm`, which is `dd_bm_int_handler`. -/
def ddUpdateBm (d : Device) : Device :=
  if d.ddReg .bmStatusCtl &&& ddBmStatusRunning = 0 then d
  else
    let d := d.clearDdBits .cmdStatus (ddStatusDataRq ||| ddStatusC2Xfer)
    let d := if d.dd.bmWrite ≠ 0 then d.bmWriteStep else d.bmReadStep
    d.ddDvActive.signalDdInterrupt ddStatusBmInt

-- ════════════════════════════════════════════════════════════════════════
-- Registers
-- ════════════════════════════════════════════════════════════════════════

/-- `dd_reg`, for an address in the range of the registers. -/
def ddRegAt (address : BitVec 32) : Option DdReg := DdReg.block[((address &&& 0xff) >>> 2).toNat]?

def isDdReg (address : BitVec 32) : Bool := mmDdRegs ≤ address && address < mmDdMsRam

/-- `read_dd_regs`. Reading the status acknowledges the interrupt of the buffer manager and
    schedules its next sector. -/
def readDdRegs (d : Device) (address : BitVec 32) : BitVec 32 × Device :=
  if !isDdReg address then (0, d)
  else
    match ddRegAt address with
    | none => (0, d)
    | some .cmdStatus =>
      let d := if d.dd.disk.isSome then d.setDdBits .cmdStatus ddStatusDiskPres
        else d.clearDdBits .cmdStatus ddStatusDiskPres
      let value := d.ddReg .cmdStatus
      if value &&& ddStatusBmInt ≠ 0 then
        let d := d.clearDdInterrupt ddStatusBmInt
        (value, d.addEvent .ddBm (8020 + ((d.ddReg .curTk &&& 0x0fff0000) >>> 16) / 56))
      else (value, d)
    | some reg => (d.ddReg reg, d)

/-- The track a seek ends on, with the zone, and the cycles its head movement takes. -/
def seekTrack (d : Device) (tk : BitVec 32) (bmWrite : BitVec 8) : Device × BitVec 32 :=
  let base := if d.motorStopped then 248250 + 501750 else 248250
  let d := d.ddDvActive
  let oldTrack := (d.ddReg .curTk &&& 0x0fff0000) >>> 16
  let d := d.setDd .curTk (tk ||| ddTrackLock)
  let head := (d.ddReg .curTk &&& 0x10000000) >>> 28
  let track := (d.ddReg .curTk &&& 0x0fff0000) >>> 16
  let bmZone := (getZoneFromHeadTrack head track - head) + 8 * head
  let moved := if track < oldTrack then oldTrack - track else track - oldTrack
  ({ d with dd := { d.dd with bmWrite := bmWrite, bmZone := bmZone } }, base + 4825 * moved)

/-- The write protection test of a seek. The table has no entry for head 0 of disk type 6. -/
def seekProtected (o : Outside) (d : Device) : Bool :=
  let head := (d.ddReg .curTk &&& 0x10000000) >>> 28
  let track := (d.ddReg .curTk &&& 0x0fff0000) >>> 16
  let i := (d.dd.diskType &&& 0xf).zeroExtend 32 - head + 3
  track < startTrackZones.getD i.toNat (o.garbage &&& 0xffff)

/-- The `switch` of `write_dd_regs` over the command, with the cycles the command takes. -/
def ddCommand (o : Outside) (d : Device) (value : BitVec 32) : Device × BitVec 32 :=
  let tm := o.localtime d.dd.rtc.now
  let data := d.ddReg .data
  match ((value >>> 16) &&& 0xff).toNat with
  | 0x01 | 0x02 =>
    let (d, cycles) := d.seekTrack data (((value >>> 17) &&& 0x1).truncate 8)
    let d := d.clearDdBits .cmdStatus ddStatusWrPrErr
    if d.dd.bmWrite ≠ 0 ∧ seekProtected o d then (d.setDdBits .cmdStatus ddStatusWrPrErr, cycles)
    else (d, cycles)
  | 0x03 | 0x05 => d.seekTrack 0 1
  | 0x04 => (d.ddDvSleep, if d.motorStopped then 207500 else 2000)
  | 0x06 =>
    ({ d with dd := { d.dd with timerStandby :=
        if data &&& 0x01000000 = 0 then ((data >>> 16) &&& 0xff).truncate 16 else -1 } }, 2000)
  | 0x07 =>
    ({ d with dd := { d.dd with timerSleep :=
        if data &&& 0x01000000 = 0 then ((data >>> 16) &&& 0xff).truncate 16 else -1 } }, 2000)
  | 0x08 => (d.clearDdBits .cmdStatus ddStatusDiskChng, 2000)
  | 0x09 => (d.clearDdBits .cmdStatus (ddStatusRstState ||| ddStatusDiskChng), 2000)
  | 0x0a =>
    let development := (d.dd.disk.map (·.development)).getD false
    (d.setDd .data (if data = 0 then if development then 0x11140000 else 0x01140000
      else 0x53000000), 2000)
  | 0x0b =>
    let type := ((data >>> 16) &&& 0xf).truncate 8
    ({ d with dd := { d.dd with diskType := if 6 < type then 6 else type } }, 2000)
  | 0x0c => (d.setDd .data 0, 2000)
  | 0x0d => (d.ddDvStandby, if d.motorStopped then 160000 else 2000)
  | 0x12 => (d.setDd .data (time2data tm.year (tm.mon + 1)), 2000)
  | 0x13 => (d.setDd .data (time2data tm.mday tm.hour), 2000)
  | 0x14 => (d.setDd .data (time2data tm.min tm.sec), 2000)
  | 0x1b => (d.setDd .data 0x00030000, 2000)
  | _ => (d, 2000)

/-- A write to `DD_ASIC_CMD_STATUS`. -/
def ddWriteCommand (o : Outside) (d : Device) (value : BitVec 32) : Device :=
  let d := { d with dd := { d.dd with rtc := d.dd.rtc.update o.time } }
  let d := d.setDdBits .cmdStatus ddStatusBusyState
  let (d, cycles) := ddCommand o d value
  d.updateCount.addEvent .ddMc cycles

/-- The bits of `DD_ASIC_CMD_STATUS` that a reset of the buffer manager clears. -/
def ddBmResetBits : BitVec 32 :=
  ddStatusDataRq ||| ddStatusC2Xfer ||| ddStatusBmErr ||| ddStatusBmInt

/-- The release of a held buffer manager reset. -/
def ddBmRelease (d : Device) : Device :=
  let d := { d with dd := { d.dd with bmResetHeld := 0 } }
  let d := d.clearDdBits .cmdStatus ddBmResetBits
  let d := d.setDd .bmStatusCtl 0
  let d := d.setDd .curSector 0
  d.dropEvent .ddBm

/-- A write to `DD_ASIC_BM_STATUS_CTL`. -/
def ddBmControl (d : Device) (value : BitVec 32) : Device :=
  let d := d.setDd .curSector (value &&& 0x00ff0000)
  let d := if value &&& ddBmCtlMechaRst ≠ 0 then
      (d.clearDdBits .cmdStatus ddStatusMechaInt).dropEvent .ddMc
    else d
  let d := if value &&& ddBmCtlBlkTrans ≠ 0 then d.setDdBits .bmStatusCtl ddBmStatusBlock else d
  let d := if value &&& ddBmCtlReset ≠ 0 then { d with dd := { d.dd with bmResetHeld := 1 } }
    else if d.dd.bmResetHeld ≠ 0 then d.ddBmRelease
    else d
  let d := if d.ddReg .cmdStatus &&& (ddStatusBmInt ||| ddStatusMechaInt) = 0 then
      d.clearDdInterrupt ddStatusBmInt
    else d
  if value &&& ddBmCtlStart ≠ 0 then
    (d.setDdBits .bmStatusCtl ddBmStatusRunning).addEvent .ddBm 12500
  else d

/-- A write to `DD_ASIC_HARD_RESET`. -/
def ddHardReset (d : Device) : Device :=
  let d := (d.dropEvent .ddMc).dropEvent .ddBm
  let d := d.clearDdBits .cmdStatus (ddBmResetBits ||| ddStatusBusyState)
  let d := d.setDd .bmStatusCtl 0
  let d := d.setDd .curSector 0
  let d := { d with dd := { d.dd with timerSleep := 1, timerStandby := 3 } }
  let d := d.ddDvSleep.clearDdInterrupt ddStatusMechaInt
  d.setDdBits .cmdStatus ddStatusRstState

/-- `write_dd_regs`. -/
def writeDdRegs (o : Outside) (d : Device) (address value _mask : BitVec 32) : Device :=
  if !isDdReg address then d
  else
    match ddRegAt address with
    | none => d
    | some .cmdStatus => ddWriteCommand o d value
    | some .bmStatusCtl => d.ddBmControl value
    | some .hardReset => d.ddHardReset
    | some .hostSecbyte => d.setDd .hostSecbyte ((value >>> 16) &&& 0xff)
    | some .secByte => d.setDd .secByte ((value >>> 24) &&& 0xff)
    | some .curTk | some .curSector => d
    | some reg => d.setDd reg value

/-- `poweron_dd`. -/
def powerOnDd (d : Device) : Device :=
  let development := (d.dd.disk.map (·.development)).getD false
  let d := { d with dd := { d.dd with
    regs := fun _ => 0
    c2sBuf := fun _ => 0
    dsBuf := fun _ => 0
    msRam := fun _ => 0
    bmWrite := 0
    bmResetHeld := 0
    bmZone := 0
    rtc := { now := 0, lastUpdateRtc := 0 }
    timerSleep := 1
    timerStandby := 3 } }
  let d := d.ddDvSleep
  let d := d.setDd .idReg (if development then 0x00040000 else 0x00030000)
  let d := d.setDdBits .cmdStatus ddStatusRstState
  if d.dd.disk.isSome then d.setDdBits .cmdStatus ddStatusDiskPres else d

-- ════════════════════════════════════════════════════════════════════════
-- ROM and DMA
-- ════════════════════════════════════════════════════════════════════════

/-- `read_dd_rom`. -/
def readDdRom (d : Device) (address : BitVec 32) : BitVec 32 :=
  d.dd.rom ((address &&& 0x3fffff) >>> 2).toNat

/-- `dd_dom_dma_read`. -/
def ddDomDmaRead (d : Device) (dramAddr cartAddr length : BitVec 32) : Device × BitVec 32 :=
  if cartAddr = mmDdDsBuffer then
    let dsBuf : Bytes := fun k =>
      if k ^^^ 3 < length.toNat then d.rdram.dram.byte (dramAddr.toNat + (k ^^^ 3))
      else d.dd.dsBuf k
    ({ d with dd := { d.dd with dsBuf := dsBuf } }, ddDmaCycles length)
  else (d, ddDmaCycles length)

/-- The bytes that `dd_dom_dma_write` copies, if it knows the address. -/
def ddDmaSource (d : Device) (cartAddr : BitVec 32) : Option (ℕ → BitVec 8) :=
  if cartAddr < mmDdRom then
    if cartAddr = mmDdC2sBuffer then some fun i => d.dd.c2sBuf (i ^^^ 3)
    else if cartAddr = mmDdDsBuffer then some fun i => d.dd.dsBuf (i ^^^ 3)
    else none
  else some fun i => d.dd.rom.byte ((cartAddr - mmDdRom).toNat + i)

/-- `dd_dom_dma_write`. -/
def ddDomDmaWrite (d : Device) (dramAddr cartAddr length : BitVec 32) : Device × BitVec 32 :=
  match d.ddDmaSource cartAddr with
  | none => (d, ddDmaCycles length)
  | some src =>
    let d := d.setDram (d.rdram.dram.copyBytes dramAddr.toNat src length.toNat)
    (d.invalidateBoth dramAddr length, ddDmaCycles length)

end Device

end Mupen64plus
