import Mupen64plus.Device.ViAi

/-!
# The memory map

The mappings of `init_device` and the accesses of the CPU to aligned words through them.

## Main definitions

- `Region`, `Device.regionOf` — who answers at a physical address
- `memRead32`, `memWrite32` — `mem_read32` and `mem_write32`
- `readAlignedWord`, `writeAlignedWord` — `r4300_read_aligned_word` and `r4300_write_aligned_word`

A write to `MI_INTR_MASK_REG` can dispatch an event, so writes take `gen_interrupt` as a parameter.
-/

namespace Mupen64plus

/-- The handlers of the memory map, each the `read_` and `write_` functions of that name. -/
inductive Region where
  | openBus | rdramDram | rdramRegs | rspMem | rspRegs | rspRegs2 | dpcRegs | dpsRegs | miRegs
  | viRegs | aiRegs | piRegs | riRegs | siRegs | ddRegs | ddRom | cartDom2 | isViewer | cartRom
  | pifMem
  deriving DecidableEq, Repr

/-- Whether a mapping from `first` to `last` covers an address; maps are kept per 64 KiB. -/
def mapped (first last address : BitVec 32) : Bool :=
  first >>> 16 ≤ address >>> 16 && address >>> 16 ≤ last >>> 16

/-- The end of a mapping of `size` bytes, as the macro `A` of `init_device` has it. -/
def mapEnd (first : BitVec 32) (size : ℕ) : BitVec 32 := first ||| (BitVec.ofNat 32 size - 1)

/-- `read_open_bus`. -/
def readOpenBus (address : BitVec 32) : BitVec 32 :=
  (address &&& 0xffff) ||| ((address &&& 0xffff) <<< 16)

namespace Device

/-- The handler at a physical address: the last mapping that covers it. -/
def regionOf (d : Device) (address : BitVec 32) : Region :=
  if mapped 0x1fc00000 0x1fc0ffff address then .pifMem
  else if mapped 0x10000000 (mapEnd 0x10000000 d.cart.cartRom.romSize) address then .cartRom
  else if mapped 0x13ff0000 0x13ff0fff address then .isViewer
  else if mapped 0x08000000 0x0801ffff address then .cartDom2
  else if 0 < d.dd.romSize ∧ mapped mmDdRom (mapEnd mmDdRom d.dd.romSize) address then .ddRom
  else if 0 < d.dd.romSize ∧ mapped 0x05000000 0x05ffffff address then .ddRegs
  else if mapped 0x04800000 0x0480ffff address then .siRegs
  else if mapped 0x04700000 0x0470ffff address then .riRegs
  else if mapped 0x04600000 0x0460ffff address then .piRegs
  else if mapped 0x04500000 0x0450ffff address then .aiRegs
  else if mapped 0x04400000 0x0440ffff address then .viRegs
  else if mapped 0x04300000 0x0430ffff address then .miRegs
  else if mapped 0x04200000 0x0420ffff address then .dpsRegs
  else if mapped 0x04100000 0x0410ffff address then .dpcRegs
  else if mapped 0x04080000 0x0408ffff address then .rspRegs2
  else if mapped 0x04040000 0x0404ffff address then .rspRegs
  else if mapped 0x04000000 0x0400ffff address then .rspMem
  else if mapped 0x03f00000 0x03ffffff address then .rdramRegs
  else if mapped 0x00000000 0x03efffff address then .rdramDram
  else .openBus

/-- The `read32` callback of a handler. -/
def readRegion (o : Outside) (d : Device) (region : Region) (address : BitVec 32) :
    BitVec 32 × Device :=
  match region with
  | .openBus => (readOpenBus address, d)
  | .rdramDram => (d.readRdramDram address, d)
  | .rdramRegs => (readRdramRegs o d address, d)
  | .rspMem => (d.readRspMem address, d)
  | .rspRegs => d.readRspRegs address
  | .rspRegs2 => (d.readRspRegs2 address, d)
  | .dpcRegs => (d.readDpcRegs address, d)
  | .dpsRegs => (d.readDpsRegs address, d)
  | .miRegs => (d.readMiRegs address, d)
  | .viRegs => d.readViRegs address
  | .aiRegs => d.readAiRegs address
  | .piRegs => (d.readPiRegs address, d)
  | .riRegs => (d.readRiRegs address, d)
  | .siRegs => (d.readSiRegs address, d)
  | .ddRegs => d.readDdRegs address
  | .ddRom => (d.readDdRom address, d)
  | .cartDom2 => readCartDom2 o d address
  | .isViewer => (d.readIsViewer address, d)
  | .cartRom => (d.readCartRom address, d)
  | .pifMem => (d.readPifMem address, d)

/-- The `write32` callback of a handler. -/
def writeRegion (genInterrupt : Device → Device) (o : Outside) (d : Device) (region : Region)
    (address value mask : BitVec 32) : Device :=
  match region with
  | .openBus | .ddRom => d
  | .rdramDram => d.writeRdramDram address value mask
  | .rdramRegs => d.writeRdramRegs address value mask
  | .rspMem => d.writeRspMem address value mask
  | .rspRegs => writeRspRegs o d address value mask
  | .rspRegs2 => d.writeRspRegs2 address value mask
  | .dpcRegs => writeDpcRegs o d address value mask
  | .dpsRegs => d.writeDpsRegs address value mask
  | .miRegs => writeMiRegs genInterrupt d address value mask
  | .viRegs => d.writeViRegs address value mask
  | .aiRegs => d.writeAiRegs address value mask
  | .piRegs => writePiRegs o d address value mask
  | .riRegs => d.writeRiRegs address value mask
  | .siRegs => writeSiRegs o d address value mask
  | .ddRegs => writeDdRegs o d address value mask
  | .cartDom2 => d.writeCartDom2 address value mask
  | .isViewer => d.writeIsViewer address value mask
  | .cartRom => d.writeCartRom address value mask
  | .pifMem => d.writePifMem address value mask

/-- `mem_read32`, through the handler of its address. -/
def memRead32 (o : Outside) (d : Device) (address : BitVec 32) : BitVec 32 × Device :=
  readRegion o d (d.regionOf address) address

/-- `mem_write32`, through the handler of its address. -/
def memWrite32 (genInterrupt : Device → Device) (o : Outside) (d : Device)
    (address value mask : BitVec 32) : Device :=
  writeRegion genInterrupt o d (d.regionOf address) address value mask

-- ════════════════════════════════════════════════════════════════════════
-- Accesses of the CPU
-- ════════════════════════════════════════════════════════════════════════

/-- The translation of a data access; the answer 0 stands for a raised exception. -/
def translate (d : Device) (address : BitVec 32) (w : Access) : BitVec 32 × Device :=
  if isUnmapped address then (address, d)
  else
    let (paddr, r) := virtualToPhysicalAddress d.r4300 address w
    (paddr, d.onR4300 fun _ => r)

/-- `address &= 0x1ffffffc`. -/
def physical (address : BitVec 32) : BitVec 32 := address &&& 0x1ffffffc

/-- `r4300_read_aligned_word`; no value stands for a raised exception. -/
def readAlignedWord (o : Outside) (d : Device) (address : BitVec 32) :
    Option (BitVec 32) × Device :=
  let (paddr, d) := d.translate address .read
  if paddr = 0 then (none, d)
  else
    let (value, d) := memRead32 o d (physical paddr)
    (some value, d)

/-- The invalidations of a store: a mapped address once before its translation, and the
    unmapped one with its mirror. -/
def invalidateStored (d : Device) (address size : BitVec 32) : Device :=
  (d.invalidate address size).invalidate (altAddress address) size

/-- The beginning of `r4300_write_aligned_word`. -/
def translateStore (d : Device) (address size : BitVec 32) : BitVec 32 × Device :=
  let d := if isUnmapped address then d else d.invalidate address size
  let (paddr, d) := d.translate address .write
  (paddr, if paddr = 0 then d else d.invalidateStored paddr size)

/-- `r4300_write_aligned_word`, with whether no exception was raised. -/
def writeAlignedWord (genInterrupt : Device → Device) (o : Outside) (d : Device)
    (address value mask : BitVec 32) : Bool × Device :=
  let (paddr, d) := d.translateStore address 4
  if paddr = 0 then (false, d)
  else (true, memWrite32 genInterrupt o d (physical paddr) value mask)

end Device

end Mupen64plus
