import Mupen64plus.Device.Mi

/-!
# RDRAM and its interface

`rdram.c` and `ri_controller.c`: the modules answer by their device id, broadcast writes reach all
of them, and reads are corrupted while the IPL3 calibrates the current control.

## Main definitions

- `readRdramDram`, `writeRdramDram` — the memory
- `readRdramRegs`, `writeRdramRegs` — the registers of the modules
- `readRiRegs`, `writeRiRegs`
-/

namespace Mupen64plus

/-- `rdram_dram_address`. -/
def rdramDramAddress (address : BitVec 32) : ℕ := ((address &&& 0xffffff) >>> 2).toNat

/-- `ri_address_to_id_field`. -/
def riAddressToIdField (address : BitVec 32) : BitVec 16 :=
  if address >>> 20 = 0x03f then ((address &&& 0x0007fc00) >>> 10).truncate 16
  else ((address &&& 0x00f00000) >>> 20).truncate 16

/-- `idfield_value`. -/
def idfieldValue (deviceId : BitVec 32) : BitVec 16 :=
  (((deviceId >>> 26) &&& 0x3f) ||| (((deviceId >>> 23) &&& 0x01) <<< 6)
    ||| (((deviceId >>> 16) &&& 0xff) <<< 7) ||| (((deviceId >>> 7) &&& 0x01) <<< 15)).truncate 16

/-- `cc_value`. -/
def ccValue (modeReg : BitVec 32) : BitVec 32 :=
  ((modeReg &&& 0x00000040) >>> 6) ||| ((modeReg &&& 0x00004000) >>> 13)
    ||| ((modeReg &&& 0x00400000) >>> 20) ||| ((modeReg &&& 0x00000080) >>> 4)
    ||| ((modeReg &&& 0x00008000) >>> 11) ||| ((modeReg &&& 0x00800000) >>> 18)

/-- `get_modules_count`; there are never more than `RDRAM_MAX_MODULES_COUNT`. -/
def Rdram.modulesCount (r : Rdram) : ℕ := r.dramSize / 0x200000

/-- `get_module`. -/
def Rdram.getModule (r : Rdram) (address : BitVec 32) : Option (Fin 8) :=
  (List.finRange 8).find? fun m =>
    m.val < r.modulesCount && riAddressToIdField address == idfieldValue (r.regs m .deviceId)

/-- A masked write to a register of some modules. -/
def Rdram.writeModules (r : Rdram) (sel : Fin 8 → Bool) (reg : RdramReg)
    (value mask : BitVec 32) : Rdram :=
  { r with regs := fun m =>
      if sel m then Function.update (r.regs m) reg (maskedWrite (r.regs m reg) value mask)
      else r.regs m }

/-- `RDRAM_BCAST_ADDRESS_MASK`. -/
def isBroadcast (address : BitVec 32) : Bool := address &&& 0x00080000 != 0

/-- `rdram_reg`. -/
def rdramReg (address : BitVec 32) : Option RdramReg :=
  RdramReg.block[((address &&& 0x3ff) >>> 2).toNat]?

namespace Device

/-- The registers after `poweron_rdram`. -/
def powerOnRdramRegs : RdramReg → BitVec 32
  | .config => 0xb5190010
  | .delay => 0x230b0223
  | .mode => 0xc4c0c0c0
  | .minInterval => 0x0040c0e0
  | .deviceManuf => 0x00000500
  | _ => 0

/-- `poweron_rdram`. -/
def powerOnRdram (d : Device) : Device :=
  { d with rdram := { d.rdram with
      regs := fun m reg => if m.val < d.rdram.modulesCount then powerOnRdramRegs reg else 0
      dram := fun i => if i < d.rdram.dramSize / 4 then 0 else d.rdram.dram i } }

/-- `map_corrupt_rdram`, which also drops all compiled code. -/
def mapCorruptRdram (d : Device) (corrupt : Bool) : Device :=
  { d with rdram := { d.rdram with corrupt := corrupt } }.invalidate 0 0

/-- `read_rdram_regs`. -/
def readRdramRegs (o : Outside) (d : Device) (address : BitVec 32) : BitVec 32 :=
  if isBroadcast address then o.garbage
  else
    match d.rdram.getModule address, rdramReg address with
    | none, _ => 0
    | some m, some .mode => d.rdram.regs m .mode ^^^ 0xc0c0c0c0
    | some m, some reg => d.rdram.regs m reg
    | some _, none => 0

/-- `write_rdram_regs`. -/
def writeRdramRegs (d : Device) (address value mask : BitVec 32) : Device :=
  match rdramReg address with
  | none => d
  | some reg =>
    let d := if isBroadcast address ∧ reg = .delay then d.mapCorruptRdram true else d
    let d := if isBroadcast address ∧ reg = .mode then d.mapCorruptRdram false else d
    let sel : Fin 8 → Bool :=
      if isBroadcast address then fun m => m.val < d.rdram.modulesCount
      else fun m => d.rdram.getModule address == some m
    { d with rdram := d.rdram.writeModules sel reg value mask }

/-- `read_rdram_dram`, or `read_rdram_dram_corrupted` while that handler is installed. -/
def readRdramDram (d : Device) (address : BitVec 32) : BitVec 32 :=
  if d.rdram.corrupt then
    match d.rdram.getModule address with
    | none => 0
    | some m =>
      let mode := d.rdram.regs m .mode ^^^ 0xc0c0c0c0
      if mode &&& 0x80000000 ≠ 0 ∧ ccValue mode = 0 then 0
      else d.rdram.dram (rdramDramAddress address)
  else if address.toNat < d.rdram.dramSize then d.rdram.dram (rdramDramAddress address)
  else 0

/-- `write_rdram_dram`. -/
def writeRdramDram (d : Device) (address value mask : BitVec 32) : Device :=
  if address.toNat < d.rdram.dramSize then
    d.setDram (d.rdram.dram.write (rdramDramAddress address) value mask)
  else d

/-- `poweron_ri`. -/
def powerOnRi (d : Device) : Device := { d with ri := ⟨fun _ => 0⟩ }

/-- `read_ri_regs`. -/
def readRiRegs (d : Device) (address : BitVec 32) : BitVec 32 :=
  ((regAt RiReg.block address).map d.ri.regs).getD 0

/-- `write_ri_regs`. -/
def writeRiRegs (d : Device) (address value mask : BitVec 32) : Device :=
  match regAt RiReg.block address with
  | some reg => d.setRi reg (maskedWrite (d.ri.regs reg) value mask)
  | none => d

end Device

end Mupen64plus
