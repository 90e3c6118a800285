import Mupen64plus.Lib.BigEndian
import Mupen64plus.Device.Rdram
import Mupen64plus.R4300.CachedCode
import Mupen64plus.R4300.Cp0Instructions
import Mupen64plus.R4300.Opcodes

/-!
# Loads and stores

The accesses of `r4300_core.c` to words and double words, and the loads and stores of
`mips_instructions.def`. RDRAM is behind its handlers, and the rest of the memory map behind
`OtherRegions`.

## Main definitions

- `Machine` — the core and RDRAM
- `readAlignedWord`, `writeAlignedWord`, `readAlignedDword`, `writeAlignedDword`
- `lb` to `ldr`, `sb` to `sdr` — the instructions
-/

namespace Mupen64plus

open BigEndian

/-- The handlers of all regions but RDRAM. They may reach into the core, as where they schedule an
    interrupt. -/
structure OtherRegions (M : Type) where
  read32 : R4300 × M → BitVec 32 → BitVec 32 × R4300 × M
  write32 : R4300 × M → BitVec 32 → BitVec 32 → BitVec 32 → R4300 × M

structure Machine (M : Type) where
  core : R4300
  dram : Words
  dramSize : ℕ
  /-- With or without the expansion. -/
  dramSize_cases : dramSize = 0x400000 ∨ dramSize = 0x800000
  outside : M

/-- `RS_OF`. -/
def rsReg (op : BitVec 32) : Fin 32 := (rsOf op).toFin

/-- `RT_OF`. -/
def rtReg (op : BitVec 32) : Fin 32 := (rtOf op).toFin

/-- `RD_OF`. -/
def rdReg (op : BitVec 32) : Fin 32 := (rdOf op).toFin

-- ════════════════════════════════════════════════════════════════════════
-- Memory handlers
-- ════════════════════════════════════════════════════════════════════════

/-- The first address behind the region of RDRAM. -/
def mmRdramEnd : ℕ := 0x3f00000

namespace Machine

variable {M : Type}

/-- `read_rdram_dram`. -/
def readRdramDram (m : Machine M) (address : BitVec 32) : BitVec 32 :=
  if address.toNat < m.dramSize then m.dram (rdramDramAddress address) else 0

/-- `write_rdram_dram`. -/
def writeRdramDram (m : Machine M) (address value mask : BitVec 32) : Machine M :=
  if address.toNat < m.dramSize then
    { m with dram := m.dram.write (rdramDramAddress address) value mask }
  else m

/-- `mem_read32` with the handler of an address. -/
def memRead32 (o : OtherRegions M) (m : Machine M) (handler address : BitVec 32) :
    BitVec 32 × Machine M :=
  if handler.toNat < mmRdramEnd then (m.readRdramDram address, m)
  else
    let (value, core, outside) := o.read32 (m.core, m.outside) address
    (value, { m with core := core, outside := outside })

/-- `mem_write32` with the handler of an address. -/
def memWrite32 (o : OtherRegions M) (m : Machine M) (handler address value mask : BitVec 32) :
    Machine M :=
  if handler.toNat < mmRdramEnd then m.writeRdramDram address value mask
  else
    let (core, outside) := o.write32 (m.core, m.outside) address value mask
    { m with core := core, outside := outside }

-- ════════════════════════════════════════════════════════════════════════
-- Aligned accesses
-- ════════════════════════════════════════════════════════════════════════

/-- The translation that every access begins with; no address is left where it raised an
    exception. -/
def translate (m : Machine M) (address : BitVec 32) (w : Access) :
    Option (BitVec 32) × Machine M :=
  if isUnmapped address then (some address, m)
  else
    match virtualToPhysicalAddress m.core address w with
    | (paddr, core) => (if paddr = 0 then none else some paddr, { m with core := core })

/-- `r4300_read_aligned_word`. -/
def readAlignedWord (o : OtherRegions M) (m : Machine M) (address : BitVec 32) :
    Option (BitVec 32) × Machine M :=
  match m.translate address .read with
  | (none, m) => (none, m)
  | (some address, m) =>
    let address := address &&& 0x1ffffffc
    let (value, m) := m.memRead32 o address (address &&& ~~~3)
    (some value, m)

/-- Two words as a double word. -/
def dword (high low : BitVec 32) : BitVec 64 := (high.setWidth 64 <<< 32) ||| low.setWidth 64

/-- `r4300_read_aligned_dword`. -/
def readAlignedDword (o : OtherRegions M) (m : Machine M) (address : BitVec 32) :
    Option (BitVec 64) × Machine M :=
  match m.translate address .read with
  | (none, m) => (none, m)
  | (some address, m) =>
    let address := address &&& 0x1ffffffc
    let (high, m) := m.memRead32 o address address
    let (low, m) := m.memRead32 o address (address + 4)
    (some (dword high low), m)

/-- `invalidate_r4300_cached_code`. -/
def invalidate (m : Machine M) (address size : BitVec 32) : Machine M :=
  { m with core := invalidateR4300CachedCode m.core address size }

/-- The start of a store: the invalidation of both addresses of the unit, and the translation. -/
def openStore (m : Machine M) (address size : BitVec 32) : Option (BitVec 32) × Machine M :=
  let m := if isUnmapped address then m else m.invalidate address size
  match m.translate address .write with
  | (none, m) => (none, m)
  | (some address, m) =>
    (some (address &&& 0x1ffffffc),
      (m.invalidate address size).invalidate (address ^^^ 0x20000000) size)

/-- `r4300_write_aligned_word`. -/
def writeAlignedWord (o : OtherRegions M) (m : Machine M) (address value mask : BitVec 32) :
    Bool × Machine M :=
  match m.openStore address 4 with
  | (none, m) => (false, m)
  | (some address, m) => (true, m.memWrite32 o address (address &&& ~~~3) value mask)

/-- `r4300_write_aligned_dword`. -/
def writeAlignedDword (o : OtherRegions M) (m : Machine M) (address : BitVec 32)
    (value mask : BitVec 64) : Bool × Machine M :=
  match m.openStore address 8 with
  | (none, m) => (false, m)
  | (some address, m) =>
    let m := m.memWrite32 o address address ((value >>> 32).setWidth 32) ((mask >>> 32).setWidth 32)
    (true, m.memWrite32 o address (address + 4) (value.setWidth 32) (mask.setWidth 32))

-- ════════════════════════════════════════════════════════════════════════
-- Instructions
-- ════════════════════════════════════════════════════════════════════════

/-- `lsaddr`. -/
def lsaddr (m : Machine M) (op : BitVec 32) : BitVec 32 :=
  m.core.gpr32 (rsReg op) + (imm16Of op).signExtend 32

def addToPc (m : Machine M) : Machine M := { m with core := m.core.addToPc }

def setGpr (m : Machine M) (i : Fin 32) (v : BitVec 64) : Machine M :=
  { m with core := m.core.setGpr i v }

/-- `bshift`. -/
def bshift (address : BitVec 32) : ℕ := (((address &&& 3) ^^^ 3) <<< 3).toNat

/-- `hshift`. -/
def hshift (address : BitVec 32) : ℕ := (((address &&& 2) ^^^ 2) <<< 3).toNat

/-- The byte of its word where an access starts. -/
def byteOfWord (lsaddr : BitVec 32) : ℕ := (lsaddr &&& 3).toNat

/-- The byte of its double word where an access starts. -/
def byteOfDword (lsaddr : BitVec 32) : ℕ := (lsaddr &&& 7).toNat

/-- The end of a load: a register takes its value from what was read, unless an exception was
    raised. -/
def finishLoad {α : Type} (rt : Fin 32) (value : BitVec 64 → α → BitVec 64) :
    Option α × Machine M → Machine M
  | (none, m) => m
  | (some x, m) => m.setGpr rt (value (m.core.regs rt) x)

/-- A load of a word: `value` has the address, the register before it and the word. -/
def loadWord (o : OtherRegions M) (op : BitVec 32) (m : Machine M)
    (value : BitVec 32 → BitVec 64 → BitVec 32 → BitVec 64) : Machine M :=
  let lsaddr := m.lsaddr op
  finishLoad (rtReg op) (value lsaddr) (m.addToPc.readAlignedWord o lsaddr)

def lb (o : OtherRegions M) (op : BitVec 32) (m : Machine M) : Machine M :=
  loadWord o op m fun lsaddr _ value => ((value >>> bshift lsaddr).setWidth 8).signExtend 64

def lbu (o : OtherRegions M) (op : BitVec 32) (m : Machine M) : Machine M :=
  loadWord o op m fun lsaddr _ value => ((value >>> bshift lsaddr) &&& 0xff).setWidth 64

def lh (o : OtherRegions M) (op : BitVec 32) (m : Machine M) : Machine M :=
  loadWord o op m fun lsaddr _ value => ((value >>> hshift lsaddr).setWidth 16).signExtend 64

def lhu (o : OtherRegions M) (op : BitVec 32) (m : Machine M) : Machine M :=
  loadWord o op m fun lsaddr _ value => ((value >>> hshift lsaddr) &&& 0xffff).setWidth 64

def lw (o : OtherRegions M) (op : BitVec 32) (m : Machine M) : Machine M :=
  loadWord o op m fun _ _ value => se32 value

def lwu (o : OtherRegions M) (op : BitVec 32) (m : Machine M) : Machine M :=
  loadWord o op m fun _ _ value => value.setWidth 64

def ll (o : OtherRegions M) (op : BitVec 32) (m : Machine M) : Machine M :=
  match m.addToPc.readAlignedWord o (m.lsaddr op) with
  | (none, m) => m
  | (some value, m) =>
    let m := m.setGpr (rtReg op) (se32 value)
    { m with core := { m.core with llbit := 1 } }

def lwl (o : OtherRegions M) (op : BitVec 32) (m : Machine M) : Machine M :=
  loadWord o op m fun lsaddr rt value =>
    se32 (leftLoaded (byteOfWord lsaddr) (rt.setWidth 32) value)

def lwr (o : OtherRegions M) (op : BitVec 32) (m : Machine M) : Machine M :=
  loadWord o op m fun lsaddr rt value =>
    se32 (rightLoaded (byteOfWord lsaddr) (rt.setWidth 32) value)

def ld (o : OtherRegions M) (op : BitVec 32) (m : Machine M) : Machine M :=
  finishLoad (rtReg op) (fun _ value => value) (m.addToPc.readAlignedDword o (m.lsaddr op))

def ldl (o : OtherRegions M) (op : BitVec 32) (m : Machine M) : Machine M :=
  let lsaddr := m.lsaddr op
  finishLoad (rtReg op) (leftLoaded (byteOfDword lsaddr))
    (m.addToPc.readAlignedDword o (lsaddr &&& ~~~7))

def ldr (o : OtherRegions M) (op : BitVec 32) (m : Machine M) : Machine M :=
  let lsaddr := m.lsaddr op
  finishLoad (rtReg op) (rightLoaded (byteOfDword lsaddr))
    (m.addToPc.readAlignedDword o (lsaddr &&& ~~~7))

def sb (o : OtherRegions M) (op : BitVec 32) (m : Machine M) : Machine M :=
  let lsaddr := m.lsaddr op
  let shift := bshift lsaddr
  (m.addToPc.writeAlignedWord o lsaddr (m.core.gpr32 (rtReg op) <<< shift) (0xff <<< shift)).2

def sh (o : OtherRegions M) (op : BitVec 32) (m : Machine M) : Machine M :=
  let lsaddr := m.lsaddr op
  let shift := hshift lsaddr
  (m.addToPc.writeAlignedWord o lsaddr (m.core.gpr32 (rtReg op) <<< shift) (0xffff <<< shift)).2

def sc (o : OtherRegions M) (op : BitVec 32) (m : Machine M) : Machine M :=
  if m.core.llbit ≠ 0 then
    match m.addToPc.writeAlignedWord o (m.lsaddr op) (m.core.gpr32 (rtReg op)) (~~~0) with
    | (false, m) => m
    | (true, m) => { m with core := { m.core with llbit := 0 } }.setGpr (rtReg op) 1
  else m.addToPc.setGpr (rtReg op) 0

def sw (o : OtherRegions M) (op : BitVec 32) (m : Machine M) : Machine M :=
  (m.addToPc.writeAlignedWord o (m.lsaddr op) (m.core.gpr32 (rtReg op)) (~~~0)).2

def swl (o : OtherRegions M) (op : BitVec 32) (m : Machine M) : Machine M :=
  let lsaddr := m.lsaddr op
  let n := byteOfWord lsaddr
  (m.addToPc.writeAlignedWord o (lsaddr &&& ~~~3) (m.core.gpr32 (rtReg op) >>> (8 * n))
    (leftMask 32 n)).2

def swr (o : OtherRegions M) (op : BitVec 32) (m : Machine M) : Machine M :=
  let lsaddr := m.lsaddr op
  let n := byteOfWord lsaddr
  (m.addToPc.writeAlignedWord o (lsaddr &&& ~~~3) (m.core.gpr32 (rtReg op) <<< (8 * (3 - n)))
    (rightMask 32 n)).2

def sd (o : OtherRegions M) (op : BitVec 32) (m : Machine M) : Machine M :=
  (m.addToPc.writeAlignedDword o (m.lsaddr op) (m.core.regs (rtReg op)) (~~~0)).2

def sdl (o : OtherRegions M) (op : BitVec 32) (m : Machine M) : Machine M :=
  let lsaddr := m.lsaddr op
  let n := byteOfDword lsaddr
  (m.addToPc.writeAlignedDword o (lsaddr &&& ~~~7) (m.core.regs (rtReg op) >>> (8 * n))
    (leftMask 64 n)).2

def sdr (o : OtherRegions M) (op : BitVec 32) (m : Machine M) : Machine M :=
  let lsaddr := m.lsaddr op
  let n := byteOfDword lsaddr
  (m.addToPc.writeAlignedDword o (lsaddr &&& ~~~7) (m.core.regs (rtReg op) <<< (8 * (7 - n)))
    (rightMask 64 n)).2

end Machine

end Mupen64plus
