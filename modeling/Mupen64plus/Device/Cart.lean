import Mupen64plus.Device.Rdram

/-!
# The cartridge

`cart.c`, `cart_rom.c`, `sram.c`, `flashram.c` and `is_viewer.c`: what answers to the CPU and to
PI DMA on the cartridge bus. Every DMA handler returns the number of cycles its transfer takes.

## Main definitions

- `cartRomDmaRead`, `cartRomDmaWrite`, `readCartRom`, `writeCartRom`
- `sramDmaRead`, `sramDmaWrite`, `flashramDmaRead`, `flashramDmaWrite`, `flashramCommand`
- `cartDom2DmaRead`, `cartDom2DmaWrite`, `readCartDom2`, `writeCartDom2` — save memory of either
  kind

Only the cart ROM handler invalidates the code it overwrites.
-/

namespace Mupen64plus

def piStatusDmaBusy : BitVec 32 := 0x01
def piStatusIoBusy : BitVec 32 := 0x02
def piStatusError : BitVec 32 := 0x04
def piStatusInterrupt : BitVec 32 := 0x08

/-- `MX29L1100_ID`, `MX29L0000_ID` and `MX29L0001_ID`: flash whose DMA address is doubled. -/
def isOldFlash (id : BitVec 32) : Bool :=
  id == 0x00c2001e || id == 0x00c20000 || id == 0x00c20001

namespace Device

/-- The test of `validate_pi_request`. -/
def piIdle (d : Device) : Bool := d.pi.regs .status &&& (piStatusDmaBusy ||| piStatusIoBusy) == 0

def setPiError (d : Device) : Device := d.setPi .status (d.pi.regs .status ||| piStatusError)

/-- `invalidate_r4300_cached_code` at both unmapped addresses of a range of RDRAM. -/
def invalidateBoth (d : Device) (dramAddr length : BitVec 32) : Device :=
  (d.invalidate (0x80000000 + dramAddr) length).invalidate (0xa0000000 + dramAddr) length

-- ════════════════════════════════════════════════════════════════════════
-- ROM
-- ════════════════════════════════════════════════════════════════════════

/-- `read_cart_rom`. -/
def readCartRom (d : Device) (address : BitVec 32) : BitVec 32 :=
  if d.pi.regs .status &&& piStatusIoBusy ≠ 0 then d.cart.cartRom.lastWrite
  else d.cart.cartRom.rom ((address &&& 0x03fffffc) >>> 2).toNat

/-- `write_cart_rom`. -/
def writeCartRom (d : Device) (_address value mask : BitVec 32) : Device :=
  let d := { d with cart := { d.cart with
    cartRom := { d.cart.cartRom with lastWrite := value &&& mask } } }
  if d.piIdle then
    let d := d.setPi .status (d.pi.regs .status ||| piStatusIoBusy)
    let d := d.updateCount
    d.addEvent .pi 0x1000
  else d.setPiError

/-- `cart_rom_dma_read`. -/
def cartRomDmaRead (d : Device) (_dramAddr _cartAddr _length : BitVec 32) : Device × BitVec 32 :=
  (d, 0x1000)

/-- The byte `cart_rom_dma_write` stores for position `i` of a transfer. -/
def cartRomDmaByte (r : CartRom) (cartAddr length : BitVec 32) (i : ℕ) : BitVec 8 :=
  if (cartAddr + length).toNat < r.romSize ∨ i < r.romSize - cartAddr.toNat then
    r.rom.byte (cartAddr.toNat + i)
  else 0

/-- `cart_rom_dma_write`. -/
def cartRomDmaWrite (o : Outside) (d : Device) (dramAddr cartAddr length : BitVec 32) :
    Device × BitVec 32 :=
  let cartAddr := cartAddr &&& 0x03ffffff
  let d := d.setDram (d.rdram.dram.copyBytes dramAddr.toNat
    (cartRomDmaByte d.cart.cartRom cartAddr length) length.toNat)
  (d.invalidateBoth dramAddr length, length / 8 + o.randomTime.zeroExtend 32)

-- ════════════════════════════════════════════════════════════════════════
-- SRAM
-- ════════════════════════════════════════════════════════════════════════

/-- `sram_dma_read`. -/
def sramDmaRead (d : Device) (dramAddr cartAddr length : BitVec 32) : Device × BitVec 32 :=
  let cartAddr := cartAddr &&& 0x0000ffff
  ({ d with cart := { d.cart with
      sram := d.cart.sram.copyBytes cartAddr.toNat
        (fun i => d.rdram.dram.byte (dramAddr.toNat + i)) length.toNat } }, 0x1000)

/-- `sram_dma_write`. -/
def sramDmaWrite (d : Device) (dramAddr cartAddr length : BitVec 32) : Device × BitVec 32 :=
  let cartAddr := cartAddr &&& 0x0000ffff
  (d.setDram (d.rdram.dram.copyBytes dramAddr.toNat
    (fun i => d.cart.sram.byte (cartAddr.toNat + i)) length.toNat), 0x1000)

/-- `read_sram`, at a word address. -/
def readSram (d : Device) (address : BitVec 32) : BitVec 32 :=
  d.cart.sram ((address &&& 0x0000ffff) >>> 2).toNat

/-- `write_sram`, at a word address. -/
def writeSram (d : Device) (address value mask : BitVec 32) : Device :=
  { d with cart := { d.cart with
      sram := d.cart.sram.write ((address &&& 0x0000ffff) >>> 2).toNat value mask } }

-- ════════════════════════════════════════════════════════════════════════
-- Flash memory
-- ════════════════════════════════════════════════════════════════════════

def setFlash (d : Device) (f : Flashram) : Device :=
  { d with cart := { d.cart with flashram := f } }

/-- The erasure that command `0x78` starts: a block of 128 pages, everything, or nothing. -/
def flashErase (f : Flashram) : Words :=
  match f.mode with
  | .sectorErase =>
    f.mem.copyBytes ((f.erasePage &&& 0xff80).toNat * 128) (fun _ => 0xff) (128 * 128)
  | .chipErase => fun i => if i < 0x20000 / 4 then 0xffffffff else f.mem i
  | _ => f.mem

/-- `flashram_command`. -/
def flashramCommand (f : Flashram) (command : BitVec 32) : Flashram :=
  match (command >>> 24).toNat with
  | 0x3c => { f with mode := .chipErase }
  | 0x4b => { f with mode := .sectorErase, erasePage := command.truncate 16 }
  | 0x78 =>
    { f with
      mem := flashErase f
      status := ((f.status ||| 0x02) &&& ~~~0x02) ||| 0x08
      mode := .status }
  | 0xa5 =>
    { f with
      mem := f.mem.copyBytes ((command &&& 0xffff).toNat * 128)
        (fun i => if h : i < 128 then f.pageBuf ⟨i, h⟩ else 0) 128
      status := ((f.status ||| 0x01) &&& ~~~0x01) ||| 0x04
      mode := .status }
  | 0xb4 => { f with mode := .pageProgram }
  | 0xd2 => { f with mode := .status }
  | 0xe1 => { f with mode := .readSiliconId, status := f.status ||| 0x01 }
  | 0xf0 => { f with mode := .readArray }
  | _ => f

/-- `read_flashram`. -/
def readFlashram (o : Outside) (f : Flashram) (address : BitVec 32) : BitVec 32 :=
  if address &&& 0x1ffff = 0 ∧ f.mode = .status then f.status
  else if address &&& 0x1ffff = 0 ∧ f.mode = .readArray then 0
  else o.garbage

/-- `write_flashram`. -/
def writeFlashram (f : Flashram) (address value mask : BitVec 32) : Flashram :=
  if address &&& 0x1ffff = 0 ∧ f.mode = .status then
    { f with status := value &&& mask &&& 0xff }
  else if address &&& 0x1ffff = 0x10000 then flashramCommand f (value &&& mask)
  else f

/-- `flashram_dma_write`. -/
def flashramDmaWrite (d : Device) (dramAddr cartAddr length : BitVec 32) : Device × BitVec 32 :=
  let f := d.cart.flashram
  if cartAddr &&& 0x1ffff = 0 ∧ length = 8 ∧ f.mode = .readSiliconId then
    let i := (dramAddr >>> 2).toNat
    (d.setDram (Function.update (Function.update d.rdram.dram i (f.siliconId 0))
      (i + 1) (f.siliconId 1)), 0x1000)
  else if cartAddr &&& 0x1ffff < 0x10000 ∧ f.mode = .readArray then
    let cartAddr :=
      if isOldFlash (f.siliconId 1) then (cartAddr &&& 0xffff) * 2 else cartAddr &&& 0xffff
    (d.setDram (d.rdram.dram.copyBytes dramAddr.toNat
      (fun i => f.mem.byte (cartAddr.toNat + i)) length.toNat), 0x1000)
  else (d, 0x1000)

/-- `flashram_dma_read`. -/
def flashramDmaRead (d : Device) (dramAddr cartAddr length : BitVec 32) : Device × BitVec 32 :=
  let f := d.cart.flashram
  if cartAddr &&& 0x1ffff = 0 ∧ length = 128 ∧ f.mode = .pageProgram then
    (d.setFlash { f with pageBuf := fun i => d.rdram.dram.byte (dramAddr.toNat + i) }, 0x1000)
  else (d, 0x1000)

/-- `poweron_flashram`. -/
def powerOnFlashram (f : Flashram) : Flashram :=
  { f with mode := .readArray, status := 0, erasePage := 0, pageBuf := fun _ => 0xff }

-- ════════════════════════════════════════════════════════════════════════
-- Save memory of either kind
-- ════════════════════════════════════════════════════════════════════════

/-- `cart->use_flashram = v`. -/
def setUseFlashram (d : Device) (v : BitVec 32) : Device :=
  { d with cart := { d.cart with useFlashram := v } }

/-- `read_cart_dom2`. -/
def readCartDom2 (o : Outside) (d : Device) (address : BitVec 32) : BitVec 32 × Device :=
  if d.cart.useFlashram = -1 then (d.readSram address, d)
  else if address &&& 0xffff ≠ 0 then (o.garbage, d)
  else (readFlashram o d.cart.flashram address, d.setUseFlashram 1)

/-- `write_cart_dom2`. -/
def writeCartDom2 (d : Device) (address value mask : BitVec 32) : Device :=
  if d.cart.useFlashram = -1 then d.writeSram address value mask
  else if address &&& 0xffff ≠ 0 then d
  else (d.setUseFlashram 1).setFlash (writeFlashram d.cart.flashram address value mask)

/-- `cart_dom2_dma_read`. -/
def cartDom2DmaRead (d : Device) (dramAddr cartAddr length : BitVec 32) : Device × BitVec 32 :=
  if d.cart.useFlashram ≠ 1 then
    let (d, cycles) := d.sramDmaRead dramAddr cartAddr length
    (d.setUseFlashram (-1), cycles)
  else d.flashramDmaRead dramAddr cartAddr length

/-- `cart_dom2_dma_write`. -/
def cartDom2DmaWrite (d : Device) (dramAddr cartAddr length : BitVec 32) : Device × BitVec 32 :=
  if d.cart.useFlashram ≠ 1 then
    let (d, cycles) := d.sramDmaWrite dramAddr cartAddr length
    (d.setUseFlashram (-1), cycles)
  else d.flashramDmaWrite dramAddr cartAddr length

/-- `poweron_af_rtc`, `poweron_cart_rom` and `poweron_flashram`: `poweron_cart`. -/
def powerOnCart (d : Device) : Device :=
  { d with cart := { d.cart with
      afRtc := { control := 0x0200, now := 0, lastUpdateRtc := 0 }
      cartRom := { d.cart.cartRom with lastWrite := 0 }
      flashram := powerOnFlashram d.cart.flashram } }

-- ════════════════════════════════════════════════════════════════════════
-- IS-Viewer
-- ════════════════════════════════════════════════════════════════════════

/-- `read_is_viewer`. -/
def readIsViewer (d : Device) (address : BitVec 32) : BitVec 32 :=
  let a := (address &&& 0xfff).toNat
  d.isViewer a ++ d.isViewer (a + 1) ++ d.isViewer (a + 2) ++ d.isViewer (a + 3)

/-- `write_is_viewer`, less the messages it prints. -/
def writeIsViewer (d : Device) (address value mask : BitVec 32) : Device :=
  let a := (address &&& 0xfff).toNat
  if a = 0x14 then d
  else
    { d with isViewer := fun i =>
        if a ≤ i ∧ i < a + 4 then wordByte (value &&& mask) (i - a) else d.isViewer i }

end Device

end Mupen64plus
