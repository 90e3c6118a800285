import Mupen64plus.Device.Rsp

/-!
# DMA of the RSP interpreter

`MTC0` to the DMA registers of the signal processor: the interpreter keeps them in the registers of
the core, and moves the data itself, eight bytes at a time and from the last row to the first.

## Main definitions

- `spDmaUnits` — the addresses of `SP_DMA_READ` and `SP_DMA_WRITE`, in order
- `Device.mtDmaCache`, `Device.mtDmaDram`, `Device.mtDmaReadLength`, `Device.mtDmaWriteLength`
- `SpDma.accesses` — the addresses of `do_sp_dma` in the core, in order
-/

namespace Mupen64plus

/-- `offC` and `offD` of every turn of the loops. -/
def spDmaUnits (memAddr dramAddr len : BitVec 32) : List (BitVec 32 × BitVec 32) :=
  let length := (len &&& 0xfff) + 1
  let count := ((len &&& 0xff000) >>> 12) + 1
  let skip := ((len &&& 0xfff00000) >>> 20) + length
  (List.range count.toNat).reverse.flatMap fun row =>
    (List.range ((length.toNat + 7) / 8)).map fun i =>
      ((BitVec.ofNat 32 row * length + memAddr + BitVec.ofNat 32 (8 * i)) &&& 0x1ff8,
        (BitVec.ofNat 32 row * skip + dramAddr + BitVec.ofNat 32 (8 * i)) &&& 0xfffff8)

/-- The addresses that `SP_DMA_READ` reads zeros from. -/
def pastDram (offD : BitVec 32) : Bool := offD &&& ~~~0x7ffff8 != 0

/-- Eight bytes that are stored at once, as two words. -/
def Words.putDword (m : Words) (address : ℕ) (first second : BitVec 32) : Words :=
  Function.update (Function.update m (address / 4) first) (address / 4 + 1) second

/-- A turn of the loops of `SP_DMA_READ`. -/
def Words.readUnit (dram mem : Words) (u : BitVec 32 × BitVec 32) : Words :=
  if pastDram u.2 then mem.putDword u.1.toNat 0 0
  else mem.putDword u.1.toNat (dram (u.2.toNat / 4)) (dram (u.2.toNat / 4 + 1))

/-- A turn of the loops of `SP_DMA_WRITE`. -/
def Words.writeUnit (mem dram : Words) (u : BitVec 32 × BitVec 32) : Words :=
  dram.putDword u.2.toNat (mem (u.1.toNat / 4)) (mem (u.1.toNat / 4 + 1))

namespace Device

def endSpDma (d : Device) : Device :=
  let d := d.setSp .dmaBusy 0
  d.setSp .status (d.spStatus &&& ~~~spStatusDmaBusy)

/-- `SP_DMA_READ`. -/
def spDmaRead (d : Device) : Device :=
  let units := spDmaUnits (d.sp.regs .memAddr) (d.sp.regs .dramAddr) (d.sp.regs .rdLen)
  (d.setSpMem (units.foldl d.rdram.dram.readUnit d.sp.mem)).endSpDma

/-- `SP_DMA_WRITE`. -/
def spDmaWrite (d : Device) : Device :=
  let units := spDmaUnits (d.sp.regs .memAddr) (d.sp.regs .dramAddr) (d.sp.regs .wrLen)
  (d.setDram (units.foldl d.sp.mem.writeUnit d.rdram.dram)).endSpDma

/-- `MT_DMA_CACHE`. -/
def mtDmaCache (d : Device) (rt : BitVec 32) : Device := d.setSp .memAddr (rt &&& 0xfffffff8)

/-- `MT_DMA_DRAM`. -/
def mtDmaDram (d : Device) (rt : BitVec 32) : Device := d.setSp .dramAddr (rt &&& 0xfffffff8)

/-- `MT_DMA_READ_LENGTH`. -/
def mtDmaReadLength (d : Device) (rt : BitVec 32) : Device :=
  (d.setSp .rdLen (rt ||| 7)).spDmaRead

/-- `MT_DMA_WRITE_LENGTH`. -/
def mtDmaWriteLength (d : Device) (rt : BitVec 32) : Device :=
  (d.setSp .wrLen (rt ||| 7)).spDmaWrite

/-- A transfer of the interpreter: `dir` is the direction as the core has it. -/
def mtDma (d : Device) (dma : SpDma) : Device :=
  let d := (d.mtDmaCache dma.memaddr).mtDmaDram dma.dramaddr
  if dma.dir = 0 then d.mtDmaWriteLength dma.length else d.mtDmaReadLength dma.length

end Device

/-- The bytes of a row of `do_sp_dma`: in the memory of the signal processor, and in RDRAM. -/
def SpDma.rowAccesses (dma : SpDma) (memaddr dramaddr : BitVec 32) (n : ℕ) : List (ℕ × ℕ) :=
  (List.range n).map fun i =>
    (dma.bank + ((memaddr + BitVec.ofNat 32 i) &&& 0xfff).toNat,
      ((dramaddr + BitVec.ofNat 32 i) &&& 0x7fffff).toNat)

/-- The bytes that `do_sp_dma` moves, in order. -/
def SpDma.accesses (dma : SpDma) : List (ℕ × ℕ) :=
  (List.range dma.rowCount.toNat).flatMap fun row =>
    dma.rowAccesses ((dma.memaddr &&& 0xff8) + BitVec.ofNat 32 row * dma.rowLength)
      ((dma.dramaddr &&& 0xfffff8) + BitVec.ofNat 32 row * (dma.rowLength + dma.skip))
      dma.rowLength.toNat

/-- The bytes that the interpreter moves, in order. -/
def SpDma.mtAccesses (dma : SpDma) : List (ℕ × ℕ) :=
  (spDmaUnits (dma.memaddr &&& 0xfffffff8) (dma.dramaddr &&& 0xfffffff8) (dma.length ||| 7)).flatMap
    fun u => (List.range 8).map fun i => (u.1.toNat + i, u.2.toNat + i)

end Mupen64plus
