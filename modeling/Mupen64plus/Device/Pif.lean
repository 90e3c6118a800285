import Mupen64plus.Device.Pi

/-!
# PIF and the serial interface

`pif.c`, `n64_cic_nus_6105.c` and `si_controller.c`: the 64 bytes of PIF RAM, the joybus channels
laid out in them, and the DMA that moves them to and from RDRAM.

## Main definitions

- `setupChannelsFormat` — the parser of the channel layout
- `processPifRam`, `updatePifRam` — what the PIF does before and after a transfer
- `readPifMem`, `writePifMem`
- `dmaSiRead`, `dmaSiWrite`, `siEndOfDmaEvent`, `readSiRegs`, `writeSiRegs`
-/

namespace Mupen64plus

-- ════════════════════════════════════════════════════════════════════════
-- The answer to a CIC challenge
-- ════════════════════════════════════════════════════════════════════════

/-- `lut0` of `n64_cic_nus_6105`. -/
def cicLut0 : List (BitVec 8) :=
  [0x4, 0x7, 0xA, 0x7, 0xE, 0x5, 0xE, 0x1, 0xC, 0xF, 0x8, 0xF, 0x6, 0x3, 0x6, 0x9]

/-- `lut1` of `n64_cic_nus_6105`. -/
def cicLut1 : List (BitVec 8) :=
  [0x4, 0x1, 0xA, 0x7, 0xE, 0x5, 0xE, 0x1, 0xC, 0x9, 0x8, 0x5, 0x6, 0x3, 0xC, 0x9]

/-- Whether the next nibble goes through `lut1`, after a response through either table. -/
def cicNextLut (useLut1 : Bool) (rsp : BitVec 8) : Bool :=
  let sgn := (rsp >>> 3) &&& 0x1
  let mag := (if sgn = 1 then ~~~rsp else rsp) &&& 0x7
  let mod := if mag % 3 = 1 then sgn else 1 - sgn
  let mod := if useLut1 ∧ (rsp = 0x1 ∨ rsp = 0x9) then 1 else mod
  let mod := if useLut1 ∧ (rsp = 0xB ∨ rsp = 0xE) then 0 else mod
  mod == 1

/-- `n64_cic_nus_6105` from a key and a table on. -/
def cicResponse (key : BitVec 8) (useLut1 : Bool) : List (BitVec 8) → List (BitVec 8)
  | [] => []
  | chl :: rest =>
    let rsp := (key + 5 * chl) &&& 0xF
    rsp :: cicResponse ((if useLut1 then cicLut1 else cicLut0).getD rsp.toNat 0)
      (cicNextLut useLut1 rsp) rest

/-- The 30 nibbles of a challenge. -/
def cicChallenge (ram : Bytes) : List (BitVec 8) :=
  (List.range 15).flatMap fun i => [(ram (0x30 + i) >>> 4) &&& 0x0f, ram (0x30 + i) &&& 0x0f]

/-- `process_cic_challenge`, on the bytes of PIF RAM. -/
def processCicChallenge (ram : Bytes) : Bytes := fun a =>
  let response := cicResponse 0xB false (cicChallenge ram)
  if a = 0x2e ∨ a = 0x2f then 0
  else if 0x30 ≤ a ∧ a < 0x3f then
    (response.getD (2 * (a - 0x30)) 0 <<< 4) + response.getD (2 * (a - 0x30) + 1) 0
  else ram a

-- ════════════════════════════════════════════════════════════════════════
-- Channels
-- ════════════════════════════════════════════════════════════════════════

/-- The word at an offset of PIF RAM. -/
def ramWord (ram : Bytes) (a : ℕ) : BitVec 32 := ram a ++ ram (a + 1) ++ ram (a + 2) ++ ram (a + 3)

/-- PIF RAM with a word stored at an offset. -/
def setRamWord (ram : Bytes) (a : ℕ) (w : BitVec 32) : Bytes := fun i =>
  if a ≤ i ∧ i < a + 4 then wordByte w (i - a) else ram i

namespace Device

def setRam (d : Device) (ram : Bytes) : Device := { d with pif := { d.pif with ram := ram } }

/-- A byte of the buffer of channel `k`. -/
def channelByte (d : Device) (k : Fin 5) (buf : ChannelBuf) (j : ℕ) : BitVec 8 :=
  match buf with
  | .ram offset => d.pif.ram (offset + j)
  | .dummyReset => if h : j < 6 then d.pif.dummyResetBuffer k ⟨j, h⟩ else 0

/-- A store to the buffer of channel `k`. -/
def setChannelByte (d : Device) (k : Fin 5) (buf : ChannelBuf) (j : ℕ) (b : BitVec 8) : Device :=
  match buf with
  | .ram offset => d.setRam (Function.update d.pif.ram (offset + j) b)
  | .dummyReset =>
    let row : Fin 6 → BitVec 8 := fun i => if i.val = j then b else d.pif.dummyResetBuffer k i
    { d with pif := { d.pif with
      dummyResetBuffer := Function.update d.pif.dummyResetBuffer k row } }

def setChannel (d : Device) (k : Fin 5) (c : Option PifChannel) : Device :=
  { d with pif := { d.pif with channels := Function.update d.pif.channels k c } }

/-- `disable_pif_channel`. -/
def disablePifChannel (d : Device) (k : Fin 5) : Device := d.setChannel k none

/-- `setup_pif_channel`, with the number of bytes the channel takes. -/
def setupPifChannel (o : Outside) (d : Device) (k : Fin 5) (buf : ChannelBuf) : ℕ × Device :=
  let tx := (d.channelByte k buf 0 &&& 0x3f).toNat
  let rx := (d.channelByte k buf 1 &&& 0x3f).toNat
  let channel : PifChannel := { buf := buf, rxBuf := 2 + tx }
  (2 + tx + rx, (d.setChannel k (some channel)).joybus (o.joybusPostSetup k channel))

/-- The reset command that stands in for a channel whose byte is `0xfd`. -/
def resetCommand (d : Device) (k : Fin 5) : Device :=
  let d := d.setChannelByte k .dummyReset 0 0x01
  let d := d.setChannelByte k .dummyReset 1 0x03
  d.setChannelByte k .dummyReset 2 0xff

/-- The channels from number `k` on. -/
def disableFrom (d : Device) (k : ℕ) : Device :=
  { d with pif := { d.pif with channels := fun j => if k ≤ j.val then none else d.pif.channels j } }

/-- The loop of `setup_channels_format`, from offset `i` and channel `k`. -/
def setupChannelsLoop (o : Outside) : ℕ → Device → ℕ → ℕ → Device
  | 0, d, _, _ => d
  | fuel + 1, d, i, k =>
    if h : i < 64 ∧ k < 5 then
      let ch : Fin 5 := ⟨k, h.2⟩
      match (d.pif.ram i).toNat with
      | 0x00 => setupChannelsLoop o fuel (d.disablePifChannel ch) (i + 1) (k + 1)
      | 0xff => setupChannelsLoop o fuel d (i + 1) k
      | 0xfe => d.disableFrom k
      | 0xfd =>
        let (_, d) := setupPifChannel o (d.resetCommand ch) ch .dummyReset
        setupChannelsLoop o fuel d (i + 1) (k + 1)
      | _ =>
        if i + 1 < 64 ∧ d.pif.ram (i + 1) = 0xfe then setupChannelsLoop o fuel d (i + 1) k
        else if 64 ≤ i + 2 then d
        else
          let (n, d) := setupPifChannel o d ch (.ram i)
          setupChannelsLoop o fuel d (i + n) (k + 1)
    else d

/-- `setup_channels_format`. Every round of the loop moves the offset or the channel on. -/
def setupChannelsFormat (o : Outside) (d : Device) : Device := setupChannelsLoop o 70 d 0 0

/-- `process_channel`. -/
def processChannel (o : Outside) (d : Device) (k : Fin 5) : Device :=
  match d.pif.channels k with
  | none => d
  | some c =>
    let d := d.setChannelByte k c.buf 0 (d.channelByte k c.buf 0 &&& 0x3f)
    let d := d.setChannelByte k c.buf 1 (d.channelByte k c.buf 1 &&& 0x3f)
    if o.joybusConnected k then d.joybus (o.joybusProcess k c)
    else d.setChannelByte k c.buf 1 (d.channelByte k c.buf 1 ||| 0x80)

/-- `process_pif_ram`. -/
def processPifRam (o : Outside) (d : Device) : Device :=
  let flags := d.pif.ram 0x3f
  if flags = 0 then d
  else
    let d := if flags &&& 0x01 ≠ 0 then setupChannelsFormat o d else d
    let d := if flags &&& 0x02 ≠ 0 then
        (d.disableFrom 0).setRam (processCicChallenge d.pif.ram)
      else d
    let d := if flags &&& 0x30 ≠ 0 then d.setRam (Function.update d.pif.ram 0x3f 0x80) else d
    d.setRam (Function.update d.pif.ram 0x3f (d.pif.ram 0x3f &&& ~~~(flags &&& 0x0b)))

/-- `update_pif_ram`. -/
def updatePifRam (o : Outside) (d : Device) : Device :=
  ((List.finRange 5).foldl (processChannel o) d).joybus o.updateInput

/-- `reset_pif`. -/
def resetPif (d : Device) (resetType : BitVec 32) : Device :=
  let romType : BitVec 32 :=
    match d.pif.cic.version with
    | .v8303 | .v8401 | .v8501 => 1
    | _ => 0
  let pif24 := (romType <<< 19) ||| ((resetType &&& 0x1) <<< 17)
    ||| ((d.pif.cic.seed &&& 0xff) <<< 8) ||| 0x3f
  let d := d.disableFrom 0
  let d := d.setRam (setRamWord d.pif.ram 0x24 pif24)
  d.setRam (Function.update d.pif.ram 0x3f 0)

/-- `poweron_pif`. -/
def powerOnPif (d : Device) : Device :=
  (d.setRam fun a => if a < 64 then 0 else d.pif.ram a).resetPif 0

-- ════════════════════════════════════════════════════════════════════════
-- The serial interface
-- ════════════════════════════════════════════════════════════════════════

def siStatusDmaBusy : BitVec 32 := 0x0001
def siStatusIoBusy : BitVec 32 := 0x0002
def siStatusDmaError : BitVec 32 := 0x0008
def siStatusInterrupt : BitVec 32 := 0x1000

def setDmaDir (d : Device) (dir : SiDmaDir) : Device := { d with si := { d.si with dmaDir := dir } }

/-- `pif_address`. -/
def pifAddress (address : BitVec 32) : ℕ := (address &&& 0xfffc).toNat

/-- `read_pif_mem`. -/
def readPifMem (d : Device) (address : BitVec 32) : BitVec 32 :=
  if pifAddress address < 0x7c0 then d.pif.rom (pifAddress address / 4)
  else ramWord d.pif.ram (pifAddress address - 0x7c0)

/-- `write_pif_mem`. The busy flag is set without being tested. -/
def writePifMem (d : Device) (address value mask : BitVec 32) : Device :=
  if pifAddress address < 0x7c0 then d
  else
    let a := pifAddress address - 0x7c0
    let d := d.setRam (setRamWord d.pif.ram a (maskedWrite (ramWord d.pif.ram a) value mask))
    let d := (d.setDmaDir .dmaWrite).updateCount
    let d := d.setSi .status (d.si.regs .status ||| (siStatusDmaBusy ||| siStatusIoBusy))
    d.addEvent .si d.si.dmaDuration

/-- The word index of RDRAM an SI DMA starts at. -/
def siDramIndex (d : Device) : ℕ := rdramDramAddress (d.si.regs .dramAddr &&& ~~~3)

/-- `copy_pif_rdram`. -/
def copyPifRdram (d : Device) : Device :=
  let at0 := d.siDramIndex
  match d.si.dmaDir with
  | .dmaWrite =>
    d.setRam fun a =>
      if a < 64 then wordByte (d.rdram.dram (at0 + a / 4)) a else d.pif.ram a
  | .dmaRead =>
    d.setDram fun i =>
      if at0 ≤ i ∧ i < at0 + 16 then ramWord d.pif.ram (4 * (i - at0)) else d.rdram.dram i
  | _ => d

/-- Whether `validate_dma` knows the PIF address in a register. -/
def siAddressKnown (d : Device) (reg : SiReg) : Bool := d.si.regs reg &&& 0x1fffffff == 0x1fc007c0

def siDmaBusy (d : Device) : Bool := d.si.regs .status &&& siStatusDmaBusy != 0

/-- The end of `dma_si_read` and `dma_si_write`. -/
def siStarted (o : Outside) (d : Device) : Device :=
  let d := d.updateCount
  let d := d.setSi .status (d.si.regs .status ||| siStatusDmaBusy)
  d.addEvent .si (d.si.dmaDuration + o.randomTime.zeroExtend 32)

/-- `dma_si_write`. -/
def dmaSiWrite (o : Outside) (d : Device) : Device :=
  if !d.siAddressKnown .pifAddrWr64b then d
  else if d.siDmaBusy then d.setSi .status (d.si.regs .status ||| siStatusDmaError)
  else siStarted o (d.setDmaDir .dmaWrite).copyPifRdram

/-- `dma_si_read`. -/
def dmaSiRead (o : Outside) (d : Device) : Device :=
  if !d.siAddressKnown .pifAddrRd64b then d
  else if d.siDmaBusy then d.setSi .status (d.si.regs .status ||| siStatusDmaError)
  else siStarted o (updatePifRam o (d.setDmaDir .dmaRead))

/-- `poweron_si`. -/
def powerOnSi (d : Device) : Device :=
  { d with si := { d.si with regs := fun _ => 0, dmaDir := .noDma } }

/-- `read_si_regs`. -/
def readSiRegs (d : Device) (address : BitVec 32) : BitVec 32 :=
  ((regAt SiReg.block address).map d.si.regs).getD 0

/-- `write_si_regs`. -/
def writeSiRegs (o : Outside) (d : Device) (address value mask : BitVec 32) : Device :=
  match regAt SiReg.block address with
  | some .dramAddr => d.setSi .dramAddr (maskedWrite (d.si.regs .dramAddr) value mask)
  | some .pifAddrRd64b =>
    dmaSiRead o (d.setSi .pifAddrRd64b (maskedWrite (d.si.regs .pifAddrRd64b) value mask))
  | some .pifAddrWr64b =>
    dmaSiWrite o (d.setSi .pifAddrWr64b (maskedWrite (d.si.regs .pifAddrWr64b) value mask))
  | some .status =>
    (d.setSi .status (d.si.regs .status &&& ~~~siStatusInterrupt)).clearRcpInterrupt miIntrSI
  | _ => d

/-- `si_end_of_dma_event`. -/
def siEndOfDmaEvent (o : Outside) (d : Device) : Device :=
  let d :=
    match d.si.dmaDir with
    | .dmaWrite => processPifRam o d
    | .dmaRead => d.copyPifRdram
    | _ => d
  let d := d.setDmaDir .noDma
  let status := d.si.regs .status &&& ~~~(siStatusDmaBusy ||| siStatusIoBusy)
  (d.setSi .status (status ||| siStatusInterrupt)).raiseRcpInterrupt miIntrSI

/-- `hw2_int_handler`. -/
def hw2IntHandler (d : Device) : Device :=
  d.onR4300 fun r => raiseMaskableInterrupt r causeIP4

end Device

end Mupen64plus
