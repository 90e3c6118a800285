import Mupen64plus.Device.Savestate

/-!
# Game Boy cartridges

A transfer pak forwards its accesses to the controller of a Game Boy cartridge. An access names a
16-bit address and a number of bytes; the controller picks the bank its registers select and adds
the bank's start to the offset in the window. `readRom`, `readRam` and `writeRam` take the sum in
16 bits.

## Main definitions

- `readGbCart`, `writeGbCart` — an access, by the controller of the cartridge
- `updateRtcRegs` — the clock of an MBC3
- `writePocketCamRegs` — the registers of a camera

The clock and the picture a camera takes come from outside and are parameters. `none` is a call
through the missing RAM backend of a cartridge without RAM.
-/

namespace Mupen64plus

-- ════════════════════════════════════════════════════════════════════════
-- The storages
-- ════════════════════════════════════════════════════════════════════════

/-- `n` bytes of a storage. -/
def Bytes.slice (m : Bytes) (start n : ℕ) : List (BitVec 8) :=
  (List.range n).map fun i => m (start + i)

/-- `memcpy(dst, data, size)`, with `dst` at a position of a storage. -/
def Bytes.overwrite (m : Bytes) (start : ℕ) (data : List (BitVec 8)) : Bytes := fun k =>
  if start ≤ k ∧ k < start + data.length then data.getD (k - start) 0 else m k

/-- `read_rom`; an access past the end leaves the caller's buffer as it was. -/
def readRom (c : GbCart) (address : BitVec 16) (data : List (BitVec 8)) : List (BitVec 8) :=
  if c.romSize < address.toNat + data.length then data
  else Bytes.slice c.rom address.toNat data.length

/-- `read_ram`. -/
def readRam (c : GbCart) (enabled : BitVec 32) (address : BitVec 16) (data : List (BitVec 8))
    (mask : BitVec 8) : Option (List (BitVec 8)) :=
  if enabled = 0 then some (List.replicate data.length 0xff)
  else do
    let ram ← c.ram
    match ram.data with
    | none => pure (List.replicate data.length 0xff)
    | some bytes =>
      if ram.size < address.toNat + data.length then pure data
      else pure ((bytes.slice address.toNat data.length).map (· &&& mask))

/-- `write_ram`. -/
def writeRam (c : GbCart) (enabled : BitVec 32) (address : BitVec 16) (data : List (BitVec 8))
    (mask : BitVec 8) : Option GbCart :=
  if enabled = 0 then some c
  else do
    let ram ← c.ram
    match ram.data with
    | none => pure c
    | some bytes =>
      if ram.size < address.toNat + data.length then pure c
      else
        let bytes := bytes.overwrite address.toNat (data.map (· &&& mask))
        pure { c with ram := some ⟨some bytes, ram.size⟩ }

/-- `set_ram_enable`. -/
def setRamEnable (c : GbCart) (value : BitVec 8) : GbCart :=
  { c with ramEnable := if value &&& 0x0f = 0x0a then 1 else 0 }

/-- `(address - 0x4000) + (rom_bank * 0x4000)`, passed as a `uint16_t`. -/
def romBankAddress (c : GbCart) (address : BitVec 16) : BitVec 16 :=
  ((address.setWidth 32 - 0x4000#32) + c.romBank * 0x4000#32).setWidth 16

/-- `(address - 0xa000#16) + (bank * 0x2000)`, passed as a `uint16_t`. -/
def ramBankAddress (bank : BitVec 32) (address : BitVec 16) : BitVec 16 :=
  ((address.setWidth 32 - 0xa000#32) + bank * 0x2000#32).setWidth 16

/-- `address >> 13`. -/
def gbWindow (address : BitVec 16) : ℕ := (address >>> 13).toNat

/-- `data[size-1]`. -/
def lastByte (data : List (BitVec 8)) : BitVec 8 := data.getLastD 0

-- ════════════════════════════════════════════════════════════════════════
-- The clock of an MBC3
-- ════════════════════════════════════════════════════════════════════════

/-- `if (regs[reg] >= limit) { regs[reg] -= limit; ++regs[reg + 1]; }` after adding `n` to
    `regs[reg]`. -/
def rtcCarry (regs : Fin 5 → BitVec 8) (reg next : Fin 5) (limit : BitVec 8) (n : ℕ) :
    Fin 5 → BitVec 8 :=
  let v := regs reg + BitVec.ofNat 8 n
  if limit ≤ v then
    let regs := Function.update regs reg (v - limit)
    Function.update regs next (regs next + 1)
  else Function.update regs reg v

/-- `update_rtc_regs`: the registers are seconds, minutes, hours and the two bytes of the day
    counter. -/
def updateRtcRegs (now : BitVec 64) (rtc : Mbc3Rtc) : Mbc3Rtc :=
  let diff := now - rtc.lastTime
  let rtc := { rtc with lastTime := now }
  if 0 < diff.toInt then
    let diff := diff.toNat
    let regs := rtcCarry rtc.regs 0 1 60 (diff % 60)
    let diff := diff / 60
    let regs := rtcCarry regs 1 2 60 (diff % 60)
    let diff := diff / 60
    let regs := rtcCarry regs 2 3 24 (diff % 24)
    let diff := diff / 24
    let days : BitVec 32 :=
      (((regs 4).setWidth 32 &&& 0x01#32) <<< 8 ||| (regs 3).setWidth 32) + BitVec.ofNat 32 diff
    let regs := Function.update regs 3 ((days &&& 0xff).setWidth 8)
    let regs := Function.update regs 4
      (((regs 4).setWidth 32 &&& ~~~0x01#32 ||| days &&& 0x100#32).setWidth 8)
    let regs := if 511 < days then Function.update regs 4 (regs 4 ||| 0x80) else regs
    { rtc with regs := regs }
  else rtc

/-- `read_mbc3_rtc_regs`. -/
def readMbc3RtcRegs (now : BitVec 64) (rtc : Mbc3Rtc) (reg : Fin 5) : BitVec 8 × Mbc3Rtc :=
  if rtc.latch ≠ 0 then (rtc.latchedRegs reg, rtc)
  else
    let rtc := updateRtcRegs now rtc
    (rtc.regs reg, rtc)

/-- `write_mbc3_rtc_regs`. -/
def writeMbc3RtcRegs (rtc : Mbc3Rtc) (reg : Fin 5) (value : BitVec 8) : Mbc3Rtc :=
  { rtc with regs := Function.update rtc.regs reg value }

/-- `latch_mbc3_rtc_regs`. -/
def latchMbc3RtcRegs (now : BitVec 64) (rtc : Mbc3Rtc) (data : BitVec 8) : Mbc3Rtc :=
  let rtc :=
    if rtc.latch = 0 ∧ data = 1 then
      let rtc := updateRtcRegs now rtc
      { rtc with latchedRegs := rtc.regs }
    else rtc
  { rtc with latch := data.setWidth 32 &&& 0x1 }

-- ════════════════════════════════════════════════════════════════════════
-- The camera
-- ════════════════════════════════════════════════════════════════════════

/-- What `grab_pocket_cam_image` leaves in the RAM, by the registers of the camera. -/
abbrev Picture := (Fin 0x36 → BitVec 8) → Fin 0x1000 → BitVec 8

/-- `grab_pocket_cam_image`. -/
def grabPocketCamImage (picture : Picture) (c : GbCart) : GbCart :=
  let grab (bytes : Bytes) : Bytes := fun k =>
    if h : k < 0x1000 then picture c.camRegs ⟨k, h⟩ else bytes k
  { c with ram := c.ram.map fun ram => ⟨ram.data.map grab, ram.size⟩ }

/-- `read_pocket_cam_regs`. -/
def readPocketCamRegs (c : GbCart) (reg : ℕ) : BitVec 8 := if reg = 0 then c.camRegs 0 else 0

/-- `write_pocket_cam_regs`. -/
def writePocketCamRegs (picture : Picture) (c : GbCart) (reg : ℕ) (value : BitVec 8) : GbCart :=
  if h : reg < 0x36 then
    let c := { c with camRegs := Function.update c.camRegs ⟨reg, h⟩ value }
    if reg = 0 then
      let c := { c with camRegs := Function.update c.camRegs 0 (c.camRegs 0 &&& 0x7) }
      if c.camRegs 0 &&& 0x1 ≠ 0 then
        let c := grabPocketCamImage picture c
        { c with camRegs := Function.update c.camRegs 0 (c.camRegs 0 &&& ~~~0x01) }
      else c
    else c
  else c

-- ════════════════════════════════════════════════════════════════════════
-- Reads
-- ════════════════════════════════════════════════════════════════════════

/-- What an access leaves in the caller's buffer, and the cartridge after it. -/
abbrev GbRead := Option (List (BitVec 8) × GbCart)

/-- The windows of a read: the fixed bank and the selected bank of the ROM, and `ramWindow`. -/
def readBanked (c : GbCart) (address : BitVec 16) (data : List (BitVec 8)) (ramWindow : GbRead) :
    GbRead :=
  match gbWindow address with
  | 0 | 1 => some (readRom c address data, c)
  | 2 | 3 => some (readRom c (romBankAddress c address) data, c)
  | 5 => ramWindow
  | _ => some (data, c)

/-- `read_gb_cart_nombc`. -/
def readGbCartNombc (c : GbCart) (address : BitVec 16) (data : List (BitVec 8)) : GbRead :=
  match gbWindow address with
  | 0 | 1 | 2 | 3 => some (readRom c address data, c)
  | 5 => (readRam c 1 (address - 0xa000#16) data 0xff).map (·, c)
  | _ => some (data, c)

/-- `read_gb_cart_mbc1`. -/
def readGbCartMbc1 (c : GbCart) (address : BitVec 16) (data : List (BitVec 8)) : GbRead :=
  readBanked c address data
    ((readRam c c.ramEnable (ramBankAddress c.ramBank address) data 0xff).map (·, c))

/-- `read_gb_cart_mbc2`. -/
def readGbCartMbc2 (c : GbCart) (address : BitVec 16) (data : List (BitVec 8)) : GbRead :=
  readBanked c address data
    ((readRam c c.ramEnable (address - 0xa000#16) data 0x0f).map (·, c))

/-- The clock register an MBC3 maps, from `ram_bank`. -/
def rtcReg (c : GbCart) : Option (Fin 5) :=
  if h : 0x08 ≤ c.ramBank.toNat ∧ c.ramBank.toNat ≤ 0x0c then
    some ⟨c.ramBank.toNat - 0x08, by omega⟩
  else none

/-- `read_gb_cart_mbc3`. -/
def readGbCartMbc3 (now : BitVec 64) (c : GbCart) (address : BitVec 16) (data : List (BitVec 8)) :
    GbRead :=
  readBanked c address data <|
    if c.ramBank.toNat ≤ 0x07 then
      (readRam c c.ramEnable (ramBankAddress c.ramBank address) data 0xff).map (·, c)
    else
      match rtcReg c with
      | some reg =>
        if c.ramEnable = 0 ∨ ¬c.hasRtc then some (List.replicate data.length 0xff, c)
        else
          let (value, rtc) := readMbc3RtcRegs now c.rtc reg
          some (List.replicate data.length value, { c with rtc := rtc })
      | none => some (data, c)

/-- `read_gb_cart_mbc5`. -/
def readGbCartMbc5 (c : GbCart) (address : BitVec 16) (data : List (BitVec 8)) : GbRead :=
  readBanked c address data
    ((readRam c c.ramEnable (ramBankAddress (c.ramBank &&& 0x7#32) address) data 0xff).map (·, c))

/-- `read_gb_cart_pocket_cam`. -/
def readGbCartPocketCam (c : GbCart) (address : BitVec 16) (data : List (BitVec 8)) : GbRead :=
  readBanked c address data <|
    if c.ramBank &&& 0x10 ≠ 0 then
      some (data.mapIdx fun i _ => readPocketCamRegs c ((address.toNat + i) % 0x80), c)
    else (readRam c 1 (ramBankAddress c.ramBank address) data 0xff).map (·, c)

/-- `read_gb_cart`; the other controllers answer nothing. -/
def readGbCart (now : BitVec 64) (c : GbCart) (address : BitVec 16) (data : List (BitVec 8)) :
    GbRead :=
  match c.mbc with
  | .nombc => readGbCartNombc c address data
  | .mbc1 => readGbCartMbc1 c address data
  | .mbc2 => readGbCartMbc2 c address data
  | .mbc3 => readGbCartMbc3 now c address data
  | .mbc5 => readGbCartMbc5 c address data
  | .pocketCam => readGbCartPocketCam c address data
  | .mbc6 | .mbc7 | .mmm01 | .bandaiTama5 | .huc1 | .huc3 => some (data, c)

-- ════════════════════════════════════════════════════════════════════════
-- Writes
-- ════════════════════════════════════════════════════════════════════════

/-- `write_gb_cart_nombc`. -/
def writeGbCartNombc (c : GbCart) (address : BitVec 16) (data : List (BitVec 8)) :
    Option GbCart :=
  match gbWindow address with
  | 5 => writeRam c 1 (address - 0xa000#16) data 0xff
  | _ => some c

/-- `write_gb_cart_mbc1`. -/
def writeGbCartMbc1 (c : GbCart) (address : BitVec 16) (data : List (BitVec 8)) : Option GbCart :=
  let value := lastByte data
  match gbWindow address with
  | 0 => some (setRamEnable c value)
  | 1 =>
    let bank := value.setWidth 32 &&& 0x1f
    some { c with romBank := (c.romBank &&& ~~~0x1f) ||| (if bank = 0 then 1 else bank) }
  | 2 =>
    let bank := value.setWidth 32 &&& 0x3
    if c.mbc1Mode = 0 then some { c with romBank := (c.romBank &&& 0x1f#32) ||| (bank <<< 5) }
    else some { c with ramBank := bank }
  | 3 =>
    let mode := value.setWidth 32 &&& 0x1
    -- only RAM bank 0 is accessible in ROM mode, only ROM banks 01-1f in RAM mode
    if mode = 0 then some { c with mbc1Mode := mode, ramBank := 0 }
    else some { c with mbc1Mode := mode, romBank := c.romBank &&& 0x1f }
  | 5 => writeRam c c.ramEnable (ramBankAddress c.ramBank address) data 0xff
  | _ => some c

/-- `write_gb_cart_mbc2`. -/
def writeGbCartMbc2 (c : GbCart) (address : BitVec 16) (data : List (BitVec 8)) : Option GbCart :=
  let value := lastByte data
  match gbWindow address with
  | 0 => some (if address &&& 0x0100 = 0 then setRamEnable c value else c)
  | 1 =>
    let bank := value.setWidth 32 &&& 0x0f
    some (if address &&& 0x0100 ≠ 0 then { c with romBank := if bank = 0 then 1 else bank } else c)
  | 5 => writeRam c c.ramEnable (address - 0xa000#16) data 0x0f
  | _ => some c

/-- `write_gb_cart_mbc3`. -/
def writeGbCartMbc3 (now : BitVec 64) (c : GbCart) (address : BitVec 16) (data : List (BitVec 8)) :
    Option GbCart :=
  let value := lastByte data
  match gbWindow address with
  | 0 => some (setRamEnable c value)
  | 1 =>
    let bank := value.setWidth 32 &&& 0x7f
    some { c with romBank := if bank = 0 then 1 else bank }
  | 2 => some { c with ramBank := value.setWidth 32 }
  | 3 => some (if c.hasRtc then { c with rtc := latchMbc3RtcRegs now c.rtc value } else c)
  | 5 =>
    if c.ramBank.toNat ≤ 0x07 then
      writeRam c c.ramEnable (ramBankAddress c.ramBank address) data 0xff
    else
      match rtcReg c with
      | some reg =>
        if c.ramEnable = 0 ∨ ¬c.hasRtc then some c
        else some { c with rtc := writeMbc3RtcRegs c.rtc reg value }
      | none => some c
  | _ => some c

/-- `write_gb_cart_mbc5`, without the motor of a rumble cartridge. -/
def writeGbCartMbc5 (c : GbCart) (address : BitVec 16) (data : List (BitVec 8)) : Option GbCart :=
  let value := lastByte data
  match gbWindow address with
  | 0 => some (setRamEnable c value)
  | 1 =>
    if address < 0x3000 then
      some { c with romBank := (c.romBank &&& 0xff00) ||| value.setWidth 32 }
    else
      some { c with romBank := (c.romBank &&& 0x00ff#32) |||
        ((value.setWidth 32 &&& 0x01#32) <<< 8) }
  | 2 => some { c with ramBank := value.setWidth 32 &&& 0x0f }
  | 5 => writeRam c c.ramEnable (ramBankAddress (c.ramBank &&& 0x07#32) address) data 0xff
  | _ => some c

/-- `write_gb_cart_pocket_cam`. -/
def writeGbCartPocketCam (picture : Picture) (c : GbCart) (address : BitVec 16)
    (data : List (BitVec 8)) : Option GbCart :=
  let value := lastByte data
  match gbWindow address with
  | 0 => some (setRamEnable c value)
  | 1 => some { c with romBank := value.setWidth 32 &&& 0x3f }
  | 2 =>
    if value &&& 0x10 ≠ 0 then some { c with ramBank := value.setWidth 32 }
    else some { c with ramBank := value.setWidth 32 &&& 0x0f }
  | 5 =>
    if c.ramBank &&& 0x10 ≠ 0 then
      some (data.zipIdx.foldl
        (fun c b => writePocketCamRegs picture c ((address.toNat + b.2) % 0x80) b.1) c)
    else writeRam c c.ramEnable (ramBankAddress c.ramBank address) data 0xff
  | _ => some c

/-- `write_gb_cart`. -/
def writeGbCart (now : BitVec 64) (picture : Picture) (c : GbCart) (address : BitVec 16)
    (data : List (BitVec 8)) : Option GbCart :=
  match c.mbc with
  | .nombc => writeGbCartNombc c address data
  | .mbc1 => writeGbCartMbc1 c address data
  | .mbc2 => writeGbCartMbc2 c address data
  | .mbc3 => writeGbCartMbc3 now c address data
  | .mbc5 => writeGbCartMbc5 c address data
  | .pocketCam => writeGbCartPocketCam picture c address data
  | .mbc6 | .mbc7 | .mmm01 | .bandaiTama5 | .huc1 | .huc3 => some c

end Mupen64plus
