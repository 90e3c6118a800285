import Mupen64plus.Device.State

/-!
# Disks of the 64DD

`disk.c` and `disk.h`: the geometry of a disk, the numbering of its blocks, where the sectors of a
block lie in the three formats of a disk image, and the scan that tells the formats apart.

## Main definitions

- `DdSysData` — the system data of a disk, as it lies in the image
- `lbaToPhys`, `lbaToByteA`, `generateLbaToPhysTable`, `physToLba` — logical blocks
- `getSectorBase` — the offset of a sector in the image, over one function for each format
- `scanAndExpandDiskFormat` — the disk that an image holds
-/

namespace Mupen64plus

-- ════════════════════════════════════════════════════════════════════════
-- Tables
-- ════════════════════════════════════════════════════════════════════════

def sectorsPerBlock : ℕ := 85
def maxLba : ℕ := 0x10db
def sizeLba : ℕ := 0x10dc
def systemLbas : ℕ := 24
def diskidLba : ℕ := 14
def protectLba : ℕ := 12
def d64OffsetData : ℕ := 0x200
def mameFormatDumpSize : ℕ := 0x0435b0c0
def sdkFormatDumpSize : ℕ := 0x03dec800

/-- `zone_sec_size`. -/
def zoneSecSize : List ℕ :=
  [232, 216, 208, 192, 176, 160, 144, 128, 216, 208, 192, 176, 160, 144, 128, 112]

/-- `zone_sec_size_phys`. -/
def zoneSecSizePhys : List ℕ := [232, 216, 208, 192, 176, 160, 144, 128, 112]

/-- `ZoneTracks`. -/
def zoneTracks : List ℕ :=
  [158, 158, 149, 149, 149, 149, 149, 114, 158, 158, 149, 149, 149, 149, 149, 114]

/-- `DiskTypeZones`. -/
def diskTypeZones : List (List ℕ) :=
  [[0, 1, 2, 9, 8, 3, 4, 5, 6, 7, 15, 14, 13, 12, 11, 10],
    [0, 1, 2, 3, 10, 9, 8, 4, 5, 6, 7, 15, 14, 13, 12, 11],
    [0, 1, 2, 3, 4, 11, 10, 9, 8, 5, 6, 7, 15, 14, 13, 12],
    [0, 1, 2, 3, 4, 5, 12, 11, 10, 9, 8, 6, 7, 15, 14, 13],
    [0, 1, 2, 3, 4, 5, 6, 13, 12, 11, 10, 9, 8, 7, 15, 14],
    [0, 1, 2, 3, 4, 5, 6, 7, 14, 13, 12, 11, 10, 9, 8, 15],
    [0, 1, 2, 3, 4, 5, 6, 7, 15, 14, 13, 12, 11, 10, 9, 8]]

/-- `VZoneLBATable`. -/
def vzoneLbaTable : List (List ℕ) :=
  [[0x0124, 0x0248, 0x035A, 0x047E, 0x05A2, 0x06B4, 0x07C6, 0x08D8,
      0x09EA, 0x0AB6, 0x0B82, 0x0C94, 0x0DA6, 0x0EB8, 0x0FCA, 0x10DC],
    [0x0124, 0x0248, 0x035A, 0x046C, 0x057E, 0x06A2, 0x07C6, 0x08D8,
      0x09EA, 0x0AFC, 0x0BC8, 0x0C94, 0x0DA6, 0x0EB8, 0x0FCA, 0x10DC],
    [0x0124, 0x0248, 0x035A, 0x046C, 0x057E, 0x0690, 0x07A2, 0x08C6,
      0x09EA, 0x0AFC, 0x0C0E, 0x0CDA, 0x0DA6, 0x0EB8, 0x0FCA, 0x10DC],
    [0x0124, 0x0248, 0x035A, 0x046C, 0x057E, 0x0690, 0x07A2, 0x08B4,
      0x09C6, 0x0AEA, 0x0C0E, 0x0D20, 0x0DEC, 0x0EB8, 0x0FCA, 0x10DC],
    [0x0124, 0x0248, 0x035A, 0x046C, 0x057E, 0x0690, 0x07A2, 0x08B4,
      0x09C6, 0x0AD8, 0x0BEA, 0x0D0E, 0x0E32, 0x0EFE, 0x0FCA, 0x10DC],
    [0x0124, 0x0248, 0x035A, 0x046C, 0x057E, 0x0690, 0x07A2, 0x086E,
      0x0980, 0x0A92, 0x0BA4, 0x0CB6, 0x0DC8, 0x0EEC, 0x1010, 0x10DC],
    [0x0124, 0x0248, 0x035A, 0x046C, 0x057E, 0x0690, 0x07A2, 0x086E,
      0x093A, 0x0A4C, 0x0B5E, 0x0C70, 0x0D82, 0x0E94, 0x0FB8, 0x10DC]]

/-- The first row of `TrackZoneTable`. -/
def trackZoneStart : List (BitVec 32) :=
  [0x000, 0x09E, 0x13C, 0x1D1, 0x266, 0x2FB, 0x390, 0x425]

/-- Both rows of `TrackZoneTable`, one behind the other: `LBAToPhys` reads the second row through
    the first. -/
def trackZoneTable : List ℕ :=
  trackZoneStart.map (·.toNat) ++ [0x091, 0x12F, 0x1C4, 0x259, 0x2EE, 0x383, 0x418, 0x48A]

/-- `OUTERCYL_TBL`. -/
def outercylTbl : List ℕ := [0x000, 0x09E, 0x13C, 0x1D1, 0x266, 0x2FB, 0x390, 0x425]

/-- `start_offset` of `get_sector_base_mame`. -/
def mameStartOffset : List ℕ :=
  [0x0000000, 0x05f15e0, 0x0b79d00, 0x10801a0, 0x1523720, 0x1963d80, 0x1d414c0, 0x20bbce0,
    0x23196e0, 0x28a1e00, 0x2df5dc0, 0x3299340, 0x36d99a0, 0x3ab70e0, 0x3e31900, 0x4149200]

/-- `RAM_START_LBA`. -/
def ramStartLba : List ℕ := [0x5A2, 0x7C6, 0x9EA, 0xC0E, 0xE32, 0x1010, 0x10DC]

/-- `RAM_SIZES`. -/
def ramSizes : List ℕ := [0x24A9DC0, 0x1C226C0, 0x1450F00, 0xD35680, 0x6CFD40, 0x1DA240, 0x0]

/-- `BLOCKSIZE`. -/
def blockSize (zone : ℕ) : ℕ := zoneSecSize.getD zone 0 * sectorsPerBlock

/-- A row and a column of a table; what lies outside of the table is read as 0. -/
def tableAt (table : List (List ℕ)) (row column : ℕ) : ℕ := (table.getD row []).getD column 0

/-- `VZoneToPZone`. -/
def vzoneToPZone (vzone disktype : ℕ) : ℕ := tableAt diskTypeZones disktype vzone

-- ════════════════════════════════════════════════════════════════════════
-- System data
-- ════════════════════════════════════════════════════════════════════════

/-- `struct dd_sys_data`, and the bytes of the image behind it. -/
structure DdSysData where
  bytes : Bytes

namespace DdSysData

variable (s : DdSysData)

/-- A field of two bytes, as `big16` reads it. -/
def big16 (i : ℕ) : ℕ := (s.bytes i).toNat * 0x100 + (s.bytes (i + 1)).toNat

/-- A field of four bytes, as `big32` reads it. -/
def big32 (i : ℕ) : ℕ := s.big16 i * 0x10000 + s.big16 (i + 2)

def region : ℕ := s.big32 0
def type : BitVec 8 := s.bytes 5
def iplLoadBlk : ℕ := s.big16 6
def defectOffset (i : ℕ) : BitVec 8 := s.bytes (8 + i)
def iplLoadAddr : ℕ := s.big32 28
def defectInfo (i : ℕ) : BitVec 8 := s.bytes (32 + i)
def romLbaEnd : ℕ := s.big16 224
def ramLbaStart : ℕ := s.big16 226
def ramLbaEnd : ℕ := s.big16 228

end DdSysData

/-- The disk type, which stands in the low half of its byte. -/
def diskTypeOf (type : BitVec 8) : ℕ := (type &&& 0x0f).toNat

def DdDisk.sysData (disk : DdDisk) : DdSysData := ⟨fun i => disk.data (disk.offsetSys + i)⟩

-- ════════════════════════════════════════════════════════════════════════
-- Logical blocks
-- ════════════════════════════════════════════════════════════════════════

/-- `LBAToVZoneA`. -/
def lbaToVZoneA (type : BitVec 8) (lba : ℕ) : ℕ :=
  ((List.range 16).find? fun vzone => lba < tableAt vzoneLbaTable (diskTypeOf type) vzone).getD
    0xffffffff

/-- The block size that `LBAToByteA` computes for a virtual zone. -/
def vzoneBlockSize (type : BitVec 8) (vzone : ℕ) : ℕ :=
  let pzone := vzoneToPZone vzone (diskTypeOf type)
  let pzone := if 7 < pzone then pzone - 7 else pzone
  zoneSecSizePhys.getD pzone 0 * sectorsPerBlock

/-- The loop of `LBAToByteA`. The zone is looked up anew where the last one ends. -/
def lbaToByteLoop (type : BitVec 8) :
    (nlbas : ℕ) → (initFlag : Bool) → (vzone blocksize lba totalbytes : ℕ) → ℕ
  | 0, _, _, _, _, totalbytes => totalbytes
  | nlbas + 1, initFlag, vzone, blocksize, lba, totalbytes =>
    let lookup := initFlag || tableAt vzoneLbaTable (diskTypeOf type) vzone == lba
    let vzone := if lookup then lbaToVZoneA type lba else vzone
    let blocksize := if lookup then vzoneBlockSize type vzone else blocksize
    if nlbas ≠ 0 ∧ maxLba < lba + 1 then 0xffffffff
    else lbaToByteLoop type nlbas false vzone blocksize (lba + 1) (totalbytes + blocksize)

/-- `LBAToByteA`. -/
def lbaToByteA (type : BitVec 8) (lba nlbas : ℕ) : ℕ := lbaToByteLoop type nlbas true 0 0 lba 0

/-- The loop of `LBAToPhys` that skips defect tracks. -/
def skipDefects (info : ℕ → BitVec 8) (zoneStart : BitVec 16) :
    (defectAmount : ℕ) → (defectOffset track : BitVec 16) → BitVec 16
  | 0, _, track => track
  | defectAmount + 1, defectOffset, track =>
    if (info defectOffset.toNat).toNat + zoneStart.toNat ≤ track.toNat then
      skipDefects info zoneStart defectAmount (defectOffset + 1) (track + 1)
    else track

/-- The block of its track that an LBA is, the order of the blocks being turned around on every
    second track. -/
def lbaBlock (lba : ℕ) : BitVec 16 := if lba % 4 = 0 ∨ lba % 4 = 3 then 0 else 1

/-- The word that tells a head, a track and a block. -/
def physOf (head track block : BitVec 16) : BitVec 16 :=
  track ||| (head * 0x1000) ||| (block * 0x2000)

/-- `LBAToPhys`. -/
def lbaToPhys (s : DdSysData) (lba : ℕ) : BitVec 16 :=
  let disktype := diskTypeOf s.type
  let vzone := lbaToVZoneA s.type lba
  let pzone := vzoneToPZone vzone disktype
  let head : BitVec 16 := if 7 < pzone then 1 else 0
  let vzoneLba := if vzone ≠ 0 then tableAt vzoneLbaTable disktype (vzone - 1) else 0
  let track := BitVec.ofNat 16 ((lba - vzoneLba) / 2)
  -- head 1 counts its tracks from the other end of the zone
  let zoneStart :=
    BitVec.ofNat 16
      (if head ≠ 0 then outercylTbl.getD (pzone - 8) 0 else trackZoneTable.getD pzone 0)
  let track := (if head ≠ 0 then -track else track) + BitVec.ofNat 16 (trackZoneTable.getD pzone 0)
  let defectOffset : BitVec 16 :=
    if pzone ≠ 0 then (s.defectOffset (pzone - 1)).zeroExtend 16 else 0
  let defectAmount := (s.defectOffset pzone).zeroExtend 16 - defectOffset
  let track := skipDefects s.defectInfo zoneStart defectAmount.toNat defectOffset track
  physOf head track (lbaBlock lba)

/-- `GenerateLBAToPhysTable`. -/
def generateLbaToPhysTable (disk : DdDisk) : DdDisk :=
  if disk.format = .mame then disk
  else { disk with lbaPhysTable := fun lba =>
    if lba < sizeLba then lbaToPhys disk.sysData lba else disk.lbaPhysTable lba }

/-- `PhysToLBA`. -/
def physToLba (disk : DdDisk) (head track block : BitVec 16) : ℕ :=
  ((List.range sizeLba).find? fun lba =>
    disk.lbaPhysTable lba == physOf head track block).getD 0xffff

-- ════════════════════════════════════════════════════════════════════════
-- Sectors
-- ════════════════════════════════════════════════════════════════════════

/-- The loop of `get_zone_from_head_track`, counting down. -/
def zoneFromTrack (track : BitVec 32) : ℕ → ℕ
  | 0 => 0
  | zone + 1 =>
    if trackZoneStart.getD (zone + 1) 0 ≤ track then zone + 1 else zoneFromTrack track zone

/-- `get_zone_from_head_track`. -/
def getZoneFromHeadTrack (head track : BitVec 32) : BitVec 32 :=
  BitVec.ofNat 32 (zoneFromTrack track 7) + head

/-- The size of the sectors of a track, development disks apart. -/
def trackSecSize (head track : BitVec 32) : ℕ :=
  zoneSecSizePhys.getD (getZoneFromHeadTrack head track).toNat 0

/-- The size of the sectors of a track in the formats that know of development disks. -/
def sectorSize (disk : DdDisk) (head track : BitVec 32) : ℕ :=
  if disk.development ∧ head = 0 ∧ track < 6 then 0xc0 else trackSecSize head track

/-- `x / BLOCKSIZE(0)` as the macro is expanded: the product is not in brackets. -/
def lblockOf (offset : ℕ) : ℕ := offset / zoneSecSize.getD 0 0 * sectorsPerBlock % 0x10000

/-- The test for protected blocks. -/
def protectedBlock (disk : DdDisk) (offset : ℕ) : Bool :=
  let lblock := lblockOf offset
  lblock < protectLba && lblock != lblockOf disk.offsetSys ||
    protectLba < lblock && lblock < diskidLba + 2 && lblock != lblockOf disk.offsetId

/-- `get_sector_base_mame`. -/
def getSectorBaseMame (disk : DdDisk) (head track block sector : BitVec 32) : Option ℕ :=
  let zone := (getZoneFromHeadTrack head track - head).toNat
  let trOff := track.toNat - trackZoneTable.getD zone 0
  let zone := zone + head.toNat * 8
  let offset := (mameStartOffset.getD zone 0 + trOff * (blockSize zone * 2) +
    block.toNat * blockSize zone + sector.toNat * sectorSize disk head track) % 2 ^ 32
  if sector = 0 ∧ track.toNat < systemLbas / 2 ∧ protectedBlock disk offset then none
  else some offset

/-- `get_sector_base_sdk`. -/
def getSectorBaseSdk (disk : DdDisk) (head track block sector : BitVec 32) : Option ℕ :=
  let lba := physToLba disk (head.truncate 16) (track.truncate 16) (block.truncate 16)
  if maxLba < lba then none
  else
    let offset := (lbaToByteA disk.sysData.type 0 lba +
      sector.toNat * sectorSize disk head track) % 2 ^ 32
    if sector = 0 ∧ lba < systemLbas ∧ protectedBlock disk offset then none
    else some offset

/-- `get_sector_base_d64`. -/
def getSectorBaseD64 (disk : DdDisk) (head track block sector : BitVec 32) : Option ℕ :=
  let s := disk.sysData
  let diskType := s.type &&& 0x0f
  let lba := physToLba disk (head.truncate 16) (track.truncate 16) (block.truncate 16)
  let within := sector.toNat * trackSecSize head track
  if lba < diskidLba then some (disk.offsetSys % 2 ^ 32)
  else if lba < systemLbas then some (disk.offsetId % 2 ^ 32)
  else if lba ≤ s.romLbaEnd + systemLbas then
    some ((d64OffsetData + lbaToByteA diskType systemLbas (lba - systemLbas) + within) % 2 ^ 32)
  else if s.ramLbaStart ≤ lba - systemLbas ∧ lba - systemLbas ≤ s.ramLbaEnd then
    some ((disk.offsetRam + lbaToByteA diskType (s.ramLbaStart + systemLbas)
      (lba - systemLbas - s.ramLbaStart) + within) % 2 ^ 32)
  else none

/-- `get_sector_base`, as an offset into the image. -/
def getSectorBase (disk : DdDisk) (head track block sector : BitVec 32) : Option ℕ :=
  match disk.format with
  | .mame => getSectorBaseMame disk head track block sector
  | .sdk => getSectorBaseSdk disk head track block sector
  | .d64 => getSectorBaseD64 disk head track block sector

-- ════════════════════════════════════════════════════════════════════════
-- The scan of an image
-- ════════════════════════════════════════════════════════════════════════

def ddRegionJp : ℕ := 0xe848d316
def ddRegionUs : ℕ := 0x2263ee56
def ddRegionDv : ℕ := 0x00000000

/-- The blocks that may hold the system data. -/
def scanBlocks : List ℕ := [0, 1, 2, 3, 8, 9, 10, 11]

/-- The blocks that hold the system data of a development disk. -/
def isDevelopmentBlock (block : ℕ) : Bool :=
  block == 2 || block == 3 || block == 10 || block == 11

/-- The system data at an offset of an image. -/
def sysDataAt (data : Bytes) (offset : ℕ) : DdSysData := ⟨fun i => data (offset + i)⟩

/-- The checks of the type, of the load block, of the load address and of the region. -/
def validSysData (s : DdSysData) : Bool :=
  (s.type &&& 0xEF).toNat ≤ 6 && (s.iplLoadBlk ≤ maxLba - systemLbas && s.iplLoadBlk != 0) &&
    (0x80000000 ≤ s.iplLoadAddr && s.iplLoadAddr < 0x80800000) &&
    (s.region == ddRegionJp || s.region == ddRegionUs || s.region == ddRegionDv)

/-- The loop of `memcmp` that verifies that a sector repeats over its block. -/
def sectorsRepeat (data : Bytes) (offset sectorsize : ℕ) : Bool :=
  (List.range (sectorsPerBlock - 1)).all fun j => (List.range sectorsize).all fun k =>
    data (offset + j * sectorsize + k) == data (offset + (j + 1) * sectorsize + k)

/-- The size of the sectors of a block of system data. -/
def sysSectorSize (block : ℕ) : ℕ := zoneSecSize.getD (if isDevelopmentBlock block then 3 else 0) 0

/-- The image has one of the two sizes that are known. -/
def isDumpSize (size : ℕ) : Bool := size == mameFormatDumpSize || size == sdkFormatDumpSize

/-- The loop for the system data. Its answer is the index of the loop, not the block. -/
def scanSysData (data : Bytes) (size : ℕ) : List (ℕ × ℕ) → Option ℕ
  | [] => none
  | (block, i) :: rest =>
    let offset := blockSize 0 * block
    if size ≤ offset + 0x20 ∨ size < mameFormatDumpSize ∧ size < sdkFormatDumpSize ∧ 0 < i then none
    else if !validSysData (sysDataAt data offset) then scanSysData data size rest
    else if isDumpSize size && !sectorsRepeat data offset (sysSectorSize block) then
      scanSysData data size rest
    else some i

/-- The loop for the disk id. -/
def scanDiskId (data : Bytes) : Option ℕ :=
  [14, 15].find? fun i => sectorsRepeat data (i * blockSize 0) (zoneSecSize.getD 0 0)

/-- What `scan_and_expand_disk_format` hands back. What a format leaves alone is 0, as its callers
    have set it. -/
structure DiskScan where
  data : Bytes
  format : DiskFormat
  development : Bool
  offsetSys : ℕ
  offsetId : ℕ
  offsetRam : ℕ
  sizeRam : ℕ

/-- `type & 0x0F`, as it is passed on. -/
def diskTypeByte (s : DdSysData) : BitVec 8 := s.type &&& 0x0f

/-- The bytes of the ROM area of a D64 image. -/
def d64RomSize (s : DdSysData) : ℕ := lbaToByteA (diskTypeByte s) systemLbas (s.romLbaEnd + 1)

/-- The blocks of the RAM area of a D64 image, as a number of 32 bits. -/
def d64RamBlocks (s : DdSysData) : ℕ := (s.ramLbaEnd + 1 + (2 ^ 32 - s.ramLbaStart)) % 2 ^ 32

/-- The bytes of the RAM area of a D64 image. -/
def d64RamSize (s : DdSysData) : ℕ :=
  if s.ramLbaStart ≠ 0xFFFF ∧ s.ramLbaEnd ≠ 0xFFFF then
    lbaToByteA (diskTypeByte s) (systemLbas + s.ramLbaStart) (d64RamBlocks s)
  else 0

/-- The checks of the RAM area and of the size of a D64 image. -/
def validD64 (s : DdSysData) (size : ℕ) : Bool :=
  (s.ramLbaStart == ramStartLba.getD (diskTypeOf s.type) 0 - systemLbas ||
      s.ramLbaStart == 0xFFFF) &&
    size == d64OffsetData + d64RomSize s + d64RamSize s

/-- The image of a D64 disk with all of its RAM area. -/
def expandD64 (data : Bytes) (size : ℕ) : Bytes := fun i =>
  let s := sysDataAt data 0
  let start := ramStartLba.getD (diskTypeOf s.type) 0 - systemLbas
  let area := if diskTypeOf s.type < 6 then
      [start / 0x100, start % 0x100, (maxLba - systemLbas) / 0x100, (maxLba - systemLbas) % 0x100]
    else [0xFF, 0xFF, 0xFF, 0xFF]
  if i = 4 then 0x10
  else if i = 5 then data 5 ||| 0x10
  else if 226 ≤ i ∧ i < 230 then BitVec.ofNat 8 (area.getD (i - 226) 0)
  else if i < size then data i
  else 0

/-- `scan_and_expand_disk_format`; `malloc` tells whether there is memory for a D64 image. -/
def scanAndExpandDiskFormat (malloc : Bool) (data : Bytes) (size : ℕ) : Option DiskScan := do
  let sys ← scanSysData data size scanBlocks.zipIdx
  let type (data : Bytes) (offset : ℕ) := diskTypeOf (sysDataAt data offset).type
  if isDumpSize size then
    let id ← scanDiskId data
    let found : DiskScan := ⟨data, .mame, isDevelopmentBlock sys, 0x4D08 * sys, 0x4D08 * id, 0, 0⟩
    if size = mameFormatDumpSize then pure found
    else pure { found with
      format := .sdk
      offsetRam := lbaToByteA (diskTypeByte (sysDataAt data found.offsetSys)) 0
        (ramStartLba.getD (type data found.offsetSys) 0)
      sizeRam := ramSizes.getD (type data found.offsetSys) 0 }
  else
    guard (validD64 (sysDataAt data 0) size)
    guard malloc
    let data := expandD64 data size
    pure ⟨data, .d64, true, 0, 0x100,
      d64OffsetData + lbaToByteA (diskTypeByte (sysDataAt data 0)) systemLbas
        ((sysDataAt data 0).romLbaEnd + 1),
      ramSizes.getD (type data 0) 0⟩

end Mupen64plus
