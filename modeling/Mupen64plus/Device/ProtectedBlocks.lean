import Mupen64plus.Device.DiskScan
import Mupen64plus.Device.LbaMapping

/-!
# Protected blocks of a 64DD disk

Of the first blocks of a disk only the copy of the system data that is in use and that of the disk
id can be read. The test recovers the number of a block from an offset by a division whose divisor
is a product that has no brackets.

## Main definitions

- `SystemArea` — where a disk has its system data and its id
- `AccessesBlock` — an access to a block of the system area
- `IsProtected` — the blocks that are not to be read

## Main results

- `protectedBlock_iff` — the test, on the first 24 blocks
- `protected_iff`
-/

namespace Mupen64plus

/-- A disk as `scan_and_expand_disk_format` leaves it: the index that was found for the system data,
and the block of the disk id. -/
structure SystemArea (disk : DdDisk) (sys id : ℕ) : Prop where
  sys_lt : sys < 8
  id_mem : id ∈ [14, 15]
  offsetSys : disk.offsetSys = 0x4D08 * sys
  offsetId : disk.offsetId = 0x4D08 * id
  type : disk.format = .sdk → diskTypeOf disk.sysData.type < 7

/-- An access to a block of the system area. An image in the MAME format has the blocks in the order
of the tracks, one in the SDK format in the order of the logical numbers. -/
def AccessesBlock (disk : DdDisk) (head track block : BitVec 32) (b : ℕ) : Prop :=
  b < systemLbas ∧ match disk.format with
    | .mame => head = 0 ∧ block.toNat < 2 ∧ b = 2 * track.toNat + block.toNat
    | .sdk => b = physToLba disk (head.truncate 16) (track.truncate 16) (block.truncate 16)
    | .d64 => False

/-- The blocks that are not to be read: those of the system data but for the valid one, and those
of the disk id but for the valid one. -/
def IsProtected (sys id b : ℕ) : Prop :=
  b < protectLba ∧ b ≠ sys ∨ protectLba < b ∧ b < diskidLba + 2 ∧ b ≠ id

instance decidableIsProtected (sys id b : ℕ) : Decidable (IsProtected sys id b) :=
  inferInstanceAs (Decidable (_ ∨ _))

/-- The blocks on which the test is right: block 0, the two valid blocks, and those that are never
protected. -/
def BlockKept (sys id b : ℕ) : Prop := b = 0 ∨ b = sys ∨ b = id ∨ b = protectLba ∨ diskidLba + 2 ≤ b

instance decidableBlockKept (sys id b : ℕ) : Decidable (BlockKept sys id b) :=
  inferInstanceAs (Decidable (_ ∨ _))

section

variable {disk : DdDisk} {sys id b : ℕ} {head track block : BitVec 32}

/-- The test on the offset of a block. The numbers it compares are 7225 times those of the blocks,
modulo 2 ^ 16. -/
theorem protectedBlock_iff (h : SystemArea disk sys id) (hb : b < systemLbas) :
    (protectedBlock disk (0x4D08 * b) = true ↔ IsProtected (scanBlocks.getD sys 0) id b) ↔
      BlockKept (scanBlocks.getD sys 0) id b := by
  have hall : ∀ sys < 8, ∀ id ∈ [14, 15], ∀ b < systemLbas,
      ((lblockOf (0x4D08 * b) < protectLba && lblockOf (0x4D08 * b) != lblockOf (0x4D08 * sys) ||
          protectLba < lblockOf (0x4D08 * b) && lblockOf (0x4D08 * b) < diskidLba + 2 &&
            lblockOf (0x4D08 * b) != lblockOf (0x4D08 * id)) = true ↔
        IsProtected (scanBlocks.getD sys 0) id b) ↔ BlockKept (scanBlocks.getD sys 0) id b := by
    decide
  unfold protectedBlock
  rw [h.offsetSys, h.offsetId]
  exact hall sys h.sys_lt id h.id_mem b hb

theorem mame_none_iff (hformat : disk.format = .mame) (h : AccessesBlock disk head track block b) :
    getSectorBase disk head track block 0 = none ↔ protectedBlock disk (0x4D08 * b) = true := by
  obtain ⟨hb, hplace⟩ := h
  rw [hformat] at hplace
  obtain ⟨rfl, hblock, rfl⟩ := hplace
  have htrack : track.toNat < 12 := by
    rw [systemLbas] at hb
    omega
  have hzone : (getZoneFromHeadTrack 0 track - 0).toNat = 0 := by
    have hfirst : zoneFromTrack track 7 = 0 := zoneFromTrack_eq (by decide) (by decide)
      (Nat.zero_le _) (by have hlength : zoneStart 0 + zoneLength 0 = 158 := rfl; omega)
    rw [getZoneFromHeadTrack, hfirst]
    rfl
  have hsize : blockSize 0 = 0x4D08 := rfl
  have hoffset : (mameStartOffset.getD 0 0 + (track.toNat - trackZoneTable.getD 0 0) *
      (blockSize 0 * 2) + block.toNat * blockSize 0 +
        (0 : BitVec 32).toNat * sectorSize disk 0 track) % 2 ^ 32 =
      0x4D08 * (2 * track.toNat + block.toNat) := by
    have hstart : mameStartOffset.getD 0 0 = 0 := rfl
    have hfirst : trackZoneTable.getD 0 0 = 0 := rfl
    have hsector : (0 : BitVec 32).toNat = 0 := rfl
    rw [hstart, hfirst, hsector, hsize, Nat.zero_mul]
    omega
  unfold getSectorBase
  rw [hformat]
  dsimp only
  unfold getSectorBaseMame
  dsimp only
  have hhead : (0 : ℕ) + (0 : BitVec 32).toNat * 8 = 0 := rfl
  have hsystem : track.toNat < systemLbas / 2 := htrack
  rw [hzone, hhead, hoffset]
  cases protectedBlock disk (0x4D08 * (2 * track.toNat + block.toNat)) with
  | false => simp
  | true => simp [hsystem]

theorem lbaToByteA_system {type : BitVec 8} (ht : diskTypeOf type < 7) (hb : b ≤ systemLbas) :
    lbaToByteA type 0 b = 0x4D08 * b := by
  rw [systemLbas] at hb
  have hsize : ∀ i ∈ Finset.range b, lbaBlockSize type (0 + i) = 0x4D08 := by
    intro i hi
    have hlt := Finset.mem_range.mp hi
    have hfirst : ∀ t < 7, 24 ≤ tableAt vzoneLbaTable t 0 := by decide
    have hvzone : lbaToVZoneA type (0 + i) = 0 :=
      lbaToVZoneA_eq ht (by decide) (Nat.zero_le _) (by have := hfirst _ ht; omega)
    have hblock : ∀ t < 7, zoneSecSizePhys.getD (if 7 < vzoneToPZone 0 t then vzoneToPZone 0 t - 7
        else vzoneToPZone 0 t) 0 * sectorsPerBlock = 0x4D08 := by decide
    unfold lbaBlockSize lbaZone
    rw [hvzone]
    exact hblock _ ht
  rw [lbaToByteA_eq_sum ht (by rw [sizeLba]; omega), Finset.sum_congr rfl hsize,
    Finset.sum_const, Finset.card_range, nsmul_eq_mul, Nat.cast_id, Nat.mul_comm]

theorem sdk_none_iff (ht : diskTypeOf disk.sysData.type < 7) (hformat : disk.format = .sdk)
    (h : AccessesBlock disk head track block b) :
    getSectorBase disk head track block 0 = none ↔ protectedBlock disk (0x4D08 * b) = true := by
  obtain ⟨hb, hplace⟩ := h
  rw [hformat] at hplace
  have hlba : physToLba disk (head.truncate 16) (track.truncate 16) (block.truncate 16) = b :=
    hplace.symm
  rw [systemLbas] at hb
  have hoffset : (lbaToByteA disk.sysData.type 0 b +
      (0 : BitVec 32).toNat * sectorSize disk head track) % 2 ^ 32 = 0x4D08 * b := by
    rw [lbaToByteA_system ht (by rw [systemLbas]; omega)]
    have hsector : (0 : BitVec 32).toNat = 0 := rfl
    rw [hsector, Nat.zero_mul]
    omega
  unfold getSectorBase
  rw [hformat]
  dsimp only
  unfold getSectorBaseSdk
  rw [hlba]
  dsimp only
  rw [if_neg (by rw [maxLba]; omega), hoffset]
  have hsystem : b < systemLbas := hb
  cases protectedBlock disk (0x4D08 * b) with
  | false => simp
  | true => simp [hsystem]

end

/-- **Protected blocks**: an access to a block of the system area fails as it should if and only if
the block is block 0, one of the valid blocks, or one that is never protected. -/
theorem protected_iff (disk : DdDisk) (sys id b : ℕ) (head track block : BitVec 32)
    (h : SystemArea disk sys id) (haccess : AccessesBlock disk head track block b) :
    (getSectorBase disk head track block 0 = none ↔
        IsProtected (scanBlocks.getD sys 0) id b) ↔
      BlockKept (scanBlocks.getD sys 0) id b := by
  rw [← protectedBlock_iff h haccess.1]
  refine iff_congr ?_ Iff.rfl
  cases hformat : disk.format with
  | mame => exact mame_none_iff hformat haccess
  | sdk => exact sdk_none_iff (h.type hformat) hformat haccess
  | d64 =>
    have hno := haccess.2
    rw [hformat] at hno
    exact hno.elim

/-- A disk in the SDK format whose first block and whose first id are good. -/
def plainDisk : DdDisk where
  data := fun _ => 0
  size := sdkFormatDumpSize
  lbaPhysTable := fun lba => BitVec.ofNat 16 lba
  format := .sdk
  development := false
  offsetSys := 0
  offsetId := 0x4D08 * 14
  offsetRam := 0

/-- The same with the system data of block 1 in use, and the table that `GenerateLBAToPhysTable`
makes. -/
def secondCopyDisk : DdDisk := generateLbaToPhysTable { plainDisk with offsetSys := 0x4D08 }

theorem secondCopyDisk_systemArea : SystemArea secondCopyDisk 1 14 := by
  refine ⟨by decide, by decide, rfl, rfl, fun _ => ?_⟩
  decide

set_option maxRecDepth 16000 in
/-- An access to block 0, which is protected. -/
theorem plainDisk_protected :
    IsProtected (scanBlocks.getD 1 0) 14 0 ∧
    ((getSectorBase secondCopyDisk 0 0 0 0 = none ↔ IsProtected (scanBlocks.getD 1 0) 14 0) ↔
      BlockKept (scanBlocks.getD 1 0) 14 0) :=
  ⟨by decide, protected_iff secondCopyDisk 1 14 0 0 0 0 secondCopyDisk_systemArea
    ⟨by decide, (by decide : 0 = physToLba secondCopyDisk 0 0 0)⟩⟩

/-- Block 1 can be read. -/
theorem block1_not_protected :
    ¬∀ (disk : DdDisk) (sys id b : ℕ) (head track block : BitVec 32),
      SystemArea disk sys id → AccessesBlock disk head track block b →
        (getSectorBase disk head track block 0 = none ↔
          IsProtected (scanBlocks.getD sys 0) id b) := by
  intro hall
  have haccess : AccessesBlock { plainDisk with format := .mame } 0 0 1 1 :=
    ⟨by decide, rfl, by decide, by decide⟩
  have hsys : SystemArea { plainDisk with format := .mame } 0 14 :=
    ⟨by decide, by decide, rfl, rfl, nofun⟩
  have hnone := (hall _ 0 14 1 0 0 1 hsys haccess).mpr (by decide)
  rw [mame_none_iff rfl haccess] at hnone
  exact absurd hnone (by decide)

end Mupen64plus
