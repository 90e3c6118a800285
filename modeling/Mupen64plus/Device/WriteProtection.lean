import Mupen64plus.Device.Dd
import Mupen64plus.Device.Queued
import Mupen64plus.Device.LbaMapping

/-!
# Write protection of a 64DD disk

A seek for writing raises an error where the track is in the ROM area of the disk. The drive
compares the track with a table of its own that it indexes by the disk type and the head, while the
disk layer has the ROM area end at a logical number.

## Main definitions

- `SeekSound` — the error is raised on the tracks of the ROM area, from reads inside of the table

## Main results

- `status_writeDdRegs_seek` — the status after a seek for writing
- `startTrackZones_spec` — the table of the drive and the numbering of the disk layer
- `seekSound_iff`
-/

namespace Mupen64plus

namespace Device

/-- The head that a seek takes from the data register. -/
def dataHead (d : Device) : BitVec 32 := (d.ddReg .data &&& 0x10000000) >>> 28

/-- The track that a seek takes from the data register. -/
def dataTrack (d : Device) : BitVec 32 := (d.ddReg .data &&& 0x0fff0000) >>> 16

/-- The disk type the drive has been told. -/
def driveType (d : Device) : ℕ := (d.dd.diskType &&& 0xf).toNat

/-- The index into `startTrackZones`. -/
def seekIndex (d : Device) : ℕ := ((d.dd.diskType &&& 0xf).zeroExtend 32 - d.dataHead + 3).toNat

/-- The write protection error in the status. -/
def WriteProtected (d : Device) : Prop := d.ddReg .cmdStatus &&& ddStatusWrPrErr ≠ 0

end Device

/-- The first logical number of the RAM area of a disk type. -/
def ramStart (t : ℕ) : ℕ := ramStartLba.getD t 0

/-- A write of a command to the status register. -/
def ddCmdStatusAddress : BitVec 32 := 0x05000508

/-- What a seek for writing should do: it reads inside of its table, and the error is set where the
logical numbers of the track lie in the ROM area. By the geometry these are the numbers of the zone,
and on a disk that lists its defects those that `LBAToPhys` puts on the track. -/
structure SeekSound (d d' : Device) : Prop where
  inside : d.seekIndex < startTrackZones.length
  zone : ∀ z < 16, z / 8 = d.dataHead.toNat → zoneStart z ≤ d.dataTrack.toNat →
    d.dataTrack.toNat < zoneStart z + zoneLength z →
      ∀ v < 16, vzoneToPZone v d.driveType = z →
        (d'.WriteProtected ↔ ∀ lba, vzoneFirst d.driveType v ≤ lba →
          lba < tableAt vzoneLbaTable d.driveType v → lba < ramStart d.driveType)
  placed : ∀ s : DdSysData, DefectsListed s → diskTypeOf s.type = d.driveType → ∀ lba ≤ maxLba,
    (physHead (lbaToPhys s lba)).toNat = d.dataHead.toNat →
      (physTrack (lbaToPhys s lba)).toNat = d.dataTrack.toNat →
        (d'.WriteProtected ↔ lba < ramStart d.driveType)

-- ════════════════════
-- The command
-- ════════════════════

section

variable {o : Outside} {d : Device} {value mask : BitVec 32}

/-- The command of a seek for writing has the bit that tells the direction. -/
theorem bmWrite_of_command (hcommand : ((value >>> 16) &&& 0xff).toNat = 2) :
    ((value >>> 17) &&& (0x1 : BitVec 32)).truncate 8 = (1 : BitVec 8) := by
  have hword : (value >>> 16) &&& 0xff = 2 := BitVec.eq_of_toNat_eq hcommand
  have hshift : (value >>> 17) &&& (0x1 : BitVec 32) =
      ((value >>> 16 &&& 0xff) >>> 1) &&& 0x1 := by
    rw [BitVec.ushiftRight_and_distrib, BitVec.and_assoc, ← BitVec.shiftRight_add]
    rfl
  rw [hshift, hword]
  rfl

theorem ddReg_setDdBits (d : Device) (bits : BitVec 32) :
    (d.setDdBits .cmdStatus bits).ddReg .cmdStatus = d.ddReg .cmdStatus ||| bits := by
  rw [Device.setDdBits, Device.ddReg, Device.setDd_dd_regs, Function.update_self]

theorem rearmMotor_dd (d : Device) (timer : BitVec 16) : (d.rearmMotor timer).dd = d.dd := by
  unfold Device.rearmMotor
  dsimp only
  split <;> rfl

theorem ddDvActive_diskType (d : Device) : d.ddDvActive.dd.diskType = d.dd.diskType := by
  unfold Device.ddDvActive
  rw [rearmMotor_dd]
  rfl

/-- The protection test after a seek to the track in the data register. -/
theorem seekProtected_seekTrack (d : Device) (bmWrite : BitVec 8) :
    Device.seekProtected o (((d.seekTrack (d.ddReg .data) bmWrite).1).clearDdBits .cmdStatus
      ddStatusWrPrErr) =
      decide (d.dataTrack < startTrackZones.getD d.seekIndex (o.garbage &&& 0xffff)) := by
  have hcurTk : (((d.seekTrack (d.ddReg .data) bmWrite).1).clearDdBits .cmdStatus
      ddStatusWrPrErr).ddReg .curTk = d.ddReg .data ||| ddTrackLock := by
    have hregs : (d.seekTrack (d.ddReg .data) bmWrite).1.dd.regs =
        Function.update d.ddDvActive.dd.regs .curTk (d.ddReg .data ||| ddTrackLock) := rfl
    rw [Device.clearDdBits, Device.ddReg, Device.setDd_dd_regs, Function.update_of_ne (by decide),
      hregs, Function.update_self]
  have htype : (((d.seekTrack (d.ddReg .data) bmWrite).1).clearDdBits .cmdStatus
      ddStatusWrPrErr).dd.diskType = d.dd.diskType := ddDvActive_diskType d
  have hhead : (d.ddReg .data ||| ddTrackLock) &&& 0x10000000 = d.ddReg .data &&& 0x10000000 :=
    Flags.or_and_of_disjoint (by decide)
  have htrack : (d.ddReg .data ||| ddTrackLock) &&& 0x0fff0000 = d.ddReg .data &&& 0x0fff0000 :=
    Flags.or_and_of_disjoint (by decide)
  unfold Device.seekProtected
  dsimp only
  rw [hcurTk, htype, hhead, htrack]
  rfl

/-- A seek for writing with the test of its track. -/
theorem ddCommand_seek (hcommand : ((value >>> 16) &&& 0xff).toNat = 2) :
    (Device.ddCommand o d value).1.WriteProtected ↔
      d.dataTrack < startTrackZones.getD d.seekIndex (o.garbage &&& 0xffff) := by
  have htest := seekProtected_seekTrack (o := o) d 1
  have hwrite : ((d.seekTrack (d.ddReg .data) 1).1.clearDdBits .cmdStatus
      ddStatusWrPrErr).dd.bmWrite ≠ 0 := by
    show (1 : BitVec 8) ≠ 0
    decide
  unfold Device.ddCommand
  simp only [hcommand, bmWrite_of_command hcommand]
  generalize hd1 : (d.seekTrack (d.ddReg .data) 1).1 = d1 at htest hwrite
  unfold Device.WriteProtected
  by_cases hbefore : d.dataTrack < startTrackZones.getD d.seekIndex (o.garbage &&& 0xffff)
  · rw [decide_eq_true hbefore] at htest
    rw [if_pos ⟨hwrite, htest⟩, ddReg_setDdBits]
    exact iff_of_true (Flags.or_and_ne_zero.mpr (.inr (by decide))) hbefore
  · rw [decide_eq_false hbefore] at htest
    rw [if_neg (by rw [htest]; exact fun h => Bool.false_ne_true h.2), Device.clearDdBits,
      Device.ddReg, Device.setDd_dd_regs, Function.update_self]
    refine iff_of_false ?_ hbefore
    rw [not_not]
    exact Flags.andNot_and_of_covered (by decide)

/-- A seek for writing sets the error where the track is before its entry of the table. -/
theorem status_writeDdRegs_seek (hcommand : ((value >>> 16) &&& 0xff).toNat = 2) :
    (Device.writeDdRegs o d ddCmdStatusAddress value mask).WriteProtected ↔
      d.dataTrack < startTrackZones.getD d.seekIndex (o.garbage &&& 0xffff) := by
  have hreg : Device.ddRegAt ddCmdStatusAddress = some .cmdStatus := by decide
  have hrange : Device.isDdReg ddCmdStatusAddress = true := by decide
  have hwrite : Device.writeDdRegs o d ddCmdStatusAddress value mask =
      Device.ddWriteCommand o d value := by
    unfold Device.writeDdRegs
    rw [hrange, hreg]
    rfl
  rw [hwrite]
  unfold Device.ddWriteCommand
  dsimp only
  generalize hbusy : Device.setDdBits { d with dd := { d.dd with rtc := d.dd.rtc.update o.time } }
    .cmdStatus ddStatusBusyState = d1
  have hkeep : ∀ (d2 : Device) (cycles : BitVec 32),
      (d2.updateCount.addEvent .ddMc cycles).WriteProtected ↔ d2.WriteProtected :=
    fun _ _ => Iff.rfl
  have hdata : d1.ddReg .data = d.ddReg .data := by
    rw [← hbusy, Device.setDdBits, Device.ddReg, Device.setDd_dd_regs,
      Function.update_of_ne (by decide)]
  have htype : d1.dd.diskType = d.dd.diskType := by
    rw [← hbusy]
    rfl
  rw [hkeep, ddCommand_seek hcommand]
  unfold Device.dataTrack Device.seekIndex Device.dataHead
  rw [hdata, htype]

-- ════════════════════
-- The table
-- ════════════════════

/-- The entry of the table parts the zones of a head where the RAM area of the type starts. -/
theorem startTrackZones_spec : ∀ t < 7, ∀ v < 16, ¬(t = 6 ∧ vzoneToPZone v t / 8 = 0) →
    (zoneStart (vzoneToPZone v t) + zoneLength (vzoneToPZone v t) ≤
          (startTrackZones.getD (t + 3 - vzoneToPZone v t / 8) 0).toNat ∧
        tableAt vzoneLbaTable t v ≤ ramStart t) ∨
      ((startTrackZones.getD (t + 3 - vzoneToPZone v t / 8) 0).toNat ≤
          zoneStart (vzoneToPZone v t) ∧
        ramStart t ≤ vzoneFirst t v) := by
  decide

/-- The index for a disk type and a head. -/
theorem seekIndex_eq (ht : d.driveType < 7) : d.seekIndex = d.driveType + 3 - d.dataHead.toNat ∧
    d.dataHead.toNat < 2 := by
  have hhead : d.dataHead.toNat < 2 := by
    unfold Device.dataHead
    rw [BitVec.toNat_ushiftRight, BitVec.toNat_and]
    have hle : (d.ddReg .data).toNat &&& (0x10000000 : BitVec 32).toNat ≤ 0x10000000 :=
      Nat.and_le_right
    rw [Nat.shiftRight_eq_div_pow]
    omega
  refine ⟨?_, hhead⟩
  have hthree : (3 : BitVec 32).toNat = 3 := rfl
  unfold Device.driveType at ht
  unfold Device.seekIndex Device.driveType
  rw [BitVec.toNat_add, BitVec.toNat_sub, BitVec.zeroExtend, BitVec.toNat_setWidth, hthree]
  omega

/-- In a zone of the track the test tells whether a logical number is in the ROM area. -/
theorem before_iff_of_zone {garbage : BitVec 32} (ht : d.driveType < 7)
    (hentry : ¬(d.driveType = 6 ∧ d.dataHead.toNat = 0)) {v lba : ℕ} (hv : v < 16)
    (hhead : vzoneToPZone v d.driveType / 8 = d.dataHead.toNat)
    (hstart : zoneStart (vzoneToPZone v d.driveType) ≤ d.dataTrack.toNat)
    (hend : d.dataTrack.toNat <
      zoneStart (vzoneToPZone v d.driveType) + zoneLength (vzoneToPZone v d.driveType))
    (hfirst : vzoneFirst d.driveType v ≤ lba)
    (hlast : lba < tableAt vzoneLbaTable d.driveType v) :
    d.dataTrack < startTrackZones.getD d.seekIndex garbage ↔ lba < ramStart d.driveType := by
  obtain ⟨hindex, htwo⟩ := seekIndex_eq ht
  have hspec := startTrackZones_spec _ ht v hv (by rw [hhead]; exact hentry)
  rw [hhead, ← hindex] at hspec
  have hinside : d.seekIndex < startTrackZones.length := by
    show d.seekIndex < 9
    omega
  have hget : startTrackZones.getD d.seekIndex garbage = startTrackZones.getD d.seekIndex 0 := by
    rw [List.getD_eq_getElem?_getD, List.getD_eq_getElem?_getD, List.getElem?_eq_getElem hinside,
      Option.getD_some, Option.getD_some]
  rw [hget, BitVec.lt_def]
  omega

/-- **Write protection**: a seek for writing raises the error on the tracks of the ROM area if and
only if it is not to head 0 of a disk of type 6. -/
theorem seekSound_iff (o : Outside) (d : Device) (value mask : BitVec 32)
    (hcommand : ((value >>> 16) &&& 0xff).toNat = 2) (ht : d.driveType ≤ 6) :
    SeekSound d (Device.writeDdRegs o d ddCmdStatusAddress value mask) ↔
      ¬(d.driveType = 6 ∧ d.dataHead.toNat = 0) := by
  have ht' : d.driveType < 7 := Nat.lt_succ_of_le ht
  obtain ⟨hindex, htwo⟩ := seekIndex_eq ht'
  have hlength : startTrackZones.length = 9 := rfl
  constructor
  · rintro h ⟨htype, hhead⟩
    have hinside := h.inside
    omega
  · intro hentry
    refine ⟨by omega, fun z hz hhead hstart hend v hv hzone => ?_,
      fun s hs htype lba hlba hhead htrack' => ?_⟩
    · subst hzone
      obtain ⟨hz', -, htable⟩ := vzoneTables.table _ ht' v hv
      have hnonempty := (zoneTables.table _ hz').1
      have hiff : ∀ lba, vzoneFirst d.driveType v ≤ lba →
          lba < tableAt vzoneLbaTable d.driveType v →
            (d.dataTrack < startTrackZones.getD d.seekIndex (o.garbage &&& 0xffff) ↔
              lba < ramStart d.driveType) := fun lba hfirst hlast =>
        before_iff_of_zone ht' hentry hv hhead hstart hend hfirst hlast
      rw [status_writeDdRegs_seek hcommand]
      constructor
      · exact fun hbefore lba hfirst hlast => (hiff lba hfirst hlast).mp hbefore
      · exact fun hall => (hiff _ (le_refl _) (by omega)).mpr (hall _ (le_refl _) (by omega))
    · obtain ⟨v, k, r, hplace⟩ := exists_lbaPlace hs hlba
      have hzone := hplace.zone
      have hlt := s.trackOf_lt hplace.zone hplace.pair
      have hparts := hplace.parts.2.1
      have hsum := hplace.sum
      have hpair := hplace.pair
      have hhalf := hplace.half
      rw [hplace.head_toNat] at hhead
      rw [htype] at hzone hlt hparts hsum hpair hhead
      obtain ⟨-, -, htable⟩ := vzoneTables.table _ ht' v hplace.vzone
      have hbelow : zoneStart (vzoneToPZone v d.driveType) ≤
          s.trackOf (vzoneToPZone v d.driveType) k := Nat.le_add_right _ _
      rw [status_writeDdRegs_seek hcommand]
      exact before_iff_of_zone ht' hentry hplace.vzone hhead (by omega) (by omega) (by omega)
        (by omega)

end

/-- A drive with some disk type and some word in its data register. -/
def seekingDrive (type : BitVec 8) (data : BitVec 32) : Device :=
  { freshConsole with dd := { freshConsole.dd with
      diskType := type
      regs := fun reg => if reg = .data then data else 0 } }

/-- A seek to track 0x100 of head 1, on a disk of type 3. -/
theorem seek_type3 :
    SeekSound (seekingDrive 3 0x11000000)
      (Device.writeDdRegs quietOutside (seekingDrive 3 0x11000000) ddCmdStatusAddress 0x00020000
        0) ↔
    ¬((seekingDrive 3 0x11000000).driveType = 6 ∧
      (seekingDrive 3 0x11000000).dataHead.toNat = 0) :=
  seekSound_iff quietOutside (seekingDrive 3 0x11000000) 0x00020000 0 (by decide) (by decide)

/-- A seek to head 0 of a disk of type 6 reads behind the table. -/
theorem seek_type6 :
    ¬∀ (o : Outside) (d : Device) (value mask : BitVec 32),
      ((value >>> 16) &&& 0xff).toNat = 2 → d.driveType ≤ 6 → d.dataTrack.toNat ≤ 0x496 →
        SeekSound d (Device.writeDdRegs o d ddCmdStatusAddress value mask) := by
  intro hall
  have hinside := (hall quietOutside (seekingDrive 6 0) 0x00020000 0 (by decide) (by decide)
    (by decide)).inside
  exact absurd hinside (by decide)

end Mupen64plus
