import Mathlib.Algebra.BigOperators.Group.Finset.Basic
import Mupen64plus.Lib.Flags
import Mupen64plus.Lib.Gaps
import Mupen64plus.Device.Disk

/-!
# The numbering of blocks on a 64DD disk

A disk has sixteen zones of tracks, eight on each head, and two blocks on a track. Twelve tracks of
each zone are left out as defective. A logical block number counts the blocks of the zones in an
order that depends on the type of the disk, head 1 from the inner end of each zone.

## Main definitions

- `DefectsListed` — the system data lists twelve defective tracks for each zone
- `LbaBijection` — logical numbers and good blocks correspond one to one

## Main results

- `lbaToPhys_eq` — the head, the track and the block of a logical number
- `lbaToByteA_eq_sum` — `LBAToByteA` adds up the sizes of the blocks
- `lba_bijection`
-/

namespace Mupen64plus

/-- The first track of a physical zone. -/
def zoneStart (z : ℕ) : ℕ := trackZoneTable.getD (z % 8) 0

/-- The number of tracks of a physical zone. -/
def zoneLength (z : ℕ) : ℕ := zoneTracks.getD z 0

/-- The first logical number of a virtual zone. -/
def vzoneFirst (disktype vzone : ℕ) : ℕ :=
  if vzone ≠ 0 then tableAt vzoneLbaTable disktype (vzone - 1) else 0

/-- The zone whose sector size `LBAToByteA` uses for a logical number. -/
def lbaZone (type : BitVec 8) (lba : ℕ) : ℕ :=
  let pzone := vzoneToPZone (lbaToVZoneA type lba) (diskTypeOf type)
  if 7 < pzone then pzone - 7 else pzone

def lbaBlockSize (type : BitVec 8) (lba : ℕ) : ℕ :=
  zoneSecSizePhys.getD (lbaZone type lba) 0 * sectorsPerBlock

/-- The defective tracks of a zone, counted from its first track. -/
def DdSysData.defects (s : DdSysData) (z : ℕ) : List ℕ :=
  (List.range 12).map fun i => (s.defectInfo (12 * z + i)).toNat

/-- The system data of a disk of types 0 to 6 that lists, for each zone, twelve defective tracks in
    increasing order, all of them inside of the zone. -/
structure DefectsListed (s : DdSysData) : Prop where
  type : diskTypeOf s.type < 7
  offset : ∀ z < 16, (s.defectOffset z).toNat = 12 * (z + 1)
  increasing : ∀ z < 16, (s.defects z).Pairwise (· < ·)
  inside : ∀ z < 16, ∀ d ∈ s.defects z, d < zoneLength z

/-- A track of a head is listed as defective. -/
def DdSysData.Defective (s : DdSysData) (head track : ℕ) : Prop :=
  ∃ z < 16, z / 8 = head ∧ ∃ d ∈ s.defects z, track = zoneStart z + d

def physHead (p : BitVec 16) : BitVec 16 := (p &&& 0x1000) >>> 12
def physTrack (p : BitVec 16) : BitVec 16 := p &&& 0x0fff
def physBlock (p : BitVec 16) : BitVec 16 := (p &&& 0x2000) >>> 13

/-- Logical numbers and good blocks correspond one to one, and the zone of a block is the one whose
    size `LBAToByteA` counts for it. -/
structure LbaBijection (s : DdSysData) : Prop where
  injective : ∀ l ≤ maxLba, ∀ m ≤ maxLba, lbaToPhys s l = lbaToPhys s m → l = m
  good : ∀ l ≤ maxLba,
    ¬s.Defective (physHead (lbaToPhys s l)).toNat (physTrack (lbaToPhys s l)).toNat
  zone : ∀ l ≤ maxLba,
    (getZoneFromHeadTrack ((physHead (lbaToPhys s l)).zeroExtend 32)
      ((physTrack (lbaToPhys s l)).zeroExtend 32)).toNat = lbaZone s.type l
  size : ∀ l n, l + n ≤ maxLba →
    lbaToByteA s.type l (n + 1) = lbaToByteA s.type l n + lbaBlockSize s.type (l + n)
  inverse : ∀ disk : DdDisk, disk.sysData = s → disk.format ≠ .mame → ∀ l ≤ maxLba,
    physToLba (generateLbaToPhysTable disk) (physHead (lbaToPhys s l)) (physTrack (lbaToPhys s l))
      (physBlock (lbaToPhys s l)) = l
  onto : ∀ head < 2, ∀ track < 0x497, ∀ block < 2, ¬s.Defective head track → ∃ l ≤ maxLba,
    lbaToPhys s l = physOf (BitVec.ofNat 16 head) (BitVec.ofNat 16 track) (BitVec.ofNat 16 block)

-- ════════════════════════════════════════════════════════════════════════
-- What the tables say
-- ════════════════════════════════════════════════════════════════════════

/-- The tables of virtual zones. A virtual zone has two logical numbers for each good track of its
    physical zone. -/
structure VZoneTables : Prop where
  table : ∀ t < 7, ∀ v < 16, vzoneToPZone v t < 16 ∧ vzoneFirst t v % 2 = 0 ∧
    tableAt vzoneLbaTable t v = vzoneFirst t v + 2 * (zoneLength (vzoneToPZone v t) - 12)
  injective : ∀ t < 7, ∀ v < 16, ∀ w < 16, vzoneToPZone v t = vzoneToPZone w t → v = w
  surjective : ∀ t < 7, ∀ z < 16, ∃ v < 16, vzoneToPZone v t = z
  last : ∀ t < 7, tableAt vzoneLbaTable t 15 = sizeLba
  mono : ∀ t < 7, ∀ v < 16, ∀ w < v, tableAt vzoneLbaTable t w ≤ vzoneFirst t v
  le_size : ∀ t < 7, ∀ v < 16, tableAt vzoneLbaTable t v ≤ sizeLba

theorem vzoneTables : VZoneTables where
  table := by decide
  injective := by decide
  surjective := by decide
  last := by decide
  mono := by decide
  le_size := by decide

/-- The tables of physical zones. The zones of a head lie one behind the other, and `TrackZoneTable`
    ends head 1 with the last good track of each zone. -/
structure ZoneTables : Prop where
  table : ∀ z < 16, 12 < zoneLength z ∧ zoneStart z + zoneLength z ≤ 0x497 ∧
    (z < 8 → trackZoneTable.getD z 0 = zoneStart z) ∧
    (8 ≤ z → trackZoneTable.getD z 0 = zoneStart z + (zoneLength z - 13) ∧
      outercylTbl.getD (z - 8) 0 = zoneStart z)
  first : ∀ z < 16, z % 8 = 0 → zoneStart z = 0
  next : ∀ z < 16, z % 8 ≠ 7 → zoneStart (z + 1) = zoneStart z + zoneLength z
  last : ∀ z < 16, z % 8 = 7 → zoneStart z + zoneLength z = 0x497
  disjoint : ∀ z < 16, ∀ y < 16, z / 8 = y / 8 → z ≠ y →
    zoneStart z + zoneLength z ≤ zoneStart y ∨ zoneStart y + zoneLength y ≤ zoneStart z
  row : ∀ z < 16, zoneStart (z % 8) = zoneStart z ∧ zoneLength (z % 8) = zoneLength z
  start : ∀ z < 8, (trackZoneStart.getD z 0).toNat = zoneStart z
  mono : ∀ z < 8, ∀ y < 8, z < y → zoneStart z + zoneLength z ≤ zoneStart y

theorem zoneTables : ZoneTables where
  table := by decide
  first := by decide
  next := by decide
  last := by decide
  disjoint := by decide
  row := by decide
  start := by decide
  mono := by decide

-- ════════════════════════════════════════════════════════════════════════
-- Virtual zones
-- ════════════════════════════════════════════════════════════════════════

section

variable {type : BitVec 8} {lba v : ℕ}

/-- The virtual zone of a logical number. -/
theorem lbaToVZoneA_eq (ht : diskTypeOf type < 7) (hv : v < 16)
    (hfirst : vzoneFirst (diskTypeOf type) v ≤ lba)
    (hlast : lba < tableAt vzoneLbaTable (diskTypeOf type) v) : lbaToVZoneA type lba = v := by
  have hfind : (List.range 16).find?
      (fun vzone => lba < tableAt vzoneLbaTable (diskTypeOf type) vzone) = some v := by
    rw [List.find?_range_eq_some]
    refine ⟨decide_eq_true hlast, List.mem_range.mpr hv, fun w hw => ?_⟩
    have hle := vzoneTables.mono _ ht v hv w hw
    simp only [Bool.not_eq_true', decide_eq_false_iff_not]
    omega
  rw [lbaToVZoneA, hfind]
  rfl

theorem lbaToVZoneA_spec (ht : diskTypeOf type < 7) (hlba : lba ≤ maxLba) :
    lbaToVZoneA type lba < 16 ∧
      vzoneFirst (diskTypeOf type) (lbaToVZoneA type lba) ≤ lba ∧
      lba < tableAt vzoneLbaTable (diskTypeOf type) (lbaToVZoneA type lba) := by
  have hlast := vzoneTables.last _ ht
  cases hfind : (List.range 16).find?
      (fun vzone => lba < tableAt vzoneLbaTable (diskTypeOf type) vzone) with
  | none =>
    have hnone := List.find?_eq_none.mp hfind 15 (by decide)
    rw [hlast, sizeLba] at hnone
    rw [maxLba] at hlba
    simp only [decide_eq_true_eq] at hnone
    omega
  | some v =>
    have hzone : lbaToVZoneA type lba = v := by
      rw [lbaToVZoneA, hfind]
      rfl
    obtain ⟨hlt, hmem, hbefore⟩ := List.find?_range_eq_some.mp hfind
    rw [hzone]
    refine ⟨List.mem_range.mp hmem, ?_, of_decide_eq_true hlt⟩
    unfold vzoneFirst
    split
    · next hne =>
      have hprev := hbefore (v - 1) (by omega)
      simpa using hprev
    · exact Nat.zero_le lba

/-- Inside of a virtual zone the next logical number has the same zone. -/
theorem lbaToVZoneA_next (ht : diskTypeOf type < 7) (hlba : lba + 1 ≤ maxLba)
    (hinside : tableAt vzoneLbaTable (diskTypeOf type) (lbaToVZoneA type lba) ≠ lba + 1) :
    lbaToVZoneA type (lba + 1) = lbaToVZoneA type lba := by
  obtain ⟨hv, hfirst, hlast⟩ := lbaToVZoneA_spec ht (Nat.le_of_succ_le hlba)
  exact lbaToVZoneA_eq ht hv (Nat.le_succ_of_le hfirst) (by omega)

end

-- ════════════════════════════════════════════════════════════════════════
-- Byte sums
-- ════════════════════════════════════════════════════════════════════════

/-- The loop of `LBAToByteA`, with the zone of the block before, if there is one. -/
theorem lbaToByteLoop_eq {type : BitVec 8} (ht : diskTypeOf type < 7) {n lba : ℕ}
    (hlba : lba + n ≤ sizeLba) {init : Bool} {vzone blocksize : ℕ}
    (hprev : init = false → 0 < lba ∧ vzone = lbaToVZoneA type (lba - 1) ∧
      blocksize = vzoneBlockSize type vzone) (total : ℕ) :
    lbaToByteLoop type n init vzone blocksize lba total =
      total + ∑ i ∈ Finset.range n, lbaBlockSize type (lba + i) := by
  induction n generalizing lba init vzone blocksize total with
  | zero => rfl
  | succ n ih =>
    have hmax : lba ≤ maxLba := by
      rw [sizeLba] at hlba
      rw [maxLba]
      omega
    have hstop : ¬(n ≠ 0 ∧ maxLba < lba + 1) := by
      rw [sizeLba] at hlba
      rw [maxLba]
      omega
    -- the zone is that of this block, whether it is looked up or kept
    have hzone : (if (init || tableAt vzoneLbaTable (diskTypeOf type) vzone == lba) = true then
        lbaToVZoneA type lba else vzone) = lbaToVZoneA type lba ∧
        (if (init || tableAt vzoneLbaTable (diskTypeOf type) vzone == lba) = true then
          vzoneBlockSize type (lbaToVZoneA type lba) else blocksize) = lbaBlockSize type lba := by
      split
      · exact ⟨rfl, rfl⟩
      · next hkeep =>
        obtain ⟨hinit, hend⟩ := Bool.or_eq_false_iff.mp (Bool.eq_false_of_not_eq_true hkeep)
        obtain ⟨hpos, rfl, hsize⟩ := hprev hinit
        have hsucc : lba - 1 + 1 = lba := Nat.sub_add_cancel hpos
        have hsame := lbaToVZoneA_next ht (show lba - 1 + 1 ≤ maxLba by rw [hsucc]; exact hmax)
          (by rw [hsucc]; exact beq_eq_false_iff_ne.mp hend)
        rw [hsucc] at hsame
        exact ⟨hsame.symm, by rw [hsize, ← hsame]; rfl⟩
    rw [lbaToByteLoop, if_neg hstop]
    have hnext : false = false → 0 < lba + 1 ∧
        lbaToVZoneA type lba = lbaToVZoneA type (lba + 1 - 1) ∧
        lbaBlockSize type lba = vzoneBlockSize type (lbaToVZoneA type lba) :=
      fun _ => ⟨Nat.succ_pos lba, rfl, rfl⟩
    rw [hzone.1, hzone.2, ih (by omega) hnext, Finset.sum_range_succ']
    have hshift : ∑ i ∈ Finset.range n, lbaBlockSize type (lba + 1 + i) =
        ∑ i ∈ Finset.range n, lbaBlockSize type (lba + (i + 1)) := by
      refine Finset.sum_congr rfl fun i _ => ?_
      rw [Nat.add_assoc, Nat.add_comm 1 i]
    rw [hshift, Nat.add_zero, Nat.add_assoc, Nat.add_comm (lbaBlockSize type lba)]

/-- `LBAToByteA` adds up the sizes of the blocks, as long as they are on the disk. -/
theorem lbaToByteA_eq_sum {type : BitVec 8} (ht : diskTypeOf type < 7) {lba n : ℕ}
    (hlba : lba + n ≤ sizeLba) :
    lbaToByteA type lba n = ∑ i ∈ Finset.range n, lbaBlockSize type (lba + i) := by
  have hstart : true = false →
      0 < lba ∧ 0 = lbaToVZoneA type (lba - 1) ∧ 0 = vzoneBlockSize type 0 := nofun
  rw [lbaToByteA, lbaToByteLoop_eq ht hlba hstart, Nat.zero_add]

theorem lbaToByteA_succ {type : BitVec 8} (ht : diskTypeOf type < 7) {lba n : ℕ}
    (hlba : lba + n ≤ maxLba) :
    lbaToByteA type lba (n + 1) = lbaToByteA type lba n + lbaBlockSize type (lba + n) := by
  rw [maxLba] at hlba
  rw [lbaToByteA_eq_sum ht (by rw [sizeLba]; omega), lbaToByteA_eq_sum ht (by rw [sizeLba]; omega),
    Finset.sum_range_succ]

-- ════════════════════════════════════════════════════════════════════════
-- Tracks
-- ════════════════════════════════════════════════════════════════════════

/-- The loop over the defects numbers the tracks from the start of the zone around them. -/
theorem skipDefects_eq (info : ℕ → BitVec 8) (start : BitVec 16) {amount : ℕ}
    {offset track : BitVec 16} (hoffset : offset.toNat + amount < 2 ^ 16)
    (hstart : start.toNat ≤ track.toNat) (htrack : track.toNat + amount < 2 ^ 16) :
    (skipDefects info start amount offset track).toNat = start.toNat +
      Gaps.place ((List.range amount).map fun i => (info (offset.toNat + i)).toNat)
        (track.toNat - start.toNat) := by
  induction amount generalizing offset track with
  | zero =>
    simp only [skipDefects, List.range_zero, List.map_nil, Gaps.place_nil]
    omega
  | succ amount ih =>
    have hone : (1 : BitVec 16).toNat = 1 := rfl
    have hoffset' : (offset + 1).toNat = offset.toNat + 1 := by
      rw [BitVec.toNat_add, hone]
      omega
    have htrack' : (track + 1).toNat = track.toNat + 1 := by
      rw [BitVec.toNat_add, hone]
      omega
    rw [skipDefects, List.range_succ_eq_map, List.map_cons, List.map_map]
    by_cases hskip : (info offset.toNat).toNat + start.toNat ≤ track.toNat
    · rw [if_pos hskip, Gaps.place_cons_of_le (by simp only [Nat.add_zero]; omega),
        ih (by omega) (by omega) (by omega), hoffset', htrack', Nat.succ_sub hstart]
      congr 2
      refine List.map_congr_left fun i _ => ?_
      simp only [Function.comp_apply, Nat.succ_eq_add_one]
      rw [Nat.add_assoc, Nat.add_comm 1 i]
    · rw [if_neg hskip, Gaps.place_cons_of_lt (by simp only [Nat.add_zero]; omega)]
      omega

/-- The number of the track of a zone that a pair of logical numbers is. -/
def trackNumber (z k : ℕ) : ℕ := if z < 8 then k else zoneLength z - 13 - k

theorem trackNumber_lt {z k : ℕ} (hz : z < 16) (hk : k < zoneLength z - 12) :
    trackNumber z k < zoneLength z - 12 := by
  have hlength := (zoneTables.table z hz).1
  unfold trackNumber
  split <;> omega

theorem trackNumber_injective {z k j : ℕ} (hk : k < zoneLength z - 12) (hj : j < zoneLength z - 12)
    (h : trackNumber z k = trackNumber z j) : k = j := by
  unfold trackNumber at h
  split at h <;> omega

theorem trackNumber_trackNumber {z k : ℕ} (hk : k < zoneLength z - 12) :
    trackNumber z (trackNumber z k) = k := by
  unfold trackNumber
  split <;> omega

/-- The track of a pair of logical numbers. -/
def DdSysData.trackOf (s : DdSysData) (z k : ℕ) : ℕ :=
  zoneStart z + Gaps.place (s.defects z) (trackNumber z k)

theorem DdSysData.trackOf_lt (s : DdSysData) {z k : ℕ} (hz : z < 16) (hk : k < zoneLength z - 12) :
    s.trackOf z k < zoneStart z + zoneLength z := by
  have hnumber := trackNumber_lt hz hk
  have hlength := (zoneTables.table z hz).1
  refine Nat.add_lt_add_left (Gaps.place_lt ?_) _
  simp only [DdSysData.defects, List.length_map, List.length_range]
  omega

/-- The track before the defects are skipped, as a word of 16 bits. -/
theorem trackWord {z k : ℕ} (hz : z < 16) (hk : k < zoneLength z - 12) :
    ((if (if 7 < z then 1 else 0 : BitVec 16) ≠ 0 then -BitVec.ofNat 16 k else BitVec.ofNat 16 k) +
      BitVec.ofNat 16 (trackZoneTable.getD z 0)).toNat = zoneStart z + trackNumber z k := by
  obtain ⟨hlength, hend, hhead0, hhead1⟩ := zoneTables.table z hz
  unfold trackNumber
  by_cases hhead : 7 < z
  · have hne : (if 7 < z then 1 else 0 : BitVec 16) ≠ 0 := by
      rw [if_pos hhead]
      decide
    rw [if_pos hne, (hhead1 hhead).1, if_neg (by omega), BitVec.toNat_add, BitVec.toNat_neg,
      BitVec.toNat_ofNat, BitVec.toNat_ofNat]
    omega
  · have heq : ¬(if 7 < z then 1 else 0 : BitVec 16) ≠ 0 := by
      rw [if_neg hhead]
      decide
    rw [if_neg heq, hhead0 (by omega), if_pos (by omega), BitVec.toNat_add, BitVec.toNat_ofNat,
      BitVec.toNat_ofNat]
    omega

/-- **The place of a logical number**: the head and the track by its zone, the block by its
    number. -/
theorem lbaToPhys_eq {s : DdSysData} (h : DefectsListed s) {v k r : ℕ} (hv : v < 16)
    (hk : k < zoneLength (vzoneToPZone v (diskTypeOf s.type)) - 12) (hr : r < 2) :
    lbaToPhys s (vzoneFirst (diskTypeOf s.type) v + 2 * k + r) =
      physOf (if 7 < vzoneToPZone v (diskTypeOf s.type) then 1 else 0)
        (BitVec.ofNat 16 (s.trackOf (vzoneToPZone v (diskTypeOf s.type)) k))
        (lbaBlock (vzoneFirst (diskTypeOf s.type) v + 2 * k + r)) := by
  obtain ⟨hz, heven, hlast⟩ := vzoneTables.table _ h.type v hv
  generalize hlba : vzoneFirst (diskTypeOf s.type) v + 2 * k + r = lba
  have hzone : lbaToVZoneA s.type lba = v :=
    lbaToVZoneA_eq h.type hv (by omega) (by omega)
  have hhalf : (lba - vzoneFirst (diskTypeOf s.type) v) / 2 = k := by omega
  unfold lbaToPhys
  simp only
  rw [hzone]
  change physOf _ (skipDefects _ _ _ _ ((if _ ≠ 0 then
    -BitVec.ofNat 16 ((lba - vzoneFirst (diskTypeOf s.type) v) / 2) else
    BitVec.ofNat 16 ((lba - vzoneFirst (diskTypeOf s.type) v) / 2)) + _)) _ = _
  rw [hhalf]
  generalize vzoneToPZone v (diskTypeOf s.type) = z at hz hk
  congr 1
  obtain ⟨hlength, hend, hhead0, hhead1⟩ := zoneTables.table z hz
  have hstart : (BitVec.ofNat 16 (if (if 7 < z then 1 else 0 : BitVec 16) ≠ 0 then
      outercylTbl.getD (z - 8) 0 else trackZoneTable.getD z 0)).toNat = zoneStart z := by
    by_cases hhead : 7 < z
    · rw [if_pos hhead, if_pos (by decide), (hhead1 hhead).2, BitVec.toNat_ofNat]
      omega
    · rw [if_neg hhead, if_neg (by decide), hhead0 (by omega), BitVec.toNat_ofNat]
      omega
  have hoffset : (if z ≠ 0 then (s.defectOffset (z - 1)).zeroExtend 16 else 0 : BitVec 16).toNat =
      12 * z := by
    split
    · have hprev := h.offset (z - 1) (by omega)
      rw [BitVec.zeroExtend, BitVec.toNat_setWidth, hprev]
      omega
    · have hzero : z = 0 := by omega
      rw [hzero]
      rfl
  have hamount : ((s.defectOffset z).zeroExtend 16 -
      (if z ≠ 0 then (s.defectOffset (z - 1)).zeroExtend 16 else 0 : BitVec 16)).toNat = 12 := by
    have hthis := h.offset z hz
    rw [BitVec.toNat_sub, hoffset, BitVec.zeroExtend, BitVec.toNat_setWidth, hthis]
    omega
  have htrack := trackWord hz hk
  have hnumber := trackNumber_lt hz hk
  rw [hamount]
  apply BitVec.eq_of_toNat_eq
  rw [skipDefects_eq _ _ (by rw [hoffset]; omega) (by rw [hstart, htrack]; omega)
    (by rw [htrack]; omega), hstart, htrack, hoffset, Nat.add_sub_cancel_left]
  have hlt := s.trackOf_lt hz hk
  rw [BitVec.toNat_ofNat, Nat.mod_eq_of_lt (by omega)]
  rfl

-- ════════════════════════════════════════════════════════════════════════
-- Words
-- ════════════════════════════════════════════════════════════════════════

section

variable {head track block : BitVec 16}

theorem and_low_of_lt (h : track.toNat < 0x1000) : track &&& 0x0fff = track := by
  apply BitVec.eq_of_toNat_eq
  rw [BitVec.toNat_and]
  have hmask : (0x0fff : BitVec 16).toNat = 2 ^ 12 - 1 := rfl
  rw [hmask, Nat.and_two_pow_sub_one_eq_mod]
  exact Nat.mod_eq_of_lt h

theorem and_high_of_lt (h : track.toNat < 0x1000) {m : BitVec 16} (hm : 0x0fff &&& m = 0) :
    track &&& m = 0 := by
  rw [← and_low_of_lt h, BitVec.and_assoc, hm]
  exact BitVec.and_zero

theorem physTrack_physOf (htrack : track.toNat < 0x1000) (hhead : head = 0 ∨ head = 1)
    (hblock : block = 0 ∨ block = 1) : physTrack (physOf head track block) = track := by
  unfold physTrack physOf
  rcases hhead with rfl | rfl <;> rcases hblock with rfl | rfl <;>
    rw [Flags.or_and_of_disjoint (by decide), Flags.or_and_of_disjoint (by decide),
      and_low_of_lt htrack]

theorem physHead_physOf (htrack : track.toNat < 0x1000) (hhead : head = 0 ∨ head = 1)
    (hblock : block = 0 ∨ block = 1) : physHead (physOf head track block) = head := by
  have hlow := and_high_of_lt htrack (m := 0x1000) (by decide)
  unfold physHead physOf
  rcases hhead with rfl | rfl <;> rcases hblock with rfl | rfl <;>
    rw [Flags.or_and_of_disjoint (by decide), BitVec.and_or_distrib_right, hlow] <;> decide

theorem physBlock_physOf (htrack : track.toNat < 0x1000) (hhead : head = 0 ∨ head = 1)
    (hblock : block = 0 ∨ block = 1) : physBlock (physOf head track block) = block := by
  have hlow := and_high_of_lt htrack (m := 0x2000) (by decide)
  unfold physBlock physOf
  rcases hhead with rfl | rfl <;> rcases hblock with rfl | rfl <;>
    rw [BitVec.and_or_distrib_right, BitVec.and_or_distrib_right, hlow] <;> decide

end

theorem lbaBlock_cases (l : ℕ) : lbaBlock l = 0 ∨ lbaBlock l = 1 := by
  unfold lbaBlock
  split
  · exact .inl rfl
  · exact .inr rfl

theorem lbaBlock_eq_zero {l : ℕ} : lbaBlock l = 0 ↔ l % 4 = 0 ∨ l % 4 = 3 := by
  unfold lbaBlock
  split
  · next h => exact iff_of_true rfl h
  · next h => exact iff_of_false (by decide) h

/-- The two logical numbers of a track are its two blocks. -/
theorem lbaBlock_injective {l r r' : ℕ} (hl : l % 2 = 0) (hr : r < 2) (hr' : r' < 2)
    (h : lbaBlock (l + r) = lbaBlock (l + r')) : r = r' := by
  have hiff : (l + r) % 4 = 0 ∨ (l + r) % 4 = 3 ↔ (l + r') % 4 = 0 ∨ (l + r') % 4 = 3 := by
    rw [← lbaBlock_eq_zero, ← lbaBlock_eq_zero, h]
  omega

theorem exists_lbaBlock {l block : ℕ} (hl : l % 2 = 0) (hblock : block < 2) :
    ∃ r < 2, lbaBlock (l + r) = BitVec.ofNat 16 block := by
  have hfirst : lbaBlock l = 0 ∧ lbaBlock (l + 1) = 1 ∨ lbaBlock l = 1 ∧ lbaBlock (l + 1) = 0 := by
    unfold lbaBlock
    by_cases h : l % 4 = 0
    · exact .inl ⟨if_pos (.inl h), if_neg (by omega)⟩
    · exact .inr ⟨if_neg (by omega), if_pos (by omega)⟩
  have hcases : block = 0 ∨ block = 1 := by omega
  rcases hfirst with ⟨h0, h1⟩ | ⟨h0, h1⟩ <;> rcases hcases with rfl | rfl
  · exact ⟨0, by decide, h0⟩
  · exact ⟨1, by decide, h1⟩
  · exact ⟨1, by decide, h1⟩
  · exact ⟨0, by decide, h0⟩

-- ════════════════════════════════════════════════════════════════════════
-- Zones of a track
-- ════════════════════════════════════════════════════════════════════════

/-- Every track lies in a zone of its head. -/
theorem exists_zone {head track : ℕ} (hhead : head < 2) (htrack : track < 0x497) :
    ∃ z < 16, z / 8 = head ∧ zoneStart z ≤ track ∧ track < zoneStart z + zoneLength z := by
  by_contra hnone
  have hreach : ∀ i < 8, zoneStart (8 * head + i) ≤ track := by
    intro i hi
    induction i with
    | zero =>
      rw [zoneTables.first _ (by omega) (by omega)]
      exact Nat.zero_le _
    | succ i ih =>
      rw [← Nat.add_assoc, zoneTables.next _ (by omega) (by omega)]
      by_contra hlt
      exact hnone ⟨8 * head + i, by omega, by omega, ih (by omega), by omega⟩
  have hlast := zoneTables.last (8 * head + 7) (by omega) (by omega)
  exact hnone ⟨8 * head + 7, by omega, by omega, hreach 7 (by decide), by omega⟩

/-- Counting down, the first zone that does not start behind the track. -/
theorem zoneFromTrack_eq {track : BitVec 32} {z n : ℕ} (hz : z ≤ n) (hn : n < 8)
    (hstart : zoneStart z ≤ track.toNat) (hend : track.toNat < zoneStart z + zoneLength z) :
    zoneFromTrack track n = z := by
  induction n with
  | zero => exact (Nat.le_zero.mp hz).symm
  | succ n ih =>
    have hword := zoneTables.start (n + 1) hn
    unfold zoneFromTrack
    rcases Nat.lt_or_eq_of_le hz with hlt | rfl
    · have hmono := zoneTables.mono z (by omega) (n + 1) hn hlt
      rw [if_neg (by rw [BitVec.le_def, hword]; omega)]
      exact ih (by omega) (by omega)
    · rw [if_pos (by rw [BitVec.le_def, hword]; exact hstart)]

theorem getZoneFromHeadTrack_eq {z : ℕ} (hz : z < 16) {head track : BitVec 32}
    (hhead : head.toNat = z / 8) (hstart : zoneStart z ≤ track.toNat)
    (hend : track.toNat < zoneStart z + zoneLength z) :
    (getZoneFromHeadTrack head track).toNat = if 7 < z then z - 7 else z := by
  have hrow := zoneTables.row z hz
  have hzone : zoneFromTrack track 7 = z % 8 :=
    zoneFromTrack_eq (by omega) (by decide) (by rw [hrow.1]; exact hstart)
      (by rw [hrow.1, hrow.2]; exact hend)
  rw [getZoneFromHeadTrack, hzone, BitVec.toNat_add, BitVec.toNat_ofNat, hhead]
  split <;> omega

-- ════════════════════════════════════════════════════════════════════════
-- The correspondence
-- ════════════════════════════════════════════════════════════════════════

/-- The place of a logical number: a good track of a zone, and one of its blocks. -/
structure LbaPlace (s : DdSysData) (lba v k r : ℕ) : Prop where
  vzone : v < 16
  zone : vzoneToPZone v (diskTypeOf s.type) < 16
  pair : k < zoneLength (vzoneToPZone v (diskTypeOf s.type)) - 12
  half : r < 2
  even : vzoneFirst (diskTypeOf s.type) v % 2 = 0
  sum : lba = vzoneFirst (diskTypeOf s.type) v + 2 * k + r
  lookup : lbaToVZoneA s.type lba = v
  phys : lbaToPhys s lba =
    physOf (if 7 < vzoneToPZone v (diskTypeOf s.type) then 1 else 0)
      (BitVec.ofNat 16 (s.trackOf (vzoneToPZone v (diskTypeOf s.type)) k)) (lbaBlock lba)

variable {s : DdSysData}

theorem exists_lbaPlace (h : DefectsListed s) {lba : ℕ} (hlba : lba ≤ maxLba) :
    ∃ v k r, LbaPlace s lba v k r := by
  obtain ⟨hv, hfirst, hlast⟩ := lbaToVZoneA_spec h.type hlba
  obtain ⟨hz, heven, htable⟩ := vzoneTables.table _ h.type _ hv
  generalize hvzone : lbaToVZoneA s.type lba = v at hv hfirst hlast hz heven htable
  have hsplit : lba = vzoneFirst (diskTypeOf s.type) v +
      2 * ((lba - vzoneFirst (diskTypeOf s.type) v) / 2) +
      (lba - vzoneFirst (diskTypeOf s.type) v) % 2 := by omega
  have hk : (lba - vzoneFirst (diskTypeOf s.type) v) / 2 <
      zoneLength (vzoneToPZone v (diskTypeOf s.type)) - 12 := by omega
  have hr : (lba - vzoneFirst (diskTypeOf s.type) v) % 2 < 2 := Nat.mod_lt _ Nat.two_pos
  have hphys := lbaToPhys_eq h hv hk hr
  rw [← hsplit] at hphys
  exact ⟨v, _, _, hv, hz, hk, hr, heven, hsplit, hvzone, hphys⟩

namespace LbaPlace

variable {lba v k r : ℕ}

theorem track_lt (h : LbaPlace s lba v k r) :
    s.trackOf (vzoneToPZone v (diskTypeOf s.type)) k < 0x497 :=
  (s.trackOf_lt h.zone h.pair).trans_le (zoneTables.table _ h.zone).2.1

theorem track_toNat (h : LbaPlace s lba v k r) :
    (BitVec.ofNat 16 (s.trackOf (vzoneToPZone v (diskTypeOf s.type)) k)).toNat =
      s.trackOf (vzoneToPZone v (diskTypeOf s.type)) k := by
  have hlt := h.track_lt
  rw [BitVec.toNat_ofNat, Nat.mod_eq_of_lt (by omega)]

/-- The word of a logical number, taken apart. -/
theorem parts (h : LbaPlace s lba v k r) :
    physHead (lbaToPhys s lba) = (if 7 < vzoneToPZone v (diskTypeOf s.type) then 1 else 0) ∧
      (physTrack (lbaToPhys s lba)).toNat = s.trackOf (vzoneToPZone v (diskTypeOf s.type)) k ∧
      physBlock (lbaToPhys s lba) = lbaBlock lba := by
  have hlow : (BitVec.ofNat 16 (s.trackOf (vzoneToPZone v (diskTypeOf s.type)) k)).toNat <
    0x1000 := by
    rw [h.track_toNat]
    have := h.track_lt
    omega
  have hhead : (if 7 < vzoneToPZone v (diskTypeOf s.type) then 1 else 0 : BitVec 16) = 0 ∨
      (if 7 < vzoneToPZone v (diskTypeOf s.type) then 1 else 0 : BitVec 16) = 1 := by
    split
    · exact .inr rfl
    · exact .inl rfl
  rw [h.phys, physHead_physOf hlow hhead (lbaBlock_cases lba),
    physTrack_physOf hlow hhead (lbaBlock_cases lba),
    physBlock_physOf hlow hhead (lbaBlock_cases lba)]
  exact ⟨rfl, h.track_toNat, rfl⟩

theorem head_toNat (h : LbaPlace s lba v k r) :
    (physHead (lbaToPhys s lba)).toNat = vzoneToPZone v (diskTypeOf s.type) / 8 := by
  have hz := h.zone
  rw [h.parts.1]
  split
  · have hone : (1 : BitVec 16).toNat = 1 := rfl
    omega
  · have hzero : (0 : BitVec 16).toNat = 0 := rfl
    omega

theorem recompose (h : LbaPlace s lba v k r) :
    physOf (physHead (lbaToPhys s lba)) (physTrack (lbaToPhys s lba))
      (physBlock (lbaToPhys s lba)) = lbaToPhys s lba := by
  obtain ⟨hhead, htrack, hblock⟩ := h.parts
  have hword : physTrack (lbaToPhys s lba) =
      BitVec.ofNat 16 (s.trackOf (vzoneToPZone v (diskTypeOf s.type)) k) := by
    apply BitVec.eq_of_toNat_eq
    rw [htrack, h.track_toNat]
  rw [hhead, hword, hblock, ← h.phys]

end LbaPlace

/-- Zones of one head that have a track in common are the same. -/
theorem zone_unique {z y : ℕ} (track : ℕ) (hz : z < 16) (hy : y < 16) (hhead : z / 8 = y / 8)
    (hzs : zoneStart z ≤ track) (hze : track < zoneStart z + zoneLength z)
    (hys : zoneStart y ≤ track) (hye : track < zoneStart y + zoneLength y) : z = y := by
  by_contra hne
  rcases zoneTables.disjoint z hz y hy hhead hne with hlt | hlt <;> omega

theorem lbaToPhys_injective (h : DefectsListed s) {l m : ℕ} (hl : l ≤ maxLba) (hm : m ≤ maxLba)
    (heq : lbaToPhys s l = lbaToPhys s m) : l = m := by
  obtain ⟨v, k, r, pl⟩ := exists_lbaPlace h hl
  obtain ⟨w, j, q, pm⟩ := exists_lbaPlace h hm
  have hhead := pl.head_toNat
  have htrack := pl.parts.2.1
  have hblock := pl.parts.2.2
  rw [heq, pm.head_toNat] at hhead
  rw [heq, pm.parts.2.1] at htrack
  rw [heq, pm.parts.2.2] at hblock
  have hzone : vzoneToPZone v (diskTypeOf s.type) = vzoneToPZone w (diskTypeOf s.type) :=
    zone_unique (s.trackOf (vzoneToPZone v (diskTypeOf s.type)) k) pl.zone pm.zone hhead.symm
      (Nat.le_add_right _ _) (s.trackOf_lt pl.zone pl.pair)
      (by rw [← htrack]; exact Nat.le_add_right _ _)
      (by rw [← htrack]; exact s.trackOf_lt pm.zone pm.pair)
  obtain rfl := vzoneTables.injective _ h.type v pl.vzone w pm.vzone hzone
  have hplace := (Gaps.place_strictMono _).injective (Nat.add_left_cancel htrack)
  obtain rfl := trackNumber_injective pm.pair pl.pair hplace
  have heven : (vzoneFirst (diskTypeOf s.type) v + 2 * j) % 2 = 0 := by
    have := pl.even
    omega
  rw [pl.sum, pm.sum] at hblock
  rw [pl.sum, pm.sum, lbaBlock_injective heven pm.half pl.half hblock]

theorem lbaToPhys_good (h : DefectsListed s) {l : ℕ} (hl : l ≤ maxLba) :
    ¬s.Defective (physHead (lbaToPhys s l)).toNat (physTrack (lbaToPhys s l)).toNat := by
  obtain ⟨v, k, r, p⟩ := exists_lbaPlace h hl
  rintro ⟨y, hy, hhead, d, hd, htrack⟩
  rw [p.head_toNat] at hhead
  rw [p.parts.2.1] at htrack
  have hinside := h.inside y hy d hd
  obtain rfl := zone_unique (zoneStart y + d) hy p.zone hhead (Nat.le_add_right _ _)
    (Nat.add_lt_add_left hinside _) (by rw [← htrack]; exact Nat.le_add_right _ _)
    (by rw [← htrack]; exact s.trackOf_lt p.zone p.pair)
  have hplace := Nat.add_left_cancel htrack
  exact Gaps.place_not_mem (h.increasing _ p.zone) _ (by rw [hplace]; exact hd)

theorem lbaToPhys_zone (h : DefectsListed s) {l : ℕ} (hl : l ≤ maxLba) :
    (getZoneFromHeadTrack ((physHead (lbaToPhys s l)).zeroExtend 32)
      ((physTrack (lbaToPhys s l)).zeroExtend 32)).toNat = lbaZone s.type l := by
  obtain ⟨v, k, r, p⟩ := exists_lbaPlace h hl
  have hextend : ∀ x : BitVec 16, (x.zeroExtend 32).toNat = x.toNat := by
    intro x
    rw [BitVec.zeroExtend, BitVec.toNat_setWidth]
    omega
  rw [getZoneFromHeadTrack_eq p.zone (by rw [hextend, p.head_toNat])
    (by rw [hextend, p.parts.2.1]; exact Nat.le_add_right _ _)
    (by rw [hextend, p.parts.2.1]; exact s.trackOf_lt p.zone p.pair)]
  unfold lbaZone
  rw [p.lookup]

theorem physToLba_lbaToPhys (h : DefectsListed s) {disk : DdDisk} (hs : disk.sysData = s)
    (hformat : disk.format ≠ .mame) {l : ℕ} (hl : l ≤ maxLba) :
    physToLba (generateLbaToPhysTable disk) (physHead (lbaToPhys s l)) (physTrack (lbaToPhys s l))
      (physBlock (lbaToPhys s l)) = l := by
  obtain ⟨v, k, r, p⟩ := exists_lbaPlace h hl
  have htable : ∀ m < sizeLba, (generateLbaToPhysTable disk).lbaPhysTable m = lbaToPhys s m := by
    intro m hm
    rw [generateLbaToPhysTable, if_neg hformat, ← hs]
    exact if_pos hm
  have hsize : l < sizeLba := by
    rw [maxLba] at hl
    rw [sizeLba]
    omega
  unfold physToLba
  rw [p.recompose]
  have hfind : (List.range sizeLba).find? (fun m =>
      (generateLbaToPhysTable disk).lbaPhysTable m == lbaToPhys s l) = some l := by
    rw [List.find?_range_eq_some]
    refine ⟨by rw [htable l hsize, beq_self_eq_true], List.mem_range.mpr hsize, fun m hm => ?_⟩
    rw [htable m (hm.trans hsize), Bool.not_eq_true', beq_eq_false_iff_ne]
    intro heq
    have hsame := lbaToPhys_injective h (by omega) hl heq
    omega
  rw [hfind]
  rfl

theorem exists_lbaToPhys (h : DefectsListed s) {head track block : ℕ} (hhead : head < 2)
    (htrack : track < 0x497) (hblock : block < 2) (hgood : ¬s.Defective head track) :
    ∃ l ≤ maxLba, lbaToPhys s l =
      physOf (BitVec.ofNat 16 head) (BitVec.ofNat 16 track) (BitVec.ofNat 16 block) := by
  obtain ⟨z, hz, hzhead, hstart, hend⟩ := exists_zone hhead htrack
  obtain ⟨v, hv, rfl⟩ := vzoneTables.surjective _ h.type z hz
  obtain ⟨-, heven, htable⟩ := vzoneTables.table _ h.type v hv
  have hlength := (zoneTables.table _ hz).1
  -- the good tracks of the zone are numbered below its length less twelve
  obtain ⟨k, hk⟩ := Gaps.exists_place (h.increasing _ hz) (n := track -
      zoneStart (vzoneToPZone v (diskTypeOf s.type))) fun hmem =>
    hgood ⟨_, hz, hzhead, _, hmem, (Nat.add_sub_cancel' hstart).symm⟩
  have hlt : k < zoneLength (vzoneToPZone v (diskTypeOf s.type)) - 12 := by
    by_contra hge
    have hle := Gaps.le_place_of_le (h.increasing _ hz) (k := k) (h.inside _ hz) (by
      simp only [DdSysData.defects, List.length_map, List.length_range]
      omega)
    omega
  have hnumber := trackNumber_lt hz hlt
  obtain ⟨r, hr, hr'⟩ := exists_lbaBlock (l := vzoneFirst (diskTypeOf s.type) v +
    2 * trackNumber (vzoneToPZone v (diskTypeOf s.type)) k) (by omega) hblock
  refine ⟨vzoneFirst (diskTypeOf s.type) v +
    2 * trackNumber (vzoneToPZone v (diskTypeOf s.type)) k + r, ?_, ?_⟩
  · have hle := vzoneTables.le_size _ h.type v hv
    rw [sizeLba] at hle
    rw [maxLba]
    omega
  · rw [lbaToPhys_eq h hv hnumber hr, hr', DdSysData.trackOf, trackNumber_trackNumber hlt, hk,
      Nat.add_sub_cancel' hstart, ← hzhead]
    congr 1
    split
    · have hone : vzoneToPZone v (diskTypeOf s.type) / 8 = 1 := by omega
      rw [hone]
      rfl
    · have hzero : vzoneToPZone v (diskTypeOf s.type) / 8 = 0 := by omega
      rw [hzero]
      rfl

/-- **The numbering of blocks**: where twelve defective tracks are listed for each zone, logical
    numbers and good blocks correspond one to one. -/
theorem lba_bijection (s : DdSysData) (h : DefectsListed s) : LbaBijection s where
  injective _ hl _ hm := lbaToPhys_injective h hl hm
  good _ hl := lbaToPhys_good h hl
  zone _ hl := lbaToPhys_zone h hl
  size _ _ hl := lbaToByteA_succ h.type hl
  inverse _ hs hformat _ hl := physToLba_lbaToPhys h hs hformat hl
  onto _ hhead _ htrack _ hblock hgood := exists_lbaToPhys h hhead htrack hblock hgood

/-- The system data of a disk of type 3, whose first twelve tracks of each zone are defective. -/
def plainSysData : DdSysData := ⟨fun i =>
  if i = 5 then 0x13
  else if 8 ≤ i ∧ i < 24 then BitVec.ofNat 8 (12 * (i - 7))
  else if 32 ≤ i ∧ i < 224 then BitVec.ofNat 8 ((i - 32) % 12)
  else 0⟩

theorem lba_bijection_plain : LbaBijection plainSysData :=
  lba_bijection plainSysData
    ⟨by decide, by decide, by decide, by decide⟩

end Mupen64plus
