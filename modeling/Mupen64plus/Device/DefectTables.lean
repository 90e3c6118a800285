import Mupen64plus.Device.DiskScan
import Mupen64plus.Device.LbaMapping

/-!
# Reads of the defect tables

The numbers of defective tracks of a zone are read from bytes of the disk that nothing has checked.
The loop that skips them goes on while the track is behind the next defect, and what ends it inside
of the table is either the number of defects of the zone or a defect far enough inwards.

## Main definitions

- `skipDefectsChecked`, `lbaToPhysChecked` — with every read of the tables checked
- `ReadsInside` — the generation of the table reads nothing outside
- `ZoneInside` — the condition on the bytes of one zone

## Main results

- `skipDefectsChecked_isSome` — the loop
- `readsInside_iff`
-/

namespace Mupen64plus

/-- The length of `defect_offset`. -/
def defectOffsets : ℕ := 16

/-- The length of `defect_info`. -/
def defectInfos : ℕ := 192

/-- `skipDefects` with its reads of `defect_info` checked. -/
def skipDefectsChecked (info : ℕ → BitVec 8) (zoneStart : BitVec 16) :
    (defectAmount : ℕ) → (defectOffset track : BitVec 16) → Option (BitVec 16)
  | 0, _, track => some track
  | defectAmount + 1, defectOffset, track =>
    if defectOffset.toNat < defectInfos then
      if (info defectOffset.toNat).toNat + zoneStart.toNat ≤ track.toNat then
        skipDefectsChecked info zoneStart defectAmount (defectOffset + 1) (track + 1)
      else some track
    else none

/-- A read of `defect_offset`, checked. -/
def DdSysData.defectOffsetChecked (s : DdSysData) (i : ℕ) : Option (BitVec 16) :=
  if i < defectOffsets then some ((s.defectOffset i).zeroExtend 16) else none

/-- The offset of the defects of a zone, with its read checked. -/
def DdSysData.defectStartChecked (s : DdSysData) (pzone : ℕ) : Option (BitVec 16) :=
  if pzone ≠ 0 then s.defectOffsetChecked (pzone - 1) else some 0

/-- `lbaToPhys` with its reads of the defect tables checked. -/
def lbaToPhysChecked (s : DdSysData) (lba : ℕ) : Option (BitVec 16) := do
  let disktype := diskTypeOf s.type
  let vzone := lbaToVZoneA s.type lba
  let pzone := vzoneToPZone vzone disktype
  let head : BitVec 16 := if 7 < pzone then 1 else 0
  let vzoneLba := if vzone ≠ 0 then tableAt vzoneLbaTable disktype (vzone - 1) else 0
  let track := BitVec.ofNat 16 ((lba - vzoneLba) / 2)
  let zoneStart := BitVec.ofNat 16
    (if head ≠ 0 then outercylTbl.getD (pzone - 8) 0 else trackZoneTable.getD pzone 0)
  let track := (if head ≠ 0 then -track else track) + BitVec.ofNat 16 (trackZoneTable.getD pzone 0)
  let defectOffset ← s.defectStartChecked pzone
  let defectEnd ← s.defectOffsetChecked pzone
  let defectAmount := defectEnd - defectOffset
  let track ← skipDefectsChecked s.defectInfo zoneStart defectAmount.toNat defectOffset track
  some (physOf head track (lbaBlock lba))

/-- `GenerateLBAToPhysTable` reads the defect tables inside of their bounds. -/
def ReadsInside (disk : DdDisk) : Prop :=
  disk.format = .mame ∨ ∀ lba < sizeLba, lbaToPhysChecked disk.sysData lba =
    some (lbaToPhys disk.sysData lba)

/-- Where the defects of a zone start. -/
def DdSysData.defectStart (s : DdSysData) (z : ℕ) : ℕ :=
  if z ≠ 0 then (s.defectOffset (z - 1)).toNat else 0

/-- The number of defects of a zone, a difference of 16 bits. -/
def DdSysData.defectAmount (s : DdSysData) (z : ℕ) : ℕ :=
  ((s.defectOffset z).toNat + 2 ^ 16 - s.defectStart z) % 2 ^ 16

/-- The last track of a zone before defects are skipped. -/
def topTrack (z : ℕ) : ℕ := zoneStart z + (zoneLength z - 13)

/-- The defects that are skipped from a track on lie in the table: they end in it, or one of them is
behind the track that is reached with it. -/
def SkipsInside (info : ℕ → BitVec 8) (zoneStart start amount track : ℕ) : Prop :=
  amount = 0 ∨ start < defectInfos ∧ (start + amount ≤ defectInfos ∨
    ∃ k < defectInfos, start ≤ k ∧ track + (k - start) < (info k).toNat + zoneStart)

instance decidableSkipsInside (info : ℕ → BitVec 8) (zoneStart start amount track : ℕ) :
    Decidable (SkipsInside info zoneStart start amount track) :=
  inferInstanceAs (Decidable (_ ∨ _))

/-- The defects skipped from the last track of a zone lie in the table. -/
def ZoneInside (s : DdSysData) (z : ℕ) : Prop :=
  SkipsInside s.defectInfo (zoneStart z) (s.defectStart z) (s.defectAmount z) (topTrack z)

instance decidableZoneInside (s : DdSysData) (z : ℕ) : Decidable (ZoneInside s z) :=
  inferInstanceAs (Decidable (SkipsInside _ _ _ _ _))

-- ════════════════════
-- The loop
-- ════════════════════

section

variable {info : ℕ → BitVec 8} {zoneStart : BitVec 16}

/-- Where the checked loop answers, it answers as the loop does. -/
theorem skipDefectsChecked_eq {amount : ℕ} {offset track t : BitVec 16}
    (h : skipDefectsChecked info zoneStart amount offset track = some t) :
    t = skipDefects info zoneStart amount offset track := by
  induction amount generalizing offset track with
  | zero => exact (Option.some.inj h).symm
  | succ amount ih =>
    unfold skipDefectsChecked at h
    unfold skipDefects
    split at h
    · split at h
      · next hskip =>
        rw [if_pos hskip]
        exact ih h
      · next hstop =>
        rw [if_neg hstop]
        exact (Option.some.inj h).symm
    · cases h

/-- The checked loop answers if and only if the skipped defects lie in the table. -/
theorem skipDefectsChecked_isSome {amount : ℕ} {offset track : BitVec 16}
    (htrack : track.toNat + defectInfos < 2 ^ 16 + offset.toNat) :
    (skipDefectsChecked info zoneStart amount offset track).isSome = true ↔
      SkipsInside info zoneStart.toNat offset.toNat amount track.toNat := by
  induction amount generalizing offset track with
  | zero => exact iff_of_true rfl (.inl rfl)
  | succ amount ih =>
    have hone : (1 : BitVec 16).toNat = 1 := rfl
    unfold skipDefectsChecked
    by_cases hinside : offset.toNat < defectInfos
    · rw [if_pos hinside]
      have hinfos : defectInfos = 192 := rfl
      have hoffset : (offset + 1).toNat = offset.toNat + 1 := by
        rw [BitVec.toNat_add, hone]
        omega
      have htrack' : (track + 1).toNat = track.toNat + 1 := by
        rw [BitVec.toNat_add, hone]
        omega
      by_cases hskip : (info offset.toNat).toNat + zoneStart.toNat ≤ track.toNat
      · rw [if_pos hskip, ih (by omega), hoffset, htrack']
        unfold SkipsInside
        constructor
        · rintro (rfl | ⟨hlt, hend | ⟨k, hk', hk, hstop⟩⟩)
          · exact .inr ⟨hinside, .inl (by omega)⟩
          · exact .inr ⟨hinside, .inl (by omega)⟩
          · exact .inr ⟨hinside, .inr ⟨k, hk', by omega, by omega⟩⟩
        · rintro (hzero | ⟨-, hend | ⟨k, hk', hk, hstop⟩⟩)
          · exact absurd hzero (Nat.succ_ne_zero amount)
          · by_cases hzero : amount = 0
            · exact .inl hzero
            · exact .inr ⟨by omega, .inl (by omega)⟩
          · have hne : k ≠ offset.toNat := by
              rintro rfl
              omega
            exact .inr ⟨by omega, .inr ⟨k, hk', by omega, by omega⟩⟩
      · rw [if_neg hskip]
        exact iff_of_true rfl (.inr ⟨hinside, .inr ⟨offset.toNat, hinside, le_refl _, by omega⟩⟩)
    · rw [if_neg hinside]
      refine iff_of_false Bool.false_ne_true ?_
      rintro (hzero | ⟨hlt, -⟩)
      · exact absurd hzero (Nat.succ_ne_zero amount)
      · exact hinside hlt

/-- From an earlier track no more defects are skipped. -/
theorem SkipsInside.mono {info : ℕ → BitVec 8} {zoneStart start amount track track' : ℕ}
    (h : SkipsInside info zoneStart start amount track) (hle : track' ≤ track) :
    SkipsInside info zoneStart start amount track' := by
  rcases h with hzero | ⟨hlt, hend | ⟨k, hk', hk, hstop⟩⟩
  · exact .inl hzero
  · exact .inr ⟨hlt, .inl hend⟩
  · exact .inr ⟨hlt, .inr ⟨k, hk', hk, by omega⟩⟩

end

-- ════════════════════
-- One logical number
-- ════════════════════

section

variable {s : DdSysData} {lba v k r z : ℕ}

theorem defectStart_word (s : DdSysData) (z : ℕ) :
    (if z ≠ 0 then (s.defectOffset (z - 1)).zeroExtend 16 else 0) =
      BitVec.ofNat 16 (s.defectStart z) := by
  unfold DdSysData.defectStart
  split
  · rw [BitVec.zeroExtend, BitVec.ofNat_toNat]
  · rfl

theorem defectStartChecked_eq (hz : z < 16) :
    s.defectStartChecked z = some (BitVec.ofNat 16 (s.defectStart z)) := by
  rw [← defectStart_word]
  unfold DdSysData.defectStartChecked DdSysData.defectOffsetChecked
  split
  · exact if_pos ((Nat.sub_le z 1).trans_lt hz)
  · rfl

theorem defectStart_lt (s : DdSysData) (z : ℕ) : s.defectStart z < 256 := by
  unfold DdSysData.defectStart
  split
  · exact (s.defectOffset (z - 1)).isLt
  · decide

theorem defectAmount_word (s : DdSysData) (z : ℕ) :
    ((s.defectOffset z).zeroExtend 16 - BitVec.ofNat 16 (s.defectStart z)).toNat =
      s.defectAmount z := by
  have hlt := defectStart_lt s z
  have hlt' := (s.defectOffset z).isLt
  unfold DdSysData.defectAmount
  rw [BitVec.toNat_sub, BitVec.zeroExtend, BitVec.toNat_setWidth, BitVec.toNat_ofNat]
  omega

/-- The zone of a logical number, its first track and the track before defects are skipped, as
`LBAToPhys` computes them. -/
structure LbaPlaced (s : DdSysData) (lba z t : ℕ) : Prop where
  zone : vzoneToPZone (lbaToVZoneA s.type lba) (diskTypeOf s.type) = z
  zone_lt : z < 16
  start : BitVec.ofNat 16 (if (if 7 < z then 1 else 0 : BitVec 16) ≠ 0 then
    outercylTbl.getD (z - 8) 0 else trackZoneTable.getD z 0) = BitVec.ofNat 16 (zoneStart z)
  track : (if (if 7 < z then 1 else 0 : BitVec 16) ≠ 0 then
      -BitVec.ofNat 16 ((lba - vzoneFirst (diskTypeOf s.type) (lbaToVZoneA s.type lba)) / 2) else
      BitVec.ofNat 16 ((lba - vzoneFirst (diskTypeOf s.type) (lbaToVZoneA s.type lba)) / 2)) +
    BitVec.ofNat 16 (trackZoneTable.getD z 0) = BitVec.ofNat 16 t
  start_lt : zoneStart z < 0x497
  track_lt : t < 0x497

theorem placed (ht : diskTypeOf s.type < 7) (hv : v < 16)
    (hk : k < zoneLength (vzoneToPZone v (diskTypeOf s.type)) - 12) (hr : r < 2) :
    LbaPlaced s (vzoneFirst (diskTypeOf s.type) v + 2 * k + r)
      (vzoneToPZone v (diskTypeOf s.type))
      (zoneStart (vzoneToPZone v (diskTypeOf s.type)) +
        trackNumber (vzoneToPZone v (diskTypeOf s.type)) k) := by
  obtain ⟨hz, heven, hlast⟩ := vzoneTables.table _ ht v hv
  have hzone : lbaToVZoneA s.type (vzoneFirst (diskTypeOf s.type) v + 2 * k + r) = v :=
    lbaToVZoneA_eq ht hv (by omega) (by omega)
  have hhalf : (vzoneFirst (diskTypeOf s.type) v + 2 * k + r -
      vzoneFirst (diskTypeOf s.type) v) / 2 = k := by omega
  generalize hzeq : vzoneToPZone v (diskTypeOf s.type) = z at hz hk hlast
  obtain ⟨hlength, hend, hhead0, hhead1⟩ := zoneTables.table z hz
  have hnumber := trackNumber_lt hz hk
  refine ⟨by rw [hzone, hzeq], hz, ?_, ?_, by omega, by omega⟩
  · by_cases hhead : 7 < z
    · rw [if_pos hhead, if_pos (by decide), (hhead1 hhead).2]
    · rw [if_neg hhead, if_neg (by decide), hhead0 (by omega)]
  · rw [hzone, hhalf]
    refine BitVec.eq_of_toNat_eq ((trackWord hz hk).trans ?_)
    rw [BitVec.toNat_ofNat, Nat.mod_eq_of_lt (by omega)]

/-- The checked number: a checked loop on the place of the number. -/
theorem lbaToPhysChecked_eq {t : ℕ} (h : LbaPlaced s lba z t) :
    lbaToPhysChecked s lba =
      (skipDefectsChecked s.defectInfo (BitVec.ofNat 16 (zoneStart z)) (s.defectAmount z)
        (BitVec.ofNat 16 (s.defectStart z)) (BitVec.ofNat 16 t)).map
          fun track => physOf (if 7 < z then 1 else 0) track (lbaBlock lba) := by
  have hlast : s.defectOffsetChecked z = some ((s.defectOffset z).zeroExtend 16) := if_pos h.zone_lt
  have htrack := h.track
  unfold vzoneFirst at htrack
  unfold lbaToPhysChecked
  dsimp only
  rw [h.zone, defectStartChecked_eq h.zone_lt, hlast, h.start, htrack]
  simp only [Option.bind_eq_bind, Option.bind_some, defectAmount_word]
  rw [Option.map_eq_bind]
  rfl

/-- A logical number is read inside of the tables if and only if the defects skipped from its track
lie in the table. -/
theorem lbaToPhysChecked_isSome {t : ℕ} (h : LbaPlaced s lba z t) :
    (lbaToPhysChecked s lba).isSome = true ↔
      SkipsInside s.defectInfo (zoneStart z) (s.defectStart z) (s.defectAmount z) t := by
  have hlt := defectStart_lt s z
  have hstart := h.start_lt
  have htrack := h.track_lt
  have hword : ∀ n < 2 ^ 16, (BitVec.ofNat 16 n).toNat = n := fun n hn => by
    rw [BitVec.toNat_ofNat, Nat.mod_eq_of_lt hn]
  rw [lbaToPhysChecked_eq h, Option.isSome_map, skipDefectsChecked_isSome (by
    rw [hword t (by omega), hword _ (by omega), defectInfos]
    omega), hword t (by omega), hword _ (by omega), hword _ (by omega)]

theorem lbaToPhys_placed {t : ℕ} (h : LbaPlaced s lba z t) :
    lbaToPhys s lba = physOf (if 7 < z then 1 else 0)
      (skipDefects s.defectInfo (BitVec.ofNat 16 (zoneStart z)) (s.defectAmount z)
        (BitVec.ofNat 16 (s.defectStart z)) (BitVec.ofNat 16 t)) (lbaBlock lba) := by
  have htrack := h.track
  unfold vzoneFirst at htrack
  unfold lbaToPhys
  dsimp only
  rw [h.zone, defectStart_word, defectAmount_word, h.start, htrack]

/-- Where the checked number is there, it is the number. -/
theorem eq_of_lbaToPhysChecked {t : ℕ} (h : LbaPlaced s lba z t)
    (hsome : (lbaToPhysChecked s lba).isSome = true) :
    lbaToPhysChecked s lba = some (lbaToPhys s lba) := by
  obtain ⟨p, hp⟩ := Option.isSome_iff_exists.mp hsome
  rw [hp]
  rw [lbaToPhysChecked_eq h] at hp
  obtain ⟨track, htrack, rfl⟩ := Option.map_eq_some_iff.mp hp
  rw [lbaToPhys_placed h, skipDefectsChecked_eq htrack]

end

-- ════════════════════
-- The whole table
-- ════════════════════

/-- Every logical number has its place. -/
theorem exists_placed {s : DdSysData} (ht : diskTypeOf s.type < 7) {lba : ℕ}
    (hlba : lba < sizeLba) :
    ∃ z k, k < zoneLength z - 12 ∧ LbaPlaced s lba z (zoneStart z + trackNumber z k) := by
  have hmax : lba ≤ maxLba := by
    rw [sizeLba] at hlba
    rw [maxLba]
    omega
  obtain ⟨hv, hfirst, hlast⟩ := lbaToVZoneA_spec ht hmax
  obtain ⟨hz, heven, htable⟩ := vzoneTables.table _ ht _ hv
  have hsplit : lba = vzoneFirst (diskTypeOf s.type) (lbaToVZoneA s.type lba) +
      2 * ((lba - vzoneFirst (diskTypeOf s.type) (lbaToVZoneA s.type lba)) / 2) +
      (lba - vzoneFirst (diskTypeOf s.type) (lbaToVZoneA s.type lba)) % 2 := by omega
  have hk : (lba - vzoneFirst (diskTypeOf s.type) (lbaToVZoneA s.type lba)) / 2 <
      zoneLength (vzoneToPZone (lbaToVZoneA s.type lba) (diskTypeOf s.type)) - 12 := by omega
  have hr : (lba - vzoneFirst (diskTypeOf s.type) (lbaToVZoneA s.type lba)) % 2 < 2 :=
    Nat.mod_lt _ Nat.two_pos
  have hplace := placed ht hv hk hr
  rw [← hsplit] at hplace
  exact ⟨_, _, hk, hplace⟩

/-- Some logical number is on the last track of a zone. -/
theorem exists_top {s : DdSysData} (ht : diskTypeOf s.type < 7) {z : ℕ} (hz : z < 16) :
    ∃ lba < sizeLba, LbaPlaced s lba z (topTrack z) := by
  obtain ⟨v, hv, rfl⟩ := vzoneTables.surjective _ ht z hz
  obtain ⟨-, heven, htable⟩ := vzoneTables.table _ ht v hv
  have hle := vzoneTables.le_size _ ht v hv
  have hlength := (zoneTables.table _ hz).1
  have htop : zoneLength (vzoneToPZone v (diskTypeOf s.type)) - 13 <
      zoneLength (vzoneToPZone v (diskTypeOf s.type)) - 12 := by omega
  have hk := trackNumber_lt hz htop
  have hplace := placed ht hv hk (show 0 < 2 by decide)
  rw [trackNumber_trackNumber htop] at hplace
  exact ⟨_, by omega, hplace⟩

theorem readsInside_iff_zones {s : DdSysData} (ht : diskTypeOf s.type < 7) :
    (∀ lba < sizeLba, lbaToPhysChecked s lba = some (lbaToPhys s lba)) ↔
      ∀ z < 16, ZoneInside s z := by
  constructor
  · intro hall z hz
    obtain ⟨lba, hlba, hplace⟩ := exists_top ht hz
    refine (lbaToPhysChecked_isSome hplace).mp ?_
    rw [hall lba hlba]
    rfl
  · intro hzones lba hlba
    obtain ⟨z, k, hk, hplace⟩ := exists_placed ht hlba
    have hnumber := trackNumber_lt hplace.zone_lt hk
    refine eq_of_lbaToPhysChecked hplace ((lbaToPhysChecked_isSome hplace).mpr ?_)
    refine (hzones z hplace.zone_lt).mono ?_
    unfold topTrack
    omega

/-- **Defect tables**: the table of a disk is generated from reads inside of the defect tables if
and only if the format has no such table or the defects of every zone lie in it. -/
theorem readsInside_iff (disk : DdDisk) (h : validSysData disk.sysData = true) :
    ReadsInside disk ↔ disk.format = .mame ∨ ∀ z < 16, ZoneInside disk.sysData z := by
  unfold ReadsInside
  rw [readsInside_iff_zones (diskTypeOf_lt h)]

/-- A disk with good system data that counts `n` defects for zone 0, all of them 0. -/
def countedDisk (n : BitVec 8) : DdDisk where
  data := fun i => if i = 8 then n else goodSector i
  size := sdkFormatDumpSize
  lbaPhysTable := fun _ => 0
  format := .sdk
  development := false
  offsetSys := 0
  offsetId := 0x4D08 * 14
  offsetRam := 0

/-- Twelve defects lie in the table. -/
theorem twelve_readsInside : ReadsInside (countedDisk 12) ↔
    (countedDisk 12).format = .mame ∨ ∀ z < 16, ZoneInside (countedDisk 12).sysData z :=
  readsInside_iff (countedDisk 12) (by decide)

set_option maxRecDepth 4000 in
/-- Of 200 defects the last ones are read from behind the table. -/
theorem defects_not_inside :
    ¬∀ disk : DdDisk, validSysData disk.sysData = true → ReadsInside disk := by
  intro hall
  rcases hall (countedDisk 200) (by decide) with hformat | hreads
  · exact absurd hformat (by decide)
  · have hzone := (readsInside_iff_zones (by decide)).mp hreads 0 (by decide)
    exact absurd hzone (by decide)

end Mupen64plus
