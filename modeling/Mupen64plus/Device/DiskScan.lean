import Mupen64plus.Device.Disk

/-!
# What the scan of a disk image finds

Two sizes of an image are known, and on these the scan looks for a copy of the system data whose
fields are right and whose sector repeats over the block. It stores the index of its loop where the
number of the block belongs.

## Main definitions

- `PassesChecks` — a block with good system data
- `ScanSound` — what the result of a scan should be
- `GoodCopies` — the condition

## Main results

- `scanSysData_spec`
- `scanSound_iff`
-/

namespace Mupen64plus

/-- The system data of a block passes all the checks. -/
def PassesChecks (data : Bytes) (block : ℕ) : Prop :=
  validSysData (sysDataAt data (blockSize 0 * block)) = true ∧
    sectorsRepeat data (blockSize 0 * block) (sysSectorSize block) = true

/-- The scan hands back a block of good system data and a block of good disk id. -/
structure ScanSound (data : Bytes) (scan : DiskScan) : Prop where
  sys : ∃ block, scan.offsetSys = blockSize 0 * block ∧ PassesChecks data block ∧
    (scan.development = true ↔ block ∈ [2, 3, 10, 11])
  id : ∃ block ∈ [14, 15], scan.offsetId = blockSize 0 * block ∧
    sectorsRepeat data (blockSize 0 * block) (zoneSecSize.getD 0 0) = true
  type : scan.format = .sdk →
    diskTypeOf (sysDataAt data scan.offsetSys).type < ramStartLba.length ∧
      diskTypeOf (sysDataAt data scan.offsetSys).type < ramSizes.length

/-- One of the blocks 0 to 3 passes, or with the first of the blocks 8 to 11 that passes the block
four before it does too. -/
def GoodCopies (data : Bytes) : Prop :=
  (∃ block < 4, PassesChecks data block) ∨
    ∃ k < 4, PassesChecks data (8 + k) ∧ (∀ j < k, ¬PassesChecks data (8 + j)) ∧
      PassesChecks data (4 + k)

-- ════════════════════════════════════════════════════════════════════════
-- The loops
-- ════════════════════════════════════════════════════════════════════════

section

variable {data : Bytes} {size : ℕ}

theorem sectorsRepeat_iff {offset sectorsize : ℕ} :
    sectorsRepeat data offset sectorsize = true ↔ ∀ j < sectorsPerBlock - 1, ∀ k < sectorsize,
      data (offset + j * sectorsize + k) = data (offset + (j + 1) * sectorsize + k) := by
  simp only [sectorsRepeat, List.all_eq_true, List.mem_range, beq_iff_eq]

/-- On an image of a known size the loop looks for the first block that passes. -/
theorem scanSysData_eq_find (hsize : isDumpSize size = true) {blocks : List (ℕ × ℕ)}
    (hblocks : ∀ p ∈ blocks, p.1 < 24) :
    scanSysData data size blocks = (blocks.find? fun p =>
      validSysData (sysDataAt data (blockSize 0 * p.1)) &&
        sectorsRepeat data (blockSize 0 * p.1) (sysSectorSize p.1)).map Prod.snd := by
  have hbig : 0x03dec800 ≤ size := by
    simp only [isDumpSize, Bool.or_eq_true, beq_iff_eq, mameFormatDumpSize,
      sdkFormatDumpSize] at hsize
    omega
  induction blocks with
  | nil => rfl
  | cons p blocks ih =>
    obtain ⟨block, i⟩ := p
    have hblock : block < 24 := hblocks _ List.mem_cons_self
    have hinside : ¬(size ≤ blockSize 0 * block + 0x20 ∨
        size < mameFormatDumpSize ∧ size < sdkFormatDumpSize ∧ 0 < i) := by
      have hzero : blockSize 0 = 19720 := rfl
      rw [hzero, mameFormatDumpSize, sdkFormatDumpSize]
      omega
    unfold scanSysData
    dsimp only
    rw [if_neg hinside, hsize, Bool.true_and, ih fun p hp => hblocks p (List.mem_cons_of_mem _ hp),
      List.find?_cons]
    cases validSysData (sysDataAt data (blockSize 0 * block)) with
    | false => rfl
    | true =>
      cases sectorsRepeat data (blockSize 0 * block) (sysSectorSize block) with
      | false => rfl
      | true => rfl

/-- The index that the scan finds is that of the first block that passes. -/
theorem scanSysData_spec (hsize : isDumpSize size = true) {i : ℕ}
    (h : scanSysData data size scanBlocks.zipIdx = some i) :
    i < 8 ∧ PassesChecks data (scanBlocks.getD i 0) ∧
      ∀ j < i, ¬PassesChecks data (scanBlocks.getD j 0) := by
  rw [scanSysData_eq_find hsize (by decide), Option.map_eq_some_iff] at h
  obtain ⟨⟨block, i'⟩, hfind, rfl⟩ := h
  obtain ⟨hpass, n, hn, hget, hbefore⟩ := List.find?_eq_some_iff_getElem.mp hfind
  rw [List.length_zipIdx] at hn
  rw [List.getElem_zipIdx, Prod.mk.injEq, Nat.zero_add] at hget
  obtain ⟨hblock, rfl⟩ := hget
  have hpasses : ∀ j (hj : j < scanBlocks.length), PassesChecks data (scanBlocks.getD j 0) ↔
      (validSysData (sysDataAt data (blockSize 0 * scanBlocks[j])) &&
        sectorsRepeat data (blockSize 0 * scanBlocks[j]) (sysSectorSize scanBlocks[j])) = true := by
    intro j hj
    have hget : scanBlocks.getD j 0 = scanBlocks[j] := by
      rw [List.getD_eq_getElem?_getD, List.getElem?_eq_getElem hj, Option.getD_some]
    rw [hget, Bool.and_eq_true]
    exact Iff.rfl
  refine ⟨hn, (hpasses _ hn).mpr ?_, fun j hj hpass' => ?_⟩
  · rw [hblock]
    exact hpass
  · have hfail := hbefore j hj
    rw [List.getElem_zipIdx] at hfail
    dsimp only at hfail
    rw [(hpasses j (hj.trans hn)).mp hpass'] at hfail
    exact Bool.noConfusion hfail

theorem scanDiskId_spec {i : ℕ} (h : scanDiskId data = some i) :
    i ∈ [14, 15] ∧ sectorsRepeat data (blockSize 0 * i) (zoneSecSize.getD 0 0) = true := by
  have hrepeat := List.find?_some h
  rw [Nat.mul_comm] at hrepeat
  exact ⟨List.mem_of_find?_eq_some h, hrepeat⟩

end

/-- On an image of a known size: the index found for the system data, and the block of the id. -/
theorem scan_some {malloc : Bool} {data : Bytes} {size : ℕ} {scan : DiskScan}
    (hsize : isDumpSize size = true)
    (h : scanAndExpandDiskFormat malloc data size = some scan) :
    ∃ sys id, scanSysData data size scanBlocks.zipIdx = some sys ∧ scanDiskId data = some id ∧
      scan.offsetSys = blockSize 0 * sys ∧ scan.offsetId = blockSize 0 * id ∧
        scan.development = isDevelopmentBlock sys := by
  unfold scanAndExpandDiskFormat at h
  cases hsys : scanSysData data size scanBlocks.zipIdx with
  | none => simp [hsys] at h
  | some sys =>
    cases hid : scanDiskId data with
    | none => simp [hsys, hsize, hid] at h
    | some id =>
      refine ⟨sys, id, rfl, rfl, ?_⟩
      simp only [hsys, hsize, hid, Option.bind_eq_bind, Option.bind_some, if_true] at h
      split at h
      · cases h
        exact ⟨rfl, rfl, rfl⟩
      · cases h
        exact ⟨rfl, rfl, rfl⟩

/-- The type of system data whose type passes is a row of the tables. -/
theorem diskTypeOf_lt {s : DdSysData} (h : validSysData s = true) : diskTypeOf s.type < 7 := by
  simp only [validSysData, Bool.and_eq_true, decide_eq_true_eq] at h
  have htype : ∀ t : BitVec 8, (t &&& 0xEF).toNat ≤ 6 → (t &&& 0x0f).toNat < 7 := by decide
  exact htype _ h.1.1.1

/-- What is stored is right where the block that has the index as its number passes. -/
theorem scanSound_iff_passes {data : Bytes} {scan : DiskScan} {sys id : ℕ} (hid : id ∈ [14, 15] ∧
      sectorsRepeat data (blockSize 0 * id) (zoneSecSize.getD 0 0) = true)
    (hoffsetSys : scan.offsetSys = blockSize 0 * sys) (hoffsetId : scan.offsetId = blockSize 0 * id)
    (hdevelopment : scan.development = isDevelopmentBlock sys) :
    ScanSound data scan ↔ PassesChecks data sys := by
  constructor
  · rintro ⟨⟨block, hblock, hpass, -⟩, -, -⟩
    have hsame : block = sys := by
      rw [hoffsetSys] at hblock
      exact (Nat.eq_of_mul_eq_mul_left (by decide) hblock).symm
    rw [← hsame]
    exact hpass
  · intro hpass
    refine ⟨⟨sys, hoffsetSys, hpass, ?_⟩, ⟨id, hid.1, hoffsetId, hid.2⟩, fun _ => ?_⟩
    · rw [hdevelopment, isDevelopmentBlock]
      simp only [Bool.or_eq_true, beq_iff_eq, List.mem_cons, List.not_mem_nil, or_false, or_assoc]
    · rw [hoffsetSys]
      exact ⟨diskTypeOf_lt hpass.1, diskTypeOf_lt hpass.1⟩

/-- The block with the index as its number passes, in terms of the image. -/
theorem passes_index_iff {data : Bytes} {i : ℕ} (hi : i < 8)
    (hpass : PassesChecks data (scanBlocks.getD i 0))
    (hfirst : ∀ j < i, ¬PassesChecks data (scanBlocks.getD j 0)) :
    PassesChecks data i ↔ GoodCopies data := by
  have hlow : ∀ j < 4, scanBlocks.getD j 0 = j := by decide
  have hhigh : ∀ k < 4, scanBlocks.getD (4 + k) 0 = 8 + k := by decide
  by_cases hlt : i < 4
  · rw [hlow i hlt] at hpass
    exact iff_of_true hpass (.inl ⟨i, hlt, hpass⟩)
  · obtain ⟨k, rfl⟩ := Nat.exists_eq_add_of_le (not_lt.mp hlt)
    have hk : k < 4 := by omega
    rw [hhigh k hk] at hpass
    have hfirst' : ∀ j < k, ¬PassesChecks data (8 + j) := by
      intro j hj
      rw [← hhigh j (hj.trans hk)]
      exact hfirst (4 + j) (by omega)
    constructor
    · exact fun hself => .inr ⟨k, hk, hpass, hfirst', hself⟩
    · rintro (⟨block, hblock, hblock'⟩ | ⟨k', hk', hpass', hfirst'', hself⟩)
      · rw [← hlow block hblock] at hblock'
        exact absurd hblock' (hfirst block (by omega))
      · obtain rfl : k' = k := by
          by_contra hne
          rcases Nat.lt_or_gt_of_ne hne with hlt' | hgt
          · exact hfirst' k' hlt' hpass'
          · exact hfirst'' k hgt hpass
        exact hself

/-- **The scan** of an image of a known size is right if and only if the block it finds, or the one
whose number it stores, is good. -/
theorem scanSound_iff (malloc : Bool) (data : Bytes) (size : ℕ) (scan : DiskScan)
    (hsize : isDumpSize size = true) (h : scanAndExpandDiskFormat malloc data size = some scan) :
    ScanSound data scan ↔ GoodCopies data := by
  obtain ⟨sys, id, hsys, hid, hoffsetSys, hoffsetId, hdevelopment⟩ := scan_some hsize h
  obtain ⟨hlt, hpass, hfirst⟩ := scanSysData_spec hsize hsys
  rw [scanSound_iff_passes (scanDiskId_spec hid) hoffsetSys hoffsetId hdevelopment,
    passes_index_iff hlt hpass hfirst]

/-- A sector of good system data. -/
def goodSector (k : ℕ) : BitVec 8 :=
  [0, 0, 0, 0, 0x10, 0x10, 0, 1].getD k (if k = 28 then 0x80 else 0)

/-- An image with good system data in one block and zeros everywhere else. -/
def oneCopy (block : ℕ) : Bytes := fun i =>
  if blockSize 0 * block ≤ i ∧ i < blockSize 0 * (block + 1) then
    goodSector ((i - blockSize 0 * block) % 232)
  else 0

theorem oneCopy_repeats (block : ℕ) :
    sectorsRepeat (oneCopy block) (blockSize 0 * block) 232 = true := by
  have hat : ∀ j < sectorsPerBlock, ∀ k < 232,
      oneCopy block (blockSize 0 * block + j * 232 + k) = goodSector k := by
    intro j hj k hk
    have hsize : blockSize 0 = 19720 := rfl
    have hin : blockSize 0 * block ≤ blockSize 0 * block + j * 232 + k ∧
        blockSize 0 * block + j * 232 + k < blockSize 0 * (block + 1) := by
      rw [sectorsPerBlock] at hj
      rw [hsize]
      omega
    unfold oneCopy
    rw [if_pos hin]
    refine congrArg goodSector ?_
    omega
  refine sectorsRepeat_iff.mpr fun j hj k hk => ?_
  rw [hat j (by omega) k hk, hat (j + 1) (by omega) k hk]

theorem oneCopy_diskId {block : ℕ} (hblock : block < 14) :
    scanDiskId (oneCopy block) = some 14 := by
  have hrepeat :
      sectorsRepeat (oneCopy block) (14 * blockSize 0) (zoneSecSize.getD 0 0) = true := by
    refine sectorsRepeat_iff.mpr fun j hj k hk => ?_
    have hzero : ∀ i, blockSize 0 * 14 ≤ i → oneCopy block i = 0 := by
      intro i hi
      have hsize : blockSize 0 = 19720 := rfl
      rw [hsize] at hi
      unfold oneCopy
      rw [hsize, if_neg (by omega)]
    rw [hzero _ (by omega), hzero _ (by omega)]
  unfold scanDiskId
  exact List.find?_cons_of_pos hrepeat

/-- The scan of an image with one copy, whose disk id is all zeros. -/
theorem scan_oneCopy {block i : ℕ} (hblock : block < 14)
    (hsys : scanSysData (oneCopy block) mameFormatDumpSize scanBlocks.zipIdx = some i) :
    scanAndExpandDiskFormat true (oneCopy block) mameFormatDumpSize =
      some ⟨oneCopy block, .mame, isDevelopmentBlock i, 0x4D08 * i, 0x4D08 * 14, 0, 0⟩ := by
  have hsize : isDumpSize mameFormatDumpSize = true := rfl
  simp only [scanAndExpandDiskFormat, hsys, hsize, oneCopy_diskId hblock, Option.bind_eq_bind,
    Option.bind_some, if_true]
  rfl

theorem scanSysData_oneCopy0 :
    scanSysData (oneCopy 0) mameFormatDumpSize scanBlocks.zipIdx = some 0 := by
  have hvalid : validSysData (sysDataAt (oneCopy 0) (blockSize 0 * 0)) = true := by decide
  have hrepeat : sectorsRepeat (oneCopy 0) (blockSize 0 * 0) (sysSectorSize 0) = true :=
    oneCopy_repeats 0
  rw [scanSysData_eq_find rfl (by decide)]
  have hlist : scanBlocks.zipIdx = (0, 0) :: scanBlocks.zipIdx.tail := rfl
  rw [hlist, List.find?_cons_of_pos (by rw [hvalid, hrepeat]; rfl)]
  rfl

theorem scanSysData_oneCopy8 :
    scanSysData (oneCopy 8) mameFormatDumpSize scanBlocks.zipIdx = some 4 := by
  have hvalid : validSysData (sysDataAt (oneCopy 8) (blockSize 0 * 8)) = true := by decide
  have hrepeat : sectorsRepeat (oneCopy 8) (blockSize 0 * 8) (sysSectorSize 8) = true :=
    oneCopy_repeats 8
  have hother : ∀ b < 4, validSysData (sysDataAt (oneCopy 8) (blockSize 0 * b)) = false := by decide
  have hlist : scanBlocks.zipIdx =
      [(0, 0), (1, 1), (2, 2), (3, 3)] ++ (8, 4) :: scanBlocks.zipIdx.drop 5 := rfl
  have hfour : List.find? (fun p : ℕ × ℕ =>
      validSysData (sysDataAt (oneCopy 8) (blockSize 0 * p.1)) &&
        sectorsRepeat (oneCopy 8) (blockSize 0 * p.1) (sysSectorSize p.1))
      [(0, 0), (1, 1), (2, 2), (3, 3)] = none := by
    simp only [List.find?_cons, hother 0 (by decide), hother 1 (by decide), hother 2 (by decide),
      hother 3 (by decide), Bool.false_and, List.find?_nil]
  rw [scanSysData_eq_find rfl (by decide), hlist, List.find?_append, hfour, Option.none_or,
    List.find?_cons_of_pos (by rw [hvalid, hrepeat]; rfl)]
  rfl

/-- The system data of block 0 is good. -/
theorem scan_firstCopy :
    ScanSound (oneCopy 0) ⟨oneCopy 0, .mame, false, 0, 0x4D08 * 14, 0, 0⟩ ↔
      GoodCopies (oneCopy 0) :=
  scanSound_iff true (oneCopy 0) mameFormatDumpSize _ rfl
    (scan_oneCopy (by decide) scanSysData_oneCopy0)

/-- The system data of block 8 alone is good, and the offset of block 4 is handed back. -/
theorem scan_lostCopy :
    ¬∀ (malloc : Bool) (data : Bytes) (size : ℕ) (scan : DiskScan), isDumpSize size = true →
      scanAndExpandDiskFormat malloc data size = some scan → ScanSound data scan := by
  intro hall
  obtain ⟨block, hblock, hpass, -⟩ :=
    (hall true _ _ _ rfl (scan_oneCopy (by decide) scanSysData_oneCopy8)).sys
  have hfour : block = 4 := (Nat.eq_of_mul_eq_mul_left (by decide) hblock).symm
  rw [hfour] at hpass
  exact absurd hpass.1 (by decide)

end Mupen64plus
