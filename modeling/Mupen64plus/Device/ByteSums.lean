import Mathlib.Algebra.Order.BigOperators.Group.Finset
import Mupen64plus.Device.DiskScan
import Mupen64plus.Device.LbaMapping

/-!
# Byte sums of logical blocks

`LBAToByteA` looks the zone of a block up only where the last zone ends. Its sums are those of the
sizes of the blocks, and the range of blocks may run over the end of the disk, but it has to start
on it: the table of zones has no entry for a block behind the last one.

## Main definitions

- `lbaToByteChecked` — with every read of the tables checked
- `SumExact` — what a sum should be
- `HeaderInside` — the sums the scan forms from the header of a D64 image

## Main results

- `lbaToByteChecked_eq` — the reads
- `byteSums_iff`
-/

namespace Mupen64plus

/-- A read of a table of rows, checked. -/
def tableChecked (table : List (List ℕ)) (row column : ℕ) : Option ℕ := do
  let cells ← table[row]?
  cells[column]?

/-- The block size for a virtual zone, with its reads checked. -/
def vzoneBlockSizeChecked (type : BitVec 8) (vzone : ℕ) : Option ℕ := do
  let pzone ← tableChecked diskTypeZones (diskTypeOf type) vzone
  let size ← zoneSecSizePhys[if 7 < pzone then pzone - 7 else pzone]?
  some (size * sectorsPerBlock)

/-- The test that the zone is to be looked up, with its read checked. -/
def lookupChecked (type : BitVec 8) (initFlag : Bool) (vzone lba : ℕ) : Option Bool :=
  if initFlag then some true
  else (tableChecked vzoneLbaTable (diskTypeOf type) vzone).map (· == lba)

/-- The block size kept or looked up anew, with its reads checked. -/
def nextBlockSizeChecked (type : BitVec 8) (lookup : Bool) (vzone blocksize : ℕ) : Option ℕ :=
  if lookup then vzoneBlockSizeChecked type vzone else some blocksize

/-- The loop of `LBAToByteA` with its reads checked. -/
def lbaToByteLoopChecked (type : BitVec 8) :
    (nlbas : ℕ) → (initFlag : Bool) → (vzone blocksize lba totalbytes : ℕ) → Option ℕ
  | 0, _, _, _, _, totalbytes => some totalbytes
  | nlbas + 1, initFlag, vzone, blocksize, lba, totalbytes => do
    let lookup ← lookupChecked type initFlag vzone lba
    let vzone := if lookup then lbaToVZoneA type lba else vzone
    let blocksize ← nextBlockSizeChecked type lookup vzone blocksize
    if nlbas ≠ 0 ∧ maxLba < lba + 1 then some 0xffffffff
    else lbaToByteLoopChecked type nlbas false vzone blocksize (lba + 1) (totalbytes + blocksize)

/-- `LBAToByteA` with its reads checked. -/
def lbaToByteChecked (type : BitVec 8) (lba nlbas : ℕ) : Option ℕ :=
  lbaToByteLoopChecked type nlbas true 0 0 lba 0

/-- The reads of a sum lie in the tables, and the sum says whether the blocks run over the end. -/
structure SumExact (type : BitVec 8) (lba nlbas : ℕ) : Prop where
  inside : lbaToByteChecked type lba nlbas = some (lbaToByteA type lba nlbas)
  overrun : lbaToByteA type lba nlbas = 0xffffffff ↔ ∃ i < nlbas, maxLba < lba + i

/-- The sums that the scan forms from the header of a D64 image are read inside of the tables. -/
def HeaderInside (s : DdSysData) : Prop :=
  (lbaToByteChecked (diskTypeByte s) systemLbas (s.romLbaEnd + 1)).isSome = true ∧
    (s.ramLbaStart ≠ 0xFFFF → s.ramLbaEnd ≠ 0xFFFF →
      (lbaToByteChecked (diskTypeByte s) (systemLbas + s.ramLbaStart)
        (d64RamBlocks s)).isSome = true)

section

variable {type : BitVec 8} {lba n v : ℕ}

/-- The tables, as far as the sums read them. -/
theorem vzoneBlockSizeChecked_eq (ht : diskTypeOf type < 7) (hv : v < 16) :
    vzoneBlockSizeChecked type v = some (vzoneBlockSize type v) := by
  have hall : ∀ t < 7, ∀ v < 16, (do
      let pzone ← tableChecked diskTypeZones t v
      let size ← zoneSecSizePhys[if 7 < pzone then pzone - 7 else pzone]?
      some (size * sectorsPerBlock)) =
        some (zoneSecSizePhys.getD (if 7 < vzoneToPZone v t then vzoneToPZone v t - 7
          else vzoneToPZone v t) 0 * sectorsPerBlock) := by
    decide
  exact hall _ ht v hv

theorem lookupChecked_eq (ht : diskTypeOf type < 7) (hv : v < 16) (init : Bool) :
    lookupChecked type init v lba =
      some (init || tableAt vzoneLbaTable (diskTypeOf type) v == lba) := by
  have hall : ∀ t < 7, ∀ v < 16, tableChecked vzoneLbaTable t v =
      some (tableAt vzoneLbaTable t v) := by decide
  unfold lookupChecked
  rw [hall _ ht v hv]
  cases init with
  | false => rfl
  | true => rfl

/-- From a block of the disk on, everything is read inside of the tables. -/
theorem lbaToByteLoopChecked_eq (ht : diskTypeOf type < 7) {init : Bool} {blocksize : ℕ}
    (hv : v < 16) (hlba : n = 0 ∨ lba ≤ maxLba) (total : ℕ) :
    lbaToByteLoopChecked type n init v blocksize lba total =
      some (lbaToByteLoop type n init v blocksize lba total) := by
  induction n generalizing init v blocksize lba total with
  | zero => rfl
  | succ n ih =>
    have hmax : lba ≤ maxLba := hlba.resolve_left (Nat.succ_ne_zero n)
    unfold lbaToByteLoopChecked lbaToByteLoop
    rw [lookupChecked_eq ht hv]
    simp only [Option.bind_eq_bind, Option.bind_some]
    generalize (init || tableAt vzoneLbaTable (diskTypeOf type) v == lba) = lookup
    have hzone : (if lookup = true then lbaToVZoneA type lba else v) < 16 := by
      split
      · exact (lbaToVZoneA_spec ht hmax).1
      · exact hv
    generalize (if lookup = true then lbaToVZoneA type lba else v) = vzone at hzone
    have hsize : nextBlockSizeChecked type lookup vzone blocksize =
        some (if lookup = true then vzoneBlockSize type vzone else blocksize) := by
      unfold nextBlockSizeChecked
      rw [vzoneBlockSizeChecked_eq ht hzone]
      split <;> rfl
    rw [hsize, Option.bind_some]
    split
    · rfl
    · next hgo =>
      refine ih hzone ?_ _
      rw [not_and_or, not_not] at hgo
      omega

/-- A sum that starts behind the end of the disk reads outside of the tables. -/
theorem lbaToByteChecked_none (ht : diskTypeOf type < 7) (hn : n ≠ 0) (hlba : maxLba < lba) :
    lbaToByteChecked type lba n = none := by
  have hbehind : lbaToVZoneA type lba = 0xffffffff := by
    have hnone : (List.range 16).find?
        (fun vzone => lba < tableAt vzoneLbaTable (diskTypeOf type) vzone) = none := by
      refine List.find?_eq_none.mpr fun w hw => ?_
      have hle := vzoneTables.le_size _ ht w (List.mem_range.mp hw)
      rw [sizeLba] at hle
      rw [maxLba] at hlba
      simp only [decide_eq_true_eq]
      omega
    rw [lbaToVZoneA, hnone]
    rfl
  have hrows : ∀ t < 7, tableChecked diskTypeZones t 0xffffffff = none := by decide
  have hsize : vzoneBlockSizeChecked type 0xffffffff = none := by
    unfold vzoneBlockSizeChecked
    rw [hrows _ ht]
    rfl
  obtain ⟨n, rfl⟩ := Nat.exists_eq_succ_of_ne_zero hn
  unfold lbaToByteChecked lbaToByteLoopChecked lookupChecked nextBlockSizeChecked
  simp only [if_true, Option.bind_eq_bind, Option.bind_some, hbehind, hsize, Option.bind_none]

-- ════════════════════
-- Sums
-- ════════════════════

/-- A range that runs over the end of the disk is told so. -/
theorem lbaToByteLoop_overrun {init : Bool} {blocksize : ℕ} (hlba : lba ≤ maxLba)
    (hover : sizeLba < lba + n) (total : ℕ) :
    lbaToByteLoop type n init v blocksize lba total = 0xffffffff := by
  rw [sizeLba] at hover
  rw [maxLba] at hlba
  induction n generalizing init v blocksize lba total with
  | zero => omega
  | succ n ih =>
    unfold lbaToByteLoop
    dsimp only
    split
    · rfl
    · next hgo =>
      rw [maxLba] at hgo
      exact ih (by omega) (by omega) _

theorem lbaBlockSize_le (type : BitVec 8) (lba : ℕ) : lbaBlockSize type lba ≤ 19720 := by
  have hsizes : ∀ z, zoneSecSizePhys.getD z 0 ≤ 232 := by
    intro z
    by_cases hz : z < 9
    · exact (by decide : ∀ z < 9, zoneSecSizePhys.getD z 0 ≤ 232) z hz
    · rw [List.getD_eq_getElem?_getD, List.getElem?_eq_none (not_lt.mp hz)]
      exact Nat.zero_le 232
  have hz := hsizes (lbaZone type lba)
  unfold lbaBlockSize
  rw [sectorsPerBlock]
  omega

/-- The sizes of all blocks of a disk fit into a word that is not the mark of an overrun. -/
theorem lbaToByteA_lt (ht : diskTypeOf type < 7) (h : lba + n ≤ sizeLba) :
    lbaToByteA type lba n < 0xffffffff := by
  rw [lbaToByteA_eq_sum ht h]
  have hle := Finset.sum_le_card_nsmul (Finset.range n) (fun i => lbaBlockSize type (lba + i))
    19720 fun i _ => lbaBlockSize_le type (lba + i)
  rw [Finset.card_range, nsmul_eq_mul, Nat.cast_id] at hle
  rw [sizeLba] at h
  omega

theorem sumExact_iff (ht : diskTypeOf type < 7) :
    SumExact type lba n ↔ n = 0 ∨ lba ≤ maxLba := by
  constructor
  · intro h
    by_contra hbehind
    rw [not_or, not_le] at hbehind
    have hinside := h.inside
    rw [lbaToByteChecked_none ht hbehind.1 hbehind.2] at hinside
    exact nomatch hinside
  · intro hlba
    refine ⟨lbaToByteLoopChecked_eq ht (by decide) hlba 0, ?_⟩
    have hsize : sizeLba = maxLba + 1 := rfl
    by_cases hover : sizeLba < lba + n
    · by_cases hn : n = 0
      · subst hn
        exact iff_of_false (by decide : (0 : ℕ) ≠ 0xffffffff) fun ⟨i, hi, _⟩ => nomatch hi
      · exact iff_of_true (lbaToByteLoop_overrun (hlba.resolve_left hn) hover 0)
          ⟨n - 1, by omega, by omega⟩
    · refine iff_of_false (lbaToByteA_lt ht (not_lt.mp hover)).ne ?_
      rintro ⟨i, hi, hend⟩
      omega

/-- The size that a block adds to a sum is that of the zone it lies in. -/
theorem lbaBlockSize_eq (ht : diskTypeOf type < 7) (hv : v < 16)
    (hfirst : vzoneFirst (diskTypeOf type) v ≤ lba)
    (hlast : lba < tableAt vzoneLbaTable (diskTypeOf type) v) :
    lbaBlockSize type lba = blockSize (vzoneToPZone v (diskTypeOf type)) := by
  have hsizes : ∀ z < 16, zoneSecSizePhys.getD (if 7 < z then z - 7 else z) 0 * sectorsPerBlock =
      blockSize z := by decide
  unfold lbaBlockSize lbaZone
  rw [lbaToVZoneA_eq ht hv hfirst hlast]
  exact hsizes _ (vzoneTables.table _ ht v hv).1

end

-- ════════════════════
-- The header of a D64 image
-- ════════════════════

/-- The start of the RAM area that the scan accepts: that of the type, or none. -/
def RamStartAccepted (s : DdSysData) : Prop :=
  s.ramLbaStart = ramStartLba.getD (diskTypeOf s.type) 0 - systemLbas ∨ s.ramLbaStart = 0xFFFF

/-- The RAM area is empty, or the type has one. -/
def HeaderFits (s : DdSysData) : Prop :=
  diskTypeOf s.type ≠ 6 ∨ s.ramLbaStart = 0xFFFF ∨ s.ramLbaEnd = 0xFFFF ∨
    s.ramLbaEnd + 1 = s.ramLbaStart

/-- The headers that the scan accepts. -/
theorem ramStartAccepted_of_scan {malloc : Bool} {data : Bytes} {size : ℕ} {scan : DiskScan}
    (hsize : isDumpSize size = false)
    (h : scanAndExpandDiskFormat malloc data size = some scan) :
    RamStartAccepted (sysDataAt data 0) := by
  by_contra hno
  have hinvalid : validD64 (sysDataAt data 0) size = false := by
    refine Bool.eq_false_iff.mpr fun hvalid => hno ?_
    simp only [validD64, Bool.and_eq_true, Bool.or_eq_true, beq_iff_eq] at hvalid
    exact hvalid.1
  unfold scanAndExpandDiskFormat at h
  cases hsys : scanSysData data size scanBlocks.zipIdx with
  | none => simp [hsys] at h
  | some sys => simp [hsys, hsize, hinvalid] at h

/-- A field of two bytes. -/
theorem big16_lt (s : DdSysData) (i : ℕ) : s.big16 i < 2 ^ 16 := by
  have hhigh := (s.bytes i).isLt
  have hlow := (s.bytes (i + 1)).isLt
  unfold DdSysData.big16
  omega

theorem headerInside_iff {s : DdSysData} (ht : diskTypeOf s.type < 7)
    (hstart : RamStartAccepted s) :
    HeaderInside s ↔ HeaderFits s := by
  have hlow : diskTypeOf (diskTypeByte s) = diskTypeOf s.type := by
    unfold diskTypeOf diskTypeByte
    rw [BitVec.and_assoc, BitVec.and_self]
  have ht' : diskTypeOf (diskTypeByte s) < 7 := by
    rw [hlow]
    exact ht
  have hsome : ∀ lba n, (lbaToByteChecked (diskTypeByte s) lba n).isSome = true ↔
      n = 0 ∨ lba ≤ maxLba := by
    intro lba n
    refine ⟨fun h => ?_, fun h => ?_⟩
    · by_contra hbehind
      rw [not_or, not_le] at hbehind
      rw [lbaToByteChecked_none ht' hbehind.1 hbehind.2] at h
      exact Bool.false_ne_true h
    · rw [((sumExact_iff ht').mpr h).inside]
      rfl
  have hrom : systemLbas ≤ maxLba := by decide
  have hend : s.ramLbaEnd < 2 ^ 16 := big16_lt s 228
  have hfirst : s.ramLbaStart < 2 ^ 16 := big16_lt s 226
  have hcount : d64RamBlocks s = 0 ↔ s.ramLbaEnd + 1 = s.ramLbaStart := by
    unfold d64RamBlocks
    omega
  have harea : ∀ t < 6, systemLbas + (ramStartLba.getD t 0 - systemLbas) ≤ maxLba := by decide
  have hlastArea : ¬systemLbas + (ramStartLba.getD 6 0 - systemLbas) ≤ maxLba := by decide
  unfold HeaderInside HeaderFits
  rw [hsome, hsome, hcount, and_iff_right (.inr hrom)]
  constructor
  · intro h
    by_contra hno
    simp only [not_or, not_not] at hno
    obtain ⟨htype, hstart', hend', hcount'⟩ := hno
    have heq := hstart.resolve_right hstart'
    rw [htype] at heq
    rw [heq] at h
    rw [heq] at hstart' hcount'
    exact hlastArea ((h hstart' hend').resolve_left hcount')
  · rintro (htype | hnone | hnone | hempty) hstart' hend'
    · rw [hstart.resolve_right hstart']
      exact .inr (harea _ (by omega))
    · exact absurd hnone hstart'
    · exact absurd hnone hend'
    · exact .inl hempty

/-- **Byte sums**: sums of ranges of blocks add up and count each block with the size of its zone. A
sum is read inside of the tables and tells an overrun if and only if it is empty or starts on the
disk. The header of a D64 image has such sums only if a disk of type 6 has an empty RAM area. -/
theorem byteSums_iff (type : BitVec 8) (ht : diskTypeOf type < 7) :
    (∀ l n m, l + n + m ≤ sizeLba →
      lbaToByteA type l (n + m) = lbaToByteA type l n + lbaToByteA type (l + n) m) ∧
    (∀ l n v, l + n < sizeLba → v < 16 → vzoneFirst (diskTypeOf type) v ≤ l + n →
      l + n < tableAt vzoneLbaTable (diskTypeOf type) v →
        lbaToByteA type l (n + 1) = lbaToByteA type l n +
          blockSize (vzoneToPZone v (diskTypeOf type))) ∧
    (∀ l n, SumExact type l n ↔ n = 0 ∨ l ≤ maxLba) ∧
    ∀ s : DdSysData, diskTypeOf s.type < 7 → RamStartAccepted s →
      (HeaderInside s ↔ HeaderFits s) := by
  refine ⟨fun l n m h => ?_, fun l n v h hv hfirst hlast => ?_, fun l n => sumExact_iff ht,
    fun s hs hstart => headerInside_iff hs hstart⟩
  · rw [lbaToByteA_eq_sum ht (by omega), lbaToByteA_eq_sum ht (by omega),
      lbaToByteA_eq_sum ht (by omega), Finset.sum_range_add]
    refine congrArg _ (Finset.sum_congr rfl fun i _ => ?_)
    rw [Nat.add_assoc]
  · rw [lbaToByteA_succ ht (by rw [sizeLba] at h; rw [maxLba]; omega),
      lbaBlockSize_eq ht hv hfirst hlast]

/-- The sums of type 0, and the header of zeros. -/
theorem byteSums_type0 :
    (lbaToByteA 0 0x100 (0x30 + 5) = lbaToByteA 0 0x100 0x30 + lbaToByteA 0 (0x100 + 0x30) 5) ∧
      (lbaToByteA 0 0 (24 + 1) = lbaToByteA 0 0 24 + blockSize (vzoneToPZone 0 0)) ∧
      (SumExact 0 24 5 ↔ 5 = 0 ∨ 24 ≤ maxLba) ∧
      (HeaderInside ⟨fun i => if i = 226 ∨ i = 227 then 0xFF else 0⟩ ↔
        HeaderFits ⟨fun i => if i = 226 ∨ i = 227 then 0xFF else 0⟩) :=
  have hsums := byteSums_iff 0 (by decide)
  ⟨hsums.1 0x100 0x30 5 (by decide),
    hsums.2.1 0 24 0 (by decide) (by decide) (by decide) (by decide),
    hsums.2.2.1 24 5, hsums.2.2.2 _ (by decide) (.inr (by decide))⟩

/-- The one block behind the end of the disk. -/
theorem behindEnd_not_inside :
    ¬∀ (type : BitVec 8) (l n : ℕ), diskTypeOf type < 7 → SumExact type l n := by
  intro hall
  have hinside := (hall 0 0x10DC 1 (by decide)).inside
  rw [lbaToByteChecked_none (by decide) (by decide) (by decide)] at hinside
  exact nomatch hinside

end Mupen64plus
