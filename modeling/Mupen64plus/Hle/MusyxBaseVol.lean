import Mathlib.Algebra.BigOperators.Group.Finset.Basic
import Mathlib.Algebra.Order.Group.Abs
import Mathlib.Algebra.Order.Group.Int
import Mupen64plus.Hle.HalfWords
import Mupen64plus.Lib.CheckedWords

/-!
# The base volumes of MusyX

Before a subframe the last samples of the voices are added to four volumes, which then decay by 3%.
The product of the decay is taken in 32 bits.

## Main definitions

- `loadBaseVol`, `saveBaseVol`, `updateBaseVol` — the code
- `contribution`, `decayed` — the integers it is to compute
- `BaseVolExact` — a run from zero computes them, keeps them in 16 bits, and they are restored
- `Quiet` — no sum of the run exceeds 33782

## Main results

- `updateBaseVol_eq_some_iff` — what one subframe does
- `baseVolExact_iff`
-/

namespace Mupen64plus

/-- `base_vol`. -/
abbrev BaseVol := Fin 4 → BitVec 32

-- ════════════════════
-- The code
-- ════════════════════

/-- The address of half-word `k` of a group. -/
def halfWord (address : BitVec 32) (k : ℕ) : BitVec 32 := address + BitVec.ofNat 32 (2 * k)

/-- `load_base_vol`. -/
def loadBaseVol (hle : HleMemory) (address : BitVec 32) : BaseVol := fun k =>
  hle.dramU16 (halfWord address k) ++ hle.dramU16 (halfWord address (k + 4))

/-- `count` turns of a loop of `save_base_vol`. -/
def storeHalfWords (hle : HleMemory) (address : BitVec 32) (src : ℕ → BitVec 16) : ℕ → HleMemory
  | 0 => hle
  | n + 1 => (storeHalfWords hle address src n).setDramU16 (halfWord address n) (src n)

/-- The half-words of both loops of `save_base_vol`, whose address runs on. -/
def savedHalf (baseVol : BaseVol) (n : ℕ) : BitVec 16 :=
  if n < 4 then ((baseVol (Fin.ofNat 4 n)).sshiftRight 16).setWidth 16
  else (baseVol (Fin.ofNat 4 n)).setWidth 16

/-- `save_base_vol`. -/
def saveBaseVol (hle : HleMemory) (baseVol : BaseVol) (address : BitVec 32) : HleMemory :=
  storeHalfWords hle address (savedHalf baseVol) 8

/-- `*dram_u16(hle, ptr + k * 2)` of the group `i`. -/
def lastSample (hle : HleMemory) (ptr : BitVec 32) (i : ℕ) (k : Fin 4) : BitVec 16 :=
  hle.dramU16 (halfWord (ptr + BitVec.ofNat 32 (8 * i)) k)

/-- `n` turns of a loop of `update_base_vol`. -/
def addContributions (hle : HleMemory) (mask : ℕ → Bool) (ptr : BitVec 32) (baseVol : BaseVol) :
    ℕ → Option BaseVol
  | 0 => some baseVol
  | n + 1 => do
    let b ← addContributions hle mask ptr baseVol n
    if mask n then allFour fun k => addChecked (b k) ((lastSample hle ptr n k).signExtend 32)
    else return b

/-- What a subframe passes to `update_base_vol`. -/
structure Subframe where
  hle : HleMemory
  voiceMask : BitVec 32
  lastSamplePtr : BitVec 32
  mask15 : BitVec 8
  ptr24 : BitVec 32

/-- A loop of `update_base_vol`, which is skipped if its mask is empty. -/
def addMasked {w : ℕ} (hle : HleMemory) (mask : BitVec w) (ptr : BitVec 32) (n : ℕ)
    (baseVol : BaseVol) : Option BaseVol :=
  if mask ≠ 0 then addContributions hle mask.getLsbD ptr baseVol n else some baseVol

/-- `update_base_vol`, which has no value where a signed result does not fit. -/
def updateBaseVol (f : Subframe) (baseVol : BaseVol) : Option BaseVol := do
  let b ← addMasked f.hle f.voiceMask f.lastSamplePtr 32 baseVol
  let b ← addMasked f.hle f.mask15 f.ptr24 4 b
  allFour fun k => (mulChecked (b k) 0xf850#32).map (BitVec.sshiftRight · 16)

/-- The updates of a sequence of subframes. -/
def updateAll (baseVol : BaseVol) : List Subframe → Option BaseVol
  | [] => some baseVol
  | f :: rest => (updateBaseVol f baseVol).bind (updateAll · rest)

-- ════════════════════
-- What it is to compute
-- ════════════════════

/-- The sum of the masked samples of `n` groups. -/
def maskedSum (hle : HleMemory) (mask : ℕ → Bool) (ptr : BitVec 32) (n : ℕ) (k : Fin 4) : ℤ :=
  ∑ i ∈ Finset.range n, if mask i then (lastSample hle ptr i k).toInt else 0

/-- The sum of the masked samples of a subframe. -/
def contribution (f : Subframe) (k : Fin 4) : ℤ :=
  maskedSum f.hle f.voiceMask.getLsbD f.lastSamplePtr 32 k
    + maskedSum f.hle f.mask15.getLsbD f.ptr24 4 k

/-- `floor(z * 0xF850 / 2^16)`. -/
def decayed (z : ℤ) : ℤ := z * 0xf850 / 2 ^ 16

/-- The volumes after a sequence of subframes, over the integers. -/
def exactVol (vol : Fin 4 → ℤ) : List Subframe → Fin 4 → ℤ
  | [] => vol
  | f :: rest => exactVol (fun k => decayed (vol k + contribution f k)) rest

/-- A run from zero volumes: every prefix of it has exact volumes that fit in 16 bits, and what is
saved anywhere is restored. -/
def BaseVolExact (frames : List Subframe) : Prop :=
  ∀ n, ∃ b, updateAll (fun _ => 0) (frames.take n) = some b ∧
    (∀ k, (b k).toInt = exactVol (fun _ => 0) (frames.take n) k
      ∧ -32768 ≤ (b k).toInt ∧ (b k).toInt ≤ 32767) ∧
    ∀ hle address, loadBaseVol (saveBaseVol hle b address) address = b

/-- No volume with the samples of its subframe exceeds 33782 in magnitude. -/
def Quiet (vol : Fin 4 → ℤ) : List Subframe → Prop
  | [] => True
  | f :: rest => (∀ k, |vol k + contribution f k| ≤ 33782) ∧
    Quiet (fun k => decayed (vol k + contribution f k)) rest

-- ════════════════════
-- Saving and loading
-- ════════════════════

section

variable (hle : HleMemory) (address : BitVec 32)

theorem dramAddress_halfWord (n : ℕ) :
    dramAddress (halfWord address n) = (address.toNat + 2 * n) % 2 ^ 24 := by
  unfold dramAddress halfWord
  rw [BitVec.toNat_and, show (0xffffff#32).toNat = 2 ^ 24 - 1 from rfl,
    Nat.and_two_pow_sub_one_eq_mod, BitVec.toNat_add, BitVec.toNat_ofNat]
  omega

theorem dramU16_setDramU16_self (v : BitVec 16) (a : BitVec 32) :
    (hle.setDramU16 a v).dramU16 a = v := Bytes.u16_setU16_self _ _ _

theorem dramU16_setDramU16_halfWord {i n : ℕ} (hi : i < 8) (hn : n < 8) (h : i ≠ n)
    (v : BitVec 16) :
    (hle.setDramU16 (halfWord address n) v).dramU16 (halfWord address i) =
      hle.dramU16 (halfWord address i) := by
  refine Bytes.u16_setU16_other ?_ ?_ <;>
  · rw [dramAddress_halfWord, dramAddress_halfWord]
    omega

theorem dramU16_storeHalfWords (src : ℕ → BitVec 16) {n i : ℕ} (hn : n ≤ 8) (hi : i < n) :
    (storeHalfWords hle address src n).dramU16 (halfWord address i) = src i := by
  induction n with
  | zero => exact absurd hi (Nat.not_lt_zero i)
  | succ n ih =>
    rw [storeHalfWords]
    rcases Nat.lt_succ_iff_lt_or_eq.mp hi with hlt | rfl
    · rw [dramU16_setDramU16_halfWord _ _ (by omega) (by omega) (by omega), ih (by omega) hlt]
    · exact dramU16_setDramU16_self _ _ _

theorem halves_append (x : BitVec 32) : (x.sshiftRight 16).setWidth 16 ++ x.setWidth 16 = x := by
  ext i hi
  rw [BitVec.getElem_append]
  split
  next h => rw [BitVec.getElem_setWidth, BitVec.getLsbD_eq_getElem]
  next h =>
    rw [BitVec.getElem_setWidth, BitVec.getLsbD_sshiftRight]
    simp only [show ¬32 ≤ i - 16 by omega, decide_false, Bool.not_false, Bool.true_and,
      show 16 + (i - 16) = i by omega, hi, if_true, BitVec.getLsbD_eq_getElem hi]

/-- What is saved anywhere is restored. -/
theorem load_saveBaseVol (b : BaseVol) : loadBaseVol (saveBaseVol hle b address) address = b := by
  ext1 k
  have hk := k.isLt
  unfold loadBaseVol saveBaseVol
  rw [dramU16_storeHalfWords _ _ _ le_rfl (by omega),
    dramU16_storeHalfWords _ _ _ le_rfl (by omega)]
  have hhigh : Fin.ofNat 4 (k : ℕ) = k := Fin.ext (Nat.mod_eq_of_lt hk)
  have hlow : Fin.ofNat 4 (k + 4 : ℕ) = k := Fin.ext (show (k + 4) % 4 = (k : ℕ) by omega)
  rw [savedHalf, if_pos hk, savedHalf, if_neg (by omega), hhigh, hlow]
  exact halves_append _

end

-- ════════════════════
-- One subframe
-- ════════════════════

section

variable {hle : HleMemory} {mask : ℕ → Bool} {ptr : BitVec 32} {b c : BaseVol} {n : ℕ}

theorem maskedSum_succ (k : Fin 4) : maskedSum hle mask ptr (n + 1) k =
    maskedSum hle mask ptr n k + if mask n then (lastSample hle ptr n k).toInt else 0 :=
  Finset.sum_range_succ _ _

theorem abs_maskedSum_le (hle : HleMemory) (mask : ℕ → Bool) (ptr : BitVec 32) (n : ℕ) (k : Fin 4) :
    |maskedSum hle mask ptr n k| ≤ 32768 * n := by
  induction n with
  | zero => exact (abs_zero (α := ℤ)).le
  | succ n ih =>
    have hlow := BitVec.le_toInt (lastSample hle ptr n k)
    have hhigh := BitVec.toInt_lt (x := lastSample hle ptr n k)
    rw [abs_le] at ih ⊢
    rw [maskedSum_succ]
    push_cast
    split <;> omega

theorem toInt_signExtend_sample (x : BitVec 16) : (x.signExtend 32).toInt = x.toInt :=
  BitVec.toInt_signExtend_of_le (by decide)

theorem toInt_of_addContributions (h : addContributions hle mask ptr b n = some c) (k : Fin 4) :
    (c k).toInt = (b k).toInt + maskedSum hle mask ptr n k := by
  induction n generalizing c with
  | zero =>
    obtain rfl := Option.some_inj.mp h
    exact (Int.add_zero _).symm
  | succ n ih =>
    rw [addContributions, Option.bind_eq_bind, Option.bind_eq_some_iff] at h
    obtain ⟨d, hd, h⟩ := h
    rw [maskedSum_succ, ← Int.add_assoc, ← ih hd]
    split at h
    next hmask =>
      have hadd := addChecked_eq_some_iff.mp (allFour_eq_some_iff.mp h k)
      rw [hadd, if_pos hmask, toInt_signExtend_sample]
    next hmask =>
      obtain rfl := Option.some_inj.mp h
      rw [if_neg hmask, Int.add_zero]

/-- Groups of samples do not overflow a volume that is not huge. -/
theorem exists_addContributions (hle : HleMemory) (mask : ℕ → Bool) (ptr : BitVec 32)
    (hb : ∀ k, |(b k).toInt| ≤ 2 ^ 30) (hn : n ≤ 32) :
    ∃ c, addContributions hle mask ptr b n = some c := by
  induction n with
  | zero => exact ⟨b, rfl⟩
  | succ n ih =>
    obtain ⟨d, hd⟩ := ih (by omega)
    rw [addContributions, hd]
    change ∃ c, (if mask n then _ else some d) = some c
    split
    · have hfits : ∀ k, ∃ z,
          addChecked (d k) ((lastSample hle ptr n k).signExtend 32) = some z := by
        intro k
        have hsum := abs_le.mp (abs_maskedSum_le hle mask ptr n k)
        have hbk := abs_le.mp (hb k)
        have hlow := BitVec.le_toInt (lastSample hle ptr n k)
        have hhigh := BitVec.toInt_lt (x := lastSample hle ptr n k)
        have hdk := toInt_of_addContributions hd k
        obtain ⟨z, hz⟩ := exists_toInt_eq (w := 32)
          (n := (d k).toInt + (lastSample hle ptr n k).toInt) (by decide) (by omega) (by omega)
        exact ⟨z, addChecked_eq_some_iff.mpr (by rw [hz, toInt_signExtend_sample])⟩
      choose c hc using hfits
      exact ⟨c, allFour_eq_some_iff.mpr hc⟩
    · exact ⟨d, rfl⟩

/-- Skipping an empty mask changes nothing. -/
theorem addMasked_eq {w : ℕ} (m : BitVec w) :
    addMasked hle m ptr n b = addContributions hle m.getLsbD ptr b n := by
  unfold addMasked
  split
  · rfl
  next h =>
    obtain rfl : m = 0 := not_not.mp h
    symm
    induction n with
    | zero => rfl
    | succ n ih =>
      rw [addContributions, ih]
      exact if_neg (by simp)

end

/-- The decay has a value for the magnitudes up to 33782. -/
theorem decay_eq_some_iff {x z : BitVec 32} :
    (mulChecked x 0xf850#32).map (BitVec.sshiftRight · 16) = some z ↔
      |x.toInt| ≤ 33782 ∧ z.toInt = decayed x.toInt := by
  have hfactor : (0xf850#32).toInt = 0xf850 := by decide
  have hshift : ∀ p : BitVec 32, (p.sshiftRight 16).toInt = p.toInt / 2 ^ 16 := fun p => by
    rw [BitVec.toInt_sshiftRight, Int.shiftRight_eq_div_pow]
    rfl
  rw [Option.map_eq_some_iff, abs_le, decayed]
  constructor
  · rintro ⟨p, hp, rfl⟩
    rw [mulChecked_eq_some_iff, hfactor] at hp
    have hlow := BitVec.le_toInt p
    have hhigh := BitVec.toInt_lt (x := p)
    rw [hshift, hp]
    exact ⟨by omega, rfl⟩
  · rintro ⟨hx, hz⟩
    obtain ⟨p, hp⟩ := exists_toInt_eq (w := 32) (n := x.toInt * 0xf850) (by decide) (by omega)
      (by omega)
    refine ⟨p, mulChecked_eq_some_iff.mpr (by rw [hp, hfactor]), ?_⟩
    rw [← BitVec.toInt_inj, hshift, hp, hz]

section

variable {f : Subframe} {b v : BaseVol}

theorem abs_contribution_le (f : Subframe) (k : Fin 4) : |contribution f k| ≤ 32768 * 36 := by
  have hvoices := abs_le.mp (abs_maskedSum_le f.hle f.voiceMask.getLsbD f.lastSamplePtr 32 k)
  have hgroups := abs_le.mp (abs_maskedSum_le f.hle f.mask15.getLsbD f.ptr24 4 k)
  rw [abs_le]
  unfold contribution
  omega

/-- A subframe has a value iff the four sums stay within 33782, and then it decays them. -/
theorem updateBaseVol_eq_some_iff : updateBaseVol f b = some v ↔
    ∀ k, |(b k).toInt + contribution f k| ≤ 33782 ∧
      (v k).toInt = decayed ((b k).toInt + contribution f k) := by
  simp only [updateBaseVol, addMasked_eq, Option.bind_eq_bind]
  constructor
  · intro h
    obtain ⟨c, hc, h⟩ := Option.bind_eq_some_iff.mp h
    obtain ⟨d, hd, h⟩ := Option.bind_eq_some_iff.mp h
    intro k
    have hsum : (d k).toInt = (b k).toInt + contribution f k := by
      rw [toInt_of_addContributions hd, toInt_of_addContributions hc, contribution, Int.add_assoc]
    rw [← hsum]
    exact decay_eq_some_iff.mp (allFour_eq_some_iff.mp h k)
  · intro h
    have hb : ∀ k, |(b k).toInt| ≤ 2 ^ 29 := by
      intro k
      have hsum := abs_le.mp (h k).1
      have hcontribution := abs_le.mp (abs_contribution_le f k)
      rw [abs_le]
      omega
    obtain ⟨c, hc⟩ := exists_addContributions f.hle f.voiceMask.getLsbD
      f.lastSamplePtr (fun k => (hb k).trans (by decide)) (le_refl 32)
    have hcb : ∀ k, |(c k).toInt| ≤ 2 ^ 30 := by
      intro k
      have hbk := abs_le.mp (hb k)
      have hvoices := abs_le.mp (abs_maskedSum_le f.hle f.voiceMask.getLsbD f.lastSamplePtr 32 k)
      rw [abs_le, toInt_of_addContributions hc]
      omega
    obtain ⟨d, hd⟩ := exists_addContributions f.hle f.mask15.getLsbD f.ptr24 (n := 4) hcb
      (by decide)
    rw [hc, Option.bind_some, hd, Option.bind_some, allFour_eq_some_iff]
    intro k
    have hsum : (d k).toInt = (b k).toInt + contribution f k := by
      rw [toInt_of_addContributions hd, toInt_of_addContributions hc, contribution, Int.add_assoc]
    rw [decay_eq_some_iff, hsum]
    exact h k

/-- What decays fits in 16 bits. -/
theorem decayed_bounds {z : ℤ} (h : |z| ≤ 33782) : -32768 ≤ decayed z ∧ decayed z ≤ 32767 := by
  rw [abs_le] at h
  unfold decayed
  omega

/-- A quiet subframe has a value. -/
theorem exists_updateBaseVol (h : ∀ k, |(b k).toInt + contribution f k| ≤ 33782) :
    ∃ v, updateBaseVol f b = some v := by
  have hword : ∀ k, ∃ z : BitVec 32, z.toInt = decayed ((b k).toInt + contribution f k) := by
    intro k
    have hbounds := decayed_bounds (h k)
    exact exists_toInt_eq (by decide) (by omega) (by omega)
  choose v hv using hword
  exact ⟨v, updateBaseVol_eq_some_iff.mpr fun k => ⟨h k, hv k⟩⟩

end

-- ════════════════════
-- Runs
-- ════════════════════

section

variable {frames : List Subframe} {b v : BaseVol} {vol : Fin 4 → ℤ}

/-- A run has a value iff it is quiet, and then it is the exact one. -/
theorem updateAll_eq_some_iff (hvol : ∀ k, (b k).toInt = vol k) :
    updateAll b frames = some v ↔ Quiet vol frames ∧ ∀ k, (v k).toInt = exactVol vol frames k := by
  induction frames generalizing b vol with
  | nil =>
    have heq : b = v ↔ ∀ k, (v k).toInt = vol k := by
      rw [funext_iff]
      exact forall_congr' fun k => by rw [← hvol k, BitVec.toInt_inj, eq_comm]
    simpa [updateAll, Quiet, exactVol] using heq
  | cons f rest ih =>
    rw [updateAll, Option.bind_eq_some_iff, Quiet, exactVol]
    constructor
    · rintro ⟨c, hc, hrest⟩
      have hstep := updateBaseVol_eq_some_iff.mp hc
      obtain ⟨hquiet, hv⟩ := (ih fun k => by rw [(hstep k).2, hvol k]).mp hrest
      exact ⟨⟨fun k => hvol k ▸ (hstep k).1, hquiet⟩, hv⟩
    · rintro ⟨⟨hsum, hquiet⟩, hv⟩
      obtain ⟨c, hc⟩ := exists_updateBaseVol (b := b) fun k => (hvol k).symm ▸ hsum k
      have hstep := updateBaseVol_eq_some_iff.mp hc
      exact ⟨c, hc, (ih fun k => by rw [(hstep k).2, hvol k]).mpr ⟨hquiet, hv⟩⟩

theorem Quiet.take (h : Quiet vol frames) (n : ℕ) : Quiet vol (frames.take n) := by
  induction frames generalizing vol n with
  | nil => rwa [List.take_nil]
  | cons f rest ih =>
    cases n with
    | zero => trivial
    | succ n => exact ⟨h.1, ih h.2 n⟩

theorem exactVol_bounds (h : Quiet vol frames) (hvol : ∀ k, -32768 ≤ vol k ∧ vol k ≤ 32767)
    (k : Fin 4) : -32768 ≤ exactVol vol frames k ∧ exactVol vol frames k ≤ 32767 := by
  induction frames generalizing vol with
  | nil => exact hvol k
  | cons f rest ih => exact ih h.2 fun i => decayed_bounds (h.1 i)

/-- Values that fit in 16 bits are the values of words. -/
theorem exists_exactVol (h : Quiet vol frames) (hvol : ∀ k, -32768 ≤ vol k ∧ vol k ≤ 32767) :
    ∃ v : BaseVol, ∀ k, (v k).toInt = exactVol vol frames k := by
  have hword : ∀ k, ∃ z : BitVec 32, z.toInt = exactVol vol frames k := by
    intro k
    have hbounds := exactVol_bounds h hvol k
    exact exists_toInt_eq (by decide) (by omega) (by omega)
  choose v hv using hword
  exact ⟨v, hv⟩

/-- The base volumes are exact in the quiet runs. -/
theorem baseVolExact_iff (frames : List Subframe) :
    BaseVolExact frames ↔ Quiet (fun _ => 0) frames := by
  have hzero : ∀ k : Fin 4, ((fun _ => 0 : BaseVol) k).toInt = (fun _ => 0 : Fin 4 → ℤ) k :=
    fun _ => rfl
  constructor
  · intro h
    obtain ⟨v, hv, -⟩ := h frames.length
    rw [List.take_length] at hv
    exact ((updateAll_eq_some_iff hzero).mp hv).1
  · intro h n
    have hquiet := h.take n
    obtain ⟨v, hv⟩ := exists_exactVol hquiet fun _ => ⟨by decide, by decide⟩
    refine ⟨v, (updateAll_eq_some_iff hzero).mpr ⟨hquiet, hv⟩, fun k => ⟨hv k, ?_⟩,
      fun hle address => load_saveBaseVol hle address v⟩
    rw [hv k]
    exact exactVol_bounds hquiet (fun _ => ⟨by decide, by decide⟩) k

end

/-- An RDRAM whose every half-word is 0x7f7f, with the first two voices active. -/
def twoLoudVoices : Subframe where
  hle := { dram := fun _ => 0x7f, dmem := fun _ => 0, imem := fun _ => 0 }
  voiceMask := 3
  lastSamplePtr := 0
  mask15 := 0
  ptr24 := 0

/-- The sum 2 · 32639 of two voices is over 33782. -/
theorem two_loud_voices_not_exact : ¬BaseVolExact [twoLoudVoices] := by
  intro h
  obtain ⟨b, hb, -⟩ := h 1
  exact nomatch (show (none : Option BaseVol) = some b from hb)

end Mupen64plus
