import Mupen64plus.R4300.TlbWrite
import Mathlib.Data.List.Basic
import Mathlib.Data.List.Nodup

/-!
# The page loops of `tlb_unmap` and `tlb_map`

The loops run an unsigned 32-bit counter from the first address of a half up to its last one by
steps of `0x1000`. Here they are followed page by page: whether they end, and how often they
visit each page of the half.

## Main definitions

- `visitPages` — the pages that one loop visits, in order
- `TlbPass.visits` — all visits of `tlb_unmap` or `tlb_map`
- `TlbPass.VisitsOnce` — the pass ends and visits each page of each half exactly once

## Main results

- `TlbPass.run_eq_visits` — what a pass leaves in the tables are its visits
- `visitPages_top` — a loop up to the last address never ends
- `visitsOnce_iff` — a pass visits each page once exactly if the halves it takes up end below
  the last address
-/

namespace Mupen64plus

/-- The pages that a page loop visits; `none` is a loop that has not ended. -/
def visitPages (stop : BitVec 32) : ℕ → BitVec 32 → Option (List Page)
  | 0, _ => none
  | fuel + 1, i =>
    if i < stop then (visitPages stop fuel (i + 0x1000)).map (pageOf i :: ·) else some []

/-- The two lookup tables. -/
inductive LutName where
  | r
  | w
  deriving DecidableEq, Repr

/-- One store to a lookup table: the half it is made for, and the page. -/
structure Visit where
  table : LutName
  side : Side
  page : Page
  deriving DecidableEq, Repr

inductive TlbPass where
  | unmap
  | map
  deriving DecidableEq, Repr

/-- The pass runs its loops for the half. -/
def TlbPass.Enters : TlbPass → TlbHalf → Prop
  | .unmap, h => h.v ≠ 0
  | .map, h => h.v ≠ 0 ∧ h.Mappable

instance TlbPass.decEnters : (pass : TlbPass) → (h : TlbHalf) → Decidable (pass.Enters h)
  | .unmap, h => inferInstanceAs (Decidable (h.v ≠ 0))
  | .map, h => inferInstanceAs (Decidable (h.v ≠ 0 ∧ h.Mappable))

/-- The loops of a pass for one half: over `LUT_r`, and over `LUT_w` if the half is dirty. -/
def TlbPass.halfVisits (pass : TlbPass) (fuel : ℕ) (s : Side) (h : TlbHalf) :
    Option (List Visit) :=
  if pass.Enters h then do
    let r ← visitPages h.stop fuel h.start
    let w ← (if h.d ≠ 0 then visitPages h.stop fuel h.start else some [])
    some (r.map (Visit.mk .r s) ++ w.map (Visit.mk .w s))
  else some []

/-- The visits of `tlb_unmap` or of `tlb_map` for one entry. -/
def TlbPass.visits (pass : TlbPass) (fuel : ℕ) (e : TlbEntry) : Option (List Visit) := do
  let even ← pass.halfVisits fuel .even e.even
  let odd ← pass.halfVisits fuel .odd e.odd
  some (even ++ odd)

/-- The pages of a half: its `mask + 1` pages from the first address on. -/
def TlbEntry.pages (e : TlbEntry) (s : Side) : List Page :=
  (List.range (e.mask.toNat + 1)).map fun k =>
    pageOf ((e.half s).start + BitVec.ofNat 32 (k * 4096))

/-- The half is valid, and `tlb_map` does not leave it out for its segment or its physical
    address. -/
def TlbPass.TakesUp : TlbPass → TlbHalf → Prop
  | .unmap, h => h.v ≠ 0
  | .map, h =>
    h.v ≠ 0 ∧ ¬(0x80000000 ≤ h.start ∧ h.stop < 0xC0000000) ∧ h.phys < 0x20000000

instance TlbPass.decTakesUp : (pass : TlbPass) → (h : TlbHalf) → Decidable (pass.TakesUp h)
  | .unmap, h => inferInstanceAs (Decidable (h.v ≠ 0))
  | .map, _ => inferInstanceAs (Decidable (_ ∧ _ ∧ _))

/-- The visits that a pass should make. -/
def TlbPass.Covers (pass : TlbPass) (e : TlbEntry) (v : Visit) : Prop :=
  pass.TakesUp (e.half v.side) ∧ (v.table = .w → (e.half v.side).d ≠ 0) ∧
    v.page ∈ e.pages v.side

instance TlbPass.decCovers (pass : TlbPass) (e : TlbEntry) (v : Visit) :
    Decidable (pass.Covers e v) :=
  inferInstanceAs (Decidable (_ ∧ _ ∧ _))

/-- The pass ends, and visits each page of each half that it takes up exactly once. -/
def TlbPass.VisitsOnce (pass : TlbPass) (e : TlbEntry) : Prop :=
  ∃ fuel vs, pass.visits fuel e = some vs ∧
    ∀ v, vs.count v = if pass.Covers e v then 1 else 0

/-- The half ends below the last address of the address space. -/
def TlbEntry.EndsBelowTop (e : TlbEntry) (s : Side) : Prop :=
  (e.half s).start.toNat + (e.mask.toNat + 1) * 4096 < 2 ^ 32

instance TlbEntry.decEndsBelowTop (e : TlbEntry) (s : Side) : Decidable (e.EndsBelowTop s) :=
  inferInstanceAs (Decidable (_ < _))

-- ════════════════════
-- One loop
-- ════════════════════

/-- A loop up to the last address never ends: the counter wraps before it reaches it. -/
theorem visitPages_top (fuel : ℕ) (i : BitVec 32) (hi : i.toNat % 4096 = 0) :
    visitPages 0xFFFFFFFF fuel i = none := by
  induction fuel generalizing i with
  | zero => rfl
  | succ fuel ih =>
    have hlt : i < 0xFFFFFFFF := by
      rw [BitVec.lt_def]
      show i.toNat < 4294967295
      have hbound := i.isLt
      omega
    have hnext : (i + 0x1000).toNat % 4096 = 0 := by
      rw [BitVec.toNat_add]
      show (i.toNat + 4096) % 4294967296 % 4096 = 0
      omega
    rw [visitPages, if_pos hlt, ih _ hnext]
    rfl

/-- A loop over a range of `n` pages that stays below the last address. -/
theorem visitPages_range {stop : BitVec 32} (n : ℕ) (i : BitVec 32)
    (hstop : stop.toNat + 1 = i.toNat + n * 4096) (htop : i.toNat + n * 4096 < 2 ^ 32) :
    visitPages stop (n + 1) i =
      some ((List.range n).map fun k => pageOf (i + BitVec.ofNat 32 (k * 4096))) := by
  induction n generalizing i with
  | zero =>
    have hge : ¬i < stop := by
      rw [BitVec.lt_def]
      omega
    rw [visitPages, if_neg hge]
    rfl
  | succ n ih =>
    have hlt : i < stop := by
      rw [BitVec.lt_def]
      omega
    have hnext : (i + 0x1000).toNat = i.toNat + 4096 := by
      rw [BitVec.toNat_add]
      show (i.toNat + 4096) % 4294967296 = _
      omega
    have hshift (k : ℕ) : i + BitVec.ofNat 32 ((k + 1) * 4096) =
        i + 0x1000 + BitVec.ofNat 32 (k * 4096) := by
      apply BitVec.eq_of_toNat_eq
      rw [BitVec.toNat_add, BitVec.toNat_add, hnext, BitVec.toNat_ofNat, BitVec.toNat_ofNat]
      omega
    rw [visitPages, if_pos hlt, ih _ (by omega) (by omega), List.range_succ_eq_map]
    simp only [Option.map_some, List.map_cons, List.map_map, Function.comp_def, Nat.zero_mul,
      Nat.succ_eq_add_one, hshift]
    simp

/-- A loop over a range that wraps visits nothing. -/
theorem visitPages_wrapped {stop i : BitVec 32} (h : stop < i) (fuel : ℕ) {ps : List Page}
    (hps : visitPages stop fuel i = some ps) : ps = [] := by
  cases fuel with
  | zero => cases hps
  | succ fuel =>
    have hge : ¬i < stop := by
      rw [BitVec.lt_def] at h ⊢
      omega
    rw [visitPages, if_neg hge] at hps
    exact (Option.some.inj hps).symm

/-- The table after a page loop is the table after its visits. -/
theorem forPages_eq_visits (value : BitVec 32 → BitVec 32) (stop : BitVec 32) (fuel : ℕ)
    (i : BitVec 32) (lut : Lut) (hi : i.toNat % 4096 = 0) :
    forPages value stop fuel i lut = (visitPages stop fuel i).map fun ps =>
      ps.foldl (fun l p => Function.update l p (value (pageBase p))) lut := by
  induction fuel generalizing i lut with
  | zero => rfl
  | succ fuel ih =>
    have hnext : (i + 0x1000).toNat % 4096 = 0 := by
      rw [BitVec.toNat_add]
      show (i.toNat + 4096) % 4294967296 % 4096 = 0
      omega
    have hbase : pageBase (pageOf i) = i := (pageOf_eq_iff hi).1 rfl
    rw [forPages, visitPages]
    split
    · rw [ih _ _ hnext]
      cases visitPages stop fuel (i + 0x1000) with
      | none => rfl
      | some ps => simp only [Option.map_some, List.foldl_cons, hbase]
    · rfl

-- ════════════════════
-- The pages of a half
-- ════════════════════

theorem loadEntry_mask_lt (regs : Cp0Reg → BitVec 32) (old : TlbEntry) :
    (loadEntry regs old).mask.toNat < 0x1000 := by
  have hle : (regs .pageMask &&& 0x1FFE000).toNat ≤ 0x1FFE000 := by
    rw [BitVec.toNat_and]
    exact Nat.and_le_right
  show (((regs .pageMask &&& 0x1FFE000) >>> 13).setWidth 16 : BitVec 16).toNat < 0x1000
  rw [BitVec.toNat_setWidth, BitVec.toNat_ushiftRight, Nat.shiftRight_eq_div_pow]
  omega

theorem loadHalf_stop_toNat (entryLo start : BitVec 32) {mask : BitVec 16}
    (hm : mask.toNat < 0x1000) :
    (loadHalf entryLo start mask).stop.toNat =
      (start.toNat + mask.toNat * 4096 + 4095) % 2 ^ 32 := by
  have hmsb : mask.msb = false := by
    rw [BitVec.msb_eq_false_iff_two_mul_lt]
    omega
  have hext : (mask.signExtend 32).toNat = mask.toNat := by
    rw [BitVec.signExtend_eq_setWidth_of_msb_false hmsb, BitVec.toNat_setWidth]
    omega
  simp only [loadHalf, BitVec.toNat_add, BitVec.toNat_shiftLeft, Nat.shiftLeft_eq, hext]
  show ((start.toNat + _ * 4096 % 4294967296) % 4294967296 + 4095) % 4294967296 = _ % 4294967296
  omega

theorem loadEntry_stop_toNat (regs : Cp0Reg → BitVec 32) (old : TlbEntry) (s : Side) :
    ((loadEntry regs old).half s).stop.toNat =
      (((loadEntry regs old).half s).start.toNat +
        (loadEntry regs old).mask.toNat * 4096 + 4095) % 2 ^ 32 := by
  have hm := loadEntry_mask_lt regs old
  cases s with
  | even => exact loadHalf_stop_toNat (regs .entryLo0) _ hm
  | odd => exact loadHalf_stop_toNat (regs .entryLo1) _ hm

theorem pageOf_add_toNat (a : BitVec 32) (k : ℕ) (ha : a.toNat % 4096 = 0) :
    (pageOf (a + BitVec.ofNat 32 (k * 4096))).toNat = (a.toNat / 4096 + k) % 2 ^ 20 := by
  rw [pageOf_toNat, BitVec.toNat_add, BitVec.toNat_ofNat]
  omega

namespace TlbEntry

variable {e : TlbEntry}

theorem pages_nodup {s : Side} (hstart : (e.half s).start.toNat % 4096 = 0)
    (hmask : e.mask.toNat < 0x1000) : (e.pages s).Nodup := by
  apply List.Nodup.map_on _ List.nodup_range
  intro j hj k hk heq
  rw [List.mem_range] at hj hk
  have hpages := congrArg BitVec.toNat heq
  rw [pageOf_add_toNat _ _ hstart, pageOf_add_toNat _ _ hstart] at hpages
  omega

theorem first_mem_pages (e : TlbEntry) (s : Side) : pageOf (e.half s).start ∈ e.pages s := by
  refine List.mem_map.2 ⟨0, List.mem_range.2 (by omega), ?_⟩
  simp

end TlbEntry

-- ════════════════════
-- One half
-- ════════════════════

/-- What both passes need of an entry; `TLBWrite` establishes it. -/
structure TlbEntry.Loaded (e : TlbEntry) : Prop where
  mask_lt : e.mask.toNat < 0x1000
  start_page : ∀ s, (e.half s).start.toNat % 4096 = 0
  stop_eq : ∀ s, (e.half s).stop.toNat =
    ((e.half s).start.toNat + e.mask.toNat * 4096 + 4095) % 2 ^ 32

theorem loadEntry_loaded (regs : Cp0Reg → BitVec 32) (old : TlbEntry) :
    (loadEntry regs old).Loaded where
  mask_lt := loadEntry_mask_lt regs old
  start_page s := (loadEntry_shaped regs old s).start_page
  stop_eq := loadEntry_stop_toNat regs old

namespace TlbEntry.Loaded

variable {e : TlbEntry} (he : e.Loaded) {s : Side}
include he

/-- A half that does not end below the last address ends at it or wraps. -/
theorem top_or_wrapped (h : ¬e.EndsBelowTop s) :
    (e.half s).stop = 0xFFFFFFFF ∨ (e.half s).stop < (e.half s).start := by
  have hmask := he.mask_lt
  have hstart := he.start_page s
  have hstop := he.stop_eq s
  have hbound := (e.half s).start.isLt
  unfold TlbEntry.EndsBelowTop at h
  by_cases heq : (e.half s).start.toNat + (e.mask.toNat + 1) * 4096 = 2 ^ 32
  · left
    apply BitVec.eq_of_toNat_eq
    show (e.half s).stop.toNat = 4294967295
    omega
  · right
    rw [BitVec.lt_def]
    omega

theorem visitPages_eq (h : e.EndsBelowTop s) :
    visitPages (e.half s).stop (e.mask.toNat + 2) (e.half s).start = some (e.pages s) := by
  have hstop := he.stop_eq s
  unfold TlbEntry.EndsBelowTop at h
  exact visitPages_range (e.mask.toNat + 1) (e.half s).start (by omega) h

theorem enters_iff {pass : TlbPass} (h : e.EndsBelowTop s) :
    pass.Enters (e.half s) ↔ pass.TakesUp (e.half s) := by
  have hstop := he.stop_eq s
  unfold TlbEntry.EndsBelowTop at h
  cases pass with
  | unmap => exact Iff.rfl
  | map =>
    have hlt : (e.half s).start < (e.half s).stop := by
      rw [BitVec.lt_def]
      omega
    exact ⟨fun hent => ⟨hent.1, hent.2.2⟩, fun htake => ⟨htake.1, hlt, htake.2⟩⟩

end TlbEntry.Loaded

theorem TlbPass.takesUp_of_enters {pass : TlbPass} {h : TlbHalf} (hent : pass.Enters h) :
    pass.TakesUp h := by
  cases pass with
  | unmap => exact hent
  | map => exact ⟨hent.1, hent.2.2⟩

namespace TlbPass

variable {pass : TlbPass} {s : Side}

/-- The two loops of a half that has been passed. -/
theorem halfVisits_some {fuel : ℕ} {h : TlbHalf} {vs : List Visit}
    (hvs : pass.halfVisits fuel s h = some vs) (hent : pass.Enters h) :
    ∃ r w : List Page, visitPages h.stop fuel h.start = some r ∧
      vs = r.map (Visit.mk .r s) ++ w.map (Visit.mk .w s) := by
  rw [halfVisits, if_pos hent, Option.bind_eq_bind, Option.bind_eq_some_iff] at hvs
  obtain ⟨r, hr, hvs⟩ := hvs
  rw [Option.bind_eq_some_iff] at hvs
  obtain ⟨w, -, hvs⟩ := hvs
  exact ⟨r, w, hr, (Option.some.inj hvs).symm⟩

/-- The visits for one half carry its side. -/
theorem side_of_mem_halfVisits {fuel : ℕ} {h : TlbHalf} {vs : List Visit}
    (hvs : pass.halfVisits fuel s h = some vs) {v : Visit} (hv : v ∈ vs) : v.side = s := by
  by_cases hent : pass.Enters h
  · obtain ⟨r, w, -, rfl⟩ := halfVisits_some hvs hent
    rcases List.mem_append.1 hv with hmem | hmem
    · obtain ⟨p, -, rfl⟩ := List.mem_map.1 hmem
      rfl
    · obtain ⟨p, -, rfl⟩ := List.mem_map.1 hmem
      rfl
  · rw [halfVisits, if_neg hent] at hvs
    cases hvs
    cases hv

/-- Each page of a half once in each table that the pass changes. -/
def halfList (pass : TlbPass) (e : TlbEntry) (s : Side) : List Visit :=
  if pass.TakesUp (e.half s) then
    (e.pages s).map (Visit.mk .r s) ++
      (if (e.half s).d ≠ 0 then e.pages s else []).map (Visit.mk .w s)
  else []

theorem halfVisits_eq {e : TlbEntry} (he : e.Loaded)
    (h : pass.TakesUp (e.half s) → e.EndsBelowTop s) :
    pass.halfVisits (e.mask.toNat + 2) s (e.half s) = some (pass.halfList e s) := by
  unfold halfVisits halfList
  by_cases htake : pass.TakesUp (e.half s)
  · rw [if_pos htake, if_pos ((he.enters_iff (h htake)).2 htake), he.visitPages_eq (h htake)]
    split <;> rfl
  · rw [if_neg htake, if_neg fun hent => htake (takesUp_of_enters hent)]

/-- A half that does not end below the last address: its loop runs forever, or visits nothing. -/
theorem halfVisits_bad {e : TlbEntry} (he : e.Loaded) (h : ¬e.EndsBelowTop s) {fuel : ℕ}
    {vs : List Visit}
    (hvs : pass.halfVisits fuel s (e.half s) = some vs) :
    Visit.mk .r s (pageOf (e.half s).start) ∉ vs := by
  by_cases hent : pass.Enters (e.half s)
  · obtain ⟨r, w, hr, rfl⟩ := halfVisits_some hvs hent
    rcases he.top_or_wrapped h with htop | hwrapped
    · rw [htop, visitPages_top _ _ (he.start_page s)] at hr
      cases hr
    · rw [visitPages_wrapped hwrapped _ hr]
      simp
  · rw [halfVisits, if_neg hent] at hvs
    cases hvs
    exact List.not_mem_nil

theorem side_of_mem_halfList {e : TlbEntry} {v : Visit} (hv : v ∈ pass.halfList e s) :
    v.side = s ∧ pass.TakesUp (e.half s) := by
  unfold halfList at hv
  split at hv
  · next htake =>
    rcases List.mem_append.1 hv with hmem | hmem
    · obtain ⟨p, -, rfl⟩ := List.mem_map.1 hmem
      exact ⟨rfl, htake⟩
    · obtain ⟨p, -, rfl⟩ := List.mem_map.1 hmem
      exact ⟨rfl, htake⟩
  · cases hv

/-- How often the visits of one table meet a visit of a table. -/
theorem count_map_mk (t t' : LutName) (ps : List Page) (p : Page) :
    (ps.map (Visit.mk t s)).count ⟨t', s, p⟩ = if t = t' then ps.count p else 0 := by
  by_cases ht : t = t'
  · subst ht
    rw [if_pos rfl]
    exact List.count_map_of_injective _ _ (fun q r h => (Visit.mk.inj h).2.2) _
  · rw [if_neg ht]
    apply List.count_eq_zero_of_not_mem
    intro hmem
    obtain ⟨q, -, hq⟩ := List.mem_map.1 hmem
    exact ht (Visit.mk.inj hq).1

/-- How often the visits of a half meet one visit. -/
theorem count_halfList {e : TlbEntry} (he : e.Loaded) (v : Visit) :
    (pass.halfList e s).count v = if v.side = s ∧ pass.Covers e v then 1 else 0 := by
  have hnodup := TlbEntry.pages_nodup (he.start_page s) he.mask_lt
  obtain ⟨t, s', p⟩ := v
  by_cases hin : s' = s ∧ pass.TakesUp (e.half s)
  swap
  · have hzero : (pass.halfList e s).count ⟨t, s', p⟩ = 0 :=
      List.count_eq_zero_of_not_mem fun hmem => hin (side_of_mem_halfList hmem)
    rw [hzero, if_neg]
    rintro ⟨hside, hcovers⟩
    have hside' : s' = s := hside
    subst hside'
    exact hin ⟨rfl, hcovers.1⟩
  obtain ⟨rfl, htake⟩ := hin
  have hcovers : pass.Covers e ⟨t, s', p⟩ ↔
      (t = .w → (e.half s').d ≠ 0) ∧ p ∈ e.pages s' :=
    ⟨fun h => h.2, fun h => ⟨htake, h⟩⟩
  rw [halfList, if_pos htake, List.count_append, count_map_mk, count_map_mk]
  simp only [hcovers, true_and]
  cases t with
  | r =>
    have hw : LutName.r = LutName.w → (e.half s').d ≠ 0 := fun h => by cases h
    rw [if_pos rfl, if_neg (by decide), Nat.add_zero, hnodup.count]
    by_cases hp : p ∈ e.pages s'
    · rw [if_pos hp, if_pos ⟨hw, hp⟩]
    · rw [if_neg hp, if_neg fun h => hp h.2]
  | w =>
    rw [if_neg (by decide), if_pos rfl, Nat.zero_add]
    by_cases hd : (e.half s').d ≠ 0
    · rw [if_pos hd, hnodup.count]
      by_cases hp : p ∈ e.pages s'
      · rw [if_pos hp, if_pos ⟨fun _ => hd, hp⟩]
      · rw [if_neg hp, if_neg fun h => hp h.2]
    · rw [if_neg hd, if_neg fun h => hd (h.1 rfl)]
      rfl

end TlbPass

-- ════════════════════
-- The tables after a pass
-- ════════════════════

/-- The word that a pass stores for the page at an address. -/
def TlbPass.value : TlbPass → TlbHalf → BitVec 32 → BitVec 32
  | .unmap, _ => fun _ => 0
  | .map, h => h.word

/-- One store of a pass. -/
def TlbPass.store (pass : TlbPass) (e : TlbEntry) (t : Tlb) (v : Visit) : Tlb :=
  let word := pass.value (e.half v.side) (pageBase v.page)
  match v.table with
  | .r => { t with lutR := Function.update t.lutR v.page word }
  | .w => { t with lutW := Function.update t.lutW v.page word }

/-- The loops of a pass for one half. -/
def TlbPass.runHalf : TlbPass → TlbHalf → Tlb → Option Tlb
  | .unmap => unmapHalf
  | .map => mapHalf

namespace TlbPass

variable (pass : TlbPass) (e : TlbEntry) (s : Side)

theorem foldl_store_r (ps : List Page) (t : Tlb) :
    (ps.map (Visit.mk .r s)).foldl (pass.store e) t =
      { t with
        lutR := ps.foldl
          (fun l p => Function.update l p (pass.value (e.half s) (pageBase p))) t.lutR } := by
  induction ps generalizing t with
  | nil => rfl
  | cons p ps ih =>
    rw [List.map_cons, List.foldl_cons, ih]
    rfl

theorem foldl_store_w (ps : List Page) (t : Tlb) :
    (ps.map (Visit.mk .w s)).foldl (pass.store e) t =
      { t with
        lutW := ps.foldl
          (fun l p => Function.update l p (pass.value (e.half s) (pageBase p))) t.lutW } := by
  induction ps generalizing t with
  | nil => rfl
  | cons p ps ih =>
    rw [List.map_cons, List.foldl_cons, ih]
    rfl

/-- The value that the loops of a pass store. -/
theorem runHalf_eq (h : TlbHalf) (t : Tlb) : pass.runHalf h t =
    if pass.Enters h then
      (forPages (pass.value h) h.stop pageFuel h.start t.lutR).bind fun lutR =>
        (if h.d ≠ 0 then forPages (pass.value h) h.stop pageFuel h.start t.lutW
          else some t.lutW).bind fun lutW => some { t with lutR, lutW }
    else some t := by
  cases pass with
  | unmap =>
    by_cases hent : TlbPass.unmap.Enters h
    · have hv : h.v ≠ 0 := hent
      rw [if_pos hent, runHalf, unmapHalf, if_pos hv]
      split <;> rfl
    · have hv : ¬h.v ≠ 0 := hent
      rw [if_neg hent, runHalf, unmapHalf, if_neg hv]
  | map =>
    by_cases hent : TlbPass.map.Enters h
    · have hv : h.v ≠ 0 ∧ h.Mappable := hent
      rw [if_pos hent, runHalf, mapHalf, if_pos hv.1, if_pos hv.2]
      split <;> rfl
    · rw [if_neg hent, runHalf, mapHalf]
      split
      · next hv => rw [if_neg fun hm => hent ⟨hv, hm⟩]
      · rfl

/-- The loops of a half make its visits. -/
theorem runHalf_eq_visits (hstart : (e.half s).start.toNat % 4096 = 0) (t : Tlb) :
    pass.runHalf (e.half s) t =
      (pass.halfVisits pageFuel s (e.half s)).map fun vs => vs.foldl (pass.store e) t := by
  rw [runHalf_eq, halfVisits]
  split
  · rw [forPages_eq_visits _ _ _ _ _ hstart]
    cases hps : visitPages (e.half s).stop pageFuel (e.half s).start with
    | none => rfl
    | some ps =>
      rw [forPages_eq_visits _ _ _ _ _ hstart, hps]
      by_cases hd : (e.half s).d ≠ 0
      · rw [if_pos hd, if_pos hd]
        simp only [Option.map_some, Option.bind_some, Option.bind_eq_bind, List.foldl_append,
          foldl_store_r, foldl_store_w]
      · rw [if_neg hd, if_neg hd]
        simp only [Option.map_some, Option.bind_some, Option.bind_eq_bind, List.foldl_append,
          foldl_store_r, foldl_store_w]
        rfl
  · rfl

theorem runHalf_entries {h : TlbHalf} {t t' : Tlb} (ht : pass.runHalf h t = some t') :
    t'.entries = t.entries := by
  rw [runHalf_eq] at ht
  split at ht
  · rw [Option.bind_eq_some_iff] at ht
    obtain ⟨lutR, -, ht⟩ := ht
    rw [Option.bind_eq_some_iff] at ht
    obtain ⟨lutW, -, ht⟩ := ht
    cases ht
    rfl
  · cases ht
    rfl

/-- `tlb_unmap` or `tlb_map`. -/
def run : TlbPass → Tlb → Fin 32 → Option Tlb
  | .unmap => tlbUnmap
  | .map => tlbMap

theorem run_eq (t : Tlb) (idx : Fin 32) : pass.run t idx =
    (pass.runHalf (t.entries idx).even t).bind (pass.runHalf (t.entries idx).odd) := by
  have hentries (t' : Tlb) (ht : pass.runHalf (t.entries idx).even t = some t') :
      (t'.entries idx).odd = (t.entries idx).odd := by
    rw [runHalf_entries pass ht]
  cases pass with
  | unmap =>
    cases ht : unmapHalf (t.entries idx).even t with
    | none => simp only [run, tlbUnmap, runHalf, ht, Option.bind_eq_bind, Option.bind_none]
    | some t' =>
      simp only [run, tlbUnmap, runHalf, ht, Option.bind_eq_bind, Option.bind_some, hentries t' ht]
  | map =>
    cases ht : mapHalf (t.entries idx).even t with
    | none => simp only [run, tlbMap, runHalf, ht, Option.bind_eq_bind, Option.bind_none]
    | some t' =>
      simp only [run, tlbMap, runHalf, ht, Option.bind_eq_bind, Option.bind_some, hentries t' ht]

/-- What a pass leaves are its visits. -/
theorem run_eq_visits (t : Tlb) (idx : Fin 32) (he : (t.entries idx).Loaded) :
    pass.run t idx = (pass.visits pageFuel (t.entries idx)).map fun vs =>
      vs.foldl (pass.store (t.entries idx)) t := by
  have heven := runHalf_eq_visits pass (t.entries idx) .even (he.start_page .even)
  have hodd := runHalf_eq_visits pass (t.entries idx) .odd (he.start_page .odd)
  rw [run_eq, visits]
  dsimp only [TlbEntry.half] at heven hodd
  rw [heven]
  cases pass.halfVisits pageFuel .even (t.entries idx).even with
  | none => rfl
  | some even =>
    rw [Option.map_some, Option.bind_some, hodd]
    cases pass.halfVisits pageFuel .odd (t.entries idx).odd with
    | none => rfl
    | some odd =>
      simp only [Option.map_some, Option.bind_eq_bind, Option.bind_some, List.foldl_append]

end TlbPass

-- ════════════════════
-- Whole passes
-- ════════════════════

namespace TlbPass

variable {pass : TlbPass} {e : TlbEntry}

theorem visits_some {fuel : ℕ} {vs : List Visit} (hvs : pass.visits fuel e = some vs) :
    ∃ even odd, pass.halfVisits fuel .even e.even = some even ∧
      pass.halfVisits fuel .odd e.odd = some odd ∧ vs = even ++ odd := by
  rw [visits, Option.bind_eq_bind, Option.bind_eq_some_iff] at hvs
  obtain ⟨even, heven, hvs⟩ := hvs
  rw [Option.bind_eq_some_iff] at hvs
  obtain ⟨odd, hodd, hvs⟩ := hvs
  exact ⟨even, odd, heven, hodd, (Option.some.inj hvs).symm⟩

/-- The first page of a half is visited by the loops of its own side only. -/
theorem mem_visits {fuel : ℕ} {vs : List Visit} (hvs : pass.visits fuel e = some vs) {v : Visit}
    (hv : v ∈ vs) : ∃ ws, pass.halfVisits fuel v.side (e.half v.side) = some ws ∧ v ∈ ws := by
  obtain ⟨even, odd, heven, hodd, rfl⟩ := visits_some hvs
  rcases List.mem_append.1 hv with hmem | hmem
  · have hside := side_of_mem_halfVisits heven hmem
    exact ⟨even, by rw [hside]; exact heven, hmem⟩
  · have hside := side_of_mem_halfVisits hodd hmem
    exact ⟨odd, by rw [hside]; exact hodd, hmem⟩

theorem visitsOnce_of_below (he : e.Loaded)
    (h : ∀ s, pass.TakesUp (e.half s) → e.EndsBelowTop s) : pass.VisitsOnce e := by
  refine ⟨e.mask.toNat + 2, pass.halfList e .even ++ pass.halfList e .odd, ?_, fun v => ?_⟩
  · have heven : pass.halfVisits (e.mask.toNat + 2) .even e.even = _ := halfVisits_eq he (h .even)
    have hodd : pass.halfVisits (e.mask.toNat + 2) .odd e.odd = _ := halfVisits_eq he (h .odd)
    rw [visits, heven, hodd]
    rfl
  · rw [List.count_append, count_halfList he, count_halfList he]
    rcases hside : v.side with _ | _ <;> simp

theorem below_of_visitsOnce (he : e.Loaded) (h : pass.VisitsOnce e) (s : Side)
    (htake : pass.TakesUp (e.half s)) : e.EndsBelowTop s := by
  obtain ⟨fuel, vs, hvs, hcount⟩ := h
  by_contra hbad
  -- the first page of the half should be visited once
  have hcovers : pass.Covers e ⟨.r, s, pageOf (e.half s).start⟩ :=
    ⟨htake, (fun h => by cases h), e.first_mem_pages s⟩
  have hone := hcount ⟨.r, s, pageOf (e.half s).start⟩
  rw [if_pos hcovers] at hone
  have hmem : Visit.mk .r s (pageOf (e.half s).start) ∈ vs := by
    apply List.count_pos_iff.1
    omega
  obtain ⟨ws, hws, hin⟩ := mem_visits hvs hmem
  exact halfVisits_bad he hbad hws hin

end TlbPass

/-- A pass over an entry that `TLBWrite` has loaded ends and visits each page once exactly if
    the halves it takes up end below the last address. -/
theorem visitsOnce_iff (regs : Cp0Reg → BitVec 32) (old : TlbEntry) (pass : TlbPass) :
    pass.VisitsOnce (loadEntry regs old) ↔
      ∀ s, pass.TakesUp ((loadEntry regs old).half s) → (loadEntry regs old).EndsBelowTop s :=
  ⟨TlbPass.below_of_visitsOnce (loadEntry_loaded regs old),
    TlbPass.visitsOnce_of_below (loadEntry_loaded regs old)⟩

/-- The last pair of pages, with a valid odd page. -/
def lastPairRegs : Cp0Reg → BitVec 32
  | .entryHi => 0xFFFFE000
  | .entryLo1 => 0x2
  | _ => 0

/-- `tlb_unmap` of the entry for the last pair of pages does not end. -/
theorem lastPair_not_visitsOnce :
    ¬∀ regs old, ∀ pass : TlbPass, pass.VisitsOnce (loadEntry regs old) := by
  intro h
  have hbelow := TlbPass.below_of_visitsOnce (loadEntry_loaded lastPairRegs zeroEntry)
    (h lastPairRegs zeroEntry .unmap) .odd (by decide)
  exact absurd hbelow (by decide)

end Mupen64plus
