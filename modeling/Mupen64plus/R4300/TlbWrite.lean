import Mupen64plus.Lib.Runs
import Mupen64plus.R4300.EventQueue
import Mathlib.Data.BitVec
import Mathlib.Data.Fintype.Prod
import Mathlib.Tactic.Ring

/-!
# TLB writes and the coherence of the lookup tables

`TLBWrite` of `mips_instructions.def` as far as it concerns the TLB: it clears the pages of the
old entry, loads the entry from the CP0 registers and maps its pages.

## Main definitions

- `tlbWrite` — `TLBWrite`
- `TlbHalf.Maps` — the half maps a page
- `Coherent` — the lookup tables say what the entries say

## Main results

- `coherent_of_writes` — from power on, writes that keep valid ranges apart keep the tables
  coherent, and none of them runs forever
-/

namespace Mupen64plus

/-- The condition of the early returns: the write is made from a page of the old half. -/
def TlbHalf.holdsPc (h : TlbHalf) (pc : BitVec 32) : Bool :=
  h.start ≤ pc && pc < h.stop && h.v != 0

/-- The fields of one half from its EntryLo register and its first address. -/
def loadHalf (entryLo start : BitVec 32) (mask : BitVec 16) : TlbHalf where
  pfn := (entryLo &&& 0x3FFFFFC0) >>> 6
  c := ((entryLo &&& 0x38) >>> 3).setWidth 8
  d := ((entryLo &&& 0x4) >>> 2).setWidth 8
  v := ((entryLo &&& 0x2) >>> 1).setWidth 8
  start := start
  stop := start + (mask.signExtend 32 <<< 12) + 0xFFF
  phys := ((entryLo &&& 0x3FFFFFC0) >>> 6) <<< 12

/-- The entry as `TLBWrite` loads it; the field `r` keeps its value. -/
def loadEntry (regs : Cp0Reg → BitVec 32) (old : TlbEntry) : TlbEntry :=
  let mask : BitVec 16 := ((regs .pageMask &&& 0x1FFE000) >>> 13).setWidth 16
  let vpn2 := (regs .entryHi &&& 0xFFFFE000) >>> 13
  let even := loadHalf (regs .entryLo0) (vpn2 <<< 13) mask
  { mask := mask
    vpn2 := vpn2
    g := (regs .entryLo0 &&& regs .entryLo1 &&& 1).setWidth 8
    asid := (regs .entryHi &&& 0xFF).setWidth 8
    r := old.r
    even := even
    odd := loadHalf (regs .entryLo1) (even.stop + 1) mask }

/-- The operands of one `TLBWrite`. -/
structure TlbWriteOp where
  pc : BitVec 32
  regs : Cp0Reg → BitVec 32
  idx : Fin 32

/-- The write returns early: it is made from a page of the entry it replaces. -/
def TlbWriteOp.fromOwnPage (w : TlbWriteOp) (entries : Fin 32 → TlbEntry) : Bool :=
  (entries w.idx).even.holdsPc w.pc || (entries w.idx).odd.holdsPc w.pc

/-- The entries after one `TLBWrite`. -/
def writeEntries (entries : Fin 32 → TlbEntry) (w : TlbWriteOp) : Fin 32 → TlbEntry :=
  if w.fromOwnPage entries then entries
  else Function.update entries w.idx (loadEntry w.regs (entries w.idx))

/-- `TLBWrite`. -/
def tlbWrite (t : Tlb) (w : TlbWriteOp) : Option Tlb :=
  if w.fromOwnPage t.entries then some t
  else do
    let u ← tlbUnmap t w.idx
    tlbMap { u with entries := writeEntries t.entries w } w.idx

-- The two halves of the 32 entries, under one index.

inductive Side where
  | even
  | odd
  deriving DecidableEq, Repr

instance : Fintype Side where
  elems := {.even, .odd}
  complete s := by cases s <;> simp

def TlbEntry.half (e : TlbEntry) : Side → TlbHalf
  | .even => e.even
  | .odd => e.odd

abbrev HalfIdx := Fin 32 × Side

def halfOf (entries : Fin 32 → TlbEntry) (k : HalfIdx) : TlbHalf := (entries k.1).half k.2

namespace TlbHalf

variable (h : TlbHalf)

/-- An address in the range of the half. -/
def Spans (a : BitVec 32) : Prop := h.start ≤ a ∧ a ≤ h.stop

/-- The half is valid, `tlb_map` accepts it, and its range holds the page. -/
def Maps (p : Page) : Prop := h.v ≠ 0 ∧ h.Mappable ∧ h.Spans (pageBase p)

/-- What the loading of an entry guarantees of a half: whole pages, at most 4096 of them. -/
structure Shaped : Prop where
  start_page : h.start.toNat % 4096 = 0
  stop_page : h.stop.toNat % 4096 = 4095
  phys_page : h.phys.toNat % 4096 = 0
  extent : (h.stop - h.start).toNat < 0x1000000

end TlbHalf

/-- The ranges of different valid halves are disjoint. -/
def Apart (entries : Fin 32 → TlbEntry) : Prop :=
  ∀ j k, j ≠ k → (halfOf entries j).v ≠ 0 → (halfOf entries k).v ≠ 0 →
    ∀ a, (halfOf entries j).Spans a → ¬(halfOf entries k).Spans a

/-- Two ranges are disjoint: one is empty, or one ends before the other starts. -/
def TlbHalf.Clear (h h' : TlbHalf) : Prop :=
  h.stop < h.start ∨ h'.stop < h'.start ∨ h.stop < h'.start ∨ h'.stop < h.start

instance (h h' : TlbHalf) : Decidable (h.Clear h') :=
  inferInstanceAs (Decidable (_ ∨ _ ∨ _ ∨ _))

theorem clear_iff (h h' : TlbHalf) : h.Clear h' ↔ ∀ a, h.Spans a → ¬h'.Spans a := by
  simp only [TlbHalf.Clear, TlbHalf.Spans, BitVec.le_def, BitVec.lt_def]
  constructor
  · intro hd a
    omega
  · intro hd
    by_contra hcon
    have h1 := hd h.start
    have h2 := hd h'.start
    omega

instance (entries : Fin 32 → TlbEntry) : Decidable (Apart entries) :=
  decidable_of_iff (∀ j k, j ≠ k → (halfOf entries j).v ≠ 0 → (halfOf entries k).v ≠ 0 →
    (halfOf entries j).Clear (halfOf entries k)) (by simp only [Apart, clear_iff])

/-- No valid range ends at the last address. -/
def StopsShort (entries : Fin 32 → TlbEntry) : Prop :=
  ∀ k, (halfOf entries k).v ≠ 0 → (halfOf entries k).stop ≠ 0xFFFFFFFF

instance (entries : Fin 32 → TlbEntry) : Decidable (StopsShort entries) :=
  inferInstanceAs (Decidable (∀ k, (halfOf entries k).v ≠ 0 → _))

/-- Every valid half is shaped. -/
def AllShaped (entries : Fin 32 → TlbEntry) : Prop :=
  ∀ k, (halfOf entries k).v ≠ 0 → (halfOf entries k).Shaped

/-- The lookup tables hold what the entries of `live` halves prescribe, and nothing else. -/
structure CoherentOn (live : HalfIdx → Prop) (t : Tlb) : Prop where
  unmapped : ∀ p, (∀ k, live k → ¬(halfOf t.entries k).Maps p) → t.lutR p = 0 ∧ t.lutW p = 0
  mapped : ∀ p k, live k → (halfOf t.entries k).Maps p →
    t.lutR p = (halfOf t.entries k).word (pageBase p) ∧
    t.lutW p = if (halfOf t.entries k).d ≠ 0 then (halfOf t.entries k).word (pageBase p) else 0

/-- The lookup tables hold what the entries prescribe. -/
def Coherent (t : Tlb) : Prop := CoherentOn (fun _ => True) t

-- ════════════════════════════════════════════════════════════════════════
-- The halves that a write loads
-- ════════════════════════════════════════════════════════════════════════

theorem mask_toNat_lt (pageMask : BitVec 32) :
    ((((pageMask &&& 0x1FFE000) >>> 13).setWidth 16 : BitVec 16).signExtend 32).toNat < 0x1000 := by
  have hle : (pageMask &&& 0x1FFE000).toNat ≤ 0x1FFE000 := by
    rw [BitVec.toNat_and]
    exact Nat.and_le_right
  have hlt : (((pageMask &&& 0x1FFE000) >>> 13).setWidth 16 : BitVec 16).toNat < 0x1000 := by
    rw [BitVec.toNat_setWidth, BitVec.toNat_ushiftRight, Nat.shiftRight_eq_div_pow]
    omega
  have hmsb : (((pageMask &&& 0x1FFE000) >>> 13).setWidth 16 : BitVec 16).msb = false := by
    rw [BitVec.msb_eq_false_iff_two_mul_lt]
    omega
  rw [BitVec.signExtend_eq_setWidth_of_msb_false hmsb, BitVec.toNat_setWidth]
  omega

theorem loadHalf_shaped (entryLo : BitVec 32) {start : BitVec 32} {mask : BitVec 16}
    (hs : start.toNat % 4096 = 0) (hm : (mask.signExtend 32).toNat < 0x1000) :
    (loadHalf entryLo start mask).Shaped where
  start_page := hs
  stop_page := by
    simp only [loadHalf, BitVec.toNat_add, BitVec.toNat_shiftLeft, Nat.shiftLeft_eq]
    show ((start.toNat + _ * 4096 % 4294967296) % 4294967296 + 4095) % 4294967296 % 4096 = 4095
    omega
  phys_page := by
    simp only [loadHalf, BitVec.toNat_shiftLeft, Nat.shiftLeft_eq]
    omega
  extent := by
    have hsub : (loadHalf entryLo start mask).stop - start = (mask.signExtend 32 <<< 12) +
      0xFFF := by
      simp only [loadHalf]
      ring
    show ((loadHalf entryLo start mask).stop - start).toNat < _
    rw [hsub]
    simp only [BitVec.toNat_add, BitVec.toNat_shiftLeft, Nat.shiftLeft_eq]
    show (_ * 4096 % 4294967296 + 4095) % 4294967296 < _
    omega

theorem loadEntry_shaped (regs : Cp0Reg → BitVec 32) (old : TlbEntry) (s : Side) :
    ((loadEntry regs old).half s).Shaped := by
  have hmask := mask_toNat_lt (regs .pageMask)
  have hstart : (((regs .entryHi &&& 0xFFFFE000) >>> 13) <<< 13).toNat % 4096 = 0 := by
    simp only [BitVec.toNat_shiftLeft, Nat.shiftLeft_eq]
    omega
  have heven := loadHalf_shaped (regs .entryLo0) hstart hmask
  cases s with
  | even => exact heven
  | odd =>
    refine loadHalf_shaped _ ?_ hmask
    have hstop := heven.stop_page
    rw [BitVec.toNat_add]
    show (_ + 1) % 4294967296 % 4096 = 0
    omega

theorem allShaped_write {entries : Fin 32 → TlbEntry} (h : AllShaped entries) (w : TlbWriteOp) :
    AllShaped (writeEntries entries w) := by
  unfold writeEntries
  split
  · exact h
  · intro k hv
    by_cases hk : k.1 = w.idx
    · rw [halfOf, hk, Function.update_self]
      exact loadEntry_shaped _ _ _
    · rw [halfOf, Function.update_of_ne hk] at hv ⊢
      exact h k hv

-- ════════════════════════════════════════════════════════════════════════
-- Erasing and filling one half
-- ════════════════════════════════════════════════════════════════════════

/-- The tables after the loops of `tlb_unmap` for one valid half. -/
def eraseHalf (h : TlbHalf) (t : Tlb) : Tlb :=
  { t with
    lutR := paint (fun _ => 0) h.start h.stop t.lutR
    lutW := if h.d ≠ 0 then paint (fun _ => 0) h.start h.stop t.lutW else t.lutW }

/-- The tables after the loops of `tlb_map` for one half that it maps. -/
def fillHalf (h : TlbHalf) (t : Tlb) : Tlb :=
  { t with
    lutR := paint h.word h.start h.stop t.lutR
    lutW := if h.d ≠ 0 then paint h.word h.start h.stop t.lutW else t.lutW }

namespace TlbHalf.Shaped

variable {h : TlbHalf}

theorem loop (hs : h.Shaped) (hstop : h.stop ≠ 0xFFFFFFFF) (value : BitVec 32 → BitVec 32)
    (lut : Lut) : forPages value h.stop pageFuel h.start lut =
      some (paint value h.start h.stop lut) := by
  refine forPages_eq_paint value hs.stop_page hstop _ _ _ hs.start_page ?_
  have hlt := h.stop.isLt
  show _ < 0x100001
  omega

theorem unmapHalf_eq (hs : h.Shaped) (hv : h.v ≠ 0) (hstop : h.stop ≠ 0xFFFFFFFF) (t : Tlb) :
    unmapHalf h t = some (eraseHalf h t) := by
  simp only [unmapHalf, if_pos hv, hs.loop hstop, eraseHalf]
  split <;> rfl

theorem mapHalf_eq (hs : h.Shaped) (hv : h.v ≠ 0) (hm : h.Mappable) (hstop : h.stop ≠ 0xFFFFFFFF)
    (t : Tlb) : mapHalf h t = some (fillHalf h t) := by
  simp only [mapHalf, if_pos hv, if_pos hm, hs.loop hstop, fillHalf]
  split <;> rfl

/-- The loops visit the pages whose first address the range holds. -/
theorem spans_iff (hs : h.Shaped) (p : Page) :
    (h.start ≤ pageBase p ∧ pageBase p < h.stop) ↔ h.Spans (pageBase p) := by
  have hstop := hs.stop_page
  have hbase := pageBase_toNat p
  simp only [TlbHalf.Spans, BitVec.le_def, BitVec.lt_def]
  omega

theorem paint_of_spans (hs : h.Shaped) {value : BitVec 32 → BitVec 32} {lut : Lut} {p : Page}
    (hp : h.Spans (pageBase p)) : paint value h.start h.stop lut p = value (pageBase p) :=
  if_pos ((hs.spans_iff p).mpr hp)

theorem paint_of_not_spans (hs : h.Shaped) {value : BitVec 32 → BitVec 32} {lut : Lut} {p : Page}
    (hp : ¬h.Spans (pageBase p)) : paint value h.start h.stop lut p = lut p :=
  if_neg fun hin => hp ((hs.spans_iff p).mp hin)

end TlbHalf.Shaped

theorem eraseHalf_of_spans {h : TlbHalf} (hs : h.Shaped) (t : Tlb) {p : Page}
    (hp : h.Spans (pageBase p)) :
    (eraseHalf h t).lutR p = 0 ∧ (eraseHalf h t).lutW p = if h.d ≠ 0 then 0 else t.lutW p := by
  by_cases hd : h.d ≠ 0
  · simp only [eraseHalf, if_pos hd, hs.paint_of_spans hp, and_self]
  · simp only [eraseHalf, if_neg hd, hs.paint_of_spans hp, and_self]

theorem fillHalf_of_spans {h : TlbHalf} (hs : h.Shaped) (t : Tlb) {p : Page}
    (hp : h.Spans (pageBase p)) :
    (fillHalf h t).lutR p = h.word (pageBase p) ∧
      (fillHalf h t).lutW p = if h.d ≠ 0 then h.word (pageBase p) else t.lutW p := by
  by_cases hd : h.d ≠ 0
  · simp only [fillHalf, if_pos hd, hs.paint_of_spans hp, and_self]
  · simp only [fillHalf, if_neg hd, hs.paint_of_spans hp, and_self]

/-- Outside of its range, a half leaves the tables alone. -/
theorem eraseHalf_of_not_spans {h : TlbHalf} (hs : h.Shaped) (t : Tlb) {p : Page}
    (hp : ¬h.Spans (pageBase p)) :
    (eraseHalf h t).lutR p = t.lutR p ∧ (eraseHalf h t).lutW p = t.lutW p := by
  by_cases hd : h.d ≠ 0
  · simp only [eraseHalf, if_pos hd, hs.paint_of_not_spans hp, and_self]
  · simp only [eraseHalf, if_neg hd, hs.paint_of_not_spans hp, and_self]

theorem fillHalf_of_not_spans {h : TlbHalf} (hs : h.Shaped) (t : Tlb) {p : Page}
    (hp : ¬h.Spans (pageBase p)) :
    (fillHalf h t).lutR p = t.lutR p ∧ (fillHalf h t).lutW p = t.lutW p := by
  by_cases hd : h.d ≠ 0
  · simp only [fillHalf, if_pos hd, hs.paint_of_not_spans hp, and_self]
  · simp only [fillHalf, if_neg hd, hs.paint_of_not_spans hp, and_self]

/-- Erasing a half takes it off the live ones. A half that is valid but not dirty has no word in
    `LUT_w`, so nothing of it is left there. -/
theorem CoherentOn.erase {live : HalfIdx → Prop} {t : Tlb} (hc : CoherentOn live t)
    (hapart : Apart t.entries) {k : HalfIdx} (hk : live k) (hs : (halfOf t.entries k).Shaped)
    (hv : (halfOf t.entries k).v ≠ 0) :
    CoherentOn (fun j => live j ∧ j ≠ k) (eraseHalf (halfOf t.entries k) t) where
  unmapped := by
    intro p hp
    by_cases hspan : (halfOf t.entries k).Spans (pageBase p)
    · obtain ⟨hr, hw⟩ := eraseHalf_of_spans hs t hspan
      refine ⟨hr, hw.trans ?_⟩
      split
      · rfl
      · next hd =>
        by_cases hm : (halfOf t.entries k).Maps p
        · exact (hc.mapped p k hk hm).2.trans (if_neg hd)
        · refine (hc.unmapped p fun j hj => ?_).2
          by_cases hjk : j = k
          · exact hjk ▸ hm
          · exact hp j ⟨hj, hjk⟩
    · obtain ⟨hr, hw⟩ := eraseHalf_of_not_spans hs t hspan
      rw [hr, hw]
      refine hc.unmapped p fun j hj hm => ?_
      by_cases hjk : j = k
      · exact hspan (hjk ▸ hm).2.2
      · exact hp j ⟨hj, hjk⟩ hm
  mapped := by
    rintro p j ⟨hj, hjk⟩ hm
    have hspan : ¬(halfOf t.entries k).Spans (pageBase p) :=
      hapart j k hjk hm.1 hv (pageBase p) hm.2.2
    obtain ⟨hr, hw⟩ := eraseHalf_of_not_spans hs t hspan
    rw [hr, hw]
    exact hc.mapped p j hj hm

/-- Filling in a half that is not live makes it live. -/
theorem CoherentOn.fill {live : HalfIdx → Prop} {t : Tlb} (hc : CoherentOn live t)
    (hapart : Apart t.entries) {k : HalfIdx} (hk : ¬live k) (hs : (halfOf t.entries k).Shaped)
    (hv : (halfOf t.entries k).v ≠ 0) (hmap : (halfOf t.entries k).Mappable) :
    CoherentOn (fun j => live j ∨ j = k) (fillHalf (halfOf t.entries k) t) where
  unmapped := by
    intro p hp
    have hspan : ¬(halfOf t.entries k).Spans (pageBase p) :=
      fun h => hp k (.inr rfl) ⟨hv, hmap, h⟩
    obtain ⟨hr, hw⟩ := fillHalf_of_not_spans hs t hspan
    rw [hr, hw]
    exact hc.unmapped p fun j hj => hp j (.inl hj)
  mapped := by
    rintro p j hj hm
    by_cases hjk : j = k
    · subst hjk
      obtain ⟨hr, hw⟩ := fillHalf_of_spans hs t hm.2.2
      -- no live half maps this page, so `LUT_w` was clear there
      have hclear : t.lutW p = 0 := by
        refine (hc.unmapped p fun i hi hmi => ?_).2
        have hij : i ≠ j := fun h => hk (h ▸ hi)
        exact hapart i j hij hmi.1 hv (pageBase p) hmi.2.2 hm.2.2
      exact ⟨hr, by rw [hw, hclear]; rfl⟩
    · have hspan : ¬(halfOf t.entries k).Spans (pageBase p) :=
        hapart j k hjk hm.1 hv (pageBase p) hm.2.2
      obtain ⟨hr, hw⟩ := fillHalf_of_not_spans hs t hspan
      rw [hr, hw]
      exact hc.mapped p j (hj.resolve_right hjk) hm

theorem CoherentOn.congr {live live' : HalfIdx → Prop} {t : Tlb} (hc : CoherentOn live t)
    (h : ∀ k, (halfOf t.entries k).v ≠ 0 → (halfOf t.entries k).Mappable → (live k ↔ live' k)) :
    CoherentOn live' t where
  unmapped p hp := hc.unmapped p fun k hk hm => hp k ((h k hm.1 hm.2.1).mp hk) hm
  mapped p k hk hm := hc.mapped p k ((h k hm.1 hm.2.1).mpr hk) hm

-- ════════════════════════════════════════════════════════════════════════
-- One write
-- ════════════════════════════════════════════════════════════════════════

/-- `tlb_unmap` ends and takes both halves of its entry off the live ones. -/
theorem tlbUnmap_coherent {t : Tlb} (hc : Coherent t) (hapart : Apart t.entries)
    (hshape : AllShaped t.entries) (hshort : StopsShort t.entries) (idx : Fin 32) :
    ∃ u, tlbUnmap t idx = some u ∧ u.entries = t.entries ∧ CoherentOn (fun k => k.1 ≠ idx) u := by
  have hone : ∀ (s : Side) (live : HalfIdx → Prop) (u : Tlb), live (idx, s) →
      u.entries = t.entries → CoherentOn live u →
      ∃ u', unmapHalf (halfOf t.entries (idx, s)) u = some u' ∧ u'.entries = t.entries ∧
        CoherentOn (fun j => live j ∧ j ≠ (idx, s)) u' := by
    intro s live u hlive hent hcu
    by_cases hv : (halfOf t.entries (idx, s)).v = 0
    · refine ⟨u, by simp [unmapHalf, hv], hent, hcu.congr fun k hk _ => ?_⟩
      rw [hent] at hk
      exact ⟨fun h => ⟨h, fun heq => hk (heq ▸ hv)⟩, And.left⟩
    · refine ⟨_, (hshape _ hv).unmapHalf_eq hv (hshort _ hv) u, hent, ?_⟩
      rw [← hent] at hv ⊢
      exact hcu.erase (hent ▸ hapart) hlive (hent ▸ hshape (idx, s) (hent ▸ hv)) hv
  obtain ⟨u, hu, hent, hcu⟩ := hone .even _ t trivial rfl hc
  obtain ⟨u', hu', hent', hcu'⟩ := hone .odd _ u ⟨trivial, by simp⟩ hent hcu
  refine ⟨u', ?_, hent', hcu'.congr fun k _ _ => ?_⟩
  · have heven : unmapHalf (t.entries idx).even t = some u := hu
    show (unmapHalf (t.entries idx).even t >>= fun u : Tlb => unmapHalf (u.entries idx).odd u) =
      some u'
    rw [heven, Option.bind_eq_bind, Option.bind_some, hent]
    exact hu'
  · obtain ⟨i, s⟩ := k
    cases s <;> simp

/-- `tlb_map` ends and makes both halves of its entry live. -/
theorem tlbMap_coherent {t : Tlb} {idx : Fin 32} (hc : CoherentOn (fun k => k.1 ≠ idx) t)
    (hapart : Apart t.entries) (hshape : AllShaped t.entries) (hshort : StopsShort t.entries) :
    ∃ u, tlbMap t idx = some u ∧ u.entries = t.entries ∧ Coherent u := by
  have hone : ∀ (s : Side) (live : HalfIdx → Prop) (u : Tlb), ¬live (idx, s) →
      u.entries = t.entries → CoherentOn live u →
      ∃ u', mapHalf (halfOf t.entries (idx, s)) u = some u' ∧ u'.entries = t.entries ∧
        CoherentOn (fun j => live j ∨ j = (idx, s)) u' := by
    intro s live u hlive hent hcu
    by_cases hv : (halfOf t.entries (idx, s)).v = 0
    · refine ⟨u, by simp [mapHalf, hv], hent, hcu.congr fun k hk _ => ?_⟩
      rw [hent] at hk
      exact ⟨.inl, fun h => h.resolve_right fun heq => hk (heq ▸ hv)⟩
    · by_cases hm : (halfOf t.entries (idx, s)).Mappable
      · refine ⟨_, (hshape _ hv).mapHalf_eq hv hm (hshort _ hv) u, hent, ?_⟩
        rw [← hent] at hv hm ⊢
        exact hcu.fill (hent ▸ hapart) hlive (hent ▸ hshape (idx, s) (hent ▸ hv)) hv hm
      · refine ⟨u, by simp [mapHalf, hm], hent, hcu.congr fun k _ hk => ?_⟩
        rw [hent] at hk
        exact ⟨.inl, fun h => h.resolve_right fun heq => hm (heq ▸ hk)⟩
  obtain ⟨u, hu, hent, hcu⟩ := hone .even _ t (by simp) rfl hc
  obtain ⟨u', hu', hent', hcu'⟩ := hone .odd _ u (by simp) hent hcu
  refine ⟨u', ?_, hent', hcu'.congr fun k _ _ => ?_⟩
  · have heven : mapHalf (t.entries idx).even t = some u := hu
    show (mapHalf (t.entries idx).even t >>= fun u : Tlb => mapHalf (u.entries idx).odd u) = some u'
    rw [heven, Option.bind_eq_bind, Option.bind_some, hent]
    exact hu'
  · obtain ⟨i, s⟩ := k
    by_cases hi : i = idx
    · cases s <;> simp [hi]
    · simp [hi]

/-- **Step lemma**: a write between states whose valid ranges are apart and stop short ends and
    keeps the tables coherent. -/
theorem tlbWrite_coherent {t : Tlb} (w : TlbWriteOp) (hc : Coherent t)
    (hshape : AllShaped t.entries) (hapart : Apart t.entries) (hshort : StopsShort t.entries)
    (hapart' : Apart (writeEntries t.entries w)) (hshort' : StopsShort (writeEntries t.entries w)) :
    ∃ u, tlbWrite t w = some u ∧ u.entries = writeEntries t.entries w ∧ Coherent u := by
  by_cases hown : w.fromOwnPage t.entries
  · refine ⟨t, by simp [tlbWrite, hown], by simp [writeEntries, hown], hc⟩
  · obtain ⟨u, hu, hent, hcu⟩ := tlbUnmap_coherent hc hapart hshape hshort w.idx
    have hload : CoherentOn (fun k => k.1 ≠ w.idx)
        { u with entries := writeEntries t.entries w } := by
      have hsame : ∀ k : HalfIdx, k.1 ≠ w.idx →
          halfOf (writeEntries t.entries w) k = halfOf u.entries k := by
        intro k hk
        rw [hent]
        simp [halfOf, writeEntries, hown, Function.update_of_ne hk]
      refine ⟨fun p hp => hcu.unmapped p fun k hk => ?_, fun p k hk hm => ?_⟩
      · exact hsame k hk ▸ hp k hk
      · have hm' : (halfOf u.entries k).Maps p := hsame k hk ▸ hm
        show _ = (halfOf (writeEntries t.entries w) k).word _ ∧ _
        rw [hsame k hk]
        exact hcu.mapped p k hk hm'
    obtain ⟨u', hu', hent', hcu'⟩ :=
      tlbMap_coherent hload hapart' (allShaped_write hshape w) hshort'
    refine ⟨u', ?_, hent', hcu'⟩
    simp only [tlbWrite, hown, hu]
    exact hu'

-- ════════════════════════════════════════════════════════════════════════
-- Translation
-- ════════════════════════════════════════════════════════════════════════

/-- The address, inside the unmapped segment, that the half gives to an address of its range. -/
def TlbHalf.translate (h : TlbHalf) (a : BitVec 32) : BitVec 32 :=
  0x80000000 ||| (h.phys + (a - h.start))

theorem high_or_low_toNat (x a : BitVec 32) :
    ((x &&& 0xFFFFF000) ||| (a &&& 0xFFF)).toNat = x.toNat / 4096 * 4096 + a.toNat % 4096 := by
  have hhigh : x &&& (0xFFFFF000 : BitVec 32) = x >>> 12 <<< 12 := by
    rw [BitVec.shiftLeft_ushiftRight]
    rfl
  have hx := x.isLt
  have hlow : (a &&& 0xFFF).toNat = a.toNat % 2 ^ 12 := by
    rw [BitVec.toNat_and]
    exact Nat.and_two_pow_sub_one_eq_mod _ 12
  have hlt : a.toNat % 2 ^ 12 < 2 ^ 12 := Nat.mod_lt _ (by decide)
  have hshift : (x >>> 12 <<< 12).toNat = (x.toNat / 2 ^ 12) <<< 12 := by
    simp only [BitVec.toNat_shiftLeft, BitVec.toNat_ushiftRight, Nat.shiftRight_eq_div_pow,
      Nat.shiftLeft_eq]
    omega
  rw [hhigh, BitVec.toNat_or, hshift, hlow, ← Nat.shiftLeft_add_eq_or_of_lt hlt, Nat.shiftLeft_eq]
  rfl

theorem kseg0_or_toNat {x : BitVec 32} (hx : x.toNat < 0x80000000) :
    (0x80000000 ||| x).toNat = 0x80000000 + x.toNat := by
  rw [BitVec.toNat_or]
  have hx' : x.toNat < 2 ^ 31 := hx
  exact (Nat.two_pow_add_eq_or_of_lt hx' 1).symm

theorem pageBase_pageOf_le (a : BitVec 32) : (pageBase (pageOf a)).toNat =
    a.toNat / 4096 * 4096 := by
  rw [pageBase_toNat, pageOf_toNat]

/-- The word of a page and the offset in the page make up the translated address. -/
theorem TlbHalf.Shaped.word_translate {h : TlbHalf} (hs : h.Shaped) {a : BitVec 32}
    (hm : h.Maps (pageOf a)) :
    h.word (pageBase (pageOf a)) ≠ 0 ∧
      (h.word (pageBase (pageOf a)) &&& 0xFFFFF000) ||| (a &&& 0xFFF) = h.translate a := by
  obtain ⟨-, ⟨hlt, -, hphys⟩, hlo, hhi⟩ := hm
  obtain ⟨hstart, hstop, hpage, hextent⟩ := hs
  have hbase := pageBase_pageOf_le a
  have ha := a.isLt
  have hstopLt := h.stop.isLt
  simp only [BitVec.lt_def, BitVec.le_def] at hlt hlo hhi hphys
  have hphys' : h.phys.toNat < 0x20000000 := hphys
  have hext : h.stop.toNat - h.start.toNat < 0x1000000 := by
    rwa [BitVec.toNat_sub_of_le (BitVec.le_def.mpr hlt.le)] at hextent
  have hoff : (pageBase (pageOf a) - h.start).toNat = a.toNat / 4096 * 4096 - h.start.toNat := by
    rw [BitVec.toNat_sub_of_le (BitVec.le_def.mpr hlo), hbase]
  have haoff : (a - h.start).toNat = a.toNat - h.start.toNat :=
    BitVec.toNat_sub_of_le (BitVec.le_def.mpr (by omega))
  have hword : (h.word (pageBase (pageOf a))).toNat =
      0x80000000 + (h.phys.toNat + (a.toNat / 4096 * 4096 - h.start.toNat) + 0xFFF) := by
    have hsum : (h.phys + (pageBase (pageOf a) - h.start) + 0xFFF).toNat =
        h.phys.toNat + (a.toNat / 4096 * 4096 - h.start.toNat) + 0xFFF := by
      simp only [BitVec.toNat_add, hoff]
      show ((_ + _) % 4294967296 + 4095) % 4294967296 = _
      omega
    rw [TlbHalf.word, kseg0_or_toNat (by omega), hsum]
  have htrans : (h.translate a).toNat =
      0x80000000 + (h.phys.toNat + (a.toNat - h.start.toNat)) := by
    have hsum : (h.phys + (a - h.start)).toNat = h.phys.toNat + (a.toNat - h.start.toNat) := by
      rw [BitVec.toNat_add, haoff]
      omega
    rw [TlbHalf.translate, kseg0_or_toNat (by omega), hsum]
  refine ⟨fun h0 => ?_, BitVec.eq_of_toNat_eq ?_⟩
  · rw [h0] at hword
    simp at hword
  · rw [high_or_low_toNat, hword, htrans]
    omega

/-- The translation that the entries prescribe: by the half that maps the page, for writes only
    when it is dirty. -/
def Translates (entries : Fin 32 → TlbEntry) (t : Tlb) : Prop :=
  ∀ (a : BitVec 32) (w : Access),
    (∀ k, (halfOf entries k).Maps (pageOf a) → (w = .write → (halfOf entries k).d ≠ 0) →
      t.lookup a w = some ((halfOf entries k).translate a)) ∧
    ((∀ k, (halfOf entries k).Maps (pageOf a) → w = .write ∧ (halfOf entries k).d = 0) →
      t.lookup a w = none)

theorem Coherent.translates {t : Tlb} (hc : Coherent t) (hshape : AllShaped t.entries) :
    Translates t.entries t := by
  intro a w
  refine ⟨fun k hm hd => ?_, fun hnone => ?_⟩
  · obtain ⟨hne, htr⟩ := (hshape k hm.1).word_translate hm
    obtain ⟨hr, hw⟩ := hc.mapped (pageOf a) k trivial hm
    cases w with
    | write =>
      rw [if_pos (hd rfl)] at hw
      simp only [Tlb.lookup, hw, if_pos hne, htr]
    | read => simp only [Tlb.lookup, hr, if_pos hne, htr]
    | fetch => simp only [Tlb.lookup, hr, if_pos hne, htr]
  · by_cases hex : ∃ k, (halfOf t.entries k).Maps (pageOf a)
    · obtain ⟨k, hm⟩ := hex
      obtain ⟨rfl, hd⟩ := hnone k hm
      have hw := (hc.mapped (pageOf a) k trivial hm).2
      rw [if_neg (by simp [hd])] at hw
      simp [Tlb.lookup, hw]
    · obtain ⟨hr, hw⟩ := hc.unmapped (pageOf a) fun k _ hm => hex ⟨k, hm⟩
      cases w <;> simp [Tlb.lookup, hr, hw]

-- ════════════════════════════════════════════════════════════════════════
-- Runs of writes
-- ════════════════════════════════════════════════════════════════════════

theorem powerOnTlb_coherent : Coherent powerOnTlb where
  unmapped _ _ := ⟨rfl, rfl⟩
  mapped p k _ hm := by
    obtain ⟨i, s⟩ := k
    cases s <;> exact absurd rfl hm.1

theorem powerOnTlb_allShaped : AllShaped powerOnTlb.entries := by
  rintro ⟨i, s⟩ hv
  cases s <;> exact absurd rfl hv

theorem tlbWrites_coherent (ws : List TlbWriteOp) (t : Tlb) (hc : Coherent t)
    (hshape : AllShaped t.entries)
    (h : ∀ e ∈ Runs.visited writeEntries t.entries ws, Apart e ∧ StopsShort e) :
    ∃ u, ws.foldlM tlbWrite t = some u ∧ u.entries = Runs.runFrom writeEntries t.entries ws ∧
      Coherent u ∧ AllShaped u.entries := by
  induction ws generalizing t with
  | nil => exact ⟨t, rfl, rfl, hc, hshape⟩
  | cons w ws ih =>
    have hnow := h t.entries (Runs.start_mem_visited _ _ _)
    have hrest : ∀ e ∈ Runs.visited writeEntries (writeEntries t.entries w) ws,
        Apart e ∧ StopsShort e := fun e he => h e (List.mem_cons_of_mem _ he)
    have hnext := hrest _ (Runs.start_mem_visited _ _ _)
    obtain ⟨u, hu, hent, hcu⟩ :=
      tlbWrite_coherent w hc hshape hnow.1 hnow.2 hnext.1 hnext.2
    obtain ⟨u', hu', hent', hcu', hshape'⟩ :=
      ih u hcu (hent ▸ allShaped_write hshape w) (hent ▸ hrest)
    refine ⟨u', ?_, ?_, hcu', hshape'⟩
    · rw [List.foldlM_cons, hu]
      exact hu'
    · rw [hent', hent, Runs.runFrom_cons]

theorem TlbHalf.word_ne_zero (h : TlbHalf) (i : BitVec 32) : h.word i ≠ 0 := by
  simp [TlbHalf.word]

/-- From power on, writes that keep the valid ranges apart and short of the last address all
    end, and leave lookup tables that say of every page, and of every address, what the entries
    say. -/
theorem coherent_of_writes (ws : List TlbWriteOp)
    (h : ∀ e ∈ Runs.visited writeEntries powerOnTlb.entries ws, Apart e ∧ StopsShort e) :
    ∃ t, ws.foldlM tlbWrite powerOnTlb = some t ∧
      t.entries = Runs.runFrom writeEntries powerOnTlb.entries ws ∧
      Coherent t ∧
      (∀ p k, (halfOf t.entries k).Maps p → (t.lutW p ≠ 0 ↔ (halfOf t.entries k).d ≠ 0)) ∧
      Translates t.entries t := by
  obtain ⟨t, ht, hent, hc, hshape⟩ :=
    tlbWrites_coherent ws powerOnTlb powerOnTlb_coherent powerOnTlb_allShaped h
  refine ⟨t, ht, hent, hc, fun p k hm => ?_, hc.translates hshape⟩
  rw [(hc.mapped p k trivial hm).2]
  split
  · next hd => exact iff_of_true (TlbHalf.word_ne_zero _ _) hd
  · next hd => exact iff_of_false (fun h => h rfl) hd

/-- Two writes to entry 3: a dirty and a clean 4 KiB page, then a 64 KiB pair of pages. -/
def pagePairs : List TlbWriteOp :=
  [{ pc := 0x80001000, idx := 3, regs := fun
      | .entryLo0 => 0x00000107 | .entryLo1 => 0x00000143 | .entryHi => 0x00402000 | _ => 0 },
    { pc := 0x80001000, idx := 3, regs := fun
      | .entryLo0 => 0x00000107 | .entryLo1 => 0x00000547 | .entryHi => 0xD0000000
      | .pageMask => 0x0001E000 | _ => 0 }]

/-- Where only one entry is valid, only its own halves can meet. -/
theorem apart_of_entry {entries : Fin 32 → TlbEntry} (i : Fin 32)
    (hother : ∀ k : HalfIdx, k.1 ≠ i → (halfOf entries k).v = 0)
    (hclear : (entries i).even.v ≠ 0 → (entries i).odd.v ≠ 0 →
      (entries i).even.Clear (entries i).odd) : Apart entries := by
  have hone (k : HalfIdx) (hv : (halfOf entries k).v ≠ 0) : k.1 = i :=
    by_contra fun hk => hv (hother k hk)
  have hspans (he : (entries i).even.v ≠ 0) (ho : (entries i).odd.v ≠ 0) :=
    (clear_iff _ _).1 (hclear he ho)
  intro j k hjk hj hk
  obtain ⟨j, sj⟩ := j
  obtain ⟨k, sk⟩ := k
  obtain rfl : j = i := hone _ hj
  obtain rfl : k = j := hone _ hk
  cases sj with
  | even =>
    cases sk with
    | even => exact absurd rfl hjk
    | odd => exact hspans hj hk
  | odd =>
    cases sk with
    | even => exact fun a hodd heven => hspans hk hj a heven hodd
    | odd => exact absurd rfl hjk

theorem pagePairs_visited : ∀ e ∈ Runs.visited writeEntries powerOnTlb.entries pagePairs,
    (∀ k : HalfIdx, k.1 ≠ 3 → (halfOf e k).v = 0) ∧
      ((e 3).even.v ≠ 0 → (e 3).odd.v ≠ 0 → (e 3).even.Clear (e 3).odd) ∧ StopsShort e := by
  decide

theorem pagePairs_coherent :
    ∃ t, pagePairs.foldlM tlbWrite powerOnTlb = some t ∧
      t.entries = Runs.runFrom writeEntries powerOnTlb.entries pagePairs ∧
      Coherent t ∧
      (∀ p k, (halfOf t.entries k).Maps p → (t.lutW p ≠ 0 ↔ (halfOf t.entries k).d ≠ 0)) ∧
      Translates t.entries t :=
  coherent_of_writes pagePairs fun e he =>
    have ⟨hother, hclear, hshort⟩ := pagePairs_visited e he
    ⟨apart_of_entry 3 hother hclear, hshort⟩

end Mupen64plus
