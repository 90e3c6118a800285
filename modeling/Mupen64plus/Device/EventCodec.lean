import Mupen64plus.R4300.CountTranslation
import Mupen64plus.Device.Savestate

/-!
# The event queue in a savestate

`save_eventqueue_infos` and `load_eventqueue_infos`: loading inserts the saved events one by one
into an empty queue, and links SPECIAL_INT anew. The loop of the loader ends at a word that is
never a type, wherever it stands.

## Main definitions

- `DueSequence` — due times in order, that counts and COUNT show
- `Rebuilt` — the queue after a round trip
- `scanEvents` — the loop of the loader, with the bounds of the buffer

## Main results

- `loadEventqueueInfos_save` — a queue in due order is rebuilt
- `scanEvents_stops_iff` — the loop stays inside the buffer if it holds the end mark
-/

namespace Mupen64plus

open Codec DueQueue

-- ════════════════════
-- Queues in due order
-- ════════════════════

/-- Due times, in ticks from the present, of events that stand in due order. They lie within one
    period of the present and of whatever is overdue, and nothing is overdue by half a period. -/
structure DueSequence (count : BitVec 32) (timed : List Timed) : Prop where
  showing : Showing count 0 timed
  sorted : timed.Pairwise fun x y => x.due ≤ y.due
  recent : ∀ x ∈ timed, -2 ^ 31 < x.due
  period : ∀ x ∈ timed, ∀ y ∈ timed, y.due < min x.due 0 + 2 ^ 32

/-- The events of a queue are in due order at a COUNT. -/
def InDueOrder (count : BitVec 32) (q : InterruptQueue) : Prop :=
  ∃ timed : List Timed, timed.map (·.event) = q.events ∧ DueSequence count timed

/-- `cp0_next_interrupt` and `cp0_cycle_count` are those of the head of the queue. -/
def HeadCached (c : Cp0) : Prop :=
  ∀ e, c.q.events.head? = some e → c.nextInterrupt = e.count ∧ c.cycleCount = c.count - e.count

/-- A type of which no event has the end mark of the saved queue. -/
def IntType.Savable (type : IntType) : Prop := .ofCode type.code = type ∧ type.code ≠ 0xffffffff

theorem DueSequence.sublist {count : BitVec 32} {timed timed' : List Timed}
    (h : DueSequence count timed) (hsub : timed'.Sublist timed) : DueSequence count timed' where
  showing := h.showing.subset hsub.subset
  sorted := h.sorted.sublist hsub
  recent := fun x hx => h.recent x (hsub.subset hx)
  period := fun x hx y hy => h.period x (hsub.subset hx) y (hsub.subset hy)

/-- An event of the near future fits in. -/
theorem DueSequence.insert {count : BitVec 32} {timed : List Timed} {x : Timed}
    {p : Timed → Bool} (h : DueSequence count timed)
    (hx : x.event.count = count + BitVec.ofInt 32 (x.due - 0)) (hfuture : 0 ≤ x.due)
    (hhalf : x.due ≤ 2 ^ 31) (hp : ∀ y ∈ timed, p y = true ↔ x.due < y.due) :
    DueSequence count (insertFirst p x timed) := by
  have hall (y : Timed) (hy : y ∈ insertFirst p x timed) : y = x ∨ y ∈ timed :=
    mem_insertFirst.mp hy
  have hlow : ∀ y ∈ insertFirst p x timed, -2 ^ 31 < y.due := by
    intro y hy
    rcases hall y hy with rfl | hy
    · omega
    · exact h.recent y hy
  refine ⟨?_, ?_, hlow, ?_⟩
  · intro y hy
    rcases hall y hy with rfl | hy
    · exact hx
    · exact h.showing y hy
  · -- from a time before all of them, the due order is the order of the due times
    have hord : DueOrder (·.due) (-2 ^ 31) timed :=
      h.sorted.imp fun hle => max_le_max_right _ hle
    refine List.Pairwise.imp_of_mem (fun {y z} hy hz hyz => ?_) (hord.insertFirst hp)
    have hy : -2 ^ 31 < y.due := hlow y hy
    have hz : -2 ^ 31 < z.due := hlow z hz
    have hle : max y.due (-2 ^ 31) ≤ max z.due (-2 ^ 31) := hyz
    omega
  · intro y hy z hz
    have hylow := hlow y hy
    rcases hall z hz with rfl | hz
    · omega
    · have hzz := h.period z hz z hz
      rcases hall y hy with rfl | hy
      · omega
      · exact h.period y hy z hz

theorem headCached_refresh (c : Cp0) : HeadCached c.refresh := by
  intro e he
  rw [refresh_q] at he
  unfold Cp0.refresh
  cases hq : c.q.events with
  | nil => rw [hq] at he; cases he
  | cons first rest =>
    rw [hq] at he
    cases he
    exact ⟨rfl, rfl⟩

/-- The test of an insertion compares due times, from a base within reach of all of them. -/
theorem beforeEvent_iff_due {c : Cp0} {timed : List Timed} {base : ℤ}
    (hshow : Showing c.count 0 timed) (hbase : c.base = c.count + BitVec.ofInt 32 base)
    (hreach : ∀ x ∈ timed, base ≤ x.due ∧ x.due < base + 2 ^ 32) {x y : Timed} (hx : x ∈ timed)
    (hy : y ∈ timed) :
    beforeEvent c x.event.count y.event.count = true ↔ x.due < y.due := by
  have hdist (z : Timed) (hz : z ∈ timed) :
      ((z.event.count - c.base).toNat : ℤ) = z.due - base := by
    rw [hshow z hz, hbase, add_sub_add_left_eq_sub, sub_zero]
    exact CircularTime.toNat_ofInt_sub (hreach z hz).1 (hreach z hz).2
  have hdx := hdist x hx
  have hdy := hdist y hy
  simp only [beforeEvent, decide_eq_true_eq, BitVec.lt_def]
  omega

/-- The base that follows the head is within reach of all events behind it. -/
theorem exists_base {c : Cp0} {first : Timed} {rest : List Timed}
    (h : DueSequence c.count (first :: rest))
    (hcached : c.cycleCount = c.count - first.event.count) :
    ∃ base : ℤ, c.base = c.count + BitVec.ofInt 32 base ∧ -2 ^ 31 < base ∧
      (first.due ≤ 2 ^ 31 → base ≤ 0) ∧
        ∀ x ∈ first :: rest, base ≤ x.due ∧ x.due < base + 2 ^ 32 := by
  have hmem : first ∈ first :: rest := List.mem_cons_self
  have hfirst := h.showing first hmem
  have hrecent := h.recent first hmem
  have hperiod := h.period first hmem
  have hle : ∀ x ∈ first :: rest, first.due ≤ x.due := by
    intro x hx
    rcases List.mem_cons.mp hx with rfl | hx
    · exact le_rfl
    · exact List.rel_of_pairwise_cons h.sorted hx
  have hcycle : c.cycleCount = BitVec.ofInt 32 (-first.due) := by
    rw [hcached, hfirst, sub_zero, BitVec.ofInt_neg, sub_add_cancel_left]
  -- the sign of the cycle count tells whether the head is overdue
  have hoverdue : first.due < 0 → 0 < c.cycleCount.toInt := by
    intro hneg
    rw [hcycle, CircularTime.toInt_ofInt_of_window (by omega) (by omega)]
    omega
  have hahead : 0 ≤ first.due → first.due ≤ 2 ^ 31 → ¬0 < c.cycleCount.toInt := by
    intro hpos hhalf
    rw [hcycle, CircularTime.toInt_ofInt_of_window (by omega) (by omega)]
    omega
  unfold Cp0.base
  split
  · next hpos =>
    refine ⟨first.due, ?_, hrecent, fun hhalf => ?_, fun x hx => ⟨hle x hx, ?_⟩⟩
    · rw [hcycle, BitVec.ofInt_neg, sub_neg_eq_add]
    · by_contra hnot
      exact hahead (by omega) hhalf hpos
    · have hx := hperiod x hx
      omega
  · next hpos =>
    have hnonneg : 0 ≤ first.due := by
      by_contra hneg
      exact hpos (hoverdue (by omega))
    refine ⟨0, by simp, by decide, fun _ => le_rfl, fun x hx => ⟨?_, ?_⟩⟩
    · exact hnonneg.trans (hle x hx)
    · have hx := hperiod x hx
      omega

-- ════════════════════
-- Inserting the saved events
-- ════════════════════

/-- The body of the loop of `load_eventqueue_infos`. -/
def addSaved (c : Cp0) (e : InterruptEvent) : Cp0 := addInterruptEventCount c e.type e.count

/-- The loop runs over the saved events and ends at the mark. -/
theorem loadEvents_put (events : List InterruptEvent) (rest : List (BitVec 8)) (c : Cp0)
    (hsavable : ∀ e ∈ events, e.type.Savable) {fuel : ℕ} (hfuel : events.length < fuel) :
    loadEvents fuel (events.flatMap (fun e => u32.put e.type.code ++ u32.put e.count) ++
      (u32.put 0xffffffff ++ rest)) c = events.foldl addSaved c := by
  induction events generalizing fuel c with
  | nil =>
    cases fuel with
    | zero => cases hfuel
    | succ fuel =>
      rw [List.flatMap_nil, List.nil_append, loadEvents, u32.get_put, if_pos rfl]
      rfl
  | cons e events ih =>
    cases fuel with
    | zero => cases hfuel
    | succ fuel =>
      obtain ⟨htype, hmark⟩ := hsavable e List.mem_cons_self
      rw [List.flatMap_cons, List.append_assoc, List.append_assoc, loadEvents, u32.get_put,
        if_neg hmark, htype]
      have hdrop : ∀ l, (u32.put e.type.code ++ l).drop 4 = l := u32.drop_put e.type.code
      have hdrop' : ∀ l, (u32.put e.type.code ++ (u32.put e.count ++ l)).drop 8 = l := by
        intro l
        change List.drop (4 + 4) _ = l
        rw [← List.drop_drop, hdrop]
        exact u32.drop_put e.count l
      rw [hdrop, hdrop', u32.get_put, List.foldl_cons]
      exact ih _ (fun f hf => hsavable f (List.mem_cons_of_mem e hf)) (Nat.lt_of_succ_lt_succ hfuel)

/-- What the insertions keep: the events so far, and a head that is cached. -/
structure Inserted (start c : Cp0) (timed : List Timed) : Prop where
  events : c.q.events = timed.map (·.event)
  cached : HeadCached c
  regs : c.regs = start.regs

/-- **Step lemma**: the next event in due order goes to the end. -/
theorem Inserted.add {start c : Cp0} {timed : List Timed} {x : Timed}
    (h : Inserted start c timed) (hseq : DueSequence start.count (timed ++ [x]))
    (hroom : timed.length < poolCapacity) : Inserted start (addSaved c x.event) (timed ++ [x]) := by
  have hcount : c.count = start.count := congrFun h.regs .count
  have hlen : c.q.events.length < poolCapacity := by
    rw [h.events, List.length_map]
    exact hroom
  have hlink : linkEvent c x.event = c.q.events ++ [x.event] := by
    rw [linkEvent_eq_insertFirst]
    refine insertFirst_of_none x.event fun e he => ?_
    rw [h.events] at he
    obtain ⟨y, hy, rfl⟩ := List.mem_map.mp he
    cases timed with
    | nil => cases hy
    | cons first rest =>
      rw [← hcount] at hseq
      have hhead : c.q.events.head? = some first.event := by rw [h.events]; rfl
      obtain ⟨base, hbase, -, -, hreach⟩ := exists_base hseq (h.cached _ hhead).2
      rw [← Bool.not_eq_true, beforeEvent_iff_due hseq.showing hbase hreach (by simp)
        (List.mem_append_left [x] hy), not_lt]
      exact (List.pairwise_append.mp hseq.sorted).2.2 y hy x (List.mem_singleton_self x)
  refine ⟨?_, ?_, ?_⟩
  · rw [addSaved, addInterruptEventCount_events, if_pos hlen, hlink, h.events, List.map_append]
    rfl
  · rw [addSaved, addInterruptEventCount, dif_pos hlen]
    exact headCached_refresh _
  · rw [addSaved, addInterruptEventCount_regs, h.regs]

/-- **Run lemma**: events in due order come out of the loop in that order. -/
theorem Inserted.foldl {start c : Cp0} {timed more : List Timed} (h : Inserted start c timed)
    (hseq : DueSequence start.count (timed ++ more))
    (hroom : (timed ++ more).length ≤ poolCapacity) :
    Inserted start ((more.map (·.event)).foldl addSaved c) (timed ++ more) := by
  induction more generalizing c timed with
  | nil => simpa using h
  | cons x more ih =>
    have happ : timed ++ x :: more = (timed ++ [x]) ++ more := by simp
    rw [happ] at hseq hroom ⊢
    rw [List.map_cons, List.foldl_cons]
    have hlen : timed.length < poolCapacity := by
      simp only [List.length_append, List.length_cons] at hroom
      omega
    exact ih (h.add (hseq.sublist (List.sublist_append_left _ _)) hlen) hseq hroom

-- ════════════════════
-- SPECIAL_INT
-- ════════════════════

/-- The pool has a node for SPECIAL_INT once the saved one is gone. -/
def SpecialFits (q : InterruptQueue) : Prop :=
  .special ∈ q.events.map (·.type) ∨ q.events.length < poolCapacity

/-- The CP0 after a round trip of its queue: the other events in their order, SPECIAL_INT computed
    from COUNT, and the head cached. -/
structure Rebuilt (c : Cp0) (q : InterruptQueue) (c' : Cp0) : Prop where
  others : c'.q.events.filter (·.type != .special) = q.events.filter (·.type != .special)
  special : SpecialFits q →
    c'.q.events.filter (·.type == .special) = [⟨.special, specialCount c.count⟩]
  cached : HeadCached c'
  regs : c'.regs = c.regs

/-- With one event of a type, taking it out leaves the other types. -/
theorem eraseP_type_eq_filter {α : Type*} {f : α → IntType} {type : IntType} {l : List α}
    (h : (l.map f).Nodup) : l.eraseP (f · == type) = l.filter (f · != type) := by
  induction l with
  | nil => rfl
  | cons x l ih =>
    rw [List.map_cons, List.nodup_cons] at h
    by_cases hx : f x = type
    · rw [List.eraseP_cons_of_pos (by simpa using hx), List.filter_cons_of_neg (by simpa using hx)]
      refine (List.filter_eq_self.mpr fun y hy => ?_).symm
      rw [bne_iff_ne]
      intro hfy
      exact h.1 (List.mem_map.mpr ⟨y, hy, hfy.trans hx.symm⟩)
    · rw [List.eraseP_cons_of_neg (by simpa using hx), List.filter_cons_of_pos (by simpa using hx),
        ih h.2]

section RoundTrip

variable {c : Cp0} {q : InterruptQueue} {timed : List Timed}

/-- CP0 behind the loop, once SPECIAL_INT is taken out. -/
def withoutSpecial (c : Cp0) (q : InterruptQueue) : Cp0 :=
  let c := q.events.foldl addSaved { c with q := clearQueue }
  { c with q := removeEvent c.q .special }

theorem loadEventqueueInfos_put (hsavable : ∀ e ∈ q.events, e.type.Savable)
    (rest : List (BitVec 8)) :
    loadEventqueueInfos c (saveEventqueueInfos q ++ rest) =
      addInterruptEventCount (withoutSpecial c q) .special
        (specialCount (withoutSpecial c q).count) := by
  have hfuel : q.events.length < 128 := Nat.lt_of_le_of_lt q.bounded (by decide)
  unfold loadEventqueueInfos saveEventqueueInfos
  rw [List.append_assoc, loadEvents_put q.events rest _ hsavable hfuel]
  rfl

theorem inserted_saved (htimed : timed.map (·.event) = q.events)
    (hseq : DueSequence c.count timed) :
    Inserted { c with q := clearQueue } (q.events.foldl addSaved { c with q := clearQueue })
      timed := by
  have hstart : Inserted { c with q := clearQueue } { c with q := clearQueue } [] :=
    ⟨rfl, nofun, rfl⟩
  have hlen : timed.length ≤ poolCapacity := by
    rw [← List.length_map (·.event), htimed]
    exact q.bounded
  rw [← htimed]
  exact hstart.foldl hseq hlen

theorem withoutSpecial_events (htimed : timed.map (·.event) = q.events)
    (hseq : DueSequence c.count timed) (hunique : (q.events.map (·.type)).Nodup) :
    (withoutSpecial c q).q.events = q.events.filter (·.type != .special) := by
  have hloaded := (inserted_saved htimed hseq).events
  unfold withoutSpecial
  rw [removeEvent_events, hloaded, htimed]
  exact eraseP_type_eq_filter hunique

theorem withoutSpecial_regs (htimed : timed.map (·.event) = q.events)
    (hseq : DueSequence c.count timed) : (withoutSpecial c q).regs = c.regs :=
  (inserted_saved htimed hseq).regs

/-- Taking SPECIAL_INT out of a full queue makes room for it. -/
theorem length_withoutSpecial (hfits : SpecialFits q) :
    (q.events.filter (·.type != .special)).length < poolCapacity := by
  have hbound := q.bounded
  have hle := List.length_filter_le (fun e : InterruptEvent => e.type != .special) q.events
  rcases hfits with hmem | hroom
  · obtain ⟨e, he, htype⟩ := List.mem_map.mp hmem
    have hlt : (q.events.filter (·.type != .special)).length < q.events.length :=
      List.length_filter_lt_length_iff_exists.mpr ⟨e, he, by simpa using htype⟩
    omega
  · omega

theorem filter_special_bne (events : List InterruptEvent) :
    (events.filter (·.type != .special)).filter (·.type == .special) = [] := by
  rw [List.filter_filter, List.filter_eq_nil_iff]
  intro e _
  simp

/-- SPECIAL_INT with its due time. -/
def specialTimed (count : BitVec 32) : Timed :=
  ⟨⟨.special, specialCount count⟩, specialDue count⟩

theorem specialTimed_count (count : BitVec 32) :
    (specialTimed count).event.count =
      count + BitVec.ofInt 32 ((specialTimed count).due - 0) := by
  obtain ⟨hone, -⟩ := specialDue_bounds count
  have hdue : specialDue count = ((specialCount count - count).toNat : ℤ) := by
    unfold specialDue remaining at hone ⊢
    split
    · rfl
    · next hlong =>
      rw [if_neg hlong] at hone
      omega
  change specialCount count = count + BitVec.ofInt 32 (specialDue count - 0)
  rw [hdue, ← zero_add ((specialCount count - count).toNat : ℤ), ofInt_toNat, add_sub_cancel]

/-- SPECIAL_INT is compared with the other events by due time, where the next event is due within
    half a period. -/
theorem beforeEvent_special_iff (htimed : timed.map (·.event) = q.events)
    (hseq : DueSequence c.count timed) (hsoon : ∀ x ∈ timed.head?, x.due ≤ 2 ^ 31) {y : Timed}
    (hy : y ∈ timed) :
    beforeEvent (withoutSpecial c q) (specialCount c.count) y.event.count = true ↔
      (specialTimed c.count).due < y.due := by
  have hcount : (withoutSpecial c q).count = c.count :=
    congrFun (withoutSpecial_regs htimed hseq) .count
  obtain ⟨hone, hhalf⟩ := specialDue_bounds c.count
  cases timed with
  | nil => cases hy
  | cons first rest =>
    have hloaded := inserted_saved htimed hseq
    have hhead : (q.events.foldl addSaved { c with q := clearQueue }).q.events.head? =
        some first.event := by rw [hloaded.events]; rfl
    have hcached : (withoutSpecial c q).cycleCount =
        (withoutSpecial c q).count - first.event.count := (hloaded.cached _ hhead).2
    rw [← hcount] at hseq
    obtain ⟨base, hbase, hlow, hnow, hreach⟩ := exists_base hseq hcached
    have hpast := hnow (hsoon first rfl)
    have hshow : Showing (withoutSpecial c q).count 0
        (specialTimed c.count :: first :: rest) := by
      intro z hz
      rcases List.mem_cons.mp hz with rfl | hz
      · rw [hcount]
        exact specialTimed_count c.count
      · exact hseq.showing z hz
    have hreach' : ∀ z ∈ specialTimed c.count :: first :: rest,
        base ≤ z.due ∧ z.due < base + 2 ^ 32 := by
      intro z hz
      rcases List.mem_cons.mp hz with rfl | hz
      · change base ≤ specialDue c.count ∧ specialDue c.count < base + 2 ^ 32
        omega
      · exact hreach z hz
    exact beforeEvent_iff_due hshow hbase hreach' List.mem_cons_self
      (List.mem_cons_of_mem (specialTimed c.count) hy)

/-- SPECIAL_INT is linked by its due time: where the next event is due within half a period, the
    whole queue is in due order again. -/
theorem inDueOrder_special (htimed : timed.map (·.event) = q.events)
    (hseq : DueSequence c.count timed) (hunique : (q.events.map (·.type)).Nodup)
    (hfits : SpecialFits q) (hsoon : ∀ x ∈ timed.head?, x.due ≤ 2 ^ 31) :
    InDueOrder c.count (addInterruptEventCount (withoutSpecial c q) .special
      (specialCount c.count)).q := by
  have hevents := withoutSpecial_events htimed hseq hunique
  have hroom : (withoutSpecial c q).q.events.length < poolCapacity := by
    rw [hevents]
    exact length_withoutSpecial hfits
  obtain ⟨hone, hhalf⟩ := specialDue_bounds c.count
  have hothers : (timed.filter (·.event.type != .special)).map (·.event) =
      (withoutSpecial c q).q.events := by
    rw [hevents, ← htimed, List.filter_map]
    rfl
  have hsub : DueSequence c.count (timed.filter (·.event.type != .special)) :=
    hseq.sublist List.filter_sublist
  refine ⟨insertFirst (fun n => beforeEvent (withoutSpecial c q) (specialCount c.count)
    n.event.count) (specialTimed c.count) (timed.filter (·.event.type != .special)), ?_, ?_⟩
  · rw [addInterruptEventCount_events, if_pos hroom, linkEvent_eq_insertFirst, ← hothers]
    exact map_insertFirst (·.event)
      (fun n => beforeEvent (withoutSpecial c q) (specialCount c.count) n.count)
      (specialTimed c.count) _
  · have hfuture : 0 ≤ (specialTimed c.count).due := by
      change 0 ≤ specialDue c.count
      omega
    exact hsub.insert (specialTimed_count c.count) hfuture hhalf fun y hy =>
      beforeEvent_special_iff htimed hseq hsoon (List.mem_filter.mp hy).1

/-- **The round trip** of a queue in due order that holds at most one event of each type, whatever
    the CP0 held before apart from its registers, and whatever follows the saved queue. -/
theorem loadEventqueueInfos_save (htimed : timed.map (·.event) = q.events)
    (hseq : DueSequence c.count timed) (hunique : (q.events.map (·.type)).Nodup)
    (hsavable : ∀ e ∈ q.events, e.type.Savable) (rest : List (BitVec 8)) :
    Rebuilt c q (loadEventqueueInfos c (saveEventqueueInfos q ++ rest)) ∧
      (SpecialFits q → (∀ x ∈ timed.head?, x.due ≤ 2 ^ 31) →
        InDueOrder c.count (loadEventqueueInfos c (saveEventqueueInfos q ++ rest)).q) := by
  have hloaded := inserted_saved htimed hseq
  have hevents := withoutSpecial_events htimed hseq hunique
  have hregs := withoutSpecial_regs htimed hseq
  have hcount : (withoutSpecial c q).count = c.count := congrFun hregs .count
  rw [loadEventqueueInfos_put hsavable, hcount]
  refine ⟨?_, inDueOrder_special htimed hseq hunique⟩
  by_cases hroom : (withoutSpecial c q).q.events.length < poolCapacity
  · have hlink : (addInterruptEventCount (withoutSpecial c q) .special
        (specialCount c.count)).q.events = linkEvent (withoutSpecial c q)
          ⟨.special, specialCount c.count⟩ := by
      rw [addInterruptEventCount_events, if_pos hroom]
    rw [linkEvent_eq_insertFirst, hevents] at hlink
    refine ⟨?_, fun _ => ?_, ?_, ?_⟩
    · rw [hlink, filter_insertFirst _ (by rfl), List.filter_filter]
      simp
    · have hperm := (insertFirst_perm (fun n => beforeEvent (withoutSpecial c q)
        (specialCount c.count) n.count) ⟨.special, specialCount c.count⟩
          (q.events.filter (·.type != .special))).filter (·.type == .special)
      rw [List.filter_cons_of_pos (by rfl), filter_special_bne] at hperm
      rw [hlink]
      exact List.perm_singleton.mp hperm
    · rw [addInterruptEventCount, dif_pos hroom]
      exact headCached_refresh _
    · rw [addInterruptEventCount_regs, hregs]
  · -- a pool full of other events: SPECIAL_INT is dropped
    have hfull : ¬(q.events.filter (·.type != .special)).length < poolCapacity := by
      rw [← hevents]
      exact hroom
    have hsame : addInterruptEventCount (withoutSpecial c q) .special (specialCount c.count) =
        withoutSpecial c q := by
      rw [addInterruptEventCount, dif_neg hroom]
    have hall : q.events.filter (·.type != .special) = q.events := by
      have hbound := q.bounded
      have hle := List.length_filter_le (fun e : InterruptEvent => e.type != .special) q.events
      exact List.filter_sublist.eq_of_length (by omega)
    rw [hsame]
    refine ⟨?_, fun hfits => absurd (length_withoutSpecial hfits) hfull, ?_, hregs⟩
    · rw [hevents, List.filter_filter]
      simp
    · intro e he
      rw [hevents, hall, ← htimed, ← hloaded.events] at he
      exact hloaded.cached e he

end RoundTrip

/-- A queue with two overdue events of the same count, and COMPARE_INT more than half a period
    ahead. -/
def savedTimed : List Timed :=
  [⟨⟨.vi, 0x4ff0⟩, -16⟩, ⟨⟨.pi, 0x4ff0⟩, -16⟩, ⟨⟨.si, 0x5900⟩, 0x900⟩,
    ⟨⟨.special, 0x80000000⟩, 0x7fffb000⟩, ⟨⟨.compare, 0xc0000000⟩, 0xbfffb000⟩]

def savedQueue : InterruptQueue := ⟨savedTimed.map (·.event), by decide⟩

/-- A session whose cycle count and queue have nothing to do with the saved queue. -/
def staleCp0 : Cp0 :=
  { enabledCore.cp0.set .count 0x5000 with
    cycleCount := 0x12345678, q := ⟨[⟨.ai, 7⟩], by decide⟩ }

theorem savedQueue_dueSequence : DueSequence staleCp0.count savedTimed where
  showing := by
    unfold Showing
    decide
  sorted := by decide
  recent := by decide
  period := by decide

theorem loadEventqueueInfos_savedQueue :
    Rebuilt staleCp0 savedQueue
        (loadEventqueueInfos staleCp0 (saveEventqueueInfos savedQueue ++ [0])) ∧
      (SpecialFits savedQueue → (∀ x ∈ savedTimed.head?, x.due ≤ 2 ^ 31) →
        InDueOrder staleCp0.count
          (loadEventqueueInfos staleCp0 (saveEventqueueInfos savedQueue ++ [0])).q) := by
  refine loadEventqueueInfos_save rfl savedQueue_dueSequence (by decide) ?_ [0]
  unfold IntType.Savable
  decide

-- ════════════════════
-- The bounds of the buffer
-- ════════════════════

/-- How the loop of `load_eventqueue_infos` goes: it ends at the mark, or reads a word that does
    not lie in the buffer. -/
inductive Scan where
  | stopped (c : Cp0)
  | outside
  | running

/-- The loop of `load_eventqueue_infos` from an offset, with the bounds of each read. -/
def scanEvents (buf : List (BitVec 8)) : ℕ → ℕ → Cp0 → Scan
  | 0, _, _ => .running
  | fuel + 1, len, c =>
    if buf.length < len + 4 then .outside
    else if u32.get (buf.drop len) = 0xffffffff then .stopped c
    else if buf.length < len + 8 then .outside
    else
      scanEvents buf fuel (len + 8)
        (addInterruptEventCount c (.ofCode (u32.get (buf.drop len)))
          (u32.get (buf.drop (len + 4))))

/-- The end mark stands at a multiple of eight inside the buffer. -/
def Marked (buf : List (BitVec 8)) (k : ℕ) : Prop :=
  8 * k + 4 ≤ buf.length ∧ u32.get (buf.drop (8 * k)) = 0xffffffff

/-- A loop that ends inside the buffer has come to a mark. -/
theorem exists_marked_of_stopped {buf : List (BitVec 8)} {fuel : ℕ} {k : ℕ} {c c' : Cp0}
    (h : scanEvents buf fuel (8 * k) c = .stopped c') : ∃ j, Marked buf j := by
  induction fuel generalizing k c with
  | zero => cases h
  | succ fuel ih =>
    rw [scanEvents] at h
    split at h
    · cases h
    · next hword =>
      split at h
      · next hmark => exact ⟨k, by omega, hmark⟩
      · split at h
        · cases h
        · exact ih (k := k + 1) h

/-- In front of a mark the loop reads inside the buffer, and does what `loadEvents` does. -/
theorem scanEvents_of_marked {buf : List (BitVec 8)} {n : ℕ} {k : ℕ} {c : Cp0} {fuel : ℕ}
    (h : Marked buf (k + n)) (hfuel : n < fuel) :
    scanEvents buf (n + 1) (8 * k) c = .stopped (loadEvents fuel (buf.drop (8 * k)) c) := by
  induction n generalizing k c fuel with
  | zero =>
    obtain ⟨hword, hmark⟩ := h
    rw [Nat.add_zero] at hword hmark
    obtain ⟨fuel, rfl⟩ : ∃ m, fuel = m + 1 := ⟨fuel - 1, by omega⟩
    rw [scanEvents, loadEvents, if_neg (by omega), if_pos hmark, if_pos hmark]
  | succ n ih =>
    have hword := h.1
    obtain ⟨fuel, rfl⟩ : ∃ m, fuel = m + 1 := ⟨fuel - 1, by omega⟩
    rw [scanEvents, loadEvents, if_neg (by omega)]
    split
    · rfl
    · have hnext : Marked buf (k + 1 + n) := by
        rw [Nat.add_right_comm]
        exact h
      rw [if_neg (by omega), List.drop_drop, List.drop_drop, show 8 * k + 8 = 8 * (k + 1) by ring]
      exact ih hnext (by omega)

/-- The loop stops without reading outside the buffer. -/
def StopsInside (c : Cp0) (buf : List (BitVec 8)) : Prop :=
  ∃ fuel, scanEvents buf fuel 0 c = .stopped (loadEvents 128 buf c)

/-- **Malformed buffers**: the loop stops inside a buffer of 1024 bytes exactly if one of the words
    at its multiples of eight is the end mark. -/
theorem stopsInside_iff (c : Cp0) (buf : Fin 1024 → BitVec 8) :
    StopsInside c (List.ofFn buf) ↔
      ∃ k < 128, u32.get ((List.ofFn buf).drop (8 * k)) = 0xffffffff := by
  have hlen : (List.ofFn buf).length = 1024 := List.length_ofFn
  constructor
  · rintro ⟨fuel, h⟩
    obtain ⟨k, hword, hmark⟩ := exists_marked_of_stopped (k := 0) h
    rw [hlen] at hword
    exact ⟨k, by omega, hmark⟩
  · rintro ⟨k, hk, hmark⟩
    have hmarked : Marked (List.ofFn buf) (0 + k) := by
      rw [Nat.zero_add]
      exact ⟨by rw [hlen]; omega, hmark⟩
    have hstop := scanEvents_of_marked (c := c) hmarked hk
    rw [Nat.mul_zero, List.drop_zero] at hstop
    exact ⟨k + 1, hstop⟩

/-- A buffer of zeros has no mark. -/
theorem scanEvents_zeros :
    ¬∀ (c : Cp0) (buf : Fin 1024 → BitVec 8), StopsInside c (List.ofFn buf) := by
  intro h
  obtain ⟨fuel, hstop⟩ := h staleCp0 fun _ => 0
  obtain ⟨k, hword, hmark⟩ := exists_marked_of_stopped (k := 0) hstop
  have hzero : ∀ i, ((List.ofFn fun _ : Fin 1024 => (0 : BitVec 8)).drop (8 * k)).getD i 0 = 0 := by
    intro i
    rw [List.ofFn_const, List.drop_replicate, List.getD_eq_getElem?_getD,
      List.getElem?_replicate]
    split <;> rfl
  have hget : u32.get ((List.ofFn fun _ : Fin 1024 => (0 : BitVec 8)).drop (8 * k)) = 0 := by
    simp only [u32, hzero]
    decide
  rw [hget] at hmark
  exact absurd hmark (by decide)

end Mupen64plus
