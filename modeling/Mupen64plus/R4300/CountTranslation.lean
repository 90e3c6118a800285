import Mupen64plus.R4300.TimerOrder
import Mathlib.Data.Nat.Bitwise

/-!
# Writes to COUNT and the event queue

`translate_event_queue` moves the queue to a new value of COUNT: it takes COMPARE_INT and
SPECIAL_INT out, rewrites the counts of the other events in place, and inserts the two again.

## Main definitions

- `Translated` — what a translation should leave
- `Translatable` — the condition, on the state before it

## Main results

- `remaining_rebase` — a rewritten event keeps its remaining time
- `others_translateEventQueue` — the other events keep their order and their remaining times
- `translated_iff` — a translation leaves what it should exactly from a translatable state
-/

namespace Mupen64plus

open DueQueue

/-- The queue without its timers. -/
def withoutTimers (q : InterruptQueue) : InterruptQueue :=
  removeEvent (removeEvent q .compare) .special

/-- The event moved from one value of COUNT to another. -/
def InterruptEvent.rebase (e : InterruptEvent) (count base : BitVec 32) : InterruptEvent :=
  { e with count := e.count - count + base }

def InterruptEvent.isTimer (e : InterruptEvent) : Bool := e.type == .compare || e.type == .special

/-- The events that are not timers, with their remaining times as COUNT shows them. -/
def otherTimes (count : BitVec 32) (q : InterruptQueue) : List (IntType × BitVec 32) :=
  (q.events.filter (!·.isTimer)).map fun e => (e.type, e.count - count)

/-- What `translate_event_queue` should leave for the new value `base`. -/
structure Translated (c c' : Cp0) (base : BitVec 32) : Prop where
  count : c'.count = base
  others : otherTimes base c'.q = otherTimes c.count c.q
  reinserted : c'.q.events.Perm
    (⟨.compare, c.regs .compare⟩ :: ⟨.special, specialCount base⟩ ::
      (withoutTimers c.q).events.map (·.rebase c.count base))
  timer : TimerOrdered base (c.regs .compare) c'.q
  next : ∃ e ∈ c'.q.events.head?, c'.nextInterrupt = e.count ∧ c'.cycleCount = base - e.count

/-- The cycles until SPECIAL_INT. -/
def specialDue (base : BitVec 32) : ℤ := remaining base (specialCount base)

/-- The cycles until the next interrupt, once SPECIAL_INT is queued. -/
def nextDue (c : Cp0) (base : BitVec 32) : ℤ :=
  match (withoutTimers c.q).events with
  | [] => specialDue base
  | e :: _ => min (specialDue base) (remaining c.count e.count)

/-- The comparison base of the re-arming: the next interrupt, where it is due within
    `count_per_op` cycles. -/
def rearmBase (next : ℤ) (countPerOp : BitVec 32) : ℤ :=
  if 0 < (BitVec.ofInt 32 (-next) + countPerOp).toInt then next else remaining 0 countPerOp

/-- What a translation needs of the state before it. -/
structure Translatable (c : Cp0) (base : BitVec 32) : Prop where
  single : ∀ e ∈ (withoutTimers c.q).events, e.type ≠ .compare
  room : (withoutTimers c.q).events.length + 2 ≤ poolCapacity
  inOrder : DueOrder (dueIn c.count) 0 (withoutTimers c.q).events
  special : ∀ e ∈ (withoutTimers c.q).events, -max c.cycleCount.toInt 0 ≤ dueIn c.count e
  compare : Fits id (2 ^ 31) (rearmBase (nextDue c base) c.countPerOp)
    (cyclesUntil base (c.regs .compare))
    (specialDue base :: (withoutTimers c.q).events.map (dueIn c.count))

-- ════════════════════════════════════════════════════════════════════════
-- Events that are moved
-- ════════════════════════════════════════════════════════════════════════

theorem rebase_sub (e : InterruptEvent) (count base : BitVec 32) :
    (e.rebase count base).count - base = e.count - count :=
  BitVec.add_sub_cancel _ _

theorem remaining_rebase (e : InterruptEvent) (count base : BitVec 32) :
    remaining base (e.rebase count base).count = remaining count e.count := by
  rw [remaining, remaining, rebase_sub]

theorem dueIn_rebase {e : InterruptEvent} (h : e.type ≠ .compare) (count base : BitVec 32) :
    dueIn base (e.rebase count base) = dueIn count e := by
  have h' : (e.rebase count base).type ≠ .compare := h
  rw [dueIn, dueIn, if_neg h, if_neg h', remaining_rebase]

theorem specialCount_toNat (base : BitVec 32) :
    (specialCount base).toNat = if base.toNat < 2 ^ 31 then 2 ^ 31 else 0 := by
  have hbase := base.isLt
  have hand : base &&& 0x80000000 = if base.toNat < 2 ^ 31 then 0 else 0x80000000 := by
    apply BitVec.eq_of_toNat_eq
    have hbit : base.toNat &&& 2 ^ 31 = (base.toNat.testBit 31).toNat * 2 ^ 31 :=
      Nat.and_two_pow base.toNat 31
    rw [Nat.testBit_eq_decide_div_mod_eq] at hbit
    have hlhs : (base &&& 0x80000000).toNat = base.toNat &&& 2 ^ 31 := BitVec.toNat_and _ _
    rw [hlhs, hbit]
    split
    · next hlt =>
      rw [decide_eq_false (by omega)]
      rfl
    · next hge =>
      rw [decide_eq_true (by omega)]
      rfl
  rw [specialCount, hand]
  split <;> rfl

/-- SPECIAL_INT is due after 1 to `2 ^ 31` cycles. -/
theorem specialDue_bounds (base : BitVec 32) :
    1 ≤ specialDue base ∧ specialDue base ≤ 2 ^ 31 := by
  have hspecial := specialCount_toNat base
  have hbase := base.isLt
  unfold specialDue remaining
  rw [BitVec.toNat_sub, hspecial]
  split <;> split <;> omega

-- ════════════════════════════════════════════════════════════════════════
-- The other events
-- ════════════════════════════════════════════════════════════════════════

theorem filter_removeEvent {type : IntType} (h : ∀ e : InterruptEvent, e.type = type → e.isTimer)
    (q : InterruptQueue) :
    (removeEvent q type).events.filter (!·.isTimer) = q.events.filter (!·.isTimer) := by
  rw [removeEvent_events]
  induction q.events with
  | nil => rfl
  | cons e l ih =>
    by_cases he : e.type = type
    · have hp : (e.type == type) = true := beq_iff_eq.2 he
      have htimer := h e he
      rw [List.eraseP_cons, hp, List.filter_cons_of_neg (by simp [htimer])]
      rfl
    · have hp : (e.type == type) = false := beq_eq_false_iff_ne.2 he
      rw [List.eraseP_cons, hp]
      simp only [cond_false, List.filter_cons, ih]

theorem filter_withoutTimers (q : InterruptQueue) :
    (withoutTimers q).events.filter (!·.isTimer) = q.events.filter (!·.isTimer) := by
  unfold withoutTimers
  rw [filter_removeEvent (fun e he => by simp [InterruptEvent.isTimer, he]),
    filter_removeEvent (fun e he => by simp [InterruptEvent.isTimer, he])]

theorem filter_insertFirst_timer {p : InterruptEvent → Bool} {e : InterruptEvent}
    (he : e.isTimer = true) (l : List InterruptEvent) :
    (insertFirst p e l).filter (!·.isTimer) = l.filter (!·.isTimer) := by
  induction l with
  | nil => simp [he]
  | cons n l ih =>
    rw [insertFirst_cons]
    split
    · rw [List.filter_cons_of_neg (by simp [he])]
    · rw [List.filter_cons, List.filter_cons, ih]

theorem filter_addTimer (c : Cp0) {type : IntType} (count : BitVec 32)
    (h : (⟨type, count⟩ : InterruptEvent).isTimer = true) :
    (addInterruptEventCount c type count).q.events.filter (!·.isTimer) =
      c.q.events.filter (!·.isTimer) := by
  rw [addInterruptEventCount_events]
  split
  · rw [linkEvent_eq_insertFirst, filter_insertFirst_timer h]
  · rfl

/-- The state of `translate_event_queue` before SPECIAL_INT is inserted. -/
def rebased (c : Cp0) (base : BitVec 32) : Cp0 :=
  { c with q := (withoutTimers c.q).rebase c.count base }.set .count base

/-- The state before COMPARE_INT is inserted. -/
def specialArmed (c : Cp0) (base : BitVec 32) : Cp0 :=
  addInterruptEventCount (rebased c base) .special (specialCount base)

theorem rebased_events (c : Cp0) (base : BitVec 32) :
    (rebased c base).q.events = (withoutTimers c.q).events.map (·.rebase c.count base) := rfl

theorem rebased_count (c : Cp0) (base : BitVec 32) : (rebased c base).count = base := rfl

theorem specialArmed_regs (c : Cp0) (base : BitVec 32) :
    (specialArmed c base).regs = Function.update c.regs .count base := by
  rw [specialArmed, addInterruptEventCount_regs]
  rfl

theorem specialArmed_count (c : Cp0) (base : BitVec 32) : (specialArmed c base).count = base := by
  rw [Cp0.count, specialArmed_regs, Function.update_self]

theorem translateEventQueue_eq (c : Cp0) (base : BitVec 32) :
    translateEventQueue c base = armCompare (specialArmed c base) (c.regs .compare) := by
  have hcompare : (specialArmed c base).regs .compare = c.regs .compare := by
    rw [specialArmed_regs]
    rfl
  rw [← hcompare]
  rfl

/-- The other events keep their order and their remaining times. -/
theorem others_translateEventQueue (c : Cp0) (base : BitVec 32) :
    otherTimes base (translateEventQueue c base).q = otherTimes c.count c.q := by
  have hspecial : (specialArmed c base).q.events.filter (!·.isTimer) =
      (rebased c base).q.events.filter (!·.isTimer) := filter_addTimer _ _ rfl
  have hcompare : (translateEventQueue c base).q.events.filter (!·.isTimer) =
      (specialArmed c base).q.events.filter (!·.isTimer) := by
    rw [translateEventQueue_eq, armCompare_q]
    exact filter_addTimer _ _ rfl
  unfold otherTimes
  rw [hcompare, hspecial, rebased_events, List.filter_map, List.map_map, ← filter_withoutTimers]
  apply List.map_congr_left
  intro e _
  exact Prod.ext rfl (rebase_sub e c.count base)

-- ════════════════════════════════════════════════════════════════════════
-- The two insertions
-- ════════════════════════════════════════════════════════════════════════

section

variable {c : Cp0} {base : BitVec 32}

/-- The due times of the moved events. -/
theorem map_dueIn_rebased (hsingle : ∀ e ∈ (withoutTimers c.q).events, e.type ≠ .compare) :
    (rebased c base).q.events.map (dueIn base) =
      (withoutTimers c.q).events.map (dueIn c.count) := by
  rw [rebased_events, List.map_map]
  apply List.map_congr_left
  intro e he
  exact dueIn_rebase (hsingle e he) c.count base

theorem rebased_single (hsingle : ∀ e ∈ (withoutTimers c.q).events, e.type ≠ .compare) :
    ∀ e ∈ (rebased c base).q.events, e.type ≠ .compare := by
  intro e he
  rw [rebased_events] at he
  obtain ⟨e', he', rfl⟩ := List.mem_map.1 he
  exact hsingle e' he'

/-- The comparison base for SPECIAL_INT is the overdue head, if there is one. -/
theorem rebased_base : remaining base (rebased c base).base = -max c.cycleCount.toInt 0 := by
  have hlo : -(2 ^ 31) ≤ c.cycleCount.toInt := BitVec.le_toInt c.cycleCount
  have hhi : c.cycleCount.toInt < 2 ^ 31 := BitVec.toInt_lt
  have hcycle : (rebased c base).cycleCount = c.cycleCount := rfl
  rw [Cp0.base, hcycle, rebased_count]
  split
  · next hpos =>
    have hnat : c.cycleCount.toInt = c.cycleCount.toNat := by
      rw [BitVec.toInt_eq_toNat_cond] at hpos ⊢
      split at hpos <;> omega
    have hb := base.isLt
    have hc := c.cycleCount.isLt
    unfold remaining
    rw [BitVec.toNat_sub, BitVec.toNat_sub]
    split <;> omega
  · next hneg =>
    unfold remaining
    rw [BitVec.sub_self]
    simp only [BitVec.toNat_zero]
    omega

theorem rebased_room (hroom : (withoutTimers c.q).events.length < poolCapacity) :
    (rebased c base).q.events.length < poolCapacity := by
  rw [rebased_events, List.length_map]
  exact hroom

/-- The queue with SPECIAL_INT. -/
theorem specialArmed_perm (base : BitVec 32)
    (hroom : (withoutTimers c.q).events.length < poolCapacity) :
    (specialArmed c base).q.events.Perm
      (⟨.special, specialCount base⟩ :: (rebased c base).q.events) := by
  rw [specialArmed, addInterruptEventCount_events, if_pos (rebased_room hroom),
    linkEvent_eq_insertFirst]
  exact insertFirst_perm _ _ _

/-- SPECIAL_INT is placed right where no event is overdue by more than the head. -/
theorem specialArmed_inOrder_iff
    (hsingle : ∀ e ∈ (withoutTimers c.q).events, e.type ≠ .compare)
    (hroom : (withoutTimers c.q).events.length < poolCapacity) :
    DueOrder (dueIn base) 0 (specialArmed c base).q.events ↔
      DueOrder (dueIn c.count) 0 (withoutTimers c.q).events ∧
        ∀ e ∈ (withoutTimers c.q).events, -max c.cycleCount.toInt 0 ≤ dueIn c.count e := by
  have hlen : (rebased c base).q.events.length < poolCapacity := rebased_room hroom
  have hdue : dueIn base ⟨.special, specialCount base⟩ = specialDue base := rfl
  have hspecial := specialDue_bounds base
  have hbase := remaining_bounds base (rebased c base).base
  have hzero : remaining base (rebased c base).base ≤ 0 := by
    rw [rebased_base]
    omega
  rw [specialArmed, addInterruptEventCount_events, if_pos hlen, linkEvent_eq_insertFirst]
  have hrebased : ∀ e ∈ (rebased c base).q.events, e.type ≠ .compare := rebased_single hsingle
  rw [dueOrder_circular_iff hbase (by rw [hdue]; omega)
    (fun y hy => dueIn_bounds (hrebased y hy))
    (fun y => beforeEvent_eq (rebased c base) base ⟨.special, specialCount base⟩ y), hdue,
    fits_near_iff ⟨hbase.1, hzero⟩ hspecial (fun y hy => (dueIn_bounds (hrebased y hy)).1),
    rebased_base, dueOrder_map_iff, map_dueIn_rebased hsingle, ← dueOrder_map_iff]
  refine and_congr_right fun _ => ?_
  rw [← List.forall_mem_map (P := fun t => -max c.cycleCount.toInt 0 ≤ t),
    map_dueIn_rebased hsingle, List.forall_mem_map]

/-- After SPECIAL_INT is queued, the cycle count is that of the next interrupt. -/
theorem specialArmed_next
    (hsingle : ∀ e ∈ (withoutTimers c.q).events, e.type ≠ .compare)
    (hroom : (withoutTimers c.q).events.length < poolCapacity)
    (hspecial : ∀ e ∈ (withoutTimers c.q).events, -max c.cycleCount.toInt 0 ≤ dueIn c.count e) :
    ∃ count : BitVec 32, (specialArmed c base).cycleCount = base - count ∧
      remaining base count = nextDue c base := by
  have hlen : (rebased c base).q.events.length < poolCapacity := rebased_room hroom
  have hlist : (specialArmed c base).q.events =
      insertFirst (fun n => beforeEvent (rebased c base) (specialCount base) n.count)
        ⟨.special, specialCount base⟩ (rebased c base).q.events := by
    rw [specialArmed, addInterruptEventCount_events, if_pos hlen, linkEvent_eq_insertFirst]
  have hrefresh (e : InterruptEvent) (he : (specialArmed c base).q.events.head? = some e) :
      (specialArmed c base).cycleCount = base - e.count :=
    (addInterruptEventCount_next hlen he).2
  have hhead := head?_insertFirst
    (fun n : InterruptEvent => beforeEvent (rebased c base) (specialCount base) n.count)
    ⟨.special, specialCount base⟩ (rebased c base).q.events
  rw [← hlist] at hhead
  unfold nextDue
  cases hevents : (withoutTimers c.q).events with
  | nil =>
    rw [rebased_events, hevents] at hhead
    exact ⟨specialCount base, hrefresh _ hhead, rfl⟩
  | cons e l =>
    rw [rebased_events, hevents, List.map_cons] at hhead
    have he : e ∈ (withoutTimers c.q).events := by rw [hevents]; simp
    have hdue : dueIn c.count e = remaining c.count e.count := if_neg (hsingle e he)
    have hrem : remaining base (e.rebase c.count base).count = remaining c.count e.count :=
      remaining_rebase e c.count base
    have hbound := remaining_bounds c.count e.count
    have hspecialBound := specialDue_bounds base
    have hbase : remaining base (rebased c base).base = -max c.cycleCount.toInt 0 := rebased_base
    have hbaseBound := remaining_bounds base (rebased c base).base
    have hbefore : beforeEvent (rebased c base) (specialCount base)
        (e.rebase c.count base).count = decide (specialDue base < remaining c.count e.count) := by
      have hle := hspecial e he
      have heq := beforeEvent_eq (rebased c base) base ⟨.special, specialCount base⟩
        (e.rebase c.count base)
      rw [dueIn_rebase (hsingle e he), hdue] at heq
      rw [heq, show dueIn base ⟨.special, specialCount base⟩ = specialDue base from rfl,
        distance_within (by omega) (by omega), distance_within (by omega) (by omega)]
      congr 1
      apply propext
      omega
    dsimp only at hhead ⊢
    rw [hbefore] at hhead
    by_cases hlt : specialDue base < remaining c.count e.count
    · rw [decide_eq_true hlt, if_pos rfl] at hhead
      refine ⟨specialCount base, hrefresh _ hhead, ?_⟩
      rw [min_eq_left hlt.le]
      rfl
    · rw [decide_eq_false hlt, if_neg (by decide)] at hhead
      refine ⟨(e.rebase c.count base).count, hrefresh _ hhead, ?_⟩
      rw [min_eq_right (by omega), hrem]

/-- The comparison base of the re-arming, from the state before the translation. -/
theorem specialArmed_timerBase
    (hsingle : ∀ e ∈ (withoutTimers c.q).events, e.type ≠ .compare)
    (hroom : (withoutTimers c.q).events.length < poolCapacity)
    (hspecial : ∀ e ∈ (withoutTimers c.q).events, -max c.cycleCount.toInt 0 ≤ dueIn c.count e) :
    (specialArmed c base).timerBase = rearmBase (nextDue c base) c.countPerOp := by
  obtain ⟨count, hcycle, hnext⟩ : ∃ count : BitVec 32, (specialArmed c base).cycleCount =
      base - count ∧ remaining base count = nextDue c base :=
    specialArmed_next hsingle hroom hspecial
  have hcpo : (specialArmed c base).countPerOp = c.countPerOp :=
    addInterruptEventCount_countPerOp _ _ _
  have hneg : BitVec.ofInt 32 (-nextDue c base) = base - count := by
    apply BitVec.eq_of_toNat_eq
    have hmod := remaining_mod base count
    have hb := base.isLt
    have hc := count.isLt
    rw [BitVec.toNat_ofInt, BitVec.toNat_sub, ← hnext]
    rw [BitVec.toNat_sub] at hmod
    omega
  have hcount : ((specialArmed c base).advance c.countPerOp).count = base + c.countPerOp := by
    rw [Cp0.count, Cp0.advance_regs, Function.update_self, specialArmed_count]
  have hadvance : ((specialArmed c base).advance c.countPerOp).cycleCount =
      base - count + c.countPerOp := by
    show (specialArmed c base).cycleCount + c.countPerOp = _
    rw [hcycle]
  unfold Cp0.timerBase rearmBase Cp0.base
  rw [hcpo, hcount, hadvance, hneg, specialArmed_count]
  by_cases hpos : 0 < (base - count + c.countPerOp).toInt
  · have hback : base + c.countPerOp - (base - count + c.countPerOp) = count := by
      apply BitVec.eq_of_toNat_eq
      have hb := base.isLt
      have hc := count.isLt
      have hn := c.countPerOp.isLt
      rw [BitVec.toNat_sub, BitVec.toNat_add, BitVec.toNat_add, BitVec.toNat_sub]
      omega
    rw [if_pos hpos, if_pos hpos, hback, hnext]
  · have hdiff : base + c.countPerOp - base = c.countPerOp - 0 := by
      apply BitVec.eq_of_toNat_eq
      have hb := base.isLt
      have hn := c.countPerOp.isLt
      have hzero : (0 : BitVec 32).toNat = 0 := rfl
      rw [BitVec.toNat_sub, BitVec.toNat_add, BitVec.toNat_sub, hzero]
      omega
    rw [if_neg hpos, if_neg hpos, remaining, remaining, hdiff]

/-- COMPARE_INT fits the queue with SPECIAL_INT, in terms of the state before. -/
theorem specialArmed_fits_iff
    (hsingle : ∀ e ∈ (withoutTimers c.q).events, e.type ≠ .compare)
    (hroom : (withoutTimers c.q).events.length < poolCapacity) {b d : ℤ} :
    Fits (dueIn base) (2 ^ 31) b d (specialArmed c base).q.events ↔
      Fits id (2 ^ 31) b d
        (specialDue base :: (withoutTimers c.q).events.map (dueIn c.count)) := by
  have hmem (t : ℤ) : t ∈ (specialArmed c base).q.events.map (dueIn base) ↔
      t ∈ specialDue base :: (withoutTimers c.q).events.map (dueIn c.count) := by
    rw [((specialArmed_perm base hroom).map (dueIn base)).mem_iff, List.map_cons,
      map_dueIn_rebased hsingle]
    rfl
  rw [fits_map_iff]
  exact ⟨fun h => h.congr_mem fun t => (hmem t).symm, fun h => h.congr_mem hmem⟩

/-- The pool still has a node for COMPARE_INT. -/
theorem specialArmed_room (base : BitVec 32)
    (hroom : (withoutTimers c.q).events.length + 2 ≤ poolCapacity) :
    (specialArmed c base).q.events.length < poolCapacity := by
  rw [(specialArmed_perm base (by omega)).length_eq, List.length_cons, rebased_events,
    List.length_map]
  omega

end

/-- The insertion of COMPARE_INT that ends a translation. -/
theorem translate_timer_iff {c : Cp0} {base : BitVec 32}
    (hroom : (withoutTimers c.q).events.length + 2 ≤ poolCapacity) :
    TimerOrdered base (c.regs .compare) (translateEventQueue c base).q ↔ Translatable c base := by
  have hroom' : (withoutTimers c.q).events.length < poolCapacity := by omega
  have hperm := specialArmed_perm base hroom'
  have harmed := specialArmed_room base hroom
  have hsingle : (∀ e ∈ (specialArmed c base).q.events, e.type ≠ .compare) ↔
      ∀ e ∈ (withoutTimers c.q).events, e.type ≠ .compare := by
    constructor
    · intro h e he
      have hmem : e.rebase c.count base ∈ (specialArmed c base).q.events := by
        rw [hperm.mem_iff, rebased_events]
        exact List.mem_cons_of_mem _ (List.mem_map_of_mem he)
      exact h (e.rebase c.count base) hmem
    · intro h e he
      rw [hperm.mem_iff] at he
      rcases List.mem_cons.1 he with rfl | he
      · exact fun htype => by cases htype
      · exact rebased_single h e he
  have hiff := armCompare_ordered_iff (c.regs .compare) harmed
  rw [specialArmed_count] at hiff
  rw [translateEventQueue_eq, hiff]
  constructor
  · rintro ⟨hnone, hord, hfits⟩
    have hnone' := hsingle.1 hnone
    rw [specialArmed_count] at hord hfits
    obtain ⟨hord', hspecial⟩ := (specialArmed_inOrder_iff hnone' hroom').1 hord
    refine ⟨hnone', hroom, hord', hspecial, ?_⟩
    rw [specialArmed_timerBase hnone' hroom' hspecial] at hfits
    exact (specialArmed_fits_iff hnone' hroom').1 hfits
  · rintro ⟨hnone, -, hord, hspecial, hcompare⟩
    refine ⟨hsingle.2 hnone, ?_, ?_⟩
    · rw [specialArmed_count]
      exact (specialArmed_inOrder_iff hnone hroom').2 ⟨hord, hspecial⟩
    · rw [specialArmed_count, specialArmed_timerBase hnone hroom' hspecial]
      exact (specialArmed_fits_iff hnone hroom').2 hcompare

/-- What a translation leaves tells that the state was translatable. -/
theorem Translated.translatable {c : Cp0} {base : BitVec 32}
    (h : Translated c (translateEventQueue c base) base) : Translatable c base := by
  have hbound := (translateEventQueue c base).q.bounded
  rw [h.reinserted.length_eq, List.length_cons, List.length_cons, List.length_map] at hbound
  exact (translate_timer_iff hbound).1 h.timer

/-- **Translation**: it leaves what it should exactly from a translatable state. -/
theorem translated_iff (c : Cp0) (base : BitVec 32) :
    Translated c (translateEventQueue c base) base ↔ Translatable c base := by
  constructor
  · exact fun h => h.translatable
  · intro h
    have hroom := h.room
    have hspecial := specialArmed_perm (c := c) base (by omega)
    have harmed := specialArmed_room base hroom
    have hlist : (translateEventQueue c base).q.events.Perm
        (⟨.compare, c.regs .compare⟩ :: (specialArmed c base).q.events) := by
      rw [translateEventQueue_eq, armCompare_events, if_pos harmed]
      exact insertFirst_perm _ _ _
    refine ⟨?_, others_translateEventQueue c base, hlist.trans (hspecial.cons _),
      (translate_timer_iff hroom).2 h, ?_⟩
    · rw [Cp0.count, translateEventQueue_regs, Function.update_self]
    · cases hhead : (translateEventQueue c base).q.events.head? with
      | none =>
        have hlength := hlist.length_eq
        rw [List.head?_eq_none_iff.1 hhead, List.length_cons] at hlength
        cases hlength
      | some e =>
        refine ⟨e, rfl, ?_⟩
        rw [translateEventQueue_eq] at hhead ⊢
        have hnext := armCompare_next harmed hhead
        rw [specialArmed_count] at hnext
        exact hnext

/-- The core after `MTC0` of 0x1001 to Compare. -/
def armedCp0 : Cp0 :=
  (mtc0 quietSurroundings (nextCycleCore.setGpr 8 0x1001) .compare 8).cp0

/-- COUNT is written one cycle before Compare: COMPARE_INT goes behind SPECIAL_INT. -/
theorem armed_not_translated :
    ¬∀ (c : Cp0) (base : BitVec 32), Translated c (translateEventQueue c base) base := by
  intro h
  have hcompare := (h armedCp0 0x1000).translatable.compare
  revert hcompare
  decide

end Mupen64plus
