import Mupen64plus.Lib.CircularTime
import Mupen64plus.Lib.Runs
import Mupen64plus.R4300.Core

/-!
# Due order of the event queue

The counts of the queue wrap, so what an event is due for is a fact about the run that queued it:
its distance to the comparison base when it was linked. A `Timeline` carries these due times
next to the core. Its steps are the queue operations of `interrupt.c`, in any order, and time
passing between them.

## Main definitions

- `Timeline` — a core, the absolute time, and a due time for every queued event
- `QueueOp`, `Timeline.step` — the operations
- `Covers` — a comparison base whose period holds the due times of all queued events

## Main results

- `due_order_of_covered_run` — along insertions from a covering base the queue is in due order
- `overdue_behind_future` — a CHECK_INT over an overdue event makes the next insertion pass it
-/

namespace Mupen64plus

open DueQueue

-- ════════════════════════════════════════════════════════════════════════
-- Queued events with their due times
-- ════════════════════════════════════════════════════════════════════════

structure Timed where
  event : InterruptEvent
  due : ℤ
  deriving DecidableEq

structure Timeline where
  core : R4300
  now : ℤ
  timed : List Timed
  erases : timed.map (·.event) = core.cp0.q.events

/-- The absolute time of the comparison base `COUNT - max(cycle_count, 0)`. -/
def Cp0.baseTime (c : Cp0) (now : ℤ) : ℤ := now - max c.cycleCount.toInt 0

/-- An insertion compares distances to the base: it orders due times when each of them lies in
    the period that starts at the base. -/
def Covers (c : Cp0) (now : ℤ) (timed : List Timed) : Prop :=
  ∀ x ∈ timed, c.baseTime now ≤ x.due ∧ x.due < c.baseTime now + 2 ^ 32

instance (c : Cp0) (now : ℤ) (timed : List Timed) : Decidable (Covers c now timed) :=
  inferInstanceAs (Decidable (∀ x ∈ timed, _))

/-- The due time of an event when `add_interrupt_event_count` links it. -/
def dueOf (c : Cp0) (now : ℤ) (count : BitVec 32) : ℤ :=
  c.baseTime now + ((count - c.base).toNat : ℤ)

def linkTimed (c : Cp0) (now : ℤ) (e : InterruptEvent) (timed : List Timed) : List Timed :=
  if c.q.events.length < poolCapacity then
    insertFirst (fun n => beforeEvent c e.count n.event.count) ⟨e, dueOf c now e.count⟩ timed
  else timed

/-- Counts and COUNT show the due times and the absolute time. -/
def Showing (count : BitVec 32) (now : ℤ) (timed : List Timed) : Prop :=
  ∀ x ∈ timed, x.event.count = count + BitVec.ofInt 32 (x.due - now)

theorem map_linkTimed (c : Cp0) (now : ℤ) (e : InterruptEvent) (timed : List Timed)
    (h : timed.map (·.event) = c.q.events) :
    (linkTimed c now e timed).map (·.event) =
      (addInterruptEventCount c e.type e.count).q.events := by
  rw [addInterruptEventCount_events, linkTimed]
  split
  · rw [linkEvent_eq_insertFirst, ← h]
    exact map_insertFirst (·.event) (fun n => beforeEvent c e.count n.count) _ timed
  · exact h

theorem base_showing (c : Cp0) (now : ℤ) :
    c.base = c.count + BitVec.ofInt 32 (c.baseTime now - now) := by
  have hto : BitVec.ofInt 32 c.cycleCount.toInt = c.cycleCount := BitVec.ofInt_toInt
  unfold Cp0.base Cp0.baseTime
  split
  · next hpos =>
    rw [max_eq_left hpos.le, show now - c.cycleCount.toInt - now = -c.cycleCount.toInt by ring,
      BitVec.ofInt_neg, hto, sub_eq_add_neg]
  · next hpos =>
    rw [max_eq_right (not_lt.mp hpos)]
    simp

/-- From a covering base, the distances of the counts are those of the due times. -/
theorem distance_of_covers {c : Cp0} {now : ℤ} {timed : List Timed}
    (hshow : Showing c.count now timed) (hcov : Covers c now timed) {x : Timed} (hx : x ∈ timed) :
    ((x.event.count - c.base).toNat : ℤ) = x.due - c.baseTime now := by
  obtain ⟨hlo, hhi⟩ := hcov x hx
  have hsub : x.event.count - c.base =
      BitVec.ofInt 32 (x.due - now) - BitVec.ofInt 32 (c.baseTime now - now) := by
    rw [hshow x hx, base_showing c now, add_sub_add_left_eq_sub]
  rw [hsub, CircularTime.toNat_ofInt_sub (by omega) (by omega)]
  ring

theorem before_iff_due_lt {c : Cp0} {now : ℤ} {timed : List Timed}
    (hshow : Showing c.count now timed) (hcov : Covers c now timed) (count : BitVec 32)
    {x : Timed} (hx : x ∈ timed) :
    beforeEvent c count x.event.count = true ↔ dueOf c now count < x.due := by
  have hdist := distance_of_covers hshow hcov hx
  simp only [beforeEvent, decide_eq_true_eq, BitVec.lt_def, dueOf]
  omega

/-- An insertion from a covering base keeps the due order at any time of reference. -/
theorem linkTimed_dueOrder {c : Cp0} {now ref : ℤ} {timed : List Timed} (e : InterruptEvent)
    (hshow : Showing c.count now timed) (hcov : Covers c now timed)
    (hord : DueOrder (·.due) ref timed) : DueOrder (·.due) ref (linkTimed c now e timed) := by
  unfold linkTimed
  split
  · exact hord.insertFirst fun x hx => before_iff_due_lt hshow hcov e.count hx
  · exact hord

theorem linkTimed_showing {c : Cp0} {now : ℤ} {timed : List Timed} (e : InterruptEvent)
    (hshow : Showing c.count now timed) : Showing c.count now (linkTimed c now e timed) := by
  unfold linkTimed
  split
  · intro x hx
    rcases mem_insertFirst.mp hx with rfl | hx
    · have hsplit : dueOf c now e.count - now =
          (c.baseTime now - now) + ((e.count - c.base).toNat : ℤ) := by
        unfold dueOf
        ring
      show e.count = c.count + BitVec.ofInt 32 (dueOf c now e.count - now)
      rw [hsplit, BitVec.ofInt_add, BitVec.ofInt_natCast, BitVec.ofNat_toNat, BitVec.setWidth_eq,
        ← add_assoc, ← base_showing c now, add_sub_cancel]
    · exact hshow x hx
  · exact hshow

-- ════════════════════════════════════════════════════════════════════════
-- Steps
-- ════════════════════════════════════════════════════════════════════════

/-- The operations on the queue, and COUNT moved on by `cp0_update_count`. -/
inductive QueueOp where
  | advance (n : BitVec 32)
  | addInterruptEventCount (type : IntType) (count : BitVec 32)
  | removeInterruptEvent
  | removeEvent (type : IntType)
  | checkInterrupt (causeIp : BitVec 32) (setCause : Bool)
  | specialIntHandler
  | compareIntHandler
  | translateEventQueue (base : BitVec 32)
  deriving DecidableEq

def QueueOp.run (r : R4300) : QueueOp → R4300
  | .advance n => { r with cp0 := r.cp0.advance n }
  | .addInterruptEventCount type count =>
    { r with cp0 := Mupen64plus.addInterruptEventCount r.cp0 type count }
  | .removeInterruptEvent => { r with cp0 := Mupen64plus.removeInterruptEvent r.cp0 }
  | .removeEvent type =>
    { r with cp0 := { r.cp0 with q := Mupen64plus.removeEvent r.cp0.q type } }
  | .checkInterrupt causeIp setCause =>
    { r with cp0 := r4300CheckInterrupt r.cp0 causeIp setCause }
  | .specialIntHandler => { r with cp0 := Mupen64plus.specialIntHandler r.cp0 }
  | .compareIntHandler => Mupen64plus.compareIntHandler r
  | .translateEventQueue base => { r with cp0 := Mupen64plus.translateEventQueue r.cp0 base }

namespace Timeline

def add (t : Timeline) (type : IntType) (count : BitVec 32) : Timeline where
  core := QueueOp.run t.core (.addInterruptEventCount type count)
  now := t.now
  timed := linkTimed t.core.cp0 t.now ⟨type, count⟩ t.timed
  erases := map_linkTimed t.core.cp0 t.now ⟨type, count⟩ t.timed t.erases

def removeHead (t : Timeline) : Timeline where
  core := QueueOp.run t.core .removeInterruptEvent
  now := t.now
  timed := t.timed.tail
  erases := by
    simp only [QueueOp.run, removeInterruptEvent_events, ← t.erases, List.map_tail]

def remove (t : Timeline) (type : IntType) : Timeline where
  core := QueueOp.run t.core (.removeEvent type)
  now := t.now
  timed := t.timed.eraseP (·.event.type == type)
  erases := by
    simp only [QueueOp.run, removeEvent_events, ← t.erases, List.eraseP_map]
    rfl

/-- The counts move with COUNT, and no time passes. -/
def rebase (t : Timeline) (base : BitVec 32) : Timeline where
  core := { t.core with cp0 :=
    { t.core.cp0 with q := t.core.cp0.q.rebase t.core.cp0.count base }.set .count base }
  now := t.now
  timed := t.timed.map fun x =>
    { x with event := { x.event with count := x.event.count - t.core.cp0.count + base } }
  erases := by
    simp only [Cp0.set_q, InterruptQueue.rebase, ← t.erases, List.map_map]
    rfl

def rearm (t : Timeline) : Timeline where
  core := { t.core with cp0 := armCompare t.core.cp0 (t.core.cp0.regs .compare) }
  now := t.now
  timed := linkTimed (t.core.cp0.advance t.core.cp0.countPerOp)
    (t.now + t.core.cp0.countPerOp.toNat) ⟨.compare, t.core.cp0.regs .compare⟩ t.timed
  erases := by
    rw [armCompare_q]
    exact map_linkTimed _ _ ⟨.compare, _⟩ t.timed (by rw [Cp0.advance_q]; exact t.erases)

def check (t : Timeline) (causeIp : BitVec 32) (setCause : Bool) : Timeline where
  core := QueueOp.run t.core (.checkInterrupt causeIp setCause)
  now := t.now
  timed :=
    if checkDelivers t.core.cp0 causeIp setCause ∧ t.core.cp0.q.events.length < poolCapacity then
      ⟨⟨.check, t.core.cp0.count⟩, t.now⟩ :: t.timed
    else t.timed
  erases := by
    rw [QueueOp.run, r4300CheckInterrupt_events, ← t.erases]
    split <;> rfl

/-- A core with the same queue, as much later as its COUNT says. -/
def later (t : Timeline) (core : R4300) (h : core.cp0.q = t.core.cp0.q) : Timeline where
  core := core
  now := t.now + (core.cp0.count - t.core.cp0.count).toNat
  timed := t.timed
  erases := by rw [h]; exact t.erases

/-- One operation. The core follows `QueueOp.run`. -/
def step (t : Timeline) : QueueOp → Timeline
  | .advance n => t.later (QueueOp.run t.core (.advance n)) rfl
  | .addInterruptEventCount type count => t.add type count
  | .removeInterruptEvent => t.removeHead
  | .removeEvent type => t.remove type
  | .checkInterrupt causeIp setCause => t.check causeIp setCause
  | .specialIntHandler => t.removeHead.add .special (specialCount t.removeHead.core.cp0.count)
  | .compareIntHandler =>
    t.rearm.later (compareIntHandler t.core) (raiseMaskableInterrupt_q t.rearm.core causeIP7)
  | .translateEventQueue base =>
    let t := ((t.remove .compare).remove .special).rebase base
    (t.add .special (specialCount t.core.cp0.count)).rearm

def Covers (t : Timeline) : Prop := Mupen64plus.Covers t.core.cp0 t.now t.timed

/-- The base that the re-arming of COMPARE_INT compares from covers the queue. -/
def RearmCovers (t : Timeline) : Prop :=
  Mupen64plus.Covers (t.core.cp0.advance t.core.cp0.countPerOp)
    (t.now + t.core.cp0.countPerOp.toNat) t.timed

/-- Every insertion of the operation is made from a base that covers the queue. -/
def Covered (t : Timeline) : QueueOp → Prop
  | .addInterruptEventCount _ _ => t.Covers
  | .specialIntHandler => t.removeHead.Covers
  | .compareIntHandler => t.RearmCovers
  | .translateEventQueue base =>
    let t := ((t.remove .compare).remove .special).rebase base
    t.Covers ∧ (t.add .special (specialCount t.core.cp0.count)).RearmCovers
  | _ => True

instance : ∀ (t : Timeline) (op : QueueOp), Decidable (t.Covered op)
  | _, .addInterruptEventCount _ _ => inferInstanceAs (Decidable (Mupen64plus.Covers _ _ _))
  | _, .specialIntHandler => inferInstanceAs (Decidable (Mupen64plus.Covers _ _ _))
  | _, .compareIntHandler => inferInstanceAs (Decidable (Mupen64plus.Covers _ _ _))
  | _, .translateEventQueue _ =>
    inferInstanceAs (Decidable (Mupen64plus.Covers _ _ _ ∧ Mupen64plus.Covers _ _ _))
  | _, .advance _ => .isTrue trivial
  | _, .removeInterruptEvent => .isTrue trivial
  | _, .removeEvent _ => .isTrue trivial
  | _, .checkInterrupt _ _ => .isTrue trivial

/-- Counts that show the due times, and a queue in due order. -/
structure Ordered (t : Timeline) : Prop where
  showing : Showing t.core.cp0.count t.now t.timed
  inOrder : DueOrder (·.due) t.now t.timed

end Timeline

-- ════════════════════════════════════════════════════════════════════════
-- Each step keeps the order
-- ════════════════════════════════════════════════════════════════════════

theorem Showing.shift {count count' : BitVec 32} {now now' : ℤ} {timed : List Timed}
    (h : Showing count now timed) (hc : count' = count + BitVec.ofInt 32 (now' - now)) :
    Showing count' now' timed := by
  intro x hx
  have hsplit : x.due - now = (now' - now) + (x.due - now') := by ring
  rw [h x hx, hc, hsplit, BitVec.ofInt_add, add_assoc]

theorem Showing.subset {count : BitVec 32} {now : ℤ} {timed timed' : List Timed}
    (h : Showing count now timed) (hsub : timed' ⊆ timed) : Showing count now timed' :=
  fun x hx => h x (hsub hx)

theorem ofInt_toNat (v : BitVec 32) (now : ℤ) : BitVec.ofInt 32 (now + v.toNat - now) = v := by
  rw [add_sub_cancel_left, BitVec.ofInt_natCast, BitVec.ofNat_toNat, BitVec.setWidth_eq]

namespace Timeline

variable {t : Timeline}

theorem Ordered.add (h : t.Ordered) (type : IntType) (count : BitVec 32) (hc : t.Covers) :
    (t.add type count).Ordered where
  showing := by
    have hregs : (t.add type count).core.cp0.count = t.core.cp0.count :=
      congrFun (addInterruptEventCount_regs t.core.cp0 type count) .count
    rw [hregs]
    exact linkTimed_showing ⟨type, count⟩ h.showing
  inOrder := linkTimed_dueOrder ⟨type, count⟩ h.showing hc h.inOrder

theorem Ordered.removeHead (h : t.Ordered) : t.removeHead.Ordered where
  showing := by
    have hregs : t.removeHead.core.cp0.count = t.core.cp0.count :=
      congrFun (removeInterruptEvent_regs t.core.cp0) .count
    rw [hregs]
    exact h.showing.subset (List.tail_sublist _).subset
  inOrder := h.inOrder.sublist (List.tail_sublist _)

theorem Ordered.remove (h : t.Ordered) (type : IntType) : (t.remove type).Ordered where
  showing := h.showing.subset List.eraseP_sublist.subset
  inOrder := h.inOrder.sublist List.eraseP_sublist

theorem Ordered.rebase (h : t.Ordered) (base : BitVec 32) : (t.rebase base).Ordered where
  showing := by
    intro x hx
    obtain ⟨y, hy, rfl⟩ := List.mem_map.mp hx
    show y.event.count - t.core.cp0.count + base = _
    have hbase : (t.rebase base).core.cp0.count = base := by simp [Timeline.rebase, Cp0.count]
    rw [hbase, h.showing y hy, add_sub_cancel_left, add_comm]
    rfl
  inOrder := h.inOrder.map fun _ _ => rfl

theorem Ordered.rearm (h : t.Ordered) (hc : t.RearmCovers) : t.rearm.Ordered := by
  have hadv : Showing (t.core.cp0.advance t.core.cp0.countPerOp).count
      (t.now + t.core.cp0.countPerOp.toNat) t.timed := by
    refine h.showing.shift ?_
    rw [ofInt_toNat]
    simp [Cp0.count]
  refine ⟨?_, linkTimed_dueOrder _ hadv hc h.inOrder⟩
  refine (linkTimed_showing ⟨.compare, t.core.cp0.regs .compare⟩ hadv).shift ?_
  have hregs : t.rearm.core.cp0.count = t.core.cp0.count :=
    congrFun (armCompare_regs t.core.cp0 _) .count
  have hback : t.rearm.now - (t.now + t.core.cp0.countPerOp.toNat) =
      -(t.core.cp0.countPerOp.toNat : ℤ) := by
    show t.now - _ = _
    ring
  rw [hregs, hback, BitVec.ofInt_neg, BitVec.ofInt_natCast, BitVec.ofNat_toNat, BitVec.setWidth_eq]
  simp [Cp0.count]

/-- A CHECK_INT is due when it is linked, so it may stand in front of everything. -/
theorem Ordered.check (h : t.Ordered) (causeIp : BitVec 32) (setCause : Bool) :
    (t.check causeIp setCause).Ordered := by
  have hcount : (t.check causeIp setCause).core.cp0.count = t.core.cp0.count := by
    simp [Timeline.check, QueueOp.run, Cp0.count]
  by_cases hp : checkDelivers t.core.cp0 causeIp setCause ∧
      t.core.cp0.q.events.length < poolCapacity
  · have htimed : (t.check causeIp setCause).timed =
        ⟨⟨.check, t.core.cp0.count⟩, t.now⟩ :: t.timed := if_pos hp
    refine ⟨?_, ?_⟩
    · rw [hcount, htimed]
      intro x hx
      rcases List.mem_cons.mp hx with rfl | hx
      · show t.core.cp0.count = t.core.cp0.count + BitVec.ofInt 32 (t.now - t.now)
        simp
      · exact h.showing x hx
    · rw [htimed]
      exact h.inOrder.cons_due le_rfl
  · have htimed : (t.check causeIp setCause).timed = t.timed := if_neg hp
    exact ⟨by rw [hcount, htimed]; exact h.showing, by rw [htimed]; exact h.inOrder⟩

theorem Ordered.later (h : t.Ordered) (core : R4300) (hq : core.cp0.q = t.core.cp0.q) :
    (t.later core hq).Ordered where
  showing := by
    refine h.showing.shift ?_
    show core.cp0.count = _ + BitVec.ofInt 32 (t.now + _ - t.now)
    rw [ofInt_toNat, add_sub_cancel]
  inOrder := h.inOrder.mono_now (by show t.now ≤ t.now + _; omega)

/-- **Step lemma**: an operation that inserts from covering bases keeps the order. -/
theorem Ordered.step (h : t.Ordered) (op : QueueOp) (hc : t.Covered op) : (t.step op).Ordered := by
  cases op with
  | advance n => exact h.later (QueueOp.run t.core (.advance n)) rfl
  | addInterruptEventCount type count => exact h.add type count hc
  | removeInterruptEvent => exact h.removeHead
  | removeEvent type => exact h.remove type
  | checkInterrupt causeIp setCause => exact h.check causeIp setCause
  | specialIntHandler => exact h.removeHead.add _ _ hc
  | compareIntHandler =>
    exact (h.rearm hc).later _ (raiseMaskableInterrupt_q t.rearm.core causeIP7)
  | translateEventQueue base =>
    exact ((((h.remove _).remove _).rebase base).add _ _ hc.1).rearm hc.2

/-- A core whose queue `clear_queue` has emptied. -/
def cleared (core : R4300) (now : ℤ) : Timeline where
  core := { core with cp0 := { core.cp0 with q := clearQueue } }
  now := now
  timed := []
  erases := rfl

theorem cleared_ordered (core : R4300) (now : ℤ) : (cleared core now).Ordered where
  showing := by intro x hx; cases hx
  inOrder := dueOrder_nil

end Timeline

/-- **Run lemma**: from the empty queue, along insertions from covering bases, every state of the
    run has its overdue events in front and the others by due time, so that no event that is due
    waits behind one of the future. -/
theorem due_order_of_covered_run (core : R4300) (now : ℤ) (ops : List QueueOp)
    (h : Runs.Along Timeline.step Timeline.Covered (Timeline.cleared core now) ops) :
    ∀ t ∈ Runs.visited Timeline.step (Timeline.cleared core now) ops,
      DueOrder (·.due) t.now t.timed ∧
      t.timed.Pairwise fun x y => y.due ≤ t.now → x.due ≤ t.now := by
  have hinv := @Runs.invariant_visited _ _ Timeline.step Timeline.Covered Timeline.Ordered
    (fun _ op ht hc => ht.step op hc) _ _ (Timeline.cleared_ordered core now) h
  exact fun t ht => ⟨(hinv t ht).inOrder, (hinv t ht).inOrder.not_due_behind_future⟩

/-- A core just powered on, with RCP interrupts enabled. -/
def enabledCore : R4300 :=
  (powerOnR4300 (initR4300 .pureInterpreter 2 0 0xa4000040)).setCp0 .status 0x34000401

/-- A PI event falls due, a CHECK_INT is linked before it and both are taken in order; then the
    timer is re-armed and COUNT is written. -/
def servedOps : List QueueOp :=
  [.addInterruptEventCount .special 0x80000000, .addInterruptEventCount .compare 0,
    .addInterruptEventCount .pi 0x5010, .checkInterrupt causeIP2 true, .advance 0x20,
    .removeInterruptEvent, .addInterruptEventCount .si 0x5100, .removeInterruptEvent,
    .compareIntHandler, .translateEventQueue 0x7ffffff0, .specialIntHandler]

theorem due_order_of_servedOps :
    Runs.Along Timeline.step Timeline.Covered (Timeline.cleared enabledCore 0) servedOps ∧
    ∀ t ∈ Runs.visited Timeline.step (Timeline.cleared enabledCore 0) servedOps,
      DueOrder (·.due) t.now t.timed ∧
      t.timed.Pairwise fun x y => y.due ≤ t.now → x.due ≤ t.now :=
  ⟨by decide, due_order_of_covered_run enabledCore 0 servedOps (by decide)⟩

/-- COUNT moves by less than half its period between two operations. -/
def QueueOp.Short : QueueOp → Prop
  | .advance n => n < 0x80000000
  | _ => True

/-- A PI event is 16 cycles overdue when an RCP interrupt links its CHECK_INT; an SI event due
    in 224 cycles is then linked in front of it. -/
def passingOps : List QueueOp :=
  [.addInterruptEventCount .special 0x80000000, .addInterruptEventCount .compare 0,
    .addInterruptEventCount .pi 0x5010, .advance 0x20, .checkInterrupt causeIP2 true,
    .addInterruptEventCount .si 0x5100]

theorem overdue_behind_future :
    ¬ ∀ (core : R4300) (ops : List QueueOp), (∀ op ∈ ops, op.Short) →
      ∀ t ∈ Runs.visited Timeline.step (Timeline.cleared core 0) ops,
        t.timed.Pairwise fun x y => y.due ≤ t.now → x.due ≤ t.now := by
  intro h
  have hshort : ∀ op ∈ passingOps, op.Short := by
    simp [passingOps, QueueOp.Short]
  have hend := h enabledCore passingOps hshort _ (Runs.runFrom_mem_visited _ _ _)
  revert hend
  decide

end Mupen64plus
