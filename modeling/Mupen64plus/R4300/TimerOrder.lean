import Mupen64plus.Lib.CircularInsertion
import Mupen64plus.R4300.Cp0Instructions
import Mupen64plus.R4300.EventOrder

/-!
# The timer interrupt in the event queue

`COMPARE_INT` is due when COUNT next equals Compare: after 1 to `2 ^ 32` cycles. `MTC0` Compare
and `compare_int_handler` insert it by `add_interrupt_event_count`, which compares distances
modulo `2 ^ 32`, from a base that both move by `count_per_op` for the insertion.

## Main definitions

- `remaining` — the cycles until an event is due, negative for an overdue one
- `cyclesUntil` — the cycles until COUNT next equals a value
- `TimerOrdered` — one COMPARE_INT, ordered by the cycles until it is due
- `TimerFits` — the condition on the queue, the base and the value

## Main results

- `timerOrdered_iff` — the timer is ordered right exactly if it fits
-/

namespace Mupen64plus

open DueQueue

/-- The cycles until an event is due; an event is at most `2 ^ 31` cycles away. -/
def remaining (count e : BitVec 32) : ℤ :=
  if (e - count).toNat ≤ 2 ^ 31 then (e - count).toNat else (e - count).toNat - 2 ^ 32

/-- The cycles until COUNT next equals `v`. -/
def cyclesUntil (count v : BitVec 32) : ℤ :=
  if v = count then 2 ^ 32 else (v - count).toNat

/-- The due time of a queued event, from the present on. -/
def dueIn (count : BitVec 32) (e : InterruptEvent) : ℤ :=
  if e.type = .compare then cyclesUntil count e.count else remaining count e.count

/-- The queue holds one COMPARE_INT, for the count `v`, and is in due order. -/
def TimerOrdered (count v : BitVec 32) (q : InterruptQueue) : Prop :=
  q.events.filter (·.type == .compare) = [⟨.compare, v⟩] ∧ DueOrder (dueIn count) 0 q.events

/-- The comparison base of `armCompare`, as a distance from COUNT. -/
def Cp0.timerBase (c : Cp0) : ℤ := remaining c.count (c.advance c.countPerOp).base

/-- What the insertion of COMPARE_INT needs of the state before it. -/
structure TimerFits (c : Cp0) (v : BitVec 32) : Prop where
  single : ∀ e ∈ c.q.events, e.type ≠ .compare
  inOrder : DueOrder (dueIn c.count) 0 c.q.events
  fits : Fits (dueIn c.count) (2 ^ 31) c.timerBase (cyclesUntil c.count v) c.q.events

-- ════════════════════════════════════════════════════════════════════════
-- Distances
-- ════════════════════════════════════════════════════════════════════════

theorem remaining_bounds (count e : BitVec 32) :
    -(2 ^ 31) < remaining count e ∧ remaining count e ≤ 2 ^ 31 := by
  have hlt := (e - count).isLt
  unfold remaining
  split <;> omega

theorem cyclesUntil_bounds (count v : BitVec 32) :
    1 ≤ cyclesUntil count v ∧ cyclesUntil count v ≤ 2 ^ 32 := by
  have hlt := (v - count).isLt
  unfold cyclesUntil
  split
  · omega
  · next hne =>
    have hpos : (v - count).toNat ≠ 0 := by
      intro hzero
      apply hne
      have h0 : v - count = 0 := BitVec.eq_of_toNat_eq hzero
      calc v = v - count + count := (BitVec.sub_add_cancel v count).symm
        _ = count := by rw [h0]; exact BitVec.zero_add count
    omega

/-- Distances from a base are distances of due times, modulo `2 ^ 32`. -/
theorem distance_eq {count base e : BitVec 32} {t : ℤ}
    (ht : t % 2 ^ 32 = (e - count).toNat) :
    ((e - base).toNat : ℤ) = (t - remaining count base) % (2 * 2 ^ 31) := by
  have he := e.isLt
  have hc := count.isLt
  have hb := base.isLt
  unfold remaining
  rw [BitVec.toNat_sub] at ht ⊢
  rw [BitVec.toNat_sub]
  split <;> omega

theorem remaining_mod (count e : BitVec 32) :
    remaining count e % 2 ^ 32 = (e - count).toNat := by
  have hlt := (e - count).isLt
  unfold remaining
  split <;> omega

theorem cyclesUntil_mod (count v : BitVec 32) :
    cyclesUntil count v % 2 ^ 32 = (v - count).toNat := by
  have hlt := (v - count).isLt
  unfold cyclesUntil
  split
  · next heq =>
    rw [heq, BitVec.sub_self]
    rfl
  · omega

theorem dueIn_mod (count : BitVec 32) (e : InterruptEvent) :
    dueIn count e % 2 ^ 32 = (e.count - count).toNat := by
  unfold dueIn
  split
  · exact cyclesUntil_mod _ _
  · exact remaining_mod _ _

theorem dueIn_bounds {count : BitVec 32} {e : InterruptEvent} (h : e.type ≠ .compare) :
    -(2 ^ 31) < dueIn count e ∧ dueIn count e ≤ 2 ^ 31 := by
  rw [dueIn, if_neg h]
  exact remaining_bounds _ _

/-- `before_event` compares distances of due times. -/
theorem beforeEvent_eq (c : Cp0) (count : BitVec 32) (e n : InterruptEvent) :
    beforeEvent c e.count n.count =
      decide ((dueIn count e - remaining count c.base) % (2 * 2 ^ 31) <
        (dueIn count n - remaining count c.base) % (2 * 2 ^ 31)) := by
  rw [beforeEvent, ← distance_eq (dueIn_mod count e), ← distance_eq (dueIn_mod count n)]
  congr 1
  apply propext
  rw [BitVec.lt_def]
  omega

-- ════════════════════════════════════════════════════════════════════════
-- The insertion
-- ════════════════════════════════════════════════════════════════════════

theorem armCompare_events (c : Cp0) (v : BitVec 32) :
    (armCompare c v).q.events =
      if c.q.events.length < poolCapacity then
        insertFirst (fun n => beforeEvent (c.advance c.countPerOp) v n.count) ⟨.compare, v⟩
          c.q.events
      else c.q.events := by
  rw [armCompare_q, addInterruptEventCount_events, linkEvent_eq_insertFirst]
  rfl

/-- The COMPARE_INT of a queue into which one is inserted. -/
theorem filter_insertFirst_iff (p : InterruptEvent → Bool) (v : BitVec 32)
    (l : List InterruptEvent) :
    (insertFirst p ⟨.compare, v⟩ l).filter (·.type == .compare) = [⟨.compare, v⟩] ↔
      ∀ e ∈ l, e.type ≠ .compare := by
  have hperm := (insertFirst_perm p ⟨.compare, v⟩ l).filter (·.type == .compare)
  rw [List.filter_cons_of_pos (by rfl)] at hperm
  constructor
  · intro h e he htype
    rw [h] at hperm
    have hlen := hperm.length_eq
    have hnil : l.filter (·.type == .compare) = [] := by
      apply List.eq_nil_of_length_eq_zero
      simpa using hlen.symm
    have hmem : e ∈ l.filter (·.type == .compare) := List.mem_filter.2 ⟨he, by simp [htype]⟩
    rw [hnil] at hmem
    cases hmem
  · intro h
    have hnil : l.filter (·.type == .compare) = [] := by
      rw [List.filter_eq_nil_iff]
      intro e he
      simpa using h e he
    rw [hnil] at hperm
    exact List.perm_singleton.1 hperm

/-- Where the pool has a node, the timer is ordered right exactly if it fits. -/
theorem armCompare_ordered_iff {c : Cp0} (v : BitVec 32)
    (hroom : c.q.events.length < poolCapacity) :
    TimerOrdered c.count v (armCompare c v).q ↔ TimerFits c v := by
  have hdue : dueIn c.count ⟨.compare, v⟩ = cyclesUntil c.count v := if_pos rfl
  have hcycles := cyclesUntil_bounds c.count v
  have hbase := remaining_bounds c.count (c.advance c.countPerOp).base
  unfold TimerOrdered
  rw [armCompare_events, if_pos hroom, filter_insertFirst_iff]
  have hcircular (hsingle : ∀ e ∈ c.q.events, e.type ≠ .compare) :
      DueOrder (dueIn c.count) 0
          (insertFirst (fun n => beforeEvent (c.advance c.countPerOp) v n.count) ⟨.compare, v⟩
            c.q.events) ↔
        DueOrder (dueIn c.count) 0 c.q.events ∧
          Fits (dueIn c.count) (2 ^ 31) c.timerBase (cyclesUntil c.count v) c.q.events := by
    rw [← hdue]
    refine dueOrder_circular_iff hbase ?_ (fun y hy => dueIn_bounds (hsingle y hy)) fun y => ?_
    · rw [hdue]
      omega
    · exact beforeEvent_eq (c.advance c.countPerOp) c.count ⟨.compare, v⟩ y
  constructor
  · rintro ⟨hsingle, hord⟩
    obtain ⟨hin, hfits⟩ := (hcircular hsingle).1 hord
    exact ⟨hsingle, hin, hfits⟩
  · rintro ⟨hsingle, hin, hfits⟩
    exact ⟨hsingle, (hcircular hsingle).2 ⟨hin, hfits⟩⟩

-- ════════════════════════════════════════════════════════════════════════
-- The two sites
-- ════════════════════════════════════════════════════════════════════════

/-- The state of `MTC0` Compare before the insertion. -/
def compareCleared (r : R4300) : Cp0 :=
  { (cp0UpdateCount r).cp0 with q := removeEvent (cp0UpdateCount r).cp0.q .compare }

/-- The service of COMPARE_INT by `gen_interrupt`: the head is removed and the handler runs. -/
def serveCompare (r : R4300) : R4300 :=
  compareIntHandler { r with cp0 := removeInterruptEvent r.cp0 }

theorem InterruptQueue.eq_of_events {q q' : InterruptQueue} (h : q.events = q'.events) :
    q = q' := by
  cases q
  cases q'
  cases h
  rfl

theorem mtc0_compare_q (env : Surroundings) (r : R4300) (rt : Fin 32) :
    (mtc0 env r .compare rt).cp0.q = (armCompare (compareCleared r) (r.gpr32 rt)).q := by
  apply InterruptQueue.eq_of_events
  show (armCompare _ _).q.events = _
  rw [armCompare_events, armCompare_events]
  rfl

theorem serveCompare_q (r : R4300) :
    (serveCompare r).cp0.q =
      (armCompare (removeInterruptEvent r.cp0) ((removeInterruptEvent r.cp0).regs .compare)).q := by
  rw [serveCompare, compareIntHandler, raiseMaskableInterrupt_q]

theorem length_tail_lt (q : InterruptQueue) : q.events.tail.length < poolCapacity := by
  have hbound := q.bounded
  rw [List.length_tail]
  show _ - 1 < 16
  have hbound' : q.events.length ≤ 16 := hbound
  omega

/-- A full pool holds no COMPARE_INT once one was removed. -/
theorem timerOrdered_room {env : Surroundings} {r : R4300} {rt : Fin 32} {count v : BitVec 32}
    (h : TimerOrdered count v (mtc0 env r .compare rt).cp0.q) :
    (compareCleared r).q.events.length < poolCapacity := by
  by_contra hfull
  rw [mtc0_compare_q] at h
  have hfilter := h.1
  rw [armCompare_events, if_neg hfull] at hfilter
  have hmem : (⟨.compare, v⟩ : InterruptEvent) ∈ (compareCleared r).q.events := by
    have hin : (⟨.compare, v⟩ : InterruptEvent) ∈ [(⟨.compare, v⟩ : InterruptEvent)] := by simp
    rw [← hfilter] at hin
    exact (List.mem_filter.1 hin).1
  have hbound := r.cp0.q.bounded
  have hlen : ((r.cp0.q.events).eraseP (·.type == .compare)).length + 1 =
    r.cp0.q.events.length := by
    refine List.length_eraseP_add_one (List.mem_of_mem_eraseP hmem) ?_
    rfl
  have hcap : ¬((r.cp0.q.events).eraseP (·.type == .compare)).length < poolCapacity := hfull
  omega

theorem mtc0_compare_ordered_iff (env : Surroundings) (r : R4300) (rt : Fin 32) :
    TimerOrdered (cp0UpdateCount r).cp0.count (r.gpr32 rt) (mtc0 env r .compare rt).cp0.q ↔
      (compareCleared r).q.events.length < poolCapacity ∧
        TimerFits (compareCleared r) (r.gpr32 rt) := by
  constructor
  · intro h
    have hroom := timerOrdered_room h
    rw [mtc0_compare_q] at h
    exact ⟨hroom, (armCompare_ordered_iff (r.gpr32 rt) hroom).1 h⟩
  · rintro ⟨hroom, hfits⟩
    rw [mtc0_compare_q]
    exact (armCompare_ordered_iff (r.gpr32 rt) hroom).2 hfits

theorem serveCompare_ordered_iff (r : R4300) :
    TimerOrdered r.cp0.count (r.cp0.regs .compare) (serveCompare r).cp0.q ↔
      TimerFits (removeInterruptEvent r.cp0) (r.cp0.regs .compare) := by
  have hroom : (removeInterruptEvent r.cp0).q.events.length < poolCapacity := by
    rw [removeInterruptEvent_events]
    exact length_tail_lt r.cp0.q
  have hregs := removeInterruptEvent_regs r.cp0
  have hiff := armCompare_ordered_iff ((removeInterruptEvent r.cp0).regs .compare) hroom
  rw [serveCompare_q]
  rw [Cp0.count, hregs] at hiff
  rw [hregs]
  exact hiff

/-- **The timer**: after `MTC0` Compare and after the service of COMPARE_INT, the event is ordered
    by the cycles until COUNT next equals Compare exactly if the pool has a node and it fits. -/
theorem timerOrdered_iff (env : Surroundings) (r : R4300) (rt : Fin 32) :
    (TimerOrdered (cp0UpdateCount r).cp0.count (r.gpr32 rt) (mtc0 env r .compare rt).cp0.q ↔
      (compareCleared r).q.events.length < poolCapacity ∧
        TimerFits (compareCleared r) (r.gpr32 rt)) ∧
    (TimerOrdered r.cp0.count (r.cp0.regs .compare) (serveCompare r).cp0.q ↔
      TimerFits (removeInterruptEvent r.cp0) (r.cp0.regs .compare)) := by
  constructor
  · exact mtc0_compare_ordered_iff env r rt
  · exact serveCompare_ordered_iff r

/-- A core just after power on, with the next value of COUNT in register 8. -/
def nextCycleCore : R4300 :=
  ({ powerOnR4300 (initR4300 .pureInterpreter 2 0 0) with pc := 0xbfc00000 }).setGpr 8 0x5001

def quietSurroundings : Surroundings where
  genInterrupt := id
  rcpInterrupt := false

/-- COMPARE_INT for the next cycle is queued behind SPECIAL_INT. -/
theorem nextCycle_not_ordered : ¬∀ (env : Surroundings) (r : R4300) (rt : Fin 32),
    TimerOrdered (cp0UpdateCount r).cp0.count (r.gpr32 rt) (mtc0 env r .compare rt).cp0.q := by
  intro h
  have hfits := ((mtc0_compare_ordered_iff quietSurroundings nextCycleCore 8).1
    (h quietSurroundings nextCycleCore 8)).2.fits
  revert hfits
  decide

end Mupen64plus
