import Mupen64plus.Lib.DueQueue
import Mupen64plus.R4300.Tlb

/-!
# The CP0 event queue

`struct cp0` and the queue of timed events of `interrupt.c`. Counts are 32-bit and compared from
a base that follows COUNT, or the count of the head when the head is overdue.

## Main definitions

- `Cp0Reg`, `Cp0` — the registers and the rest of the coprocessor state
- `IntType`, `InterruptEvent`, `InterruptQueue` — events, and the queue with its pool bound
- `addInterruptEventCount`, `removeInterruptEvent`, `removeEvent`, `translateEventQueue`,
  `initInterrupt` — the operations

The free nodes of the pool are not modelled one by one: the pool's index is the number of
nodes on the list, and `alloc_node` answers NULL when that number is the capacity.
-/

namespace Mupen64plus

-- ════════════════════════════════════════════════════════════════════════
-- Registers
-- ════════════════════════════════════════════════════════════════════════

/-- `enum r4300_cp0_registers`, in the order of the register numbers. -/
inductive Cp0Reg where
  | index | random | entryLo0 | entryLo1 | context | pageMask | wired | unused7
  | badVAddr | count | entryHi | compare | status | cause | epc | prevId
  | config | llAddr | watchLo | watchHi | xContext | unused21 | unused22 | unused23
  | unused24 | unused25 | parityErr | cacheErr | tagLo | tagHi | errorEpc | unused31
  deriving DecidableEq, Repr

/-- The interrupt types of `interrupt.h`; a queue read from a savestate may hold other codes. -/
inductive IntType where
  | vi | compare | check | si | pi | special | ai | sp | dp | hw2 | nmi
  | rspDma | ddMc | ddBm | ddDv
  | unknown (code : BitVec 32)
  deriving DecidableEq, Repr

/-- The value of the `#define`. -/
def IntType.code : IntType → BitVec 32
  | .vi => 0x0001 | .compare => 0x0002 | .check => 0x0004 | .si => 0x0008
  | .pi => 0x0010 | .special => 0x0020 | .ai => 0x0040 | .sp => 0x0080
  | .dp => 0x0100 | .hw2 => 0x0200 | .nmi => 0x0400 | .rspDma => 0x0800
  | .ddMc => 0x1000 | .ddBm => 0x2000 | .ddDv => 0x4000
  | .unknown code => code

/-- The types a device schedules. -/
def IntType.known : List IntType :=
  [.vi, .compare, .check, .si, .pi, .special, .ai, .sp, .dp, .hw2, .nmi,
    .rspDma, .ddMc, .ddBm, .ddDv]

/-- The type with a given code. -/
def IntType.ofCode (code : BitVec 32) : IntType :=
  (IntType.known.find? (·.code == code)).getD (.unknown code)

/-- `struct interrupt_event`. -/
structure InterruptEvent where
  type : IntType
  count : BitVec 32
  deriving DecidableEq, Repr

/-- `INTERRUPT_NODES_POOL_CAPACITY`. -/
def poolCapacity : ℕ := 16

/-- `struct interrupt_queue`: the linked events, never more than the pool has nodes. -/
structure InterruptQueue where
  events : List InterruptEvent
  bounded : events.length ≤ poolCapacity
  deriving DecidableEq

/-- `struct cp0`, less the table of interrupt handlers, which is fixed at start-up. -/
structure Cp0 where
  regs : Cp0Reg → BitVec 32
  latch : BitVec 64
  interruptUnsafeState : BitVec 32
  q : InterruptQueue
  nextInterrupt : BitVec 32
  cycleCount : BitVec 32
  lastAddr : BitVec 32
  countPerOp : BitVec 32
  countPerOpDenomPot : BitVec 32
  tlb : Tlb

/-- `cp0_regs[r] = v`. -/
def Cp0.set (c : Cp0) (r : Cp0Reg) (v : BitVec 32) : Cp0 :=
  { c with regs := Function.update c.regs r v }

/-- The count register. -/
abbrev Cp0.count (c : Cp0) : BitVec 32 := c.regs .count

-- ════════════════════════════════════════════════════════════════════════
-- The queue
-- ════════════════════════════════════════════════════════════════════════

/-- The second loop of `add_interrupt_event_count`, which steps over events of the same count. -/
def insertAfterTies {α : Type*} (same : α → Bool) (x : α) : List α → List α
  | [] => [x]
  | n :: rest => if same n then n :: insertAfterTies same x rest else x :: n :: rest

/-- The walk of `add_interrupt_event_count` behind the first event. -/
def insertBehind {α : Type*} (before same : α → Bool) (x : α) : List α → List α
  | [] => [x]
  | n :: rest =>
    if before n then insertAfterTies same x (n :: rest) else n :: insertBehind before same x rest

/-- Where `add_interrupt_event_count` links the new event; `before n` says that the new event
    comes before `n`, and `same n` that their counts agree. -/
def insertEvent {α : Type*} (before same : α → Bool) (x : α) : List α → List α
  | [] => [x]
  | first :: rest =>
    if before first then x :: first :: rest else first :: insertBehind before same x rest

/-- The base of `before_event`: COUNT, or the count of the head when it is overdue. -/
def Cp0.base (c : Cp0) : BitVec 32 :=
  if 0 < c.cycleCount.toInt then c.count - c.cycleCount else c.count

/-- `before_event`. -/
def beforeEvent (c : Cp0) (evt1 evt2 : BitVec 32) : Bool := evt1 - c.base < evt2 - c.base

/-- `get_event`. -/
def getEvent (q : InterruptQueue) (type : IntType) : Option (BitVec 32) :=
  (q.events.find? (·.type == type)).map (·.count)

/-- The last two assignments of `add_interrupt_event_count`, from the first event. -/
def Cp0.refresh (c : Cp0) : Cp0 :=
  match c.q.events with
  | [] => { c with nextInterrupt := 0, cycleCount := 0 }
  | e :: _ => { c with nextInterrupt := e.count, cycleCount := c.count - e.count }

theorem insertAfterTies_of_strict {α : Type*} {before same : α → Bool} (x : α) {n : α}
    (rest : List α) (hstrict : before n = true → same n = false) (hn : before n = true) :
    insertAfterTies same x (n :: rest) = x :: n :: rest := by
  simp [insertAfterTies, hstrict hn]

/-- The loop over ties never takes a step: the walk stops in front of an event of a later count. -/
theorem insertEvent_eq_insertFirst {α : Type*} {before same : α → Bool} (x : α) (l : List α)
    (hstrict : ∀ n, before n = true → same n = false) :
    insertEvent before same x l = DueQueue.insertFirst before x l := by
  have hbehind : ∀ l, insertBehind before same x l = DueQueue.insertFirst before x l := by
    intro l
    induction l with
    | nil => rfl
    | cons n rest ih =>
      rw [insertBehind, DueQueue.insertFirst_cons]
      split
      · next hn => exact insertAfterTies_of_strict x rest (hstrict n) hn
      · rw [ih]
  cases l with
  | nil => rfl
  | cons first rest => rw [insertEvent, DueQueue.insertFirst_cons, hbehind]

/-- `before_event` is strict, so it never holds of equal counts. -/
theorem beforeEvent_ne (c : Cp0) (count : BitVec 32) (e : InterruptEvent)
    (h : beforeEvent c count e.count = true) : (e.count == count) = false := by
  simp only [beforeEvent, decide_eq_true_eq] at h
  rw [beq_eq_false_iff_ne]
  intro heq
  rw [heq] at h
  exact absurd h (BitVec.lt_irrefl _)

/-- The list after linking a new event. -/
def linkEvent (c : Cp0) (e : InterruptEvent) : List InterruptEvent :=
  insertEvent (fun n => beforeEvent c e.count n.count) (fun n => n.count == e.count) e c.q.events

theorem linkEvent_eq_insertFirst (c : Cp0) (e : InterruptEvent) :
    linkEvent c e =
      DueQueue.insertFirst (fun n => beforeEvent c e.count n.count) e c.q.events :=
  insertEvent_eq_insertFirst _ _ fun n hn => beforeEvent_ne c e.count n hn

theorem length_linkEvent (c : Cp0) (e : InterruptEvent) :
    (linkEvent c e).length = c.q.events.length + 1 := by
  rw [linkEvent_eq_insertFirst, DueQueue.length_insertFirst]

/-- `add_interrupt_event_count`. The event is dropped when `alloc_node` answers NULL. -/
def addInterruptEventCount (c : Cp0) (type : IntType) (count : BitVec 32) : Cp0 :=
  if h : c.q.events.length < poolCapacity then
    Cp0.refresh { c with
      q := ⟨linkEvent c ⟨type, count⟩, by rw [length_linkEvent]; exact h⟩ }
  else c

/-- `add_interrupt_event`. -/
def addInterruptEvent (c : Cp0) (type : IntType) (delay : BitVec 32) : Cp0 :=
  addInterruptEventCount c type (c.count + delay)

/-- The queue without its first event. -/
def InterruptQueue.pop (q : InterruptQueue) : InterruptQueue :=
  ⟨q.events.tail, by have := q.bounded; simp only [List.length_tail]; omega⟩

/-- `remove_interrupt_event`. The source reads the first event unchecked: callers hold a queue
    that is not empty. -/
def removeInterruptEvent (c : Cp0) : Cp0 := Cp0.refresh { c with q := c.q.pop }

/-- `remove_event`. The next event and the cycle count stay as they are. -/
def removeEvent (q : InterruptQueue) (type : IntType) : InterruptQueue :=
  ⟨q.events.eraseP (·.type == type),
    (List.eraseP_sublist.length_le).trans q.bounded⟩

/-- The end of the half period of COUNT: the count of SPECIAL_INT. -/
def specialCount (count : BitVec 32) : BitVec 32 := (count &&& 0x80000000) ^^^ 0x80000000

/-- COUNT and the cycle count moved together. -/
def Cp0.advance (c : Cp0) (n : BitVec 32) : Cp0 :=
  { c.set .count (c.count + n) with cycleCount := c.cycleCount + n }

/-- The insertion of COMPARE_INT as `MTC0`, `compare_int_handler` and `translate_event_queue` do it:
    COUNT is moved by `count_per_op` for the insertion, and the cycle count is then read from the
    head. -/
def armCompare (c : Cp0) (count : BitVec 32) : Cp0 :=
  let c := c.advance c.countPerOp
  let c := addInterruptEventCount c .compare count
  let c := c.set .count (c.count - c.countPerOp)
  match c.q.events with
  | [] => c
  | e :: _ => { c with cycleCount := c.count - e.count }

/-- The loop of `translate_event_queue`: every count keeps its distance to COUNT. -/
def InterruptQueue.rebase (q : InterruptQueue) (count base : BitVec 32) : InterruptQueue :=
  ⟨q.events.map fun e => { e with count := e.count - count + base },
    by rw [List.length_map]; exact q.bounded⟩

/-- `translate_event_queue`. -/
def translateEventQueue (c : Cp0) (base : BitVec 32) : Cp0 :=
  let c := { c with q := removeEvent c.q .compare }
  let c := { c with q := removeEvent c.q .special }
  let c := { c with q := c.q.rebase c.count base }
  let c := c.set .count base
  let c := addInterruptEventCount c .special (specialCount c.count)
  armCompare c (c.regs .compare)

/-- `clear_queue`. -/
def clearQueue : InterruptQueue := ⟨[], by simp⟩

/-- `init_interrupt`. -/
def initInterrupt (c : Cp0) : Cp0 :=
  let c := { c with q := clearQueue }
  let c := addInterruptEventCount c .special 0x80000000
  addInterruptEventCount c .compare 0

/-- `special_int_handler`. -/
def specialIntHandler (c : Cp0) : Cp0 :=
  let c := removeInterruptEvent c
  addInterruptEventCount c .special (specialCount c.count)

-- ════════════════════════════════════════════════════════════════════════
-- What each operation does to the list and to the registers
-- ════════════════════════════════════════════════════════════════════════

@[simp] theorem Cp0.set_q (c : Cp0) (reg : Cp0Reg) (v : BitVec 32) : (c.set reg v).q = c.q := rfl

@[simp] theorem Cp0.set_regs (c : Cp0) (reg : Cp0Reg) (v : BitVec 32) :
    (c.set reg v).regs = Function.update c.regs reg v := rfl

@[simp] theorem Cp0.advance_q (c : Cp0) (n : BitVec 32) : (c.advance n).q = c.q := rfl

@[simp] theorem Cp0.advance_regs (c : Cp0) (n : BitVec 32) :
    (c.advance n).regs = Function.update c.regs .count (c.count + n) := rfl

@[simp] theorem refresh_q (c : Cp0) : c.refresh.q = c.q := by
  unfold Cp0.refresh
  split <;> rfl

@[simp] theorem refresh_regs (c : Cp0) : c.refresh.regs = c.regs := by
  unfold Cp0.refresh
  split <;> rfl

theorem addInterruptEventCount_events (c : Cp0) (type : IntType) (count : BitVec 32) :
    (addInterruptEventCount c type count).q.events =
      if c.q.events.length < poolCapacity then linkEvent c ⟨type, count⟩ else c.q.events := by
  unfold addInterruptEventCount
  split
  · rw [refresh_q]
  · rfl

@[simp] theorem addInterruptEventCount_regs (c : Cp0) (type : IntType) (count : BitVec 32) :
    (addInterruptEventCount c type count).regs = c.regs := by
  unfold addInterruptEventCount
  split
  · rw [refresh_regs]
  · rfl

@[simp] theorem removeInterruptEvent_events (c : Cp0) :
    (removeInterruptEvent c).q.events = c.q.events.tail := by
  rw [removeInterruptEvent, refresh_q]
  rfl

@[simp] theorem removeInterruptEvent_regs (c : Cp0) : (removeInterruptEvent c).regs = c.regs := by
  rw [removeInterruptEvent, refresh_regs]

@[simp] theorem removeEvent_events (q : InterruptQueue) (type : IntType) :
    (removeEvent q type).events = q.events.eraseP (·.type == type) := rfl

theorem armCompare_q (c : Cp0) (v : BitVec 32) :
    (armCompare c v).q = (addInterruptEventCount (c.advance c.countPerOp) .compare v).q := by
  unfold armCompare
  dsimp only
  split <;> rfl

theorem addInterruptEventCount_countPerOp (c : Cp0) (type : IntType) (count : BitVec 32) :
    (addInterruptEventCount c type count).countPerOp = c.countPerOp := by
  unfold addInterruptEventCount Cp0.refresh
  split
  · split <;> rfl
  · rfl

/-- COUNT is moved for the insertion only. -/
@[simp] theorem armCompare_regs (c : Cp0) (v : BitVec 32) : (armCompare c v).regs = c.regs := by
  have hset : ∀ d : Cp0, d.regs = Function.update c.regs .count (c.count + c.countPerOp) →
      d.countPerOp = c.countPerOp → (d.set .count (d.count - d.countPerOp)).regs = c.regs := by
    intro d hd hn
    have hcount : d.count = c.count + c.countPerOp := by rw [Cp0.count, hd, Function.update_self]
    rw [Cp0.set_regs, hd, Function.update_idem, hcount, hn, BitVec.add_sub_cancel]
    exact Function.update_eq_self Cp0Reg.count c.regs
  unfold armCompare
  simp only
  split
  · exact hset _ (by simp) (addInterruptEventCount_countPerOp _ _ _)
  · exact hset _ (by simp) (addInterruptEventCount_countPerOp _ _ _)

end Mupen64plus
