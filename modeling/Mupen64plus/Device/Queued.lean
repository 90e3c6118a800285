import Mupen64plus.Lib.Flags
import Mupen64plus.Lib.Runs
import Mupen64plus.Device.Interrupts

/-!
# Events waiting for a device

How many events of a type are queued, and what the operations that devices use do to that number.

## Main definitions

- `Device.queued` — the number of queued events of a type
- `Device.hasRoom` — the pool has a free node
- `Device.isNext` — the head of the queue has a type, so that it is dispatched next
- `freshConsole` — a console that was just powered on
-/

namespace Mupen64plus

namespace InterruptQueue

/-- The number of events of a type. -/
def countOf (q : InterruptQueue) (type : IntType) : ℕ := q.events.countP (·.type == type)

/-- `alloc_node` answers a node. -/
def hasRoom (q : InterruptQueue) : Bool := q.events.length < poolCapacity

/-- The head of the queue is of a type. -/
def isNext (q : InterruptQueue) (type : IntType) : Bool := q.events.head?.map (·.type) == some type

variable {q : InterruptQueue} {type : IntType}

theorem countOf_clearQueue (type : IntType) : clearQueue.countOf type = 0 := rfl

/-- The head of the queue is counted. -/
theorem countOf_pop_of_isNext (h : q.isNext type) : q.countOf type = q.pop.countOf type + 1 := by
  obtain ⟨events, hbounded⟩ := q
  cases events with
  | nil => simp [isNext] at h
  | cons e rest =>
    have he : e.type = type := by simpa [isNext] using h
    simp [countOf, pop, he]

theorem countOf_pop_of_ne {other : IntType} (h : q.isNext other) (hne : other ≠ type) :
    q.pop.countOf type = q.countOf type := by
  obtain ⟨events, hbounded⟩ := q
  cases events with
  | nil => rfl
  | cons e rest =>
    have he : e.type = other := by simpa [isNext] using h
    have hcount : (e.type == type) = false := by
      rw [he, beq_eq_false_iff_ne]
      exact hne
    simp [countOf, pop, hcount]

end InterruptQueue

/-- An insertion adds one event of its type, if the pool has a node for it. -/
theorem countOf_addInterruptEventCount (c : Cp0) (added : IntType) (count : BitVec 32)
    (type : IntType) :
    (addInterruptEventCount c added count).q.countOf type =
      c.q.countOf type + (c.q.hasRoom && added == type).toNat := by
  unfold InterruptQueue.countOf InterruptQueue.hasRoom
  rw [addInterruptEventCount_events]
  split
  · next hroom =>
    rw [linkEvent_eq_insertFirst, (DueQueue.insertFirst_perm _ _ _).countP_eq, List.countP_cons]
    by_cases h : added = type <;> simp [hroom, h]
  · next hfull => simp [hfull]

/-- A check for interrupts queues nothing but CHECK_INT. -/
theorem countOf_r4300CheckInterrupt (c : Cp0) (causeIp : BitVec 32) (setCause : Bool)
    {type : IntType} (h : type ≠ .check) :
    (r4300CheckInterrupt c causeIp setCause).q.countOf type = c.q.countOf type := by
  unfold InterruptQueue.countOf
  rw [r4300CheckInterrupt_events]
  split
  · have hcheck : (IntType.check == type) = false := by
      rw [beq_eq_false_iff_ne]
      exact h.symm
    simp [hcheck]
  · rfl

/-- A console with the cached interpreter, just powered on with nothing plugged in. -/
def freshConsole : Device :=
  Device.powerOnDevice quietOutside (staticDevice (initR4300 .interpreter 2 0 0xa4000040))

namespace Device

/-- The number of queued events of a type. -/
abbrev queued (d : Device) (type : IntType) : ℕ := d.cp0.q.countOf type

/-- The pool has a free node. -/
abbrev hasRoom (d : Device) : Bool := d.cp0.q.hasRoom

/-- The next event to be dispatched is of a type. -/
abbrev isNext (d : Device) (type : IntType) : Bool := d.cp0.q.isNext type

@[simp] theorem updateCount_q (d : Device) : d.updateCount.cp0.q = d.cp0.q := rfl

@[simp] theorem popEvent_q (d : Device) : d.popEvent.cp0.q = d.cp0.q.pop := by
  simp only [cp0, popEvent, onCp0, removeInterruptEvent, refresh_q]

theorem queued_popEvent {d : Device} {type : IntType} (h : d.isNext type) :
    d.popEvent.queued type = d.queued type - 1 := by
  have hpop := InterruptQueue.countOf_pop_of_isNext h
  simp only [queued, popEvent_q]
  omega

theorem queued_pos_of_isNext {d : Device} {type : IntType} (h : d.isNext type) :
    0 < d.queued type := by
  have hpop := InterruptQueue.countOf_pop_of_isNext h
  simp only [queued]
  omega

theorem queued_popEvent_of_ne {d : Device} {type other : IntType} (h : d.isNext other)
    (hne : other ≠ type) : d.popEvent.queued type = d.queued type := by
  simp only [queued, popEvent_q]
  exact InterruptQueue.countOf_pop_of_ne h hne

/-- The dispatch of an event frees a node. -/
theorem hasRoom_popEvent {d : Device} {type : IntType} (h : d.isNext type) :
    d.popEvent.hasRoom = true := by
  have hbounded := d.cp0.q.bounded
  have hne : d.cp0.q.events ≠ [] := by
    intro hnil
    simp [InterruptQueue.isNext, hnil] at h
  have hpos := List.length_pos_iff.mpr hne
  rw [hasRoom, popEvent_q, InterruptQueue.hasRoom, decide_eq_true_eq,
    InterruptQueue.pop, List.length_tail]
  omega

@[simp] theorem dropEvent_q (d : Device) (type : IntType) :
    (d.dropEvent type).cp0.q = removeEvent d.cp0.q type := rfl

theorem queued_addEvent (d : Device) (added : IntType) (delay : BitVec 32) (type : IntType) :
    (d.addEvent added delay).queued type =
      d.queued type + (d.hasRoom && added == type).toNat :=
  countOf_addInterruptEventCount d.cp0 added (d.cp0.count + delay) type

theorem queued_addEvent_self (d : Device) (type : IntType) (delay : BitVec 32) :
    (d.addEvent type delay).queued type = d.queued type + d.hasRoom.toNat := by
  rw [queued_addEvent, beq_self_eq_true, Bool.and_true]

theorem queued_checkRcp (d : Device) {type : IntType} (h : type ≠ .check) :
    d.checkRcp.queued type = d.queued type :=
  countOf_r4300CheckInterrupt d.cp0 causeIP2 d.rcpPending h

theorem queued_signalRcpInterrupt (d : Device) (intr : BitVec 32) {type : IntType}
    (h : type ≠ .check) : (d.signalRcpInterrupt intr).queued type = d.queued type :=
  queued_checkRcp _ h

theorem queued_clearRcpInterrupt (d : Device) (intr : BitVec 32) {type : IntType}
    (h : type ≠ .check) : (d.clearRcpInterrupt intr).queued type = d.queued type :=
  queued_checkRcp _ h

/-- An interrupt changes the core, and of the rest `MI_INTR_REG` alone. -/
theorem raiseRcpInterrupt_eq (d : Device) (intr : BitVec 32) :
    ∃ r : R4300, d.raiseRcpInterrupt intr =
      { d.setMi .intr (d.mi.regs .intr ||| intr) with r4300 := r } := by
  unfold raiseRcpInterrupt
  simp only
  split
  · exact ⟨_, rfl⟩
  · exact ⟨_, rfl⟩

@[simp] theorem raiseRcpInterrupt_q (d : Device) (intr : BitVec 32) :
    (d.raiseRcpInterrupt intr).cp0.q = d.cp0.q := by
  unfold raiseRcpInterrupt
  simp only
  split
  · exact raiseMaskableInterrupt_q _ _
  · rfl

@[simp] theorem invalidate_cp0 (d : Device) (address size : BitVec 32) :
    (d.invalidate address size).cp0 = d.cp0 := by
  simp only [cp0, invalidate, onR4300, invalidateR4300CachedCode_cp0]

@[simp] theorem invalidateBoth_cp0 (d : Device) (dramAddr length : BitVec 32) :
    (d.invalidateBoth dramAddr length).cp0 = d.cp0 := by
  unfold invalidateBoth
  rw [invalidate_cp0, invalidate_cp0]

section

variable (d : Device) (v : BitVec 32)

@[simp] theorem onCp0_cp0 (f : Cp0 → Cp0) : (d.onCp0 f).cp0 = f d.cp0 := rfl
@[simp] theorem onR4300_cp0 (f : R4300 → R4300) : (d.onR4300 f).cp0 = (f d.r4300).cp0 := rfl
@[simp] theorem setDram_cp0 (m : Words) : (d.setDram m).cp0 = d.cp0 := rfl
@[simp] theorem setMi_cp0 (reg : MiReg) : (d.setMi reg v).cp0 = d.cp0 := rfl
@[simp] theorem setPi_cp0 (reg : PiReg) : (d.setPi reg v).cp0 = d.cp0 := rfl
@[simp] theorem setSi_cp0 (reg : SiReg) : (d.setSi reg v).cp0 = d.cp0 := rfl
@[simp] theorem setAi_cp0 (reg : AiReg) : (d.setAi reg v).cp0 = d.cp0 := rfl
@[simp] theorem setSp_cp0 (reg : SpReg) : (d.setSp reg v).cp0 = d.cp0 := rfl
@[simp] theorem setSp2_cp0 (reg : SpReg2) : (d.setSp2 reg v).cp0 = d.cp0 := rfl
@[simp] theorem setDpc_cp0 (reg : DpcReg) : (d.setDpc reg v).cp0 = d.cp0 := rfl

end

end Device

end Mupen64plus
