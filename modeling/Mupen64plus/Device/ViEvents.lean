import Mupen64plus.Device.AiBuffers
import Mupen64plus.Device.CheatUndo
import Mupen64plus.Device.Delays

/-!
# The vertical interrupt in the queue

What the registers of the video interface and its event do to the interface and to the event that is
queued for it, and that the audio interface leaves both alone.

## Main definitions

- `KeepsVi` — a step of something else
- `Device.viPending` — when the next vertical interrupt is due

## Main results

- `viPending_setViVerticalInterrupt`, `viPending_event` — the two places that queue an interrupt
- `writeViRegs_cases` — what a write can do
- `gsApplyCheats_kept` — cheats change neither the interface nor the queue
-/

namespace Mupen64plus

-- ════════════════════════════════════════════════════════════════════════
-- The event of a type
-- ════════════════════════════════════════════════════════════════════════

theorem getEvent_eq_filter (q : InterruptQueue) (type : IntType) :
    getEvent q type = ((q.events.filter (·.type == type)).head?).map (·.count) := by
  rw [List.head?_filter]
  rfl

theorem getEvent_eq_none_iff (q : InterruptQueue) (type : IntType) :
    getEvent q type = none ↔ q.countOf type = 0 := by
  unfold getEvent InterruptQueue.countOf
  rw [Option.map_eq_none_iff, List.find?_eq_none, List.countP_eq_zero]

/-- An insertion leaves the events of other types. -/
theorem getEvent_add_of_ne (c : Cp0) {added type : IntType} (count : BitVec 32)
    (h : added ≠ type) :
    getEvent (addInterruptEventCount c added count).q type = getEvent c.q type := by
  have hother : (added == type) = false := beq_eq_false_iff_ne.mpr h
  rw [getEvent_eq_filter, getEvent_eq_filter, addInterruptEventCount_events]
  split
  · rw [linkEvent_eq_insertFirst, DueQueue.filter_insertFirst
      (f := fun e : InterruptEvent => e.type == type) _ hother]
  · rfl

/-- An insertion of a type that was not queued. -/
theorem getEvent_add_self (c : Cp0) {type : IntType} (count : BitVec 32)
    (hnone : c.q.countOf type = 0) (hroom : c.q.hasRoom = true) :
    getEvent (addInterruptEventCount c type count).q type = some count := by
  have hempty : c.q.events.filter (·.type == type) = [] := by
    rw [List.filter_eq_nil_iff]
    exact List.countP_eq_zero.mp hnone
  have hperm := (DueQueue.insertFirst_perm (fun n => beforeEvent c count n.count) ⟨type, count⟩
    c.q.events).filter (·.type == type)
  rw [List.filter_cons_of_pos (p := fun e : InterruptEvent => e.type == type)
    (beq_self_eq_true type), hempty] at hperm
  rw [getEvent_eq_filter, addInterruptEventCount_events, if_pos (of_decide_eq_true hroom),
    linkEvent_eq_insertFirst, List.perm_singleton.mp hperm]
  rfl

theorem getEvent_pop_of_ne {q : InterruptQueue} {type other : IntType} (h : q.isNext other)
    (hne : other ≠ type) : getEvent q.pop type = getEvent q type := by
  obtain ⟨events, hbounded⟩ := q
  cases events with
  | nil => rfl
  | cons e rest =>
    have he : e.type = other := by simpa [InterruptQueue.isNext] using h
    have hother : ¬(e.type == type) = true := by
      rw [he, beq_iff_eq]
      exact hne
    rw [getEvent_eq_filter, getEvent_eq_filter,
      List.filter_cons_of_neg (p := fun e : InterruptEvent => e.type == type) hother]
    rfl

namespace Device

/-- When the next vertical interrupt is due. -/
def viPending (d : Device) : Option (BitVec 32) := getEvent d.cp0.q .vi

theorem viPending_eq_none_iff (d : Device) : d.viPending = none ↔ d.queued .vi = 0 :=
  getEvent_eq_none_iff _ _

end Device

/-- The video interface and its event are as they were. -/
structure ViKept (d d' : Device) : Prop where
  vi : d'.vi = d.vi
  pending : d'.viPending = d.viPending
  queued : d'.queued .vi = d.queued .vi

/-- A step of something else. -/
def KeepsVi (f : Device → Device) : Prop := ∀ d, ViKept d (f d)

theorem ViKept.refl (d : Device) : ViKept d d := ⟨rfl, rfl, rfl⟩

theorem ViKept.trans {d d' d'' : Device} (h : ViKept d d') (h' : ViKept d' d'') : ViKept d d'' :=
  ⟨h'.vi.trans h.vi, h'.pending.trans h.pending, h'.queued.trans h.queued⟩

/-- Only the queue matters of the core. -/
theorem ViKept.of_queue {d d' : Device} (hvi : d'.vi = d.vi) (hq : d'.cp0.q = d.cp0.q) :
    ViKept d d' := by
  refine ⟨hvi, ?_, ?_⟩
  · rw [Device.viPending, Device.viPending, hq]
  · rw [Device.queued, Device.queued, hq]

namespace Device

theorem viKept_addEvent (d : Device) {type : IntType} (delay : BitVec 32) (h : type ≠ .vi) :
    ViKept d (d.addEvent type delay) := by
  refine ⟨rfl, getEvent_add_of_ne _ _ h, ?_⟩
  rw [queued_addEvent, beq_eq_false_iff_ne.mpr h, Bool.and_false]
  rfl

theorem viKept_popEvent {d : Device} {type : IntType} (h : d.isNext type) (hne : type ≠ .vi) :
    ViKept d d.popEvent := by
  refine ⟨rfl, ?_, queued_popEvent_of_ne h hne⟩
  rw [viPending, popEvent_q, getEvent_pop_of_ne h hne]
  rfl

theorem viKept_raiseRcpInterrupt (d : Device) (intr : BitVec 32) :
    ViKept d (d.raiseRcpInterrupt intr) := by
  refine ViKept.of_queue ?_ (raiseRcpInterrupt_q d intr)
  obtain ⟨r, hr⟩ := d.raiseRcpInterrupt_eq intr
  rw [hr]
  rfl

/-- A check for interrupts queues nothing but CHECK_INT. -/
theorem viKept_clearRcpInterrupt (d : Device) (intr : BitVec 32) :
    ViKept d (d.clearRcpInterrupt intr) := by
  refine ⟨rfl, ?_, queued_clearRcpInterrupt d intr (by decide)⟩
  have hcheck : ¬(IntType.check == IntType.vi) = true := by decide
  rw [viPending, viPending, getEvent_eq_filter, getEvent_eq_filter]
  change (List.head? (List.filter _ (r4300CheckInterrupt d.cp0 causeIP2 _).q.events)).map _ = _
  rw [r4300CheckInterrupt_events]
  split
  · rw [List.filter_cons_of_neg (p := fun e : InterruptEvent => e.type == .vi) hcheck]
  · rfl

-- ════════════════════════════════════════════════════════════════════════
-- Cheats
-- ════════════════════════════════════════════════════════════════════════

/-- The interface and the core's registers and queue are as they were. -/
def CheatKept (d d' : Device) : Prop := d'.vi = d.vi ∧ d'.cp0 = d.cp0

theorem CheatKept.trans {d d' d'' : Device} (h : CheatKept d d') (h' : CheatKept d' d'') :
    CheatKept d d'' := ⟨h'.1.trans h.1, h'.2.trans h.2⟩

theorem cheatKept_refl (d : Device) : CheatKept d d := ⟨rfl, rfl⟩

theorem updateAddress8bit_kept (d : Device) (address : BitVec 32) (v : BitVec 8) :
    CheatKept d (d.updateAddress8bit address v) := ⟨rfl, by simp [updateAddress8bit]⟩

theorem updateAddress16bit_kept (d : Device) (address : BitVec 32) (v : BitVec 16) :
    CheatKept d (d.updateAddress16bit address v) := ⟨rfl, by simp [updateAddress16bit]⟩

theorem executeCheat_kept (d : Device) (address value : BitVec 32) (old : Option (BitVec 32)) :
    CheatKept d (d.executeCheat address value old).2.1 := by
  unfold executeCheat
  generalize cheatTag address = tag
  dsimp only
  split
  all_goals dsimp only
  all_goals first
    | with_reducible exact cheatKept_refl _
    | with_reducible exact updateAddress8bit_kept ..
    | with_reducible exact updateAddress16bit_kept ..
    | with_reducible exact (updateAddress16bit_kept ..).trans (updateAddress16bit_kept ..)

/-- A loop over codes keeps what every round keeps. -/
theorem mapCodes_kept {σ : Type*} (f : σ → CheatCode → σ × CheatCode) (view : σ → Device)
    (h : ∀ s code, CheatKept (view s) (view (f s code).1)) (s : σ) (codes : List CheatCode) :
    CheatKept (view s) (view (mapCodes f s codes).1) := by
  induction codes generalizing s with
  | nil => exact ⟨rfl, rfl⟩
  | cons code codes ih =>
    rw [mapCodes_cons]
    exact (h s code).trans (ih _)

theorem applyCode_kept (d : Device) (code : CheatCode) : CheatKept d (d.applyCode code).1 := by
  unfold applyCode
  exact executeCheat_kept ..

theorem viCode_kept (o : Outside) (s : Device × Bool) (code : CheatCode) :
    CheatKept s.1 (viCode o s code).1.1 := by
  unfold viCode
  dsimp only
  split_ifs
  all_goals first
    | with_reducible exact cheatKept_refl _
    | with_reducible exact executeCheat_kept ..
    | with_reducible exact applyCode_kept ..

theorem bootCode_kept (d : Device) (code : CheatCode) : CheatKept d (d.bootCode code).1 := by
  unfold bootCode
  split
  · exact applyCode_kept ..
  · exact ⟨rfl, rfl⟩

theorem restoreCode_kept (d : Device) (code : CheatCode) : CheatKept d (d.restoreCode code).1 := by
  unfold restoreCode
  split
  · exact executeCheat_kept ..
  · exact ⟨rfl, rfl⟩

theorem applyCheat_kept (o : Outside) (entry : CheatEntry) (d : Device) (cheat : Cheat) :
    CheatKept d (applyCheat o entry d cheat).1 := by
  unfold applyCheat
  split_ifs
  · cases entry with
    | boot => exact mapCodes_kept bootCode id bootCode_kept d cheat.codes
    | vi => exact mapCodes_kept (viCode o) Prod.fst (viCode_kept o) (d, false) cheat.codes
  · cases entry with
    | boot => exact ⟨rfl, rfl⟩
    | vi => exact mapCodes_kept restoreCode id restoreCode_kept d cheat.codes
  · exact ⟨rfl, rfl⟩

theorem cheatApplyCheats_kept (o : Outside) (entry : CheatEntry) (d : Device) :
    CheatKept d (cheatApplyCheats o entry d) := by
  have hloop (cheats : List Cheat) (d : Device) :
      CheatKept d (applyCheats o entry d cheats).1 := by
    induction cheats generalizing d with
    | nil => exact ⟨rfl, rfl⟩
    | cons cheat rest ih => exact (applyCheat_kept o entry d cheat).trans (ih _)
  exact hloop d.cheats d

/-- **Cheats change neither the interface nor the queue.** -/
theorem gsApplyCheats_kept (o : Outside) (d : Device) : CheatKept d (gsApplyCheats o d) := by
  unfold gsApplyCheats
  split
  · dsimp only
    split
    · exact cheatApplyCheats_kept o .boot d
    · exact ⟨rfl, rfl⟩
  · exact cheatApplyCheats_kept o .vi d

-- ════════════════════════════════════════════════════════════════════════
-- The registers and the event of the video interface
-- ════════════════════════════════════════════════════════════════════════

/-- What a read of VI_CURRENT answers. -/
def viRead (d : Device) : BitVec 32 :=
  ((match d.viPending with
    | none => d.vi.regs .current
    | some next => d.updateCount.viCurrentLine next) &&& ~~~1) ||| d.vi.field

/-- The count is brought up to date when an interrupt is queued. -/
def viCounted (d : Device) : Device := if d.viPending.isSome then d.updateCount else d

theorem viKept_viCounted (d : Device) : ViKept d d.viCounted := by
  unfold viCounted
  split
  · exact ViKept.of_queue rfl (updateCount_q d)
  · exact ViKept.refl d

theorem readViRegs_current {d : Device} {address : BitVec 32}
    (h : regAt ViReg.block address = some .current) :
    d.readViRegs address = (d.viRead, d.viCounted.setVi .current d.viRead) := by
  have htwice (e : Device) (x y : BitVec 32) :
      (e.setVi .current x).setVi .current y = e.setVi .current y := by
    simp only [setVi, Function.update_idem]
  unfold readViRegs viRead viCounted
  rw [h]
  dsimp only
  rw [← viPending]
  cases d.viPending with
  | none => simp
  | some next =>
    simp only [htwice, Option.isSome_some, if_true]
    rfl

theorem readViRegs_other {d : Device} {address : BitVec 32}
    (h : regAt ViReg.block address ≠ some .current) : (d.readViRegs address).2 = d := by
  unfold readViRegs
  split
  · rfl
  · next hreg => exact absurd hreg h
  · rfl

/-- An interrupt is queued if none is and the line of the interrupt exists. -/
theorem setViVerticalInterrupt_cases (d : Device) : d.setViVerticalInterrupt = d ∨
    d.viPending = none ∧ d.vi.regs .vIntr < d.vi.regs .vSync ∧
      d.setViVerticalInterrupt = d.updateCount.addEvent .vi d.vi.delay := by
  unfold setViVerticalInterrupt
  split
  · next h => exact Or.inr ⟨Option.isNone_iff_eq_none.mp h.1, h.2, rfl⟩
  · exact Or.inl rfl

/-- With an interrupt queued none is added. -/
theorem setViVerticalInterrupt_of_pending {d : Device} (h : d.viPending ≠ none) :
    d.setViVerticalInterrupt = d := by
  rcases setViVerticalInterrupt_cases d with hsame | ⟨hnone, -⟩
  · exact hsame
  · exact absurd hnone h

/-- The first interrupt, where the pool has a node for it. -/
theorem viPending_queuedFirst {d : Device} (h : d.viPending = none) :
    (d.updateCount.addEvent .vi d.vi.delay).viPending =
        (if d.hasRoom then some (d.updateCount.cp0.count + d.vi.delay) else none) ∧
      (d.updateCount.addEvent .vi d.vi.delay).queued .vi = d.hasRoom.toNat := by
  have hnone := (viPending_eq_none_iff d).mp h
  constructor
  · split
    · next hroom => exact getEvent_add_self d.updateCount.cp0 _ hnone hroom
    · next hfull =>
      have hevents : ¬d.updateCount.cp0.q.events.length < poolCapacity := by
        simpa [hasRoom, InterruptQueue.hasRoom] using hfull
      change getEvent (addInterruptEventCount d.updateCount.cp0 .vi _).q .vi = none
      rw [addInterruptEventCount, dif_neg hevents]
      exact h
  · rw [queued_addEvent_self]
    change d.queued .vi + d.hasRoom.toNat = _
    rw [hnone, Nat.zero_add]

/-- What a write to a register of the video interface can do. -/
theorem writeViRegs_cases (d : Device) (address value mask : BitVec 32) :
    ViKept d (d.writeViRegs address value mask) ∨
      (regAt ViReg.block address = some .vSync ∧ d.vi.regs .vSync &&& mask ≠ value &&& mask ∧
        d.writeViRegs address value mask =
          (d.setVi .vSync (maskedWrite (d.vi.regs .vSync) value
            mask)).viTiming.setViVerticalInterrupt) ∨
      (regAt ViReg.block address = some .vIntr ∧ d.writeViRegs address value mask =
        (d.setVi .vIntr (maskedWrite (d.vi.regs .vIntr) value mask)).setViVerticalInterrupt) ∨
      ∃ reg v, reg ≠ .vSync ∧ reg ≠ .current ∧ d.writeViRegs address value mask =
        d.setVi reg v := by
  unfold writeViRegs
  split
  · exact Or.inl (ViKept.refl d)
  · exact Or.inl (viKept_clearRcpInterrupt d miIntrVI)
  · next hreg =>
    split
    · next hchange => exact Or.inr (Or.inl ⟨hreg, hchange, rfl⟩)
    · exact Or.inl (ViKept.refl d)
  · next hreg => exact Or.inr (Or.inr (Or.inl ⟨hreg, rfl⟩))
  · next reg hcurrent hsync hintr hreg =>
    exact Or.inr (Or.inr (Or.inr ⟨reg, _, hsync, hcurrent, rfl⟩))

/-- The field and the delay of the next frame, and its interrupt in place of the one at the head. -/
def viRepeated (d : Device) : Device :=
  onCp0 (fun c => addInterruptEventCount (removeInterruptEvent c) .vi
      (d.viPending.getD 0 + d.viNextDelay))
    { d with vi := { d.vi with
      field := d.vi.field ^^^ ((d.vi.regs .status >>> 6) &&& 0x1)
      delay := d.viNextDelay } }

theorem viVerticalInterruptEvent_eq (o : Outside) (d : Device) :
    ∃ e, CheatKept d e ∧
      viVerticalInterruptEvent o d = e.viRepeated.raiseRcpInterrupt miIntrVI := by
  unfold viVerticalInterruptEvent
  by_cases hfreeze : d.dp.doOnUnfreeze &&& 0x001 ≠ 0
  · rw [if_pos hfreeze]
    exact ⟨_, gsApplyCheats_kept o { d with
      dp := { d.dp with doOnUnfreeze := d.dp.doOnUnfreeze ||| 0x002 } }, rfl⟩
  · rw [if_neg hfreeze]
    exact ⟨_, gsApplyCheats_kept o d, rfl⟩

/-- **The vertical interrupt repeats itself**, a delay behind its own due time. -/
theorem viPending_event (o : Outside) {d : Device} (h : d.isNext .vi) (hone : d.queued .vi ≤ 1) :
    (viVerticalInterruptEvent o d).vi =
        { d.vi with
          field := d.vi.field ^^^ ((d.vi.regs .status >>> 6) &&& 0x1)
          delay := d.viNextDelay } ∧
      (viVerticalInterruptEvent o d).viPending = some (d.viPending.getD 0 + d.viNextDelay) ∧
      (viVerticalInterruptEvent o d).queued .vi = 1 := by
  obtain ⟨e, ⟨hvi, hcp0⟩, hevent⟩ := viVerticalInterruptEvent_eq o d
  have hkept := viKept_raiseRcpInterrupt e.viRepeated miIntrVI
  have hpending : e.viPending = d.viPending := by rw [viPending, hcp0, ← viPending]
  have hnext : e.viNextDelay = d.viNextDelay := by rw [viNextDelay, hvi, ← viNextDelay]
  have hpop := InterruptQueue.countOf_pop_of_isNext h
  have hnone : (removeInterruptEvent e.cp0).q.countOf .vi = 0 := by
    rw [hcp0, removeInterruptEvent, refresh_q]
    change d.cp0.q.countOf .vi ≤ 1 at hone
    change d.cp0.q.pop.countOf .vi = 0
    omega
  have hroom : (removeInterruptEvent e.cp0).q.hasRoom = true := by
    rw [hcp0]
    exact hasRoom_popEvent h
  rw [hevent]
  refine ⟨hkept.vi.trans ?_, hkept.pending.trans ?_, hkept.queued.trans ?_⟩
  · rw [viRepeated, ← hnext, ← hvi]
    rfl
  · rw [← hnext, ← hpending]
    exact getEvent_add_self (removeInterruptEvent e.cp0) _ hnone hroom
  · change (addInterruptEventCount (removeInterruptEvent e.cp0) .vi _).q.countOf .vi = 1
    rw [countOf_addInterruptEventCount, hnone, hroom]
    rfl

end Device

-- ════════════════════════════════════════════════════════════════════════
-- The audio interface
-- ════════════════════════════════════════════════════════════════════════

theorem ViKept.aiDoDma {d e : Device} (h : ViKept d e) : ViKept d e.aiDoDma := by
  obtain ⟨frequency, changed, hformat⟩ := e.aiFormat_eq
  refine h.trans ?_
  unfold Device.aiDoDma
  rw [hformat]
  refine ViKept.trans ?_ (Device.viKept_addEvent _ _ (by decide))
  exact ViKept.of_queue rfl rfl

theorem ViKept.aiFifoPush {d e : Device} (h : ViKept d e) : ViKept d e.aiFifoPush := by
  refine h.trans ?_
  unfold Device.aiFifoPush
  dsimp only
  split
  · exact ViKept.of_queue rfl rfl
  · exact ViKept.aiDoDma (ViKept.of_queue rfl rfl)

theorem ViKept.aiFifoPop {d e : Device} (h : ViKept d e) : ViKept d e.aiFifoPop := by
  refine h.trans ?_
  unfold Device.aiFifoPop
  split
  · exact ViKept.aiDoDma (ViKept.of_queue rfl rfl)
  · exact ViKept.of_queue rfl rfl

namespace Device

theorem viKept_readAiRegs (d : Device) (address : BitVec 32) :
    ViKept d (d.readAiRegs address).2 := by
  have hlength : ViKept d d.aiRemainingLength.2 := by
    refine ViKept.of_queue ?_ (aiRemainingLength_same d).2
    unfold aiRemainingLength
    dsimp only
    split
    · rfl
    · split
      · rfl
      · split <;> rfl
  unfold readAiRegs
  split
  · exact ViKept.refl d
  · generalize d.aiRemainingLength = answer at hlength
    dsimp only
    split
    · exact hlength.trans (ViKept.of_queue rfl rfl)
    · exact hlength
  · exact ViKept.refl d

theorem viKept_writeAiRegs (d : Device) (address value mask : BitVec 32) :
    ViKept d (d.writeAiRegs address value mask) := by
  unfold writeAiRegs
  split
  · exact ViKept.refl d
  · dsimp only
    split
    · exact ViKept.aiFifoPush (ViKept.of_queue rfl rfl)
    · exact ViKept.of_queue rfl rfl
  · exact viKept_clearRcpInterrupt d miIntrAI
  · dsimp only
    split <;> exact ViKept.of_queue rfl rfl
  · exact ViKept.of_queue rfl rfl

theorem viKept_aiEvent {d : Device} (h : d.isNext .ai) :
    ViKept d (interruptHandler quietOutside d .ai) := by
  change ViKept d d.popEvent.aiEndOfDmaEvent
  refine (viKept_popEvent h (by decide)).trans ?_
  generalize d.popEvent = e
  unfold aiEndOfDmaEvent
  refine ViKept.trans (ViKept.aiFifoPop ?_) (viKept_raiseRcpInterrupt _ _)
  split
  · exact ViKept.of_queue rfl rfl
  · exact ViKept.refl e

-- ════════════════════════════════════════════════════════════════════════
-- Power on
-- ════════════════════════════════════════════════════════════════════════

/-- `init_vi`, with the clock and the refresh rate of a television standard. -/
def initVi (d : Device) (tv : TvStandard) : Device :=
  { d with vi := { d.vi with clock := tv.clock, expectedRefreshRate := tv.refreshRate } }

/-- The power on of the drive only takes an event away. -/
theorem powerOnDd_vi (d : Device) :
    d.powerOnDd.vi = d.vi ∧ d.powerOnDd.queued .vi ≤ d.queued .vi := by
  have hq : d.powerOnDd.vi = d.vi ∧ d.powerOnDd.cp0.q = removeEvent d.cp0.q .ddDv := by
    unfold powerOnDd
    dsimp only
    split <;> split <;> exact ⟨rfl, rfl⟩
  refine ⟨hq.1, ?_⟩
  change d.powerOnDd.cp0.q.countOf .vi ≤ _
  rw [hq.2]
  exact List.eraseP_sublist.countP_le

/-- Power on resets the interface, and queues no vertical interrupt. -/
theorem powerOnDevice_vi (o : Outside) (d : Device) :
    (powerOnDevice o d).vi = d.powerOnVi.vi ∧ (powerOnDevice o d).viPending = none := by
  -- the device before the joybus devices
  let e := d.powerOnRdram.onR4300 powerOnR4300
  let e' := e.powerOnRdp.powerOnRsp.powerOnAi.powerOnMi.powerOnPi.powerOnRi.powerOnSi
    |>.powerOnVi.powerOnPif.powerOnCart.powerOnIsViewer
  have hbefore (e : Device) :
      (e.powerOnRdp.powerOnRsp.powerOnAi.powerOnMi.powerOnPi.powerOnRi.powerOnSi
        |>.powerOnVi.powerOnPif.powerOnCart.powerOnIsViewer).vi = e.powerOnVi.vi ∧
      (e.powerOnRdp.powerOnRsp.powerOnAi.powerOnMi.powerOnPi.powerOnRi.powerOnSi
        |>.powerOnVi.powerOnPif.powerOnCart.powerOnIsViewer).cp0.q = e.cp0.q := ⟨rfl, rfl⟩
  have hvi : e'.vi = d.powerOnVi.vi := (hbefore e).1
  have hqueued : e'.queued .vi = 0 := by
    have hempty : clearQueue.countOf .vi = 0 := rfl
    have hcore : e.cp0 = powerOnCp0 d.r4300.cp0 := rfl
    rw [queued, (hbefore e).2, hcore]
    simp only [powerOnCp0, initInterrupt, countOf_addInterruptEventCount, hempty]
    simp
  have heq : powerOnDevice o d =
      let e := (List.finRange 4).foldl (fun d k => d.joybus (o.joybusPowerOn k)) e'
      if 0 < e.dd.romSize then e.powerOnDd else e := rfl
  have hjoybus : ∀ (l : List (Fin 4)) (e : Device),
      (l.foldl (fun d k => d.joybus (o.joybusPowerOn k)) e).vi = e.vi ∧
        (l.foldl (fun d k => d.joybus (o.joybusPowerOn k)) e).queued .vi = e.queued .vi := by
    intro l
    induction l with
    | nil => exact fun _ => ⟨rfl, rfl⟩
    | cons k l ih => exact fun e => ih (e.joybus (o.joybusPowerOn k))
  obtain ⟨hvi', hqueued'⟩ := hjoybus (List.finRange 4) e'
  rw [viPending_eq_none_iff, heq]
  dsimp only
  split
  · obtain ⟨hdd, hle⟩ := powerOnDd_vi ((List.finRange 4).foldl
      (fun d k => d.joybus (o.joybusPowerOn k)) e')
    exact ⟨(hdd.trans hvi').trans hvi, by omega⟩
  · exact ⟨hvi'.trans hvi, hqueued'.trans hqueued⟩

end Device

end Mupen64plus
