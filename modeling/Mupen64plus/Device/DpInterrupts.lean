import Mupen64plus.Device.SpTransfers

/-!
# Interrupts of the display processor

A display list that raises the interrupt of the display processor is delivered at once where DPC_END
was written. Where a graphics task ran it, the interrupt is delayed by an event, or until the
display processor is unfrozen, by a latch of one bit.

## Main definitions

- `DpStep`, `Device.dpStep` — register writes, tasks and events, and the steps of anything else
- `DpRun` — a console with the lists that raised the interrupt, and the interrupts delivered
- `DpStep.Orderly` — tasks find room for the delayed interrupt, and take none back

## Main results

- `dpDelivers_spec` — what is counted as a delivery is what sets the interrupt
- `dp_once_iff` — along a run each list is delivered once, or waits for it, exactly when every step
  is orderly
-/

namespace Mupen64plus

/-- What is seen of the interrupt: whether it is pending, whether one is put off until the display
    processor is unfrozen, and how many are put off by an event. -/
structure DpPort where
  pending : Bool
  latched : Bool
  queued : ℕ
  deriving DecidableEq, Repr

def Device.dpPort (d : Device) : DpPort where
  pending := d.mi.regs .intr &&& miIntrDP != 0
  latched := d.dp.doOnUnfreeze &&& 0x001 != 0
  queued := d.queued .dp

/-- What anything else does to the interrupt: a program takes it back when it has seen it. -/
def KeepsDp (f : Device → Device) : Prop :=
  ∀ d, (f d).dpPort.latched = d.dpPort.latched ∧ (f d).dpPort.queued = d.dpPort.queued ∧
    ((f d).dpPort.pending = true → d.dpPort.pending = true)

/-- What happens to the interrupt; `other` is a step of anything else. -/
inductive DpStep where
  | writeDpc (o : Outside) (address value mask : BitVec 32)
  | writeSp (o : Outside) (address value mask : BitVec 32)
  | dpEvent
  | spEvent
  | other (f : Device → Device) (keeps : KeepsDp f)

namespace Device

/-- One step. The event of another device at the head of the queue is left to `other`. -/
def dpStep (d : Device) : DpStep → Device
  | .writeDpc o address value mask => writeDpcRegs o d address value mask
  | .writeSp o address value mask => writeRspRegs o d address value mask
  | .dpEvent => if d.isNext .dp then interruptHandler quietOutside d .dp else d
  | .spEvent => if d.isNext .sp then interruptHandler quietOutside d .sp else d
  | .other f _ => f d

/-- The task that a step starts: the console it starts on, and what the plugin answers. -/
def dpTask (d : Device) : DpStep → Option (Device × PluginView)
  | .writeSp o address value mask =>
    if regAt SpReg.block address = some .status ∧
        (d.spStatusWritten (value &&& mask)).startsTask (value &&& mask) = true then
      some (d.spStatusWritten (value &&& mask), spTaskAnswer o d (value &&& mask))
    else none
  | _ => none

/-- The task of the header in DMEM is one for the graphics plugin. -/
def gfxTask (d : Device) : Bool := d.sp.mem 0x3f0 == 1

end Device

def PluginView.dpRaised (v : PluginView) : Bool := v.miIntr &&& miIntrDP != 0

def PluginView.frozen (v : PluginView) : Bool := v.dpcRegs .status &&& 0x002 != 0

namespace Device

/-- A display list that raises the interrupt: every one of DPC_END does, and one of a task that
    finds it not pending and leaves it pending. -/
def dpRaises (d : Device) (a : DpStep) : Bool :=
  match a, d.dpTask a with
  | .writeDpc _ address _ _, _ => regAt DpcReg.block address = some .stop
  | _, some (_, answer) => !d.dpPort.pending && answer.dpRaised
  | _, none => false

/-- An interrupt that is delivered to the MIPS interface, and stays there. -/
def dpDelivers (d : Device) (a : DpStep) : Bool :=
  match a, d.dpTask a with
  | .writeDpc _ address value mask, _ =>
    match regAt DpcReg.block address with
    | some .stop => true
    | some .status => value &&& mask &&& 0x004 != 0 && d.dpPort.latched
    | _ => false
  | .dpEvent, _ => d.isNext .dp
  | _, some (e, answer) => !e.gfxTask && !d.dpPort.pending && answer.dpRaised
  | _, none => false

/-- An interrupt that one of the processors takes back from the MIPS interface. -/
def dpWithdraws (d : Device) : DpStep → Bool
  | .other _ _ => false
  | a => d.dpPort.pending && !(d.dpStep a).dpPort.pending

end Device

/-- A console with the lists that raised the interrupt, the interrupts delivered, and those taken
    back. -/
structure DpRun where
  device : Device
  raised : ℕ
  delivered : ℕ
  withdrawn : ℕ

def DpRun.step (s : DpRun) (a : DpStep) : DpRun where
  device := s.device.dpStep a
  raised := s.raised + (s.device.dpRaises a).toNat
  delivered := s.delivered + (s.device.dpDelivers a).toNat
  withdrawn := s.withdrawn + (s.device.dpWithdraws a).toNat

/-- Every list that raised the interrupt was delivered once, or waits for an event or for the
    display processor to be unfrozen, and nothing was taken back. -/
structure DpOnce (s : DpRun) : Prop where
  once : s.raised = s.delivered + s.device.dpPort.queued + s.device.dpPort.latched.toNat
  kept : s.withdrawn = 0

/-- A graphics task finds no interrupt pending, and one that raises it finds the latch free or the
    pool with a node. The plugin of another task takes no interrupt back. -/
def DpStep.Orderly (d : Device) (a : DpStep) : Prop :=
  match d.dpTask a with
  | none => True
  | some (e, answer) =>
    if e.gfxTask then
      d.dpPort.pending = false ∧ (answer.dpRaised = true →
        if answer.frozen then d.dpPort.latched = false else e.hasRoom = true)
    else d.dpPort.pending = true → answer.dpRaised = true

namespace Device

-- ════════════════════
-- What leaves the interrupt alone
-- ════════════════════

theorem dpPort_of_parts {d d' : Device}
    (hintr : d'.mi.regs .intr &&& miIntrDP = d.mi.regs .intr &&& miIntrDP) (hdp : d'.dp = d.dp)
    (hqueued : d'.queued .dp = d.queued .dp) : d'.dpPort = d.dpPort := by
  unfold dpPort
  rw [hintr, hdp, hqueued]

theorem dpPort_signal (d : Device) {intr : BitVec 32} (h : intr &&& miIntrDP = 0) :
    (d.signalRcpInterrupt intr).dpPort = d.dpPort := by
  refine dpPort_of_parts ?_ rfl (queued_signalRcpInterrupt d intr (by decide))
  exact Flags.or_and_of_disjoint h

theorem dpPort_clear (d : Device) {intr : BitVec 32} (h : miIntrDP &&& intr = 0) :
    (d.clearRcpInterrupt intr).dpPort = d.dpPort := by
  refine dpPort_of_parts ?_ rfl (queued_clearRcpInterrupt d intr (by decide))
  exact Flags.andNot_and_of_disjoint h

theorem dpPort_raise (d : Device) {intr : BitVec 32} (h : intr &&& miIntrDP = 0) :
    (d.raiseRcpInterrupt intr).dpPort = d.dpPort := by
  obtain ⟨r, hr⟩ := raiseRcpInterrupt_eq d intr
  have hqueued : (d.raiseRcpInterrupt intr).queued .dp = d.queued .dp :=
    congrArg (fun q : InterruptQueue => q.countOf .dp) (raiseRcpInterrupt_q d intr)
  refine dpPort_of_parts ?_ (by rw [hr]; rfl) hqueued
  rw [hr]
  exact Flags.or_and_of_disjoint h

/-- An interrupt that is delivered stays in MI_INTR. -/
theorem dpPort_signal_dp (d : Device) :
    (d.signalRcpInterrupt miIntrDP).dpPort = { d.dpPort with pending := true } := by
  have hpending : (d.mi.regs .intr ||| miIntrDP) &&& miIntrDP ≠ 0 :=
    Flags.or_and_ne_zero.mpr (.inr (by decide))
  have hqueued := queued_signalRcpInterrupt d miIntrDP (show IntType.dp ≠ .check by decide)
  unfold dpPort
  rw [hqueued, DpPort.mk.injEq]
  exact ⟨bne_iff_ne.mpr hpending, rfl, rfl⟩

theorem dpPort_raise_dp (d : Device) :
    (d.raiseRcpInterrupt miIntrDP).dpPort = { d.dpPort with pending := true } := by
  obtain ⟨r, hr⟩ := raiseRcpInterrupt_eq d miIntrDP
  have hpending : (d.mi.regs .intr ||| miIntrDP) &&& miIntrDP ≠ 0 :=
    Flags.or_and_ne_zero.mpr (.inr (by decide))
  have hqueued : (d.raiseRcpInterrupt miIntrDP).queued .dp = d.queued .dp :=
    congrArg (fun q : InterruptQueue => q.countOf .dp) (raiseRcpInterrupt_q d miIntrDP)
  unfold dpPort
  rw [hqueued, DpPort.mk.injEq, hr]
  exact ⟨bne_iff_ne.mpr hpending, rfl, rfl⟩

theorem dpPort_addEvent (d : Device) {type : IntType} (delay : BitVec 32) (h : type ≠ .dp) :
    (d.addEvent type delay).dpPort = d.dpPort := by
  refine dpPort_of_parts rfl rfl ?_
  rw [queued_addEvent, beq_eq_false_iff_ne.mpr h, Bool.and_false]
  rfl

theorem dpPort_doSpDma (d : Device) (dma : SpDma) : (d.doSpDma dma).dpPort = d.dpPort := by
  unfold doSpDma
  cases d.spDmaRows dma with
  | mk m addresses =>
    simp only
    rw [dpPort_addEvent _ _ (by decide)]
    split <;> rfl

theorem dpPort_spFifoPush (d : Device) (dir : BitVec 32) : (d.spFifoPush dir).dpPort =
    d.dpPort := by
  unfold spFifoPush
  simp only
  split
  · rfl
  · split
    · rfl
    · rw [dpPort_doSpDma]
      rfl

theorem spStatusWritten_dp (d : Device) (w : BitVec 32) :
    (d.spStatusWritten w).dpPort = d.dpPort ∧ (d.spStatusWritten w).sp.mem = d.sp.mem := by
  let Same (e e' : Device) : Prop := e'.dpPort = e.dpPort ∧ e'.sp.mem = e.sp.mem
  have hclear : ∀ e, Same e (if w &&& 0x18 = 0x8 then e.clearRcpInterrupt miIntrSP else e) := by
    intro e
    split
    · exact ⟨dpPort_clear e (by decide), rfl⟩
    · exact ⟨rfl, rfl⟩
  have hsignal : ∀ e, Same e (if w &&& 0x18 = 0x10 then e.signalRcpInterrupt miIntrSP else e) := by
    intro e
    split
    · exact ⟨dpPort_signal e (by decide), rfl⟩
    · exact ⟨rfl, rfl⟩
  have hfirst := hclear (d.setSp .status (spHaltBroke d.spStatus w))
  have hsecond := hsignal (if w &&& 0x18 = 0x8 then
    (d.setSp .status (spHaltBroke d.spStatus w)).clearRcpInterrupt miIntrSP
    else d.setSp .status (spHaltBroke d.spStatus w))
  exact ⟨hsecond.1.trans hfirst.1, hsecond.2.trans hfirst.2⟩

-- ════════════════════
-- Tasks
-- ════════════════════

theorem dpPort_runRsp (o : Outside) (d : Device) :
    (runRsp o d).dpPort = { d.dpPort with
      pending :=
        (o.doRspCycles (d.setSp2 .pc (d.sp.regs2 .pc &&& 0xfff)).pluginView).dpRaised } := by
  unfold dpPort PluginView.dpRaised
  rw [DpPort.mk.injEq]
  exact ⟨rfl, rfl, rfl⟩

/-- The interrupt of a graphics task is taken from MI_INTR, and put off. -/
theorem dpPort_delayDpInt (d : Device) :
    d.delayDpInt.dpPort =
      if d.dpPort.pending then
        if d.dp.dpcRegs .status &&& 0x002 ≠ 0 then ⟨false, true, d.dpPort.queued⟩
        else ⟨false, d.dpPort.latched, d.dpPort.queued + d.hasRoom.toNat⟩
      else d.dpPort := by
  have hcleared : (d.mi.regs .intr &&& ~~~miIntrDP) &&& miIntrDP = 0 :=
    Flags.andNot_and_of_covered (by decide)
  have hlatched : (d.dp.doOnUnfreeze ||| 0x001) &&& 0x001 ≠ 0 :=
    Flags.or_and_ne_zero.mpr (.inr (by decide))
  unfold delayDpInt
  cases hpending : d.dpPort.pending with
  | false =>
    have hzero : d.mi.regs .intr &&& miIntrDP = 0 := by simpa [dpPort] using hpending
    rw [if_pos hzero]
    rfl
  | true =>
    have hne : d.mi.regs .intr &&& miIntrDP ≠ 0 := by simpa [dpPort] using hpending
    rw [if_neg hne]
    simp only [setMi_dp, if_true]
    split
    · unfold dpPort
      rw [DpPort.mk.injEq]
      exact ⟨bne_eq_false_iff_eq.mpr hcleared, bne_iff_ne.mpr hlatched, rfl⟩
    · have hqueued := queued_addEvent_self
        (d.setMi .intr (d.mi.regs .intr &&& ~~~miIntrDP)).updateCount .dp 4000
      unfold dpPort
      rw [DpPort.mk.injEq]
      exact ⟨bne_eq_false_iff_eq.mpr hcleared, rfl, hqueued⟩

/-- The interrupt behind a task. -/
theorem dpPort_doSPTask (o : Outside) (d : Device) {answer : PluginView}
    (hanswer : o.doRspCycles (d.setSp2 .pc (d.sp.regs2 .pc &&& 0xfff)).pluginView = answer) :
    (doSPTask o d).dpPort =
      if d.gfxTask && answer.dpRaised then
        if answer.frozen then ⟨false, true, d.dpPort.queued⟩
        else ⟨false, d.dpPort.latched, d.dpPort.queued + d.hasRoom.toNat⟩
      else { d.dpPort with pending := answer.dpRaised } := by
  have hrun := dpPort_runRsp o d
  rw [hanswer] at hrun
  have htask : (runTask o d).1.dpPort =
      if d.gfxTask && answer.dpRaised then
        if answer.frozen then ⟨false, true, d.dpPort.queued⟩
        else ⟨false, d.dpPort.latched, d.dpPort.queued + d.hasRoom.toNat⟩
      else { d.dpPort with pending := answer.dpRaised } := by
    have hstatus : (runRsp o d).dp.dpcRegs .status = answer.dpcRegs .status := by
      rw [← hanswer]
      rfl
    have hroom : (runRsp o d).hasRoom = d.hasRoom := rfl
    unfold runTask gfxTask
    split
    · next hgfx =>
      rw [dpPort_delayDpInt, hrun, hstatus, hroom]
      cases hraised : answer.dpRaised with
      | false => simp
      | true => simp [hgfx, PluginView.frozen]
    · next hother =>
      have hne : (d.sp.mem 0x3f0 == 1) = false := beq_eq_false_iff_ne.mpr hother
      rw [hne, Bool.false_and]
      split <;> exact hrun
  rw [← htask]
  refine doSPTask_induct (P := fun e => e.dpPort = (runTask o d).1.dpPort) o d rfl ?_ ?_ ?_ ?_
  · intro e he
    exact he
  · intro e he
    rw [← he]
    exact dpPort_of_parts (Flags.or_and_of_disjoint (by decide)) rfl rfl
  · intro e delay he
    rw [← he]
    refine dpPort_of_parts (Flags.andNot_and_of_disjoint (by decide)) rfl ?_
    exact congrArg DpPort.queued (dpPort_addEvent e.updateCount delay
      (show IntType.sp ≠ .dp by decide))
  · intro e he
    exact he

-- ════════════════════
-- What each step does
-- ════════════════════

/-- A step that starts a task. -/
theorem dpStep_task {d e : Device} {a : DpStep} {answer : PluginView}
    (h : d.dpTask a = some (e, answer)) :
    (d.dpStep a).dpPort =
      if e.gfxTask && answer.dpRaised then
        if answer.frozen then ⟨false, true, d.dpPort.queued⟩
        else ⟨false, d.dpPort.latched, d.dpPort.queued + e.hasRoom.toNat⟩
      else { d.dpPort with pending := answer.dpRaised } := by
  cases a with
  | writeSp o address value mask =>
    unfold dpTask at h
    simp only at h
    split at h
    · next hstarts =>
      obtain ⟨rfl, hanswer⟩ := Prod.mk.inj (Option.some.inj h)
      have hport := (d.spStatusWritten_dp (value &&& mask)).1
      rw [dpStep, writeRspRegs]
      simp only [hstarts.1]
      rw [updateSpStatus_eq, if_pos hstarts.2, dpPort_doSPTask o _ hanswer, hport]
    · cases h
  | _ => cases h

/-- A write to a register of the signal processor that starts no task. -/
theorem dpPort_writeRspRegs (o : Outside) (d : Device) (address value mask : BitVec 32)
    (h : d.dpTask (.writeSp o address value mask) = none) :
    (writeRspRegs o d address value mask).dpPort = d.dpPort := by
  unfold writeRspRegs
  cases hreg : regAt SpReg.block address with
  | none => rfl
  | some reg =>
    cases reg with
    | status =>
      have hquiet : ¬(d.spStatusWritten (value &&& mask)).startsTask (value &&& mask) = true := by
        intro hstarts
        simp [dpTask, hreg, hstarts] at h
      simp only
      rw [updateSpStatus_eq, if_neg hquiet]
      exact (d.spStatusWritten_dp _).1
    | rdLen =>
      simp only
      rw [dpPort_spFifoPush]
      rfl
    | wrLen =>
      simp only
      rw [dpPort_spFifoPush]
      rfl
    | _ => rfl

/-- Nothing waits any more for the display processor to be unfrozen. -/
def dpUnlatched (d : Device) : Device := { d with dp := { d.dp with doOnUnfreeze := 0 } }

theorem dpPort_unlatched (d : Device) :
    d.dpUnlatched.dpPort = { d.dpPort with latched := false } := by
  unfold dpPort
  rw [DpPort.mk.injEq]
  exact ⟨rfl, by simp [dpUnlatched], rfl⟩

/-- The display processor is unfrozen: what waited for it is delivered. -/
theorem dpPort_dpcUnfreeze (d : Device) :
    d.dpcUnfreeze.dpPort =
      { d.dpPort with pending := d.dpPort.pending || d.dpPort.latched, latched := false } := by
  let thawed := d.setDpc .status (d.dp.dpcRegs .status &&& ~~~0x002)
  have hunfreeze : d.dpcUnfreeze = dpUnlatched
      (if d.dp.doOnUnfreeze &&& 0x001 ≠ 0 then
        thawed.signalRcpInterrupt miIntrDP else thawed) := rfl
  rw [hunfreeze, dpPort_unlatched]
  cases hlatched : d.dpPort.latched with
  | true =>
    have hne : d.dp.doOnUnfreeze &&& 0x001 ≠ 0 := by simpa [dpPort] using hlatched
    rw [if_pos hne, dpPort_signal_dp, Bool.or_true]
    rfl
  | false =>
    have hzero : ¬d.dp.doOnUnfreeze &&& 0x001 ≠ 0 := by simpa [dpPort] using hlatched
    rw [if_neg hzero, Bool.or_false]
    rfl

theorem dpPort_updateDpcStatus (d : Device) (w : BitVec 32) :
    (d.updateDpcStatus w).dpPort = if w &&& 0x004 ≠ 0 then
      { d.dpPort with pending := d.dpPort.pending || d.dpPort.latched, latched := false }
      else d.dpPort := by
  have hset : ∀ {c : Prop} [Decidable c] (e : Device) (reg : DpcReg) (v : BitVec 32),
      (if c then e.setDpc reg v else e).dpPort = e.dpPort := by
    intro c _ e reg v
    split <;> rfl
  let routed := d.setDpc .status (clearSet (d.dp.dpcRegs .status) w 0x001 0x002 0x001)
  generalize hthawed : (if w &&& 0x004 ≠ 0 then routed.dpcUnfreeze else routed) = thawed
  have hport : thawed.dpPort = if w &&& 0x004 ≠ 0 then
      { d.dpPort with pending := d.dpPort.pending || d.dpPort.latched, latched := false }
      else d.dpPort := by
    rw [← hthawed]
    split
    · rw [dpPort_dpcUnfreeze]
      rfl
    · rfl
  generalize hfrozen : (if w &&& 0x008 ≠ 0 then
    thawed.setDpc .status (thawed.dp.dpcRegs .status ||| 0x002) else thawed) = frozen
  have hflushed : d.updateDpcStatus w =
      if w &&& 0x200 ≠ 0 then
        (frozen.setDpc .status (clearSet (frozen.dp.dpcRegs .status) w 0x010 0x020 0x004)).setDpc
          .clock 0
      else frozen.setDpc .status (clearSet (frozen.dp.dpcRegs .status) w 0x010 0x020 0x004) := by
    rw [← hfrozen, ← hthawed]
    rfl
  rw [hflushed, hset, ← hport, ← hset (c := w &&& 0x008 ≠ 0) thawed, hfrozen]
  rfl

theorem dpPort_writeDpcRegs (o : Outside) (d : Device) (address value mask : BitVec 32) :
    (writeDpcRegs o d address value mask).dpPort =
      match regAt DpcReg.block address with
      | some .status =>
        if value &&& mask &&& 0x004 ≠ 0 then
          { d.dpPort with pending := d.dpPort.pending || d.dpPort.latched, latched := false }
        else d.dpPort
      | some .stop => { d.dpPort with pending := true }
      | _ => d.dpPort := by
  unfold writeDpcRegs
  cases regAt DpcReg.block address with
  | none => rfl
  | some reg =>
    cases reg with
    | status => exact d.dpPort_updateDpcStatus _
    | stop =>
      simp only
      rw [dpPort_signal_dp]
      rfl
    | _ => rfl

theorem dpStep_dpEvent {d : Device} (h : d.isNext .dp = true) :
    (d.dpStep .dpEvent).dpPort =
      ⟨true, d.dpPort.latched, d.dpPort.queued - 1⟩ := by
  rw [dpStep, if_pos h]
  change d.popEvent.rdpInterruptEvent.dpPort = _
  rw [rdpInterruptEvent, dpPort_raise_dp, DpPort.mk.injEq]
  exact ⟨rfl, rfl, queued_popEvent h⟩

theorem dpStep_spEvent (d : Device) : (d.dpStep .spEvent).dpPort = d.dpPort := by
  rw [dpStep]
  split
  · next h =>
    have hpop : d.popEvent.dpPort = d.dpPort :=
      dpPort_of_parts rfl rfl (queued_popEvent_of_ne h (by decide))
    change d.popEvent.rspInterruptEvent.dpPort = d.dpPort
    rw [← hpop]
    generalize d.popEvent = e
    unfold rspInterruptEvent
    generalize hdone : (if e.sp.rspTaskLocked = 0 then
      e.setSp .status (e.spStatus ||| (spStatusTaskdone ||| spStatusBroke ||| spStatusHalt))
      else e) = done
    have hport : done.dpPort = e.dpPort := by
      rw [← hdone]
      split <;> rfl
    simp only
    split
    · rw [dpPort_raise _ (by decide), hport]
    · exact hport
  · rfl

end Device

-- ════════════════════
-- Along a run
-- ════════════════════

/-- **What is counted as a delivery** sets the interrupt, and nothing else sets it. -/
theorem dpDelivers_spec (d : Device) (a : DpStep) :
    (d.dpDelivers a = true → (d.dpStep a).dpPort.pending = true) ∧
      (d.dpPort.pending = false → (d.dpStep a).dpPort.pending = true → d.dpDelivers a = true) := by
  cases htask : d.dpTask a with
  | some started =>
    obtain ⟨e, answer⟩ := started
    have hstep := Device.dpStep_task htask
    have hdelivers : d.dpDelivers a = (!e.gfxTask && !d.dpPort.pending && answer.dpRaised) := by
      cases a with
      | writeSp o address value mask => simp only [Device.dpDelivers, htask]
      | _ => cases htask
    rw [hstep, hdelivers]
    cases e.gfxTask <;> cases hraised : answer.dpRaised <;> cases answer.frozen <;> simp
  | none =>
    cases a with
    | writeDpc o address value mask =>
      rw [Device.dpStep, Device.dpPort_writeDpcRegs]
      simp only [Device.dpDelivers]
      split <;> simp_all
      split <;> simp_all
    | writeSp o address value mask =>
      rw [Device.dpStep, Device.dpPort_writeRspRegs o d address value mask htask]
      simp only [Device.dpDelivers, htask]
      exact ⟨nofun, fun hclear hset => (hclear.symm.trans hset)⟩
    | dpEvent =>
      constructor
      · intro hnext
        rw [Device.dpStep_dpEvent hnext]
      · intro hclear hset
        by_contra hquiet
        have hsame : d.dpStep .dpEvent = d := by
          rw [Device.dpStep]
          exact if_neg hquiet
        rw [hsame, hclear] at hset
        cases hset
    | spEvent =>
      rw [Device.dpStep_spEvent]
      exact ⟨nofun, fun hclear hset => (hclear.symm.trans hset)⟩
    | other f keeps =>
      exact ⟨nofun, fun hclear hset => (hclear.symm.trans ((keeps d).2.2 hset))⟩

/-- A step that starts no task keeps the balance. -/
theorem DpOnce.quiet {s : DpRun} (h : DpOnce s) {a : DpStep} (htask : s.device.dpTask a = none) :
    DpOnce (s.step a) := by
  obtain ⟨honce, hkept⟩ := h
  suffices hstep : (s.device.dpRaises a).toNat + s.device.dpPort.queued +
      s.device.dpPort.latched.toNat = (s.device.dpDelivers a).toNat +
      (s.device.dpStep a).dpPort.queued + (s.device.dpStep a).dpPort.latched.toNat ∧
      s.device.dpWithdraws a = false by
    refine ⟨?_, ?_⟩
    · simp only [DpRun.step]
      omega
    · simp only [DpRun.step, hkept, hstep.2, Bool.toNat_false]
  cases a with
  | writeDpc o address value mask =>
    simp only [Device.dpRaises, Device.dpDelivers, Device.dpWithdraws, Device.dpStep,
      Device.dpPort_writeDpcRegs]
    cases hreg : regAt DpcReg.block address with
    | none => simp
    | some reg =>
      cases reg with
      | status =>
        by_cases hthaw : value &&& mask &&& 4#32 = 0#32
        · simp [hthaw]
        · have hbit : (value &&& mask &&& 4#32 != 0#32) = true := bne_iff_ne.mpr hthaw
          cases s.device.dpPort.latched <;> simp [hthaw, hbit]
          omega
      | stop => simp
      | _ => simp
  | writeSp o address value mask =>
    simp only [Device.dpRaises, Device.dpDelivers, Device.dpWithdraws, htask, Device.dpStep,
      Device.dpPort_writeRspRegs o s.device address value mask htask]
    simp
  | dpEvent =>
    cases hnext : s.device.isNext .dp with
    | true =>
      have hpos : 0 < s.device.dpPort.queued := Device.queued_pos_of_isNext hnext
      simp only [Device.dpRaises, Device.dpDelivers, Device.dpWithdraws, htask, hnext,
        Device.dpStep_dpEvent hnext]
      simp
      omega
    | false =>
      have hsame : s.device.dpStep .dpEvent = s.device := by
        rw [Device.dpStep, hnext]
        rfl
      simp [Device.dpRaises, Device.dpDelivers, Device.dpWithdraws, htask, hnext, hsame]
  | spEvent =>
    simp [Device.dpRaises, Device.dpDelivers, Device.dpWithdraws, htask, Device.dpStep_spEvent]
  | other f keeps =>
    obtain ⟨hlatched, hqueued, -⟩ := keeps s.device
    simp [Device.dpRaises, Device.dpDelivers, Device.dpWithdraws, htask, Device.dpStep, hlatched,
      hqueued]

/-- A step that starts a task keeps the balance exactly when it is orderly. -/
theorem DpOnce.task_iff {s : DpRun} (h : DpOnce s) {a : DpStep} {e : Device} {answer : PluginView}
    (htask : s.device.dpTask a = some (e, answer)) :
    DpOnce (s.step a) ↔ DpStep.Orderly s.device a := by
  obtain ⟨honce, hkept⟩ := h
  have hstep := Device.dpStep_task htask
  have hcounts : s.device.dpRaises a = (!s.device.dpPort.pending && answer.dpRaised) ∧
      s.device.dpDelivers a = (!e.gfxTask && !s.device.dpPort.pending && answer.dpRaised) ∧
      s.device.dpWithdraws a = (s.device.dpPort.pending &&
        !(s.device.dpStep a).dpPort.pending) := by
    cases a with
    | writeSp o address value mask =>
      simp only [Device.dpRaises, Device.dpDelivers, Device.dpWithdraws, htask, and_self]
    | _ => cases htask
  have hiff : DpOnce (s.step a) ↔
      ((!s.device.dpPort.pending && answer.dpRaised).toNat + s.device.dpPort.queued +
          s.device.dpPort.latched.toNat =
        (!e.gfxTask && !s.device.dpPort.pending && answer.dpRaised).toNat +
          (s.device.dpStep a).dpPort.queued + (s.device.dpStep a).dpPort.latched.toNat) ∧
      (s.device.dpPort.pending && !(s.device.dpStep a).dpPort.pending) = false := by
    constructor
    · rintro ⟨honce', hkept'⟩
      simp only [DpRun.step, hcounts, hkept] at honce' hkept'
      exact ⟨by omega, by rw [← Bool.toNat_eq_zero]; omega⟩
    · rintro ⟨hbalance, hnone⟩
      refine ⟨?_, ?_⟩
      · simp only [DpRun.step, hcounts]
        omega
      · simp only [DpRun.step, hcounts, hnone, hkept, Bool.toNat_false]
  rw [hiff, hstep, DpStep.Orderly, htask]
  generalize s.device.dpPort = port
  obtain ⟨pending, latched, queued⟩ := port
  simp only
  -- the bits of the port and of the answer decide both sides
  cases e.gfxTask <;> cases pending <;> cases answer.dpRaised <;> cases answer.frozen <;>
    cases latched <;> cases e.hasRoom <;> simp
  all_goals omega

theorem dpOnce_step_iff {s : DpRun} (h : DpOnce s) (a : DpStep) :
    DpOnce (s.step a) ↔ DpStep.Orderly s.device a := by
  cases htask : s.device.dpTask a with
  | some started => exact h.task_iff htask
  | none =>
    refine iff_of_true (h.quiet htask) ?_
    unfold DpStep.Orderly
    rw [htask]
    trivial

/-- **Interrupts of the display processor**: along a run, each list that raised the interrupt is
    delivered once, or waits for its event or for the display processor to be unfrozen, exactly when
    every step is orderly. -/
theorem dp_once_iff (d : Device) (a : DpStep) (s : DpRun) (h : DpOnce s) (steps : List DpStep) :
    ((d.dpDelivers a = true → (d.dpStep a).dpPort.pending = true) ∧
      (d.dpPort.pending = false → (d.dpStep a).dpPort.pending = true → d.dpDelivers a = true)) ∧
    ((∀ t ∈ Runs.visited DpRun.step s steps, DpOnce t) ↔
      Runs.Along DpRun.step (fun s a => DpStep.Orderly s.device a) s steps) :=
  ⟨dpDelivers_spec d a, Runs.visited_iff_along (fun _ a hs => dpOnce_step_iff hs a) h⟩

instance decidableDpOrderly (d : Device) (a : DpStep) : Decidable (DpStep.Orderly d a) := by
  unfold DpStep.Orderly
  cases d.dpTask a with
  | none => exact .isTrue trivial
  | some started =>
    simp only
    infer_instance

/-- A console with the header of a graphics task in DMEM. -/
def gfxConsole : Device := freshConsole.setSpMem (Function.update freshConsole.sp.mem 0x3f0 1)

/-- A plugin whose display lists raise the interrupt; the signal processor breaks behind them. -/
def listPlugin : Outside :=
  { quietOutside with doRspCycles := fun v => { v with
      miIntr := v.miIntr ||| miIntrDP ||| miIntrSP
      spRegs := Function.update v.spRegs .status
        (v.spRegs .status ||| (spStatusTaskdone ||| spStatusBroke ||| spStatusHalt)) } }

theorem dpOnce_gfx : DpOnce ⟨gfxConsole, 0, 0, 0⟩ := ⟨by decide, rfl⟩

/-- A display list on a frozen display processor is delivered when it is unfrozen, and the list of
    DPC_END behind it at once. -/
theorem dp_once_frozen :
    ((gfxConsole.dpDelivers .dpEvent = true → (gfxConsole.dpStep .dpEvent).dpPort.pending = true) ∧
      (gfxConsole.dpPort.pending = false → (gfxConsole.dpStep .dpEvent).dpPort.pending = true →
        gfxConsole.dpDelivers .dpEvent = true)) ∧
    ∀ t ∈ Runs.visited DpRun.step ⟨gfxConsole, 0, 0, 0⟩
      [.writeDpc listPlugin 0x0410000c 0x8 0xffffffff, .writeSp listPlugin 0x04040010 1 0xffffffff,
        .spEvent, .writeDpc listPlugin 0x0410000c 0x4 0xffffffff,
        .writeDpc listPlugin 0x04100004 0x100 0xffffffff], DpOnce t :=
  ⟨(dp_once_iff gfxConsole .dpEvent _ dpOnce_gfx []).1,
    (dp_once_iff gfxConsole .dpEvent _ dpOnce_gfx _).2.mpr (by decide)⟩

/-- Two display lists on a frozen display processor leave one interrupt behind. -/
theorem dp_lost_frozen :
    ¬∀ (s : DpRun) (steps : List DpStep), DpOnce s →
      ∀ t ∈ Runs.visited DpRun.step s steps, DpOnce t := by
  intro h
  let steps : List DpStep :=
    [.writeDpc listPlugin 0x0410000c 0x8 0xffffffff, .writeSp listPlugin 0x04040010 1 0xffffffff,
      .spEvent, .writeSp listPlugin 0x04040010 1 0xffffffff, .spEvent,
      .writeDpc listPlugin 0x0410000c 0x4 0xffffffff]
  have hlast := h _ steps dpOnce_gfx _
    (Runs.runFrom_mem_visited DpRun.step ⟨gfxConsole, 0, 0, 0⟩ steps)
  have hraised : (Runs.runFrom DpRun.step ⟨gfxConsole, 0, 0, 0⟩ steps).raised = 2 := by
    decide
  have hone : (Runs.runFrom DpRun.step ⟨gfxConsole, 0, 0, 0⟩ steps).delivered +
      (Runs.runFrom DpRun.step ⟨gfxConsole, 0, 0, 0⟩ steps).device.dpPort.queued +
      (Runs.runFrom DpRun.step ⟨gfxConsole, 0, 0, 0⟩ steps).device.dpPort.latched.toNat = 1 := by
    decide
  have honce := hlast.once
  rw [hraised, hone] at honce
  cases honce

end Mupen64plus
