import Mupen64plus.Lib.Completion
import Mupen64plus.Device.Queued

/-!
# Transfers of the peripheral interface

Register writes, direct writes to the cartridge and completion events, in any order and with any
steps of other devices between them. PI_STATUS and the event queue agree along a run exactly when
the controller is never reset while its event is queued, and no transfer starts while the pool of
events is full.

## Main definitions

- `PiStep`, `Device.piStep` — the steps
- `piSystem` — the controller with its transfers counted
- `PiStep.Orderly` — the condition

## Main results

- `piMove_moves` — what each step does to the busy bits and to the queued events
- `pi_consistent_iff` — the busy bits, the queue and the completion interrupts agree along a run
  exactly when every step is orderly
-/

namespace Mupen64plus

/-- The busy bits and the event of the peripheral interface are as they were. -/
def KeepsPi (f : Device → Device) : Prop :=
  ∀ d, (f d).piIdle = d.piIdle ∧ (f d).queued .pi = d.queued .pi

/-- What happens to the peripheral interface; `other` is a step of anything else. -/
inductive PiStep where
  | writeRegs (o : Outside) (address value mask : BitVec 32)
  | writeRom (address value mask : BitVec 32)
  | event
  | other (f : Device → Device) (keeps : KeepsPi f)

namespace Device

/-- One step. The event of another device at the head of the queue is left to `other`. -/
def piStep (d : Device) : PiStep → Device
  | .writeRegs o address value mask => writePiRegs o d address value mask
  | .writeRom address value mask => d.writeCartRom address value mask
  | .event => if d.isNext .pi then interruptHandler quietOutside d .pi else d
  | .other f _ => f d

/-- DMA_BUSY or IO_BUSY. -/
def piBusy (d : Device) : Bool := !d.piIdle

/-- The step is a transfer that `validate_pi_request` lets through to a handler. -/
def piAccepts (d : Device) : PiStep → Bool
  | .writeRegs _ address _ _ =>
    match regAt PiReg.block address with
    | some .rdLen | some .wrLen => d.piIdle && (getPiDmaHandler d.piCartAddr).isSome
    | _ => false
  | .writeRom _ _ _ => d.piIdle
  | _ => false

/-- The step is an event that raises the interrupt of the controller. -/
def piCompletes (d : Device) : PiStep → Bool
  | .event => d.isNext .pi && (d.piStep .event).mi.regs .intr &&& miIntrPI != 0
  | _ => false

def piPort (d : Device) : Completion.Port := ⟨d.piBusy, false, d.queued .pi⟩

end Device

/-- The step writes the reset bit of PI_STATUS. -/
def PiStep.resets : PiStep → Bool
  | .writeRegs _ address value mask =>
    regAt PiReg.block address == some .status && value &&& mask &&& 0x01 != 0
  | _ => false

def piSystem : Completion.System Device PiStep where
  step := Device.piStep
  port := Device.piPort
  accepts := Device.piAccepts
  completes := Device.piCompletes

/-- The controller is not reset while its event is queued, and the pool has a node for the event of
    an accepted transfer. -/
def PiStep.Orderly (d : Device) (a : PiStep) : Prop :=
  (a.resets = true → d.queued .pi = 0) ∧ (d.piAccepts a = true → d.hasRoom = true)

instance decidablePiOrderly (d : Device) (a : PiStep) : Decidable (PiStep.Orderly d a) := by
  unfold PiStep.Orderly
  infer_instance

/-- The busy bits say that one event is queued, there is never a second one, and of the transfers
    accepted so far all but the one in flight have raised their interrupt. -/
structure PiConsistent (l : Completion.Ledger Device) : Prop where
  busy : l.state.piBusy = true ↔ l.state.queued .pi = 1
  single : l.state.queued .pi ≤ 1
  once : l.accepted = l.completed + l.state.queued .pi

theorem piConsistent_iff_settled (l : Completion.Ledger Device) :
    PiConsistent l ↔ piSystem.Settled l := by
  constructor
  · rintro ⟨hbusy, hsingle, honce⟩
    exact ⟨Completion.queued_eq_iff.mpr ⟨hbusy, hsingle⟩, nofun, honce⟩
  · rintro ⟨hqueued, -, honce⟩
    obtain ⟨hbusy, hsingle⟩ := Completion.queued_eq_iff.mp hqueued
    exact ⟨hbusy, hsingle, honce⟩

-- ════════════════════════════════════════════════════════════════════════
-- What each step does
-- ════════════════════════════════════════════════════════════════════════

namespace Device

/-- A busy bit is set and the event queued. -/
theorem piPort_started {d d' : Device} (delay : BitVec 32) (hbusy : d'.piBusy = true)
    (hq : d'.cp0.q = d.cp0.q) :
    (d'.addEvent .pi delay).piPort = (Completion.Move.accept d.hasRoom).run d.piPort := by
  have hqueued : (d'.addEvent .pi delay).queued .pi = d.queued .pi + d.hasRoom.toNat := by
    rw [queued_addEvent_self, queued, hasRoom, hq]
  change (⟨d'.piBusy, false, (d'.addEvent .pi delay).queued .pi⟩ : Completion.Port) = _
  rw [hbusy, hqueued]
  rfl

/-- The handlers of a transfer touch neither the controller nor the queue. -/
theorem piDmaRead_keeps (d : Device) (dom : PiDomain) (dramAddr cartAddr length : BitVec 32) :
    (d.piDmaRead dom dramAddr cartAddr length).1.pi = d.pi ∧
      (d.piDmaRead dom dramAddr cartAddr length).1.cp0 = d.cp0 := by
  cases dom with
  | cartRom => exact ⟨rfl, rfl⟩
  | cartDom2 =>
    unfold piDmaRead cartDom2DmaRead flashramDmaRead
    simp only
    split
    · exact ⟨rfl, rfl⟩
    · split <;> exact ⟨rfl, rfl⟩
  | dd =>
    unfold piDmaRead ddDomDmaRead
    simp only
    split <;> exact ⟨rfl, rfl⟩

theorem piDmaWrite_keeps (o : Outside) (d : Device) (dom : PiDomain)
    (dramAddr cartAddr length : BitVec 32) :
    (piDmaWrite o d dom dramAddr cartAddr length).1.pi = d.pi ∧
      (piDmaWrite o d dom dramAddr cartAddr length).1.cp0 = d.cp0 := by
  cases dom with
  | cartRom => exact ⟨rfl, by simp [piDmaWrite, cartRomDmaWrite]⟩
  | cartDom2 =>
    unfold piDmaWrite cartDom2DmaWrite flashramDmaWrite
    simp only
    split
    · exact ⟨rfl, rfl⟩
    · split
      · exact ⟨rfl, rfl⟩
      · split <;> exact ⟨rfl, rfl⟩
  | dd =>
    unfold piDmaWrite ddDomDmaWrite
    simp only
    split
    · exact ⟨rfl, rfl⟩
    · exact ⟨rfl, by simp⟩

/-- Setting a busy bit. -/
theorem piBusy_of_or {d : Device} (v : BitVec 32)
    (hv : v &&& (piStatusDmaBusy ||| piStatusIoBusy) ≠ 0) {x : BitVec 32}
    (hd : d.pi.regs .status = x ||| v) : d.piBusy = true := by
  have hne : (x ||| v) &&& (piStatusDmaBusy ||| piStatusIoBusy) ≠ 0 :=
    Flags.or_and_ne_zero.mpr (.inr hv)
  unfold piBusy piIdle
  rw [hd, Bool.not_eq_true', beq_eq_false_iff_ne]
  exact hne

/-- The end of a transfer that was let through. -/
theorem piPort_piStarted {d d' : Device} (length cycles : BitVec 32) (hq : d'.cp0 = d.cp0) :
    (d'.piStarted length cycles).piPort = (Completion.Move.accept d.hasRoom).run d.piPort := by
  refine piPort_started cycles (piBusy_of_or piStatusDmaBusy (by decide) (x := d'.pi.regs .status)
    ?_) ?_
  · simp [updateCount]
  · rw [updateCount_q]
    exact congrArg Cp0.q hq

theorem piPort_setPiError (d : Device) : d.setPiError.piPort = d.piPort := by
  have hidle : d.setPiError.piIdle = d.piIdle := by
    unfold piIdle setPiError
    rw [setPi_pi_regs, Function.update_self, Flags.or_and_of_disjoint (by decide)]
  unfold piPort piBusy
  rw [hidle]
  rfl

theorem piPort_dmaPiRead (d : Device) :
    d.dmaPiRead.piPort =
      if d.piIdle && (getPiDmaHandler d.piCartAddr).isSome then
        (Completion.Move.accept d.hasRoom).run d.piPort
      else d.piPort := by
  unfold dmaPiRead
  cases hidle : d.piIdle with
  | false => exact d.piPort_setPiError
  | true =>
    cases hdom : getPiDmaHandler d.piCartAddr with
    | none => rfl
    | some dom => exact piPort_piStarted _ _ (d.piDmaRead_keeps dom _ _ _).2

theorem piPort_dmaPiWrite (o : Outside) (d : Device) :
    (dmaPiWrite o d).piPort =
      if d.piIdle && (getPiDmaHandler d.piCartAddr).isSome then
        (Completion.Move.accept d.hasRoom).run d.piPort
      else d.piPort := by
  unfold dmaPiWrite
  cases hidle : d.piIdle with
  | false => exact d.piPort_setPiError
  | true =>
    cases hdom : getPiDmaHandler d.piCartAddr with
    | none => rfl
    | some dom => exact piPort_piStarted _ _ (piDmaWrite_keeps o d dom _ _ _).2

theorem piPort_reset (d : Device) :
    (d.setPi .status 0).piPort = Completion.Move.cancel.run d.piPort := by
  have hidle : (d.setPi .status 0).piIdle = true := by simp [piIdle]
  unfold piPort piBusy
  rw [hidle]
  rfl

/-- Acknowledging the interrupt leaves the busy bits alone; a reset clears them. -/
theorem piPort_writePiStatus (d : Device) (w : BitVec 32) :
    (d.writePiStatus w).piPort =
      if w &&& 0x01 ≠ 0 then Completion.Move.cancel.run d.piPort else d.piPort := by
  have hack : (if w &&& 0x02 ≠ 0 then
      (d.setPi .status (d.pi.regs .status &&& ~~~piStatusInterrupt)).clearRcpInterrupt miIntrPI
      else d).piPort = d.piPort := by
    split
    · have hidle : ((d.setPi .status (d.pi.regs .status &&& ~~~piStatusInterrupt)).clearRcpInterrupt
          miIntrPI).piIdle = d.piIdle := by
        change (d.setPi .status (d.pi.regs .status &&& ~~~piStatusInterrupt)).piIdle = d.piIdle
        unfold piIdle
        rw [setPi_pi_regs, Function.update_self, Flags.andNot_and_of_disjoint (by decide)]
      unfold piPort piBusy
      rw [hidle, queued_clearRcpInterrupt _ _ (by decide)]
      rfl
    · rfl
  unfold writePiStatus
  simp only
  split
  · rw [piPort_reset, hack]
  · exact hack

theorem piPort_writePiRegs (o : Outside) (d : Device) (address value mask : BitVec 32) :
    (writePiRegs o d address value mask).piPort =
      if d.piAccepts (.writeRegs o address value mask) then
        (Completion.Move.accept d.hasRoom).run d.piPort
      else if PiStep.resets (.writeRegs o address value mask) then
        Completion.Move.cancel.run d.piPort
      else d.piPort := by
  unfold writePiRegs
  cases hreg : regAt PiReg.block address with
  | none => simp [piAccepts, PiStep.resets, hreg]
  | some reg =>
    cases reg with
    | rdLen =>
      simp only [piAccepts, PiStep.resets, hreg]
      exact piPort_dmaPiRead (d.setPi .rdLen _)
    | wrLen =>
      simp only [piAccepts, PiStep.resets, hreg]
      exact piPort_dmaPiWrite o (d.setPi .wrLen _)
    | status => simpa [piAccepts, PiStep.resets, hreg] using d.piPort_writePiStatus (value &&& mask)
    | _ =>
      simp only [piAccepts, PiStep.resets, hreg]
      rfl

end Device

def piMove (d : Device) (a : PiStep) : Completion.Move :=
  if d.piAccepts a then .accept d.hasRoom
  else if d.piCompletes a then .complete
  else if a.resets then .cancel
  else .keep

namespace Device

theorem piPort_writeCartRom (d : Device) (address value mask : BitVec 32) :
    (d.writeCartRom address value mask).piPort =
      if d.piIdle then (Completion.Move.accept d.hasRoom).run d.piPort else d.piPort := by
  unfold writeCartRom
  simp only
  split
  · next hidle =>
    rw [if_pos (show d.piIdle = true from hidle)]
    exact piPort_started 0x1000 (piBusy_of_or piStatusIoBusy (by decide) (x := d.pi.regs .status)
      (by simp [updateCount])) rfl
  · next hidle =>
    rw [if_neg (show ¬ d.piIdle = true from hidle)]
    exact piPort_setPiError _

/-- The end of a transfer raises the interrupt of the controller. -/
theorem piCompletes_event (d : Device) : d.piCompletes .event = d.isNext .pi := by
  unfold piCompletes
  cases h : d.isNext .pi with
  | false => rfl
  | true =>
    have hintr : (d.piStep .event).mi.regs .intr = d.mi.regs .intr ||| miIntrPI := by
      unfold piStep interruptHandler piEndOfDmaEvent raiseRcpInterrupt
      simp only [h, if_true]
      split <;> simp [popEvent]
    rw [Bool.true_and, bne_iff_ne, hintr]
    exact Flags.or_and_ne_zero.mpr (.inr (by decide))

theorem piPort_event (d : Device) (h : d.isNext .pi) :
    (d.piStep .event).piPort = Completion.Move.complete.run d.piPort := by
  have hqueued : (d.piStep .event).queued .pi = d.queued .pi - 1 := by
    rw [← queued_popEvent h]
    simp only [piStep, h, if_true, interruptHandler, piEndOfDmaEvent, queued, raiseRcpInterrupt_q,
      setPi_cp0]
  have hidle : (d.piStep .event).piIdle = true := by
    have hstatus : (d.piStep .event).pi.regs .status =
        (d.pi.regs .status &&& ~~~(piStatusDmaBusy ||| piStatusIoBusy)) ||| piStatusInterrupt := by
      unfold piStep interruptHandler piEndOfDmaEvent raiseRcpInterrupt
      simp only [h, if_true]
      split <;> simp [popEvent]
    unfold piIdle
    rw [hstatus, Flags.or_and_of_disjoint (by decide), Flags.andNot_and_of_covered (by decide)]
    rfl
  unfold piPort piBusy
  rw [hqueued, hidle]
  rfl

end Device

/-- **What a step does**: a transfer that is let through sets a busy bit and queues the event, the
    event takes both back, and a reset takes back the busy bits alone. -/
theorem piSystem_moves : piSystem.Moves piMove where
  port d a := by
    change (d.piStep a).piPort = (piMove d a).run d.piPort
    unfold piMove
    cases a with
    | writeRegs o address value mask =>
      rw [Device.piStep, Device.piPort_writePiRegs]
      simp only [Device.piCompletes]
      split
      · rfl
      · split <;> rfl
    | writeRom address value mask =>
      have haccepts : d.piAccepts (.writeRom address value mask) = d.piIdle := rfl
      rw [Device.piStep, Device.piPort_writeCartRom, haccepts]
      cases d.piIdle <;> rfl
    | event =>
      rw [Device.piCompletes_event]
      simp only [Device.piAccepts, PiStep.resets]
      cases h : d.isNext .pi with
      | true => exact d.piPort_event h
      | false => simp [Device.piStep, h, Completion.Move.run]
    | other f keeps =>
      obtain ⟨hidle, hqueued⟩ := keeps d
      simp only [Device.piStep, Device.piAccepts, Device.piCompletes, PiStep.resets]
      unfold Device.piPort Device.piBusy
      rw [hidle, hqueued]
      rfl
  possible d a := by
    unfold piMove
    split
    · trivial
    · split
      · next hcompletes =>
        cases a with
        | event =>
          rw [Device.piCompletes_event] at hcompletes
          exact ⟨Device.queued_pos_of_isNext hcompletes, rfl⟩
        | _ => simp [Device.piCompletes] at hcompletes
      · split <;> trivial
  accepts d a := by
    change d.piAccepts a = (piMove d a).accepts
    unfold piMove
    cases hacc : d.piAccepts a with
    | true => rfl
    | false =>
      simp only [Bool.false_eq_true, if_false]
      split
      · rfl
      · split <;> rfl
  completes d a := by
    change d.piCompletes a = (piMove d a).completes
    unfold piMove
    cases a with
    | event =>
      simp only [Device.piAccepts, PiStep.resets, Bool.false_eq_true, if_false]
      split <;> simp_all [Completion.Move.completes]
    | _ =>
      simp only [Device.piCompletes, Bool.false_eq_true, if_false]
      split
      · rfl
      · split <;> rfl

/-- Only an idle controller accepts, and no such step is a reset. -/
theorem piAccepts_idle {d : Device} {a : PiStep} (h : d.piAccepts a = true) :
    d.piBusy = false ∧ a.resets = false := by
  unfold Device.piBusy
  cases a with
  | writeRegs o address value mask =>
    unfold Device.piAccepts at h
    unfold PiStep.resets
    simp only at h
    split at h
    · next hreg => simp_all
    · next hreg => simp_all
    · cases h
  | writeRom address value mask =>
    have hidle : d.piIdle = true := h
    exact ⟨by rw [hidle]; rfl, rfl⟩
  | event => cases h
  | other f keeps => cases h

theorem piMove_clean_iff (d : Device) (a : PiStep) :
    (piMove d a).Clean d.piPort ↔ PiStep.Orderly d a := by
  unfold piMove PiStep.Orderly
  split
  · next haccepts =>
    obtain ⟨hbusy, hresets⟩ := piAccepts_idle haccepts
    simp [Completion.Move.Clean, Device.piPort, hbusy, hresets, haccepts]
  · next haccepts =>
    split
    · next hcompletes =>
      have hresets : a.resets = false := by
        cases a with
        | event => rfl
        | _ => simp [Device.piCompletes] at hcompletes
      simp [Completion.Move.Clean, hresets, haccepts]
    · split
      · next hresets => simp [Completion.Move.Clean, Device.piPort, hresets, haccepts]
      · next hresets => simp [Completion.Move.Clean, hresets, haccepts]

/-- **The peripheral interface**: from a consistent state, the busy bits, the queue and the
    completion interrupts agree in every state of a run exactly when every step of it is orderly. -/
theorem pi_consistent_iff (l : Completion.Ledger Device) (h : PiConsistent l)
    (steps : List PiStep) :
    (∀ t ∈ Runs.visited piSystem.ledgerStep l steps, PiConsistent t) ↔
      Runs.Along piSystem.ledgerStep (fun l a => PiStep.Orderly l.state a) l steps := by
  simp only [piConsistent_iff_settled] at h ⊢
  rw [piSystem_moves.settled_visited_iff h]
  have hclean : (fun (l : Completion.Ledger Device) (a : PiStep) =>
      (piMove l.state a).Clean (piSystem.port l.state)) = fun l a => PiStep.Orderly l.state a := by
    funext l a
    exact propext (piMove_clean_iff l.state a)
  rw [hclean]

theorem piConsistent_fresh : PiConsistent ⟨freshConsole, 0, 0⟩ :=
  ⟨by decide, by decide, by decide⟩

/-- A transfer from the cartridge, and a write to the cartridge after its completion. -/
theorem pi_consistent_transfer :
    PiConsistent ⟨freshConsole, 0, 0⟩ ∧ ∀ t ∈ Runs.visited piSystem.ledgerStep ⟨freshConsole, 0, 0⟩
      [.writeRegs quietOutside 0x04600004 0x10000000 0xffffffff,
        .writeRegs quietOutside 0x0460000c 0xff 0xffffffff, .event,
        .writeRom 0x10000000 1 0xffffffff], PiConsistent t :=
  ⟨piConsistent_fresh, (pi_consistent_iff _ piConsistent_fresh _).mpr (by decide)⟩

/-- A reset in the middle of a transfer leaves its event behind. -/
theorem pi_inconsistent_reset :
    ¬∀ (l : Completion.Ledger Device) (steps : List PiStep), PiConsistent l →
      ∀ t ∈ Runs.visited piSystem.ledgerStep l steps, PiConsistent t := by
  intro h
  let steps : List PiStep :=
    [.writeRegs quietOutside 0x04600004 0x10000000 0xffffffff,
      .writeRegs quietOutside 0x0460000c 0xff 0xffffffff,
      .writeRegs quietOutside 0x04600010 0x01 0xffffffff]
  have hlast := h _ steps piConsistent_fresh _
    (Runs.runFrom_mem_visited piSystem.ledgerStep ⟨freshConsole, 0, 0⟩ steps)
  exact absurd (hlast.busy.mpr (by decide)) (by decide)

end Mupen64plus
