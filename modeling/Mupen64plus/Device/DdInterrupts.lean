import Mupen64plus.Device.SoftReset

/-!
# The interrupt line of the 64DD

The buffer manager and the mechanics of the drive share one line to the CPU, IP3 of Cause. Each has
a bit of its own in the status of the drive. A program clears the bit of the buffer manager by
reading the status, and that of the mechanics by writing to the control register.

## Main definitions

- `DdLine`, `Device.ddLine` — the line and the two bits
- `DdStep`, `Device.ddStep` — accesses to the registers and events, and the steps of anything else
- `DdStep.Orderly` — no acknowledgement takes the line from the other bit

## Main results

- `ddStep_line` — what each step does to the line and the bits
- `dd_line_iff` — along a run the line tells the bits exactly when every step is orderly
-/

namespace Mupen64plus

structure DdLine where
  asserted : Bool
  bm : Bool
  mecha : Bool
  deriving DecidableEq, Repr

/-- The line is asserted exactly while one of the two interrupts is pending. -/
def DdLine.Tells (l : DdLine) : Prop := l.asserted = (l.bm || l.mecha)

instance decidableTells (l : DdLine) : Decidable l.Tells :=
  inferInstanceAs (Decidable (l.asserted = (l.bm || l.mecha)))

def Device.ddLine (d : Device) : DdLine where
  asserted := d.cp0.regs .cause &&& causeIP3 != 0
  bm := d.ddReg .cmdStatus &&& ddStatusBmInt != 0
  mecha := d.ddReg .cmdStatus &&& ddStatusMechaInt != 0

/-- The core assigns all of Cause, as it does for an exception of an instruction and for a soft
    reset; the code of an exception does not reach IP3. -/
def AssignsCause (f : R4300 → R4300) : Prop := ∀ r, (f r).cp0Reg .cause &&& causeIP3 = 0

/-- What happens to the line; `other` is a step of anything else. -/
inductive DdStep where
  | readRegs (address : BitVec 32)
  | writeRegs (o : Outside) (address value mask : BitVec 32)
  | bmEvent
  | mechaEvent
  | motorEvent
  | exception (f : R4300 → R4300) (assigns : AssignsCause f)
  | other (f : Device → Device) (keeps : ∀ d, (f d).ddLine = d.ddLine)

namespace Device

/-- One step. The event of another device at the head of the queue is left to `other`. -/
def ddStep (d : Device) : DdStep → Device
  | .readRegs address => (readDdRegs d address).2
  | .writeRegs o address value mask => writeDdRegs o d address value mask
  | .bmEvent => if d.isNext .ddBm then interruptHandler quietOutside d .ddBm else d
  | .mechaEvent => if d.isNext .ddMc then interruptHandler quietOutside d .ddMc else d
  | .motorEvent => if d.isNext .ddDv then interruptHandler quietOutside d .ddDv else d
  | .exception f _ => d.onR4300 f
  | .other f _ => f d

/-- A read of the status that acknowledges the interrupt of the buffer manager. -/
def ackBm (d : Device) (address : BitVec 32) : Bool :=
  isDdReg address && ddRegAt address == some .cmdStatus && d.ddLine.bm

end Device

/-- An acknowledgement finds the mechanics quiet, and an exception both. -/
def DdStep.Orderly (d : Device) : DdStep → Prop
  | .readRegs address => d.ackBm address = true → d.ddLine.mecha = false
  | .exception _ _ => d.ddLine.bm = false ∧ d.ddLine.mecha = false
  | _ => True

namespace Device

-- ════════════════════
-- What leaves the line alone
-- ════════════════════

/-- The bits of both interrupts. -/
def ddIntBits : BitVec 32 := ddStatusBmInt ||| ddStatusMechaInt

theorem ddLine_of_parts {d d' : Device} (hcause : d'.cp0.regs .cause = d.cp0.regs .cause)
    (hstatus : d'.ddReg .cmdStatus &&& ddIntBits = d.ddReg .cmdStatus &&& ddIntBits) :
    d'.ddLine = d.ddLine := by
  have hbit : ∀ m, ddIntBits &&& m = m →
      d'.ddReg .cmdStatus &&& m = d.ddReg .cmdStatus &&& m := by
    intro m hm
    rw [← hm, ← BitVec.and_assoc, hstatus, BitVec.and_assoc]
  unfold ddLine
  rw [hcause, hbit ddStatusBmInt (by decide), hbit ddStatusMechaInt (by decide)]

theorem ddLine_setDd (d : Device) {reg : DdReg} (h : reg ≠ .cmdStatus) (v : BitVec 32) :
    (d.setDd reg v).ddLine = d.ddLine := by
  refine ddLine_of_parts rfl ?_
  rw [ddReg, setDd_dd_regs, Function.update_of_ne h.symm]

theorem ddLine_setDdBits (d : Device) {bits : BitVec 32} (h : bits &&& ddIntBits = 0) :
    (d.setDdBits .cmdStatus bits).ddLine = d.ddLine := by
  refine ddLine_of_parts rfl ?_
  rw [setDdBits, ddReg, setDd_dd_regs, Function.update_self]
  exact Flags.or_and_of_disjoint h

theorem ddLine_clearDdBits (d : Device) {bits : BitVec 32} (h : ddIntBits &&& bits = 0) :
    (d.clearDdBits .cmdStatus bits).ddLine = d.ddLine := by
  refine ddLine_of_parts rfl ?_
  rw [clearDdBits, ddReg, setDd_dd_regs, Function.update_self]
  exact Flags.andNot_and_of_disjoint h

theorem ddLine_setDdBits_other (d : Device) {reg : DdReg} (h : reg ≠ .cmdStatus)
    (bits : BitVec 32) : (d.setDdBits reg bits).ddLine = d.ddLine :=
  ddLine_setDd d h _

theorem ddLine_clearDdBits_other (d : Device) {reg : DdReg} (h : reg ≠ .cmdStatus)
    (bits : BitVec 32) : (d.clearDdBits reg bits).ddLine = d.ddLine :=
  ddLine_setDd d h _

@[simp] theorem ddLine_dropEvent (d : Device) (type : IntType) :
    (d.dropEvent type).ddLine = d.ddLine := rfl

@[simp] theorem ddLine_addEvent (d : Device) (type : IntType) (delay : BitVec 32) :
    (d.addEvent type delay).ddLine = d.ddLine := by
  refine ddLine_of_parts ?_ rfl
  exact congrFun (addInterruptEventCount_regs d.cp0 type (d.cp0.count + delay)) .cause

@[simp] theorem ddLine_updateCount (d : Device) : d.updateCount.ddLine = d.ddLine := rfl

theorem ddLine_popEvent (d : Device) : d.popEvent.ddLine = d.ddLine := by
  refine ddLine_of_parts ?_ rfl
  exact congrFun (removeInterruptEvent_regs d.cp0) .cause

theorem ddLine_rearmMotor (d : Device) (timer : BitVec 16) :
    (d.rearmMotor timer).ddLine = d.ddLine := by
  unfold rearmMotor
  simp only
  split
  · rw [ddLine_addEvent, ddLine_dropEvent]
  · rfl

theorem ddLine_ddDvActive (d : Device) : d.ddDvActive.ddLine = d.ddLine := by
  rw [ddDvActive, ddLine_rearmMotor, ddLine_clearDdBits _ (by decide)]

theorem ddLine_ddDvStandby (d : Device) : d.ddDvStandby.ddLine = d.ddLine := by
  unfold ddDvStandby
  simp only
  rw [ddLine_rearmMotor, ddLine_setDdBits _ (by decide), ddLine_clearDdBits _ (by decide)]

theorem ddLine_ddDvSleep (d : Device) : d.ddDvSleep.ddLine = d.ddLine := by
  rw [ddDvSleep, ddLine_dropEvent, ddLine_setDdBits _ (by decide)]

theorem ddLine_ddDvIntHandler (d : Device) : d.ddDvIntHandler.ddLine = d.ddLine := by
  unfold ddDvIntHandler
  simp only
  split
  · rfl
  · split
    · exact d.ddLine_ddDvSleep
    · exact d.ddLine_ddDvStandby

-- ════════════════════
-- The buffer manager
-- ════════════════════

theorem ddLine_seekSector (d : Device) : d.seekSector.2.ddLine = d.ddLine := by
  unfold seekSector
  simp only
  split
  · rfl
  · exact ddLine_setDdBits_other d (by decide) _

theorem ddLine_readSector (d : Device) : d.readSector.ddLine = d.ddLine := by
  have hseek := d.ddLine_seekSector
  unfold readSector
  split
  · next heq =>
    rw [heq] at hseek
    exact hseek
  · next heq =>
    rw [heq] at hseek
    exact hseek

theorem ddLine_writeSector (d : Device) : d.writeSector.ddLine = d.ddLine := by
  have hseek := d.ddLine_seekSector
  unfold writeSector
  split
  · next heq =>
    rw [heq] at hseek
    exact hseek
  · next heq =>
    rw [heq] at hseek
    exact hseek

theorem ddLine_readC2 (d : Device) : d.readC2.ddLine = d.ddLine := ddLine_of_parts rfl rfl

theorem ddLine_nextSector (d : Device) : d.nextSector.ddLine = d.ddLine :=
  ddLine_setDd d (by decide) _

theorem ddLine_bmWriteStep (d : Device) : d.bmWriteStep.ddLine = d.ddLine := by
  unfold bmWriteStep
  simp only
  split
  · rw [ddLine_clearDdBits_other _ (by decide), ddLine_setDdBits_other _ (by decide),
      ddLine_setDdBits _ (by decide)]
  · split
    · rw [ddLine_setDdBits _ (by decide), ddLine_nextSector]
    · split
      · rw [ddLine_setDdBits _ (by decide), ddLine_nextSector, ddLine_writeSector]
      · split
        · split
          · rw [ddLine_setDdBits _ (by decide), ddLine_clearDdBits_other _ (by decide),
              ddLine_setDd _ (by decide), ddLine_writeSector]
          · rw [ddLine_clearDdBits_other _ (by decide), ddLine_nextSector, ddLine_writeSector]
        · rfl

theorem ddLine_bmReadStep (d : Device) : d.bmReadStep.ddLine = d.ddLine := by
  unfold bmReadStep
  simp only
  split
  · rw [ddLine_setDdBits_other _ (by decide), ddLine_clearDdBits _ (by decide)]
  · split
    · rw [ddLine_setDdBits _ (by decide), ddLine_nextSector, ddLine_readSector]
    · split
      · rw [ddLine_nextSector, ddLine_readC2]
      · split
        · split
          · rw [ddLine_clearDdBits_other _ (by decide), ddLine_setDd _ (by decide),
              ddLine_setDdBits _ (by decide), ddLine_readC2]
          · rw [ddLine_clearDdBits_other _ (by decide), ddLine_setDdBits _ (by decide),
              ddLine_readC2]
        · rfl

-- ════════════════════
-- Commands
-- ════════════════════

theorem ddLine_seekTrack (d : Device) (tk : BitVec 32) (bmWrite : BitVec 8) :
    (d.seekTrack tk bmWrite).1.ddLine = d.ddLine := by
  have hseek : (d.seekTrack tk bmWrite).1.ddLine =
      (d.ddDvActive.setDd .curTk (tk ||| ddTrackLock)).ddLine := rfl
  rw [hseek, ddLine_setDd _ (by decide), ddLine_ddDvActive]

theorem ddLine_ddCommand (o : Outside) (d : Device) (value : BitVec 32) :
    (ddCommand o d value).1.ddLine = d.ddLine := by
  have hdata : ∀ v, (d.setDd .data v).ddLine = d.ddLine := fun v => ddLine_setDd d (by decide) v
  unfold ddCommand
  simp only
  split
  · split
    · rw [ddLine_setDdBits _ (by decide), ddLine_clearDdBits _ (by decide), ddLine_seekTrack]
    · rw [ddLine_clearDdBits _ (by decide), ddLine_seekTrack]
  · split
    · rw [ddLine_setDdBits _ (by decide), ddLine_clearDdBits _ (by decide), ddLine_seekTrack]
    · rw [ddLine_clearDdBits _ (by decide), ddLine_seekTrack]
  · exact ddLine_seekTrack d 0 1
  · exact ddLine_seekTrack d 0 1
  · exact d.ddLine_ddDvSleep
  · rfl
  · rfl
  · exact ddLine_clearDdBits d (by decide)
  · exact ddLine_clearDdBits d (by decide)
  · exact hdata _
  · rfl
  · exact hdata _
  · exact d.ddLine_ddDvStandby
  · exact hdata _
  · exact hdata _
  · exact hdata _
  · exact hdata _
  · rfl

-- ════════════════════
-- What moves the line
-- ════════════════════

theorem causeIP3_check (cause : BitVec 32) :
    checkCause cause causeIP3 true &&& causeIP3 ≠ 0 ∧
      checkCause cause causeIP3 false &&& causeIP3 = 0 := by
  constructor
  · unfold checkCause
    rw [if_pos rfl, Flags.andNot_and_of_disjoint (by decide)]
    exact Flags.or_and_ne_zero.mpr (.inr (by decide))
  · exact Flags.andNot_and_of_covered (by decide)

theorem r4300CheckInterrupt_cause (c : Cp0) (causeIp : BitVec 32) (setCause : Bool) :
    (r4300CheckInterrupt c causeIp setCause).regs .cause =
      checkCause (c.regs .cause) causeIp setCause := by
  have hpush : ∀ c : Cp0, (pushCheck c).regs = c.regs := by
    intro c
    unfold pushCheck
    split <;> rfl
  have hset : (c.set .cause (checkCause (c.regs .cause) causeIp setCause)).regs .cause =
      checkCause (c.regs .cause) causeIp setCause := by
    rw [Cp0.set_regs, Function.update_self]
  unfold r4300CheckInterrupt
  simp only
  split
  · exact hset
  · split
    · rw [hpush]
      exact hset
    · exact hset

theorem ddReg_signalDdInterrupt (d : Device) (bit : BitVec 32) :
    (d.signalDdInterrupt bit).ddReg .cmdStatus = d.ddReg .cmdStatus ||| bit := by
  change Function.update d.dd.regs .cmdStatus (d.ddReg .cmdStatus ||| bit) .cmdStatus = _
  rw [Function.update_self]

theorem ddReg_clearDdInterrupt (d : Device) (bit : BitVec 32) :
    (d.clearDdInterrupt bit).ddReg .cmdStatus = d.ddReg .cmdStatus &&& ~~~bit := by
  change Function.update d.dd.regs .cmdStatus (d.ddReg .cmdStatus &&& ~~~bit) .cmdStatus = _
  rw [Function.update_self]

theorem ddLine_signal_bm (d : Device) :
    (d.signalDdInterrupt ddStatusBmInt).ddLine =
      { d.ddLine with asserted := true, bm := true } := by
  have hcause : (d.signalDdInterrupt ddStatusBmInt).cp0.regs .cause =
      checkCause (d.cp0.regs .cause) causeIP3 true := r4300CheckInterrupt_cause _ _ _
  have hstatus := ddReg_signalDdInterrupt d ddStatusBmInt
  have hbm : (d.ddReg .cmdStatus ||| ddStatusBmInt) &&& ddStatusBmInt ≠ 0 :=
    Flags.or_and_ne_zero.mpr (.inr (by decide))
  have hmecha : (d.ddReg .cmdStatus ||| ddStatusBmInt) &&& ddStatusMechaInt =
      d.ddReg .cmdStatus &&& ddStatusMechaInt := Flags.or_and_of_disjoint (by decide)
  unfold ddLine
  rw [hcause, hstatus, hmecha, DdLine.mk.injEq]
  exact ⟨bne_iff_ne.mpr (causeIP3_check _).1, bne_iff_ne.mpr hbm, rfl⟩

theorem ddLine_signal_mecha (d : Device) :
    (d.signalDdInterrupt ddStatusMechaInt).ddLine =
      { d.ddLine with asserted := true, mecha := true } := by
  have hcause : (d.signalDdInterrupt ddStatusMechaInt).cp0.regs .cause =
      checkCause (d.cp0.regs .cause) causeIP3 true := r4300CheckInterrupt_cause _ _ _
  have hstatus := ddReg_signalDdInterrupt d ddStatusMechaInt
  have hmecha : (d.ddReg .cmdStatus ||| ddStatusMechaInt) &&& ddStatusMechaInt ≠ 0 :=
    Flags.or_and_ne_zero.mpr (.inr (by decide))
  have hbm : (d.ddReg .cmdStatus ||| ddStatusMechaInt) &&& ddStatusBmInt =
      d.ddReg .cmdStatus &&& ddStatusBmInt := Flags.or_and_of_disjoint (by decide)
  unfold ddLine
  rw [hcause, hstatus, hbm, DdLine.mk.injEq]
  exact ⟨bne_iff_ne.mpr (causeIP3_check _).1, rfl, bne_iff_ne.mpr hmecha⟩

/-- Clearing one interrupt drops the line, whatever the other one says. -/
theorem ddLine_clear_bm (d : Device) :
    (d.clearDdInterrupt ddStatusBmInt).ddLine = ⟨false, false, d.ddLine.mecha⟩ := by
  have hcause : (d.clearDdInterrupt ddStatusBmInt).cp0.regs .cause =
      checkCause (d.cp0.regs .cause) causeIP3 false := r4300CheckInterrupt_cause _ _ _
  have hstatus := ddReg_clearDdInterrupt d ddStatusBmInt
  have hbm : (d.ddReg .cmdStatus &&& ~~~ddStatusBmInt) &&& ddStatusBmInt = 0 :=
    Flags.andNot_and_of_covered (by decide)
  have hmecha : (d.ddReg .cmdStatus &&& ~~~ddStatusBmInt) &&& ddStatusMechaInt =
      d.ddReg .cmdStatus &&& ddStatusMechaInt := Flags.andNot_and_of_disjoint (by decide)
  unfold ddLine
  rw [hcause, hstatus, hmecha, DdLine.mk.injEq]
  exact ⟨bne_eq_false_iff_eq.mpr (causeIP3_check _).2, bne_eq_false_iff_eq.mpr hbm, rfl⟩

theorem ddLine_clear_mecha (d : Device) :
    (d.clearDdInterrupt ddStatusMechaInt).ddLine = ⟨false, d.ddLine.bm, false⟩ := by
  have hcause : (d.clearDdInterrupt ddStatusMechaInt).cp0.regs .cause =
      checkCause (d.cp0.regs .cause) causeIP3 false := r4300CheckInterrupt_cause _ _ _
  have hstatus := ddReg_clearDdInterrupt d ddStatusMechaInt
  have hmecha : (d.ddReg .cmdStatus &&& ~~~ddStatusMechaInt) &&& ddStatusMechaInt = 0 :=
    Flags.andNot_and_of_covered (by decide)
  have hbm : (d.ddReg .cmdStatus &&& ~~~ddStatusMechaInt) &&& ddStatusBmInt =
      d.ddReg .cmdStatus &&& ddStatusBmInt := Flags.andNot_and_of_disjoint (by decide)
  unfold ddLine
  rw [hcause, hstatus, hbm, DdLine.mk.injEq]
  exact ⟨bne_eq_false_iff_eq.mpr (causeIP3_check _).2, rfl, bne_eq_false_iff_eq.mpr hmecha⟩

theorem ddLine_ddUpdateBm (d : Device) :
    d.ddUpdateBm.ddLine = if d.ddReg .bmStatusCtl &&& ddBmStatusRunning = 0 then d.ddLine
      else { d.ddLine with asserted := true, bm := true } := by
  unfold ddUpdateBm
  split
  · rfl
  · have hclear : (d.clearDdBits .cmdStatus (ddStatusDataRq ||| ddStatusC2Xfer)).ddLine =
      d.ddLine :=
      ddLine_clearDdBits d (by decide)
    simp only
    rw [ddLine_signal_bm, ddLine_ddDvActive]
    split
    · rw [ddLine_bmWriteStep, hclear]
    · rw [ddLine_bmReadStep, hclear]

theorem ddLine_ddMechaIntHandler (d : Device) :
    d.ddMechaIntHandler.ddLine = { d.ddLine with asserted := true, mecha := true } := by
  rw [ddMechaIntHandler, ddLine_signal_mecha, ddLine_clearDdBits _ (by decide)]

-- ════════════════════
-- Registers
-- ════════════════════

theorem ddLine_readDdRegs (d : Device) (address : BitVec 32) :
    (readDdRegs d address).2.ddLine =
      if d.ackBm address then ⟨false, false, d.ddLine.mecha⟩ else d.ddLine := by
  unfold readDdRegs ackBm
  cases hrange : isDdReg address with
  | false => rfl
  | true =>
    simp only [Bool.not_true, Bool.false_eq_true, if_false, Bool.true_and]
    cases hreg : ddRegAt address with
    | none => rfl
    | some reg =>
      cases reg with
      | cmdStatus =>
        generalize hpresent : (if d.dd.disk.isSome then d.setDdBits .cmdStatus ddStatusDiskPres
          else d.clearDdBits .cmdStatus ddStatusDiskPres) = present
        have hline : present.ddLine = d.ddLine := by
          rw [← hpresent]
          split
          · exact ddLine_setDdBits d (by decide)
          · exact ddLine_clearDdBits d (by decide)
        simp only [beq_self_eq_true, Bool.true_and]
        rw [← hline]
        by_cases hbm : present.ddReg .cmdStatus &&& ddStatusBmInt = 0
        · have hquiet : present.ddLine.bm = false := bne_eq_false_iff_eq.mpr hbm
          rw [if_neg (not_not.mpr hbm), hquiet]
          rfl
        · have hpending : present.ddLine.bm = true := bne_iff_ne.mpr hbm
          rw [if_pos hbm, hpending, if_pos rfl, ddLine_addEvent, ddLine_clear_bm]
      | _ => rfl

/-- Bits were cleared, and the line not touched. -/
structure LineFalls (l l' : DdLine) : Prop where
  asserted : l'.asserted = l.asserted
  bm : l'.bm = true → l.bm = true
  mecha : l'.mecha = true → l.mecha = true

theorem LineFalls.of_eq {l l' : DdLine} (h : l' = l) : LineFalls l l' := by
  subst h
  exact ⟨rfl, id, id⟩

theorem LineFalls.trans {l l' l'' : DdLine} (h : LineFalls l l') (h' : LineFalls l' l'') :
    LineFalls l l'' :=
  ⟨h'.asserted.trans h.asserted, fun hb => h.bm (h'.bm hb), fun hm => h.mecha (h'.mecha hm)⟩

theorem ddReg_clearDdBits (d : Device) (bits : BitVec 32) :
    (d.clearDdBits .cmdStatus bits).ddReg .cmdStatus = d.ddReg .cmdStatus &&& ~~~bits := by
  rw [clearDdBits, ddReg, setDd_dd_regs, Function.update_self]

theorem clearDdBits_falls (d : Device) (bits : BitVec 32) :
    LineFalls d.ddLine (d.clearDdBits .cmdStatus bits).ddLine := by
  have hstatus := ddReg_clearDdBits d bits
  have hbit : ∀ m, ((d.ddReg .cmdStatus &&& ~~~bits) &&& m != 0) = true →
      (d.ddReg .cmdStatus &&& m != 0) = true := by
    intro m hne
    rw [bne_iff_ne] at hne ⊢
    intro hzero
    apply hne
    rw [BitVec.and_assoc, BitVec.and_comm (~~~bits), ← BitVec.and_assoc, hzero]
    exact BitVec.zero_and
  refine ⟨rfl, ?_, ?_⟩
  · intro h
    unfold ddLine at h
    rw [hstatus] at h
    exact hbit _ h
  · intro h
    unfold ddLine at h
    rw [hstatus] at h
    exact hbit _ h

/-- A write to the control register drops the line only when both interrupts are cleared. -/
theorem tells_ddBmControl {d : Device} (h : d.ddLine.Tells) (value : BitVec 32) :
    (d.ddBmControl value).ddLine.Tells := by
  let sought := d.setDd .curSector (value &&& 0x00ff0000)
  have hsought : sought.ddLine = d.ddLine := ddLine_setDd d (by decide) _
  generalize hmecha : (if value &&& ddBmCtlMechaRst ≠ 0 then
    (sought.clearDdBits .cmdStatus ddStatusMechaInt).dropEvent .ddMc else sought) = mecha
  have hmecha' : LineFalls d.ddLine mecha.ddLine := by
    rw [← hmecha, ← hsought]
    split
    · exact clearDdBits_falls sought _
    · exact .of_eq rfl
  generalize hblock : (if value &&& ddBmCtlBlkTrans ≠ 0 then
    mecha.setDdBits .bmStatusCtl ddBmStatusBlock else mecha) = block
  have hblock' : block.ddLine = mecha.ddLine := by
    rw [← hblock]
    split
    · exact ddLine_setDdBits_other mecha (by decide) _
    · rfl
  generalize hreset : (if value &&& ddBmCtlReset ≠ 0 then
      { block with dd := { block.dd with bmResetHeld := 1 } }
    else if block.dd.bmResetHeld ≠ 0 then block.ddBmRelease else block) = reset
  have hreset' : LineFalls block.ddLine reset.ddLine := by
    rw [← hreset]
    split
    · exact .of_eq rfl
    · split
      · have hrelease : block.ddBmRelease.ddLine =
            (({ block with dd := { block.dd with bmResetHeld := 0 } } : Device).clearDdBits
              .cmdStatus ddBmResetBits).ddLine := by
          unfold ddBmRelease
          simp only
          rw [ddLine_dropEvent, ddLine_setDd _ (by decide), ddLine_setDd _ (by decide)]
        rw [hrelease]
        exact clearDdBits_falls _ _
      · exact .of_eq rfl
  have hfalls : LineFalls d.ddLine reset.ddLine :=
    hmecha'.trans ((LineFalls.of_eq hblock').trans hreset')
  generalize hquiet : (if reset.ddReg .cmdStatus &&& (ddStatusBmInt ||| ddStatusMechaInt) = 0 then
    reset.clearDdInterrupt ddStatusBmInt else reset) = quiet
  have hstarted : (d.ddBmControl value).ddLine = quiet.ddLine := by
    have hcontrol : d.ddBmControl value = if value &&& ddBmCtlStart ≠ 0 then
        (quiet.setDdBits .bmStatusCtl ddBmStatusRunning).addEvent .ddBm 12500 else quiet := by
      rw [← hquiet, ← hreset, ← hblock, ← hmecha]
      rfl
    rw [hcontrol]
    split
    · rw [ddLine_addEvent, ddLine_setDdBits_other _ (by decide)]
    · rfl
  rw [hstarted, ← hquiet]
  have hbits : reset.ddReg .cmdStatus &&& (ddStatusBmInt ||| ddStatusMechaInt) = 0 ↔
      reset.ddLine.bm = false ∧ reset.ddLine.mecha = false := by
    unfold ddLine
    rw [bne_eq_false_iff_eq, bne_eq_false_iff_eq, BitVec.and_or_distrib_left]
    exact BitVec.or_eq_zero_iff
  split
  · next hzero =>
    rw [ddLine_clear_bm]
    unfold DdLine.Tells
    simp only
    rw [(hbits.mp hzero).2]
    rfl
  · next hne =>
    -- one interrupt is still pending, and was before
    unfold DdLine.Tells at h ⊢
    rw [hfalls.asserted, h]
    cases hb : reset.ddLine.bm with
    | true => rw [hfalls.bm hb, Bool.true_or, Bool.true_or]
    | false =>
      cases hm : reset.ddLine.mecha with
      | true => rw [hfalls.mecha hm, Bool.or_true, Bool.or_true]
      | false => exact absurd (hbits.mpr ⟨hb, hm⟩) hne

theorem ddLine_ddHardReset (d : Device) : d.ddHardReset.ddLine = ⟨false, false, false⟩ := by
  let dropped := (d.dropEvent .ddMc).dropEvent .ddBm
  let cleared := dropped.clearDdBits .cmdStatus (ddBmResetBits ||| ddStatusBusyState)
  have hbm : cleared.ddLine.bm = false := by
    have hstatus : cleared.ddReg .cmdStatus =
        dropped.ddReg .cmdStatus &&& ~~~(ddBmResetBits ||| ddStatusBusyState) :=
      ddReg_clearDdBits dropped _
    unfold ddLine
    rw [hstatus]
    exact bne_eq_false_iff_eq.mpr (Flags.andNot_and_of_covered (by decide))
  unfold ddHardReset
  simp only
  rw [ddLine_setDdBits _ (by decide), ddLine_clear_mecha, ddLine_ddDvSleep, DdLine.mk.injEq]
  refine ⟨rfl, ?_, rfl⟩
  have hline := (ddLine_setDd (cleared.setDd .bmStatusCtl 0)
    (show DdReg.curSector ≠ .cmdStatus by decide) 0).trans
    (ddLine_setDd cleared (show DdReg.bmStatusCtl ≠ .cmdStatus by decide) 0)
  exact (congrArg DdLine.bm hline).trans hbm

theorem ddLine_ddWriteCommand (o : Outside) (d : Device) (value : BitVec 32) :
    (ddWriteCommand o d value).ddLine = d.ddLine := by
  let clocked : Device := { d with dd := { d.dd with rtc := d.dd.rtc.update o.time } }
  have hclocked : clocked.ddLine = d.ddLine := rfl
  have hbusy : (clocked.setDdBits .cmdStatus ddStatusBusyState).ddLine = d.ddLine := by
    rw [ddLine_setDdBits _ (by decide), hclocked]
  have hcommand := ddLine_ddCommand o (clocked.setDdBits .cmdStatus ddStatusBusyState) value
  have hwrite : ddWriteCommand o d value =
      (ddCommand o (clocked.setDdBits .cmdStatus ddStatusBusyState) value).1.updateCount.addEvent
        .ddMc
        (ddCommand o (clocked.setDdBits .cmdStatus ddStatusBusyState) value).2 := rfl
  rw [hwrite, ddLine_addEvent, ddLine_updateCount, hcommand, hbusy]

theorem tells_writeDdRegs {d : Device} (h : d.ddLine.Tells) (o : Outside)
    (address value mask : BitVec 32) : (writeDdRegs o d address value mask).ddLine.Tells := by
  unfold writeDdRegs
  split
  · exact h
  · cases ddRegAt address with
    | none => exact h
    | some reg =>
      cases reg with
      | cmdStatus => rw [ddLine_ddWriteCommand]; exact h
      | bmStatusCtl => exact tells_ddBmControl h value
      | hardReset => rw [ddLine_ddHardReset]; rfl
      | curTk => exact h
      | curSector => exact h
      | _ => exact (congrArg DdLine.Tells (ddLine_setDd d (by decide) _)).mpr h

end Device

-- ════════════════════
-- Exceptions of the core
-- ════════════════════

theorem setBranchDelay_causeIP3 (r : R4300) :
    (setBranchDelay r).cp0Reg .cause &&& causeIP3 = r.cp0Reg .cause &&& causeIP3 := by
  unfold setBranchDelay
  split
  · simp only [R4300.cp0Reg, setCp0_cp0, Cp0.set_regs]
    rw [Function.update_of_ne (by decide), Function.update_self]
    exact Flags.or_and_of_disjoint (by decide)
  · simp only [R4300.cp0Reg, setCp0_cp0, Cp0.set_regs]
    rw [Function.update_self]
    exact Flags.andNot_and_of_disjoint (by decide)

/-- A TLB exception forgets the line: it assigns the code of the exception to Cause. -/
theorem tlbRefillException_assignsCause (address : BitVec 32) (w : Access) :
    AssignsCause fun r => tlbRefillException r address w := by
  intro r
  generalize hcounted : (if w ≠ .fetch then cp0UpdateCount r else r) = counted
  have hregs : (refillRegs counted address w).cp0Reg .cause &&& causeIP3 = 0 := by
    simp only [refillRegs, R4300.cp0Reg, setCp0_cp0, Cp0.set_regs]
    rw [Function.update_of_ne (by decide), Function.update_of_ne (by decide),
      Function.update_of_ne (by decide), Function.update_self]
    split <;> decide
  generalize hfilled : refillRegs counted address w = filled at hregs
  generalize hjumped : (if filled.cp0Reg .status &&& statusEXL ≠ 0 then refillNested filled
    else refillOuter filled address w) = jumped
  have hjump : jumped.cp0Reg .cause &&& causeIP3 = 0 := by
    rw [← hregs, ← hjumped]
    split
    · unfold refillNested
      simp only
      split
      · simp only [R4300.cp0Reg, setCp0_cp0, Cp0.set_regs, jumpUnmapped_cp0, Function.update_self]
        exact Flags.or_and_of_disjoint (by decide)
      · simp only [R4300.cp0Reg, setCp0_cp0, Cp0.set_regs, jumpUnmapped_cp0, Function.update_self]
        exact Flags.andNot_and_of_disjoint (by decide)
    · simp only [refillOuter, R4300.cp0Reg, setCp0_cp0, Cp0.set_regs, jumpUnmapped_cp0]
      rw [Function.update_of_ne (by decide), Function.update_self,
        Function.update_of_ne (by decide)]
      exact Flags.andNot_and_of_disjoint (by decide)
  have hdelay := (setBranchDelay_causeIP3 jumped).trans hjump
  have hend : tlbRefillException r address w = exceptionEpilog (syncLastAddr
      (if w ≠ .fetch then (setBranchDelay jumped).setCp0 .epc
        ((setBranchDelay jumped).cp0Reg .epc - 4)
        else setBranchDelay jumped)) := by
    rw [← hjumped, ← hfilled, ← hcounted]
    rfl
  change (tlbRefillException r address w).cp0Reg .cause &&& causeIP3 = 0
  rw [hend, R4300.cp0Reg, exceptionEpilog_regs]
  change (if w ≠ .fetch then _ else _ : R4300).cp0.regs .cause &&& causeIP3 = 0
  split
  · rw [setCp0_cp0, Cp0.set_regs, Function.update_of_ne (by decide)]
    exact hdelay
  · exact hdelay

-- ════════════════════
-- Along a run
-- ════════════════════

/-- **Step rule**: a step keeps the line in agreement with the bits exactly when it is orderly. -/
theorem tells_step_iff {d : Device} (h : d.ddLine.Tells) (a : DdStep) :
    (d.ddStep a).ddLine.Tells ↔ DdStep.Orderly d a := by
  cases a with
  | readRegs address =>
    rw [Device.ddStep, Device.ddLine_readDdRegs, DdStep.Orderly]
    cases hack : d.ackBm address with
    | true =>
      rw [if_pos rfl]
      unfold DdLine.Tells
      simp only [Bool.false_or, forall_const]
      exact eq_comm
    | false =>
      rw [if_neg Bool.false_ne_true]
      exact iff_of_true h nofun
  | writeRegs o address value mask =>
    exact iff_of_true (Device.tells_writeDdRegs h o address value mask) trivial
  | bmEvent =>
    refine iff_of_true ?_ trivial
    rw [Device.ddStep]
    split
    · change d.popEvent.ddUpdateBm.ddLine.Tells
      rw [Device.ddLine_ddUpdateBm, Device.ddLine_popEvent]
      split
      · exact h
      · rfl
    · exact h
  | mechaEvent =>
    refine iff_of_true ?_ trivial
    rw [Device.ddStep]
    split
    · change d.popEvent.ddMechaIntHandler.ddLine.Tells
      rw [Device.ddLine_ddMechaIntHandler, Device.ddLine_popEvent]
      exact (Bool.or_true _).symm
    · exact h
  | motorEvent =>
    refine iff_of_true ?_ trivial
    rw [Device.ddStep]
    split
    · change d.popEvent.ddDvIntHandler.ddLine.Tells
      rw [Device.ddLine_ddDvIntHandler, Device.ddLine_popEvent]
      exact h
    · exact h
  | exception f assigns =>
    have hline : (d.ddStep (.exception f assigns)).ddLine =
      { d.ddLine with asserted := false } := by
      unfold Device.ddLine
      rw [DdLine.mk.injEq]
      exact ⟨bne_eq_false_iff_eq.mpr (assigns d.r4300), rfl, rfl⟩
    rw [hline, DdStep.Orderly]
    unfold DdLine.Tells
    simp only
    rw [eq_comm, Bool.or_eq_false_iff]
  | other f keeps => exact iff_of_true ((congrArg DdLine.Tells (keeps d)).mpr h) trivial

/-- **The interrupt line of the 64DD**: along a run the line is asserted exactly while one of the
    two interrupts is pending, in every state, exactly when every step is orderly. -/
theorem dd_line_iff (d : Device) (h : d.ddLine.Tells) (steps : List DdStep) :
    (∀ e ∈ Runs.visited Device.ddStep d steps, e.ddLine.Tells) ↔
      Runs.Along Device.ddStep DdStep.Orderly d steps :=
  Runs.visited_iff_along (I := fun d : Device => d.ddLine.Tells) (C := DdStep.Orderly)
    (fun _ a hd => tells_step_iff hd a) h

instance decidableDdOrderly (d : Device) (a : DdStep) : Decidable (DdStep.Orderly d a) := by
  cases a <;> unfold DdStep.Orderly <;> infer_instance

/-- A command and a block transfer, whose interrupts are cleared one after the other. -/
theorem dd_line_cleared :
    bootedConsole.ddLine.Tells ∧ ∀ e ∈ Runs.visited Device.ddStep bootedConsole
      [.writeRegs quietOutside 0x05000508 0x00080000 0xffffffff, .mechaEvent,
        .writeRegs quietOutside 0x05000510 0x01000000 0xffffffff,
        .writeRegs quietOutside 0x05000510 0x80000000 0xffffffff, .bmEvent, .readRegs 0x05000508],
      e.ddLine.Tells :=
  ⟨by decide, (dd_line_iff bootedConsole (by decide) _).mpr (by decide)⟩

/-- The interrupt of the mechanics is forgotten when that of the buffer manager is acknowledged. -/
theorem dd_line_lost :
    ¬∀ (d : Device) (steps : List DdStep), d.ddLine.Tells →
      ∀ e ∈ Runs.visited Device.ddStep d steps, e.ddLine.Tells := by
  intro h
  let steps : List DdStep :=
    [.writeRegs quietOutside 0x05000508 0x00080000 0xffffffff,
      .writeRegs quietOutside 0x05000510 0x80000000 0xffffffff, .mechaEvent, .bmEvent,
      .readRegs 0x05000508]
  have hlast := h bootedConsole steps (by decide) _
    (Runs.runFrom_mem_visited Device.ddStep bootedConsole steps)
  exact absurd hlast (by decide)

end Mupen64plus
