import Mathlib.Tactic.Abel
import Mupen64plus.Device.ViEvents

/-!
# The current line

What reads of VI_CURRENT answer, between writes to the registers of the video interface, vertical
interrupts and steps of anything else, against the cycles since the frame began.

## Main definitions

- `ViStep`, `Device.viStep` — the steps
- `BeamRun` — the interface with the cycles since the frame began, and the answers since the last
  vertical interrupt
- `ReadsInOrder` — an answer is a line of the frame and no answer before it is above it
- `Undisturbed` — the condition on a step
- `BeamTracked` — the interrupt is due a delay behind the start of the frame

## Main results

- `beamTracked_step` — an undisturbed step keeps track of the beam
- `readsInOrder_of_undisturbed`
-/

namespace Mupen64plus

-- ════════════════════
-- Steps
-- ════════════════════

/-- What happens to the video interface; `other` is a step of anything else, with the cycles that it
takes. -/
inductive ViStep where
  | readVi (address : BitVec 32)
  | writeVi (address value mask : BitVec 32)
  | viEvent (o : Outside)
  | other (f : Device → Device) (keeps : KeepsVi f)

/-- Cycles pass. -/
def passCycles (n : BitVec 32) : ViStep :=
  .other (fun d => d.onCp0 fun c => c.set .count (c.count + n)) fun _ => ViKept.of_queue rfl rfl

namespace Device

/-- One step. The event of another device at the head of the queue is left to `other`. -/
def viStep (d : Device) : ViStep → Device
  | .readVi address => (d.readViRegs address).2
  | .writeVi address value mask => d.writeViRegs address value mask
  | .viEvent o => if d.isNext .vi then interruptHandler o d .vi else d
  | .other f _ => f d

/-- A step dispatches a vertical interrupt. -/
def viDispatches (d : Device) : ViStep → Bool
  | .viEvent _ => d.isNext .vi
  | _ => false

/-- The answer to a read of VI_CURRENT. -/
def viAnswer (d : Device) : ViStep → Option (BitVec 32)
  | .readVi address =>
    if regAt ViReg.block address = some .current then some (d.readViRegs address).1 else none
  | _ => none

end Device

/-- The interface, the cycles since the frame began (0 before the first), and the answers since the
last vertical interrupt. The frame began its delay before the interrupt that is queued. -/
structure BeamRun where
  device : Device
  elapsed : ℕ
  answers : List (BitVec 32)

/-- One step. A frame begins when its interrupt is queued, or when that of the one before is due,
and a change of the delay moves its start. -/
def BeamRun.step (s : BeamRun) (a : ViStep) : BeamRun :=
  let d := s.device.viStep a
  let passed := (d.cp0.count - s.device.cp0.count).toNat
  if s.device.viDispatches a then ⟨d, s.elapsed - s.device.vi.delay.toNat + passed, []⟩
  else
    { device := d
      elapsed :=
        if s.device.viPending = none then 0
        else s.elapsed + passed + d.vi.delay.toNat - s.device.vi.delay.toNat
      answers := (s.device.viAnswer a).toList ++ s.answers }

/-- An answer is not above VI_V_SYNC plus the field, and no answer before it is above it. -/
def ReadsInOrder (s : BeamRun) (a : ViStep) : Prop :=
  ∀ v, s.device.viAnswer a = some v →
    v.toNat ≤ (s.device.vi.regs .vSync).toNat + s.device.vi.field.toNat ∧
      ∀ r ∈ s.answers, r ≤ v

/-- The cycles since the frame began, with the count brought up to date. -/
def BeamRun.now (s : BeamRun) : ℕ :=
  s.elapsed + (s.device.updateCount.cp0.count - s.device.cp0.count).toNat

/-- The interface with its lines timed for a write to VI_V_SYNC. -/
def Device.retimed (d : Device) (value mask : BitVec 32) : Device :=
  (d.setVi .vSync (maskedWrite (d.vi.regs .vSync) value mask)).viTiming

/-- A change of VI_V_SYNC in a frame leaves its start in the past, and the beam no higher up. -/
def BeamRun.Retimes (s : BeamRun) (vi : ViController) : Prop :=
  s.device.vi.delay.toNat ≤ s.elapsed + vi.delay.toNat ∧
    s.elapsed / s.device.vi.countPerScanline.toNat / 2 ≤
      (s.elapsed + vi.delay.toNat - s.device.vi.delay.toNat) / vi.countPerScanline.toNat / 2

/-- VI_CURRENT is read above the last line of the frame, VI_V_SYNC is changed before the first frame
or with the beam no higher up for it, and a vertical interrupt is dispatched when it is due. -/
def Undisturbed (s : BeamRun) : ViStep → Prop
  | .readVi address => regAt ViReg.block address = some .current → s.device.viPending ≠ none →
      s.device.vi.countPerScanline ≠ 0 ∧ s.now < 2 ^ 32 ∧
        (s.now / s.device.vi.countPerScanline.toNat < (s.device.vi.regs .vSync).toNat ∨
          s.now / s.device.vi.countPerScanline.toNat = 0)
  | .writeVi address value mask => regAt ViReg.block address = some .vSync →
      s.device.vi.regs .vSync &&& mask ≠ value &&& mask → s.device.viPending ≠ none →
        s.Retimes (s.device.retimed value mask).vi
  | .viEvent _ => s.device.isNext .vi → s.device.vi.delay.toNat ≤ s.elapsed
  | .other .. => True

instance decidableRetimes (s : BeamRun) (vi : ViController) : Decidable (s.Retimes vi) := by
  unfold BeamRun.Retimes
  infer_instance

instance decidableUndisturbed (s : BeamRun) (a : ViStep) : Decidable (Undisturbed s a) := by
  cases a <;> unfold Undisturbed <;> infer_instance

-- ════════════════════
-- The beam
-- ════════════════════

/-- The vertical interrupt is due a delay behind the start of the frame, and no answer is above the
line of the beam. Before the first frame all is 0. -/
structure BeamTracked (s : BeamRun) : Prop where
  single : s.device.queued .vi ≤ 1
  field : s.device.vi.field = 0 ∨ s.device.vi.field = 1
  due : ∀ next, s.device.viPending = some next →
    s.device.vi.delay - (next - s.device.cp0.count) = BitVec.ofNat 32 s.elapsed
  answers : ∀ r ∈ s.answers, r.toNat ≤
    s.elapsed / s.device.vi.countPerScanline.toNat / 2 * 2 + s.device.vi.field.toNat
  before : s.device.viPending = none →
    s.device.vi.regs .current = 0 ∧ s.device.vi.field = 0 ∧ ∀ r ∈ s.answers, r = 0

/-- A line with its lowest bit replaced by the field. -/
theorem toNat_withField (x : BitVec 32) {field : BitVec 32} (h : field = 0 ∨ field = 1) :
    ((x &&& ~~~1) ||| field).toNat = x.toNat / 2 * 2 + field.toNat := by
  have hx := x.isLt
  have hline : (x &&& ~~~1).toNat = 2 ^ 1 * (x.toNat / 2) := by
    have hfield : (x &&& ~~~1).toNat = 2 ^ 1 * (x.toNat / 2 ^ 1 % 2 ^ 31) := by
      rw [BitVec.toNat_and]
      exact Flags.and_field x.toNat 1 31
    rw [hfield]
    omega
  have hlt : field.toNat < 2 ^ 1 := by
    rcases h with rfl | rfl <;> decide
  rw [BitVec.toNat_or, hline, ← Nat.two_pow_add_eq_or_of_lt hlt]
  omega

section

variable {s : BeamRun}

/-- The line that is read while the beam is above the last line of the frame. -/
theorem viRead_toNat {d : Device} {next : BitVec 32} {now : ℕ} (hpending : d.viPending = some next)
    (hfield : d.vi.field = 0 ∨ d.vi.field = 1)
    (hdue : d.vi.delay - (next - d.updateCount.cp0.count) = BitVec.ofNat 32 now)
    (hnow : now < 2 ^ 32) (hline : now / d.vi.countPerScanline.toNat < (d.vi.regs .vSync).toNat ∨
      now / d.vi.countPerScanline.toNat = 0) :
    d.viRead.toNat = now / d.vi.countPerScanline.toNat / 2 * 2 + d.vi.field.toNat := by
  have hcurrent : (d.updateCount.viCurrentLine next).toNat =
      now / d.vi.countPerScanline.toNat := by
    have hquotient : (BitVec.ofNat 32 now / d.vi.countPerScanline).toNat =
        now / d.vi.countPerScanline.toNat := by
      rw [BitVec.toNat_udiv, BitVec.toNat_ofNat, Nat.mod_eq_of_lt hnow]
    unfold Device.viCurrentLine
    change (if d.vi.regs .vSync ≤
        (d.vi.delay - (next - d.updateCount.cp0.count)) / d.vi.countPerScanline then
      (d.vi.delay - (next - d.updateCount.cp0.count)) / d.vi.countPerScanline -
        d.vi.regs .vSync
      else (d.vi.delay - (next - d.updateCount.cp0.count)) / d.vi.countPerScanline).toNat = _
    rw [hdue]
    split
    · next hwrap =>
      rw [BitVec.le_def, hquotient] at hwrap
      rw [BitVec.toNat_sub, hquotient]
      omega
    · exact hquotient
  unfold Device.viRead
  rw [hpending]
  dsimp only
  rw [toNat_withField _ hfield, hcurrent]

/-- Before the first frame VI_CURRENT reads 0. -/
theorem viRead_before (h : BeamTracked s) (hnone : s.device.viPending = none) :
    s.device.viRead = 0 := by
  obtain ⟨hcurrent, hfield, -⟩ := h.before hnone
  unfold Device.viRead
  rw [hnone]
  dsimp only
  rw [hcurrent, hfield]
  decide

/-- A step of the beam in a frame. -/
theorem due_advance {delay next count count' : BitVec 32} {elapsed : ℕ}
    (h : delay - (next - count) = BitVec.ofNat 32 elapsed) :
    delay - (next - count') = BitVec.ofNat 32 (elapsed + (count' - count).toNat) := by
  have hmove : delay - (next - count') = (delay - (next - count)) + (count' - count) := by
    abel
  rw [hmove, h, BitVec.ofNat_add, BitVec.ofNat_toNat, BitVec.setWidth_eq]

/-- The first interrupt. -/
theorem due_first (delay count : BitVec 32) :
    delay - (count + delay - count) = BitVec.ofNat 32 0 := by
  rw [add_sub_cancel_left, sub_self]
  rfl

/-- The next interrupt, from one that is due. -/
theorem due_repeat {delay delay' next count count' : BitVec 32} {elapsed : ℕ}
    (h : delay - (next - count) = BitVec.ofNat 32 elapsed) (hdue : delay.toNat ≤ elapsed) :
    delay' - (next + delay' - count') =
      BitVec.ofNat 32 (elapsed - delay.toNat + (count' - count).toNat) := by
  have hpast : BitVec.ofNat 32 (elapsed - delay.toNat) = BitVec.ofNat 32 elapsed - delay := by
    apply BitVec.eq_of_toNat_eq
    have hdelay := delay.isLt
    rw [BitVec.toNat_sub, BitVec.toNat_ofNat, BitVec.toNat_ofNat]
    omega
  have hmove : delay' - (next + delay' - count') =
      (delay - (next - count)) - delay + (count' - count) := by
    abel
  rw [hmove, h, BitVec.ofNat_add, BitVec.ofNat_toNat, BitVec.setWidth_eq, hpast]

/-- The same interrupt with another delay. -/
theorem due_retimed {delay delay' next count : BitVec 32} {elapsed : ℕ}
    (h : delay - (next - count) = BitVec.ofNat 32 elapsed)
    (hstart : delay.toNat ≤ elapsed + delay'.toNat) :
    delay' - (next - count) = BitVec.ofNat 32 (elapsed + delay'.toNat - delay.toNat) := by
  have hpast : BitVec.ofNat 32 (elapsed + delay'.toNat - delay.toNat) =
      BitVec.ofNat 32 elapsed + delay' - delay := by
    apply BitVec.eq_of_toNat_eq
    have hdelay := delay.isLt
    have hdelay' := delay'.isLt
    rw [BitVec.toNat_sub, BitVec.toNat_add, BitVec.toNat_ofNat, BitVec.toNat_ofNat]
    omega
  have hmove : delay' - (next - count) = (delay - (next - count)) + delay' - delay := by
    abel
  rw [hmove, h, hpast]

-- ════════════════════
-- A step keeps track of the beam
-- ════════════════════

/-- The frame goes on. -/
structure SameFrame (d d' : Device) : Prop where
  queued : d'.queued .vi = d.queued .vi
  pending : d'.viPending = d.viPending
  field : d'.vi.field = d.vi.field
  delay : d'.vi.delay = d.vi.delay
  length : d'.vi.countPerScanline = d.vi.countPerScanline

theorem ViKept.sameFrame {d d' : Device} (h : ViKept d d') : SameFrame d d' :=
  ⟨h.queued, h.pending, by rw [h.vi], by rw [h.vi], by rw [h.vi]⟩

theorem SameFrame.setVi {d d' : Device} (h : SameFrame d d') (reg : ViReg) (v : BitVec 32) :
    SameFrame d (d'.setVi reg v) := ⟨h.queued, h.pending, h.field, h.delay, h.length⟩

/-- A step in a frame, whose answer, if it has one, is the line of the beam. -/
theorem BeamTracked.passed (h : BeamTracked s) {d : Device} {answers : List (BitVec 32)} {now : ℕ}
    (hsame : SameFrame s.device d)
    (hnow : now = s.elapsed + (d.cp0.count - s.device.cp0.count).toNat + d.vi.delay.toNat -
      s.device.vi.delay.toNat)
    (hcurrent : s.device.viPending = none → d.vi.regs .current = 0)
    (hanswers : ∀ r ∈ answers, r ∈ s.answers ∨ s.device.viPending = none ∧ r = 0 ∨
      s.device.viPending ≠ none ∧
        r.toNat = (s.elapsed + (d.cp0.count - s.device.cp0.count).toNat) /
          s.device.vi.countPerScanline.toNat / 2 * 2 + s.device.vi.field.toNat) :
    BeamTracked ⟨d, if s.device.viPending = none then 0 else now, answers⟩ := by
  rw [hsame.delay, Nat.add_sub_cancel] at hnow
  refine ⟨hsame.queued.trans_le h.single, hsame.field ▸ h.field, ?_, ?_, ?_⟩
  · intro next hnext
    change d.viPending = some next at hnext
    rw [hsame.pending] at hnext
    change d.vi.delay - _ = BitVec.ofNat 32 (if _ then 0 else now)
    rw [hsame.delay, if_neg (by rw [hnext]; simp), hnow]
    exact due_advance (h.due next hnext)
  · intro r hr
    change r.toNat ≤ (if _ then 0 else now) / d.vi.countPerScanline.toNat / 2 * 2 + d.vi.field.toNat
    rw [hsame.length, hsame.field]
    rcases hanswers r hr with hold | ⟨-, rfl⟩ | ⟨hsome, hnew⟩
    · by_cases hnone : s.device.viPending = none
      · rw [(h.before hnone).2.2 r hold]
        exact Nat.zero_le _
      · have hle := h.answers r hold
        have hmono : s.elapsed / s.device.vi.countPerScanline.toNat ≤
            now / s.device.vi.countPerScanline.toNat := Nat.div_le_div_right (by omega)
        rw [if_neg hnone]
        omega
    · exact Nat.zero_le _
    · rw [if_neg hsome, hnew, hnow]
  · intro hnone
    change d.viPending = none at hnone
    rw [hsame.pending] at hnone
    obtain ⟨-, hzero, hall⟩ := h.before hnone
    refine ⟨hcurrent hnone, hsame.field.trans hzero, ?_⟩
    intro r hr
    rcases hanswers r hr with hold | ⟨-, rfl⟩ | ⟨hsome, -⟩
    · exact hall r hold
    · rfl
    · exact absurd hnone hsome

/-- The first frame begins, or the pool has no node for its interrupt. -/
theorem BeamTracked.first (h : BeamTracked s) {d : Device} (hnone : s.device.viPending = none)
    (hpending : d.viPending = none) (hqueued : d.queued .vi = 0)
    (hfield : d.vi.field = s.device.vi.field) (hcurrent : d.vi.regs .current = 0) :
    BeamTracked ⟨d.setViVerticalInterrupt, 0, s.answers⟩ := by
  obtain ⟨-, hzero, hall⟩ := h.before hnone
  have hanswers (length : ℕ) (field : BitVec 32) : ∀ r ∈ s.answers,
      r.toNat ≤ 0 / length / 2 * 2 + field.toNat := by
    intro r hr
    rw [hall r hr]
    exact Nat.zero_le _
  rcases d.setViVerticalInterrupt_cases with heq | ⟨-, -, heq⟩
  · rw [heq]
    refine ⟨hqueued.trans_le (Nat.zero_le 1), Or.inl (hfield.trans hzero), ?_, hanswers _ _,
      fun _ => ⟨hcurrent, hfield.trans hzero, hall⟩⟩
    intro next hnext
    exact absurd (hpending.symm.trans hnext) (by simp)
  · have hfirst := Device.viPending_queuedFirst hpending
    rw [heq]
    refine ⟨?_, Or.inl (hfield.trans hzero), ?_, hanswers _ _,
      fun _ => ⟨hcurrent, hfield.trans hzero, hall⟩⟩
    · rw [hfirst.2]
      exact Bool.toNat_le _
    · intro next hnext
      have hcount : (d.updateCount.addEvent .vi d.vi.delay).cp0.count =
          d.updateCount.cp0.count := by
        change (addInterruptEventCount _ _ _).regs .count = _
        rw [addInterruptEventCount_regs]
      change (d.updateCount.addEvent .vi d.vi.delay).viPending = some next at hnext
      rw [hfirst.1] at hnext
      split at hnext
      · change d.vi.delay - (next - (d.updateCount.addEvent .vi d.vi.delay).cp0.count) = _
        rw [hcount, ← Option.some_inj.mp hnext]
        exact due_first _ _
      · exact absurd hnext (by simp)

/-- The lines are timed anew in a frame. -/
theorem BeamTracked.retimed (h : BeamTracked s) {value mask : BitVec 32}
    (hsome : s.device.viPending ≠ none)
    (hretimes : s.Retimes (s.device.retimed value mask).vi) :
    BeamTracked ⟨s.device.retimed value mask,
      s.elapsed + ((s.device.retimed value mask).cp0.count - s.device.cp0.count).toNat +
        (s.device.retimed value mask).vi.delay.toNat - s.device.vi.delay.toNat,
      [] ++ s.answers⟩ := by
  obtain ⟨hstart, hline⟩ := hretimes
  have hcount : ((s.device.retimed value mask).cp0.count - s.device.cp0.count).toNat = 0 := by
    change (s.device.cp0.count - s.device.cp0.count).toNat = 0
    rw [sub_self]
    rfl
  rw [hcount, Nat.add_zero, List.nil_append]
  refine ⟨h.single, h.field, fun next hnext => ?_, fun r hr => ?_, fun hnone => absurd hnone hsome⟩
  · exact due_retimed (h.due next hnext) hstart
  · refine (h.answers r hr).trans (Nat.add_le_add_right ?_ _)
    exact Nat.mul_le_mul_right 2 hline

theorem step_of_not_dispatched {a : ViStep} (h : s.device.viDispatches a = false) :
    s.step a = ⟨s.device.viStep a,
      if s.device.viPending = none then 0
        else s.elapsed + ((s.device.viStep a).cp0.count - s.device.cp0.count).toNat +
          (s.device.viStep a).vi.delay.toNat - s.device.vi.delay.toNat,
      (s.device.viAnswer a).toList ++ s.answers⟩ := by
  unfold BeamRun.step
  dsimp only
  rw [h, if_neg Bool.false_ne_true]

/-- What a read in a frame answers. -/
theorem viRead_tracked (h : BeamTracked s) {address : BitVec 32}
    (hcurrent : regAt ViReg.block address = some .current) (hsome : s.device.viPending ≠ none)
    (hundisturbed : Undisturbed s (.readVi address)) :
    s.device.viRead.toNat =
      s.now / s.device.vi.countPerScanline.toNat / 2 * 2 + s.device.vi.field.toNat := by
  obtain ⟨next, hnext⟩ := Option.ne_none_iff_exists'.mp hsome
  obtain ⟨-, hnow, hline⟩ := hundisturbed hcurrent hsome
  exact viRead_toNat hnext h.field (due_advance (h.due next hnext)) hnow hline

theorem beamTracked_readVi (h : BeamTracked s) {address : BitVec 32}
    (hundisturbed : Undisturbed s (.readVi address)) :
    BeamTracked (s.step (.readVi address)) := by
  rw [step_of_not_dispatched rfl]
  by_cases hcurrent : regAt ViReg.block address = some .current
  · have hanswer : s.device.viAnswer (.readVi address) = some s.device.viRead := by
      simp only [Device.viAnswer, if_pos hcurrent, Device.readViRegs_current hcurrent]
    have hstep : s.device.viStep (.readVi address) =
        s.device.viCounted.setVi .current s.device.viRead := by
      simp only [Device.viStep, Device.readViRegs_current hcurrent]
    have hvalue : (s.device.viCounted.setVi .current s.device.viRead).vi.regs .current =
        s.device.viRead := by
      simp only [Device.setVi, Function.update_self]
    rw [hanswer, hstep]
    refine h.passed (s.device.viKept_viCounted.sameFrame.setVi _ _) rfl
      (fun hnone => hvalue.trans (viRead_before h hnone)) ?_
    intro r hr
    rcases List.mem_cons.mp hr with rfl | hold
    · by_cases hnone : s.device.viPending = none
      · exact Or.inr (Or.inl ⟨hnone, viRead_before h hnone⟩)
      · have hcounted : s.device.viCounted = s.device.updateCount :=
          if_pos (Option.isSome_iff_ne_none.mpr hnone)
        rw [hcounted]
        exact Or.inr (Or.inr ⟨hnone, viRead_tracked h hcurrent hnone hundisturbed⟩)
    · exact Or.inl hold
  · have hanswer : s.device.viAnswer (.readVi address) = none := if_neg hcurrent
    have hstep : s.device.viStep (.readVi address) = s.device := Device.readViRegs_other hcurrent
    rw [hanswer, hstep]
    exact h.passed (ViKept.refl s.device).sameFrame rfl (fun hnone => (h.before hnone).1)
      fun r hr => Or.inl hr

theorem beamTracked_writeVi (h : BeamTracked s) {address value mask : BitVec 32}
    (hundisturbed : Undisturbed s (.writeVi address value mask)) :
    BeamTracked (s.step (.writeVi address value mask)) := by
  rw [step_of_not_dispatched rfl]
  change BeamTracked ⟨s.device.writeViRegs address value mask,
    if s.device.viPending = none then 0
      else s.elapsed +
        ((s.device.writeViRegs address value mask).cp0.count - s.device.cp0.count).toNat +
        (s.device.writeViRegs address value mask).vi.delay.toNat - s.device.vi.delay.toNat,
    [] ++ s.answers⟩
  rw [List.nil_append]
  have hother (reg : ViReg) (v : BitVec 32) (hne : reg ≠ .current)
      (hnone : s.device.viPending = none) : (s.device.setVi reg v).vi.regs .current = 0 :=
    (Function.update_of_ne hne.symm _ _).trans (h.before hnone).1
  rcases s.device.writeViRegs_cases address value mask with hkept | ⟨hsync, hchange, heq⟩ |
    ⟨-, heq⟩ | ⟨reg, v, -, hne, heq⟩
  · refine h.passed hkept.sameFrame rfl (fun hnone => ?_) fun r hr => Or.inl hr
    rw [hkept.vi]
    exact (h.before hnone).1
  · by_cases hnone : s.device.viPending = none
    · rw [if_pos hnone, heq]
      refine h.first hnone hnone ((Device.viPending_eq_none_iff _).mp hnone) rfl ?_
      exact hother .vSync (maskedWrite (s.device.vi.regs .vSync) value mask) (by decide) hnone
    · have hset : s.device.writeViRegs address value mask = s.device.retimed value mask :=
        heq.trans (Device.setViVerticalInterrupt_of_pending hnone)
      rw [if_neg hnone, hset]
      exact h.retimed hnone (hundisturbed hsync hchange hnone)
  · by_cases hnone : s.device.viPending = none
    · rw [if_pos hnone, heq]
      refine h.first hnone hnone ((Device.viPending_eq_none_iff _).mp hnone) rfl ?_
      exact hother .vIntr (maskedWrite (s.device.vi.regs .vIntr) value mask) (by decide) hnone
    · have hset : s.device.writeViRegs address value mask = s.device.setVi .vIntr
          (maskedWrite (s.device.vi.regs .vIntr) value mask) :=
        heq.trans (Device.setViVerticalInterrupt_of_pending hnone)
      rw [hset]
      exact h.passed ((ViKept.refl s.device).sameFrame.setVi _ _) rfl
        (fun hn => absurd hn hnone) fun r hr => Or.inl hr
  · rw [heq]
    exact h.passed ((ViKept.refl s.device).sameFrame.setVi _ _) rfl (hother reg v hne)
      fun r hr => Or.inl hr

/-- The next frame begins where the interrupt was due. -/
theorem beamTracked_viEvent (h : BeamTracked s) {o : Outside}
    (hundisturbed : Undisturbed s (.viEvent o)) : BeamTracked (s.step (.viEvent o)) := by
  by_cases hnext : s.device.isNext .vi
  · obtain ⟨hvi, hpending, hqueued⟩ := Device.viPending_event o hnext h.single
    have hdispatched : s.device.viDispatches (.viEvent o) = true := hnext
    have hstep : s.device.viStep (.viEvent o) = Device.viVerticalInterruptEvent o s.device :=
      if_pos hnext
    have hsome : s.device.viPending ≠ none := by
      rw [ne_eq, Device.viPending_eq_none_iff]
      exact (Device.queued_pos_of_isNext hnext).ne'
    obtain ⟨next, hdue⟩ := Option.ne_none_iff_exists'.mp hsome
    rw [hdue, Option.getD_some] at hpending
    unfold BeamRun.step
    dsimp only
    rw [if_pos hdispatched, hstep]
    refine ⟨hqueued.le, ?_, ?_, fun r hr => absurd hr List.not_mem_nil, ?_⟩
    · rw [hvi]
      have hbit (x : BitVec 32) : x &&& 0x1 = 0 ∨ x &&& 0x1 = 1 := by
        have hlow : (x &&& 0x1).toNat = x.toNat % 2 ^ 1 := Flags.toNat_and_low 1 rfl
        rcases Nat.mod_two_eq_zero_or_one x.toNat with hx | hx
        · exact Or.inl (BitVec.eq_of_toNat_eq (hlow.trans hx))
        · exact Or.inr (BitVec.eq_of_toNat_eq (hlow.trans hx))
      change s.device.vi.field ^^^ (s.device.vi.regs .status >>> 6 &&& 0x1) = 0 ∨
        s.device.vi.field ^^^ (s.device.vi.regs .status >>> 6 &&& 0x1) = 1
      rcases h.field with hf | hf <;>
        rcases hbit (s.device.vi.regs .status >>> 6) with hb | hb <;>
        rw [hf, hb] <;> decide
    · intro next' hnext'
      obtain rfl := Option.some_inj.mp (hpending.symm.trans hnext')
      rw [hvi]
      exact due_repeat (h.due next hdue) (hundisturbed hnext)
    · intro hnone
      exact absurd (hpending.symm.trans hnone) (by simp)
  · have hdispatched : s.device.viDispatches (.viEvent o) = false :=
      Bool.eq_false_iff.mpr hnext
    have hstep : s.device.viStep (.viEvent o) = s.device := if_neg hnext
    rw [step_of_not_dispatched hdispatched, hstep]
    exact h.passed (ViKept.refl s.device).sameFrame rfl (fun hnone => (h.before hnone).1)
      fun r hr => Or.inl hr

/-- **An undisturbed step keeps track of the beam.** -/
theorem beamTracked_step (h : BeamTracked s) (a : ViStep) (hundisturbed : Undisturbed s a) :
    BeamTracked (s.step a) := by
  cases a with
  | readVi address => exact beamTracked_readVi h hundisturbed
  | writeVi address value mask => exact beamTracked_writeVi h hundisturbed
  | viEvent o => exact beamTracked_viEvent h hundisturbed
  | other f keeps =>
    rw [step_of_not_dispatched rfl]
    refine h.passed (keeps s.device).sameFrame rfl (fun hnone => ?_) fun r hr => Or.inl hr
    change (f s.device).vi.regs .current = 0
    rw [(keeps s.device).vi]
    exact (h.before hnone).1

/-- An answer is the line of the beam, and the beam only moves down. -/
theorem readsInOrder_step (h : BeamTracked s) (a : ViStep) (hundisturbed : Undisturbed s a) :
    ReadsInOrder s a := by
  intro v hv
  cases a with
  | readVi address =>
    by_cases hcurrent : regAt ViReg.block address = some .current
    · have hread : v = s.device.viRead := by
        simp only [Device.viAnswer, if_pos hcurrent, Device.readViRegs_current hcurrent,
          Option.some_inj] at hv
        exact hv.symm
      by_cases hnone : s.device.viPending = none
      · rw [hread, viRead_before h hnone]
        refine ⟨Nat.zero_le _, fun r hr => ?_⟩
        rw [(h.before hnone).2.2 r hr]
        exact BitVec.le_refl 0
      · have hvalue := viRead_tracked h hcurrent hnone hundisturbed
        obtain ⟨-, -, hline⟩ := hundisturbed hcurrent hnone
        rw [hread]
        constructor
        · rw [hvalue]
          omega
        · intro r hr
          have hle := h.answers r hr
          have hmono : s.elapsed / s.device.vi.countPerScanline.toNat ≤
              s.now / s.device.vi.countPerScanline.toNat :=
            Nat.div_le_div_right (Nat.le_add_right _ _)
          rw [BitVec.le_def, hvalue]
          omega
    · simp [Device.viAnswer, hcurrent] at hv
  | _ => simp [Device.viAnswer] at hv

end

-- ════════════════════
-- Runs from power on
-- ════════════════════

theorem beamTracked_powerOn (o : Outside) (d : Device) :
    BeamTracked ⟨Device.powerOnDevice o d, 0, []⟩ := by
  obtain ⟨hvi, hpending⟩ := Device.powerOnDevice_vi o d
  have hqueued := (Device.viPending_eq_none_iff _).mp hpending
  have hfield : (Device.powerOnDevice o d).vi.field = 0 := by
    rw [hvi]
    rfl
  have hcurrent : (Device.powerOnDevice o d).vi.regs .current = 0 := by
    rw [hvi]
    rfl
  refine ⟨hqueued.trans_le (Nat.zero_le 1), Or.inl hfield, ?_,
    fun r hr => absurd hr List.not_mem_nil,
    fun _ => ⟨hcurrent, hfield, fun r hr => absurd hr List.not_mem_nil⟩⟩
  intro next hnext
  exact absurd (hpending.symm.trans hnext) (by simp)

/-- **VI_CURRENT**: along an undisturbed run from power on no answer is above VI_V_SYNC plus the
    field, and none is below one before it since the last vertical interrupt. -/
theorem readsInOrder_of_undisturbed (o : Outside) (d : Device) {steps : List ViStep}
    (h : Runs.Along BeamRun.step Undisturbed ⟨Device.powerOnDevice o d, 0, []⟩ steps) :
    Runs.Along BeamRun.step ReadsInOrder ⟨Device.powerOnDevice o d, 0, []⟩ steps :=
  Runs.along_of_along (fun _ a ht ha => beamTracked_step ht a ha)
    (fun _ a ht ha => readsInOrder_step ht a ha) (beamTracked_powerOn o d) h

/-- VI_V_SYNC from 525 to 600 in line 288, and a read in each frame. -/
theorem readsInOrder_taller :
    Runs.Along BeamRun.step ReadsInOrder
      ⟨Device.powerOnDevice quietOutside
        ((staticDevice (initR4300 .pureInterpreter 2 0 0xa4000040)).initVi .ntsc), 0, []⟩
      [.writeVi 0x04400018 525 0xffffffff, passCycles 300000, .readVi 0x04400010,
        passCycles 90000, .writeVi 0x04400018 600 0xffffffff, .readVi 0x04400010,
        passCycles 421092, .viEvent quietOutside, .readVi 0x04400010] :=
  readsInOrder_of_undisturbed _ _ (by decide)

/-- VI_V_SYNC from 525 to 1000 as the first frame begins: the frame gets shorter by 282 cycles, and
the line is below it. -/
theorem taller_outOfOrder : ¬∀ (o : Outside) (d : Device) (steps : List ViStep),
    Runs.Along BeamRun.step ReadsInOrder ⟨Device.powerOnDevice o d, 0, []⟩ steps := by
  intro h
  obtain ⟨-, -, hread, -⟩ := h quietOutside
    ((staticDevice (initR4300 .pureInterpreter 2 0 0xa4000040)).initVi .ntsc)
    [.writeVi 0x04400018 525 0xffffffff, .writeVi 0x04400018 1000 0xffffffff,
      .readVi 0x04400010]
  obtain ⟨hline, -⟩ := hread 5301428 (by decide)
  revert hline
  decide

end Mupen64plus
