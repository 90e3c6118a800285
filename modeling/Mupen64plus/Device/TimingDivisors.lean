import Mupen64plus.Device.ViEvents

/-!
# Divisors of the audio and video timing

The divisions that reads and writes of the video and audio registers and the events of both make, in
runs from power on, with any steps of other devices between them.

## Main definitions

- `TimingStep` — the steps
- `Device.divisors` — what a step divides by
- `SafeStep` — no divisor is 0, and the vertical interrupt repeats itself with a delay
- `DivisorsFit` — the condition on the registers
- `LinesTimed` — while a vertical interrupt is queued, lines and frames have the lengths of
  VI_V_SYNC

## Main results

- `linesTimed_step` — a step keeps `LinesTimed`
- `safeRun_iff` — the steps of a run are safe exactly if each meets its condition
-/

namespace Mupen64plus

-- ════════════════════
-- Steps
-- ════════════════════

/-- What happens to the video and the audio interface; `other` is a step of anything else, which may
change the audio registers. -/
inductive TimingStep where
  | readVi (address : BitVec 32)
  | writeVi (address value mask : BitVec 32)
  | viEvent (o : Outside)
  | readAi (address : BitVec 32)
  | writeAi (address value mask : BitVec 32)
  | aiEvent
  | other (f : Device → Device) (keeps : KeepsVi f)

namespace Device

/-- One step. The event of another device at the head of the queue is left to `other`. -/
def timingStep (d : Device) : TimingStep → Device
  | .readVi address => (d.readViRegs address).2
  | .writeVi address value mask => d.writeViRegs address value mask
  | .viEvent o => if d.isNext .vi then interruptHandler o d .vi else d
  | .readAi address => (d.readAiRegs address).2
  | .writeAi address value mask => d.writeAiRegs address value mask
  | .aiEvent => if d.isNext .ai then interruptHandler quietOutside d .ai else d
  | .other f _ => f d

/-- VI_V_SYNC as a write leaves it. -/
def vSyncAfter (d : Device) (value mask : BitVec 32) : BitVec 32 :=
  maskedWrite (d.vi.regs .vSync) value mask

/-- What a step divides by, in order: `read_vi_regs`, `write_vi_regs`, `get_remaining_dma_length`,
`get_dma_duration` and `do_dma` when a buffer is pushed, and `do_dma` when the second one starts. -/
def divisors (d : Device) : TimingStep → List (BitVec 32)
  | .readVi address =>
    if regAt ViReg.block address = some .current ∧ d.viPending.isSome then
      [d.vi.countPerScanline]
    else []
  | .writeVi address value mask =>
    if regAt ViReg.block address = some .vSync ∧ d.vi.regs .vSync &&& mask ≠ value &&& mask ∧
        d.vi.countPerScanlineOverride = 0 then
      [d.vi.expectedRefreshRate, d.vSyncAfter value mask + 1]
    else []
  | .readAi address =>
    if regAt AiReg.block address = some .len ∧ (d.ai.fifo 0).duration ≠ 0 then
      [(d.ai.fifo 0).duration]
    else []
  | .writeAi address value mask =>
    if regAt AiReg.block address = some .len ∧ d.aiLenAfter value mask ≠ 0 then
      d.durationDivisors ++ if d.aiBusy then [] else d.formatDivisors
    else []
  | .aiEvent => if d.isNext .ai ∧ d.aiFull then d.formatDivisors else []
  | .viEvent _ | .other .. => []

/-- A step dispatches a vertical interrupt. -/
def viRepeats (d : Device) : TimingStep → Bool
  | .viEvent _ => d.isNext .vi
  | _ => false

end Device

/-- No divisor of a step is 0, and the vertical interrupt repeats itself with a delay. -/
structure SafeStep (d : Device) (a : TimingStep) : Prop where
  divisors : ∀ x ∈ d.divisors a, x ≠ 0
  delay : d.viRepeats a = true → (d.timingStep a).vi.delay ≠ 0

namespace Device

/-- A frame has a cycle for each of its lines; a fixed length of lines has to leave a frame. -/
def FrameLasts (d : Device) : Prop :=
  if d.vi.countPerScanlineOverride = 0 then
    (d.vi.regs .vSync).toNat + 1 ≤ d.vi.clock.toNat / d.vi.expectedRefreshRate.toNat
  else d.vi.regs .vSync = 0 ∨ (d.vi.regs .vSync + 1) * d.vi.countPerScanlineOverride ≠ 0

end Device

/-- The condition on the registers, for each step. -/
def DivisorsFit (d : Device) : TimingStep → Prop
  | .readVi address => regAt ViReg.block address = some .current → d.viPending.isSome →
      d.vi.countPerScanlineOverride = 0 →
        (d.vi.regs .vSync).toNat + 1 ≤ d.vi.clock.toNat / d.vi.expectedRefreshRate.toNat
  | .writeVi address value mask => regAt ViReg.block address = some .vSync →
      d.vi.regs .vSync &&& mask ≠ value &&& mask → d.vi.countPerScanlineOverride = 0 →
        d.vSyncAfter value mask ≠ 0xffffffff
  | .writeAi address value mask => regAt AiReg.block address = some .len →
      d.aiLenAfter value mask ≠ 0 → (d.ai.regs .dacrate).toNat < d.vi.clock.toNat
  | .aiEvent => d.isNext .ai → d.aiFull → d.ai.samplesFormatChanged ≠ 0 →
      d.ai.regs .dacrate ≠ 0xffffffff
  | .viEvent _ => d.isNext .vi → d.FrameLasts
  | .readAi _ | .other .. => True

-- ════════════════════
-- Lines and frames
-- ════════════════════

/-- While a vertical interrupt is queued or VI_V_SYNC is set, lines and frames have the lengths of
`viTiming`, and a fixed length of lines is in place. -/
structure LinesTimed (tv : TvStandard) (d : Device) : Prop where
  setUp : d.vi.SetUp tv
  single : d.queued .vi ≤ 1
  fixed : d.vi.countPerScanlineOverride ≠ 0 →
    d.vi.countPerScanline = d.vi.countPerScanlineOverride
  timed : d.vi.countPerScanlineOverride = 0 → d.vi.regs .vSync ≠ 0 ∨ d.viPending ≠ none →
    d.vi.countPerScanline = d.vi.clock / d.vi.expectedRefreshRate / (d.vi.regs .vSync + 1) ∧
      d.vi.delay = (d.vi.regs .vSync + 1) * d.vi.countPerScanline

section

variable {tv : TvStandard} {d d' : Device}

theorem LinesTimed.kept (h : LinesTimed tv d) (hkept : ViKept d d') : LinesTimed tv d' where
  setUp := hkept.vi ▸ h.setUp
  single := hkept.queued ▸ h.single
  fixed := hkept.vi ▸ h.fixed
  timed := by
    rw [hkept.vi, hkept.pending]
    exact h.timed

/-- Another register of the interface. -/
theorem LinesTimed.setVi (h : LinesTimed tv d) {reg : ViReg} (v : BitVec 32)
    (hreg : reg ≠ .vSync) : LinesTimed tv (d.setVi reg v) := by
  have hsync : (d.setVi reg v).vi.regs .vSync = d.vi.regs .vSync :=
    Function.update_of_ne hreg.symm _ _
  refine ⟨⟨h.setUp.clock, h.setUp.refreshRate⟩, h.single, h.fixed, ?_⟩
  rw [hsync]
  exact h.timed

/-- The first interrupt is queued only with VI_V_SYNC set. -/
theorem LinesTimed.setViVerticalInterrupt (h : LinesTimed tv d) :
    LinesTimed tv d.setViVerticalInterrupt := by
  rcases d.setViVerticalInterrupt_cases with heq | ⟨hnone, hlines, heq⟩
  · rw [heq]
    exact h
  · have hfirst := Device.viPending_queuedFirst hnone
    have hset : d.vi.regs .vSync ≠ 0 := by
      rintro hzero
      rw [hzero] at hlines
      exact absurd hlines BitVec.not_lt_zero
    rw [heq]
    refine ⟨⟨h.setUp.clock, h.setUp.refreshRate⟩, ?_, h.fixed, fun hover _ =>
      h.timed hover (Or.inl hset)⟩
    rw [hfirst.2]
    exact Bool.toNat_le _

/-- VI_V_SYNC with its lengths. -/
theorem linesTimed_viTiming (hsetUp : d.vi.SetUp tv) (hsingle : d.queued .vi ≤ 1) :
    LinesTimed tv d.viTiming where
  setUp := ⟨hsetUp.clock, hsetUp.refreshRate⟩
  single := hsingle
  fixed := fun hover => if_neg hover
  timed := fun hover _ => ⟨if_pos hover, rfl⟩

theorem linesTimed_readVi (h : LinesTimed tv d) (address : BitVec 32) :
    LinesTimed tv (d.readViRegs address).2 := by
  by_cases hcurrent : regAt ViReg.block address = some .current
  · rw [Device.readViRegs_current hcurrent]
    exact (h.kept d.viKept_viCounted).setVi _ (by decide)
  · rw [Device.readViRegs_other hcurrent]
    exact h

theorem linesTimed_writeVi (h : LinesTimed tv d) (address value mask : BitVec 32) :
    LinesTimed tv (d.writeViRegs address value mask) := by
  rcases d.writeViRegs_cases address value mask with hkept | ⟨-, -, heq⟩ | ⟨-, heq⟩ |
    ⟨reg, v, hsync, -, heq⟩
  · exact h.kept hkept
  · have hset : (d.setVi .vSync (maskedWrite (d.vi.regs .vSync) value mask)).vi.SetUp tv :=
      ⟨h.setUp.clock, h.setUp.refreshRate⟩
    rw [heq]
    exact (linesTimed_viTiming hset h.single).setViVerticalInterrupt
  · rw [heq]
    exact (h.setVi _ (by decide)).setViVerticalInterrupt
  · rw [heq]
    exact h.setVi v hsync

theorem linesTimed_viEvent (h : LinesTimed tv d) (o : Outside) (hnext : d.isNext .vi) :
    LinesTimed tv (Device.viVerticalInterruptEvent o d) := by
  obtain ⟨hvi, hpending, hqueued⟩ := Device.viPending_event o hnext h.single
  have hbefore : d.viPending ≠ none := by
    rw [ne_eq, Device.viPending_eq_none_iff]
    exact (Device.queued_pos_of_isNext hnext).ne'
  refine ⟨?_, hqueued.le, ?_, ?_⟩
  · rw [hvi]
    exact ⟨h.setUp.clock, h.setUp.refreshRate⟩
  · rw [hvi]
    exact h.fixed
  · rw [hvi]
    intro hover _
    obtain ⟨hlength, hdelay⟩ := h.timed hover (Or.inr hbefore)
    have hsame : d.viNextDelay = d.vi.delay := if_pos hover
    exact ⟨hlength, hsame.trans hdelay⟩

/-- **A step keeps the lengths of lines and frames.** -/
theorem linesTimed_step (h : LinesTimed tv d) (a : TimingStep) :
    LinesTimed tv (d.timingStep a) := by
  cases a with
  | readVi address => exact linesTimed_readVi h address
  | writeVi address value mask => exact linesTimed_writeVi h address value mask
  | viEvent o =>
    simp only [Device.timingStep]
    split
    · next hnext => exact linesTimed_viEvent h o hnext
    · exact h
  | readAi address => exact h.kept (d.viKept_readAiRegs address)
  | writeAi address value mask => exact h.kept (d.viKept_writeAiRegs address value mask)
  | aiEvent =>
    simp only [Device.timingStep]
    split
    · next hnext => exact h.kept (Device.viKept_aiEvent hnext)
    · exact h
  | other f keeps => exact h.kept (keeps d)

-- ════════════════════
-- The divisors of a step
-- ════════════════════

/-- A line has a cycle if the frame has one for every line. -/
theorem lineLength_ne_zero_iff (h : d.vi.SetUp tv) (v : BitVec 32) :
    d.vi.clock / d.vi.expectedRefreshRate / (v + 1) ≠ 0 ↔
      v.toNat + 1 ≤ d.vi.clock.toNat / d.vi.expectedRefreshRate.toNat := by
  obtain ⟨hclock, -⟩ := Device.setUp_bounds h
  have hframe : d.vi.clock.toNat / d.vi.expectedRefreshRate.toNat ≤ d.vi.clock.toNat :=
    Nat.div_le_self _ _
  rw [ne_eq, ← BitVec.toNat_inj, BitVec.toNat_udiv, BitVec.toNat_udiv]
  change ¬_ = 0 ↔ _
  by_cases hlast : v.toNat + 1 < 2 ^ 32
  · rw [Device.toNat_lines hlast, Nat.div_eq_zero_iff]
    omega
  · have hv := v.isLt
    have hzero : (v + 1).toNat = 0 := by
      rw [BitVec.toNat_add]
      change (v.toNat + 1) % 2 ^ 32 = 0
      omega
    rw [hzero, Nat.div_zero]
    omega

/-- A frame of lines that fit has a cycle. -/
theorem frame_ne_zero_iff (h : d.vi.SetUp tv) (v : BitVec 32) :
    (v + 1) * (d.vi.clock / d.vi.expectedRefreshRate / (v + 1)) ≠ 0 ↔
      v.toNat + 1 ≤ d.vi.clock.toNat / d.vi.expectedRefreshRate.toNat := by
  obtain ⟨hclock, -⟩ := Device.setUp_bounds h
  have hframe : d.vi.clock.toNat / d.vi.expectedRefreshRate.toNat ≤ d.vi.clock.toNat :=
    Nat.div_le_self _ _
  rw [← lineLength_ne_zero_iff h]
  constructor
  · intro hne hzero
    rw [hzero] at hne
    exact hne (mul_zero _)
  · intro hline hzero
    have hfits := (lineLength_ne_zero_iff h v).mp hline
    have hlines : (v + 1).toNat = v.toNat + 1 := Device.toNat_lines (by omega)
    have hmul := Nat.mul_div_le (d.vi.clock.toNat / d.vi.expectedRefreshRate.toNat) (v.toNat + 1)
    have hpos : 0 < (d.vi.clock / d.vi.expectedRefreshRate / (v + 1)).toNat := by
      rw [Nat.pos_iff_ne_zero]
      exact fun hz => hline (BitVec.eq_of_toNat_eq hz)
    have hlength : (d.vi.clock / d.vi.expectedRefreshRate / (v + 1)).toNat =
        d.vi.clock.toNat / d.vi.expectedRefreshRate.toNat / (v.toNat + 1) := by
      rw [BitVec.toNat_udiv, BitVec.toNat_udiv, hlines]
    have hprod := congrArg BitVec.toNat hzero
    rw [BitVec.toNat_mul, hlines, hlength, Nat.mod_eq_of_lt (by omega)] at hprod
    rw [hlength] at hpos
    exact absurd hprod (Nat.mul_pos (Nat.succ_pos _) hpos).ne'

theorem add_one_ne_zero_iff (v : BitVec 32) : v + 1 ≠ 0 ↔ v ≠ 0xffffffff := by
  have hv := v.isLt
  rw [ne_eq, ne_eq, ← BitVec.toNat_inj, ← BitVec.toNat_inj, BitVec.toNat_add]
  change ¬(v.toNat + 1) % 2 ^ 32 = 0 ↔ ¬v.toNat = 2 ^ 32 - 1
  omega

/-- The divisors of `get_dma_duration`, a quotient of the first in the second. -/
theorem durationDivisors_iff (h : d.vi.SetUp tv) :
    (∀ x ∈ d.durationDivisors, x ≠ 0) ↔ (d.ai.regs .dacrate).toNat < d.vi.clock.toNat := by
  obtain ⟨hclock, -⟩ := Device.setUp_bounds h
  have hrate := (d.ai.regs .dacrate).isLt
  have hfour (q : BitVec 32) (hq : q.toNat < 2 ^ 26) : 4 * q ≠ 0 ↔ q.toNat ≠ 0 := by
    rw [ne_eq, ← BitVec.toNat_inj, BitVec.toNat_mul]
    change ¬4 * q.toNat % 2 ^ 32 = 0 ↔ _
    omega
  have hquotient : (d.vi.clock / (1 + d.ai.regs .dacrate)).toNat < 2 ^ 26 := by
    rw [BitVec.toNat_udiv]
    exact (Nat.div_le_self _ _).trans_lt hclock
  simp only [Device.durationDivisors, List.forall_mem_cons, List.not_mem_nil, false_implies,
    implies_true, and_true]
  rw [hfour _ hquotient, BitVec.toNat_udiv, add_comm, add_one_ne_zero_iff]
  by_cases hlast : (d.ai.regs .dacrate).toNat + 1 < 2 ^ 32
  · have hne : d.ai.regs .dacrate ≠ 0xffffffff := by
      rintro heq
      rw [heq] at hlast
      exact absurd hlast (by decide)
    rw [Device.toNat_lines hlast, Nat.div_ne_zero_iff]
    simp only [hne, ne_eq, not_false_eq_true, true_and]
    omega
  · have heq : d.ai.regs .dacrate = 0xffffffff := by
      apply BitVec.eq_of_toNat_eq
      change _ = 2 ^ 32 - 1
      omega
    simp only [heq, ne_eq, not_true_eq_false, false_and, false_iff]
    change ¬2 ^ 32 - 1 < _
    omega

theorem formatDivisors_iff : (∀ x ∈ d.formatDivisors, x ≠ 0) ↔
    (d.ai.samplesFormatChanged ≠ 0 → d.ai.regs .dacrate ≠ 0xffffffff) := by
  unfold Device.formatDivisors
  split
  · next h =>
    rw [List.forall_mem_singleton, add_comm, add_one_ne_zero_iff]
    exact ⟨fun hne _ => hne, fun hne => hne h.1⟩
  · next h =>
    refine iff_of_true (fun x hx => absurd hx List.not_mem_nil) fun hchanged heq => ?_
    exact h ⟨hchanged, by rw [heq]; decide⟩

/-- The next frame lasts a cycle at least. -/
theorem viNextDelay_ne_zero_iff (h : LinesTimed tv d) (hpending : d.viPending ≠ none) :
    d.viNextDelay ≠ 0 ↔ d.FrameLasts := by
  unfold Device.viNextDelay Device.FrameLasts
  split
  · next hover =>
    obtain ⟨hlength, hdelay⟩ := h.timed hover (Or.inr hpending)
    rw [hdelay, hlength]
    exact frame_ne_zero_iff h.setUp _
  · next hover =>
    rw [h.fixed hover]
    split
    · next hzero => exact iff_of_true (by decide) (Or.inl hzero)
    · next hset => exact ⟨Or.inr, fun hfits => hfits.resolve_left hset⟩

theorem readVi_iff (h : LinesTimed tv d) (address : BitVec 32) :
    (∀ x ∈ d.divisors (.readVi address), x ≠ 0) ↔ DivisorsFit d (.readVi address) := by
  simp only [Device.divisors, DivisorsFit]
  split
  · next hread =>
    obtain ⟨hcurrent, hpending⟩ := hread
    have hpending' : d.viPending ≠ none := by
      rintro hnone
      rw [hnone] at hpending
      exact absurd hpending (by decide)
    rw [List.forall_mem_singleton]
    simp only [hcurrent, hpending, forall_true_left]
    by_cases hover : d.vi.countPerScanlineOverride = 0
    · rw [(h.timed hover (Or.inr hpending')).1, lineLength_ne_zero_iff h.setUp]
      exact ⟨fun hfits _ => hfits, fun hfits => hfits hover⟩
    · rw [h.fixed hover]
      exact iff_of_true hover fun hzero => absurd hzero hover
  · next hread =>
    refine iff_of_true (fun x hx => absurd hx List.not_mem_nil) fun hcurrent hpending => ?_
    exact absurd ⟨hcurrent, hpending⟩ hread

theorem writeVi_iff (h : LinesTimed tv d) (address value mask : BitVec 32) :
    (∀ x ∈ d.divisors (.writeVi address value mask), x ≠ 0) ↔
      DivisorsFit d (.writeVi address value mask) := by
  obtain ⟨-, hrate⟩ := Device.setUp_bounds h.setUp
  have hrate' : d.vi.expectedRefreshRate ≠ 0 := by
    rintro heq
    rw [heq] at hrate
    exact absurd hrate (by decide)
  simp only [Device.divisors, DivisorsFit]
  split
  · next hwrite =>
    obtain ⟨hsync, hchange, hover⟩ := hwrite
    rw [List.forall_mem_cons, List.forall_mem_singleton, add_one_ne_zero_iff]
    exact ⟨fun hfits _ _ _ => hfits.2, fun hfits => ⟨hrate', hfits hsync hchange hover⟩⟩
  · next hwrite =>
    refine iff_of_true (fun x hx => absurd hx List.not_mem_nil) fun hsync hchange hover => ?_
    exact absurd ⟨hsync, hchange, hover⟩ hwrite

theorem writeAi_iff (h : LinesTimed tv d) (address value mask : BitVec 32) :
    (∀ x ∈ d.divisors (.writeAi address value mask), x ≠ 0) ↔
      DivisorsFit d (.writeAi address value mask) := by
  simp only [Device.divisors, DivisorsFit]
  split
  · next hwrite =>
    rw [List.forall_mem_append, durationDivisors_iff h.setUp]
    refine ⟨fun hfits _ _ => hfits.1, fun hfits => ⟨hfits hwrite.1 hwrite.2, ?_⟩⟩
    -- a rate below the clock is no divisor of 0 for the sample format either
    have hrate := hfits hwrite.1 hwrite.2
    split
    · exact fun x hx => absurd hx List.not_mem_nil
    · rw [formatDivisors_iff]
      rintro - heq
      obtain ⟨hclock, -⟩ := Device.setUp_bounds h.setUp
      rw [heq] at hrate
      change 2 ^ 32 - 1 < _ at hrate
      omega
  · next hwrite =>
    refine iff_of_true (fun x hx => absurd hx List.not_mem_nil) fun hlen hnew => ?_
    exact absurd ⟨hlen, hnew⟩ hwrite

/-- **A step is safe exactly if it meets its condition.** -/
theorem safeStep_iff (h : LinesTimed tv d) (a : TimingStep) : SafeStep d a ↔ DivisorsFit d a := by
  -- all steps but the vertical interrupt only divide
  have hdivides (hrepeats : d.viRepeats a = false) :
      SafeStep d a ↔ ∀ x ∈ d.divisors a, x ≠ 0 :=
    ⟨SafeStep.divisors, fun hsafe => ⟨hsafe, fun hr => absurd (hr.symm.trans hrepeats) (by decide)⟩⟩
  cases a with
  | readVi address => exact (hdivides rfl).trans (readVi_iff h address)
  | writeVi address value mask => exact (hdivides rfl).trans (writeVi_iff h address value mask)
  | viEvent o =>
    have hnone : ∀ x ∈ d.divisors (.viEvent o), x ≠ 0 := fun x hx => absurd hx List.not_mem_nil
    by_cases hnext : d.isNext .vi
    · have hpending : d.viPending ≠ none := by
        rw [ne_eq, Device.viPending_eq_none_iff]
        exact (Device.queued_pos_of_isNext hnext).ne'
      have hdelay : (d.timingStep (.viEvent o)).vi.delay = d.viNextDelay := by
        simp only [Device.timingStep, if_pos hnext]
        exact congrArg ViController.delay (Device.viPending_event o hnext h.single).1
      have hlasts := viNextDelay_ne_zero_iff h hpending
      rw [← hdelay] at hlasts
      exact ⟨fun hsafe _ => hlasts.mp (hsafe.delay hnext),
        fun hfits => ⟨hnone, fun _ => hlasts.mpr (hfits hnext)⟩⟩
    · exact ⟨fun _ hn => absurd hn hnext, fun _ => ⟨hnone, fun hn => absurd hn hnext⟩⟩
  | readAi address =>
    refine (hdivides rfl).trans (iff_of_true ?_ trivial)
    simp only [Device.divisors]
    split
    · next hread =>
      rw [List.forall_mem_singleton]
      exact hread.2
    · exact fun x hx => absurd hx List.not_mem_nil
  | writeAi address value mask => exact (hdivides rfl).trans (writeAi_iff h address value mask)
  | aiEvent =>
    refine (hdivides rfl).trans ?_
    simp only [Device.divisors, DivisorsFit]
    split
    · next hevent =>
      rw [formatDivisors_iff]
      exact ⟨fun hfits _ _ => hfits, fun hfits => hfits hevent.1 hevent.2⟩
    · next hevent =>
      refine iff_of_true (fun x hx => absurd hx List.not_mem_nil) fun hnext hfull => ?_
      exact absurd ⟨hnext, hfull⟩ hevent
  | other f keeps =>
    exact (hdivides rfl).trans (iff_of_true (fun x hx => absurd hx List.not_mem_nil) trivial)

end

-- ════════════════════
-- Runs from power on
-- ════════════════════

theorem linesTimed_powerOn (o : Outside) (d : Device) (tv : TvStandard) :
    LinesTimed tv (Device.powerOnDevice o (d.initVi tv)) := by
  obtain ⟨hvi, hpending⟩ := Device.powerOnDevice_vi o (d.initVi tv)
  have hqueued := (Device.viPending_eq_none_iff _).mp hpending
  refine ⟨?_, hqueued.trans_le (Nat.zero_le 1), ?_, ?_⟩
  · rw [hvi]
    exact ⟨rfl, rfl⟩
  · rw [hvi]
    exact fun _ => rfl
  · rw [hvi, hpending]
    rintro - (hset | hqueued)
    · exact absurd rfl hset
    · exact absurd rfl hqueued

/-- **Divisions are safe** along a run from power on exactly if every step meets its condition. -/
theorem safeRun_iff (o : Outside) (d : Device) (tv : TvStandard) (steps : List TimingStep) :
    Runs.Along Device.timingStep SafeStep (Device.powerOnDevice o (d.initVi tv)) steps ↔
      Runs.Along Device.timingStep DivisorsFit (Device.powerOnDevice o (d.initVi tv)) steps := by
  have hstart := linesTimed_powerOn o d tv
  constructor
  · exact Runs.along_of_along (fun d a h _ => linesTimed_step h a)
      (fun d a h hsafe => (safeStep_iff h a).mp hsafe) hstart
  · exact Runs.along_of_along (fun d a h _ => linesTimed_step h a)
      (fun d a h hfits => (safeStep_iff h a).mpr hfits) hstart

/-- VI_V_SYNC of all ones: the number of lines is 0. -/
theorem allLines_unsafe : ¬∀ (o : Outside) (d : Device) (tv : TvStandard)
    (steps : List TimingStep),
    Runs.Along Device.timingStep SafeStep (Device.powerOnDevice o (d.initVi tv)) steps := by
  intro h
  obtain ⟨⟨hdivisors, -⟩, -⟩ := h quietOutside
    (staticDevice (initR4300 .pureInterpreter 2 0 0xa4000040)) .ntsc
    [.writeVi 0x04400018 0xffffffff 0xffffffff]
  refine hdivisors 0 ?_ rfl
  decide

end Mupen64plus
