import Mupen64plus.Lib.Completion
import Mupen64plus.Device.Queued

/-!
# Buffers of the audio interface

Reads and writes of the registers and completion events, in any order and with any steps of other
devices between them. Reads of AI_LEN push what has been played so far, and the event pushes the
rest. A buffer that starts while the delayed carry is set plays from `0x2000` bytes behind the
address it was accepted with. A step that divides by 0 ends the run.

## Main definitions

- `AiStep`, `Device.aiStep` — the steps
- `aiBytes`, `Device.aiUnplayed`, `Device.aiWaiting` — the samples of a buffer, of what is left of
  the first one, and of the second one
- `Device.aiDivisors` — what a step divides by
- `AiRun` — the interface with the buffers that were accepted
- `AiStep.Orderly` — no buffer is accepted while two are held, or while the pool of events is full
- `AiStep.Divides` — no divisor of the step is 0

## Main results

- `aiPush_conserves` — a partial push moves the cursor over exactly the samples it pushed
- `ai_consistent_iff` — no step divides by 0, BUSY, FULL and the queue agree along a run, and what
  was pushed is what was accepted less what is still to be played, exactly when every step is
  orderly and has its divisors
-/

namespace Mupen64plus

/-- `n` samples as `push_samples` reads them from RDRAM, in the order of the host. -/
def aiBytes (m : Words) (start n : ℕ) : List (BitVec 8) :=
  (List.range n).map fun j => m.byte ((start + j) ^^^ 3)

theorem aiBytes_add (m : Words) (start a b : ℕ) :
    aiBytes m start (a + b) = aiBytes m start a ++ aiBytes m (start + a) b := by
  unfold aiBytes
  rw [List.range_add, List.map_append, List.map_map]
  congr 1
  apply List.map_congr_left
  intro j _
  simp only [Function.comp_apply]
  rw [Nat.add_assoc]

namespace Device

def aiBusy (d : Device) : Bool := d.ai.regs .status &&& aiStatusBusy != 0

def aiFull (d : Device) : Bool := d.ai.regs .status &&& aiStatusFull != 0

/-- The samples of a buffer; the source starts at the word its address is in. -/
def aiBuffer (d : Device) (address length : BitVec 32) : List (BitVec 8) :=
  aiBytes d.rdram.dram (address.toNat / 4 * 4) length.toNat

/-- An address as the delayed carry leaves it. -/
def aiCarried (d : Device) (address : BitVec 32) : BitVec 32 :=
  if d.ai.delayedCarry ≠ 0 then address + 0x2000 else address

/-- What is left to be played of the first buffer. -/
def aiUnplayed (d : Device) : List (BitVec 8) :=
  if d.aiBusy then d.aiSamples ((d.ai.fifo 0).length - d.ai.lastRead) d.ai.lastRead else []

/-- The second buffer, as it will be played. -/
def aiWaiting (d : Device) : List (BitVec 8) :=
  if d.aiFull then d.aiBuffer (d.aiCarried (d.ai.fifo 1).address) (d.ai.fifo 1).length else []

end Device

/-- The interface, its event and the samples still to be played are as they were. -/
def KeepsAi (f : Device → Device) : Prop :=
  ∀ d, (f d).ai = d.ai ∧ (f d).queued .ai = d.queued .ai ∧ (f d).aiUnplayed = d.aiUnplayed ∧
    (f d).aiWaiting = d.aiWaiting

/-- What happens to the audio interface; `other` is a step of anything else. -/
inductive AiStep where
  | readRegs (address : BitVec 32)
  | writeRegs (address value mask : BitVec 32)
  | event
  | other (f : Device → Device) (keeps : KeepsAi f)

namespace Device

/-- One step. The event of another device at the head of the queue is left to `other`. -/
def aiStep (d : Device) : AiStep → Device
  | .readRegs address => (d.readAiRegs address).2
  | .writeRegs address value mask => d.writeAiRegs address value mask
  | .event => if d.isNext .ai then interruptHandler quietOutside d .ai else d
  | .other f _ => f d

/-- AI_LEN as a write leaves it. -/
def aiLenAfter (d : Device) (value mask : BitVec 32) : BitVec 32 :=
  maskedWrite (d.ai.regs .len) value mask

/-- The length of the buffer that a step hands to `fifo_push`. -/
def aiAccepts (d : Device) : AiStep → Option (BitVec 32)
  | .writeRegs address value mask =>
    if regAt AiReg.block address = some .len ∧ d.aiLenAfter value mask ≠ 0 then
      some (d.aiLenAfter value mask &&& ~~~7)
    else none
  | _ => none

def aiCompletes (d : Device) : AiStep → Bool
  | .event => d.isNext .ai
  | _ => false

def aiPort (d : Device) : Completion.Port := ⟨d.aiBusy, d.aiFull, d.queued .ai⟩

/-- The divisors of `get_dma_duration`. -/
def durationDivisors (d : Device) : List (BitVec 32) :=
  [1 + d.ai.regs .dacrate, 4 * (d.vi.clock / (1 + d.ai.regs .dacrate))]

/-- The divisor of `do_dma`. -/
def formatDivisors (d : Device) : List (BitVec 32) :=
  if d.ai.samplesFormatChanged ≠ 0 ∧ d.ai.regs .dacrate ≠ 0 then [1 + d.ai.regs .dacrate] else []

/-- What a step divides by, in order: `fifo_push` computes the duration and starts a buffer that
    finds the interface idle, `fifo_pop` starts the second one. -/
def aiDivisors (d : Device) (a : AiStep) : List (BitVec 32) :=
  if (d.aiAccepts a).isSome then d.durationDivisors ++ if d.aiBusy then [] else d.formatDivisors
  else if d.aiCompletes a ∧ d.aiFull then d.formatDivisors
  else []

end Device

/-- The interface with the samples of every buffer that was accepted, in order, and the number of
    completions. -/
structure AiRun where
  device : Device
  accepted : List (List (BitVec 8))
  completed : ℕ

/-- No divisor of the step is 0. -/
def AiStep.Divides (d : Device) (a : AiStep) : Prop := ∀ x ∈ d.aiDivisors a, x ≠ 0

instance decidableAiDivides (d : Device) (a : AiStep) : Decidable (AiStep.Divides d a) :=
  inferInstanceAs (Decidable (∀ x ∈ d.aiDivisors a, x ≠ 0))

/-- One step that has its divisors; `start` tells where a buffer that is accepted now begins. -/
def AiRun.next (start : Device → BitVec 32) (s : AiRun) (a : AiStep) : AiRun where
  device := s.device.aiStep a
  accepted := s.accepted ++
    ((s.device.aiAccepts a).map (s.device.aiBuffer (start s.device))).toList
  completed := s.completed + (s.device.aiCompletes a).toNat

/-- One step of a run; behind a division by 0 there is no state. -/
def AiRun.step (start : Device → BitVec 32) : Option AiRun → AiStep → Option AiRun :=
  Runs.guarded (AiRun.next start) fun s a => AiStep.Divides s.device a

/-- Where the interface plays a buffer from. -/
def playedFrom (d : Device) : BitVec 32 := d.aiCarried (d.ai.regs .dramAddr)

/-- BUSY is set exactly while one event is queued, FULL implies BUSY, every accepted buffer was
    completed, is played or waits, and the samples pushed so far, with those still to be played, are
    the samples of the accepted buffers in order. -/
structure AiConsistent (s : AiRun) : Prop where
  busy : s.device.aiBusy = true ↔ s.device.queued .ai = 1
  single : s.device.queued .ai ≤ 1
  full : s.device.aiFull = true → s.device.aiBusy = true
  once : s.accepted.length = s.completed + s.device.queued .ai + s.device.aiFull.toNat
  samples : s.device.ai.pushed ++ s.device.aiUnplayed ++ s.device.aiWaiting = s.accepted.flatten
  cursor : s.device.ai.lastRead ≤ (s.device.ai.fifo 0).length
  idle : s.device.aiBusy = false → s.device.ai.lastRead = 0

/-- A buffer is accepted only where there is a place for it: behind a first one without a second
    one, or with a node for its event. -/
def AiStep.Orderly (d : Device) (a : AiStep) : Prop :=
  (d.aiAccepts a).isSome = true →
    if d.aiBusy = true then d.aiFull = false else d.hasRoom = true

instance decidableAiOrderly (d : Device) (a : AiStep) : Decidable (AiStep.Orderly d a) := by
  unfold AiStep.Orderly
  infer_instance

/-- There is a state, and it is consistent. -/
def AiSound (s : Option AiRun) : Prop := ∃ r ∈ s, AiConsistent r

-- ════════════════════════════════════════════════════════════════════════
-- The cursor
-- ════════════════════════════════════════════════════════════════════════

namespace Device

theorem aiSamples_eq (d : Device) (diff n : BitVec 32) :
    d.aiSamples diff n =
      aiBytes d.rdram.dram ((d.ai.fifo 0).address.toNat / 4 * 4 + diff.toNat) n.toNat := rfl

/-- **Cursor**: a push of the samples between two cursors and the samples behind the second one are
    the samples behind the first one. -/
theorem aiPush_conserves {d : Device} {v : BitVec 32} (hv : v ≤ d.ai.lastRead)
    (hcursor : d.ai.lastRead ≤ (d.ai.fifo 0).length) :
    d.aiSamples ((d.ai.fifo 0).length - d.ai.lastRead) (d.ai.lastRead - v) ++
        d.aiSamples ((d.ai.fifo 0).length - v) v =
      d.aiSamples ((d.ai.fifo 0).length - d.ai.lastRead) d.ai.lastRead := by
  have hv' : v.toNat ≤ d.ai.lastRead.toNat := hv
  have hcursor' : d.ai.lastRead.toNat ≤ (d.ai.fifo 0).length.toNat := hcursor
  have hle : v ≤ (d.ai.fifo 0).length := BitVec.le_trans hv hcursor
  simp only [aiSamples_eq, BitVec.toNat_sub_of_le hv, BitVec.toNat_sub_of_le hcursor,
    BitVec.toNat_sub_of_le hle]
  have hsplit := aiBytes_add d.rdram.dram
    ((d.ai.fifo 0).address.toNat / 4 * 4 + ((d.ai.fifo 0).length.toNat - d.ai.lastRead.toNat))
    (d.ai.lastRead.toNat - v.toNat) v.toNat
  rw [Nat.sub_add_cancel hv'] at hsplit
  rw [hsplit]
  congr 2
  omega

/-- A push moves what it pushes out of what is left to be played. -/
theorem aiPush_samples {d : Device} {v : BitVec 32} (hbusy : d.aiBusy = true)
    (hv : v ≤ d.ai.lastRead) (hcursor : d.ai.lastRead ≤ (d.ai.fifo 0).length) :
    (d.aiPush ((d.ai.fifo 0).length - d.ai.lastRead) (d.ai.lastRead - v) v).ai.pushed ++
        (d.aiPush ((d.ai.fifo 0).length - d.ai.lastRead) (d.ai.lastRead - v) v).aiUnplayed =
      d.ai.pushed ++ d.aiUnplayed := by
  have hunplayed :
      (d.aiPush ((d.ai.fifo 0).length - d.ai.lastRead) (d.ai.lastRead - v) v).aiUnplayed =
      d.aiSamples ((d.ai.fifo 0).length - v) v := if_pos hbusy
  have hbefore : d.aiUnplayed =
      d.aiSamples ((d.ai.fifo 0).length - d.ai.lastRead) d.ai.lastRead := if_pos hbusy
  rw [hunplayed, hbefore, ← aiPush_conserves hv hcursor, ← List.append_assoc]
  rfl

/-- The part of the audio interface that a refresh of COUNT or an event leaves alone. -/
structure AiSame (d d' : Device) : Prop where
  ai : d'.ai = d.ai
  dram : d'.rdram.dram = d.rdram.dram

theorem aiRemainingLength_same (d : Device) :
    AiSame d d.aiRemainingLength.2 ∧ d.aiRemainingLength.2.cp0.q = d.cp0.q := by
  unfold aiRemainingLength
  simp only
  split
  · exact ⟨⟨rfl, rfl⟩, rfl⟩
  · split
    · exact ⟨⟨rfl, rfl⟩, rfl⟩
    · split <;> exact ⟨⟨rfl, rfl⟩, rfl⟩

/-- The start of a buffer, from the first place of the fifo. -/
structure AiStarted (d d' : Device) : Prop where
  status : d'.ai.regs .status = d.ai.regs .status
  pushed : d'.ai.pushed = d.ai.pushed
  dram : d'.rdram.dram = d.rdram.dram
  address : (d'.ai.fifo 0).address = d.aiCarried (d.ai.fifo 0).address
  length : (d'.ai.fifo 0).length = (d.ai.fifo 0).length
  lastRead : d'.ai.lastRead = (d.ai.fifo 0).length
  queued : d'.queued .ai = d.queued .ai + d.hasRoom.toNat

theorem aiFormat_eq (d : Device) : ∃ frequency changed, d.aiFormat =
    { d with ai := { d.ai with frequency := frequency, samplesFormatChanged := changed } } := by
  unfold aiFormat
  split
  · exact ⟨_, _, rfl⟩
  · exact ⟨d.ai.frequency, d.ai.samplesFormatChanged, rfl⟩

theorem aiDoDma_started (d : Device) : AiStarted d d.aiDoDma := by
  obtain ⟨frequency, changed, hformat⟩ := d.aiFormat_eq
  unfold aiDoDma
  rw [hformat]
  refine ⟨rfl, rfl, rfl, rfl, rfl, rfl, ?_⟩
  exact queued_addEvent_self _ _ _

theorem aiFlags_of_or {d d' : Device} {v : BitVec 32}
    (hstatus : d'.ai.regs .status = d.ai.regs .status ||| v) :
    d'.aiBusy = (d.aiBusy || v &&& aiStatusBusy != 0) ∧
      d'.aiFull = (d.aiFull || v &&& aiStatusFull != 0) := by
  have hor : ∀ m : BitVec 32, (d.ai.regs .status ||| v) &&& m != 0 ↔
      (d.ai.regs .status &&& m != 0 || v &&& m != 0) := by
    intro m
    rw [Bool.or_eq_true, bne_iff_ne, bne_iff_ne, bne_iff_ne]
    exact Flags.or_and_ne_zero
  unfold aiBusy aiFull
  rw [hstatus]
  exact ⟨Bool.eq_iff_iff.mpr (hor _), Bool.eq_iff_iff.mpr (hor _)⟩

/-- A buffer accepted by an idle interface starts at once. -/
theorem aiFifoPush_idle {d : Device} (hidle : d.aiBusy = false) :
    d.aiFifoPush.aiBusy = true ∧ d.aiFifoPush.aiFull = d.aiFull ∧
      d.aiFifoPush.ai.pushed = d.ai.pushed ∧
      d.aiFifoPush.aiUnplayed =
        d.aiBuffer (d.aiCarried (d.ai.regs .dramAddr)) (d.ai.regs .len &&& ~~~7) ∧
      d.aiFifoPush.ai.lastRead = (d.aiFifoPush.ai.fifo 0).length ∧
      d.aiFifoPush.queued .ai = d.queued .ai + d.hasRoom.toNat := by
  let dma : AiDma :=
    { address := d.ai.regs .dramAddr
      length := d.ai.regs .len &&& ~~~7
      duration := d.ai.dmaModifier d.aiDmaDuration }
  let filled := (d.setAiFifo 0 dma).setAi .status (d.ai.regs .status ||| aiStatusBusy)
  have hpush : d.aiFifoPush = filled.aiDoDma := by
    unfold aiFifoPush
    have hstatus : ¬(d.ai.regs .status &&& aiStatusBusy ≠ 0) := by
      unfold aiBusy at hidle
      rwa [← bne_iff_ne, Bool.not_eq_true]
    simp only
    rw [if_neg hstatus]
  have h := filled.aiDoDma_started
  have hstatus : filled.aiDoDma.ai.regs .status = d.ai.regs .status ||| aiStatusBusy := h.status
  obtain ⟨hbusy, hfull⟩ := aiFlags_of_or hstatus
  have hbusy : filled.aiDoDma.aiBusy = true := by rw [hbusy]; simp [aiStatusBusy]
  have hlength : (filled.aiDoDma.ai.fifo 0).length = dma.length := h.length
  have hread : filled.aiDoDma.ai.lastRead = dma.length := h.lastRead
  have haddress : (filled.aiDoDma.ai.fifo 0).address = d.aiCarried (d.ai.regs .dramAddr) :=
    h.address
  have hdram : filled.aiDoDma.rdram.dram = d.rdram.dram := h.dram
  rw [hpush]
  refine ⟨hbusy, ?_, h.pushed, ?_, hread.trans hlength.symm, h.queued⟩
  · rw [hfull]
    simp [aiStatusBusy, aiStatusFull]
  · rw [aiUnplayed, if_pos hbusy, aiSamples_eq, hread, hlength, haddress, hdram, BitVec.sub_self]
    rfl

/-- A buffer accepted by a busy interface waits in the second place. -/
theorem aiFifoPush_busy {d : Device} (hbusy : d.aiBusy = true) :
    d.aiFifoPush.aiBusy = true ∧ d.aiFifoPush.aiFull = true ∧
      d.aiFifoPush.ai.pushed = d.ai.pushed ∧ d.aiFifoPush.aiUnplayed = d.aiUnplayed ∧
      d.aiFifoPush.aiWaiting =
        d.aiBuffer (d.aiCarried (d.ai.regs .dramAddr)) (d.ai.regs .len &&& ~~~7) ∧
      d.aiFifoPush.ai.lastRead = d.ai.lastRead ∧
      (d.aiFifoPush.ai.fifo 0) = d.ai.fifo 0 ∧
      d.aiFifoPush.queued .ai = d.queued .ai := by
  let dma : AiDma :=
    { address := d.ai.regs .dramAddr
      length := d.ai.regs .len &&& ~~~7
      duration := d.ai.dmaModifier d.aiDmaDuration }
  have hpush : d.aiFifoPush =
      (d.setAiFifo 1 dma).setAi .status (d.ai.regs .status ||| aiStatusFull) := by
    unfold aiFifoPush
    have hstatus : d.ai.regs .status &&& aiStatusBusy ≠ 0 := by
      unfold aiBusy at hbusy
      rwa [← bne_iff_ne]
    simp only
    rw [if_pos hstatus]
  have hstatus : d.aiFifoPush.ai.regs .status = d.ai.regs .status ||| aiStatusFull := by
    rw [hpush]
    simp
  obtain ⟨hb, hf⟩ := aiFlags_of_or hstatus
  have hb : d.aiFifoPush.aiBusy = true := by rw [hb, hbusy]; rfl
  have hf : d.aiFifoPush.aiFull = true := by rw [hf]; simp [aiStatusFull]
  refine ⟨hb, hf, ?_, ?_, ?_, ?_, ?_, ?_⟩
  · rw [hpush]; rfl
  · rw [aiUnplayed, if_pos hb, aiUnplayed, if_pos hbusy, hpush]
    rfl
  · rw [aiWaiting, if_pos hf, hpush]
    rfl
  · rw [hpush]; rfl
  · rw [hpush]; rfl
  · rw [hpush]; rfl

/-- The first half of `ai_end_of_dma_event`: what is left of the first buffer is pushed. -/
def aiPushRest (d : Device) : Device :=
  if d.ai.lastRead ≠ 0 then
    d.aiPush ((d.ai.fifo 0).length - d.ai.lastRead) d.ai.lastRead 0
  else d

/-- Behind the rest the first buffer is played. -/
theorem aiPushRest_spec {d : Device} (hbusy : d.aiBusy = true) :
    ∃ pushed, d.aiPushRest = { d with ai := { d.ai with pushed := pushed, lastRead := 0 } } ∧
      pushed = d.ai.pushed ++ d.aiUnplayed := by
  have hunplayed : d.aiUnplayed =
      d.aiSamples ((d.ai.fifo 0).length - d.ai.lastRead) d.ai.lastRead := if_pos hbusy
  refine ⟨d.ai.pushed ++ d.aiUnplayed, ?_, rfl⟩
  unfold aiPushRest
  split
  · rw [hunplayed]
    rfl
  · next hzero =>
    have hzero : d.ai.lastRead = 0 := not_not.mp hzero
    have hnil : d.aiUnplayed = [] := by
      rw [hunplayed, hzero]
      rfl
    rw [hnil, List.append_nil]
    rw [← hzero]

/-- The end of the last buffer. -/
theorem aiFifoPop_last {d : Device} (hfull : d.aiFull = false) :
    d.aiFifoPop.aiBusy = false ∧ d.aiFifoPop.aiFull = false ∧
      d.aiFifoPop.ai.pushed = d.ai.pushed ∧ d.aiFifoPop.ai.lastRead = d.ai.lastRead ∧
      d.aiFifoPop.queued .ai = d.queued .ai := by
  have hstatus : d.ai.regs .status &&& aiStatusFull = 0 := by
    unfold aiFull at hfull
    simpa using hfull
  have hpop : d.aiFifoPop.ai.regs .status = d.ai.regs .status &&& ~~~aiStatusBusy := by
    unfold aiFifoPop
    simp [hstatus]
  unfold aiBusy aiFull
  rw [hpop]
  refine ⟨?_, ?_, ?_, ?_, ?_⟩
  · rw [Flags.andNot_and_of_covered (by decide)]
    rfl
  · rw [Flags.andNot_and_of_disjoint (by decide), hstatus]
    rfl
  · unfold aiFifoPop
    simp [hstatus]
  · unfold aiFifoPop
    simp [hstatus]
  · unfold aiFifoPop
    simp only [hstatus, ne_eq, not_true_eq_false, if_false]
    rfl

/-- The end of the first of two buffers: the second one starts. -/
theorem aiFifoPop_next {d : Device} (hfull : d.aiFull = true) :
    d.aiFifoPop.aiBusy = d.aiBusy ∧ d.aiFifoPop.aiFull = false ∧
      d.aiFifoPop.ai.pushed = d.ai.pushed ∧
      d.aiFifoPop.aiUnplayed = (if d.aiBusy then d.aiWaiting else []) ∧
      d.aiFifoPop.ai.lastRead = (d.aiFifoPop.ai.fifo 0).length ∧
      d.aiFifoPop.queued .ai = d.queued .ai + d.hasRoom.toNat := by
  let moved := (d.setAiFifo 0 (d.ai.fifo 1)).setAi .status (d.ai.regs .status &&& ~~~aiStatusFull)
  have hstatus : d.ai.regs .status &&& aiStatusFull ≠ 0 := by
    unfold aiFull at hfull
    rwa [← bne_iff_ne]
  have hpop : d.aiFifoPop = moved.aiDoDma := by
    unfold aiFifoPop
    rw [if_pos hstatus]
    rfl
  have h := moved.aiDoDma_started
  have hregs : moved.aiDoDma.ai.regs .status = d.ai.regs .status &&& ~~~aiStatusFull := h.status
  have hbusy : moved.aiDoDma.aiBusy = d.aiBusy := by
    unfold aiBusy
    rw [hregs, Flags.andNot_and_of_disjoint (by decide)]
  have hlength : (moved.aiDoDma.ai.fifo 0).length = (d.ai.fifo 1).length := h.length
  have hread : moved.aiDoDma.ai.lastRead = (d.ai.fifo 1).length := h.lastRead
  have haddress : (moved.aiDoDma.ai.fifo 0).address = d.aiCarried (d.ai.fifo 1).address := h.address
  have hdram : moved.aiDoDma.rdram.dram = d.rdram.dram := h.dram
  rw [hpop]
  refine ⟨hbusy, ?_, h.pushed, ?_, hread.trans hlength.symm, h.queued⟩
  · unfold aiFull
    rw [hregs, Flags.andNot_and_of_covered (by decide)]
    rfl
  · rw [aiUnplayed, hbusy]
    split
    · rw [aiSamples_eq, hread, hlength, haddress, hdram, BitVec.sub_self, aiWaiting, if_pos hfull]
      rfl
    · rfl

/-- Nothing was accepted and nothing completed, and all samples are where they were or pushed. -/
structure AiKept (d d' : Device) : Prop where
  busy : d'.aiBusy = d.aiBusy
  full : d'.aiFull = d.aiFull
  queued : d'.queued .ai = d.queued .ai
  samples : d'.ai.pushed ++ d'.aiUnplayed = d.ai.pushed ++ d.aiUnplayed
  waiting : d'.aiWaiting = d.aiWaiting
  cursor : d'.ai.lastRead ≤ (d'.ai.fifo 0).length
  idle : d'.aiBusy = false → d'.ai.lastRead = 0

/-- The cursor stays inside of the first buffer, and is 0 without one. -/
structure AiCursor (d : Device) : Prop where
  cursor : d.ai.lastRead ≤ (d.ai.fifo 0).length
  idle : d.aiBusy = false → d.ai.lastRead = 0

theorem AiKept.refl {d : Device} (h : AiCursor d) : AiKept d d :=
  ⟨rfl, rfl, rfl, rfl, rfl, h.cursor, h.idle⟩

/-- A step that leaves the fifo, the cursor, the status and RDRAM alone. -/
theorem AiKept.of_eq {d d' : Device} (h : AiCursor d)
    (hstatus : d'.ai.regs .status = d.ai.regs .status) (hfifo : d'.ai.fifo = d.ai.fifo)
    (hread : d'.ai.lastRead = d.ai.lastRead) (hcarry : d'.ai.delayedCarry = d.ai.delayedCarry)
    (hpushed : d'.ai.pushed = d.ai.pushed) (hdram : d'.rdram.dram = d.rdram.dram)
    (hqueued : d'.queued .ai = d.queued .ai) : AiKept d d' := by
  have hbusy : d'.aiBusy = d.aiBusy := by unfold aiBusy; rw [hstatus]
  have hfull : d'.aiFull = d.aiFull := by unfold aiFull; rw [hstatus]
  refine ⟨hbusy, hfull, hqueued, ?_, ?_, ?_, ?_⟩
  · unfold aiUnplayed aiSamples
    rw [hbusy, hpushed, hfifo, hread, hdram]
  · unfold aiWaiting aiBuffer aiCarried
    rw [hfull, hfifo, hcarry, hdram]
  · rw [hread, hfifo]
    exact h.cursor
  · rw [hbusy, hread]
    exact h.idle

theorem readAiRegs_kept {d : Device} (h : AiCursor d) (address : BitVec 32) :
    AiKept d (d.readAiRegs address).2 := by
  unfold readAiRegs
  split
  · exact .refl h
  · obtain ⟨⟨hai, hdram⟩, hq⟩ := d.aiRemainingLength_same
    have hqueued : d.aiRemainingLength.2.queued .ai = d.queued .ai := by
      rw [queued, hq]
    generalize hvalue : d.aiRemainingLength.1 = value
    generalize hafter : d.aiRemainingLength.2 = e at hai hdram hq hqueued
    have hsplit : d.aiRemainingLength = (value, e) := by rw [← hvalue, ← hafter]
    rw [hsplit]
    have hkept : AiKept d e := by
      refine .of_eq h ?_ ?_ ?_ ?_ ?_ hdram hqueued
      all_goals rw [hai]
    simp only
    split
    · next hlt =>
      have hbusy : e.aiBusy = true := by
        by_contra hidle
        have := hkept.idle (by simpa using hidle)
        rw [this] at hlt
        exact absurd hlt BitVec.not_lt_zero
      have hle : value ≤ e.ai.lastRead := BitVec.le_of_lt hlt
      have hpush := aiPush_samples hbusy hle hkept.cursor
      refine ⟨hkept.busy, hkept.full, hkept.queued, hpush.trans hkept.samples, hkept.waiting, ?_,
        ?_⟩
      · exact BitVec.le_trans hle hkept.cursor
      · intro hidle
        have : e.aiBusy = false := hidle
        rw [hbusy] at this
        cases this
    · exact hkept
  · exact .refl h

theorem writeAiRegs_kept {d : Device} (h : AiCursor d) {address value mask : BitVec 32}
    (haccepts : d.aiAccepts (.writeRegs address value mask) = none) :
    AiKept d (d.writeAiRegs address value mask) := by
  unfold writeAiRegs
  unfold aiAccepts at haccepts
  cases hreg : regAt AiReg.block address with
  | none => exact .refl h
  | some reg =>
    simp only [hreg, ite_eq_right_iff, reduceCtorEq, imp_false] at haccepts
    cases reg with
    | len =>
      have hzero : maskedWrite (d.ai.regs .len) value mask = 0 := by
        simpa [aiLenAfter] using haccepts
      simp only [setAi_ai_regs, Function.update_self, hzero, ne_eq, not_true_eq_false, if_false]
      exact .of_eq h rfl rfl rfl rfl rfl rfl rfl
    | status =>
      exact .of_eq h rfl rfl rfl rfl rfl rfl (queued_clearRcpInterrupt _ _ (by decide))
    | dacrate =>
      simp only
      split <;> exact .of_eq h rfl rfl rfl rfl rfl rfl rfl
    | dramAddr => exact .of_eq h rfl rfl rfl rfl rfl rfl rfl
    | control => exact .of_eq h rfl rfl rfl rfl rfl rfl rfl
    | bitrate => exact .of_eq h rfl rfl rfl rfl rfl rfl rfl

end Device

/-- The move that one step makes. -/
def aiMove (d : Device) (a : AiStep) : Completion.Move :=
  if (d.aiAccepts a).isSome then if d.aiBusy then .park else .accept d.hasRoom
  else if d.aiCompletes a then if d.aiFull then .advance d.popEvent.hasRoom else .complete
  else .keep

theorem aiMove_possible (d : Device) (a : AiStep) : (aiMove d a).Possible d.aiPort := by
  unfold aiMove
  split
  · split <;> trivial
  · split
    · next hend =>
      have hpos : 0 < d.queued .ai := by
        cases a with
        | event => exact Device.queued_pos_of_isNext hend
        | _ => cases hend
      split
      · next hfull => exact ⟨hpos, hfull⟩
      · next hfull => exact ⟨hpos, Bool.eq_false_of_not_eq_true hfull⟩
    · trivial

theorem aiMove_clean_iff (d : Device) (a : AiStep) :
    (aiMove d a).Clean d.aiPort ↔ AiStep.Orderly d a := by
  unfold aiMove AiStep.Orderly
  cases haccepts : d.aiAccepts a with
  | some length =>
    cases hbusy : d.aiBusy <;> simp [Completion.Move.Clean, Device.aiPort, hbusy]
  | none =>
    simp only [Option.isSome_none, Bool.false_eq_true, if_false, false_imp_iff, iff_true]
    split
    · next hend =>
      split
      · cases a with
        | event => exact Device.hasRoom_popEvent hend
        | _ => cases hend
      · trivial
    · trivial

/-- A step that accepts a buffer is `fifo_push` on the interface with the length in its register. -/
theorem aiStep_accepts {d : Device} {a : AiStep} {length : BitVec 32}
    (h : d.aiAccepts a = some length) :
    ∃ v, d.aiStep a = (d.setAi .len v).aiFifoPush ∧ v &&& ~~~7 = length := by
  cases a with
  | writeRegs address value mask =>
    unfold Device.aiAccepts at h
    simp only at h
    split at h
    · next hcond =>
      obtain ⟨hreg, hlen⟩ := hcond
      refine ⟨d.aiLenAfter value mask, ?_, Option.some.inj h⟩
      rw [Device.aiStep, Device.writeAiRegs]
      simp only [hreg, Device.setAi_ai_regs, Function.update_self]
      exact if_pos hlen
    · cases h
  | _ => cases h

/-- What the completion event does: the rest of the first buffer is pushed, and the second one, if
    there is one, takes its place. -/
structure AiEnded (d d' : Device) : Prop where
  port : d'.aiPort =
    (if d.aiFull then Completion.Move.advance d.popEvent.hasRoom else .complete).run d.aiPort
  pushed : d'.ai.pushed = d.ai.pushed ++ d.aiUnplayed
  unplayed : d'.aiUnplayed = d.aiWaiting
  waiting : d'.aiWaiting = []
  cursor : Device.AiCursor d'

theorem AiEnded.of_eq {d x d' : Device} (h : AiEnded d x) (hai : d'.ai = x.ai)
    (hdram : d'.rdram = x.rdram) (hqueued : d'.queued .ai = x.queued .ai) : AiEnded d d' := by
  have hport : d'.aiPort = x.aiPort := by
    unfold Device.aiPort Device.aiBusy Device.aiFull
    rw [hai, hqueued]
  refine ⟨hport.trans h.port, by rw [hai, h.pushed], ?_, ?_, ?_, ?_⟩
  · rw [← h.unplayed]
    unfold Device.aiUnplayed Device.aiSamples Device.aiBusy
    rw [hai, hdram]
  · rw [← h.waiting]
    unfold Device.aiWaiting Device.aiBuffer Device.aiCarried Device.aiFull
    rw [hai, hdram]
  · rw [hai]
    exact h.cursor.cursor
  · intro hidle
    rw [hai]
    exact h.cursor.idle (by unfold Device.aiBusy at hidle ⊢; rwa [hai] at hidle)

theorem aiFifoPop_ended {d e : Device} (h : d.isNext .ai = true) (hbusy : d.aiBusy = true)
    (he : e = { d.popEvent with ai :=
      { d.ai with pushed := d.ai.pushed ++ d.aiUnplayed, lastRead := 0 } }) :
    AiEnded d e.aiFifoPop := by
  have hqueued : e.queued .ai = d.queued .ai - 1 := by
    rw [he]
    exact Device.queued_popEvent h
  have hbusy' : e.aiBusy = true := by rw [he]; exact hbusy
  have hfull' : e.aiFull = d.aiFull := by rw [he]; rfl
  have hpushed : e.ai.pushed = d.ai.pushed ++ d.aiUnplayed := by rw [he]
  cases hfull : d.aiFull with
  | false =>
    obtain ⟨hb, hf, hp, hl, hq⟩ := Device.aiFifoPop_last (hfull'.trans hfull)
    have hzero : e.aiFifoPop.ai.lastRead = 0 := by rw [hl, he]
    refine ⟨?_, hp.trans hpushed, ?_, ?_, ?_, ?_⟩
    · unfold Device.aiPort
      rw [hb, hf, hq, hqueued, hfull]
      rfl
    · unfold Device.aiUnplayed Device.aiWaiting
      simp [hb, hfull]
    · unfold Device.aiWaiting
      simp [hf]
    · rw [hzero]
      exact BitVec.not_lt.mp BitVec.not_lt_zero
    · exact fun _ => hzero
  | true =>
    obtain ⟨hb, hf, hp, hu, hl, hq⟩ := Device.aiFifoPop_next (hfull'.trans hfull)
    refine ⟨?_, hp.trans hpushed, ?_, ?_, ?_, ?_⟩
    · have hroom : e.hasRoom = d.popEvent.hasRoom := by rw [he]
      unfold Device.aiPort
      rw [hb, hf, hq, hqueued, hroom, hfull, hbusy', hbusy]
      rfl
    · rw [hu, if_pos hbusy', he]
      rfl
    · unfold Device.aiWaiting
      simp [hf]
    · rw [hl]
      exact BitVec.le_refl _
    · intro hidle
      rw [hb, hbusy'] at hidle
      cases hidle

theorem aiStep_completes {d : Device} {a : AiStep} (h : d.aiCompletes a = true)
    (hbusy : d.aiBusy = true) : AiEnded d (d.aiStep a) := by
  cases a with
  | event =>
    have hnext : d.isNext .ai = true := h
    obtain ⟨pushed, hrest, hpushed⟩ := Device.aiPushRest_spec (d := d.popEvent) hbusy
    have hended := aiFifoPop_ended hnext hbusy (hrest.trans (by rw [hpushed]; rfl))
    have hstep : d.aiStep .event = d.popEvent.aiPushRest.aiFifoPop.raiseRcpInterrupt miIntrAI := by
      rw [Device.aiStep, if_pos hnext]
      rfl
    obtain ⟨r, hr⟩ := Device.raiseRcpInterrupt_eq d.popEvent.aiPushRest.aiFifoPop miIntrAI
    have hq := Device.raiseRcpInterrupt_q d.popEvent.aiPushRest.aiFifoPop miIntrAI
    refine hended.of_eq ?_ ?_ ?_
    · rw [hstep, hr]
      rfl
    · rw [hstep, hr]
      rfl
    · rw [hstep, Device.queued, hq]
  | _ => cases h

/-- Consistency, with the part that is common to all devices with a completion event set apart. -/
theorem aiConsistent_iff (s : AiRun) :
    AiConsistent s ↔
      Completion.Settled s.device.aiPort s.accepted.length s.completed ∧
        s.device.ai.pushed ++ s.device.aiUnplayed ++ s.device.aiWaiting = s.accepted.flatten ∧
        Device.AiCursor s.device := by
  constructor
  · rintro ⟨hbusy, hsingle, hfull, honce, hsamples, hcursor, hidle⟩
    exact ⟨⟨Completion.queued_eq_iff.mpr ⟨hbusy, hsingle⟩, hfull, honce⟩, hsamples, hcursor, hidle⟩
  · rintro ⟨⟨hqueued, hfull, honce⟩, hsamples, hcursor, hidle⟩
    obtain ⟨hbusy, hsingle⟩ := Completion.queued_eq_iff.mp hqueued
    exact ⟨hbusy, hsingle, hfull, honce, hsamples, hcursor, hidle⟩

theorem aiStep_kept {d : Device} {a : AiStep} (h : Device.AiCursor d)
    (haccepts : d.aiAccepts a = none) (hend : d.aiCompletes a = false) :
    Device.AiKept d (d.aiStep a) := by
  cases a with
  | readRegs address => exact Device.readAiRegs_kept h address
  | writeRegs address value mask => exact Device.writeAiRegs_kept h haccepts
  | event =>
    have hsame : d.aiStep .event = d := by
      have hnext : d.isNext .ai = false := hend
      simp [Device.aiStep, hnext]
    rw [hsame]
    exact .refl h
  | other f keeps =>
    obtain ⟨hai, hqueued, hunplayed, hwaiting⟩ := keeps d
    refine ⟨?_, ?_, hqueued, ?_, hwaiting, ?_, ?_⟩
    · unfold Device.aiBusy Device.aiStep
      rw [hai]
    · unfold Device.aiFull Device.aiStep
      rw [hai]
    · unfold Device.aiStep
      rw [hai, hunplayed]
    · unfold Device.aiStep
      rw [hai]
      exact h.cursor
    · unfold Device.aiStep Device.aiBusy
      rw [hai]
      exact h.idle

/-- Only a busy interface has an event to complete. -/
theorem aiBusy_of_completes {d : Device} {a : AiStep} (hqueued : d.queued .ai = d.aiBusy.toNat)
    (h : d.aiCompletes a = true) : d.aiBusy = true := by
  have hpos : 0 < d.queued .ai := by
    cases a with
    | event => exact Device.queued_pos_of_isNext h
    | _ => cases h
  cases hbusy : d.aiBusy with
  | true => rfl
  | false => simp [hqueued, hbusy] at hpos

theorem aiPort_step {d : Device} (h : Device.AiCursor d)
    (hqueued : d.queued .ai = d.aiBusy.toNat) (a : AiStep) :
    (d.aiStep a).aiPort = (aiMove d a).run d.aiPort := by
  unfold aiMove
  cases haccepts : d.aiAccepts a with
  | some length =>
    obtain ⟨v, hstep, -⟩ := aiStep_accepts haccepts
    rw [hstep]
    simp only [Option.isSome_some, if_true]
    cases hbusy : d.aiBusy with
    | true =>
      obtain ⟨hb, hf, -, -, -, -, -, hq⟩ := Device.aiFifoPush_busy (d := d.setAi .len v) hbusy
      unfold Device.aiPort
      rw [hb, hf, hq, hbusy]
      rfl
    | false =>
      obtain ⟨hb, hf, -, -, -, hq⟩ := Device.aiFifoPush_idle (d := d.setAi .len v) hbusy
      unfold Device.aiPort
      rw [hb, hf, hq]
      rfl
  | none =>
    cases hend : d.aiCompletes a with
    | true =>
      exact (aiStep_completes hend (aiBusy_of_completes hqueued hend)).port
    | false =>
      have hkept := aiStep_kept h haccepts hend
      unfold Device.aiPort
      rw [hkept.busy, hkept.full, hkept.queued]
      rfl

theorem aiStep_ne_accepts {d : Device} {a : AiStep} (h : d.aiCompletes a = true) :
    d.aiAccepts a = none := by
  cases a with
  | event => rfl
  | _ => cases h

/-- The ghost counts follow the move. -/
theorem aiRun_counts (start : Device → BitVec 32) (s : AiRun) (a : AiStep) :
    (s.next start a).accepted.length =
        s.accepted.length + (aiMove s.device a).accepts.toNat ∧
      (s.next start a).completed = s.completed + (aiMove s.device a).completes.toNat := by
  unfold aiMove AiRun.next
  cases haccepts : s.device.aiAccepts a with
  | some length =>
    have hend : s.device.aiCompletes a = false := by
      by_contra hne
      rw [aiStep_ne_accepts (by simpa using hne)] at haccepts
      cases haccepts
    rw [hend]
    cases s.device.aiBusy <;> simp [Completion.Move.accepts, Completion.Move.completes]
  | none =>
    cases s.device.aiCompletes a <;> cases s.device.aiFull <;>
      simp [Completion.Move.accepts, Completion.Move.completes]

/-- The samples of a buffer that finds a place are played or wait behind all others. -/
theorem aiStep_accepts_samples {d : Device} {a : AiStep} {length : BitVec 32}
    (h : d.aiAccepts a = some length) (hcursor : Device.AiCursor d)
    (hfull : d.aiFull = true → d.aiBusy = true) (horderly : AiStep.Orderly d a) :
    (d.aiStep a).ai.pushed ++ (d.aiStep a).aiUnplayed ++ (d.aiStep a).aiWaiting =
        d.ai.pushed ++ d.aiUnplayed ++ d.aiWaiting ++ d.aiBuffer (playedFrom d) length ∧
      Device.AiCursor (d.aiStep a) := by
  obtain ⟨v, hstep, rfl⟩ := aiStep_accepts h
  rw [hstep]
  have hplace := horderly (by rw [h]; rfl)
  cases hbusy : d.aiBusy with
  | true =>
    have hfree : d.aiFull = false := by simpa [hbusy] using hplace
    obtain ⟨hb, -, hp, hu, hw, hl, hfifo, -⟩ :=
      Device.aiFifoPush_busy (d := d.setAi .len v) hbusy
    refine ⟨?_, ?_, ?_⟩
    · have hwaiting : d.aiWaiting = [] := by simp [Device.aiWaiting, hfree]
      have hunplayed : (d.setAi .len v).aiUnplayed = d.aiUnplayed := rfl
      rw [hp, hu, hw, hunplayed, hwaiting, List.append_nil]
      rfl
    · rw [hl, hfifo]
      exact hcursor.cursor
    · intro hidle
      rw [hb] at hidle
      cases hidle
  | false =>
    have hfree : d.aiFull = false := by
      cases hf : d.aiFull with
      | false => rfl
      | true => simp [hfull hf] at hbusy
    obtain ⟨hb, hf, hp, hu, hl, -⟩ := Device.aiFifoPush_idle (d := d.setAi .len v) hbusy
    refine ⟨?_, ?_, ?_⟩
    · have hwaiting : d.aiWaiting = [] := by simp [Device.aiWaiting, hfree]
      have hunplayed : d.aiUnplayed = [] := by simp [Device.aiUnplayed, hbusy]
      have hwaiting' : (d.setAi .len v).aiFifoPush.aiWaiting = [] := by
        have hfull' : (d.setAi .len v).aiFifoPush.aiFull = false := hf.trans hfree
        simp [Device.aiWaiting, hfull']
      rw [hp, hu, hwaiting', hwaiting, hunplayed, List.append_nil, List.append_nil, List.append_nil]
      rfl
    · rw [hl]
      exact BitVec.le_refl _
    · intro hidle
      rw [hb] at hidle
      cases hidle

/-- **Step rule**: one step keeps the interface consistent exactly when it is orderly. -/
theorem aiRun_step_iff {s : AiRun} (h : AiConsistent s) (a : AiStep) :
    AiConsistent (s.next playedFrom a) ↔ AiStep.Orderly s.device a := by
  obtain ⟨hsettled, hsamples, hcursor⟩ := (aiConsistent_iff s).mp h
  have hrun := hsettled.run_iff (aiMove_possible s.device a)
  rw [← aiPort_step hcursor hsettled.queued, aiMove_clean_iff] at hrun
  obtain ⟨haccepted, hcompleted⟩ := aiRun_counts playedFrom s a
  rw [aiConsistent_iff, haccepted, hcompleted]
  refine ⟨fun hstep => hrun.mp hstep.1, fun horderly => ⟨hrun.mpr horderly, ?_⟩⟩
  cases haccepts : s.device.aiAccepts a with
  | some length =>
    obtain ⟨hsame, hcursor'⟩ := aiStep_accepts_samples haccepts hcursor h.full horderly
    have hlist : (s.next playedFrom a).accepted =
        s.accepted ++ [s.device.aiBuffer (playedFrom s.device) length] := by
      simp [AiRun.next, haccepts]
    refine ⟨?_, hcursor'⟩
    rw [hlist, List.flatten_append, ← hsamples]
    simpa [AiRun.next] using hsame
  | none =>
    have hlist : (s.next playedFrom a).accepted = s.accepted := by simp [AiRun.next, haccepts]
    rw [hlist, ← hsamples]
    cases hend : s.device.aiCompletes a with
    | true =>
      have hended := aiStep_completes hend (aiBusy_of_completes hsettled.queued hend)
      refine ⟨?_, hended.cursor⟩
      change (s.device.aiStep a).ai.pushed ++ (s.device.aiStep a).aiUnplayed ++
        (s.device.aiStep a).aiWaiting = _
      rw [hended.pushed, hended.unplayed, hended.waiting, List.append_nil]
    | false =>
      have hkept := aiStep_kept hcursor haccepts hend
      refine ⟨?_, hkept.cursor, hkept.idle⟩
      change (s.device.aiStep a).ai.pushed ++ (s.device.aiStep a).aiUnplayed ++
        (s.device.aiStep a).aiWaiting = _
      rw [hkept.samples, hkept.waiting]

/-- **The audio interface**: from a consistent state, every state of a run is there and consistent
    exactly when every step is orderly and divides by nothing that is 0. -/
theorem ai_consistent_iff (s : AiRun) (h : AiConsistent s) (steps : List AiStep) :
    (∀ t ∈ Runs.visited (AiRun.step playedFrom) (some s) steps, AiSound t) ↔
      Runs.Along (AiRun.next playedFrom)
        (fun s a => AiStep.Divides s.device a ∧ AiStep.Orderly s.device a) s steps :=
  Runs.visited_guarded_iff (fun _ a hs => aiRun_step_iff hs a) h

theorem aiConsistent_fresh : AiConsistent ⟨freshConsole, [], 0⟩ :=
  ⟨by decide, by decide, by decide, by decide, by decide,
    by decide, by decide⟩

/-- The sample rate and the clock of a console after power on leave no divisor 0. -/
theorem aiDivides_of_fresh {d : Device} {a : AiStep} (hrate : d.ai.regs .dacrate = 0)
    (hclock : d.vi.clock = 48681812) : AiStep.Divides d a := by
  have hduration : ∀ x ∈ d.durationDivisors, x ≠ 0 := by
    simp [Device.durationDivisors, hrate, hclock]
  have hformat : d.formatDivisors = [] := by
    unfold Device.formatDivisors
    exact if_neg fun h => h.2 hrate
  unfold AiStep.Divides Device.aiDivisors
  rw [hformat, ite_self, ite_self, List.append_nil]
  split
  · exact hduration
  · intro x hx
    cases hx

theorem along_aiDivides {start : Device → BitVec 32} {s : AiRun} {steps : List AiStep}
    (h : Runs.Along (AiRun.next start)
      (fun s _ => s.device.ai.regs .dacrate = 0 ∧ s.device.vi.clock = 48681812) s steps) :
    Runs.Along (AiRun.next start) (fun s a => AiStep.Divides s.device a) s steps :=
  Runs.along_of_along (I := fun _ => True) (fun _ _ _ _ => trivial)
    (fun _ _ _ hrate => aiDivides_of_fresh hrate.1 hrate.2) trivial h

/-- Two buffers back to back, with a read of AI_LEN and the event of the first. -/
theorem ai_consistent_buffers :
    AiConsistent ⟨freshConsole, [], 0⟩ ∧
      ∀ t ∈ Runs.visited (AiRun.step playedFrom) (some ⟨freshConsole, [], 0⟩)
        [.writeRegs 0x04500004 16 0xffffffff, .writeRegs 0x04500004 8 0xffffffff,
          .readRegs 0x04500004, .event], AiSound t :=
  ⟨aiConsistent_fresh, (ai_consistent_iff _ aiConsistent_fresh _).mpr
    ((Runs.along_and _ _).mpr ⟨along_aiDivides (by decide), by decide⟩)⟩

/-- A console with one word of RDRAM set. -/
def audioConsole : Device := freshConsole.setDram (Function.update (fun _ => 0) 0x800 0x01020304)

/-- Behind a buffer that ends where the low 13 bits of the address wrap, the next buffer is played
    from another address than it was accepted with. -/
theorem ai_carried_buffer :
    ¬∀ (s : AiRun) (steps : List AiStep), AiConsistent s →
      Runs.Along (AiRun.next fun d => d.ai.regs .dramAddr)
        (fun s a => AiStep.Divides s.device a ∧ AiStep.Orderly s.device a) s steps →
      ∀ t ∈ Runs.visited (AiRun.step fun d => d.ai.regs .dramAddr) (some s) steps, AiSound t := by
  intro h
  let start : Device → BitVec 32 := fun d => d.ai.regs .dramAddr
  let s : AiRun := ⟨audioConsole, [], 0⟩
  let steps : List AiStep :=
    [.writeRegs 0x04500000 0x1ff8 0xffffffff, .writeRegs 0x04500004 8 0xffffffff,
      .writeRegs 0x04500000 0x2000 0xffffffff, .writeRegs 0x04500004 8 0xffffffff,
      .event, .event]
  have hstart : AiConsistent s :=
    ⟨by decide, by decide, by decide, by decide, by decide,
      by decide, by decide⟩
  have hdivides : Runs.Along (AiRun.next start) (fun s a => AiStep.Divides s.device a) s steps :=
    along_aiDivides (by decide)
  have horderly : Runs.Along (AiRun.next start) (fun s a => AiStep.Orderly s.device a) s steps := by
    decide
  obtain ⟨r, hr, hlast⟩ := h s steps hstart ((Runs.along_and _ _).mpr ⟨hdivides, horderly⟩) _
    (Runs.runFrom_mem_visited _ _ steps)
  have hend : some r = some (Runs.runFrom (AiRun.next start) s steps) :=
    hr.symm.trans (Runs.runFrom_guarded hdivides)
  have hsamples := hlast.samples
  rw [Option.some.inj hend] at hsamples
  exact absurd hsamples (by decide)

end Mupen64plus
