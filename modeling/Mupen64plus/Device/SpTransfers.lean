import Mupen64plus.Lib.Completion
import Mupen64plus.Device.Queued

/-!
# Transfers of the signal processor

Register writes, with the tasks they start, and completion events of the DMA fifo, in any order and
with any steps of other devices between them. DMA_BUSY and DMA_FULL stand in registers of their own
and in SP_STATUS; a plugin may write all of them.

## Main definitions

- `SpStep`, `Device.spStep` — the steps
- `Device.spAlone` — an idle signal processor that runs one transfer
- `SpRun` — the fifo with the transfers that were accepted
- `SpStep.Orderly` — the pool has a node for a transfer that starts, and tasks leave the flags alone

## Main results

- `spQueued_eq_sequential` — two transfers leave the same behind whether the second one waits for
  the first or is asked for after it
- `sp_consistent_iff` — flags, queue and fifo agree along a run, and every transfer does what it
  does on an idle signal processor, exactly when every step is orderly
-/

namespace Mupen64plus

/-- The flags of the fifo, in the registers of their own and in SP_STATUS. -/
structure SpFlags where
  busy : Bool
  full : Bool
  statusBusy : Bool
  statusFull : Bool
  deriving DecidableEq, Repr

def spFlags (regs : SpReg → BitVec 32) : SpFlags where
  busy := regs .dmaBusy != 0
  full := regs .dmaFull != 0
  statusBusy := regs .status &&& spStatusDmaBusy != 0
  statusFull := regs .status &&& spStatusDmaFull != 0

/-- The flags, the fifo and the event of the signal processor are as they were. -/
def KeepsSp (f : Device → Device) : Prop :=
  ∀ d, spFlags (f d).sp.regs = spFlags d.sp.regs ∧ (f d).sp.fifo = d.sp.fifo ∧
    (f d).queued .rspDma = d.queued .rspDma

/-- What happens to the fifo; `other` is a step of anything else. -/
inductive SpStep where
  | writeRegs (o : Outside) (address value mask : BitVec 32)
  | event
  | other (f : Device → Device) (keeps : KeepsSp f)

namespace Device

def spFlags (d : Device) : SpFlags := Mupen64plus.spFlags d.sp.regs

/-- One step. The event of another device at the head of the queue is left to `other`. -/
def spStep (d : Device) : SpStep → Device
  | .writeRegs o address value mask => writeRspRegs o d address value mask
  | .event => if d.isNext .rspDma then interruptHandler quietOutside d .rspDma else d
  | .other f _ => f d

/-- The transfer that a step hands to a fifo that is not full. -/
def spAccepts (d : Device) : SpStep → Option SpDma
  | .writeRegs _ address value mask =>
    if d.spFlags.full then none
    else
      match regAt SpReg.block address with
      | some .rdLen =>
        some ((d.setSp .rdLen (maskedWrite (d.sp.regs .rdLen) value mask)).spDmaOfRegs 1)
      | some .wrLen =>
        some ((d.setSp .wrLen (maskedWrite (d.sp.regs .wrLen) value mask)).spDmaOfRegs 0)
      | _ => none
  | _ => none

def spCompletes (d : Device) : SpStep → Bool
  | .event => d.isNext .rspDma
  | _ => false

def spPort (d : Device) : Completion.Port := ⟨d.spFlags.busy, d.spFlags.full, d.queued .rspDma⟩

/-- The registers of a transfer on an idle signal processor, less the fifo's own. -/
def spIdleRegs (d : Device) (dma : SpDma) : SpReg → BitVec 32
  | .memAddr => dma.memaddr
  | .dramAddr => dma.dramaddr
  | .rdLen | .wrLen => dma.length
  | .dmaBusy | .dmaFull => 0
  | reg => d.sp.regs reg

/-- An idle signal processor, with the memory of `d`, that runs one transfer. -/
def spAlone (d : Device) (dma : SpDma) : Device :=
  spFifoPush { d with sp := { d.sp with regs := d.spIdleRegs dma } } dma.dir

/-- What `update_sp_status` did before it starts a task. -/
def spStatusWritten (d : Device) (w : BitVec 32) : Device :=
  let d := d.setSp .status (spHaltBroke d.spStatus w)
  let d := if w &&& 0x18 = 0x8 then d.clearRcpInterrupt miIntrSP else d
  let d := if w &&& 0x18 = 0x10 then d.signalRcpInterrupt miIntrSP else d
  d.setSp .status
    (spStatusPairs.foldl (fun s p => clearOrSet s w p.1 p.2.1 p.2.2) d.spStatus)

/-- What the plugin answers when a write to SP_STATUS starts a task. -/
def spTaskAnswer (o : Outside) (d : Device) (w : BitVec 32) : PluginView :=
  let d := d.spStatusWritten w
  o.doRspCycles (d.setSp2 .pc (d.sp.regs2 .pc &&& 0xfff)).pluginView

/-- A step that starts a task, whose plugin leaves the flags of the fifo alone. -/
def spTaskKeeps (d : Device) : SpStep → Prop
  | .writeRegs o address value mask =>
    regAt SpReg.block address = some .status →
      (d.spStatusWritten (value &&& mask)).startsTask (value &&& mask) = true →
        Mupen64plus.spFlags (spTaskAnswer o d (value &&& mask)).spRegs = d.spFlags
  | _ => True

end Device

/-- The fifo with the number of transfers accepted and completed, and the accepted transfers that
    have not started. -/
structure SpRun where
  device : Device
  accepted : ℕ
  completed : ℕ
  waiting : List SpDma

/-- The transfer that has to start in a step: one that finds the fifo empty, or the one that waits
    for an event. -/
def SpRun.starts (s : SpRun) (a : SpStep) : Option SpDma :=
  if s.device.spCompletes a then s.waiting.head?
  else if s.device.spFlags.busy then none
  else s.device.spAccepts a

def SpRun.step (s : SpRun) (a : SpStep) : SpRun where
  device := s.device.spStep a
  accepted := s.accepted + (s.device.spAccepts a).isSome.toNat
  completed := s.completed + (s.device.spCompletes a).toNat
  waiting :=
    if s.device.spCompletes a then s.waiting.tail
    else if s.device.spFlags.busy then s.waiting ++ (s.device.spAccepts a).toList
    else s.waiting

/-- DMA_BUSY is set exactly while one event is queued, DMA_FULL implies DMA_BUSY, SP_STATUS shows
    both, and every accepted transfer was completed, runs, or waits in the second place. -/
structure SpConsistent (s : SpRun) : Prop where
  busy : s.device.spFlags.busy = true ↔ s.device.queued .rspDma = 1
  single : s.device.queued .rspDma ≤ 1
  full : s.device.spFlags.full = true → s.device.spFlags.busy = true
  statusBusy : s.device.spFlags.statusBusy = s.device.spFlags.busy
  statusFull : s.device.spFlags.statusFull = s.device.spFlags.full
  once : s.accepted = s.completed + s.device.queued .rspDma + s.device.spFlags.full.toNat
  waiting : s.waiting = if s.device.spFlags.full then [s.device.sp.fifo 1] else []

/-- Memory and address registers as a transfer leaves them. -/
structure SpSameEffect (d d' : Device) : Prop where
  dram : d.rdram.dram = d'.rdram.dram
  mem : d.sp.mem = d'.sp.mem
  memAddr : d.sp.regs .memAddr = d'.sp.regs .memAddr
  dramAddr : d.sp.regs .dramAddr = d'.sp.regs .dramAddr

theorem SpSameEffect.trans {d d' d'' : Device} (h : SpSameEffect d d') (h' : SpSameEffect d' d'') :
    SpSameEffect d d'' :=
  ⟨h.dram.trans h'.dram, h.mem.trans h'.mem, h.memAddr.trans h'.memAddr,
    h.dramAddr.trans h'.dramAddr⟩

theorem SpSameEffect.symm {d d' : Device} (h : SpSameEffect d d') : SpSameEffect d' d :=
  ⟨h.dram.symm, h.mem.symm, h.memAddr.symm, h.dramAddr.symm⟩

/-- A transfer that has to start does what it does on an idle signal processor. -/
def SpExecutes (s : SpRun) (a : SpStep) : Prop :=
  ∀ dma, s.starts a = some dma → SpSameEffect (s.device.spStep a) (s.device.spAlone dma)

/-- The pool has a node for a transfer that finds the fifo empty, and tasks leave its flags
    alone. -/
def SpStep.Orderly (d : Device) (a : SpStep) : Prop :=
  ((d.spAccepts a).isSome = true → d.spFlags.busy = false → d.hasRoom = true) ∧ d.spTaskKeeps a

-- ════════════════════════════════════════════════════════════════════════
-- Two transfers
-- ════════════════════════════════════════════════════════════════════════

/-- The values and masks that ask for a transfer; a mask of 0 leaves the register as it is. -/
structure SpRequest where
  memAddr : BitVec 32 × BitVec 32
  dramAddr : BitVec 32 × BitVec 32
  len : BitVec 32 × BitVec 32
  toDram : Bool

namespace Device

/-- The address registers and the length register written as a request asks. -/
def spAsked (d : Device) (r : SpRequest) : Device :=
  let d := d.setSp .memAddr (maskedWrite (d.sp.regs .memAddr) r.memAddr.1 r.memAddr.2)
  let d := d.setSp .dramAddr (maskedWrite (d.sp.regs .dramAddr) r.dramAddr.1 r.dramAddr.2)
  if r.toDram then d.setSp .wrLen (maskedWrite (d.sp.regs .wrLen) r.len.1 r.len.2)
  else d.setSp .rdLen (maskedWrite (d.sp.regs .rdLen) r.len.1 r.len.2)

def spDir (r : SpRequest) : BitVec 32 := if r.toDram then 0 else 1

/-- The three register writes of a request. -/
def spRequest (o : Outside) (d : Device) (r : SpRequest) : Device :=
  let d := writeRspRegs o d 0x04040000 r.memAddr.1 r.memAddr.2
  let d := writeRspRegs o d 0x04040004 r.dramAddr.1 r.dramAddr.2
  writeRspRegs o d (if r.toDram then 0x0404000c else 0x04040008) r.len.1 r.len.2

theorem spRequest_eq (o : Outside) (d : Device) (r : SpRequest) :
    spRequest o d r = (d.spAsked r).spFifoPush (spDir r) := by
  unfold spRequest spAsked spDir
  cases r.toDram <;> rfl

/-- The memory and registers a transfer reads. -/
structure SpAgree (d d' : Device) : Prop where
  dram : d.rdram.dram = d'.rdram.dram
  mem : d.sp.mem = d'.sp.mem
  memAddr : d.sp.regs .memAddr = d'.sp.regs .memAddr
  dramAddr : d.sp.regs .dramAddr = d'.sp.regs .dramAddr
  rdLen : d.sp.regs .rdLen = d'.sp.regs .rdLen
  wrLen : d.sp.regs .wrLen = d'.sp.regs .wrLen

theorem SpAgree.dma {d d' : Device} (h : SpAgree d d') (dir : BitVec 32) :
    d.spDmaOfRegs dir = d'.spDmaOfRegs dir := by
  unfold spDmaOfRegs
  rw [h.memAddr, h.dramAddr, h.rdLen, h.wrLen]

theorem SpAgree.asked {d d' : Device} (h : SpAgree d d') (r : SpRequest) :
    SpAgree (d.spAsked r) (d'.spAsked r) := by
  unfold spAsked
  cases r.toDram
  · refine ⟨h.dram, h.mem, ?_, ?_, ?_, ?_⟩ <;> simp [h.memAddr, h.dramAddr, h.rdLen, h.wrLen]
  · refine ⟨h.dram, h.mem, ?_, ?_, ?_, ?_⟩ <;> simp [h.memAddr, h.dramAddr, h.rdLen, h.wrLen]

/-- **What a transfer does** depends on the memories and on the transfer alone. -/
theorem doSpDma_same {d e : Device} (hdram : d.rdram.dram = e.rdram.dram)
    (hmem : d.sp.mem = e.sp.mem) (dma : SpDma) :
    SpSameEffect (d.doSpDma dma) (e.doSpDma dma) := by
  have hrows : d.spDmaRows dma = e.spDmaRows dma := by
    unfold spDmaRows
    rw [hdram, hmem]
  unfold doSpDma
  rw [hrows]
  cases hrow : e.spDmaRows dma with
  | mk m addresses =>
    simp only
    split
    · exact ⟨rfl, hmem, rfl, rfl⟩
    · exact ⟨hdram, rfl, rfl, rfl⟩

theorem doSpDma_flags (d : Device) (dma : SpDma) :
    (d.doSpDma dma).spFlags = d.spFlags ∧ (d.doSpDma dma).sp.fifo = d.sp.fifo := by
  unfold doSpDma spFlags
  cases d.spDmaRows dma with
  | mk m addresses =>
    simp only
    split <;> exact ⟨rfl, rfl⟩

theorem queued_doSpDma (d : Device) (dma : SpDma) :
    (d.doSpDma dma).queued .rspDma = d.queued .rspDma + d.hasRoom.toNat := by
  unfold doSpDma
  cases d.spDmaRows dma with
  | mk m addresses =>
    simp only
    split
    · exact queued_addEvent_self _ _ _
    · exact queued_addEvent_self _ _ _

/-- The first place of the fifo is taken. -/
def spFilled (d : Device) (dma : SpDma) : Device :=
  let d := (d.setSpFifo 0 dma).setSp .dmaBusy 1
  d.setSp .status (d.spStatus ||| spStatusDmaBusy)

/-- The second place of the fifo is taken. -/
def spParked (d : Device) (dma : SpDma) : Device :=
  let d := (d.setSpFifo 1 dma).setSp .dmaFull 1
  d.setSp .status (d.spStatus ||| spStatusDmaFull)

/-- The second transfer moves to the first place. -/
def spMoved (d : Device) : Device :=
  let d := (d.setSpFifo 0 (d.sp.fifo 1)).setSp .dmaFull 0
  d.setSp .status (d.spStatus &&& ~~~spStatusDmaFull)

/-- The fifo is empty. -/
def spEnded (d : Device) : Device :=
  let d := d.setSp .dmaBusy 0
  d.setSp .status (d.spStatus &&& ~~~spStatusDmaBusy)

theorem spFlags_filled (d : Device) (dma : SpDma) :
    (d.spFilled dma).spFlags = { d.spFlags with busy := true, statusBusy := true } := by
  have hbusy : (d.sp.regs .status ||| spStatusDmaBusy) &&& spStatusDmaBusy ≠ 0 :=
    Flags.or_and_ne_zero.mpr (.inr (by decide))
  have hfull : (d.sp.regs .status ||| spStatusDmaBusy) &&& spStatusDmaFull =
      d.sp.regs .status &&& spStatusDmaFull := Flags.or_and_of_disjoint (by decide)
  simp [spFlags, Mupen64plus.spFlags, spFilled, setSpFifo, spStatus, hfull]
  exact hbusy

theorem spFlags_parked (d : Device) (dma : SpDma) :
    (d.spParked dma).spFlags = { d.spFlags with full := true, statusFull := true } := by
  have hfull : (d.sp.regs .status ||| spStatusDmaFull) &&& spStatusDmaFull ≠ 0 :=
    Flags.or_and_ne_zero.mpr (.inr (by decide))
  have hbusy : (d.sp.regs .status ||| spStatusDmaFull) &&& spStatusDmaBusy =
      d.sp.regs .status &&& spStatusDmaBusy := Flags.or_and_of_disjoint (by decide)
  simp [spFlags, Mupen64plus.spFlags, spParked, setSpFifo, spStatus, hbusy]
  exact hfull

theorem spFlags_moved (d : Device) :
    d.spMoved.spFlags = { d.spFlags with full := false, statusFull := false } := by
  have hfull : (d.sp.regs .status &&& ~~~spStatusDmaFull) &&& spStatusDmaFull = 0 :=
    Flags.andNot_and_of_covered (by decide)
  have hbusy : (d.sp.regs .status &&& ~~~spStatusDmaFull) &&& spStatusDmaBusy =
      d.sp.regs .status &&& spStatusDmaBusy := Flags.andNot_and_of_disjoint (by decide)
  simp [spFlags, Mupen64plus.spFlags, spMoved, setSpFifo, spStatus, hbusy]
  exact hfull

theorem spFlags_ended (d : Device) :
    d.spEnded.spFlags = { d.spFlags with busy := false, statusBusy := false } := by
  have hbusy : (d.sp.regs .status &&& ~~~spStatusDmaBusy) &&& spStatusDmaBusy = 0 :=
    Flags.andNot_and_of_covered (by decide)
  have hfull : (d.sp.regs .status &&& ~~~spStatusDmaBusy) &&& spStatusDmaFull =
      d.sp.regs .status &&& spStatusDmaFull := Flags.andNot_and_of_disjoint (by decide)
  simp [spFlags, Mupen64plus.spFlags, spEnded, spStatus, hfull]
  exact hbusy

theorem spFifoPush_idle {d : Device} (hbusy : d.spFlags.busy = false)
    (hfull : d.spFlags.full = false) (dir : BitVec 32) :
    d.spFifoPush dir = (d.spFilled (d.spDmaOfRegs dir)).doSpDma (d.spDmaOfRegs dir) := by
  have hb : d.sp.regs .dmaBusy = 0 := by simpa [spFlags, Mupen64plus.spFlags] using hbusy
  have hf : d.sp.regs .dmaFull = 0 := by simpa [spFlags, Mupen64plus.spFlags] using hfull
  unfold spFifoPush
  simp only [hb, hf, ne_eq, not_true_eq_false, if_false]
  rfl

theorem spFifoPush_busy {d : Device} (hbusy : d.spFlags.busy = true)
    (hfull : d.spFlags.full = false) (dir : BitVec 32) :
    d.spFifoPush dir = d.spParked (d.spDmaOfRegs dir) := by
  have hb : d.sp.regs .dmaBusy ≠ 0 := by simpa [spFlags, Mupen64plus.spFlags] using hbusy
  have hf : d.sp.regs .dmaFull = 0 := by simpa [spFlags, Mupen64plus.spFlags] using hfull
  unfold spFifoPush
  simp only [hb, hf, ne_eq, not_true_eq_false, if_false, not_false_eq_true, if_true]
  rfl

theorem spFifoPush_full {d : Device} (hfull : d.spFlags.full = true) (dir : BitVec 32) :
    d.spFifoPush dir = d := by
  have hf : d.sp.regs .dmaFull ≠ 0 := by simpa [spFlags, Mupen64plus.spFlags] using hfull
  unfold spFifoPush
  simp only [hf, ne_eq, not_false_eq_true, if_true]

theorem rspEndOfDmaEvent_next {d : Device} (hfull : d.spFlags.full = true) :
    d.rspEndOfDmaEvent = d.spMoved.doSpDma (d.sp.fifo 1) := by
  have hf : d.sp.regs .dmaFull ≠ 0 := by simpa [spFlags, Mupen64plus.spFlags] using hfull
  unfold rspEndOfDmaEvent
  simp only [hf, ne_eq, not_false_eq_true, if_true]
  rfl

theorem rspEndOfDmaEvent_last {d : Device} (hfull : d.spFlags.full = false) :
    d.rspEndOfDmaEvent = d.spEnded := by
  have hf : d.sp.regs .dmaFull = 0 := by simpa [spFlags, Mupen64plus.spFlags] using hfull
  unfold rspEndOfDmaEvent
  simp only [hf, ne_eq, not_true_eq_false, if_false]
  rfl

/-- Clearing the flags of an ended transfer leaves its effect alone. -/
theorem spEnded_same (d : Device) : SpSameEffect d.spEnded d := ⟨rfl, rfl, rfl, rfl⟩

theorem spEnded_agree (d : Device) : SpAgree d d.spEnded := ⟨rfl, rfl, rfl, rfl, rfl, rfl⟩

theorem spFlags_asked (d : Device) (r : SpRequest) : (d.spAsked r).spFlags = d.spFlags := by
  unfold spAsked
  cases r.toDram <;> rfl

/-- **Two transfers** leave the same memories and addresses behind whether the second one waits for
    the end of the first, or is asked for when the signal processor is idle again. -/
theorem spQueued_eq_sequential (o : Outside) {d : Device} (hbusy : d.spFlags.busy = false)
    (hfull : d.spFlags.full = false) (r₁ r₂ : SpRequest) :
    SpSameEffect
      (spRequest o (spRequest o d r₁) r₂).rspEndOfDmaEvent.rspEndOfDmaEvent
      (spRequest o (spRequest o d r₁).rspEndOfDmaEvent r₂).rspEndOfDmaEvent := by
  -- the first transfer runs at once in both orders
  have hasked : (d.spAsked r₁).spFlags = d.spFlags := d.spFlags_asked r₁
  have hfirst := spFifoPush_idle (d := d.spAsked r₁) (by rw [hasked, hbusy]) (by rw [hasked, hfull])
    (spDir r₁)
  rw [← spRequest_eq o] at hfirst
  generalize hd₁ : spRequest o d r₁ = d₁ at hfirst
  have hflags₁ : d₁.spFlags = { d.spFlags with busy := true, statusBusy := true } := by
    rw [hfirst, (doSpDma_flags _ _).1, spFlags_filled, hasked]
  have hend₁ : d₁.rspEndOfDmaEvent = d₁.spEnded := rspEndOfDmaEvent_last
    (by rw [hflags₁]; exact hfull)
  have hagree : SpAgree d₁ d₁.rspEndOfDmaEvent := by
    rw [hend₁]
    exact d₁.spEnded_agree
  have hidle : d₁.rspEndOfDmaEvent.spFlags.busy = false := by rw [hend₁, spFlags_ended]
  have hempty : d₁.rspEndOfDmaEvent.spFlags.full = false := by
    rw [hend₁, spFlags_ended, hflags₁]
    exact hfull
  -- the second one waits in the first order, with the registers it has in the other
  have hdma := (hagree.asked r₂).dma (spDir r₂)
  have hwaits : spRequest o d₁ r₂ = (d₁.spAsked r₂).spParked
    ((d₁.spAsked r₂).spDmaOfRegs (spDir r₂)) := by
    rw [spRequest_eq]
    exact spFifoPush_busy (by rw [spFlags_asked, hflags₁])
      (by rw [spFlags_asked, hflags₁]; exact hfull) _
  have hruns : spRequest o d₁.rspEndOfDmaEvent r₂ =
      (((d₁.rspEndOfDmaEvent).spAsked r₂).spFilled ((d₁.spAsked r₂).spDmaOfRegs (spDir r₂))).doSpDma
        ((d₁.spAsked r₂).spDmaOfRegs (spDir r₂)) := by
    rw [spRequest_eq, hdma]
    exact spFifoPush_idle (by rw [spFlags_asked, hidle]) (by rw [spFlags_asked, hempty]) _
  have hnext : (spRequest o d₁ r₂).rspEndOfDmaEvent =
      (spRequest o d₁ r₂).spMoved.doSpDma ((d₁.spAsked r₂).spDmaOfRegs (spDir r₂)) := by
    have hfull₂ : (spRequest o d₁ r₂).spFlags.full = true := by rw [hwaits, spFlags_parked]
    rw [rspEndOfDmaEvent_next hfull₂]
    congr 1
    rw [hwaits]
    rfl
  -- both run it on the same memories, and the last event changes nothing more
  have hsame := doSpDma_same (d := (spRequest o d₁ r₂).spMoved)
    (e := ((d₁.rspEndOfDmaEvent).spAsked r₂).spFilled ((d₁.spAsked r₂).spDmaOfRegs (spDir r₂)))
    (by rw [hwaits]; exact (hagree.asked r₂).dram) (by rw [hwaits]; exact (hagree.asked r₂).mem)
    ((d₁.spAsked r₂).spDmaOfRegs (spDir r₂))
  rw [← hnext, ← hruns] at hsame
  have hlast : ∀ e : Device, e.spFlags.full = false → SpSameEffect e.rspEndOfDmaEvent e := by
    intro e he
    rw [rspEndOfDmaEvent_last he]
    exact e.spEnded_same
  have hfull₂ : (spRequest o d₁ r₂).rspEndOfDmaEvent.spFlags.full = false := by
    rw [hnext, (doSpDma_flags _ _).1, spFlags_moved]
  have hfull₃ : (spRequest o d₁.rspEndOfDmaEvent r₂).spFlags.full = false := by
    rw [hruns, (doSpDma_flags _ _).1, spFlags_filled, spFlags_asked]
    exact hempty
  exact ((hlast _ hfull₂).trans hsame).trans (hlast _ hfull₃).symm

/-- A transfer on an idle signal processor. -/
theorem spAlone_same {d e : Device} (hdram : e.rdram.dram = d.rdram.dram)
    (hmem : e.sp.mem = d.sp.mem) (dma : SpDma) :
    SpSameEffect (e.doSpDma dma) (d.spAlone dma) := by
  let idle : Device := { d with sp := { d.sp with regs := d.spIdleRegs dma } }
  have hdma : idle.spDmaOfRegs dma.dir = dma := by
    unfold spDmaOfRegs
    change (⟨dma.dir, if dma.dir = 0 then dma.length else dma.length, dma.memaddr, dma.dramaddr⟩ :
      SpDma) = dma
    rw [ite_self]
  have halone : d.spAlone dma = (idle.spFilled dma).doSpDma dma := by
    have h := spFifoPush_idle (d := idle) rfl rfl dma.dir
    rw [hdma] at h
    exact h
  rw [halone]
  exact doSpDma_same (e := idle.spFilled dma) hdram hmem dma

end Device

-- ════════════════════════════════════════════════════════════════════════
-- Writes to SP_STATUS
-- ════════════════════════════════════════════════════════════════════════

theorem clearOrSet_other {reg w clearBit setBit field m : BitVec 32} (h : field &&& m = 0) :
    clearOrSet reg w clearBit setBit field &&& m = reg &&& m := by
  unfold clearOrSet
  split
  · exact Flags.andNot_and_of_disjoint (by rw [BitVec.and_comm]; exact h)
  · split
    · exact Flags.or_and_of_disjoint h
    · rfl

theorem foldl_clearOrSet_other {m : BitVec 32} (w : BitVec 32)
    (pairs : List (BitVec 32 × BitVec 32 × BitVec 32))
    (h : (pairs.all fun p => p.2.2 &&& m == 0) = true) (reg : BitVec 32) :
    (pairs.foldl (fun s p => clearOrSet s w p.1 p.2.1 p.2.2) reg) &&& m = reg &&& m := by
  induction pairs generalizing reg with
  | nil => rfl
  | cons p pairs ih =>
    rw [List.all_cons, Bool.and_eq_true, beq_iff_eq] at h
    rw [List.foldl_cons, ih h.2]
    exact clearOrSet_other h.1

theorem spHaltBroke_other {m : BitVec 32} (hhalt : spStatusHalt &&& m = 0)
    (hbroke : m &&& spStatusBroke = 0) (status w : BitVec 32) :
    Device.spHaltBroke status w &&& m = status &&& m := by
  unfold Device.spHaltBroke
  simp only
  split
  · rw [Flags.andNot_and_of_disjoint hbroke, clearOrSet_other hhalt]
  · exact clearOrSet_other hhalt

theorem spFlags_of_status {regs regs' : SpReg → BitVec 32} (hbusy : regs' .dmaBusy = regs .dmaBusy)
    (hfull : regs' .dmaFull = regs .dmaFull)
    (hstatusBusy : regs' .status &&& spStatusDmaBusy = regs .status &&& spStatusDmaBusy)
    (hstatusFull : regs' .status &&& spStatusDmaFull = regs .status &&& spStatusDmaFull) :
    spFlags regs' = spFlags regs := by
  unfold spFlags
  rw [hbusy, hfull, hstatusBusy, hstatusFull]

namespace Device

/-- What a step leaves alone that starts no transfer. -/
structure SpKept (d d' : Device) : Prop where
  fifo : d'.sp.fifo = d.sp.fifo
  queued : d'.queued .rspDma = d.queued .rspDma

theorem SpKept.trans {d d' d'' : Device} (h : SpKept d d') (h' : SpKept d' d'') : SpKept d d'' :=
  ⟨h'.fifo.trans h.fifo, h'.queued.trans h.queued⟩

/-- The registers are left alone as well. -/
structure SpSame (d d' : Device) : Prop extends SpKept d d' where
  regs : d'.sp.regs = d.sp.regs

theorem SpSame.refl (d : Device) : SpSame d d := ⟨⟨rfl, rfl⟩, rfl⟩

theorem SpSame.trans {d d' d'' : Device} (h : SpSame d d') (h' : SpSame d' d'') : SpSame d d'' :=
  ⟨h.toSpKept.trans h'.toSpKept, h'.regs.trans h.regs⟩

theorem SpSame.ite {c : Prop} [Decidable c] {d d' : Device} (h : SpSame d d') :
    SpSame d (if c then d' else d) := by
  split
  · exact h
  · exact .refl d

theorem addEvent_spSame (d : Device) {type : IntType} (delay : BitVec 32) (h : type ≠ .rspDma) :
    SpSame d (d.addEvent type delay) := by
  refine ⟨⟨rfl, ?_⟩, rfl⟩
  have hne : (type == IntType.rspDma) = false := by rw [beq_eq_false_iff_ne]; exact h
  rw [queued_addEvent, hne, Bool.and_false]
  rfl

theorem spStatusWritten_spec (d : Device) (w : BitVec 32) :
    SpKept d (d.spStatusWritten w) ∧ (d.spStatusWritten w).spFlags = d.spFlags := by
  let halted := d.setSp .status (spHaltBroke d.spStatus w)
  have hclear : SpSame halted
      (if w &&& 0x18 = 0x8 then halted.clearRcpInterrupt miIntrSP else halted) :=
    .ite ⟨⟨rfl, queued_clearRcpInterrupt _ _ (by decide)⟩, rfl⟩
  generalize hcleared : (if w &&& 0x18 = 0x8 then halted.clearRcpInterrupt miIntrSP else halted) =
    cleared at hclear
  have hsignal : SpSame cleared
      (if w &&& 0x18 = 0x10 then cleared.signalRcpInterrupt miIntrSP else cleared) :=
    .ite ⟨⟨rfl, queued_signalRcpInterrupt _ _ (by decide)⟩, rfl⟩
  generalize hsignalled : (if w &&& 0x18 = 0x10 then cleared.signalRcpInterrupt miIntrSP
    else cleared) = signalled at hsignal
  have hwritten : d.spStatusWritten w = signalled.setSp .status
      (spStatusPairs.foldl (fun s p => clearOrSet s w p.1 p.2.1 p.2.2) signalled.spStatus) := by
    rw [← hsignalled, ← hcleared]
    rfl
  have hsame := hclear.trans hsignal
  rw [hwritten]
  refine ⟨⟨hsame.fifo, hsame.queued⟩, ?_⟩
  refine spFlags_of_status ?_ ?_ ?_ ?_
  · simp [hsame.regs, halted]
  · simp [hsame.regs, halted]
  · rw [setSp_sp_regs, Function.update_self, foldl_clearOrSet_other w _ rfl, spStatus,
      hsame.regs, setSp_sp_regs, Function.update_self,
      spHaltBroke_other (by decide) (by decide)]
    rfl
  · rw [setSp_sp_regs, Function.update_self, foldl_clearOrSet_other w _ rfl, spStatus,
      hsame.regs, setSp_sp_regs, Function.update_self,
      spHaltBroke_other (by decide) (by decide)]
    rfl

theorem delayDpInt_same (d : Device) : SpSame d d.delayDpInt := by
  unfold delayDpInt
  split
  · exact .refl d
  · simp only
    split
    · exact ⟨⟨rfl, rfl⟩, rfl⟩
    · have hsame : SpSame d (d.setMi .intr (d.mi.regs .intr &&& ~~~miIntrDP)).updateCount :=
        ⟨⟨rfl, rfl⟩, rfl⟩
      exact hsame.trans (addEvent_spSame _ 4000 (by decide))

theorem runRsp_spec (o : Outside) (d : Device) :
    SpKept d (runRsp o d) ∧ (runRsp o d).sp.regs =
      (o.doRspCycles (d.setSp2 .pc (d.sp.regs2 .pc &&& 0xfff)).pluginView).spRegs :=
  ⟨⟨rfl, rfl⟩, rfl⟩

theorem runTask_spec (o : Outside) (d : Device) :
    SpKept d (runTask o d).1 ∧ (runTask o d).1.sp.regs =
      (o.doRspCycles (d.setSp2 .pc (d.sp.regs2 .pc &&& 0xfff)).pluginView).spRegs := by
  have hrun := runRsp_spec o d
  unfold runTask
  split
  · have hdelay := (runRsp o d).delayDpInt_same
    exact ⟨hrun.1.trans hdelay.toSpKept, hdelay.regs.trans hrun.2⟩
  · split <;> exact hrun

theorem unlockTask_same (d : Device) : SpSame d (d.setTaskLocked false) := ⟨⟨rfl, rfl⟩, rfl⟩

/-- The lock of a task that goes on, with its interrupt. -/
theorem lockTask_same (d : Device) :
    SpSame d ((d.setTaskLocked true).setMi .intr (d.mi.regs .intr ||| miIntrSP)) :=
  ⟨⟨rfl, rfl⟩, rfl⟩

/-- The interrupt of a task, put off by an event. -/
theorem delaySpInt_same (d : Device) (delay : BitVec 32) :
    SpSame d ((d.updateCount.addEvent .sp delay).setMi .intr (d.mi.regs .intr &&&
      ~~~miIntrSP)) := by
  have hsame : SpSame d d.updateCount := ⟨⟨rfl, rfl⟩, rfl⟩
  have hevent := hsame.trans (addEvent_spSame d.updateCount delay
    (show IntType.sp ≠ .rspDma by decide))
  exact ⟨⟨hevent.fifo, hevent.queued⟩, hevent.regs⟩

/-- What holds behind the plugin, and is kept by each part of `do_SP_Task` that follows, holds at
    its end. -/
theorem doSPTask_induct {P : Device → Prop} (o : Outside) (d : Device) (hrun : P (runTask o d).1)
    (hunlock : ∀ e, P e → P (e.setTaskLocked false))
    (hlock : ∀ e, P e → P ((e.setTaskLocked true).setMi .intr (e.mi.regs .intr ||| miIntrSP)))
    (hdelay : ∀ e delay, P e →
      P ((e.updateCount.addEvent .sp delay).setMi .intr (e.mi.regs .intr &&& ~~~miIntrSP)))
    (hend : ∀ e, P e → P (e.setSp .status
      (e.spStatus &&& ~~~(spStatusTaskdone ||| spStatusBroke ||| spStatusHalt)))) :
    P (doSPTask o d) := by
  generalize hran : (runTask o d).1 = ran at hrun
  generalize hdelayTime : (runTask o d).2 = delay
  have hsplit : runTask o d = (ran, delay) := by rw [← hran, ← hdelayTime]
  have hunlocked := hunlock ran hrun
  generalize hu : ran.setTaskLocked false = unlocked at hunlocked
  have hlocked : P (if unlocked.spStatus &&& (spStatusHalt ||| spStatusBroke) = 0 then
      (unlocked.setTaskLocked true).setMi .intr (unlocked.mi.regs .intr ||| miIntrSP)
      else unlocked) := by
    split
    · exact hlock _ hunlocked
    · exact hunlocked
  generalize hl : (if unlocked.spStatus &&& (spStatusHalt ||| spStatusBroke) = 0 then
      (unlocked.setTaskLocked true).setMi .intr (unlocked.mi.regs .intr ||| miIntrSP)
      else unlocked) = locked at hlocked
  have hsignalled : P (if locked.mi.regs .intr &&& miIntrSP ≠ 0 then
      (locked.updateCount.addEvent .sp delay).setMi .intr (locked.mi.regs .intr &&& ~~~miIntrSP)
      else locked) := by
    split
    · exact hdelay _ _ hlocked
    · exact hlocked
  generalize hs : (if locked.mi.regs .intr &&& miIntrSP ≠ 0 then
      (locked.updateCount.addEvent .sp delay).setMi .intr (locked.mi.regs .intr &&& ~~~miIntrSP)
      else locked) = signalled at hsignalled
  have htask : doSPTask o d = signalled.setSp .status (signalled.spStatus &&&
      ~~~(spStatusTaskdone ||| spStatusBroke ||| spStatusHalt)) := by
    rw [← hs, ← hl, ← hu]
    unfold doSPTask
    rw [hsplit]
    rfl
  rw [htask]
  exact hend _ hsignalled

/-- Behind the call of the plugin, `do_SP_Task` leaves the flags of the fifo alone. -/
theorem doSPTask_spec (o : Outside) (d : Device) :
    SpKept d (doSPTask o d) ∧ (doSPTask o d).spFlags =
      Mupen64plus.spFlags
        (o.doRspCycles (d.setSp2 .pc (d.sp.regs2 .pc &&& 0xfff)).pluginView).spRegs := by
  obtain ⟨hkept, hregs⟩ := runTask_spec o d
  rw [← hregs]
  let P (e : Device) : Prop :=
    SpKept d e ∧ e.spFlags = Mupen64plus.spFlags (runTask o d).1.sp.regs
  have hsame : ∀ {e e' : Device}, SpSame e e' → P e → P e' := fun hsame hP =>
    ⟨hP.1.trans hsame.toSpKept, by rw [← hP.2, spFlags, spFlags, hsame.regs]⟩
  refine doSPTask_induct (P := P) o d ⟨hkept, rfl⟩ ?_ ?_ ?_ ?_
  · intro e hP
    exact hsame (unlockTask_same e) hP
  · intro e hP
    exact hsame (lockTask_same e) hP
  · intro e delay hP
    exact hsame (delaySpInt_same e delay) hP
  · intro e hP
    refine ⟨⟨hP.1.fifo, hP.1.queued⟩, ?_⟩
    rw [← hP.2]
    refine spFlags_of_status ?_ ?_ ?_ ?_
    · simp
    · simp
    · rw [setSp_sp_regs, Function.update_self, Flags.andNot_and_of_disjoint (by decide), spStatus]
    · rw [setSp_sp_regs, Function.update_self, Flags.andNot_and_of_disjoint (by decide), spStatus]

/-- A write to SP_STATUS: the register, then the task that it starts. -/
theorem updateSpStatus_eq (o : Outside) (d : Device) (w : BitVec 32) :
    updateSpStatus o d w =
      if (d.spStatusWritten w).startsTask w then doSPTask o (d.spStatusWritten w)
      else d.spStatusWritten w := rfl

/-- A write to SP_STATUS leaves the fifo alone, and its flags as the plugin answers them. -/
theorem updateSpStatus_spec (o : Outside) (d : Device) (w : BitVec 32) :
    SpKept d (updateSpStatus o d w) ∧ (updateSpStatus o d w).spFlags =
      if (d.spStatusWritten w).startsTask w then Mupen64plus.spFlags (spTaskAnswer o d w).spRegs
      else d.spFlags := by
  obtain ⟨hkept, hflags⟩ := d.spStatusWritten_spec w
  rw [updateSpStatus_eq]
  split
  · obtain ⟨htask, hanswer⟩ := doSPTask_spec o (d.spStatusWritten w)
    exact ⟨hkept.trans htask, hanswer⟩
  · exact ⟨hkept, hflags⟩

end Device

-- ════════════════════════════════════════════════════════════════════════
-- What each step does
-- ════════════════════════════════════════════════════════════════════════

/-- A transfer that is handed to the fifo. -/
theorem spStep_accepts {d : Device} {a : SpStep} {dma : SpDma} (h : d.spAccepts a = some dma) :
    d.spFlags.full = false ∧ d.spTaskKeeps a ∧ d.spCompletes a = false ∧
      ∃ e : Device, d.spStep a = e.spFifoPush dma.dir ∧ e.spDmaOfRegs dma.dir = dma ∧
        e.spFlags = d.spFlags ∧ e.cp0 = d.cp0 ∧ e.sp.fifo = d.sp.fifo ∧ e.sp.mem = d.sp.mem ∧
        e.rdram = d.rdram := by
  cases a with
  | writeRegs o address value mask =>
    unfold Device.spAccepts at h
    simp only at h
    split at h
    · cases h
    · next hfull =>
      refine ⟨Bool.eq_false_of_not_eq_true hfull, ?_⟩
      split at h
      · next hreg =>
        obtain rfl := Option.some.inj h
        refine ⟨fun hstatus => ?_, rfl, d.setSp .rdLen (maskedWrite (d.sp.regs .rdLen) value mask),
          ?_, rfl, rfl, rfl, rfl, rfl, rfl⟩
        · rw [hreg] at hstatus
          cases hstatus
        · rw [Device.spStep, Device.writeRspRegs]
          simp only [hreg]
          rfl
      · next hreg =>
        obtain rfl := Option.some.inj h
        refine ⟨fun hstatus => ?_, rfl, d.setSp .wrLen (maskedWrite (d.sp.regs .wrLen) value mask),
          ?_, rfl, rfl, rfl, rfl, rfl, rfl⟩
        · rw [hreg] at hstatus
          cases hstatus
        · rw [Device.spStep, Device.writeRspRegs]
          simp only [hreg]
          rfl
      · cases h
  | _ => cases h

/-- A step that starts no task and has nothing to do with a transfer. -/
theorem spStep_other {d : Device} {a : SpStep} (haccepts : d.spAccepts a = none)
    (hend : d.spCompletes a = false) :
    Device.SpKept d (d.spStep a) ∧ ((d.spStep a).spFlags = d.spFlags ↔ d.spTaskKeeps a) := by
  cases a with
  | writeRegs o address value mask =>
    have hlen : ∀ e : Device, e.spFlags.full = true → e.sp.fifo = d.sp.fifo → e.cp0 = d.cp0 →
        e.spFlags = d.spFlags → ∀ dir, Device.SpKept d (e.spFifoPush dir) ∧
          (e.spFifoPush dir).spFlags = d.spFlags := by
      intro e hfull hfifo hcp0 hflags dir
      rw [Device.spFifoPush_full hfull]
      exact ⟨⟨hfifo, by rw [Device.queued, Device.queued, hcp0]⟩, hflags⟩
    have hfull : regAt SpReg.block address = some .rdLen ∨ regAt SpReg.block address = some .wrLen →
        d.spFlags.full = true := by
      intro hreg
      by_contra hfree
      rcases hreg with hreg | hreg <;> simp [Device.spAccepts, hreg, hfree] at haccepts
    have hquiet : regAt SpReg.block address ≠ some .status →
        d.spTaskKeeps (.writeRegs o address value mask) := fun hne hstatus => absurd hstatus hne
    rw [Device.spStep, Device.writeRspRegs]
    cases hreg : regAt SpReg.block address with
    | none => exact ⟨⟨rfl, rfl⟩, iff_of_true rfl (hquiet (by simp [hreg]))⟩
    | some reg =>
      cases reg with
      | status =>
        obtain ⟨hkept, hflags⟩ := Device.updateSpStatus_spec o d (value &&& mask)
        refine ⟨hkept, ?_⟩
        unfold Device.spTaskKeeps
        simp only [hflags, hreg]
        split <;> simp_all
      | rdLen =>
        obtain ⟨hkept, hflags⟩ := hlen (d.setSp .rdLen _) (hfull (.inl hreg)) rfl rfl rfl 1
        exact ⟨hkept, iff_of_true hflags (hquiet (by simp [hreg]))⟩
      | wrLen =>
        obtain ⟨hkept, hflags⟩ := hlen (d.setSp .wrLen _) (hfull (.inr hreg)) rfl rfl rfl 0
        exact ⟨hkept, iff_of_true hflags (hquiet (by simp [hreg]))⟩
      | _ => exact ⟨⟨rfl, rfl⟩, iff_of_true rfl (hquiet (by simp [hreg]))⟩
  | event =>
    have hsame : d.spStep .event = d := by
      have hnext : d.isNext .rspDma = false := hend
      simp [Device.spStep, hnext]
    rw [hsame]
    exact ⟨⟨rfl, rfl⟩, iff_of_true rfl trivial⟩
  | other f keeps =>
    obtain ⟨hflags, hfifo, hqueued⟩ := keeps d
    exact ⟨⟨hfifo, hqueued⟩, iff_of_true hflags trivial⟩

/-- Consistency, with the part that is common to all devices with a completion event set apart. -/
theorem spConsistent_iff (s : SpRun) :
    SpConsistent s ↔ Completion.Settled s.device.spPort s.accepted s.completed ∧
      s.device.spFlags.statusBusy = s.device.spFlags.busy ∧
      s.device.spFlags.statusFull = s.device.spFlags.full ∧
      s.waiting = if s.device.spFlags.full then [s.device.sp.fifo 1] else [] := by
  constructor
  · rintro ⟨hbusy, hsingle, hfull, hsb, hsf, honce, hwaiting⟩
    exact ⟨⟨Completion.queued_eq_iff.mpr ⟨hbusy, hsingle⟩, hfull, honce⟩, hsb, hsf, hwaiting⟩
  · rintro ⟨⟨hqueued, hfull, honce⟩, hsb, hsf, hwaiting⟩
    obtain ⟨hbusy, hsingle⟩ := Completion.queued_eq_iff.mp hqueued
    exact ⟨hbusy, hsingle, hfull, hsb, hsf, honce, hwaiting⟩

/-- A transfer that is handed to a busy signal processor waits in the second place. -/
theorem SpConsistent.park {s : SpRun} (h : SpConsistent s) {a : SpStep} {dma : SpDma}
    (haccepts : s.device.spAccepts a = some dma) (hbusy : s.device.spFlags.busy = true) :
    SpConsistent (s.step a) := by
  obtain ⟨hfull, -, hend, e, hstep, hdma, hflags, hcp0, -, -, -⟩ := spStep_accepts haccepts
  obtain ⟨hsettled, hsb, hsf, hwaiting⟩ := (spConsistent_iff s).mp h
  have hparked : s.device.spStep a = e.spParked dma := by
    rw [hstep, Device.spFifoPush_busy (by rw [hflags, hbusy]) (by rw [hflags, hfull]), hdma]
  have hnew : (s.step a).device.spFlags =
      { s.device.spFlags with full := true, statusFull := true } := by
    change (s.device.spStep a).spFlags = _
    rw [hparked, Device.spFlags_parked, hflags]
  have hqueued : (s.step a).device.queued .rspDma = s.device.queued .rspDma := by
    change (s.device.spStep a).queued .rspDma = _
    rw [hparked]
    exact congrArg (fun c : Cp0 => c.q.countOf .rspDma) hcp0
  rw [spConsistent_iff]
  refine ⟨?_, by rw [hnew]; exact hsb, by rw [hnew], ?_⟩
  · have hport : (s.step a).device.spPort = Completion.Move.park.run s.device.spPort := by
      unfold Device.spPort
      rw [hnew, hqueued]
      rfl
    rw [hport]
    have hrun := (hsettled.run_iff (m := .park) trivial).mpr ⟨hbusy, hfull⟩
    simpa [SpRun.step, haccepts, hend, Completion.Move.accepts, Completion.Move.completes] using
      hrun
  · rw [hnew]
    have hnone : s.waiting = [] := by rw [hwaiting, hfull]; rfl
    have hlast : (s.step a).waiting = [dma] := by simp [SpRun.step, hend, hbusy, haccepts, hnone]
    rw [hlast]
    change [dma] = [(s.device.spStep a).sp.fifo 1]
    rw [hparked]
    rfl

/-- A transfer on an idle signal processor starts at once, and its event needs a node. -/
theorem SpConsistent.start_iff {s : SpRun} (h : SpConsistent s) {a : SpStep} {dma : SpDma}
    (haccepts : s.device.spAccepts a = some dma) (hbusy : s.device.spFlags.busy = false) :
    SpConsistent (s.step a) ↔ s.device.hasRoom = true := by
  obtain ⟨hfull, -, hend, e, hstep, hdma, hflags, hcp0, -, -, -⟩ := spStep_accepts haccepts
  obtain ⟨hsettled, hsb, hsf, hwaiting⟩ := (spConsistent_iff s).mp h
  have hfilled : s.device.spStep a = (e.spFilled dma).doSpDma dma := by
    rw [hstep, Device.spFifoPush_idle (by rw [hflags, hbusy]) (by rw [hflags, hfull]), hdma]
  have hnew : (s.step a).device.spFlags =
      { s.device.spFlags with busy := true, statusBusy := true } := by
    change (s.device.spStep a).spFlags = _
    rw [hfilled, (Device.doSpDma_flags _ _).1, Device.spFlags_filled, hflags]
  have hqueued : (s.step a).device.queued .rspDma =
      s.device.queued .rspDma + s.device.hasRoom.toNat := by
    change (s.device.spStep a).queued .rspDma = _
    rw [hfilled, Device.queued_doSpDma]
    exact congrArg (fun c : Cp0 => c.q.countOf .rspDma + c.q.hasRoom.toNat) hcp0
  have hport : (s.step a).device.spPort =
      (Completion.Move.accept s.device.hasRoom).run s.device.spPort := by
    unfold Device.spPort
    rw [hnew, hqueued]
    rfl
  have hrun := hsettled.run_iff (m := .accept s.device.hasRoom) trivial
  rw [← hport] at hrun
  have hcounts : (s.step a).accepted = s.accepted + 1 ∧ (s.step a).completed = s.completed + 0 := by
    simp [SpRun.step, haccepts, hend]
  rw [spConsistent_iff, hcounts.1, hcounts.2]
  constructor
  · intro hnext
    exact (hrun.mp hnext.1).2
  · intro hroom
    refine ⟨hrun.mpr ⟨hbusy, hroom⟩, by rw [hnew], by rw [hnew]; exact hsf, ?_⟩
    have hsame : (s.step a).waiting = s.waiting := by simp [SpRun.step, hend, hbusy]
    rw [hsame, hwaiting, hnew, hfull]
    rfl

/-- The event of the fifo on a signal processor that is busy. -/
theorem SpConsistent.complete {s : SpRun} (h : SpConsistent s) {a : SpStep}
    (hend : s.device.spCompletes a = true) : SpConsistent (s.step a) := by
  cases a with
  | writeRegs o address value mask => cases hend
  | other f keeps => cases hend
  | event =>
    have hnext : s.device.isNext .rspDma = true := hend
    obtain ⟨hsettled, hsb, hsf, hwaiting⟩ := (spConsistent_iff s).mp h
    have hpos := Device.queued_pos_of_isNext hnext
    have hpop := Device.queued_popEvent hnext
    have hroom := Device.hasRoom_popEvent hnext
    have hstep : (s.step .event).device = s.device.popEvent.rspEndOfDmaEvent := by
      change s.device.spStep .event = _
      rw [Device.spStep, if_pos hnext]
      rfl
    have hcounts : (s.step .event).accepted = s.accepted ∧
        (s.step .event).completed = s.completed + 1 := ⟨rfl, by simp [SpRun.step, hend]⟩
    have htail : (s.step .event).waiting = [] := by
      have hw : (s.step .event).waiting = s.waiting.tail := by simp [SpRun.step, hend]
      rw [hw, hwaiting]
      split <;> rfl
    rw [spConsistent_iff, hcounts.1, hcounts.2, htail, hstep]
    cases hfull : s.device.spFlags.full with
    | true =>
      have hmoved : s.device.popEvent.rspEndOfDmaEvent =
          s.device.popEvent.spMoved.doSpDma (s.device.sp.fifo 1) :=
        Device.rspEndOfDmaEvent_next hfull
      have hnew : s.device.popEvent.rspEndOfDmaEvent.spFlags =
          { s.device.spFlags with full := false, statusFull := false } := by
        rw [hmoved, (Device.doSpDma_flags _ _).1, Device.spFlags_moved]
        rfl
      have hqueued : s.device.popEvent.rspEndOfDmaEvent.queued .rspDma =
          s.device.queued .rspDma - 1 + 1 := by
        rw [hmoved, Device.queued_doSpDma, ← hpop]
        exact congrArg (fun b : Bool => s.device.popEvent.queued .rspDma + b.toNat) hroom
      have hport : s.device.popEvent.rspEndOfDmaEvent.spPort =
          (Completion.Move.advance true).run s.device.spPort := by
        unfold Device.spPort
        rw [hnew, hqueued]
        rfl
      rw [hport, hnew]
      refine ⟨?_, hsb, rfl, rfl⟩
      exact (hsettled.run_iff (m := .advance true) ⟨hpos, hfull⟩).mpr rfl
    | false =>
      have hended : s.device.popEvent.rspEndOfDmaEvent = s.device.popEvent.spEnded :=
        Device.rspEndOfDmaEvent_last hfull
      have hnew : s.device.popEvent.rspEndOfDmaEvent.spFlags =
          { s.device.spFlags with busy := false, statusBusy := false } := by
        rw [hended, Device.spFlags_ended]
        rfl
      have hqueued : s.device.popEvent.rspEndOfDmaEvent.queued .rspDma =
          s.device.queued .rspDma - 1 := by
        rw [hended, ← hpop]
        rfl
      have hport : s.device.popEvent.rspEndOfDmaEvent.spPort =
          Completion.Move.complete.run s.device.spPort := by
        unfold Device.spPort
        rw [hnew, hqueued]
        rfl
      rw [hport, hnew]
      refine ⟨?_, rfl, hsf, ?_⟩
      · exact (hsettled.run_iff (m := .complete) ⟨hpos, hfull⟩).mpr trivial
      · simp only [hfull]
        rfl

/-- A step that has nothing to do with a transfer, but may start a task. -/
theorem SpConsistent.other_iff {s : SpRun} (h : SpConsistent s) {a : SpStep}
    (haccepts : s.device.spAccepts a = none) (hend : s.device.spCompletes a = false) :
    SpConsistent (s.step a) ↔ s.device.spTaskKeeps a := by
  obtain ⟨hkept, hflags⟩ := spStep_other haccepts hend
  obtain ⟨hsettled, hsb, hsf, hwaiting⟩ := (spConsistent_iff s).mp h
  have hcounts : (s.step a).accepted = s.accepted ∧ (s.step a).completed = s.completed ∧
      (s.step a).waiting = s.waiting := by
    simp [SpRun.step, haccepts, hend]
  have hqueued : (s.step a).device.queued .rspDma = s.device.queued .rspDma := hkept.queued
  have hfifo : (s.step a).device.sp.fifo = s.device.sp.fifo := hkept.fifo
  rw [← hflags, spConsistent_iff, hcounts.1, hcounts.2.1, hcounts.2.2]
  constructor
  · -- the count of the events and of the transfers fixes the flags
    rintro ⟨⟨hqueued', -, honce'⟩, hsb', hsf', -⟩
    have hbusy : (s.step a).device.spFlags.busy = s.device.spFlags.busy := by
      have hnat : (s.step a).device.spFlags.busy.toNat = s.device.spFlags.busy.toNat :=
        (hqueued'.symm.trans hqueued).trans hsettled.queued
      exact Bool.eq_iff_iff.mpr (by rw [← Bool.toNat_eq_one, hnat, Bool.toNat_eq_one])
    have hfull : (s.step a).device.spFlags.full = s.device.spFlags.full := by
      have honce := hsettled.once
      change s.accepted = s.completed + (s.step a).device.queued .rspDma +
        (s.step a).device.spFlags.full.toNat at honce'
      change s.accepted = s.completed + s.device.queued .rspDma +
        s.device.spFlags.full.toNat at honce
      rw [hqueued] at honce'
      have hnat : (s.step a).device.spFlags.full.toNat = s.device.spFlags.full.toNat := by omega
      exact Bool.eq_iff_iff.mpr (by rw [← Bool.toNat_eq_one, hnat, Bool.toNat_eq_one])
    change (s.step a).device.spFlags = s.device.spFlags
    rw [SpFlags.mk.injEq]
    exact ⟨hbusy, hfull, by rw [hsb', hsb, hbusy], by rw [hsf', hsf, hfull]⟩
  · intro hsame
    have hnew : (s.step a).device.spFlags = s.device.spFlags := hsame
    have hport : (s.step a).device.spPort = s.device.spPort := by
      unfold Device.spPort
      rw [hnew, hqueued]
    rw [hport, hnew, hfifo]
    exact ⟨hsettled, hsb, hsf, hwaiting⟩

/-- A transfer that starts runs on the memories as they are, like on an idle signal processor. -/
theorem SpConsistent.executes {s : SpRun} (h : SpConsistent s) (a : SpStep) : SpExecutes s a := by
  intro dma hstarts
  unfold SpRun.starts at hstarts
  split at hstarts
  · next hend =>
    cases a with
    | event =>
      have hnext : s.device.isNext .rspDma = true := hend
      have hfull : s.device.spFlags.full = true := by
        by_contra hfree
        rw [h.waiting, if_neg hfree] at hstarts
        cases hstarts
      have hdma : s.device.sp.fifo 1 = dma := by
        rw [h.waiting, if_pos hfull] at hstarts
        exact Option.some.inj hstarts
      have hstep : s.device.spStep .event = s.device.popEvent.rspEndOfDmaEvent := by
        rw [Device.spStep, if_pos hnext]
        rfl
      have hfull' : s.device.popEvent.spFlags.full = true := hfull
      have hsecond : s.device.popEvent.sp.fifo 1 = dma := hdma
      rw [hstep, Device.rspEndOfDmaEvent_next hfull', hsecond]
      exact Device.spAlone_same (d := s.device) (e := s.device.popEvent.spMoved) rfl rfl dma
    | _ => cases hend
  · split at hstarts
    · cases hstarts
    · next hidle =>
      have hbusy := Bool.eq_false_of_not_eq_true hidle
      obtain ⟨hfull, -, -, e, hstep, hdma, hflags, -, -, hmem, hrdram⟩ := spStep_accepts hstarts
      rw [hstep, Device.spFifoPush_idle (by rw [hflags, hbusy]) (by rw [hflags, hfull]), hdma]
      exact Device.spAlone_same (by rw [← hrdram]; rfl) (by rw [← hmem]; rfl) dma

theorem spTaskKeeps_of_accepts {d : Device} {a : SpStep} (h : (d.spAccepts a).isSome) :
    d.spTaskKeeps a := by
  obtain ⟨dma, haccepts⟩ := Option.isSome_iff_exists.mp h
  exact (spStep_accepts haccepts).2.1

/-- **Step rule**: one step keeps the signal processor consistent exactly when it is orderly. -/
theorem spRun_step_iff {s : SpRun} (h : SpConsistent s) (a : SpStep) :
    SpConsistent (s.step a) ↔ SpStep.Orderly s.device a := by
  unfold SpStep.Orderly
  cases haccepts : s.device.spAccepts a with
  | some dma =>
    have hkeeps := spTaskKeeps_of_accepts (d := s.device) (a := a) (by rw [haccepts]; rfl)
    cases hbusy : s.device.spFlags.busy with
    | true => exact iff_of_true (h.park haccepts hbusy) ⟨fun _ hidle => (nomatch hidle), hkeeps⟩
    | false =>
      rw [h.start_iff haccepts hbusy]
      exact ⟨fun hroom => ⟨fun _ _ => hroom, hkeeps⟩, fun horderly => horderly.1 rfl rfl⟩
  | none =>
    cases hend : s.device.spCompletes a with
    | true =>
      have hkeeps : s.device.spTaskKeeps a := by
        cases a with
        | event => trivial
        | _ => cases hend
      exact iff_of_true (h.complete hend) ⟨fun hsome => (nomatch hsome), hkeeps⟩
    | false =>
      rw [h.other_iff haccepts hend]
      exact ⟨fun hkeeps => ⟨fun hsome => (nomatch hsome), hkeeps⟩, fun horderly => horderly.2⟩

/-- **The fifo of the signal processor**: two transfers do the same queued and one after the other,
    and along a run from a consistent state flags, queue and fifo agree and every transfer does what
    it does on an idle signal processor exactly when every step is orderly. -/
theorem sp_consistent_iff (o : Outside) (d : Device) (s : SpRun) (h : SpConsistent s)
    (steps : List SpStep) :
    (d.spFlags.busy = false → d.spFlags.full = false → ∀ r₁ r₂ : SpRequest, SpSameEffect
      (Device.spRequest o (Device.spRequest o d r₁) r₂).rspEndOfDmaEvent.rspEndOfDmaEvent
      (Device.spRequest o (Device.spRequest o d r₁).rspEndOfDmaEvent r₂).rspEndOfDmaEvent) ∧
    ((∀ t ∈ Runs.visited SpRun.step s steps, SpConsistent t) ∧
        Runs.Along SpRun.step SpExecutes s steps ↔
      Runs.Along SpRun.step (fun s a => SpStep.Orderly s.device a) s steps) := by
  refine ⟨fun hbusy hfull => Device.spQueued_eq_sequential o hbusy hfull, ?_⟩
  have hvisited : (∀ t ∈ Runs.visited SpRun.step s steps, SpConsistent t) ↔
      Runs.Along SpRun.step (fun s a => SpStep.Orderly s.device a) s steps :=
    Runs.visited_iff_along (fun _ a hs => spRun_step_iff hs a) h
  rw [← hvisited]
  constructor
  · exact And.left
  · intro hall
    exact ⟨hall, Runs.along_of_visited (fun _ a hs => hs.executes a) hall⟩

instance decidableSpTaskKeeps (d : Device) (a : SpStep) : Decidable (d.spTaskKeeps a) := by
  cases a <;> unfold Device.spTaskKeeps <;> infer_instance

instance decidableSpOrderly (d : Device) (a : SpStep) : Decidable (SpStep.Orderly d a) := by
  unfold SpStep.Orderly
  infer_instance

theorem spConsistent_fresh : SpConsistent ⟨freshConsole, 0, 0, []⟩ :=
  ⟨by decide, by decide, by decide, by decide, by decide,
    by decide, by decide⟩

/-- A transfer to DMEM, one to RDRAM behind it, a task, and the events of both. -/
theorem sp_consistent_fifo :
    (SpSameEffect
        (Device.spRequest quietOutside (Device.spRequest quietOutside freshConsole
          ⟨(0x1000, 0xffffffff), (0x100, 0xffffffff), (7, 0xffffffff), false⟩)
          ⟨(0, 0xffffffff), (0x200, 0xffffffff), (7, 0xffffffff),
            true⟩).rspEndOfDmaEvent.rspEndOfDmaEvent
        (Device.spRequest quietOutside (Device.spRequest quietOutside freshConsole
          ⟨(0x1000, 0xffffffff), (0x100, 0xffffffff), (7, 0xffffffff), false⟩).rspEndOfDmaEvent
          ⟨(0, 0xffffffff), (0x200, 0xffffffff), (7, 0xffffffff), true⟩).rspEndOfDmaEvent) ∧
    ∀ t ∈ Runs.visited SpRun.step ⟨freshConsole, 0, 0, []⟩
      [.writeRegs quietOutside 0x04040008 7 0xffffffff,
        .writeRegs quietOutside 0x0404000c 7 0xffffffff,
        .writeRegs quietOutside 0x04040010 1 0xffffffff, .event, .event], SpConsistent t :=
  ⟨(sp_consistent_iff quietOutside freshConsole _ spConsistent_fresh []).1 (by decide)
      (by decide) _ _,
    ((sp_consistent_iff quietOutside freshConsole _ spConsistent_fresh _).2.mpr
      (by decide)).1⟩

/-- A plugin that runs a transfer of its own in a task, and takes back DMA_BUSY behind it. -/
def transferringTask : Outside :=
  { quietOutside with doRspCycles := fun v => { v with
      spRegs := Function.update (Function.update v.spRegs .dmaBusy 0) .status
        (v.spRegs .status &&& ~~~spStatusDmaBusy) } }

/-- A task in the middle of a transfer, with a transfer of its own, leaves an event behind. -/
theorem sp_inconsistent_task :
    ¬∀ (s : SpRun) (steps : List SpStep), SpConsistent s →
      ∀ t ∈ Runs.visited SpRun.step s steps, SpConsistent t := by
  intro h
  let steps : List SpStep :=
    [.writeRegs transferringTask 0x04040008 7 0xffffffff,
      .writeRegs transferringTask 0x04040010 1 0xffffffff]
  have hlast := h _ steps spConsistent_fresh _
    (Runs.runFrom_mem_visited SpRun.step ⟨freshConsole, 0, 0, []⟩ steps)
  exact absurd (hlast.busy.mpr (by decide)) (by decide)

end Mupen64plus
