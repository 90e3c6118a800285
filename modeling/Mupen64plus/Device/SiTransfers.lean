import Mupen64plus.Lib.Completion
import Mupen64plus.Device.Queued

/-!
# Transfers of the serial interface

Register writes, stores of the CPU to PIF RAM and completion events, in any order and with any
steps of other devices between them. A store to PIF RAM starts a transfer without a look at the
busy bits, so the interface is in order along a run exactly when no such store falls into a transfer
and the pool of events has a node for each transfer.

## Main definitions

- `SiStep`, `Device.siStep` — the steps
- `SiRequest`, `SiRun` — transfers, and the interface with the transfers that are not completed
- `SiStep.Orderly` — the condition

## Main results

- `siRun_step_iff` — one step keeps the interface consistent exactly when it is orderly
- `si_consistent_iff` — busy bits, queue and direction agree along a run, no transfer replaces
  another and every transfer copies its data, exactly when every step is orderly
-/

namespace Mupen64plus

namespace Device

/-- DMA_BUSY or IO_BUSY. -/
def siBusy (d : Device) : Bool := d.si.regs .status &&& (siStatusDmaBusy ||| siStatusIoBusy) != 0

end Device

/-- The busy bits, the direction and the event of the serial interface are as they were. -/
def KeepsSi (f : Device → Device) : Prop :=
  ∀ d, (f d).siBusy = d.siBusy ∧ (f d).siDmaBusy = d.siDmaBusy ∧ (f d).si.dmaDir = d.si.dmaDir ∧
    (f d).queued .si = d.queued .si

/-- What happens to the serial interface; `other` is a step of anything else. -/
inductive SiStep where
  | writeRegs (o : Outside) (address value mask : BitVec 32)
  | writePif (address value mask : BitVec 32)
  | event (o : Outside)
  | other (f : Device → Device) (keeps : KeepsSi f)

/-- The transfers: DMA either way, and the store of a word to PIF RAM. -/
inductive SiRequest where
  | readDma | writeDma | pifWrite
  deriving DecidableEq, Repr

/-- The direction a transfer leaves in `dma_dir`. -/
def SiRequest.dir : SiRequest → SiDmaDir
  | .readDma => .dmaRead
  | .writeDma | .pifWrite => .dmaWrite

namespace Device

/-- One step. The event of another device at the head of the queue is left to `other`. -/
def siStep (d : Device) : SiStep → Device
  | .writeRegs o address value mask => writeSiRegs o d address value mask
  | .writePif address value mask => d.writePifMem address value mask
  | .event o => if d.isNext .si then interruptHandler o d .si else d
  | .other f _ => f d

/-- The PIF address that a write leaves in a register is known to `validate_dma`. -/
def siKnownAfter (d : Device) (reg : SiReg) (value mask : BitVec 32) : Bool :=
  (d.setSi reg (maskedWrite (d.si.regs reg) value mask)).siAddressKnown reg

/-- The transfer that a step starts. -/
def siStarts (d : Device) : SiStep → Option SiRequest
  | .writeRegs _ address value mask =>
    match regAt SiReg.block address with
    | some .pifAddrRd64b =>
      if d.siKnownAfter .pifAddrRd64b value mask && !d.siDmaBusy then some .readDma else none
    | some .pifAddrWr64b =>
      if d.siKnownAfter .pifAddrWr64b value mask && !d.siDmaBusy then some .writeDma else none
    | _ => none
  | .writePif address _ _ => if pifAddress address < 0x7c0 then none else some .pifWrite
  | _ => none

/-- The step is the completion event of a transfer. -/
def siCompletes (d : Device) : SiStep → Bool
  | .event _ => d.isNext .si
  | _ => false

def siPort (d : Device) : Completion.Port := ⟨d.siBusy, false, d.queued .si⟩

/-- The transfer `dma_dir` tells of, if any. -/
def siInFlight (d : Device) : List SiDmaDir := if d.si.dmaDir = .noDma then [] else [d.si.dmaDir]

end Device

/-- The interface with the transfers that were started and are not completed, the oldest first. -/
structure SiRun where
  device : Device
  pending : List SiRequest

def SiRun.step (s : SiRun) (a : SiStep) : SiRun where
  device := s.device.siStep a
  pending :=
    (if s.device.siCompletes a then s.pending.tail else s.pending) ++ (s.device.siStarts a).toList

/-- The busy bits are set exactly while one event is queued and a direction is set, there is never a
    second event, and `dma_dir` tells of the one transfer that was started and is not completed. -/
structure SiConsistent (s : SiRun) : Prop where
  busy : s.device.siBusy = true ↔ s.device.queued .si = 1 ∧ s.device.si.dmaDir ≠ .noDma
  single : s.device.queued .si ≤ 1
  pending : s.pending.map SiRequest.dir = s.device.siInFlight
  dmaBusy : s.device.siDmaBusy = s.device.siBusy
  once : s.pending.length = s.device.queued .si

/-- A transfer starts only while none is in flight and the pool has a node for its event. -/
def SiStep.Orderly (d : Device) (a : SiStep) : Prop :=
  (d.siStarts a).isSome = true → d.siBusy = false ∧ d.hasRoom = true

instance decidableSiOrderly (d : Device) (a : SiStep) : Decidable (SiStep.Orderly d a) := by
  unfold SiStep.Orderly
  infer_instance

/-- What a step copies: a write DMA fills PIF RAM from RDRAM when it starts, and a read DMA fills
    RDRAM from PIF RAM at its completion. -/
structure SiCopies (s : SiRun) (a : SiStep) : Prop where
  write : s.device.siStarts a = some .writeDma → ∀ i < 64,
    (s.device.siStep a).pif.ram i =
      wordByte (s.device.rdram.dram (s.device.siDramIndex + i / 4)) i
  read : s.device.siCompletes a = true → s.pending.head? = some .readDma → ∀ i < 16,
    (s.device.siStep a).rdram.dram (s.device.siDramIndex + i) =
      ramWord s.device.pif.ram (4 * i)

-- ════════════════════════════════════════════════════════════════════════
-- What each step does
-- ════════════════════════════════════════════════════════════════════════

namespace Device

/-- What the PIF does leaves the serial interface, the core and RDRAM alone. -/
structure PifOnly (d d' : Device) : Prop where
  si : d'.si = d.si
  cp0 : d'.cp0 = d.cp0
  rdram : d'.rdram = d.rdram

theorem PifOnly.refl (d : Device) : PifOnly d d := ⟨rfl, rfl, rfl⟩

theorem PifOnly.trans {d d' d'' : Device} (h : PifOnly d d') (h' : PifOnly d' d'') :
    PifOnly d d'' :=
  ⟨h'.si.trans h.si, h'.cp0.trans h.cp0, h'.rdram.trans h.rdram⟩

theorem joybus_pifOnly (d : Device) (f : JoybusView → JoybusView) : PifOnly d (d.joybus f) :=
  ⟨rfl, rfl, rfl⟩

theorem setRam_pifOnly (d : Device) (ram : Bytes) : PifOnly d (d.setRam ram) := ⟨rfl, rfl, rfl⟩

theorem disableFrom_pifOnly (d : Device) (k : ℕ) : PifOnly d (d.disableFrom k) := ⟨rfl, rfl, rfl⟩

theorem setChannelByte_pifOnly (d : Device) (k : Fin 5) (buf : ChannelBuf) (j : ℕ) (b : BitVec 8) :
    PifOnly d (d.setChannelByte k buf j b) := by
  cases buf <;> exact ⟨rfl, rfl, rfl⟩

theorem processChannel_pifOnly (o : Outside) (d : Device) (k : Fin 5) :
    PifOnly d (processChannel o d k) := by
  unfold processChannel
  cases d.pif.channels k with
  | none => exact .refl d
  | some c =>
    have hmasked := (d.setChannelByte_pifOnly k c.buf 0 (d.channelByte k c.buf 0 &&& 0x3f)).trans
      (setChannelByte_pifOnly _ k c.buf 1 ((d.setChannelByte k c.buf 0
        (d.channelByte k c.buf 0 &&& 0x3f)).channelByte k c.buf 1 &&& 0x3f))
    simp only
    split
    · exact hmasked.trans (joybus_pifOnly _ _)
    · exact hmasked.trans (setChannelByte_pifOnly _ _ _ _ _)

theorem updatePifRam_pifOnly (o : Outside) (d : Device) : PifOnly d (updatePifRam o d) := by
  have hfold : ∀ (ks : List (Fin 5)) (d : Device), PifOnly d (ks.foldl (processChannel o) d) := by
    intro ks
    induction ks with
    | nil => exact .refl
    | cons k ks ih => exact fun d => (processChannel_pifOnly o d k).trans (ih _)
  exact (hfold _ d).trans (joybus_pifOnly _ _)

theorem setupPifChannel_pifOnly (o : Outside) (d : Device) (k : Fin 5) (buf : ChannelBuf) :
    PifOnly d (setupPifChannel o d k buf).2 := ⟨rfl, rfl, rfl⟩

theorem resetCommand_pifOnly (d : Device) (k : Fin 5) : PifOnly d (d.resetCommand k) :=
  ⟨rfl, rfl, rfl⟩

theorem setupChannelsLoop_pifOnly (o : Outside) (fuel : ℕ) (d : Device) (i k : ℕ) :
    PifOnly d (setupChannelsLoop o fuel d i k) := by
  induction fuel generalizing d i k with
  | zero => exact .refl d
  | succ fuel ih =>
    unfold setupChannelsLoop
    split
    · split
      · exact (show PifOnly d (d.disablePifChannel _) from ⟨rfl, rfl, rfl⟩).trans (ih _ _ _)
      · exact ih _ _ _
      · exact d.disableFrom_pifOnly k
      · exact ((d.resetCommand_pifOnly _).trans (setupPifChannel_pifOnly o _ _ _)).trans (ih _ _ _)
      · split
        · exact ih _ _ _
        · split
          · exact .refl d
          · exact (setupPifChannel_pifOnly o d _ _).trans (ih _ _ _)
    · exact .refl d

theorem processPifRam_pifOnly (o : Outside) (d : Device) : PifOnly d (processPifRam o d) := by
  have hset : ∀ (c : Prop) [Decidable c] (d f : Device), PifOnly d f →
      PifOnly d (if c then f else d) := by
    intro c _ d f h
    split
    · exact h
    · exact .refl d
  unfold processPifRam
  simp only
  split
  · exact .refl d
  · refine .trans ?_ (setRam_pifOnly _ _)
    refine .trans (.trans ?_ (hset _ _ _ ?_)) (hset _ _ _ (setRam_pifOnly _ _))
    · exact hset _ _ _ (setupChannelsLoop_pifOnly o 70 d 0 0)
    · exact (disableFrom_pifOnly _ 0).trans (setRam_pifOnly _ _)

/-- A transfer has started: both busy flags that count are set, and the event is queued. -/
structure SiStarted (d d' : Device) (dir : SiDmaDir) : Prop where
  busy : d'.siBusy = true
  dmaBusy : d'.siDmaBusy = true
  dir : d'.si.dmaDir = dir
  queued : d'.queued .si = d.queued .si + d.hasRoom.toNat

theorem SiStarted.of_eq {d e d' : Device} {dir : SiDmaDir} (h : SiStarted e d' dir)
    (hcp0 : e.cp0 = d.cp0) : SiStarted d d' dir where
  busy := h.busy
  dmaBusy := h.dmaBusy
  dir := h.dir
  queued := h.queued.trans (by simp only [Device.queued, hasRoom, hcp0])

theorem siBusy_of_or {d : Device} {v x : BitVec 32} (hv : v &&& siStatusDmaBusy ≠ 0)
    (hstatus : d.si.regs .status = x ||| v) : d.siBusy = true ∧ d.siDmaBusy = true := by
  have hboth : v &&& (siStatusDmaBusy ||| siStatusIoBusy) ≠ 0 := by
    rw [BitVec.and_comm, Flags.or_and_ne_zero, BitVec.and_comm]
    exact .inl hv
  unfold siBusy siDmaBusy
  rw [hstatus, bne_iff_ne, bne_iff_ne]
  exact ⟨Flags.or_and_ne_zero.mpr (.inr hboth), Flags.or_and_ne_zero.mpr (.inr hv)⟩

/-- The end of both DMA starters. -/
theorem siStarted_starts (o : Outside) {d d' : Device} {dir : SiDmaDir} (hdir : d'.si.dmaDir = dir)
    (hq : d'.cp0.q = d.cp0.q) : SiStarted d (siStarted o d') dir := by
  obtain ⟨hbusy, hdma⟩ := siBusy_of_or (d := siStarted o d') (v := siStatusDmaBusy)
    (x := d'.si.regs .status) (by decide) (by simp [siStarted, updateCount, addEvent])
  refine ⟨hbusy, hdma, hdir, ?_⟩
  unfold siStarted
  rw [queued_addEvent_self]
  simp only [queued, hasRoom, setSi_cp0, updateCount_q, hq]

/-- Nothing that counts has changed. -/
structure SiUnchanged (d d' : Device) : Prop where
  busy : d'.siBusy = d.siBusy
  dmaBusy : d'.siDmaBusy = d.siDmaBusy
  dir : d'.si.dmaDir = d.si.dmaDir
  queued : d'.queued .si = d.queued .si

theorem SiUnchanged.refl (d : Device) : SiUnchanged d d := ⟨rfl, rfl, rfl, rfl⟩

theorem siError_unchanged (d : Device) :
    SiUnchanged d (d.setSi .status (d.si.regs .status ||| siStatusDmaError)) where
  busy := by
    unfold siBusy
    rw [setSi_si_regs, Function.update_self, Flags.or_and_of_disjoint (by decide)]
  dmaBusy := by
    unfold siDmaBusy
    rw [setSi_si_regs, Function.update_self, Flags.or_and_of_disjoint (by decide)]
  dir := rfl
  queued := rfl

theorem siAcknowledge_unchanged (d : Device) :
    SiUnchanged d ((d.setSi .status (d.si.regs .status &&& ~~~siStatusInterrupt)).clearRcpInterrupt
      miIntrSI) where
  busy := by
    change (d.setSi .status (d.si.regs .status &&& ~~~siStatusInterrupt)).siBusy = d.siBusy
    unfold siBusy
    rw [setSi_si_regs, Function.update_self, Flags.andNot_and_of_disjoint (by decide)]
  dmaBusy := by
    change (d.setSi .status (d.si.regs .status &&& ~~~siStatusInterrupt)).siDmaBusy = d.siDmaBusy
    unfold siDmaBusy
    rw [setSi_si_regs, Function.update_self, Flags.andNot_and_of_disjoint (by decide)]
  dir := rfl
  queued := queued_clearRcpInterrupt _ _ (by decide)

/-- Both DMA starters refuse an unknown address, and a second transfer. -/
theorem siRefused_unchanged {d e : Device} {reg : SiReg}
    (h : (d.siAddressKnown reg && !d.siDmaBusy) = false) :
    SiUnchanged d
      (if !d.siAddressKnown reg then d
      else if d.siDmaBusy then d.setSi .status (d.si.regs .status ||| siStatusDmaError)
      else e) := by
  split
  · exact .refl d
  · next hknown =>
    have hbusy : d.siDmaBusy = true := by simp_all
    rw [if_pos hbusy]
    exact d.siError_unchanged

theorem dmaSiRead_starts {o : Outside} {d : Device}
    (h : (d.siAddressKnown .pifAddrRd64b && !d.siDmaBusy) = true) :
    SiStarted d (dmaSiRead o d) .dmaRead := by
  have hpif := updatePifRam_pifOnly o (d.setDmaDir .dmaRead)
  have hq : (updatePifRam o (d.setDmaDir .dmaRead)).cp0.q = d.cp0.q := by rw [hpif.cp0]; rfl
  have hdir : (updatePifRam o (d.setDmaDir .dmaRead)).si.dmaDir = .dmaRead := by rw [hpif.si]; rfl
  have hstart : dmaSiRead o d = siStarted o (updatePifRam o (d.setDmaDir .dmaRead)) := by
    unfold dmaSiRead
    simp_all
  rw [hstart]
  exact siStarted_starts o hdir hq

theorem dmaSiWrite_eq {o : Outside} {d : Device}
    (h : (d.siAddressKnown .pifAddrWr64b && !d.siDmaBusy) = true) :
    dmaSiWrite o d = siStarted o (d.setDmaDir .dmaWrite).copyPifRdram := by
  unfold dmaSiWrite
  simp_all

theorem dmaSiWrite_starts {o : Outside} {d : Device}
    (h : (d.siAddressKnown .pifAddrWr64b && !d.siDmaBusy) = true) :
    SiStarted d (dmaSiWrite o d) .dmaWrite := by
  rw [dmaSiWrite_eq h]
  exact siStarted_starts o rfl rfl

theorem writePifMem_starts {d : Device} {address : BitVec 32} (value mask : BitVec 32)
    (h : ¬pifAddress address < 0x7c0) : SiStarted d (d.writePifMem address value mask)
      .dmaWrite := by
  unfold writePifMem
  rw [if_neg h]
  simp only
  obtain ⟨hbusy, hdma⟩ := siBusy_of_or
    (d := (((d.setRam (setRamWord d.pif.ram (pifAddress address - 0x7c0) (maskedWrite
      (ramWord d.pif.ram (pifAddress address - 0x7c0)) value mask))).setDmaDir
        .dmaWrite).updateCount).setSi .status
      (d.si.regs .status ||| (siStatusDmaBusy ||| siStatusIoBusy)))
    (v := siStatusDmaBusy ||| siStatusIoBusy) (x := d.si.regs .status) (by decide) (by simp)
  refine ⟨hbusy, hdma, rfl, ?_⟩
  rw [queued_addEvent_self]
  rfl

/-- The state in which `si_end_of_dma_event` ends the DMA. -/
def siProcessed (o : Outside) (d : Device) : Device :=
  match d.si.dmaDir with
  | .dmaWrite => processPifRam o d
  | .dmaRead => d.copyPifRdram
  | _ => d

theorem siProcessed_keeps (o : Outside) (d : Device) :
    (siProcessed o d).si = d.si ∧ (siProcessed o d).cp0 = d.cp0 := by
  unfold siProcessed
  split
  · exact ⟨(processPifRam_pifOnly o d).si, (processPifRam_pifOnly o d).cp0⟩
  · unfold copyPifRdram
    split <;> exact ⟨rfl, rfl⟩
  · exact ⟨rfl, rfl⟩

theorem siEndOfDmaEvent_eq (o : Outside) (d : Device) :
    siEndOfDmaEvent o d = (((siProcessed o d).setDmaDir .noDma).setSi .status
      (((siProcessed o d).si.regs .status &&& ~~~(siStatusDmaBusy ||| siStatusIoBusy)) |||
        siStatusInterrupt)).raiseRcpInterrupt miIntrSI := rfl

theorem siEndOfDmaEvent_si (o : Outside) (d : Device) :
    (siEndOfDmaEvent o d).si = ((d.setDmaDir .noDma).setSi .status
      ((d.si.regs .status &&& ~~~(siStatusDmaBusy ||| siStatusIoBusy)) |||
        siStatusInterrupt)).si := by
  obtain ⟨r, hr⟩ := raiseRcpInterrupt_eq (((siProcessed o d).setDmaDir .noDma).setSi .status
    (((siProcessed o d).si.regs .status &&& ~~~(siStatusDmaBusy ||| siStatusIoBusy)) |||
      siStatusInterrupt)) miIntrSI
  rw [siEndOfDmaEvent_eq, hr]
  simp only [setMi, setSi, setDmaDir, (siProcessed_keeps o d).1]

theorem siEndOfDmaEvent_q (o : Outside) (d : Device) : (siEndOfDmaEvent o d).cp0.q = d.cp0.q := by
  rw [siEndOfDmaEvent_eq, raiseRcpInterrupt_q, setSi_cp0]
  exact congrArg Cp0.q (siProcessed_keeps o d).2

/-- The completion event clears the busy bits and the direction. -/
theorem siEndOfDmaEvent_ends (o : Outside) (d : Device) :
    (siEndOfDmaEvent o d).siBusy = false ∧ (siEndOfDmaEvent o d).siDmaBusy = false ∧
      (siEndOfDmaEvent o d).si.dmaDir = .noDma := by
  unfold siBusy siDmaBusy
  rw [siEndOfDmaEvent_si]
  refine ⟨?_, ?_, rfl⟩
  · rw [setSi_si_regs, Function.update_self, Flags.or_and_of_disjoint (by decide),
      Flags.andNot_and_of_covered (by decide)]
    rfl
  · rw [setSi_si_regs, Function.update_self, Flags.or_and_of_disjoint (by decide),
      Flags.andNot_and_of_covered (by decide)]
    rfl

/-- The completion of a read DMA copies PIF RAM to RDRAM. -/
theorem siEndOfDmaEvent_read (o : Outside) {d : Device} (h : d.si.dmaDir = .dmaRead) {i : ℕ}
    (hi : i < 16) :
    (siEndOfDmaEvent o d).rdram.dram (d.siDramIndex + i) = ramWord d.pif.ram (4 * i) := by
  have hprocessed : siProcessed o d = d.copyPifRdram := by
    unfold siProcessed
    rw [h]
  obtain ⟨r, hr⟩ := raiseRcpInterrupt_eq (((siProcessed o d).setDmaDir .noDma).setSi .status
    (((siProcessed o d).si.regs .status &&& ~~~(siStatusDmaBusy ||| siStatusIoBusy)) |||
      siStatusInterrupt)) miIntrSI
  rw [siEndOfDmaEvent_eq, hr]
  change (siProcessed o d).rdram.dram _ = _
  rw [hprocessed]
  unfold copyPifRdram
  simp [h, setDram, hi]

theorem siStep_starts {d : Device} {a : SiStep} {r : SiRequest} (h : d.siStarts a = some r) :
    SiStarted d (d.siStep a) r.dir := by
  cases a with
  | writeRegs o address value mask =>
    unfold siStarts at h
    rw [siStep, writeSiRegs]
    simp only at h
    split at h
    · next hreg =>
      split at h
      · next hgo =>
        obtain rfl := Option.some.inj h
        simp only [hreg]
        exact (dmaSiRead_starts (d := d.setSi .pifAddrRd64b _) hgo).of_eq rfl
      · cases h
    · next hreg =>
      split at h
      · next hgo =>
        obtain rfl := Option.some.inj h
        simp only [hreg]
        exact (dmaSiWrite_starts (d := d.setSi .pifAddrWr64b _) hgo).of_eq rfl
      · cases h
    · cases h
  | writePif address value mask =>
    unfold siStarts at h
    simp only at h
    split at h
    · cases h
    · next hram =>
      obtain rfl := Option.some.inj h
      exact writePifMem_starts value mask hram
  | event o => cases h
  | other f keeps => cases h

theorem writeSiRegs_unchanged {o : Outside} {d : Device} {address value mask : BitVec 32}
    (h : d.siStarts (.writeRegs o address value mask) = none) :
    SiUnchanged d (writeSiRegs o d address value mask) := by
  unfold writeSiRegs
  unfold siStarts at h
  cases hreg : regAt SiReg.block address with
  | none => exact .refl d
  | some reg =>
    simp only [hreg] at h
    cases reg with
    | pifAddrRd64b =>
      have hrefused : (d.siKnownAfter .pifAddrRd64b value mask && !d.siDmaBusy) = false := by
        simpa using h
      have := siRefused_unchanged (d := d.setSi .pifAddrRd64b
        (maskedWrite (d.si.regs .pifAddrRd64b) value mask))
        (e := siStarted o (updatePifRam o ((d.setSi .pifAddrRd64b
          (maskedWrite (d.si.regs .pifAddrRd64b) value mask)).setDmaDir .dmaRead))) hrefused
      exact ⟨this.busy, this.dmaBusy, this.dir, this.queued⟩
    | pifAddrWr64b =>
      have hrefused : (d.siKnownAfter .pifAddrWr64b value mask && !d.siDmaBusy) = false := by
        simpa using h
      have := siRefused_unchanged (d := d.setSi .pifAddrWr64b
        (maskedWrite (d.si.regs .pifAddrWr64b) value mask))
        (e := siStarted o ((d.setSi .pifAddrWr64b
          (maskedWrite (d.si.regs .pifAddrWr64b) value mask)).setDmaDir .dmaWrite).copyPifRdram)
        hrefused
      exact ⟨this.busy, this.dmaBusy, this.dir, this.queued⟩
    | status => exact d.siAcknowledge_unchanged
    | dramAddr => exact ⟨rfl, rfl, rfl, rfl⟩
    | _ => exact .refl d

theorem siStep_unchanged {d : Device} {a : SiStep} (hstart : d.siStarts a = none)
    (hend : d.siCompletes a = false) : SiUnchanged d (d.siStep a) := by
  cases a with
  | writeRegs o address value mask => exact writeSiRegs_unchanged hstart
  | writePif address value mask =>
    have hrom : pifAddress address < 0x7c0 := by
      by_contra hram
      simp [siStarts, hram] at hstart
    have hsame : d.siStep (.writePif address value mask) = d := by
      rw [siStep, writePifMem, if_pos hrom]
    rw [hsame]
    exact .refl d
  | event o =>
    have hnext : d.isNext .si = false := hend
    have hsame : d.siStep (.event o) = d := by simp [siStep, hnext]
    rw [hsame]
    exact .refl d
  | other f keeps =>
    obtain ⟨hbusy, hdma, hdir, hqueued⟩ := keeps d
    exact ⟨hbusy, hdma, hdir, hqueued⟩

end Device

/-- The move that one step makes. -/
def siMove (d : Device) (a : SiStep) : Completion.Move :=
  if (d.siStarts a).isSome then .accept d.hasRoom
  else if d.siCompletes a then .complete
  else .keep

theorem siMove_possible (d : Device) (a : SiStep) : (siMove d a).Possible d.siPort := by
  unfold siMove
  split
  · trivial
  · split
    · next hend =>
      cases a with
      | event o => exact ⟨Device.queued_pos_of_isNext hend, rfl⟩
      | _ => cases hend
    · trivial

theorem siCompletes_step {d : Device} {a : SiStep} (hend : d.siCompletes a = true) :
    (d.siStep a).siBusy = false ∧ (d.siStep a).siDmaBusy = false ∧
      (d.siStep a).si.dmaDir = .noDma ∧ (d.siStep a).queued .si = d.queued .si - 1 := by
  cases a with
  | event o =>
    have hnext : d.isNext .si = true := hend
    have hstep : d.siStep (.event o) = Device.siEndOfDmaEvent o d.popEvent := by
      rw [Device.siStep, if_pos hnext]
      rfl
    obtain ⟨hbusy, hdma, hdir⟩ := Device.siEndOfDmaEvent_ends o d.popEvent
    rw [hstep]
    refine ⟨hbusy, hdma, hdir, ?_⟩
    rw [← Device.queued_popEvent hnext, Device.queued, Device.siEndOfDmaEvent_q]
  | _ => cases hend

theorem siStarts_ne_completes {d : Device} {a : SiStep} {r : SiRequest}
    (h : d.siStarts a = some r) : d.siCompletes a = false := by
  cases a with
  | event o => cases h
  | _ => rfl

theorem siPort_step (d : Device) (a : SiStep) : (d.siStep a).siPort =
    (siMove d a).run d.siPort := by
  unfold siMove Device.siPort
  cases hstart : d.siStarts a with
  | some r =>
    have h := Device.siStep_starts hstart
    rw [h.busy, h.queued]
    rfl
  | none =>
    cases hend : d.siCompletes a with
    | true =>
      obtain ⟨hbusy, -, -, hqueued⟩ := siCompletes_step hend
      rw [hbusy, hqueued]
      rfl
    | false =>
      have h := Device.siStep_unchanged hstart hend
      rw [h.busy, h.queued]
      rfl

/-- A transfer and a completion counted on both sides. -/
theorem settled_succ_iff {p : Completion.Port} {accepted completed : ℕ} :
    Completion.Settled p (accepted + 1) (completed + 1) ↔
      Completion.Settled p accepted completed := by
  constructor
  · rintro ⟨hqueued, hfull, honce⟩
    exact ⟨hqueued, hfull, by omega⟩
  · rintro ⟨hqueued, hfull, honce⟩
    exact ⟨hqueued, hfull, by omega⟩

/-- Consistency, with the part that is common to all devices with a completion event set apart. -/
theorem siConsistent_iff (s : SiRun) :
    SiConsistent s ↔ Completion.Settled s.device.siPort s.pending.length 0 ∧
      s.pending.map SiRequest.dir = s.device.siInFlight ∧
      s.device.siDmaBusy = s.device.siBusy := by
  have hlength : s.device.siInFlight.length = if s.device.si.dmaDir = .noDma then 0 else 1 := by
    unfold Device.siInFlight
    split <;> rfl
  constructor
  · rintro ⟨hbusy, hsingle, hpending, hdma, honce⟩
    have hdir := congrArg List.length hpending
    rw [List.length_map, honce, hlength] at hdir
    refine ⟨⟨?_, nofun, ?_⟩, hpending, hdma⟩
    · change s.device.queued .si = s.device.siBusy.toNat
      cases hb : s.device.siBusy with
      | true => exact (hbusy.mp hb).1
      | false =>
        have hnot : ¬(s.device.queued .si = 1 ∧ s.device.si.dmaDir ≠ .noDma) := by
          rw [← hbusy, hb]
          exact Bool.false_ne_true
        by_cases hnone : s.device.si.dmaDir = .noDma
        · rw [if_pos hnone] at hdir
          exact hdir
        · rw [if_neg hnone] at hdir
          exact absurd ⟨hdir, hnone⟩ hnot
    · rw [honce]
      simp [Device.siPort]
  · rintro ⟨⟨hqueued, -, honce⟩, hpending, hdma⟩
    change s.device.queued .si = s.device.siBusy.toNat at hqueued
    have hlen : s.pending.length = s.device.queued .si := by simpa [Device.siPort] using honce
    have hdir := congrArg List.length hpending
    rw [List.length_map, hlen, hlength] at hdir
    have hle := Bool.toNat_le s.device.siBusy
    refine ⟨?_, by omega, hpending, hdma, hlen⟩
    cases hb : s.device.siBusy with
    | true =>
      rw [hb, Bool.toNat_true] at hqueued
      refine ⟨fun _ => ⟨hqueued, fun hnone => ?_⟩, fun _ => rfl⟩
      rw [if_pos hnone] at hdir
      omega
    | false =>
      rw [hb, Bool.toNat_false] at hqueued
      constructor
      · exact fun h => absurd h Bool.false_ne_true
      · exact fun h => absurd h.1 (by omega)

/-- **Step rule**: one step keeps the interface consistent exactly when it is orderly. -/
theorem siRun_step_iff {s : SiRun} (h : SiConsistent s) (a : SiStep) :
    SiConsistent (s.step a) ↔ SiStep.Orderly s.device a := by
  obtain ⟨hsettled, hpending, hdma⟩ := (siConsistent_iff s).mp h
  have hrun := hsettled.run_iff (siMove_possible s.device a)
  rw [← siPort_step] at hrun
  rw [siConsistent_iff]
  unfold SiStep.Orderly
  cases hstart : s.device.siStarts a with
  | some r =>
    have hstep := Device.siStep_starts hstart
    have hmove : siMove s.device a = .accept s.device.hasRoom := by simp [siMove, hstart]
    have hnext : (s.step a).pending = s.pending ++ [r] := by
      simp [SiRun.step, siStarts_ne_completes hstart, hstart]
    rw [hmove] at hrun
    rw [hnext, List.length_append]
    constructor
    · rintro ⟨hs, -, -⟩ -
      exact hrun.mp hs
    · intro hclean
      obtain ⟨hidle, hroom⟩ := hclean rfl
      refine ⟨hrun.mpr ⟨hidle, hroom⟩, ?_, ?_⟩
      · have hnil : s.pending = [] := by
          rw [← List.length_eq_zero_iff, h.once]
          have hq := hsettled.queued
          change s.device.queued .si = s.device.siBusy.toNat at hq
          rw [hq, hidle]
          rfl
        have hdir : (s.step a).device.siInFlight = [r.dir] := by
          unfold Device.siInFlight
          rw [show (s.step a).device.si.dmaDir = r.dir from hstep.dir]
          cases r <;> rfl
        rw [hnil, hdir]
        rfl
      · exact hstep.dmaBusy.trans hstep.busy.symm
  | none =>
    refine ⟨fun _ => nofun, fun _ => ?_⟩
    cases hend : s.device.siCompletes a with
    | true =>
      obtain ⟨hbusy, hdmaBusy, hdir, hqueued⟩ := siCompletes_step hend
      have hmove : siMove s.device a = .complete := by simp [siMove, hstart, hend]
      have hnext : (s.step a).pending = s.pending.tail := by simp [SiRun.step, hend, hstart]
      have hpos : 0 < s.device.queued .si := by
        have := siMove_possible s.device a
        rw [hmove] at this
        exact this.1
      have hone : s.pending.length = 1 := by
        have := h.single
        rw [h.once]
        omega
      obtain ⟨r, hr⟩ := List.length_eq_one_iff.mp hone
      rw [hmove, hone] at hrun
      rw [hnext, hr]
      refine ⟨settled_succ_iff.mp (hrun.mpr trivial), ?_, ?_⟩
      · change [] = (s.device.siStep a).siInFlight
        rw [Device.siInFlight, if_pos hdir]
      · exact hdmaBusy.trans hbusy.symm
    | false =>
      have hstep := Device.siStep_unchanged hstart hend
      have hmove : siMove s.device a = .keep := by simp [siMove, hstart, hend]
      have hnext : (s.step a).pending = s.pending := by simp [SiRun.step, hend, hstart]
      rw [hmove] at hrun
      rw [hnext]
      refine ⟨hrun.mpr trivial, ?_, ?_⟩
      · rw [hpending]
        unfold Device.siInFlight
        rw [show (s.step a).device.si.dmaDir = s.device.si.dmaDir from hstep.dir]
      · exact hstep.dmaBusy.trans (hdma.trans hstep.busy.symm)

/-- A write DMA fills PIF RAM when it starts. -/
theorem siStep_writeDma {d : Device} {a : SiStep} (h : d.siStarts a = some .writeDma) {i : ℕ}
    (hi : i < 64) :
    (d.siStep a).pif.ram i = wordByte (d.rdram.dram (d.siDramIndex + i / 4)) i := by
  cases a with
  | writeRegs o address value mask =>
    rw [Device.siStep, Device.writeSiRegs]
    unfold Device.siStarts at h
    simp only at h
    split at h
    · split at h <;> cases h
    · next hreg =>
      split at h
      · next hgo =>
        simp only [hreg]
        rw [Device.dmaSiWrite_eq (d := d.setSi .pifAddrWr64b _) hgo]
        change ((d.setSi .pifAddrWr64b _).setDmaDir .dmaWrite).copyPifRdram.pif.ram i = _
        unfold Device.copyPifRdram
        simp only [Device.setDmaDir, Device.setRam, hi, if_true]
        rfl
      · cases h
    · cases h
  | writePif address value mask =>
    unfold Device.siStarts at h
    simp only at h
    split at h <;> cases h
  | event o => cases h
  | other f keeps => cases h

/-- Every transfer of a consistent interface copies its data. -/
theorem SiConsistent.copies {s : SiRun} (h : SiConsistent s) (a : SiStep) : SiCopies s a where
  write hstart _ hi := siStep_writeDma hstart hi
  read hend hhead i hi := by
    have hdir : s.device.si.dmaDir = .dmaRead := by
      have hpending := h.pending
      unfold Device.siInFlight at hpending
      cases hs : s.pending with
      | nil => rw [hs] at hhead; cases hhead
      | cons r rest =>
        rw [hs] at hhead hpending
        obtain rfl := Option.some.inj hhead
        split at hpending
        · cases hpending
        · exact (List.cons.inj hpending).1.symm
    cases a with
    | event o =>
      have hnext : s.device.isNext .si = true := hend
      rw [Device.siStep, if_pos hnext]
      exact Device.siEndOfDmaEvent_read o (d := s.device.popEvent) hdir hi
    | _ => cases hend

/-- **The serial interface**: from a consistent state, every state of a run is consistent and every
    step copies what it must, exactly when every step is orderly. -/
theorem si_consistent_iff (s : SiRun) (h : SiConsistent s) (steps : List SiStep) :
    ((∀ t ∈ Runs.visited SiRun.step s steps, SiConsistent t) ∧
        Runs.Along SiRun.step SiCopies s steps) ↔
      Runs.Along SiRun.step (fun s a => SiStep.Orderly s.device a) s steps := by
  have hvisited : (∀ t ∈ Runs.visited SiRun.step s steps, SiConsistent t) ↔
      Runs.Along SiRun.step (fun s a => SiStep.Orderly s.device a) s steps :=
    Runs.visited_iff_along (fun _ a hs => siRun_step_iff hs a) h
  rw [← hvisited]
  exact ⟨And.left, fun hall =>
    ⟨hall, Runs.along_of_visited (fun _ a hs => SiConsistent.copies hs a) hall⟩⟩

theorem siConsistent_fresh : SiConsistent ⟨freshConsole, []⟩ :=
  ⟨by decide, by decide, by decide, by decide, by decide⟩

/-- A write DMA, its completion, and a read DMA. -/
theorem si_consistent_transfers :
    (∀ t ∈ Runs.visited SiRun.step ⟨freshConsole, []⟩
        [.writeRegs quietOutside 0x04800010 0x1fc007c0 0xffffffff, .event quietOutside,
          .writeRegs quietOutside 0x04800004 0x1fc007c0 0xffffffff], SiConsistent t) ∧
      Runs.Along SiRun.step SiCopies ⟨freshConsole, []⟩
        [.writeRegs quietOutside 0x04800010 0x1fc007c0 0xffffffff, .event quietOutside,
          .writeRegs quietOutside 0x04800004 0x1fc007c0 0xffffffff] :=
  (si_consistent_iff _ siConsistent_fresh _).mpr (by decide)

/-- A store to PIF RAM replaces the read DMA it falls into, which then copies nothing to RDRAM. -/
theorem si_inconsistent_store :
    ¬∀ (s : SiRun) (steps : List SiStep), SiConsistent s →
      (∀ t ∈ Runs.visited SiRun.step s steps, SiConsistent t) ∧
        Runs.Along SiRun.step SiCopies s steps := by
  intro h
  let steps : List SiStep :=
    [.writeRegs quietOutside 0x04800004 0x1fc007c0 0xffffffff,
      .writePif 0x1fc007fc 0x01 0xffffffff]
  have hlast := (h _ steps siConsistent_fresh).1 _
    (Runs.runFrom_mem_visited SiRun.step ⟨freshConsole, []⟩ steps)
  exact absurd hlast.single (by decide)

end Mupen64plus
