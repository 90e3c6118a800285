import Mupen64plus.Device.PiTransfers
import Mupen64plus.Device.SiTransfers
import Mupen64plus.Device.AiBuffers
import Mupen64plus.Device.SpTransfers

/-!
# Devices behind a soft reset

`nmi_int_handler` rebuilds the queue of events with those of the core and of the screen alone, while
every device keeps its registers, less those that the code in place of the boot ROM writes.

## Main definitions

- `ResetSettled` — no device waits for an event that is not queued
- `ResetReady` — no device that the reset leaves alone waits for an event

## Main results

- `nmiIntHandler_busy`, `nmiIntHandler_queue` — what a reset does to the busy bits and to the queue
- `resetSettled_iff` — a reset leaves the devices settled exactly when they were ready for it
-/

namespace Mupen64plus

namespace Device

def ddBusy (d : Device) : Bool := d.ddReg .cmdStatus &&& ddStatusBusyState != 0

end Device

/-- A status bit that waits for an event is set only while the event is queued. -/
structure ResetSettled (d : Device) : Prop where
  pi : d.piBusy = true → 0 < d.queued .pi
  si : d.siBusy = true → 0 < d.queued .si
  sp : d.spFlags ≠ ⟨false, false, false, false⟩ → 0 < d.queued .rspDma
  ai : (d.aiBusy || d.aiFull) = true → 0 < d.queued .ai
  dd : d.ddBusy = true → 0 < d.queued .ddMc

/-- Neither the serial interface, nor the signal processor, nor the 64DD is in the middle of
    something, nor is the peripheral interface where the boot ROM itself is to be run. -/
structure ResetReady (d : Device) : Prop where
  si : d.siBusy = false
  sp : d.spFlags = ⟨false, false, false, false⟩
  dd : d.ddBusy = false
  pi : d.r4300.startAddress = 0xbfc00000 → d.piBusy = false

/-- The busy bits are the same, of the audio interface apart. -/
structure SameBusy (d d' : Device) : Prop where
  pi : d'.pi.regs .status = d.pi.regs .status
  si : d'.si.regs .status = d.si.regs .status
  sp : d'.spFlags = d.spFlags
  dd : d'.ddBusy = d.ddBusy

namespace SameBusy

theorem refl (d : Device) : SameBusy d d := ⟨rfl, rfl, rfl, rfl⟩

theorem trans {d d' d'' : Device} (h : SameBusy d d') (h' : SameBusy d' d'') : SameBusy d d'' :=
  ⟨h'.pi.trans h.pi, h'.si.trans h.si, h'.sp.trans h.sp, h'.dd.trans h.dd⟩

/-- What leaves the registers of the four devices alone. -/
theorem of_regs {d d' : Device} (hpi : d'.pi = d.pi) (hsi : d'.si = d.si)
    (hsp : d'.sp.regs = d.sp.regs) (hdd : d'.dd = d.dd) : SameBusy d d' where
  pi := by rw [hpi]
  si := by rw [hsi]
  sp := by rw [Device.spFlags, Device.spFlags, hsp]
  dd := by rw [Device.ddBusy, Device.ddReg, hdd]; rfl

end SameBusy

namespace Device

variable (o : Outside) (d : Device)

-- ════════════════════════════════════════════════════════════════════════
-- Accesses of the boot code
-- ════════════════════════════════════════════════════════════════════════

theorem mapped_above {first last address : BitVec 32} (h : address >>> 16 < first >>> 16) :
    mapped first last address = false := by
  unfold mapped
  rw [decide_eq_false (BitVec.not_le.mpr h), Bool.false_and]

/-- The handlers of the registers below the range of the 64DD do not depend on what is plugged
    in. -/
theorem regionOf_registers {address : BitVec 32} (h : address >>> 16 < 0x0500) :
    d.regionOf address = freshConsole.regionOf address := by
  have habove : ∀ {first : BitVec 32}, (0x0500 : BitVec 32) ≤ first → address >>> 16 < first :=
    fun hle => BitVec.lt_def.mpr (Nat.lt_of_lt_of_le (BitVec.lt_def.mp h) (BitVec.le_def.mp hle))
  have hrom : ∀ size, mapped 0x10000000 (mapEnd 0x10000000 size) address = false := fun size =>
    mapped_above (habove (by decide))
  have hddRom : ∀ size, mapped mmDdRom (mapEnd mmDdRom size) address = false := fun size =>
    mapped_above (habove (by decide))
  have hddRegs : mapped 0x05000000 0x05ffffff address = false := mapped_above h
  unfold regionOf
  simp only [hrom, hddRom, hddRegs, Bool.false_eq_true, and_false, if_false]

theorem bootStore_eq {address : BitVec 32} (h : isUnmapped address = true) (value : BitVec 32) :
    bootStore o d address value =
      memWrite32 id o (d.invalidateStored address 4) (physical address) value 0xffffffff := by
  have hne : address ≠ 0#32 := by
    rintro rfl
    cases h
  simp [bootStore, writeAlignedWord, translateStore, translate, h, hne]

theorem readAlignedWord_eq {address : BitVec 32} (h : isUnmapped address = true) :
    (readAlignedWord o d address).2 = (memRead32 o d (physical address)).2 := by
  have hne : address ≠ 0#32 := by
    rintro rfl
    cases h
  simp [readAlignedWord, translate, h, hne]

theorem aiRemainingLength_sameBusy : SameBusy d d.aiRemainingLength.2 := by
  unfold aiRemainingLength
  simp only
  split
  · exact .refl d
  · split
    · exact .of_regs rfl rfl rfl rfl
    · split <;> exact .of_regs rfl rfl rfl rfl

theorem readAiRegs_sameBusy (address : BitVec 32) : SameBusy d (d.readAiRegs address).2 := by
  have hlength := d.aiRemainingLength_sameBusy
  unfold readAiRegs
  split
  · exact .refl d
  · simp only
    split
    · exact hlength.trans (.of_regs rfl rfl rfl rfl)
    · exact hlength
  · exact .refl d

/-- The status bits that the other accesses of the 64DD set and clear. -/
theorem ddBusy_of_mask {status status' : BitVec 32}
    (h : status' &&& ddStatusBusyState = status &&& ddStatusBusyState) :
    (status' &&& ddStatusBusyState != 0) = (status &&& ddStatusBusyState != 0) := by rw [h]

theorem readDdRegs_sameBusy (address : BitVec 32) : SameBusy d (d.readDdRegs address).2 := by
  have hset : ∀ e : Device, ∀ bits, bits &&& ddStatusBusyState = 0 →
      SameBusy e (e.setDdBits .cmdStatus bits) := by
    intro e bits hbits
    refine ⟨rfl, rfl, rfl, ddBusy_of_mask ?_⟩
    simp only [setDdBits, ddReg, setDd_dd_regs, Function.update_self]
    exact Flags.or_and_of_disjoint hbits
  have hclear : ∀ e : Device, ∀ bits, bits &&& ddStatusBusyState = 0 →
      SameBusy e (e.clearDdBits .cmdStatus bits) := by
    intro e bits hbits
    refine ⟨rfl, rfl, rfl, ddBusy_of_mask ?_⟩
    simp only [clearDdBits, ddReg, setDd_dd_regs, Function.update_self]
    exact Flags.andNot_and_of_disjoint (by rw [BitVec.and_comm]; exact hbits)
  unfold readDdRegs
  split
  · exact .refl d
  · split
    · exact .refl d
    · have hpresent : SameBusy d (if d.dd.disk.isSome then d.setDdBits .cmdStatus ddStatusDiskPres
          else d.clearDdBits .cmdStatus ddStatusDiskPres) := by
        split
        · exact hset d _ (by decide)
        · exact hclear d _ (by decide)
      simp only
      generalize (if d.dd.disk.isSome then d.setDdBits .cmdStatus ddStatusDiskPres
          else d.clearDdBits .cmdStatus ddStatusDiskPres) = e at hpresent
      split
      · have hint : SameBusy e (e.clearDdInterrupt ddStatusBmInt) :=
          (hclear e ddStatusBmInt (by decide)).trans (.of_regs rfl rfl rfl rfl)
        exact hpresent.trans (hint.trans (.of_regs rfl rfl rfl rfl))
      · exact hpresent
    · exact .refl d

/-- A read leaves the busy bits alone, whoever answers. -/
theorem readRegion_sameBusy (region : Region) (address : BitVec 32) :
    SameBusy d (readRegion o d region address).2 := by
  cases region with
  | rspRegs =>
    unfold readRegion readRspRegs
    simp only
    split <;> exact ⟨rfl, rfl, rfl, rfl⟩
  | viRegs =>
    unfold readRegion readViRegs
    simp only
    split
    · exact .refl d
    · split <;> exact .of_regs rfl rfl rfl rfl
    · exact .refl d
  | aiRegs => exact d.readAiRegs_sameBusy address
  | ddRegs => exact d.readDdRegs_sameBusy address
  | cartDom2 =>
    unfold readRegion readCartDom2
    simp only
    split
    · exact .refl d
    · split <;> exact .of_regs rfl rfl rfl rfl
  | _ => exact .refl d

-- ════════════════════════════════════════════════════════════════════════
-- The boot code
-- ════════════════════════════════════════════════════════════════════════

theorem writeViRegs_sameBusy (address value mask : BitVec 32) :
    SameBusy d (d.writeViRegs address value mask) := by
  have hinterrupt : ∀ {e : Device}, SameBusy d e → SameBusy d e.setViVerticalInterrupt := by
    intro e he
    unfold setViVerticalInterrupt
    split
    · exact he.trans (.of_regs rfl rfl rfl rfl)
    · exact he
  unfold writeViRegs
  split
  · exact .refl d
  · exact .of_regs rfl rfl rfl rfl
  · split
    · exact hinterrupt (.of_regs rfl rfl rfl rfl)
    · exact .refl d
  · exact hinterrupt (.of_regs rfl rfl rfl rfl)
  · exact .of_regs rfl rfl rfl rfl

theorem writeAiRegs_sameBusy (address value mask : BitVec 32) :
    SameBusy d (d.writeAiRegs address value mask) := by
  have hdma : ∀ {e : Device}, SameBusy d e → SameBusy d e.aiDoDma := by
    intro e he
    have hformat : SameBusy e e.aiFormat := by
      unfold aiFormat
      split <;> exact .of_regs rfl rfl rfl rfl
    unfold aiDoDma
    exact he.trans (hformat.trans (.of_regs rfl rfl rfl rfl))
  have hpush : ∀ {e : Device}, SameBusy d e → SameBusy d e.aiFifoPush := by
    intro e he
    unfold aiFifoPush
    simp only
    split
    · exact he.trans (.of_regs rfl rfl rfl rfl)
    · exact hdma (he.trans (.of_regs rfl rfl rfl rfl))
  unfold writeAiRegs
  split
  · exact .refl d
  · simp only
    split
    · exact hpush (.of_regs rfl rfl rfl rfl)
    · exact .of_regs rfl rfl rfl rfl
  · exact .of_regs rfl rfl rfl rfl
  · simp only
    split <;> exact .of_regs rfl rfl rfl rfl
  · exact .of_regs rfl rfl rfl rfl

/-- A halt of the signal processor starts no task. -/
theorem updateSpStatus_halt_sameBusy : SameBusy d (updateSpStatus o d 0x0a) := by
  have hflags := (d.spStatusWritten_spec 0x0a).2
  have hhalted : (d.spStatusWritten 0x0a).startsTask 0x0a = false := by
    have hhalt : (d.spStatusWritten 0x0a).spStatus &&& spStatusHalt ≠ 0 := by
      unfold spStatusWritten
      simp only
      rw [spStatus, setSp_sp_regs, Function.update_self, foldl_clearOrSet_other _ _ rfl]
      exact Flags.or_and_ne_zero.mpr (.inr (by decide))
    unfold startsTask
    simp only
    split
    · rfl
    · split
      · rfl
      · exact beq_eq_false_iff_ne.mpr hhalt
  have hwritten : updateSpStatus o d 0x0a = d.spStatusWritten 0x0a := by
    change (if (d.spStatusWritten 0x0a).startsTask 0x0a then doSPTask o (d.spStatusWritten 0x0a)
      else d.spStatusWritten 0x0a) = d.spStatusWritten 0x0a
    rw [hhalted]
    rfl
  rw [hwritten]
  exact ⟨rfl, rfl, hflags, rfl⟩

theorem bootStore_registers {address : BitVec 32} {r : Region}
    (h : isUnmapped address = true) (hlow : physical address >>> 16 < 0x0500)
    (hregion : freshConsole.regionOf (physical address) = r) (value : BitVec 32) :
    bootStore o d address value = writeRegion id o (d.invalidateStored address 4) r
      (physical address) value 0xffffffff := by
  rw [bootStore_eq o d h, memWrite32, regionOf_registers _ hlow, hregion]

theorem bootStore_vi_sameBusy {address : BitVec 32} (h : isUnmapped address = true)
    (hlow : physical address >>> 16 < 0x0500)
    (hregion : freshConsole.regionOf (physical address) = .viRegs) (value : BitVec 32) :
    SameBusy d (bootStore o d address value) := by
  rw [bootStore_registers o d h hlow hregion]
  have hstored : SameBusy d (d.invalidateStored address 4) := .of_regs rfl rfl rfl rfl
  exact hstored.trans (writeViRegs_sameBusy _ _ _ _)

theorem bootStore_ai_sameBusy {address : BitVec 32} (h : isUnmapped address = true)
    (hlow : physical address >>> 16 < 0x0500)
    (hregion : freshConsole.regionOf (physical address) = .aiRegs) (value : BitVec 32) :
    SameBusy d (bootStore o d address value) := by
  rw [bootStore_registers o d h hlow hregion]
  have hstored : SameBusy d (d.invalidateStored address 4) := .of_regs rfl rfl rfl rfl
  exact hstored.trans (writeAiRegs_sameBusy _ _ _ _)

/-- The stores that set up the timing of the bus leave PI_STATUS alone. -/
theorem bootStore_dom1_sameBusy {address : BitVec 32} {r : PiReg} (h : isUnmapped address = true)
    (hlow : physical address >>> 16 < 0x0500)
    (hregion : freshConsole.regionOf (physical address) = .piRegs)
    (hreg : regAt PiReg.block (physical address) = some r)
    (hdom : r ∈ [.bsdDom1Lat, .bsdDom1Pwd, .bsdDom1Pgs, .bsdDom1Rls]) (value : BitVec 32) :
    SameBusy d (bootStore o d address value) := by
  rw [bootStore_registers o d h hlow hregion, writeRegion, writePiRegs, hreg]
  simp only [List.mem_cons, List.not_mem_nil, or_false] at hdom
  rcases hdom with rfl | rfl | rfl | rfl <;> exact ⟨rfl, rfl, rfl, rfl⟩

theorem bootDom1_sameBusy (config : BitVec 32) : SameBusy d (bootDom1 o d config) := by
  have hlat : ∀ e v, SameBusy e (bootStore o e 0xa4600014 v) := fun e v =>
    bootStore_dom1_sameBusy o e (r := .bsdDom1Lat) (by decide) (by decide) (by decide)
      (by decide) (by decide) v
  have hpwd : ∀ e v, SameBusy e (bootStore o e 0xa4600018 v) := fun e v =>
    bootStore_dom1_sameBusy o e (r := .bsdDom1Pwd) (by decide) (by decide) (by decide)
      (by decide) (by decide) v
  have hpgs : ∀ e v, SameBusy e (bootStore o e 0xa460001c v) := fun e v =>
    bootStore_dom1_sameBusy o e (r := .bsdDom1Pgs) (by decide) (by decide) (by decide)
      (by decide) (by decide) v
  have hrls : ∀ e v, SameBusy e (bootStore o e 0xa4600020 v) := fun e v =>
    bootStore_dom1_sameBusy o e (r := .bsdDom1Rls) (by decide) (by decide) (by decide)
      (by decide) (by decide) v
  exact (((hlat d _).trans (hpwd _ _)).trans (hpgs _ _)).trans (hrls _ _)

/-- The busy bits are the same, of the audio interface apart, and those of PI_STATUS are clear. -/
structure BootBusy (d d' : Device) : Prop where
  pi : d'.pi.regs .status = 0
  si : d'.si.regs .status = d.si.regs .status
  sp : d'.spFlags = d.spFlags
  dd : d'.ddBusy = d.ddBusy

theorem BootBusy.trans {d d' d'' : Device} (h : BootBusy d d') (h' : SameBusy d' d'') :
    BootBusy d d'' :=
  ⟨h'.pi.trans h.pi, h'.si.trans h.si, h'.sp.trans h.sp, h'.dd.trans h.dd⟩

/-- The store that resets the peripheral interface. -/
theorem bootStore_piReset : BootBusy d (bootStore o d 0xa4600010 0x3) := by
  rw [bootStore_registers o d (r := .piRegs) (by decide) (by decide) (by decide)]
  exact ⟨rfl, rfl, rfl, rfl⟩

theorem bootStop_busy : BootBusy d (bootStop o d) := by
  have hsp : SameBusy d (bootStore o d 0xa4040010 0x0a) := by
    rw [bootStore_registers o d (r := .rspRegs) (by decide) (by decide) (by decide)]
    have hstored : SameBusy d (d.invalidateStored 0xa4040010 4) := .of_regs rfl rfl rfl rfl
    exact hstored.trans (updateSpStatus_halt_sameBusy o _)
  have hpi := bootStore_piReset o (bootStore o d 0xa4040010 0x0a)
  have hpi' : BootBusy d (bootStore o (bootStore o d 0xa4040010 0x0a) 0xa4600010 0x3) :=
    ⟨hpi.pi, hpi.si.trans hsp.si, hpi.sp.trans hsp.sp, hpi.dd.trans hsp.dd⟩
  have hvintr : ∀ e, SameBusy e (bootStore o e 0xa440000c 1023) := fun e =>
    bootStore_vi_sameBusy o e (by decide) (by decide) (by decide) _
  have hcurrent : ∀ e, SameBusy e (bootStore o e 0xa4400010 0) := fun e =>
    bootStore_vi_sameBusy o e (by decide) (by decide) (by decide) _
  have hstart : ∀ e, SameBusy e (bootStore o e 0xa4400024 0) := fun e =>
    bootStore_vi_sameBusy o e (by decide) (by decide) (by decide) _
  have haddr : ∀ e, SameBusy e (bootStore o e 0xa4500000 0) := fun e =>
    bootStore_ai_sameBusy o e (by decide) (by decide) (by decide) _
  have hlen : ∀ e, SameBusy e (bootStore o e 0xa4500004 0) := fun e =>
    bootStore_ai_sameBusy o e (by decide) (by decide) (by decide) _
  exact ((((hpi'.trans (hvintr _)).trans (hcurrent _)).trans (hstart _)).trans (haddr _)).trans
    (hlen _)

theorem readAlignedWord_sameBusy {address : BitVec 32} (h : isUnmapped address = true) :
    SameBusy d (readAlignedWord o d address).2 := by
  rw [readAlignedWord_eq o d h, memRead32]
  exact readRegion_sameBusy o d _ _

theorem bootromHle_busy (h : d.r4300.startAddress ≠ 0xbfc00000) : BootBusy d (bootromHle o d) := by
  have hread : ∀ e, BootBusy d e → ∀ address, isUnmapped address = true →
      BootBusy d (readAlignedWord o e address).2 := fun e he address hmap =>
    he.trans (readAlignedWord_sameBusy o e hmap)
  unfold bootromHle
  rw [if_neg h]
  have hstop : BootBusy d (bootStop o (d.onCp0 fun c =>
      (c.set .status 0x34000000).set .config 0x7006e463)) := by
    have hstop := bootStop_busy o (d.onCp0 fun c => (c.set .status 0x34000000).set .config
      0x7006e463)
    exact ⟨hstop.pi, hstop.si, hstop.sp, hstop.dd⟩
  simp only
  generalize bootStop o (d.onCp0 fun c => (c.set .status 0x34000000).set .config 0x7006e463) =
    stopped at hstop
  have hpif := hread stopped hstop 0xbfc007e4 (by decide)
  generalize readAlignedWord o stopped 0xbfc007e4 = word at hpif
  obtain ⟨pif24, after⟩ := word
  simp only at hpif ⊢
  have hregs : BootBusy d
      (after.onR4300 fun r => { r with regs := bootRegs after (pif24.getD o.garbage) }) :=
    hpif.trans (.of_regs rfl rfl rfl rfl)
  generalize (after.onR4300 fun r => { r with regs := bootRegs after (pif24.getD o.garbage) }) = e
    at hregs
  have hrom := hread e hregs
    (if (pif24.getD o.garbage >>> 19) &&& 0x01 = 0 then 0xb0000000 else 0xa6000000)
    (by split <;> decide)
  generalize readAlignedWord o e
    (if (pif24.getD o.garbage >>> 19) &&& 0x01 = 0 then 0xb0000000 else 0xa6000000) = config at hrom
  have hdom1 := hrom.trans (bootDom1_sameBusy o config.2 (config.1.getD o.garbage))
  generalize bootDom1 o config.2 (config.1.getD o.garbage) = last at hdom1
  exact hdom1.trans (.of_regs rfl rfl rfl rfl)

-- ════════════════════════════════════════════════════════════════════════
-- The reset
-- ════════════════════════════════════════════════════════════════════════

/-- The part of `nmi_int_handler` behind the boot code. -/
def nmiRestart (d : Device) : Device :=
  let d := { d with gsViCounter := 0 }
  let d := d.onCp0 fun c => initInterrupt (c.set .count 0)
  let d := d.addEvent .vi d.vi.delay
  (d.setAi .status 0).onR4300 nmiJump

theorem nmiIntHandler_eq :
    nmiIntHandler o d = nmiRestart (bootromHle o ((d.resetPif 1).onCp0 fun c =>
      (c.set .status (nmiStatus (c.regs .status))).set .cause 0)) := rfl

theorem nmiRestart_sameBusy : SameBusy d (nmiRestart d) := by
  unfold nmiRestart addEvent
  refine .of_regs ?_ ?_ ?_ ?_ <;> simp only [onR4300_pi, onR4300_si, onR4300_sp, onR4300_dd,
    setAi_pi, setAi_si, setAi_sp, setAi_dd, onCp0_pi, onCp0_si, onCp0_sp, onCp0_dd]

theorem nmiRestart_ai : (nmiRestart d).ai.regs .status = 0 := by
  unfold nmiRestart addEvent
  simp only [onR4300_ai, setAi_ai_regs, Function.update_self]

theorem countOf_rebuilt (c : Cp0) (special compare : BitVec 32) {type : IntType}
    (hspecial : type ≠ .special) (hcompare : type ≠ .compare) :
    (addInterruptEventCount (addInterruptEventCount { c with q := clearQueue } .special special)
      .compare compare).q.countOf type = 0 := by
  have hs : (IntType.special == type) = false := beq_eq_false_iff_ne.mpr hspecial.symm
  have hc : (IntType.compare == type) = false := beq_eq_false_iff_ne.mpr hcompare.symm
  rw [countOf_addInterruptEventCount, countOf_addInterruptEventCount, hs, hc, Bool.and_false,
    Bool.and_false, Bool.toNat_false, Nat.add_zero]
  exact InterruptQueue.countOf_clearQueue type

/-- The rebuilt queue holds events of the core and of the screen. -/
theorem queued_nmiRestart {type : IntType} (hspecial : type ≠ .special) (hcompare : type ≠ .compare)
    (hvi : type ≠ .vi) : (nmiRestart d).queued type = 0 := by
  have hjump : ∀ r : R4300, (nmiJump r).cp0.q = r.cp0.q := by
    intro r
    unfold nmiJump
    simp only
    rw [genericJumpTo_q]
    split <;> simp
  have hinit : ∀ c : Cp0, (initInterrupt c).q.countOf type = 0 := fun c =>
    countOf_rebuilt c _ _ hspecial hcompare
  have hend : ∀ e : Device, ((e.setAi .status 0).onR4300 nmiJump).queued type = e.queued type := by
    intro e
    rw [queued, onR4300_cp0, hjump]
    rfl
  have hv : (IntType.vi == type) = false := beq_eq_false_iff_ne.mpr hvi.symm
  unfold nmiRestart
  simp only
  rw [hend, queued_addEvent, hv, Bool.and_false, Bool.toNat_false, Nat.add_zero]
  rw [queued, onCp0_cp0, hinit]

/-- **What a reset does to the busy bits**: those of the peripheral interface are cleared by the
    boot code, and those of the audio interface by the handler. -/
theorem nmiIntHandler_busy :
    (nmiIntHandler o d).piBusy = (d.r4300.startAddress == 0xbfc00000 && d.piBusy) ∧
      (nmiIntHandler o d).siBusy = d.siBusy ∧ (nmiIntHandler o d).spFlags = d.spFlags ∧
      (nmiIntHandler o d).ddBusy = d.ddBusy ∧
      ((nmiIntHandler o d).aiBusy || (nmiIntHandler o d).aiFull) = false := by
  rw [nmiIntHandler_eq]
  generalize hstarted : ((d.resetPif 1).onCp0 fun c =>
    (c.set .status (nmiStatus (c.regs .status))).set .cause 0) = started
  have hsame : SameBusy d started := by
    rw [← hstarted]
    exact .of_regs rfl rfl rfl rfl
  have haddress : started.r4300.startAddress = d.r4300.startAddress := by
    rw [← hstarted]
    rfl
  have hai := nmiRestart_ai (bootromHle o started)
  have hrestart := nmiRestart_sameBusy (bootromHle o started)
  generalize nmiRestart (bootromHle o started) = e at hai hrestart
  have hsilent : (e.aiBusy || e.aiFull) = false := by
    unfold aiBusy aiFull
    rw [hai]
    rfl
  by_cases hstart : d.r4300.startAddress = 0xbfc00000
  · have hskip : bootromHle o started = started := if_pos (haddress.trans hstart)
    rw [hskip] at hrestart
    have hall := hsame.trans hrestart
    refine ⟨?_, ?_, hall.sp, hall.dd, hsilent⟩
    · rw [hstart, beq_self_eq_true, Bool.true_and, piBusy, piIdle, hall.pi]
      rfl
    · rw [siBusy, hall.si]
      rfl
  · have hboot := (bootromHle_busy o started (by rw [haddress]; exact hstart)).trans hrestart
    refine ⟨?_, ?_, hboot.sp.trans hsame.sp, hboot.dd.trans hsame.dd, hsilent⟩
    · rw [beq_eq_false_iff_ne.mpr hstart, Bool.false_and, piBusy, piIdle, hboot.pi]
      rfl
    · rw [siBusy, hboot.si, hsame.si]
      rfl

end Device

/-- **Soft reset**: the dispatch of an NMI leaves no device waiting for an event that is not queued,
    exactly when every device that the handler does not stop was idle. -/
theorem resetSettled_iff (o : Outside) (d : Device) :
    ResetSettled (Device.interruptHandler o d .nmi) ↔ ResetReady d := by
  have hhandler : Device.interruptHandler o d .nmi = Device.nmiIntHandler o d.popEvent := rfl
  obtain ⟨hpi, hsi, hsp, hdd, hai⟩ := Device.nmiIntHandler_busy o d.popEvent
  have hqueue : ∀ type, type ≠ .special → type ≠ .compare → type ≠ .vi →
      (Device.nmiIntHandler o d.popEvent).queued type = 0 := by
    intro type hspecial hcompare hvi
    rw [Device.nmiIntHandler_eq]
    exact Device.queued_nmiRestart _ hspecial hcompare hvi
  rw [hhandler]
  generalize Device.nmiIntHandler o d.popEvent = e at hpi hsi hsp hdd hai hqueue
  have hpi' : e.piBusy = (d.r4300.startAddress == 0xbfc00000 && d.piBusy) := hpi
  have hsi' : e.siBusy = d.siBusy := hsi
  have hsp' : e.spFlags = d.spFlags := hsp
  have hdd' : e.ddBusy = d.ddBusy := hdd
  constructor
  · intro h
    have hnot : ∀ {b : Bool} {type : IntType}, (b = true → 0 < e.queued type) →
        e.queued type = 0 → b = false := by
      intro b type hb hzero
      cases b with
      | false => rfl
      | true => exact absurd (hb rfl) (by omega)
    refine ⟨?_, ?_, ?_, ?_⟩
    · rw [← hsi']
      exact hnot h.si (hqueue _ nofun nofun nofun)
    · by_contra hne
      have hpos := h.sp (by rw [hsp']; exact hne)
      have hzero := hqueue .rspDma nofun nofun nofun
      omega
    · rw [← hdd']
      exact hnot h.dd (hqueue _ nofun nofun nofun)
    · intro hstart
      have hidle := hnot h.pi (hqueue _ nofun nofun nofun)
      rw [hpi', hstart, beq_self_eq_true, Bool.true_and] at hidle
      exact hidle
  · intro h
    refine ⟨?_, ?_, ?_, ?_, ?_⟩
    · intro hbusy
      rw [hpi', Bool.and_eq_true, beq_iff_eq] at hbusy
      rw [h.pi hbusy.1] at hbusy
      cases hbusy.2
    · intro hbusy
      rw [hsi', h.si] at hbusy
      cases hbusy
    · intro hne
      exact absurd (hsp'.trans h.sp) hne
    · intro hbusy
      rw [hai] at hbusy
      cases hbusy
    · intro hbusy
      rw [hdd', h.dd] at hbusy
      cases hbusy

/-- A console that runs its program, as far as the jump to it. -/
def bootedConsole : Device :=
  (Device.bootromHle quietOutside freshConsole).onR4300 fun r => genericJumpTo r 0xa4000040

/-- A soft reset was asked for, its first event was dispatched, and a transfer to PIF RAM is started
    shortly before its NMI. -/
def interruptedConsole : Device :=
  let d := Device.dispatch quietOutside bootedConsole.softResetDevice
  let d := d.onCp0 fun c => c.set .count 50020000
  Device.writeSiRegs quietOutside d 0x04800010 0x1fc007c0 0xffffffff

set_option maxRecDepth 4000 in
/-- The serial interface stays busy behind a reset in the middle of a transfer. -/
theorem reset_hangs_si :
    ¬∀ (o : Outside) (d : Device), d.isNext .nmi = true →
      ResetSettled (Device.interruptHandler o d .nmi) := by
  intro h
  have hsettled := h quietOutside interruptedConsole (by decide)
  exact absurd (hsettled.si (by decide)) (by decide)

end Mupen64plus
