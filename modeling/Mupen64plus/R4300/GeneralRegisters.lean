import Mupen64plus.R4300.PureInterp

/-!
# The register files behind the core's functions

What jumps, exceptions, translations and memory accesses leave of the general registers and of
coprocessor 1.

## Main definitions

- `SameFiles` — both register files are the same
- `Env.KeepsRegisters` — interrupts and the other regions leave the general registers alone

## Main results

- `raise_files`, `raise_cause` — an exception by way of Cause
- `readAlignedWord_gpr`, `writeAlignedWord_gpr` and the two of double words
-/

namespace Mupen64plus

/-- The register files of the CPU and of coprocessor 1. -/
structure SameFiles (r r' : R4300) : Prop where
  regs : r'.regs = r.regs
  cp1 : r'.cp1 = r.cp1

namespace SameFiles

theorem refl (r : R4300) : SameFiles r r := ⟨rfl, rfl⟩

theorem trans {r r' r'' : R4300} (h : SameFiles r r') (h' : SameFiles r' r'') : SameFiles r r'' :=
  ⟨h'.regs.trans h.regs, h'.cp1.trans h.cp1⟩

end SameFiles

-- ════════════════════════════════════════════════════════════════════════
-- Jumps and exceptions
-- ════════════════════════════════════════════════════════════════════════

theorem SetsExcRegs.files {r r' : R4300} (h : SetsExcRegs r r') : SameFiles r r' := by
  obtain ⟨regs, -, rfl⟩ := h
  exact ⟨rfl, rfl⟩

theorem jumpUnmapped_files (r : R4300) (address : BitVec 32) :
    SameFiles r (jumpUnmapped r address) := by
  unfold jumpUnmapped
  split
  · exact ⟨rfl, rfl⟩
  · split <;> exact ⟨rfl, rfl⟩

theorem exceptionEpilog_files (r : R4300) : SameFiles r (exceptionEpilog r) := by
  unfold exceptionEpilog
  split <;> exact ⟨rfl, rfl⟩

theorem exceptionGeneral_files (r : R4300) : SameFiles r (exceptionGeneral r) := by
  obtain ⟨r', hr', h⟩ := exceptionGeneral_spec r
  have hjump := hr'.files.trans (jumpUnmapped_files r' 0x80000180)
  have hepilog := exceptionEpilog_files (syncLastAddr (jumpUnmapped r' 0x80000180))
  rw [h]
  exact ⟨hepilog.regs.trans hjump.regs, hepilog.cp1.trans hjump.cp1⟩

theorem setBranchDelay_cause (r : R4300) : (setBranchDelay r).cp0Reg .cause =
    if r.inDelaySlot then r.cp0Reg .cause ||| causeBD else r.cp0Reg .cause &&& ~~~causeBD := by
  unfold setBranchDelay
  split
  · rfl
  · rfl

/-- Cause behind an exception: only the BD bit is not from the cause that was set. -/
theorem exceptionGeneral_cause (r : R4300) : (exceptionGeneral r).cp0Reg .cause =
    if r.inDelaySlot then r.cp0Reg .cause ||| causeBD else r.cp0Reg .cause &&& ~~~causeBD := by
  unfold exceptionGeneral
  simp only [R4300.cp0Reg, exceptionEpilog_regs, syncLastAddr, jumpUnmapped_cp0]
  exact setBranchDelay_cause (((cp0UpdateCount r).setCp0 .status _).setCp0 .epc _)

theorem raise_files (r : R4300) (cause : BitVec 32) : SameFiles r (r.raise cause) := by
  have h := exceptionGeneral_files (r.setCp0 .cause cause)
  exact ⟨h.regs, h.cp1⟩

/-- A field of Cause behind an exception that sets it. -/
theorem raise_cause (r : R4300) (cause mask : BitVec 32) (hmask : causeBD &&& mask = 0#32) :
    (r.raise cause).cp0Reg .cause &&& mask = cause &&& mask := by
  have hcause : (r.setCp0 .cause cause).cp0Reg .cause = cause := rfl
  rw [R4300.raise, exceptionGeneral_cause, hcause]
  split
  · rw [BitVec.and_comm, BitVec.and_or_distrib_left, BitVec.and_comm mask causeBD, hmask,
      BitVec.or_zero, BitVec.and_comm]
  · have hkeep : ~~~causeBD &&& mask = mask := by
      apply BitVec.eq_of_getLsbD_eq
      intro i hi
      have hbit := congrArg (fun v => v.getLsbD i) hmask
      simp only [BitVec.getLsbD_and, BitVec.getLsbD_zero] at hbit
      rw [BitVec.getLsbD_and, BitVec.getLsbD_not, decide_eq_true hi, Bool.true_and]
      cases hi : mask.getLsbD i with
      | false => rw [Bool.and_false]
      | true =>
        rw [hi, Bool.and_true] at hbit
        rw [hbit]
        rfl
    rw [BitVec.and_assoc, hkeep]

theorem tlbRefillException_gpr (r : R4300) (address : BitVec 32) (w : Access) :
    (tlbRefillException r address w).regs = r.regs := by
  have hnested (r : R4300) : (refillNested r).regs = r.regs := by
    unfold refillNested
    simp only
    split <;> exact (jumpUnmapped_files r _).regs
  have houter (r : R4300) : (refillOuter r address w).regs = r.regs := by
    unfold refillOuter
    simp only
    exact (jumpUnmapped_files _ _).regs
  have hjump (r' : R4300) (h : r'.regs = r.regs) : (setBranchDelay
      (if r'.cp0Reg .status &&& statusEXL ≠ 0 then refillNested r'
        else refillOuter r' address w)).regs = r.regs := by
    refine (setBranchDelay_sets _).files.regs.trans ?_
    split
    · exact (hnested r').trans h
    · exact (houter r').trans h
  unfold tlbRefillException
  simp only
  rw [(exceptionEpilog_files _).regs, syncLastAddr]
  split
  · exact hjump _ (refillRegs_sets (cp0UpdateCount r) address w).files.regs
  · exact hjump _ (refillRegs_sets r address w).files.regs

theorem virtualToPhysicalAddress_gpr (r : R4300) (address : BitVec 32) (w : Access) :
    (virtualToPhysicalAddress r address w).2.regs = r.regs := by
  unfold virtualToPhysicalAddress
  split
  · rfl
  · simp only
    split
    · rfl
    · exact tlbRefillException_gpr r address w

theorem genericJumpTo_gpr (r : R4300) (address : BitVec 32) :
    (genericJumpTo r address).regs = r.regs := by
  unfold genericJumpTo
  split
  · exact (jumpUnmapped_files r address).regs
  · split
    · rfl
    · simp only
      split
      · exact virtualToPhysicalAddress_gpr r address .fetch
      · exact virtualToPhysicalAddress_gpr r address .fetch

-- ════════════════════════════════════════════════════════════════════════
-- Memory accesses
-- ════════════════════════════════════════════════════════════════════════

/-- Interrupts that load no state and reset nothing, and regions that raise no others. -/
structure Env.KeepsRegisters {M : Type} (env : Env M) : Prop where
  genInterrupt : ∀ r, (env.surroundings.genInterrupt r).regs = r.regs
  read32 : ∀ s address, (env.other.read32 s address).2.1.regs = s.1.regs
  write32 : ∀ s address value mask, (env.other.write32 s address value mask).1.regs = s.1.regs

namespace Machine

variable {M : Type} {env : Env M}

theorem memRead32_gpr (henv : env.KeepsRegisters) (m : Machine M) (handler address : BitVec 32) :
    (m.memRead32 env.other handler address).2.core.regs = m.core.regs := by
  unfold memRead32
  split
  · rfl
  · exact henv.read32 (m.core, m.outside) address

theorem memWrite32_gpr (henv : env.KeepsRegisters) (m : Machine M)
    (handler address value mask : BitVec 32) :
    (m.memWrite32 env.other handler address value mask).core.regs = m.core.regs := by
  unfold memWrite32
  split
  · unfold writeRdramDram
    split <;> rfl
  · exact henv.write32 (m.core, m.outside) address value mask

theorem translate_gpr (m : Machine M) (address : BitVec 32) (w : Access) :
    (m.translate address w).2.core.regs = m.core.regs := by
  unfold translate
  split
  · rfl
  · exact virtualToPhysicalAddress_gpr m.core address w

theorem invalidate_gpr (m : Machine M) (address size : BitVec 32) :
    (m.invalidate address size).core.regs = m.core.regs := by
  obtain ⟨ci, hci⟩ := invalidateR4300CachedCode_eq m.core address size
  rw [invalidate, hci]

theorem readAlignedWord_gpr (henv : env.KeepsRegisters) (m : Machine M) (address : BitVec 32) :
    (m.readAlignedWord env.other address).2.core.regs = m.core.regs := by
  have htranslate := m.translate_gpr address .read
  unfold readAlignedWord
  split
  next heq => rwa [heq] at htranslate
  next heq =>
    rw [heq] at htranslate
    exact (memRead32_gpr henv _ _ _).trans htranslate

theorem readAlignedDword_gpr (henv : env.KeepsRegisters) (m : Machine M) (address : BitVec 32) :
    (m.readAlignedDword env.other address).2.core.regs = m.core.regs := by
  have htranslate := m.translate_gpr address .read
  unfold readAlignedDword
  split
  next heq => rwa [heq] at htranslate
  next heq =>
    rw [heq] at htranslate
    exact (memRead32_gpr henv _ _ _).trans ((memRead32_gpr henv _ _ _).trans htranslate)

theorem openStore_gpr (m : Machine M) (address size : BitVec 32) :
    (m.openStore address size).2.core.regs = m.core.regs := by
  have hfirst : (if isUnmapped address then m else m.invalidate address size).core.regs =
      m.core.regs := by
    split
    · rfl
    · exact m.invalidate_gpr address size
  have htranslate := (translate_gpr (if isUnmapped address then m else m.invalidate address size)
    address .write).trans hfirst
  unfold openStore
  simp only
  split
  next heq => rwa [heq] at htranslate
  next heq =>
    rw [heq] at htranslate
    exact (invalidate_gpr _ _ _).trans ((invalidate_gpr _ _ _).trans htranslate)

theorem writeAlignedWord_gpr (henv : env.KeepsRegisters) (m : Machine M)
    (address value mask : BitVec 32) :
    (m.writeAlignedWord env.other address value mask).2.core.regs = m.core.regs := by
  have hopen := m.openStore_gpr address 4
  unfold writeAlignedWord
  split
  next heq => rwa [heq] at hopen
  next heq =>
    rw [heq] at hopen
    exact (memWrite32_gpr henv _ _ _ _ _).trans hopen

theorem writeAlignedDword_gpr (henv : env.KeepsRegisters) (m : Machine M) (address : BitVec 32)
    (value mask : BitVec 64) :
    (m.writeAlignedDword env.other address value mask).2.core.regs = m.core.regs := by
  have hopen := m.openStore_gpr address 8
  unfold writeAlignedDword
  split
  next heq => rwa [heq] at hopen
  next heq =>
    rw [heq] at hopen
    exact (memWrite32_gpr henv _ _ _ _ _).trans ((memWrite32_gpr henv _ _ _ _ _).trans hopen)

end Machine

end Mupen64plus
