import Mupen64plus.R4300.GeneralRegisters

/-!
# The frame law of general registers

An instruction that is no jump changes no general register but the destination of its encoding.
`MTC0` masks its operand in place, where it writes Status.

## Main definitions

- `Routine.destination` — the destination of an encoding
- `FrameLaw`
- `masksOperand` — the writes of Status that change their operand

## Main results

- `execPlain_frame` — every other instruction, routine by routine
- `frameLaw_iff`
-/

namespace Mupen64plus

open Machine

variable {M : Type}

def Routine.isJump : Routine → Bool
  | .j | .jal | .jr | .jalr | .beq | .beql | .bne | .bnel | .blez | .blezl | .bgtz | .bgtzl | .bltz
  | .bltzal | .bltzl | .bltzall | .bgez | .bgezal | .bgezl | .bgezall | .bc1f | .bc1fl | .bc1t
  | .bc1tl => true
  | _ => false

/-- The register that an encoding names as its destination. `SC` leaves its success there. -/
def Routine.destination (routine : Routine) (op : BitVec 32) : Option (Fin 32) :=
  match routine with
  | .add | .addu | .dadd | .daddu | .sub | .subu | .dsub | .dsubu | .slt | .sltu | .and | .or | .xor
  | .nor | .sll | .sllv | .dsll | .dsllv | .dsll32 | .srl | .srlv | .dsrl | .dsrlv | .dsrl32 | .sra
  | .srav | .dsra | .dsrav | .dsra32 | .mfhi | .mflo => some (rdReg op)
  | .lb | .lbu | .lh | .lhu | .ll | .lw | .lwu | .lwl | .lwr | .ld | .ldl | .ldr | .sc | .addi
  | .addiu | .daddi | .daddiu | .slti | .sltiu | .andi | .ori | .xori | .lui | .mfc0 | .dmfc0
  | .mfc1 | .dmfc1 | .cfc1 | .mfc2 | .dmfc2 | .cfc2 => some (rtReg op)
  | _ => none

/-- No register changes but the one that may. -/
def KeepsBut (d : Option (Fin 32)) (regs regs' : Fin 32 → BitVec 64) : Prop :=
  ∀ i, some i ≠ d → regs' i = regs i

/-- The law for an instruction in a state. -/
def FrameLaw (env : Env M) (routine : Routine) (op : BitVec 32) (m : Machine M) : Prop :=
  ∀ m', m.exec env routine op = some m' →
    KeepsBut (routine.destination op) m.core.regs m'.core.regs

/-- A write of Status with bit 19 set. -/
def masksOperand (routine : Routine) (op : BitVec 32) (m : Machine M) : Prop :=
  routine = .mtc0 ∧ cp0RegOf (fsOf op) = .status ∧ m.core.gpr32 (rtReg op) &&& 0x080000 ≠ 0

namespace KeepsBut

theorem of_eq {d : Option (Fin 32)} {regs regs' : Fin 32 → BitVec 64} (h : regs' = regs) :
    KeepsBut d regs regs' := fun i _ => congrFun h i

theorem update {regs regs' : Fin 32 → BitVec 64} (h : regs' = regs) (d : Fin 32) (v : BitVec 64) :
    KeepsBut (some d) regs (Function.update regs' d v) := by
  intro i hi
  have hne : i ≠ d := by
    rintro rfl
    exact hi rfl
  rw [Function.update_of_ne hne, h]

end KeepsBut

-- ════════════════════
-- Families of bodies
-- ════════════════════

namespace R4300

theorem rType_keeps (op : BitVec 32) (r : R4300) (f : BitVec 64 → BitVec 64 → BitVec 64) :
    KeepsBut (some (rdReg op)) r.regs (r.rType op f).regs := .update rfl _ _

theorem iType_keeps (op : BitVec 32) (r : R4300) (f : BitVec 64 → BitVec 64) :
    KeepsBut (some (rtReg op)) r.regs (r.iType op f).regs := .update rfl _ _

theorem shiftType_keeps (op : BitVec 32) (r : R4300) (f : BitVec 64 → ℕ → BitVec 64) :
    KeepsBut (some (rdReg op)) r.regs (r.shiftType op f).regs := .update rfl _ _

theorem hiLoType_gpr (op : BitVec 32) (r : R4300) (f : BitVec 64 → BitVec 64 → HiLo) :
    KeepsBut none r.regs (r.hiLoType op f).regs := .of_eq rfl

theorem declareTrap_gpr (r : R4300) (cond : Bool) : (r.declareTrap cond).regs = r.regs := by
  unfold declareTrap
  split
  · exact (raise_files r _).regs
  · rfl

theorem usingCop1_keeps {d : Option (Fin 32)} {r body : R4300} (h : KeepsBut d r.regs body.regs) :
    KeepsBut d r.regs (r.usingCop1 body).regs := by
  unfold usingCop1 checkCop1Unusable
  split
  · exact .of_eq (raise_files r _).regs
  · exact h

theorem checkCop2Unusable_keeps {d : Option (Fin 32)} {r body : R4300}
    (h : KeepsBut d r.regs body.regs) : KeepsBut d r.regs (r.checkCop2Unusable body).regs := by
  unfold checkCop2Unusable
  split
  · exact .of_eq (raise_files r _).regs
  · exact h

theorem cfc1_keeps (op : BitVec 32) (r : R4300) :
    KeepsBut (some (rtReg op)) r.regs (r.cfc1 op).regs := by
  refine usingCop1_keeps ?_
  show KeepsBut _ _ (if _ then _ else if _ then _ else _ : R4300).regs
  split
  · exact .update rfl _ _
  · split
    · exact .update rfl _ _
    · exact .of_eq rfl

theorem ctc1_keeps (op : BitVec 32) (r : R4300) : KeepsBut none r.regs (r.ctc1 op).regs := by
  refine usingCop1_keeps (.of_eq ?_)
  show (if _ then _ else _ : R4300).regs = _
  split
  · rfl
  · rfl

theorem unimplementedMove_keeps (fpu : Fpu) (r : R4300) :
    KeepsBut none r.regs (r.unimplementedMove fpu).regs :=
  usingCop1_keeps (.of_eq (raise_files _ _).regs)

theorem fpuInstruction_keeps (fpu : Fpu) (fpuOp : FpuOp) (fmt : Format) (op : BitVec 32)
    (r : R4300) : KeepsBut none r.regs (r.fpuInstruction fpu fpuOp fmt op).regs := by
  have hbody : (r.uncheckedFpuInstruction fpu fpuOp fmt op).regs = r.regs := by
    rw [uncheckedFpuInstruction]
    rfl
  unfold fpuInstruction
  split
  · exact .of_eq hbody
  · exact usingCop1_keeps (.of_eq hbody)

theorem eret_gpr {env : Env M} (henv : env.KeepsRegisters) (r : R4300) :
    (r.eret env.surroundings).regs = r.regs := by
  have hserve (r : R4300) : (serveInterrupt env.surroundings r).regs = r.regs := by
    unfold serveInterrupt
    simp only
    split
    · exact henv.genInterrupt _
    · rfl
  unfold eret eretReturned
  simp only
  refine (hserve _).trans ?_
  show (if _ then _ else _ : R4300).regs = _
  split
  · rfl
  · exact genericJumpTo_gpr _ _

end R4300

-- ════════════════════
-- Coprocessor 0
-- ════════════════════

theorem tlbWriteAt_gpr {r r' : R4300} {idx : BitVec 32} (h : tlbWriteAt r idx = some r') :
    r'.regs = r.regs := by
  unfold tlbWriteAt at h
  split at h
  · obtain ⟨t, -, rfl⟩ := Option.map_eq_some_iff.mp h
    rfl
  · cases h

theorem updateRandom_gpr {r r' : R4300} (h : updateRandom r = some r') : r'.regs = r.regs := by
  obtain ⟨v, -, rfl⟩ := Option.map_eq_some_iff.mp h
  rfl

theorem refreshRegister_gpr {r r' : R4300} {rfs : Cp0Reg} (h : refreshRegister r rfs = some r') :
    r'.regs = r.regs := by
  unfold refreshRegister at h
  split at h
  · exact updateRandom_gpr h
  · exact Option.some.inj h ▸ rfl
  · exact Option.some.inj h ▸ rfl

theorem tlbp_gpr (r : R4300) : (tlbp r).regs = r.regs := by
  unfold tlbp
  simp only
  split <;> rfl

theorem addToPc_gpr (r : R4300) : r.addToPc.regs = r.regs := rfl

theorem setCp0_gpr (r : R4300) (reg : Cp0Reg) (v : BitVec 32) : (r.setCp0 reg v).regs = r.regs :=
  rfl

theorem cp0UpdateCount_gpr (r : R4300) : (cp0UpdateCount r).regs = r.regs := rfl

theorem tlbr_gpr (r : R4300) : (tlbr r).regs = r.regs := by
  unfold tlbr
  simp only [addToPc_gpr, setCp0_gpr]

theorem serveDue_gpr {env : Env M} (henv : env.KeepsRegisters) (r : R4300) :
    (serveDue env.surroundings r).regs = r.regs := by
  unfold serveDue
  simp only
  split
  · exact henv.genInterrupt _
  · rfl

theorem mtc0Plain_gpr (r : R4300) (rfs : Cp0Reg) (v : BitVec 32) :
    (mtc0Plain r rfs v).regs = r.regs := by
  unfold mtc0Plain
  simp only
  split
  · split <;> rfl
  · rfl
  · rfl

/-- `MTC0` to Status leaves its operand without bit 19. -/
theorem mtc0Status_gpr {env : Env M} (henv : env.KeepsRegisters) (r : R4300) (rt : Fin 32) :
    (mtc0Status env.surroundings r rt).regs =
      (r.setGpr32 rt (r.gpr32 rt &&& ~~~0x080000)).regs := by
  unfold mtc0Status mtc0StatusWritten
  simp only
  refine (serveDue_gpr henv _).trans ?_
  simp only [cp0UpdateCount_gpr, addToPc_gpr, setCp0_gpr]
  split
  · rfl
  · rfl

theorem mtc0Count_gpr {env : Env M} (henv : env.KeepsRegisters) (r : R4300) (rt : Fin 32) :
    (mtc0Count env.surroundings r rt).regs = r.regs := by
  unfold mtc0Count
  change (serveDue env.surroundings (cp0UpdateCount r)).regs = r.regs
  rw [serveDue_gpr henv, cp0UpdateCount_gpr]

theorem mtc0Compare_gpr (r : R4300) (v : BitVec 32) : (mtc0Compare r v).regs = r.regs := by
  unfold mtc0Compare
  rfl

theorem mtc0_gpr {env : Env M} (henv : env.KeepsRegisters) (r : R4300) {rfs : Cp0Reg}
    (hstatus : rfs ≠ .status) (rt : Fin 32) : (mtc0 env.surroundings r rfs rt).regs = r.regs := by
  unfold mtc0
  simp only
  split
  · rw [addToPc_gpr, mtc0Count_gpr henv]
  · rw [addToPc_gpr, mtc0Compare_gpr]
  · exact absurd rfl hstatus
  · rw [addToPc_gpr, mtc0Plain_gpr]

/-- The upper word of a register. -/
theorem upperMask_bit : ∀ i < 64, (0xFFFFFFFF00000000#64).getLsbD i = decide (32 ≤ i) := by
  decide

/-- The bits of an operand that is masked in place. -/
theorem setGpr32_mask_bit (r : R4300) (rt : Fin 32) (mask : BitVec 32) {i : ℕ} (hi : i < 64) :
    ((r.setGpr32 rt (r.gpr32 rt &&& ~~~mask)).regs rt).getLsbD i =
      ((r.regs rt).getLsbD i && !mask.getLsbD i) := by
  have hvalue : (r.setGpr32 rt (r.gpr32 rt &&& ~~~mask)).regs rt =
      (r.regs rt &&& 0xFFFFFFFF00000000#64) ||| (r.gpr32 rt &&& ~~~mask).setWidth 64 :=
    Function.update_self _ _ _
  rw [hvalue, BitVec.getLsbD_or, BitVec.getLsbD_and, upperMask_bit i hi, BitVec.getLsbD_setWidth,
    decide_eq_true hi, Bool.true_and, BitVec.getLsbD_and, R4300.gpr32, BitVec.getLsbD_setWidth,
    BitVec.getLsbD_not]
  by_cases hlow : i < 32
  · rw [decide_eq_true hlow, decide_eq_false (by omega), Bool.and_false, Bool.false_or,
      Bool.true_and, Bool.true_and]
  · rw [decide_eq_false hlow, decide_eq_true (by omega), BitVec.getLsbD_of_ge mask i (by omega)]
    simp

/-- An operand that is masked in place, and does not have those bits. -/
theorem setGpr32_mask (r : R4300) (rt : Fin 32) (mask : BitVec 32) :
    (r.setGpr32 rt (r.gpr32 rt &&& ~~~mask)).regs rt = r.regs rt ↔
      r.gpr32 rt &&& mask = 0#32 := by
  constructor
  · intro h
    apply BitVec.eq_of_getLsbD_eq
    intro i hi
    have hbit := setGpr32_mask_bit r rt mask (show i < 64 by omega)
    rw [h] at hbit
    rw [BitVec.getLsbD_and, R4300.gpr32, BitVec.getLsbD_setWidth, decide_eq_true hi, Bool.true_and,
      BitVec.getLsbD_zero]
    revert hbit
    cases (r.regs rt).getLsbD i <;> cases mask.getLsbD i <;> simp
  · intro h
    apply BitVec.eq_of_getLsbD_eq
    intro i hi
    rw [setGpr32_mask_bit r rt mask hi]
    by_cases hlow : i < 32
    · have hbit := congrArg (fun v => v.getLsbD i) h
      simp only [BitVec.getLsbD_and, R4300.gpr32, BitVec.getLsbD_setWidth, decide_eq_true hlow,
        Bool.true_and, BitVec.getLsbD_zero] at hbit
      revert hbit
      cases (r.regs rt).getLsbD i <;> cases mask.getLsbD i <;> simp
    · rw [BitVec.getLsbD_of_ge mask i (by omega), Bool.not_false, Bool.and_true]

/-- A masked operand is the only register that may have changed. -/
theorem setGpr32_of_ne (r : R4300) {rt i : Fin 32} (h : i ≠ rt) (v : BitVec 32) :
    (r.setGpr32 rt v).regs i = r.regs i := Function.update_of_ne h _ _

-- ════════════════════
-- Loads and stores
-- ════════════════════

namespace Machine

theorem finishLoad_keeps {α : Type} {rt : Fin 32} {value : BitVec 64 → α → BitVec 64}
    {s : Option α × Machine M} {regs : Fin 32 → BitVec 64} (h : s.2.core.regs = regs) :
    KeepsBut (some rt) regs (finishLoad rt value s).core.regs := by
  obtain ⟨x, m⟩ := s
  cases x with
  | none => exact .of_eq h
  | some x => exact .update h _ _

theorem loadWord_keeps {env : Env M} (henv : env.KeepsRegisters) (op : BitVec 32) (m : Machine M)
    (value : BitVec 32 → BitVec 64 → BitVec 32 → BitVec 64) :
    KeepsBut (some (rtReg op)) m.core.regs (m.loadWord env.other op value).core.regs :=
  finishLoad_keeps (readAlignedWord_gpr henv m.addToPc _)

theorem loadDword_keeps {env : Env M} (henv : env.KeepsRegisters) (op address : BitVec 32)
    (m : Machine M) (value : BitVec 64 → BitVec 64 → BitVec 64) :
    KeepsBut (some (rtReg op)) m.core.regs
      (finishLoad (rtReg op) value (m.addToPc.readAlignedDword env.other address)).core.regs :=
  finishLoad_keeps (readAlignedDword_gpr henv m.addToPc _)

theorem ll_keeps {env : Env M} (henv : env.KeepsRegisters) (op : BitVec 32) (m : Machine M) :
    KeepsBut (some (rtReg op)) m.core.regs (m.ll env.other op).core.regs := by
  have hread := readAlignedWord_gpr henv m.addToPc (m.lsaddr op)
  unfold ll
  split
  next heq =>
    rw [heq] at hread
    exact .of_eq hread
  next heq =>
    rw [heq] at hread
    exact .update hread _ _

theorem sc_keeps {env : Env M} (henv : env.KeepsRegisters) (op : BitVec 32) (m : Machine M) :
    KeepsBut (some (rtReg op)) m.core.regs (m.sc env.other op).core.regs := by
  have hwrite := writeAlignedWord_gpr henv m.addToPc (m.lsaddr op) (m.core.gpr32 (rtReg op)) (~~~0)
  unfold sc
  split
  · split
    next heq =>
      rw [heq] at hwrite
      exact .of_eq hwrite
    next heq =>
      rw [heq] at hwrite
      exact .update hwrite _ _
  · exact .update rfl _ _

theorem usingCop1_keeps {d : Option (Fin 32)} {m body : Machine M}
    (h : KeepsBut d m.core.regs body.core.regs) :
    KeepsBut d m.core.regs (m.usingCop1 body).core.regs := by
  unfold usingCop1 R4300.checkCop1Unusable
  split
  next heq =>
    split at heq
    · cases heq
      exact .of_eq (raise_files m.core _).regs
    · cases heq
  next => exact h

theorem finishLoadCp1_gpr {α : Type} (set : Cp1 → α → Cp1) (s : Option α × Machine M) :
    (finishLoadCp1 set s).core.regs = s.2.core.regs := by
  obtain ⟨x, m⟩ := s
  cases x with
  | none => rfl
  | some x => rfl

end Machine

-- ════════════════════
-- The law
-- ════════════════════

theorem onCore_keeps {d : Option (Fin 32)} {m m' : Machine M} {f : R4300 → R4300}
    (h : some (m.onCore f) = some m') (hf : KeepsBut d m.core.regs (f m.core).regs) :
    KeepsBut d m.core.regs m'.core.regs := Option.some.inj h ▸ hf

theorem onCore?_keeps {d : Option (Fin 32)} {m m' : Machine M} {f : R4300 → Option R4300}
    (h : m.onCore? f = some m')
    (hf : ∀ r', f m.core = some r' → KeepsBut d m.core.regs r'.regs) :
    KeepsBut d m.core.regs m'.core.regs := by
  obtain ⟨r', hr', rfl⟩ := Option.map_eq_some_iff.mp h
  exact hf r' hr'

/-- A write of Status changes its operand alone, and not without bit 19. -/
theorem mtc0Status_frame {env : Env M} (henv : env.KeepsRegisters) (r : R4300) (rt : Fin 32) :
    KeepsBut none r.regs (mtc0 env.surroundings r .status rt).regs ↔
      r.gpr32 rt &&& 0x080000 = 0 := by
  have hregs : (mtc0 env.surroundings r .status rt).regs =
      (r.setGpr32 rt (r.gpr32 rt &&& ~~~0x080000)).regs := mtc0Status_gpr henv _ rt
  rw [hregs]
  refine Iff.trans ?_ (setGpr32_mask r rt 0x080000)
  constructor
  · intro h
    exact h rt (by simp)
  · intro h i _
    by_cases hi : i = rt
    · rw [hi, h]
    · exact setGpr32_of_ne r hi _

/-- Every instruction that is no jump keeps the law, but for the writes of Status. -/
theorem execPlain_frame {env : Env M} (henv : env.KeepsRegisters) {routine : Routine}
    {op : BitVec 32} {m m' : Machine M} (hmask : ¬masksOperand routine op m)
    (h : m.execPlain env routine op = some m') :
    KeepsBut (routine.destination op) m.core.regs m'.core.regs := by
  cases routine with
  | add | addu | dadd | daddu | sub | subu | dsub | dsubu | slt | sltu | and | or | xor | nor | sllv
  | dsllv | srlv | dsrlv | srav | dsrav =>
    exact onCore_keeps h (R4300.rType_keeps op m.core _)
  | addi | addiu | daddi | daddiu | slti | sltiu | andi | ori | xori | lui =>
    exact onCore_keeps h (R4300.iType_keeps op m.core _)
  | sll | dsll | dsll32 | srl | dsrl | dsrl32 | sra | dsra | dsra32 =>
    exact onCore_keeps h (R4300.shiftType_keeps op m.core _)
  | mult | multu | dmult | dmultu | div | divu | ddiv | ddivu =>
    exact onCore_keeps h (R4300.hiLoType_gpr op m.core _)
  | mthi | mtlo | ni => exact onCore_keeps h (.of_eq rfl)
  | nop | cache | sync =>
    obtain rfl := Option.some.inj h
    exact .of_eq rfl
  | mfhi | mflo => exact onCore_keeps h (.update rfl _ _)
  | lb | lbu | lh | lhu | lw | lwu | lwl | lwr =>
    obtain rfl := Option.some.inj h
    exact loadWord_keeps henv op m _
  | ld | ldl | ldr =>
    obtain rfl := Option.some.inj h
    exact loadDword_keeps henv op _ m _
  | ll =>
    obtain rfl := Option.some.inj h
    exact ll_keeps henv op m
  | sc =>
    obtain rfl := Option.some.inj h
    exact sc_keeps henv op m
  | sb | sh | sw | swl | swr =>
    obtain rfl := Option.some.inj h
    exact .of_eq (writeAlignedWord_gpr henv m.addToPc _ _ _)
  | sd | sdl | sdr =>
    obtain rfl := Option.some.inj h
    exact .of_eq (writeAlignedDword_gpr henv m.addToPc _ _ _)
  | reserved | brk | syscall =>
    exact onCore_keeps h (.of_eq (raise_files m.core _).regs)
  | tge | tgeu | tgei | tgeiu | tlt | tltu | tlti | tltiu | teq | teqi | tne | tnei =>
    exact onCore_keeps h (.of_eq (R4300.declareTrap_gpr m.core _))
  | eret => exact onCore_keeps h (.of_eq (R4300.eret_gpr henv m.core))
  | tlbp => exact onCore_keeps h (.of_eq (tlbp_gpr m.core))
  | tlbr => exact onCore_keeps h (.of_eq (tlbr_gpr m.core))
  | tlbwr =>
    refine onCore?_keeps h fun r' hr' => .of_eq ?_
    obtain ⟨r, hr, hwrite⟩ := Option.bind_eq_some_iff.mp hr'
    exact (tlbWriteAt_gpr hwrite).trans (updateRandom_gpr hr)
  | tlbwi => exact onCore?_keeps h fun r' hr' => .of_eq (tlbWriteAt_gpr hr')
  | mfc0 =>
    refine onCore?_keeps (f := fun r => mfc0 r (cp0RegOf (fsOf op)) (rtReg op)) h fun r' hr' => ?_
    obtain ⟨r, hr, rfl⟩ := Option.map_eq_some_iff.mp hr'
    exact .update (refreshRegister_gpr hr) _ _
  | dmfc0 =>
    refine onCore?_keeps (f := fun r => dmfc0 r (cp0RegOf (fsOf op)) (rtReg op)) h fun r' hr' => ?_
    obtain ⟨r, hr, rfl⟩ := Option.map_eq_some_iff.mp hr'
    exact .update (refreshRegister_gpr hr) _ _
  | mtc0 =>
    by_cases hstatus : cp0RegOf (fsOf op) = .status
    · have hclear : m.core.gpr32 (rtReg op) &&& 0x080000 = 0 := by
        by_contra hset
        exact hmask ⟨rfl, hstatus, hset⟩
      have hkeeps := (mtc0Status_frame henv m.core (rtReg op)).mpr hclear
      rw [← hstatus] at hkeeps
      exact onCore_keeps h hkeeps
    · exact onCore_keeps h (.of_eq (mtc0_gpr henv m.core hstatus (rtReg op)))
  | reservedCop2 =>
    exact onCore_keeps h (R4300.checkCop2Unusable_keeps (.of_eq (raise_files m.core _).regs))
  | mfc2 | dmfc2 | cfc2 =>
    exact onCore_keeps h (R4300.checkCop2Unusable_keeps (.update rfl _ _))
  | mtc2 | dmtc2 | ctc2 =>
    exact onCore_keeps h (R4300.checkCop2Unusable_keeps (.of_eq rfl))
  | lwc1 =>
    obtain rfl := Option.some.inj h
    exact usingCop1_keeps (.of_eq ((finishLoadCp1_gpr _ _).trans
      (readAlignedWord_gpr henv m.addToPc _)))
  | ldc1 =>
    obtain rfl := Option.some.inj h
    exact usingCop1_keeps (.of_eq ((finishLoadCp1_gpr _ _).trans
      (readAlignedDword_gpr henv m.addToPc _)))
  | swc1 =>
    obtain rfl := Option.some.inj h
    exact usingCop1_keeps (.of_eq (writeAlignedWord_gpr henv m.addToPc _ _ _))
  | sdc1 =>
    obtain rfl := Option.some.inj h
    exact usingCop1_keeps (.of_eq (writeAlignedDword_gpr henv m.addToPc _ _ _))
  | mfc1 | dmfc1 =>
    exact onCore_keeps h (R4300.usingCop1_keeps (.update rfl _ _))
  | cfc1 => exact onCore_keeps h (R4300.cfc1_keeps op m.core)
  | mtc1 | dmtc1 =>
    exact onCore_keeps h (R4300.usingCop1_keeps (.of_eq rfl))
  | ctc1 => exact onCore_keeps h (R4300.ctc1_keeps op m.core)
  | dcfc1 | dctc1 =>
    exact onCore_keeps h (R4300.unimplementedMove_keeps env.fpu m.core)
  | fpu fpuOp fmt => exact onCore_keeps h (R4300.fpuInstruction_keeps env.fpu fpuOp fmt op m.core)
  | _ => cases h

/-- Only the jumps have the parameters of one. -/
theorem exec_of_not_jump (env : Env M) {routine : Routine} (h : routine.isJump = false)
    (op : BitVec 32) (m : Machine M) : m.exec env routine op = m.execPlain env routine op := by
  have hnone : m.core.jumpOf? routine op = none := by
    cases routine <;> first | rfl | cases h
  rw [Machine.exec, hnone]

/-- **Frame law** It holds of an instruction that is no jump, but for a write of Status whose
    operand has bit 19 set. -/
theorem frameLaw_iff (env : Env M) (henv : env.KeepsRegisters) (routine : Routine)
    (hplain : routine.isJump = false) (op : BitVec 32) (m : Machine M) :
    FrameLaw env routine op m ↔ ¬masksOperand routine op m := by
  constructor
  · rintro hlaw ⟨rfl, hstatus, hset⟩
    have hkeeps := hlaw (m.onCore fun r => mtc0 env.surroundings r .status (rtReg op)) (by
      rw [exec_of_not_jump env hplain, ← hstatus]
      rfl)
    exact hset ((mtc0Status_frame henv m.core (rtReg op)).mp hkeeps)
  · intro hmask m' hexec
    rw [exec_of_not_jump env hplain] at hexec
    exact execPlain_frame henv hmask hexec

/-- A core with bit 19 set in register 1. -/
def bit19Core : R4300 := (initR4300 .pureInterpreter 2 0 0xa4000040).setGpr 1 0x080000

/-- Of `ADD $3, $1, $2`. -/
theorem frameLaw_iff_add : Env.bare.KeepsRegisters ∧
    FrameLaw .bare .add 0x00221820 (.bare bit19Core) :=
  have henv : Env.bare.KeepsRegisters := ⟨fun _ => rfl, fun _ _ => rfl, fun _ _ _ _ => rfl⟩
  ⟨henv, (frameLaw_iff .bare henv .add rfl 0x00221820 (.bare bit19Core)).mpr fun h => nomatch h.1⟩

/-- `MTC0 $1, Status` clears bit 19 of `$1`. -/
theorem mtc0_masks_operand : ¬∀ m : Machine Unit, FrameLaw .bare .mtc0 0x40816000 m := by
  intro h
  have hkeeps := h (.bare bit19Core) _ rfl 1 (by decide)
  exact absurd hkeeps (by decide)

end Mupen64plus
