import Mupen64plus.R4300.GeneralRegisters

/-!
# The test for coprocessor 1

Every instruction on coprocessor 1 is to raise an exception while CU1 is clear in Status. The test
for that stands in each body by itself.

## Main definitions

- `Cop1Handler` — the functions of the instructions on coprocessor 1
- `CoprocessorUnusable` — the exception, and what it leaves alone

## Main results

- `cop1Unusable_iff` — four compares start without the test
-/

namespace Mupen64plus

variable {M : Type}

/-- The formats for which `mips_instructions.def` has a computation. -/
def FpuOp.formats : FpuOp → List Format
  | .cvtS => [.D, .W, .L]
  | .cvtD => [.S, .W, .L]
  | _ => [.S, .D]

/-- The instructions on coprocessor 1. -/
def Routine.isCop1 : Routine → Bool
  | .lwc1 | .ldc1 | .swc1 | .sdc1 | .mfc1 | .dmfc1 | .cfc1 | .dcfc1 | .mtc1 | .dmtc1 | .ctc1
  | .dctc1 | .bc1f | .bc1fl | .bc1t | .bc1tl => true
  | .fpu op fmt => op.formats.contains fmt
  | _ => false

def Cop1Handler : Type := { h : Handler // h.routine.isCop1 = true }

/-- `C_SF_D`, `C_NGLE_D`, `C_SEQ_D` and `C_NGL_D`. -/
def Routine.isUncheckedCompare : Routine → Bool
  | .fpu op fmt => R4300.isUnchecked op fmt
  | _ => false

def causeCEMask : BitVec 32 := 0x30000000

/-- The exception of an unusable coprocessor 1. -/
structure CoprocessorUnusable (m m' : Machine M) : Prop where
  raised : m'.core = m.core.raise (excCode 11 ||| causeCE1)
  excCode : m'.core.cp0Reg .cause &&& causeExcCodeMask = excCode 11
  ce : m'.core.cp0Reg .cause &&& causeCEMask = causeCE1
  cp1 : m'.core.cp1 = m.core.cp1
  regs : m'.core.regs = m.core.regs
  dram : m'.dram = m.dram
  outside : m'.outside = m.outside

theorem coprocessorUnusable (m : Machine M) :
    CoprocessorUnusable m { m with core := m.core.raise (excCode 11 ||| causeCE1) } where
  raised := rfl
  excCode := raise_cause m.core _ causeExcCodeMask (by decide)
  ce := raise_cause m.core _ causeCEMask (by decide)
  cp1 := (raise_files m.core _).cp1
  regs := (raise_files m.core _).regs
  dram := rfl
  outside := rfl

-- ════════════════════════════════════════════════════════════════════════
-- Bodies with the test
-- ════════════════════════════════════════════════════════════════════════

theorem checkCop1Unusable_clear {r : R4300} (h : r.cp0Reg .status &&& statusCU1 = 0) :
    r.checkCop1Unusable = some (r.raise (excCode 11 ||| causeCE1)) := if_pos h

theorem R4300.usingCop1_clear {r : R4300} (h : r.cp0Reg .status &&& statusCU1 = 0)
    (body : R4300) : r.usingCop1 body = r.raise (excCode 11 ||| causeCE1) := by
  rw [R4300.usingCop1, checkCop1Unusable_clear h, Option.getD_some]

theorem Machine.usingCop1_clear {m : Machine M} (h : m.core.cp0Reg .status &&& statusCU1 = 0)
    (body : Machine M) :
    m.usingCop1 body = { m with core := m.core.raise (excCode 11 ||| causeCE1) } := by
  rw [Machine.usingCop1, checkCop1Unusable_clear h]

/-- A branch on coprocessor 1, in both of its functions. -/
theorem declareJump_clear (env : Env M) {jump : Jump} (hjump : jump.cop1 = true) {m : Machine M}
    (h : m.core.cp0Reg .status &&& statusCU1 = 0) :
    m.declareJump env jump = some { m with core := m.core.raise (excCode 11 ||| causeCE1) } ∧
      m.declareJumpIdle env jump =
        some { m with core := m.core.raise (excCode 11 ||| causeCE1) } := by
  rw [Machine.declareJump, Machine.declareJumpIdle, if_pos hjump, checkCop1Unusable_clear h]
  exact ⟨rfl, rfl⟩

/-- A computation that is not one of the four compares. -/
theorem fpuInstruction_clear (fpu : Fpu) {fpuOp : FpuOp} {fmt : Format} (op : BitVec 32)
    {r : R4300} (hchecked : R4300.isUnchecked fpuOp fmt = false)
    (h : r.cp0Reg .status &&& statusCU1 = 0) :
    r.fpuInstruction fpu fpuOp fmt op = r.raise (excCode 11 ||| causeCE1) := by
  rw [R4300.fpuInstruction, hchecked, if_neg (by decide), R4300.usingCop1_clear h]

/-- The four compares go on. -/
theorem fpuInstruction_unchecked (fpu : Fpu) {fpuOp : FpuOp} {fmt : Format} (op : BitVec 32)
    (r : R4300) (hunchecked : R4300.isUnchecked fpuOp fmt = true) :
    (r.fpuInstruction fpu fpuOp fmt op).cp0 = r.cp0 := by
  rw [R4300.fpuInstruction, if_pos hunchecked, R4300.uncheckedFpuInstruction]
  rfl

/-- A routine with the test, jumps apart. -/
theorem execPlain_clear (env : Env M) {routine : Routine} (hcop1 : routine.isCop1 = true)
    (hchecked : routine.isUncheckedCompare = false) (op : BitVec 32) {m : Machine M}
    (hjump : m.core.jumpOf? routine op = none) (h : m.core.cp0Reg .status &&& statusCU1 = 0) :
    m.execPlain env routine op =
      some { m with core := m.core.raise (excCode 11 ||| causeCE1) } := by
  have hmem (body : Machine M) := congrArg some (Machine.usingCop1_clear h body)
  have hcore (f : R4300 → R4300) (hf : f m.core = m.core.raise (excCode 11 ||| causeCE1)) :
      some (m.onCore f) = some { m with core := m.core.raise (excCode 11 ||| causeCE1) } := by
    rw [Machine.onCore, hf]
  cases routine with
  | lwc1 => exact hmem _
  | ldc1 => exact hmem _
  | swc1 => exact hmem _
  | sdc1 => exact hmem _
  | mfc1 => exact hcore (R4300.mfc1 op) (R4300.usingCop1_clear h _)
  | dmfc1 => exact hcore (R4300.dmfc1 op) (R4300.usingCop1_clear h _)
  | cfc1 => exact hcore (R4300.cfc1 op) (R4300.usingCop1_clear h _)
  | dcfc1 => exact hcore (R4300.dcfc1 env.fpu) (R4300.usingCop1_clear h _)
  | mtc1 => exact hcore (R4300.mtc1 op) (R4300.usingCop1_clear h _)
  | dmtc1 => exact hcore (R4300.dmtc1 op) (R4300.usingCop1_clear h _)
  | ctc1 => exact hcore (R4300.ctc1 op) (R4300.usingCop1_clear h _)
  | dctc1 => exact hcore (R4300.dctc1 env.fpu) (R4300.usingCop1_clear h _)
  | fpu fpuOp fmt =>
    exact hcore (R4300.fpuInstruction env.fpu fpuOp fmt op)
      (fpuInstruction_clear env.fpu op hchecked h)
  | bc1f => cases hjump
  | bc1fl => cases hjump
  | bc1t => cases hjump
  | bc1tl => cases hjump
  | _ => cases hcop1

theorem jumpOf?_cop1 {routine : Routine} (hcop1 : routine.isCop1 = true) {r : R4300}
    {op : BitVec 32} {jump : Jump} (hjump : r.jumpOf? routine op = some jump) :
    jump.cop1 = true := by
  cases routine with
  | bc1f => exact Option.some.inj hjump ▸ rfl
  | bc1fl => exact Option.some.inj hjump ▸ rfl
  | bc1t => exact Option.some.inj hjump ▸ rfl
  | bc1tl => exact Option.some.inj hjump ▸ rfl
  | lwc1 | ldc1 | swc1 | sdc1 | mfc1 | dmfc1 | cfc1 | dcfc1 | mtc1 | dmtc1 | ctc1 | dctc1 =>
    cases hjump
  | fpu => cases hjump
  | _ => cases hcop1

theorem execHandler_clear (env : Env M) {h : Handler} (hcop1 : h.routine.isCop1 = true)
    (hchecked : h.routine.isUncheckedCompare = false) (op : BitVec 32) {m : Machine M}
    (hclear : m.core.cp0Reg .status &&& statusCU1 = 0) : m.execHandler env h op =
      some { m with core := m.core.raise (excCode 11 ||| causeCE1) } := by
  have hexec : m.exec env h.routine op =
      some { m with core := m.core.raise (excCode 11 ||| causeCE1) } := by
    unfold Machine.exec
    split
    next jump hjump => exact (declareJump_clear env (jumpOf?_cop1 hcop1 hjump) hclear).1
    next hjump => exact execPlain_clear env hcop1 hchecked op hjump hclear
  unfold Machine.execHandler
  split
  next jump hvariant hjump => exact (declareJump_clear env (jumpOf?_cop1 hcop1 hjump) hclear).2
  next => exact hexec

-- ════════════════════════════════════════════════════════════════════════
-- The instructions that meet it
-- ════════════════════════════════════════════════════════════════════════

/-- A core as it starts, with CU1 clear in Status and nothing in Cause. -/
def coldCore : R4300 := initR4300 .pureInterpreter 2 0 0xa4000040

/-- **Unusable coprocessor** All instructions but the four compares raise it, in every state. -/
theorem cop1Unusable_iff [Inhabited M] (env : Env M) (h : Cop1Handler) (op : BitVec 32) :
    (∀ m : Machine M, m.core.cp0Reg .status &&& statusCU1 = 0 →
      ∃ m', m.execHandler env h.val op = some m' ∧ CoprocessorUnusable m m') ↔
        h.val.routine.isUncheckedCompare = false := by
  constructor
  · intro hall
    by_contra hunchecked
    have hunchecked : h.val.routine.isUncheckedCompare = true := by
      rwa [Bool.not_eq_false] at hunchecked
    have hclear : coldCore.cp0Reg .status &&& statusCU1 = 0 := by decide
    obtain ⟨m', hm', hraised⟩ := hall ⟨coldCore, fun _ => 0, 0x400000, .inl rfl, default⟩ hclear
    obtain ⟨⟨routine, variant⟩, hcop1⟩ := h
    cases routine with
    | fpu fpuOp fmt =>
      have hexec : Machine.execHandler env ⟨.fpu fpuOp fmt, variant⟩ op
          ⟨coldCore, fun _ => 0, 0x400000, .inl rfl, default⟩ =
            some ⟨coldCore.fpuInstruction env.fpu fpuOp fmt op, fun _ => 0, 0x400000, .inl rfl,
              default⟩ := by
        cases variant <;> rfl
      obtain rfl := Option.some.inj (hexec.symm.trans hm')
      have hcause := hraised.excCode
      rw [R4300.cp0Reg, fpuInstruction_unchecked _ _ _ hunchecked] at hcause
      exact absurd hcause (by decide)
    | _ => cases hunchecked
  · intro hchecked m hclear
    exact ⟨_, execHandler_clear env h.property hchecked op hclear, coprocessorUnusable m⟩

/-- `C.SF.D $f0, $f2` after a compare that was true: no exception, and the condition is gone. -/
theorem cSfD_runs : ¬∀ m : Machine Unit, m.core.cp0Reg .status &&& statusCU1 = 0 →
    ∃ m', m.execHandler .bare ⟨.fpu .cSf .D, .regular⟩ 0x46220038 = some m' ∧
      CoprocessorUnusable m m' := by
  intro hall
  obtain ⟨m', hm', hraised⟩ := hall
    (.bare { coldCore with cp1 := { coldCore.cp1 with fcr31 := fcr31CmpBit } }) (by decide)
  obtain rfl := Option.some.inj hm'
  exact absurd (congrArg Cp1.fcr31 hraised.cp1) (by decide)

end Mupen64plus
