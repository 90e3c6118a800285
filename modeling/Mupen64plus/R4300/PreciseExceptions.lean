import Mupen64plus.R4300.ServedInterrupts

/-!
# Precise exceptions

Where EPC points behind an instruction that raises an exception, or takes an interrupt, in and out
of a branch delay slot, and while EXL is set.

## Main definitions

- `Raised`, `Machine.raised?` — the exception that a routine raises by itself
- `ExceptionEntry`, `Machine.Excepts` — such an exception, or an interrupt
- `Precise`, `PreciseServed` — EPC has the instruction, or its branch; while EXL is set EPC stays
- `PreciseWhen`, `PreciseServedWhen` — the conditions on the core

## Main results

- `execHandler_raised` — a routine enters the exception it raises
- `interrupted_precise_iff`, `served_start` — interrupts, which are late in most of the delay slots
- `precise_iff`
-/

namespace Mupen64plus

variable {M : Type}

-- ════════════════════
-- What raises an exception
-- ════════════════════

/-- The exceptions that routines raise by themselves: `exception_general`, and in a load or a store
`TLB_refill_exception`. -/
inductive Raised where
  | general (cause : BitVec 32)
  | load (address : BitVec 32)
  | store (address : BitVec 32)
  deriving DecidableEq, Repr

/-- A memory access stands behind `ADD_TO_PC`. -/
def Raised.enter (r : R4300) : Raised → R4300
  | .general cause => r.raise cause
  | .load address => tlbRefillException r.addToPc address .read
  | .store address => tlbRefillException r.addToPc address .write

namespace R4300

def cop1Raised (r : R4300) : Option Raised :=
  if r.cp0Reg .status &&& statusCU1 = 0 then some (.general (excCode 11 ||| causeCE1)) else none

def cop2Raised (r : R4300) : Option Raised :=
  if r.cp0Reg .status &&& statusCU2 = 0 then some (.general (excCode 11 ||| causeCE2)) else none

def trapRaised (cond : Bool) : Option Raised := if cond then some (.general (excCode 13)) else none

/-- A translation that raises an exception. -/
def misses (r : R4300) (address : BitVec 32) (w : Access) : Bool :=
  !isUnmapped address && (r.cp0.tlb.lookup address w).isNone && r.ignoreTlbExceptions != 2

def loadRaised (r : R4300) (address : BitVec 32) : Option Raised :=
  if r.misses address .read then some (.load address) else none

def storeRaised (r : R4300) (address : BitVec 32) : Option Raised :=
  if r.misses address .write then some (.store address) else none

end R4300

/-- The exception that a routine raises by itself, if it does; those of `gen_interrupt` are in
`served?`. -/
def Machine.raised? (m : Machine M) (routine : Routine) (op : BitVec 32) : Option Raised :=
  let r := m.core
  let rs := r.regs (rsReg op)
  let rt := r.regs (rtReg op)
  let i := iimmediate64 op
  let lsaddr := m.lsaddr op
  match routine with
  | .reserved => some (.general (excCode 10))
  | .brk => some (.general (excCode 9))
  | .syscall => some (.general (excCode 8))
  | .reservedCop2 => r.cop2Raised.or (some (.general (excCode 10 ||| causeCE2)))
  | .tge => R4300.trapRaised (rt.sle rs)
  | .tgeu => R4300.trapRaised (rt.ule rs)
  | .tgei => R4300.trapRaised (i.sle rs)
  | .tgeiu => R4300.trapRaised (i.ule rs)
  | .tlt => R4300.trapRaised (rs.slt rt)
  | .tltu => R4300.trapRaised (rs.ult rt)
  | .tlti => R4300.trapRaised (rs.slt i)
  | .tltiu => R4300.trapRaised (rs.ult i)
  | .teq => R4300.trapRaised (rs == rt)
  | .teqi => R4300.trapRaised (rs == i)
  | .tne => R4300.trapRaised (rs != rt)
  | .tnei => R4300.trapRaised (rs != i)
  | .lb | .lbu | .lh | .lhu | .ll | .lw | .lwu | .lwl | .lwr | .ld => r.loadRaised lsaddr
  | .ldl | .ldr => r.loadRaised (lsaddr &&& ~~~7)
  | .sb | .sh | .sw | .sd => r.storeRaised lsaddr
  | .sc => if r.llbit ≠ 0 then r.storeRaised lsaddr else none
  | .swl | .swr => r.storeRaised (lsaddr &&& ~~~3)
  | .sdl | .sdr => r.storeRaised (lsaddr &&& ~~~7)
  | .lwc1 | .ldc1 => r.cop1Raised.or (r.loadRaised lsaddr)
  | .swc1 | .sdc1 => r.cop1Raised.or (r.storeRaised lsaddr)
  | .mfc1 | .dmfc1 | .cfc1 | .mtc1 | .dmtc1 | .ctc1
  | .bc1f | .bc1fl | .bc1t | .bc1tl => r.cop1Raised
  | .dcfc1 | .dctc1 => r.cop1Raised.or (some (.general (excCode 15)))
  | .fpu fpuOp fmt => if R4300.isUnchecked fpuOp fmt then none else r.cop1Raised
  | .mfc2 | .dmfc2 | .cfc2 | .mtc2 | .dmtc2 | .ctc2 => r.cop2Raised
  | _ => none

-- ════════════════════
-- A routine enters the exception it raises
-- ════════════════════

/-- What an exception is entered on: registers of CP1 and code of the recompiler apart, the core
before the instruction. -/
structure SameStart (r r' : R4300) : Prop where
  pc : r'.pc = r.pc
  delaySlot : r'.delaySlot = r.delaySlot
  emumode : r'.emumode = r.emumode
  cp0 : r'.cp0 = r.cp0

/-- The exception is entered from the core of a machine. -/
def Entered (e : Raised) (m m' : Machine M) : Prop :=
  ∃ r, SameStart m.core r ∧ m'.core = e.enter r

theorem Entered.core {e : Raised} {m m' : Machine M} (h : m'.core = e.enter m.core) :
    Entered e m m' := ⟨m.core, ⟨rfl, rfl, rfl, rfl⟩, h⟩

section

variable {m : Machine M} {e : Raised}

theorem R4300.cop1Raised_eq_some {r : R4300} (h : r.cop1Raised = some e) :
    r.cp0Reg .status &&& statusCU1 = 0 ∧ e = .general (excCode 11 ||| causeCE1) := by
  unfold cop1Raised at h
  split at h
  · next hclear => exact ⟨hclear, (Option.some_inj.mp h).symm⟩
  · cases h

theorem R4300.cop1Raised_eq_none {r : R4300} (h : r.cop1Raised = none) :
    r.checkCop1Unusable = none := by
  unfold cop1Raised at h
  split at h
  · cases h
  · next hset => exact if_neg hset

theorem translate_misses {address : BitVec 32} {w : Access} (h : m.core.misses address w = true) :
    m.addToPc.translate address w =
      (none, { m with core := tlbRefillException m.core.addToPc address w }) := by
  simp only [R4300.misses, Bool.and_eq_true, Bool.not_eq_true', Option.isNone_iff_eq_none,
    bne_iff_ne] at h
  obtain ⟨⟨hmapped, hlookup⟩, hignore⟩ := h
  have hnone : m.addToPc.core.cp0.tlb.lookup address w = none := hlookup
  have hraise : m.addToPc.core.ignoreTlbExceptions ≠ 2 := hignore
  unfold Machine.translate virtualToPhysicalAddress
  rw [hmapped, hnone]
  simp only [Bool.false_eq_true, if_false, if_neg hraise, if_true]
  rfl

theorem translate_load {address : BitVec 32} (h : m.core.loadRaised address = some e) :
    m.addToPc.translate address .read = (none, { m with core := e.enter m.core }) := by
  unfold R4300.loadRaised at h
  split at h
  · next hmiss =>
    obtain rfl := Option.some_inj.mp h
    exact translate_misses hmiss
  · cases h

theorem translate_store {address : BitVec 32} (h : m.core.storeRaised address = some e) :
    m.addToPc.translate address .write = (none, { m with core := e.enter m.core }) := by
  unfold R4300.storeRaised at h
  split at h
  · next hmiss =>
    obtain rfl := Option.some_inj.mp h
    exact translate_misses hmiss
  · cases h

theorem readAlignedWord_raised (o : OtherRegions M) {address : BitVec 32}
    (h : m.core.loadRaised address = some e) :
    m.addToPc.readAlignedWord o address = (none, { m with core := e.enter m.core }) := by
  rw [Machine.readAlignedWord, translate_load h]

theorem readAlignedDword_raised (o : OtherRegions M) {address : BitVec 32}
    (h : m.core.loadRaised address = some e) :
    m.addToPc.readAlignedDword o address = (none, { m with core := e.enter m.core }) := by
  rw [Machine.readAlignedDword, translate_load h]

/-- The pure interpreter has no code to invalidate. -/
theorem openStore_raised (hpure : m.core.emumode = .pureInterpreter) {address : BitVec 32}
    (size : BitVec 32) (h : m.core.storeRaised address = some e) :
    m.addToPc.openStore address size = (none, { m with core := e.enter m.core }) := by
  have hkeep : m.addToPc.invalidate address size = m.addToPc := by
    have hmode : m.addToPc.core.emumode = .pureInterpreter := hpure
    rw [Machine.invalidate, invalidateR4300CachedCode, hmode]
  rw [Machine.openStore, hkeep, ite_self, translate_store h]

theorem writeAlignedWord_raised (o : OtherRegions M) (hpure : m.core.emumode = .pureInterpreter)
    {address : BitVec 32} (value mask : BitVec 32)
    (h : m.core.storeRaised address = some e) :
    m.addToPc.writeAlignedWord o address value mask =
      (false, { m with core := e.enter m.core }) := by
  rw [Machine.writeAlignedWord, openStore_raised hpure 4 h]

theorem writeAlignedDword_raised (o : OtherRegions M) (hpure : m.core.emumode = .pureInterpreter)
    {address : BitVec 32} (value mask : BitVec 64)
    (h : m.core.storeRaised address = some e) :
    m.addToPc.writeAlignedDword o address value mask =
      (false, { m with core := e.enter m.core }) := by
  rw [Machine.writeAlignedDword, openStore_raised hpure 8 h]

theorem usingCop1_raised {body : R4300} (h : m.core.cop1Raised = some e) :
    m.core.usingCop1 body = e.enter m.core := by
  obtain ⟨hclear, rfl⟩ := R4300.cop1Raised_eq_some h
  exact R4300.usingCop1_clear hclear body

theorem checkCop2Unusable_raised {body : R4300} (h : m.core.cop2Raised = some e) :
    m.core.checkCop2Unusable body = e.enter m.core := by
  unfold R4300.cop2Raised at h
  split at h
  · next hclear =>
    obtain rfl := Option.some_inj.mp h
    exact if_pos hclear
  · cases h

theorem declareTrap_raised {cond : Bool} (h : R4300.trapRaised cond = some e) :
    m.core.declareTrap cond = e.enter m.core := by
  unfold R4300.trapRaised at h
  split at h
  · next hcond =>
    obtain rfl := Option.some_inj.mp h
    exact if_pos hcond
  · cases h

/-- The test of a body that accesses memory, and the access. -/
theorem usingCop1_access {access : Option Raised} {body : Machine M}
    (h : m.core.cop1Raised.or access = some e)
    (hbody : access = some e → body = { m with core := e.enter m.core }) :
    m.usingCop1 body = { m with core := e.enter m.core } := by
  cases hcop1 : m.core.cop1Raised with
  | some e' =>
    rw [hcop1, Option.some_or] at h
    obtain rfl := Option.some_inj.mp h
    obtain ⟨hclear, rfl⟩ := R4300.cop1Raised_eq_some hcop1
    exact Machine.usingCop1_clear hclear body
  | none =>
    rw [hcop1] at h
    rw [Machine.usingCop1, R4300.cop1Raised_eq_none hcop1]
    exact hbody h

/-- The moves that there are not. -/
theorem unimplementedMove_raised (fpu : Fpu)
    (h : m.core.cop1Raised.or (some (.general (excCode 15))) = some e) :
    Entered e m { m with core := m.core.unimplementedMove fpu } := by
  cases hcop1 : m.core.cop1Raised with
  | some e' =>
    rw [hcop1, Option.some_or] at h
    obtain rfl := Option.some_inj.mp h
    exact .core (usingCop1_raised hcop1)
  | none =>
    rw [hcop1] at h
    obtain rfl := Option.some_inj.mp h
    refine ⟨{ m.core with cp1 := { m.core.cp1 with
      fcr31 := fpu.resetCause m.core.cp1.fcr31 ||| fcr31UnimplOp } }, ⟨rfl, rfl, rfl, rfl⟩, ?_⟩
    dsimp only
    rw [R4300.unimplementedMove, R4300.usingCop1, R4300.cop1Raised_eq_none hcop1,
      Option.getD_none]
    rfl

/-- A routine enters the exception it raises, jumps apart. -/
theorem execPlain_raised (env : Env M) (hpure : m.core.emumode = .pureInterpreter)
    {routine : Routine} {op : BitVec 32} (hjump : m.core.jumpOf? routine op = none)
    (h : m.raised? routine op = some e) :
    ∃ m', m.execPlain env routine op = some m' ∧ Entered e m m' := by
  have hcore {f : R4300 → R4300} (hf : f m.core = e.enter m.core) :
      ∃ m', some (m.onCore f) = some m' ∧ Entered e m m' := ⟨_, rfl, .core hf⟩
  have hmem {body : Machine M} (hbody : body = { m with core := e.enter m.core }) :
      ∃ m', some body = some m' ∧ Entered e m m' := ⟨_, rfl, .core (congrArg Machine.core hbody)⟩
  have hword (value : BitVec 32 → BitVec 64 → BitVec 32 → BitVec 64)
      (hread : m.core.loadRaised (m.lsaddr op) = some e) :
      Machine.loadWord env.other op m value = { m with core := e.enter m.core } := by
    rw [Machine.loadWord, readAlignedWord_raised _ hread]
    rfl
  have hdword {address : BitVec 32} (value : BitVec 64 → BitVec 64 → BitVec 64)
      (hread : m.core.loadRaised address = some e) :
      Machine.finishLoad (rtReg op) value (m.addToPc.readAlignedDword env.other address) =
        { m with core := e.enter m.core } := by
    rw [readAlignedDword_raised _ hread]
    rfl
  have hstore {address : BitVec 32} (value mask : BitVec 32)
      (hwrite : m.core.storeRaised address = some e) :
      (m.addToPc.writeAlignedWord env.other address value mask).2 =
        { m with core := e.enter m.core } := by
    rw [writeAlignedWord_raised _ hpure _ _ hwrite]
  have hstore64 {address : BitVec 32} (value mask : BitVec 64)
      (hwrite : m.core.storeRaised address = some e) :
      (m.addToPc.writeAlignedDword env.other address value mask).2 =
        { m with core := e.enter m.core } := by
    rw [writeAlignedDword_raised _ hpure _ _ hwrite]
  cases routine with
  | reserved | brk | syscall => exact hcore (Option.some_inj.mp h ▸ rfl)
  | reservedCop2 =>
    cases hcop2 : m.core.cop2Raised with
    | some e' =>
      simp only [Machine.raised?, hcop2, Option.some_or] at h
      obtain rfl := Option.some_inj.mp h
      exact hcore (checkCop2Unusable_raised hcop2)
    | none =>
      simp only [Machine.raised?, hcop2] at h
      obtain rfl := Option.some_inj.mp h
      refine hcore (if_neg ?_)
      intro hclear
      rw [R4300.cop2Raised, if_pos hclear] at hcop2
      cases hcop2
  | tge | tgeu | tgei | tgeiu | tlt | tltu | tlti | tltiu | teq | teqi | tne | tnei =>
    exact hcore (declareTrap_raised h)
  | lb | lbu | lh | lhu | lw | lwu | lwl | lwr => exact hmem (hword _ h)
  | ll =>
    refine hmem ?_
    rw [Machine.ll, readAlignedWord_raised _ h]
  | ld | ldl | ldr => exact hmem (hdword _ h)
  | sb | sh | sw | swl | swr => exact hmem (hstore _ _ h)
  | sc =>
    simp only [Machine.raised?] at h
    split at h
    · next hlinked =>
      refine hmem ?_
      rw [Machine.sc, if_pos hlinked, writeAlignedWord_raised _ hpure _ _ h]
    · cases h
  | sd | sdl | sdr => exact hmem (hstore64 _ _ h)
  | lwc1 =>
    refine hmem (usingCop1_access h fun hread => ?_)
    rw [readAlignedWord_raised _ hread]
    rfl
  | ldc1 =>
    refine hmem (usingCop1_access h fun hread => ?_)
    rw [readAlignedDword_raised _ hread]
    rfl
  | swc1 => exact hmem (usingCop1_access h fun hwrite => hstore _ _ hwrite)
  | sdc1 => exact hmem (usingCop1_access h fun hwrite => hstore64 _ _ hwrite)
  | mfc1 | dmfc1 | cfc1 | mtc1 | dmtc1 | ctc1 => exact hcore (usingCop1_raised h)
  | dcfc1 | dctc1 => exact ⟨_, rfl, unimplementedMove_raised env.fpu h⟩
  | fpu fpuOp fmt =>
    simp only [Machine.raised?] at h
    split at h
    · cases h
    · next hchecked =>
      refine hcore ?_
      rw [R4300.fpuInstruction, if_neg hchecked, usingCop1_raised h]
  | mfc2 | dmfc2 | cfc2 | mtc2 | dmtc2 | ctc2 => exact hcore (checkCop2Unusable_raised h)
  | bc1f | bc1fl | bc1t | bc1tl => cases hjump
  | _ => cases h

/-- A branch on coprocessor 1 is the only jump that raises an exception by itself. -/
theorem jump_raised {routine : Routine} {op : BitVec 32} {jump : Jump}
    (hjump : m.core.jumpOf? routine op = some jump) (h : m.raised? routine op = some e) :
    jump.cop1 = true ∧ m.core.cop1Raised = some e := by
  cases routine with
  | bc1f | bc1fl | bc1t | bc1tl => exact ⟨jumpOf?_cop1 rfl hjump, h⟩
  | j | jal | jr | jalr | beq | beql | bne | bnel | blez | blezl | bgtz | bgtzl | bltz | bltzal
  | bltzl | bltzall | bgez | bgezal | bgezl | bgezall => cases h
  | _ => cases hjump

/-- **A routine enters the exception it raises**, in both of its variants. -/
theorem execHandler_raised (env : Env M) (handler : Handler)
    (hpure : m.core.emumode = .pureInterpreter) {op : BitVec 32}
    (h : m.raised? handler.routine op = some e) :
    ∃ m', m.execHandler env handler op = some m' ∧ Entered e m m' := by
  cases hjump : m.core.jumpOf? handler.routine op with
  | none =>
    have hplain : m.execHandler env handler op = m.execPlain env handler.routine op := by
      unfold Machine.execHandler Machine.exec
      rw [hjump]
      cases handler.variant <;> rfl
    rw [hplain]
    exact execPlain_raised env hpure hjump h
  | some jump =>
    obtain ⟨hcop1, hraised⟩ := jump_raised hjump h
    obtain ⟨hclear, rfl⟩ := R4300.cop1Raised_eq_some hraised
    obtain ⟨hregular, hidle⟩ := declareJump_clear env hcop1 hclear
    have hexec : m.execHandler env handler op =
        some { m with core := m.core.raise (excCode 11 ||| causeCE1) } := by
      unfold Machine.execHandler Machine.exec
      rw [hjump]
      split
      · next hjump' =>
        obtain rfl := Option.some_inj.mp hjump'
        exact hidle
      · exact hregular
    exact ⟨_, hexec, .core rfl⟩

end

-- ════════════════════
-- Where EPC points
-- ════════════════════

namespace R4300

/-- The instruction, or the branch it is in the delay slot of. -/
def faultAddress (r : R4300) : BitVec 32 := if r.inDelaySlot then r.pc - 4 else r.pc

/-- Out of an exception handler EPC has the instruction, or the branch with BD set, and EXL is set;
in one EPC stays. -/
def Precise (r r' : R4300) : Prop :=
  if r.cp0Reg .status &&& statusEXL = 0 then
    r'.cp0Reg .epc = r.faultAddress ∧
      (r.inDelaySlot = true → r'.cp0Reg .cause &&& causeBD ≠ 0) ∧
      r'.cp0Reg .status &&& statusEXL ≠ 0
  else r'.cp0Reg .epc = r.cp0Reg .epc

/-- EXL is clear, or EPC has the instruction already and the exception is a general one. -/
def PreciseWhen (r : R4300) (e : Raised) : Prop :=
  r.cp0Reg .status &&& statusEXL = 0 ∨
    match e with
    | .general _ => r.cp0Reg .epc = r.faultAddress
    | .load _ | .store _ => False

end R4300

/-- An exception of an instruction, or an interrupt that is taken on a core. -/
inductive ExceptionEntry where
  | raised (e : Raised)
  | served (p : R4300)

/-- What a handler enters an exception for. -/
inductive Machine.Excepts (env : Env M) (handler : Handler) (op : BitVec 32) (m : Machine M) :
    ExceptionEntry → Prop
  | raised {e : Raised} (h : m.raised? handler.routine op = some e) :
      Machine.Excepts env handler op m (.raised e)
  | served {p q : R4300} (h : m.served? env handler op = some (p, q)) (hq : p.Interrupted q) :
      Machine.Excepts env handler op m (.served p)

namespace R4300

/-- An interrupt on `p`, which an instruction takes that was begun on `r`: EPC has the branch in a
delay slot, and out of one the instruction that the interrupt is in front of. -/
def PreciseServed (r p r' : R4300) : Prop :=
  if p.cp0Reg .status &&& statusEXL = 0 then
    r'.cp0Reg .epc = (if r.inDelaySlot then r.pc - 4 else p.pc) ∧
      (r.inDelaySlot = true → r'.cp0Reg .cause &&& causeBD ≠ 0) ∧
      r'.cp0Reg .status &&& statusEXL ≠ 0
  else r'.cp0Reg .epc = p.cp0Reg .epc

/-- In a delay slot neither the program counter has moved on nor the slot is left; with EXL set EPC
has already what it is set to. -/
def PreciseServedWhen (r p : R4300) : Prop :=
  if p.cp0Reg .status &&& statusEXL = 0 then
    if r.inDelaySlot then p.inDelaySlot = true ∧ p.pc = r.pc else p.inDelaySlot = false
  else p.cp0Reg .epc = p.faultAddress

/-- Either kind of exception, entered behind `r`. -/
def PreciseBehind (r : R4300) : ExceptionEntry → R4300 → Prop
  | .raised _, r' => r.Precise r'
  | .served p, r' => r.PreciseServed p r'

def PreciseIf (r : R4300) : ExceptionEntry → Prop
  | .raised e => r.PreciseWhen e
  | .served p => r.PreciseServedWhen p

end R4300

/-- EPC, the BD bit and EXL behind an exception. -/
structure Enters (r : R4300) (epc : BitVec 32) (r' : R4300) : Prop where
  epc : r'.cp0Reg .epc = epc
  bd : r.inDelaySlot = true → r'.cp0Reg .cause &&& causeBD ≠ 0
  exl : r'.cp0Reg .status &&& statusEXL ≠ 0

/-- A bit that was just set. -/
theorem or_and_self_ne_zero (x : BitVec 32) {bit : BitVec 32} (h : bit ≠ 0) :
    (x ||| bit) &&& bit ≠ 0 := by
  have habsorb : (x ||| bit) &&& bit = bit := by
    apply BitVec.eq_of_getLsbD_eq
    intro i _
    rw [BitVec.getLsbD_and, BitVec.getLsbD_or]
    cases bit.getLsbD i <;> simp
  rwa [habsorb]

theorem cp0Reg_setCp0_self (r : R4300) (reg : Cp0Reg) (v : BitVec 32) :
    (r.setCp0 reg v).cp0Reg reg = v := Function.update_self ..

theorem cp0Reg_setCp0_of_ne (r : R4300) {reg other : Cp0Reg} (h : other ≠ reg) (v : BitVec 32) :
    (r.setCp0 reg v).cp0Reg other = r.cp0Reg other := Function.update_of_ne h _ _

theorem setBranchDelay_epc (r : R4300) : (setBranchDelay r).cp0Reg .epc =
    if r.inDelaySlot then r.cp0Reg .epc - 4 else r.cp0Reg .epc := by
  unfold setBranchDelay
  split
  · rfl
  · rfl

theorem setBranchDelay_status (r : R4300) :
    (setBranchDelay r).cp0Reg .status = r.cp0Reg .status := by
  unfold setBranchDelay
  split
  · rfl
  · rfl

/-- The core in `exception_general` in front of the test for the delay slot. -/
def generalStart (r : R4300) : R4300 :=
  ((cp0UpdateCount r).setCp0 .status ((cp0UpdateCount r).cp0Reg .status ||| statusEXL)).setCp0 .epc
    r.pc

theorem exceptionGeneral_cp0Reg (r : R4300) (reg : Cp0Reg) :
    (exceptionGeneral r).cp0Reg reg = (setBranchDelay (generalStart r)).cp0Reg reg := by
  unfold exceptionGeneral
  simp only [R4300.cp0Reg, exceptionEpilog_regs, syncLastAddr, jumpUnmapped_cp0]
  rfl

theorem generalStart_inDelaySlot (r : R4300) : (generalStart r).inDelaySlot = r.inDelaySlot := rfl

/-- `exception_general` overwrites EPC. -/
theorem enters_general (r : R4300) : Enters r r.faultAddress (exceptionGeneral r) := by
  refine ⟨?_, fun hslot => ?_, ?_⟩
  · rw [exceptionGeneral_cp0Reg, setBranchDelay_epc, generalStart_inDelaySlot, generalStart,
      cp0Reg_setCp0_self, ← R4300.faultAddress]
  · rw [exceptionGeneral_cp0Reg, setBranchDelay_cause, generalStart_inDelaySlot, if_pos hslot]
    exact or_and_self_ne_zero _ (by decide)
  · rw [exceptionGeneral_cp0Reg, setBranchDelay_status, generalStart,
      cp0Reg_setCp0_of_ne _ (by decide), cp0Reg_setCp0_self]
    exact or_and_self_ne_zero _ (by decide)

/-- Out of a delay slot the BD bit is cleared. -/
theorem exceptionGeneral_bd (r : R4300) :
    (exceptionGeneral r).cp0Reg .cause &&& causeBD ≠ 0 ↔ r.inDelaySlot = true := by
  constructor
  · intro hset
    by_contra hout
    refine hset ?_
    rw [exceptionGeneral_cp0Reg, setBranchDelay_cause, generalStart_inDelaySlot, if_neg hout,
      BitVec.and_assoc, show ~~~causeBD &&& causeBD = 0 by decide]
    exact BitVec.and_zero
  · exact (enters_general r).bd

theorem enters_raise (r : R4300) (cause : BitVec 32) : Enters r r.faultAddress (r.raise cause) := by
  obtain ⟨hepc, hbd, hexl⟩ := enters_general (r.setCp0 .cause cause)
  exact ⟨hepc, hbd, hexl⟩

theorem jumpUnmapped_cp0Reg (r : R4300) (address : BitVec 32) (reg : Cp0Reg) :
    (jumpUnmapped r address).cp0Reg reg = r.cp0Reg reg := by
  rw [R4300.cp0Reg, jumpUnmapped_cp0, ← R4300.cp0Reg]

theorem refillOuter_epc (r : R4300) (address : BitVec 32) {w : Access} (hw : w ≠ .fetch) :
    (refillOuter r address w).cp0Reg .epc = r.pc := by
  have hmode : ¬(r.emumode ≠ .pureInterpreter ∧ w = .fetch) := fun h => hw h.2
  simp only [refillOuter, jumpUnmapped_cp0Reg, if_neg hmode]
  rw [cp0Reg_setCp0_of_ne _ (by decide), cp0Reg_setCp0_of_ne _ (by decide), cp0Reg_setCp0_self]

theorem refillOuter_status (r : R4300) (address : BitVec 32) (w : Access) :
    (refillOuter r address w).cp0Reg .status = r.cp0Reg .status ||| statusEXL := by
  simp only [refillOuter, jumpUnmapped_cp0Reg]
  rw [cp0Reg_setCp0_self, cp0Reg_setCp0_of_ne _ (by decide), cp0Reg_setCp0_of_ne _ (by decide)]

theorem refillOuter_delaySlot (r : R4300) (address : BitVec 32) (w : Access) :
    (refillOuter r address w).delaySlot = r.delaySlot := by
  simp only [refillOuter, jumpUnmapped_delaySlot]
  rfl

theorem refillNested_cp0Reg (r : R4300) {reg : Cp0Reg} (hne : reg ≠ .cause) :
    (refillNested r).cp0Reg reg = r.cp0Reg reg := by
  unfold refillNested
  dsimp only
  split <;> rw [cp0Reg_setCp0_of_ne _ hne, jumpUnmapped_cp0Reg]

theorem refillNested_delaySlot (r : R4300) : (refillNested r).delaySlot = r.delaySlot := by
  unfold refillNested
  dsimp only
  split <;> exact jumpUnmapped_delaySlot r _

/-- The core in `TLB_refill_exception` in front of the test for EXL. -/
def refillStart (r : R4300) (address : BitVec 32) (w : Access) : R4300 :=
  refillRegs (cp0UpdateCount r) address w

theorem refillStart_pc (r : R4300) (address : BitVec 32) (w : Access) :
    (refillStart r address w).pc = r.pc := by
  obtain ⟨regs, -, hstart⟩ := refillRegs_sets (cp0UpdateCount r) address w
  rw [refillStart, hstart]
  rfl

theorem refillStart_delaySlot (r : R4300) (address : BitVec 32) (w : Access) :
    (refillStart r address w).delaySlot = r.delaySlot := by
  obtain ⟨regs, -, hstart⟩ := refillRegs_sets (cp0UpdateCount r) address w
  rw [refillStart, hstart]
  rfl

theorem refillStart_status (r : R4300) (address : BitVec 32) (w : Access) :
    (refillStart r address w).cp0Reg .status = r.cp0Reg .status := rfl

theorem refillStart_epc (r : R4300) (address : BitVec 32) (w : Access) :
    (refillStart r address w).cp0Reg .epc = r.cp0Reg .epc := rfl

/-- The core in `TLB_refill_exception` behind the jump to the vector. -/
def refillJumped (r : R4300) (address : BitVec 32) (w : Access) : R4300 :=
  if (refillStart r address w).cp0Reg .status &&& statusEXL ≠ 0 then
    refillNested (refillStart r address w)
  else refillOuter (refillStart r address w) address w

/-- A TLB exception of a load or a store moves EPC back behind everything else. -/
theorem tlbRefillException_data (r : R4300) (address : BitVec 32) {w : Access} (hw : w ≠ .fetch)
    (reg : Cp0Reg) : (tlbRefillException r address w).cp0Reg reg =
      ((setBranchDelay (refillJumped r address w)).setCp0 .epc
        ((setBranchDelay (refillJumped r address w)).cp0Reg .epc - 4)).cp0Reg reg := by
  unfold tlbRefillException
  simp only [if_pos hw, R4300.cp0Reg, exceptionEpilog_regs, syncLastAddr]
  rfl

/-- What comes of the registers of a jump to a vector. -/
theorem enters_data (r : R4300) (address : BitVec 32) {w : Access} (hw : w ≠ .fetch)
    (hslot : (refillJumped r address w).delaySlot = r.delaySlot)
    (hexl : (refillJumped r address w).cp0Reg .status &&& statusEXL ≠ 0) :
    Enters r ((if r.inDelaySlot then (refillJumped r address w).cp0Reg .epc - 4
      else (refillJumped r address w).cp0Reg .epc) - 4) (tlbRefillException r address w) := by
  have hdata := tlbRefillException_data r address hw
  have hslot' : (refillJumped r address w).inDelaySlot = r.inDelaySlot := by
    rw [R4300.inDelaySlot, hslot, ← R4300.inDelaySlot]
  refine ⟨?_, fun hin => ?_, ?_⟩
  · rw [hdata, cp0Reg_setCp0_self, setBranchDelay_epc, hslot']
  · rw [hdata, cp0Reg_setCp0_of_ne _ (by decide), setBranchDelay_cause, hslot', if_pos hin]
    exact or_and_self_ne_zero _ (by decide)
  · rwa [hdata, cp0Reg_setCp0_of_ne _ (by decide), setBranchDelay_status]

/-- Out of an exception handler EPC has the instruction in front of the program counter. -/
theorem enters_refill (r : R4300) (address : BitVec 32) {w : Access} (hw : w ≠ .fetch)
    (hclear : r.cp0Reg .status &&& statusEXL = 0) :
    Enters r (r.faultAddress - 4) (tlbRefillException r address w) := by
  have hjumped : refillJumped r address w = refillOuter (refillStart r address w) address w := by
    unfold refillJumped
    rw [refillStart_status, if_neg (not_not_intro hclear)]
  have hepc : (refillJumped r address w).cp0Reg .epc = r.pc := by
    rw [hjumped, refillOuter_epc _ _ hw, refillStart_pc]
  have henters := enters_data r address hw
    (by rw [hjumped, refillOuter_delaySlot, refillStart_delaySlot])
    (by rw [hjumped, refillOuter_status]; exact or_and_self_ne_zero _ (by decide))
  rwa [hepc, ← R4300.faultAddress] at henters

/-- In an exception handler EPC moves back all the same. -/
theorem enters_refill_nested (r : R4300) (address : BitVec 32) {w : Access} (hw : w ≠ .fetch)
    (hset : r.cp0Reg .status &&& statusEXL ≠ 0) :
    Enters r ((if r.inDelaySlot then r.cp0Reg .epc - 4 else r.cp0Reg .epc) - 4)
      (tlbRefillException r address w) := by
  have hjumped : refillJumped r address w = refillNested (refillStart r address w) := by
    unfold refillJumped
    rw [refillStart_status, if_pos hset]
  have hepc : (refillJumped r address w).cp0Reg .epc = r.cp0Reg .epc := by
    rw [hjumped, refillNested_cp0Reg _ (by decide), refillStart_epc]
  have hstatus : (refillJumped r address w).cp0Reg .status = r.cp0Reg .status := by
    rw [hjumped, refillNested_cp0Reg _ (by decide), refillStart_status]
  have henters := enters_data r address hw
    (by rw [hjumped, refillNested_delaySlot, refillStart_delaySlot]) (by rwa [hstatus])
  rwa [hepc] at henters

-- ════════════════════
-- Precise exceptions
-- ════════════════════

theorem addToPc_faultAddress (r : R4300) : r.addToPc.faultAddress - 4 = r.faultAddress := by
  have hslot : r.addToPc.inDelaySlot = r.inDelaySlot := rfl
  have hpc : r.addToPc.pc = r.pc + 4 := rfl
  unfold R4300.faultAddress
  rw [hslot, hpc]
  split <;> bv_omega

/-- An exception of a load or a store. -/
theorem refill_precise_iff (r : R4300) (address : BitVec 32) {w : Access} (hw : w ≠ .fetch) :
    r.Precise (tlbRefillException r.addToPc address w) ↔ r.cp0Reg .status &&& statusEXL = 0 := by
  have hslot : r.addToPc.inDelaySlot = r.inDelaySlot := rfl
  have hstatus : r.addToPc.cp0Reg .status = r.cp0Reg .status := rfl
  have hepc : r.addToPc.cp0Reg .epc = r.cp0Reg .epc := rfl
  unfold R4300.Precise
  split
  · next hclear =>
    have henters := enters_refill r.addToPc address hw (hstatus ▸ hclear)
    rw [addToPc_faultAddress] at henters
    exact iff_of_true ⟨henters.epc, fun hin => henters.bd (hslot.trans hin), henters.exl⟩ hclear
  · next hset =>
    have henters := enters_refill_nested r.addToPc address hw (hstatus ▸ hset)
    rw [hslot, hepc] at henters
    refine iff_of_false ?_ hset
    rw [henters.epc]
    split <;> bv_omega

theorem enter_precise_iff (r : R4300) (e : Raised) : r.Precise (e.enter r) ↔ r.PreciseWhen e := by
  cases e with
  | general cause =>
    have henters := enters_raise r cause
    unfold R4300.Precise R4300.PreciseWhen Raised.enter
    dsimp only
    rw [henters.epc]
    split
    · next hclear => exact iff_of_true ⟨rfl, henters.bd, henters.exl⟩ (Or.inl hclear)
    · next hset => simp only [hset, false_or, eq_comm]
  | load address =>
    unfold R4300.PreciseWhen Raised.enter
    rw [or_false]
    exact refill_precise_iff r address (by decide)
  | store address =>
    unfold R4300.PreciseWhen Raised.enter
    rw [or_false]
    exact refill_precise_iff r address (by decide)

/-- An exception looks at nothing else of the core. -/
theorem SameStart.precise {r r' : R4300} (h : SameStart r r') (r'' : R4300) (e : Raised) :
    (r'.Precise r'' ↔ r.Precise r'') ∧ (r'.PreciseWhen e ↔ r.PreciseWhen e) := by
  have hslot : r'.inDelaySlot = r.inDelaySlot := by
    rw [R4300.inDelaySlot, h.delaySlot, ← R4300.inDelaySlot]
  have hfault : r'.faultAddress = r.faultAddress := by
    rw [R4300.faultAddress, hslot, h.pc, ← R4300.faultAddress]
  constructor
  · simp only [R4300.Precise, R4300.cp0Reg, h.cp0, hfault, hslot]
  · simp only [R4300.PreciseWhen, R4300.cp0Reg, h.cp0, hfault]

/-- **Interrupts of instructions** are entered where `gen_interrupt` is called. -/
theorem interrupted_precise_iff {p q r' : R4300} (r : R4300) (hq : p.Interrupted q)
    (hsame : SameCp0 q r') : r.PreciseServed p r' ↔ r.PreciseServedWhen p := by
  obtain ⟨s, hpc, hslot, hstatus, hepc, rfl⟩ := hq
  obtain ⟨hfault, -, hexl⟩ := enters_general s
  have hbd := exceptionGeneral_bd s
  have hin : s.inDelaySlot = p.inDelaySlot := by
    rw [R4300.inDelaySlot, hslot, ← R4300.inDelaySlot]
  rw [R4300.faultAddress, hin, hpc] at hfault
  rw [hin] at hbd
  unfold R4300.PreciseServed R4300.PreciseServedWhen
  rw [hsame .epc (by decide), hsame .cause (by decide), hsame .status (by decide), hfault]
  split
  · cases r.inDelaySlot with
    | true =>
      simp only [if_true, forall_const, hbd]
      constructor
      · rintro ⟨heq, hslotted, -⟩
        rw [if_pos hslotted] at heq
        exact ⟨hslotted, by bv_omega⟩
      · rintro ⟨hslotted, hsamePc⟩
        exact ⟨by rw [if_pos hslotted, hsamePc], hslotted, hexl⟩
    | false =>
      simp only [Bool.false_eq_true, if_false, false_imp_iff, true_and]
      cases p.inDelaySlot with
      | true => exact iff_of_false (fun h => absurd h.1 (by simp)) nofun
      | false => exact iff_of_true ⟨rfl, hexl⟩ rfl
  · rw [R4300.faultAddress, eq_comm]

/-- `MTC0` to Count takes its interrupt at its own address; `MTC0` to Status and a store take theirs
behind them. -/
theorem served_start {env : Env M} {m : Machine M} {handler : Handler} {op : BitVec 32}
    {p q : R4300} (hjump : m.core.jumpOf? handler.routine op = none)
    (heret : handler.routine ≠ .eret) (h : m.served? env handler op = some (p, q)) :
    p.delaySlot = m.core.delaySlot ∧ p.pc =
      if handler.routine = .mtc0 ∧ cp0RegOf (fsOf op) = .count then m.core.pc
      else m.core.pc + 4 := by
  unfold Machine.served? at h
  rw [hjump] at h
  dsimp only at h
  split at h
  · next hmtc0 =>
    split at h
    · next hcount =>
      obtain ⟨-, rfl, -⟩ := called?_eq_some h
      rw [if_pos ⟨hmtc0, hcount⟩]
      exact ⟨rfl, rfl⟩
    · next hstatus =>
      obtain ⟨-, rfl, -⟩ := called?_eq_some h
      rw [if_neg fun hboth => absurd (hstatus.symm.trans hboth.2) (by decide)]
      unfold mtc0StatusWritten
      dsimp only
      split <;> exact ⟨rfl, rfl⟩
    · cases h
  · next hroutine => exact absurd hroutine heret
  · next hmtc0 _ =>
    obtain ⟨m', -, hpair⟩ := Option.map_eq_some_iff.mp h
    obtain ⟨rfl, -⟩ := Prod.mk.inj hpair
    rw [if_neg fun hboth => hmtc0 hboth.1]
    exact ⟨rfl, rfl⟩

/-- A core in the delay slot of a branch at 0x80000200. -/
def slotCore : R4300 := { coldCore with pc := 0x80000204, delaySlot := 1 }

/-- The same with CHECK_INT due. -/
def dueCore : R4300 :=
  { slotCore with cp0 := { slotCore.cp0 with q := ⟨[⟨.check, 0⟩], by decide⟩, cycleCount := 0 } }

/-- The instructions on a console whose core they are run on. -/
def consoleEnv : Env Unit :=
  { Env.bare with surroundings :=
    { genInterrupt := fun r =>
        (Device.genInterrupt quietOutside { staticDevice coldCore with r4300 := r }).r4300
      rcpInterrupt := false } }

/-- `MTC0` to Status of dueCore, when it calls `gen_interrupt`. -/
def dueStatus : R4300 := (mtc0StatusWritten false (dueCore.latched 0) 0).unsafeState

theorem dueStatus_excepts :
    (Machine.bare dueCore).Excepts consoleEnv ⟨.mtc0, .regular⟩ 0x40806000 (.served dueStatus) := by
  have hcalled : Machine.called? consoleEnv.surroundings dueStatus =
      some (dueStatus, consoleEnv.surroundings.genInterrupt dueStatus) := if_pos (by decide)
  exact .served hcalled (Device.genInterrupt_check quietOutside
    { staticDevice coldCore with r4300 := dueStatus } (by decide) (by decide) rfl rfl)

end Mupen64plus
