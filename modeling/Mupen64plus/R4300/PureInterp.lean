import Mupen64plus.R4300.Cp1
import Mupen64plus.R4300.PureDecode

/-!
# The pure interpreter

The jumps as `pure_interp.c` declares them, and what each routine of `mips_instructions.def` does
there to the core and to RDRAM.

## Main definitions

- `Env` — what the instructions reach outside of the core and of RDRAM
- `declareJump`, `declareJumpIdle` — the two functions of a jump
- `jumpOf?` — the parameters of each jump
- `exec` — a routine; `execHandler` — one of its variants
-/

namespace Mupen64plus

/-- `delaySlot` runs the instruction at the program counter; the others are the interrupts, the
    other regions and the host's arithmetic. -/
structure Env (M : Type) where
  other : OtherRegions M
  surroundings : Surroundings
  fpu : Fpu
  delaySlot : Machine M → Option (Machine M)

/-- The parameters of `DECLARE_JUMP`; a link to register 0 is no link. -/
structure Jump where
  destination : BitVec 32
  condition : Bool
  link : Fin 32
  likely : Bool
  cop1 : Bool
  deriving DecidableEq, Repr

def fcr31CmpBit : BitVec 32 := 0x800000

namespace R4300

/-- `PCADDR + (iimmediate+1)*4`. -/
def branchTarget (op : BitVec 32) (r : R4300) : BitVec 32 :=
  r.pc + ((imm16Of op).signExtend 32 + 1) * 4

/-- A branch on `irs` and `irt`. -/
def branch (op : BitVec 32) (r : R4300) (condition : BitVec 64 → BitVec 64 → Bool) (likely : Bool) :
    Jump where
  destination := r.branchTarget op
  condition := condition (r.regs (rsReg op)) (r.regs (rtReg op))
  link := 0
  likely := likely
  cop1 := false

/-- A branch on `irs` and zero. -/
def branchZero (op : BitVec 32) (r : R4300) (condition : BitVec 64 → Bool) (link : Fin 32)
    (likely : Bool) : Jump where
  destination := r.branchTarget op
  condition := condition (r.regs (rsReg op))
  link := link
  likely := likely
  cop1 := false

/-- A branch on the condition of coprocessor 1. -/
def branchCop1 (op : BitVec 32) (r : R4300) (expected likely : Bool) : Jump where
  destination := r.branchTarget op
  condition := (r.cp1.fcr31 &&& fcr31CmpBit != 0) == expected
  link := 0
  likely := likely
  cop1 := true

def jumpTo (destination : BitVec 32) (link : Fin 32) : Jump where
  destination := destination
  condition := true
  link := link
  likely := false
  cop1 := false

/-- `(jinst_index<<2) | ((PCADDR+4) & UINT32_C(0xF0000000))`. -/
def jumpTarget (op : BitVec 32) (r : R4300) : BitVec 32 :=
  (jumpOf op <<< 2) ||| ((r.pc + 4) &&& 0xF0000000)

/-- The jumps of `mips_instructions.def`. -/
def jumpOf? (routine : Routine) (op : BitVec 32) (r : R4300) : Option Jump :=
  match routine with
  | .j => some (jumpTo (r.jumpTarget op) 0)
  | .jal => some (jumpTo (r.jumpTarget op) 31)
  | .jr => some (jumpTo (r.gpr32 (rsReg op)) 0)
  | .jalr => some (jumpTo (r.gpr32 (rsReg op)) (rdReg op))
  | .beq => some (r.branch op (· == ·) false)
  | .beql => some (r.branch op (· == ·) true)
  | .bne => some (r.branch op (· != ·) false)
  | .bnel => some (r.branch op (· != ·) true)
  | .blez => some (r.branchZero op (fun v => v.sle 0) 0 false)
  | .blezl => some (r.branchZero op (fun v => v.sle 0) 0 true)
  | .bgtz => some (r.branchZero op (fun v => (0 : BitVec 64).slt v) 0 false)
  | .bgtzl => some (r.branchZero op (fun v => (0 : BitVec 64).slt v) 0 true)
  | .bltz => some (r.branchZero op (fun v => v.slt 0) 0 false)
  | .bltzal => some (r.branchZero op (fun v => v.slt 0) 31 false)
  | .bltzl => some (r.branchZero op (fun v => v.slt 0) 0 true)
  | .bltzall => some (r.branchZero op (fun v => v.slt 0) 31 true)
  | .bgez => some (r.branchZero op (fun v => (0 : BitVec 64).sle v) 0 false)
  | .bgezal => some (r.branchZero op (fun v => (0 : BitVec 64).sle v) 31 false)
  | .bgezl => some (r.branchZero op (fun v => (0 : BitVec 64).sle v) 0 true)
  | .bgezall => some (r.branchZero op (fun v => (0 : BitVec 64).sle v) 31 true)
  | .bc1f => some (r.branchCop1 op false false)
  | .bc1fl => some (r.branchCop1 op false true)
  | .bc1t => some (r.branchCop1 op true false)
  | .bc1tl => some (r.branchCop1 op true true)
  | _ => none

/-- The end of a jump and of `ERET`. -/
def serveInterrupt (env : Surroundings) (r : R4300) : R4300 :=
  let r := syncLastAddr r
  if 0 ≤ r.cp0.cycleCount.toInt then env.genInterrupt r else r

/-- `ERET` up to its interrupts. -/
def eretReturned (rcpInterrupt : Bool) (r : R4300) : R4300 :=
  let r := cp0UpdateCount r
  let r :=
    if r.cp0Reg .status &&& statusERL ≠ 0 then { r with stop := true }
    else
      let r := r.setCp0 .status (r.cp0Reg .status &&& ~~~statusEXL)
      genericJumpTo r (r.cp0Reg .epc)
  let r := { r with llbit := 0 }
  { r with cp0 := r4300CheckInterrupt r.cp0 causeIP2 rcpInterrupt }

def eret (env : Surroundings) (r : R4300) : R4300 :=
  serveInterrupt env (eretReturned env.rcpInterrupt r)

end R4300

/-- The register of CP0 with a number. -/
def cp0RegOf (n : BitVec 5) : Cp0Reg :=
  [.index, .random, .entryLo0, .entryLo1, .context, .pageMask, .wired, .unused7, .badVAddr, .count,
    .entryHi, .compare, .status, .cause, .epc, .prevId, .config, .llAddr, .watchLo, .watchHi,
    .xContext, .unused21, .unused22, .unused23, .unused24, .unused25, .parityErr, .cacheErr, .tagLo,
    .tagHi, .errorEpc].getD n.toNat .unused31

namespace Machine

variable {M : Type}

/-- A body on the core alone. -/
def onCore (m : Machine M) (f : R4300 → R4300) : Machine M := { m with core := f m.core }

/-- A body that may reach beyond an array or divide by zero. -/
def onCore? (m : Machine M) (f : R4300 → Option R4300) : Option (Machine M) :=
  (f m.core).map fun core => { m with core := core }

/-- The link, the delay slot and the jump of `DECLARE_JUMP`. -/
def jumped (env : Env M) (jump : Jump) (m : Machine M) : Option (Machine M) :=
  let m := if jump.link ≠ 0 then m.setGpr jump.link (se32 (m.core.pc + 8)) else m
  if !jump.likely || jump.condition then
    let m := m.onCore fun r => { r with pc := r.pc + 4, delaySlot := 1 }
    (env.delaySlot m).map fun m => m.onCore fun r =>
      let r := { cp0UpdateCount r with delaySlot := 0 }
      if jump.condition && r.skipJump == 0 then { r with pc := jump.destination } else r
  else some (m.onCore fun r => cp0UpdateCount { r with pc := r.pc + 8 })

/-- The function that `DECLARE_JUMP` defines. -/
def declareJump (env : Env M) (jump : Jump) (m : Machine M) : Option (Machine M) :=
  match if jump.cop1 then m.core.checkCop1Unusable else none with
  | some core => some { m with core := core }
  | none => (m.jumped env jump).map fun m => m.onCore (R4300.serveInterrupt env.surroundings)

/-- COUNT moves on to the next interrupt. -/
def skipIdle (r : R4300) : R4300 :=
  let r := cp0UpdateCount r
  if r.cp0.cycleCount.toInt < 0 then
    let r := r.setCp0 .count (r.cp0Reg .count - r.cp0.cycleCount)
    { r with cp0 := { r.cp0 with cycleCount := 0 } }
  else r

/-- The function of an idle loop. -/
def declareJumpIdle (env : Env M) (jump : Jump) (m : Machine M) : Option (Machine M) :=
  match if jump.cop1 then m.core.checkCop1Unusable else none with
  | some core => some { m with core := core }
  | none => declareJump env jump (if jump.condition then m.onCore skipIdle else m)

-- ════════════════════════════════════════════════════════════════════════
-- Routines
-- ════════════════════════════════════════════════════════════════════════

/-- What a routine does, jumps apart. -/
def execPlain (env : Env M) (routine : Routine) (op : BitVec 32) (m : Machine M) :
    Option (Machine M) :=
  let rfs := cp0RegOf (fsOf op)
  let rt := rtReg op
  match routine with
  | .ni => some (m.onCore R4300.ni)
  | .reserved => some (m.onCore R4300.reserved)
  | .reservedCop2 => some (m.onCore R4300.reservedCop2)
  | .brk => some (m.onCore R4300.brk)
  | .lb => some (m.lb env.other op)
  | .lbu => some (m.lbu env.other op)
  | .lh => some (m.lh env.other op)
  | .lhu => some (m.lhu env.other op)
  | .ll => some (m.ll env.other op)
  | .lw => some (m.lw env.other op)
  | .lwu => some (m.lwu env.other op)
  | .lwl => some (m.lwl env.other op)
  | .lwr => some (m.lwr env.other op)
  | .ld => some (m.ld env.other op)
  | .ldl => some (m.ldl env.other op)
  | .ldr => some (m.ldr env.other op)
  | .sb => some (m.sb env.other op)
  | .sh => some (m.sh env.other op)
  | .sc => some (m.sc env.other op)
  | .sw => some (m.sw env.other op)
  | .swl => some (m.swl env.other op)
  | .swr => some (m.swr env.other op)
  | .sd => some (m.sd env.other op)
  | .sdl => some (m.sdl env.other op)
  | .sdr => some (m.sdr env.other op)
  | .add => some (m.onCore (R4300.add op))
  | .addu => some (m.onCore (R4300.addu op))
  | .addi => some (m.onCore (R4300.addi op))
  | .addiu => some (m.onCore (R4300.addiu op))
  | .dadd => some (m.onCore (R4300.dadd op))
  | .daddu => some (m.onCore (R4300.daddu op))
  | .daddi => some (m.onCore (R4300.daddi op))
  | .daddiu => some (m.onCore (R4300.daddiu op))
  | .sub => some (m.onCore (R4300.sub op))
  | .subu => some (m.onCore (R4300.subu op))
  | .dsub => some (m.onCore (R4300.dsub op))
  | .dsubu => some (m.onCore (R4300.dsubu op))
  | .slt => some (m.onCore (R4300.slt op))
  | .sltu => some (m.onCore (R4300.sltu op))
  | .slti => some (m.onCore (R4300.slti op))
  | .sltiu => some (m.onCore (R4300.sltiu op))
  | .and => some (m.onCore (R4300.and op))
  | .andi => some (m.onCore (R4300.andi op))
  | .or => some (m.onCore (R4300.or op))
  | .ori => some (m.onCore (R4300.ori op))
  | .xor => some (m.onCore (R4300.xor op))
  | .xori => some (m.onCore (R4300.xori op))
  | .nor => some (m.onCore (R4300.nor op))
  | .lui => some (m.onCore (R4300.lui op))
  | .nop | .cache | .sync => some m.addToPc
  | .sll => some (m.onCore (R4300.sll op))
  | .sllv => some (m.onCore (R4300.sllv op))
  | .dsll => some (m.onCore (R4300.dsll op))
  | .dsllv => some (m.onCore (R4300.dsllv op))
  | .dsll32 => some (m.onCore (R4300.dsll32 op))
  | .srl => some (m.onCore (R4300.srl op))
  | .srlv => some (m.onCore (R4300.srlv op))
  | .dsrl => some (m.onCore (R4300.dsrl op))
  | .dsrlv => some (m.onCore (R4300.dsrlv op))
  | .dsrl32 => some (m.onCore (R4300.dsrl32 op))
  | .sra => some (m.onCore (R4300.sra op))
  | .srav => some (m.onCore (R4300.srav op))
  | .dsra => some (m.onCore (R4300.dsra op))
  | .dsrav => some (m.onCore (R4300.dsrav op))
  | .dsra32 => some (m.onCore (R4300.dsra32 op))
  | .mult => some (m.onCore (R4300.mult op))
  | .multu => some (m.onCore (R4300.multu op))
  | .dmult => some (m.onCore (R4300.dmultInstr op))
  | .dmultu => some (m.onCore (R4300.dmultuInstr op))
  | .div => some (m.onCore (R4300.div op))
  | .divu => some (m.onCore (R4300.divu op))
  | .ddiv => some (m.onCore (R4300.ddiv op))
  | .ddivu => some (m.onCore (R4300.ddivu op))
  | .mfhi => some (m.onCore (R4300.mfhi op))
  | .mthi => some (m.onCore (R4300.mthi op))
  | .mflo => some (m.onCore (R4300.mflo op))
  | .mtlo => some (m.onCore (R4300.mtlo op))
  | .eret => some (m.onCore (R4300.eret env.surroundings))
  | .syscall => some (m.onCore R4300.syscall)
  | .tge => some (m.onCore (R4300.tge op))
  | .tgeu => some (m.onCore (R4300.tgeu op))
  | .tgei => some (m.onCore (R4300.tgei op))
  | .tgeiu => some (m.onCore (R4300.tgeiu op))
  | .tlt => some (m.onCore (R4300.tlt op))
  | .tltu => some (m.onCore (R4300.tltu op))
  | .tlti => some (m.onCore (R4300.tlti op))
  | .tltiu => some (m.onCore (R4300.tltiu op))
  | .teq => some (m.onCore (R4300.teq op))
  | .teqi => some (m.onCore (R4300.teqi op))
  | .tne => some (m.onCore (R4300.tne op))
  | .tnei => some (m.onCore (R4300.tnei op))
  | .tlbp => some (m.onCore tlbp)
  | .tlbr => some (m.onCore tlbr)
  | .tlbwr => m.onCore? tlbwr
  | .tlbwi => m.onCore? tlbwi
  | .mfc0 => m.onCore? fun r => mfc0 r rfs rt
  | .dmfc0 => m.onCore? fun r => dmfc0 r rfs rt
  | .mtc0 => some (m.onCore fun r => mtc0 env.surroundings r rfs rt)
  | .lwc1 => some (m.lwc1 env.other op)
  | .ldc1 => some (m.ldc1 env.other op)
  | .swc1 => some (m.swc1 env.other op)
  | .sdc1 => some (m.sdc1 env.other op)
  | .mfc1 => some (m.onCore (R4300.mfc1 op))
  | .dmfc1 => some (m.onCore (R4300.dmfc1 op))
  | .cfc1 => some (m.onCore (R4300.cfc1 op))
  | .dcfc1 => some (m.onCore (R4300.dcfc1 env.fpu))
  | .mtc1 => some (m.onCore (R4300.mtc1 op))
  | .dmtc1 => some (m.onCore (R4300.dmtc1 op))
  | .ctc1 => some (m.onCore (R4300.ctc1 op))
  | .dctc1 => some (m.onCore (R4300.dctc1 env.fpu))
  | .mfc2 => some (m.onCore (R4300.mfc2 op))
  | .dmfc2 => some (m.onCore (R4300.dmfc2 op))
  | .cfc2 => some (m.onCore (R4300.cfc2 op))
  | .mtc2 => some (m.onCore (R4300.mtc2 op))
  | .dmtc2 => some (m.onCore (R4300.dmtc2 op))
  | .ctc2 => some (m.onCore (R4300.ctc2 op))
  | .fpu fpuOp fmt => some (m.onCore (R4300.fpuInstruction env.fpu fpuOp fmt op))
  | .j | .jal | .jr | .jalr | .beq | .beql | .bne | .bnel | .blez | .blezl | .bgtz | .bgtzl | .bltz
  | .bltzal | .bltzl | .bltzall | .bgez | .bgezal | .bgezl | .bgezall | .bc1f | .bc1fl | .bc1t
  | .bc1tl => none

/-- A routine of `mips_instructions.def`. -/
def exec (env : Env M) (routine : Routine) (op : BitVec 32) (m : Machine M) : Option (Machine M) :=
  match m.core.jumpOf? routine op with
  | some jump => declareJump env jump m
  | none => execPlain env routine op m

/-- A routine or its variant for idle loops. -/
def execHandler (env : Env M) (h : Handler) (op : BitVec 32) (m : Machine M) :
    Option (Machine M) :=
  match h.variant, m.core.jumpOf? h.routine op with
  | .idle, some jump => declareJumpIdle env jump m
  | _, _ => exec env h.routine op m

end Machine

/-- Surroundings that do nothing; a compare finds its condition false. -/
def Env.bare : Env Unit where
  other :=
    { read32 := fun s _ => (0, s)
      write32 := fun s _ _ _ => s }
  surroundings :=
    { genInterrupt := id
      rcpInterrupt := false }
  fpu :=
    { run := fun _ _ fcr31 _ _ dest => (fcr31 &&& ~~~fcr31CmpBit, dest)
      resetCause := id }
  delaySlot := some

/-- A machine without the expansion. -/
def Machine.bare (core : R4300) : Machine Unit where
  core := core
  dram := fun _ => 0
  dramSize := 0x400000
  dramSize_cases := .inl rfl
  outside := ()

end Mupen64plus
