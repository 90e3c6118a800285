import Mathlib.Data.BitVec
import Mupen64plus.Lib.FinLiterals

/-!
# Instruction routines and their operands

The routines of `mips_instructions.def` and the macros through which they read an opcode. Both
interpreters include that file and define the macros for their own form of an instruction.
-/

namespace Mupen64plus

/-- The floating point operations that exist once for each format, in the file's order. -/
inductive FpuOp where
  | abs | add | div | mov | mul | neg | sqrt | sub | truncW | truncL | roundW | roundL | ceilW
  | ceilL | floorW | floorL | cvtS | cvtD | cvtW | cvtL | cF | cUn | cEq | cUeq | cOlt | cUlt
  | cOle | cUle | cSf | cNgle | cSeq | cNgl | cLt | cNge | cLe | cNgt
  deriving DecidableEq, Repr

inductive Format where
  | S | D | W | L
  deriving DecidableEq, Repr

/-- The routines of `mips_instructions.def`; `.fpu .cvtD .S` is its `CVT_D_S`. -/
inductive Routine where
  | ni | reserved | reservedCop2 | brk | lb | lbu | lh | lhu | ll | lw | lwu | lwl | lwr | ld | ldl
  | ldr | sb | sh | sc | sw | swl | swr | sd | sdl | sdr | add | addu | addi | addiu | dadd | daddu
  | daddi | daddiu | sub | subu | dsub | dsubu | slt | sltu | slti | sltiu | and | andi | or | ori
  | xor | xori | nor | lui | nop | sll | sllv | dsll | dsllv | dsll32 | srl | srlv | dsrl | dsrlv
  | dsrl32 | sra | srav | dsra | dsrav | dsra32 | mult | multu | dmult | dmultu | div | divu | ddiv
  | ddivu | mfhi | mthi | mflo | mtlo | j | jal | jr | jalr | beq | beql | bne | bnel | blez
  | blezl | bgtz | bgtzl | bltz | bltzal | bltzl | bltzall | bgez | bgezal | bgezl | bgezall | bc1f
  | bc1fl | bc1t | bc1tl | cache | eret | sync | syscall | tge | tgeu | tgei | tgeiu | tlt | tltu
  | tlti | tltiu | teq | teqi | tne | tnei | tlbp | tlbr | tlbwr | tlbwi | mfc0 | dmfc0 | mtc0
  | lwc1 | ldc1 | swc1 | sdc1 | mfc1 | dmfc1 | cfc1 | dcfc1 | mtc1 | dmtc1 | ctc1 | dctc1 | mfc2
  | dmfc2 | cfc2 | mtc2 | dmtc2 | ctc2
  | fpu (op : FpuOp) (fmt : Format)
  deriving DecidableEq, Repr

/-- Each jump is defined a second time for idle loops; the cached interpreter has a third
    definition, for targets outside of the block. -/
inductive Variant where
  | regular | idle | out
  deriving DecidableEq, Repr

/-- A function an interpreter calls for an instruction. -/
structure Handler where
  routine : Routine
  variant : Variant := .regular
  deriving DecidableEq, Repr

def opOf (op : BitVec 32) : BitVec 6 := op.extractLsb' 26 6
def rsOf (op : BitVec 32) : BitVec 5 := op.extractLsb' 21 5
def rtOf (op : BitVec 32) : BitVec 5 := op.extractLsb' 16 5
def rdOf (op : BitVec 32) : BitVec 5 := op.extractLsb' 11 5
def saOf (op : BitVec 32) : BitVec 5 := op.extractLsb' 6 5
def functOf (op : BitVec 32) : BitVec 6 := op.extractLsb' 0 6
def imm16Of (op : BitVec 32) : BitVec 16 := op.setWidth 16
def jumpOf (op : BitVec 32) : BitVec 32 := op &&& 0x3FFFFFF

def fdOf (op : BitVec 32) : BitVec 5 := saOf op
def fsOf (op : BitVec 32) : BitVec 5 := rdOf op
def ftOf (op : BitVec 32) : BitVec 5 := rtOf op

/-- The macros that parse an opcode's fields. The 32-bit views of a register (`rrt32`, `irs32`, …)
    name the same register. -/
inductive Accessor where
  | rrt | rrd | rfs | rrs | rsa | irt | iimmediate | irs | jinstIndex
  | lfbase | lfft | lfoffset | cfft | cffs | cffd
  deriving DecidableEq, Repr

/-- A register of the core that an instruction points to; `core` is the address of the core. -/
inductive RegPtr where
  | core
  | gpr (n : BitVec 5)
  | cp0 (n : BitVec 5)
  | cp1Simple (n : BitVec 5)
  | cp1Double (n : BitVec 5)
  | fcr0
  | fcr31
  deriving DecidableEq, Repr

inductive Operand where
  | reg (p : RegPtr)
  | index (n : BitVec 5)
  | immediate (v : BitVec 16)
  | target (v : BitVec 32)
  deriving DecidableEq, Repr

/-- The fields a floating point operation reads. `C_F_S` compares `cffs` with `cffd` where its
    siblings compare `cffs` with `cfft`. -/
def FpuOp.accessors : FpuOp → Format → List Accessor
  | .cF, .S => [.cffs, .cffd]
  | .cF, _ => []
  | .add, _ | .sub, _ | .mul, _ | .div, _ => [.cffs, .cfft, .cffd]
  | .cUn, _ | .cEq, _ | .cUeq, _ | .cOlt, _ | .cUlt, _ | .cOle, _ | .cUle, _ | .cSf, _
  | .cNgle, _ | .cSeq, _ | .cNgl, _ | .cLt, _ | .cNge, _ | .cLe, _ | .cNgt, _ => [.cffs, .cfft]
  | _, _ => [.cffs, .cffd]

/-- The fields a routine reads. -/
def Routine.accessors : Routine → List Accessor
  | .lb | .lbu | .lh | .lhu | .ll | .lw | .lwu | .lwl | .lwr | .ld | .ldl | .ldr | .sb | .sh
  | .sc | .sw | .swl | .swr | .sd | .sdl | .sdr | .addi | .addiu | .daddi | .daddiu | .slti
  | .sltiu | .andi | .ori | .xori | .beq | .beql | .bne | .bnel =>
      [.irs, .irt, .iimmediate]
  | .add | .addu | .dadd | .daddu | .sub | .subu | .dsub | .dsubu | .slt | .sltu | .and | .or
  | .xor | .nor | .sllv | .dsllv | .srlv | .dsrlv | .srav | .dsrav =>
      [.rrs, .rrt, .rrd]
  | .lui =>
      [.irt, .iimmediate]
  | .sll | .dsll | .dsll32 | .srl | .dsrl | .dsrl32 | .sra | .dsra | .dsra32 =>
      [.rrt, .rrd, .rsa]
  | .mult | .multu | .dmult | .dmultu | .div | .divu | .ddiv | .ddivu | .tge | .tgeu | .tlt
  | .tltu | .teq | .tne =>
      [.rrs, .rrt]
  | .mfhi | .mflo =>
      [.rrd]
  | .mthi | .mtlo =>
      [.rrs]
  | .j | .jal =>
      [.jinstIndex]
  | .jr =>
      [.irs]
  | .jalr =>
      [.rrd, .irs]
  | .blez | .blezl | .bgtz | .bgtzl | .bltz | .bltzal | .bltzl | .bltzall | .bgez | .bgezal
  | .bgezl | .bgezall =>
      [.irs, .iimmediate]
  | .bc1f | .bc1fl | .bc1t | .bc1tl =>
      [.iimmediate]
  | .mfc0 | .dmfc0 | .mtc0 | .mfc1 | .dmfc1 | .cfc1 | .mtc1 | .dmtc1 | .ctc1 =>
      [.rrt, .rfs]
  | .lwc1 | .ldc1 | .swc1 | .sdc1 =>
      [.lfbase, .lfft, .lfoffset]
  | .mfc2 | .dmfc2 | .cfc2 | .mtc2 | .dmtc2 | .ctc2 =>
      [.rrt]
  | .tgei | .tgeiu | .tlti | .tltiu | .teqi | .tnei =>
      [.rrs, .iimmediate]
  | .fpu op fmt => op.accessors fmt
  | _ => []

end Mupen64plus
