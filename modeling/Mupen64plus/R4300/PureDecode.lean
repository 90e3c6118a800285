import Mupen64plus.R4300.Opcodes

/-!
# The decoder of the pure interpreter

The nested switch of `InterpretOpcode` in `pure_interp.c`, one definition for each prefix.
-/

namespace Mupen64plus

/-- `IS_RELATIVE_IDLE_LOOP`; `next` is the word behind the branch. -/
def isRelativeIdleLoop (op next : BitVec 32) : Bool :=
  imm16Of op = 0xFFFF ∧ next = 0

/-- `IS_ABSOLUTE_IDLE_LOOP`. -/
def isAbsoluteIdleLoop (op next addr : BitVec 32) : Bool :=
  jumpOf op = (addr &&& 0x0FFFFFFF) >>> 2 ∧ addr &&& 0x0FFFFFFF ≠ 0x0FFFFFFC ∧ next = 0

/-- `if (R(op) != 0) k(r4300, op); else NOP(r4300, 0);` -/
def unlessR0 (r : BitVec 5) (k : Routine) : Routine := if r ≠ 0 then k else .nop

/-- The SPECIAL prefix. -/
def interpretSpecial (rd : BitVec 5) (funct : BitVec 6) : Routine :=
  match funct.toNat with
  | 0 => unlessR0 rd .sll
  | 2 => unlessR0 rd .srl
  | 3 => unlessR0 rd .sra
  | 4 => unlessR0 rd .sllv
  | 6 => unlessR0 rd .srlv
  | 7 => unlessR0 rd .srav
  | 8 => .jr
  | 9 => .jalr
  | 12 => .syscall
  | 13 => .brk
  | 15 => .sync
  | 16 => unlessR0 rd .mfhi
  | 17 => .mthi
  | 18 => unlessR0 rd .mflo
  | 19 => .mtlo
  | 20 => unlessR0 rd .dsllv
  | 22 => unlessR0 rd .dsrlv
  | 23 => unlessR0 rd .dsrav
  | 24 => .mult
  | 25 => .multu
  | 26 => .div
  | 27 => .divu
  | 28 => .dmult
  | 29 => .dmultu
  | 30 => .ddiv
  | 31 => .ddivu
  | 32 => unlessR0 rd .add
  | 33 => unlessR0 rd .addu
  | 34 => unlessR0 rd .sub
  | 35 => unlessR0 rd .subu
  | 36 => unlessR0 rd .and
  | 37 => unlessR0 rd .or
  | 38 => unlessR0 rd .xor
  | 39 => unlessR0 rd .nor
  | 42 => unlessR0 rd .slt
  | 43 => unlessR0 rd .sltu
  | 44 => unlessR0 rd .dadd
  | 45 => unlessR0 rd .daddu
  | 46 => unlessR0 rd .dsub
  | 47 => unlessR0 rd .dsubu
  | 48 => .tge
  | 49 => .tgeu
  | 50 => .tlt
  | 51 => .tltu
  | 52 => .teq
  | 54 => .tne
  | 56 => unlessR0 rd .dsll
  | 58 => unlessR0 rd .dsrl
  | 59 => unlessR0 rd .dsra
  | 60 => unlessR0 rd .dsll32
  | 62 => unlessR0 rd .dsrl32
  | 63 => unlessR0 rd .dsra32
  | _ => .reserved

/-- The REGIMM prefix. -/
def interpretRegimm (rt : BitVec 5) : Routine :=
  match rt.toNat with
  | 0 => .bltz
  | 1 => .bgez
  | 2 => .bltzl
  | 3 => .bgezl
  | 8 => .tgei
  | 9 => .tgeiu
  | 10 => .tlti
  | 11 => .tltiu
  | 12 => .teqi
  | 14 => .tnei
  | 16 => .bltzal
  | 17 => .bgezal
  | 18 => .bltzall
  | 19 => .bgezall
  | _ => .reserved

/-- The coprocessor 0 TLB opcodes. -/
def interpretTlb (funct : BitVec 6) : Routine :=
  match funct.toNat with
  | 1 => .tlbr
  | 2 => .tlbwi
  | 6 => .tlbwr
  | 8 => .tlbp
  | 24 => .eret
  | _ => .reserved

/-- The coprocessor 0 prefix. -/
def interpretCop0 (rs rt : BitVec 5) (funct : BitVec 6) : Routine :=
  match rs.toNat with
  | 0 => unlessR0 rt .mfc0
  | 1 => unlessR0 rt .dmfc0
  | 4 | 5 => .mtc0
  | 16 => interpretTlb funct
  | _ => .reserved

/-- The opcodes that the S-format and the D-format share. -/
def interpretFpu (fmt : Format) (funct : BitVec 6) : Routine :=
  match funct.toNat with
  | 0 => .fpu .add fmt
  | 1 => .fpu .sub fmt
  | 2 => .fpu .mul fmt
  | 3 => .fpu .div fmt
  | 4 => .fpu .sqrt fmt
  | 5 => .fpu .abs fmt
  | 6 => .fpu .mov fmt
  | 7 => .fpu .neg fmt
  | 8 => .fpu .roundL fmt
  | 9 => .fpu .truncL fmt
  | 10 => .fpu .ceilL fmt
  | 11 => .fpu .floorL fmt
  | 12 => .fpu .roundW fmt
  | 13 => .fpu .truncW fmt
  | 14 => .fpu .ceilW fmt
  | 15 => .fpu .floorW fmt
  | 36 => .fpu .cvtW fmt
  | 37 => .fpu .cvtL fmt
  | 48 => .fpu .cF fmt
  | 49 => .fpu .cUn fmt
  | 50 => .fpu .cEq fmt
  | 51 => .fpu .cUeq fmt
  | 52 => .fpu .cOlt fmt
  | 53 => .fpu .cUlt fmt
  | 54 => .fpu .cOle fmt
  | 55 => .fpu .cUle fmt
  | 56 => .fpu .cSf fmt
  | 57 => .fpu .cNgle fmt
  | 58 => .fpu .cSeq fmt
  | 59 => .fpu .cNgl fmt
  | 60 => .fpu .cLt fmt
  | 61 => .fpu .cNge fmt
  | 62 => .fpu .cLe fmt
  | 63 => .fpu .cNgt fmt
  | _ => .reserved

def interpretCop1S (funct : BitVec 6) : Routine :=
  match funct.toNat with
  | 33 => .fpu .cvtD .S
  | _ => interpretFpu .S funct

def interpretCop1D (funct : BitVec 6) : Routine :=
  match funct.toNat with
  | 32 => .fpu .cvtS .D
  | _ => interpretFpu .D funct

/-- The W-format and the L-format opcodes. -/
def interpretCop1Fixed (fmt : Format) (funct : BitVec 6) : Routine :=
  match funct.toNat with
  | 32 => .fpu .cvtS fmt
  | 33 => .fpu .cvtD fmt
  | _ => .reserved

/-- The branches on a coprocessor 1 condition. -/
def interpretBc1 (rt : BitVec 5) : Routine :=
  match (rt &&& 0x3).toNat with
  | 0 => .bc1f
  | 1 => .bc1t
  | 2 => .bc1fl
  | _ => .bc1tl

/-- The coprocessor 1 prefix. -/
def interpretCop1 (rs rt : BitVec 5) (funct : BitVec 6) : Routine :=
  match rs.toNat with
  | 0 => unlessR0 rt .mfc1
  | 1 => unlessR0 rt .dmfc1
  | 2 => unlessR0 rt .cfc1
  | 3 => unlessR0 rt .dcfc1
  | 4 => .mtc1
  | 5 => .dmtc1
  | 6 => .ctc1
  | 7 => .dctc1
  | 8 => interpretBc1 rt
  | 16 => interpretCop1S funct
  | 17 => interpretCop1D funct
  | 20 => interpretCop1Fixed .W funct
  | 21 => interpretCop1Fixed .L funct
  | _ => .reserved

/-- The coprocessor 2 prefix. -/
def interpretCop2 (rs rt : BitVec 5) : Routine :=
  match rs.toNat with
  | 0 => unlessR0 rt .mfc2
  | 1 => unlessR0 rt .dmfc2
  | 2 => unlessR0 rt .cfc2
  | 4 => .mtc2
  | 5 => .dmtc2
  | 6 => .ctc2
  | _ => .reservedCop2

/-- The major opcodes that are no prefix. -/
def interpretMajor (op : BitVec 6) (rt : BitVec 5) : Routine :=
  match op.toNat with
  | 2 => .j
  | 3 => .jal
  | 4 => .beq
  | 5 => .bne
  | 6 => .blez
  | 7 => .bgtz
  | 8 => unlessR0 rt .addi
  | 9 => unlessR0 rt .addiu
  | 10 => unlessR0 rt .slti
  | 11 => unlessR0 rt .sltiu
  | 12 => unlessR0 rt .andi
  | 13 => unlessR0 rt .ori
  | 14 => unlessR0 rt .xori
  | 15 => unlessR0 rt .lui
  | 20 => .beql
  | 21 => .bnel
  | 22 => .blezl
  | 23 => .bgtzl
  | 24 => unlessR0 rt .daddi
  | 25 => unlessR0 rt .daddiu
  | 26 => unlessR0 rt .ldl
  | 27 => unlessR0 rt .ldr
  | 32 => unlessR0 rt .lb
  | 33 => unlessR0 rt .lh
  | 34 => unlessR0 rt .lwl
  | 35 => unlessR0 rt .lw
  | 36 => unlessR0 rt .lbu
  | 37 => unlessR0 rt .lhu
  | 38 => unlessR0 rt .lwr
  | 39 => unlessR0 rt .lwu
  | 40 => .sb
  | 41 => .sh
  | 42 => .swl
  | 43 => .sw
  | 44 => .sdl
  | 45 => .sdr
  | 46 => .swr
  | 47 => .cache
  | 48 => unlessR0 rt .ll
  | 49 => .lwc1
  | 52 => .ni
  | 53 => .ldc1
  | 55 => unlessR0 rt .ld
  | 56 => unlessR0 rt .sc
  | 57 => .swc1
  | 60 => .ni
  | 61 => .sdc1
  | 63 => .sd
  | _ => .reserved

/-- The routine `InterpretOpcode` selects. -/
def interpretRoutine (op : BitVec 32) : Routine :=
  match (opOf op).toNat with
  | 0 => interpretSpecial (rdOf op) (functOf op)
  | 1 => interpretRegimm (rtOf op)
  | 16 => interpretCop0 (rsOf op) (rtOf op) (functOf op)
  | 17 => interpretCop1 (rsOf op) (rtOf op) (functOf op)
  | 18 => interpretCop2 (rsOf op) (rtOf op)
  | _ => interpretMajor (opOf op) (rtOf op)

/-- `InterpretOpcode`: every branch but J and JAL tests for a relative idle loop. -/
def interpretOpcode (op next addr : BitVec 32) : Handler :=
  let routine := interpretRoutine op
  let idle : Bool := match routine with
    | .j | .jal => isAbsoluteIdleLoop op next addr
    | .beq | .beql | .bne | .bnel | .blez | .blezl | .bgtz | .bgtzl | .bltz | .bltzal | .bltzl
    | .bltzall | .bgez | .bgezal | .bgezl | .bgezall | .bc1f | .bc1fl | .bc1t | .bc1tl =>
        isRelativeIdleLoop op next
    | _ => false
  ⟨routine, if idle then .idle else .regular⟩

/-- The operand macros of `pure_interp.c`. -/
def Accessor.ofOpcode (op : BitVec 32) : Accessor → Operand
  | .rrt | .irt => .reg (.gpr (rtOf op))
  | .rrd => .reg (.gpr (rdOf op))
  | .rrs | .irs => .reg (.gpr (rsOf op))
  | .rfs => .index (fsOf op)
  | .rsa => .index (saOf op)
  | .iimmediate | .lfoffset => .immediate (imm16Of op)
  | .jinstIndex => .target (jumpOf op)
  | .lfbase => .index (rsOf op)
  | .lfft | .cfft => .index (ftOf op)
  | .cffs => .index (fsOf op)
  | .cffd => .index (fdOf op)

end Mupen64plus
