import Mupen64plus.R4300.Opcodes

/-!
# The decoder of the cached interpreter

`r4300_get_idec` of `idec.c` finds the decoder of a word through two tables; `r4300_decode` of
`cached_interp.c` fills a `struct precomp_instr` with it and picks the function in `ci_table`.
-/

namespace Mupen64plus

/-- `enum r4300_opcode` without the `_IDLE` and `_OUT` opcodes, which are an opcode and a
    `Variant` here. -/
inductive R4300Op where
  | reserved | add | addi | addiu | addu | and | andi | bc0f | bc0fl | bc0t | bc0tl | bc1f | bc1fl
  | bc1t | bc1tl | bc2f | bc2fl | bc2t | bc2tl | beq | beql | bgez | bgezal | bgezall | bgezl
  | bgtz | bgtzl | blez | blezl | bltz | bltzal | bltzall | bltzl | bne | bnel | brk | cache | cfc0
  | cfc1 | dcfc1 | cfc2 | dcfc2 | ctc0 | ctc1 | dctc1 | ctc2 | dctc2 | dadd | daddi | daddiu
  | daddu | ddiv | ddivu | div | divu | dmfc0 | dmfc1 | dmfc2 | dmtc0 | dmtc1 | dmtc2 | dmult
  | dmultu | dsll | dsll32 | dsllv | dsra | dsra32 | dsrav | dsrl | dsrl32 | dsrlv | dsub | dsubu
  | eret | j | jal | jalr | jr | lb | lbu | ld | ldc1 | ldc2 | ldl | ldr | lh | lhu | ll | lld
  | lui | lw | lwc1 | lwc2 | lwl | lwr | lwu | mfc0 | mfc1 | mfc2 | mfhi | mflo | mtc0 | mtc1
  | mtc2 | mthi | mtlo | mult | multu | nop | nor | or | ori | sb | sc | scd | sd | sdc1 | sdc2
  | sdl | sdr | sh | sll | sllv | slt | slti | sltiu | sltu | sra | srav | srl | srlv | sub | subu
  | sw | swc1 | swc2 | swl | swr | sync | syscall | teq | teqi | tge | tgei | tgeiu | tgeu | tlbp
  | tlbr | tlbwi | tlbwr | tlt | tlti | tltiu | tltu | tne | tnei | xor | xori
  | cp1 (op : FpuOp)
  deriving DecidableEq, Repr

/-- `enum r4300_register_type`. -/
inductive RegType where
  | none | gpr | cpr0 | fpr | fpr32 | fpr64 | fcr
  deriving DecidableEq, Repr

/-- A register or small constant field: the type of register and the right shift. -/
structure U53 where
  type : RegType
  shift : ℕ
  deriving DecidableEq, Repr

def u53None : U53 := ⟨.none, 0⟩
def u53Sa : U53 := ⟨.none, 6⟩
def u53Rd : U53 := ⟨.gpr, 11⟩
def u53Rt : U53 := ⟨.gpr, 16⟩
def u53Rs : U53 := ⟨.gpr, 21⟩
def u53Fd : U53 := ⟨.fpr, 6⟩
def u53Fds : U53 := ⟨.fpr32, 6⟩
def u53Fdd : U53 := ⟨.fpr64, 6⟩
def u53Fdw : U53 := ⟨.fpr32, 6⟩
def u53Fdl : U53 := ⟨.fpr64, 6⟩
def u53Fcr : U53 := ⟨.fcr, 11⟩
def u53Fs : U53 := ⟨.fpr, 11⟩
def u53Fs32 : U53 := ⟨.fpr32, 11⟩
def u53Fs64 : U53 := ⟨.fpr64, 11⟩
def u53Ft : U53 := ⟨.fpr, 16⟩
def u53Ft32 : U53 := ⟨.fpr32, 16⟩
def u53Ft64 : U53 := ⟨.fpr64, 16⟩
def u53Fmt : U53 := ⟨.none, 21⟩
def u53Cacheop : U53 := ⟨.none, 16⟩
def u53Cpr0 : U53 := ⟨.cpr0, 11⟩
def u53Ccr0 : U53 := ⟨.none, 11⟩
def u53Ccr2 : U53 := ⟨.none, 11⟩
def u53Cpr2d : U53 := ⟨.none, 11⟩
def u53Cpr2t : U53 := ⟨.none, 16⟩

/-- An immediate field: mask, sign bit and left shift. -/
structure ImmFormat where
  mask : BitVec 32
  smask : BitVec 16
  lshift : ℕ
  deriving DecidableEq, Repr

def immNone : ImmFormat := ⟨0, 0, 0⟩
def immOffset : ImmFormat := ⟨0xffff, 0x8000, 0⟩
def immOffset4 : ImmFormat := ⟨0xffff, 0x8000, 2⟩
def immLui : ImmFormat := ⟨0xffff, 0x8000, 16⟩
def immSimm : ImmFormat := ⟨0xffff, 0x8000, 0⟩
def immZimm : ImmFormat := ⟨0xffff, 0x0000, 0⟩
def immTarget : ImmFormat := ⟨0x3ffffff, 0x0000, 2⟩

/-- The decode parameters of `struct r4300_idec`, in the order of its `u53` array. -/
structure Idec where
  imm : ImmFormat
  d : U53
  t : U53
  s : U53
  x : U53
  deriving DecidableEq, Repr

def idecNone : Idec :=
  ⟨immNone, u53None, u53None, u53None, u53None⟩
def idecCacheopBaseOffset : Idec :=
  ⟨immOffset, u53None, u53Cacheop, u53Rs, u53None⟩
def idecFdFsFmt : Idec :=
  ⟨immNone, u53Fd, u53None, u53Fs, u53Fmt⟩
def idecFdsFsFmt : Idec :=
  ⟨immNone, u53Fds, u53None, u53Fs, u53Fmt⟩
def idecFddFsFmt : Idec :=
  ⟨immNone, u53Fdd, u53None, u53Fs, u53Fmt⟩
def idecFdwFsFmt : Idec :=
  ⟨immNone, u53Fdw, u53None, u53Fs, u53Fmt⟩
def idecFdlFsFmt : Idec :=
  ⟨immNone, u53Fdl, u53None, u53Fs, u53Fmt⟩
def idecFdFsFtFmt : Idec :=
  ⟨immNone, u53Fd, u53Ft, u53Fs, u53Fmt⟩
def idecFsFtFmt : Idec :=
  ⟨immNone, u53None, u53Ft, u53Fs, u53Fmt⟩
def idecOffset : Idec :=
  ⟨immOffset4, u53None, u53None, u53None, u53None⟩
def idecRd : Idec :=
  ⟨immNone, u53Rd, u53None, u53None, u53None⟩
def idecRdRs : Idec :=
  ⟨immNone, u53Rd, u53None, u53Rs, u53None⟩
def idecRdRsRt : Idec :=
  ⟨immNone, u53Rd, u53Rt, u53Rs, u53None⟩
def idecRdRtRs : Idec :=
  ⟨immNone, u53Rd, u53Rt, u53Rs, u53None⟩
def idecRdRtSa : Idec :=
  ⟨immNone, u53Rd, u53Rt, u53None, u53Sa⟩
def idecRs : Idec :=
  ⟨immNone, u53None, u53None, u53Rs, u53None⟩
def idecRsOffset : Idec :=
  ⟨immOffset4, u53None, u53None, u53Rs, u53None⟩
def idecRsRt : Idec :=
  ⟨immNone, u53None, u53Rt, u53Rs, u53None⟩
def idecRsRtOffset : Idec :=
  ⟨immOffset4, u53None, u53Rt, u53Rs, u53None⟩
def idecRsSimm : Idec :=
  ⟨immSimm, u53None, u53None, u53Rs, u53None⟩
def idecRtBaseOffset : Idec :=
  ⟨immOffset, u53None, u53Rt, u53Rs, u53None⟩
def idecCpr2BaseOffset : Idec :=
  ⟨immOffset, u53None, u53Cpr2t, u53Rs, u53None⟩
def idecFt32BaseOffset : Idec :=
  ⟨immOffset, u53None, u53Ft32, u53Rs, u53None⟩
def idecFt64BaseOffset : Idec :=
  ⟨immOffset, u53None, u53Ft64, u53Rs, u53None⟩
def idecRtLui : Idec :=
  ⟨immLui, u53None, u53Rt, u53None, u53None⟩
def idecRtCpr0 : Idec :=
  ⟨immNone, u53Cpr0, u53Rt, u53None, u53None⟩
def idecRtFs32 : Idec :=
  ⟨immNone, u53Fs32, u53Rt, u53None, u53None⟩
def idecRtFs64 : Idec :=
  ⟨immNone, u53Fs64, u53Rt, u53None, u53None⟩
def idecRtCpr2 : Idec :=
  ⟨immNone, u53Cpr2d, u53Rt, u53None, u53None⟩
def idecRtCcr0 : Idec :=
  ⟨immNone, u53Ccr0, u53Rt, u53None, u53None⟩
def idecRtFcr : Idec :=
  ⟨immNone, u53Fcr, u53Rt, u53None, u53None⟩
def idecRtCcr2 : Idec :=
  ⟨immNone, u53Ccr2, u53Rt, u53None, u53None⟩
def idecRtRsSimm : Idec :=
  ⟨immSimm, u53None, u53Rt, u53Rs, u53None⟩
def idecRtRsZimm : Idec :=
  ⟨immZimm, u53None, u53Rt, u53Rs, u53None⟩
def idecTarget : Idec :=
  ⟨immTarget, u53None, u53None, u53None, u53None⟩

/-- The decode parameters that `idec.c` pairs with an opcode. -/
def R4300Op.idec : R4300Op → Idec
  | .add | .addu | .and | .dadd | .daddu | .dsub | .dsubu | .nor | .or | .slt | .sltu | .sub
  | .subu | .xor => idecRdRsRt
  | .addi | .addiu | .daddi | .daddiu | .slti | .sltiu => idecRtRsSimm
  | .andi | .ori | .xori => idecRtRsZimm
  | .bc0f | .bc1f | .bc2f | .bc0fl | .bc1fl | .bc2fl | .bc0t | .bc1t | .bc2t | .bc0tl | .bc1tl
  | .bc2tl => idecOffset
  | .beq | .beql | .bne | .bnel => idecRsRtOffset
  | .bgez | .bgezal | .bgezall | .bgezl | .bgtz | .bgtzl | .blez | .blezl | .bltz | .bltzal
  | .bltzall | .bltzl => idecRsOffset
  | .cache => idecCacheopBaseOffset
  | .cfc0 | .ctc0 => idecRtCcr0
  | .cfc1 | .dcfc1 | .ctc1 | .dctc1 => idecRtFcr
  | .cfc2 | .dcfc2 | .ctc2 | .dctc2 => idecRtCcr2
  | .cp1 .abs | .cp1 .mov | .cp1 .neg | .cp1 .sqrt => idecFdFsFmt
  | .cp1 .add | .cp1 .div | .cp1 .mul | .cp1 .sub => idecFdFsFtFmt
  | .cp1 .cEq | .cp1 .cF | .cp1 .cLe | .cp1 .cLt | .cp1 .cNge | .cp1 .cNgle | .cp1 .cNgl
  | .cp1 .cNgt | .cp1 .cOle | .cp1 .cOlt | .cp1 .cSeq | .cp1 .cSf | .cp1 .cUeq | .cp1 .cUle
  | .cp1 .cUlt | .cp1 .cUn => idecFsFtFmt
  | .cp1 .ceilL | .cp1 .cvtL | .cp1 .floorL | .cp1 .roundL | .cp1 .truncL => idecFdlFsFmt
  | .cp1 .ceilW | .cp1 .cvtW | .cp1 .floorW | .cp1 .roundW | .cp1 .truncW => idecFdwFsFmt
  | .cp1 .cvtD => idecFddFsFmt
  | .cp1 .cvtS => idecFdsFsFmt
  | .ddiv | .ddivu | .div | .divu | .dmult | .dmultu | .mult | .multu | .teq | .tge | .tgeu
  | .tlt | .tltu | .tne => idecRsRt
  | .dmfc0 | .dmtc0 | .mfc0 | .mtc0 => idecRtCpr0
  | .dmfc1 | .dmtc1 => idecRtFs64
  | .dmfc2 | .dmtc2 | .mfc2 | .mtc2 => idecRtCpr2
  | .dsll | .dsll32 | .dsra | .dsra32 | .dsrl | .dsrl32 | .sll | .sra | .srl => idecRdRtSa
  | .dsllv | .dsrav | .dsrlv | .sllv | .srav | .srlv => idecRdRtRs
  | .j | .jal => idecTarget
  | .jalr => idecRdRs
  | .jr | .mthi | .mtlo => idecRs
  | .lb | .lbu | .ld | .ldl | .ldr | .lh | .lhu | .ll | .lld | .lw | .lwl | .lwr | .lwu | .sb
  | .sc | .scd | .sd | .sdl | .sdr | .sh | .sw | .swl | .swr => idecRtBaseOffset
  | .ldc1 | .sdc1 => idecFt64BaseOffset
  | .ldc2 | .lwc2 | .sdc2 | .swc2 => idecCpr2BaseOffset
  | .lui => idecRtLui
  | .lwc1 | .swc1 => idecFt32BaseOffset
  | .mfc1 | .mtc1 => idecRtFs32
  | .mfhi | .mflo => idecRd
  | .teqi | .tgei | .tgeiu | .tlti | .tltiu | .tnei => idecRsSimm
  | _ => idecNone

/-! ## The tables -/

def mainOpcodes : List R4300Op :=
  [.reserved, .reserved, .j, .jal, .beq, .bne, .blez, .bgtz, .addi, .addiu, .slti, .sltiu,
   .andi, .ori, .xori, .lui, .reserved, .reserved, .reserved, .reserved, .beql, .bnel, .blezl,
   .bgtzl, .daddi, .daddiu, .ldl, .ldr, .reserved, .reserved, .reserved, .reserved, .lb, .lh,
   .lwl, .lw, .lbu, .lhu, .lwr, .lwu, .sb, .sh, .swl, .sw, .sdl, .sdr, .swr, .cache, .ll,
   .lwc1, .lwc2, .reserved, .lld, .ldc1, .ldc2, .ld, .sc, .swc1, .swc2, .reserved, .scd, .sdc1,
   .sdc2, .sd]

def specialOpcodes : List R4300Op :=
  [.sll, .reserved, .srl, .sra, .sllv, .reserved, .srlv, .srav, .jr, .jalr, .reserved,
   .reserved, .syscall, .brk, .reserved, .sync, .mfhi, .mthi, .mflo, .mtlo, .dsllv, .reserved,
   .dsrlv, .dsrav, .mult, .multu, .div, .divu, .dmult, .dmultu, .ddiv, .ddivu, .add, .addu,
   .sub, .subu, .and, .or, .xor, .nor, .reserved, .reserved, .slt, .sltu, .dadd, .daddu, .dsub,
   .dsubu, .tge, .tgeu, .tlt, .tltu, .teq, .reserved, .tne, .reserved, .dsll, .reserved, .dsrl,
   .dsra, .dsll32, .reserved, .dsrl32, .dsra32]

def regimmOpcodes : List R4300Op :=
  [.bltz, .bgez, .bltzl, .bgezl, .reserved, .reserved, .reserved, .reserved, .tgei, .tgeiu,
   .tlti, .tltiu, .teqi, .reserved, .tnei, .reserved, .bltzal, .bgezal, .bltzall, .bgezall,
   .reserved, .reserved, .reserved, .reserved, .reserved, .reserved, .reserved, .reserved,
   .reserved, .reserved, .reserved, .reserved]

def cop0Opcodes : List R4300Op :=
  [.mfc0, .dmfc0, .cfc0, .reserved, .mtc0, .dmtc0, .ctc0, .reserved]

def bc0Opcodes : List R4300Op :=
  [.bc0f, .bc0t, .bc0fl, .bc0tl, .reserved, .reserved, .reserved, .reserved]

def tlbOpcodes : List R4300Op :=
  [.reserved, .tlbr, .tlbwi, .reserved, .reserved, .reserved, .tlbwr, .reserved, .tlbp,
   .reserved, .reserved, .reserved, .reserved, .reserved, .reserved, .reserved, .reserved,
   .reserved, .reserved, .reserved, .reserved, .reserved, .reserved, .reserved, .eret,
   .reserved, .reserved, .reserved, .reserved, .reserved, .reserved, .reserved, .reserved,
   .reserved, .reserved, .reserved, .reserved, .reserved, .reserved, .reserved, .reserved,
   .reserved, .reserved, .reserved, .reserved, .reserved, .reserved, .reserved, .reserved,
   .reserved, .reserved, .reserved, .reserved, .reserved, .reserved, .reserved, .reserved,
   .reserved, .reserved, .reserved, .reserved, .reserved, .reserved, .reserved]

def cop1Opcodes : List R4300Op :=
  [.mfc1, .dmfc1, .cfc1, .dcfc1, .mtc1, .dmtc1, .ctc1, .dctc1]

def bc1Opcodes : List R4300Op :=
  [.bc1f, .bc1t, .bc1fl, .bc1tl, .reserved, .reserved, .reserved, .reserved]

def fpuOpcodes : List R4300Op :=
  [.cp1 .add, .cp1 .sub, .cp1 .mul, .cp1 .div, .cp1 .sqrt, .cp1 .abs, .cp1 .mov, .cp1 .neg,
   .cp1 .roundL, .cp1 .truncL, .cp1 .ceilL, .cp1 .floorL, .cp1 .roundW, .cp1 .truncW,
   .cp1 .ceilW, .cp1 .floorW, .reserved, .reserved, .reserved, .reserved, .reserved, .reserved,
   .reserved, .reserved, .reserved, .reserved, .reserved, .reserved, .reserved, .reserved,
   .reserved, .reserved, .cp1 .cvtS, .cp1 .cvtD, .reserved, .reserved, .cp1 .cvtW, .cp1 .cvtL,
   .reserved, .reserved, .reserved, .reserved, .reserved, .reserved, .reserved, .reserved,
   .reserved, .reserved, .cp1 .cF, .cp1 .cUn, .cp1 .cEq, .cp1 .cUeq, .cp1 .cOlt, .cp1 .cUlt,
   .cp1 .cOle, .cp1 .cUle, .cp1 .cSf, .cp1 .cNgle, .cp1 .cSeq, .cp1 .cNgl, .cp1 .cLt,
   .cp1 .cNge, .cp1 .cLe, .cp1 .cNgt]

def cop2Opcodes : List R4300Op :=
  [.mfc2, .dmfc2, .cfc2, .dcfc2, .mtc2, .dmtc2, .ctc2, .dctc2]

def bc2Opcodes : List R4300Op :=
  [.bc2f, .bc2t, .bc2fl, .bc2tl, .reserved, .reserved, .reserved, .reserved]

def pseudoOpcodes : List R4300Op :=
  [.nop]

def r4300OpTable : List R4300Op :=
  mainOpcodes ++ specialOpcodes ++ regimmOpcodes ++ cop0Opcodes ++ bc0Opcodes ++ tlbOpcodes ++
  cop1Opcodes ++ bc1Opcodes ++ fpuOpcodes ++ cop2Opcodes ++ bc2Opcodes ++ pseudoOpcodes

structure R4300OpEscape where
  offset : ℕ
  shift : ℕ
  mask : BitVec 32
  deriving DecidableEq, Repr

def eInv : R4300OpEscape := ⟨0, 0, 0x00⟩
def eMain : R4300OpEscape := ⟨0, 26, 0x3f⟩
def eSpecial : R4300OpEscape := ⟨64, 0, 0x3f⟩
def eRegimm : R4300OpEscape := ⟨128, 16, 0x1f⟩
def eCop0 : R4300OpEscape := ⟨160, 21, 0x07⟩
def eBc0 : R4300OpEscape := ⟨168, 16, 0x07⟩
def eTlb : R4300OpEscape := ⟨176, 0, 0x3f⟩
def eCop1 : R4300OpEscape := ⟨240, 21, 0x07⟩
def eBc1 : R4300OpEscape := ⟨248, 16, 0x07⟩
def eFpu : R4300OpEscape := ⟨256, 0, 0x3f⟩
def eCop2 : R4300OpEscape := ⟨320, 21, 0x07⟩
def eBc2 : R4300OpEscape := ⟨328, 16, 0x07⟩

def r4300EscapesTable : List R4300OpEscape :=
  List.replicate 4 eSpecial ++ List.replicate 4 eRegimm ++ List.replicate 56 eMain ++
  [eCop0, eBc0, eTlb, eTlb] ++ [eCop1, eBc1, eFpu, eFpu] ++ [eCop2, eBc2, eInv, eInv] ++
  List.replicate 180 eMain

def R4300OpEscape.index (escape : R4300OpEscape) (iw : BitVec 32) : ℕ :=
  escape.offset + ((iw >>> escape.shift) &&& escape.mask).toNat

/-- `r4300_get_idec`. -/
def r4300GetIdec (iw : BitVec 32) : R4300Op :=
  if iw = 0 then r4300OpTable.getD 336 .reserved
  else
    let escape := r4300EscapesTable.getD (iw >>> 24).toNat eInv
    r4300OpTable.getD (escape.index iw) .reserved

/-! ## Decoding -/

/-- `idec_u53`: the register the field points to and the field itself. -/
def idecU53 (iw : BitVec 32) (u53 : U53) : RegPtr × BitVec 5 :=
  let r := iw.extractLsb' u53.shift 5
  let o := match u53.type with
    | .none => .core
    | .gpr => .gpr r
    | .cpr0 => .cp0 r
    | .fpr32 => .cp1Simple r
    | .fpr64 => .cp1Double r
    | .fpr =>
        match (iw.extractLsb' u53Fmt.shift 5).toNat with
        | 16 | 20 => .cp1Simple r
        | 17 | 21 => .cp1Double r
        | _ => .core
    | .fcr => if r = 0 then .fcr0 else .fcr31
  (o, r)

/-- `idec_imm`. -/
def idecImm (iw : BitVec 32) (idec : Idec) : BitVec 64 :=
  (((iw &&& idec.imm.mask) ^^^ idec.imm.smask.setWidth 32).setWidth 64 -
    idec.imm.smask.setWidth 64) <<< idec.imm.lshift

/-- The union `f` of `struct precomp_instr`; `i` and `r` begin with the same two members. -/
inductive InstrF where
  | i (rs rt : RegPtr) (immediate : BitVec 16)
  | j (instIndex : BitVec 32)
  | r (rs rt rd : RegPtr) (sa nrd : BitVec 5)
  | lf (base ft : BitVec 5) (offset : BitVec 16)
  | cf (ft fs fd : BitVec 5)
  deriving DecidableEq, Repr

/-- The operand macros of `cached_interp.c`, with no value where another member was written. -/
def Accessor.ofInstr : InstrF → Accessor → Option Operand
  | .r rs _ _ _ _, .rrs | .r rs _ _ _ _, .irs | .i rs _ _, .rrs | .i rs _ _, .irs =>
      some (.reg rs)
  | .r _ rt _ _ _, .rrt | .r _ rt _ _ _, .irt | .i _ rt _, .rrt | .i _ rt _, .irt =>
      some (.reg rt)
  | .r _ _ rd _ _, .rrd => some (.reg rd)
  | .r _ _ _ sa _, .rsa => some (.index sa)
  | .r _ _ _ _ nrd, .rfs => some (.index nrd)
  | .i _ _ immediate, .iimmediate => some (.immediate immediate)
  | .j instIndex, .jinstIndex => some (.target instIndex)
  | .lf base _ _, .lfbase => some (.index base)
  | .lf _ ft _, .lfft => some (.index ft)
  | .lf _ _ offset, .lfoffset => some (.immediate offset)
  | .cf ft _ _, .cfft => some (.index ft)
  | .cf _ fs _, .cffs => some (.index fs)
  | .cf _ _ fd, .cffd => some (.index fd)
  | _, _ => none

/-- The function of `ci_table`, under the aliases `cached_interp.c` defines: `JR_IDLE` and
    `JALR_IDLE` are `NI` too. -/
def R4300Op.ciRoutine : R4300Op → Routine
  | .bc0f | .bc0fl | .bc0t | .bc0tl | .bc2f | .bc2fl | .bc2t | .bc2tl | .cfc0 | .ctc0 | .lld
  | .scd => .ni
  | .dmtc0 => .mtc0
  | .dcfc2 | .ldc2 | .dctc2 | .lwc2 | .sdc2 | .swc2 => .reservedCop2
  | .reserved | .cp1 _ => .reserved
  | .add => .add | .addi => .addi | .addiu => .addiu | .addu => .addu | .and => .and
  | .andi => .andi | .bc1f => .bc1f | .bc1fl => .bc1fl | .bc1t => .bc1t | .bc1tl => .bc1tl
  | .beq => .beq | .beql => .beql | .bgez => .bgez | .bgezal => .bgezal | .bgezall => .bgezall
  | .bgezl => .bgezl | .bgtz => .bgtz | .bgtzl => .bgtzl | .blez => .blez | .blezl => .blezl
  | .bltz => .bltz | .bltzal => .bltzal | .bltzall => .bltzall | .bltzl => .bltzl | .bne => .bne
  | .bnel => .bnel | .brk => .brk | .cache => .cache | .cfc1 => .cfc1 | .dcfc1 => .dcfc1
  | .cfc2 => .cfc2 | .ctc1 => .ctc1 | .dctc1 => .dctc1 | .ctc2 => .ctc2 | .dadd => .dadd
  | .daddi => .daddi | .daddiu => .daddiu | .daddu => .daddu | .ddiv => .ddiv | .ddivu => .ddivu
  | .div => .div | .divu => .divu | .dmfc0 => .dmfc0 | .dmfc1 => .dmfc1 | .dmfc2 => .dmfc2
  | .dmtc1 => .dmtc1 | .dmtc2 => .dmtc2 | .dmult => .dmult | .dmultu => .dmultu | .dsll => .dsll
  | .dsll32 => .dsll32 | .dsllv => .dsllv | .dsra => .dsra | .dsra32 => .dsra32
  | .dsrav => .dsrav | .dsrl => .dsrl | .dsrl32 => .dsrl32 | .dsrlv => .dsrlv | .dsub => .dsub
  | .dsubu => .dsubu | .eret => .eret | .j => .j | .jal => .jal | .jalr => .jalr | .jr => .jr
  | .lb => .lb | .lbu => .lbu | .ld => .ld | .ldc1 => .ldc1 | .ldl => .ldl | .ldr => .ldr
  | .lh => .lh | .lhu => .lhu | .ll => .ll | .lui => .lui | .lw => .lw | .lwc1 => .lwc1
  | .lwl => .lwl | .lwr => .lwr | .lwu => .lwu | .mfc0 => .mfc0 | .mfc1 => .mfc1 | .mfc2 => .mfc2
  | .mfhi => .mfhi | .mflo => .mflo | .mtc0 => .mtc0 | .mtc1 => .mtc1 | .mtc2 => .mtc2
  | .mthi => .mthi | .mtlo => .mtlo | .mult => .mult | .multu => .multu | .nop => .nop
  | .nor => .nor | .or => .or | .ori => .ori | .sb => .sb | .sc => .sc | .sd => .sd
  | .sdc1 => .sdc1 | .sdl => .sdl | .sdr => .sdr | .sh => .sh | .sll => .sll | .sllv => .sllv
  | .slt => .slt | .slti => .slti | .sltiu => .sltiu | .sltu => .sltu | .sra => .sra
  | .srav => .srav | .srl => .srl | .srlv => .srlv | .sub => .sub | .subu => .subu | .sw => .sw
  | .swc1 => .swc1 | .swl => .swl | .swr => .swr | .sync => .sync | .syscall => .syscall
  | .teq => .teq | .teqi => .teqi | .tge => .tge | .tgei => .tgei | .tgeiu => .tgeiu
  | .tgeu => .tgeu | .tlbp => .tlbp | .tlbr => .tlbr | .tlbwi => .tlbwi | .tlbwr => .tlbwr
  | .tlt => .tlt | .tlti => .tlti | .tltiu => .tltiu | .tltu => .tltu | .tne => .tne
  | .tnei => .tnei | .xor => .xor | .xori => .xori

def ciTable (opcode : R4300Op) (variant : Variant) : Handler :=
  match opcode, variant with
  | .jr, .idle | .jalr, .idle => ⟨.ni, .regular⟩
  | _, _ => ⟨opcode.ciRoutine, variant⟩

/-- `infer_jump_sub_type`. -/
def inferJumpSubType (target pc nextIw blockStart blockEnd : BitVec 32) : Variant :=
  if target = pc then
    if nextIw = 0 then .idle else .regular
  else if target < blockStart ∨ target ≥ blockEnd ∨ pc = blockEnd - 4 then .out
  else .regular

/-- The groups of case labels in `r4300_decode`. -/
inductive DecodeCase where
  | jalr | jr | jump | branch | toRd | toRt | lf | copToRt | cp1 (op : FpuOp) | rType | iType | bare
  deriving DecidableEq, Repr

def R4300Op.decodeCase : R4300Op → DecodeCase
  | .jalr => .jalr
  | .jr => .jr
  | .j | .jal => .jump
  | .bc0f | .bc0fl | .bc0t | .bc0tl | .bc1f | .bc1fl | .bc1t | .bc1tl | .bc2f | .bc2fl | .bc2t
  | .bc2tl | .beq | .beql | .bgez | .bgezal | .bgezall | .bgezl | .bgtz | .bgtzl | .blez
  | .blezl | .bltz | .bltzal | .bltzall | .bltzl | .bne | .bnel => .branch
  | .add | .addu | .and | .dadd | .daddu | .dsll | .dsll32 | .dsllv | .dsra | .dsra32 | .dsrav
  | .dsrl | .dsrl32 | .dsrlv | .dsub | .dsubu | .mfhi | .mflo | .nor | .or | .sll | .sllv
  | .slt | .sltu | .sra | .srav | .srl | .srlv | .sub | .subu | .xor => .toRd
  | .addi | .addiu | .andi | .daddi | .daddiu | .lb | .lbu | .ld | .ldl | .ldr | .lh | .lhu
  | .ll | .lld | .lui | .lw | .lwl | .lwr | .lwu | .ori | .sc | .slti | .sltiu | .xori => .toRt
  | .ldc1 | .lwc1 | .sdc1 | .swc1 => .lf
  | .cfc0 | .cfc1 | .cfc2 | .dcfc1 | .dcfc2 | .dmfc0 | .dmfc1 | .dmfc2
  | .mfc0 | .mfc1 | .mfc2 => .copToRt
  | .ctc0 | .ctc1 | .dctc1 | .ctc2 | .dctc2 | .ddiv | .ddivu | .div | .divu | .dmtc0 | .dmtc1
  | .dmtc2 | .dmult | .dmultu | .mtc0 | .mtc1 | .mtc2 | .mthi | .mtlo | .mult | .multu | .nop
  | .teq | .tge | .tgeu | .tlt | .tltu | .tne => .rType
  | .ldc2 | .lwc2 | .sb | .scd | .sd | .sdc2 | .sdl | .sdr | .sh | .sw | .swc2 | .swl | .swr
  | .teqi | .tgei | .tgeiu | .tlti | .tltiu | .tnei => .iType
  | .cp1 op => .cp1 op
  | _ => .bare

def fillR (iw : BitVec 32) (idec : Idec) : InstrF :=
  .r (idecU53 iw idec.s).1 (idecU53 iw idec.t).1 (idecU53 iw idec.d).1
    (idecU53 iw idec.x).2 (idecU53 iw idec.d).2

def fillI (iw : BitVec 32) (idec : Idec) : InstrF :=
  .i (idecU53 iw idec.s).1 (idecU53 iw idec.t).1 (imm16Of iw)

def fillLf (iw : BitVec 32) (idec : Idec) : InstrF :=
  .lf (idecU53 iw idec.s).2 (idecU53 iw idec.t).2 (imm16Of iw)

def fillCf (iw : BitVec 32) (idec : Idec) : InstrF :=
  .cf (idecU53 iw idec.t).2 (idecU53 iw idec.s).2 (idecU53 iw idec.d).2

/-- The formats for which a floating point opcode has a function (`CP1_S_D` and the two cases
    written out behind it). -/
def FpuOp.format (op : FpuOp) (fmt : BitVec 5) : Option Format :=
  match op, fmt.toNat with
  | .cvtD, 0x10 => some .S
  | .cvtD, 0x14 => some .W
  | .cvtD, 0x15 => some .L
  | .cvtD, _ => none
  | .cvtS, 0x11 => some .D
  | .cvtS, 0x14 => some .W
  | .cvtS, 0x15 => some .L
  | .cvtS, _ => none
  | _, 0x10 => some .S
  | _, 0x11 => some .D
  | _, _ => none

/-- What `r4300_decode` leaves in `inst` and the opcode it returns. -/
structure Decoded where
  opcode : R4300Op
  variant : Variant
  ops : Handler
  f : InstrF
  deriving DecidableEq, Repr

/-- The end of `r4300_decode`: `inst->ops = ci_table[opcode]`. -/
def Decoded.ofTable (opcode : R4300Op) (variant : Variant) (f : InstrF) : Decoded :=
  ⟨opcode, variant, ciTable opcode variant, f⟩

/-- `r4300_decode` of the word `iw` at `addr`, in front of `nextIw`; `stale` is the union's content
    before. -/
def r4300Decode (opcode : R4300Op) (iw nextIw addr blockStart blockEnd : BitVec 32)
    (stale : InstrF) : Decoded :=
  let idec := opcode.idec
  match opcode.decodeCase with
  | .jalr => .ofTable opcode .out (fillR iw idec)
  | .jr => .ofTable opcode .out (fillI iw idec)
  | .jump =>
      let target := (addr &&& 0xF0000000) ||| ((idecImm iw idec).setWidth 32 &&& 0x0FFFFFFF)
      .ofTable opcode (inferJumpSubType target addr nextIw blockStart blockEnd)
        (.j (iw &&& 0x3FFFFFF))
  | .branch =>
      let target := addr + (imm16Of iw).signExtend 32 * 4 + 4
      .ofTable opcode (inferJumpSubType target addr nextIw blockStart blockEnd) (fillI iw idec)
  | .toRd =>
      .ofTable (if (idecU53 iw idec.d).2 = 0 then .nop else opcode) .regular (fillR iw idec)
  | .toRt =>
      .ofTable (if (idecU53 iw idec.t).2 = 0 then .nop else opcode) .regular (fillI iw idec)
  | .lf => .ofTable opcode .regular (fillLf iw idec)
  | .copToRt =>
      .ofTable (if (idecU53 iw idec.t).2 = 0 then .nop else opcode) .regular (fillR iw idec)
  | .cp1 op =>
      match op.format (idecU53 iw idec.x).2 with
      | some fmt => ⟨opcode, .regular, ⟨.fpu op fmt, .regular⟩, fillCf iw idec⟩
      | none => .ofTable .reserved .regular (fillCf iw idec)
  | .rType => .ofTable opcode .regular (fillR iw idec)
  | .iType => .ofTable opcode .regular (fillI iw idec)
  | .bare => .ofTable opcode .regular stale

end Mupen64plus
