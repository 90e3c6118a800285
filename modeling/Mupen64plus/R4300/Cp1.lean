import Mupen64plus.R4300.Alu

/-!
# The instructions on coprocessor 1

The loads, stores and moves of `mips_instructions.def` on the floating point registers, and its
computations. The arithmetic itself is the host's.

## Main definitions

- `Fpu` — the functions of `fpu.h`
- `checkCop1Unusable` — the test in front of a body
- `fpuInstruction`, `uncheckedFpuInstruction` — the computations, with and without that test
-/

namespace Mupen64plus

-- ════════════════════════════════════════════════════════════════════════
-- The registers through their pointers
-- ════════════════════════════════════════════════════════════════════════

namespace Cp1

/-- `i & ~1`. -/
def evenReg (i : Fin 32) : Fin 32 := ⟨i.val / 2 * 2, by omega⟩

/-- `*regs_double[i]`. -/
def double (c : Cp1) (i : Fin 32) : BitVec 64 := c.regs (if c.fr then i else evenReg i)

def setDouble (c : Cp1) (i : Fin 32) (v : BitVec 64) : Cp1 :=
  { c with regs := Function.update c.regs (if c.fr then i else evenReg i) v }

/-- The pointer of `regs_simple[i]` is to the upper word. -/
def isUpper (c : Cp1) (i : Fin 32) : Bool := !c.fr && i.val % 2 == 1

/-- `*regs_simple[i]`. -/
def simple (c : Cp1) (i : Fin 32) : BitVec 32 :=
  if c.isUpper i then (c.double i >>> 32).setWidth 32 else (c.double i).setWidth 32

def setSimple (c : Cp1) (i : Fin 32) (v : BitVec 32) : Cp1 :=
  let old := c.double i
  c.setDouble i (if c.isUpper i then v ++ old.setWidth 32 else (old >>> 32).setWidth 32 ++ v)

/-- The register of a format. -/
def read (c : Cp1) (fmt : Format) (i : Fin 32) : BitVec 64 :=
  match fmt with
  | .S | .W => (c.simple i).setWidth 64
  | .D | .L => c.double i

def write (c : Cp1) (fmt : Format) (i : Fin 32) (v : BitVec 64) : Cp1 :=
  match fmt with
  | .S | .W => c.setSimple i (v.setWidth 32)
  | .D | .L => c.setDouble i v

end Cp1

/-- The functions of `fpu.h`: a computation has FCR31, its operands and its destination, and gives
    FCR31 and the destination back. -/
structure Fpu where
  run : FpuOp → Format → BitVec 32 → BitVec 64 → BitVec 64 → BitVec 64 → BitVec 32 × BitVec 64
  /-- `fpu_reset_cause`. -/
  resetCause : BitVec 32 → BitVec 32

namespace FpuOp

/-- A function that is not given FCR31. -/
def withoutFcr31 : FpuOp → Bool
  | .mov | .truncW | .truncL | .roundW | .roundL | .ceilW | .ceilL | .floorW | .floorL => true
  | _ => false

/-- The format of the result; a compare has none. -/
def resultFormat (op : FpuOp) (fmt : Format) : Option Format :=
  match op with
  | .abs | .add | .div | .mov | .mul | .neg | .sqrt | .sub => some fmt
  | .truncW | .roundW | .ceilW | .floorW | .cvtW => some .W
  | .truncL | .roundL | .ceilL | .floorL | .cvtL => some .L
  | .cvtS => some .S
  | .cvtD => some .D
  | _ => none

end FpuOp

def fsReg (op : BitVec 32) : Fin 32 := (fsOf op).toFin
def ftReg (op : BitVec 32) : Fin 32 := (ftOf op).toFin
def fdReg (op : BitVec 32) : Fin 32 := (fdOf op).toFin

/-- The second operand: `C_F_S` compares with `cffd`. -/
def secondReg (fpuOp : FpuOp) (fmt : Format) (op : BitVec 32) : Fin 32 :=
  if fpuOp = .cF ∧ fmt = .S then fdReg op else ftReg op

def fcr31UnimplOp : BitVec 32 := 0x020000

namespace R4300

/-- `check_cop1_unusable`: an exception, or no change. -/
def checkCop1Unusable (r : R4300) : Option R4300 :=
  if r.cp0Reg .status &&& statusCU1 = 0 then some (r.raise (excCode 11 ||| causeCE1)) else none

-- ════════════════════════════════════════════════════════════════════════
-- Moves
-- ════════════════════════════════════════════════════════════════════════

/-- The test in front of a body. -/
def usingCop1 (r : R4300) (body : R4300) : R4300 := r.checkCop1Unusable.getD body

def mfc1 (op : BitVec 32) (r : R4300) : R4300 :=
  r.usingCop1 (r.setGpr (rtReg op) (se32 (r.cp1.simple (fsReg op)))).addToPc

def dmfc1 (op : BitVec 32) (r : R4300) : R4300 :=
  r.usingCop1 (r.setGpr (rtReg op) (r.cp1.double (fsReg op))).addToPc

/-- Other control registers leave the operand as it is. -/
def cfc1 (op : BitVec 32) (r : R4300) : R4300 :=
  r.usingCop1 <| addToPc <|
    if fsReg op = 31 then r.setGpr (rtReg op) (se32 r.cp1.fcr31)
    else if fsReg op = 0 then r.setGpr (rtReg op) (se32 r.cp1.fcr0)
    else r

/-- `DCFC1` and `DCTC1`: there are no such moves. -/
def unimplementedMove (fpu : Fpu) (r : R4300) : R4300 :=
  r.usingCop1 <|
    raise { r with cp1 := { r.cp1 with fcr31 := fpu.resetCause r.cp1.fcr31 ||| fcr31UnimplOp } }
      (excCode 15)

def dcfc1 (fpu : Fpu) (r : R4300) : R4300 := r.unimplementedMove fpu
def dctc1 (fpu : Fpu) (r : R4300) : R4300 := r.unimplementedMove fpu

def mtc1 (op : BitVec 32) (r : R4300) : R4300 :=
  r.usingCop1 { r with cp1 := r.cp1.setSimple (fsReg op) (r.gpr32 (rtReg op)) }.addToPc

def dmtc1 (op : BitVec 32) (r : R4300) : R4300 :=
  r.usingCop1 { r with cp1 := r.cp1.setDouble (fsReg op) (r.regs (rtReg op)) }.addToPc

def ctc1 (op : BitVec 32) (r : R4300) : R4300 :=
  r.usingCop1 <| addToPc <|
    if fsReg op = 31 then { r with cp1 := { r.cp1 with fcr31 := r.gpr32 (rtReg op) } } else r

-- ════════════════════════════════════════════════════════════════════════
-- Computations
-- ════════════════════════════════════════════════════════════════════════

/-- A computation without the test. -/
def uncheckedFpuInstruction (fpu : Fpu) (fpuOp : FpuOp) (fmt : Format) (op : BitVec 32)
    (r : R4300) : R4300 :=
  let c := r.cp1
  let run := fpu.run fpuOp fmt c.fcr31 (c.read fmt (fsReg op)) (c.read fmt (secondReg fpuOp fmt op))
  let setFcr31 (v : BitVec 32) : Cp1 := if fpuOp.withoutFcr31 then c else { c with fcr31 := v }
  let c := match fpuOp.resultFormat fmt with
    | some fmt =>
      let (fcr31, dest) := run (c.read fmt (fdReg op))
      (setFcr31 fcr31).write fmt (fdReg op) dest
    | none => setFcr31 (run 0).1
  { r with cp1 := c }.addToPc

/-- The compares whose bodies start without the test. -/
def isUnchecked (fpuOp : FpuOp) (fmt : Format) : Bool :=
  match fpuOp, fmt with
  | .cSf, .D | .cNgle, .D | .cSeq, .D | .cNgl, .D => true
  | _, _ => false

def fpuInstruction (fpu : Fpu) (fpuOp : FpuOp) (fmt : Format) (op : BitVec 32) (r : R4300) :
    R4300 :=
  if isUnchecked fpuOp fmt then r.uncheckedFpuInstruction fpu fpuOp fmt op
  else r.usingCop1 (r.uncheckedFpuInstruction fpu fpuOp fmt op)

end R4300

-- ════════════════════════════════════════════════════════════════════════
-- Loads and stores
-- ════════════════════════════════════════════════════════════════════════

namespace Machine

variable {M : Type}

/-- The test in front of a body. -/
def usingCop1 (m : Machine M) (body : Machine M) : Machine M :=
  match m.core.checkCop1Unusable with
  | some core => { m with core := core }
  | none => body

/-- The end of a load of a floating point register. -/
def finishLoadCp1 {α : Type} (set : Cp1 → α → Cp1) : Option α × Machine M → Machine M
  | (none, m) => m
  | (some x, m) => { m with core := { m.core with cp1 := set m.core.cp1 x } }

def lwc1 (o : OtherRegions M) (op : BitVec 32) (m : Machine M) : Machine M :=
  m.usingCop1 <| finishLoadCp1 (fun c v => c.setSimple (ftReg op) v)
    (m.addToPc.readAlignedWord o (m.lsaddr op))

def ldc1 (o : OtherRegions M) (op : BitVec 32) (m : Machine M) : Machine M :=
  m.usingCop1 <| finishLoadCp1 (fun c v => c.setDouble (ftReg op) v)
    (m.addToPc.readAlignedDword o (m.lsaddr op))

def swc1 (o : OtherRegions M) (op : BitVec 32) (m : Machine M) : Machine M :=
  m.usingCop1 (m.addToPc.writeAlignedWord o (m.lsaddr op) (m.core.cp1.simple (ftReg op))
    (~~~0)).2

def sdc1 (o : OtherRegions M) (op : BitVec 32) (m : Machine M) : Machine M :=
  m.usingCop1 (m.addToPc.writeAlignedDword o (m.lsaddr op) (m.core.cp1.double (ftReg op))
    (~~~0)).2

end Machine

end Mupen64plus
