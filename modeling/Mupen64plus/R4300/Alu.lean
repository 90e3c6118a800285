import Mupen64plus.R4300.LoadStore
import Mupen64plus.R4300.Multiply64

/-!
# Instructions on the core alone

The computations, the moves of HI and LO, the traps and the exceptions of
`mips_instructions.def`. An instruction of a family is its operation on the operands; the family
reads them, writes the result and ends by `ADD_TO_PC(1)`.

## Main definitions

- `rType`, `iType`, `shiftType`, `hiLoType`, `declareTrap` — the families
- `raise` — an exception by way of Cause
-/

namespace Mupen64plus

/-- The immediate, as the 64-bit operations take it. -/
def iimmediate64 (op : BitVec 32) : BitVec 64 := (imm16Of op).signExtend 64

/-- `(uint16_t) iimmediate`. -/
def uimmediate64 (op : BitVec 32) : BitVec 64 := (imm16Of op).setWidth 64

def low32 (v : BitVec 64) : BitVec 32 := v.setWidth 32

namespace R4300

-- ════════════════════════════════════════════════════════════════════════
-- Families
-- ════════════════════════════════════════════════════════════════════════

/-- `rrd` from `rrs` and `rrt`. -/
def rType (op : BitVec 32) (r : R4300) (f : BitVec 64 → BitVec 64 → BitVec 64) : R4300 :=
  (r.setGpr (rdReg op) (f (r.regs (rsReg op)) (r.regs (rtReg op)))).addToPc

/-- `irt` from `irs` and the immediate. -/
def iType (op : BitVec 32) (r : R4300) (f : BitVec 64 → BitVec 64) : R4300 :=
  (r.setGpr (rtReg op) (f (r.regs (rsReg op)))).addToPc

/-- `rrd` from `rrt` and `rsa`. -/
def shiftType (op : BitVec 32) (r : R4300) (f : BitVec 64 → ℕ → BitVec 64) : R4300 :=
  (r.setGpr (rdReg op) (f (r.regs (rtReg op)) (saOf op).toNat)).addToPc

/-- HI and LO from `rrs` and `rrt`. -/
def hiLoType (op : BitVec 32) (r : R4300) (f : BitVec 64 → BitVec 64 → HiLo) : R4300 :=
  let v := f (r.regs (rsReg op)) (r.regs (rtReg op))
  { r with hi := v.hi, lo := v.lo }.addToPc

/-- A code in Cause, and `exception_general`. -/
def raise (r : R4300) (cause : BitVec 32) : R4300 := exceptionGeneral (r.setCp0 .cause cause)

/-- `DECLARE_TRAP`. -/
def declareTrap (r : R4300) (cond : Bool) : R4300 :=
  if cond then r.raise (excCode 13) else r.addToPc

def trapType (op : BitVec 32) (r : R4300) (cond : BitVec 64 → BitVec 64 → Bool) : R4300 :=
  r.declareTrap (cond (r.regs (rsReg op)) (r.regs (rtReg op)))

def trapImmediate (op : BitVec 32) (r : R4300) (cond : BitVec 64 → BitVec 64 → Bool) : R4300 :=
  r.declareTrap (cond (r.regs (rsReg op)) (iimmediate64 op))

-- ════════════════════════════════════════════════════════════════════════
-- Arithmetic and logic
-- ════════════════════════════════════════════════════════════════════════

def add (op : BitVec 32) (r : R4300) : R4300 :=
  r.rType op fun rs rt => se32 (low32 rs + low32 rt)

def addu (op : BitVec 32) (r : R4300) : R4300 :=
  r.rType op fun rs rt => se32 (low32 rs + low32 rt)

def addi (op : BitVec 32) (r : R4300) : R4300 :=
  r.iType op fun rs => se32 (low32 rs + (imm16Of op).signExtend 32)

def addiu (op : BitVec 32) (r : R4300) : R4300 :=
  r.iType op fun rs => se32 (low32 rs + (imm16Of op).signExtend 32)

def dadd (op : BitVec 32) (r : R4300) : R4300 := r.rType op (· + ·)
def daddu (op : BitVec 32) (r : R4300) : R4300 := r.rType op (· + ·)
def daddi (op : BitVec 32) (r : R4300) : R4300 := r.iType op (· + iimmediate64 op)
def daddiu (op : BitVec 32) (r : R4300) : R4300 := r.iType op (· + iimmediate64 op)

def sub (op : BitVec 32) (r : R4300) : R4300 :=
  r.rType op fun rs rt => se32 (low32 rs - low32 rt)

def subu (op : BitVec 32) (r : R4300) : R4300 :=
  r.rType op fun rs rt => se32 (low32 rs - low32 rt)

def dsub (op : BitVec 32) (r : R4300) : R4300 := r.rType op (· - ·)
def dsubu (op : BitVec 32) (r : R4300) : R4300 := r.rType op (· - ·)

def slt (op : BitVec 32) (r : R4300) : R4300 :=
  r.rType op fun rs rt => if rs.slt rt then 1 else 0

def sltu (op : BitVec 32) (r : R4300) : R4300 :=
  r.rType op fun rs rt => if rs.ult rt then 1 else 0

def slti (op : BitVec 32) (r : R4300) : R4300 :=
  r.iType op fun rs => if rs.slt (iimmediate64 op) then 1 else 0

def sltiu (op : BitVec 32) (r : R4300) : R4300 :=
  r.iType op fun rs => if rs.ult (iimmediate64 op) then 1 else 0

def and (op : BitVec 32) (r : R4300) : R4300 := r.rType op (· &&& ·)
def andi (op : BitVec 32) (r : R4300) : R4300 := r.iType op (· &&& uimmediate64 op)
def or (op : BitVec 32) (r : R4300) : R4300 := r.rType op (· ||| ·)
def ori (op : BitVec 32) (r : R4300) : R4300 := r.iType op (· ||| uimmediate64 op)
def xor (op : BitVec 32) (r : R4300) : R4300 := r.rType op (· ^^^ ·)
def xori (op : BitVec 32) (r : R4300) : R4300 := r.iType op (· ^^^ uimmediate64 op)
def nor (op : BitVec 32) (r : R4300) : R4300 := r.rType op fun rs rt => ~~~(rs ||| rt)

def lui (op : BitVec 32) (r : R4300) : R4300 :=
  r.iType op fun _ => se32 ((imm16Of op).signExtend 32 <<< 16)

-- ════════════════════════════════════════════════════════════════════════
-- Shifts
-- ════════════════════════════════════════════════════════════════════════

/-- `rrs32 & 0x1F`. -/
def shift5 (rs : BitVec 64) : ℕ := (rs &&& 0x1F).toNat

/-- `rrs32 & 0x3F`. -/
def shift6 (rs : BitVec 64) : ℕ := (rs &&& 0x3F).toNat

def sll (op : BitVec 32) (r : R4300) : R4300 :=
  r.shiftType op fun rt sa => se32 (low32 rt <<< sa)

def sllv (op : BitVec 32) (r : R4300) : R4300 :=
  r.rType op fun rs rt => se32 (low32 rt <<< shift5 rs)

def dsll (op : BitVec 32) (r : R4300) : R4300 := r.shiftType op fun rt sa => rt <<< sa
def dsllv (op : BitVec 32) (r : R4300) : R4300 := r.rType op fun rs rt => rt <<< shift6 rs
def dsll32 (op : BitVec 32) (r : R4300) : R4300 := r.shiftType op fun rt sa => rt <<< (32 + sa)

def srl (op : BitVec 32) (r : R4300) : R4300 :=
  r.shiftType op fun rt sa => se32 (low32 rt >>> sa)

def srlv (op : BitVec 32) (r : R4300) : R4300 :=
  r.rType op fun rs rt => se32 (low32 rt >>> shift5 rs)

def dsrl (op : BitVec 32) (r : R4300) : R4300 := r.shiftType op fun rt sa => rt >>> sa
def dsrlv (op : BitVec 32) (r : R4300) : R4300 := r.rType op fun rs rt => rt >>> shift6 rs
def dsrl32 (op : BitVec 32) (r : R4300) : R4300 := r.shiftType op fun rt sa => rt >>> (32 + sa)

/-- The shift is one of 64 bits, of which the low word is taken. -/
def sra (op : BitVec 32) (r : R4300) : R4300 :=
  r.shiftType op fun rt sa => se32 (low32 (rt.sshiftRight sa))

def srav (op : BitVec 32) (r : R4300) : R4300 :=
  r.rType op fun rs rt => se32 (low32 (rt.sshiftRight (shift5 rs)))

def dsra (op : BitVec 32) (r : R4300) : R4300 := r.shiftType op fun rt sa => rt.sshiftRight sa

def dsrav (op : BitVec 32) (r : R4300) : R4300 :=
  r.rType op fun rs rt => rt.sshiftRight (shift6 rs)

def dsra32 (op : BitVec 32) (r : R4300) : R4300 :=
  r.shiftType op fun rt sa => rt.sshiftRight (32 + sa)

-- ════════════════════════════════════════════════════════════════════════
-- HI and LO
-- ════════════════════════════════════════════════════════════════════════

/-- The halves of a product of 32 bits. -/
def product32 (temp : BitVec 64) : HiLo where
  hi := temp.sshiftRight 32
  lo := se32 (low32 temp)

def mult (op : BitVec 32) (r : R4300) : R4300 :=
  r.hiLoType op fun rs rt => product32 (se32 (low32 rs) * se32 (low32 rt))

def multu (op : BitVec 32) (r : R4300) : R4300 :=
  r.hiLoType op fun rs rt => product32 ((low32 rs).setWidth 64 * (low32 rt).setWidth 64)

def dmultInstr (op : BitVec 32) (r : R4300) : R4300 := r.hiLoType op dmult
def dmultuInstr (op : BitVec 32) (r : R4300) : R4300 := r.hiLoType op dmultu

/-- `DIV` and `DDIV`: a division by zero, and the one that overflows, have results of their
    own. -/
def quotient {w : ℕ} (rs rt : BitVec w) : BitVec w × BitVec w :=
  if rt ≠ 0 then
    if rs = BitVec.intMin w ∧ rt = -1 then (rs, 0) else (rs.sdiv rt, rs.srem rt)
  else (if rs.slt 0 then 1 else -1, rs)

/-- `DIVU` and `DDIVU`. -/
def quotientU {w : ℕ} (rs rt : BitVec w) : BitVec w × BitVec w :=
  if rt ≠ 0 then (rs / rt, rs % rt) else (-1, rs)

def div (op : BitVec 32) (r : R4300) : R4300 :=
  r.hiLoType op fun rs rt =>
    let (lo, hi) := quotient (low32 rs) (low32 rt)
    { hi := se32 hi, lo := se32 lo }

def divu (op : BitVec 32) (r : R4300) : R4300 :=
  r.hiLoType op fun rs rt =>
    let (lo, hi) := quotientU (low32 rs) (low32 rt)
    { hi := se32 hi, lo := se32 lo }

def ddiv (op : BitVec 32) (r : R4300) : R4300 :=
  r.hiLoType op fun rs rt =>
    let (lo, hi) := quotient rs rt
    { hi := hi, lo := lo }

def ddivu (op : BitVec 32) (r : R4300) : R4300 :=
  r.hiLoType op fun rs rt =>
    let (lo, hi) := quotientU rs rt
    { hi := hi, lo := lo }

def mfhi (op : BitVec 32) (r : R4300) : R4300 := (r.setGpr (rdReg op) r.hi).addToPc
def mthi (op : BitVec 32) (r : R4300) : R4300 := { r with hi := r.regs (rsReg op) }.addToPc
def mflo (op : BitVec 32) (r : R4300) : R4300 := (r.setGpr (rdReg op) r.lo).addToPc
def mtlo (op : BitVec 32) (r : R4300) : R4300 := { r with lo := r.regs (rsReg op) }.addToPc

-- ════════════════════════════════════════════════════════════════════════
-- Exceptions and traps
-- ════════════════════════════════════════════════════════════════════════

def ni (r : R4300) : R4300 := { r with stop := true }
def reserved (r : R4300) : R4300 := r.raise (excCode 10)
def brk (r : R4300) : R4300 := r.raise (excCode 9)
def syscall (r : R4300) : R4300 := r.raise (excCode 8)

def tge (op : BitVec 32) (r : R4300) : R4300 := r.trapType op fun rs rt => rt.sle rs
def tgeu (op : BitVec 32) (r : R4300) : R4300 := r.trapType op fun rs rt => rt.ule rs
def tgei (op : BitVec 32) (r : R4300) : R4300 := r.trapImmediate op fun rs i => i.sle rs
def tgeiu (op : BitVec 32) (r : R4300) : R4300 := r.trapImmediate op fun rs i => i.ule rs
def tlt (op : BitVec 32) (r : R4300) : R4300 := r.trapType op BitVec.slt
def tltu (op : BitVec 32) (r : R4300) : R4300 := r.trapType op BitVec.ult
def tlti (op : BitVec 32) (r : R4300) : R4300 := r.trapImmediate op BitVec.slt
def tltiu (op : BitVec 32) (r : R4300) : R4300 := r.trapImmediate op BitVec.ult
def teq (op : BitVec 32) (r : R4300) : R4300 := r.trapType op (· == ·)
def teqi (op : BitVec 32) (r : R4300) : R4300 := r.trapImmediate op (· == ·)
def tne (op : BitVec 32) (r : R4300) : R4300 := r.trapType op (· != ·)
def tnei (op : BitVec 32) (r : R4300) : R4300 := r.trapImmediate op (· != ·)

-- ════════════════════════════════════════════════════════════════════════
-- Coprocessor 2
-- ════════════════════════════════════════════════════════════════════════

/-- `check_cop2_unusable`, in front of a body. -/
def checkCop2Unusable (r : R4300) (body : R4300) : R4300 :=
  if r.cp0Reg .status &&& statusCU2 = 0 then r.raise (excCode 11 ||| causeCE2) else body

def reservedCop2 (r : R4300) : R4300 := r.checkCop2Unusable (r.raise (excCode 10 ||| causeCE2))

/-- `rrt` from the latch. -/
def moveFromLatch (op : BitVec 32) (r : R4300) (f : BitVec 64 → BitVec 64) : R4300 :=
  r.checkCop2Unusable (r.setGpr (rtReg op) (f r.cp2Latch)).addToPc

/-- The latch from `rrt`. -/
def moveToLatch (op : BitVec 32) (r : R4300) : R4300 :=
  r.checkCop2Unusable { r with cp2Latch := r.regs (rtReg op) }.addToPc

def mfc2 (op : BitVec 32) (r : R4300) : R4300 := r.moveFromLatch op fun v => se32 (low32 v)
def dmfc2 (op : BitVec 32) (r : R4300) : R4300 := r.moveFromLatch op id
def cfc2 (op : BitVec 32) (r : R4300) : R4300 := r.moveFromLatch op fun v => se32 (low32 v)
def mtc2 (op : BitVec 32) (r : R4300) : R4300 := r.moveToLatch op
def dmtc2 (op : BitVec 32) (r : R4300) : R4300 := r.moveToLatch op
def ctc2 (op : BitVec 32) (r : R4300) : R4300 := r.moveToLatch op

end R4300

end Mupen64plus
