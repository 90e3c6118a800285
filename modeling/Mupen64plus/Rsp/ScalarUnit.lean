import Mupen64plus.R4300.PureInterp

/-!
# The scalar unit

The integer instructions of the RSP, which the R4300 has as well, each in its own interpreter. The
registers of the RSP have 32 bits and its program counter stays inside IMEM.

## Main definitions

- `ScalarUnit.execute` — an instruction of the RSP
- `bodyOutcome` — what the body of the R4300 does before the delay slot
- `Agrees` — the same low words and the same branch

## Main results

- `scalarUnit_agrees_iff` — exactly when the two agree
-/

namespace Mupen64plus

-- ════════════════════
-- Instructions of the RSP
-- ════════════════════

/-- `FIT_IMEM`. -/
def fitImem (pc : BitVec 32) : BitVec 32 := pc &&& 0xFFF#32 &&& 0xFFC#32

/-- `BASE_OFF`, by whether `EMULATE_STATIC_PC` is defined. -/
def baseOff (staticPC : Bool) : BitVec 32 := if staticPC then 0#32 else 4#32

def slotOff (staticPC : Bool) : BitVec 32 := baseOff staticPC + 0#32

def linkOff (staticPC : Bool) : BitVec 32 := baseOff staticPC + 4#32

/-- The `PC` that `run_task` gives to the instruction at an address. -/
def pcArgument (staticPC : Bool) (pc : BitVec 32) : BitVec 32 :=
  if staticPC then pc + 4#32 else pc

/-- `MASK_SA`. -/
def maskSa (sa : BitVec 32) : ℕ := (sa &&& 31#32).toNat

/-- `(u16)(inst & 0x0000FFFFu)` as a word. -/
def suUnsigned (inst : BitVec 32) : BitVec 32 := (imm16Of inst).setWidth 32

/-- `(s16)(immediate)` as a word. -/
def suSigned (inst : BitVec 32) : BitVec 32 := (imm16Of inst).signExtend 32

def boolWord (b : Bool) : BitVec 32 := if b then 1#32 else 0#32

/-- `SR` and `temp_PC`. -/
structure ScalarUnit where
  sr : Fin 32 → BitVec 32
  tempPC : BitVec 32

namespace ScalarUnit

def setSR (s : ScalarUnit) (i : Fin 32) (v : BitVec 32) : ScalarUnit :=
  { s with sr := Function.update s.sr i v }

/-- `SR[i] = v; SR[zero] = 0x00000000;` -/
def writeSR (s : ScalarUnit) (i : Fin 32) (v : BitVec 32) : ScalarUnit :=
  (s.setSR i v).setSR 0 0#32

theorem writeSR_zero (s : ScalarUnit) (i : Fin 32) (v : BitVec 32) :
    (s.writeSR i v).sr 0 = 0#32 := by
  simp only [writeSR, setSR, Function.update_self]

theorem writeSR_self (s : ScalarUnit) {i : Fin 32} (hi : i ≠ 0) (v : BitVec 32) :
    (s.writeSR i v).sr i = v := by
  simp only [writeSR, setSR, Function.update_of_ne hi, Function.update_self]

theorem writeSR_of_ne (s : ScalarUnit) {i k : Fin 32} (hk : k ≠ 0) (hki : k ≠ i) (v : BitVec 32) :
    (s.writeSR i v).sr k = s.sr k := by
  simp only [writeSR, setSR, Function.update_of_ne hk, Function.update_of_ne hki]

/-- A register 0 that is zero stays so. -/
theorem writeSR_eq {s : ScalarUnit} (hs : s.sr 0 = 0#32) (i : Fin 32) (v : BitVec 32) :
    s.writeSR i v = if i = 0 then s else s.setSR i v := by
  have hself : Function.update s.sr 0 0#32 = s.sr := by rw [← hs, Function.update_eq_self]
  split
  next hi =>
    simp only [writeSR, setSR, hi, Function.update_idem, hself]
  next hi =>
    simp only [writeSR, setSR, Function.update_comm hi, hself]

/-- `set_PC`. -/
def setPC (s : ScalarUnit) (address : BitVec 32) : ScalarUnit :=
  { s with tempPC := 0x04001000#32 + fitImem address }

/-- A branch; the second component is whether the scheduler takes it. -/
def branch (staticPC : Bool) (inst pc : BitVec 32) (condition : Bool) (s : ScalarUnit) :
    ScalarUnit × Bool :=
  if condition then (s.setPC (pc + 4 * inst + slotOff staticPC), true) else (s, false)

def j (inst : BitVec 32) (s : ScalarUnit) : ScalarUnit × Bool := (s.setPC (4 * inst), true)

def jal (staticPC : Bool) (inst pc : BitVec 32) (s : ScalarUnit) : ScalarUnit × Bool :=
  ((s.setSR 31 (fitImem (pc + linkOff staticPC))).setPC (4 * inst), true)

def beq (staticPC : Bool) (inst pc : BitVec 32) (s : ScalarUnit) : ScalarUnit × Bool :=
  branch staticPC inst pc (s.sr (rsReg inst) == s.sr (rtReg inst)) s

def bne (staticPC : Bool) (inst pc : BitVec 32) (s : ScalarUnit) : ScalarUnit × Bool :=
  branch staticPC inst pc (s.sr (rsReg inst) != s.sr (rtReg inst)) s

def blez (staticPC : Bool) (inst pc : BitVec 32) (s : ScalarUnit) : ScalarUnit × Bool :=
  branch staticPC inst pc ((s.sr (rsReg inst)).sle 0#32) s

def bgtz (staticPC : Bool) (inst pc : BitVec 32) (s : ScalarUnit) : ScalarUnit × Bool :=
  branch staticPC inst pc ((0#32).slt (s.sr (rsReg inst))) s

def andi (inst : BitVec 32) (s : ScalarUnit) : ScalarUnit :=
  s.writeSR (rtReg inst) (s.sr (rsReg inst) &&& suUnsigned inst)

def ori (inst : BitVec 32) (s : ScalarUnit) : ScalarUnit :=
  s.writeSR (rtReg inst) (s.sr (rsReg inst) ||| suUnsigned inst)

def xori (inst : BitVec 32) (s : ScalarUnit) : ScalarUnit :=
  s.writeSR (rtReg inst) (s.sr (rsReg inst) ^^^ suUnsigned inst)

def lui (inst : BitVec 32) (s : ScalarUnit) : ScalarUnit :=
  s.writeSR (rtReg inst) (suUnsigned inst <<< 16)

def addiu (inst : BitVec 32) (s : ScalarUnit) : ScalarUnit :=
  s.writeSR (rtReg inst) (s.sr (rsReg inst) + suSigned inst)

def slti (inst : BitVec 32) (s : ScalarUnit) : ScalarUnit :=
  s.writeSR (rtReg inst) (boolWord ((s.sr (rsReg inst)).slt (suSigned inst)))

/-- The comparison is with the immediate as an unsigned half-word. -/
def sltiu (inst : BitVec 32) (s : ScalarUnit) : ScalarUnit :=
  s.writeSR (rtReg inst) (boolWord ((s.sr (rsReg inst)).ult (suUnsigned inst)))

/-- `SPECIAL`; `none` stands for `BREAK`. -/
def special (staticPC : Bool) (inst pc : BitVec 32) (s : ScalarUnit) :
    Option (ScalarUnit × Bool) :=
  let rd := rdReg inst
  let rs := rsReg inst
  let rt := rtReg inst
  let jump (s : ScalarUnit) : ScalarUnit × Bool := (s.setPC (s.sr rs), true)
  match (functOf inst).toNat with
  | 0 => some (s.writeSR rd (s.sr rt <<< maskSa (inst >>> 6)), false)
  | 2 => some (s.writeSR rd (s.sr rt >>> maskSa (inst >>> 6)), false)
  | 3 => some (s.writeSR rd ((s.sr rt).sshiftRight (maskSa (inst >>> 6))), false)
  | 4 => some (s.writeSR rd (s.sr rt <<< maskSa (s.sr rs)), false)
  | 6 => some (s.writeSR rd (s.sr rt >>> maskSa (s.sr rs)), false)
  | 7 => some (s.writeSR rd ((s.sr rt).sshiftRight (maskSa (s.sr rs))), false)
  | 8 => some (jump s)
  | 9 => some (jump (s.writeSR rd (fitImem (pc + linkOff staticPC))))
  | 13 => none
  | 32 | 33 => some (s.writeSR rd (s.sr rs + s.sr rt), false)
  | 34 | 35 => some (s.writeSR rd (s.sr rs - s.sr rt), false)
  | 36 => some (s.writeSR rd (s.sr rs &&& s.sr rt), false)
  | 37 => some (s.writeSR rd (s.sr rs ||| s.sr rt), false)
  | 38 => some (s.writeSR rd (s.sr rs ^^^ s.sr rt), false)
  | 39 => some (s.writeSR rd (~~~(s.sr rs ||| s.sr rt)), false)
  | 42 => some (s.writeSR rd (boolWord ((s.sr rs).slt (s.sr rt))), false)
  | 43 => some (s.writeSR rd (boolWord ((s.sr rs).ult (s.sr rt))), false)
  | _ => some (s, false)

/-- `REGIMM`; a reserved word jumps to where `temp_PC` is. -/
def regimm (staticPC : Bool) (inst pc : BitVec 32) (s : ScalarUnit) : ScalarUnit × Bool :=
  let base := rsReg inst
  let bltz (s : ScalarUnit) := branch staticPC inst pc ((s.sr base).slt 0#32) s
  let bgez (s : ScalarUnit) := branch staticPC inst pc ((0#32).sle (s.sr base)) s
  match (rtOf inst).toNat with
  | 16 => bltz (s.setSR 31 (fitImem (pc + linkOff staticPC)))
  | 0 => bltz s
  | 17 => bgez (s.setSR 31 (fitImem (pc + linkOff staticPC)))
  | 1 => bgez s
  | _ => (s, true)

/-- The switch of `run_task`; `none` stands for `BREAK` and for what reaches beyond the scalar
    registers. -/
def execute (staticPC : Bool) (inst pc : BitVec 32) (s : ScalarUnit) :
    Option (ScalarUnit × Bool) :=
  match (opOf inst).toNat with
  | 0 => special staticPC inst pc s
  | 1 => some (regimm staticPC inst pc s)
  | 2 => some (j inst s)
  | 3 => some (jal staticPC inst pc s)
  | 4 => some (beq staticPC inst pc s)
  | 5 => some (bne staticPC inst pc s)
  | 6 => some (blez staticPC inst pc s)
  | 7 => some (bgtz staticPC inst pc s)
  | 8 | 9 => some (addiu inst s, false)
  | 10 => some (slti inst s, false)
  | 11 => some (sltiu inst s, false)
  | 12 => some (andi inst s, false)
  | 13 => some (ori inst s, false)
  | 14 => some (xori inst s, false)
  | 15 => some (lui inst s, false)
  | 16 | 18 | 32 | 33 | 35 | 36 | 37 | 40 | 41 | 43 | 50 | 58 => none
  | _ => some (s, false)

end ScalarUnit

-- ════════════════════
-- Agreement
-- ════════════════════

/-- The words that both machines implement. -/
def Shared (inst : BitVec 32) : Prop :=
  (opOf inst).toNat = 0 ∧ (functOf inst).toNat ∈
      [0, 2, 3, 4, 6, 7, 8, 9, 32, 33, 34, 35, 36, 37, 38, 39, 42, 43] ∨
    (opOf inst).toNat = 1 ∧ (rtOf inst).toNat ∈ [0, 1, 16, 17] ∨
    (opOf inst).toNat ∈ [2, 3, 4, 5, 6, 7, 8, 9, 10, 11, 12, 13, 14, 15]

instance Shared.decidable (inst : BitVec 32) : Decidable (Shared inst) :=
  inferInstanceAs (Decidable (_ ∨ _))

/-- The registers after a body, the register it links and the target of a branch that is taken. -/
structure Outcome where
  regs : Fin 32 → BitVec 64
  link : Fin 32
  target : Option (BitVec 32)

/-- What the body of the R4300 does before the delay slot. -/
def bodyOutcome {M : Type} (env : Env M) (inst : BitVec 32) (m : Machine M) : Option Outcome :=
  match m.core.jumpOf? (interpretRoutine inst) inst with
  | some jump => some
      { regs := (if jump.link ≠ 0 then m.setGpr jump.link (se32 (m.core.pc + 8)) else m).core.regs
        link := jump.link
        target := if jump.condition then some jump.destination else none }
  | none => (Machine.execPlain env (interpretRoutine inst) inst m).map fun m =>
      { regs := m.core.regs, link := 0, target := none }

/-- Addresses of the same byte of IMEM. -/
def SameInImem (a b : BitVec 32) : Prop := a.toNat % 4096 = b.toNat % 4096

/-- The same low words, links modulo IMEM, and the same branch. -/
structure Agrees (su : ScalarUnit × Bool) (o : Outcome) : Prop where
  zero : su.1.sr 0 = 0#32
  regs : ∀ i, if o.link ≠ 0 ∧ i = o.link then SameInImem (su.1.sr i) (low32 (o.regs i))
    else su.1.sr i = low32 (o.regs i)
  taken : su.2 = o.target.isSome
  target : ∀ t ∈ o.target, SameInImem su.1.tempPC t

/-- The registers of the RSP are the low words of those of the R4300. -/
structure ScalarUnit.Matches {M : Type} (s : ScalarUnit) (m : Machine M) : Prop where
  zero : s.sr 0 = 0#32
  regs : ∀ i, m.core.regs i = se32 (s.sr i)
  aligned : m.core.pc.toNat % 4 = 0

/-- Both machines execute the word at the program counter of the R4300, and they agree. -/
def AgreesAt {M : Type} (staticPC : Bool) (env : Env M) (inst : BitVec 32) (m : Machine M)
    (s : ScalarUnit) : Prop :=
  ∃ su o, s.execute staticPC inst (pcArgument staticPC m.core.pc) = some su ∧
    bodyOutcome env inst m = some o ∧ Agrees su o

/-- Where a word leaves the two machines in agreement. -/
def AgreementCondition (inst pc : BitVec 32) (sr : Fin 32 → BitVec 32) : Prop :=
  let rs := sr (rsReg inst)
  match (opOf inst).toNat with
  | 0 =>
    match (functOf inst).toNat with
    | 8 => rs.toNat % 4 = 0
    | 9 => if rdReg inst ≠ 0 ∧ rdReg inst = rsReg inst then SameInImem rs (pc + 8#32)
      else rs.toNat % 4 = 0
    | _ => True
  | 1 =>
    match (rtOf inst).toNat with
    | 16 | 17 => rsReg inst = 31 → 0 ≤ rs.toInt
    | _ => True
  | 11 => rtReg inst ≠ 0 → 0x8000 ≤ (imm16Of inst).toNat → (imm16Of inst).toNat ≤ rs.toNat →
      0xFFFF0000 + (imm16Of inst).toNat ≤ rs.toNat
  | _ => True

-- ════════════════════
-- Words
-- ════════════════════

theorem low32_se32 (v : BitVec 32) : low32 (se32 v) = v := by
  ext i hi
  rw [low32, se32, BitVec.getElem_setWidth, BitVec.getLsbD_signExtend]
  simp [hi, show i < 64 by omega]

theorem toInt_se32 (v : BitVec 32) : (se32 v).toInt = v.toInt :=
  BitVec.toInt_signExtend_of_le (by decide)

theorem slt_se32 (a b : BitVec 32) : (se32 a).slt (se32 b) = a.slt b := by
  rw [BitVec.slt_eq_decide, BitVec.slt_eq_decide, toInt_se32, toInt_se32]

theorem sle_se32 (a b : BitVec 32) : (se32 a).sle (se32 b) = a.sle b := by
  rw [BitVec.sle_eq_decide, BitVec.sle_eq_decide, toInt_se32, toInt_se32]

theorem toNat_se32 (v : BitVec 32) :
    (se32 v).toNat = if v.toNat < 2 ^ 31 then v.toNat else 0xFFFFFFFF00000000 + v.toNat := by
  have hv := v.isLt
  have h := toInt_se32 v
  have h64 := (se32 v).isLt
  rw [BitVec.toInt_eq_toNat_cond, BitVec.toInt_eq_toNat_cond] at h
  split at h <;> split at h <;> split <;> omega

theorem ult_se32 (a b : BitVec 32) : (se32 a).ult (se32 b) = a.ult b := by
  have ha := a.isLt
  have hb := b.isLt
  rw [BitVec.ult_eq_decide, BitVec.ult_eq_decide, decide_eq_decide, toNat_se32, toNat_se32]
  split <;> split <;> omega

theorem se32_inj {a b : BitVec 32} : se32 a = se32 b ↔ a = b :=
  ⟨fun h => by rw [← low32_se32 a, h, low32_se32], congrArg se32⟩

theorem beq_se32 (a b : BitVec 32) : (a == b) = (se32 a == se32 b) := by
  rw [beq_eq_beq, se32_inj]

theorem iimmediate64_eq (inst : BitVec 32) : iimmediate64 inst = se32 (suSigned inst) := by
  refine BitVec.eq_of_toInt_eq ?_
  rw [toInt_se32, suSigned, iimmediate64, BitVec.toInt_signExtend_of_le (by decide),
    BitVec.toInt_signExtend_of_le (by decide)]

theorem low32_uimmediate64 (inst : BitVec 32) : low32 (uimmediate64 inst) = suUnsigned inst := by
  rw [low32, uimmediate64, suUnsigned, BitVec.setWidth_setWidth_of_le _ (by decide)]

theorem low32_sshiftRight (v : BitVec 32) {n : ℕ} (hn : n < 32) :
    low32 ((se32 v).sshiftRight n) = v.sshiftRight n := by
  ext i hi
  rw [low32, BitVec.getElem_setWidth, BitVec.getLsbD_sshiftRight, BitVec.getElem_sshiftRight,
    if_pos (by omega), se32, BitVec.getLsbD_signExtend]
  have hi64 : ¬64 ≤ i := by omega
  have hsum : n + i < 64 := by omega
  split <;> simp [*]

theorem low32_and (a b : BitVec 32) : a &&& b = low32 (se32 a &&& se32 b) := by
  rw [low32, BitVec.setWidth_and]
  exact congrArg₂ _ (low32_se32 a).symm (low32_se32 b).symm

theorem low32_or (a b : BitVec 32) : a ||| b = low32 (se32 a ||| se32 b) := by
  rw [low32, BitVec.setWidth_or]
  exact congrArg₂ _ (low32_se32 a).symm (low32_se32 b).symm

theorem low32_xor (a b : BitVec 32) : a ^^^ b = low32 (se32 a ^^^ se32 b) := by
  rw [low32, BitVec.setWidth_xor]
  exact congrArg₂ _ (low32_se32 a).symm (low32_se32 b).symm

theorem low32_andi (a inst : BitVec 32) :
    a &&& suUnsigned inst = low32 (se32 a &&& uimmediate64 inst) := by
  rw [low32, BitVec.setWidth_and]
  exact congrArg₂ _ (low32_se32 a).symm (low32_uimmediate64 inst).symm

theorem low32_ori (a inst : BitVec 32) :
    a ||| suUnsigned inst = low32 (se32 a ||| uimmediate64 inst) := by
  rw [low32, BitVec.setWidth_or]
  exact congrArg₂ _ (low32_se32 a).symm (low32_uimmediate64 inst).symm

theorem low32_xori (a inst : BitVec 32) :
    a ^^^ suUnsigned inst = low32 (se32 a ^^^ uimmediate64 inst) := by
  rw [low32, BitVec.setWidth_xor]
  exact congrArg₂ _ (low32_se32 a).symm (low32_uimmediate64 inst).symm

theorem low32_nor (a b : BitVec 32) : ~~~(a ||| b) = low32 (~~~(se32 a ||| se32 b)) := by
  rw [low32, BitVec.setWidth_not (by decide), low32_or]
  rfl

theorem boolWord_inj {a b : Bool} : boolWord a = boolWord b ↔ a = b := by
  cases a <;> cases b <;> decide

theorem low32_bool (b : Bool) : low32 (if b then 1 else 0) = boolWord b := by
  cases b <;> rfl

theorem low32_slt (a b : BitVec 32) :
    boolWord (a.slt b) = low32 (if (se32 a).slt (se32 b) then 1 else 0) := by
  rw [slt_se32, low32_bool]

theorem low32_ult (a b : BitVec 32) :
    boolWord (a.ult b) = low32 (if (se32 a).ult (se32 b) then 1 else 0) := by
  rw [ult_se32, low32_bool]

theorem lui_eq (inst : BitVec 32) :
    suUnsigned inst <<< 16 = (imm16Of inst).signExtend 32 <<< 16 := by
  ext i hi
  rw [suUnsigned, BitVec.getElem_shiftLeft, BitVec.getElem_shiftLeft, BitVec.getElem_setWidth,
    BitVec.getElem_signExtend]
  have hlow : i - 16 < 16 := by omega
  rw [dif_pos hlow, BitVec.getLsbD_eq_getElem hlow]

theorem maskSa_field (inst : BitVec 32) : maskSa (inst >>> 6) = (saOf inst).toNat := by
  rw [maskSa, saOf, BitVec.toNat_and, BitVec.toNat_ushiftRight, BitVec.extractLsb'_toNat]
  exact Nat.and_two_pow_sub_one_eq_mod _ 5

theorem maskSa_lt (v : BitVec 32) : maskSa v < 32 := by
  rw [maskSa, BitVec.toNat_and]
  exact lt_of_le_of_lt Nat.and_le_right (by decide)

theorem shift5_se32 (v : BitVec 32) : R4300.shift5 (se32 v) = maskSa v := by
  have hv := v.isLt
  have hmod : (se32 v).toNat % 2 ^ 5 = v.toNat % 2 ^ 5 := by
    rw [toNat_se32]
    split <;> omega
  rw [R4300.shift5, maskSa, BitVec.toNat_and, BitVec.toNat_and]
  exact (Nat.and_two_pow_sub_one_eq_mod _ 5).trans
    (hmod.trans (Nat.and_two_pow_sub_one_eq_mod _ 5).symm)

theorem toNat_fitImem (x : BitVec 32) : (fitImem x).toNat = x.toNat % 4096 / 4 * 4 := by
  have hmask : ∀ a < 64, ∀ b < 64, (64 * a + b) &&& 0xFFC = (64 * a + b) / 4 * 4 := by
    decide
  have hlow : x.toNat &&& 0xFFF = x.toNat % 4096 := Nat.and_two_pow_sub_one_eq_mod _ 12
  rw [fitImem, BitVec.toNat_and, BitVec.toNat_and]
  change x.toNat &&& 0xFFF &&& 0xFFC = _
  have hsplit := hmask (x.toNat % 4096 / 64) (by omega) (x.toNat % 64) (by omega)
  rw [hlow, show x.toNat % 4096 = 64 * (x.toNat % 4096 / 64) + x.toNat % 64 by omega, hsplit]

-- ════════════════════
-- Addresses
-- ════════════════════

theorem toNat_setPC (x : BitVec 32) :
    (0x04001000#32 + fitImem x).toNat % 4096 = x.toNat % 4096 / 4 * 4 := by
  have hfit := toNat_fitImem x
  rw [BitVec.toNat_add, hfit, BitVec.toNat_ofNat]
  omega

theorem toNat_suSigned (inst : BitVec 32) : (suSigned inst).toNat % 65536 = inst.toNat % 65536 := by
  have himm : (imm16Of inst).toNat = inst.toNat % 65536 := BitVec.toNat_setWidth _ _
  have hint : (suSigned inst).toInt = (imm16Of inst).toInt :=
    BitVec.toInt_signExtend_of_le (by decide)
  have hlt := (suSigned inst).isLt
  rw [BitVec.toInt_eq_toNat_cond, BitVec.toInt_eq_toNat_cond, himm] at hint
  split at hint <;> split at hint <;> omega

theorem sameInImem_branch (staticPC : Bool) (inst : BitVec 32) {pc : BitVec 32}
    (hpc : pc.toNat % 4 = 0) :
    SameInImem (0x04001000#32 + fitImem (pcArgument staticPC pc + 4 * inst + slotOff staticPC))
      (pc + ((imm16Of inst).signExtend 32 + 1) * 4) := by
  have himm := toNat_suSigned inst
  rw [suSigned] at himm
  rw [SameInImem, toNat_setPC]
  cases staticPC with
  | false =>
    change (pc + 4#32 * inst + (4#32 + 0#32)).toNat % 4096 / 4 * 4 =
      (pc + ((imm16Of inst).signExtend 32 + 1#32) * 4#32).toNat % 4096
    simp only [BitVec.toNat_add, BitVec.toNat_mul, BitVec.toNat_ofNat]
    omega
  | true =>
    change (pc + 4#32 + 4#32 * inst + (0#32 + 0#32)).toNat % 4096 / 4 * 4 =
      (pc + ((imm16Of inst).signExtend 32 + 1#32) * 4#32).toNat % 4096
    simp only [BitVec.toNat_add, BitVec.toNat_mul, BitVec.toNat_ofNat]
    omega

theorem sameInImem_link (staticPC : Bool) {pc : BitVec 32} (hpc : pc.toNat % 4 = 0) :
    SameInImem (fitImem (pcArgument staticPC pc + linkOff staticPC)) (pc + 8#32) := by
  rw [SameInImem, toNat_fitImem]
  cases staticPC with
  | false =>
    change (pc + (4#32 + 4#32)).toNat % 4096 / 4 * 4 % 4096 = (pc + 8#32).toNat % 4096
    simp only [BitVec.toNat_add, BitVec.toNat_ofNat]
    omega
  | true =>
    change (pc + 4#32 + (0#32 + 4#32)).toNat % 4096 / 4 * 4 % 4096 = (pc + 8#32).toNat % 4096
    simp only [BitVec.toNat_add, BitVec.toNat_ofNat]
    omega

theorem slt_zero_se32 (v : BitVec 32) : v.slt 0#32 = (se32 v).slt 0 := (slt_se32 v 0#32).symm

theorem sle_zero_se32 (v : BitVec 32) : v.sle 0#32 = (se32 v).sle 0 := (sle_se32 v 0#32).symm

theorem zero_slt_se32 (v : BitVec 32) : (0#32).slt v = (0 : BitVec 64).slt (se32 v) :=
  (slt_se32 0#32 v).symm

theorem zero_sle_se32 (v : BitVec 32) : (0#32).sle v = (0 : BitVec 64).sle (se32 v) :=
  (sle_se32 0#32 v).symm

theorem fitImem_nonneg (x : BitVec 32) : 0 ≤ (fitImem x).toInt := by
  have hfit := toNat_fitImem x
  rw [BitVec.toInt_eq_toNat_cond]
  split <;> omega

/-- A sign that is tested behind the link. -/
theorem slt_setSR_iff (s : ScalarUnit) (i : Fin 32) (x : BitVec 32) :
    ((s.setSR 31 (fitImem x)).sr i).slt 0#32 = (s.sr i).slt 0#32 ↔
      (i = 31 → 0 ≤ (s.sr i).toInt) := by
  have hlink := fitImem_nonneg x
  rw [BitVec.slt_eq_decide, BitVec.slt_eq_decide, decide_eq_decide, ScalarUnit.setSR,
    BitVec.toInt_zero]
  by_cases hi : i = 31
  · dsimp only
    rw [hi, Function.update_self]
    omega
  · dsimp only
    rw [Function.update_of_ne hi]
    exact iff_of_true Iff.rfl fun h => absurd h hi

theorem zero_sle_eq_not (v : BitVec 32) : (0#32).sle v = !(v.slt 0#32) := by
  rw [BitVec.sle_eq_decide, BitVec.slt_eq_decide, ← decide_not, decide_eq_decide,
    BitVec.toInt_zero, not_lt]

theorem sameInImem_jumpTarget (inst : BitVec 32) (r : R4300) :
    SameInImem (0x04001000#32 + fitImem (4 * inst)) (r.jumpTarget inst) := by
  have hsegment : ((r.pc + 4) &&& 0xF0000000).toNat % 2 ^ 12 = 0 := by
    rw [BitVec.toNat_and, Nat.and_mod_two_pow]
    exact Nat.and_zero _
  have hfield : (jumpOf inst).toNat = inst.toNat % 2 ^ 26 := by
    rw [jumpOf, BitVec.toNat_and]
    exact Nat.and_two_pow_sub_one_eq_mod _ 26
  have hlow : (r.jumpTarget inst).toNat % 2 ^ 12 = inst.toNat * 4 % 4096 := by
    rw [R4300.jumpTarget, BitVec.toNat_or, Nat.or_mod_two_pow, hsegment, Nat.or_zero,
      BitVec.toNat_shiftLeft, Nat.shiftLeft_eq, hfield]
    omega
  rw [SameInImem, toNat_setPC, show 4096 = 2 ^ 12 from rfl, hlow]
  change (4#32 * inst).toNat % 4096 / 4 * 4 = _
  rw [BitVec.toNat_mul, BitVec.toNat_ofNat]
  omega

theorem sameInImem_register (v : BitVec 32) :
    SameInImem (0x04001000#32 + fitImem v) v ↔ v.toNat % 4 = 0 := by
  rw [SameInImem, toNat_setPC]
  omega

-- ════════════════════
-- Families
-- ════════════════════

section

variable {M : Type} {staticPC : Bool} {env : Env M} {inst : BitVec 32} {m : Machine M}
  {s : ScalarUnit}

theorem agreesAt_iff {su : ScalarUnit × Bool} {o : Outcome}
    (hsu : s.execute staticPC inst (pcArgument staticPC m.core.pc) = some su)
    (ho : bodyOutcome env inst m = some o) : AgreesAt staticPC env inst m s ↔ Agrees su o := by
  constructor
  · rintro ⟨su', o', hsu', ho', hagrees⟩
    rw [hsu, Option.some_inj] at hsu'
    rw [ho, Option.some_inj] at ho'
    rwa [hsu', ho']
  · exact fun hagrees => ⟨su, o, hsu, ho, hagrees⟩

theorem bodyOutcome_jump {jump : Jump}
    (hjump : m.core.jumpOf? (interpretRoutine inst) inst = some jump) :
    bodyOutcome env inst m = some
      { regs := if jump.link ≠ 0 then
          Function.update m.core.regs jump.link (se32 (m.core.pc + 8)) else m.core.regs
        link := jump.link
        target := if jump.condition then some jump.destination else none } := by
  rw [bodyOutcome, hjump]
  dsimp only
  split <;> rfl

/-- An instruction that computes a register, which the decoder of the R4300 drops for register 0. -/
theorem agreesAt_of_compute {r : BitVec 5} {v : BitVec 32} {w : BitVec 64} {m' : Machine M}
    (routine : Routine) (hs : s.Matches m)
    (hsu : s.execute staticPC inst (pcArgument staticPC m.core.pc) =
      some (s.writeSR r.toFin v, false))
    (hdecode : interpretRoutine inst = unlessR0 r routine)
    (hjump : m.core.jumpOf? routine inst = none)
    (hexec : Machine.execPlain env routine inst m = some m')
    (hregs : m'.core.regs = Function.update m.core.regs r.toFin w) :
    AgreesAt staticPC env inst m s ↔ r.toFin ≠ 0 → v = low32 w := by
  by_cases hr : r = 0
  · have hnop : bodyOutcome env inst m =
        some { regs := m.core.regs, link := 0, target := none } := by
      rw [bodyOutcome, hdecode, unlessR0, if_neg (not_not.2 hr)]
      rfl
    have hregs0 : ∀ i, (s.writeSR r.toFin v).sr i = low32 (m.core.regs i) := by
      intro i
      rw [hs.regs, low32_se32, hr]
      by_cases hi : i = 0
      · rw [hi, hs.zero]
        exact s.writeSR_zero 0 v
      · exact s.writeSR_of_ne hi hi v
    refine (agreesAt_iff hsu hnop).trans (iff_of_true ?_ fun h => absurd (by rw [hr]; rfl) h)
    refine ⟨s.writeSR_zero _ v, fun i => ?_, rfl, fun t ht => absurd ht (Option.not_mem_none t)⟩
    rw [if_neg (fun h => h.1 rfl)]
    exact hregs0 i
  · have hr' : r.toFin ≠ 0 := fun h => hr (BitVec.toFin_inj.1 h)
    have hbody : bodyOutcome env inst m =
        some { regs := m'.core.regs, link := 0, target := none } := by
      rw [bodyOutcome, hdecode, unlessR0, if_pos hr, hjump, hexec]
      rfl
    rw [agreesAt_iff hsu hbody, imp_iff_right hr', hregs]
    constructor
    · intro hagrees
      have hreg := hagrees.regs r.toFin
      rw [if_neg (fun h => h.1 rfl)] at hreg
      dsimp only at hreg
      rwa [Function.update_self, s.writeSR_self hr'] at hreg
    · intro hv
      refine ⟨s.writeSR_zero _ v, fun i => ?_, rfl, fun t ht => absurd ht (Option.not_mem_none t)⟩
      rw [if_neg (fun h => h.1 rfl)]
      dsimp only
      by_cases hd : i = r.toFin
      · rw [hd, Function.update_self, ← hv, s.writeSR_self hr']
      · rw [Function.update_of_ne hd, hs.regs, low32_se32]
        by_cases hi : i = 0
        · rw [hi, hs.zero, s.writeSR_zero]
        · exact s.writeSR_of_ne hi hd v

/-- The registers behind a link, or without one. -/
def LinksAgree (s' : ScalarUnit) (m : Machine M) (link : Fin 32) : Prop :=
  s'.sr 0 = 0#32 ∧ ∀ i, if link ≠ 0 ∧ i = link then SameInImem (s'.sr i) (m.core.pc + 8#32)
    else s'.sr i = low32 (m.core.regs i)

theorem linksAgree_self (hs : s.Matches m) : LinksAgree s m 0 := by
  refine ⟨hs.zero, fun i => ?_⟩
  rw [if_neg (fun h => h.1 rfl), hs.regs, low32_se32]

theorem linksAgree_setSR (hs : s.Matches m) (staticPC : Bool) {d : Fin 32} (hd : d ≠ 0) :
    LinksAgree (s.setSR d (fitImem (pcArgument staticPC m.core.pc + linkOff staticPC))) m d := by
  refine ⟨(Function.update_of_ne hd.symm _ _).trans hs.zero, fun i => ?_⟩
  by_cases hi : i = d
  · rw [if_pos ⟨hd, hi⟩, hi, ScalarUnit.setSR]
    dsimp only
    rw [Function.update_self]
    exact sameInImem_link staticPC hs.aligned
  · rw [if_neg (fun h => hi h.2), hs.regs, low32_se32]
    exact Function.update_of_ne hi _ s.sr

/-- What a link leaves of the registers of the R4300. -/
theorem LinksAgree.regs {s' : ScalarUnit} {link : Fin 32} (hlinks : LinksAgree s' m link)
    (i : Fin 32) :
    if link ≠ 0 ∧ i = link then
      SameInImem (s'.sr i) (low32 ((if link ≠ 0 then
        Function.update m.core.regs link (se32 (m.core.pc + 8)) else m.core.regs) i))
    else s'.sr i = low32 ((if link ≠ 0 then
      Function.update m.core.regs link (se32 (m.core.pc + 8)) else m.core.regs) i) := by
  have hi := hlinks.2 i
  by_cases hlink : link ≠ 0
  · rw [if_pos hlink]
    by_cases hself : i = link
    · rw [if_pos ⟨hlink, hself⟩] at hi ⊢
      rw [hself, Function.update_self, low32_se32]
      rwa [hself] at hi
    · rw [if_neg (fun h => hself h.2)] at hi ⊢
      rwa [Function.update_of_ne hself]
  · rw [if_neg hlink]
    rw [if_neg (fun h => hlink h.1)] at hi ⊢
    exact hi

/-- A jump whose address the RSP takes from `address`. -/
theorem agreesAt_of_jump {s' : ScalarUnit} {address destination : BitVec 32} {link : Fin 32}
    (hsu : s.execute staticPC inst (pcArgument staticPC m.core.pc) =
      some (s'.setPC address, true))
    (hjump : m.core.jumpOf? (interpretRoutine inst) inst =
      some (R4300.jumpTo destination link)) (hlinks : LinksAgree s' m link) :
    AgreesAt staticPC env inst m s ↔
      SameInImem (0x04001000#32 + fitImem address) destination := by
  rw [agreesAt_iff hsu (bodyOutcome_jump hjump)]
  constructor
  · exact fun hagrees => hagrees.target destination rfl
  · intro hsame
    refine ⟨hlinks.1, hlinks.regs, rfl, fun t ht => ?_⟩
    rwa [← Option.some_inj.1 ht]

/-- A branch with the condition `c` on the RSP. -/
theorem agreesAt_of_branch {s' : ScalarUnit} {c : Bool} (jump : Jump) (hs : s.Matches m)
    (hsu : s.execute staticPC inst (pcArgument staticPC m.core.pc) =
      some (ScalarUnit.branch staticPC inst (pcArgument staticPC m.core.pc) c s'))
    (hjump : m.core.jumpOf? (interpretRoutine inst) inst = some jump)
    (hdest : jump.destination = m.core.branchTarget inst) (hlinks : LinksAgree s' m jump.link) :
    AgreesAt staticPC env inst m s ↔ c = jump.condition := by
  rw [agreesAt_iff hsu (bodyOutcome_jump hjump)]
  have htarget := sameInImem_branch staticPC inst hs.aligned
  constructor
  · intro hagrees
    have htaken := hagrees.taken
    cases c <;> cases hc : jump.condition <;> simp_all [ScalarUnit.branch]
  · rintro rfl
    cases hc : jump.condition with
    | false => exact ⟨hlinks.1, hlinks.regs, rfl, fun t ht => absurd ht (Option.not_mem_none t)⟩
    | true =>
      refine ⟨hlinks.1, hlinks.regs, rfl, fun t ht => ?_⟩
      rw [← Option.some_inj.1 ht, hdest]
      exact htarget

-- ════════════════════
-- The opcodes
-- ════════════════════

theorem special_agreesAt {v : BitVec 32} {w : BitVec 64} {m' : Machine M} (hs : s.Matches m)
    (hop : (opOf inst).toNat = 0) (routine : Routine)
    (hsu : s.special staticPC inst (pcArgument staticPC m.core.pc) =
      some (s.writeSR (rdReg inst) v, false))
    (hdecode : interpretSpecial (rdOf inst) (functOf inst) = unlessR0 (rdOf inst) routine)
    (hjump : m.core.jumpOf? routine inst = none)
    (hexec : Machine.execPlain env routine inst m = some m')
    (hregs : m'.core.regs = Function.update m.core.regs (rdReg inst) w) (hv : v = low32 w) :
    AgreesAt staticPC env inst m s := by
  refine (agreesAt_of_compute routine hs ?_ ?_ hjump hexec hregs).2 fun _ => hv
  · rw [ScalarUnit.execute, hop]
    exact hsu
  · rw [interpretRoutine, hop]
    exact hdecode

theorem major_agreesAt {v : BitVec 32} {w : BitVec 64} {m' : Machine M} (hs : s.Matches m)
    (routine : Routine)
    (hsu : s.execute staticPC inst (pcArgument staticPC m.core.pc) =
      some (s.writeSR (rtReg inst) v, false))
    (hdecode : interpretRoutine inst = unlessR0 (rtOf inst) routine)
    (hjump : m.core.jumpOf? routine inst = none)
    (hexec : Machine.execPlain env routine inst m = some m')
    (hregs : m'.core.regs = Function.update m.core.regs (rtReg inst) w) (hv : v = low32 w) :
    AgreesAt staticPC env inst m s :=
  (agreesAt_of_compute routine hs hsu hdecode hjump hexec hregs).2 fun _ => hv

/-- The link of `JALR` is written before its address is read. -/
theorem jalr_agreesAt_iff (hs : s.Matches m) (hop : (opOf inst).toNat = 0)
    (hfunct : (functOf inst).toNat = 9) :
    AgreesAt staticPC env inst m s ↔ AgreementCondition inst m.core.pc s.sr := by
  have hlink := sameInImem_link staticPC hs.aligned
  have hjump : m.core.jumpOf? (interpretRoutine inst) inst =
      some (R4300.jumpTo (s.sr (rsReg inst)) (rdReg inst)) := by
    rw [← low32_se32 (s.sr (rsReg inst)), ← hs.regs]
    simp only [interpretRoutine, hop, interpretSpecial, hfunct]
    rfl
  have hsu : s.execute staticPC inst (pcArgument staticPC m.core.pc) =
      some (((s.writeSR (rdReg inst)
        (fitImem (pcArgument staticPC m.core.pc + linkOff staticPC))).setPC
          ((s.writeSR (rdReg inst)
            (fitImem (pcArgument staticPC m.core.pc + linkOff staticPC))).sr (rsReg inst))),
        true) := by
    simp only [ScalarUnit.execute, hop, ScalarUnit.special, hfunct]
  rw [ScalarUnit.writeSR_eq hs.zero] at hsu
  simp only [AgreementCondition, hop, hfunct]
  by_cases hd : rdReg inst = 0
  · rw [if_pos hd] at hsu
    rw [hd] at hjump
    rw [agreesAt_of_jump hsu hjump (linksAgree_self hs), sameInImem_register,
      if_neg (fun h => h.1 hd)]
  · rw [if_neg hd] at hsu
    rw [agreesAt_of_jump hsu hjump (linksAgree_setSR hs staticPC hd), ScalarUnit.setSR]
    dsimp only
    by_cases hself : rdReg inst = rsReg inst
    · rw [if_pos ⟨hd, hself⟩, hself, Function.update_self]
      rw [SameInImem, toNat_fitImem] at hlink
      rw [SameInImem, SameInImem, toNat_setPC, toNat_fitImem]
      omega
    · rw [if_neg (fun h => hself h.2), Function.update_of_ne (Ne.symm hself), sameInImem_register]

theorem special_agreesAt_iff (hs : s.Matches m) (hop : (opOf inst).toNat = 0)
    (hshared : (functOf inst).toNat ∈
      [0, 2, 3, 4, 6, 7, 8, 9, 32, 33, 34, 35, 36, 37, 38, 39, 42, 43]) :
    AgreesAt staticPC env inst m s ↔ AgreementCondition inst m.core.pc s.sr := by
  simp only [List.mem_cons, List.not_mem_nil, or_false] at hshared
  rcases hshared with
    h | h | h | h | h | h | h | h | h | h | h | h | h | h | h | h | h | h
  · refine iff_of_true (special_agreesAt hs hop .sll
      (by simp only [ScalarUnit.special, h]; rfl)
      (by simp only [interpretSpecial, h]) rfl rfl rfl ?_)
      (by simp only [AgreementCondition, hop, h])
    rw [hs.regs, low32_se32, low32_se32, maskSa_field]
  · refine iff_of_true (special_agreesAt hs hop .srl
      (by simp only [ScalarUnit.special, h]; rfl)
      (by simp only [interpretSpecial, h]) rfl rfl rfl ?_)
      (by simp only [AgreementCondition, hop, h])
    rw [hs.regs, low32_se32, low32_se32, maskSa_field]
  · refine iff_of_true (special_agreesAt hs hop .sra
      (by simp only [ScalarUnit.special, h]; rfl)
      (by simp only [interpretSpecial, h]) rfl rfl rfl ?_)
      (by simp only [AgreementCondition, hop, h])
    rw [hs.regs, low32_se32, low32_sshiftRight _ (saOf inst).isLt, maskSa_field]
  · refine iff_of_true (special_agreesAt hs hop .sllv
      (by simp only [ScalarUnit.special, h]; rfl)
      (by simp only [interpretSpecial, h]) rfl rfl rfl ?_)
      (by simp only [AgreementCondition, hop, h])
    rw [hs.regs, hs.regs, low32_se32, low32_se32, shift5_se32]
  · refine iff_of_true (special_agreesAt hs hop .srlv
      (by simp only [ScalarUnit.special, h]; rfl)
      (by simp only [interpretSpecial, h]) rfl rfl rfl ?_)
      (by simp only [AgreementCondition, hop, h])
    rw [hs.regs, hs.regs, low32_se32, low32_se32, shift5_se32]
  · refine iff_of_true (special_agreesAt hs hop .srav
      (by simp only [ScalarUnit.special, h]; rfl)
      (by simp only [interpretSpecial, h]) rfl rfl rfl ?_)
      (by simp only [AgreementCondition, hop, h])
    rw [hs.regs, hs.regs, low32_se32, shift5_se32, low32_sshiftRight _ (maskSa_lt _)]
  · refine (agreesAt_of_jump
      (by simp only [ScalarUnit.execute, hop, ScalarUnit.special, h]; rfl)
      (by simp only [interpretRoutine, hop, interpretSpecial, h]; rfl)
      (linksAgree_self hs)).trans ?_
    rw [R4300.gpr32, hs.regs, ← low32, low32_se32, sameInImem_register]
    simp only [AgreementCondition, hop, h]
  · exact jalr_agreesAt_iff hs hop h
  · refine iff_of_true (special_agreesAt hs hop .add
      (by simp only [ScalarUnit.special, h]; rfl)
      (by simp only [interpretSpecial, h]) rfl rfl rfl ?_)
      (by simp only [AgreementCondition, hop, h])
    rw [hs.regs, hs.regs, low32_se32, low32_se32, low32_se32]
  · refine iff_of_true (special_agreesAt hs hop .addu
      (by simp only [ScalarUnit.special, h]; rfl)
      (by simp only [interpretSpecial, h]) rfl rfl rfl ?_)
      (by simp only [AgreementCondition, hop, h])
    rw [hs.regs, hs.regs, low32_se32, low32_se32, low32_se32]
  · refine iff_of_true (special_agreesAt hs hop .sub
      (by simp only [ScalarUnit.special, h]; rfl)
      (by simp only [interpretSpecial, h]) rfl rfl rfl ?_)
      (by simp only [AgreementCondition, hop, h])
    rw [hs.regs, hs.regs, low32_se32, low32_se32, low32_se32]
  · refine iff_of_true (special_agreesAt hs hop .subu
      (by simp only [ScalarUnit.special, h]; rfl)
      (by simp only [interpretSpecial, h]) rfl rfl rfl ?_)
      (by simp only [AgreementCondition, hop, h])
    rw [hs.regs, hs.regs, low32_se32, low32_se32, low32_se32]
  · refine iff_of_true (special_agreesAt hs hop .and
      (by simp only [ScalarUnit.special, h]; rfl)
      (by simp only [interpretSpecial, h]) rfl rfl rfl ?_)
      (by simp only [AgreementCondition, hop, h])
    rw [hs.regs, hs.regs]
    exact low32_and _ _
  · refine iff_of_true (special_agreesAt hs hop .or
      (by simp only [ScalarUnit.special, h]; rfl)
      (by simp only [interpretSpecial, h]) rfl rfl rfl ?_)
      (by simp only [AgreementCondition, hop, h])
    rw [hs.regs, hs.regs]
    exact low32_or _ _
  · refine iff_of_true (special_agreesAt hs hop .xor
      (by simp only [ScalarUnit.special, h]; rfl)
      (by simp only [interpretSpecial, h]) rfl rfl rfl ?_)
      (by simp only [AgreementCondition, hop, h])
    rw [hs.regs, hs.regs]
    exact low32_xor _ _
  · refine iff_of_true (special_agreesAt hs hop .nor
      (by simp only [ScalarUnit.special, h]; rfl)
      (by simp only [interpretSpecial, h]) rfl rfl rfl ?_)
      (by simp only [AgreementCondition, hop, h])
    rw [hs.regs, hs.regs]
    exact low32_nor _ _
  · refine iff_of_true (special_agreesAt hs hop .slt
      (by simp only [ScalarUnit.special, h]; rfl)
      (by simp only [interpretSpecial, h]) rfl rfl rfl ?_)
      (by simp only [AgreementCondition, hop, h])
    rw [hs.regs, hs.regs]
    exact low32_slt _ _
  · refine iff_of_true (special_agreesAt hs hop .sltu
      (by simp only [ScalarUnit.special, h]; rfl)
      (by simp only [interpretSpecial, h]) rfl rfl rfl ?_)
      (by simp only [AgreementCondition, hop, h])
    rw [hs.regs, hs.regs]
    exact low32_ult _ _

theorem regimm_agreesAt_iff (hs : s.Matches m) (hop : (opOf inst).toNat = 1)
    (hshared : (rtOf inst).toNat ∈ [0, 1, 16, 17]) :
    AgreesAt staticPC env inst m s ↔ AgreementCondition inst m.core.pc s.sr := by
  have h31 : (31 : Fin 32) ≠ 0 := by decide
  simp only [List.mem_cons, List.not_mem_nil, or_false] at hshared
  rcases hshared with h | h | h | h
  · refine (agreesAt_of_branch
      (m.core.branchZero inst (fun v => v.slt 0) 0 false) hs
      (by simp only [ScalarUnit.execute, hop, ScalarUnit.regimm, h]; rfl)
      (by simp only [interpretRoutine, hop, interpretRegimm, h]; rfl) rfl
      (linksAgree_self hs)).trans ?_
    change (s.sr (rsReg inst)).slt 0#32 = (m.core.regs (rsReg inst)).slt 0 ↔ _
    rw [hs.regs, ← slt_zero_se32]
    simp only [AgreementCondition, hop, h]
  · refine (agreesAt_of_branch
      (m.core.branchZero inst (fun v => (0 : BitVec 64).sle v) 0 false) hs
      (by simp only [ScalarUnit.execute, hop, ScalarUnit.regimm, h]; rfl)
      (by simp only [interpretRoutine, hop, interpretRegimm, h]; rfl) rfl
      (linksAgree_self hs)).trans ?_
    change (0#32).sle (s.sr (rsReg inst)) = (0 : BitVec 64).sle (m.core.regs (rsReg inst)) ↔ _
    rw [hs.regs, ← zero_sle_se32]
    simp only [AgreementCondition, hop, h]
  · refine (agreesAt_of_branch
      (m.core.branchZero inst (fun v => v.slt 0) 31 false) hs
      (by simp only [ScalarUnit.execute, hop, ScalarUnit.regimm, h]; rfl)
      (by simp only [interpretRoutine, hop, interpretRegimm, h]; rfl) rfl
      (linksAgree_setSR hs staticPC h31)).trans ?_
    change ((s.setSR 31 _).sr (rsReg inst)).slt 0#32 = (m.core.regs (rsReg inst)).slt 0 ↔ _
    rw [hs.regs, ← slt_zero_se32, slt_setSR_iff]
    simp only [AgreementCondition, hop, h]
  · refine (agreesAt_of_branch
      (m.core.branchZero inst (fun v => (0 : BitVec 64).sle v) 31 false) hs
      (by simp only [ScalarUnit.execute, hop, ScalarUnit.regimm, h]; rfl)
      (by simp only [interpretRoutine, hop, interpretRegimm, h]; rfl) rfl
      (linksAgree_setSR hs staticPC h31)).trans ?_
    change (0#32).sle ((s.setSR 31 _).sr (rsReg inst)) =
      (0 : BitVec 64).sle (m.core.regs (rsReg inst)) ↔ _
    rw [hs.regs, ← zero_sle_se32, zero_sle_eq_not, zero_sle_eq_not, Bool.not_inj_iff, slt_setSR_iff]
    simp only [AgreementCondition, hop, h]

/-- `SLTIU` compares with the immediate as it stands, the R4300 with its sign extended. -/
theorem sltiu_agreesAt_iff (hs : s.Matches m) (hop : (opOf inst).toNat = 11) :
    AgreesAt staticPC env inst m s ↔ AgreementCondition inst m.core.pc s.sr := by
  have himm := (imm16Of inst).isLt
  have hunsigned : (suUnsigned inst).toNat = (imm16Of inst).toNat :=
    BitVec.toNat_setWidth_of_le (by decide)
  have hsigned : (suSigned inst).toNat =
      if (imm16Of inst).toNat < 0x8000 then (imm16Of inst).toNat
      else 0xFFFF0000 + (imm16Of inst).toNat := by
    have hint : (suSigned inst).toInt = (imm16Of inst).toInt :=
      BitVec.toInt_signExtend_of_le (by decide)
    have hlt := (suSigned inst).isLt
    rw [BitVec.toInt_eq_toNat_cond, BitVec.toInt_eq_toNat_cond] at hint
    split at hint <;> split at hint <;> split <;> omega
  have hrs := (s.sr (rsReg inst)).isLt
  refine (agreesAt_of_compute .sltiu hs
    (by simp only [ScalarUnit.execute, hop]; rfl)
    (by simp only [interpretRoutine, interpretMajor, hop]) rfl rfl rfl).trans ?_
  simp only [AgreementCondition, hop]
  refine imp_congr_right fun _ => ?_
  rw [hs.regs, iimmediate64_eq, ← low32_ult, boolWord_inj, BitVec.ult_eq_decide,
    BitVec.ult_eq_decide, decide_eq_decide, hunsigned, hsigned]
  split <;> omega

theorem major_agreesAt_iff (hs : s.Matches m)
    (hshared : (opOf inst).toNat ∈ [2, 3, 4, 5, 6, 7, 8, 9, 10, 11, 12, 13, 14, 15]) :
    AgreesAt staticPC env inst m s ↔ AgreementCondition inst m.core.pc s.sr := by
  have h31 : (31 : Fin 32) ≠ 0 := by decide
  simp only [List.mem_cons, List.not_mem_nil, or_false] at hshared
  rcases hshared with h | h | h | h | h | h | h | h | h | h | h | h | h | h
  · refine (agreesAt_of_jump
      (by simp only [ScalarUnit.execute, h]; rfl)
      (by simp only [interpretRoutine, interpretMajor, h]; rfl)
      (linksAgree_self hs)).trans ?_
    exact iff_of_true (sameInImem_jumpTarget inst m.core) (by simp only [AgreementCondition, h])
  · refine (agreesAt_of_jump
      (by simp only [ScalarUnit.execute, h]; rfl)
      (by simp only [interpretRoutine, interpretMajor, h]; rfl)
      (linksAgree_setSR hs staticPC h31)).trans ?_
    exact iff_of_true (sameInImem_jumpTarget inst m.core) (by simp only [AgreementCondition, h])
  · refine (agreesAt_of_branch
      (m.core.branch inst (· == ·) false) hs
      (by simp only [ScalarUnit.execute, h]; rfl)
      (by simp only [interpretRoutine, interpretMajor, h]; rfl) rfl
      (linksAgree_self hs)).trans ?_
    change (s.sr (rsReg inst) == s.sr (rtReg inst)) =
      (m.core.regs (rsReg inst) == m.core.regs (rtReg inst)) ↔ _
    rw [hs.regs, hs.regs, ← beq_se32]
    simp only [AgreementCondition, h]
  · refine (agreesAt_of_branch
      (m.core.branch inst (· != ·) false) hs
      (by simp only [ScalarUnit.execute, h]; rfl)
      (by simp only [interpretRoutine, interpretMajor, h]; rfl) rfl
      (linksAgree_self hs)).trans ?_
    change (s.sr (rsReg inst) != s.sr (rtReg inst)) =
      (m.core.regs (rsReg inst) != m.core.regs (rtReg inst)) ↔ _
    rw [hs.regs, hs.regs, bne, bne, ← beq_se32]
    simp only [AgreementCondition, h]
  · refine (agreesAt_of_branch
      (m.core.branchZero inst (fun v => v.sle 0) 0 false) hs
      (by simp only [ScalarUnit.execute, h]; rfl)
      (by simp only [interpretRoutine, interpretMajor, h]; rfl) rfl
      (linksAgree_self hs)).trans ?_
    change (s.sr (rsReg inst)).sle 0#32 = (m.core.regs (rsReg inst)).sle 0 ↔ _
    rw [hs.regs, ← sle_zero_se32]
    simp only [AgreementCondition, h]
  · refine (agreesAt_of_branch
      (m.core.branchZero inst (fun v => (0 : BitVec 64).slt v) 0 false) hs
      (by simp only [ScalarUnit.execute, h]; rfl)
      (by simp only [interpretRoutine, interpretMajor, h]; rfl) rfl
      (linksAgree_self hs)).trans ?_
    change (0#32).slt (s.sr (rsReg inst)) = (0 : BitVec 64).slt (m.core.regs (rsReg inst)) ↔ _
    rw [hs.regs, ← zero_slt_se32]
    simp only [AgreementCondition, h]
  · refine iff_of_true (major_agreesAt hs .addi
      (by simp only [ScalarUnit.execute, h]; rfl)
      (by simp only [interpretRoutine, interpretMajor, h]) rfl rfl rfl ?_)
      (by simp only [AgreementCondition, h])
    rw [hs.regs, low32_se32, low32_se32]
    rfl
  · refine iff_of_true (major_agreesAt hs .addiu
      (by simp only [ScalarUnit.execute, h]; rfl)
      (by simp only [interpretRoutine, interpretMajor, h]) rfl rfl rfl ?_)
      (by simp only [AgreementCondition, h])
    rw [hs.regs, low32_se32, low32_se32]
    rfl
  · refine iff_of_true (major_agreesAt hs .slti
      (by simp only [ScalarUnit.execute, h]; rfl)
      (by simp only [interpretRoutine, interpretMajor, h]) rfl rfl rfl ?_)
      (by simp only [AgreementCondition, h])
    rw [hs.regs, iimmediate64_eq]
    exact low32_slt _ _
  · exact sltiu_agreesAt_iff hs h
  · refine iff_of_true (major_agreesAt hs .andi
      (by simp only [ScalarUnit.execute, h]; rfl)
      (by simp only [interpretRoutine, interpretMajor, h]) rfl rfl rfl ?_)
      (by simp only [AgreementCondition, h])
    rw [hs.regs]
    exact low32_andi _ _
  · refine iff_of_true (major_agreesAt hs .ori
      (by simp only [ScalarUnit.execute, h]; rfl)
      (by simp only [interpretRoutine, interpretMajor, h]) rfl rfl rfl ?_)
      (by simp only [AgreementCondition, h])
    rw [hs.regs]
    exact low32_ori _ _
  · refine iff_of_true (major_agreesAt hs .xori
      (by simp only [ScalarUnit.execute, h]; rfl)
      (by simp only [interpretRoutine, interpretMajor, h]) rfl rfl rfl ?_)
      (by simp only [AgreementCondition, h])
    rw [hs.regs]
    exact low32_xori _ _
  · refine iff_of_true (major_agreesAt hs .lui
      (by simp only [ScalarUnit.execute, h]; rfl)
      (by simp only [interpretRoutine, interpretMajor, h]) rfl rfl rfl ?_)
      (by simp only [AgreementCondition, h])
    rw [low32_se32, lui_eq]

/-- Exactly when the two interpreters agree on a word that both implement. -/
theorem scalarUnit_agrees_iff (staticPC : Bool) (env : Env M) {inst : BitVec 32} {m : Machine M}
    {s : ScalarUnit} (hs : s.Matches m) (hshared : Shared inst) :
    AgreesAt staticPC env inst m s ↔ AgreementCondition inst m.core.pc s.sr := by
  rcases hshared with ⟨hop, hfunct⟩ | ⟨hop, hrt⟩ | hop
  · exact special_agreesAt_iff hs hop hfunct
  · exact regimm_agreesAt_iff hs hop hrt
  · exact major_agreesAt_iff hs hop

end

/-- A scalar unit with one register set, and an R4300 with the same registers. -/
def scalarUnitWith (i : Fin 32) (v : BitVec 32) : ScalarUnit where
  sr := Function.update (fun _ => 0#32) i v
  tempPC := 0

def ScalarUnit.machine (s : ScalarUnit) : Machine Unit :=
  .bare { powerOnR4300 (initR4300 .interpreter 2 0 0) with
    regs := fun i => se32 (s.sr i), pc := 0xA4001000 }

theorem scalarUnitWith_matches {i : Fin 32} (hi : i ≠ 0) (v : BitVec 32) :
    (scalarUnitWith i v).Matches (scalarUnitWith i v).machine where
  zero := by simp only [scalarUnitWith, Function.update_of_ne hi.symm]
  regs := fun _ => rfl
  aligned := show (0xA4001000#32).toNat % 4 = 0 by decide

/-- `SLTIU` with the immediate 0x7fff. -/
theorem scalarUnit_agrees_sltiu :
    AgreesAt false .bare 0x2C417FFF (scalarUnitWith 2 0x9000).machine (scalarUnitWith 2 0x9000) :=
  (scalarUnit_agrees_iff false .bare (scalarUnitWith_matches (by decide) 0x9000)
    (by decide)).2 (fun _ h => absurd h (by decide))

/-- `SLTIU` with the immediate 0x8000 differs. -/
theorem not_scalarUnit_agrees :
    ¬∀ (staticPC : Bool) (env : Env Unit) (inst : BitVec 32) (m : Machine Unit) (s : ScalarUnit),
      s.Matches m → Shared inst → AgreesAt staticPC env inst m s := by
  intro h
  have hs := scalarUnitWith_matches (i := 2) (by decide) 0x9000
  have hagrees := h false .bare 0x2C418000 _ _ hs (by decide)
  have hcondition := (sltiu_agreesAt_iff hs (by decide)).1 hagrees
  exact absurd (hcondition (by decide) (by decide) (by decide)) (by decide)

end Mupen64plus
