import Mathlib.Data.BitVec
import Mathlib.Tactic.Ring
import Mupen64plus.Rsp.AddGroup

/-!
# The vector selects

The comparisons of the vector unit leave their outcome in flag vectors and select lanes by them. A
selection is an addition of a masked difference, and the comparisons of `VCH` and `VCR` have a
version without branches beside the one of the debug build.

## Main definitions

- `merge` — the masked difference; `choose` — the selection it stands for
- `doLt` … `doMrg` — the code, over the parts that have two versions
- `SelectCode.release`, `SelectCode.debug`, `SelectCode.reference`
- `selectRun` — a sequence of instructions

## Main results

- `isFlags_execute` — the flags stay 0 or 1
- `execute_eq_iff` — when an instruction selects what the reference selects
- `selectRun_exact_iff`
-/

namespace Mupen64plus

/-- The flag vectors of the vector unit. -/
structure VectorFlags where
  ne : V16
  co : V16
  comp : V16
  clip : V16
  vce : V16

/-- What an instruction leaves. -/
@[ext] structure SelectResult where
  vd : V16
  accL : V16
  flags : VectorFlags

-- ════════════════════
-- The parts with two versions
-- ════════════════════

def merge (cmp pass fail : V16) : V16 :=
  let diff : V16 := fun i => pass i - fail i
  fun i => fail i + cmp i * diff i

/-- The version of `merge` that is not compiled. -/
def choose (cmp pass fail : V16) : V16 := fun i => if cmp i ≠ 0 then pass i else fail i

/-- The sign vector and the two comparisons of `do_ch`. -/
@[ext] structure ChOrder where
  sn : V16
  le : V16
  ge : V16

def chOrderRelease (merge : V16 → V16 → V16 → V16) (vs vt vc sn : V16) : ChOrder :=
  let diff : V16 := fun i => sn i ||| vs i
  let ge : V16 := fun i => flag16 ((vt i).toInt ≤ (diff i).toInt)
  let sn : V16 := fun i => sn i >>> 15
  let diff : V16 := fun i => vc i - vs i
  let diff : V16 := fun i => flag16 (0 ≤ (diff i).toInt)
  let le : V16 := fun i => flag16 ((vt i).toInt < 0)
  ⟨sn, merge sn diff le, ge⟩

/-- The debug build leaves the sign as a mask. -/
def chOrderDebug (vs _vt vc sn : V16) : ChOrder where
  sn := sn
  le i := if sn i ≠ 0 then flag16 ((vs i).toInt ≤ (vc i).toInt) else flag16 ((vc i).toInt < 0)
  ge i := if sn i ≠ 0 then flag16 (0 < (vc i).toInt) else flag16 ((vc i).toInt ≤ (vs i).toInt)

/-- The comparisons of the debug build, and the sign as a flag. -/
def chOrderReference (vs vt vc sn : V16) : ChOrder :=
  { chOrderDebug vs vt vc sn with sn := fun i => flag16 (sn i ≠ 0) }

/-- The two comparisons of `do_cr`. -/
@[ext] structure CrOrder where
  le : V16
  ge : V16

def crOrderRelease (vs vt sn : V16) : CrOrder :=
  let cmp : V16 := fun i => ~~~(vs i &&& sn i)
  let le : V16 := fun i => flag16 ((vt i).toInt ≤ (cmp i).toInt)
  let cmp : V16 := fun i => vs i ||| sn i
  ⟨le, fun i => flag16 ((vt i).toInt ≤ (cmp i).toInt)⟩

def crOrderDebug (vs vt sn : V16) : CrOrder where
  le i := if sn i ≠ 0 then flag16 ((vt i).toInt ≤ -(vs i).toInt - 1) else flag16 ((vt i).toInt ≤ -1)
  ge i := if sn i ≠ 0 then flag16 ((vt i).toInt ≤ -1) else flag16 ((vt i).toInt ≤ (vs i).toInt)

structure SelectCode where
  merge : V16 → V16 → V16 → V16
  chOrder : V16 → V16 → V16 → V16 → ChOrder
  crOrder : V16 → V16 → V16 → CrOrder

namespace SelectCode

def release : SelectCode := ⟨Mupen64plus.merge, chOrderRelease Mupen64plus.merge, crOrderRelease⟩

def debug : SelectCode := ⟨Mupen64plus.merge, chOrderDebug, crOrderDebug⟩

/-- Lanes are selected, and compared as the debug build defines it. -/
def reference : SelectCode := ⟨choose, chOrderReference, crOrderDebug⟩

end SelectCode

-- ════════════════════
-- The instructions
-- ════════════════════

/-- What `do_lt`, `do_eq`, `do_ne` and `do_ge` leave. -/
def compareResult (f : VectorFlags) (comp accL : V16) : SelectResult :=
  ⟨accL, accL, { f with ne := fun _ => 0, co := fun _ => 0, comp := comp, clip := fun _ => 0 }⟩

def doLt (c : SelectCode) (f : VectorFlags) (vs vt : V16) : SelectResult :=
  let eq : V16 := fun i => flag16 (vs i = vt i)
  let cn : V16 := fun i => f.ne i &&& f.co i
  let eq : V16 := fun i => eq i &&& cn i
  let comp : V16 := fun i => flag16 ((vs i).toInt < (vt i).toInt)
  let comp : V16 := fun i => comp i ||| eq i
  compareResult f comp (c.merge comp vs vt)

def doEq (f : VectorFlags) (vs vt : V16) : SelectResult :=
  let comp : V16 := fun i => flag16 (vs i = vt i)
  let comp : V16 := fun i => comp i &&& (f.ne i ^^^ 1)
  compareResult f comp vt

def doNe (f : VectorFlags) (vs vt : V16) : SelectResult :=
  let comp : V16 := fun i => flag16 (vs i ≠ vt i)
  let comp : V16 := fun i => comp i ||| f.ne i
  compareResult f comp vs

def doGe (c : SelectCode) (f : VectorFlags) (vs vt : V16) : SelectResult :=
  let eq : V16 := fun i => flag16 (vs i = vt i)
  let ce : V16 := fun i => (f.ne i &&& f.co i) ^^^ 1
  let eq : V16 := fun i => eq i &&& ce i
  let comp : V16 := fun i => flag16 ((vt i).toInt < (vs i).toInt)
  let comp : V16 := fun i => comp i ||| eq i
  compareResult f comp (c.merge comp vs vt)

/-- `(VB[i] + (u16)VT[i] - 65536) >> 31`, a mask. -/
def noCarry (s t : BitVec 16) : BitVec 16 :=
  ((s.setWidth 32 + t.setWidth 32 - 65536).sshiftRight 31).setWidth 16

def doCl (c : SelectCode) (f : VectorFlags) (vs vt : V16) : SelectResult :=
  let eq : V16 := fun i => f.ne i ^^^ 1
  let sn := f.co
  let vc : V16 := fun i => vt i ^^^ -sn i
  let vc : V16 := fun i => vc i + sn i
  let diff : V16 := fun i => vs i - vc i
  let uz : V16 := fun i => noCarry (vs i) (vt i)
  let lz : V16 := fun i => flag16 (diff i = 0)
  let gen : V16 := fun i => lz i ||| uz i
  let len : V16 := fun i => lz i &&& uz i
  let gen : V16 := fun i => gen i &&& f.vce i
  let len : V16 := fun i => len i &&& (f.vce i ^^^ 1)
  let len : V16 := fun i => len i ||| gen i
  let gen : V16 := fun i => flag16 (vc i ≤ vs i)
  let cmp : V16 := fun i => eq i &&& sn i
  let le := c.merge cmp len f.comp
  let cmp : V16 := fun i => eq i &&& (sn i ^^^ 1)
  let ge := c.merge cmp gen f.clip
  let cmp := c.merge sn le ge
  let accL := c.merge cmp vc vs
  ⟨accL, accL, ⟨fun _ => 0, fun _ => 0, le, ge, fun _ => 0⟩⟩

/-- The sign of `VS ^ VT`, as a mask. -/
def signMask (s t : BitVec 16) : BitVec 16 := if (s ^^^ t).toInt < 0 then 0xffff else 0

def doCh (c : SelectCode) (vs vt : V16) : SelectResult :=
  let cch : V16 := fun i => if vt i = 0x8000 then 0xffff else 0
  let sn : V16 := fun i => signMask (vs i) (vt i)
  let vc : V16 := fun i => vt i ^^^ sn i
  let vce : V16 := fun i => flag16 (vs i = vc i)
  let vce : V16 := fun i => vce i &&& sn i
  let vc : V16 := fun i => vc i - (sn i &&& ~~~cch i)
  let eq : V16 := fun i => flag16 (vs i = vc i) &&& ~~~cch i
  let eq : V16 := fun i => eq i ||| vce i
  let order := c.chOrder vs vt vc sn
  let comp := c.merge order.sn order.le order.ge
  let accL := c.merge comp vc vs
  ⟨accL, accL, ⟨fun i => eq i ^^^ 1, order.sn, order.le, order.ge, vce⟩⟩

def doCr (c : SelectCode) (vs vt : V16) : SelectResult :=
  let sn : V16 := fun i => signMask (vs i) (vt i)
  let order := c.crOrder vs vt sn
  let vc : V16 := fun i => vt i ^^^ sn i
  -- the sign is still a mask here
  let cmp := c.merge sn order.le order.ge
  let accL := c.merge cmp vc vs
  ⟨accL, accL, ⟨fun _ => 0, fun _ => 0, order.le, order.ge, fun _ => 0⟩⟩

def doMrg (c : SelectCode) (f : VectorFlags) (vs vt : V16) : SelectResult :=
  let accL := c.merge f.comp vs vt
  ⟨accL, accL, f⟩

/-- An add that leaves carries: the other flags stay. -/
def carryResult (f : VectorFlags) (r : AddResult) : SelectResult :=
  ⟨r.vd, r.accL, { f with ne := r.flags.ne, co := r.flags.co }⟩

inductive SelectOp where
  | vlt | veq | vne | vge | vcl | vch | vcr | vmrg | vaddc | vsubc
  deriving DecidableEq, Repr

/-- An instruction with its operands. -/
structure SelectCall where
  op : SelectOp
  vs : V16
  vt : V16

def execute (c : SelectCode) (f : VectorFlags) (call : SelectCall) : SelectResult :=
  match call.op with
  | .vlt => doLt c f call.vs call.vt
  | .veq => doEq f call.vs call.vt
  | .vne => doNe f call.vs call.vt
  | .vge => doGe c f call.vs call.vt
  | .vcl => doCl c f call.vs call.vt
  | .vch => doCh c call.vs call.vt
  | .vcr => doCr c call.vs call.vt
  | .vmrg => doMrg c f call.vs call.vt
  | .vaddc => carryResult f (setCo call.vs call.vt)
  | .vsubc => carryResult f (setBo call.vs call.vt)

/-- What each instruction of a sequence leaves. -/
def selectRun (c : SelectCode) (f : VectorFlags) : List SelectCall → List SelectResult
  | [] => []
  | call :: calls =>
    let r := execute c f call
    r :: selectRun c r.flags calls

-- ════════════════════
-- Flags
-- ════════════════════

/-- Every lane is 0 or 1. -/
def IsFlags (v : V16) : Prop := ∀ i, v i = 0 ∨ v i = 1

/-- Every lane is all zeros or all ones. -/
def IsMask (v : V16) : Prop := ∀ i, v i = 0 ∨ v i = 0xffff

theorem flag_and {a b : BitVec 16} (ha : a = 0 ∨ a = 1) (hb : b = 0 ∨ b = 1) :
    a &&& b = 0 ∨ a &&& b = 1 := by
  rcases ha with rfl | rfl <;> rcases hb with rfl | rfl <;> decide

theorem flag_or {a b : BitVec 16} (ha : a = 0 ∨ a = 1) (hb : b = 0 ∨ b = 1) :
    a ||| b = 0 ∨ a ||| b = 1 := by
  rcases ha with rfl | rfl <;> rcases hb with rfl | rfl <;> decide

theorem flag_not {a : BitVec 16} (ha : a = 0 ∨ a = 1) : a ^^^ 1 = 0 ∨ a ^^^ 1 = 1 := by
  rcases ha with rfl | rfl <;> decide

/-- A mask leaves a flag. -/
theorem flag_and_mask {a b : BitVec 16} (ha : a = 0 ∨ a = 1) (hb : b = 0 ∨ b = 0xffff) :
    a &&& b = 0 ∨ a &&& b = 1 := by
  rcases ha with rfl | rfl <;> rcases hb with rfl | rfl <;> decide

/-- A flag takes one bit of what is neither a flag nor a mask. -/
theorem flag_or_mask_and {a b c : BitVec 16} (ha : a = 0 ∨ a = 1) (hb : b = 0 ∨ b = 0xffff)
    (hc : c = 0 ∨ c = 1) : (a ||| b) &&& c = 0 ∨ (a ||| b) &&& c = 1 := by
  rcases ha with rfl | rfl <;> rcases hb with rfl | rfl <;> rcases hc with rfl | rfl <;> decide

theorem merge_of_flag {u v w : V16} {i : Lane} (hu : u i = 0 ∨ u i = 1) :
    merge u v w i = choose u v w i := by
  unfold merge choose
  rcases hu with hi | hi
  · rw [hi, if_neg (not_not_intro rfl)]
    dsimp only
    rw [BitVec.ofNat_eq_ofNat, BitVec.zero_mul, BitVec.add_zero]
  · rw [hi, if_pos (by decide)]
    dsimp only
    rw [BitVec.ofNat_eq_ofNat, BitVec.one_mul, BitVec.add_comm, BitVec.sub_add_cancel]

namespace IsFlags

variable {u v w : V16}

theorem zero : IsFlags fun _ => 0 := fun _ => .inl rfl

theorem flag (p : Lane → Prop) [∀ i, Decidable (p i)] : IsFlags fun i => flag16 (p i) :=
  fun i => flag16_flag (p i)

theorem and (hu : IsFlags u) (hv : IsFlags v) : IsFlags fun i => u i &&& v i :=
  fun i => flag_and (hu i) (hv i)

theorem or (hu : IsFlags u) (hv : IsFlags v) : IsFlags fun i => u i ||| v i :=
  fun i => flag_or (hu i) (hv i)

theorem not (hu : IsFlags u) : IsFlags fun i => u i ^^^ 1 := fun i => flag_not (hu i)

theorem choose (hv : IsFlags v) (hw : IsFlags w) : IsFlags (choose u v w) := by
  intro i
  unfold Mupen64plus.choose
  split
  · exact hv i
  · exact hw i

theorem ite (u : V16) (p q : Lane → Prop) [∀ i, Decidable (p i)] [∀ i, Decidable (q i)] :
    IsFlags fun i => if u i ≠ 0 then flag16 (p i) else flag16 (q i) := by
  intro i
  dsimp only
  split
  · exact flag16_flag (p i)
  · exact flag16_flag (q i)

/-- A mask of flags selects. -/
theorem merge_eq (hu : IsFlags u) (v w : V16) : merge u v w = Mupen64plus.choose u v w :=
  funext fun i => merge_of_flag (hu i)

end IsFlags

/-- All five vectors are flags. -/
structure VectorFlags.Valid (f : VectorFlags) : Prop where
  ne : IsFlags f.ne
  co : IsFlags f.co
  comp : IsFlags f.comp
  clip : IsFlags f.clip
  vce : IsFlags f.vce

def VectorFlags.clear : VectorFlags :=
  ⟨fun _ => 0, fun _ => 0, fun _ => 0, fun _ => 0, fun _ => 0⟩

theorem VectorFlags.clear_valid : VectorFlags.clear.Valid :=
  ⟨.zero, .zero, .zero, .zero, .zero⟩

theorem noCarry_mask (s t : BitVec 16) : noCarry s t = 0 ∨ noCarry s t = 0xffff := by
  rw [noCarry, signBits_eq]
  split
  · exact .inr rfl
  · exact .inl rfl

theorem signMask_mask (s t : BitVec 16) : signMask s t = 0 ∨ signMask s t = 0xffff := by
  unfold signMask
  split
  · exact .inr rfl
  · exact .inl rfl

-- ════════════════════
-- One lane of the sign-aware comparisons
-- ════════════════════

section

variable {s t : BitVec 16}

theorem signMask_of_signs (h : s.toInt < 0 ↔ t.toInt < 0) : signMask s t = 0 := by
  refine if_neg fun hneg => ?_
  have hmsb : (s ^^^ t).msb = true := by rw [BitVec.msb_eq_toInt, decide_eq_true hneg]
  rw [BitVec.msb_xor, BitVec.msb_eq_toInt, BitVec.msb_eq_toInt, decide_eq_decide.mpr h,
    Bool.xor_self] at hmsb
  exact Bool.false_ne_true hmsb

theorem signMask_of_not_signs (h : ¬(s.toInt < 0 ↔ t.toInt < 0)) : signMask s t = 0xffff := by
  refine if_pos ?_
  have hmsb : (s ^^^ t).msb = true := by
    rw [BitVec.msb_xor, BitVec.msb_eq_toInt, BitVec.msb_eq_toInt]
    exact bne_iff_ne.mpr fun heq => h (decide_eq_decide.mp heq)
  exact of_decide_eq_true (BitVec.msb_eq_toInt.symm.trans hmsb)

/-- The negation of `do_ch`, on a lane where the signs differ. -/
theorem toInt_chNegated (t : BitVec 16) :
    ((t ^^^ 0xffff) - (0xffff &&& ~~~(if t = 0x8000 then 0xffff else 0))).toInt =
      if t = 0x8000 then 32767 else -t.toInt := by
  split
  · next h =>
    rw [h]
    rfl
  · next h =>
    have hflip : t ^^^ 0xffff = -t - 1 :=
      (show t ^^^ BitVec.allOnes 16 = _ from BitVec.xor_allOnes).trans (BitVec.not_eq_neg_add t)
    rw [hflip, show (0xffff &&& ~~~0 : BitVec 16) = -1 from rfl, BitVec.sub_eq_add_neg,
      BitVec.neg_neg, BitVec.sub_add_cancel]
    exact BitVec.toInt_neg_of_ne_intMin h

/-- The difference of `do_ch` wraps for one pair of lanes with different signs. -/
theorem chDifference_iff (h : ¬(s.toInt < 0 ↔ t.toInt < 0)) {vc : BitVec 16}
    (hvc : vc.toInt = if t = 0x8000 then 32767 else -t.toInt) :
    (0 ≤ (vc - s).toInt ↔ s.toInt ≤ vc.toInt) ↔ ¬(s = 0x8000 ∧ t = 0) := by
  have hs := toInt_range s
  have ht := toInt_range t
  have hmin : s = 0x8000 ↔ s.toInt = -32768 := BitVec.toInt_inj.symm
  have hzero : t = 0 ↔ t.toInt = 0 := BitVec.toInt_inj.symm
  have hleast : t = 0x8000 ↔ t.toInt = -32768 := BitVec.toInt_inj.symm
  rw [BitVec.toInt_sub, hvc, hmin, hzero]
  simp only [hleast]
  by_cases hwrap : s.toInt = -32768 ∧ t.toInt = 0
  · rw [if_neg (by omega), hwrap.1, hwrap.2]
    decide
  · rw [Int.bmod_eq_of_le (by split <;> omega) (by split <;> omega)]
    exact iff_of_true sub_nonneg hwrap

/-- A wrapped difference of two lanes of one sign is not half of the range. -/
theorem double_sub_eq_zero_iff (h : s.toInt < 0 ↔ t.toInt < 0) :
    t - s + (t - s) = 0 ↔ s = t := by
  have hs := toInt_range s
  have ht := toInt_range t
  have hdif : (t - s).toInt = t.toInt - s.toInt := by
    rw [BitVec.toInt_sub, Int.bmod_eq_of_le (by omega) (by omega)]
  constructor
  · intro hzero
    have hsum : (2 * (t.toInt - s.toInt)).bmod (2 ^ 16) = 0 := by
      rw [two_mul, ← hdif, ← BitVec.toInt_add, hzero]
      rfl
    have hdvd := Int.dvd_of_bmod_eq_zero hsum
    exact BitVec.toInt_inj.mp (by omega)
  · rintro rfl
    rw [BitVec.sub_self]
    rfl

theorem toInt_not16 (x : BitVec 16) : (~~~x).toInt = -x.toInt - 1 := by
  have hx := toInt_range x
  have hnot : ~~~x = BitVec.ofInt 16 (-x.toInt - 1) := by
    rw [BitVec.not_eq_neg_add, BitVec.sub_eq_add_neg, sub_eq_add_neg (-x.toInt), BitVec.ofInt_add,
      BitVec.ofInt_neg, BitVec.ofInt_toInt]
    rfl
  rw [hnot, BitVec.toInt_ofInt, Int.bmod_eq_of_le (by omega) (by omega)]

/-- Where `VCH` has no wrapped difference. -/
def ChRegular (s t : BitVec 16) : Prop := ¬(s = 0x8000 ∧ t = 0)

instance decidableChRegular (s t : BitVec 16) : Decidable (ChRegular s t) :=
  inferInstanceAs (Decidable ¬(_ ∧ _))

/-- Where the mask of `VCR` selects: with different signs, `VT` decides the sign of the sum, or the
sum is -1. -/
def CrRegular (s t : BitVec 16) : Prop :=
  (s.toInt < 0 ∧ 0 ≤ t.toInt → -1 ≤ s.toInt + t.toInt) ∧
    (0 ≤ s.toInt ∧ t.toInt < 0 → s.toInt + t.toInt < 0)

theorem flag16_congr {p q : Prop} [Decidable p] [Decidable q] : flag16 p = flag16 q ↔ (p ↔ q) := by
  constructor
  · intro h
    by_cases hp : p <;> by_cases hq : q
    · exact iff_of_true hp hq
    · rw [flag16_pos hp, flag16_neg hq] at h
      exact absurd h (by decide)
    · rw [flag16_neg hp, flag16_pos hq] at h
      exact absurd h (by decide)
    · exact iff_of_false hp hq
  · intro h
    by_cases hp : p
    · rw [flag16_pos hp, flag16_pos (h.mp hp)]
    · rw [flag16_neg hp, flag16_neg (mt h.mpr hp)]

end

-- ════════════════════
-- The orders
-- ════════════════════

section

variable (vs vt : V16)

/-- The sign vector of `do_ch` and `do_cr`. -/
def signs : V16 := fun i => signMask (vs i) (vt i)

/-- `VC` of `do_ch` where it is compared. -/
def chOperand : V16 := fun i =>
  (vt i ^^^ signs vs vt i) - (signs vs vt i &&& ~~~(if vt i = 0x8000 then 0xffff else 0))

variable {vs vt} {i : Lane}

theorem signs_isMask (vs vt : V16) : IsMask (signs vs vt) := fun i => signMask_mask (vs i) (vt i)

theorem signFlags_isFlags : IsFlags fun i => signs vs vt i >>> 15 := by
  intro i
  show signs vs vt i >>> 15 = 0 ∨ signs vs vt i >>> 15 = 1
  rcases signs_isMask vs vt i with h | h <;> rw [h] <;> decide

theorem chOperand_same (h : (vs i).toInt < 0 ↔ (vt i).toInt < 0) : chOperand vs vt i = vt i := by
  rw [chOperand, signs, signMask_of_signs h, BitVec.ofNat_eq_ofNat, BitVec.zero_and,
    BitVec.sub_zero, BitVec.xor_zero]

theorem toInt_chOperand (h : ¬((vs i).toInt < 0 ↔ (vt i).toInt < 0)) :
    (chOperand vs vt i).toInt = if vt i = 0x8000 then 32767 else -(vt i).toInt := by
  rw [chOperand, signs, signMask_of_not_signs h, toInt_chNegated]

theorem chOrder_sn : (chOrderRelease merge vs vt (chOperand vs vt) (signs vs vt)).sn =
    (chOrderReference vs vt (chOperand vs vt) (signs vs vt)).sn := by
  funext i
  show signs vs vt i >>> 15 = flag16 (signs vs vt i ≠ 0)
  rcases signs_isMask vs vt i with h | h <;> rw [h] <;> decide

theorem chOrder_ge : (chOrderRelease merge vs vt (chOperand vs vt) (signs vs vt)).ge =
    (chOrderReference vs vt (chOperand vs vt) (signs vs vt)).ge := by
  funext i
  have ht := toInt_range (vt i)
  show flag16 ((vt i).toInt ≤ (signs vs vt i ||| vs i).toInt) =
    if signs vs vt i ≠ 0 then flag16 (0 < (chOperand vs vt i).toInt)
    else flag16 ((chOperand vs vt i).toInt ≤ (vs i).toInt)
  by_cases h : (vs i).toInt < 0 ↔ (vt i).toInt < 0
  · rw [chOperand_same h, signs, signMask_of_signs h, if_neg (not_not_intro rfl),
      BitVec.ofNat_eq_ofNat, BitVec.zero_or]
  · have hleast : vt i = 0x8000 ↔ (vt i).toInt = -32768 := BitVec.toInt_inj.symm
    rw [toInt_chOperand h, signs, signMask_of_not_signs h, if_pos (by decide),
      show (0xffff ||| vs i) = -1 from BitVec.allOnes_or, flag16_congr]
    show (vt i).toInt ≤ -1 ↔ _
    simp only [hleast]
    split <;> omega

theorem chOrder_le_iff : (chOrderRelease merge vs vt (chOperand vs vt) (signs vs vt)).le i =
    (chOrderReference vs vt (chOperand vs vt) (signs vs vt)).le i ↔ ChRegular (vs i) (vt i) := by
  show merge (fun i => signs vs vt i >>> 15)
      (fun i => flag16 (0 ≤ (chOperand vs vt i - vs i).toInt)) (fun i => flag16 ((vt i).toInt < 0))
      i = (if signs vs vt i ≠ 0 then flag16 ((vs i).toInt ≤ (chOperand vs vt i).toInt)
        else flag16 ((chOperand vs vt i).toInt < 0)) ↔ _
  rw [signFlags_isFlags.merge_eq, choose]
  by_cases h : (vs i).toInt < 0 ↔ (vt i).toInt < 0
  · rw [chOperand_same h, signs, signMask_of_signs h, if_neg (by decide), if_neg (by decide)]
    refine iff_of_true rfl ?_
    rintro ⟨hs, ht⟩
    rw [hs, ht] at h
    exact absurd h (by decide)
  · rw [signs, signMask_of_not_signs h, if_pos (by decide), if_pos (by decide), flag16_congr,
      chDifference_iff h (toInt_chOperand h)]
    rfl

theorem chOrder_eq_iff :
    chOrderRelease merge vs vt (chOperand vs vt) (signs vs vt) =
        chOrderReference vs vt (chOperand vs vt) (signs vs vt) ↔
      ∀ i, ChRegular (vs i) (vt i) := by
  constructor
  · intro h i
    exact chOrder_le_iff.mp (congrFun (congrArg ChOrder.le h) i)
  · intro h
    exact ChOrder.ext chOrder_sn (funext fun i => chOrder_le_iff.mpr (h i)) chOrder_ge

/-- Without branches `VCR` compares as the debug build does. -/
theorem crOrder_eq : crOrderRelease vs vt (signs vs vt) = crOrderDebug vs vt (signs vs vt) := by
  have hmask : IsMask (signs vs vt) := signs_isMask vs vt
  ext i : 2
  · show flag16 ((vt i).toInt ≤ (~~~(vs i &&& signs vs vt i)).toInt) =
      if signs vs vt i ≠ 0 then flag16 ((vt i).toInt ≤ -(vs i).toInt - 1)
      else flag16 ((vt i).toInt ≤ -1)
    rcases hmask i with h | h
    · rw [h, if_neg (not_not_intro rfl), BitVec.ofNat_eq_ofNat, BitVec.and_zero]
      rfl
    · rw [h, if_pos (by decide), show vs i &&& 0xffff = vs i from BitVec.and_allOnes, toInt_not16]
  · show flag16 ((vt i).toInt ≤ (vs i ||| signs vs vt i).toInt) =
      if signs vs vt i ≠ 0 then flag16 ((vt i).toInt ≤ -1) else flag16 ((vt i).toInt ≤ (vs i).toInt)
    rcases hmask i with h | h
    · rw [h, if_neg (not_not_intro rfl), BitVec.ofNat_eq_ofNat, BitVec.or_zero]
    · rw [h, if_pos (by decide), show vs i ||| 0xffff = -1 from BitVec.or_allOnes]
      rfl

-- ════════════════════
-- The mask of `VCR`
-- ════════════════════

/-- The mask -1 goes as far beyond `VS` as `VC` lies before it. -/
theorem merge_minus_one_iff {u v w : V16} (hu : u i = 0xffff)
    (h : (w i).toInt < 0 ↔ (v i).toInt < 0) : merge u v w i = v i ↔ w i = v i := by
  have hdif : w i + -1 * (v i - w i) - v i = -(v i - w i + (v i - w i)) := by ring
  show w i + u i * (v i - w i) = v i ↔ _
  rw [← double_sub_eq_zero_iff h, hu, ← sub_eq_zero, ← neg_eq_zero (a := v i - w i + _), ← hdif]
  rfl

/-- The mask 2 goes beyond `VC`. -/
theorem merge_two_iff {u v w : V16} (hu : u i = 2) (h : (w i).toInt < 0 ↔ (v i).toInt < 0) :
    merge u v w i = w i ↔ w i = v i := by
  have hdif : w i + 2 * (v i - w i) - w i = v i - w i + (v i - w i) := by ring
  show w i + u i * (v i - w i) = w i ↔ _
  rw [← double_sub_eq_zero_iff h, hu, ← sub_eq_zero, ← hdif]

theorem crOrderDebug_differ (h : ¬((vs i).toInt < 0 ↔ (vt i).toInt < 0)) :
    (crOrderDebug vs vt (signs vs vt)).le i = flag16 ((vt i).toInt ≤ -(vs i).toInt - 1) ∧
      (crOrderDebug vs vt (signs vs vt)).ge i = flag16 ((vt i).toInt ≤ -1) := by
  have hsign : signs vs vt i ≠ 0 := by
    rw [signs, signMask_of_not_signs h]
    decide
  exact ⟨if_pos hsign, if_pos hsign⟩

theorem crOrderDebug_ge_same (h : (vs i).toInt < 0 ↔ (vt i).toInt < 0) :
    (crOrderDebug vs vt (signs vs vt)).ge i = flag16 ((vt i).toInt ≤ (vs i).toInt) :=
  if_neg (not_not_intro (signMask_of_signs h))

/-- What the comparisons combine to under the mask of a sign. -/
theorem merge_sign {u : V16} (le ge : V16) (hu : u i = 0xffff) :
    merge u le ge i = ge i - (le i - ge i) := by
  have hdif : ge i + -1 * (le i - ge i) = ge i - (le i - ge i) := by ring
  rw [← hdif]
  show ge i + u i * (le i - ge i) = _
  rw [hu]
  rfl

/-- With the sign as a mask, the comparisons are combined: they are selected where they agree. -/
theorem crSelect_iff {u : V16} (hu : u = signs vs vt) {le ge : V16}
    (hle : le = (crOrderDebug vs vt u).le) (hge : ge = (crOrderDebug vs vt u).ge) :
    merge (merge u le ge) (fun i => vt i ^^^ u i) vs i =
        choose (choose u le ge) (fun i => vt i ^^^ u i) vs i ↔ CrRegular (vs i) (vt i) := by
  have hs := toInt_range (vs i)
  have ht := toInt_range (vt i)
  subst hu
  by_cases hsame : (vs i).toInt < 0 ↔ (vt i).toInt < 0
  · have hsign : signs vs vt i = 0 := signMask_of_signs hsame
    have hcmp : merge (signs vs vt) le ge i = ge i := by
      rw [merge_of_flag (.inl hsign)]
      exact if_neg (not_not_intro hsign)
    have hflag : ge i = 0 ∨ ge i = 1 := by
      rw [hge, crOrderDebug_ge_same hsame]
      exact flag16_flag _
    have hchoose : choose (signs vs vt) le ge i = ge i := if_neg (not_not_intro hsign)
    refine iff_of_true ?_ ⟨by omega, by omega⟩
    rw [merge_of_flag (hcmp ▸ hflag)]
    show (if merge (signs vs vt) le ge i ≠ 0 then _ else _) =
      (if choose (signs vs vt) le ge i ≠ 0 then _ else _)
    rw [hcmp, hchoose]
  · have hsign : signs vs vt i = 0xffff := signMask_of_not_signs hsame
    obtain ⟨hle', hge'⟩ := crOrderDebug_differ hsame
    rw [← hle] at hle'
    rw [← hge] at hge'
    have hchoose : choose (signs vs vt) le ge i = le i := if_pos (by rw [hsign]; decide)
    have hnot : (vt i ^^^ signs vs vt i).toInt = -(vt i).toInt - 1 := by
      rw [hsign, show vt i ^^^ 0xffff = ~~~(vt i) from BitVec.xor_allOnes, toInt_not16]
    have hvc : (vs i).toInt < 0 ↔ (vt i ^^^ signs vs vt i).toInt < 0 := by
      rw [hnot]
      omega
    have heq : vs i = vt i ^^^ signs vs vt i ↔ (vs i).toInt = -(vt i).toInt - 1 := by
      rw [← BitVec.toInt_inj, hnot]
    have hsel : choose (choose (signs vs vt) le ge) (fun i => vt i ^^^ signs vs vt i) vs i =
        if le i ≠ 0 then vt i ^^^ signs vs vt i else vs i := by
      rw [← hchoose]
      rfl
    have hmerge := merge_sign le ge hsign
    unfold CrRegular
    rw [hsel, hle']
    rw [hle', hge'] at hmerge
    have htwo (h : merge (signs vs vt) le ge i = 2) :
        merge (merge (signs vs vt) le ge) (fun i => vt i ^^^ signs vs vt i) vs i = vs i ↔
          (vs i).toInt = -(vt i).toInt - 1 :=
      (merge_two_iff (v := fun i => vt i ^^^ signs vs vt i) h hvc).trans heq
    have hminus (h : merge (signs vs vt) le ge i = 0xffff) :
        merge (merge (signs vs vt) le ge) (fun i => vt i ^^^ signs vs vt i) vs i =
          vt i ^^^ signs vs vt i ↔ (vs i).toInt = -(vt i).toInt - 1 :=
      (merge_minus_one_iff (v := fun i => vt i ^^^ signs vs vt i) h hvc).trans heq
    by_cases hneg : (vt i).toInt ≤ -1 <;> by_cases hless : (vt i).toInt ≤ -(vs i).toInt - 1
    · rw [flag16_pos hless, flag16_pos hneg, BitVec.sub_self, BitVec.sub_zero] at hmerge
      rw [flag16_pos hless, merge_of_flag (.inr hmerge), choose, hmerge]
      exact iff_of_true rfl ⟨by omega, by omega⟩
    · rw [flag16_neg hless, flag16_pos hneg, show 1#16 - (0#16 - 1#16) = 2 from rfl] at hmerge
      rw [flag16_neg hless, if_neg (show ¬0#16 ≠ 0 from not_not_intro rfl), htwo hmerge]
      omega
    · rw [flag16_pos hless, flag16_neg hneg, show 0#16 - (1#16 - 0#16) = 0xffff from rfl] at hmerge
      rw [flag16_pos hless, if_pos (show 1#16 ≠ 0 by decide), hminus hmerge]
      omega
    · rw [flag16_neg hless, flag16_neg hneg, BitVec.sub_self, BitVec.sub_zero] at hmerge
      rw [flag16_neg hless, merge_of_flag (.inl hmerge), choose, hmerge]
      exact iff_of_true rfl ⟨by omega, by omega⟩

end

-- ════════════════════
-- The instructions
-- ════════════════════

theorem chOrderReference_isFlags (vs vt vc sn : V16) :
    IsFlags (chOrderReference vs vt vc sn).sn ∧ IsFlags (chOrderReference vs vt vc sn).le ∧
      IsFlags (chOrderReference vs vt vc sn).ge :=
  ⟨.flag fun i => sn i ≠ 0,
    .ite sn (fun i => (vs i).toInt ≤ (vc i).toInt) fun i => (vc i).toInt < 0,
    .ite sn (fun i => 0 < (vc i).toInt) fun i => (vc i).toInt ≤ (vs i).toInt⟩

theorem chOrderRelease_isFlags (vs vt vc : V16) :
    IsFlags (chOrderRelease merge vs vt vc (signs vs vt)).sn ∧
      IsFlags (chOrderRelease merge vs vt vc (signs vs vt)).le ∧
        IsFlags (chOrderRelease merge vs vt vc (signs vs vt)).ge := by
  have hsn : IsFlags fun i => signs vs vt i >>> 15 := signFlags_isFlags
  refine ⟨hsn, ?_, .flag fun i => (vt i).toInt ≤ (signs vs vt i ||| vs i).toInt⟩
  show IsFlags (merge (fun i => signs vs vt i >>> 15) (fun i => flag16 (0 ≤ (vc i - vs i).toInt))
    fun i => flag16 ((vt i).toInt < 0))
  rw [hsn.merge_eq]
  exact .choose (.flag _) (.flag _)

/-- Both comparisons of `VCR` are flags. -/
theorem crOrderRelease_isFlags (vs vt sn : V16) :
    IsFlags (crOrderRelease vs vt sn).le ∧ IsFlags (crOrderRelease vs vt sn).ge :=
  ⟨.flag fun i => (vt i).toInt ≤ (~~~(vs i &&& sn i)).toInt,
    .flag fun i => (vt i).toInt ≤ (vs i ||| sn i).toInt⟩

section

variable {f : VectorFlags} (hf : f.Valid) (vs vt : V16)
include hf

theorem doLt_valid (c : SelectCode) : (doLt c f vs vt).flags.Valid :=
  ⟨.zero, .zero, .or (.flag _) (.and (.flag _) (hf.ne.and hf.co)), .zero, hf.vce⟩

theorem doEq_valid : (doEq f vs vt).flags.Valid :=
  ⟨.zero, .zero, .and (.flag _) hf.ne.not, .zero, hf.vce⟩

theorem doNe_valid : (doNe f vs vt).flags.Valid :=
  ⟨.zero, .zero, .or (.flag _) hf.ne, .zero, hf.vce⟩

theorem doGe_valid (c : SelectCode) : (doGe c f vs vt).flags.Valid :=
  ⟨.zero, .zero, .or (.flag _) (.and (.flag _) (hf.ne.and hf.co).not), .zero, hf.vce⟩

theorem doLt_eq : doLt .release f vs vt = doLt .reference f vs vt := by
  have hcomp := (doLt_valid hf vs vt .release).comp
  exact congrArg (compareResult f _) (hcomp.merge_eq vs vt)

theorem doGe_eq : doGe .release f vs vt = doGe .reference f vs vt := by
  have hcomp := (doGe_valid hf vs vt .release).comp
  exact congrArg (compareResult f _) (hcomp.merge_eq vs vt)

theorem doMrg_eq : doMrg .release f vs vt = doMrg .reference f vs vt := by
  show (⟨_, _, _⟩ : SelectResult) = _
  rw [show SelectCode.release.merge f.comp vs vt = choose f.comp vs vt from hf.comp.merge_eq vs vt]
  rfl

/-- The masks of `VCL` are flags. -/
theorem doCl_flags (i : Lane) :
    ((flag16 (vs i - ((vt i ^^^ -f.co i) + f.co i) = 0) &&& noCarry (vs i) (vt i)) &&&
        (f.vce i ^^^ 1) |||
      (flag16 (vs i - ((vt i ^^^ -f.co i) + f.co i) = 0) ||| noCarry (vs i) (vt i)) &&& f.vce i) =
        0 ∨
    ((flag16 (vs i - ((vt i ^^^ -f.co i) + f.co i) = 0) &&& noCarry (vs i) (vt i)) &&&
        (f.vce i ^^^ 1) |||
      (flag16 (vs i - ((vt i ^^^ -f.co i) + f.co i) = 0) ||| noCarry (vs i) (vt i)) &&& f.vce i) =
        1 :=
  flag_or (flag_and (flag_and_mask (flag16_flag _) (noCarry_mask _ _)) (flag_not (hf.vce i)))
    (flag_or_mask_and (flag16_flag _) (noCarry_mask _ _) (hf.vce i))

/-- In `VCL` every mask selects, and what it leaves are flags. -/
theorem doCl_spec : doCl .release f vs vt = doCl .reference f vs vt ∧
    (doCl .reference f vs vt).flags.Valid := by
  have hle : IsFlags fun i => (f.ne i ^^^ 1) &&& f.co i := .and hf.ne.not hf.co
  have hge : IsFlags fun i => (f.ne i ^^^ 1) &&& (f.co i ^^^ 1) := .and hf.ne.not hf.co.not
  have hlen := doCl_flags hf vs vt
  have hgen : IsFlags fun i => flag16 ((vt i ^^^ -f.co i) + f.co i ≤ vs i) := .flag _
  have hcmp := IsFlags.choose (u := f.co)
    (.choose (u := fun i => (f.ne i ^^^ 1) &&& f.co i) hlen hf.comp)
    (.choose (u := fun i => (f.ne i ^^^ 1) &&& (f.co i ^^^ 1)) hgen hf.clip)
  refine ⟨?_, .zero, .zero, .choose hlen hf.comp, .choose hgen hf.clip, .zero⟩
  unfold doCl SelectCode.release SelectCode.reference
  dsimp only
  rw [hle.merge_eq, hge.merge_eq, hf.co.merge_eq, hcmp.merge_eq]

end

/-- What `VCH` leaves, once its order is known. -/
def chResult (c : SelectCode) (vs vt : V16) (order : ChOrder) : SelectResult :=
  let vce : V16 := fun i => flag16 (vs i = vt i ^^^ signs vs vt i) &&& signs vs vt i
  let eq : V16 := fun i =>
    flag16 (vs i = chOperand vs vt i) &&& ~~~(if vt i = 0x8000 then 0xffff else 0) ||| vce i
  let accL := c.merge (c.merge order.sn order.le order.ge) (chOperand vs vt) vs
  ⟨accL, accL, ⟨fun i => eq i ^^^ 1, order.sn, order.le, order.ge, vce⟩⟩

theorem doCh_eq (c : SelectCode) (vs vt : V16) :
    doCh c vs vt = chResult c vs vt (c.chOrder vs vt (chOperand vs vt) (signs vs vt)) := rfl

theorem chResult_eq {vs vt : V16} {order : ChOrder} (hsn : IsFlags order.sn)
    (hle : IsFlags order.le) (hge : IsFlags order.ge) :
    chResult .release vs vt order = chResult .reference vs vt order := by
  unfold chResult SelectCode.release SelectCode.reference
  dsimp only
  rw [hsn.merge_eq, (IsFlags.choose (u := order.sn) hle hge).merge_eq]

theorem doCh_eq_iff (vs vt : V16) :
    doCh .release vs vt = doCh .reference vs vt ↔ ∀ i, ChRegular (vs i) (vt i) := by
  rw [doCh_eq, doCh_eq]
  constructor
  · intro h i
    exact chOrder_le_iff.mp (congrFun (congrArg (fun r => r.flags.comp) h) i)
  · intro h
    obtain ⟨hsn, hle, hge⟩ := chOrderReference_isFlags vs vt (chOperand vs vt) (signs vs vt)
    rw [show SelectCode.release.chOrder vs vt (chOperand vs vt) (signs vs vt) = _ from
      chOrder_eq_iff.mpr h]
    exact chResult_eq hsn hle hge

theorem doCh_valid {c : SelectCode} {vs vt : V16}
    (h : IsFlags (c.chOrder vs vt (chOperand vs vt) (signs vs vt)).sn ∧
      IsFlags (c.chOrder vs vt (chOperand vs vt) (signs vs vt)).le ∧
        IsFlags (c.chOrder vs vt (chOperand vs vt) (signs vs vt)).ge) :
    (doCh c vs vt).flags.Valid := by
  have hvce : IsFlags fun i => flag16 (vs i = vt i ^^^ signs vs vt i) &&& signs vs vt i :=
    fun i => flag_and_mask (flag16_flag _) (signs_isMask _ _ i)
  have heq : IsFlags fun i =>
      flag16 (vs i = chOperand vs vt i) &&& ~~~(if vt i = 0x8000 then 0xffff else 0) := by
    refine fun i => flag_and_mask (flag16_flag _) ?_
    split
    · exact .inl rfl
    · exact .inr rfl
  exact ⟨(heq.or hvce).not, h.1, h.2.1, h.2.2, hvce⟩

/-- The debug build is no reference for the carry flags: it leaves the sign as a mask. -/
theorem doCh_debug_co_iff (vs vt : V16) :
    IsFlags (doCh .debug vs vt).flags.co ↔ ∀ i, (vs i).toInt < 0 ↔ (vt i).toInt < 0 := by
  refine forall_congr' fun i => ?_
  show signs vs vt i = 0 ∨ signs vs vt i = 1 ↔ _
  by_cases h : (vs i).toInt < 0 ↔ (vt i).toInt < 0
  · exact iff_of_true (.inl (signMask_of_signs h)) h
  · rw [signs, signMask_of_not_signs h]
    exact iff_of_false (by decide) h

theorem doCr_eq_iff (vs vt : V16) :
    doCr .release vs vt = doCr .reference vs vt ↔ ∀ i, CrRegular (vs i) (vt i) := by
  have horder : SelectCode.release.crOrder vs vt (signs vs vt) =
      crOrderDebug vs vt (signs vs vt) := crOrder_eq
  have hsplit (c : SelectCode) : doCr c vs vt =
      let order := c.crOrder vs vt (signs vs vt)
      let accL := c.merge (c.merge (signs vs vt) order.le order.ge)
        (fun i => vt i ^^^ signs vs vt i) vs
      ⟨accL, accL, ⟨fun _ => 0, fun _ => 0, order.le, order.ge, fun _ => 0⟩⟩ := rfl
  have hlanes : doCr .release vs vt = doCr .reference vs vt ↔
      (doCr .release vs vt).accL = (doCr .reference vs vt).accL := by
    refine ⟨congrArg SelectResult.accL, fun h => ?_⟩
    rw [hsplit, hsplit, horder] at h ⊢
    exact SelectResult.ext h h rfl
  rw [hlanes, hsplit, hsplit, horder, funext_iff]
  exact forall_congr' fun i => crSelect_iff rfl rfl rfl

/-- Where an instruction of the release build selects as the reference does. -/
def SelectCall.Regular (call : SelectCall) : Prop :=
  match call.op with
  | .vch => ∀ i, ChRegular (call.vs i) (call.vt i)
  | .vcr => ∀ i, CrRegular (call.vs i) (call.vt i)
  | _ => True

theorem execute_valid {f : VectorFlags} (hf : f.Valid) (call : SelectCall) :
    (execute .release f call).flags.Valid := by
  obtain ⟨op, vs, vt⟩ := call
  cases op with
  | vlt => exact doLt_valid hf vs vt .release
  | veq => exact doEq_valid hf vs vt
  | vne => exact doNe_valid hf vs vt
  | vge => exact doGe_valid hf vs vt .release
  | vcl =>
    obtain ⟨heq, hvalid⟩ := doCl_spec hf vs vt
    show (doCl .release f vs vt).flags.Valid
    rw [heq]
    exact hvalid
  | vch => exact doCh_valid (chOrderRelease_isFlags vs vt (chOperand vs vt))
  | vcr =>
    obtain ⟨hle, hge⟩ := crOrderRelease_isFlags vs vt (signs vs vt)
    exact ⟨.zero, .zero, hle, hge, .zero⟩
  | vmrg => exact hf
  | vaddc =>
    exact ⟨(setCo vs vt).flags.ne_flag, (setCo vs vt).flags.co_flag, hf.comp, hf.clip, hf.vce⟩
  | vsubc =>
    exact ⟨(setBo vs vt).flags.ne_flag, (setBo vs vt).flags.co_flag, hf.comp, hf.clip, hf.vce⟩

theorem execute_eq_iff {f : VectorFlags} (hf : f.Valid) (call : SelectCall) :
    execute .release f call = execute .reference f call ↔ call.Regular := by
  obtain ⟨op, vs, vt⟩ := call
  cases op with
  | vlt => exact iff_of_true (doLt_eq hf vs vt) trivial
  | veq => exact iff_of_true rfl trivial
  | vne => exact iff_of_true rfl trivial
  | vge => exact iff_of_true (doGe_eq hf vs vt) trivial
  | vcl => exact iff_of_true (doCl_spec hf vs vt).1 trivial
  | vch => exact doCh_eq_iff vs vt
  | vcr => exact doCr_eq_iff vs vt
  | vmrg => exact iff_of_true (doMrg_eq hf vs vt) trivial
  | vaddc => exact iff_of_true rfl trivial
  | vsubc => exact iff_of_true rfl trivial

theorem selectRun_cons (c : SelectCode) (f : VectorFlags) (call : SelectCall)
    (calls : List SelectCall) : selectRun c f (call :: calls) =
      execute c f call :: selectRun c (execute c f call).flags calls := rfl

/-- The flags of a run stay flags. -/
theorem selectRun_valid {f : VectorFlags} (hf : f.Valid) (calls : List SelectCall) :
    ∀ r ∈ selectRun .release f calls, r.flags.Valid := by
  induction calls generalizing f with
  | nil => exact fun r hr => absurd hr List.not_mem_nil
  | cons call calls ih =>
    have hnext := execute_valid hf call
    intro r hr
    rcases List.mem_cons.mp hr with rfl | hr
    · exact hnext
    · exact ih hnext r hr

/-- **Vector selects**: the flags of every run are flags, and the run leaves what the selecting
reference leaves exactly when no `VCH` wraps and every mask of `VCR` selects. -/
theorem selectRun_exact_iff (f : VectorFlags) (hf : f.Valid) (calls : List SelectCall) :
    (∀ r ∈ selectRun .release f calls, r.flags.Valid) ∧
        selectRun .release f calls = selectRun .reference f calls ↔
      ∀ call ∈ calls, call.Regular := by
  rw [and_iff_right (selectRun_valid hf calls)]
  induction calls generalizing f with
  | nil => exact iff_of_true rfl fun call hcall => absurd hcall List.not_mem_nil
  | cons call calls ih =>
    rw [List.forall_mem_cons, ← execute_eq_iff hf, ← ih _ (execute_valid hf call), selectRun_cons,
      selectRun_cons, List.cons.injEq]
    constructor
    · rintro ⟨hcall, hrest⟩
      exact ⟨hcall, by rw [hrest, hcall]⟩
    · rintro ⟨hcall, hrest⟩
      exact ⟨hcall, by rw [← hcall, hrest]⟩

/-- A carry, a comparison with it and a clip. -/
theorem selectRun_exact_clip :
    let calls : List SelectCall := [⟨.vaddc, fun _ => 0xffff, fun _ => 2⟩,
      ⟨.vlt, fun _ => 7, fun _ => 7⟩, ⟨.vch, fun _ => 5, fun _ => 0xfffd⟩]
    (∀ r ∈ selectRun .release .clear calls, r.flags.Valid) ∧
      selectRun .release .clear calls = selectRun .reference .clear calls :=
  (selectRun_exact_iff .clear VectorFlags.clear_valid _).mpr
    (List.forall_mem_cons.mpr ⟨trivial, List.forall_mem_cons.mpr ⟨trivial,
      List.forall_mem_singleton.mpr fun _ => show ChRegular 5 0xfffd by decide⟩⟩)

/-- `VCH` of -32768 with 0 takes the difference 32768 for a negative one. -/
theorem least_with_zero_wraps : ¬∀ (f : VectorFlags) (_ : f.Valid) (calls : List SelectCall),
    (∀ r ∈ selectRun .release f calls, r.flags.Valid) ∧
      selectRun .release f calls = selectRun .reference f calls := by
  intro h
  have hrun := (h .clear VectorFlags.clear_valid [⟨.vch, fun _ => 0x8000, fun _ => 0⟩]).2
  have hcomp := congrArg (fun l => l.map fun r => r.flags.comp 0) hrun
  exact absurd hcomp (by decide)

end Mupen64plus
