import Mathlib.Tactic.Ring
import Mupen64plus.Lib.ShaderExpressions

/-!
# Cycles of the color combiner

`Combiner.cpp` turns the equation `(sa - sb) * m + a` of a cycle into a few operations, and
`glsl_CombinerProgramBuilder.cpp` prints them as an expression of a shader.

## Main definitions

- `CombineCycle.simplifyCycle` — `SimplifyCycle`, a cycle as operations
- `compileOps` — `_compileCombiner`, operations as text

## Main results

- `opsValue_simplifyCycle` — the operations of a cycle compute its equation
- `evalText_shape` — their text has the same value
-/

namespace Mupen64plus

open ShaderExpressions

-- ════════════════════════════════════════════════════════════════════════
-- Cycles and operations
-- ════════════════════════════════════════════════════════════════════════

/-- `G_GCI_COMBINED` and the following. -/
inductive Gci where
  | combined | texel0 | texel1 | primitive | shade | environment | center | scale
  | combinedAlpha | texel0Alpha | texel1Alpha | primitiveAlpha | shadeAlpha | envAlpha
  | lodFraction | primLodFrac | noise | k4 | k5 | one | zero | half | last
  deriving DecidableEq, Repr

inductive CombinerOpcode where
  | load | sub | mul | add | inter
  deriving DecidableEq, Repr

structure CombinerOp where
  op : CombinerOpcode := .load
  param1 : Gci := .last
  param2 : Gci := .last
  param3 : Gci := .last
  deriving DecidableEq, Repr

structure CombineCycle where
  sa : Gci
  sb : Gci
  m : Gci
  a : Gci
  deriving DecidableEq, Repr

namespace CombineCycle

variable (cc : CombineCycle)

/-- The first operand is loaded, and another one that is not zero is subtracted. -/
def subtract : List CombinerOp :=
  if cc.sb = .zero then [{ op := .load, param1 := cc.sa }]
  else if cc.sb = cc.sa then [{ op := .load, param1 := .zero }]
  else [{ op := .load, param1 := cc.sa }, { op := .sub, param1 := cc.sb }]

/-- What is not zero is multiplied. -/
def multiply (ops : List CombinerOp) : List CombinerOp :=
  if ops = [{ op := .load, param1 := .zero }] then ops
  else if cc.m = .zero then [{ op := .load, param1 := .zero }]
  else if ops = [{ op := .load, param1 := .one }] then [{ op := .load, param1 := cc.m }]
  else ops ++ [{ op := .mul, param1 := cc.m }]

def addLast (ops : List CombinerOp) : List CombinerOp :=
  if cc.a = .zero then ops
  else if ops = [{ op := .load, param1 := .zero }] then [{ op := .load, param1 := cc.a }]
  else ops ++ [{ op := .add, param1 := cc.a }]

/-- Four operations that add what was subtracted are an interpolation. -/
def interpolate : List CombinerOp → List CombinerOp
  | [first, second, third, fourth] =>
    if second.param1 = fourth.param1 then
      [{ first with op := .inter, param2 := second.param1, param3 := third.param1 }]
    else [first, second, third, fourth]
  | ops => ops

/-- `SimplifyCycle`. -/
def simplifyCycle : List CombinerOp := interpolate (cc.addLast (cc.multiply cc.subtract))

end CombineCycle

/-- Parameters are replaced in the operations of a stage. -/
def CombinerOp.mapParams (f : Gci → Gci) (o : CombinerOp) : CombinerOp :=
  { o with param1 := f o.param1, param2 := f o.param2, param3 := f o.param3 }

-- ════════════════════════════════════════════════════════════════════════
-- Texts
-- ════════════════════════════════════════════════════════════════════════

/-- `ColorInput`: a single name or call for each input. -/
def colorText (i : Gci) : List (Token Gci) := [.name i]

/-- `AlphaInput`: a sum for the noise, in which the call of `snoise` has its name. -/
def alphaText : Gci → List (Token Gci)
  | .noise => [.name .half, .plus, .name .half, .times, .name .noise]
  | i => [.name i]

/-- `_compileCombiner`, behind an open bracket or not. -/
def compileOps (text : Gci → List (Token Gci)) (first : CombinerOp) :
    Bool → List CombinerOp → List (Token Gci)
  | bracketOpen, [] => if bracketOpen then [.rparen] else []
  | bracketOpen, o :: ops =>
    match o.op with
    | .load => .lparen :: text o.param1 ++ compileOps text first true ops
    | .sub => .minus :: text o.param1 ++ (if bracketOpen then [.rparen] else []) ++
      compileOps text first false ops
    | .add => .plus :: text o.param1 ++ (if bracketOpen then [.rparen] else []) ++
      compileOps text first false ops
    | .mul => (if bracketOpen then [.rparen] else []) ++ .times :: text o.param1 ++
      compileOps text first false ops
    | .inter => .mix :: .lparen :: text first.param2 ++ .comma :: text first.param1 ++
      .comma :: text first.param3 ++ .rparen :: compileOps text first bracketOpen ops

/-- The text of a stage. -/
def stageText (text : Gci → List (Token Gci)) : List CombinerOp → List (Token Gci)
  | [] => []
  | o :: ops => compileOps text o false (o :: ops)

-- ════════════════════════════════════════════════════════════════════════
-- Operations
-- ════════════════════════════════════════════════════════════════════════

section Operations

variable {R : Type*} [CommRing R]

/-- One operation on what was computed before it. -/
def opValue (v : Gci → R) (x : R) (o : CombinerOp) : R :=
  match o.op with
  | .load => v o.param1
  | .sub => x - v o.param1
  | .mul => x * v o.param1
  | .add => x + v o.param1
  | .inter => v o.param2 * (1 - v o.param3) + v o.param1 * v o.param3

def opsValue (v : Gci → R) (ops : List CombinerOp) : R := ops.foldl (opValue v) 0

theorem opsValue_append (v : Gci → R) (ops : List CombinerOp) (o : CombinerOp) :
    opsValue v (ops ++ [o]) = opValue v (opsValue v ops) o := by
  rw [opsValue, List.foldl_append]
  rfl

variable {v : Gci → R} (cc : CombineCycle)

theorem opsValue_subtract (hzero : v .zero = 0) :
    opsValue v cc.subtract = v cc.sa - v cc.sb := by
  unfold CombineCycle.subtract
  split_ifs with hsb hself
  · rw [hsb, hzero, sub_zero]
    rfl
  · rw [hself, sub_self]
    exact hzero
  · rfl

theorem opsValue_multiply (hzero : v .zero = 0) (hone : v .one = 1) (ops : List CombinerOp) :
    opsValue v (cc.multiply ops) = opsValue v ops * v cc.m := by
  unfold CombineCycle.multiply
  split_ifs with hops hm hload
  · have h : opsValue v ops = 0 := by rw [hops]; exact hzero
    rw [h, zero_mul]
  · rw [hm, hzero, mul_zero]
    exact hzero
  · have h : opsValue v ops = 1 := by rw [hload]; exact hone
    rw [h, one_mul]
    rfl
  · exact opsValue_append v ops _

theorem opsValue_addLast (hzero : v .zero = 0) (ops : List CombinerOp) :
    opsValue v (cc.addLast ops) = opsValue v ops + v cc.a := by
  unfold CombineCycle.addLast
  split_ifs with ha hops
  · rw [ha, hzero, add_zero]
  · have h : opsValue v ops = 0 := by rw [hops]; exact hzero
    rw [h, zero_add]
    rfl
  · exact opsValue_append v ops _

/-- The lists of operations that stages have. -/
inductive StageShape (cc : CombineCycle) : List CombinerOp → Prop
  | load (i : Gci) (hi : i = .zero ∨ i = cc.sa ∨ i = cc.a ∨
      i = cc.m ∧ cc.sa = .one ∧ cc.sb = .zero ∧ cc.a = .zero) :
    StageShape cc [{ op := .load, param1 := i }]
  | loadMul : StageShape cc [{ op := .load, param1 := cc.sa }, { op := .mul, param1 := cc.m }]
  | loadAdd : StageShape cc [{ op := .load, param1 := cc.m }, { op := .add, param1 := cc.a }]
  | loadMulAdd : StageShape cc [{ op := .load, param1 := cc.sa }, { op := .mul, param1 := cc.m },
      { op := .add, param1 := cc.a }]
  | subMul : StageShape cc [{ op := .load, param1 := cc.sa }, { op := .sub, param1 := cc.sb },
      { op := .mul, param1 := cc.m }]
  | subMulAdd : StageShape cc [{ op := .load, param1 := cc.sa }, { op := .sub, param1 := cc.sb },
      { op := .mul, param1 := cc.m }, { op := .add, param1 := cc.a }]
  | inter : StageShape cc
      [{ op := .inter, param1 := cc.sa, param2 := cc.sb, param3 := cc.m }]

/-- What is left of the first two operands and the multiplier. -/
theorem multiply_subtract_cases :
    cc.multiply cc.subtract = [{ op := .load, param1 := .zero }] ∨
      cc.multiply cc.subtract = [{ op := .load, param1 := cc.m }] ∧ cc.m ≠ .zero ∧
        cc.sa = .one ∧ cc.sb = .zero ∨
      cc.multiply cc.subtract =
        [{ op := .load, param1 := cc.sa }, { op := .mul, param1 := cc.m }] ∨
      cc.multiply cc.subtract = [{ op := .load, param1 := cc.sa },
        { op := .sub, param1 := cc.sb }, { op := .mul, param1 := cc.m }] := by
  unfold CombineCycle.multiply
  split_ifs with hzero hm hone
  · exact .inl hzero
  · exact .inl rfl
  · refine .inr (.inl ⟨rfl, hm, ?_⟩)
    unfold CombineCycle.subtract at hone
    split_ifs at hone with hsb hself
    · exact ⟨by simpa using hone, hsb⟩
    · exact absurd hone (by simp)
    · exact absurd hone (by simp)
  · unfold CombineCycle.subtract at hzero ⊢
    split_ifs at hzero ⊢ with hsb hself
    · exact .inr (.inr (.inl rfl))
    · exact absurd rfl hzero
    · exact .inr (.inr (.inr rfl))

theorem simplifyCycle_shape : StageShape cc cc.simplifyCycle := by
  unfold CombineCycle.simplifyCycle CombineCycle.addLast
  rcases multiply_subtract_cases cc with h | ⟨h, hm, hsa, hsb⟩ | h | h
  · rw [h, if_pos rfl]
    split_ifs with ha
    · exact .load .zero (.inl rfl)
    · exact .load cc.a (.inr (.inr (.inl rfl)))
  · rw [h]
    split_ifs with ha hload
    · exact .load cc.m (.inr (.inr (.inr ⟨rfl, hsa, hsb, ha⟩)))
    · exact absurd (by simpa using hload) hm
    · exact .loadAdd
  · rw [h]
    split_ifs with ha hload
    · exact .loadMul
    · exact absurd hload (by simp)
    · exact .loadMulAdd
  · rw [h]
    split_ifs with ha hload
    · exact .subMul
    · exact absurd hload (by simp)
    · show StageShape cc (if cc.sb = cc.a then _ else _)
      split_ifs with hinter
      · exact .inter
      · exact .subMulAdd

/-- The operations of a cycle compute its equation. -/
theorem opsValue_simplifyCycle (hzero : v .zero = 0) (hone : v .one = 1) :
    opsValue v cc.simplifyCycle = (v cc.sa - v cc.sb) * v cc.m + v cc.a := by
  have hsum : opsValue v (cc.addLast (cc.multiply cc.subtract)) =
      (v cc.sa - v cc.sb) * v cc.m + v cc.a := by
    rw [opsValue_addLast cc hzero, opsValue_multiply cc hzero hone, opsValue_subtract cc hzero]
  rw [← hsum, CombineCycle.simplifyCycle]
  unfold CombineCycle.addLast
  rcases multiply_subtract_cases cc with h | ⟨h, -⟩ | h | h <;> rw [h]
  · split_ifs <;> rfl
  · split_ifs <;> rfl
  · split_ifs <;> rfl
  · split_ifs with ha hload
    · rfl
    · exact absurd hload (by simp)
    · show opsValue v (if cc.sb = cc.a then _ else _) = _
      split_ifs with hinter
      · show v cc.sb * (1 - v cc.m) + v cc.sa * v cc.m =
          (v cc.sa - v cc.sb) * v cc.m + v cc.a
        rw [← hinter]
        ring
      · rfl

end Operations

-- ════════════════════════════════════════════════════════════════════════
-- Texts of stages
-- ════════════════════════════════════════════════════════════════════════

section StageTexts

variable {R : Type*} [CommRing R] {v : Gci → Value R} {text : Gci → List (Token Gci)}
  {cc : CombineCycle} {f : Gci → Gci}

variable (text) in
/-- The text of a stage has the value of its operations. All inputs are of one kind, but for a
    number that other numbers or colors are multiplied with. -/
theorem evalText_shape {k : Bool}
    (htext : ∀ i ∈ [.zero, cc.sa, cc.sb, cc.m, cc.a], text (f i) = [.name (f i)])
    (hkind : ∀ i ∈ [.zero, cc.sa, cc.sb, cc.a], (v (f i)).isVec3 = k)
    (hm : (v (f cc.m)).isVec3 = true → k = true) {ops : List CombinerOp} (h : StageShape cc ops) :
    ∃ x, evalText v (stageText text (ops.map (CombinerOp.mapParams f))) = some x ∧
      x.components = opsValue (fun i => (v (f i)).components) ops ∧
      (x.isVec3 = k ∨ x.isVec3 = (v (f cc.m)).isVec3 ∧ cc.sa = .one ∧ cc.sb = .zero ∧
        cc.a = .zero) := by
  have hsaText := htext cc.sa (by simp)
  have hsbText := htext cc.sb (by simp)
  have hmText := htext cc.m (by simp)
  have haText := htext cc.a (by simp)
  have hsa := hkind cc.sa (by simp)
  have hsb := hkind cc.sb (by simp)
  have ha := hkind cc.a (by simp)
  have hmor : ((v (f cc.m)).isVec3 || k) = k := by
    cases k <;> simp_all
  cases h with
  | load i hi =>
    have hitext : text (f i) = [.name (f i)] := by
      rcases hi with rfl | rfl | rfl | ⟨rfl, -⟩ <;> exact htext _ (by simp)
    refine ⟨v (f i), ?_, rfl, ?_⟩
    · simp only [List.map_cons, List.map_nil, CombinerOp.mapParams, stageText, compileOps, hitext]
      rfl
    · rcases hi with rfl | rfl | rfl | ⟨rfl, hleft⟩
      · exact .inl (hkind _ (by simp))
      · exact .inl hsa
      · exact .inl ha
      · exact .inr ⟨rfl, hleft⟩
  | loadMul =>
    refine ⟨Value.map₂ (· * ·) (v (f cc.sa)) (v (f cc.m)), ?_, components_map₂ _ _ _, .inl ?_⟩
    · simp only [List.map_cons, List.map_nil, CombinerOp.mapParams, stageText, compileOps, hsaText,
        hmText]
      rfl
    · rw [isVec3_map₂, hsa, Bool.or_comm, hmor]
  | loadAdd =>
    refine ⟨Value.map₂ (· + ·) (v (f cc.m)) (v (f cc.a)), ?_, components_map₂ _ _ _, .inl ?_⟩
    · simp only [List.map_cons, List.map_nil, CombinerOp.mapParams, stageText, compileOps, haText,
        hmText]
      rfl
    · rw [isVec3_map₂, ha, hmor]
  | loadMulAdd =>
    refine ⟨Value.map₂ (· + ·) (Value.map₂ (· * ·) (v (f cc.sa)) (v (f cc.m)))
      (v (f cc.a)), ?_, ?_, .inl ?_⟩
    · simp only [List.map_cons, List.map_nil, CombinerOp.mapParams, stageText, compileOps, hsaText,
        hmText, haText]
      rfl
    · rw [components_map₂, components_map₂]
      rfl
    · rw [isVec3_map₂, isVec3_map₂, hsa, ha, Bool.or_comm k, hmor, Bool.or_self]
  | subMul =>
    refine ⟨Value.map₂ (· * ·) (Value.map₂ (· - ·) (v (f cc.sa)) (v (f cc.sb)))
      (v (f cc.m)), ?_, ?_, .inl ?_⟩
    · simp only [List.map_cons, List.map_nil, CombinerOp.mapParams, stageText, compileOps, hsaText,
        hsbText, hmText]
      rfl
    · rw [components_map₂, components_map₂]
      rfl
    · rw [isVec3_map₂, isVec3_map₂, hsa, hsb, Bool.or_self, Bool.or_comm, hmor]
  | subMulAdd =>
    refine ⟨Value.map₂ (· + ·) (Value.map₂ (· * ·)
      (Value.map₂ (· - ·) (v (f cc.sa)) (v (f cc.sb))) (v (f cc.m))) (v (f cc.a)), ?_, ?_,
      .inl ?_⟩
    · simp only [List.map_cons, List.map_nil, CombinerOp.mapParams, stageText, compileOps, hsaText,
        hsbText, hmText, haText]
      rfl
    · rw [components_map₂, components_map₂, components_map₂]
      rfl
    · rw [isVec3_map₂, isVec3_map₂, isVec3_map₂, hsa, hsb, ha, Bool.or_self, Bool.or_comm k, hmor,
        Bool.or_self]
  | inter =>
    obtain ⟨z, hz, hcomponents, hvec⟩ := mix_spec (x := v (f cc.sb)) (y := v (f cc.sa))
      (a := v (f cc.m)) (hsb.trans hsa.symm) fun h => hsb.trans (hm h)
    refine ⟨z, ?_, hcomponents, .inl (hvec.trans hsb)⟩
    have hcall : primary v 43 [.mix, .lparen, .name (f cc.sb), .comma, .name (f cc.sa), .comma,
        .name (f cc.m), .rparen] = some (z, []) :=
      congrArg (Option.map fun z => (z, [])) hz
    simp only [List.map_cons, List.map_nil, CombinerOp.mapParams, stageText, compileOps, hsaText,
      hsbText, hmText, List.cons_append, List.nil_append, Bool.false_eq_true, if_false, evalText,
      List.length_cons, List.length_nil, Nat.reduceAdd, Nat.reduceMul, expression, product, hcall,
      factors, terms]

end StageTexts

end Mupen64plus
