import Mathlib.Data.BitVec
import Mathlib.Tactic.IntervalCases
import Mupen64plus.GLideN64.Combiner

/-!
# Programs of the color combiner

The muxes of one or two cycles of color and alpha become the stages of a shader. The numbers of the
shader are exact, those of a commutative ring. The tests between the two stages and what follows
them are left out.

## Main definitions

- `CombineMux`, `combinerCompile`, `shaderResult` — the muxes, the stages and the shader
- `rdpOneCycle`, `rdpTwoCycles` — what the muxes say

## Main results

- `shaderResult_oneCycle`, `shaderResult_twoCycles` — the shader computes what the muxes say
-/

namespace Mupen64plus

open ShaderExpressions

-- ════════════════════
-- The shader
-- ════════════════════

/-- `gDPCombine`, from its low bits on. -/
structure CombineMux where
  aA1 : BitVec 3
  sbA1 : BitVec 3
  aRGB1 : BitVec 3
  aA0 : BitVec 3
  sbA0 : BitVec 3
  aRGB0 : BitVec 3
  mA1 : BitVec 3
  saA1 : BitVec 3
  sbRGB1 : BitVec 4
  sbRGB0 : BitVec 4
  mRGB1 : BitVec 5
  saRGB1 : BitVec 4
  mA0 : BitVec 3
  saA0 : BitVec 3
  mRGB0 : BitVec 5
  saRGB0 : BitVec 4

/-- `saRGBExpanded`. -/
def saRgbExpanded (i : BitVec 4) : Gci :=
  [.combined, .texel0, .texel1, .primitive, .shade, .environment, .one, .noise].getD i.toNat .zero

/-- `sbRGBExpanded`. -/
def sbRgbExpanded (i : BitVec 4) : Gci :=
  [.combined, .texel0, .texel1, .primitive, .shade, .environment, .center, .k4].getD i.toNat .zero

/-- `mRGBExpanded`. -/
def mRgbExpanded (i : BitVec 5) : Gci :=
  [.combined, .texel0, .texel1, .primitive, .shade, .environment, .scale, .combinedAlpha,
    .texel0Alpha, .texel1Alpha, .primitiveAlpha, .shadeAlpha, .envAlpha, .lodFraction, .primLodFrac,
    .k5].getD i.toNat .zero

/-- `aRGBExpanded`. -/
def aRgbExpanded (i : BitVec 3) : Gci :=
  [.combined, .texel0, .texel1, .primitive, .shade, .environment, .one].getD i.toNat .zero

/-- `saAExpanded`, `sbAExpanded` and `aAExpanded`. -/
def sumAExpanded (i : BitVec 3) : Gci :=
  [.combined, .texel0Alpha, .texel1Alpha, .primitiveAlpha, .shadeAlpha, .envAlpha, .one].getD
    i.toNat .zero

/-- `mAExpanded`. -/
def mAExpanded (i : BitVec 3) : Gci :=
  [.lodFraction, .texel0Alpha, .texel1Alpha, .primitiveAlpha, .shadeAlpha, .envAlpha,
    .primLodFrac].getD i.toNat .zero

namespace CombineMux

variable (mux : CombineMux)

/-- `combine.mux`. -/
def ofBits (bits : BitVec 64) : CombineMux where
  aA1 := bits.extractLsb' 0 3
  sbA1 := bits.extractLsb' 3 3
  aRGB1 := bits.extractLsb' 6 3
  aA0 := bits.extractLsb' 9 3
  sbA0 := bits.extractLsb' 12 3
  aRGB0 := bits.extractLsb' 15 3
  mA1 := bits.extractLsb' 18 3
  saA1 := bits.extractLsb' 21 3
  sbRGB1 := bits.extractLsb' 24 4
  sbRGB0 := bits.extractLsb' 28 4
  mRGB1 := bits.extractLsb' 32 5
  saRGB1 := bits.extractLsb' 37 4
  mA0 := bits.extractLsb' 41 3
  saA0 := bits.extractLsb' 44 3
  mRGB0 := bits.extractLsb' 47 5
  saRGB0 := bits.extractLsb' 52 4

/-- `cc[0]`. -/
def color0 : CombineCycle where
  sa := saRgbExpanded mux.saRGB0
  sb := sbRgbExpanded mux.sbRGB0
  m := mRgbExpanded mux.mRGB0
  a := aRgbExpanded mux.aRGB0

/-- `cc[1]`. -/
def color1 : CombineCycle where
  sa := saRgbExpanded mux.saRGB1
  sb := sbRgbExpanded mux.sbRGB1
  m := mRgbExpanded mux.mRGB1
  a := aRgbExpanded mux.aRGB1

/-- `ac[0]`. -/
def alpha0 : CombineCycle where
  sa := sumAExpanded mux.saA0
  sb := sumAExpanded mux.sbA0
  m := mAExpanded mux.mA0
  a := sumAExpanded mux.aA0

/-- `ac[1]`. -/
def alpha1 : CombineCycle where
  sa := sumAExpanded mux.saA1
  sb := sumAExpanded mux.sbA1
  m := mAExpanded mux.mA1
  a := sumAExpanded mux.aA1

end CombineMux

/-- The check for 'combined' mux of one cycle, of the color. -/
def dropCombined : Gci → Gci
  | .combined | .combinedAlpha => .zero
  | i => i

/-- The same check of the alpha. -/
def dropCombinedAlpha : Gci → Gci
  | .combined => .zero
  | i => i

def CombineCycle.map (f : Gci → Gci) (cc : CombineCycle) : CombineCycle :=
  ⟨f cc.sa, f cc.sb, f cc.m, f cc.a⟩

/-- `G_CYC_1CYCLE` and the following. -/
inductive CycleType where
  | oneCycle | twoCycle | copy | fill
  deriving DecidableEq, Repr

/-- The stages of `Combiner_Compile`, of the color and of the alpha. -/
def combinerCompile (cycleType : CycleType) (mux : CombineMux) :
    List (List CombinerOp) × List (List CombinerOp) :=
  if cycleType = .oneCycle then
    ([(mux.color1.map dropCombined).simplifyCycle],
      [(mux.alpha1.map dropCombinedAlpha).simplifyCycle])
  else if mux.color0 = mux.color1 ∧ mux.alpha0 = mux.alpha1 then
    ([mux.color0.simplifyCycle], [mux.alpha0.simplifyCycle])
  else
    ([mux.color0.simplifyCycle, mux.color1.simplifyCycle],
      [mux.alpha0.simplifyCycle, mux.alpha1.simplifyCycle])

/-- `combinedColorC`; the other three are false as well unless there are two cycles. -/
def combinedColorC (cycleType : CycleType) (mux : CombineMux) : Bool :=
  cycleType = .twoCycle ∧ mux.mRGB1 = 0

def combinedColorAbd (cycleType : CycleType) (mux : CombineMux) : Bool :=
  cycleType = .twoCycle ∧ (mux.aRGB1 = 0 ∨ (mux.saRGB1 = 0 ∨ mux.sbRGB1 = 0) ∧ mux.mRGB1 ≠ 31)

def combinedAlphaC (cycleType : CycleType) (mux : CombineMux) : Bool :=
  cycleType = .twoCycle ∧ mux.mA1 = 0

def combinedAlphaAbd (cycleType : CycleType) (mux : CombineMux) : Bool :=
  cycleType = .twoCycle ∧ (mux.aA1 = 0 ∨ (mux.saA1 = 0 ∨ mux.sbA1 = 0) ∧ mux.mA1 ≠ 7)

def correctFirstStageParam : Gci → Gci
  | .texel1 => .texel0
  | .texel1Alpha => .texel0Alpha
  | i => i

def correctFirstStageParam2Cyc : Gci → Gci
  | .combined => .half
  | i => i

def correctSecondStageParam : Gci → Gci
  | .texel0 => .texel1
  | .texel1 => .texel0
  | .texel0Alpha => .texel1Alpha
  | .texel1Alpha => .texel0Alpha
  | i => i

/-- A color with its alpha. -/
abbrev Rgba (R : Type*) := (Fin 3 → R) × R

/-- What the shader reads of a pixel, and the four ways it extends signs. -/
structure PixelInputs (R : Type*) where
  texel0 : Rgba R
  texel1 : Rgba R
  primitive : Rgba R
  shade : Rgba R
  environment : Rgba R
  center : Rgba R
  scale : Rgba R
  lodFraction : R
  primLod : R
  snoise : R
  k4 : R
  k5 : R
  half : R
  signExtendColorC : (Fin 3 → R) → Fin 3 → R
  signExtendColorAbd : (Fin 3 → R) → Fin 3 → R
  signExtendAlphaC : R → R
  signExtendAlphaAbd : R → R

section Shader

variable {R : Type*} [CommRing R] (p : PixelInputs R) (combined : Rgba R)

/-- The statement behind the first color, if there is one. -/
def signExtendColor (cycleType : CycleType) (mux : CombineMux) : (Fin 3 → R) → Fin 3 → R :=
  if combinedColorC cycleType mux then p.signExtendColorC
  else if combinedColorAbd cycleType mux then p.signExtendColorAbd else id

/-- The statement behind the first alpha, if there is one. -/
def signExtendAlpha (cycleType : CycleType) (mux : CombineMux) : R → R :=
  if combinedAlphaC cycleType mux then p.signExtendAlphaC
  else if combinedAlphaAbd cycleType mux then p.signExtendAlphaAbd else id

/-- `ColorInput`; nothing reads past the table. -/
def colorInput : Gci → Value R
  | .combined => .vec3 combined.1
  | .texel0 => .vec3 p.texel0.1
  | .texel1 => .vec3 p.texel1.1
  | .primitive => .vec3 p.primitive.1
  | .shade => .vec3 p.shade.1
  | .environment => .vec3 p.environment.1
  | .center => .vec3 p.center.1
  | .scale => .vec3 p.scale.1
  | .combinedAlpha => .float combined.2
  | .texel0Alpha => .vec3 fun _ => p.texel0.2
  | .texel1Alpha => .vec3 fun _ => p.texel1.2
  | .primitiveAlpha => .vec3 fun _ => p.primitive.2
  | .shadeAlpha => .vec3 fun _ => p.shade.2
  | .envAlpha => .vec3 fun _ => p.environment.2
  | .lodFraction => .vec3 fun _ => p.lodFraction
  | .primLodFrac => .vec3 fun _ => p.primLod
  | .noise => .vec3 fun _ => p.half + p.half * p.snoise
  | .k4 => .vec3 fun _ => p.k4
  | .k5 => .vec3 fun _ => p.k5
  | .one => .vec3 fun _ => 1
  | .zero | .last => .vec3 fun _ => 0
  | .half => .vec3 fun _ => p.half

/-- `AlphaInput`, with `snoise()` for the noise; nothing reads past the table. -/
def alphaInput : Gci → Value R
  | .combined | .combinedAlpha => .float combined.2
  | .texel0 | .texel0Alpha => .float p.texel0.2
  | .texel1 | .texel1Alpha => .float p.texel1.2
  | .primitive | .primitiveAlpha => .float p.primitive.2
  | .shade | .shadeAlpha => .float p.shade.2
  | .environment | .envAlpha => .float p.environment.2
  | .center => .float p.center.2
  | .scale => .float p.scale.2
  | .lodFraction => .float p.lodFraction
  | .primLodFrac => .float p.primLod
  | .noise => .float p.snoise
  | .k4 => .float p.k4
  | .k5 => .float p.k5
  | .one => .float 1
  | .zero | .last => .float 0
  | .half => .float p.half

/-- A statement that assigns a stage of the color: the text has three components. -/
def assignColor (ops : List CombinerOp) : Option (Fin 3 → R) :=
  match evalText (colorInput p combined) (stageText colorText ops) with
  | some (.vec3 c) => some c
  | _ => none

/-- A statement that assigns a stage of the alpha: the text is a number. -/
def assignAlpha (ops : List CombinerOp) : Option R :=
  match evalText (alphaInput p combined) (stageText alphaText ops) with
  | some (.float x) => some x
  | _ => none

/-- `compileCombiner`, run: the color and alpha of the result. `combined_color` holds anything at
    first. No value is a shader that does not compile. -/
def shaderResult (cycleType : CycleType) (mux : CombineMux) : Option (Rgba R) := do
  let stages := combinerCompile cycleType mux
  let correct := if cycleType = .twoCycle then correctFirstStageParam2Cyc
    else correctFirstStageParam
  let first (ops : List (List CombinerOp)) := (ops.headD []).map (CombinerOp.mapParams correct)
  let alpha ← assignAlpha p combined (first stages.2)
  let alpha := signExtendAlpha p cycleType mux alpha
  let color ← assignColor p combined (first stages.1)
  let color := signExtendColor p cycleType mux color
  if cycleType = .twoCycle ∧ stages.1.length = 2 then
    let second (ops : List (List CombinerOp)) :=
      (ops.getD 1 []).map (CombinerOp.mapParams correctSecondStageParam)
    let alpha2 ← assignAlpha p (color, alpha) (second stages.2)
    let color2 ← assignColor p (color, alpha) (second stages.1)
    return (color2, alpha2)
  else
    return (color, alpha)

/-- The equation of a cycle, of inputs that are read through `f`. -/
def colorEquation (f : Gci → Gci) (cc : CombineCycle) : Fin 3 → R :=
  let v i := (colorInput p combined (f i)).components
  (v cc.sa - v cc.sb) * v cc.m + v cc.a

def alphaEquation (f : Gci → Gci) (cc : CombineCycle) : R :=
  let v i := (alphaInput p combined (f i)).components 0
  (v cc.sa - v cc.sb) * v cc.m + v cc.a

/-- What the muxes say of one cycle, the second: nothing is combined, and there is one texel. -/
def rdpOneCycle (mux : CombineMux) : Rgba R :=
  (colorEquation p combined (correctFirstStageParam ∘ dropCombined) mux.color1,
    alphaEquation p combined (correctFirstStageParam ∘ dropCombinedAlpha) mux.alpha1)

/-- What they say of the first of two cycles. -/
def rdpFirst (mux : CombineMux) : Rgba R :=
  (signExtendColor p .twoCycle mux
      (colorEquation p combined correctFirstStageParam2Cyc mux.color0),
    signExtendAlpha p .twoCycle mux
      (alphaEquation p combined correctFirstStageParam2Cyc mux.alpha0))

/-- What they say of two cycles: the second one reads the first one, and the texels exchanged. -/
def rdpTwoCycles (mux : CombineMux) : Rgba R :=
  (colorEquation p (rdpFirst p combined mux) correctSecondStageParam mux.color1,
    alphaEquation p (rdpFirst p combined mux) correctSecondStageParam mux.alpha1)

end Shader

/-- Nothing is left of the cycle but the alpha of the cycle before, which is no color. -/
def CombineCycle.OnlyAlpha (cc : CombineCycle) : Prop :=
  cc.sa = .one ∧ cc.sb = .zero ∧ cc.m = .combinedAlpha ∧ cc.a = .zero

instance CombineCycle.decidableOnlyAlpha (cc : CombineCycle) : Decidable cc.OnlyAlpha :=
  inferInstanceAs (Decidable (_ ∧ _ ∧ _ ∧ _))

/-- What two cycles read of different things. -/
def Gci.fed : Gci → Bool
  | .combined | .combinedAlpha | .texel0 | .texel1 | .texel0Alpha | .texel1Alpha => true
  | _ => false

/-- No cycle reads a texel or the cycle before, and no sign is extended. -/
structure CombineMux.Unfed (mux : CombineMux) : Prop where
  color : ∀ i ∈ [mux.color1.sa, mux.color1.sb, mux.color1.m, mux.color1.a], i.fed = false
  alpha : ∀ i ∈ [mux.alpha1.sa, mux.alpha1.sb, mux.alpha1.m, mux.alpha1.a], i.fed = false
  signs : mux.mA1 ≠ 0#3

-- ════════════════════
-- Stages
-- ════════════════════

section Stages

variable {R : Type*} [CommRing R] {p : PixelInputs R} {combined : Rgba R} {cc : CombineCycle}
  {f : Gci → Gci}

theorem colorInput_isVec3 (i : Gci) :
    (colorInput p combined i).isVec3 = true ↔ i ≠ .combinedAlpha := by
  cases i <;> simp [colorInput, Value.isVec3]

theorem alphaInput_isVec3 (i : Gci) : (alphaInput p combined i).isVec3 = false := by
  cases i <;> rfl

theorem alphaText_of_ne {i : Gci} (h : i ≠ .noise) : alphaText i = [.name i] := by
  cases i with
  | noise => exact absurd rfl h
  | _ => rfl

/-- A stage of the color is assigned its equation, but for an alpha alone, which is no color. -/
theorem assignColor_eq (hzero : f .zero = .zero) (hone : f .one = .one)
    (hf : ∀ i, f i = .combinedAlpha ↔ i = .combinedAlpha)
    (hcc : ∀ i ∈ [cc.sa, cc.sb, cc.a], i ≠ .combinedAlpha) :
    assignColor p combined (cc.simplifyCycle.map (CombinerOp.mapParams f)) =
      if cc.OnlyAlpha then none else some (colorEquation p combined f cc) := by
  by_cases honly : cc.OnlyAlpha
  · obtain ⟨hsa, hsb, hm, ha⟩ := honly
    have hstage : cc.simplifyCycle = [{ op := .load, param1 := .combinedAlpha }] := by
      obtain ⟨sa, sb, m, a⟩ := cc
      obtain rfl : sa = .one := hsa
      obtain rfl : sb = .zero := hsb
      obtain rfl : m = .combinedAlpha := hm
      obtain rfl : a = .zero := ha
      rfl
    have hfalpha : f .combinedAlpha = .combinedAlpha := (hf _).2 rfl
    rw [if_pos ⟨hsa, hsb, hm, ha⟩, hstage]
    simp only [List.map_cons, List.map_nil, CombinerOp.mapParams, hfalpha]
    rfl
  · have hvec : ∀ i ≠ .combinedAlpha, (colorInput p combined (f i)).isVec3 = true := fun i hi =>
      (colorInput_isVec3 _).2 fun h => hi ((hf i).1 h)
    obtain ⟨x, heval, hcomponents, hkind⟩ := evalText_shape colorText
      (v := colorInput p combined) (f := f) (k := true) (fun _ _ => rfl)
      (fun i hi => hvec i (by
        rcases List.mem_cons.1 hi with rfl | hi
        · exact Gci.noConfusion
        · exact hcc i hi))
      (fun _ => rfl) (simplifyCycle_shape cc)
    have hx : x.isVec3 = true := by
      rcases hkind with hkind | ⟨hkind, hsa, hsb, ha⟩
      · exact hkind
      · exact hkind.trans (hvec _ fun hm => honly ⟨hsa, hsb, hm, ha⟩)
    rw [if_neg honly, assignColor, heval]
    cases x with
    | float x => exact absurd hx Bool.false_ne_true
    | vec3 c =>
      refine congrArg some (Eq.trans hcomponents ?_)
      exact opsValue_simplifyCycle cc (by rw [hzero]; rfl) (by rw [hone]; rfl)

/-- A stage of the alpha is assigned its equation. -/
theorem assignAlpha_eq (hzero : f .zero = .zero) (hone : f .one = .one)
    (hf : ∀ i, f i = .noise ↔ i = .noise)
    (hcc : ∀ i ∈ [cc.sa, cc.sb, cc.m, cc.a], i ≠ .noise) :
    assignAlpha p combined (cc.simplifyCycle.map (CombinerOp.mapParams f)) =
      some (alphaEquation p combined f cc) := by
  obtain ⟨x, heval, hcomponents, hkind⟩ := evalText_shape alphaText
    (v := alphaInput p combined) (f := f) (k := false)
    (fun i hi => alphaText_of_ne fun h => by
      rcases List.mem_cons.1 hi with rfl | hi
      · exact Gci.noConfusion ((hf _).1 h)
      · exact hcc i hi ((hf i).1 h))
    (fun i _ => alphaInput_isVec3 (f i))
    (fun h => absurd ((alphaInput_isVec3 _).symm.trans h) Bool.false_ne_true)
    (simplifyCycle_shape cc)
  have hx : x.isVec3 = false := by
    rcases hkind with hkind | ⟨hkind, -⟩
    · exact hkind
    · exact hkind.trans (alphaInput_isVec3 _)
  rw [assignAlpha, heval]
  cases x with
  | vec3 c => exact absurd hx (Bool.false_ne_true ·.symm)
  | float x =>
    refine congrArg some ((congrFun hcomponents 0).trans ?_)
    exact congrFun (opsValue_simplifyCycle cc (by rw [hzero]; rfl) (by rw [hone]; rfl)) 0

end Stages

-- ════════════════════
-- Shaders
-- ════════════════════

theorem saRgbExpanded_ne : ∀ i, saRgbExpanded i ≠ .combinedAlpha := by decide

theorem sbRgbExpanded_ne : ∀ i, sbRgbExpanded i ≠ .combinedAlpha := by decide

theorem aRgbExpanded_ne : ∀ i, aRgbExpanded i ≠ .combinedAlpha := by decide

theorem sumAExpanded_ne : ∀ i, sumAExpanded i ≠ .noise := by decide

theorem mAExpanded_ne : ∀ i, mAExpanded i ≠ .noise := by decide

section Shaders

variable {R : Type*} [CommRing R] (p : PixelInputs R) (combined : Rgba R) (mux : CombineMux)

theorem assignColor0 {f : Gci → Gci} (hzero : f .zero = .zero) (hone : f .one = .one)
    (hf : ∀ i, f i = .combinedAlpha ↔ i = .combinedAlpha) :
    assignColor p combined (mux.color0.simplifyCycle.map (CombinerOp.mapParams f)) =
      if mux.color0.OnlyAlpha then none else some (colorEquation p combined f mux.color0) := by
  refine assignColor_eq hzero hone hf ?_
  simp [CombineMux.color0, saRgbExpanded_ne, sbRgbExpanded_ne, aRgbExpanded_ne]

theorem assignColor1 {f : Gci → Gci} (hzero : f .zero = .zero) (hone : f .one = .one)
    (hf : ∀ i, f i = .combinedAlpha ↔ i = .combinedAlpha) :
    assignColor p combined (mux.color1.simplifyCycle.map (CombinerOp.mapParams f)) =
      if mux.color1.OnlyAlpha then none else some (colorEquation p combined f mux.color1) := by
  refine assignColor_eq hzero hone hf ?_
  simp [CombineMux.color1, saRgbExpanded_ne, sbRgbExpanded_ne, aRgbExpanded_ne]

theorem assignAlpha0 {f : Gci → Gci} (hzero : f .zero = .zero) (hone : f .one = .one)
    (hf : ∀ i, f i = .noise ↔ i = .noise) :
    assignAlpha p combined (mux.alpha0.simplifyCycle.map (CombinerOp.mapParams f)) =
      some (alphaEquation p combined f mux.alpha0) := by
  refine assignAlpha_eq hzero hone hf ?_
  simp [CombineMux.alpha0, sumAExpanded_ne, mAExpanded_ne]

theorem assignAlpha1 {f : Gci → Gci} (hzero : f .zero = .zero) (hone : f .one = .one)
    (hf : ∀ i, f i = .noise ↔ i = .noise) :
    assignAlpha p combined (mux.alpha1.simplifyCycle.map (CombinerOp.mapParams f)) =
      some (alphaEquation p combined f mux.alpha1) := by
  refine assignAlpha_eq hzero hone hf ?_
  simp [CombineMux.alpha1, sumAExpanded_ne, mAExpanded_ne]

/-- Inputs that are the same in both cycles. -/
theorem colorInput_unfed {i : Gci} (h : i.fed = false) (combined' : Rgba R) :
    colorInput p combined (correctFirstStageParam2Cyc i) =
      colorInput p combined' (correctSecondStageParam i) := by
  cases i <;> first | rfl | exact absurd h (by decide)

theorem alphaInput_unfed {i : Gci} (h : i.fed = false) (combined' : Rgba R) :
    alphaInput p combined (correctFirstStageParam2Cyc i) =
      alphaInput p combined' (correctSecondStageParam i) := by
  cases i <;> first | rfl | exact absurd h (by decide)

theorem colorEquation_congr {combined combined' : Rgba R} {f g : Gci → Gci} {cc : CombineCycle}
    (h : ∀ i ∈ [cc.sa, cc.sb, cc.m, cc.a],
      colorInput p combined (f i) = colorInput p combined' (g i)) :
    colorEquation p combined f cc = colorEquation p combined' g cc := by
  simp only [List.mem_cons, List.not_mem_nil, or_false, forall_eq_or_imp, forall_eq] at h
  obtain ⟨hsa, hsb, hm, ha⟩ := h
  simp only [colorEquation, hsa, hsb, hm, ha]

theorem alphaEquation_congr {combined combined' : Rgba R} {f g : Gci → Gci} {cc : CombineCycle}
    (h : ∀ i ∈ [cc.sa, cc.sb, cc.m, cc.a],
      alphaInput p combined (f i) = alphaInput p combined' (g i)) :
    alphaEquation p combined f cc = alphaEquation p combined' g cc := by
  simp only [List.mem_cons, List.not_mem_nil, or_false, forall_eq_or_imp, forall_eq] at h
  obtain ⟨hsa, hsb, hm, ha⟩ := h
  simp only [alphaEquation, hsa, hsb, hm, ha]

/-- Two equal cycles that read nothing of different things are one. -/
theorem rdpTwoCycles_of_equal (hcolor : mux.color0 = mux.color1) (halpha : mux.alpha0 = mux.alpha1)
    (h : mux.Unfed) : rdpTwoCycles p combined mux = rdpFirst p combined mux := by
  have hne : ∀ (i : Gci), i.fed = false → i ≠ .combined := fun i hi hcombined =>
    absurd (hcombined ▸ hi) (by decide)
  have hsignColor : signExtendColor p .twoCycle mux = id := by
    have hm : mux.mRGB1 ≠ 0#5 := fun h0 => hne _ (h.color mux.color1.m (by simp))
      (congrArg mRgbExpanded h0)
    have ha : mux.aRGB1 ≠ 0#3 := fun h0 => hne _ (h.color mux.color1.a (by simp))
      (congrArg aRgbExpanded h0)
    have hsa : mux.saRGB1 ≠ 0#4 := fun h0 => hne _ (h.color mux.color1.sa (by simp))
      (congrArg saRgbExpanded h0)
    have hsb : mux.sbRGB1 ≠ 0#4 := fun h0 => hne _ (h.color mux.color1.sb (by simp))
      (congrArg sbRgbExpanded h0)
    simp [signExtendColor, combinedColorC, combinedColorAbd, hm, ha, hsa, hsb]
  have hsignAlpha : signExtendAlpha p .twoCycle mux = id := by
    have ha : mux.aA1 ≠ 0#3 := fun h0 => hne _ (h.alpha mux.alpha1.a (by simp))
      (congrArg sumAExpanded h0)
    have hsa : mux.saA1 ≠ 0#3 := fun h0 => hne _ (h.alpha mux.alpha1.sa (by simp))
      (congrArg sumAExpanded h0)
    have hsb : mux.sbA1 ≠ 0#3 := fun h0 => hne _ (h.alpha mux.alpha1.sb (by simp))
      (congrArg sumAExpanded h0)
    simp [signExtendAlpha, combinedAlphaC, combinedAlphaAbd, h.signs, ha, hsa, hsb]
  refine Prod.ext ?_ ?_
  · show _ = signExtendColor p .twoCycle mux _
    rw [hsignColor, hcolor]
    exact colorEquation_congr p fun i hi => (colorInput_unfed p combined (h.color i hi) _).symm
  · show _ = signExtendAlpha p .twoCycle mux _
    rw [hsignAlpha, halpha]
    exact alphaEquation_congr p fun i hi => (alphaInput_unfed p combined (h.alpha i hi) _).symm

/-- **Two cycles**: the shader computes what the muxes say, or does not compile because of a color
    that is only an alpha. Equal cycles become one stage, so they must not read different things. -/
theorem shaderResult_twoCycles
    (hequal : mux.color0 = mux.color1 → mux.alpha0 = mux.alpha1 → mux.Unfed) :
    shaderResult p combined .twoCycle mux =
      if mux.color0.OnlyAlpha ∨ mux.color1.OnlyAlpha then none
      else some (rdpTwoCycles p combined mux) := by
  have hfirst : ∀ i, correctFirstStageParam2Cyc i = .combinedAlpha ↔ i = .combinedAlpha := by
    intro i
    cases i <;> decide
  have hfirstNoise : ∀ i, correctFirstStageParam2Cyc i = .noise ↔ i = .noise := by
    intro i
    cases i <;> decide
  have hsecond : ∀ i, correctSecondStageParam i = .combinedAlpha ↔ i = .combinedAlpha := by
    intro i
    cases i <;> decide
  have hsecondNoise : ∀ i, correctSecondStageParam i = .noise ↔ i = .noise := by
    intro i
    cases i <;> decide
  have halpha0 := assignAlpha0 p combined mux (f := correctFirstStageParam2Cyc) rfl rfl hfirstNoise
  have hcolor0 := assignColor0 p combined mux (f := correctFirstStageParam2Cyc) rfl rfl hfirst
  by_cases hstages : mux.color0 = mux.color1 ∧ mux.alpha0 = mux.alpha1
  · obtain ⟨hcolor, halpha⟩ := hstages
    have hunfed := hequal hcolor halpha
    have honly : ¬mux.color1.OnlyAlpha := fun honly =>
      absurd (honly.2.2.1 ▸ hunfed.color mux.color1.m (by simp)) (by decide)
    rw [rdpTwoCycles_of_equal p combined mux hcolor halpha hunfed, hcolor,
      if_neg (not_or.2 ⟨honly, honly⟩)]
    have hcompile : combinerCompile .twoCycle mux =
        ([mux.color0.simplifyCycle], [mux.alpha0.simplifyCycle]) := by
      rw [combinerCompile, if_neg (by decide), if_pos ⟨hcolor, halpha⟩]
    rw [hcolor, if_neg honly] at hcolor0
    simp only [shaderResult, hcompile, if_true, List.headD_cons, halpha0]
    rw [hcolor, hcolor0]
    simp [rdpFirst, hcolor]
  · have hcompile : combinerCompile .twoCycle mux =
        ([mux.color0.simplifyCycle, mux.color1.simplifyCycle],
          [mux.alpha0.simplifyCycle, mux.alpha1.simplifyCycle]) := by
      rw [combinerCompile, if_neg (by decide), if_neg hstages]
    simp only [shaderResult, hcompile, if_true, List.headD_cons, halpha0, hcolor0]
    by_cases honly0 : mux.color0.OnlyAlpha
    · simp [honly0]
    · have halpha1 := assignAlpha1 p (rdpFirst p combined mux) mux (f := correctSecondStageParam)
        rfl rfl hsecondNoise
      have hcolor1 := assignColor1 p (rdpFirst p combined mux) mux (f := correctSecondStageParam)
        rfl rfl hsecond
      have hcombined : (signExtendColor p .twoCycle mux
          (colorEquation p combined correctFirstStageParam2Cyc mux.color0),
          signExtendAlpha p .twoCycle mux
            (alphaEquation p combined correctFirstStageParam2Cyc mux.alpha0)) =
          rdpFirst p combined mux := rfl
      simp only [if_neg honly0, Option.bind_some, Option.bind_eq_bind, List.length_cons,
        List.length_nil, Nat.reduceAdd, and_self, if_true, List.getD_cons_succ, List.getD_cons_zero,
        hcombined, halpha1, hcolor1]
      by_cases honly1 : mux.color1.OnlyAlpha
      · simp [honly1]
      · simp [honly0, honly1, rdpTwoCycles]

/-- **One cycle**: the shader compiles and computes what the second muxes say. -/
theorem shaderResult_oneCycle :
    shaderResult p combined .oneCycle mux = some (rdpOneCycle p combined mux) := by
  have hdrop : ∀ i, dropCombined i ≠ .combinedAlpha := by
    intro i
    cases i <;> decide
  have hdropNoise : ∀ i ≠ Gci.noise, dropCombinedAlpha i ≠ .noise := by
    intro i
    cases i <;> decide
  have hfirst : ∀ i, correctFirstStageParam i = .combinedAlpha ↔ i = .combinedAlpha := by
    intro i
    cases i <;> decide
  have hfirstNoise : ∀ i, correctFirstStageParam i = .noise ↔ i = .noise := by
    intro i
    cases i <;> decide
  have hcolor : assignColor p combined ((mux.color1.map dropCombined).simplifyCycle.map
      (CombinerOp.mapParams correctFirstStageParam)) =
      some (colorEquation p combined (correctFirstStageParam ∘ dropCombined) mux.color1) := by
    refine (assignColor_eq rfl rfl hfirst ?_).trans (if_neg fun honly => hdrop _ honly.2.2.1)
    simp [CombineCycle.map, hdrop]
  have halpha : assignAlpha p combined ((mux.alpha1.map dropCombinedAlpha).simplifyCycle.map
      (CombinerOp.mapParams correctFirstStageParam)) =
      some (alphaEquation p combined (correctFirstStageParam ∘ dropCombinedAlpha) mux.alpha1) := by
    refine assignAlpha_eq rfl rfl hfirstNoise ?_
    simp [CombineCycle.map, CombineMux.alpha1, hdropNoise, sumAExpanded_ne, mAExpanded_ne]
  have hsignColor : signExtendColor p .oneCycle mux = id := rfl
  have hsignAlpha : signExtendAlpha p .oneCycle mux = id := rfl
  have hcompile : combinerCompile .oneCycle mux = ([(mux.color1.map dropCombined).simplifyCycle],
      [(mux.alpha1.map dropCombinedAlpha).simplifyCycle]) := rfl
  simp [shaderResult, hcompile, hcolor, halpha, hsignColor, hsignAlpha, rdpOneCycle]

end Shaders

/-- A pixel with numbers that can be told apart. -/
def samplePixel : PixelInputs ℤ where
  texel0 := (fun _ => 1, 4)
  texel1 := (fun _ => 5, 8)
  primitive := (fun _ => 9, 12)
  shade := (fun _ => 13, 16)
  environment := (fun _ => 17, 20)
  center := (fun _ => 21, 24)
  scale := (fun _ => 25, 28)
  lodFraction := 29
  primLod := 30
  snoise := 31
  k4 := 32
  k5 := 33
  half := 34
  signExtendColorC := fun c => c
  signExtendColorAbd := fun c => c
  signExtendAlphaC := fun x => x
  signExtendAlphaAbd := fun x => x

/-- Both cycles interpolate between the primitive color and the color of the environment. -/
def blendMux : CombineMux where
  aA1 := 5
  sbA1 := 5
  aRGB1 := 5
  aA0 := 5
  sbA0 := 5
  aRGB0 := 5
  mA1 := 4
  saA1 := 3
  sbRGB1 := 5
  sbRGB0 := 5
  mRGB1 := 4
  saRGB1 := 3
  mA0 := 4
  saA0 := 3
  mRGB0 := 4
  saRGB0 := 3

theorem shaderResult_blendMux :
    shaderResult samplePixel (0, 0) .twoCycle blendMux =
      if blendMux.color0.OnlyAlpha ∨ blendMux.color1.OnlyAlpha then none
      else some (rdpTwoCycles samplePixel (0, 0) blendMux) :=
  shaderResult_twoCycles samplePixel (0, 0) blendMux fun _ _ =>
    ⟨by decide, by decide, by decide⟩

end Mupen64plus
