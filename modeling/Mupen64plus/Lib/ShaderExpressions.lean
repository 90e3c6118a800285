import Mathlib.Algebra.Ring.Pi
import Mathlib.Tactic.Common

/-!
# Expressions of shaders

Expressions as they are printed: sums and products of names, brackets and calls of `mix`, over
numbers and triples of numbers. A product binds closer than a sum, and both are read from the left.

## Main definitions

- `Token` — the words of an expression, with names of any type
- `Value` — a number, or three
- `evalText` — the value of a text, all of which is an expression

## Main results

- `components_map₂`, `mix_spec` — operations component by component
-/

namespace ShaderExpressions

inductive Token (ι : Type*) where
  | lparen | rparen | plus | minus | times | comma | mix
  | name (i : ι)
  deriving DecidableEq, Repr

/-- A number, or three. -/
inductive Value (R : Type*) where
  | float (x : R)
  | vec3 (c : Fin 3 → R)

namespace Value

variable {R : Type*} [CommRing R]

def components : Value R → Fin 3 → R
  | float x => fun _ => x
  | vec3 c => c

def isVec3 : Value R → Bool
  | float _ => false
  | vec3 _ => true

/-- An operation on numbers, component by component where one operand has three. -/
def map₂ (f : R → R → R) : Value R → Value R → Value R
  | float x, float y => float (f x y)
  | float x, vec3 d => vec3 fun i => f x (d i)
  | vec3 c, y => vec3 fun i => f (c i) (y.components i)

/-- `mix`, of two values of one type. -/
def mix : Value R → Value R → Value R → Option (Value R)
  | float x, float y, float a => some (float (x * (1 - a) + y * a))
  | vec3 c, vec3 d, a => some (vec3 fun i => c i * (1 - a.components i) + d i * a.components i)
  | _, _, _ => none

end Value

section Texts

variable {ι R : Type*} [CommRing R] (v : ι → Value R)

mutual

/-- A name, an expression in brackets or a call. -/
def primary : ℕ → List (Token ι) → Option (Value R × List (Token ι))
  | 0, _ => none
  | n + 1, ts =>
    match ts with
    | .name i :: ts => some (v i, ts)
    | .lparen :: ts =>
      match expression n ts with
      | some (x, .rparen :: ts) => some (x, ts)
      | _ => none
    | .mix :: .lparen :: ts =>
      match expression n ts with
      | some (x, .comma :: ts) =>
        match expression n ts with
        | some (y, .comma :: ts) =>
          match expression n ts with
          | some (a, .rparen :: ts) => (Value.mix x y a).map fun z => (z, ts)
          | _ => none
        | _ => none
      | _ => none
    | _ => none

/-- What a value is multiplied with. -/
def factors : ℕ → Value R → List (Token ι) → Option (Value R × List (Token ι))
  | 0, _, _ => none
  | n + 1, x, ts =>
    match ts with
    | .times :: ts =>
      match primary n ts with
      | some (y, ts) => factors n (Value.map₂ (· * ·) x y) ts
      | none => none
    | ts => some (x, ts)

/-- Products that are added and subtracted. -/
def terms : ℕ → Value R → List (Token ι) → Option (Value R × List (Token ι))
  | 0, _, _ => none
  | n + 1, x, ts =>
    match ts with
    | .plus :: ts =>
      match product n ts with
      | some (y, ts) => terms n (Value.map₂ (· + ·) x y) ts
      | none => none
    | .minus :: ts =>
      match product n ts with
      | some (y, ts) => terms n (Value.map₂ (· - ·) x y) ts
      | none => none
    | ts => some (x, ts)

def product : ℕ → List (Token ι) → Option (Value R × List (Token ι))
  | 0, _ => none
  | n + 1, ts =>
    match primary n ts with
    | some (x, ts) => factors n x ts
    | none => none

def expression : ℕ → List (Token ι) → Option (Value R × List (Token ι))
  | 0, _ => none
  | n + 1, ts =>
    match product n ts with
    | some (x, ts) => terms n x ts
    | none => none

end

/-- The value of a text, all of which is an expression. -/
def evalText (ts : List (Token ι)) : Option (Value R) :=
  match expression v (5 * ts.length + 5) ts with
  | some (x, []) => some x
  | _ => none

end Texts

section Values

variable {R : Type*}

@[simp] theorem components_map₂ (g : R → R → R) (x y : Value R) :
    (Value.map₂ g x y).components = fun i => g (x.components i) (y.components i) := by
  cases x <;> cases y <;> rfl

@[simp] theorem isVec3_map₂ (g : R → R → R) (x y : Value R) :
    (Value.map₂ g x y).isVec3 = (x.isVec3 || y.isVec3) := by
  cases x <;> cases y <;> rfl

theorem mix_spec [CommRing R] {x y a : Value R} (hxy : x.isVec3 = y.isVec3)
    (ha : a.isVec3 = true → x.isVec3 = true) : ∃ z, Value.mix x y a = some z ∧
      z.components = x.components * (1 - a.components) + y.components * a.components ∧
      z.isVec3 = x.isVec3 := by
  cases x with
  | float x =>
    cases y with
    | float y =>
      cases a with
      | float a => exact ⟨_, rfl, rfl, rfl⟩
      | vec3 a => exact absurd (ha rfl) Bool.false_ne_true
    | vec3 y => exact absurd hxy Bool.false_ne_true
  | vec3 x =>
    cases y with
    | float y => exact absurd hxy.symm Bool.false_ne_true
    | vec3 y => exact ⟨_, rfl, rfl, rfl⟩

end Values

end ShaderExpressions
