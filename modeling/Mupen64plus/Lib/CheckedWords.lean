import Mathlib.Data.BitVec
import Mathlib.Data.Fin.VecNotation
import Mathlib.Tactic.FinCases
import Mupen64plus.Lib.FinLiterals

/-!
# Signed words whose overflow is undefined

Sums and products of signed words as C has them: they have a value only where the exact result
fits.

## Main definitions

- `addChecked`, `mulChecked` — `none` where the exact result does not fit
- `allFour` — four computations in a row, each of which may have no value

## Main results

- `addChecked_eq_some_iff`, `mulChecked_eq_some_iff`
- `allFour_eq_some_iff`
-/

namespace Mupen64plus

section

variable {w : ℕ}

def addChecked (x y : BitVec w) : Option (BitVec w) :=
  if x.saddOverflow y then none else some (x + y)

def mulChecked (x y : BitVec w) : Option (BitVec w) :=
  if x.smulOverflow y then none else some (x * y)

/-- The words whose value is `n`. -/
theorem toInt_eq_iff_of_fits {x : BitVec w} {n : ℤ} (h : x.toInt = n) (z : BitVec w) :
    z = x ↔ z.toInt = n := by
  rw [← h, BitVec.toInt_inj]

theorem not_fits {n : ℤ} (h : 2 ^ (w - 1) ≤ n ∨ n < -2 ^ (w - 1)) (z : BitVec w) : z.toInt ≠ n := by
  intro hz
  have hlow := BitVec.le_toInt z
  have hhigh := BitVec.toInt_lt (x := z)
  omega

theorem addChecked_eq_some_iff {x y z : BitVec w} :
    addChecked x y = some z ↔ z.toInt = x.toInt + y.toInt := by
  unfold addChecked
  split
  next h =>
    simp only [BitVec.saddOverflow, Bool.or_eq_true, decide_eq_true_eq] at h
    exact iff_of_false (fun hnone => nomatch hnone) (not_fits h z)
  next h =>
    rw [Option.some_inj, eq_comm]
    exact toInt_eq_iff_of_fits (BitVec.toInt_add_of_not_saddOverflow h) z

theorem mulChecked_eq_some_iff {x y z : BitVec w} :
    mulChecked x y = some z ↔ z.toInt = x.toInt * y.toInt := by
  unfold mulChecked
  split
  next h =>
    simp only [BitVec.smulOverflow, Bool.or_eq_true, decide_eq_true_eq] at h
    exact iff_of_false (fun hnone => nomatch hnone) (not_fits h z)
  next h =>
    rw [Option.some_inj, eq_comm]
    exact toInt_eq_iff_of_fits (BitVec.toInt_mul_of_not_smulOverflow h) z

/-- A value in the range is the value of a word. -/
theorem exists_toInt_eq {n : ℤ} (hw : 0 < w) (hlow : -2 ^ (w - 1) ≤ n) (hhigh : n < 2 ^ (w - 1)) :
    ∃ z : BitVec w, z.toInt = n :=
  ⟨BitVec.ofInt w n, BitVec.toInt_ofInt_eq_self hw hlow hhigh⟩

end

section

variable {α : Type*} {f : Fin 4 → Option α} {g : Fin 4 → α}

def allFour (f : Fin 4 → Option α) : Option (Fin 4 → α) := do
  let a ← f 0
  let b ← f 1
  let c ← f 2
  let d ← f 3
  return ![a, b, c, d]

theorem allFour_eq_some_iff : allFour f = some g ↔ ∀ k, f k = some (g k) := by
  constructor
  · intro h
    simp only [allFour, Option.bind_eq_bind, Option.bind_eq_some_iff, Option.pure_def,
      Option.some_inj] at h
    obtain ⟨a, ha, b, hb, c, hc, d, hd, rfl⟩ := h
    intro k
    fin_cases k
    · exact ha
    · exact hb
    · exact hc
    · exact hd
  · intro h
    simp only [allFour, h, Option.bind_eq_bind, Option.bind_some, Option.pure_def, Option.some_inj]
    ext k
    fin_cases k <;> rfl

end

end Mupen64plus
