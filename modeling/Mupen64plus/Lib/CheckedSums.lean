import Mathlib.Algebra.BigOperators.Fin
import Mathlib.Algebra.Order.BigOperators.Group.Finset
import Mathlib.Algebra.Order.Ring.Abs
import Mathlib.Algebra.Order.Ring.Int

/-!
# Sums that may overflow

A computation over the integers whose results must fit in signed words has a value under a condition
on its inputs. `Yields` states this condition together with the value, and has one rule for each way
of putting computations together.

## Main definitions

- `FitsIn`, `checked` — an integer that must fit in a signed word
- `sumTurns` — a sum accumulated in a signed word
- `allOf` — computations side by side
- `Yields` — when a computation has a value, and which
- `outputs`, `exactOutputs`, `AllAlong` — a loop that puts out a value each turn

## Main results

- `Yields.bind`, `Yields.map`
- `sumTurns_yields` — every partial sum must fit
- `outputs_eq_some_iff`
-/

namespace Mupen64plus

section

variable {α β : Type*}

/-- `x` has the value `a` if `c` holds, and no value otherwise. -/
def Yields (x : Option α) (c : Prop) (a : α) : Prop := ∀ z, x = some z ↔ c ∧ z = a

namespace Yields

variable {x : Option α} {c : Prop} {a : α}

theorem pure (a : α) : Yields (some a) True a := by
  intro z
  rw [Option.some_inj, true_and, eq_comm]

theorem eq_some (h : Yields x c a) (hc : c) : x = some a := (h a).mpr ⟨hc, rfl⟩

theorem eq_some_iff (h : Yields x c a) : x = some a ↔ c := by
  rw [h a]
  exact and_iff_left rfl

theorem eq_none (h : Yields x c a) (hc : ¬c) : x = none := by
  cases hx : x with
  | none => rfl
  | some z => exact absurd ((h z).mp hx).1 hc

theorem congr {c' : Prop} (h : Yields x c a) (hc : c ↔ c') : Yields x c' a := by
  intro z
  rw [h z, hc]

/-- A computation that goes on with the value of another. -/
theorem bind {f : α → Option β} {d : Prop} {b : β} (h : Yields x c a) (hf : Yields (f a) d b) :
    Yields (x.bind f) (c ∧ d) b := by
  intro z
  by_cases hc : c
  · rw [h.eq_some hc, Option.bind_some, hf z, and_assoc]
    exact (and_iff_right hc).symm
  · rw [h.eq_none hc, Option.bind_none]
    exact iff_of_false (fun hnone => nomatch hnone) fun hz => hc hz.1.1

theorem map (h : Yields x c a) (f : α → β) : Yields (x.map f) c (f a) := by
  rw [Option.map_eq_bind]
  exact (h.bind (f := some ∘ f) (pure (f a))).congr (iff_of_eq (and_true c))

theorem map_eq_some_iff {f : α → β} {b : β} (h : Yields x c a) :
    x.map f = some b ↔ c ∧ b = f a := h.map f b

end Yields

/-- Computations side by side, each of which must have a value. -/
def allOf {n : ℕ} (f : Fin n → Option α) : Option (Fin n → α) :=
  if h : ∀ i, (f i).isSome then some fun i => (f i).get (h i) else none

theorem allOf_eq_some_iff {n : ℕ} {f : Fin n → Option α} {g : Fin n → α} :
    allOf f = some g ↔ ∀ i, f i = some (g i) := by
  unfold allOf
  split
  next h =>
    rw [Option.some_inj, funext_iff]
    exact forall_congr' fun i => by rw [Option.eq_some_iff_get_eq, exists_prop_of_true (h i)]
  next h =>
    refine iff_of_false (fun hnone => nomatch hnone) fun hall => h fun i => ?_
    rw [hall i]
    rfl

end

section

variable {w : ℕ}

/-- `n` is the value of a signed word of `w` bits. -/
def FitsIn (w : ℕ) (n : ℤ) : Prop := -2 ^ (w - 1) ≤ n ∧ n < 2 ^ (w - 1)

instance decidableFitsIn (w : ℕ) (n : ℤ) : Decidable (FitsIn w n) :=
  inferInstanceAs (Decidable (_ ∧ _))

/-- The result of an operation on signed words. -/
def checked (w : ℕ) (n : ℤ) : Option ℤ := if FitsIn w n then some n else none

/-- The first `n` turns of a loop that adds `term` to an accumulator of `w` bits. -/
def sumTurns (w : ℕ) (term : ℕ → ℤ) : ℕ → Option ℤ
  | 0 => some 0
  | n + 1 => (sumTurns w term n).bind fun accu => checked w (accu + term n)

theorem checked_yields (n : ℤ) : Yields (checked w n) (FitsIn w n) n := by
  intro z
  unfold checked
  split
  next h => rw [Option.some_inj, eq_comm, and_iff_right h]
  next h => exact iff_of_false (fun hnone => nomatch hnone) fun hz => h hz.1

theorem fitsIn_zero : FitsIn w 0 :=
  ⟨neg_nonpos.mpr (pow_nonneg (by decide) _), pow_pos (by decide) _⟩

theorem fitsIn_of_abs_le {n : ℤ} (h : |n| ≤ 2 ^ (w - 1) - 1) : FitsIn w n := by
  have hn := abs_le.mp h
  exact ⟨by omega, by omega⟩

/-- Every partial sum must fit. -/
theorem sumTurns_yields (term : ℕ → ℤ) (n : ℕ) : Yields (sumTurns w term n)
    (∀ m ≤ n, FitsIn w (∑ j ∈ Finset.range m, term j)) (∑ j ∈ Finset.range n, term j) := by
  induction n with
  | zero => exact (Yields.pure 0).congr (iff_of_true trivial fun m hm => by
      rw [Nat.le_zero.mp hm]
      exact fitsIn_zero)
  | succ n ih =>
    have hturn : Yields (sumTurns w term (n + 1)) (_ ∧ _) (_ + term n) :=
      ih.bind (checked_yields _)
    rw [← Finset.sum_range_succ] at hturn
    refine hturn.congr ?_
    constructor
    · rintro ⟨hle, hlast⟩ m hm
      rcases Nat.le_succ_iff.mp hm with hm | rfl
      · exact hle m hm
      · exact hlast
    · exact fun h => ⟨fun m hm => h m (Nat.le_succ_of_le hm), h (n + 1) le_rfl⟩

/-- Terms of small total magnitude. -/
theorem fitsIn_sum_of_abs_le {term : ℕ → ℤ} {n : ℕ}
    (h : ∑ j ∈ Finset.range n, |term j| ≤ 2 ^ (w - 1) - 1) :
    ∀ m ≤ n, FitsIn w (∑ j ∈ Finset.range m, term j) := by
  intro m hm
  refine fitsIn_of_abs_le ?_
  calc |∑ j ∈ Finset.range m, term j| ≤ ∑ j ∈ Finset.range m, |term j| :=
        Finset.abs_sum_le_sum_abs _ _
    _ ≤ ∑ j ∈ Finset.range n, |term j| :=
        Finset.sum_le_sum_of_subset_of_nonneg (Finset.range_mono hm) fun j _ _ => abs_nonneg _
    _ ≤ 2 ^ (w - 1) - 1 := h

end

section

variable {α β σ : Type*}

/-- A loop over a list that puts out one value a turn. `next` is the state for the turn after. -/
def outputs (step : σ → α → Option β) (next : α → β → σ) : σ → List α → Option (List β)
  | _, [] => some []
  | s, a :: as => (step s a).bind fun b => (outputs step next (next a b) as).map (b :: ·)

/-- The same loop, of whose turns each has a value. -/
def exactOutputs (exact : σ → α → β) (next : α → β → σ) : σ → List α → List β
  | _, [] => []
  | s, a :: as => exact s a :: exactOutputs exact next (next a (exact s a)) as

/-- `c` holds in each turn. -/
def AllAlong (c : σ → α → Prop) (exact : σ → α → β) (next : α → β → σ) : σ → List α → Prop
  | _, [] => True
  | s, a :: as => c s a ∧ AllAlong c exact next (next a (exact s a)) as

/-- The outputs of the two loops are the same if those of each turn are. -/
theorem outputs_eq_some_iff {step : σ → α → Option β} {exact : σ → α → β} {next : α → β → σ}
    {c : σ → α → Prop} (h : ∀ s a, step s a = some (exact s a) ↔ c s a) (s : σ) (as : List α) :
    outputs step next s as = some (exactOutputs exact next s as) ↔
      AllAlong c exact next s as := by
  induction as generalizing s with
  | nil => exact iff_of_true rfl trivial
  | cons a as ih =>
    rw [outputs, exactOutputs, AllAlong, ← h, ← ih, Option.bind_eq_some_iff]
    constructor
    · rintro ⟨b, hb, hrest⟩
      obtain ⟨bs, hbs, heq⟩ := Option.map_eq_some_iff.mp hrest
      obtain ⟨rfl, rfl⟩ := List.cons.inj heq
      exact ⟨hb, hbs⟩
    · rintro ⟨hb, hbs⟩
      exact ⟨_, hb, Option.map_eq_some_iff.mpr ⟨_, hbs, rfl⟩⟩

end

end Mupen64plus
