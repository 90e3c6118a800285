import Mathlib.Data.BitVec
import Mathlib.Logic.Function.Iterate
import Mathlib.Tactic.Ring

/-!
# Loops with fuel

A `while` loop with a bound on its turns. Where the body does not touch what the condition reads,
the loop makes a number of turns that does not depend on the body.

## Main definitions

- `whileLoop`
- `downTo0` — a loop that counts a word down to zero
- `Ends` — a computation with fuel and its result

## Main results

- `whileLoop_eq` — the fuel that a loop needs, and what it then computes
- `downTo0_eq` — the turns of a count that the step divides
- `Ends.bind`, `Ends.exists_iff`, `Ends.unique`
- `whileLoop_ends` — a loop whose turns decrease a measure
-/

namespace Mupen64plus

section

variable {α : Type*} {cond : α → Bool} {body : α → α}

/-- `while (cond) body`, or `none` if `fuel` turns do not end it. -/
def whileLoop (cond : α → Bool) (body : α → α) : ℕ → α → Option α
  | 0, a => if cond a then none else some a
  | fuel + 1, a => if cond a then whileLoop cond body fuel (body a) else some a

/-- A loop whose condition holds for `n` turns and then fails needs `n` turns. -/
theorem whileLoop_eq {n : ℕ} {a : α} (hgo : ∀ i < n, cond (body^[i] a)) (hstop : ¬cond (body^[n] a))
    (fuel : ℕ) : whileLoop cond body fuel a = if n ≤ fuel then some (body^[n] a) else none := by
  induction fuel generalizing a n with
  | zero =>
    rw [whileLoop]
    cases n with
    | zero =>
      have hnot : ¬cond a := hstop
      rw [if_neg hnot, if_pos le_rfl, Function.iterate_zero_apply]
    | succ n =>
      have hnow : cond a := hgo 0 n.succ_pos
      rw [if_pos hnow, if_neg (Nat.not_succ_le_zero n)]
  | succ fuel ih =>
    rw [whileLoop]
    cases n with
    | zero =>
      have hnot : ¬cond a := hstop
      rw [if_neg hnot, if_pos (Nat.zero_le _), Function.iterate_zero_apply]
    | succ n =>
      have hnow : cond a := hgo 0 n.succ_pos
      rw [if_pos hnow, ih (fun i hi => hgo (i + 1) (Nat.succ_lt_succ hi)) hstop,
        Function.iterate_succ_apply]
      simp only [Nat.succ_le_succ_iff]

/-- A loop whose condition never fails does not end. -/
theorem whileLoop_eq_none {a : α} (hgo : ∀ i, cond (body^[i] a)) (fuel : ℕ) :
    whileLoop cond body fuel a = none := by
  induction fuel generalizing a with
  | zero => exact if_pos (hgo 0)
  | succ fuel ih =>
    have hnow : cond a := hgo 0
    rw [whileLoop, if_pos hnow]
    exact ih fun i => hgo (i + 1)

end

section

variable {w : ℕ} {σ : Type*} {body : σ → σ} {step count : BitVec w}

/-- One turn of a countdown. -/
def countTurn (body : σ → σ) (step : BitVec w) (p : BitVec w × σ) : BitVec w × σ :=
  (p.1 - step, body p.2)

/-- `while (count != 0) { body; count -= step; }`. -/
def downTo0 (body : σ → σ) (step count : BitVec w) (fuel : ℕ) (s : σ) : Option σ :=
  (whileLoop (fun p => p.1 ≠ 0) (countTurn body step) fuel (count, s)).map Prod.snd

/-- `do { body; count -= step; } while (count != 0)`. -/
def doDownTo0 (body : σ → σ) (step count : BitVec w) (fuel : ℕ) (s : σ) : Option σ :=
  downTo0 body step (count - step) fuel (body s)

theorem iterate_countTurn (n : ℕ) (s : σ) :
    (countTurn body step)^[n] (count, s) = (count - BitVec.ofNat w n * step, body^[n] s) := by
  induction n generalizing count s with
  | zero => simp
  | succ n ih =>
    rw [Function.iterate_succ_apply, Function.iterate_succ_apply, countTurn, ih]
    refine Prod.ext ?_ rfl
    change count - step - BitVec.ofNat w n * step = count - BitVec.ofNat w (n + 1) * step
    rw [BitVec.ofNat_add, show BitVec.ofNat w 1 = 1 from rfl]
    ring

/-- A count that the step divides. -/
theorem downTo0_eq {n : ℕ} (hcount : count.toNat = n * step.toNat) (hstep : 0 < step.toNat)
    (fuel : ℕ) (s : σ) :
    downTo0 body step count fuel s = if n ≤ fuel then some (body^[n] s) else none := by
  have hlt := count.isLt
  have hsub : ∀ i ≤ n, (count - BitVec.ofNat w i * step).toNat = (n - i) * step.toNat := by
    intro i hi
    have hmul : i * step.toNat ≤ n * step.toNat := Nat.mul_le_mul_right _ hi
    have hi' : i < 2 ^ w := lt_of_le_of_lt (Nat.le_mul_of_pos_right i hstep) (by omega)
    have hprod : (BitVec.ofNat w i * step).toNat = i * step.toNat := by
      rw [BitVec.toNat_mul, BitVec.toNat_ofNat, Nat.mod_eq_of_lt hi', Nat.mod_eq_of_lt (by omega)]
    rw [BitVec.toNat_sub_of_le (by rw [BitVec.le_def, hprod]; omega), hprod, hcount, Nat.sub_mul]
  have hgo : ∀ i < n, decide (((countTurn body step)^[i] (count, s)).1 ≠ 0) = true := by
    intro i hi
    have hpos : 0 < (n - i) * step.toNat := Nat.mul_pos (by omega) hstep
    rw [iterate_countTurn, decide_eq_true_eq, ← BitVec.toNat_ne_iff_ne, hsub i hi.le]
    simpa using hpos.ne'
  have hstop : ¬decide (((countTurn body step)^[n] (count, s)).1 ≠ 0) = true := by
    rw [iterate_countTurn, decide_eq_true_eq, not_not, ← BitVec.toNat_inj, hsub n le_rfl]
    simp
  unfold downTo0
  rw [whileLoop_eq hgo hstop, iterate_countTurn]
  split <;> rfl

/-- A count that the step divides, where 0 stands for `2 ^ w`. -/
theorem doDownTo0_eq {n : ℕ} (hcount : count.toNat = n * step.toNat % 2 ^ w)
    (hstep : 0 < step.toNat) (hpos : 0 < n) (hle : n * step.toNat ≤ 2 ^ w) (fuel : ℕ) (s : σ) :
    doDownTo0 body step count fuel s = if n ≤ fuel + 1 then some (body^[n] s) else none := by
  obtain ⟨m, rfl⟩ := Nat.exists_eq_succ_of_ne_zero hpos.ne'
  have hlt := step.isLt
  rw [Nat.succ_mul] at hcount hle
  have hfirst : (count - step).toNat = m * step.toNat := by
    rw [BitVec.toNat_sub, hcount]
    rcases hle.lt_or_eq with hlt' | heq
    · rw [Nat.mod_eq_of_lt hlt', Nat.mod_eq_sub_mod (by omega), Nat.mod_eq_of_lt (by omega)]
      omega
    · rw [heq, Nat.mod_self, Nat.mod_eq_of_lt (by omega)]
      omega
  rw [doDownTo0, downTo0_eq hfirst hstep, Function.iterate_succ_apply]
  simp only [Nat.succ_eq_add_one, Nat.add_le_add_iff_right]

end

section

variable {α β : Type*}

/-- A computation with fuel that ends with the result `a`, once there is enough of it. -/
def Ends (f : ℕ → Option α) (a : α) : Prop :=
  ∃ n, ∀ fuel, f fuel = if n ≤ fuel then some a else none

namespace Ends

theorem of_eq {f : ℕ → Option α} {a : α} (h : ∀ fuel, f fuel = some a) : Ends f a :=
  ⟨0, fun fuel => (h fuel).trans (if_pos fuel.zero_le).symm⟩

theorem bind {f : ℕ → Option α} {g : α → ℕ → Option β} {a : α} {b : β} (hf : Ends f a)
    (hg : Ends (g a) b) : Ends (fun fuel => (f fuel).bind fun a => g a fuel) b := by
  obtain ⟨m, hm⟩ := hf
  obtain ⟨n, hn⟩ := hg
  refine ⟨max m n, fun fuel => ?_⟩
  dsimp only
  rw [hm]
  by_cases hfirst : m ≤ fuel
  · rw [if_pos hfirst, Option.bind_some, hn]
    simp only [max_le_iff, hfirst, true_and]
  · rw [if_neg hfirst, if_neg fun h => hfirst ((le_max_left m n).trans h), Option.bind_none]

theorem map {f : ℕ → Option α} {a : α} (hf : Ends f a) (g : α → β) :
    Ends (fun fuel => (f fuel).map g) (g a) := by
  obtain ⟨n, hn⟩ := hf
  refine ⟨n, fun fuel => ?_⟩
  dsimp only
  rw [hn]
  split <;> rfl

/-- A computation that needs one unit of fuel more. -/
theorem succ {f g : ℕ → Option α} {a : α} (hg : Ends g a) (hzero : f 0 = none)
    (hsucc : ∀ fuel, f (fuel + 1) = g fuel) : Ends f a := by
  obtain ⟨n, hn⟩ := hg
  refine ⟨n + 1, fun fuel => ?_⟩
  cases fuel with
  | zero => exact hzero
  | succ fuel =>
    rw [hsucc, hn]
    simp only [Nat.add_le_add_iff_right]

theorem ne_none {f : ℕ → Option α} {a : α} (hf : Ends f a) : ∃ fuel, f fuel ≠ none := by
  obtain ⟨n, hn⟩ := hf
  exact ⟨n, by rw [hn, if_pos le_rfl]; exact Option.some_ne_none a⟩

/-- What holds of a result that is reached holds of the one result. -/
theorem exists_iff {f : ℕ → Option α} {a : α} (hf : Ends f a) (P : α → Prop) :
    (∃ fuel b, f fuel = some b ∧ P b) ↔ P a := by
  obtain ⟨n, hn⟩ := hf
  constructor
  · rintro ⟨fuel, b, hb, hP⟩
    rw [hn] at hb
    split at hb
    · rwa [Option.some_inj.1 hb]
    · exact absurd hb nofun
  · exact fun hP => ⟨n, a, by rw [hn, if_pos le_rfl], hP⟩

theorem unique {f : ℕ → Option α} {a b : α} (ha : Ends f a) (hb : Ends f b) : a = b := by
  obtain ⟨n, hn⟩ := hb
  exact (ha.exists_iff (· = b)).1 ⟨n, b, by rw [hn, if_pos le_rfl], rfl⟩

end Ends

/-- A loop whose turns decrease a measure ends. -/
theorem whileLoop_ends {cond : α → Bool} {body : α → α} (μ : α → ℕ)
    (hless : ∀ a, cond a = true → μ (body a) < μ a) (a : α) :
    ∃ b, Ends (fun fuel => whileLoop cond body fuel a) b := by
  induction hn : μ a using Nat.strong_induction_on generalizing a with
  | _ n ih =>
    subst hn
    by_cases hgo : cond a = true
    · obtain ⟨b, turns, hturns⟩ := ih _ (hless a hgo) (body a) rfl
      refine ⟨b, turns + 1, fun fuel => ?_⟩
      cases fuel with
      | zero => exact if_pos hgo
      | succ fuel =>
        dsimp only
        rw [whileLoop, if_pos hgo]
        refine (hturns fuel).trans ?_
        simp only [Nat.add_le_add_iff_right]
    · refine ⟨a, 0, fun fuel => ?_⟩
      cases fuel with
      | zero => exact if_neg hgo
      | succ fuel => exact if_neg hgo

end

end Mupen64plus
