import Mathlib.Data.List.Basic
import Mathlib.Tactic.Common

/-!
# Runs of a labelled step function

A system is a step function `step : σ → α → σ`: a state, the label of what happens next, and
the state after it. A run is the list of its labels. This file packages the induction on runs
once, so that a safety property is two goals: it holds at the start, and one step keeps it.

## Main definitions

- `runFrom` — the state after a list of labels
- `visited` — every state a run goes through, the first and the last included
- `Along` — a condition on (state, label) that every step of a run meets
- `guarded` — the step that leaves no state where a guard fails

## Main results

- `invariant_visited` — an invariant kept by every step that meets the condition holds in every
  state visited by a run along the condition
- `along_and` — two conditions along a run are one
- `along_view` — a condition on a view of the state, along the run of the view
- `visited_iff_along` — where one step keeps the invariant exactly under a condition, so does a run
- `visited_iff_along_of` — the same for a property that the invariant implies
- `visited_guarded_iff` — the same for guarded steps, with the guard in the condition
-/

namespace Runs

variable {σ α : Type*} (step : σ → α → σ)

/-- The state a run ends in. -/
def runFrom (s : σ) (labels : List α) : σ := labels.foldl step s

/-- The states a run goes through, in order, from the first to the last. -/
def visited (s : σ) : List α → List σ
  | [] => [s]
  | a :: labels => s :: visited (step s a) labels

/-- Every step of the run meets the condition `C`, read in the state before that step. -/
def Along (C : σ → α → Prop) (s : σ) : List α → Prop
  | [] => True
  | a :: labels => C s a ∧ Along C (step s a) labels

@[simp] theorem runFrom_nil (s : σ) : runFrom step s [] = s := rfl

@[simp] theorem runFrom_cons (s : σ) (a : α) (labels : List α) :
    runFrom step s (a :: labels) = runFrom step (step s a) labels := rfl

theorem runFrom_append (s : σ) (l₁ l₂ : List α) :
    runFrom step s (l₁ ++ l₂) = runFrom step (runFrom step s l₁) l₂ := by
  simp [runFrom, List.foldl_append]

@[simp] theorem along_nil (C : σ → α → Prop) (s : σ) : Along step C s [] := trivial

@[simp] theorem along_cons (C : σ → α → Prop) (s : σ) (a : α) (labels : List α) :
    Along step C s (a :: labels) ↔ C s a ∧ Along step C (step s a) labels := Iff.rfl

instance decidableAlong (C : σ → α → Prop) [∀ s a, Decidable (C s a)] :
    ∀ s labels, Decidable (Along step C s labels)
  | _, [] => .isTrue trivial
  | s, a :: labels =>
    have := decidableAlong C (step s a) labels
    inferInstanceAs (Decidable (C s a ∧ Along step C (step s a) labels))

theorem start_mem_visited (s : σ) (labels : List α) : s ∈ visited step s labels := by
  cases labels <;> simp [visited]

theorem runFrom_mem_visited (s : σ) (labels : List α) :
    runFrom step s labels ∈ visited step s labels := by
  induction labels generalizing s with
  | nil => simp [visited]
  | cons a labels ih =>
    rw [runFrom_cons, visited]
    exact List.mem_cons_of_mem _ (ih _)

variable {step}

/-- **Run rule**: an invariant that every step meeting the condition keeps holds in every
    state visited by a run whose steps all meet it. -/
theorem invariant_visited {C : σ → α → Prop} {I : σ → Prop}
    (hstep : ∀ s a, I s → C s a → I (step s a)) {s : σ} {labels : List α}
    (hs : I s) (hrun : Along step C s labels) : ∀ t ∈ visited step s labels, I t := by
  induction labels generalizing s with
  | nil =>
    intro t ht
    rw [visited, List.mem_singleton] at ht
    exact ht ▸ hs
  | cons a labels ih =>
    obtain ⟨ha, hrest⟩ := hrun
    intro t ht
    rcases List.mem_cons.mp ht with rfl | ht
    · exact hs
    · exact ih (hstep _ _ hs ha) hrest t ht

/-- A condition that an invariant implies is met by every step of a run that keeps it. -/
theorem along_of_visited {C : σ → α → Prop} {I : σ → Prop} (hC : ∀ s a, I s → C s a) {s : σ}
    {labels : List α} (h : ∀ t ∈ visited step s labels, I t) : Along step C s labels := by
  induction labels generalizing s with
  | nil => trivial
  | cons a labels ih =>
    exact ⟨hC s a (h s (start_mem_visited step s (a :: labels))),
      ih fun t ht => h t (List.mem_cons_of_mem _ ht)⟩

/-- The run rule for an invariant that every step keeps. -/
theorem invariant_always {I : σ → Prop} (hstep : ∀ s a, I s → I (step s a)) {s : σ}
    {labels : List α} (hs : I s) : ∀ t ∈ visited step s labels, I t :=
  invariant_visited (C := fun _ _ => True) (fun s a h _ => hstep s a h) hs
    (along_of_visited (I := fun _ => True) (fun _ _ _ => trivial) fun _ _ => trivial)

theorem invariant_end {I : σ → Prop} (hstep : ∀ s a, I s → I (step s a)) {s : σ}
    {labels : List α} (hs : I s) : I (runFrom step s labels) :=
  invariant_always hstep hs _ (runFrom_mem_visited step s labels)

/-- A condition met by every step that starts in the invariant. -/
theorem along_of_along {C D : σ → α → Prop} {I : σ → Prop}
    (hstep : ∀ s a, I s → C s a → I (step s a)) (hD : ∀ s a, I s → C s a → D s a) {s : σ}
    {labels : List α} (hs : I s) (hrun : Along step C s labels) : Along step D s labels := by
  induction labels generalizing s with
  | nil => trivial
  | cons a labels ih =>
    obtain ⟨ha, hrest⟩ := hrun
    exact ⟨hD s a hs ha, ih (hstep s a hs ha) hrest⟩

/-- **Exact run rule**: if a step keeps the invariant exactly when it meets the condition, the
    invariant holds in every visited state exactly when every step meets the condition. -/
theorem visited_iff_along {C : σ → α → Prop} {I : σ → Prop}
    (hstep : ∀ s a, I s → (I (step s a) ↔ C s a)) {s : σ} {labels : List α} (hs : I s) :
    (∀ t ∈ visited step s labels, I t) ↔ Along step C s labels := by
  refine ⟨?_, invariant_visited (fun s a h => (hstep s a h).mpr) hs⟩
  induction labels generalizing s with
  | nil => intro _; trivial
  | cons a labels ih =>
    intro h
    have hnext : I (step s a) :=
      h _ (List.mem_cons_of_mem _ (start_mem_visited step _ labels))
    exact ⟨(hstep s a hs).mp hnext, ih hnext fun t ht => h t (List.mem_cons_of_mem _ ht)⟩

/-- The exact run rule for a property that an invariant implies: where a step from a state of the
    invariant meets the condition, the next state is one of the invariant, and otherwise the
    property fails there. -/
theorem visited_iff_along_of {C : σ → α → Prop} {I P : σ → Prop} (hP : ∀ s, I s → P s)
    (hstep : ∀ s a, I s → C s a → I (step s a)) (hbad : ∀ s a, I s → P (step s a) → C s a) {s : σ}
    {labels : List α} (hs : I s) :
    (∀ t ∈ visited step s labels, P t) ↔ Along step C s labels := by
  constructor
  · intro h
    induction labels generalizing s with
    | nil => trivial
    | cons a labels ih =>
      have ha : C s a :=
        hbad s a hs (h _ (List.mem_cons_of_mem _ (start_mem_visited step _ labels)))
      exact ⟨ha, ih (hstep s a hs ha) fun t ht => h t (List.mem_cons_of_mem _ ht)⟩
  · intro h t ht
    exact hP t (invariant_visited hstep hs h t ht)

/-- Two conditions that agree in every state are met along the same runs. -/
theorem along_congr {C D : σ → α → Prop} (h : ∀ s a, C s a ↔ D s a) (s : σ) (labels : List α) :
    Along step C s labels ↔ Along step D s labels := by
  induction labels generalizing s with
  | nil => exact Iff.rfl
  | cons a labels ih => exact and_congr (h s a) (ih _)

theorem along_and {C D : σ → α → Prop} (s : σ) (labels : List α) :
    Along step (fun s a => C s a ∧ D s a) s labels ↔
      Along step C s labels ∧ Along step D s labels := by
  induction labels generalizing s with
  | nil => exact ⟨fun _ => ⟨trivial, trivial⟩, fun _ => trivial⟩
  | cons a labels ih =>
    rw [along_cons, along_cons, along_cons, ih]
    exact and_and_and_comm

/-- **Image rule**: where the step of a view of the state is the view of the step, a condition on
    the view is met along a run when it is met along the run of the view. -/
theorem along_view {τ : Type*} {step' : τ → α → τ} (f : σ → τ)
    (hview : ∀ s a, f (step s a) = step' (f s) a) (C : τ → α → Prop) (s : σ) (labels : List α) :
    Along step (fun s a => C (f s) a) s labels ↔ Along step' C (f s) labels := by
  induction labels generalizing s with
  | nil => exact Iff.rfl
  | cons a labels ih => rw [along_cons, along_cons, ih, hview]

section Guarded

variable (step) (G : σ → α → Prop) [∀ s a, Decidable (G s a)]

/-- The step of a system that can stop: where the guard fails, there is no next state. -/
def guarded (s : Option σ) (a : α) : Option σ :=
  s.bind fun s => if G s a then some (step s a) else none

variable {step G}

theorem guarded_of_guard {s : σ} {a : α} (h : G s a) :
    guarded step G (some s) a = some (step s a) := by
  unfold guarded
  rw [Option.bind_some, if_pos h]

theorem guarded_of_not {s : σ} {a : α} (h : ¬G s a) : guarded step G (some s) a = none := by
  unfold guarded
  rw [Option.bind_some, if_neg h]

/-- A run along the guard goes on to its end. -/
theorem runFrom_guarded {s : σ} {labels : List α} (h : Along step G s labels) :
    runFrom (guarded step G) (some s) labels = some (runFrom step s labels) := by
  induction labels generalizing s with
  | nil => rfl
  | cons a labels ih => rw [runFrom_cons, runFrom_cons, guarded_of_guard h.1, ih h.2]

/-- **Guarded run rule**: if a step that passes the guard keeps the invariant exactly when it meets
    the condition, a run goes on in the invariant exactly when every step passes the guard and meets
    the condition. -/
theorem visited_guarded_iff {C : σ → α → Prop} {I : σ → Prop}
    (hstep : ∀ s a, I s → (I (step s a) ↔ C s a)) {s : σ} {labels : List α} (hs : I s) :
    (∀ t ∈ visited (guarded step G) (some s) labels, ∃ r ∈ t, I r) ↔
      Along step (fun s a => G s a ∧ C s a) s labels := by
  induction labels generalizing s with
  | nil => simpa [visited] using hs
  | cons a labels ih =>
    rw [visited, List.forall_mem_cons, along_cons]
    have hfirst : ∃ r ∈ some s, I r := ⟨s, rfl, hs⟩
    by_cases hguard : G s a
    · rw [guarded_of_guard hguard, and_iff_right hfirst, and_iff_right hguard]
      by_cases hnext : I (step s a)
      · rw [ih hnext, and_iff_right ((hstep s a hs).mp hnext)]
      · refine iff_of_false (fun h => hnext ?_) (fun h => hnext ((hstep s a hs).mpr h.1))
        obtain ⟨r, hr, hI⟩ := h _ (start_mem_visited _ _ labels)
        obtain rfl := Option.some.inj hr
        exact hI
    · rw [guarded_of_not hguard]
      refine iff_of_false (fun h => ?_) (fun h => hguard h.1.1)
      obtain ⟨r, hr, -⟩ := h.2 _ (start_mem_visited _ _ labels)
      cases hr

end Guarded

end Runs
