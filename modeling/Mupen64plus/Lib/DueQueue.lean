import Mathlib.Data.List.Perm.Basic
import Mathlib.Data.Int.Order.Basic
import Mathlib.Order.MinMax
import Mathlib.Tactic.Common

/-!
# Queues served in due order

A queue of entries with due times is served from its head. It is in **due order** at `now` when
the entries already due stand in front, and the others follow by due time. Overdue entries may
stand in any order among themselves: all of them are served before time passes.

## Main definitions

- `DueOrder due now l` — `l` is in due order at `now`
- `insertFirst p x l` — put `x` in front of the first entry that `p` selects

## Main results

- `DueOrder.not_due_behind_future` — nothing that is due waits behind the future
- `DueOrder.mono_now` — passing time keeps the order
- `DueOrder.insertFirst` — an insertion whose test compares due times keeps the order
-/

namespace DueQueue

variable {α β : Type*} (due : α → ℤ)

/-- Overdue entries in front, then the others by due time. -/
def DueOrder (now : ℤ) (l : List α) : Prop :=
  l.Pairwise fun x y => max (due x) now ≤ max (due y) now

/-- Put `x` in front of the first entry selected by `p`, or at the end. -/
def insertFirst (p : α → Bool) (x : α) : List α → List α
  | [] => [x]
  | y :: ys => if p y then x :: y :: ys else y :: insertFirst p x ys

-- ════════════════════════════════════════════════════════════════════════
-- Insertion
-- ════════════════════════════════════════════════════════════════════════

@[simp] theorem insertFirst_nil (p : α → Bool) (x : α) : insertFirst p x [] = [x] := rfl

theorem insertFirst_cons (p : α → Bool) (x y : α) (ys : List α) :
    insertFirst p x (y :: ys) = if p y then x :: y :: ys else y :: insertFirst p x ys := rfl

theorem insertFirst_perm (p : α → Bool) (x : α) (l : List α) : (insertFirst p x l).Perm
    (x :: l) := by
  induction l with
  | nil => exact .refl _
  | cons y ys ih =>
    rw [insertFirst_cons]
    split
    · exact .refl _
    · exact (ih.cons y).trans (.swap x y ys)

@[simp] theorem length_insertFirst (p : α → Bool) (x : α) (l : List α) :
    (insertFirst p x l).length = l.length + 1 := by
  simpa using (insertFirst_perm p x l).length_eq

@[simp] theorem mem_insertFirst {p : α → Bool} {x y : α} {l : List α} :
    y ∈ insertFirst p x l ↔ y = x ∨ y ∈ l := by
  simpa using (insertFirst_perm p x l).mem_iff

theorem map_insertFirst (f : α → β) (p : β → Bool) (x : α) (l : List α) :
    (insertFirst (p ∘ f) x l).map f = insertFirst p (f x) (l.map f) := by
  induction l with
  | nil => rfl
  | cons y ys ih =>
    rw [insertFirst_cons, List.map_cons, insertFirst_cons]
    by_cases hy : p (f y)
    · simp [hy]
    · simp [hy, ih]

/-- With nothing to stand in front of, the entry goes to the end. -/
theorem insertFirst_of_none {p : α → Bool} {l : List α} (x : α) (h : ∀ y ∈ l, p y = false) :
    insertFirst p x l = l ++ [x] := by
  induction l with
  | nil => rfl
  | cons y ys ih =>
    rw [insertFirst_cons, h y List.mem_cons_self, if_neg Bool.false_ne_true,
      ih fun z hz => h z (List.mem_cons_of_mem y hz), List.cons_append]

/-- The other entries stay in their places. -/
theorem filter_insertFirst {f : α → Bool} {x : α} (p : α → Bool) (h : f x = false) (l : List α) :
    (insertFirst p x l).filter f = l.filter f := by
  induction l with
  | nil => simp [h]
  | cons y ys ih =>
    rw [insertFirst_cons]
    split
    · rw [List.filter_cons_of_neg (by simp [h])]
    · rw [List.filter_cons, List.filter_cons, ih]

/-- The head after an insertion: the new entry if the old head is selected. -/
theorem head?_insertFirst (p : α → Bool) (x : α) (l : List α) :
    (insertFirst p x l).head? =
      some (match l with | [] => x | y :: _ => if p y then x else y) := by
  cases l with
  | nil => rfl
  | cons y ys =>
    rw [insertFirst_cons]
    by_cases hy : p y <;> simp [hy]

-- ════════════════════════════════════════════════════════════════════════
-- Due order
-- ════════════════════════════════════════════════════════════════════════

variable {due} {now now' : ℤ} {l : List α}

@[simp] theorem dueOrder_nil : DueOrder due now ([] : List α) := List.Pairwise.nil

theorem dueOrder_cons {x : α} : DueOrder due now (x :: l) ↔
    (∀ y ∈ l, max (due x) now ≤ max (due y) now) ∧ DueOrder due now l := List.pairwise_cons

/-- In due order, an entry behind one of the future lies in the future itself. -/
theorem DueOrder.not_due_behind_future (h : DueOrder due now l) :
    l.Pairwise fun x y => due y ≤ now → due x ≤ now :=
  h.imp fun {_ _} hxy hy => (max_le_iff.mp (hxy.trans (max_le hy le_rfl))).1

theorem DueOrder.sublist {l' : List α} (h : DueOrder due now l) (hl : l'.Sublist l) :
    DueOrder due now l' := List.Pairwise.sublist hl h

/-- Passing time only makes more entries overdue. -/
theorem DueOrder.mono_now (h : DueOrder due now l) (hn : now ≤ now') : DueOrder due now' l := by
  refine h.imp fun {x y} hxy => ?_
  have hx : max (due x) now' = max (max (due x) now) now' := by rw [max_assoc, max_eq_right hn]
  have hy : max (due y) now' = max (max (due y) now) now' := by rw [max_assoc, max_eq_right hn]
  rw [hx, hy]
  exact max_le_max_right _ hxy

/-- An entry that is due may be put in front of everything. -/
theorem DueOrder.cons_due {x : α} (h : DueOrder due now l) (hx : due x ≤ now) :
    DueOrder due now (x :: l) :=
  dueOrder_cons.mpr ⟨fun y _ => by rw [max_eq_right hx]; exact le_max_right _ _, h⟩

theorem DueOrder.map {f : α → β} {due' : β → ℤ} (h : DueOrder due now l)
    (hf : ∀ x ∈ l, due' (f x) = due x) : DueOrder due' now (l.map f) := by
  refine List.pairwise_map.mpr (List.Pairwise.imp_of_mem (fun {x y} hx hy hxy => ?_) h)
  rw [hf x hx, hf y hy]
  exact hxy

/-- An insertion whose test tells which entries are due later keeps the due order. -/
theorem DueOrder.insertFirst {p : α → Bool} {x : α} (h : DueOrder due now l)
    (hp : ∀ y ∈ l, p y = true ↔ due x < due y) : DueOrder due now (insertFirst p x l) := by
  induction l with
  | nil => exact dueOrder_cons.mpr ⟨by simp, dueOrder_nil⟩
  | cons y ys ih =>
    obtain ⟨hy, hys⟩ := dueOrder_cons.mp h
    rw [insertFirst_cons]
    split
    · next hpy =>
      have hxy : due x < due y := (hp y (by simp)).mp hpy
      have hle : max (due x) now ≤ max (due y) now := max_le_max_right _ hxy.le
      refine dueOrder_cons.mpr ⟨fun z hz => ?_, h⟩
      rcases List.mem_cons.mp hz with rfl | hz
      · exact hle
      · exact hle.trans (hy z hz)
    · next hpy =>
      have hyx : due y ≤ due x := not_lt.mp fun hlt => hpy ((hp y (by simp)).mpr hlt)
      refine dueOrder_cons.mpr ⟨fun z hz => ?_, ih hys fun z hz => hp z (by simp [hz])⟩
      rcases mem_insertFirst.mp hz with rfl | hz
      · exact max_le_max_right _ hyx
      · exact hy z hz

end DueQueue
