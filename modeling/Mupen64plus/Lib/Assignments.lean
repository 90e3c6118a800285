import Mathlib.Data.List.Nodup
import Mathlib.Data.List.Perm.Basic
import Mathlib.Logic.Function.Basic

/-!
# Lists of assignments

A straight-line program that assigns to cells of an array, none of them read by it, is the list of
its assignments.

## Main definitions

- `assign` — the array after a list of assignments, made in order

## Main results

- `assign_of_mem`, `assign_of_not_mem` — a cell assigned once holds its value, another is unchanged
- `assign_perm` — distinct cells may be assigned in any order
-/

namespace Assignments

variable {ι α : Type*} [DecidableEq ι]

/-- The array after the assignments. -/
def assign (f : ι → α) (l : List (ι × α)) : ι → α :=
  l.foldl (fun f p => Function.update f p.1 p.2) f

@[simp] theorem assign_nil (f : ι → α) : assign f [] = f := rfl

@[simp] theorem assign_cons (f : ι → α) (p : ι × α) (l : List (ι × α)) :
    assign f (p :: l) = assign (Function.update f p.1 p.2) l := rfl

theorem assign_of_not_mem {l : List (ι × α)} (f : ι → α) {i : ι} (h : ∀ p ∈ l, p.1 ≠ i) :
    assign f l i = f i := by
  induction l generalizing f with
  | nil => rfl
  | cons p l ih =>
    rw [assign_cons, ih _ fun q hq => h q (List.mem_cons_of_mem p hq),
      Function.update_of_ne (h p List.mem_cons_self).symm]

theorem assign_of_mem {l : List (ι × α)} (f : ι → α) (hnd : (l.map Prod.fst).Nodup) {p : ι × α}
    (hp : p ∈ l) : assign f l p.1 = p.2 := by
  induction l generalizing f with
  | nil => exact absurd hp List.not_mem_nil
  | cons q l ih =>
    rw [List.map_cons, List.nodup_cons] at hnd
    rw [assign_cons]
    rcases List.mem_cons.mp hp with rfl | hl
    · have hne : ∀ r ∈ l, r.1 ≠ p.1 := fun r hr heq =>
        hnd.1 (heq ▸ List.mem_map_of_mem hr)
      rw [assign_of_not_mem _ hne, Function.update_self]
    · exact ih _ hnd.2 hl

/-- **Order**: assignments to distinct cells may be made in any order. -/
theorem assign_perm {l l' : List (ι × α)} (f : ι → α) (hnd : (l.map Prod.fst).Nodup)
    (h : l.Perm l') : assign f l = assign f l' := by
  have hnd' : (l'.map Prod.fst).Nodup := (h.map Prod.fst).nodup_iff.mp hnd
  funext i
  by_cases hi : ∃ p ∈ l, p.1 = i
  · obtain ⟨p, hp, rfl⟩ := hi
    rw [assign_of_mem f hnd hp, assign_of_mem f hnd' (h.mem_iff.mp hp)]
  · have hne : ∀ p ∈ l, p.1 ≠ i := fun p hp heq => hi ⟨p, hp, heq⟩
    rw [assign_of_not_mem f hne, assign_of_not_mem f fun p hp => hne p (h.mem_iff.mpr hp)]

section Map

variable {κ : Type*} {l : List κ} {g : κ → ι} {x : κ → α}

/-- A list of assignments made by a map, to cells the map keeps apart. -/
theorem assign_map_of_mem (f : ι → α) (hnd : l.Nodup)
    (hinj : ∀ k ∈ l, ∀ k' ∈ l, g k = g k' → k = k') {k : κ} (hk : k ∈ l) :
    assign f (l.map fun k => (g k, x k)) (g k) = x k := by
  have hkeys : ((l.map fun k => (g k, x k)).map Prod.fst).Nodup := by
    rw [List.map_map]
    exact List.Nodup.map_on hinj hnd
  exact assign_of_mem f hkeys (List.mem_map.mpr ⟨k, hk, rfl⟩)

theorem assign_map_of_ne (f : ι → α) {i : ι} (h : ∀ k ∈ l, g k ≠ i) :
    assign f (l.map fun k => (g k, x k)) i = f i := by
  refine assign_of_not_mem f fun p hp => ?_
  obtain ⟨k, hk, rfl⟩ := List.mem_map.mp hp
  exact h k hk

end Map

end Assignments
