import Mupen64plus.Lib.Assignments

/-!
# Lists of moves

A copy from one array to another is the list of its moves, each with a cell of the target and a cell
of the source, made in order. What it does depends only on the last source of each target.

## Main definitions

- `lastSource` — the source whose value a cell of the target has in the end
- `Functional` — no cell of the target has two sources

## Main results

- `assign_moves` — a cell in the end, by its last source
- `lastSource_congr` — where no cell has two sources, moves may be made in any order
-/

namespace Assignments

variable {κ ι α : Type*} [DecidableEq κ]

def lastSource : List (κ × ι) → κ → Option ι
  | [], _ => none
  | p :: l, a => (lastSource l a).or (if p.1 = a then some p.2 else none)

def Functional (l : List (κ × ι)) : Prop := ∀ a s s', (a, s) ∈ l → (a, s') ∈ l → s = s'

theorem assign_moves (dst : κ → α) (src : ι → α) (l : List (κ × ι)) (a : κ) :
    assign dst (l.map fun p => (p.1, src p.2)) a = ((lastSource l a).map src).getD (dst a) := by
  induction l generalizing dst with
  | nil => rfl
  | cons p l ih =>
    rw [List.map_cons, assign_cons, ih, lastSource]
    cases lastSource l a with
    | some s => rfl
    | none =>
      rw [Option.none_or]
      split
      next heq => rw [← heq, Function.update_self, Option.map_none, Option.getD_none,
        Option.map_some, Option.getD_some]
      next hne => rw [Function.update_of_ne (Ne.symm hne)]

theorem lastSource_eq_none_iff {l : List (κ × ι)} {a : κ} :
    lastSource l a = none ↔ ∀ s, (a, s) ∉ l := by
  induction l with
  | nil => exact ⟨fun _ _ => List.not_mem_nil, fun _ => rfl⟩
  | cons p l ih =>
    rw [lastSource, Option.or_eq_none_iff, ih]
    constructor
    · rintro ⟨hrest, hne⟩ s hmem
      rcases List.mem_cons.mp hmem with rfl | hl
      · rw [if_pos rfl] at hne
        exact absurd hne (by simp)
      · exact hrest s hl
    · intro h
      refine ⟨fun s hl => h s (List.mem_cons_of_mem _ hl), if_neg ?_⟩
      rintro rfl
      exact h p.2 List.mem_cons_self

theorem mem_of_lastSource {l : List (κ × ι)} {a : κ} {s : ι} (h : lastSource l a = some s) :
    (a, s) ∈ l := by
  induction l with
  | nil => exact absurd h (by simp [lastSource])
  | cons p l ih =>
    rw [lastSource] at h
    rcases Option.or_eq_some_iff.mp h with hl | ⟨-, hp⟩
    · exact List.mem_cons_of_mem _ (ih hl)
    · split at hp
      next heq =>
        obtain rfl := Option.some.inj hp
        obtain rfl := heq
        exact List.mem_cons_self
      next => exact absurd hp (by simp)

theorem lastSource_eq_some_iff {l : List (κ × ι)} (hfun : Functional l) {a : κ} {s : ι} :
    lastSource l a = some s ↔ (a, s) ∈ l := by
  refine ⟨mem_of_lastSource, fun hmem => ?_⟩
  cases hlast : lastSource l a with
  | none => exact absurd hmem (lastSource_eq_none_iff.mp hlast s)
  | some s' => rw [hfun a s s' hmem (mem_of_lastSource hlast)]

/-- **Order** -/
theorem lastSource_congr {l l' : List (κ × ι)} (hfun : Functional l)
    (hmem : ∀ p, p ∈ l ↔ p ∈ l') : lastSource l = lastSource l' := by
  have hfun' : Functional l' := fun a s s' hs hs' =>
    hfun a s s' ((hmem _).mpr hs) ((hmem _).mpr hs')
  funext a
  apply Option.ext
  intro s
  rw [lastSource_eq_some_iff hfun, lastSource_eq_some_iff hfun', hmem]

end Assignments
