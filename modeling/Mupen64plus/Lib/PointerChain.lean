import Mathlib.Data.List.Nodup
import Mathlib.Logic.Function.Basic

/-!
# Chains of pointers

A singly linked list whose links stand in the nodes themselves, from a head pointer to null.

## Main definitions

- `IsChain` — the nodes that a head pointer leads to, in order
- `findOnChain` — the loop that looks for a node

## Main results

- `IsChain.push` — a node that is not on the chain can be put at its head
- `IsChain.find` — the loop ends and finds what the list of nodes has
- `not_isChain_of_loop` — a node that leads to itself is on no chain
-/

namespace Mupen64plus

/-- The nodes from a pointer on. -/
inductive IsChain {α : Type*} (next : α → Option α) : Option α → List α → Prop
  | nil : IsChain next none []
  | cons {a : α} {l : List α} (h : IsChain next (next a) l) : IsChain next (some a) (a :: l)

/-- `while (p != NULL && !found(p)) p = p->next;`, or `none` if `fuel` turns do not end it. -/
def findOnChain {α : Type*} (next : α → Option α) (found : α → Bool) :
    ℕ → Option α → Option (Option α)
  | _, none => some none
  | 0, some _ => none
  | fuel + 1, some a => if found a then some (some a) else findOnChain next found fuel (next a)

namespace IsChain

variable {α : Type*} {next : α → Option α} {p : Option α} {a : α} {l l' : List α}

theorem unique (h : IsChain next p l) (h' : IsChain next p l') : l = l' := by
  induction h generalizing l' with
  | nil =>
    cases h'
    rfl
  | cons _ ih =>
    cases h' with
    | cons h' => rw [ih h']

/-- The links of other nodes do not matter. -/
theorem congr {next' : α → Option α} (h : IsChain next p l) (hnext : ∀ a ∈ l, next' a = next a) :
    IsChain next' p l := by
  induction h with
  | nil => exact .nil
  | @cons a l _ ih =>
    refine .cons ?_
    rw [hnext a List.mem_cons_self]
    exact ih fun b hb => hnext b (List.mem_cons_of_mem a hb)

theorem push [DecidableEq α] (h : IsChain next p l) (ha : a ∉ l) :
    IsChain (Function.update next a p) (some a) (a :: l) := by
  refine .cons ?_
  rw [Function.update_self]
  exact h.congr fun _ hb => Function.update_of_ne (ne_of_mem_of_not_mem hb ha) _ _

/-- A chain of other nodes is left as it is. -/
theorem update [DecidableEq α] {q : Option α} (h : IsChain next p l) (ha : a ∉ l) :
    IsChain (Function.update next a q) p l :=
  h.congr fun _ hb => Function.update_of_ne (ne_of_mem_of_not_mem hb ha) _ _

/-- No node comes twice. -/
theorem nodup (h : IsChain next p l) : l.Nodup := by
  -- a second visit to a node would have the same rest, which is longer
  have hsuffix : ∀ {p l}, IsChain next p l → ∀ b ∈ l, ∃ l', IsChain next (next b) l' ∧
      l'.length < l.length := by
    intro p l h
    induction h with
    | nil => exact fun b hb => nomatch hb
    | @cons a l h ih =>
      intro b hb
      rcases List.mem_cons.mp hb with rfl | hb
      · exact ⟨l, h, Nat.lt_succ_self _⟩
      · obtain ⟨l', hl', hlt⟩ := ih b hb
        exact ⟨l', hl', Nat.lt_succ_of_lt hlt⟩
  induction h with
  | nil => exact List.nodup_nil
  | @cons a l h ih =>
    refine List.nodup_cons.mpr ⟨fun hmem => ?_, ih⟩
    obtain ⟨l', hl', hlt⟩ := hsuffix h a hmem
    rw [h.unique hl'] at hlt
    exact Nat.lt_irrefl _ hlt

theorem find (h : IsChain next p l) (found : α → Bool) :
    findOnChain next found l.length p = some (l.find? found) := by
  induction h with
  | nil => rfl
  | @cons a l h ih =>
    rw [List.length_cons, findOnChain, List.find?_cons]
    cases found a with
    | true => rfl
    | false => exact ih

end IsChain

theorem not_isChain_of_loop {α : Type*} {next : α → Option α} {a : α} (h : next a = some a)
    (l : List α) : ¬IsChain next (some a) l := by
  intro hchain
  cases hchain with
  | @cons _ rest hrest =>
    have hagain : IsChain next (next a) (a :: rest) := by
      rw [h]
      exact .cons hrest
    have hlen := congrArg List.length (hrest.unique hagain)
    exact absurd hlen (Nat.ne_of_lt (Nat.lt_succ_self _))

end Mupen64plus
