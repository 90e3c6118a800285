import Mathlib.Data.List.Nodup
import Mathlib.Logic.Function.Basic
import Mathlib.Tactic.Common

/-!
# Linked lists with pointers into them

A linked list as a program sees it that keeps pointers to its nodes: the nodes in order, and what
stands in each. A node that leaves the list keeps what it held; no node is given out twice.

## Main definitions

- `NodeList` — with `emplaceFront`, `erase`, `modify`, `moveFront`, `eraseWhere` and `find?`
- `NodeList.WellFormed` — every node stands in the list once, and the next one is not in use
- `NodeList.Alive` — a pointer is null or to a node of the list

## Main results

- `Alive.erase_iff` — what an erased node is pointed at by
- `WellFormed.mem_erase`, `WellFormed.take_erase` — what the nodes are after an erasure
-/

structure NodeList (α : Type*) where
  order : List ℕ
  node : ℕ → α
  next : ℕ

namespace NodeList

variable {α : Type*}

def emplaceFront (l : NodeList α) (a : α) : NodeList α :=
  ⟨l.next :: l.order, Function.update l.node l.next a, l.next + 1⟩

def erase (l : NodeList α) (i : ℕ) : NodeList α := { l with order := l.order.erase i }

def modify (l : NodeList α) (i : ℕ) (f : α → α) : NodeList α :=
  { l with node := Function.update l.node i (f (l.node i)) }

/-- A node of the list is taken to its front. -/
def moveFront (l : NodeList α) (i : ℕ) : NodeList α := { l with order := i :: l.order.erase i }

/-- Every node that holds what `p` says is erased. -/
def eraseWhere (l : NodeList α) (p : α → Bool) : NodeList α :=
  { l with order := l.order.filter fun i => !p (l.node i) }

/-- The first node that holds what `p` says. -/
def find? (l : NodeList α) (p : α → Bool) : Option ℕ := l.order.find? fun i => p (l.node i)

structure WellFormed (l : NodeList α) : Prop where
  nodup : l.order.Nodup
  fresh : ∀ i ∈ l.order, i < l.next

/-- A pointer that is null or to a node of the list. -/
def Alive (l : NodeList α) (p : Option ℕ) : Prop := ∀ i, p = some i → i ∈ l.order

variable {l : NodeList α} {i j : ℕ} {p : Option ℕ}

@[simp] theorem order_emplaceFront (a : α) : (l.emplaceFront a).order = l.next :: l.order := rfl

@[simp] theorem order_erase : (l.erase i).order = l.order.erase i := rfl

@[simp] theorem order_modify (f : α → α) : (l.modify i f).order = l.order := rfl

@[simp] theorem node_erase : (l.erase i).node = l.node := rfl

@[simp] theorem node_eraseWhere (q : α → Bool) : (l.eraseWhere q).node = l.node := rfl

@[simp] theorem node_emplaceFront_self (a : α) : (l.emplaceFront a).node l.next = a :=
  Function.update_self ..

theorem node_emplaceFront (a : α) (h : i ≠ l.next) : (l.emplaceFront a).node i = l.node i :=
  Function.update_of_ne h _ _

@[simp] theorem node_modify_self (f : α → α) : (l.modify i f).node i = f (l.node i) :=
  Function.update_self ..

theorem node_modify_of_ne (f : α → α) (h : j ≠ i) : (l.modify i f).node j = l.node j :=
  Function.update_of_ne h _ _

theorem mem_eraseWhere {q : α → Bool} :
    i ∈ (l.eraseWhere q).order ↔ i ∈ l.order ∧ q (l.node i) = false := by
  rw [eraseWhere, List.mem_filter, Bool.not_eq_true']

theorem find?_mem {q : α → Bool} (h : l.find? q = some i) : i ∈ l.order ∧ q (l.node i) = true :=
  ⟨List.mem_of_find?_eq_some h, List.find?_some (p := fun i => q (l.node i)) h⟩

theorem find?_none {q : α → Bool} (h : l.find? q = none) (hi : i ∈ l.order) :
    q (l.node i) = false := by
  have hnot := List.find?_eq_none.mp h i hi
  rwa [Bool.not_eq_true] at hnot

/-! ### The order -/

theorem WellFormed.mem_erase (h : l.WellFormed) : j ∈ (l.erase i).order ↔ j ≠ i ∧ j ∈ l.order :=
  h.nodup.mem_erase_iff

theorem WellFormed.erase (h : l.WellFormed) : (l.erase i).WellFormed where
  nodup := h.nodup.erase i
  fresh := fun j hj => h.fresh j (List.mem_of_mem_erase hj)

theorem WellFormed.eraseWhere (h : l.WellFormed) (q : α → Bool) : (l.eraseWhere q).WellFormed where
  nodup := h.nodup.filter _
  fresh := fun j hj => h.fresh j (mem_eraseWhere.mp hj).1

theorem WellFormed.modify (h : l.WellFormed) (f : α → α) : (l.modify i f).WellFormed where
  nodup := h.nodup
  fresh := h.fresh

theorem WellFormed.emplaceFront (h : l.WellFormed) (a : α) : (l.emplaceFront a).WellFormed where
  nodup := List.nodup_cons.mpr ⟨fun hmem => absurd (h.fresh _ hmem) (Nat.lt_irrefl _), h.nodup⟩
  fresh := by
    intro j hj
    rcases List.mem_cons.mp hj with rfl | hj
    · exact Nat.lt_succ_self _
    · exact Nat.lt_succ_of_lt (h.fresh j hj)

/-- A new node is not one of those the list has. -/
theorem WellFormed.ne_next (h : l.WellFormed) (hi : i ∈ l.order) : i ≠ l.next :=
  Nat.ne_of_lt (h.fresh i hi)

/-- Erasing the node at a place leaves those before it where they are. -/
theorem WellFormed.take_erase (h : l.WellFormed) {k : ℕ} (hk : l.order[k]? = some i) :
    (l.erase i).order.take k = l.order.take k := by
  obtain ⟨hlt, rfl⟩ := List.getElem?_eq_some_iff.mp hk
  rw [order_erase, h.nodup.erase_getElem _ hlt, List.eraseIdx_eq_take_drop_succ,
    List.take_append_of_le_length (by rw [List.length_take]; omega), List.take_take, Nat.min_self]

/-! ### Pointers -/

theorem Alive.null : l.Alive none := by
  intro i hi
  cases hi

theorem alive_some : l.Alive (some i) ↔ i ∈ l.order :=
  ⟨fun h => h i rfl, fun h _ hj => Option.some.inj hj ▸ h⟩

theorem Alive.modify (h : l.Alive p) (f : α → α) : (l.modify i f).Alive p := h

theorem Alive.emplaceFront (h : l.Alive p) (a : α) : (l.emplaceFront a).Alive p :=
  fun j hj => List.mem_cons_of_mem _ (h j hj)

/-- Erasing a node leaves a pointer good exactly when it does not point at it. -/
theorem Alive.erase_iff (hl : l.WellFormed) (h : l.Alive p) :
    (l.erase i).Alive p ↔ p ≠ some i := by
  constructor
  · rintro hafter rfl
    exact (hl.mem_erase.mp (hafter i rfl)).1 rfl
  · intro hne j hj
    refine hl.mem_erase.mpr ⟨?_, h j hj⟩
    rintro rfl
    exact hne hj

end NodeList
