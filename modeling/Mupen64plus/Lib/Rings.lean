import Mathlib.Data.List.Nodup
import Mathlib.Logic.Function.Basic
import Mathlib.Tactic.Common

/-!
# Rings of nodes

Doubly linked lists whose links stand in the nodes themselves and lead round. A node by itself is
a ring; a list is the ring of its head.

## Main definitions

- `Links` — what the nodes lead to
- `Links.join` — two nodes become neighbors
- `Links.Ring` — the nodes that are led round, in order

## Main results

- `Ring.rotate` — a ring can be entered anywhere
- `Ring.insert`, `Ring.insertBefore`, `Ring.erase` — a node is put beside another, or taken out
- `Ring.frame` — a ring without the nodes that are joined stays
-/

structure Links (α : Type*) where
  prev : α → α
  next : α → α

namespace Links

variable {α : Type*}

/-- `a` leads to `b`, and back. -/
def Joined (s : Links α) (a b : α) : Prop := s.next a = b ∧ s.prev b = a

/-- From `a` over the nodes of a list to `b`. -/
def Path (s : Links α) (a : α) : List α → α → Prop
  | [], b => s.Joined a b
  | c :: l, b => s.Joined a c ∧ s.Path c l b

def Ring (s : Links α) : List α → Prop
  | [] => False
  | a :: l => (a :: l).Nodup ∧ s.Path a l a

variable {s : Links α} {a b c x y : α} {l m : List α}

-- ════════════════════════════════════════════════════════════════════════
-- Ways round
-- ════════════════════════════════════════════════════════════════════════

theorem path_append : s.Path a (l ++ c :: m) b ↔ s.Path a l c ∧ s.Path c m b := by
  induction l generalizing a with
  | nil => exact Iff.rfl
  | cons d l ih => exact (and_congr_right fun _ => ih).trans and_assoc.symm

theorem Path.next_eq (h : s.Path a l b) : s.next a = (l ++ [b]).head (by simp) := by
  cases l with
  | nil => exact h.1
  | cons c l => exact h.1.1

theorem Path.prev_eq (h : s.Path a l b) : s.prev b = (a :: l).getLast (by simp) := by
  induction l generalizing a with
  | nil => exact h.2
  | cons c l ih => exact ih h.2

theorem Ring.nodup (h : s.Ring l) : l.Nodup := by
  cases l with
  | nil => exact List.nodup_nil
  | cons a l => exact h.1

/-- A ring can be entered anywhere. -/
theorem Ring.rotate (h : s.Ring (l ++ m)) : s.Ring (m ++ l) := by
  cases l with
  | nil => rwa [List.append_nil]
  | cons a l =>
    cases m with
    | nil => rwa [List.append_nil] at h
    | cons b m =>
      have hnodup : (b :: m ++ a :: l).Nodup := List.nodup_append_comm.1 h.1
      obtain ⟨hfirst, hsecond⟩ := path_append.1 h.2
      exact ⟨hnodup, path_append.2 ⟨hsecond, hfirst⟩⟩

theorem Ring.next_eq (h : s.Ring (a :: l)) : s.next a = (l ++ [a]).head (by simp) := h.2.next_eq

theorem Ring.next_mem (h : s.Ring l) (hx : x ∈ l) : s.next x ∈ l := by
  obtain ⟨k, m, rfl⟩ := List.append_of_mem hx
  have hrotate : s.Ring (x :: (m ++ k)) := h.rotate
  have hmem := List.head_mem (l := m ++ k ++ [x]) (by simp)
  rw [← hrotate.next_eq] at hmem
  simp only [List.mem_append, List.mem_cons, List.not_mem_nil, or_false] at hmem ⊢
  tauto

theorem Ring.prev_mem (h : s.Ring l) (hx : x ∈ l) : s.prev x ∈ l := by
  obtain ⟨k, m, rfl⟩ := List.append_of_mem hx
  have hrotate : s.Ring (x :: (m ++ k)) := h.rotate
  have hmem := List.getLast_mem (List.cons_ne_nil x (m ++ k))
  rw [← hrotate.2.prev_eq] at hmem
  simp only [List.mem_append, List.mem_cons] at hmem ⊢
  tauto

-- ════════════════════════════════════════════════════════════════════════
-- Writes
-- ════════════════════════════════════════════════════════════════════════

variable [DecidableEq α]

/-- `a.next = b` and `b.prev = a`. -/
def join (s : Links α) (a b : α) : Links α where
  prev := Function.update s.prev b a
  next := Function.update s.next a b

theorem joined_join : (s.join a b).Joined a b := by
  unfold join Joined
  exact ⟨Function.update_self .., Function.update_self ..⟩

theorem Joined.frame (h : s.Joined a b) (hx : a ≠ x) (hy : b ≠ y) : (s.join x y).Joined a b := by
  unfold join Joined
  exact ⟨(Function.update_of_ne hx ..).trans h.1, (Function.update_of_ne hy ..).trans h.2⟩

theorem join_comm (hx : a ≠ x) (hy : b ≠ y) : (s.join a b).join x y = (s.join x y).join a b := by
  unfold join
  rw [Function.update_comm hy, Function.update_comm hx]

theorem Path.frame (h : s.Path a l b) (hx : x ∉ a :: l) (hy : y ∉ l ++ [b]) :
    (s.join x y).Path a l b := by
  induction l generalizing a with
  | nil =>
    exact Joined.frame h (fun e => hx (e ▸ List.mem_cons_self))
      fun e => hy (e ▸ List.mem_singleton_self b)
  | cons c l ih =>
    refine ⟨h.1.frame (fun e => hx (e ▸ List.mem_cons_self)) fun e => hy (e ▸ List.mem_cons_self),
      ih h.2 (fun hmem => hx (List.mem_cons_of_mem a hmem)) fun hmem =>
        hy (List.mem_cons_of_mem c hmem)⟩

/-- A ring without the nodes that are joined stays. -/
theorem Ring.frame (h : s.Ring l) (hx : x ∉ l) (hy : y ∉ l) : (s.join x y).Ring l := by
  cases l with
  | nil => exact h
  | cons a l =>
    refine ⟨h.1, h.2.frame hx fun hmem => hy ?_⟩
    rcases List.mem_append.1 hmem with hmem | hmem
    · exact List.mem_cons_of_mem a hmem
    · exact List.mem_singleton.1 hmem ▸ List.mem_cons_self

theorem ring_self : (s.join a a).Ring [a] := ⟨List.nodup_singleton a, joined_join⟩

/-- A node is put behind another one. -/
theorem Ring.insert (h : s.Ring (a :: l)) (hx : x ∉ a :: l) :
    ((s.join x (s.next a)).join a x).Ring (a :: x :: l) := by
  obtain ⟨hnodup, hpath⟩ := h
  obtain ⟨hal, hl⟩ := List.nodup_cons.1 hnodup
  have hne : x ≠ a := fun e => hx (e ▸ List.mem_cons_self)
  have hxl : x ∉ l := fun hmem => hx (List.mem_cons_of_mem a hmem)
  refine ⟨?_, joined_join, ?_⟩
  · exact List.nodup_cons.2 ⟨fun hmem => hal ((List.mem_cons.1 hmem).resolve_left hne.symm),
      List.nodup_cons.2 ⟨hxl, hl⟩⟩
  · cases l with
    | nil =>
      have hnext : s.next a = a := hpath.1
      rw [hnext]
      exact joined_join.frame hne hne.symm
    | cons c l =>
      have hnext : s.next a = c := hpath.1.1
      have hcx : c ≠ x := fun e => hxl (e ▸ List.mem_cons_self)
      have hca : c ≠ a := fun e => hal (e ▸ List.mem_cons_self)
      rw [hnext]
      refine ⟨joined_join.frame hne hcx, (hpath.2.frame hxl ?_).frame hal ?_⟩
      · intro hmem
        rcases List.mem_append.1 hmem with hmem | hmem
        · exact (List.nodup_cons.1 hl).1 hmem
        · exact hca (List.mem_singleton.1 hmem)
      · intro hmem
        rcases List.mem_append.1 hmem with hmem | hmem
        · exact hxl (List.mem_cons_of_mem c hmem)
        · exact hne (List.mem_singleton.1 hmem)

/-- A node is put before another one. -/
theorem Ring.insertBefore (h : s.Ring (a :: l)) (hx : x ∉ a :: l) :
    ((s.join (s.prev a) x).join x a).Ring (a :: l ++ [x]) := by
  have hlast := h.2.prev_eq
  obtain ⟨k, b, hk⟩ : ∃ k b, a :: l = k ++ [b] :=
    ⟨_, _, (List.dropLast_append_getLast (List.cons_ne_nil a l)).symm⟩
  have hb : s.prev a = b := by
    rw [hlast]
    simp only [hk, List.getLast_append_singleton]
  have hring : s.Ring (b :: k) := by
    rw [hk] at h
    exact h.rotate
  have hxk : x ∉ b :: k := by
    intro hmem
    rw [hk, List.mem_append, List.mem_singleton] at hx
    exact hx ((List.mem_cons.1 hmem).symm)
  have hnext : s.next b = a := by
    rw [hring.next_eq]
    cases k with
    | nil =>
      simp only [List.nil_append, List.cons.injEq] at hk
      exact hk.1.symm
    | cons d k =>
      simp only [List.cons_append, List.cons.injEq] at hk
      exact hk.1.symm
  have hbx : b ≠ x := fun e => hxk (e ▸ List.mem_cons_self)
  have hxa : x ≠ a := fun e => hx (e ▸ List.mem_cons_self)
  have hinsert : ((s.join b x).join x a).Ring ([b, x] ++ k) := by
    rw [join_comm hbx hxa, ← hnext]
    exact hring.insert hxk
  rw [hk, hb, List.append_assoc]
  exact hinsert.rotate

theorem Ring.eraseHead (h : s.Ring (x :: a :: l)) :
    (s.join (s.prev x) (s.next x)).Ring (a :: l) := by
  obtain ⟨hnodup, hjoined, hpath⟩ := h
  have hnext : s.next x = a := hjoined.1
  have hrest := (List.nodup_cons.1 hnodup).2
  rw [hnext]
  rcases List.eq_nil_or_concat' l with rfl | ⟨k, b, rfl⟩
  · have hprev : s.prev x = a := hpath.2
    rw [hprev]
    exact ring_self
  · obtain ⟨hfirst, hlast⟩ := path_append.1 hpath
    have hprev : s.prev x = b := hlast.2
    have hapart : (a :: k ++ [b]).Nodup := hrest
    rw [hprev]
    refine ⟨hrest, path_append.2 ⟨hfirst.frame ?_ (List.nodup_cons.1 hrest).1, joined_join⟩⟩
    intro hmem
    exact (List.nodup_append.1 hapart).2.2 b hmem b (List.mem_singleton_self b) rfl

/-- A node is taken out. -/
theorem Ring.erase (h : s.Ring (l ++ x :: m)) (hne : l ++ m ≠ []) :
    (s.join (s.prev x) (s.next x)).Ring (l ++ m) := by
  have hrotate : s.Ring (x :: (m ++ l)) := h.rotate
  cases hrest : m ++ l with
  | nil =>
    rw [List.append_eq_nil_iff] at hrest
    exact absurd (List.append_eq_nil_iff.2 hrest.symm) hne
  | cons a k =>
    rw [hrest] at hrotate
    have herase := hrotate.eraseHead
    rw [← hrest] at herase
    exact herase.rotate

end Links
