import Mathlib.Order.Interval.Set.Disjoint
import Mathlib.Data.List.Basic
import Mathlib.Tactic.Common
import Mathlib.Order.CompletePartialOrder

/-!
# Extents laid one behind the other

An extent is a piece of a store: it starts somewhere and has a length. A list of extents is
`Chained` from `p` to `e` when the first starts at `p`, each starts where the one before it ends,
and the last ends at `e`.

## Main results

- `chained_append` — a chain is cut anywhere
- `Chained.pairwise` — the extents of a chain do not meet
- `Chained.disjoint` — neither do the extents of two chains that lie apart
- `Chained.exists_first` — in a chain that gets ahead, an extent that is not empty starts where the
  chain does
-/

namespace Extents

variable {α : Type*} (start len : α → ℕ)

/-- The places an extent takes up. -/
def range (b : α) : Set ℕ := Set.Ico (start b) (start b + len b)

def Chained (p : ℕ) : List α → ℕ → Prop
  | [], e => p = e
  | b :: bs, e => start b = p ∧ Chained (p + len b) bs e

variable {start len}

theorem chained_nil {p e : ℕ} : Chained start len p [] e ↔ p = e := Iff.rfl

theorem chained_cons {p e : ℕ} {b : α} {bs : List α} :
    Chained start len p (b :: bs) e ↔ start b = p ∧ Chained start len (p + len b) bs e := Iff.rfl

/-- **Cut rule** -/
theorem chained_append {p e : ℕ} {xs ys : List α} :
    Chained start len p (xs ++ ys) e ↔
      ∃ m, Chained start len p xs m ∧ Chained start len m ys e := by
  induction xs generalizing p with
  | nil =>
    refine ⟨fun h => ⟨p, rfl, h⟩, ?_⟩
    rintro ⟨m, rfl, h⟩
    exact h
  | cons b bs ih =>
    rw [List.cons_append, chained_cons, ih]
    constructor
    · rintro ⟨hb, m, hbs, hys⟩
      exact ⟨m, ⟨hb, hbs⟩, hys⟩
    · rintro ⟨m, ⟨hb, hbs⟩, hys⟩
      exact ⟨hb, m, hbs, hys⟩

/-- One more extent at the end. -/
theorem Chained.snoc {p e : ℕ} {xs : List α} (h : Chained start len p xs e) {b : α}
    (hb : start b = e) : Chained start len p (xs ++ [b]) (e + len b) :=
  chained_append.mpr ⟨e, h, hb, rfl⟩

theorem Chained.le {p e : ℕ} {xs : List α} (h : Chained start len p xs e) : p ≤ e := by
  induction xs generalizing p with
  | nil => exact Nat.le_of_eq h
  | cons b bs ih => exact (Nat.le_add_right p (len b)).trans (ih h.2)

/-- Every extent lies between the ends of the chain. -/
theorem Chained.bounds {p e : ℕ} {xs : List α} (h : Chained start len p xs e) {b : α}
    (hb : b ∈ xs) : p ≤ start b ∧ start b + len b ≤ e := by
  induction xs generalizing p with
  | nil => exact absurd hb List.not_mem_nil
  | cons b' bs ih =>
    obtain ⟨hb', hbs⟩ := h
    rcases List.mem_cons.mp hb with rfl | hmem
    · have hle := hbs.le
      exact ⟨hb'.ge, by omega⟩
    · obtain ⟨hlow, hhigh⟩ := ih hbs hmem
      exact ⟨by omega, hhigh⟩

/-- Extents that end before others start do not meet them. -/
theorem disjoint_of_le {a b : α} (h : start a + len a ≤ start b) :
    Disjoint (range start len a) (range start len b) := by
  rw [range, range, Set.Ico_disjoint_Ico]
  exact (min_le_left _ _).trans (h.trans (le_max_right _ _))

theorem disjoint_of_empty_left {a : α} (b : α) (h : len a = 0) :
    Disjoint (range start len a) (range start len b) := by
  rw [range, h, Nat.add_zero, Set.Ico_self]
  exact Set.empty_disjoint _

theorem Chained.pairwise {p e : ℕ} {xs : List α} (h : Chained start len p xs e) :
    xs.Pairwise fun a b => Disjoint (range start len a) (range start len b) := by
  induction xs generalizing p with
  | nil => exact List.Pairwise.nil
  | cons b bs ih =>
    obtain ⟨hb, hbs⟩ := h
    refine List.Pairwise.cons (fun c hc => disjoint_of_le ?_) (ih hbs)
    rw [hb]
    exact (hbs.bounds hc).1

/-- Two chains that lie apart, the first behind the second. -/
theorem Chained.disjoint {p m q e : ℕ} {xs ys : List α} (hxs : Chained start len p xs m)
    (hys : Chained start len q ys e) (h : e ≤ p) :
    ∀ a ∈ xs, ∀ b ∈ ys, Disjoint (range start len a) (range start len b) := by
  intro a ha b hb
  refine (disjoint_of_le ?_).symm
  exact ((hys.bounds hb).2.trans h).trans (hxs.bounds ha).1

/-- A chain that does not get ahead is made of empty extents. -/
theorem Chained.empty {p : ℕ} {xs : List α} (h : Chained start len p xs p) {b : α} (hb : b ∈ xs) :
    len b = 0 := by
  obtain ⟨hlow, hhigh⟩ := h.bounds hb
  omega

/-- The first extent that is not empty starts where the chain does. -/
theorem Chained.exists_first {p e : ℕ} {xs : List α} (h : Chained start len p xs e) (hlt : p < e) :
    ∃ b ∈ xs, len b ≠ 0 ∧ start b = p := by
  induction xs generalizing p with
  | nil => exact absurd h hlt.ne
  | cons b bs ih =>
    obtain ⟨hb, hbs⟩ := h
    by_cases hlen : len b = 0
    · rw [hlen, Nat.add_zero] at hbs
      obtain ⟨b', hb', hne, hstart⟩ := ih hbs hlt
      exact ⟨b', List.mem_cons_of_mem _ hb', hne, hstart⟩
    · exact ⟨b, List.mem_cons_self, hlen, hb⟩

end Extents
