import Mathlib.Data.List.Basic
import Mathlib.Order.Monotone.Basic
import Mathlib.Tactic.Common

/-!
# Numbering around gaps

A medium with bad places numbers its good places one after the other. `place ds k` is the good place
with number `k`, where `ds` lists the bad ones in increasing order.

## Main results

- `place_strictMono`, `place_not_mem` — the numbering is injective, and gives no bad place
- `place_lt`, `le_place_of_le` — with all bad places below `n`, exactly the numbers below
  `n - ds.length` stay below `n`
- `exists_place` — every good place has a number
-/

namespace Gaps

/-- Every bad place that is reached moves the number up by one. -/
def place : List ℕ → ℕ → ℕ
  | [], k => k
  | d :: ds, k => if d ≤ k then place ds (k + 1) else k

@[simp] theorem place_nil (k : ℕ) : place [] k = k := rfl

theorem place_cons_of_le {d k : ℕ} (h : d ≤ k) (ds : List ℕ) :
    place (d :: ds) k = place ds (k + 1) := if_pos h

theorem place_cons_of_lt {d k : ℕ} (h : k < d) (ds : List ℕ) : place (d :: ds) k = k :=
  if_neg (Nat.not_le_of_lt h)

theorem le_place (ds : List ℕ) (k : ℕ) : k ≤ place ds k := by
  induction ds generalizing k with
  | nil => exact le_rfl
  | cons d ds ih =>
    unfold place
    split
    · exact (Nat.le_succ k).trans (ih (k + 1))
    · exact le_rfl

theorem place_le (ds : List ℕ) (k : ℕ) : place ds k ≤ k + ds.length := by
  induction ds generalizing k with
  | nil => exact le_rfl
  | cons d ds ih =>
    unfold place
    split
    · have := ih (k + 1)
      simp only [List.length_cons]
      omega
    · exact Nat.le_add_right k _

theorem place_lt {ds : List ℕ} {k n : ℕ} (h : k + ds.length < n) : place ds k < n :=
  (place_le ds k).trans_lt h

theorem place_strictMono (ds : List ℕ) : StrictMono (place ds) := by
  induction ds with
  | nil => exact fun _ _ h => h
  | cons d ds ih =>
    intro j k h
    by_cases hj : d ≤ j
    · rw [place_cons_of_le hj, place_cons_of_le (hj.trans h.le)]
      exact ih (Nat.succ_lt_succ h)
    · rw [place_cons_of_lt (Nat.lt_of_not_le hj)]
      exact h.trans_le (le_place _ k)

/-- Below all the bad places, each place has its own number. -/
theorem place_of_lt {ds : List ℕ} {k : ℕ} (h : ∀ d ∈ ds, k < d) : place ds k = k := by
  cases ds with
  | nil => rfl
  | cons d ds => exact place_cons_of_lt (h d List.mem_cons_self) ds

theorem place_not_mem {ds : List ℕ} (h : ds.Pairwise (· < ·)) (k : ℕ) : place ds k ∉ ds := by
  induction ds generalizing k with
  | nil => exact List.not_mem_nil
  | cons d ds ih =>
    obtain ⟨hfirst, hrest⟩ := List.pairwise_cons.mp h
    by_cases hk : d ≤ k
    · rw [place_cons_of_le hk, List.mem_cons, not_or]
      have hle := le_place ds (k + 1)
      exact ⟨by omega, ih hrest (k + 1)⟩
    · rw [place_cons_of_lt (Nat.lt_of_not_le hk), List.mem_cons, not_or]
      refine ⟨by omega, fun hmem => ?_⟩
      have hlt := hfirst k hmem
      omega

/-- **Every good place has a number.** -/
theorem exists_place {ds : List ℕ} (h : ds.Pairwise (· < ·)) {n : ℕ} (hn : n ∉ ds) :
    ∃ k, place ds k = n := by
  induction ds with
  | nil => exact ⟨n, rfl⟩
  | cons d ds ih =>
    obtain ⟨hfirst, hrest⟩ := List.pairwise_cons.mp h
    obtain ⟨hne, hmem⟩ := not_or.mp (List.mem_cons.not.mp hn)
    obtain ⟨k, hk⟩ := ih hrest hmem
    by_cases hd : d < k
    · refine ⟨k - 1, ?_⟩
      rw [place_cons_of_le (by omega), Nat.sub_add_cancel (by omega)]
      exact hk
    · -- the rest of the bad places lies above `k`, which is its own number then
      have hsame : place ds k = k := place_of_lt fun e he => (Nat.le_of_not_lt hd).trans_lt
        (hfirst e he)
      refine ⟨k, ?_⟩
      rw [place_cons_of_lt (by omega)]
      omega

theorem add_length_le {ds : List ℕ} (h : ds.Pairwise (· < ·)) {a n : ℕ} (hn : a ≤ n)
    (hds : ∀ d ∈ ds, a ≤ d ∧ d < n) : a + ds.length ≤ n := by
  induction ds generalizing a with
  | nil => exact hn
  | cons d ds ih =>
    obtain ⟨hfirst, hrest⟩ := List.pairwise_cons.mp h
    obtain ⟨had, hdn⟩ := hds d List.mem_cons_self
    have hle := ih (a := d + 1) hrest hdn fun e he =>
      ⟨hfirst e he, (hds e (List.mem_cons_of_mem d he)).2⟩
    simp only [List.length_cons]
    omega

/-- All the bad places are below `n`, so that the numbers behind those of `n` are not. -/
theorem le_place_of_le {ds : List ℕ} (h : ds.Pairwise (· < ·)) {k n : ℕ} (hds : ∀ d ∈ ds, d < n)
    (hk : n ≤ k + ds.length) : n ≤ place ds k := by
  induction ds generalizing k with
  | nil => exact hk
  | cons d ds ih =>
    obtain ⟨hfirst, hrest⟩ := List.pairwise_cons.mp h
    have hdn := hds d List.mem_cons_self
    by_cases hd : d ≤ k
    · rw [place_cons_of_le hd]
      refine ih hrest (fun e he => hds e (List.mem_cons_of_mem d he)) ?_
      simp only [List.length_cons] at hk
      omega
    · -- the bad places fill less than what is left up to `n`
      have hfill := add_length_le hrest (a := d + 1) hdn fun e he =>
        ⟨hfirst e he, hds e (List.mem_cons_of_mem d he)⟩
      simp only [List.length_cons] at hk
      omega

end Gaps
