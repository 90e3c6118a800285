import Mathlib.Data.List.Basic
import Mathlib.Tactic.Common

/-!
# Snapshots by chunks

A memory is followed by a snapshot of it. The memory is divided into chunks of one size, and marks
say which chunks the snapshot has to be refreshed in. Entries are spans of the memory that start in
a chunk and end in the next one at the latest; they are dropped when the chunk they start in is
refreshed. So a change must mark its own chunk and the one before.

## Main definitions

- `Watched` — every change since the last refresh is marked, with the chunk before it
- `refresh` — the snapshot after the marked chunks have been taken again
- `Span` — what an entry holds is what the memory has in its place

## Main results

- `Watched.refresh_eq`, `Span.refresh`
-/

namespace Snapshots

variable {α : Type*}

def Watched (limit size : ℕ) (marked : ℕ → Bool) (memory snapshot : ℕ → α) : Prop :=
  ∀ i < limit, snapshot i ≠ memory i →
    marked (i / size) = true ∧ marked (i / size - 1) = true

def refresh (size : ℕ) (marked : ℕ → Bool) (memory snapshot : ℕ → α) : ℕ → α := fun i =>
  if marked (i / size) then memory i else snapshot i

structure Span (limit size : ℕ) (memory : ℕ → α) (start : ℕ) (words : List α) : Prop where
  le_limit : start + words.length ≤ limit
  le_chunks : start + words.length ≤ (start / size + 2) * size
  words : ∀ i (h : i < words.length), memory (start + i) = words[i]

variable {limit size : ℕ} {marked marked' : ℕ → Bool} {memory memory' snapshot : ℕ → α}

theorem Watched.mono (h : Watched limit size marked memory snapshot)
    (hmarked : ∀ k, marked k = true → marked' k = true) :
    Watched limit size marked' memory snapshot := by
  intro i hi hne
  obtain ⟨hown, hbefore⟩ := h i hi hne
  exact ⟨hmarked _ hown, hmarked _ hbefore⟩

/-- A write that marks its chunk and the one before. -/
theorem Watched.write (h : Watched limit size marked memory snapshot) {a : ℕ}
    (hown : marked (a / size) = true) (hbefore : marked (a / size - 1) = true)
    (hother : ∀ i ≠ a, memory' i = memory i) : Watched limit size marked memory' snapshot := by
  intro i hi hne
  by_cases ha : i = a
  · rw [ha]
    exact ⟨hown, hbefore⟩
  · rw [hother i ha] at hne
    exact h i hi hne

/-- A refreshed snapshot is the memory. -/
theorem Watched.refresh_eq (h : Watched limit size marked memory snapshot) {i : ℕ}
    (hi : i < limit) : refresh size marked memory snapshot i = memory i := by
  rw [refresh]
  split
  next => rfl
  next hclean =>
    by_contra hne
    exact hclean (h i hi hne).1

theorem Span.congr {start : ℕ} {words : List α} (h : Span limit size memory start words)
    (heq : ∀ i < limit, memory' i = memory i) : Span limit size memory' start words := by
  refine ⟨h.le_limit, h.le_chunks, fun i hi => ?_⟩
  have hlimit := h.le_limit
  rw [heq _ (by omega)]
  exact h.words i hi

/-- **Refresh rule**: an entry that is not dropped still holds what the snapshot has. -/
theorem Span.refresh {start : ℕ} {words : List α} (h : Span limit size snapshot start words)
    (hwatched : Watched limit size marked memory snapshot) (hsize : 0 < size)
    (hkept : marked (start / size) = false) :
    Span limit size (refresh size marked memory snapshot) start words := by
  refine ⟨h.le_limit, h.le_chunks, fun i hi => ?_⟩
  rw [Snapshots.refresh]
  split
  next hmarked =>
    -- a word of the chunk behind it, which has not changed
    have hlimit := h.le_limit
    have hchunks := h.le_chunks
    have hlow : start / size ≤ (start + i) / size := Nat.div_le_div_right (Nat.le_add_right _ _)
    have hhigh : (start + i) / size < start / size + 2 :=
      (Nat.div_lt_iff_lt_mul hsize).mpr (Nat.lt_of_lt_of_le (Nat.add_lt_add_left hi _) hchunks)
    have hne : (start + i) / size ≠ start / size := by
      intro heq
      rw [heq, hkept] at hmarked
      exact Bool.false_ne_true hmarked
    have hnext : ∀ k m : ℕ, k ≤ m → m < k + 2 → m ≠ k → m - 1 = k := by omega
    have hbefore := hnext _ _ hlow hhigh hne
    by_contra hchanged
    have hdiff : snapshot (start + i) ≠ memory (start + i) := by
      rw [h.words i hi]
      exact Ne.symm hchanged
    have hcontra := (hwatched _ (by omega) hdiff).2
    rw [hbefore, hkept] at hcontra
    exact Bool.false_ne_true hcontra
  next => exact h.words i hi

end Snapshots
