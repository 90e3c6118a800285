import Mathlib.Data.List.Basic
import Mathlib.Tactic.Common

/-!
# Streams of records

The first word of a record says how many words the record has. A stream is cut into records word by
word, with the start of the next record pending, so that it may come in any pieces.

## Main definitions

- `IsRecord`, `Unfinished` — all the words of a record, and not yet all of them
- `feed` — the records that words complete

## Main results

- `feed_append` — a stream may come in pieces
- `feed_eq_of_records` — there is one way to cut it
-/

namespace RecordStreams

variable {α : Type*} (size : α → ℕ)

def IsRecord (r : List α) : Prop := r.head?.map size = some r.length

instance decidableIsRecord (r : List α) : Decidable (IsRecord size r) :=
  inferInstanceAs (Decidable (_ = _))

def Unfinished (p : List α) : Prop := ∀ a ∈ p.head?, p.length < size a

/-- What is pending after one more word, and the record that the word completes. -/
def push (p : List α) (a : α) : List α × List (List α) :=
  if IsRecord size (p ++ [a]) then ([], [p ++ [a]]) else (p ++ [a], [])

/-- What is pending after more words, and the records that they complete. -/
def feed : List α → List α → List α × List (List α)
  | p, [] => (p, [])
  | p, a :: s =>
    ((feed (push size p a).1 s).1, (push size p a).2 ++ (feed (push size p a).1 s).2)

variable {size} {p s t r : List α}

@[simp] theorem feed_nil (p : List α) : feed size p [] = (p, []) := rfl

theorem feed_cons (p : List α) (a : α) (s : List α) : feed size p (a :: s) =
    ((feed size (push size p a).1 s).1, (push size p a).2 ++ (feed size (push size p a).1 s).2) :=
  rfl

-- ════════════════════
-- Pieces
-- ════════════════════

/-- **Pieces**: a stream may come in two. -/
theorem feed_append (p s t : List α) : feed size p (s ++ t) =
    ((feed size (feed size p s).1 t).1,
      (feed size p s).2 ++ (feed size (feed size p s).1 t).2) := by
  induction s generalizing p with
  | nil => rfl
  | cons a s ih => simp [feed_cons, ih, List.append_assoc]

theorem flatten_feed (p s : List α) :
    (feed size p s).2.flatten ++ (feed size p s).1 = p ++ s := by
  induction s generalizing p with
  | nil => simp
  | cons a s ih =>
    rw [feed_cons, List.flatten_append, List.append_assoc, ih]
    rw [push]
    split <;> simp

theorem isRecord_of_mem_feed (h : r ∈ (feed size p s).2) : IsRecord size r := by
  induction s generalizing p with
  | nil => simp at h
  | cons a s ih =>
    rw [feed_cons, List.mem_append] at h
    rcases h with hpush | hrest
    · rw [push] at hpush
      split at hpush
      case isTrue hrecord => exact List.mem_singleton.1 hpush ▸ hrecord
      case isFalse => simp at hpush
    · exact ih hrest

theorem unfinished_nil : Unfinished size ([] : List α) := fun _ h => nomatch h

theorem unfinished_push (hsize : ∀ a, 0 < size a) (hp : Unfinished size p) (a : α) :
    Unfinished size (push size p a).1 := by
  rw [push]
  split
  · exact unfinished_nil
  case isFalse hrecord =>
    intro b hb
    have hne : size b ≠ (p ++ [a]).length := by
      intro h
      apply hrecord
      rw [IsRecord, hb, Option.map_some, h]
    cases p with
    | nil =>
      have hpos := hsize b
      simp only [List.nil_append, List.length_singleton] at hne ⊢
      omega
    | cons c p =>
      have hlt := hp b hb
      simp only [List.length_append, List.length_singleton] at hne ⊢
      omega

theorem unfinished_feed (hsize : ∀ a, 0 < size a) (hp : Unfinished size p) (s : List α) :
    Unfinished size (feed size p s).1 := by
  induction s generalizing p with
  | nil => exact hp
  | cons a s ih => exact ih (unfinished_push hsize hp a)

-- ════════════════════
-- Records
-- ════════════════════

/-- Words are pushed without a record as long as some of it is missing. -/
theorem push_of_short {a : α} (h : ∀ b ∈ (p ++ [a]).head?, (p ++ [a]).length < size b) :
    push size p a = (p ++ [a], []) := by
  refine if_neg fun hrecord => ?_
  obtain ⟨b, hb, hlength⟩ := Option.map_eq_some_iff.1 hrecord
  exact absurd hlength (Nat.ne_of_gt (h b hb))

theorem head?_append_of_ne {l : List α} (h : l ≠ []) (m : List α) : (l ++ m).head? = l.head? := by
  cases l with
  | nil => exact absurd rfl h
  | cons a l => rfl

theorem feed_of_unfinished (h : Unfinished size (p ++ s)) : feed size p s = (p ++ s, []) := by
  induction s generalizing p with
  | nil => rw [feed_nil, List.append_nil]
  | cons a s ih =>
    have hpush : push size p a = (p ++ [a], []) := by
      refine push_of_short fun b hb => ?_
      have hlt : (p ++ a :: s).length < size b := by
        refine h b ?_
        rw [List.append_cons, head?_append_of_ne (by simp)]
        exact hb
      simp only [List.length_append, List.length_cons, List.length_nil] at hlt ⊢
      omega
    rw [List.append_cons] at h
    rw [feed_cons, hpush, ih h, List.append_assoc]
    rfl

theorem feed_of_isRecord (h : IsRecord size (p ++ s)) (hs : s ≠ []) :
    feed size p s = ([], [p ++ s]) := by
  obtain ⟨s, a, rfl⟩ := List.eq_nil_or_concat s |>.resolve_left hs
  rw [List.concat_eq_append] at h ⊢
  have hunfinished : Unfinished size (p ++ s) := by
    intro b hb
    have hne : p ++ s ≠ [] := by
      rintro hnil
      rw [hnil] at hb
      exact nomatch hb
    have hlength : (p ++ s ++ [a]).head?.map size = some (p ++ (s ++ [a])).length := by
      rw [List.append_assoc]
      exact h
    rw [head?_append_of_ne hne, hb, Option.map_some, Option.some.injEq] at hlength
    rw [hlength]
    simp only [List.length_append, List.length_singleton]
    omega
  rw [← List.append_assoc] at h ⊢
  rw [feed_append, feed_of_unfinished hunfinished, feed_cons, push, if_pos h]
  rfl

theorem feed_record (h : IsRecord size r) (s : List α) :
    feed size [] (r ++ s) = ((feed size [] s).1, r :: (feed size [] s).2) := by
  have hr : r ≠ [] := by
    rintro rfl
    exact nomatch h
  rw [feed_append, feed_of_isRecord (p := []) h hr]
  rfl

/-- **One way**: a stream is cut into the records that it consists of. -/
theorem feed_eq_of_records {rs : List (List α)} (hrs : ∀ r ∈ rs, IsRecord size r)
    (ht : Unfinished size t) : feed size [] (rs.flatten ++ t) = (t, rs) := by
  induction rs with
  | nil => exact feed_of_unfinished ht
  | cons r rs ih =>
    rw [List.flatten_cons, List.append_assoc, feed_record (hrs r List.mem_cons_self),
      ih fun r hr => hrs r (List.mem_cons_of_mem _ hr)]

/-- A record is completed when there are words enough. -/
theorem feed_ne_nil (hsize : ∀ a, 0 < size a) (hp : Unfinished size p) {a : α} (ha : a ∈ p.head?)
    (h : size a ≤ p.length + s.length) : (feed size p s).2 ≠ [] := by
  intro hnil
  have hflatten : (feed size p s).2.flatten ++ (feed size p s).1 = p ++ s := flatten_feed p s
  rw [hnil, List.flatten_nil, List.nil_append] at hflatten
  have hunfinished := unfinished_feed hsize hp s
  rw [hflatten] at hunfinished
  have hne : p ≠ [] := by
    rintro rfl
    exact nomatch ha
  have hlt := hunfinished a (by rw [head?_append_of_ne hne]; exact ha)
  rw [List.length_append] at hlt
  omega

end RecordStreams
