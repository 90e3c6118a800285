import Mathlib.Data.List.Basic
import Mathlib.Tactic.Common

/-!
# Memo tables

A table remembers the values of a function by keys of its arguments. An argument is looked up under
one key and remembered under another; a value found in the table is answered without computing the
function. The table never forgets, so that what it answers depends on all arguments so far.

## Main definitions

- `answer` — one call through the table
- `Faithful` — the table answers what the most recent argument under a key gave
- `entries` — how many calls of a history have added to the table

## Main results

- `Faithful.answer_iff` — a call is answered rightly exactly when the most recent argument under
  its key has the same value
- `Faithful.step` — a right answer keeps the table faithful
-/

namespace Memo

variable {ι κ ν : Type*} [DecidableEq κ]

/-- The most recent entry under a key; the table has the most recent entry first. -/
def lookup (t : List (κ × ν)) (x : κ) : Option ν := (t.find? (·.1 = x)).map Prod.snd

/-- The most recent argument of a history remembered under a key. -/
def recent (remembered : ι → κ) (past : List ι) (x : κ) : Option ι :=
  past.find? (remembered · = x)

variable (f : ι → ν) (key remembered : ι → κ)

/-- A call through the table: the value answered and the table after it. -/
def answer (t : List (κ × ν)) (i : ι) : ν × List (κ × ν) :=
  match lookup t (key i) with
  | some v => (v, t)
  | none => (f i, (remembered i, f i) :: t)

/-- The number of arguments of a history, the most recent first, that were not found. -/
def entries : List ι → ℕ
  | [] => 0
  | i :: past => entries past + if (recent remembered past (key i)).isSome then 0 else 1

/-- The table answers the value of the most recent argument under each key. -/
structure Faithful (past : List ι) (t : List (κ × ν)) : Prop where
  lookup : ∀ x, Memo.lookup t x = (recent remembered past x).map f
  length : t.length = entries key remembered past

variable {f key remembered}

theorem recent_cons (i : ι) (past : List ι) (x : κ) :
    recent remembered (i :: past) x =
      if remembered i = x then some i else recent remembered past x := by
  rw [recent, List.find?_cons]
  by_cases h : remembered i = x
  · simp [h]
  · simp [h, recent]

theorem lookup_cons (x y : κ) (v : ν) (t : List (κ × ν)) :
    lookup ((x, v) :: t) y = if x = y then some v else lookup t y := by
  rw [lookup, List.find?_cons]
  by_cases h : x = y
  · simp [h]
  · simp [h, lookup]

theorem Faithful.nil : Faithful f key remembered [] [] := ⟨fun _ => rfl, rfl⟩

namespace Faithful

variable {past : List ι} {t : List (κ × ν)}

/-- **The exact condition** for a right answer. -/
theorem answer_iff (h : Faithful f key remembered past t) (i : ι) :
    (answer f key remembered t i).1 = f i ↔
      ∀ j, recent remembered past (key i) = some j → f j = f i := by
  rw [answer, h.lookup]
  cases hr : recent remembered past (key i) with
  | none => simp
  | some j => simp

/-- What a call adds to the table. -/
theorem answer_length (h : Faithful f key remembered past t) (i : ι) :
    (answer f key remembered t i).2.length = entries key remembered (i :: past) := by
  rw [answer, h.lookup, entries]
  cases hr : recent remembered past (key i) with
  | none => simp [h.length]
  | some j => simp [h.length]

/-- A right answer keeps the table faithful, if an argument that is found is also remembered under
    the key it was found by. -/
theorem step (h : Faithful f key remembered past t) {i : ι}
    (hnormal : ∀ j, remembered j = key i → remembered i = key i)
    (hright : (answer f key remembered t i).1 = f i) :
    Faithful f key remembered (i :: past) (answer f key remembered t i).2 := by
  refine ⟨fun x => ?_, h.answer_length i⟩
  rw [recent_cons]
  cases hr : recent remembered past (key i) with
  | none =>
    have hmiss : Memo.lookup t (key i) = none := by rw [h.lookup, hr]; rfl
    rw [answer, hmiss, lookup_cons, h.lookup]
    split <;> rfl
  | some j =>
    have hhit : Memo.lookup t (key i) = some (f j) := by rw [h.lookup, hr]; rfl
    have hfound : remembered j = key i := by
      rw [recent] at hr
      have hj := List.find?_some hr
      exact of_decide_eq_true hj
    have hself := hnormal j hfound
    have hanswer : answer f key remembered t i = (f j, t) := by rw [answer, hhit]
    rw [hanswer] at hright ⊢
    rw [hself]
    split
    next hx => rw [← hx, hhit, Option.map_some, ← hright]
    next => rw [h.lookup]

end Faithful

end Memo
