import Mathlib.Data.BitVec
import Mathlib.Data.List.FinRange
import Mathlib.Tactic.Common

/-!
# Fixed-size byte codecs

A codec writes a value as a fixed number of bytes and reads it back from the front of any longer
byte string. A record is then a concatenation of encodings, and a reader that consumes the same
sizes in the same order gets every value back.

## Main definitions

- `Codec` — sizes, encoding and decoding with the round trip as a field
- `Codec.u8`, `Codec.u16`, `Codec.u32`, `Codec.u64` — little-endian integers
- `Codec.array` — `n` values of one codec
- `Reader`, `Reader.field`, `Reader.skip`, `Reader.run` — a sequential reader that stores what it
  reads into a state

## Main results

- `Reader.run_field` — a field is read from the front and the cursor moves behind it
- `Reader.run_keeps` — a part of the state that no step touches stays as it was
-/

namespace Mupen64plus

/-- An encoding of a type in a fixed number of bytes. -/
structure Codec (α : Type*) where
  size : ℕ
  put : α → List (BitVec 8)
  get : List (BitVec 8) → α
  length_put : ∀ a, (put a).length = size
  get_put : ∀ a rest, get (put a ++ rest) = a

namespace Codec

variable {α : Type*}

/-- The byte of a number at a position, the first being the least significant. -/
def byteAt {w : ℕ} (v : BitVec w) (i : ℕ) : BitVec 8 := v.extractLsb' (8 * i) 8

/-- Two adjacent pieces of a number make one. -/
theorem append_extractLsb' {w : ℕ} (v : BitVec w) (s l : ℕ) :
    v.extractLsb' (s + 8) l ++ v.extractLsb' s 8 = v.extractLsb' s (l + 8) := by
  ext i hi
  simp only [BitVec.getElem_append, BitVec.getElem_extractLsb']
  by_cases hlt : i < 8
  · simp [hlt]
  · simp only [hlt, dite_false]
    congr 1
    omega

theorem extractLsb'_full {w : ℕ} (v : BitVec w) : v.extractLsb' 0 w = v := by
  ext i hi
  simp

/-- One byte. -/
def u8 : Codec (BitVec 8) where
  size := 1
  put v := [v]
  get l := l.getD 0 0
  length_put _ := rfl
  get_put _ _ := rfl

/-- Two bytes. -/
def u16 : Codec (BitVec 16) where
  size := 2
  put v := [byteAt v 0, byteAt v 1]
  get l := l.getD 1 0 ++ l.getD 0 0
  length_put _ := rfl
  get_put v rest := by
    have h : v.extractLsb' 8 8 ++ v.extractLsb' 0 8 = v.extractLsb' 0 16 :=
      append_extractLsb' v 0 8
    exact h.trans (extractLsb'_full v)

/-- Four bytes. -/
def u32 : Codec (BitVec 32) where
  size := 4
  put v := [byteAt v 0, byteAt v 1, byteAt v 2, byteAt v 3]
  get l := (l.getD 3 0 ++ l.getD 2 0 ++ l.getD 1 0 : BitVec 24) ++ l.getD 0 0
  length_put _ := rfl
  get_put v rest := by
    have h3 : v.extractLsb' 24 8 ++ v.extractLsb' 16 8 = v.extractLsb' 16 16 :=
      append_extractLsb' v 16 8
    have h2 : v.extractLsb' 16 16 ++ v.extractLsb' 8 8 = v.extractLsb' 8 24 :=
      append_extractLsb' v 8 16
    have h1 : v.extractLsb' 8 24 ++ v.extractLsb' 0 8 = v.extractLsb' 0 32 :=
      append_extractLsb' v 0 24
    change (v.extractLsb' 24 8 ++ v.extractLsb' 16 8 ++ v.extractLsb' 8 8 : BitVec 24) ++
      v.extractLsb' 0 8 = v
    rw [h3, h2, h1]
    exact extractLsb'_full v

/-- Eight bytes. -/
def u64 : Codec (BitVec 64) where
  size := 8
  put v := u32.put (v.extractLsb' 0 32) ++ u32.put (v.extractLsb' 32 32)
  get l := u32.get (l.drop 4) ++ u32.get l
  length_put _ := rfl
  get_put v rest := by
    rw [List.append_assoc]
    have hdrop : (u32.put (v.extractLsb' 0 32) ++ (u32.put (v.extractLsb' 32 32) ++ rest)).drop 4 =
        u32.put (v.extractLsb' 32 32) ++ rest := List.drop_left' (u32.length_put _)
    rw [hdrop, u32.get_put, u32.get_put]
    ext i hi
    simp only [BitVec.getElem_append, BitVec.getElem_extractLsb']
    by_cases hlt : i < 32
    · simp [hlt, BitVec.getLsbD_eq_getElem hi]
    · simp only [hlt, dite_false]
      rw [show 32 + (i - 32) = i by omega, BitVec.getLsbD_eq_getElem hi]

variable (c : Codec α)

theorem drop_put (a : α) (rest : List (BitVec 8)) : (c.put a ++ rest).drop c.size = rest :=
  List.drop_left' (c.length_put a)

/-- The encodings of a list of values, one behind the other. -/
def putAll (l : List α) : List (BitVec 8) := l.flatMap c.put

theorem length_putAll (l : List α) : (c.putAll l).length = l.length * c.size := by
  induction l with
  | nil => simp [putAll]
  | cons a l ih =>
    have h : c.putAll (a :: l) = c.put a ++ c.putAll l := rfl
    rw [h, List.length_append, ih, c.length_put, List.length_cons, Nat.succ_mul, Nat.add_comm]

/-- The value at index `i` is read `i` sizes behind the start. -/
theorem get_drop_putAll (l : List α) (rest : List (BitVec 8)) (i : ℕ) (h : i < l.length) :
    c.get ((c.putAll l ++ rest).drop (i * c.size)) = l[i] := by
  induction l generalizing i with
  | nil => simp at h
  | cons a l ih =>
    have hcons : c.putAll (a :: l) ++ rest = c.put a ++ (c.putAll l ++ rest) := by
      rw [← List.append_assoc]
      rfl
    rw [hcons]
    cases i with
    | zero => simpa using c.get_put a _
    | succ i =>
      rw [Nat.succ_mul, Nat.add_comm, ← List.drop_drop, c.drop_put]
      simpa using ih i (by simpa using h)

/-- `n` values of one codec. -/
def array (n : ℕ) : Codec (Fin n → α) where
  size := n * c.size
  put f := c.putAll (List.ofFn f)
  get l i := c.get (l.drop (i.val * c.size))
  length_put f := by rw [length_putAll, List.length_ofFn]
  get_put f rest := by
    funext i
    rw [get_drop_putAll c _ rest i.val (by simp)]
    simp

end Codec

-- ════════════════════════════════════════════════════════════════════════
-- Sequential readers
-- ════════════════════════════════════════════════════════════════════════

/-- A step of a reader: the bytes from the cursor on, and the state it fills in. -/
abbrev Reader (σ : Type*) := List (BitVec 8) × σ → List (BitVec 8) × σ

namespace Reader

variable {α σ : Type*}

/-- Reads one value and stores it. -/
def field (c : Codec α) (store : α → σ → σ) : Reader σ := fun s =>
  (s.1.drop c.size, store (c.get s.1) s.2)

/-- Moves the cursor. -/
def skip (n : ℕ) : Reader σ := fun s => (s.1.drop n, s.2)

/-- Changes the state only. -/
def act (f : σ → σ) : Reader σ := fun s => (s.1, f s.2)

/-- The steps one after the other. -/
def run (steps : List (Reader σ)) : Reader σ := fun s => steps.foldl (fun s step => step s) s

@[simp] theorem run_nil (s : List (BitVec 8) × σ) : run [] s = s := rfl

theorem run_cons (step : Reader σ) (steps : List (Reader σ)) (s : List (BitVec 8) × σ) :
    run (step :: steps) s = run steps (step s) := rfl

theorem run_append (steps steps' : List (Reader σ)) (s : List (BitVec 8) × σ) :
    run (steps ++ steps') s = run steps' (run steps s) := by
  rw [run, List.foldl_append]
  rfl

/-- A field is read from the front, and the cursor moves behind it. -/
@[simp] theorem run_field (c : Codec α) (store : α → σ → σ) (steps : List (Reader σ)) (a : α)
    (rest : List (BitVec 8)) (d : σ) :
    run (field c store :: steps) (c.put a ++ rest, d) = run steps (rest, store a d) := by
  rw [run_cons, field, c.drop_put, c.get_put]

@[simp] theorem run_act (f : σ → σ) (steps : List (Reader σ)) (l : List (BitVec 8)) (d : σ) :
    run (act f :: steps) (l, d) = run steps (l, f d) := rfl

-- ════════════════════════════════════════════════════════════════════════
-- The cursor
-- ════════════════════════════════════════════════════════════════════════

@[simp] theorem field_fst (c : Codec α) (store : α → σ → σ) (s : List (BitVec 8) × σ) :
    (field c store s).1 = s.1.drop c.size := rfl

@[simp] theorem skip_fst (n : ℕ) (s : List (BitVec 8) × σ) :
    (skip n s : List (BitVec 8) × σ).1 = s.1.drop n := rfl

@[simp] theorem act_fst (f : σ → σ) (s : List (BitVec 8) × σ) : (act f s).1 = s.1 := rfl

@[simp] theorem field_snd (c : Codec α) (store : α → σ → σ) (s : List (BitVec 8) × σ) :
    (field c store s).2 = store (c.get s.1) s.2 := rfl

@[simp] theorem skip_snd (n : ℕ) (s : List (BitVec 8) × σ) :
    (skip n s : List (BitVec 8) × σ).2 = s.2 := rfl

@[simp] theorem act_snd (f : σ → σ) (s : List (BitVec 8) × σ) : (act f s).2 = f s.2 := rfl

/-- Groups of steps that move the cursor by the same number of bytes each. -/
theorem run_flatMap_fst {ι : Type*} (f : ι → List (Reader σ)) (n : ℕ)
    (h : ∀ i s, (run (f i) s).1 = s.1.drop n) (l : List ι) (s : List (BitVec 8) × σ) :
    (run (l.flatMap f) s).1 = s.1.drop (l.length * n) := by
  induction l generalizing s with
  | nil => simp
  | cons i l ih =>
    rw [List.flatMap_cons, run_append, ih, h, List.drop_drop, List.length_cons, Nat.succ_mul,
      Nat.add_comm]

-- ════════════════════════════════════════════════════════════════════════
-- Frames
-- ════════════════════════════════════════════════════════════════════════

variable {β : Type*}

/-- The step leaves the part `f` of the state as it is. -/
def Keeps (f : σ → β) (step : Reader σ) : Prop := ∀ s, f (step s).2 = f s.2

theorem keeps_field {f : σ → β} {c : Codec α} {store : α → σ → σ}
    (h : ∀ v d, f (store v d) = f d) : Keeps f (field c store) := fun _ => h _ _

theorem keeps_skip (f : σ → β) (n : ℕ) : Keeps f (skip n) := fun _ => rfl

theorem keeps_act {f : σ → β} {g : σ → σ} (h : ∀ d, f (g d) = f d) : Keeps f (act g) :=
  fun _ => h _

/-- Every one of some steps leaves the part `f` of the state as it is. -/
def AllKeep (f : σ → β) (steps : List (Reader σ)) : Prop := ∀ step ∈ steps, Keeps f step

@[simp] theorem allKeep_nil (f : σ → β) : AllKeep f [] := by simp [AllKeep]

@[simp] theorem allKeep_cons (f : σ → β) (step : Reader σ) (steps : List (Reader σ)) :
    AllKeep f (step :: steps) ↔ Keeps f step ∧ AllKeep f steps := List.forall_mem_cons

@[simp] theorem allKeep_append (f : σ → β) (steps steps' : List (Reader σ)) :
    AllKeep f (steps ++ steps') ↔ AllKeep f steps ∧ AllKeep f steps' := List.forall_mem_append

theorem allKeep_flatMap {ι : Type*} {f : σ → β} {g : ι → List (Reader σ)} (l : List ι)
    (h : ∀ i, AllKeep f (g i)) : AllKeep f (l.flatMap g) := by
  intro step hstep
  obtain ⟨i, -, hi⟩ := List.mem_flatMap.mp hstep
  exact h i step hi

theorem allKeep_map {ι : Type*} {f : σ → β} {g : ι → Reader σ} (l : List ι)
    (h : ∀ i ∈ l, Keeps f (g i)) : AllKeep f (l.map g) := by
  intro step hstep
  obtain ⟨i, hi, rfl⟩ := List.mem_map.mp hstep
  exact h i hi

/-- **Frame rule**: what no step touches is as it was at the end. -/
theorem run_keeps {f : σ → β} {steps : List (Reader σ)} (h : AllKeep f steps)
    (s : List (BitVec 8) × σ) : f (run steps s).2 = f s.2 := by
  induction steps generalizing s with
  | nil => rfl
  | cons step steps ih =>
    obtain ⟨hstep, hsteps⟩ := (allKeep_cons f step steps).mp h
    rw [run_cons, ih hsteps, hstep s]

end Reader

end Mupen64plus
