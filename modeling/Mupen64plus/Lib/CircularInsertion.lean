import Mupen64plus.Lib.DueQueue

/-!
# Insertion into a queue by distances on a circle

A queue of entries with due times is kept by insertions that compare distances from a base,
modulo a period. Due times lie within half a period to each side of the present, at time 0, and
the new entry is due within one period. The insertion keeps the due order exactly if the new
entry fits the base.

## Main definitions

- `Fits` — how the base has to lie for a new due time and the due times of the queue

## Main results

- `dueOrder_insertFirst_iff` — insertion by a test of the due time, of any kind
- `dueOrder_circular_iff` — insertion by distances modulo the period
- `fits_near_iff` — a new entry that is due soon after its base
-/

namespace DueQueue

variable {α : Type*} {due : α → ℤ} {now : ℤ}

theorem le_of_max_le {a b now : ℤ} (ha : now < a) (h : max a now ≤ max b now) : a ≤ b := by
  omega

/-- An entry of the future is inserted by a test of the due time: it is placed right if the test
    selects only entries that are due no earlier, and some entry in front of each later one. -/
theorem dueOrder_insertFirst_iff {p : α → Bool} {x : α} (hx : now < due x)
    (hp : ∀ y z, due y = due z → p y = p z) (l : List α) :
    DueOrder due now (insertFirst p x l) ↔
      DueOrder due now l ∧ (∀ m ∈ l, p m = true → due x ≤ due m) ∧
        ∀ y ∈ l, due x < due y → ∃ m ∈ l, p m = true ∧ due m ≤ due y := by
  induction l with
  | nil => simp [dueOrder_cons]
  | cons y ys ih =>
    rw [insertFirst_cons]
    split
    · next hpy =>
      rw [dueOrder_cons]
      constructor
      · rintro ⟨hall, hord⟩
        have hle : ∀ z ∈ y :: ys, due x ≤ due z := fun z hz => le_of_max_le hx (hall z hz)
        refine ⟨hord, fun m hm _ => hle m hm, fun z hz hlt => ⟨y, by simp, hpy, ?_⟩⟩
        rcases List.mem_cons.1 hz with rfl | hz
        · exact le_rfl
        · have hyz := (dueOrder_cons.1 hord).1 z hz
          omega
      · rintro ⟨hord, hsel, -⟩
        have hxy := hsel y (by simp) hpy
        refine ⟨fun z hz => ?_, hord⟩
        rcases List.mem_cons.1 hz with rfl | hz
        · exact max_le_max_right _ hxy
        · have hyz := (dueOrder_cons.1 hord).1 z hz
          omega
    · next hpy =>
      rw [dueOrder_cons, ih, dueOrder_cons]
      constructor
      · rintro ⟨hall, hord, hsel, hfront⟩
        have hyx : max (due y) now ≤ max (due x) now := hall x (mem_insertFirst.2 (Or.inl rfl))
        refine ⟨⟨fun z hz => hall z (mem_insertFirst.2 (Or.inr hz)), hord⟩, ?_, ?_⟩
        · intro m hm hpm
          rcases List.mem_cons.1 hm with rfl | hm
          · exact absurd hpm hpy
          · exact hsel m hm hpm
        · intro z hz hlt
          rcases List.mem_cons.1 hz with rfl | hz
          · omega
          · obtain ⟨m, hm, hpm, hle⟩ := hfront z hz hlt
            exact ⟨m, List.mem_cons_of_mem _ hm, hpm, hle⟩
      · rintro ⟨⟨hall, hord⟩, hsel, hfront⟩
        -- an entry that the test does not select is not due later
        have hyx : due y ≤ due x := by
          by_contra hlt
          obtain ⟨m, hm, hpm, hle⟩ := hfront y (by simp) (by omega)
          rcases List.mem_cons.1 hm with rfl | hm
          · exact hpy hpm
          · have hym := hall m hm
            exact hpy ((hp y m (by omega)).trans hpm)
        refine ⟨?_, hord, fun m hm => hsel m (List.mem_cons_of_mem _ hm), ?_⟩
        · intro z hz
          rcases mem_insertFirst.1 hz with rfl | hz
          · exact max_le_max_right _ hyx
          · exact hall z hz
        · intro z hz hlt
          obtain ⟨m, hm, hpm, hle⟩ := hfront z (List.mem_cons_of_mem _ hz) hlt
          rcases List.mem_cons.1 hm with rfl | hm
          · exact absurd hpm hpy
          · exact ⟨m, hm, hpm, hle⟩

/-- The base `b` lies right for a new due time `d` among the due times of `l`: `H` is half the
    period. A new entry that is due before the base has to find one between itself and the base,
    or nothing behind it; one that is due within the period of the base must not be reached by an
    entry due before the base; one that is due after that period must come last anyway. -/
def Fits (due : α → ℤ) (H b d : ℤ) (l : List α) : Prop :=
  if d < b then ∀ y ∈ l, d < due y → ∃ z ∈ l, d < due z ∧ due z < b
  else if d < b + 2 * H then ∀ y ∈ l, due y < b → due y + 2 * H ≤ d
  else ∀ y ∈ l, b ≤ due y ∧ due y + 2 * H ≤ d

instance decidableFits (due : α → ℤ) (H b d : ℤ) (l : List α) : Decidable (Fits due H b d l) :=
  inferInstanceAs (Decidable (ite _ _ _))

theorem dueOrder_map_iff {l : List α} : DueOrder due now l ↔ DueOrder id now (l.map due) := by
  unfold DueOrder
  rw [List.pairwise_map]
  rfl

theorem fits_map_iff {H b d : ℤ} {l : List α} : Fits due H b d l ↔ Fits id H b d (l.map due) := by
  have hex : (∃ z ∈ l.map due, d < z ∧ z < b) ↔ ∃ z ∈ l, d < due z ∧ due z < b := by simp
  unfold Fits
  simp only [List.forall_mem_map, id, hex]

/-- Whether an entry fits depends on the due times that the queue holds. -/
theorem Fits.congr_mem {H b d : ℤ} {l l' : List ℤ} (h : Fits id H b d l)
    (hl : ∀ t, t ∈ l' ↔ t ∈ l) : Fits id H b d l' := by
  unfold Fits at h ⊢
  simp only [hl]
  exact h

section Circular

variable {H b d : ℤ} {l : List α} {p : α → Bool} {x : α}

/-- The distance from the base of a time that lies before the period of the base, in it, or
    behind it. -/
theorem distance_before (h : d < b) (h' : b ≤ d + 2 * H) : (d - b) % (2 * H) = d - b + 2 * H := by
  rw [← Int.add_emod_right, Int.emod_eq_of_lt (by omega) (by omega)]

theorem distance_within (h : b ≤ d) (h' : d < b + 2 * H) : (d - b) % (2 * H) = d - b :=
  Int.emod_eq_of_lt (by omega) (by omega)

theorem distance_behind (h : b + 2 * H ≤ d) (h' : d < b + 4 * H) :
    (d - b) % (2 * H) = d - b - 2 * H := by
  rw [← Int.sub_emod_right, Int.emod_eq_of_lt (by omega) (by omega)]

/-- **Insertion by distances**: the due order is kept exactly if the new entry fits the base. -/
theorem dueOrder_circular_iff (hb : -H < b ∧ b ≤ H) (hd : 1 ≤ due x ∧ due x ≤ 2 * H)
    (hl : ∀ y ∈ l, -H < due y ∧ due y ≤ H)
    (hp : ∀ y, p y = decide ((due x - b) % (2 * H) < (due y - b) % (2 * H))) :
    DueOrder due 0 (insertFirst p x l) ↔ DueOrder due 0 l ∧ Fits due H b (due x) l := by
  have hcongr : ∀ y z, due y = due z → p y = p z := fun y z h => by rw [hp, hp, h]
  rw [dueOrder_insertFirst_iff (by omega) hcongr]
  refine and_congr_right fun _ => ?_
  -- the distance of a queued entry
  have hbefore (y : α) (hy : y ∈ l) (hlt : due y < b) :
      (due y - b) % (2 * H) = due y - b + 2 * H :=
    distance_before hlt (by have := hl y hy; omega)
  have hwithin (y : α) (hy : y ∈ l) (hge : b ≤ due y) : (due y - b) % (2 * H) = due y - b :=
    distance_within hge (by have := hl y hy; omega)
  unfold Fits
  split
  · next hlt =>
    have hsel (y : α) (hy : y ∈ l) : p y = true ↔ due x < due y ∧ due y < b := by
      have hbound := hl y hy
      rw [hp, decide_eq_true_iff, distance_before hlt (by omega)]
      by_cases hyb : due y < b
      · rw [hbefore y hy hyb]
        omega
      · rw [hwithin y hy (by omega)]
        omega
    constructor
    · rintro ⟨-, hfront⟩ y hy hxy
      obtain ⟨m, hm, hpm, -⟩ := hfront y hy hxy
      exact ⟨m, hm, (hsel m hm).1 hpm⟩
    · intro h
      refine ⟨fun m hm hpm => ((hsel m hm).1 hpm).1.le, fun y hy hxy => ?_⟩
      by_cases hyb : due y < b
      · exact ⟨y, hy, (hsel y hy).2 ⟨hxy, hyb⟩, le_rfl⟩
      · obtain ⟨m, hm, hxm, hmb⟩ := h y hy hxy
        exact ⟨m, hm, (hsel m hm).2 ⟨hxm, hmb⟩, by omega⟩
  · split
    · next hge hlt =>
      have hxdist : (due x - b) % (2 * H) = due x - b := distance_within (by omega) hlt
      constructor
      · rintro ⟨hsel, -⟩ y hy hyb
        by_contra hcon
        have hpy : p y = true := by
          rw [hp, decide_eq_true_iff, hxdist, hbefore y hy hyb]
          omega
        have hxy := hsel y hy hpy
        omega
      · intro h
        have hsel (y : α) (hy : y ∈ l) : p y = true ↔ due x < due y := by
          rw [hp, decide_eq_true_iff, hxdist]
          by_cases hyb : due y < b
          · have hfit := h y hy hyb
            rw [hbefore y hy hyb]
            omega
          · rw [hwithin y hy (by omega)]
            omega
        exact ⟨fun m hm hpm => ((hsel m hm).1 hpm).le,
          fun y hy hxy => ⟨y, hy, (hsel y hy).2 hxy, le_rfl⟩⟩
    · next hge hbehind =>
      have hxdist : (due x - b) % (2 * H) = due x - b - 2 * H :=
        distance_behind (by omega) (by omega)
      have hsel (y : α) (hy : y ∈ l) : p y = false ↔ b ≤ due y ∧ due y + 2 * H ≤ due x := by
        have hbound := hl y hy
        rw [hp, decide_eq_false_iff_not, hxdist]
        by_cases hyb : due y < b
        · rw [hbefore y hy hyb]
          omega
        · rw [hwithin y hy (by omega)]
          omega
      constructor
      · rintro ⟨hall, -⟩ y hy
        rw [← hsel y hy, Bool.eq_false_iff]
        intro hpy
        have hxy := hall y hy hpy
        have hbound := hl y hy
        omega
      · intro h
        refine ⟨fun m hm hpm => ?_, fun y hy hxy => ?_⟩
        · rw [(hsel m hm).2 (h m hm)] at hpm
          cases hpm
        · have hbound := hl y hy
          omega

/-- Half a period after a base that is not in the future, only entries due before the base are in
    the way. -/
theorem fits_near_iff (hb : -H < b ∧ b ≤ 0) (hd : 1 ≤ d ∧ d ≤ H) (hl : ∀ y ∈ l, -H < due y) :
    Fits due H b d l ↔ ∀ y ∈ l, b ≤ due y := by
  unfold Fits
  rw [if_neg (by omega), if_pos (by omega)]
  constructor
  · intro h y hy
    by_contra hlt
    have hwrap := h y hy (by omega)
    have hbound := hl y hy
    omega
  · intro h y hy hlt
    have hle := h y hy
    omega

end Circular

end DueQueue
