import Mathlib.Data.List.Basic
import Mathlib.Data.List.Induction
import Mathlib.Data.List.Nodup
import Mathlib.Tactic.Common
import Mupen64plus.Lib.Runs

/-!
# Patches on one cell

A cell of a memory under groups of patches. A pass over the groups applies every patch of the
groups that are on, each saving the value it finds the first time, and takes a group that was
switched off since the last pass back, patch by patch in the order they were applied. Two patches
of one cell then save each other's values.

## Main definitions

- `pass` — one pass over the groups
- `switchOff` — the first group under a key is switched off
- `Reversible` — what the patches of a cell have to satisfy to be taken back

## Main results

- `restores_iff` — the cell is restored, in whatever order the groups are switched off, exactly
  when its patches are reversible
-/

namespace Patches

variable {κ α : Type*}

/-- A patch on the cell, with the value it found. -/
structure Patch (α : Type*) where
  value : α
  saved : Option α

structure Group (κ α : Type*) where
  key : κ
  on : Bool
  was : Bool
  patches : List (Patch α)

def Patch.apply (m : α) (p : Patch α) : α × Patch α :=
  (p.value, { p with saved := some (p.saved.getD m) })

def Patch.undo (m : α) (p : Patch α) : α × Patch α := (p.saved.getD m, { p with saved := none })

/-- A loop over patches that changes the cell and each of them. -/
def sweep (f : α → Patch α → α × Patch α) : α → List (Patch α) → α × List (Patch α)
  | m, [] => (m, [])
  | m, p :: rest => ((sweep f (f m p).1 rest).1, (f m p).2 :: (sweep f (f m p).1 rest).2)

def passGroup (m : α) (g : Group κ α) : α × Group κ α :=
  if g.on then
    ((sweep Patch.apply m g.patches).1,
      { g with was := true, patches := (sweep Patch.apply m g.patches).2 })
  else if g.was then
    ((sweep Patch.undo m g.patches).1,
      { g with was := false, patches := (sweep Patch.undo m g.patches).2 })
  else (m, g)

def pass : α → List (Group κ α) → α × List (Group κ α)
  | m, [] => (m, [])
  | m, g :: rest =>
    ((pass (passGroup m g).1 rest).1, (passGroup m g).2 :: (pass (passGroup m g).1 rest).2)

def switchOff [DecidableEq κ] (k : κ) : List (Group κ α) → List (Group κ α)
  | [] => []
  | g :: rest => if g.key = k then { g with on := false } :: rest else g :: switchOff k rest

inductive Step (κ : Type*) where
  | pass
  | off (k : κ)

def step [DecidableEq κ] (s : α × List (Group κ α)) : Step κ → α × List (Group κ α)
  | .pass => pass s.1 s.2
  | .off k => (s.1, switchOff k s.2)

def values (g : Group κ α) : List α := g.patches.map Patch.value

/-- The cell as a list of written values leaves it. -/
def after (m : α) (vs : List α) : α := vs.getLastD m

/-- **Reversible patches**: the write before the last one of each group puts the value the cell had
    at the start. -/
def Reversible (m₀ : α) (gs : List (Group κ α)) : Prop :=
  ∀ pre g post, gs = pre ++ g :: post → values g ≠ [] →
    after m₀ ((pre.flatMap values ++ values g).dropLast) = m₀

/-- No patch has been applied yet. -/
structure Fresh (g : Group κ α) : Prop where
  on : g.on = true
  was : g.was = false
  saved : ∀ p ∈ g.patches, p.saved = none

-- ════════════════════════════════════════════════════════════════════════
-- Sweeps
-- ════════════════════════════════════════════════════════════════════════

-- the equations of these, generated once for the proofs below
attribute [local grind =] sweep passGroup pass switchOff

@[simp] theorem after_nil (m : α) : after m [] = m := rfl

theorem after_append (m : α) (vs ws : List α) : after m (vs ++ ws) = after (after m vs) ws := by
  induction ws using List.reverseRecOn with
  | nil => simp
  | append_singleton ws w _ => simp [after, ← List.append_assoc]

theorem after_cons (m v : α) (vs : List α) : after m (v :: vs) = after v vs := by
  rw [show v :: vs = [v] ++ vs from rfl, after_append]
  rfl

theorem sweep_apply_fst (m : α) (ps : List (Patch α)) :
    (sweep Patch.apply m ps).1 = after m (ps.map Patch.value) := by
  induction ps generalizing m with
  | nil => rfl
  | cons p ps ih => rw [sweep, ih, List.map_cons, after_cons, Patch.apply]

theorem sweep_apply_value (m : α) (ps : List (Patch α)) :
    (sweep Patch.apply m ps).2.map Patch.value = ps.map Patch.value := by
  induction ps generalizing m with
  | nil => rfl
  | cons p ps ih => rw [sweep, List.map_cons, ih, List.map_cons, Patch.apply]

/-- The value the last patch has saved, with a default. -/
def lastSaved (m : α) (ps : List (Patch α)) : α := (ps.getLast?.bind Patch.saved).getD m

theorem sweep_undo_fst {ps : List (Patch α)} (h : ∀ p ∈ ps, p.saved.isSome) (m : α) :
    (sweep Patch.undo m ps).1 = lastSaved m ps := by
  induction ps generalizing m with
  | nil => rfl
  | cons p ps ih =>
    rw [sweep, ih fun q hq => h q (List.mem_cons_of_mem _ hq)]
    cases ps with
    | nil => simp [lastSaved, Patch.undo]
    | cons q ps =>
      have hne : q :: ps ≠ [] := List.cons_ne_nil q ps
      have hsome := h _ (List.mem_cons_of_mem p (List.getLast_mem hne))
      obtain ⟨v, hv⟩ := Option.isSome_iff_exists.mp hsome
      simp only [lastSaved, List.getLast?_cons_cons, List.getLast?_eq_some_getLast hne,
        Option.bind_some, hv, Option.getD_some]

theorem sweep_apply_saved (m : α) (ps : List (Patch α)) :
    ∀ p ∈ (sweep Patch.apply m ps).2, p.saved.isSome := by
  induction ps generalizing m with
  | nil => simp [sweep]
  | cons p ps ih =>
    intro q hq
    rw [sweep, List.mem_cons] at hq
    rcases hq with rfl | hq
    · rfl
    · exact ih _ q hq

/-- Patches that have saved a value keep it. -/
theorem sweep_apply_of_saved {ps : List (Patch α)} (h : ∀ p ∈ ps, p.saved.isSome) (m : α) :
    (sweep Patch.apply m ps).2 = ps := by
  induction ps generalizing m with
  | nil => rfl
  | cons p ps ih =>
    have hp : (Patch.apply m p).2 = p := by
      obtain ⟨v, hv⟩ := Option.isSome_iff_exists.mp (h p List.mem_cons_self)
      cases p
      cases hv
      rfl
    rw [sweep, ih fun q hq => h q (List.mem_cons_of_mem _ hq), hp]

/-- Of patches applied for the first time, the last saves what those before it left. -/
theorem sweep_apply_lastSaved {ps : List (Patch α)} (hne : ps ≠ [])
    (h : ∀ p ∈ ps, p.saved = none) (m m' : α) :
    lastSaved m' (sweep Patch.apply m ps).2 = after m (ps.map Patch.value).dropLast := by
  induction ps generalizing m with
  | nil => exact absurd rfl hne
  | cons p ps ih =>
    cases ps with
    | nil => simp [sweep, lastSaved, Patch.apply, h p List.mem_cons_self]
    | cons q ps =>
      have hrest := ih (by simp) (fun r hr => h r (List.mem_cons_of_mem _ hr)) p.value
      rw [List.map_cons, List.map_cons, List.dropLast_cons_cons, after_cons, ← List.map_cons,
        ← hrest]
      rfl

/-- A pass over groups without patches leaves the cell alone. -/
theorem pass_empty {m : α} {gs : List (Group κ α)} (h : ∀ g ∈ gs, g.patches = []) :
    (pass m gs).1 = m := by
  induction gs generalizing m with
  | nil => rfl
  | cons g gs ih =>
    have hg : (passGroup m g).1 = m := by
      unfold passGroup
      rw [h g List.mem_cons_self]
      split
      · rfl
      · split <;> rfl
    rw [pass, hg]
    exact ih fun x hx => h x (List.mem_cons_of_mem _ hx)

-- ════════════════════════════════════════════════════════════════════════
-- Once every group has been applied
-- ════════════════════════════════════════════════════════════════════════

/-- What holds of a group from the first pass on: it has saved values while it is applied, and the
    last of them is the value at the start. -/
structure Applied (m₀ : α) (g : Group κ α) : Prop where
  was : g.on = true → g.was = true
  saved : g.was = true → ∀ p ∈ g.patches, p.saved.isSome
  last : g.was = true → g.patches ≠ [] → ∀ m, lastSaved m g.patches = m₀

/-- A group with patches that are applied. -/
def Acting (g : Group κ α) : Prop := g.was = true ∧ g.patches ≠ []

/-- The invariant of the passes after the first one. -/
structure Settled (m₀ : α) (s : α × List (Group κ α)) : Prop where
  applied : ∀ g ∈ s.2, Applied m₀ g
  clean : (∀ g ∈ s.2, ¬Acting g) → s.1 = m₀

theorem passGroup_on {m m₀ : α} {g : Group κ α} (hg : Applied m₀ g) (hon : g.on = true) :
    (passGroup m g).2 = g := by
  rw [passGroup, if_pos hon, sweep_apply_of_saved (hg.saved (hg.was hon))]
  cases g
  cases hg.was hon
  rfl

theorem passGroup_undo {m m₀ : α} {g : Group κ α} (hg : Applied m₀ g) (hon : g.on = false)
    (hact : Acting g) : (passGroup m g).1 = m₀ := by
  rw [passGroup, if_neg (by simp [hon]), if_pos hact.1, sweep_undo_fst (hg.saved hact.1)]
  exact hg.last hact.1 hact.2 m

theorem passGroup_idle {m m₀ : α} {g : Group κ α} (hg : Applied m₀ g) (hact : ¬Acting g) :
    (passGroup m g).1 = m := by
  unfold passGroup
  split
  next hon =>
    have hnil : g.patches = [] := by
      by_contra hne
      exact hact ⟨hg.was hon, hne⟩
    rw [hnil]
    rfl
  next =>
    split
    next hwas =>
      have hnil : g.patches = [] := by
        by_contra hne
        exact hact ⟨hwas, hne⟩
      rw [hnil]
      rfl
    next => rfl

theorem passGroup_off {m : α} {g : Group κ α} (hon : g.on = false) :
    (passGroup m g).2.on = false ∧ (passGroup m g).2.was = false := by
  rw [passGroup, if_neg (by simp [hon])]
  split
  next => exact ⟨hon, rfl⟩
  next hwas => exact ⟨hon, by simpa using hwas⟩

theorem applied_of_idle {m₀ : α} {g : Group κ α} (hon : g.on = false) (hwas : g.was = false) :
    Applied m₀ g where
  was h := by simp [hon] at h
  saved h := by simp [hwas] at h
  last h := by simp [hwas] at h

theorem passGroup_applied {m m₀ : α} {g : Group κ α} (hg : Applied m₀ g) :
    Applied m₀ (passGroup m g).2 := by
  cases hon : g.on with
  | true => rwa [passGroup_on hg hon]
  | false =>
    have hoff := passGroup_off (m := m) hon
    exact applied_of_idle hoff.1 hoff.2

theorem pass_applied {m m₀ : α} {gs : List (Group κ α)} (h : ∀ g ∈ gs, Applied m₀ g) :
    ∀ g ∈ (pass m gs).2, Applied m₀ g := by
  induction gs generalizing m with
  | nil => exact h
  | cons g gs ih =>
    intro g' hg'
    rw [pass, List.mem_cons] at hg'
    rcases hg' with rfl | hg'
    · exact passGroup_applied (h g List.mem_cons_self)
    · exact ih (fun x hx => h x (List.mem_cons_of_mem _ hx)) g' hg'

/-- A pass after which no group acts has restored the cell, unless none acted before it. -/
theorem pass_restores {m m₀ : α} {gs : List (Group κ α)} (h : ∀ g ∈ gs, Applied m₀ g)
    (hafter : ∀ g ∈ (pass m gs).2, ¬Acting g) :
    (pass m gs).1 = m₀ ∨ (pass m gs).1 = m ∧ ∀ g ∈ gs, ¬Acting g := by
  induction gs generalizing m with
  | nil => exact .inr ⟨rfl, by simp⟩
  | cons g gs ih =>
    have hg := h g List.mem_cons_self
    have hrest := ih (m := (passGroup m g).1) (fun x hx => h x (List.mem_cons_of_mem _ hx))
      fun x hx => hafter x (List.mem_cons_of_mem _ hx)
    rw [pass]
    by_cases hact : Acting g
    · -- a group that is on would still act, so this one is taken back here
      have hon : g.on = false := by
        cases hon : g.on with
        | false => rfl
        | true =>
          have hstill := hafter _ List.mem_cons_self
          rw [passGroup_on hg hon] at hstill
          exact absurd hact hstill
      rcases hrest with hrest | ⟨hrest, -⟩
      · exact .inl hrest
      · exact .inl (hrest.trans (passGroup_undo hg hon hact))
    · rw [passGroup_idle hg hact] at hrest ⊢
      rcases hrest with hrest | ⟨hrest, hidle⟩
      · exact .inl hrest
      · refine .inr ⟨hrest, fun x hx => ?_⟩
        rcases List.mem_cons.mp hx with rfl | hx
        · exact hact
        · exact hidle x hx

theorem Settled.pass {m₀ : α} {s : α × List (Group κ α)} (h : Settled m₀ s) :
    Settled m₀ (Patches.pass s.1 s.2) where
  applied := pass_applied h.applied
  clean hafter := by
    rcases pass_restores h.applied hafter with hr | ⟨hr, hidle⟩
    · exact hr
    · exact hr.trans (h.clean hidle)

variable [DecidableEq κ]

/-- Switching a group off changes nothing else of it. -/
theorem switchOff_mem {k : κ} {gs : List (Group κ α)} :
    ∀ g' ∈ switchOff k gs, ∃ g ∈ gs, g' = g ∨ g' = { g with on := false } := by
  induction gs with
  | nil => simp [switchOff]
  | cons g gs ih =>
    intro g' hg'
    rw [switchOff] at hg'
    split at hg'
    · rcases List.mem_cons.mp hg' with rfl | hg'
      · exact ⟨g, List.mem_cons_self, .inr rfl⟩
      · exact ⟨g', List.mem_cons_of_mem _ hg', .inl rfl⟩
    · rcases List.mem_cons.mp hg' with rfl | hg'
      · exact ⟨g', List.mem_cons_self, .inl rfl⟩
      · obtain ⟨x, hx, hxg⟩ := ih g' hg'
        exact ⟨x, List.mem_cons_of_mem _ hx, hxg⟩

theorem switchOff_acting {k : κ} {gs : List (Group κ α)} (h : ∀ g ∈ switchOff k gs, ¬Acting g) :
    ∀ g ∈ gs, ¬Acting g := by
  induction gs with
  | nil => simp
  | cons g gs ih =>
    rw [switchOff] at h
    intro x hx hact
    split at h
    · rcases List.mem_cons.mp hx with rfl | hx
      · exact h _ List.mem_cons_self hact
      · exact h x (List.mem_cons_of_mem _ hx) hact
    · rcases List.mem_cons.mp hx with rfl | hx
      · exact h _ List.mem_cons_self hact
      · exact ih (fun y hy => h y (List.mem_cons_of_mem _ hy)) x hx hact

theorem Settled.switchOff {m₀ : α} {s : α × List (Group κ α)} (h : Settled m₀ s) (k : κ) :
    Settled m₀ (s.1, Patches.switchOff k s.2) where
  applied g' hg' := by
    obtain ⟨g, hg, rfl | rfl⟩ := switchOff_mem g' hg'
    · exact h.applied g' hg
    · have hap := h.applied g hg
      exact ⟨fun hon => by simp at hon, hap.saved, hap.last⟩
  clean hidle := h.clean (switchOff_acting hidle)

theorem Settled.step {m₀ : α} {s : α × List (Group κ α)} (h : Settled m₀ s) (a : Step κ) :
    Settled m₀ (Patches.step s a) := by
  cases a with
  | pass => exact h.pass
  | off k => exact h.switchOff k

-- ════════════════════════════════════════════════════════════════════════
-- The first pass
-- ════════════════════════════════════════════════════════════════════════

omit [DecidableEq κ] in
theorem pass_append (m : α) (l r : List (Group κ α)) :
    pass m (l ++ r) = ((pass (pass m l).1 r).1, (pass m l).2 ++ (pass (pass m l).1 r).2) := by
  induction l generalizing m with
  | nil => rfl
  | cons g l ih => rw [List.cons_append, pass, ih, pass, List.cons_append]

omit [DecidableEq κ] in
theorem pass_split (m : α) (pre : List (Group κ α)) (g : Group κ α) (post : List (Group κ α)) :
    (pass m (pre ++ g :: post)).2 =
      (pass m pre).2 ++ (passGroup (pass m pre).1 g).2 ::
        (pass (passGroup (pass m pre).1 g).1 post).2 := by
  rw [pass_append, pass]

omit [DecidableEq κ] in
/-- Where a group of the result comes from. -/
theorem pass_mem {m : α} {gs : List (Group κ α)} {g' : Group κ α} (h : g' ∈ (pass m gs).2) :
    ∃ pre g post, gs = pre ++ g :: post ∧ g' = (passGroup (pass m pre).1 g).2 := by
  induction gs generalizing m with
  | nil => simp [pass] at h
  | cons g gs ih =>
    rw [pass, List.mem_cons] at h
    rcases h with rfl | h
    · exact ⟨[], g, gs, rfl, rfl⟩
    · obtain ⟨pre, x, post, rfl, hx⟩ := ih h
      exact ⟨g :: pre, x, post, rfl, hx⟩

omit [DecidableEq κ] in
theorem pass_fresh {m : α} {gs : List (Group κ α)} (h : ∀ g ∈ gs, Fresh g) :
    (pass m gs).1 = after m (gs.flatMap values) := by
  induction gs generalizing m with
  | nil => rfl
  | cons g gs ih =>
    have hg := h g List.mem_cons_self
    rw [pass, ih fun x hx => h x (List.mem_cons_of_mem _ hx), List.flatMap_cons, after_append,
      passGroup, if_pos hg.on, sweep_apply_fst]
    rfl

omit [DecidableEq κ] in
theorem values_eq_nil {g : Group κ α} : values g = [] ↔ g.patches = [] := List.map_eq_nil_iff

omit [DecidableEq κ] in
/-- What the first pass saves in a group: the value before its last patch. -/
theorem passGroup_fresh (m₀ : α) {pre : List (Group κ α)} {g : Group κ α}
    (hpre : ∀ x ∈ pre, Fresh x) (hg : Fresh g) :
    (passGroup (pass m₀ pre).1 g).2.on = true ∧ (passGroup (pass m₀ pre).1 g).2.was = true ∧
      (passGroup (pass m₀ pre).1 g).2.key = g.key ∧
      values (passGroup (pass m₀ pre).1 g).2 = values g ∧
      (∀ p ∈ (passGroup (pass m₀ pre).1 g).2.patches, p.saved.isSome) ∧
      (values g ≠ [] → ∀ m, lastSaved m (passGroup (pass m₀ pre).1 g).2.patches =
        after m₀ ((pre.flatMap values ++ values g).dropLast)) := by
  rw [passGroup, if_pos hg.on]
  refine ⟨hg.on, rfl, rfl, sweep_apply_value _ _, sweep_apply_saved _ _, fun hne m => ?_⟩
  have hpatches : g.patches ≠ [] := fun h => hne (values_eq_nil.mpr h)
  rw [sweep_apply_lastSaved hpatches hg.saved, pass_fresh hpre, ← after_append,
    List.dropLast_append_of_ne_nil hne]
  rfl

omit [DecidableEq κ] in
/-- The first pass over reversible patches settles the cell. -/
theorem settled_first {m₀ : α} {gs : List (Group κ α)} (hfresh : ∀ g ∈ gs, Fresh g)
    (hrev : Reversible m₀ gs) : Settled m₀ (pass m₀ gs) where
  applied g' hg' := by
    obtain ⟨pre, g, post, rfl, rfl⟩ := pass_mem hg'
    obtain ⟨hon, hwas, -, hvalues, hsaved, hlast⟩ := passGroup_fresh m₀
      (fun x hx => hfresh x (List.mem_append_left _ hx))
      (hfresh g (List.mem_append_right _ List.mem_cons_self))
    refine ⟨fun _ => hwas, fun _ => hsaved, fun _ hne m => ?_⟩
    have hvne : values g ≠ [] := by
      rw [← hvalues, ne_eq, values_eq_nil]
      exact hne
    rw [hlast hvne]
    exact hrev pre g post rfl hvne
  clean hidle := by
    have hnil : gs.flatMap values = [] := by
      rw [List.flatMap_eq_nil_iff]
      intro g hg
      by_contra hne
      obtain ⟨pre, post, rfl⟩ := List.append_of_mem hg
      obtain ⟨-, hwas, -, hvalues, -, -⟩ := passGroup_fresh m₀
        (fun x hx => hfresh x (List.mem_append_left _ hx)) (hfresh g hg)
      refine hidle (passGroup (pass m₀ pre).1 g).2 ?_ ⟨hwas, fun h => hne ?_⟩
      · rw [pass_split]
        exact List.mem_append_right _ List.mem_cons_self
      · rw [← hvalues, values_eq_nil]
        exact h
    rw [pass_fresh hfresh, hnil, after_nil]

-- ════════════════════════════════════════════════════════════════════════
-- Restoring the cell
-- ════════════════════════════════════════════════════════════════════════

/-- **Restored in every order**: whatever passes and switchings follow the first pass, the first
    pass after all groups are off leaves the cell as it was. -/
def Restores (m₀ : α) (gs : List (Group κ α)) : Prop :=
  ∀ steps : List (Step κ),
    (∀ g ∈ (Runs.runFrom step (pass m₀ gs) steps).2, g.on = false) →
      (step (Runs.runFrom step (pass m₀ gs) steps) .pass).1 = m₀

theorem restores_of_reversible {m₀ : α} {gs : List (Group κ α)} (hfresh : ∀ g ∈ gs, Fresh g)
    (hrev : Reversible m₀ gs) : Restores m₀ gs := by
  intro steps hoff
  have hsettled : Settled m₀ (Runs.runFrom step (pass m₀ gs) steps) :=
    Runs.invariant_end (fun s a hs => hs.step a) (settled_first hfresh hrev)
  refine hsettled.pass.clean fun g' hg' hact => ?_
  obtain ⟨pre, g, post, hgs, rfl⟩ := pass_mem hg'
  have hon : g.on = false := hoff g (hgs ▸ List.mem_append_right _ List.mem_cons_self)
  rw [Acting, (passGroup_off hon).2] at hact
  exact Bool.false_ne_true hact.1

/-- The groups under some keys are switched off. -/
def switchOffAll (ks : List κ) (gs : List (Group κ α)) : List (Group κ α) :=
  gs.map fun g => if g.key ∈ ks then { g with on := false } else g

theorem switchOff_eq_map {gs : List (Group κ α)} (h : (gs.map Group.key).Nodup) (k : κ) :
    switchOff k gs = switchOffAll [k] gs := by
  induction gs with
  | nil => rfl
  | cons g gs ih =>
    obtain ⟨hnot, hnodup⟩ := List.nodup_cons.mp (List.map_cons ▸ h)
    rw [switchOff, switchOffAll, List.map_cons]
    by_cases hk : g.key = k
    · subst hk
      have hrest : gs.map (fun x => if x.key ∈ [g.key] then { x with on := false } else x) =
        gs := by
        refine (List.map_congr_left fun x hx => ?_).trans (List.map_id gs)
        have hne : x.key ≠ g.key := fun heq => hnot (heq ▸ List.mem_map_of_mem hx)
        rw [if_neg (by simpa using hne), id]
      rw [if_pos rfl, if_pos (by simp), hrest]
    · rw [if_neg hk, if_neg (by simpa using hk), ih hnodup, switchOffAll]

theorem switchOffAll_keys (ks : List κ) (gs : List (Group κ α)) :
    (switchOffAll ks gs).map Group.key = gs.map Group.key := by
  rw [switchOffAll, List.map_map]
  refine List.map_congr_left fun g _ => ?_
  rw [Function.comp_apply]
  split
  · rfl
  · rfl

theorem runFrom_off {gs : List (Group κ α)} (h : (gs.map Group.key).Nodup) (m : α) (ks : List κ) :
    Runs.runFrom step (m, gs) (ks.map Step.off) = (m, switchOffAll ks gs) := by
  induction ks generalizing gs with
  | nil => simp [switchOffAll]
  | cons k ks ih =>
    rw [List.map_cons, Runs.runFrom_cons, step, switchOff_eq_map h,
      ih (by rw [switchOffAll_keys]; exact h), switchOffAll, switchOffAll, switchOffAll,
      List.map_map]
    refine congrArg (m, ·) (List.map_congr_left fun g _ => ?_)
    rw [Function.comp_apply]
    by_cases hk : g.key = k
    · simp [hk]
    · simp [hk]

omit [DecidableEq κ] in
/-- Groups switched off and taken back do nothing. -/
theorem pass_idle {m : α} {gs : List (Group κ α)}
    (h : ∀ g ∈ gs, g.on = false ∧ g.was = false) : (pass m gs).1 = m := by
  induction gs generalizing m with
  | nil => rfl
  | cons g gs ih =>
    obtain ⟨hon, hwas⟩ := h g List.mem_cons_self
    rw [pass, ih fun x hx => h x (List.mem_cons_of_mem _ hx), passGroup, if_neg (by simp [hon]),
      if_neg (by simp [hwas])]

omit [DecidableEq κ] in
theorem pass_off {m : α} {gs : List (Group κ α)} (h : ∀ g ∈ gs, g.on = false) :
    ∀ g ∈ (pass m gs).2, g.on = false ∧ g.was = false := by
  intro g' hg'
  obtain ⟨pre, g, post, rfl, rfl⟩ := pass_mem hg'
  exact passGroup_off (h g (List.mem_append_right _ List.mem_cons_self))

omit [DecidableEq κ] in
theorem pass_keys (m : α) (gs : List (Group κ α)) :
    (pass m gs).2.map Group.key = gs.map Group.key := by
  induction gs generalizing m with
  | nil => rfl
  | cons g gs ih =>
    rw [pass, List.map_cons, ih, List.map_cons]
    congr 1
    unfold passGroup
    split
    · rfl
    · split <;> rfl

/-- One group alone is taken back last: its last patch puts its saved value. -/
theorem lastSaved_of_restores {m₀ : α} {gs : List (Group κ α)}
    (hkeys : (gs.map Group.key).Nodup) (h : Restores m₀ gs) {pre post : List (Group κ α)}
    {g : Group κ α} (hgs : (pass m₀ gs).2 = pre ++ g :: post) (hon : g.on = true)
    (hwas : g.was = true) (hsaved : ∀ p ∈ g.patches, p.saved.isSome) :
    ∃ m, lastSaved m g.patches = m₀ := by
  have hkeys' : ((pre ++ g :: post).map Group.key).Nodup := by
    rw [← hgs, pass_keys]
    exact hkeys
  have hnot : ∀ x ∈ pre ++ post, x.key ≠ g.key := by
    intro x hx heq
    rw [List.map_append, List.map_cons, List.nodup_append] at hkeys'
    rcases List.mem_append.mp hx with hx | hx
    · exact hkeys'.2.2 _ (List.mem_map_of_mem hx) _ List.mem_cons_self heq
    · exact (List.nodup_cons.mp hkeys'.2.1).1 (heq ▸ List.mem_map_of_mem hx)
  have hother : ∀ l : List (Group κ α), (∀ x ∈ l, x ∈ pre ++ post) →
      ∀ x ∈ switchOffAll ((pre ++ post).map Group.key) l, x.on = false := by
    intro l hl x hx
    obtain ⟨y, hy, rfl⟩ := List.mem_map.mp hx
    rw [if_pos (List.mem_map_of_mem (hl y hy))]
  -- the state after the others are off and have been taken back
  have hself : g.key ∉ (pre ++ post).map Group.key := by
    intro hmem
    obtain ⟨x, hx, heq⟩ := List.mem_map.mp hmem
    exact hnot x hx heq
  have hpassSelf : ∀ m, (passGroup m g).2 = g := by
    intro m
    rw [passGroup, if_pos hon, sweep_apply_of_saved hsaved]
    cases g
    cases hwas
    rfl
  let ks := (pre ++ post).map Group.key
  let l := (pass (pass m₀ gs).1 (switchOffAll ks pre)).2
  let m := (pass (pass m₀ gs).1 (switchOffAll ks pre)).1
  let r := (pass (passGroup m g).1 (switchOffAll ks post)).2
  have hl : ∀ x ∈ l, x.on = false ∧ x.was = false :=
    pass_off (hother pre fun x hx => List.mem_append_left _ hx)
  have hr : ∀ x ∈ r, x.on = false ∧ x.was = false :=
    pass_off (hother post fun x hx => List.mem_append_right _ hx)
  have hstate : (Runs.runFrom step (pass m₀ gs) (ks.map Step.off ++ [.pass])).2 = l ++ g :: r := by
    have hpair : pass m₀ gs = ((pass m₀ gs).1, pre ++ g :: post) := by rw [← hgs]
    rw [Runs.runFrom_append, hpair, runFrom_off hkeys', Runs.runFrom_cons, Runs.runFrom_nil, step,
      switchOffAll, List.map_append, List.map_cons, if_neg hself, pass_split, hpassSelf]
    rfl
  have hlkeys : ∀ x ∈ l, x.key ≠ g.key := by
    intro x hx heq
    have hmem : x.key ∈ l.map Group.key := List.mem_map_of_mem hx
    rw [pass_keys, switchOffAll_keys, heq] at hmem
    exact hself (List.map_append ▸ List.mem_append_left _ hmem)
  have hoff : switchOff g.key (l ++ g :: r) = l ++ { g with on := false } :: r := by
    clear_value l r
    clear hstate hl
    induction l with
    | nil => rw [List.nil_append, switchOff, if_pos rfl, List.nil_append]
    | cons x l ih =>
      rw [List.cons_append, switchOff, if_neg (hlkeys x List.mem_cons_self),
        ih fun y hy => hlkeys y (List.mem_cons_of_mem _ hy), List.cons_append]
  have hrun : (Runs.runFrom step (pass m₀ gs)
      (ks.map Step.off ++ [.pass] ++ [.off g.key])).2 = l ++ { g with on := false } :: r := by
    rw [Runs.runFrom_append, Runs.runFrom_cons, Runs.runFrom_nil, step, hstate, hoff]
  have hclaim := h (ks.map Step.off ++ [.pass] ++ [.off g.key]) (by
    rw [hrun]
    intro x hx
    rcases List.mem_append.mp hx with hx | hx
    · exact (hl x hx).1
    · rcases List.mem_cons.mp hx with rfl | hx
      · rfl
      · exact (hr x hx).1)
  refine ⟨_, (?_ : lastSaved (Runs.runFrom step (pass m₀ gs)
    (ks.map Step.off ++ [.pass] ++ [.off g.key])).1 g.patches = m₀)⟩
  rw [step, hrun, pass_append, pass_idle hl, pass, pass_idle hr, passGroup,
    if_neg Bool.false_ne_true, if_pos hwas, sweep_undo_fst hsaved] at hclaim
  exact hclaim

/-- **The exact condition**: the cell is restored in every order exactly when its patches are
    reversible. -/
theorem restores_iff {m₀ : α} {gs : List (Group κ α)} (hkeys : (gs.map Group.key).Nodup)
    (hfresh : ∀ g ∈ gs, Fresh g) : Restores m₀ gs ↔ Reversible m₀ gs := by
  refine ⟨fun h pre g post hgs hne => ?_, restores_of_reversible hfresh⟩
  subst hgs
  obtain ⟨hon, hwas, -, -, hsaved, hlast⟩ := passGroup_fresh m₀
    (fun x hx => hfresh x (List.mem_append_left _ hx))
    (hfresh g (List.mem_append_right _ List.mem_cons_self))
  obtain ⟨m, hm⟩ := lastSaved_of_restores hkeys h (pass_split m₀ pre g post) hon hwas hsaved
  rw [← hlast hne m]
  exact hm

end Patches
