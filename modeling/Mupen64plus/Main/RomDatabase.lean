import Mathlib.Data.Fintype.Card
import Mathlib.Data.List.FinRange
import Mathlib.Data.Fin.VecNotation
import Mathlib.Logic.Equiv.Basic
import Mathlib.Logic.Function.Basic
import Mathlib.Logic.Relation
import Mathlib.Tactic.FinCases
import Mupen64plus.Lib.FinLiterals

/-!
# References between entries of the ROM database

An entry of the database may name another one by its MD5, from which it takes the attributes it
does not set itself. The references are resolved in rounds over the list of entries. A round passes
over an entry whose reference is not resolved yet, and the rounds end when none is passed over or
when a round passes over as many as the one before.

## Main definitions

- `Entry` — an entry, whose unset attributes have their defaults
- `iniSearchByMd5`, `romdatabaseResolveRound`, `romdatabaseResolve` — the code
- `RefChain`, `chainValue` — the references from an entry to one without, and what they give
- `LeadsAstray` — an entry whose references end in a cycle or in an MD5 that no entry has

## Main results

- `pending_of_round` — what a round passes over
- `RefChain.not_pending` — a round that resolves nothing has resolved every chain before
- `resolve_chains`
-/

namespace Mupen64plus

-- ════════════════════════════════════════════════════════════════════════
-- Entries
-- ════════════════════════════════════════════════════════════════════════

/-- The attributes of an entry, in the order of the bits of `set_flags`. -/
inductive RomAttribute
  | goodname
  | crc
  | status
  | savetype
  | players
  | rumble
  | countperop
  | cheats
  | disableextramem
  | transferpak
  | mempak
  | biopak
  | sidmaduration
  | aidmamodifier
  deriving DecidableEq

namespace RomAttribute

/-- The type of an attribute. A string is `none` where its pointer is null. -/
def Value : RomAttribute → Type
  | goodname | cheats => Option String
  | crc => BitVec 32 × BitVec 32
  | sidmaduration | aidmamodifier => BitVec 32
  | status | savetype | players | rumble | countperop | disableextramem | transferpak | mempak
  | biopak => BitVec 8

/-- What `romdatabase_open` sets before it reads the properties of an entry. -/
def default : (a : RomAttribute) → a.Value
  | goodname => (none : Option String)
  | crc => ((0, 0) : BitVec 32 × BitVec 32)
  | status => (0 : BitVec 8)
  | savetype => (0 : BitVec 8)
  | players => (4 : BitVec 8)
  | rumble => (1 : BitVec 8)
  | countperop => (2 : BitVec 8)
  | cheats => (none : Option String)
  | disableextramem => (0 : BitVec 8)
  | transferpak => (0 : BitVec 8)
  | mempak => (1 : BitVec 8)
  | biopak => (0 : BitVec 8)
  | sidmaduration => (0x900 : BitVec 32)
  | aidmamodifier => (100 : BitVec 32)

/-- The copy of an attribute. Null cheats are not copied. -/
def copy : (a : RomAttribute) → (own ref : a.Value) → a.Value
  | cheats, own, ref => Option.orElse (α := String) ref fun _ => own
  | goodname, _, ref | crc, _, ref | status, _, ref | savetype, _, ref | players, _, ref
  | rumble, _, ref | countperop, _, ref | disableextramem, _, ref | transferpak, _, ref
  | mempak, _, ref | biopak, _, ref | sidmaduration, _, ref | aidmamodifier, _, ref => ref

theorem copy_default (a : RomAttribute) (ref : a.Value) : a.copy a.default ref = ref := by
  cases a with
  | cheats =>
    cases (ref : Option String) with
    | none => rfl
    | some s => rfl
  | _ => rfl

end RomAttribute

abbrev Md5 := Fin 16 → BitVec 8

/-- `romdatabase_entry`. An attribute that is not set has its default. -/
@[ext]
structure Entry where
  md5 : Md5
  refmd5 : Option Md5
  value : (a : RomAttribute) → a.Value
  isSet : RomAttribute → Bool
  unset_default : ∀ a, isSet a = false → value a = a.default

namespace Entry

/-- A section of the file, before its properties. -/
def new (md5 : Md5) : Entry := ⟨md5, none, RomAttribute.default, fun _ => false, fun _ _ => rfl⟩

/-- A valid property of the file. -/
def set (e : Entry) (a : RomAttribute) (v : a.Value) : Entry where
  md5 := e.md5
  refmd5 := e.refmd5
  value := Function.update e.value a v
  isSet := Function.update e.isSet a true
  unset_default := by
    intro b hb
    rcases eq_or_ne b a with rfl | hne
    · exact absurd hb (by simp)
    · rw [Function.update_of_ne hne] at hb ⊢
      exact e.unset_default b hb

/-- A line `RefMD5`. -/
def setRef (e : Entry) (m : Md5) : Entry := { e with refmd5 := some m }

/-- What `romdatabase_resolve_round` copies into an entry, whose reference it then clears. -/
def inherit (e ref : Entry) : Entry where
  md5 := e.md5
  refmd5 := none
  value a := if !e.isSet a && ref.isSet a then a.copy (e.value a) (ref.value a) else e.value a
  isSet a := e.isSet a || ref.isSet a
  unset_default := by
    intro a ha
    obtain ⟨he, href⟩ := Bool.or_eq_false_iff.mp ha
    rw [he, href]
    exact e.unset_default a he

/-- An entry takes from its reference what it does not set itself. -/
theorem inherit_value (e ref : Entry) (a : RomAttribute) :
    (e.inherit ref).value a = if e.isSet a then e.value a else ref.value a := by
  change (if !e.isSet a && ref.isSet a then a.copy (e.value a) (ref.value a) else e.value a) = _
  cases he : e.isSet a with
  | true => rfl
  | false =>
    have hown := e.unset_default a he
    cases href : ref.isSet a with
    | true =>
      rw [hown, RomAttribute.copy_default]
      rfl
    | false =>
      rw [hown, ref.unset_default a href]
      rfl

end Entry

-- ════════════════════════════════════════════════════════════════════════
-- The code
-- ════════════════════════════════════════════════════════════════════════

/-- The entries in the order of the file. -/
abbrev RomDatabase (n : ℕ) := Fin n → Entry

section

variable {n : ℕ}

/-- `md5_lists[index]`, to whose head `romdatabase_open` adds each entry. -/
def md5List (db : RomDatabase n) (index : BitVec 8) : List (Fin n) :=
  ((List.finRange n).filter fun i => (db i).md5 0 = index).reverse

/-- `ini_search_by_md5`. -/
def iniSearchByMd5 (db : RomDatabase n) (m : Md5) : Option (Fin n) :=
  (md5List db (m 0)).find? fun i => (db i).md5 = m

/-- One turn of `romdatabase_resolve_round`, and whether it passes over the entry. -/
def resolveEntry (db : RomDatabase n) (i : Fin n) : RomDatabase n × ℕ :=
  match (db i).refmd5 with
  | none => (db, 0)
  | some m => match iniSearchByMd5 db m with
    | none => (db, 0)
    | some j =>
      if (db j).refmd5.isSome then (db, 1)
      else (Function.update db i ((db i).inherit (db j)), 0)

/-- `romdatabase_resolve_round` on the rest of the list. -/
def resolveList (db : RomDatabase n) : List (Fin n) → RomDatabase n × ℕ
  | [] => (db, 0)
  | i :: rest =>
    let (db, skip) := resolveEntry db i
    let (db, skipped) := resolveList db rest
    (db, skip + skipped)

/-- `romdatabase_resolve_round`. -/
def romdatabaseResolveRound (db : RomDatabase n) : RomDatabase n × ℕ :=
  resolveList db (List.finRange n)

/-- The loop of `romdatabase_resolve`, or `none` if it does not end in `fuel` rounds. The first
`last_skipped` is a number that no database has entries. -/
def romdatabaseResolve : ℕ → Option ℕ → RomDatabase n → Option (RomDatabase n)
  | 0, _, _ => none
  | fuel + 1, lastSkipped, db =>
    let (db, skipped) := romdatabaseResolveRound db
    if lastSkipped = some skipped then some db
    else if 0 < skipped then romdatabaseResolve fuel (some skipped) db
    else some db

-- ════════════════════════════════════════════════════════════════════════
-- Chains of references
-- ════════════════════════════════════════════════════════════════════════

/-- Entry `i` names entry `j`. -/
def Refers (db : RomDatabase n) (i j : Fin n) : Prop :=
  ∃ m, (db i).refmd5 = some m ∧ iniSearchByMd5 db m = some j

/-- The references from an entry to one without. -/
inductive RefChain (db : RomDatabase n) : Fin n → List (Fin n) → Prop
  | root {i : Fin n} (h : (db i).refmd5 = none) : RefChain db i [i]
  | step {i j : Fin n} {l : List (Fin n)} (h : Refers db i j) (hl : RefChain db j l) :
    RefChain db i (i :: l)

/-- The value set by the first entry of a chain that sets it, or the default. -/
def chainValue (db : RomDatabase n) (l : List (Fin n)) (a : RomAttribute) : a.Value :=
  match l.find? fun i => (db i).isSet a with
  | some i => (db i).value a
  | none => a.default

/-- An entry that names an MD5 that no entry has. -/
def Dangling (db : RomDatabase n) (i : Fin n) : Prop :=
  ∃ m, (db i).refmd5 = some m ∧ iniSearchByMd5 db m = none

/-- An entry whose references lead to a dangling one or to a cycle. -/
def LeadsAstray (db : RomDatabase n) (i : Fin n) : Prop :=
  ∃ j, Relation.ReflTransGen (Refers db) i j ∧ (Dangling db j ∨ Relation.TransGen (Refers db) j j)

end

-- ════════════════════════════════════════════════════════════════════════
-- Searches
-- ════════════════════════════════════════════════════════════════════════

section

variable {n : ℕ} {db : RomDatabase n} {m : Md5} {i j : Fin n}

/-- The search finds the last entry of the file with an MD5. -/
theorem iniSearchByMd5_eq_some_iff :
    iniSearchByMd5 db m = some j ↔ (db j).md5 = m ∧ ∀ i, (db i).md5 = m → i ≤ j := by
  have hsearch : iniSearchByMd5 db m = (List.finRange n).reverse.find? fun i => (db i).md5 = m := by
    unfold iniSearchByMd5 md5List
    rw [← List.filter_reverse, List.find?_filter]
    congr 1
    funext i
    by_cases h : (db i).md5 = m
    · simp [h]
    · simp [h]
  rw [hsearch]
  have hsorted : (List.finRange n).reverse.Pairwise (· > ·) :=
    List.pairwise_reverse.mpr (List.pairwise_lt_finRange n)
  have hfirst : ∀ {j}, (List.finRange n).reverse.find? (fun i => (db i).md5 = m) = some j →
      (db j).md5 = m ∧ ∀ i, (db i).md5 = m → i ≤ j := by
    intro j h
    obtain ⟨hj, before, after, hsplit, hbefore⟩ := List.find?_eq_some_iff_append.mp h
    refine ⟨of_decide_eq_true hj, fun i hi => ?_⟩
    have hmem : i ∈ (List.finRange n).reverse := List.mem_reverse.mpr (List.mem_finRange i)
    rw [hsplit, List.mem_append, List.mem_cons] at hmem
    rcases hmem with hmem | rfl | hmem
    · exact absurd hi (by simpa using hbefore i hmem)
    · exact le_rfl
    · rw [hsplit, List.pairwise_append, List.pairwise_cons] at hsorted
      exact (hsorted.2.1.1 i hmem).le
  refine ⟨hfirst, fun ⟨hj, hlast⟩ => ?_⟩
  cases hfind : (List.finRange n).reverse.find? fun i => (db i).md5 = m with
  | none =>
    have hnone := List.find?_eq_none.mp hfind j (List.mem_reverse.mpr (List.mem_finRange j))
    exact absurd hj (by simpa using hnone)
  | some i =>
    obtain ⟨hi, hlast'⟩ := hfirst hfind
    exact congrArg some (le_antisymm (hlast i hi) (hlast' j hj))

theorem iniSearchByMd5_congr {db' : RomDatabase n} (h : ∀ i, (db' i).md5 = (db i).md5) (m : Md5) :
    iniSearchByMd5 db' m = iniSearchByMd5 db m := by
  refine Option.ext fun j => ?_
  rw [iniSearchByMd5_eq_some_iff, iniSearchByMd5_eq_some_iff]
  simp only [h]

theorem refers_unique {k : Fin n} (hj : Refers db i j) (hk : Refers db i k) : j = k := by
  obtain ⟨m, hm, hfind⟩ := hj
  obtain ⟨m', hm', hfind'⟩ := hk
  obtain rfl := Option.some_inj.mp (hm.symm.trans hm')
  exact Option.some_inj.mp (hfind.symm.trans hfind')

end

-- ════════════════════════════════════════════════════════════════════════
-- What a chain gives
-- ════════════════════════════════════════════════════════════════════════

/-- The entry that a chain makes of its first one. -/
def resolved {n : ℕ} (db : RomDatabase n) : (l : List (Fin n)) → (i : Fin n) → Entry
  | [], i => db i
  | j :: l, i => (db i).inherit (resolved db l j)

namespace RefChain

variable {n : ℕ} {db : RomDatabase n} {i j : Fin n} {l l' : List (Fin n)}

theorem head (h : RefChain db i l) : ∃ rest, l = i :: rest := by
  cases h with
  | root h => exact ⟨[], rfl⟩
  | step h hl => exact ⟨_, rfl⟩

theorem unique (h : RefChain db i l) (h' : RefChain db i l') : l = l' := by
  induction h generalizing l' with
  | root hroot =>
    cases h' with
    | root _ => rfl
    | step href _ =>
      obtain ⟨m, hm, -⟩ := href
      exact nomatch hroot.symm.trans hm
  | step href hl ih =>
    cases h' with
    | root hroot =>
      obtain ⟨m, hm, -⟩ := href
      exact nomatch hroot.symm.trans hm
    | step href' hl' =>
      obtain rfl := refers_unique href href'
      rw [ih hl']

/-- Along references a chain gets shorter. -/
theorem shorter (h : RefChain db i l) (href : Refers db i j) :
    ∃ l', RefChain db j l' ∧ l'.length < l.length := by
  cases h with
  | root hroot =>
    obtain ⟨m, hm, -⟩ := href
    exact nomatch hroot.symm.trans hm
  | step href' hl =>
    obtain rfl := refers_unique href href'
    exact ⟨_, hl, Nat.lt_succ_self _⟩

theorem shorter_of_transGen (h : RefChain db i l) (href : Relation.TransGen (Refers db) i j) :
    ∃ l', RefChain db j l' ∧ l'.length < l.length := by
  induction href with
  | single href => exact h.shorter href
  | tail _ href ih =>
    obtain ⟨l₁, h₁, hlt₁⟩ := ih
    obtain ⟨l₂, h₂, hlt₂⟩ := h₁.shorter href
    exact ⟨l₂, h₂, hlt₂.trans hlt₁⟩

/-- A chain does not lead astray. -/
theorem not_leadsAstray (h : RefChain db i l) : ¬LeadsAstray db i := by
  rintro ⟨j, hij, hj⟩
  obtain ⟨l', hl'⟩ : ∃ l', RefChain db j l' := by
    rcases Relation.reflTransGen_iff_eq_or_transGen.mp hij with rfl | htrans
    · exact ⟨l, h⟩
    · obtain ⟨l', hl', -⟩ := h.shorter_of_transGen htrans
      exact ⟨l', hl'⟩
  rcases hj with ⟨m, hm, hnone⟩ | hcycle
  · cases hl' with
    | root hroot => exact nomatch hroot.symm.trans hm
    | step href _ =>
      obtain ⟨m', hm', hsome⟩ := href
      obtain rfl := Option.some_inj.mp (hm.symm.trans hm')
      exact nomatch hnone.symm.trans hsome
  · obtain ⟨l'', hl'', hlt⟩ := hl'.shorter_of_transGen hcycle
    rw [hl'.unique hl''] at hlt
    exact lt_irrefl _ hlt

end RefChain

theorem chainValue_cons {n : ℕ} (db : RomDatabase n) (i : Fin n) (l : List (Fin n))
    (a : RomAttribute) : chainValue db (i :: l) a =
      if (db i).isSet a then (db i).value a else chainValue db l a := by
  unfold chainValue
  rw [List.find?_cons]
  cases (db i).isSet a <;> rfl

/-- An entry has the value of its chain. -/
theorem RefChain.resolved_value {n : ℕ} {db : RomDatabase n} {i : Fin n} {l : List (Fin n)}
    (h : RefChain db i (i :: l)) (a : RomAttribute) :
    (resolved db l i).value a = chainValue db (i :: l) a := by
  generalize hl : i :: l = chain at h
  induction h generalizing l with
  | root hroot =>
    obtain ⟨-, rfl⟩ := List.cons_eq_cons.mp hl
    rw [chainValue_cons, resolved]
    cases hset : (db _).isSet a with
    | true => rfl
    | false => exact (db _).unset_default a hset
  | step href hrest ih =>
    obtain ⟨-, rfl⟩ := List.cons_eq_cons.mp hl
    obtain ⟨rest, rfl⟩ := hrest.head
    rw [chainValue_cons, resolved, Entry.inherit_value, ih rfl]

-- ════════════════════════════════════════════════════════════════════════
-- One turn
-- ════════════════════════════════════════════════════════════════════════

section

variable {n : ℕ} {db : RomDatabase n} {i k : Fin n}

/-- An entry that a round would pass over or resolve. -/
def Pending (db : RomDatabase n) (i : Fin n) : Prop := ∃ j, Refers db i j

/-- What a turn does: it leaves the entry, because it has no reference or a dangling one or because
its reference is pending or dangling itself, or it resolves the entry. -/
theorem resolveEntry_cases (db : RomDatabase n) (i : Fin n) :
    (resolveEntry db i = (db, 0) ∧ ¬Pending db i) ∨
    (∃ j, Refers db i j ∧ (db j).refmd5 ≠ none ∧ resolveEntry db i = (db, 1)) ∨
    ∃ j, Refers db i j ∧ (db j).refmd5 = none ∧
      resolveEntry db i = (Function.update db i ((db i).inherit (db j)), 0) := by
  unfold resolveEntry
  cases href : (db i).refmd5 with
  | none =>
    refine .inl ⟨rfl, ?_⟩
    rintro ⟨j, m, hm, -⟩
    exact nomatch href.symm.trans hm
  | some m =>
    cases hfind : iniSearchByMd5 db m with
    | none =>
      refine .inl ⟨by simp only [hfind], ?_⟩
      rintro ⟨j, m', hm', hj⟩
      obtain rfl := Option.some_inj.mp (href.symm.trans hm')
      exact nomatch hfind.symm.trans hj
    | some j =>
      cases hj : (db j).refmd5 with
      | none => exact .inr (.inr ⟨j, ⟨m, href, hfind⟩, hj, by simp [hfind, hj]⟩)
      | some m' =>
        refine .inr (.inl ⟨j, ⟨m, href, hfind⟩, by simp [hj], by simp [hfind, hj]⟩)

theorem resolveEntry_other (h : k ≠ i) : (resolveEntry db i).1 k = db k := by
  rcases resolveEntry_cases db i with ⟨heq, -⟩ | ⟨j, -, -, heq⟩ | ⟨j, -, -, heq⟩ <;> rw [heq]
  exact Function.update_of_ne h _ _

theorem resolveEntry_md5 (k : Fin n) : ((resolveEntry db i).1 k).md5 = (db k).md5 := by
  rcases resolveEntry_cases db i with ⟨heq, -⟩ | ⟨j, -, -, heq⟩ | ⟨j, -, -, heq⟩ <;> rw [heq]
  change (Function.update db i _ k).md5 = _
  rcases eq_or_ne k i with rfl | hne
  · rw [Function.update_self]
    rfl
  · rw [Function.update_of_ne hne]

/-- Whether an entry is pending is seen from the entry itself. -/
theorem pending_congr {db' : RomDatabase n} (hmd5 : ∀ k, (db' k).md5 = (db k).md5)
    (hi : (db' i).refmd5 = (db i).refmd5) : Pending db' i ↔ Pending db i := by
  unfold Pending Refers
  rw [hi]
  simp only [iniSearchByMd5_congr hmd5]

open Classical in
/-- A turn passes over an entry iff it leaves it pending. -/
theorem resolveEntry_skip (db : RomDatabase n) (i : Fin n) :
    (resolveEntry db i).2 = if Pending (resolveEntry db i).1 i then 1 else 0 := by
  rcases resolveEntry_cases db i with ⟨heq, hnot⟩ | ⟨j, href, -, heq⟩ | ⟨j, -, -, heq⟩ <;> rw [heq]
  · exact (if_neg hnot).symm
  · exact (if_pos ⟨j, href⟩).symm
  · refine (if_neg ?_).symm
    rintro ⟨k, m, hm, -⟩
    change (Function.update db i _ i).refmd5 = some m at hm
    rw [Function.update_self] at hm
    exact nomatch hm

end

-- ════════════════════════════════════════════════════════════════════════
-- One round
-- ════════════════════════════════════════════════════════════════════════

section

variable {n : ℕ} {db : RomDatabase n} {l : List (Fin n)} {i k : Fin n}

theorem resolveList_md5 (k : Fin n) : ((resolveList db l).1 k).md5 = (db k).md5 := by
  induction l generalizing db with
  | nil => rfl
  | cons i rest ih => exact ih.trans (resolveEntry_md5 k)

theorem resolveList_other (h : k ∉ l) : (resolveList db l).1 k = db k := by
  induction l generalizing db with
  | nil => rfl
  | cons i rest ih =>
    obtain ⟨hne, hrest⟩ := not_or.mp (List.mem_cons.not.mp h)
    exact (ih hrest).trans (resolveEntry_other hne)

open Classical in
/-- The count of a round is the number of entries that it leaves pending. -/
theorem resolveList_skipped (hl : l.Nodup) :
    (resolveList db l).2 = l.countP fun i => Pending (resolveList db l).1 i := by
  induction l generalizing db with
  | nil => rfl
  | cons i rest ih =>
    obtain ⟨hi, hrest⟩ := List.nodup_cons.mp hl
    change (resolveEntry db i).2 + (resolveList (resolveEntry db i).1 rest).2 = _
    rw [List.countP_cons, ih hrest, resolveEntry_skip, Nat.add_comm]
    congr 1
    have hkept : (resolveList (resolveEntry db i).1 rest).1 i = (resolveEntry db i).1 i :=
      resolveList_other hi
    have hpending : Pending (resolveList (resolveEntry db i).1 rest).1 i ↔
        Pending (resolveEntry db i).1 i :=
      pending_congr resolveList_md5 (congrArg Entry.refmd5 hkept)
    simp only [decide_eq_true_eq]
    exact (if_congr hpending rfl rfl).symm

/-- The entries as a run of rounds leaves them: as they were, or resolved along their chain. -/
def Resolves (db db' : RomDatabase n) : Prop := ∀ i, db' i = db i ∨
  ∃ j rest, Refers db i j ∧ RefChain db j (j :: rest) ∧ db' i = resolved db (j :: rest) i

theorem Resolves.md5 {db' : RomDatabase n} (h : Resolves db db') (k : Fin n) :
    (db' k).md5 = (db k).md5 := by
  rcases h k with heq | ⟨j, rest, -, -, heq⟩ <;> rw [heq]
  rfl

/-- A turn copies from an entry that is resolved itself. -/
theorem Resolves.resolveEntry {db' : RomDatabase n} (h : Resolves db db') (i : Fin n) :
    Resolves db (resolveEntry db' i).1 := by
  rcases resolveEntry_cases db' i with ⟨heq, -⟩ | ⟨j, -, -, heq⟩ | ⟨j, href, hj, heq⟩
  · rwa [heq]
  · rwa [heq]
  · intro k
    rw [heq]
    change Function.update db' i _ k = _ ∨ ∃ j rest, _ ∧ _ ∧ Function.update db' i _ k = _
    rcases eq_or_ne k i with rfl | hne
    · rw [Function.update_self]
      obtain ⟨m, hm, hfind⟩ := href
      have hk : db' k = db k := (h k).resolve_right fun ⟨_, _, _, _, hk⟩ => by
        rw [hk] at hm
        exact nomatch hm
      have href' : Refers db k j := ⟨m, hk ▸ hm, (iniSearchByMd5_congr h.md5 m) ▸ hfind⟩
      right
      rcases h j with hjeq | ⟨j', rest, hj', hchain, hjeq⟩
      · exact ⟨j, [], href', .root (hjeq ▸ hj), by rw [hk, hjeq]; rfl⟩
      · exact ⟨j, j' :: rest, href', .step hj' hchain, by rw [hk, hjeq]; rfl⟩
    · rw [Function.update_of_ne hne]
      exact h k

theorem Resolves.resolveList {db' : RomDatabase n} (h : Resolves db db') (l : List (Fin n)) :
    Resolves db (resolveList db' l).1 := by
  induction l generalizing db' with
  | nil => exact h
  | cons i rest ih => exact ih (h.resolveEntry i)

/-- An entry that is pending after a turn or a round was pending before, and has not changed. -/
theorem Pending.unchanged (h : Pending (resolveList db l).1 i) : (resolveList db l).1 i = db i := by
  induction l generalizing db with
  | nil => rfl
  | cons k rest ih =>
    change Pending (Mupen64plus.resolveList (Mupen64plus.resolveEntry db k).1 rest).1 i at h
    change (Mupen64plus.resolveList (Mupen64plus.resolveEntry db k).1 rest).1 i = db i
    have hrest := ih h
    rw [hrest]
    rcases resolveEntry_cases db k with ⟨heq, -⟩ | ⟨j, -, -, heq⟩ | ⟨j, -, -, heq⟩
    · rw [heq]
    · rw [heq]
    · rcases eq_or_ne i k with rfl | hne
      · obtain ⟨_, m, hm, -⟩ := h
        rw [hrest, heq] at hm
        change (Function.update db i _ i).refmd5 = some m at hm
        rw [Function.update_self] at hm
        exact nomatch hm
      · exact resolveEntry_other hne

theorem resolveList_of_not_pending (h : ¬Pending db i) : (resolveList db l).1 i = db i := by
  induction l generalizing db with
  | nil => rfl
  | cons k rest ih =>
    have hfirst : (Mupen64plus.resolveEntry db k).1 i = db i := by
      rcases resolveEntry_cases db k with ⟨heq, -⟩ | ⟨j, -, -, heq⟩ | ⟨j, href, -, heq⟩
      · rw [heq]
      · rw [heq]
      · rcases eq_or_ne i k with rfl | hne
        · exact absurd ⟨j, href⟩ h
        · exact resolveEntry_other hne
    have hrest := (pending_congr resolveEntry_md5 (congrArg Entry.refmd5 hfirst)).not.mpr h
    exact (ih hrest).trans hfirst

/-- In a list of turns that changes nothing no turn does. -/
theorem resolveEntry_of_unchanged (hl : l.Nodup) (h : (resolveList db l).1 = db) (hi : i ∈ l) :
    (resolveEntry db i).1 = db := by
  induction l with
  | nil => exact nomatch hi
  | cons k rest ih =>
    obtain ⟨hk, hrest⟩ := List.nodup_cons.mp hl
    have hfirst : (resolveEntry db k).1 = db := by
      funext x
      rcases eq_or_ne x k with rfl | hne
      · have hkept : (resolveList (resolveEntry db x).1 rest).1 x = (resolveEntry db x).1 x :=
          resolveList_other hk
        exact hkept.symm.trans (congrFun h x)
      · exact resolveEntry_other hne
    rcases List.mem_cons.mp hi with rfl | hi
    · exact hfirst
    · refine ih hrest ?_ hi
      change (resolveList (resolveEntry db k).1 rest).1 = db at h
      rwa [hfirst] at h

end

-- ════════════════════════════════════════════════════════════════════════
-- The rounds
-- ════════════════════════════════════════════════════════════════════════

section

variable {n : ℕ} {db db' : RomDatabase n} {i : Fin n} {l : List (Fin n)}

open Classical in
/-- The number of pending entries. -/
noncomputable def pendingCount (db : RomDatabase n) : ℕ :=
  (List.finRange n).countP fun i => Pending db i

theorem round_skipped (db : RomDatabase n) : (romdatabaseResolveRound db).2 =
    pendingCount (romdatabaseResolveRound db).1 := resolveList_skipped (List.nodup_finRange n)

theorem pending_of_round (h : Pending (romdatabaseResolveRound db).1 i) : Pending db i :=
  (pending_congr resolveList_md5 (congrArg Entry.refmd5 h.unchanged)).mp h

open Classical in
theorem pendingCount_round_le (db : RomDatabase n) :
    pendingCount (romdatabaseResolveRound db).1 ≤ pendingCount db :=
  List.countP_mono_left fun _ _ h => decide_eq_true (pending_of_round (of_decide_eq_true h))

open Classical in
/-- A round that leaves as many entries pending as it finds changes nothing. -/
theorem round_unchanged (h : pendingCount (romdatabaseResolveRound db).1 = pendingCount db) :
    (romdatabaseResolveRound db).1 = db := by
  have hsub : ((List.finRange n).filter fun i =>
      Pending (romdatabaseResolveRound db).1 i).Sublist
        ((List.finRange n).filter fun i => Pending db i) :=
    List.monotone_filter_right _ fun _ hi =>
      decide_eq_true (pending_of_round (of_decide_eq_true hi))
  have hsame := hsub.eq_of_length (by
    rw [← List.countP_eq_length_filter, ← List.countP_eq_length_filter]
    exact h)
  funext i
  by_cases hi : Pending db i
  · have hmem : i ∈ (List.finRange n).filter fun i => Pending db i :=
      List.mem_filter.mpr ⟨List.mem_finRange i, decide_eq_true hi⟩
    rw [← hsame] at hmem
    exact (of_decide_eq_true (List.mem_filter.mp hmem).2 : Pending _ i).unchanged
  · exact resolveList_of_not_pending hi

/-- After a round that changes nothing no entry with a chain is pending. -/
theorem RefChain.not_pending (hchain : RefChain db i l) (h : (romdatabaseResolveRound db).1 = db) :
    ¬Pending db i := by
  induction hchain with
  | root hroot =>
    rintro ⟨j, m, hm, -⟩
    exact nomatch hroot.symm.trans hm
  | @step i j l href hl ih =>
    intro hpending
    have hturn := resolveEntry_of_unchanged (List.nodup_finRange n) h (List.mem_finRange i)
    rcases resolveEntry_cases db i with ⟨-, hnot⟩ | ⟨k, hk, hne, -⟩ | ⟨k, hk, hnone, heq⟩
    · exact hnot hpending
    · obtain rfl := refers_unique href hk
      cases hl with
      | root hroot => exact hne hroot
      | step hj _ => exact ih ⟨_, hj⟩
    · obtain ⟨-, m, hm, -⟩ := hpending
      have hi := congrFun (heq ▸ hturn) i
      change Function.update db i _ i = db i at hi
      rw [Function.update_self] at hi
      rw [← hi] at hm
      exact nomatch hm

/-- References are found in the entries as they were. -/
theorem Resolves.refers {j : Fin n} (h : Resolves db db') (hi : db' i = db i) :
    Refers db' i j ↔ Refers db i j := by
  unfold Refers
  rw [hi]
  simp only [iniSearchByMd5_congr h.md5]

/-- Where no entry with a reference left has a chain, every chain is resolved. -/
theorem Resolves.chain (h : Resolves db db') (hdone : ∀ i l, RefChain db' i l → ¬Pending db' i)
    {rest : List (Fin n)} (hchain : RefChain db i (i :: rest)) : db' i = resolved db rest i := by
  generalize hl : i :: rest = chain at hchain
  induction hchain generalizing rest with
  | @root i hroot =>
    obtain ⟨-, rfl⟩ := List.cons_eq_cons.mp hl
    refine (h i).resolve_right ?_
    rintro ⟨j, _, ⟨m, hm, -⟩, -⟩
    exact nomatch hroot.symm.trans hm
  | @step i j chain href hrest ih =>
    obtain ⟨-, rfl⟩ := List.cons_eq_cons.mp hl
    obtain ⟨tail, rfl⟩ := hrest.head
    rcases h i with hi | ⟨j', rest', href', hchain', hi⟩
    · -- the entry cannot be left pending, as the reference is resolved
      exfalso
      have hpending : Pending db' i := ⟨j, (h.refers hi).mpr href⟩
      have hj : (db' j).refmd5 = none := by
        rw [ih rfl]
        cases hrest with
        | root hroot => exact hroot
        | step _ hl' =>
          obtain ⟨_, rfl⟩ := hl'.head
          rfl
      exact hdone i [i, j] (.step ((h.refers hi).mpr href) (.root hj)) hpending
    · obtain rfl := refers_unique href href'
      obtain ⟨-, rfl⟩ := List.cons_eq_cons.mp (hrest.unique hchain')
      exact hi

/-- An entry without a chain is left as it was. -/
theorem Resolves.astray (h : Resolves db db') (hi : ∀ l, ¬RefChain db i l) : db' i = db i :=
  (h i).resolve_right fun ⟨_, _, href, hchain, _⟩ => hi _ (.step href hchain)

open Classical in
/-- The rounds end, and then every chain is resolved. -/
theorem resolve_ends (db : RomDatabase n) (fuel : ℕ) (last : Option ℕ)
    (hlast : ∀ s, last = some s → s = pendingCount db)
    (hfuel : pendingCount db + (if last = none then 1 else 0) < fuel) :
    ∃ db', romdatabaseResolve fuel last db = some db' ∧
      (∀ db₀, Resolves db₀ db → Resolves db₀ db') ∧
      ∀ i l, RefChain db' i l → ¬Pending db' i := by
  induction fuel generalizing db last with
  | zero => exact absurd hfuel (Nat.not_lt_zero _)
  | succ fuel ih =>
    have hskipped := round_skipped db
    have hle := pendingCount_round_le db
    have hkeeps : ∀ db₀, Resolves db₀ db → Resolves db₀ (romdatabaseResolveRound db).1 :=
      fun db₀ h => h.resolveList _
    by_cases hstop : last = some (romdatabaseResolveRound db).2
    · have hsame := round_unchanged (hskipped.symm.trans (hlast _ hstop))
      refine ⟨(romdatabaseResolveRound db).1, if_pos hstop, hkeeps, fun i l hchain => ?_⟩
      rw [hsame] at hchain ⊢
      exact hchain.not_pending hsame
    · by_cases hpos : 0 < (romdatabaseResolveRound db).2
      · have hfuel' : pendingCount (romdatabaseResolveRound db).1 < fuel := by
          cases last with
          | none =>
            rw [if_pos rfl] at hfuel
            omega
          | some s =>
            rw [if_neg (Option.some_ne_none s)] at hfuel
            have hs := hlast s rfl
            have hne : s ≠ (romdatabaseResolveRound db).2 := fun h => hstop (congrArg some h)
            omega
        obtain ⟨db', hrun, hresolves, hdone⟩ := ih (romdatabaseResolveRound db).1
          (some (romdatabaseResolveRound db).2)
          (fun s hs => (Option.some_inj.mp hs).symm.trans hskipped) (by simpa using hfuel')
        exact ⟨db', ((if_neg hstop).trans (if_pos hpos)).trans hrun,
          fun db₀ h => hresolves db₀ (hkeeps db₀ h), hdone⟩
      · refine ⟨(romdatabaseResolveRound db).1, (if_neg hstop).trans (if_neg hpos), hkeeps,
          fun i l _ hpending => ?_⟩
        have hzero : pendingCount (romdatabaseResolveRound db).1 = 0 := by omega
        have hnone := List.countP_eq_zero.mp hzero i (List.mem_finRange i)
        exact hnone (decide_eq_true hpending)

/-- What becomes of each entry. -/
theorem resolve_outcome (db : RomDatabase n) :
    ∃ db', romdatabaseResolve (n + 2) none db = some db' ∧
      (∀ i rest, RefChain db i (i :: rest) → db' i = resolved db rest i) ∧
      ∀ i, (∀ l, ¬RefChain db i l) → db' i = db i := by
  have hcount : pendingCount db ≤ n :=
    List.countP_le_length.trans_eq (List.length_finRange (n := n))
  obtain ⟨db', hrun, hresolves, hdone⟩ := resolve_ends db (n + 2) none
    (fun s hs => nomatch hs) (by rw [if_pos rfl]; omega)
  have h := hresolves db fun i => .inl rfl
  exact ⟨db', hrun, fun i rest hchain => h.chain hdone hchain, fun i hi => h.astray hi⟩

end

-- ════════════════════════════════════════════════════════════════════════
-- Order
-- ════════════════════════════════════════════════════════════════════════

/-- The same entries in another order, in which entries of one MD5 are not exchanged. -/
structure Reorders {n : ℕ} (σ : Equiv.Perm (Fin n)) (db db₂ : RomDatabase n) : Prop where
  entries : ∀ i, db₂ (σ i) = db i
  keeps : ∀ i j, (db i).md5 = (db j).md5 → i < j → σ i < σ j

namespace Reorders

variable {n : ℕ} {σ : Equiv.Perm (Fin n)} {db db₂ : RomDatabase n} {i j : Fin n}

theorem symm (h : Reorders σ db db₂) : Reorders σ.symm db₂ db where
  entries i := by rw [← h.entries, Equiv.apply_symm_apply]
  keeps i j hmd5 hlt := by
    by_contra hge
    have hne : σ.symm j ≠ σ.symm i := fun heq => hlt.ne' (σ.symm.injective heq)
    have hback := h.keeps (σ.symm j) (σ.symm i)
      (by rw [← h.entries, ← h.entries, Equiv.apply_symm_apply, Equiv.apply_symm_apply, hmd5])
      (lt_of_le_of_ne (not_lt.mp hge) hne)
    rw [Equiv.apply_symm_apply, Equiv.apply_symm_apply] at hback
    exact hlt.asymm hback

theorem refers (h : Reorders σ db db₂) (href : Refers db i j) : Refers db₂ (σ i) (σ j) := by
  obtain ⟨m, hm, hfind⟩ := href
  obtain ⟨hj, hlast⟩ := iniSearchByMd5_eq_some_iff.mp hfind
  refine ⟨m, by rw [h.entries, hm], iniSearchByMd5_eq_some_iff.mpr ⟨by rw [h.entries, hj], ?_⟩⟩
  intro k hk
  obtain ⟨k, rfl⟩ := σ.surjective k
  rw [h.entries] at hk
  rcases (hlast k hk).eq_or_lt with rfl | hlt
  · exact le_rfl
  · exact (h.keeps k j (hk.trans hj.symm) hlt).le

theorem chain {l : List (Fin n)} (h : Reorders σ db db₂) (hchain : RefChain db i l) :
    RefChain db₂ (σ i) (l.map σ) := by
  induction hchain with
  | root hroot => exact .root (by rw [h.entries, hroot])
  | step href _ ih => exact .step (h.refers href) ih

theorem resolved_eq (h : Reorders σ db db₂) (l : List (Fin n)) (i : Fin n) :
    resolved db₂ (l.map σ) (σ i) = resolved db l i := by
  induction l generalizing i with
  | nil => exact h.entries i
  | cons j l ih =>
    rw [List.map_cons, resolved, resolved, ih, h.entries]

end Reorders

/-- The rounds end. Every entry with a chain then has the values of its chain, an entry whose
references lead astray is as it was, and the order of the file matters only among entries of one
MD5. -/
theorem resolve_chains {n : ℕ} (db : RomDatabase n) :
    ∃ db', romdatabaseResolve (n + 2) none db = some db' ∧
      (∀ i l, RefChain db i l → ∀ a, (db' i).value a = chainValue db l a) ∧
      (∀ i, LeadsAstray db i → db' i = db i) ∧
      ∀ σ db₂ db₂', Reorders σ db db₂ → romdatabaseResolve (n + 2) none db₂ = some db₂' →
        ∀ i, db₂' (σ i) = db' i := by
  obtain ⟨db', hrun, hchain, hastray⟩ := resolve_outcome db
  refine ⟨db', hrun, fun i l hl a => ?_, fun i hi => ?_, fun σ db₂ db₂' hσ hrun₂ i => ?_⟩
  · obtain ⟨rest, rfl⟩ := hl.head
    rw [hchain i rest hl, hl.resolved_value]
  · exact hastray i fun l hl => hl.not_leadsAstray hi
  · obtain ⟨db₃, hrun₃, hchain₃, hastray₃⟩ := resolve_outcome db₂
    obtain rfl := Option.some_inj.mp (hrun₂.symm.trans hrun₃)
    by_cases hi : ∃ l, RefChain db i l
    · obtain ⟨l, hl⟩ := hi
      obtain ⟨rest, rfl⟩ := hl.head
      rw [hchain i rest hl, hchain₃ _ _ (hσ.chain hl), hσ.resolved_eq]
    · have hnone : ∀ l, ¬RefChain db₂ (σ i) l := fun l hl => by
        have hback := hσ.symm.chain hl
        rw [Equiv.symm_apply_apply] at hback
        exact hi ⟨_, hback⟩
      rw [hastray i fun l hl => hi ⟨l, hl⟩, hastray₃ _ hnone, hσ.entries]

/-- Two entries of one MD5 with different ratings, and a third one that names them. -/
def twoRatings (first second : BitVec 8) : RomDatabase 3 :=
  ![(Entry.new fun _ => 0).set .status first, (Entry.new fun _ => 0).set .status second,
    (Entry.new fun _ => 1).setRef fun _ => 0]

/-- The third entry takes the rating of the last of the two. -/
theorem two_ratings_depend_on_order :
    ¬∀ (n : ℕ) (σ : Equiv.Perm (Fin n)) (db db₂ db' db₂' : RomDatabase n),
      (∀ i, db₂ (σ i) = db i) → romdatabaseResolve (n + 2) none db = some db' →
      romdatabaseResolve (n + 2) none db₂ = some db₂' →
        ∀ i a, (db₂' (σ i)).value a = (db' i).value a := by
  intro h
  have hentries : ∀ i, twoRatings 2 1 (Equiv.swap 0 1 i) = twoRatings 1 2 i := by
    intro i
    fin_cases i <;> rfl
  have hfirst : (romdatabaseResolve 5 none (twoRatings 1 2)).map
      (fun db => ((db 2).value .status : BitVec 8)) = some 2 := by decide
  have hsecond : (romdatabaseResolve 5 none (twoRatings 2 1)).map
      (fun db => ((db 2).value .status : BitVec 8)) = some 1 := by decide
  obtain ⟨db', hrun, hvalue⟩ := Option.map_eq_some_iff.mp hfirst
  obtain ⟨db₂', hrun₂, hvalue₂⟩ := Option.map_eq_some_iff.mp hsecond
  have heq : ((db₂' 2).value .status : BitVec 8) = (db' 2).value .status :=
    h 3 (Equiv.swap 0 1) _ _ db' db₂' hentries hrun hrun₂ 2 .status
  rw [hvalue, hvalue₂] at heq
  have hne : (1 : BitVec 8) ≠ 2 := by decide
  exact hne heq

end Mupen64plus
