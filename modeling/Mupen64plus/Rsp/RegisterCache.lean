import Mathlib.Data.List.FinRange
import Mathlib.Logic.Function.Basic

/-!
# The register cache of the recompiler

`RegisterCache` of `rsp_jit.cpp`: while a block is emitted, MIPS registers live in host registers,
are written back when they are evicted, and are known to be sign-extended, zero-extended or
neither. Host register `i` belongs to entry `i`; an emitted operation takes effect as it is emitted.

## Main definitions

- `RegisterCache.findRegister` — the entry of a register, or the one to take
- `RegisterCache.loadMipsRegister`, `RegisterCache.modifyMipsRegister`
- `RegisterCache.flushEntry` — what the flushes do to an entry

## Main results

- `RegisterCache.of_findRegister`, `RegisterCache.findRegister_isSome` — what the search finds
- `RegisterCache.loadMipsRegister_miss`, `RegisterCache.loadMipsRegister_hit` — a load, as a flush
  and an assignment of one entry
-/

namespace Mupen64plus

-- ════════════════════════════════════════════════════════════════════════
-- The cache
-- ════════════════════════════════════════════════════════════════════════

/-- `SignState`: what the upper half of the host register is known to hold. -/
inductive SignState where
  | sExt
  | zExt
  | unknown
  deriving DecidableEq, Repr

structure CacheEntry where
  mipsRegister : ℕ
  timestamp : BitVec 32
  numLocks : BitVec 32
  sign : SignState
  isLive : Bool
  modified : Bool
  deriving DecidableEq, Repr

/-- The entry `{}`. -/
def CacheEntry.empty : CacheEntry := ⟨0, 0#32, 0#32, .sExt, false, false⟩

/-- `COND_BRANCH_TAKEN`, the last register with a word in `sr`. -/
def condBranchTaken : ℕ := 32

/-- The cache, and what the emitted code has left in the host registers and in `state.sr`. -/
structure RegisterCache (n : ℕ) where
  entries : Fin n → CacheEntry
  timestamp : BitVec 32
  host : Fin n → BitVec 64
  sr : ℕ → BitVec 32

namespace RegisterCache

variable {n : ℕ} (c : RegisterCache n)

def setEntry (i : Fin n) (e : CacheEntry) : RegisterCache n :=
  { c with entries := Function.update c.entries i e }

def setHost (i : Fin n) (v : BitVec 64) : RegisterCache n :=
  { c with host := Function.update c.host i v }

/-- `jit_stxi_i` to the word of a register. -/
def stxi (r : ℕ) (i : Fin n) : RegisterCache n :=
  { c with sr := Function.update c.sr r ((c.host i).setWidth 32) }

def ldxiI (i : Fin n) (r : ℕ) : RegisterCache n := c.setHost i ((c.sr r).signExtend 64)

def ldxiUi (i : Fin n) (r : ℕ) : RegisterCache n := c.setHost i ((c.sr r).setWidth 64)

def movi (i : Fin n) (v : BitVec 64) : RegisterCache n := c.setHost i v

def extrI (i : Fin n) : RegisterCache n :=
  c.setHost i (((c.host i).setWidth 32).signExtend 64)

def extrUi (i : Fin n) : RegisterCache n := c.setHost i (((c.host i).setWidth 32).setWidth 64)

def findLiveMipsRegister (r : ℕ) : Option (Fin n) :=
  (List.finRange n).find? fun i => (c.entries i).isLive && (c.entries i).mipsRegister == r

def findFreeRegister : Option (Fin n) := (List.finRange n).find? fun i => !(c.entries i).isLive

/-- The better of the oldest entry so far and the next one. -/
def olderUnlocked (best : Option (Fin n)) (i : Fin n) : Option (Fin n) :=
  if (c.entries i).isLive ∧ (c.entries i).numLocks = 0#32 then
    match best with
    | none => some i
    | some b => if (c.entries i).timestamp < (c.entries b).timestamp then some i else some b
  else best

def findOldestUnlockedRegister : Option (Fin n) := (List.finRange n).foldl c.olderUnlocked none

/-- `find_register`; without a register its assertion fails. -/
def findRegister (r : ℕ) : Option (Fin n) :=
  match c.findLiveMipsRegister r with
  | some i => some i
  | none =>
    match c.findFreeRegister with
    | some i => some i
    | none => c.findOldestUnlockedRegister

def writebackRegister (i : Fin n) : RegisterCache n :=
  let stored :=
    if (c.entries i).mipsRegister ≤ condBranchTaken then c.stxi (c.entries i).mipsRegister i else c
  stored.setEntry i { c.entries i with modified := false }

/-- The timestamp and the lock that each of the functions ends with. -/
def lock (i : Fin n) : RegisterCache n :=
  { c.setEntry i { c.entries i with
      timestamp := c.timestamp + 1#32, numLocks := (c.entries i).numLocks + 1#32 } with
    timestamp := c.timestamp + 1#32 }

/-- The three loads. -/
inductive Extension where
  | noext
  | sext
  | zext
  deriving DecidableEq, Repr

/-- What a load of a register that is not live marks the host register as. -/
def Extension.sign : Extension → SignState
  | .noext => .sExt
  | .sext => .sExt
  | .zext => .zExt

/-- The host register is filled from `sr`. -/
def fetch (how : Extension) (i : Fin n) (r : ℕ) : RegisterCache n :=
  if r ≠ 0 then
    match how with
    | .noext => c.ldxiI i r
    | .sext => c.ldxiI i r
    | .zext => c.ldxiUi i r
  else c.movi i 0#64

/-- The host register of a live register is extended as the load asks. -/
def extend (how : Extension) (i : Fin n) (r : ℕ) : RegisterCache n :=
  match how with
  | .noext => c
  | .sext =>
    if (c.entries i).sign ≠ .sExt then
      (if r ≠ 0 then c.extrI i else c).setEntry i { c.entries i with sign := .sExt }
    else c
  | .zext =>
    if (c.entries i).sign ≠ .zExt then
      (if r ≠ 0 then c.extrUi i else c).setEntry i { c.entries i with sign := .zExt }
    else c

def writebackModified (i : Fin n) : RegisterCache n :=
  if (c.entries i).modified then c.writebackRegister i else c

/-- `load_mips_register_noext`, `load_mips_register_sext` and `load_mips_register_zext`. -/
def loadMipsRegister (how : Extension) (r : ℕ) : Option (RegisterCache n × Fin n) :=
  (c.findRegister r).map fun i =>
    let ready :=
      if (c.entries i).isLive ∧ (c.entries i).mipsRegister ≠ r then
        let back := c.writebackModified i
        (back.fetch how i r).setEntry i
          { back.entries i with mipsRegister := r, modified := false, sign := how.sign }
      else if (c.entries i).isLive = false then
        (c.fetch how i r).setEntry i
          { c.entries i with
            mipsRegister := r, sign := how.sign, isLive := true, modified := false }
      else c.extend how i r
    (ready.lock i, i)

def loadMipsRegisterNoext (r : ℕ) : Option (RegisterCache n × Fin n) := c.loadMipsRegister .noext r

def loadMipsRegisterSext (r : ℕ) : Option (RegisterCache n × Fin n) := c.loadMipsRegister .sext r

def loadMipsRegisterZext (r : ℕ) : Option (RegisterCache n × Fin n) := c.loadMipsRegister .zext r

def modifyMipsRegister (r : ℕ) : Option (RegisterCache n × Fin n) :=
  (c.findRegister r).map fun i =>
    let ready :=
      if (c.entries i).isLive ∧ (c.entries i).mipsRegister ≠ r then
        let back := c.writebackModified i
        back.setEntry i { back.entries i with mipsRegister := r }
      else if (c.entries i).isLive = false then
        c.setEntry i { c.entries i with mipsRegister := r, isLive := true }
      else c
    ((ready.setEntry i { ready.entries i with sign := .unknown, modified := true }).lock i, i)

def immediateMipsRegister (r : ℕ) (value : BitVec 64) : Option (RegisterCache n × Fin n) :=
  (c.modifyMipsRegister r).map fun (c', i) =>
    ((c'.movi i value).setEntry i { c'.entries i with sign := .sExt }, i)

def unlockMipsRegister (r : ℕ) : RegisterCache n :=
  match c.findLiveMipsRegister r with
  | some i => c.setEntry i { c.entries i with numLocks := (c.entries i).numLocks - 1#32 }
  | none => c

/-- What the flushes do to an entry. -/
def flushEntry (i : Fin n) : RegisterCache n :=
  if (c.entries i).isLive then (c.writebackModified i).setEntry i .empty else c

def flushRegisterWindow : RegisterCache n :=
  { (List.finRange n).foldl flushEntry c with timestamp := 0#32 }

/-- `flush_caller_save_registers`, where the first `rNum` host registers are `JIT_R`. -/
def flushCallerSaveRegisters (rNum : ℕ) : RegisterCache n :=
  ((List.finRange n).filter fun i => i.val < rNum).foldl flushEntry c

def flushMipsRegister (r : ℕ) : RegisterCache n :=
  match c.findLiveMipsRegister r with
  | some i => c.flushEntry i
  | none => c

end RegisterCache

-- ════════════════════════════════════════════════════════════════════════
-- What the searches find
-- ════════════════════════════════════════════════════════════════════════

namespace RegisterCache

variable {n : ℕ} {c : RegisterCache n} {r : ℕ} {i : Fin n}

theorem of_findLive (h : c.findLiveMipsRegister r = some i) :
    (c.entries i).isLive = true ∧ (c.entries i).mipsRegister = r := by
  have hi := List.find?_some h
  simpa using hi

theorem of_findLive_none (h : c.findLiveMipsRegister r = none) (i : Fin n)
    (hi : (c.entries i).isLive = true) : (c.entries i).mipsRegister ≠ r := by
  have hnot := List.find?_eq_none.1 h i (List.mem_finRange i)
  simpa [hi] using hnot

theorem of_findFree (h : c.findFreeRegister = some i) : (c.entries i).isLive = false := by
  have hi := List.find?_some h
  simpa using hi

theorem of_findFree_none (h : c.findFreeRegister = none) (i : Fin n) :
    (c.entries i).isLive = true := by
  have hnot := List.find?_eq_none.1 h i (List.mem_finRange i)
  simpa using hnot

theorem olderUnlocked_eq (best : Option (Fin n)) (i : Fin n) :
    c.olderUnlocked best i = best ∨
      c.olderUnlocked best i = some i ∧ (c.entries i).numLocks = 0#32 := by
  unfold olderUnlocked
  split
  next h =>
    cases best with
    | none => exact .inr ⟨rfl, h.2⟩
    | some b =>
      dsimp only
      split
      · exact .inr ⟨rfl, h.2⟩
      · exact .inl rfl
  next => exact .inl rfl

theorem olderUnlocked_isSome (best : Option (Fin n)) (i : Fin n)
    (h : best.isSome ∨ (c.entries i).isLive = true ∧ (c.entries i).numLocks = 0#32) :
    (c.olderUnlocked best i).isSome := by
  unfold olderUnlocked
  split
  next =>
    cases best with
    | none => rfl
    | some b =>
      dsimp only
      split <;> rfl
  next hn => exact h.resolve_right hn

/-- The search among the entries of a list, from the best so far. -/
theorem foldl_olderUnlocked (l : List (Fin n)) (best : Option (Fin n))
    (hbest : ∀ b, best = some b → (c.entries b).numLocks = 0#32) :
    (∀ i, l.foldl c.olderUnlocked best = some i → (c.entries i).numLocks = 0#32) ∧
      ((best.isSome ∨ ∃ i ∈ l, (c.entries i).isLive = true ∧ (c.entries i).numLocks = 0#32) →
        (l.foldl c.olderUnlocked best).isSome) := by
  induction l generalizing best with
  | nil =>
    refine ⟨hbest, ?_⟩
    rintro (h | ⟨i, hi, -⟩)
    · exact h
    · cases hi
  | cons k l ih =>
    have hnext : ∀ b, c.olderUnlocked best k = some b → (c.entries b).numLocks = 0#32 := by
      intro b hb
      rcases olderUnlocked_eq best k with he | ⟨he, hk⟩
      · exact hbest b (he ▸ hb)
      · rw [he, Option.some.injEq] at hb
        exact hb ▸ hk
    refine ⟨(ih _ hnext).1, fun h => (ih _ hnext).2 ?_⟩
    rcases h with h | ⟨i, hi, hfree⟩
    · exact .inl (olderUnlocked_isSome best k (.inl h))
    · rcases List.mem_cons.1 hi with rfl | hi
      · exact .inl (olderUnlocked_isSome best i (.inr hfree))
      · exact .inr ⟨i, hi, hfree⟩

/-- A search returns the entry of the register, or one that is free or that nobody has locked,
    and then the register has no entry. -/
theorem of_findRegister (h : c.findRegister r = some i) :
    ((c.entries i).isLive = true ∧ (c.entries i).mipsRegister = r) ∨
      ((∀ j, (c.entries j).isLive = true → (c.entries j).mipsRegister ≠ r) ∧
        ((c.entries i).isLive = false ∨ (c.entries i).numLocks = 0#32)) := by
  unfold findRegister at h
  split at h
  next k hk =>
    cases h
    exact .inl (of_findLive hk)
  next hnone =>
    refine .inr ⟨of_findLive_none hnone, ?_⟩
    split at h
    next k hk =>
      cases h
      exact .inl (of_findFree hk)
    next =>
      have hsearch := foldl_olderUnlocked (c := c) (List.finRange n) none (fun b hb => by cases hb)
      exact .inr (hsearch.1 i h)

theorem findRegister_isSome (h : (c.entries i).isLive = true → (c.entries i).numLocks = 0#32) :
    (c.findRegister r).isSome := by
  unfold findRegister
  split
  next => rfl
  next =>
    split
    next => rfl
    next hnone =>
      have hi := of_findFree_none hnone i
      have hsearch := foldl_olderUnlocked (c := c) (List.finRange n) none (fun b hb => by cases hb)
      exact hsearch.2 (.inr ⟨i, List.mem_finRange i, hi, h hi⟩)

-- ════════════════════════════════════════════════════════════════════════
-- What the functions change
-- ════════════════════════════════════════════════════════════════════════

/-- One entry and its host register are set. -/
def assign (c : RegisterCache n) (t : BitVec 32) (i : Fin n) (e : CacheEntry) (v : BitVec 64) :
    RegisterCache n :=
  { c with
    entries := Function.update c.entries i e
    timestamp := t
    host := Function.update c.host i v }

theorem assign_self {t : BitVec 32} {e : CacheEntry} {v : BitVec 64} :
    (c.assign t i e v).entries i = e := Function.update_self ..

theorem assign_of_ne {j : Fin n} (hj : j ≠ i) {t : BitVec 32} {e : CacheEntry} {v : BitVec 64} :
    (c.assign t i e v).entries j = c.entries j := Function.update_of_ne hj ..

/-- What a load of a register without an entry puts into the host register. -/
def Extension.fetched (how : Extension) (sr : ℕ → BitVec 32) (r : ℕ) : BitVec 64 :=
  if r ≠ 0 then
    match how with
    | .noext => (sr r).signExtend 64
    | .sext => (sr r).signExtend 64
    | .zext => (sr r).setWidth 64
  else 0#64

theorem fetch_eq (how : Extension) (i : Fin n) (r : ℕ) :
    c.fetch how i r = c.setHost i (how.fetched c.sr r) := by
  unfold fetch Extension.fetched
  split
  · cases how <;> rfl
  · rfl

theorem writebackModified_eq (i : Fin n) :
    c.writebackModified i =
      { c with
        entries := Function.update c.entries i { c.entries i with modified := false }
        sr :=
          if (c.entries i).modified ∧ (c.entries i).mipsRegister ≤ condBranchTaken then
            Function.update c.sr (c.entries i).mipsRegister ((c.host i).setWidth 32)
          else c.sr } := by
  unfold writebackModified
  cases hm : (c.entries i).modified with
  | false =>
    have he : ({ c.entries i with modified := false } : CacheEntry) = c.entries i := by
      rw [← hm]
    simp [he]
  | true =>
    by_cases hr : (c.entries i).mipsRegister ≤ condBranchTaken <;>
      simp [writebackRegister, hr, setEntry, stxi]

theorem flushEntry_eq (i : Fin n) (hi : (c.entries i).isLive = true) :
    c.flushEntry i =
      { c with
        entries := Function.update c.entries i .empty
        sr :=
          if (c.entries i).modified ∧ (c.entries i).mipsRegister ≤ condBranchTaken then
            Function.update c.sr (c.entries i).mipsRegister ((c.host i).setWidth 32)
          else c.sr } := by
  rw [flushEntry, if_pos hi, writebackModified_eq]
  simp [setEntry]

theorem flushEntry_of_ne {j : Fin n} (hj : j ≠ i) :
    (c.flushEntry i).entries j = c.entries j := by
  cases hi : (c.entries i).isLive with
  | false => rw [flushEntry, hi, if_neg Bool.false_ne_true]
  | true =>
    rw [flushEntry_eq i hi]
    exact Function.update_of_ne hj ..

theorem flushEntry_self : ((c.flushEntry i).entries i).isLive = false := by
  cases hi : (c.entries i).isLive with
  | false =>
    rw [flushEntry, hi, if_neg Bool.false_ne_true]
    exact hi
  | true =>
    rw [flushEntry_eq i hi]
    exact congrArg CacheEntry.isLive (Function.update_self i CacheEntry.empty c.entries)

theorem flushEntry_live {j : Fin n} (hj : ((c.flushEntry i).entries j).isLive = true) :
    j ≠ i ∧ (c.entries j).isLive = true := by
  have hji : j ≠ i := by
    rintro rfl
    rw [flushEntry_self] at hj
    cases hj
  rw [flushEntry_of_ne hji] at hj
  exact ⟨hji, hj⟩

/-- A load of a register without an entry empties the entry it takes and fills it. -/
theorem loadMipsRegister_miss (how : Extension) (hi : c.findRegister r = some i)
    (hr : (c.entries i).isLive = true → (c.entries i).mipsRegister ≠ r)
    (hlocks : (c.entries i).numLocks = 0#32) :
    c.loadMipsRegister how r =
      some (((c.flushEntry i).assign c.timestamp i ⟨r, 0#32, 0#32, how.sign, true, false⟩
        (how.fetched (c.flushEntry i).sr r)).lock i, i) := by
  rw [loadMipsRegister, hi, Option.map_some]
  cases hlive : (c.entries i).isLive with
  | false =>
    simp [hlive, flushEntry, fetch_eq, assign, lock, setEntry, setHost, hlocks]
  | true =>
    simp [hlive, hr hlive, flushEntry_eq, writebackModified_eq, fetch_eq, assign, lock, setEntry,
      setHost, hlocks]

/-- `modify_mips_register` of a register without an entry takes an entry as it is. -/
theorem modifyMipsRegister_miss (hi : c.findRegister r = some i)
    (hr : (c.entries i).isLive = true → (c.entries i).mipsRegister ≠ r)
    (hlocks : (c.entries i).numLocks = 0#32) :
    c.modifyMipsRegister r =
      some (((c.flushEntry i).assign c.timestamp i ⟨r, 0#32, 0#32, .unknown, true, true⟩
        (c.host i)).lock i, i) := by
  rw [modifyMipsRegister, hi, Option.map_some]
  cases hlive : (c.entries i).isLive with
  | false => simp [hlive, flushEntry, assign, lock, setEntry, hlocks]
  | true =>
    simp [hlive, hr hlive, flushEntry_eq, writebackModified_eq, assign, lock, setEntry, hlocks]

theorem loadMipsRegister_hit (how : Extension) (hi : c.findRegister r = some i)
    (hlive : (c.entries i).isLive = true) (hr : (c.entries i).mipsRegister = r) :
    c.loadMipsRegister how r = some ((c.extend how i r).lock i, i) := by
  rw [loadMipsRegister, hi, Option.map_some]
  simp [hlive, hr]

theorem modifyMipsRegister_hit (hi : c.findRegister r = some i)
    (hlive : (c.entries i).isLive = true) (hr : (c.entries i).mipsRegister = r) :
    c.modifyMipsRegister r =
      some ((c.assign c.timestamp i { c.entries i with sign := .unknown, modified := true }
        (c.host i)).lock i, i) := by
  rw [modifyMipsRegister, hi, Option.map_some]
  simp [hlive, hr, assign, setEntry]

/-- What a load leaves in the host register of a live register. -/
def Extension.extended (how : Extension) (sign : SignState) (r : ℕ) (v : BitVec 64) : BitVec 64 :=
  match how with
  | .noext => v
  | .sext => if sign ≠ .sExt ∧ r ≠ 0 then (v.setWidth 32).signExtend 64 else v
  | .zext => if sign ≠ .zExt ∧ r ≠ 0 then (v.setWidth 32).setWidth 64 else v

def Extension.keptSign (how : Extension) (sign : SignState) : SignState :=
  match how with
  | .noext => sign
  | .sext => .sExt
  | .zext => .zExt

theorem extend_eq (how : Extension) (i : Fin n) (r : ℕ) :
    c.extend how i r =
      c.assign c.timestamp i { c.entries i with sign := how.keptSign (c.entries i).sign }
        (how.extended (c.entries i).sign r (c.host i)) := by
  cases how with
  | noext => simp [extend, assign, Extension.keptSign, Extension.extended]
  | sext =>
    by_cases hs : (c.entries i).sign = .sExt
    · have he : ({ c.entries i with sign := .sExt } : CacheEntry) = c.entries i := by rw [← hs]
      simp [extend, assign, Extension.keptSign, Extension.extended, hs, he]
    · by_cases hr : r = 0 <;>
        simp [extend, assign, Extension.keptSign, Extension.extended, hs, hr, setEntry, extrI,
          setHost]
  | zext =>
    by_cases hs : (c.entries i).sign = .zExt
    · have he : ({ c.entries i with sign := .zExt } : CacheEntry) = c.entries i := by rw [← hs]
      simp [extend, assign, Extension.keptSign, Extension.extended, hs, he]
    · by_cases hr : r = 0 <;>
        simp [extend, assign, Extension.keptSign, Extension.extended, hs, hr, setEntry, extrUi,
          setHost]

theorem assign_lock (t : BitVec 32) (i : Fin n) (e : CacheEntry) (v : BitVec 64) :
    (c.assign t i e v).lock i =
      c.assign (t + 1#32) i
        { e with timestamp := t + 1#32, numLocks := e.numLocks + 1#32 } v := by
  simp [lock, assign, setEntry]

end RegisterCache

end Mupen64plus
