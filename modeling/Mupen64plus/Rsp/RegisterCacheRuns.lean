import Mathlib.Algebra.Order.Ring.Nat
import Mathlib.Data.List.Dedup
import Mathlib.Data.Fintype.Card
import Mathlib.Data.Finset.Card
import Mupen64plus.Lib.Runs
import Mupen64plus.Rsp.RegisterCache

/-!
# Calls of the register cache

The code that emits an instruction locks the registers it needs, writes the host registers it was
given and unlocks them. What it knows of the registers is kept beside the cache.

## Main definitions

- `CacheSession.step` — a call, with what its caller knows: the values written, the locks held
- `CacheSession.Balanced`, `CacheSession.Promised` — the calls of a sequence
- `CacheSession.Sound` — what is said of a call
- `CacheSession.Coherent` — the cache and what the callers know agree

## Main results

- `CacheSession.Coherent.assign`, `CacheSession.Coherent.flushEntry` — what one call does to an
  entry keeps the cache coherent
- `CacheSession.registerCache_sound` — every call of a run is sound
-/

namespace Mupen64plus

-- ════════════════════
-- Calls
-- ════════════════════

/-- A call of the cache, or an emitted operation that writes the host register a `modify` gave. -/
inductive CacheCall where
  | load (how : RegisterCache.Extension) (r : ℕ)
  | modify (r : ℕ)
  | write (r : ℕ) (value : BitVec 64)
  | immediate (r : ℕ) (value : BitVec 64)
  | unlock (r : ℕ)
  | flushMips (r : ℕ)
  | flushCallerSave
  | flushWindow
  deriving DecidableEq, Repr

/-- The cache in use. The callers know the value last written to each register, the registers they
    have locked, once for each lock, and the host registers they may write. -/
structure CacheSession (n : ℕ) where
  cache : RegisterCache n
  last : ℕ → BitVec 32
  locks : List ℕ
  open? : ℕ → Option (Fin n)

namespace CacheSession

variable {n : ℕ} (rNum : ℕ) (s : CacheSession n)

/-- Before the first call: nothing is cached, `0` is the value of register 0. -/
def start (timestamp : BitVec 32) (host : Fin n → BitVec 64) (sr : ℕ → BitVec 32) :
    CacheSession n :=
  { cache := ⟨fun _ => .empty, timestamp, host, sr⟩
    last := Function.update sr 0 0#32
    locks := []
    open? := fun _ => none }

/-- A call. A register handed out by `modify` has the value its host register holds, until that is
    written; it may be written until the next call for that register. -/
def step : CacheCall → CacheSession n
  | .load how r =>
    match s.cache.loadMipsRegister how r with
    | some (cache, _) =>
      { s with cache, locks := r :: s.locks, open? := Function.update s.open? r none }
    | none => s
  | .modify r =>
    match s.cache.modifyMipsRegister r with
    | some (cache, i) =>
      { cache
        last := Function.update s.last r ((cache.host i).setWidth 32)
        locks := r :: s.locks
        open? := Function.update s.open? r (some i) }
    | none => s
  | .write r value =>
    match s.open? r with
    | some i =>
      { s with
        cache := s.cache.setHost i value
        last := Function.update s.last r (value.setWidth 32) }
    | none => s
  | .immediate r value =>
    match s.cache.immediateMipsRegister r value with
    | some (cache, _) =>
      { cache
        last := Function.update s.last r (value.setWidth 32)
        locks := r :: s.locks
        open? := Function.update s.open? r none }
    | none => s
  | .unlock r =>
    { s with
      cache := s.cache.unlockMipsRegister r
      locks := s.locks.erase r
      open? := Function.update s.open? r none }
  | .flushMips r => { s with cache := s.cache.flushMipsRegister r }
  | .flushCallerSave => { s with cache := s.cache.flushCallerSaveRegisters rNum }
  | .flushWindow => { s with cache := s.cache.flushRegisterWindow }

/-- A register can be locked: fewer are than the cache has entries. -/
def Room : Prop := s.locks.dedup.length < n

/-- The calls of the sequences: the locks are balanced, an entry is flushed when nobody has locked
    it, only registers with a word in `sr` are loaded and register 0 is not modified. -/
def Balanced : CacheCall → Prop
  | .load _ r => r ≤ condBranchTaken ∧ s.Room
  | .modify r => r ≠ 0 ∧ s.Room
  | .write r _ => (s.open? r).isSome
  | .immediate r _ => r ≠ 0 ∧ s.Room
  | .unlock r => r ∈ s.locks
  | .flushMips r => r ∉ s.locks
  | .flushCallerSave => ∀ i : Fin n, i.val < rNum → (s.cache.entries i).numLocks = 0#32
  | .flushWindow => s.locks = []

/-- What the callers keep to: an immediate is a 32-bit value extended by sign, and the locks of a
    register can be counted in 32 bits. -/
def Promised : CacheCall → Prop
  | .load _ r => s.locks.count r + 1 < 2 ^ 32
  | .modify r => s.locks.count r + 1 < 2 ^ 32
  | .immediate r value =>
    s.locks.count r + 1 < 2 ^ 32 ∧ value = (value.setWidth 32).signExtend 64
  | _ => True

instance decidableRoom : Decidable s.Room := inferInstanceAs (Decidable (_ < _))

instance decidableBalanced : ∀ call, Decidable (s.Balanced rNum call)
  | .load _ r => inferInstanceAs (Decidable (r ≤ condBranchTaken ∧ s.Room))
  | .modify r => inferInstanceAs (Decidable (r ≠ 0 ∧ s.Room))
  | .write r _ => inferInstanceAs (Decidable ((s.open? r).isSome = true))
  | .immediate r _ => inferInstanceAs (Decidable (r ≠ 0 ∧ s.Room))
  | .unlock r => inferInstanceAs (Decidable (r ∈ s.locks))
  | .flushMips r => inferInstanceAs (Decidable (r ∉ s.locks))
  | .flushCallerSave => inferInstanceAs
      (Decidable (∀ i : Fin n, i.val < rNum → (s.cache.entries i).numLocks = 0#32))
  | .flushWindow => inferInstanceAs (Decidable (s.locks = []))

instance decidablePromised : ∀ call, Decidable (s.Promised call)
  | .load _ r => inferInstanceAs (Decidable (s.locks.count r + 1 < 2 ^ 32))
  | .modify r => inferInstanceAs (Decidable (s.locks.count r + 1 < 2 ^ 32))
  | .immediate r value => inferInstanceAs (Decidable
      (s.locks.count r + 1 < 2 ^ 32 ∧ value = (value.setWidth 32).signExtend 64))
  | .write _ _ | .unlock _ | .flushMips _ | .flushCallerSave | .flushWindow => .isTrue trivial

/-- What the host register `v` given by a load says of the value `x` of the register. -/
def Returned : RegisterCache.Extension → BitVec 64 → BitVec 32 → Prop
  | .noext, v, x => v.setWidth 32 = x
  | .sext, v, x => v.setWidth 32 = x ∧ v = x.signExtend 64
  | .zext, v, x => v.setWidth 32 = x ∧ v = x.setWidth 64

/-- The entries somebody has locked keep their register. -/
def Kept (before after : RegisterCache n) : Prop :=
  ∀ i, (before.entries i).isLive = true → (before.entries i).numLocks ≠ 0#32 →
    (after.entries i).isLive = true ∧
      (after.entries i).mipsRegister = (before.entries i).mipsRegister

/-- No register has two live entries. -/
def OneEntry (c : RegisterCache n) : Prop :=
  ∀ i j, (c.entries i).isLive = true → (c.entries j).isLive = true →
    (c.entries i).mipsRegister = (c.entries j).mipsRegister → i = j

/-- What is said of a call: no locked entry is taken, a host register is found, a load returns the
    value last written, and behind a flush of the window the values are in `sr`. -/
def Sound (call : CacheCall) : Prop :=
  Kept s.cache (s.step rNum call).cache ∧
    match call with
    | .load how r => ∃ cache i, s.cache.loadMipsRegister how r = some (cache, i) ∧
        Returned how (cache.host i) (s.last r)
    | .modify r => (s.cache.modifyMipsRegister r).isSome
    | .immediate r value => (s.cache.immediateMipsRegister r value).isSome
    | .flushWindow => ∀ r, r ≠ 0 → r ≤ condBranchTaken →
        (s.step rNum .flushWindow).cache.sr r = s.last r
    | _ => True

end CacheSession

-- ════════════════════
-- The cache and what its callers know
-- ════════════════════

/-- What a sign state says of a host register that holds the value `x`. -/
def SignState.Holds (sign : SignState) (v : BitVec 64) (x : BitVec 32) : Prop :=
  v.setWidth 32 = x ∧
    match sign with
    | .sExt => v = x.signExtend 64
    | .zExt => v = x.setWidth 64
    | .unknown => True

/-- A live entry and its host register, beside the values written and the locks held. -/
structure CacheEntry.Fits (e : CacheEntry) (v : BitVec 64) (last : ℕ → BitVec 32)
    (locks : List ℕ) : Prop where
  count : e.numLocks.toNat = locks.count e.mipsRegister
  value : e.mipsRegister ≤ condBranchTaken → e.sign.Holds v (last e.mipsRegister)
  clean : e.mipsRegister = 0 → e.modified = false ∧ v = 0#64

/-- The cache and what its callers know agree: a register has one live entry, which holds the
    value last written, and a register without a modified entry has its value in `sr`. -/
structure CacheSession.Coherent {n : ℕ} (s : CacheSession n) : Prop where
  unique : ∀ i j, (s.cache.entries i).isLive = true → (s.cache.entries j).isLive = true →
    (s.cache.entries i).mipsRegister = (s.cache.entries j).mipsRegister → i = j
  idle : ∀ i, (s.cache.entries i).isLive = false → (s.cache.entries i).numLocks = 0#32
  fits : ∀ i, (s.cache.entries i).isLive = true →
    (s.cache.entries i).Fits (s.cache.host i) s.last s.locks
  held : ∀ r ∈ s.locks, ∃ i, (s.cache.entries i).isLive = true ∧
    (s.cache.entries i).mipsRegister = r
  zero : s.last 0 = 0#32
  stored : ∀ r, r ≠ 0 → r ≤ condBranchTaken →
    (∀ i, (s.cache.entries i).isLive = true → (s.cache.entries i).mipsRegister = r →
      (s.cache.entries i).modified = false) → s.cache.sr r = s.last r
  opened : ∀ r i, s.open? r = some i → r ∈ s.locks ∧ (s.cache.entries i).isLive = true ∧
    (s.cache.entries i).mipsRegister = r ∧ (s.cache.entries i).modified = true ∧
    (s.cache.entries i).sign = .unknown

namespace CacheSession.Coherent

variable {n : ℕ} {s : CacheSession n}

/-- **Assignment**: one entry is set, free before or of the same register, and the callers learn
    of no other register. -/
theorem assign (h : s.Coherent) {i : Fin n} {t : BitVec 32} {e : CacheEntry} {v : BitVec 64}
    {last : ℕ → BitVec 32} {locks : List ℕ} {open? : ℕ → Option (Fin n)}
    (hlive : e.isLive = true)
    (hown : (s.cache.entries i).isLive = true → (s.cache.entries i).mipsRegister = e.mipsRegister)
    (hfree : ∀ j, j ≠ i → (s.cache.entries j).isLive = true →
      (s.cache.entries j).mipsRegister ≠ e.mipsRegister)
    (hfits : e.Fits v last locks)
    (hlast : ∀ r, r ≠ e.mipsRegister → last r = s.last r)
    (hlocks : ∀ r, r ≠ e.mipsRegister → locks.count r = s.locks.count r)
    (hopen : ∀ r, r ≠ e.mipsRegister → open? r = s.open? r)
    (hzero : last 0 = 0#32)
    (hstored : e.mipsRegister ≠ 0 → e.mipsRegister ≤ condBranchTaken → e.modified = false →
      s.cache.sr e.mipsRegister = last e.mipsRegister)
    (hopened : ∀ k, open? e.mipsRegister = some k →
      k = i ∧ e.mipsRegister ∈ locks ∧ e.modified = true ∧ e.sign = .unknown) :
    Coherent ⟨s.cache.assign t i e v, last, locks, open?⟩ := by
  have hself : (s.cache.assign t i e v).entries i = e := RegisterCache.assign_self
  have hother : ∀ {j}, j ≠ i → (s.cache.assign t i e v).entries j = s.cache.entries j :=
    fun hj => RegisterCache.assign_of_ne hj
  have hmem : ∀ {r}, r ≠ e.mipsRegister → (r ∈ locks ↔ r ∈ s.locks) := by
    intro r hr
    rw [← List.count_pos_iff, ← List.count_pos_iff, hlocks r hr]
  constructor
  case unique =>
    intro j k hj hk hjk
    dsimp only at hj hk hjk
    by_cases hji : j = i <;> by_cases hki : k = i
    · exact hji.trans hki.symm
    · rw [hji, hself, hother hki] at hjk
      rw [hother hki] at hk
      exact absurd hjk.symm (hfree k hki hk)
    · rw [hki, hself, hother hji] at hjk
      rw [hother hji] at hj
      exact absurd hjk (hfree j hji hj)
    · rw [hother hji] at hj hjk
      rw [hother hki] at hk hjk
      exact h.unique j k hj hk hjk
  case idle =>
    intro j hj
    dsimp only at hj ⊢
    by_cases hji : j = i
    · rw [hji, hself, hlive] at hj
      cases hj
    · rw [hother hji] at hj ⊢
      exact h.idle j hj
  case fits =>
    intro j hj
    dsimp only at hj ⊢
    by_cases hji : j = i
    · subst hji
      rw [hself, show (s.cache.assign t j e v).host j = v from Function.update_self ..]
      exact hfits
    · rw [hother hji] at hj ⊢
      rw [show (s.cache.assign t i e v).host j = s.cache.host j from Function.update_of_ne hji ..]
      have hne := hfree j hji hj
      obtain ⟨hcount, hvalue, hclean⟩ := h.fits j hj
      refine ⟨?_, ?_, hclean⟩
      · rw [hlocks _ hne]
        exact hcount
      · rw [hlast _ hne]
        exact hvalue
  case held =>
    intro r hr
    dsimp only at hr ⊢
    by_cases hre : r = e.mipsRegister
    · exact ⟨i, by rw [hself]; exact hlive, by rw [hself]; exact hre.symm⟩
    · obtain ⟨j, hj, hjr⟩ := h.held r ((hmem hre).1 hr)
      have hji : j ≠ i := by
        rintro rfl
        exact hre (hjr.symm.trans (hown hj))
      exact ⟨j, by rw [hother hji]; exact hj, by rw [hother hji]; exact hjr⟩
  case zero => exact hzero
  case stored =>
    intro r hr0 hr hclean
    dsimp only at hclean ⊢
    by_cases hre : r = e.mipsRegister
    · subst hre
      have hm := hclean i (by rw [hself]; exact hlive) (by rw [hself])
      rw [hself] at hm
      exact hstored hr0 hr hm
    · rw [hlast r hre]
      refine h.stored r hr0 hr fun j hj hjr => ?_
      have hji : j ≠ i := by
        rintro rfl
        exact hre (hjr.symm.trans (hown hj))
      have hm := hclean j (by rw [hother hji]; exact hj) (by rw [hother hji]; exact hjr)
      rwa [hother hji] at hm
  case opened =>
    intro r k hk
    dsimp only at hk ⊢
    by_cases hre : r = e.mipsRegister
    · subst hre
      obtain ⟨rfl, hmemr, hm, hs⟩ := hopened k hk
      rw [hself]
      exact ⟨hmemr, hlive, rfl, hm, hs⟩
    · rw [hopen r hre] at hk
      obtain ⟨hr, hkl, hkr, hm, hs⟩ := h.opened r k hk
      have hki : k ≠ i := by
        rintro rfl
        exact hre (hkr.symm.trans (hown hkl))
      rw [hother hki]
      exact ⟨(hmem hre).2 hr, hkl, hkr, hm, hs⟩

/-- An entry that nobody has locked is written back and emptied. -/
theorem flushEntry (h : s.Coherent) (i : Fin n) (hi : (s.cache.entries i).numLocks = 0#32) :
    Coherent { s with cache := s.cache.flushEntry i } := by
  cases hlive : (s.cache.entries i).isLive with
  | false =>
    rw [RegisterCache.flushEntry, hlive, if_neg Bool.false_ne_true]
    exact h
  | true =>
    have hunheld : (s.cache.entries i).mipsRegister ∉ s.locks := by
      rw [← List.count_eq_zero, ← (h.fits i hlive).count, hi]
      rfl
    rw [RegisterCache.flushEntry_eq i hlive]
    have hself : Function.update s.cache.entries i .empty i = .empty := Function.update_self ..
    have hother : ∀ {j}, j ≠ i → Function.update s.cache.entries i .empty j = s.cache.entries j :=
      fun hj => Function.update_of_ne hj ..
    have hne : ∀ {j}, (Function.update s.cache.entries i .empty j).isLive = true → j ≠ i := by
      rintro j hj rfl
      rw [hself] at hj
      cases hj
    constructor
    case unique =>
      intro j k hj hk hjk
      dsimp only at hj hk hjk
      have hji := hne hj
      have hki := hne hk
      rw [hother hji] at hj hjk
      rw [hother hki] at hk hjk
      exact h.unique j k hj hk hjk
    case idle =>
      intro j hj
      dsimp only at hj ⊢
      by_cases hji : j = i
      · rw [hji, hself]
        rfl
      · rw [hother hji] at hj ⊢
        exact h.idle j hj
    case fits =>
      intro j hj
      dsimp only at hj ⊢
      have hji := hne hj
      rw [hother hji] at hj ⊢
      exact h.fits j hj
    case held =>
      intro r hr
      dsimp only at hr ⊢
      obtain ⟨j, hj, hjr⟩ := h.held r hr
      have hji : j ≠ i := by
        rintro rfl
        exact hunheld (hjr ▸ hr)
      exact ⟨j, by rw [hother hji]; exact hj, by rw [hother hji]; exact hjr⟩
    case zero => exact h.zero
    case stored =>
      intro r hr0 hr hclean
      dsimp only at hclean ⊢
      -- the entries other than `i` that hold `r` are not modified
      have hrest : ∀ j, j ≠ i → (s.cache.entries j).isLive = true →
          (s.cache.entries j).mipsRegister = r → (s.cache.entries j).modified = false := by
        intro j hji hj hjr
        have hm := hclean j (by rw [hother hji]; exact hj) (by rw [hother hji]; exact hjr)
        rwa [hother hji] at hm
      by_cases hir : (s.cache.entries i).mipsRegister = r
      · subst hir
        cases hm : (s.cache.entries i).modified with
        | false =>
          rw [if_neg (by simp)]
          refine h.stored _ hr0 hr fun j hj hjr => ?_
          rw [h.unique j i hj hlive hjr, hm]
        | true =>
          rw [if_pos ⟨rfl, hr⟩, Function.update_self]
          exact ((h.fits i hlive).value hr).1
      · have hsr : s.cache.sr r = s.last r :=
          h.stored r hr0 hr fun j hj hjr => hrest j (by rintro rfl; exact hir hjr) hj hjr
        split
        · rw [Function.update_of_ne (Ne.symm hir)]
          exact hsr
        · exact hsr
    case opened =>
      intro r k hk
      dsimp only at hk ⊢
      obtain ⟨hr, hkl, hkr, hm, hsign⟩ := h.opened r k hk
      have hki : k ≠ i := by
        rintro rfl
        exact hunheld (hkr ▸ hr)
      rw [hother hki]
      exact ⟨hr, hkl, hkr, hm, hsign⟩

/-- The callers give up writing a register. -/
theorem close (h : s.Coherent) (r : ℕ) :
    Coherent { s with open? := Function.update s.open? r none } where
  unique := h.unique
  idle := h.idle
  fits := h.fits
  held := h.held
  zero := h.zero
  stored := h.stored
  opened := by
    intro k i hk
    dsimp only at hk
    by_cases hkr : k = r
    · rw [hkr, Function.update_self] at hk
      cases hk
    · rw [Function.update_of_ne hkr] at hk
      exact h.opened k i hk

theorem count_eq_zero (h : s.Coherent) {r : ℕ}
    (hr : ∀ j, (s.cache.entries j).isLive = true → (s.cache.entries j).mipsRegister ≠ r) :
    s.locks.count r = 0 := by
  rw [List.count_eq_zero]
  intro hmem
  obtain ⟨j, hj, hjr⟩ := h.held r hmem
  exact hr j hj hjr

/-- With room, an entry is free or unlocked: locked entries hold different locked registers. -/
theorem exists_unlocked (h : s.Coherent) (hroom : s.Room) :
    ∃ i, (s.cache.entries i).isLive = true → (s.cache.entries i).numLocks = 0#32 := by
  by_contra hnone
  have hall : ∀ i, (s.cache.entries i).isLive = true ∧ (s.cache.entries i).numLocks ≠ 0#32 := by
    intro i
    by_contra hi
    exact hnone ⟨i, fun hlive => by_contra fun hne => hi ⟨hlive, hne⟩⟩
  have hinj : Function.Injective fun i => (s.cache.entries i).mipsRegister :=
    fun i j hij => h.unique i j (hall i).1 (hall j).1 hij
  have hsub : Finset.univ.image (fun i => (s.cache.entries i).mipsRegister) ⊆
      s.locks.toFinset := by
    intro r hr
    obtain ⟨i, -, rfl⟩ := Finset.mem_image.1 hr
    rw [List.mem_toFinset, ← List.count_pos_iff, ← (h.fits i (hall i).1).count]
    have hne := (hall i).2
    rw [← BitVec.toNat_ne_iff_ne] at hne
    exact Nat.pos_of_ne_zero hne
  have hcard := Finset.card_le_card hsub
  rw [Finset.card_image_of_injective _ hinj, Finset.card_univ, Fintype.card_fin,
    List.card_toFinset] at hcard
  exact absurd hroom (Nat.not_lt.2 hcard)

/-- With room the search finds the entry of the register, or one to take. -/
theorem found (h : s.Coherent) (hroom : s.Room) (r : ℕ) :
    ∃ i, s.cache.findRegister r = some i ∧
      (((s.cache.entries i).isLive = true ∧ (s.cache.entries i).mipsRegister = r) ∨
        ((∀ j, (s.cache.entries j).isLive = true → (s.cache.entries j).mipsRegister ≠ r) ∧
          (s.cache.entries i).numLocks = 0#32)) := by
  obtain ⟨k, hk⟩ := h.exists_unlocked hroom
  obtain ⟨i, hi⟩ := Option.isSome_iff_exists.1 (RegisterCache.findRegister_isSome (r := r) hk)
  refine ⟨i, hi, ?_⟩
  rcases RegisterCache.of_findRegister hi with hhit | ⟨hfree, hidle | hlocks⟩
  · exact .inl hhit
  · exact .inr ⟨hfree, h.idle i hidle⟩
  · exact .inr ⟨hfree, hlocks⟩

/-- Behind the flush of an entry that nobody has locked, a register without an entry is in `sr`. -/
theorem flushEntry_sr (h : s.Coherent) {i : Fin n} (hi : (s.cache.entries i).numLocks = 0#32)
    {r : ℕ} (hr0 : r ≠ 0) (hr : r ≤ condBranchTaken)
    (hfree : ∀ j, ((s.cache.flushEntry i).entries j).isLive = true →
      ((s.cache.flushEntry i).entries j).mipsRegister ≠ r) :
    (s.cache.flushEntry i).sr r = s.last r :=
  (h.flushEntry i hi).stored r hr0 hr fun j hj hjr => absurd hjr (hfree j hj)

/-- An entry is set and locked once more for its register. -/
theorem take (h : s.Coherent) {i : Fin n} {t : BitVec 32} {e : CacheEntry} {v : BitVec 64}
    {last : ℕ → BitVec 32} {open? : ℕ → Option (Fin n)}
    (hlive : e.isLive = true)
    (hown : (s.cache.entries i).isLive = true → (s.cache.entries i).mipsRegister = e.mipsRegister)
    (hfree : ∀ j, j ≠ i → (s.cache.entries j).isLive = true →
      (s.cache.entries j).mipsRegister ≠ e.mipsRegister)
    (hcount : e.numLocks.toNat = s.locks.count e.mipsRegister)
    (hfew : s.locks.count e.mipsRegister + 1 < 2 ^ 32)
    (hvalue : e.mipsRegister ≤ condBranchTaken → e.sign.Holds v (last e.mipsRegister))
    (hclean : e.mipsRegister = 0 → e.modified = false ∧ v = 0#64)
    (hlast : ∀ r, r ≠ e.mipsRegister → last r = s.last r)
    (hopen : ∀ r, r ≠ e.mipsRegister → open? r = s.open? r)
    (hzero : last 0 = 0#32)
    (hstored : e.mipsRegister ≠ 0 → e.mipsRegister ≤ condBranchTaken → e.modified = false →
      s.cache.sr e.mipsRegister = last e.mipsRegister)
    (hopened : ∀ k, open? e.mipsRegister = some k →
      k = i ∧ e.modified = true ∧ e.sign = .unknown) :
    Coherent ⟨(s.cache.assign t i e v).lock i, last, e.mipsRegister :: s.locks, open?⟩ := by
  rw [RegisterCache.assign_lock]
  refine h.assign
    (e := { e with timestamp := t + 1#32, numLocks := e.numLocks + 1#32 }) hlive hown hfree
    ⟨?_, hvalue, hclean⟩ hlast ?_ hopen hzero hstored ?_
  · dsimp only
    rw [BitVec.toNat_add, hcount, List.count_cons_self]
    exact Nat.mod_eq_of_lt hfew
  · intro r hr
    exact List.count_cons_of_ne (Ne.symm hr)
  · intro k hk
    obtain ⟨hki, hm, hsign⟩ := hopened k hk
    exact ⟨hki, List.mem_cons_self, hm, hsign⟩

end CacheSession.Coherent

-- ════════════════════
-- The calls
-- ════════════════════

theorem setWidth_signExtend_word (x : BitVec 32) : (x.signExtend 64).setWidth 32 = x := by
  refine BitVec.eq_of_getLsbD_eq fun j hj => ?_
  rw [BitVec.getLsbD_setWidth, BitVec.getLsbD_signExtend, if_pos hj]
  simp [hj, Nat.lt_of_lt_of_le hj (by decide : 32 ≤ 64)]

/-- A load extends a live register as it returns it. -/
theorem RegisterCache.Extension.extended_spec (how : RegisterCache.Extension) {sign : SignState}
    {v : BitVec 64} {x : BitVec 32} {r : ℕ} (hv : sign.Holds v x) (hr : r = 0 → v = 0#64) :
    (how.keptSign sign).Holds (how.extended sign r v) x ∧
      CacheSession.Returned how (how.extended sign r v) x := by
  obtain ⟨rfl, hsign⟩ := hv
  cases how with
  | noext => exact ⟨⟨rfl, hsign⟩, rfl⟩
  | sext =>
    have hext : RegisterCache.Extension.extended .sext sign r v =
        (v.setWidth 32).signExtend 64 := by
      unfold RegisterCache.Extension.extended
      dsimp only
      split
      next => rfl
      next hn =>
        by_cases hr0 : r = 0
        · rw [hr hr0]
          decide
        · have hs : sign = .sExt := by_contra fun hs => hn ⟨hs, hr0⟩
          subst hs
          exact hsign
    have hlow : ((v.setWidth 32).signExtend 64).setWidth 32 = v.setWidth 32 :=
      setWidth_signExtend_word _
    rw [hext]
    exact ⟨⟨hlow, rfl⟩, hlow, rfl⟩
  | zext =>
    have hext : RegisterCache.Extension.extended .zext sign r v = (v.setWidth 32).setWidth 64 := by
      unfold RegisterCache.Extension.extended
      dsimp only
      split
      next => rfl
      next hn =>
        by_cases hr0 : r = 0
        · rw [hr hr0]
          decide
        · have hs : sign = .zExt := by_contra fun hs => hn ⟨hs, hr0⟩
          subst hs
          exact hsign
    have hlow : ((v.setWidth 32).setWidth 64).setWidth 32 = v.setWidth 32 :=
      BitVec.setWidth_setWidth_of_le _ (by decide)
    rw [hext]
    exact ⟨⟨hlow, rfl⟩, hlow, rfl⟩

/-- What a load takes from `sr` is the value there, extended as it returns it. -/
theorem RegisterCache.Extension.fetched_spec (how : RegisterCache.Extension) {sr : ℕ → BitVec 32}
    {r : ℕ} {x : BitVec 32} (hr : r ≠ 0 → sr r = x) (hzero : r = 0 → x = 0#32) :
    how.sign.Holds (how.fetched sr r) x ∧ CacheSession.Returned how (how.fetched sr r) x := by
  have hread : ∀ widen : BitVec 32 → BitVec 64, widen 0#32 = 0#64 →
      (if r ≠ 0 then widen (sr r) else 0#64) = widen x := by
    intro widen hwiden
    by_cases hr0 : r = 0
    · rw [if_neg (not_not.2 hr0), hzero hr0, hwiden]
    · rw [if_pos hr0, hr hr0]
  have hzext : (x.setWidth 64).setWidth 32 = x := by
    rw [BitVec.setWidth_setWidth_of_le _ (by decide), BitVec.setWidth_eq]
  cases how with
  | noext =>
    have hfetched : RegisterCache.Extension.fetched .noext sr r = x.signExtend 64 :=
      hread (fun y => y.signExtend 64) (by decide)
    rw [hfetched]
    exact ⟨⟨setWidth_signExtend_word x, rfl⟩, setWidth_signExtend_word x⟩
  | sext =>
    have hfetched : RegisterCache.Extension.fetched .sext sr r = x.signExtend 64 :=
      hread (fun y => y.signExtend 64) (by decide)
    rw [hfetched]
    exact ⟨⟨setWidth_signExtend_word x, rfl⟩, setWidth_signExtend_word x, rfl⟩
  | zext =>
    have hfetched : RegisterCache.Extension.fetched .zext sr r = x.setWidth 64 :=
      hread (fun y => y.setWidth 64) (by decide)
    rw [hfetched]
    exact ⟨⟨hzext, rfl⟩, hzext, rfl⟩

namespace CacheSession

variable {n rNum : ℕ} {s : CacheSession n}

/-- An entry that keeps its register if it has one leaves all live entries theirs. -/
theorem live_assign {c : RegisterCache n} {i : Fin n} {t : BitVec 32} {e : CacheEntry}
    {v : BitVec 64} (hlive : e.isLive = true)
    (hown : (c.entries i).isLive = true → (c.entries i).mipsRegister = e.mipsRegister)
    (j : Fin n) (hj : (c.entries j).isLive = true) :
    ((c.assign t i e v).entries j).isLive = true ∧
      ((c.assign t i e v).entries j).mipsRegister = (c.entries j).mipsRegister := by
  by_cases hji : j = i
  · subst hji
    rw [RegisterCache.assign_self]
    exact ⟨hlive, (hown hj).symm⟩
  · rw [RegisterCache.assign_of_ne hji]
    exact ⟨hj, rfl⟩

theorem kept_take {c : RegisterCache n} {i : Fin n} {t : BitVec 32} {e : CacheEntry}
    {v : BitVec 64} (hlive : e.isLive = true)
    (hown : (c.entries i).isLive = true → (c.entries i).mipsRegister = e.mipsRegister) :
    Kept c ((c.assign t i e v).lock i) := by
  intro j hj _
  rw [RegisterCache.assign_lock]
  exact live_assign (e := { e with timestamp := t + 1#32, numLocks := e.numLocks + 1#32 }) hlive
    hown j hj

theorem kept_flushEntry {c : RegisterCache n} {i : Fin n} (hi : (c.entries i).numLocks = 0#32) :
    Kept c (c.flushEntry i) := by
  intro j hj hlocks
  have hji : j ≠ i := by
    rintro rfl
    exact hlocks hi
  rw [RegisterCache.flushEntry_of_ne hji]
  exact ⟨hj, rfl⟩

theorem Kept.trans {c c' c'' : RegisterCache n} (h : Kept c c')
    (hlocks : ∀ i, (c.entries i).isLive = true → (c.entries i).numLocks ≠ 0#32 →
      (c'.entries i).numLocks ≠ 0#32) (h' : Kept c' c'') : Kept c c'' := by
  intro i hi hne
  obtain ⟨hlive, hreg⟩ := h i hi hne
  obtain ⟨hlive', hreg'⟩ := h' i hlive (hlocks i hi hne)
  exact ⟨hlive', hreg'.trans hreg⟩

/-- The same when the entry taken is emptied first. -/
theorem kept_flush_take {c : RegisterCache n} {i : Fin n} {t : BitVec 32} {e : CacheEntry}
    {v : BitVec 64} (hi : (c.entries i).numLocks = 0#32) (hlive : e.isLive = true) :
    Kept c (((c.flushEntry i).assign t i e v).lock i) := by
  refine (kept_flushEntry hi).trans ?_ (kept_take hlive fun hempty => ?_)
  · intro j _ hlocks
    have hji : j ≠ i := by
      rintro rfl
      exact hlocks hi
    rwa [RegisterCache.flushEntry_of_ne hji]
  · rw [RegisterCache.flushEntry_self] at hempty
    cases hempty

theorem lock_host (c : RegisterCache n) (t : BitVec 32) (i : Fin n) (e : CacheEntry)
    (v : BitVec 64) : ((c.assign t i e v).lock i).host i = v := by
  rw [RegisterCache.assign_lock]
  exact Function.update_self ..

/-- **A load** returns the value last written. -/
theorem Coherent.load (h : s.Coherent) (how : RegisterCache.Extension) {r : ℕ}
    (hr : r ≤ condBranchTaken) (hroom : s.Room) (hfew : s.locks.count r + 1 < 2 ^ 32) :
    ∃ cache i, s.cache.loadMipsRegister how r = some (cache, i) ∧
      Returned how (cache.host i) (s.last r) ∧ Kept s.cache cache ∧
      Coherent { s with
        cache, locks := r :: s.locks, open? := Function.update s.open? r none } := by
  have hclosed := h.close r
  have hnone : ∀ k, Function.update s.open? r none r ≠ some k := by
    intro k hk
    rw [Function.update_self] at hk
    cases hk
  obtain ⟨i, hi, ⟨hlive, rfl⟩ | ⟨hfree, hlocks⟩⟩ := h.found hroom r
  · have hfits := h.fits i hlive
    obtain ⟨hholds, hreturned⟩ :=
      how.extended_spec (hfits.value hr) fun hr0 => (hfits.clean hr0).2
    refine ⟨_, i, RegisterCache.loadMipsRegister_hit how hi hlive rfl, ?_, ?_, ?_⟩
    · rw [RegisterCache.extend_eq, lock_host]
      exact hreturned
    · rw [RegisterCache.extend_eq]
      exact kept_take hlive fun _ => rfl
    · rw [RegisterCache.extend_eq]
      refine hclosed.take (e := { s.cache.entries i with
          sign := how.keptSign (s.cache.entries i).sign }) hlive (fun _ => rfl) ?_ hfits.count
        hfew (fun _ => hholds) ?_ (fun _ _ => rfl) (fun _ _ => rfl) h.zero ?_
        (fun k hk => absurd hk (hnone k))
      · intro j hji hj hjr
        exact hji (h.unique j i hj hlive hjr)
      · intro hr0
        have hext : how.extended (s.cache.entries i).sign (s.cache.entries i).mipsRegister
            (s.cache.host i) = s.cache.host i := by
          cases how <;> simp [RegisterCache.Extension.extended, show
            (s.cache.entries i).mipsRegister = 0 from hr0]
        rw [hext]
        exact hfits.clean hr0
      · intro hr0 _ hm
        refine h.stored _ hr0 hr fun j hj hjr => ?_
        rw [h.unique j i hj hlive hjr]
        exact hm
  · have hempty : ∀ j, ((s.cache.flushEntry i).entries j).isLive = true →
        ((s.cache.flushEntry i).entries j).mipsRegister ≠ r := by
      intro j hj
      obtain ⟨hji, hjl⟩ := RegisterCache.flushEntry_live hj
      rw [RegisterCache.flushEntry_of_ne hji]
      exact hfree j hjl
    have hsr : r ≠ 0 → (s.cache.flushEntry i).sr r = s.last r :=
      fun hr0 => h.flushEntry_sr hlocks hr0 hr hempty
    obtain ⟨hholds, hreturned⟩ := how.fetched_spec hsr fun hr0 => hr0 ▸ h.zero
    refine ⟨_, i, RegisterCache.loadMipsRegister_miss how hi (fun hl => hfree i hl) hlocks,
      ?_, kept_flush_take hlocks rfl, ?_⟩
    · rw [lock_host]
      exact hreturned
    · refine (hclosed.flushEntry i hlocks).take (e := ⟨r, 0#32, 0#32, how.sign, true, false⟩) rfl
        (fun hl => absurd hl (by rw [RegisterCache.flushEntry_self]; decide))
        (fun j _ hj => hempty j hj) (h.count_eq_zero hfree).symm hfew (fun _ => hholds) ?_
        (fun _ _ => rfl) (fun _ _ => rfl) h.zero (fun hr0 _ _ => hsr hr0)
        (fun k hk => absurd hk (hnone k))
      intro hr0
      exact ⟨rfl, by rw [show r = 0 from hr0]; rfl⟩

/-- `modify_mips_register` hands the register over with what its host register holds. -/
theorem Coherent.modify (h : s.Coherent) {r : ℕ} (hr0 : r ≠ 0) (hroom : s.Room)
    (hfew : s.locks.count r + 1 < 2 ^ 32) :
    ∃ cache i, s.cache.modifyMipsRegister r = some (cache, i) ∧ Kept s.cache cache ∧
      Coherent ⟨cache, Function.update s.last r ((cache.host i).setWidth 32), r :: s.locks,
        Function.update s.open? r (some i)⟩ := by
  have hopened : ∀ {i k : Fin n}, Function.update s.open? r (some i) r = some k → k = i := by
    intro i k hk
    rw [Function.update_self, Option.some.injEq] at hk
    exact hk.symm
  have hself : ∀ x, x = Function.update s.last r x r := fun x => by rw [Function.update_self]
  have hzero : ∀ x, Function.update s.last r x 0 = 0#32 := by
    intro x
    rw [Function.update_of_ne (Ne.symm hr0)]
    exact h.zero
  obtain ⟨i, hi, ⟨hlive, rfl⟩ | ⟨hfree, hlocks⟩⟩ := h.found hroom r
  · refine ⟨_, i, RegisterCache.modifyMipsRegister_hit hi hlive rfl,
      kept_take hlive fun _ => rfl, ?_⟩
    rw [lock_host]
    refine h.take (e := { s.cache.entries i with sign := .unknown, modified := true }) hlive
      (fun _ => rfl) ?_ (h.fits i hlive).count hfew
      (fun _ => ⟨hself _, trivial⟩) (fun hz => absurd hz hr0)
      (fun k hk => Function.update_of_ne hk ..) (fun k hk => Function.update_of_ne hk ..)
      (hzero _) (fun _ _ hm => by cases hm) (fun k hk => ⟨hopened hk, rfl, rfl⟩)
    intro j hji hj hjr
    exact hji (h.unique j i hj hlive hjr)
  · refine ⟨_, i, RegisterCache.modifyMipsRegister_miss hi (fun hl => hfree i hl) hlocks,
      kept_flush_take hlocks rfl, ?_⟩
    rw [lock_host]
    refine (h.flushEntry i hlocks).take (e := ⟨r, 0#32, 0#32, .unknown, true, true⟩) rfl
      (fun hl => absurd hl (by rw [RegisterCache.flushEntry_self]; decide)) ?_
      (h.count_eq_zero hfree).symm hfew (fun _ => ⟨hself _, trivial⟩)
      (fun hz => absurd hz hr0) (fun k hk => Function.update_of_ne hk ..)
      (fun k hk => Function.update_of_ne hk ..) (hzero _) (fun _ _ hm => by cases hm)
      (fun k hk => ⟨hopened hk, rfl, rfl⟩)
    intro j _ hj
    obtain ⟨hji, hjl⟩ := RegisterCache.flushEntry_live hj
    rw [RegisterCache.flushEntry_of_ne hji]
    exact hfree j hjl

/-- An immediate is a `modify` and the value in place of what the host register holds. -/
theorem Coherent.immediate (h : s.Coherent) {r : ℕ} {value : BitVec 64} (hr0 : r ≠ 0)
    (hroom : s.Room) (hfew : s.locks.count r + 1 < 2 ^ 32)
    (hvalue : value = (value.setWidth 32).signExtend 64) :
    ∃ cache i, s.cache.immediateMipsRegister r value = some (cache, i) ∧ Kept s.cache cache ∧
      Coherent ⟨cache, Function.update s.last r (value.setWidth 32), r :: s.locks,
        Function.update s.open? r none⟩ := by
  obtain ⟨cache, i, hmodify, hkept, hcoherent⟩ := h.modify hr0 hroom hfew
  obtain ⟨-, hlive, hreg, hm, -⟩ :=
    hcoherent.opened r i (by dsimp only; exact Function.update_self ..)
  dsimp only at hlive hreg hm
  have hassign : (cache.movi i value).setEntry i { cache.entries i with sign := .sExt } =
      cache.assign cache.timestamp i { cache.entries i with sign := .sExt } value := rfl
  refine ⟨_, i, by rw [RegisterCache.immediateMipsRegister, hmodify]; rfl, ?_, ?_⟩
  · intro j hj hlocks
    obtain ⟨hj', hjr⟩ := hkept j hj hlocks
    rw [hassign]
    obtain ⟨hj'', hjr'⟩ := live_assign (t := cache.timestamp) (v := value)
      (e := { cache.entries i with sign := .sExt }) hlive (fun _ => rfl) j hj'
    exact ⟨hj'', hjr'.trans hjr⟩
  · subst hreg
    rw [hassign]
    have hfits := hcoherent.fits i hlive
    refine hcoherent.assign (e := { cache.entries i with sign := .sExt }) hlive (fun _ => rfl) ?_
      ⟨hfits.count, fun _ => ⟨?_, ?_⟩, fun hz => absurd hz hr0⟩ ?_
      (fun _ _ => rfl) ?_ ?_ (fun _ _ hmod => ?_) (fun k hk => ?_)
    · intro j hji hj hjr
      exact hji (hcoherent.unique j i hj hlive hjr)
    · dsimp only
      rw [Function.update_self]
    · dsimp only
      rw [Function.update_self]
      exact hvalue
    · intro k hk
      dsimp only
      rw [Function.update_of_ne hk, Function.update_of_ne hk]
    · intro k hk
      dsimp only
      rw [Function.update_of_ne hk, Function.update_of_ne hk]
    · rw [Function.update_of_ne (Ne.symm hr0)]
      exact h.zero
    · rw [show (cache.entries i).modified = false from hmod] at hm
      cases hm
    · dsimp only at hk
      rw [Function.update_self] at hk
      cases hk

/-- The host register that `modify` gave is written. -/
theorem Coherent.write (h : s.Coherent) {r : ℕ} {i : Fin n} (hi : s.open? r = some i)
    (value : BitVec 64) :
    Coherent { s with
      cache := s.cache.setHost i value
      last := Function.update s.last r (value.setWidth 32) } := by
  obtain ⟨hheld, hlive, rfl, hm, hsign⟩ := h.opened r i hi
  have hfits := h.fits i hlive
  have hr0 : (s.cache.entries i).mipsRegister ≠ 0 := by
    intro hz
    rw [(hfits.clean hz).1] at hm
    cases hm
  have hassign : s.cache.setHost i value =
      s.cache.assign s.cache.timestamp i (s.cache.entries i) value := by
    simp [RegisterCache.setHost, RegisterCache.assign]
  rw [hassign]
  refine h.assign hlive (fun _ => rfl) ?_ ⟨hfits.count, fun _ => ?_, fun hz => absurd hz hr0⟩
    (fun k hk => Function.update_of_ne hk ..) (fun _ _ => rfl) (fun _ _ => rfl) ?_
    (fun _ _ hmod => ?_) (fun k hk => ?_)
  · intro j hji hj hjr
    exact hji (h.unique j i hj hlive hjr)
  · rw [hsign, Function.update_self]
    exact ⟨rfl, trivial⟩
  · rw [Function.update_of_ne (Ne.symm hr0)]
    exact h.zero
  · rw [hmod] at hm
    cases hm
  · rw [hi, Option.some.injEq] at hk
    exact ⟨hk.symm, hheld, hm, hsign⟩

/-- A search for a locked register finds its entry. -/
theorem Coherent.findLive (h : s.Coherent) {r : ℕ} {i : Fin n}
    (hlive : (s.cache.entries i).isLive = true) (hr : (s.cache.entries i).mipsRegister = r) :
    s.cache.findLiveMipsRegister r = some i := by
  cases hfind : s.cache.findLiveMipsRegister r with
  | none => exact absurd hr (RegisterCache.of_findLive_none hfind i hlive)
  | some k =>
    obtain ⟨hk, hkr⟩ := RegisterCache.of_findLive hfind
    rw [h.unique k i hk hlive (hkr.trans hr.symm)]

theorem Coherent.unlock (h : s.Coherent) {r : ℕ} (hr : r ∈ s.locks) :
    Kept s.cache (s.cache.unlockMipsRegister r) ∧
      Coherent { s with
        cache := s.cache.unlockMipsRegister r
        locks := s.locks.erase r
        open? := Function.update s.open? r none } := by
  obtain ⟨i, hlive, rfl⟩ := h.held r hr
  have hfits := h.fits i hlive
  have hassign : s.cache.unlockMipsRegister (s.cache.entries i).mipsRegister =
      s.cache.assign s.cache.timestamp i
        { s.cache.entries i with numLocks := (s.cache.entries i).numLocks - 1#32 }
        (s.cache.host i) := by
    rw [RegisterCache.unlockMipsRegister, h.findLive hlive rfl]
    simp [RegisterCache.setEntry, RegisterCache.assign]
  rw [hassign]
  constructor
  · intro j hj _
    exact live_assign
      (e := { s.cache.entries i with numLocks := (s.cache.entries i).numLocks - 1#32 }) hlive
      (fun _ => rfl) j hj
  · refine h.assign
      (e := { s.cache.entries i with numLocks := (s.cache.entries i).numLocks - 1#32 }) hlive
      (fun _ => rfl) ?_ ⟨?_, hfits.value, hfits.clean⟩ (fun _ _ => rfl) ?_
      (fun k hk => Function.update_of_ne hk ..) h.zero (fun hr0 hr32 hm => ?_) (fun k hk => ?_)
    · intro j hji hj hjr
      exact hji (h.unique j i hj hlive hjr)
    · have hpos := List.count_pos_iff.2 hr
      have hcount := hfits.count
      dsimp only
      rw [List.count_erase_self, BitVec.toNat_sub_of_le, hcount]
      · rfl
      · rw [BitVec.le_def, hcount]
        exact hpos
    · intro k hk
      exact List.count_erase_of_ne hk
    · refine h.stored _ hr0 hr32 fun j hj hjr => ?_
      rw [h.unique j i hj hlive hjr]
      exact hm
    · dsimp only at hk
      rw [Function.update_self] at hk
      cases hk

/-- The flushes of a list of entries that nobody has locked. -/
theorem Coherent.flushEntries (h : s.Coherent) (l : List (Fin n))
    (hl : ∀ i ∈ l, (s.cache.entries i).numLocks = 0#32) :
    Kept s.cache (l.foldl RegisterCache.flushEntry s.cache) ∧
      Coherent { s with cache := l.foldl RegisterCache.flushEntry s.cache } ∧
      ∀ i, ((l.foldl RegisterCache.flushEntry s.cache).entries i).isLive = true →
        i ∉ l ∧ (s.cache.entries i).isLive = true := by
  induction l generalizing s with
  | nil => exact ⟨fun i hi _ => ⟨hi, rfl⟩, h, fun i hi => ⟨List.not_mem_nil, hi⟩⟩
  | cons k l ih =>
    have hk := hl k List.mem_cons_self
    have hlocks : ∀ i, i ≠ k →
        ((s.cache.flushEntry k).entries i).numLocks = (s.cache.entries i).numLocks := by
      intro i hik
      rw [RegisterCache.flushEntry_of_ne hik]
    have hnext := h.flushEntry k hk
    have hrest : ∀ i ∈ l, ((s.cache.flushEntry k).entries i).numLocks = 0#32 := by
      intro i hi
      by_cases hik : i = k
      · exact hnext.idle i (by rw [hik]; exact RegisterCache.flushEntry_self)
      · rw [hlocks i hik]
        exact hl i (List.mem_cons_of_mem k hi)
    obtain ⟨hkept, hcoherent, hidle⟩ := ih hnext hrest
    refine ⟨(kept_flushEntry hk).trans ?_ hkept, hcoherent, ?_⟩
    · intro i _ hi
      rwa [hlocks i (by rintro rfl; exact hi hk)]
    · intro i hi
      obtain ⟨hil, hlive⟩ := hidle i hi
      obtain ⟨hik, hlive'⟩ := RegisterCache.flushEntry_live hlive
      exact ⟨fun hmem => (List.mem_cons.1 hmem).elim hik hil, hlive'⟩

/-- `flush_register_window` leaves the values in `sr`. -/
theorem Coherent.flushWindow (h : s.Coherent) (hlocks : s.locks = []) :
    Kept s.cache s.cache.flushRegisterWindow ∧
      Coherent { s with cache := s.cache.flushRegisterWindow } ∧
      ∀ r, r ≠ 0 → r ≤ condBranchTaken → s.cache.flushRegisterWindow.sr r = s.last r := by
  have hunlocked : ∀ i ∈ List.finRange n, (s.cache.entries i).numLocks = 0#32 := by
    intro i _
    cases hlive : (s.cache.entries i).isLive with
    | false => exact h.idle i hlive
    | true =>
      have hcount := (h.fits i hlive).count
      rw [hlocks, List.count_nil] at hcount
      exact BitVec.eq_of_toNat_eq hcount
  obtain ⟨hkept, hcoherent, hidle⟩ := h.flushEntries _ hunlocked
  refine ⟨hkept, ⟨hcoherent.unique, hcoherent.idle, hcoherent.fits, hcoherent.held, hcoherent.zero,
    hcoherent.stored, hcoherent.opened⟩, fun r hr0 hr => ?_⟩
  exact hcoherent.stored r hr0 hr fun i hi => absurd (List.mem_finRange i) (hidle i hi).1

theorem Coherent.flushMips (h : s.Coherent) {r : ℕ} (hr : r ∉ s.locks) :
    Kept s.cache (s.cache.flushMipsRegister r) ∧
      Coherent { s with cache := s.cache.flushMipsRegister r } := by
  unfold RegisterCache.flushMipsRegister
  cases hfind : s.cache.findLiveMipsRegister r with
  | none => exact ⟨fun i hi _ => ⟨hi, rfl⟩, h⟩
  | some i =>
    obtain ⟨hlive, rfl⟩ := RegisterCache.of_findLive hfind
    have hcount := (h.fits i hlive).count
    rw [List.count_eq_zero.2 hr] at hcount
    have hi : (s.cache.entries i).numLocks = 0#32 := BitVec.eq_of_toNat_eq hcount
    exact ⟨kept_flushEntry hi, h.flushEntry i hi⟩

/-- **A call** of the sequences is sound, and keeps the cache coherent. -/
theorem Coherent.step (h : s.Coherent) {call : CacheCall} (hbalanced : s.Balanced rNum call)
    (hpromised : s.Promised call) :
    s.Sound rNum call ∧ (s.step rNum call).Coherent := by
  cases call with
  | load how r =>
    obtain ⟨cache, i, hload, hreturned, hkept, hcoherent⟩ :=
      h.load how hbalanced.1 hbalanced.2 hpromised
    rw [Sound, CacheSession.step, hload]
    exact ⟨⟨hkept, cache, i, rfl, hreturned⟩, hcoherent⟩
  | modify r =>
    obtain ⟨cache, i, hmodify, hkept, hcoherent⟩ := h.modify hbalanced.1 hbalanced.2 hpromised
    rw [Sound, CacheSession.step, hmodify]
    exact ⟨⟨hkept, rfl⟩, hcoherent⟩
  | write r value =>
    obtain ⟨i, hi⟩ := Option.isSome_iff_exists.1 hbalanced
    have hstep : s.step rNum (.write r value) = { s with
        cache := s.cache.setHost i value
        last := Function.update s.last r (value.setWidth 32) } := by
      rw [CacheSession.step, hi]
    refine ⟨⟨?_, trivial⟩, ?_⟩ <;> rw [hstep]
    · exact fun i hi _ => ⟨hi, rfl⟩
    · exact h.write hi value
  | immediate r value =>
    obtain ⟨cache, i, himmediate, hkept, hcoherent⟩ :=
      h.immediate hbalanced.1 hbalanced.2 hpromised.1 hpromised.2
    rw [Sound, CacheSession.step, himmediate]
    exact ⟨⟨hkept, rfl⟩, hcoherent⟩
  | unlock r =>
    obtain ⟨hkept, hcoherent⟩ := h.unlock hbalanced
    exact ⟨⟨hkept, trivial⟩, hcoherent⟩
  | flushMips r =>
    obtain ⟨hkept, hcoherent⟩ := h.flushMips hbalanced
    exact ⟨⟨hkept, trivial⟩, hcoherent⟩
  | flushCallerSave =>
    obtain ⟨hkept, hcoherent, -⟩ := h.flushEntries ((List.finRange n).filter (·.val < rNum)) (by
      intro i hi
      exact hbalanced i (by simpa using hi))
    exact ⟨⟨hkept, trivial⟩, hcoherent⟩
  | flushWindow =>
    obtain ⟨hkept, hcoherent, hsr⟩ := h.flushWindow hbalanced
    exact ⟨⟨hkept, hsr⟩, hcoherent⟩

theorem coherent_start (timestamp : BitVec 32) (host : Fin n → BitVec 64) (sr : ℕ → BitVec 32) :
    (start timestamp host sr).Coherent where
  unique := fun _ _ hi => by cases hi
  idle := fun _ _ => rfl
  fits := fun _ hi => by cases hi
  held := fun _ hr => by cases hr
  zero := by simp [start]
  stored := fun _ hr0 _ _ => (Function.update_of_ne hr0 ..).symm
  opened := fun _ _ hi => by cases hi

/-- **The register cache**: in every sequence of calls with balanced locks that leaves room, and
    whose immediates are 32-bit values extended by sign, no register has two live entries, no
    locked entry is taken, loads return the values last written as they promise, and a flush of
    the window leaves them in `sr`. -/
theorem registerCache_sound (timestamp : BitVec 32) (host : Fin n → BitVec 64) (sr : ℕ → BitVec 32)
    (calls : List CacheCall)
    (hbalanced : Runs.Along (step rNum) (Balanced rNum) (start timestamp host sr) calls)
    (hpromised : Runs.Along (step rNum) Promised (start timestamp host sr) calls) :
    (∀ s ∈ Runs.visited (step rNum) (start timestamp host sr) calls, OneEntry s.cache) ∧
      Runs.Along (step rNum) (Sound rNum) (start timestamp host sr) calls := by
  have hrun := (Runs.along_and _ _).2 ⟨hbalanced, hpromised⟩
  have hstart := coherent_start timestamp host sr
  have hstep : ∀ (s : CacheSession n) call, s.Coherent →
      s.Balanced rNum call ∧ s.Promised call → (s.step rNum call).Coherent :=
    fun s call h hc => (h.step hc.1 hc.2).2
  constructor
  · intro s hs
    exact (Runs.invariant_visited hstep hstart hrun s hs).unique
  · exact Runs.along_of_along hstep (fun s call h hc => (h.step hc.1 hc.2).1) hstart hrun

/-- One entry for two registers: the first is written, evicted by the second and loaded again. -/
def twoRegisters : List CacheCall :=
  [.modify 1, .write 1 0xffffffff#64, .unlock 1, .load .sext 2, .unlock 2, .load .sext 1, .unlock 1,
    .flushWindow]

theorem twoRegisters_sound :
    (∀ s ∈ Runs.visited (step 1)
        (start 0#32 (fun _ : Fin 1 => 0x1234#64) fun r => BitVec.ofNat 32 r) twoRegisters,
      OneEntry s.cache) ∧
      Runs.Along (step 1) (Sound 1)
        (start 0#32 (fun _ : Fin 1 => 0x1234#64) fun r => BitVec.ofNat 32 r) twoRegisters :=
  registerCache_sound 0#32 (fun _ => 0x1234#64) (fun r => BitVec.ofNat 32 r) twoRegisters
    (by decide)
    (by decide)

/-- An immediate that is not extended by sign is still marked as if it were. -/
theorem immediate_not_extended :
    ¬∀ calls : List CacheCall,
      Runs.Along (step 3) (Balanced 3) (start 0#32 (fun _ : Fin 5 => 0#64) fun _ => 0#32) calls →
      Runs.Along (step 3) (Sound 3) (start 0#32 (fun _ : Fin 5 => 0#64) fun _ => 0#32) calls := by
  intro h
  obtain ⟨-, -, ⟨-, cache, i, hload, -, hext⟩, -⟩ :=
    h [.immediate 1 0x80000000#64, .unlock 1, .load .sext 1] (by decide)
  have hvalue : ((((start 0#32 (fun _ : Fin 5 => 0#64) fun _ => 0#32).step 3
      (.immediate 1 0x80000000#64)).step 3 (.unlock 1)).cache.loadMipsRegister .sext 1).map
        (fun p => p.1.host p.2) = some 0x80000000#64 := by decide
  rw [hload, Option.map_some, Option.some.injEq] at hvalue
  dsimp only at hvalue
  rw [hvalue] at hext
  revert hext
  decide

end CacheSession

end Mupen64plus
