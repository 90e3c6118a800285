import Mupen64plus.R4300.RamAccess

/-!
# Pairs of unaligned accesses

A left and a right access, at the first and at the last byte of a unit, take it to or from any
address. The address of a byte is virtual: the two parts of a unit may lie in pages that are mapped
to different places.

## Main definitions

- `UnalignedPair`, with `wordPair` and `dwordPair` — the four instructions of a unit
- `PairLaw`

## Main results

- `UnalignedPair.law_of_accesses` — the law from what each of the four does
- `unalignedPairs`
-/

namespace Mupen64plus

open BigEndian Machine
open Flags (and_field)

variable {M : Type}

/-- The instructions on a unit of `size` bytes. -/
structure UnalignedPair (M : Type) where
  size : ℕ
  size_cases : size = 4 ∨ size = 8
  loadLeft : BitVec 32 → Machine M → Machine M
  loadRight : BitVec 32 → Machine M → Machine M
  storeLeft : BitVec 32 → Machine M → Machine M
  storeRight : BitVec 32 → Machine M → Machine M

def wordPair (o : OtherRegions M) : UnalignedPair M := ⟨4, .inl rfl, lwl o, lwr o, swl o, swr o⟩

def dwordPair (o : OtherRegions M) : UnalignedPair M := ⟨8, .inr rfl, ldl o, ldr o, sdl o, sdr o⟩

/-- The bytes of a unit at any address lie in RDRAM, at `p`. -/
def Machine.InRam (m : Machine M) (w : Access) (a : BitVec 32) (size : ℕ) (p : ℕ → ℕ) : Prop :=
  ∀ i < size, m.ramByte w (a + BitVec.ofNat 32 i) = some (p i)

/-- The unit that a store takes from a register. -/
def registerUnit (size : ℕ) (v : BitVec 64) : BitVec (8 * size) := v.setWidth (8 * size)

/-- The big-endian unit at `p`. -/
def unitAt (dram : Words) (size : ℕ) (p : ℕ → ℕ) : BitVec (8 * size) :=
  ofBytes (8 * size) (fun i => dram.byte (p i)) size

namespace UnalignedPair

variable (P : UnalignedPair M)

/-- The left store, and then the right one. -/
def store (l r : BitVec 32) (m : Machine M) : Machine M := P.storeRight r (P.storeLeft l m)

/-- The left load, and then the right one. -/
def load (l r : BitVec 32) (m : Machine M) : Machine M := P.loadRight r (P.loadLeft l m)

/-- The right load, and then the left one. -/
def loadReversed (l r : BitVec 32) (m : Machine M) : Machine M := P.loadLeft l (P.loadRight r m)

/-- The address of the last byte of a unit. -/
def lastByte (a : BitVec 32) : BitVec 32 := a + BitVec.ofNat 32 (P.size - 1)

end UnalignedPair

/-- What a pair of accesses at any address is for. -/
structure PairLaw (P : UnalignedPair M) : Prop where
  /-- The stores write the bytes of the register, and no other byte. -/
  stores : ∀ (m : Machine M) (l r a : BitVec 32) (p : ℕ → ℕ), rtReg l = rtReg r →
    m.lsaddr l = a → (P.storeLeft l m).lsaddr r = P.lastByte a → m.InRam .write a P.size p →
      (∀ i < P.size, (P.store l r m).dram.byte (p i) =
        beByte (registerUnit P.size (m.core.regs (rtReg l))) i) ∧
      (∀ q, (∀ i < P.size, q ≠ p i) → (P.store l r m).dram.byte q = m.dram.byte q) ∧
      (P.store l r m).outside = m.outside
  /-- The loads take the unit, whatever the register held. -/
  loads : ∀ (m : Machine M) (l r a : BitVec 32) (p : ℕ → ℕ), rtReg l = rtReg r →
    m.lsaddr l = a → (P.loadLeft l m).lsaddr r = P.lastByte a → m.InRam .read a P.size p →
      (P.load l r m).core.regs (rtReg l) = (unitAt m.dram P.size p).signExtend 64
  /-- In the other order too. -/
  loadsReversed : ∀ (m : Machine M) (l r a : BitVec 32) (p : ℕ → ℕ), rtReg l = rtReg r →
    m.lsaddr r = P.lastByte a → (P.loadRight r m).lsaddr l = a → m.InRam .read a P.size p →
      (P.loadReversed l r m).core.regs (rtReg l) = (unitAt m.dram P.size p).signExtend 64
  /-- A unit that was stored is loaded again. -/
  roundTrip : ∀ (m : Machine M) (l r l' r' a : BitVec 32) (p : ℕ → ℕ), rtReg l = rtReg r →
    rtReg l' = rtReg r' → m.lsaddr l = a → (P.storeLeft l m).lsaddr r = P.lastByte a →
    (P.store l r m).lsaddr l' = a →
    (P.loadLeft l' (P.store l r m)).lsaddr r' = P.lastByte a →
    m.InRam .write a P.size p → m.InRam .read a P.size p →
      (P.load l' r' (P.store l r m)).core.regs (rtReg l') =
        (registerUnit P.size (m.core.regs (rtReg l))).signExtend 64

-- ════════════════════
-- Where the bytes lie
-- ════════════════════

/-- The bytes of a unit that lies in two aligned units, each in one page: the first part ends its
    unit, and the last part starts its own. -/
structure TwoParts (size : ℕ) (p : ℕ → ℕ) : Prop where
  left : ∀ i, p 0 % size + i < size → p i = p 0 + i
  right : ∀ i < size, size ≤ p 0 % size + i → p i + (size - 1 - i) = p (size - 1)
  last : p (size - 1) % size = (p 0 % size + (size - 1)) % size
  apart : 0 < p 0 % size → p 0 / size ≠ p (size - 1) / size

/-- The rest of an aligned unit lies in its page. -/
theorem unit_page {size x d : ℕ} (hsize : size = 4 ∨ size = 8) (hin : x % size + d < size)
    (hx : x < 2 ^ 32) :
    x + d < 2 ^ 32 ∧ (x + d) / 0x1000 = x / 0x1000 ∧ (x + d) % 0x1000 = x % 0x1000 + d := by
  rcases hsize with rfl | rfl <;> omega

theorem Machine.InRam.twoParts {m : Machine M} {w : Access} {a : BitVec 32} {size : ℕ} {p : ℕ → ℕ}
    (hsize : size = 4 ∨ size = 8) (h : m.InRam w a size p) : TwoParts size p := by
  have hdvd : size ∣ 0x1000 := by rcases hsize with rfl | rfl <;> decide
  have haddr : ∀ i < size, (a + BitVec.ofNat 32 i).toNat = (a.toNat + i) % 2 ^ 32 := by
    intro i hi
    rw [BitVec.toNat_add, BitVec.toNat_ofNat, Nat.mod_eq_of_lt (show i < 2 ^ 32 by omega)]
  have hplace : ∀ i < size, p i % 0x1000 = (a.toNat + i) % 0x1000 := by
    intro i hi
    rw [(ramByte_page (h i hi)).1, haddr i hi, Nat.mod_mod_of_dvd _ (by decide)]
  have hmod : ∀ i < size, p i % size = (a.toNat + i) % size := by
    intro i hi
    rw [← Nat.mod_mod_of_dvd _ hdvd, hplace i hi, Nat.mod_mod_of_dvd _ hdvd]
  -- two bytes of one aligned unit are as far apart in RDRAM as their addresses
  have hunit : ∀ i < size, ∀ j < size, ∀ d, (a.toNat + i) % size + d < size →
      a.toNat + j = a.toNat + i + d → p j = p i + d := by
    intro i hi j hj d hin hj'
    have hbig : 0x1000 ∣ 2 ^ 32 := by decide
    have hdvd' : size ∣ 2 ^ 32 := hdvd.trans hbig
    obtain ⟨hlt, hpage, hoffset⟩ := unit_page (x := (a.toNat + i) % 2 ^ 32) hsize
      (by rwa [Nat.mod_mod_of_dvd _ hdvd']) (Nat.mod_lt _ (Nat.two_pow_pos 32))
    have hsame : p j / 0x1000 = p i / 0x1000 := by
      refine (ramByte_page (h i hi)).2.2 _ _ ?_ (h j hj)
      rw [haddr i hi, haddr j hj, hj', ← Nat.mod_add_mod, Nat.mod_eq_of_lt hlt, hpage]
    have hi' := hplace i hi
    have hj'' := hplace j hj
    rw [hj', ← Nat.mod_mod_of_dvd (a.toNat + i + d) hbig, ← Nat.mod_add_mod,
      Nat.mod_eq_of_lt hlt, hoffset, Nat.mod_mod_of_dvd _ hbig] at hj''
    omega
  refine ⟨fun i hi => ?_, fun i hi hi' => ?_, ?_, fun hpos heq => ?_⟩
  · rw [hmod 0 (by omega), Nat.add_zero] at hi
    exact hunit 0 (by omega) i (by omega) i hi rfl
  · rw [hmod 0 (by omega), Nat.add_zero] at hi'
    refine (hunit i hi (size - 1) (by omega) (size - 1 - i) ?_ (by omega)).symm
    rcases hsize with rfl | rfl <;> omega
  · rw [hmod 0 (by omega), hmod (size - 1) (by omega), Nat.mod_add_mod, Nat.add_zero]
  · -- in one unit the last byte would lie just before the first
    have hfirst := hplace 0 (by omega)
    have hlast := hplace (size - 1) (by omega)
    have hfirst' := hmod 0 (by omega)
    have hlast' := hmod (size - 1) (by omega)
    rcases hsize with rfl | rfl <;> omega

section

variable {size : ℕ} {p : ℕ → ℕ}

theorem unit_split {x d : ℕ} (hin : x % size + d < size) :
    (x + d) / size = x / size ∧ (x + d) % size = x % size + d := by
  have hsplit : x + d = x % size + d + size * (x / size) := by
    rw [Nat.add_right_comm, Nat.mod_add_div]
  constructor
  · rw [hsplit, Nat.add_mul_div_left _ _ (by omega), Nat.div_eq_of_lt hin, Nat.zero_add]
  · rw [hsplit, Nat.add_mul_mod_self_left, Nat.mod_eq_of_lt hin]

theorem TwoParts.left_split (hp : TwoParts size p) {i : ℕ} (hin : p 0 % size + i < size) :
    p i / size = p 0 / size ∧ p i % size = p 0 % size + i := by
  rw [hp.left i hin]
  exact unit_split hin

/-- The last byte ends the unit of the first, or lies as far into its own as the first lies behind
    the start. -/
theorem TwoParts.last_mod (hp : TwoParts size p) (hpos : 0 < size) :
    p 0 % size = 0 ∧ p (size - 1) % size = size - 1 ∨ p (size - 1) % size + 1 = p 0 % size := by
  have hlt := Nat.mod_lt (p 0) hpos
  rw [hp.last]
  rcases Nat.eq_zero_or_pos (p 0 % size) with hzero | hne
  · rw [hzero, Nat.zero_add]
    exact .inl ⟨rfl, Nat.mod_eq_of_lt (by omega)⟩
  · rw [show p 0 % size + (size - 1) = p 0 % size - 1 + size by omega, Nat.add_mod_right,
      Nat.mod_eq_of_lt (show p 0 % size - 1 < size by omega)]
    exact .inr (by omega)

theorem TwoParts.right_split (hp : TwoParts size p) {i : ℕ} (hi : i < size)
    (hin : size ≤ p 0 % size + i) : p i / size = p (size - 1) / size ∧
      p i % size + (size - 1 - i) = p (size - 1) % size := by
  have hlast := hp.last_mod (by omega)
  have hright := hp.right i hi hin
  have hdiv := Nat.div_add_mod (p (size - 1)) size
  have hlt := Nat.mod_lt (p (size - 1)) (show 0 < size by omega)
  have hsplit : p i = p (size - 1) % size - (size - 1 - i) + size * (p (size - 1) / size) := by
    omega
  have hmod : p i % size = p (size - 1) % size - (size - 1 - i) := by
    rw [hsplit, Nat.add_mul_mod_self_left, Nat.mod_eq_of_lt (by omega)]
  constructor
  · rw [hsplit, Nat.add_mul_div_left _ _ (by omega), Nat.div_eq_of_lt (by omega), Nat.zero_add]
  · omega

end

-- ════════════════════
-- The law from the four accesses
-- ════════════════════

/-- What each of the four instructions does to RDRAM. -/
structure UnitAccesses (P : UnalignedPair M) : Prop where
  loadLeft : ∀ (m : Machine M) (i : BitVec 32) (q : ℕ), m.ramByte .read (m.lsaddr i) = some q →
    ∃ unit : BitVec (8 * P.size), HoldsUnit m.dram P.size q unit ∧
      P.loadLeft i m = m.addToPc.setGpr (rtReg i)
        ((leftLoaded (q % P.size) (registerUnit P.size (m.core.regs (rtReg i))) unit).signExtend 64)
  loadRight : ∀ (m : Machine M) (i : BitVec 32) (q : ℕ), m.ramByte .read (m.lsaddr i) = some q →
    ∃ unit : BitVec (8 * P.size), HoldsUnit m.dram P.size q unit ∧
      P.loadRight i m = m.addToPc.setGpr (rtReg i)
        ((rightLoaded (q % P.size) (registerUnit P.size (m.core.regs (rtReg i)))
          unit).signExtend 64)
  storeLeft : ∀ (m : Machine M) (i : BitVec 32) (q : ℕ), m.ramByte .write (m.lsaddr i) = some q →
    ∃ ci dram, P.storeLeft i m = { m.addToPc.withCache ci with dram := dram } ∧
      ∀ b, dram.byte b = if b / P.size = q / P.size ∧ q % P.size ≤ b % P.size then
        beByte (registerUnit P.size (m.core.regs (rtReg i))) (b % P.size - q % P.size)
      else m.dram.byte b
  storeRight : ∀ (m : Machine M) (i : BitVec 32) (q : ℕ), m.ramByte .write (m.lsaddr i) = some q →
    ∃ ci dram, P.storeRight i m = { m.addToPc.withCache ci with dram := dram } ∧
      ∀ b, dram.byte b = if b / P.size = q / P.size ∧ b % P.size ≤ q % P.size then
        beByte (registerUnit P.size (m.core.regs (rtReg i)))
          (b % P.size + (P.size - 1 - q % P.size))
      else m.dram.byte b

/-- A register that was loaded has the unit in it. -/
theorem registerUnit_signExtend {size : ℕ} (hsize : size = 4 ∨ size = 8) (x : BitVec (8 * size)) :
    registerUnit size (x.signExtend 64) = x := by
  apply BitVec.eq_of_getLsbD_eq
  intro t ht
  rw [registerUnit, BitVec.getLsbD_setWidth, BitVec.getLsbD_signExtend, decide_eq_true ht,
    Bool.true_and, if_pos ht, decide_eq_true (by omega), Bool.true_and]

/-- **Loads** The two parts in either order make up the unit. -/
theorem parts_loaded {size : ℕ} (hsize : size = 4 ∨ size = 8) {p : ℕ → ℕ} (hp : TwoParts size p)
    {dram : Words} {first last : BitVec (8 * size)} (hfirst : HoldsUnit dram size (p 0) first)
    (hlast : HoldsUnit dram size (p (size - 1)) last) (old : BitVec (8 * size)) :
    rightLoaded (p (size - 1) % size) (leftLoaded (p 0 % size) old first) last =
      unitAt dram size p ∧
    leftLoaded (p 0 % size) (rightLoaded (p (size - 1) % size) old last) first =
      unitAt dram size p := by
  have hpos : 0 < size := by omega
  have hmod := hp.last
  have hn := Nat.mod_lt (p 0) hpos
  have hn' := Nat.mod_lt (p (size - 1)) hpos
  have hleft : ∀ i, i + p 0 % size < size → beByte first (i + p 0 % size) = dram.byte (p i) := by
    intro i hi
    have hsplit := Nat.div_add_mod' (p 0) size
    have hplace := hp.left i (by omega)
    rw [hfirst _ hi]
    congr 1
    omega
  have hright : ∀ i < size, size ≤ i + p (size - 1) % size + 1 →
      beByte last (i + p (size - 1) % size + 1 - size) = dram.byte (p i) := by
    intro i hi hin
    have hsplit := Nat.div_add_mod' (p (size - 1)) size
    have hplace : p i + (size - 1 - i) = p (size - 1) := by
      rcases Nat.eq_zero_or_pos (p 0 % size) with hzero | hne
      · -- one unit, which ends where it started
        have hi' := hp.left i (by omega)
        have hend := hp.left (size - 1) (by omega)
        omega
      · refine hp.right i hi ?_
        rcases hsize with rfl | rfl <;> omega
    rw [hlast _ (by omega)]
    congr 1
    omega
  have hcover : ∀ i < size, ¬size ≤ i + p (size - 1) % size + 1 → i + p 0 % size < size := by
    intro i hi hout
    rcases hsize with rfl | rfl <;> omega
  constructor
  · refine eq_of_beByte rfl fun i hi => ?_
    rw [unitAt, beByte_ofBytes rfl _ hi, beByte_rightLoaded rfl hn' hi, beByte_leftLoaded rfl hn hi]
    split
    next hin => exact hright i hi hin
    next hout => rw [if_pos (hcover i hi hout), hleft i (hcover i hi hout)]
  · refine eq_of_beByte rfl fun i hi => ?_
    rw [unitAt, beByte_ofBytes rfl _ hi, beByte_leftLoaded rfl hn hi, beByte_rightLoaded rfl hn' hi]
    split
    next hin => exact hleft i hin
    next hout =>
      have hin : size ≤ i + p (size - 1) % size + 1 := by
        by_contra h
        exact hout (hcover i hi h)
      rw [if_pos hin, hright i hi hin]

/-- **Stores** The two parts write the bytes of the unit, and no other byte. -/
theorem parts_stored {size : ℕ} (hsize : size = 4 ∨ size = 8) {p : ℕ → ℕ} (hp : TwoParts size p)
    {dram dram₁ dram₂ : Words} {unit : BitVec (8 * size)}
    (hfirst : ∀ b, dram₁.byte b = if b / size = p 0 / size ∧ p 0 % size ≤ b % size then
      beByte unit (b % size - p 0 % size) else dram.byte b)
    (hlast : ∀ b, dram₂.byte b =
      if b / size = p (size - 1) / size ∧ b % size ≤ p (size - 1) % size then
        beByte unit (b % size + (size - 1 - p (size - 1) % size)) else dram₁.byte b) :
    (∀ i < size, dram₂.byte (p i) = beByte unit i) ∧
      ∀ q, (∀ i < size, q ≠ p i) → dram₂.byte q = dram.byte q := by
  have hpos : 0 < size := by omega
  have hmod := hp.last_mod hpos
  have hlt := Nat.mod_lt (p (size - 1)) hpos
  constructor
  · intro i hi
    rw [hlast]
    by_cases hin : p 0 % size + i < size
    · obtain ⟨hunit, hplace⟩ := hp.left_split hin
      split
      next hsecond =>
        -- one unit: the right part writes all of it again
        have hzero : p 0 % size = 0 := by
          by_contra hne
          exact hp.apart (Nat.pos_of_ne_zero hne) (hunit.symm.trans hsecond.1)
        congr 1
        omega
      next =>
        rw [hfirst, if_pos ⟨hunit, by omega⟩]
        congr 1
        omega
    · obtain ⟨hunit, hplace⟩ := hp.right_split hi (by omega)
      rw [if_pos ⟨hunit, by omega⟩]
      congr 1
      omega
  · intro q hq
    have hsplit := Nat.div_add_mod q size
    have hlt' := Nat.mod_lt q hpos
    rw [hlast, if_neg, hfirst, if_neg]
    · rintro ⟨hunit, hle⟩
      have hin : p 0 % size + (q % size - p 0 % size) < size := by omega
      have hsplit' := Nat.div_add_mod (p 0) size
      refine hq (q % size - p 0 % size) (by omega) ?_
      rw [hp.left _ hin]
      rw [hunit] at hsplit
      omega
    · rintro ⟨hunit, hle⟩
      have hsplit' := Nat.div_add_mod (p (size - 1)) size
      rw [hunit] at hsplit
      refine hq (size - 1 - (p (size - 1) % size - q % size)) (by omega) ?_
      rcases Nat.eq_zero_or_pos (p 0 % size) with hzero | hne
      · have hi' := hp.left (size - 1 - (p (size - 1) % size - q % size)) (by omega)
        have hend := hp.left (size - 1) (by omega)
        omega
      · have hi' := hp.right (size - 1 - (p (size - 1) % size - q % size)) (by omega) (by omega)
        omega

theorem Machine.InRam.first {m : Machine M} {w : Access} {a : BitVec 32} {size : ℕ} {p : ℕ → ℕ}
    (hpos : 0 < size) (h : m.InRam w a size p) : m.ramByte w a = some (p 0) := by
  have hzero := h 0 hpos
  rwa [show a + BitVec.ofNat 32 0 = a from BitVec.add_zero a] at hzero

namespace UnalignedPair

variable {P : UnalignedPair M}

theorem size_pos (P : UnalignedPair M) : 0 < P.size := by
  have hsize := P.size_cases
  omega

/-- What a pair of stores leaves. -/
theorem store_spec (h : UnitAccesses P) {m : Machine M} {l r a : BitVec 32} {p : ℕ → ℕ}
    (hrt : rtReg l = rtReg r) (hl : m.lsaddr l = a) (hr : (P.storeLeft l m).lsaddr r = P.lastByte a)
    (hram : m.InRam .write a P.size p) :
    (∀ i < P.size, (P.store l r m).dram.byte (p i) =
      beByte (registerUnit P.size (m.core.regs (rtReg l))) i) ∧
    (∀ q, (∀ i < P.size, q ≠ p i) → (P.store l r m).dram.byte q = m.dram.byte q) ∧
    (P.store l r m).outside = m.outside ∧ (P.store l r m).ramByte = m.ramByte := by
  have hpos := P.size_pos
  have hfirst : m.ramByte .write (m.lsaddr l) = some (p 0) := hl ▸ hram.first hpos
  obtain ⟨ci, dram₁, heq, hbytes⟩ := h.storeLeft m l _ hfirst
  have hlast : (P.storeLeft l m).ramByte .write ((P.storeLeft l m).lsaddr r) =
      some (p (P.size - 1)) := by
    rw [hr, heq]
    exact hram (P.size - 1) (by omega)
  obtain ⟨ci', dram₂, heq', hbytes'⟩ := h.storeRight _ r _ hlast
  have hregs : (P.storeLeft l m).core.regs (rtReg r) = m.core.regs (rtReg l) := by
    rw [heq, hrt]
    rfl
  have hdram : (P.storeLeft l m).dram = dram₁ := by rw [heq]
  rw [hregs, hdram] at hbytes'
  obtain ⟨hwritten, hother⟩ := parts_stored P.size_cases (hram.twoParts P.size_cases) hbytes hbytes'
  rw [store, heq']
  refine ⟨hwritten, hother, ?_, ?_⟩
  · rw [heq]
    rfl
  · rw [heq]
    rfl

theorem load_spec (h : UnitAccesses P) {m : Machine M} {l r a : BitVec 32} {p : ℕ → ℕ}
    (hrt : rtReg l = rtReg r) (hl : m.lsaddr l = a) (hr : (P.loadLeft l m).lsaddr r = P.lastByte a)
    (hram : m.InRam .read a P.size p) :
    (P.load l r m).core.regs (rtReg l) = (unitAt m.dram P.size p).signExtend 64 := by
  have hpos := P.size_pos
  have hfirst : m.ramByte .read (m.lsaddr l) = some (p 0) := hl ▸ hram.first hpos
  obtain ⟨first, hunit, heq⟩ := h.loadLeft m l _ hfirst
  have hlast : (P.loadLeft l m).ramByte .read ((P.loadLeft l m).lsaddr r) =
      some (p (P.size - 1)) := by
    rw [hr, heq]
    exact hram (P.size - 1) (by omega)
  obtain ⟨last, hunit', heq'⟩ := h.loadRight _ r _ hlast
  have hdram : (P.loadLeft l m).dram = m.dram := by
    rw [heq]
    rfl
  have hreg : (P.loadLeft l m).core.regs (rtReg r) =
      (leftLoaded (p 0 % P.size) (registerUnit P.size (m.core.regs (rtReg l)))
        first).signExtend 64 := by
    rw [heq, ← hrt]
    exact Function.update_self _ _ _
  rw [hdram] at hunit'
  rw [hreg, registerUnit_signExtend P.size_cases, (parts_loaded P.size_cases
    (hram.twoParts P.size_cases) hunit hunit' _).1] at heq'
  rw [load, heq', hrt]
  exact Function.update_self _ _ _

theorem loadReversed_spec (h : UnitAccesses P) {m : Machine M} {l r a : BitVec 32}
    {p : ℕ → ℕ} (hrt : rtReg l = rtReg r) (hr : m.lsaddr r = P.lastByte a)
    (hl : (P.loadRight r m).lsaddr l = a) (hram : m.InRam .read a P.size p) :
    (P.loadReversed l r m).core.regs (rtReg l) = (unitAt m.dram P.size p).signExtend 64 := by
  have hpos := P.size_pos
  have hlast : m.ramByte .read (m.lsaddr r) = some (p (P.size - 1)) := by
    rw [hr]
    exact hram (P.size - 1) (by omega)
  obtain ⟨last, hunit', heq'⟩ := h.loadRight m r _ hlast
  have hfirst : (P.loadRight r m).ramByte .read ((P.loadRight r m).lsaddr l) = some (p 0) := by
    rw [hl, heq']
    exact hram.first hpos
  obtain ⟨first, hunit, heq⟩ := h.loadLeft _ l _ hfirst
  have hdram : (P.loadRight r m).dram = m.dram := by
    rw [heq']
    rfl
  have hreg : (P.loadRight r m).core.regs (rtReg l) = (rightLoaded (p (P.size - 1) % P.size)
      (registerUnit P.size (m.core.regs (rtReg r))) last).signExtend 64 := by
    rw [heq', hrt]
    exact Function.update_self _ _ _
  rw [hdram] at hunit
  rw [hreg, registerUnit_signExtend P.size_cases, (parts_loaded P.size_cases
    (hram.twoParts P.size_cases) hunit hunit' _).2] at heq
  rw [loadReversed, heq]
  exact Function.update_self _ _ _

theorem law_of_accesses (h : UnitAccesses P) : PairLaw P := by
  refine ⟨fun m l r a p hrt hl hr hram => ?_, fun m l r a p hrt hl hr hram => ?_,
    fun m l r a p hrt hr hl hram => ?_,
    fun m l r l' r' a p hrt hrt' hl hr hl' hr' hwrite hread => ?_⟩
  · obtain ⟨hwritten, hother, houtside, -⟩ := store_spec h hrt hl hr hram
    exact ⟨hwritten, hother, houtside⟩
  · exact load_spec h hrt hl hr hram
  · exact loadReversed_spec h hrt hr hl hram
  · obtain ⟨hwritten, -, -, hsame⟩ := store_spec h hrt hl hr hwrite
    have hread' : (P.store l r m).InRam .read a P.size p := by
      intro i hi
      rw [hsame]
      exact hread i hi
    rw [load_spec h hrt' hl' hr' hread']
    congr 1
    refine eq_of_beByte rfl fun i hi => ?_
    rw [unitAt, beByte_ofBytes rfl _ hi, hwritten i hi]

end UnalignedPair

-- ════════════════════
-- The eight instructions
-- ════════════════════

/-- The byte of a unit where an access starts, in the address and in RDRAM. -/
theorem byteOf_eq {m : Machine M} {w : Access} {a : BitVec 32} {q : ℕ}
    (h : m.ramByte w a = some q) : byteOfWord a = q % 4 ∧ byteOfDword a = q % 8 := by
  have hpage := (ramByte_page h).1
  have hword : byteOfWord a = a.toNat % 4 :=
    Flags.toNat_and_low 2 rfl
  have hdword : byteOfDword a = a.toNat % 8 :=
    Flags.toNat_and_low 3 rfl
  omega

theorem roundDown_toNat (a : BitVec 32) : (a &&& ~~~3).toNat = a.toNat / 4 * 4 ∧
    (a &&& ~~~7).toNat = a.toNat / 8 * 8 := by
  have hlt := a.isLt
  constructor
  · refine ((BitVec.toNat_and _ _).trans (and_field _ 2 30)).trans ?_
    omega
  · refine ((BitVec.toNat_and _ _).trans (and_field _ 3 29)).trans ?_
    omega

/-- The bytes that a part of a word leaves. -/
theorem byte_storedWord (dram : Words) (q : ℕ) (v : BitVec 32) (b : ℕ) :
    (dram.write (q / 4) (v >>> (8 * (q % 4))) (leftMask 32 (q % 4))).byte b =
      (if b / 4 = q / 4 ∧ q % 4 ≤ b % 4 then beByte v (b % 4 - q % 4) else dram.byte b) ∧
    (dram.write (q / 4) (v <<< (8 * (3 - q % 4))) (rightMask 32 (q % 4))).byte b =
      if b / 4 = q / 4 ∧ b % 4 ≤ q % 4 then beByte v (b % 4 + (3 - q % 4)) else dram.byte b := by
  have hn : q % 4 < 4 := Nat.mod_lt _ (by decide)
  have hi : b % 4 < 4 := Nat.mod_lt _ (by decide)
  rw [byte_write, byte_write]
  by_cases hunit : b / 4 = q / 4
  · have hword := beByte_word dram b
    rw [hunit] at hword
    simp only [hunit, true_and, if_true]
    exact ⟨hword ▸ beByte_leftStored (show 32 = 8 * 4 from rfl) hn hi _ _,
      hword ▸ beByte_rightStored (show 32 = 8 * 4 from rfl) hn hi _ _⟩
  · simp only [hunit, false_and, if_false, and_self]

theorem byte_storedDword (dram : Words) (q : ℕ) (v : BitVec 64) (b : ℕ) :
    (dram.writeDword (q / 8 * 8 / 4) (v >>> (8 * (q % 8))) (leftMask 64 (q % 8))).byte b =
      (if b / 8 = q / 8 ∧ q % 8 ≤ b % 8 then beByte v (b % 8 - q % 8) else dram.byte b) ∧
    (dram.writeDword (q / 8 * 8 / 4) (v <<< (8 * (7 - q % 8))) (rightMask 64 (q % 8))).byte b =
      if b / 8 = q / 8 ∧ b % 8 ≤ q % 8 then beByte v (b % 8 + (7 - q % 8)) else dram.byte b := by
  have hn : q % 8 < 8 := Nat.mod_lt _ (by decide)
  have hi : b % 8 < 8 := Nat.mod_lt _ (by decide)
  rw [byte_writeDword, byte_writeDword]
  by_cases hunit : b / 8 = q / 8
  · have hdword : beByte (dword (dram (q / 8 * 8 / 4)) (dram (q / 8 * 8 / 4 + 1))) (b % 8) =
        dram.byte b := by
      rw [holdsUnit_dword dram _ hi, ← hunit, Nat.div_add_mod']
    simp only [hunit, true_and, if_true]
    exact ⟨hdword ▸ beByte_leftStored (show 64 = 8 * 8 from rfl) hn hi _ _,
      hdword ▸ beByte_rightStored (show 64 = 8 * 8 from rfl) hn hi _ _⟩
  · simp only [hunit, false_and, if_false, and_self]

theorem wordPair_accesses (o : OtherRegions M) : UnitAccesses (wordPair o) := by
  refine ⟨fun m i q h => ?_, fun m i q h => ?_, fun m i q h => ?_, fun m i q h => ?_⟩
  · refine ⟨m.dram (q / 4), holdsUnit_word _ _, ?_⟩
    show lwl o i m = _
    rw [lwl, loadWord, readAlignedWord_ram o (m := m.addToPc) h, (byteOf_eq h).1]
    rfl
  · refine ⟨m.dram (q / 4), holdsUnit_word _ _, ?_⟩
    show lwr o i m = _
    rw [lwr, loadWord, readAlignedWord_ram o (m := m.addToPc) h, (byteOf_eq h).1]
    rfl
  · obtain ⟨ci, hwrite⟩ := writeAlignedWord_ram o (m := m.addToPc)
      (m.core.gpr32 (rtReg i) >>> (8 * (q % 4))) (leftMask 32 (q % 4))
      (ramByte_align (.inl rfl) h (roundDown_toNat _).1)
    rw [show q / 4 * 4 / 4 = q / 4 by omega] at hwrite
    refine ⟨ci, m.dram.write (q / 4) (m.core.gpr32 (rtReg i) >>> (8 * (q % 4)))
      (leftMask 32 (q % 4)), ?_, fun b => (byte_storedWord _ _ _ _).1⟩
    show swl o i m = _
    rw [swl, (byteOf_eq h).1]
    exact hwrite
  · obtain ⟨ci, hwrite⟩ := writeAlignedWord_ram o (m := m.addToPc)
      (m.core.gpr32 (rtReg i) <<< (8 * (3 - q % 4))) (rightMask 32 (q % 4))
      (ramByte_align (.inl rfl) h (roundDown_toNat _).1)
    rw [show q / 4 * 4 / 4 = q / 4 by omega] at hwrite
    refine ⟨ci, m.dram.write (q / 4) (m.core.gpr32 (rtReg i) <<< (8 * (3 - q % 4)))
      (rightMask 32 (q % 4)), ?_, fun b => (byte_storedWord _ _ _ _).2⟩
    show swr o i m = _
    rw [swr, (byteOf_eq h).1]
    exact hwrite

theorem dwordPair_accesses (o : OtherRegions M) : UnitAccesses (dwordPair o) := by
  have hunit : ∀ (m : Machine M) (q : ℕ), HoldsUnit m.dram 8 q
      (dword (m.dram (q / 8 * 8 / 4)) (m.dram (q / 8 * 8 / 4 + 1))) := fun m q => holdsUnit_dword _
  have haligned : ∀ a : BitVec 32, (a &&& ~~~7).toNat % 8 = 0 := by
    intro a
    rw [(roundDown_toNat a).2, Nat.mul_mod_left]
  have hvalue : ∀ v : BitVec 64, registerUnit 8 v = v := fun v => BitVec.setWidth_eq v
  have hextend : ∀ v : BitVec 64, v.signExtend 64 = v := fun v => BitVec.signExtend_eq v
  refine ⟨fun m i q h => ?_, fun m i q h => ?_, fun m i q h => ?_, fun m i q h => ?_⟩
  · refine ⟨_, hunit m q, ?_⟩
    show ldl o i m = _
    rw [ldl, readAlignedDword_ram o (m := m.addToPc)
      (ramByte_align (.inr rfl) h (roundDown_toNat _).2) (haligned _), (byteOf_eq h).2]
    refine Eq.trans ?_ (congrArg (m.addToPc.setGpr (rtReg i)) (hextend _).symm)
    exact congrArg (fun v => m.addToPc.setGpr (rtReg i) (leftLoaded (q % 8) v _)) (hvalue _).symm
  · refine ⟨_, hunit m q, ?_⟩
    show ldr o i m = _
    rw [ldr, readAlignedDword_ram o (m := m.addToPc)
      (ramByte_align (.inr rfl) h (roundDown_toNat _).2) (haligned _), (byteOf_eq h).2]
    refine Eq.trans ?_ (congrArg (m.addToPc.setGpr (rtReg i)) (hextend _).symm)
    exact congrArg (fun v => m.addToPc.setGpr (rtReg i) (rightLoaded (q % 8) v _)) (hvalue _).symm
  · obtain ⟨ci, hwrite⟩ := writeAlignedDword_ram o (m := m.addToPc)
      (m.core.regs (rtReg i) >>> (8 * (q % 8))) (leftMask 64 (q % 8))
      (ramByte_align (.inr rfl) h (roundDown_toNat _).2) (haligned _)
    refine ⟨ci, m.dram.writeDword (q / 8 * 8 / 4) (m.core.regs (rtReg i) >>> (8 * (q % 8)))
      (leftMask 64 (q % 8)), ?_, fun b => ?_⟩
    · show sdl o i m = _
      rw [sdl, (byteOf_eq h).2]
      exact hwrite
    · show _ = if b / 8 = q / 8 ∧ q % 8 ≤ b % 8 then
        beByte (registerUnit 8 (m.core.regs (rtReg i))) (b % 8 - q % 8) else m.dram.byte b
      rw [hvalue]
      exact (byte_storedDword _ _ _ _).1
  · obtain ⟨ci, hwrite⟩ := writeAlignedDword_ram o (m := m.addToPc)
      (m.core.regs (rtReg i) <<< (8 * (7 - q % 8))) (rightMask 64 (q % 8))
      (ramByte_align (.inr rfl) h (roundDown_toNat _).2) (haligned _)
    refine ⟨ci, m.dram.writeDword (q / 8 * 8 / 4) (m.core.regs (rtReg i) <<< (8 * (7 - q % 8)))
      (rightMask 64 (q % 8)), ?_, fun b => ?_⟩
    · show sdr o i m = _
      rw [sdr, (byteOf_eq h).2]
      exact hwrite
    · show _ = if b / 8 = q / 8 ∧ b % 8 ≤ q % 8 then
        beByte (registerUnit 8 (m.core.regs (rtReg i))) (b % 8 + (7 - q % 8)) else m.dram.byte b
      rw [hvalue]
      exact (byte_storedDword _ _ _ _).2

/-- **Unaligned pairs** Of words and of double words, at every address in RDRAM. -/
theorem unalignedPairs (o : OtherRegions M) : PairLaw (wordPair o) ∧ PairLaw (dwordPair o) :=
  ⟨UnalignedPair.law_of_accesses (wordPair_accesses o),
    UnalignedPair.law_of_accesses (dwordPair_accesses o)⟩

end Mupen64plus
