import Mupen64plus.Hle.Memory

/-!
# Half-words of RDRAM

The plugin stores samples as half-words, at a guest address with bit 1 flipped. Half-words at two
addresses of the same parity are the same or apart.

## Main definitions

- `Bytes.setU16`, `Bytes.storeU16` — a store, and the loop of `store_u16`
- `dramAddress` — the part of an address that `dram_u16` keeps
- `clampS16` — a sample cut to its range

## Main results

- `Bytes.u16_setU16_self`, `Bytes.u16_setU16_other`
- `Bytes.u16_storeU16`, `Bytes.storeU16_other` — what the loop leaves
-/

namespace Mupen64plus

/-- `address & 0xffffff`. -/
def dramAddress (address : BitVec 32) : ℕ := (address &&& 0xffffff#32).toNat

/-- `clamp_s16`. -/
def clampS16 (x : ℤ) : BitVec 16 := BitVec.ofInt 16 (min 32767 (max (-32768) x))

namespace Bytes

/-- `*u16(buffer, address) = v`. -/
def setU16 (m : Bytes) (address : ℕ) (v : BitVec 16) : Bytes := fun b =>
  if b = address ^^^ 2 then v.extractLsb' 0 8
  else if b = (address ^^^ 2) + 1 then v.extractLsb' 8 8
  else m b

/-- `store_u16`. -/
def storeU16 (m : Bytes) (address : ℕ) (src : ℕ → BitVec 16) : ℕ → Bytes
  | 0 => m
  | n + 1 => (m.storeU16 address src n).setU16 (address + 2 * n) (src n)

section

variable {m : Bytes} {a b : ℕ} {v : BitVec 16}

theorem xor_two_mod (a : ℕ) : (a ^^^ 2) % 2 = a % 2 := by
  rw [← Nat.and_one_is_mod, ← Nat.and_one_is_mod, Nat.and_xor_distrib_right]
  exact Nat.xor_zero _

theorem xor_two_inj (h : a ^^^ 2 = b ^^^ 2) : a = b := by
  have hflip := congrArg (· ^^^ 2) h
  simpa [Nat.xor_assoc] using hflip

theorem u16_setU16_self (m : Bytes) (a : ℕ) (v : BitVec 16) : (m.setU16 a v).u16 a = v := by
  have hlow : m.setU16 a v (a ^^^ 2) = v.extractLsb' 0 8 := if_pos rfl
  have hhigh : m.setU16 a v ((a ^^^ 2) + 1) = v.extractLsb' 8 8 := by
    unfold setU16
    rw [if_neg (by omega), if_pos rfl]
  rw [u16, half, hlow, hhigh]
  ext i hi
  rw [BitVec.getElem_append]
  split
  · rw [BitVec.getElem_extractLsb', Nat.zero_add, BitVec.getLsbD_eq_getElem]
  · rw [BitVec.getElem_extractLsb', show 8 + (i - 8) = i by omega, BitVec.getLsbD_eq_getElem]

/-- A half-word apart from the one stored. -/
theorem u16_setU16_other (h : b ≠ a) (hparity : b % 2 = a % 2) :
    (m.setU16 a v).u16 b = m.u16 b := by
  have hne : b ^^^ 2 ≠ a ^^^ 2 := fun heq => h (xor_two_inj heq)
  have ha := xor_two_mod a
  have hb := xor_two_mod b
  have hkeep : ∀ c, c = b ^^^ 2 ∨ c = (b ^^^ 2) + 1 → m.setU16 a v c = m c := by
    intro c hc
    unfold setU16
    rw [if_neg (by omega), if_neg (by omega)]
  rw [u16, half, hkeep _ (.inl rfl), hkeep _ (.inr rfl)]
  rfl

theorem setU16_other {c : ℕ} (hlow : c ≠ a ^^^ 2) (hhigh : c ≠ (a ^^^ 2) + 1) :
    m.setU16 a v c = m c := by
  unfold setU16
  rw [if_neg hlow, if_neg hhigh]

end

section

variable (m : Bytes) (a : ℕ) (src : ℕ → BitVec 16)

theorem u16_storeU16_other {n b : ℕ} (hparity : b % 2 = a % 2) (h : ∀ k < n, b ≠ a + 2 * k) :
    (m.storeU16 a src n).u16 b = m.u16 b := by
  induction n with
  | zero => rfl
  | succ n ih =>
    rw [storeU16, u16_setU16_other (h n (Nat.lt_succ_self n)) (by omega)]
    exact ih fun k hk => h k (by omega)

theorem u16_storeU16 {n k : ℕ} (hk : k < n) : (m.storeU16 a src n).u16 (a + 2 * k) = src k := by
  induction n with
  | zero => exact absurd hk (Nat.not_lt_zero k)
  | succ n ih =>
    rw [storeU16]
    rcases Nat.lt_succ_iff_lt_or_eq.mp hk with hlt | rfl
    · rw [u16_setU16_other (by omega) (by omega), ih hlt]
    · exact u16_setU16_self _ _ _

/-- No other byte is written. -/
theorem storeU16_other {n c : ℕ}
    (h : ∀ k < n, c ≠ (a + 2 * k) ^^^ 2 ∧ c ≠ ((a + 2 * k) ^^^ 2) + 1) :
    m.storeU16 a src n c = m c := by
  induction n with
  | zero => rfl
  | succ n ih =>
    obtain ⟨hlow, hhigh⟩ := h n (Nat.lt_succ_self n)
    rw [storeU16, setU16_other hlow hhigh]
    exact ih fun k hk => h k (by omega)

end

end Bytes

namespace HleMemory

/-- `*dram_u16(hle, address)`. -/
def dramU16 (m : HleMemory) (address : BitVec 32) : BitVec 16 := m.dram.u16 (dramAddress address)

/-- `*dram_u16(hle, address) = v`. -/
def setDramU16 (m : HleMemory) (address : BitVec 32) (v : BitVec 16) : HleMemory :=
  { m with dram := m.dram.setU16 (dramAddress address) v }

end HleMemory

end Mupen64plus
