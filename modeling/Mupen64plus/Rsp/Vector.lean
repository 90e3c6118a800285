import Mathlib.Tactic.Common
import Mathlib.Data.Nat.Notation
import Mupen64plus.Lib.FinLiterals

/-!
# Vectors of the RSP

The vector unit works on eight lanes of 16 bits and keeps a 48-bit accumulator for each, as three
vectors of words. The plugin has two versions of each operation: loops over the lanes, and SSE2
intrinsics on a whole vector.

## Main definitions

- `V16`, `VAcc` — a vector, and the accumulators
- `mm…` — the intrinsics the plugin uses, by their documented meaning
-/

namespace Mupen64plus

/-- The number of lanes. -/
abbrev Lane := Fin 8

abbrev V16 := Lane → BitVec 16

/-- `VACC_H`, `VACC_M` and `VACC_L`. -/
structure VAcc where
  h : V16
  m : V16
  l : V16

/-- A comparison as C gives it, kept in 16 bits. -/
def flag16 (p : Prop) [Decidable p] : BitVec 16 := if p then 1 else 0

theorem flag16_pos {p : Prop} [Decidable p] (h : p) : flag16 p = 1#16 := if_pos h

theorem flag16_neg {p : Prop} [Decidable p] (h : ¬p) : flag16 p = 0#16 := if_neg h

theorem toNat_flag16 (p : Prop) [Decidable p] : (flag16 p).toNat = if p then 1 else 0 := by
  unfold flag16
  split <;> rfl

-- ════════════════════════════════════════════════════════════════════════
-- SSE2
-- ════════════════════════════════════════════════════════════════════════

def mmSetzeroSi128 : V16 := fun _ => 0

def mmAddEpi16 (a b : V16) : V16 := fun i => a i + b i

def mmSubEpi16 (a b : V16) : V16 := fun i => a i - b i

/-- Subtraction with unsigned saturation. -/
def mmSubsEpu16 (a b : V16) : V16 := fun i => if a i < b i then 0 else a i - b i

def mmMulloEpi16 (a b : V16) : V16 := fun i => a i * b i

/-- The upper half of the signed product. -/
def mmMulhiEpi16 (a b : V16) : V16 := fun i =>
  (((a i).signExtend 32 * (b i).signExtend 32) >>> 16).setWidth 16

/-- The upper half of the unsigned product. -/
def mmMulhiEpu16 (a b : V16) : V16 := fun i =>
  (((a i).setWidth 32 * (b i).setWidth 32) >>> 16).setWidth 16

def mmAndSi128 (a b : V16) : V16 := fun i => a i &&& b i

def mmAndnotSi128 (a b : V16) : V16 := fun i => ~~~(a i) &&& b i

def mmOrSi128 (a b : V16) : V16 := fun i => a i ||| b i

def mmXorSi128 (a b : V16) : V16 := fun i => a i ^^^ b i

def mmSlliEpi16 (a : V16) (n : ℕ) : V16 := fun i => a i <<< n

def mmSrliEpi16 (a : V16) (n : ℕ) : V16 := fun i => a i >>> n

def mmSraiEpi16 (a : V16) (n : ℕ) : V16 := fun i => (a i).sshiftRight n

def mmCmpeqEpi16 (a b : V16) : V16 := fun i => if a i = b i then 0xffff else 0

def mmCmpgtEpi16 (a b : V16) : V16 := fun i => if (b i).slt (a i) then 0xffff else 0

/-- The lower four lanes of two vectors, in turn. -/
def mmUnpackloEpi16 (a b : V16) : V16 := fun i =>
  if i.val % 2 = 0 then a ⟨i.val / 2, by omega⟩ else b ⟨i.val / 2, by omega⟩

/-- The upper four lanes of two vectors, in turn. -/
def mmUnpackhiEpi16 (a b : V16) : V16 := fun i =>
  if i.val % 2 = 0 then a ⟨4 + i.val / 2, by omega⟩ else b ⟨4 + i.val / 2, by omega⟩

/-- A signed 32-bit value saturated to 16 bits. -/
def saturate16 (x : BitVec 32) : BitVec 16 :=
  if x.toInt < -32768 then 0x8000 else if 32767 < x.toInt then 0x7fff else x.setWidth 16

/-- The four 32-bit values of each vector, saturated. -/
def mmPacksEpi32 (a b : V16) : V16 := fun i =>
  if h : i.val < 4 then
    saturate16 (a ⟨2 * i.val + 1, by omega⟩ ++ a ⟨2 * i.val, by omega⟩)
  else saturate16 (b ⟨2 * (i.val - 4) + 1, by omega⟩ ++ b ⟨2 * (i.val - 4), by omega⟩)

/-- Packing what was unpacked saturates each lane. -/
theorem mmPacks_unpack (m h : V16) (i : Lane) :
    mmPacksEpi32 (mmUnpackloEpi16 m h) (mmUnpackhiEpi16 m h) i = saturate16 (h i ++ m i) := by
  unfold mmPacksEpi32
  split
  next hi =>
    have hlane : ∀ p, (⟨(2 * i.val + 1) / 2, p⟩ : Lane) = i := fun _ => Fin.ext (by
      show (2 * i.val + 1) / 2 = i.val
      omega)
    have hlane' : ∀ p, (⟨2 * i.val / 2, p⟩ : Lane) = i := fun _ => Fin.ext (by
      show 2 * i.val / 2 = i.val
      omega)
    simp only [mmUnpackloEpi16]
    rw [if_neg (by omega), if_pos (by omega), hlane, hlane']
  next hi =>
    have hlane : ∀ p, (⟨4 + (2 * (i.val - 4) + 1) / 2, p⟩ : Lane) = i := fun _ => Fin.ext (by
      show 4 + (2 * (i.val - 4) + 1) / 2 = i.val
      omega)
    have hlane' : ∀ p, (⟨4 + 2 * (i.val - 4) / 2, p⟩ : Lane) = i := fun _ => Fin.ext (by
      show 4 + 2 * (i.val - 4) / 2 = i.val
      omega)
    simp only [mmUnpackhiEpi16]
    rw [if_neg (by omega), if_pos (by omega), hlane, hlane']

end Mupen64plus
