import Mupen64plus.Lib.WordProducts
import Mupen64plus.Rsp.Multiply

/-!
# The clamps of the multiplies

The accumulator of a lane is a number modulo `2^48` and the result of a multiply a clamp of it.
The unsigned and the low clamps tell an overflow by comparing the middle word before and after its
saturation, which fails where the word is the saturated value already.

## Main definitions

- `accValue` — a lane's accumulator; `bits4716` — its bits 47..16, signed
- `Clamp.value` — a clamp, by the bounds of bits 47..16
- `Clamp.Blind` — the accumulators whose overflow the code's clamp does not see

## Main results

- `signedClampAm_agree` — the scalar and the SSE2 clamp of the middle word are one function
- `Clamp.code_iff` — the code's clamp is right exactly where it is not blind
-/

namespace Mupen64plus

-- ════════════════════════════════════════════════════════════════════════
-- Accumulators
-- ════════════════════════════════════════════════════════════════════════

/-- The 48 bits of a lane's accumulator. -/
def accValue (a : VAcc) (i : Lane) : ℤ :=
  (a.h i).toNat * 4294967296 + (a.m i).toNat * 65536 + (a.l i).toNat

/-- Bits 47..16 of an accumulator, signed. -/
def bits4716 (t : ℤ) : ℤ := (t / 65536).bmod 4294967296

theorem accValue_mid (a : VAcc) (i : Lane) :
    bits4716 (accValue a i) = (a.h i).toInt * 65536 + (a.m i).toNat := by
  have hm := (a.m i).isLt
  have hl := (a.l i).isLt
  have hdiv : accValue a i / 65536 = (a.h i).toNat * 65536 + (a.m i).toNat := by
    unfold accValue
    omega
  rw [bits4716, hdiv, Int.bmod_def]
  rcases WordProducts.signed_cases (a.h i) with ⟨hh, hlt⟩ | ⟨hh, hge, hlt⟩
  · split <;> omega
  · split <;> omega

theorem accValue_m (a : VAcc) (i : Lane) : BitVec.ofInt 16 (accValue a i / 65536) = a.m i := by
  have hm := (a.m i).isLt
  have hl := (a.l i).isLt
  refine BitVec.eq_of_toNat_eq ?_
  rw [BitVec.toNat_ofInt]
  unfold accValue
  omega

theorem accValue_l (a : VAcc) (i : Lane) : BitVec.ofInt 16 (accValue a i) = a.l i := by
  have hl := (a.l i).isLt
  refine BitVec.eq_of_toNat_eq ?_
  rw [BitVec.toNat_ofInt]
  unfold accValue
  omega

theorem accValue_inj {a b : VAcc} (h : ∀ i, accValue a i = accValue b i) : a = b := by
  have hwords : ∀ i, a.h i = b.h i ∧ a.m i = b.m i ∧ a.l i = b.l i := by
    intro i
    have hi := h i
    unfold accValue at hi
    exact WordProducts.three_words_inj _ _ _ _ _ _ (by omega)
  obtain ⟨ah, am, al⟩ := a
  obtain ⟨bh, bm, bl⟩ := b
  congr 1
  · funext i
    exact (hwords i).1
  · funext i
    exact (hwords i).2.1
  · funext i
    exact (hwords i).2.2

theorem toInt_append_words (h m : BitVec 16) : (h ++ m).toInt = h.toInt * 65536 + m.toNat := by
  have hm := m.isLt
  rw [BitVec.toInt_eq_toNat_cond, BitVec.toNat_append, ← Nat.shiftLeft_add_eq_or_of_lt hm,
    Nat.shiftLeft_eq]
  rcases WordProducts.signed_cases h with hh | hh
  · split <;> omega
  · split <;> omega

/-- Saturating bits 47..16 of an accumulator. -/
theorem saturate16_words (h m : BitVec 16) : saturate16 (h ++ m) =
    if h.toInt * 65536 + m.toNat < -32768 then 0x8000
    else if 32767 < h.toInt * 65536 + m.toNat then 0x7fff else m := by
  rw [saturate16, toInt_append_words, BitVec.setWidth_append_eq_right]

-- ════════════════════════════════════════════════════════════════════════
-- Clamps
-- ════════════════════════════════════════════════════════════════════════

/-- The clamps of the result: of the middle word, signed or unsigned, or of the low word. -/
inductive Clamp where
  | middle | unsignedMiddle | low
  deriving DecidableEq, Repr

/-- The clamp of an accumulator, by the bounds of its bits 47..16. -/
def Clamp.value (c : Clamp) (t : ℤ) : BitVec 16 :=
  match c with
  | .middle =>
    if bits4716 t < -32768 then 0x8000
    else if 32767 < bits4716 t then 0x7fff else BitVec.ofInt 16 (t / 65536)
  | .unsignedMiddle =>
    if bits4716 t < 0 then 0
    else if 32767 < bits4716 t then 0xffff else BitVec.ofInt 16 (t / 65536)
  | .low =>
    if bits4716 t < -32768 then 0
    else if 32767 < bits4716 t then 0xffff else BitVec.ofInt 16 t

/-- The accumulator is out of bounds, which the code's clamp does not see: the middle word is
    its own saturation. -/
def Clamp.Blind (c : Clamp) (t : ℤ) : Prop :=
  match c with
  | .middle => False
  | .unsignedMiddle => 32767 < bits4716 t ∧ t / 65536 % 65536 = 0x7fff
  | .low =>
    32767 < bits4716 t ∧ t / 65536 % 65536 = 0x7fff ∧ t % 65536 ≠ 0xffff ∨
      bits4716 t < -32768 ∧ t / 65536 % 65536 = 0x8000 ∧ t % 65536 ≠ 0

instance Clamp.decidableBlind (c : Clamp) (t : ℤ) : Decidable (c.Blind t) :=
  match c with
  | .middle => inferInstanceAs (Decidable False)
  | .unsignedMiddle => inferInstanceAs (Decidable (_ ∧ _))
  | .low => inferInstanceAs (Decidable (_ ∨ _))

/-- The clamp the code has for it. -/
def Clamp.code (c : Clamp) (signedClampAm : VAcc → V16) (a : VAcc) : V16 :=
  match c with
  | .middle => signedClampAm a
  | .unsignedMiddle => unsignedClamp signedClampAm a
  | .low => signedClampAl signedClampAm a

theorem keep_word (m : BitVec 16) :
    (m &&& -(0#16 ^^^ 1) ||| -(0#16 ^^^ 0)) ^^^ 0x8000 * (0#16 ||| 0#16) = m := by
  have h1 : -(0#16 ^^^ 1) = BitVec.allOnes 16 := by decide
  have h2 : -(0#16 ^^^ 0) = 0#16 := by decide
  have h3 : 0x8000 * (0#16 ||| 0#16) = 0#16 := by decide
  rw [h1, h2, h3, BitVec.and_allOnes, BitVec.or_zero, BitVec.xor_zero]

theorem low_word (m : BitVec 16) :
    (m &&& -(1#16 ^^^ 1) ||| -(0#16 ^^^ 0)) ^^^ 0x8000 * (0#16 ||| 1#16) = 0x8000 := by
  have h1 : -(1#16 ^^^ 1) = 0#16 := by decide
  rw [h1, BitVec.and_zero]
  decide

theorem high_word (m : BitVec 16) :
    (m &&& -(0#16 ^^^ 1) ||| -(1#16 ^^^ 0)) ^^^ 0x8000 * (1#16 ||| 0#16) = 0x7fff := by
  have h1 : -(1#16 ^^^ 0) = BitVec.allOnes 16 := by decide
  rw [h1, BitVec.or_allOnes]
  decide

/-- The scalar clamp saturates bits 47..16. -/
theorem signedClampAmScalar_apply (a : VAcc) (i : Lane) :
    signedClampAmScalar a i = saturate16 (a.h i ++ a.m i) := by
  rw [saturate16_words]
  simp only [signedClampAmScalar]
  generalize a.h i = h
  generalize a.m i = m
  have hm := WordProducts.signed_cases m
  have hm0 : (0 : ℤ) ≤ m.toNat := Int.natCast_nonneg _
  by_cases hlow : h.toInt * 65536 + m.toNat < -32768
  · have hlo : flag16 (h.toInt < -1) ||| (flag16 (h.toInt < 0) &&& flag16 ¬(m.toInt < 0)) =
      1#16 := by
      by_cases h1 : h.toInt < -1
      · rw [flag16_pos h1, flag16_pos (by omega)]
        by_cases h2 : m.toInt < 0
        · rw [flag16_neg (not_not.mpr h2)]
          rfl
        · rw [flag16_pos h2]
          rfl
      · rw [flag16_neg h1, flag16_pos (by omega), flag16_pos (by omega)]
        rfl
    have hhi : flag16 (0 < h.toInt) ||| (flag16 (h.toInt = 0) &&& flag16 (m.toInt < 0)) = 0#16 := by
      rw [flag16_neg (p := 0 < h.toInt) (by omega), flag16_neg (p := h.toInt = 0) (by omega),
        BitVec.zero_and]
      rfl
    rw [if_pos hlow, hlo, hhi, low_word]
  · have hlo : flag16 (h.toInt < -1) ||| (flag16 (h.toInt < 0) &&& flag16 ¬(m.toInt < 0)) =
      0#16 := by
      rw [flag16_neg (p := h.toInt < -1) (by omega)]
      by_cases h1 : h.toInt < 0
      · rw [flag16_neg (p := ¬(m.toInt < 0)) (by omega), BitVec.and_zero]
        rfl
      · rw [flag16_neg h1, BitVec.zero_and]
        rfl
    rw [if_neg hlow, hlo]
    by_cases hhigh : 32767 < h.toInt * 65536 + m.toNat
    · have hhi : flag16 (0 < h.toInt) ||| (flag16 (h.toInt = 0) &&& flag16 (m.toInt < 0)) =
        1#16 := by
        by_cases h1 : 0 < h.toInt
        · rw [flag16_pos h1, flag16_neg (p := h.toInt = 0) (by omega), BitVec.zero_and]
          rfl
        · rw [flag16_neg h1, flag16_pos (by omega), flag16_pos (by omega)]
          rfl
      rw [if_pos hhigh, hhi, high_word]
    · have hhi : flag16 (0 < h.toInt) ||| (flag16 (h.toInt = 0) &&& flag16 (m.toInt < 0)) =
        0#16 := by
        rw [flag16_neg (p := 0 < h.toInt) (by omega)]
        by_cases h1 : h.toInt = 0
        · rw [flag16_neg (p := m.toInt < 0) (by omega), BitVec.and_zero]
          rfl
        · rw [flag16_neg h1, BitVec.zero_and]
          rfl
      rw [if_neg hhigh, hhi, keep_word]

theorem signedClampAmSse2_apply (a : VAcc) (i : Lane) :
    signedClampAmSse2 a i = saturate16 (a.h i ++ a.m i) := mmPacks_unpack a.m a.h i

/-- The two versions of `SIGNED_CLAMP_AM` are one function. -/
theorem signedClampAm_agree : signedClampAmSse2 = signedClampAmScalar := by
  funext a i
  rw [signedClampAmSse2_apply, signedClampAmScalar_apply]

/-- The code's clamp of the middle word, by the bounds. -/
theorem signedClampAm_words (a : VAcc) (i : Lane) : signedClampAmScalar a i =
    if bits4716 (accValue a i) < -32768 then 0x8000
    else if 32767 < bits4716 (accValue a i) then 0x7fff else a.m i := by
  rw [signedClampAmScalar_apply, saturate16_words, accValue_mid]

theorem middle_eq (a : VAcc) (i : Lane) :
    signedClampAmScalar a i = Clamp.middle.value (accValue a i) := by
  rw [signedClampAm_words, Clamp.value, accValue_m]

/-- The middle word tells a saturated value from a value in bounds. -/
theorem accValue_m_toNat (a : VAcc) (i : Lane) :
    accValue a i / 65536 % 65536 = (a.m i).toNat := by
  have hm := (a.m i).isLt
  have hl := (a.l i).isLt
  unfold accValue
  omega

theorem accValue_l_toNat (a : VAcc) (i : Lane) : accValue a i % 65536 = (a.l i).toNat := by
  have hl := (a.l i).isLt
  unfold accValue
  omega

/-- The unsigned clamp is wrong exactly where it is blind. -/
theorem unsignedMiddle_iff (a : VAcc) (i : Lane) :
    unsignedClamp signedClampAmScalar a i = Clamp.unsignedMiddle.value (accValue a i) ↔
      ¬Clamp.unsignedMiddle.Blind (accValue a i) := by
  have hmid := accValue_mid a i
  have hm := WordProducts.signed_cases (a.m i)
  have hh := WordProducts.signed_cases (a.h i)
  simp only [unsignedClamp, Clamp.value, Clamp.Blind, signedClampAm_words, accValue_m,
    accValue_m_toNat]
  generalize bits4716 (accValue a i) = mid at hmid ⊢
  generalize a.m i = m at hmid hm ⊢
  generalize a.h i = h at hmid hh
  by_cases hlow : mid < -32768
  · have hcond : ¬(m.toInt < (0x8000 : BitVec 16).toInt) := by
      show ¬(m.toInt < -32768)
      omega
    rw [if_pos hlow, if_pos (by omega), flag16_neg hcond]
    exact ⟨fun _ h => by omega, fun _ => by decide⟩
  · rw [if_neg hlow]
    by_cases hhigh : 32767 < mid
    · rw [if_pos hhigh, if_neg (by omega), if_pos hhigh]
      by_cases hsat : m = 0x7fff
      · subst hsat
        refine ⟨fun h => absurd h (by decide), fun h => absurd ⟨hhigh, rfl⟩ h⟩
      · have hne : m.toNat ≠ 32767 := fun h => hsat (BitVec.eq_of_toNat_eq h)
        have hcond : m.toInt < (0x7fff : BitVec 16).toInt := by
          show m.toInt < 32767
          omega
        rw [flag16_pos hcond]
        exact ⟨fun _ h => by omega, fun _ => by decide⟩
    · rw [if_neg hhigh, flag16_neg (Int.lt_irrefl _)]
      refine ⟨fun _ h => hhigh h.1, fun _ => ?_⟩
      by_cases hneg : mid < 0
      · have hsign : m.sshiftRight 15 = BitVec.allOnes 16 := by
          refine BitVec.eq_of_toInt_eq ?_
          rw [BitVec.toInt_sshiftRight, Int.shiftRight_eq_div_pow]
          show m.toInt / 32768 = -1
          omega
        have hkeep : m &&& ~~~BitVec.allOnes 16 ||| -0#16 = 0#16 := by
          rw [BitVec.not_allOnes, BitVec.and_zero]
          decide
        rw [if_pos hneg, hsign, hkeep]
        rfl
      · have hsign : m.sshiftRight 15 = 0#16 := by
          refine BitVec.eq_of_toInt_eq ?_
          rw [BitVec.toInt_sshiftRight, Int.shiftRight_eq_div_pow]
          show m.toInt / 32768 = 0
          omega
        have hkeep : m &&& ~~~0#16 ||| -0#16 = m := by
          rw [BitVec.not_zero, BitVec.and_allOnes, BitVec.neg_zero, BitVec.or_zero]
        rw [if_neg hneg, if_neg hhigh, hsign, hkeep]

/-- The low clamp is wrong exactly where it is blind. -/
theorem low_iff (a : VAcc) (i : Lane) :
    signedClampAl signedClampAmScalar a i = Clamp.low.value (accValue a i) ↔
      ¬Clamp.low.Blind (accValue a i) := by
  simp only [signedClampAl, Clamp.value, Clamp.Blind, signedClampAm_words, accValue_l,
    accValue_m_toNat, accValue_l_toNat]
  generalize bits4716 (accValue a i) = mid
  generalize a.m i = m
  generalize a.l i = l
  by_cases hlow : mid < -32768
  · rw [if_pos hlow, if_pos hlow]
    by_cases hsat : m = 0x8000
    · subst hsat
      rw [if_neg (not_not.mpr rfl)]
      constructor
      · rintro rfl (h | h)
        · omega
        · exact h.2.2 rfl
      · intro h
        by_contra hl
        exact h (.inr ⟨hlow, rfl, fun h0 => hl (BitVec.eq_of_toNat_eq (by simpa using h0))⟩)
    · rw [if_pos (Ne.symm hsat)]
      refine ⟨fun _ h => ?_, fun _ => by decide⟩
      rcases h with h | h
      · omega
      · refine hsat (BitVec.eq_of_toNat_eq ?_)
        show m.toNat = 32768
        omega
  · rw [if_neg hlow, if_neg hlow]
    by_cases hhigh : 32767 < mid
    · rw [if_pos hhigh, if_pos hhigh]
      by_cases hsat : m = 0x7fff
      · subst hsat
        rw [if_neg (not_not.mpr rfl)]
        constructor
        · rintro rfl (h | h)
          · exact h.2.2 rfl
          · omega
        · intro h
          by_contra hl
          refine h (.inl ⟨hhigh, rfl, fun h0 => hl (BitVec.eq_of_toNat_eq ?_)⟩)
          show l.toNat = 65535
          omega
      · rw [if_pos (Ne.symm hsat)]
        refine ⟨fun _ h => ?_, fun _ => by decide⟩
        rcases h with h | h
        · refine hsat (BitVec.eq_of_toNat_eq ?_)
          show m.toNat = 32767
          omega
        · omega
    · rw [if_neg hhigh, if_neg hhigh, if_neg (not_not.mpr rfl)]
      refine ⟨fun _ h => ?_, fun _ => rfl⟩
      omega

/-- **Clamps**: the code's clamp is right exactly where it is not blind. -/
theorem Clamp.code_iff (c : Clamp) (a : VAcc) (i : Lane) :
    c.code signedClampAmScalar a i = c.value (accValue a i) ↔ ¬c.Blind (accValue a i) := by
  cases c with
  | middle => exact ⟨fun _ h => h, fun _ => middle_eq a i⟩
  | unsignedMiddle => exact unsignedMiddle_iff a i
  | low => exact low_iff a i

end Mupen64plus
