import Mupen64plus.Lib.WordProducts
import Mupen64plus.Rsp.Vector

/-!
# The vector adds

`VADD` and `VSUB` add with the carry flags and clamp, `VADDC` and `VSUBC` leave the carries, and
`VABS` multiplies by a sign. The clamps have an SSE2 and a scalar version; the correction of `VABS`
for -32768 is one for both, and it is made for every sign.

## Main definitions

- `signedClampAdd…`, `signedClampSub…`, `setCo`, `setBo`, `clrCi`, `clrBi`, `doAbs` — the code
- `clamp16`, `absValue` — what a lane should hold
- `AddGroupExact` — the five operations compute it

## Main results

- `signedClampSubSse2_apply` — the repair of the premature saturation is right
- `addGroupExact_iff`
-/

namespace Mupen64plus

-- ════════════════════════════════════════════════════════════════════════
-- Intrinsics
-- ════════════════════════════════════════════════════════════════════════

/-- The signed clamp to 16 bits. -/
def clamp16 (z : ℤ) : BitVec 16 :=
  if z < -32768 then 0x8000 else if 32767 < z then 0x7fff else BitVec.ofInt 16 z

def mmMaxEpi16 (a b : V16) : V16 := fun i => if (b i).toInt < (a i).toInt then a i else b i

def mmMinEpi16 (a b : V16) : V16 := fun i => if (a i).toInt < (b i).toInt then a i else b i

def mmAddsEpi16 (a b : V16) : V16 := fun i => clamp16 ((a i).toInt + (b i).toInt)

def mmSubsEpi16 (a b : V16) : V16 := fun i => clamp16 ((a i).toInt - (b i).toInt)

-- ════════════════════════════════════════════════════════════════════════
-- The operations
-- ════════════════════════════════════════════════════════════════════════

/-- `cf_co` and `cf_ne`, whose lanes are 0 or 1. -/
structure Vco where
  co : V16
  ne : V16
  co_flag : ∀ i, co i = 0 ∨ co i = 1
  ne_flag : ∀ i, ne i = 0 ∨ ne i = 1

theorem flag16_flag (p : Prop) [Decidable p] : flag16 p = 0 ∨ flag16 p = 1 := by
  unfold flag16
  split
  · exact .inr rfl
  · exact .inl rfl

def Vco.clear : Vco := ⟨fun _ => 0, fun _ => 0, fun _ => .inl rfl, fun _ => .inl rfl⟩

/-- The result, `VACC_L` and the flags of an operation. -/
structure AddResult where
  vd : V16
  accL : V16
  flags : Vco

def signedClampAddSse2 (_accL co vs vt : V16) : V16 :=
  let max := mmMaxEpi16 vt vs
  let min := mmMinEpi16 vt vs
  let min := mmAddsEpi16 min co
  mmAddsEpi16 max min

def signedClampSubSse2 (_accL co vs vt : V16) : V16 :=
  let res := mmSubsEpi16 vs vt
  let dif := mmAddEpi16 res co
  let dif := mmXorSi128 dif res
  let dif := mmAndSi128 dif vt
  let xmm := mmSubEpi16 vs vt
  let src := mmAndnotSi128 vs dif
  let xmm := mmAndSi128 xmm src
  let xmm := mmSrliEpi16 xmm 15
  let xmm := mmAndnotSi128 xmm co
  mmSubsEpi16 res xmm

/-- The masks of the scalar clamps, on the unclamped lanes of `VACC_L`. -/
def clampMasks (accL : V16) (sum : Lane → BitVec 32) : V16 := fun i =>
  let lo : BitVec 16 := ((sum i + 0x8000).sshiftRight 31).setWidth 16
  let hi : BitVec 16 := ((0x7fff - sum i).sshiftRight 31).setWidth 16
  ((accL i &&& ~~~lo) ||| hi) ^^^ (0x8000 &&& (hi ||| lo))

def signedClampAddScalar (accL co vs vt : V16) : V16 := clampMasks accL fun i =>
  (vs i).signExtend 32 + (vt i).signExtend 32 + (co i).signExtend 32

def signedClampSubScalar (accL co vs vt : V16) : V16 := clampMasks accL fun i =>
  (vs i).signExtend 32 - (vt i).signExtend 32 - (co i).signExtend 32

/-- `clr_ci`: `VADD`. -/
def clrCi (signedClampAdd : V16 → V16 → V16 → V16 → V16) (flags : Vco) (vs vt : V16) : AddResult :=
  let accL : V16 := fun i => vs i + vt i + flags.co i
  ⟨signedClampAdd accL flags.co vs vt, accL, Vco.clear⟩

/-- `clr_bi`: `VSUB`. -/
def clrBi (signedClampSub : V16 → V16 → V16 → V16 → V16) (flags : Vco) (vs vt : V16) : AddResult :=
  let accL : V16 := fun i => vs i - vt i - flags.co i
  ⟨signedClampSub accL flags.co vs vt, accL, Vco.clear⟩

theorem carry_out (s t : BitVec 16) :
    ((s.setWidth 32 + t.setWidth 32).sshiftRight 16).setWidth 16 =
      flag16 (65536 ≤ s.toNat + t.toNat) := by
  have hs := s.isLt
  have ht := t.isLt
  have hsum : (s.setWidth 32 + t.setWidth 32).toNat = s.toNat + t.toNat := by
    rw [BitVec.toNat_add, BitVec.toNat_setWidth, BitVec.toNat_setWidth]
    omega
  have hmsb : (s.setWidth 32 + t.setWidth 32).msb = false :=
    BitVec.msb_eq_false_iff_two_mul_lt.mpr (by omega)
  rw [BitVec.sshiftRight_eq_of_msb_false hmsb]
  refine BitVec.eq_of_toNat_eq ?_
  rw [BitVec.toNat_setWidth, BitVec.toNat_ushiftRight, hsum, Nat.shiftRight_eq_div_pow]
  unfold flag16
  split
  · show _ = 1
    omega
  · show _ = 0
    omega

/-- `set_co`: `VADDC`. -/
def setCo (vs vt : V16) : AddResult :=
  let sum : Lane → BitVec 32 := fun i => (vs i).setWidth 32 + (vt i).setWidth 32
  let accL : V16 := fun i => vs i + vt i
  ⟨accL, accL, fun i => ((sum i).sshiftRight 16).setWidth 16, fun _ => 0,
    fun i => carry_out (vs i) (vt i) ▸ flag16_flag _, fun _ => .inl rfl⟩

/-- `set_bo`: `VSUBC`. -/
def setBo (vs vt : V16) : AddResult :=
  let dif : Lane → BitVec 32 := fun i => (vs i).setWidth 32 - (vt i).setWidth 32
  let accL : V16 := fun i => vs i - vt i
  ⟨accL, accL, fun i => flag16 ((dif i).toInt < 0), fun i => flag16 (vs i ≠ vt i),
    fun _ => flag16_flag _, fun _ => flag16_flag _⟩

/-- `do_abs`: `VABS`, which leaves the flags. -/
def doAbs (flags : Vco) (vs vt : V16) : AddResult :=
  let cch : V16 := fun i => flag16 (vt i = 0x8000)
  let neg : V16 := fun i => flag16 ((vs i).toInt < 0)
  let pos : V16 := fun i => flag16 (0 < (vs i).toInt)
  let nez : V16 := fun i => 0 - neg i + pos i
  let res : V16 := fun i => vt i * nez i - cch i
  ⟨res, res, flags⟩

/-- The two versions of the clamps. -/
structure AddClamps where
  signedClampAdd : V16 → V16 → V16 → V16 → V16
  signedClampSub : V16 → V16 → V16 → V16 → V16

def AddClamps.sse2 : AddClamps := ⟨signedClampAddSse2, signedClampSubSse2⟩

def AddClamps.scalar : AddClamps := ⟨signedClampAddScalar, signedClampSubScalar⟩

/-- The number whose halves lie in two lanes. -/
def wide (high low : BitVec 16) : ℤ := high.toInt * 65536 + low.toNat

/-- What `VABS` is for: the only negation that does not fit is saturated. -/
def absValue (s t : BitVec 16) : BitVec 16 :=
  if s.toInt < 0 then (if t = 0x8000 then 0x7fff else -t) else if s.toInt = 0 then 0 else t

/-- The operations compute exactly, on lanes and on pairs of halves. -/
structure AddGroupExact (c : AddClamps) (flags : Vco) (vs vt lowS lowT : V16) : Prop where
  add : ∀ i, (clrCi c.signedClampAdd flags vs vt).vd i =
    clamp16 ((vs i).toInt + (vt i).toInt + (flags.co i).toNat)
  sub : ∀ i, (clrBi c.signedClampSub flags vs vt).vd i =
    clamp16 ((vs i).toInt - (vt i).toInt - (flags.co i).toNat)
  addPair : ∀ i, (((setCo lowS lowT).vd i).toNat : ℤ) =
      (wide (vs i) (lowS i) + wide (vt i) (lowT i)) % 65536 ∧
    (clrCi c.signedClampAdd (setCo lowS lowT).flags vs vt).vd i =
      clamp16 ((wide (vs i) (lowS i) + wide (vt i) (lowT i)) / 65536)
  subPair : ∀ i, (((setBo lowS lowT).vd i).toNat : ℤ) =
      (wide (vs i) (lowS i) - wide (vt i) (lowT i)) % 65536 ∧
    (clrBi c.signedClampSub (setBo lowS lowT).flags vs vt).vd i =
      clamp16 ((wide (vs i) (lowS i) - wide (vt i) (lowT i)) / 65536)
  abs : ∀ i, (doAbs flags vs vt).vd i = absValue (vs i) (vt i)

-- ════════════════════════════════════════════════════════════════════════
-- The clamps
-- ════════════════════════════════════════════════════════════════════════

theorem toInt_range (x : BitVec 16) : -32768 ≤ x.toInt ∧ x.toInt ≤ 32767 := by
  have hlt := BitVec.toInt_lt (x := x)
  have hle := BitVec.le_toInt (x := x)
  omega

/-- A clamp, as a number. -/
theorem toInt_clamp16 (z : ℤ) : (clamp16 z).toInt = max (-32768) (min 32767 z) := by
  unfold clamp16
  split
  · show -32768 = _
    omega
  · split
    · show 32767 = _
      omega
    · rw [BitVec.toInt_ofInt, Int.bmod_eq_of_le (by omega) (by omega)]
      omega

theorem clamp16_congr {z z' : ℤ} (h : max (-32768) (min 32767 z) = max (-32768) (min 32767 z')) :
    clamp16 z = clamp16 z' :=
  BitVec.eq_of_toInt_eq (by rw [toInt_clamp16, toInt_clamp16, h])

/-- The lesser summand takes the carry, so that only the last addition can saturate. -/
theorem saturated_sum {a b c : ℤ} (hle : b ≤ a) (ha : a ≤ 32767) (hb : -32768 ≤ b)
    (hc : 0 ≤ c ∧ c ≤ 1) :
    max (-32768) (min 32767 (a + max (-32768) (min 32767 (b + c)))) =
      max (-32768) (min 32767 (a + b + c)) := by
  rcases lt_or_ge 32767 (b + c) with hlt | hge
  · have hinner : max (-32768) (min 32767 (b + c)) = 32767 := by
      rw [min_eq_left hlt.le]
      rfl
    rw [hinner, min_eq_left (show 32767 ≤ a + 32767 by omega),
      min_eq_left (show 32767 ≤ a + b + c by omega)]
  · have hinner : max (-32768) (min 32767 (b + c)) = b + c := by
      rw [min_eq_right hge, max_eq_right (by omega)]
    rw [hinner, add_assoc]

section

variable {co vs vt : V16} {i : Lane}

theorem signedClampAddSse2_apply (hco : co i = 0 ∨ co i = 1) (accL : V16) :
    signedClampAddSse2 accL co vs vt i =
      clamp16 ((vs i).toInt + (vt i).toInt + (co i).toNat) := by
  have hs := toInt_range (vs i)
  have ht := toInt_range (vt i)
  have hflag : (co i).toInt = (co i).toNat ∧ (co i).toNat ≤ 1 := by
    rcases hco with h | h <;> rw [h] <;> decide
  simp only [signedClampAddSse2, mmMaxEpi16, mmMinEpi16, mmAddsEpi16, toInt_clamp16]
  refine clamp16_congr ?_
  rw [hflag.1]
  by_cases hlt : (vs i).toInt < (vt i).toInt
  · rw [if_pos hlt, if_neg hlt.not_gt, saturated_sum hlt.le (by omega) (by omega) (by omega),
      add_comm (vt i).toInt]
  by_cases hgt : (vt i).toInt < (vs i).toInt
  · rw [if_neg hlt, if_pos hgt, saturated_sum hgt.le (by omega) (by omega) (by omega)]
  · have heq : (vs i).toInt = (vt i).toInt := by omega
    rw [if_neg hlt, if_neg hgt, saturated_sum le_rfl (by omega) (by omega) (by omega), heq]

theorem sign_bit (x : BitVec 16) : x >>> 15 = flag16 (x.msb = true) := by
  have hx := x.isLt
  refine BitVec.eq_of_toNat_eq ?_
  rw [BitVec.toNat_ushiftRight, Nat.shiftRight_eq_div_pow, BitVec.msb_eq_decide]
  unfold flag16
  split
  · next h =>
    have hle := of_decide_eq_true h
    show _ = 1
    omega
  · next h =>
    have hlt := of_decide_eq_false (Bool.eq_false_of_not_eq_true h)
    show _ = 0
    omega

theorem kept_flag (p : Prop) [Decidable p] {c : BitVec 16} (hc : c = 0 ∨ c = 1) :
    (~~~flag16 p &&& c).toInt = if p then 0 else (c.toNat : ℤ) := by
  unfold flag16
  rcases hc with rfl | rfl <;> split <;> rfl

/-- The sign trick: with a borrow, the masked bit tells the differences that saturate above. -/
theorem saturated_iff (s t c : BitVec 16) (hc : c = 1) :
    (s - t &&& (~~~s &&& ((clamp16 (s.toInt - t.toInt) + c ^^^ clamp16 (s.toInt - t.toInt)) &&&
      t))).msb = true ↔ 32767 < s.toInt - t.toInt := by
  have hs := toInt_range s
  have ht := toInt_range t
  have hdif : (s - t).toInt = (s.toInt - t.toInt).bmod 65536 := BitVec.toInt_sub
  have hbit : ∀ x : BitVec 16, x.msb = decide (x.toInt < 0) := fun x => BitVec.msb_eq_toInt
  rw [BitVec.msb_and, BitVec.msb_and, BitVec.msb_and, BitVec.msb_not, BitVec.msb_xor, hbit (s - t),
    hbit s, hbit t, hdif]
  simp only [Bool.and_eq_true, decide_eq_true_eq, Bool.not_eq_true', decide_eq_false_iff_not]
  constructor
  · rintro ⟨hwrap, hnonneg, -, hneg⟩
    by_contra hle
    rw [Int.bmod_eq_of_le (by omega) (by omega)] at hwrap
    omega
  · intro hover
    have hclamp : clamp16 (s.toInt - t.toInt) = 0x7fff := by
      rw [clamp16, if_neg (by omega), if_pos hover]
    rw [hclamp, hc, Int.bmod_def]
    exact ⟨by split <;> omega, by omega, by decide, by omega⟩

/-- A difference that saturates above keeps its saturation: the borrow is dropped there. -/
theorem signedClampSubSse2_apply (hco : co i = 0 ∨ co i = 1) (accL : V16) :
    signedClampSubSse2 accL co vs vt i =
      clamp16 ((vs i).toInt - (vt i).toInt - (co i).toNat) := by
  simp only [signedClampSubSse2, mmSubsEpi16, mmAddEpi16, mmXorSi128, mmAndSi128, mmSubEpi16,
    mmAndnotSi128, mmSrliEpi16, sign_bit, toInt_clamp16, kept_flag _ hco]
  refine clamp16_congr ?_
  rcases hco with h | h
  · have hzero : ((co i).toNat : ℤ) = 0 := by rw [h]; rfl
    rw [hzero, ite_self]
    omega
  · have hone : ((co i).toNat : ℤ) = 1 := by rw [h]; rfl
    simp only [saturated_iff _ _ _ h, hone]
    split <;> omega

/-- The sign of a word, in all bits of a lane. -/
theorem signBits_eq (x : BitVec 32) :
    (x.sshiftRight 31).setWidth 16 = if x.toInt < 0 then 0xffff#16 else 0#16 := by
  have hx := BitVec.toInt_lt (x := x)
  have hx' := BitVec.le_toInt (x := x)
  have hshift : x.sshiftRight 31 = if x.toInt < 0 then 0xffffffff else 0 := by
    refine BitVec.eq_of_toInt_eq ?_
    rw [BitVec.toInt_sshiftRight, Int.shiftRight_eq_div_pow]
    split
    · show _ = -1
      omega
    · show _ = 0
      omega
  rw [hshift]
  split <;> rfl

/-- The masks clamp what the wrapped lane holds. -/
theorem clampMasks_apply {accL : V16} {sum : Lane → BitVec 32}
    (hlo : -65537 ≤ (sum i).toInt) (hhi : (sum i).toInt ≤ 65535)
    (hacc : accL i = BitVec.ofInt 16 (sum i).toInt) :
    clampMasks accL sum i = clamp16 (sum i).toInt := by
  have hbelow : (sum i + 0x8000).toInt = (sum i).toInt + 32768 := by
    rw [BitVec.toInt_add]
    exact Int.bmod_eq_of_le (by show _ ≤ _ + (32768 : ℤ); omega)
      (by show _ + (32768 : ℤ) < _; omega)
  have habove : (0x7fff - sum i).toInt = 32767 - (sum i).toInt := by
    rw [BitVec.toInt_sub]
    exact Int.bmod_eq_of_le (by show _ ≤ (32767 : ℤ) - _; omega)
      (by show (32767 : ℤ) - _ < _; omega)
  simp only [clampMasks, signBits_eq, hbelow, habove, hacc]
  generalize (sum i).toInt = z
  unfold clamp16
  by_cases hneg : z < -32768
  · rw [if_pos hneg, if_pos (by omega), if_neg (by omega), show ~~~0xffff#16 = 0#16 from rfl,
      BitVec.and_zero]
    rfl
  · rw [if_neg hneg, if_neg (by omega)]
    by_cases hbig : 32767 < z
    · rw [if_pos hbig, if_pos (by omega), show (0xffff#16) = BitVec.allOnes 16 from rfl,
        BitVec.or_allOnes]
      rfl
    · rw [if_neg hbig, if_neg (by omega), show ~~~0#16 = BitVec.allOnes 16 from rfl,
        BitVec.and_allOnes, BitVec.or_zero]
      exact BitVec.xor_zero

theorem flag_toInt {c : BitVec 16} (hc : c = 0 ∨ c = 1) : c.toInt = c.toNat ∧ c.toNat ≤ 1 := by
  rcases hc with rfl | rfl <;> decide

theorem ofInt_sum (s t c : BitVec 16) :
    s + t + c = BitVec.ofInt 16 (s.toInt + t.toInt + c.toInt) := by
  rw [BitVec.ofInt_add, BitVec.ofInt_add, BitVec.ofInt_toInt, BitVec.ofInt_toInt,
    BitVec.ofInt_toInt]

theorem signedClampAddScalar_apply (hco : co i = 0 ∨ co i = 1) :
    signedClampAddScalar (fun i => vs i + vt i + co i) co vs vt i =
      clamp16 ((vs i).toInt + (vt i).toInt + (co i).toNat) := by
  have hs := toInt_range (vs i)
  have ht := toInt_range (vt i)
  obtain ⟨hflag, hle⟩ := flag_toInt hco
  have hsum : ((vs i).signExtend 32 + (vt i).signExtend 32 + (co i).signExtend 32).toInt =
      (vs i).toInt + (vt i).toInt + (co i).toInt := by
    have hwide : ∀ x : BitVec 16, (x.signExtend 32).toInt = x.toInt := fun x =>
      BitVec.toInt_signExtend_of_le (by decide)
    rw [BitVec.toInt_add, BitVec.toInt_add, hwide, hwide, hwide,
      Int.bmod_eq_of_le (n := (vs i).toInt + (vt i).toInt) (by omega) (by omega),
      Int.bmod_eq_of_le (by omega) (by omega)]
  rw [signedClampAddScalar, clampMasks_apply (by omega) (by omega), hsum, hflag]
  rw [hsum]
  exact ofInt_sum _ _ _

theorem signedClampSubScalar_apply (hco : co i = 0 ∨ co i = 1) :
    signedClampSubScalar (fun i => vs i - vt i - co i) co vs vt i =
      clamp16 ((vs i).toInt - (vt i).toInt - (co i).toNat) := by
  have hs := toInt_range (vs i)
  have ht := toInt_range (vt i)
  obtain ⟨hflag, hle⟩ := flag_toInt hco
  have hdif : ((vs i).signExtend 32 - (vt i).signExtend 32 - (co i).signExtend 32).toInt =
      (vs i).toInt - (vt i).toInt - (co i).toInt := by
    have hwide : ∀ x : BitVec 16, (x.signExtend 32).toInt = x.toInt := fun x =>
      BitVec.toInt_signExtend_of_le (by decide)
    rw [BitVec.toInt_sub, BitVec.toInt_sub, hwide, hwide, hwide,
      Int.bmod_eq_of_le (n := (vs i).toInt - (vt i).toInt) (by omega) (by omega),
      Int.bmod_eq_of_le (by omega) (by omega)]
  rw [signedClampSubScalar, clampMasks_apply (by omega) (by omega), hdif, hflag]
  rw [hdif]
  refine BitVec.eq_of_toInt_eq ?_
  rw [BitVec.toInt_ofInt, BitVec.toInt_sub, BitVec.toInt_sub, Int.bmod_sub_bmod]

end

-- ════════════════════════════════════════════════════════════════════════
-- The group
-- ════════════════════════════════════════════════════════════════════════

/-- The clamps of a version are exact on the lanes that the operations leave in `VACC_L`. -/
structure ClampsExact (c : AddClamps) : Prop where
  add : ∀ (flags : Vco) (vs vt : V16) (i : Lane), (clrCi c.signedClampAdd flags vs vt).vd i =
    clamp16 ((vs i).toInt + (vt i).toInt + (flags.co i).toNat)
  sub : ∀ (flags : Vco) (vs vt : V16) (i : Lane), (clrBi c.signedClampSub flags vs vt).vd i =
    clamp16 ((vs i).toInt - (vt i).toInt - (flags.co i).toNat)

theorem clampsExact_sse2 : ClampsExact .sse2 :=
  ⟨fun flags vs vt i => signedClampAddSse2_apply (flags.co_flag i) fun j => vs j + vt j +
    flags.co j,
    fun flags vs vt i =>
      signedClampSubSse2_apply (flags.co_flag i) fun j => vs j - vt j - flags.co j⟩

theorem clampsExact_scalar : ClampsExact .scalar :=
  ⟨fun flags _ _ i => signedClampAddScalar_apply (flags.co_flag i),
    fun flags _ _ i => signedClampSubScalar_apply (flags.co_flag i)⟩

theorem setCo_carry (s t : V16) (i : Lane) :
    (((setCo s t).vd i).toNat : ℤ) = (s i).toNat + (t i).toNat -
      65536 * ((setCo s t).flags.co i).toNat := by
  have hs := (s i).isLt
  have ht := (t i).isLt
  simp only [setCo, carry_out, toNat_flag16, BitVec.toNat_add]
  split <;> omega

theorem setBo_borrow (s t : V16) (i : Lane) :
    (((setBo s t).vd i).toNat : ℤ) = (s i).toNat - (t i).toNat +
      65536 * ((setBo s t).flags.co i).toNat := by
  have hs := (s i).isLt
  have ht := (t i).isLt
  have hdif : ((s i).setWidth 32 - (t i).setWidth 32).toInt = (s i).toNat - (t i).toNat := by
    have hwide : ∀ x : BitVec 16, (x.setWidth 32).toInt = x.toNat := by
      intro x
      have hx := x.isLt
      rw [BitVec.toInt_eq_toNat_of_lt, BitVec.toNat_setWidth]
      · rw [Nat.mod_eq_of_lt (by omega)]
      · rw [BitVec.toNat_setWidth]
        omega
    rw [BitVec.toInt_sub, hwide, hwide, Int.bmod_eq_of_le (by omega) (by omega)]
  simp only [setBo, hdif, toNat_flag16, BitVec.toNat_sub]
  split <;> omega

theorem doAbs_iff (flags : Vco) (vs vt : V16) (i : Lane) :
    (doAbs flags vs vt).vd i = absValue (vs i) (vt i) ↔
      (vt i = 0x8000 → (vs i).toInt < 0) := by
  simp only [doAbs, absValue]
  generalize vs i = s
  generalize vt i = t
  rcases lt_trichotomy s.toInt 0 with hneg | hzero | hpos
  · rw [if_pos hneg, flag16_pos hneg, flag16_neg (not_lt.mpr hneg.le)]
    refine iff_of_true ?_ fun _ => hneg
    by_cases ht : t = 0x8000
    · rw [if_pos ht, ht]
      rfl
    · rw [if_neg ht, flag16_neg ht, BitVec.sub_zero, show 0 - 1#16 + 0#16 = -1#16 from rfl,
        BitVec.mul_neg, BitVec.mul_one]
  · rw [if_neg (by omega), if_pos hzero, flag16_neg (by omega), flag16_neg (by omega),
      show 0 - 0#16 + 0#16 = 0#16 from rfl, BitVec.mul_zero]
    by_cases ht : t = 0x8000
    · rw [flag16_pos ht]
      exact iff_of_false (by decide) fun h => absurd (h ht) (by omega)
    · rw [flag16_neg ht]
      exact iff_of_true rfl fun h => absurd h ht
  · rw [if_neg (by omega), if_neg (by omega), flag16_neg (by omega), flag16_pos hpos,
      show 0 - 0#16 + 1#16 = 1#16 from rfl, BitVec.mul_one]
    by_cases ht : t = 0x8000
    · rw [flag16_pos ht, ht]
      exact iff_of_false (by decide) fun h => absurd (h rfl) (by omega)
    · rw [flag16_neg ht, BitVec.sub_zero]
      exact iff_of_true rfl fun h => absurd h ht

theorem addGroupExact_iff_of_clamps {c : AddClamps} (hc : ClampsExact c) (flags : Vco)
    (vs vt lowS lowT : V16) :
    AddGroupExact c flags vs vt lowS lowT ↔ ∀ i, vt i = 0x8000 → (vs i).toInt < 0 := by
  constructor
  · intro h i
    exact (doAbs_iff flags vs vt i).mp (h.abs i)
  · intro h
    refine ⟨hc.add flags vs vt, hc.sub flags vs vt, fun i => ?_, fun i => ?_,
      fun i => (doAbs_iff flags vs vt i).mpr (h i)⟩
    · have hcarry := setCo_carry lowS lowT i
      have hlow := ((setCo lowS lowT).vd i).isLt
      rw [hc.add]
      unfold wide
      refine ⟨by omega, ?_⟩
      congr 1
      omega
    · have hborrow := setBo_borrow lowS lowT i
      have hlow := ((setBo lowS lowT).vd i).isLt
      rw [hc.sub]
      unfold wide
      refine ⟨by omega, ?_⟩
      congr 1
      omega

/-- **Vector adds**: in both versions the group computes exactly if and only if -32768 is only
multiplied by a negative sign. -/
theorem addGroupExact_iff (flags : Vco) (vs vt lowS lowT : V16) :
    AddGroupExact .sse2 flags vs vt lowS lowT ∧ AddGroupExact .scalar flags vs vt lowS lowT ↔
      ∀ i, vt i = 0x8000 → (vs i).toInt < 0 := by
  rw [addGroupExact_iff_of_clamps clampsExact_sse2, addGroupExact_iff_of_clamps clampsExact_scalar,
    and_self]

/-- `VABS` of -32768 by the sign of 0 is -1. -/
theorem abs_least_not_exact : ¬∀ (flags : Vco) (vs vt lowS lowT : V16),
    AddGroupExact .sse2 flags vs vt lowS lowT ∧ AddGroupExact .scalar flags vs vt lowS lowT := by
  intro h
  have habs := (h Vco.clear (fun _ => 0) (fun _ => 0x8000) (fun _ => 0) fun _ => 0).1.abs 0
  exact absurd habs (by decide)

end Mupen64plus
