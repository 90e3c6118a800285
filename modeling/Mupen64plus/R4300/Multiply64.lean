import Mathlib.Tactic.Common
import Mathlib.Tactic.Ring
import Mathlib.Tactic.Linarith
import Mathlib.Data.Nat.Notation

/-!
# The 64-bit multiplications

`DMULT` and `DMULTU` of mips_instructions.def multiply two 64-bit registers in 64-bit
arithmetic: four partial products of 32-bit halves, added with their carries by hand. `DMULT`
multiplies magnitudes and negates the 128-bit result by hand when one factor is negative.

## Main results

- `partialProducts_exact` — no product and no sum of the four partial products wraps
- `unsignedProduct_toNat` — the halves that are stored are those of the product
- `negateHiLo_value` — the negation by hand is the negation modulo `2 ^ 128`
- `multiplications_exact` — both instructions leave the exact product
-/

namespace Mupen64plus.R4300

/-- The multiply registers, `r4300_mult_hi` and `r4300_mult_lo`. -/
structure HiLo where
  hi : BitVec 64
  lo : BitVec 64
  deriving DecidableEq, Repr

/-- The 128-bit value `HI:LO`. -/
def HiLo.value (r : HiLo) : BitVec 128 := r.hi ++ r.lo

/-- The local variables of the two bodies. -/
structure PartialProducts where
  op1 : BitVec 64
  op2 : BitVec 64
  op3 : BitVec 64
  op4 : BitVec 64
  temp1 : BitVec 64
  temp2 : BitVec 64
  temp3 : BitVec 64
  temp4 : BitVec 64
  result1 : BitVec 64
  result2 : BitVec 64
  result3 : BitVec 64
  result4 : BitVec 64
  deriving DecidableEq, Repr

/-- The computation that the two bodies share, on the factors as unsigned values. -/
def partialProducts (x y : BitVec 64) : PartialProducts :=
  let op1 := x &&& 0xFFFFFFFF
  let op2 := (x >>> 32) &&& 0xFFFFFFFF
  let op3 := y &&& 0xFFFFFFFF
  let op4 := (y >>> 32) &&& 0xFFFFFFFF
  let temp1 := op1 * op3
  let temp2 := (temp1 >>> 32) + op1 * op4
  let temp3 := op2 * op3
  let temp4 := (temp3 >>> 32) + op2 * op4
  let result1 := temp1 &&& 0xFFFFFFFF
  let result2 := temp2 + (temp3 &&& 0xFFFFFFFF)
  let result3 := (result2 >>> 32) + temp4
  let result4 := result3 >>> 32
  { op1, op2, op3, op4, temp1, temp2, temp3, temp4, result1, result2, result3, result4 }

/-- What both bodies store. -/
def PartialProducts.hiLo (p : PartialProducts) : HiLo where
  hi := (p.result3 &&& 0xFFFFFFFF) ||| (p.result4 <<< 32)
  lo := p.result1 ||| (p.result2 <<< 32)

def dmultu (rrs rrt : BitVec 64) : HiLo := (partialProducts rrs rrt).hiLo

/-- The magnitude of a factor of `DMULT`; `-rrs` is taken modulo `2 ^ 64`. -/
def magnitude (r : BitVec 64) : BitVec 64 := if r.slt 0 then -r else r

/-- The end of `DMULT` when `sign` is set. -/
def negateHiLo (r : HiLo) : HiLo :=
  if r.lo = 0 then { hi := ~~~r.hi + 1, lo := r.lo }
  else { hi := ~~~r.hi, lo := ~~~r.lo + 1 }

def dmult (rrs rrt : BitVec 64) : HiLo :=
  let r := (partialProducts (magnitude rrs) (magnitude rrt)).hiLo
  if xor (rrs.slt 0) (rrt.slt 0) then negateHiLo r else r

/-! ### The partial products -/

/-- Each product and each sum of the computation has its exact value in 64 bits. -/
structure PartialProducts.Exact (p : PartialProducts) : Prop where
  temp1 : p.temp1.toNat = p.op1.toNat * p.op3.toNat
  temp2 : p.temp2.toNat = p.temp1.toNat / 2 ^ 32 + p.op1.toNat * p.op4.toNat
  temp3 : p.temp3.toNat = p.op2.toNat * p.op3.toNat
  temp4 : p.temp4.toNat = p.temp3.toNat / 2 ^ 32 + p.op2.toNat * p.op4.toNat
  result2 : p.result2.toNat = p.temp2.toNat + p.temp3.toNat % 2 ^ 32
  result3 : p.result3.toNat = p.result2.toNat / 2 ^ 32 + p.temp4.toNat

theorem toNat_and_low (x : BitVec 64) : (x &&& 0xFFFFFFFF).toNat = x.toNat % 2 ^ 32 := by
  rw [BitVec.toNat_and]
  exact Nat.and_two_pow_sub_one_eq_mod x.toNat 32

theorem toNat_shift_high (x : BitVec 64) : (x >>> 32).toNat = x.toNat / 2 ^ 32 := by
  rw [BitVec.toNat_ushiftRight, Nat.shiftRight_eq_div_pow]

theorem toNat_high (x : BitVec 64) :
    ((x >>> 32) &&& 0xFFFFFFFF).toNat = x.toNat / 2 ^ 32 := by
  have hx := x.isLt
  rw [toNat_and_low, toNat_shift_high]
  exact Nat.mod_eq_of_lt (by omega)

theorem half_mul_le {a b : ℕ} (ha : a < 2 ^ 32) (hb : b < 2 ^ 32) :
    a * b ≤ 18446744065119617025 := by
  have hle : a * b ≤ 4294967295 * 4294967295 := Nat.mul_le_mul (by omega) (by omega)
  omega

theorem toNat_mul_half {a b : BitVec 64} (ha : a.toNat < 2 ^ 32) (hb : b.toNat < 2 ^ 32) :
    (a * b).toNat = a.toNat * b.toNat := by
  have hle := half_mul_le ha hb
  rw [BitVec.toNat_mul]
  exact Nat.mod_eq_of_lt (by omega)

theorem toNat_add_exact {a b : BitVec 64} (h : a.toNat + b.toNat < 2 ^ 64) :
    (a + b).toNat = a.toNat + b.toNat := by
  rw [BitVec.toNat_add]
  exact Nat.mod_eq_of_lt h

/-- No product and no sum wraps. -/
theorem partialProducts_exact (x y : BitVec 64) : (partialProducts x y).Exact := by
  have hx := x.isLt
  have hy := y.isLt
  set p := partialProducts x y with hp
  have hop1 : p.op1.toNat < 2 ^ 32 := by
    have h : p.op1.toNat = x.toNat % 2 ^ 32 := toNat_and_low x
    omega
  have hop2 : p.op2.toNat < 2 ^ 32 := by
    have h : p.op2.toNat = x.toNat / 2 ^ 32 := toNat_high x
    omega
  have hop3 : p.op3.toNat < 2 ^ 32 := by
    have h : p.op3.toNat = y.toNat % 2 ^ 32 := toNat_and_low y
    omega
  have hop4 : p.op4.toNat < 2 ^ 32 := by
    have h : p.op4.toNat = y.toNat / 2 ^ 32 := toNat_high y
    omega
  have h13 := half_mul_le hop1 hop3
  have h14 := half_mul_le hop1 hop4
  have h23 := half_mul_le hop2 hop3
  have h24 := half_mul_le hop2 hop4
  have temp1 : p.temp1.toNat = p.op1.toNat * p.op3.toNat := toNat_mul_half hop1 hop3
  have temp3 : p.temp3.toNat = p.op2.toNat * p.op3.toNat := toNat_mul_half hop2 hop3
  have temp2 : p.temp2.toNat = p.temp1.toNat / 2 ^ 32 + p.op1.toNat * p.op4.toNat := by
    have hsum : (p.temp1 >>> 32).toNat + (p.op1 * p.op4).toNat < 2 ^ 64 := by
      rw [toNat_shift_high, toNat_mul_half hop1 hop4]
      omega
    have h := toNat_add_exact hsum
    rw [toNat_shift_high, toNat_mul_half hop1 hop4] at h
    exact h
  have temp4 : p.temp4.toNat = p.temp3.toNat / 2 ^ 32 + p.op2.toNat * p.op4.toNat := by
    have hsum : (p.temp3 >>> 32).toNat + (p.op2 * p.op4).toNat < 2 ^ 64 := by
      rw [toNat_shift_high, toNat_mul_half hop2 hop4]
      omega
    have h := toNat_add_exact hsum
    rw [toNat_shift_high, toNat_mul_half hop2 hop4] at h
    exact h
  have result2 : p.result2.toNat = p.temp2.toNat + p.temp3.toNat % 2 ^ 32 := by
    have hsum : p.temp2.toNat + (p.temp3 &&& 0xFFFFFFFF).toNat < 2 ^ 64 := by
      rw [toNat_and_low]
      omega
    have h := toNat_add_exact hsum
    rw [toNat_and_low] at h
    exact h
  have result3 : p.result3.toNat = p.result2.toNat / 2 ^ 32 + p.temp4.toNat := by
    have hsum : (p.result2 >>> 32).toNat + p.temp4.toNat < 2 ^ 64 := by
      rw [toNat_shift_high]
      omega
    have h := toNat_add_exact hsum
    rw [toNat_shift_high] at h
    exact h
  exact { temp1, temp2, temp3, temp4, result2, result3 }

/-! ### The stored halves -/

theorem HiLo.value_toNat (r : HiLo) : r.value.toNat = r.hi.toNat * 2 ^ 64 + r.lo.toNat := by
  have hlo := r.lo.isLt
  rw [HiLo.value, BitVec.toNat_append, Nat.shiftLeft_eq, Nat.mul_comm,
    ← Nat.two_pow_add_eq_or_of_lt hlo]

/-- Two words joined by `|`, the upper one shifted into its place. -/
theorem toNat_join {a b : BitVec 64} (ha : a.toNat < 2 ^ 32) :
    (a ||| (b <<< 32)).toNat = b.toNat % 2 ^ 32 * 2 ^ 32 + a.toNat := by
  have hshift : (b <<< 32).toNat = 2 ^ 32 * (b.toNat % 2 ^ 32) := by
    rw [BitVec.toNat_shiftLeft, Nat.shiftLeft_eq]
    omega
  rw [BitVec.toNat_or, hshift, Nat.or_comm, ← Nat.two_pow_add_eq_or_of_lt ha]
  omega

theorem hiLo_hi (x y : BitVec 64) :
    (partialProducts x y).hiLo.hi.toNat = (partialProducts x y).result3.toNat := by
  set p := partialProducts x y
  have hhigh : p.result4.toNat = p.result3.toNat / 2 ^ 32 := toNat_shift_high p.result3
  have hbound := p.result3.isLt
  have hlow : (p.result3 &&& 0xFFFFFFFF).toNat < 2 ^ 32 := by
    rw [toNat_and_low]
    omega
  have hjoin : p.hiLo.hi.toNat = p.result4.toNat % 2 ^ 32 * 2 ^ 32 +
      p.result3.toNat % 2 ^ 32 := by
    rw [← toNat_and_low p.result3]
    exact toNat_join hlow
  omega

theorem hiLo_lo (x y : BitVec 64) :
    (partialProducts x y).hiLo.lo.toNat =
      (partialProducts x y).result2.toNat % 2 ^ 32 * 2 ^ 32 +
        (partialProducts x y).temp1.toNat % 2 ^ 32 := by
  set p := partialProducts x y
  have hlow : p.result1.toNat = p.temp1.toNat % 2 ^ 32 := toNat_and_low p.temp1
  have hjoin : p.hiLo.lo.toNat = p.result2.toNat % 2 ^ 32 * 2 ^ 32 + p.result1.toNat :=
    toNat_join (by omega)
  omega

/-- The stored halves are those of the unsigned product. -/
theorem unsignedProduct_toNat (x y : BitVec 64) :
    (partialProducts x y).hiLo.value.toNat = x.toNat * y.toNat := by
  have hexact := partialProducts_exact x y
  have hhi := hiLo_hi x y
  have hlo := hiLo_lo x y
  set p := partialProducts x y
  obtain ⟨h1, h2, h3, h4, hr2, hr3⟩ := hexact
  have hx : x.toNat = p.op2.toNat * 2 ^ 32 + p.op1.toNat := by
    have hlow : p.op1.toNat = x.toNat % 2 ^ 32 := toNat_and_low x
    have hhigh : p.op2.toNat = x.toNat / 2 ^ 32 := toNat_high x
    omega
  have hy : y.toNat = p.op4.toNat * 2 ^ 32 + p.op3.toNat := by
    have hlow : p.op3.toNat = y.toNat % 2 ^ 32 := toNat_and_low y
    have hhigh : p.op4.toNat = y.toNat / 2 ^ 32 := toNat_high y
    omega
  -- the product of the halves, with the four partial products as atoms
  have hproduct : x.toNat * y.toNat = p.op2.toNat * p.op4.toNat * 2 ^ 64 +
      (p.op1.toNat * p.op4.toNat + p.op2.toNat * p.op3.toNat) * 2 ^ 32 +
        p.op1.toNat * p.op3.toNat := by
    rw [hx, hy]
    ring
  rw [hproduct, HiLo.value_toNat]
  omega

/-! ### The signed product -/

/-- The negation by hand negates all 128 bits. -/
theorem negateHiLo_value (r : HiLo) : (negateHiLo r).value = -r.value := by
  have hhi := r.hi.isLt
  have hlo := r.lo.isLt
  apply BitVec.eq_of_toNat_eq
  rw [BitVec.toNat_neg, HiLo.value_toNat, HiLo.value_toNat]
  unfold negateHiLo
  by_cases hzero : r.lo = 0
  · rw [if_pos hzero]
    have hlow : r.lo.toNat = 0 := by rw [hzero]; rfl
    have hnot : (~~~r.hi + 1).toNat = (2 ^ 64 - 1 - r.hi.toNat + 1) % 2 ^ 64 := by
      rw [BitVec.toNat_add, BitVec.toNat_not]
      rfl
    dsimp only
    rw [hnot, hlow]
    omega
  · rw [if_neg hzero]
    have hpos : r.lo.toNat ≠ 0 := fun h => hzero (BitVec.eq_of_toNat_eq h)
    have hnot : (~~~r.lo + 1).toNat = (2 ^ 64 - 1 - r.lo.toNat + 1) % 2 ^ 64 := by
      rw [BitVec.toNat_add, BitVec.toNat_not]
      rfl
    dsimp only
    rw [hnot, BitVec.toNat_not]
    omega

theorem slt_zero_iff (r : BitVec 64) : r.slt 0 = true ↔ r.toInt < 0 := by
  rw [BitVec.slt_iff_toInt_lt]
  rfl

/-- The magnitude of `INT64_MIN` is `2 ^ 63`, read as an unsigned value. -/
theorem magnitude_toNat (r : BitVec 64) :
    ((magnitude r).toNat : ℤ) = if r.slt 0 then -r.toInt else r.toInt := by
  have hr := r.isLt
  unfold magnitude
  by_cases hneg : r.slt 0
  · rw [if_pos hneg, if_pos hneg]
    have hint := (slt_zero_iff r).1 hneg
    rw [BitVec.toNat_neg]
    rw [BitVec.toInt_eq_toNat_cond] at hint ⊢
    split at hint <;> omega
  · rw [if_neg hneg, if_neg hneg]
    have hint : ¬r.toInt < 0 := fun h => hneg ((slt_zero_iff r).2 h)
    rw [BitVec.toInt_eq_toNat_cond] at hint ⊢
    split at hint <;> omega

theorem magnitude_le (r : BitVec 64) : (magnitude r).toNat ≤ 2 ^ 63 := by
  have hmag := magnitude_toNat r
  have hlo := BitVec.le_toInt r
  have hhi : r.toInt < 2 ^ 63 := BitVec.toInt_lt
  split at hmag <;> omega

theorem toInt_of_small {v : BitVec 128} (h : v.toNat ≤ 2 ^ 126) : v.toInt = v.toNat := by
  rw [BitVec.toInt_eq_toNat_cond, if_pos (by omega)]

theorem toInt_neg_of_small {v : BitVec 128} (h : v.toNat ≤ 2 ^ 126) :
    (-v).toInt = -(v.toNat : ℤ) := by
  rw [BitVec.toInt_neg, toInt_of_small h]
  exact Int.bmod_eq_of_le (by omega) (by omega)

theorem dmult_toInt (rrs rrt : BitVec 64) :
    (dmult rrs rrt).value.toInt = rrs.toInt * rrt.toInt := by
  have hs := magnitude_toNat rrs
  have ht := magnitude_toNat rrt
  have hvalue := unsignedProduct_toNat (magnitude rrs) (magnitude rrt)
  unfold dmult
  dsimp only
  set r := (partialProducts (magnitude rrs) (magnitude rrt)).hiLo
  have hsmall : r.value.toNat ≤ 2 ^ 126 := by
    have hle : (magnitude rrs).toNat * (magnitude rrt).toNat ≤ 2 ^ 63 * 2 ^ 63 :=
      Nat.mul_le_mul (magnitude_le rrs) (magnitude_le rrt)
    omega
  have hcast : (r.value.toNat : ℤ) = (magnitude rrs).toNat * (magnitude rrt).toNat := by
    rw [hvalue]
    push_cast
    rfl
  have hpos := toInt_of_small hsmall
  have hneg := toInt_neg_of_small hsmall
  by_cases hslt : rrs.slt 0 <;> by_cases htlt : rrt.slt 0
  · rw [if_pos hslt] at hs
    rw [if_pos htlt] at ht
    rw [hslt, htlt, if_neg (by decide), hpos, hcast, hs, ht]
    ring
  · rw [if_pos hslt] at hs
    rw [if_neg htlt] at ht
    rw [hslt, Bool.eq_false_iff.2 htlt, if_pos (by decide), negateHiLo_value, hneg, hcast, hs, ht]
    ring
  · rw [if_neg hslt] at hs
    rw [if_pos htlt] at ht
    rw [Bool.eq_false_iff.2 hslt, htlt, if_pos (by decide), negateHiLo_value, hneg, hcast, hs, ht]
    ring
  · rw [if_neg hslt] at hs
    rw [if_neg htlt] at ht
    rw [Bool.eq_false_iff.2 hslt, Bool.eq_false_iff.2 htlt, if_neg (by decide), hpos, hcast, hs,
      ht]

/-- `DMULTU` leaves the exact unsigned product and `DMULT` the exact signed product, and no
    intermediate sum of either wraps. -/
theorem multiplications_exact (rrs rrt : BitVec 64) :
    ((dmultu rrs rrt).value.toNat = rrs.toNat * rrt.toNat ∧ (partialProducts rrs rrt).Exact) ∧
      ((dmult rrs rrt).value.toInt = rrs.toInt * rrt.toInt ∧
        (partialProducts (magnitude rrs) (magnitude rrt)).Exact) :=
  ⟨⟨unsignedProduct_toNat rrs rrt, partialProducts_exact rrs rrt⟩,
    dmult_toInt rrs rrt, partialProducts_exact (magnitude rrs) (magnitude rrt)⟩

example : (dmult 0x8000000000000000 0x8000000000000000).value = 1#128 <<< 126 := by decide

end Mupen64plus.R4300
