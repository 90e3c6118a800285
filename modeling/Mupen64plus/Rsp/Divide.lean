import Mathlib.Tactic.Common
import Mathlib.Tactic.IntervalCases
import Mupen64plus.Lib.Loops
import Mupen64plus.Rsp.Vector

/-!
# The reciprocal unit

`VRCP`, `VRSQ` and their double-precision forms normalise the operand, read a table of mantissas and
shift back. The halves of a double-precision operand come in two instructions, through globals that
all six share.

## Main definitions

- `divRom` — the table
- `doDiv` — the division; `normalise` is its loop
- `divStep`, `divRun` — the instructions

## Main results

- `normalise_eq` — the loop ends at the leading bit
- `divOutOf_antitone` — a greater operand has no greater result
- `divOutOf_neg` — the result of a negative operand
- `divide_run`
-/

namespace Mupen64plus

-- ════════════════════
-- The table
-- ════════════════════

/-- `div_ROM`, 16 entries in a row. -/
def divRows : List ℕ := [
  0xffffff00fe01fd04fc07fb0cfa11f918f81ff727f631f53bf446f352f25ff16d,
  0xf07cef8bee9cedaeecc0ebd3eae8e9fde913e829e741e65ae573e48de3a9e2c5,
  0xe1e1e0ffe01edf3dde5ddd7edca0dbc2dae6da0ad92fd854d77bd6a2d5cad4f3,
  0xd41dd347d272d19ed0cbcff8cf26ce55cd85ccb5cbe6cb18ca4bc97ec8b2c7e7,
  0xc71cc652c589c4c0c3f8c331c26bc1a5c0e0c01cbf58be95bdd2bd10bc4fbb8f,
  0xbacfba10b951b894b7d6b71ab65eb5a2b4e8b42eb374b2bbb203b14bb094afde,
  0xaf28ae73adbead0aac57aba4aaf1aa40a98ea8dea82ea77ea6d0a621a574a4c6,
  0xa41aa36ea2c2a217a16da0c3a01a9f719ec89e219d799cd39c2d9b879ae29a3d,
  0x999998f6985297b0970e966c95cb952b948b93eb934c92ad920f917290d49038,
  0x8f9c8f008e658dca8d308c968bfc8b648acb8a33899c8904886e87d8874286ad,
  0x8618858384f0845c83c9833682a48212818180f080607fd07f407eb17e227d93,
  0x7d057c787beb7b5e7ad27a4679ba792f78a4781a77907706767d75f5756c74e4,
  0x745d73d5734f72c8724271bc713770b2702e6fa96f266ea26e1f6d9c6d1a6c98,
  0x6c166b956b146a946a13699369146895681667986719669c661e65a1652464a8,
  0x642c63b0633562ba623f61c5614b60d160585fdf5f665eed5e755dfd5d865d0f,
  0x5c985c225bab5b355ac05a4b59d6596158ed587958055791571e56ac563955c7,
  0x555554e3547254015390532052af524051d0516150f2508350154fa64f384ecb,
  0x4e5e4df14d844d174cab4c3f4bd34b684afd4a924a2749bd495348e948804817,
  0x47ae474546dc4674460c45a5453d44d6446f440843a2433c42d64270420b41a6,
  0x414140dc407840143fb03f4c3ee83e853e223dc03d5d3cfb3c993c373bd63b74,
  0x3b133ab23a5239f13991393138d23872381337b4375536f73698363a35dc357f,
  0x352134c43467340a33ae335132f53299323e31e23187312c30d13076301c2fc2,
  0x2f682f0e2eb42e5b2e022da92d502cf82c9f2c472bef2b972b402ae82a912a3a,
  0x29e4298d293728e0288b283527df278a273526e0268b263625e2258d253924e5,
  0x2492243e23eb2398234522f222a0224d21fb21a92157210520b4206320121fc1,
  0x1f701f1f1ecf1e7f1e2e1ddf1d8f1d3f1cf01ca11c521c031bb41b661b171ac9,
  0x1a7b1a2d19e01992194518f818ab185e181117c41778172c16e01694164815fd,
  0x15b11566151b14d01485143b13f013a6135c131212c8127f123511ec11a31159,
  0x111110c8107f10370fef0fa60f5e0f170ecf0e870e400df90db20d6b0d240cdd,
  0x0c970c500c0a0bc40b7e0b380af20aad0a680a2209dd09980953090f08ca0886,
  0x084207fd07b90776073206ee06ab0668062405e1059e055c051904d604940452,
  0x041003ce038c034a030902c702860245020401c301820141010100c000800040,
  0x6a09ffff6955ff0068a1fe0267effd06673efc0b668dfb1265defa1a6530f923,
  0x6482f82e63d6f73b632bf6486280f55761d7f467612ef3796087f28c5fe0f1a0,
  0x5f3af0b65e95efcd5df1eee55d4eedff5caced195c0bec355b6beb525acbea71,
  0x5a2ce990598fe8b158f2e7d35855e6f657bae61b5720e5405686e46755ede38e,
  0x5555e2b754bee1e15427e10d5391e03952fcdf665268de9451d5ddc45142dcf4,
  0x50b0dc26501fdb594f8eda8c4efed9c14e6fd8f74de1d82d4d53d7654cc6d69e,
  0x4c3ad5d74bafd5124b24d44e4a9ad38a4a10d2c84987d20648ffd1464878d086,
  0x47f1cfc7476bcf0a46e5ce4d4660cd9145dcccd64558cc1b44d5cb624453caa9,
  0x43d1c9f2434fc93b42cfc885424fc7d041cfc71c4151c66940d2c5b64055c504,
  0x3fd8c4533f5bc3a33edfc2f43e64c2453de9c1983d6ec0eb3cf5c03f3c7cbf93,
  0x3c03bee93b8bbe3f3b13bd963a9cbced3a26bc4639b0bb9f393abaf838c5ba53,
  0x3851b9ae37ddb90a3769b86736f6b7c53684b7233612b68135a0b5e1352fb541,
  0x34bfb4a2344fb40433dfb3663370b2c93302b22c3293b1913226b0f531b9b05b,
  0x314cafc130dfaf283074ae8f3008adf72f9dad602f33acc92ec8ac332e5fab9e,
  0x2df6ab092d8daa752d24a9e12cbca94e2c55a8bc2beea82a2b87a7992b21a708,
  0x2abba6782a55a5e829f0a559298ba4cb2927a43d28c3a3b02860a32327fda297,
  0x279aa20b2738a18026d6a0f62674a06c26139fe225b29f5925529ed124f29e49,
  0x24929dc224329d3b23d39cb423759c2f23179ba922b99b25225b9aa021fe9a1c,
  0x21a199992145991620e89894208d9812203197911fd697101f7b968f1f21960f,
  0x1ec795901e6d95111e1394921dba94141d6193971d09931a1cb1929d1c599221,
  0x1c0191a51baa91291b5390af1afc90341aa68fba1a508f4019fa8ec719a58e4f,
  0x19508dd618fb8d5e18a78ce718538c7017ff8bf917ab8b8317588b0d17058a98,
  0x16b28a23166089ae160d893a15bc88c6156a8853151987e014c8876d147786fb,
  0x1426868913d68618138685a71337853612e784c612988456124983e711fb8377,
  0x11ac8309115e829a1111822c10c381bf10768151102980e40fdc80780f8f800c,
  0x0f437fa00ef77f340eab7ec90e607e5e0e157df40dca7d8a0d7f7d200d347cb6,
  0x0cea7c4d0ca07be50c567b7c0c0c7b140bc37aac0b7a7a450b3179de0ae87977,
  0x0aa079110a5878ab0a10784509c877df0981777a0939771508f276b108ab764d,
  0x086575e9081e758507d87522079274bf074d745d070773fa06c27398067d7337,
  0x063872d505f3727405af7213056a71b30526715204e270f2049f7093045b7033,
  0x04186fd403d56f7603926f1703506eb9030d6e5b02cb6dfd02896da002476d43,
  0x02066ce601c46c8a01836c2d01426bd101016b7600c06b1a00806abf00406a64]

def divRom (i : ℕ) : BitVec 16 := BitVec.ofNat 16 (divRows.getD (i / 16) 0 >>> (16 * (15 - i % 16)))

example : divRom 0 = 0xffff ∧ divRom 1 = 0xff00 ∧ divRom 1023 = 0x6a64 := by decide

-- ════════════════════
-- The division
-- ════════════════════

/-- `SP_DIV_PRECISION_SINGLE` and `SP_DIV_PRECISION_DOUBLE`. -/
inductive Precision where
  | single | double
  deriving DecidableEq, Repr

/-- `DivOut` after a division, with the shift and the index it used. -/
structure Division where
  shift : ℕ
  index : ℕ
  divOut : BitVec 32
  deriving DecidableEq, Repr

/-- The operand without its sign. -/
def divMagnitude (precision : Precision) (data : BitVec 32) : BitVec 32 :=
  match precision with
  | .single => if data.toInt < 0 then -data else data
  | .double => if data.toInt < 0 then (if -32768 ≤ data.toInt then -data else ~~~data) else data

/-- `addr <<= 1, shift++`. -/
def shiftTurn (p : BitVec 32 × ℕ) : BitVec 32 × ℕ := (p.1 <<< 1, p.2 + 1)

/-- `for (shift = 0; addr >= 0; addr <<= 1, shift++)`. -/
def normalise (fuel : ℕ) (addr : BitVec 32) : Option (BitVec 32 × ℕ) :=
  whileLoop (fun p => (0 : ℤ) ≤ p.1.toInt) shiftTurn fuel (addr, 0)

/-- The index of `div_ROM`. -/
def divIndex (sqrt : Bool) (addr : BitVec 32) (shift : ℕ) : ℕ :=
  let addr := (addr.sshiftRight 22 &&& 0x1ff#32).toNat
  if sqrt then addr &&& 0x1fe ||| (0x200 ||| shift &&& 1) else addr

/-- The entry of the table with its leading bit, shifted back. -/
def divQuotient (sqrt : Bool) (index shift : ℕ) : BitVec 32 :=
  let shift := shift ^^^ 31
  let shift := if sqrt then shift >>> 1 else shift
  (0x40000000#32 ||| (divRom index).setWidth 32 <<< 14) >>> shift

/-- The normalised operand and its shift. -/
def divAddr (fuel : ℕ) (precision : Precision) (data : BitVec 32) : Option (BitVec 32 × ℕ) :=
  if data = 0 then
    let shift := if precision = .single then 16 else 0
    some (data <<< shift, shift)
  else normalise fuel data

/-- The corner cases and the sign of `DivIn`. -/
def divCorner (divIn divOut : BitVec 32) : BitVec 32 :=
  if divIn = 0 then 0x7fffffff#32
  else if divIn.toInt = -32768 then -0x10000#32
  else divOut ^^^ (if divIn.toInt < 0 then 0xffffffff#32 else 0#32)

/-- `do_div`, with `DivIn` beside its parameters. -/
def doDiv (fuel : ℕ) (divIn data : BitVec 32) (sqrt : Bool) (precision : Precision) :
    Option Division :=
  (divAddr fuel precision (divMagnitude precision data)).map fun p =>
    let index := divIndex sqrt p.1 p.2
    { shift := p.2, index := index, divOut := divCorner divIn (divQuotient sqrt index p.2) }

-- ════════════════════
-- The loop
-- ════════════════════

theorem iterate_shiftTurn (addr : BitVec 32) (i : ℕ) :
    shiftTurn^[i] (addr, 0) = (addr <<< i, i) := by
  induction i with
  | zero => simp
  | succ i ih => rw [Function.iterate_succ_apply', ih, shiftTurn, BitVec.shiftLeft_add]

theorem toNat_shiftLeft_of_lt {addr : BitVec 32} {i p : ℕ} (hp : addr.toNat < 2 ^ p)
    (hi : p + i ≤ 32) :
    (addr <<< i).toNat = addr.toNat * 2 ^ i ∧ addr.toNat * 2 ^ i < 2 ^ (p + i) := by
  have hlt : addr.toNat * 2 ^ i < 2 ^ (p + i) := by
    rw [pow_add]
    exact Nat.mul_lt_mul_of_pos_right hp (Nat.two_pow_pos i)
  refine ⟨?_, hlt⟩
  have hbound : (2 : ℕ) ^ (p + i) ≤ 2 ^ 32 := Nat.pow_le_pow_right (by decide) hi
  rw [BitVec.toNat_shiftLeft, Nat.shiftLeft_eq, Nat.mod_eq_of_lt (by omega)]

theorem toInt_nonneg_iff (x : BitVec 32) : 0 ≤ x.toInt ↔ x.toNat < 2 ^ 31 := by
  have := x.isLt
  rw [BitVec.toInt_eq_toNat_cond]
  split <;> omega

/-- The shifts end at the leading bit. -/
theorem normalise_eq {addr : BitVec 32} (haddr : addr ≠ 0) :
    normalise 32 addr =
      some (addr <<< (31 - addr.toNat.log2), 31 - addr.toNat.log2) := by
  have hne : addr.toNat ≠ 0 := fun h => haddr (BitVec.eq_of_toNat_eq h)
  have hlog : addr.toNat.log2 ≤ 31 := by
    have := (Nat.log2_lt hne).2 addr.isLt
    omega
  have hself : addr.toNat < 2 ^ (addr.toNat.log2 + 1) := Nat.lt_log2_self
  have hle : 2 ^ addr.toNat.log2 ≤ addr.toNat := Nat.log2_self_le hne
  have hgo : ∀ i < 31 - addr.toNat.log2,
      decide ((0 : ℤ) ≤ (shiftTurn^[i] (addr, 0)).1.toInt) = true := by
    intro i hi
    obtain ⟨heq, hlt⟩ := toNat_shiftLeft_of_lt (i := i) hself (by omega)
    have hpow : (2 : ℕ) ^ (addr.toNat.log2 + 1 + i) ≤ 2 ^ 31 :=
      Nat.pow_le_pow_right (by decide) (by omega)
    rw [iterate_shiftTurn]
    exact decide_eq_true ((toInt_nonneg_iff _).2 (by rw [heq]; omega))
  have hstop :
      ¬decide ((0 : ℤ) ≤ (shiftTurn^[31 - addr.toNat.log2] (addr, 0)).1.toInt) = true := by
    obtain ⟨heq, -⟩ := toNat_shiftLeft_of_lt (i := 31 - addr.toNat.log2) hself (by omega)
    have hpow : 2 ^ 31 = 2 ^ addr.toNat.log2 * 2 ^ (31 - addr.toNat.log2) := by
      rw [← pow_add]
      congr 1
      omega
    have hmul := Nat.mul_le_mul_right (2 ^ (31 - addr.toNat.log2)) hle
    rw [iterate_shiftTurn]
    intro h
    have hneg := (toInt_nonneg_iff _).1 (of_decide_eq_true h)
    rw [heq] at hneg
    omega
  rw [normalise, whileLoop_eq hgo hstop, if_pos (by omega), iterate_shiftTurn]

-- ════════════════════
-- The table lookup
-- ════════════════════

theorem divIndex_lt (sqrt : Bool) (addr : BitVec 32) (shift : ℕ) :
    divIndex sqrt addr shift < 1024 := by
  have haddr : (addr.sshiftRight 22 &&& 0x1ff#32).toNat < 2 ^ 9 := by
    rw [BitVec.toNat_and]
    exact Nat.and_lt_two_pow _ (by decide)
  unfold divIndex
  cases sqrt with
  | false => exact lt_trans haddr (by decide)
  | true =>
    have hparity : shift &&& 1 < 2 ^ 10 := lt_of_le_of_lt Nat.and_le_right (by decide)
    exact Nat.or_lt_two_pow (Nat.and_lt_two_pow _ (by decide))
      (Nat.or_lt_two_pow (by decide) hparity)

/-- The nine bits below the leading one. -/
def fraction (m : ℕ) : ℕ := m * 2 ^ (31 - m.log2) / 2 ^ 22 % 512

/-- The exponent of a quotient, and the row of its mantissa. -/
def divKey (sqrt : Bool) (m : ℕ) : ℕ × ℕ :=
  if sqrt then (m.log2 / 2, 256 * (m.log2 % 2) + fraction m / 2) else (m.log2, fraction m)

/-- The mantissas in the order of the operands. -/
def divMantissa (sqrt : Bool) (k : ℕ) : ℕ :=
  (divRom (if sqrt then (if k < 256 then 0x201 + 2 * k else 2 * k) else k)).toNat

def divValue (sqrt : Bool) (m : ℕ) : ℕ :=
  (2 ^ 30 + divMantissa sqrt (divKey sqrt m).2 * 2 ^ 14) / 2 ^ (divKey sqrt m).1

theorem toNat_window (x : BitVec 32) :
    (x.sshiftRight 22 &&& 0x1ff#32).toNat = x.toNat / 2 ^ 22 % 512 := by
  have hbits : x.sshiftRight 22 &&& 0x1ff#32 = x >>> 22 &&& 0x1ff#32 := by
    ext i hi
    rw [BitVec.getElem_and, BitVec.getElem_and, BitVec.getElem_sshiftRight,
      BitVec.getElem_ushiftRight]
    split
    case isTrue => rw [BitVec.getLsbD_eq_getElem]
    case isFalse hout =>
      have hpow : (2 : ℕ) ^ 9 ≤ 2 ^ i := Nat.pow_le_pow_right (by decide) (by omega)
      have hclear : (0x1ff#32)[i] = false :=
        Nat.testBit_lt_two_pow (lt_of_lt_of_le (by decide) hpow)
      rw [hclear, Bool.and_false, Bool.and_false]
  rw [hbits, BitVec.toNat_and, BitVec.toNat_ushiftRight, Nat.shiftRight_eq_div_pow]
  exact Nat.and_two_pow_sub_one_eq_mod _ 9

theorem toNat_quotient (r : BitVec 16) (e : ℕ) :
    ((0x40000000#32 ||| r.setWidth 32 <<< 14) >>> e).toNat =
      (2 ^ 30 + r.toNat * 2 ^ 14) / 2 ^ e := by
  have hr := r.isLt
  have hshift : (r.setWidth 32 <<< 14).toNat = r.toNat * 2 ^ 14 := by
    rw [BitVec.toNat_shiftLeft, BitVec.toNat_setWidth_of_le (by decide), Nat.shiftLeft_eq,
      Nat.mod_eq_of_lt (by omega)]
  have hor := Nat.two_pow_add_eq_or_of_lt (i := 30) (b := r.toNat * 2 ^ 14) (by omega) 1
  rw [BitVec.toNat_ushiftRight, Nat.shiftRight_eq_div_pow, BitVec.toNat_or, hshift,
    show (0x40000000#32).toNat = 2 ^ 30 * 1 from rfl, ← hor, mul_one]

set_option maxRecDepth 4000 in
theorem sqrtIndex_eq :
    ∀ f < 512, ∀ b < 2, f &&& 0x1fe ||| (0x200 ||| b) = 0x200 + 2 * (f / 2) + b := by
  decide

/-- What the table lookup computes. -/
theorem divQuotient_toNat (sqrt : Bool) {addr : BitVec 32} (haddr : addr ≠ 0) :
    (divQuotient sqrt
      (divIndex sqrt (addr <<< (31 - addr.toNat.log2)) (31 - addr.toNat.log2))
      (31 - addr.toNat.log2)).toNat = divValue sqrt addr.toNat := by
  have hne : addr.toNat ≠ 0 := fun h => haddr (BitVec.eq_of_toNat_eq h)
  have hlog : addr.toNat.log2 ≤ 31 := by
    have := (Nat.log2_lt hne).2 addr.isLt
    omega
  obtain ⟨hshift, -⟩ := toNat_shiftLeft_of_lt (i := 31 - addr.toNat.log2)
    (p := addr.toNat.log2 + 1) Nat.lt_log2_self (by omega)
  have hfraction : ((addr <<< (31 - addr.toNat.log2)).sshiftRight 22 &&& 0x1ff#32).toNat =
      fraction addr.toNat := by
    rw [toNat_window, hshift, fraction]
  have hlt : fraction addr.toNat < 512 := Nat.mod_lt _ (by decide)
  have hflip : (31 - addr.toNat.log2) ^^^ 31 = addr.toNat.log2 := by
    generalize addr.toNat.log2 = p at hlog
    interval_cases p <;> rfl
  unfold divQuotient divIndex divValue divKey divMantissa
  dsimp only
  rw [toNat_quotient, hfraction, hflip]
  cases sqrt with
  | false => rfl
  | true =>
    have hindex := sqrtIndex_eq _ hlt ((31 - addr.toNat.log2) % 2) (Nat.mod_lt _ (by decide))
    have hrow : 0x200 + 2 * (fraction addr.toNat / 2) + (31 - addr.toNat.log2) % 2 =
        if 256 * (addr.toNat.log2 % 2) + fraction addr.toNat / 2 < 256 then
          0x201 + 2 * (256 * (addr.toNat.log2 % 2) + fraction addr.toNat / 2)
        else 2 * (256 * (addr.toNat.log2 % 2) + fraction addr.toNat / 2) := by
      split <;> omega
    simp only [if_true]
    rw [Nat.and_one_is_mod, hindex, hrow, Nat.shiftRight_eq_div_pow, pow_one]

-- ════════════════════
-- The order
-- ════════════════════

theorem divMantissa_lt (sqrt : Bool) (k : ℕ) : divMantissa sqrt k < 2 ^ 16 :=
  (divRom _).isLt

set_option maxRecDepth 4000 in
theorem divMantissa_succ : ∀ sqrt, ∀ k < 511, divMantissa sqrt (k + 1) ≤ divMantissa sqrt k := by
  decide

theorem divMantissa_antitone (sqrt : Bool) {k l : ℕ} (hkl : k ≤ l) (hl : l < 512) :
    divMantissa sqrt l ≤ divMantissa sqrt k := by
  induction l, hkl using Nat.le_induction with
  | base => exact le_rfl
  | succ l _ ih => exact (divMantissa_succ sqrt l (by omega)).trans (ih (by omega))

theorem divKey_lt (sqrt : Bool) (m : ℕ) : (divKey sqrt m).2 < 512 := by
  have hlt : fraction m < 512 := Nat.mod_lt _ (by decide)
  cases sqrt with
  | false => exact hlt
  | true =>
    change 256 * (m.log2 % 2) + fraction m / 2 < 512
    omega

/-- With one leading bit the fractions are in the order of the operands. -/
theorem fraction_le {m n : ℕ} (hm : m ≠ 0) (hmn : m ≤ n) (hlog : m.log2 = n.log2)
    (hn : n < 2 ^ 32) : fraction m ≤ fraction n := by
  have hn0 : n ≠ 0 := by omega
  have hlog31 : n.log2 ≤ 31 := by
    have := (Nat.log2_lt hn0).2 hn
    omega
  have hwindow : ∀ a : ℕ, a ≠ 0 → a.log2 = n.log2 →
      512 ≤ a * 2 ^ (31 - n.log2) / 2 ^ 22 ∧ a * 2 ^ (31 - n.log2) / 2 ^ 22 < 1024 := by
    intro a ha heq
    have hpow : 2 ^ n.log2 * 2 ^ (31 - n.log2) = 2 ^ 31 := by
      rw [← pow_add]
      congr 1
      omega
    have hle : 2 ^ n.log2 ≤ a := heq ▸ Nat.log2_self_le ha
    have hlt : a < 2 ^ n.log2 * 2 := heq ▸ Nat.lt_log2_self
    have h1 := Nat.mul_le_mul_right (2 ^ (31 - n.log2)) hle
    have h2 := Nat.mul_lt_mul_of_pos_right hlt (Nat.two_pow_pos (31 - n.log2))
    rw [mul_right_comm] at h2
    omega
  have hm' := hwindow m hm hlog
  have hn' := hwindow n hn0 rfl
  have hle : m * 2 ^ (31 - n.log2) / 2 ^ 22 ≤ n * 2 ^ (31 - n.log2) / 2 ^ 22 :=
    Nat.div_le_div_right (Nat.mul_le_mul_right _ hmn)
  unfold fraction
  rw [hlog]
  omega

/-- The keys are in the lexicographic order of the operands. -/
theorem divKey_le (sqrt : Bool) {m n : ℕ} (hm : m ≠ 0) (hmn : m ≤ n) (hn : n < 2 ^ 32) :
    (divKey sqrt m).1 < (divKey sqrt n).1 ∨
      (divKey sqrt m).1 = (divKey sqrt n).1 ∧ (divKey sqrt m).2 ≤ (divKey sqrt n).2 := by
  have hlog : m.log2 ≤ n.log2 := (Nat.le_log2 (by omega)).2 ((Nat.log2_self_le hm).trans hmn)
  have hlt : fraction m < 512 := Nat.mod_lt _ (by decide)
  have hsame : m.log2 = n.log2 → fraction m ≤ fraction n := fun h => fraction_le hm hmn h hn
  cases sqrt with
  | false =>
    change m.log2 < n.log2 ∨ m.log2 = n.log2 ∧ fraction m ≤ fraction n
    omega
  | true =>
    change m.log2 / 2 < n.log2 / 2 ∨ m.log2 / 2 = n.log2 / 2 ∧
      256 * (m.log2 % 2) + fraction m / 2 ≤ 256 * (n.log2 % 2) + fraction n / 2
    omega

/-- A greater operand has no greater quotient. -/
theorem divValue_antitone (sqrt : Bool) {m n : ℕ} (hm : m ≠ 0) (hmn : m ≤ n) (hn : n < 2 ^ 32) :
    divValue sqrt n ≤ divValue sqrt m := by
  have hmantissa := divMantissa_lt sqrt (divKey sqrt n).2
  unfold divValue
  rcases divKey_le sqrt hm hmn hn with hexp | ⟨hexp, hrow⟩
  · -- a greater exponent halves the quotient at least
    obtain ⟨d, hd⟩ := Nat.exists_eq_add_of_lt hexp
    have hhalf : 2 ^ (divKey sqrt n).1 = 2 ^ (divKey sqrt m).1 * 2 ^ d * 2 := by
      rw [hd]
      ring
    calc
      (2 ^ 30 + divMantissa sqrt (divKey sqrt n).2 * 2 ^ 14) / 2 ^ (divKey sqrt n).1
          ≤ 2 ^ 30 * 2 / 2 ^ (divKey sqrt n).1 := Nat.div_le_div_right (by omega)
      _ = 2 ^ 30 / (2 ^ (divKey sqrt m).1 * 2 ^ d) := by
        rw [hhalf, Nat.mul_div_mul_right _ _ (by decide)]
      _ ≤ 2 ^ 30 / 2 ^ (divKey sqrt m).1 :=
        Nat.div_le_div_left (Nat.le_mul_of_pos_right _ (Nat.two_pow_pos d)) (Nat.two_pow_pos _)
      _ ≤ _ := Nat.div_le_div_right (by omega)
  · rw [hexp]
    have hle := divMantissa_antitone sqrt hrow (divKey_lt sqrt n)
    exact Nat.div_le_div_right (by omega)


-- ════════════════════
-- The result
-- ════════════════════

/-- The division ends, after at most 31 shifts, with an index inside the table. -/
theorem doDiv_inRange (divIn data : BitVec 32) (sqrt : Bool) (precision : Precision) :
    ∃ d, doDiv 32 divIn data sqrt precision = some d ∧ d.shift ≤ 31 ∧ d.index < 1024 := by
  unfold doDiv
  by_cases hdata : divMagnitude precision data = 0
  · refine ⟨_, by rw [divAddr, if_pos hdata]; rfl, ?_, divIndex_lt ..⟩
    change (if precision = .single then 16 else 0) ≤ 31
    split <;> decide
  · rw [divAddr, if_neg hdata, normalise_eq hdata]
    exact ⟨_, rfl, Nat.sub_le .., divIndex_lt ..⟩

/-- `DivOut` after a division of `DivIn`. -/
def divOutOf (sqrt : Bool) (precision : Precision) (divIn : BitVec 32) : Option (BitVec 32) :=
  (doDiv 32 divIn divIn sqrt precision).map (·.divOut)

/-- What a division gives whose operand has the magnitude `m`. -/
theorem divOutOf_eq (sqrt : Bool) {precision : Precision} {divIn m : BitVec 32}
    (hm : divMagnitude precision divIn = m) (hne : m ≠ 0) :
    divOutOf sqrt precision divIn =
      some (divCorner divIn (BitVec.ofNat 32 (divValue sqrt m.toNat))) := by
  rw [divOutOf, doDiv, hm, divAddr, if_neg hne, normalise_eq hne, ← divQuotient_toNat sqrt hne,
    BitVec.ofNat_toNat, BitVec.setWidth_eq]
  rfl

theorem divMagnitude_of_pos (precision : Precision) {a : BitVec 32} (ha : 0 < a.toInt) :
    divMagnitude precision a = a := by
  have hnot : ¬a.toInt < 0 := by omega
  cases precision <;> exact if_neg hnot

theorem ne_zero_of_toInt_pos {a : BitVec 32} (ha : 0 < a.toInt) : a ≠ 0 := by
  rintro rfl
  exact absurd ha (by decide)

theorem divCorner_of_pos {a : BitVec 32} (ha : 0 < a.toInt) (q : BitVec 32) :
    divCorner a q = q := by
  rw [divCorner, if_neg (ne_zero_of_toInt_pos ha), if_neg (by omega), if_neg (by omega),
    BitVec.xor_zero]

/-- The quotient of a positive operand. -/
theorem divOutOf_of_pos (sqrt : Bool) (precision : Precision) {a : BitVec 32} (ha : 0 < a.toInt) :
    divOutOf sqrt precision a = some (BitVec.ofNat 32 (divValue sqrt a.toNat)) := by
  rw [divOutOf_eq sqrt (divMagnitude_of_pos precision ha) (ne_zero_of_toInt_pos ha),
    divCorner_of_pos ha]

theorem divValue_lt (sqrt : Bool) (m : ℕ) : divValue sqrt m < 2 ^ 31 := by
  have hmantissa := divMantissa_lt sqrt (divKey sqrt m).2
  exact lt_of_le_of_lt (Nat.div_le_self ..) (by omega)

theorem toInt_ofNat_divValue (sqrt : Bool) (m : ℕ) :
    (BitVec.ofNat 32 (divValue sqrt m)).toInt = divValue sqrt m := by
  have hlt := divValue_lt sqrt m
  rw [BitVec.toInt_eq_toNat_cond, BitVec.toNat_ofNat, Nat.mod_eq_of_lt (by omega),
    if_pos (by omega)]

/-- A greater operand has no greater result. -/
theorem divOutOf_antitone (sqrt : Bool) (precision : Precision) {a b : BitVec 32}
    (ha : 0 < a.toInt) (hab : a.toInt < b.toInt) :
    ∃ x y, divOutOf sqrt precision a = some x ∧ divOutOf sqrt precision b = some y ∧
      y.toInt ≤ x.toInt := by
  have hne : a.toNat ≠ 0 := fun h => ne_zero_of_toInt_pos ha (BitVec.eq_of_toNat_eq h)
  have hle : a.toNat ≤ b.toNat := by
    rw [BitVec.toInt_eq_toNat_cond] at ha hab
    rw [BitVec.toInt_eq_toNat_cond] at hab
    have := b.isLt
    split at hab <;> split at ha <;> omega
  refine ⟨_, _, divOutOf_of_pos sqrt precision ha,
    divOutOf_of_pos sqrt precision (ha.trans hab), ?_⟩
  rw [toInt_ofNat_divValue, toInt_ofNat_divValue]
  exact_mod_cast divValue_antitone sqrt hne hle b.isLt

theorem toInt_neg_of_pos {a : BitVec 32} (ha : 0 < a.toInt) : (-a).toInt = -a.toInt := by
  have hlt := BitVec.toInt_lt (x := a)
  rw [BitVec.toInt_neg, Int.bmod_def]
  split <;> omega

theorem divCorner_of_neg {d : BitVec 32} (hd : d.toInt < 0) (hbarrier : d.toInt ≠ -32768)
    (q : BitVec 32) : divCorner d q = ~~~q := by
  have hne : d ≠ 0 := by
    rintro rfl
    exact absurd hd (by decide)
  rw [divCorner, if_neg hne, if_neg hbarrier, if_pos hd]
  exact BitVec.xor_allOnes

/-- The magnitude of a negative operand of a single division, and of a small one. -/
theorem divMagnitude_neg {precision : Precision} {a : BitVec 32} (ha : 0 < a.toInt)
    (hsmall : precision = .single ∨ a.toInt ≤ 32768) : divMagnitude precision (-a) = a := by
  have hneg := toInt_neg_of_pos ha
  cases precision with
  | single => rw [divMagnitude, if_pos (by omega), neg_neg]
  | double =>
    have hle := hsmall.resolve_left (by decide)
    rw [divMagnitude, if_pos (by omega), if_pos (by omega), neg_neg]

/-- The magnitude of a negative operand below the barrier of a double division. -/
theorem divMagnitude_neg_double {a : BitVec 32} (ha : 32768 < a.toInt) :
    divMagnitude .double (-a) = a - 1#32 := by
  have hneg := toInt_neg_of_pos (a := a) (by omega)
  rw [divMagnitude, if_pos (by omega), if_neg (by omega), BitVec.not_neg]

/-- The result of a negative operand. -/
theorem divOutOf_neg (sqrt : Bool) (precision : Precision) {a : BitVec 32} (ha : 0 < a.toInt) :
    divOutOf sqrt precision (-a) =
      if a.toInt = 32768 then some (-0x10000#32)
      else if precision = .double ∧ 32768 < a.toInt then
        (divOutOf sqrt precision (a - 1#32)).map (~~~·)
      else (divOutOf sqrt precision a).map (~~~·) := by
  have hneg := toInt_neg_of_pos ha
  split
  next hbarrier =>
    have hne : -a ≠ 0 := neg_ne_zero.2 (ne_zero_of_toInt_pos ha)
    rw [divOutOf_eq sqrt (divMagnitude_neg ha (Or.inr (by omega))) (ne_zero_of_toInt_pos ha),
      divCorner, if_neg hne, if_pos (by omega)]
  next hbarrier =>
    split
    next hlarge =>
      obtain ⟨rfl, hlt⟩ := hlarge
      have hpred : 0 < (a - 1#32).toInt := by
        have hlt' := BitVec.toInt_lt (x := a)
        rw [BitVec.toInt_sub, BitVec.toInt_one (by decide), Int.bmod_def]
        split <;> omega
      rw [divOutOf_eq sqrt (divMagnitude_neg_double hlt) (ne_zero_of_toInt_pos hpred),
        divCorner_of_neg (by omega) (by omega), divOutOf_of_pos sqrt .double hpred, Option.map_some]
    next hsmall =>
      have hcase : precision = .single ∨ a.toInt ≤ 32768 := by
        cases precision with
        | single => exact Or.inl rfl
        | double => exact Or.inr (not_lt.1 fun h => hsmall ⟨rfl, h⟩)
      rw [divOutOf_eq sqrt (divMagnitude_neg ha hcase) (ne_zero_of_toInt_pos ha),
        divCorner_of_neg (by omega) (by omega), divOutOf_of_pos sqrt precision ha, Option.map_some]

-- ════════════════════
-- The instructions
-- ════════════════════

inductive DivOp where
  | vrcp | vrcpl | vrcph | vrsq | vrsql | vrsqh
  deriving DecidableEq, Repr

/-- `VR`, `VACC_L` and the globals of the divisions. -/
structure DivState where
  vr : ℕ → V16
  accL : V16
  divIn : BitVec 32
  divOut : BitVec 32
  dph : Precision

/-- The globals before the first division. -/
def DivState.initial (vr : ℕ → V16) (accL : V16) : DivState :=
  ⟨vr, accL, 0, 0, .single⟩

/-- An instruction word, with the operand that the decoder has shuffled. -/
structure DivCall where
  op : DivOp
  inst : BitVec 32
  vt : V16

namespace DivCall

def result (c : DivCall) : ℕ := ((c.inst &&& 0x7ff) >>> 6).toNat

/-- `source & 07`. -/
def source (c : DivCall) : Lane := Fin.ofNat 8 ((c.inst &&& 0xffff) >>> 11).toNat

def target (c : DivCall) : ℕ := (c.inst >>> 16 &&& 31).toNat

def element (c : DivCall) : Lane := Fin.ofNat 8 (c.inst >>> 21 &&& 7).toNat

/-- `VR[target][element]`. -/
def half (c : DivCall) (s : DivState) : BitVec 16 := s.vr c.target c.element

end DivCall

def DivState.setLane (s : DivState) (c : DivCall) (v : BitVec 16) : DivState :=
  { s with
    accL := c.vt
    vr := Function.update s.vr c.result (Function.update (s.vr c.result) c.source v) }

/-- `VRCP` and `VRSQ`. -/
def singleDivide (fuel : ℕ) (sqrt : Bool) (s : DivState) (c : DivCall) :
    Option (DivState × Division) :=
  let divIn := (c.half s).signExtend 32
  (doDiv fuel divIn divIn sqrt .single).map fun d =>
    ({ s with divIn := divIn, divOut := d.divOut, dph := .single }.setLane c
      (d.divOut.setWidth 16), d)

/-- `VRCPL` and `VRSQL`. -/
def lowDivide (fuel : ℕ) (sqrt : Bool) (s : DivState) (c : DivCall) :
    Option (DivState × Division) :=
  let divIn :=
    match s.dph with
    | .single => (c.half s).signExtend 32
    | .double => s.divIn ||| (c.half s).setWidth 32
  (doDiv fuel divIn divIn sqrt s.dph).map fun d =>
    ({ s with divIn := divIn, divOut := d.divOut, dph := .single }.setLane c
      (d.divOut.setWidth 16), d)

/-- `VRCPH` and `VRSQH`. -/
def highDivide (s : DivState) (c : DivCall) : DivState :=
  { s with divIn := (c.half s).signExtend 32 <<< 16, dph := .double }.setLane c
    ((s.divOut.sshiftRight 16).setWidth 16)

/-- What an instruction did: the half it took, `DivIn` after it and its division. -/
structure DivRecord where
  op : DivOp
  half : BitVec 16
  divIn : BitVec 32
  division : Option Division

def divStep (fuel : ℕ) (s : DivState) (c : DivCall) : Option (DivState × DivRecord) :=
  let record (s' : DivState) (division : Option Division) : DivState × DivRecord :=
    (s', ⟨c.op, c.half s, s'.divIn, division⟩)
  match c.op with
  | .vrcp => (singleDivide fuel false s c).map fun r => record r.1 r.2
  | .vrcpl => (lowDivide fuel false s c).map fun r => record r.1 r.2
  | .vrcph => some (record (highDivide s c) none)
  | .vrsq => (singleDivide fuel true s c).map fun r => record r.1 r.2
  | .vrsql => (lowDivide fuel true s c).map fun r => record r.1 r.2
  | .vrsqh => some (record (highDivide s c) none)

/-- What the instructions of a sequence did. -/
def divRun (fuel : ℕ) (s : DivState) : List DivCall → Option (List DivRecord)
  | [] => some []
  | c :: calls =>
    (divStep fuel s c).bind fun r => (divRun fuel r.1 calls).map fun records => r.2 :: records

-- ════════════════════
-- Sequences of instructions
-- ════════════════════

/-- The two halves of a double-precision operand. -/
theorem halves_eq_append (h l : BitVec 16) :
    h.signExtend 32 <<< 16 ||| l.setWidth 32 = h ++ l := by
  ext i hi
  rw [BitVec.getElem_or, BitVec.getElem_shiftLeft, BitVec.getElem_append, BitVec.getElem_setWidth]
  by_cases hlow : i < 16
  · rw [dif_pos hlow, BitVec.getLsbD_eq_getElem hlow]
    simp [hlow]
  · rw [dif_neg hlow, BitVec.getLsbD_of_ge _ _ (by omega), Bool.or_false, BitVec.getElem_signExtend,
      dif_pos (by omega)]
    simp [hlow]

namespace DivRecord

/-- The half that a high instruction leaves for the next one. -/
def high? (r : DivRecord) : Option (BitVec 16) :=
  match r.op with
  | .vrcph | .vrsqh => some r.half
  | _ => none

/-- The division of an operand, whose loop ended with an index inside the table. -/
def Divides (r : DivRecord) (sqrt : Bool) (precision : Precision) (operand : BitVec 32) : Prop :=
  r.divIn = operand ∧ r.division = doDiv 32 operand operand sqrt precision ∧
    ∃ d, r.division = some d ∧ d.shift ≤ 31 ∧ d.index < 1024

/-- A low half divides the concatenation with the high half before it. -/
def DividesLow (r : DivRecord) (sqrt : Bool) : Option (BitVec 16) → Prop
  | some h => r.Divides sqrt .double (h ++ r.half)
  | none => r.Divides sqrt .single (r.half.signExtend 32)

/-- What an instruction does after one that left the half `high`. -/
def Exact (high : Option (BitVec 16)) (r : DivRecord) : Prop :=
  match r.op with
  | .vrcp => r.Divides false .single (r.half.signExtend 32)
  | .vrcpl => r.DividesLow false high
  | .vrsq => r.Divides true .single (r.half.signExtend 32)
  | .vrsql => r.DividesLow true high
  | .vrcph | .vrsqh => r.division = none

end DivRecord

def RecordsExact : Option (BitVec 16) → List DivRecord → Prop
  | _, [] => True
  | high, r :: records => r.Exact high ∧ RecordsExact r.high? records

/-- The globals after an instruction that left the half `high`. -/
def DivState.Holds (s : DivState) : Option (BitVec 16) → Prop
  | some h => s.dph = .double ∧ s.divIn = h.signExtend 32 <<< 16
  | none => s.dph = .single

theorem singleDivide_spec (sqrt : Bool) (s : DivState) (c : DivCall) :
    ∃ s' d, singleDivide 32 sqrt s c = some (s', d) ∧ s'.dph = .single ∧
      DivRecord.Divides ⟨c.op, c.half s, s'.divIn, some d⟩ sqrt .single
        ((c.half s).signExtend 32) := by
  obtain ⟨d, hd, hrange⟩ := doDiv_inRange ((c.half s).signExtend 32) ((c.half s).signExtend 32)
    sqrt .single
  refine ⟨_, d, by rw [singleDivide, hd]; rfl, rfl, rfl, hd.symm, d, rfl, hrange⟩

theorem lowDivide_spec (sqrt : Bool) {s : DivState} {high : Option (BitVec 16)}
    (hs : s.Holds high) (c : DivCall) :
    ∃ s' d, lowDivide 32 sqrt s c = some (s', d) ∧ s'.dph = .single ∧
      DivRecord.DividesLow ⟨c.op, c.half s, s'.divIn, some d⟩ sqrt high := by
  unfold lowDivide
  cases high with
  | none =>
    have hdph : s.dph = .single := hs
    obtain ⟨d, hd, hrange⟩ := doDiv_inRange ((c.half s).signExtend 32)
      ((c.half s).signExtend 32) sqrt .single
    rw [hdph]
    dsimp only
    rw [hd]
    exact ⟨_, d, rfl, rfl, rfl, hd.symm, d, rfl, hrange⟩
  | some h =>
    obtain ⟨hdph, hdivIn⟩ := hs
    obtain ⟨d, hd, hrange⟩ := doDiv_inRange (h ++ c.half s) (h ++ c.half s) sqrt .double
    rw [hdph, hdivIn]
    dsimp only
    rw [halves_eq_append, hd]
    exact ⟨_, d, rfl, rfl, rfl, hd.symm, d, rfl, hrange⟩

/-- Every instruction ends, with the operand that the one before it has prepared. -/
theorem divStep_exact {s : DivState} {high : Option (BitVec 16)} (hs : s.Holds high)
    (c : DivCall) :
    ∃ s' r, divStep 32 s c = some (s', r) ∧ r.Exact high ∧ s'.Holds r.high? := by
  obtain ⟨op, inst, vt⟩ := c
  unfold divStep
  cases op with
  | vrcp =>
    obtain ⟨s', d, heq, hdph, hdiv⟩ := singleDivide_spec false s ⟨.vrcp, inst, vt⟩
    refine ⟨s', ⟨.vrcp, DivCall.half ⟨.vrcp, inst, vt⟩ s, s'.divIn, some d⟩, ?_, hdiv, hdph⟩
    simp only [heq]
    rfl
  | vrcpl =>
    obtain ⟨s', d, heq, hdph, hdiv⟩ := lowDivide_spec false hs ⟨.vrcpl, inst, vt⟩
    refine ⟨s', ⟨.vrcpl, DivCall.half ⟨.vrcpl, inst, vt⟩ s, s'.divIn, some d⟩, ?_, hdiv, hdph⟩
    simp only [heq]
    rfl
  | vrcph => exact ⟨_, _, rfl, rfl, rfl, rfl⟩
  | vrsq =>
    obtain ⟨s', d, heq, hdph, hdiv⟩ := singleDivide_spec true s ⟨.vrsq, inst, vt⟩
    refine ⟨s', ⟨.vrsq, DivCall.half ⟨.vrsq, inst, vt⟩ s, s'.divIn, some d⟩, ?_, hdiv, hdph⟩
    simp only [heq]
    rfl
  | vrsql =>
    obtain ⟨s', d, heq, hdph, hdiv⟩ := lowDivide_spec true hs ⟨.vrsql, inst, vt⟩
    refine ⟨s', ⟨.vrsql, DivCall.half ⟨.vrsql, inst, vt⟩ s, s'.divIn, some d⟩, ?_, hdiv, hdph⟩
    simp only [heq]
    rfl
  | vrsqh => exact ⟨_, _, rfl, rfl, rfl, rfl⟩

theorem divRun_exact {s : DivState} {high : Option (BitVec 16)} (hs : s.Holds high)
    (calls : List DivCall) :
    ∃ records, divRun 32 s calls = some records ∧ RecordsExact high records := by
  induction calls generalizing s high with
  | nil => exact ⟨[], rfl, trivial⟩
  | cons c calls ih =>
    obtain ⟨s', r, hstep, hexact, hs'⟩ := divStep_exact hs c
    obtain ⟨records, hrun, hrecords⟩ := ih hs'
    refine ⟨r :: records, ?_, hexact, hrecords⟩
    rw [divRun, hstep, Option.bind_some, hrun, Option.map_some]

/-- Sequences of divisions, the order of their results and the results of negative operands. -/
theorem divide_run (vr : ℕ → V16) (accL : V16) (calls : List DivCall) :
    (∃ records, divRun 32 (.initial vr accL) calls = some records ∧ RecordsExact none records) ∧
      (∀ sqrt precision (a b : BitVec 32), 0 < a.toInt → a.toInt < b.toInt →
        ∃ x y, divOutOf sqrt precision a = some x ∧ divOutOf sqrt precision b = some y ∧
          y.toInt ≤ x.toInt) ∧
      ∀ sqrt precision (a : BitVec 32), 0 < a.toInt →
        divOutOf sqrt precision (-a) =
          if a.toInt = 32768 then some (-0x10000#32)
          else if precision = .double ∧ 32768 < a.toInt then
            (divOutOf sqrt precision (a - 1#32)).map (~~~·)
          else (divOutOf sqrt precision a).map (~~~·) := by
  have hs : (DivState.initial vr accL).Holds none := rfl
  exact ⟨divRun_exact hs calls,
    fun sqrt precision _ _ ha hab => divOutOf_antitone sqrt precision ha hab,
    fun sqrt precision _ ha => divOutOf_neg sqrt precision ha⟩

/-- Below the barrier a double division does not complement. -/
theorem not_divOutOf_neg_complement :
    ¬∀ (sqrt : Bool) (precision : Precision) (a : BitVec 32), 0 < a.toInt → a.toInt ≠ 32768 →
      divOutOf sqrt precision (-a) = (divOutOf sqrt precision a).map (~~~·) :=
  fun h => absurd (h false .double 65536 (by decide) (by decide)) (by decide)

end Mupen64plus
