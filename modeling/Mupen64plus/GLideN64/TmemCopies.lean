import Mupen64plus.GLideN64.TmemLoads
import Mupen64plus.Lib.LowXor
import Mupen64plus.Lib.ByteCodec

/-!
# What the copies of a tile leave in TMEM

Each loop of `gDPLoadTile` as a whole: the byte it leaves at a place of TMEM.

## Main results

- `Tmem.unswapCopyWrap_apply`, `Tmem.dwordInterleaveWrap_behind`
- `TileLoad.loadRows_apply` — all rows
-/

namespace Mupen64plus

namespace Tmem

variable {src : ℕ → BitVec 8} {tmem : Tmem} {a : ℕ}

theorem ofNat_add_inj {d j k : ℕ} (hj : j < 4096) (hk : k < 4096) :
    BitVec.ofNat 12 (d + j) = BitVec.ofNat 12 (d + k) ↔ j = k := by
  refine ⟨fun h => ?_, fun h => by rw [h]⟩
  have hnat := congrArg BitVec.toNat h
  rw [BitVec.toNat_ofNat, BitVec.toNat_ofNat] at hnat
  omega

theorem update_apply {d j k : ℕ} (hj : j < 4096) (hk : k < 4096) (v : BitVec 8) :
    Function.update tmem (BitVec.ofNat 12 (d + k)) v (BitVec.ofNat 12 (d + j)) =
      if j = k then v else tmem (BitVec.ofNat 12 (d + j)) := by
  rw [Function.update_apply]
  simp only [ofNat_add_inj hj hk]

theorem copyBytes_apply {d j : ℕ} (hj : j < 4096) {srcIdx k n : ℕ} (h : k + n ≤ 4096) :
    copyBytes src srcIdx (d + k) n tmem (BitVec.ofNat 12 (d + j)) =
      if k ≤ j ∧ j < k + n then src (srcIdx - (j - k)) else tmem (BitVec.ofNat 12 (d + j)) := by
  induction n generalizing srcIdx k tmem with
  | zero => rw [if_neg (by omega), copyBytes]
  | succ n ih =>
    rw [copyBytes, Nat.add_assoc, ih (by omega), update_apply hj (by omega)]
    by_cases hin : k + 1 ≤ j ∧ j < k + 1 + n
    · rw [if_pos hin, if_pos (by omega)]
      exact congrArg src (by omega)
    · rw [if_neg hin]
      by_cases hfirst : j = k
      · rw [if_pos hfirst, if_pos (by omega)]
        exact congrArg src (by omega)
      · rw [if_neg hfirst, if_neg (by omega)]

theorem copyDWord_apply {d j : ℕ} (hj : j < 4096) {srcIdx k : ℕ} (h : k + 4 ≤ 4096)
    (haligned : srcIdx % 4 = 0) :
    copyDWord src srcIdx (d + k) tmem (BitVec.ofNat 12 (d + j)) =
      if k ≤ j ∧ j < k + 4 then src ((srcIdx + (j - k)) ^^^ 3)
      else tmem (BitVec.ofNat 12 (d + j)) := by
  unfold copyDWord
  rw [Nat.add_assoc, Nat.add_assoc, Nat.add_assoc, update_apply hj (by omega),
    update_apply hj (by omega), update_apply hj (by omega), update_apply hj (by omega),
    LowXor.xor_three]
  by_cases hin : k ≤ j ∧ j < k + 4
  · rw [if_pos hin]
    obtain h0 | h1 | h2 | h3 : j = k ∨ j = k + 1 ∨ j = k + 2 ∨ j = k + 3 := by omega
    · rw [if_pos h0]
      exact congrArg src (by omega)
    · rw [if_neg (by omega), if_pos h1]
      exact congrArg src (by omega)
    · rw [if_neg (by omega), if_neg (by omega), if_pos h2]
      exact congrArg src (by omega)
    · rw [if_neg (by omega), if_neg (by omega), if_neg (by omega), if_pos h3]
      exact congrArg src (by omega)
  · rw [if_neg hin, if_neg (by omega), if_neg (by omega), if_neg (by omega), if_neg (by omega)]

theorem copyDWords_apply {d j : ℕ} (hj : j < 4096) {srcIdx k n : ℕ} (h : k + 4 * n ≤ 4096)
    (haligned : srcIdx % 4 = 0) :
    copyDWords src srcIdx (d + k) n tmem (BitVec.ofNat 12 (d + j)) =
      if k ≤ j ∧ j < k + 4 * n then src ((srcIdx + (j - k)) ^^^ 3)
      else tmem (BitVec.ofNat 12 (d + j)) := by
  induction n generalizing srcIdx k tmem with
  | zero => rw [if_neg (by omega), copyDWords]
  | succ n ih =>
    rw [copyDWords, Nat.add_assoc, ih (by omega) (by omega), copyDWord_apply hj (by omega) haligned]
    by_cases hin : k + 4 ≤ j ∧ j < k + 4 + 4 * n
    · rw [if_pos hin, if_pos (by omega),
        show srcIdx + 4 + (j - (k + 4)) = srcIdx + (j - k) by omega]
    · rw [if_neg hin]
      by_cases hfirst : k ≤ j ∧ j < k + 4
      · rw [if_pos hfirst, if_pos (by omega)]
      · rw [if_neg hfirst, if_neg (by omega)]

/-- **`UnswapCopyWrap`** copies bytes of the console one after the other, wherever they start, and
    goes on at the start of TMEM behind its end. -/
theorem unswapCopyWrap_apply {d j : ℕ} (hj : j < 4096) {srcIdx numBytes : ℕ}
    (h : numBytes ≤ 4096) :
    tmem.unswapCopyWrap src srcIdx d numBytes (BitVec.ofNat 12 (d + j)) =
      if j < numBytes then src ((srcIdx + j) ^^^ 3) else tmem (BitVec.ofNat 12 (d + j)) := by
  unfold unswapCopyWrap
  generalize hlead : (if srcIdx % 4 = 0 then 0 else min (4 - srcIdx % 4) numBytes) = lead
  have hle : lead ≤ numBytes := by
    rw [← hlead]
    split <;> omega
  have hleading : 0 < lead → srcIdx % 4 ≠ 0 ∧ lead ≤ 4 - srcIdx % 4 := by
    intro hpos
    rw [← hlead] at hpos ⊢
    split at hpos
    · omega
    · next hne =>
      rw [if_neg hne]
      exact ⟨hne, Nat.min_le_left _ _⟩
  have hrest : 0 < numBytes - lead →
      (if lead = 0 then srcIdx else (srcIdx ^^^ 3) + 5 - lead) = srcIdx + lead ∧
        (srcIdx + lead) % 4 = 0 := by
    intro hpos
    rw [LowXor.xor_three]
    split at hlead <;> split <;> omega
  have hcopied : copyBytes src (srcIdx ^^^ 3) d lead tmem (BitVec.ofNat 12 (d + j)) =
      if j < lead then src ((srcIdx + j) ^^^ 3) else tmem (BitVec.ofNat 12 (d + j)) := by
    refine (copyBytes_apply (k := 0) hj (by omega)).trans ?_
    by_cases hfirst : j < lead
    · obtain ⟨hne, hlt⟩ := hleading (by omega)
      rw [if_pos (by omega), if_pos hfirst, LowXor.xor_three, LowXor.xor_three]
      exact congrArg src (by omega)
    · rw [if_neg (by omega), if_neg hfirst]
  generalize (if lead = 0 then srcIdx else (srcIdx ^^^ 3) + 5 - lead) = mid at hrest ⊢
  rw [Nat.add_assoc, copyBytes_apply hj (by omega)]
  by_cases htail : lead + 4 * ((numBytes - lead) / 4) ≤ j ∧
      j < lead + 4 * ((numBytes - lead) / 4) + (numBytes - lead) % 4
  · obtain ⟨hmid, haligned⟩ := hrest (by omega)
    rw [if_pos htail, if_pos (by omega), hmid, LowXor.xor_three, LowXor.xor_three]
    exact congrArg src (by omega)
  · rw [if_neg htail]
    by_cases hrests : 0 < numBytes - lead
    · obtain ⟨hmid, haligned⟩ := hrest hrests
      rw [copyDWords_apply hj (by omega) (by omega), hcopied]
      by_cases hwords : lead ≤ j ∧ j < lead + 4 * ((numBytes - lead) / 4)
      · rw [if_pos hwords, if_pos (by omega), hmid,
          show srcIdx + lead + (j - lead) = srcIdx + j by omega]
      · rw [if_neg hwords]
        by_cases hfirst : j < lead
        · rw [if_pos hfirst, if_pos (by omega)]
        · rw [if_neg hfirst, if_neg (by omega)]
    · have hzero : numBytes - lead = 0 := by omega
      rw [hzero, Nat.zero_div, copyDWords, hcopied]
      by_cases hfirst : j < lead
      · rw [if_pos hfirst, if_pos (by omega)]
      · rw [if_neg hfirst, if_neg (by omega)]

theorem unswapCopyWrap_behind (hj : j < 4096) {d k srcIdx numBytes : ℕ}
    (h : k + numBytes ≤ 4096) :
    tmem.unswapCopyWrap src srcIdx (d + k) numBytes (BitVec.ofNat 12 (d + j)) =
      if k ≤ j ∧ j < k + numBytes then src ((srcIdx + (j - k)) ^^^ 3)
      else tmem (BitVec.ofNat 12 (d + j)) := by
  by_cases hle : k ≤ j
  · have hplace : d + j = d + k + (j - k) := by omega
    rw [hplace, unswapCopyWrap_apply (by omega) (by omega)]
    by_cases hin : j < k + numBytes
    · rw [if_pos (by omega), if_pos ⟨hle, hin⟩]
    · rw [if_neg (by omega), if_neg (by omega)]
  · have hplace : BitVec.ofNat 12 (d + j) = BitVec.ofNat 12 (d + k + (4096 + j - k)) := by
      apply BitVec.eq_of_toNat_eq
      rw [BitVec.toNat_ofNat, BitVec.toNat_ofNat]
      omega
    rw [hplace, unswapCopyWrap_apply (by omega) (by omega), if_neg (by omega), if_neg (by omega)]

/-! ## Words exchanged -/

theorem setWord32_behind (hj : j < 4096) {base i : ℕ} (hi : i < 1024) (v : BitVec 2 → BitVec 8) :
    tmem.setWord32 (BitVec.ofNat 10 (2 * base + i)) v (BitVec.ofNat 12 (8 * base + j)) =
      if j / 4 = i then v (BitVec.ofNat 2 (j % 4)) else tmem (BitVec.ofNat 12 (8 * base + j)) := by
  have hhigh : (BitVec.ofNat 12 (8 * base + j)).extractLsb' 2 10 =
      BitVec.ofNat 10 (2 * base + j / 4) := by
    apply BitVec.eq_of_toNat_eq
    rw [BitVec.extractLsb'_toNat, BitVec.toNat_ofNat, BitVec.toNat_ofNat, Nat.shiftRight_eq_div_pow]
    omega
  have hlow : (BitVec.ofNat 12 (8 * base + j)).extractLsb' 0 2 = BitVec.ofNat 2 (j % 4) := by
    apply BitVec.eq_of_toNat_eq
    rw [BitVec.extractLsb'_toNat, BitVec.toNat_ofNat, BitVec.toNat_ofNat, Nat.shiftRight_eq_div_pow]
    omega
  have heq : BitVec.ofNat 10 (2 * base + j / 4) = BitVec.ofNat 10 (2 * base + i) ↔ j / 4 = i := by
    refine ⟨fun h => ?_, fun h => by rw [h]⟩
    have hnat := congrArg BitVec.toNat h
    rw [BitVec.toNat_ofNat, BitVec.toNat_ofNat] at hnat
    omega
  unfold setWord32
  rw [hhigh, hlow]
  simp only [heq]

theorem byte_behind {base i c : ℕ} (hc : c < 4) :
    BitVec.ofNat 10 (2 * base + i) ++ BitVec.ofNat 2 c =
      BitVec.ofNat 12 (8 * base + (4 * i + c)) := by
  apply BitVec.eq_of_toNat_eq
  rw [BitVec.toNat_append, BitVec.toNat_ofNat, BitVec.toNat_ofNat, BitVec.toNat_ofNat,
    Nat.mod_eq_of_lt (by omega : c < 2 ^ 2), ← Nat.shiftLeft_add_eq_or_of_lt (by omega),
    Nat.shiftLeft_eq]
  omega

/-- **`DWordInterleaveWrap`** exchanges the words of eight bytes, here from word `m` behind `base`
    on, and goes on at the start of TMEM behind its end. -/
theorem dwordInterleaveWrap_behind (hj : j < 4096) {base m n : ℕ} (h : m + n ≤ 512) :
    tmem.dwordInterleaveWrap (2 * (base + m)) n (BitVec.ofNat 12 (8 * base + j)) =
      if m ≤ j / 8 ∧ j / 8 < m + n then tmem (BitVec.ofNat 12 (8 * base + (j ^^^ 4)))
      else tmem (BitVec.ofNat 12 (8 * base + j)) := by
  induction n generalizing m tmem with
  | zero => rw [if_neg (by omega), dwordInterleaveWrap]
  | succ n ih =>
    have hxor := LowXor.xor_four j
    have hlt : j ^^^ 4 < 4096 := by omega
    have hidx0 : 2 * (base + m) = 2 * base + 2 * m := by omega
    have hidx1 : 2 * (base + m) + 1 = 2 * base + (2 * m + 1) := by omega
    have hother : ∀ {i : ℕ}, i < 4096 → i / 8 ≠ m →
        ((tmem.setWord32 (BitVec.ofNat 10 (2 * (base + m)))
            (tmem.word32 (BitVec.ofNat 10 (2 * (base + m) + 1)))).setWord32
              (BitVec.ofNat 10 (2 * (base + m) + 1))
          (tmem.word32 (BitVec.ofNat 10 (2 * (base + m))))) (BitVec.ofNat 12 (8 * base + i)) =
            tmem (BitVec.ofNat 12 (8 * base + i)) := by
      intro i hi hne
      rw [hidx1, hidx0, setWord32_behind hi (by omega), if_neg (by omega),
        setWord32_behind hi (by omega), if_neg (by omega)]
    rw [dwordInterleaveWrap]
    rw [show 2 * (base + m) + 2 = 2 * (base + (m + 1)) by omega, ih (by omega)]
    by_cases hin : m + 1 ≤ j / 8 ∧ j / 8 < m + 1 + n
    · rw [if_pos hin, if_pos (by omega), hother hlt (by omega)]
    · rw [if_neg hin]
      by_cases hfirst : j / 8 = m
      · rw [if_pos (by omega), hidx1, hidx0, setWord32_behind hj (by omega)]
        by_cases hhalf : j / 4 = 2 * m + 1
        · rw [if_pos hhalf, word32, byte_behind (by omega)]
          exact congrArg (fun p => tmem (BitVec.ofNat 12 p)) (by omega)
        · rw [if_neg hhalf, setWord32_behind hj (by omega), if_pos (by omega), word32,
            byte_behind (by omega)]
          exact congrArg (fun p => tmem (BitVec.ofNat 12 p)) (by omega)
      · rw [if_neg (by omega), hother hj hfirst]

theorem dwordInterleaveWrap_apply (ha : a < 4096) {m n : ℕ} (h : m + n ≤ 512) :
    tmem.dwordInterleaveWrap (2 * m) n (BitVec.ofNat 12 a) =
      if m ≤ a / 8 ∧ a / 8 < m + n then tmem (BitVec.ofNat 12 (a ^^^ 4))
      else tmem (BitVec.ofNat 12 a) := by
  have hbehind : tmem.dwordInterleaveWrap (2 * (0 + m)) n (BitVec.ofNat 12 (8 * 0 + a)) = _ :=
    dwordInterleaveWrap_behind ha h
  rw [Nat.zero_add, Nat.mul_zero, Nat.zero_add, Nat.zero_add] at hbehind
  exact hbehind

end Tmem

namespace TileLoad

variable (t : TileLoad)

/-- Byte `j` of the place of row `y` in TMEM. -/
def place (y j : ℕ) : ℕ := 8 * (t.tmem.toNat + t.line.toNat * y) + j

def rowAddress (y : ℕ) : ℕ := t.address + y * t.imageBpl

/-- The bytes of a row that are copied, of which there are none where the loop has ended. -/
def copied (last y : ℕ) : ℕ :=
  if t.rowAddress y < last then t.numBytes last (t.rowAddress y) else 0

/-- The units of eight bytes of a row whose words are exchanged. -/
def swapped (last y : ℕ) : ℕ := if t.rowAddress y < last ∧ y % 2 = 1 then t.bpr >>> 3 else 0

/-- What is at a place of a row after all rows are copied. -/
def rowByte (rdram : ℕ → BitVec 8) (last : ℕ) (tmem : Tmem) (y j : ℕ) : BitVec 8 :=
  let k := if j / 8 < t.swapped last y then j ^^^ 4 else j
  if k < t.copied last y then imageByte rdram (t.rowAddress y + k)
  else tmem (BitVec.ofNat 12 (t.place y k))

/-- The places of the rows, of `span` units each, lie in TMEM, apart from each other. -/
structure Placed (span : ℕ) : Prop where
  bpr_le : t.bpr ≤ 8 * span
  inside : t.tmem.toNat + t.line.toNat * (t.height - 1) + span ≤ 512
  apart : t.height ≤ 1 ∨ span ≤ t.line.toNat

/-- No copy that goes on at the start of TMEM comes to the first row. -/
def FirstRowKept (last : ℕ) : Prop :=
  ∀ y < t.height, 8 * (t.line.toNat * y) + t.numBytes last (t.rowAddress y) ≤ 4096

instance decidableFirstRowKept (last : ℕ) : Decidable (t.FirstRowKept last) :=
  inferInstanceAs
    (Decidable (∀ y < t.height, 8 * (t.line.toNat * y) + t.numBytes last (t.rowAddress y) ≤ 4096))

variable {t} {rdram : ℕ → BitVec 8} {tmem : Tmem} {last span : ℕ}

theorem Placed.numBytes_le (h : t.Placed span) (hrows : 1 < t.height) (last address : ℕ) :
    t.numBytes last address ≤ 8 * t.line.toNat := by
  have hbpr := h.bpr_le
  have hspan : span ≤ t.line.toNat := h.apart.resolve_left (Nat.not_le.mpr hrows)
  unfold numBytes bpl
  rw [Nat.shiftLeft_eq]
  split <;> omega

theorem Placed.row_inside (h : t.Placed span) {y : ℕ} (hy : y < t.height) :
    t.tmem.toNat + t.line.toNat * y + span ≤ 512 := by
  have hle : t.line.toNat * y ≤ t.line.toNat * (t.height - 1) :=
    Nat.mul_le_mul_left _ (Nat.le_sub_one_of_lt hy)
  have hinside := h.inside
  omega

theorem Placed.place_lt (h : t.Placed span) {y j : ℕ} (hy : y < t.height) (hj : j < 8 * span) :
    t.place y j < 4096 := by
  have hrow := h.row_inside hy
  unfold place
  omega

theorem xor_four_lt {j n : ℕ} (h : j < 8 * n) : j ^^^ 4 < 8 * n := by
  rw [LowXor.xor_four]
  omega

theorem place_xor_four (y j : ℕ) : t.place y j ^^^ 4 = t.place y (j ^^^ 4) := by
  unfold place
  rw [LowXor.xor_four, LowXor.xor_four]
  omega

/-- A row, read at a place that its exchange takes from the place `k`. -/
theorem loadRow_apply (h : t.Placed span) {y : ℕ} (hy : y < t.height) {a k : ℕ}
    (ha : a < 4096)
    (hk : k = if y % 2 = 1 ∧ t.place y 0 / 8 ≤ a / 8 ∧ a / 8 < t.place y 0 / 8 + t.bpr >>> 3 then
      a ^^^ 4 else a) :
    t.loadRow rdram last y (t.rowAddress y) (t.tmem.toNat + t.line.toNat * y) tmem
        (BitVec.ofNat 12 a) =
      tmem.unswapCopyWrap rdram (t.rowAddress y) (t.place y 0)
        (t.numBytes last (t.rowAddress y)) (BitVec.ofNat 12 k) := by
  have hrow := h.row_inside hy
  have hbpr := h.bpr_le
  have hplace : t.place y 0 = (t.tmem.toNat + t.line.toNat * y) <<< 3 := by
    rw [Nat.shiftLeft_eq, Nat.mul_comm]
    rfl
  have hdiv : t.place y 0 / 8 = t.tmem.toNat + t.line.toNat * y :=
    Nat.mul_div_cancel_left _ (by decide)
  unfold loadRow
  rw [hdiv] at hk
  rw [← hplace]
  by_cases hodd : y % 2 = 1
  · rw [if_pos hodd, Nat.shiftLeft_eq, Nat.mul_comm _ (2 ^ 1), pow_one,
      Tmem.dwordInterleaveWrap_apply ha (by rw [Nat.shiftRight_eq_div_pow]; omega)]
    by_cases hin : t.tmem.toNat + t.line.toNat * y ≤ a / 8 ∧
        a / 8 < t.tmem.toNat + t.line.toNat * y + t.bpr >>> 3
    · rw [if_pos ⟨hodd, hin⟩] at hk
      rw [if_pos hin, hk]
    · rw [if_neg fun hboth => hin hboth.2] at hk
      rw [if_neg hin, hk]
  · rw [if_neg fun hboth => hodd hboth.1] at hk
    rw [if_neg hodd, hk]

/-- A row is what its own places hold after its copy. -/
theorem loadRow_own (h : t.Placed span) (hkept : t.FirstRowKept last) {y j : ℕ}
    (hy : y < t.height) (hj : j < 8 * span) (hstart : t.rowAddress y < last) :
    t.loadRow rdram last y (t.rowAddress y) (t.tmem.toNat + t.line.toNat * y) tmem
      (BitVec.ofNat 12 (t.place y j)) = t.rowByte rdram last tmem y j := by
  have hplace : ∀ i, t.place y i = t.place y 0 + i := fun i => rfl
  have hzero : t.place y 0 % 8 = 0 := Nat.mul_mod_right _ _
  have hnum := hkept y hy
  have hrow := h.row_inside hy
  have hxor := LowXor.xor_four j
  unfold rowByte swapped copied
  rw [if_pos hstart]
  simp only [hstart, true_and]
  generalize hk : (if j / 8 < (if y % 2 = 1 then t.bpr >>> 3 else 0) then j ^^^ 4 else j) = k
  rw [loadRow_apply h hy (h.place_lt hy hj) (k := t.place y k)]
  · have hor : k = j ^^^ 4 ∨ k = j := hk ▸ ite_eq_or_eq _ _ _
    have hlt : k < 4096 := by omega
    rw [hplace k, Tmem.unswapCopyWrap_apply hlt (by omega)]
    rfl
  · rw [← hk, place_xor_four]
    have hdiv : t.place y j / 8 = t.place y 0 / 8 + j / 8 := by rw [hplace j]; omega
    by_cases hin : y % 2 = 1 ∧ j / 8 < t.bpr >>> 3
    · rw [if_pos (by rw [if_pos hin.1]; exact hin.2), if_pos (by omega)]
    · rw [if_neg, if_neg (by omega)]
      split <;> omega

/-- The places of two rows are apart. -/
theorem Placed.lines_apart (h : t.Placed span) {y y' : ℕ} (hy : y < t.height)
    (hy' : y' < t.height) (hne : y' ≠ y) :
    span ≤ t.line.toNat ∧ (t.line.toNat * y' + t.line.toNat ≤ t.line.toNat * y ∨
      t.line.toNat * y + t.line.toNat ≤ t.line.toNat * y') := by
  refine ⟨h.apart.resolve_left (by omega), ?_⟩
  rcases Nat.lt_or_gt_of_ne hne with hlt | hlt
  · exact Or.inl (Nat.mul_le_mul_left t.line.toNat hlt)
  · exact Or.inr (Nat.mul_le_mul_left t.line.toNat hlt)

/-- The places of another row are not exchanged. -/
theorem place_not_swapped (h : t.Placed span) {y y' j : ℕ} (hy : y < t.height)
    (hy' : y' < t.height) (hne : y' ≠ y) (hj : j < 8 * span) :
    ¬(t.place y 0 / 8 ≤ t.place y' j / 8 ∧
      t.place y' j / 8 < t.place y 0 / 8 + t.bpr >>> 3) := by
  obtain ⟨hspan, happart⟩ := h.lines_apart hy hy' hne
  have hbpr := h.bpr_le
  have hplace : t.place y 0 = 8 * (t.tmem.toNat + t.line.toNat * y) := rfl
  have hplace' : t.place y' j = 8 * (t.tmem.toNat + t.line.toNat * y') + j := rfl
  rw [Nat.shiftRight_eq_div_pow]
  omega

/-- The places of another row are not touched. -/
theorem loadRow_other (h : t.Placed span) (hkept : t.FirstRowKept last) {y y' j : ℕ}
    (hy : y < t.height) (hy' : y' < t.height) (hne : y' ≠ y) (hj : j < 8 * span) :
    t.loadRow rdram last y (t.rowAddress y) (t.tmem.toNat + t.line.toNat * y) tmem
      (BitVec.ofNat 12 (t.place y' j)) = tmem (BitVec.ofNat 12 (t.place y' j)) := by
  obtain ⟨hspan, happart⟩ := h.lines_apart hy hy' hne
  have hnum := h.numBytes_le (by omega) last (t.rowAddress y)
  have hcopies := hkept y hy
  have hlt := h.place_lt hy' hj
  have hout := place_not_swapped h hy hy' hne hj
  have hplace : t.place y 0 = 8 * (t.tmem.toNat + t.line.toNat * y) := rfl
  have hplace' : t.place y' j = 8 * (t.tmem.toNat + t.line.toNat * y') + j := rfl
  rw [loadRow_apply h hy hlt (if_neg fun hin => hout hin.2).symm]
  rcases happart with hbefore | hafter
  · -- An earlier row comes behind the end of TMEM.
    have hround : BitVec.ofNat 12 (t.place y' j) =
        BitVec.ofNat 12 (t.place y 0 + (4096 + t.place y' j - t.place y 0)) := by
      apply BitVec.eq_of_toNat_eq
      rw [BitVec.toNat_ofNat, BitVec.toNat_ofNat]
      omega
    rw [hround, Tmem.unswapCopyWrap_apply (by omega) (by omega), if_neg (by omega)]
  · have hbehind : t.place y' j = t.place y 0 + (t.place y' j - t.place y 0) := by omega
    rw [hbehind, Tmem.unswapCopyWrap_apply (by omega) (by omega), if_neg (by omega)]

theorem rowByte_congr {tmem' : Tmem} {y j : ℕ} (hj : j < 8 * span)
    (heq : ∀ i < 8 * span,
      tmem (BitVec.ofNat 12 (t.place y i)) = tmem' (BitVec.ofNat 12 (t.place y i))) :
    t.rowByte rdram last tmem y j = t.rowByte rdram last tmem' y j := by
  unfold rowByte
  dsimp only
  split
  · rw [heq _ (xor_four_lt hj)]
  · rw [heq _ hj]

theorem rowAddress_mono {y y' : ℕ} (h : y ≤ y') : t.rowAddress y ≤ t.rowAddress y' :=
  Nat.add_le_add_left (Nat.mul_le_mul_right _ h) _

/-- A row behind the end of the loop. -/
theorem rowByte_of_le {y j : ℕ} (h : last ≤ t.rowAddress y) :
    t.rowByte rdram last tmem y j = tmem (BitVec.ofNat 12 (t.place y j)) := by
  have hswapped : t.swapped last y = 0 := if_neg fun hin => absurd hin.1 (Nat.not_lt.mpr h)
  have hcopied : t.copied last y = 0 := if_neg (Nat.not_lt.mpr h)
  unfold rowByte
  rw [hswapped, hcopied, if_neg (Nat.not_lt_zero (j / 8))]
  exact if_neg (Nat.not_lt_zero j)

theorem rowAddress_succ (y : ℕ) : t.rowAddress y + t.imageBpl = t.rowAddress (y + 1) := by
  unfold rowAddress
  rw [Nat.add_mul, Nat.one_mul, Nat.add_assoc]

theorem tmemLine_succ (y : ℕ) : t.tmem.toNat + t.line.toNat * y + t.line.toNat =
    t.tmem.toNat + t.line.toNat * (y + 1) := by
  rw [Nat.mul_add, Nat.mul_one, Nat.add_assoc]

-- its equations, generated once for the proofs below
attribute [local grind =] loadRows

theorem loadRows_succ {y : ℕ} (hstart : t.rowAddress y < last) (n : ℕ) (tmem : Tmem) :
    t.loadRows rdram last y (t.rowAddress y) (t.tmem.toNat + t.line.toNat * y) (n + 1) tmem =
      t.loadRows rdram last (y + 1) (t.rowAddress (y + 1)) (t.tmem.toNat + t.line.toNat * (y + 1)) n
        (t.loadRow rdram last y (t.rowAddress y) (t.tmem.toNat + t.line.toNat * y) tmem) := by
  rw [loadRows, if_pos hstart, rowAddress_succ, tmemLine_succ]

/-- **All rows** are copied, each to its places. -/
theorem loadRows_apply (h : t.Placed span) (hkept : t.FirstRowKept last) {y' j : ℕ}
    (hy' : y' < t.height) (hj : j < 8 * span) {y n : ℕ} (hn : y + n = t.height) (tmem : Tmem) :
    t.loadRows rdram last y (t.rowAddress y) (t.tmem.toNat + t.line.toNat * y) n tmem
        (BitVec.ofNat 12 (t.place y' j)) =
      if y ≤ y' then t.rowByte rdram last tmem y' j
      else tmem (BitVec.ofNat 12 (t.place y' j)) := by
  induction n generalizing y tmem with
  | zero => rw [loadRows, if_neg (by omega)]
  | succ n ih =>
    by_cases hstart : t.rowAddress y < last
    · rw [loadRows_succ hstart, ih (by omega)]
      by_cases hlater : y + 1 ≤ y'
      · rw [if_pos hlater, if_pos (by omega)]
        exact rowByte_congr hj fun i hi => loadRow_other h hkept (by omega) hy' (by omega) hi
      · rw [if_neg hlater]
        by_cases hown : y' = y
        · subst hown
          rw [if_pos (Nat.le_refl _), loadRow_own h hkept hy' hj hstart]
        · rw [if_neg (by omega), loadRow_other h hkept (by omega) hy' hown hj]
    · rw [loadRows, if_neg hstart]
      by_cases hlater : y ≤ y'
      · rw [if_pos hlater,
          rowByte_of_le (Nat.le_trans (Nat.not_lt.mp hstart) (rowAddress_mono hlater))]
      · rw [if_neg hlater]

/-- The last row is copied last. -/
theorem loadRows_last {y n : ℕ} (hlast : t.rowAddress (y + n) < last) (tmem : Tmem) :
    t.loadRows rdram last y (t.rowAddress y) (t.tmem.toNat + t.line.toNat * y) (n + 1) tmem =
      t.loadRow rdram last (y + n) (t.rowAddress (y + n)) (t.tmem.toNat + t.line.toNat * (y + n))
        (t.loadRows rdram last y (t.rowAddress y) (t.tmem.toNat + t.line.toNat * y) n tmem) := by
  induction n generalizing y tmem with
  | zero =>
    have hstart : t.rowAddress y < last := hlast
    rw [loadRows_succ hstart, loadRows, loadRows]
    rfl
  | succ n ih =>
    have hstart : t.rowAddress y < last :=
      Nat.lt_of_le_of_lt (rowAddress_mono (Nat.le_add_right _ _)) hlast
    have hnext : y + 1 + n = y + (n + 1) := by omega
    rw [loadRows_succ hstart, loadRows_succ hstart, ih (by rw [hnext]; exact hlast), hnext]

/-- The first row, where the copy of the last one comes round to it. -/
theorem loadRows_wrapped (h : t.Placed span) {n : ℕ} (hn : n + 1 = t.height) (hspan : 0 < span)
    (hlast : t.rowAddress n < last)
    (hwraps : 4096 < 8 * (t.line.toNat * n) + t.numBytes last (t.rowAddress n)) :
    t.loadRows rdram last 0 (t.rowAddress 0) (t.tmem.toNat + t.line.toNat * 0) t.height tmem
        (BitVec.ofNat 12 (t.place 0 0)) =
      imageByte rdram (t.rowAddress n + (4096 - 8 * (t.line.toNat * n))) := by
  have hrow := h.row_inside (y := n) (by omega)
  have hbpr := h.bpr_le
  have hlt := t.line.isLt
  have hpos : 0 < n := by
    by_contra hzero
    obtain rfl : n = 0 := by omega
    unfold numBytes bpl at hwraps
    rw [Nat.shiftLeft_eq] at hwraps
    split at hwraps <;> omega
  have hnum := h.numBytes_le (by omega) last (t.rowAddress n)
  have hfirst : t.place 0 0 = 8 * t.tmem.toNat := rfl
  have hplace : t.place n 0 = 8 * (t.tmem.toNat + t.line.toNat * n) := rfl
  have hout : ¬(t.place n 0 / 8 ≤ t.place 0 0 / 8 ∧
      t.place 0 0 / 8 < t.place n 0 / 8 + t.bpr >>> 3) :=
    place_not_swapped h (by omega) (by omega) (by omega) (by omega)
  have hround : BitVec.ofNat 12 (t.place 0 0) =
      BitVec.ofNat 12 (t.place n 0 + (4096 - 8 * (t.line.toNat * n))) := by
    apply BitVec.eq_of_toNat_eq
    rw [BitVec.toNat_ofNat, BitVec.toNat_ofNat]
    omega
  have hloaded : t.loadRows rdram last 0 (t.rowAddress 0) (t.tmem.toNat + t.line.toNat * 0) (n + 1)
      tmem = _ := loadRows_last (by rw [Nat.zero_add]; exact hlast) tmem
  rw [Nat.zero_add] at hloaded
  rw [← hn, hloaded, loadRow_apply h (by omega) (by omega) (if_neg fun hin => hout hin.2).symm,
    hround, Tmem.unswapCopyWrap_apply (by omega) (by omega), if_pos (by omega)]
  rfl

/-! ## Texels of 32 bits -/

/-- The half of a texel that goes to a bank of TMEM. -/
def bankHalf (bank : BitVec 1) (c : BitVec 32) : BitVec 16 :=
  if bank = 0#1 then c.extractLsb' 16 16 else c.extractLsb' 0 16

/-- The half word of a row of 32 bit texels that texel `i` has, before the exclusive or. -/
def slot (t : TileLoad) (y i : ℕ) : ℕ := 4 * (t.tmem.toNat + t.line.toNat * y) + i

/-- The exclusive or of a row. -/
def rowXor (y : ℕ) : ℕ := if y % 2 = 1 then 3 else 1

theorem rowXor_lt (y : ℕ) : rowXor y < 4 := by
  unfold rowXor
  split <;> decide

theorem xor_low_div {x : ℕ} (hx : x < 4) (a : ℕ) : (a ^^^ x) / 4 = a / 4 := by
  have hlow : a ^^^ x = 4 * (a / 4) + (a % 4 ^^^ x) := LowXor.low_xor (k := 2) hx a
  have hlt : a % 4 ^^^ x < 4 := Nat.xor_lt_two_pow (n := 2) (Nat.mod_lt _ (by decide)) hx
  omega

theorem xor_low_lt {x a n : ℕ} (hx : x < 4) (h : a < 4 * n) : a ^^^ x < 4 * n := by
  have hdiv := xor_low_div hx a
  omega

theorem xor_low_eq {x : ℕ} (a b : ℕ) : a = b ^^^ x ↔ a ^^^ x = b := by
  constructor
  · intro h
    rw [h, Nat.xor_assoc, Nat.xor_self, Nat.xor_zero]
  · intro h
    rw [← h, Nat.xor_assoc, Nat.xor_self, Nat.xor_zero]

theorem bank_inj {b b' : BitVec 1} {m m' : ℕ} (hm : m < 1024) (hm' : m' < 1024) :
    b ++ BitVec.ofNat 10 m = b' ++ BitVec.ofNat 10 m' ↔ b = b' ∧ m = m' := by
  constructor
  · intro h
    have hnat := congrArg BitVec.toNat h
    rw [BitVec.toNat_append, BitVec.toNat_append, BitVec.toNat_ofNat, BitVec.toNat_ofNat,
      ← Nat.shiftLeft_add_eq_or_of_lt (by omega), ← Nat.shiftLeft_add_eq_or_of_lt (by omega),
      Nat.shiftLeft_eq, Nat.shiftLeft_eq] at hnat
    exact ⟨BitVec.eq_of_toNat_eq (by omega), by omega⟩
  · rintro ⟨rfl, rfl⟩
    rfl

theorem half_inj {i i' : BitVec 11} {b b' : BitVec 1} :
    i ++ b = i' ++ b' ↔ i = i' ∧ b = b' := by
  constructor
  · intro h
    have hnat := congrArg BitVec.toNat h
    have hb := b.isLt
    have hb' := b'.isLt
    rw [BitVec.toNat_append, BitVec.toNat_append, ← Nat.shiftLeft_add_eq_or_of_lt hb,
      ← Nat.shiftLeft_add_eq_or_of_lt hb', Nat.shiftLeft_eq, Nat.shiftLeft_eq] at hnat
    exact ⟨BitVec.eq_of_toNat_eq (by omega), BitVec.eq_of_toNat_eq (by omega)⟩
  · rintro ⟨rfl, rfl⟩
    rfl

theorem half16_setHalf16 (i i' : BitVec 11) (v : BitVec 16) :
    (tmem.setHalf16 i v).half16 i' = if i' = i then v else tmem.half16 i' := by
  have hzero : (1#1 : BitVec 1) ≠ 0#1 := by decide
  unfold Tmem.half16 Tmem.setHalf16
  simp only [Function.update_apply, half_inj, hzero, hzero.symm, and_false, and_true, if_false]
  by_cases h : i' = i
  · rw [if_pos h, if_pos h, if_pos h]
    exact (Codec.append_extractLsb' v 0 8).trans (Codec.extractLsb'_full v)
  · rw [if_neg h, if_neg h, if_neg h]

/-- A row of 32 bit texels. -/
theorem loadTexels32_apply {tline s x i n m : ℕ} (hx : x < 4) (htline : tline % 4 = 0)
    (hm : m < 1024) (hn : tline + i + n ≤ 1024) (bank : BitVec 1) (tmem : Tmem) :
    (t.loadTexels32 rdram tline s x i n tmem).half16 (bank ++ BitVec.ofNat 10 m) =
      if tline + i ≤ m ^^^ x ∧ m ^^^ x < tline + i + n then
        bankHalf bank (rdramWord rdram (t.imageAddress >>> 2 + s + ((m ^^^ x) - tline)))
      else tmem.half16 (bank ++ BitVec.ofNat 10 m) := by
  induction n generalizing i tmem with
  | zero => rw [if_neg (by omega), loadTexels32]
  | succ n ih =>
    rw [loadTexels32, ih (by omega)]
    by_cases hin : tline + (i + 1) ≤ m ^^^ x ∧ m ^^^ x < tline + (i + 1) + n
    · rw [if_pos hin, if_pos (by omega)]
    · have hptr : (tline + i) ^^^ x < 1024 := xor_low_lt (n := 256) hx (by omega)
      rw [if_neg hin, half16_setHalf16, half16_setHalf16]
      simp only [bank_inj hm hptr, xor_low_eq]
      by_cases hfirst : m ^^^ x = tline + i
      · rw [if_pos (c := tline + i ≤ m ^^^ x ∧ _) (by omega), hfirst, Nat.add_sub_cancel_left]
        unfold bankHalf
        rcases BitVec.eq_zero_or_eq_one bank with hbank | hbank
        · subst hbank
          simp
        · subst hbank
          simp
      · rw [if_neg fun hboth => hfirst hboth.2, if_neg fun hboth => hfirst hboth.2,
          if_neg (by omega)]

/-- The places of the rows of 32 bit texels lie in each bank of TMEM, apart from each other. -/
structure Placed32 (t : TileLoad) (columns rows : ℕ) : Prop where
  inside : 4 * (t.tmem.toNat + t.line.toNat * (rows - 1)) + columns ≤ 1024
  apart : rows ≤ 1 ∨ columns ≤ 4 * t.line.toNat

theorem Placed32.slot_le {columns rows : ℕ} (h : t.Placed32 columns rows) {y : ℕ} (hy : y < rows) :
    t.slot y columns ≤ 1024 := by
  have hle : t.line.toNat * y ≤ t.line.toNat * (rows - 1) :=
    Nat.mul_le_mul_left _ (Nat.le_sub_one_of_lt hy)
  have hinside := h.inside
  unfold slot
  omega

/-- The word of RDRAM that is texel `i` of row `y`. -/
def texelWord (t : TileLoad) (y i : ℕ) : ℕ :=
  t.imageAddress >>> 2 + ((y + t.ult.toNat) * t.imageWidth + t.uls.toNat) + i

/-- **All rows of 32 bit texels** are copied, each texel to its half words. -/
theorem loadRows32_apply {rows : ℕ} (h : t.Placed32 (t.lrs.toNat - t.uls.toNat + 1) rows)
    {y' i : ℕ} (hy' : y' < rows) (hi : i < t.lrs.toNat - t.uls.toNat + 1) {y n : ℕ}
    (hn : y + n = rows) (bank : BitVec 1) (tmem : Tmem) :
    (t.loadRows32 rdram y n tmem).half16 (bank ++ BitVec.ofNat 10 (t.slot y' i ^^^ rowXor y')) =
      if y ≤ y' then bankHalf bank (rdramWord rdram (t.texelWord y' i))
      else tmem.half16 (bank ++ BitVec.ofNat 10 (t.slot y' i ^^^ rowXor y')) := by
  have hslot' := h.slot_le hy'
  have hlt : t.slot y' i < 4 * 256 := by
    unfold slot at hslot' ⊢
    omega
  have hm : t.slot y' i ^^^ rowXor y' < 1024 := xor_low_lt (n := 256) (rowXor_lt y') hlt
  induction n generalizing y tmem with
  | zero => rw [loadRows32, if_neg (by omega)]
  | succ n ih =>
    have hslot := h.slot_le (y := y) (by omega)
    have htline : t.tmem.toNat <<< 2 + t.line.toNat <<< 2 * y = t.slot y 0 := by
      unfold slot
      rw [Nat.shiftLeft_eq, Nat.shiftLeft_eq, Nat.mul_add, ← Nat.mul_assoc, Nat.add_zero,
        Nat.mul_comm t.tmem.toNat, Nat.mul_comm t.line.toNat (2 ^ 2)]
    have hzero : t.slot y 0 % 4 = 0 := Nat.mul_mod_right _ _
    have hcolumns : t.slot y (t.lrs.toNat - t.uls.toNat + 1) =
        t.slot y 0 + (t.lrs.toNat - t.uls.toNat + 1) := rfl
    rw [loadRows32, ih (by omega)]
    by_cases hlater : y + 1 ≤ y'
    · rw [if_pos hlater, if_pos (by omega)]
    · rw [if_neg hlater, htline, show (if y % 2 = 1 then 3 else 1) = rowXor y from rfl,
        loadTexels32_apply (rowXor_lt y) hzero hm (by omega)]
      by_cases hown : y' = y
      · subst hown
        have hback : t.slot y' i ^^^ rowXor y' ^^^ rowXor y' = t.slot y' i := by
          rw [Nat.xor_assoc, Nat.xor_self, Nat.xor_zero]
        have hi' : t.slot y' i = t.slot y' 0 + i := rfl
        rw [hback, if_pos (by omega), if_pos (Nat.le_refl _), hi', Nat.add_sub_cancel_left]
        rfl
      · have hline : t.lrs.toNat - t.uls.toNat + 1 ≤ 4 * t.line.toNat :=
          h.apart.resolve_left (by omega)
        have hapart : t.line.toNat * y' + t.line.toNat ≤ t.line.toNat * y ∨
            t.line.toNat * y + t.line.toNat ≤ t.line.toNat * y' := by
          rcases Nat.lt_or_gt_of_ne hown with hlt | hlt
          · exact Or.inl (Nat.mul_le_mul_left t.line.toNat hlt)
          · exact Or.inr (Nat.mul_le_mul_left t.line.toNat hlt)
        have hdiv := xor_low_div (rowXor_lt y) (t.slot y' i ^^^ rowXor y')
        have hdiv' := xor_low_div (rowXor_lt y') (t.slot y' i)
        have hi' : t.slot y' i = 4 * (t.tmem.toNat + t.line.toNat * y') + i := rfl
        have h0 : t.slot y 0 = 4 * (t.tmem.toNat + t.line.toNat * y) := rfl
        rw [if_neg (by omega), if_neg (by omega)]

end TileLoad

end Mupen64plus
