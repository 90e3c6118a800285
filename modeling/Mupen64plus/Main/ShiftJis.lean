import Mupen64plus.Main.Paths
import Mupen64plus.Main.ShiftJisTable

/-!
# From Shift-JIS to UTF-8

`ShiftJis2UTF8` looks for room of one byte before each character and writes up to three. What goes
wrong is at the end of the buffer only: a character of more bytes is written over it, or loses its
last byte to the terminator.

## Main definitions

- `shiftJis2UTF8` — the code, with every read of the table and every write of the buffer checked
- `wellFormedUtf8` — the byte sequences of the standard
- `sjisValues` — the characters of an input; `FitsBuffer` — the condition on them

## Main results

- `emitValues_fits`, `emitValues_unfit` — the loop where every character fits, and where one does
  not
- `convertSound_iff`
-/

namespace Mupen64plus

-- ════════════════════
-- The conversion
-- ════════════════════

/-- A write inside of the buffer. -/
def putByte (out : List (BitVec 8)) (i : ℕ) (b : BitVec 8) : Option (List (BitVec 8)) :=
  if i < out.length then some (out.set i b) else none

def putBytes (out : List (BitVec 8)) (i : ℕ) : List (BitVec 8) → Option (List (BitVec 8))
  | [] => some out
  | b :: bs => (putByte out i b).bind fun out => putBytes out (i + 1) bs

/-- The bytes written for a value. -/
def toUtf8 (v : BitVec 16) : List (BitVec 8) :=
  if v.toNat < 0x80 then [v.setWidth 8]
  else if v.toNat < 0x800 then
    [(0xc0#16 ||| v >>> 6).setWidth 8, (0x80#16 ||| (v &&& 0x3f)).setWidth 8]
  else
    [(0xe0#16 ||| v >>> 12).setWidth 8, (0x80#16 ||| (v &&& 0xfff) >>> 6).setWidth 8,
      (0x80#16 ||| (v &&& 0x3f)).setWidth 8]

/-- The entries before the section of a leading byte, 0 for a character of one byte. -/
def sectionOffset (c : BitVec 8) : ℕ :=
  match (c >>> 4).toNat with
  | 0x8 => 0x100
  | 0x9 => 0x1100
  | 0xe => 0x2100
  | _ => 0

/-- The entry of a character with a leading byte. -/
def pairOffset (c d : BitVec 8) : ℕ := sectionOffset c + (c &&& 0xf).toNat <<< 8 + d.toNat

def unicodeValue (arrayOffset : ℕ) : Option (BitVec 16) := do
  let high ← pucTable (2 * arrayOffset)
  let low ← pucTable (2 * arrayOffset + 1)
  some (high ++ low)

/-- The loop, on the bytes of the input from `idxIn` on. -/
def convertLoop (outputLength : ℕ) : List (BitVec 8) → ℕ → List (BitVec 8) →
    Option (ℕ × List (BitVec 8))
  | [], _, _ => none
  | c :: rest, idxOut, out =>
    if c ≠ 0 ∧ idxOut < outputLength then
      if sectionOffset c ≠ 0 then
        match rest with
        | [] => none
        | d :: rest =>
          if d = 0 then some (idxOut, out)
          else do
            let v ← unicodeValue (pairOffset c d)
            let out ← putBytes out idxOut (toUtf8 v)
            convertLoop outputLength rest (idxOut + (toUtf8 v).length) out
      else do
        let v ← unicodeValue c.toNat
        let out ← putBytes out idxOut (toUtf8 v)
        convertLoop outputLength rest (idxOut + (toUtf8 v).length) out
    else some (idxOut, out)

/-- `ShiftJis2UTF8`, with a buffer of `outputLength` bytes. -/
def shiftJis2UTF8 (input : CString) (out : List (BitVec 8)) : Option (List (BitVec 8)) := do
  let (idxOut, out) ← convertLoop out.length input.block 0 out
  if idxOut < out.length then putByte out idxOut 0 else putByte out (out.length - 1) 0

-- ════════════════════
-- What it is for
-- ════════════════════

def utf8Tail (b : BitVec 8) : Bool := 0x80 ≤ b.toNat ∧ b.toNat < 0xc0

/-- The second byte of a character, whose range its first byte may narrow. -/
def utf8Second (a b : BitVec 8) : Bool :=
  (if a = 0xe0 then 0xa0 else if a = 0xf0 then 0x90 else 0x80) ≤ b.toNat ∧
    b.toNat < (if a = 0xed then 0xa0 else if a = 0xf4 then 0x90 else 0xc0)

/-- The well-formed sequences of UTF-8, by the ranges of the first byte. -/
def wellFormedUtf8 : List (BitVec 8) → Bool
  | [] => true
  | a :: rest =>
    if a.toNat < 0x80 then wellFormedUtf8 rest
    else
      match rest with
      | [] => false
      | b :: rest =>
        if 0xc2 ≤ a.toNat ∧ a.toNat < 0xe0 then utf8Second a b && wellFormedUtf8 rest
        else
          match rest with
          | [] => false
          | c :: rest =>
            if 0xe0 ≤ a.toNat ∧ a.toNat < 0xf0 then
              utf8Second a b && utf8Tail c && wellFormedUtf8 rest
            else
              match rest with
              | [] => false
              | d :: rest => 0xf0 ≤ a.toNat && a.toNat < 0xf5 && utf8Second a b && utf8Tail c &&
                  utf8Tail d && wellFormedUtf8 rest

/-- The bytes before the terminator. -/
def textOf (out : List (BitVec 8)) : List (BitVec 8) := out.takeWhile (· ≠ 0)

/-- The conversion stays inside of the table and of the buffer and leaves a terminated text. -/
def ConvertSound (input : CString) (out : List (BitVec 8)) : Prop :=
  ∃ out', shiftJis2UTF8 input out = some out' ∧ out'.length = out.length ∧ 0 ∈ out' ∧
    wellFormedUtf8 (textOf out') = true

/-- The Unicode values of the characters of an input; a leading byte at its end is none. -/
def sjisValues : List (BitVec 8) → List (BitVec 16)
  | [] => []
  | c :: rest =>
    if sectionOffset c ≠ 0 then
      match rest with
      | [] => []
      | d :: rest => (unicodeValue (pairOffset c d)).getD 0 :: sjisValues rest
    else (unicodeValue c.toNat).getD 0 :: sjisValues rest

/-- Of the characters that start in a buffer of `n` bytes, from byte `k` on, those of more than one
byte leave room for the terminator. -/
def FitsBuffer (n : ℕ) : ℕ → List (BitVec 16) → Prop
  | _, [] => True
  | k, v :: vs => k < n →
      (1 < (toUtf8 v).length → k + (toUtf8 v).length < n) ∧ FitsBuffer n (k + (toUtf8 v).length) vs

-- ════════════════════
-- The bytes of a value
-- ════════════════════

-- its equation, generated once for the proofs below
attribute [local grind =] wellFormedUtf8

/-- A leading part over the bits of a value. -/
theorem or_lead {k n b : ℕ} (hb : b < 2 ^ n) : k <<< n ||| b = k * 2 ^ n + b := by
  rw [← Nat.shiftLeft_add_eq_or_of_lt hb, Nat.shiftLeft_eq]

theorem and_low (v : BitVec 16) : (v &&& 0x3f).toNat = v.toNat % 64 ∧
    (v &&& 0xfff).toNat = v.toNat % 4096 := by
  rw [BitVec.toNat_and, BitVec.toNat_and]
  exact ⟨Nat.and_two_pow_sub_one_eq_mod _ 6, Nat.and_two_pow_sub_one_eq_mod _ 12⟩

/-- The bytes of a value, as numbers. -/
theorem toUtf8_bytes (v : BitVec 16) :
    (v.toNat < 0x80 ∧ ∃ a, toUtf8 v = [a] ∧ a.toNat = v.toNat) ∨
    (0x80 ≤ v.toNat ∧ v.toNat < 0x800 ∧ ∃ a b, toUtf8 v = [a, b] ∧
      a.toNat = 0xc0 + v.toNat / 64 ∧ b.toNat = 0x80 + v.toNat % 64) ∨
    (0x800 ≤ v.toNat ∧ ∃ a b c, toUtf8 v = [a, b, c] ∧ a.toNat = 0xe0 + v.toNat / 4096 ∧
      b.toNat = 0x80 + v.toNat / 64 % 64 ∧ c.toNat = 0x80 + v.toNat % 64) := by
  have hv := v.isLt
  obtain ⟨hlow, hmid⟩ := and_low v
  have hlast : ((0x80#16 ||| (v &&& 0x3f)).setWidth 8).toNat = 0x80 + v.toNat % 64 := by
    rw [BitVec.toNat_setWidth, BitVec.toNat_or, hlow]
    have := or_lead (k := 2) (show v.toNat % 64 < 2 ^ 6 by omega)
    rw [show (0x80#16).toNat = 2 <<< 6 from rfl, this]
    omega
  unfold toUtf8
  by_cases hone : v.toNat < 0x80
  · rw [if_pos hone]
    refine .inl ⟨hone, _, rfl, ?_⟩
    rw [BitVec.toNat_setWidth]
    omega
  · rw [if_neg hone]
    by_cases htwo : v.toNat < 0x800
    · rw [if_pos htwo]
      refine .inr (.inl ⟨by omega, htwo, _, _, rfl, ?_, hlast⟩)
      rw [BitVec.toNat_setWidth, BitVec.toNat_or, BitVec.toNat_ushiftRight,
        Nat.shiftRight_eq_div_pow]
      have := or_lead (k := 3) (show v.toNat / 2 ^ 6 < 2 ^ 6 by omega)
      rw [show (0xc0#16).toNat = 3 <<< 6 from rfl, this]
      omega
    · rw [if_neg htwo]
      refine .inr (.inr ⟨by omega, _, _, _, rfl, ?_, ?_, hlast⟩)
      · rw [BitVec.toNat_setWidth, BitVec.toNat_or, BitVec.toNat_ushiftRight,
          Nat.shiftRight_eq_div_pow]
        have := or_lead (k := 7) (show v.toNat / 2 ^ 12 < 2 ^ 5 by omega)
        rw [show (0xe0#16).toNat = 7 <<< 5 from rfl, this]
        omega
      · rw [BitVec.toNat_setWidth, BitVec.toNat_or, BitVec.toNat_ushiftRight, hmid,
          Nat.shiftRight_eq_div_pow]
        have := or_lead (k := 2) (show v.toNat % 4096 / 2 ^ 6 < 2 ^ 6 by omega)
        rw [show (0x80#16).toNat = 2 <<< 6 from rfl, this]
        omega

theorem toUtf8_length_pos (v : BitVec 16) : 0 < (toUtf8 v).length := by
  obtain ⟨-, a, h, -⟩ | ⟨-, -, a, b, h, -⟩ | ⟨-, a, b, c, h, -⟩ := toUtf8_bytes v <;> rw [h] <;>
    exact Nat.succ_pos _

section

variable {v : BitVec 16}

theorem validValue_iff : validValue v = true ↔
    v ≠ 0 ∧ ¬(0xd800 ≤ v.toNat ∧ v.toNat < 0xe000) := decide_eq_true_iff

theorem toUtf8_nonzero (hv : validValue v = true) : ∀ b ∈ toUtf8 v, b ≠ 0 := by
  have hne : v.toNat ≠ 0 := fun h => (validValue_iff.mp hv).1 (BitVec.eq_of_toNat_eq h)
  have hbyte : ∀ b : BitVec 8, b.toNat ≠ 0 → b ≠ 0 := by
    rintro b hb rfl
    exact hb rfl
  intro b hb
  refine hbyte b ?_
  obtain ⟨-, a, h, ha⟩ | ⟨-, -, a, a', h, ha, ha'⟩ | ⟨-, a, a', a'', h, ha, ha', ha''⟩ :=
    toUtf8_bytes v <;> rw [h] at hb <;>
    simp only [List.mem_cons, List.not_mem_nil, or_false] at hb
  · rw [hb]
    omega
  · rcases hb with rfl | rfl <;> omega
  · rcases hb with rfl | rfl | rfl <;> omega

theorem utf8Tail_iff {b : BitVec 8} : utf8Tail b = true ↔ 0x80 ≤ b.toNat ∧ b.toNat < 0xc0 :=
  decide_eq_true_iff

section

variable {a b c : BitVec 8} {t : List (BitVec 8)}

theorem wellFormedUtf8_one (ha : a.toNat < 0x80) :
    wellFormedUtf8 (a :: t) = wellFormedUtf8 t := by
  rw [wellFormedUtf8.eq_def]
  exact if_pos ha

theorem wellFormedUtf8_two (hlo : 0xc2 ≤ a.toNat) (hhi : a.toNat < 0xe0) :
    wellFormedUtf8 (a :: b :: t) = (utf8Second a b && wellFormedUtf8 t) := by
  rw [wellFormedUtf8.eq_def]
  dsimp only
  rw [if_neg (by omega), if_pos ⟨hlo, hhi⟩]

theorem wellFormedUtf8_three (hlo : 0xe0 ≤ a.toNat) (hhi : a.toNat < 0xf0) :
    wellFormedUtf8 (a :: b :: c :: t) =
      (utf8Second a b && utf8Tail c && wellFormedUtf8 t) := by
  rw [wellFormedUtf8.eq_def]
  dsimp only
  rw [if_neg (by omega), if_neg (by omega), if_pos ⟨hlo, hhi⟩]

/-- A leading byte alone. -/
theorem wellFormedUtf8_lead (hlo : 0x80 ≤ a.toNat) : wellFormedUtf8 [a] = false := by
  rw [wellFormedUtf8.eq_def]
  exact if_neg (by omega)

/-- Two bytes of a longer character. -/
theorem wellFormedUtf8_lead_two (hlo : 0xe0 ≤ a.toNat) : wellFormedUtf8 [a, b] = false := by
  rw [wellFormedUtf8.eq_def]
  dsimp only
  rw [if_neg (by omega), if_neg (by omega)]

end

/-- A character in front of a sequence. -/
theorem wellFormedUtf8_append (hv : validValue v = true) (t : List (BitVec 8)) :
    wellFormedUtf8 (toUtf8 v ++ t) = wellFormedUtf8 t := by
  have hsurrogate := (validValue_iff.mp hv).2
  have hlt := v.isLt
  have hnat : ∀ {a : BitVec 8} (k : BitVec 8), a.toNat ≠ k.toNat → a ≠ k := by
    rintro a k h rfl
    exact h rfl
  obtain ⟨hone, a, h, ha⟩ | ⟨hlo, hhi, a, b, h, ha, hb⟩ | ⟨hlo, a, b, c, h, ha, hb, hc⟩ :=
    toUtf8_bytes v <;> rw [h]
  · rw [List.singleton_append, wellFormedUtf8_one (by omega)]
  · have hsecond : utf8Second a b = true := by
      rw [utf8Second, if_neg (hnat 0xe0 (by show _ ≠ 0xe0; omega)),
        if_neg (hnat 0xf0 (by show _ ≠ 0xf0; omega)), if_neg (hnat 0xed (by show _ ≠ 0xed; omega)),
        if_neg (hnat 0xf4 (by show _ ≠ 0xf4; omega)), decide_eq_true_eq]
      omega
    rw [List.cons_append, List.singleton_append, wellFormedUtf8_two (by omega) (by omega), hsecond,
      Bool.true_and]
  · have hsecond : utf8Second a b = true := by
      rw [utf8Second, if_neg (c := a = 0xf0) (hnat 0xf0 (by show _ ≠ 0xf0; omega)),
        if_neg (c := a = 0xf4) (hnat 0xf4 (by show _ ≠ 0xf4; omega)), decide_eq_true_eq]
      constructor
      · split
        next h0 =>
          have : a.toNat = 0xe0 := by rw [h0]; rfl
          omega
        next => omega
      · split
        next hd =>
          have : a.toNat = 0xed := by rw [hd]; rfl
          omega
        next => omega
    have htail : utf8Tail c = true := utf8Tail_iff.mpr (by omega)
    rw [List.cons_append, List.cons_append, List.singleton_append,
      wellFormedUtf8_three (by omega) (by omega), hsecond, htail, Bool.true_and, Bool.true_and]

/-- A character without its last byte. -/
theorem not_wellFormedUtf8_cut (hlong : 1 < (toUtf8 v).length) :
    wellFormedUtf8 ((toUtf8 v).take ((toUtf8 v).length - 1)) = false := by
  obtain ⟨-, a, h, -⟩ | ⟨hlo, hhi, a, b, h, ha, -⟩ | ⟨hlo, a, b, c, h, ha, -, -⟩ := toUtf8_bytes
    v <;>
    rw [h] at hlong ⊢
  · exact absurd hlong (Nat.lt_irrefl 1)
  · exact wellFormedUtf8_lead (by omega)
  · exact wellFormedUtf8_lead_two (by omega)

end

-- ════════════════════
-- The characters of an input
-- ════════════════════

theorem sectionOffset_le (c : BitVec 8) : sectionOffset c ≤ 0x2100 := by
  unfold sectionOffset
  split <;> decide

theorem unicodeValue_valid {k : ℕ} (hk : k < 0x3100) (hne : k ≠ 0) :
    ∃ v, unicodeValue k = some v ∧ validValue v = true := by
  obtain ⟨high, low, hhigh, hlow, hvalid⟩ := pucTable_valid (k := k) (by
    unfold pucTableSize
    omega) hne
  exact ⟨high ++ low, by rw [unicodeValue, hhigh, hlow]; rfl, hvalid⟩

theorem pairValue_valid {c d : BitVec 8} (hd : d ≠ 0) :
    ∃ v, unicodeValue (pairOffset c d) = some v ∧ validValue v = true := by
  have hsection := sectionOffset_le c
  have hlow : (c &&& 0xf).toNat = c.toNat % 16 := by
    rw [BitVec.toNat_and]
    exact Nat.and_two_pow_sub_one_eq_mod _ 4
  have hd' := d.isLt
  have hzero : d.toNat ≠ 0 := fun h => hd (BitVec.eq_of_toNat_eq h)
  refine unicodeValue_valid ?_ ?_
  · rw [pairOffset, hlow, Nat.shiftLeft_eq]
    omega
  · unfold pairOffset
    omega

theorem singleValue_valid {c : BitVec 8} (hc : c ≠ 0) :
    ∃ v, unicodeValue c.toNat = some v ∧ validValue v = true := by
  have hlt := c.isLt
  exact unicodeValue_valid (by omega) fun h => hc (BitVec.eq_of_toNat_eq h)

theorem sjisValues_valid {chars : List (BitVec 8)} (h : ∀ c ∈ chars, c ≠ 0) :
    ∀ v ∈ sjisValues chars, validValue v = true := by
  induction chars using sjisValues.induct with
  | case1 => exact nofun
  | case2 c hsection =>
    unfold sjisValues
    rw [if_pos hsection]
    exact nofun
  | case3 c hsection d rest ih =>
    unfold sjisValues
    rw [if_pos hsection]
    dsimp only
    obtain ⟨w, hw, hvalid⟩ := pairValue_valid (c := c) (h d (by simp))
    intro v hv
    rw [hw] at hv
    rcases List.mem_cons.mp hv with rfl | hv
    · exact hvalid
    · exact ih (fun c hc => h c (by simp [hc])) v hv
  | case4 c rest hsection ih =>
    unfold sjisValues
    rw [if_neg hsection]
    obtain ⟨w, hw, hvalid⟩ := singleValue_valid (h c List.mem_cons_self)
    intro v hv
    rw [hw] at hv
    rcases List.mem_cons.mp hv with rfl | hv
    · exact hvalid
    · exact ih (fun c hc => h c (List.mem_cons_of_mem _ hc)) v hv

/-- The loop over characters. -/
def emitValues (n : ℕ) : List (BitVec 16) → ℕ → List (BitVec 8) → Option (ℕ × List (BitVec 8))
  | [], k, out => some (k, out)
  | v :: vs, k, out =>
    if k < n then
      (putBytes out k (toUtf8 v)).bind fun out => emitValues n vs (k + (toUtf8 v).length) out
    else some (k, out)

theorem emitValues_stop {n k : ℕ} (h : n ≤ k) (vs : List (BitVec 16)) (out : List (BitVec 8)) :
    emitValues n vs k out = some (k, out) := by
  cases vs with
  | nil => rfl
  | cons v vs => exact if_neg (by omega)

/-- The loop reads inside of the input and of the table. -/
theorem convertLoop_eq (n : ℕ) {chars : List (BitVec 8)} (h : ∀ c ∈ chars, c ≠ 0) (k : ℕ)
    (out : List (BitVec 8)) :
    convertLoop n (chars ++ [0]) k out = emitValues n (sjisValues chars) k out := by
  induction chars using sjisValues.induct generalizing k out with
  | case1 =>
    show convertLoop n [0] k out = some (k, out)
    unfold convertLoop
    exact if_neg fun h => h.1 rfl
  | case2 c hsection =>
    unfold sjisValues
    rw [if_pos hsection]
    show convertLoop n [c, 0] k out = some (k, out)
    unfold convertLoop
    split
    · exact if_pos rfl
    · rfl
  | case3 c hsection d rest ih =>
    have hc : c ≠ 0 := h c (by simp)
    have hd : d ≠ 0 := h d (by simp)
    obtain ⟨w, hw, -⟩ := pairValue_valid (c := c) hd
    unfold sjisValues
    rw [if_pos hsection]
    show convertLoop n (c :: d :: (rest ++ [0])) k out = _
    unfold convertLoop emitValues
    dsimp only
    rw [hw]
    by_cases hk : k < n
    · rw [if_pos ⟨hc, hk⟩, if_pos hk, if_pos hsection, if_neg hd]
      simp only [Option.bind_eq_bind, Option.bind_some, Option.getD_some]
      congr 1
      funext out
      exact ih (fun c hc => h c (by simp [hc])) _ out
    · rw [if_neg fun h => hk h.2, if_neg hk]
  | case4 c rest hsection ih =>
    have hc : c ≠ 0 := h c List.mem_cons_self
    obtain ⟨w, hw, -⟩ := singleValue_valid hc
    unfold sjisValues
    rw [if_neg hsection]
    show convertLoop n (c :: (rest ++ [0])) k out = _
    unfold convertLoop emitValues
    rw [hw]
    by_cases hk : k < n
    · rw [if_pos ⟨hc, hk⟩, if_pos hk, if_neg hsection]
      simp only [Option.bind_eq_bind, Option.bind_some, Option.getD_some]
      congr 1
      funext out
      exact ih (fun c hc => h c (List.mem_cons_of_mem _ hc)) _ out
    · rw [if_neg fun h => hk h.2, if_neg hk]

-- ════════════════════
-- The buffer
-- ════════════════════

theorem putBytes_eq (bs : List (BitVec 8)) {k : ℕ} {out : List (BitVec 8)} (hk : k ≤ out.length) :
    putBytes out k bs = if k + bs.length ≤ out.length then
      some (out.take k ++ bs ++ out.drop (k + bs.length)) else none := by
  induction bs generalizing k out with
  | nil =>
    rw [List.length_nil, Nat.add_zero, if_pos hk, List.append_nil]
    exact congrArg some (List.take_append_drop k out).symm
  | cons b bs ih =>
    unfold putBytes putByte
    by_cases hlt : k < out.length
    · rw [if_pos hlt, Option.bind_some, ih (by rw [List.length_set]; omega), List.length_set,
        List.length_cons]
      refine if_congr (by omega) (congrArg some ?_) rfl
      rw [List.take_set, List.drop_set_of_lt (by omega), ← List.take_append_getElem hlt,
        List.set_append_right _ _ (by simp), List.length_take, Nat.min_eq_left hlt.le]
      simp [Nat.add_assoc, Nat.add_comm 1]
    · rw [if_neg hlt, if_neg (by rw [List.length_cons]; omega)]
      rfl

/-- What a prefix of the buffer holds: whole characters, and no terminator. -/
structure Written (l : List (BitVec 8)) : Prop where
  wellFormed : ∀ t, wellFormedUtf8 (l ++ t) = wellFormedUtf8 t
  nonzero : ∀ b ∈ l, b ≠ 0

theorem Written.append {l : List (BitVec 8)} (h : Written l) {v : BitVec 16}
    (hv : validValue v = true) : Written (l ++ toUtf8 v) := by
  refine ⟨fun t => ?_, fun b hb => ?_⟩
  · rw [List.append_assoc, h.wellFormed, wellFormedUtf8_append hv]
  · rcases List.mem_append.mp hb with hb | hb
    · exact h.nonzero b hb
    · exact toUtf8_nonzero hv b hb

/-- The buffer after a character. -/
theorem take_written {out bs : List (BitVec 8)} {k : ℕ} (hk : k + bs.length ≤ out.length) :
    (out.take k ++ bs ++ out.drop (k + bs.length)).length = out.length ∧
      ∀ j ≤ bs.length, (out.take k ++ bs ++ out.drop (k + bs.length)).take (k + j) =
        out.take k ++ bs.take j := by
  constructor
  · rw [List.length_append, List.length_append, List.length_take, List.length_drop]
    omega
  · intro j hj
    have htake : (out.take k).length = k := by
      rw [List.length_take]
      omega
    rw [List.append_assoc, List.take_append, htake, Nat.add_sub_cancel_left, List.take_append,
      Nat.sub_eq_zero_of_le hj, List.take_zero, List.append_nil,
      List.take_of_length_le (by omega)]

variable {n k : ℕ} {out : List (BitVec 8)}

/-- What the loop keeps while every character fits. -/
structure Filled (n k : ℕ) (out : List (BitVec 8)) : Prop where
  length : out.length = n
  le : k ≤ n
  written : Written (out.take k)
  last : k = n → Written (out.take (n - 1))

theorem emitValues_fits {vs : List (BitVec 16)} (hvalid : ∀ v ∈ vs, validValue v = true)
    (h : Filled n k out) (hfits : FitsBuffer n k vs) :
    ∃ k' out', emitValues n vs k out = some (k', out') ∧ Filled n k' out' := by
  induction vs generalizing k out with
  | nil => exact ⟨k, out, rfl, h⟩
  | cons v vs ih =>
    have hv := hvalid v List.mem_cons_self
    have hpos := toUtf8_length_pos v
    unfold emitValues
    by_cases hk : k < n
    · obtain ⟨hlong, hrest⟩ := hfits hk
      have hroom : k + (toUtf8 v).length ≤ out.length := by
        rw [h.length]
        by_cases hone : 1 < (toUtf8 v).length
        · exact (hlong hone).le
        · omega
      obtain ⟨hlength, htake⟩ := take_written hroom
      rw [if_pos hk, putBytes_eq _ (h.length ▸ h.le), if_pos hroom, Option.bind_some]
      refine ih (fun v hv => hvalid v (List.mem_cons_of_mem _ hv)) ?_ hrest
      refine ⟨hlength.trans h.length, h.length ▸ hroom, ?_, fun hend => ?_⟩
      · rw [htake _ le_rfl, List.take_length]
        exact h.written.append hv
      · have hone : (toUtf8 v).length = 1 := by
          by_contra hne
          have := hlong (by omega)
          omega
        have := htake 0 (Nat.zero_le _)
        rw [Nat.add_zero, List.take_zero, List.append_nil] at this
        rw [show n - 1 = k by omega, this]
        exact h.written
    · rw [if_neg hk]
      exact ⟨k, out, rfl, h⟩

/-- Where a character does not fit it is written over the end, or it loses its last byte. -/
theorem emitValues_unfit {vs : List (BitVec 16)} (hvalid : ∀ v ∈ vs, validValue v = true)
    (h : Filled n k out) (hfits : ¬FitsBuffer n k vs) :
    emitValues n vs k out = none ∨ ∃ out' v, emitValues n vs k out = some (n, out') ∧
      out'.length = n ∧ validValue v = true ∧ 1 < (toUtf8 v).length ∧ ∃ l, Written l ∧
        out'.take (n - 1) = l ++ (toUtf8 v).take ((toUtf8 v).length - 1) := by
  induction vs generalizing k out with
  | nil => exact absurd trivial hfits
  | cons v vs ih =>
    have hv := hvalid v List.mem_cons_self
    have hpos := toUtf8_length_pos v
    obtain ⟨hk, hnot⟩ := Classical.not_imp.mp hfits
    unfold emitValues
    rw [if_pos hk, putBytes_eq _ (h.length ▸ h.le)]
    by_cases hroom : k + (toUtf8 v).length ≤ out.length
    · obtain ⟨hlength, htake⟩ := take_written hroom
      rw [if_pos hroom, Option.bind_some]
      by_cases hcut : 1 < (toUtf8 v).length ∧ k + (toUtf8 v).length = n
      · refine .inr ⟨_, v, ?_, hlength.trans h.length, hv, hcut.1, out.take k, h.written, ?_⟩
        · rw [emitValues_stop (by omega), hcut.2]
        · rw [← htake _ (Nat.sub_le _ 1)]
          congr 1
          omega
      · have hle : k + (toUtf8 v).length ≤ n := h.length ▸ hroom
        refine ih (fun v hv => hvalid v (List.mem_cons_of_mem _ hv)) ?_ fun hrest =>
          hnot ⟨fun hlong => ?_, hrest⟩
        · refine ⟨hlength.trans h.length, hle, ?_, fun hend => ?_⟩
          · rw [htake _ le_rfl, List.take_length]
            exact h.written.append hv
          · have := htake 0 (Nat.zero_le _)
            rw [Nat.add_zero, List.take_zero, List.append_nil] at this
            rw [show n - 1 = k by omega, this]
            exact h.written
        · omega
    · rw [if_neg hroom]
      exact .inl rfl

/-- A text that ends at byte `k`. -/
theorem textOf_set {out : List (BitVec 8)} (hk : k < out.length) (h : ∀ b ∈ out.take k, b ≠ 0) :
    0 ∈ out.set k 0 ∧ textOf (out.set k 0) = out.take k := by
  have hset : out.set k 0 = out.take k ++ 0 :: out.drop (k + 1) :=
    List.set_eq_take_append_cons_drop.trans (if_pos hk)
  rw [hset]
  constructor
  · exact List.mem_append_right _ List.mem_cons_self
  · unfold textOf
    rw [List.takeWhile_append_of_pos fun b hb => decide_eq_true (h b hb),
      List.takeWhile_cons_of_neg (by simp), List.append_nil]

/-- **Shift-JIS to UTF-8**: the conversion is sound if and only if every character of more than one
byte that starts in the buffer leaves room for the terminator. -/
theorem convertSound_iff (input : CString) {out : List (BitVec 8)} (hout : 1 ≤ out.length) :
    ConvertSound input out ↔ FitsBuffer out.length 0 (sjisValues input.chars) := by
  have hvalid := sjisValues_valid input.nonzero
  have hstart : Filled out.length 0 out :=
    ⟨rfl, Nat.zero_le _, ⟨fun _ => rfl, nofun⟩, fun h => absurd h (by omega)⟩
  have hconvert : shiftJis2UTF8 input out = (emitValues out.length (sjisValues input.chars) 0
      out).bind fun r => if r.1 < r.2.length then putByte r.2 r.1 0
        else putByte r.2 (r.2.length - 1) 0 := by
    rw [← convertLoop_eq _ input.nonzero]
    rfl
  unfold ConvertSound
  rw [hconvert]
  constructor
  · rintro ⟨out', hrun, hlength, hmem, hwell⟩
    by_contra hfits
    rcases emitValues_unfit hvalid hstart hfits with hnone | ⟨r, v, hr, hrlen, hv, hlong, l, hl,
      htake⟩
    · rw [hnone] at hrun
      exact nomatch hrun
    · rw [hr, Option.bind_some] at hrun
      dsimp only at hrun
      rw [if_neg (by omega), putByte, if_pos (by omega), hrlen] at hrun
      obtain rfl := Option.some.inj hrun
      have hnonzero : ∀ b ∈ r.take (out.length - 1), b ≠ 0 := by
        rw [htake]
        intro b hb
        rcases List.mem_append.mp hb with hb | hb
        · exact hl.nonzero b hb
        · exact toUtf8_nonzero hv b (List.mem_of_mem_take hb)
      have htext : textOf (r.set (out.length - 1) 0) = r.take (out.length - 1) :=
        (textOf_set (by omega) hnonzero).2
      rw [htext, htake, hl.wellFormed, not_wellFormedUtf8_cut hlong] at hwell
      exact nomatch hwell
  · intro hfits
    obtain ⟨k, r, hr, hfilled⟩ := emitValues_fits hvalid hstart hfits
    rw [hr, Option.bind_some]
    dsimp only
    have hlen := hfilled.length
    have hwhole : ∀ j < r.length, Written (r.take j) → ∃ out', putByte r j 0 = some out' ∧
        out'.length = out.length ∧ 0 ∈ out' ∧ wellFormedUtf8 (textOf out') = true := by
      intro j hj hwritten
      obtain ⟨hmem, htext⟩ := textOf_set hj hwritten.nonzero
      refine ⟨_, if_pos hj, by rw [List.length_set, hlen], hmem, ?_⟩
      rw [htext, ← List.append_nil (r.take j), hwritten.wellFormed]
      rfl
    by_cases hk : k < r.length
    · rw [if_pos hk]
      exact hwhole k hk hfilled.written
    · rw [if_neg hk, hlen]
      exact hwhole _ (by omega) (hfilled.last (by have := hfilled.le; omega))

/-- A character of two bytes that fits. -/
theorem kana_fits : ConvertSound ⟨[0x83, 0x41], by decide⟩ [0, 0, 0, 0] ↔
    FitsBuffer 4 0 (sjisValues [0x83, 0x41]) :=
  convertSound_iff ⟨[0x83, 0x41], by decide⟩ (by decide)

/-- A buffer of one byte is written at its bytes 1 and 2. -/
theorem kana_not_sound : ¬∀ (input : CString) (out : List (BitVec 8)), 1 ≤ out.length →
    ConvertSound input out := by
  intro h
  obtain ⟨out', hrun, -⟩ := h ⟨[0x83, 0x41], by decide⟩ [0] (by decide)
  have hnone : shiftJis2UTF8 ⟨[0x83, 0x41], by decide⟩ [0] = none := by decide
  rw [hnone] at hrun
  exact nomatch hrun

end Mupen64plus
