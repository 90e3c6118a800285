import Mathlib.Data.BitVec
import Mathlib.Logic.Function.Iterate
import Mathlib.Tactic.Common

/-!
# Shift registers that move down

A register that shifts its lowest bit out, and takes the taps in whenever that bit is set. Bytes
come in at its low end. A table that holds eight steps of each byte takes them in one step.

## Main definitions

- `bitStep`, `bitIn`, `byteStep` — the register after a step, a bit, and a byte
- `tableStep` — a byte by table

## Main results

- `foldl_bitIn_bytes` — a word bit by bit is its bytes one after another
- `tableStep_eq` — the table does what eight steps do
- `foldl_byteStep_inj` — with a tap at its high end the register tells runs of as many bytes as it
  holds apart, whatever was before them and is behind them
-/

namespace DownRegister

variable {w : ℕ} (taps : BitVec w)

def bitStep (v : BitVec w) : BitVec w := (v >>> 1) ^^^ (if v.getLsbD 0 then taps else 0#w)

/-- A bit by itself. -/
def bitIn (v : BitVec w) (b : Bool) : BitVec w := bitStep taps (v ^^^ (BitVec.ofBool b).setWidth w)

def byteStep (v : BitVec w) (b : BitVec 8) : BitVec w := (bitStep taps)^[8] (v ^^^ b.setWidth w)

def tableStep (table : BitVec 8 → BitVec w) (v : BitVec w) (b : BitVec 8) : BitVec w :=
  (v >>> 8) ^^^ table (v.setWidth 8 ^^^ b)

-- ════════════════════════════════════════════════════════════════════════
-- Steps
-- ════════════════════════════════════════════════════════════════════════

variable {taps}

theorem bitStep_xor (a b : BitVec w) :
    bitStep taps (a ^^^ b) = bitStep taps a ^^^ bitStep taps b := by
  unfold bitStep
  rw [BitVec.getLsbD_xor, BitVec.ushiftRight_xor_distrib]
  ext i hi
  cases a.getLsbD 0 <;> cases b.getLsbD 0 <;> simp <;> grind

theorem iterate_xor (n : ℕ) (a b : BitVec w) :
    (bitStep taps)^[n] (a ^^^ b) = (bitStep taps)^[n] a ^^^ (bitStep taps)^[n] b := by
  induction n generalizing a b with
  | zero => rfl
  | succ n ih => rw [Function.iterate_succ_apply, bitStep_xor, ih, Function.iterate_succ_apply,
      Function.iterate_succ_apply]

/-- Bits that are clear take nothing in. -/
theorem iterate_of_low_zero {n : ℕ} {v : BitVec w} (h : ∀ i < n, v.getLsbD i = false) :
    (bitStep taps)^[n] v = v >>> n := by
  induction n with
  | zero => exact (BitVec.ushiftRight_zero v).symm
  | succ n ih =>
    have hbit : (v >>> n).getLsbD 0 = false := by
      rw [BitVec.getLsbD_ushiftRight]
      exact h n (Nat.lt_succ_self n)
    rw [Function.iterate_succ_apply', ih fun i hi => h i (Nat.lt_succ_of_lt hi), bitStep, hbit,
      if_neg Bool.false_ne_true, BitVec.xor_zero, ← BitVec.shiftRight_add]

theorem iterate_shiftLeft {v : BitVec w} {n : ℕ} (h : v <<< n >>> n = v) :
    (bitStep taps)^[n] (v <<< n) = v := by
  rw [iterate_of_low_zero fun i hi => ?_, h]
  rw [BitVec.getLsbD_shiftLeft]
  simp [hi]

theorem bitStep_injective (h : taps.msb = true) : Function.Injective (bitStep taps) := by
  intro a b hab
  have hzero : bitStep taps (a ^^^ b) = 0#w := by rw [bitStep_xor, hab, BitVec.xor_self]
  have hlow : (a ^^^ b).getLsbD 0 = false := by
    by_contra hset
    rw [Bool.not_eq_false] at hset
    have hmsb := congrArg BitVec.msb hzero
    rw [bitStep, hset, if_pos rfl, BitVec.msb_xor, h, BitVec.msb_ushiftRight] at hmsb
    simp at hmsb
  rw [bitStep, hlow, if_neg Bool.false_ne_true, BitVec.xor_zero] at hzero
  have hxor : a ^^^ b = 0#w := by
    refine BitVec.eq_of_getLsbD_eq fun i hi => ?_
    rw [BitVec.getLsbD_zero]
    cases i with
    | zero => exact hlow
    | succ i =>
      have hbit := congrArg (BitVec.getLsbD · i) hzero
      rwa [BitVec.getLsbD_ushiftRight, BitVec.getLsbD_zero, Nat.add_comm] at hbit
  exact BitVec.xor_eq_zero_iff.1 hxor

-- ════════════════════════════════════════════════════════════════════════
-- Bytes
-- ════════════════════════════════════════════════════════════════════════

/-- Bits that fit into the register can be taken in all at once. -/
theorem foldl_bitIn {m n : ℕ} (h : n ≤ w) (v : BitVec w) (x : BitVec m) :
    (List.range n).foldl (fun c i => bitIn taps c (x.getLsbD i)) v =
      (bitStep taps)^[n] (v ^^^ (x.setWidth n).setWidth w) := by
  induction n with
  | zero =>
    have hzero : (x.setWidth 0).setWidth w = 0#w := by
      refine BitVec.eq_of_getLsbD_eq fun i hi => ?_
      simp
    rw [hzero, BitVec.xor_zero]
    rfl
  | succ n ih =>
    have hback : (BitVec.ofBool (x.getLsbD n)).setWidth w <<< n >>> n =
        (BitVec.ofBool (x.getLsbD n)).setWidth w := by
      refine BitVec.eq_of_getLsbD_eq fun i hi => ?_
      rw [BitVec.getLsbD_ushiftRight, BitVec.getLsbD_shiftLeft, BitVec.getLsbD_setWidth,
        Nat.add_sub_cancel_left, BitVec.getLsbD_setWidth]
      cases i with
      | zero => simp [(by omega : 0 < w), (by omega : n < w)]
      | succ i => simp
    have hlow : (x.setWidth (n + 1)).setWidth w =
        (x.setWidth n).setWidth w ^^^ (BitVec.ofBool (x.getLsbD n)).setWidth w <<< n := by
      refine BitVec.eq_of_getLsbD_eq fun i hi => ?_
      rcases Nat.lt_trichotomy i n with hi' | rfl | hi'
      · simp [hi, hi', Nat.lt_succ_of_lt hi']
      · simp [hi]
      · simp [hi]
        grind
    rw [List.range_succ, List.foldl_append, ih (Nat.le_of_succ_le h), List.foldl_cons,
      List.foldl_nil, bitIn, hlow, ← BitVec.xor_assoc, Function.iterate_succ_apply',
      iterate_xor n (_ ^^^ _), iterate_shiftLeft hback]

/-- A word bit by bit is its bytes one after another. -/
theorem foldl_bitIn_bytes (h : 8 ≤ w) {m : ℕ} (x : BitVec m) (k : ℕ) (v : BitVec w) :
    (List.range (8 * k)).foldl (fun c i => bitIn taps c (x.getLsbD i)) v =
      (List.range k).foldl (fun c i => byteStep taps c (x.extractLsb' (8 * i) 8)) v := by
  induction k with
  | zero => rfl
  | succ k ih =>
    have hbits : ∀ i, x.getLsbD (8 * k + i) = (x >>> (8 * k)).getLsbD i := by
      intro i
      rw [BitVec.getLsbD_ushiftRight]
    have hbyte : (x >>> (8 * k)).setWidth 8 = x.extractLsb' (8 * k) 8 := by
      refine BitVec.eq_of_getLsbD_eq fun i hi => ?_
      simp
    rw [Nat.mul_succ, List.range_add, List.foldl_append, List.foldl_map, ih]
    simp only [hbits]
    rw [foldl_bitIn h, hbyte, List.range_succ, List.foldl_append]
    rfl

/-- **The table**: a byte by table is eight steps. -/
theorem tableStep_eq (v : BitVec w) (b : BitVec 8) :
    tableStep (fun i => (bitStep taps)^[8] (i.setWidth w)) v b = byteStep taps v b := by
  have hsplit : v ^^^ b.setWidth w = v >>> 8 <<< 8 ^^^ (v.setWidth 8 ^^^ b).setWidth w := by
    ext i hi
    simp only [BitVec.getElem_xor, BitVec.getElem_shiftLeft, BitVec.getElem_setWidth,
      BitVec.getLsbD_xor, BitVec.getLsbD_setWidth]
    by_cases hlow : i < 8
    · simp [hlow, BitVec.getLsbD_eq_getElem hi]
    · simp [hlow]
      grind
  have hback : v >>> 8 <<< 8 >>> 8 = v >>> 8 := by
    ext i hi
    simp
    grind
  rw [byteStep, hsplit, iterate_xor, iterate_shiftLeft hback, tableStep]

variable (w) in
/-- The bits of a run of bytes, the first byte lowest. -/
def wordOf : List (BitVec 8) → BitVec w
  | [] => 0#w
  | b :: l => b.setWidth w ^^^ wordOf l <<< 8

theorem getLsbD_wordOf {l : List (BitVec 8)} {i : ℕ} (hi : 8 * l.length ≤ i) :
    (wordOf w l).getLsbD i = false := by
  induction l generalizing i with
  | nil => exact BitVec.getLsbD_zero
  | cons b l ih =>
    rw [List.length_cons] at hi
    rw [wordOf, BitVec.getLsbD_xor, BitVec.getLsbD_setWidth, BitVec.getLsbD_shiftLeft,
      BitVec.getLsbD_of_ge b i (by omega), ih (by omega), Bool.and_false, Bool.and_false,
      Bool.false_xor]

theorem wordOf_shift {l : List (BitVec 8)} (h : 8 * (l.length + 1) ≤ w) :
    wordOf w l <<< 8 >>> 8 = wordOf w l := by
  refine BitVec.eq_of_getLsbD_eq fun i hi => ?_
  rw [BitVec.getLsbD_ushiftRight, BitVec.getLsbD_shiftLeft, Nat.add_sub_cancel_left]
  by_cases hlow : 8 + i < w
  · simp [hlow]
  · rw [getLsbD_wordOf (by omega), Bool.and_false]

/-- Bytes that fit into the register can be taken in all at once. -/
theorem foldl_byteStep {l : List (BitVec 8)} (h : 8 * l.length ≤ w) (v : BitVec w) :
    l.foldl (byteStep taps) v = (bitStep taps)^[8 * l.length] (v ^^^ wordOf w l) := by
  induction l generalizing v with
  | nil => exact (BitVec.xor_zero).symm
  | cons b l ih =>
    rw [List.length_cons] at h
    have hword : wordOf w (b :: l) = b.setWidth w ^^^ wordOf w l <<< 8 := rfl
    rw [List.foldl_cons, ih (by omega), hword, List.length_cons, Nat.mul_succ,
      Function.iterate_add_apply, ← BitVec.xor_assoc, iterate_xor 8,
      iterate_shiftLeft (wordOf_shift h)]
    rfl

theorem wordOf_inj {l l' : List (BitVec 8)} (hlength : l.length = l'.length)
    (h : 8 * l.length ≤ w) (hword : wordOf w l = wordOf w l') : l = l' := by
  induction l generalizing l' with
  | nil => exact (List.length_eq_zero_iff.1 hlength.symm).symm
  | cons b l ih =>
    obtain ⟨b', l', rfl⟩ := List.exists_cons_of_length_eq_add_one hlength.symm
    rw [List.length_cons] at h
    rw [List.length_cons, List.length_cons, Nat.add_right_cancel_iff] at hlength
    have hbyte : b = b' := by
      refine BitVec.eq_of_getLsbD_eq fun i hi => ?_
      have hbit := congrArg (BitVec.getLsbD · i) hword
      simpa [wordOf, BitVec.getLsbD_xor, BitVec.getLsbD_setWidth, BitVec.getLsbD_shiftLeft, hi,
        (by omega : i < w)] using hbit
    have hrest : wordOf w l <<< 8 = wordOf w l' <<< 8 := by
      rw [wordOf, wordOf, hbyte] at hword
      exact (BitVec.xor_right_inj _).1 hword
    have hshift := congrArg (fun x : BitVec w => x >>> 8) hrest
    simp only [wordOf_shift h, wordOf_shift (hlength ▸ h : 8 * (l'.length + 1) ≤ w)] at hshift
    rw [hbyte, ih hlength (by omega) hshift]

theorem foldl_byteStep_injective (h : taps.msb = true) (l : List (BitVec 8)) :
    Function.Injective fun v => l.foldl (byteStep taps) v := by
  induction l with
  | nil => exact Function.injective_id
  | cons b l ih =>
    intro v v' hv
    have hstep := (bitStep_injective h).iterate 8 (ih hv)
    exact (BitVec.xor_left_inj _).1 hstep

/-- **Bursts**: runs that the register can hold leave different things behind, from any state and
    before any bytes. -/
theorem foldl_byteStep_inj (h : taps.msb = true) {v : BitVec w}
    {l l' before behind : List (BitVec 8)}
    (hlength : l.length = l'.length) (hfits : 8 * l.length ≤ w) :
    (before ++ l ++ behind).foldl (byteStep taps) v =
      (before ++ l' ++ behind).foldl (byteStep taps) v ↔ l = l' := by
  refine ⟨fun heq => ?_, fun heq => heq ▸ rfl⟩
  simp only [List.foldl_append] at heq
  have hmiddle := foldl_byteStep_injective h behind heq
  generalize before.foldl (byteStep taps) v = u at hmiddle
  rw [foldl_byteStep hfits, foldl_byteStep (hlength ▸ hfits : 8 * l'.length ≤ w),
    ← hlength] at hmiddle
  exact wordOf_inj hlength hfits
    ((BitVec.xor_right_inj _).1 ((bitStep_injective h).iterate _ hmiddle))

/-- Runs that agree but for a window. -/
theorem foldl_byteStep_window (h : taps.msb = true) {v : BitVec w} {l l' : List (BitVec 8)}
    {start n : ℕ} (hlength : l.length = l'.length) (hfits : 8 * n ≤ w)
    (hbefore : l.take start = l'.take start) (hbehind : l.drop (start + n) = l'.drop (start + n)) :
    l.foldl (byteStep taps) v = l'.foldl (byteStep taps) v ↔ l = l' := by
  have hsplit : ∀ k : List (BitVec 8),
      k = k.take start ++ (k.drop start).take n ++ k.drop (start + n) := by
    intro k
    rw [List.append_assoc, ← List.drop_drop, List.take_append_drop, List.take_append_drop]
  refine ⟨fun heq => ?_, fun heq => heq ▸ rfl⟩
  rw [hsplit l, hsplit l', ← hbefore, ← hbehind] at heq ⊢
  have hwindow := (foldl_byteStep_inj h (by simp [hlength]) ?_).1 heq
  · rw [hwindow]
  · rw [List.length_take]
    omega

end DownRegister
