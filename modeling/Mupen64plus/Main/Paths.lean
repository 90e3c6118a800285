import Mathlib.Data.BitVec
import Mathlib.Data.List.DropRight
import Mathlib.Tactic.Common
import Mupen64plus.Lib.FinLiterals

/-!
# Combined paths

`combinepath` joins two strings with one separator. The set of the separators is searched with
`strchr`, which finds the terminator of the set too, and neither of the trimming loops looks at the
length of its string.

## Main definitions

- `CString` — the characters of a string before its terminator
- `combinepath` — the code, `none` where it reads outside of a string or does not return one
- `combined` — the path it is for

## Main results

- `combinepath_iff`
-/

namespace Mupen64plus

/-- A string that ends with a NUL. -/
structure CString where
  chars : List (BitVec 8)
  nonzero : ∀ c ∈ chars, c ≠ 0

namespace CString

/-- The bytes a pointer to the string may read. -/
def block (s : CString) : List (BitVec 8) := s.chars ++ [0]

end CString

/-- The systems that `osal` distinguishes. -/
inductive OsalFiles where
  | unix | windows
  deriving DecidableEq, Repr

/-- The first character of `OSAL_DIR_SEPARATORS`. -/
def OsalFiles.separator : OsalFiles → BitVec 8
  | .unix => 0x2f
  | .windows => 0x5c

/-- `OSAL_DIR_SEPARATORS`. -/
def OsalFiles.dirSeparators (o : OsalFiles) : List (BitVec 8) :=
  match o with
  | .unix => [o.separator]
  | .windows => [o.separator, 0x2f]

/-- `is_path_separator`: `strchr` takes the terminator for a part of the string. -/
def isPathSeparator (o : OsalFiles) (c : BitVec 8) : Bool := c ∈ o.dirSeparators ++ [0]

/-- The first loop: the length that is left, or nothing where it reads before the string. -/
def trimEnd (o : OsalFiles) (chars : List (BitVec 8)) : ℕ → Option ℕ
  | 0 => none
  | n + 1 => chars[n]?.bind fun c => if isPathSeparator o c then trimEnd o chars n else some (n + 1)

/-- The second loop on the bytes from `off_second` on: nothing where it reads behind them. -/
def trimStart (o : OsalFiles) : List (BitVec 8) → Option (List (BitVec 8))
  | [] => none
  | c :: rest => if isPathSeparator o c then trimStart o rest else some (c :: rest)

/-- `%.*s` with `(int) len_first`: a negative precision counts as none. -/
def withPrecision (n : ℕ) (chars : List (BitVec 8)) : List (BitVec 8) :=
  let precision := (BitVec.ofNat 32 n).toInt
  if precision < 0 then chars else chars.take precision.toNat

/-- What `vsnprintf` returns: the length of the output, or -1 where it is no `int`. -/
def vsnprintf (out : List (BitVec 8)) : ℤ := if out.length < 2 ^ 31 then out.length else -1

/-- The capacity that `formatstr` tries after `size`. -/
def nextSize (ret : ℤ) (size : ℕ) : ℕ := if size ≤ ret then (ret + 1).toNat else size * 2

/-- The loop of `formatstr`, with memory always there: nothing where `size` overflows. -/
def formatLoop (out : List (BitVec 8)) (ret : ℤ) (size : ℕ) : Option (List (BitVec 8)) :=
  if 0 ≤ ret ∧ ret < size then some out
  else if size < nextSize ret size ∧ nextSize ret size < 2 ^ 31 then
    formatLoop out ret (nextSize ret size)
  else none
termination_by 2 ^ 31 - size
decreasing_by omega

def formatstr (out : List (BitVec 8)) : Option (List (BitVec 8)) :=
  formatLoop out (vsnprintf out) 128

def combinepath (o : OsalFiles) (first second : CString) : Option (List (BitVec 8)) := do
  let lenFirst ← trimEnd o first.block first.chars.length
  let rest ← trimStart o second.block
  formatstr (withPrecision lenFirst first.chars ++ o.separator :: rest.takeWhile (· ≠ 0))

/-- The first path without separators at its end, a separator, and the second without separators at
its start. -/
def combined (o : OsalFiles) (first second : CString) : List (BitVec 8) :=
  first.chars.rdropWhile (· ∈ o.dirSeparators) ++
    o.separator :: second.chars.dropWhile (· ∈ o.dirSeparators)

-- ════════════════════════════════════════════════════════════════════════
-- The loops
-- ════════════════════════════════════════════════════════════════════════

section

variable {o : OsalFiles} {chars : List (BitVec 8)}

theorem isPathSeparator_iff {c : BitVec 8} (hc : c ≠ 0) :
    isPathSeparator o c = true ↔ c ∈ o.dirSeparators := by
  rw [isPathSeparator, decide_eq_true_eq, List.mem_append, List.mem_singleton, or_iff_left hc]

/-- The loop at the end of a string finds a character that is no separator, or leaves it. -/
theorem trimEnd_eq {n : ℕ} (tail : List (BitVec 8)) (hn : n ≤ chars.length)
    (hzero : ∀ c ∈ chars, c ≠ 0) :
    trimEnd o (chars ++ tail) n =
      if ∃ c ∈ chars.take n, c ∉ o.dirSeparators then
        some ((chars.take n).rdropWhile (· ∈ o.dirSeparators)).length
      else none := by
  induction n with
  | zero =>
    rw [if_neg]
    · rfl
    · rintro ⟨c, hc, -⟩
      exact absurd hc (by simp)
  | succ n ih =>
    have hlt : n < chars.length := hn
    have hget : (chars ++ tail)[n]? = some chars[n] := by
      rw [List.getElem?_append_left hlt, List.getElem?_eq_getElem hlt]
    have htake : chars.take (n + 1) = chars.take n ++ [chars[n]] :=
      (List.take_append_getElem hlt).symm
    unfold trimEnd
    rw [hget, Option.bind_some, htake]
    by_cases hsep : chars[n] ∈ o.dirSeparators
    · rw [if_pos ((isPathSeparator_iff (hzero _ (List.getElem_mem hlt))).mpr hsep),
        ih hlt.le, List.rdropWhile_concat_pos _ _ _ (by simpa using hsep)]
      refine if_congr ?_ rfl rfl
      constructor
      · rintro ⟨c, hc, hne⟩
        exact ⟨c, List.mem_append_left _ hc, hne⟩
      · rintro ⟨c, hc, hne⟩
        rcases List.mem_append.mp hc with hc | hc
        · exact ⟨c, hc, hne⟩
        · exact absurd (List.mem_singleton.mp hc ▸ hsep) hne
    · rw [if_neg fun h => hsep ((isPathSeparator_iff (hzero _ (List.getElem_mem hlt))).mp h),
        List.rdropWhile_concat_neg _ _ _ (by simpa using hsep), if_pos]
      · rw [List.length_append, List.length_take, List.length_singleton, Nat.min_eq_left hlt.le]
      · exact ⟨chars[n], List.mem_append_right _ (List.mem_singleton_self _), hsep⟩

/-- The loop at the start of a string runs over its terminator if there is nothing else. -/
theorem trimStart_eq (hzero : ∀ c ∈ chars, c ≠ 0) :
    trimStart o (chars ++ [0]) =
      if ∃ c ∈ chars, c ∉ o.dirSeparators then
        some (chars.dropWhile (· ∈ o.dirSeparators) ++ [0])
      else none := by
  induction chars with
  | nil =>
    rw [if_neg]
    · cases o <;> rfl
    · rintro ⟨c, hc, -⟩
      exact absurd hc List.not_mem_nil
  | cons c rest ih =>
    have hc : c ≠ 0 := hzero c List.mem_cons_self
    rw [List.cons_append, trimStart]
    by_cases hsep : c ∈ o.dirSeparators
    · rw [if_pos ((isPathSeparator_iff hc).mpr hsep),
        ih fun c hc => hzero c (List.mem_cons_of_mem _ hc),
        List.dropWhile_cons_of_pos (by simpa using hsep)]
      refine if_congr ?_ rfl rfl
      constructor
      · rintro ⟨c', hc', hne⟩
        exact ⟨c', List.mem_cons_of_mem _ hc', hne⟩
      · rintro ⟨c', hc', hne⟩
        rcases List.mem_cons.mp hc' with rfl | hc'
        · exact absurd hsep hne
        · exact ⟨c', hc', hne⟩
    · rw [if_neg fun h => hsep ((isPathSeparator_iff hc).mp h),
        List.dropWhile_cons_of_neg (by simpa using hsep), if_pos ⟨c, List.mem_cons_self, hsep⟩]
      rfl

end

-- ════════════════════════════════════════════════════════════════════════
-- The formatted string
-- ════════════════════════════════════════════════════════════════════════

theorem formatLoop_error (out : List (BitVec 8)) (size : ℕ) : formatLoop out (-1) size = none := by
  induction size using formatLoop.induct (-1) with
  | case1 size h => omega
  | case2 size h hnext ih => rw [formatLoop, if_neg h, if_pos hnext, ih]
  | case3 size h hnext => rw [formatLoop, if_neg h, if_neg hnext]

theorem formatstr_eq (out : List (BitVec 8)) :
    formatstr out = if out.length < 2 ^ 31 - 1 then some out else none := by
  unfold formatstr vsnprintf
  by_cases hfits : out.length < 2 ^ 31
  · rw [if_pos hfits, formatLoop]
    by_cases hsmall : out.length < 128
    · rw [if_pos (by omega), if_pos (by omega)]
    · have hnext : nextSize out.length 128 = out.length + 1 := if_pos (by omega)
      rw [if_neg (by omega), hnext]
      by_cases hlast : out.length < 2 ^ 31 - 1
      · rw [if_pos (by omega), formatLoop, if_pos (by omega), if_pos hlast]
      · rw [if_neg (by omega), if_neg hlast]
  · rw [if_neg hfits, formatLoop_error, if_neg (by omega)]

theorem withPrecision_eq {n : ℕ} (hn : n < 2 ^ 31) (chars : List (BitVec 8)) :
    withPrecision n chars = chars.take n := by
  have hnat : (BitVec.ofNat 32 n).toNat = n := by
    rw [BitVec.toNat_ofNat]
    omega
  have hint : (BitVec.ofNat 32 n).toInt = n := by
    rw [BitVec.toInt_eq_toNat_of_lt (by omega), hnat]
  unfold withPrecision
  dsimp only
  rw [hint, if_neg (by omega), Int.toNat_natCast]

/-- **Combined paths**: the path is returned if and only if each string has a character that is no
separator and the path is not longer than an `int` counts with its terminator. -/
theorem combinepath_iff (o : OsalFiles) (first second : CString) :
    combinepath o first second = some (combined o first second) ↔
      (∃ c ∈ first.chars, c ∉ o.dirSeparators) ∧ (∃ c ∈ second.chars, c ∉ o.dirSeparators) ∧
        (combined o first second).length < 2 ^ 31 - 1 := by
  have hend := trimEnd_eq (o := o) [0] le_rfl first.nonzero
  have hstart := trimStart_eq (o := o) second.nonzero
  rw [List.take_length] at hend
  unfold combinepath CString.block
  rw [hend, hstart]
  by_cases hfirst : ∃ c ∈ first.chars, c ∉ o.dirSeparators
  · by_cases hsecond : ∃ c ∈ second.chars, c ∉ o.dirSeparators
    · rw [if_pos hfirst, if_pos hsecond]
      simp only [Option.bind_eq_bind, Option.bind_some]
      have hrest : (second.chars.dropWhile (· ∈ o.dirSeparators) ++ [0]).takeWhile (· ≠ 0) =
          second.chars.dropWhile (· ∈ o.dirSeparators) := by
        rw [List.takeWhile_append_of_pos]
        · exact List.append_nil _
        · intro c hc
          exact decide_eq_true (second.nonzero c ((List.dropWhile_sublist _).subset hc))
      rw [hrest, formatstr_eq]
      constructor
      · intro h
        split at h
        next hlt =>
          rw [Option.some.inj h] at hlt
          exact ⟨hfirst, hsecond, hlt⟩
        next => exact nomatch h
      · rintro ⟨-, -, hlt⟩
        have hlength : (first.chars.rdropWhile (· ∈ o.dirSeparators)).length < 2 ^ 31 := by
          rw [combined, List.length_append] at hlt
          omega
        have hprefix := List.prefix_iff_eq_take.mp
          (List.rdropWhile_prefix (fun c => decide (c ∈ o.dirSeparators)) (l := first.chars))
        rw [withPrecision_eq hlength, ← hprefix]
        exact if_pos hlt
    · rw [if_neg hsecond]
      refine iff_of_false ?_ fun h => hsecond h.2.1
      rw [if_pos hfirst]
      exact nofun
  · rw [if_neg hfirst]
    exact iff_of_false nofun fun h => hfirst h.1

/-- `"/"` in front of a name is read before its start. -/
theorem root_not_combined :
    ¬∀ (o : OsalFiles) (first second : CString),
      combinepath o first second = some (combined o first second) := by
  intro h
  exact absurd (h .unix ⟨[0x2f], by decide⟩ ⟨[0x61], by decide⟩) (by decide)

end Mupen64plus
