import Mupen64plus.R4300.CachedCode
import Mupen64plus.Lib.Flags

/-!
# The range of an invalidation

`invalidate_cached_code_hacktarux` should mark every page whose block holds a decoded instruction
with a byte in the range.

## Main results

- `invalidateLoop_marks` — a walk that stays inside the address space ends, and marks the pages
  with a hit among their tested words
- `invalidateLoop_runsOff` — a walk that leaves the address space never ends
- `invalidatesRange_iff` — exactly when the pages of a range are all marked
- `aligned_invalidates` — they are for a range of whole words below the last page, if no block
  spills into it

The walk tests one byte of each word, the one `address` has in its word, up to the first page it
leaves early, and the first byte from then on. The word of the last byte is tested only if that
byte lies behind the tested one.
-/

namespace Mupen64plus

/-- `invalidate_cached_code_hacktarux` for any `size_t`; `addr_max` keeps 32 bits of the sum. -/
def invalidateCachedCodeHacktaruxSize (ci : CachedInterp) (address : BitVec 32) (size : ℕ) :
    Option CachedInterp :=
  if size = 0 then some { ci with invalidCode := fun _ => true }
  else invalidateLoop (address + BitVec.ofNat 32 size) invalidateFuel address ci

theorem invalidateCachedCodeHacktaruxSize_toNat (ci : CachedInterp) (address size : BitVec 32) :
    invalidateCachedCodeHacktaruxSize ci address size.toNat =
      invalidateCachedCodeHacktarux ci address size := by
  have hzero : size.toNat = 0 ↔ size = 0 := by
    rw [← BitVec.toNat_inj]
    rfl
  simp only [invalidateCachedCodeHacktaruxSize, invalidateCachedCodeHacktarux, hzero,
    BitVec.ofNat_toNat, BitVec.setWidth_eq]

/-- The address of the word of a slot. -/
def wordAt (p : Page) (s : ℕ) : ℕ := p.toNat * 0x1000 + 4 * s

/-- Some decoded instruction of the block of a page has a byte in `[first, stop)`. -/
def Block.Touches (b : Block) (p : Page) (first stop : ℕ) : Prop :=
  ∃ s iw, b.slots s = .compiled iw ∧ wordAt p s < stop ∧ first < wordAt p s + 4

/-- The invalidation of a range ends, and marks every page whose block touches it. -/
def InvalidatesRange (ci : CachedInterp) (address : BitVec 32) (size : ℕ) : Prop :=
  ∃ ci', invalidateCachedCodeHacktaruxSize ci address size = some ci' ∧
    ∀ p b, ci.blocks p = some b → b.Touches p address.toNat (address.toNat + size) →
      ci'.invalidCode p = true

namespace CachedInterp

/-- A test of the slot marks the page: it has no block, or the slot is not `NOTCOMPILED`. -/
def Hits (ci : CachedInterp) (p : Page) (s : ℕ) : Prop :=
  ∀ b, ci.blocks p = some b → b.slots s ≠ .notCompiled

/-- The walk goes on with the next page when it tests the slot. -/
def LeavesAt (ci : CachedInterp) (p : Page) (s : ℕ) : Prop := ci.invalidCode p = true ∨ ci.Hits p s

/-- The walk from `first` leaves some page before `p` early. -/
def LeavesBefore (ci : CachedInterp) (first : ℕ) (p : Page) : Prop :=
  ∃ q s, q.toNat < p.toNat ∧ s < 1024 ∧ first ≤ wordAt q s + first % 4 ∧ ci.LeavesAt q s

open Classical in
/-- The byte of a word of `p` that the walk from `first` tests. -/
noncomputable def phase (ci : CachedInterp) (first : ℕ) (p : Page) : ℕ :=
  if ci.LeavesBefore first p then 0 else first % 4

/-- The walk from `first` to `bound` comes by the word, unless it has left the page. -/
def Tests (ci : CachedInterp) (first bound : ℕ) (p : Page) (s : ℕ) : Prop :=
  s < 1024 ∧ first ≤ wordAt p s + ci.phase first p ∧ wordAt p s + ci.phase first p < bound

/-- The walk leaves the last page of the address space, or tests its last word. -/
def RunsOff (ci : CachedInterp) (first bound : ℕ) : Prop :=
  ∃ s, ci.Tests first bound 0xfffff s ∧ (s = 1023 ∨ ci.LeavesAt 0xfffff s)

end CachedInterp

-- ════════════════════
-- Addresses
-- ════════════════════

theorem slotOf_eq (a : BitVec 32) : slotOf a = a.toNat % 4096 / 4 := by
  have hlow : (a &&& 0xfff).toNat = a.toNat % 4096 := Flags.toNat_and_low 12 rfl
  rw [slotOf, BitVec.toNat_ushiftRight, hlow, Nat.shiftRight_eq_div_pow]

theorem slotOf_lt (a : BitVec 32) : slotOf a < 1024 := by
  rw [slotOf_eq]
  omega

/-- An address is a byte of the word of its slot. -/
theorem toNat_eq_wordAt (a : BitVec 32) :
    a.toNat = wordAt (pageOf a) (slotOf a) + a.toNat % 4 := by
  rw [wordAt, slotOf_eq, pageOf_toNat]
  omega

theorem lastWordOf_toNat (a : BitVec 32) :
    (lastWordOf a).toNat = (pageOf a).toNat * 0x1000 + 0xffc := by
  have hpage : (a &&& ~~~0xfff).toNat = 2 ^ 12 * (a.toNat / 2 ^ 12 % 2 ^ 20) := by
    rw [BitVec.toNat_and, ← Flags.and_field]
    rfl
  rw [lastWordOf, BitVec.toNat_or, hpage, pageOf_toNat]
  have hadd := Nat.two_pow_add_eq_or_of_lt (show 0xffc < 2 ^ 12 by decide)
    (a.toNat / 2 ^ 12 % 2 ^ 20)
  have hbound := a.isLt
  have hlast : (0xffc : BitVec 32).toNat = 0xffc := rfl
  rw [hlast, ← hadd]
  omega

/-- Where the walk goes on after leaving a page. -/
theorem next_page (a : BitVec 32) :
    (lastWordOf a + 4).toNat = ((pageOf a).toNat + 1) * 0x1000 % 2 ^ 32 := by
  have hfour : (4 : BitVec 32).toNat = 4 := rfl
  rw [BitVec.toNat_add, lastWordOf_toNat, hfour, Nat.add_assoc, Nat.succ_mul]

theorem next_word (a : BitVec 32) : (a + 4).toNat = (a.toNat + 4) % 2 ^ 32 := by
  rw [BitVec.toNat_add]
  rfl

/-- An address lies in the word of its slot only. -/
theorem eq_of_wordAt {a : BitVec 32} {p : Page} {s : ℕ} (hs : s < 1024)
    (h : wordAt p s + a.toNat % 4 = a.toNat) : p = pageOf a ∧ s = slotOf a := by
  simp only [wordAt] at h
  have hp : p.toNat = (pageOf a).toNat := by
    rw [pageOf_toNat]
    omega
  rw [slotOf_eq]
  exact ⟨BitVec.eq_of_toNat_eq hp, by omega⟩

-- ════════════════════
-- One test
-- ════════════════════

namespace CachedInterp

variable {ci : CachedInterp}

theorem mustInvalidate_iff (a : BitVec 32) :
    ci.mustInvalidate a = true ↔ ci.Hits (pageOf a) (slotOf a) := by
  unfold mustInvalidate Hits
  cases ci.blocks (pageOf a) with
  | none => simp
  | some b => simp

theorem setInvalid_self {p : Page} (h : ci.invalidCode p = true) : ci.setInvalid p true = ci := by
  rw [setInvalid, ← h, Function.update_eq_self]

theorem setInvalid_invalidCode (p q : Page) :
    (ci.setInvalid p true).invalidCode q = true ↔ ci.invalidCode q = true ∨ q = p := by
  rw [setInvalid]
  by_cases h : q = p
  · subst h
    simp
  · simp [h]

theorem invalidateLoop_ends {bound a : BitVec 32} (fuel : ℕ) (h : ¬a < bound) :
    invalidateLoop bound (fuel + 1) a ci = some ci := by
  rw [invalidateLoop, if_neg h]

theorem invalidateLoop_leaves {bound a : BitVec 32} (fuel : ℕ) (h : a < bound)
    (hleave : ci.LeavesAt (pageOf a) (slotOf a)) :
    invalidateLoop bound (fuel + 1) a ci =
      invalidateLoop bound fuel (lastWordOf a + 4) (ci.setInvalid (pageOf a) true) := by
  rw [invalidateLoop, if_pos h]
  by_cases hinv : ci.invalidCode (pageOf a) = true
  · rw [if_pos hinv, setInvalid_self hinv]
  · have hhit : ci.Hits (pageOf a) (slotOf a) := hleave.resolve_left hinv
    rw [if_neg hinv, if_pos ((mustInvalidate_iff a).2 hhit)]

theorem invalidateLoop_stays {bound a : BitVec 32} (fuel : ℕ) (h : a < bound)
    (hstay : ¬ci.LeavesAt (pageOf a) (slotOf a)) :
    invalidateLoop bound (fuel + 1) a ci = invalidateLoop bound fuel (a + 4) ci := by
  have hinv : ¬ci.invalidCode (pageOf a) = true := fun hinv => hstay (.inl hinv)
  have hmust : ¬ci.mustInvalidate a = true := fun hmust =>
    hstay (.inr ((mustInvalidate_iff a).1 hmust))
  rw [invalidateLoop, if_pos h, if_neg hinv, if_neg hmust]

theorem phase_le (ci : CachedInterp) (first : ℕ) (p : Page) : ci.phase first p ≤ first % 4 := by
  unfold phase
  split <;> omega

/-- Nothing comes before the page the walk starts in. -/
theorem phase_here (ci : CachedInterp) (a : BitVec 32) :
    ci.phase a.toNat (pageOf a) = a.toNat % 4 := by
  refine if_neg ?_
  rintro ⟨q, s, hq, hs, hfirst, -⟩
  rw [pageOf_toNat] at hq
  simp only [wordAt] at hfirst
  omega

theorem tests_here (ci : CachedInterp) {a bound : BitVec 32} (h : a < bound) :
    ci.Tests a.toNat bound.toNat (pageOf a) (slotOf a) := by
  rw [Tests, phase_here, ← toNat_eq_wordAt]
  exact ⟨slotOf_lt a, le_refl _, h⟩

/-- A word that is left later lies behind one that is not left. -/
theorem next_le_of_leavesAt {a : BitVec 32} (hstay : ¬ci.LeavesAt (pageOf a) (slotOf a))
    {q : Page} {s : ℕ} (hs : s < 1024) (hfirst : a.toNat ≤ wordAt q s + a.toNat % 4)
    (hleave : ci.LeavesAt q s) : a.toNat + 4 ≤ wordAt q s + a.toNat % 4 := by
  have hne : wordAt q s + a.toNat % 4 ≠ a.toNat := by
    intro heq
    obtain ⟨rfl, rfl⟩ := eq_of_wordAt hs heq
    exact hstay hleave
  simp only [wordAt] at hfirst hne ⊢
  omega

/-- A test that does not leave the page changes nothing for the words behind it. -/
theorem phase_next {a : BitVec 32} (hstay : ¬ci.LeavesAt (pageOf a) (slotOf a)) (p : Page) :
    ci.phase (a.toNat + 4) p = ci.phase a.toNat p := by
  have hmod : (a.toNat + 4) % 4 = a.toNat % 4 := by omega
  have hiff : ci.LeavesBefore (a.toNat + 4) p ↔ ci.LeavesBefore a.toNat p := by
    constructor
    · rintro ⟨q, s, hq, hs, hfirst, hleave⟩
      exact ⟨q, s, hq, hs, by omega, hleave⟩
    · rintro ⟨q, s, hq, hs, hfirst, hleave⟩
      refine ⟨q, s, hq, hs, ?_, hleave⟩
      rw [hmod]
      exact next_le_of_leavesAt hstay hs hfirst hleave
  unfold phase
  rw [hmod]
  by_cases h : ci.LeavesBefore a.toNat p
  · rw [if_pos h, if_pos (hiff.2 h)]
  · rw [if_neg h, if_neg (mt hiff.1 h)]

theorem phase_of_leavesBefore {first : ℕ} {p : Page} (h : ci.LeavesBefore first p) :
    ci.phase first p = 0 :=
  if_pos h

theorem phase_of_not_leavesBefore {first : ℕ} {p : Page} (h : ¬ci.LeavesBefore first p) :
    ci.phase first p = first % 4 :=
  if_neg h

/-- The tests behind one that does not leave the page are those of the walk but this one. -/
theorem tests_next {a : BitVec 32} (hstay : ¬ci.LeavesAt (pageOf a) (slotOf a)) (bound : ℕ)
    (p : Page) (s : ℕ) :
    ci.Tests (a.toNat + 4) bound p s ↔
      ci.Tests a.toNat bound p s ∧ ¬(p = pageOf a ∧ s = slotOf a) := by
  have hword := toNat_eq_wordAt a
  simp only [Tests, phase_next hstay]
  constructor
  · rintro ⟨hs, hfirst, hbound⟩
    refine ⟨⟨hs, by omega, hbound⟩, ?_⟩
    rintro ⟨rfl, rfl⟩
    rw [phase_here] at hfirst
    omega
  · rintro ⟨⟨hs, hfirst, hbound⟩, hne⟩
    refine ⟨hs, ?_, hbound⟩
    by_cases hbefore : ci.LeavesBefore a.toNat p
    · obtain ⟨q, t, hq, ht, hlater, hleave⟩ := hbefore
      calc a.toNat + 4 ≤ wordAt q t + a.toNat % 4 := next_le_of_leavesAt hstay ht hlater hleave
        _ ≤ p.toNat * 0x1000 := by
          clear hlater hleave hfirst hbound hne hword
          simp only [wordAt]
          omega
        _ ≤ wordAt p s + ci.phase a.toNat p := by
          simp only [wordAt, Nat.add_assoc]
          exact Nat.le_add_right _ _
    · rw [phase_of_not_leavesBefore hbefore] at hfirst ⊢
      have hother : wordAt p s + a.toNat % 4 ≠ a.toNat := fun heq => hne (eq_of_wordAt hs heq)
      simp only [wordAt] at hfirst hother ⊢
      omega

/-- The tests behind a page the walk leaves are those of the walk in the pages after it. -/
theorem tests_next_page {a : BitVec 32} (hleave : ci.LeavesAt (pageOf a) (slotOf a)) (bound : ℕ)
    {p : Page} (hp : p ≠ pageOf a) (s : ℕ) :
    (ci.setInvalid (pageOf a) true).Tests (((pageOf a).toNat + 1) * 0x1000) bound p s ↔
      ci.Tests a.toNat bound p s := by
  have haligned :
      (ci.setInvalid (pageOf a) true).phase (((pageOf a).toNat + 1) * 0x1000) p = 0 := by
    have hle := (ci.setInvalid (pageOf a) true).phase_le (((pageOf a).toNat + 1) * 0x1000) p
    omega
  have hne : p.toNat ≠ (pageOf a).toNat := fun h => hp (BitVec.eq_of_toNat_eq h)
  have hword := toNat_eq_wordAt a
  have hslot := slotOf_lt a
  simp only [Tests, haligned]
  by_cases hlater : (pageOf a).toNat < p.toNat
  · have hbefore : ci.LeavesBefore a.toNat p :=
      ⟨pageOf a, slotOf a, hlater, hslot, hword.le, hleave⟩
    rw [phase_of_leavesBefore hbefore]
    simp only [wordAt] at hword ⊢
    constructor
    · rintro ⟨hs, hfirst, hbound⟩
      exact ⟨hs, by omega, hbound⟩
    · rintro ⟨hs, hfirst, hbound⟩
      exact ⟨hs, by omega, hbound⟩
  · have hle := ci.phase_le a.toNat p
    simp only [wordAt] at hword ⊢
    constructor
    · rintro ⟨hs, hfirst, -⟩
      omega
    · rintro ⟨hs, hfirst, -⟩
      omega

/-- A walk runs off behind a page it leaves exactly if it does so from the start. -/
theorem runsOff_next_page {a : BitVec 32} (hleave : ci.LeavesAt (pageOf a) (slotOf a))
    {bound : ℕ} (hp : (0xfffff : Page) ≠ pageOf a) :
    (ci.setInvalid (pageOf a) true).RunsOff (((pageOf a).toNat + 1) * 0x1000) bound ↔
      ci.RunsOff a.toNat bound := by
  have hleaves (s : ℕ) : (ci.setInvalid (pageOf a) true).LeavesAt 0xfffff s ↔
      ci.LeavesAt 0xfffff s := by
    unfold LeavesAt
    rw [setInvalid_invalidCode]
    simp only [hp, or_false]
    exact Iff.rfl
  simp only [RunsOff, tests_next_page hleave bound hp, hleaves]

/-- The walk is at the last word of the address space, or in its last page and leaves it. -/
theorem runsOff_here {a bound : BitVec 32} (h : a < bound) (hp : pageOf a = 0xfffff)
    (hend : slotOf a = 1023 ∨ ci.LeavesAt (pageOf a) (slotOf a)) :
    ci.RunsOff a.toNat bound.toNat := by
  have hhere := tests_here ci h
  rw [hp] at hhere hend
  exact ⟨slotOf a, hhere, hend⟩

-- ════════════════════
-- The walk
-- ════════════════════

/-- The pages marked by a walk that goes on with the next page. -/
theorem marks_next_page {a bound : BitVec 32} (h : a < bound)
    (hleave : ci.LeavesAt (pageOf a) (slotOf a)) (p : Page) :
    ((ci.setInvalid (pageOf a) true).invalidCode p = true ∨
      ∃ s, (ci.setInvalid (pageOf a) true).Tests (((pageOf a).toNat + 1) * 0x1000) bound.toNat p s ∧
        (ci.setInvalid (pageOf a) true).Hits p s) ↔
    (ci.invalidCode p = true ∨ ∃ s, ci.Tests a.toNat bound.toNat p s ∧ ci.Hits p s) := by
  rw [setInvalid_invalidCode]
  by_cases hp : p = pageOf a
  · subst hp
    have hmark : ci.invalidCode (pageOf a) = true ∨
        ∃ s, ci.Tests a.toNat bound.toNat (pageOf a) s ∧ ci.Hits (pageOf a) s :=
      hleave.imp_right fun hhit => ⟨slotOf a, tests_here ci h, hhit⟩
    exact iff_of_true (.inl (.inr rfl)) hmark
  · simp only [hp, or_false, tests_next_page hleave bound.toNat hp]
    exact Iff.rfl

/-- The pages marked by a walk that goes on with the next word. -/
theorem marks_next {a : BitVec 32} (hstay : ¬ci.LeavesAt (pageOf a) (slotOf a)) (bound : ℕ)
    (p : Page) :
    (∃ s, ci.Tests (a.toNat + 4) bound p s ∧ ci.Hits p s) ↔
      ∃ s, ci.Tests a.toNat bound p s ∧ ci.Hits p s := by
  simp only [tests_next hstay]
  constructor
  · rintro ⟨s, ⟨htest, -⟩, hhit⟩
    exact ⟨s, htest, hhit⟩
  · rintro ⟨s, htest, hhit⟩
    refine ⟨s, ⟨htest, ?_⟩, hhit⟩
    rintro ⟨rfl, rfl⟩
    exact hstay (.inr hhit)

/-- A walk that stays inside the address space ends, and marks the pages with a hit among their
    tested words. -/
theorem invalidateLoop_marks (bound : BitVec 32) (fuel : ℕ) (a : BitVec 32) (ci : CachedInterp)
    (hfuel : 2 ^ 30 < fuel + a.toNat / 4) (hin : ¬ci.RunsOff a.toNat bound.toNat) :
    ∃ ci', invalidateLoop bound fuel a ci = some ci' ∧ ∀ p, ci'.invalidCode p = true ↔
      ci.invalidCode p = true ∨ ∃ s, ci.Tests a.toNat bound.toNat p s ∧ ci.Hits p s := by
  induction fuel generalizing a ci with
  | zero =>
    have hbound := a.isLt
    omega
  | succ fuel ih =>
    by_cases h : a < bound
    · have hword := toNat_eq_wordAt a
      have hslot := slotOf_lt a
      have hpage := (pageOf a).isLt
      simp only [wordAt] at hword
      by_cases hleave : ci.LeavesAt (pageOf a) (slotOf a)
      · have hp : pageOf a ≠ 0xfffff := fun hp => hin (runsOff_here h hp (.inr hleave))
        have hlast : (pageOf a).toNat ≠ 0xfffff := fun heq => hp (BitVec.eq_of_toNat_eq heq)
        have hnext : (lastWordOf a + 4).toNat = ((pageOf a).toNat + 1) * 0x1000 := by
          rw [next_page]
          omega
        have hin' : ¬(ci.setInvalid (pageOf a) true).RunsOff (lastWordOf a + 4).toNat
            bound.toNat := by
          rw [hnext, runsOff_next_page hleave hp.symm]
          exact hin
        obtain ⟨ci', hci', hmarks⟩ := ih (lastWordOf a + 4) (ci.setInvalid (pageOf a) true)
          (by omega) hin'
        refine ⟨ci', ?_, ?_⟩
        · rw [invalidateLoop_leaves fuel h hleave, hci']
        · intro p
          rw [hmarks p, hnext]
          exact marks_next_page h hleave p
      · have htop : a.toNat + 4 < 2 ^ 32 := by
          by_contra hwrap
          have hp : pageOf a = 0xfffff := by
            refine BitVec.eq_of_toNat_eq ?_
            show _ = 0xfffff
            omega
          exact hin (runsOff_here h hp (.inl (by omega)))
        have hnext : (a + 4).toNat = a.toNat + 4 := by
          rw [next_word]
          omega
        have hin' : ¬ci.RunsOff (a + 4).toNat bound.toNat := by
          rintro ⟨s, htest, hend⟩
          rw [hnext, tests_next hleave] at htest
          exact hin ⟨s, htest.1, hend⟩
        obtain ⟨ci', hci', hmarks⟩ := ih (a + 4) ci (by omega) hin'
        refine ⟨ci', ?_, ?_⟩
        · rw [invalidateLoop_stays fuel h hleave, hci']
        · intro p
          rw [hmarks p, hnext, marks_next hleave]
    · refine ⟨ci, invalidateLoop_ends fuel h, ?_⟩
      intro p
      constructor
      · exact .inl
      · rintro (hinv | ⟨s, ⟨-, hfirst, hbound⟩, -⟩)
        · exact hinv
        · exact absurd (hfirst.trans_lt hbound) h

/-- A walk that leaves the address space comes by its last page again and again. -/
theorem invalidateLoop_runsOff (bound : BitVec 32) (fuel : ℕ) (a : BitVec 32) (ci : CachedInterp)
    (hoff : ci.RunsOff a.toNat bound.toNat) : invalidateLoop bound fuel a ci = none := by
  induction fuel generalizing a ci with
  | zero => rfl
  | succ fuel ih =>
    obtain ⟨s, htest, hend⟩ := hoff
    have h : a < bound := htest.2.1.trans_lt htest.2.2
    have hword := toNat_eq_wordAt a
    have hslot := slotOf_lt a
    have hpage := (pageOf a).isLt
    have hbound : a.toNat < bound.toNat := h
    by_cases hleave : ci.LeavesAt (pageOf a) (slotOf a)
    · rw [invalidateLoop_leaves fuel h hleave]
      apply ih
      by_cases hp : pageOf a = 0xfffff
      · -- The walk starts over at 0 and finds the last page invalid.
        have hnext : (lastWordOf a + 4).toNat = 0 := by
          rw [next_page, hp]
          rfl
        have hphase : (ci.setInvalid (pageOf a) true).phase 0 0xfffff = 0 :=
          Nat.le_zero.1 ((ci.setInvalid (pageOf a) true).phase_le 0 0xfffff)
        have hinv : (ci.setInvalid (pageOf a) true).invalidCode 0xfffff = true :=
          (setInvalid_invalidCode _ _).2 (.inr hp.symm)
        rw [hp] at hword
        rw [hnext]
        refine ⟨0, ⟨by decide, Nat.zero_le _, ?_⟩, .inr (.inl hinv)⟩
        rw [hphase]
        simp only [wordAt] at hword ⊢
        omega
      · have hlast : (pageOf a).toNat ≠ 0xfffff := fun heq => hp (BitVec.eq_of_toNat_eq heq)
        have hnext : (lastWordOf a + 4).toNat = ((pageOf a).toNat + 1) * 0x1000 := by
          rw [next_page]
          omega
        rw [hnext, runsOff_next_page hleave (Ne.symm hp)]
        exact ⟨s, htest, hend⟩
    · rw [invalidateLoop_stays fuel h hleave]
      apply ih
      by_cases hhere : (0xfffff : Page) = pageOf a ∧ s = slotOf a
      · -- The last word was tested: the walk starts over in the first word.
        obtain ⟨hp, rfl⟩ := hhere
        rw [hp] at hend
        have hs : slotOf a = 1023 := hend.resolve_right hleave
        have hpn : (pageOf a).toNat = 0xfffff := congrArg BitVec.toNat hp.symm
        have hnext : (a + 4).toNat = a.toNat % 4 := by
          rw [next_word]
          simp only [wordAt, hs, hpn] at hword
          omega
        have hle := ci.phase_le (a.toNat % 4) 0xfffff
        have hlastWord : wordAt 0xfffff 1023 = 0xfffffffc := rfl
        rw [← hp, hs, hlastWord] at hword
        rw [hnext]
        refine ⟨1023, ⟨by decide, ?_, ?_⟩, .inl rfl⟩
        · rw [hlastWord]
          omega
        · rw [hlastWord]
          omega
      · have htop : a.toNat + 4 < 2 ^ 32 := by
          by_contra hwrap
          have hs := (tests_next hleave _ _ _).2 ⟨htest, hhere⟩
          have hle := ci.phase_le (a.toNat + 4) 0xfffff
          have hslotBound := hs.1
          have hfirst := hs.2.1
          have hpageStart : wordAt 0xfffff s = 0xfffff000 + 4 * s := rfl
          rw [hpageStart] at hfirst
          omega
        have hnext : (a + 4).toNat = a.toNat + 4 := by
          rw [next_word]
          omega
        rw [hnext]
        exact ⟨s, (tests_next hleave _ _ _).2 ⟨htest, hhere⟩, hend⟩

end CachedInterp

-- ════════════════════
-- The range
-- ════════════════════

open CachedInterp

theorem addrMax_toNat (address : BitVec 32) (size : ℕ) :
    (address + BitVec.ofNat 32 size).toNat = (address.toNat + size) % 2 ^ 32 := by
  rw [BitVec.toNat_add, BitVec.toNat_ofNat, Nat.add_mod_mod]

/-- What the invalidation of a range does: it never ends, or it marks the pages with a hit. -/
theorem invalidateCachedCodeHacktaruxSize_spec (ci : CachedInterp) (address : BitVec 32) {size : ℕ}
    (hsize : 0 < size) (hin : ¬ci.RunsOff address.toNat ((address.toNat + size) % 2 ^ 32)) :
    ∃ ci', invalidateCachedCodeHacktaruxSize ci address size = some ci' ∧
      ∀ p, ci'.invalidCode p = true ↔ ci.invalidCode p = true ∨
        ∃ s, ci.Tests address.toNat ((address.toNat + size) % 2 ^ 32) p s ∧ ci.Hits p s := by
  rw [invalidateCachedCodeHacktaruxSize, if_neg hsize.ne', ← addrMax_toNat]
  rw [← addrMax_toNat] at hin
  exact invalidateLoop_marks _ _ _ _ (Nat.lt_add_right _ (by decide)) hin

/-- A word of a page is tested if it has a byte in the range, and the byte that is tested up to the
    first page left early is not behind it. -/
theorem tests_of_touches {ci : CachedInterp} {first stop : ℕ} {p : Page} {s : ℕ} (hs : s < 1024)
    (hfirst : first < wordAt p s + 4) (hstop : wordAt p s + first % 4 < stop) :
    ci.Tests first stop p s := by
  have hle := ci.phase_le first p
  refine ⟨hs, ?_, by omega⟩
  by_cases hbefore : ci.LeavesBefore first p
  · obtain ⟨q, t, hq, ht, hlater, -⟩ := hbefore
    calc first ≤ wordAt q t + first % 4 := hlater
      _ ≤ p.toNat * 0x1000 := by
        clear hlater hfirst hstop hle
        simp only [wordAt]
        omega
      _ ≤ wordAt p s + ci.phase first p := by
        simp only [wordAt, Nat.add_assoc]
        exact Nat.le_add_right _ _
  · rw [phase_of_not_leavesBefore hbefore]
    simp only [wordAt] at hfirst ⊢
    omega

/-- A range that ends below the last page stays inside the address space. -/
theorem not_runsOff {ci : CachedInterp} {first bound : ℕ} (h : bound ≤ 0xfffff000) :
    ¬ci.RunsOff first bound := by
  rintro ⟨s, ⟨-, -, hbound⟩, -⟩
  have hpageStart : wordAt 0xfffff s = 0xfffff000 + 4 * s := rfl
  rw [hpageStart] at hbound
  omega

/-- The blocks have no decoded instruction behind their own page. -/
def CachedInterp.Unspilled (ci : CachedInterp) : Prop :=
  ∀ p b, ci.blocks p = some b → ∀ s iw, b.slots s = .compiled iw → s < 1024

/-- A range of whole words below the last page is invalidated, if no block spills. -/
theorem aligned_invalidates {ci : CachedInterp} {address : BitVec 32} {size : ℕ}
    (hsize : 0 < size) (haligned : address.toNat % 4 = 0)
    (hbelow : address.toNat + size ≤ 0xfffff000) (hown : ci.Unspilled) :
    InvalidatesRange ci address size := by
  have hmod : (address.toNat + size) % 2 ^ 32 = address.toNat + size := by omega
  have hin : ¬ci.RunsOff address.toNat ((address.toNat + size) % 2 ^ 32) := by
    rw [hmod]
    exact not_runsOff hbelow
  obtain ⟨ci', hci', hmarks⟩ := invalidateCachedCodeHacktaruxSize_spec ci address hsize hin
  refine ⟨ci', hci', ?_⟩
  rintro p b hb ⟨s, iw, hslot, hstop, hfirst⟩
  rw [hmod] at hmarks
  refine (hmarks p).2 (.inr ⟨s, tests_of_touches (hown p b hb s iw hslot) hfirst (by omega), ?_⟩)
  intro b' hb'
  obtain rfl := Option.some.inj (hb.symm.trans hb')
  rw [hslot]
  exact Slot.noConfusion

/-- An instruction of the block of every page that touches the range, and is not marked yet, is
    found: some tested word of the page is not `NOTCOMPILED`. -/
def FindsTouched (ci : CachedInterp) (first stop bound : ℕ) : Prop :=
  ∀ p b, ci.blocks p = some b → ci.invalidCode p = false → b.Touches p first stop →
    ∃ s, ci.Tests first bound p s ∧ b.slots s ≠ .notCompiled

/-- A range is invalidated exactly if the walk does not run off the address space and finds, in
    every valid page that touches the range, a word that is not `NOTCOMPILED`. -/
theorem invalidatesRange_iff (ci : CachedInterp) (address : BitVec 32) {size : ℕ}
    (hsize : 0 < size) :
    InvalidatesRange ci address size ↔
      ¬ci.RunsOff address.toNat ((address.toNat + size) % 2 ^ 32) ∧
        FindsTouched ci address.toNat (address.toNat + size)
          ((address.toNat + size) % 2 ^ 32) := by
  constructor
  · rintro ⟨ci', hci', hall⟩
    have hin : ¬ci.RunsOff address.toNat ((address.toNat + size) % 2 ^ 32) := by
      intro hoff
      rw [← addrMax_toNat] at hoff
      rw [invalidateCachedCodeHacktaruxSize, if_neg hsize.ne',
        invalidateLoop_runsOff _ _ _ _ hoff] at hci'
      cases hci'
    refine ⟨hin, ?_⟩
    intro p b hb hvalid htouches
    obtain ⟨ci'', hci'', hmarks⟩ := invalidateCachedCodeHacktaruxSize_spec ci address hsize hin
    obtain rfl := Option.some.inj (hci'.symm.trans hci'')
    obtain ⟨s, htest, hhit⟩ := ((hmarks p).1 (hall p b hb htouches)).resolve_left (by simp [hvalid])
    exact ⟨s, htest, hhit b hb⟩
  · rintro ⟨hin, hfinds⟩
    obtain ⟨ci', hci', hmarks⟩ := invalidateCachedCodeHacktaruxSize_spec ci address hsize hin
    refine ⟨ci', hci', ?_⟩
    intro p b hb htouches
    by_cases hvalid : ci.invalidCode p = true
    · exact (hmarks p).2 (.inl hvalid)
    · obtain ⟨s, htest, hslot⟩ := hfinds p b hb (by simpa using hvalid) htouches
      refine (hmarks p).2 (.inr ⟨s, htest, ?_⟩)
      intro b' hb'
      obtain rfl := Option.some.inj (hb.symm.trans hb')
      exact hslot

/-- A cache with one valid page, whose block has decoded its second word only. -/
def secondWordDecoded : CachedInterp where
  invalidCode p := p != 0x80000
  blocks p := if p = 0x80000 then some ⟨fun s => if s = 1 then .compiled 0 else .notCompiled⟩
    else none

/-- From the middle of the first word to the end of the second. -/
theorem secondWord_invalidated : InvalidatesRange secondWordDecoded 0x80000002 6 := by
  refine (invalidatesRange_iff secondWordDecoded 0x80000002 (by decide)).2
    ⟨not_runsOff (by decide), ?_⟩
  intro p b hb _ _
  obtain ⟨rfl, rfl⟩ : p = 0x80000 ∧ _ = b := by simpa [secondWordDecoded] using hb
  exact ⟨1, tests_of_touches (by decide) (by decide) (by decide), by decide⟩

/-- From the middle of the first word to the middle of the second: the second word is not
    tested. -/
theorem secondWord_missed : ¬∀ (ci : CachedInterp) (address : BitVec 32) (size : ℕ), 0 < size →
    InvalidatesRange ci address size := by
  intro h
  obtain ⟨ci', hci', hall⟩ := h secondWordDecoded 0x80000002 4 (by decide)
  have hstay : ¬secondWordDecoded.LeavesAt (pageOf 0x80000002) (slotOf 0x80000002) := by
    rintro (hinv | hhit)
    · exact absurd hinv (by decide)
    · exact hhit _ rfl rfl
  have hrun : invalidateCachedCodeHacktaruxSize secondWordDecoded 0x80000002 4 =
      some secondWordDecoded := by
    rw [invalidateCachedCodeHacktaruxSize, if_neg (by decide), invalidateFuel,
      invalidateLoop_stays 0x40000000 (by decide) hstay]
    exact invalidateLoop_ends 0x3fffffff (by decide)
  obtain rfl := Option.some.inj (hrun.symm.trans hci')
  have hmarked := hall 0x80000 _ rfl ⟨1, 0, rfl, by decide, by decide⟩
  exact absurd hmarked (by decide)

end Mupen64plus
