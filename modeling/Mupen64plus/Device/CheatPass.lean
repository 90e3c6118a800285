import Mupen64plus.Device.CheatUndo

/-!
# Conditional cheats

What a pass at a vertical interrupt makes of test codes. One flag carries the outcome of a run of
tests over to the code that comes after it. That code takes the flag back, so that what follows it
is a pass of its own.

## Main definitions

- `CheatCode.IsTest`, `CheatCode.Holds` — the test codes and what they test
- `RunHolds` — the tests right before a place hold, each on the memory there
- `ConditionalPass` — what becomes of one code of a cheat
- `touchedBytes` — the bytes of RDRAM a code reads and writes

## Main results

- `conditionFailed_iff` — the flag
- `executeCheat_local` — no code goes beyond the bytes it touches
- `cheats_conditional`
-/

namespace Mupen64plus

/-- The size of RDRAM. -/
def rdramMaxSize : ℕ := 0x800000

namespace CheatCode

/-- A conditional code. -/
def IsTest (code : CheatCode) : Prop := code.address &&& 0xF0000000 = 0xD0000000

/-- A conditional code that needs the button too. -/
def IsButtonTest (code : CheatCode) : Prop := cheatTag code.address ∈ [0xD8, 0xD9, 0xDA, 0xDB]

/-- A code the button triggers. -/
def IsButtonCode (code : CheatCode) : Prop := cheatTag code.address ∈ [0x88, 0x89, 0xA8, 0xA9]

/-- A code for the boot. -/
def IsBootCode (code : CheatCode) : Prop := code.address &&& 0xF0000000 = 0xF0000000

/-- A test holds. -/
def Holds (o : Outside) (d : Device) (code : CheatCode) : Prop :=
  (code.IsButtonTest → o.gamesharkActive = true) ∧
    (d.executeCheat code.address code.value none).1 = true

/-- A code has its turn at a vertical interrupt. -/
def HasTurn (o : Outside) (code : CheatCode) : Prop :=
  ¬code.IsBootCode ∧ (code.IsButtonCode → o.gamesharkActive = true)

/-- The code is executed: one the button triggers saves no old value. -/
def execute (d : Device) (code : CheatCode) : Device × CheatCode :=
  if cheatTag code.address ∈ [0x88, 0x89, 0xA8, 0xA9] then
    ((d.executeCheat code.address code.value none).2.1, code)
  else d.applyCode code

/-- A code for two bytes. -/
def IsHalf (code : CheatCode) : Prop :=
  cheatTag code.address ∈ [0x81, 0x89, 0xA1, 0xA9, 0xF1, 0xD1, 0xD9, 0xD3, 0xDA]

/-- A code points into RDRAM, one for two bytes not at its odd end. -/
def PointsInside (code : CheatCode) : Prop :=
  cheatOffset code.address < rdramMaxSize ∧ (code.IsHalf → cheatOffset code.address ≠ 0x7ffffd)

end CheatCode

/-- A pass over the codes of one cheat. -/
def viPass (o : Outside) (d : Device) (codes : List CheatCode) :
    (Device × Bool) × List CheatCode := Device.mapCodes (Device.viCode o) (d, false) codes

/-- The device after some codes. -/
def deviceAfter (o : Outside) (d : Device) (codes : List CheatCode) : Device :=
  (viPass o d codes).1.1

/-- Every test of the run of tests at the end of a list holds, in the memory as modified so far. -/
def RunHolds (o : Outside) (d : Device) (pre : List CheatCode) : Prop :=
  ∀ p code q, pre = p ++ code :: q → (∀ c ∈ code :: q, c.IsTest) →
    code.Holds o (deviceAfter o d p)

/-- A pass with a step done on the code in the middle, and a pass of its own after it. -/
def passOf (o : Outside) (d : Device) (pre : List CheatCode) (step : Device × CheatCode)
    (post : List CheatCode) : (Device × Bool) × List CheatCode :=
  ((viPass o step.1 post).1, (viPass o d pre).2 ++ step.2 :: (viPass o step.1 post).2)

/-- What becomes of one code of a cheat. A test changes nothing. Another code is executed if it has
its turn and the tests before it hold, and is left out if not. -/
structure ConditionalPass (o : Outside) (d : Device) (pre : List CheatCode) (code : CheatCode)
    (post : List CheatCode) : Prop where
  test : code.IsTest → deviceAfter o d (pre ++ [code]) = deviceAfter o d pre
  executed : ¬code.IsTest → RunHolds o d pre → code.HasTurn o →
    viPass o d (pre ++ code :: post) = passOf o d pre (code.execute (deviceAfter o d pre)) post
  leftOut : ¬code.IsTest → ¬(RunHolds o d pre ∧ code.HasTurn o) →
    viPass o d (pre ++ code :: post) = passOf o d pre (deviceAfter o d pre, code) post

/-- The bytes of RDRAM that `execute_cheat` reads and writes. -/
def touchedBytes (address : BitVec 32) : List ℕ :=
  let at2 := halfBytes (cheatOffset address)
  match cheatTag address with
  | 0x80 | 0x88 | 0xA0 | 0xA8 | 0xF0 | 0xD0 | 0xD8 | 0xD2 | 0xDB => [cheatOffset address]
  | 0x81 | 0x89 | 0xA1 | 0xA9 | 0xF1 | 0xD1 | 0xD9 | 0xD3 | 0xDA => [at2.1, at2.2]
  | 0xEE => [0x318, 0x319, 0x31A, 0x31B]
  | _ => []

-- ════════════════════
-- The flag
-- ════════════════════

theorem mapCodes_append {σ : Type*} (f : σ → CheatCode → σ × CheatCode) (s : σ)
    (xs ys : List CheatCode) :
    Device.mapCodes f s (xs ++ ys) =
      ((Device.mapCodes f (Device.mapCodes f s xs).1 ys).1,
        (Device.mapCodes f s xs).2 ++ (Device.mapCodes f (Device.mapCodes f s xs).1 ys).2) := by
  induction xs generalizing s with
  | nil => rfl
  | cons x xs ih => rw [List.cons_append, mapCodes_cons, ih, mapCodes_cons, List.cons_append]

section

variable {o : Outside} {d : Device} {pre post : List CheatCode} {code : CheatCode}

theorem viPass_concat : (viPass o d (pre ++ [code])).1 =
    (Device.viCode o (viPass o d pre).1 code).1 := by
  unfold viPass
  rw [mapCodes_append]
  rfl

/-- A test leaves the device and adds to the flag. -/
theorem viCode_test (h : code.IsTest) (flag : Bool) :
    (Device.viCode o (d, flag) code).1.1 = d ∧
      ((Device.viCode o (d, flag) code).1.2 = true ↔ flag = true ∨ ¬code.Holds o d) := by
  have htag : code.address &&& 0xF0000000 = 0xD0000000 := h
  unfold Device.viCode
  dsimp only
  rw [if_pos htag]
  refine ⟨rfl, ?_⟩
  simp only [CheatCode.Holds, CheatCode.IsButtonTest, List.mem_cons, List.not_mem_nil, or_false,
    Bool.or_eq_true, Bool.and_eq_true, decide_eq_true_eq, Bool.not_eq_true', not_and_or,
    Classical.not_imp, Bool.not_eq_true, or_assoc]

/-- With the flag set, the next other code is left out and takes the flag back. -/
theorem viCode_failed (h : ¬code.IsTest) :
    Device.viCode o (d, true) code = ((d, false), code) := by
  have htag : ¬code.address &&& 0xF0000000 = 0xD0000000 := h
  unfold Device.viCode
  dsimp only
  rw [if_neg htag, if_pos rfl]

theorem not_isBootCode (h : code.IsButtonCode) : ¬code.IsBootCode := by
  intro hboot
  have hshift := congrArg (fun x : BitVec 32 => x >>> 24) hboot
  have htag : code.address >>> 24 = 0x88#32 ∨ code.address >>> 24 = 0x89#32 ∨
      code.address >>> 24 = 0xA8#32 ∨ code.address >>> 24 = 0xA9#32 := by
    simp only [CheatCode.IsButtonCode, List.mem_cons, List.not_mem_nil, or_false] at h
    rcases h with h | h | h | h
    · exact .inl (BitVec.eq_of_toNat_eq h)
    · exact .inr (.inl (BitVec.eq_of_toNat_eq h))
    · exact .inr (.inr (.inl (BitVec.eq_of_toNat_eq h)))
    · exact .inr (.inr (.inr (BitVec.eq_of_toNat_eq h)))
  simp only [BitVec.ushiftRight_and_distrib] at hshift
  rcases htag with ht | ht | ht | ht
  all_goals
    rw [ht] at hshift
    exact absurd hshift (by decide)

/-- Without the flag, another code is executed if it has its turn. -/
theorem viCode_passed (h : ¬code.IsTest) :
    (code.HasTurn o → Device.viCode o (d, false) code =
        (((code.execute d).1, false), (code.execute d).2)) ∧
      (¬code.HasTurn o → Device.viCode o (d, false) code = ((d, false), code)) := by
  have htag : ¬code.address &&& 0xF0000000 = 0xD0000000 := h
  have hbutton : (cheatTag code.address = 0x88 ∨ cheatTag code.address = 0x89 ∨
      cheatTag code.address = 0xA8 ∨ cheatTag code.address = 0xA9) ↔ code.IsButtonCode := by
    simp only [CheatCode.IsButtonCode, List.mem_cons, List.not_mem_nil, or_false]
  unfold Device.viCode
  dsimp only
  rw [if_neg htag, if_neg Bool.false_ne_true]
  by_cases hb : code.IsButtonCode
  · have hexec : code.execute d = ((d.executeCheat code.address code.value none).2.1, code) :=
      if_pos hb
    have hturn : code.HasTurn o ↔ o.gamesharkActive = true :=
      ⟨fun ht => ht.2 hb, fun ho => ⟨not_isBootCode hb, fun _ => ho⟩⟩
    rw [if_pos (hbutton.mpr hb), hexec, hturn]
    exact ⟨fun ho => if_pos ho, fun ho => if_neg ho⟩
  · have hexec : code.execute d = d.applyCode code := if_neg hb
    have hturn : code.HasTurn o ↔ ¬code.address &&& 0xF0000000 = 0xF0000000 :=
      ⟨fun ht => ht.1, fun hn => ⟨hn, fun h' => absurd h' hb⟩⟩
    rw [if_neg (fun hb' => hb (hbutton.mp hb')), hexec, hturn]
    exact ⟨fun hn => if_neg hn, fun hn => if_pos (not_not.mp hn)⟩

theorem runHolds_concat_test (h : code.IsTest) :
    RunHolds o d (pre ++ [code]) ↔ RunHolds o d pre ∧ code.Holds o (deviceAfter o d pre) := by
  constructor
  · intro hrun
    refine ⟨fun p c q heq htests => hrun p c (q ++ [code]) (by rw [heq]; simp) ?_,
      hrun pre code [] rfl (by simpa using h)⟩
    intro c' hc'
    rw [← List.cons_append, List.mem_append, List.mem_singleton] at hc'
    rcases hc' with hc' | rfl
    · exact htests c' hc'
    · exact h
  · rintro ⟨hrun, hlast⟩ p c q heq htests
    obtain rfl | ⟨q, c', rfl⟩ := List.eq_nil_or_concat q
    · obtain ⟨rfl, hc⟩ := List.append_inj' heq rfl
      obtain rfl : code = c := by simpa using hc
      exact hlast
    · rw [List.concat_eq_append, ← List.cons_append, ← List.append_assoc] at heq
      obtain ⟨rfl, -⟩ := List.append_inj' heq rfl
      exact hrun p c q rfl fun x hx => htests x (by
        rw [List.concat_eq_append, ← List.cons_append]
        exact List.mem_append_left _ hx)

theorem runHolds_concat_other (h : ¬code.IsTest) : RunHolds o d (pre ++ [code]) := by
  intro p c q heq htests
  refine absurd (htests code ?_) h
  have hlast := congrArg List.getLast? heq
  rw [List.getLast?_concat, List.getLast?_append_cons] at hlast
  exact List.mem_of_getLast? hlast.symm

/-- The flag says that a test of the run right before failed. -/
theorem conditionFailed_iff : (viPass o d pre).1.2 = true ↔ ¬RunHolds o d pre := by
  induction pre using List.reverseRecOn with
  | nil => exact iff_of_false Bool.false_ne_true (not_not.mpr fun p c q heq => by simp at heq)
  | append_singleton pre code ih =>
    rw [viPass_concat]
    by_cases h : code.IsTest
    · rw [runHolds_concat_test h, not_and_or, ← ih]
      exact (viCode_test h _).2
    · refine iff_of_false ?_ (not_not.mpr (runHolds_concat_other h))
      have hflag : (Device.viCode o (viPass o d pre).1 code).1.2 = false := by
        obtain ⟨d', flag⟩ := (viPass o d pre).1
        cases flag with
        | true => rw [viCode_failed h]
        | false =>
          by_cases hturn : code.HasTurn o
          · rw [(viCode_passed h).1 hturn]
          · rw [(viCode_passed h).2 hturn]
      rw [hflag]
      exact Bool.false_ne_true

theorem viPass_split {step : Device × CheatCode}
    (hstep : Device.viCode o (viPass o d pre).1 code = ((step.1, false), step.2)) :
    viPass o d (pre ++ code :: post) = passOf o d pre step post := by
  have hpass : (Device.mapCodes (Device.viCode o) (d, false) pre).1 = (viPass o d pre).1 := rfl
  unfold viPass
  rw [mapCodes_append, mapCodes_cons, hpass, hstep]
  rfl

/-- **Conditional cheats**, one code of one cheat. -/
theorem conditionalPass (o : Outside) (d : Device) (pre : List CheatCode) (code : CheatCode)
    (post : List CheatCode) : ConditionalPass o d pre code post := by
  have hstate : (viPass o d pre).1 = (deviceAfter o d pre, (viPass o d pre).1.2) := rfl
  refine ⟨fun h => ?_, fun h hrun hturn => ?_, fun h hno => ?_⟩
  · unfold deviceAfter
    rw [viPass_concat]
    exact (viCode_test h _).1
  · have hflag : (viPass o d pre).1.2 = false :=
      Bool.eq_false_iff.mpr fun hf => conditionFailed_iff.mp hf hrun
    refine viPass_split ?_
    rw [hstate, hflag]
    exact (viCode_passed h).1 hturn
  · refine viPass_split ?_
    rw [hstate]
    cases hflag : (viPass o d pre).1.2 with
    | true => exact viCode_failed h
    | false =>
      have hrun : RunHolds o d pre := by
        by_contra hfail
        rw [conditionFailed_iff.mpr hfail] at hflag
        exact Bool.noConfusion hflag
      exact (viCode_passed h).2 fun hturn => hno ⟨hrun, hturn⟩

end

-- ════════════════════
-- The bytes touched
-- ════════════════════

/-- Code that answers from some bytes of RDRAM and writes no others. -/
structure LocalTo (bytes : List ℕ) (run : Device → Bool × Device × Option (BitVec 32)) : Prop where
  writes : ∀ d, ∀ a ∉ bytes, (run d).2.1.rdram.dram.byte a = d.rdram.dram.byte a
  reads : ∀ d d' : Device, (∀ a ∈ bytes, d.rdram.dram.byte a = d'.rdram.dram.byte a) →
    (run d).1 = (run d').1 ∧ (run d).2.2 = (run d').2.2 ∧
      ∀ a ∈ bytes, (run d).2.1.rdram.dram.byte a = (run d').2.1.rdram.dram.byte a

section

variable (address : BitVec 32)

theorem readAddress16bit_congr {d d' : Device}
    (h : ∀ a ∈ [(halfBytes (cheatOffset address)).1, (halfBytes (cheatOffset address)).2],
      d.rdram.dram.byte a = d'.rdram.dram.byte a) :
    d.readAddress16bit address = d'.readAddress16bit address := by
  unfold Device.readAddress16bit
  dsimp only
  rw [h _ (by simp), h _ (by simp)]

theorem localTo_write8 (v : BitVec 8) (old : Option (BitVec 32)) :
    LocalTo [cheatOffset address] fun d => (true, d.updateAddress8bit address v,
      Device.savedOld old ((d.readAddress8bit address).zeroExtend 32)) := by
  refine ⟨fun d a ha => ?_, fun d d' h => ⟨rfl, ?_, fun a ha => ?_⟩⟩
  · rw [Device.byte_updateAddress8bit, if_neg (by simpa using ha)]
  · exact congrArg (fun b : BitVec 8 => Device.savedOld old (b.zeroExtend 32)) (h _ (by simp))
  · rw [Device.byte_updateAddress8bit, Device.byte_updateAddress8bit, h a ha]

theorem localTo_write16 (v : BitVec 16) (old : Option (BitVec 32)) :
    LocalTo [(halfBytes (cheatOffset address)).1, (halfBytes (cheatOffset address)).2]
      fun d => (true, d.updateAddress16bit address v,
        Device.savedOld old ((d.readAddress16bit address).zeroExtend 32)) := by
  refine ⟨fun d a ha => ?_, fun d d' h => ⟨rfl, ?_, fun a ha => ?_⟩⟩
  · simp only [List.mem_cons, List.not_mem_nil, or_false, not_or] at ha
    rw [Device.byte_updateAddress16bit, if_neg ha.1, if_neg ha.2]
  · exact congrArg (fun b : BitVec 16 => Device.savedOld old (b.zeroExtend 32))
      (readAddress16bit_congr address h)
  · rw [Device.byte_updateAddress16bit, Device.byte_updateAddress16bit, h a ha]

theorem localTo_test8 (answer : BitVec 8 → Bool) (old : Option (BitVec 32)) :
    LocalTo [cheatOffset address] fun d => (answer (d.readAddress8bit address), d, old) :=
  ⟨fun _ _ _ => rfl, fun _ _ h => ⟨congrArg answer (h _ (by simp)), rfl, h⟩⟩

theorem localTo_test16 (answer : BitVec 16 → Bool) (old : Option (BitVec 32)) :
    LocalTo [(halfBytes (cheatOffset address)).1, (halfBytes (cheatOffset address)).2]
      fun d => (answer (d.readAddress16bit address), d, old) :=
  ⟨fun _ _ _ => rfl, fun _ _ h => ⟨congrArg answer (readAddress16bit_congr address h), rfl, h⟩⟩

/-- The code 0xEE clears the two half-words of the size of RDRAM but for one bit. -/
theorem localTo_ramSize (old : Option (BitVec 32)) :
    LocalTo [0x318, 0x319, 0x31A, 0x31B] fun d =>
      (true, (d.updateAddress16bit 0xF1000318 0x0040).updateAddress16bit 0xF100031A 0, old) := by
  have hlow : halfBytes (cheatOffset 0xF1000318) = (0x319, 0x318) := by decide
  have hhigh : halfBytes (cheatOffset 0xF100031A) = (0x31B, 0x31A) := by decide
  refine ⟨fun d a ha => ?_, fun d d' h => ⟨rfl, rfl, fun a ha => ?_⟩⟩
  · simp only [List.mem_cons, List.not_mem_nil, or_false, not_or] at ha
    rw [Device.byte_updateAddress16bit, Device.byte_updateAddress16bit, hlow, hhigh,
      if_neg ha.2.2.2, if_neg ha.2.2.1, if_neg ha.2.1, if_neg ha.1]
  · rw [Device.byte_updateAddress16bit, Device.byte_updateAddress16bit,
      Device.byte_updateAddress16bit, Device.byte_updateAddress16bit, h a ha]

/-- `execute_cheat` answers from the bytes it touches, and writes no others. -/
theorem executeCheat_local (value : BitVec 32) (old : Option (BitVec 32)) :
    LocalTo (touchedBytes address) fun d => d.executeCheat address value old := by
  unfold Device.executeCheat touchedBytes
  dsimp only
  generalize cheatTag address = tag
  split
  iterate 5 exact localTo_write8 address _ old
  iterate 2 exact localTo_test8 address (· == value.truncate 8) old
  iterate 2 exact localTo_test8 address (· != value.truncate 8) old
  iterate 5 exact localTo_write16 address _ old
  iterate 2 exact localTo_test16 address (· == value.truncate 16) old
  iterate 2 exact localTo_test16 address (· != value.truncate 16) old
  · exact localTo_ramSize old
  · split
    all_goals first
      | contradiction
      | exact ⟨fun _ _ _ => rfl, fun _ _ h => ⟨rfl, rfl, h⟩⟩

end

theorem halfBytes_inside {offset : ℕ} (h : offset < rdramMaxSize) (hodd : offset ≠ 0x7ffffd) :
    (halfBytes offset).1 < rdramMaxSize ∧ (halfBytes offset).2 < rdramMaxSize := by
  have hswap : offset ^^^ 2 < 2 ^ 23 := Nat.xor_lt_two_pow h (by decide)
  have hlast : offset ^^^ 2 ≠ 0x7fffff := by
    intro heq
    have hback := congrArg (· ^^^ 2) heq
    simp only [Nat.xor_assoc, Nat.xor_self, Nat.xor_zero] at hback
    exact hodd hback
  exact ⟨Nat.xor_lt_two_pow hswap (by decide),
    Nat.xor_lt_two_pow (by omega : (offset ^^^ 2) + 1 < 2 ^ 23) (by decide)⟩

theorem touchedBytes_inside {code : CheatCode} (h : code.PointsInside) :
    ∀ a ∈ touchedBytes code.address, a < rdramMaxSize := by
  have hhalf : code.IsHalf → ∀ a ∈ [(halfBytes (cheatOffset code.address)).1,
      (halfBytes (cheatOffset code.address)).2], a < rdramMaxSize := by
    intro htag a ha
    obtain ⟨hfirst, hsecond⟩ := halfBytes_inside h.1 (h.2 htag)
    simp only [List.mem_cons, List.not_mem_nil, or_false] at ha
    rcases ha with rfl | rfl
    · exact hfirst
    · exact hsecond
  unfold CheatCode.IsHalf at hhalf
  unfold touchedBytes
  dsimp only
  generalize cheatTag code.address = tag at hhalf
  split
  iterate 9
    intro a ha
    rw [List.mem_singleton.mp ha]
    exact h.1
  iterate 9 exact hhalf (by decide)
  · decide
  · exact fun a ha => absurd ha List.not_mem_nil

-- ════════════════════
-- The list of cheats
-- ════════════════════

theorem applyCheats_append (o : Outside) (entry : CheatEntry) (d : Device) (xs ys : List Cheat) :
    Device.applyCheats o entry d (xs ++ ys) =
      ((Device.applyCheats o entry (Device.applyCheats o entry d xs).1 ys).1,
        (Device.applyCheats o entry d xs).2 ++
          (Device.applyCheats o entry (Device.applyCheats o entry d xs).1 ys).2) := by
  induction xs generalizing d with
  | nil => rfl
  | cons x xs ih =>
    have hcons : ∀ zs, Device.applyCheats o entry d (x :: zs) =
        ((Device.applyCheats o entry (Device.applyCheat o entry d x).1 zs).1,
          (Device.applyCheat o entry d x).2 ::
            (Device.applyCheats o entry (Device.applyCheat o entry d x).1 zs).2) := fun _ => rfl
    rw [List.cons_append, hcons, ih, hcons, List.cons_append]

/-- The list of cheats with a step done on the one in the middle. -/
def cheatsOf (o : Outside) (d : Device) (before : List Cheat) (step : Device × Cheat)
    (after : List Cheat) : Device × List Cheat :=
  ((Device.applyCheats o .vi step.1 after).1,
    (Device.applyCheats o .vi d before).2 ++ step.2 :: (Device.applyCheats o .vi step.1 after).2)

/-- An enabled cheat after its pass. -/
def passedCheat (o : Outside) (d : Device) (cheat : Cheat) : Device × Cheat :=
  ((viPass o d cheat.codes).1.1,
    { cheat with wasEnabled := true, codes := (viPass o d cheat.codes).2 })

theorem applyCheats_split (o : Outside) (d : Device) (before : List Cheat) {cheat : Cheat}
    (after : List Cheat) (h : cheat.enabled = true) :
    Device.applyCheats o .vi d (before ++ cheat :: after) =
      cheatsOf o d before (passedCheat o (Device.applyCheats o .vi d before).1 cheat) after := by
  have hcheat : ∀ d', Device.applyCheat o .vi d' cheat = passedCheat o d' cheat := by
    intro d'
    unfold Device.applyCheat
    rw [if_pos h]
    rfl
  have hcons : ∀ d', Device.applyCheats o .vi d' (cheat :: after) =
      ((Device.applyCheats o .vi (Device.applyCheat o .vi d' cheat).1 after).1,
        (Device.applyCheat o .vi d' cheat).2 ::
          (Device.applyCheats o .vi (Device.applyCheat o .vi d' cheat).1 after).2) := fun _ => rfl
  rw [applyCheats_append, hcons, hcheat]
  rfl

/-- **Conditional cheats**: an enabled cheat is one pass on the memory its predecessors leave, in
which each code is executed as the tests right before it say. No code goes beyond the bytes it
touches, and these lie in RDRAM where the code points into it. -/
theorem cheats_conditional (o : Outside) (d : Device) (before : List Cheat) (cheat : Cheat)
    (after : List Cheat) (h : cheat.enabled = true) :
    Device.applyCheats o .vi d (before ++ cheat :: after) =
        cheatsOf o d before (passedCheat o (Device.applyCheats o .vi d before).1 cheat) after ∧
      (∀ pre code post, cheat.codes = pre ++ code :: post →
        ConditionalPass o (Device.applyCheats o .vi d before).1 pre code post) ∧
      ∀ (code : CheatCode) (value : BitVec 32) (old : Option (BitVec 32)),
        LocalTo (touchedBytes code.address) (fun d => d.executeCheat code.address value old) ∧
          (code.PointsInside → ∀ a ∈ touchedBytes code.address, a < rdramMaxSize) :=
  ⟨applyCheats_split o d before after h, fun pre code post _ => conditionalPass o _ pre code post,
    fun code value old => ⟨executeCheat_local code.address value old, touchedBytes_inside⟩⟩

/-- A test on the byte a write before it has put, and a code that this test lets pass. -/
def chainedCheat : Cheat where
  name := "chained"
  enabled := true
  wasEnabled := false
  codes := [newCode (0x80000100, 1), newCode (0xD0000100, 1), newCode (0x80000200, 2)]

theorem chained_conditional :
    (Device.applyCheats quietOutside .vi freshConsole [chainedCheat] =
        cheatsOf quietOutside freshConsole [] (passedCheat quietOutside freshConsole chainedCheat)
          [] ∧
      ConditionalPass quietOutside freshConsole
        [newCode (0x80000100, 1), newCode (0xD0000100, 1)] (newCode (0x80000200, 2)) []) ∧
      ∀ a ∈ touchedBytes 0x80000200, a < rdramMaxSize :=
  have hpass := cheats_conditional quietOutside freshConsole [] chainedCheat [] rfl
  ⟨⟨hpass.1, hpass.2.1 _ _ _ rfl⟩,
    (hpass.2.2 (newCode (0x80000200, 2)) 2 none).2 ⟨by decide, fun hhalf => absurd hhalf (by
      unfold CheatCode.IsHalf
      decide)⟩⟩

/-- A code for the boot has no test before it, and is left out all the same. -/
theorem bootCode_not_executed :
    ¬∀ (o : Outside) (d : Device) (pre : List CheatCode) (code : CheatCode),
      ¬code.IsTest → RunHolds o d pre →
        deviceAfter o d (pre ++ [code]) = (code.execute (deviceAfter o d pre)).1 := by
  intro hall
  have hrun := hall quietOutside freshConsole [] (newCode (0xF0000100, 1)) (by
    unfold CheatCode.IsTest
    decide) (fun p c q heq => by simp at heq)
  have hbyte := congrArg (fun d : Device => d.rdram.dram.byte 0x100) hrun
  revert hbyte
  decide

end Mupen64plus
