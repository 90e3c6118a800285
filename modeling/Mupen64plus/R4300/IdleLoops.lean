import Mupen64plus.R4300.JumpSubtypes
import Mathlib.Tactic.IntervalCases
import Mathlib.Tactic.Ring

/-!
# Idle loops

The idle function of a jump moves COUNT on to the next interrupt and makes one round. The loop that
is executed makes rounds until the interrupt is due. Both come to the same state, with COUNT at most
a round apart, unless the link of the jump changes its own condition.

## Main definitions

- `cachedJump`, `cachedJumpIdle` — the functions `DECLARE_JUMP` defines in `cached_interp.c`
- `RunsLoop` — the loop executed to the next interrupt
- `SubtypeSound` — the subtype of a jump may be relied on in a state

## Main results

- `Machine.Looping.runs` — a loop comes to the interrupt, less than a round behind it
- `Machine.idleAgrees_iff` — exactly when the idle function agrees with the loop
- `routine_of_linkStops` — the jumps whose link stops them
- `subtypeSound_iff`
-/

namespace Mupen64plus

-- ════════════════════
-- The functions of a jump
-- ════════════════════

/-- The skip of an idle loop: COUNT moves on to the next interrupt. -/
def R4300.skipToInterrupt (r : R4300) : R4300 :=
  let r := cp0UpdateCount r
  if r.cp0.cycleCount.toInt < 0 then
    let r := r.setCp0 .count (r.cp0Reg .count - r.cp0.cycleCount)
    { r with cp0 := { r.cp0 with cycleCount := 0 } }
  else r

/-- A regular jump goes on in the block. -/
def R4300.landIn (start target : BitVec 32) (r : R4300) : R4300 :=
  { r with pc := landingOf start target }

/-- A jump that is not refused as coprocessor 1 is unusable. -/
def Jump.Usable (jump : Jump) (r : R4300) : Prop :=
  (if jump.cop1 then r.checkCop1Unusable else none) = none

namespace Machine

variable {M : Type}

/-- The function `DECLARE_JUMP` defines, between the test for coprocessor 1 and the one for an
    interrupt; `land` goes to the target. -/
def jumpBody (env : Env M) (land : BitVec 32 → R4300 → R4300) (jump : Jump) (m : Machine M) :
    Option (Machine M) :=
  let m := if jump.link ≠ 0 then m.setGpr jump.link (se32 (m.core.pc + 8)) else m
  if !jump.likely || jump.condition then
    let m := m.onCore fun r => { r with pc := r.pc + 4, delaySlot := 1 }
    (env.delaySlot m).map fun m => m.onCore fun r =>
      let r := { cp0UpdateCount r with delaySlot := 0 }
      syncLastAddr (if jump.condition && r.skipJump == 0 then land jump.destination r else r)
  else some (m.onCore fun r => syncLastAddr (cp0UpdateCount { r with pc := r.pc + 8 }))

/-- A jump of the cached interpreter: `land` is `landIn` for the regular one and `genericJumpTo`
    for `OUT`. -/
def cachedJump (env : Env M) (land : BitVec 32 → R4300 → R4300) (jump : Jump) (m : Machine M) :
    Option (Machine M) :=
  match if jump.cop1 then m.core.checkCop1Unusable else none with
  | some core => some { m with core := core }
  | none => (jumpBody env land jump m).map fun m => m.onCore fun r =>
      if 0 ≤ r.cp0.cycleCount.toInt then env.surroundings.genInterrupt r else r

/-- The idle variant up to the test for an interrupt. -/
def idleBody (env : Env M) (land : BitVec 32 → R4300 → R4300) (jump : Jump) (m : Machine M) :
    Option (Machine M) :=
  jumpBody env land jump (if jump.condition then m.onCore R4300.skipToInterrupt else m)

/-- The idle variant. -/
def cachedJumpIdle (env : Env M) (land : BitVec 32 → R4300 → R4300) (jump : Jump)
    (m : Machine M) : Option (Machine M) :=
  match if jump.cop1 then m.core.checkCop1Unusable else none with
  | some core => some { m with core := core }
  | none => cachedJump env land jump (if jump.condition then m.onCore R4300.skipToInterrupt else m)

/-- Where there is no loop, the idle variant is the regular one. -/
theorem cachedJumpIdle_of_no_loop (env : Env M) (land : BitVec 32 → R4300 → R4300) {jump : Jump}
    {m : Machine M} (h : jump.Usable m.core → jump.condition = false) :
    cachedJumpIdle env land jump m = cachedJump env land jump m := by
  unfold cachedJumpIdle
  by_cases husable : jump.Usable m.core
  · rw [h husable]
    unfold Jump.Usable at husable
    rw [husable]
    rfl
  · unfold cachedJump
    unfold Jump.Usable at husable
    split
    · rfl
    · next hnone => exact absurd hnone husable

/-- The loop executed from `m` to the next interrupt: the jump of the slot again and again, as long
    as it comes back and the interrupt is not due. -/
inductive RunsLoop (env : Env M) (j : JumpSlot) : Machine M → Machine M → Prop
  | due {m m' : Machine M} {jump : Jump}
      (hjump : m.core.jumpOf? j.opcode.ciRoutine j.iw = some jump) (husable : jump.Usable m.core)
      (hbody : jumpBody env (R4300.landIn j.start) jump m = some m')
      (hdue : 0 ≤ m'.core.cp0.cycleCount.toInt) : RunsLoop env j m m'
  | again {m m₁ m' : Machine M} {jump : Jump}
      (hjump : m.core.jumpOf? j.opcode.ciRoutine j.iw = some jump) (husable : jump.Usable m.core)
      (hbody : jumpBody env (R4300.landIn j.start) jump m = some m₁)
      (hearly : m₁.core.cp0.cycleCount.toInt < 0) (hback : m₁.core.pc = j.addr)
      (hrest : RunsLoop env j m₁ m') : RunsLoop env j m m'

/-- The machines agree but for the block cache and a COUNT that is at most `slack` ahead. -/
def CountAhead (slack : ℕ) (m m' : Machine M) : Prop :=
  ∃ n ci, n.toNat ≤ slack ∧
    m' = m.onCore fun r => { r with cachedInterp := ci, cp0 := r.cp0.advance n }

end Machine

-- ════════════════════
-- The count of instructions
-- ════════════════════

/-- The count `cp0_update_count` adds for a number of instructions. -/
def Cp0.elapsed (c : Cp0) (n : BitVec 32) : BitVec 32 :=
  let count := n * c.countPerOp
  if c.countPerOpDenomPot ≠ 0 then
    (count + ((1 <<< c.countPerOpDenomPot.toNat) - 1)) >>> c.countPerOpDenomPot.toNat
  else count

/-- The instructions since the count was last updated. -/
def R4300.pending (r : R4300) : BitVec 32 := (r.pc - r.cp0.lastAddr) >>> 2

theorem elapsedCount_eq (r : R4300) : elapsedCount r = r.cp0.elapsed r.pending := rfl

/-- The instructions of one round of an idle loop: the jump and its delay slot. -/
def roundLength : BitVec 32 := 2

/-- What holds when the core comes to an instruction: the settings of the count are those that
    `main.c` admits, no jump is to be skipped, and the count of the instructions since the last
    update does not wrap. -/
structure R4300.AtInstruction (r : R4300) : Prop where
  perOp_pos : 0 < r.cp0.countPerOp.toNat
  denom_le : r.cp0.countPerOpDenomPot.toNat ≤ 20
  skipJump : r.skipJump = 0
  straight : (r.pc - r.cp0.lastAddr).toNat % 4 = 0
  pending_lt : (r.pending.toNat + 2) * r.cp0.countPerOp.toNat < 2 ^ 28
  cycle_lt : r.cp0.cycleCount.toInt < 2 ^ 29

theorem pow_denom_toNat {n : ℕ} (h : n ≤ 20) : ((1 <<< n : BitVec 32) - 1).toNat = 2 ^ n - 1 := by
  interval_cases n <;> rfl

/-- The count is the product with `count_per_op`, divided and rounded up. -/
theorem Cp0.elapsed_toNat {c : Cp0} (hdenom : c.countPerOpDenomPot.toNat ≤ 20) {n : BitVec 32}
    (h : n.toNat * c.countPerOp.toNat < 2 ^ 28) :
    (c.elapsed n).toNat =
      (n.toNat * c.countPerOp.toNat + (2 ^ c.countPerOpDenomPot.toNat - 1)) /
        2 ^ c.countPerOpDenomPot.toNat := by
  have hproduct : (n * c.countPerOp).toNat = n.toNat * c.countPerOp.toNat := by
    rw [BitVec.toNat_mul]
    exact Nat.mod_eq_of_lt (by omega)
  unfold Cp0.elapsed
  by_cases hzero : c.countPerOpDenomPot = 0
  · simp [hzero, hproduct]
  · have hpow : 2 ^ c.countPerOpDenomPot.toNat ≤ 2 ^ 20 := Nat.pow_le_pow_right (by decide) hdenom
    simp only [hzero, ne_eq, not_false_eq_true, if_true]
    rw [BitVec.toNat_ushiftRight, Nat.shiftRight_eq_div_pow, BitVec.toNat_add, hproduct,
      pow_denom_toNat hdenom, Nat.mod_eq_of_lt (by omega)]

/-- Rounding up a sum and its parts. -/
theorem ceil_add (a b : ℕ) {q : ℕ} (hq : 0 < q) :
    (a + b + (q - 1)) / q ≤ (a + (q - 1)) / q + (b + (q - 1)) / q ∧
      (a + (q - 1)) / q + (b + (q - 1)) / q ≤ (a + b + (q - 1)) / q + 1 := by
  have ha := Nat.div_add_mod (a + (q - 1)) q
  have hb := Nat.div_add_mod (b + (q - 1)) q
  have hal := Nat.mod_lt (a + (q - 1)) hq
  have hbl := Nat.mod_lt (b + (q - 1)) hq
  constructor
  · refine Nat.le_of_lt_succ ((Nat.div_lt_iff_lt_mul hq).2 ?_)
    rw [Nat.succ_mul, Nat.add_mul, Nat.mul_comm _ q, Nat.mul_comm _ q]
    omega
  · refine Nat.le_of_lt_succ ?_
    refine Nat.lt_of_mul_lt_mul_left (a := q) ?_
    have hc := Nat.div_add_mod (a + b + (q - 1)) q
    have hcl := Nat.mod_lt (a + b + (q - 1)) hq
    rw [Nat.mul_add, Nat.mul_succ, Nat.mul_add]
    omega

-- ════════════════════
-- One round
-- ════════════════════

/-- The general registers after the link of a jump. -/
def Jump.linked (jump : Jump) (r : R4300) : Fin 32 → BitVec 64 :=
  if jump.link ≠ 0 then Function.update r.regs jump.link (se32 (r.pc + 8)) else r.regs

/-- The core back at the jump, with a count that has moved on. -/
def R4300.settled (r : R4300) (regs : Fin 32 → BitVec 64) (n : BitVec 32) (ci : CachedInterp) :
    R4300 :=
  { r with
    regs := regs
    delaySlot := 0
    cachedInterp := ci
    cp0 := { r.cp0.advance n with lastAddr := r.pc } }

/-- The instruction in the delay slot does nothing; coming to it may build a block. -/
def DelayIsNop {M : Type} (env : Env M) (addr : BitVec 32) : Prop :=
  ∀ m : Machine M, m.core.pc = addr + 4 →
    ∃ ci, env.delaySlot m = some (m.onCore fun r => { r with pc := r.pc + 4, cachedInterp := ci })

namespace Machine

variable {M : Type} {env : Env M} {jump : Jump} {m : Machine M}

theorem link_eq (jump : Jump) (m : Machine M) :
    (if jump.link ≠ 0 then m.setGpr jump.link (se32 (m.core.pc + 8)) else m) =
      m.onCore fun r => { r with regs := jump.linked r } := by
  unfold Jump.linked
  split <;> rfl

/-- A round whose jump is taken and comes back. -/
theorem jumpBody_taken (hnop : DelayIsNop env m.core.pc) (hskip : m.core.skipJump = 0)
    (hcond : jump.condition = true) {start : BitVec 32}
    (hland : landingOf start jump.destination = m.core.pc) :
    ∃ ci, jumpBody env (R4300.landIn start) jump m = some (m.onCore fun r =>
      r.settled (jump.linked r) (r.cp0.elapsed ((r.pc + 4 + 4 - r.cp0.lastAddr) >>> 2)) ci) := by
  obtain ⟨ci, hdelay⟩ := hnop
    ((m.onCore fun r => { r with regs := jump.linked r }).onCore fun r =>
      { r with pc := r.pc + 4, delaySlot := 1 }) rfl
  refine ⟨ci, ?_⟩
  unfold jumpBody
  rw [link_eq]
  simp only [hcond, Bool.or_true, if_true, hdelay, Option.map_some, Bool.true_and]
  refine congrArg some ?_
  have hjumps : (m.core.skipJump == 0) = true := by rw [hskip]; rfl
  let r : R4300 :=
    { m.core with
      regs := jump.linked m.core, pc := m.core.pc + 4 + 4, delaySlot := 1, cachedInterp := ci }
  show { m with core := syncLastAddr (if (m.core.skipJump == 0) = true then
    R4300.landIn start jump.destination { cp0UpdateCount r with delaySlot := 0 } else _) } = _
  rw [if_pos hjumps, R4300.landIn, hland]
  rfl

/-- A round whose jump is not taken ends behind the delay slot. -/
theorem jumpBody_not_taken (hnop : DelayIsNop env m.core.pc) (hcond : jump.condition = false)
    {start : BitVec 32} {m' : Machine M}
    (h : jumpBody env (R4300.landIn start) jump m = some m') :
    m'.core.pc = m.core.pc + 8 := by
  obtain ⟨ci, hdelay⟩ := hnop
    ((m.onCore fun r => { r with regs := jump.linked r }).onCore fun r =>
      { r with pc := r.pc + 4, delaySlot := 1 }) rfl
  unfold jumpBody at h
  rw [link_eq] at h
  by_cases hlikely : jump.likely = true
  · simp only [hcond, hlikely, Bool.not_true, Bool.or_false, Bool.false_eq_true, if_false,
      Option.some.injEq] at h
    rw [← h]
    rfl
  · simp only [hcond, hlikely, Bool.not_false, Bool.true_or, if_true, hdelay, Option.map_some,
      Bool.false_and, Bool.false_eq_true, if_false, Option.some.injEq] at h
    rw [← h]
    show m.core.pc + 4 + 4 = m.core.pc + 8
    rw [BitVec.add_assoc]
    rfl

end Machine

-- ════════════════════
-- The jump of a slot
-- ════════════════════

/-- A jump reads the program counter, the general registers and coprocessor 1. -/
theorem jumpOf?_congr (routine : Routine) (iw : BitVec 32) {r r' : R4300} (hpc : r'.pc = r.pc)
    (hregs : r'.regs = r.regs) (hcp1 : r'.cp1 = r.cp1) :
    r'.jumpOf? routine iw = r.jumpOf? routine iw := by
  simp only [R4300.jumpOf?, R4300.jumpTarget, R4300.branch, R4300.branchZero, R4300.branchCop1,
    R4300.branchTarget, R4300.gpr32, hpc, hregs, hcp1]

/-- What a jump links and needs does not depend on the registers. -/
theorem jumpOf?_regs {routine : Routine} {iw : BitVec 32} {r : R4300} {jump : Jump}
    (h : r.jumpOf? routine iw = some jump) (regs : Fin 32 → BitVec 64) :
    ∃ jump', { r with regs := regs }.jumpOf? routine iw = some jump' ∧ jump'.link = jump.link ∧
      jump'.cop1 = jump.cop1 := by
  cases routine <;> first
    | (obtain rfl := Option.some.inj h; exact ⟨_, rfl, rfl, rfl⟩)
    | cases h

theorem usable_iff {jump : Jump} {r : R4300} :
    jump.Usable r ↔ (jump.cop1 = true → r.cp0Reg .status &&& statusCU1 ≠ 0) := by
  unfold Jump.Usable R4300.checkCop1Unusable
  cases jump.cop1 with
  | false => simp
  | true => by_cases h : r.cp0Reg .status &&& statusCU1 = 0 <;> simp [h]

theorem usable_settled {jump jump' : Jump} {r : R4300} (hcop1 : jump'.cop1 = jump.cop1)
    (h : jump.Usable r) (regs : Fin 32 → BitVec 64) (n : BitVec 32) (ci : CachedInterp) :
    jump'.Usable (r.settled regs n ci) := by
  rw [usable_iff] at h ⊢
  rw [hcop1]
  intro hc
  exact h hc

-- ════════════════════
-- The loop
-- ════════════════════

theorem Cp0.advance_eq (c : Cp0) (n : BitVec 32) :
    c.advance n = { c with
      regs := Function.update c.regs .count (c.regs .count + n)
      cycleCount := c.cycleCount + n } := rfl

theorem Cp0.advance_advance (c : Cp0) (a b : BitVec 32) :
    (c.advance a).advance b = c.advance (a + b) := by
  simp only [Cp0.advance_eq, Function.update_self, Function.update_idem, BitVec.add_assoc]

theorem settled_settled (r : R4300) (regs regs' : Fin 32 → BitVec 64) (a b : BitVec 32)
    (ci ci' : CachedInterp) :
    (r.settled regs a ci).settled regs' b ci' = r.settled regs' (a + b) ci' := by
  have hadvance : { r.cp0.advance a with lastAddr := r.pc }.advance b =
      { r.cp0.advance (a + b) with lastAddr := r.pc } := by
    rw [← Cp0.advance_advance]
    rfl
  unfold R4300.settled
  rw [hadvance]

theorem settled_regs (r : R4300) (regs : Fin 32 → BitVec 64) (n : BitVec 32)
    (ci : CachedInterp) : (r.settled regs n ci).regs = regs := rfl

theorem settled_cycleCount (r : R4300) (regs : Fin 32 → BitVec 64) (n : BitVec 32)
    (ci : CachedInterp) : (r.settled regs n ci).cp0.cycleCount = r.cp0.cycleCount + n := rfl

/-- Linking once more changes nothing. -/
theorem linked_settled {jump jump' : Jump} (hlink : jump'.link = jump.link) (r : R4300)
    (n : BitVec 32) (ci : CachedInterp) :
    jump'.linked (r.settled (jump.linked r) n ci) = jump.linked r := by
  unfold Jump.linked
  rw [hlink]
  split
  · exact Function.update_idem _ _ _
  · rfl

/-- A sum with a small count does not wrap. -/
theorem toInt_add_count {c e : BitVec 32} (hc : c.toInt < 2 ^ 30) (he : e.toNat < 2 ^ 30) :
    (c + e).toInt = c.toInt + e.toNat := by
  have hlow := c.le_toInt
  rw [BitVec.toInt_add, BitVec.toInt_eq_toNat_of_lt (x := e) (by omega)]
  exact Int.bmod_eq_of_le (by omega) (by omega)

namespace Machine

variable {M : Type} {env : Env M} {j : JumpSlot} {m : Machine M}

/-- The machine is in the loop: the jump is taken, and its link is in place. -/
structure Looping (j : JumpSlot) (m : Machine M) : Prop where
  pc : m.core.pc = j.addr
  skipJump : m.core.skipJump = 0
  lastAddr : m.core.cp0.lastAddr = m.core.pc
  jump : ∃ jump, m.core.jumpOf? j.opcode.ciRoutine j.iw = some jump ∧ jump.Usable m.core ∧
    jump.condition = true ∧ jump.linked m.core = m.core.regs

/-- The loop jumps to itself, in its segment. -/
structure SelfLoop (env : Env M) (j : JumpSlot) : Prop where
  idle : j.decoded.variant = .idle
  stays : ¬LeavesSegment j.opcode j.iw j.addr
  delay : DelayIsNop env j.addr

theorem SelfLoop.landing (hself : SelfLoop env j) {r : R4300} (hpc : r.pc = j.addr) {jump : Jump}
    (hjump : r.jumpOf? j.opcode.ciRoutine j.iw = some jump) :
    landingOf j.start jump.destination = r.pc := by
  rw [JumpSlot.idle_destination hpc hjump hself.idle hself.stays, hpc]
  exact (lands_self j.slot_lt rfl).2

theorem SelfLoop.delayAt (hself : SelfLoop env j) {r : R4300} (hpc : r.pc = j.addr) :
    DelayIsNop env r.pc := by
  rw [hpc]
  exact hself.delay

/-- One round of the loop. -/
theorem Looping.round (hself : SelfLoop env j) (h : Looping j m) :
    ∃ jump ci, m.core.jumpOf? j.opcode.ciRoutine j.iw = some jump ∧ jump.Usable m.core ∧
      jumpBody env (R4300.landIn j.start) jump m = some (m.onCore fun r =>
        r.settled r.regs (r.cp0.elapsed roundLength) ci) := by
  obtain ⟨jump, hjump, husable, hcond, hlinked⟩ := h.jump
  obtain ⟨ci, hbody⟩ := jumpBody_taken (hself.delayAt h.pc) h.skipJump hcond
    (hself.landing h.pc hjump)
  have hcount : (m.core.pc + 4 + 4 - m.core.cp0.lastAddr) >>> 2 = roundLength := by
    have height : m.core.pc + 4 + 4 - m.core.pc = 8 := by ring
    rw [h.lastAddr, height]
    rfl
  refine ⟨jump, ci, hjump, husable, ?_⟩
  rw [hbody]
  simp only [onCore, hlinked, hcount]

theorem Looping.next (h : Looping j m) (n : BitVec 32) (ci : CachedInterp) :
    Looping j (m.onCore fun r => r.settled r.regs n ci) := by
  obtain ⟨jump, hjump, husable, hcond, hlinked⟩ := h.jump
  refine ⟨h.pc, h.skipJump, rfl, jump, ?_, usable_settled rfl husable _ _ _, hcond, ?_⟩
  · rw [← hjump]
    exact jumpOf?_congr _ _ rfl rfl rfl
  · exact hlinked

/-- The settings of the count are such that a round counts, and does not wrap. -/
structure RoundCounts (c : Cp0) : Prop where
  pos : 0 < (c.elapsed roundLength).toNat
  lt : (c.elapsed roundLength).toNat < 2 ^ 30

/-- A loop comes to the interrupt, less than a round behind it. -/
theorem Looping.runs (hself : SelfLoop env j) (fuel : ℕ) (h : Looping j m)
    (hcounts : RoundCounts m.core.cp0) (hearly : m.core.cp0.cycleCount.toInt < 0)
    (hfuel : -m.core.cp0.cycleCount.toInt ≤ fuel) :
    ∃ n ci, RunsLoop env j m (m.onCore fun r => r.settled r.regs n ci) ∧
      0 ≤ (m.core.cp0.cycleCount + n).toInt ∧
      (m.core.cp0.cycleCount + n).toInt < (m.core.cp0.elapsed roundLength).toNat := by
  induction fuel generalizing m with
  | zero => omega
  | succ fuel ih =>
    obtain ⟨jump, ci, hjump, husable, hbody⟩ := h.round hself
    have hpos := hcounts.pos
    have hsum := toInt_add_count (c := m.core.cp0.cycleCount) (by omega) hcounts.lt
    by_cases hdue : 0 ≤ (m.core.cp0.cycleCount + m.core.cp0.elapsed roundLength).toInt
    · exact ⟨_, ci, .due hjump husable hbody hdue, hdue, by omega⟩
    · obtain ⟨n, ci', hrun, hge, hlt⟩ := ih (h.next (m.core.cp0.elapsed roundLength) ci)
        ⟨hcounts.pos, hcounts.lt⟩ (by rw [onCore, settled_cycleCount]; omega)
        (by rw [onCore, settled_cycleCount]; omega)
      refine ⟨m.core.cp0.elapsed roundLength + n, ci', ?_, ?_, ?_⟩
      · refine .again hjump husable hbody (by rw [onCore, settled_cycleCount]; omega) h.pc ?_
        simpa only [onCore, settled_settled, settled_regs] using hrun
      · rw [← BitVec.add_assoc]
        exact hge
      · rw [← BitVec.add_assoc]
        exact hlt

end Machine

-- ════════════════════
-- The skip
-- ════════════════════

section Counts

variable {r : R4300}

theorem R4300.AtInstruction.round_lt (hat : r.AtInstruction) :
    roundLength.toNat * r.cp0.countPerOp.toNat < 2 ^ 28 := by
  have hlt := hat.pending_lt
  rw [Nat.add_mul] at hlt
  exact (Nat.le_add_left _ _).trans_lt hlt

theorem R4300.AtInstruction.pending_bound (hat : r.AtInstruction) :
    r.pending.toNat + 2 < 2 ^ 28 :=
  (Nat.le_mul_of_pos_right _ hat.perOp_pos).trans_lt hat.pending_lt

theorem R4300.AtInstruction.pending_next (hat : r.AtInstruction) :
    (r.pending + roundLength).toNat = r.pending.toNat + 2 := by
  have hbound := hat.pending_bound
  rw [BitVec.toNat_add]
  show (_ + 2) % 2 ^ 32 = _
  omega

/-- The instructions up to the end of the round. -/
theorem R4300.AtInstruction.through_round (hat : r.AtInstruction) :
    (r.pc + 4 + 4 - r.cp0.lastAddr) >>> 2 = r.pending + roundLength := by
  have hstraight := hat.straight
  have hbound := hat.pending_bound
  have hsum : r.pc + 4 + 4 - r.cp0.lastAddr = r.pc - r.cp0.lastAddr + 8 := by ring
  have height : (8 : BitVec 32).toNat = 8 := rfl
  refine BitVec.eq_of_toNat_eq ?_
  rw [hat.pending_next, hsum]
  unfold R4300.pending at hbound ⊢
  rw [BitVec.toNat_ushiftRight, Nat.shiftRight_eq_div_pow] at hbound ⊢
  rw [BitVec.toNat_ushiftRight, Nat.shiftRight_eq_div_pow, BitVec.toNat_add, height]
  omega

/-- The counts of a round, of what is pending, and of both together. -/
structure R4300.CountsAdd (r : R4300) : Prop where
  round_pos : 0 < (r.cp0.elapsed roundLength).toNat
  le_add : (r.cp0.elapsed (r.pending + roundLength)).toNat ≤
    (r.cp0.elapsed r.pending).toNat + (r.cp0.elapsed roundLength).toNat
  add_le : (r.cp0.elapsed r.pending).toNat + (r.cp0.elapsed roundLength).toNat ≤
    (r.cp0.elapsed (r.pending + roundLength)).toNat + 1
  lt : (r.cp0.elapsed (r.pending + roundLength)).toNat < 2 ^ 29

theorem R4300.AtInstruction.countsAdd (hat : r.AtInstruction) : r.CountsAdd := by
  have hround := hat.round_lt
  have hlt := hat.pending_lt
  have hpos := hat.perOp_pos
  have hq : 0 < 2 ^ r.cp0.countPerOpDenomPot.toNat := Nat.two_pow_pos _
  have hpow : 2 ^ r.cp0.countPerOpDenomPot.toNat ≤ 2 ^ 20 :=
    Nat.pow_le_pow_right (by decide) hat.denom_le
  have hboth : (r.pending + roundLength).toNat * r.cp0.countPerOp.toNat =
      r.pending.toNat * r.cp0.countPerOp.toNat + roundLength.toNat * r.cp0.countPerOp.toNat := by
    rw [hat.pending_next, Nat.add_mul]
    rfl
  rw [← hat.pending_next] at hlt
  have hpending : r.pending.toNat * r.cp0.countPerOp.toNat < 2 ^ 28 := by omega
  obtain ⟨hle, hge⟩ := ceil_add (r.pending.toNat * r.cp0.countPerOp.toNat)
    (roundLength.toNat * r.cp0.countPerOp.toNat) hq
  rw [← hboth, ← Cp0.elapsed_toNat hat.denom_le hround, ← Cp0.elapsed_toNat hat.denom_le hpending,
    ← Cp0.elapsed_toNat hat.denom_le hlt] at hle hge
  refine ⟨?_, hle, hge, ?_⟩
  · rw [Cp0.elapsed_toNat hat.denom_le hround]
    refine Nat.div_pos ?_ hq
    show _ ≤ 2 * _ + _
    omega
  · rw [Cp0.elapsed_toNat hat.denom_le hlt]
    refine (Nat.div_le_self _ _).trans_lt ?_
    omega

/-- How far the idle variant moves COUNT before its round. -/
def R4300.skipped (r : R4300) : BitVec 32 :=
  r.cp0.elapsed r.pending +
    if (r.cp0.cycleCount + r.cp0.elapsed r.pending).toInt < 0 then
      -(r.cp0.cycleCount + r.cp0.elapsed r.pending)
    else 0

theorem R4300.skipToInterrupt_eq (r : R4300) :
    r.skipToInterrupt = { r with cp0 := { r.cp0.advance r.skipped with lastAddr := r.pc } } := by
  have hcycle : (cp0UpdateCount r).cp0.cycleCount =
      r.cp0.cycleCount + r.cp0.elapsed r.pending := rfl
  unfold R4300.skipToInterrupt R4300.skipped
  simp only [hcycle]
  split
  · have hcount : r.cp0.regs .count + r.cp0.elapsed r.pending -
        (r.cp0.cycleCount + r.cp0.elapsed r.pending) =
        r.cp0.regs .count + (r.cp0.elapsed r.pending +
          -(r.cp0.cycleCount + r.cp0.elapsed r.pending)) := by ring
    have hzero : r.cp0.cycleCount + (r.cp0.elapsed r.pending +
        -(r.cp0.cycleCount + r.cp0.elapsed r.pending)) = 0 := by ring
    rw [Cp0.advance_eq, hzero, ← hcount]
    simp only [cp0UpdateCount, elapsedCount_eq, R4300.setCp0, Cp0.set, Cp0.advance_eq,
      Function.update_idem]
    rfl
  · rw [BitVec.ofNat_eq_ofNat, BitVec.add_zero]
    rfl

end Counts

-- ════════════════════
-- The idle variant and the loop
-- ════════════════════

/-- After the link of the jump its condition is false. -/
def JumpSlot.LinkStops (j : JumpSlot) (jump : Jump) (r : R4300) : Prop :=
  ∃ jump', { r with regs := jump.linked r }.jumpOf? j.opcode.ciRoutine j.iw = some jump' ∧
    jump'.condition = false

/-- The interrupt is not due after the first round of the loop. -/
def R4300.WaitsRounds (r : R4300) : Prop :=
  (r.cp0.cycleCount + r.cp0.elapsed (r.pending + roundLength)).toInt < 0

namespace Machine

variable {M : Type} {env : Env M} {j : JumpSlot} {m : Machine M} {jump : Jump}

/-- The first round, with the instructions that led to the loop. -/
theorem first_round (hself : SelfLoop env j) (hpc : m.core.pc = j.addr)
    (hat : m.core.AtInstruction) (hjump : m.core.jumpOf? j.opcode.ciRoutine j.iw = some jump)
    (hcond : jump.condition = true) :
    ∃ ci, jumpBody env (R4300.landIn j.start) jump m = some (m.onCore fun r =>
      r.settled (jump.linked r) (r.cp0.elapsed (r.pending + roundLength)) ci) := by
  obtain ⟨ci, hbody⟩ := jumpBody_taken (hself.delayAt hpc) hat.skipJump hcond
    (hself.landing hpc hjump)
  refine ⟨ci, ?_⟩
  rw [hbody]
  simp only [onCore, hat.through_round]

/-- The idle variant: the skip, and one round. -/
theorem idleBody_eq (hself : SelfLoop env j) (hpc : m.core.pc = j.addr)
    (hat : m.core.AtInstruction) (hjump : m.core.jumpOf? j.opcode.ciRoutine j.iw = some jump)
    (hcond : jump.condition = true) :
    ∃ ci, idleBody env (R4300.landIn j.start) jump m = some (m.onCore fun r =>
      r.settled (jump.linked r) (r.skipped + r.cp0.elapsed roundLength) ci) := by
  have hskip := m.core.skipToInterrupt_eq
  have hpc' : (m.onCore R4300.skipToInterrupt).core.pc = m.core.pc := by
    rw [onCore, hskip]
  have hlast : (m.onCore R4300.skipToInterrupt).core.cp0.lastAddr = m.core.pc := by
    rw [onCore, hskip]
  have hskipJump : (m.onCore R4300.skipToInterrupt).core.skipJump = 0 := by
    rw [onCore, hskip]
    exact hat.skipJump
  obtain ⟨ci, hbody⟩ := jumpBody_taken (m := m.onCore R4300.skipToInterrupt)
    (hself.delayAt (hpc'.trans hpc)) hskipJump hcond ((hself.landing hpc hjump).trans hpc'.symm)
  refine ⟨ci, ?_⟩
  have hcount : (m.core.pc + 4 + 4 - m.core.pc) >>> 2 = roundLength := by
    have height : m.core.pc + 4 + 4 - m.core.pc = 8 := by ring
    rw [height]
    rfl
  have hsettled : (m.core.skipToInterrupt.settled (jump.linked m.core)
      (m.core.cp0.elapsed roundLength) ci) = m.core.settled (jump.linked m.core)
        (m.core.skipped + m.core.cp0.elapsed roundLength) ci := by
    rw [hskip]
    unfold R4300.settled
    rw [← Cp0.advance_advance]
    rfl
  have hlinked : jump.linked m.core.skipToInterrupt = jump.linked m.core := by
    rw [hskip]
    rfl
  have helapsed (n : BitVec 32) : m.core.skipToInterrupt.cp0.elapsed n = m.core.cp0.elapsed n := by
    rw [hskip]
    rfl
  rw [idleBody, hcond, if_pos rfl, hbody]
  simp only [onCore] at hpc' hlast ⊢
  rw [hpc', hlast, hcount, helapsed, hlinked, hsettled]

/-- A loop whose link leaves it running is in the loop after the first round. -/
theorem looping_of_first (hpc : m.core.pc = j.addr) (hat : m.core.AtInstruction)
    (hjump : m.core.jumpOf? j.opcode.ciRoutine j.iw = some jump) (husable : jump.Usable m.core)
    (hgoes : ¬j.LinkStops jump m.core) (n : BitVec 32) (ci : CachedInterp) :
    Looping j (m.onCore fun r => r.settled (jump.linked r) n ci) := by
  obtain ⟨jump', hjump', hlink, hcop1⟩ := jumpOf?_regs hjump (jump.linked m.core)
  have hcond : jump'.condition = true := by
    by_contra hfalse
    exact hgoes ⟨jump', hjump', by simpa using hfalse⟩
  refine ⟨hpc, hat.skipJump, rfl, jump', ?_, usable_settled hcop1 husable _ _ _, hcond,
    linked_settled hlink m.core n ci⟩
  rw [← hjump']
  exact jumpOf?_congr _ _ rfl rfl rfl

/-- The idle variant comes to the next interrupt, as the loop does when it is executed, with COUNT
    at most a round ahead. -/
def IdleAgrees (env : Env M) (j : JumpSlot) (jump : Jump) (m : Machine M) : Prop :=
  jump.Usable m.core → jump.condition = true →
    ∃ m₁ m₂, idleBody env (R4300.landIn j.start) jump m = some m₁ ∧
      0 ≤ m₁.core.cp0.cycleCount.toInt ∧ RunsLoop env j m m₂ ∧
      CountAhead (m.core.cp0.elapsed roundLength).toNat m₂ m₁

/-- How far COUNT is ahead: `n` is what the loop has counted, `x` its cycle count then. -/
theorem ahead_bounds {r : R4300} (hat : r.AtInstruction) {n x : BitVec 32}
    (hx : x = r.cp0.cycleCount + n) (hge : 0 ≤ x.toInt)
    (hloop : n = r.cp0.elapsed (r.pending + roundLength) ∨
      r.WaitsRounds ∧ x.toInt < (r.cp0.elapsed roundLength).toNat) :
    0 ≤ (r.cp0.cycleCount + (r.skipped + r.cp0.elapsed roundLength)).toInt ∧
      (r.skipped + r.cp0.elapsed roundLength - n).toNat ≤ (r.cp0.elapsed roundLength).toNat := by
  have hcycle := hat.cycle_lt
  obtain ⟨hpos, hle, hgeSum, hlt⟩ := hat.countsAdd
  have hpending := toInt_add_count (c := r.cp0.cycleCount) (e := r.cp0.elapsed r.pending)
    (by omega) (by omega)
  have hthrough := toInt_add_count (c := r.cp0.cycleCount)
    (e := r.cp0.elapsed (r.pending + roundLength)) (by omega) (by omega)
  unfold R4300.skipped R4300.WaitsRounds at *
  generalize r.cp0.elapsed (r.pending + roundLength) = both at *
  generalize r.cp0.elapsed r.pending = p at *
  generalize r.cp0.elapsed roundLength = round at *
  generalize r.cp0.cycleCount = c at *
  by_cases hearly : (c + p).toInt < 0
  · rw [if_pos hearly]
    have hend : c + (p + -(c + p) + round) = round := by ring
    have hdiff : p + -(c + p) + round - n = round - x := by
      rw [hx]
      ring
    have hxle : x.toInt ≤ round.toNat := by
      obtain rfl | ⟨-, hlt'⟩ := hloop
      · rw [hx]
        omega
      · exact hlt'.le
    have hxnat : (x.toNat : ℤ) = x.toInt := by
      rw [BitVec.toInt_eq_toNat_cond] at hge ⊢
      split at hge <;> omega
    rw [hend, hdiff, BitVec.toInt_eq_toNat_of_lt (by omega), BitVec.toNat_sub]
    omega
  · rw [if_neg hearly]
    have hn : n = both := hloop.resolve_right fun h => by omega
    have hzero : p + 0#32 = p := BitVec.add_zero p
    rw [BitVec.ofNat_eq_ofNat, hzero, hn, ← BitVec.add_assoc,
      toInt_add_count (by omega) (by omega), BitVec.toNat_sub, BitVec.toNat_add]
    omega

theorem countAhead_settled (r : Machine M) (regs : Fin 32 → BitVec 64) (n k : BitVec 32)
    (ci ci' : CachedInterp) {slack : ℕ} (h : (k - n).toNat ≤ slack) :
    CountAhead slack (r.onCore fun r => r.settled regs n ci)
      (r.onCore fun r => r.settled regs k ci') := by
  refine ⟨k - n, ci', h, ?_⟩
  have hk : k = n + (k - n) := by ring
  have hadvance : { r.core.cp0.advance n with lastAddr := r.core.pc }.advance (k - n) =
      { r.core.cp0.advance k with lastAddr := r.core.pc } := by
    rw [hk, ← Cp0.advance_advance, ← hk]
    rfl
  simp only [onCore, R4300.settled, hadvance]

/-- The idle variant agrees with the loop unless the link stops the loop before the interrupt. -/
theorem idleAgrees_iff (hself : SelfLoop env j) (hpc : m.core.pc = j.addr)
    (hat : m.core.AtInstruction) (hjump : m.core.jumpOf? j.opcode.ciRoutine j.iw = some jump) :
    IdleAgrees env j jump m ↔ ¬(jump.Usable m.core ∧ jump.condition = true ∧
      j.LinkStops jump m.core ∧ m.core.WaitsRounds) := by
  constructor
  · rintro hagrees ⟨husable, hcond, ⟨jump', hjump', hstops⟩, hwaits⟩
    obtain ⟨m₁, m₂, hidle, -, hrun, n, ci, -, hahead⟩ := hagrees husable hcond
    obtain ⟨ci₁, hidle'⟩ := idleBody_eq hself hpc hat hjump hcond
    obtain ⟨ci₂, hfirst⟩ := first_round hself hpc hat hjump hcond
    have hpc₁ : m₁.core.pc = m.core.pc := by
      rw [← Option.some.inj (hidle'.symm.trans hidle)]
      rfl
    have hpc₂ : m₂.core.pc = m.core.pc := by
      rw [← hpc₁, hahead]
      rfl
    have hleft {m' m'' : Machine M} {jump'' : Jump}
        (hm' : m' = m.onCore fun r => r.settled (jump.linked r)
          (r.cp0.elapsed (r.pending + roundLength)) ci₂)
        (hjump'' : m'.core.jumpOf? j.opcode.ciRoutine j.iw = some jump'')
        (hbody : jumpBody env (R4300.landIn j.start) jump'' m' = some m'') :
        m''.core.pc = m.core.pc + 8 := by
      have hsame : jump'' = jump' := by
        refine Option.some.inj (hjump''.symm.trans (Eq.trans ?_ hjump'))
        rw [hm']
        exact jumpOf?_congr _ _ rfl rfl rfl
      have hcorePc : m'.core.pc = m.core.pc := by
        rw [hm']
        rfl
      rw [← hcorePc]
      exact jumpBody_not_taken (hself.delayAt (hcorePc.trans hpc)) (by rw [hsame, hstops]) hbody
    have hne : m.core.pc + 8 ≠ m.core.pc := by
      intro h
      have hzero : (8 : BitVec 32) = 0 := by
        calc (8 : BitVec 32) = m.core.pc + 8 - m.core.pc := by ring
          _ = 0 := by rw [h, BitVec.sub_self]; rfl
      exact absurd hzero (by decide)
    cases hrun with
    | due hjump₀ _ hbody hdue =>
      obtain rfl := Option.some.inj (hjump.symm.trans hjump₀)
      rw [← Option.some.inj (hfirst.symm.trans hbody)] at hdue
      exact absurd hwaits (not_lt_of_ge hdue)
    | again hjump₀ _ hbody _ _ hrest =>
      obtain rfl := Option.some.inj (hjump.symm.trans hjump₀)
      have hm' := (Option.some.inj (hfirst.symm.trans hbody)).symm
      cases hrest with
      | due hjump₁ _ hbody₁ _ => exact hne ((hleft hm' hjump₁ hbody₁).symm.trans hpc₂)
      | again hjump₁ _ hbody₁ _ hback _ =>
        exact hne ((hleft hm' hjump₁ hbody₁).symm.trans (hback.trans hpc.symm))
  · intro hgoes husable hcond
    obtain ⟨ci₁, hidle⟩ := idleBody_eq hself hpc hat hjump hcond
    obtain ⟨ci₂, hfirst⟩ := first_round hself hpc hat hjump hcond
    by_cases hwaits : m.core.WaitsRounds
    · have hlink : ¬j.LinkStops jump m.core := fun h => hgoes ⟨husable, hcond, h, hwaits⟩
      have hloop := looping_of_first hpc hat hjump husable hlink
        (m.core.cp0.elapsed (m.core.pending + roundLength)) ci₂
      obtain ⟨hpos, -, hadd, hlt⟩ := hat.countsAdd
      have hround : (m.core.cp0.elapsed roundLength).toNat < 2 ^ 30 := by omega
      obtain ⟨n, ci, hrun, hge, hlt⟩ := hloop.runs hself
        (-(m.core.cp0.cycleCount + m.core.cp0.elapsed (m.core.pending + roundLength)).toInt).toNat
        ⟨hpos, hround⟩ hwaits (Int.self_le_toNat _)
      simp only [onCore, settled_settled, settled_regs, settled_cycleCount] at hrun hge hlt
      obtain ⟨hdue, hahead⟩ := ahead_bounds hat (BitVec.add_assoc _ _ _) hge (.inr ⟨hwaits, hlt⟩)
      exact ⟨_, _, hidle, hdue, .again hjump husable hfirst hwaits hpc hrun,
        countAhead_settled m _ _ _ _ _ hahead⟩
    · have hge := Int.not_lt.1 hwaits
      obtain ⟨hdue, hahead⟩ := ahead_bounds hat rfl hge (.inl rfl)
      exact ⟨_, _, hidle, hdue, .due hjump husable hfirst hge,
        countAhead_settled m _ _ _ _ _ hahead⟩

end Machine

-- ════════════════════
-- The subtypes
-- ════════════════════

/-- The subtype of a jump is sound in a state: one that is not `OUT` comes to the slot of its
    target, where `OUT` goes too, and an idle loop may be skipped. -/
structure SubtypeSound {M : Type} (env : Env M) (j : JumpSlot) (jump : Jump) (m : Machine M) :
    Prop where
  lands : j.decoded.variant ≠ .out → Lands j.start jump.destination
  idle : j.decoded.variant = .idle → Machine.IdleAgrees env j jump m

/-- The link of an idle loop makes its condition false before the interrupt is due. -/
def LinkLeavesLoop (j : JumpSlot) (jump : Jump) (r : R4300) : Prop :=
  jump.Usable r ∧ jump.condition = true ∧ j.LinkStops jump r ∧ r.WaitsRounds

/-- A link stops only `BGEZAL`, `BLTZAL` and their likely forms, on register 31 itself. -/
theorem routine_of_linkStops {j : JumpSlot} {r : R4300} {jump : Jump}
    (hjump : r.jumpOf? j.opcode.ciRoutine j.iw = some jump) (hcond : jump.condition = true)
    (h : j.LinkStops jump r) :
    j.opcode.ciRoutine ∈ [.bltzal, .bltzall, .bgezal, .bgezall] ∧ rsReg j.iw = 31 := by
  obtain ⟨jump', hjump', hstops⟩ := h
  have hlink : jump.link ≠ 0 := by
    intro hlink
    have hlinked : jump.linked r = r.regs := if_neg (not_not_intro hlink)
    rw [hlinked, hjump] at hjump'
    obtain rfl := Option.some.inj hjump'
    exact absurd (hcond.symm.trans hstops) (by decide)
  have hregs : jump.linked r = Function.update r.regs jump.link (se32 (r.pc + 8)) := if_pos hlink
  rw [hregs] at hjump'
  generalize j.opcode.ciRoutine = routine at *
  -- Jumps without a link, and those that are always taken, are out.
  cases routine <;> cases hjump
  all_goals
    obtain rfl := Option.some.inj hjump'
    first
      | exact absurd rfl hlink
      | cases hstops
      | skip
  all_goals
    refine ⟨by decide, ?_⟩
    by_contra hrs
    have hsame : Function.update r.regs 31 (se32 (r.pc + 8)) (rsReg j.iw) = r.regs (rsReg j.iw) :=
      Function.update_of_ne hrs _ _
    simp only [R4300.branchZero, hsame] at hstops hcond
    exact absurd (hcond.symm.trans hstops) (by decide)

/-- The subtype is sound unless the target lies in the next segment, or the link leaves an idle
    loop. -/
theorem subtypeSound_iff {M : Type} (env : Env M) (j : JumpSlot) (jump : Jump) (m : Machine M)
    (hpc : m.core.pc = j.addr) (hat : m.core.AtInstruction)
    (hjump : m.core.jumpOf? j.opcode.ciRoutine j.iw = some jump)
    (hdelay : j.decoded.variant = .idle → DelayIsNop env j.addr) :
    SubtypeSound env j jump m ↔
      (j.decoded.variant ≠ .out → ¬LeavesSegment j.opcode j.iw j.addr) ∧
      (j.decoded.variant = .idle → ¬LinkLeavesLoop j jump m.core) := by
  have hself (hidle : j.decoded.variant = .idle)
      (hstays : j.decoded.variant ≠ .out → ¬LeavesSegment j.opcode j.iw j.addr) :
      Machine.SelfLoop env j :=
    ⟨hidle, hstays (by rw [hidle]; exact Variant.noConfusion), hdelay hidle⟩
  constructor
  · intro h
    have hstays (hin : j.decoded.variant ≠ .out) : ¬LeavesSegment j.opcode j.iw j.addr :=
      (JumpSlot.lands_iff hpc hjump hin).1 (h.lands hin)
    exact ⟨hstays, fun hidle =>
      (Machine.idleAgrees_iff (hself hidle hstays) hpc hat hjump).1 (h.idle hidle)⟩
  · rintro ⟨hstays, hgoes⟩
    exact ⟨fun hin => (JumpSlot.lands_iff hpc hjump hin).2 (hstays hin), fun hidle =>
      (Machine.idleAgrees_iff (hself hidle hstays) hpc hat hjump).2 (hgoes hidle)⟩

/-- The instruction in the delay slot is a `NOP`. -/
def Env.nopDelay : Env Unit := { Env.bare with delaySlot := fun m => some (m.onCore R4300.addToPc) }

/-- A core at an instruction, 100 counts before the next interrupt. -/
def coreAt (pc : BitVec 32) : R4300 :=
  let r := initR4300 .interpreter 2 0 0
  { r with pc := pc, cp0 := { r.cp0 with lastAddr := pc, cycleCount := -100 } }

/-- `BEQ $0, $0` to itself, with nothing in its delay slot. -/
def waitSlot : JumpSlot where
  iw := 0x1000FFFF
  nextIw := 0
  start := 0x80000000
  slot := 0
  stale := .j 0
  start_aligned := by decide
  slot_lt := by decide

/-- `J` to its own place in the segment, at the segment's end. -/
def segmentEndSlot : JumpSlot where
  iw := 0x0BFFFFFF
  nextIw := 1
  start := 0x8FFFF000
  slot := 1023
  stale := .j 0
  start_aligned := by decide
  slot_lt := by decide

theorem coreAt_atInstruction_wait : (coreAt 0x80000000).AtInstruction :=
  ⟨by decide, by decide, by decide, by decide, by decide, by decide⟩

theorem waitSlot_sound : waitSlot.decoded.variant = .idle ∧ SubtypeSound Env.nopDelay waitSlot
    ((coreAt 0x80000000).branch 0x1000FFFF (· == ·) false) (Machine.bare (coreAt 0x80000000)) := by
  refine ⟨by decide, (subtypeSound_iff Env.nopDelay waitSlot _
    (Machine.bare (coreAt 0x80000000)) rfl coreAt_atInstruction_wait rfl
    fun _ m _ => ⟨m.core.cachedInterp, rfl⟩).2 ⟨?_, ?_⟩⟩
  · rintro - ⟨h | h, -⟩
    · cases h
    · cases h
  · rintro - ⟨-, -, hstops, -⟩
    exact absurd (routine_of_linkStops rfl rfl hstops).1 (by decide)

/-- The target is in the next segment, far behind the block. -/
theorem segmentEnd_not_sound : ¬∀ (env : Env Unit) (j : JumpSlot) (jump : Jump)
    (m : Machine Unit), m.core.pc = j.addr → m.core.AtInstruction →
      m.core.jumpOf? j.opcode.ciRoutine j.iw = some jump →
      (j.decoded.variant = .idle → DelayIsNop env j.addr) → SubtypeSound env j jump m := by
  intro h
  have hat : (coreAt 0x8FFFFFFC).AtInstruction :=
    ⟨by decide, by decide, by decide, by decide, by decide, by decide⟩
  have hsound := h Env.nopDelay segmentEndSlot _ (Machine.bare (coreAt 0x8FFFFFFC)) rfl hat rfl
    fun _ m _ => ⟨m.core.cachedInterp, rfl⟩
  exact absurd (hsound.lands (by decide)).1 (by decide)

end Mupen64plus
