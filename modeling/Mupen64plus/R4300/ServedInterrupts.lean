import Mupen64plus.Device.Interrupts
import Mupen64plus.R4300.Cop1Unusable

/-!
# Interrupts that instructions take

`MTC0`, `ERET` and the jumps call `gen_interrupt` themselves, and so does the handler of a store to
`MI_INTR_MASK_REG`. The program counter has moved on in some of them and not in others.

## Main definitions

- `R4300.Interrupted` — what `gen_interrupt` does when CHECK_INT is the next event
- `Machine.served?` — the core on which a routine calls it, and the one it gets back

## Main results

- `Device.genInterrupt_check` — `gen_interrupt` with CHECK_INT at the head
- `execHandler_served` — the routine ends with the registers that it got back
-/

namespace Mupen64plus

/-- `exception_general`, entered at the program counter of `p`, in its delay slot or out of one, and
with its Status and EPC. -/
def R4300.Interrupted (p q : R4300) : Prop :=
  ∃ r : R4300, r.pc = p.pc ∧ r.delaySlot = p.delaySlot ∧
    r.cp0Reg .status = p.cp0Reg .status ∧ r.cp0Reg .epc = p.cp0Reg .epc ∧ q = exceptionGeneral r

namespace Device

theorem dispatch_check (o : Outside) {d : Device} {e : InterruptEvent}
    (hhead : d.cp0.q.events.head? = some e) (htype : e.type = .check) :
    (dispatch o d).r4300 =
      exceptionGeneral { d.r4300 with cp0 := removeInterruptEvent d.cp0 } := by
  unfold dispatch
  cases hevents : d.cp0.q.events with
  | nil =>
    rw [hevents] at hhead
    cases hhead
  | cons e' l =>
    rw [hevents] at hhead
    obtain rfl := Option.some_inj.mp hhead
    show (interruptHandler o d e'.type).r4300 = _
    rw [htype]
    rfl

/-- CHECK_INT at the head of the queue, where no jump is to be completed and the state is not safe
for a savestate. -/
theorem genInterrupt_check (o : Outside) (d : Device) (hskip : d.r4300.skipJump = 0)
    (hunsf : d.cp0.interruptUnsafeState ≠ 0) {e : InterruptEvent}
    (hhead : d.cp0.q.events.head? = some e) (htype : e.type = .check) :
    d.r4300.Interrupted (genInterrupt o d).r4300 := by
  have hregs : (removeInterruptEvent d.cp0).regs = d.cp0.regs := removeInterruptEvent_regs d.cp0
  refine ⟨{ d.r4300 with cp0 := removeInterruptEvent d.cp0 }, rfl, rfl, congrFun hregs .status,
    congrFun hregs .epc, ?_⟩
  obtain ⟨d', hd', hcore⟩ : ∃ d', (if d.r4300.stop then { d with gsViCounter := 0 } else d) = d' ∧
      d'.r4300 = d.r4300 := ⟨_, rfl, by split <;> rfl⟩
  have hcp0 : d'.cp0 = d.cp0 := congrArg R4300.cp0 hcore
  have hunsf' : (d'.cp0.interruptUnsafeState == 0) = false := by
    rw [hcp0]
    exact beq_false_of_ne hunsf
  have hserved : (if d'.r4300.skipJump ≠ 0 then d'.completeJump else dispatch o d').r4300 =
      exceptionGeneral { d.r4300 with cp0 := removeInterruptEvent d.cp0 } := by
    rw [hcore, if_neg (not_not_intro hskip), dispatch_check o (hcp0 ▸ hhead) htype, hcore, hcp0]
  unfold genInterrupt
  rw [hd']
  dsimp only
  rw [hunsf']
  cases o.job <;> exact hserved

end Device

section

variable {M : Type}

namespace R4300

/-- The core between the two updates of `interrupt_unsafe_state`. -/
def unsafeState (r : R4300) : R4300 :=
  { r with cp0 := { r.cp0 with
      interruptUnsafeState := r.cp0.interruptUnsafeState ||| intrUnsafeR4300 } }

/-- The core behind the first assignment of `MTC0`. -/
def latched (r : R4300) (rt : Fin 32) : R4300 :=
  { r with cp0 := { r.cp0 with latch := se32 (r.gpr32 rt) } }

end R4300

namespace Machine

/-- The machine behind the access of a store. -/
def accessed? (o : OtherRegions M) (routine : Routine) (op : BitVec 32) (m : Machine M) :
    Option (Machine M) :=
  match routine with
  | .sb => some (m.sb o op)
  | .sh => some (m.sh o op)
  | .sw => some (m.sw o op)
  | .swl => some (m.swl o op)
  | .swr => some (m.swr o op)
  | .sd => some (m.sd o op)
  | .sdl => some (m.sdl o op)
  | .sdr => some (m.sdr o op)
  | .swc1 => some (m.swc1 o op)
  | .sdc1 => some (m.sdc1 o op)
  | .sc =>
    if m.core.llbit ≠ 0 then
      some (m.addToPc.writeAlignedWord o (m.lsaddr op) (m.core.gpr32 (rtReg op)) (~~~0)).2
    else none
  | _ => none

/-- The core on which `gen_interrupt` is called, and the one it gives back. -/
def called? (env : Surroundings) (p : R4300) : Option (R4300 × R4300) :=
  if 0 ≤ p.cp0.cycleCount.toInt then some (p, env.genInterrupt p) else none

/-- Where a handler calls `gen_interrupt`, if it does, and what it gets back. A store calls it in
the handler of its address, behind `ADD_TO_PC`. -/
def served? (env : Env M) (handler : Handler) (op : BitVec 32) (m : Machine M) :
    Option (R4300 × R4300) :=
  match m.core.jumpOf? handler.routine op with
  | some jump =>
    if jump.cop1 = true ∧ m.core.cp0Reg .status &&& statusCU1 = 0 then none
    else
      let start := if handler.variant = .idle ∧ jump.condition then m.onCore skipIdle else m
      (start.jumped env jump).bind fun m' => called? env.surroundings (syncLastAddr m'.core)
  | none =>
    let r := m.core.latched (rtReg op)
    match handler.routine with
    | .mtc0 => match cp0RegOf (fsOf op) with
      | .count => called? env.surroundings (cp0UpdateCount r).unsafeState
      | .status => called? env.surroundings
          (mtc0StatusWritten env.surroundings.rcpInterrupt r (rtReg op)).unsafeState
      | _ => none
    | .eret =>
      called? env.surroundings
        (syncLastAddr (R4300.eretReturned env.surroundings.rcpInterrupt m.core))
    | routine => (m.accessed? env.other routine op).map fun m' => (m.core.addToPc, m'.core)

end Machine

-- ════════════════════
-- A routine ends with what it got back
-- ════════════════════

/-- The same registers of CP0, COUNT apart. -/
def SameCp0 (q r : R4300) : Prop := ∀ reg ≠ Cp0Reg.count, r.cp0Reg reg = q.cp0Reg reg

variable {m : Machine M} {p q : R4300} {op : BitVec 32}

theorem called?_eq_some {env : Surroundings} {s : R4300} (h : Machine.called? env s = some (p, q)) :
    0 ≤ s.cp0.cycleCount.toInt ∧ p = s ∧ q = env.genInterrupt s := by
  unfold Machine.called? at h
  split at h
  · next hdue =>
    obtain ⟨rfl, rfl⟩ := Prod.mk.inj (Option.some_inj.mp h)
    exact ⟨hdue, rfl, rfl⟩
  · cases h

theorem serveDue_served {env : Surroundings} {s : R4300}
    (h : Machine.called? env s.unsafeState = some (p, q)) :
    (serveDue env s).cp0.regs = q.cp0.regs := by
  obtain ⟨hdue, -, rfl⟩ := called?_eq_some h
  have hdue' : 0 ≤ s.cp0.cycleCount.toInt := hdue
  unfold serveDue
  dsimp only
  rw [if_pos hdue']
  rfl

theorem serveInterrupt_served {env : Surroundings} {s : R4300}
    (h : Machine.called? env (syncLastAddr s) = some (p, q)) : s.serveInterrupt env = q := by
  obtain ⟨hdue, -, rfl⟩ := called?_eq_some h
  exact if_pos hdue

theorem skipIdle_status (r : R4300) : (Machine.skipIdle r).cp0Reg .status = r.cp0Reg .status := by
  unfold Machine.skipIdle
  dsimp only
  split <;> rfl

/-- A jump that does not raise an exception by itself. -/
theorem usable_check {jump : Jump}
    (husable : ¬(jump.cop1 = true ∧ m.core.cp0Reg .status &&& statusCU1 = 0)) :
    (if jump.cop1 then m.core.checkCop1Unusable else none) = none := by
  split
  · next hcop1 => exact if_neg fun hclear => husable ⟨hcop1, hclear⟩
  · rfl

theorem declareJump_served {env : Env M} {jump : Jump} {m' : Machine M}
    (husable : ¬(jump.cop1 = true ∧ m.core.cp0Reg .status &&& statusCU1 = 0))
    (hjumped : m.jumped env jump = some m')
    (h : Machine.called? env.surroundings (syncLastAddr m'.core) = some (p, q)) :
    m.declareJump env jump = some { m' with core := q } := by
  rw [Machine.declareJump, usable_check husable, hjumped]
  show some (m'.onCore (R4300.serveInterrupt env.surroundings)) = _
  rw [Machine.onCore, serveInterrupt_served h]

/-- A store, whose access is all that it does to CP0. -/
theorem execPlain_accessed {env : Env M} {routine : Routine} {m' : Machine M}
    (h : m.accessed? env.other routine op = some m') :
    ∃ m'', m.execPlain env routine op = some m'' ∧ m''.core.cp0 = m'.core.cp0 := by
  cases routine with
  | sb | sh | sw | swl | swr | sd | sdl | sdr | swc1 | sdc1 =>
    obtain rfl := Option.some_inj.mp h
    exact ⟨_, rfl, rfl⟩
  | sc =>
    simp only [Machine.accessed?] at h
    split at h
    · next hlinked =>
      obtain rfl := Option.some_inj.mp h
      refine ⟨_, rfl, ?_⟩
      rw [Machine.sc, if_pos hlinked]
      split
      · next hwrite => rw [hwrite]
      · next hwrite =>
        rw [hwrite]
        rfl
    · cases h
  | _ => cases h

theorem mtc0_served {env : Surroundings} {rt : Fin 32} {rfs : Cp0Reg} {r : R4300}
    (h : (match rfs with
      | .count => Machine.called? env (cp0UpdateCount (r.latched rt)).unsafeState
      | .status => Machine.called? env
          (mtc0StatusWritten env.rcpInterrupt (r.latched rt) rt).unsafeState
      | _ => none) = some (p, q)) : SameCp0 q (mtc0 env r rfs rt) := by
  intro reg hreg
  cases rfs with
  | count =>
    have hcase : mtc0 env r .count rt = (mtc0Count env (r.latched rt) rt).addToPc := rfl
    have hkept (s : R4300) : s.addToPc.cp0Reg reg = s.cp0Reg reg := rfl
    rw [hcase, hkept, mtc0Count, R4300.cp0Reg, translateEventQueue_regs, Function.update_of_ne hreg,
      serveDue_served h, ← R4300.cp0Reg]
  | status =>
    have hcase : mtc0 env r .status rt = mtc0Status env (r.latched rt) rt := rfl
    rw [hcase, mtc0Status, R4300.cp0Reg, serveDue_served h, ← R4300.cp0Reg]
  | _ => cases h

/-- **A handler ends with the registers that it got back.** -/
theorem execHandler_served (env : Env M) (handler : Handler)
    (h : m.served? env handler op = some (p, q)) :
    ∃ m', m.execHandler env handler op = some m' ∧ SameCp0 q m'.core := by
  unfold Machine.served? at h
  cases hjump : m.core.jumpOf? handler.routine op with
  | some jump =>
    rw [hjump] at h
    dsimp only at h
    split at h
    · cases h
    next husable =>
    obtain ⟨m', hjumped, hcall⟩ := Option.bind_eq_some_iff.mp h
    refine ⟨{ m' with core := q }, ?_, fun _ _ => rfl⟩
    unfold Machine.execHandler Machine.exec
    rw [hjump]
    by_cases hidle : handler.variant = .idle
    · -- the check of the jump itself stands behind that of the idle loop
      rw [hidle]
      have hcheck : (if jump.cop1 then m.core.checkCop1Unusable else none) = none :=
        usable_check husable
      show m.declareJumpIdle env jump = _
      rw [Machine.declareJumpIdle, hcheck]
      by_cases hcondition : jump.condition = true
      · rw [if_pos ⟨hidle, hcondition⟩] at hjumped
        dsimp only
        rw [if_pos hcondition]
        refine declareJump_served ?_ hjumped hcall
        rwa [show (m.onCore Machine.skipIdle).core.cp0Reg .status = m.core.cp0Reg .status from
          skipIdle_status m.core]
      · rw [if_neg fun hboth => hcondition hboth.2] at hjumped
        dsimp only
        rw [if_neg hcondition]
        exact declareJump_served husable hjumped hcall
    · rw [if_neg fun hboth => hidle hboth.1] at hjumped
      have hexec := declareJump_served husable hjumped hcall
      cases hvariant : handler.variant with
      | idle => exact absurd hvariant hidle
      | _ => exact hexec
  | none =>
    rw [hjump] at h
    have hplain : m.execHandler env handler op = m.execPlain env handler.routine op := by
      unfold Machine.execHandler Machine.exec
      rw [hjump]
      cases handler.variant <;> rfl
    rw [hplain]
    have hstored : (m.accessed? env.other handler.routine op).map
        (fun m' => (m.core.addToPc, m'.core)) = some (p, q) →
        ∃ m', m.execPlain env handler.routine op = some m' ∧ SameCp0 q m'.core := by
      intro haccess
      obtain ⟨m', hm', hpair⟩ := Option.map_eq_some_iff.mp haccess
      obtain ⟨m'', hrun, hcp0⟩ := execPlain_accessed hm'
      refine ⟨m'', hrun, fun reg _ => ?_⟩
      rw [R4300.cp0Reg, hcp0, (Prod.mk.inj hpair).2.symm, R4300.cp0Reg]
    generalize handler.routine = routine at h hstored
    cases routine with
    | mtc0 => exact ⟨_, rfl, mtc0_served h⟩
    | eret =>
      refine ⟨_, rfl, fun reg _ => ?_⟩
      show (R4300.eret env.surroundings m.core).cp0Reg reg = _
      rw [R4300.eret, serveInterrupt_served h]
    | _ => exact hstored h

end

end Mupen64plus
