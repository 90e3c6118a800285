import Mupen64plus.R4300.PureInterp
import Mupen64plus.R4300.Idec
import Mupen64plus.Lib.Flags
import Mathlib.Tactic.Ring
import Mathlib.Tactic.Tauto

/-!
# The subtypes of a jump

`r4300_decode` gives a jump of the cached interpreter one of three functions: the regular one, which
goes on in the array of the block, the idle one for a jump to itself in front of a `NOP`, and `OUT`
for a target outside of the block. It infers the subtype from a target of its own, for `J` and `JAL`
in the segment of the jump and not of its delay slot.

## Main results

- `jump_cases` — the jumps, by how their subtype is inferred
- `JumpSlot.lands_iff` — a jump that is not `OUT` comes to the slot of its target, unless the target
  is in the next segment
- `JumpSlot.idle_destination` — an idle loop jumps to itself
-/

namespace Mupen64plus

/-- The number of slots that `get_block_memsize` makes room for. -/
def blockSlots : ℕ := 1281

/-- The address of the slot `block + ((jump_target - start) >> 2)`. -/
def landingOf (start target : BitVec 32) : BitVec 32 := start + ((target - start) >>> 2) <<< 2

/-- A jump inside the block comes to a slot of its array, the one of the target. -/
def Lands (start target : BitVec 32) : Prop :=
  ((target - start) >>> 2).toNat < blockSlots ∧ landingOf start target = target

/-- `J` or `JAL` in the last word of a segment of 256 MiB, to that word's place in its segment: the
    target is in the segment of the delay slot. -/
def LeavesSegment (o : R4300Op) (iw addr : BitVec 32) : Prop :=
  (o = .j ∨ o = .jal) ∧ addr &&& 0x0FFFFFFF = 0x0FFFFFFC ∧ jumpOf iw = 0x3FFFFFF

-- ════════════════════════════════════════════════════════════════════════
-- The target of the decoder
-- ════════════════════════════════════════════════════════════════════════

/-- The target `r4300_decode` infers the subtype of a branch from. -/
def decodedBranch (iw addr : BitVec 32) : BitVec 32 := addr + (imm16Of iw).signExtend 32 * 4 + 4

/-- The target `r4300_decode` infers the subtype of `J` and `JAL` from. -/
def decodedJump (o : R4300Op) (iw addr : BitVec 32) : BitVec 32 :=
  (addr &&& 0xF0000000) ||| ((idecImm iw o.idec).setWidth 32 &&& 0x0FFFFFFF)

theorem branchTarget_eq (iw : BitVec 32) (r : R4300) :
    r.branchTarget iw = decodedBranch iw r.pc := by
  unfold R4300.branchTarget decodedBranch
  ring

theorem jumpOf_lt (iw : BitVec 32) : (jumpOf iw).toNat < 2 ^ 26 := by
  have h : (iw &&& 0x3FFFFFF).toNat = iw.toNat % 2 ^ 26 := Flags.toNat_and_low 26 rfl
  rw [jumpOf, h]
  omega

/-- A word address in the segment of `a`. -/
theorem segment_or (a : BitVec 32) (n : ℕ) (h : n < 2 ^ 28) {w : BitVec 32} (hw : w.toNat = n) :
    ((a &&& 0xF0000000) ||| w).toNat = a.toNat / 2 ^ 28 * 2 ^ 28 + n := by
  have hseg : (a &&& 0xF0000000).toNat = 2 ^ 28 * (a.toNat / 2 ^ 28 % 2 ^ 4) := by
    rw [BitVec.toNat_and, ← Flags.and_field]
    rfl
  have hbound := a.isLt
  rw [BitVec.toNat_or, hseg, hw, ← Nat.two_pow_add_eq_or_of_lt h]
  omega

theorem jumpTarget_toNat (iw : BitVec 32) (r : R4300) :
    (r.jumpTarget iw).toNat =
      (r.pc.toNat + 4) % 2 ^ 32 / 2 ^ 28 * 2 ^ 28 + 4 * (jumpOf iw).toNat := by
  have hlt := jumpOf_lt iw
  have hshift : (jumpOf iw <<< 2).toNat = 4 * (jumpOf iw).toNat := by
    rw [BitVec.toNat_shiftLeft, Nat.shiftLeft_eq]
    omega
  have hnext : (r.pc + 4).toNat = (r.pc.toNat + 4) % 2 ^ 32 := BitVec.toNat_add _ _
  rw [R4300.jumpTarget, BitVec.or_comm, segment_or _ _ (by omega) hshift, hnext]

theorem decodedJump_toNat {o : R4300Op} (h : o = .j ∨ o = .jal) (iw addr : BitVec 32) :
    (decodedJump o iw addr).toNat =
      addr.toNat / 2 ^ 28 * 2 ^ 28 + 4 * (jumpOf iw).toNat := by
  have hidec : o.idec = idecTarget := by
    obtain rfl | rfl := h
    · rfl
    · rfl
  have himm : (idecImm iw idecTarget).toNat = 4 * (jumpOf iw).toNat := by
    have hlt := jumpOf_lt iw
    have hwide : idecImm iw idecTarget = (jumpOf iw).setWidth 64 <<< 2 := by
      show (((iw &&& 0x3FFFFFF) ^^^ 0#32).setWidth 64 - 0#64) <<< 2 = _
      rw [BitVec.xor_zero, BitVec.sub_zero]
      rfl
    rw [hwide, BitVec.toNat_shiftLeft, BitVec.toNat_setWidth, Nat.shiftLeft_eq]
    omega
  have hlt := jumpOf_lt iw
  have hlow : ((idecImm iw idecTarget).setWidth 32 &&& 0x0FFFFFFF).toNat =
      4 * (jumpOf iw).toNat := by
    rw [Flags.toNat_and_low 28 rfl, BitVec.toNat_setWidth, himm]
    omega
  rw [decodedJump, hidec, segment_or _ _ (by omega) hlow]

-- ════════════════════════════════════════════════════════════════════════
-- Where a jump lands
-- ════════════════════════════════════════════════════════════════════════

theorem landingOf_eq {start target : BitVec 32} (h : (target - start).toNat % 4 = 0) :
    landingOf start target = target := by
  have hword : ((target - start) >>> 2) <<< 2 = target - start := by
    refine BitVec.eq_of_toNat_eq ?_
    rw [BitVec.toNat_shiftLeft, BitVec.toNat_ushiftRight, Nat.shiftLeft_eq,
      Nat.shiftRight_eq_div_pow]
    omega
  rw [landingOf, hword, BitVec.add_comm, BitVec.sub_add_cancel]

theorem lands_of_sub {start target : BitVec 32} (h : (target - start).toNat % 4 = 0)
    (hlt : (target - start).toNat < 4 * blockSlots) : Lands start target := by
  refine ⟨?_, landingOf_eq h⟩
  rw [BitVec.toNat_ushiftRight, Nat.shiftRight_eq_div_pow]
  omega

/-- A jump to itself lands. -/
theorem lands_self {start addr : BitVec 32} {s : ℕ} (hs : s < blockSlots)
    (haddr : addr = start + BitVec.ofNat 32 (4 * s)) : Lands start addr := by
  have hsub : (addr - start).toNat = 4 * s := by
    rw [haddr, BitVec.add_comm, BitVec.add_sub_cancel, BitVec.toNat_ofNat]
    unfold blockSlots at hs
    omega
  exact lands_of_sub (by omega) (by omega)

/-- A word of the page lands. -/
theorem lands_of_inside {start target : BitVec 32} (hstart : start.toNat % 4096 = 0)
    (hword : target.toNat % 4 = 0) (hge : ¬target < start) (hlt : ¬target ≥ start + 0x1000) :
    Lands start target := by
  rw [BitVec.lt_def] at hge
  rw [ge_iff_le, BitVec.le_def] at hlt
  have hstop : (start + 0x1000).toNat = (start.toNat + 0x1000) % 2 ^ 32 := BitVec.toNat_add _ _
  have hsub : (target - start).toNat = target.toNat - start.toNat := by
    rw [BitVec.toNat_sub]
    omega
  refine lands_of_sub (by omega) ?_
  unfold blockSlots
  omega

theorem inferJumpSubType_ne_out {target pc nextIw start stop : BitVec 32}
    (h : inferJumpSubType target pc nextIw start stop ≠ .out) :
    target = pc ∨ (¬target < start ∧ ¬target ≥ stop ∧ pc ≠ stop - 4) := by
  unfold inferJumpSubType at h
  by_cases heq : target = pc
  · exact .inl heq
  · rw [if_neg heq] at h
    refine .inr ?_
    by_contra hout
    rw [if_pos (by tauto)] at h
    exact h rfl

theorem inferJumpSubType_idle {target pc nextIw start stop : BitVec 32}
    (h : inferJumpSubType target pc nextIw start stop = .idle) : target = pc ∧ nextIw = 0 := by
  unfold inferJumpSubType at h
  by_cases heq : target = pc
  · rw [if_pos heq] at h
    by_cases hnext : nextIw = 0
    · exact ⟨heq, hnext⟩
    · rw [if_neg hnext] at h
      cases h
  · rw [if_neg heq] at h
    split at h <;> cases h

/-- The jumps, by how the decoder infers their subtype. -/
theorem jump_cases {o : R4300Op} {iw : BitVec 32} {r : R4300} {jump : Jump}
    (h : r.jumpOf? o.ciRoutine iw = some jump) :
    ((o = .j ∨ o = .jal) ∧ jump.destination = r.jumpTarget iw) ∨
      (o.decodeCase = .branch ∧ jump.destination = r.branchTarget iw) ∨ o = .jr ∨ o = .jalr := by
  cases o with
  | j => exact .inl ⟨.inl rfl, congrArg Jump.destination (Option.some.inj h).symm⟩
  | jal => exact .inl ⟨.inr rfl, congrArg Jump.destination (Option.some.inj h).symm⟩
  | jr => exact .inr (.inr (.inl rfl))
  | jalr => exact .inr (.inr (.inr rfl))
  | bc1f | bc1fl | bc1t | bc1tl | beq | beql | bgez | bgezal | bgezall | bgezl | bgtz | bgtzl
  | blez | blezl | bltz | bltzal | bltzall | bltzl | bne | bnel =>
    exact .inr (.inl ⟨rfl, congrArg Jump.destination (Option.some.inj h).symm⟩)
  | _ => exact nomatch h

theorem decode_jump {o : R4300Op} (h : o = .j ∨ o = .jal)
    (iw nextIw addr start stop : BitVec 32) (stale : InstrF) :
    (r4300Decode o iw nextIw addr start stop stale).variant =
      inferJumpSubType (decodedJump o iw addr) addr nextIw start stop := by
  obtain rfl | rfl := h
  · rfl
  · rfl

theorem decode_branch {o : R4300Op} (h : o.decodeCase = .branch)
    (iw nextIw addr start stop : BitVec 32) (stale : InstrF) :
    (r4300Decode o iw nextIw addr start stop stale).variant =
      inferJumpSubType (decodedBranch iw addr) addr nextIw start stop := by
  simp only [r4300Decode, h]
  rfl

theorem decode_jr {o : R4300Op} (h : o = .jr ∨ o = .jalr)
    (iw nextIw addr start stop : BitVec 32) (stale : InstrF) :
    (r4300Decode o iw nextIw addr start stop stale).variant = .out := by
  obtain rfl | rfl := h
  · rfl
  · rfl

/-- A slot of a block: its instruction, the word behind it, and where it is. -/
structure JumpSlot where
  iw : BitVec 32
  nextIw : BitVec 32
  start : BitVec 32
  slot : ℕ
  stale : InstrF
  start_aligned : start.toNat % 4096 = 0
  slot_lt : slot < blockSlots

namespace JumpSlot

variable (j : JumpSlot)

def opcode : R4300Op := r4300GetIdec j.iw

def addr : BitVec 32 := j.start + BitVec.ofNat 32 (4 * j.slot)

/-- What `r4300_decode` makes of the slot. -/
def decoded : Decoded :=
  r4300Decode j.opcode j.iw j.nextIw j.addr j.start (j.start + 0x1000) j.stale

variable {j}

theorem addr_aligned : j.addr.toNat % 4 = 0 := by
  have hstart := j.start_aligned
  rw [addr, BitVec.toNat_add, BitVec.toNat_ofNat]
  omega

/-- The last word of a segment is the last word of its page. -/
theorem addr_eq_last (h : j.addr &&& 0x0FFFFFFF = 0x0FFFFFFC) :
    j.addr = j.start + 0x1000 - 4 := by
  have hlow : j.addr.toNat % 2 ^ 28 = 0x0FFFFFFC := by
    rw [← Flags.toNat_and_low (m := 0x0FFFFFFF) 28 rfl, h]
    rfl
  have hstart := j.start_aligned
  have hslot := j.slot_lt
  unfold blockSlots at hslot
  have hlast : j.slot = 1023 := by
    rw [addr, BitVec.toNat_add, BitVec.toNat_ofNat] at hlow
    omega
  rw [addr, hlast]
  bv_omega

/-- A target that is not outside of the block, and where it lands. -/
theorem lands_of_infer {target : BitVec 32} (hword : target.toNat % 4 = 0)
    (h : inferJumpSubType target j.addr j.nextIw j.start (j.start + 0x1000) ≠ .out) :
    Lands j.start target := by
  obtain hself | ⟨hge, hlt, -⟩ := inferJumpSubType_ne_out h
  · rw [hself]
    exact lands_self j.slot_lt rfl
  · exact lands_of_inside j.start_aligned hword hge hlt

theorem addr_segment :
    j.addr &&& 0x0FFFFFFF = 0x0FFFFFFC ↔ j.addr.toNat % 2 ^ 28 = 0x0FFFFFFC := by
  rw [← Flags.toNat_and_low (m := 0x0FFFFFFF) 28 rfl, ← BitVec.toNat_inj]
  rfl

/-- Away from the end of a segment the target is the one of the decoder. -/
theorem jumpTarget_eq {r : R4300} (hpc : r.pc = j.addr) (ho : j.opcode = .j ∨ j.opcode = .jal)
    (hend : ¬j.addr &&& 0x0FFFFFFF = 0x0FFFFFFC) :
    r.jumpTarget j.iw = decodedJump j.opcode j.iw j.addr := by
  have haligned := j.addr_aligned
  have hbound := j.addr.isLt
  rw [addr_segment] at hend
  refine BitVec.eq_of_toNat_eq ?_
  rw [jumpTarget_toNat, decodedJump_toNat ho, hpc]
  omega

/-- A jump that is not `OUT` comes to its target's slot, unless it leaves its segment. -/
theorem lands_iff {r : R4300} (hpc : r.pc = j.addr) {jump : Jump}
    (hjump : r.jumpOf? j.opcode.ciRoutine j.iw = some jump) (hin : j.decoded.variant ≠ .out) :
    Lands j.start jump.destination ↔ ¬LeavesSegment j.opcode j.iw j.addr := by
  obtain ⟨ho, hdest⟩ | ⟨ho, hdest⟩ | ho | ho := jump_cases hjump
  · rw [decoded, decode_jump ho] at hin
    by_cases hend : j.addr &&& 0x0FFFFFFF = 0x0FFFFFFC
    · have hlast := addr_eq_last hend
      rw [addr_segment] at hend
      obtain hself | ⟨-, -, hpcNe⟩ := inferJumpSubType_ne_out hin
      · -- The jump names its own place, in the next segment.
        have hindex : (jumpOf j.iw).toNat = 0x3FFFFFF := by
          have htarget := decodedJump_toNat ho j.iw j.addr
          rw [hself] at htarget
          omega
        have hleaves : LeavesSegment j.opcode j.iw j.addr :=
          ⟨ho, addr_segment.2 hend, BitVec.eq_of_toNat_eq hindex⟩
        refine iff_of_false ?_ (not_not_intro hleaves)
        rintro ⟨hlt, -⟩
        have hbound := j.addr.isLt
        have htarget := jumpTarget_toNat j.iw r
        have hstart : j.start = j.addr - 0xffc := by
          rw [hlast]
          bv_omega
        rw [hpc, hindex] at htarget
        rw [hdest, hstart, BitVec.toNat_ushiftRight, Nat.shiftRight_eq_div_pow, BitVec.toNat_sub,
          BitVec.toNat_sub, htarget] at hlt
        have hffc : (0xffc : BitVec 32).toNat = 0xffc := rfl
        rw [hffc] at hlt
        unfold blockSlots at hlt
        omega
      · exact absurd hlast hpcNe
    · have hstays : ¬LeavesSegment j.opcode j.iw j.addr := fun h => hend h.2.1
      have hword : (decodedJump j.opcode j.iw j.addr).toNat % 4 = 0 := by
        rw [decodedJump_toNat ho]
        omega
      rw [hdest, jumpTarget_eq hpc ho hend]
      exact iff_of_true (lands_of_infer hword hin) hstays
  · rw [decoded, decode_branch ho] at hin
    have hstays : ¬LeavesSegment j.opcode j.iw j.addr := by
      rintro ⟨hj | hj, -⟩
      · rw [hj] at ho
        cases ho
      · rw [hj] at ho
        cases ho
    have hword : (decodedBranch j.iw j.addr).toNat % 4 = 0 := by
      have haligned := j.addr_aligned
      have hfour : (4 : BitVec 32).toNat = 4 := rfl
      rw [decodedBranch, BitVec.toNat_add, BitVec.toNat_add, BitVec.toNat_mul, hfour]
      omega
    rw [hdest, branchTarget_eq, hpc]
    exact iff_of_true (lands_of_infer hword hin) hstays
  · exact absurd (decode_jr (.inl ho) _ _ _ _ _ _) hin
  · exact absurd (decode_jr (.inr ho) _ _ _ _ _ _) hin

/-- An idle loop jumps to itself. -/
theorem idle_destination {r : R4300} (hpc : r.pc = j.addr) {jump : Jump}
    (hjump : r.jumpOf? j.opcode.ciRoutine j.iw = some jump) (hidle : j.decoded.variant = .idle)
    (hstays : ¬LeavesSegment j.opcode j.iw j.addr) : jump.destination = j.addr := by
  obtain ⟨ho, hdest⟩ | ⟨ho, hdest⟩ | ho | ho := jump_cases hjump
  · rw [decoded, decode_jump ho] at hidle
    have hself := (inferJumpSubType_idle hidle).1
    by_cases hend : j.addr &&& 0x0FFFFFFF = 0x0FFFFFFC
    · have hindex : jumpOf j.iw = 0x3FFFFFF := by
        have htarget := decodedJump_toNat ho j.iw j.addr
        have hlow := addr_segment.1 hend
        rw [hself] at htarget
        refine BitVec.eq_of_toNat_eq ?_
        show _ = 0x3FFFFFF
        omega
      exact absurd ⟨ho, hend, hindex⟩ hstays
    · rw [hdest, jumpTarget_eq hpc ho hend, hself]
  · rw [decoded, decode_branch ho] at hidle
    rw [hdest, branchTarget_eq, hpc]
    exact (inferJumpSubType_idle hidle).1
  · rw [decoded, decode_jr (.inl ho)] at hidle
    cases hidle
  · rw [decoded, decode_jr (.inr ho)] at hidle
    cases hidle

end JumpSlot

end Mupen64plus
