import Mupen64plus.R4300.TlbWrite
import Mupen64plus.R4300.Core

/-!
# The instructions on coprocessor 0

The TLB instructions and the moves from and to the CP0 registers, as `mips_instructions.def` has
them. A body ends by `ADD_TO_PC(1)`; the operand macro `rrt32` is an lvalue, the low word of a
general register.

## Main definitions

- `Surroundings` — what the bodies reach outside of the core: `gen_interrupt` and the MI
- `tlbp`, `tlbr`, `tlbwi`, `tlbwr` — the TLB instructions
- `mfc0`, `dmfc0`, `mtc0` — the moves
-/

namespace Mupen64plus

namespace R4300

/-- `rrt = v`. -/
def setGpr (r : R4300) (i : Fin 32) (v : BitVec 64) : R4300 :=
  { r with regs := Function.update r.regs i v }

/-- The operand macros `rrt32`, `rrs32`, `irs32`: the low word of a register. -/
def gpr32 (r : R4300) (i : Fin 32) : BitVec 32 := (r.regs i).setWidth 32

/-- `rrt32 = v`: the upper word of the register stays. -/
def setGpr32 (r : R4300) (i : Fin 32) (v : BitVec 32) : R4300 :=
  r.setGpr i (((r.regs i) &&& 0xFFFFFFFF00000000) ||| v.setWidth 64)

/-- `ADD_TO_PC(1)`. -/
def addToPc (r : R4300) : R4300 := { r with pc := r.pc + 4 }

end R4300

/-- `SE32`. -/
def se32 (v : BitVec 32) : BitVec 64 := v.signExtend 64

/-- What the bodies call or read outside of the core. -/
structure Surroundings where
  genInterrupt : R4300 → R4300
  /-- `mi->regs[MI_INTR_REG] & mi->regs[MI_INTR_MASK_REG]` is not zero. -/
  rcpInterrupt : Bool

-- ════════════════════════════════════════════════════════════════════════
-- TLB instructions
-- ════════════════════════════════════════════════════════════════════════

/-- The test of `TLBP` on one entry. -/
def TlbEntry.matchesHi (e : TlbEntry) (entryHi : BitVec 32) : Bool :=
  let mask := ~~~(e.mask.signExtend 32)
  (e.vpn2 &&& mask == ((entryHi &&& 0xFFFFE000) >>> 13) &&& mask) &&
    (e.g != 0 || e.asid.setWidth 32 == entryHi &&& 0xFF)

/-- The first entry that `TLBP` finds. -/
def probe (entries : Fin 32 → TlbEntry) (entryHi : BitVec 32) : Option (Fin 32) :=
  (List.finRange 32).find? fun i => (entries i).matchesHi entryHi

def tlbp (r : R4300) : R4300 :=
  let r := r.setCp0 .index (r.cp0Reg .index ||| 0x80000000)
  let r := match probe r.cp0.tlb.entries (r.cp0Reg .entryHi) with
    | some i => r.setCp0 .index (BitVec.ofNat 32 i.val)
    | none => r
  r.addToPc

/-- The EntryLo register of one half, as `TLBR` puts it together. -/
def TlbHalf.entryLo (h : TlbHalf) (g : BitVec 8) : BitVec 32 :=
  (h.pfn <<< 6) ||| (h.c.signExtend 32 <<< 3) ||| (h.d.signExtend 32 <<< 2) |||
    (h.v.signExtend 32 <<< 1) ||| g.signExtend 32

def tlbr (r : R4300) : R4300 :=
  let index : Fin 32 := ⟨(r.cp0Reg .index &&& 0x1F).toNat,
    Nat.lt_succ_of_le (by rw [BitVec.toNat_and]; exact Nat.and_le_right)⟩
  let e := r.cp0.tlb.entries index
  let r := r.setCp0 .pageMask (e.mask.signExtend 32 <<< 13)
  let r := r.setCp0 .entryHi ((e.vpn2 <<< 13) ||| e.asid.setWidth 32)
  let r := r.setCp0 .entryLo0 (e.even.entryLo e.g)
  let r := r.setCp0 .entryLo1 (e.odd.entryLo e.g)
  r.addToPc

/-- `TLBWrite` and the end of the instruction. `none` is a call that reaches beyond the entries,
    or one whose page loops do not end. -/
def tlbWriteAt (r : R4300) (idx : BitVec 32) : Option R4300 :=
  if h : idx.toNat < 32 then
    (tlbWrite r.cp0.tlb { pc := r.pc, regs := r.cp0.regs, idx := ⟨idx.toNat, h⟩ }).map fun t =>
      { r with cp0 := { r.cp0 with tlb := t } }.addToPc
  else none

/-- The value of Random from COUNT and Wired; a modulus of zero ends the program. -/
def randomValue (c : Cp0) : Option (BitVec 32) :=
  let modulus := 32 - c.regs .wired
  if modulus = 0 then none else some (c.count / c.countPerOp % modulus + c.regs .wired)

/-- COUNT and Random brought up to date. -/
def updateRandom (r : R4300) : Option R4300 :=
  let r := cp0UpdateCount r
  (randomValue r.cp0).map (r.setCp0 .random)

def tlbwr (r : R4300) : Option R4300 :=
  (updateRandom r).bind fun r => tlbWriteAt r (r.cp0Reg .random)

def tlbwi (r : R4300) : Option R4300 := tlbWriteAt r (r.cp0Reg .index &&& 0x3F)

-- ════════════════════════════════════════════════════════════════════════
-- Moves from CP0
-- ════════════════════════════════════════════════════════════════════════

/-- The registers that read the latch of the last value written. -/
def Cp0Reg.isLatched : Cp0Reg → Bool
  | .unused7 | .unused21 | .unused22 | .unused23 | .unused24 | .unused25 | .unused31 => true
  | _ => false

/-- The value that `MFC0` reads, after Random or COUNT is brought up to date. -/
def mfc0Value (r : R4300) (rfs : Cp0Reg) : BitVec 64 :=
  if rfs.isLatched then r.cp0.latch else se32 (r.cp0Reg rfs)

/-- `DMFC0` extends every register but EPC with zeros. -/
def dmfc0Value (r : R4300) (rfs : Cp0Reg) : BitVec 64 :=
  if rfs = .epc then se32 (r.cp0Reg rfs)
  else if rfs.isLatched then r.cp0.latch
  else (r.cp0Reg rfs).setWidth 64

/-- The part of the two moves that brings the register up to date. -/
def refreshRegister (r : R4300) (rfs : Cp0Reg) : Option R4300 :=
  match rfs with
  | .random => updateRandom r
  | .count => some (cp0UpdateCount r)
  | _ => some r

def mfc0 (r : R4300) (rfs : Cp0Reg) (rt : Fin 32) : Option R4300 :=
  (refreshRegister r rfs).map fun r => (r.setGpr rt (mfc0Value r rfs)).addToPc

def dmfc0 (r : R4300) (rfs : Cp0Reg) (rt : Fin 32) : Option R4300 :=
  (refreshRegister r rfs).map fun r => (r.setGpr rt (dmfc0Value r rfs)).addToPc

-- ════════════════════════════════════════════════════════════════════════
-- Moves to CP0
-- ════════════════════════════════════════════════════════════════════════

def statusFR : BitVec 32 := 0x04000000
def intrUnsafeR4300 : BitVec 32 := 0x01

/-- `set_fpr_pointers`. -/
def setFprPointers (c : Cp1) (newStatus : BitVec 32) : Cp1 :=
  { c with fr := newStatus &&& statusFR != 0 }

/-- `if (*cp0_cycle_count >= 0) { gen_interrupt(r4300); }` between the two updates of
    `interrupt_unsafe_state`. -/
def serveDue (env : Surroundings) (r : R4300) : R4300 :=
  let setUnsafe (r : R4300) (v : BitVec 32) : R4300 :=
    { r with cp0 := { r.cp0 with interruptUnsafeState := v } }
  let r := setUnsafe r (r.cp0.interruptUnsafeState ||| intrUnsafeR4300)
  let r := if 0 ≤ r.cp0.cycleCount.toInt then env.genInterrupt r else r
  setUnsafe r (r.cp0.interruptUnsafeState &&& ~~~intrUnsafeR4300)

/-- The case of Compare. -/
def mtc0Compare (r : R4300) (v : BitVec 32) : R4300 :=
  let r := cp0UpdateCount r
  let c := { r.cp0 with q := removeEvent r.cp0.q .compare }
  let r := { r with cp0 := armCompare c v }
  let r := r.setCp0 .compare v
  r.setCp0 .cause (r.cp0Reg .cause &&& ~~~causeIP7)

/-- The case of Count. -/
def mtc0Count (env : Surroundings) (r : R4300) (rt : Fin 32) : R4300 :=
  let r := serveDue env (cp0UpdateCount r)
  { r with cp0 := translateEventQueue r.cp0 (r.gpr32 rt) }

/-- The case of Status up to its interrupts; it masks its operand in place. -/
def mtc0StatusWritten (rcpInterrupt : Bool) (r : R4300) (rt : Fin 32) : R4300 :=
  let r := r.setGpr32 rt (r.gpr32 rt &&& ~~~0x080000)
  let v := r.gpr32 rt
  let r :=
    if v &&& statusFR ≠ r.cp0Reg .status &&& statusFR then
      { r with cp1 := setFprPointers r.cp1 v }
    else r
  let r := cp0UpdateCount (r.setCp0 .status v).addToPc
  { r with cp0 := r4300CheckInterrupt r.cp0 causeIP2 rcpInterrupt }

/-- The case of Status, which returns by itself. -/
def mtc0Status (env : Surroundings) (r : R4300) (rt : Fin 32) : R4300 :=
  serveDue env (mtc0StatusWritten env.rcpInterrupt r rt)

/-- The registers that `MTC0` writes by a mask, or not at all: the new value from the old one and
    the operand. -/
def mtc0Masked (rfs : Cp0Reg) (old v : BitVec 32) : BitVec 32 :=
  match rfs with
  | .index => v &&& 0x8000003F
  | .entryLo0 | .entryLo1 => v &&& 0x3FFFFFFF
  | .context => (v &&& 0xFF800000) ||| (old &&& 0x007FFFF0)
  | .pageMask => v &&& 0x01FFE000
  | .wired => v &&& 0x3F
  | .entryHi => v &&& 0xFFFFE0FF
  | .cause => (old &&& ~~~0x300) ||| (v &&& 0x300)
  | .config => (v &&& 0xF) ||| (old &&& 0x8000) ||| (old &&& 0x7FFFFFFF)
  | .epc | .llAddr | .watchLo | .watchHi | .errorEpc => v
  | .parityErr => v &&& 0xFF
  | .tagLo => v &&& 0x0FFFFFC0
  | .tagHi => 0
  | _ => old

/-- The cases of `MTC0` that only write registers, and the stop flag. -/
def mtc0Plain (r : R4300) (rfs : Cp0Reg) (v : BitVec 32) : R4300 :=
  let r := r.setCp0 rfs (mtc0Masked rfs (r.cp0Reg rfs) v)
  match rfs with
  | .index => if 31 < r.cp0Reg .index &&& 0x3F then { r with stop := true } else r
  | .wired => r.setCp0 .random 31
  | _ => r

/-- `MTC0`; the decoders use it for `DMTC0` as well. -/
def mtc0 (env : Surroundings) (r : R4300) (rfs : Cp0Reg) (rt : Fin 32) : R4300 :=
  let r := { r with cp0 := { r.cp0 with latch := se32 (r.gpr32 rt) } }
  match rfs with
  | .count => (mtc0Count env r rt).addToPc
  | .compare => (mtc0Compare r (r.gpr32 rt)).addToPc
  | .status => mtc0Status env r rt
  | _ => (mtc0Plain r rfs (r.gpr32 rt)).addToPc

-- ════════════════════════════════════════════════════════════════════════
-- The registers behind the queue operations
-- ════════════════════════════════════════════════════════════════════════

theorem translateEventQueue_regs (c : Cp0) (base : BitVec 32) :
    (translateEventQueue c base).regs = Function.update c.regs .count base := by
  rw [translateEventQueue]
  simp only [armCompare_regs, addInterruptEventCount_regs, Cp0.set_regs]

/-- An insertion sets the next interrupt and the cycle count from the head. -/
theorem addInterruptEventCount_next {c : Cp0} {type : IntType} {count : BitVec 32}
    (hroom : c.q.events.length < poolCapacity) {e : InterruptEvent}
    (he : (addInterruptEventCount c type count).q.events.head? = some e) :
    (addInterruptEventCount c type count).nextInterrupt = e.count ∧
      (addInterruptEventCount c type count).cycleCount = c.count - e.count := by
  have hrefresh (d : Cp0) (hd : d.q.events.head? = some e) :
      d.refresh.nextInterrupt = e.count ∧ d.refresh.cycleCount = d.count - e.count := by
    unfold Cp0.refresh
    cases hevents : d.q.events with
    | nil =>
      rw [hevents] at hd
      cases hd
    | cons e' l =>
      rw [hevents] at hd
      cases hd
      exact ⟨rfl, rfl⟩
  unfold addInterruptEventCount at he ⊢
  rw [dif_pos hroom] at he ⊢
  rw [refresh_q] at he
  exact hrefresh _ he

/-- The insertion of COMPARE_INT leaves the next interrupt and the cycle count of the head, as
    COUNT has them without the step. -/
theorem armCompare_next {c : Cp0} {v : BitVec 32} (hroom : c.q.events.length < poolCapacity)
    {e : InterruptEvent} (he : (armCompare c v).q.events.head? = some e) :
    (armCompare c v).nextInterrupt = e.count ∧ (armCompare c v).cycleCount = c.count - e.count := by
  have hcount : (armCompare c v).count = c.count := congrFun (armCompare_regs c v) .count
  have hevents : (armCompare c v).q.events =
      (addInterruptEventCount (c.advance c.countPerOp) .compare v).q.events := by
    unfold armCompare
    dsimp only
    split <;> rfl
  rw [hevents] at he
  have hroom' : (c.advance c.countPerOp).q.events.length < poolCapacity := hroom
  have hnext := (addInterruptEventCount_next hroom' he).1
  rw [← hcount]
  unfold armCompare
  dsimp only
  split
  · next hnil =>
    rw [Cp0.set_q] at hnil
    rw [hnil] at he
    cases he
  · next e' l hcons =>
    rw [Cp0.set_q] at hcons
    rw [hcons] at he
    cases he
    exact ⟨hnext, rfl⟩

end Mupen64plus
