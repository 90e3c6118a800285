import Mupen64plus.R4300.EventQueue

/-!
# The R4300 core

`struct r4300_core` with the parts of `r4300_core.c`, `cp0.c`, `cached_interp.c` and
`interrupt.c` that move the program counter: jumps, exceptions and the check for interrupts.

## Main definitions

- `CachedInterp` — the block cache: `invalid_code` and `blocks`, one entry per 4 KiB page
- `R4300` — the core; `EmuMode` leaves out the dynamic recompilers
- `genericJumpTo`, `cp0UpdateCount`, `exceptionGeneral`, `tlbRefillException`
- `r4300CheckInterrupt`, `raiseMaskableInterrupt`, `compareIntHandler`

A compiled instruction of a block is kept as the word it was decoded from: its routine and its
operands are functions of that word.
-/

namespace Mupen64plus

-- ════════════════════════════════════════════════════════════════════════
-- The block cache
-- ════════════════════════════════════════════════════════════════════════

/-- The `ops` of a `struct precomp_instr`. -/
inductive Slot where
  | notCompiled
  | notCompiled2
  | finBlock
  | compiled (iw : BitVec 32)
  deriving DecidableEq, Repr

/-- `struct precomp_block`. It starts at its page and is 0x1000 bytes long; the slots behind its
    1024 words are those a jump at the end of the page spills into. -/
structure Block where
  slots : ℕ → Slot

/-- A block whose every slot is to be compiled. -/
def freshBlock : Block := ⟨fun _ => .notCompiled⟩

structure CachedInterp where
  invalidCode : Page → Bool
  blocks : Page → Option Block

/-- The address of the same RDRAM byte in the other unmapped segment. -/
def altAddress (address : BitVec 32) : BitVec 32 := address ^^^ 0x20000000

namespace CachedInterp

def setInvalid (ci : CachedInterp) (p : Page) (b : Bool) : CachedInterp :=
  { ci with invalidCode := Function.update ci.invalidCode p b }

/-- The part of `cached_interp_init_block` on the block of one page. -/
def initPage (ci : CachedInterp) (p : Page) : CachedInterp :=
  { invalidCode := Function.update ci.invalidCode p false
    blocks := Function.update ci.blocks p (some freshBlock) }

/-- `cached_interp_init_block` at an address of an unmapped segment. The call for the other
    segment finds this page valid and goes no further. -/
def initBlock (ci : CachedInterp) (address : BitVec 32) : CachedInterp :=
  let ci := ci.initPage (pageOf address)
  if ci.invalidCode (pageOf (altAddress address)) then ci.initPage (pageOf (altAddress address))
  else ci

/-- `cached_interp_init_block` at a TLB-mapped address, `paddr` being where its page starts. -/
def initBlockMapped (ci : CachedInterp) (address paddr : BitVec 32) : CachedInterp :=
  let ci := ci.initPage (pageOf address)
  let ci := (ci.setInvalid (pageOf paddr) false).initBlock paddr
  let paddr := paddr + 0xffc
  (ci.setInvalid (pageOf paddr) false).initBlock paddr

/-- The unmapped branch of `update_invalid_addr`: the two segments agree on what is invalid. -/
def updateInvalidUnmapped (ci : CachedInterp) (addr : BitVec 32) : CachedInterp :=
  let p := pageOf addr
  let p' := pageOf (altAddress addr)
  let ci := if ci.invalidCode p then ci.setInvalid p' true else ci
  if ci.invalidCode p' then ci.setInvalid p true else ci

/-- The mapped branch of `update_invalid_addr`, `paddr` being the translated address. -/
def updateInvalidMapped (ci : CachedInterp) (addr paddr : BitVec 32) : CachedInterp :=
  let begPaddr := paddr - (addr - (addr &&& 0xfffff000))
  let p := pageOf addr
  let b := pageOf begPaddr
  let e := pageOf (begPaddr + 0xffc)
  let ci := ci.updateInvalidUnmapped paddr
  let ci := if ci.invalidCode b then ci.setInvalid p true else ci
  let ci := if ci.invalidCode e then ci.setInvalid p true else ci
  let ci := if ci.invalidCode p then ci.setInvalid b true else ci
  if ci.invalidCode p then ci.setInvalid e true else ci

end CachedInterp

-- ════════════════════════════════════════════════════════════════════════
-- The core
-- ════════════════════════════════════════════════════════════════════════

inductive EmuMode where
  | pureInterpreter
  | interpreter
  deriving DecidableEq, Repr

/-- `struct cp1`; `fr` tells which layout `set_fpr_pointers` gave the register pointers. -/
structure Cp1 where
  regs : Fin 32 → BitVec 64
  fcr0 : BitVec 32
  fcr31 : BitVec 32
  fr : Bool

/-- `struct r4300_core`. `pc` is the address of the current instruction, in either mode. -/
structure R4300 where
  regs : Fin 32 → BitVec 64
  hi : BitVec 64
  lo : BitVec 64
  llbit : BitVec 32
  pc : BitVec 32
  delaySlot : BitVec 32
  skipJump : BitVec 32
  stop : Bool
  resetHardJob : Bool
  cachedInterp : CachedInterp
  emumode : EmuMode
  cp0 : Cp0
  cp1 : Cp1
  cp2Latch : BitVec 64
  ignoreTlbExceptions : BitVec 32
  startAddress : BitVec 32

namespace R4300

abbrev cp0Reg (r : R4300) (reg : Cp0Reg) : BitVec 32 := r.cp0.regs reg

/-- `cp0_regs[reg] = v`. -/
def setCp0 (r : R4300) (reg : Cp0Reg) (v : BitVec 32) : R4300 := { r with cp0 := r.cp0.set reg v }

end R4300

def statusIE : BitVec 32 := 0x00000001
def statusEXL : BitVec 32 := 0x00000002
def statusERL : BitVec 32 := 0x00000004
def statusCU1 : BitVec 32 := 0x20000000
def statusCU2 : BitVec 32 := 0x40000000
def causeExcCodeMask : BitVec 32 := 0x1f <<< 2
def causeBD : BitVec 32 := 0x80000000
def causeIP2 : BitVec 32 := 0x00000400
def causeIP3 : BitVec 32 := 0x00000800
def causeIP4 : BitVec 32 := 0x00001000
def causeIP7 : BitVec 32 := 0x00008000
def causeCE1 : BitVec 32 := 0x10000000
def causeCE2 : BitVec 32 := 0x20000000

/-- `CP0_CAUSE_EXCCODE_*` from the code's number. -/
def excCode (n : BitVec 32) : BitVec 32 := n <<< 2

/-- The elapsed count of `cp0_update_count`. -/
def elapsedCount (r : R4300) : BitVec 32 :=
  let count := ((r.pc - r.cp0.lastAddr) >>> 2) * r.cp0.countPerOp
  if r.cp0.countPerOpDenomPot ≠ 0 then
    (count + ((1 <<< r.cp0.countPerOpDenomPot.toNat) - 1)) >>> r.cp0.countPerOpDenomPot.toNat
  else count

/-- `cp0_update_count` outside of the dynamic recompiler. -/
def cp0UpdateCount (r : R4300) : R4300 :=
  { r with cp0 := { r.cp0.advance (elapsedCount r) with lastAddr := r.pc } }

/-- `generic_jump_to` at an address of an unmapped segment, where no translation can fail. -/
def jumpUnmapped (r : R4300) (address : BitVec 32) : R4300 :=
  match r.emumode with
  | .pureInterpreter => { r with pc := address }
  | .interpreter =>
    if r.skipJump ≠ 0 then r
    else
      let ci := r.cachedInterp.updateInvalidUnmapped address
      let ci := if ci.invalidCode (pageOf address) then ci.initBlock address else ci
      { r with cachedInterp := ci, pc := address &&& 0xfffffffc }

/-- `exception_epilog`. -/
def exceptionEpilog (r : R4300) : R4300 :=
  if r.delaySlot ≠ 0 then
    { r with skipJump := r.pc, cp0 := { r.cp0 with nextInterrupt := 0, cycleCount := 0 } }
  else r

def R4300.inDelaySlot (r : R4300) : Bool := r.delaySlot == 1 || r.delaySlot == 3

/-- The end of an exception on EPC and the BD bit: in a delay slot EPC moves back to the branch. -/
def setBranchDelay (r : R4300) : R4300 :=
  if r.inDelaySlot then
    (r.setCp0 .cause (r.cp0Reg .cause ||| causeBD)).setCp0 .epc (r.cp0Reg .epc - 4)
  else r.setCp0 .cause (r.cp0Reg .cause &&& ~~~causeBD)

/-- `last_addr = PC`, where the count of elapsed instructions goes on from. -/
def syncLastAddr (r : R4300) : R4300 := { r with cp0 := { r.cp0 with lastAddr := r.pc } }

/-- `exception_general`. -/
def exceptionGeneral (r : R4300) : R4300 :=
  let r := cp0UpdateCount r
  let r := r.setCp0 .status (r.cp0Reg .status ||| statusEXL)
  let r := setBranchDelay (r.setCp0 .epc r.pc)
  exceptionEpilog (syncLastAddr (jumpUnmapped r 0x80000180))

/-- Whether the address lies in the range of some entry, valid or not. -/
def Tlb.covers (t : Tlb) (address : BitVec 32) : Bool :=
  decide (∃ i, ((t.entries i).even.start ≤ address ∧ address ≤ (t.entries i).even.stop) ∨
    ((t.entries i).odd.start ≤ address ∧ address ≤ (t.entries i).odd.stop))

/-- The registers `TLB_refill_exception` fills in before it looks at Status. -/
def refillRegs (r : R4300) (address : BitVec 32) (w : Access) : R4300 :=
  let r := r.setCp0 .cause (if w = .write then excCode 3 else excCode 2)
  let r := r.setCp0 .badVAddr address
  let r := r.setCp0 .context
    ((r.cp0Reg .context &&& 0xFF80000F) ||| ((address >>> 9) &&& 0x007FFFF0))
  r.setCp0 .entryHi (address &&& 0xFFFFE000)

/-- The jump of `TLB_refill_exception` when it is taken inside of an exception handler. -/
def refillNested (r : R4300) : R4300 :=
  let r := jumpUnmapped r 0x80000180
  if r.inDelaySlot then r.setCp0 .cause (r.cp0Reg .cause ||| causeBD)
  else r.setCp0 .cause (r.cp0Reg .cause &&& ~~~causeBD)

/-- The jump of `TLB_refill_exception` otherwise. -/
def refillOuter (r : R4300) (address : BitVec 32) (w : Access) : R4300 :=
  let r := r.setCp0 .epc
    (if r.emumode ≠ .pureInterpreter ∧ w = .fetch then address else r.pc)
  let r := r.setCp0 .cause (r.cp0Reg .cause &&& ~~~causeBD)
  let r := r.setCp0 .status (r.cp0Reg .status ||| statusEXL)
  let usualHandler := (0x80000000 ≤ address ∧ address < 0xc0000000) ∨ r.cp0.tlb.covers address
  jumpUnmapped r (if usualHandler then 0x80000180 else 0x80000000)

/-- `TLB_refill_exception`. -/
def tlbRefillException (r : R4300) (address : BitVec 32) (w : Access) : R4300 :=
  let r := if w ≠ .fetch then cp0UpdateCount r else r
  let r := refillRegs r address w
  let r :=
    if r.cp0Reg .status &&& statusEXL ≠ 0 then refillNested r else refillOuter r address w
  let r := setBranchDelay r
  let r := if w ≠ .fetch then r.setCp0 .epc (r.cp0Reg .epc - 4) else r
  exceptionEpilog (syncLastAddr r)

/-- `virtual_to_physical_address`; the answer 0 stands for a raised exception. -/
def virtualToPhysicalAddress (r : R4300) (address : BitVec 32) (w : Access) : BitVec 32 × R4300 :=
  match r.cp0.tlb.lookup address w with
  | some paddr => (paddr, r)
  | none => (0, if r.ignoreTlbExceptions = 2 then r else tlbRefillException r address w)

def isUnmapped (address : BitVec 32) : Bool := address &&& 0xc0000000 == 0x80000000

/-- `generic_jump_to`; its cached branch is `cached_interpreter_jump_to`. -/
def genericJumpTo (r : R4300) (address : BitVec 32) : R4300 :=
  if r.emumode = .pureInterpreter ∨ isUnmapped address then jumpUnmapped r address
  else if r.skipJump ≠ 0 then r
  else
    match virtualToPhysicalAddress r address .fetch with
    | (paddr, r) =>
      if paddr = 0 then r
      else
        let ci := r.cachedInterp.updateInvalidMapped address paddr
        let ci := if ci.invalidCode (pageOf address) then
            ci.initBlockMapped address (paddr &&& 0xfffff000)
          else ci
        { r with cachedInterp := ci, pc := address &&& 0xfffffffc }

/-- `init_r4300` on the zeroed static device. -/
def initR4300 (emumode : EmuMode) (countPerOp countPerOpDenomPot startAddress : BitVec 32) :
    R4300 where
  regs := fun _ => 0
  hi := 0
  lo := 0
  llbit := 0
  pc := 0
  delaySlot := 0
  skipJump := 0
  stop := false
  resetHardJob := false
  cachedInterp := { invalidCode := fun _ => true, blocks := fun _ => none }
  emumode := emumode
  cp0 :=
    { regs := fun _ => 0
      latch := 0
      interruptUnsafeState := 0
      q := clearQueue
      nextInterrupt := 0
      cycleCount := 0
      lastAddr := 0
      countPerOp := countPerOp
      countPerOpDenomPot := countPerOpDenomPot
      tlb := powerOnTlb }
  cp1 := { regs := fun _ => 0, fcr0 := 0, fcr31 := 0, fr := false }
  cp2Latch := 0
  ignoreTlbExceptions := 0
  startAddress := startAddress

/-- The registers after `poweron_cp0`. -/
def powerOnRegs : Cp0Reg → BitVec 32
  | .random => 31
  | .status => 0x34000000
  | .config => 0x6e463
  | .prevId => 0xb10
  | .count => 0x5000
  | .cause => 0x5c
  | .context => 0x7ffff0
  | .epc | .badVAddr | .errorEpc => 0xffffffff
  | _ => 0

/-- `poweron_cp0`; the latch is not cleared. -/
def powerOnCp0 (c : Cp0) : Cp0 :=
  let c := { c with
    regs := powerOnRegs
    interruptUnsafeState := 0
    nextInterrupt := 0
    cycleCount := 0
    lastAddr := 0xbfc00000 }
  { initInterrupt c with tlb := powerOnTlb }

/-- `poweron_r4300`. -/
def powerOnR4300 (r : R4300) : R4300 :=
  { r with
    regs := fun _ => 0
    hi := 0
    lo := 0
    llbit := 0
    delaySlot := 0
    skipJump := 0
    resetHardJob := false
    cp0 := powerOnCp0 r.cp0
    cp1 := { regs := fun _ => 0, fcr0 := 0xA00, fcr31 := 0, fr := true }
    cp2Latch := 0 }

-- ════════════════════════════════════════════════════════════════════════
-- Interrupts
-- ════════════════════════════════════════════════════════════════════════

/-- Interrupts are enabled: IE without EXL and ERL. -/
def interruptsEnabled (status : BitVec 32) : Bool :=
  status &&& (statusIE ||| statusEXL ||| statusERL) == statusIE

/-- The CHECK_INT that `r4300_check_interrupt` links in front of the queue. -/
def pushCheck (c : Cp0) : Cp0 :=
  if h : c.q.events.length < poolCapacity then
    { c with
      q := ⟨⟨.check, c.count⟩ :: c.q.events, h⟩
      nextInterrupt := c.count
      cycleCount := 0 }
  else c

/-- The update of Cause by `r4300_check_interrupt`. -/
def checkCause (cause causeIp : BitVec 32) (setCause : Bool) : BitVec 32 :=
  if setCause then (cause ||| causeIp) &&& ~~~causeExcCodeMask else cause &&& ~~~causeIp

/-- `r4300_check_interrupt`. -/
def r4300CheckInterrupt (c : Cp0) (causeIp : BitVec 32) (setCause : Bool) : Cp0 :=
  let c := c.set .cause (checkCause (c.regs .cause) causeIp setCause)
  if !interruptsEnabled (c.regs .status) then c
  else if c.regs .status &&& c.regs .cause &&& 0xFF00 ≠ 0 then pushCheck c
  else c

/-- The condition under which `r4300_check_interrupt` links a CHECK_INT. -/
def checkDelivers (c : Cp0) (causeIp : BitVec 32) (setCause : Bool) : Bool :=
  interruptsEnabled (c.regs .status) &&
    (c.regs .status &&& checkCause (c.regs .cause) causeIp setCause &&& 0xFF00) != 0

/-- `raise_maskable_interrupt`. -/
def raiseMaskableInterrupt (r : R4300) (causeIp : BitVec 32) : R4300 :=
  let r := r.setCp0 .cause ((r.cp0Reg .cause ||| causeIp) &&& ~~~causeExcCodeMask)
  if r.cp0Reg .status &&& r.cp0Reg .cause &&& 0xff00 = 0 then r
  else if !interruptsEnabled (r.cp0Reg .status) then r
  else exceptionGeneral r

-- ════════════════════════════════════════════════════════════════════════
-- What the jumps and exceptions leave alone
-- ════════════════════════════════════════════════════════════════════════

@[simp] theorem setCp0_cp0 (r : R4300) (reg : Cp0Reg) (v : BitVec 32) :
    (r.setCp0 reg v).cp0 = r.cp0.set reg v := rfl

@[simp] theorem jumpUnmapped_cp0 (r : R4300) (address : BitVec 32) :
    (jumpUnmapped r address).cp0 = r.cp0 := by
  unfold jumpUnmapped
  split
  · rfl
  · split <;> rfl

@[simp] theorem jumpUnmapped_skipJump (r : R4300) (address : BitVec 32) :
    (jumpUnmapped r address).skipJump = r.skipJump := by
  unfold jumpUnmapped
  split
  · rfl
  · split <;> rfl

@[simp] theorem jumpUnmapped_delaySlot (r : R4300) (address : BitVec 32) :
    (jumpUnmapped r address).delaySlot = r.delaySlot := by
  unfold jumpUnmapped
  split
  · rfl
  · split <;> rfl

theorem jumpUnmapped_pc (r : R4300) (address : BitVec 32) :
    (jumpUnmapped r address).pc =
      if r.emumode = .pureInterpreter then address
      else if r.skipJump ≠ 0 then r.pc else address &&& 0xfffffffc := by
  unfold jumpUnmapped
  cases r.emumode
  · rfl
  · simp only [reduceCtorEq, if_false]
    split <;> rfl

@[simp] theorem exceptionEpilog_q (r : R4300) : (exceptionEpilog r).cp0.q = r.cp0.q := by
  unfold exceptionEpilog
  split <;> rfl

@[simp] theorem exceptionEpilog_regs (r : R4300) :
    (exceptionEpilog r).cp0.regs = r.cp0.regs := by
  unfold exceptionEpilog
  split <;> rfl

@[simp] theorem exceptionEpilog_delaySlot (r : R4300) :
    (exceptionEpilog r).delaySlot = r.delaySlot := by
  unfold exceptionEpilog
  split <;> rfl

@[simp] theorem exceptionEpilog_pc (r : R4300) : (exceptionEpilog r).pc = r.pc := by
  unfold exceptionEpilog
  split <;> rfl

/-- The registers an exception changes, whatever it is. -/
def excRegs : List Cp0Reg := [.cause, .epc, .status, .badVAddr, .context, .entryHi]

/-- Stores to those registers, and to nothing else. -/
def SetsExcRegs (r r' : R4300) : Prop :=
  ∃ regs, (∀ reg, reg ∉ excRegs → regs reg = r.cp0.regs reg) ∧
    r' = { r with cp0 := { r.cp0 with regs := regs } }

namespace SetsExcRegs

theorem refl (r : R4300) : SetsExcRegs r r := ⟨r.cp0.regs, fun _ _ => rfl, rfl⟩

theorem set {r r' : R4300} (h : SetsExcRegs r r') {reg : Cp0Reg} (hreg : reg ∈ excRegs)
    (v : BitVec 32) : SetsExcRegs r (r'.setCp0 reg v) := by
  obtain ⟨regs, hregs, rfl⟩ := h
  refine ⟨Function.update regs reg v, ?_, rfl⟩
  intro reg' hreg'
  have hne : reg' ≠ reg := by
    rintro rfl
    exact hreg' hreg
  rw [Function.update_of_ne hne, hregs reg' hreg']

theorem trans {r r' r'' : R4300} (h : SetsExcRegs r r') (h' : SetsExcRegs r' r'') :
    SetsExcRegs r r'' := by
  obtain ⟨regs, hregs, rfl⟩ := h
  obtain ⟨regs', hregs', rfl⟩ := h'
  exact ⟨regs', fun reg hreg => (hregs' reg hreg).trans (hregs reg hreg), rfl⟩

theorem count {r r' : R4300} (h : SetsExcRegs r r') : r'.cp0.count = r.cp0.count := by
  obtain ⟨regs, hregs, rfl⟩ := h
  exact hregs .count (by decide)

end SetsExcRegs

theorem setBranchDelay_sets (r : R4300) : SetsExcRegs r (setBranchDelay r) := by
  unfold setBranchDelay
  split
  · exact ((SetsExcRegs.refl r).set (by decide) _).set (by decide) _
  · exact (SetsExcRegs.refl r).set (by decide) _

theorem refillRegs_sets (r : R4300) (address : BitVec 32) (w : Access) :
    SetsExcRegs r (refillRegs r address w) :=
  ((((SetsExcRegs.refl r).set (by decide) _).set (by decide) _).set (by decide) _).set
    (by decide) _

/-- An exception is stores to its registers, the jump to its vector and the epilog. -/
theorem exceptionGeneral_spec (r : R4300) :
    ∃ r', SetsExcRegs (cp0UpdateCount r) r' ∧
      exceptionGeneral r = exceptionEpilog (syncLastAddr (jumpUnmapped r' 0x80000180)) :=
  ⟨_, (((SetsExcRegs.refl _).set (by decide) _).set (by decide) _).trans (setBranchDelay_sets _),
    rfl⟩

/-- A TLB exception of an instruction fetch, with its vector. -/
theorem tlbRefillException_fetch (r : R4300) (address : BitVec 32) :
    ∃ r₁ r₂ vector, SetsExcRegs r r₁ ∧ SetsExcRegs (jumpUnmapped r₁ vector) r₂ ∧
      (vector = 0x80000180 ∨ vector = 0x80000000) ∧
      tlbRefillException r address .fetch = exceptionEpilog (syncLastAddr r₂) := by
  have hregs := refillRegs_sets r address .fetch
  simp only [tlbRefillException, ne_eq, not_true_eq_false, if_false]
  by_cases hexl : (refillRegs r address .fetch).cp0Reg .status &&& statusEXL = 0
  · rw [if_neg (not_not_intro hexl)]
    exact ⟨_, _, _, ((hregs.set (by decide) _).set (by decide) _).set (by decide) _,
      setBranchDelay_sets _, ite_eq_or_eq _ _ _, rfl⟩
  · rw [if_pos hexl]
    refine ⟨_, _, _, hregs, SetsExcRegs.trans ?_ (setBranchDelay_sets _), Or.inl rfl, rfl⟩
    unfold refillNested
    simp only
    split
    · exact (SetsExcRegs.refl _).set (by decide) _
    · exact (SetsExcRegs.refl _).set (by decide) _

/-- An exception queues nothing and removes nothing. -/
@[simp] theorem exceptionGeneral_q (r : R4300) : (exceptionGeneral r).cp0.q = r.cp0.q := by
  obtain ⟨r', ⟨regs, -, hr⟩, h⟩ := exceptionGeneral_spec r
  rw [h, exceptionEpilog_q, syncLastAddr, jumpUnmapped_cp0, hr]
  rfl

@[simp] theorem tlbRefillException_fetch_q (r : R4300) (address : BitVec 32) :
    (tlbRefillException r address .fetch).cp0.q = r.cp0.q := by
  obtain ⟨r₁, r₂, vector, ⟨regs, -, h₁⟩, ⟨regs', -, h₂⟩, -, h⟩ := tlbRefillException_fetch r address
  have hq : (jumpUnmapped r₁ vector).cp0.q = r.cp0.q := by
    rw [jumpUnmapped_cp0, h₁]
  rw [h, exceptionEpilog_q, syncLastAddr, h₂]
  exact hq

@[simp] theorem genericJumpTo_q (r : R4300) (address : BitVec 32) :
    (genericJumpTo r address).cp0.q = r.cp0.q := by
  have htranslate : (virtualToPhysicalAddress r address .fetch).2.cp0.q = r.cp0.q := by
    unfold virtualToPhysicalAddress
    split
    · rfl
    · simp only
      split
      · rfl
      · exact tlbRefillException_fetch_q r address
  unfold genericJumpTo
  split
  · rw [jumpUnmapped_cp0]
  · split
    · rfl
    · simp only
      split
      · exact htranslate
      · exact htranslate

/-- COUNT passes the instructions since the last update. -/
@[simp] theorem exceptionGeneral_count (r : R4300) :
    (exceptionGeneral r).cp0.count = r.cp0.count + elapsedCount r := by
  obtain ⟨r', hr, h⟩ := exceptionGeneral_spec r
  rw [h, Cp0.count, exceptionEpilog_regs, syncLastAddr, jumpUnmapped_cp0]
  rw [show r'.cp0.regs .count = _ from hr.count]
  simp [cp0UpdateCount, Cp0.count]

@[simp] theorem raiseMaskableInterrupt_q (r : R4300) (causeIp : BitVec 32) :
    (raiseMaskableInterrupt r causeIp).cp0.q = r.cp0.q := by
  unfold raiseMaskableInterrupt
  simp only
  split
  · rfl
  · split
    · rfl
    · rw [exceptionGeneral_q]
      rfl

@[simp] theorem pushCheck_regs (c : Cp0) : (pushCheck c).regs = c.regs := by
  unfold pushCheck
  split <;> rfl

theorem pushCheck_events (c : Cp0) :
    (pushCheck c).q.events =
      if c.q.events.length < poolCapacity then ⟨.check, c.count⟩ :: c.q.events
      else c.q.events := by
  unfold pushCheck
  split <;> rfl

theorem r4300CheckInterrupt_eq (c : Cp0) (causeIp : BitVec 32) (setCause : Bool) :
    r4300CheckInterrupt c causeIp setCause =
      (if checkDelivers c causeIp setCause then pushCheck else id)
        (c.set .cause (checkCause (c.regs .cause) causeIp setCause)) := by
  unfold r4300CheckInterrupt checkDelivers
  simp only [Cp0.set_regs, Function.update_self, ne_eq, reduceCtorEq, not_false_eq_true,
    Function.update_of_ne, Bool.not_eq_true', bne_iff_ne, Bool.and_eq_true]
  by_cases he : interruptsEnabled (c.regs .status) <;> simp [he]
  split <;> rfl

@[simp] theorem r4300CheckInterrupt_regs (c : Cp0) (causeIp : BitVec 32) (setCause : Bool) :
    (r4300CheckInterrupt c causeIp setCause).regs =
      Function.update c.regs .cause (checkCause (c.regs .cause) causeIp setCause) := by
  rw [r4300CheckInterrupt_eq]
  split
  · rw [pushCheck_regs, Cp0.set_regs]
  · rfl

theorem r4300CheckInterrupt_events (c : Cp0) (causeIp : BitVec 32) (setCause : Bool) :
    (r4300CheckInterrupt c causeIp setCause).q.events =
      if checkDelivers c causeIp setCause ∧ c.q.events.length < poolCapacity then
        ⟨.check, c.count⟩ :: c.q.events
      else c.q.events := by
  rw [r4300CheckInterrupt_eq]
  by_cases hd : checkDelivers c causeIp setCause
  · simp [hd, pushCheck_events, Cp0.count]
  · simp [hd]

/-- `compare_int_handler`. -/
def compareIntHandler (r : R4300) : R4300 :=
  raiseMaskableInterrupt { r with cp0 := armCompare r.cp0 (r.cp0.regs .compare) } causeIP7

/-- `check_int_handler`. -/
def checkIntHandler (r : R4300) : R4300 := exceptionGeneral r

end Mupen64plus
