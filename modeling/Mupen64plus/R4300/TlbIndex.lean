import Mupen64plus.Lib.Runs
import Mupen64plus.R4300.Cp0Instructions

/-!
# Index, Wired and Random along guest programs

Runs of guest instructions from power on, with no test of the stop flag in between. The
instructions that touch Index, Wired or Random are those of `Cp0Instructions`; any other one is a
step that leaves the three registers alone.

## Main definitions

- `GuestOp`, `GuestOp.step` — the instructions and their effect
- `RandomInRange` — Random lies in `[Wired, 31]`
- `GuestOp.Safe` — a step uses no modulus of zero, and no TLB index above 31
- `GuestOp.Bounded` — the condition on the values written to Wired and Index

## Main results

- `randomValue_mem` — where Wired is at most 31, the value of Random lies in `[Wired, 31]`
- `tlbRegs_safe_iff` — a program is safe exactly if all its steps are bounded
-/

namespace Mupen64plus

/-- The three registers are those of another state. -/
structure KeepsTlbRegs (r r' : R4300) : Prop where
  index : r'.cp0Reg .index = r.cp0Reg .index
  wired : r'.cp0Reg .wired = r.cp0Reg .wired
  random : r'.cp0Reg .random = r.cp0Reg .random

/-- The three registers as `poweron_cp0` leaves them. -/
structure FreshTlbRegs (r : R4300) : Prop where
  index : r.cp0Reg .index = 0
  wired : r.cp0Reg .wired = 0
  random : r.cp0Reg .random = 31

/-- Interrupt handlers leave the three registers alone, or reset the machine. -/
structure GuestSurroundings extends Surroundings where
  keeps : ∀ r, KeepsTlbRegs r (genInterrupt r) ∨ FreshTlbRegs (genInterrupt r)

/-- The effect of an instruction that does not touch the three registers. -/
structure OtherEffect where
  run : R4300 → R4300
  keeps : ∀ r, KeepsTlbRegs r (run r)

inductive GuestOp where
  | tlbp
  | tlbr
  | tlbwi
  | tlbwr
  | mfc0 (rfs : Cp0Reg) (rt : Fin 32)
  | dmfc0 (rfs : Cp0Reg) (rt : Fin 32)
  | mtc0 (env : GuestSurroundings) (rfs : Cp0Reg) (rt : Fin 32)
  | other (effect : OtherEffect)

namespace GuestOp

/-- One instruction; `none` is a program that does not go on. -/
def exec (r : R4300) : GuestOp → Option R4300
  | .tlbp => some (Mupen64plus.tlbp r)
  | .tlbr => some (Mupen64plus.tlbr r)
  | .tlbwi => Mupen64plus.tlbwi r
  | .tlbwr => Mupen64plus.tlbwr r
  | .mfc0 rfs rt => Mupen64plus.mfc0 r rfs rt
  | .dmfc0 rfs rt => Mupen64plus.dmfc0 r rfs rt
  | .mtc0 env rfs rt => some (Mupen64plus.mtc0 env.toSurroundings r rfs rt)
  | .other effect => some (effect.run r)

def step (s : Option R4300) (a : GuestOp) : Option R4300 := s.bind fun r => a.exec r

/-- The instruction computes Random. -/
def computesRandom : GuestOp → Bool
  | .tlbwr => true
  | .mfc0 rfs _ => rfs == .random
  | .dmfc0 rfs _ => rfs == .random
  | _ => false

/-- The TLB index that the instruction hands to `TLBWrite`. -/
def indexUsed (r : R4300) : GuestOp → Option (BitVec 32)
  | .tlbwi => some (r.cp0Reg .index &&& 0x3F)
  | .tlbwr => (updateRandom r).map (·.cp0Reg .random)
  | _ => none

/-- The modulus that the instruction uses is not zero, and its TLB index is below 32. -/
def Safe (s : Option R4300) (a : GuestOp) : Prop :=
  ∀ r ∈ s, (a.computesRandom → 32 - r.cp0Reg .wired ≠ 0) ∧ ∀ idx ∈ a.indexUsed r, idx < 32

/-- A value written to Wired is at most 31. -/
def WiredBounded (s : Option R4300) : GuestOp → Prop
  | .mtc0 _ .wired rt => ∀ r ∈ s, r.gpr32 rt &&& 0x3F ≤ 31
  | _ => True

/-- Index is at most 31 where `TLBWI` reads it. -/
def IndexBounded (s : Option R4300) : GuestOp → Prop
  | .tlbwi => ∀ r ∈ s, r.cp0Reg .index &&& 0x3F ≤ 31
  | _ => True

/-- The two bounds. -/
def Bounded (s : Option R4300) (a : GuestOp) : Prop := a.WiredBounded s ∧ a.IndexBounded s

end GuestOp

/-- Random lies in `[Wired, 31]`. -/
def RandomInRange (s : Option R4300) : Prop :=
  ∀ r ∈ s, r.cp0Reg .wired ≤ r.cp0Reg .random ∧ r.cp0Reg .random ≤ 31

-- ════════════════════
-- What the instructions do to the three registers
-- ════════════════════

namespace KeepsTlbRegs

variable {r r' r'' : R4300}

theorem refl (r : R4300) : KeepsTlbRegs r r := ⟨rfl, rfl, rfl⟩

theorem trans (h : KeepsTlbRegs r r') (h' : KeepsTlbRegs r' r'') : KeepsTlbRegs r r'' :=
  ⟨h'.index.trans h.index, h'.wired.trans h.wired, h'.random.trans h.random⟩

/-- A store to another CP0 register. -/
theorem set (h : KeepsTlbRegs r r') (reg : Cp0Reg) (hreg : reg ∉ [Cp0Reg.index, .wired, .random])
    (v : BitVec 32) : KeepsTlbRegs r (r'.setCp0 reg v) := by
  have hne {reg' : Cp0Reg} (hmem : reg' ∈ [Cp0Reg.index, .wired, .random]) : reg' ≠ reg := by
    rintro rfl
    exact hreg hmem
  refine h.trans ⟨?_, ?_, ?_⟩
  · exact Function.update_of_ne (hne (by decide)) _ _
  · exact Function.update_of_ne (hne (by decide)) _ _
  · exact Function.update_of_ne (hne (by decide)) _ _

/-- The registers are equal as a whole, COUNT apart. -/
theorem of_regs {v : BitVec 32} (h : r'.cp0.regs = Function.update r.cp0.regs .count v) :
    KeepsTlbRegs r r' := by
  refine ⟨?_, ?_, ?_⟩
  · exact (congrFun h .index).trans (Function.update_of_ne (by decide) _ _)
  · exact (congrFun h .wired).trans (Function.update_of_ne (by decide) _ _)
  · exact (congrFun h .random).trans (Function.update_of_ne (by decide) _ _)

end KeepsTlbRegs

/-- Only Wired and Random matter. -/
theorem RandomInRange.congr {r r' : R4300} (hr : RandomInRange (some r))
    (hwired : r'.cp0Reg .wired = r.cp0Reg .wired)
    (hrandom : r'.cp0Reg .random = r.cp0Reg .random) : RandomInRange (some r') := by
  rintro _ ⟨⟩
  rw [hwired, hrandom]
  exact hr r rfl

theorem KeepsTlbRegs.inRange {r r' : R4300} (h : KeepsTlbRegs r r')
    (hr : RandomInRange (some r)) : RandomInRange (some r') := hr.congr h.wired h.random

theorem FreshTlbRegs.inRange {r : R4300} (h : FreshTlbRegs r) : RandomInRange (some r) := by
  rintro _ ⟨⟩
  rw [h.wired, h.random]
  decide

theorem cp0UpdateCount_keeps (r : R4300) : KeepsTlbRegs r (cp0UpdateCount r) :=
  KeepsTlbRegs.of_regs rfl

/-- Where Wired is at most 31, the value of Random lies in `[Wired, 31]`. -/
theorem randomValue_mem {c : Cp0} (h : c.regs .wired ≤ 31) :
    ∃ v, randomValue c = some v ∧ c.regs .wired ≤ v ∧ v ≤ 31 := by
  have hw : (c.regs .wired).toNat ≤ 31 := h
  have hmod : (32 - c.regs .wired).toNat = 32 - (c.regs .wired).toNat := by
    rw [BitVec.toNat_sub]
    show (4294967296 - _ + 32) % 4294967296 = _
    omega
  have hne : 32 - c.regs .wired ≠ 0 := by
    intro hzero
    have hz := congrArg BitVec.toNat hzero
    rw [hmod] at hz
    have hz' : 32 - (c.regs .wired).toNat = 0 := hz
    omega
  refine ⟨_, if_neg hne, ?_⟩
  have hpos : 0 < 32 - (c.regs .wired).toNat := by omega
  have hrem := Nat.mod_lt (c.count / c.countPerOp).toNat hpos
  have hsum : (c.count / c.countPerOp % (32 - c.regs .wired) + c.regs .wired).toNat =
      (c.count / c.countPerOp).toNat % (32 - (c.regs .wired).toNat) + (c.regs .wired).toNat := by
    rw [BitVec.toNat_add, BitVec.toNat_umod, hmod]
    omega
  rw [BitVec.le_def, BitVec.le_def, hsum]
  show _ ∧ _ ≤ 31
  omega

theorem updateRandom_inRange {r : R4300} (hr : RandomInRange (some r)) :
    ∃ r', updateRandom r = some r' ∧ RandomInRange (some r') := by
  have hkeep := cp0UpdateCount_keeps r
  have hrange := hkeep.inRange hr
  obtain ⟨hlo, hhi⟩ := hrange _ rfl
  have hwired : (cp0UpdateCount r).cp0Reg .wired ≤ 31 := BitVec.le_trans hlo hhi
  obtain ⟨v, hv, hvlo, hvhi⟩ := randomValue_mem hwired
  refine ⟨(cp0UpdateCount r).setCp0 .random v, ?_, ?_⟩
  · rw [updateRandom, hv]
    rfl
  · rintro _ ⟨⟩
    exact ⟨hvlo, hvhi⟩

/-- `TLBWrite` does not touch the registers. -/
theorem tlbWriteAt_keeps {r r' : R4300} {idx : BitVec 32} (h : tlbWriteAt r idx = some r') :
    KeepsTlbRegs r r' := by
  unfold tlbWriteAt at h
  split at h
  · obtain ⟨t, -, rfl⟩ := Option.map_eq_some_iff.1 h
    exact ⟨rfl, rfl, rfl⟩
  · cases h

theorem tlbp_inRange {r : R4300} (hr : RandomInRange (some r)) :
    RandomInRange (some (tlbp r)) := by
  unfold tlbp
  dsimp only
  split
  · exact hr.congr rfl rfl
  · exact hr.congr rfl rfl

theorem tlbr_keeps (r : R4300) : KeepsTlbRegs r (tlbr r) := ⟨rfl, rfl, rfl⟩

/-- The three registers stay as they are, or the machine was reset. -/
def KeepsOrFresh (r r' : R4300) : Prop := KeepsTlbRegs r r' ∨ FreshTlbRegs r'

namespace KeepsOrFresh

variable {r r' r'' : R4300}

theorem before (h : KeepsTlbRegs r r') (h' : KeepsOrFresh r' r'') : KeepsOrFresh r r'' :=
  h'.imp_left h.trans

theorem after (h : KeepsOrFresh r r') (h' : KeepsTlbRegs r' r'') : KeepsOrFresh r r'' :=
  h.imp (fun hk => hk.trans h') fun hf =>
    ⟨h'.index.trans hf.index, h'.wired.trans hf.wired, h'.random.trans hf.random⟩

theorem inRange (h : KeepsOrFresh r r') (hr : RandomInRange (some r)) :
    RandomInRange (some r') :=
  h.elim (fun hk => hk.inRange hr) FreshTlbRegs.inRange

end KeepsOrFresh

theorem serveDue_keeps (env : GuestSurroundings) (r : R4300) :
    KeepsOrFresh r (serveDue env.toSurroundings r) := by
  have hsame (r : R4300) (v : BitVec 32) :
      KeepsTlbRegs r { r with cp0 := { r.cp0 with interruptUnsafeState := v } } := ⟨rfl, rfl, rfl⟩
  unfold serveDue
  dsimp only
  split
  · exact KeepsOrFresh.before (hsame r _) (KeepsOrFresh.after (env.keeps _) (hsame _ _))
  · exact KeepsOrFresh.before (hsame r _) (Or.inl (hsame _ _))

/-- A case of `MTC0` that writes one register other than the three. -/
theorem mtc0Plain_keeps (r : R4300) {rfs : Cp0Reg}
    (h : rfs ∉ [Cp0Reg.index, .wired, .random]) (v : BitVec 32) :
    KeepsTlbRegs r (mtc0Plain r rfs v).addToPc := by
  have hset := (KeepsTlbRegs.refl r).set rfs h (mtc0Masked rfs (r.cp0Reg rfs) v)
  unfold mtc0Plain
  dsimp only
  split
  · exact absurd List.mem_cons_self h
  · exact absurd (by decide) h
  · exact ⟨hset.index, hset.wired, hset.random⟩

theorem mtc0Compare_keeps (r : R4300) (v : BitVec 32) : KeepsTlbRegs r (mtc0Compare r v) := by
  have harm (r : R4300) (c : Cp0) (hc : c.regs = r.cp0.regs) :
      KeepsTlbRegs r { r with cp0 := armCompare c v } := by
    have hregs : (armCompare c v).regs = r.cp0.regs := (armCompare_regs c v).trans hc
    exact ⟨congrFun hregs .index, congrFun hregs .wired, congrFun hregs .random⟩
  have hcount := (cp0UpdateCount_keeps r).trans (harm (cp0UpdateCount r)
    { (cp0UpdateCount r).cp0 with q := removeEvent (cp0UpdateCount r).cp0.q .compare } rfl)
  exact (hcount.set .compare (by decide) v).set .cause (by decide) _

theorem mtc0Count_keeps (env : GuestSurroundings) (r : R4300) (rt : Fin 32) :
    KeepsOrFresh r (mtc0Count env.toSurroundings r rt) :=
  KeepsOrFresh.after
    (KeepsOrFresh.before (cp0UpdateCount_keeps r) (serveDue_keeps env (cp0UpdateCount r)))
    (KeepsTlbRegs.of_regs (translateEventQueue_regs _ _))

theorem mtc0Status_keeps (env : GuestSurroundings) (r : R4300) (rt : Fin 32) :
    KeepsOrFresh r (mtc0Status env.toSurroundings r rt) := by
  have hcheck (r : R4300) : KeepsTlbRegs r
      { r with cp0 := r4300CheckInterrupt r.cp0 causeIP2 env.rcpInterrupt } := by
    have hregs := r4300CheckInterrupt_regs r.cp0 causeIP2 env.rcpInterrupt
    refine ⟨?_, ?_, ?_⟩
    · exact (congrFun hregs .index).trans (Function.update_of_ne (by decide) _ _)
    · exact (congrFun hregs .wired).trans (Function.update_of_ne (by decide) _ _)
    · exact (congrFun hregs .random).trans (Function.update_of_ne (by decide) _ _)
  have hstatus (r r' : R4300) (v : BitVec 32) (h : KeepsTlbRegs r r') :
      KeepsOrFresh r (serveDue env.toSurroundings
        { cp0UpdateCount (r'.setCp0 .status v).addToPc with
          cp0 := r4300CheckInterrupt (cp0UpdateCount (r'.setCp0 .status v).addToPc).cp0 causeIP2
            env.rcpInterrupt }) := by
    have hset := h.set .status (by decide) v
    have hpc : KeepsTlbRegs r (r'.setCp0 .status v).addToPc :=
      ⟨hset.index, hset.wired, hset.random⟩
    exact KeepsOrFresh.before ((hpc.trans (cp0UpdateCount_keeps _)).trans (hcheck _))
      (serveDue_keeps env _)
  unfold mtc0Status mtc0StatusWritten
  dsimp only
  split
  · exact hstatus r _ _ ⟨rfl, rfl, rfl⟩
  · exact hstatus r _ _ ⟨rfl, rfl, rfl⟩

/-- `MTC0` to a register other than Index, Wired and Random. -/
theorem mtc0_keeps (env : GuestSurroundings) (r : R4300) (rt : Fin 32) {rfs : Cp0Reg}
    (h : rfs ∉ [Cp0Reg.index, .wired, .random]) :
    KeepsOrFresh r (mtc0 env.toSurroundings r rfs rt) := by
  have hlatch : KeepsTlbRegs r { r with cp0 := { r.cp0 with latch := se32 (r.gpr32 rt) } } :=
    ⟨rfl, rfl, rfl⟩
  have hpc (r' : R4300) : KeepsTlbRegs r' r'.addToPc := ⟨rfl, rfl, rfl⟩
  refine KeepsOrFresh.before hlatch ?_
  unfold mtc0
  dsimp only
  split
  · exact KeepsOrFresh.after (mtc0Count_keeps env _ rt) (hpc _)
  · exact Or.inl ((mtc0Compare_keeps _ _).trans (hpc _))
  · exact mtc0Status_keeps env _ rt
  · exact Or.inl (mtc0Plain_keeps _ h _)

-- ════════════════════
-- One instruction
-- ════════════════════

theorem refreshRegister_inRange {r r' : R4300} (hr : RandomInRange (some r)) {rfs : Cp0Reg}
    (h : refreshRegister r rfs = some r') : RandomInRange (some r') := by
  unfold refreshRegister at h
  split at h
  · obtain ⟨r₁, h₁, hrange⟩ := updateRandom_inRange hr
    rw [h₁] at h
    cases h
    exact hrange
  · cases h
    exact (cp0UpdateCount_keeps r).inRange hr
  · cases h
    exact hr

theorem move_inRange {r r' : R4300} (hr : RandomInRange (some r)) {rfs : Cp0Reg} {rt : Fin 32}
    {value : R4300 → BitVec 64}
    (h : (refreshRegister r rfs).map (fun r => (r.setGpr rt (value r)).addToPc) = some r') :
    RandomInRange (some r') := by
  obtain ⟨r₁, h₁, rfl⟩ := Option.map_eq_some_iff.1 h
  exact (refreshRegister_inRange hr h₁).congr rfl rfl

/-- A step keeps Random in range exactly if the value it writes to Wired is at most 31. -/
theorem exec_inRange_iff {r : R4300} (hr : RandomInRange (some r)) (a : GuestOp) :
    RandomInRange (a.exec r) ↔ a.WiredBounded (some r) := by
  cases a with
  | tlbp => exact iff_of_true (tlbp_inRange hr) trivial
  | tlbr => exact iff_of_true ((tlbr_keeps r).inRange hr) trivial
  | tlbwi =>
    refine iff_of_true ?_ trivial
    rintro r' hr'
    exact (tlbWriteAt_keeps hr').inRange hr r' rfl
  | tlbwr =>
    refine iff_of_true ?_ trivial
    rintro r' hr'
    obtain ⟨r₁, h₁, hr'⟩ := Option.bind_eq_some_iff.1 hr'
    obtain ⟨r₂, h₂, hrange⟩ := updateRandom_inRange hr
    rw [h₁] at h₂
    cases h₂
    exact (tlbWriteAt_keeps hr').inRange hrange r' rfl
  | mfc0 rfs rt =>
    refine iff_of_true ?_ trivial
    rintro r' hr'
    exact move_inRange hr hr' r' rfl
  | dmfc0 rfs rt =>
    refine iff_of_true ?_ trivial
    rintro r' hr'
    exact move_inRange hr hr' r' rfl
  | other effect => exact iff_of_true ((effect.keeps r).inRange hr) trivial
  | mtc0 env rfs rt =>
    by_cases hw : rfs = .wired
    · subst hw
      constructor
      · intro h _ hr'
        cases hr'
        exact (h _ rfl).1
      · rintro h _ ⟨⟩
        exact ⟨h r rfl, BitVec.le_refl _⟩
    · have hbound : (GuestOp.mtc0 env rfs rt).WiredBounded (some r) := by
        cases rfs <;> trivial
      refine iff_of_true ?_ hbound
      by_cases hi : rfs = .index
      · subst hi
        unfold GuestOp.exec mtc0 mtc0Plain
        dsimp only
        split
        · exact hr.congr rfl rfl
        · exact hr.congr rfl rfl
      · by_cases hrand : rfs = .random
        · subst hrand
          exact hr.congr rfl rfl
        · exact (mtc0_keeps env r rt (by simp [hi, hw, hrand])).inRange hr

theorem step_inRange_iff {s : Option R4300} (hs : RandomInRange s) (a : GuestOp) :
    RandomInRange (GuestOp.step s a) ↔ a.WiredBounded s := by
  cases s with
  | none =>
    refine iff_of_true (fun r hr => by cases hr) ?_
    cases a with
    | mtc0 env rfs rt =>
      cases rfs <;> first | trivial | exact fun r hr => by cases hr
    | _ => trivial
  | some r => exact exec_inRange_iff hs a

/-- Where Random is in range, a step is safe exactly if `TLBWI` finds Index at most 31. -/
theorem safe_iff {s : Option R4300} (hs : RandomInRange s) (a : GuestOp) :
    a.Safe s ↔ a.IndexBounded s := by
  have hmodulus : ∀ r ∈ s, 32 - r.cp0Reg .wired ≠ 0 := by
    intro r hr hzero
    obtain ⟨hlo, hhi⟩ := hs r hr
    have hwired : (r.cp0Reg .wired).toNat ≤ 31 := BitVec.le_trans hlo hhi
    have hz := congrArg BitVec.toNat hzero
    rw [BitVec.toNat_sub] at hz
    have hz' : (4294967296 - (r.cp0Reg .wired).toNat + 32) % 4294967296 = 0 := hz
    omega
  cases a with
  | tlbwi =>
    constructor
    · intro h r hr
      have hlt : (r.cp0Reg .index &&& 0x3F).toNat < 32 := (h r hr).2 _ rfl
      exact Nat.le_of_lt_succ hlt
    · intro h r hr
      refine ⟨fun hfalse => (by cases hfalse), ?_⟩
      rintro _ ⟨⟩
      have hle : (r.cp0Reg .index &&& 0x3F).toNat ≤ 31 := h r hr
      exact Nat.lt_succ_of_le hle
  | tlbwr =>
    refine iff_of_true (fun r hr => ⟨fun _ => hmodulus r hr, ?_⟩) trivial
    intro idx hidx
    obtain ⟨r₁, h₁, rfl⟩ := Option.map_eq_some_iff.1 hidx
    have hrange₀ : RandomInRange (some r) := by
      rw [← hr]
      exact hs
    obtain ⟨r₂, h₂, hrange⟩ := updateRandom_inRange hrange₀
    rw [h₁] at h₂
    cases h₂
    have hle : (r₁.cp0Reg .random).toNat ≤ 31 := (hrange r₁ rfl).2
    exact Nat.lt_succ_of_le hle
  | _ =>
    exact iff_of_true
      (fun r hr => ⟨fun _ => hmodulus r hr, fun idx hidx => (by cases hidx)⟩) trivial

-- ════════════════════
-- Programs
-- ════════════════════

theorem powerOn_inRange (r : R4300) : RandomInRange (some (powerOnR4300 r)) := by
  have hregs : (powerOnR4300 r).cp0.regs = powerOnRegs := by
    simp only [powerOnR4300, powerOnCp0, initInterrupt, addInterruptEventCount_regs]
  rintro _ ⟨⟩
  rw [R4300.cp0Reg, R4300.cp0Reg, hregs]
  decide

/-- Along a program from power on, Random stays in `[Wired, 31]`, no modulus is zero and every
    TLB index is below 32, exactly if the values written to Wired, and Index where `TLBWI` reads
    it, are at most 31 in their low six bits. -/
theorem tlbRegs_safe_iff (r : R4300) (program : List GuestOp) :
    ((∀ s ∈ Runs.visited GuestOp.step (some (powerOnR4300 r)) program, RandomInRange s) ∧
      Runs.Along GuestOp.step (fun s a => a.Safe s) (some (powerOnR4300 r)) program) ↔
    Runs.Along GuestOp.step (fun s a => a.Bounded s) (some (powerOnR4300 r)) program := by
  have hvisited :
      (∀ s ∈ Runs.visited GuestOp.step (some (powerOnR4300 r)) program, RandomInRange s) ↔
        Runs.Along GuestOp.step (fun s a => a.WiredBounded s) (some (powerOnR4300 r)) program :=
    Runs.visited_iff_along (I := RandomInRange) (C := fun s a => a.WiredBounded s)
      (fun s a hs => step_inRange_iff hs a) (powerOn_inRange r)
  have hstep (s : Option R4300) (a : GuestOp) (hs : RandomInRange s) (ha : a.WiredBounded s) :
      RandomInRange (GuestOp.step s a) := (step_inRange_iff hs a).2 ha
  unfold GuestOp.Bounded
  rw [Runs.along_and, hvisited]
  refine and_congr_right fun hwired => ⟨fun h => ?_, fun h => ?_⟩
  · exact Runs.along_of_along (fun s a hs ha => hstep s a hs ha.1)
      (fun s a hs ha => (safe_iff hs a).1 ha.2) (powerOn_inRange r)
      ((Runs.along_and _ _).2 ⟨hwired, h⟩)
  · exact Runs.along_of_along (fun s a hs ha => hstep s a hs ha.1)
      (fun s a hs ha => (safe_iff hs a).2 ha.2) (powerOn_inRange r)
      ((Runs.along_and _ _).2 ⟨hwired, h⟩)

/-- `ORI` of a register that holds zero. -/
def loadRegister (rt : Fin 32) (v : BitVec 64) : OtherEffect where
  run r := r.setGpr rt v
  keeps _ := ⟨rfl, rfl, rfl⟩

/-- Nothing happens outside of the core. -/
def quiet : GuestSurroundings where
  genInterrupt := id
  rcpInterrupt := false
  keeps r := Or.inl (KeepsTlbRegs.refl r)

/-- Wired becomes 32, and Random is read. -/
def wiredProgram : List GuestOp :=
  [.other (loadRegister 8 32), .mtc0 quiet .wired 8, .mfc0 .random 9]

/-- The modulus of the read is zero. -/
theorem wiredProgram_unsafe : ¬∀ (r : R4300) (program : List GuestOp),
    (∀ s ∈ Runs.visited GuestOp.step (some (powerOnR4300 r)) program, RandomInRange s) ∧
      Runs.Along GuestOp.step (fun s a => a.Safe s) (some (powerOnR4300 r)) program := by
  intro h
  obtain ⟨-, -, -, hread, -⟩ := h (initR4300 .pureInterpreter 2 0 0) wiredProgram
  exact (hread _ rfl).1 rfl rfl

end Mupen64plus
