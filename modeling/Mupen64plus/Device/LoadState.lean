import Mupen64plus.Device.Interrupts

/-!
# What a loaded savestate leaves of the run before it

A load replaces every field it reads; what it does not read is what the old run left. For the core
that is `skip_jump` and `delay_slot`: neither is in the file, and neither is reset.

## Main definitions

- `savedWord`, `savedPc`, `savedLutR` — words of a savestate by their offsets
- `CoreOutcome`, `Device.coreOutcome` — where the core goes on from
- `LandsOnSaved` — the program counter of the file is reached
-/

namespace Mupen64plus

open Codec

-- ════════════════════
-- Offsets
-- ════════════════════

/-- The bytes of a savestate behind its header, up to the event queue. -/
def savedMain (data : List (BitVec 8)) : List (BitVec 8) :=
  (data.drop 44).take Device.savestateSize

/-- The word at an offset behind the header. -/
def savedWord (data : List (BitVec 8)) (offset : ℕ) : BitVec 32 :=
  u32.get ((savedMain data).drop offset)

/-- The offset of `LUT_r`. -/
def lutROffset : ℕ := 8397288

/-- The offset of `CP0_COUNT_REG`. -/
def countOffset : ℕ := 16786192

/-- The offset of the program counter. -/
def pcOffset : ℕ := 16788228

/-- The program counter of a savestate. -/
def savedPc (data : List (BitVec 8)) : BitVec 32 := savedWord data pcOffset

/-- A word of `LUT_r` of a savestate. -/
def savedLutR (data : List (BitVec 8)) (p : Page) : BitVec 32 :=
  savedWord data (lutROffset + p.toNat * 4)

namespace Device

/-- Registers are read one word each. -/
theorem getRegs_fst {ι : Type*} (set : ι → BitVec 32 → Device → Device) (order : List ι)
    (s : List (BitVec 8) × Device) :
    (Reader.run (getRegs set order) s).1 = s.1.drop (order.length * 4) := by
  induction order generalizing s with
  | nil => simp [getRegs]
  | cons reg order ih =>
    have hcons : getRegs set (reg :: order) = Reader.field u32 (set reg) :: getRegs set order := rfl
    rw [hcons, Reader.run_cons, ih, Reader.field_fst, List.drop_drop, List.length_cons,
      Nat.succ_mul, Nat.add_comm]
    rfl

/-- The registers of the devices, which the file starts with. -/
def loadRegisters : List (Reader Device) :=
  getRegs (setRdramReg 0) rdramSaveOrder ++ (loadMi ++ (loadPi ++ (loadSp ++ (loadSi ++ (loadVi ++
  (loadRi ++ (loadAi ++ loadDp)))))))

def loadTlb : List (Reader Device) := (List.finRange 32).flatMap loadTlbEntry

/-- What is read before the program counter. -/
def loadFront : List (Reader Device) :=
  loadRegisters ++ (loadMemories ++ (loadUseFlashram ++ (loadCore ++ loadTlb)))

theorem loadMain_eq : loadMain = loadFront ++ loadTail := by
  simp only [loadMain, loadFront, loadRegisters, loadTlb, List.append_assoc]

theorem loadRegisters_fst (s : List (BitVec 8) × Device) :
    (Reader.run loadRegisters s).1 = s.1.drop 400 := by
  simp only [loadRegisters, Reader.run_append, loadMi, loadPi, loadSp, loadSi, loadVi, loadRi,
    loadAi, loadDp, getRegs_fst, Reader.run_cons, Reader.run_nil, Reader.field_fst, Reader.skip_fst,
    Reader.act_fst, List.drop_drop, u32, rdramSaveOrder, List.length_cons, List.length_nil]

theorem loadMemories_fst (s : List (BitVec 8) × Device) :
    (Reader.run loadMemories s).1 = s.1.drop 8396864 := by
  simp only [loadMemories, Reader.run_cons, Reader.run_nil, Reader.field_fst, List.drop_drop, array,
    u32, u8]

theorem loadUseFlashram_fst (s : List (BitVec 8) × Device) :
    (Reader.run loadUseFlashram s).1 = s.1.drop 24 := by
  simp only [loadUseFlashram, Reader.run_cons, Reader.run_nil, Reader.field_fst, Reader.skip_fst,
    Reader.act_fst, List.drop_drop, u32]

theorem loadCore_fst (s : List (BitVec 8) × Device) :
    (Reader.run loadCore s).1 = s.1.drop 8389276 := by
  simp only [loadCore, loadTables, loadCp1, Reader.run_append, getRegs_fst, Reader.run_cons,
    Reader.run_nil, Reader.field_fst, Reader.act_fst, List.drop_drop, array, u32, u64, Cp0Reg.block,
    List.length_cons, List.length_nil]

theorem loadTlbEntry_fst (i : Fin 32) (s : List (BitVec 8) × Device) :
    (Reader.run (loadTlbEntry i) s).1 = s.1.drop 52 := by
  simp only [loadTlbEntry, Reader.run_cons, Reader.run_nil, Reader.field_fst, Reader.skip_fst,
    List.drop_drop, u32, u16, u8]

theorem loadTlb_fst (s : List (BitVec 8) × Device) :
    (Reader.run loadTlb s).1 = s.1.drop 1664 := by
  rw [loadTlb, Reader.run_flatMap_fst loadTlbEntry 52 loadTlbEntry_fst, List.length_finRange]

theorem loadFront_fst (s : List (BitVec 8) × Device) :
    (Reader.run loadFront s).1 = s.1.drop pcOffset := by
  rw [loadFront, Reader.run_append, Reader.run_append, Reader.run_append, Reader.run_append,
    loadTlb_fst, loadCore_fst, loadUseFlashram_fst, loadMemories_fst, loadRegisters_fst]
  simp only [List.drop_drop]
  rfl

-- ════════════════════
-- What the file does not hold
-- ════════════════════

theorem allKeep_getRegs {ι β : Type*} {f : Device → β} {set : ι → BitVec 32 → Device → Device}
    {order : List ι} (h : ∀ reg ∈ order, ∀ v d, f (set reg v d) = f d) :
    Reader.AllKeep f (getRegs set order) :=
  Reader.allKeep_map order fun reg hreg => Reader.keeps_field (h reg hreg)

/-- The devices are read without touching the core. -/
theorem loadRegisters_keeps : Reader.AllKeep (fun d => d.r4300) loadRegisters := by
  simp only [loadRegisters, loadMi, loadPi, loadSp, loadSi, loadVi, loadRi, loadAi, loadDp,
    Reader.allKeep_append, Reader.allKeep_cons, Reader.allKeep_nil]
  and_intros
  all_goals first
    | exact allKeep_getRegs fun _ _ _ _ => rfl
    | exact Reader.keeps_field fun _ _ => rfl
    | exact Reader.keeps_skip _ _
    | exact Reader.keeps_act fun _ => rfl
    | exact trivial

theorem loadMemories_keeps : Reader.AllKeep (fun d => d.r4300) loadMemories := by
  simp [loadMemories, Reader.keeps_field, setSpMem, setRam]

theorem loadUseFlashram_keeps : Reader.AllKeep (fun d => d.r4300) loadUseFlashram := by
  simp [loadUseFlashram, Reader.keeps_skip, Reader.keeps_field, Reader.keeps_act, setUseFlashram,
    setFlash]

/-- The entries of the TLB are read behind the tables, and touch nothing else. -/
theorem loadTlb_keeps {β : Type*} {f : Device → β} (h : ∀ i g d, f (setEntry i g d) = f d) :
    Reader.AllKeep f loadTlb := by
  apply Reader.allKeep_flatMap
  intro i
  simp only [loadTlbEntry, Reader.allKeep_cons, Reader.allKeep_nil, and_true]
  and_intros
  all_goals first
    | exact Reader.keeps_field fun _ _ => h _ _ _
    | exact Reader.keeps_skip _ _

/-- What the core keeps through everything that is read before the program counter. -/
def unsavedCore (d : Device) : BitVec 32 × BitVec 32 × EmuMode × BitVec 32 × BitVec 32 :=
  (d.r4300.skipJump, d.r4300.delaySlot, d.r4300.emumode, d.r4300.pc,
    d.r4300.ignoreTlbExceptions)

theorem loadCore_keeps : Reader.AllKeep unsavedCore loadCore := by
  simp only [loadCore, loadTables, loadCp1, Reader.allKeep_append, Reader.allKeep_cons,
    Reader.allKeep_nil, and_true]
  and_intros
  all_goals first
    | exact allKeep_getRegs fun _ _ _ _ => rfl
    | exact Reader.keeps_field fun _ _ => rfl
    | exact Reader.keeps_act fun _ => rfl

/-- The CP0 registers and the tables are not touched behind them. -/
theorem loadCp1_keeps : Reader.AllKeep (fun d => d.cp0) loadCp1 := by
  simp only [loadCp1, Reader.allKeep_cons, Reader.allKeep_nil, and_true]
  and_intros
  all_goals first
    | exact Reader.keeps_field fun _ _ => rfl
    | exact Reader.keeps_act fun _ => rfl

theorem loadFront_unsavedCore (s : List (BitVec 8) × Device) :
    unsavedCore (Reader.run loadFront s).2 = unsavedCore s.2 := by
  have hcore : ∀ {steps : List (Reader Device)}, Reader.AllKeep (fun d => d.r4300) steps →
      ∀ s, unsavedCore (Reader.run steps s).2 = unsavedCore s.2 := by
    intro steps h s
    have hr := Reader.run_keeps h s
    simp only [unsavedCore, hr]
  rw [loadFront, Reader.run_append, Reader.run_append, Reader.run_append, Reader.run_append,
    Reader.run_keeps (f := unsavedCore) (loadTlb_keeps fun _ _ _ => rfl),
    Reader.run_keeps loadCore_keeps,
    hcore loadUseFlashram_keeps, hcore loadMemories_keeps, hcore loadRegisters_keeps]

-- ════════════════════
-- What the file holds
-- ════════════════════

/-- The cursor when the core is read. -/
theorem loadFront_core (l : List (BitVec 8)) (d : Device) :
    ∃ d', Reader.run loadFront (l, d) =
      Reader.run loadTlb (Reader.run loadCore (l.drop lutROffset, d')) := by
  have hcur : (Reader.run loadUseFlashram (Reader.run loadMemories
      (Reader.run loadRegisters (l, d)))).1 = l.drop lutROffset := by
    rw [loadUseFlashram_fst, loadMemories_fst, loadRegisters_fst]
    simp only [List.drop_drop]
    rfl
  refine ⟨(Reader.run loadUseFlashram (Reader.run loadMemories
    (Reader.run loadRegisters (l, d)))).2, ?_⟩
  rw [loadFront, Reader.run_append, Reader.run_append, Reader.run_append, Reader.run_append]
  -- the pair is put together by hand: unfolding the readers would read the memories
  exact congrArg (Reader.run loadTlb) (congrArg (Reader.run loadCore) (Prod.ext hcur rfl))

/-- The registers behind COUNT in `Cp0Reg.block`. -/
def regsBehindCount : List Cp0Reg := Cp0Reg.block.drop 10

theorem getRegs_block : getRegs setCp0Reg Cp0Reg.block =
    getRegs setCp0Reg (Cp0Reg.block.take 9) ++
      (Reader.field u32 (setCp0Reg .count) :: getRegs setCp0Reg regsBehindCount) := rfl

theorem setCp0Reg_count {reg : Cp0Reg} (h : reg ≠ .count) (v : BitVec 32) (d : Device) :
    (setCp0Reg reg v d).cp0.count = d.cp0.count := Function.update_of_ne (Ne.symm h) _ _

theorem loadTables_fst (s : List (BitVec 8) × Device) :
    (Reader.run loadTables s).1 = s.1.drop 8388868 := by
  simp only [loadTables, Reader.run_cons, Reader.run_nil, Reader.field_fst, List.drop_drop, array,
    u32, u64]

theorem loadCore_count (l : List (BitVec 8)) (d : Device) :
    (Reader.run loadCore (l, d)).2.cp0.count = u32.get (l.drop 8388904) := by
  have hbehind : ∀ reg ∈ regsBehindCount, reg ≠ .count := by decide
  have hregs : Reader.AllKeep (fun d : Device => d.cp0.count) (getRegs setCp0Reg regsBehindCount) :=
    allKeep_getRegs fun reg hreg => setCp0Reg_count (hbehind reg hreg)
  have hset (v : BitVec 32) (d : Device) : (setCp0Reg .count v d).cp0.count = v := by
    simp [setCp0Reg, Cp0.count]
  have htake : (Cp0Reg.block.take 9).length * 4 = 36 := rfl
  rw [loadCore, Reader.run_append, Reader.run_append, Reader.run_keeps loadCp1_keeps, getRegs_block,
    Reader.run_append, Reader.run_cons]
  refine (Reader.run_keeps hregs _).trans ?_
  rw [Reader.field_snd, hset, getRegs_fst, htake, loadTables_fst, List.drop_drop]

/-- COUNT is read from the file. -/
theorem loadFront_count (l : List (BitVec 8)) (d : Device) :
    (Reader.run loadFront (l, d)).2.cp0.count = u32.get (l.drop countOffset) := by
  obtain ⟨d', hd'⟩ := loadFront_core l d
  rw [hd']
  refine (Reader.run_keeps (f := fun d : Device => d.cp0.count)
    (loadTlb_keeps fun _ _ _ => rfl) _).trans ?_
  rw [loadCore_count, List.drop_drop]
  rfl

/-- A store to a CP0 register does not touch the TLB. -/
theorem loadCore_lutR (l : List (BitVec 8)) (d : Device) (p : Page) :
    (Reader.run loadCore (l, d)).2.cp0.tlb.lutR p = u32.get (l.drop (p.toNat * 4)) := by
  have hregs : Reader.AllKeep (fun d : Device => d.cp0.tlb.lutR p)
      (getRegs setCp0Reg Cp0Reg.block) := allKeep_getRegs fun _ _ _ _ => rfl
  rw [loadCore, Reader.run_append, Reader.run_append, Reader.run_keeps loadCp1_keeps]
  refine (Reader.run_keeps hregs _).trans ?_
  rfl

/-- The table of readable pages is read from the file. -/
theorem loadFront_lutR (l : List (BitVec 8)) (d : Device) (p : Page) :
    (Reader.run loadFront (l, d)).2.cp0.tlb.lutR p =
      u32.get (l.drop (lutROffset + p.toNat * 4)) := by
  obtain ⟨d', hd'⟩ := loadFront_core l d
  rw [hd']
  refine (Reader.run_keeps (f := fun d : Device => d.cp0.tlb.lutR p)
    (loadTlb_keeps fun _ _ _ => rfl) _).trans ?_
  rw [loadCore_lutR, List.drop_drop]

-- ════════════════════
-- The jump to the saved program counter
-- ════════════════════

/-- Where the core goes on from: the fields of the core that decide what it executes next. -/
structure CoreOutcome where
  pc : BitVec 32
  skipJump : BitVec 32
  delaySlot : BitVec 32
  events : List InterruptEvent
  nextInterrupt : BitVec 32
  cycleCount : BitVec 32

def coreOutcome (d : Device) : CoreOutcome where
  pc := d.r4300.pc
  skipJump := d.r4300.skipJump
  delaySlot := d.r4300.delaySlot
  events := d.cp0.q.events
  nextInterrupt := d.cp0.nextInterrupt
  cycleCount := d.cp0.cycleCount

/-- The fields of the outcome that the jump sets or leaves alone. -/
def jumpState (d : Device) : BitVec 32 × BitVec 32 × BitVec 32 :=
  (d.r4300.pc, d.r4300.skipJump, d.r4300.delaySlot)

theorem loadTail_run (l : List (BitVec 8)) (d : Device) :
    jumpState (Reader.run loadTail (l, d)).2 = jumpState (savestatesLoadSetPc (u32.get l) d) ∧
      (Reader.run loadTail (l, d)).2.cp0.count =
        (savestatesLoadSetPc (u32.get l) d).cp0.count := by
  constructor <;> rfl

end Device

-- ════════════════════
-- Jumps
-- ════════════════════

/-- The address an entry of `LUT_r` translates to. -/
def lutAddress (word address : BitVec 32) : BitVec 32 :=
  (word &&& 0xFFFFF000) ||| (address &&& 0xFFF)

/-- A jump to `address` leaves the program counter there, `word` being the entry of its page in
    `LUT_r`. The pure interpreter always jumps. The cached one does not while `skip_jump` is set,
    nor when the page has no translation, and it drops the two low bits. -/
def LandsOn (r : R4300) (word address : BitVec 32) : Prop :=
  r.emumode = .pureInterpreter ∨
    (if r.skipJump ≠ 0 then r.pc = address
    else if isUnmapped address then address &&& 0xfffffffc = address
    else if word = 0 then r.ignoreTlbExceptions = 2 ∧ r.pc = address
    else if lutAddress word address = 0 then r.pc = address
    else address &&& 0xfffffffc = address)

/-- An exception of an instruction fetch ends in its vector. -/
theorem tlbRefillException_fetch_pc {r : R4300} (hskip : r.skipJump = 0) (address : BitVec 32) :
    isUnmapped (tlbRefillException r address .fetch).pc = true := by
  obtain ⟨r₁, r₂, vector, ⟨regs, -, h₁⟩, ⟨regs', -, h₂⟩, hvec, h⟩ :=
    tlbRefillException_fetch r address
  have hskip₁ : r₁.skipJump = 0 := by rw [h₁]; exact hskip
  have hpc : isUnmapped (jumpUnmapped r₁ vector).pc = true := by
    rw [jumpUnmapped_pc, hskip₁]
    rcases hvec with rfl | rfl <;> cases r₁.emumode <;> simp [isUnmapped]
  rw [h, exceptionEpilog_pc, h₂]
  exact hpc

/-- Outside of a delay slot it asks for no jump later on. -/
theorem tlbRefillException_fetch_skipJump {r : R4300} (hdelay : r.delaySlot = 0)
    (address : BitVec 32) :
    (tlbRefillException r address .fetch).skipJump = r.skipJump := by
  obtain ⟨r₁, r₂, vector, ⟨regs, -, h₁⟩, ⟨regs', -, h₂⟩, -, h⟩ := tlbRefillException_fetch r address
  have hepilog : exceptionEpilog (syncLastAddr r₂) = syncLastAddr r₂ := by
    rw [exceptionEpilog, if_neg]
    rw [h₂]
    simp [syncLastAddr, h₁, hdelay]
  rw [h, hepilog, h₂]
  exact (jumpUnmapped_skipJump r₁ vector).trans (by rw [h₁])

theorem tlbRefillException_fetch_frame (r : R4300) (address : BitVec 32) :
    (tlbRefillException r address .fetch).delaySlot = r.delaySlot ∧
      (tlbRefillException r address .fetch).cp0.count = r.cp0.count := by
  obtain ⟨r₁, r₂, vector, h₁, h₂, -, h⟩ := tlbRefillException_fetch r address
  have hcount : r₂.cp0.count = r.cp0.count := by
    rw [h₂.count, jumpUnmapped_cp0, h₁.count]
  obtain ⟨regs, -, rfl⟩ := h₁
  obtain ⟨regs', -, rfl⟩ := h₂
  rw [h, exceptionEpilog_delaySlot, Cp0.count, exceptionEpilog_regs]
  exact ⟨jumpUnmapped_delaySlot _ vector, hcount⟩

/-- A mapped jump of the cached interpreter either stops in front of the program counter, or raises
    an exception, or jumps. -/
theorem genericJumpTo_mapped {r : R4300} {address : BitVec 32} (hmode : r.emumode = .interpreter)
    (hmap : isUnmapped address = false) (hskip : r.skipJump = 0) :
    let word := r.cp0.tlb.lutR (pageOf address)
    let paddr := lutAddress word address
    (word = 0 ∧ r.ignoreTlbExceptions ≠ 2 ∧
        genericJumpTo r address = tlbRefillException r address .fetch ∧
        (tlbRefillException r address .fetch).pc ≠ address) ∨
      ((word = 0 ∧ r.ignoreTlbExceptions = 2 ∨ word ≠ 0 ∧ paddr = 0) ∧
        genericJumpTo r address = r) ∨
      (word ≠ 0 ∧ paddr ≠ 0 ∧
        ∃ ci, genericJumpTo r address =
          { r with cachedInterp := ci, pc := address &&& 0xfffffffc }) := by
  intro word paddr
  have hjump : genericJumpTo r address =
      let t := virtualToPhysicalAddress r address .fetch
      if t.1 = 0 then t.2
      else
        let ci := t.2.cachedInterp.updateInvalidMapped address t.1
        let ci := if ci.invalidCode (pageOf address) then
            ci.initBlockMapped address (t.1 &&& 0xfffff000)
          else ci
        { t.2 with cachedInterp := ci, pc := address &&& 0xfffffffc } := by
    rw [genericJumpTo, if_neg (by simp [hmode, hmap]), if_neg (by simp [hskip])]
  have hlookup : r.cp0.tlb.lookup address .fetch = if word ≠ 0 then some paddr else none := rfl
  by_cases hword : word = 0
  · rw [if_neg (not_not_intro hword)] at hlookup
    simp only [hjump, virtualToPhysicalAddress, hlookup, if_true]
    by_cases hignore : r.ignoreTlbExceptions = 2
    · exact Or.inr (Or.inl ⟨Or.inl ⟨hword, hignore⟩, by rw [if_pos hignore]⟩)
    · refine Or.inl ⟨hword, hignore, by rw [if_neg hignore], ?_⟩
      intro heq
      have hun := tlbRefillException_fetch_pc hskip address
      rw [heq, hmap] at hun
      exact Bool.false_ne_true hun
  · rw [if_pos hword] at hlookup
    simp only [hjump, virtualToPhysicalAddress, hlookup]
    by_cases hpaddr : paddr = 0
    · exact Or.inr (Or.inl ⟨Or.inr ⟨hword, hpaddr⟩, by rw [if_pos hpaddr]⟩)
    · exact Or.inr (Or.inr ⟨hword, hpaddr, _, by rw [if_neg hpaddr]⟩)

theorem genericJumpTo_pc_iff (r : R4300) (address : BitVec 32) :
    (genericJumpTo r address).pc = address ↔
      LandsOn r (r.cp0.tlb.lutR (pageOf address)) address := by
  unfold LandsOn
  by_cases hmode : r.emumode = .pureInterpreter
  · rw [genericJumpTo, if_pos (Or.inl hmode), jumpUnmapped_pc, if_pos hmode]
    simp [hmode]
  have hmode' : r.emumode = .interpreter := by
    cases h : r.emumode
    · exact absurd h hmode
    · rfl
  by_cases hskip : r.skipJump = 0
  · rw [if_neg (not_not_intro hskip)]
    cases hmap : isUnmapped address with
    | true =>
      rw [genericJumpTo, if_pos (Or.inr hmap), jumpUnmapped_pc, if_neg hmode,
        if_neg (not_not_intro hskip)]
      simp [hmode]
    | false =>
      rcases genericJumpTo_mapped hmode' hmap hskip with
        ⟨hword, hignore, hj, hne⟩ | ⟨hstay, hj⟩ | ⟨hword, hpaddr, ci, hj⟩
      · rw [hj, if_pos hword]
        simp only [hmode, hignore, hne, false_and, or_self, Bool.false_eq_true, if_false]
      · rw [hj]
        rcases hstay with ⟨hword, hignore⟩ | ⟨hword, hpaddr⟩
        · rw [if_pos hword]
          simp only [hmode, hignore, true_and, false_or, Bool.false_eq_true, if_false]
        · rw [if_neg hword, if_pos hpaddr]
          simp only [hmode, false_or, Bool.false_eq_true, if_false]
      · rw [hj, if_neg hword, if_neg hpaddr]
        simp only [hmode, false_or, Bool.false_eq_true, if_false]
  · have hstay : (genericJumpTo r address).pc = r.pc := by
      rw [genericJumpTo]
      split
      · rw [jumpUnmapped_pc, if_neg hmode, if_pos hskip]
      · rfl
    rw [hstay, if_pos hskip]
    simp only [hmode, false_or]

/-- A jump keeps the delay slot, COUNT and, outside of delay slots, `skip_jump`. -/
theorem genericJumpTo_frame (r : R4300) (address : BitVec 32) :
    (genericJumpTo r address).delaySlot = r.delaySlot ∧
      (genericJumpTo r address).cp0.count = r.cp0.count ∧
        (r.delaySlot = 0 → (genericJumpTo r address).skipJump = r.skipJump) := by
  by_cases hun : r.emumode = .pureInterpreter ∨ isUnmapped address
  · rw [genericJumpTo, if_pos hun, jumpUnmapped_cp0]
    exact ⟨jumpUnmapped_delaySlot r address, rfl, fun _ => jumpUnmapped_skipJump r address⟩
  by_cases hskip : r.skipJump = 0
  · have hmode : r.emumode = .interpreter := by
      cases h : r.emumode
      · exact absurd (Or.inl h) hun
      · rfl
    have hmap : isUnmapped address = false := by
      cases h : isUnmapped address
      · rfl
      · exact absurd (Or.inr h) hun
    rcases genericJumpTo_mapped hmode hmap hskip with ⟨-, -, hj, -⟩ | ⟨-, hj⟩ | ⟨-, -, ci, hj⟩
    · rw [hj]
      obtain ⟨hdelay, hcount⟩ := tlbRefillException_fetch_frame r address
      exact ⟨hdelay, hcount, fun h => tlbRefillException_fetch_skipJump h address⟩
    · rw [hj]
      exact ⟨rfl, rfl, fun _ => rfl⟩
    · rw [hj]
      exact ⟨rfl, rfl, fun _ => rfl⟩
  · have hj : genericJumpTo r address = r := by
      simp only [genericJumpTo, hun, if_false, ne_eq, hskip, not_false_eq_true, if_true]
    rw [hj]
    exact ⟨rfl, rfl, fun _ => rfl⟩

-- ════════════════════
-- The event queue
-- ════════════════════

/-- Two cores whose queues go on alike: the cached pair counts once something is queued. -/
structure QueueAlike (c c' : Cp0) : Prop where
  q : c.q = c'.q
  count : c.count = c'.count
  cached : c.q.events ≠ [] → c.nextInterrupt = c'.nextInterrupt ∧ c.cycleCount = c'.cycleCount

/-- What is linked into an empty queue does not depend on the base. -/
theorem linkEvent_congr {c c' : Cp0} (h : QueueAlike c c') (e : InterruptEvent) :
    linkEvent c e = linkEvent c' e := by
  cases hev : c.q.events with
  | nil =>
    have hev' : c'.q.events = [] := h.q ▸ hev
    simp only [linkEvent, hev, hev', insertEvent]
  | cons a l =>
    obtain ⟨-, hcycle⟩ := h.cached (by simp [hev])
    have hbase : c.base = c'.base := by
      rw [Cp0.base, Cp0.base, hcycle, h.count]
    simp only [linkEvent, beforeEvent, hbase, h.q]

theorem refresh_alike {c c' : Cp0} (hq : c.q = c'.q) (hcount : c.count = c'.count) :
    QueueAlike c.refresh c'.refresh := by
  refine ⟨by rw [refresh_q, refresh_q, hq], ?_, fun _ => ?_⟩
  · rw [Cp0.count, Cp0.count, refresh_regs, refresh_regs]
    exact hcount
  · unfold Cp0.refresh
    rw [hq]
    cases c'.q.events with
    | nil => exact ⟨rfl, rfl⟩
    | cons e l => exact ⟨rfl, congrArg (· - e.count) hcount⟩

theorem QueueAlike.add {c c' : Cp0} (h : QueueAlike c c') (type : IntType) (count : BitVec 32) :
    QueueAlike (addInterruptEventCount c type count) (addInterruptEventCount c' type count) := by
  have hlink := linkEvent_congr h ⟨type, count⟩
  unfold addInterruptEventCount
  by_cases hlt : c.q.events.length < poolCapacity
  · have hlt' : c'.q.events.length < poolCapacity := h.q ▸ hlt
    rw [dif_pos hlt, dif_pos hlt']
    apply refresh_alike
    · rw [InterruptQueue.mk.injEq, hlink]
    · exact h.count
  · have hlt' : ¬c'.q.events.length < poolCapacity := h.q ▸ hlt
    rw [dif_neg hlt, dif_neg hlt']
    exact h

theorem QueueAlike.remove {c c' : Cp0} (h : QueueAlike c c') (type : IntType) :
    QueueAlike { c with q := removeEvent c.q type } { c' with q := removeEvent c'.q type } := by
  refine ⟨congrArg (removeEvent · type) h.q, h.count, ?_⟩
  intro hne
  apply h.cached
  intro hnil
  apply hne
  simp [hnil]

theorem QueueAlike.loadEvents {c c' : Cp0} (h : QueueAlike c c') (fuel : ℕ)
    (buf : List (BitVec 8)) : QueueAlike (loadEvents fuel buf c) (loadEvents fuel buf c') := by
  induction fuel generalizing buf c c' with
  | zero => exact h
  | succ fuel ih =>
    unfold Mupen64plus.loadEvents
    split
    · exact h
    · exact ih (h.add _ _) _

/-- Something is queued after an insertion. -/
theorem addInterruptEventCount_ne_nil (c : Cp0) (type : IntType) (count : BitVec 32) :
    (addInterruptEventCount c type count).q.events ≠ [] := by
  intro hnil
  have hlen := congrArg List.length hnil
  rw [addInterruptEventCount_events] at hlen
  split at hlen
  · rw [length_linkEvent] at hlen
    simp at hlen
  · next hfull =>
    rw [List.length_nil] at hlen
    exact hfull (by rw [hlen]; decide)

/-- The queue after a load is a function of the file and of COUNT, which is in the file. -/
theorem loadEventqueueInfos_alike {c c' : Cp0} (hcount : c.count = c'.count)
    (buf : List (BitVec 8)) :
    (loadEventqueueInfos c buf).q = (loadEventqueueInfos c' buf).q ∧
      (loadEventqueueInfos c buf).nextInterrupt = (loadEventqueueInfos c' buf).nextInterrupt ∧
      (loadEventqueueInfos c buf).cycleCount = (loadEventqueueInfos c' buf).cycleCount := by
  have hclear : QueueAlike { c with q := clearQueue } { c' with q := clearQueue } :=
    ⟨rfl, hcount, fun hne => absurd rfl hne⟩
  have hloaded := (hclear.loadEvents 128 buf).remove .special
  have h : QueueAlike (loadEventqueueInfos c buf) (loadEventqueueInfos c' buf) := by
    have hadd := hloaded.add .special (specialCount (Mupen64plus.loadEvents 128 buf
      { c with q := clearQueue }).count)
    have hc := hloaded.count
    unfold loadEventqueueInfos
    simp only at hc hadd ⊢
    rw [show (Mupen64plus.loadEvents 128 buf { c' with q := clearQueue }).count = _ from hc.symm]
    exact hadd
  obtain ⟨hnext, hcycle⟩ := h.cached (addInterruptEventCount_ne_nil _ _ _)
  exact ⟨h.q, hnext, hcycle⟩

-- ════════════════════
-- The rest of the file
-- ════════════════════

namespace Device

theorem loadExtraHead_keeps : Reader.AllKeep (fun d => d.r4300) loadExtraHead := by
  simp only [loadExtraHead, Reader.allKeep_cons, Reader.allKeep_nil, and_true]
  and_intros
  all_goals first
    | exact Reader.keeps_field fun _ _ => rfl
    | exact Reader.keeps_skip _ _

theorem loadRumble_keeps (i : Fin 4) : Reader.Keeps (fun d => d.r4300) (loadRumble i) := by
  apply Reader.keeps_field
  intro v d
  split <;> rfl

theorem loadTransferPak_keeps (i : Fin 4) :
    Reader.Keeps (fun d => d.r4300) (loadTransferPak i) := by
  intro s
  simp only [loadTransferPak]
  split
  · rfl
  · rfl

theorem loadChannel_keeps (o : Outside) (k : Fin 5) :
    Reader.Keeps (fun d => d.r4300) (loadChannel o k) := by
  apply Reader.keeps_field
  intro v d
  split <;> rfl

theorem loadDdFields_keeps : Reader.AllKeep (fun d => d.r4300) loadDdFields := by
  simp only [loadDdFields, Reader.allKeep_append, Reader.allKeep_cons, Reader.allKeep_nil, and_true]
  and_intros
  all_goals first
    | exact allKeep_getRegs fun _ _ _ _ => rfl
    | exact Reader.keeps_field fun _ _ => rfl
    | exact Reader.keeps_act fun _ => rfl

theorem loadDd_keeps : Reader.Keeps (fun d => d.r4300) loadDd := by
  intro s
  simp only [loadDd]
  split
  · exact Reader.run_keeps loadDdFields_keeps _
  · rfl

theorem loadSpDma_keeps (i : Fin 2) : Reader.AllKeep (fun d => d.r4300) (loadSpDma i) := by
  simp only [loadSpDma, Reader.allKeep_cons, Reader.allKeep_nil, and_true]
  and_intros
  all_goals exact Reader.keeps_field fun _ _ => rfl

theorem loadFlashram_keeps : Reader.AllKeep (fun d => d.r4300) loadFlashram := by
  simp only [loadFlashram, Reader.allKeep_cons, Reader.allKeep_nil, and_true]
  and_intros
  all_goals exact Reader.keeps_field fun _ _ => rfl

theorem loadExtraRcp_keeps : Reader.AllKeep (fun d => d.r4300) loadExtraRcp := by
  simp only [loadExtraRcp, Reader.allKeep_cons, Reader.allKeep_nil, and_true]
  and_intros
  all_goals exact Reader.keeps_field fun _ _ => rfl

/-- The outcome does not read the latches. -/
theorem loadLatches_keeps : Reader.AllKeep coreOutcome loadLatches := by
  simp only [loadLatches, Reader.allKeep_cons, Reader.allKeep_nil, and_true]
  and_intros
  all_goals exact Reader.keeps_field fun _ _ => rfl

theorem keeps_coreOutcome {step : Reader Device} (h : Reader.Keeps (fun d => d.r4300) step) :
    Reader.Keeps coreOutcome step := by
  intro s
  simp only [coreOutcome, Device.cp0, h s]

theorem allKeep_coreOutcome {steps : List (Reader Device)}
    (h : Reader.AllKeep (fun d => d.r4300) steps) : Reader.AllKeep coreOutcome steps :=
  fun step hstep => keeps_coreOutcome (h step hstep)

theorem loadExtra_keeps (o : Outside) (version : BitVec 32) :
    Reader.AllKeep coreOutcome (loadExtra o version) := by
  have hif : ∀ {c : Prop} [Decidable c] {xs ys : List (Reader Device)},
      Reader.AllKeep coreOutcome xs → Reader.AllKeep coreOutcome ys →
        Reader.AllKeep coreOutcome (if c then xs else ys) := by
    intro c _ xs ys hx hy
    split
    · exact hx
    · exact hy
  have hnil := Reader.allKeep_nil (σ := Device) coreOutcome
  have hone : ∀ {step : Reader Device}, Reader.Keeps coreOutcome step →
      Reader.AllKeep coreOutcome [step] := fun h => (Reader.allKeep_cons _ _ _).mpr ⟨h, hnil⟩
  simp only [loadExtra, Reader.allKeep_append]
  refine ⟨allKeep_coreOutcome loadExtraHead_keeps, ?_, ?_, ?_,
    allKeep_coreOutcome loadExtraRcp_keeps, ?_, ?_, ?_, ?_, ?_, ?_⟩
  · exact Reader.allKeep_map _ fun i _ => keeps_coreOutcome (loadRumble_keeps i)
  · exact Reader.allKeep_map _ fun i _ => keeps_coreOutcome (loadTransferPak_keeps i)
  · exact Reader.allKeep_map _ fun k _ => keeps_coreOutcome (loadChannel_keeps o k)
  · exact Reader.allKeep_flatMap _ fun i => allKeep_getRegs fun _ _ _ _ => rfl
  · exact hif (hone (keeps_coreOutcome loadDd_keeps)) hnil
  · exact hif (hone (Reader.keeps_skip _ _)) hnil
  · refine hif ((Reader.allKeep_append _ _ _).mpr ⟨?_, ?_⟩) (hone (Reader.keeps_act fun _ => rfl))
    · exact allKeep_coreOutcome (loadSpDma_keeps 0)
    · exact allKeep_coreOutcome (loadSpDma_keeps 1)
  · exact hif (allKeep_coreOutcome loadFlashram_keeps) hnil
  · exact hif loadLatches_keeps hnil

-- ════════════════════
-- Two loads of one file
-- ════════════════════

/-- `gen_interrupt` is called with a job that loads a file of version 1.9, and loads it. -/
structure Loads (o : Outside) (data : List (BitVec 8)) (d : Device) : Prop where
  job : o.job = .load data
  safe : d.cp0.interruptUnsafeState = 0
  accepted : d.headerAccepted data = true
  version : savestateVersion data = savestateLatestVersion

/-- The instruction executed next is the one at the saved program counter: it is the current one,
    and no branch is left to finish in front of it. -/
def AtSavedPc (data : List (BitVec 8)) (d : Device) : Prop :=
  d.r4300.pc = savedPc data ∧ d.r4300.delaySlot = 0

/-- The jump of the loader reaches the program counter of the file. -/
def LandsOnSaved (data : List (BitVec 8)) (d : Device) : Prop :=
  LandsOn d.r4300 (savedLutR data (pageOf (savedPc data))) (savedPc data)

/-- The header a saver writes is one that a loader of the same ROM goes on from. -/
theorem headerAccepted_saveHeader {d e : Device} (hmd5 : e.settings.md5 = d.settings.md5)
    (rest : List (BitVec 8)) :
    e.headerAccepted (d.saveHeader ++ rest) = true ∧
      savestateVersion (d.saveHeader ++ rest) = savestateLatestVersion ∧
        (d.saveHeader ++ rest).drop 44 = rest := by
  have hlen : ((array u8 32).put d.settings.md5).length = 32 := (array u8 32).length_put _
  have hdrop : (d.saveHeader ++ rest).drop 12 = (array u8 32).put d.settings.md5 ++ rest := by
    rw [saveHeader, List.append_assoc]
    exact List.drop_left' rfl
  have hversion : savestateVersion (d.saveHeader ++ rest) = savestateLatestVersion := by
    have hget := u32.get_put savestateLatestVersion []
    rw [List.append_nil] at hget
    have hmagic : savestateMagic.length = 8 := rfl
    have hword : (u32.put savestateLatestVersion).reverse.length = 4 := rfl
    rw [saveHeader, List.append_assoc, List.append_assoc, savestateVersion, List.drop_left' hmagic,
      List.take_left' hword, List.reverse_reverse, hget]
  have htake : (d.saveHeader ++ rest).take 8 = savestateMagic := by
    rw [saveHeader, List.append_assoc, List.append_assoc]
    exact List.take_left' rfl
  refine ⟨?_, hversion, ?_⟩
  · rw [headerAccepted, hversion, hdrop, htake, hmd5, List.take_left' hlen]
    simp
  · rw [show 44 = 12 + 32 from rfl, ← List.drop_drop, hdrop]
    exact List.drop_left' hlen

/-- The core when the loader jumps. -/
def beforeJump (data : List (BitVec 8)) (d : Device) : Device :=
  (Reader.run loadFront (savedMain data, d)).2

/-- The device when the loader reads the event queue. -/
def behindMain (data : List (BitVec 8)) (d : Device) : Device :=
  (Reader.run loadMain (savedMain data, d)).2

theorem beforeJump_core (data : List (BitVec 8)) (d : Device) :
    unsavedCore (beforeJump data d) = unsavedCore d := loadFront_unsavedCore _

theorem behindMain_jump (data : List (BitVec 8)) (d : Device) :
    jumpState (behindMain data d) =
        jumpState (savestatesLoadSetPc (savedPc data) (beforeJump data d)) ∧
      (behindMain data d).cp0.count = savedWord data countOffset := by
  have hcur := loadFront_fst (savedMain data, d)
  have hcount : (beforeJump data d).cp0.count = savedWord data countOffset := by
    rw [beforeJump, loadFront_count, savedWord]
  have hrun : Reader.run loadMain (savedMain data, d) =
      Reader.run loadTail ((savedMain data).drop pcOffset, beforeJump data d) := by
    rw [loadMain_eq, Reader.run_append, ← hcur, beforeJump]
  have hpc : u32.get ((savedMain data).drop pcOffset) = savedPc data := by
    rw [savedPc, savedWord]
  obtain ⟨hjump, hc⟩ := loadTail_run ((savedMain data).drop pcOffset) (beforeJump data d)
  rw [hpc] at hjump hc
  rw [behindMain, hrun]
  refine ⟨hjump, hc.trans ?_⟩
  obtain ⟨ci, hci⟩ := invalidateR4300CachedCode_eq
    (genericJumpTo (beforeJump data d).r4300 (savedPc data)) 0 0
  have hset : (savestatesLoadSetPc (savedPc data) (beforeJump data d)).cp0.count =
      (genericJumpTo (beforeJump data d).r4300 (savedPc data)).cp0.count := by
    simp only [savestatesLoadSetPc, invalidate, onR4300_r4300, hci, Device.cp0]
  rw [hset, (genericJumpTo_frame _ _).2.1]
  simpa only [Device.cp0] using hcount

theorem loadFinish_outcome (d : Device) : coreOutcome d.loadFinish = coreOutcome d := rfl

/-- The device with the event queue of the file. -/
def behindQueue (data : List (BitVec 8)) (d : Device) : Device :=
  (behindMain data d).onCp0 fun c =>
    loadEventqueueInfos c (((data.drop 44).drop savestateSize).take 1024)

/-- What is read behind the queue does not change where the core goes on from. -/
theorem loadBody_outcome (o : Outside) (version : BitVec 32) (data : List (BitVec 8)) (d : Device) :
    coreOutcome (loadBody o version (data.drop 44) d) = coreOutcome (behindQueue data d) := by
  have hkeeps := Reader.run_keeps (loadExtra_keeps o version)
  unfold loadBody behindQueue behindMain savedMain
  simp only
  rw [loadFinish_outcome, hkeeps]

theorem savestatesLoad_outcome {o : Outside} {data : List (BitVec 8)} {d : Device}
    (haccepted : d.headerAccepted data = true)
    (hversion : savestateVersion data = savestateLatestVersion) :
    coreOutcome (savestatesLoad o data d) = coreOutcome (behindQueue data d) := by
  have hnew : ¬savestateVersion data < 0x00010300 := by rw [hversion]; decide
  have hload : savestatesLoadM64p o data d =
      .loaded (loadBody o (savestateVersion data) (data.drop 44) d) := by
    rw [savestatesLoadM64p, haccepted, if_neg (by decide), if_neg hnew]
  rw [savestatesLoad, hload]
  exact loadBody_outcome o _ data d

/-- A load that is asked for and safe comes before everything else `gen_interrupt` does. -/
theorem genInterrupt_job {o : Outside} {data : List (BitVec 8)} (d : Device)
    (hjob : o.job = .load data) (hsafe : d.cp0.interruptUnsafeState = 0) :
    genInterrupt o d =
      savestatesLoad o data (if d.r4300.stop then { d with gsViCounter := 0 } else d) := by
  have hsafe' : (if d.r4300.stop then { d with gsViCounter := 0 } else d).cp0.interruptUnsafeState
      = 0 := by
    split
    · exact hsafe
    · exact hsafe
  unfold genInterrupt
  simp only [hjob, hsafe', beq_self_eq_true]

/-- The core as the loader leaves it, called from `gen_interrupt`. -/
theorem genInterrupt_load {o : Outside} {data : List (BitVec 8)} {d : Device}
    (h : Loads o data d) :
    ∃ d', d'.r4300 = d.r4300 ∧ coreOutcome (genInterrupt o d) =
      coreOutcome (behindQueue data d') := by
  rw [genInterrupt_job d h.job h.safe]
  split
  · have haccepted : headerAccepted { d with gsViCounter := 0 } data = true := h.accepted
    exact ⟨{ d with gsViCounter := 0 }, rfl, savestatesLoad_outcome haccepted h.version⟩
  · exact ⟨d, rfl, savestatesLoad_outcome h.accepted h.version⟩

theorem savestatesLoadSetPc_jumpState (pc : BitVec 32) (d : Device) :
    jumpState (savestatesLoadSetPc pc d) =
      ((genericJumpTo d.r4300 pc).pc, (genericJumpTo d.r4300 pc).skipJump,
        (genericJumpTo d.r4300 pc).delaySlot) := by
  obtain ⟨ci, hci⟩ := invalidateR4300CachedCode_eq (genericJumpTo d.r4300 pc) 0 0
  simp only [jumpState, savestatesLoadSetPc, invalidate, onR4300_r4300, hci]

/-- The jump sees the table of the file and what the old run left. -/
theorem landsOn_beforeJump (data : List (BitVec 8)) (d : Device) :
    LandsOn (beforeJump data d).r4300 ((beforeJump data d).r4300.cp0.tlb.lutR
      (pageOf (savedPc data))) (savedPc data) ↔ LandsOnSaved data d := by
  have hlut : (beforeJump data d).r4300.cp0.tlb.lutR (pageOf (savedPc data)) =
      savedLutR data (pageOf (savedPc data)) := by
    have h := loadFront_lutR (savedMain data) d (pageOf (savedPc data))
    rw [savedLutR, savedWord, ← h, beforeJump]
  have hcore := beforeJump_core data d
  simp only [unsavedCore, Prod.mk.injEq] at hcore
  obtain ⟨hskip, -, hmode, hpc, hignore⟩ := hcore
  rw [hlut]
  unfold LandsOnSaved LandsOn
  rw [hskip, hmode, hpc, hignore]

/-- The core after a load, in the terms of the file and of the core before it. -/
theorem genInterrupt_load_outcome {o : Outside} {data : List (BitVec 8)} {d : Device}
    (h : Loads o data d) :
    (genInterrupt o d).r4300.delaySlot = d.r4300.delaySlot ∧
      (d.r4300.delaySlot = 0 → (genInterrupt o d).r4300.skipJump = d.r4300.skipJump) ∧
        ((genInterrupt o d).r4300.pc = savedPc data ↔ LandsOnSaved data d) := by
  obtain ⟨d', hr, hout⟩ := genInterrupt_load h
  obtain ⟨hjump, -⟩ := behindMain_jump data d'
  rw [savestatesLoadSetPc_jumpState] at hjump
  obtain ⟨hframe, -, hskip⟩ := genericJumpTo_frame (beforeJump data d').r4300 (savedPc data)
  have hlands := (genericJumpTo_pc_iff (beforeJump data d').r4300 (savedPc data)).trans
    (landsOn_beforeJump data d')
  have hcore := beforeJump_core data d'
  simp only [unsavedCore, Prod.mk.injEq] at hcore
  obtain ⟨hskip', hdelay', -⟩ := hcore
  have hqueue : jumpState (behindQueue data d') = jumpState (behindMain data d') := by
    rw [behindQueue]
    simp only [jumpState, onCp0]
  simp only [coreOutcome, CoreOutcome.mk.injEq] at hout
  obtain ⟨hpc, hskipJump, hdelaySlot, -⟩ := hout
  rw [← hqueue] at hjump
  simp only [jumpState, Prod.mk.injEq] at hjump
  obtain ⟨hpcJump, hskipJ, hdelayJ⟩ := hjump
  refine ⟨?_, ?_, ?_⟩
  · rw [hdelaySlot, hdelayJ, hframe, hdelay', hr]
  · intro hzero
    rw [hskipJump, hskipJ, hskip (by rw [hdelay', hr, hzero]), hskip', hr]
  · rw [hpc, hpcJump, hlands]
    unfold LandsOnSaved
    rw [hr]

/-- The queue after a load, with its cached pair, is the same in every run. -/
theorem genInterrupt_load_queue {o₁ o₂ : Outside} {data : List (BitVec 8)} {d₁ d₂ : Device}
    (h₁ : Loads o₁ data d₁) (h₂ : Loads o₂ data d₂) :
    (genInterrupt o₁ d₁).cp0.q.events = (genInterrupt o₂ d₂).cp0.q.events ∧
      (genInterrupt o₁ d₁).cp0.nextInterrupt = (genInterrupt o₂ d₂).cp0.nextInterrupt ∧
      (genInterrupt o₁ d₁).cp0.cycleCount = (genInterrupt o₂ d₂).cp0.cycleCount := by
  obtain ⟨d₁', -, hout₁⟩ := genInterrupt_load h₁
  obtain ⟨d₂', -, hout₂⟩ := genInterrupt_load h₂
  have hcount : (behindMain data d₁').cp0.count = (behindMain data d₂').cp0.count :=
    (behindMain_jump data d₁').2.trans (behindMain_jump data d₂').2.symm
  obtain ⟨hq, hnext, hcycle⟩ := loadEventqueueInfos_alike hcount
    (((data.drop 44).drop savestateSize).take 1024)
  simp only [coreOutcome, CoreOutcome.mk.injEq] at hout₁ hout₂
  obtain ⟨-, -, -, hev₁, hn₁, hc₁⟩ := hout₁
  obtain ⟨-, -, -, hev₂, hn₂, hc₂⟩ := hout₂
  rw [hev₁, hev₂, hn₁, hn₂, hc₁, hc₂]
  rw [behindQueue, behindQueue]
  simp only [Device.cp0, onCp0]
  exact ⟨congrArg InterruptQueue.events hq, hnext, hcycle⟩

/-- **Two loads of one file** go on alike, from the program counter of the file, exactly when
    neither finds a branch half done, both find the same `skip_jump`, and both jumps arrive. -/
theorem loads_agree_iff {o₁ o₂ : Outside} {data : List (BitVec 8)} {d₁ d₂ : Device}
    (h₁ : Loads o₁ data d₁) (h₂ : Loads o₂ data d₂) :
    (coreOutcome (genInterrupt o₁ d₁) = coreOutcome (genInterrupt o₂ d₂) ∧
        AtSavedPc data (genInterrupt o₁ d₁) ∧ AtSavedPc data (genInterrupt o₂ d₂)) ↔
      (d₁.r4300.delaySlot = 0 ∧ d₂.r4300.delaySlot = 0 ∧
        d₁.r4300.skipJump = d₂.r4300.skipJump ∧ LandsOnSaved data d₁ ∧ LandsOnSaved data d₂) := by
  obtain ⟨hdelay₁, hskip₁, hpc₁⟩ := genInterrupt_load_outcome h₁
  obtain ⟨hdelay₂, hskip₂, hpc₂⟩ := genInterrupt_load_outcome h₂
  obtain ⟨hev, hnext, hcycle⟩ := genInterrupt_load_queue h₁ h₂
  constructor
  · rintro ⟨hout, ⟨hat₁, hd₁⟩, ⟨hat₂, hd₂⟩⟩
    rw [hdelay₁] at hd₁
    rw [hdelay₂] at hd₂
    have hskip := congrArg CoreOutcome.skipJump hout
    simp only [coreOutcome] at hskip
    rw [hskip₁ hd₁, hskip₂ hd₂] at hskip
    exact ⟨hd₁, hd₂, hskip, hpc₁.mp hat₁, hpc₂.mp hat₂⟩
  · rintro ⟨hd₁, hd₂, hskip, hlands₁, hlands₂⟩
    have hat₁ := hpc₁.mpr hlands₁
    have hat₂ := hpc₂.mpr hlands₂
    refine ⟨?_, ⟨hat₁, hdelay₁.trans hd₁⟩, ⟨hat₂, hdelay₂.trans hd₂⟩⟩
    simp only [coreOutcome, CoreOutcome.mk.injEq]
    refine ⟨hat₁.trans hat₂.symm, ?_, ?_, hev, hnext, hcycle⟩
    · rw [hskip₁ hd₁, hskip₂ hd₂, hskip]
    · rw [hdelay₁, hdelay₂, hd₁, hd₂]

-- ════════════════════
-- A file with nothing but a program counter
-- ════════════════════

/-- The static device with a core of either kind. -/
def staticIn (emumode : EmuMode) : Device := staticDevice (initR4300 emumode 2 0 0xa4000040)

/-- A savestate whose every field is 0, except for the program counter. -/
def blankFile (pc : BitVec 32) : List (BitVec 8) :=
  (staticIn .pureInterpreter).saveHeader ++
    (List.replicate pcOffset 0 ++ (u32.put pc ++ List.replicate 5136 0))

/-- An outside that asks for this file to be loaded. -/
def loadOutside (pc : BitVec 32) : Outside := { quietOutside with job := .load (blankFile pc) }

theorem savedPc_blankFile (pc : BitVec 32) : savedPc (blankFile pc) = pc := by
  have hdrop : (blankFile pc).drop 44 =
      List.replicate pcOffset 0 ++ (u32.put pc ++ List.replicate 5136 0) :=
    (headerAccepted_saveHeader (e := staticIn .pureInterpreter) rfl _).2.2
  have htake : (u32.put pc ++ List.replicate 5136 0).take 16 =
      u32.put pc ++ List.replicate 12 0 := by
    rw [List.take_append, u32.length_put, List.take_of_length_le (by rw [u32.length_put]; decide)]
    rfl
  rw [savedPc, savedWord, savedMain, hdrop, List.drop_take, List.drop_left' List.length_replicate,
    show savestateSize - pcOffset = 16 from rfl, htake, u32.get_put]

theorem loads_blankFile (pc : BitVec 32) {d : Device} (hmd5 : d.settings.md5 = fun _ => 0)
    (hsafe : d.cp0.interruptUnsafeState = 0) :
    Loads (loadOutside pc) (blankFile pc) d := by
  obtain ⟨haccepted, hversion, -⟩ := headerAccepted_saveHeader (d := staticIn .pureInterpreter)
    (e := d) hmd5 (List.replicate pcOffset 0 ++ (u32.put pc ++ List.replicate 5136 0))
  exact ⟨rfl, hsafe, haccepted, hversion⟩

/-- Loaded into a fresh core of either kind, the file is taken up at its program counter. -/
theorem loads_agree_fresh :
    coreOutcome (genInterrupt (loadOutside 0x80001000) (staticIn .pureInterpreter)) =
        coreOutcome (genInterrupt (loadOutside 0x80001000) (staticIn .interpreter)) ∧
      AtSavedPc (blankFile 0x80001000)
        (genInterrupt (loadOutside 0x80001000) (staticIn .pureInterpreter)) ∧
      AtSavedPc (blankFile 0x80001000)
        (genInterrupt (loadOutside 0x80001000) (staticIn .interpreter)) := by
  have hlands : LandsOnSaved (blankFile 0x80001000) (staticIn .interpreter) := by
    rw [LandsOnSaved, savedPc_blankFile, LandsOn]
    exact Or.inr (by rw [if_neg (by decide), if_pos (by decide)]; decide)
  exact (loads_agree_iff (loads_blankFile 0x80001000 rfl rfl)
    (loads_blankFile 0x80001000 rfl rfl)).mpr
    ⟨rfl, rfl, rfl, Or.inl rfl, hlands⟩

/-- A core that an exception in a delay slot left with a pending jump keeps it through the load. -/
def pendingJump : Device :=
  (staticIn .pureInterpreter).onR4300 fun r => { r with skipJump := 0x80000180, pc := 0x80000180 }

/-- The same file leaves different cores behind, by the exception the old run was taking. -/
theorem loads_disagree :
    ¬∀ (o₁ o₂ : Outside) (data : List (BitVec 8)) (d₁ d₂ : Device), Loads o₁ data d₁ →
      Loads o₂ data d₂ →
        coreOutcome (genInterrupt o₁ d₁) = coreOutcome (genInterrupt o₂ d₂) ∧
          AtSavedPc data (genInterrupt o₁ d₁) ∧ AtSavedPc data (genInterrupt o₂ d₂) := by
  intro h
  have h₁ := loads_blankFile 0x80001000 (d := staticIn .pureInterpreter) rfl rfl
  have h₂ := loads_blankFile 0x80001000 (d := pendingJump) rfl rfl
  have hskip := congrArg CoreOutcome.skipJump (h _ _ _ _ _ h₁ h₂).1
  have hs₁ := (genInterrupt_load_outcome h₁).2.1 rfl
  have hs₂ := (genInterrupt_load_outcome h₂).2.1 rfl
  simp only [coreOutcome, hs₁, hs₂] at hskip
  exact absurd hskip (by decide)

end Device

end Mupen64plus
