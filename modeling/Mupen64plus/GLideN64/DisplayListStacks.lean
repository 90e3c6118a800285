import Mupen64plus.GLideN64.DisplayLists
import Mupen64plus.Lib.Runs

/-!
# The stacks of the display list interpreter

The end of a list and the counter of a counted list pop the same stack, each on its own. The
entries stay in the stack, and the reads in RDRAM, as long as no counter runs out where the list
below is gone, the words after a command are in RDRAM too, and the stack of matrices is not filled
to its last entry.

## Main definitions

- `DListState.Safe` — the stacks are inside their arrays, the reads of the last step inside RDRAM
- `DListState.PhaseFine`, `DListState.CommandFine`, `DListOp.Fine` — what a step has to meet

## Main results

- `DListState.execute_ready` — a command that is fine
- `DListOp.displayLists_safe` — every run whose steps are fine is safe
- `DListOp.displayLists_not_safe` — a counted list whose end comes early
-/

namespace Mupen64plus

/-- A read lies in RDRAM, and the address it goes by is one of the stack. -/
def DListFetch.Inside (size : RdramSize) (f : DListFetch) : Prop :=
  (∀ i ∈ f.slot, i < 18) ∧ f.address.toNat + f.bytes ≤ size.last.toNat + 1

namespace DListState

variable (size : RdramSize) (env : DListEnv) (s : DListState)

structure Safe : Prop where
  pci_lt : s.pci < s.ucode.pcStackSize
  pcStackSize_le : s.ucode.pcStackSize ≤ 18
  modelViewi_lt : s.modelViewi < 32
  fetched : ∀ f ∈ s.fetched, f.Inside size

/-- There is a list below one whose counter runs out now. -/
def Counted : Prop := s.count = 1 → s.pci ≠ 0

/-- Before a command: the address of the command does not wrap, and the word after it, or the one
    the list below has reached, lies in RDRAM. -/
structure FetchFine : Prop where
  counted : s.Counted
  top_le : s.top.toNat + 8 ≤ size.last.toNat
  next_le : if s.count = 1 then (s.pc (s.pci - 1)).toNat + 4 ≤ size.last.toNat + 1
    else s.top.toNat + 12 ≤ size.last.toNat + 1

/-- The bytes after a texture rectangle that are read for it. -/
def texRectBytes : ℕ :=
  match s.texRectMode env with
  | .gspTexRect => 16
  | _ => 12

/-- The stack of a new microcode holds the entries there are. -/
def LoadFine : UcodeLoad → Prop
  | .ours ucode => s.pci < ucode.pcStackSize
  | _ => True

/-- A command is fine after which there still is a list below one whose counter runs out, with
    room for the matrix it pushes, and with the words it goes on to read in RDRAM. -/
def CommandFine : DListCommand → Prop
  | .endDisplayList => s.count = 1 → s.pci ≠ 1
  | .cullDisplayList => env.culled = true → s.count = 1 → s.pci ≠ 1
  | .matrix mtx projection push =>
    projection = false → push = true → s.segmentToPhysical size mtx + 64 ≤ size.last →
      s.modelViewi = 31 → s.stackSize ≠ 32
  | .loadUcode => s.LoadFine env.loaded
  | .texRect => s.top.toNat + s.texRectBytes env ≤ size.last.toNat + 1
  | _ => True

/-- A turn of the loop of `RDP_Half_1`: its two words lie in RDRAM, in the list below if the counter
    runs out, and the counter may run out once more after the last. -/
structure TriangleFine : Prop where
  counted : s.Counted
  top_le : s.checkDLCounter.top.toNat + 8 ≤ size.last.toNat + 1
  last : (dlistWord env.rdram s.checkDLCounter.top).extractLsb' 24 8 = 0xB3 →
    s.checkDLCounter.Counted

/-- A turn of the loop of `_lookAhead`: its word lies in RDRAM, and so does the next, where it
    looks at the coordinates of a texture rectangle. -/
structure LookAheadFine (pc : BitVec 32) (checkCoordinates : Bool) : Prop where
  counted : s.Counted
  word : pc.toNat + 4 ≤ size.last.toNat + 1
  coordinates : (dlistWord env.rdram pc).extractLsb' 24 8 = 0xE4 ∨
    (dlistWord env.rdram pc).extractLsb' 24 8 = 0xE5 → checkCoordinates = true →
      pc.toNat + 8 ≤ size.last.toNat + 1

/-- What a turn of the interpreter has to meet. -/
def PhaseFine : DListPhase → Prop
  | .fetch => s.halt = false → s.top + 8 ≤ size.last →
      s.FetchFine size ∧ (s.setPc (s.top + 8)).CommandFine size env (s.command env)
  | .triangle => s.TriangleFine size env
  | .lookAhead pc checkCoordinates => s.LookAheadFine size env pc checkCoordinates
  | .done => True
  | .left => True

section Decidable

instance decidableCounted : Decidable s.Counted := by
  unfold Counted
  infer_instance

instance decidableFetchFine : Decidable (s.FetchFine size) :=
  decidable_of_iff (s.Counted ∧ s.top.toNat + 8 ≤ size.last.toNat ∧
      if s.count = 1 then (s.pc (s.pci - 1)).toNat + 4 ≤ size.last.toNat + 1
      else s.top.toNat + 12 ≤ size.last.toNat + 1)
    ⟨fun h => ⟨h.1, h.2.1, h.2.2⟩, fun h => ⟨h.counted, h.top_le, h.next_le⟩⟩

instance decidableTriangleFine : Decidable (s.TriangleFine size env) :=
  decidable_of_iff (s.Counted ∧ s.checkDLCounter.top.toNat + 8 ≤ size.last.toNat + 1 ∧
      ((dlistWord env.rdram s.checkDLCounter.top).extractLsb' 24 8 = 0xB3 →
        s.checkDLCounter.Counted))
    ⟨fun h => ⟨h.1, h.2.1, h.2.2⟩, fun h => ⟨h.counted, h.top_le, h.last⟩⟩

instance decidableLookAheadFine (pc : BitVec 32) (checkCoordinates : Bool) :
    Decidable (s.LookAheadFine size env pc checkCoordinates) :=
  decidable_of_iff (s.Counted ∧ pc.toNat + 4 ≤ size.last.toNat + 1 ∧
      ((dlistWord env.rdram pc).extractLsb' 24 8 = 0xE4 ∨
        (dlistWord env.rdram pc).extractLsb' 24 8 = 0xE5 → checkCoordinates = true →
          pc.toNat + 8 ≤ size.last.toNat + 1))
    ⟨fun h => ⟨h.1, h.2.1, h.2.2⟩, fun h => ⟨h.counted, h.word, h.coordinates⟩⟩

instance decidableLoadFine : ∀ loaded, Decidable (s.LoadFine loaded)
  | .ours ucode => inferInstanceAs (Decidable (s.pci < ucode.pcStackSize))
  | .unchanged | .other => .isTrue trivial

instance decidableCommandFine : ∀ command, Decidable (s.CommandFine size env command)
  | .endDisplayList => inferInstanceAs (Decidable (s.count = 1 → s.pci ≠ 1))
  | .cullDisplayList => inferInstanceAs (Decidable (env.culled = true → s.count = 1 → s.pci ≠ 1))
  | .matrix mtx projection push =>
    inferInstanceAs (Decidable (projection = false → push = true →
      s.segmentToPhysical size mtx + 64 ≤ size.last → s.modelViewi = 31 → s.stackSize ≠ 32))
  | .loadUcode => decidableLoadFine s env.loaded
  | .texRect =>
    inferInstanceAs (Decidable (s.top.toNat + s.texRectBytes env ≤ size.last.toNat + 1))
  | .displayList _ | .branchList _ | .branchLessZ | .dlistCount _ _ | .popMatrixN _
  | .forceMatrix _ _ | .dmaMatrix _ _ | .modelViewIndex _ | .segment _ _ | .setDMAOffsets _
  | .rdpHalf_1 _ | .other => .isTrue trivial

instance decidablePhaseFine : ∀ phase, Decidable (s.PhaseFine size env phase)
  | .fetch =>
    inferInstanceAs (Decidable (s.halt = false → s.top + 8 ≤ size.last →
      s.FetchFine size ∧ (s.setPc (s.top + 8)).CommandFine size env (s.command env)))
  | .triangle => decidableTriangleFine size env s
  | .lookAhead pc checkCoordinates => decidableLookAheadFine size env s pc checkCoordinates
  | .done | .left => .isTrue trivial

end Decidable

end DListState

def DListOp.Fine (size : RdramSize) (s : DListState) : DListOp → Prop
  | .next env => s.PhaseFine size env s.phase
  | .processDList _ => True

instance decidableDListOpFine (size : RdramSize) (s : DListState) :
    ∀ op, Decidable (DListOp.Fine size s op)
  | .next env => inferInstanceAs (Decidable (s.PhaseFine size env s.phase))
  | .processDList _ => .isTrue trivial

theorem DListUcode.pcStackSize_le (ucode : DListUcode) : ucode.pcStackSize ≤ 18 := by
  cases ucode <;> simp [DListUcode.pcStackSize]

theorem DListUcode.ten_le_pcStackSize (ucode : DListUcode) : 10 ≤ ucode.pcStackSize := by
  cases ucode <;> simp [DListUcode.pcStackSize]

theorem and_last_le (size : RdramSize) (a : BitVec 32) :
    (a &&& size.last).toNat ≤ size.last.toNat := by
  rw [BitVec.toNat_and]
  exact Nat.and_le_right

namespace DListState

variable {size : RdramSize} {env : DListEnv} {s : DListState}

/-- What the steps keep. -/
structure Inv (size : RdramSize) (s : DListState) : Prop where
  pci_lt : s.pci < s.ucode.pcStackSize
  modelViewi_lt : s.modelViewi < 32
  stackSize_le : s.stackSize ≤ 32
  fetched : ∀ f ∈ s.fetched, f.Inside size

/-- And what holds as long as a command is not over. -/
structure Ready (size : RdramSize) (s : DListState) : Prop extends Inv size s where
  counted : s.Counted

theorem Inv.safe (h : s.Inv size) : s.Safe size :=
  ⟨h.pci_lt, s.ucode.pcStackSize_le, h.modelViewi_lt, h.fetched⟩

theorem Inv.pci_lt_array (h : s.Inv size) : s.pci < 18 := by
  have hlt := h.pci_lt
  have hle := s.ucode.pcStackSize_le
  bv_omega

theorem segmentToPhysical_le (size : RdramSize) (s : DListState) (dl : BitVec 32) :
    (s.segmentToPhysical size dl).toNat ≤ size.last.toNat :=
  and_last_le size _

/-- All that the invariant looks at. -/
def stackView (s : DListState) :
    DListUcode × BitVec 32 × BitVec 32 × BitVec 32 × BitVec 32 × List DListFetch :=
  (s.ucode, s.pci, s.count, s.modelViewi, s.stackSize, s.fetched)

theorem Ready.congr {t : DListState} (h : s.Ready size) (hstacks : t.stackView = s.stackView) :
    t.Ready size := by
  simp only [stackView, Prod.mk.injEq] at hstacks
  obtain ⟨hucode, hpci, hcount, hmodel, hsize, hfetched⟩ := hstacks
  refine ⟨⟨?_, ?_, ?_, ?_⟩, ?_⟩
  · rw [hucode, hpci]; exact h.pci_lt
  · rw [hmodel]; exact h.modelViewi_lt
  · rw [hsize]; exact h.stackSize_le
  · rw [hfetched]; exact h.fetched
  · unfold Counted
    rw [hcount, hpci]
    exact h.counted

/-! ## Reads and addresses -/

theorem Inv.read (h : s.Inv size) {slot : Option (BitVec 32)} {address : BitVec 32} {bytes : ℕ}
    (hinside : DListFetch.Inside size ⟨slot, address, bytes⟩) :
    (s.read slot address bytes).Inv size := by
  refine ⟨h.pci_lt, h.modelViewi_lt, h.stackSize_le, fun f hf => ?_⟩
  rcases List.mem_append.mp hf with hf | hf
  · exact h.fetched f hf
  · rw [List.mem_singleton.mp hf]
    exact hinside

theorem Inv.readTop (h : s.Inv size) {offset : BitVec 32}
    (hinside : (s.top + offset).toNat + 4 ≤ size.last.toNat + 1) : (s.readTop offset).Inv size :=
  h.read ⟨fun _ hi => by cases hi; exact h.pci_lt_array, hinside⟩

theorem Ready.read (h : s.Ready size) {slot : Option (BitVec 32)} {address : BitVec 32} {bytes : ℕ}
    (hinside : DListFetch.Inside size ⟨slot, address, bytes⟩) :
    (s.read slot address bytes).Ready size :=
  ⟨h.toInv.read hinside, h.counted⟩

theorem Ready.readTop (h : s.Ready size) {offset : BitVec 32}
    (hinside : (s.top + offset).toNat + 4 ≤ size.last.toNat + 1) : (s.readTop offset).Ready size :=
  ⟨h.toInv.readTop hinside, h.counted⟩

theorem Ready.setPc (h : s.Ready size) (address : BitVec 32) : (s.setPc address).Ready size :=
  h.congr rfl

/-- The word at the address the list has reached. -/
theorem Ready.readNext (h : s.Ready size) (hinside : s.top.toNat + 4 ≤ size.last.toNat + 1) :
    (s.readTop 0).Ready size := by
  refine h.readTop ?_
  rw [show s.top + 0 = s.top from BitVec.add_zero s.top]
  exact hinside

@[simp] theorem top_setPc (address : BitVec 32) : (s.setPc address).top = address :=
  Function.update_self ..

@[simp] theorem top_readTop (offset : BitVec 32) : (s.readTop offset).top = s.top := rfl

/-- An address the interpreter has checked. -/
theorem inside_of_not_lt {address bytes : BitVec 32} (hle : address.toNat < 0x2000000)
    (hbytes : bytes.toNat ≤ 64) (h : ¬size.last < address + bytes) :
    address.toNat + bytes.toNat ≤ size.last.toNat := by
  have hlast := size.last_lt
  rw [BitVec.not_lt, BitVec.le_def, BitVec.toNat_add] at h
  omega

theorem segment_inside {dl bytes : BitVec 32} (hbytes : bytes.toNat ≤ 64)
    (h : ¬size.last < s.segmentToPhysical size dl + bytes) :
    (s.segmentToPhysical size dl).toNat + bytes.toNat ≤ size.last.toNat := by
  have hle := segmentToPhysical_le size s dl
  have hlast := size.last_lt
  exact inside_of_not_lt (by omega) hbytes h

/-! ## Commands -/

/-- A call of a list, the room for which has been checked. -/
theorem Ready.push (h : s.Ready size) {address : BitVec 32}
    (hroom : s.pci + 1 < s.ucode.pcStackSize) (hnext : s.pci + 1 ≠ 0)
    (hinside : address.toNat + 8 ≤ size.last.toNat) :
    ((({ s with pci := s.pci + 1 } : DListState).setPc address).readTop 0).Ready size := by
  have hpushed : ({ s with pci := s.pci + 1 } : DListState).Ready size :=
    ⟨⟨hroom, h.modelViewi_lt, h.stackSize_le, h.fetched⟩, fun _ => hnext⟩
  refine (hpushed.setPc address).readNext ?_
  rw [top_setPc]
  omega

theorem Ready.displayList (h : s.Ready size) (dl : BitVec 32) :
    (s.displayList size dl).Ready size := by
  unfold DListState.displayList
  dsimp only
  split
  · exact h
  · next hin =>
    split
    · next hroom =>
      have hle := s.ucode.pcStackSize_le
      have hten := s.ucode.ten_le_pcStackSize
      exact h.push (by bv_omega) (by bv_omega) (segment_inside (by decide) hin)
    · exact h

theorem Ready.branchList (h : s.Ready size) (dl : BitVec 32) :
    (s.branchList size dl).Ready size := by
  unfold DListState.branchList
  dsimp only
  split
  · exact h
  · next hin =>
    split
    · exact h.congr rfl
    · have hbytes : _ + 8 ≤ _ := segment_inside (by decide) hin
      refine (h.setPc _).readNext ?_
      rw [top_setPc]
      omega

theorem Ready.branchLessZ (h : s.Ready size) : (s.branchLessZ size env).Ready size := by
  unfold DListState.branchLessZ
  dsimp only
  split
  · exact h
  · split
    · exact h.setPc _
    · exact h

theorem Ready.dlistCount (h : s.Ready size) (count v : BitVec 32) :
    (s.dlistCount size count v).Ready size := by
  unfold DListState.dlistCount
  dsimp only
  split
  · exact h
  · next hin =>
    split
    · exact h
    · next hroom =>
      rw [not_or] at hin
      have hten := s.ucode.ten_le_pcStackSize
      have hnext : s.pci + 1 ≠ 0 := by bv_omega
      have hpushed := h.push (by bv_omega) hnext (segment_inside (by decide) hin.2)
      exact ⟨⟨hpushed.pci_lt, hpushed.modelViewi_lt, hpushed.stackSize_le, hpushed.fetched⟩,
        fun _ => hnext⟩

theorem Ready.endDisplayList (h : s.Ready size) (hfine : s.count = 1 → s.pci ≠ 1) :
    s.endDisplayList.Ready size := by
  unfold DListState.endDisplayList
  split
  · next hpos =>
    refine ⟨⟨?_, h.modelViewi_lt, h.stackSize_le, h.fetched⟩, fun hcount => ?_⟩
    · have hlt := h.pci_lt
      change s.pci - 1 < s.ucode.pcStackSize
      bv_omega
    · have hne := hfine hcount
      change s.pci - 1 ≠ 0
      bv_omega
  · exact h.congr rfl

theorem Ready.cullDisplayList (h : s.Ready size)
    (hfine : env.culled = true → s.count = 1 → s.pci ≠ 1) :
    (s.cullDisplayList env).Ready size := by
  unfold DListState.cullDisplayList
  split
  · next hculled => exact h.endDisplayList (hfine hculled)
  · exact h

/-- Only the index of the matrix changes. -/
theorem Ready.withModelViewi (h : s.Ready size) {i : BitVec 32} (hi : i < 32) :
    ({ s with modelViewi := i } : DListState).Ready size :=
  ⟨⟨h.pci_lt, hi, h.stackSize_le, h.fetched⟩, h.counted⟩

theorem Ready.readMatrix (h : s.Ready size) {address : BitVec 32}
    (hinside : address.toNat + 64 ≤ size.last.toNat) : (s.read none address 64).Ready size := by
  refine h.read ⟨fun i hi => ?_, ?_⟩
  · cases hi
  · change address.toNat + 64 ≤ _
    omega

theorem Ready.matrix (h : s.Ready size) (mtx : BitVec 32) (projection push : Bool)
    (hfine : s.CommandFine size env (.matrix mtx projection push)) :
    (s.matrix size mtx projection push).Ready size := by
  unfold DListState.matrix
  dsimp only
  split
  · exact h
  · next hin =>
    have hread := h.readMatrix (segment_inside (by decide) hin)
    cases projection with
    | true => exact hread
    | false =>
      cases push with
      | false => exact hread
      | true =>
        have hfull := hfine rfl rfl (BitVec.not_lt.mp hin)
        have hi := h.modelViewi_lt
        have hsize := h.stackSize_le
        simp only [Bool.false_eq_true, if_false, if_true]
        split
        · next hroom =>
          refine hread.withModelViewi ?_
          change s.modelViewi < s.stackSize at hroom
          change s.modelViewi + 1 < 32
          bv_omega
        · exact hread

theorem Ready.popMatrixN (h : s.Ready size) (num : BitVec 32) : (s.popMatrixN num).Ready size := by
  unfold DListState.popMatrixN
  split
  · next hpop =>
    have hi := h.modelViewi_lt
    exact h.withModelViewi (by bv_omega)
  · exact h

theorem Ready.forceMatrix (h : s.Ready size) (mptr skipped : BitVec 32) :
    (s.forceMatrix size mptr skipped).Ready size := by
  unfold DListState.forceMatrix
  dsimp only
  split
  · exact h.setPc _
  · next hin => exact (h.readMatrix (segment_inside (by decide) hin)).setPc _

theorem Ready.dmaMatrix (h : s.Ready size) (mtx : BitVec 32) (index : BitVec 4) :
    (s.dmaMatrix size mtx index).Ready size := by
  unfold DListState.dmaMatrix
  dsimp only
  split
  · exact h
  · next hin =>
    have hoffset := s.mtxOffset.isLt
    have hle := segmentToPhysical_le size s mtx
    have hlast := size.last_lt
    have hsum : (s.mtxOffset.setWidth 32 + s.segmentToPhysical size mtx).toNat < 0x2000000 := by
      rw [BitVec.toNat_add, BitVec.toNat_setWidth]
      omega
    refine (h.readMatrix (inside_of_not_lt hsum (by decide) hin)).withModelViewi ?_
    bv_omega

theorem Ready.makeCurrent (h : s.Ready size) (loaded : UcodeLoad)
    (hfine : ∀ ucode, loaded = .ours ucode → s.pci < ucode.pcStackSize) :
    (s.makeCurrent loaded).Ready size := by
  cases loaded with
  | unchanged => exact h
  | other => exact h.congr rfl
  | ours ucode =>
    have hroom := hfine ucode rfl
    unfold DListState.makeCurrent
    dsimp only
    split
    · exact ⟨⟨hroom, h.modelViewi_lt, h.stackSize_le, h.fetched⟩, h.counted⟩
    · split <;> exact ⟨⟨hroom, h.modelViewi_lt, h.stackSize_le, h.fetched⟩, h.counted⟩

theorem Ready.rdpHalf_1 (h : s.Ready size) (w1 : BitVec 32) : (s.rdpHalf_1 w1).Ready size := by
  unfold DListState.rdpHalf_1
  dsimp only
  split <;> exact h.congr rfl

/-- A word after the one the list has reached. -/
theorem top_add_inside (bytes : ℕ) {offset : BitVec 32} (hoffset : offset.toNat + 4 ≤ bytes)
    (hinside : s.top.toNat + bytes ≤ size.last.toNat + 1) :
    (s.top + offset).toNat + 4 ≤ size.last.toNat + 1 := by
  have hle : (s.top + offset).toNat ≤ s.top.toNat + offset.toNat := by
    rw [BitVec.toNat_add]
    exact Nat.mod_le _ _
  omega

theorem Ready.getTexRectParams (h : s.Ready size)
    (hfine : s.top.toNat + s.texRectBytes env ≤ size.last.toNat + 1) :
    (s.getTexRectParams env).1.Ready size := by
  unfold texRectBytes at hfine
  unfold DListState.getTexRectParams
  dsimp only
  have hwords : s.top.toNat + 12 ≤ size.last.toNat + 1 := by
    split at hfine <;> omega
  have hread : ((s.readTop 0).readTop 8).Ready size :=
    (h.readTop (top_add_inside 12 (by decide) hwords)).readTop
      (top_add_inside (s := s) 12 (by decide) hwords)
  have hfour : (s.top + 4).toNat + 4 ≤ size.last.toNat + 1 :=
    top_add_inside 12 (by decide) hwords
  split
  · next hmode =>
    rw [hmode] at hfine
    refine (((hread.readTop hfour).setPc _).readTop ?_).setPc _
    rw [top_setPc, BitVec.add_assoc]
    exact top_add_inside (s := s) 16 (by decide) hfine
  · split
    · exact hread.setPc _
    · refine ((hread.readTop ?_).readTop hfour).setPc _
      exact top_add_inside (s := s) 12 (by decide) hwords
  · exact (hread.readTop hfour).setPc _

theorem Ready.texRect (h : s.Ready size)
    (hfine : s.top.toNat + s.texRectBytes env ≤ size.last.toNat + 1) :
    (s.texRect env).Ready size := by
  have hparams := h.getTexRectParams hfine
  unfold DListState.texRect
  dsimp only
  split
  · exact hparams.congr rfl
  · exact hparams

/-- **A command that is fine** leaves the stacks as they may be. -/
theorem execute_ready (h : s.Ready size) (command : DListCommand)
    (hfine : s.CommandFine size env command) : (s.execute size env command).Ready size := by
  cases command with
  | displayList dl => exact h.displayList dl
  | branchList dl => exact h.branchList dl
  | branchLessZ => exact h.branchLessZ
  | dlistCount count v => exact h.dlistCount count v
  | endDisplayList => exact h.endDisplayList hfine
  | cullDisplayList => exact h.cullDisplayList hfine
  | matrix mtx projection push => exact h.matrix mtx projection push hfine
  | popMatrixN num => exact h.popMatrixN num
  | forceMatrix mptr skipped => exact h.forceMatrix mptr skipped
  | dmaMatrix mtx index => exact h.dmaMatrix mtx index
  | modelViewIndex index =>
    refine h.withModelViewi ?_
    have hindex := index.isLt
    bv_omega
  | segment seg base => exact h.congr rfl
  | setDMAOffsets mtxoffset => exact h.congr rfl
  | rdpHalf_1 w1 => exact h.rdpHalf_1 w1
  | loadUcode =>
    refine (h.withModelViewi (by decide)).makeCurrent env.loaded fun ucode hload => ?_
    have hfine : s.LoadFine env.loaded := hfine
    rw [hload] at hfine
    exact hfine
  | texRect => exact h.texRect hfine
  | other => exact h

/-! ## Turns of the loops -/

theorem Ready.checkDLCounter (h : s.Ready size) : s.checkDLCounter.Inv size := by
  unfold DListState.checkDLCounter
  split
  · exact h.toInv
  · split
    · next hzero =>
      refine ⟨?_, h.modelViewi_lt, h.stackSize_le, h.fetched⟩
      have hne := h.counted (by bv_omega)
      have hlt := h.pci_lt
      change s.pci - 1 < s.ucode.pcStackSize
      bv_omega
    · exact ⟨h.pci_lt, h.modelViewi_lt, h.stackSize_le, h.fetched⟩

theorem Ready.afterCommand (h : s.Ready size) : s.afterCommand.Inv size := by
  unfold DListState.afterCommand
  split
  · exact h.checkDLCounter
  · exact h.toInv

/-- The entry the next word is looked up by is one of the stack. -/
theorem Ready.nextSlot_lt (h : s.Ready size) : s.nextSlot < 18 := by
  have hlt := h.pci_lt_array
  unfold nextSlot
  split
  · next hcount =>
    have hne := h.counted hcount
    bv_omega
  · exact hlt

theorem Ready.fetch (h : s.Ready size) (hfine : s.FetchFine size) : s.fetch.Ready size := by
  unfold DListState.fetch
  dsimp only
  have hwords : s.top.toNat + 8 ≤ size.last.toNat + 1 := Nat.le_succ_of_le hfine.top_le
  have hread : ((s.readTop 0).readTop 4).Ready size :=
    (h.readTop (top_add_inside 8 (by decide) hwords)).readTop
      (top_add_inside (s := s) 8 (by decide) hwords)
  have hmoved := hread.setPc (s.top + 8)
  refine hmoved.read ⟨fun i hi => ?_, ?_⟩
  · cases hi
    exact hmoved.nextSlot_lt
  · have hnext := hfine.next_le
    change (Function.update s.pc s.pci (s.top + 8) s.nextSlot).toNat + 4 ≤ _
    unfold nextSlot
    split at hnext
    · next hcount =>
      rw [if_pos hcount, Function.update_of_ne (by bv_omega)]
      exact hnext
    · next hcount =>
      rw [if_neg hcount, Function.update_self]
      exact top_add_inside (s := s) 12 (by decide) hnext

theorem Ready.triangle (h : s.Ready size) (hfine : s.TriangleFine size env) :
    (s.triangle env).Inv size := by
  obtain ⟨-, hword, hlast⟩ := hfine
  have hcounted := h.checkDLCounter
  unfold DListState.triangle
  dsimp only
  generalize s.checkDLCounter = t at *
  have hread : ((t.readTop 0).readTop 4).Inv size :=
    (hcounted.readTop (top_add_inside 8 (by decide) hword)).readTop
      (top_add_inside (s := t) 8 (by decide) hword)
  split
  · next hend =>
    refine Ready.checkDLCounter ⟨⟨?_, hread.modelViewi_lt, hread.stackSize_le, hread.fetched⟩, ?_⟩
    · exact hread.pci_lt
    · exact hlast hend
  · exact ⟨hread.pci_lt, hread.modelViewi_lt, hread.stackSize_le, hread.fetched⟩

theorem Ready.lookAhead (h : s.Ready size) {pc : BitVec 32} {checkCoordinates : Bool}
    (hfine : s.LookAheadFine size env pc checkCoordinates) :
    (s.lookAhead env pc checkCoordinates).Inv size := by
  have hword : DListFetch.Inside size ⟨none, pc, 4⟩ := ⟨fun _ hi => (by cases hi), hfine.word⟩
  have hread := h.read hword
  unfold DListState.lookAhead
  dsimp only
  split
  · exact Ready.toInv (hread.congr rfl)
  · split
    · next hrect =>
      have hcoordinates := hfine.coordinates hrect.1 hrect.2
      have hnext : DListFetch.Inside size ⟨none, pc + 4, 4⟩ := by
        refine ⟨fun _ hi => (by cases hi), ?_⟩
        change (pc + 4).toNat + 4 ≤ _
        have hlast := size.last_lt
        bv_omega
      exact Ready.checkDLCounter (((hread.read hword).read hnext).congr rfl)
    · exact Ready.checkDLCounter (hread.congr rfl)

theorem checkDLCounter_unread : s.unread.checkDLCounter = s.checkDLCounter.unread := by
  unfold DListState.checkDLCounter
  split <;> rename_i hcount
  · rw [if_pos (show s.count = -1 from hcount)]
  · rw [if_neg (show ¬s.count = -1 from hcount)]
    split <;> rename_i hzero
    · rw [if_pos (show s.count - 1 = 0 from hzero)]
      rfl
    · rw [if_neg (show ¬s.count - 1 = 0 from hzero)]
      rfl

/-- What a command has to meet is not about what was read before it. -/
theorem commandFine_withFetched {command : DListCommand} {fetched : List DListFetch}
    (hfine : s.CommandFine size env command) :
    ({ s with fetched := fetched } : DListState).CommandFine size env command := by
  cases command with
  | texRect =>
    have hmode : ({ s with fetched := fetched } : DListState).texRectMode env = s.texRectMode env :=
      rfl
    unfold CommandFine texRectBytes at hfine ⊢
    rw [hmode]
    exact hfine
  | _ => exact hfine

theorem Inv.unread (h : s.Inv size) : s.unread.Inv size :=
  ⟨h.pci_lt, h.modelViewi_lt, h.stackSize_le, fun _ hf => absurd hf List.not_mem_nil⟩

/-- **A turn that is fine** keeps the stacks and the reads where they may be. -/
theorem next_inv (h : s.Inv size) (hfine : s.PhaseFine size env s.phase) :
    (s.next size env).Inv size := by
  have hunread := h.unread
  unfold DListState.next
  dsimp only
  rw [show s.unread.phase = s.phase from rfl]
  cases hphase : s.phase with
  | fetch =>
    rw [hphase] at hfine
    dsimp only
    split
    · exact ⟨h.pci_lt, h.modelViewi_lt, h.stackSize_le, hunread.fetched⟩
    · next hruns =>
      rw [not_or, BitVec.not_lt, Bool.not_eq_true] at hruns
      obtain ⟨hfetch, hcommand⟩ := hfine hruns.1 hruns.2
      have hfetch : s.unread.FetchFine size := ⟨hfetch.counted, hfetch.top_le, hfetch.next_le⟩
      exact Ready.afterCommand (execute_ready (Ready.fetch ⟨hunread, hfetch.counted⟩ hfetch) _
        (commandFine_withFetched hcommand))
  | triangle =>
    rw [hphase] at hfine
    have hfine : s.TriangleFine size env := hfine
    refine Ready.triangle ⟨hunread, hfine.counted⟩ ⟨hfine.counted, ?_, ?_⟩
    · rw [checkDLCounter_unread]
      exact hfine.top_le
    · rw [checkDLCounter_unread]
      exact hfine.last
  | lookAhead pc checkCoordinates =>
    rw [hphase] at hfine
    have hfine : s.LookAheadFine size env pc checkCoordinates := hfine
    exact Ready.lookAhead ⟨hunread, hfine.counted⟩ ⟨hfine.counted, hfine.word, hfine.coordinates⟩
  | done => exact hunread
  | left => exact hunread

theorem taskStackSize_le (bytes : BitVec 32) : taskStackSize bytes ≤ 32 := by
  unfold taskStackSize
  dsimp only
  split
  · next h => split <;> bv_omega
  · split <;> decide

/-- The start of a list, whatever the last one has left. -/
theorem start_inv (size : RdramSize) (s : DListState) (task : DListTask) :
    (s.start task).Inv size := by
  unfold DListState.start DListState.loadUcodeEx
  refine (Ready.makeCurrent ⟨⟨?_, ?_, ?_, ?_⟩, ?_⟩ task.loaded ?_).toInv
  · have hten := s.ucode.ten_le_pcStackSize
    change 0 < s.ucode.pcStackSize
    bv_omega
  · change (0 : BitVec 32) < 32
    decide
  · exact taskStackSize_le task.stackBytes
  · exact fun _ hf => absurd hf List.not_mem_nil
  · intro hcount
    cases hcount
  · intro ucode _
    have hten := ucode.ten_le_pcStackSize
    change 0 < ucode.pcStackSize
    bv_omega

theorem processDList_inv (h : s.Inv size) (task : DListTask) : (s.processDList task).Inv size := by
  unfold DListState.processDList
  split
  · exact Inv.unread ⟨h.pci_lt, h.modelViewi_lt, h.stackSize_le, h.fetched⟩
  · exact start_inv size s task

end DListState

namespace DListOp

open DListState

variable {size : RdramSize} {s : DListState} {op : DListOp}

theorem step_inv (h : s.Inv size) (hfine : op.Fine size s) : (s.step size op).Inv size := by
  cases op with
  | next env => exact next_inv h hfine
  | processDList task =>
    unfold DListState.step
    dsimp only
    split
    · exact processDList_inv h task
    · exact h

/-- **The display list interpreter is safe** in every run whose steps are fine, from the start of a
    list in any state. -/
theorem displayLists_safe (size : RdramSize) (s : DListState) (task : DListTask)
    (ops : List DListOp)
    (hfine : Runs.Along (DListState.step size) (DListOp.Fine size) (s.start task) ops) :
    ∀ t ∈ Runs.visited (DListState.step size) (s.start task) ops, t.Safe size := by
  intro t ht
  exact (Runs.invariant_visited (I := Inv size) (fun _ _ => step_inv) (start_inv size s task) hfine
    t ht).safe

def eightMegabytes : RdramSize where
  last := 0x7FFFFF
  last_lt := lastOfEight_lt

def idleState : DListState where
  ucode := .f3dex2 false
  pc := fun _ => 0
  pci := 0
  count := -1
  halt := true
  infloop := false
  modelViewi := 0
  stackSize := 32
  segments := fun _ => 0
  mtxOffset := 0
  half_1 := 0
  phase := .done
  fetched := []

/-- A turn with these bytes in RDRAM, and nothing else to meet. -/
def plainTurn (rdram : BitVec 32 → BitVec 8) : DListOp :=
  .next ⟨rdram, false, false, .unchanged, false, none⟩

/-- At 0 a list calls the one at 0x100 and ends; that one ends. -/
def nestedLists (address : BitVec 32) : BitVec 8 :=
  if address = 0x3 then 0xDE else if address = 0x5 then 0x01 else if address = 0xB then 0xDF
  else if address = 0x103 then 0xDF else 0

theorem displayLists_safe_nestedLists :
    (DListState.step eightMegabytes (idleState.start ⟨0, 0, .unchanged⟩)
      (plainTurn nestedLists)).pci = 1 ∧
    ∀ t ∈ Runs.visited (DListState.step eightMegabytes) (idleState.start ⟨0, 0, .unchanged⟩)
      (List.replicate 4 (plainTurn nestedLists)), t.Safe eightMegabytes :=
  ⟨by decide, displayLists_safe eightMegabytes idleState ⟨0, 0, .unchanged⟩ _
    (by decide)⟩

/-- At 0 a list calls two commands of the one at 0x100, the first of which is its end. -/
def countedList (address : BitVec 32) : BitVec 8 :=
  if address = 0x3 then 0xD5 else if address = 0x0 then 2 else if address = 0x5 then 0x01
  else if address = 0x103 then 0xDF else 0

/-- **A counted list that ends early** is popped a second time, when the counter runs out. -/
theorem displayLists_not_safe :
    ¬∀ (size : RdramSize) (s : DListState) (task : DListTask) (ops : List DListOp),
      ∀ t ∈ Runs.visited (DListState.step size) (s.start task) ops, t.Safe size := by
  intro h
  have hsafe := h eightMegabytes idleState ⟨0, 0, .unchanged⟩
    (List.replicate 3 (plainTurn countedList)) _ (Runs.runFrom_mem_visited _ _ _)
  have hlt := hsafe.pci_lt
  revert hlt
  decide

end DListOp

end Mupen64plus
