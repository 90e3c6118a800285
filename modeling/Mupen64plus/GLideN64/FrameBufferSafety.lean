import Mupen64plus.Lib.Runs
import Mupen64plus.GLideN64.FrameBuffers

/-!
# Frame buffers keep apart and pointers good

The loop of `removeIntersections` goes over the list once. A buffer it has passed is gone or beside
the current one, and what it does to others later does not change that, as the current range only
shrinks. The calls keep `m_pCurrent` good; `m_pCopy` they do not look at.

## Main definitions

- `FrameBufferList.Sound` — the pointers are good, and the ranges of all buffers are
- `FrameBufferList.Apart` — no other buffer meets the current one
- `FrameBufferOp.Fine` — a call erases no buffer that is to be copied, compares no buffers of narrow
  lines, and gives a buffer a range only where it has one
- `FrameBufferOp.Safe` — a call returns, and what it leaves is sound

## Main results

- `removeIntersections_spec`
- `frameBuffers_safe` — the calls of a run are safe when they are fine
- `frameBuffers_not_safe` — the buffer to be copied is removed
-/

namespace Mupen64plus

variable {rdramSize : BitVec 32} {v : FrameBufferContext}

namespace FrameBuffer

/-- The range is empty or not, but it does not end before the address in front of its start, nor
    behind RDRAM, as an address that has wrapped around does. -/
def EndSound (rdramSize : BitVec 32) (b : FrameBuffer) : Prop :=
  b.startAddress.toNat ≤ b.endAddress.toNat + 1 ∧ b.endAddress ≤ rdramSize

/-- The image has bytes, they are at the addresses the code computes, and it starts in RDRAM or
    right behind it. -/
def Fits (rdramSize : BitVec 32) (b : FrameBuffer) : Prop :=
  let bits := b.width.toNat * max 1 b.height.toNat * 2 ^ b.size.toNat
  b.startAddress.toNat ≤ rdramSize.toNat + 1 ∧ bits < 2 ^ 32 ∧
    1 ≤ b.startAddress.toNat + bits / 2 ∧ b.startAddress.toNat + bits / 2 ≤ 2 ^ 32

/-- One ends before the other starts. -/
def Beside (b₁ b₂ : FrameBuffer) : Prop :=
  b₁.endAddress < b₂.startAddress ∨ b₂.endAddress < b₁.startAddress

/-- Comparing the two divides by the stride of their format. -/
def Wide (b₁ b₂ : FrameBuffer) : Prop := b₁.Comparable b₂ → strideOf b₁.width b₁.size ≠ 0

instance decidableFits (b : FrameBuffer) : Decidable (b.Fits rdramSize) :=
  inferInstanceAs (Decidable (_ ∧ _ ∧ _ ∧ _))

instance decidableWide (b₁ b₂ : FrameBuffer) : Decidable (b₁.Wide b₂) :=
  inferInstanceAs (Decidable (_ → _))

end FrameBuffer

namespace FrameBufferList

variable (s : FrameBufferList)

structure Sound (rdramSize : BitVec 32) (s : FrameBufferList) : Prop where
  current : s.buffers.Alive s.current
  copy : s.buffers.Alive s.copy
  ends : ∀ i ∈ s.buffers.order, (s.buffers.node i).EndSound rdramSize

/-- No other listed buffer has an address of the current one. -/
def Apart : Prop :=
  ∀ c, s.current = some c → ∀ i ∈ s.buffers.order, i ≠ c → ∀ address,
    (s.buffers.node i).Covers address → ¬(s.buffers.node c).Covers address

/-! ### The condition -/

/-- A turn of the loop compares wide buffers, and does not come to erase the one to be copied. -/
def RoundFine (current i : ℕ) : Prop :=
  let pCurrent := s.buffers.node current
  let b := s.buffers.node i
  i ≠ current →
    if b.Covers pCurrent.startAddress then
      b.Wide pCurrent ∧ (s.copy = some i → b.isOverlapping pCurrent = some true)
    else if pCurrent.Covers b.startAddress then
      pCurrent.Wide b ∧ (s.copy = some i → pCurrent.isOverlapping b = some true)
    else True

instance decidableRoundFine (current i : ℕ) : Decidable (s.RoundFine current i) := by
  dsimp only [RoundFine]
  infer_instance

def LoopFine (current : ℕ) : ℕ → FrameBufferList → Prop
  | 0, _ => True
  | k + 1, s => ∀ i ∈ s.buffers.order[k]?,
      s.RoundFine current i ∧
        ∀ t ∈ s.removeIntersectionsRound current i, LoopFine current k t

instance decidableLoopFine (current : ℕ) : ∀ k s, Decidable (LoopFine current k s)
  | 0, _ => .isTrue trivial
  | k + 1, s =>
    have := decidableLoopFine current k
    inferInstanceAs (Decidable (∀ i ∈ s.buffers.order[k]?,
      s.RoundFine current i ∧ ∀ t ∈ s.removeIntersectionsRound current i, LoopFine current k t))

def IntersectionsFine : Prop :=
  ∀ c ∈ s.current, LoopFine c s.buffers.order.length s

instance decidableIntersectionsFine : Decidable s.IntersectionsFine :=
  inferInstanceAs (Decidable (∀ _ ∈ _, _))

/-- `removeBuffer` does not find the one to be copied. -/
def RemovalFine (address : BitVec 32) : Prop :=
  ∀ i ∈ s.buffers.find? fun b => b.startAddress = address, s.copy ≠ some i

instance decidableRemovalFine (address : BitVec 32) : Decidable (s.RemovalFine address) :=
  inferInstanceAs (Decidable (∀ _ ∈ _, _))

def UpdateFine (rdramSize : BitVec 32) : Prop :=
  (∀ c ∈ s.current, (s.buffers.node c).Fits rdramSize) ∧
    (s.updateCurrentEnd rdramSize).IntersectionsFine

instance decidableUpdateFine : Decidable (s.UpdateFine rdramSize) :=
  inferInstanceAs (Decidable ((∀ _ ∈ _, _) ∧ _))

def LeaveFine (rdramSize : BitVec 32) (v : FrameBufferContext) : Prop :=
  (∀ c ∈ s.current,
      (v.copyAuxToRDRAM && !v.hackSnap && (s.buffers.node c).isAuxiliary v) = true →
      s.RemovalFine (s.buffers.node c).startAddress) ∧
    (s.removeLeftAuxiliary v).UpdateFine rdramSize

instance decidableLeaveFine : Decidable (s.LeaveFine rdramSize v) :=
  inferInstanceAs (Decidable ((∀ _ ∈ _, _ → _) ∧ _))

/-- A new buffer has a range. -/
def NewFine (rdramSize : BitVec 32) (v : FrameBufferContext) (address size width : BitVec 32)
    (cfb : Bool) : Prop :=
  FrameBuffer.Fits rdramSize
    ⟨address, 0, size, width, if cfb then v.viHeight else 1, 0, 0, cfb, false⟩

instance decidableNewFine (address size width : BitVec 32) (cfb : Bool) :
    Decidable (NewFine rdramSize v address size width cfb) :=
  inferInstanceAs (Decidable (FrameBuffer.Fits _ _))

/-- With the buffer found for the image: one of its format has wide lines; the buffer is not the one
    to be copied if it is given up; and the new one has a range. -/
def EnterFine (rdramSize : BitVec 32) (v : FrameBufferContext) (address size width : BitVec 32)
    (cfb : Bool) : Prop :=
  match s.current with
  | none => NewFine rdramSize v address size width cfb
  | some c =>
    let b := s.buffers.node c
    if b.startAddress ≠ address then
      (b.width = width ∧ b.size = size → strideOf width size ≠ 0) ∧
        (isSubBuffer v address width size b = some false →
          NewFine rdramSize v address size width cfb ∧
            (isOverlappingBuffer address width size b = some false →
              s.RemovalFine b.startAddress))
    else b.width ≠ width ∨ b.size < size ∨ b.scale ≠ savedScale v →
      NewFine rdramSize v address size width cfb ∧ s.RemovalFine b.startAddress

instance decidableEnterFine (address size width : BitVec 32) (cfb : Bool) :
    Decidable (s.EnterFine rdramSize v address size width cfb) := by
  dsimp only [EnterFine]
  split <;> infer_instance

def SaveFine (rdramSize : BitVec 32) (v : FrameBufferContext) (r : SaveRequest) : Prop :=
  if r.width > 640 then True
  else if v.enable = false then
    s.buffers.order = [] → v.viHeight ≠ 0 →
      NewFine rdramSize v (v.viWidth * 2) 2 ((v.viWidth.setWidth 16).setWidth 32) false
  else s.LeaveFine rdramSize v ∧ ∀ t ∈ s.leaveBuffer rdramSize v,
    (t.findSaved r.address (savedWidth v r)).EnterFine rdramSize v r.address (r.size.setWidth 32)
      (savedWidth v r) r.cfb

instance decidableSaveFine (r : SaveRequest) : Decidable (s.SaveFine rdramSize v r) := by
  dsimp only [SaveFine]
  infer_instance

end FrameBufferList

namespace FrameBufferOp

def Fine (rdramSize : BitVec 32) (s : FrameBufferList) : FrameBufferOp → Prop
  | .saveBuffer r v => s.SaveFine rdramSize v r
  | .updateCurrentBufferEndAddress => s.UpdateFine rdramSize
  | .removeIntersections => s.IntersectionsFine
  | .removeBuffer address => s.RemovalFine address
  | .removeBuffers width => ∀ i ∈ s.copy, (s.buffers.node i).width ≠ width
  | .removeAux v => ∀ i ∈ s.copy, (s.buffers.node i).isAuxiliary v = false
  | .setBufferChanged .. | .setCopyBuffer | .copyDepthBuffer | .markMainBuffer _ => True

instance decidableFine (s : FrameBufferList) :
    ∀ op : FrameBufferOp, Decidable (op.Fine rdramSize s)
  | .saveBuffer r v => inferInstanceAs (Decidable (s.SaveFine rdramSize v r))
  | .updateCurrentBufferEndAddress => inferInstanceAs (Decidable (s.UpdateFine rdramSize))
  | .removeIntersections => inferInstanceAs (Decidable s.IntersectionsFine)
  | .removeBuffer address => inferInstanceAs (Decidable (s.RemovalFine address))
  | .removeBuffers _ => inferInstanceAs (Decidable (∀ _ ∈ _, _))
  | .removeAux _ => inferInstanceAs (Decidable (∀ _ ∈ _, _))
  | .setBufferChanged .. | .setCopyBuffer | .copyDepthBuffer | .markMainBuffer _ => .isTrue trivial

/-- The call returns without a division by zero and leaves the list sound, and so is it right after
    `removeIntersections`, where no buffer meets the current one. -/
def Safe (rdramSize : BitVec 32) (s : FrameBufferList) (op : FrameBufferOp) : Prop :=
  (∃ t, op.exec rdramSize s = some t ∧ t.Sound rdramSize) ∧
    ∀ t, op.separated rdramSize s = some t → t.Sound rdramSize ∧ t.Apart

end FrameBufferOp

/-! ### Ranges -/

namespace FrameBuffer

variable {b b₁ b₂ : FrameBuffer}

theorem isOverlapping_isSome (h : b₁.Wide b₂) :
    ∃ overlapping, b₁.isOverlapping b₂ = some overlapping := by
  unfold isOverlapping
  split
  · next hcomparable => exact ⟨_, if_neg (h hcomparable)⟩
  · exact ⟨false, rfl⟩

/-- Buffers of which neither has the start of the other are beside each other. -/
theorem beside_of_not_covers (h₁ : ¬b₁.Covers b₂.startAddress) (h₂ : ¬b₂.Covers b₁.startAddress) :
    Beside b₁ b₂ := by
  simp only [Covers, Beside, not_and, BitVec.not_le] at *
  rcases BitVec.le_total b₁.startAddress b₂.startAddress with h | h
  · exact Or.inl (h₁ h)
  · exact Or.inr (h₂ h)

theorem Beside.not_covers (h : Beside b₁ b₂) {address : BitVec 32} (h₁ : b₁.Covers address) :
    ¬b₂.Covers address := by
  simp only [Covers, Beside, BitVec.le_def, BitVec.lt_def] at *
  omega

theorem Beside.of_end_le (h : Beside b₁ b₂) {address : BitVec 32} (hle : address ≤ b₂.endAddress) :
    Beside b₁ { b₂ with endAddress := address } := by
  rcases h with h | h
  · exact Or.inl h
  · exact Or.inr (Nat.lt_of_le_of_lt hle h)

/-- The address in front of an address that is not the first. -/
theorem toNat_sub_one {a : BitVec 32} (h : a ≠ 0) : (a - 1).toNat + 1 = a.toNat := by
  have hpos : a.toNat ≠ 0 := fun hzero => h (BitVec.eq_of_toNat_eq hzero)
  have hlt := a.isLt
  rw [BitVec.toNat_sub, show BitVec.toNat (1 : BitVec 32) = 1 from rfl]
  omega

/-- Trimming a buffer to touch an address of its range leaves it a range. -/
theorem EndSound.trim (h : b.EndSound rdramSize) {a : BitVec 32} (ha : a ≠ 0)
    (hcovers : b.Covers a) :
    EndSound rdramSize { b with endAddress := a - 1 } := by
  obtain ⟨hstart, hend⟩ := hcovers
  have hone := toNat_sub_one ha
  have hbound := h.2
  simp only [EndSound, BitVec.le_def] at *
  omega

theorem toNat_minU32 (a a' : BitVec 32) : (minU32 a a').toNat = min a.toNat a'.toNat := by
  unfold minU32
  split
  · next h => exact (Nat.min_eq_right (Nat.le_of_lt h)).symm
  · next h => exact (Nat.min_eq_left (Nat.le_of_not_lt h)).symm

theorem toNat_maxU32 (a a' : BitVec 32) : (maxU32 a a').toNat = max a.toNat a'.toNat := by
  unfold maxU32
  split
  · next h => exact (Nat.max_eq_right (Nat.le_of_lt h)).symm
  · next h => exact (Nat.max_eq_left (Nat.le_of_not_lt h)).symm

/-- The bytes of an image whose bits can be counted in a word. -/
theorem toNat_bytes {w h s : BitVec 32} (hbits : w.toNat * h.toNat * 2 ^ s.toNat < 2 ^ 32) :
    (((w * h) <<< s.toNat) >>> 1).toNat = w.toNat * h.toNat * 2 ^ s.toNat / 2 := by
  have hle : w.toNat * h.toNat ≤ w.toNat * h.toNat * 2 ^ s.toNat :=
    Nat.le_mul_of_pos_right _ (Nat.two_pow_pos _)
  rw [BitVec.toNat_ushiftRight, BitVec.toNat_shiftLeft, BitVec.toNat_mul,
    Nat.mod_eq_of_lt (Nat.lt_of_le_of_lt hle hbits), Nat.shiftLeft_eq, Nat.mod_eq_of_lt hbits,
    Nat.shiftRight_eq_div_pow, Nat.pow_one]

/-- `updateEndAddress` does not wrap where the buffer fits. -/
theorem Fits.endSound (h : b.Fits rdramSize) :
    (b.updateEndAddress rdramSize).EndSound rdramSize := by
  obtain ⟨hstart, hbits, hpos, hend⟩ := h
  have hheight : (maxU32 1 b.height).toNat = max 1 b.height.toNat := toNat_maxU32 1 b.height
  rw [← hheight] at hbits hpos hend
  have hbytes := toNat_bytes hbits
  generalize b.width.toNat * (maxU32 1 b.height).toNat * 2 ^ b.size.toNat / 2 = bytes at *
  have hlast : (b.startAddress + (((b.width * maxU32 1 b.height) <<< b.size.toNat) >>> 1 - 1)).toNat
      = b.startAddress.toNat + bytes - 1 := by
    have hlt := b.startAddress.isLt
    rw [BitVec.toNat_add, BitVec.toNat_sub, hbytes, show BitVec.toNat (1 : BitVec 32) = 1 from rfl]
    omega
  have hmin := toNat_minU32 rdramSize
    (b.startAddress + (((b.width * maxU32 1 b.height) <<< b.size.toNat) >>> 1 - 1))
  rw [hlast] at hmin
  simp only [EndSound, updateEndAddress, BitVec.le_def, hmin]
  omega

end FrameBuffer

/-! ### The invariant -/

namespace FrameBufferList

/-- The list is sound, and one buffer at most starts at the first address. -/
structure Inv (rdramSize : BitVec 32) (s : FrameBufferList) : Prop extends s.Sound rdramSize where
  wellFormed : s.buffers.WellFormed
  first : ∀ i ∈ s.buffers.order, ∀ j ∈ s.buffers.order,
    (s.buffers.node i).startAddress = 0 → (s.buffers.node j).startAddress = 0 → i = j

variable {s t : FrameBufferList} {c i j k : ℕ}

theorem inv_empty : empty.Inv rdramSize where
  current := .null
  copy := .null
  ends := fun _ hi => absurd hi List.not_mem_nil
  wellFormed := ⟨List.nodup_nil, fun _ hi => absurd hi List.not_mem_nil⟩
  first := fun _ hi => absurd hi List.not_mem_nil

/-- Of two buffers one in front of the other, one does not start at the first address. -/
theorem Inv.start_ne_zero (h : s.Inv rdramSize) (hi : i ∈ s.buffers.order)
    (hj : j ∈ s.buffers.order) (hne : i ≠ j)
    (hle : (s.buffers.node i).startAddress ≤ (s.buffers.node j).startAddress) :
    (s.buffers.node j).startAddress ≠ 0 := by
  intro hzero
  have hiz : (s.buffers.node i).startAddress = 0 := by
    rw [hzero] at hle
    exact BitVec.le_zero_iff.mp hle
  exact hne (h.first i hi j hj hiz hzero)

/-- A change of one buffer that keeps its start and gives it a good range. -/
theorem Inv.modify (h : s.Inv rdramSize) {f : FrameBuffer → FrameBuffer}
    (hstart : (f (s.buffers.node i)).startAddress = (s.buffers.node i).startAddress)
    (hend : (f (s.buffers.node i)).EndSound rdramSize) :
    Inv rdramSize { s with buffers := s.buffers.modify i f } := by
  have hstarts : ∀ j, ((s.buffers.modify i f).node j).startAddress =
      (s.buffers.node j).startAddress := by
    intro j
    by_cases hj : j = i
    · subst hj
      rw [NodeList.node_modify_self, hstart]
    · rw [NodeList.node_modify_of_ne _ hj]
  refine ⟨⟨h.current, h.copy, ?_⟩, h.wellFormed.modify _, ?_⟩
  · intro j hj
    by_cases hji : j = i
    · subst hji
      simpa only [NodeList.node_modify_self] using hend
    · simpa only [NodeList.node_modify_of_ne _ hji] using h.ends j hj
  · intro j hj j' hj' hzero hzero'
    exact h.first j hj j' hj' (hstarts j ▸ hzero) (hstarts j' ▸ hzero')

theorem Inv.eraseBuffer (h : s.Inv rdramSize) (hcurrent : s.current ≠ some i)
    (hcopy : s.copy ≠ some i) : (s.eraseBuffer i).Inv rdramSize where
  current := (h.current.erase_iff h.wellFormed).mpr hcurrent
  copy := (h.copy.erase_iff h.wellFormed).mpr hcopy
  ends := fun j hj => h.ends j (h.wellFormed.mem_erase.mp hj).2
  wellFormed := h.wellFormed.erase
  first := fun j hj j' hj' =>
    h.first j (h.wellFormed.mem_erase.mp hj).2 j' (h.wellFormed.mem_erase.mp hj').2

/-! ### One turn of the loop -/

/-- What a turn at the buffer `i` comes to. -/
inductive RoundDoes (s : FrameBufferList) (c i : ℕ) : FrameBufferList → Prop
  | passed (h : i = c ∨ (s.buffers.node i).Beside (s.buffers.node c)) : RoundDoes s c i s
  | erased (hne : i ≠ c) (hcopy : s.copy ≠ some i) : RoundDoes s c i (s.eraseBuffer i)
  | trimmed (hne : i ≠ c) (h : (s.buffers.node i).Covers (s.buffers.node c).startAddress) :
      RoundDoes s c i (s.setEndAddress i ((s.buffers.node c).startAddress - 1))
  | trimmedCurrent (hne : i ≠ c) (h : (s.buffers.node c).Covers (s.buffers.node i).startAddress) :
      RoundDoes s c i (s.setEndAddress c ((s.buffers.node i).startAddress - 1))

theorem removeIntersectionsRound_spec (h : s.RoundFine c i) :
    ∃ t, s.removeIntersectionsRound c i = some t ∧ RoundDoes s c i t := by
  unfold removeIntersectionsRound
  by_cases hic : i = c
  · exact ⟨s, if_pos hic, .passed (Or.inl hic)⟩
  replace h := h hic
  simp only [if_neg hic]
  split
  · next hcovers =>
    simp only [hcovers, if_true] at h
    obtain ⟨overlapping, hover⟩ := FrameBuffer.isOverlapping_isSome h.1
    rw [hover, Option.map_some]
    cases overlapping with
    | true => exact ⟨_, rfl, .trimmed hic hcovers⟩
    | false =>
      refine ⟨_, rfl, .erased hic fun hcopy => ?_⟩
      have htrue := h.2 hcopy
      rw [hover] at htrue
      cases htrue
  · next hnot =>
    simp only [hnot, if_false] at h
    split
    · next hcovers =>
      simp only [hcovers, if_true] at h
      obtain ⟨overlapping, hover⟩ := FrameBuffer.isOverlapping_isSome h.1
      rw [hover, Option.map_some]
      cases overlapping with
      | true => exact ⟨_, rfl, .trimmedCurrent hic hcovers⟩
      | false =>
        refine ⟨_, rfl, .erased hic fun hcopy => ?_⟩
        have htrue := h.2 hcopy
        rw [hover] at htrue
        cases htrue
    · next hnot' => exact ⟨s, rfl, .passed (Or.inr (FrameBuffer.beside_of_not_covers hnot hnot'))⟩

/-- Between two turns: the list is as it may be, its current buffer is `c`, and each buffer from the
    `k`-th on is beside it. -/
structure Passed (rdramSize : BitVec 32) (c k : ℕ) (s : FrameBufferList) : Prop where
  inv : s.Inv rdramSize
  current : s.current = some c
  bound : k ≤ s.buffers.order.length
  beside : ∀ i ∈ s.buffers.order, i ≠ c → i ∉ s.buffers.order.take k →
    (s.buffers.node i).Beside (s.buffers.node c)

theorem mem_take_succ {l : List ℕ} (hi : l[k]? = some i) (hj : j ∉ l.take k) (hne : j ≠ i) :
    j ∉ l.take (k + 1) := by
  rw [List.take_add_one, hi, List.mem_append]
  rintro (h | h)
  · exact hj h
  · exact hne (List.mem_singleton.mp h)

theorem Passed.round (h : s.Passed rdramSize c (k + 1)) (hi : s.buffers.order[k]? = some i)
    (hdoes : RoundDoes s c i t) : t.Passed rdramSize c k := by
  have hinv := h.inv
  have hiMem : i ∈ s.buffers.order := List.mem_of_getElem? hi
  have hcMem : c ∈ s.buffers.order := hinv.current c h.current
  have hbound := h.bound
  -- the buffers passed before are those passed now but one
  have hbefore : ∀ j ∈ s.buffers.order, j ≠ c → j ≠ i → j ∉ s.buffers.order.take k →
      (s.buffers.node j).Beside (s.buffers.node c) :=
    fun j hj hjc hji htake => h.beside j hj hjc (mem_take_succ hi htake hji)
  cases hdoes with
  | passed hpassed =>
    refine ⟨hinv, h.current, by omega, ?_⟩
    intro j hj hjc htake
    by_cases hji : j = i
    · subst hji
      exact hpassed.resolve_left hjc
    · exact hbefore j hj hjc hji htake
  | erased hne hcopy =>
    have hcurrent : s.current ≠ some i := by
      rw [h.current]
      exact fun heq => hne (Option.some.inj heq).symm
    refine ⟨hinv.eraseBuffer hcurrent hcopy, h.current, ?_, ?_⟩
    · change k ≤ (s.buffers.order.erase i).length
      rw [List.length_erase_of_mem hiMem]
      omega
    · intro j hj hjc htake
      obtain ⟨hji, hjMem⟩ := hinv.wellFormed.mem_erase.mp hj
      exact hbefore j hjMem hjc hji (hinv.wellFormed.take_erase hi ▸ htake)
  | trimmed hne hcovers =>
    have hzero := hinv.start_ne_zero hiMem hcMem hne hcovers.1
    have hends := (hinv.ends i hiMem).trim hzero hcovers
    refine ⟨hinv.modify rfl hends, h.current, (Nat.le_succ k).trans hbound, ?_⟩
    intro j hj hjc htake
    simp only [setEndAddress, NodeList.node_modify_of_ne _ (Ne.symm hne)]
    by_cases hji : j = i
    · subst hji
      rw [NodeList.node_modify_self]
      have hone := FrameBuffer.toNat_sub_one hzero
      refine Or.inl (show _ < _ from ?_)
      rw [BitVec.lt_def]
      dsimp only
      omega
    · rw [NodeList.node_modify_of_ne _ hji]
      exact hbefore j hj hjc hji htake
  | trimmedCurrent hne hcovers =>
    have hzero := hinv.start_ne_zero hcMem hiMem (Ne.symm hne) hcovers.1
    have hends := (hinv.ends c hcMem).trim hzero hcovers
    have hone := FrameBuffer.toNat_sub_one hzero
    refine ⟨hinv.modify rfl hends, h.current, (Nat.le_succ k).trans hbound, ?_⟩
    intro j hj hjc htake
    simp only [setEndAddress, NodeList.node_modify_self, NodeList.node_modify_of_ne _ hjc]
    by_cases hji : j = i
    · subst hji
      refine Or.inr (show _ < _ from ?_)
      rw [BitVec.lt_def]
      dsimp only
      omega
    · refine (hbefore j hj hjc hji htake).of_end_le ?_
      have hle := hcovers.2
      rw [BitVec.le_def] at hle ⊢
      omega

theorem Passed.loop (h : s.Passed rdramSize c k) (hfine : LoopFine c k s) :
    ∃ t, removeIntersectionsLoop c k s = some t ∧ t.Passed rdramSize c 0 := by
  induction k generalizing s with
  | zero => exact ⟨s, rfl, h⟩
  | succ k ih =>
    have hlt : k < s.buffers.order.length := h.bound
    have hi : s.buffers.order[k]? = some s.buffers.order[k] := List.getElem?_eq_getElem hlt
    obtain ⟨hround, hrest⟩ := hfine _ hi
    obtain ⟨t, ht, hdoes⟩ := removeIntersectionsRound_spec hround
    obtain ⟨u, hu, hpassed⟩ := ih (h.round hi hdoes) (hrest t ht)
    refine ⟨u, ?_, hpassed⟩
    simp only [removeIntersectionsLoop, hi, ht, Option.bind_some, hu]

/-- **`removeIntersections`** returns, and no other buffer meets the current one then. -/
theorem removeIntersections_spec (h : s.Inv rdramSize) (hfine : s.IntersectionsFine) :
    ∃ t, s.removeIntersections = some t ∧ t.Inv rdramSize ∧ t.Apart := by
  unfold removeIntersections
  split
  · next hcurrent =>
    refine ⟨s, rfl, h, fun c hc => ?_⟩
    rw [hcurrent] at hc
    cases hc
  · next c hcurrent =>
    have hstart : s.Passed rdramSize c s.buffers.order.length := by
      refine ⟨h, hcurrent, Nat.le_refl _, ?_⟩
      intro i hi _ htake
      rw [List.take_length] at htake
      exact absurd hi htake
    obtain ⟨t, ht, hpassed⟩ := hstart.loop (hfine c hcurrent)
    refine ⟨t, ht, hpassed.inv, ?_⟩
    intro c' hc' i hi hic address hcovers
    obtain rfl : c = c' := Option.some.inj (hpassed.current.symm.trans hc')
    exact (hpassed.beside i hi hic List.not_mem_nil).not_covers hcovers

theorem Inv.updateCurrentEnd (h : s.Inv rdramSize)
    (hfits : ∀ c, s.current = some c → (s.buffers.node c).Fits rdramSize) :
    (s.updateCurrentEnd rdramSize).Inv rdramSize := by
  unfold FrameBufferList.updateCurrentEnd
  split
  · exact h
  · next c hcurrent => exact h.modify rfl (hfits c hcurrent).endSound

theorem updateCurrentBufferEndAddress_spec (h : s.Inv rdramSize) (hfine : s.UpdateFine rdramSize) :
    ∃ t, s.updateCurrentBufferEndAddress rdramSize = some t ∧ t.Inv rdramSize ∧ t.Apart :=
  removeIntersections_spec (h.updateCurrentEnd hfine.1) hfine.2

/-! ### Buffers that are removed -/

theorem Inv.dropBuffer (h : s.Inv rdramSize) (hcopy : s.copy ≠ some i) :
    (s.dropBuffer i).Inv rdramSize where
  current := by
    intro j hj
    unfold FrameBufferList.dropBuffer at hj
    dsimp only at hj
    split at hj
    · cases hj
    · next hne => exact (h.current.erase_iff h.wellFormed).mpr hne j hj
  copy := (h.copy.erase_iff h.wellFormed).mpr hcopy
  ends := fun j hj => h.ends j (h.wellFormed.mem_erase.mp hj).2
  wellFormed := h.wellFormed.erase
  first := fun j hj j' hj' =>
    h.first j (h.wellFormed.mem_erase.mp hj).2 j' (h.wellFormed.mem_erase.mp hj').2

theorem Inv.removeBuffer (h : s.Inv rdramSize) {address : BitVec 32}
    (hfine : s.RemovalFine address) : (s.removeBuffer address).Inv rdramSize := by
  unfold FrameBufferList.removeBuffer
  split
  · exact h
  · next i hfind => exact h.dropBuffer (hfine i hfind)

theorem Inv.removeWhere (h : s.Inv rdramSize) {p : FrameBuffer → Bool}
    (hcopy : ∀ i, s.copy = some i → p (s.buffers.node i) = false) :
    (s.removeWhere p).Inv rdramSize where
  current := by
    intro j hj
    obtain ⟨hj, hkept⟩ := Option.filter_eq_some_iff.mp hj
    have hmem := h.current j hj
    refine NodeList.mem_eraseWhere.mpr ⟨hmem, ?_⟩
    simpa only [hmem, decide_true, Bool.true_and, Bool.not_eq_true'] using hkept
  copy := fun j hj => NodeList.mem_eraseWhere.mpr ⟨h.copy j hj, hcopy j hj⟩
  ends := fun j hj => h.ends j (NodeList.mem_eraseWhere.mp hj).1
  wellFormed := h.wellFormed.eraseWhere p
  first := fun j hj j' hj' =>
    h.first j (NodeList.mem_eraseWhere.mp hj).1 j' (NodeList.mem_eraseWhere.mp hj').1

/-- The current buffer may be put out of use, or another of the list be used. -/
theorem Inv.withCurrent (h : s.Inv rdramSize) {p : Option ℕ} (hp : s.buffers.Alive p) :
    Inv rdramSize { s with current := p } :=
  ⟨⟨hp, h.copy, h.ends⟩, h.wellFormed, h.first⟩

theorem findBuffer_alive (address : BitVec 32) : s.buffers.Alive (s.findBuffer address) :=
  fun _ hi => (NodeList.find?_mem hi).1

/-! ### Buffers that come in -/

theorem NewFine.endSound {address size width : BitVec 32} {cfb : Bool}
    (h : NewFine rdramSize v address size width cfb) :
    (FrameBuffer.init rdramSize v address size width cfb).EndSound rdramSize :=
  FrameBuffer.Fits.endSound h

theorem Inv.emplaceFront (h : s.Inv rdramSize) {b : FrameBuffer} (hend : b.EndSound rdramSize)
    (hfirst : b.startAddress = 0 → ∀ i ∈ s.buffers.order, (s.buffers.node i).startAddress ≠ 0) :
    Inv rdramSize { s with buffers := s.buffers.emplaceFront b } := by
  have hold : ∀ i ∈ s.buffers.order, (s.buffers.emplaceFront b).node i = s.buffers.node i :=
    fun i hi => NodeList.node_emplaceFront b (h.wellFormed.ne_next hi)
  refine ⟨⟨h.current.emplaceFront b, h.copy.emplaceFront b, ?_⟩, h.wellFormed.emplaceFront b, ?_⟩
  · intro i hi
    rcases List.mem_cons.mp hi with rfl | hi
    · rwa [NodeList.node_emplaceFront_self]
    · rw [hold i hi]
      exact h.ends i hi
  · intro i hi j hj hi0 hj0
    rcases List.mem_cons.mp hi with rfl | hi
    · rcases List.mem_cons.mp hj with rfl | hj
      · rfl
      · rw [NodeList.node_emplaceFront_self] at hi0
        rw [hold j hj] at hj0
        exact absurd hj0 (hfirst hi0 j hj)
    · rcases List.mem_cons.mp hj with rfl | hj
      · rw [NodeList.node_emplaceFront_self] at hj0
        rw [hold i hi] at hi0
        exact absurd hi0 (hfirst hj0 i hi)
      · rw [hold i hi] at hi0
        rw [hold j hj] at hj0
        exact h.first i hi j hj hi0 hj0

/-- No buffer of the list starts at the first address. -/
def FirstFree (s : FrameBufferList) : Prop :=
  ∀ i ∈ s.buffers.order, (s.buffers.node i).startAddress ≠ 0

theorem Inv.newBuffer (h : s.Inv rdramSize) {address size width : BitVec 32} {cfb : Bool}
    (hfine : NewFine rdramSize v address size width cfb) (hfirst : address = 0 → s.FirstFree) :
    (s.newBuffer rdramSize v address size width cfb).Inv rdramSize := by
  have hnew := h.emplaceFront hfine.endSound hfirst
  refine ⟨⟨?_, hnew.copy, hnew.ends⟩, hnew.wellFormed, hnew.first⟩
  exact NodeList.alive_some.mpr List.mem_cons_self

theorem firstFree_of_findBuffer (h : s.findBuffer 0 = none) : s.FirstFree := by
  intro i hi hzero
  have hnot := NodeList.find?_none h hi
  rw [decide_eq_false_iff_not] at hnot
  exact hnot ⟨BitVec.le_zero_iff.mpr hzero, Nat.zero_le _⟩

theorem Inv.firstFree_removeBuffer (h : s.Inv rdramSize) : (s.removeBuffer 0).FirstFree := by
  unfold FrameBufferList.removeBuffer
  split
  · next hnone =>
    intro i hi hzero
    have hnot := NodeList.find?_none hnone hi
    rw [decide_eq_false_iff_not] at hnot
    exact hnot hzero
  · next j hfind =>
    obtain ⟨hj, hjzero⟩ := NodeList.find?_mem hfind
    intro i hi hzero
    obtain ⟨hij, hiMem⟩ := h.wellFormed.mem_erase.mp hi
    exact hij (h.first i hiMem j hj hzero (of_decide_eq_true hjzero))

/-! ### `saveBuffer` -/

theorem LeaveFine.removed (hfine : s.LeaveFine rdramSize v) (h : s.Inv rdramSize) :
    (s.removeLeftAuxiliary v).Inv rdramSize := by
  unfold removeLeftAuxiliary
  split
  · exact h
  · next c hcurrent =>
    dsimp only
    split
    · next hleft => exact h.removeBuffer (hfine.1 c hcurrent hleft)
    · exact h

theorem leaveBuffer_spec (h : s.Inv rdramSize) (hfine : s.LeaveFine rdramSize v) :
    ∃ t, s.leaveBuffer rdramSize v = some t ∧ t.Inv rdramSize ∧ t.Apart :=
  updateCurrentBufferEndAddress_spec (hfine.removed h) hfine.2

/-- The buffer of an image: it has the address of the image, or starts there. -/
theorem findSaved_spec (address width : BitVec 32) :
    ∃ p, s.findSaved address width = { s with current := p } ∧
      (p = s.findBuffer address ∨
        p = s.current ∧ ∃ c, p = some c ∧ (s.buffers.node c).startAddress = address) := by
  unfold findSaved
  split
  · exact ⟨_, rfl, Or.inl rfl⟩
  · next c hcurrent =>
    dsimp only
    split
    · exact ⟨_, rfl, Or.inl rfl⟩
    · next hsame =>
      rw [not_or, not_not, not_not] at hsame
      exact ⟨some c, by rw [← hcurrent], Or.inr ⟨hcurrent.symm, c, rfl, hsame.1⟩⟩

theorem isSubBuffer_isSome (v : FrameBufferContext) (address : BitVec 32) {width size : BitVec 32}
    {b : FrameBuffer}
    (h : b.width = width ∧ b.size = size → strideOf width size ≠ 0) :
    ∃ sub, isSubBuffer v address width size b = some sub := by
  unfold isSubBuffer
  split
  · next hsame => exact ⟨_, if_neg (h hsame.2.2)⟩
  · exact ⟨false, rfl⟩

theorem isOverlappingBuffer_isSome (address : BitVec 32) {width size : BitVec 32} {b : FrameBuffer}
    (h : b.width = width ∧ b.size = size → strideOf width size ≠ 0) :
    ∃ overlapping, isOverlappingBuffer address width size b = some overlapping := by
  unfold isOverlappingBuffer
  split
  · next hsame => exact ⟨_, if_neg (h hsame)⟩
  · exact ⟨false, rfl⟩

/-- The current buffer is the one the image of the address is in. -/
def Entered (s : FrameBufferList) (address : BitVec 32) : Prop :=
  match s.current with
  | none => s.findBuffer address = none
  | some c => (s.buffers.node c).startAddress ≠ address → (s.buffers.node c).Covers address

theorem Inv.findSaved (h : s.Inv rdramSize) (address width : BitVec 32) :
    (s.findSaved address width).Inv rdramSize ∧ (s.findSaved address width).Entered address := by
  obtain ⟨p, hfound, hp⟩ := findSaved_spec (s := s) address width
  rw [hfound]
  rcases hp with hp | ⟨hp, c, hc, hstart⟩
  · refine ⟨h.withCurrent (hp ▸ findBuffer_alive address), ?_⟩
    cases p with
    | none => exact hp.symm
    | some c => exact fun _ => of_decide_eq_true (NodeList.find?_mem hp.symm).2
  · refine ⟨h.withCurrent (hp ▸ h.current), ?_⟩
    subst hc
    exact fun hne => absurd hstart hne

/-- **`saveBuffer` past the search** -/
theorem Inv.enterBuffer (h : s.Inv rdramSize) {address size width : BitVec 32} {cfb : Bool}
    (hfine : s.EnterFine rdramSize v address size width cfb) (hentered : s.Entered address) :
    ∃ t, s.enterBuffer rdramSize v address size width cfb = some t ∧ t.Inv rdramSize := by
  unfold EnterFine at hfine
  unfold Entered at hentered
  unfold FrameBufferList.enterBuffer
  split at hfine
  · next hcurrent =>
    simp only [hcurrent] at hentered ⊢
    refine ⟨_, rfl, h.newBuffer hfine ?_⟩
    rintro rfl
    exact firstFree_of_findBuffer hentered
  · next c hcurrent =>
    simp only [hcurrent] at hentered ⊢
    have hcMem := h.current c hcurrent
    dsimp only at hfine
    split at hfine
    · next hne =>
      -- the image starts inside the buffer, so not at the first address
      have hcovers := hentered hne
      have hpos : address ≠ 0 := by
        rintro rfl
        exact hne (BitVec.le_zero_iff.mp hcovers.1)
      simp only [if_pos hne]
      obtain ⟨sub, hsub⟩ := isSubBuffer_isSome v address hfine.1
      obtain ⟨overlapping, hover⟩ := isOverlappingBuffer_isSome address hfine.1
      simp only [hsub, Option.bind_some]
      cases sub with
      | true => exact ⟨s, rfl, h⟩
      | false =>
        obtain ⟨hnew, hremoval⟩ := hfine.2 hsub
        simp only [hover, Option.map_some]
        cases overlapping with
        | true =>
          have hends := (h.ends c hcMem).trim hpos hcovers
          exact ⟨_, rfl, ((h.modify rfl hends).withCurrent .null).newBuffer hnew (absurd · hpos)⟩
        | false =>
          exact ⟨_, rfl, ((h.removeBuffer (hremoval hover)).withCurrent .null).newBuffer hnew
            (absurd · hpos)⟩
    · next heq =>
      rw [not_not] at heq
      simp only [heq, ne_eq, not_true, if_false]
      split
      · next hreplaced =>
        obtain ⟨hnew, hremoval⟩ := hfine hreplaced
        rw [heq] at hremoval
        refine ⟨_, rfl, ((h.removeBuffer hremoval).withCurrent .null).newBuffer hnew ?_⟩
        rintro rfl
        exact h.firstFree_removeBuffer
      · have hcurrentAlive : s.buffers.Alive (some c) := NodeList.alive_some.mpr hcMem
        have hsaved := h.modify (i := c)
          (f := fun b => { b with size, swapCount := v.buffersSwapCount }) rfl (h.ends c hcMem)
        exact ⟨_, rfl, hsaved.withCurrent hcurrentAlive⟩

theorem Inv.createScreenSizeBuffer (h : s.Inv rdramSize) (hempty : s.buffers.order = [])
    (hfine : v.viHeight ≠ 0 →
      NewFine rdramSize v (v.viWidth * 2) 2 ((v.viWidth.setWidth 16).setWidth 32) false) :
    (s.createScreenSizeBuffer rdramSize v).Inv rdramSize := by
  unfold FrameBufferList.createScreenSizeBuffer
  split
  · exact h
  · next hheight =>
    refine h.emplaceFront (hfine hheight).endSound fun _ i hi => ?_
    rw [hempty] at hi
    exact absurd hi List.not_mem_nil

theorem saveBuffer_spec (h : s.Inv rdramSize) {r : SaveRequest} (hfine : s.SaveFine rdramSize v r) :
    ∃ t, s.saveBuffer rdramSize v r = some t ∧ t.Inv rdramSize := by
  unfold SaveFine at hfine
  unfold saveBuffer
  split
  · exact ⟨s, rfl, h⟩
  · next hnarrow =>
    simp only [if_neg hnarrow] at hfine
    cases henable : v.enable with
    | false =>
      simp only [henable, if_true, Bool.not_false] at hfine ⊢
      refine ⟨_, rfl, ?_⟩
      split
      · next hempty => exact h.createScreenSizeBuffer hempty (hfine hempty)
      · exact h
    | true =>
      simp only [henable, Bool.true_eq_false, if_false, Bool.not_true, Bool.false_eq_true]
        at hfine ⊢
      obtain ⟨t, ht, hinv, -⟩ := leaveBuffer_spec h hfine.1
      obtain ⟨hfound, hentered⟩ := hinv.findSaved r.address (savedWidth v r)
      obtain ⟨u, hu, hsaved⟩ := hfound.enterBuffer (hfine.2 t ht) hentered
      exact ⟨u, by rw [ht, Option.bind_some, hu], hsaved⟩

theorem Inv.setBufferChanged (h : s.Inv rdramSize) (colorImageHeight maxY : BitVec 32) :
    (s.setBufferChanged v colorImageHeight maxY).Inv rdramSize := by
  unfold FrameBufferList.setBufferChanged
  dsimp only
  split
  · exact h
  · next c hcurrent => exact h.modify rfl (h.ends c (h.current c hcurrent))

theorem Inv.markMainBuffer (h : s.Inv rdramSize) (address : BitVec 32) :
    (s.markMainBuffer address).Inv rdramSize := by
  unfold FrameBufferList.markMainBuffer
  split
  · exact h
  · next i hfind => exact h.modify rfl (h.ends i (NodeList.find?_mem hfind).1)

end FrameBufferList

namespace FrameBufferOp

open FrameBufferList

variable {s : FrameBufferList} {op : FrameBufferOp}

/-- A call that is fine returns, and the list is as it may be. -/
theorem exec_spec (h : s.Inv rdramSize) (hfine : op.Fine rdramSize s) :
    ∃ t, op.exec rdramSize s = some t ∧ t.Inv rdramSize := by
  cases op with
  | saveBuffer r v => exact saveBuffer_spec h hfine
  | setBufferChanged colorImageHeight maxY v => exact ⟨_, rfl, h.setBufferChanged _ _⟩
  | updateCurrentBufferEndAddress =>
    obtain ⟨t, ht, hinv, -⟩ := updateCurrentBufferEndAddress_spec h hfine
    exact ⟨t, ht, hinv⟩
  | removeIntersections =>
    obtain ⟨t, ht, hinv, -⟩ := removeIntersections_spec h hfine
    exact ⟨t, ht, hinv⟩
  | removeBuffer address => exact ⟨_, rfl, h.removeBuffer hfine⟩
  | removeBuffers width =>
    refine ⟨_, rfl, (h.withCurrent .null).removeWhere fun i hi => ?_⟩
    exact decide_eq_false (hfine i hi)
  | removeAux v => exact ⟨_, rfl, h.removeWhere hfine⟩
  | setCopyBuffer => exact ⟨_, rfl, ⟨⟨h.current, h.current, h.ends⟩, h.wellFormed, h.first⟩⟩
  | copyDepthBuffer => exact ⟨_, rfl, ⟨⟨h.current, .null, h.ends⟩, h.wellFormed, h.first⟩⟩
  | markMainBuffer address => exact ⟨_, rfl, h.markMainBuffer address⟩

theorem separated_spec (h : s.Inv rdramSize) (hfine : op.Fine rdramSize s) {t : FrameBufferList}
    (ht : op.separated rdramSize s = some t) : t.Inv rdramSize ∧ t.Apart := by
  have hspec : (∃ u, op.separated rdramSize s = some u ∧ u.Inv rdramSize ∧ u.Apart) := by
    cases op with
    | saveBuffer r v =>
      unfold separated at ht ⊢
      dsimp only at ht ⊢
      split at ht
      · cases ht
      · next hruns =>
        obtain ⟨hnarrow, henable⟩ := not_or.mp hruns
        rw [if_neg hruns]
        simp only [Fine, SaveFine, if_neg hnarrow, if_neg henable] at hfine
        exact leaveBuffer_spec h hfine.1
    | updateCurrentBufferEndAddress => exact updateCurrentBufferEndAddress_spec h hfine
    | removeIntersections => exact removeIntersections_spec h hfine
    | setBufferChanged => cases ht
    | removeBuffer => cases ht
    | removeBuffers => cases ht
    | removeAux => cases ht
    | setCopyBuffer => cases ht
    | copyDepthBuffer => cases ht
    | markMainBuffer => cases ht
  obtain ⟨u, hu, hinv, hapart⟩ := hspec
  obtain rfl : u = t := Option.some.inj (hu.symm.trans ht)
  exact ⟨hinv, hapart⟩

/-- The conditions on the state of a run, which is lost once a call has divided by zero. -/
def FineStep (rdramSize : BitVec 32) (s : Option FrameBufferList) (op : FrameBufferOp) : Prop :=
  ∀ l ∈ s, op.Fine rdramSize l

instance decidableFineStep (s : Option FrameBufferList) (op : FrameBufferOp) :
    Decidable (FineStep rdramSize s op) :=
  inferInstanceAs (Decidable (∀ _ ∈ _, _))

def SafeStep (rdramSize : BitVec 32) (s : Option FrameBufferList) (op : FrameBufferOp) : Prop :=
  ∃ l, s = some l ∧ op.Safe rdramSize l

/-- The plugin with an image of 320 pixels shown. -/
def shown320 : FrameBufferContext where
  enable := true
  copyAuxToRDRAM := false
  nativeResFactor := 0
  hackRE2 := false
  hackSnap := false
  viWidth := 320
  viHeight := 240
  viWidthReg := 320
  scissorLry := 240
  windowScaleX := 1
  buffersSwapCount := 1

/-- **The calls of a run are safe** when each is fine. -/
theorem frameBuffers_safe (rdramSize : BitVec 32) (ops : List FrameBufferOp)
    (hfine : Runs.Along (step rdramSize) (FineStep rdramSize) (some .empty) ops) :
    Runs.Along (step rdramSize) (SafeStep rdramSize) (some .empty) ops := by
  refine Runs.along_of_along (I := fun s => ∃ l, s = some l ∧ l.Inv rdramSize) ?_ ?_
    ⟨_, rfl, inv_empty⟩ hfine
  · rintro _ op ⟨l, rfl, hinv⟩ hop
    exact exec_spec hinv (hop l rfl)
  · rintro _ op ⟨l, rfl, hinv⟩ hop
    obtain ⟨t, ht, hnext⟩ := exec_spec hinv (hop l rfl)
    refine ⟨l, rfl, ⟨t, ht, hnext.toSound⟩, fun u hu => ?_⟩
    obtain ⟨hbetween, hapart⟩ := separated_spec hinv (hop l rfl) hu
    exact ⟨hbetween.toSound, hapart⟩

/-- The game draws to two images of 320 pixels, the first growing up to the start of the second, and
    the first is removed. -/
def twoImages : List FrameBufferOp :=
  [.saveBuffer ⟨0x100000, 2, 320, false⟩ shown320, .setBufferChanged 0 4 shown320,
    .saveBuffer ⟨0x100780, 2, 320, false⟩ shown320, .setBufferChanged 0 100 shown320,
    .setCopyBuffer, .updateCurrentBufferEndAddress, .removeBuffer 0x100000]

theorem frameBuffers_safe_twoImages :
    twoImages.length = 7 ∧
      Runs.Along (step 0x7FFFFF) (SafeStep 0x7FFFFF) (some .empty) twoImages :=
  ⟨rfl, frameBuffers_safe 0x7FFFFF twoImages (by decide)⟩

/-- The game draws to an image, has it kept for a copy, and its buffer is removed. -/
def copyRemoved : List FrameBufferOp :=
  [.saveBuffer ⟨0x100000, 2, 320, false⟩ shown320, .setCopyBuffer, .removeBuffer 0x100000]

/-- **The buffer to be copied is removed**, and the pointer to it stays. -/
theorem frameBuffers_not_safe :
    ¬∀ rdramSize ops, Runs.Along (step rdramSize) (SafeStep rdramSize) (some .empty) ops := by
  intro h
  obtain ⟨-, -, ⟨l, hl, ⟨t, ht, hsound⟩, -⟩, -⟩ := h 0x7FFFFF copyRemoved
  have hlast : Runs.runFrom (step 0x7FFFFF) (some .empty) copyRemoved = some t := by
    rw [← ht, copyRemoved, Runs.runFrom_cons, Runs.runFrom_cons, Runs.runFrom_cons, hl]
    rfl
  have hend : (Runs.runFrom (step 0x7FFFFF) (some .empty) copyRemoved).map
      (fun t => (t.buffers.order, t.copy)) = some ([], some 0) := by decide
  rw [hlast, Option.map_some, Option.some.injEq, Prod.mk.injEq] at hend
  have hmem := hsound.copy 0 hend.2
  rw [hend.1] at hmem
  exact List.not_mem_nil hmem

end FrameBufferOp

end Mupen64plus
