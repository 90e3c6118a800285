import Mupen64plus.Device.CartRomDma
import Mupen64plus.Device.FlashChip
import Mupen64plus.Device.ViAi
import Mupen64plus.Lib.LowXor
import Mupen64plus.Rsp.DmaAgreement

/-!
# The bounds of DMA

Which bytes of which memories the DMA handlers index, and for which registers all of them are
inside. A handler masks an address once, some with a mask wider than their memory, and then runs for
the whole length.

## Main definitions

- `Sweep` — the indices of a loop over a memory
- `DmaTransfer`, `Device.sweeps` — the transfers, with the loops of their handlers
- `InsideMemories` — every index is below the size of its memory
- `DmaFits` — the condition on the registers

## Main results

- `held_transferred` — a transfer writes nothing but what it sweeps
- `insideMemories_iff`
-/

namespace Mupen64plus

-- ════════════════════
-- Loops over a memory
-- ════════════════════

/-- The memories that DMA reads and writes. -/
inductive DmaMemory where
  | dram | sram | flash | pageBuf | rom | ddRom | dsBuf | c2sBuf | spMem | pifRam
  deriving DecidableEq, Repr

/-- The indices of `for (i = 0; i < count; ++i) mem[(start+i)^S8]`, or of the same loop without
`^S8`. -/
structure Sweep where
  memory : DmaMemory
  start : ℕ
  count : ℕ
  swapped : Bool

namespace Sweep

/-- An index of the loop. -/
def Indexes (s : Sweep) (k : ℕ) : Prop :=
  ∃ i < s.count, k = if s.swapped then (s.start + i) ^^^ 3 else s.start + i

theorem indexes_swapped {memory : DmaMemory} {start count k : ℕ} :
    (Sweep.mk memory start count true).Indexes k ↔ start ≤ k ^^^ 3 ∧ k ^^^ 3 < start + count := by
  constructor
  · rintro ⟨i, hi, hk⟩
    rw [if_pos rfl] at hk
    rw [hk, LowXor.xor_three_xor_three]
    change i < count at hi
    change start ≤ start + i ∧ start + i < start + count
    omega
  · rintro ⟨hle, hlt⟩
    refine ⟨(k ^^^ 3) - start, by change _ < count; omega, ?_⟩
    rw [if_pos rfl, Nat.add_sub_cancel' hle, LowXor.xor_three_xor_three]

end Sweep

/-- Every index of a loop with `^S8` is below a size: the loop runs within the whole words of the
memory, or within those bytes of its last word that are there. -/
def SweepFits (size start count : ℕ) : Prop :=
  count = 0 ∨ start + count ≤ 4 * (size / 4) ∨
    4 * (size / 4) + 4 ≤ start + size % 4 ∧ start + count ≤ 4 * (size / 4) + 4

theorem sweepFits_iff (size start count : ℕ) :
    (∀ i < count, (start + i) ^^^ 3 < size) ↔ SweepFits size start count := by
  unfold SweepFits
  constructor
  · intro h
    by_cases hzero : count = 0
    · exact Or.inl hzero
    have hfirst := h 0 (by omega)
    have hlast := h (count - 1) (by omega)
    rw [LowXor.xor_three] at hfirst hlast
    by_cases hwhole : start + count ≤ 4 * (size / 4)
    · exact Or.inr (Or.inl hwhole)
    -- a loop over two words would index the first byte of the second, at its far end
    by_cases hcross : start < 4 * (size / 4)
    · have hmiddle := h (4 * (size / 4) - start) (by omega)
      rw [LowXor.xor_three] at hmiddle
      omega
    · omega
  · intro h i hi
    rw [LowXor.xor_three]
    omega

namespace Device

/-- The size of a memory, in bytes. -/
def dmaSize (d : Device) : DmaMemory → ℕ
  | .dram => d.rdram.dramSize
  | .sram => 0x8000
  | .flash => flashramSize
  | .pageBuf => 128
  | .rom => d.cart.cartRom.romSize
  | .ddRom => d.dd.romSize
  | .dsBuf => 0x100
  | .c2sBuf => 0x400
  | .spMem => 0x2000
  | .pifRam => 64

-- ════════════════════
-- The loops of the handlers
-- ════════════════════

/-- `sram_dma_read` and `sram_dma_write`. -/
def sramSweeps (dramAddr cartAddr length : BitVec 32) : List Sweep :=
  [⟨.sram, (cartAddr &&& 0x0000ffff).toNat, length.toNat, true⟩,
    ⟨.dram, dramAddr.toNat, length.toNat, true⟩]

/-- `flashram_dma_read`. -/
def flashReadSweeps (d : Device) (dramAddr cartAddr length : BitVec 32) : List Sweep :=
  if cartAddr &&& 0x1ffff = 0 ∧ length = 128 ∧ d.cart.flashram.mode = .pageProgram then
    [⟨.pageBuf, 0, length.toNat, false⟩, ⟨.dram, dramAddr.toNat, length.toNat, true⟩]
  else []

/-- `flashram_dma_write`. -/
def flashWriteSweeps (d : Device) (dramAddr cartAddr length : BitVec 32) : List Sweep :=
  if cartAddr &&& 0x1ffff = 0 ∧ length = 8 ∧ d.cart.flashram.mode = .readSiliconId then
    [⟨.dram, 4 * (dramAddr >>> 2).toNat, 8, false⟩]
  else if cartAddr &&& 0x1ffff < 0x10000 ∧ d.cart.flashram.mode = .readArray then
    [⟨.flash, FlashStep.arrayStart d.cart.flashram cartAddr, length.toNat, true⟩,
      ⟨.dram, dramAddr.toNat, length.toNat, true⟩]
  else []

/-- The bytes that `cart_rom_dma_write` takes from the ROM; the others it stores are 0. -/
def romCopied (r : CartRom) (cartAddr length : BitVec 32) : ℕ :=
  if ((cartAddr &&& 0x03ffffff) + length).toNat < r.romSize then length.toNat
  else r.romSize - cartRomStart cartAddr

/-- `cart_rom_dma_write`. -/
def cartRomWriteSweeps (d : Device) (dramAddr cartAddr length : BitVec 32) : List Sweep :=
  [⟨.rom, cartRomStart cartAddr, romCopied d.cart.cartRom cartAddr length, true⟩,
    ⟨.dram, dramAddr.toNat, length.toNat, true⟩]

/-- `dd_dom_dma_read`. -/
def ddReadSweeps (dramAddr cartAddr length : BitVec 32) : List Sweep :=
  if cartAddr = mmDdDsBuffer then
    [⟨.dsBuf, 0, length.toNat, true⟩, ⟨.dram, dramAddr.toNat, length.toNat, true⟩]
  else []

/-- `dd_dom_dma_write`. -/
def ddWriteSweeps (dramAddr cartAddr length : BitVec 32) : List Sweep :=
  let dram : Sweep := ⟨.dram, dramAddr.toNat, length.toNat, true⟩
  if cartAddr < mmDdRom then
    if cartAddr = mmDdC2sBuffer then [⟨.c2sBuf, 0, length.toNat, true⟩, dram]
    else if cartAddr = mmDdDsBuffer then [⟨.dsBuf, 0, length.toNat, true⟩, dram]
    else []
  else [⟨.ddRom, (cartAddr - mmDdRom).toNat, length.toNat, true⟩, dram]

/-- The `dma_read` callback of a domain. -/
def piReadSweeps (d : Device) (dom : PiDomain) (dramAddr cartAddr length : BitVec 32) :
    List Sweep :=
  match dom with
  | .cartRom => []
  | .cartDom2 =>
    if d.cart.useFlashram ≠ 1 then sramSweeps dramAddr cartAddr length
    else d.flashReadSweeps dramAddr cartAddr length
  | .dd => ddReadSweeps dramAddr cartAddr length

/-- The `dma_write` callback of a domain. -/
def piWriteSweeps (d : Device) (dom : PiDomain) (dramAddr cartAddr length : BitVec 32) :
    List Sweep :=
  match dom with
  | .cartRom => d.cartRomWriteSweeps dramAddr cartAddr length
  | .cartDom2 =>
    if d.cart.useFlashram ≠ 1 then sramSweeps dramAddr cartAddr length
    else d.flashWriteSweeps dramAddr cartAddr length
  | .dd => ddWriteSweeps dramAddr cartAddr length

/-- `copy_pif_rdram`. -/
def siSweeps (d : Device) : List Sweep :=
  match d.si.dmaDir with
  | .dmaWrite | .dmaRead => [⟨.dram, 4 * d.siDramIndex, 64, false⟩, ⟨.pifRam, 0, 64, false⟩]
  | _ => []

/-- `do_sp_dma`, byte by byte. -/
def spSweeps (dma : SpDma) : List Sweep :=
  dma.accesses.flatMap fun p => [⟨.spMem, p.1, 1, true⟩, ⟨.dram, p.2, 1, true⟩]

/-- The samples `push_samples` is given: `n` bytes of the first buffer, from `diff` on. -/
def aiSweeps (d : Device) (diff n : BitVec 32) : List Sweep :=
  [⟨.dram, (d.ai.fifo 0).address.toNat / 4 * 4 + diff.toNat, n.toNat, false⟩]

end Device

/-- The transfers: those that the PI accepts, `copy_pif_rdram`, `do_sp_dma`, and what is played when
`AI_LEN` is read and when a buffer ends. -/
inductive DmaTransfer where
  | piRead | piWrite | si
  | sp (dma : SpDma)
  | aiRead | aiEnd

namespace Device

/-- The loops of a transfer. -/
def sweeps (d : Device) : DmaTransfer → List Sweep
  | .piRead =>
    if !d.piIdle then []
    else
      match getPiDmaHandler d.piCartAddr with
      | none => []
      | some dom => d.piReadSweeps dom d.piDramAddr d.piCartAddr (piLength (d.pi.regs .rdLen))
  | .piWrite =>
    if !d.piIdle then []
    else
      match getPiDmaHandler d.piCartAddr with
      | none => []
      | some dom => d.piWriteSweeps dom d.piDramAddr d.piCartAddr d.piWriteLength
  | .si => d.siSweeps
  | .sp dma => spSweeps dma
  | .aiRead =>
    let value := d.aiRemainingLength.1
    if value < d.ai.lastRead then
      d.aiSweeps ((d.ai.fifo 0).length - d.ai.lastRead) (d.ai.lastRead - value)
    else []
  | .aiEnd =>
    if d.ai.lastRead ≠ 0 then d.aiSweeps ((d.ai.fifo 0).length - d.ai.lastRead) d.ai.lastRead
    else []

/-- The device after a transfer. -/
def transferred (o : Outside) (d : Device) : DmaTransfer → Device
  | .piRead => d.dmaPiRead
  | .piWrite => dmaPiWrite o d
  | .si => d.copyPifRdram
  | .sp dma => d.doSpDma dma
  | .aiRead => (d.readAiRegs 0x04500004).2
  | .aiEnd => d.aiEndOfDmaEvent

/-- The byte of a memory at an index of the host. -/
def held (d : Device) : DmaMemory → ℕ → BitVec 8
  | .dram, k => d.rdram.dram.byte (k ^^^ 3)
  | .sram, k => d.cart.sram.byte (k ^^^ 3)
  | .flash, k => d.cart.flashram.mem.byte (k ^^^ 3)
  | .pageBuf, k => if h : k < 128 then d.cart.flashram.pageBuf ⟨k, h⟩ else 0
  | .rom, k => d.cart.cartRom.rom.byte (k ^^^ 3)
  | .ddRom, k => d.dd.rom.byte (k ^^^ 3)
  | .dsBuf, k => d.dd.dsBuf k
  | .c2sBuf, k => d.dd.c2sBuf k
  | .spMem, k => d.sp.mem.byte (k ^^^ 3)
  | .pifRam, k => d.pif.ram k

end Device

/-- Every index of a transfer is below the size of its memory. -/
def InsideMemories (d : Device) (t : DmaTransfer) : Prop :=
  ∀ s ∈ d.sweeps t, ∀ k, s.Indexes k → k < d.dmaSize s.memory

-- ════════════════════
-- A transfer writes nothing but what it sweeps
-- ════════════════════

/-- An index of a memory is in none of some loops. -/
def Unswept (sweeps : List Sweep) (m : DmaMemory) (k : ℕ) : Prop :=
  ∀ s ∈ sweeps, s.memory = m → ¬s.Indexes k

/-- What the byte loop leaves. -/
theorem byte_copyBytes_unswept {sweeps : List Sweep} {m : DmaMemory} {start count k : ℕ}
    (w : Words) (src : ℕ → BitVec 8) (hmem : ⟨m, start, count, true⟩ ∈ sweeps)
    (h : Unswept sweeps m k) :
    (w.copyBytes start src count).byte (k ^^^ 3) = w.byte (k ^^^ 3) := by
  have hk := h _ hmem rfl
  rw [Sweep.indexes_swapped] at hk
  rw [Words.byte_copyBytes, if_neg hk]

namespace Device

variable {d : Device} {dramAddr cartAddr length : BitVec 32} {m : DmaMemory} {k : ℕ}

/-- What the memories hold depends on these parts of the console only. -/
theorem held_congr {d e : Device} (hrdram : e.rdram = d.rdram) (hcart : e.cart = d.cart)
    (hdd : e.dd = d.dd) (hsp : e.sp.mem = d.sp.mem) (hpif : e.pif = d.pif) : e.held = d.held := by
  funext m k
  cases m <;> simp only [held, hrdram, hcart, hdd, hsp, hpif]

theorem held_piStarted (d : Device) (length cycles : BitVec 32) :
    (d.piStarted length cycles).held = d.held := held_congr rfl rfl rfl rfl rfl

theorem held_invalidateBoth (d : Device) (dramAddr length : BitVec 32) :
    (d.invalidateBoth dramAddr length).held = d.held := held_congr rfl rfl rfl rfl rfl

theorem held_setUseFlashram (d : Device) (v : BitVec 32) : (d.setUseFlashram v).held = d.held := by
  funext m k
  cases m <;> rfl

/-- A byte loop over RDRAM. -/
theorem held_setDram_copyBytes {sweeps : List Sweep} (d : Device) {start count : ℕ}
    (src : ℕ → BitVec 8) (hmem : ⟨.dram, start, count, true⟩ ∈ sweeps)
    (h : Unswept sweeps m k) :
    (d.setDram (d.rdram.dram.copyBytes start src count)).held m k = d.held m k := by
  cases m with
  | dram => exact byte_copyBytes_unswept _ src hmem h
  | _ => rfl

theorem held_sramDmaRead (h : Unswept (sramSweeps dramAddr cartAddr length) m k) :
    (d.sramDmaRead dramAddr cartAddr length).1.held m k = d.held m k := by
  cases m with
  | sram => exact byte_copyBytes_unswept _ _ List.mem_cons_self h
  | _ => rfl

theorem held_sramDmaWrite (h : Unswept (sramSweeps dramAddr cartAddr length) m k) :
    (d.sramDmaWrite dramAddr cartAddr length).1.held m k = d.held m k :=
  held_setDram_copyBytes d _ (List.mem_cons_of_mem _ List.mem_cons_self) h

theorem held_flashramDmaRead (h : Unswept (d.flashReadSweeps dramAddr cartAddr length) m k) :
    (d.flashramDmaRead dramAddr cartAddr length).1.held m k = d.held m k := by
  unfold flashReadSweeps at h
  unfold flashramDmaRead
  dsimp only
  split
  · next hload =>
    rw [if_pos hload] at h
    cases m with
    | pageBuf =>
      have hk : ¬k < 128 := fun hk => h _ List.mem_cons_self rfl ⟨k, by rw [hload.2.1]; exact hk,
        by rw [if_neg Bool.false_ne_true]; exact (Nat.zero_add k).symm⟩
      simp only [held, dif_neg hk]
    | _ => rfl
  · rfl

theorem held_flashramDmaWrite (h : Unswept (d.flashWriteSweeps dramAddr cartAddr length) m k) :
    (d.flashramDmaWrite dramAddr cartAddr length).1.held m k = d.held m k := by
  unfold flashWriteSweeps at h
  unfold flashramDmaWrite
  dsimp only
  split
  · next hid =>
    rw [if_pos hid] at h
    cases m with
    | dram =>
      have hk : ¬((dramAddr >>> 2).toNat ≤ k / 4 ∧ k / 4 < (dramAddr >>> 2).toNat + 2) := by
        rintro ⟨hle, hlt⟩
        refine h _ List.mem_cons_self rfl ⟨k - 4 * (dramAddr >>> 2).toNat, ?_, ?_⟩
        · change _ < 8
          omega
        · rw [if_neg Bool.false_ne_true]
          change k = 4 * (dramAddr >>> 2).toNat + _
          omega
      have hword : (k ^^^ 3) / 4 = k / 4 := by
        rw [LowXor.xor_three]
        omega
      simp only [held, setDram, Words.byte, hword]
      rw [Function.update_of_ne (by omega), Function.update_of_ne (by omega)]
    | _ => rfl
  · next hid =>
    rw [if_neg hid] at h
    split
    · next harray =>
      rw [if_pos harray] at h
      exact held_setDram_copyBytes d _ (List.mem_cons_of_mem _ List.mem_cons_self) h
    · rfl

theorem held_cartRomDmaWrite (o : Outside)
    (h : Unswept (d.cartRomWriteSweeps dramAddr cartAddr length) m k) :
    (cartRomDmaWrite o d dramAddr cartAddr length).1.held m k = d.held m k := by
  unfold cartRomDmaWrite
  dsimp only
  rw [held_invalidateBoth]
  exact held_setDram_copyBytes d _ (List.mem_cons_of_mem _ List.mem_cons_self) h

theorem held_ddDomDmaRead (h : Unswept (ddReadSweeps dramAddr cartAddr length) m k) :
    (d.ddDomDmaRead dramAddr cartAddr length).1.held m k = d.held m k := by
  unfold ddReadSweeps at h
  unfold ddDomDmaRead
  split
  · next hbuf =>
    rw [if_pos hbuf] at h
    cases m with
    | dsBuf =>
      have hk := h _ List.mem_cons_self rfl
      rw [Sweep.indexes_swapped] at hk
      exact if_neg (by omega)
    | _ => rfl
  · rfl

theorem held_ddDomDmaWrite (h : Unswept (ddWriteSweeps dramAddr cartAddr length) m k) :
    (d.ddDomDmaWrite dramAddr cartAddr length).1.held m k = d.held m k := by
  unfold ddDomDmaWrite
  cases hsrc : d.ddDmaSource cartAddr with
  | none => rfl
  | some src =>
    have hmem : (⟨.dram, dramAddr.toNat, length.toNat, true⟩ : Sweep) ∈
        ddWriteSweeps dramAddr cartAddr length := by
      unfold ddDmaSource at hsrc
      unfold ddWriteSweeps
      dsimp only
      split_ifs at hsrc ⊢ <;> simp
    dsimp only
    rw [held_invalidateBoth]
    exact held_setDram_copyBytes d src hmem h

theorem held_piDmaRead {dom : PiDomain}
    (h : Unswept (d.piReadSweeps dom dramAddr cartAddr length) m k) :
    (d.piDmaRead dom dramAddr cartAddr length).1.held m k = d.held m k := by
  cases dom with
  | cartRom => rfl
  | cartDom2 =>
    simp only [piReadSweeps] at h
    simp only [piDmaRead, cartDom2DmaRead]
    split
    · next huse =>
      rw [if_pos huse] at h
      dsimp only
      rw [held_setUseFlashram]
      exact held_sramDmaRead h
    · next huse =>
      rw [if_neg huse] at h
      exact held_flashramDmaRead h
  | dd => exact held_ddDomDmaRead h

theorem held_piDmaWrite (o : Outside) {dom : PiDomain}
    (h : Unswept (d.piWriteSweeps dom dramAddr cartAddr length) m k) :
    (piDmaWrite o d dom dramAddr cartAddr length).1.held m k = d.held m k := by
  cases dom with
  | cartRom => exact held_cartRomDmaWrite o h
  | cartDom2 =>
    simp only [piWriteSweeps] at h
    simp only [piDmaWrite, cartDom2DmaWrite]
    split
    · next huse =>
      rw [if_pos huse] at h
      dsimp only
      rw [held_setUseFlashram]
      exact held_sramDmaWrite h
    · next huse =>
      rw [if_neg huse] at h
      exact held_flashramDmaWrite h
  | dd => exact held_ddDomDmaWrite h

theorem held_copyPifRdram (h : Unswept d.siSweeps m k) :
    d.copyPifRdram.held m k = d.held m k := by
  unfold siSweeps at h
  unfold copyPifRdram
  cases hdir : d.si.dmaDir with
  | dmaWrite =>
    rw [hdir] at h
    cases m with
    | pifRam =>
      have hk : ¬k < 64 := fun hk => h _ (List.mem_cons_of_mem _ List.mem_cons_self) rfl
        ⟨k, hk, by rw [if_neg Bool.false_ne_true]; exact (Nat.zero_add k).symm⟩
      exact if_neg hk
    | _ => rfl
  | dmaRead =>
    rw [hdir] at h
    cases m with
    | dram =>
      have hk : ¬(d.siDramIndex ≤ (k ^^^ 3) / 4 ∧ (k ^^^ 3) / 4 < d.siDramIndex + 16) := by
        rw [LowXor.xor_three]
        rintro ⟨hle, hlt⟩
        refine h _ List.mem_cons_self rfl ⟨k - 4 * d.siDramIndex, ?_, ?_⟩
        · change _ < 64
          omega
        · rw [if_neg Bool.false_ne_true]
          change k = 4 * d.siDramIndex + _
          omega
      exact congrArg (wordByte · (k ^^^ 3)) (if_neg hk)
    | _ => rfl
  | _ => rfl

/-- The bytes that a list of moves leaves. -/
theorem byte_move_of_ne (dst src : Words) {l : List (ℕ × ℕ)} {a : ℕ} (h : ∀ p ∈ l, p.1 ≠ a) :
    (dst.move src l).byte a = dst.byte a := by
  have hnone : Assignments.lastSource l a = none :=
    Assignments.lastSource_eq_none_iff.mpr fun s hs => h _ hs rfl
  rw [Words.byte_move, hnone]
  rfl

/-- A transfer of the signal processor has nothing to do with cartridge, drive and PIF. -/
theorem doSpDma_others (d : Device) (dma : SpDma) : (d.doSpDma dma).cart = d.cart ∧
    (d.doSpDma dma).dd = d.dd ∧ (d.doSpDma dma).pif = d.pif := by
  unfold doSpDma
  generalize d.spDmaRows dma = rows
  dsimp only
  split <;> exact ⟨rfl, rfl, rfl⟩

theorem held_doSpDma {dma : SpDma} (h : Unswept (spSweeps dma) m k) :
    (d.doSpDma dma).held m k = d.held m k := by
  obtain ⟨hmem, hdram⟩ := d.memories_doSpDma dma
  obtain ⟨hcart, hdd, hpif⟩ := d.doSpDma_others dma
  have hone {memory : DmaMemory} {a : ℕ} (hsweep : ⟨memory, a, 1, true⟩ ∈ spSweeps dma)
      (hm : memory = m) : a ≠ k ^^^ 3 := by
    rintro rfl
    have hk := h _ hsweep hm
    rw [Sweep.indexes_swapped] at hk
    omega
  cases m with
  | spMem =>
    simp only [held, hmem]
    split
    · rfl
    · refine byte_move_of_ne _ _ fun p hp => hone ?_ rfl
      exact List.mem_flatMap.mpr ⟨p, hp, List.mem_cons_self⟩
  | dram =>
    simp only [held, hdram]
    split
    · refine byte_move_of_ne _ _ fun p hp => hone ?_ rfl
      obtain ⟨q, hq, rfl⟩ := List.mem_map.mp hp
      exact List.mem_flatMap.mpr ⟨q, hq, List.mem_cons_of_mem _ List.mem_cons_self⟩
    · rfl
  | _ => simp only [held, hcart, hdd, hpif]

theorem held_aiRemainingLength (d : Device) : d.aiRemainingLength.2.held = d.held := by
  have hcount : d.updateCount.held = d.held := held_congr rfl rfl rfl rfl rfl
  unfold aiRemainingLength
  dsimp only
  split
  · rfl
  · split
    · exact hcount
    · split <;> exact hcount

/-- Playing only takes samples. -/
theorem held_readAiRegs (d : Device) : (d.readAiRegs 0x04500004).2.held = d.held := by
  have hreg : regAt AiReg.block 0x04500004 = some .len := by decide
  rw [← held_aiRemainingLength d]
  unfold readAiRegs
  rw [hreg]
  dsimp only
  split
  · exact held_congr rfl rfl rfl rfl rfl
  · rfl

theorem held_aiDoDma (d : Device) : d.aiDoDma.held = d.held := by
  unfold aiDoDma aiFormat
  dsimp only
  split <;> exact held_congr rfl rfl rfl rfl rfl

theorem held_aiFifoPop (d : Device) : d.aiFifoPop.held = d.held := by
  unfold aiFifoPop
  split
  · dsimp only
    rw [held_aiDoDma]
    exact held_congr rfl rfl rfl rfl rfl
  · exact held_congr rfl rfl rfl rfl rfl

theorem held_aiEndOfDmaEvent (d : Device) : d.aiEndOfDmaEvent.held = d.held := by
  have hraise (d : Device) : (d.raiseRcpInterrupt miIntrAI).held = d.held := by
    unfold raiseRcpInterrupt
    dsimp only
    split <;> exact held_congr rfl rfl rfl rfl rfl
  unfold aiEndOfDmaEvent
  dsimp only
  rw [hraise, held_aiFifoPop]
  split
  · exact held_congr rfl rfl rfl rfl rfl
  · rfl

/-- **A transfer writes nothing but what it sweeps.** -/
theorem held_transferred (o : Outside) {t : DmaTransfer} (h : Unswept (d.sweeps t) m k) :
    (d.transferred o t).held m k = d.held m k := by
  cases t with
  | piRead =>
    simp only [transferred, dmaPiRead]
    simp only [sweeps] at h
    split
    · exact congrFun₂ (held_congr rfl rfl rfl rfl rfl) m k
    · next hidle =>
      rw [if_neg hidle] at h
      cases hdom : getPiDmaHandler d.piCartAddr with
      | none => rfl
      | some dom =>
        rw [hdom] at h
        dsimp only
        rw [held_piStarted]
        exact held_piDmaRead h
  | piWrite =>
    simp only [transferred, dmaPiWrite]
    simp only [sweeps] at h
    split
    · exact congrFun₂ (held_congr rfl rfl rfl rfl rfl) m k
    · next hidle =>
      rw [if_neg hidle] at h
      cases hdom : getPiDmaHandler d.piCartAddr with
      | none => rfl
      | some dom =>
        rw [hdom] at h
        dsimp only
        rw [held_piStarted]
        exact held_piDmaWrite o h
  | si => exact held_copyPifRdram h
  | sp dma => exact held_doSpDma h
  | aiRead => exact congrFun₂ d.held_readAiRegs m k
  | aiEnd => exact congrFun₂ d.held_aiEndOfDmaEvent m k

end Device

-- ════════════════════
-- The condition on the registers
-- ════════════════════

namespace Device

/-- A loop over RDRAM stays inside. -/
def DramFits (d : Device) (dramAddr length : BitVec 32) : Prop :=
  SweepFits d.rdram.dramSize dramAddr.toNat length.toNat

/-- A transfer of save memory: the start is the low half-word of the address. -/
def SramFits (d : Device) (dramAddr cartAddr length : BitVec 32) : Prop :=
  SweepFits 0x8000 (cartAddr.toNat % 0x10000) length.toNat ∧ d.DramFits dramAddr length

/-- The page buffer has the length of the only transfer it takes. -/
def FlashReadFits (d : Device) (dramAddr cartAddr length : BitVec 32) : Prop :=
  cartAddr &&& 0x1ffff = 0 → length = 128 → d.cart.flashram.mode = .pageProgram →
    d.DramFits dramAddr length

def FlashWriteFits (d : Device) (dramAddr cartAddr length : BitVec 32) : Prop :=
  (cartAddr &&& 0x1ffff = 0 → length = 8 → d.cart.flashram.mode = .readSiliconId →
    dramAddr.toNat / 4 * 4 + 8 ≤ d.rdram.dramSize) ∧
  (cartAddr &&& 0x1ffff < 0x10000 → d.cart.flashram.mode = .readArray →
    SweepFits flashramSize (FlashStep.arrayStart d.cart.flashram cartAddr) length.toNat ∧
      d.DramFits dramAddr length)

def CartRomFits (d : Device) (dramAddr cartAddr length : BitVec 32) : Prop :=
  SweepFits d.cart.cartRom.romSize (cartRomStart cartAddr)
      (romCopied d.cart.cartRom cartAddr length) ∧
    d.DramFits dramAddr length

def DdReadFits (d : Device) (dramAddr cartAddr length : BitVec 32) : Prop :=
  cartAddr = mmDdDsBuffer → length.toNat ≤ 0x100 ∧ d.DramFits dramAddr length

def DdWriteFits (d : Device) (dramAddr cartAddr length : BitVec 32) : Prop :=
  (cartAddr = mmDdC2sBuffer → length.toNat ≤ 0x400 ∧ d.DramFits dramAddr length) ∧
  (cartAddr = mmDdDsBuffer → length.toNat ≤ 0x100 ∧ d.DramFits dramAddr length) ∧
  (mmDdRom ≤ cartAddr → SweepFits d.dd.romSize (cartAddr - mmDdRom).toNat length.toNat ∧
    d.DramFits dramAddr length)

def PiReadFits (d : Device) (dom : PiDomain) (dramAddr cartAddr length : BitVec 32) : Prop :=
  match dom with
  | .cartRom => True
  | .cartDom2 =>
    if d.cart.useFlashram ≠ 1 then d.SramFits dramAddr cartAddr length
    else d.FlashReadFits dramAddr cartAddr length
  | .dd => d.DdReadFits dramAddr cartAddr length

def PiWriteFits (d : Device) (dom : PiDomain) (dramAddr cartAddr length : BitVec 32) : Prop :=
  match dom with
  | .cartRom => d.CartRomFits dramAddr cartAddr length
  | .cartDom2 =>
    if d.cart.useFlashram ≠ 1 then d.SramFits dramAddr cartAddr length
    else d.FlashWriteFits dramAddr cartAddr length
  | .dd => d.DdWriteFits dramAddr cartAddr length

/-- Every byte of every row, wrapped at 8 MiB, is inside of RDRAM. -/
def SpFits (d : Device) (dma : SpDma) : Prop :=
  ∀ j < dma.rowCount.toNat, ∀ i < dma.rowLength.toNat,
    (dma.dramStart + j * dma.stride + i) % 0x800000 ^^^ 3 < d.rdram.dramSize

/-- Some samples of the first buffer are inside of RDRAM. -/
def AiFits (d : Device) (diff n : BitVec 32) : Prop :=
  n = 0 ∨ (d.ai.fifo 0).address.toNat / 4 * 4 + diff.toNat + n.toNat ≤ d.rdram.dramSize

end Device

/-- The registers keep a transfer inside of the memories. -/
def DmaFits (d : Device) : DmaTransfer → Prop
  | .piRead => d.piIdle = true → ∀ dom, getPiDmaHandler d.piCartAddr = some dom →
      d.PiReadFits dom d.piDramAddr d.piCartAddr (Device.piLength (d.pi.regs .rdLen))
  | .piWrite => d.piIdle = true → ∀ dom, getPiDmaHandler d.piCartAddr = some dom →
      d.PiWriteFits dom d.piDramAddr d.piCartAddr d.piWriteLength
  | .si => d.si.dmaDir = .dmaWrite ∨ d.si.dmaDir = .dmaRead →
      (d.si.regs .dramAddr).toNat % 0x1000000 / 4 * 4 + 64 ≤ d.rdram.dramSize
  | .sp dma => d.SpFits dma
  | .aiRead => d.aiRemainingLength.1 < d.ai.lastRead →
      d.AiFits ((d.ai.fifo 0).length - d.ai.lastRead) (d.ai.lastRead - d.aiRemainingLength.1)
  | .aiEnd => d.AiFits ((d.ai.fifo 0).length - d.ai.lastRead) d.ai.lastRead

namespace Device

/-- All indices of some loops are inside. -/
def SweepsInside (d : Device) (sweeps : List Sweep) : Prop :=
  ∀ s ∈ sweeps, ∀ k, s.Indexes k → k < d.dmaSize s.memory

@[simp] theorem sweepsInside_nil (d : Device) : d.SweepsInside [] := fun _ h => by simp at h

theorem sweepsInside_cons (d : Device) (s : Sweep) (sweeps : List Sweep) :
    d.SweepsInside (s :: sweeps) ↔
      (∀ k, s.Indexes k → k < d.dmaSize s.memory) ∧ d.SweepsInside sweeps :=
  List.forall_mem_cons

theorem sweepsInside_pair (d : Device) (s t : Sweep) :
    d.SweepsInside [s, t] ↔ (∀ k, s.Indexes k → k < d.dmaSize s.memory) ∧
      ∀ k, t.Indexes k → k < d.dmaSize t.memory := by
  rw [sweepsInside_cons, sweepsInside_cons]
  simp

theorem indexesInside_swapped (d : Device) (memory : DmaMemory) (start count : ℕ) :
    (∀ k, (Sweep.mk memory start count true).Indexes k → k < d.dmaSize memory) ↔
      SweepFits (d.dmaSize memory) start count := by
  rw [← sweepFits_iff]
  constructor
  · intro h i hi
    exact h _ ⟨i, hi, rfl⟩
  · rintro h _ ⟨i, hi, rfl⟩
    exact h i hi

theorem indexesInside_plain (d : Device) (memory : DmaMemory) (start count : ℕ) :
    (∀ k, (Sweep.mk memory start count false).Indexes k → k < d.dmaSize memory) ↔
      count = 0 ∨ start + count ≤ d.dmaSize memory := by
  constructor
  · intro h
    by_cases hzero : count = 0
    · exact Or.inl hzero
    · have hlast := h (start + (count - 1)) ⟨count - 1, by change _ < count; omega, rfl⟩
      omega
  · rintro h _ ⟨i, hi, rfl⟩
    change i < count at hi
    change start + i < _
    omega

variable (d : Device) (dramAddr cartAddr length : BitVec 32)

theorem sramSweeps_inside :
    d.SweepsInside (sramSweeps dramAddr cartAddr length) ↔
      d.SramFits dramAddr cartAddr length := by
  have hlow : (cartAddr &&& 0x0000ffff).toNat = cartAddr.toNat % 2 ^ 16 :=
    Flags.toNat_and_low 16 rfl
  unfold sramSweeps SramFits DramFits
  rw [sweepsInside_pair, indexesInside_swapped, indexesInside_swapped, hlow]
  rfl

theorem flashReadSweeps_inside :
    d.SweepsInside (d.flashReadSweeps dramAddr cartAddr length) ↔
      d.FlashReadFits dramAddr cartAddr length := by
  unfold flashReadSweeps FlashReadFits
  split
  · next h =>
    obtain ⟨hcart, hlength, hmode⟩ := h
    have hbuffer : length.toNat = 0 ∨ 0 + length.toNat ≤ d.dmaSize .pageBuf := by
      rw [hlength]
      exact Or.inr (le_refl 128)
    rw [sweepsInside_pair, indexesInside_plain, indexesInside_swapped]
    exact ⟨fun hfits _ _ _ => hfits.2, fun hfits => ⟨hbuffer, hfits hcart hlength hmode⟩⟩
  · next h =>
    simp only [sweepsInside_nil, true_iff]
    exact fun hcart hlength hmode => absurd ⟨hcart, hlength, hmode⟩ h

theorem flashWriteSweeps_inside :
    d.SweepsInside (d.flashWriteSweeps dramAddr cartAddr length) ↔
      d.FlashWriteFits dramAddr cartAddr length := by
  have hword : (dramAddr >>> 2).toNat = dramAddr.toNat / 4 := by
    rw [BitVec.toNat_ushiftRight, Nat.shiftRight_eq_div_pow]
  unfold flashWriteSweeps FlashWriteFits
  split
  · next h =>
    obtain ⟨hcart, hlength, hmode⟩ := h
    rw [sweepsInside_cons, indexesInside_plain]
    simp only [hcart, hlength, hmode, hword, sweepsInside_nil, and_true, forall_true_left,
      reduceCtorEq, false_implies, implies_true, false_or, OfNat.ofNat_ne_zero]
    rw [Nat.mul_comm]
    rfl
  · next h =>
    have hid : cartAddr &&& 0x1ffff = 0 → length = 8 → d.cart.flashram.mode = .readSiliconId →
        dramAddr.toNat / 4 * 4 + 8 ≤ d.rdram.dramSize := fun hcart hlength hmode =>
      absurd ⟨hcart, hlength, hmode⟩ h
    rw [iff_true_intro hid, true_and]
    split
    · next harray =>
      rw [sweepsInside_pair, indexesInside_swapped, indexesInside_swapped]
      exact ⟨fun hfits _ _ => hfits, fun hfits => hfits harray.1 harray.2⟩
    · next harray =>
      simp only [sweepsInside_nil, true_iff]
      exact fun hcart hmode => absurd ⟨hcart, hmode⟩ harray

theorem cartRomWriteSweeps_inside :
    d.SweepsInside (d.cartRomWriteSweeps dramAddr cartAddr length) ↔
      d.CartRomFits dramAddr cartAddr length := by
  unfold cartRomWriteSweeps
  rw [sweepsInside_pair, indexesInside_swapped, indexesInside_swapped]
  rfl

/-- A buffer of whole words, swept from its start. -/
theorem indexesInside_buffer (memory : DmaMemory) (count : ℕ) (h : d.dmaSize memory % 4 = 0) :
    (∀ k, (Sweep.mk memory 0 count true).Indexes k → k < d.dmaSize memory) ↔
      count ≤ d.dmaSize memory := by
  rw [indexesInside_swapped]
  unfold SweepFits
  omega

theorem ddReadSweeps_inside :
    d.SweepsInside (ddReadSweeps dramAddr cartAddr length) ↔
      d.DdReadFits dramAddr cartAddr length := by
  unfold ddReadSweeps DdReadFits
  split
  · next h =>
    rw [sweepsInside_pair, indexesInside_buffer d .dsBuf _ (show 0x100 % 4 = 0 from rfl),
      indexesInside_swapped]
    exact ⟨fun hfits _ => hfits, fun hfits => hfits h⟩
  · next h =>
    simp only [sweepsInside_nil, true_iff]
    exact fun hcart => absurd hcart h

theorem ddWriteSweeps_inside :
    d.SweepsInside (ddWriteSweeps dramAddr cartAddr length) ↔
      d.DdWriteFits dramAddr cartAddr length := by
  have hc2s : mmDdC2sBuffer < mmDdRom := by decide
  have hds : mmDdDsBuffer < mmDdRom := by decide
  have hne : mmDdC2sBuffer ≠ mmDdDsBuffer := by decide
  unfold ddWriteSweeps DdWriteFits
  dsimp only
  split
  · next hlow =>
    have hrom : ¬mmDdRom ≤ cartAddr := BitVec.not_le.mpr hlow
    split
    · next h =>
      subst h
      rw [sweepsInside_pair, indexesInside_buffer d .c2sBuf _ (show 0x400 % 4 = 0 from rfl),
        indexesInside_swapped]
      simp only [hne, hrom, false_implies, and_true, forall_true_left]
      rfl
    · next h =>
      split
      · next h' =>
        subst h'
        rw [sweepsInside_pair, indexesInside_buffer d .dsBuf _ (show 0x100 % 4 = 0 from rfl),
          indexesInside_swapped]
        simp only [h, hrom, false_implies, true_and, and_true, forall_true_left]
        rfl
      · next h' => simp [h, h', hrom]
  · next hhigh =>
    have hrom : mmDdRom ≤ cartAddr := BitVec.not_lt.mp hhigh
    have hc2s' : cartAddr ≠ mmDdC2sBuffer := by
      rintro rfl
      exact hhigh hc2s
    have hds' : cartAddr ≠ mmDdDsBuffer := by
      rintro rfl
      exact hhigh hds
    rw [sweepsInside_pair, indexesInside_swapped, indexesInside_swapped]
    simp only [hc2s', hds', hrom, false_implies, true_and, forall_true_left]
    rfl

theorem siSweeps_inside :
    d.SweepsInside d.siSweeps ↔ DmaFits d .si := by
  have hstart : 4 * d.siDramIndex = (d.si.regs .dramAddr).toNat % 0x1000000 / 4 * 4 := by
    have hlow : (d.si.regs .dramAddr &&& ~~~3 &&& 0xffffff).toNat =
        4 * ((d.si.regs .dramAddr).toNat / 4 % 2 ^ 22) := by
      rw [BitVec.and_assoc, BitVec.toNat_and]
      exact Flags.and_field _ 2 22
    unfold siDramIndex rdramDramAddress
    rw [BitVec.toNat_ushiftRight, Nat.shiftRight_eq_div_pow, hlow]
    omega
  have hpif : 64 = 0 ∨ 0 + 64 ≤ d.dmaSize .pifRam := Or.inr (le_refl 64)
  have hboth : d.SweepsInside [⟨.dram, 4 * d.siDramIndex, 64, false⟩, ⟨.pifRam, 0, 64, false⟩] ↔
      (d.si.regs .dramAddr).toNat % 0x1000000 / 4 * 4 + 64 ≤ d.rdram.dramSize := by
    rw [sweepsInside_pair, indexesInside_plain, indexesInside_plain, hstart]
    exact ⟨fun h => h.1.resolve_left (by decide), fun h => ⟨Or.inr h, hpif⟩⟩
  unfold siSweeps DmaFits
  cases d.si.dmaDir with
  | dmaWrite => exact hboth.trans ⟨fun h _ => h, fun h => h (Or.inl rfl)⟩
  | dmaRead => exact hboth.trans ⟨fun h _ => h, fun h => h (Or.inr rfl)⟩
  | _ => simp

/-- One byte of a transfer. -/
theorem byteInside (memory : DmaMemory) (a : ℕ) :
    (∀ k, (Sweep.mk memory a 1 true).Indexes k → k < d.dmaSize memory) ↔
      a ^^^ 3 < d.dmaSize memory := by
  constructor
  · intro h
    exact h _ ⟨0, Nat.zero_lt_one, rfl⟩
  · rintro h _ ⟨i, hi, rfl⟩
    change i < 1 at hi
    obtain rfl : i = 0 := by omega
    exact h

theorem spSweeps_inside (dma : SpDma) : d.SweepsInside (spSweeps dma) ↔ d.SpFits dma := by
  have hbyte : d.SweepsInside (spSweeps dma) ↔ ∀ p ∈ dma.accesses,
      p.1 ^^^ 3 < 0x2000 ∧ p.2 ^^^ 3 < d.rdram.dramSize := by
    unfold SweepsInside spSweeps
    rw [List.forall_mem_flatMap]
    refine forall₂_congr fun p _ => ?_
    rw [← SweepsInside, sweepsInside_pair, byteInside, byteInside]
    rfl
  rw [hbyte]
  constructor
  · intro h j hj i hi
    exact (h _ (dma.mem_accesses.mpr ⟨j, hj, i, hi, rfl, rfl⟩)).2
  · rintro h ⟨x, y⟩ hp
    have hx := (dma.accesses_inside _ hp).1
    obtain ⟨j, hj, i, hi, -, rfl⟩ := dma.mem_accesses.mp hp
    refine ⟨?_, h j hj i hi⟩
    change x < 0x2000 at hx
    rw [LowXor.xor_three]
    omega

theorem aiSweeps_inside (diff n : BitVec 32) :
    d.SweepsInside (d.aiSweeps diff n) ↔ d.AiFits diff n := by
  have hzero : n.toNat = 0 ↔ n = 0 := BitVec.toNat_inj (y := 0)
  unfold aiSweeps AiFits
  rw [sweepsInside_cons, indexesInside_plain, hzero]
  simp only [sweepsInside_nil, and_true]
  rfl

theorem piReadSweeps_inside (dom : PiDomain) :
    d.SweepsInside (d.piReadSweeps dom dramAddr cartAddr length) ↔
      d.PiReadFits dom dramAddr cartAddr length := by
  cases dom with
  | cartRom => simp [piReadSweeps, PiReadFits]
  | cartDom2 =>
    simp only [piReadSweeps, PiReadFits]
    split
    · exact d.sramSweeps_inside dramAddr cartAddr length
    · exact d.flashReadSweeps_inside dramAddr cartAddr length
  | dd => exact d.ddReadSweeps_inside dramAddr cartAddr length

theorem piWriteSweeps_inside (dom : PiDomain) :
    d.SweepsInside (d.piWriteSweeps dom dramAddr cartAddr length) ↔
      d.PiWriteFits dom dramAddr cartAddr length := by
  cases dom with
  | cartRom => exact d.cartRomWriteSweeps_inside dramAddr cartAddr length
  | cartDom2 =>
    simp only [piWriteSweeps, PiWriteFits]
    split
    · exact d.sramSweeps_inside dramAddr cartAddr length
    · exact d.flashWriteSweeps_inside dramAddr cartAddr length
  | dd => exact d.ddWriteSweeps_inside dramAddr cartAddr length

end Device

/-- **DMA stays inside its memories** exactly for the registers that fit. -/
theorem insideMemories_iff (d : Device) (t : DmaTransfer) : InsideMemories d t ↔ DmaFits d t := by
  change d.SweepsInside (d.sweeps t) ↔ _
  cases t with
  | piRead =>
    simp only [Device.sweeps, DmaFits]
    cases d.piIdle with
    | false => simp
    | true =>
      cases hdom : getPiDmaHandler d.piCartAddr with
      | none => simp
      | some dom => simpa using d.piReadSweeps_inside _ _ _ dom
  | piWrite =>
    simp only [Device.sweeps, DmaFits]
    cases d.piIdle with
    | false => simp
    | true =>
      cases hdom : getPiDmaHandler d.piCartAddr with
      | none => simp
      | some dom => simpa using d.piWriteSweeps_inside _ _ _ dom
  | si => exact d.siSweeps_inside
  | sp dma => exact d.spSweeps_inside dma
  | aiRead =>
    simp only [Device.sweeps, DmaFits]
    split
    · next h => simpa [h] using d.aiSweeps_inside _ _
    · next h => simp [h]
  | aiEnd =>
    simp only [Device.sweeps, DmaFits]
    split
    · exact d.aiSweeps_inside _ _
    · next h => simp [Device.AiFits, not_not.mp h]

/-- With 8 MiB of RDRAM no transfer of the signal processor leaves it. -/
theorem insideMemories_sp {d : Device} (h : 0x800000 ≤ d.rdram.dramSize) (dma : SpDma) :
    InsideMemories d (.sp dma) := by
  refine (d.spSweeps_inside dma).mpr ?_
  intro j _ i _
  have hlt := Nat.mod_lt (dma.dramStart + j * dma.stride + i) (show 0 < 0x800000 by decide)
  rw [LowXor.xor_three]
  omega

/-- A console about to save eight bytes behind the end of SRAM. -/
def saveBehindSram : Device :=
  let d := staticDevice (initR4300 .pureInterpreter 2 0 0xa4000040)
  (d.setPi .cartAddr 0x08008000).setPi .rdLen 7

theorem saveBehindSram_outside : ¬∀ (d : Device) (t : DmaTransfer), InsideMemories d t := by
  intro h
  have hsweep : (⟨.sram, 0x8000, 8, true⟩ : Sweep) ∈ saveBehindSram.sweeps .piRead := by
    have hidle : saveBehindSram.piIdle = true := by decide
    have hdom : getPiDmaHandler saveBehindSram.piCartAddr = some .cartDom2 := by decide
    have huse : saveBehindSram.cart.useFlashram ≠ 1 := by decide
    simp only [Device.sweeps, hidle, hdom, Device.piReadSweeps, if_pos huse, Bool.not_true,
      Bool.false_eq_true, if_false]
    exact List.mem_cons_self
  exact absurd (h saveBehindSram .piRead _ hsweep 0x8003 ⟨0, by decide, by decide⟩) (by decide)

end Mupen64plus
