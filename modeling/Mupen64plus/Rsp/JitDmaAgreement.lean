import Mupen64plus.Rsp.JitDma

/-!
# The DMA of the recompiler and of the core

The recompiler rounds the memory address down to four where the core rounds down to eight, clips a
row at the end of its bank where the core wraps, lets the next row run on into the other bank, and
rounds the start of every row in RDRAM. It leaves addresses that are not masked.

## Main definitions

- `JitDmaAgrees`
- `PlainJitDma` — the rows stay inside of DMEM, do not reach its end or that of the addresses of
  RDRAM, and start at multiples of four

## Main results

- `SpDma.mem_jitAccesses` — the bytes of the recompiler
- `jitDmaAgrees_iff`
-/

namespace Mupen64plus

open Assignments
open Flags (and_field)

/-- The recompiler and the core have the same memories. -/
structure SameMemory (s : JitCpu) (d : Device) : Prop where
  mem : ∀ i < 0x800, s.spMem i = d.sp.mem i
  dram : ∀ i < 0x200000, s.rdram i = d.rdram.dram i

/-- From the same memories both leave the same memories and addresses. -/
structure JitDmaAgrees (dma : SpDma) : Prop where
  memory : ∀ s d, SameMemory s d → SameMemory (s.spDma dma) (d.doSpDma dma)
  memAddr : ∀ s d, SameMemory s d → (s.spDma dma).dmaCache = (d.doSpDma dma).sp.regs .memAddr
  dramAddr : ∀ s d, SameMemory s d → (s.spDma dma).dmaDram = (d.doSpDma dma).sp.regs .dramAddr

-- ════════════════════
-- The bytes of the recompiler
-- ════════════════════

namespace SpDma

variable (dma : SpDma)

/-- Where the first row of the recompiler starts in its bank. -/
def jitOffset : ℕ := (dma.jitMem &&& 0xfff).toNat

/-- From the start of a row of the recompiler in RDRAM to the next. -/
def jitStride : ℕ := dma.jitLength.toNat + dma.skip.toNat

theorem jitMem_toNat : dma.jitMem.toNat = 4 * (dma.memaddr.toNat / 4) := by
  have hlt := dma.memaddr.isLt
  rw [jitMem, BitVec.toNat_and]
  refine (and_field _ 2 30).trans ?_
  omega

theorem jitDram_toNat : dma.jitDram.toNat = 8 * (dma.dramaddr.toNat / 8) := by
  have hlt := dma.dramaddr.isLt
  rw [jitDram, BitVec.toNat_and]
  refine (and_field _ 3 29).trans ?_
  omega

theorem jitOffset_eq : dma.jitOffset = 4 * (dma.memaddr.toNat / 4 % 0x400) := by
  have hmask : dma.jitOffset = dma.jitMem.toNat % 0x1000 :=
    Flags.toNat_and_low 12 rfl
  rw [hmask, jitMem_toNat]
  omega

/-- The recompiler starts where the core does, or in the second half of the unit. -/
theorem jitOffset_cases : dma.jitOffset = dma.memOffset ∧ dma.memaddr.toNat % 8 < 4 ∨
    dma.jitOffset = dma.memOffset + 4 ∧ 4 ≤ dma.memaddr.toNat % 8 := by
  rw [jitOffset_eq, memOffset_eq]
  omega

/-- A row is clipped at the end of its bank. -/
theorem jitLength_toNat : dma.jitLength.toNat =
    if dma.jitOffset + dma.rowLength.toNat > 0x1000 then 0x1000 - dma.jitOffset
    else dma.rowLength.toNat := by
  have hlength : ((dma.length &&& 0xfff) + 1 + 7) &&& ~~~7 = dma.rowLength := by
    have hmask : dma.length.toNat &&& 0xfff = dma.length.toNat % 0x1000 :=
      Nat.and_two_pow_sub_one_eq_mod _ 12
    have hlt := Nat.mod_lt dma.length.toNat (show 0 < 0x1000 by decide)
    apply BitVec.eq_of_toNat_eq
    rw [rowLength_toNat, BitVec.toNat_and, BitVec.toNat_add, BitVec.toNat_add, BitVec.toNat_and]
    refine (and_field _ 3 29).trans ?_
    change 8 * ((((dma.length.toNat &&& 0xfff) + 1) % 2 ^ 32 + 7) % 2 ^ 32 / 2 ^ 3 % 2 ^ 29) = _
    rw [hmask]
    omega
  obtain ⟨-, hlow, hhigh, -, -, -, -, -, -, -, -⟩ := dma.sizes
  have hoffset : dma.jitOffset < 0x1000 := by
    rw [jitOffset_eq]
    omega
  have hsum : (dma.jitMem &&& 0xfff) + dma.rowLength > 0x1000 ↔
      dma.jitOffset + dma.rowLength.toNat > 0x1000 := by
    rw [gt_iff_lt, BitVec.lt_def, BitVec.toNat_add]
    change 0x1000 < (dma.jitOffset + _) % 2 ^ 32 ↔ _
    omega
  unfold jitLength
  rw [hlength]
  simp only [hsum]
  split
  · rw [BitVec.toNat_sub]
    change (2 ^ 32 - dma.jitOffset + 0x1000) % 2 ^ 32 = _
    omega
  · rfl

/-- The sizes of a transfer of the recompiler. -/
theorem jitSizes : dma.jitLength.toNat % 4 = 0 ∧ 4 ≤ dma.jitLength.toNat ∧
    dma.jitLength.toNat ≤ dma.rowLength.toNat ∧ dma.jitOffset + dma.jitLength.toNat ≤ 0x1000 ∧
    (dma.jitLength.toNat < dma.rowLength.toNat →
      dma.jitOffset + dma.jitLength.toNat = 0x1000) := by
  obtain ⟨hmod, hlow, hhigh, -, hoffset, hlt, -, -, -, -, -⟩ := dma.sizes
  have hcases := dma.jitOffset_cases
  rw [jitLength_toNat]
  split
  · omega
  · omega

/-- The rows of the recompiler are not longer than those of the core. -/
theorem jitRows_le {j : ℕ} (hj : j ≤ dma.rowCount.toNat) :
    j * dma.jitLength.toNat ≤ 0x100 * 0x1000 ∧ j * dma.jitStride ≤ 0x100 * 0x1fff := by
  obtain ⟨-, -, hlength, hskip, -, -, -, -, -, -, hcount⟩ := dma.sizes
  obtain ⟨-, -, hle, -, -⟩ := dma.jitSizes
  constructor
  · exact Nat.mul_le_mul (by omega) (by omega)
  · exact Nat.mul_le_mul (by omega) (by rw [jitStride]; omega)

theorem jitRowStart_toNat {j : ℕ} (hj : j ≤ dma.rowCount.toNat) :
    (BitVec.ofNat 32 j * dma.jitLength).toNat = j * dma.jitLength.toNat ∧
    (BitVec.ofNat 32 j * (dma.jitLength + dma.skip)).toNat = j * dma.jitStride := by
  obtain ⟨-, -, hlength, hskip, -, -, -, -, -, -, hcount⟩ := dma.sizes
  obtain ⟨-, -, hle, -, -⟩ := dma.jitSizes
  obtain ⟨hrow, hstride⟩ := dma.jitRows_le hj
  have hsum : (dma.jitLength + dma.skip).toNat = dma.jitStride := by
    rw [BitVec.toNat_add, jitStride, Nat.mod_eq_of_lt (by omega)]
  have hj' : (BitVec.ofNat 32 j).toNat = j := by
    rw [BitVec.toNat_ofNat, Nat.mod_eq_of_lt (by omega)]
  rw [BitVec.toNat_mul, BitVec.toNat_mul, hj', hsum, Nat.mod_eq_of_lt (by omega),
    Nat.mod_eq_of_lt (by omega)]
  exact ⟨rfl, rfl⟩

/-- **The bytes of the recompiler** -/
theorem mem_jitAccesses {x y : ℕ} : (x, y) ∈ dma.jitAccesses ↔
    ∃ j < dma.rowCount.toNat, ∃ i < dma.jitLength.toNat,
      x = (dma.bank + dma.jitOffset + j * dma.jitLength.toNat + i) % 0x2000 ∧
      y = 4 * ((dma.dramStart + j * dma.jitStride + 4 * (i / 4)) / 4 % 0x200000) + i % 4 := by
  obtain ⟨hmod, -, hlength, -, -⟩ := dma.jitSizes
  have hlimit := dma.sizes.2.2.1
  have hbyte : ∀ j < dma.rowCount.toNat, ∀ k < dma.jitLength.toNat / 4, ∀ b < 4,
      ((dma.jitMem + BitVec.ofNat 32 j * dma.jitLength + BitVec.ofNat 32 (4 * k)) &&&
        0x1ffc).toNat + b =
          (dma.bank + dma.jitOffset + j * dma.jitLength.toNat + (4 * k + b)) % 0x2000 ∧
      ((dma.jitDram + BitVec.ofNat 32 j * (dma.jitLength + dma.skip) + BitVec.ofNat 32 (4 * k)) &&&
        0x7ffffc).toNat + b =
          4 * ((dma.dramStart + j * dma.jitStride + 4 * k) / 4 % 0x200000) + b := by
    intro j hj k hk b hb
    obtain ⟨hrow, hrow'⟩ := dma.jitRowStart_toNat hj.le
    obtain ⟨hle, hle'⟩ := dma.jitRows_le hj.le
    have hk' : (BitVec.ofNat 32 (4 * k)).toNat = 4 * k := by
      rw [BitVec.toNat_ofNat, Nat.mod_eq_of_lt (by omega)]
    have hmodRow : j * dma.jitLength.toNat % 4 = 0 := by
      rw [Nat.mul_mod, hmod, Nat.mul_zero, Nat.zero_mod]
    rw [(wordAddress _).1, (wordAddress _).2, BitVec.toNat_add, BitVec.toNat_add, BitVec.toNat_add,
      BitVec.toNat_add, hrow, hrow', hk', jitMem_toNat, jitDram_toNat, bank_eq, jitOffset_eq,
      dramStart_eq]
    constructor
    · omega
    · omega
  rw [jitAccesses, jitRowsAccesses, List.mem_flatMap]
  simp only [jitRowAccesses, List.mem_flatMap, List.mem_map, List.mem_range]
  constructor
  · rintro ⟨j, hj, k, hk, b, hb, heq⟩
    obtain ⟨rfl, rfl⟩ := Prod.mk.inj heq
    obtain ⟨hx, hy⟩ := hbyte j hj k hk b hb
    have hdiv : (4 * k + b) / 4 = k := by omega
    have hrem : (4 * k + b) % 4 = b := by omega
    refine ⟨j, hj, 4 * k + b, by omega, hx, ?_⟩
    rw [hdiv, hrem, hy]
  · rintro ⟨j, hj, i, hi, rfl, rfl⟩
    obtain ⟨hx, hy⟩ := hbyte j hj (i / 4) (by omega) (i % 4) (Nat.mod_lt _ (by decide))
    rw [Nat.div_add_mod] at hx
    exact ⟨j, hj, i / 4, by omega, i % 4, Nat.mod_lt _ (by decide), Prod.ext hx hy⟩

/-- A later row starts behind the words of an earlier one. -/
theorem jitRow_lt {j j' k : ℕ} (hj : j < j') (hk : k < dma.jitLength.toNat / 4) :
    (j * dma.jitStride) / 4 + k < (j' * dma.jitStride) / 4 := by
  have hle : (j + 1) * dma.jitStride ≤ j' * dma.jitStride := Nat.mul_le_mul_right _ hj
  have hstride : dma.jitLength.toNat ≤ dma.jitStride := Nat.le_add_right _ _
  rw [Nat.add_mul, Nat.one_mul] at hle
  omega

theorem functional_jitDram : Functional (toDram dma.jitAccesses) := by
  intro y x x' hx hx'
  obtain ⟨j, hj, i, hi, rfl, hy⟩ := dma.mem_jitAccesses.mp (mem_toDram.mp hx)
  obtain ⟨j', hj', i', hi', rfl, hy'⟩ := dma.mem_jitAccesses.mp (mem_toDram.mp hx')
  obtain ⟨hmod, -, hlength, -, -⟩ := dma.jitSizes
  have hlimit := dma.sizes.2.2.1
  have hstart := dma.sizes.2.2.2.2.2.2.1
  have hrow := (dma.jitRows_le hj.le).2
  have hrow' := (dma.jitRows_le hj'.le).2
  have hword : (j * dma.jitStride) / 4 + i / 4 = (j' * dma.jitStride) / 4 + i' / 4 := by omega
  rcases Nat.lt_trichotomy j j' with hlt | rfl | hlt
  · have hnext := dma.jitRow_lt hlt (k := i / 4) (by omega)
    omega
  · have hbyte : i = i' := by omega
    rw [hbyte]
  · have hnext := dma.jitRow_lt hlt (k := i' / 4) (by omega)
    omega

/-- Rows that together are not longer than a bank have a byte of it once. -/
theorem InBank.functional_jit {dma : SpDma} (h : dma.InBank) : Functional dma.jitAccesses := by
  intro x y y' hy hy'
  obtain ⟨j, hj, i, hi, hx, rfl⟩ := dma.mem_jitAccesses.mp hy
  obtain ⟨j', hj', i', hi', hx', rfl⟩ := dma.mem_jitAccesses.mp hy'
  obtain ⟨-, -, hlength, -, -⟩ := dma.jitSizes
  have hrow := h.row_le hj
  have hrow' := h.row_le hj'
  have hle : j * dma.jitLength.toNat ≤ j * dma.rowLength.toNat := Nat.mul_le_mul_left _ hlength
  have hle' : j' * dma.jitLength.toNat ≤ j' * dma.rowLength.toNat := Nat.mul_le_mul_left _ hlength
  have hplace : j * dma.jitLength.toNat + i = j' * dma.jitLength.toNat + i' := by omega
  obtain ⟨rfl, rfl⟩ := index_unique hi hi' hplace
  rfl

/-- The recompiler masks every address. -/
theorem jitAccesses_inside : ∀ p ∈ dma.jitAccesses, p.1 < 0x2000 ∧ p.2 < 0x800000 := by
  rintro ⟨x, y⟩ hp
  obtain ⟨j, -, i, -, rfl, rfl⟩ := dma.mem_jitAccesses.mp hp
  constructor
  · exact Nat.mod_lt _ (by decide)
  · show 4 * _ + _ < _
    omega

end SpDma

-- ════════════════════
-- Where both agree
-- ════════════════════

structure PlainJitDma (dma : SpDma) : Prop where
  aligned : dma.memaddr.toNat % 8 < 4
  inBank : dma.InBank
  rowsAligned : dma.rowCount.toNat = 1 ∨ dma.skip.toNat % 4 = 0
  memEnd : (8 * (dma.memaddr.toNat / 8) + dma.rowCount.toNat * dma.rowLength.toNat) % 2 ^ 32 <
    0x1000
  dramEnd : (8 * (dma.dramaddr.toNat / 8) + dma.rowCount.toNat * dma.stride) % 2 ^ 32 < 0x1000000

namespace SpDma

variable {dma : SpDma}

/-- Inside of a bank nothing is clipped. -/
theorem InBank.jitLength_eq (h : dma.InBank) (haligned : dma.memaddr.toNat % 8 < 4) :
    dma.jitOffset = dma.memOffset ∧ dma.jitLength.toNat = dma.rowLength.toNat ∧
      dma.jitStride = dma.stride := by
  have hcases := dma.jitOffset_cases
  have hcount := dma.sizes.2.2.2.2.2.2.2.2.2.1
  have hrow := h.row_le hcount
  have hoffset : dma.jitOffset = dma.memOffset := by omega
  have hlength : dma.jitLength.toNat = dma.rowLength.toNat := by
    rw [jitLength_toNat, if_neg (by omega)]
  exact ⟨hoffset, hlength, congrArg (· + _) hlength⟩

/-- **Plain transfers move the same bytes** -/
theorem mem_jit_of_plain (h : PlainJitDma dma) (p : ℕ × ℕ) :
    p ∈ dma.jitAccesses ↔ p ∈ dma.accesses := by
  obtain ⟨x, y⟩ := p
  obtain ⟨-, -, -, -, -, -, hstart, -, hbank, -, -⟩ := dma.sizes
  obtain ⟨hoffset, hlength, hstride⟩ := h.inBank.jitLength_eq h.aligned
  rw [mem_jitAccesses, mem_accesses, hoffset, hlength, hstride]
  have hbyte : ∀ j < dma.rowCount.toNat, ∀ i < dma.rowLength.toNat,
      (dma.bank + dma.memOffset + j * dma.rowLength.toNat + i) % 0x2000 =
        dma.bank + (dma.memOffset + j * dma.rowLength.toNat + i) % 0x1000 ∧
      4 * ((dma.dramStart + j * dma.stride + 4 * (i / 4)) / 4 % 0x200000) + i % 4 =
        (dma.dramStart + j * dma.stride + i) % 0x800000 := by
    intro j hj i hi
    have hrow := h.inBank.row_le hj
    have hmod : j * dma.stride % 4 = 0 := by
      rcases h.rowsAligned with hone | hskip
      · have hzero : j = 0 := by omega
        rw [hzero, Nat.zero_mul]
      · have hstride : dma.stride % 4 = 0 := by
          have hmod := dma.sizes.1
          rw [stride]
          omega
        rw [Nat.mul_mod, hstride, Nat.mul_zero, Nat.zero_mod]
    constructor
    · omega
    · omega
  constructor
  · rintro ⟨j, hj, i, hi, rfl, rfl⟩
    exact ⟨j, hj, i, hi, hbyte j hj i hi⟩
  · rintro ⟨j, hj, i, hi, rfl, rfl⟩
    exact ⟨j, hj, i, hi, (hbyte j hj i hi).1.symm, (hbyte j hj i hi).2.symm⟩

/-- Rows that run past the end of a bank have a byte just behind it. -/
theorem exists_behind {offset rows size : ℕ} (hoffset : offset ≤ 0x1000) (hsize : 0 < size)
    (h : 0x1000 < offset + rows * size) :
    ∃ j < rows, ∃ i < size, offset + j * size + i = 0x1000 := by
  have hsplit := Nat.div_add_mod (0x1000 - offset) size
  rw [Nat.mul_comm] at hsplit
  refine ⟨(0x1000 - offset) / size, ?_, (0x1000 - offset) % size, Nat.mod_lt _ hsize, by omega⟩
  rw [Nat.div_lt_iff_lt_mul hsize]
  omega

/-- Where the core runs past the end of its bank, the recompiler does too, or clips its only row. -/
theorem jit_past_or_clipped (h : ¬dma.InBank) :
    (∃ j < dma.rowCount.toNat, ∃ i < dma.jitLength.toNat,
      dma.jitOffset + j * dma.jitLength.toNat + i = 0x1000) ∨
    dma.rowCount.toNat = 1 ∧ dma.jitLength.toNat < dma.rowLength.toNat := by
  obtain ⟨-, hlow, hlength, hend, hclip⟩ := dma.jitSizes
  have hcases := dma.jitOffset_cases
  have hcount := dma.sizes.2.2.2.2.2.2.2.2.2.1
  have hpast : 0x1000 < dma.memOffset + dma.rowCount.toNat * dma.rowLength.toNat :=
    Nat.lt_of_not_le h
  by_cases hjit : 0x1000 < dma.jitOffset + dma.rowCount.toNat * dma.jitLength.toNat
  · exact Or.inl (exists_behind (by omega) (by omega) hjit)
  · right
    have hlt : dma.jitLength.toNat < dma.rowLength.toNat := by
      rcases Nat.lt_or_eq_of_le hlength with hlt | heq
      · exact hlt
      · rw [heq] at hjit
        omega
    have hfull := hclip hlt
    have hrows : dma.rowCount.toNat * dma.jitLength.toNat ≤ 1 * dma.jitLength.toNat := by omega
    have hone := Nat.le_of_mul_le_mul_right hrows (by omega)
    exact ⟨by omega, hlt⟩

/-- **The same bytes** are moved only inside of a bank. -/
theorem inBank_of_mem_iff (h : ∀ p, p ∈ dma.jitAccesses ↔ p ∈ dma.accesses) : dma.InBank := by
  by_contra hpast
  obtain ⟨-, hlow, hhigh, -, -, -, hstart, -, hbank, -, -⟩ := dma.sizes
  rcases jit_past_or_clipped hpast with ⟨j, hj, i, hi, hend⟩ | ⟨hone, hlt⟩
  · obtain ⟨j', -, i', -, hx, -⟩ := dma.mem_accesses.mp
      ((h _).mp (dma.mem_jitAccesses.mpr ⟨j, hj, i, hi, rfl, rfl⟩))
    omega
  · obtain ⟨j', hj', i', hi', -, hy⟩ := dma.mem_jitAccesses.mp
      ((h _).mpr (dma.mem_accesses.mpr ⟨0, by omega, dma.rowLength.toNat - 1, by omega, rfl, rfl⟩))
    have hzero : j' = 0 := by omega
    rw [hzero, Nat.zero_mul, Nat.zero_mul] at hy
    omega

/-- The first row starts in the first half of its unit. -/
theorem aligned_of_mem_iff (h : ∀ p, p ∈ dma.jitAccesses ↔ p ∈ dma.accesses) :
    dma.memaddr.toNat % 8 < 4 := by
  have hbankRows := inBank_of_mem_iff h
  obtain ⟨-, hlow, hhigh, -, -, -, hstart, -, hbank, hcount, -⟩ := dma.sizes
  obtain ⟨-, hpos, -, hfits, -⟩ := dma.jitSizes
  rcases dma.jitOffset_cases with ⟨-, haligned⟩ | ⟨hoffset, -⟩
  · exact haligned
  · exfalso
    obtain ⟨j, hj, i, hi, hx, hy⟩ := dma.mem_accesses.mp
      ((h _).mp (dma.mem_jitAccesses.mpr ⟨0, hcount, 0, by omega, rfl, rfl⟩))
    have hrow := hbankRows.row_le hj
    have hplace : j * dma.rowLength.toNat + i = 0 * dma.rowLength.toNat + 4 := by omega
    obtain ⟨rfl, rfl⟩ := index_unique hi (by omega) hplace
    omega

/-- Every row starts at a multiple of four. -/
theorem rowsAligned_of_mem_iff (h : ∀ p, p ∈ dma.jitAccesses ↔ p ∈ dma.accesses) :
    dma.rowCount.toNat = 1 ∨ dma.skip.toNat % 4 = 0 := by
  by_contra haligned
  obtain ⟨hone, hskip⟩ := not_or.mp haligned
  have hbankRows := inBank_of_mem_iff h
  obtain ⟨hoffset, hlength, hstride⟩ := hbankRows.jitLength_eq (aligned_of_mem_iff h)
  obtain ⟨hmod, hlow, hhigh, -, -, -, hstart, -, hbank, hcount, -⟩ := dma.sizes
  have hrow : 1 < dma.rowCount.toNat := by omega
  have hsecond := hbankRows.row_le hrow
  have hsum : dma.stride = dma.rowLength.toNat + dma.skip.toNat := rfl
  obtain ⟨j, hj, i, hi, hx, hy⟩ := dma.mem_jitAccesses.mp
    ((h _).mpr (dma.mem_accesses.mpr ⟨1, hrow, 0, by omega, rfl, rfl⟩))
  rw [hlength] at hx hi
  rw [hstride] at hy
  rw [hoffset] at hx
  have hle := hbankRows.row_le hj
  have hplace : j * dma.rowLength.toNat + i = 1 * dma.rowLength.toNat + 0 := by omega
  obtain ⟨rfl, rfl⟩ := index_unique hi (by omega) hplace
  omega

end SpDma

-- ════════════════════
-- The memories and the addresses after a transfer
-- ════════════════════

/-- The addresses behind the last row. -/
theorem spRows_addresses (row : BitVec 32 → BitVec 32 → Words → Words) (length skip : BitVec 32)
    (count : ℕ) (memaddr dramaddr : BitVec 32) (dst : Words) :
    (spRows row length skip count memaddr dramaddr dst).2 =
      (memaddr + BitVec.ofNat 32 count * length,
        dramaddr + BitVec.ofNat 32 count * (length + skip)) := by
  induction count generalizing memaddr dramaddr dst with
  | zero => simp [spRows]
  | succ count ih =>
    rw [spRows, ih, row_succ, row_succ, add_assoc dramaddr]

namespace Device

/-- The addresses that the core leaves. -/
theorem addresses_doSpDma (d : Device) (dma : SpDma) :
    ((d.doSpDma dma).sp.regs .memAddr).toNat =
      (dma.memOffset + dma.rowCount.toNat * dma.rowLength.toNat) % 0x1000 ∧
    ((d.doSpDma dma).sp.regs .dramAddr).toNat =
      (dma.dramStart + dma.rowCount.toNat * dma.stride) % 0x1000000 := by
  have haddr := spRows_addresses (fun memaddr dramaddr dst =>
    if dma.dir = 0 then spRowToDram d.sp.mem dma.bank memaddr dramaddr dst dma.rowLength.toNat
    else spRowToMem d.rdram.dram dma.bank memaddr dramaddr dst dma.rowLength.toNat)
    dma.rowLength dma.skip dma.rowCount.toNat (dma.memaddr &&& 0xff8) (dma.dramaddr &&& 0xfffff8)
    (if dma.dir = 0 then d.rdram.dram else d.sp.mem)
  obtain ⟨-, -, hlength, hskip, -, hoffset, -, hstart, -, -, hcount⟩ := dma.sizes
  have hstride : dma.stride ≤ 0x1fff := by
    rw [SpDma.stride]
    omega
  have hrows : dma.rowCount.toNat * dma.rowLength.toNat ≤ 0x100 * 0x1000 :=
    Nat.mul_le_mul hcount hlength
  have hrows' : dma.rowCount.toNat * dma.stride ≤ 0x100 * 0x1fff := Nat.mul_le_mul hcount hstride
  have hsum : (dma.rowLength + dma.skip).toNat = dma.stride := by
    rw [BitVec.toNat_add, SpDma.stride, Nat.mod_eq_of_lt (by omega)]
  have hof : (BitVec.ofNat 32 dma.rowCount.toNat).toNat = dma.rowCount.toNat := by
    rw [BitVec.toNat_ofNat, Nat.mod_eq_of_lt (by omega)]
  have hmem : (((dma.memaddr &&& 0xff8) + BitVec.ofNat 32 dma.rowCount.toNat * dma.rowLength) &&&
      0xfff).toNat = (dma.memOffset + dma.rowCount.toNat * dma.rowLength.toNat) % 0x1000 := by
    rw [BitVec.toNat_and, BitVec.toNat_add, BitVec.toNat_mul, hof,
      Nat.mod_eq_of_lt (a := _ * _) (by omega)]
    refine (Nat.and_two_pow_sub_one_eq_mod _ 12).trans ?_
    change (dma.memOffset + _) % 2 ^ 32 % 2 ^ 12 = _
    omega
  have hdram : (((dma.dramaddr &&& 0xfffff8) +
      BitVec.ofNat 32 dma.rowCount.toNat * (dma.rowLength + dma.skip)) &&& 0xffffff).toNat =
        (dma.dramStart + dma.rowCount.toNat * dma.stride) % 0x1000000 := by
    rw [BitVec.toNat_and, BitVec.toNat_add, BitVec.toNat_mul, hof, hsum,
      Nat.mod_eq_of_lt (a := _ * _) (by omega)]
    refine (Nat.and_two_pow_sub_one_eq_mod _ 24).trans ?_
    change (dma.dramStart + _) % 2 ^ 32 % 2 ^ 24 = _
    omega
  rw [← hmem, ← hdram]
  unfold doSpDma spDmaRows
  simp only
  generalize spRows _ dma.rowLength dma.skip dma.rowCount.toNat _ _ _ = rows at haddr
  obtain ⟨m, memaddr, dramaddr⟩ := rows
  obtain ⟨rfl, rfl⟩ := Prod.mk.inj haddr
  split
  · exact ⟨rfl, rfl⟩
  · exact ⟨rfl, rfl⟩

end Device

namespace SpDma

variable {dma : SpDma}

/-- The addresses that the recompiler leaves. -/
theorem addresses_spDma (s : JitCpu) (dma : SpDma) :
    (s.spDma dma).dmaCache.toNat =
      (4 * (dma.memaddr.toNat / 4) + dma.rowCount.toNat * dma.jitLength.toNat) % 2 ^ 32 ∧
    (s.spDma dma).dmaDram.toNat =
      (8 * (dma.dramaddr.toNat / 8) + dma.rowCount.toNat * dma.jitStride) % 2 ^ 32 := by
  obtain ⟨-, -, hcache, haddr⟩ := s.spDma_spec dma
  have hcount : BitVec.ofNat 32 dma.rowCount.toNat = dma.rowCount :=
    BitVec.eq_of_toNat_eq (BitVec.toNat_ofNat .. ▸ Nat.mod_eq_of_lt dma.rowCount.isLt)
  obtain ⟨hrow, hrow'⟩ := dma.jitRowStart_toNat (Nat.le_refl _)
  rw [hcount] at hrow hrow'
  rw [hcache, haddr, BitVec.toNat_add, BitVec.toNat_add, hrow, hrow', jitMem_toNat, jitDram_toNat]
  exact ⟨rfl, rfl⟩

/-- A recompiler with memories chosen at will. -/
def jitWith (mem dram : Words) : JitCpu :=
  { JitCpu.fresh fun i => mem (i + 0x400) with dmem := mem, rdram := dram }

theorem spMem_jitWith (mem dram : Words) : (jitWith mem dram).spMem = mem := by
  funext i
  rw [JitCpu.spMem]
  split
  · rfl
  · next hi => exact congrArg mem (by omega)

theorem sameMemory_with (mem dram : Words) :
    SameMemory (jitWith mem dram) (withMemories mem dram) :=
  ⟨fun i _ => congrFun (spMem_jitWith mem dram) i, fun _ _ => rfl⟩

theorem sources_jitMem (h : JitDmaAgrees dma) (hdir : dma.dir ≠ 0) {a : ℕ} (ha : a < 0x2000) :
    lastSource dma.jitAccesses a = lastSource dma.accesses a := by
  refine lastSource_eq_of_byte fun dst src => ?_
  have hword := (h.memory _ _ (sameMemory_with dst src)).mem (a / 4) (by omega)
  have hbyte : ((jitWith dst src).spDma dma).spMem.byte a =
      (((withMemories dst src).doSpDma dma).sp.mem).byte a := by
    rw [Words.byte, Words.byte, hword]
  rw [((jitWith dst src).spDma_spec dma).1, ((withMemories dst src).memories_doSpDma dma).1,
    if_neg hdir, if_neg hdir, spMem_jitWith] at hbyte
  exact hbyte

theorem sources_jitDram (h : JitDmaAgrees dma) (hdir : dma.dir = 0) {a : ℕ} (ha : a < 0x800000) :
    lastSource (toDram dma.jitAccesses) a = lastSource (toDram dma.accesses) a := by
  refine lastSource_eq_of_byte fun dst src => ?_
  have hword := (h.memory _ _ (sameMemory_with src dst)).dram (a / 4) (by omega)
  have hbyte : ((jitWith src dst).spDma dma).rdram.byte a =
      (((withMemories src dst).doSpDma dma).rdram.dram).byte a := by
    rw [Words.byte, Words.byte, hword]
  rw [((jitWith src dst).spDma_spec dma).2.1, ((withMemories src dst).memories_doSpDma dma).2,
    if_pos hdir, if_pos hdir, spMem_jitWith] at hbyte
  exact hbyte

/-- To DMEM and IMEM the recompiler moves only inside of a bank. -/
theorem inBank_of_jitMem (h : JitDmaAgrees dma) (hdir : dma.dir ≠ 0) : dma.InBank := by
  by_contra hpast
  obtain ⟨-, hlow, hhigh, -, -, -, -, -, hbank, hcount, -⟩ := dma.sizes
  obtain ⟨-, hpos, -, hend, hclip⟩ := dma.jitSizes
  rcases jit_past_or_clipped hpast with ⟨j, hj, i, hi, hplace⟩ | ⟨hone, hlt⟩
  · have hsources := sources_jitMem h hdir (a := (dma.bank + 0x1000) % 0x2000) (by omega)
    have hcore : lastSource dma.accesses ((dma.bank + 0x1000) % 0x2000) = none := by
      rw [lastSource_eq_none_iff]
      intro y hy
      obtain ⟨j', -, i', -, hx, -⟩ := dma.mem_accesses.mp hy
      omega
    rw [hcore, lastSource_eq_none_iff] at hsources
    refine hsources _ (dma.mem_jitAccesses.mpr ⟨j, hj, i, hi, ?_, rfl⟩)
    omega
  · -- the first byte of the bank, where the row of the core goes on
    have hsources := sources_jitMem h hdir (a := dma.bank) (by omega)
    have hjit : lastSource dma.jitAccesses dma.bank = none := by
      rw [lastSource_eq_none_iff]
      intro y hy
      obtain ⟨j', hj', i', hi', hx, -⟩ := dma.mem_jitAccesses.mp hy
      have hzero : j' = 0 := by omega
      have hfull := hclip hlt
      rw [hzero, Nat.zero_mul] at hx
      omega
    have hpast' : 0x1000 < dma.memOffset + dma.rowCount.toNat * dma.rowLength.toNat :=
      Nat.lt_of_not_le hpast
    have hoffset := dma.sizes.2.2.2.2.2.1
    rw [hone, Nat.one_mul] at hpast'
    rw [hjit, eq_comm, lastSource_eq_none_iff] at hsources
    refine hsources _ (dma.mem_accesses.mpr ⟨0, hcount, 0x1000 - dma.memOffset, by omega, ?_, rfl⟩)
    omega

/-- **Both directions** Where the two agree they move the same bytes. -/
theorem mem_iff_of_agrees (h : JitDmaAgrees dma) (p : ℕ × ℕ) :
    p ∈ dma.jitAccesses ↔ p ∈ dma.accesses := by
  obtain ⟨x, y⟩ := p
  have hinside : (x, y) ∈ dma.jitAccesses ∨ (x, y) ∈ dma.accesses → x < 0x2000 ∧ y < 0x800000 := by
    rintro (hp | hp)
    · exact dma.jitAccesses_inside _ hp
    · exact dma.accesses_inside _ hp
  by_cases hdir : dma.dir = 0
  · rw [← mem_toDram, ← mem_toDram (l := dma.accesses),
      ← lastSource_eq_some_iff dma.functional_jitDram, ← lastSource_eq_some_iff dma.functional_dram]
    constructor
    · intro hp
      have hlt := (hinside (Or.inl (mem_toDram.mp (mem_of_lastSource hp)))).2
      rw [← sources_jitDram h hdir hlt, hp]
    · intro hp
      have hlt := (hinside (Or.inr (mem_toDram.mp (mem_of_lastSource hp)))).2
      rw [sources_jitDram h hdir hlt, hp]
  · have hbank := inBank_of_jitMem h hdir
    rw [← lastSource_eq_some_iff hbank.functional_jit, ← lastSource_eq_some_iff hbank.functional]
    constructor
    · intro hp
      have hlt := (hinside (Or.inl (mem_of_lastSource hp))).1
      rw [← sources_jitMem h hdir hlt, hp]
    · intro hp
      have hlt := (hinside (Or.inr (mem_of_lastSource hp))).1
      rw [sources_jitMem h hdir hlt, hp]

theorem plain_of_agrees (h : JitDmaAgrees dma) : PlainJitDma dma := by
  have hmem := mem_iff_of_agrees h
  have hbank := inBank_of_mem_iff hmem
  have haligned := aligned_of_mem_iff hmem
  obtain ⟨hoffset, hlength, hstride⟩ := hbank.jitLength_eq haligned
  have hsame := sameMemory_with (fun _ => 0) fun _ => 0
  obtain ⟨hcache, hdram⟩ := addresses_spDma (jitWith (fun _ => 0) fun _ => 0) dma
  obtain ⟨hcache', hdram'⟩ := (withMemories (fun _ => 0) fun _ => 0).addresses_doSpDma dma
  rw [h.memAddr _ _ hsame, hcache', hlength] at hcache
  rw [h.dramAddr _ _ hsame, hdram', hstride] at hdram
  refine ⟨haligned, hbank, rowsAligned_of_mem_iff hmem, ?_, ?_⟩
  · omega
  · omega

theorem agrees_of_plain (h : PlainJitDma dma) : JitDmaAgrees dma := by
  have hmem : lastSource dma.jitAccesses = lastSource dma.accesses :=
    lastSource_congr h.inBank.functional_jit (mem_jit_of_plain h)
  have hdram : lastSource (toDram dma.jitAccesses) = lastSource (toDram dma.accesses) := by
    refine lastSource_congr dma.functional_jitDram fun p => ?_
    obtain ⟨y, x⟩ := p
    rw [mem_toDram, mem_toDram, mem_jit_of_plain h]
  obtain ⟨hoffset, hlength, hstride⟩ := h.inBank.jitLength_eq h.aligned
  have hbyteMem : ∀ {s : JitCpu} {d : Device}, SameMemory s d → ∀ a < 0x2000,
      s.spMem.byte a = d.sp.mem.byte a := by
    intro s d hsame a ha
    rw [Words.byte, Words.byte, hsame.mem _ (by omega)]
  have hbyteDram : ∀ {s : JitCpu} {d : Device}, SameMemory s d → ∀ a < 0x800000,
      s.rdram.byte a = d.rdram.dram.byte a := by
    intro s d hsame a ha
    rw [Words.byte, Words.byte, hsame.dram _ (by omega)]
  refine ⟨fun s d hsame => ⟨fun i hi => Words.ext_byte fun a _ _ => ?_,
    fun i hi => Words.ext_byte fun a _ _ => ?_⟩, fun s d _ => ?_, fun s d _ => ?_⟩
  · rw [(s.spDma_spec dma).1, (d.memories_doSpDma dma).1]
    split
    · exact hbyteMem hsame a (by omega)
    · rw [Words.byte_move, Words.byte_move, hmem, hbyteMem hsame a (by omega)]
      cases hlast : lastSource dma.accesses a with
      | none => rfl
      | some y =>
        exact hbyteDram hsame y (dma.accesses_inside _ (mem_of_lastSource hlast)).2
  · rw [(s.spDma_spec dma).2.1, (d.memories_doSpDma dma).2]
    split
    · rw [Words.byte_move, Words.byte_move, hdram, hbyteDram hsame a (by omega)]
      cases hlast : lastSource (toDram dma.accesses) a with
      | none => rfl
      | some x =>
        exact hbyteMem hsame x
          (dma.accesses_inside _ (mem_toDram.mp (mem_of_lastSource hlast))).1
    · exact hbyteDram hsame a (by omega)
  · apply BitVec.eq_of_toNat_eq
    have hend := h.memEnd
    have hoffset' := dma.memOffset_eq
    have haligned := h.aligned
    rw [(addresses_spDma s dma).1, (d.addresses_doSpDma dma).1, hlength]
    omega
  · apply BitVec.eq_of_toNat_eq
    have hend := h.dramEnd
    have hstart := dma.dramStart_eq
    rw [(addresses_spDma s dma).2, (d.addresses_doSpDma dma).2, hstride]
    omega

end SpDma

/-- **Both engines** The recompiler leaves the memories and the addresses of the core, whatever the
    memories hold, exactly for transfers that start in the first half of a unit, have all rows in
    one bank and at multiples of four, and end below the ends of DMEM and of the addresses of
    RDRAM. -/
theorem jitDmaAgrees_iff (dma : SpDma) : JitDmaAgrees dma ↔ PlainJitDma dma :=
  ⟨SpDma.plain_of_agrees, SpDma.agrees_of_plain⟩

/-- Two rows of eight bytes to the end of DMEM: the recompiler writes the second one to IMEM. -/
theorem jitDma_not_agrees : ¬∀ dma : SpDma, JitDmaAgrees dma := by
  intro h
  have hbank : (0x1008 : ℕ) ≤ 0x1000 := (SpDma.plain_of_agrees (h ⟨1, 0x1007, 0xff8, 0⟩)).inBank
  exact absurd hbank (by decide)

end Mupen64plus
