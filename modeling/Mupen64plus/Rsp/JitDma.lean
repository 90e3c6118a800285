import Mupen64plus.Rsp.Jit
import Mupen64plus.Rsp.DmaAgreement

/-!
# The DMA of the recompiler

The recompiler moves words, with the memory address rounded down to four and not masked, and clips
a row at the end of its bank. What a transfer does is a list of moves of bytes.

## Main definitions

- `JitCpu.rspDmaWrite`, `JitCpu.spDma` — a transfer of the recompiler
- `SpDma.jitAccesses` — its bytes

## Main results

- `JitCpu.dmaReadRows_spec`, `JitCpu.dmaWriteRows_spec`
- `JitCpu.spDma_spec` — the memories and the registers after a transfer
-/

namespace Mupen64plus

open Assignments
open Flags (and_field)

-- ════════════════════════════════════════════════════════════════════════
-- The transfer
-- ════════════════════════════════════════════════════════════════════════

namespace JitCpu

/-- A word of `rsp_dma_write`. -/
def dmaWriteWord (source dest : BitVec 32) (s : JitCpu) (j : ℕ) : JitCpu :=
  let sourceAddr := (source + BitVec.ofNat 32 j) &&& 0x1ffc
  let destAddr := (dest + BitVec.ofNat 32 j) &&& 0x7ffffc
  let word := if sourceAddr &&& 0x1000 ≠ 0 then s.imem ((sourceAddr &&& 0xfff) >>> 2).toNat
    else s.dmem (sourceAddr >>> 2).toNat
  { s with rdram := Function.update s.rdram (destAddr >>> 2).toNat word }

/-- The rows of `rsp_dma_write`, each of `length` bytes, a multiple of four. -/
def dmaWriteRows (length skip : BitVec 32) : ℕ → BitVec 32 → BitVec 32 → JitCpu → JitCpu
  | 0, source, dest, s => { s with dmaCache := source, dmaDram := dest }
  | count + 1, source, dest, s =>
    dmaWriteRows length skip count (source + length) (dest + (length + skip))
      ((List.range (length.toNat / 4)).foldl (fun s i => dmaWriteWord source dest s (4 * i)) s)

/-- `rsp_dma_write`, with the register of the length, which it leaves at `0xff8`. -/
def rspDmaWrite (s : JitCpu) (dmaWriteLength : BitVec 32) : JitCpu × BitVec 32 :=
  let length := (dmaWriteLength &&& 0xfff) + 1
  let skip := (dmaWriteLength >>> 20) &&& 0xfff
  let count := (dmaWriteLength >>> 12) &&& 0xff
  let length := (length + 7) &&& ~~~7
  let cache := s.dmaCache &&& ~~~3
  let dram := s.dmaDram &&& ~~~7
  let length := if (cache &&& 0xfff) + length > 0x1000 then 0x1000 - (cache &&& 0xfff) else length
  (dmaWriteRows length skip (count.toNat + 1) cache dram s, 0xff8)

/-- A transfer with the registers at its values: `dir` is the direction as the core has it. -/
def spDma (s : JitCpu) (dma : SpDma) : JitCpu :=
  let s := { s with dmaCache := dma.memaddr, dmaDram := dma.dramaddr }
  if dma.dir = 0 then (s.rspDmaWrite dma.length).1
  else { s with dmaReadLength := dma.length }.rspDmaRead

/-- DMEM, and IMEM behind it. -/
def spMem (s : JitCpu) : Words := fun i => if i < 0x400 then s.dmem i else s.imem (i - 0x400)

end JitCpu

namespace SpDma

variable (dma : SpDma)

/-- The memory address of the recompiler. -/
def jitMem : BitVec 32 := dma.memaddr &&& ~~~3

/-- Its address of RDRAM. -/
def jitDram : BitVec 32 := dma.dramaddr &&& ~~~7

/-- The bytes of its rows. -/
def jitLength : BitVec 32 :=
  let length := ((dma.length &&& 0xfff) + 1 + 7) &&& ~~~7
  if (dma.jitMem &&& 0xfff) + length > 0x1000 then 0x1000 - (dma.jitMem &&& 0xfff) else length

end SpDma

/-- The bytes of a row: in the memory of the signal processor, and in RDRAM. -/
def jitRowAccesses (memaddr dramaddr length : BitVec 32) : List (ℕ × ℕ) :=
  (List.range (length.toNat / 4)).flatMap fun k => (List.range 4).map fun b =>
    (((memaddr + BitVec.ofNat 32 (4 * k)) &&& 0x1ffc).toNat + b,
      ((dramaddr + BitVec.ofNat 32 (4 * k)) &&& 0x7ffffc).toNat + b)

/-- The bytes of rows. -/
def jitRowsAccesses (length skip : BitVec 32) (count : ℕ) (memaddr dramaddr : BitVec 32) :
    List (ℕ × ℕ) :=
  (List.range count).flatMap fun j =>
    jitRowAccesses (memaddr + BitVec.ofNat 32 j * length)
      (dramaddr + BitVec.ofNat 32 j * (length + skip)) length

/-- The bytes that the recompiler moves, in order. -/
def SpDma.jitAccesses (dma : SpDma) : List (ℕ × ℕ) :=
  jitRowsAccesses dma.jitLength dma.skip dma.rowCount.toNat dma.jitMem dma.jitDram

-- ════════════════════════════════════════════════════════════════════════
-- The rows as moves
-- ════════════════════════════════════════════════════════════════════════

/-- Four bytes at once, one by one. -/
theorem Words.byte_putWord (m src : Words) {to' from' : ℕ} (hto : to' % 4 = 0)
    (hfrom : from' % 4 = 0) (a : ℕ) :
    byte (Function.update m (to' / 4) (src (from' / 4))) a =
      (m.move src ((List.range 4).map fun b => (to' + b, from' + b))).byte a := by
  have hfun : Functional ((List.range 4).map fun b => (to' + b, from' + b)) := by
    intro x s s' hs hs'
    obtain ⟨b, -, hb⟩ := List.mem_map.mp hs
    obtain ⟨b', -, hb'⟩ := List.mem_map.mp hs'
    obtain ⟨h₁, h₂⟩ := Prod.mk.inj hb
    obtain ⟨h₁', h₂'⟩ := Prod.mk.inj hb'
    omega
  rw [byte_move]
  by_cases hin : to' ≤ a ∧ a < to' + 4
  · have hmem : (a, from' + (a - to')) ∈ (List.range 4).map fun b => (to' + b, from' + b) :=
      List.mem_map.mpr ⟨a - to', List.mem_range.mpr (by omega),
        Prod.ext (Nat.add_sub_of_le hin.1) rfl⟩
    have hpos : byteShift a = byteShift (from' + (a - to')) := by
      unfold byteShift
      omega
    have hto' : a / 4 = to' / 4 := by omega
    have hfrom' : (from' + (a - to')) / 4 = from' / 4 := by omega
    rw [(lastSource_eq_some_iff hfun).mpr hmem, Option.map_some, Option.getD_some, byte, byte,
      wordByte, wordByte, ← hpos, hto', hfrom', Function.update_self]
  · have hnone : lastSource ((List.range 4).map fun b => (to' + b, from' + b)) a = none := by
      rw [lastSource_eq_none_iff]
      intro s hs
      obtain ⟨b, hb, heq⟩ := List.mem_map.mp hs
      have hlt := List.mem_range.mp hb
      have hfst := (Prod.mk.inj heq).1
      omega
    rw [hnone, Option.map_none, Option.getD_none, byte, byte, Function.update_of_ne (by omega)]

/-- The address of a word, and its place among the words. -/
theorem wordAddress (a : BitVec 32) : (a &&& 0x1ffc).toNat = 4 * (a.toNat / 4 % 0x800) ∧
    (a &&& 0x7ffffc).toNat = 4 * (a.toNat / 4 % 0x200000) :=
  ⟨(BitVec.toNat_and _ _).trans (and_field _ 2 11), (BitVec.toNat_and _ _).trans (and_field _ 2 21)⟩

theorem wordIndex (a : BitVec 32) : (a >>> 2).toNat = a.toNat / 4 := by
  rw [BitVec.toNat_ushiftRight, Nat.shiftRight_eq_div_pow]

/-- The bank of a word, and its place in the bank. -/
theorem wordBank {a : BitVec 32} (h : a.toNat < 0x2000) :
    (a &&& 0x1000 ≠ 0 ↔ 0x1000 ≤ a.toNat) ∧ ((a &&& 0xfff) >>> 2).toNat = a.toNat % 0x1000 / 4 := by
  have hbank : (a &&& 0x1000).toNat = 0x1000 * (a.toNat / 0x1000 % 2) :=
    (BitVec.toNat_and _ _).trans (and_field _ 12 1)
  have hoffset : (a &&& 0xfff).toNat = a.toNat % 0x1000 :=
    Flags.toNat_and_low 12 rfl
  rw [wordIndex, hoffset, Ne, ← BitVec.toNat_inj, hbank]
  refine ⟨?_, rfl⟩
  show ¬_ = 0 ↔ _
  omega

namespace JitCpu

theorem spMem_dmaReadWord (source dest : BitVec 32) (s : JitCpu) (j : ℕ) :
    (dmaReadWord source dest s j).spMem =
      Function.update s.spMem (((dest + BitVec.ofNat 32 j) &&& 0x1ffc).toNat / 4)
        (s.rdram (((source + BitVec.ofNat 32 j) &&& 0x7ffffc).toNat / 4)) ∧
    (dmaReadWord source dest s j).rdram = s.rdram := by
  have hlt : ((dest + BitVec.ofNat 32 j) &&& 0x1ffc).toNat < 0x2000 := by
    rw [(wordAddress _).1]
    omega
  obtain ⟨hbank, hindex⟩ := wordBank hlt
  unfold dmaReadWord
  simp only [wordIndex] at hindex ⊢
  split
  next himem =>
    refine ⟨?_, rfl⟩
    have hle := hbank.mp himem
    funext i
    rw [Function.update_apply]
    simp only [spMem, hindex, Function.update_apply]
    split
    next hi => rw [if_neg (by omega)]
    next hi =>
      by_cases heq : i = ((dest + BitVec.ofNat 32 j) &&& 0x1ffc).toNat / 4
      · rw [if_pos heq, if_pos (by omega)]
      · rw [if_neg heq, if_neg (by omega)]
  next hdmem =>
    refine ⟨?_, rfl⟩
    have hnle := mt hbank.mpr hdmem
    funext i
    rw [Function.update_apply]
    simp only [spMem, Function.update_apply]
    split
    next hi => rfl
    next hi => rw [if_neg (by omega)]

theorem rdram_dmaWriteWord (source dest : BitVec 32) (s : JitCpu) (j : ℕ) :
    (dmaWriteWord source dest s j).rdram =
      Function.update s.rdram (((dest + BitVec.ofNat 32 j) &&& 0x7ffffc).toNat / 4)
        (s.spMem (((source + BitVec.ofNat 32 j) &&& 0x1ffc).toNat / 4)) ∧
    (dmaWriteWord source dest s j).spMem = s.spMem := by
  have hlt : ((source + BitVec.ofNat 32 j) &&& 0x1ffc).toNat < 0x2000 := by
    rw [(wordAddress _).1]
    omega
  obtain ⟨hbank, hindex⟩ := wordBank hlt
  refine ⟨?_, rfl⟩
  unfold dmaWriteWord
  simp only [wordIndex] at hindex ⊢
  congr 1
  split
  next himem =>
    have hle := hbank.mp himem
    rw [spMem, if_neg (by omega), hindex]
    exact congrArg s.imem (by omega)
  next hdmem =>
    have hnle := mt hbank.mpr hdmem
    rw [spMem, if_pos (by omega)]

/-- The words of a row that is read. -/
theorem bytes_dmaReadRow (source dest : BitVec 32) (s : JitCpu) (n : ℕ) :
    ((List.range n).foldl (fun s i => dmaReadWord source dest s (4 * i)) s).spMem.byte =
      (s.spMem.move s.rdram ((List.range n).flatMap fun k => (List.range 4).map fun b =>
        (((dest + BitVec.ofNat 32 (4 * k)) &&& 0x1ffc).toNat + b,
          ((source + BitVec.ofNat 32 (4 * k)) &&& 0x7ffffc).toNat + b))).byte ∧
    ((List.range n).foldl (fun s i => dmaReadWord source dest s (4 * i)) s).rdram = s.rdram := by
  induction n with
  | zero => exact ⟨rfl, rfl⟩
  | succ n ih =>
    obtain ⟨hbytes, hrdram⟩ := ih
    rw [List.range_succ, List.foldl_append, List.foldl_cons, List.foldl_nil, List.flatMap_append,
      Words.move_append, List.flatMap_cons, List.flatMap_nil, List.append_nil]
    generalize (List.range n).foldl _ s = t at hbytes hrdram ⊢
    obtain ⟨hword, hword'⟩ := spMem_dmaReadWord source dest t (4 * n)
    have hto := (wordAddress (dest + BitVec.ofNat 32 (4 * n))).1
    have hfrom := (wordAddress (source + BitVec.ofNat 32 (4 * n))).2
    refine ⟨?_, hword'.trans hrdram⟩
    rw [hword, hrdram]
    funext a
    rw [Words.byte_putWord _ _ (by omega) (by omega)]
    exact congrFun (Words.move_congr hbytes _ _) a

/-- The words of a row that is written. -/
theorem bytes_dmaWriteRow (source dest : BitVec 32) (s : JitCpu) (n : ℕ) :
    ((List.range n).foldl (fun s i => dmaWriteWord source dest s (4 * i)) s).rdram.byte =
      (s.rdram.move s.spMem (toDram ((List.range n).flatMap fun k => (List.range 4).map fun b =>
        (((source + BitVec.ofNat 32 (4 * k)) &&& 0x1ffc).toNat + b,
          ((dest + BitVec.ofNat 32 (4 * k)) &&& 0x7ffffc).toNat + b)))).byte ∧
    ((List.range n).foldl (fun s i => dmaWriteWord source dest s (4 * i)) s).spMem = s.spMem := by
  induction n with
  | zero => exact ⟨rfl, rfl⟩
  | succ n ih =>
    obtain ⟨hbytes, hmem⟩ := ih
    rw [List.range_succ, List.foldl_append, List.foldl_cons, List.foldl_nil, List.flatMap_append,
      toDram, List.map_append, Words.move_append, List.flatMap_cons, List.flatMap_nil,
      List.append_nil, List.map_map]
    generalize (List.range n).foldl _ s = t at hbytes hmem ⊢
    obtain ⟨hword, hword'⟩ := rdram_dmaWriteWord source dest t (4 * n)
    have hfrom := (wordAddress (source + BitVec.ofNat 32 (4 * n))).1
    have hto := (wordAddress (dest + BitVec.ofNat 32 (4 * n))).2
    refine ⟨?_, hword'.trans hmem⟩
    rw [hword, hmem]
    funext a
    rw [Words.byte_putWord _ _ (by omega) (by omega)]
    exact congrFun (Words.move_congr hbytes _ _) a

theorem jitRowsAccesses_succ (length skip : BitVec 32) (count : ℕ) (memaddr dramaddr : BitVec 32) :
    jitRowsAccesses length skip (count + 1) memaddr dramaddr =
      jitRowAccesses memaddr dramaddr length ++
        jitRowsAccesses length skip count (memaddr + length) (dramaddr + (length + skip)) := by
  rw [jitRowsAccesses, List.range_succ_eq_map, List.flatMap_cons, List.flatMap_map]
  simp only [Nat.succ_eq_add_one, row_succ, BitVec.zero_mul, BitVec.add_zero]
  rfl

/-- **The rows of a read** -/
theorem dmaReadRows_spec (length skip : BitVec 32) (count : ℕ) (source dest : BitVec 32)
    (s : JitCpu) :
    (dmaReadRows length skip count source dest s).spMem.byte =
      (s.spMem.move s.rdram (jitRowsAccesses length skip count dest source)).byte ∧
    (dmaReadRows length skip count source dest s).rdram = s.rdram ∧
    (dmaReadRows length skip count source dest s).dmaCache =
      dest + BitVec.ofNat 32 count * length ∧
    (dmaReadRows length skip count source dest s).dmaDram =
      source + BitVec.ofNat 32 count * (length + skip) := by
  induction count generalizing source dest s with
  | zero => exact ⟨rfl, rfl, by simp [dmaReadRows], by simp [dmaReadRows]⟩
  | succ count ih =>
    obtain ⟨hrow, hrow'⟩ := bytes_dmaReadRow source dest s (length.toNat / 4)
    rw [dmaReadRows, jitRowsAccesses_succ, Words.move_append, row_succ, row_succ]
    generalize (List.range (length.toNat / 4)).foldl _ s = t at hrow hrow' ⊢
    obtain ⟨hmem, hdram, hcache, haddr⟩ := ih (source + (length + skip)) (dest + length) t
    refine ⟨?_, hdram.trans hrow', hcache, haddr⟩
    rw [hmem, hrow']
    exact Words.move_congr hrow _ _

/-- **The rows of a write** -/
theorem dmaWriteRows_spec (length skip : BitVec 32) (count : ℕ) (source dest : BitVec 32)
    (s : JitCpu) :
    (dmaWriteRows length skip count source dest s).rdram.byte =
      (s.rdram.move s.spMem (toDram (jitRowsAccesses length skip count source dest))).byte ∧
    (dmaWriteRows length skip count source dest s).spMem = s.spMem ∧
    (dmaWriteRows length skip count source dest s).dmaCache =
      source + BitVec.ofNat 32 count * length ∧
    (dmaWriteRows length skip count source dest s).dmaDram =
      dest + BitVec.ofNat 32 count * (length + skip) := by
  induction count generalizing source dest s with
  | zero => exact ⟨rfl, rfl, by simp [dmaWriteRows], by simp [dmaWriteRows]⟩
  | succ count ih =>
    obtain ⟨hrow, hrow'⟩ := bytes_dmaWriteRow source dest s (length.toNat / 4)
    rw [dmaWriteRows, jitRowsAccesses_succ, toDram, List.map_append, Words.move_append, row_succ,
      row_succ]
    generalize (List.range (length.toNat / 4)).foldl _ s = t at hrow hrow' ⊢
    obtain ⟨hdram, hmem, hcache, haddr⟩ := ih (source + length) (dest + (length + skip)) t
    refine ⟨?_, hmem.trans hrow', hcache, haddr⟩
    rw [hdram, hrow']
    exact Words.move_congr hrow _ _

theorem rows_eq (dma : SpDma) : ((dma.length >>> 12) &&& 0xff).toNat + 1 = dma.rowCount.toNat := by
  have hcount := dma.rowCount_toNat
  have hmask : dma.length.toNat >>> 12 &&& 0xff = (dma.length.toNat >>> 12) % 0x100 :=
    Nat.and_two_pow_sub_one_eq_mod _ 8
  rw [BitVec.toNat_and, BitVec.toNat_ushiftRight, hcount, ← Nat.shiftRight_eq_div_pow _ 12]
  exact congrArg (· + 1) hmask

/-- **A transfer** -/
theorem spDma_spec (s : JitCpu) (dma : SpDma) :
    (s.spDma dma).spMem.byte =
      (if dma.dir = 0 then s.spMem else s.spMem.move s.rdram dma.jitAccesses).byte ∧
    (s.spDma dma).rdram.byte =
      (if dma.dir = 0 then s.rdram.move s.spMem (toDram dma.jitAccesses) else s.rdram).byte ∧
    (s.spDma dma).dmaCache = dma.jitMem + dma.rowCount * dma.jitLength ∧
    (s.spDma dma).dmaDram = dma.jitDram + dma.rowCount * (dma.jitLength + dma.skip) := by
  have hcount : BitVec.ofNat 32 dma.rowCount.toNat = dma.rowCount :=
    BitVec.eq_of_toNat_eq (BitVec.toNat_ofNat .. ▸ Nat.mod_eq_of_lt dma.rowCount.isLt)
  unfold spDma
  split
  next hdir =>
    obtain ⟨hdram, hmem, hcache, haddr⟩ := dmaWriteRows_spec dma.jitLength dma.skip
      dma.rowCount.toNat dma.jitMem dma.jitDram
      { s with dmaCache := dma.memaddr, dmaDram := dma.dramaddr }
    rw [hcount] at hcache haddr
    simp only [rspDmaWrite, rows_eq]
    exact ⟨congrArg Words.byte hmem, hdram, hcache, haddr⟩
  next hdir =>
    obtain ⟨hmem, hdram, hcache, haddr⟩ := dmaReadRows_spec dma.jitLength dma.skip
      dma.rowCount.toNat dma.jitDram dma.jitMem
      { s with dmaCache := dma.memaddr, dmaDram := dma.dramaddr, dmaReadLength := dma.length }
    rw [hcount] at hcache haddr
    simp only [rspDmaRead, rows_eq]
    exact ⟨hmem, congrArg Words.byte hdram, hcache, haddr⟩

end JitCpu

end Mupen64plus
