import Mupen64plus.Lib.Runs
import Mupen64plus.Lib.Snapshots
import Mupen64plus.Rsp.Jit
import Mathlib.Data.Set.Function

/-!
# Known blocks are compiled from IMEM as it is

The copy of IMEM belongs to the first table: whatever is in the table was compiled from words the
copy still has. Between two runs the copy falls behind, and the marks say where.

## Main definitions

- `JitStep.HashedIn`, `JitStep.Coherent` — what is assumed and what is proved of a lookup
- `JitCoherent` — the invariant of the tables

## Main results

- `scanLoop_bounds`, `scanLoop_congr` — the scan for the end of a block
- `JitCoherent.lookup`, `JitCoherent.run`, `JitCoherent.dmaRead`
- `jit_blocks_coherent`
-/

namespace Mupen64plus

open Snapshots

/-- The blocks looked up are among those that the hash tells apart. -/
def JitStep.HashedIn (blocks : Set (ℕ × List (BitVec 32))) (s : JitCpu) : JitStep → Prop
  | .lookup pc => s.phase = .running →
    (JitCpu.wordPc pc, s.blockWords (JitCpu.wordPc pc)) ∈ blocks
  | _ => True

/-- A block that a lookup returns was compiled from the words that are now in its place. -/
def JitStep.Coherent (s : JitCpu) : JitStep → Prop
  | .lookup pc => s.phase = .running →
    (s.getJitBlock pc).1.pc = JitCpu.wordPc pc ∧
    (s.getJitBlock pc).1.words =
      imemWords s.imem (JitCpu.wordPc pc) (s.getJitBlock pc).1.words.length
  | _ => True

-- ════════════════════
-- The scan
-- ════════════════════

/-- How far a turn of the scan has come. -/
def JitScan.reach : JitScan → ℕ
  | .next maxStaticPc => maxStaticPc
  | .done maxStaticPc => maxStaticPc

theorem scanInstr_reach (instr : BitVec 32) (pc limit place maxStaticPc : ℕ) :
    place + 1 ≤ (scanInstr instr pc limit place maxStaticPc).reach ∧
      maxStaticPc ≤ (scanInstr instr pc limit place maxStaticPc).reach := by
  have hmax : place + 1 ≤ (if decide (place + 1 < maxStaticPc) then maxStaticPc else place + 1) ∧
      maxStaticPc ≤ (if decide (place + 1 < maxStaticPc) then maxStaticPc else place + 1) := by
    split
    next h =>
      have hlt := of_decide_eq_true h
      omega
    next h =>
      have hle : ¬place + 1 < maxStaticPc := fun hlt => h (decide_eq_true hlt)
      omega
  unfold scanInstr
  dsimp only
  generalize (if decide (place + 1 < maxStaticPc) then maxStaticPc else place + 1) =
    reached at hmax ⊢
  generalize ((BitVec.ofNat 32 place + 1 + instr) &&& 0x3ff).toNat = branch
  generalize (instr &&& 0x3ff).toNat = jump
  repeat' split
  all_goals
    simp only [JitScan.reach]
    omega

theorem scanLoop_bounds (imem : Words) (pc limit n place maxStaticPc : ℕ) :
    maxStaticPc ≤ scanLoop imem pc limit n place maxStaticPc ∧
      (0 < n → place + 1 ≤ scanLoop imem pc limit n place maxStaticPc) := by
  induction n generalizing place maxStaticPc with
  | zero => exact ⟨le_rfl, fun h => absurd h (Nat.lt_irrefl 0)⟩
  | succ n ih =>
    obtain ⟨hplace, hmax⟩ := scanInstr_reach (imem place) pc limit place maxStaticPc
    rw [scanLoop]
    cases hscan : scanInstr (imem place) pc limit place maxStaticPc with
    | next reached =>
      rw [hscan] at hplace hmax
      have hnext := (ih (place + 1) reached).1
      exact ⟨hmax.trans hnext, fun _ => hplace.trans hnext⟩
    | done reached =>
      rw [hscan] at hplace hmax
      exact ⟨hmax, fun _ => hplace⟩

/-- The scan reads nothing behind what it finds. -/
theorem scanLoop_congr {imem imem' : Words} {pc limit n place maxStaticPc : ℕ}
    (h : ∀ i, place ≤ i → i < place + n → i < scanLoop imem pc limit n place maxStaticPc →
      imem' i = imem i) :
    scanLoop imem' pc limit n place maxStaticPc = scanLoop imem pc limit n place maxStaticPc := by
  induction n generalizing place maxStaticPc with
  | zero => rfl
  | succ n ih =>
    have hbounds := scanLoop_bounds imem pc limit (n + 1) place maxStaticPc
    have hword := h place le_rfl (by omega) (hbounds.2 (Nat.succ_pos n))
    rw [scanLoop] at h
    rw [scanLoop, scanLoop, hword]
    cases hscan : scanInstr (imem place) pc limit place maxStaticPc with
    | next reached =>
      rw [hscan] at h
      exact ih fun i hlow hhigh hlt => h i (by omega) (by omega) hlt
    | done reached => rfl

/-- **The end of a block** lies behind its start and at the limit at most. -/
theorem analyzeStaticEnd_bounds (imem : Words) {pc limit : ℕ} (h : pc < limit) :
    pc < analyzeStaticEnd imem pc limit ∧ analyzeStaticEnd imem pc limit ≤ limit := by
  have hbounds := (scanLoop_bounds imem pc limit (limit - pc) pc pc).2 (by omega)
  rw [analyzeStaticEnd]
  omega

/-- It depends on the words before it. -/
theorem analyzeStaticEnd_congr {imem imem' : Words} {pc limit : ℕ}
    (h : ∀ i, pc ≤ i → i < analyzeStaticEnd imem pc limit → imem' i = imem i) :
    analyzeStaticEnd imem' pc limit = analyzeStaticEnd imem pc limit := by
  rw [analyzeStaticEnd, analyzeStaticEnd, scanLoop_congr fun i hlow hhigh hlt => h i hlow ?_]
  rw [analyzeStaticEnd]
  omega

-- ════════════════════
-- Marks
-- ════════════════════

theorem getLsbD_blockMarks {block : ℕ} (h : block < 16) (k : ℕ) :
    (blockMarks block).getLsbD k = decide (k = block ∨ k = block - 1) := by
  rw [blockMarks, BitVec.getLsbD_ushiftRight, BitVec.getLsbD_shiftLeft,
    BitVec.getLsbD_ofNat, show 0x3 = 2 ^ 2 - 1 from rfl, Nat.testBit_two_pow_sub_one,
    Bool.eq_iff_iff]
  simp only [Bool.and_eq_true, Bool.not_eq_true', decide_eq_true_eq, decide_eq_false_iff_not]
  omega

/-- Marks are only added. -/
theorem getLsbD_or_left {x y : BitVec 32} {k : ℕ} (h : x.getLsbD k = true) :
    (x ||| y).getLsbD k = true := by
  rw [BitVec.getLsbD_or, h, Bool.true_or]

theorem getLsbD_or_blockMarks {x : BitVec 32} {block : ℕ} (h : block < 16) :
    (x ||| blockMarks block).getLsbD block = true ∧
      (x ||| blockMarks block).getLsbD (block - 1) = true := by
  rw [BitVec.getLsbD_or, BitVec.getLsbD_or, getLsbD_blockMarks h, getLsbD_blockMarks h,
    decide_eq_true (Or.inl rfl), decide_eq_true (Or.inr rfl), Bool.or_true, Bool.or_true]
  exact ⟨rfl, rfl⟩

namespace JitCpu

/-- `invalidate_imem` marks every block that differs, with the one before. -/
theorem invalidateImem_watched (s : JitCpu) :
    Watched 1024 64 s.invalidateImem.dirtyBlocks.getLsbD s.imem s.cachedImem := by
  have hmarks : ∀ n ≤ 16, ∀ dirty : BitVec 32,
      (∀ k, dirty.getLsbD k = true → ((List.range n).foldl (fun dirty i =>
        if s.blockDiffers i then dirty ||| blockMarks i else dirty) dirty).getLsbD k = true) ∧
      ∀ i < n, s.blockDiffers i = true →
        ((List.range n).foldl (fun dirty i =>
          if s.blockDiffers i then dirty ||| blockMarks i else dirty) dirty).getLsbD i = true ∧
        ((List.range n).foldl (fun dirty i =>
          if s.blockDiffers i then dirty ||| blockMarks i else dirty) dirty).getLsbD (i - 1) =
            true := by
    intro n hn dirty
    induction n with
    | zero => exact ⟨fun _ h => h, fun i hi => absurd hi (Nat.not_lt_zero i)⟩
    | succ n ih =>
      obtain ⟨hkept, hnew⟩ := ih (by omega)
      rw [List.range_succ, List.foldl_append, List.foldl_cons, List.foldl_nil]
      split
      next hdiffers =>
        refine ⟨fun k hk => getLsbD_or_left (hkept k hk), fun i hi hd => ?_⟩
        rcases Nat.lt_succ_iff_lt_or_eq.mp hi with hlt | rfl
        · obtain ⟨hown, hbefore⟩ := hnew i hlt hd
          exact ⟨getLsbD_or_left hown, getLsbD_or_left hbefore⟩
        · exact getLsbD_or_blockMarks (by omega)
      next hsame =>
        refine ⟨hkept, fun i hi hd => ?_⟩
        rcases Nat.lt_succ_iff_lt_or_eq.mp hi with hlt | rfl
        · exact hnew i hlt hd
        · exact absurd hd hsame
  intro i hi hne
  refine (hmarks 16 le_rfl s.dirtyBlocks).2 (i / 64) (by omega) ?_
  refine List.any_eq_true.mpr ⟨i % 64, List.mem_range.mpr (Nat.mod_lt _ (by decide)), ?_⟩
  rw [Nat.div_add_mod, bne_iff_ne]
  exact hne

/-- A word of a transfer keeps the marks and adds those of what it writes. -/
theorem dmaReadWord_watched {s : JitCpu}
    (h : Watched 1024 64 s.dirtyBlocks.getLsbD s.imem s.cachedImem) (source dest : BitVec 32)
    (j : ℕ) : Watched 1024 64 (dmaReadWord source dest s j).dirtyBlocks.getLsbD
      (dmaReadWord source dest s j).imem (dmaReadWord source dest s j).cachedImem := by
  unfold dmaReadWord
  dsimp only
  split
  next =>
    generalize (dest + BitVec.ofNat 32 j) &&& 0x1ffc = destAddr
    have hlow : (destAddr &&& 0xfff).toNat < 0x1000 := by
      rw [BitVec.toNat_and]
      exact Nat.lt_of_le_of_lt Nat.and_le_right (by decide)
    have hblock : ((destAddr &&& 0xfff) / 256).toNat = (destAddr &&& 0xfff).toNat / 256 :=
      BitVec.toNat_udiv
    have hplace : ((destAddr &&& 0xfff) >>> 2).toNat = (destAddr &&& 0xfff).toNat / 4 := by
      rw [BitVec.toNat_ushiftRight, Nat.shiftRight_eq_div_pow]
    have hchunk : ((destAddr &&& 0xfff) >>> 2).toNat / 64 = ((destAddr &&& 0xfff) / 256).toNat := by
      rw [hblock, hplace, Nat.div_div_eq_div_mul]
    have hmarks : ∀ x : BitVec 32,
        (x ||| blockMarks ((destAddr &&& 0xfff) / 256).toNat).getLsbD
          (((destAddr &&& 0xfff) >>> 2).toNat / 64) = true ∧
        (x ||| blockMarks ((destAddr &&& 0xfff) / 256).toNat).getLsbD
          (((destAddr &&& 0xfff) >>> 2).toNat / 64 - 1) = true := by
      intro x
      rw [hchunk]
      exact getLsbD_or_blockMarks (by omega)
    refine Watched.write (h.mono fun k hk => getLsbD_or_left hk) (hmarks _).1 (hmarks _).2 ?_
    intro i hi
    exact Function.update_of_ne hi _ _
  next => exact h

/-- What a transfer leaves alone of the tables. -/
structure SameTables (s t : JitCpu) : Prop where
  blocks : t.blocks = s.blocks
  cachedImem : t.cachedImem = s.cachedImem
  cachedBlocks : t.cachedBlocks = s.cachedBlocks
  phase : t.phase = s.phase

theorem SameTables.refl (s : JitCpu) : SameTables s s := ⟨rfl, rfl, rfl, rfl⟩

theorem SameTables.trans {s t u : JitCpu} (h : SameTables s t) (h' : SameTables t u) :
    SameTables s u :=
  ⟨h'.blocks.trans h.blocks, h'.cachedImem.trans h.cachedImem,
    h'.cachedBlocks.trans h.cachedBlocks, h'.phase.trans h.phase⟩

/-- A state with every change marked. -/
def Marked (s : JitCpu) : Prop := Watched 1024 64 s.dirtyBlocks.getLsbD s.imem s.cachedImem

theorem dmaReadWord_same (source dest : BitVec 32) (s : JitCpu) (j : ℕ) :
    SameTables s (dmaReadWord source dest s j) := by
  unfold dmaReadWord
  dsimp only
  split
  · exact ⟨rfl, rfl, rfl, rfl⟩
  · exact ⟨rfl, rfl, rfl, rfl⟩

theorem dmaReadRow_marked {s : JitCpu} (h : s.Marked) (source dest : BitVec 32) (n : ℕ) :
    ((List.range n).foldl (fun s i => dmaReadWord source dest s (4 * i)) s).Marked ∧
      SameTables s ((List.range n).foldl (fun s i => dmaReadWord source dest s (4 * i)) s) := by
  induction n with
  | zero => exact ⟨h, SameTables.refl s⟩
  | succ n ih =>
    rw [List.range_succ, List.foldl_append, List.foldl_cons, List.foldl_nil]
    exact ⟨dmaReadWord_watched ih.1 source dest _, ih.2.trans (dmaReadWord_same _ _ _ _)⟩

theorem dmaReadRows_marked {s : JitCpu} (h : s.Marked) (length skip : BitVec 32) (count : ℕ)
    (source dest : BitVec 32) : (dmaReadRows length skip count source dest s).Marked ∧
      SameTables s (dmaReadRows length skip count source dest s) := by
  induction count generalizing s source dest with
  | zero => exact ⟨h, ⟨rfl, rfl, rfl, rfl⟩⟩
  | succ count ih =>
    obtain ⟨hrow, hsame⟩ := dmaReadRow_marked h source dest (length.toNat / 4)
    rw [dmaReadRows]
    obtain ⟨hrows, hsame'⟩ := ih hrow (source + (length + skip)) (dest + length)
    exact ⟨hrows, hsame.trans hsame'⟩

/-- **A transfer** marks what it changes. -/
theorem rspDmaRead_marked {s : JitCpu} (h : s.Marked) :
    s.rspDmaRead.Marked ∧ SameTables s s.rspDmaRead :=
  dmaReadRows_marked h _ _ _ _ _

theorem wordPc_lt (pc : BitVec 32) : wordPc pc < 1024 := by
  have hlow : (pc &&& 0xfff).toNat < 0x1000 := by
    rw [BitVec.toNat_and]
    exact Nat.lt_of_le_of_lt Nat.and_le_right (by decide)
  rw [wordPc, BitVec.toNat_ushiftRight, Nat.shiftRight_eq_div_pow]
  omega

/-- The words of a new block. -/
theorem blockWords_span (s : JitCpu) {p : ℕ} (hp : p < 1024) :
    Span 1024 64 s.imem p (s.blockWords p) := by
  have hlimit : p < min ((p / 64 + 2) * 64) 1024 := by omega
  obtain ⟨hlow, hhigh⟩ := analyzeStaticEnd_bounds s.imem hlimit
  have hlength : (s.blockWords p).length =
      analyzeStaticEnd s.imem p (min ((p / 64 + 2) * 64) 1024) - p := by
    rw [blockWords, imemWords, List.length_map, List.length_range]
  refine ⟨by omega, by omega, fun i hi => ?_⟩
  simp only [blockWords, imemWords, List.getElem_map, List.getElem_range]

theorem span_words {imem : Words} {p : ℕ} {words : List (BitVec 32)}
    (h : Span 1024 64 imem p words) : words = imemWords imem p words.length := by
  refine List.ext_getElem ?_ fun i hi _ => ?_
  · rw [imemWords, List.length_map, List.length_range]
  · simp only [imemWords, List.getElem_map, List.getElem_range]
    exact (h.words i hi).symm

end JitCpu

-- ════════════════════
-- The invariant
-- ════════════════════

structure JitCoherent (known : Set (ℕ × List (BitVec 32))) (s : JitCpu) : Prop where
  spans : ∀ p b, s.blocks p = some b → b.pc = p ∧ Span 1024 64 s.cachedImem p b.words
  hashed : ∀ p h b, s.cachedBlocks p h = some b →
    b.pc = p ∧ hashImem p b.words = h ∧ (p, b.words) ∈ known
  marked : s.phase ≠ .between false → s.Marked
  clean : s.phase = .running → s.dirtyBlocks = 0

namespace JitCoherent

variable {known : Set (ℕ × List (BitVec 32))} {s : JitCpu}

theorem fresh (imem : Words) : JitCoherent known (.fresh imem) where
  spans := fun _ _ h => absurd h (by simp [JitCpu.fresh])
  hashed := fun _ _ _ h => absurd h (by simp [JitCpu.fresh])
  marked := fun h => absurd rfl h
  clean := fun h => absurd h (by simp [JitCpu.fresh])

/-- In a run the copy is IMEM as it is. -/
theorem current (h : JitCoherent known s) (hphase : s.phase = .running) {i : ℕ} (hi : i < 1024) :
    s.cachedImem i = s.imem i := by
  have hmarked : s.Marked := h.marked (by rw [hphase]; simp)
  by_contra hne
  have hmark := (hmarked i hi hne).1
  rw [h.clean hphase] at hmark
  exact absurd hmark (by simp)

/-- **A block that is found, in either table, or compiled** -/
theorem lookup (h : JitCoherent known s)
    (hinj : Set.InjOn (fun k : ℕ × List (BitVec 32) => hashImem k.1 k.2) known)
    (hphase : s.phase = .running) {pc : BitVec 32}
    (hknown : (JitCpu.wordPc pc, s.blockWords (JitCpu.wordPc pc)) ∈ known) :
    JitCoherent known (s.getJitBlock pc).2 ∧ (s.getJitBlock pc).1.pc = JitCpu.wordPc pc ∧
      Span 1024 64 s.imem (JitCpu.wordPc pc) (s.getJitBlock pc).1.words := by
  have hnew := s.blockWords_span (JitCpu.wordPc_lt pc)
  have hnew' : Span 1024 64 s.cachedImem (JitCpu.wordPc pc) (s.blockWords (JitCpu.wordPc pc)) :=
    hnew.congr fun i hi => h.current hphase hi
  have hentry : ∀ b : JitBlock, b.pc = JitCpu.wordPc pc →
      Span 1024 64 s.cachedImem (JitCpu.wordPc pc) b.words → ∀ p b',
        Function.update s.blocks (JitCpu.wordPc pc) (some b) p = some b' →
          b'.pc = p ∧ Span 1024 64 s.cachedImem p b'.words := by
    intro b hpc hspan p b' hp
    rcases eq_or_ne p (JitCpu.wordPc pc) with rfl | hne
    · rw [Function.update_self] at hp
      obtain rfl := Option.some.inj hp
      exact ⟨hpc, hspan⟩
    · rw [Function.update_of_ne hne] at hp
      exact h.spans p b' hp
  unfold JitCpu.getJitBlock
  dsimp only
  split
  next b hb =>
    obtain ⟨hpc, hspan⟩ := h.spans _ b hb
    exact ⟨h, hpc, hspan.congr fun i hi => (h.current hphase hi).symm⟩
  next =>
    split
    next b hb =>
      obtain ⟨hpc, hhash, hmem⟩ := h.hashed _ _ b hb
      have hwords : b.words = s.blockWords (JitCpu.wordPc pc) :=
        (Prod.mk.inj (hinj hmem hknown hhash)).2
      refine ⟨⟨hentry b hpc (hwords ▸ hnew'), h.hashed, h.marked, h.clean⟩, hpc, ?_⟩
      rw [hwords]
      exact hnew
    next =>
      refine ⟨⟨hentry _ rfl hnew', ?_, h.marked, h.clean⟩, rfl, hnew⟩
      intro p hash b hb
      dsimp only at hb
      rcases eq_or_ne p (JitCpu.wordPc pc) with rfl | hne
      · rw [Function.update_self] at hb
        rcases eq_or_ne hash (hashImem (JitCpu.wordPc pc) (s.blockWords (JitCpu.wordPc pc))) with
          rfl | hother
        · rw [Function.update_self] at hb
          obtain rfl := Option.some.inj hb
          exact ⟨rfl, rfl, hknown⟩
        · rw [Function.update_of_ne hother] at hb
          exact h.hashed _ _ _ hb
      · rw [Function.update_of_ne hne] at hb
        exact h.hashed _ _ _ hb

/-- **A run begins** with the marked blocks forgotten. -/
theorem run (h : JitCoherent known s) (hphase : s.phase = .between true) :
    JitCoherent known { s.invalidateCode with phase := .running } := by
  have hmarked : s.Marked := h.marked (by rw [hphase]; simp)
  refine ⟨fun p b hb => ?_, h.hashed, fun _ i hi hne => ?_, fun _ => rfl⟩
  · change (if s.dirtyBlocks.getLsbD (p / 64) then none else s.blocks p) = some b at hb
    split at hb
    next => exact absurd hb (by simp)
    next hkept =>
      obtain ⟨hpc, hspan⟩ := h.spans p b hb
      exact ⟨hpc, hspan.refresh hmarked (by decide) (Bool.eq_false_iff.mpr hkept)⟩
  · exact absurd (hmarked.refresh_eq hi) hne

theorem dmaRead (h : JitCoherent known s) (hphase : s.phase = .running) (length : BitVec 32) :
    JitCoherent known (s.step (.dmaRead length)) := by
  have hmarked : ({ s with dmaReadLength := length } : JitCpu).Marked :=
    h.marked (by rw [hphase]; simp)
  obtain ⟨hdone, hsame⟩ := JitCpu.rspDmaRead_marked hmarked
  have hspans : ∀ p b, ({ s with dmaReadLength := length } : JitCpu).rspDmaRead.blocks p = some b →
      b.pc = p ∧ Span 1024 64
        ({ s with dmaReadLength := length } : JitCpu).rspDmaRead.cachedImem p b.words := by
    rw [hsame.blocks, hsame.cachedImem]
    exact h.spans
  have hhashed : ∀ p hash b,
      ({ s with dmaReadLength := length } : JitCpu).rspDmaRead.cachedBlocks p hash = some b →
        b.pc = p ∧ hashImem p b.words = hash ∧ (p, b.words) ∈ known := by
    rw [hsame.cachedBlocks]
    exact h.hashed
  rw [JitCpu.step]
  split
  next hbetween => exact absurd (hphase.symm.trans hbetween) (by simp)
  next =>
    dsimp only
    split
    next => exact ⟨hspans, hhashed, fun _ => hdone, fun hrun => absurd hrun (by simp)⟩
    next hclean => exact ⟨hspans, hhashed, fun _ => hdone, fun _ => not_not.mp hclean⟩

/-- **A step** -/
theorem step (h : JitCoherent known s)
    (hinj : Set.InjOn (fun k : ℕ × List (BitVec 32) => hashImem k.1 k.2) known) {a : JitStep}
    (hknown : a.HashedIn known s) : JitCoherent known (s.step a) := by
  cases a with
  | host imem =>
    rw [JitCpu.step]
    split
    next => exact ⟨h.spans, h.hashed, fun hphase => absurd rfl hphase,
      fun hrun => absurd hrun (by simp)⟩
    next => exact h
  | invalidateImem =>
    rw [JitCpu.step]
    split
    next => exact ⟨h.spans, h.hashed, fun _ => s.invalidateImem_watched,
      fun hrun => absurd hrun (by simp)⟩
    next => exact h
  | run =>
    rw [JitCpu.step]
    split
    next hphase => exact h.run hphase
    next => exact h
  | lookup pc =>
    rw [JitCpu.step]
    split
    next => exact h
    next hphase => exact (h.lookup hinj hphase (hknown hphase)).1
  | dmaRead length =>
    cases hphase : s.phase with
    | between checked =>
      rw [JitCpu.step, hphase]
      exact h
    | running => exact h.dmaRead hphase length
  | other dmem rdram dmaCache dmaDram => exact ⟨h.spans, h.hashed, h.marked, h.clean⟩
  | stop =>
    rw [JitCpu.step]
    split
    next => exact h
    next hphase => exact ⟨h.spans, h.hashed, fun _ => h.marked (by rw [hphase]; simp),
      fun hrun => absurd hrun (by simp)⟩

theorem coherent (h : JitCoherent known s)
    (hinj : Set.InjOn (fun k : ℕ × List (BitVec 32) => hashImem k.1 k.2) known) {a : JitStep}
    (hknown : a.HashedIn known s) : a.Coherent s := by
  cases a with
  | lookup pc =>
    intro hphase
    obtain ⟨-, hpc, hspan⟩ := h.lookup hinj hphase (hknown hphase)
    exact ⟨hpc, JitCpu.span_words hspan⟩
  | _ => trivial

end JitCoherent

/-- **Blocks of the recompiler** Over any steps of the host and of the processor, where the hash
    tells apart the blocks that are looked up, a lookup returns a block of the words that are in its
    place. The end of a block depends on nothing behind it. -/
theorem jit_blocks_coherent (imem : Words) (known : Set (ℕ × List (BitVec 32)))
    (steps : List JitStep)
    (hinj : Set.InjOn (fun k : ℕ × List (BitVec 32) => hashImem k.1 k.2) known)
    (h : Runs.Along JitCpu.step (fun s a => a.HashedIn known s) (.fresh imem) steps) :
    Runs.Along JitCpu.step (fun s a => a.Coherent s) (.fresh imem) steps ∧
    ∀ (imem : Words) (pc limit : ℕ), pc < limit →
      pc < analyzeStaticEnd imem pc limit ∧ analyzeStaticEnd imem pc limit ≤ limit ∧
      ∀ imem' : Words, (∀ i, pc ≤ i → i < analyzeStaticEnd imem pc limit → imem' i = imem i) →
        analyzeStaticEnd imem' pc limit = analyzeStaticEnd imem pc limit := by
  constructor
  · exact Runs.along_of_along (I := JitCoherent known) (fun s a hs ha => hs.step hinj ha)
      (fun s a hs ha => hs.coherent hinj ha) (JitCoherent.fresh imem) h
  · intro imem pc limit hlt
    obtain ⟨hlow, hhigh⟩ := analyzeStaticEnd_bounds imem hlt
    exact ⟨hlow, hhigh, fun imem' heq => analyzeStaticEnd_congr heq⟩

/-- A program that is `BREAK` at every word. -/
def breakImem : Words := fun _ => 0xd

/-- The blocks at the first two words, and the one at the first word when that is an `ADD`. -/
def breakBlocks : Set (ℕ × List (BitVec 32)) := {(0, [0xd]), (1, [0xd]), (0, [0x20, 0xd])}

/-- Two blocks are compiled, the first one is found again, and then its first word is changed. -/
def breakSteps : List JitStep :=
  [.invalidateImem, .run, .lookup 0, .lookup 4, .lookup 0, .stop,
    .host (Function.update breakImem 0 0x20), .invalidateImem, .run, .lookup 0, .lookup 4, .stop]

theorem breakBlocks_injOn :
    Set.InjOn (fun k : ℕ × List (BitVec 32) => hashImem k.1 k.2) breakBlocks := by
  rintro _ (rfl | rfl | rfl) _ (rfl | rfl | rfl) hhash <;>
    first | rfl | exact absurd hhash (by decide)

theorem jit_blocks_coherent_break :
    Set.InjOn (fun k : ℕ × List (BitVec 32) => hashImem k.1 k.2) breakBlocks ∧
    Runs.Along JitCpu.step (fun s a => a.HashedIn breakBlocks s) (.fresh breakImem) breakSteps ∧
    Runs.Along JitCpu.step (fun s a => a.Coherent s) (.fresh breakImem) breakSteps := by
  have hknown : Runs.Along JitCpu.step (fun s a => a.HashedIn breakBlocks s)
      (.fresh breakImem) breakSteps :=
    ⟨trivial, trivial, fun _ => .inl rfl, fun _ => .inr (.inl rfl), fun _ => .inl rfl, trivial,
      trivial, trivial, trivial, fun _ => .inr (.inr rfl), fun _ => .inr (.inl rfl), trivial,
      trivial⟩
  exact ⟨breakBlocks_injOn, hknown, (jit_blocks_coherent breakImem _ _ breakBlocks_injOn hknown).1⟩

end Mupen64plus
