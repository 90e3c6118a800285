import Mupen64plus.Lib.DownRegister

/-!
# Checksums of buffers

`CRC_OPT.cpp`, `CRC32.cpp` and `CRC32_ARMV8.cpp`: by table, or by instructions that take up to
eight bytes. `GBI.cpp` knows microcodes by such a checksum, and `gDP.cpp` palettes.

## Main definitions

- `reflect`, `crcTable` — `Reflect`, `CRC_Init`
- `CrcOpt.calculateStrict`, `Crc32.calculate`, `Crc32.calculatePalette` — by table
- `CrcArm.calculate`, `CrcArm.calculatePalette` — by instruction

## Main results

- `crcTable_eq` — the table that the two reflections make holds steps of the reflected polynomial
- `checksums_agree` — all of them are the same function
- `checksums_burst` — a change within four bytes, or two colors of a palette, shows
-/

namespace Mupen64plus

open DownRegister

-- ════════════════════
-- The table
-- ════════════════════

/-- `CRC32_POLYNOMIAL`. -/
def crc32Polynomial : BitVec 32 := 0x04C11DB7#32

/-- A round of the loop, over `value` and `ref`. -/
def reflectRound (ch : ℕ) (s : BitVec 32 × BitVec 32) (i : ℕ) : BitVec 32 × BitVec 32 :=
  (if s.2 &&& 1#32 ≠ 0#32 then s.1 ||| 1#32 <<< (ch - i) else s.1, s.2 >>> 1)

def reflect (ref : BitVec 32) (ch : ℕ) : BitVec 32 :=
  ((List.range' 1 ch).foldl (reflectRound ch) (0#32, ref)).1

/-- A round of the inner loop of `CRC_Init`. -/
def crcInitRound (crc : BitVec 32) : BitVec 32 :=
  (crc <<< 1) ^^^ (if crc &&& 1#32 <<< 31 ≠ 0#32 then crc32Polynomial else 0#32)

/-- `CRCTable`, as `CRC_Init` fills it. -/
def crcTable (i : BitVec 8) : BitVec 32 :=
  reflect (crcInitRound^[8] (reflect (i.setWidth 32) 8 <<< 24)) 32

-- ════════════════════
-- Checksums
-- ════════════════════

/-- The host's bytes. -/
abbrev HostMemory := ℕ → BitVec 8

def crcByte32 (crc : BitVec 32) (b : BitVec 8) : BitVec 32 :=
  (crc >>> 8) ^^^ crcTable ((crc &&& 0xFF#32).setWidth 8 ^^^ b)

/-- `CRC_Calculate_Strict` of `CRC_OPT.cpp`. -/
def CrcOpt.calculateStrict (mem : HostMemory) (crc : BitVec 32) (buffer count : ℕ) : BitVec 32 :=
  (List.range count).foldl (fun c i => crcByte32 c (mem (buffer + i))) crc ^^^ crc

namespace Crc32

variable (mem : HostMemory)

/-- `CRC_Calculate` of `CRC32.cpp`. -/
def calculate (crc : BitVec 64) (buffer count : ℕ) : BitVec 64 :=
  ((List.range count).foldl (fun c i => crcByte32 c (mem (buffer + i))) (crc.setWidth 32) ^^^
    crc.setWidth 32).setWidth 64

def calculateStrict (crc : BitVec 32) (buffer count : ℕ) : BitVec 32 :=
  (calculate mem (crc.setWidth 64) buffer count).setWidth 32

/-- `CRC_CalculatePalette`: of eight bytes, the first two. -/
def calculatePalette (crc : BitVec 64) (buffer count : ℕ) : BitVec 64 :=
  ((List.range count).foldl (fun c i =>
      crcByte32 (crcByte32 c (mem (buffer + 8 * i))) (mem (buffer + 8 * i + 1)))
    (crc.setWidth 32) ^^^ crc.setWidth 32).setWidth 64

end Crc32

namespace CrcArm

/-- `__crc32b`, `__crc32h`, `__crc32w` and `__crc32d`: the bits of a value, the lowest first, over
    the reflected polynomial. -/
def instruction {n : ℕ} (crc : BitVec 32) (v : BitVec n) : BitVec 32 :=
  (List.range n).foldl (fun c i => bitIn crc32Polynomial.reverse c (v.getLsbD i)) crc

variable (mem : HostMemory)

theorem loadWidth_succ (k : ℕ) : 8 + 8 * k = 8 * (k + 1) := by omega

/-- A little endian load of `k` bytes. -/
def load (p : ℕ) : (k : ℕ) → BitVec (8 * k)
  | 0 => 0#0
  | k + 1 => (mem (p + k) ++ load p k).cast (loadWidth_succ k)

/-- The loop over doublewords, with what `p` and `count` are after it. -/
def doublewords (crc : BitVec 32) (p count : ℕ) : BitVec 32 × ℕ × ℕ :=
  if 8 ≤ count then doublewords (instruction crc (load mem p 8)) (p + 8) (count - 8)
  else (crc, p, count)
termination_by count

/-- One of the `if`s after it, for `k` bytes. -/
def tail (k : ℕ) (s : BitVec 32 × ℕ × ℕ) : BitVec 32 × ℕ × ℕ :=
  if k ≤ s.2.2 then (instruction s.1 (load mem s.2.1 k), s.2.1 + k, s.2.2 - k) else s

/-- `CRC_Calculate` of `CRC32_ARMV8.cpp`. -/
def calculate (crc : BitVec 64) (buffer count : ℕ) : BitVec 64 :=
  let s := tail mem 2 (tail mem 4 (doublewords mem (crc.setWidth 32) buffer count))
  ((if s.2.2 = 1 then instruction s.1 (mem s.2.1) else s.1) ^^^ crc.setWidth 32).setWidth 64

def calculateStrict (crc : BitVec 32) (buffer count : ℕ) : BitVec 32 :=
  (calculate mem (crc.setWidth 64) buffer count).setWidth 32

def calculatePalette (crc : BitVec 64) (buffer count : ℕ) : BitVec 64 :=
  ((List.range count).foldl (fun c i => instruction c (load mem (buffer + 8 * i) 2))
    (crc.setWidth 32) ^^^ crc.setWidth 32).setWidth 64

end CrcArm

-- ════════════════════
-- What the table holds
-- ════════════════════

theorem and_one_ne_zero_iff {w : ℕ} {v : BitVec w} {i : ℕ} (hi : i < w) :
    v &&& 1#w <<< i ≠ 0#w ↔ v.getLsbD i = true := by
  constructor
  · intro h
    by_contra hbit
    refine h (BitVec.eq_of_getLsbD_eq fun j hj => ?_)
    rw [BitVec.getLsbD_and, BitVec.getLsbD_shiftLeft, BitVec.getLsbD_zero, BitVec.getLsbD_one]
    rcases eq_or_ne j i with rfl | hne
    · simp [hbit]
    · grind
  · intro hbit h
    have hi' := congrArg (BitVec.getLsbD · i) h
    rw [BitVec.getLsbD_and, hbit, BitVec.getLsbD_shiftLeft] at hi'
    simp [hi, (by omega : 0 < w)] at hi'

/-- The loop sets the bits that have come by. -/
theorem reflectRound_foldl (ref : BitVec 32) {ch n : ℕ} (hch : ch ≤ 32) (hn : n ≤ ch) :
    (∀ j, ((List.range' 1 n).foldl (reflectRound ch) (0#32, ref)).1.getLsbD j =
      (decide (ch - n ≤ j ∧ j < ch) && ref.getLsbD (ch - 1 - j))) ∧
    ((List.range' 1 n).foldl (reflectRound ch) (0#32, ref)).2 = ref >>> n := by
  induction n with
  | zero =>
    refine ⟨fun j => ?_, (BitVec.ushiftRight_zero ref).symm⟩
    simp
  | succ n ih =>
    obtain ⟨hvalue, href⟩ := ih (Nat.le_of_succ_le hn)
    rw [List.range'_1_concat, List.foldl_append, List.foldl_cons, List.foldl_nil, reflectRound,
      href, ← BitVec.shiftRight_add]
    refine ⟨fun j => ?_, rfl⟩
    have hbit : ref >>> n &&& 1#32 ≠ 0#32 ↔ ref.getLsbD n = true := by
      have h := and_one_ne_zero_iff (v := ref >>> n) (i := 0) (by omega)
      rwa [BitVec.shiftLeft_zero, BitVec.getLsbD_ushiftRight, Nat.add_zero] at h
    have hnew : (1#32 <<< (ch - (1 + n))).getLsbD j = decide (j = ch - (1 + n)) := by
      rw [BitVec.getLsbD_shiftLeft, BitVec.getLsbD_one]
      grind
    rcases eq_or_ne j (ch - (1 + n)) with rfl | hne
    · have hlast : ch - 1 - (ch - (1 + n)) = n := by omega
      simp only [hbit]
      split
      · rename_i hset
        rw [BitVec.getLsbD_or, hnew, hlast, hset]
        grind
      · rename_i hclear
        rw [hvalue, hlast, Bool.eq_false_iff.2 hclear]
        simp
    · have hrange : (ch - (n + 1) ≤ j ∧ j < ch) ↔ (ch - n ≤ j ∧ j < ch) := by omega
      simp only [hrange]
      split
      · rw [BitVec.getLsbD_or, hnew, hvalue, decide_eq_false hne, Bool.or_false]
      · exact hvalue j

theorem getLsbD_reflect (ref : BitVec 32) {ch : ℕ} (hch : ch ≤ 32) (j : ℕ) :
    (reflect ref ch).getLsbD j = (decide (j < ch) && ref.getLsbD (ch - 1 - j)) := by
  rw [reflect, (reflectRound_foldl ref hch le_rfl).1 j, Nat.sub_self]
  simp

theorem reflect_word (v : BitVec 32) : reflect v 32 = v.reverse := by
  refine BitVec.eq_of_getLsbD_eq fun i hi => ?_
  rw [getLsbD_reflect v le_rfl, BitVec.getLsbD_reverse, BitVec.getMsbD]

theorem reflect_byte (i : BitVec 8) :
    reflect (i.setWidth 32) 8 <<< 24 = (i.setWidth 32).reverse := by
  refine BitVec.eq_of_getLsbD_eq fun j hj => ?_
  rw [BitVec.getLsbD_shiftLeft, getLsbD_reflect _ (by omega), BitVec.getLsbD_reverse,
    BitVec.getMsbD, BitVec.getLsbD_setWidth, BitVec.getLsbD_setWidth]
  grind

theorem reverse_xor {w : ℕ} (a b : BitVec w) : (a ^^^ b).reverse = a.reverse ^^^ b.reverse := by
  refine BitVec.eq_of_getLsbD_eq fun i hi => ?_
  rw [BitVec.getLsbD_xor, BitVec.getLsbD_reverse, BitVec.getLsbD_reverse, BitVec.getLsbD_reverse,
    BitVec.getMsbD_xor]

/-- A round is a step of the reflected register. -/
theorem crcInitRound_reverse (v : BitVec 32) :
    crcInitRound v.reverse = (bitStep crc32Polynomial.reverse v).reverse := by
  have hbit : v.reverse &&& 1#32 <<< 31 ≠ 0#32 ↔ v.getLsbD 0 = true := by
    rw [and_one_ne_zero_iff (by omega), BitVec.getLsbD_reverse]
    rfl
  rw [crcInitRound, bitStep]
  simp only [hbit]
  have hshift : v.reverse <<< 1 = (v >>> 1).reverse := by
    refine BitVec.eq_of_getLsbD_eq fun j hj => ?_
    rw [BitVec.getLsbD_shiftLeft, BitVec.getLsbD_reverse, BitVec.getLsbD_reverse, BitVec.getMsbD,
      BitVec.getMsbD, BitVec.getLsbD_ushiftRight]
    rcases Nat.eq_zero_or_pos j with rfl | hpos
    · simp
    · have hindex : 32 - 1 - (j - 1) = 1 + (32 - 1 - j) := by omega
      simp [hj, hindex, (by omega : j - 1 < 32)]
      omega
  rw [hshift, reverse_xor]
  split
  · rw [BitVec.reverse_reverse_eq]
  · rw [BitVec.reverse_eq_zero_iff.2 rfl]

theorem iterate_crcInitRound (n : ℕ) (v : BitVec 32) :
    crcInitRound^[n] v.reverse = ((bitStep crc32Polynomial.reverse)^[n] v).reverse := by
  induction n generalizing v with
  | zero => rfl
  | succ n ih => rw [Function.iterate_succ_apply, crcInitRound_reverse, ih,
      Function.iterate_succ_apply]

theorem crcTable_eq (i : BitVec 8) :
    crcTable i = (bitStep crc32Polynomial.reverse)^[8] (i.setWidth 32) := by
  rw [crcTable, reflect_byte, iterate_crcInitRound, reflect_word, BitVec.reverse_reverse_eq]

theorem crcByte32_eq (crc : BitVec 32) (b : BitVec 8) :
    crcByte32 crc b = byteStep crc32Polynomial.reverse crc b := by
  have hlow : (crc &&& 0xFF#32).setWidth 8 = crc.setWidth 8 := by
    have hmask : (0xFF#32).setWidth 8 = BitVec.allOnes 8 := rfl
    rw [BitVec.setWidth_and, hmask, BitVec.and_allOnes]
  rw [crcByte32, hlow, crcTable_eq]
  exact tableStep_eq crc b

-- ════════════════════
-- Instructions
-- ════════════════════

/-- The bytes of a buffer, in order. -/
def bufferCrc (mem : HostMemory) (crc : BitVec 32) (p count : ℕ) : BitVec 32 :=
  (List.range count).foldl (fun c i => byteStep crc32Polynomial.reverse c (mem (p + i))) crc

theorem bufferCrc_add (mem : HostMemory) (crc : BitVec 32) (p m n : ℕ) :
    bufferCrc mem crc p (m + n) = bufferCrc mem (bufferCrc mem crc p m) (p + m) n := by
  rw [bufferCrc, List.range_add, List.foldl_append, List.foldl_map]
  simp only [← Nat.add_assoc]
  rfl

namespace CrcArm

variable (mem : HostMemory)

theorem extract_load (p : ℕ) {k i : ℕ} (hi : i < k) :
    (load mem p k).extractLsb' (8 * i) 8 = mem (p + i) := by
  induction k with
  | zero => exact absurd hi (Nat.not_lt_zero i)
  | succ k ih =>
    refine BitVec.eq_of_getLsbD_eq fun j hj => ?_
    rw [BitVec.getLsbD_extractLsb', decide_eq_true hj, Bool.true_and, load, BitVec.getLsbD_cast,
      BitVec.getLsbD_append]
    rcases Nat.lt_succ_iff_lt_or_eq.1 hi with hlt | rfl
    · have hbit := congrArg (BitVec.getLsbD · j) (ih hlt)
      simp only [BitVec.getLsbD_extractLsb', decide_eq_true hj, Bool.true_and] at hbit
      rw [if_pos (by omega), hbit]
    · rw [if_neg (by omega), Nat.add_sub_cancel_left]

theorem instruction_load (crc : BitVec 32) (p k : ℕ) :
    instruction crc (load mem p k) = bufferCrc mem crc p k := by
  rw [instruction, foldl_bitIn_bytes (by omega), bufferCrc]
  refine List.foldl_ext _ _ _ fun c i hi => ?_
  rw [extract_load mem p (List.mem_range.1 hi)]

theorem instruction_byte (crc : BitVec 32) (p : ℕ) :
    instruction crc (mem p) = bufferCrc mem crc p 1 := by
  have hload : load mem p 1 = mem p := by
    refine BitVec.eq_of_getLsbD_eq fun j hj => ?_
    have hbit := congrArg (BitVec.getLsbD · j) (extract_load mem p Nat.zero_lt_one)
    simpa [hj] using hbit
  rw [← instruction_load, hload]

/-- What is left of a buffer of which `n` bytes have been taken in. -/
def Taken (crc : BitVec 32) (buffer count : ℕ) (s : BitVec 32 × ℕ × ℕ) : Prop :=
  ∃ n, n + s.2.2 = count ∧ s.2.1 = buffer + n ∧ s.1 = bufferCrc mem crc buffer n

theorem Taken.instruction {mem : HostMemory} {crc : BitVec 32} {buffer count k : ℕ}
    {s : BitVec 32 × ℕ × ℕ} (h : Taken mem crc buffer count s) (hk : k ≤ s.2.2) :
    Taken mem crc buffer count (instruction s.1 (load mem s.2.1 k), s.2.1 + k, s.2.2 - k) := by
  obtain ⟨n, hcount, hp, hcrc⟩ := h
  refine ⟨n + k, ?_, ?_, ?_⟩
  · simp only
    omega
  · simp only [hp]
    omega
  · simp only [hcrc, hp]
    rw [instruction_load, bufferCrc_add]

theorem Taken.tail {mem : HostMemory} {crc : BitVec 32} {buffer count : ℕ} (k : ℕ)
    {s : BitVec 32 × ℕ × ℕ} (h : Taken mem crc buffer count s) :
    Taken mem crc buffer count (tail mem k s) := by
  rw [CrcArm.tail]
  split
  · exact h.instruction ‹_›
  · exact h

theorem doublewords_taken (crc : BitVec 32) (buffer count : ℕ) (c : BitVec 32) (p n : ℕ)
    (h : Taken mem crc buffer count (c, p, n)) :
    Taken mem crc buffer count (doublewords mem c p n) ∧ (doublewords mem c p n).2.2 < 8 := by
  induction c, p, n using doublewords.induct mem with
  | case1 c p n hn ih =>
    rw [doublewords, if_pos hn]
    exact ih (h.instruction hn)
  | case2 c p n hn =>
    rw [doublewords, if_neg hn]
    exact ⟨h, Nat.lt_of_not_le hn⟩

theorem tail_rest {k : ℕ} {s : BitVec 32 × ℕ × ℕ} (h : s.2.2 < k + k) :
    (tail mem k s).2.2 < k := by
  rw [tail]
  split
  · simp only
    omega
  · omega

theorem calculate_eq (crc : BitVec 64) (buffer count : ℕ) :
    calculate mem crc buffer count =
      (bufferCrc mem (crc.setWidth 32) buffer count ^^^ crc.setWidth 32).setWidth 64 := by
  have hstart : Taken mem (crc.setWidth 32) buffer count (crc.setWidth 32, buffer, count) :=
    ⟨0, Nat.zero_add count, rfl, rfl⟩
  obtain ⟨hloop, hrest⟩ := doublewords_taken mem _ buffer count _ buffer count hstart
  have hrest' := tail_rest mem (tail_rest mem hrest : _ < 2 + 2)
  obtain ⟨n, hcount, hp, hcrc⟩ := (hloop.tail 4).tail 2
  rw [calculate]
  generalize tail mem 2 (tail mem 4 (doublewords mem (crc.setWidth 32) buffer count)) = s at *
  split
  · rename_i hone
    rw [instruction_byte, hcrc, hp, ← bufferCrc_add, ← hcount, hone]
  · rename_i hnone
    have hzero : n = count := by omega
    rw [hcrc, hzero]

theorem calculatePalette_eq (crc : BitVec 64) (buffer count : ℕ) :
    calculatePalette mem crc buffer count =
      ((List.range count).foldl (fun c i => bufferCrc mem c (buffer + 8 * i) 2) (crc.setWidth 32)
        ^^^ crc.setWidth 32).setWidth 64 := by
  rw [calculatePalette]
  simp only [instruction_load]

end CrcArm

-- ════════════════════
-- Agreement and changes
-- ════════════════════

theorem CrcOpt.calculateStrict_eq (mem : HostMemory) (crc : BitVec 32) (buffer count : ℕ) :
    calculateStrict mem crc buffer count = bufferCrc mem crc buffer count ^^^ crc := by
  rw [calculateStrict]
  simp only [crcByte32_eq]
  rfl

namespace Crc32

variable (mem : HostMemory)

theorem calculate_eq (crc : BitVec 64) (buffer count : ℕ) :
    calculate mem crc buffer count =
      (bufferCrc mem (crc.setWidth 32) buffer count ^^^ crc.setWidth 32).setWidth 64 := by
  rw [calculate]
  simp only [crcByte32_eq]
  rfl

theorem calculatePalette_eq (crc : BitVec 64) (buffer count : ℕ) :
    calculatePalette mem crc buffer count =
      ((List.range count).foldl (fun c i => bufferCrc mem c (buffer + 8 * i) 2) (crc.setWidth 32)
        ^^^ crc.setWidth 32).setWidth 64 := by
  rw [calculatePalette]
  simp only [crcByte32_eq]
  rfl

end Crc32

/-- **Agreement**: the instructions, whatever they are given of a buffer at a time, compute what the
    table does. -/
theorem checksums_agree (mem : HostMemory) (crc : BitVec 64) (seed : BitVec 32)
    (buffer count : ℕ) :
    CrcArm.calculate mem crc buffer count = Crc32.calculate mem crc buffer count ∧
      CrcArm.calculatePalette mem crc buffer count =
        Crc32.calculatePalette mem crc buffer count ∧
      CrcArm.calculateStrict mem seed buffer count =
        CrcOpt.calculateStrict mem seed buffer count ∧
      Crc32.calculateStrict mem seed buffer count =
        CrcOpt.calculateStrict mem seed buffer count := by
  have hseed : (seed.setWidth 64).setWidth 32 = seed := by
    rw [BitVec.setWidth_setWidth_of_le _ (by omega), BitVec.setWidth_eq]
  have hresult : ∀ v : BitVec 32, (v.setWidth 64).setWidth 32 = v := by
    intro v
    rw [BitVec.setWidth_setWidth_of_le _ (by omega), BitVec.setWidth_eq]
  refine ⟨?_, ?_, ?_, ?_⟩
  · rw [CrcArm.calculate_eq, Crc32.calculate_eq]
  · rw [CrcArm.calculatePalette_eq, Crc32.calculatePalette_eq]
  · rw [CrcArm.calculateStrict, CrcArm.calculate_eq, hresult, hseed, CrcOpt.calculateStrict_eq]
  · rw [Crc32.calculateStrict, Crc32.calculate_eq, hresult, hseed, CrcOpt.calculateStrict_eq]

theorem reversePolynomial_msb : crc32Polynomial.reverse.msb = true := by
  rw [BitVec.msb_reverse]
  decide

theorem bufferCrc_eq_iff {mem mem' : HostMemory} {buffer buffer' count start : ℕ}
    (h : ∀ i < count, i < start ∨ start + 4 ≤ i → mem (buffer + i) = mem' (buffer' + i))
    (crc : BitVec 32) :
    bufferCrc mem crc buffer count = bufferCrc mem' crc buffer' count ↔
      ∀ i < count, mem (buffer + i) = mem' (buffer' + i) := by
  have hfold : ∀ (m : HostMemory) (p : ℕ), bufferCrc m crc p count =
      ((List.range count).map fun i => m (p + i)).foldl
        (byteStep crc32Polynomial.reverse) crc := by
    intro m p
    rw [List.foldl_map, bufferCrc]
  have hwindow := fun l l' => @foldl_byteStep_window _ _ reversePolynomial_msb crc l l' start 4
  rw [hfold, hfold, hwindow _ _ (by simp) (by omega)]
  · simp
  · rw [← List.map_take, ← List.map_take, List.take_range]
    refine List.map_congr_left fun i hi => ?_
    rw [List.mem_range] at hi
    exact h i (by omega) (Or.inl (by omega))
  · rw [← List.map_drop, ← List.map_drop]
    refine List.map_congr_left fun i hi => ?_
    obtain ⟨hcount, hbehind⟩ : i < count ∧ start + 4 ≤ i := by
      rw [List.range_eq_range', List.drop_range', List.mem_range'] at hi
      omega
    exact h i hcount (Or.inr hbehind)

/-- The bytes of a palette that count, one after another. -/
def paletteBytes (mem : HostMemory) (buffer : ℕ) : HostMemory :=
  fun j => mem (buffer + 8 * (j / 2) + j % 2)

theorem bufferCrc_two (mem : HostMemory) (crc : BitVec 32) (p : ℕ) :
    bufferCrc mem crc p 2 = byteStep crc32Polynomial.reverse
      (byteStep crc32Polynomial.reverse crc (mem (p + 0))) (mem (p + 1)) := rfl

theorem paletteBytes_foldl (mem : HostMemory) (crc : BitVec 32) (buffer count : ℕ) :
    (List.range count).foldl (fun c i => bufferCrc mem c (buffer + 8 * i) 2) crc =
      bufferCrc (paletteBytes mem buffer) crc 0 (2 * count) := by
  induction count with
  | zero => rfl
  | succ n ih =>
    have hlow : paletteBytes mem buffer (0 + 2 * n + 0) = mem (buffer + 8 * n + 0) := by
      rw [paletteBytes, (by omega : (0 + 2 * n + 0) / 2 = n), (by omega : (0 + 2 * n + 0) % 2 = 0)]
    have hhigh : paletteBytes mem buffer (0 + 2 * n + 1) = mem (buffer + 8 * n + 1) := by
      rw [paletteBytes, (by omega : (0 + 2 * n + 1) / 2 = n), (by omega : (0 + 2 * n + 1) % 2 = 1)]
    rw [List.range_succ, List.foldl_append, ih, Nat.mul_succ, bufferCrc_add, List.foldl_cons,
      List.foldl_nil, bufferCrc_two, bufferCrc_two, hlow, hhigh]

/-- **Changes**: a buffer changed within four bytes in a row has another checksum, and so has a
    palette changed within two colors in a row. -/
theorem checksums_burst (mem mem' : HostMemory) (seed : BitVec 32) (crc : BitVec 64)
    (buffer buffer' count start : ℕ) :
    ((∀ i < count, i < start ∨ start + 4 ≤ i → mem (buffer + i) = mem' (buffer' + i)) →
      (CrcOpt.calculateStrict mem seed buffer count =
          CrcOpt.calculateStrict mem' seed buffer' count ↔
        ∀ i < count, mem (buffer + i) = mem' (buffer' + i))) ∧
    ((∀ i < count, i < start ∨ start + 2 ≤ i →
        ∀ k < 2, mem (buffer + 8 * i + k) = mem' (buffer' + 8 * i + k)) →
      (Crc32.calculatePalette mem crc buffer count =
          Crc32.calculatePalette mem' crc buffer' count ↔
        ∀ i < count, ∀ k < 2, mem (buffer + 8 * i + k) = mem' (buffer' + 8 * i + k))) := by
  have hwide : ∀ a b : BitVec 32, a.setWidth 64 = b.setWidth 64 ↔ a = b := by
    intro a b
    refine ⟨fun h => ?_, fun h => h ▸ rfl⟩
    have hlow := congrArg (BitVec.setWidth 32) h
    rwa [BitVec.setWidth_setWidth_of_le _ (by omega), BitVec.setWidth_eq,
      BitVec.setWidth_setWidth_of_le _ (by omega), BitVec.setWidth_eq] at hlow
  refine ⟨fun h => ?_, fun h => ?_⟩
  · rw [CrcOpt.calculateStrict_eq, CrcOpt.calculateStrict_eq, BitVec.xor_left_inj,
      bufferCrc_eq_iff h]
  · have hbytes : ∀ j < 2 * count, j < 2 * start ∨ 2 * start + 4 ≤ j →
        paletteBytes mem buffer (0 + j) = paletteBytes mem' buffer' (0 + j) := by
      intro j hj hout
      rw [Nat.zero_add]
      exact h (j / 2) (by omega) (by omega) (j % 2) (Nat.mod_lt j Nat.two_pos)
    rw [Crc32.calculatePalette_eq, Crc32.calculatePalette_eq, hwide, BitVec.xor_left_inj,
      paletteBytes_foldl, paletteBytes_foldl, bufferCrc_eq_iff hbytes]
    constructor
    · intro heq i hi k hk
      have hbyte := heq (2 * i + k) (by omega)
      rwa [Nat.zero_add, paletteBytes, paletteBytes, (by omega : (2 * i + k) / 2 = i),
        (by omega : (2 * i + k) % 2 = k)] at hbyte
    · intro heq j hj
      rw [Nat.zero_add]
      exact heq (j / 2) (by omega) (j % 2) (Nat.mod_lt j Nat.two_pos)

end Mupen64plus
