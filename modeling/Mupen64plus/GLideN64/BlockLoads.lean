import Mupen64plus.GLideN64.TmemExact

/-!
# Loads of blocks into the texture memory

`gDP.cpp`: `gDPLoadBlock` copies one run of bytes from RDRAM to TMEM, for a tile of 4, 8 or 16 bits
that is not YUV, and exchanges the two halves of the words in every second line. A counter that
grows by `dxt` with each word tells the lines apart. `imageAddress` is the address of the texture
image behind the correction for `DMAOffsets`.

## Main definitions

- `BlockLoad`, `BlockLoad.load` — the registers, and `gDPLoadBlock`
- `Tmem.word64`, `imageWord` — words of TMEM and of the image
- `SameRows` — a tile whose rows are those of the block

## Main results

- `swapLines_swaps` — the loop exchanges the words whose counter has bit 11
- `dxtBit_iff` — the counter tells the lines apart while the errors of all lines are below `dxt`
- `blockLoad_words` — the words of TMEM behind the load, and when they are those of `gDPLoadTile`
-/

namespace Mupen64plus

open TileLoad (imageByte oneByte imageByte_oneByte)

-- ════════════════════
-- The load
-- ════════════════════

/-- What `gDPLoadBlock` reads of the texture image, of the tile and of the command. -/
structure BlockLoad where
  imageAddress : ℕ
  imageBpl : ℕ
  imageSize : TexelSize
  size : TexelSize
  size_ne : size ≠ .bits32
  tmem : BitVec 9
  uls : BitVec 12
  ult : BitVec 12
  lrs : BitVec 12
  dxt : BitVec 12

/-- The two inner loops of `gDPLoadBlock`, of which `odd` is the second, with `qwords` words left.
Both leave at the last word. -/
def swapLines (dxt : ℕ) : ℕ → Bool → ℕ → ℕ → ℕ → Tmem → Tmem
  | 0, _, _, _, _, tmem => tmem
  | qwords + 1, false, tmemAddr, line, dxtCounter, tmem =>
    if qwords = 0 then tmem.dwordInterleaveWrap ((tmemAddr + 1) <<< 1) line
    else
      swapLines dxt qwords ((dxtCounter + dxt).testBit 11) (tmemAddr + 1) line (dxtCounter + dxt)
        tmem
  | qwords + 1, true, tmemAddr, line, dxtCounter, tmem =>
    if qwords = 0 then tmem.dwordInterleaveWrap (tmemAddr <<< 1) (line + 1)
    else if (dxtCounter + dxt).testBit 11 then
      swapLines dxt qwords true tmemAddr (line + 1) (dxtCounter + dxt) tmem
    else
      swapLines dxt qwords false (tmemAddr + (line + 1)) 0 (dxtCounter + dxt)
        (tmem.dwordInterleaveWrap (tmemAddr <<< 1) (line + 1))

namespace BlockLoad

variable (b : BlockLoad)

/-- `width`. -/
def width : ℕ := (b.lrs - b.uls + 1).toNat

/-- `bytes`, rounded up to whole words. -/
def bytes : ℕ :=
  let bytes := b.width <<< b.size.code >>> 1
  if bytes % 8 ≠ 0 then bytes - bytes % 8 + 8 else bytes

/-- `address`. -/
def address : ℕ :=
  b.imageAddress + b.ult.toNat * b.imageBpl + b.uls.toNat <<< b.imageSize.code >>> 1

/-- `gDPLoadBlock`. -/
def load (rdram : ℕ → BitVec 8) (size : RdramSize) (tmem : Tmem) : Tmem :=
  if b.bytes = 0 ∨ size.last.toNat < b.address + b.bytes then tmem
  else
    let tmem := tmem.unswapCopyWrap rdram b.address (b.tmem.toNat <<< 3) b.bytes
    if b.dxt ≠ 0 then
      swapLines b.dxt.toNat (b.bytes >>> 3) false b.tmem.toNat 0 0 tmem
    else tmem

end BlockLoad

/-- `CalculateDXT`. -/
def calculateDxt (txl2words : ℕ) : ℕ :=
  if txl2words = 0 then 1 else (2048 + txl2words - 1) / txl2words

-- ════════════════════
-- Words
-- ════════════════════

def fourBytes (f : ℕ → BitVec 8) : BitVec 32 := f 0 ++ f 1 ++ f 2 ++ f 3

/-- Eight bytes as a word of the console. -/
def eightBytes (f : ℕ → BitVec 8) : BitVec 64 := fourBytes f ++ fourBytes fun j => f (j + 4)

def swapHalves (v : BitVec 64) : BitVec 64 := v.extractLsb' 0 32 ++ v.extractLsb' 32 32

theorem eightBytes_congr {f g : ℕ → BitVec 8} (h : ∀ j < 8, f j = g j) :
    eightBytes f = eightBytes g := by
  unfold eightBytes fourBytes
  dsimp only
  rw [h 0 (by decide), h 1 (by decide), h 2 (by decide), h 3 (by decide), h (0 + 4) (by decide),
    h (1 + 4) (by decide), h (2 + 4) (by decide), h (3 + 4) (by decide)]

theorem eightBytes_xor_four (f : ℕ → BitVec 8) :
    eightBytes (fun j => f (j ^^^ 4)) = swapHalves (eightBytes f) := by
  unfold eightBytes swapHalves
  rw [BitVec.extractLsb'_append_eq_right, BitVec.extractLsb'_append_eq_left]
  rfl

/-- Word `i` of TMEM. -/
def Tmem.word64 (tmem : Tmem) (i : BitVec 9) : BitVec 64 :=
  eightBytes fun j => tmem (BitVec.ofNat 12 (8 * i.toNat + j))

/-- Word `k` behind `address`. -/
def imageWord (rdram : ℕ → BitVec 8) (address k : ℕ) : BitVec 64 :=
  eightBytes fun j => imageByte rdram (address + (8 * k + j))

theorem word64_add (tmem : Tmem) (i : BitVec 9) (k : ℕ) :
    tmem.word64 (i + BitVec.ofNat 9 k) =
      eightBytes fun j => tmem (BitVec.ofNat 12 (8 * i.toNat + (8 * k + j))) := by
  apply eightBytes_congr
  intro j hj
  congr 1
  apply BitVec.eq_of_toNat_eq
  rw [BitVec.toNat_ofNat, BitVec.toNat_ofNat, BitVec.toNat_add, BitVec.toNat_ofNat]
  omega

-- ════════════════════
-- Exchanged words
-- ════════════════════

/-- Of the words from `lo` to `hi` behind `base`, the halves of those with `p` are exchanged. -/
def SwapsWords (p : ℕ → Bool) (base lo hi : ℕ) (tmem tmem' : Tmem) : Prop :=
  ∀ j < 4096, tmem' (BitVec.ofNat 12 (8 * base + j)) =
    if lo ≤ j / 8 ∧ j / 8 < hi ∧ p (j / 8) = true then tmem (BitVec.ofNat 12 (8 * base + (j ^^^ 4)))
    else tmem (BitVec.ofNat 12 (8 * base + j))

namespace SwapsWords

variable {p : ℕ → Bool} {base lo mid hi : ℕ} {tmem tmem' tmem'' : Tmem}

theorem none (h : ∀ k, lo ≤ k → k < hi → p k = false) : SwapsWords p base lo hi tmem tmem :=
  fun j _ => (if_neg fun hj => by
    rw [h _ hj.1 hj.2.1] at hj
    exact Bool.false_ne_true hj.2.2).symm

theorem all (hhi : hi ≤ 512) (hle : lo ≤ hi) (h : ∀ k, lo ≤ k → k < hi → p k = true) :
    SwapsWords p base lo hi tmem (tmem.dwordInterleaveWrap ((base + lo) <<< 1) (hi - lo)) := by
  intro j hj
  rw [Nat.shiftLeft_eq, Nat.mul_comm, Nat.pow_one, Tmem.dwordInterleaveWrap_behind hj (by omega)]
  by_cases hin : lo ≤ j / 8 ∧ j / 8 < hi
  · rw [if_pos (by omega), if_pos ⟨hin.1, hin.2, h _ hin.1 hin.2⟩]
  · rw [if_neg (by omega), if_neg fun hj => hin ⟨hj.1, hj.2.1⟩]

theorem trans (h : SwapsWords p base lo mid tmem tmem') (h' : SwapsWords p base mid hi tmem' tmem'')
    (hlo : lo ≤ mid) (hhi : mid ≤ hi) : SwapsWords p base lo hi tmem tmem'' := by
  intro j hj
  have hxor := LowXor.xor_four j
  rw [h' j hj]
  by_cases hlate : mid ≤ j / 8
  · have hbefore : ∀ i < 4096, i / 8 = j / 8 → tmem' (BitVec.ofNat 12 (8 * base + i)) =
        tmem (BitVec.ofNat 12 (8 * base + i)) := fun i hi heq =>
      (h i hi).trans (if_neg (by omega))
    rw [hbefore j hj rfl, hbefore (j ^^^ 4) (by omega) (by omega)]
    by_cases hin : j / 8 < hi ∧ p (j / 8) = true
    · rw [if_pos ⟨hlate, hin⟩, if_pos ⟨by omega, hin⟩]
    · rw [if_neg fun hj => hin hj.2, if_neg fun hj => hin hj.2]
  · rw [if_neg fun hj => hlate hj.1, h j hj]
    by_cases hin : lo ≤ j / 8 ∧ p (j / 8) = true
    · rw [if_pos ⟨hin.1, by omega, hin.2⟩, if_pos ⟨hin.1, by omega, hin.2⟩]
    · rw [if_neg fun hj => hin ⟨hj.1, hj.2.2⟩, if_neg fun hj => hin ⟨hj.1, hj.2.2⟩]

end SwapsWords

/-- Bit 11 of the counter at a word. -/
def dxtBit (dxt k : ℕ) : Bool := (k * dxt).testBit 11

/-- **The two loops** exchange the words whose counter has bit 11: in the first one word `k` has it
clear, in the second one it is set for the words from `m` on. -/
theorem swapLines_swaps {dxt base n : ℕ} (hn : n ≤ 512) (q : ℕ) :
    (∀ k tmem, k + (q + 1) = n → dxtBit dxt k = false →
      SwapsWords (dxtBit dxt) base k n tmem
        (swapLines dxt (q + 1) false (base + k) 0 (k * dxt) tmem)) ∧
    ∀ k m tmem, k + (q + 1) = n → m ≤ k → (∀ i, m ≤ i → i ≤ k → dxtBit dxt i = true) →
      SwapsWords (dxtBit dxt) base m n tmem
        (swapLines dxt (q + 1) true (base + m) (k - m) (k * dxt) tmem) := by
  induction q with
  | zero =>
    refine ⟨fun k tmem hk hclear => ?_, fun k m tmem hk hm hset => ?_⟩
    · rw [swapLines, if_pos rfl, Tmem.dwordInterleaveWrap]
      refine .none fun i hi hi' => ?_
      rwa [show i = k by omega]
    · rw [swapLines, if_pos rfl, show k - m + 1 = n - m by omega]
      exact .all hn (by omega) fun i hi hi' => hset i hi (by omega)
  | succ q ih =>
    obtain ⟨ihfirst, ihsecond⟩ := ih
    have hcounter : ∀ k, k * dxt + dxt = (k + 1) * dxt := fun k => (Nat.succ_mul k dxt).symm
    refine ⟨fun k tmem hk hclear => ?_, fun k m tmem hk hm hset => ?_⟩
    · rw [swapLines, if_neg q.succ_ne_zero, hcounter]
      have hword : SwapsWords (dxtBit dxt) base k (k + 1) tmem tmem :=
        .none fun i hi hi' => by rwa [show i = k by omega]
      refine hword.trans ?_ k.le_succ (by omega)
      cases hbit : ((k + 1) * dxt).testBit 11 with
      | false => exact ihfirst (k + 1) tmem (by omega) hbit
      | true =>
        have hsecond := ihsecond (k + 1) (k + 1) tmem (by omega) le_rfl fun i hi hi' => by
          rwa [show i = k + 1 by omega]
        rwa [Nat.sub_self] at hsecond
    · rw [swapLines, if_neg q.succ_ne_zero, hcounter]
      cases hbit : ((k + 1) * dxt).testBit 11 with
      | true =>
        rw [if_pos rfl, show k - m + 1 = k + 1 - m by omega]
        refine ihsecond (k + 1) m tmem (by omega) (by omega) fun i hi hi' => ?_
        rcases Nat.lt_or_ge k i with hlt | hge
        · rwa [show i = k + 1 by omega]
        · exact hset i hi hge
      | false =>
        rw [if_neg Bool.false_ne_true, show k - m + 1 = k + 1 - m by omega,
          show base + m + (k + 1 - m) = base + (k + 1) by omega]
        exact (SwapsWords.all (by omega) (by omega) fun i hi hi' => hset i hi (by omega)).trans
          (ihfirst (k + 1) _ (by omega) hbit) (by omega) (by omega)

-- ════════════════════
-- The block
-- ════════════════════

namespace BlockLoad

variable {b : BlockLoad} {rdram : ℕ → BitVec 8} {size : RdramSize} {tmem : Tmem}

/-- Byte `j` behind the base, where the halves of the words with `p` are exchanged. -/
def loadedByte (rdram : ℕ → BitVec 8) (address bytes base : ℕ) (p : ℕ → Bool) (tmem : Tmem)
    (j : ℕ) : BitVec 8 :=
  if j < bytes then imageByte rdram (address + if p (j / 8) then j ^^^ 4 else j)
  else tmem (BitVec.ofNat 12 (8 * base + j))

theorem bytes_mod : b.bytes % 8 = 0 := by
  unfold bytes
  dsimp only
  split <;> omega

theorem load_apply (hpos : 0 < b.bytes) (hfit : b.address + b.bytes ≤ size.last.toNat)
    (hbytes : b.bytes ≤ 4096) {j : ℕ} (hj : j < 4096) :
    b.load rdram size tmem (BitVec.ofNat 12 (8 * b.tmem.toNat + j)) =
      loadedByte rdram b.address b.bytes b.tmem.toNat (dxtBit b.dxt.toNat) tmem j := by
  have hmod := b.bytes_mod
  have hxor := LowXor.xor_four j
  have hcopy : ∀ i < 4096, tmem.unswapCopyWrap rdram b.address (b.tmem.toNat <<< 3) b.bytes
      (BitVec.ofNat 12 (8 * b.tmem.toNat + i)) =
        if i < b.bytes then imageByte rdram (b.address + i)
        else tmem (BitVec.ofNat 12 (8 * b.tmem.toNat + i)) := fun i hi => by
    rw [Nat.shiftLeft_eq, Nat.mul_comm]
    exact Tmem.unswapCopyWrap_apply hi hbytes
  have hswaps : SwapsWords (dxtBit b.dxt.toNat) b.tmem.toNat 0 (b.bytes / 8)
      (tmem.unswapCopyWrap rdram b.address (b.tmem.toNat <<< 3) b.bytes)
      (b.load rdram size tmem) := by
    unfold load
    rw [if_neg (by omega)]
    by_cases hdxt : b.dxt = 0
    · simp only [hdxt, ne_eq, not_true_eq_false, if_false]
      refine .none fun k _ _ => ?_
      rw [dxtBit, show (0 : BitVec 12).toNat = 0 from rfl, Nat.mul_zero, Nat.zero_testBit]
    · simp only [hdxt, ne_eq, not_false_eq_true, if_true]
      obtain ⟨q, hq⟩ : ∃ q, b.bytes / 8 = q + 1 := ⟨b.bytes / 8 - 1, by omega⟩
      have hall : b.bytes / 8 ≤ 512 := by omega
      have hfirst : SwapsWords (dxtBit b.dxt.toNat) b.tmem.toNat 0 (b.bytes / 8)
          (tmem.unswapCopyWrap rdram b.address (b.tmem.toNat <<< 3) b.bytes)
          (swapLines b.dxt.toNat (q + 1) false (b.tmem.toNat + 0) 0 (0 * b.dxt.toNat)
            (tmem.unswapCopyWrap rdram b.address (b.tmem.toNat <<< 3) b.bytes)) :=
        (swapLines_swaps hall q).1 0 _ (by omega) (by rw [dxtBit, Nat.zero_mul, Nat.zero_testBit])
      rw [Nat.zero_mul, Nat.add_zero, ← hq] at hfirst
      rwa [Nat.shiftRight_eq_div_pow]
  rw [hswaps j hj]
  unfold loadedByte
  by_cases hin : j < b.bytes
  · rw [if_pos hin]
    by_cases hbit : dxtBit b.dxt.toNat (j / 8) = true
    · rw [if_pos ⟨Nat.zero_le _, by omega, hbit⟩, if_pos hbit, hcopy _ (by omega),
        if_pos (by omega)]
    · rw [if_neg fun h => hbit h.2.2, if_neg hbit, hcopy j hj, if_pos hin]
  · rw [if_neg (by omega), if_neg hin, hcopy j hj, if_neg hin]

/-- Word `k` behind the base. -/
theorem load_word (hpos : 0 < b.bytes) (hfit : b.address + b.bytes ≤ size.last.toNat)
    (hbytes : b.bytes ≤ 4096) {k : ℕ} (hk : k < 512) :
    (b.load rdram size tmem).word64 (b.tmem + BitVec.ofNat 9 k) =
      if k < b.bytes / 8 then
        if dxtBit b.dxt.toNat k then swapHalves (imageWord rdram b.address k)
        else imageWord rdram b.address k
      else tmem.word64 (b.tmem + BitVec.ofNat 9 k) := by
  have hmod := b.bytes_mod
  rw [word64_add, word64_add]
  have hword : ∀ j < 8, (8 * k + j) / 8 = k := fun j hj => by omega
  have hbyte : ∀ j < 8, b.load rdram size tmem
      (BitVec.ofNat 12 (8 * b.tmem.toNat + (8 * k + j))) =
        loadedByte rdram b.address b.bytes b.tmem.toNat (dxtBit b.dxt.toNat) tmem (8 * k + j) :=
    fun j hj => load_apply hpos hfit hbytes (by omega)
  rw [eightBytes_congr hbyte]
  unfold loadedByte
  by_cases hin : k < b.bytes / 8
  · rw [if_pos hin]
    by_cases hbit : dxtBit b.dxt.toNat k = true
    · rw [if_pos hbit, imageWord, ← eightBytes_xor_four]
      refine eightBytes_congr fun j hj => ?_
      have hxor := LowXor.xor_four (8 * k + j)
      have hxor' := LowXor.xor_four j
      rw [hword j hj, if_pos (by omega), if_pos hbit]
      exact congrArg (imageByte rdram) (by omega)
    · rw [if_neg hbit, imageWord]
      refine eightBytes_congr fun j hj => ?_
      rw [hword j hj, if_pos (by omega), if_neg hbit]
  · rw [if_neg hin]
    refine eightBytes_congr fun j hj => ?_
    rw [if_neg (by omega)]

end BlockLoad

-- ════════════════════
-- The rows of a tile
-- ════════════════════

/-- A tile of rows of `w` words that lie one behind the other in the image and in TMEM, and are the
words of the block. -/
structure SameRows (b : BlockLoad) (t : TileLoad) (w rows : ℕ) : Prop where
  size_ne : t.size ≠ .bits32
  columns : t.uls ≤ t.lrs
  lines : t.ult ≤ t.lrt
  height : t.height = rows
  bpr : t.bpr = 8 * w
  pitch : t.imageBpl = 8 * w
  line : t.line.toNat = w
  address : t.address = b.address
  tmem : t.tmem = b.tmem
  bytes : b.bytes = 8 * (w * rows)

section

variable {b : BlockLoad} {t : TileLoad} {rdram : ℕ → BitVec 8} {size : RdramSize} {tmem : Tmem}
  {w rows : ℕ}

theorem SameRows.words_pos (h : SameRows b t w rows) (hpos : 0 < b.bytes) : 0 < w := by
  rcases Nat.eq_zero_or_pos w with hzero | hw
  · rw [h.bytes, hzero, Nat.zero_mul] at hpos
    exact absurd hpos (lt_irrefl 0)
  · exact hw

/-- A row of the tile, all of which lies in RDRAM. -/
theorem loadRow_behind (hbpr : t.bpr = 8 * w) (hline : t.line.toNat = w) {last y base address : ℕ}
    (hlast : address + 8 * (w * y) + 8 * w ≤ last) (hfit : 8 * (w * y) + 8 * w ≤ 4096) {j : ℕ}
    (hj : j < 4096) :
    t.loadRow rdram last y (address + 8 * (w * y)) (base + w * y) tmem
        (BitVec.ofNat 12 (8 * base + j)) =
      if 8 * (w * y) ≤ j ∧ j < 8 * (w * y) + 8 * w then
        imageByte rdram (address + if y % 2 = 1 then j ^^^ 4 else j)
      else tmem (BitVec.ofNat 12 (8 * base + j)) := by
  have hbpl : t.bpl = 8 * w := by
    rw [TileLoad.bpl, hline, Nat.shiftLeft_eq, Nat.mul_comm]
  have hbytes : t.numBytes last (address + 8 * (w * y)) = 8 * w := by
    rw [TileLoad.numBytes, if_neg (by omega), hbpr]
  have hcopy : ∀ i < 4096, tmem.unswapCopyWrap rdram (address + 8 * (w * y))
      ((base + w * y) <<< 3) (8 * w) (BitVec.ofNat 12 (8 * base + i)) =
        if 8 * (w * y) ≤ i ∧ i < 8 * (w * y) + 8 * w then imageByte rdram (address + i)
        else tmem (BitVec.ofNat 12 (8 * base + i)) := fun i hi => by
    rw [Nat.shiftLeft_eq, show (base + w * y) * 2 ^ 3 = 8 * base + 8 * (w * y) by omega,
      Tmem.unswapCopyWrap_behind hi hfit]
    by_cases hin : 8 * (w * y) ≤ i ∧ i < 8 * (w * y) + 8 * w
    · rw [if_pos hin, if_pos hin, imageByte,
        show address + 8 * (w * y) + (i - 8 * (w * y)) = address + i by omega]
    · rw [if_neg hin, if_neg hin]
  have hxor := LowXor.xor_four j
  rw [TileLoad.loadRow, hbytes]
  by_cases hodd : y % 2 = 1
  · simp only [if_pos hodd]
    rw [hbpr, Nat.shiftLeft_eq, Nat.pow_one, Nat.mul_comm (base + w * y) 2,
      Nat.shiftRight_eq_div_pow, show 8 * w / 2 ^ 3 = w by omega,
      Tmem.dwordInterleaveWrap_behind hj (by omega), hcopy j hj, hcopy _ (by omega)]
    by_cases hin : 8 * (w * y) ≤ j ∧ j < 8 * (w * y) + 8 * w
    · rw [if_pos (by omega), if_pos (by omega), if_pos hin]
    · rw [if_neg (by omega), if_neg hin, if_neg hin]
  · simp only [if_neg hodd]
    exact hcopy j hj

theorem loadRows_behind (hbpr : t.bpr = 8 * w) (hpitch : t.imageBpl = 8 * w)
    (hline : t.line.toNat = w) (hw : 0 < w) {last base address : ℕ}
    (hlast : address + 8 * (w * rows) ≤ last) (hfit : 8 * (w * rows) ≤ 4096) {n y : ℕ}
    (hy : y + n = rows) {j : ℕ} (hj : j < 4096) :
    t.loadRows rdram last y (address + 8 * (w * y)) (base + w * y) n tmem
        (BitVec.ofNat 12 (8 * base + j)) =
      if 8 * (w * y) ≤ j ∧ j < 8 * (w * rows) then
        imageByte rdram (address + if j / 8 / w % 2 = 1 then j ^^^ 4 else j)
      else tmem (BitVec.ofNat 12 (8 * base + j)) := by
  induction n generalizing y tmem with
  | zero =>
    obtain rfl : y = rows := hy
    rw [TileLoad.loadRows, if_neg (by omega)]
  | succ n ih =>
    have hrow : w * (y + 1) ≤ w * rows := Nat.mul_le_mul_left w (by omega)
    rw [Nat.mul_succ] at hrow
    rw [TileLoad.loadRows, if_pos (by omega), hpitch, hline,
      show address + 8 * (w * y) + 8 * w = address + 8 * (w * (y + 1)) by
        rw [Nat.mul_succ]; omega,
      show base + w * y + w = base + w * (y + 1) by rw [Nat.mul_succ, Nat.add_assoc],
      ih (by omega), loadRow_behind hbpr hline (by omega) (by omega) hj, Nat.mul_succ]
    by_cases hlater : 8 * (w * y + w) ≤ j ∧ j < 8 * (w * rows)
    · rw [if_pos hlater, if_pos (show 8 * (w * y) ≤ j ∧ j < 8 * (w * rows) by omega)]
    · rw [if_neg hlater]
      by_cases hin : 8 * (w * y) ≤ j ∧ j < 8 * (w * y) + 8 * w
      · have hdiv : j / 8 / w = y := by
          rw [Nat.div_eq_of_lt_le]
          · rw [Nat.mul_comm]; omega
          · rw [Nat.succ_mul, Nat.mul_comm]; omega
        rw [if_pos hin, if_pos (show 8 * (w * y) ≤ j ∧ j < 8 * (w * rows) by omega), hdiv]
      · rw [if_neg hin, if_neg (by omega)]

theorem BlockLoad.tile_apply (h : SameRows b t w rows) (hpos : 0 < b.bytes)
    (hfit : b.address + b.bytes ≤ size.last.toNat) (hbytes : b.bytes ≤ 4096) {j : ℕ}
    (hj : j < 4096) :
    t.load rdram size false tmem (BitVec.ofNat 12 (8 * b.tmem.toNat + j)) =
      loadedByte rdram b.address b.bytes b.tmem.toNat (fun k => k / w % 2 = 1) tmem j := by
  have hw : 0 < w := h.words_pos hpos
  have hline : t.line ≠ 0 := fun hzero => by
    have hnat := h.line
    rw [hzero] at hnat
    exact hw.ne hnat
  have hlast : b.address + 8 * (w * rows) ≤ size.last.toNat := by
    rw [← h.bytes]
    exact hfit
  have hall : 8 * (w * rows) ≤ 4096 := by
    rw [← h.bytes]
    exact hbytes
  have hrows : t.loadRows rdram size.last.toNat 0 (b.address + 8 * (w * 0))
      (b.tmem.toNat + w * 0) rows tmem (BitVec.ofNat 12 (8 * b.tmem.toNat + j)) = _ :=
    loadRows_behind h.bpr h.pitch h.line hw hlast hall (Nat.zero_add rows) hj
  rw [Nat.mul_zero, Nat.mul_zero, Nat.add_zero, Nat.add_zero] at hrows
  rw [TileLoad.load, if_neg (not_or.2 ⟨BitVec.not_lt.2 h.columns, BitVec.not_lt.2 h.lines⟩),
    if_neg hline, if_neg Bool.false_ne_true, h.address, if_neg (by omega), if_neg h.size_ne,
    h.height, h.tmem, hrows, loadedByte, h.bytes]
  by_cases hin : j < 8 * (w * rows)
  · rw [if_pos ⟨Nat.zero_le j, hin⟩, if_pos hin]
    simp only [decide_eq_true_eq]
  · rw [if_neg fun hj => hin hj.2, if_neg hin]

end

-- ════════════════════
-- The counter and the lines
-- ════════════════════

section

variable {w rows : ℕ}

theorem calculateDxt_bounds (hw : 0 < w) :
    2048 ≤ w * calculateDxt w ∧ w * calculateDxt w < 2048 + w := by
  have hdiv := Nat.div_add_mod (2048 + w - 1) w
  have hmod := Nat.mod_lt (2048 + w - 1) hw
  rw [calculateDxt, if_neg hw.ne']
  omega

/-- The counter at word `i` of line `r`. -/
theorem counter_eq (hw : 0 < w) (r i : ℕ) :
    (w * r + i) * calculateDxt w =
      2048 * r + (r * (w * calculateDxt w - 2048) + i * calculateDxt w) := by
  obtain ⟨e, he⟩ : ∃ e, w * calculateDxt w = 2048 + e :=
    ⟨w * calculateDxt w - 2048, by have := (calculateDxt_bounds hw).1; omega⟩
  rw [he, Nat.add_sub_cancel_left, Nat.add_mul, Nat.mul_right_comm, he]
  ring

theorem dxtBit_of_lt {dxt k r x : ℕ} (h : k * dxt = 2048 * r + x) (hx : x < 2048) :
    dxtBit dxt k = decide (r % 2 = 1) := by
  rw [dxtBit, Nat.testBit_eq_decide_div_mod_eq, h, show (2048 * r + x) / 2 ^ 11 = r by omega]

/-- The bit of the counter tells odd lines from even ones exactly while the errors of all lines add
    up to less than `dxt`. -/
theorem dxtBit_iff (hw : 0 < w) (hwide : w ≤ 2048) :
    (∀ k < w * rows, dxtBit (calculateDxt w) k = decide (k / w % 2 = 1)) ↔
      rows * (w * calculateDxt w - 2048) < calculateDxt w := by
  obtain ⟨hle, hlt⟩ := calculateDxt_bounds hw
  have hlast : (w - 1) * calculateDxt w + calculateDxt w = w * calculateDxt w := by
    rw [← Nat.succ_mul, Nat.succ_eq_add_one, Nat.sub_add_cancel hw]
  constructor
  · intro h
    by_contra hmany
    -- the first line at whose end the errors reach `dxt`
    obtain ⟨n, hn, hfirst⟩ : ∃ n < rows, n * (w * calculateDxt w - 2048) < calculateDxt w ∧
        calculateDxt w ≤ (n + 1) * (w * calculateDxt w - 2048) := by
      induction rows with
      | zero =>
        have hpos : 0 < calculateDxt w := Nat.pos_of_ne_zero fun hzero => by
          rw [hzero, Nat.mul_zero] at hle
          omega
        rw [Nat.zero_mul] at hmany
        exact absurd hpos hmany
      | succ m ih =>
        by_cases hm : m * (w * calculateDxt w - 2048) < calculateDxt w
        · exact ⟨m, m.lt_succ_self, hm, Nat.le_of_not_lt hmany⟩
        · obtain ⟨n, hn, hfirst⟩ := ih (fun k hk => h k (hk.trans_le
            (Nat.mul_le_mul_left w m.le_succ))) hm
          exact ⟨n, hn.trans m.lt_succ_self, hfirst⟩
    have hword : w * n + (w - 1) < w * rows := by
      have hrow := Nat.mul_le_mul_left w hn
      rw [Nat.succ_eq_add_one, Nat.mul_add, Nat.mul_one] at hrow
      omega
    have hline : (w * n + (w - 1)) / w = n := by
      rw [Nat.mul_add_div hw, Nat.div_eq_of_lt (by omega), Nat.add_zero]
    have hsucc : (n + 1) * (w * calculateDxt w - 2048) =
        n * (w * calculateDxt w - 2048) + (w * calculateDxt w - 2048) := Nat.succ_mul ..
    have hbit := h _ hword
    rw [hline, dxtBit_of_lt (r := n + 1)
      (x := (n + 1) * (w * calculateDxt w - 2048) - calculateDxt w)
      (by rw [counter_eq hw]; omega) (by omega)] at hbit
    have hparity := decide_eq_decide.1 hbit
    omega
  · intro hfew k hk
    have hline : k / w < rows := Nat.div_lt_of_lt_mul hk
    have hin := Nat.mod_lt k hw
    have hcounter := counter_eq hw (k / w) (k % w)
    rw [Nat.div_add_mod] at hcounter
    refine dxtBit_of_lt hcounter ?_
    have herrors := Nat.mul_le_mul_right (w * calculateDxt w - 2048) hline
    have hwords := Nat.mul_le_mul_right (calculateDxt w) hin
    rw [Nat.succ_eq_add_one, Nat.succ_mul] at herrors hwords
    omega

end

-- ════════════════════
-- Blocks and tiles
-- ════════════════════

section

variable {b : BlockLoad} {t : TileLoad} {size : RdramSize} {w rows : ℕ}

/-- A place of TMEM lies behind the base. -/
theorem place_behind (base : ℕ) (a : BitVec 12) :
    ∃ j < 4096, a = BitVec.ofNat 12 (8 * base + j) := by
  refine ⟨(a - BitVec.ofNat 12 (8 * base)).toNat, (a - BitVec.ofNat 12 (8 * base)).isLt, ?_⟩
  rw [BitVec.ofNat_add, BitVec.ofNat_toNat, BitVec.setWidth_eq, BitVec.add_comm,
    BitVec.sub_add_cancel]

theorem loads_same_iff (h : SameRows b t w rows) (hpos : 0 < b.bytes)
    (hfit : b.address + b.bytes ≤ size.last.toNat) (hbytes : b.bytes ≤ 4096)
    (hdxt : b.dxt.toNat = calculateDxt w) :
    (∀ rdram tmem, b.load rdram size tmem = t.load rdram size false tmem) ↔
      rows * (w * calculateDxt w - 2048) < calculateDxt w := by
  have hw : 0 < w := h.words_pos hpos
  have hwide : w ≤ 2048 := by
    rw [h.bytes] at hbytes hpos
    have hrows : 0 < rows := Nat.pos_of_ne_zero fun hzero => by
      rw [hzero, Nat.mul_zero, Nat.mul_zero] at hpos
      exact absurd hpos (lt_irrefl 0)
    have hline := Nat.le_mul_of_pos_right w hrows
    omega
  rw [← dxtBit_iff hw hwide]
  constructor
  · intro hsame k hk
    have hlt : 8 * k < b.bytes := by
      rw [h.bytes]
      omega
    have hbyte := congrFun (hsame (oneByte (b.address + 8 * k) 1) fun _ => 0)
      (BitVec.ofNat 12 (8 * b.tmem.toNat + 8 * k))
    have hxor := LowXor.xor_four (8 * k)
    rw [BlockLoad.load_apply hpos hfit hbytes (by omega),
      BlockLoad.tile_apply h hpos hfit hbytes (by omega)] at hbyte
    unfold BlockLoad.loadedByte at hbyte
    rw [if_pos hlt, if_pos hlt, imageByte_oneByte, imageByte_oneByte,
      show 8 * k / 8 = k by omega, hdxt] at hbyte
    have hother : 8 * k ^^^ 4 ≠ 8 * k := by omega
    by_contra hne
    cases hb : dxtBit (calculateDxt w) k <;> cases hp : decide (k / w % 2 = 1) <;>
      rw [hb, hp] at hne <;> simp [hb, hp, hother] at hbyte hne
  · intro hbits rdram tmem
    funext a
    obtain ⟨j, hj, rfl⟩ := place_behind b.tmem.toNat a
    rw [BlockLoad.load_apply hpos hfit hbytes hj, BlockLoad.tile_apply h hpos hfit hbytes hj]
    unfold BlockLoad.loadedByte
    by_cases hin : j < b.bytes
    · have hword : j / 8 < w * rows := by
        have hb := h.bytes
        omega
      rw [if_pos hin, if_pos hin, hdxt, hbits _ hword]
    · rw [if_neg hin, if_neg hin]

/-- **`gDPLoadBlock`**: the words of the image lie one behind the other in TMEM, those exchanged
    whose counter has bit 11, and the load agrees with that of the same rows as a tile exactly while
    the errors of the counter add up to less than `dxt`. -/
theorem blockLoad_words (b : BlockLoad) (size : RdramSize) (hpos : 0 < b.bytes)
    (hfit : b.address + b.bytes ≤ size.last.toNat) (hbytes : b.bytes ≤ 4096) :
    (∀ rdram tmem, ∀ k < 512,
      (b.load rdram size tmem).word64 (b.tmem + BitVec.ofNat 9 k) =
        if k < b.bytes / 8 then
          if (k * b.dxt.toNat).testBit 11 then swapHalves (imageWord rdram b.address k)
          else imageWord rdram b.address k
        else tmem.word64 (b.tmem + BitVec.ofNat 9 k)) ∧
      ∀ t w rows, SameRows b t w rows → b.dxt.toNat = calculateDxt w →
        ((∀ rdram tmem, b.load rdram size tmem = t.load rdram size false tmem) ↔
          rows * (w * calculateDxt w - 2048) < calculateDxt w) :=
  ⟨fun _ _ _ hk => BlockLoad.load_word hpos hfit hbytes hk,
    fun _ _ _ hrows hdxt => loads_same_iff hrows hpos hfit hbytes hdxt⟩

/-- 21 lines of 11 words of 16-bit texels, loaded as a block. -/
def wideBlock : BlockLoad where
  imageAddress := 0
  imageBpl := 88
  imageSize := .bits16
  size := .bits16
  size_ne := by decide
  tmem := 0
  uls := 0
  ult := 0
  lrs := 923
  dxt := 187

/-- The same lines as a tile. -/
def wideTile : TileLoad where
  imageAddress := 0
  imageWidth := 44
  size := .bits16
  tmem := 0
  line := 11
  uls := 0
  ult := 0
  lrs := 43
  lrt := 20

theorem wideBlock_words :
    (∀ rdram tmem, ∀ k < 512,
      (wideBlock.load rdram fullRdram tmem).word64 (wideBlock.tmem + BitVec.ofNat 9 k) =
        if k < wideBlock.bytes / 8 then
          if (k * wideBlock.dxt.toNat).testBit 11 then
            swapHalves (imageWord rdram wideBlock.address k)
          else imageWord rdram wideBlock.address k
        else tmem.word64 (wideBlock.tmem + BitVec.ofNat 9 k)) ∧
      ∀ t w rows, SameRows wideBlock t w rows → wideBlock.dxt.toNat = calculateDxt w →
        ((∀ rdram tmem,
            wideBlock.load rdram fullRdram tmem = t.load rdram fullRdram false tmem) ↔
          rows * (w * calculateDxt w - 2048) < calculateDxt w) :=
  blockLoad_words wideBlock fullRdram (by decide) (by decide) (by decide)

/-- In the last of the lines, the last word is exchanged. -/
theorem block_not_tile :
    ¬∀ (b : BlockLoad) (t : TileLoad) (size : RdramSize) (w rows : ℕ), 0 < b.bytes →
      b.address + b.bytes ≤ size.last.toNat → b.bytes ≤ 4096 → SameRows b t w rows →
      b.dxt.toNat = calculateDxt w → rows ≤ 2048 / w →
      ∀ rdram tmem, b.load rdram size tmem = t.load rdram size false tmem := by
  intro h
  have hrows : SameRows wideBlock wideTile 11 21 := by
    constructor <;> decide
  have hsame := h wideBlock wideTile fullRdram 11 21 (by decide) (by decide) (by decide) hrows
    (by decide) (by decide)
  exact absurd ((loads_same_iff hrows (by decide) (by decide) (by decide) (by decide)).1 hsame)
    (by decide)

end

end Mupen64plus
