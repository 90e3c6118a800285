import Mupen64plus.Hle.HalfWords
import Mupen64plus.Lib.CheckedSums
import Mupen64plus.Lib.Flags

/-!
# The filters of the audio lists

Four loops compute samples as sums of products of half-words, in an accumulator of 32 bits. The
results of three of them are clamped to 16 bits, those of `alist_filter` are cut to them. The pole
filter goes on with samples that it put out before.

## Main definitions

- `adpcmComputeResiduals`, `polefSamples`, `filterSamples`, `resampleTurns` — the code
- `recurrence`, `fir`, `Resampler.exactTurn` — what it computes, over the integers
- `FilterCall.InRange` — no sum of the exact computation leaves its word

## Main results

- `resampleTurns_eq` — the resampler is always exact
- `filterCall_exact_iff`
-/

namespace Mupen64plus

/-- Half-words from a pointer on. -/
abbrev HalfWords := ℕ → BitVec 16

-- ════════════════════
-- Sums of products
-- ════════════════════

/-- `rdot`. -/
def rdot (n : ℕ) (x y : HalfWords) : Option ℤ :=
  sumTurns 32 (fun j => (x j).toInt * (y (n - 1 - j)).toInt) n

/-- `accu += a + b + rdot(i, x, y)`, where two loops have the products of the last two samples for
`a` and `b`. A product of two half-words always fits. -/
def addRdot (accu a b : ℤ) (i : ℕ) (x y : HalfWords) : Option ℤ :=
  (checked 32 (a + b)).bind fun sum =>
  (rdot i x y).bind fun dot =>
  (checked 32 (sum + dot)).bind fun sum =>
  checked 32 (accu + sum)

/-- The exact sum, for coefficients `x` and samples `y`. -/
def recurrence (accu a b : ℤ) (i : ℕ) (x : ℕ → ℤ) (y : HalfWords) : ℤ :=
  accu + (a + b + ∑ j ∈ Finset.range i, x j * (y (i - 1 - j)).toInt)

/-- The partial sums, in the order in which they are added up, are signed words of 32 bits. -/
def PartialSumsFit (accu a b : ℤ) (i : ℕ) (x : ℕ → ℤ) (y : HalfWords) : Prop :=
  FitsIn 32 (a + b) ∧
  (∀ m ≤ i, FitsIn 32 (∑ j ∈ Finset.range m, x j * (y (i - 1 - j)).toInt)) ∧
  FitsIn 32 (a + b + ∑ j ∈ Finset.range i, x j * (y (i - 1 - j)).toInt) ∧
  FitsIn 32 (recurrence accu a b i x y)

-- ════════════════════
-- Adaptive prediction
-- ════════════════════

section

variable (src cbEntry lastSamples : HalfWords)

/-- `adpcm_compute_residuals`, without a value where its assertion fails. -/
def adpcmComputeResiduals (count : ℕ) : Option (Fin count → BitVec 16) :=
  let book1 (i : ℕ) := cbEntry i
  let book2 (i : ℕ) := cbEntry (8 + i)
  let l1 := (lastSamples 0).toInt
  let l2 := (lastSamples 1).toInt
  if count ≤ 8 then allOf fun i =>
    let accu := (src i).toInt * 2 ^ 11
    (addRdot accu ((book1 i).toInt * l1) ((book2 i).toInt * l2) i book2 src).map fun accu =>
      clampS16 (accu / 2 ^ 11)
  else none

/-- The exact sum of sample `i`. -/
def exactResidual (i : ℕ) : ℤ :=
  recurrence ((src i).toInt * 2 ^ 11) ((cbEntry i).toInt * (lastSamples 0).toInt)
    ((cbEntry (8 + i)).toInt * (lastSamples 1).toInt) i (fun j => (cbEntry (8 + j)).toInt) src

/-- Its partial sums fit. -/
def ResidualFits (i : ℕ) : Prop :=
  PartialSumsFit ((src i).toInt * 2 ^ 11) ((cbEntry i).toInt * (lastSamples 0).toInt)
    ((cbEntry (8 + i)).toInt * (lastSamples 1).toInt) i (fun j => (cbEntry (8 + j)).toInt) src

end

-- ════════════════════
-- The pole filter
-- ════════════════════

/-- The coefficients of `alist_polef`. -/
structure PoleFilter where
  gain : BitVec 16
  h1 : HalfWords
  h2 : HalfWords

namespace PoleFilter

variable (f : PoleFilter) (l : BitVec 16 × BitVec 16) (frame : HalfWords)

/-- Coefficient `j` of the second half of the table scaled by the gain. -/
def exactScaled (j : ℕ) : ℤ := (f.h2 j).toInt * f.gain.toNat / 2 ^ 14

/-- What the table then holds. -/
def scaled (j : ℕ) : BitVec 16 := BitVec.ofInt 16 ((f.h2 j).toInt * f.gain.toNat / 2 ^ 14)

/-- The samples of one turn of the outer loop, after the samples `l`. -/
def frameSamples : Option (Fin 8 → BitVec 16) := allOf fun i =>
  let accu := (frame i).toInt * f.gain.toNat
  (addRdot accu ((f.h1 i).toInt * l.1.toInt) ((f.h2 i).toInt * l.2.toInt) i f.scaled frame).map
    fun accu => clampS16 (accu / 2 ^ 14)

/-- `l1` and `l2` of the turn after. -/
def lastTwo (_frame : HalfWords) (dst : Fin 8 → BitVec 16) : BitVec 16 × BitVec 16 := (dst 6, dst 7)

/-- The samples that `alist_polef` puts out, for the frames that it reads. -/
def polefSamples (frames : List HalfWords) : Option (List (Fin 8 → BitVec 16)) :=
  outputs f.frameSamples lastTwo l frames

/-- The exact sum of sample `i`. -/
def exactSum (i : ℕ) : ℤ :=
  recurrence ((frame i).toInt * f.gain.toNat) ((f.h1 i).toInt * l.1.toInt)
    ((f.h2 i).toInt * l.2.toInt) i f.exactScaled frame

def exactFrame : Fin 8 → BitVec 16 := fun i => clampS16 (f.exactSum l frame i / 2 ^ 14)

/-- The sums of a frame fit. -/
def FrameFits : Prop := ∀ i : Fin 8,
  PartialSumsFit ((frame i).toInt * f.gain.toNat) ((f.h1 i).toInt * l.1.toInt)
    ((f.h2 i).toInt * l.2.toInt) i f.exactScaled frame

def exactPolef (frames : List HalfWords) : List (Fin 8 → BitVec 16) :=
  exactOutputs f.exactFrame lastTwo l frames

/-- The coefficients that `rdot` reads fit in the table. -/
def ScaledFits : Prop := ∀ j < 7, FitsIn 16 (f.exactScaled j)

end PoleFilter

-- ════════════════════
-- The filter of sixteen samples
-- ════════════════════

/-- The terms of `v[x]`: a position in `in1` and then `in2`, and one in `lutt6`. -/
def filterTerms : Fin 8 → Fin 8 → ℕ × ℕ :=
  ![![(3, 6), (2, 7), (5, 4), (4, 5), (7, 2), (6, 3), (9, 0), (8, 1)],
    ![(0, 6), (3, 7), (2, 4), (5, 5), (4, 2), (7, 3), (6, 0), (9, 1)],
    ![(5, 6), (4, 7), (7, 4), (6, 5), (9, 2), (8, 3), (11, 0), (10, 1)],
    ![(2, 6), (5, 7), (4, 4), (7, 5), (6, 2), (9, 3), (8, 0), (11, 1)],
    ![(7, 6), (6, 7), (9, 4), (8, 5), (11, 2), (10, 3), (13, 0), (12, 1)],
    ![(4, 6), (7, 7), (6, 4), (9, 5), (8, 2), (11, 3), (10, 0), (13, 1)],
    ![(9, 6), (8, 7), (11, 4), (10, 5), (13, 2), (12, 3), (15, 0), (14, 1)],
    ![(6, 6), (9, 7), (8, 4), (11, 5), (10, 2), (13, 3), (12, 0), (15, 1)]]

/-- The tables of `alist_filter`. -/
structure FilterTables where
  lutt5 : HalfWords
  lutt6 : HalfWords

namespace FilterTables

variable (t : FilterTables) (in1 in2 : HalfWords)

/-- The mean of the two tables, which the first loop stores in both. -/
def mean (x : ℕ) : BitVec 16 := BitVec.ofInt 16 (((t.lutt5 x).toInt + (t.lutt6 x).toInt) / 2)

/-- The samples of `in1`, then those of `in2`. -/
def window (n : ℕ) : BitVec 16 := if n < 8 then in1 n else in2 (n - 8)

/-- Term `j` of `v[x]`. -/
def term (x : Fin 8) (j : ℕ) : ℤ :=
  let p := filterTerms x (Fin.ofNat 8 j)
  (window in1 in2 p.1).toInt * (t.mean p.2).toInt

/-- One turn of the second loop. -/
def blockSamples : Option (Fin 8 → BitVec 16) := allOf fun x =>
  ((sumTurns 32 (t.term in1 in2 x) 8).bind fun v => checked 32 (v + 0x4000)).map fun v =>
    BitVec.ofInt 16 (v / 2 ^ 15)

/-- `in1 = in2`. -/
def nextBlock (in2 : HalfWords) (_out : Fin 8 → BitVec 16) : HalfWords := in2

/-- The samples that `alist_filter` puts out, for the eight samples before and the blocks that it
reads. -/
def filterSamples (blocks : List HalfWords) : Option (List (Fin 8 → BitVec 16)) :=
  outputs t.blockSamples nextBlock in1 blocks

/-- Coefficient `n` of the exact filter, in the order of the guest. -/
def coefficient (n : ℕ) : ℤ := ((t.lutt5 (n ^^^ 1)).toInt + (t.lutt6 (n ^^^ 1)).toInt) / 2

/-- Term `j` of sample `k`: the samples from `k + 1` on against the coefficients from the last to
the first. -/
def firTerm (k j : ℕ) : ℤ :=
  (window in1 in2 ((k + 1 + j) ^^^ 1)).toInt * t.coefficient (7 - j)

/-- Sample `k`, with one half added for rounding. -/
def fir (k : ℕ) : ℤ := (∑ j ∈ Finset.range 8, t.firTerm in1 in2 k j) + 0x4000

def exactBlock : Fin 8 → BitVec 16 := fun x => clampS16 (t.fir in1 in2 (x ^^^ 1) / 2 ^ 15)

/-- The sums of a block fit, and its samples do without a clamp. -/
def BlockFits : Prop := ∀ k < 8,
  (∀ m ≤ 8, FitsIn 32 (∑ j ∈ Finset.range m, t.firTerm in1 in2 k j)) ∧
  FitsIn 32 (t.fir in1 in2 k) ∧
  FitsIn 16 (t.fir in1 in2 k / 2 ^ 15)

def exactFilter (blocks : List HalfWords) : List (Fin 8 → BitVec 16) :=
  exactOutputs t.exactBlock nextBlock in1 blocks

end FilterTables

-- ════════════════════
-- The resampler
-- ════════════════════

/-- `RESAMPLE_LUT`. -/
def resampleLut : List (BitVec 16) :=
  [0x0c39, 0x66ad, 0x0d46, 0xffdf, 0x0b39, 0x6696, 0x0e5f, 0xffd8,
   0x0a44, 0x6669, 0x0f83, 0xffd0, 0x095a, 0x6626, 0x10b4, 0xffc8,
   0x087d, 0x65cd, 0x11f0, 0xffbf, 0x07ab, 0x655e, 0x1338, 0xffb6,
   0x06e4, 0x64d9, 0x148c, 0xffac, 0x0628, 0x643f, 0x15eb, 0xffa1,
   0x0577, 0x638f, 0x1756, 0xff96, 0x04d1, 0x62cb, 0x18cb, 0xff8a,
   0x0435, 0x61f3, 0x1a4c, 0xff7e, 0x03a4, 0x6106, 0x1bd7, 0xff71,
   0x031c, 0x6007, 0x1d6c, 0xff64, 0x029f, 0x5ef5, 0x1f0b, 0xff56,
   0x022a, 0x5dd0, 0x20b3, 0xff48, 0x01be, 0x5c9a, 0x2264, 0xff3a,
   0x015b, 0x5b53, 0x241e, 0xff2c, 0x0101, 0x59fc, 0x25e0, 0xff1e,
   0x00ae, 0x5896, 0x27a9, 0xff10, 0x0063, 0x5720, 0x297a, 0xff02,
   0x001f, 0x559d, 0x2b50, 0xfef4, 0xffe2, 0x540d, 0x2d2c, 0xfee8,
   0xffac, 0x5270, 0x2f0d, 0xfedb, 0xff7c, 0x50c7, 0x30f3, 0xfed0,
   0xff53, 0x4f14, 0x32dc, 0xfec6, 0xff2e, 0x4d57, 0x34c8, 0xfebd,
   0xff0f, 0x4b91, 0x36b6, 0xfeb6, 0xfef5, 0x49c2, 0x38a5, 0xfeb0,
   0xfedf, 0x47ed, 0x3a95, 0xfeac, 0xfece, 0x4611, 0x3c85, 0xfeab,
   0xfec0, 0x4430, 0x3e74, 0xfeac, 0xfeb6, 0x424a, 0x4060, 0xfeaf,
   0xfeaf, 0x4060, 0x424a, 0xfeb6, 0xfeac, 0x3e74, 0x4430, 0xfec0,
   0xfeab, 0x3c85, 0x4611, 0xfece, 0xfeac, 0x3a95, 0x47ed, 0xfedf,
   0xfeb0, 0x38a5, 0x49c2, 0xfef5, 0xfeb6, 0x36b6, 0x4b91, 0xff0f,
   0xfebd, 0x34c8, 0x4d57, 0xff2e, 0xfec6, 0x32dc, 0x4f14, 0xff53,
   0xfed0, 0x30f3, 0x50c7, 0xff7c, 0xfedb, 0x2f0d, 0x5270, 0xffac,
   0xfee8, 0x2d2c, 0x540d, 0xffe2, 0xfef4, 0x2b50, 0x559d, 0x001f,
   0xff02, 0x297a, 0x5720, 0x0063, 0xff10, 0x27a9, 0x5896, 0x00ae,
   0xff1e, 0x25e0, 0x59fc, 0x0101, 0xff2c, 0x241e, 0x5b53, 0x015b,
   0xff3a, 0x2264, 0x5c9a, 0x01be, 0xff48, 0x20b3, 0x5dd0, 0x022a,
   0xff56, 0x1f0b, 0x5ef5, 0x029f, 0xff64, 0x1d6c, 0x6007, 0x031c,
   0xff71, 0x1bd7, 0x6106, 0x03a4, 0xff7e, 0x1a4c, 0x61f3, 0x0435,
   0xff8a, 0x18cb, 0x62cb, 0x04d1, 0xff96, 0x1756, 0x638f, 0x0577,
   0xffa1, 0x15eb, 0x643f, 0x0628, 0xffac, 0x148c, 0x64d9, 0x06e4,
   0xffb6, 0x1338, 0x655e, 0x07ab, 0xffbf, 0x11f0, 0x65cd, 0x087d,
   0xffc8, 0x10b4, 0x6626, 0x095a, 0xffd0, 0x0f83, 0x6669, 0x0a44,
   0xffd8, 0x0e5f, 0x6696, 0x0b39, 0xffdf, 0x0d46, 0x66ad, 0x0c39]

/-- What the loop of `alist_resample` works on, with the samples of `alist_buffer`. -/
structure Resampler where
  buffer : HalfWords
  ipos : BitVec 16
  opos : BitVec 16
  pitchAccu : BitVec 32

namespace Resampler

/-- `sample`, as a position in the buffer. -/
def samplePos (pos : BitVec 32) : ℕ := ((pos ^^^ 1#32) &&& 0xfff#32).toNat

variable (pitch : BitVec 32) (s : Resampler)

/-- Term `k` of the sum. -/
def term (k : ℕ) : ℤ :=
  let lut (k : ℕ) : BitVec 16 :=
    resampleLut.getD (((s.pitchAccu &&& 0xfc00#32) >>> 8).toNat + k) 0
  (s.buffer (samplePos (s.ipos.setWidth 32 + BitVec.ofNat 32 k))).toInt * (lut k).toInt

/-- The turn that puts out the sample `out`. -/
def put (out : BitVec 16) : Resampler :=
  let pitchAccu := s.pitchAccu + pitch
  { buffer := Function.update s.buffer (samplePos (s.opos.setWidth 32)) out
    opos := s.opos + 1
    ipos := s.ipos + (pitchAccu >>> 16).setWidth 16
    pitchAccu := pitchAccu &&& 0xffff#32 }

/-- One turn of the loop. -/
def turn : Option Resampler :=
  (sumTurns 32 s.term 4).map fun accu => s.put pitch (clampS16 (accu / 2 ^ 15))

/-- The loop for `count` samples. -/
def resampleTurns : ℕ → Resampler → Option Resampler
  | 0, s => some s
  | count + 1, s => (s.turn pitch).bind (resampleTurns count)

def exactTurn : Resampler :=
  s.put pitch (clampS16 ((∑ k ∈ Finset.range 4, s.term k) / 2 ^ 15))

end Resampler

-- ════════════════════
-- The filters together
-- ════════════════════

/-- The loops, with what they are called with. `adpcm_compute_residuals` asserts its count. -/
inductive FilterCall
  | residuals (src cbEntry lastSamples : HalfWords) (count : ℕ) (hcount : count ≤ 8)
  | polef (f : PoleFilter) (l : BitVec 16 × BitVec 16) (frames : List HalfWords)
  | filter (t : FilterTables) (in1 : HalfWords) (blocks : List HalfWords)
  | resample (pitch : BitVec 32) (count : ℕ) (s : Resampler)

namespace FilterCall

/-- The code computes the clamped samples of the exact recurrence. The pole filter also keeps its
scaled coefficients. -/
def Exact : FilterCall → Prop
  | residuals src cbEntry lastSamples count _ =>
    adpcmComputeResiduals src cbEntry lastSamples count =
      some fun i : Fin count => clampS16 (exactResidual src cbEntry lastSamples i / 2 ^ 11)
  | polef f l frames =>
    (∀ j < 7, (f.scaled j).toInt = f.exactScaled j) ∧
      f.polefSamples l frames = some (f.exactPolef l frames)
  | filter t in1 blocks => t.filterSamples in1 blocks = some (t.exactFilter in1 blocks)
  | resample pitch count s =>
    Resampler.resampleTurns pitch count s = some ((Resampler.exactTurn pitch)^[count] s)

/-- The sums of the exact computation fit in 32 bits, and what is stored without a clamp in 16. -/
def InRange : FilterCall → Prop
  | residuals src cbEntry lastSamples count _ =>
    ∀ i < count, ResidualFits src cbEntry lastSamples i
  | polef f l frames =>
    f.ScaledFits ∧ AllAlong f.FrameFits f.exactFrame PoleFilter.lastTwo l frames
  | filter t in1 blocks => AllAlong t.BlockFits t.exactBlock FilterTables.nextBlock in1 blocks
  | resample _ _ _ => True

end FilterCall

-- ════════════════════
-- Prediction and the pole filter
-- ════════════════════

section

variable {x y : HalfWords}

theorem rdot_yields (n : ℕ) : Yields (rdot n x y)
    (∀ m ≤ n, FitsIn 32 (∑ j ∈ Finset.range m, (x j).toInt * (y (n - 1 - j)).toInt))
    (∑ j ∈ Finset.range n, (x j).toInt * (y (n - 1 - j)).toInt) := sumTurns_yields _ n

theorem addRdot_yields (accu a b : ℤ) (i : ℕ) : Yields (addRdot accu a b i x y)
    (PartialSumsFit accu a b i (fun j => (x j).toInt) y)
    (recurrence accu a b i (fun j => (x j).toInt) y) :=
  (checked_yields (a + b)).bind <| (rdot_yields i).bind <|
    (checked_yields _).bind (checked_yields _)

/-- Coefficients that agree where `rdot` reads them. -/
theorem partialSumsFit_congr {x x' : ℕ → ℤ} {accu a b : ℤ} {i : ℕ} (h : ∀ j < i, x j = x' j) :
    PartialSumsFit accu a b i x y ↔ PartialSumsFit accu a b i x' y := by
  have hsum : ∀ m ≤ i, ∑ j ∈ Finset.range m, x j * (y (i - 1 - j)).toInt =
      ∑ j ∈ Finset.range m, x' j * (y (i - 1 - j)).toInt := by
    intro m hm
    refine Finset.sum_congr rfl fun j hj => ?_
    rw [h j (lt_of_lt_of_le (Finset.mem_range.mp hj) hm)]
  unfold PartialSumsFit recurrence
  rw [hsum i le_rfl]
  refine and_congr_right' (and_congr_left' ?_)
  exact forall₂_congr fun m hm => by rw [hsum m hm]

theorem recurrence_congr {x x' : ℕ → ℤ} {accu a b : ℤ} {i : ℕ} (h : ∀ j < i, x j = x' j) :
    recurrence accu a b i x y = recurrence accu a b i x' y := by
  unfold recurrence
  rw [Finset.sum_congr rfl fun j hj => by rw [h j (Finset.mem_range.mp hj)]]

end

theorem residuals_exact_iff {src cbEntry lastSamples : HalfWords} {count : ℕ} (hcount : count ≤ 8) :
    adpcmComputeResiduals src cbEntry lastSamples count =
        some (fun i : Fin count => clampS16 (exactResidual src cbEntry lastSamples i / 2 ^ 11)) ↔
      ∀ i < count, ResidualFits src cbEntry lastSamples i := by
  unfold adpcmComputeResiduals
  rw [if_pos hcount, allOf_eq_some_iff, Fin.forall_iff]
  refine forall₂_congr fun i hi => ?_
  exact ((addRdot_yields _ _ _ i).map _).eq_some_iff

namespace PoleFilter

variable {f : PoleFilter} {l : BitVec 16 × BitVec 16} {frame : HalfWords}

theorem toInt_scaled_iff (j : ℕ) :
    (f.scaled j).toInt = f.exactScaled j ↔ FitsIn 16 (f.exactScaled j) := by
  constructor
  · intro h
    rw [← h]
    exact ⟨BitVec.le_toInt _, BitVec.toInt_lt⟩
  · intro h
    exact BitVec.toInt_ofInt_eq_self (by decide) h.1 h.2

theorem frameSamples_exact_iff (h : f.ScaledFits) :
    f.frameSamples l frame = some (f.exactFrame l frame) ↔ f.FrameFits l frame := by
  have hscaled : ∀ i : Fin 8, ∀ j < (i : ℕ), (f.scaled j).toInt = f.exactScaled j :=
    fun i j hj => (toInt_scaled_iff j).mpr (h j (by omega))
  unfold frameSamples
  rw [allOf_eq_some_iff]
  refine forall_congr' fun i => ?_
  rw [← partialSumsFit_congr (hscaled i), exactFrame, exactSum, ← recurrence_congr (hscaled i)]
  exact ((addRdot_yields _ _ _ (i : ℕ)).map _).eq_some_iff

theorem polef_exact_iff {frames : List HalfWords} :
    ((∀ j < 7, (f.scaled j).toInt = f.exactScaled j) ∧
        f.polefSamples l frames = some (f.exactPolef l frames)) ↔
      f.ScaledFits ∧ AllAlong f.FrameFits f.exactFrame lastTwo l frames := by
  simp only [toInt_scaled_iff]
  exact and_congr_right fun h =>
    outputs_eq_some_iff (fun l frame => frameSamples_exact_iff h) l frames

end PoleFilter

-- ════════════════════
-- The filter of sixteen samples
-- ════════════════════

/-- A cut is a clamp where neither does anything. -/
theorem ofInt_eq_clampS16_iff {n : ℤ} (hlow : -2 ^ 16 ≤ n) (hhigh : n < 2 ^ 16) :
    BitVec.ofInt 16 n = clampS16 n ↔ FitsIn 16 n := by
  unfold clampS16
  rw [← BitVec.toInt_inj, BitVec.toInt_ofInt, BitVec.toInt_ofInt, Int.bmod_def, Int.bmod_def,
    FitsIn]
  omega

namespace FilterTables

variable {t : FilterTables} {in1 in2 : HalfWords}

theorem toInt_mean (x : ℕ) :
    (t.mean x).toInt = ((t.lutt5 x).toInt + (t.lutt6 x).toInt) / 2 := by
  have h5 := BitVec.le_toInt (t.lutt5 x)
  have h6 := BitVec.le_toInt (t.lutt6 x)
  have h5' := BitVec.toInt_lt (x := t.lutt5 x)
  have h6' := BitVec.toInt_lt (x := t.lutt6 x)
  exact BitVec.toInt_ofInt_eq_self (by decide) (by omega) (by omega)

/-- The terms of the source in the order of the guest. -/
theorem filterTerms_eq : ∀ x j : Fin 8,
    filterTerms x j = (((x ^^^ 1 : ℕ) + 1 + j) ^^^ 1, (7 - j : ℕ) ^^^ 1) := by decide

theorem sum_term (x : Fin 8) {m : ℕ} (hm : m ≤ 8) : ∑ j ∈ Finset.range m, t.term in1 in2 x j =
    ∑ j ∈ Finset.range m, t.firTerm in1 in2 (x ^^^ 1) j := by
  refine Finset.sum_congr rfl fun j hj => ?_
  have hj8 : j < 8 := lt_of_lt_of_le (Finset.mem_range.mp hj) hm
  rw [term, filterTerms_eq, firTerm, toInt_mean, coefficient, Fin.val_ofNat, Nat.mod_eq_of_lt hj8]

theorem sample_exact_iff (x : Fin 8) :
    ((sumTurns 32 (t.term in1 in2 x) 8).bind fun v => checked 32 (v + 0x4000)).map
        (fun v => BitVec.ofInt 16 (v / 2 ^ 15)) = some (t.exactBlock in1 in2 x) ↔
      (∀ m ≤ 8, FitsIn 32 (∑ j ∈ Finset.range m, t.firTerm in1 in2 (x ^^^ 1) j)) ∧
        FitsIn 32 (t.fir in1 in2 (x ^^^ 1)) ∧ FitsIn 16 (t.fir in1 in2 (x ^^^ 1) / 2 ^ 15) := by
  have hyields := (sumTurns_yields (w := 32) (t.term in1 in2 x) 8).bind
    (f := fun v => checked 32 (v + 0x4000)) (checked_yields _)
  rw [hyields.map_eq_some_iff, sum_term x le_rfl, ← fir, exactBlock, and_assoc]
  refine and_congr (forall₂_congr fun m hm => by rw [sum_term x hm]) (and_congr_right fun h => ?_)
  rw [eq_comm]
  refine ofInt_eq_clampS16_iff ?_ ?_
  · exact Int.le_ediv_of_mul_le (by decide) h.1
  · exact Int.ediv_lt_of_lt_mul (by decide) (lt_of_lt_of_le h.2 (by decide))

theorem forall_xor_one {p : ℕ → Prop} : (∀ x : Fin 8, p (x ^^^ 1)) ↔ ∀ k < 8, p k := by
  constructor
  · intro h k hk
    have hlt : k ^^^ 1 < 8 := Nat.xor_lt_two_pow (n := 3) hk (by decide)
    have hk := h ⟨k ^^^ 1, hlt⟩
    rwa [Nat.xor_assoc, Nat.xor_self, Nat.xor_zero] at hk
  · exact fun h x => h _ (Nat.xor_lt_two_pow (n := 3) x.isLt (by decide))

theorem blockSamples_exact_iff :
    t.blockSamples in1 in2 = some (t.exactBlock in1 in2) ↔ t.BlockFits in1 in2 := by
  unfold blockSamples
  rw [allOf_eq_some_iff, BlockFits, ← forall_xor_one]
  exact forall_congr' sample_exact_iff

end FilterTables

-- ════════════════════
-- The resampler
-- ════════════════════

namespace Resampler

/-- The absolute gains of a row, and those of the rows after it, sum up to less than two. -/
def gainsFit : List (BitVec 16) → Bool
  | [] => true
  | a :: b :: c :: d :: rest =>
    |a.toInt| + |b.toInt| + |c.toInt| + |d.toInt| ≤ 65535 && gainsFit rest
  | _ => false

theorem gainsFit_row {l : List (BitVec 16)} (h : gainsFit l) (row : ℕ) :
    ∑ k ∈ Finset.range 4, |(l.getD (4 * row + k) 0).toInt| ≤ 65535 := by
  fun_induction gainsFit l generalizing row with
  | case1 => simp
  | case2 a b c d rest ih =>
    rw [Bool.and_eq_true, decide_eq_true_eq] at h
    cases row with
    | zero => simpa [Finset.sum_range_succ] using h.1
    | succ row => simpa [Nat.mul_add, Nat.add_right_comm _ 4] using ih h.2 row
  | case3 => exact absurd h Bool.false_ne_true

/-- Rows of the table have gains of less than two. -/
theorem resampleLut_row (row : ℕ) :
    ∑ k ∈ Finset.range 4, |(resampleLut.getD (4 * row + k) 0).toInt| ≤ 65535 :=
  gainsFit_row (by decide) row

/-- A position in the table is the start of a row. -/
theorem exists_row (pitchAccu : BitVec 32) :
    ∃ row < 64, ((pitchAccu &&& 0xfc00#32) >>> 8).toNat = 4 * row := by
  refine ⟨pitchAccu.toNat / 2 ^ 10 % 2 ^ 6, Nat.mod_lt _ (by decide), ?_⟩
  rw [BitVec.toNat_ushiftRight, BitVec.toNat_and, Nat.shiftRight_eq_div_pow,
    show (0xfc00#32).toNat = 2 ^ 10 * (2 ^ 6 - 1) from rfl, Flags.and_field]
  omega

theorem turn_eq (pitch : BitVec 32) (s : Resampler) :
    s.turn pitch = some (s.exactTurn pitch) := by
  obtain ⟨row, hrow, hpos⟩ := exists_row s.pitchAccu
  refine ((sumTurns_yields s.term 4).map _).eq_some (fitsIn_sum_of_abs_le ?_)
  have hterm : ∀ k, |s.term k| ≤ 32768 * |(resampleLut.getD (4 * row + k) 0).toInt| := by
    intro k
    rw [term, hpos, abs_mul]
    refine mul_le_mul_of_nonneg_right (abs_le.mpr ?_) (abs_nonneg _)
    exact ⟨BitVec.le_toInt _, (BitVec.toInt_lt).le⟩
  calc ∑ k ∈ Finset.range 4, |s.term k|
      ≤ ∑ k ∈ Finset.range 4, 32768 * |(resampleLut.getD (4 * row + k) 0).toInt| :=
        Finset.sum_le_sum fun k _ => hterm k
    _ = 32768 * ∑ k ∈ Finset.range 4, |(resampleLut.getD (4 * row + k) 0).toInt| :=
        (Finset.mul_sum _ _ _).symm
    _ ≤ 32768 * 65535 := mul_le_mul_of_nonneg_left (resampleLut_row row) (by decide)
    _ ≤ 2 ^ (32 - 1) - 1 := by decide

/-- The resampler is always exact. -/
theorem resampleTurns_eq (pitch : BitVec 32) (count : ℕ) (s : Resampler) :
    resampleTurns pitch count s = some ((exactTurn pitch)^[count] s) := by
  induction count generalizing s with
  | zero => rfl
  | succ count ih =>
    rw [resampleTurns, turn_eq, Option.bind_some, ih, Function.iterate_succ_apply]

end Resampler

-- ════════════════════
-- Main results
-- ════════════════════

/-- The filters compute the exact recurrence if and only if no sum of it leaves its word. -/
theorem filterCall_exact_iff (call : FilterCall) : call.Exact ↔ call.InRange := by
  cases call with
  | residuals src cbEntry lastSamples count hcount => exact residuals_exact_iff hcount
  | polef f l frames => exact PoleFilter.polef_exact_iff
  | filter t in1 blocks =>
    exact outputs_eq_some_iff (fun _ _ => FilterTables.blockSamples_exact_iff) in1 blocks
  | resample pitch count s => exact iff_of_true (Resampler.resampleTurns_eq pitch count s) trivial

/-- Two products of −32768 by itself overflow, and a block whose samples are twice too loud wraps
around. -/
theorem loud_calls_not_exact :
    ¬(FilterCall.residuals (fun _ => 0) (fun _ => 0x8000) (fun _ => 0x8000) 1 (by decide)).Exact ∧
      ¬(FilterCall.filter ⟨fun _ => 0x2000, fun _ => 0x2000⟩ (fun _ => 0x7fff)
        [fun _ => 0x7fff]).Exact := by
  constructor
  · change adpcmComputeResiduals _ _ _ 1 ≠ some fun i : Fin 1 => _
    decide
  · change FilterTables.filterSamples _ _ _ ≠ some _
    decide

end Mupen64plus
