import Mupen64plus.Hle.HalfWords
import Mupen64plus.Lib.Runs

/-!
# The buffers of MusyX

A voice is decoded to a buffer of 0x200 samples, through a buffer of bytes if it is compressed, and
read from there by a resampler that returns from the end point of the voice to its restart point.
All lengths and positions come from the voice structures in RDRAM. What a task stores in RDRAM
between two of its steps does not matter here, so that a step takes the RDRAM that it leaves.

## Main definitions

- `MusyxAccess` — an entry of an array, or a voice of a subframe
- `loadSamples`, `Cursor.next` — the code for a voice
- `MusyxTask.step` — a task, one voice or one effect at a time
- `Voice.position` — where the resampler reads a sample
- `MusyxTask.Meets` — the voices and effects that fit

## Main results

- `Voice.position_bounds` — a voice whose loop is not too short keeps the resampler in bounds
- `musyx_inBounds_iff`
-/

namespace Mupen64plus

namespace HleMemory

/-- `*dram_u8(hle, address)`. -/
def dramU8 (m : HleMemory) (address : BitVec 32) : BitVec 8 := m.dram.u8 (dramAddress address)

end HleMemory

-- ════════════════════
-- Accesses
-- ════════════════════

/-- What a task uses of its arrays. -/
inductive MusyxAccess
  | voice (i : ℕ)
  /-- `samples[i]` is written -/
  | sample (i : ℕ)
  /-- `buffer[i]` of `load_samples_ADPCM` is written -/
  | staged (i : ℕ)
  /-- `samples[i]` and the three after it are read -/
  | resampled (i : ℤ)
  | tap (i : ℕ)
deriving DecidableEq

/-- `MAX_VOICES`, and the lengths of the arrays. -/
def MusyxAccess.InBounds : MusyxAccess → Prop
  | voice i => i < 32
  | sample i => i < 0x200
  | staged i => i < 0x200 * 2 * 5 / 16
  | resampled i => 0 ≤ i ∧ i + 3 < 0x200
  | tap i => i < 8

/-- `n` accesses from `base` on. -/
def accessRange (access : ℕ → MusyxAccess) (base n : ℕ) : List MusyxAccess :=
  (List.range n).map fun k => access (base + k)

-- ════════════════════
-- A voice
-- ════════════════════

/-- The lengths of two pieces of RDRAM. -/
structure CatSrc where
  size1 : BitVec 16
  size2 : BitVec 16

def loadCatSrc (hle : HleMemory) (catsrcPtr : BitVec 32) : CatSrc where
  size1 := hle.dramU16 (catsrcPtr + 0x08)
  size2 := hle.dramU16 (catsrcPtr + 0x0a)

/-- What lengths and positions depend on in a voice structure. -/
structure Voice where
  pitchQ16 : BitVec 16
  pitchShift : BitVec 16
  catsrc0 : CatSrc
  catsrc1 : CatSrc
  u8_3c : BitVec 8
  u8_3d : BitVec 8
  u8_3e : BitVec 8
  u16_40 : BitVec 16
  u16_42 : BitVec 16
  endPoint : BitVec 16
  restartPoint : BitVec 16
  u16_4e : BitVec 16

def loadVoice (hle : HleMemory) (voicePtr : BitVec 32) : Voice where
  pitchQ16 := hle.dramU16 (voicePtr + 0x20)
  pitchShift := hle.dramU16 (voicePtr + 0x22)
  catsrc0 := loadCatSrc hle (voicePtr + 0x24)
  catsrc1 := loadCatSrc hle (voicePtr + 0x30)
  u8_3c := hle.dramU8 (voicePtr + 0x3c)
  u8_3d := hle.dramU8 (voicePtr + 0x3d)
  u8_3e := hle.dramU8 (voicePtr + 0x3e)
  u16_40 := hle.dramU16 (voicePtr + 0x40)
  u16_42 := hle.dramU16 (voicePtr + 0x42)
  endPoint := hle.dramU16 (voicePtr + 0x48)
  restartPoint := hle.dramU16 (voicePtr + 0x4a)
  u16_4e := hle.dramU16 (voicePtr + 0x4e)

/-- The two loops of a `dma_cat`, for counts of `2 ^ shift` bytes. -/
def dmaCat (access : ℕ → MusyxAccess) (shift dst : ℕ) (c : CatSrc) : List MusyxAccess :=
  let count1 := c.size1.toNat >>> shift
  let count2 := c.size2.toNat >>> shift
  if c.size2 = 0 then accessRange access dst count1
  else accessRange access dst count1 ++ accessRange access (dst + count1) count2

/-- `dma_cat8` to `buffer`. -/
def dmaCat8 : CatSrc → List MusyxAccess := dmaCat .staged 0 0

/-- `dma_cat16` to `samples + dst`. -/
def dmaCat16 : ℕ → CatSrc → List MusyxAccess := dmaCat .sample 1

/-- `adpcm_decode_frames` to `samples + dst`. -/
def adpcmDecodeFrames (dst : ℕ) (count : BitVec 8) : List MusyxAccess :=
  (List.range count.toNat).flatMap fun i => accessRange .sample (dst + 32 * i) 32

/-- `load_samples_PCM16`, with `segbase` and `offset`. -/
def loadSamplesPCM16 (v : Voice) : List MusyxAccess × BitVec 32 × ℕ :=
  let count := align (v.u16_40.setWidth 32 + v.u8_3e.setWidth 32) 4
  let segbase := 0x200 - count
  (dmaCat16 segbase.toNat v.catsrc0 ++ if v.u16_42 = 0 then [] else dmaCat16 0 v.catsrc1,
    segbase, v.u8_3e.toNat)

/-- `load_samples_ADPCM`, with `segbase` and `offset`. -/
def loadSamplesADPCM (v : Voice) : List MusyxAccess × BitVec 32 × ℕ :=
  let count : BitVec 32 := v.u8_3c.setWidth 32 <<< 5
  let segbase := 0x200 - count
  (dmaCat8 v.catsrc0 ++ adpcmDecodeFrames segbase.toNat v.u8_3c ++
      if v.u8_3d = 0 then [] else dmaCat8 v.catsrc1 ++ adpcmDecodeFrames 0 v.u8_3d,
    segbase, (v.u8_3e &&& 0x1f#8).toNat)

def loadSamples (v : Voice) : List MusyxAccess × BitVec 32 × ℕ :=
  if v.u8_3c = 0 then loadSamplesPCM16 v else loadSamplesADPCM v

/-- The pointer `sample` of `mix_voice_samples`, as an index of `samples` with pointers of 64 bits,
and `pitch_accu`. -/
structure Cursor where
  sample : ℤ
  pitchAccu : BitVec 32

def Cursor.init (v : Voice) (segbase : BitVec 32) (offset : ℕ) : Cursor where
  sample := segbase.toNat + offset + v.u16_4e.toNat
  pitchAccu := v.pitchQ16.setWidth 32

/-- One turn of the loop up to the resampler. The distance to the end is cut to an `int`. -/
def Cursor.next (v : Voice) (segbase : BitVec 32) (c : Cursor) : Cursor :=
  let sampleEnd : ℤ := segbase.toNat + v.endPoint.toNat
  let sampleRestart : ℤ := (v.restartPoint &&& 0x7fff#16).toNat +
    if v.restartPoint &&& 0x8000#16 ≠ 0 then 0 else segbase.toNat
  let pitchStep : BitVec 32 := v.pitchShift.setWidth 32 <<< 4
  let sample := c.sample + (c.pitchAccu >>> 16).toNat
  let dist := (sample - sampleEnd).bmod (2 ^ 32)
  { sample := if 0 ≤ dist then sampleRestart + dist else sample
    pitchAccu := (c.pitchAccu &&& 0xffff#32) + pitchStep }

/-- The reads of the resampler in `mix_voice_samples`. -/
def mixVoiceSamples (v : Voice) (segbase : BitVec 32) (offset : ℕ) : List MusyxAccess :=
  (List.range 192).map fun i =>
    .resampled ((Cursor.next v segbase)^[i + 1] (.init v segbase offset)).sample

/-- The body of the loop of `voice_stage`. -/
def voiceAccesses (v : Voice) : List MusyxAccess :=
  let (loaded, segbase, offset) := loadSamples v
  loaded ++ mixVoiceSamples v segbase offset

-- ════════════════════
-- The tasks
-- ════════════════════

inductive MusyxVersion
  | v1
  | v2

/-- `SFD_VOICES` and `SFD2_VOICES`. -/
def MusyxVersion.sfdVoices : MusyxVersion → BitVec 32
  | v1 => 0x10
  | v2 => 0x28

/-- Where a task stands. -/
inductive MusyxPoint
  | sfd
  | voice (i : ℕ) (voicePtr : BitVec 32)
  | effects
  | done

/-- A task, with the accesses of its last step. -/
structure MusyxTask where
  hle : HleMemory
  sfdPtr : BitVec 32
  sfdCount : BitVec 32
  sfxPtr : BitVec 32
  point : MusyxPoint
  accesses : List MusyxAccess

namespace MusyxTask

/-- The head of `musyx_v1_task` and `musyx_v2_task`. -/
def start (hle : HleMemory) : MusyxTask where
  hle := hle
  sfdPtr := hle.dmemU32 0xff0
  sfdCount := hle.dmemU32 0xff4
  sfxPtr := 0
  point := .sfd
  accesses := []

/-- The taps of `sfx_stage`. -/
def sfxStageTaps (hle : HleMemory) (sfxPtr : BitVec 32) : List MusyxAccess :=
  if sfxPtr = 0 then [] else accessRange .tap 0 (hle.dramU16 (sfxPtr + 0x08)).toNat

/-- One step: an SFD structure is read, which stores nothing, or a voice is mixed, or the effects
are applied and the subframe is put out, which leave the memory `left`. -/
def step (v : MusyxVersion) (s : MusyxTask) (left : HleMemory) : MusyxTask :=
  match s.point with
  | .sfd =>
    let voicePtr := s.sfdPtr + v.sfdVoices
    -- a first voice without samples skips the voice stage
    let skip := (loadCatSrc s.hle (voicePtr + 0x24)).size1 = 0
    { s with
      sfxPtr := s.hle.dramU32 (s.sfdPtr + 0xc)
      point := if skip then .effects else .voice 0 voicePtr
      accesses := if skip then [] else [.voice 0] }
  | .voice i voicePtr =>
    let mixed := voiceAccesses (loadVoice s.hle voicePtr)
    if left.dramU32 (voicePtr + 0x44) ≠ 0 then
      { s with hle := left, point := .effects, accesses := mixed }
    else
      { s with
        hle := left
        point := .voice (i + 1) (voicePtr + 0x50)
        accesses := mixed ++ [.voice (i + 1)] }
  | .effects =>
    let sfdCount := s.sfdCount - 1
    { s with
      hle := left
      sfdCount := sfdCount
      sfdPtr := s.sfdPtr + (v.sfdVoices + 32 * 0x50)
      point := if sfdCount = 0 then .done else .sfd
      accesses := sfxStageTaps s.hle s.sfxPtr }
  | .done => { s with accesses := [] }

/-- The last step kept to the arrays. -/
def InBounds (s : MusyxTask) : Prop := ∀ a ∈ s.accesses, a.InBounds

end MusyxTask

-- ════════════════════
-- The voices that fit
-- ════════════════════

namespace CatSrc

variable (c : CatSrc)

/-- The samples of the two pieces. -/
def samples : ℕ := c.size1.toNat / 2 + c.size2.toNat / 2

/-- Their bytes. -/
def bytes : ℕ := c.size1.toNat + c.size2.toNat

end CatSrc

namespace Voice

variable (v : Voice)

/-- The length of the segment at the end of the buffer. -/
def segment : ℕ :=
  if v.u8_3c = 0 then 4 * ((v.u16_40.toNat + v.u8_3e.toNat + 3) / 4) else 32 * v.u8_3c.toNat

/-- Its start, which wraps around if the segment is longer than the buffer. -/
def segbase : ℕ := if v.segment ≤ 0x200 then 0x200 - v.segment else 2 ^ 32 + 0x200 - v.segment

def offset : ℕ := if v.u8_3c = 0 then v.u8_3e.toNat else v.u8_3e.toNat % 32

/-- The pieces fit in the segment, and those of the second source in the buffer. -/
def LoadFits : Prop :=
  if v.u8_3c = 0 then
    (v.catsrc0.samples = 0 ∨ v.catsrc0.samples ≤ v.segment ∧ v.segment ≤ 0x200) ∧
      (v.u16_42 = 0 ∨ v.catsrc1.samples ≤ 0x200)
  else
    v.catsrc0.bytes ≤ 320 ∧ v.u8_3c.toNat ≤ 16 ∧
      (v.u8_3d = 0 ∨ v.catsrc1.bytes ≤ 320 ∧ v.u8_3d.toNat ≤ 16)

def loopEnd : ℤ := v.segbase + v.endPoint.toNat

def loopStart : ℤ :=
  (v.restartPoint.toNat % 0x8000 : ℕ) + if 0x8000 ≤ v.restartPoint.toNat then 0 else v.segbase

/-- From the end on back to the start of the loop. -/
def wrapped (y : ℤ) : ℤ :=
  let dist := (y - v.loopEnd).bmod (2 ^ 32)
  if 0 ≤ dist then v.loopStart + dist else y

/-- The samples that the pitch goes on by up to sample `i`. -/
def advance (i : ℕ) : ℕ := (v.pitchQ16.toNat + i * (16 * v.pitchShift.toNat)) / 2 ^ 16

/-- Where sample `i` of the subframe is read. -/
def position : ℕ → ℤ
  | 0 => v.wrapped (v.segbase + v.offset + v.u16_4e.toNat)
  | i + 1 => v.wrapped (position i + (v.advance (i + 1) - v.advance i : ℕ))

def ReadsFit : Prop := ∀ i < 192, 0 ≤ v.position i ∧ v.position i + 3 < 0x200

end Voice

namespace MusyxTask

/-- What a step asks of RDRAM: a voice that fits, the last of the 32 voices ends the list, and
there are no more than eight taps. -/
def Meets (s : MusyxTask) (left : HleMemory) : Prop :=
  match s.point with
  | .sfd => True
  | .voice i voicePtr =>
    let v := loadVoice s.hle voicePtr
    v.LoadFits ∧ v.ReadsFit ∧ (i = 31 → left.dramU32 (voicePtr + 0x44) ≠ 0)
  | .effects => s.sfxPtr = 0 ∨ s.hle.dramU16 (s.sfxPtr + 0x08) ≤ 8
  | .done => True

end MusyxTask

-- ════════════════════
-- Loading
-- ════════════════════

section

variable {access : ℕ → MusyxAccess} {limit : ℕ}

/-- Bounds that get tighter from one access to the next are those of the last. -/
theorem forall_lt_iff_last {p : ℕ → Prop} (hmono : ∀ {i j}, i ≤ j → p j → p i) (n : ℕ) :
    (∀ k < n, p k) ↔ n = 0 ∨ p (n - 1) := by
  cases n with
  | zero => exact iff_of_true (fun k hk => absurd hk k.not_lt_zero) (.inl rfl)
  | succ n =>
    rw [Nat.add_sub_cancel, or_iff_right n.succ_ne_zero]
    exact ⟨fun h => h n n.lt_succ_self, fun h k hk => hmono (Nat.le_of_lt_succ hk) h⟩

theorem accessRange_inBounds (h : ∀ i, (access i).InBounds ↔ i < limit) (base n : ℕ) :
    (∀ a ∈ accessRange access base n, a.InBounds) ↔ n = 0 ∨ base + n ≤ limit := by
  simp only [accessRange, List.forall_mem_map, List.mem_range, h]
  rw [forall_lt_iff_last fun hij hj => by omega]
  omega

theorem dmaCat_inBounds (h : ∀ i, (access i).InBounds ↔ i < limit) (shift dst : ℕ) (c : CatSrc) :
    (∀ a ∈ dmaCat access shift dst c, a.InBounds) ↔
      c.size1.toNat >>> shift + c.size2.toNat >>> shift = 0 ∨
      dst + (c.size1.toNat >>> shift + c.size2.toNat >>> shift) ≤ limit := by
  unfold dmaCat
  split
  next hzero =>
    have hcount : c.size2.toNat >>> shift = 0 := by
      rw [hzero]
      exact Nat.zero_shiftRight shift
    rw [accessRange_inBounds h, hcount, Nat.add_zero]
  next =>
    rw [List.forall_mem_append, accessRange_inBounds h, accessRange_inBounds h]
    generalize c.size1.toNat >>> shift = count1
    generalize c.size2.toNat >>> shift = count2
    omega

theorem dmaCat8_inBounds (c : CatSrc) :
    (∀ a ∈ dmaCat8 c, a.InBounds) ↔ c.bytes ≤ 320 := by
  rw [dmaCat8, dmaCat_inBounds fun _ => Iff.rfl, CatSrc.bytes, Nat.shiftRight_zero,
    Nat.shiftRight_zero]
  omega

theorem dmaCat16_inBounds (dst : ℕ) (c : CatSrc) :
    (∀ a ∈ dmaCat16 dst c, a.InBounds) ↔ c.samples = 0 ∨ dst + c.samples ≤ 0x200 :=
  dmaCat_inBounds (fun _ => Iff.rfl) 1 dst c

theorem adpcmDecodeFrames_inBounds (dst : ℕ) (count : BitVec 8) :
    (∀ a ∈ adpcmDecodeFrames dst count, a.InBounds) ↔
      count.toNat = 0 ∨ dst + 32 * count.toNat ≤ 0x200 := by
  have hframe : ∀ base, (∀ a ∈ accessRange .sample base 32, a.InBounds) ↔ base + 32 ≤ 0x200 :=
    fun base => (accessRange_inBounds (fun _ => Iff.rfl) base 32).trans (or_iff_right (by decide))
  simp only [adpcmDecodeFrames, List.forall_mem_flatMap, List.mem_range, hframe]
  rw [forall_lt_iff_last fun hij hj => by omega]
  omega

end

section

variable {v : Voice}

theorem Voice.segment_lt (v : Voice) : v.segment < 2 ^ 17 := by
  have h40 := v.u16_40.isLt
  have h3c := v.u8_3c.isLt
  have h3e := v.u8_3e.isLt
  unfold segment
  split <;> omega

theorem toNat_segbase {count : BitVec 32} (h : count.toNat = v.segment) :
    (0x200 - count).toNat = v.segbase := by
  have hlt := count.isLt
  rw [BitVec.toNat_sub, h, Voice.segbase]
  change (2 ^ 32 - v.segment + 0x200) % 2 ^ 32 = _
  split <;> omega

theorem loadSamplesPCM16_segbase (hpcm : v.u8_3c = 0) :
    (loadSamplesPCM16 v).2.1.toNat = v.segbase := by
  refine toNat_segbase ?_
  have h40 := v.u16_40.isLt
  have h3e := v.u8_3e.isLt
  have hsum : (v.u16_40.setWidth 32 + v.u8_3e.setWidth 32).toNat =
      v.u16_40.toNat + v.u8_3e.toNat := by
    rw [BitVec.toNat_add, BitVec.toNat_setWidth_of_le (by decide),
      BitVec.toNat_setWidth_of_le (by decide), Nat.mod_eq_of_lt (by omega)]
  rw [toNat_align 2 (by decide) rfl rfl (by omega), hsum, Voice.segment, if_pos hpcm]
  rfl

theorem loadSamplesADPCM_segbase (hadpcm : v.u8_3c ≠ 0) :
    (loadSamplesADPCM v).2.1.toNat = v.segbase := by
  refine toNat_segbase ?_
  have h3c := v.u8_3c.isLt
  rw [BitVec.toNat_shiftLeft, BitVec.toNat_setWidth_of_le (by decide), Nat.shiftLeft_eq,
    Nat.mod_eq_of_lt (by omega), Voice.segment, if_neg hadpcm, Nat.mul_comm]

/-- The second source is left out in one case. -/
theorem forall_mem_unless {c : Prop} [Decidable c] {l : List MusyxAccess} {p : MusyxAccess → Prop} :
    (∀ a ∈ if c then [] else l, p a) ↔ c ∨ ∀ a ∈ l, p a := by
  split
  next hc => exact iff_of_true (fun a ha => absurd ha List.not_mem_nil) (.inl hc)
  next hc => exact (or_iff_right hc).symm

theorem loadSamplesPCM16_inBounds (hpcm : v.u8_3c = 0) :
    (∀ a ∈ (loadSamplesPCM16 v).1, a.InBounds) ↔ v.LoadFits := by
  have hlist : (loadSamplesPCM16 v).1 = dmaCat16 (loadSamplesPCM16 v).2.1.toNat v.catsrc0 ++
      if v.u16_42 = 0 then [] else dmaCat16 0 v.catsrc1 := rfl
  rw [hlist, List.forall_mem_append, forall_mem_unless, dmaCat16_inBounds, dmaCat16_inBounds,
    loadSamplesPCM16_segbase hpcm, Voice.LoadFits, if_pos hpcm, Voice.segbase]
  have hsegment := v.segment_lt
  refine and_congr (or_congr_right ?_) (or_congr_right ?_)
  · split <;> omega
  · omega

theorem loadSamplesADPCM_inBounds (hadpcm : v.u8_3c ≠ 0) :
    (∀ a ∈ (loadSamplesADPCM v).1, a.InBounds) ↔ v.LoadFits := by
  have hlist : (loadSamplesADPCM v).1 = dmaCat8 v.catsrc0 ++
      adpcmDecodeFrames (loadSamplesADPCM v).2.1.toNat v.u8_3c ++
      if v.u8_3d = 0 then [] else dmaCat8 v.catsrc1 ++ adpcmDecodeFrames 0 v.u8_3d := rfl
  have hcount : v.u8_3c.toNat ≠ 0 := fun h => hadpcm (BitVec.toNat_inj.mp h)
  rw [hlist, List.forall_mem_append, List.forall_mem_append, forall_mem_unless,
    List.forall_mem_append, dmaCat8_inBounds, dmaCat8_inBounds, adpcmDecodeFrames_inBounds,
    adpcmDecodeFrames_inBounds, loadSamplesADPCM_segbase hadpcm, Voice.LoadFits, if_neg hadpcm,
    Voice.segbase, Voice.segment, if_neg hadpcm, and_assoc]
  refine and_congr_right' (and_congr ?_ (or_congr_right (and_congr_right' ?_)))
  · split <;> omega
  · omega

theorem loadSamples_inBounds : (∀ a ∈ (loadSamples v).1, a.InBounds) ↔ v.LoadFits := by
  unfold loadSamples
  split
  next hpcm => exact loadSamplesPCM16_inBounds hpcm
  next hadpcm => exact loadSamplesADPCM_inBounds hadpcm

theorem loadSamples_segbase : (loadSamples v).2.1.toNat = v.segbase := by
  unfold loadSamples
  split
  next hpcm => exact loadSamplesPCM16_segbase hpcm
  next hadpcm => exact loadSamplesADPCM_segbase hadpcm

theorem loadSamples_offset : (loadSamples v).2.2 = v.offset := by
  unfold loadSamples Voice.offset
  split
  · rfl
  · change (v.u8_3e &&& 0x1f#8).toNat = _
    rw [BitVec.toNat_and]
    exact Nat.and_two_pow_sub_one_eq_mod _ 5

end

-- ════════════════════
-- The resampler
-- ════════════════════

section

variable {v : Voice} {segbase : BitVec 32}

/-- A turn moves to the next position, and the part of a sample that is left over is in the
accumulator. -/
theorem next_sample (hbase : segbase.toNat = v.segbase) (c : Cursor) :
    (c.next v segbase).sample = v.wrapped (c.sample + (c.pitchAccu.toNat / 2 ^ 16 : ℕ)) := by
  have hlow : (v.restartPoint &&& 0x7fff#16).toNat = v.restartPoint.toNat % 0x8000 := by
    rw [BitVec.toNat_and]
    exact Nat.and_two_pow_sub_one_eq_mod _ 15
  have hhigh : v.restartPoint &&& 0x8000#16 ≠ 0 ↔ 0x8000 ≤ v.restartPoint.toNat := by
    have hlt := v.restartPoint.isLt
    rw [← BitVec.toNat_ne_iff_ne, BitVec.toNat_and,
      show (0x8000#16).toNat = 2 ^ 15 * (2 ^ 1 - 1) from rfl, Flags.and_field]
    change 2 ^ 15 * _ ≠ 0 ↔ _
    omega
  unfold Cursor.next Voice.wrapped Voice.loopEnd Voice.loopStart
  simp only [hbase, hlow, hhigh, BitVec.toNat_ushiftRight, Nat.shiftRight_eq_div_pow]

theorem next_pitchAccu (c : Cursor) :
    (c.next v segbase).pitchAccu.toNat = c.pitchAccu.toNat % 2 ^ 16 + 16 * v.pitchShift.toNat := by
  have hlt := v.pitchShift.isLt
  have hlow : (c.pitchAccu &&& 0xffff#32).toNat = c.pitchAccu.toNat % 2 ^ 16 := by
    rw [BitVec.toNat_and]
    exact Nat.and_two_pow_sub_one_eq_mod _ 16
  have hstep : (v.pitchShift.setWidth 32 <<< 4).toNat = 16 * v.pitchShift.toNat := by
    rw [BitVec.toNat_shiftLeft, BitVec.toNat_setWidth_of_le (by decide), Nat.shiftLeft_eq,
      Nat.mod_eq_of_lt (by omega), Nat.mul_comm]
  unfold Cursor.next
  simp only [BitVec.toNat_add, hlow, hstep]
  omega

/-- The cursor after `i + 1` turns. -/
theorem iterate_next (hbase : segbase.toNat = v.segbase) (i : ℕ) :
    ((Cursor.next v segbase)^[i + 1] (.init v segbase v.offset)).sample = v.position i ∧
      ((Cursor.next v segbase)^[i + 1] (.init v segbase v.offset)).pitchAccu.toNat +
        2 ^ 16 * v.advance i = v.pitchQ16.toNat + (i + 1) * (16 * v.pitchShift.toNat) := by
  have hlt := v.pitchQ16.isLt
  have hq16 : (Cursor.init v segbase v.offset).pitchAccu.toNat = v.pitchQ16.toNat :=
    BitVec.toNat_setWidth_of_le (by decide)
  induction i with
  | zero =>
    rw [Function.iterate_one, next_sample hbase, next_pitchAccu, hq16]
    have hnone : v.pitchQ16.toNat / 2 ^ 16 = 0 := Nat.div_eq_of_lt hlt
    constructor
    · rw [hnone, Cursor.init, hbase, Nat.cast_zero, add_zero, Voice.position]
    · rw [Voice.advance]
      omega
  | succ i ih =>
    obtain ⟨hsample, haccu⟩ := ih
    rw [Function.iterate_succ_apply', next_sample hbase, next_pitchAccu, hsample]
    generalize ((Cursor.next v segbase)^[i + 1] (.init v segbase v.offset)).pitchAccu.toNat = accu
      at haccu ⊢
    have hadvance : v.advance (i + 1) = accu / 2 ^ 16 + v.advance i := by
      rw [Voice.advance, ← haccu, Nat.add_mul_div_left _ _ (by decide)]
    constructor
    · rw [Voice.position, hadvance, Nat.add_sub_cancel]
    · rw [hadvance, Nat.add_one_mul (i + 1), ← Nat.add_assoc, ← haccu]
      omega

theorem mixVoiceSamples_inBounds (hbase : segbase.toNat = v.segbase) :
    (∀ a ∈ mixVoiceSamples v segbase v.offset, a.InBounds) ↔ v.ReadsFit := by
  simp only [mixVoiceSamples, List.forall_mem_map, List.mem_range]
  refine forall₂_congr fun i _ => ?_
  rw [(iterate_next hbase i).1]
  exact Iff.rfl

theorem voiceAccesses_inBounds :
    (∀ a ∈ voiceAccesses v, a.InBounds) ↔ v.LoadFits ∧ v.ReadsFit := by
  have hlist : voiceAccesses v = (loadSamples v).1 ++
      mixVoiceSamples v (loadSamples v).2.1 (loadSamples v).2.2 := rfl
  rw [hlist, List.forall_mem_append, loadSamples_inBounds, loadSamples_offset,
    mixVoiceSamples_inBounds loadSamples_segbase]

end

namespace Voice

variable {v : Voice}

/-- The pitch is less than sixteen. -/
theorem advance_succ_le (i : ℕ) : v.advance (i + 1) ≤ v.advance i + 16 := by
  have hlt := v.pitchShift.isLt
  unfold advance
  rw [Nat.add_one_mul i]
  omega

/-- A position before the end, or less than a loop after it, goes to one before the end. -/
theorem wrapped_bounds {y : ℤ} (hlow : 0 ≤ y) (hhigh : y < v.loopEnd + 16)
    (hend : v.loopEnd < 0x200) (hloop : v.loopStart + 16 ≤ v.loopEnd) :
    0 ≤ v.wrapped y ∧ v.wrapped y < v.loopEnd := by
  have hstart : 0 ≤ v.loopStart := by
    unfold loopStart
    split <;> omega
  have hdist : (y - v.loopEnd).bmod (2 ^ 32) = y - v.loopEnd :=
    Int.bmod_eq_of_le (by omega) (by omega)
  unfold wrapped
  simp only [hdist]
  split <;> omega

/-- **Sample pointer invariant**: a voice that starts before its end, with a loop of sixteen samples
or more, is read before its end. -/
theorem position_bounds (hstart : v.segbase + v.offset + v.u16_4e.toNat < v.loopEnd)
    (hend : v.loopEnd < 0x200) (hloop : v.loopStart + 16 ≤ v.loopEnd) (i : ℕ) :
    0 ≤ v.position i ∧ v.position i < v.loopEnd := by
  induction i with
  | zero => exact wrapped_bounds (by omega) (by omega) hend hloop
  | succ i ih =>
    have hstep := v.advance_succ_le i
    exact wrapped_bounds (by omega) (by omega) hend hloop

theorem readsFit_of_loop (hstart : v.segbase + v.offset + v.u16_4e.toNat < v.loopEnd)
    (hend : v.loopEnd + 2 < 0x200) (hloop : v.loopStart + 16 ≤ v.loopEnd) : v.ReadsFit := by
  intro i _
  have hbounds := position_bounds hstart (by omega) hloop i
  omega

end Voice

-- ════════════════════
-- Main results
-- ════════════════════

namespace MusyxTask

/-- The step before kept to the arrays, and the voice to come is one of 32. -/
def Sound (s : MusyxTask) : Prop :=
  s.InBounds ∧ ∀ i voicePtr, s.point = .voice i voicePtr → i < 32

variable {version : MusyxVersion} {s : MusyxTask} {left : HleMemory}

theorem sfxStageTaps_inBounds (hle : HleMemory) (sfxPtr : BitVec 32) :
    (∀ a ∈ sfxStageTaps hle sfxPtr, a.InBounds) ↔
      sfxPtr = 0 ∨ hle.dramU16 (sfxPtr + 0x08) ≤ 8 := by
  have htap : ∀ i, (MusyxAccess.tap i).InBounds ↔ i < 8 := fun _ => Iff.rfl
  have htaps := accessRange_inBounds htap 0 (hle.dramU16 (sfxPtr + 0x08)).toNat
  have hlimit : (8 : BitVec 16).toNat = 8 := rfl
  rw [sfxStageTaps, forall_mem_unless, htaps, BitVec.le_def, hlimit]
  exact or_congr_right (by omega)

/-- A step that goes on to a voice has it among its accesses. -/
theorem voice_mem_of_point {i : ℕ} {voicePtr : BitVec 32}
    (h : (s.step version left).point = .voice i voicePtr) :
    .voice i ∈ (s.step version left).accesses := by
  unfold step at h ⊢
  cases hpoint : s.point with
  | sfd =>
    simp only [hpoint] at h ⊢
    split at h
    · cases h
    · next hgo =>
      cases h
      rw [if_neg hgo]
      exact List.mem_singleton_self _
  | voice j ptr =>
    simp only [hpoint] at h ⊢
    split at h
    · cases h
    · next hgo =>
      cases h
      rw [if_neg hgo]
      exact List.mem_append_right _ (List.mem_singleton_self _)
  | effects =>
    simp only [hpoint] at h
    split at h <;> cases h
  | done =>
    simp only [hpoint] at h
    cases h

theorem step_inBounds_iff (h : s.Sound) : (s.step version left).InBounds ↔ s.Meets left := by
  unfold step InBounds Meets
  cases hpoint : s.point with
  | sfd =>
    refine iff_of_true ?_ trivial
    intro a ha
    simp only at ha
    split at ha
    · exact absurd ha List.not_mem_nil
    · rw [List.mem_singleton.mp ha]
      exact Nat.zero_lt_succ 31
  | voice i voicePtr =>
    have hi := h.2 i voicePtr hpoint
    simp only
    split
    next hlast =>
      rw [voiceAccesses_inBounds, ← and_assoc]
      exact (and_iff_left fun _ => hlast).symm
    next hmore =>
      have hvoice : (MusyxAccess.voice (i + 1)).InBounds ↔ i + 1 < 32 := Iff.rfl
      rw [List.forall_mem_append, voiceAccesses_inBounds, List.forall_mem_singleton, hvoice,
        ← and_assoc]
      refine and_congr_right' ⟨fun hlt heq => by omega, fun hlast => ?_⟩
      have hne : i ≠ 31 := fun heq => hmore (hlast heq)
      omega
  | effects => exact sfxStageTaps_inBounds s.hle s.sfxPtr
  | done => exact iff_of_true (fun a ha => absurd ha List.not_mem_nil) trivial

theorem Sound.step (h : s.Sound) (hmeets : s.Meets left) : (s.step version left).Sound := by
  have hnext : (s.step version left).InBounds := (step_inBounds_iff h).mpr hmeets
  exact ⟨hnext, fun i voicePtr hpoint => hnext _ (voice_mem_of_point hpoint)⟩

end MusyxTask

/-- A task keeps to its arrays if and only if every structure that it reads fits, whatever its
steps leave in RDRAM. -/
theorem musyx_inBounds_iff (version : MusyxVersion) (hle : HleMemory) (run : List HleMemory) :
    (∀ s ∈ Runs.visited (MusyxTask.step version) (.start hle) run, s.InBounds) ↔
      Runs.Along (MusyxTask.step version) MusyxTask.Meets (.start hle) run := by
  refine Runs.visited_iff_along_of (I := MusyxTask.Sound) (fun s h => h.1)
    (fun s left h => h.step) (fun s left h => (MusyxTask.step_inBounds_iff h).mp) ?_
  exact ⟨fun a ha => absurd ha List.not_mem_nil, fun i voicePtr h => nomatch h⟩

/-- RDRAM with a first voice of one sample that no segment is left for. -/
def oneSampleVoice : HleMemory where
  dram b := if b = 0x3e then 2 else 0
  dmem _ := 0
  imem _ := 0

/-- The sample of the voice is stored past the end of the buffer. -/
theorem one_sample_out_of_bounds : ¬∀ (version : MusyxVersion) (hle : HleMemory)
    (run : List HleMemory),
    ∀ s ∈ Runs.visited (MusyxTask.step version) (.start hle) run, s.InBounds := by
  intro h
  have hvoice := h .v1 oneSampleVoice [oneSampleVoice, oneSampleVoice] _
    (Runs.runFrom_mem_visited _ _ _) (.sample 0x200) (by decide)
  exact Nat.lt_irrefl 0x200 hvoice

end Mupen64plus
