import Mathlib.Data.Rat.Floor
import Mathlib.Tactic.FieldSimp
import Mupen64plus.Lib.Loops
import Mupen64plus.Device.ViEvents

/-!
# Audio output

`audio_backend_libretro.c` without the Apple converter: the frequency that `do_dma` hands over, and
a pushed buffer. Its two channels are exchanged in place, and its frames go to the resampler in
batches. The resampler and the frontend are parameters, and the ratio is a rational number.

## Main definitions

- `setFrequency` — the format that a value of AI_DACRATE leads to
- `swapFrames`, `audioBatch`, `aiLenChanged` — a pushed buffer
- `PlayedExactly` — every frame once and in order, within the buffers, with the memory unchanged
- `AudioExact`, `AudioFits` — no division by 0, and a buffer that is pushed twice is played exactly
  each time; and the condition for this

## Main results

- `swapFrames_ends`, `audioBatch_ends` — the two loops
- `audioExact_iff` — a buffer is played exactly if and only if the condition holds
-/

namespace Mupen64plus

-- ════════════════════
-- The frequency
-- ════════════════════

/-- `OUTPUT_RATE`. -/
def outputRate : ℕ := 44100

/-- `MAX_AUDIO_FRAMES`, as `init_audio_libretro` leaves it. -/
def maxAudioFrames : ℕ := 2048

/-- The frequency that `do_dma` computes; `none` is a division by 0. -/
def doDmaFrequency (clock dacrate : BitVec 32) : Option (BitVec 32) :=
  if dacrate = 0 then some 44100
  else if 1 + dacrate = 0 then none else some (clock / (1 + dacrate))

/-- `GameFreq`, `BytesPerSecond`, `CountsPerSecond` and `CountsPerByte`. -/
structure AudioFormat where
  gameFreq : ℤ
  bytesPerSecond : BitVec 32
  countsPerSecond : BitVec 32
  countsPerByte : BitVec 32

/-- `aiDacrateChanged`. -/
def aiDacrateChanged (frequency : BitVec 32) : Option AudioFormat :=
  let bytesPerSecond := frequency * 4
  let countsPerSecond : BitVec 32 := 500000 * 60
  if bytesPerSecond = 0 then none
  else some ⟨frequency.toInt, bytesPerSecond, countsPerSecond, countsPerSecond / bytesPerSecond⟩

/-- `set_audio_format_via_libretro`; it puts AI_DACRATE back. -/
def setAudioFormat (frequency : BitVec 32) : Option AudioFormat :=
  if frequency = 0 then none else aiDacrateChanged frequency

/-- The format that `do_dma` sets. -/
def setFrequency (clock dacrate : BitVec 32) : Option AudioFormat :=
  (doDmaFrequency clock dacrate).bind setAudioFormat

-- ════════════════════
-- A pushed buffer
-- ════════════════════

/-- RDRAM by bytes, as the host addresses it. -/
abbrev HostBytes : Type := ℕ → BitVec 8

/-- `p[a] ^= p[b]`. -/
def xorInto (m : HostBytes) (a b : ℕ) : HostBytes :=
  Function.update m a (m a ^^^ m b)

/-- The three assignments that exchange two bytes. -/
def xorSwap (m : HostBytes) (a b : ℕ) : HostBytes :=
  xorInto (xorInto (xorInto m a b) b a) a b

/-- One turn of the swap loop. -/
def swapTurn (p : ℕ) (s : BitVec 32 × HostBytes) : BitVec 32 × HostBytes :=
  let i := p + s.1.toNat
  (s.1 + 4, xorSwap (xorSwap s.2 i (i + 2)) (i + 1) (i + 3))

/-- `for (i = 0; i < size; i += 4)`. -/
def swapFrames (p : ℕ) (size : BitVec 32) (m : HostBytes) (fuel : ℕ) : Option HostBytes :=
  (whileLoop (fun s => s.1 < size) (swapTurn p) fuel (0, m)).map Prod.snd

/-- A frame of two samples. -/
abbrev AudioFrame : Type := BitVec 16 × BitVec 16

/-- `raw_data[j]`, where `raw_data` points to `raw`. -/
def rawData (m : HostBytes) (raw j : ℕ) : BitVec 16 :=
  m (raw + 2 * j + 1) ++ m (raw + 2 * j)

/-- The frames `raw_data` points to. -/
def rawFrames (m : HostBytes) (raw frames : ℕ) : List AudioFrame :=
  (List.range frames).map fun k => (rawData m raw (2 * k), rawData m raw (2 * k + 1))

/-- `retro_resampler_t`, between the two conversions: it outputs at most `input_frames * ratio + 1`
frames. -/
structure AudioResampler where
  State : Type
  Float : Type
  s16ToFloat : BitVec 16 → Float
  floatToS16 : Float → BitVec 16
  process : State → ℚ → List (Float × Float) → List (Float × Float) × State
  length_le : ∀ s ratio input, 0 < ratio →
    ((process s ratio input).1.length : ℚ) ≤ input.length * ratio + 1

/-- `audio_batch_cb`: the number of frames that the frontend takes of those it is offered, at least
one. -/
structure AudioFrontend where
  State : Type
  batch : State → List AudioFrame → ℕ × State
  batch_pos : ∀ s out, out ≠ [] → 0 < (batch s out).1
  batch_le : ∀ s out, (batch s out).1 ≤ out.length

/-- What one pass of the batch loop writes to the three buffers. -/
structure AudioBatch where
  input : List AudioFrame
  output : List AudioFrame

section

variable (R : AudioResampler) (F : AudioFrontend)

/-- The state of the resampler and of the frontend. -/
structure AudioSinks where
  resampler : R.State
  frontend : F.State

variable {R F}

/-- The resampler with the conversions around it. -/
def AudioResampler.resample (R : AudioResampler) (s : R.State) (ratio : ℚ)
    (input : List AudioFrame) : List AudioFrame × R.State :=
  let r := R.process s ratio (input.map (Prod.map R.s16ToFloat R.s16ToFloat))
  (r.1.map (Prod.map R.floatToS16 R.floatToS16), r.2)

/-- One call of `audio_batch_cb`. -/
def AudioFrontend.sendTurn (F : AudioFrontend) (t : List AudioFrame × F.State) :
    List AudioFrame × F.State :=
  (t.1.drop (F.batch t.2 t.1).1, (F.batch t.2 t.1).2)

/-- `while (data.output_frames)`, with `libretro_audio_enabled`. -/
def AudioFrontend.send (F : AudioFrontend) (enabled : Bool) (out : List AudioFrame) (s : F.State)
    (fuel : ℕ) : Option F.State :=
  (whileLoop (fun t => t.1 ≠ [] ∧ enabled) F.sendTurn fuel (out, s)).map Prod.snd

/-- `ratio`. -/
def audioRatio (gameFreq : ℤ) : ℚ := 44100 / gameFreq

/-- `max_frames`; the conversion to an integer goes towards 0. -/
def maxFrames (gameFreq : ℤ) : ℕ :=
  if 44100 < gameFreq then maxAudioFrames
  else ⌊(maxAudioFrames : ℚ) / audioRatio gameFreq - 1⌋.toNat

/-- The three conversions of one pass. -/
def audioPass (R : AudioResampler) (gameFreq : ℤ) (m : HostBytes) (raw frames : ℕ) (s : R.State) :
    AudioBatch × R.State :=
  let input := rawFrames m raw frames
  let r := R.resample s (audioRatio gameFreq) input
  (⟨input, r.1⟩, r.2)

/-- The loop from the label `audio_batch` on, with `frames` frames left behind `raw`. -/
def audioBatch (enabled : Bool) (gameFreq : ℤ) (m : HostBytes) :
    ℕ → ℕ → AudioSinks R F → ℕ → Option (List AudioBatch × AudioSinks R F)
  | _, _, _, 0 => none
  | raw, frames, s, fuel + 1 =>
    let max := maxFrames gameFreq
    let remain := if max < frames then frames - max else 0
    let frames := if max < frames then max else frames
    let pass := audioPass R gameFreq m raw frames s.resampler
    (F.send enabled pass.1.output s.frontend fuel).bind fun frontend =>
      if remain = 0 then some ([pass.1], ⟨pass.2, frontend⟩)
      else
        (audioBatch enabled gameFreq m (raw + 4 * frames) remain ⟨pass.2, frontend⟩ fuel).map
          fun t => (pass.1 :: t.1, t.2)

variable (R F) in
/-- What a pushed buffer leads to. -/
structure AudioPlayed where
  memory : HostBytes
  batches : List AudioBatch
  sinks : AudioSinks R F

/-- `aiLenChanged`. -/
def aiLenChanged (enabled : Bool) (gameFreq : ℤ) (p : ℕ) (size : BitVec 32) (m : HostBytes)
    (s : AudioSinks R F) (fuel : ℕ) : Option (AudioPlayed R F) :=
  (swapFrames p size m fuel).bind fun m =>
    (audioBatch enabled gameFreq m p (size.toNat / 4) s fuel).map fun t => ⟨m, t.1, t.2⟩

-- ════════════════════
-- What a buffer should lead to
-- ════════════════════

/-- Frame `k` of a buffer, left channel first: the upper half of a word of RDRAM, then the lower
one. -/
def guestFrame (m : HostBytes) (p k : ℕ) : AudioFrame :=
  (m (p + 4 * k + 3) ++ m (p + 4 * k + 2), m (p + 4 * k + 1) ++ m (p + 4 * k))

def guestFrames (m : HostBytes) (p frames : ℕ) : List AudioFrame :=
  (List.range frames).map (guestFrame m p)

/-- The bytes of RDRAM, on a little-endian host. -/
def hostBytes (m : Words) : HostBytes := fun a => (m (a / 4)).extractLsb' (8 * (a % 4)) 8

/-- The frames that the resampler is given. -/
def AudioPlayed.frames (r : AudioPlayed R F) : List AudioFrame :=
  r.batches.flatMap AudioBatch.input

/-- Every frame of the buffer goes to the resampler once and in order, the three buffers hold what
is written to them, and the memory is as it was. -/
structure PlayedExactly (m : HostBytes) (p : ℕ) (size : BitVec 32) (r : AudioPlayed R F) :
    Prop where
  frames : r.frames = guestFrames m p (size.toNat / 4)
  inBuffer : ∀ b ∈ r.batches, 2 * b.input.length ≤ 2 * maxAudioFrames
  outBuffers : ∀ b ∈ r.batches, 2 * b.output.length ≤ 2 * maxAudioFrames
  memory : r.memory = m

/-- No division by 0, the buffer is played exactly, and when it is pushed again the resampler is
given the same frames. -/
def AudioExact (clock dacrate : BitVec 32) (enabled : Bool) (p : ℕ) (size : BitVec 32)
    (m : HostBytes) (s : AudioSinks R F) : Prop :=
  ∃ format, setFrequency clock dacrate = some format ∧
    ∃ r, Ends (aiLenChanged enabled format.gameFreq p size m s) r ∧ PlayedExactly m p size r ∧
      ∃ again, Ends (aiLenChanged enabled format.gameFreq p size r.memory r.sinks) again ∧
        again.frames = r.frames

/-- The frequency, in the integers. -/
def audioFrequency (clock dacrate : BitVec 32) : ℕ :=
  if dacrate = 0 then outputRate else clock.toNat / (dacrate.toNat + 1)

/-- The frequency is not 0, the counter of the swap loop does not wrap, a batch holds a frame if
there is one, and both channels are equal in every frame that the swap loop touches. -/
structure AudioFits (clock dacrate : BitVec 32) (p : ℕ) (size : BitVec 32) (m : HostBytes) :
    Prop where
  frequency : dacrate.toNat < clock.toNat
  counter : size.toNat ≤ 0xfffffffc
  batch : 4 ≤ size.toNat → 2 * outputRate ≤ maxAudioFrames * audioFrequency clock dacrate
  mono : ∀ k, 4 * k < size.toNat → (guestFrame m p k).1 = (guestFrame m p k).2


-- ════════════════════
-- The swap loop
-- ════════════════════

section

variable {p n : ℕ} {size : BitVec 32} {m : HostBytes}

theorem xor_xor_cancel (x y : BitVec 8) : y ^^^ (x ^^^ y) = x := by
  rw [BitVec.xor_comm x y, ← BitVec.xor_assoc, BitVec.xor_self, BitVec.zero_xor]

theorem xorSwap_apply (m : HostBytes) {a b : ℕ} (hab : a ≠ b) (x : ℕ) :
    xorSwap m a b x = if x = a then m b else if x = b then m a else m x := by
  have hsecond : m b ^^^ (m a ^^^ m b) = m a := xor_xor_cancel _ _
  have hthird : m a ^^^ m b ^^^ m a = m b := by
    rw [BitVec.xor_comm (m a) (m b), BitVec.xor_assoc, BitVec.xor_self, BitVec.xor_zero]
  unfold xorSwap xorInto
  by_cases ha : x = a
  · subst ha
    simp only [Function.update_self, Function.update_of_ne hab, Function.update_of_ne hab.symm,
      if_true, hsecond, hthird]
  · rw [Function.update_of_ne ha, if_neg ha]
    by_cases hb : x = b
    · subst hb
      simp only [Function.update_self, Function.update_of_ne hab.symm, if_true, hsecond]
    · rw [Function.update_of_ne hb, Function.update_of_ne ha, if_neg hb]

/-- The bytes with the halves of the first `n` words exchanged. -/
def swapped (p n : ℕ) (m : HostBytes) : HostBytes := fun a =>
  if p ≤ a ∧ a < p + 4 * n then m (p + (a - p) / 4 * 4 + (a - p + 2) % 4) else m a

theorem swapped_zero : swapped p 0 m = m := by
  funext a
  exact if_neg (by omega)

theorem swapped_at {k j : ℕ} (hk : k < n) (hj : j < 4) :
    swapped p n m (p + 4 * k + j) = m (p + 4 * k + (j + 2) % 4) := by
  unfold swapped
  rw [if_pos (by omega)]
  congr 1
  omega

theorem swapped_beyond {a : ℕ} (h : ¬(p ≤ a ∧ a < p + 4 * n)) : swapped p n m a = m a :=
  if_neg h

/-- The two exchanges of one turn. -/
theorem swapped_succ :
    xorSwap (xorSwap (swapped p n m) (p + 4 * n) (p + 4 * n + 2)) (p + 4 * n + 1)
      (p + 4 * n + 3) = swapped p (n + 1) m := by
  funext a
  rw [xorSwap_apply _ (by omega), xorSwap_apply _ (by omega), xorSwap_apply _ (by omega),
    xorSwap_apply _ (by omega)]
  by_cases hin : p + 4 * n ≤ a ∧ a < p + 4 * n + 4
  · obtain ⟨j, hj, rfl⟩ : ∃ j, j < 4 ∧ a = p + 4 * n + j := ⟨a - (p + 4 * n), by omega, by omega⟩
    rw [swapped_at n.lt_succ_self hj]
    have hbeyond : ∀ i, swapped p n m (p + 4 * n + i) = m (p + 4 * n + i) := fun i =>
      swapped_beyond (by omega)
    have hzero := hbeyond 0
    rw [Nat.add_zero] at hzero
    interval_cases j <;> simp [hbeyond, hzero]
  · rw [if_neg (by omega), if_neg (by omega), if_neg (by omega), if_neg (by omega)]
    unfold swapped
    by_cases hbefore : p ≤ a ∧ a < p + 4 * n
    · rw [if_pos hbefore, if_pos (by omega)]
    · rw [if_neg hbefore, if_neg (by omega)]

theorem swapTurn_fst (s : BitVec 32 × HostBytes) : (swapTurn p s).1 = s.1 + 4 := rfl

theorem swapTurn_snd (s : BitVec 32 × HostBytes) :
    (swapTurn p s).2 = xorSwap (xorSwap s.2 (p + s.1.toNat) (p + s.1.toNat + 2))
      (p + s.1.toNat + 1) (p + s.1.toNat + 3) := rfl

theorem iterate_swapTurn_fst (n : ℕ) :
    ((swapTurn p)^[n] (0, m)).1 = BitVec.ofNat 32 (4 * n) := by
  induction n with
  | zero => rfl
  | succ n ih =>
    rw [Function.iterate_succ_apply', swapTurn_fst, ih, Nat.mul_succ, BitVec.ofNat_add]
    rfl

theorem iterate_swapTurn (hn : 4 * n ≤ 2 ^ 32) :
    (swapTurn p)^[n] (0, m) = (BitVec.ofNat 32 (4 * n), swapped p n m) := by
  refine Prod.ext (iterate_swapTurn_fst n) ?_
  induction n with
  | zero => exact swapped_zero.symm
  | succ n ih =>
    have hi : (BitVec.ofNat 32 (4 * n)).toNat = 4 * n := by
      rw [BitVec.toNat_ofNat, Nat.mod_eq_of_lt (by omega)]
    have hsnd := ih (by omega)
    dsimp only at hsnd ⊢
    rw [Function.iterate_succ_apply', swapTurn_snd, hsnd, iterate_swapTurn_fst, hi]
    exact swapped_succ

/-- The turns of the loop; it rounds the size up. -/
def swapTurns (size : BitVec 32) : ℕ := (size.toNat + 3) / 4

theorem swapFrames_ends (hsize : size.toNat ≤ 0xfffffffc) :
    Ends (swapFrames p size m) (swapped p (swapTurns size) m) := by
  refine ⟨swapTurns size, fun fuel => ?_⟩
  have hn : 4 * swapTurns size ≤ 0xfffffffc := by unfold swapTurns; omega
  have htoNat : ∀ n ≤ swapTurns size, (BitVec.ofNat 32 (4 * n)).toNat = 4 * n := fun n hle => by
    rw [BitVec.toNat_ofNat, Nat.mod_eq_of_lt (by omega)]
  have hgo : ∀ i < swapTurns size, decide (((swapTurn p)^[i] (0, m)).1 < size) = true := by
    intro i hi
    rw [decide_eq_true_eq, iterate_swapTurn_fst, BitVec.lt_def, htoNat i hi.le]
    unfold swapTurns at hi
    omega
  have hstop : ¬decide (((swapTurn p)^[swapTurns size] (0, m)).1 < size) = true := by
    rw [decide_eq_true_eq, iterate_swapTurn_fst, BitVec.lt_def, htoNat _ le_rfl]
    unfold swapTurns
    omega
  unfold swapFrames
  rw [whileLoop_eq hgo hstop, iterate_swapTurn (by omega)]
  split <;> rfl

/-- Beyond this size the counter wraps before it reaches the size. -/
theorem swapFrames_eq_none (hsize : 0xfffffffc < size.toNat) (fuel : ℕ) :
    swapFrames p size m fuel = none := by
  have hgo : ∀ i, decide (((swapTurn p)^[i] (0, m)).1 < size) = true := by
    intro i
    rw [decide_eq_true_eq, iterate_swapTurn_fst, BitVec.lt_def, BitVec.toNat_ofNat]
    omega
  unfold swapFrames
  rw [whileLoop_eq_none hgo, Option.map_none]

theorem rawFrames_swapped {frames : ℕ} (hle : frames ≤ n) :
    rawFrames (swapped p n m) p frames = guestFrames m p frames := by
  apply List.map_congr_left
  intro k hk
  have hkn : k < n := (List.mem_range.1 hk).trans_le hle
  have hat : ∀ i j, j < 4 → i = p + 4 * k + j →
      swapped p n m i = m (p + 4 * k + (j + 2) % 4) := by
    rintro _ j hj rfl
    exact swapped_at hkn hj
  unfold rawData guestFrame
  rw [hat (p + 2 * (2 * k)) 0 (by omega) (by omega),
    hat (p + 2 * (2 * k) + 1) 1 (by omega) (by omega),
    hat (p + 2 * (2 * k + 1)) 2 (by omega) (by omega),
    hat (p + 2 * (2 * k + 1) + 1) 3 (by omega) (by omega)]
  rfl

/-- A frame is the two halves of a word of RDRAM. -/
theorem guestFrame_hostBytes (w : Words) (i k : ℕ) :
    guestFrame (hostBytes w) (4 * i) k =
      ((w (i + k)).extractLsb' 16 16, (w (i + k)).extractLsb' 0 16) := by
  have hbyte : ∀ j < 4, hostBytes w (4 * i + 4 * k + j) = (w (i + k)).extractLsb' (8 * j) 8 := by
    intro j hj
    unfold hostBytes
    rw [show (4 * i + 4 * k + j) / 4 = i + k by omega, show (4 * i + 4 * k + j) % 4 = j by omega]
  unfold guestFrame
  rw [hbyte 3 (by omega), hbyte 2 (by omega), hbyte 1 (by omega), ← Nat.add_zero (4 * i + 4 * k),
    hbyte 0 (by omega)]
  exact Prod.ext (BitVec.extractLsb'_append_extractLsb'_eq_extractLsb' rfl)
    (BitVec.extractLsb'_append_extractLsb'_eq_extractLsb' rfl)

theorem append_eq_append_iff {a b c d : BitVec 8} : a ++ b = c ++ d ↔ a = c ∧ b = d := by
  constructor
  · intro h
    have hhigh := congrArg (BitVec.extractLsb' 8 8) h
    have hlow := congrArg (BitVec.extractLsb' 0 8) h
    rw [BitVec.extractLsb'_append_eq_left, BitVec.extractLsb'_append_eq_left] at hhigh
    rw [BitVec.extractLsb'_append_eq_right, BitVec.extractLsb'_append_eq_right] at hlow
    exact ⟨hhigh, hlow⟩
  · rintro ⟨rfl, rfl⟩
    rfl

/-- The exchange changes nothing exactly where both channels are equal. -/
theorem swapped_eq_iff :
    swapped p n m = m ↔ ∀ k < n, (guestFrame m p k).1 = (guestFrame m p k).2 := by
  unfold guestFrame
  simp only [append_eq_append_iff]
  constructor
  · intro h k hk
    have hat : ∀ j < 4, m (p + 4 * k + (j + 2) % 4) = m (p + 4 * k + j) := fun j hj => by
      have hswapped := swapped_at (p := p) (m := m) hk hj
      rw [h] at hswapped
      exact hswapped.symm
    exact ⟨hat 1 (by omega), hat 0 (by omega)⟩
  · intro h
    funext a
    by_cases hin : p ≤ a ∧ a < p + 4 * n
    · obtain ⟨k, j, hj, rfl⟩ : ∃ k j, j < 4 ∧ a = p + 4 * k + j :=
        ⟨(a - p) / 4, (a - p) % 4, by omega, by omega⟩
      have hk : k < n := by omega
      rw [swapped_at hk hj]
      obtain ⟨hhigh, hlow⟩ := h k hk
      interval_cases j
      · exact hlow
      · exact hhigh
      · exact hlow.symm
      · exact hhigh.symm
    · exact swapped_beyond hin

end

-- ════════════════════
-- The batches
-- ════════════════════

section

variable {R : AudioResampler} {F : AudioFrontend} {enabled : Bool} {f raw frames : ℕ}
  {m : HostBytes}
  {s : AudioSinks R F}

theorem maxFrames_eq (f : ℕ) (hf : 0 < f) :
    maxFrames f = if 44100 < f then 2048 else 2048 * f / 44100 - 1 := by
  have hcast : (44100 < (f : ℤ)) ↔ 44100 < f := by norm_cast
  have hne : (f : ℚ) ≠ 0 := by positivity
  have hquot : (maxAudioFrames : ℚ) / audioRatio f = ((2048 * f : ℕ) : ℚ) / (44100 : ℕ) := by
    unfold audioRatio maxAudioFrames
    push_cast
    field_simp
  unfold maxFrames
  simp only [hcast]
  split
  · rfl
  · rw [hquot, Int.floor_sub_one, Rat.floor_natCast_div_natCast]
    omega

/-- The resampler never fills more than the output buffer. -/
theorem resample_length_le (hf : 0 < f) (t : R.State) {input : List AudioFrame}
    (hlength : input.length ≤ maxFrames f) :
    (R.resample t (audioRatio f) input).1.length ≤ maxAudioFrames := by
  have hpos : (0 : ℚ) < f := by exact_mod_cast hf
  have hratio : 0 < audioRatio f := by
    unfold audioRatio
    push_cast
    positivity
  have hless : input.length * 44100 < 2048 * f := by
    rw [maxFrames_eq f hf] at hlength
    split at hlength
    · omega
    · omega
  have hlong : (input.length : ℚ) * audioRatio f < 2048 := by
    unfold audioRatio
    push_cast
    rw [mul_div_assoc', div_lt_iff₀ hpos]
    exact_mod_cast hless
  have hle := R.length_le t (audioRatio f) (input.map (Prod.map R.s16ToFloat R.s16ToFloat)) hratio
  rw [List.length_map] at hle
  unfold AudioResampler.resample maxAudioFrames
  rw [List.length_map]
  have hlt : ((R.process t (audioRatio f)
      (input.map (Prod.map R.s16ToFloat R.s16ToFloat))).1.length : ℚ) < (2049 : ℕ) := by
    push_cast
    linarith
  have hnat := Nat.cast_lt.1 hlt
  omega

theorem AudioFrontend.send_ends (enabled : Bool) (out : List AudioFrame) (t : F.State) :
    ∃ t', Ends (F.send enabled out t) t' := by
  have hless : ∀ t : List AudioFrame × F.State, decide (t.1 ≠ [] ∧ enabled) = true →
      (F.sendTurn t).1.length < t.1.length := fun t ht => by
    have hne : t.1 ≠ [] := (of_decide_eq_true ht).1
    have hpos := F.batch_pos t.2 t.1 hne
    have hlength := List.length_pos_iff.2 hne
    unfold AudioFrontend.sendTurn
    rw [List.length_drop]
    omega
  obtain ⟨last, hlast⟩ := whileLoop_ends (fun t => t.1.length) hless (out, t)
  exact ⟨last.2, hlast.map Prod.snd⟩

theorem rawData_add (raw a j : ℕ) : rawData m raw (2 * a + j) = rawData m (raw + 4 * a) j := by
  unfold rawData
  rw [show raw + 2 * (2 * a + j) = raw + 4 * a + 2 * j by omega]

theorem rawFrames_add (raw a b : ℕ) :
    rawFrames m raw (a + b) = rawFrames m raw a ++ rawFrames m (raw + 4 * a) b := by
  unfold rawFrames
  rw [List.range_add, List.map_append, List.map_map]
  congr 1
  apply List.map_congr_left
  intro k _
  simp only [Function.comp_apply]
  rw [Nat.mul_add, Nat.add_assoc, rawData_add, rawData_add]

theorem rawFrames_length : (rawFrames m raw frames).length = frames := by
  unfold rawFrames
  rw [List.length_map, List.length_range]

/-- The batch loop ends if a batch holds a frame, and the batches are the frames in order. -/
theorem audioBatch_ends (enabled : Bool) (raw : ℕ) (m : HostBytes) (s : AudioSinks R F)
    (hpos : 0 < frames → 0 < maxFrames f) :
    ∃ t, Ends (audioBatch enabled f m raw frames s) t ∧
      t.1.flatMap AudioBatch.input = rawFrames m raw frames ∧
      ∀ b ∈ t.1, b.input.length ≤ maxFrames f ∧
        ∃ u, b.output = (R.resample u (audioRatio f) b.input).1 := by
  induction frames using Nat.strong_induction_on generalizing raw s with
  | _ frames ih =>
    by_cases hmore : maxFrames f < frames
    · have hmax := hpos (by omega)
      let pass := audioPass R f m raw (maxFrames f) s.resampler
      obtain ⟨frontend, hsend⟩ := F.send_ends enabled pass.1.output s.frontend
      obtain ⟨t, hends, hframes, hbatches⟩ := @ih (frames - maxFrames f) (by omega)
        (raw + 4 * maxFrames f) ⟨pass.2, frontend⟩ fun _ => hmax
      refine ⟨(pass.1 :: t.1, t.2), (hsend.bind (g := fun frontend fuel =>
        (audioBatch enabled f m (raw + 4 * maxFrames f) (frames - maxFrames f)
          ⟨pass.2, frontend⟩ fuel).map fun t => (pass.1 :: t.1, t.2))
        (hends.map _)).succ rfl fun fuel => ?_, ?_, ?_⟩
      · rw [audioBatch]
        simp only [if_pos hmore, if_neg (Nat.sub_ne_zero_of_lt hmore)]
        rfl
      · rw [List.flatMap_cons, hframes]
        change rawFrames m raw (maxFrames f) ++ _ = _
        rw [← rawFrames_add, Nat.add_sub_cancel' hmore.le]
      · rw [List.forall_mem_cons]
        exact ⟨⟨rawFrames_length.le, _, rfl⟩, hbatches⟩
    · let pass := audioPass R f m raw frames s.resampler
      obtain ⟨frontend, hsend⟩ := F.send_ends enabled pass.1.output s.frontend
      refine ⟨([pass.1], ⟨pass.2, frontend⟩), (hsend.map fun frontend =>
        ([pass.1], (⟨pass.2, frontend⟩ : AudioSinks R F))).succ rfl fun fuel => ?_, ?_, ?_⟩
      · rw [audioBatch]
        simp only [if_neg hmore, if_true]
        exact Option.map_eq_bind.symm
      · simp only [List.flatMap_cons, List.flatMap_nil, List.append_nil]
        rfl
      · rw [List.forall_mem_singleton]
        exact ⟨rawFrames_length.trans_le (not_lt.1 hmore), _, rfl⟩

/-- A batch that holds no frame comes again and again. -/
theorem audioBatch_eq_none (hmax : maxFrames f = 0) (hframes : 0 < frames) (fuel : ℕ) :
    audioBatch enabled f m raw frames s fuel = none := by
  induction fuel generalizing raw s with
  | zero => rfl
  | succ fuel ih =>
    rw [audioBatch]
    simp only [hmax, if_pos hframes, Nat.sub_zero, if_neg hframes.ne', ih, Option.map_none,
      Option.bind_fun_none]

end

-- ════════════════════
-- Pushed buffers
-- ════════════════════

section

variable {R : AudioResampler} {F : AudioFrontend} {enabled : Bool} {clock dacrate size : BitVec 32}
  {p : ℕ} {m : HostBytes} {s : AudioSinks R F}

theorem audioFrequency_pos (h : dacrate.toNat < clock.toNat) :
    0 < audioFrequency clock dacrate := by
  unfold audioFrequency
  split
  · decide
  · exact Nat.div_pos h (Nat.succ_pos _)

theorem one_add_toNat (h : dacrate.toNat < clock.toNat) :
    (1 + dacrate).toNat = dacrate.toNat + 1 := by
  have hclock := clock.isLt
  have hone : (1 : BitVec 32).toNat = 1 := rfl
  rw [BitVec.toNat_add, hone]
  omega

theorem setAudioFormat_eq {frequency : BitVec 32} (hpos : 0 < frequency.toNat)
    (hlt : frequency.toNat < 2 ^ 29) :
    ∃ format, setAudioFormat frequency = some format ∧ format.gameFreq = frequency.toNat := by
  have hne : frequency ≠ 0 := fun h => by
    rw [h] at hpos
    exact absurd hpos (by decide)
  have hbytes : frequency * 4 ≠ 0 := fun h => by
    have hnat := congrArg BitVec.toNat h
    have hfour : (4 : BitVec 32).toNat = 4 := rfl
    have hzero : (0 : BitVec 32).toNat = 0 := rfl
    rw [BitVec.toNat_mul, hfour, hzero] at hnat
    omega
  unfold setAudioFormat aiDacrateChanged
  dsimp only
  rw [if_neg hne, if_neg hbytes]
  exact ⟨_, rfl, BitVec.toInt_eq_toNat_of_lt (by omega)⟩

theorem setFrequency_eq (hclock : clock.toNat < 2 ^ 29) (h : dacrate.toNat < clock.toNat) :
    ∃ format, setFrequency clock dacrate = some format ∧
      format.gameFreq = audioFrequency clock dacrate := by
  have hpos := audioFrequency_pos h
  have hone := one_add_toNat h
  unfold setFrequency doDmaFrequency
  unfold audioFrequency at hpos ⊢
  by_cases hzero : dacrate = 0
  · simp only [if_pos hzero, Option.bind_some] at hpos ⊢
    exact setAudioFormat_eq (by decide) (by decide)
  · have hne : 1 + dacrate ≠ 0 := fun hwrap => by
      rw [hwrap] at hone
      exact absurd hone (Nat.succ_ne_zero _).symm
    simp only [if_neg hzero, if_neg hne, Option.bind_some] at hpos ⊢
    have hfrequency : (clock / (1 + dacrate)).toNat = clock.toNat / (dacrate.toNat + 1) := by
      rw [BitVec.toNat_udiv, hone]
    rw [← hfrequency] at hpos ⊢
    have hle := Nat.div_le_self clock.toNat (dacrate.toNat + 1)
    exact setAudioFormat_eq hpos (by omega)

/-- From the clock on, AI_DACRATE leads to a division by 0. -/
theorem setFrequency_eq_none (hclock : 0 < clock.toNat) (h : clock.toNat ≤ dacrate.toNat) :
    setFrequency clock dacrate = none := by
  have hzero : dacrate ≠ 0 := fun hzero => by
    rw [hzero] at h
    exact absurd h (not_le.2 hclock)
  unfold setFrequency doDmaFrequency
  rw [if_neg hzero]
  split
  · rfl
  · next hne =>
    have hone : (1 : BitVec 32).toNat = 1 := rfl
    have hadd : (1 + dacrate).toNat = dacrate.toNat + 1 := by
      have hnat : (1 + dacrate).toNat ≠ 0 := fun hnat => hne (BitVec.eq_of_toNat_eq hnat)
      have hlt := dacrate.isLt
      rw [BitVec.toNat_add, hone] at hnat ⊢
      omega
    have hquot : clock / (1 + dacrate) = 0 := by
      apply BitVec.eq_of_toNat_eq
      rw [BitVec.toNat_udiv, hadd]
      exact Nat.div_eq_of_lt (by omega)
    rw [Option.bind_some, hquot]
    rfl

/-- The frequency is the one that the model of the device records. -/
theorem doDmaFrequency_eq {d : Device} {frequency : BitVec 32}
    (hchanged : d.ai.samplesFormatChanged ≠ 0)
    (h : doDmaFrequency d.vi.clock (d.ai.regs .dacrate) = some frequency) :
    d.aiFormat.ai.frequency = frequency := by
  unfold Device.aiFormat
  rw [if_pos hchanged]
  unfold doDmaFrequency at h
  split at h
  · next hzero => exact (if_pos hzero).trans (Option.some_inj.1 h)
  · next hzero =>
    split at h
    · exact absurd h nofun
    · exact (if_neg hzero).trans (Option.some_inj.1 h)

theorem maxFrames_pos {f : ℕ} (hf : 0 < f) :
    0 < maxFrames f ↔ 2 * outputRate ≤ maxAudioFrames * f := by
  rw [maxFrames_eq f hf]
  unfold outputRate maxAudioFrames
  split
  · omega
  · omega

theorem maxFrames_le {f : ℕ} (hf : 0 < f) : maxFrames f ≤ maxAudioFrames := by
  rw [maxFrames_eq f hf]
  unfold maxAudioFrames
  split
  · omega
  · omega

/-- What a buffer leads to: all its frames in order, within the buffers, and the memory swapped. -/
theorem aiLenChanged_ends {f : ℕ} (hf : 0 < f) (hcounter : size.toNat ≤ 0xfffffffc)
    (hbatch : 4 ≤ size.toNat → 0 < maxFrames f) (enabled : Bool) (p : ℕ) (m : HostBytes)
    (s : AudioSinks R F) :
    ∃ r, Ends (aiLenChanged enabled f p size m s) r ∧
      r.frames = guestFrames m p (size.toNat / 4) ∧
      (∀ b ∈ r.batches, 2 * b.input.length ≤ 2 * maxAudioFrames) ∧
      (∀ b ∈ r.batches, 2 * b.output.length ≤ 2 * maxAudioFrames) ∧
      r.memory = swapped p (swapTurns size) m := by
  obtain ⟨t, hends, hframes, hbatches⟩ := audioBatch_ends enabled p
    (swapped p (swapTurns size) m) s (fun hframes => hbatch (by omega) : 0 < size.toNat / 4 → _)
  refine ⟨⟨swapped p (swapTurns size) m, t.1, t.2⟩, (swapFrames_ends hcounter).bind (hends.map _),
    hframes.trans (rawFrames_swapped ?_), fun b hb => ?_, fun b hb => ?_, rfl⟩
  · unfold swapTurns
    omega
  · obtain ⟨hlength, -⟩ := hbatches b hb
    exact Nat.mul_le_mul_left 2 (hlength.trans (maxFrames_le hf))
  · obtain ⟨hlength, u, houtput⟩ := hbatches b hb
    rw [houtput]
    exact Nat.mul_le_mul_left 2 (resample_length_le hf u hlength)

theorem aiLenChanged_eq_none {f : ℕ}
    (h : 0xfffffffc < size.toNat ∨ (4 ≤ size.toNat ∧ maxFrames f = 0)) (fuel : ℕ) :
    aiLenChanged enabled f p size m s fuel = none := by
  unfold aiLenChanged
  obtain hwrap | ⟨hsize, hmax⟩ := h
  · rw [swapFrames_eq_none hwrap, Option.bind_none]
  · simp only [audioBatch_eq_none hmax (show 0 < size.toNat / 4 by omega), Option.map_none,
      Option.bind_fun_none]

theorem lt_swapTurns {k : ℕ} : k < swapTurns size ↔ 4 * k < size.toNat := by
  unfold swapTurns
  omega

theorem AudioFits.exact (hclock : clock.toNat < 2 ^ 29)
    (h : AudioFits clock dacrate p size m) (enabled : Bool) (s : AudioSinks R F) :
    AudioExact clock dacrate enabled p size m s := by
  have hf := audioFrequency_pos h.frequency
  have hbatch := fun hsize => (maxFrames_pos hf).2 (h.batch hsize)
  have hswapped : swapped p (swapTurns size) m = m :=
    swapped_eq_iff.2 fun k hk => h.mono k (lt_swapTurns.1 hk)
  obtain ⟨format, hformat, hfreq⟩ := setFrequency_eq hclock h.frequency
  obtain ⟨r, hends, hframes, hin, hout, hmemory⟩ :=
    aiLenChanged_ends hf h.counter hbatch enabled p m s
  obtain ⟨again, hagain, hframes', -⟩ :=
    aiLenChanged_ends hf h.counter hbatch enabled p r.memory r.sinks
  rw [hswapped] at hmemory
  rw [← hfreq] at hends hagain
  refine ⟨format, hformat, r, hends, ⟨hframes, hin, hout, hmemory⟩, again, hagain, ?_⟩
  rw [hframes', hmemory, hframes]

theorem AudioExact.fits (hpos : 0 < clock.toNat) (hclock : clock.toNat < 2 ^ 29)
    (h : AudioExact clock dacrate enabled p size m s) : AudioFits clock dacrate p size m := by
  obtain ⟨format, hformat, r, hends, hexact, -⟩ := h
  have hfrequency : dacrate.toNat < clock.toNat := by
    by_contra hge
    rw [setFrequency_eq_none hpos (not_lt.1 hge)] at hformat
    exact absurd hformat nofun
  have hf := audioFrequency_pos hfrequency
  obtain ⟨_, hformat', hfreq⟩ := setFrequency_eq hclock hfrequency
  obtain rfl := Option.some_inj.1 (hformat'.symm.trans hformat)
  rw [hfreq] at hends
  obtain ⟨fuel, hfuel⟩ := hends.ne_none
  have hcounter : size.toNat ≤ 0xfffffffc := by
    by_contra hwrap
    exact hfuel (aiLenChanged_eq_none (.inl (not_le.1 hwrap)) fuel)
  have hbatch : 4 ≤ size.toNat → 0 < maxFrames (audioFrequency clock dacrate) := by
    intro hsize
    by_contra hmax
    exact hfuel (aiLenChanged_eq_none (.inr ⟨hsize, Nat.eq_zero_of_not_pos hmax⟩) fuel)
  refine ⟨hfrequency, hcounter, fun hsize => (maxFrames_pos hf).1 (hbatch hsize), fun k hk => ?_⟩
  obtain ⟨r', hends', -, -, -, hmemory⟩ :=
    aiLenChanged_ends hf hcounter hbatch enabled p m s
  obtain rfl := hends.unique hends'
  exact swapped_eq_iff.1 (hmemory.symm.trans hexact.memory) k (lt_swapTurns.2 hk)

theorem TvStandard.clock_bounds (tv : TvStandard) :
    0 < tv.clock.toNat ∧ tv.clock.toNat < 2 ^ 29 := by
  cases tv <;> decide

/-- For every value of AI_DACRATE and every pushed buffer: the frequency is defined, the loops end,
every frame goes to the resampler once and in order, no buffer is exceeded and the memory is
unchanged, exactly when AI_DACRATE is below the clock, the size leaves room for the counter, a batch
holds a frame, and both channels agree. -/
theorem audioExact_iff (R : AudioResampler) (F : AudioFrontend) (tv : TvStandard)
    (dacrate : BitVec 32)
    (enabled : Bool) (p : ℕ) (size : BitVec 32) (m : HostBytes) (s : AudioSinks R F) :
    AudioExact tv.clock dacrate enabled p size m s ↔ AudioFits tv.clock dacrate p size m := by
  obtain ⟨hpos, hlt⟩ := tv.clock_bounds
  exact ⟨AudioExact.fits hpos hlt, fun h => h.exact hlt enabled s⟩

/-- A resampler that passes frames on. -/
def passThrough : AudioResampler where
  State := Unit
  Float := BitVec 16
  s16ToFloat := id
  floatToS16 := id
  process _ ratio input := (if 1 ≤ ratio then input else [], ())
  length_le := by
    intro _ ratio input hratio
    have hlength : (0 : ℚ) ≤ input.length := by positivity
    dsimp only
    split
    · nlinarith
    · have hmul := mul_nonneg hlength hratio.le
      simp only [List.length_nil, Nat.cast_zero]
      linarith

/-- A frontend that takes every frame. -/
def takeAll : AudioFrontend where
  State := Unit
  batch _ out := (out.length, ())
  batch_pos _ _ hne := List.length_pos_iff.2 hne
  batch_le _ _ := le_rfl

/-- One frame at 44100 Hz, silent on the left. -/
theorem not_audioExact : ¬∀ dacrate size m, AudioExact (R := passThrough) (F := takeAll)
    TvStandard.ntsc.clock dacrate true 0 size m ⟨(), ()⟩ := by
  intro h
  obtain ⟨hpos, hlt⟩ := TvStandard.ntsc.clock_bounds
  have hmono := (AudioExact.fits hpos hlt (h 0 4 fun a => if a = 0 then 1 else 0)).mono 0
    (by decide)
  exact absurd hmono (by decide)

end

end

end Mupen64plus
