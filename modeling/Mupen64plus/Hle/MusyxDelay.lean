import Mupen64plus.Hle.HalfWords
import Mupen64plus.Lib.DelayLine

/-!
# The delay line of MusyX

The effects stage mixes up to eight delayed subframes out of a circular buffer in RDRAM, and writes
the new subframe back to it. A delayed subframe that passes the end of the buffer is read in two
pieces, each from an address cut to 24 bits.

## Main definitions

- `sfxStage` — the code
- `SfxCall.MixesTaps` — the taps of a call are the samples `d` positions back in the buffer
- `SfxCall.InReach` — the buffer ends within 16 MB
- `DelayRun` — the subframes of one buffer in turn

## Main results

- `delayedSubframe_eq` — the two pieces are the tap
- `sfx_delay_line`
-/

namespace Mupen64plus

/-- An array of `SUBFRAME_SIZE` samples. -/
abbrev Samples := Fin 192 → BitVec 16

/-- What the effects stage uses of `musyx_t`. -/
structure Musyx where
  left : Samples
  right : Samples
  cc0 : Samples
  e50 : Samples
  subframe740Last4 : Fin 4 → BitVec 16

-- ════════════════════
-- Mixing
-- ════════════════════

/-- `mix_samples`. -/
def mixSamples (y x hgain : BitVec 16) : BitVec 16 :=
  clampS16 (y.toInt + (x.toInt * hgain.toInt + 0x4000) / 2 ^ 15)

/-- `mix_subframes`. -/
def mixSubframes (y x : Samples) (hgain : BitVec 16) : Samples := fun i =>
  mixSamples (y i) (x i) hgain

/-- `mix_fir4`, whose sum wraps. -/
def mixFir4 (y : Samples) (x : ℕ → BitVec 16) (hgain : BitVec 16) (hcoeffs : ℕ → BitVec 16) :
    Samples :=
  let h (k : ℕ) : BitVec 32 := BitVec.ofInt 32 (hgain.toInt * (hcoeffs k).toInt / 2 ^ 15)
  fun i =>
    let v : BitVec 32 := (h 0 * (x i).signExtend 32 + h 1 * (x (i + 1)).signExtend 32
      + h 2 * (x (i + 2)).signExtend 32 + h 3 * (x (i + 3)).signExtend 32).sshiftRight 15
    clampS16 ((y i).toInt + v.toInt)

/-- `mix_sfx_with_main_subframes_v1`. -/
def mixSfxWithMainSubframesV1 (musyx : Musyx) (subframe : Samples) (_gains : ℕ → BitVec 16) :
    Musyx :=
  { musyx with
    left := fun i => clampS16 ((musyx.left i).toInt + (subframe i).toInt)
    right := fun i => clampS16 ((musyx.right i).toInt + (subframe i).toInt) }

-- ════════════════════
-- The stage
-- ════════════════════

/-- Half-word `k` of `dram_load_u16`, of whose address only the start is cut to 24 bits. -/
def dramLoadU16 (hle : HleMemory) (address : BitVec 32) (k : ℕ) : BitVec 16 :=
  hle.dram.u16 (dramAddress address + 2 * k)

/-- Word `k` of `dram_load_u32`. -/
def dramLoadU32 (hle : HleMemory) (address : BitVec 32) (k : ℕ) : BitVec 32 :=
  hle.dram.u32 (dramAddress address + 4 * k)

/-- The parameters that `sfx_stage` loads. -/
structure Sfx where
  cbufferPtr : BitVec 32
  cbufferLength : BitVec 32
  tapCount : BitVec 16
  fir4Hgain : BitVec 16
  tapDelays : ℕ → BitVec 32
  tapGains : ℕ → BitVec 16
  sfxGains : ℕ → BitVec 16
  fir4Hcoeffs : ℕ → BitVec 16

def loadSfx (hle : HleMemory) (sfxPtr : BitVec 32) : Sfx where
  cbufferPtr := hle.dramU32 sfxPtr
  cbufferLength := hle.dramU32 (sfxPtr + 0x04)
  tapCount := hle.dramU16 (sfxPtr + 0x08)
  fir4Hgain := hle.dramU16 (sfxPtr + 0x0a)
  tapDelays := dramLoadU32 hle (sfxPtr + 0x0c)
  tapGains := dramLoadU16 hle (sfxPtr + 0x2c)
  sfxGains k := if k = 0 then hle.dramU16 (sfxPtr + 0x3c) else hle.dramU16 (sfxPtr + 0x3e)
  fir4Hcoeffs := dramLoadU16 hle (sfxPtr + 0x40)

/-- The array `delayed` of a tap. A piece that does not fit in it has no value. -/
def delayedSubframe (hle : HleMemory) (sfx : Sfx) (pos tapDelay : BitVec 32) : Option Samples :=
  let dpos := pos - tapDelay
  let dpos := if dpos.toInt ≤ 0 then dpos + sfx.cbufferLength else dpos
  if sfx.cbufferLength < dpos + 192 then
    let dlength := (sfx.cbufferLength - dpos).toInt
    if 0 ≤ dlength ∧ dlength ≤ 192 then some fun i =>
      if i < dlength then dramLoadU16 hle (sfx.cbufferPtr + dpos * 2) i
      else dramLoadU16 hle sfx.cbufferPtr (i - dlength.toNat)
    else none
  else some fun i => dramLoadU16 hle (sfx.cbufferPtr + dpos * 2) i

/-- The first `n` turns of the loop over the taps. There are eight in the local arrays. -/
def mixTaps (hle : HleMemory) (sfx : Sfx) (pos : BitVec 32) : ℕ → Option Samples
  | 0 => some fun _ => 0
  | n + 1 => do
    let subframe ← mixTaps hle sfx pos n
    if 8 ≤ n then none
    else
      let delayed ← delayedSubframe hle sfx pos (sfx.tapDelays n)
      return mixSubframes subframe delayed (sfx.tapGains n)

/-- The buffer of the filter: the last four samples, then the subframe. -/
def firBuffer (last4 : Fin 4 → BitVec 16) (subframe : Samples) (j : ℕ) : BitVec 16 :=
  if h : j < 4 then last4 ⟨j, h⟩ else if h : j - 4 < 192 then subframe ⟨j - 4, h⟩ else 0

/-- What follows the loop of `sfx_stage`, but for the store. -/
def finishSfx (mix : Musyx → Samples → (ℕ → BitVec 16) → Musyx) (musyx : Musyx) (sfx : Sfx)
    (subframe : Samples) : Musyx :=
  let mixed := mix musyx subframe sfx.sfxGains
  let buffer := firBuffer mixed.subframe740Last4 subframe
  { mixed with
    subframe740Last4 := fun k => subframe ⟨188 + k, by omega⟩
    e50 := mixFir4 mixed.e50 (fun j => buffer (j + 1)) sfx.fir4Hgain sfx.fir4Hcoeffs }

/-- `dram_store_u16` of a subframe. -/
def dramStoreSamples (hle : HleMemory) (src : Samples) (address : BitVec 32) : HleMemory :=
  { hle with dram := hle.dram.storeU16 (dramAddress address) (fun k => src (Fin.ofNat 192 k)) 192 }

/-- The arguments of `sfx_stage`. -/
structure SfxCall where
  hle : HleMemory
  mix : Musyx → Samples → (ℕ → BitVec 16) → Musyx
  musyx : Musyx
  sfxPtr : BitVec 32
  idx : BitVec 16

/-- `sfx_stage`. -/
def sfxStage (c : SfxCall) : Option (HleMemory × Musyx) :=
  if c.sfxPtr = 0 then some (c.hle, c.musyx)
  else do
    let sfx := loadSfx c.hle c.sfxPtr
    let pos := c.idx.setWidth 32 * 192
    let subframe ← mixTaps c.hle sfx pos sfx.tapCount.toNat
    let musyx := finishSfx c.mix c.musyx sfx subframe
    return (dramStoreSamples c.hle musyx.e50 (sfx.cbufferPtr + pos * 2), musyx)

-- ════════════════════
-- The delay line
-- ════════════════════

/-- Index `j` of the circular buffer at `ptr`. -/
def cbufferSample (hle : HleMemory) (ptr : BitVec 32) (j : ℕ) : BitVec 16 :=
  hle.dramU16 (ptr + BitVec.ofNat 32 (2 * j))

namespace SfxCall

variable (c : SfxCall)

/-- The effect that a call loads. -/
def sfx : Sfx := loadSfx c.hle c.sfxPtr

/-- `L`. -/
def length : ℕ := c.sfx.cbufferLength.toNat

/-- The index of the first sample of the subframe. -/
def pos : ℕ := 192 * c.idx.toNat

/-- The delay `d` of tap `t`. -/
def delay (t : ℕ) : ℕ := (c.sfx.tapDelays t).toNat

/-- Sample `i` of tap `t`: the one `d` positions back. -/
def tap (t : ℕ) (i : Fin 192) : BitVec 16 :=
  cbufferSample c.hle c.sfx.cbufferPtr (tapIndex c.length c.pos (c.delay t) i)

/-- The mix of the first `n` taps. -/
def tapMix : ℕ → Samples
  | 0 => fun _ => 0
  | n + 1 => mixSubframes (tapMix n) (c.tap n) (c.sfx.tapGains n)

/-- A call for a subframe of a circular buffer, with up to eight delays of up to its length. -/
structure Circular : Prop where
  sfxPtr : c.sfxPtr ≠ 0
  length : 192 ≤ c.length
  pos : c.pos + 192 ≤ c.length
  tapCount : c.sfx.tapCount.toNat ≤ 8
  tapDelays : ∀ t < c.sfx.tapCount.toNat, c.delay t ≤ c.length

/-- The stage mixes the taps out of the buffer it found, and writes the new subframe at `pos` and
nothing else. -/
def MixesTaps : Prop :=
  ∃ hle musyx, sfxStage c = some (hle, musyx) ∧
    musyx = finishSfx c.mix c.musyx c.sfx (c.tapMix c.sfx.tapCount.toNat) ∧
    (∀ k : Fin 192, cbufferSample hle c.sfx.cbufferPtr (c.pos + k) = musyx.e50 k) ∧
    (∀ j < c.length, j < c.pos ∨ c.pos + 192 ≤ j →
      cbufferSample hle c.sfx.cbufferPtr j = cbufferSample c.hle c.sfx.cbufferPtr j) ∧
    ∀ b, (∀ k < 192, b ≠ dramAddress (c.sfx.cbufferPtr + BitVec.ofNat 32 (2 * (c.pos + k))) ^^^ 2 ∧
        b ≠ (dramAddress (c.sfx.cbufferPtr + BitVec.ofNat 32 (2 * (c.pos + k))) ^^^ 2) + 1) →
      hle.dram b = c.hle.dram b

/-- The buffer ends within the 16 MB that an address of 24 bits reaches. -/
def InReach : Prop := dramAddress c.sfx.cbufferPtr + 2 * c.length ≤ 2 ^ 24

/-- The subframe that a call writes. -/
def written : Samples := (finishSfx c.mix c.musyx c.sfx (c.tapMix c.sfx.tapCount.toNat)).e50

end SfxCall

/-- Calls for the subframes of a buffer in turn. What runs between two of them leaves the buffer
as it is. -/
structure DelayRun where
  calls : ℕ → SfxCall
  cbufferPtr : BitVec 32
  turn : ℕ
  turn_pos : 0 < turn
  circular : ∀ n, (calls n).Circular
  inReach : ∀ n, (calls n).InReach
  ptr_eq : ∀ n, (calls n).sfx.cbufferPtr = cbufferPtr
  length_eq : ∀ n, (calls n).length = 192 * turn
  idx_eq : ∀ n, (calls n).idx.toNat = n % turn
  kept : ∀ n hle musyx, sfxStage (calls n) = some (hle, musyx) → ∀ j < 192 * turn,
    cbufferSample (calls (n + 1)).hle cbufferPtr j = cbufferSample hle cbufferPtr j

/-- The samples written by a run, one subframe after the other. -/
def DelayRun.stream (r : DelayRun) (p : ℕ) : BitVec 16 :=
  (r.calls (p / 192)).written ⟨p % 192, Nat.mod_lt p (by decide)⟩

-- ════════════════════
-- A tap
-- ════════════════════

section

variable {hle : HleMemory} {ptr : BitVec 32}

theorem dramAddress_eq_mod (address : BitVec 32) :
    dramAddress address = address.toNat % 2 ^ 24 := by
  unfold dramAddress
  rw [BitVec.toNat_and, show (0xffffff#32).toNat = 2 ^ 24 - 1 from rfl,
    Nat.and_two_pow_sub_one_eq_mod]

/-- Indices that the 24 bits reach are side by side. -/
theorem dramAddress_index {j : ℕ} (h : dramAddress ptr + 2 * j < 2 ^ 24) :
    dramAddress (ptr + BitVec.ofNat 32 (2 * j)) = dramAddress ptr + 2 * j := by
  rw [dramAddress_eq_mod] at h
  rw [dramAddress_eq_mod, dramAddress_eq_mod, BitVec.toNat_add, BitVec.toNat_ofNat]
  omega

theorem cbufferSample_eq {j : ℕ} (h : dramAddress ptr + 2 * j < 2 ^ 24) :
    cbufferSample hle ptr j = hle.dram.u16 (dramAddress ptr + 2 * j) :=
  congrArg hle.dram.u16 (dramAddress_index h)

theorem ofNat_two_mul_toNat (x : BitVec 32) : BitVec.ofNat 32 (2 * x.toNat) = x * 2 := by
  refine BitVec.eq_of_toNat_eq ?_
  rw [BitVec.toNat_ofNat, BitVec.toNat_mul, Nat.mul_comm]
  rfl

theorem dramLoadU16_eq {x : BitVec 32} {k : ℕ}
    (h : dramAddress ptr + 2 * (x.toNat + k) < 2 ^ 24) :
    dramLoadU16 hle (ptr + x * 2) k = cbufferSample hle ptr (x.toNat + k) := by
  rw [cbufferSample_eq h, dramLoadU16, ← ofNat_two_mul_toNat, dramAddress_index (by omega),
    Nat.mul_add, Nat.add_assoc]

theorem dramLoadU16_start {k : ℕ} (h : dramAddress ptr + 2 * k < 2 ^ 24) :
    dramLoadU16 hle ptr k = cbufferSample hle ptr k := (cbufferSample_eq h).symm

/-- The two pieces of a tap are the samples `d` positions back, round the end of the buffer. -/
theorem delayedSubframe_eq {sfx : Sfx} {pos tapDelay : BitVec 32}
    (hpos : pos.toNat + 192 ≤ sfx.cbufferLength.toNat)
    (hdelay : tapDelay.toNat ≤ sfx.cbufferLength.toNat)
    (hreach : dramAddress sfx.cbufferPtr + 2 * sfx.cbufferLength.toNat ≤ 2 ^ 24) :
    delayedSubframe hle sfx pos tapDelay = some fun i : Fin 192 => cbufferSample hle sfx.cbufferPtr
      (tapIndex sfx.cbufferLength.toNat pos.toNat tapDelay.toNat i) := by
  unfold delayedSubframe
  rcases Nat.lt_or_ge tapDelay.toNat pos.toNat with hlt | hge
  · have hdpos : (pos - tapDelay).toNat = pos.toNat - tapDelay.toNat := by
      rw [BitVec.toNat_sub]
      omega
    have hsign : ¬(pos - tapDelay).toInt ≤ 0 := by
      rw [BitVec.toInt_eq_toNat_of_lt (by omega)]
      omega
    have hend : ¬sfx.cbufferLength < pos - tapDelay + 192 := by
      rw [BitVec.lt_def, BitVec.toNat_add, show (192 : BitVec 32).toNat = 192 from rfl]
      omega
    dsimp only
    rw [if_neg hsign, if_neg hend]
    refine congrArg some (funext fun i => ?_)
    rw [tapIndex_of_le hlt.le (by omega), dramLoadU16_eq (by omega), hdpos]
  · set dpos := pos - tapDelay + sfx.cbufferLength with hdef
    have hdpos : dpos.toNat = pos.toNat + sfx.cbufferLength.toNat - tapDelay.toNat := by
      rw [hdef, BitVec.toNat_add, BitVec.toNat_sub]
      omega
    have hsign : (pos - tapDelay).toInt ≤ 0 := by
      rw [BitVec.toInt_eq_toNat_cond, BitVec.toNat_sub]
      split <;> omega
    have hindex : ∀ i, tapIndex sfx.cbufferLength.toNat pos.toNat tapDelay.toNat i =
        (pos.toNat + sfx.cbufferLength.toNat - tapDelay.toNat + i) % sfx.cbufferLength.toNat :=
      fun i => tapIndex_of_lt hdelay
    dsimp only
    rw [if_pos hsign, ← hdef]
    split
    next hend =>
      -- the buffer ends after `d - pos` samples
      rw [BitVec.lt_def, BitVec.toNat_add, show (192 : BitVec 32).toNat = 192 from rfl] at hend
      have hdlength : (sfx.cbufferLength - dpos).toInt =
          ((tapDelay.toNat - pos.toNat : ℕ) : ℤ) := by
        rw [BitVec.toInt_eq_toNat_cond, BitVec.toNat_sub]
        split <;> omega
      rw [hdlength, if_pos (by omega)]
      refine congrArg some (funext fun i => ?_)
      rw [hindex, Int.toNat_natCast]
      split
      · rw [dramLoadU16_eq (by omega), hdpos, Nat.mod_eq_of_lt (by omega)]
      · rw [dramLoadU16_start (by omega), Nat.mod_eq_sub_mod (by omega),
          Nat.mod_eq_of_lt (by omega)]
        congr 1
        omega
    next hend =>
      rw [BitVec.lt_def, BitVec.toNat_add, show (192 : BitVec 32).toNat = 192 from rfl] at hend
      refine congrArg some (funext fun i => ?_)
      rw [hindex, dramLoadU16_eq (by omega), hdpos, Nat.mod_eq_of_lt (by omega)]

end

-- ════════════════════
-- A call
-- ════════════════════

namespace SfxCall

variable {c : SfxCall}

theorem toNat_pos (c : SfxCall) : (c.idx.setWidth 32 * 192).toNat = c.pos := by
  have hidx := c.idx.isLt
  rw [BitVec.toNat_mul, BitVec.toNat_setWidth, show (192 : BitVec 32).toNat = 192 from rfl, pos]
  omega

theorem mixTaps_eq (hc : c.Circular) (hreach : c.InReach) {n : ℕ}
    (hn : n ≤ c.sfx.tapCount.toNat) :
    mixTaps c.hle c.sfx (c.idx.setWidth 32 * 192) n = some (c.tapMix n) := by
  induction n with
  | zero => rfl
  | succ n ih =>
    have hcount := hc.tapCount
    have hpos := hc.pos
    rw [← toNat_pos] at hpos
    rw [mixTaps, ih (by omega), Option.bind_eq_bind, Option.bind_some, if_neg (by omega),
      delayedSubframe_eq hpos (hc.tapDelays n hn) hreach, toNat_pos]
    rfl

theorem sfxStage_eq (hc : c.Circular) (hreach : c.InReach) : sfxStage c =
    let musyx := finishSfx c.mix c.musyx c.sfx (c.tapMix c.sfx.tapCount.toNat)
    some (dramStoreSamples c.hle musyx.e50 (c.sfx.cbufferPtr + c.idx.setWidth 32 * 192 * 2),
      musyx) := by
  rw [sfxStage, if_neg hc.sfxPtr]
  change (mixTaps c.hle c.sfx _ c.sfx.tapCount.toNat).bind _ = _
  rw [mixTaps_eq hc hreach le_rfl]
  rfl

theorem store_address (hc : c.Circular) (hreach : c.InReach) :
    dramAddress (c.sfx.cbufferPtr + c.idx.setWidth 32 * 192 * 2) =
      dramAddress c.sfx.cbufferPtr + 2 * c.pos := by
  have hpos := hc.pos
  unfold InReach at hreach
  rw [← ofNat_two_mul_toNat, toNat_pos, dramAddress_index (by omega)]

/-- A call mixes its taps. -/
theorem mixesTaps (hc : c.Circular) (hreach : c.InReach) : c.MixesTaps := by
  have hpos := hc.pos
  have haddress := store_address hc hreach
  refine ⟨_, _, sfxStage_eq hc hreach, rfl, ?_, ?_, ?_⟩ <;> unfold InReach at hreach
  · intro k
    rw [cbufferSample_eq (by omega), dramStoreSamples, haddress, Nat.mul_add, ← Nat.add_assoc,
      Bytes.u16_storeU16 _ _ _ k.isLt]
    exact congrArg _ (Fin.ext (Nat.mod_eq_of_lt k.isLt))
  · intro j hj hout
    rw [cbufferSample_eq (by omega), cbufferSample_eq (by omega), dramStoreSamples, haddress]
    refine Bytes.u16_storeU16_other _ _ _ (by omega) fun k hk => ?_
    omega
  · intro b hb
    rw [dramStoreSamples, haddress]
    refine Bytes.storeU16_other _ _ _ fun k hk => ?_
    have hbyte := hb k hk
    rwa [dramAddress_index (by omega), Nat.mul_add, ← Nat.add_assoc] at hbyte

end SfxCall

namespace DelayRun

variable (r : DelayRun)

theorem pos_eq (n : ℕ) : (r.calls n).pos = 192 * (n % r.turn) := congrArg _ (r.idx_eq n)

/-- The buffer of a run records the stream. -/
theorem records :
    Records (fun n j => cbufferSample (r.calls n).hle r.cbufferPtr j) r.stream 192 r.turn := by
  have hstep : ∀ n, ∃ hle,
      (∀ k : Fin 192, cbufferSample hle r.cbufferPtr (192 * (n % r.turn) + k) =
        (r.calls n).written k) ∧
      (∀ j < 192 * r.turn, j < 192 * (n % r.turn) ∨ 192 * (n % r.turn) + 192 ≤ j →
        cbufferSample hle r.cbufferPtr j = cbufferSample (r.calls n).hle r.cbufferPtr j) ∧
      ∀ j < 192 * r.turn, cbufferSample (r.calls (n + 1)).hle r.cbufferPtr j =
        cbufferSample hle r.cbufferPtr j := by
    intro n
    obtain ⟨hle, musyx, hrun, rfl, hwritten, hkept, -⟩ :=
      SfxCall.mixesTaps (r.circular n) (r.inReach n)
    rw [r.ptr_eq, pos_eq] at hwritten
    rw [r.ptr_eq, pos_eq, r.length_eq] at hkept
    exact ⟨hle, hwritten, hkept, r.kept n hle _ hrun⟩
  have hblock : ∀ n, 192 * (n % r.turn) + 192 ≤ 192 * r.turn := fun n => by
    have hlt := Nat.mod_lt n r.turn_pos
    omega
  constructor
  · intro n k hk
    obtain ⟨hle, hwritten, -, hnext⟩ := hstep n
    have hindex := hblock n
    rw [hnext _ (by omega), hwritten ⟨k, hk⟩, stream]
    congr 2
    · omega
    · omega
  · intro n j hj hout
    obtain ⟨hle, -, hkept, hnext⟩ := hstep n
    exact (hnext j hj).trans (hkept j hj hout)

/-- A tap returns the sample of the stream `d` positions earlier, or one turn more if that is in
the subframe itself. -/
theorem tap_eq_stream {n t q : ℕ} {i : Fin 192} (ht : t < (r.calls n).sfx.tapCount.toNat)
    (hq : i < (r.calls n).delay t ∧ q + (r.calls n).delay t = 192 * n + i ∨
      (r.calls n).delay t ≤ i ∧ q + 192 * r.turn + (r.calls n).delay t = 192 * n + i) :
    (r.calls n).tap t i = r.stream q := by
  have hdelay := (r.circular n).tapDelays t ht
  rw [r.length_eq] at hdelay
  rw [SfxCall.tap, r.ptr_eq, r.length_eq, pos_eq]
  exact r.records.tap r.turn_pos i.isLt hdelay hq

end DelayRun

/-- In a buffer that the 24 bits reach, the taps of a call are the samples `d` positions back from
before the call. Where the subframes come in turn, these are the samples written `d` positions
earlier, or one turn more for those of the subframe itself. -/
theorem sfx_delay_line :
    (∀ c : SfxCall, c.Circular → c.InReach → c.MixesTaps) ∧
    ∀ (r : DelayRun) (n t q : ℕ) (i : Fin 192), t < (r.calls n).sfx.tapCount.toNat →
      (i < (r.calls n).delay t ∧ q + (r.calls n).delay t = 192 * n + i ∨
        (r.calls n).delay t ≤ i ∧ q + 192 * r.turn + (r.calls n).delay t = 192 * n + i) →
      (r.calls n).tap t i = r.stream q :=
  ⟨fun _ hc hreach => SfxCall.mixesTaps hc hreach, fun r _ _ _ _ ht hq => r.tap_eq_stream ht hq⟩

-- ════════════════════
-- Two buffers
-- ════════════════════

/-- An effect at 0x100 with one tap of gain 0x4000. -/
def oneTap (ptr length : BitVec 32) (delay : BitVec 8) (first : BitVec 8) : SfxCall where
  hle := {
    dram := fun b =>
      if b = 0x100 then ptr.extractLsb' 0 8
      else if b = 0x101 then ptr.extractLsb' 8 8
      else if b = 0x102 then ptr.extractLsb' 16 8
      else if b = 0x104 then length.extractLsb' 0 8
      else if b = 0x105 then length.extractLsb' 8 8
      else if b = 0x10a then 1
      else if b = 0x10c then delay
      else if b = 0x12f then 0x40
      else if b = 3 then first
      else 0
    dmem := fun _ => 0
    imem := fun _ => 0 }
  mix := mixSfxWithMainSubframesV1
  musyx := ⟨fun _ => 0, fun _ => 0, fun _ => 0, fun _ => 0, fun _ => 0⟩
  sfxPtr := 0x100
  idx := 0

/-- The second sample of the buffer is past the last address. -/
def straddling : SfxCall := oneTap 0xfffffe 192 0 0x40

theorem straddling_circular : straddling.Circular := by
  constructor <;> decide

/-- What is read past the last address is not the sample that the accessors find. -/
theorem straddling_not_mixed : ¬∀ c : SfxCall, c.Circular → c.MixesTaps := by
  intro h
  obtain ⟨hle, musyx, hrun, hmix, -⟩ := h straddling straddling_circular
  have hread : (sfxStage straddling).map (fun s => s.2.left 1) = some 0 := by decide
  have htap : (finishSfx straddling.mix straddling.musyx straddling.sfx
      (straddling.tapMix straddling.sfx.tapCount.toNat)).left 1 = 0x2000 := by decide
  rw [hrun, hmix] at hread
  exact absurd (htap.symm.trans (Option.some_inj.mp hread)) (by decide)

/-- What index `j` of a buffer of two subframes holds before subframe `n`, where the samples are
numbered and those of subframe `n` begin with number `192 * (n + 2)`. -/
def rampSample (n j : ℕ) : BitVec 16 :=
  BitVec.ofNat 16 (192 * (if n % 2 = j / 192 then n else n + 1) + j % 192)

def rampMemory (n : ℕ) : HleMemory :=
  let effect := (oneTap 0x1000 384 200 0).hle
  { effect with dram := fun b =>
      if b < 0x1000 then effect.dram b
      else Bytes.storeU16 (fun _ => 0) 0x1000 (rampSample n) 384 b }

/-- Subframe `n`, in a buffer with one tap of delay 200. -/
def ramp (n : ℕ) : SfxCall where
  hle := rampMemory n
  mix := mixSfxWithMainSubframesV1
  musyx := ⟨fun _ => 0, fun _ => 0, fun _ => 0,
    fun i => BitVec.ofNat 16 (192 * (n + 2) + i), fun _ => 0⟩
  sfxPtr := 0x100
  idx := BitVec.ofNat 16 (n % 2)

theorem ramp_idx (n : ℕ) : (ramp n).idx.toNat = n % 2 := by
  rw [ramp, BitVec.toNat_ofNat]
  omega

theorem rampMemory_low (n : ℕ) {b : ℕ} (h : b < 0x1000) :
    (rampMemory n).dram b = (oneTap 0x1000 384 200 0).hle.dram b :=
  if_pos h

/-- The parameters stand below the buffer. -/
theorem ramp_sfx (n : ℕ) :
    (ramp n).sfx.cbufferPtr = 0x1000 ∧ (ramp n).sfx.cbufferLength = 384 ∧
      (ramp n).sfx.tapCount = 1 ∧ (ramp n).sfx.fir4Hgain = 0 ∧
      (ramp n).sfx.tapDelays 0 = 200 := by
  have hword : ∀ a, a + 3 < 0x1000 → (rampMemory n).dram.u32 a =
      (oneTap 0x1000 384 200 0).hle.dram.u32 a := by
    intro a ha
    rw [Bytes.u32, Bytes.u32, rampMemory_low n (by omega), rampMemory_low n (by omega),
      rampMemory_low n (by omega), rampMemory_low n (by omega)]
  have hhalf : ∀ a, (a ^^^ 2) + 1 < 0x1000 → (rampMemory n).dram.u16 a =
      (oneTap 0x1000 384 200 0).hle.dram.u16 a := by
    intro a ha
    rw [Bytes.u16, Bytes.u16, Bytes.half, Bytes.half, rampMemory_low n (by omega),
      rampMemory_low n (by omega)]
  have hptr := hword 0x100 (by decide)
  have hlength := hword 0x104 (by decide)
  have hcount := hhalf 0x108 (by decide)
  have hgain := hhalf 0x10a (by decide)
  have hdelay := hword 0x10c (by decide)
  generalize hmemory : rampMemory n = memory at *
  have hsfx : (ramp n).sfx = loadSfx memory 0x100 := by
    rw [SfxCall.sfx, ramp, hmemory]
  rw [hsfx]
  refine ⟨hptr.trans ?_, hlength.trans ?_, hcount.trans ?_, hgain.trans ?_, hdelay.trans ?_⟩ <;>
    decide

theorem ramp_length (n : ℕ) : (ramp n).length = 384 := by
  obtain ⟨-, hlength, -, -, -⟩ := ramp_sfx n
  rw [SfxCall.length, hlength]
  rfl

theorem ramp_pos (n : ℕ) : (ramp n).pos = 192 * (n % 2) := by rw [SfxCall.pos, ramp_idx]

theorem ramp_circular (n : ℕ) : (ramp n).Circular where
  sfxPtr := by simp [ramp]
  length := by
    rw [ramp_length]
    decide
  pos := by
    rw [ramp_pos, ramp_length]
    omega
  tapCount := by
    obtain ⟨-, -, hcount, -, -⟩ := ramp_sfx n
    rw [hcount]
    decide
  tapDelays := by
    obtain ⟨-, -, hcount, -, hdelay⟩ := ramp_sfx n
    intro t ht
    rw [hcount] at ht
    obtain rfl : t = 0 := Nat.lt_one_iff.mp ht
    rw [SfxCall.delay, hdelay, ramp_length]
    decide

theorem ramp_inReach (n : ℕ) : (ramp n).InReach := by
  rw [SfxCall.InReach, (ramp_sfx n).1, ramp_length]
  decide

theorem ramp_cell (n : ℕ) {j : ℕ} (hj : j < 384) :
    cbufferSample (rampMemory n) 0x1000 j = rampSample n j := by
  have hstart : dramAddress (0x1000 : BitVec 32) = 0x1000 := rfl
  have hword : ((0x1000 + 2 * j) ^^^ 2) / 4 = (0x1000 + 2 * j) / 4 := by
    have hshift := Nat.shiftRight_xor_distrib (a := 0x1000 + 2 * j) (b := 2) (i := 2)
    rwa [show 2 >>> 2 = 0 from rfl, Nat.xor_zero, Nat.shiftRight_eq_div_pow,
      Nat.shiftRight_eq_div_pow] at hshift
  have hbyte : ∀ b, 0x1000 ≤ b → (rampMemory n).dram b =
      Bytes.storeU16 (fun _ => 0) 0x1000 (rampSample n) 384 b := fun b hb =>
    if_neg (Nat.not_lt.mpr hb)
  rw [cbufferSample_eq (by omega), hstart,
    ← Bytes.u16_storeU16 (fun _ => 0) 0x1000 (rampSample n) hj, Bytes.u16, Bytes.u16, Bytes.half,
    Bytes.half, hbyte _ (by omega), hbyte _ (by omega)]

/-- A filter without gain leaves the samples as they are. -/
theorem mixFir4_silent (y : Samples) (x hcoeffs : ℕ → BitVec 16) : mixFir4 y x 0 hcoeffs = y := by
  have hcoeff : ∀ j, 0 * (hcoeffs j).toInt / 2 ^ 15 = 0 := by
    intro j
    rw [Int.zero_mul, Int.zero_ediv]
  have hzero : BitVec.ofInt 32 0 = 0#32 := rfl
  funext k
  have hlow := (y k).le_toInt
  have hhigh := (y k).toInt_lt
  simp only [mixFir4, BitVec.ofNat_eq_ofNat, BitVec.toInt_zero, hcoeff, hzero, BitVec.zero_mul,
    BitVec.add_zero, BitVec.zero_sshiftRight, Int.add_zero, clampS16]
  rw [max_eq_right (by omega), min_eq_right (by omega), BitVec.ofInt_toInt]

theorem ramp_written (n : ℕ) (k : Fin 192) :
    (ramp n).written k = BitVec.ofNat 16 (192 * (n + 2) + k) := by
  obtain ⟨-, -, -, hgain, -⟩ := ramp_sfx n
  unfold SfxCall.written finishSfx
  dsimp only
  rw [hgain, mixFir4_silent]
  rfl

/-- The buffer behind a subframe is the one in front of the next. -/
theorem ramp_kept (n : ℕ) {hle : HleMemory} {musyx : Musyx}
    (hrun : sfxStage (ramp n) = some (hle, musyx)) {j : ℕ} (hj : j < 384) :
    cbufferSample (ramp (n + 1)).hle 0x1000 j = cbufferSample hle 0x1000 j := by
  obtain ⟨hle', musyx', hrun', rfl, hwritten, hkept, -⟩ :=
    SfxCall.mixesTaps (ramp_circular n) (ramp_inReach n)
  obtain ⟨rfl, -⟩ := Prod.mk.inj (Option.some_inj.mp (hrun.symm.trans hrun'))
  rw [(ramp_sfx n).1, ramp_pos] at hwritten hkept
  rw [ramp_length] at hkept
  refine (ramp_cell (n + 1) hj).trans ?_
  by_cases hblock : n % 2 = j / 192
  · have hcell := (hwritten ⟨j % 192, Nat.mod_lt j (by decide)⟩).trans (ramp_written n _)
    rw [hblock, Nat.div_add_mod] at hcell
    rw [hcell, rampSample, if_neg (by omega)]
  · have hcell := (hkept j hj (by omega)).trans (ramp_cell n hj)
    rw [hcell, rampSample, rampSample, if_neg hblock, if_pos (by omega)]

/-- Subframe after subframe. -/
def rampRun : DelayRun where
  calls := ramp
  cbufferPtr := 0x1000
  turn := 2
  turn_pos := Nat.two_pos
  circular := ramp_circular
  inReach := ramp_inReach
  ptr_eq n := (ramp_sfx n).1
  length_eq := ramp_length
  idx_eq := ramp_idx
  kept n _ _ hrun _ hj := ramp_kept n hrun hj

/-- The first subframe of the second turn, and what was written 200 positions before a sample. -/
theorem ramp_delay_line : (ramp 2).MixesTaps ∧ (ramp 2).tap 0 5 = rampRun.stream 189 := by
  obtain ⟨-, -, hcount, -, hdelay⟩ := ramp_sfx 2
  refine ⟨sfx_delay_line.1 (ramp 2) (ramp_circular 2) (ramp_inReach 2),
    sfx_delay_line.2 rampRun 2 0 189 5 ?_ (.inl ?_)⟩
  · show 0 < (ramp 2).sfx.tapCount.toNat
    rw [hcount]
    decide
  · show 5 < ((ramp 2).sfx.tapDelays 0).toNat ∧ 189 + ((ramp 2).sfx.tapDelays 0).toNat = 192 * 2 + 5
    rw [hdelay]
    decide

end Mupen64plus
