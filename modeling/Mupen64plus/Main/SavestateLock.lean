import Mupen64plus.Device.Queued
import Mupen64plus.Device.Savestate

/-!
# The lock of the savestates

A load takes the lock of the savestates, checks the header, copies the buffer and gives the lock
back. The loader gets the pointer to the buffer and not its size: past the end of a short one it
reads what lies behind. To end the job it takes the lock once more. The lock is not recursive: the
thread that holds it and takes it again waits for itself.

## Main definitions

- `SaveBuffer` — a buffer of the front end, and what lies behind it
- `SavestateSession` — a device, the lock and the job
- `loadM64p`, `savestatesLoad`, `retroUnserialize` — a load, its job, and the call of the front end
- `Valid` — a buffer that is to be loaded
- `LoadAtomic` — every other buffer is refused, and a load that fails leaves the device as it was
  and the session usable

## Main results

- `loadM64p_failed`, `loadM64p_badMagic` — the returns with the lock free, and the one that keeps it
- `savestatesLoad_badMagic` — the load that never ends
- `loadAtomic_iff`
-/

namespace Mupen64plus

open Codec

/-- The jobs of `savestates_job` that concern the loader. -/
inductive PendingJob where
  | nothing | load
  deriving DecidableEq, Repr

/-- The buffer that the front end hands over, and the memory behind it. -/
structure SaveBuffer where
  bytes : List (BitVec 8)
  behind : Bytes

/-- The byte at a distance from the pointer. -/
def SaveBuffer.byteAt (b : SaveBuffer) (i : ℕ) : BitVec 8 :=
  b.bytes.getD i (b.behind (i - b.bytes.length))

/-- The state that a load works on. `fname` is the pointer to the buffer. -/
structure SavestateSession where
  device : Device
  locked : Bool
  job : PendingJob
  fname : Option SaveBuffer

/-- What a load takes from its surroundings: whether `malloc` has memory, and the device that it
makes of a savestate of version 1.0 to 1.2. -/
structure LoadOutside where
  outside : Outside
  malloc : Bool
  older : List (BitVec 8) → Device → Device

namespace SavestateSession

/-- `pthread_mutex_lock`, by the one thread that uses the lock. -/
def lock (s : SavestateSession) : Option SavestateSession :=
  if s.locked then none else some { s with locked := true }

/-- `pthread_mutex_unlock`. -/
def unlock (s : SavestateSession) : SavestateSession := { s with locked := false }

/-- The number of bytes that a load copies, the header included: the queue, the flags of the TLB
from version 1.1 on, and the extra state from version 1.2 on. -/
def savestateBytes (version : BitVec 32) : ℕ :=
  44 + Device.savestateSize + 1024 +
    if version = 0x00010000 then 0 else if version = 0x00010100 then 4 else 4 + 4096

/-- What the loader finds from the pointer on, as far as it may read. -/
def bufferOf (data : SaveBuffer) : List (BitVec 8) :=
  (List.range (savestateBytes savestateLatestVersion)).map data.byteAt

/-- The device after the savestate is parsed. -/
def parsed (l : LoadOutside) (data : List (BitVec 8)) (d : Device) : Device :=
  match d.savestatesLoadM64p l.outside data with
  | .rejected => d
  | .older => l.older (data.take (savestateBytes (Device.savestateVersion data))) d
  | .loaded d' => d'

/-- `savestates_load_m64p` with its lock. The return for a wrong magic number keeps it. -/
def loadM64p (l : LoadOutside) (data : List (BitVec 8)) (s : SavestateSession) :
    Option (Bool × SavestateSession) := do
  let s ← s.lock
  if data.take 8 ≠ savestateMagic then pure (false, s)
  else if Device.savestateVersion data >>> 16 ≠ savestateLatestVersion >>> 16 then
    pure (false, s.unlock)
  else if (data.drop 12).take 32 ≠ (array u8 32).put s.device.settings.md5 then
    pure (false, s.unlock)
  else if !l.malloc then pure (false, s.unlock)
  else pure (true, { s.unlock with device := parsed l data s.device })

/-- `savestates_set_job`. -/
def savestatesSetJob (job : PendingJob) (fname : Option SaveBuffer) (s : SavestateSession) :
    Option SavestateSession := do
  let s ← { s with job := job }.lock
  pure { s with fname := fname }.unlock

/-- The load of `savestates_load`, before the job is cleared. -/
def loadJob (l : LoadOutside) (s : SavestateSession) : Option (Bool × SavestateSession) :=
  match s.fname with
  | some data => do
    let (ret, s) ← s.loadM64p l (bufferOf data)
    pure (ret, { s with fname := none })
  | none => some (false, s)

/-- `savestates_load`: its answer, unless it waits for ever. -/
def savestatesLoad (l : LoadOutside) (s : SavestateSession) :
    Option (Bool × SavestateSession) := do
  let (ret, s) ← s.loadJob l
  let s ← s.savestatesSetJob .nothing none
  pure (ret, s)

/-- `retro_unserialize`: the job is set, the game runs on to the interrupt that takes it up, and the
state is loaded, with an answer that the front end is not told: it always gets `true`. -/
def retroUnserialize (l : LoadOutside) (data : SaveBuffer) (run : Device → Device)
    (s : SavestateSession) : Option (Bool × SavestateSession) := do
  let s ← s.savestatesSetJob .load (some data)
  { s with device := run s.device }.savestatesLoad l

end SavestateSession

open SavestateSession

/-- The buffer holds all the bytes that the loader copies for its version. -/
def Complete (data : SaveBuffer) : Prop :=
  savestateBytes (Device.savestateVersion (bufferOf data)) ≤ data.bytes.length

/-- A buffer that is to be loaded: magic number, version and MD5 are right, and it is not short. -/
def Valid (d : Device) (data : SaveBuffer) : Prop :=
  d.headerAccepted (bufferOf data) = true ∧ Complete data

/-- After a failed load the device is as it was, the lock is free, and a valid load succeeds, from
whatever device the game has reached until then. -/
structure LoadRecovers (s s' : SavestateSession) : Prop where
  device : s'.device = s.device
  lock : s'.locked = false
  later : ∀ (l : LoadOutside) (data : SaveBuffer) (run : Device → Device), l.malloc = true →
    Valid (run s'.device) data →
      ∃ s₁ s₂, s'.savestatesSetJob .nothing none = some s₁ ∧
        s₁.retroUnserialize l data run = some (true, s₂)

/-- The load of a buffer that is not valid reports a failure, and a load that does leaves the device
alone and the session usable. -/
structure LoadAtomic (l : LoadOutside) (data : SaveBuffer) (s : SavestateSession) : Prop where
  reported : ¬Valid s.device data → ∃ s', s.loadM64p l (bufferOf data) = some (false, s')
  recovers : ∀ s', s.loadM64p l (bufferOf data) = some (false, s') → LoadRecovers s s'

/-- The bytes at the pointer are the magic number. -/
def HasMagic (data : SaveBuffer) : Prop := ∀ i < 8, data.byteAt i = savestateMagic.getD i 0

-- ════════════════════
-- One load
-- ════════════════════

section

variable {l : LoadOutside} {s s' : SavestateSession} {data : SaveBuffer}

theorem hasMagic_iff : HasMagic data ↔ (bufferOf data).take 8 = savestateMagic := by
  have hmagic : savestateMagic = (List.range 8).map fun i => savestateMagic.getD i 0 := by decide
  have htake : (bufferOf data).take 8 = (List.range 8).map data.byteAt := by
    unfold bufferOf
    rw [← List.map_take, List.take_range]
    rfl
  rw [htake, hmagic, List.map_inj_left]
  simp only [List.mem_range]
  exact Iff.rfl

theorem lock_of_free (h : s.locked = false) : s.lock = some { s with locked := true } := by
  unfold SavestateSession.lock
  rw [h]
  rfl

theorem unlock_of_free (h : s.locked = false) :
    SavestateSession.unlock { s with locked := true } = s := by
  obtain ⟨device, locked, job, fname⟩ := s
  obtain rfl : locked = false := h
  rfl

/-- A load that fails with the right magic number has given the lock back. -/
theorem loadM64p_failed (h : s.locked = false) {bytes : List (BitVec 8)}
    (hmagic : bytes.take 8 = savestateMagic) (hfail : s.loadM64p l bytes = some (false, s')) :
    s' = s := by
  unfold loadM64p at hfail
  rw [lock_of_free h, Option.bind_eq_bind, Option.bind_some, unlock_of_free h,
    if_neg (not_not.mpr hmagic)] at hfail
  split at hfail
  · cases hfail
    rfl
  · split at hfail
    · cases hfail
      rfl
    · split at hfail
      · cases hfail
        rfl
      · cases hfail

/-- A load that fails for the magic number keeps the lock. -/
theorem loadM64p_badMagic (h : s.locked = false) {bytes : List (BitVec 8)}
    (hmagic : bytes.take 8 ≠ savestateMagic) :
    s.loadM64p l bytes = some (false, { s with locked := true }) := by
  unfold loadM64p
  rw [lock_of_free h, Option.bind_eq_bind, Option.bind_some, if_pos hmagic]
  rfl

/-- A load of a header that is not accepted fails. -/
theorem loadM64p_refused (h : s.locked = false) {bytes : List (BitVec 8)}
    (hrefused : ¬s.device.headerAccepted bytes = true ∨ l.malloc = false) :
    ∃ s', s.loadM64p l bytes = some (false, s') := by
  simp only [Device.headerAccepted, Bool.and_eq_true, beq_iff_eq] at hrefused
  unfold loadM64p
  rw [lock_of_free h, Option.bind_eq_bind, Option.bind_some]
  split
  · exact ⟨_, rfl⟩
  next hmagic =>
    split
    · exact ⟨_, rfl⟩
    next hversion =>
      split
      · exact ⟨_, rfl⟩
      next hmd5 =>
        rcases hrefused with hheader | hmalloc
        · exact absurd ⟨⟨not_not.mp hmagic, not_not.mp hversion⟩, not_not.mp hmd5⟩ hheader
        · rw [hmalloc]
          exact ⟨_, rfl⟩

/-- A load of an accepted header succeeds, however short the buffer is. -/
theorem loadM64p_accepted (h : s.locked = false) {bytes : List (BitVec 8)}
    (haccepted : s.device.headerAccepted bytes = true) (hmalloc : l.malloc = true) :
    s.loadM64p l bytes = some (true, { s with device := parsed l bytes s.device }) := by
  simp only [Device.headerAccepted, Bool.and_eq_true, beq_iff_eq] at haccepted
  obtain ⟨⟨hmagic, hversion⟩, hmd5⟩ := haccepted
  unfold loadM64p
  rw [lock_of_free h, Option.bind_eq_bind, Option.bind_some, unlock_of_free h,
    if_neg (not_not.mpr hmagic), if_neg (not_not.mpr hversion), if_neg (not_not.mpr hmd5), hmalloc]
  rfl

theorem savestatesSetJob_of_free (h : s.locked = false) (job : PendingJob)
    (fname : Option SaveBuffer) :
    s.savestatesSetJob job fname = some { s with job := job, fname := fname } := by
  obtain ⟨device, locked, job', fname'⟩ := s
  obtain rfl : locked = false := h
  rfl

/-- Behind a load that keeps the lock, the end of the job waits for ever. -/
theorem savestatesLoad_badMagic (h : s.locked = false) (hfname : s.fname = some data)
    (hmagic : (bufferOf data).take 8 ≠ savestateMagic) : s.savestatesLoad l = none := by
  unfold savestatesLoad loadJob
  rw [hfname]
  simp only [Option.bind_eq_bind, loadM64p_badMagic h hmagic, Option.bind_some, Option.pure_def]
  rfl

-- ════════════════════
-- A session
-- ════════════════════

/-- With the lock free, a valid buffer is loaded. -/
theorem retroUnserialize_valid (h : s.locked = false) {run : Device → Device}
    (hmalloc : l.malloc = true)
    (haccepted : (run s.device).headerAccepted (bufferOf data) = true) :
    ∃ s₂, s.retroUnserialize l data run = some (true, s₂) := by
  have hset := savestatesSetJob_of_free h .load (some data)
  unfold retroUnserialize
  rw [hset, Option.bind_eq_bind, Option.bind_some]
  dsimp only
  generalize hs₁ : SavestateSession.mk (run s.device) s.locked .load (some data) = s₁
  have hfree : s₁.locked = false := by
    rw [← hs₁]
    exact h
  have hdevice : s₁.device = run s.device := by rw [← hs₁]
  have hname : s₁.fname = some data := by rw [← hs₁]
  have hload := loadM64p_accepted hfree (by rw [hdevice]; exact haccepted) hmalloc
  generalize parsed l (bufferOf data) s₁.device = d at hload
  unfold savestatesLoad loadJob
  rw [hname]
  simp only [Option.bind_eq_bind, hload, Option.bind_some, Option.pure_def]
  generalize hs₂ : SavestateSession.mk d s₁.locked s₁.job none = s₂
  have hfree' : s₂.locked = false := by
    rw [← hs₂]
    exact hfree
  rw [savestatesSetJob_of_free hfree']
  exact ⟨_, rfl⟩

/-- A session whose lock is free recovers. -/
theorem loadRecovers_self (h : s.locked = false) : LoadRecovers s s := by
  refine ⟨rfl, h, fun l data run hmalloc hvalid => ?_⟩
  obtain ⟨s₂, hs₂⟩ := retroUnserialize_valid (s := { s with job := .nothing, fname := none }) h
    hmalloc hvalid.1
  exact ⟨_, s₂, savestatesSetJob_of_free h .nothing none, hs₂⟩

/-- **Atomic loads**: an invalid buffer is refused, and a load that fails leaves the device alone
and the session usable, if and only if the bytes at the pointer are the magic number, and the buffer
is complete where the rest of its header is accepted and there is memory. -/
theorem loadAtomic_iff (l : LoadOutside) (data : SaveBuffer) (s : SavestateSession)
    (h : s.locked = false) :
    LoadAtomic l data s ↔ HasMagic data ∧
      (s.device.headerAccepted (bufferOf data) = true → l.malloc = true → Complete data) := by
  rw [hasMagic_iff]
  constructor
  · intro hatomic
    constructor
    · by_contra hmagic
      have hlock := (hatomic.recovers _ (loadM64p_badMagic h hmagic)).lock
      exact Bool.noConfusion hlock
    · intro haccepted hmalloc
      by_contra hshort
      obtain ⟨s', hfail⟩ := hatomic.reported fun hvalid => hshort hvalid.2
      rw [loadM64p_accepted h haccepted hmalloc] at hfail
      cases hfail
  · rintro ⟨hmagic, hcomplete⟩
    constructor
    · intro hinvalid
      refine loadM64p_refused h ?_
      by_contra hgood
      rw [not_or, not_not, Bool.not_eq_false] at hgood
      exact hinvalid ⟨hgood.1, hcomplete hgood.1 hgood.2⟩
    · intro s' hfail
      rw [loadM64p_failed h hmagic hfail]
      exact loadRecovers_self h

theorem savestateVersion_bufferOf (data : SaveBuffer) :
    Device.savestateVersion (bufferOf data) =
      u32.get [data.byteAt 11, data.byteAt 10, data.byteAt 9, data.byteAt 8] := by
  have hbytes : ((bufferOf data).drop 8).take 4 = (List.range' 8 4).map data.byteAt := by
    unfold bufferOf
    rw [← List.map_drop, ← List.map_take, List.range_eq_range', List.drop_range',
      List.take_range'_of_length_ge (by decide)]
  unfold Device.savestateVersion
  rw [hbytes]
  rfl

end

/-- A session of a console that has loaded nothing yet. -/
def freshSession : SavestateSession := ⟨freshConsole, false, .nothing, none⟩

/-- A load with enough memory. -/
def quietLoad : LoadOutside := ⟨quietOutside, true, fun _ d => d⟩

/-- A buffer of the magic number alone, in front of zeros, which are a version that is unknown. -/
def magicOnly : SaveBuffer := ⟨savestateMagic, fun _ => 0⟩

theorem magicOnly_atomic : LoadAtomic quietLoad magicOnly freshSession := by
  have hmagic : HasMagic magicOnly := by
    unfold HasMagic
    decide
  refine (loadAtomic_iff quietLoad magicOnly freshSession rfl).mpr ⟨hmagic, fun haccepted => ?_⟩
  simp only [Device.headerAccepted, Bool.and_eq_true, beq_iff_eq, savestateVersion_bufferOf]
    at haccepted
  exact absurd haccepted.1.2 (by decide)

/-- A buffer of zeros, of the size that the front end is told. -/
def zeros : SaveBuffer := ⟨List.replicate (savestateBytes savestateLatestVersion) 0, fun _ => 0⟩

theorem zeros_not_atomic :
    ¬∀ (l : LoadOutside) (data : SaveBuffer) (s : SavestateSession), s.locked = false →
      LoadAtomic l data s := by
  intro hall
  have hzero : zeros.byteAt 0 = 0 := by
    simp only [SaveBuffer.byteAt, zeros, List.getD_eq_getElem?_getD, List.getElem?_replicate]
    split <;> rfl
  have hmagic : ¬HasMagic zeros := by
    intro h
    have hfirst := h 0 (by decide)
    rw [hzero] at hfirst
    exact absurd hfirst (by decide)
  rw [hasMagic_iff] at hmagic
  have hlock := ((hall quietLoad zeros freshSession rfl).recovers _
    (loadM64p_badMagic rfl hmagic)).lock
  exact Bool.noConfusion hlock

end Mupen64plus
