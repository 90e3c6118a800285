import Mupen64plus.Lib.Runs
import Mupen64plus.Main.Netplay

/-!
# The datagrams of a netplay client

What `netplay_process` reads of a datagram, whose player and whose number of events are taken from
the datagram itself.

## Main definitions

- `PacketAccess` — a read of the datagram or of a table of the players
- `netplayPacket` — a datagram
- `PacketSafe`, `PacketCovered` — its reads are in range; what the datagram needs for that

## Main results

- `packetSafe_iff` — one datagram
- `netplayProcess_safe_iff` — every datagram of a call
-/

namespace Mupen64plus

-- ════════════════════
-- The reads of a datagram
-- ════════════════════

/-- A byte of the datagram, or an entry of `l_player_lag` or `l_cin_compats`. -/
inductive PacketAccess where
  | data (i : ℕ)
  | playerLag (player : ℕ)
  | cinCompats (player : ℕ)
  deriving DecidableEq, Repr

def PacketAccess.InRange (len : ℕ) : PacketAccess → Prop
  | .data i => i < len
  | .playerLag player | .cinCompats player => player < 4

/-- `l_status`, `l_player_lag` and `l_cin_compats`, with what lies behind the two tables. -/
structure NetplayTables where
  status : BitVec 8
  playerLag : ℕ → BitVec 8
  cinCompats : ℕ → ControllerInputCompat

def NetplayTables.setCin (s : NetplayTables) (player : ℕ) (cin : ControllerInputCompat) :
    NetplayTables :=
  { s with cinCompats := Function.update s.cinCompats player cin }

/-- The buffer of `SDLNet_AllocPacket(512)`, of which a datagram has filled `len` bytes. -/
structure UdpPacket where
  data : Bytes
  len : ℕ
  len_le : len ≤ 512

/-- The reads of `SDLNet_Read32`. -/
def read32Accesses (curr : ℕ) : List PacketAccess :=
  [.data curr, .data (curr + 1), .data (curr + 2), .data (curr + 3)]

/-- An event that does not need to be recorded. -/
def EventSkipped (cin : ControllerInputCompat) (count : BitVec 32) : Prop :=
  0xffffffff#32 / 2 < count - cin.netplayCount ∨ checkValid cin count

instance EventSkipped.decidable (cin : ControllerInputCompat) (count : BitVec 32) :
    Decidable (EventSkipped cin count) :=
  inferInstanceAs (Decidable (_ ∨ _))

/-- The loop over the events, with this many turns to go. -/
def netplayEvents (data : Bytes) (player : ℕ) :
    ℕ → ℕ → NetplayTables → NetplayTables × List PacketAccess
  | 0, _, s => (s, [.data 4])
  | turns + 1, curr, s =>
    let count := sdlNetRead32 data curr
    let cin := s.cinCompats player
    let record :=
      if EventSkipped cin count then []
      else read32Accesses (curr + 4) ++ [.data (curr + 8)]
    let cin := netplayRecord cin count (sdlNetRead32 data (curr + 4)) (data (curr + 8))
    let rest := netplayEvents data player turns (curr + 9) (s.setCin player cin)
    (rest.1, .data 4 :: read32Accesses curr ++ .cinCompats player :: record ++ rest.2)

/-- The update of `l_player_lag` by a datagram that carries it. -/
def netplayLag (s : NetplayTables) (data : Bytes) : NetplayTables × List PacketAccess :=
  let player := (data 1).toNat
  if data 0 = udpReceiveKeyInfo then
    ({ s with playerLag := Function.update s.playerLag player (data 3) },
      [.data 3, .playerLag player])
  else (s, [])

/-- The update of `l_status`. -/
def netplayStatus (s : NetplayTables) (status : BitVec 8) : NetplayTables :=
  if status ≠ s.status then { s with status := status } else s

/-- The switch of `netplay_process` on a datagram. -/
def netplayPacket (s : NetplayTables) (packet : UdpPacket) : NetplayTables × List PacketAccess :=
  let data := packet.data
  if data 0 = udpReceiveKeyInfo ∨ data 0 = udpReceiveKeyInfoGratuitous then
    let lag := netplayLag s data
    let s := netplayStatus lag.1 (data 2)
    let events := netplayEvents data (data 1).toNat (data 4).toNat 5 s
    (events.1, [.data 0, .data 1, .data 2] ++ lag.2 ++ events.2)
  else (s, [.data 0])

/-- The tables behind a datagram. -/
def netplayStep (s : NetplayTables) (packet : UdpPacket) : NetplayTables :=
  (netplayPacket s packet).1

/-- A datagram of which only received bytes are read, and entries of the four players. -/
def PacketSafe (s : NetplayTables) (packet : UdpPacket) : Prop :=
  ∀ a ∈ (netplayPacket s packet).2, a.InRange packet.len

-- ════════════════════
-- What a datagram needs
-- ════════════════════

/-- The last event is skipped: it is old, or recorded before, or a repetition. -/
def LastSkipped (cin : ControllerInputCompat) (data : Bytes) (curr turns : ℕ) : Prop :=
  EventSkipped cin (sdlNetRead32 data (curr + 9 * (turns - 1))) ∨
    ∃ i < turns - 1, sdlNetRead32 data (curr + 9 * i) =
      sdlNetRead32 data (curr + 9 * (turns - 1))

/-- The bytes of this many events: all nine of the last one, or the first four if it is skipped. -/
def EventsCovered (cin : ControllerInputCompat) (data : Bytes) (len curr turns : ℕ) : Prop :=
  curr + 9 * turns ≤ len ∨ curr + 9 * turns ≤ len + 5 ∧ LastSkipped cin data curr turns

/-- The header, a player where a table is read, and the bytes of the events. -/
def PacketCovered (s : NetplayTables) (packet : UdpPacket) : Prop :=
  let data := packet.data
  let player := (data 1).toNat
  1 ≤ packet.len ∧
    (data 0 = udpReceiveKeyInfo ∨ data 0 = udpReceiveKeyInfoGratuitous →
      5 ≤ packet.len ∧ (data 0 = udpReceiveKeyInfo → player < 4) ∧
        (data 4 ≠ 0 → player < 4 ∧
          EventsCovered (s.cinCompats player) data packet.len 5 (data 4).toNat))

theorem netplayRecord_eq (cin : ControllerInputCompat) (count keys : BitVec 32)
    (plugin : BitVec 8) :
    netplayRecord cin count keys plugin =
      if EventSkipped cin count then cin
      else { cin with events := ⟨keys, plugin, count⟩ :: cin.events } := rfl

/-- What is skipped behind an event: what was skipped before, and the event itself. -/
theorem eventSkipped_record (cin : ControllerInputCompat) (c count keys : BitVec 32)
    (plugin : BitVec 8) :
    EventSkipped (netplayRecord cin c keys plugin) count ↔ EventSkipped cin count ∨ c = count := by
  rw [netplayRecord_eq]
  split
  next hskip =>
    refine (or_iff_left_of_imp ?_).symm
    rintro rfl
    exact hskip
  next =>
    simp only [EventSkipped, checkValid, List.any_cons, Bool.or_eq_true, beq_iff_eq]
    tauto

theorem lastSkipped_succ (cin : ControllerInputCompat) (data : Bytes) (curr turns : ℕ)
    (keys : BitVec 32) (plugin : BitVec 8) (hturns : 0 < turns) :
    LastSkipped cin data curr (turns + 1) ↔
      LastSkipped (netplayRecord cin (sdlNetRead32 data curr) keys plugin) data (curr + 9)
        turns := by
  have hlast : curr + 9 * (turns + 1 - 1) = curr + 9 + 9 * (turns - 1) := by omega
  unfold LastSkipped
  rw [eventSkipped_record, hlast, or_assoc]
  refine or_congr_right ?_
  constructor
  · rintro ⟨i, hi, heq⟩
    cases i with
    | zero => exact Or.inl heq
    | succ i =>
      refine Or.inr ⟨i, by omega, ?_⟩
      rw [← heq]
      congr 1
      omega
  · rintro (heq | ⟨i, hi, heq⟩)
    · exact ⟨0, by omega, heq⟩
    · refine ⟨i + 1, by omega, ?_⟩
      rw [← heq]
      congr 1
      omega

-- ════════════════════
-- The loop
-- ════════════════════

@[simp] theorem inRange_data {i len : ℕ} : (PacketAccess.data i).InRange len ↔ i < len := Iff.rfl

@[simp] theorem inRange_playerLag {player len : ℕ} :
    (PacketAccess.playerLag player).InRange len ↔ player < 4 := Iff.rfl

@[simp] theorem inRange_cinCompats {player len : ℕ} :
    (PacketAccess.cinCompats player).InRange len ↔ player < 4 := Iff.rfl

theorem read32Accesses_inRange {curr len : ℕ} :
    (∀ a ∈ read32Accesses curr, a.InRange len) ↔ curr + 4 ≤ len := by
  simp only [read32Accesses, List.forall_mem_cons, List.not_mem_nil, false_implies,
    implies_true, and_true, inRange_data]
  omega

/-- The reads of the keys and the plugin of an event. -/
theorem record_inRange {cin : ControllerInputCompat} {count : BitVec 32} {curr len : ℕ} :
    (∀ a ∈ if EventSkipped cin count then []
        else read32Accesses (curr + 4) ++ [PacketAccess.data (curr + 8)], a.InRange len) ↔
      (¬EventSkipped cin count → curr + 9 ≤ len) := by
  by_cases hskip : EventSkipped cin count
  · simp [hskip]
  · rw [if_neg hskip, List.forall_mem_append, read32Accesses_inRange, List.forall_mem_singleton,
      inRange_data, imp_iff_right hskip]
    omega

/-- The reads of one turn, and those of the turns behind it. -/
theorem netplayEvents_succ_inRange (data : Bytes) (player len turns curr : ℕ)
    (s : NetplayTables) :
    (∀ a ∈ (netplayEvents data player (turns + 1) curr s).2, a.InRange len) ↔
      4 < len ∧ curr + 4 ≤ len ∧ player < 4 ∧
        (¬EventSkipped (s.cinCompats player) (sdlNetRead32 data curr) → curr + 9 ≤ len) ∧
        ∀ a ∈ (netplayEvents data player turns (curr + 9)
          (s.setCin player (netplayRecord (s.cinCompats player) (sdlNetRead32 data curr)
            (sdlNetRead32 data (curr + 4)) (data (curr + 8))))).2, a.InRange len := by
  rw [netplayEvents]
  dsimp only
  rw [List.forall_mem_append, List.forall_mem_append, List.forall_mem_cons, List.forall_mem_cons,
    read32Accesses_inRange, record_inRange, inRange_data, inRange_cinCompats]
  tauto

theorem netplayEvents_inRange_iff (data : Bytes) (player len turns curr : ℕ)
    (s : NetplayTables) :
    (∀ a ∈ (netplayEvents data player turns curr s).2, a.InRange len) ↔
      4 < len ∧ (0 < turns →
        player < 4 ∧ EventsCovered (s.cinCompats player) data len curr turns) := by
  induction turns generalizing curr s with
  | zero =>
    rw [netplayEvents]
    simp [PacketAccess.InRange]
  | succ turns ih =>
    rw [netplayEvents_succ_inRange, ih]
    rw [NetplayTables.setCin]
    dsimp only
    rw [Function.update_self]
    unfold EventsCovered
    rcases Nat.eq_zero_or_pos turns with rfl | hturns
    · have hlast : LastSkipped (s.cinCompats player) data curr (0 + 1) ↔
          EventSkipped (s.cinCompats player) (sdlNetRead32 data curr) := by
        simp [LastSkipped]
      rw [hlast]
      by_cases hskip : EventSkipped (s.cinCompats player) (sdlNetRead32 data curr)
      · simp only [hskip, not_true_eq_false, false_implies, true_and, and_true]
        omega
      · simp only [hskip, not_false_eq_true, true_implies, and_false, or_false]
        omega
    · rw [← lastSkipped_succ _ _ _ _ _ _ hturns]
      by_cases hskip : LastSkipped (s.cinCompats player) data curr (turns + 1)
      · simp only [hskip, and_true]
        omega
      · simp only [hskip, and_false, or_false]
        omega

-- ════════════════════
-- Datagrams
-- ════════════════════

theorem netplayLag_cinCompats (s : NetplayTables) (data : Bytes) :
    (netplayLag s data).1.cinCompats = s.cinCompats := by
  unfold netplayLag
  dsimp only
  split <;> rfl

theorem netplayStatus_cinCompats (s : NetplayTables) (status : BitVec 8) :
    (netplayStatus s status).cinCompats = s.cinCompats := by
  unfold netplayStatus
  split <;> rfl

theorem netplayLag_inRange {s : NetplayTables} {data : Bytes} {len : ℕ} :
    (∀ a ∈ (netplayLag s data).2, a.InRange len) ↔
      (data 0 = udpReceiveKeyInfo → 3 < len ∧ (data 1).toNat < 4) := by
  unfold netplayLag
  dsimp only
  split
  next hkey => simp [hkey]
  next hkey => simp [hkey]

/-- Exactly when a datagram is read inside its bytes and the tables inside their four players. -/
theorem packetSafe_iff (s : NetplayTables) (packet : UdpPacket) :
    PacketSafe s packet ↔ PacketCovered s packet := by
  unfold PacketSafe netplayPacket PacketCovered
  dsimp only
  split
  next hkeys =>
    have hevents : 0 < (packet.data 4).toNat ↔ packet.data 4 ≠ 0 := by
      rw [Nat.pos_iff_ne_zero, ← BitVec.toNat_ne_iff_ne]
      rfl
    rw [List.forall_mem_append, List.forall_mem_append, netplayEvents_inRange_iff,
      netplayStatus_cinCompats, netplayLag_cinCompats, netplayLag_inRange, hevents]
    simp only [List.forall_mem_cons, List.not_mem_nil, false_implies, implies_true, and_true,
      inRange_data, hkeys, true_implies]
    constructor
    · rintro ⟨⟨-, hlag⟩, hlen, hcovered⟩
      exact ⟨by omega, by omega, fun h => (hlag h).2, hcovered⟩
    · rintro ⟨-, hlen, hlag, hcovered⟩
      exact ⟨⟨by omega, fun h => ⟨by omega, hlag h⟩⟩, by omega, hcovered⟩
  next hother =>
    simp only [List.forall_mem_singleton, inRange_data]
    tauto

/-- Exactly when every datagram of a call of `netplay_process` is read in range. -/
theorem netplayProcess_safe_iff (s : NetplayTables) (packets : List UdpPacket) :
    Runs.Along netplayStep PacketSafe s packets ↔
      Runs.Along netplayStep PacketCovered s packets :=
  Runs.along_congr packetSafe_iff s packets

/-- A datagram for a fifth player. -/
def fifthPlayer : UdpPacket where
  data := fun i => if i = 0 then 1 else if i = 1 then 4 else 0
  len := 5
  len_le := by decide

theorem not_netplayProcess_safe :
    ¬∀ (s : NetplayTables) (packets : List UdpPacket),
      Runs.Along netplayStep PacketSafe s packets := by
  intro h
  have hsafe := (h ⟨0, fun _ => 0, fun _ => ⟨0, []⟩⟩ [fifthPlayer]).1
  have hcovered := ((packetSafe_iff _ _).1 hsafe).2 (by decide)
  exact absurd (hcovered.2.1 (by decide)) (by decide)

end Mupen64plus
