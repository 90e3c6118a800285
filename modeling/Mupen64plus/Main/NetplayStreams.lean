import Mathlib.Algebra.BigOperators.Intervals
import Mathlib.Algebra.Order.Ring.Int
import Mathlib.Tactic.Common
import Mathlib.Tactic.Ring

/-!
# The streams of a netplay client

Five functions of `main/netplay.c` take a buffer from a TCP stream in a loop that adds the results
of `SDLNet_TCP_Recv` to a counter. A byte is known here by its place in the stream.

## Main definitions

- `CounterRange` — the type of a counter
- `receiveLoop` — the loop; `NetplayReceiver` — the functions
- `ReceivesExactly`, `ReceivesWhen`

## Main results

- `completes_of_filled`, `receiveLoop_of_completes` — what fills a buffer
- `netplayReceive_iff` — exactly when each function fills its buffer or fails
-/

namespace Mupen64plus

-- ════════════════════
-- The loop
-- ════════════════════

/-- The values of a counter. -/
structure CounterRange where
  lo : ℤ
  hi : ℤ
  lo_le : lo ≤ 0
  le_hi : 2 ^ 31 - 1 ≤ hi

namespace CounterRange

def sizeT : CounterRange := ⟨0, 2 ^ 64 - 1, by decide, by decide⟩

def int32 : CounterRange := ⟨-2 ^ 31, 2 ^ 31 - 1, by decide, by decide⟩

/-- The conversion to the type of the counter. -/
def wrap (range : CounterRange) (x : ℤ) : ℤ :=
  range.lo + (x - range.lo) % (range.hi - range.lo + 1)

theorem wrap_of_mem (range : CounterRange) {x : ℤ} (hlo : range.lo ≤ x) (hhi : x ≤ range.hi) :
    range.wrap x = x := by
  rw [wrap, Int.emod_eq_of_lt (by omega) (by omega)]
  omega

theorem wrap_pred (range : CounterRange) : range.wrap (range.lo - 1) = range.hi := by
  have h := range.lo_le
  have h' := range.le_hi
  have hmod : (range.lo - 1 - range.lo) % (range.hi - range.lo + 1) = range.hi - range.lo := by
    rw [show range.lo - 1 - range.lo =
      (range.hi - range.lo) + (range.hi - range.lo + 1) * (-1) by ring, Int.add_mul_emod_self_left,
      Int.emod_eq_of_lt (by omega) (by omega)]
  rw [wrap, hmod]
  omega

end CounterRange

/-- `recv`, the calls so far, the place in the stream, and for each byte at and around the buffer
    the place of the byte that it holds. -/
structure Reception where
  recv : ℤ
  calls : ℕ
  next : ℕ
  cells : ℤ → Option ℕ

namespace Reception

def start : Reception := ⟨0, 0, 0, fun _ => none⟩

/-- `recv += SDLNet_TCP_Recv(l_tcpSocket, &buffer[recv], size - recv)` with this result. -/
def turn (range : CounterRange) (result : ℤ) (s : Reception) : Reception where
  recv := range.wrap (s.recv + result)
  calls := s.calls + 1
  next := s.next + result.toNat
  cells := fun i =>
    if s.recv ≤ i ∧ i < s.recv + result then some (s.next + (i - s.recv).toNat) else s.cells i

/-- The buffer holds the first bytes of the stream. -/
def Filled (s : Reception) (size : ℕ) : Prop :=
  ∀ i : ℕ, i < size → s.cells i = some i

/-- Nothing is written outside of the buffer. -/
def Clean (s : Reception) (size : ℕ) : Prop :=
  ∀ i : ℤ, i < 0 ∨ size ≤ i → s.cells i = none

end Reception

/-- `while (recv < size)`; `checked` is whether `recv < 1` behind a call fails. -/
def receiveLoop (range : CounterRange) (checked : Bool) (results : ℕ → ℤ) (size : ℕ) :
    ℕ → Reception → Option (Bool × Reception)
  | 0, s => if s.recv < size then none else some (true, s)
  | fuel + 1, s =>
    if s.recv < size then
      let s' := s.turn range (results s.calls)
      if checked ∧ s'.recv < 1 then some (false, s')
      else receiveLoop range checked results size fuel s'
    else some (true, s)

/-- The sum of the first results. -/
def received (results : ℕ → ℤ) (n : ℕ) : ℤ := ∑ i ∈ Finset.range n, results i

/-- Each call returns -1, 0 or at most what it asks for. -/
def ResultsValid (results : ℕ → ℤ) (size : ℕ) : Prop :=
  ∀ n, -1 ≤ results n ∧
    ((∀ m ≤ n, received results m < size) → results n ≤ size - received results n)

theorem received_zero (results : ℕ → ℤ) : received results 0 = 0 := Finset.sum_range_zero _

theorem received_succ (results : ℕ → ℤ) (n : ℕ) :
    received results (n + 1) = received results n + results n := Finset.sum_range_succ _ _

-- ════════════════════
-- The counter
-- ════════════════════

/-- The counter is the sum of the results, and the loop has not ended before. -/
structure Reception.Tracks (results : ℕ → ℤ) (size : ℕ) (s : Reception) : Prop where
  recv : s.recv = received results s.calls
  before : ∀ m < s.calls, received results m < size

section

variable {range : CounterRange} {checked : Bool} {results : ℕ → ℤ} {size : ℕ} {s : Reception}

theorem result_le (hvalid : ResultsValid results size) (hs : s.Tracks results size)
    (hlt : s.recv < size) : results s.calls ≤ size - s.recv := by
  rw [hs.recv] at hlt ⊢
  refine (hvalid s.calls).2 fun m hm => ?_
  rcases hm.lt_or_eq with hm | rfl
  · exact hs.before m hm
  · exact hlt

theorem turn_recv (hsize : size < 2 ^ 31) (hvalid : ResultsValid results size)
    (hs : s.Tracks results size) (hlo : range.lo ≤ s.recv + results s.calls)
    (hlt : s.recv < size) :
    (s.turn range (results s.calls)).recv = s.recv + results s.calls := by
  have hle := result_le hvalid hs hlt
  have hhi := range.le_hi
  exact range.wrap_of_mem hlo (by omega)

theorem turn_tracks (hsize : size < 2 ^ 31) (hvalid : ResultsValid results size)
    (hs : s.Tracks results size) (hlo : range.lo ≤ s.recv + results s.calls)
    (hlt : s.recv < size) : (s.turn range (results s.calls)).Tracks results size where
  recv := by
    rw [turn_recv hsize hvalid hs hlo hlt, hs.recv]
    exact (received_succ results s.calls).symm
  before := by
    intro m hm
    have hm' : m < s.calls + 1 := hm
    rcases (Nat.lt_succ_iff.1 hm').lt_or_eq with hm | rfl
    · exact hs.before m hm
    · exact hs.recv ▸ hlt

-- ════════════════════
-- Without a failure
-- ════════════════════

/-- No call has failed: the buffer holds the bytes received so far, in order. -/
structure Reception.Aligned (results : ℕ → ℤ) (size : ℕ) (s : Reception) : Prop
    extends s.Tracks results size where
  next : s.recv = s.next
  le_size : s.recv ≤ size
  cells : ∀ i, s.cells i = if 0 ≤ i ∧ i < s.recv then some i.toNat else none
  sound : ∀ m < s.calls, results m ≠ -1

theorem aligned_start : Reception.start.Aligned results size where
  recv := (received_zero results).symm
  before := fun m hm => absurd hm (Nat.not_lt_zero m)
  next := rfl
  le_size := Int.natCast_nonneg size
  cells := by
    intro i
    change none = if 0 ≤ i ∧ i < 0 then some i.toNat else none
    rw [if_neg (by omega)]
  sound := fun m hm => absurd hm (Nat.not_lt_zero m)

theorem aligned_turn (hsize : size < 2 ^ 31) (hvalid : ResultsValid results size)
    (hs : s.Aligned results size) (hlt : s.recv < size) (hsound : results s.calls ≠ -1) :
    (s.turn range (results s.calls)).Aligned results size := by
  have hle := result_le hvalid hs.toTracks hlt
  have hge := (hvalid s.calls).1
  have hnext := hs.next
  have hlo : range.lo ≤ s.recv + results s.calls := by
    have := range.lo_le
    omega
  have hrecv := turn_recv hsize hvalid hs.toTracks hlo hlt
  refine ⟨turn_tracks hsize hvalid hs.toTracks hlo hlt, ?_, ?_, fun i => ?_, fun m hm => ?_⟩
  · rw [hrecv, Reception.turn]
    dsimp only
    omega
  · rw [hrecv]
    omega
  · rw [hrecv, Reception.turn]
    dsimp only
    rw [hs.cells]
    by_cases hi : s.recv ≤ i ∧ i < s.recv + results s.calls
    · rw [if_pos hi, if_pos (by omega)]
      congr 1
      omega
    · rw [if_neg hi]
      by_cases hi' : 0 ≤ i ∧ i < s.recv
      · rw [if_pos hi', if_pos (by omega)]
      · rw [if_neg hi', if_neg (by omega)]
  · have hm' : m < s.calls + 1 := hm
    rcases (Nat.lt_succ_iff.1 hm').lt_or_eq with hm | rfl
    · exact hs.sound m hm
    · exact hsound

-- ════════════════════
-- Behind a failure
-- ════════════════════

/-- A call has failed: the stream is ahead of the buffer, whose last byte does not get its own. -/
structure Reception.Lost (range : CounterRange) (results : ℕ → ℤ) (size : ℕ) (s : Reception) :
    Prop where
  last : s.cells (size - 1) ≠ some (size - 1)
  ahead : s.recv < size → s.recv < s.next ∧ s.cells (size - 1) = none ∧ range.lo ≤ s.recv ∧
    s.Tracks results size

theorem lost_turn_of (hpos : 0 < size) (hsize : size < 2 ^ 31) (hvalid : ResultsValid results size)
    (hs : s.Tracks results size) (hlo : range.lo ≤ s.recv) (hlt : s.recv < size)
    (hlast : s.cells (size - 1) = none)
    (hahead : s.recv + results s.calls < s.next + (results s.calls).toNat) :
    (s.turn range (results s.calls)).Lost range results size := by
  have hle := result_le hvalid hs hlt
  have hge := (hvalid s.calls).1
  have hhi := range.le_hi
  by_cases hin : range.lo ≤ s.recv + results s.calls
  · have hrecv := turn_recv hsize hvalid hs hin hlt
    constructor
    · rw [Reception.turn]
      dsimp only
      split
      next hi =>
        rw [ne_eq, Option.some_inj]
        omega
      next =>
        rw [hlast]
        exact nofun
    · intro hlt'
      rw [hrecv] at hlt' ⊢
      refine ⟨?_, ?_, hin, turn_tracks hsize hvalid hs hin hlt⟩
      · change s.recv + results s.calls < ((s.next + (results s.calls).toNat : ℕ) : ℤ)
        omega
      · rw [Reception.turn]
        dsimp only
        rw [if_neg (by omega), hlast]
  · have hwrap : (s.turn range (results s.calls)).recv = range.hi := by
      change range.wrap (s.recv + results s.calls) = range.hi
      rw [show s.recv + results s.calls = range.lo - 1 by omega, range.wrap_pred]
    constructor
    · rw [Reception.turn]
      dsimp only
      rw [if_neg (by omega), hlast]
      exact nofun
    · intro hlt'
      rw [hwrap] at hlt'
      omega

theorem lost_turn (hpos : 0 < size) (hsize : size < 2 ^ 31) (hvalid : ResultsValid results size)
    (hs : s.Lost range results size) (hlt : s.recv < size) :
    (s.turn range (results s.calls)).Lost range results size := by
  obtain ⟨hahead, hlast, hlo, htracks⟩ := hs.ahead hlt
  exact lost_turn_of hpos hsize hvalid htracks hlo hlt hlast (by omega)

theorem aligned_turn_lost (hsize : size < 2 ^ 31) (hvalid : ResultsValid results size)
    (hs : s.Aligned results size) (hlt : s.recv < size) (hfailed : results s.calls = -1) :
    (s.turn range (results s.calls)).Lost range results size := by
  have hnext := hs.next
  have hlo := range.lo_le
  refine lost_turn_of (by omega) hsize hvalid hs.toTracks (by omega) hlt ?_ (by omega)
  rw [hs.cells, if_neg (by omega)]

/-- Behind a failure the loop does not fill the buffer. -/
theorem lost_run (hpos : 0 < size) (hsize : size < 2 ^ 31) (hvalid : ResultsValid results size)
    (hs : s.Lost range results size) {fuel : ℕ} {s' : Reception}
    (hrun : receiveLoop range checked results size fuel s = some (true, s')) :
    s'.cells (size - 1) ≠ some (size - 1) := by
  induction fuel generalizing s with
  | zero =>
    rw [receiveLoop] at hrun
    split at hrun
    · exact absurd hrun nofun
    · rw [← (Prod.mk.inj (Option.some_inj.1 hrun)).2]
      exact hs.last
  | succ fuel ih =>
    rw [receiveLoop] at hrun
    split at hrun
    next hlt =>
      dsimp only at hrun
      split at hrun
      · exact absurd (Prod.mk.inj (Option.some_inj.1 hrun)).1 Bool.noConfusion
      · exact ih (lost_turn hpos hsize hvalid hs hlt) hrun
    next =>
      rw [← (Prod.mk.inj (Option.some_inj.1 hrun)).2]
      exact hs.last

-- ════════════════════
-- Filled buffers
-- ════════════════════

/-- The results reach the size of the buffer, and no call fails before. -/
def Completes (results : ℕ → ℤ) (size : ℕ) : Prop :=
  ∃ n, received results n = size ∧ ∀ m < n, results m ≠ -1

/-- The sum of the results falls below 1 before it reaches the size. -/
def FallsBelow (results : ℕ → ℤ) (size : ℕ) : Prop :=
  ∃ n, 0 < n ∧ received results n < 1 ∧ ∀ m < n, received results m < size

theorem aligned_completes (hs : s.Aligned results size) (hge : ¬s.recv < size) :
    Completes results size :=
  ⟨s.calls, hs.recv ▸ le_antisymm hs.le_size (not_lt.1 hge), hs.sound⟩

theorem completes_of_filled (hsize : size < 2 ^ 31) (hvalid : ResultsValid results size)
    (hs : s.Aligned results size) {fuel : ℕ} {s' : Reception}
    (hrun : receiveLoop range checked results size fuel s = some (true, s'))
    (hfilled : s'.Filled size) : Completes results size := by
  induction fuel generalizing s with
  | zero =>
    rw [receiveLoop] at hrun
    split at hrun
    · exact absurd hrun nofun
    next hge => exact aligned_completes hs hge
  | succ fuel ih =>
    rw [receiveLoop] at hrun
    split at hrun
    next hlt =>
      dsimp only at hrun
      split at hrun
      · exact absurd (Prod.mk.inj (Option.some_inj.1 hrun)).1 Bool.noConfusion
      · by_cases hsound : results s.calls = -1
        · have hnext := hs.next
          have hpos : 0 < size := by omega
          have hlost :=
            lost_run hpos hsize hvalid (aligned_turn_lost hsize hvalid hs hlt hsound) hrun
          have hcell := hfilled (size - 1) (by omega)
          rw [Nat.cast_sub (by omega)] at hcell
          exact absurd hcell hlost
        · exact ih (aligned_turn hsize hvalid hs hlt hsound) hrun
    next hge => exact aligned_completes hs hge

theorem aligned_filled (hs : s.Aligned results size) (hge : ¬s.recv < size) :
    s.Filled size ∧ s.Clean size := by
  have hle := hs.le_size
  constructor
  · intro i hi
    rw [hs.cells, if_pos (by omega)]
    rfl
  · intro i hi
    rw [hs.cells, if_neg (by omega)]

theorem aligned_clean (hs : s.Aligned results size) : s.Clean size := by
  intro i hi
  have hle := hs.le_size
  rw [hs.cells, if_neg (by omega)]

/-- Without a failure the loop ends; with the check it may report one. -/
theorem receiveLoop_of_completes (hsize : size < 2 ^ 31) (hvalid : ResultsValid results size)
    {n : ℕ} (hn : received results n = size) (hsound : ∀ m < n, results m ≠ -1)
    (hs : s.Aligned results size) (hcalls : s.calls ≤ n) :
    ∃ fuel ok s', receiveLoop range checked results size fuel s = some (ok, s') ∧
      (ok = false → checked = true) ∧ (ok = true → s'.Filled size) ∧ s'.Clean size := by
  induction hk : n - s.calls generalizing s with
  | zero =>
    have heq : s.calls = n := by omega
    have hge : ¬s.recv < size := by
      rw [hs.recv, heq, hn]
      exact lt_irrefl _
    exact ⟨0, true, s, by rw [receiveLoop, if_neg hge], fun h => absurd h Bool.noConfusion,
      fun _ => (aligned_filled hs hge).1, aligned_clean hs⟩
  | succ k ih =>
    by_cases hlt : s.recv < size
    · have hturn : (s.turn range (results s.calls)).Aligned results size :=
        aligned_turn hsize hvalid hs hlt (hsound s.calls (by omega))
      by_cases hcheck : checked ∧ (s.turn range (results s.calls)).recv < 1
      · refine ⟨1, false, s.turn range (results s.calls), ?_, fun _ => hcheck.1,
          fun h => absurd h Bool.noConfusion, aligned_clean hturn⟩
        rw [receiveLoop, if_pos hlt]
        dsimp only
        rw [if_pos hcheck]
      · have hcalls' : (s.turn range (results s.calls)).calls = s.calls + 1 := rfl
        obtain ⟨fuel, ok, s', hrun, hrest⟩ := ih hturn (by omega) (by omega)
        refine ⟨fuel + 1, ok, s', ?_, hrest⟩
        rw [receiveLoop, if_pos hlt]
        dsimp only
        rw [if_neg hcheck, hrun]
    · exact ⟨0, true, s, by rw [receiveLoop, if_neg hlt], fun h => absurd h Bool.noConfusion,
        fun _ => (aligned_filled hs hlt).1, aligned_clean hs⟩

-- ════════════════════
-- Failures that are reported
-- ════════════════════

/-- A loop that reports a failure has a counter below 1. -/
theorem fallsBelow_of_failed (hsize : size < 2 ^ 31) (hvalid : ResultsValid results size)
    (hrange : range.lo ≤ -1) (hs : s.Tracks results size) (hnonneg : 0 ≤ s.recv) {fuel : ℕ}
    {s' : Reception} (hrun : receiveLoop range true results size fuel s = some (false, s')) :
    FallsBelow results size := by
  induction fuel generalizing s with
  | zero =>
    rw [receiveLoop] at hrun
    split at hrun
    · exact absurd hrun nofun
    · exact absurd (Prod.mk.inj (Option.some_inj.1 hrun)).1 Bool.noConfusion
  | succ fuel ih =>
    rw [receiveLoop] at hrun
    split at hrun
    next hlt =>
      have hge := (hvalid s.calls).1
      have hturn := turn_tracks hsize hvalid hs (show range.lo ≤ _ by omega) hlt
      dsimp only at hrun
      split at hrun
      next hcheck =>
        refine ⟨s.calls + 1, Nat.succ_pos _, ?_, hturn.before⟩
        have hrecv := hturn.recv
        have hbelow := hcheck.2
        rw [hrecv] at hbelow
        exact hbelow
      next hcheck =>
        have hnotBelow : ¬(s.turn range (results s.calls)).recv < 1 := fun h => hcheck ⟨rfl, h⟩
        exact ih hturn (by omega) hrun
    next => exact absurd (Prod.mk.inj (Option.some_inj.1 hrun)).1 Bool.noConfusion

/-- A loop without the check reports no failure. -/
theorem receiveLoop_unchecked {fuel : ℕ} {ok : Bool} {s' : Reception}
    (hrun : receiveLoop range false results size fuel s = some (ok, s')) : ok = true := by
  induction fuel generalizing s with
  | zero =>
    rw [receiveLoop] at hrun
    split at hrun
    · exact absurd hrun nofun
    · exact (Prod.mk.inj (Option.some_inj.1 hrun)).1.symm
  | succ fuel ih =>
    rw [receiveLoop] at hrun
    split at hrun
    · dsimp only at hrun
      rw [if_neg (fun h => Bool.noConfusion h.1)] at hrun
      exact ih hrun
    · exact (Prod.mk.inj (Option.some_inj.1 hrun)).1.symm

/-- A counter that falls below 1 is reported, before anything is written outside of the buffer. -/
theorem receiveLoop_of_fallsBelow (hsize : size < 2 ^ 31) (hvalid : ResultsValid results size)
    (hrange : range.lo ≤ -1) {n : ℕ} (hn : received results n < 1)
    (hbefore : ∀ m < n, received results m < size) (hs : s.Tracks results size)
    (hnonneg : 0 ≤ s.recv) (hclean : s.Clean size) (hcalls : s.calls < n) :
    ∃ fuel s', receiveLoop range true results size fuel s = some (false, s') ∧ s'.Clean size := by
  induction hk : n - s.calls generalizing s with
  | zero => omega
  | succ k ih =>
    have hlt : s.recv < size := hs.recv ▸ hbefore s.calls hcalls
    have hle := result_le hvalid hs hlt
    have hge := (hvalid s.calls).1
    have hturn := turn_tracks hsize hvalid hs (show range.lo ≤ _ by omega) hlt
    have hclean' : (s.turn range (results s.calls)).Clean size := by
      intro i hi
      rw [Reception.turn]
      dsimp only
      rw [if_neg (by omega), hclean i hi]
    by_cases hbelow : (s.turn range (results s.calls)).recv < 1
    · refine ⟨1, s.turn range (results s.calls), ?_, hclean'⟩
      rw [receiveLoop, if_pos hlt]
      dsimp only
      rw [if_pos ⟨rfl, hbelow⟩]
    · have hcalls' : (s.turn range (results s.calls)).calls = s.calls + 1 := rfl
      have hmore : (s.turn range (results s.calls)).calls < n := by
        rcases Nat.lt_or_ge (s.calls + 1) n with h | h
        · omega
        · have heq : s.calls + 1 = n := by omega
          have hrecv := hturn.recv
          rw [hcalls', heq] at hrecv
          omega
      obtain ⟨fuel, s', hrun, hend⟩ := ih hturn (by omega) hclean' hmore (by omega)
      refine ⟨fuel + 1, s', ?_, hend⟩
      rw [receiveLoop, if_pos hlt]
      dsimp only
      rw [if_neg (fun h => hbelow h.2), hrun]

end

-- ════════════════════
-- The functions
-- ════════════════════

/-- `netplay_is_init()`, and whether `l_netplay_control[0] != -1`. -/
structure NetplayClient where
  isInit : Bool
  playerOne : Bool

def settingsSize : ℕ := 24

/-- The loop of `netplay_register_player`. -/
def netplayRegisterPlayer (results : ℕ → ℤ) (fuel : ℕ) : Option (Bool × Reception) :=
  receiveLoop .sizeT false results 2 fuel .start

/-- The loop of `netplay_read_storage`. -/
def netplayReadStorage (size : ℕ) (results : ℕ → ℤ) (fuel : ℕ) : Option (Bool × Reception) :=
  receiveLoop .sizeT false results size fuel .start

/-- The loop of `netplay_sync_settings`. -/
def netplaySyncSettings (results : ℕ → ℤ) (fuel : ℕ) : Option (Bool × Reception) :=
  receiveLoop .int32 false results settingsSize fuel .start

/-- The loop of `netplay_read_registration`. -/
def netplayReadRegistration (results : ℕ → ℤ) (fuel : ℕ) : Option (Bool × Reception) :=
  receiveLoop .sizeT false results 24 fuel .start

/-- The loop of `netplay_receive_config`, which returns `M64ERR_SYSTEM_FAIL` behind its check. -/
def netplayReceiveConfig (size : ℕ) (results : ℕ → ℤ) (fuel : ℕ) : Option (Bool × Reception) :=
  receiveLoop .int32 true results size fuel .start

inductive NetplayReceiver where
  | registerPlayer
  | readStorage (size : ℕ)
  | syncSettings
  | readRegistration
  | receiveConfig (size : ℕ)

namespace NetplayReceiver

/-- The clients for which the function comes to its loop. -/
def receives (client : NetplayClient) : NetplayReceiver → Bool
  | registerPlayer => true
  | readStorage _ => !client.playerOne
  | syncSettings => client.isInit && !client.playerOne
  | readRegistration => client.isInit
  | receiveConfig _ => client.isInit && !client.playerOne

/-- The length of the buffer. -/
def size : NetplayReceiver → ℕ
  | registerPlayer => 2
  | readStorage size => size
  | syncSettings => settingsSize
  | readRegistration => 24
  | receiveConfig size => size

def checked : NetplayReceiver → Bool
  | receiveConfig _ => true
  | _ => false

def run (results : ℕ → ℤ) (fuel : ℕ) : NetplayReceiver → Option (Bool × Reception)
  | registerPlayer => netplayRegisterPlayer results fuel
  | readStorage size => netplayReadStorage size results fuel
  | syncSettings => netplaySyncSettings results fuel
  | readRegistration => netplayReadRegistration results fuel
  | receiveConfig size => netplayReceiveConfig size results fuel

/-- The function ends; it fills its buffer or reports a failure, and it writes nowhere else. -/
def ReceivesExactly (client : NetplayClient) (results : ℕ → ℤ) (f : NetplayReceiver) : Prop :=
  f.receives client → ∃ fuel ok s, f.run results fuel = some (ok, s) ∧
    (ok = true → s.Filled f.size) ∧ s.Clean f.size

/-- The buffer is full before a call fails, or the check sees a failure. -/
def ReceivesWhen (client : NetplayClient) (results : ℕ → ℤ) (f : NetplayReceiver) : Prop :=
  f.receives client →
    Completes results f.size ∨ f.checked = true ∧ FallsBelow results f.size

end NetplayReceiver

section

variable {range : CounterRange} {results : ℕ → ℤ} {size : ℕ}

theorem unchecked_iff (range : CounterRange) (hsize : size < 2 ^ 31)
    (hvalid : ResultsValid results size) :
    (∃ fuel ok s, receiveLoop range false results size fuel .start = some (ok, s) ∧
      (ok = true → s.Filled size) ∧ s.Clean size) ↔ Completes results size := by
  constructor
  · rintro ⟨fuel, ok, s, hrun, hfilled, -⟩
    have hok := receiveLoop_unchecked hrun
    subst hok
    exact completes_of_filled hsize hvalid aligned_start hrun (hfilled rfl)
  · rintro ⟨n, hn, hsound⟩
    obtain ⟨fuel, ok, s, hrun, -, hend⟩ :=
      receiveLoop_of_completes hsize hvalid hn hsound aligned_start (Nat.zero_le n)
    exact ⟨fuel, ok, s, hrun, hend⟩

theorem checked_iff (hrange : range.lo ≤ -1) (hsize : size < 2 ^ 31)
    (hvalid : ResultsValid results size) :
    (∃ fuel ok s, receiveLoop range true results size fuel .start = some (ok, s) ∧
      (ok = true → s.Filled size) ∧ s.Clean size) ↔
      Completes results size ∨ FallsBelow results size := by
  have hstart : Reception.start.Aligned results size := aligned_start
  constructor
  · rintro ⟨fuel, ok, s, hrun, hfilled, -⟩
    cases ok with
    | true => exact Or.inl (completes_of_filled hsize hvalid hstart hrun (hfilled rfl))
    | false =>
      exact Or.inr (fallsBelow_of_failed hsize hvalid hrange hstart.toTracks le_rfl hrun)
  · rintro (⟨n, hn, hsound⟩ | ⟨n, hpos, hn, hbefore⟩)
    · obtain ⟨fuel, ok, s, hrun, -, hend⟩ :=
        receiveLoop_of_completes hsize hvalid hn hsound hstart (Nat.zero_le n)
      exact ⟨fuel, ok, s, hrun, hend⟩
    · obtain ⟨fuel, s, hrun, hclean⟩ := receiveLoop_of_fallsBelow hsize hvalid hrange hn hbefore
        hstart.toTracks le_rfl (fun i _ => rfl) hpos
      exact ⟨fuel, false, s, hrun, fun h => absurd h Bool.noConfusion, hclean⟩

end

/-- Exactly when a function fills its buffer with the stream or reports a failure. -/
theorem netplayReceive_iff (client : NetplayClient) (f : NetplayReceiver) {results : ℕ → ℤ}
    (hsize : f.size < 2 ^ 31) (hvalid : ResultsValid results f.size) :
    f.ReceivesExactly client results ↔ f.ReceivesWhen client results := by
  unfold NetplayReceiver.ReceivesExactly NetplayReceiver.ReceivesWhen
  refine imp_congr_right fun _ => ?_
  cases f with
  | receiveConfig size =>
    refine (checked_iff (by decide) hsize hvalid).trans (or_congr_right ?_)
    exact (and_iff_right rfl).symm
  | registerPlayer | readRegistration | syncSettings | readStorage size =>
    refine (unchecked_iff _ hsize hvalid).trans (or_iff_left ?_).symm
    exact fun h => Bool.noConfusion h.1

theorem resultsValid_ones (size : ℕ) : ResultsValid (fun _ => 1) size := by
  refine fun n => ⟨show (-1 : ℤ) ≤ 1 by decide, fun h => ?_⟩
  have := h n le_rfl
  dsimp only
  omega

/-- A registration whose two bytes come one at a time. -/
theorem netplayReceive_registration :
    NetplayReceiver.registerPlayer.ReceivesExactly ⟨true, false⟩ fun _ => 1 :=
  (netplayReceive_iff _ _ (by decide) (resultsValid_ones _)).2 fun _ =>
    Or.inl ⟨2, by decide, fun _ _ => show (1 : ℤ) ≠ -1 by decide⟩

/-- A connection that fails at once. -/
theorem not_netplayReceive :
    ¬∀ (client : NetplayClient) (f : NetplayReceiver) (results : ℕ → ℤ), f.size < 2 ^ 31 →
      ResultsValid results f.size → f.ReceivesExactly client results := by
  intro h
  have hvalid : ResultsValid (fun _ => -1) 2 := by
    refine fun n => ⟨le_rfl, fun h => ?_⟩
    have := h n le_rfl
    dsimp only
    omega
  obtain ⟨n, hn, hsound⟩ := (unchecked_iff .sizeT (by decide) hvalid).1
    (h ⟨true, false⟩ .registerPlayer _ (by decide) hvalid rfl)
  cases n with
  | zero => exact absurd hn (by decide)
  | succ n => exact hsound 0 (Nat.succ_pos n) rfl

end Mupen64plus
