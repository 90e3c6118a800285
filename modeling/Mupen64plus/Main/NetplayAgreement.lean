import Mupen64plus.Lib.Runs
import Mupen64plus.Lib.SerialWindow
import Mupen64plus.Main.Netplay
import Mathlib.Data.List.Range

/-!
# Netplay clients agree on their inputs

The server answers from one log of inputs for each player, and its datagrams are lost, repeated and
delayed. A client holds the events of the log that it has yet to take, each once, and takes them in
their order.

## Main definitions

- `FromLog` — the events of a datagram are the log's
- `InputsAgree` — what a client has returned, and what it holds
- `NetplayQueue`, `NetplayAgreed` — the list of a player, and the invariant of both threads

## Main results

- `NetplayQueue.record`, `NetplayQueue.take` — an event comes, and the next event is taken
- `NetplayAgreed.step`
- `netplay_inputs_agree`
-/

namespace Mupen64plus

open SerialWindow

/-- The inputs of a player: keys and plugin. -/
abbrev NetplayLog := Fin 4 → ℕ → BitVec 32 × BitVec 8

/-- At `curr` a datagram has the event of the log with number `n`. -/
structure LoggedAt (log : NetplayLog) (player : Fin 4) (packet : Bytes) (curr n : ℕ) : Prop where
  count : sdlNetRead32 packet curr = BitVec.ofNat 32 n
  input : (sdlNetRead32 packet (curr + 4), packet (curr + 8)) = log player n

/-- An event that has not been on its way for 2^31 events, and is not a turn of the counter
    ahead. -/
def Timely (taken n : ℕ) : Prop := taken < n + 2 ^ 31 ∧ n < taken + 2 ^ 32

/-- Every event of a datagram is one of the log, and comes in time. -/
def FromLog (log : NetplayLog) (s : Netplay) : NetplayStep → Prop
  | .receive packet =>
    packet 0 = udpReceiveKeyInfo ∨ packet 0 = udpReceiveKeyInfoGratuitous →
      ∃ player : Fin 4, (packet 1).toNat = player ∧ ∀ i < (packet 4).toNat,
        ∃ n, Timely (s.returned player).length n ∧ LoggedAt log player packet (5 + 9 * i) n
  | _ => True

def NetplayLog.event (log : NetplayLog) (player : Fin 4) (n : ℕ) : NetplayEvent :=
  ⟨(log player n).1, (log player n).2, BitVec.ofNat 32 n⟩

/-- For each player, the calls have returned the log from its start on, each event once. What the
    client holds is to be taken later, one event for a count. -/
structure InputsAgree (log : NetplayLog) (s : Netplay) : Prop where
  returned : ∀ p, s.returned p = (List.range (s.returned p).length).map (log p)
  count : ∀ p, (s.cinCompats p).netplayCount = BitVec.ofNat 32 (s.returned p).length
  apart : ∀ p, ((s.cinCompats p).events.map NetplayEvent.count).Nodup
  recent : ∀ p, ∀ e ∈ (s.cinCompats p).events, ∃ n,
    (s.returned p).length ≤ n ∧ n < (s.returned p).length + 2 ^ 31 ∧ e = log.event p n
  running : s.main ≠ .fault

-- ════════════════════
-- The list of a player
-- ════════════════════

theorem netplayDeleteEvent_eq (events : List NetplayEvent) (i : ℕ) :
    netplayDeleteEvent events i = events.eraseIdx i := by
  induction events generalizing i with
  | nil => rfl
  | cons e es ih =>
    cases i with
    | zero => rfl
    | succ i => rw [netplayDeleteEvent, ih, List.eraseIdx_cons_succ]

theorem netplayRecord_count (cin : ControllerInputCompat) (count keys : BitVec 32)
    (plugin : BitVec 8) : (netplayRecord cin count keys plugin).netplayCount =
      cin.netplayCount := by
  unfold netplayRecord
  split
  · rfl
  · rfl

/-- What is there stays there. -/
theorem checkValid_record {cin : ControllerInputCompat} {x : BitVec 32} (h : checkValid cin x)
    (count keys : BitVec 32) (plugin : BitVec 8) :
    checkValid (netplayRecord cin count keys plugin) x := by
  unfold netplayRecord
  split
  · exact h
  · rw [checkValid, List.any_cons]
    exact Bool.or_eq_true_iff.mpr (Or.inr h)

/-- An event that `check_valid` finds is found again when it is taken. -/
theorem exists_takeEvent {cin : ControllerInputCompat} (h : checkValid cin cin.netplayCount) :
    ∃ event cin', netplayTakeEvent cin = some (event, cin') := by
  rw [checkValid, ← List.findIdx?_isSome] at h
  obtain ⟨i, hi⟩ := Option.isSome_iff_exists.mp h
  obtain ⟨hlt, -⟩ := List.findIdx?_eq_some_iff_getElem.mp hi
  refine ⟨cin.events[i], ⟨cin.netplayCount + 1, netplayDeleteEvent cin.events i⟩, ?_⟩
  rw [netplayTakeEvent, hi, Option.bind_eq_bind, Option.bind_some, List.getElem?_eq_getElem hlt]
  rfl

/-- The list of a player that has taken `taken` events of the log. -/
structure NetplayQueue (log : NetplayLog) (p : Fin 4) (taken : ℕ) (cin : ControllerInputCompat) :
    Prop where
  count : cin.netplayCount = BitVec.ofNat 32 taken
  pending : Pending (log.event p) (2 ^ 31) taken cin.events

namespace NetplayQueue

variable {log : NetplayLog} {p : Fin 4} {taken : ℕ} {cin : ControllerInputCompat}

theorem event_count (log : NetplayLog) (p : Fin 4) (n : ℕ) :
    (log.event p n).count = BitVec.ofNat 32 n := rfl

/-- **An event comes** -/
theorem record (h : NetplayQueue log p taken cin) {packet : Bytes} {curr n : ℕ}
    (htimely : Timely taken n) (hlogged : LoggedAt log p packet curr n) :
    NetplayQueue log p taken (netplayRecord cin (sdlNetRead32 packet curr)
      (sdlNetRead32 packet (curr + 4)) (packet (curr + 8))) := by
  obtain ⟨hdelay, hahead⟩ := htimely
  have hevent : (⟨sdlNetRead32 packet (curr + 4), packet (curr + 8), BitVec.ofNat 32 n⟩ :
      NetplayEvent) = log.event p n := by
    rw [NetplayLog.event, ← hlogged.input]
  refine ⟨(netplayRecord_count _ _ _ _).trans h.count, ?_⟩
  rw [hlogged.count, netplayRecord]
  split
  next => exact h.pending
  next hkept =>
    obtain ⟨hnear, hnew⟩ := not_or.mp hkept
    have hlimit : (0xffffffff#32 / 2).toNat = 2 ^ 31 - 1 := by decide
    rw [h.count, BitVec.lt_def, hlimit] at hnear
    -- an event that was taken before is far ahead for the counter
    have hlow : taken ≤ n := by
      by_contra hbehind
      rw [toNat_sub_behind (Nat.lt_of_not_le hbehind) (by omega)] at hnear
      omega
    rw [toNat_sub_ahead hlow hahead] at hnear
    simp only [hevent]
    refine h.pending.insert (event_count log p) hlow (by omega) fun e he heq => hnew ?_
    exact List.any_eq_true.mpr ⟨e, he, beq_iff_eq.mpr heq⟩

/-- **The next event is taken** -/
theorem take (h : NetplayQueue log p taken cin) {event : NetplayEvent}
    {cin' : ControllerInputCompat} (htake : netplayTakeEvent cin = some (event, cin')) :
    event = log.event p taken ∧ NetplayQueue log p (taken + 1) cin' := by
  rw [netplayTakeEvent, Option.bind_eq_bind, Option.bind_eq_some_iff] at htake
  obtain ⟨i, hi, htake⟩ := htake
  rw [Option.bind_eq_bind, Option.bind_eq_some_iff] at htake
  obtain ⟨event', hevent, htake⟩ := htake
  obtain ⟨rfl, rfl⟩ := Prod.mk.inj (Option.some.inj htake)
  rw [h.count] at hi
  obtain ⟨hnext, hrest⟩ := h.pending.take (event_count log p) (by decide) hi
  refine ⟨Option.some.inj (hevent.symm.trans hnext), ?_, ?_⟩
  · show cin.netplayCount + 1 = _
    rw [h.count, BitVec.ofNat_add]
    rfl
  · show Pending _ _ _ (netplayDeleteEvent cin.events i)
    rw [netplayDeleteEvent_eq]
    exact hrest

end NetplayQueue

-- ════════════════════
-- Both threads
-- ════════════════════

/-- The player whose next event the thread of the game waits for. -/
def NetplayMain.waitsFor : NetplayMain → Option (Fin 4)
  | .receiving .ensureValid controlId => some controlId
  | .recording .ensureValid controlId _ _ _ _ => some controlId
  | .waiting controlId => some controlId
  | .joining controlId => some controlId
  | _ => none

/-- The other thread works for the player that is waited for, and ends well only when its event is
    there. -/
def Netplay.Responds (s : Netplay) : Prop :=
  match s.thread with
  | .none => True
  | .running controlId => s.main.waitsFor = some controlId
  | .ended success => ∃ controlId, s.main.waitsFor = some controlId ∧
    (success = true → checkValid (s.cinCompats controlId) (s.cinCompats controlId).netplayCount)

/-- What is left of the datagram is the log's. -/
def Netplay.Reads (log : NetplayLog) (s : Netplay) : Prop :=
  match s.main with
  | .recording _ _ packet player i curr => curr = 5 + 9 * i ∧
    ∀ j, i ≤ j → j < (packet 4).toNat →
      ∃ n, Timely (s.returned player).length n ∧ LoggedAt log player packet (5 + 9 * j) n
  | _ => True

structure NetplayAgreed (log : NetplayLog) (s : Netplay) : Prop where
  returned : ∀ p, s.returned p = (List.range (s.returned p).length).map (log p)
  queues : ∀ p, NetplayQueue log p (s.returned p).length (s.cinCompats p)
  reads : s.Reads log
  responds : s.Responds
  running : s.main ≠ .fault

namespace NetplayAgreed

variable {log : NetplayLog} {s : Netplay}

theorem fresh (udpChannel : ℤ) (bufferTarget : BitVec 8) (plugin : Fin 4 → BitVec 8) :
    NetplayAgreed log (.fresh udpChannel bufferTarget plugin) where
  returned := fun _ => rfl
  queues := fun _ => ⟨rfl, Pending.nil⟩
  reads := trivial
  responds := trivial
  running := by simp [Netplay.fresh]

theorem inputsAgree (h : NetplayAgreed log s) : InputsAgree log s where
  returned := h.returned
  count := fun p => (h.queues p).count
  apart := fun p =>
    (h.queues p).pending.keys_nodup (NetplayQueue.event_count log p) (by decide)
  recent := fun p _ he => (h.queues p).pending.mem he
  running := h.running

/-- Lists and results stay as they are. -/
theorem moved (h : NetplayAgreed log s) {s' : Netplay} (hcins : s'.cinCompats = s.cinCompats)
    (hreturned : s'.returned = s.returned) (hreads : s'.Reads log) (hresponds : s'.Responds)
    (hrunning : s'.main ≠ .fault) : NetplayAgreed log s' where
  returned := by
    rw [hreturned]
    exact h.returned
  queues := by
    rw [hreturned, hcins]
    exact h.queues
  reads := hreads
  responds := hresponds
  running := hrunning

/-- The thread of the game goes on, for the same player. -/
theorem responds_moved (h : NetplayAgreed log s) {s' : Netplay}
    (hcins : s'.cinCompats = s.cinCompats) (hthread : s'.thread = s.thread)
    (hmain : ∀ controlId, s.main.waitsFor = some controlId → s'.main.waitsFor = some controlId) :
    s'.Responds := by
  have hresponds := h.responds
  unfold Netplay.Responds at hresponds ⊢
  rw [hthread, hcins]
  split
  next => trivial
  next hrun =>
    rw [hrun] at hresponds
    exact hmain _ hresponds
  next hend =>
    rw [hend] at hresponds
    obtain ⟨controlId, hwaits, hvalid⟩ := hresponds
    exact ⟨controlId, hmain _ hwaits, hvalid⟩

theorem takeInput (h : NetplayAgreed log s) {controlId : Fin 4}
    (hvalid : checkValid (s.cinCompats controlId) (s.cinCompats controlId).netplayCount) :
    NetplayAgreed log (s.takeInput controlId) := by
  obtain ⟨event, cin, htake⟩ := exists_takeEvent hvalid
  obtain ⟨hevent, hqueue⟩ := (h.queues controlId).take htake
  rw [Netplay.takeInput, htake]
  have hlength : (s.returned controlId ++ [(event.buttons, event.plugin)]).length =
      (s.returned controlId).length + 1 := by
    rw [List.length_append, List.length_singleton]
  refine ⟨fun p => ?_, fun p => ?_, trivial, trivial, by simp⟩
  · rcases eq_or_ne p controlId with rfl | hne
    · simp only [Function.update_self]
      rw [hlength, List.range_succ, List.map_append, ← h.returned, hevent]
      rfl
    · simp only [Function.update_of_ne hne]
      exact h.returned p
  · rcases eq_or_ne p controlId with rfl | hne
    · simp only [Function.update_self]
      rw [hlength]
      exact hqueue
    · simp only [Function.update_of_ne hne]
      exact h.queues p

theorem loseConnection (h : NetplayAgreed log s) : NetplayAgreed log s.loseConnection :=
  h.moved rfl rfl trivial trivial (by simp [Netplay.loseConnection])

/-- **A datagram is read** -/
theorem receive (h : NetplayAgreed log s) {caller : NetplayCaller} {controlId : Fin 4}
    (hmain : s.main = .receiving caller controlId) {packet : Bytes}
    (hlog : FromLog log s (.receive packet)) :
    NetplayAgreed log (s.receive caller controlId packet) := by
  unfold Netplay.receive
  split
  next hkeys =>
    obtain ⟨player, hplayer, hentries⟩ := hlog hkeys
    have hlt : (packet 1).toNat < 4 := hplayer ▸ player.isLt
    obtain rfl : player = ⟨(packet 1).toNat, hlt⟩ := Fin.ext hplayer.symm
    rw [dif_pos hlt]
    refine h.moved rfl rfl ⟨rfl, fun j _ hj => hentries j hj⟩ ?_ (by simp)
    refine h.responds_moved rfl rfl fun q hq => ?_
    rw [hmain] at hq
    cases caller with
    | getInput => exact absurd hq (by simp [NetplayMain.waitsFor])
    | ensureValid => exact hq
  next => exact h

/-- **An event of a datagram is recorded** -/
theorem record (h : NetplayAgreed log s) {caller : NetplayCaller} {controlId player : Fin 4}
    {packet : Bytes} {i curr : ℕ}
    (hmain : s.main = .recording caller controlId packet player i curr) :
    NetplayAgreed log (s.record caller controlId packet player i curr) := by
  have hwaits : ∀ q, s.main.waitsFor = some q → caller = .ensureValid ∧ q = controlId := by
    intro q hq
    rw [hmain] at hq
    cases caller with
    | getInput => exact absurd hq (by simp [NetplayMain.waitsFor])
    | ensureValid => exact ⟨rfl, (Option.some.inj hq).symm⟩
  unfold Netplay.record
  split
  next hlt =>
    have hreads := h.reads
    unfold Netplay.Reads at hreads
    rw [hmain] at hreads
    obtain ⟨hcurr, hentries⟩ := hreads
    obtain ⟨n, htimely, hlogged⟩ := hentries i le_rfl hlt
    rw [← hcurr] at hlogged
    refine ⟨h.returned, fun p => ?_, ⟨by omega, fun j hj => hentries j (by omega)⟩, ?_, by simp⟩
    · rcases eq_or_ne p player with rfl | hne
      · simp only [Function.update_self]
        exact (h.queues p).record htimely hlogged
      · simp only [Function.update_of_ne hne]
        exact h.queues p
    · have hresponds := h.responds
      unfold Netplay.Responds at hresponds ⊢
      split
      next => trivial
      next hrun =>
        rw [hrun] at hresponds
        obtain ⟨rfl, rfl⟩ := hwaits _ hresponds
        rfl
      next success hend =>
        rw [hend] at hresponds
        obtain ⟨q, hq, hvalid⟩ := hresponds
        obtain ⟨rfl, rfl⟩ := hwaits q hq
        refine ⟨q, rfl, fun hsuccess => ?_⟩
        have hold := hvalid hsuccess
        rcases eq_or_ne q player with rfl | hne
        · simp only [Function.update_self, netplayRecord_count]
          exact checkValid_record hold _ _ _
        · simp only [Function.update_of_ne hne]
          exact hold
  next =>
    refine h.moved rfl rfl trivial (h.responds_moved rfl rfl fun q hq => ?_) (by simp)
    obtain ⟨rfl, rfl⟩ := hwaits q hq
    rfl

/-- No more datagrams for `netplay_get_input`: the event is taken, or there is a thread to ask. -/
theorem ensureValid (h : NetplayAgreed log s) (controlId : Fin 4) :
    NetplayAgreed log (s.ensureValid controlId) := by
  have hforward : ∀ canFF, NetplayAgreed log { s with canFF := canFF } := fun _ =>
    ⟨h.returned, h.queues, h.reads, h.responds, h.running⟩
  unfold Netplay.ensureValid
  dsimp only
  split
  next hvalid => exact (hforward _).takeInput hvalid
  next =>
    split
    next => exact (hforward _).loseConnection
    next => exact h.moved rfl rfl trivial rfl (by simp)

theorem waitLoop (h : NetplayAgreed log s) {controlId : Fin 4}
    (hmain : s.main = .waiting controlId) : NetplayAgreed log (s.waitLoop controlId) := by
  unfold Netplay.waitLoop
  dsimp only
  split
  · refine h.moved rfl rfl trivial (h.responds_moved rfl rfl fun q hq => ?_) (by simp)
    rw [hmain] at hq
    exact hq
  · refine h.moved rfl rfl trivial (h.responds_moved rfl rfl fun q hq => ?_) (by simp)
    rw [hmain] at hq
    exact hq

/-- **The other thread looks for the event** -/
theorem requireResponse (h : NetplayAgreed log s) {controlId : Fin 4}
    (hthread : s.thread = .running controlId) (timeout : Bool) :
    NetplayAgreed log (s.requireResponse controlId timeout) := by
  have hwaits : s.main.waitsFor = some controlId := by
    have hresponds := h.responds
    unfold Netplay.Responds at hresponds
    rw [hthread] at hresponds
    exact hresponds
  unfold Netplay.requireResponse
  dsimp only
  split
  next hvalid => exact h.moved rfl rfl h.reads ⟨controlId, hwaits, fun _ => hvalid⟩ h.running
  next =>
    split
    next =>
      exact h.moved rfl rfl h.reads ⟨controlId, hwaits, fun hfalse =>
        absurd hfalse Bool.false_ne_true⟩ h.running
    next => exact h

/-- **A step of either thread** -/
theorem step (h : NetplayAgreed log s) {a : NetplayStep} (hlog : FromLog log s a) :
    NetplayAgreed log (s.step a) := by
  cases a with
  | getInput controlId =>
    rw [Netplay.step]
    split
    next hmain =>
      refine h.moved rfl rfl trivial (h.responds_moved rfl rfl fun q hq => ?_) (by simp)
      rw [hmain] at hq
      exact absurd hq (by simp [NetplayMain.waitsFor])
    next => exact h
  | receive packet =>
    rw [Netplay.step]
    split
    next hmain => exact h.receive hmain hlog
    next => exact h
  | noPacket =>
    rw [Netplay.step]
    split
    next => exact h.ensureValid _
    next hmain =>
      refine h.moved rfl rfl trivial (h.responds_moved rfl rfl fun q hq => ?_) (by simp)
      rw [hmain] at hq
      exact hq
    next => exact h
  | record =>
    rw [Netplay.step]
    split
    next hmain => exact h.record hmain
    next => exact h
  | wait =>
    rw [Netplay.step]
    split
    next hmain => exact h.waitLoop hmain
    next => exact h
  | join =>
    rw [Netplay.step]
    split
    next controlId success hmain hthread =>
      have hresponds := h.responds
      unfold Netplay.Responds at hresponds
      rw [hthread] at hresponds
      obtain ⟨q, hq, hvalid⟩ := hresponds
      rw [hmain] at hq
      obtain rfl : controlId = q := Option.some.inj hq
      split
      next hsuccess => exact h.takeInput (hvalid hsuccess)
      next => exact h.loseConnection
    next => exact h
  | respond timeout =>
    rw [Netplay.step]
    split
    next hthread => exact h.requireResponse hthread timeout
    next => exact h

end NetplayAgreed

/-- Two clients that have returned a log from its start on. -/
theorem InputsAgree.prefix_or {log : NetplayLog} {s t : Netplay} (hs : InputsAgree log s)
    (ht : InputsAgree log t) (p : Fin 4) :
    s.returned p <+: t.returned p ∨ t.returned p <+: s.returned p := by
  have hshorter : ∀ a b, a ≤ b →
      (List.range a).map (log p) <+: (List.range b).map (log p) := by
    intro a b hle
    have htake : List.range a = (List.range b).take a := by
      rw [List.take_range, Nat.min_eq_left hle]
    rw [htake]
    exact (List.take_prefix _ _).map _
  rw [hs.returned p, ht.returned p]
  rcases le_total (s.returned p).length (t.returned p).length with hle | hle
  · exact Or.inl (hshorter _ _ hle)
  · exact Or.inr (hshorter _ _ hle)

/-- **Netplay inputs** Over any steps of both threads, and whatever comes of the datagrams of the
    server, the calls of `netplay_get_input` for a player return the log of that player in its
    order, each event once. So what one of two clients has returned continues what the other has. -/
theorem netplay_inputs_agree (log : NetplayLog) (udpChannel udpChannel' : ℤ)
    (bufferTarget bufferTarget' : BitVec 8) (plugin plugin' : Fin 4 → BitVec 8)
    (steps steps' : List NetplayStep)
    (h : Runs.Along Netplay.step (FromLog log) (.fresh udpChannel bufferTarget plugin) steps)
    (h' : Runs.Along Netplay.step (FromLog log) (.fresh udpChannel' bufferTarget' plugin') steps') :
    (∀ s ∈ Runs.visited Netplay.step (.fresh udpChannel bufferTarget plugin) steps,
      InputsAgree log s) ∧
    ∀ s ∈ Runs.visited Netplay.step (.fresh udpChannel bufferTarget plugin) steps,
      ∀ s' ∈ Runs.visited Netplay.step (.fresh udpChannel' bufferTarget' plugin') steps',
        ∀ p, s.returned p <+: s'.returned p ∨ s'.returned p <+: s.returned p := by
  have hstep : ∀ s a, NetplayAgreed log s → FromLog log s a → NetplayAgreed log (s.step a) :=
    fun _ _ hs ha => hs.step ha
  have hrun := Runs.invariant_visited hstep (NetplayAgreed.fresh udpChannel bufferTarget plugin) h
  have hrun' :=
    Runs.invariant_visited hstep (NetplayAgreed.fresh udpChannel' bufferTarget' plugin') h'
  exact ⟨fun s hs => (hrun s hs).inputsAgree, fun s hs s' hs' =>
    (hrun s hs).inputsAgree.prefix_or (hrun' s' hs').inputsAgree⟩

/-- A datagram with the events 0 and 1 of the first player, who holds the A button. -/
def heldButton : Bytes := fun i =>
  [1, 0, 0, 0, 2, 0, 0, 0, 0, 0x80, 0, 0, 0, 1, 0, 0, 0, 1, 0x80, 0, 0, 0, 1].getD i 0

def heldButtonSteps : List NetplayStep :=
  [.getInput 0, .receive heldButton, .record, .record, .record, .noPacket]

theorem netplay_inputs_agree_heldButton :
    Runs.Along Netplay.step (FromLog fun _ _ => (0x80000000#32, 1#8)) (.fresh 0 2 fun _ => 0)
      heldButtonSteps ∧
    (Runs.runFrom Netplay.step (.fresh 0 2 fun _ => 0) heldButtonSteps).returned 0 =
      [(0x80000000#32, 1#8)] ∧
    ∀ s ∈ Runs.visited Netplay.step (.fresh 0 2 fun _ => 0) heldButtonSteps,
      InputsAgree (fun _ _ => (0x80000000#32, 1#8)) s := by
  have hlog : Runs.Along Netplay.step (FromLog fun _ _ => (0x80000000#32, 1#8))
      (.fresh 0 2 fun _ => 0) heldButtonSteps := by
    refine ⟨trivial, fun _ => ⟨0, rfl, fun i hi => ⟨i, ?_, ?_⟩⟩, trivial, trivial, trivial, trivial,
      trivial⟩
    · have hi' : i < 2 := hi
      constructor
      · show 0 < i + 2 ^ 31
        omega
      · show i < 0 + 2 ^ 32
        omega
    · have hi' : i < 2 := hi
      obtain rfl | rfl : i = 0 ∨ i = 1 := by omega
      · exact ⟨rfl, rfl⟩
      · exact ⟨rfl, rfl⟩
  exact ⟨hlog, rfl, (netplay_inputs_agree _ 0 0 2 2 _ _ _ _ hlog hlog).1⟩

end Mupen64plus
