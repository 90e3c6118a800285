import Mupen64plus.Lib.Runs

/-!
# Requests answered by one completion event

A device accepts a request, shows that it is busy, and queues one event; the event ends the request.
A second request may be parked while the first is running, and is started by the event of the
first. What is seen of such a device is its `Port`; a `Move` is what one step does to it.

## Main definitions

- `Port`, `Move`, `Move.run` — what is seen of a device, and the moves it makes
- `Settled` — busy exactly while one event is queued, and every accepted request is completed,
  in flight or parked
- `Move.Clean` — the moves that leave a settled device settled
- `System`, `Ledger` — a device with its requests and completions counted along a run

## Main results

- `Settled.run_iff` — a move keeps a device settled exactly when it is clean
- `settled_visited_iff` — a run stays settled exactly when all its moves are clean
-/

namespace Completion

/-- Busy and full as the device shows them, and the number of its events that are queued. -/
structure Port where
  busy : Bool
  full : Bool
  queued : ℕ
  deriving DecidableEq, Repr

/-- `linked` tells whether the queue took the event. -/
inductive Move where
  | accept (linked : Bool)
  | park
  | complete
  | advance (linked : Bool)
  | cancel
  | keep
  deriving DecidableEq, Repr

namespace Move

def run : Move → Port → Port
  | accept linked, p => ⟨true, p.full, p.queued + linked.toNat⟩
  | park, p => ⟨p.busy, true, p.queued⟩
  | complete, p => ⟨false, p.full, p.queued - 1⟩
  | advance linked, p => ⟨p.busy, false, p.queued - 1 + linked.toNat⟩
  | cancel, p => ⟨false, p.full, p.queued⟩
  | keep, p => p

/-- A completion takes an event from the queue, and starts what is parked. -/
def Possible : Move → Port → Prop
  | complete, p => 0 < p.queued ∧ p.full = false
  | advance _, p => 0 < p.queued ∧ p.full = true
  | _, _ => True

/-- No request on a busy device, no event the queue does not take, no request parked on another,
    and nothing cancelled while its event is queued. -/
def Clean : Move → Port → Prop
  | accept linked, p => p.busy = false ∧ linked = true
  | park, p => p.busy = true ∧ p.full = false
  | advance linked, _ => linked = true
  | cancel, p => p.queued = 0
  | _, _ => True

instance (m : Move) (p : Port) : Decidable (m.Clean p) := by
  cases m <;> unfold Clean <;> infer_instance

def accepts : Move → Bool
  | accept _ | park => true
  | _ => false

def completes : Move → Bool
  | complete | advance _ => true
  | _ => false

end Move

/-- Busy exactly while there is one event. -/
theorem queued_eq_iff {busy : Bool} {queued : ℕ} :
    queued = busy.toNat ↔ (busy = true ↔ queued = 1) ∧ queued ≤ 1 := by
  cases busy with
  | true =>
    rw [Bool.toNat_true]
    constructor
    · exact fun h => ⟨iff_of_true rfl h, Nat.le_of_eq h⟩
    · exact fun h => h.1.mp rfl
  | false =>
    rw [Bool.toNat_false]
    constructor
    · rintro rfl
      exact ⟨iff_of_false Bool.false_ne_true Nat.zero_ne_one, Nat.zero_le 1⟩
    · rintro ⟨hbusy, hsingle⟩
      have hne : queued ≠ 1 := fun h => Bool.false_ne_true (hbusy.mpr h)
      omega

/-- A device in order: busy exactly while one event is queued, nothing parked on an idle device,
    and every accepted request completed, in flight or parked. -/
structure Settled (p : Port) (accepted completed : ℕ) : Prop where
  queued : p.queued = p.busy.toNat
  full : p.full = true → p.busy = true
  once : accepted = completed + p.queued + p.full.toNat

/-- **Step rule**: a move keeps a device settled exactly when it is clean. -/
theorem Settled.run_iff {p : Port} {accepted completed : ℕ} (h : Settled p accepted completed)
    {m : Move} (hm : m.Possible p) :
    Settled (m.run p) (accepted + m.accepts.toNat) (completed + m.completes.toNat) ↔ m.Clean p := by
  obtain ⟨busy, full, queued⟩ := p
  obtain ⟨hqueued, hfull, honce⟩ := h
  simp only at hqueued hfull honce
  cases m with
  | accept linked =>
    constructor
    · intro h'
      have hq := h'.queued
      simp only [Move.run, Bool.toNat_true] at hq
      cases busy <;> cases linked <;> simp_all [Move.Clean]
      have ho := h'.once
      simp only [Move.run, Move.accepts, Move.completes, Bool.toNat_true, Bool.toNat_false] at ho
      omega
    · rintro ⟨hidle, rfl⟩
      simp only at hidle
      subst hidle
      refine ⟨by simp [Move.run, hqueued], fun _ => rfl, ?_⟩
      simp only [Move.run, Move.accepts, Move.completes, Bool.toNat_true, Bool.toNat_false]
      omega
  | park =>
    constructor
    · intro h'
      have ho := h'.once
      refine ⟨h'.full rfl, ?_⟩
      cases full with
      | false => rfl
      | true =>
        simp only [Move.run, Move.accepts, Move.completes, Bool.toNat_true, Bool.toNat_false]
          at ho honce
        omega
    · rintro ⟨hbusy, hfree⟩
      simp only at hbusy hfree
      subst hfree
      refine ⟨hqueued, fun _ => hbusy, ?_⟩
      simp only [Move.run, Move.accepts, Move.completes, Bool.toNat_true, Bool.toNat_false]
        at honce ⊢
      omega
  | complete =>
    obtain ⟨hpos, hfree⟩ := hm
    simp only at hpos hfree
    subst hfree
    have hle := Bool.toNat_le busy
    refine ⟨fun _ => trivial, fun _ => ⟨?_, nofun, ?_⟩⟩
    · simp only [Move.run, Bool.toNat_false]
      omega
    · simp only [Move.run, Move.accepts, Move.completes, Bool.toNat_true, Bool.toNat_false]
        at honce ⊢
      omega
  | advance linked =>
    obtain ⟨hpos, hparked⟩ := hm
    simp only at hpos hparked
    subst hparked
    have hbusy := hfull rfl
    subst hbusy
    constructor
    · intro h'
      have hq := h'.queued
      cases linked with
      | true => rfl
      | false => simp_all [Move.run]
    · intro hlinked
      simp only [Move.Clean] at hlinked
      subst hlinked
      refine ⟨?_, nofun, ?_⟩
      · simp [Move.run, hqueued]
      · simp only [Move.run, Move.accepts, Move.completes, Bool.toNat_true, Bool.toNat_false]
          at honce ⊢
        omega
  | cancel =>
    constructor
    · intro h'
      exact h'.queued
    · intro hnone
      simp only [Move.Clean] at hnone
      have hidle : busy = false := by
        cases busy with
        | false => rfl
        | true => simp [hnone] at hqueued
      refine ⟨hnone, fun hf => ?_, honce⟩
      have := hfull hf
      simp [hidle] at this
  | keep => exact ⟨fun _ => trivial, fun _ => ⟨hqueued, hfull, honce⟩⟩

-- ════════════════════════════════════════════════════════════════════════
-- Runs
-- ════════════════════════════════════════════════════════════════════════

variable {σ α : Type*}

/-- A device as its steps, with the steps that accept a request and those that complete one. -/
structure System (σ α : Type*) where
  step : σ → α → σ
  port : σ → Port
  accepts : σ → α → Bool
  completes : σ → α → Bool

/-- A state with the requests accepted and completed so far. -/
structure Ledger (σ : Type*) where
  state : σ
  accepted : ℕ
  completed : ℕ

namespace System

variable (S : System σ α)

def ledgerStep (l : Ledger σ) (a : α) : Ledger σ where
  state := S.step l.state a
  accepted := l.accepted + (S.accepts l.state a).toNat
  completed := l.completed + (S.completes l.state a).toNat

def Settled (l : Ledger σ) : Prop := Completion.Settled (S.port l.state) l.accepted l.completed

/-- Every step makes the move that `move` tells. -/
structure Moves (move : σ → α → Move) : Prop where
  port : ∀ s a, S.port (S.step s a) = (move s a).run (S.port s)
  possible : ∀ s a, (move s a).Possible (S.port s)
  accepts : ∀ s a, S.accepts s a = (move s a).accepts
  completes : ∀ s a, S.completes s a = (move s a).completes

variable {S} {move : σ → α → Move}

theorem Moves.settled_step_iff (h : S.Moves move) {l : Ledger σ} (hl : S.Settled l) (a : α) :
    S.Settled (S.ledgerStep l a) ↔ (move l.state a).Clean (S.port l.state) := by
  unfold Settled ledgerStep
  simp only
  rw [h.port, h.accepts, h.completes]
  exact hl.run_iff (h.possible l.state a)

/-- **Run rule**: a run stays settled exactly when all its moves are clean. -/
theorem Moves.settled_visited_iff (h : S.Moves move) {l : Ledger σ} (hl : S.Settled l)
    (labels : List α) :
    (∀ t ∈ Runs.visited S.ledgerStep l labels, S.Settled t) ↔
      Runs.Along S.ledgerStep (fun l a => (move l.state a).Clean (S.port l.state)) l labels :=
  Runs.visited_iff_along (fun _ a hl => h.settled_step_iff hl a) hl

end System

end Completion
