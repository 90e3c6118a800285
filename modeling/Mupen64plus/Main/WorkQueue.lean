import Mathlib.Algebra.BigOperators.Group.Finset.Piecewise
import Mathlib.Data.Fintype.Card
import Mupen64plus.Lib.Rings

/-!
# Works for other threads

`workqueue.c` over the lists of `list.h`. Works wait in a list until threads take them; a thread
that finds none waits in another list until it is signalled. What is done under the lock is one
step, but for the wait, which ends at a signal or without one. `thread_list` is left out.

## Main definitions

- `initListHead`, `listAdd`, `listAddTail`, `listDel`, `listDelInit`, `listEmpty` — `list.h`
- `workqueueInit`, `queueWork`, `getWork` — `workqueue.c`
- `WorkState.step`, `WorkState.Reachable` — any order of the steps of all threads

## Main results

- `reachable_inv` — what holds whatever the order
- `workqueue_sound` — works are taken in order and done once, no work waits while all threads do,
  and nothing is left when all threads have been dismissed
-/

namespace Mupen64plus

-- ════════════════════
-- Lists
-- ════════════════════

section Lists

variable {α : Type*} [DecidableEq α] (s : Links α)

/-- `INIT_LIST_HEAD`. -/
def initListHead (head : α) : Links α := s.join head head

def listAdd (newItem head : α) : Links α := (s.join newItem (s.next head)).join head newItem

def listAddTail (newItem head : α) : Links α := (s.join (s.prev head) newItem).join newItem head

def listDel (entry : α) : Links α := s.join (s.prev entry) (s.next entry)

def listDelInit (entry : α) : Links α := initListHead (listDel s entry) entry

def listEmpty (head : α) : Prop := s.next head = head

instance decidableListEmpty (head : α) : Decidable (listEmpty s head) :=
  inferInstanceAs (Decidable (_ = _))

end Lists

-- ════════════════════
-- The work queue
-- ════════════════════

/-- What stands in lists: their heads, works and threads. -/
inductive WorkNode (W : Type*) (n : ℕ) where
  | workQueue | threadQueue
  | work (w : W)
  | thread (t : Fin n)
  deriving DecidableEq

/-- Where a thread is: before the lock of `workqueue_get_work`, in `SDL_CondWait`, in the function
    of a work, or behind its loop. -/
inductive ThreadPhase (W : Type*) where
  | looking
  | waiting (signalled : Bool)
  | working (w : W)
  | exited
  deriving DecidableEq

structure WorkState (W : Type*) (n : ℕ) where
  links : Links (WorkNode W n)
  phase : Fin n → ThreadPhase W
  /-- The works that were queued, taken and done, which nothing reads. -/
  queued : List W
  taken : List W
  done : List W

inductive WorkEvent (W : Type*) (n : ℕ) where
  | queue (w : W)
  | look (t : Fin n)
  | wake (t : Fin n)
  | finish (t : Fin n)
  deriving DecidableEq

/-- `SDL_CondSignal` of a thread's own condition. -/
def ThreadPhase.signal {W : Type*} : ThreadPhase W → ThreadPhase W
  | .waiting _ => .waiting true
  | p => p

variable {W : Type*} [DecidableEq W] {n : ℕ}

/-- `workqueue_init`, over whatever was in memory. -/
def workqueueInit (links : Links (WorkNode W n)) : WorkState W n where
  links := (List.finRange n).foldl (fun s t => initListHead s (.thread t))
    (initListHead (initListHead links .workQueue) .threadQueue)
  phase := fun _ => .looking
  queued := []
  taken := []
  done := []

/-- The works and the threads that stand in the lists; other threads stand by themselves. -/
structure WorkLists (links : Links (WorkNode W n)) (pending : List W) (sleepers : List (Fin n)) :
    Prop where
  works : links.Ring (.workQueue :: pending.map .work)
  threads : links.Ring (.threadQueue :: sleepers.map .thread)
  alone : ∀ t ∉ sleepers, links.Ring [.thread t]

namespace WorkState

variable (s : WorkState W n)

/-- `init_work` and `queue_work`. There is no state if a list leads to what is no thread. -/
def queueWork (w : W) : Option (WorkState W n) :=
  let links := listAddTail (initListHead s.links (.work w)) (.work w) .workQueue
  if listEmpty links .threadQueue then
    some { s with links := links, queued := s.queued ++ [w] }
  else
    match links.next .threadQueue with
    | .thread t => some { s with
        links := listDelInit links (.thread t)
        phase := Function.update s.phase t (s.phase t).signal
        queued := s.queued ++ [w] }
    | _ => none

/-- A turn of `workqueue_get_work`, up to the wait, and the test of `workqueue_dismiss`. -/
def getWork (dismiss : W → Bool) (t : Fin n) : Option (WorkState W n) :=
  let links := listDelInit s.links (.thread t)
  if listEmpty links .workQueue then
    some { s with
      links := listAdd links (.thread t) .threadQueue
      phase := Function.update s.phase t (.waiting false) }
  else
    match links.next .workQueue with
    | .work w => some { s with
        links := listDelInit links (.work w)
        phase := Function.update s.phase t (if dismiss w then .exited else .working w)
        taken := s.taken ++ [w] }
    | _ => none

def step (dismiss : W → Bool) : WorkEvent W n → Option (WorkState W n)
  | .queue w => s.queueWork w
  | .look t => s.getWork dismiss t
  | .wake t => some { s with phase := Function.update s.phase t .looking }
  | .finish t =>
    match s.phase t with
    | .working w => some { s with
        phase := Function.update s.phase t .looking
        done := s.done ++ [w] }
    | _ => none

/-- A work is queued that is neither waiting nor being done; threads go on from where they are. -/
def Enabled : WorkEvent W n → Prop
  | .queue w => w ∉ s.queued.drop s.taken.length ∧ ∀ t, s.phase t ≠ .working w
  | .look t => s.phase t = .looking
  | .wake t => ∃ signalled, s.phase t = .waiting signalled
  | .finish t => ∃ w, s.phase t = .working w

/-- The states of all orders of events. -/
inductive Reachable (dismiss : W → Bool) : WorkState W n → Prop
  | start (links : Links (WorkNode W n)) : Reachable dismiss (workqueueInit links)
  | next {s s' : WorkState W n} {e : WorkEvent W n} (h : Reachable dismiss s)
      (henabled : s.Enabled e) (hstep : s.step dismiss e = some s') : Reachable dismiss s'

/-- How many threads are somewhere. -/
def threadsIn (phase : Fin n → ThreadPhase W) (p : ThreadPhase W) : ℕ :=
  (Finset.univ.filter fun t => phase t = p).card

/-- The lists hold the works that wait and the threads that sleep, or are about to wake up. -/
structure Inv (dismiss : W → Bool) (pending : List W) (sleepers : List (Fin n)) : Prop where
  lists : WorkLists s.links pending sleepers
  fifo : s.queued = s.taken ++ pending
  asleep : ∀ t, s.phase t = .waiting false → t ∈ sleepers
  listed : ∀ t ∈ sleepers, s.phase t = .waiting false ∨ s.phase t = .looking
  enough : sleepers ≠ [] → pending.length + sleepers.length + threadsIn s.phase .exited ≤ n
  dismissed : s.taken.countP dismiss = threadsIn s.phase .exited
  once : ∀ w, s.done.count w + threadsIn s.phase (.working w) =
    if dismiss w then 0 else s.taken.count w

end WorkState

-- ════════════════════
-- What lists hold
-- ════════════════════

section Lists

variable {α : Type*} [DecidableEq α] {s : Links α} {head entry newItem : α} {l m : List α}

theorem ring_initListHead : (initListHead s head).Ring [head] := Links.ring_self

theorem ring_initListHead_other (h : s.Ring l) (hhead : head ∉ l) : (initListHead s head).Ring l :=
  h.frame hhead hhead

theorem ring_listAdd (h : s.Ring (head :: l)) (hnew : newItem ∉ head :: l) :
    (listAdd s newItem head).Ring (head :: newItem :: l) := h.insert hnew

theorem ring_listAddTail (h : s.Ring (head :: l)) (hnew : newItem ∉ head :: l) :
    (listAddTail s newItem head).Ring (head :: l ++ [newItem]) := h.insertBefore hnew

omit [DecidableEq α] in
theorem listEmpty_iff (h : s.Ring (head :: l)) : listEmpty s head ↔ l = [] := by
  unfold listEmpty
  rw [h.next_eq]
  cases l with
  | nil => simp
  | cons a l =>
    have hne : a ≠ head := fun e => (List.nodup_cons.1 h.nodup).1 (e ▸ List.mem_cons_self)
    simp [hne]

/-- An entry that leaves a list is one by itself. -/
theorem ring_listDelInit (h : s.Ring (l ++ entry :: m)) (hne : l ++ m ≠ []) :
    (listDelInit s entry).Ring (l ++ m) ∧ (listDelInit s entry).Ring [entry] := by
  have hentry : entry ∉ l ++ m := (List.nodup_middle.1 h.nodup).notMem
  exact ⟨(h.erase hne).frame hentry hentry, ring_initListHead⟩

/-- An entry that is by itself stays so. -/
theorem ring_listDelInit_self : (listDelInit s entry).Ring [entry] := ring_initListHead

variable {k : List α}

/-- Other lists stay as they are. -/
theorem ring_listAdd_other (h : s.Ring l) (hhead : s.Ring (head :: k))
    (hdisjoint : List.Disjoint (head :: k) l) (hnew : newItem ∉ l) :
    (listAdd s newItem head).Ring l :=
  (h.frame hnew (hdisjoint (hhead.next_mem List.mem_cons_self))).frame
    (hdisjoint List.mem_cons_self) hnew

theorem ring_listAddTail_other (h : s.Ring l) (hhead : s.Ring (head :: k))
    (hdisjoint : List.Disjoint (head :: k) l) (hnew : newItem ∉ l) :
    (listAddTail s newItem head).Ring l :=
  (h.frame (hdisjoint (hhead.prev_mem List.mem_cons_self)) hnew).frame
    hnew (hdisjoint List.mem_cons_self)

theorem ring_listDelInit_other (h : s.Ring l) (hentry : s.Ring k) (hmem : entry ∈ k)
    (hdisjoint : List.Disjoint k l) : (listDelInit s entry).Ring l :=
  (h.frame (hdisjoint (hentry.prev_mem hmem)) (hdisjoint (hentry.next_mem hmem))).frame
    (hdisjoint hmem) (hdisjoint hmem)

end Lists

namespace WorkLists

variable {links : Links (WorkNode W n)} {pending : List W} {sleepers : List (Fin n)} {w : W}
  {t : Fin n}

omit [DecidableEq W] in
theorem disjoint_lists (pending : List W) (sleepers : List (Fin n)) :
    List.Disjoint (.workQueue :: pending.map .work : List (WorkNode W n))
      (.threadQueue :: sleepers.map .thread) := by
  simp [List.Disjoint]

omit [DecidableEq W] in
theorem disjoint_alone (pending : List W) (t : Fin n) :
    List.Disjoint (.workQueue :: pending.map .work : List (WorkNode W n)) [.thread t] := by
  simp [List.Disjoint]

omit [DecidableEq W] in
theorem disjoint_sleepers (ht : t ∉ sleepers) :
    List.Disjoint (.threadQueue :: sleepers.map .thread : List (WorkNode W n)) [.thread t] := by
  simp only [List.Disjoint, List.mem_cons, List.mem_map, List.not_mem_nil, or_false]
  rintro _ (rfl | ⟨u, hu, rfl⟩) hut
  · exact nomatch hut
  · exact ht (WorkNode.thread.inj hut ▸ hu)

omit [DecidableEq W] in
theorem nodup_sleepers
    (h : links.Ring (.threadQueue :: sleepers.map .thread : List (WorkNode W n))) :
    sleepers.Nodup :=
  (List.nodup_cons.1 h.nodup).2.of_map

/-- A work comes behind the others. -/
theorem addWork (h : WorkLists links pending sleepers) (hw : w ∉ pending) :
    WorkLists (listAddTail (initListHead links (.work w)) (.work w) .workQueue) (pending ++ [w])
      sleepers := by
  have hworks : (initListHead links (.work w)).Ring (.workQueue :: pending.map .work) :=
    ring_initListHead_other h.works (by simp [hw])
  refine ⟨?_, ?_, fun t ht => ?_⟩
  · rw [List.map_append]
    exact ring_listAddTail hworks (by simp [hw])
  · exact ring_listAddTail_other (ring_initListHead_other h.threads (by simp)) hworks
      (disjoint_lists pending sleepers) (by simp)
  · exact ring_listAddTail_other (ring_initListHead_other (h.alone t ht) (by simp)) hworks
      (disjoint_alone pending t) (by simp)

/-- The first work leaves. -/
theorem takeWork (h : WorkLists links (w :: pending) sleepers) :
    WorkLists (listDelInit links (.work w)) pending sleepers where
  works := (ring_listDelInit (l := [WorkNode.workQueue]) h.works (by simp)).1
  threads := ring_listDelInit_other h.threads h.works (by simp) (disjoint_lists _ sleepers)
  alone t ht := ring_listDelInit_other (h.alone t ht) h.works (by simp) (disjoint_alone _ t)

/-- A thread leaves, whether it stands in the list or not. -/
theorem leave (h : WorkLists links pending sleepers) (t : Fin n) :
    WorkLists (listDelInit links (.thread t)) pending (sleepers.erase t) := by
  by_cases ht : t ∈ sleepers
  · obtain ⟨l, m, rfl⟩ := List.append_of_mem ht
    have hnodup := nodup_sleepers h.threads
    have hl : t ∉ l := fun hmem => (List.nodup_middle.1 hnodup).notMem (List.mem_append_left m hmem)
    have herase : (l ++ t :: m).erase t = l ++ m := by
      rw [List.erase_append_right _ hl, List.erase_cons_head]
    have hthreads := h.threads
    rw [List.map_append, List.map_cons, ← List.cons_append] at hthreads
    obtain ⟨hrest, hself⟩ := ring_listDelInit hthreads (by simp)
    rw [herase]
    refine ⟨?_, ?_, fun u hu => ?_⟩
    · exact ring_listDelInit_other h.works h.threads (by simp) (disjoint_lists _ _).symm
    · rw [List.map_append]
      exact hrest
    · rcases eq_or_ne u t with rfl | hne
      · exact hself
      · have hu' : u ∉ l ++ t :: m := by
          rw [List.mem_append] at hu ⊢
          rw [List.mem_cons]
          tauto
        exact ring_listDelInit_other (h.alone u hu') h.threads (by simp) (disjoint_sleepers hu')
  · rw [List.erase_of_not_mem ht]
    refine ⟨?_, ?_, fun u hu => ?_⟩
    · exact ring_listDelInit_other h.works (h.alone t ht) (by simp) (disjoint_alone _ t).symm
    · exact ring_listDelInit_other h.threads (h.alone t ht) (by simp) (disjoint_sleepers ht).symm
    · rcases eq_or_ne u t with rfl | hne
      · exact ring_listDelInit_self
      · exact ring_listDelInit_other (h.alone u hu) (h.alone t ht) (by simp)
          (by simp [List.Disjoint, hne.symm])

/-- A thread by itself comes first among those that sleep. -/
theorem sleep (h : WorkLists links pending sleepers) (ht : t ∉ sleepers) :
    WorkLists (listAdd links (.thread t) .threadQueue) pending (t :: sleepers) where
  works := ring_listAdd_other h.works h.threads (disjoint_lists _ _).symm (by simp)
  threads := ring_listAdd h.threads (by simp [ht])
  alone u hu := by
    rw [List.mem_cons, not_or] at hu
    exact ring_listAdd_other (h.alone u hu.2) h.threads (disjoint_sleepers hu.2)
      (by simp [Ne.symm hu.1])

theorem init (links : Links (WorkNode W n)) : WorkLists (workqueueInit links).links [] [] := by
  have hloop : ∀ (l : List (Fin n)) (links : Links (WorkNode W n)),
      links.Ring [.workQueue] → links.Ring [.threadQueue] →
      (∀ t, t ∉ l → links.Ring [.thread t]) →
      WorkLists (l.foldl (fun s t => initListHead s (.thread t)) links) [] [] := by
    intro l
    induction l with
    | nil =>
      exact fun links hworks hthreads halone => ⟨hworks, hthreads, fun t _ => halone t (by simp)⟩
    | cons t l ih =>
      intro links hworks hthreads halone
      refine ih _ (ring_initListHead_other hworks (by simp))
        (ring_initListHead_other hthreads (by simp)) fun u hu => ?_
      rcases eq_or_ne u t with rfl | hne
      · exact ring_initListHead
      · exact ring_initListHead_other (halone u (by simp [hne, hu])) (by simp [hne.symm])
  exact hloop _ _ (ring_initListHead_other ring_initListHead (by simp)) ring_initListHead
    fun t ht => absurd (List.mem_finRange t) ht

end WorkLists

-- ════════════════════
-- What steps keep
-- ════════════════════

namespace WorkState

variable {s : WorkState W n} {dismiss : W → Bool} {pending : List W} {sleepers : List (Fin n)}
  {w : W} {t : Fin n}

theorem threadsIn_update (phase : Fin n → ThreadPhase W) (t : Fin n) (q p : ThreadPhase W) :
    threadsIn (Function.update phase t q) p + (if phase t = p then 1 else 0) =
      threadsIn phase p + (if q = p then 1 else 0) := by
  have hsum : ∀ f : Fin n → ThreadPhase W, threadsIn f p =
      (if f t = p then 1 else 0) + ∑ u ∈ Finset.univ.erase t, if f u = p then 1 else 0 := by
    intro f
    rw [threadsIn, Finset.card_filter, ← Finset.add_sum_erase _ _ (Finset.mem_univ t)]
  have hrest : (∑ u ∈ Finset.univ.erase t, if Function.update phase t q u = p then 1 else 0) =
      ∑ u ∈ Finset.univ.erase t, if phase u = p then 1 else 0 :=
    Finset.sum_congr rfl fun u hu => by rw [Function.update_of_ne (Finset.ne_of_mem_erase hu)]
  rw [hsum, hsum phase, Function.update_self, hrest]
  omega

theorem threadsIn_of_ne {phase : Fin n → ThreadPhase W} {q p : ThreadPhase W} (hold : phase t ≠ p)
    (hnew : q ≠ p) : threadsIn (Function.update phase t q) p = threadsIn phase p := by
  have hupdate := threadsIn_update phase t q p
  rwa [if_neg hold, if_neg hnew] at hupdate

/-- Threads that stand in the list and threads that have exited are not the same. -/
theorem length_add_exited_le (hnodup : sleepers.Nodup)
    (hsleepers : ∀ t ∈ sleepers, s.phase t ≠ .exited) :
    sleepers.length + threadsIn s.phase .exited ≤ n := by
  have hdisjoint : Disjoint sleepers.toFinset
      (Finset.univ.filter fun t => s.phase t = .exited) := by
    rw [Finset.disjoint_left]
    intro t ht hexited
    exact hsleepers t (List.mem_toFinset.1 ht) (Finset.mem_filter.1 hexited).2
  calc sleepers.length + threadsIn s.phase .exited
      = (sleepers.toFinset ∪ Finset.univ.filter fun t => s.phase t = .exited).card := by
        rw [Finset.card_union_of_disjoint hdisjoint, List.toFinset_card_of_nodup hnodup]
        rfl
    _ ≤ Finset.univ.card := Finset.card_le_univ _
    _ = n := by rw [Finset.card_univ, Fintype.card_fin]

theorem Inv.not_exited (h : s.Inv dismiss pending sleepers) (ht : t ∈ sleepers) :
    s.phase t ≠ .exited := by
  rcases h.listed t ht with hphase | hphase <;> rw [hphase] <;> exact fun e => nomatch e

theorem Inv.queueWork (h : s.Inv dismiss pending sleepers) (henabled : s.Enabled (.queue w)) :
    ∃ s' sleepers', s.queueWork w = some s' ∧ s'.Inv dismiss (pending ++ [w]) sleepers' := by
  obtain ⟨hnew, -⟩ := henabled
  rw [h.fifo, List.drop_left] at hnew
  have hlists := h.lists.addWork hnew
  have hfifo : s.queued ++ [w] = s.taken ++ (pending ++ [w]) := by
    rw [h.fifo, List.append_assoc]
  cases sleepers with
  | nil =>
    refine ⟨_, [], if_pos ((listEmpty_iff hlists.threads).2 rfl), ?_⟩
    exact { h with lists := hlists, fifo := hfifo, enough := fun hne => absurd rfl hne }
  | cons t sleepers =>
    have hnot : ¬listEmpty _ WorkNode.threadQueue := fun hempty =>
      absurd ((listEmpty_iff hlists.threads).1 hempty) (by simp)
    have hnext : (listAddTail (initListHead s.links (.work w)) (.work w) .workQueue).next
        .threadQueue = .thread t := hlists.threads.next_eq
    have hleave := hlists.leave t
    rw [List.erase_cons_head] at hleave
    have hnodup := WorkLists.nodup_sleepers h.lists.threads
    have hphase := h.listed t List.mem_cons_self
    have hsignal : ∀ p, p ≠ .looking → p ≠ .waiting true → (s.phase t).signal ≠ p := by
      intro p hlooking hwaiting
      rcases hphase with hphase | hphase <;> rw [hphase]
      · exact hwaiting.symm
      · exact hlooking.symm
    have hstep : s.queueWork w = some { s with
        links := listDelInit (listAddTail (initListHead s.links (.work w)) (.work w) .workQueue)
          (.thread t)
        phase := Function.update s.phase t (s.phase t).signal
        queued := s.queued ++ [w] } := by
      rw [WorkState.queueWork]
      simp only [if_neg hnot, hnext]
    refine ⟨_, sleepers, hstep, hleave, hfifo, fun u hu => ?_, fun u hu => ?_, fun hne => ?_, ?_,
      fun v => ?_⟩
    · have hu' : u ≠ t := by
        rintro rfl
        simp only [Function.update_self] at hu
        exact hsignal _ (by simp) (by simp) hu
      simp only [Function.update_of_ne hu'] at hu
      exact (List.mem_cons.1 (h.asleep u hu)).resolve_left hu'
    · have hu' : u ≠ t := fun e => (List.nodup_cons.1 hnodup).1 (e ▸ hu)
      simp only [Function.update_of_ne hu']
      exact h.listed u (List.mem_cons_of_mem t hu)
    · have henough := h.enough (List.cons_ne_nil t sleepers)
      rw [threadsIn_of_ne (h.not_exited List.mem_cons_self) (hsignal _ (by simp) (by simp))]
      rw [List.length_cons] at henough
      rw [List.length_append, List.length_singleton]
      omega
    · rw [threadsIn_of_ne (h.not_exited List.mem_cons_self) (hsignal _ (by simp) (by simp))]
      exact h.dismissed
    · have hworking : s.phase t ≠ .working v := by
        rcases hphase with hphase | hphase <;> rw [hphase] <;> exact fun e => nomatch e
      rw [threadsIn_of_ne hworking (hsignal _ (by simp) (by simp))]
      exact h.once v

/-- A thread that looks takes the first work, or goes to sleep if there is none. -/
theorem Inv.getWork (h : s.Inv dismiss pending sleepers) (henabled : s.Enabled (.look t)) :
    ∃ s' pending' sleepers', s.getWork dismiss t = some s' ∧
      s'.Inv dismiss pending' sleepers' := by
  have hlooking : s.phase t = .looking := henabled
  have hleave := h.lists.leave t
  have hnodup := WorkLists.nodup_sleepers h.lists.threads
  have hgone : t ∉ sleepers.erase t := hnodup.not_mem_erase
  have hkept : ∀ u ≠ t, u ∈ sleepers → u ∈ sleepers.erase t := fun u hne hu =>
    (List.mem_erase_of_ne hne).2 hu
  cases pending with
  | nil =>
    have hstep : s.getWork dismiss t = some { s with
        links := listAdd (listDelInit s.links (.thread t)) (.thread t) .threadQueue
        phase := Function.update s.phase t (.waiting false) } :=
      if_pos ((listEmpty_iff hleave.works).2 rfl)
    refine ⟨_, [], t :: sleepers.erase t, hstep, hleave.sleep hgone, h.fifo, fun u hu => ?_,
      fun u hu => ?_, fun hne => ?_, ?_, fun v => ?_⟩
    · rcases eq_or_ne u t with rfl | hu'
      · exact List.mem_cons_self
      · simp only [Function.update_of_ne hu'] at hu
        exact List.mem_cons_of_mem t (hkept u hu' (h.asleep u hu))
    · rcases List.mem_cons.1 hu with rfl | hu
      · exact .inl (Function.update_self ..)
      · have hu' : u ≠ t := fun e => hgone (e ▸ hu)
        simp only [Function.update_of_ne hu']
        exact h.listed u (List.mem_of_mem_erase hu)
    · have hlength := @length_add_exited_le _ _ _ s (t :: sleepers.erase t)
        (List.nodup_cons.2 ⟨hgone, hnodup.erase t⟩) fun u hu => by
          rcases List.mem_cons.1 hu with rfl | hu
          · rw [hlooking]
            exact fun e => nomatch e
          · exact h.not_exited (List.mem_of_mem_erase hu)
      rw [threadsIn_of_ne (by simp [hlooking]) (by simp), List.length_nil, Nat.zero_add]
      exact hlength
    · rw [threadsIn_of_ne (by simp [hlooking]) (by simp)]
      exact h.dismissed
    · rw [threadsIn_of_ne (by simp [hlooking]) (by simp)]
      exact h.once v
  | cons w pending =>
    have hnot : ¬listEmpty (listDelInit s.links (.thread t)) WorkNode.workQueue := fun hempty =>
      absurd ((listEmpty_iff hleave.works).1 hempty) (by simp)
    have hnext : (listDelInit s.links (.thread t)).next .workQueue = .work w :=
      hleave.works.next_eq
    have hstep : s.getWork dismiss t = some { s with
        links := listDelInit (listDelInit s.links (.thread t)) (.work w)
        phase := Function.update s.phase t (if dismiss w then .exited else .working w)
        taken := s.taken ++ [w] } := by
      rw [WorkState.getWork]
      simp only [if_neg hnot, hnext]
    have hsleeping : (if dismiss w then ThreadPhase.exited else .working w) ≠ .waiting false := by
      split <;> exact fun e => nomatch e
    refine ⟨_, pending, sleepers.erase t, hstep, hleave.takeWork, ?_, fun u hu => ?_,
      fun u hu => ?_, fun hne => ?_, ?_, fun v => ?_⟩
    · rw [h.fifo, List.append_assoc]
      rfl
    · have hu' : u ≠ t := by
        rintro rfl
        simp only [Function.update_self] at hu
        exact hsleeping hu
      simp only [Function.update_of_ne hu'] at hu
      exact hkept u hu' (h.asleep u hu)
    · have hu' : u ≠ t := fun e => hgone (e ▸ hu)
      simp only [Function.update_of_ne hu']
      exact h.listed u (List.mem_of_mem_erase hu)
    · have hsleepers : sleepers ≠ [] := by
        rintro rfl
        exact hne rfl
      have henough := h.enough hsleepers
      have hupdate := threadsIn_update s.phase t
        (if dismiss w then .exited else .working w) .exited
      have hlength : (sleepers.erase t).length ≤ sleepers.length := List.length_erase_le
      have hone : ∀ (p : Prop) [Decidable p], (if p then 1 else 0) ≤ 1 := by
        intro p _
        split <;> omega
      have hexits := hone ((if dismiss w then ThreadPhase.exited else .working w) = .exited)
      simp only [hlooking, reduceCtorEq, if_false] at hupdate
      rw [List.length_cons] at henough
      show pending.length + (sleepers.erase t).length + threadsIn (Function.update s.phase t
        (if dismiss w then .exited else .working w)) .exited ≤ n
      omega
    · rw [List.countP_append, List.countP_singleton, h.dismissed]
      have hupdate := threadsIn_update s.phase t
        (if dismiss w then .exited else .working w) .exited
      simp only [hlooking, reduceCtorEq, if_false] at hupdate
      rcases Bool.eq_false_or_eq_true (dismiss w) with hw | hw <;>
        simp only [hw, if_true, if_false, reduceCtorEq, Bool.false_eq_true] at hupdate ⊢ <;> omega
    · have honce := h.once v
      have hupdate := threadsIn_update s.phase t
        (if dismiss w then .exited else .working w) (.working v)
      simp only [hlooking, reduceCtorEq, if_false] at hupdate
      rw [List.count_append, List.count_singleton]
      rcases eq_or_ne w v with rfl | hv
      · rcases Bool.eq_false_or_eq_true (dismiss w) with hw | hw <;>
          simp only [hw, if_true, if_false, reduceCtorEq, Bool.false_eq_true, beq_self_eq_true]
            at honce hupdate ⊢ <;> omega
      · have hnew : (if dismiss w then ThreadPhase.exited else .working w) ≠ .working v := by
          split
          · exact fun e => nomatch e
          · exact fun e => hv (ThreadPhase.working.inj e)
        rw [if_neg hnew] at hupdate
        simp only [beq_eq_false_iff_ne.2 hv, Bool.false_eq_true, if_false, Nat.add_zero]
          at honce hupdate ⊢
        omega

theorem Inv.wake (h : s.Inv dismiss pending sleepers) (henabled : s.Enabled (.wake t)) :
    Inv { s with phase := Function.update s.phase t .looking } dismiss pending sleepers := by
  obtain ⟨signalled, hwaiting⟩ := henabled
  refine ⟨h.lists, h.fifo, fun u hu => ?_, fun u hu => ?_, fun hne => ?_, ?_, fun v => ?_⟩
  · have hu' : u ≠ t := by
      rintro rfl
      simp only [Function.update_self] at hu
      exact nomatch hu
    simp only [Function.update_of_ne hu'] at hu
    exact h.asleep u hu
  · rcases eq_or_ne u t with rfl | hu'
    · exact .inr (Function.update_self ..)
    · simp only [Function.update_of_ne hu']
      exact h.listed u hu
  · rw [threadsIn_of_ne (by simp [hwaiting]) (by simp)]
    exact h.enough hne
  · rw [threadsIn_of_ne (by simp [hwaiting]) (by simp)]
    exact h.dismissed
  · rw [threadsIn_of_ne (by simp [hwaiting]) (by simp)]
    exact h.once v

theorem Inv.finish (h : s.Inv dismiss pending sleepers) (hworking : s.phase t = .working w) :
    Inv { s with phase := Function.update s.phase t .looking, done := s.done ++ [w] } dismiss
      pending sleepers := by
  have hnot : t ∉ sleepers := by
    intro ht
    rcases h.listed t ht with hphase | hphase <;> rw [hworking] at hphase <;> exact nomatch hphase
  refine ⟨h.lists, h.fifo, fun u hu => ?_, fun u hu => ?_, fun hne => ?_, ?_, fun v => ?_⟩
  · have hu' : u ≠ t := by
      rintro rfl
      simp only [Function.update_self] at hu
      exact nomatch hu
    simp only [Function.update_of_ne hu'] at hu
    exact h.asleep u hu
  · have hu' : u ≠ t := fun e => hnot (e ▸ hu)
    simp only [Function.update_of_ne hu']
    exact h.listed u hu
  · rw [threadsIn_of_ne (by simp [hworking]) (by simp)]
    exact h.enough hne
  · rw [threadsIn_of_ne (by simp [hworking]) (by simp)]
    exact h.dismissed
  · have honce := h.once v
    have hupdate := threadsIn_update s.phase t .looking (.working v)
    simp only [hworking, reduceCtorEq, if_false, ThreadPhase.working.injEq] at hupdate
    rw [List.count_append, List.count_singleton]
    rcases eq_or_ne w v with rfl | hv
    · simp only [if_true, beq_self_eq_true] at hupdate ⊢
      omega
    · simp only [hv, if_false, beq_eq_false_iff_ne.2 hv, Bool.false_eq_true] at hupdate ⊢
      omega

/-- Every event can be done, and keeps what holds. -/
theorem Inv.step (h : s.Inv dismiss pending sleepers) {e : WorkEvent W n} (henabled : s.Enabled e) :
    ∃ s' pending' sleepers', s.step dismiss e = some s' ∧ s'.Inv dismiss pending' sleepers' := by
  cases e with
  | queue w =>
    obtain ⟨s', sleepers', hstep, h'⟩ := h.queueWork henabled
    exact ⟨s', _, sleepers', hstep, h'⟩
  | look t => exact h.getWork henabled
  | wake t => exact ⟨_, pending, sleepers, rfl, h.wake henabled⟩
  | finish t =>
    obtain ⟨w, hworking⟩ := henabled
    refine ⟨_, pending, sleepers, ?_, h.finish hworking⟩
    simp only [WorkState.step, hworking]

theorem inv_init (links : Links (WorkNode W n)) : (workqueueInit links).Inv dismiss [] [] where
  lists := WorkLists.init links
  fifo := rfl
  asleep t h := nomatch h
  listed t h := nomatch h
  enough h := absurd rfl h
  dismissed := by simp [workqueueInit, threadsIn]
  once w := by simp [workqueueInit, threadsIn]

/-- Whatever the order of the events, the lists hold what they should. -/
theorem reachable_inv (h : Reachable dismiss s) :
    ∃ pending sleepers, s.Inv dismiss pending sleepers := by
  induction h with
  | start links => exact ⟨[], [], inv_init links⟩
  | next _ henabled hstep ih =>
    obtain ⟨pending, sleepers, hinv⟩ := ih
    obtain ⟨s', pending', sleepers', hstep', hinv'⟩ := hinv.step henabled
    rw [hstep, Option.some_inj] at hstep'
    exact ⟨pending', sleepers', hstep' ▸ hinv'⟩

/-- A work that waits is about to be taken, unless all threads have exited. -/
theorem Inv.awake (h : s.Inv dismiss pending sleepers) (hpending : pending ≠ [])
    (ht : s.phase t ≠ .exited) : ∃ u, s.phase u = .looking ∨ s.phase u = .waiting true ∨
      ∃ w, s.phase u = .working w := by
  by_contra hnone
  simp only [not_exists, not_or] at hnone
  have hall : ∀ u, s.phase u = .exited ∨ s.phase u = .waiting false := by
    intro u
    obtain ⟨hlooking, hsignalled, hworking⟩ := hnone u
    cases hphase : s.phase u with
    | looking => exact absurd hphase hlooking
    | waiting signalled =>
      cases signalled with
      | false => exact .inr rfl
      | true => exact absurd hphase hsignalled
    | working w => exact absurd hphase (hworking w)
    | exited => exact .inl rfl
  have hasleep := h.asleep t ((hall t).resolve_left ht)
  have henough := h.enough (List.ne_nil_of_mem hasleep)
  have hpositive := List.length_pos_of_ne_nil hpending
  have hcover : n ≤ sleepers.length + threadsIn s.phase .exited := by
    calc n = (Finset.univ : Finset (Fin n)).card := by rw [Finset.card_univ, Fintype.card_fin]
      _ ≤ (sleepers.toFinset ∪ Finset.univ.filter fun u => s.phase u = .exited).card := by
        refine Finset.card_le_card fun u _ => ?_
        rw [Finset.mem_union, List.mem_toFinset, Finset.mem_filter]
        rcases hall u with hexited | hwaiting
        · exact .inr ⟨Finset.mem_univ u, hexited⟩
        · exact .inl (h.asleep u hwaiting)
      _ ≤ sleepers.toFinset.card + threadsIn s.phase .exited := Finset.card_union_le _ _
      _ ≤ sleepers.length + threadsIn s.phase .exited :=
        Nat.add_le_add_right (List.toFinset_card_le sleepers) _
  omega

/-- What `workqueue_shutdown` leaves: when as many dismissals as threads were queued, the last of
    them behind everything else, and all threads have exited, everything has been taken. -/
theorem Inv.drained (h : s.Inv dismiss pending sleepers) (hexited : ∀ t, s.phase t = .exited)
    (hcount : s.queued.countP dismiss ≤ n) (hlast : ∃ w ∈ s.queued.getLast?, dismiss w = true) :
    pending = [] := by
  have hall : threadsIn s.phase .exited = n := by
    simp [threadsIn, hexited]
  have hdismissed := h.dismissed
  rw [h.fifo, List.countP_append, hdismissed, hall] at hcount
  have hnone : pending.countP dismiss = 0 := by omega
  rw [List.countP_eq_zero] at hnone
  by_contra hne
  obtain ⟨w, hw, hdismiss⟩ := hlast
  rw [h.fifo, List.getLast?_append_of_ne_nil _ hne] at hw
  exact hnone w (List.mem_of_mem_getLast? hw) hdismiss

end WorkState

/-- **Works of the queue**, whatever the order of the events of all threads: a list never leads
    astray; works are taken in the order in which they were queued, and each is done once; a thread
    is awake while works wait; and nothing is left when all threads have been dismissed. -/
theorem workqueue_sound {dismiss : W → Bool} {s : WorkState W n}
    (h : WorkState.Reachable dismiss s) :
    (∀ e, s.Enabled e → (s.step dismiss e).isSome) ∧
      s.taken <+: s.queued ∧
      (∀ w, dismiss w = false →
        s.done.count w + WorkState.threadsIn s.phase (.working w) = s.taken.count w) ∧
      (s.taken ≠ s.queued → (∃ t, s.phase t ≠ .exited) → ∃ t, s.phase t = .looking ∨
        s.phase t = .waiting true ∨ ∃ w, s.phase t = .working w) ∧
      ((∀ t, s.phase t = .exited) → s.queued.countP dismiss ≤ n →
        (∃ w ∈ s.queued.getLast?, dismiss w = true) → s.taken = s.queued) := by
  obtain ⟨pending, sleepers, hinv⟩ := WorkState.reachable_inv h
  refine ⟨fun e henabled => ?_, ?_, fun w hw => ?_, fun hne ⟨t, ht⟩ => ?_,
    fun hexited hcount hlast => ?_⟩
  · obtain ⟨s', _, _, hstep, -⟩ := hinv.step henabled
    rw [hstep]
    rfl
  · exact ⟨pending, hinv.fifo.symm⟩
  · have honce := hinv.once w
    rwa [hw, if_neg Bool.false_ne_true] at honce
  · refine hinv.awake (fun hpending => hne ?_) ht
    rw [hinv.fifo, hpending, List.append_nil]
  · rw [hinv.fifo, hinv.drained hexited hcount hlast, List.append_nil]

/-- A work is queued and done, and then the only thread, which is asleep, is dismissed. -/
theorem workqueue_sound_oneThread : ∃ s : WorkState Bool 1,
    (∀ t, s.phase t = .exited) ∧ s.queued = [true, false] ∧ s.done = [true] ∧
      s.taken = s.queued := by
  have hstart : WorkState.Reachable Bool.not (workqueueInit ⟨id, id⟩ : WorkState Bool 1) :=
    .start _
  have hqueued := hstart.next (e := .queue true) ⟨by decide, by decide⟩ rfl
  have htaken := hqueued.next (e := .look 0) rfl rfl
  have hdone := htaken.next (e := .finish 0) ⟨true, rfl⟩ rfl
  have hasleep := hdone.next (e := .look 0) rfl rfl
  have hdismissal := hasleep.next (e := .queue false) ⟨by decide, by decide⟩ rfl
  have hawake := hdismissal.next (e := .wake 0) ⟨true, rfl⟩ rfl
  have hexited := hawake.next (e := .look 0) rfl rfl
  have hall := (workqueue_sound hexited).2.2.2.2
  refine ⟨_, by decide, rfl, rfl, hall (by decide) (by decide) ⟨false, rfl, rfl⟩⟩

end Mupen64plus
