import Mupen64plus.Lib.Memo
import Mupen64plus.Lib.Runs
import Mupen64plus.Hle.Tasks

/-!
# The cache of detected microcodes

A handler is remembered under three words of the task header, the last of them cut to 16 bits,
while detection reads the rest of the header and the memories as well. The cache answers what the
last task under the same words was detected as, and its seventeenth entry lies behind its end.

## Main definitions

- `HleRun`, `hleStep` — tasks one after the other
- `CacheSound` — every task was given its own handler, and the cache has not overrun
- `CacheOrderly` — what a task has to satisfy for that

## Main results

- `faithful_hleExecute` — `hle_execute` is a call through a memo table
- `ucodeCache_sound_iff`
-/

namespace Mupen64plus

/-- The words a task is looked up under. -/
def ucodeKey (m : HleMemory) : BitVec 32 × BitVec 32 × BitVec 32 :=
  (m.taskUcode, m.taskUcodeData, m.taskUcodeDataSize)

/-- The words an entry keeps of a task. -/
def keptKey (m : HleMemory) : BitVec 32 × BitVec 32 × BitVec 32 :=
  (m.taskUcode, m.taskUcodeData, (m.taskUcodeDataSize.truncate 16).zeroExtend 32)

/-- The tasks so far, the most recent first, the handlers that were called for them, and the
    cache; `none` once it was written behind its end. -/
structure HleRun where
  past : List HleMemory
  called : List Ucode
  infos : Option (List UcodeInfo)

def HleRun.start : HleRun := ⟨[], [], some []⟩

/-- A task, with the memories as they are when `hle_execute` is called. -/
def hleStep (config : HleConfig) (s : HleRun) (m : HleMemory) : HleRun :=
  match s.infos with
  | none => s
  | some infos =>
    match hleExecute config infos m with
    | none => { s with infos := none }
    | some (ucode, infos) => ⟨m :: s.past, ucode :: s.called, some infos⟩

/-- **Soundness of the cache**: each task was given the handler it is detected as, and the cache
    holds no more entries than it has room for. -/
def CacheSound (config : HleConfig) (s : HleRun) : Prop :=
  s.called = s.past.map (taskDetection config) ∧
    ∃ infos, s.infos = some infos ∧ infos.length ≤ cachedUcodesMaxSize

/-- What a task has to satisfy: the last task kept under its words was detected as it is, and if
    there was none the cache has room. -/
def CacheOrderly (config : HleConfig) (s : HleRun) (m : HleMemory) : Prop :=
  (∀ e, Memo.recent keptKey s.past (ucodeKey m) = some e →
      taskDetection config e = taskDetection config m) ∧
    (Memo.recent keptKey s.past (ucodeKey m) = none →
      Memo.entries ucodeKey keptKey s.past < cachedUcodesMaxSize)

-- ════════════════════
-- The cache as a memo table
-- ════════════════════

def UcodeInfo.row (info : UcodeInfo) : (BitVec 32 × BitVec 32 × BitVec 32) × Ucode :=
  ((info.ucStart, info.ucDstart, info.ucDsize.zeroExtend 32), info.ucPfunc)

/-- The entries, the last one first. -/
def ucodeTable (infos : List UcodeInfo) : List ((BitVec 32 × BitVec 32 × BitVec 32) × Ucode) :=
  infos.reverse.map UcodeInfo.row

theorem isFor_iff (info : UcodeInfo) (m : HleMemory) :
    info.isFor m = decide (info.row.1 = ucodeKey m) := by
  rw [Bool.eq_iff_iff]
  simp [UcodeInfo.isFor, UcodeInfo.row, ucodeKey, and_assoc]

theorem lookup_ucodeTable (infos : List UcodeInfo) (m : HleMemory) :
    Memo.lookup (ucodeTable infos) (ucodeKey m) =
      (infos.reverse.find? (·.isFor m)).map UcodeInfo.ucPfunc := by
  rw [Memo.lookup, ucodeTable, List.find?_map, Option.map_map]
  have hcond : ((fun r : (BitVec 32 × BitVec 32 × BitVec 32) × Ucode =>
      decide (r.1 = ucodeKey m)) ∘ UcodeInfo.row) = fun info => info.isFor m := by
    funext info
    exact (isFor_iff info m).symm
  rw [hcond]
  rfl

theorem ucodeTable_length (infos : List UcodeInfo) : (ucodeTable infos).length = infos.length := by
  rw [ucodeTable, List.length_map, List.length_reverse]

/-- The 16 bits that are kept of a size are those it was found by. -/
theorem keptKey_normal {e m : HleMemory} (h : keptKey e = ucodeKey m) : keptKey m = ucodeKey m := by
  have hsize : (e.taskUcodeDataSize.truncate 16).zeroExtend 32 = m.taskUcodeDataSize :=
    (Prod.ext_iff.mp (Prod.ext_iff.mp h).2).2
  have hcut : ∀ y : BitVec 16, (y.zeroExtend 32).truncate 16 = y := by
    intro y
    rw [BitVec.truncate, BitVec.zeroExtend, BitVec.setWidth_setWidth_of_le _ (by decide),
      BitVec.setWidth_eq]
  rw [keptKey, ucodeKey, ← hsize, hcut]

/-- **`hle_execute` is a call through a memo table** with room for sixteen entries. -/
theorem faithful_hleExecute {config : HleConfig} {past : List HleMemory} {infos : List UcodeInfo}
    (h : Memo.Faithful (taskDetection config) ucodeKey keptKey past (ucodeTable infos))
    (m : HleMemory) :
    (Memo.recent keptKey past (ucodeKey m) = none ∧ infos.length = cachedUcodesMaxSize →
      hleExecute config infos m = none) ∧
    ((Memo.recent keptKey past (ucodeKey m) = none → infos.length < cachedUcodesMaxSize) →
      ∃ infos', hleExecute config infos m =
          some ((Memo.answer (taskDetection config) ucodeKey keptKey (ucodeTable infos) m).1,
            infos') ∧
        ucodeTable infos' =
          (Memo.answer (taskDetection config) ucodeKey keptKey (ucodeTable infos) m).2) := by
  have hlookup := h.lookup (ucodeKey m)
  rw [lookup_ucodeTable] at hlookup
  cases hfind : infos.reverse.find? (·.isFor m) with
  | none =>
    have hmiss : Memo.lookup (ucodeTable infos) (ucodeKey m) = none := by
      rw [lookup_ucodeTable, hfind]
      rfl
    rw [hfind] at hlookup
    have hrecent : Memo.recent keptKey past (ucodeKey m) = none :=
      Option.map_eq_none_iff.mp hlookup.symm
    refine ⟨fun ⟨_, hfull⟩ => ?_, fun hroom => ⟨infos ++ [newUcodeInfo config m], ?_, ?_⟩⟩
    · simp only [hleExecute, hfind]
      rw [if_neg (by omega)]
    · simp only [hleExecute, hfind]
      rw [if_pos (hroom hrecent), Memo.answer, hmiss]
    · rw [ucodeTable, List.reverse_append, List.reverse_singleton, List.singleton_append,
        List.map_cons, Memo.answer, hmiss]
      rfl
  | some info =>
    have hhit : Memo.lookup (ucodeTable infos) (ucodeKey m) = some info.ucPfunc := by
      rw [lookup_ucodeTable, hfind]
      rfl
    refine ⟨fun ⟨hnone, _⟩ => ?_, fun _ => ⟨infos, ?_, ?_⟩⟩
    · rw [hfind, hnone] at hlookup
      cases hlookup
    · simp only [hleExecute, hfind]
      rw [Memo.answer, hhit]
    · rw [Memo.answer, hhit]

-- ════════════════════
-- Runs of tasks
-- ════════════════════

/-- Sound, and the cache answers for the tasks so far. -/
structure CacheInv (config : HleConfig) (s : HleRun) : Prop where
  called : s.called = s.past.map (taskDetection config)
  table : ∃ infos, s.infos = some infos ∧ infos.length ≤ cachedUcodesMaxSize ∧
    Memo.Faithful (taskDetection config) ucodeKey keptKey s.past (ucodeTable infos)

theorem CacheInv.sound {config : HleConfig} {s : HleRun} (h : CacheInv config s) :
    CacheSound config s := by
  obtain ⟨infos, hinfos, hlength, -⟩ := h.table
  exact ⟨h.called, infos, hinfos, hlength⟩

theorem cacheInv_start (config : HleConfig) : CacheInv config .start :=
  ⟨rfl, [], rfl, Nat.zero_le _, .nil⟩

/-- One task: the cache stays sound exactly when the task is orderly, and then still answers for
    the tasks so far. -/
theorem CacheInv.step {config : HleConfig} {s : HleRun} (h : CacheInv config s) (m : HleMemory) :
    (CacheSound config (hleStep config s m) → CacheOrderly config s m) ∧
      (CacheOrderly config s m → CacheInv config (hleStep config s m)) := by
  obtain ⟨infos, hinfos, hlength, hfaithful⟩ := h.table
  obtain ⟨hoverrun, hanswer⟩ := faithful_hleExecute hfaithful m
  have hentries : infos.length = Memo.entries ucodeKey keptKey s.past := by
    rw [← hfaithful.length, ucodeTable_length]
  by_cases hroom : Memo.recent keptKey s.past (ucodeKey m) = none →
      infos.length < cachedUcodesMaxSize
  · obtain ⟨infos', hrun, htable⟩ := hanswer hroom
    have hstep : hleStep config s m = ⟨m :: s.past,
        (Memo.answer (taskDetection config) ucodeKey keptKey (ucodeTable infos) m).1 :: s.called,
        some infos'⟩ := by
      simp only [hleStep, hinfos, hrun]
    have hlength' : infos'.length ≤ cachedUcodesMaxSize := by
      rw [← ucodeTable_length, htable, hfaithful.answer_length, Memo.entries, ← hentries]
      split
      next => omega
      next hnone =>
        have hlt := hroom (Option.not_isSome_iff_eq_none.mp hnone)
        omega
    rw [hstep]
    constructor
    · intro hsound
      have hhead := (List.cons.inj hsound.1).1
      exact ⟨(hfaithful.answer_iff m).mp hhead, fun hnone => hentries ▸ hroom hnone⟩
    · intro horderly
      have hright := (hfaithful.answer_iff m).mpr horderly.1
      refine ⟨?_, infos', rfl, hlength', ?_⟩
      · rw [List.map_cons, hright, h.called]
      · rw [htable]
        exact hfaithful.step (fun e he => keptKey_normal he) hright
  · obtain ⟨hnone, hfull⟩ := Classical.not_imp.mp hroom
    have hstep : hleStep config s m = { s with infos := none } := by
      simp only [hleStep, hinfos, hoverrun ⟨hnone, by omega⟩]
    rw [hstep]
    constructor
    · rintro ⟨-, infos', hinfos', -⟩
      cases hinfos'
    · intro horderly
      have hlt := horderly.2 hnone
      omega

/-- **The microcode cache, exactly**: along a sequence of tasks every handler is the one its task
    is detected as, and the cache is never written behind its end, exactly when for each task the
    last one kept under the same words was detected as it is, and the cache has room if there was
    none. -/
theorem ucodeCache_sound_iff (config : HleConfig) (tasks : List HleMemory) :
    (∀ s ∈ Runs.visited (hleStep config) .start tasks, CacheSound config s) ↔
      Runs.Along (hleStep config) (CacheOrderly config) .start tasks := by
  have hiff : ∀ (tasks : List HleMemory) (s : HleRun), CacheInv config s →
      ((∀ t ∈ Runs.visited (hleStep config) s tasks, CacheSound config t) ↔
        Runs.Along (hleStep config) (CacheOrderly config) s tasks) := by
    intro tasks
    induction tasks with
    | nil =>
      intro s hs
      simp only [Runs.visited, List.mem_singleton, forall_eq, Runs.along_nil, iff_true]
      exact hs.sound
    | cons m tasks ih =>
      intro s hs
      obtain ⟨hneeds, hkeeps⟩ := hs.step m
      rw [Runs.along_cons, Runs.visited, List.forall_mem_cons]
      constructor
      · rintro ⟨-, hrest⟩
        have horderly := hneeds (hrest _ (Runs.start_mem_visited _ _ tasks))
        exact ⟨horderly, (ih _ (hkeeps horderly)).mp hrest⟩
      · rintro ⟨horderly, hrest⟩
        exact ⟨hs.sound, (ih _ (hkeeps horderly)).mpr hrest⟩
  exact hiff tasks .start (cacheInv_start config)

/-- A task without a header, on microcode bytes given by `text`. -/
def plainTask (text : Bytes) : HleMemory := ⟨text, fun _ => 0, fun _ => 0⟩

set_option maxRecDepth 16000 in
/-- Two different microcodes are loaded at one address: the second task is given the handler of the
    first. -/
theorem ucodeCache_stale :
    ¬∀ (config : HleConfig) (tasks : List HleMemory),
      ∀ s ∈ Runs.visited (hleStep config) .start tasks, CacheSound config s := by
  intro h
  have hsound := (h ⟨true, false⟩
    [plainTask fun _ => 0, plainTask fun a => if a < 15 then 70 else 69] _
    (Runs.runFrom_mem_visited _ _ _)).1
  revert hsound
  decide

end Mupen64plus
