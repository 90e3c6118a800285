import Mathlib.Algebra.BigOperators.Ring.List
import Mathlib.Data.BitVec
import Mathlib.Logic.Function.Basic
import Mupen64plus.Lib.RecordStreams

/-!
# Lists of display processor commands

The commands of the display processor come in lists, and a list may end inside a command. The
renderer of paraLLEl, which is there, keeps what is left of a list in front of the next one;
commands with an id below 8 are not enqueued. Angrylion goes on with the command that it has begun,
but for as many words as the whole command has, and takes no more lists when a command has crashed
its pipeline.

## Main definitions

- `commandWords` — the length of a command, as its first word says
- `ParallelRdp.processCommands` — `process_commands` of paraLLEl
- `N64Video.processList` — `n64video_process_list` of angrylion
- `KeepsToCommands` — no list that begins inside a command goes past its end
- `N64Video.GoesOn` — the pipeline has not crashed when a list with words comes

## Main results

- `processCommands_outputs` — paraLLEl takes the commands of the lists as if they were one
- `processList_iff` — angrylion does if no list that begins inside a command goes past its end and
  none with words comes behind a crash, and in no other case
-/

namespace Mupen64plus

open RecordStreams

-- ════════════════════
-- Commands
-- ════════════════════

/-- `CMD_ID`. -/
def commandId (w : BitVec 32) : ℕ := ((w >>> 24) &&& 0x3f#32).toNat

/-- The lengths of `rdp_commands`, in bytes. -/
def rdpCommandsLength (id : ℕ) : ℕ :=
  [8, 8, 8, 8, 8, 8, 8, 8, 32, 48, 96, 112, 96, 112, 160, 176,
    8, 8, 8, 8, 8, 8, 8, 8, 8, 8, 8, 8, 8, 8, 8, 8,
    8, 8, 8, 8, 16, 16, 8, 8, 8, 8, 8, 8, 8, 8, 8, 8,
    8, 8, 8, 8, 8, 8, 8, 8, 8, 8, 8, 8, 8, 8, 8, 8].getD id 0

/-- `cmd_len_lut`, in double-words. -/
def cmdLenLut (id : ℕ) : ℕ :=
  [1, 1, 1, 1, 1, 1, 1, 1, 4, 6, 12, 14, 12, 14, 20, 22,
    1, 1, 1, 1, 1, 1, 1, 1, 1, 1, 1, 1, 1, 1, 1, 1,
    1, 1, 1, 1, 2, 2, 1, 1, 1, 1, 1, 1, 1, 1, 1, 1,
    1, 1, 1, 1, 1, 1, 1, 1, 1, 1, 1, 1, 1, 1, 1, 1].getD id 0

/-- The words of the command that a word begins. -/
def commandWords (w : BitVec 32) : ℕ := rdpCommandsLength (commandId w) >>> 2

structure DpRegisters where
  dpStart : BitVec 32
  dpCurrent : BitVec 32
  dpEnd : BitVec 32
  dpStatus : BitVec 32

/-- `DP_STATUS_XBUS_DMA`. -/
def DpRegisters.xbusDma (r : DpRegisters) : Bool := r.dpStatus.getLsbD 0

/-- `DP_START = DP_CURRENT = DP_END`. -/
def DpRegisters.taken (r : DpRegisters) : DpRegisters :=
  { r with dpStart := r.dpEnd, dpCurrent := r.dpEnd }

/-- What is found when a list is to be read: the registers, and DMEM and RDRAM with each word as it
    is when it is read. -/
structure CommandList where
  regs : DpRegisters
  dmem : ℕ → BitVec 32
  rdram : ℕ → BitVec 32
  idxlim32 : ℕ

/-- No list that begins inside a command, of which some words are there, goes past its end. -/
def KeepsToCommands : List (BitVec 32) → List (List (BitVec 32)) → Prop
  | _, [] => True
  | p, ws :: lists => (∀ w ∈ p.head?, p.length + ws.length ≤ commandWords w) ∧
      KeepsToCommands (feed commandWords p ws).1 lists

-- ════════════════════
-- paraLLEl
-- ════════════════════

/-- `frontend->enqueue_command`, and the interrupt of a `SyncFull`. -/
inductive RdpOutput where
  | enqueueCommand (words : List (BitVec 32))
  | dpInterrupt
  deriving DecidableEq

/-- What is done with a command. -/
def commandOutputs (words : List (BitVec 32)) : List RdpOutput :=
  let command := commandId (words.headD 0)
  (if 8 ≤ command then [.enqueueCommand words] else []) ++
    (if command = 0x29 then [.dpInterrupt] else [])

namespace CommandList

variable (l : CommandList)

/-- `DP_CURRENT`. -/
def parallelCurrent : ℕ := (l.regs.dpCurrent &&& 0x00FFFFF8#32).toNat

/-- `DP_END`. -/
def parallelEnd : ℕ := (l.regs.dpEnd &&& 0x00FFFFF8#32).toNat

/-- The loops that read double-words, with the mask of their offset. -/
def parallelRead (mask : ℕ) (memory : ℕ → BitVec 32) : ℕ → ℕ → List (BitVec 32)
  | 0, _ => []
  | length + 1, offset =>
    memory ((offset &&& mask) / 4) :: memory ((offset &&& mask) / 4 + 1) ::
      parallelRead mask memory length ((offset &&& mask) + 8)

/-- `length`, in double-words. -/
def parallelLength : ℕ := (l.parallelEnd - l.parallelCurrent) >>> 3

def parallelWords : List (BitVec 32) :=
  if l.regs.xbusDma then parallelRead 0xFF8 l.dmem l.parallelLength l.parallelCurrent
  else parallelRead 0xFFFFF8 l.rdram l.parallelLength l.parallelCurrent

end CommandList

/-- `cmd_cur`, `cmd_ptr` and `cmd_data`, with what was done with the commands. -/
structure ParallelRdp where
  cmdCur : ℕ
  cmdPtr : ℕ
  cmdData : ℕ → BitVec 32
  regs : DpRegisters
  outputs : List RdpOutput

namespace ParallelRdp

/-- Words that are stored from a place on. -/
def storeWords (data : ℕ → BitVec 32) : ℕ → List (BitVec 32) → ℕ → BitVec 32
  | _, [] => data
  | i, w :: ws => storeWords (Function.update data i w) (i + 1) ws

/-- `n` words from a place on. -/
def dataWords (data : ℕ → BitVec 32) (i n : ℕ) : List (BitVec 32) :=
  (List.range n).map fun k => data (i + k)

/-- The loop over the commands. -/
def executeCommands : ℕ → ParallelRdp → ParallelRdp
  | 0, s => s
  | fuel + 1, s =>
    if s.cmdPtr ≤ s.cmdCur then { s with cmdPtr := 0, cmdCur := 0, regs := s.regs.taken }
    else
      let cmdLength := cmdLenLut (commandId (s.cmdData (2 * s.cmdCur)))
      if s.cmdPtr < s.cmdCur + cmdLength then { s with regs := s.regs.taken }
      else executeCommands fuel { s with
        outputs := s.outputs ++
          commandOutputs (dataWords s.cmdData (2 * s.cmdCur) (2 * cmdLength))
        cmdCur := s.cmdCur + cmdLength }

/-- `process_commands`. Nothing is read if it would not fit in `cmd_data`. -/
def processCommands (s : ParallelRdp) (l : CommandList) : ParallelRdp :=
  if l.parallelEnd ≤ l.parallelCurrent then { s with regs := l.regs }
  else if 0x0003FFFF >>> 3 < s.cmdPtr + l.parallelLength then { s with regs := l.regs }
  else if ¬l.regs.xbusDma ∧ (0x7ffffff < l.parallelEnd ∨ 0x7ffffff < l.parallelCurrent) then
    { s with regs := l.regs }
  else
    let ptr := s.cmdPtr + l.parallelLength
    executeCommands (ptr - s.cmdCur + 1) { s with
      cmdData := storeWords s.cmdData (2 * s.cmdPtr) l.parallelWords
      cmdPtr := ptr
      regs := l.regs }

/-- No command is there yet. -/
def initial (data : ℕ → BitVec 32) (regs : DpRegisters) : ParallelRdp := ⟨0, 0, data, regs, []⟩

/-- Every list fits in `cmd_data` behind what was kept. -/
def Fits : ParallelRdp → List CommandList → Prop
  | _, [] => True
  | s, l :: lists => s.cmdPtr + l.parallelLength ≤ 0x0003FFFF >>> 3 ∧
      Fits (s.processCommands l) lists

end ParallelRdp

-- ════════════════════
-- Angrylion
-- ════════════════════

namespace CommandList

variable (l : CommandList)

/-- `rdram_read_idx32`. -/
def rdramReadIdx32 (i : ℕ) : BitVec 32 :=
  if i &&& 0x3fffff ≤ l.idxlim32 then l.rdram (i &&& 0x3fffff) else 0#32

/-- `dp_current_al`. -/
def currentAl : ℕ := ((l.regs.dpCurrent &&& ~~~7#32) >>> 2).toNat

/-- `dp_end_al`. -/
def endAl : ℕ := ((l.regs.dpEnd &&& ~~~7#32) >>> 2).toNat

/-- The words that are read, in order. -/
def n64videoWords : List (BitVec 32) :=
  (List.range (l.endAl - l.currentAl)).map fun i =>
    if l.regs.xbusDma then l.dmem ((l.currentAl + i) &&& 0x3ff)
    else l.rdramReadIdx32 (l.currentAl + i)

end CommandList

structure N64VideoConfig where
  parallel : Bool
  /-- `rdp_cmd_sync`. -/
  rdpCmdSync : ℕ → Bool
  /-- Behind these commands, a command sets `rdp_pipeline_crashed`. -/
  crashes : List (List (BitVec 32)) → List (BitVec 32) → Bool

/-- `cmdBuf` is the command that is being read, up to `rdp_cmd_pos`; `buffered` are those before it
    in `rdp_cmd_buf`. -/
structure N64Video where
  cmdBuf : List (BitVec 32)
  cmdId : ℕ
  cmdLen : ℕ
  buffered : List (List (BitVec 32))
  executed : List (List (BitVec 32))
  /-- `rdp_pipeline_crashed`. -/
  crashed : Bool
  zbufferAddress : BitVec 32
  regs : DpRegisters

namespace N64Video

variable (s : N64Video)

/-- `cmd_init`, with `CMD_MAX_INTS`. -/
def cmdInit : N64Video := { s with cmdBuf := [], cmdId := 0, cmdLen := 44 }

/-- `rdp_cmd`. -/
def rdpCmd (config : N64VideoConfig) (command : List (BitVec 32)) : N64Video := { s with
  executed := s.executed ++ [command]
  crashed := s.crashed || config.crashes s.executed command }

def cmdFlush (config : N64VideoConfig) : N64Video :=
  { s.buffered.foldl (fun t command => t.rdpCmd config command) s with buffered := [] }

/-- The command is executed, or kept until the commands before it are. `rdp_sync_full` does not
    crash the pipeline. -/
def runCommand (config : N64VideoConfig) : N64Video :=
  if config.parallel then
    if s.cmdId = 0x29 then
      let t := s.cmdFlush config
      { t with executed := t.executed ++ [s.cmdBuf] }
    else
      let t := { s with buffered := s.buffered ++ [s.cmdBuf] }
      if 1024 ≤ t.buffered.length ∨ config.rdpCmdSync s.cmdId then t.cmdFlush config else t
  else s.rdpCmd config s.cmdBuf

/-- What is done with a command that is there. -/
def finishCommand (config : N64VideoConfig) : N64Video :=
  let t := s.runCommand config
  let u := if s.cmdId = 0x3e then
    { t with zbufferAddress := s.cmdBuf.getD 1 0 &&& 0x0ffffff#32 } else t
  u.cmdInit

/-- The first word of a command, if none is there. -/
def beginCommand : List (BitVec 32) → N64Video × List (BitVec 32)
  | [] => (s, [])
  | w :: ws =>
    if s.cmdBuf = [] then ({ s with
      cmdBuf := [w]
      cmdId := commandId w
      cmdLen := commandWords w }, ws)
    else (s, w :: ws)

/-- The loops that copy words. There is no state if they write past `CMD_MAX_INTS`. -/
def loadWords (ws : List (BitVec 32)) : Option N64Video :=
  if s.cmdBuf.length + ws.length ≤ 44 then some { s with cmdBuf := s.cmdBuf ++ ws } else none

/-- `toload`. -/
def toload (ws : List (BitVec 32)) : ℕ := min ws.length (s.cmdLen - 1)

/-- The command is finished when its last word was loaded. -/
def finishIfLoaded (config : N64VideoConfig) : N64Video :=
  if s.cmdBuf.length = s.cmdLen then s.finishCommand config else s

/-- A turn of the loop, with the words that are left. -/
def processTurn (config : N64VideoConfig) (ws : List (BitVec 32)) :
    Option (N64Video × List (BitVec 32)) :=
  let t := s.beginCommand ws
  let n := t.1.toload t.2
  (t.1.loadWords (t.2.take n)).map fun u => (u.finishIfLoaded config, t.2.drop n)

/-- The loop while words are left. -/
def processLoop (config : N64VideoConfig) : ℕ → N64Video → List (BitVec 32) → Option N64Video
  | 0, s, _ => some s
  | fuel + 1, s, ws =>
    if ws = [] then some s
    else (s.processTurn config ws).bind fun t => processLoop config fuel t.1 t.2

/-- `n64video_process_list`. -/
def processList (config : N64VideoConfig) (l : CommandList) : Option N64Video :=
  if s.crashed ∨ l.endAl ≤ l.currentAl then some { s with regs := l.regs }
  else (processLoop config l.n64videoWords.length s l.n64videoWords).map fun t =>
    { t with regs := l.regs.taken }

/-- After `n64video_init`. -/
def initial (zbufferAddress : BitVec 32) (regs : DpRegisters) : N64Video :=
  cmdInit ⟨[], 0, 0, [], [], false, zbufferAddress, regs⟩

/-- Lists one after the other. -/
def processLists (config : N64VideoConfig) (lists : List CommandList) : Option N64Video :=
  lists.foldlM (fun t l => t.processList config l) s

/-- The pipeline has not crashed when a list with words comes. -/
def GoesOn (config : N64VideoConfig) : N64Video → List CommandList → Prop
  | _, [] => True
  | s, l :: lists => (l.n64videoWords ≠ [] → s.crashed = false) ∧
      ∀ t, s.processList config l = some t → t.GoesOn config lists

end N64Video

-- ════════════════════
-- The lengths of commands
-- ════════════════════

theorem commandId_lt (w : BitVec 32) : commandId w < 64 := by
  rw [commandId, BitVec.toNat_and]
  exact Nat.lt_succ_of_le Nat.and_le_right

/-- The two tables agree. -/
theorem rdpCommandsLength_eq : ∀ id < 64, rdpCommandsLength id >>> 2 = 2 * cmdLenLut id ∧
    0 < cmdLenLut id ∧ cmdLenLut id ≤ 22 := by
  decide

theorem commandWords_eq (w : BitVec 32) : commandWords w = 2 * cmdLenLut (commandId w) :=
  (rdpCommandsLength_eq _ (commandId_lt w)).1

theorem cmdLenLut_pos (w : BitVec 32) : 0 < cmdLenLut (commandId w) :=
  (rdpCommandsLength_eq _ (commandId_lt w)).2.1

theorem commandWords_pos (w : BitVec 32) : 0 < commandWords w := by
  have hpos := cmdLenLut_pos w
  rw [commandWords_eq]
  omega

theorem commandWords_le (w : BitVec 32) : commandWords w ≤ 44 := by
  have hle := (rdpCommandsLength_eq _ (commandId_lt w)).2.2
  rw [commandWords_eq]
  omega

/-- Words in front of which some are pending are cut with them. -/
theorem feed_unfinished {p : List (BitVec 32)} (hp : Unfinished commandWords p)
    (ws : List (BitVec 32)) : feed commandWords [] (p ++ ws) = feed commandWords p ws := by
  rw [feed_append, feed_of_unfinished (p := []) hp]
  rfl

-- ════════════════════
-- The lists of paraLLEl
-- ════════════════════

theorem CommandList.length_parallelRead (mask : ℕ) (memory : ℕ → BitVec 32) (n offset : ℕ) :
    (parallelRead mask memory n offset).length = 2 * n := by
  induction n generalizing offset with
  | zero => rfl
  | succ n ih =>
    rw [parallelRead, List.length_cons, List.length_cons, ih]
    omega

@[simp] theorem CommandList.length_parallelWords (l : CommandList) :
    l.parallelWords.length = 2 * l.parallelLength := by
  rw [parallelWords]
  split <;> exact length_parallelRead ..

namespace ParallelRdp

theorem storeWords_of_lt (data : ℕ → BitVec 32) (ws : List (BitVec 32)) {i j : ℕ} (h : j < i) :
    storeWords data i ws j = data j := by
  induction ws generalizing data i with
  | nil => rfl
  | cons w ws ih => rw [storeWords, ih _ (by omega), Function.update_of_ne (by omega)]

theorem storeWords_add (data : ℕ → BitVec 32) (ws : List (BitVec 32)) (i : ℕ) {k : ℕ}
    (h : k < ws.length) : storeWords data i ws (i + k) = ws[k] := by
  induction ws generalizing data i k with
  | nil => exact absurd h (Nat.not_lt_zero k)
  | cons w ws ih =>
    rw [storeWords]
    cases k with
    | zero => rw [storeWords_of_lt _ _ (by omega), Nat.add_zero, Function.update_self]; rfl
    | succ k =>
      rw [← Nat.add_assoc, Nat.add_right_comm, ih _ _ (by simpa using h)]
      rfl

@[simp] theorem length_dataWords (data : ℕ → BitVec 32) (i n : ℕ) :
    (dataWords data i n).length = n := by
  rw [dataWords, List.length_map, List.length_range]

theorem dataWords_add (data : ℕ → BitVec 32) (i m n : ℕ) :
    dataWords data i (m + n) = dataWords data i m ++ dataWords data (i + m) n := by
  rw [dataWords, List.range_add, List.map_append, List.map_map]
  refine congrArg (_ ++ ·) (List.map_congr_left fun k _ => ?_)
  rw [Function.comp_apply, Nat.add_assoc]

theorem dataWords_storeWords (data : ℕ → BitVec 32) (ws : List (BitVec 32)) (i m : ℕ) :
    dataWords (storeWords data (i + m) ws) i (m + ws.length) = dataWords data i m ++ ws := by
  rw [dataWords_add]
  congr 1
  · refine List.map_congr_left fun k hk => storeWords_of_lt _ _ ?_
    have hlt := List.mem_range.1 hk
    omega
  · refine List.ext_getElem (length_dataWords ..) fun k hk hk' => ?_
    simp only [dataWords, List.getElem_map, List.getElem_range]
    exact storeWords_add _ _ _ hk'

theorem head?_dataWords (data : ℕ → BitVec 32) (i : ℕ) {n : ℕ} (hn : 0 < n) :
    (dataWords data i n).head? = some (data i) := by
  obtain ⟨n, rfl⟩ := Nat.exists_eq_succ_of_ne_zero hn.ne'
  rw [dataWords, List.range_succ_eq_map]
  rfl

/-- The words of commands that are there and have not been executed. -/
def waiting (s : ParallelRdp) : List (BitVec 32) :=
  dataWords s.cmdData (2 * s.cmdCur) (2 * (s.cmdPtr - s.cmdCur))

/-- A command of which some double-words are missing. -/
theorem unfinished_waiting {s : ParallelRdp} (hrest : s.cmdCur < s.cmdPtr)
    (hshort : s.cmdPtr < s.cmdCur + cmdLenLut (commandId (s.cmdData (2 * s.cmdCur)))) :
    Unfinished commandWords s.waiting := by
  intro w hw
  rw [waiting, head?_dataWords _ _ (by omega), Option.mem_some_iff] at hw
  rw [← hw, commandWords_eq, waiting, length_dataWords]
  omega

/-- A command that is there, in front of the words that wait behind it. -/
theorem waiting_eq_append {s : ParallelRdp} {n : ℕ} (hthere : s.cmdCur + n ≤ s.cmdPtr) :
    s.waiting = dataWords s.cmdData (2 * s.cmdCur) (2 * n) ++
      dataWords s.cmdData (2 * (s.cmdCur + n)) (2 * (s.cmdPtr - (s.cmdCur + n))) := by
  rw [Nat.mul_add, ← dataWords_add, waiting]
  congr 1
  omega

/-- The loop executes the commands that are there and keeps what is left. -/
theorem executeCommands_eq {fuel : ℕ} {s : ParallelRdp} (hle : s.cmdCur ≤ s.cmdPtr)
    (hfuel : s.cmdPtr - s.cmdCur < fuel) :
    (executeCommands fuel s).cmdCur ≤ (executeCommands fuel s).cmdPtr ∧
      (executeCommands fuel s).waiting = (feed commandWords [] s.waiting).1 ∧
      (executeCommands fuel s).outputs =
        s.outputs ++ (feed commandWords [] s.waiting).2.flatMap commandOutputs := by
  induction fuel generalizing s with
  | zero => exact absurd hfuel (Nat.not_lt_zero _)
  | succ fuel ih =>
    rw [executeCommands]
    split
    case isTrue hend =>
      have hnil : s.waiting = [] := by
        rw [waiting, Nat.sub_eq_zero_of_le hend]
        rfl
      rw [hnil]
      exact ⟨Nat.le_refl 0, rfl, (List.append_nil _).symm⟩
    case isFalse hrest =>
      dsimp only
      split
      case isTrue hshort =>
        have hfeed : feed commandWords [] s.waiting = (s.waiting, []) :=
          feed_of_unfinished (p := []) (unfinished_waiting (Nat.not_le.1 hrest) hshort)
        rw [hfeed]
        exact ⟨hle, rfl, (List.append_nil _).symm⟩
      case isFalse hthere =>
        have hlength := commandWords_eq (s.cmdData (2 * s.cmdCur))
        have hpos := cmdLenLut_pos (s.cmdData (2 * s.cmdCur))
        generalize cmdLenLut (commandId (s.cmdData (2 * s.cmdCur))) = n at hthere hlength hpos ⊢
        have hrecord : IsRecord commandWords (dataWords s.cmdData (2 * s.cmdCur) (2 * n)) := by
          rw [IsRecord, head?_dataWords _ _ (by omega), Option.map_some, hlength, length_dataWords]
        have hnext := @ih { s with
          outputs := s.outputs ++ commandOutputs (dataWords s.cmdData (2 * s.cmdCur) (2 * n))
          cmdCur := s.cmdCur + n } (by dsimp only; omega) (by dsimp only; omega)
        rw [waiting_eq_append (Nat.not_lt.1 hthere), feed_record hrecord]
        refine ⟨hnext.1, hnext.2.1, hnext.2.2.trans ?_⟩
        rw [List.flatMap_cons, List.append_assoc]
        rfl

/-- What holds between two lists, with the words of the command that has begun. -/
structure Keeps (s : ParallelRdp) (p : List (BitVec 32)) : Prop where
  le : s.cmdCur ≤ s.cmdPtr
  waiting : s.waiting = p
  unfinished : Unfinished commandWords p

/-- One list is taken with the words that were kept in front of it. -/
theorem processCommands_eq {s : ParallelRdp} {p : List (BitVec 32)} (hs : s.Keeps p)
    {l : CommandList} (hfits : s.cmdPtr + l.parallelLength ≤ 0x0003FFFF >>> 3) :
    (s.processCommands l).Keeps (feed commandWords p l.parallelWords).1 ∧
      (s.processCommands l).outputs =
        s.outputs ++ (feed commandWords p l.parallelWords).2.flatMap commandOutputs := by
  rw [processCommands]
  split
  case isTrue hempty =>
    have hzero : l.parallelLength = 0 := by
      rw [CommandList.parallelLength, Nat.sub_eq_zero_of_le hempty]
      rfl
    have hnil : l.parallelWords = [] := by
      rw [← List.length_eq_zero_iff, CommandList.length_parallelWords, hzero]
    rw [hnil]
    exact ⟨⟨hs.le, hs.waiting, hs.unfinished⟩, (List.append_nil _).symm⟩
  case isFalse =>
    have hmask : ∀ w : BitVec 32, (w &&& 0x00FFFFF8#32).toNat ≤ 0x7ffffff := by
      intro w
      rw [BitVec.toNat_and]
      exact Nat.and_le_right.trans (by decide)
    rw [if_neg (Nat.not_lt.2 hfits), if_neg fun h =>
      h.2.elim (Nat.not_lt.2 (hmask _)) (Nat.not_lt.2 (hmask _))]
    have hle := hs.le
    have hwaiting : waiting { s with
        cmdData := storeWords s.cmdData (2 * s.cmdPtr) l.parallelWords
        cmdPtr := s.cmdPtr + l.parallelLength
        regs := l.regs } = p ++ l.parallelWords := by
      rw [← hs.waiting, waiting, waiting, ← dataWords_storeWords, CommandList.length_parallelWords]
      dsimp only
      congr 2 <;> omega
    have hrun := executeCommands_eq (s := { s with
        cmdData := storeWords s.cmdData (2 * s.cmdPtr) l.parallelWords
        cmdPtr := s.cmdPtr + l.parallelLength
        regs := l.regs }) (Nat.le_add_right_of_le hle) (Nat.lt_succ_self _)
    rw [hwaiting, feed_unfinished hs.unfinished] at hrun
    exact ⟨⟨hrun.1, hrun.2.1, unfinished_feed commandWords_pos hs.unfinished _⟩, hrun.2.2⟩

theorem processLists_eq {s : ParallelRdp} {p : List (BitVec 32)} (hs : s.Keeps p)
    {lists : List CommandList} (hfits : s.Fits lists) :
    (lists.foldl processCommands s).Keeps
        (feed commandWords p (lists.flatMap CommandList.parallelWords)).1 ∧
      (lists.foldl processCommands s).outputs = s.outputs ++
        (feed commandWords p (lists.flatMap CommandList.parallelWords)).2.flatMap
          commandOutputs := by
  induction lists generalizing s p with
  | nil => exact ⟨hs, (List.append_nil _).symm⟩
  | cons l lists ih =>
    obtain ⟨hkeeps, houtputs⟩ := processCommands_eq hs hfits.1
    have hrest := ih hkeeps hfits.2
    rw [List.flatMap_cons, feed_append, List.foldl_cons]
    refine ⟨hrest.1, hrest.2.trans ?_⟩
    rw [houtputs, List.flatMap_append, List.append_assoc]

end ParallelRdp

/-- **One stream**: whatever lists the words come in, if each fits behind what was kept, paraLLEl
    has done what the commands of all the words say (it enqueues those with an id from 8 on), and
    keeps what is left of them. -/
theorem processCommands_outputs (data : ℕ → BitVec 32) (regs : DpRegisters)
    (lists : List CommandList) (hfits : (ParallelRdp.initial data regs).Fits lists) :
    (lists.foldl ParallelRdp.processCommands (ParallelRdp.initial data regs)).outputs =
        (feed commandWords [] (lists.flatMap CommandList.parallelWords)).2.flatMap
          commandOutputs ∧
      (lists.foldl ParallelRdp.processCommands (ParallelRdp.initial data regs)).waiting =
        (feed commandWords [] (lists.flatMap CommandList.parallelWords)).1 := by
  have hinitial : (ParallelRdp.initial data regs).Keeps [] := ⟨Nat.le_refl 0, rfl, unfinished_nil⟩
  obtain ⟨hkeeps, houtputs⟩ := ParallelRdp.processLists_eq hinitial hfits
  exact ⟨houtputs, hkeeps.waiting⟩

/-- A texture rectangle that comes in two lists. -/
def rectangleHalves : List CommandList :=
  [⟨⟨0, 0, 8, 1⟩, fun i => if i = 0 then 0x24000000#32 else 0#32, fun _ => 0#32, 0x1fffff⟩,
    ⟨⟨8, 8, 16, 1⟩, fun i => if i = 0 then 0x24000000#32 else 0#32, fun _ => 0#32, 0x1fffff⟩]

theorem processCommands_outputs_rectangle :
    (rectangleHalves.foldl ParallelRdp.processCommands
      (ParallelRdp.initial (fun _ => 0#32) ⟨0, 0, 0, 0⟩)).outputs =
        [.enqueueCommand [0x24000000#32, 0#32, 0#32, 0#32]] :=
  (processCommands_outputs _ _ rectangleHalves ⟨by decide, by decide, trivial⟩).1.trans
    (by decide)

-- ════════════════════
-- The lists of angrylion
-- ════════════════════

@[simp] theorem CommandList.length_n64videoWords (l : CommandList) :
    l.n64videoWords.length = l.endAl - l.currentAl := by
  rw [n64videoWords, List.length_map, List.length_range]

/-- A list has whole double-words. -/
theorem CommandList.even_n64videoWords (l : CommandList) : 2 ∣ l.n64videoWords.length := by
  have heven : ∀ r : BitVec 32, 2 ∣ ((r &&& ~~~7#32) >>> 2).toNat := by
    intro r
    have hbit : ((r &&& ~~~7#32) >>> 2).getLsbD 0 = false := by
      rw [BitVec.getLsbD_ushiftRight, BitVec.getLsbD_and]
      simp
    rw [BitVec.getLsbD, Nat.testBit_zero, decide_eq_false_iff_not] at hbit
    omega
  rw [length_n64videoWords]
  exact Nat.dvd_sub (heven _) (heven _)

/-- Commands have whole double-words, so what is left of some has. -/
theorem even_feed {p ws : List (BitVec 32)} (hp : 2 ∣ p.length) (hws : 2 ∣ ws.length) :
    2 ∣ (feed commandWords p ws).1.length := by
  have hrecords : 2 ∣ (feed commandWords p ws).2.flatten.length := by
    rw [List.length_flatten]
    refine List.dvd_sum fun n hn => ?_
    obtain ⟨r, hr, rfl⟩ := List.mem_map.1 hn
    obtain ⟨w, -, hlength⟩ := Option.map_eq_some_iff.1 (isRecord_of_mem_feed hr)
    rw [← hlength, commandWords_eq]
    exact Nat.dvd_mul_right 2 _
  have hflatten : (feed commandWords p ws).2.flatten ++ (feed commandWords p ws).1 = p ++ ws :=
    flatten_feed p ws
  have hlength := congrArg List.length hflatten
  rw [List.length_append, List.length_append] at hlength
  omega

namespace N64Video

variable {s : N64Video} {config : N64VideoConfig} {ws : List (BitVec 32)}

/-- The commands that were executed, and those that will be. -/
def commands (s : N64Video) : List (List (BitVec 32)) := s.executed ++ s.buffered

/-- A command that has begun has the length its first word says, and only the parallel renderer
    puts commands off. -/
structure Begun (config : N64VideoConfig) (s : N64Video) : Prop where
  cmdLen : ∀ w ∈ s.cmdBuf.head?, s.cmdLen = commandWords w
  buffered : config.parallel = false → s.buffered = []

/-- More words were loaded than the command has. -/
def Overrun (s : N64Video) : Prop := s.cmdBuf ≠ [] ∧ s.cmdLen < s.cmdBuf.length

-- ── The words of a turn ─────────────────────────────────────────────────

theorem foldl_rdpCmd (s : N64Video) (l : List (List (BitVec 32))) :
    (l.foldl (fun t command => t.rdpCmd config command) s).executed = s.executed ++ l := by
  induction l generalizing s with
  | nil => exact (List.append_nil _).symm
  | cons command l ih => rw [List.foldl_cons, ih, rdpCmd, List.append_assoc, List.singleton_append]

@[simp] theorem cmdFlush_executed (s : N64Video) :
    (s.cmdFlush config).executed = s.executed ++ s.buffered := foldl_rdpCmd s s.buffered

@[simp] theorem cmdFlush_buffered (s : N64Video) : (s.cmdFlush config).buffered = [] := rfl

theorem runCommand_eq (hs : s.Begun config) :
    (s.runCommand config).commands = s.commands ++ [s.cmdBuf] ∧
      (config.parallel = false → (s.runCommand config).buffered = []) := by
  rw [runCommand]
  split
  case isTrue hparallel =>
    refine ⟨?_, fun h => absurd hparallel (by simp [h])⟩
    split
    · simp [commands]
    · dsimp only
      split
      · simp [commands]
      · simp [commands]
  case isFalse hparallel =>
    have hnil := hs.buffered (by simpa using hparallel)
    exact ⟨by simp [commands, rdpCmd, hnil], fun _ => hnil⟩

theorem finishCommand_eq (hs : s.Begun config) :
    (s.finishCommand config).cmdBuf = [] ∧
      (s.finishCommand config).commands = s.commands ++ [s.cmdBuf] ∧
      (s.finishCommand config).Begun config := by
  obtain ⟨hcommands, hbuffered⟩ := runCommand_eq hs
  rw [finishCommand]
  split
  · exact ⟨rfl, hcommands, ⟨(fun _ h => nomatch h), hbuffered⟩⟩
  · exact ⟨rfl, hcommands, ⟨(fun _ h => nomatch h), hbuffered⟩⟩

theorem finishIfLoaded_eq (hs : s.Begun config) (hne : s.cmdBuf ≠ [])
    (hle : s.cmdBuf.length ≤ s.cmdLen) :
    (s.finishIfLoaded config).Begun config ∧
      (s.finishIfLoaded config).cmdBuf = (feed commandWords [] s.cmdBuf).1 ∧
      (s.finishIfLoaded config).commands =
        s.commands ++ (feed commandWords [] s.cmdBuf).2 := by
  have hhead := List.head?_eq_some_head hne
  have hlen := hs.cmdLen _ hhead
  rw [finishIfLoaded]
  split
  case isTrue hlast =>
    have hrecord : IsRecord commandWords ([] ++ s.cmdBuf) := by
      rw [List.nil_append, IsRecord, hhead, Option.map_some, hlast, hlen]
    rw [feed_of_isRecord hrecord hne]
    obtain ⟨hnil, hcommands, hbegun⟩ := finishCommand_eq hs
    exact ⟨hbegun, hnil, hcommands⟩
  case isFalse hmore =>
    have hunfinished : Unfinished commandWords ([] ++ s.cmdBuf) := by
      intro w hw
      rw [List.nil_append] at hw ⊢
      rw [← hs.cmdLen w hw]
      omega
    rw [feed_of_unfinished hunfinished]
    exact ⟨hs, rfl, (List.append_nil _).symm⟩

theorem length_loaded (s : N64Video) (ws : List (BitVec 32)) :
    (s.cmdBuf ++ ws.take (s.toload ws)).length = s.cmdBuf.length + s.toload ws := by
  have hle : s.toload ws ≤ ws.length := Nat.min_le_left ..
  rw [List.length_append, List.length_take, Nat.min_eq_left hle]

/-- The words of a turn, of which the first is there already if it begins a command. -/
theorem processTurn_eq (hp : Unfinished commandWords s.cmdBuf) {u : N64Video}
    {first rest : List (BitVec 32)} (hbegin : s.beginCommand ws = (u, rest))
    (hu : u.Begun config) (hbuf : u.cmdBuf = s.cmdBuf ++ first) (hne : u.cmdBuf ≠ [])
    (hroom : u.cmdBuf.length + u.toload rest ≤ u.cmdLen) :
    ∃ t, s.processTurn config ws = some (t, rest.drop (u.toload rest)) ∧ t.Begun config ∧
      t.cmdBuf = (feed commandWords s.cmdBuf (first ++ rest.take (u.toload rest))).1 ∧
      t.commands = u.commands ++
        (feed commandWords s.cmdBuf (first ++ rest.take (u.toload rest))).2 ∧
      (u.cmdBuf.length + u.toload rest = u.cmdLen → t.cmdBuf = []) := by
  let v : N64Video := { u with cmdBuf := u.cmdBuf ++ rest.take (u.toload rest) }
  have hhead : v.cmdBuf.head? = u.cmdBuf.head? := head?_append_of_ne hne _
  have hlength : v.cmdBuf.length = u.cmdBuf.length + u.toload rest := length_loaded u rest
  have hv : v.Begun config := ⟨by rw [hhead]; exact hu.cmdLen, hu.buffered⟩
  have hvne : v.cmdBuf ≠ [] := List.append_ne_nil_of_left_ne_nil hne _
  have hbound : u.cmdLen ≤ 44 := by
    rw [hu.cmdLen _ (List.head?_eq_some_head hne)]
    exact commandWords_le _
  have hload : u.loadWords (rest.take (u.toload rest)) = some v := by
    refine if_pos ?_
    rw [← List.length_append]
    exact hlength.le.trans (hroom.trans hbound)
  have hturn : s.processTurn config ws =
      some (v.finishIfLoaded config, rest.drop (u.toload rest)) := by
    simp only [processTurn, hbegin, hload, Option.map_some]
  obtain ⟨hbegun, hcmdBuf, hcommands⟩ := finishIfLoaded_eq hv hvne (hlength.le.trans hroom)
  have hfeed : feed commandWords [] v.cmdBuf =
      feed commandWords s.cmdBuf (first ++ rest.take (u.toload rest)) := by
    rw [← feed_unfinished hp, ← List.append_assoc, ← hbuf]
  rw [hfeed] at hcmdBuf hcommands
  refine ⟨_, hturn, hbegun, hcmdBuf, hcommands, fun h => ?_⟩
  rw [finishIfLoaded, if_pos (hlength.trans h)]
  exact (finishCommand_eq hv).1

/-- A turn with words that the command has room for, or with those of a new command. -/
theorem processTurn_keeps (hs : s.Begun config) (hp : Unfinished commandWords s.cmdBuf)
    (hws : ws ≠ []) (hfits : ∀ w ∈ s.cmdBuf.head?, s.cmdBuf.length + ws.length ≤ commandWords w) :
    ∃ t taken rest, ws = taken ++ rest ∧ taken ≠ [] ∧ s.processTurn config ws = some (t, rest) ∧
      t.Begun config ∧ t.cmdBuf = (feed commandWords s.cmdBuf taken).1 ∧
      t.commands = s.commands ++ (feed commandWords s.cmdBuf taken).2 ∧
      (rest ≠ [] → t.cmdBuf = []) := by
  by_cases hnew : s.cmdBuf = []
  · obtain ⟨w, rest, rfl⟩ := List.exists_cons_of_ne_nil hws
    have hpos := commandWords_pos w
    let u : N64Video := { s with cmdBuf := [w], cmdId := commandId w, cmdLen := commandWords w }
    have hroom : u.cmdBuf.length + u.toload rest ≤ u.cmdLen := by
      change 1 + min rest.length (commandWords w - 1) ≤ commandWords w
      omega
    have hbegin : s.beginCommand (w :: rest) = (u, rest) := if_pos hnew
    have hu : u.Begun config := ⟨fun a ha => Option.some_inj.1 ha ▸ rfl, hs.buffered⟩
    have hfirst : u.cmdBuf = s.cmdBuf ++ [w] := by
      rw [hnew]
      rfl
    obtain ⟨t, hturn, hbegun, hbuf, hcommands, hlast⟩ :=
      processTurn_eq hp hbegin hu hfirst (List.cons_ne_nil w []) hroom
    refine ⟨t, [w] ++ rest.take (u.toload rest), _, ?_, by simp, hturn, hbegun, hbuf, hcommands,
      fun h => hlast ?_⟩
    · rw [List.append_assoc, List.take_append_drop]
      rfl
    · have hlt : min rest.length (commandWords w - 1) < rest.length := by
        rw [← not_le, ← List.drop_eq_nil_iff]
        exact h
      change 1 + min rest.length (commandWords w - 1) = commandWords w
      omega
  · have hhead := List.head?_eq_some_head hnew
    have hfits := hfits _ hhead
    have hlen := hs.cmdLen _ hhead
    have hpos := List.length_pos_iff.2 hnew
    have hall : s.toload ws = ws.length := by
      rw [toload, hlen]
      omega
    have hbegin : s.beginCommand ws = (s, ws) := by
      cases ws with
      | nil => rfl
      | cons a ws => exact if_neg hnew
    obtain ⟨t, hturn, hbegun, hbuf, hcommands, -⟩ := processTurn_eq hp hbegin hs
      (List.append_nil _).symm hnew (by rw [hall, hlen]; exact hfits)
    rw [hall, List.take_length, List.nil_append] at hbuf hcommands
    rw [hall, List.drop_length] at hturn
    exact ⟨t, ws, [], (List.append_nil _).symm, hws, hturn, hbegun, hbuf, hcommands,
      fun h => absurd rfl h⟩

-- ── Lists that keep to the commands ─────────────────────────────────────

theorem processLoop_keeps {fuel : ℕ} (hs : s.Begun config) (hp : Unfinished commandWords s.cmdBuf)
    (hfits : ∀ w ∈ s.cmdBuf.head?, s.cmdBuf.length + ws.length ≤ commandWords w)
    (hfuel : ws.length ≤ fuel) :
    ∃ t, processLoop config fuel s ws = some t ∧ t.Begun config ∧
      t.cmdBuf = (feed commandWords s.cmdBuf ws).1 ∧
      t.commands = s.commands ++ (feed commandWords s.cmdBuf ws).2 := by
  induction fuel generalizing s ws with
  | zero =>
    rw [List.length_eq_zero_iff.1 (Nat.le_zero.1 hfuel)]
    exact ⟨s, rfl, hs, rfl, (List.append_nil _).symm⟩
  | succ fuel ih =>
    rw [processLoop]
    split
    case isTrue hnil =>
      rw [hnil]
      exact ⟨s, rfl, hs, rfl, (List.append_nil _).symm⟩
    case isFalse hws =>
      obtain ⟨t, taken, rest, rfl, htaken, hturn, hbegun, hbuf, hcommands, hfresh⟩ :=
        processTurn_keeps hs hp hws hfits
      have hunfinished : Unfinished commandWords t.cmdBuf := by
        rw [hbuf]
        exact unfinished_feed commandWords_pos hp taken
      have hroom : ∀ w ∈ t.cmdBuf.head?, t.cmdBuf.length + rest.length ≤ commandWords w := by
        intro w hw
        cases rest with
        | nil => exact (hunfinished w hw).le
        | cons a rest => simp [hfresh (List.cons_ne_nil a rest)] at hw
      have hshorter : rest.length ≤ fuel := by
        have hpos := List.length_pos_iff.2 htaken
        rw [List.length_append] at hfuel
        omega
      obtain ⟨u, hloop, hu, hubuf, hucommands⟩ := ih hbegun hunfinished hroom hshorter
      rw [hturn, Option.bind_some, feed_append, ← hbuf]
      refine ⟨u, hloop, hu, hubuf, hucommands.trans ?_⟩
      rw [hcommands, List.append_assoc]

theorem processList_keeps (hs : s.Begun config) (hp : Unfinished commandWords s.cmdBuf)
    {l : CommandList} (hgoes : l.n64videoWords ≠ [] → s.crashed = false)
    (hfits : ∀ w ∈ s.cmdBuf.head?,
      s.cmdBuf.length + l.n64videoWords.length ≤ commandWords w) :
    ∃ t, s.processList config l = some t ∧ t.Begun config ∧
      t.cmdBuf = (feed commandWords s.cmdBuf l.n64videoWords).1 ∧
      t.commands = s.commands ++ (feed commandWords s.cmdBuf l.n64videoWords).2 := by
  rw [processList]
  split
  case isTrue hstop =>
    have hnil : l.n64videoWords = [] := by
      by_contra hwords
      have hempty := hstop.resolve_left (by simp [hgoes hwords])
      rw [← List.length_eq_zero_iff, CommandList.length_n64videoWords] at hwords
      exact hwords (Nat.sub_eq_zero_of_le hempty)
    rw [hnil]
    exact ⟨_, rfl, ⟨hs.cmdLen, hs.buffered⟩, rfl, (List.append_nil _).symm⟩
  case isFalse =>
    obtain ⟨t, hloop, ht, hbuf, hcommands⟩ := processLoop_keeps hs hp hfits le_rfl
    rw [hloop]
    exact ⟨_, rfl, ⟨ht.cmdLen, ht.buffered⟩, hbuf, hcommands⟩

-- ── A list that goes past the end of a command ──────────────────────────

/-- A turn that loads more words than the command has left: the command is never finished. -/
theorem processTurn_past (hne : s.cmdBuf ≠ []) (hpast : s.cmdLen < s.cmdBuf.length + s.toload ws)
    {r : N64Video × List (BitVec 32)} (hr : s.processTurn config ws = some r) :
    r.1.Overrun ∧ r.1.commands = s.commands := by
  have hbegin : s.beginCommand ws = (s, ws) := by
    cases ws with
    | nil => rfl
    | cons a ws => exact if_neg hne
  have hlength := length_loaded s ws
  simp only [processTurn, hbegin, loadWords] at hr
  split at hr
  case isTrue =>
    rw [Option.map_some, finishIfLoaded, if_neg (by dsimp only; omega), Option.some_inj] at hr
    rw [← hr]
    exact ⟨⟨List.append_ne_nil_of_left_ne_nil hne _, hlength ▸ hpast⟩, rfl⟩
  case isFalse => exact nomatch hr

theorem processLoop_overrun {fuel : ℕ} (hs : s.Overrun) {t : N64Video}
    (ht : processLoop config fuel s ws = some t) : t.Overrun ∧ t.commands = s.commands := by
  induction fuel generalizing s ws with
  | zero => exact Option.some_inj.1 ht ▸ ⟨hs, rfl⟩
  | succ fuel ih =>
    rw [processLoop] at ht
    split at ht
    · exact Option.some_inj.1 ht ▸ ⟨hs, rfl⟩
    · obtain ⟨r, hturn, hrest⟩ := Option.bind_eq_some_iff.1 ht
      obtain ⟨hover, hcommands⟩ := processTurn_past hs.1 (Nat.lt_add_right _ hs.2) hturn
      obtain ⟨hend, hsame⟩ := ih hover hrest
      exact ⟨hend, hsame.trans hcommands⟩

theorem processLists_overrun (hs : s.Overrun) {lists : List CommandList} {t : N64Video}
    (ht : s.processLists config lists = some t) : t.commands = s.commands := by
  induction lists generalizing s with
  | nil => exact Option.some_inj.1 ht ▸ rfl
  | cons l lists ih =>
    obtain ⟨u, hu, hrest⟩ := Option.bind_eq_some_iff.1 ht
    have hover : u.Overrun ∧ u.commands = s.commands := by
      change s.processList config l = some u at hu
      rw [processList] at hu
      split at hu
      · exact Option.some_inj.1 hu ▸ ⟨hs, rfl⟩
      · obtain ⟨v, hloop, rfl⟩ := Option.map_eq_some_iff.1 hu
        have hv := processLoop_overrun hs hloop
        exact hv
    exact (ih hover.1 hrest).trans hover.2

/-- A list that goes past the end of the command: that command is loaded with words of others. -/
theorem processList_past (hs : s.Begun config) (hcrashed : s.crashed = false) {w : BitVec 32}
    (hw : w ∈ s.cmdBuf.head?)
    (htwo : 2 ≤ s.cmdBuf.length) (hshort : s.cmdBuf.length < commandWords w) {l : CommandList}
    (hpast : commandWords w < s.cmdBuf.length + l.n64videoWords.length) {t : N64Video}
    (ht : s.processList config l = some t) : t.Overrun ∧ t.commands = s.commands := by
  have hlen := hs.cmdLen w hw
  have hne : s.cmdBuf ≠ [] := by
    rintro hnil
    exact nomatch (hnil ▸ htwo : 2 ≤ ([] : List (BitVec 32)).length)
  have hwords := CommandList.length_n64videoWords l
  rw [processList] at ht
  rw [if_neg (by simp only [hcrashed, Bool.false_eq_true, false_or]; omega)] at ht
  obtain ⟨v, hloop, rfl⟩ := Option.map_eq_some_iff.1 ht
  obtain ⟨fuel, hfuel⟩ := Nat.exists_eq_succ_of_ne_zero
    (show l.n64videoWords.length ≠ 0 by omega)
  rw [hfuel, processLoop, if_neg (by rw [← List.length_eq_zero_iff]; omega)] at hloop
  obtain ⟨r, hturn, hrest⟩ := Option.bind_eq_some_iff.1 hloop
  obtain ⟨hover, hcommands⟩ := processTurn_past hne (by rw [toload, hlen]; omega) hturn
  obtain ⟨hend, hsame⟩ := processLoop_overrun hover hrest
  exact ⟨hend, hsame.trans hcommands⟩

/-- Behind a crash no list is taken. -/
theorem processLists_crashed (hs : s.crashed = true) {lists : List CommandList} {t : N64Video}
    (ht : s.processLists config lists = some t) :
    t.commands = s.commands ∧ t.cmdBuf = s.cmdBuf := by
  induction lists generalizing s with
  | nil => exact Option.some_inj.1 ht ▸ ⟨rfl, rfl⟩
  | cons l lists ih =>
    obtain ⟨u, hu, hrest⟩ := Option.bind_eq_some_iff.1 ht
    have hu : some { s with regs := l.regs } = some u := (if_pos (.inl hs)).symm.trans hu
    obtain rfl := Option.some_inj.1 hu
    exact ih (s := { s with regs := l.regs }) hs hrest

theorem processLists_iff (hs : s.Begun config) (hp : Unfinished commandWords s.cmdBuf)
    (heven : 2 ∣ s.cmdBuf.length) (lists : List CommandList) :
    (∃ t, s.processLists config lists = some t ∧
      t.commands = s.commands ++
        (feed commandWords s.cmdBuf (lists.flatMap CommandList.n64videoWords)).2 ∧
      t.cmdBuf = (feed commandWords s.cmdBuf (lists.flatMap CommandList.n64videoWords)).1) ↔
      KeepsToCommands s.cmdBuf (lists.map CommandList.n64videoWords) ∧ s.GoesOn config lists := by
  induction lists generalizing s with
  | nil => exact iff_of_true ⟨s, rfl, (List.append_nil _).symm, rfl⟩ ⟨trivial, trivial⟩
  | cons l lists ih =>
    rw [List.map_cons, KeepsToCommands, GoesOn, List.flatMap_cons]
    by_cases hlost : l.n64videoWords ≠ [] ∧ s.crashed = true
    -- no word of the list is taken, and all of them are in the stream
    · obtain ⟨hwords, hcrashed⟩ := hlost
      refine iff_of_false ?_ fun h => absurd (h.2.1 hwords) (by simp [hcrashed])
      rintro ⟨t, ht, hcommands, hbuf⟩
      obtain ⟨hsame, hkept⟩ := processLists_crashed hcrashed ht
      have hall := @flatten_feed _ commandWords s.cmdBuf
        (l.n64videoWords ++ lists.flatMap CommandList.n64videoWords)
      rw [hsame, List.self_eq_append_right] at hcommands
      rw [hcommands, ← hbuf, hkept, List.flatten_nil, List.nil_append, List.self_eq_append_right,
        List.append_eq_nil_iff] at hall
      exact hwords hall.1
    have hgoes : l.n64videoWords ≠ [] → s.crashed = false := fun hwords =>
      Bool.eq_false_of_not_eq_true fun hcrashed => hlost ⟨hwords, hcrashed⟩
    rw [feed_append]
    by_cases hfits : ∀ w ∈ s.cmdBuf.head?,
        s.cmdBuf.length + l.n64videoWords.length ≤ commandWords w
    · obtain ⟨u, hlist, hu, hbuf, hcommands⟩ := processList_keeps hs hp hgoes hfits
      have hunfinished : Unfinished commandWords u.cmdBuf :=
        hbuf ▸ unfinished_feed commandWords_pos hp _
      have hrest := ih hu hunfinished (hbuf ▸ even_feed heven l.even_n64videoWords)
      have hrun : s.processLists config (l :: lists) = u.processLists config lists := by
        rw [processLists, List.foldlM_cons, hlist]
        rfl
      simp only [hlist, Option.some_inj, forall_eq']
      rw [hrun, ← hbuf, and_iff_right hfits, and_iff_right hgoes, ← hrest, hcommands]
      simp only [List.append_assoc]
    · refine iff_of_false ?_ fun h => hfits h.1.1
      simp only [not_forall, Nat.not_le] at hfits
      obtain ⟨w, hw, hpast⟩ := hfits
      have hshort := hp w hw
      have htwo : 2 ≤ s.cmdBuf.length := by
        have hpos : 0 < s.cmdBuf.length := by
          rw [List.length_pos_iff]
          rintro hnil
          rw [hnil] at hw
          exact nomatch hw
        omega
      rintro ⟨t, ht, hcommands, -⟩
      obtain ⟨u, hu, hrest⟩ := Option.bind_eq_some_iff.1 ht
      have hcrashed : s.crashed = false := by
        refine hgoes fun hnil => ?_
        rw [hnil, List.length_nil] at hpast
        omega
      obtain ⟨hover, hsame⟩ := processList_past hs hcrashed hw htwo hshort hpast hu
      rw [processLists_overrun hover hrest, hsame, List.self_eq_append_right,
        List.append_eq_nil_iff] at hcommands
      exact feed_ne_nil commandWords_pos hp hw hpast.le hcommands.1

end N64Video

/-- **One stream, or not**: angrylion has taken the commands that all the words say, and keeps what
    is left of them, if and only if no list that begins inside a command goes past its end and no
    list with words comes when the pipeline has crashed. -/
theorem processList_iff (config : N64VideoConfig) (zbufferAddress : BitVec 32) (regs : DpRegisters)
    (lists : List CommandList) :
    (∃ t, (N64Video.initial zbufferAddress regs).processLists config lists = some t ∧
      t.commands = (feed commandWords [] (lists.flatMap CommandList.n64videoWords)).2 ∧
      t.cmdBuf = (feed commandWords [] (lists.flatMap CommandList.n64videoWords)).1) ↔
      KeepsToCommands [] (lists.map CommandList.n64videoWords) ∧
        (N64Video.initial zbufferAddress regs).GoesOn config lists := by
  have hbegun : (N64Video.initial zbufferAddress regs).Begun config :=
    ⟨(fun _ h => nomatch h), fun _ => rfl⟩
  exact N64Video.processLists_iff hbegun unfinished_nil (Nat.dvd_zero 2) lists

end Mupen64plus
