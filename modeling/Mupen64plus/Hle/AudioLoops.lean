import Mupen64plus.Hle.HalfWords
import Mupen64plus.Lib.Flags
import Mupen64plus.Lib.Loops

/-!
# The loops of the audio lists

The list of commands is read two words at a time up to an address, and the loops of the commands
count a byte or sample count down to zero. Both tests are for equality. The bodies of the loops do
not touch the counters, so they are parameters here.

## Main definitions

- `alistProcess` — the loop over the commands
- `alistAdpcm`, `alistPolef`, … — the loops of the commands
- `CountedCommand` — the commands that run them, with the counts they pass
- `CountedCommand.claimed` — the turns for the count that the guest gave

## Main results

- `alistStops_iff`, `CountedCommand.endsAfter_iff`
- `audio_loops_end_iff`
-/

namespace Mupen64plus

-- ════════════════════
-- The list
-- ════════════════════

/-- `acmd_callback_t`. -/
abbrev AcmdCallback := HleMemory → BitVec 32 → BitVec 32 → HleMemory

/-- One turn of `alist_process`, at an offset from the start of RDRAM. -/
def alistCommand (abi : List AcmdCallback) (p : ℕ × HleMemory) : ℕ × HleMemory :=
  let w1 := p.2.dram.u32 p.1
  let w2 := p.2.dram.u32 (p.1 + 4)
  let acmd := (w1 >>> 24 &&& 0x7f#32).toNat
  (p.1 + 8, match abi[acmd]? with
    | some callback => callback p.2 w1 w2
    | none => p.2)

/-- `TASK_DATA_SIZE`. -/
def taskDataSize (hle : HleMemory) : ℕ := (hle.dmemU32 0xff4).toNat

/-- `alist_process`, with at most `fuel` commands. -/
def alistProcess (abi : List AcmdCallback) (hle : HleMemory) (fuel : ℕ) : Option HleMemory :=
  let alist := dramAddress (hle.dmemU32 0xff0)
  let alistEnd := alist + 4 * (taskDataSize hle >>> 2)
  (whileLoop (fun p => p.1 ≠ alistEnd) (alistCommand abi) fuel (alist, hle)).map Prod.snd

/-- The list ends within the commands of its size. -/
def AlistStops (abi : List AcmdCallback) (hle : HleMemory) : Prop :=
  ∃ n ≤ (taskDataSize hle + 7) / 8, (alistProcess abi hle n).isSome

-- ════════════════════
-- The loops
-- ════════════════════

section

variable {σ : Type} (body : σ → σ)

def alistAdpcm (count : BitVec 16) : ℕ → σ → Option σ := downTo0 body 32 count

def alistPolef (count : BitVec 16) : ℕ → σ → Option σ :=
  doDownTo0 body 16 ((align (count.setWidth 32) 16).setWidth 16)

/-- `alist_iirf`, whose `count > 0` is unsigned. -/
def alistIirf (count : BitVec 16) : ℕ → σ → Option σ :=
  doDownTo0 body 16 ((align (count.setWidth 32) 16).setWidth 16)

def alistEnvmixNead (count : BitVec 32) : ℕ → σ → Option σ := downTo0 body 8 (align count 8)

/-- `alist_mix`, `alist_add` and `alist_multQ44`. -/
def alistMix (count : BitVec 16) : ℕ → σ → Option σ := downTo0 body 1 (count >>> 1)

def alistOverload (count : BitVec 16) : ℕ → σ → Option σ := downTo0 body 1 count

/-- The inner loop of `alist_copy_blocks`. -/
def copyBlock (bytesLeft : ℤ) (s : σ) : σ :=
  if 0 < bytesLeft - 0x20 then copyBlock (bytesLeft - 0x20) (body s) else body s
termination_by bytesLeft.toNat

/-- The outer loop of `alist_copy_blocks`. -/
def copyBlocks (blockSize blockLeft : ℤ) (s : σ) : σ :=
  if 0 < blockLeft - 1 then copyBlocks blockSize (blockLeft - 1) (copyBlock body blockSize s)
  else copyBlock body blockSize s
termination_by blockLeft.toNat

end

-- ════════════════════
-- The commands
-- ════════════════════

/-- `NAUDIO_COUNT`. -/
def naudioCount : BitVec 16 := 0x170

/-- The commands with a counted loop, with what the guest gives them: the count of `SETBUFF`, or
the words of the command. -/
inductive CountedCommand
  | audioAdpcm (count : BitVec 16)
  | audioMixer (count : BitVec 16)
  | audioPolef (count : BitVec 16)
  | neadAdpcm (count : BitVec 16)
  | neadMixer (w1 : BitVec 32)
  | neadEnvmixer (w1 : BitVec 32)
  | neadAddmixer (w1 : BitVec 32)
  | neadHilogain (w1 : BitVec 32)
  | neadCopyBlocks (w1 w2 : BitVec 32)
  | neadPolef (count : BitVec 16)
  | naudioAdpcm (w2 : BitVec 32)
  | naudioPolef
  | naudioIirf
  | naudioMixer
  | naudioOverload

namespace CountedCommand

/-- The bits of a word from `lo` on. -/
def field (w : BitVec 32) (lo : ℕ) (mask : BitVec 32) : BitVec 16 := (w >>> lo &&& mask).setWidth 16

/-- The loop that a command runs. -/
def run {σ : Type} (body : σ → σ) : CountedCommand → ℕ → σ → Option σ
  | audioAdpcm count => alistAdpcm body ((align (count.setWidth 32) 32).setWidth 16)
  | audioMixer count => fun fuel s =>
    if count = 0 then some s
    else alistMix body ((align (count.setWidth 32) 32).setWidth 16) fuel s
  | audioPolef count => fun fuel s =>
    if count = 0 then some s
    else alistPolef body ((align (count.setWidth 32) 16).setWidth 16) fuel s
  | neadAdpcm count => alistAdpcm body ((count.setWidth 32 + 0x1f &&& ~~~0x1f#32).setWidth 16)
  | neadMixer w1 => alistMix body (field w1 12 0xff0#32)
  | neadEnvmixer w1 => alistEnvmixNead body ((w1 >>> 8 &&& 0xff#32).setWidth 8 |>.setWidth 32)
  | neadAddmixer w1 => alistMix body (field w1 12 0xff0#32)
  | neadHilogain w1 => alistMix body (field w1 0 0xfff#32)
  | neadCopyBlocks w1 w2 => fun _ s =>
    some (copyBlocks body (w2.setWidth 16).toNat ((w1 >>> 16).setWidth 8).toNat s)
  | neadPolef count => fun fuel s => if count = 0 then some s else alistPolef body count fuel s
  | naudioAdpcm w2 =>
    alistAdpcm body (((field w2 16 0xfff#32).setWidth 32 + 0x1f &&& ~~~0x1f#32).setWidth 16)
  | naudioPolef => alistPolef body naudioCount
  | naudioIirf => alistIirf body naudioCount
  | naudioMixer => alistMix body naudioCount
  | naudioOverload => alistOverload body naudioCount

/-- The turns for the count given: a count of bytes over the bytes of a block, rounded up. A mixer
makes one turn for each sample of the bytes, which `audioMixer` rounds up to blocks of 32. -/
def claimed : CountedCommand → ℕ
  | audioAdpcm count => (count.toNat + 31) / 32
  | audioMixer count => (count.toNat + 31) / 32 * 16
  | audioPolef count => (count.toNat + 15) / 16
  | neadAdpcm count => (count.toNat + 31) / 32
  | neadMixer w1 => (field w1 12 0xff0#32).toNat / 2
  | neadEnvmixer w1 => ((w1 >>> 8 &&& 0xff#32).toNat + 7) / 8
  | neadAddmixer w1 => (field w1 12 0xff0#32).toNat / 2
  | neadHilogain w1 => (field w1 0 0xfff#32).toNat / 2
  | neadCopyBlocks w1 w2 => ((w1 >>> 16).setWidth 8).toNat * (((w2.setWidth 16).toNat + 31) / 32)
  | neadPolef count => (count.toNat + 15) / 16
  | naudioAdpcm w2 => ((field w2 16 0xfff#32).toNat + 31) / 32
  | naudioPolef => naudioCount.toNat / 16
  | naudioIirf => naudioCount.toNat / 16
  | naudioMixer => naudioCount.toNat / 2
  | naudioOverload => naudioCount.toNat

/-- The loop of a command ends, whatever its body does, after `n` turns. -/
def EndsAfter (cmd : CountedCommand) (n : ℕ) : Prop :=
  ∀ (σ : Type) (body : σ → σ), ∃ fuel, ∀ s, run body cmd fuel s = some (body^[n] s)

/-- The counts that do not wrap to 0 when they are rounded up to 32, and the block copies of one
block and one byte at least. -/
def Rounds : CountedCommand → Prop
  | audioAdpcm count => count.toNat ≤ 0xffe0
  | audioMixer count => count.toNat ≤ 0xffe0
  | neadAdpcm count => count.toNat ≤ 0xffe0
  | neadCopyBlocks w1 w2 => (w1 >>> 16).setWidth 8 ≠ 0#8 ∧ w2.setWidth 16 ≠ 0#16
  | _ => True

end CountedCommand

-- ════════════════════
-- The list stops
-- ════════════════════

section

variable {abi : List AcmdCallback} {hle : HleMemory}

theorem iterate_alistCommand (n : ℕ) (p : ℕ × HleMemory) :
    ((alistCommand abi)^[n] p).1 = p.1 + 8 * n := by
  induction n generalizing p with
  | zero => rfl
  | succ n ih =>
    rw [Function.iterate_succ_apply, ih]
    change p.1 + 8 + 8 * n = p.1 + 8 * (n + 1)
    omega

/-- The end is met after half of the words, if these are even in number. -/
theorem alistProcess_isSome_iff {fuel : ℕ} : (alistProcess abi hle fuel).isSome ↔
    2 ∣ taskDataSize hle / 4 ∧ taskDataSize hle / 8 ≤ fuel := by
  unfold alistProcess
  rw [Nat.shiftRight_eq_div_pow, Option.isSome_map]
  rcases Nat.even_or_odd' (taskDataSize hle / 4) with ⟨n, hn | hn⟩
  · rw [whileLoop_eq (n := n)]
    · split
      · exact iff_of_true rfl ⟨⟨n, hn⟩, by omega⟩
      · exact iff_of_false (by simp) (by omega)
    · intro i hi
      rw [decide_eq_true_eq, iterate_alistCommand]
      omega
    · rw [decide_eq_true_eq, iterate_alistCommand]
      omega
  · rw [whileLoop_eq_none]
    · exact iff_of_false (by simp) (by omega)
    · intro i
      rw [decide_eq_true_eq, iterate_alistCommand]
      omega

theorem alistStops_iff : AlistStops abi hle ↔ 2 ∣ taskDataSize hle / 4 := by
  constructor
  · rintro ⟨n, -, hn⟩
    exact (alistProcess_isSome_iff.mp hn).1
  · intro h
    exact ⟨taskDataSize hle / 8, by omega, alistProcess_isSome_iff.mpr ⟨h, le_rfl⟩⟩

end

-- ════════════════════
-- The turns of a loop
-- ════════════════════

section

variable {σ : Type} {body : σ → σ} {count : BitVec 16}

theorem toNat_align_32 : (align (count.setWidth 32) 32).toNat = 32 * ((count.toNat + 31) / 32) := by
  have hlt := count.isLt
  have hwidth : (count.setWidth 32).toNat = count.toNat := BitVec.toNat_setWidth_of_le (by decide)
  rw [toNat_align 5 (by decide) rfl rfl (by omega), hwidth]
  rfl

theorem toNat_align_16 : (align (count.setWidth 32) 16).toNat = 16 * ((count.toNat + 15) / 16) := by
  have hlt := count.isLt
  have hwidth : (count.setWidth 32).toNat = count.toNat := BitVec.toNat_setWidth_of_le (by decide)
  rw [toNat_align 4 (by decide) rfl rfl (by omega), hwidth]
  rfl

/-- A loop that computes `f` once it has the fuel that it needs, and nothing before. -/
def Computes (loop : ℕ → σ → Option σ) (f : σ → σ) : Prop :=
  ∃ need, ∀ fuel s, loop fuel s = if need ≤ fuel then some (f s) else none

theorem Computes.of_all {loop : ℕ → σ → Option σ} {f : σ → σ}
    (h : ∀ fuel s, loop fuel s = some (f s)) : Computes loop f :=
  ⟨0, fun fuel s => (h fuel s).trans (if_pos (Nat.zero_le fuel)).symm⟩

/-- A command without bytes makes no turn. -/
theorem Computes.skip {c : Prop} [Decidable c] {loop : ℕ → σ → Option σ} {n : ℕ}
    (hskip : c → n = 0) (hloop : ¬c → Computes loop body^[n]) :
    Computes (fun fuel s => if c then some s else loop fuel s) body^[n] := by
  by_cases hc : c
  · refine .of_all fun fuel s => ?_
    rw [if_pos hc, hskip hc, Function.iterate_zero_apply]
  · simp only [if_neg hc]
    exact hloop hc

theorem alistAdpcm_ends {n : ℕ} (h : count.toNat = n * 32) :
    Computes (alistAdpcm body count) body^[n] := ⟨n, downTo0_eq h (by decide)⟩

/-- The count of 0 that is left of a count over 0xfff0 makes 0x1000 turns. -/
theorem alistPolef_ends {n : ℕ} (hpos : 0 < n) (hle : n ≤ 4096)
    (h : (count.toNat + 15) / 16 % 4096 = n % 4096) :
    Computes (alistPolef body count) body^[n] := by
  refine ⟨n - 1, fun fuel s => (doDownTo0_eq ?_ (by decide) hpos ?_ fuel s).trans ?_⟩
  · rw [BitVec.toNat_setWidth, toNat_align_16]
    change 16 * ((count.toNat + 15) / 16) % 65536 = n * 16 % 65536
    omega
  · change n * 16 ≤ 65536
    omega
  · simp only [Nat.sub_le_iff_le_add]

theorem alistMix_ends : Computes (alistMix body count) body^[count.toNat / 2] := by
  refine ⟨count.toNat / 2, downTo0_eq ?_ (by decide)⟩
  rw [BitVec.toNat_ushiftRight, Nat.shiftRight_eq_div_pow]
  exact (Nat.mul_one _).symm

theorem copyBlock_eq (bytesLeft : ℤ) (s : σ) :
    copyBlock body bytesLeft s = body^[max 1 ((bytesLeft.toNat + 31) / 32)] s := by
  fun_induction copyBlock with
  | case1 bytesLeft s h ih =>
    rw [ih, ← Function.iterate_succ_apply]
    congr 1
    omega
  | case2 bytesLeft s h =>
    rw [show max 1 ((bytesLeft.toNat + 31) / 32) = 1 by omega, Function.iterate_one]

theorem copyBlocks_eq (blockSize blockLeft : ℤ) (s : σ) : copyBlocks body blockSize blockLeft s =
    body^[max 1 blockLeft.toNat * max 1 ((blockSize.toNat + 31) / 32)] s := by
  fun_induction copyBlocks with
  | case1 blockLeft s h ih =>
    rw [ih, copyBlock_eq, ← Function.iterate_add_apply, ← Nat.succ_mul]
    congr 2
    omega
  | case2 blockLeft s h =>
    rw [copyBlock_eq, show max 1 blockLeft.toNat = 1 by omega, Nat.one_mul]

end

namespace CountedCommand

/-- The turns of the loop of a command. -/
def turns : CountedCommand → ℕ
  | audioAdpcm count => (count.toNat + 31) / 32 % 2048
  | audioMixer count => (count.toNat + 31) / 32 % 2048 * 16
  | audioPolef count => (count.toNat + 15) / 16
  | neadAdpcm count => (count.toNat + 31) / 32 % 2048
  | neadMixer w1 => (field w1 12 0xff0#32).toNat / 2
  | neadEnvmixer w1 => ((w1 >>> 8 &&& 0xff#32).toNat + 7) / 8
  | neadAddmixer w1 => (field w1 12 0xff0#32).toNat / 2
  | neadHilogain w1 => (field w1 0 0xfff#32).toNat / 2
  | neadCopyBlocks w1 w2 =>
    max 1 ((w1 >>> 16).setWidth 8).toNat * max 1 (((w2.setWidth 16).toNat + 31) / 32)
  | neadPolef count => (count.toNat + 15) / 16
  | naudioAdpcm w2 => ((field w2 16 0xfff#32).toNat + 31) / 32
  | naudioPolef => 23
  | naudioIirf => 23
  | naudioMixer => 184
  | naudioOverload => 368

theorem field_fff_le (w : BitVec 32) (lo : ℕ) : (field w lo 0xfff#32).toNat ≤ 0xfff := by
  have hlow := Flags.toNat_and_low (x := w >>> lo) (m := 0xfff#32) 12 rfl
  rw [field, BitVec.toNat_setWidth]
  omega

theorem toNat_ne_zero {count : BitVec 16} (h : count ≠ 0) : count.toNat ≠ 0 := fun hzero =>
  h (BitVec.eq_of_toNat_eq hzero)

/-- The loop of a command makes its turns. -/
theorem computes_turns {σ : Type} (body : σ → σ) (cmd : CountedCommand) :
    Computes (run body cmd) body^[cmd.turns] := by
  cases cmd with
  | audioAdpcm count =>
    refine alistAdpcm_ends ?_
    rw [BitVec.toNat_setWidth, toNat_align_32, turns]
    omega
  | audioMixer count =>
    refine Computes.skip (fun h => h ▸ rfl) fun _ => ?_
    have hcount : ((align (count.setWidth 32) 32).setWidth 16).toNat / 2 =
        (audioMixer count).turns := by
      rw [BitVec.toNat_setWidth, toNat_align_32, turns]
      omega
    exact hcount ▸ alistMix_ends
  | audioPolef count =>
    refine Computes.skip (fun h => h ▸ rfl) fun hcount => ?_
    have hlt := count.isLt
    have hne := toNat_ne_zero hcount
    refine alistPolef_ends ?_ ?_ ?_
    · rw [turns]
      omega
    · rw [turns]
      omega
    · rw [BitVec.toNat_setWidth, toNat_align_16, turns]
      omega
  | neadAdpcm count =>
    refine alistAdpcm_ends ?_
    change ((align (count.setWidth 32) 32).setWidth 16).toNat = _
    rw [BitVec.toNat_setWidth, toNat_align_32, turns]
    omega
  | neadMixer w1 => exact alistMix_ends
  | neadEnvmixer w1 =>
    have hlow := Flags.toNat_and_low (x := w1 >>> 8) (m := 0xff#32) 8 rfl
    have hwidth : (((w1 >>> 8 &&& 0xff#32).setWidth 8).setWidth 32).toNat =
        (w1 >>> 8 &&& 0xff#32).toNat := by
      rw [BitVec.toNat_setWidth, BitVec.toNat_setWidth]
      omega
    refine ⟨((w1 >>> 8 &&& 0xff#32).toNat + 7) / 8, downTo0_eq ?_ (by decide)⟩
    rw [toNat_align 3 (by decide) rfl rfl (by omega), hwidth]
    exact Nat.mul_comm _ _
  | neadAddmixer w1 => exact alistMix_ends
  | neadHilogain w1 => exact alistMix_ends
  | neadCopyBlocks w1 w2 => exact .of_all fun _ s => congrArg some (copyBlocks_eq _ _ s)
  | neadPolef count =>
    refine Computes.skip (fun h => h ▸ rfl) fun hcount => ?_
    have hlt := count.isLt
    have hne := toNat_ne_zero hcount
    refine alistPolef_ends ?_ ?_ rfl
    · rw [turns]
      omega
    · rw [turns]
      omega
  | naudioAdpcm w2 =>
    refine alistAdpcm_ends ?_
    change ((align ((field w2 16 0xfff#32).setWidth 32) 32).setWidth 16).toNat = _
    rw [BitVec.toNat_setWidth, toNat_align_32, turns]
    have hfield := field_fff_le w2 16
    omega
  | naudioPolef => exact alistPolef_ends (by decide) (by decide) (by decide)
  | naudioIirf => exact alistPolef_ends (by decide) (by decide) (by decide)
  | naudioMixer => exact alistMix_ends
  | naudioOverload => exact ⟨368, downTo0_eq rfl (by decide)⟩

theorem iterate_succ_zero (n : ℕ) : Nat.succ^[n] 0 = n := by
  induction n with
  | zero => rfl
  | succ n ih => rw [Function.iterate_succ_apply', ih]

/-- No other number of turns is made. -/
theorem endsAfter_iff {cmd : CountedCommand} {n : ℕ} : cmd.EndsAfter n ↔ n = cmd.turns := by
  constructor
  · intro h
    obtain ⟨fuel, hfuel⟩ := h ℕ Nat.succ
    obtain ⟨need, hneed⟩ := computes_turns Nat.succ cmd
    have hrun := (hfuel 0).symm.trans (hneed fuel 0)
    split at hrun
    · have hcount := Option.some_inj.mp hrun
      rwa [iterate_succ_zero, iterate_succ_zero] at hcount
    · exact nomatch hrun
  · rintro rfl σ body
    obtain ⟨need, hneed⟩ := computes_turns body cmd
    exact ⟨need, fun s => (hneed need s).trans (if_pos le_rfl)⟩

theorem claimed_eq_turns_iff {cmd : CountedCommand} : cmd.claimed = cmd.turns ↔ cmd.Rounds := by
  cases cmd with
  | audioAdpcm count =>
    have hlt := count.isLt
    simp only [claimed, turns, Rounds]
    omega
  | audioMixer count =>
    have hlt := count.isLt
    simp only [claimed, turns, Rounds]
    omega
  | neadAdpcm count =>
    have hlt := count.isLt
    simp only [claimed, turns, Rounds]
    omega
  | neadCopyBlocks w1 w2 =>
    -- the copies are made by `do` loops, which turn at least once
    have hblocks : (w1 >>> 16).setWidth 8 = 0#8 ↔ ((w1 >>> 16).setWidth 8).toNat = 0 :=
      BitVec.toNat_inj.symm
    have hsize : w2.setWidth 16 = 0#16 ↔ ((w2.setWidth 16).toNat + 31) / 32 = 0 := by
      rw [← BitVec.toNat_inj, BitVec.toNat_ofNat]
      omega
    simp only [claimed, turns, Rounds, ne_eq, hblocks, hsize]
    generalize ((w1 >>> 16).setWidth 8).toNat = blocks
    generalize ((w2.setWidth 16).toNat + 31) / 32 = pieces
    rcases Nat.eq_zero_or_pos blocks with rfl | hb
    · simp only [zero_mul, not_true, false_and, iff_false]
      exact (Nat.mul_pos (by omega) (by omega)).ne
    rcases Nat.eq_zero_or_pos pieces with rfl | hp
    · simp only [mul_zero, not_true, and_false, iff_false]
      exact (Nat.mul_pos (by omega) (by omega)).ne
    rw [max_eq_right hb, max_eq_right hp]
    exact iff_of_true rfl ⟨hb.ne', hp.ne'⟩
  | _ => exact iff_of_true rfl trivial

end CountedCommand

/-- The list ends where its size holds an even number of words, and the loop of a command makes the
turns of its count where that does not wrap. -/
theorem audio_loops_end_iff (abi : List AcmdCallback) (hle : HleMemory) (cmd : CountedCommand) :
    (AlistStops abi hle ↔ 2 ∣ taskDataSize hle / 4) ∧
      (cmd.EndsAfter cmd.claimed ↔ cmd.Rounds) :=
  ⟨alistStops_iff, CountedCommand.endsAfter_iff.trans CountedCommand.claimed_eq_turns_iff⟩

/-- A list whose size is one word. -/
def oneWordList : HleMemory where
  dram := fun _ => 0
  dmem := fun b => if b = 0xff4 then 4 else 0
  imem := fun _ => 0

/-- The list of one word is run past its end, and 0xffff bytes of samples are not decoded at all. -/
theorem loops_not_end : ¬AlistStops [] oneWordList ∧
    ¬(CountedCommand.audioAdpcm 0xffff).EndsAfter (CountedCommand.audioAdpcm 0xffff).claimed :=
  ⟨fun h => absurd (alistStops_iff.mp h) (by decide),
    fun h => absurd (CountedCommand.endsAfter_iff.mp h) (by decide)⟩

end Mupen64plus
