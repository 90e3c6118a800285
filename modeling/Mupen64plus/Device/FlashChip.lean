import Mupen64plus.Lib.Flags
import Mupen64plus.Lib.Runs
import Mupen64plus.Device.Cart

/-!
# Flash memory

The commands of `flashram.c` and the transfers of its page buffer and its array, against a chip of
pages. In any sequence of them the storage holds what the chip holds, as long as no page behind the
last is programmed or erased.

## Main definitions

- `FlashChip` — the chip: its mode, its page buffer, and the pages of its array
- `FlashStep`, `FlashRun` — the steps, of the storage and of the chip side by side
- `Represents` — the storage holds what the chip holds
- `TouchesInside`, `PageExists` — what a command writes, and the condition on its page

## Main results

- `represents_command` — a command does to the storage what it does to the chip
- `flashRun_iff` — runs stay inside the storage and agree with the chip exactly if every page that
  is programmed or erased exists
-/

namespace Mupen64plus

open Device

-- ════════════════════════════════════════════════════════════════════════
-- A chip of pages
-- ════════════════════════════════════════════════════════════════════════

/-- `FLASHRAM_SIZE`. -/
def flashramSize : ℕ := 0x20000

/-- The pages of 128 bytes. -/
def flashPages : ℕ := 1024

/-- The commands, by their first byte. -/
inductive FlashCommand where
  | chipErase
  | sectorErase (page : ℕ)
  | execute
  | program (page : ℕ)
  | pageProgram | status | siliconId | readArray | unknown
  deriving DecidableEq, Repr

def FlashCommand.decode (command : BitVec 32) : FlashCommand :=
  match (command >>> 24).toNat with
  | 0x3c => .chipErase
  | 0x4b => .sectorErase (command.toNat % 2 ^ 16)
  | 0x78 => .execute
  | 0xa5 => .program (command.toNat % 2 ^ 16)
  | 0xb4 => .pageProgram
  | 0xd2 => .status
  | 0xe1 => .siliconId
  | 0xf0 => .readArray
  | _ => .unknown

/-- A flash chip; `selected` is a page of the sector that is to be erased. -/
structure FlashChip where
  mode : FlashramMode
  selected : ℕ
  buffer : Fin 128 → BitVec 8
  array : ℕ → Fin 128 → BitVec 8

namespace FlashChip

/-- The array with a page programmed. -/
def programmed (c : FlashChip) (page : ℕ) : ℕ → Fin 128 → BitVec 8 :=
  Function.update c.array page c.buffer

/-- The array with the 128 pages of a sector erased. -/
def erased (c : FlashChip) (page : ℕ) : ℕ → Fin 128 → BitVec 8 := fun p =>
  if p / 128 = page / 128 then fun _ => 0xff else c.array p

/-- What a command does to the chip. An erasure starts in the mode that selects it. -/
def command (c : FlashChip) : FlashCommand → FlashChip
  | .chipErase => { c with mode := .chipErase }
  | .sectorErase page => { c with mode := .sectorErase, selected := page }
  | .execute =>
    match c.mode with
    | .sectorErase => { c with array := c.erased c.selected, mode := .status }
    | .chipErase => { c with array := fun _ _ => 0xff, mode := .status }
    | _ => { c with mode := .status }
  | .program page => { c with array := c.programmed page, mode := .status }
  | .pageProgram => { c with mode := .pageProgram }
  | .status => { c with mode := .status }
  | .siliconId => { c with mode := .readSiliconId }
  | .readArray => { c with mode := .readArray }
  | .unknown => c

@[simp] theorem programmed_self (c : FlashChip) (page : ℕ) : c.programmed page page = c.buffer :=
  Function.update_self ..

theorem programmed_of_ne (c : FlashChip) {page p : ℕ} (h : p ≠ page) :
    c.programmed page p = c.array p := Function.update_of_ne h ..

theorem erased_of_eq (c : FlashChip) {page p : ℕ} (h : p / 128 = page / 128) (j : Fin 128) :
    c.erased page p j = 0xff := by
  unfold erased
  rw [if_pos h]

theorem erased_of_ne (c : FlashChip) {page p : ℕ} (h : p / 128 ≠ page / 128) :
    c.erased page p = c.array p := by
  unfold erased
  rw [if_neg h]

end FlashChip

-- ════════════════════════════════════════════════════════════════════════
-- What the storage holds
-- ════════════════════════════════════════════════════════════════════════

/-- The storage holds what the chip holds. -/
structure Represents (f : Flashram) (c : FlashChip) : Prop where
  mode : f.mode = c.mode
  selected : f.erasePage.toNat = c.selected
  buffer : f.pageBuf = c.buffer
  array : ∀ p < flashPages, ∀ j : Fin 128, f.mem.byte (128 * p + j) = c.array p j

/-- The chip a storage holds. -/
def Flashram.chip (f : Flashram) : FlashChip where
  mode := f.mode
  selected := f.erasePage.toNat
  buffer := f.pageBuf
  array := fun p j => f.mem.byte (128 * p + j)

theorem represents_chip (f : Flashram) : Represents f f.chip := ⟨rfl, rfl, rfl, fun _ _ _ => rfl⟩

/-- The bytes that a command writes, by their start and their number. -/
def flashTouched (f : Flashram) : FlashCommand → Option (ℕ × ℕ)
  | .execute =>
    match f.mode with
    | .sectorErase => some ((f.erasePage &&& 0xff80).toNat * 128, 128 * 128)
    | .chipErase => some (0, flashramSize)
    | _ => none
  | .program page => some (page * 128, 128)
  | _ => none

/-- A command writes only bytes of the storage. -/
def TouchesInside (f : Flashram) (command : FlashCommand) : Prop :=
  ∀ r ∈ flashTouched f command, r.1 + r.2 ≤ flashramSize

/-- The page that a command programs or erases exists. -/
def PageExists (f : Flashram) : FlashCommand → Prop
  | .execute => f.mode = .sectorErase → f.erasePage.toNat < flashPages
  | .program page => page < flashPages
  | _ => True

theorem sectorStart_toNat (page : BitVec 16) :
    (page &&& 0xff80).toNat = 128 * (page.toNat / 128) := by
  have hpage := page.isLt
  have hfield := Flags.and_field page.toNat 7 9
  rw [BitVec.toNat_and]
  change page.toNat &&& 0xff80 = _
  rw [show 0xff80 = 2 ^ 7 * (2 ^ 9 - 1) from rfl, hfield]
  omega

theorem touchesInside_iff (f : Flashram) (command : FlashCommand) :
    TouchesInside f command ↔ PageExists f command := by
  have hsector := sectorStart_toNat f.erasePage
  cases command with
  | execute =>
    cases hmode : f.mode with
    | sectorErase =>
      simp only [TouchesInside, flashTouched, PageExists, hmode, Option.mem_some_iff, forall_eq',
        flashramSize, flashPages, forall_true_left]
      omega
    | _ => simp [TouchesInside, flashTouched, PageExists, hmode]
  | program page =>
    simp only [TouchesInside, flashTouched, PageExists, Option.mem_some_iff, forall_eq',
      flashramSize, flashPages]
    omega
  | _ => simp [TouchesInside, flashTouched, PageExists]

-- ════════════════════════════════════════════════════════════════════════
-- A command, of the storage and of the chip
-- ════════════════════════════════════════════════════════════════════════

/-- `flashram_command`, by what its first byte says. -/
theorem flashramCommand_eq (f : Flashram) (command : BitVec 32) :
    flashramCommand f command =
      match FlashCommand.decode command with
      | .chipErase => { f with mode := .chipErase }
      | .sectorErase page => { f with mode := .sectorErase, erasePage := BitVec.ofNat 16 page }
      | .execute =>
        { f with
          mem := flashErase f
          status := ((f.status ||| 0x02) &&& ~~~0x02) ||| 0x08
          mode := .status }
      | .program page =>
        { f with
          mem := f.mem.copyBytes (page * 128)
            (fun i => if h : i < 128 then f.pageBuf ⟨i, h⟩ else 0) 128
          status := ((f.status ||| 0x01) &&& ~~~0x01) ||| 0x04
          mode := .status }
      | .pageProgram => { f with mode := .pageProgram }
      | .status => { f with mode := .status }
      | .siliconId => { f with mode := .readSiliconId, status := f.status ||| 0x01 }
      | .readArray => { f with mode := .readArray }
      | .unknown => f := by
  have hlow : (command &&& 0xffff).toNat = command.toNat % 2 ^ 16 :=
    Flags.toNat_and_low 16 rfl
  have hpage : command.truncate 16 = BitVec.ofNat 16 (command.toNat % 2 ^ 16) := by
    apply BitVec.eq_of_toNat_eq
    rw [BitVec.toNat_ofNat, Nat.mod_mod]
    exact BitVec.toNat_setWidth ..
  unfold flashramCommand FlashCommand.decode
  rw [hlow, hpage]
  generalize (command >>> 24).toNat = byte
  split
  case h_9 => split <;> simp_all
  all_goals rfl

/-- The pages after an erasure. -/
theorem byte_flashErase {f : Flashram} {c : FlashChip} (h : Represents f c) {p : ℕ}
    (hp : p < flashPages) (j : Fin 128) :
    (flashErase f).byte (128 * p + j) = (c.command .execute).array p j := by
  have hj := j.isLt
  have hmode := h.mode
  have hsector := sectorStart_toNat f.erasePage
  unfold flashErase FlashChip.command
  rw [← hmode]
  cases hf : f.mode with
  | sectorErase =>
    have hselected : f.erasePage.toNat = c.selected := h.selected
    change (f.mem.copyBytes _ _ _).byte _ = c.erased c.selected p j
    rw [Words.byte_copyBytes, hsector, hselected]
    by_cases hsame : p / 128 = c.selected / 128
    · rw [if_pos (by omega), c.erased_of_eq hsame]
    · rw [if_neg (by omega), c.erased_of_ne hsame]
      exact h.array p hp j
  | chipErase =>
    have hword : (128 * p + j) / 4 < 0x20000 / 4 := by
      unfold flashPages at hp
      omega
    change wordByte (if _ then _ else _) _ = _
    rw [if_pos hword]
    have hones : ∀ s ≤ 24, (0xffffffff : BitVec 32).extractLsb' s 8 = 0xff := by decide
    exact hones _ (byteShift_le _)
  | _ => exact h.array p hp j

theorem byte_flashErase_beyond {f : Flashram} (hpage : PageExists f .execute) {a : ℕ}
    (ha : flashramSize ≤ a) : (flashErase f).byte a = f.mem.byte a := by
  have hsector := sectorStart_toNat f.erasePage
  unfold flashErase
  unfold flashramSize at ha
  cases hf : f.mode with
  | sectorErase =>
    have hlt : f.erasePage.toNat < 1024 := hpage hf
    change (f.mem.copyBytes _ _ _).byte _ = _
    rw [Words.byte_copyBytes, hsector, if_neg (by omega)]
  | chipErase =>
    change wordByte (if _ then _ else _) _ = _
    rw [if_neg (by omega)]
    rfl
  | _ => rfl

/-- **A command does to the storage what it does to the chip.** -/
theorem represents_command {f : Flashram} {c : FlashChip} (h : Represents f c)
    {command : BitVec 32} (hpage : PageExists f (.decode command)) :
    Represents (flashramCommand f command) (c.command (.decode command)) := by
  have hdecode : ∀ page, FlashCommand.decode command = .sectorErase page →
      page = command.toNat % 2 ^ 16 := by
    intro page
    unfold FlashCommand.decode
    split <;> simp [eq_comm]
  rw [flashramCommand_eq]
  generalize FlashCommand.decode command = k at hpage hdecode ⊢
  cases k with
  | sectorErase page =>
    refine ⟨rfl, ?_, h.buffer, h.array⟩
    have hlt : page < 2 ^ 16 := hdecode page rfl ▸ Nat.mod_lt _ (by decide)
    exact (BitVec.toNat_ofNat ..).trans (Nat.mod_eq_of_lt hlt)
  | execute =>
    refine ⟨?_, ?_, ?_, fun p hp j => byte_flashErase h hp j⟩
    · unfold FlashChip.command
      cases c.mode <;> rfl
    · unfold FlashChip.command
      cases c.mode <;> exact h.selected
    · unfold FlashChip.command
      cases c.mode <;> exact h.buffer
  | program page =>
    refine ⟨rfl, h.selected, h.buffer, fun p hp j => ?_⟩
    have hj := j.isLt
    change (f.mem.copyBytes _ _ _).byte _ = c.programmed page p j
    rw [Words.byte_copyBytes]
    by_cases hsame : p = page
    · subst p
      have hin : 128 * page + j - page * 128 = j := by omega
      rw [if_pos (by omega), hin, dif_pos hj, c.programmed_self, ← h.buffer]
    · rw [if_neg (by omega), c.programmed_of_ne hsame]
      exact h.array p hp j
  | unknown => exact h
  | _ => exact ⟨rfl, h.selected, h.buffer, h.array⟩

/-- A command leaves what is behind the storage. -/
theorem flashramCommand_beyond {f : Flashram} {command : BitVec 32}
    (hpage : PageExists f (.decode command)) {a : ℕ} (ha : flashramSize ≤ a) :
    (flashramCommand f command).mem.byte a = f.mem.byte a := by
  rw [flashramCommand_eq]
  generalize FlashCommand.decode command = k at hpage ⊢
  cases k with
  | execute => exact byte_flashErase_beyond hpage ha
  | program page =>
    have hlt : page < 1024 := hpage
    unfold flashramSize at ha
    change (f.mem.copyBytes _ _ _).byte _ = _
    rw [Words.byte_copyBytes, if_neg (by omega)]
  | _ => rfl

-- ════════════════════════════════════════════════════════════════════════
-- Runs
-- ════════════════════════════════════════════════════════════════════════

/-- What happens to the flash memory: a register written, the page buffer loaded and the array read
by DMA, and RDRAM left with other contents by the rest of the console. -/
inductive FlashStep where
  | write (address value mask : BitVec 32)
  | load (dramAddr cartAddr length : BitVec 32)
  | read (dramAddr cartAddr length : BitVec 32)
  | other (dram : Words)

/-- The device, and the chip that its storage is to stand for. -/
structure FlashRun where
  device : Device
  chip : FlashChip

namespace FlashStep

/-- The command of a step. -/
def command : FlashStep → Option (BitVec 32)
  | .write address value mask =>
    if address &&& 0x1ffff = 0x10000 then some (value &&& mask) else none
  | _ => none

/-- The step of the device. -/
def device (d : Device) : FlashStep → Device
  | .write address value mask => d.setFlash (writeFlashram d.cart.flashram address value mask)
  | .load dramAddr cartAddr length => (d.flashramDmaRead dramAddr cartAddr length).1
  | .read dramAddr cartAddr length => (d.flashramDmaWrite dramAddr cartAddr length).1
  | .other dram => d.setDram dram

/-- The step of the chip, which takes what it is given from RDRAM. -/
def chip (d : Device) (c : FlashChip) (step : FlashStep) : FlashChip :=
  match step with
  | .write .. =>
    match step.command with
    | some word => c.command (.decode word)
    | none => c
  | .load dramAddr cartAddr length =>
    if cartAddr &&& 0x1ffff = 0 ∧ length = 128 ∧ c.mode = .pageProgram then
      { c with buffer := fun i => d.rdram.dram.byte (dramAddr.toNat + i) }
    else c
  | .read .. | .other _ => c

/-- A step erases and programs only bytes of the storage. -/
def TouchesInside (d : Device) (step : FlashStep) : Prop :=
  ∀ word ∈ step.command, Mupen64plus.TouchesInside d.cart.flashram (.decode word)

/-- The page that a step programs or erases exists. -/
def PageExists (d : Device) (step : FlashStep) : Prop :=
  ∀ word ∈ step.command, Mupen64plus.PageExists d.cart.flashram (.decode word)

/-- Where a transfer from the array starts. -/
def arrayStart (f : Flashram) (cartAddr : BitVec 32) : ℕ :=
  let start := (cartAddr &&& 0xffff).toNat
  if isOldFlash (f.siliconId 1) then start * 2 else start

/-- A transfer from the array delivers the bytes of the chip's pages. -/
def ReadsChip (d : Device) (c : FlashChip) : FlashStep → Prop
  | .read dramAddr cartAddr length =>
    cartAddr &&& 0x1ffff < 0x10000 → c.mode = .readArray → ∀ i < length.toNat,
      ∀ p < flashPages, ∀ j : Fin 128, arrayStart d.cart.flashram cartAddr + i = 128 * p + j →
        (d.flashramDmaWrite dramAddr cartAddr length).1.rdram.dram.byte (dramAddr.toNat + i) =
          c.array p j
  | _ => True

end FlashStep

/-- A step of both. -/
def FlashRun.step (s : FlashRun) (a : FlashStep) : FlashRun where
  device := a.device s.device
  chip := a.chip s.device s.chip

/-- What a run is to keep: the storage holds what the chip holds, and what is behind the storage is
as it was. -/
structure Kept (first : Words) (s : FlashRun) : Prop where
  represents : Represents s.device.cart.flashram s.chip
  beyond : ∀ a, flashramSize ≤ a → s.device.cart.flashram.mem.byte a = first.byte a

theorem kept_start (d : Device) :
    Kept d.cart.flashram.mem ⟨d, d.cart.flashram.chip⟩ :=
  ⟨represents_chip _, fun _ _ => rfl⟩

theorem arrayStart_eq (f : Flashram) (cartAddr : BitVec 32) :
    (if isOldFlash (f.siliconId 1) then (cartAddr &&& 0xffff) * 2 else cartAddr &&& 0xffff).toNat =
      FlashStep.arrayStart f cartAddr := by
  have hlow : (cartAddr &&& 0xffff).toNat = cartAddr.toNat % 2 ^ 16 := Flags.toNat_and_low 16 rfl
  unfold FlashStep.arrayStart
  split
  · rw [BitVec.toNat_mul, hlow]
    change cartAddr.toNat % 2 ^ 16 * 2 % 2 ^ 32 = cartAddr.toNat % 2 ^ 16 * 2
    omega
  · rfl

/-- A transfer from the array leaves the flash memory. -/
theorem flashramDmaWrite_flashram (d : Device) (dramAddr cartAddr length : BitVec 32) :
    (d.flashramDmaWrite dramAddr cartAddr length).1.cart.flashram = d.cart.flashram := by
  unfold Device.flashramDmaWrite
  dsimp only
  split
  · rfl
  · split <;> rfl

/-- A transfer from the array delivers what the storage holds. -/
theorem readsChip {s : FlashRun} {first : Words} (h : Kept first s) (a : FlashStep) :
    a.ReadsChip s.device s.chip := by
  cases a with
  | read dramAddr cartAddr length =>
    intro hcart hmode i hi p hp j hij
    have hmode' : s.device.cart.flashram.mode = .readArray := h.represents.mode.trans hmode
    have hid : ¬(cartAddr &&& 0x1ffff = 0 ∧ length = 8 ∧
        s.device.cart.flashram.mode = .readSiliconId) := by
      rw [hmode']
      simp
    unfold Device.flashramDmaWrite
    rw [if_neg hid, if_pos ⟨hcart, hmode'⟩]
    change (s.device.rdram.dram.copyBytes _ _ _).byte _ = _
    rw [Words.byte_copyBytes, if_pos (by omega), Nat.add_sub_cancel_left, arrayStart_eq, hij]
    exact h.represents.array p hp j
  | _ => trivial

/-- A write that is no command changes at most the status register. -/
theorem writeFlashram_of_not_command (f : Flashram) {address : BitVec 32}
    (value mask : BitVec 32) (h : address &&& 0x1ffff ≠ 0x10000) :
    ∃ status, writeFlashram f address value mask = { f with status := status } := by
  unfold writeFlashram
  rw [if_neg h]
  split
  · exact ⟨_, rfl⟩
  · exact ⟨f.status, rfl⟩

theorem writeFlashram_of_command (f : Flashram) {address value mask : BitVec 32}
    (h : address &&& 0x1ffff = 0x10000) :
    writeFlashram f address value mask = flashramCommand f (value &&& mask) := by
  have hstatus : ¬(address &&& 0x1ffff = 0 ∧ f.mode = .status) := by
    rw [h]
    simp
  rw [writeFlashram, if_neg hstatus, if_pos h]

theorem kept_write {first : Words} {s : FlashRun} {address value mask : BitVec 32}
    (h : Kept first s) (hpage : FlashStep.PageExists s.device (.write address value mask)) :
    Kept first (s.step (.write address value mask)) := by
  obtain ⟨hrep, hbeyond⟩ := h
  have hflash : (s.step (.write address value mask)).device.cart.flashram =
      writeFlashram s.device.cart.flashram address value mask := rfl
  by_cases hcommand : address &&& 0x1ffff = 0x10000
  · have hsome : FlashStep.command (.write address value mask) = some (value &&& mask) :=
      if_pos hcommand
    have hpage' := hpage _ hsome
    have hchip : (s.step (.write address value mask)).chip =
        s.chip.command (.decode (value &&& mask)) := by
      simp only [FlashRun.step, FlashStep.chip, hsome]
    rw [writeFlashram_of_command _ hcommand] at hflash
    constructor
    · rw [hflash, hchip]
      exact represents_command hrep hpage'
    · intro a ha
      rw [hflash, flashramCommand_beyond hpage' ha]
      exact hbeyond a ha
  · have hnone : FlashStep.command (.write address value mask) = none := if_neg hcommand
    have hchip : (s.step (.write address value mask)).chip = s.chip := by
      simp only [FlashRun.step, FlashStep.chip, hnone]
    obtain ⟨status, hwrite⟩ :=
      writeFlashram_of_not_command s.device.cart.flashram value mask hcommand
    rw [hwrite] at hflash
    constructor
    · rw [hflash, hchip]
      exact ⟨hrep.mode, hrep.selected, hrep.buffer, hrep.array⟩
    · intro a ha
      rw [hflash]
      exact hbeyond a ha

/-- The page buffer, loaded in the mode for it. -/
theorem kept_load {first : Words} {s : FlashRun} (dramAddr cartAddr length : BitVec 32)
    (h : Kept first s) : Kept first (s.step (.load dramAddr cartAddr length)) := by
  obtain ⟨hrep, hbeyond⟩ := h
  by_cases hload : cartAddr &&& 0x1ffff = 0 ∧ length = 128 ∧
      s.device.cart.flashram.mode = .pageProgram
  · have hflash : (s.step (.load dramAddr cartAddr length)).device.cart.flashram =
        { s.device.cart.flashram with
          pageBuf := fun i => s.device.rdram.dram.byte (dramAddr.toNat + i) } := by
      simp only [FlashRun.step, FlashStep.device, Device.flashramDmaRead, if_pos hload]
      rfl
    have hchip : (s.step (.load dramAddr cartAddr length)).chip =
        { s.chip with buffer := fun i => s.device.rdram.dram.byte (dramAddr.toNat + i) } :=
      if_pos (hrep.mode ▸ hload)
    constructor
    · rw [hflash, hchip]
      exact ⟨hrep.mode, hrep.selected, rfl, hrep.array⟩
    · intro a ha
      rw [hflash]
      exact hbeyond a ha
  · have hdevice : (s.step (.load dramAddr cartAddr length)).device = s.device := by
      simp only [FlashRun.step, FlashStep.device, Device.flashramDmaRead, if_neg hload]
    have hchip : (s.step (.load dramAddr cartAddr length)).chip = s.chip :=
      if_neg (hrep.mode ▸ hload)
    exact ⟨by rw [hdevice, hchip]; exact hrep, by rw [hdevice]; exact hbeyond⟩

theorem kept_read {first : Words} {s : FlashRun} (dramAddr cartAddr length : BitVec 32)
    (h : Kept first s) : Kept first (s.step (.read dramAddr cartAddr length)) := by
  obtain ⟨hrep, hbeyond⟩ := h
  have hflash : (s.step (.read dramAddr cartAddr length)).device.cart.flashram =
      s.device.cart.flashram := flashramDmaWrite_flashram ..
  exact ⟨by rw [hflash]; exact hrep, by rw [hflash]; exact hbeyond⟩

/-- A step whose page exists keeps the storage and the chip together. -/
theorem kept_step {first : Words} {s : FlashRun} {a : FlashStep} (h : Kept first s)
    (hpage : a.PageExists s.device) : Kept first (s.step a) := by
  cases a with
  | write address value mask => exact kept_write h hpage
  | load dramAddr cartAddr length => exact kept_load dramAddr cartAddr length h
  | read dramAddr cartAddr length => exact kept_read dramAddr cartAddr length h
  | other dram => exact ⟨h.represents, h.beyond⟩

/-- **Flash memory**: in a run from any device, erasures and programs touch only bytes of the
    storage, transfers from the array deliver the pages of the chip, and the storage holds what the
    chip holds, exactly if every page that is programmed or erased exists. -/
theorem flashRun_iff (d : Device) (steps : List FlashStep) :
    (Runs.Along FlashRun.step
          (fun s a => a.TouchesInside s.device ∧ a.ReadsChip s.device s.chip)
          ⟨d, d.cart.flashram.chip⟩ steps ∧
        ∀ s ∈ Runs.visited FlashRun.step ⟨d, d.cart.flashram.chip⟩ steps,
          Kept d.cart.flashram.mem s) ↔
      Runs.Along FlashRun.step (fun s a => a.PageExists s.device) ⟨d, d.cart.flashram.chip⟩
        steps := by
  have hinside : ∀ (s : FlashRun) (a : FlashStep),
      a.TouchesInside s.device ↔ a.PageExists s.device := fun s a =>
    forall₂_congr fun word _ => touchesInside_iff _ _
  have hstart := kept_start d
  constructor
  · rintro ⟨hrun, -⟩
    rw [Runs.along_and] at hrun
    exact (Runs.along_congr hinside _ _).mp hrun.1
  · intro hrun
    refine ⟨?_, Runs.invariant_visited (fun s a h => kept_step h) hstart hrun⟩
    exact Runs.along_of_along (fun s a h => kept_step h)
      (fun s a h ha => ⟨(hinside s a).mpr ha, readsChip h a⟩) hstart hrun

/-- Page 1024, programmed: 128 bytes behind the storage. -/
theorem flashRun_page1024 :
    ¬Runs.Along FlashRun.step (fun s a => a.TouchesInside s.device)
      ⟨staticDevice (initR4300 .pureInterpreter 2 0 0xa4000040),
        (staticDevice (initR4300 .pureInterpreter 2 0 0xa4000040)).cart.flashram.chip⟩
      [.write 0x08010000 0xa5000400 0xffffffff] := by
  rintro ⟨h, -⟩
  have hpage := h 0xa5000400 rfl (1024 * 128, 128) rfl
  exact absurd hpage (by decide)

end Mupen64plus
