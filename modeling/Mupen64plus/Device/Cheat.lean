import Mupen64plus.Device.Mi

/-!
# Cheat codes

`cheat.c` and `gs_apply_cheats` of the main module: GameShark codes written to RDRAM at every
vertical interrupt.

## Main definitions

- `executeCheat` — one code
- `cheatApplyCheats` — the enabled codes, and the restoring of those disabled since
- `gsApplyCheats` — boot codes once, the others from the 61st vertical interrupt on
- `cheatAddNew`, `cheatSetEnabled` — the list of cheats

A code carries its address with the tag of its kind in the upper byte, and this tagged address
is the one whose compiled code is invalidated.
-/

namespace Mupen64plus

/-- `CHEAT_CODE_MAGIC_VALUE`: no old value was saved. -/
def cheatCodeMagicValue : BitVec 32 := 0xDEAD0000

/-- `enum`-like argument of `cheat_apply_cheats`: when codes are applied. -/
inductive CheatEntry where
  | boot | vi
  deriving DecidableEq, Repr

/-- Where a code points in RDRAM. -/
def cheatOffset (address : BitVec 32) : ℕ := (address &&& 0xffffff).toNat

/-- The bytes of a half-word, the low one first, for a code at some offset: the host reads two
    adjacent bytes from `offset ^ S16`. -/
def halfBytes (offset : ℕ) : ℕ × ℕ := ((offset ^^^ 2) ^^^ 3, ((offset ^^^ 2) + 1) ^^^ 3)

/-- The kind of a code. -/
def cheatTag (address : BitVec 32) : ℕ := (address >>> 24).toNat

-- ════════════════════════════════════════════════════════════════════════
-- The list of cheats
-- ════════════════════════════════════════════════════════════════════════

/-- A code that has not been applied. -/
def newCode (code : BitVec 32 × BitVec 32) : CheatCode := ⟨code.1, code.2, cheatCodeMagicValue⟩

/-- The codes a 'patch' code stands for. -/
def patchCodes (incrAddr incrValue : BitVec 32) : ℕ → BitVec 32 → BitVec 32 → List CheatCode
  | 0, _, _ => []
  | n + 1, curAddr, curValue =>
    newCode (curAddr, curValue) ::
      patchCodes incrAddr incrValue n (curAddr + incrAddr) (curValue + incrValue)

/-- The loop of `cheat_add_new` over the codes it is given, as (address, value). -/
def expandCodes : List (BitVec 32 × BitVec 32) → List CheatCode
  | [] => []
  | [code] => [newCode code]
  | code :: next :: rest =>
    if code.1 &&& 0xFFFF0000 = 0x50000000 then
      patchCodes (code.1 &&& 0xFF) code.2 ((code.1 &&& 0xFF00) >>> 8).toNat next.1 next.2 ++
        expandCodes rest
    else newCode code :: expandCodes (next :: rest)

/-- The first cheat under a name, changed. -/
def onCheat (name : String) (f : Cheat → Cheat) : List Cheat → List Cheat
  | [] => []
  | cheat :: rest => if cheat.name = name then f cheat :: rest else cheat :: onCheat name f rest

/-- `find_or_create_cheat`. -/
def findOrCreateCheat (name : String) (cheats : List Cheat) : List Cheat :=
  if name ∈ cheats.map Cheat.name then
    onCheat name (fun cheat => { cheat with enabled := false, wasEnabled := false, codes := [] })
      cheats
  else cheats ++ [⟨name, false, false, []⟩]

/-- `cheat_add_new`. -/
def cheatAddNew (cheats : List Cheat) (new : String × List (BitVec 32 × BitVec 32)) : List Cheat :=
  onCheat new.1
    (fun cheat => { cheat with enabled := true, codes := cheat.codes ++ expandCodes new.2 })
    (findOrCreateCheat new.1 cheats)

/-- `cheat_set_enabled`. -/
def cheatSetEnabled (name : String) (enabled : Bool) (cheats : List Cheat) : List Cheat :=
  onCheat name (fun cheat => { cheat with enabled := enabled }) cheats

-- ════════════════════════════════════════════════════════════════════════
-- Codes on the memory
-- ════════════════════════════════════════════════════════════════════════

namespace Device

/-- `read_address_8bit`. -/
def readAddress8bit (d : Device) (address : BitVec 32) : BitVec 8 :=
  d.rdram.dram.byte (cheatOffset address)

/-- `read_address_16bit`. -/
def readAddress16bit (d : Device) (address : BitVec 32) : BitVec 16 :=
  let at2 := halfBytes (cheatOffset address)
  d.rdram.dram.byte at2.2 ++ d.rdram.dram.byte at2.1

/-- `update_address_8bit`. -/
def updateAddress8bit (d : Device) (address : BitVec 32) (newValue : BitVec 8) : Device :=
  (d.setDram (d.rdram.dram.setByte (cheatOffset address) newValue)).invalidate address 1

/-- `update_address_16bit`. -/
def updateAddress16bit (d : Device) (address : BitVec 32) (newValue : BitVec 16) : Device :=
  let at2 := halfBytes (cheatOffset address)
  let m := d.rdram.dram.setByte at2.1 (newValue.extractLsb' 0 8)
  let m := m.setByte at2.2 (newValue.extractLsb' 8 8)
  (d.setDram m).invalidate (address &&& 0xfeffffff) 2

/-- The old value of a code, saved the first time it is applied. -/
def savedOld (old : Option (BitVec 32)) (current : BitVec 32) : Option (BitVec 32) :=
  old.map fun v => if v = cheatCodeMagicValue then current else v

/-- `execute_cheat`: its answer, the device and the old value. -/
def executeCheat (d : Device) (address value : BitVec 32) (old : Option (BitVec 32)) :
    Bool × Device × Option (BitVec 32) :=
  let value8 : BitVec 8 := value.truncate 8
  let value16 : BitVec 16 := value.truncate 16
  match cheatTag address with
  | 0x80 | 0x88 | 0xA0 | 0xA8 | 0xF0 =>
    (true, d.updateAddress8bit address value8,
      savedOld old ((d.readAddress8bit address).zeroExtend 32))
  | 0x81 | 0x89 | 0xA1 | 0xA9 | 0xF1 =>
    (true, d.updateAddress16bit address value16,
      savedOld old ((d.readAddress16bit address).zeroExtend 32))
  | 0xD0 | 0xD8 => (d.readAddress8bit address == value8, d, old)
  | 0xD1 | 0xD9 => (d.readAddress16bit address == value16, d, old)
  | 0xD2 | 0xDB => (d.readAddress8bit address != value8, d, old)
  | 0xD3 | 0xDA => (d.readAddress16bit address != value16, d, old)
  | 0xEE => (true, (d.updateAddress16bit 0xF1000318 0x0040).updateAddress16bit 0xF100031A 0, old)
  | _ => (true, d, old)

/-- A code executed for its effect, with its old value kept up to date. -/
def applyCode (d : Device) (code : CheatCode) : Device × CheatCode :=
  match d.executeCheat code.address code.value (some code.oldValue) with
  | (_, d, old) => (d, { code with oldValue := old.getD code.oldValue })

/-- One round of the loop over codes at `ENTRY_BOOT`. -/
def bootCode (d : Device) (code : CheatCode) : Device × CheatCode :=
  if code.address &&& 0xF0000000 = 0xF0000000 then d.applyCode code else (d, code)

/-- One round of the loop over codes at `ENTRY_VI`; the flag is `cond_failed`. -/
def viCode (o : Outside) (s : Device × Bool) (code : CheatCode) : (Device × Bool) × CheatCode :=
  let (d, condFailed) := s
  let tag := cheatTag code.address
  if code.address &&& 0xF0000000 = 0xD0000000 then
    let button := tag = 0xD8 ∨ tag = 0xD9 ∨ tag = 0xDA ∨ tag = 0xDB
    let holds := (d.executeCheat code.address code.value none).1
    ((d, condFailed || (decide button && !o.gamesharkActive) || !holds), code)
  else if condFailed then ((d, false), code)
  else if tag = 0x88 ∨ tag = 0x89 ∨ tag = 0xA8 ∨ tag = 0xA9 then
    if o.gamesharkActive then
      (((d.executeCheat code.address code.value none).2.1, false), code)
    else ((d, false), code)
  else if code.address &&& 0xF0000000 = 0xF0000000 then ((d, false), code)
  else
    let (d, code) := d.applyCode code
    ((d, false), code)

/-- One round of the loop that restores the codes of a cheat disabled since. -/
def restoreCode (d : Device) (code : CheatCode) : Device × CheatCode :=
  if code.oldValue ≠ cheatCodeMagicValue then
    ((d.executeCheat code.address code.oldValue none).2.1,
      { code with oldValue := cheatCodeMagicValue })
  else (d, code)

/-- A loop over the codes of a cheat that may change each of them. -/
def mapCodes {σ : Type*} (f : σ → CheatCode → σ × CheatCode) :
    σ → List CheatCode → σ × List CheatCode
  | s, [] => (s, [])
  | s, code :: rest =>
    let (s, code) := f s code
    let (s, rest) := mapCodes f s rest
    (s, code :: rest)

/-- The body of the loop of `cheat_apply_cheats`. -/
def applyCheat (o : Outside) (entry : CheatEntry) (d : Device) (cheat : Cheat) : Device × Cheat :=
  if cheat.enabled then
    match entry with
    | .boot =>
      let (d, codes) := mapCodes bootCode d cheat.codes
      (d, { cheat with wasEnabled := true, codes := codes })
    | .vi =>
      let ((d, _), codes) := mapCodes (viCode o) (d, false) cheat.codes
      (d, { cheat with wasEnabled := true, codes := codes })
  else if cheat.wasEnabled then
    match entry with
    | .boot => (d, { cheat with wasEnabled := false })
    | .vi =>
      let (d, codes) := mapCodes restoreCode d cheat.codes
      (d, { cheat with wasEnabled := false, codes := codes })
  else (d, cheat)

/-- The loop of `cheat_apply_cheats`. -/
def applyCheats (o : Outside) (entry : CheatEntry) : Device → List Cheat → Device × List Cheat
  | d, [] => (d, [])
  | d, cheat :: rest =>
    let (d, cheat) := applyCheat o entry d cheat
    let (d, rest) := applyCheats o entry d rest
    (d, cheat :: rest)

/-- `cheat_apply_cheats`. -/
def cheatApplyCheats (o : Outside) (entry : CheatEntry) (d : Device) : Device :=
  let (d, cheats) := applyCheats o entry d d.cheats
  { d with cheats := cheats }

/-- `gs_apply_cheats`. -/
def gsApplyCheats (o : Outside) (d : Device) : Device :=
  if d.gsViCounter < 60 then
    let d := if d.gsViCounter = 0 then cheatApplyCheats o .boot d else d
    { d with gsViCounter := d.gsViCounter + 1 }
  else cheatApplyCheats o .vi d

end Device

end Mupen64plus
