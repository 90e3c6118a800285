import Mupen64plus.Lib.Patches
import Mupen64plus.Device.Queued

/-!
# Taking cheats back

A cheat that is disabled is taken back at the next vertical interrupt: each of its codes puts the
value it found when it was first applied. Codes are taken back in the order they were applied, so
that two codes on one byte leave what the first of them wrote.

## Main definitions

- `CheatStep`, `cheatStep` — a vertical interrupt, a cheat disabled, a byte written by the guest
- `Undone` — after all cheats are disabled the memory is what the guest alone made of it
- `UndoOrder` — what the codes have to satisfy

## Main results

- `cellOf_vi` — a vertical interrupt is a pass of patches on every byte
- `cheats_undone_iff`
-/

namespace Mupen64plus

-- ════════════════════════════════════════════════════════════════════════
-- Runs
-- ════════════════════════════════════════════════════════════════════════

/-- The unconditional 8-bit and 16-bit writes. -/
def CheatCode.Unconditional (code : CheatCode) : Prop :=
  cheatTag code.address ∈ [0x80, 0xA0, 0x81, 0xA1]

inductive CheatStep where
  | vi (o : Outside)
  | disable (name : String)
  | guest (a : ℕ) (b : BitVec 8)

def cheatStep (d : Device) : CheatStep → Device
  | .vi o => d.cheatApplyCheats o .vi
  | .disable name => { d with cheats := cheatSetEnabled name false d.cheats }
  | .guest a b => d.setDram (d.rdram.dram.setByte a b)

/-- What the guest alone makes of the memory. -/
def guestMemory (m : Words) : List CheatStep → Words
  | [] => m
  | .guest a b :: steps => guestMemory (m.setByte a b) steps
  | .vi _ :: steps => guestMemory m steps
  | .disable _ :: steps => guestMemory m steps

/-- What a code with some value puts at a byte. -/
def codeByte (address value : BitVec 32) (a : ℕ) : Option (BitVec 8) :=
  if cheatTag address = 0x80 ∨ cheatTag address = 0xA0 then
    if a = cheatOffset address then some (value.truncate 8) else none
  else if a = (halfBytes (cheatOffset address)).1 then
    some ((value.truncate 16 : BitVec 16).extractLsb' 0 8)
  else if a = (halfBytes (cheatOffset address)).2 then
    some ((value.truncate 16 : BitVec 16).extractLsb' 8 8)
  else none

/-- The values that codes put at a byte, in order. -/
def bytesWritten (a : ℕ) (codes : List CheatCode) : List (BitVec 8) :=
  codes.filterMap fun code => codeByte code.address code.value a

/-- Some code of a list of cheats writes a byte. -/
def Patched (cheats : List Cheat) (a : ℕ) : Prop :=
  ∃ cheat ∈ cheats, bytesWritten a cheat.codes ≠ []

/-- **Cheats are undone**: the cheats are applied once and then, as the guest writes elsewhere and
    vertical interrupts come, disabled in some order. The first vertical interrupt after the last
    of them leaves the memory the guest alone would have. -/
def Undone (d : Device) : Prop :=
  ∀ (o o' : Outside) (steps : List CheatStep),
    (∀ a b, .guest a b ∈ steps → ¬Patched d.cheats a) →
      (∀ cheat ∈ (Runs.runFrom cheatStep d (.vi o :: steps)).cheats, cheat.enabled = false) →
        ∀ a, (Runs.runFrom cheatStep d (.vi o :: steps ++ [.vi o'])).rdram.dram.byte a =
          (guestMemory d.rdram.dram steps).byte a

/-- Of the codes on a byte, the one before the last of each cheat puts the value the byte has. -/
def UndoOrder (m : Words) (cheats : List Cheat) : Prop :=
  ∀ a pre cheat post, cheats = pre ++ cheat :: post → bytesWritten a cheat.codes ≠ [] →
    (bytesWritten a (pre.flatMap Cheat.codes ++ cheat.codes)).dropLast.getLastD (m.byte a) =
      m.byte a

-- ════════════════════════════════════════════════════════════════════════
-- Codes on one byte
-- ════════════════════════════════════════════════════════════════════════

theorem halfBytes_ne (offset : ℕ) : (halfBytes offset).1 ≠ (halfBytes offset).2 := by
  intro h
  have hx := congrArg (· ^^^ 3) h
  simp only [halfBytes, Nat.xor_assoc, Nat.xor_self, Nat.xor_zero] at hx
  omega

theorem CheatCode.Unconditional.cases {code : CheatCode} (h : code.Unconditional) :
    (cheatTag code.address = 0x80 ∨ cheatTag code.address = 0xA0) ∨
      (cheatTag code.address = 0x81 ∨ cheatTag code.address = 0xA1) := by
  simp only [Unconditional, List.mem_cons, List.not_mem_nil, or_false] at h
  rcases h with h | h | h | h
  · exact .inl (.inl h)
  · exact .inl (.inr h)
  · exact .inr (.inl h)
  · exact .inr (.inr h)

namespace Device

@[simp] theorem invalidate_dram (d : Device) (address size : BitVec 32) :
    (d.invalidate address size).rdram.dram = d.rdram.dram := rfl

@[simp] theorem invalidate_cheats (d : Device) (address size : BitVec 32) :
    (d.invalidate address size).cheats = d.cheats := rfl

theorem byte_updateAddress8bit (d : Device) (address : BitVec 32) (v : BitVec 8) (a : ℕ) :
    (d.updateAddress8bit address v).rdram.dram.byte a =
      if a = cheatOffset address then v else d.rdram.dram.byte a :=
  Words.byte_setByte _ _ _ _

theorem byte_updateAddress16bit (d : Device) (address : BitVec 32) (v : BitVec 16) (a : ℕ) :
    (d.updateAddress16bit address v).rdram.dram.byte a =
      if a = (halfBytes (cheatOffset address)).1 then v.extractLsb' 0 8
      else if a = (halfBytes (cheatOffset address)).2 then v.extractLsb' 8 8
      else d.rdram.dram.byte a := by
  have hne := halfBytes_ne (cheatOffset address)
  rw [updateAddress16bit, invalidate_dram]
  show Words.byte (Words.setByte (Words.setByte _ _ _) _ _) a = _
  rw [Words.byte_setByte, Words.byte_setByte]
  by_cases h2 : a = (halfBytes (cheatOffset address)).2
  · rw [if_pos h2, if_neg (fun h1 => hne (h1.symm.trans h2)), if_pos h2]
  · rw [if_neg h2, if_neg h2]

/-- An unconditional code puts its value, keeps the cheats, and saves what it found. -/
theorem executeCheat_spec (d : Device) {code : CheatCode} (h : code.Unconditional)
    (value : BitVec 32) (old : Option (BitVec 32)) :
    (d.executeCheat code.address value old).2.1.cheats = d.cheats ∧
      ∀ a, (d.executeCheat code.address value old).2.1.rdram.dram.byte a =
        (codeByte code.address value a).getD (d.rdram.dram.byte a) := by
  rcases h.cases with h8 | h16
  · have hcode : ∀ a, codeByte code.address value a =
        if a = cheatOffset code.address then some (value.truncate 8) else none := by
      intro a
      rw [codeByte, if_pos h8]
    have hrun : (d.executeCheat code.address value old).2.1 =
        d.updateAddress8bit code.address (value.truncate 8) := by
      rcases h8 with h8 | h8
      · simp only [executeCheat, h8]
      · simp only [executeCheat, h8]
    refine ⟨by rw [hrun]; rfl, fun a => ?_⟩
    rw [hrun, hcode, byte_updateAddress8bit]
    split <;> rfl
  · have hcode : ∀ a, codeByte code.address value a =
        if a = (halfBytes (cheatOffset code.address)).1 then
          some ((value.truncate 16 : BitVec 16).extractLsb' 0 8)
        else if a = (halfBytes (cheatOffset code.address)).2 then
          some ((value.truncate 16 : BitVec 16).extractLsb' 8 8)
        else none := by
      intro a
      rw [codeByte, if_neg (by omega)]
    have hrun : (d.executeCheat code.address value old).2.1 =
        d.updateAddress16bit code.address (value.truncate 16) := by
      rcases h16 with h16 | h16
      · simp only [executeCheat, h16]
      · simp only [executeCheat, h16]
    refine ⟨by rw [hrun]; rfl, fun a => ?_⟩
    rw [hrun, hcode, byte_updateAddress16bit]
    split
    · rfl
    · split <;> rfl

theorem codeByte_isSome (address v w : BitVec 32) (a : ℕ) :
    (codeByte address v a).isSome = (codeByte address w a).isSome := by
  unfold codeByte
  split
  · split <;> rfl
  · split
    · rfl
    · split <;> rfl

/-- The value a code finds, as `execute_cheat` saves it. -/
def foundValue (d : Device) (address : BitVec 32) : BitVec 32 :=
  if cheatTag address = 0x80 ∨ cheatTag address = 0xA0 then
    (d.readAddress8bit address).zeroExtend 32
  else (d.readAddress16bit address).zeroExtend 32

theorem foundValue_ne (d : Device) (address : BitVec 32) :
    d.foundValue address ≠ cheatCodeMagicValue := by
  intro h
  have hlt : (d.foundValue address).toNat < 2 ^ 16 := by
    unfold foundValue
    split
    · have hb := (d.readAddress8bit address).isLt
      rw [BitVec.zeroExtend, BitVec.toNat_setWidth]
      omega
    · have hb := (d.readAddress16bit address).isLt
      rw [BitVec.zeroExtend, BitVec.toNat_setWidth]
      omega
  rw [h] at hlt
  exact absurd hlt (by decide)

/-- Put back, the value found is the byte that was there. -/
theorem codeByte_foundValue (d : Device) (address value : BitVec 32) (a : ℕ) :
    codeByte address (d.foundValue address) a =
      (codeByte address value a).map fun _ => d.rdram.dram.byte a := by
  have hne := halfBytes_ne (cheatOffset address)
  unfold codeByte foundValue
  split
  · rw [BitVec.truncate, BitVec.zeroExtend, BitVec.setWidth_setWidth_of_le _ (by decide),
      BitVec.setWidth_eq]
    split
    next h =>
      subst h
      rfl
    next => rfl
  · rw [BitVec.truncate, BitVec.zeroExtend, BitVec.setWidth_setWidth_of_le _ (by decide),
      BitVec.setWidth_eq, readAddress16bit]
    split
    next h =>
      rw [h]
      refine congrArg some ?_
      exact BitVec.extractLsb'_append_eq_right
    next =>
      split
      next h =>
        rw [h]
        refine congrArg some ?_
        exact BitVec.extractLsb'_append_eq_left
      next => rfl

theorem executeCheat_old (d : Device) {code : CheatCode} (h : code.Unconditional)
    (value old : BitVec 32) :
    (d.executeCheat code.address value (some old)).2.2 =
      some (if old = cheatCodeMagicValue then d.foundValue code.address else old) := by
  rcases h.cases with h8 | h16
  · have hfound : d.foundValue code.address = (d.readAddress8bit code.address).zeroExtend 32 := by
      rw [foundValue, if_pos h8]
    rw [hfound]
    rcases h8 with h8 | h8
    · simp only [executeCheat, h8, savedOld, Option.map_some]
    · simp only [executeCheat, h8, savedOld, Option.map_some]
  · have hfound : d.foundValue code.address = (d.readAddress16bit code.address).zeroExtend 32 := by
      rw [foundValue, if_neg (by omega)]
    rw [hfound]
    rcases h16 with h16 | h16
    · simp only [executeCheat, h16, savedOld, Option.map_some]
    · simp only [executeCheat, h16, savedOld, Option.map_some]

end Device

/-- A code as a patch on one byte. -/
def cellPatch (a : ℕ) (code : CheatCode) : Option (Patches.Patch (BitVec 8)) :=
  (codeByte code.address code.value a).map fun v =>
    ⟨v, if code.oldValue = cheatCodeMagicValue then none
      else codeByte code.address code.oldValue a⟩

/-- A round of a loop over codes acts on one byte as a function of patches. -/
structure ActsAs (a : ℕ) (f : Device → CheatCode → Device × CheatCode)
    (g : BitVec 8 → Patches.Patch (BitVec 8) → BitVec 8 × Patches.Patch (BitVec 8))
    (d : Device) (code : CheatCode) : Prop where
  cheats : (f d code).1.cheats = d.cheats
  address : (f d code).2.address = code.address
  value : (f d code).2.value = code.value
  outside : cellPatch a code = none → (f d code).1.rdram.dram.byte a = d.rdram.dram.byte a ∧
    cellPatch a (f d code).2 = none
  inside : ∀ p, cellPatch a code = some p →
    (f d code).1.rdram.dram.byte a = (g (d.rdram.dram.byte a) p).1 ∧
      cellPatch a (f d code).2 = some (g (d.rdram.dram.byte a) p).2

theorem cellPatch_eq_none {a : ℕ} {code : CheatCode} :
    cellPatch a code = none ↔ codeByte code.address code.value a = none := Option.map_eq_none_iff

theorem actsAs_applyCode (a : ℕ) (d : Device) {code : CheatCode} (h : code.Unconditional) :
    ActsAs a Device.applyCode Patches.Patch.apply d code := by
  obtain ⟨hcheats, hbyte⟩ := d.executeCheat_spec h code.value (some code.oldValue)
  have hold := d.executeCheat_old h code.value code.oldValue
  have hcode : (d.applyCode code).2 = { code with oldValue :=
      if code.oldValue = cheatCodeMagicValue then d.foundValue code.address
      else code.oldValue } := by
    have hset : (d.applyCode code).2 = { code with oldValue :=
        (d.executeCheat code.address code.value (some code.oldValue)).2.2.getD code.oldValue } :=
      rfl
    rw [hset, hold, Option.getD_some]
  refine ⟨hcheats, rfl, rfl, fun hnone => ?_, fun p hp => ?_⟩
  · rw [cellPatch_eq_none] at hnone ⊢
    exact ⟨(hbyte a).trans (by rw [hnone]; rfl), hnone⟩
  · obtain ⟨v, hv, rfl⟩ := Option.map_eq_some_iff.mp hp
    refine ⟨(hbyte a).trans (by rw [hv]; rfl), ?_⟩
    rw [hcode, cellPatch, hv, Option.map_some, Patches.Patch.apply]
    refine congrArg some ?_
    by_cases hmagic : code.oldValue = cheatCodeMagicValue
    · simp only [if_pos hmagic, if_neg (d.foundValue_ne code.address),
        d.codeByte_foundValue code.address code.value a, hv, Option.map_some, Option.getD_none]
    · have hsome : (codeByte code.address code.oldValue a).isSome := by
        rw [Device.codeByte_isSome _ _ code.value, hv]
        rfl
      obtain ⟨w, hw⟩ := Option.isSome_iff_exists.mp hsome
      simp only [if_neg hmagic, hw, Option.getD_some]

theorem actsAs_restoreCode (a : ℕ) (d : Device) {code : CheatCode} (h : code.Unconditional) :
    ActsAs a Device.restoreCode Patches.Patch.undo d code := by
  obtain ⟨hcheats, hbyte⟩ := d.executeCheat_spec h code.oldValue none
  by_cases hmagic : code.oldValue = cheatCodeMagicValue
  · have hcode : Device.restoreCode d code = (d, code) := by
      rw [Device.restoreCode, if_neg (not_not.mpr hmagic)]
    refine ⟨by rw [hcode], by rw [hcode], by rw [hcode], fun hnone => ?_, fun p hp => ?_⟩
    · rw [hcode]
      exact ⟨rfl, hnone⟩
    · obtain ⟨v, hv, rfl⟩ := Option.map_eq_some_iff.mp hp
      rw [hcode, hp, if_pos hmagic]
      exact ⟨rfl, rfl⟩
  · have hcode : Device.restoreCode d code = ((d.executeCheat code.address code.oldValue none).2.1,
        { code with oldValue := cheatCodeMagicValue }) := by
      rw [Device.restoreCode, if_pos hmagic]
    refine ⟨by rw [hcode]; exact hcheats, by rw [hcode], by rw [hcode], fun hnone => ?_,
      fun p hp => ?_⟩
    · rw [cellPatch_eq_none] at hnone
      have hold : codeByte code.address code.oldValue a = none := by
        have hsome := Device.codeByte_isSome code.address code.oldValue code.value a
        rw [hnone] at hsome
        exact Option.not_isSome_iff_eq_none.mp (by simp [hsome])
      rw [hcode]
      exact ⟨(hbyte a).trans (by rw [hold]; rfl), cellPatch_eq_none.mpr hnone⟩
    · obtain ⟨v, hv, rfl⟩ := Option.map_eq_some_iff.mp hp
      have hsome : (codeByte code.address code.oldValue a).isSome := by
        rw [Device.codeByte_isSome _ _ code.value, hv]
        rfl
      obtain ⟨w, hw⟩ := Option.isSome_iff_exists.mp hsome
      rw [hcode]
      refine ⟨(hbyte a).trans ?_, ?_⟩
      · simp only [hw, Option.getD_some, if_neg hmagic, Patches.Patch.undo]
      · simp only [cellPatch, hv, Option.map_some, if_true, Patches.Patch.undo]

theorem mapCodes_cons {σ : Type*} (f : σ → CheatCode → σ × CheatCode) (s : σ) (code : CheatCode)
    (codes : List CheatCode) :
    Device.mapCodes f s (code :: codes) =
      ((Device.mapCodes f (f s code).1 codes).1,
        (f s code).2 :: (Device.mapCodes f (f s code).1 codes).2) := rfl

/-- A loop over codes is a sweep of patches on each byte. -/
theorem mapCodes_sweep {a : ℕ} {f : Device → CheatCode → Device × CheatCode}
    {g : BitVec 8 → Patches.Patch (BitVec 8) → BitVec 8 × Patches.Patch (BitVec 8)}
    {codes : List CheatCode} (h : ∀ d, ∀ code ∈ codes, ActsAs a f g d code) (d : Device) :
    (Device.mapCodes f d codes).1.cheats = d.cheats ∧
      (Device.mapCodes f d codes).1.rdram.dram.byte a =
        (Patches.sweep g (d.rdram.dram.byte a) (codes.filterMap (cellPatch a))).1 ∧
      (Device.mapCodes f d codes).2.filterMap (cellPatch a) =
        (Patches.sweep g (d.rdram.dram.byte a) (codes.filterMap (cellPatch a))).2 := by
  induction codes generalizing d with
  | nil => exact ⟨rfl, rfl, rfl⟩
  | cons code codes ih =>
    have hcode := h d code List.mem_cons_self
    obtain ⟨hcheats, hbyte, hpatches⟩ :=
      ih (fun d c hc => h d c (List.mem_cons_of_mem _ hc)) (f d code).1
    rw [mapCodes_cons]
    refine ⟨hcheats.trans hcode.cheats, ?_⟩
    cases hp : cellPatch a code with
    | none =>
      obtain ⟨hkeep, hnone⟩ := hcode.outside hp
      rw [List.filterMap_cons_none hp, List.filterMap_cons_none hnone, hbyte, hpatches, hkeep]
      exact ⟨rfl, rfl⟩
    | some p =>
      obtain ⟨hput, hsome⟩ := hcode.inside p hp
      rw [List.filterMap_cons_some hp, List.filterMap_cons_some hsome, hbyte, hpatches, hput,
        Patches.sweep]
      exact ⟨rfl, rfl⟩

-- ════════════════════════════════════════════════════════════════════════
-- A vertical interrupt on one byte
-- ════════════════════════════════════════════════════════════════════════

theorem Unconditional_tag {code : CheatCode} (h : code.Unconditional) :
    code.address >>> 24 = 0x80#32 ∨ code.address >>> 24 = 0xA0#32 ∨
      code.address >>> 24 = 0x81#32 ∨ code.address >>> 24 = 0xA1#32 := by
  simp only [CheatCode.Unconditional, List.mem_cons, List.not_mem_nil, or_false] at h
  rcases h with h | h | h | h
  · exact .inl (BitVec.eq_of_toNat_eq h)
  · exact .inr (.inl (BitVec.eq_of_toNat_eq h))
  · exact .inr (.inr (.inl (BitVec.eq_of_toNat_eq h)))
  · exact .inr (.inr (.inr (BitVec.eq_of_toNat_eq h)))

/-- The upper digit of the tag tells neither a condition nor a boot code. -/
theorem upper_ne {code : CheatCode} (h : code.Unconditional) (digit : BitVec 32)
    (hdigit : digit >>> 24 = 0xD0#32 ∨ digit >>> 24 = 0xF0#32) :
    code.address &&& 0xF0000000 ≠ digit := by
  intro heq
  have hshift := congrArg (fun x : BitVec 32 => x >>> 24) heq
  simp only [BitVec.ushiftRight_and_distrib] at hshift
  rcases Unconditional_tag h with ht | ht | ht | ht
  all_goals
    rw [ht] at hshift
    rcases hdigit with hd | hd
    all_goals
      rw [hd] at hshift
      exact absurd hshift (by decide)

/-- The loop at `ENTRY_VI` applies every unconditional code. -/
theorem mapCodes_viCode (o : Outside) {codes : List CheatCode}
    (h : ∀ code ∈ codes, code.Unconditional) (d : Device) :
    Device.mapCodes (Device.viCode o) (d, false) codes =
      (((Device.mapCodes Device.applyCode d codes).1, false),
        (Device.mapCodes Device.applyCode d codes).2) := by
  induction codes generalizing d with
  | nil => rfl
  | cons code codes ih =>
    have hcode := h code List.mem_cons_self
    have htags := hcode
    simp only [CheatCode.Unconditional, List.mem_cons, List.not_mem_nil, or_false] at htags
    have hstep : Device.viCode o (d, false) code =
        (((d.applyCode code).1, false), (d.applyCode code).2) := by
      unfold Device.viCode
      dsimp only
      rw [if_neg (upper_ne hcode _ (.inl rfl)), if_neg Bool.false_ne_true, if_neg (by omega),
        if_neg (upper_ne hcode _ (.inr rfl))]
    rw [mapCodes_cons, hstep, ih fun c hc => h c (List.mem_cons_of_mem _ hc), mapCodes_cons]

/-- A cheat as a group of patches on one byte. -/
def cellGroup (a : ℕ) (cheat : Cheat) : Patches.Group String (BitVec 8) where
  key := cheat.name
  on := cheat.enabled
  was := cheat.wasEnabled
  patches := cheat.codes.filterMap (cellPatch a)

/-- One byte and the patches on it. -/
def cellOf (a : ℕ) (d : Device) : BitVec 8 × List (Patches.Group String (BitVec 8)) :=
  (d.rdram.dram.byte a, d.cheats.map (cellGroup a))

/-- A cheat is a list of unconditional codes. -/
def Cheat.Plain (cheat : Cheat) : Prop := ∀ code ∈ cheat.codes, code.Unconditional

theorem mapCodes_plain {f : Device → CheatCode → Device × CheatCode}
    (hf : ∀ d code, (f d code).2.address = code.address ∧ (f d code).2.value = code.value)
    (d : Device) (codes : List CheatCode) :
    (Device.mapCodes f d codes).2.map (fun code => (code.address, code.value)) =
      codes.map fun code => (code.address, code.value) := by
  induction codes generalizing d with
  | nil => rfl
  | cons code codes ih =>
    rw [mapCodes_cons, List.map_cons, ih, List.map_cons, (hf d code).1, (hf d code).2]

/-- The codes of a cheat, without what they have saved. -/
def Cheat.texts (cheat : Cheat) : List (BitVec 32 × BitVec 32) :=
  cheat.codes.map fun code => (code.address, code.value)

theorem Cheat.plain_iff {cheat : Cheat} :
    cheat.Plain ↔ ∀ t ∈ cheat.texts, cheatTag t.1 ∈ [0x80, 0xA0, 0x81, 0xA1] := by
  simp only [Plain, texts, List.forall_mem_map]
  rfl

theorem bytesWritten_texts (a : ℕ) (cheat : Cheat) :
    bytesWritten a cheat.codes = cheat.texts.filterMap fun t => codeByte t.1 t.2 a := by
  rw [bytesWritten, Cheat.texts, List.filterMap_map]
  rfl

theorem applyCode_text (d : Device) (code : CheatCode) :
    (d.applyCode code).2.address = code.address ∧ (d.applyCode code).2.value = code.value :=
  ⟨rfl, rfl⟩

theorem restoreCode_text (d : Device) (code : CheatCode) :
    (d.restoreCode code).2.address = code.address ∧ (d.restoreCode code).2.value = code.value := by
  unfold Device.restoreCode
  split
  · exact ⟨rfl, rfl⟩
  · exact ⟨rfl, rfl⟩

/-- What a vertical interrupt does with one cheat. -/
theorem applyCheat_vi (o : Outside) (a : ℕ) (d : Device) {cheat : Cheat} (h : cheat.Plain) :
    (Device.applyCheat o .vi d cheat).1.cheats = d.cheats ∧
      (Device.applyCheat o .vi d cheat).2.texts = cheat.texts ∧
      (Device.applyCheat o .vi d cheat).1.rdram.dram.byte a =
        (Patches.passGroup (d.rdram.dram.byte a) (cellGroup a cheat)).1 ∧
      cellGroup a (Device.applyCheat o .vi d cheat).2 =
        (Patches.passGroup (d.rdram.dram.byte a) (cellGroup a cheat)).2 := by
  by_cases hon : cheat.enabled = true
  · have hrun : Device.applyCheat o .vi d cheat =
        ((Device.mapCodes Device.applyCode d cheat.codes).1,
          { cheat with wasEnabled := true,
                       codes := (Device.mapCodes Device.applyCode d cheat.codes).2 }) := by
      rw [Device.applyCheat, if_pos hon]
      dsimp only
      rw [mapCodes_viCode o h]
    obtain ⟨hcheats, hbyte, hpatches⟩ :=
      mapCodes_sweep (fun d code hc => actsAs_applyCode a d (h code hc)) d
    have hgroup : (cellGroup a cheat).on = true := hon
    rw [hrun, Patches.passGroup, if_pos hgroup]
    refine ⟨hcheats, mapCodes_plain applyCode_text d cheat.codes, hbyte, ?_⟩
    simp only [cellGroup, hpatches]
  · by_cases hwas : cheat.wasEnabled = true
    · have hrun : Device.applyCheat o .vi d cheat =
          ((Device.mapCodes Device.restoreCode d cheat.codes).1,
            { cheat with wasEnabled := false,
                         codes := (Device.mapCodes Device.restoreCode d cheat.codes).2 }) := by
        rw [Device.applyCheat, if_neg hon, if_pos hwas]
      obtain ⟨hcheats, hbyte, hpatches⟩ :=
        mapCodes_sweep (fun d code hc => actsAs_restoreCode a d (h code hc)) d
      have hgroup : ¬(cellGroup a cheat).on = true := hon
      have hgroup' : (cellGroup a cheat).was = true := hwas
      rw [hrun, Patches.passGroup, if_neg hgroup, if_pos hgroup']
      refine ⟨hcheats, mapCodes_plain restoreCode_text d cheat.codes, hbyte, ?_⟩
      simp only [cellGroup, hpatches]
    · have hrun : Device.applyCheat o .vi d cheat = (d, cheat) := by
        rw [Device.applyCheat, if_neg hon, if_neg hwas]
      have hgroup : ¬(cellGroup a cheat).on = true := hon
      have hgroup' : ¬(cellGroup a cheat).was = true := hwas
      rw [hrun, Patches.passGroup, if_neg hgroup, if_neg hgroup']
      exact ⟨rfl, rfl, rfl, rfl⟩

theorem applyCheats_vi (o : Outside) (a : ℕ) {cheats : List Cheat} (h : ∀ c ∈ cheats, c.Plain)
    (d : Device) :
    (Device.applyCheats o .vi d cheats).2.map Cheat.texts = cheats.map Cheat.texts ∧
      (Device.applyCheats o .vi d cheats).1.rdram.dram.byte a =
        (Patches.pass (d.rdram.dram.byte a) (cheats.map (cellGroup a))).1 ∧
      (Device.applyCheats o .vi d cheats).2.map (cellGroup a) =
        (Patches.pass (d.rdram.dram.byte a) (cheats.map (cellGroup a))).2 := by
  induction cheats generalizing d with
  | nil => exact ⟨rfl, rfl, rfl⟩
  | cons cheat cheats ih =>
    obtain ⟨-, htexts, hbyte, hgroup⟩ := applyCheat_vi o a d (h cheat List.mem_cons_self)
    obtain ⟨htexts', hbyte', hgroups⟩ := ih (fun c hc => h c (List.mem_cons_of_mem _ hc))
      (Device.applyCheat o .vi d cheat).1
    have hrun : Device.applyCheats o .vi d (cheat :: cheats) =
        ((Device.applyCheats o .vi (Device.applyCheat o .vi d cheat).1 cheats).1,
          (Device.applyCheat o .vi d cheat).2 ::
            (Device.applyCheats o .vi (Device.applyCheat o .vi d cheat).1 cheats).2) := rfl
    rw [hrun, List.map_cons, List.map_cons, List.map_cons, List.map_cons, Patches.pass, htexts,
      htexts', hbyte', hgroup, hgroups, hbyte]
    exact ⟨rfl, rfl, rfl⟩

/-- **A vertical interrupt is a pass** of the patches on every byte. -/
theorem cellOf_vi (o : Outside) (a : ℕ) {d : Device} (h : ∀ c ∈ d.cheats, c.Plain) :
    cellOf a (cheatStep d (.vi o)) = Patches.step (cellOf a d) .pass := by
  obtain ⟨-, hbyte, hgroups⟩ := applyCheats_vi o a h d
  exact Prod.ext hbyte hgroups

theorem texts_vi (o : Outside) {d : Device} (h : ∀ c ∈ d.cheats, c.Plain) :
    (cheatStep d (.vi o)).cheats.map Cheat.texts = d.cheats.map Cheat.texts :=
  (applyCheats_vi o 0 h d).1

theorem cellOf_disable (a : ℕ) (name : String) (d : Device) :
    cellOf a (cheatStep d (.disable name)) = Patches.step (cellOf a d) (.off name) := by
  refine Prod.ext rfl ?_
  show (cheatSetEnabled name false d.cheats).map (cellGroup a) =
    Patches.switchOff name (d.cheats.map (cellGroup a))
  induction d.cheats with
  | nil => rfl
  | cons cheat cheats ih =>
    rw [cheatSetEnabled, onCheat, List.map_cons, Patches.switchOff]
    have hkey : (cellGroup a cheat).key = cheat.name := rfl
    rw [hkey]
    split
    · rfl
    · rw [List.map_cons, ← ih]
      rfl

theorem texts_disable (name : String) (d : Device) :
    (cheatStep d (.disable name)).cheats.map Cheat.texts = d.cheats.map Cheat.texts := by
  show (cheatSetEnabled name false d.cheats).map Cheat.texts = _
  induction d.cheats with
  | nil => rfl
  | cons cheat cheats ih =>
    rw [cheatSetEnabled, onCheat]
    split
    · rfl
    · rw [List.map_cons, List.map_cons, ← ih]
      rfl

/-- No step changes what the codes of the cheats say. -/
theorem texts_step {d : Device} (h : ∀ c ∈ d.cheats, c.Plain) (s : CheatStep) :
    (cheatStep d s).cheats.map Cheat.texts = d.cheats.map Cheat.texts := by
  cases s with
  | vi o => exact texts_vi o h
  | disable name => exact texts_disable name d
  | guest a b => rfl

theorem plain_of_texts {cheats cheats' : List Cheat}
    (h : cheats'.map Cheat.texts = cheats.map Cheat.texts) (hp : ∀ c ∈ cheats, c.Plain) :
    ∀ c ∈ cheats', c.Plain := by
  intro c hc
  have hmem : c.texts ∈ cheats.map Cheat.texts := h ▸ List.mem_map_of_mem hc
  obtain ⟨x, hx, heq⟩ := List.mem_map.mp hmem
  rw [Cheat.plain_iff, ← heq, ← Cheat.plain_iff]
  exact hp x hx

theorem patched_of_texts {cheats cheats' : List Cheat}
    (h : cheats'.map Cheat.texts = cheats.map Cheat.texts) (a : ℕ) :
    Patched cheats' a ↔ Patched cheats a := by
  have hall : ∀ l : List Cheat, Patched l a ↔
      ∃ t ∈ l.map Cheat.texts, (t.filterMap fun t => codeByte t.1 t.2 a) ≠ [] := by
    intro l
    simp only [Patched, bytesWritten_texts, List.mem_map, exists_exists_and_eq_and]
  rw [hall, hall, h]

-- ════════════════════════════════════════════════════════════════════════
-- Runs on one byte
-- ════════════════════════════════════════════════════════════════════════

/-- A step as the patches of a byte see it. -/
def cellStep : CheatStep → Option (Patches.Step String)
  | .vi _ => some .pass
  | .disable name => some (.off name)
  | .guest _ _ => none

theorem cellOf_guest {a c : ℕ} (hne : a ≠ c) (b : BitVec 8) (d : Device) :
    cellOf a (cheatStep d (.guest c b)) = cellOf a d := by
  refine Prod.ext ?_ rfl
  show (d.rdram.dram.setByte c b).byte a = d.rdram.dram.byte a
  rw [Words.byte_setByte, if_neg hne]

/-- A run, on a byte the guest does not write. -/
theorem cellOf_run {a : ℕ} {steps : List CheatStep} (hguest : ∀ b, .guest a b ∉ steps)
    {d : Device} (h : ∀ c ∈ d.cheats, c.Plain) :
    cellOf a (Runs.runFrom cheatStep d steps) =
      Runs.runFrom Patches.step (cellOf a d) (steps.filterMap cellStep) := by
  induction steps generalizing d with
  | nil => rfl
  | cons s steps ih =>
    have hrest := ih (fun b hb => hguest b (List.mem_cons_of_mem _ hb))
      (plain_of_texts (texts_step h s) h)
    rw [Runs.runFrom_cons, hrest]
    cases s with
    | vi o =>
      rw [cellOf_vi o a h]
      rfl
    | disable name =>
      rw [cellOf_disable]
      rfl
    | guest c b =>
      have hne : a ≠ c := by
        rintro rfl
        exact hguest b List.mem_cons_self
      rw [cellOf_guest hne]
      rfl

theorem guestMemory_byte {a : ℕ} {m m' : Words} (h : m.byte a = m'.byte a)
    (steps : List CheatStep) : (guestMemory m steps).byte a = (guestMemory m' steps).byte a := by
  induction steps generalizing m m' with
  | nil => exact h
  | cons s steps ih =>
    cases s with
    | vi o => exact ih h
    | disable name => exact ih h
    | guest c b =>
      apply ih
      rw [Words.byte_setByte, Words.byte_setByte, h]

/-- The guest leaves alone a byte it does not write. -/
theorem guestMemory_kept {a : ℕ} {steps : List CheatStep} (hguest : ∀ b, .guest a b ∉ steps)
    (m : Words) : (guestMemory m steps).byte a = m.byte a := by
  induction steps generalizing m with
  | nil => rfl
  | cons s steps ih =>
    have hrest := ih fun b hb => hguest b (List.mem_cons_of_mem _ hb)
    cases s with
    | vi o => exact hrest m
    | disable name => exact hrest m
    | guest c b =>
      have hne : a ≠ c := by
        rintro rfl
        exact hguest b List.mem_cons_self
      rw [guestMemory, hrest, Words.byte_setByte, if_neg hne]

theorem cellGroup_values (a : ℕ) (cheat : Cheat) :
    Patches.values (cellGroup a cheat) = bytesWritten a cheat.codes := by
  rw [Patches.values, cellGroup, bytesWritten, List.map_filterMap]
  refine List.filterMap_congr fun code _ => ?_
  rw [cellPatch, Option.map_map]
  exact Option.map_id_apply

theorem cellGroup_empty {a : ℕ} {cheats : List Cheat} (h : ¬Patched cheats a) :
    ∀ g ∈ cheats.map (cellGroup a), g.patches = [] := by
  intro g hg
  obtain ⟨cheat, hcheat, rfl⟩ := List.mem_map.mp hg
  rw [← Patches.values_eq_nil, cellGroup_values]
  by_contra hne
  exact h ⟨cheat, hcheat, hne⟩

/-- A byte without a code is what the guest makes of it. -/
theorem byte_unpatched {a : ℕ} {d : Device} (h : ∀ c ∈ d.cheats, c.Plain)
    (hun : ¬Patched d.cheats a) (steps : List CheatStep) :
    (Runs.runFrom cheatStep d steps).rdram.dram.byte a =
      (guestMemory d.rdram.dram steps).byte a := by
  induction steps generalizing d with
  | nil => rfl
  | cons s steps ih =>
    have htexts := texts_step h s
    have hrest := ih (plain_of_texts htexts h)
      (fun hp => hun ((patched_of_texts htexts a).mp hp))
    rw [Runs.runFrom_cons, hrest]
    cases s with
    | vi o =>
      refine guestMemory_byte ?_ steps
      have hcell := congrArg Prod.fst (cellOf_vi o a h)
      exact hcell.trans (Patches.pass_empty (cellGroup_empty hun))
    | disable name => rfl
    | guest c b => rfl

-- ════════════════════════════════════════════════════════════════════════
-- Taking cheats back
-- ════════════════════════════════════════════════════════════════════════

/-- A cheat as `cheat_add_new` leaves it. -/
structure Cheat.New (cheat : Cheat) : Prop where
  enabled : cheat.enabled = true
  wasEnabled : cheat.wasEnabled = false
  codes : ∀ code ∈ cheat.codes, code.oldValue = cheatCodeMagicValue

theorem Cheat.New.fresh {cheat : Cheat} (h : cheat.New) (a : ℕ) :
    Patches.Fresh (cellGroup a cheat) where
  on := h.enabled
  was := h.wasEnabled
  saved p hp := by
    obtain ⟨code, hcode, hpatch⟩ := List.mem_filterMap.mp hp
    obtain ⟨v, -, rfl⟩ := Option.map_eq_some_iff.mp hpatch
    exact if_pos (h.codes code hcode)

/-- The order of undoing, byte by byte. -/
theorem undoOrder_iff (m : Words) (cheats : List Cheat) :
    UndoOrder m cheats ↔
      ∀ a, Patches.Reversible (m.byte a) (cheats.map (cellGroup a)) := by
  have hvalues : ∀ (a : ℕ) (l : List Cheat),
      (l.map (cellGroup a)).flatMap Patches.values = bytesWritten a (l.flatMap Cheat.codes) := by
    intro a l
    induction l with
    | nil => rfl
    | cons cheat l ih =>
      rw [List.map_cons, List.flatMap_cons, ih, cellGroup_values, List.flatMap_cons, bytesWritten,
        bytesWritten, bytesWritten, List.filterMap_append]
  have happend : ∀ (a : ℕ) (l r : List CheatCode),
      bytesWritten a (l ++ r) = bytesWritten a l ++ bytesWritten a r :=
    fun a l r => List.filterMap_append
  constructor
  · intro h a pre g post hgs hne
    obtain ⟨pre, rest, rfl, rfl, hrest⟩ := List.map_eq_append_iff.mp hgs
    obtain ⟨cheat, post, rfl, rfl, rfl⟩ := List.map_eq_cons_iff.mp hrest
    rw [cellGroup_values] at hne
    have hcheat := h a pre cheat post rfl hne
    rwa [happend, ← hvalues, ← cellGroup_values] at hcheat
  · intro h a pre cheat post hcheats hne
    have hgroup := h a (pre.map (cellGroup a)) (cellGroup a cheat) (post.map (cellGroup a))
      (by rw [hcheats, List.map_append, List.map_cons]) (by rwa [cellGroup_values])
    rw [happend, ← hvalues, ← cellGroup_values]
    exact hgroup

/-- A run of patches as a run of cheats. -/
def liftStep : Patches.Step String → CheatStep
  | .pass => .vi quietOutside
  | .off name => .disable name

theorem filterMap_liftStep (steps : List (Patches.Step String)) :
    (steps.map liftStep).filterMap cellStep = steps := by
  rw [List.filterMap_map]
  refine (List.filterMap_congr fun s _ => ?_).trans List.filterMap_some
  cases s <;> rfl

theorem guest_not_lifted (steps : List (Patches.Step String)) (a : ℕ) (b : BitVec 8) :
    .guest a b ∉ steps.map liftStep := by
  intro h
  obtain ⟨s, -, hs⟩ := List.mem_map.mp h
  cases s with
  | pass => cases hs
  | off name => cases hs

/-- All cheats are disabled exactly when the patches of a byte are all off. -/
theorem disabled_iff (a : ℕ) (d : Device) :
    (∀ cheat ∈ d.cheats, cheat.enabled = false) ↔ ∀ g ∈ (cellOf a d).2, g.on = false := by
  rw [cellOf, List.forall_mem_map]
  rfl

theorem undone_iff_restores {d : Device} (hplain : ∀ c ∈ d.cheats, c.Plain) :
    Undone d ↔ ∀ a, Patches.Restores (d.rdram.dram.byte a) (d.cheats.map (cellGroup a)) := by
  have hcons : ∀ (a : ℕ) (o : Outside) (steps : List CheatStep) (hguest : ∀ b, .guest a b ∉ steps),
      cellOf a (Runs.runFrom cheatStep d (.vi o :: steps)) =
        Runs.runFrom Patches.step (Patches.pass (d.rdram.dram.byte a) (d.cheats.map (cellGroup a)))
          (steps.filterMap cellStep) := by
    intro a o steps hguest
    have hguest' : ∀ b, .guest a b ∉ CheatStep.vi o :: steps := by
      intro b hb
      rcases List.mem_cons.mp hb with hb | hb
      · cases hb
      · exact hguest b hb
    rw [cellOf_run hguest' hplain]
    rfl
  have hlast : ∀ (a : ℕ) (o o' : Outside) (steps : List CheatStep),
      (Runs.runFrom cheatStep d (.vi o :: steps ++ [.vi o'])).rdram.dram.byte a =
        (Patches.step (cellOf a (Runs.runFrom cheatStep d (.vi o :: steps))) .pass).1 := by
    intro a o o' steps
    have htexts : ∀ t ∈ Runs.visited cheatStep d (.vi o :: steps), ∀ c ∈ t.cheats, c.Plain :=
      Runs.invariant_always (fun t s ht => plain_of_texts (texts_step ht s) ht) hplain
    rw [Runs.runFrom_append, Runs.runFrom_cons, Runs.runFrom_nil,
      ← cellOf_vi o' a (htexts _ (Runs.runFrom_mem_visited _ _ _))]
    rfl
  constructor
  · intro h a steps hoff
    have hcell := hcons a quietOutside (steps.map liftStep) (guest_not_lifted steps a)
    rw [filterMap_liftStep] at hcell
    rw [← hcell] at hoff ⊢
    rw [← hlast a quietOutside quietOutside, h quietOutside quietOutside (steps.map liftStep)
      (fun c b hb => absurd hb (guest_not_lifted steps c b)) ((disabled_iff a _).mpr hoff) a]
    exact guestMemory_kept (guest_not_lifted steps a) _
  · intro h o o' steps hguest hoff a
    by_cases hp : Patched d.cheats a
    · have hno : ∀ b, .guest a b ∉ steps := fun b hb => hguest a b hb hp
      have hcell := hcons a o steps hno
      rw [hlast, guestMemory_kept hno, hcell]
      refine h a (steps.filterMap cellStep) ?_
      rw [← hcell]
      exact (disabled_iff a _).mp hoff
    · rw [byte_unpatched hplain hp, List.cons_append, guestMemory]
      have hskip : ∀ (m : Words) (l : List CheatStep),
          guestMemory m (l ++ [.vi o']) = guestMemory m l := by
        intro m l
        induction l generalizing m with
        | nil => rfl
        | cons s l ih =>
          cases s with
          | vi o => exact ih m
          | disable name => exact ih m
          | guest c b => exact ih _
      rw [hskip]

/-- Cheats that are new and told apart by their names are undone exactly when their codes are in
    the order of undoing. -/
theorem undone_iff {d : Device} (hplain : ∀ c ∈ d.cheats, c.Plain) (hnew : ∀ c ∈ d.cheats, c.New)
    (hnames : (d.cheats.map Cheat.name).Nodup) :
    Undone d ↔ UndoOrder d.rdram.dram d.cheats := by
  rw [undone_iff_restores hplain, undoOrder_iff]
  refine forall_congr' fun a => Patches.restores_iff ?_ ?_
  · rw [List.map_map]
    exact hnames
  · intro g hg
    obtain ⟨cheat, hcheat, rfl⟩ := List.mem_map.mp hg
    exact (hnew cheat hcheat).fresh a

-- ════════════════════════════════════════════════════════════════════════
-- Cheats as they are added
-- ════════════════════════════════════════════════════════════════════════

/-- The cheats added one after the other to an empty list. -/
def cheatAdds (added : List (String × List (BitVec 32 × BitVec 32))) : List Cheat :=
  added.foldl cheatAddNew []

theorem mem_onCheat {name : String} {f : Cheat → Cheat} {cheats : List Cheat} {cheat : Cheat}
    (h : cheat ∈ onCheat name f cheats) : cheat ∈ cheats ∨ ∃ x ∈ cheats, cheat = f x := by
  induction cheats with
  | nil => exact .inl h
  | cons x cheats ih =>
    rw [onCheat] at h
    split at h
    · rcases List.mem_cons.mp h with rfl | h
      · exact .inr ⟨x, List.mem_cons_self, rfl⟩
      · exact .inl (List.mem_cons_of_mem _ h)
    · rcases List.mem_cons.mp h with rfl | h
      · exact .inl List.mem_cons_self
      · rcases ih h with h | ⟨y, hy, rfl⟩
        · exact .inl (List.mem_cons_of_mem _ h)
        · exact .inr ⟨y, List.mem_cons_of_mem _ hy, rfl⟩

theorem onCheat_names {name : String} {f : Cheat → Cheat} (hf : ∀ c, (f c).name = c.name)
    (cheats : List Cheat) : (onCheat name f cheats).map Cheat.name = cheats.map Cheat.name := by
  induction cheats with
  | nil => rfl
  | cons x cheats ih =>
    rw [onCheat]
    split
    · rw [List.map_cons, List.map_cons, hf]
    · rw [List.map_cons, List.map_cons, ih]

theorem onCheat_onCheat {name : String} {f g : Cheat → Cheat} (hf : ∀ c, (f c).name = c.name)
    (cheats : List Cheat) : onCheat name g (onCheat name f cheats) =
      onCheat name (fun c => g (f c)) cheats := by
  induction cheats with
  | nil => rfl
  | cons x cheats ih =>
    rw [onCheat, onCheat]
    split
    next h => rw [onCheat, if_pos ((hf x).trans h)]
    next h => rw [onCheat, if_neg h, ih]

theorem onCheat_append {name : String} {f : Cheat → Cheat} {cheats rest : List Cheat}
    (h : name ∉ cheats.map Cheat.name) :
    onCheat name f (cheats ++ rest) = cheats ++ onCheat name f rest := by
  induction cheats with
  | nil => rfl
  | cons x cheats ih =>
    rw [List.map_cons, List.mem_cons, not_or] at h
    rw [List.cons_append, onCheat, if_neg (fun heq => h.1 heq.symm), ih h.2, List.cons_append]

theorem patchCodes_old (incrAddr incrValue : BitVec 32) (n : ℕ) (addr value : BitVec 32) :
    ∀ code ∈ patchCodes incrAddr incrValue n addr value, code.oldValue = cheatCodeMagicValue := by
  induction n generalizing addr value with
  | zero => simp [patchCodes]
  | succ n ih =>
    intro code hcode
    rcases List.mem_cons.mp hcode with rfl | hcode
    · rfl
    · exact ih _ _ code hcode

theorem expandCodes_old (codes : List (BitVec 32 × BitVec 32)) :
    ∀ code ∈ expandCodes codes, code.oldValue = cheatCodeMagicValue := by
  induction codes using expandCodes.induct with
  | case1 => simp [expandCodes]
  | case2 code => simp [expandCodes, newCode]
  | case3 code next rest hpatch ih =>
    intro c hc
    rw [expandCodes, if_pos hpatch] at hc
    rcases List.mem_append.mp hc with hc | hc
    · exact patchCodes_old _ _ _ _ _ c hc
    · exact ih c hc
  | case4 code next rest hpatch ih =>
    intro c hc
    rw [expandCodes, if_neg hpatch] at hc
    rcases List.mem_cons.mp hc with rfl | hc
    · rfl
    · exact ih c hc

/-- A cheat is replaced by a new one under its name, or added at the end. -/
theorem cheatAddNew_spec {cheats : List Cheat} (new : String × List (BitVec 32 × BitVec 32))
    (hnew : ∀ c ∈ cheats, c.New) (hnames : (cheats.map Cheat.name).Nodup) :
    (∀ c ∈ cheatAddNew cheats new, c.New) ∧ ((cheatAddNew cheats new).map Cheat.name).Nodup := by
  have hcodes : ∀ name, Cheat.New ⟨name, true, false, [] ++ expandCodes new.2⟩ := fun name =>
    ⟨rfl, rfl, expandCodes_old new.2⟩
  unfold cheatAddNew findOrCreateCheat
  split
  next hmem =>
    rw [onCheat_onCheat
      (f := fun c => { c with enabled := false, wasEnabled := false, codes := [] }) fun _ => rfl]
    constructor
    · intro c hc
      rcases mem_onCheat hc with hc | ⟨x, -, rfl⟩
      · exact hnew c hc
      · exact hcodes x.name
    · rw [onCheat_names (f := fun c => ⟨c.name, true, false, [] ++ expandCodes new.2⟩) fun _ => rfl]
      exact hnames
  next hmem =>
    rw [onCheat_append hmem, onCheat, if_pos rfl]
    constructor
    · intro c hc
      rcases List.mem_append.mp hc with hc | hc
      · exact hnew c hc
      · rw [List.mem_singleton.mp hc]
        exact hcodes new.1
    · rw [List.map_append, List.nodup_append]
      refine ⟨hnames, List.nodup_singleton _, fun x hx y hy heq => hmem ?_⟩
      have hy' : y = new.1 := List.mem_singleton.mp hy
      rw [← hy', ← heq]
      exact hx

theorem cheatAdds_spec (added : List (String × List (BitVec 32 × BitVec 32))) :
    (∀ c ∈ cheatAdds added, c.New) ∧ ((cheatAdds added).map Cheat.name).Nodup := by
  have hfold : ∀ (added : List (String × List (BitVec 32 × BitVec 32))) (cheats : List Cheat),
      (∀ c ∈ cheats, c.New) → (cheats.map Cheat.name).Nodup →
        (∀ c ∈ added.foldl cheatAddNew cheats, c.New) ∧
          ((added.foldl cheatAddNew cheats).map Cheat.name).Nodup := by
    intro added
    induction added with
    | nil => exact fun _ hnew hnames => ⟨hnew, hnames⟩
    | cons new added ih =>
      intro cheats hnew hnames
      obtain ⟨hnew', hnames'⟩ := cheatAddNew_spec new hnew hnames
      exact ih _ hnew' hnames'
  exact hfold added [] (by simp) (by simp)

/-- Codes no two of which share a byte are in the order of undoing. -/
theorem undoOrder_of_apart {m : Words} {cheats : List Cheat}
    (h : ∀ a, (bytesWritten a (cheats.flatMap Cheat.codes)).length ≤ 1) : UndoOrder m cheats := by
  intro a pre cheat post hcheats hne
  have hall := h a
  rw [hcheats, List.flatMap_append, List.flatMap_cons, ← List.append_assoc, bytesWritten,
    List.filterMap_append, List.length_append] at hall
  have hnil : (bytesWritten a (pre.flatMap Cheat.codes ++ cheat.codes)).dropLast = [] := by
    apply List.eq_nil_of_length_eq_zero
    rw [List.length_dropLast, bytesWritten]
    omega
  rw [hnil]
  rfl

/-- **Cheats are undone, exactly**: whatever unconditional write codes are added and in whatever
    order the cheats are disabled later, the memory is restored exactly when, of the codes on each
    byte, the one before the last of each cheat puts the value the byte had. -/
theorem cheats_undone_iff (d : Device) (added : List (String × List (BitVec 32 × BitVec 32)))
    (hcodes : ∀ cheat ∈ cheatAdds added, cheat.Plain) :
    Undone { d with cheats := cheatAdds added } ↔ UndoOrder d.rdram.dram (cheatAdds added) := by
  obtain ⟨hnew, hnames⟩ := cheatAdds_spec added
  exact undone_iff (d := { d with cheats := cheatAdds added }) hcodes hnew hnames

/-- An 8-bit code and a 16-bit code, on different bytes. -/
def apartCheats : List (String × List (BitVec 32 × BitVec 32)) :=
  [("lives", [(0x80000100, 9)]), ("score", [(0x81000200, 0x1234)])]

theorem cheats_undone_apart :
    (∀ cheat ∈ cheatAdds apartCheats, cheat.Plain) ∧
      Undone { freshConsole with cheats := cheatAdds apartCheats } := by
  have hplain : ∀ cheat ∈ cheatAdds apartCheats, cheat.Plain := by
    unfold Cheat.Plain CheatCode.Unconditional
    decide
  refine ⟨hplain, (cheats_undone_iff freshConsole apartCheats hplain).mpr
    (undoOrder_of_apart fun a => ?_)⟩
  have hcodes : (cheatAdds apartCheats).flatMap Cheat.codes =
      [newCode (0x80000100, 9), newCode (0x81000200, 0x1234)] := by decide
  rw [hcodes]
  by_cases h : a = 0x100
  · subst h
    decide
  · have hlives : codeByte 0x80000100 9 a = none := if_neg h
    have hrest : bytesWritten a [newCode (0x80000100, 9), newCode (0x81000200, 0x1234)] =
        bytesWritten a [newCode (0x81000200, 0x1234)] := List.filterMap_cons_none hlives
    rw [hrest]
    exact List.length_filterMap_le _ _

/-- Two cheats on one byte: the second has saved what the first wrote, and puts it back last. -/
theorem cheats_not_undone :
    ¬∀ (d : Device) (added : List (String × List (BitVec 32 × BitVec 32))),
      (∀ cheat ∈ cheatAdds added, cheat.Plain) →
        Undone { d with cheats := cheatAdds added } := by
  intro h
  have hrun := h freshConsole [("one", [(0x80000100, 1)]), ("two", [(0x80000100, 2)])]
    (by
      unfold Cheat.Plain CheatCode.Unconditional
      decide)
    quietOutside quietOutside [.disable "one", .disable "two"] (by simp) (by decide) 0x100
  revert hrun
  decide

end Mupen64plus
