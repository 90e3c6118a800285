import Mupen64plus.Lib.Runs
import Mupen64plus.Device.GbCart

/-!
# The banks of a Game Boy cartridge

The window at 0x4000 shows the ROM bank a controller selects, the window at 0xa000 a RAM bank. The
helpers that reach the storage take a 16-bit address, so the bank's start is lost above the fourth
ROM bank and the eighth RAM bank: those banks show the bytes of a lower one.

## Main definitions

- `GbBanked` — the windows show the selected banks
- `BanksApart` — two selections show different bytes of the storages
- `BanksLow` — no bank that exists is selected beyond the reach of 16 bits

## Main results

- `gbBanked_iff` — in one state
- `banking_iff` — along every sequence of accesses
-/

namespace Mupen64plus

-- ════════════════════
-- Runs of accesses
-- ════════════════════

/-- The controllers whose handlers do something. -/
def Mbc.handled : Mbc → Bool
  | .nombc | .mbc1 | .mbc2 | .mbc3 | .mbc5 | .pocketCam => true
  | .mbc6 | .mbc7 | .mmm01 | .bandaiTama5 | .huc1 | .huc3 => false

inductive GbAccess where
  | read (now : BitVec 64) (address : BitVec 16) (data : List (BitVec 8))
  | write (now : BitVec 64) (picture : Picture) (address : BitVec 16) (data : List (BitVec 8))

/-- The cartridge after an access; a call through a missing backend leaves it as it was. -/
def gbStep (c : GbCart) : GbAccess → GbCart
  | .read now address data => ((readGbCart now c address data).map Prod.snd).getD c
  | .write now picture address data => (writeGbCart now picture c address data).getD c

-- ════════════════════
-- What the windows show
-- ════════════════════

namespace GbCart

def withRom (c : GbCart) (rom : Bytes) : GbCart := { c with rom := rom }

/-- The cartridge with other bytes in its RAM. -/
def withRam (c : GbCart) (bytes : Bytes) : GbCart :=
  { c with ram := c.ram.map fun ram => ⟨ram.data.map fun _ => bytes, ram.size⟩ }

/-- The size of the RAM, 0 without one. -/
def ramSize (c : GbCart) : ℕ :=
  match c.ram with
  | some ⟨some _, size⟩ => size
  | _ => 0

/-- The window at 0xa000 shows RAM: it is enabled, and no clock or camera register is selected
    in its place. -/
def RamMapped (c : GbCart) : Prop :=
  (c.mbc = .nombc ∨ c.ramEnable ≠ 0) ∧ (c.mbc = .mbc3 → c.ramBank.toNat ≤ 0x07) ∧
    (c.mbc = .pocketCam → c.ramBank &&& 0x10 = 0)

/-- An MBC2 keeps four bits of each byte. -/
def ramMask (c : GbCart) : BitVec 8 := if c.mbc = .mbc2 then 0x0f else 0xff

/-- The byte of the ROM an address in the window at 0x4000 stands for. -/
def romIndex (c : GbCart) (address : BitVec 16) : ℕ :=
  (address.toNat - 0x4000) + c.romBank.toNat * 0x4000

/-- The byte of the RAM an address in the window at 0xa000 stands for. -/
def ramIndex (c : GbCart) (address : BitVec 16) : ℕ :=
  (address.toNat - 0xa000) + c.ramBank.toNat * 0x2000

/-- An access of `n` bytes that stays in the window at 0x4000 and in the ROM. -/
structure InRom (c : GbCart) (address : BitVec 16) (n : ℕ) : Prop where
  some : 0 < n
  first : 0x4000 ≤ address.toNat
  last : address.toNat + n ≤ 0x8000
  size : c.romIndex address + n ≤ c.romSize

/-- An access of `n` bytes that stays in the window at 0xa000 and in the RAM. -/
structure InRam (c : GbCart) (address : BitVec 16) (n : ℕ) : Prop where
  some : 0 < n
  first : 0xa000 ≤ address.toNat
  last : address.toNat + n ≤ 0xc000
  size : c.ramIndex address + n ≤ c.ramSize

end GbCart

/-- The windows show the selected banks, whatever the storages hold. -/
structure GbBanked (c : GbCart) : Prop where
  romRead : ∀ (rom : Bytes) (now : BitVec 64) (address : BitVec 16) (data : List (BitVec 8)),
    c.InRom address data.length →
      (readGbCart now (c.withRom rom) address data).map Prod.fst =
        some (rom.slice (c.romIndex address) data.length)
  ramRead : c.RamMapped → ∀ (bytes : Bytes) (now : BitVec 64) (address : BitVec 16)
    (data : List (BitVec 8)), c.InRam address data.length →
      (readGbCart now (c.withRam bytes) address data).map Prod.fst =
        some ((bytes.slice (c.ramIndex address) data.length).map (· &&& c.ramMask))
  ramWrite : c.RamMapped → ∀ (bytes : Bytes) (now : BitVec 64) (picture : Picture)
    (address : BitVec 16) (data : List (BitVec 8)), c.InRam address data.length →
      writeGbCart now picture (c.withRam bytes) address data =
        some (c.withRam (bytes.overwrite (c.ramIndex address) (data.map (· &&& c.ramMask))))
  lowBits : c.mbc = .mbc1 → c.romBank &&& 0x1f ≠ 0

/-- Different banks show different bytes: for any two bytes of their windows some contents of the
    storages tell the two apart. -/
structure BanksApart (c c' : GbCart) : Prop where
  rom : c.romBank ≠ c'.romBank → ∀ address address' : BitVec 16,
    c.InRom address 1 → c'.InRom address' 1 →
      ∃ rom : Bytes, ∀ now,
        (readGbCart now (c.withRom rom) address [0]).map Prod.fst ≠
          (readGbCart now (c'.withRom rom) address' [0]).map Prod.fst
  ram : c.ramBank ≠ c'.ramBank → c.RamMapped → c'.RamMapped → ∀ address address' : BitVec 16,
    c.InRam address 1 → c'.InRam address' 1 →
      ∃ bytes : Bytes, ∀ now,
        (readGbCart now (c.withRam bytes) address [0]).map Prod.fst ≠
          (readGbCart now (c'.withRam bytes) address' [0]).map Prod.fst

/-- A selected bank that exists starts within 16 bits. -/
structure BanksLow (c : GbCart) : Prop where
  rom : c.romBank.toNat * 0x4000 < c.romSize → c.romBank.toNat < 4
  ram : c.RamMapped → c.ramBank.toNat * 0x2000 < c.ramSize → c.ramBank.toNat < 8

-- ════════════════════
-- The registers a controller can hold
-- ════════════════════

/-- What the bank registers of each controller satisfy. -/
structure BankRegs (c : GbCart) : Prop where
  handled : c.mbc.handled = true
  nombc : c.mbc = .nombc → c.romBank = 1 ∧ c.ramBank = 0
  mbc1 : c.mbc = .mbc1 → c.romBank &&& 0x1f ≠ 0
  mbc2 : c.mbc = .mbc2 → c.ramBank = 0

theorem BankRegs.powerOn {c : GbCart} (h : c.mbc.handled = true) :
    BankRegs (Device.powerOnGbCart c) where
  handled := h
  nombc _ := ⟨rfl, rfl⟩
  mbc1 _ := by simp [Device.powerOnGbCart]
  mbc2 _ := rfl

/-- Neither the controller nor a bank register changes. -/
structure SameBanks (c c' : GbCart) : Prop where
  mbc : c'.mbc = c.mbc
  romBank : c'.romBank = c.romBank
  ramBank : c'.ramBank = c.ramBank

namespace SameBanks

@[refl] theorem refl (c : GbCart) : SameBanks c c := ⟨rfl, rfl, rfl⟩

theorem trans {a b c : GbCart} (h : SameBanks a b) (h' : SameBanks b c) : SameBanks a c :=
  ⟨h'.mbc.trans h.mbc, h'.romBank.trans h.romBank, h'.ramBank.trans h.ramBank⟩

theorem bankRegs {c c' : GbCart} (h : SameBanks c c') (hc : BankRegs c) : BankRegs c' where
  handled := by rw [h.mbc]; exact hc.handled
  nombc hm := by rw [h.romBank, h.ramBank]; exact hc.nombc (h.mbc ▸ hm)
  mbc1 hm := by rw [h.romBank]; exact hc.mbc1 (h.mbc ▸ hm)
  mbc2 hm := by rw [h.ramBank]; exact hc.mbc2 (h.mbc ▸ hm)

end SameBanks

theorem sameBanks_writeRam {c c' : GbCart} {enabled : BitVec 32} {address : BitVec 16}
    {data : List (BitVec 8)} {mask : BitVec 8}
    (h : writeRam c enabled address data mask = some c') : SameBanks c c' := by
  unfold writeRam at h
  split at h
  · cases h
    rfl
  · obtain ⟨ram, hram, h⟩ := Option.bind_eq_some_iff.mp h
    split at h
    · cases h
      rfl
    · split at h
      · cases h
        rfl
      · cases h
        exact ⟨rfl, rfl, rfl⟩

theorem sameBanks_writePocketCamRegs (picture : Picture) (c : GbCart) (reg : ℕ) (value : BitVec 8) :
    SameBanks c (writePocketCamRegs picture c reg value) := by
  unfold writePocketCamRegs
  split
  · dsimp only
    split
    · split
      · exact ⟨rfl, rfl, rfl⟩
      · exact ⟨rfl, rfl, rfl⟩
    · exact ⟨rfl, rfl, rfl⟩
  · rfl

theorem sameBanks_foldl_camRegs (picture : Picture) (reg : ℕ → ℕ) (data : List (BitVec 8 × ℕ))
    (c : GbCart) :
    SameBanks c (data.foldl (fun c b => writePocketCamRegs picture c (reg b.2) b.1) c) := by
  induction data generalizing c with
  | nil => rfl
  | cons b data ih => exact (sameBanks_writePocketCamRegs picture c _ _).trans (ih _)

theorem readBanked_snd {c : GbCart} {address : BitVec 16} {data : List (BitVec 8)} {r : GbRead}
    {out : List (BitVec 8) × GbCart} (hr : ∀ out ∈ r, SameBanks c out.2)
    (h : readBanked c address data r = some out) : SameBanks c out.2 := by
  unfold readBanked at h
  split at h
  all_goals first | exact hr out h | (cases h; rfl)

theorem sameBanks_map {c : GbCart} {r : Option (List (BitVec 8))} :
    ∀ out ∈ r.map (fun data => (data, c)), SameBanks c out.2 := by
  intro out h
  obtain ⟨data, _, rfl⟩ := Option.map_eq_some_iff.mp h
  rfl

/-- A read changes no bank register; that of an MBC3 may advance the clock. -/
theorem sameBanks_readGbCart {now : BitVec 64} {c : GbCart} {address : BitVec 16}
    {data : List (BitVec 8)} {out : List (BitVec 8) × GbCart}
    (h : readGbCart now c address data = some out) : SameBanks c out.2 := by
  unfold readGbCart at h
  split at h
  · unfold readGbCartNombc at h
    split at h
    all_goals first | exact sameBanks_map out h | (cases h; rfl)
  · exact readBanked_snd sameBanks_map h
  · exact readBanked_snd sameBanks_map h
  · refine readBanked_snd ?_ h
    intro out h
    split at h
    · exact sameBanks_map out h
    · split at h
      · split at h
        · cases h
          rfl
        · cases h
          exact ⟨rfl, rfl, rfl⟩
      · cases h
        rfl
  · exact readBanked_snd sameBanks_map h
  · refine readBanked_snd ?_ h
    intro out h
    split at h
    · cases h
      rfl
    · exact sameBanks_map out h
  all_goals
    cases h
    rfl

theorem sameBanks_writeGbCartNombc {c c' : GbCart} {address : BitVec 16} {data : List (BitVec 8)}
    (h : writeGbCartNombc c address data = some c') : SameBanks c c' := by
  unfold writeGbCartNombc at h
  split at h
  · exact sameBanks_writeRam h
  · cases h
    rfl

/-- The five bits written to the ROM bank register are never all clear. -/
theorem low5_ne_zero (romBank value : BitVec 32) :
    let bank := value &&& 0x1f
    ((romBank &&& ~~~0x1f) ||| (if bank = 0 then 1 else bank)) &&& 0x1f ≠ 0 := by
  have hclear : ~~~(0x1f : BitVec 32) &&& 0x1f = 0#32 := rfl
  dsimp only
  rw [BitVec.and_or_distrib_right, BitVec.and_assoc, hclear, BitVec.and_zero, BitVec.zero_or]
  split
  · decide
  · rwa [BitVec.and_assoc, BitVec.and_self]

theorem shift5_and_low5 (bank : BitVec 32) : bank <<< 5 &&& 0x1f = 0#32 := by
  ext i hi
  have hclear : 5 ≤ i → (0x1f : BitVec 32)[i] = false := by
    revert i
    decide
  by_cases h5 : i < 5
  · simp [h5]
  · have hi5 := hclear (by omega)
    rw [BitVec.getElem_and, hi5, Bool.and_false, BitVec.getElem_zero]

theorem writeGbCartMbc1_banks {c c' : GbCart} {address : BitVec 16} {data : List (BitVec 8)}
    (h : writeGbCartMbc1 c address data = some c') :
    c'.mbc = c.mbc ∧ (c.romBank &&& 0x1f ≠ 0 → c'.romBank &&& 0x1f ≠ 0) := by
  have hself : (0x1f : BitVec 32) &&& 0x1f = 0x1f := rfl
  unfold writeGbCartMbc1 at h
  dsimp only at h
  split at h
  · cases h
    exact ⟨rfl, id⟩
  · cases h
    exact ⟨rfl, fun _ => low5_ne_zero _ _⟩
  · split at h
    · cases h
      refine ⟨rfl, fun hlow => ?_⟩
      rw [BitVec.and_or_distrib_right, shift5_and_low5, BitVec.or_zero, BitVec.and_assoc]
      exact hlow
    · cases h
      exact ⟨rfl, id⟩
  · split at h
    · cases h
      exact ⟨rfl, id⟩
    · cases h
      refine ⟨rfl, fun hlow => ?_⟩
      rwa [BitVec.and_assoc, hself]
  · have hs := sameBanks_writeRam h
    exact ⟨hs.mbc, fun hlow => by rwa [hs.romBank]⟩
  · cases h
    exact ⟨rfl, id⟩

theorem writeGbCartMbc2_banks {c c' : GbCart} {address : BitVec 16} {data : List (BitVec 8)}
    (h : writeGbCartMbc2 c address data = some c') :
    c'.mbc = c.mbc ∧ c'.ramBank = c.ramBank := by
  unfold writeGbCartMbc2 at h
  dsimp only at h
  split at h
  · cases h
    split
    · exact ⟨rfl, rfl⟩
    · exact ⟨rfl, rfl⟩
  · cases h
    split
    · exact ⟨rfl, rfl⟩
    · exact ⟨rfl, rfl⟩
  · exact ⟨(sameBanks_writeRam h).mbc, (sameBanks_writeRam h).ramBank⟩
  · cases h
    exact ⟨rfl, rfl⟩

theorem writeGbCartMbc3_mbc {now : BitVec 64} {c c' : GbCart} {address : BitVec 16}
    {data : List (BitVec 8)} (h : writeGbCartMbc3 now c address data = some c') :
    c'.mbc = c.mbc := by
  unfold writeGbCartMbc3 at h
  dsimp only at h
  split at h
  · cases h
    rfl
  · cases h
    rfl
  · cases h
    rfl
  · cases h
    split <;> rfl
  · split at h
    · exact (sameBanks_writeRam h).mbc
    · split at h
      · split at h <;> cases h <;> rfl
      · cases h
        rfl
  · cases h
    rfl

theorem writeGbCartMbc5_mbc {c c' : GbCart} {address : BitVec 16} {data : List (BitVec 8)}
    (h : writeGbCartMbc5 c address data = some c') : c'.mbc = c.mbc := by
  unfold writeGbCartMbc5 at h
  dsimp only at h
  split at h
  · cases h
    rfl
  · split at h <;> cases h <;> rfl
  · cases h
    rfl
  · exact (sameBanks_writeRam h).mbc
  · cases h
    rfl

theorem writeGbCartPocketCam_mbc {picture : Picture} {c c' : GbCart} {address : BitVec 16}
    {data : List (BitVec 8)} (h : writeGbCartPocketCam picture c address data = some c') :
    c'.mbc = c.mbc := by
  unfold writeGbCartPocketCam at h
  dsimp only at h
  split at h
  · cases h
    rfl
  · cases h
    rfl
  · split at h <;> cases h <;> rfl
  · split at h
    · cases h
      exact (sameBanks_foldl_camRegs picture (fun i => (address.toNat + i) % 0x80) _ c).mbc
    · exact (sameBanks_writeRam h).mbc
  · cases h
    rfl

/-- Only the first three controllers have something to keep. -/
theorem BankRegs.of_mbc {c : GbCart} (h : c.mbc.handled = true) (hn : c.mbc ≠ .nombc)
    (h1 : c.mbc ≠ .mbc1) (h2 : c.mbc ≠ .mbc2) : BankRegs c where
  handled := h
  nombc hm := absurd hm hn
  mbc1 hm := absurd hm h1
  mbc2 hm := absurd hm h2

/-- A write keeps what the bank registers satisfy. -/
theorem BankRegs.write {now : BitVec 64} {picture : Picture} {c c' : GbCart}
    {address : BitVec 16} {data : List (BitVec 8)} (hc : BankRegs c)
    (h : writeGbCart now picture c address data = some c') : BankRegs c' := by
  have hhandled := hc.handled
  unfold writeGbCart at h
  split at h
  case h_1 hm => exact (sameBanks_writeGbCartNombc h).bankRegs hc
  case h_2 hm =>
    obtain ⟨hmbc, hlow⟩ := writeGbCartMbc1_banks h
    exact
      { handled := by rw [hmbc]; exact hhandled
        nombc := fun hn => by rw [hmbc, hm] at hn; cases hn
        mbc1 := fun _ => hlow (hc.mbc1 hm)
        mbc2 := fun hn => by rw [hmbc, hm] at hn; cases hn }
  case h_3 hm =>
    obtain ⟨hmbc, hram⟩ := writeGbCartMbc2_banks h
    exact
      { handled := by rw [hmbc]; exact hhandled
        nombc := fun hn => by rw [hmbc, hm] at hn; cases hn
        mbc1 := fun hn => by rw [hmbc, hm] at hn; cases hn
        mbc2 := fun _ => hram.trans (hc.mbc2 hm) }
  case h_4 hm =>
    have hmbc := (writeGbCartMbc3_mbc h).trans hm
    exact .of_mbc (by rw [hmbc]; rfl) (by simp [hmbc]) (by simp [hmbc]) (by simp [hmbc])
  case h_5 hm =>
    have hmbc := (writeGbCartMbc5_mbc h).trans hm
    exact .of_mbc (by rw [hmbc]; rfl) (by simp [hmbc]) (by simp [hmbc]) (by simp [hmbc])
  case h_6 hm =>
    have hmbc := (writeGbCartPocketCam_mbc h).trans hm
    exact .of_mbc (by rw [hmbc]; rfl) (by simp [hmbc]) (by simp [hmbc]) (by simp [hmbc])
  all_goals
    cases h
    exact hc

theorem BankRegs.step {c : GbCart} (hc : BankRegs c) (a : GbAccess) : BankRegs (gbStep c a) := by
  cases a with
  | read now address data =>
    rw [gbStep]
    cases h : readGbCart now c address data with
    | none => exact hc
    | some out => exact (sameBanks_readGbCart h).bankRegs hc
  | write now picture address data =>
    rw [gbStep]
    cases h : writeGbCart now picture c address data with
    | none => exact hc
    | some c' => exact hc.write h

-- ════════════════════
-- The addresses the storages are asked for
-- ════════════════════

theorem gbWindow_eq (address : BitVec 16) : gbWindow address = address.toNat / 0x2000 := by
  rw [gbWindow, BitVec.toNat_ushiftRight, Nat.shiftRight_eq_div_pow]

theorem gbWindow_rom {address : BitVec 16} (h : 0x4000 ≤ address.toNat)
    (h' : address.toNat < 0x8000) : gbWindow address = 2 ∨ gbWindow address = 3 := by
  rw [gbWindow_eq]
  omega

theorem gbWindow_ram {address : BitVec 16} (h : 0xa000 ≤ address.toNat)
    (h' : address.toNat < 0xc000) : gbWindow address = 5 := by
  rw [gbWindow_eq]
  omega

/-- The ROM is asked for the selected byte modulo 2^16. -/
theorem romBankAddress_eq {c : GbCart} {address : BitVec 16} (h : 0x4000 ≤ address.toNat) :
    romBankAddress c address = BitVec.ofNat 16 (c.romIndex address) := by
  apply BitVec.eq_of_toNat_eq
  have ha := address.isLt
  simp only [romBankAddress, GbCart.romIndex, BitVec.toNat_setWidth, BitVec.toNat_add,
    BitVec.toNat_sub, BitVec.toNat_mul, BitVec.toNat_ofNat]
  omega

theorem ramBankAddress_eq (bank : BitVec 32) {address : BitVec 16} (h : 0xa000 ≤ address.toNat) :
    ramBankAddress bank address =
      BitVec.ofNat 16 ((address.toNat - 0xa000) + bank.toNat * 0x2000) := by
  apply BitVec.eq_of_toNat_eq
  have ha := address.isLt
  simp only [ramBankAddress, BitVec.toNat_setWidth, BitVec.toNat_add,
    BitVec.toNat_sub, BitVec.toNat_mul, BitVec.toNat_ofNat]
  omega

/-- The three bits an MBC5 keeps of the bank are those that 16 bits leave. -/
theorem ramBankAddress_and7 {bank : BitVec 32} {address : BitVec 16}
    (h : 0xa000 ≤ address.toNat) :
    ramBankAddress (bank &&& 0x7#32) address =
      BitVec.ofNat 16 ((address.toNat - 0xa000) + bank.toNat * 0x2000) := by
  rw [ramBankAddress_eq _ h, BitVec.toNat_and, show (0x7#32).toNat = 2 ^ 3 - 1 from rfl,
    Nat.and_two_pow_sub_one_eq_mod]
  apply BitVec.eq_of_toNat_eq
  simp only [BitVec.toNat_ofNat]
  omega

theorem sub_window_eq {c : GbCart} {address : BitVec 16} (h : 0xa000 ≤ address.toNat)
    (hbank : c.ramBank = 0) : address - 0xa000#16 = BitVec.ofNat 16 (c.ramIndex address) := by
  apply BitVec.eq_of_toNat_eq
  have ha := address.isLt
  have h0 : (0 : BitVec 32).toNat = 0 := rfl
  simp only [GbCart.ramIndex, hbank, h0, BitVec.toNat_sub, BitVec.toNat_ofNat]
  omega

/-- A read in the window at 0x4000. -/
theorem readGbCart_rom {now : BitVec 64} {c : GbCart} {address : BitVec 16}
    {data : List (BitVec 8)} (hc : BankRegs c) (h : 0x4000 ≤ address.toNat)
    (h' : address.toNat < 0x8000) :
    readGbCart now c address data =
      some (readRom c (BitVec.ofNat 16 (c.romIndex address)) data, c) := by
  have hbanked : ∀ r, readBanked c address data r =
      some (readRom c (BitVec.ofNat 16 (c.romIndex address)) data, c) := by
    intro r
    rcases gbWindow_rom h h' with hw | hw
    · simp only [readBanked, hw, romBankAddress_eq h]
    · simp only [readBanked, hw, romBankAddress_eq h]
  have hhandled := hc.handled
  cases hm : c.mbc with
  | nombc =>
    have hself : BitVec.ofNat 16 (c.romIndex address) = address := by
      apply BitVec.eq_of_toNat_eq
      rw [BitVec.toNat_ofNat, GbCart.romIndex, (hc.nombc hm).1]
      have ha := address.isLt
      have h1 : (1 : BitVec 32).toNat = 1 := rfl
      omega
    rw [hself]
    rcases gbWindow_rom h h' with hw | hw
    · simp only [readGbCart, hm, readGbCartNombc, hw]
    · simp only [readGbCart, hm, readGbCartNombc, hw]
  | mbc1 => simp only [readGbCart, hm, readGbCartMbc1, hbanked]
  | mbc2 => simp only [readGbCart, hm, readGbCartMbc2, hbanked]
  | mbc3 => simp only [readGbCart, hm, readGbCartMbc3, hbanked]
  | mbc5 => simp only [readGbCart, hm, readGbCartMbc5, hbanked]
  | pocketCam => simp only [readGbCart, hm, readGbCartPocketCam, hbanked]
  | _ =>
    rw [hm] at hhandled
    cases hhandled

/-- A read in the window at 0xa000, where it shows RAM. -/
theorem readGbCart_ram (now : BitVec 64) {c : GbCart} {address : BitVec 16}
    (data : List (BitVec 8)) (hc : BankRegs c) (hmap : c.RamMapped) (h : 0xa000 ≤ address.toNat)
    (h' : address.toNat < 0xc000) :
    ∃ enabled ≠ 0, readGbCart now c address data =
      (readRam c enabled (BitVec.ofNat 16 (c.ramIndex address)) data c.ramMask).map (·, c) := by
  have hw := gbWindow_ram h h'
  have hbanked : ∀ r, readBanked c address data r = r := by
    intro r
    simp only [readBanked, hw]
  have haddr := ramBankAddress_eq c.ramBank h
  obtain ⟨henabled, hclock, hcam⟩ := hmap
  have hhandled := hc.handled
  cases hm : c.mbc with
  | nombc =>
    refine ⟨1, by decide, ?_⟩
    simp only [readGbCart, hm, readGbCartNombc, hw, sub_window_eq h (hc.nombc hm).2,
      GbCart.ramMask, reduceCtorEq, if_false]
  | mbc1 =>
    refine ⟨c.ramEnable, by simpa [hm] using henabled, ?_⟩
    simp only [readGbCart, hm, readGbCartMbc1, hbanked, haddr, GbCart.ramIndex, GbCart.ramMask,
      reduceCtorEq, if_false]
  | mbc2 =>
    refine ⟨c.ramEnable, by simpa [hm] using henabled, ?_⟩
    simp only [readGbCart, hm, readGbCartMbc2, hbanked, sub_window_eq h (hc.mbc2 hm),
      GbCart.ramMask, if_true]
  | mbc3 =>
    refine ⟨c.ramEnable, by simpa [hm] using henabled, ?_⟩
    simp only [readGbCart, hm, readGbCartMbc3, hbanked, haddr, GbCart.ramIndex, GbCart.ramMask,
      hclock hm, if_true, reduceCtorEq, if_false]
  | mbc5 =>
    refine ⟨c.ramEnable, by simpa [hm] using henabled, ?_⟩
    simp only [readGbCart, hm, readGbCartMbc5, hbanked, ramBankAddress_and7 h, GbCart.ramIndex,
      GbCart.ramMask, reduceCtorEq, if_false]
  | pocketCam =>
    refine ⟨1, by decide, ?_⟩
    simp only [readGbCart, hm, readGbCartPocketCam, hbanked, haddr, GbCart.ramIndex,
      GbCart.ramMask, hcam hm, ne_eq, not_true, reduceCtorEq, if_false]
  | _ =>
    rw [hm] at hhandled
    cases hhandled

/-- A write in the window at 0xa000, where it shows RAM. -/
theorem writeGbCart_ram (now : BitVec 64) (picture : Picture) {c : GbCart} {address : BitVec 16}
    (data : List (BitVec 8)) (hc : BankRegs c) (hmap : c.RamMapped) (h : 0xa000 ≤ address.toNat)
    (h' : address.toNat < 0xc000) :
    ∃ enabled ≠ 0, writeGbCart now picture c address data =
      writeRam c enabled (BitVec.ofNat 16 (c.ramIndex address)) data c.ramMask := by
  have hw := gbWindow_ram h h'
  have haddr := ramBankAddress_eq c.ramBank h
  obtain ⟨henabled, hclock, hcam⟩ := hmap
  have hhandled := hc.handled
  cases hm : c.mbc with
  | nombc =>
    refine ⟨1, by decide, ?_⟩
    simp only [writeGbCart, hm, writeGbCartNombc, hw, sub_window_eq h (hc.nombc hm).2,
      GbCart.ramMask, reduceCtorEq, if_false]
  | mbc1 =>
    refine ⟨c.ramEnable, by simpa [hm] using henabled, ?_⟩
    simp only [writeGbCart, hm, writeGbCartMbc1, hw, haddr, GbCart.ramIndex, GbCart.ramMask,
      reduceCtorEq, if_false]
  | mbc2 =>
    refine ⟨c.ramEnable, by simpa [hm] using henabled, ?_⟩
    simp only [writeGbCart, hm, writeGbCartMbc2, hw, sub_window_eq h (hc.mbc2 hm),
      GbCart.ramMask, if_true]
  | mbc3 =>
    refine ⟨c.ramEnable, by simpa [hm] using henabled, ?_⟩
    simp only [writeGbCart, hm, writeGbCartMbc3, hw, haddr, GbCart.ramIndex, GbCart.ramMask,
      hclock hm, if_true, reduceCtorEq, if_false]
  | mbc5 =>
    refine ⟨c.ramEnable, by simpa [hm] using henabled, ?_⟩
    simp only [writeGbCart, hm, writeGbCartMbc5, hw, ramBankAddress_and7 h, GbCart.ramIndex,
      GbCart.ramMask, reduceCtorEq, if_false]
  | pocketCam =>
    refine ⟨c.ramEnable, by simpa [hm] using henabled, ?_⟩
    simp only [writeGbCart, hm, writeGbCartPocketCam, hw, haddr, GbCart.ramIndex,
      GbCart.ramMask, hcam hm, ne_eq, not_true, reduceCtorEq, if_false]
  | _ =>
    rw [hm] at hhandled
    cases hhandled

-- ════════════════════
-- One state
-- ════════════════════

theorem ram_of_ramSize {c : GbCart} (h : 0 < c.ramSize) :
    ∃ bytes, c.ram = some ⟨some bytes, c.ramSize⟩ := by
  unfold GbCart.ramSize at h ⊢
  split at h
  next bytes size hram =>
    rw [hram]
    exact ⟨bytes, rfl⟩
  next => omega

theorem withRam_ram {c : GbCart} (h : 0 < c.ramSize) (bytes : Bytes) :
    (c.withRam bytes).ram = some ⟨some bytes, c.ramSize⟩ := by
  obtain ⟨old, hram⟩ := ram_of_ramSize h
  unfold GbCart.withRam
  rw [hram]
  rfl

theorem toNat_ofNat16 (n : ℕ) : (BitVec.ofNat 16 n).toNat = n % 0x10000 := BitVec.toNat_ofNat n 16

theorem readRom_ofNat {c : GbCart} {i : ℕ} {data : List (BitVec 8)}
    (h : i + data.length ≤ c.romSize) (hlow : i < 0x10000) :
    readRom c (BitVec.ofNat 16 i) data = c.rom.slice i data.length := by
  rw [readRom, toNat_ofNat16, Nat.mod_eq_of_lt hlow, if_neg (by omega)]

theorem readRam_ofNat {c : GbCart} {enabled : BitVec 32} {i size : ℕ} {bytes : Bytes}
    {data : List (BitVec 8)} {mask : BitVec 8} (henabled : enabled ≠ 0)
    (hram : c.ram = some ⟨some bytes, size⟩) (h : i % 0x10000 + data.length ≤ size) :
    readRam c enabled (BitVec.ofNat 16 i) data mask =
      some ((bytes.slice (i % 0x10000) data.length).map (· &&& mask)) := by
  rw [readRam, if_neg henabled, hram, toNat_ofNat16]
  simp only [Option.bind_eq_bind, Option.bind_some]
  rw [if_neg (by omega)]
  rfl

theorem writeRam_ofNat {c : GbCart} {enabled : BitVec 32} {i size : ℕ} {bytes : Bytes}
    {data : List (BitVec 8)} {mask : BitVec 8} (henabled : enabled ≠ 0)
    (hram : c.ram = some ⟨some bytes, size⟩) (h : i % 0x10000 + data.length ≤ size) :
    writeRam c enabled (BitVec.ofNat 16 i) data mask =
      some { c with
        ram := some ⟨some (bytes.overwrite (i % 0x10000) (data.map (· &&& mask))), size⟩ } := by
  rw [writeRam, if_neg henabled, hram, toNat_ofNat16]
  simp only [Option.bind_eq_bind, Option.bind_some]
  rw [if_neg (by omega)]
  rfl

theorem slice_one (m : Bytes) (start : ℕ) : m.slice start 1 = [m start] := by
  simp [Bytes.slice]

theorem withRom_romIndex (c : GbCart) (rom : Bytes) (address : BitVec 16) :
    (c.withRom rom).romIndex address = c.romIndex address := by
  rw [GbCart.romIndex, GbCart.romIndex, GbCart.withRom]

theorem withRam_ramIndex (c : GbCart) (bytes : Bytes) (address : BitVec 16) :
    (c.withRam bytes).ramIndex address = c.ramIndex address := by
  rw [GbCart.ramIndex, GbCart.ramIndex, GbCart.withRam]

theorem withRom_bankRegs {c : GbCart} (hc : BankRegs c) (rom : Bytes) :
    BankRegs (c.withRom rom) := SameBanks.bankRegs (c := c) ⟨rfl, rfl, rfl⟩ hc

theorem withRam_bankRegs {c : GbCart} (hc : BankRegs c) (bytes : Bytes) :
    BankRegs (c.withRam bytes) := SameBanks.bankRegs (c := c) ⟨rfl, rfl, rfl⟩ hc

/-- The byte the storage of the ROM answers for a selected one. -/
theorem readGbCart_rom_byte {c : GbCart} (hc : BankRegs c) (now : BitVec 64) (rom : Bytes)
    {address : BitVec 16} (hin : c.InRom address 1) :
    (readGbCart now (c.withRom rom) address [0]).map Prod.fst =
      some [rom (c.romIndex address % 0x10000)] := by
  have hlast := hin.last
  have hsize := hin.size
  have hromSize : (c.withRom rom).romSize = c.romSize := rfl
  rw [readGbCart_rom (withRom_bankRegs hc rom) hin.first (by omega), withRom_romIndex,
    Option.map_some, readRom, toNat_ofNat16, hromSize, List.length_singleton, if_neg (by omega),
    slice_one]
  rfl

/-- The byte the storage of the RAM answers for a selected one. -/
theorem readGbCart_ram_byte {c : GbCart} (hc : BankRegs c) (hmap : c.RamMapped) (now : BitVec 64)
    (bytes : Bytes) {address : BitVec 16} (hin : c.InRam address 1) :
    (readGbCart now (c.withRam bytes) address [0]).map Prod.fst =
      some [bytes (c.ramIndex address % 0x10000) &&& c.ramMask] := by
  have hlast := hin.last
  have hsize := hin.size
  have hram := withRam_ram (c := c) (by omega) bytes
  obtain ⟨enabled, henabled, hread⟩ := readGbCart_ram now [0]
    (withRam_bankRegs hc bytes) (show (c.withRam bytes).RamMapped from hmap) hin.first (by omega)
  rw [hread, withRam_ramIndex, readRam_ofNat henabled hram (by rw [List.length_singleton]; omega),
    List.length_singleton, slice_one]
  rfl

/-- **Banked exactly in reach**: the windows show the selected banks exactly when these start
    within 16 bits. -/
theorem gbBanked_iff {c : GbCart} (hc : BankRegs c) : GbBanked c ↔ BanksLow c := by
  constructor
  · intro h
    refine ⟨fun hexists => ?_, fun hmap hexists => ?_⟩
    · by_contra hhigh
      -- a ROM that is 1 at the start of the bank and 0 elsewhere
      have hin : c.InRom 0x4000 1 :=
        ⟨by decide, by decide, by decide, by
          rw [GbCart.romIndex, show (0x4000 : BitVec 16).toNat = 0x4000 from rfl]
          omega⟩
      have hclaim := h.romRead
        (fun k => if k = c.romIndex 0x4000 then 1 else 0) 0 0x4000 [0] hin
      have hcode := readGbCart_rom_byte hc 0
        (fun k => if k = c.romIndex 0x4000 then 1 else 0) hin
      have hne : c.romIndex 0x4000 % 0x10000 ≠ c.romIndex 0x4000 := by
        rw [GbCart.romIndex, show (0x4000 : BitVec 16).toNat = 0x4000 from rfl]
        omega
      rw [hclaim, if_neg hne] at hcode
      simp [Bytes.slice] at hcode
    · by_contra hhigh
      have hin : c.InRam 0xa000 1 :=
        ⟨by decide, by decide, by decide, by
          rw [GbCart.ramIndex, show (0xa000 : BitVec 16).toNat = 0xa000 from rfl]
          omega⟩
      have hclaim := h.ramRead hmap
        (fun k => if k = c.ramIndex 0xa000 then 1 else 0) 0 0xa000 [0] hin
      have hcode := readGbCart_ram_byte hc hmap 0
        (fun k => if k = c.ramIndex 0xa000 then 1 else 0) hin
      have hne : c.ramIndex 0xa000 % 0x10000 ≠ c.ramIndex 0xa000 := by
        rw [GbCart.ramIndex, show (0xa000 : BitVec 16).toNat = 0xa000 from rfl]
        omega
      rw [hclaim, if_neg hne] at hcode
      have hmask : c.ramMask = 0x0f ∨ c.ramMask = 0xff := by
        unfold GbCart.ramMask
        split
        · exact .inl rfl
        · exact .inr rfl
      rcases hmask with hmask | hmask
      · simp [Bytes.slice, hmask] at hcode
      · simp [Bytes.slice, hmask] at hcode
  · intro hlow
    refine ⟨?_, ?_, ?_, hc.mbc1⟩
    · intro rom now address data hin
      have hsome := hin.some
      have hlast := hin.last
      have hsize := hin.size
      have hbank := hlow.rom
      have hindex : c.romIndex address = (address.toNat - 0x4000) + c.romBank.toNat * 0x4000 := by
        rw [GbCart.romIndex]
      rw [readGbCart_rom (withRom_bankRegs hc rom) hin.first (by omega),
        withRom_romIndex, Option.map_some,
        readRom_ofNat (c := c.withRom rom) hsize (by omega)]
      rfl
    · intro hmap bytes now address data hin
      have hlast := hin.last
      have hsize := hin.size
      have hbank := hlow.ram hmap
      have hsome := hin.some
      have hram := withRam_ram (c := c) (by omega) bytes
      have hindex : c.ramIndex address = (address.toNat - 0xa000) + c.ramBank.toNat * 0x2000 := by
        rw [GbCart.ramIndex]
      have hreach : c.ramIndex address % 0x10000 = c.ramIndex address :=
        Nat.mod_eq_of_lt (by omega)
      obtain ⟨enabled, henabled, hread⟩ := readGbCart_ram now data
        (withRam_bankRegs hc bytes) (show (c.withRam bytes).RamMapped from hmap) hin.first
        (by omega)
      rw [hread, withRam_ramIndex,
        readRam_ofNat henabled hram (by omega), hreach]
      rfl
    · intro hmap bytes now picture address data hin
      have hlast := hin.last
      have hsize := hin.size
      have hbank := hlow.ram hmap
      have hsome := hin.some
      have hram := withRam_ram (c := c) (by omega) bytes
      have hindex : c.ramIndex address = (address.toNat - 0xa000) + c.ramBank.toNat * 0x2000 := by
        rw [GbCart.ramIndex]
      have hreach : c.ramIndex address % 0x10000 = c.ramIndex address :=
        Nat.mod_eq_of_lt (by omega)
      obtain ⟨enabled, henabled, hwrite⟩ := writeGbCart_ram now picture
        data (withRam_bankRegs hc bytes)
        (show (c.withRam bytes).RamMapped from hmap) hin.first (by omega)
      rw [hwrite, withRam_ramIndex,
        writeRam_ofNat henabled hram (by omega), hreach]
      obtain ⟨old, hold⟩ := ram_of_ramSize (c := c) (by omega)
      rw [GbCart.withRam, GbCart.withRam, hold]
      rfl

-- ════════════════════
-- Every sequence of accesses
-- ════════════════════

/-- Bytes of different banks are different bytes of the storage. -/
theorem romIndex_ne {c c' : GbCart} {address address' : BitVec 16} (hne : c.romBank ≠ c'.romBank)
    (h : c.InRom address 1) (h' : c'.InRom address' 1) :
    c.romIndex address ≠ c'.romIndex address' := by
  have hbank : c.romBank.toNat ≠ c'.romBank.toNat := fun heq => hne (BitVec.eq_of_toNat_eq heq)
  have hlast := h.last
  have hlast' := h'.last
  rw [GbCart.romIndex, GbCart.romIndex]
  omega

theorem ramIndex_ne {c c' : GbCart} {address address' : BitVec 16} (hne : c.ramBank ≠ c'.ramBank)
    (h : c.InRam address 1) (h' : c'.InRam address' 1) :
    c.ramIndex address ≠ c'.ramIndex address' := by
  have hbank : c.ramBank.toNat ≠ c'.ramBank.toNat := fun heq => hne (BitVec.eq_of_toNat_eq heq)
  have hlast := h.last
  have hlast' := h'.last
  rw [GbCart.ramIndex, GbCart.ramIndex]
  omega

theorem one_and_ramMask (c : GbCart) : (1 : BitVec 8) &&& c.ramMask = 1 := by
  unfold GbCart.ramMask
  split
  · rfl
  · rfl

/-- Two selections whose windows show the selected banks show different bytes. -/
theorem GbBanked.apart {c c' : GbCart} (h : GbBanked c) (h' : GbBanked c') : BanksApart c c' where
  rom hne address address' hin hin' := by
    refine ⟨fun k => if k = c.romIndex address then 1 else 0, fun now => ?_⟩
    have hother := (romIndex_ne hne hin hin').symm
    rw [h.romRead _ now address [0] hin, h'.romRead _ now address' [0] hin',
      List.length_singleton, slice_one, slice_one, if_pos rfl, if_neg hother]
    simp
  ram hne hmap hmap' address address' hin hin' := by
    refine ⟨fun k => if k = c.ramIndex address then 1 else 0, fun now => ?_⟩
    have hother := (ramIndex_ne hne hin hin').symm
    rw [h.ramRead hmap _ now address [0] hin, h'.ramRead hmap' _ now address' [0] hin',
      List.length_singleton, slice_one, slice_one, if_pos rfl, if_neg hother, List.map_singleton,
      List.map_singleton, one_and_ramMask]
    simp

/-- **Game Boy banking, exactly**: along every sequence of accesses to a powered-on cartridge, the
    windows show the selected banks and no two banks share a byte exactly when no bank that exists
    is selected beyond the reach of 16 bits. -/
theorem banking_iff {c : GbCart} (hmbc : c.mbc.handled = true) (accesses : List GbAccess) :
    ((∀ t ∈ Runs.visited gbStep (Device.powerOnGbCart c) accesses, GbBanked t) ∧
      ∀ t ∈ Runs.visited gbStep (Device.powerOnGbCart c) accesses,
        ∀ t' ∈ Runs.visited gbStep (Device.powerOnGbCart c) accesses, BanksApart t t') ↔
    ∀ t ∈ Runs.visited gbStep (Device.powerOnGbCart c) accesses, BanksLow t := by
  have hregs : ∀ t ∈ Runs.visited gbStep (Device.powerOnGbCart c) accesses, BankRegs t :=
    Runs.invariant_always (fun t a ht => ht.step a) (BankRegs.powerOn hmbc)
  constructor
  · intro h t ht
    exact (gbBanked_iff (hregs t ht)).mp (h.1 t ht)
  · intro h
    have hbanked : ∀ t ∈ Runs.visited gbStep (Device.powerOnGbCart c) accesses, GbBanked t :=
      fun t ht => (gbBanked_iff (hregs t ht)).mpr (h t ht)
    exact ⟨hbanked, fun t ht t' ht' => (hbanked t ht).apart (hbanked t' ht')⟩

/-- An MBC5 with 128 KiB of ROM and 32 KiB of RAM. -/
def mbc5Cart : GbCart where
  mbc := .mbc5
  rom := fun _ => 0
  romSize := 0x20000
  ram := some ⟨some fun _ => 0, 0x8000⟩
  hasRtc := false
  hasCamera := false
  romBank := 0
  ramBank := 0
  ramEnable := 0
  mbc1Mode := 0
  rtc := ⟨fun _ => 0, 0, fun _ => 0, 0⟩
  camRegs := fun _ => 0

/-- Enable the RAM, then select ROM bank 3 and RAM bank 2. -/
def lowBankAccesses : List GbAccess :=
  [.write 0 (fun _ _ => 0) 0x0000 [0x0a], .write 0 (fun _ _ => 0) 0x2000 [3],
    .write 0 (fun _ _ => 0) 0x4000 [2]]

theorem banking_low :
    mbc5Cart.mbc.handled = true ∧
    (∀ t ∈ Runs.visited gbStep (Device.powerOnGbCart mbc5Cart) lowBankAccesses, GbBanked t) ∧
      ∀ t ∈ Runs.visited gbStep (Device.powerOnGbCart mbc5Cart) lowBankAccesses,
        ∀ t' ∈ Runs.visited gbStep (Device.powerOnGbCart mbc5Cart) lowBankAccesses,
          BanksApart t t' :=
  ⟨rfl, (banking_iff rfl lowBankAccesses).mpr (by
    intro t ht
    simp only [lowBankAccesses, Runs.visited, List.mem_cons, List.not_mem_nil, or_false] at ht
    rcases ht with rfl | rfl | rfl | rfl
    · exact ⟨fun _ => by decide, fun _ _ => by decide⟩
    · exact ⟨fun _ => by decide, fun _ _ => by decide⟩
    · exact ⟨fun _ => by decide, fun _ _ => by decide⟩
    · exact ⟨fun _ => by decide, fun _ _ => by decide⟩)⟩

/-- Bank 4 of the 128 KiB ROM is selected, and the window shows bank 0. -/
theorem banking_aliased :
    ¬∀ c : GbCart, c.mbc.handled = true → ∀ accesses : List GbAccess,
      (∀ t ∈ Runs.visited gbStep (Device.powerOnGbCart c) accesses, GbBanked t) ∧
        ∀ t ∈ Runs.visited gbStep (Device.powerOnGbCart c) accesses,
          ∀ t' ∈ Runs.visited gbStep (Device.powerOnGbCart c) accesses, BanksApart t t' := by
  intro h
  have hrun := (h mbc5Cart rfl [.write 0 (fun _ _ => 0) 0x2000 [4]]).1 _
    (Runs.runFrom_mem_visited _ _ _)
  have hread := hrun.romRead (fun k => if k < 0x4000 then 0xff else 0) 0 0x4000 [0]
    ⟨by decide, by decide, by decide, by decide⟩
  revert hread
  decide

end Mupen64plus
