import Mupen64plus.Device.Pi

/-!
# Transfers from the cartridge bus

The length that `dma_pi_write` hands to the handler of a domain, and what the handler of the cart
ROM leaves in RDRAM.

## Main definitions

- `requestedLength`, `Device.unaligned` — what a transfer asks for, and what a start within a
  block of eight bytes takes off
- `PassesLength` — the handler and the completion event get the difference
- `CopiesRom` — RDRAM after a transfer from the cart ROM

## Main results

- `passesLength_iff` — a request shorter than what is taken off wraps, and no other does
- `copiesRom_iff` — the ROM is copied unless the sum of address and length wraps into the ROM
-/

namespace Mupen64plus

-- ════════════════════════════════════════════════════════════════════════
-- The length of a transfer
-- ════════════════════════════════════════════════════════════════════════

/-- The number of bytes a length register asks for: one more than its 24 bits, evened from 0x7f
    on. -/
def requestedLength (reg : BitVec 32) : ℕ :=
  let n := reg.toNat % 0x1000000 + 1
  if 0x7f ≤ n ∧ n % 2 = 1 then n + 1 else n

theorem requestedLength_le (reg : BitVec 32) : requestedLength reg ≤ 0x1000000 := by
  unfold requestedLength
  simp only
  split <;> omega

theorem toNat_low24 (reg : BitVec 32) :
    ((reg &&& 0x00ffffff) + 1).toNat = reg.toNat % 0x1000000 + 1 := by
  have hlow : (reg &&& 0x00ffffff).toNat = reg.toNat % 2 ^ 24 := by
    rw [BitVec.toNat_and]
    exact Nat.and_two_pow_sub_one_eq_mod reg.toNat 24
  rw [BitVec.toNat_add, hlow]
  exact Nat.mod_eq_of_lt (by change _ % 2 ^ 24 + 1 < _; omega)

namespace Device

theorem toNat_piLength (reg : BitVec 32) : (piLength reg).toNat = requestedLength reg := by
  have hodd (v : BitVec 32) : v &&& 1 ≠ 0 ↔ v.toNat % 2 = 1 := by
    have hone : (v &&& 1).toNat = v.toNat % 2 := by
      rw [BitVec.toNat_and]
      exact Nat.and_one_is_mod _
    rw [ne_eq, ← BitVec.toNat_inj, hone]
    change ¬v.toNat % 2 = 0 ↔ _
    omega
  have hlong : (0x7f : BitVec 32) ≤ (reg &&& 0x00ffffff) + 1 ↔
      0x7f ≤ reg.toNat % 0x1000000 + 1 := by
    rw [BitVec.le_def, toNat_low24]
    rfl
  unfold piLength requestedLength
  simp only [hodd, hlong, toNat_low24]
  split
  · rw [BitVec.toNat_add, toNat_low24]
    exact Nat.mod_eq_of_lt (by change _ + 1 + 1 < _; omega)
  · exact toNat_low24 reg

/-- What a start within a block of eight bytes takes off a short transfer. -/
def unaligned (d : Device) : ℕ :=
  if requestedLength (d.pi.regs .wrLen) ≤ 0x80 then d.piDramAddr.toNat % 8 else 0

/-- A transfer of `length` bytes to RDRAM, with its completion event. -/
def piWrite (o : Outside) (d : Device) (dom : PiDomain) (length : BitVec 32) : Device :=
  let (d, cycles) := piDmaWrite o d dom d.piDramAddr d.piCartAddr length
  d.piStarted length cycles

/-- A transfer to RDRAM goes through to a handler. -/
def piWrites (d : Device) : Bool := d.piIdle && (getPiDmaHandler d.piCartAddr).isSome

/-- The handler and the completion get what the transfer asks for, less what the start takes
    off. -/
def PassesLength (o : Outside) (d : Device) : Prop :=
  ∀ dom, d.piIdle = true → getPiDmaHandler d.piCartAddr = some dom →
    ∃ n : ℕ, (n : ℤ) = requestedLength (d.pi.regs .wrLen) - d.unaligned ∧ n ≤ 0x1000000 ∧
      dmaPiWrite o d = piWrite o d dom (BitVec.ofNat 32 n)

theorem dmaPiWrite_eq (o : Outside) {d : Device} {dom : PiDomain} (hidle : d.piIdle = true)
    (hdom : getPiDmaHandler d.piCartAddr = some dom) :
    dmaPiWrite o d = piWrite o d dom d.piWriteLength := by
  unfold dmaPiWrite piWrite
  rw [hidle, hdom]
  rfl

/-- The subtraction of `dma_pi_write`, where it does not wrap. -/
theorem piWriteLength_eq {d : Device} (h : d.unaligned ≤ requestedLength (d.pi.regs .wrLen)) :
    d.piWriteLength =
      BitVec.ofNat 32 (requestedLength (d.pi.regs .wrLen) - d.unaligned) := by
  have hreq := toNat_piLength (d.pi.regs .wrLen)
  have hbound := requestedLength_le (d.pi.regs .wrLen)
  have hlow : (d.piDramAddr &&& 0x7).toNat = d.piDramAddr.toNat % 8 := by
    rw [BitVec.toNat_and]
    exact Nat.and_two_pow_sub_one_eq_mod d.piDramAddr.toNat 3
  have hshort : piLength (d.pi.regs .wrLen) ≤ 0x80 ↔
      requestedLength (d.pi.regs .wrLen) ≤ 0x80 := by
    rw [BitVec.le_def, hreq]
    rfl
  unfold unaligned at h ⊢
  unfold piWriteLength
  simp only [hshort]
  apply BitVec.eq_of_toNat_eq
  split
  · next hle =>
    rw [if_pos hle] at h
    rw [BitVec.toNat_sub, hreq, hlow, BitVec.toNat_ofNat]
    omega
  · rw [hreq, BitVec.toNat_ofNat]
    omega

/-- **The length of a transfer** is passed on exact if and only if the request is not shorter than
    what its start takes off. -/
theorem passesLength_iff (o : Outside) (d : Device) :
    PassesLength o d ↔
      (d.piWrites = true → d.unaligned ≤ requestedLength (d.pi.regs .wrLen)) := by
  constructor
  · intro h hwrites
    rw [piWrites, Bool.and_eq_true, Option.isSome_iff_exists] at hwrites
    obtain ⟨hidle, dom, hdom⟩ := hwrites
    obtain ⟨n, hn, -⟩ := h dom hidle hdom
    omega
  · intro h dom hidle hdom
    have hwrites : d.piWrites = true := by
      rw [piWrites, hidle, hdom]
      rfl
    have hle := h hwrites
    have hbound := requestedLength_le (d.pi.regs .wrLen)
    refine ⟨requestedLength (d.pi.regs .wrLen) - d.unaligned, by omega, by omega, ?_⟩
    rw [← piWriteLength_eq hle]
    exact dmaPiWrite_eq o hidle hdom

/-- A console about to move one byte of the cart ROM to address 2. -/
def shortTransfer : Device :=
  let d := staticDevice (initR4300 .pureInterpreter 2 0 0xa4000040)
  (d.setPi .cartAddr 0x10000002).setPi .dramAddr 2

theorem shortTransfer_wraps :
    ¬∀ (o : Outside) (d : Device), PassesLength o d := by
  intro h
  obtain ⟨n, hn, -⟩ := h quietOutside shortTransfer .cartRom (by decide) (by decide)
  have hreq : requestedLength (shortTransfer.pi.regs .wrLen) = 1 := by decide
  have htwo : shortTransfer.unaligned = 2 := by decide
  omega

end Device

-- ════════════════════════════════════════════════════════════════════════
-- The cart ROM
-- ════════════════════════════════════════════════════════════════════════

/-- The byte at an address of the cart ROM, 0 behind its end. -/
def CartRom.byteAt (r : CartRom) (a : ℕ) : BitVec 8 := if a < r.romSize then r.rom.byte a else 0

/-- The address a transfer from the cart ROM starts at. -/
def cartRomStart (cartAddr : BitVec 32) : ℕ := (cartAddr &&& 0x03ffffff).toNat

theorem cartRomStart_lt (cartAddr : BitVec 32) : cartRomStart cartAddr < 2 ^ 26 := by
  have hmask : cartRomStart cartAddr = cartAddr.toNat % 2 ^ 26 := by
    unfold cartRomStart
    rw [BitVec.toNat_and]
    exact Nat.and_two_pow_sub_one_eq_mod cartAddr.toNat 26
  rw [hmask]
  exact Nat.mod_lt _ (by decide)

/-- The sum of address and length keeps its value, or wraps to what the comparison with the size of
    the ROM answers alike. -/
def RomSumFits (romSize : ℕ) (cartAddr length : BitVec 32) : Prop :=
  let stop := cartRomStart cartAddr + length.toNat
  stop < 2 ^ 32 ∨ stop ≤ romSize ∨ romSize + 2 ^ 32 ≤ stop

theorem toNat_romSum (cartAddr length : BitVec 32) :
    ((cartAddr &&& 0x03ffffff) + length).toNat =
      (cartRomStart cartAddr + length.toNat) % 2 ^ 32 := BitVec.toNat_add _ _

/-- Every byte a transfer stores, where the sum fits. -/
theorem Device.cartRomDmaByte_eq {r : CartRom} {cartAddr length : BitVec 32}
    (h : RomSumFits r.romSize cartAddr length) {i : ℕ} (hi : i < length.toNat) :
    cartRomDmaByte r (cartAddr &&& 0x03ffffff) length i =
      r.byteAt (cartRomStart cartAddr + i) := by
  have hsum := toNat_romSum cartAddr length
  have hstart := cartRomStart_lt cartAddr
  have hlen := length.isLt
  unfold cartRomDmaByte CartRom.byteAt
  rw [hsum]
  change (if _ ∨ i < r.romSize - cartRomStart cartAddr then
    r.rom.byte (cartRomStart cartAddr + i) else 0) = _
  refine if_congr ?_ rfl rfl
  unfold RomSumFits at h
  simp only at h
  omega

/-- RDRAM after a transfer: the bytes of the ROM in their place, 0 for those behind its end, and
    everything else as it was. -/
structure CopiesRom (d d' : Device) (dramAddr cartAddr length : BitVec 32) : Prop where
  copied : ∀ i < length.toNat,
    d'.rdram.dram.byte (dramAddr.toNat + i) =
      d.cart.cartRom.byteAt (cartRomStart cartAddr + i)
  kept : ∀ a, a < dramAddr.toNat ∨ dramAddr.toNat + length.toNat ≤ a →
    d'.rdram.dram.byte a = d.rdram.dram.byte a

namespace Device

theorem cartRomDmaWrite_dram (o : Outside) (d : Device) (dramAddr cartAddr length : BitVec 32) :
    (cartRomDmaWrite o d dramAddr cartAddr length).1.rdram.dram =
      d.rdram.dram.copyBytes dramAddr.toNat
        (cartRomDmaByte d.cart.cartRom (cartAddr &&& 0x03ffffff) length) length.toNat := by
  simp only [cartRomDmaWrite, invalidateBoth]
  rfl

/-- What a transfer leaves at one address. -/
theorem cartRomDmaWrite_byte (o : Outside) (d : Device) (dramAddr cartAddr length : BitVec 32)
    (a : ℕ) :
    (cartRomDmaWrite o d dramAddr cartAddr length).1.rdram.dram.byte a =
      if dramAddr.toNat ≤ a ∧ a < dramAddr.toNat + length.toNat then
        cartRomDmaByte d.cart.cartRom (cartAddr &&& 0x03ffffff) length (a - dramAddr.toNat)
      else d.rdram.dram.byte a := by
  rw [cartRomDmaWrite_dram, Words.byte_copyBytes]

theorem copiesRom_of_fits (o : Outside) (d : Device) {dramAddr cartAddr length : BitVec 32}
    (h : RomSumFits d.cart.cartRom.romSize cartAddr length) :
    CopiesRom d (cartRomDmaWrite o d dramAddr cartAddr length).1 dramAddr cartAddr length where
  copied := by
    intro i hi
    rw [cartRomDmaWrite_byte, if_pos (by omega), Nat.add_sub_cancel_left]
    exact cartRomDmaByte_eq h hi
  kept := by
    intro a ha
    rw [cartRomDmaWrite_byte, if_neg (by omega)]

/-- A console with memory behind its cart ROM that is not 0. -/
def nonzeroBehindRom (romSize : ℕ) : Device :=
  let d := staticDevice (initR4300 .pureInterpreter 2 0 0xa4000040)
  { d with cart := { d.cart with
    cartRom := { rom := fun _ => 0xffffffff, romSize := romSize, lastWrite := 0 } } }

theorem wordByte_allOnes (a : ℕ) : wordByte 0xffffffff a = 0xff := by
  have hall : ∀ r < 4, (0xffffffff : BitVec 32).extractLsb' (8 * (3 - r)) 8 = 0xff := by decide
  exact hall (a % 4) (Nat.mod_lt a (by decide))

/-- Where the sum wraps into the ROM, the comparison lets the copy run on behind its end. -/
theorem not_copiesRom_of_wrap (o : Outside) {romSize : ℕ} (dramAddr : BitVec 32)
    {cartAddr length : BitVec 32} (h : ¬RomSumFits romSize cartAddr length) :
    ¬CopiesRom (nonzeroBehindRom romSize)
      (cartRomDmaWrite o (nonzeroBehindRom romSize) dramAddr cartAddr length).1
      dramAddr cartAddr length := by
  rintro ⟨hcopied, -⟩
  have hsum := toNat_romSum cartAddr length
  have hstart := cartRomStart_lt cartAddr
  have hlen := length.isLt
  unfold RomSumFits at h
  simp only at h
  -- the first byte of the transfer that lies behind the end
  have hfirst : romSize - cartRomStart cartAddr < length.toNat := by omega
  have hbyte := hcopied (romSize - cartRomStart cartAddr) hfirst
  rw [cartRomDmaWrite_byte, if_pos (by omega), Nat.add_sub_cancel_left] at hbyte
  have hbehind : ¬cartRomStart cartAddr + (romSize - cartRomStart cartAddr) < romSize := by omega
  have hwrapped : ((cartAddr &&& 0x03ffffff) + length).toNat < romSize := by omega
  have hstored : cartRomDmaByte (nonzeroBehindRom romSize).cart.cartRom (cartAddr &&& 0x03ffffff)
      length (romSize - cartRomStart cartAddr) = 0xff := by
    exact (if_pos (Or.inl hwrapped)).trans (wordByte_allOnes _)
  have hzero : (nonzeroBehindRom romSize).cart.cartRom.byteAt
      (cartRomStart cartAddr + (romSize - cartRomStart cartAddr)) = 0 := if_neg hbehind
  rw [hstored, hzero] at hbyte
  exact absurd hbyte (by decide)

/-- **Transfers from the cart ROM**: whatever the memories hold, the bytes of the ROM arrive in
    RDRAM, 0 for those behind its end, exactly if the sum of address and length fits. -/
theorem copiesRom_iff (o : Outside) (romSize : ℕ) (dramAddr cartAddr length : BitVec 32) :
    (∀ d : Device, d.cart.cartRom.romSize = romSize →
      CopiesRom d (cartRomDmaWrite o d dramAddr cartAddr length).1 dramAddr cartAddr length) ↔
      RomSumFits romSize cartAddr length := by
  constructor
  · intro h
    by_contra hwrap
    exact not_copiesRom_of_wrap o dramAddr hwrap (h (nonzeroBehindRom romSize) rfl)
  · intro h d hsize
    exact copiesRom_of_fits o d (by rw [hsize]; exact h)

/-- A length of -1, as a one byte transfer to address 2 gets it, from the second byte of a ROM. -/
theorem copiesRom_wraps :
    ¬∀ (o : Outside) (d : Device) (dramAddr cartAddr length : BitVec 32),
      CopiesRom d (cartRomDmaWrite o d dramAddr cartAddr length).1 dramAddr cartAddr length := by
  intro h
  have hwrap : ¬RomSumFits 0x100000 0x10000002 0xffffffff := by
    have hstart : cartRomStart 0x10000002 = 2 := by decide
    unfold RomSumFits
    simp only [hstart]
    decide
  exact not_copiesRom_of_wrap quietOutside 2 hwrap (h _ _ _ _ _)

end Device

end Mupen64plus
