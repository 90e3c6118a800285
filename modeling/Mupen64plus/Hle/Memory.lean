import Mupen64plus.Device.Memory
import Mupen64plus.Lib.Flags

/-!
# Memories as the RSP plugin sees them

The HLE plugin keeps RDRAM, DMEM and IMEM as arrays of bytes in the order of a little-endian host:
a word is stored with its low byte first, and the byte or half-word at a guest address is found at
the address with its low bits flipped.

## Main definitions

- `Bytes.u8`, `Bytes.u16`, `Bytes.u32` — the accessors of `memory.h`
- `HleMemory` — the three memories
- `align`
-/

namespace Mupen64plus

namespace Bytes

/-- `*u8(buffer, address)`. -/
def u8 (m : Bytes) (address : ℕ) : BitVec 8 := m (address ^^^ 3)

/-- The half-word the host reads at an offset. -/
def half (m : Bytes) (offset : ℕ) : BitVec 16 := m (offset + 1) ++ m offset

/-- `*u16(buffer, address)`. -/
def u16 (m : Bytes) (address : ℕ) : BitVec 16 := m.half (address ^^^ 2)

/-- `*u32(buffer, address)`. -/
def u32 (m : Bytes) (address : ℕ) : BitVec 32 :=
  m (address + 3) ++ m (address + 2) ++ m (address + 1) ++ m address

end Bytes

/-- The memories of `struct hle_t`. -/
structure HleMemory where
  dram : Bytes
  dmem : Bytes
  imem : Bytes

namespace HleMemory

/-- `dmem_u32`, at an address below 0x1000. -/
def dmemU32 (m : HleMemory) (address : ℕ) : BitVec 32 := m.dmem.u32 address

/-- `dram_u32`. -/
def dramU32 (m : HleMemory) (address : BitVec 32) : BitVec 32 :=
  m.dram.u32 (address &&& 0xffffff#32).toNat

end HleMemory

/-- `align`. -/
def align (x amount : BitVec 32) : BitVec 32 := (x + (amount - 1)) &&& ~~~(amount - 1)

/-- `align` rounds up. -/
theorem toNat_align {x amount : BitVec 32} (k : ℕ) (hk : k ≤ 32) (hamount : amount.toNat = 2 ^ k)
    (hmask : (~~~(amount - 1)).toNat = 2 ^ k * (2 ^ (32 - k) - 1))
    (hx : x.toNat + (2 ^ k - 1) < 2 ^ 32) :
    (align x amount).toNat = 2 ^ k * ((x.toNat + (2 ^ k - 1)) / 2 ^ k) := by
  have hpos : 0 < 2 ^ k := Nat.two_pow_pos k
  have hlow : (amount - 1).toNat = 2 ^ k - 1 := by
    rw [BitVec.toNat_sub_of_le (by rw [BitVec.le_def, hamount]; exact hpos), hamount]
    rfl
  have hsum : (x + (amount - 1)).toNat = x.toNat + (2 ^ k - 1) := by
    rw [BitVec.toNat_add, hlow, Nat.mod_eq_of_lt hx]
  rw [align, BitVec.toNat_and, hsum, hmask, Flags.and_field, Nat.mod_eq_of_lt]
  refine Nat.div_lt_of_lt_mul ?_
  rwa [← Nat.pow_add, Nat.add_sub_cancel' hk]

end Mupen64plus
