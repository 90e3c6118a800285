import Mupen64plus.Lib.Flags
import Mupen64plus.R4300.LoadStore

/-!
# Accesses to RDRAM

What the accesses to words and double words do where the address lies in RDRAM, in an unmapped
segment or in a mapped page: no exception is raised, and the bytes of a unit are read, or written
under a mask.

## Main definitions

- `Machine.ramByte` — the byte of RDRAM behind an address
- `Machine.HoldsUnit` — a unit has the bytes of RDRAM

## Main results

- `Machine.readAlignedWord_ram`, `Machine.writeAlignedWord_ram`, and those of double words
- `Machine.byte_write`, `Machine.byte_writeDword`
-/

namespace Mupen64plus

open BigEndian
open Flags (and_field)

/-- A double word written under a mask, at the index of its first word. -/
def Words.writeDword (m : Words) (i : ℕ) (value mask : BitVec 64) : Words :=
  (m.write i ((value >>> 32).setWidth 32) ((mask >>> 32).setWidth 32)).write (i + 1)
    (value.setWidth 32) (mask.setWidth 32)

namespace Machine

variable {M : Type}

/-- The physical address of an access that raises no exception. -/
def physical (r : R4300) (w : Access) (a : BitVec 32) : Option (BitVec 32) :=
  if isUnmapped a then some a else r.cp0.tlb.lookup a w

/-- The byte of RDRAM behind an address. A mapped page has bit 31 set in its physical address, so
    that page zero of the physical addresses stands for no mapping. -/
def ramByte (m : Machine M) (w : Access) (a : BitVec 32) : Option ℕ :=
  (physical m.core w a).bind fun p =>
    if 0x1000 ≤ p.toNat ∧ p.toNat % 0x20000000 < m.dramSize then some (p.toNat % 0x20000000)
    else none

/-- A translation depends only on the page. -/
theorem physical_page {r : R4300} {w : Access} {a p : BitVec 32} (h : physical r w a = some p) :
    p.toNat % 0x1000 = a.toNat % 0x1000 ∧ ∀ b : BitVec 32, b.toNat / 0x1000 = a.toNat / 0x1000 →
      ∃ q, physical r w b = some q ∧ q.toNat / 0x1000 = p.toNat / 0x1000 ∧
        q.toNat % 0x1000 = b.toNat % 0x1000 := by
  have hsegment : ∀ b : BitVec 32, isUnmapped b = true ↔ b.toNat / 0x40000000 = 2 := by
    intro b
    have hlt := b.isLt
    have hmask : (b &&& 0xc0000000).toNat = 0x40000000 * (b.toNat / 0x40000000 % 4) :=
      (BitVec.toNat_and _ _).trans (and_field _ 30 2)
    rw [isUnmapped, beq_iff_eq, ← BitVec.toNat_inj, hmask]
    show _ = 0x80000000 ↔ _
    omega
  have hentry : ∀ (word b : BitVec 32), ((word &&& 0xFFFFF000) ||| (b &&& 0xFFF)).toNat =
      0x1000 * (word.toNat / 0x1000) + b.toNat % 0x1000 := by
    intro word b
    have hlt := word.isLt
    have hhigh : (word &&& 0xFFFFF000).toNat = 2 ^ 12 * (word.toNat / 0x1000) := by
      refine ((BitVec.toNat_and _ _).trans (and_field _ 12 20)).trans ?_
      omega
    have hlow : (b &&& 0xFFF).toNat = b.toNat % 0x1000 :=
      Flags.toNat_and_low 12 rfl
    rw [BitVec.toNat_or, hhigh, hlow, ← Nat.two_pow_add_eq_or_of_lt (Nat.mod_lt _ (by decide))]
  have hlookup : ∃ word : Page → BitVec 32, ∀ b, r.cp0.tlb.lookup b w =
      if word (pageOf b) ≠ 0 then some ((word (pageOf b) &&& 0xFFFFF000) ||| (b &&& 0xFFF))
      else none := by
    cases w with
    | read => exact ⟨r.cp0.tlb.lutR, fun _ => rfl⟩
    | write => exact ⟨r.cp0.tlb.lutW, fun _ => rfl⟩
    | fetch => exact ⟨r.cp0.tlb.lutR, fun _ => rfl⟩
  obtain ⟨word, hlookup⟩ := hlookup
  unfold physical at h ⊢
  split at h
  next hunmapped =>
    obtain rfl := Option.some.inj h
    refine ⟨rfl, fun b hb => ⟨b, ?_, hb, rfl⟩⟩
    rw [if_pos]
    rw [hsegment] at hunmapped ⊢
    omega
  next hmapped =>
    rw [hlookup] at h
    split at h
    next hword =>
      obtain rfl := Option.some.inj h
      refine ⟨by rw [hentry]; omega, fun b hb => ?_⟩
      have hpage : pageOf b = pageOf a := by
        apply BitVec.eq_of_toNat_eq
        rw [pageOf_toNat, pageOf_toNat]
        exact hb
      have hmapped' : ¬isUnmapped b = true := by
        rw [hsegment] at hmapped ⊢
        omega
      rw [if_neg hmapped', hlookup, hpage, if_pos hword]
      refine ⟨_, rfl, ?_, ?_⟩
      · rw [hentry, hentry]
        omega
      · rw [hentry]
        omega
    next => cases h

/-- The bytes of RDRAM behind addresses of one page. -/
theorem ramByte_page {m : Machine M} {w : Access} {a : BitVec 32} {q : ℕ}
    (h : m.ramByte w a = some q) : q % 0x1000 = a.toNat % 0x1000 ∧ q < m.dramSize ∧
      (∀ b q', b.toNat / 0x1000 = a.toNat / 0x1000 → m.ramByte w b = some q' →
        q' / 0x1000 = q / 0x1000) := by
  obtain ⟨p, hp, hq⟩ := Option.bind_eq_some_iff.mp h
  obtain ⟨hoffset, hpage⟩ := physical_page hp
  split at hq
  next hin =>
    obtain rfl := Option.some.inj hq
    refine ⟨by omega, hin.2, fun b q' hb hq' => ?_⟩
    obtain ⟨p', hp', hframe, hoffset'⟩ := hpage b hb
    rw [ramByte, hp', Option.bind_some] at hq'
    split at hq'
    next =>
      obtain rfl := Option.some.inj hq'
      omega
    next => cases hq'
  next => cases hq

theorem translate_ram {m : Machine M} {w : Access} {a : BitVec 32} {q : ℕ}
    (h : m.ramByte w a = some q) : ∃ p, m.translate a w = (some p, m) ∧ 0x1000 ≤ p.toNat ∧
      p.toNat % 0x20000000 = q ∧ q < m.dramSize := by
  obtain ⟨p, hp, hq⟩ := Option.bind_eq_some_iff.mp h
  split at hq
  next hin =>
    obtain rfl := Option.some.inj hq
    refine ⟨p, ?_, hin.1, rfl, hin.2⟩
    unfold physical at hp
    unfold translate
    split at hp
    next hunmapped =>
      rw [if_pos hunmapped, Option.some.inj hp]
    next hmapped =>
      rw [if_neg hmapped, virtualToPhysicalAddress, hp]
      have hne : p ≠ 0 := by
        rintro rfl
        exact absurd hin.1 (by decide)
      simp only
      rw [if_neg hne]
  next => cases hq

/-- The start of the unit of an address. -/
theorem ramByte_align {m : Machine M} {w : Access} {a b : BitVec 32} {q size : ℕ}
    (hsize : size = 4 ∨ size = 8) (h : m.ramByte w a = some q)
    (hb : b.toNat = a.toNat / size * size) : m.ramByte w b = some (q / size * size) := by
  obtain ⟨p, hp, hq⟩ := Option.bind_eq_some_iff.mp h
  obtain ⟨hoffset, hpage⟩ := physical_page hp
  split at hq
  next hin =>
    obtain rfl := Option.some.inj hq
    obtain ⟨p', hp', hframe, hoffset'⟩ := hpage b (by rcases hsize with rfl | rfl <;> omega)
    have hplace : p'.toNat % 0x20000000 = p.toNat % 0x20000000 / size * size := by
      rcases hsize with rfl | rfl <;> omega
    rw [ramByte, hp', Option.bind_some, hplace, if_pos]
    rcases hsize with rfl | rfl <;> omega
  next => cases hq

theorem dramSize_le (m : Machine M) : m.dramSize ≤ 0x800000 ∧ m.dramSize % 8 = 0 := by
  have hcases := m.dramSize_cases
  omega

/-- The index of a word of RDRAM, and the handler of its address. -/
theorem ram_index {m : Machine M} {p : BitVec 32} (h : p.toNat % 0x20000000 < m.dramSize) :
    (p &&& 0x1ffffffc).toNat = 4 * (p.toNat % 0x20000000 / 4) ∧
      (p &&& 0x1ffffffc).toNat < mmRdramEnd ∧ (p &&& 0x1ffffffc) &&& ~~~3 = p &&& 0x1ffffffc := by
  have hsize := m.dramSize_le
  have hmask : (p &&& 0x1ffffffc).toNat = 4 * (p.toNat % 0x20000000 / 4) := by
    refine ((BitVec.toNat_and _ _).trans (and_field _ 2 27)).trans ?_
    omega
  refine ⟨hmask, ?_, BitVec.and_assoc _ _ _⟩
  rw [hmask, mmRdramEnd]
  omega

theorem rdramDramAddress_toNat {a : BitVec 32} (h : a.toNat < 0x1000000) :
    rdramDramAddress a = a.toNat / 4 := by
  have hmask : (a &&& 0xffffff).toNat = a.toNat % 0x1000000 :=
    Flags.toNat_and_low 24 rfl
  rw [rdramDramAddress, BitVec.toNat_ushiftRight, hmask, Nat.shiftRight_eq_div_pow]
  omega

theorem memRead32_ram (o : OtherRegions M) {m : Machine M} {handler address : BitVec 32}
    (hregion : handler.toNat < mmRdramEnd) (h : address.toNat < m.dramSize) :
    m.memRead32 o handler address = (m.dram (address.toNat / 4), m) := by
  have hsize := m.dramSize_le
  rw [memRead32, if_pos hregion, readRdramDram, if_pos h, rdramDramAddress_toNat (by omega)]

theorem memWrite32_ram (o : OtherRegions M) {m : Machine M} {handler address : BitVec 32}
    (value mask : BitVec 32) (hregion : handler.toNat < mmRdramEnd)
    (h : address.toNat < m.dramSize) : m.memWrite32 o handler address value mask =
      { m with dram := m.dram.write (address.toNat / 4) value mask } := by
  have hsize := m.dramSize_le
  rw [memWrite32, if_pos hregion, writeRdramDram, if_pos h, rdramDramAddress_toNat (by omega)]

theorem readAlignedWord_ram (o : OtherRegions M) {m : Machine M} {a : BitVec 32} {q : ℕ}
    (h : m.ramByte .read a = some q) :
    m.readAlignedWord o a = (some (m.dram (q / 4)), m) := by
  obtain ⟨p, hp, -, rfl, hlt⟩ := translate_ram h
  obtain ⟨hindex, hregion, halign⟩ := ram_index hlt
  rw [readAlignedWord, hp]
  simp only
  rw [halign, memRead32_ram o hregion (by omega), hindex, Nat.mul_div_cancel_left _ (by decide)]

/-- The address of the second word of a double word. -/
theorem second_word {m : Machine M} {p : BitVec 32} (h : p.toNat % 0x20000000 < m.dramSize)
    (haligned : p.toNat % 8 = 0) :
    ((p &&& 0x1ffffffc) + 4).toNat = 4 * (p.toNat % 0x20000000 / 4 + 1) ∧
      ((p &&& 0x1ffffffc) + 4).toNat < m.dramSize := by
  have hsize := m.dramSize_le
  have hindex := (ram_index h).1
  have hsum : ((p &&& 0x1ffffffc) + 4).toNat = 4 * (p.toNat % 0x20000000 / 4 + 1) := by
    rw [BitVec.toNat_add, hindex]
    show (_ + 4) % 2 ^ 32 = _
    omega
  exact ⟨hsum, by omega⟩

theorem readAlignedDword_ram (o : OtherRegions M) {m : Machine M} {a : BitVec 32} {q : ℕ}
    (h : m.ramByte .read a = some q) (haligned : a.toNat % 8 = 0) :
    m.readAlignedDword o a = (some (dword (m.dram (q / 4)) (m.dram (q / 4 + 1))), m) := by
  have hpage := (ramByte_page h).1
  obtain ⟨p, hp, -, rfl, hlt⟩ := translate_ram h
  obtain ⟨hindex, hregion, -⟩ := ram_index hlt
  obtain ⟨hsecond, hlt'⟩ := second_word hlt (by omega)
  rw [readAlignedDword, hp]
  simp only
  rw [memRead32_ram o hregion (by omega), hindex, Nat.mul_div_cancel_left _ (by decide)]
  simp only
  rw [memRead32_ram o hregion hlt', hsecond, Nat.mul_div_cancel_left _ (by decide)]

/-- A machine after something that changed only the recompiled code. -/
def withCache (m : Machine M) (ci : CachedInterp) : Machine M :=
  { m with core := { m.core with cachedInterp := ci } }

theorem invalidate_eq (m : Machine M) (address size : BitVec 32) :
    ∃ ci, m.invalidate address size = m.withCache ci := by
  obtain ⟨ci, hci⟩ := invalidateR4300CachedCode_eq m.core address size
  exact ⟨ci, by rw [invalidate, hci]; rfl⟩

theorem openStore_ram {m : Machine M} {a : BitVec 32} {q : ℕ} (size : BitVec 32)
    (h : m.ramByte .write a = some q) : ∃ p ci, m.openStore a size =
      (some (p &&& 0x1ffffffc), m.withCache ci) ∧ p.toNat % 0x20000000 = q ∧ q < m.dramSize := by
  have hfirst : ∃ ci, (if isUnmapped a then m else m.invalidate a size) = m.withCache ci := by
    split
    · exact ⟨m.core.cachedInterp, rfl⟩
    · exact m.invalidate_eq a size
  obtain ⟨ci, hci⟩ := hfirst
  obtain ⟨p, hp, -, hq, hlt⟩ := translate_ram (m := m.withCache ci) h
  rw [openStore, hci, hp]
  simp only
  obtain ⟨ci', hci'⟩ := (m.withCache ci).invalidate_eq p size
  rw [hci']
  obtain ⟨ci'', hci''⟩ := ((m.withCache ci).withCache ci').invalidate_eq (p ^^^ 0x20000000) size
  rw [hci'']
  exact ⟨p, ci'', rfl, hq, hlt⟩

theorem writeAlignedWord_ram (o : OtherRegions M) {m : Machine M} {a : BitVec 32} {q : ℕ}
    (value mask : BitVec 32) (h : m.ramByte .write a = some q) :
    ∃ ci, (m.writeAlignedWord o a value mask).2 =
      { m.withCache ci with dram := m.dram.write (q / 4) value mask } := by
  obtain ⟨p, ci, hopen, rfl, hlt⟩ := openStore_ram 4 h
  obtain ⟨hindex, hregion, halign⟩ := ram_index hlt
  have hfirst : (p &&& 0x1ffffffc).toNat < (m.withCache ci).dramSize :=
    hindex ▸ Nat.lt_of_le_of_lt (Nat.mul_div_le _ _) hlt
  refine ⟨ci, ?_⟩
  rw [writeAlignedWord, hopen]
  simp only
  rw [halign, memWrite32_ram o value mask hregion hfirst, hindex,
    Nat.mul_div_cancel_left _ (by decide)]
  rfl

theorem writeAlignedDword_ram (o : OtherRegions M) {m : Machine M} {a : BitVec 32} {q : ℕ}
    (value mask : BitVec 64) (h : m.ramByte .write a = some q) (haligned : a.toNat % 8 = 0) :
    ∃ ci, (m.writeAlignedDword o a value mask).2 =
      { m.withCache ci with dram := m.dram.writeDword (q / 4) value mask } := by
  have hpage := (ramByte_page h).1
  obtain ⟨p, ci, hopen, rfl, hlt⟩ := openStore_ram 8 h
  obtain ⟨hindex, hregion, -⟩ := ram_index hlt
  obtain ⟨hsecond, hlt'⟩ := second_word hlt (by omega)
  have hfirst : (p &&& 0x1ffffffc).toNat < (m.withCache ci).dramSize :=
    hindex ▸ Nat.lt_of_le_of_lt (Nat.mul_div_le _ _) hlt
  refine ⟨ci, ?_⟩
  rw [writeAlignedDword, hopen]
  simp only
  rw [memWrite32_ram o _ _ hregion hfirst, hindex, Nat.mul_div_cancel_left _ (by decide)]
  refine (memWrite32_ram o _ _ hregion ?_).trans ?_
  · exact hlt'
  · rw [hsecond, Nat.mul_div_cancel_left _ (by decide)]
    rfl

-- ════════════════════════════════════════════════════════════════════════
-- Units of memory
-- ════════════════════════════════════════════════════════════════════════

/-- A unit holds the bytes of RDRAM from the start of the unit on. -/
def HoldsUnit {width : ℕ} (dram : Words) (size q : ℕ) (unit : BitVec width) : Prop :=
  ∀ t < size, beByte unit t = dram.byte (q / size * size + t)

theorem beByte_word (dram : Words) (a : ℕ) : beByte (dram (a / 4)) (a % 4) = dram.byte a := by
  have hshift : 32 - 8 * (a % 4 + 1) = byteShift a := by
    unfold byteShift
    omega
  rw [beByte, hshift, Words.byte, wordByte]

theorem holdsUnit_word (dram : Words) (q : ℕ) : HoldsUnit dram 4 q (dram (q / 4)) := by
  intro t ht
  have hword : (q / 4 * 4 + t) / 4 = q / 4 := by omega
  have hbyte : (q / 4 * 4 + t) % 4 = t := by omega
  have h := beByte_word dram (q / 4 * 4 + t)
  rw [hword, hbyte] at h
  exact h

theorem beByte_dword (high low : BitVec 32) {i : ℕ} (hi : i < 8) :
    beByte (dword high low) i = if i < 4 then beByte high i else beByte low (i - 4) := by
  apply beByte_ext (show 64 = 8 * 8 from rfl) hi
  intro k hk
  rw [dword, BitVec.getLsbD_or, BitVec.getLsbD_shiftLeft, BitVec.getLsbD_setWidth,
    BitVec.getLsbD_setWidth]
  split
  next hfirst =>
    have hplace : 8 * (8 - 1 - i) + k - 32 = 8 * (4 - 1 - i) + k := by omega
    rw [decide_eq_true (show 8 * (8 - 1 - i) + k < 64 by omega),
      decide_eq_true (show 8 * (8 - 1 - i) + k - 32 < 64 by omega),
      decide_eq_false (show ¬8 * (8 - 1 - i) + k < 32 by omega), hplace,
      getLsbD_place (show 32 = 8 * 4 from rfl) _ hfirst hk, BitVec.getLsbD_of_ge low _ (by omega)]
    simp
  next hsecond =>
    have hplace : 8 * (8 - 1 - i) + k = 8 * (4 - 1 - (i - 4)) + k := by omega
    rw [decide_eq_true (show 8 * (8 - 1 - i) + k < 64 by omega),
      decide_eq_true (show 8 * (8 - 1 - i) + k < 32 by omega), hplace,
      getLsbD_place (show 32 = 8 * 4 from rfl) _ (by omega) hk]
    simp

theorem holdsUnit_dword (dram : Words) {q : ℕ} :
    HoldsUnit dram 8 q (dword (dram (q / 8 * 8 / 4)) (dram (q / 8 * 8 / 4 + 1))) := by
  intro t ht
  rw [beByte_dword _ _ ht]
  split
  next hfirst =>
    have hword : (q / 8 * 8 + t) / 4 = q / 8 * 8 / 4 := by omega
    have hbyte : (q / 8 * 8 + t) % 4 = t := by omega
    rw [← beByte_word, hword, hbyte]
  next hsecond =>
    have hword : (q / 8 * 8 + t) / 4 = q / 8 * 8 / 4 + 1 := by omega
    have hbyte : (q / 8 * 8 + t) % 4 = t - 4 := by omega
    rw [← beByte_word, hword, hbyte]

/-- A word written under a mask, byte by byte. -/
theorem byte_write (dram : Words) (i : ℕ) (value mask : BitVec 32) (a : ℕ) :
    (dram.write i value mask).byte a =
      if a / 4 = i then beByte (replaceBits (dram i) value mask) (a % 4) else dram.byte a := by
  rw [← beByte_word, Words.write, Function.update_apply]
  split
  · rfl
  · exact beByte_word dram a

theorem dword_replaceBits (high low : BitVec 32) (value mask : BitVec 64) :
    dword (replaceBits high ((value >>> 32).setWidth 32) ((mask >>> 32).setWidth 32))
      (replaceBits low (value.setWidth 32) (mask.setWidth 32)) =
        replaceBits (dword high low) value mask := by
  apply BitVec.eq_of_getLsbD_eq
  intro t ht
  by_cases hlow : t < 32
  · simp [dword, replaceBits, BitVec.getLsbD_setWidth, ht, hlow]
  · have hplace : 32 + (t - 32) = t := by omega
    have hlt : t - 32 < 32 := by omega
    have hend : low.getLsbD t = false := BitVec.getLsbD_of_ge low t (by omega)
    simp [dword, replaceBits, BitVec.getLsbD_setWidth, ht, hlow, hplace, hlt, hend]

/-- A double word written under a mask, byte by byte. -/
theorem byte_writeDword (dram : Words) (q : ℕ) (value mask : BitVec 64) (a : ℕ) :
    (dram.writeDword (q / 8 * 8 / 4) value mask).byte a =
      if a / 8 = q / 8 then
        beByte (replaceBits (dword (dram (q / 8 * 8 / 4)) (dram (q / 8 * 8 / 4 + 1))) value mask)
          (a % 8)
      else dram.byte a := by
  have hlow : (dram.write (q / 8 * 8 / 4) ((value >>> 32).setWidth 32) ((mask >>> 32).setWidth 32))
      (q / 8 * 8 / 4 + 1) = dram (q / 8 * 8 / 4 + 1) := Function.update_of_ne (by omega) _ _
  rw [Words.writeDword, byte_write, byte_write, hlow, ← dword_replaceBits,
    beByte_dword _ _ (Nat.mod_lt _ (by decide))]
  by_cases hunit : a / 8 = q / 8
  · rw [if_pos hunit]
    by_cases hfirst : a % 8 < 4
    · have hbyte : a % 4 = a % 8 := by omega
      rw [if_neg (by omega), if_pos (by omega), if_pos hfirst, hbyte]
    · have hbyte : a % 4 = a % 8 - 4 := by omega
      rw [if_pos (by omega), if_neg hfirst, hbyte]
  · rw [if_neg hunit, if_neg (by omega), if_neg (by omega)]

end Machine

end Mupen64plus
