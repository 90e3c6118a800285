import Mathlib.Logic.Function.Basic
import Mathlib.Tactic.Common
import Mupen64plus.Lib.FinLiterals

/-!
# The TLB and its lookup tables

`struct tlb` of the R4300: 32 entries, each an even and an odd half, and two tables `LUT_r` and
`LUT_w` with one word per 4 KiB page of the virtual address space. The tables cache what the
entries say: `tlb_unmap` clears the pages of an entry, `tlb_map` fills them in.

## Main definitions

- `TlbHalf`, `TlbEntry`, `Tlb` — the data
- `forPages` — the page loop shared by `tlb_unmap` and `tlb_map`
- `tlbUnmap`, `tlbMap`, `powerOnTlb` — the operations
- `Tlb.lookup` — the table part of `virtual_to_physical_address`

The page loops run on 32-bit counters and do not end when a range ends at `0xFFFFFFFF`, so they
take fuel and answer `none` when it runs out.
-/

namespace Mupen64plus

/-- The even or the odd page of a TLB entry. -/
structure TlbHalf where
  pfn : BitVec 32
  c : BitVec 8
  d : BitVec 8
  v : BitVec 8
  start : BitVec 32
  stop : BitVec 32
  phys : BitVec 32
  deriving DecidableEq, Repr

/-- `struct tlb_entry`. -/
structure TlbEntry where
  mask : BitVec 16
  vpn2 : BitVec 32
  g : BitVec 8
  asid : BitVec 8
  r : BitVec 8
  even : TlbHalf
  odd : TlbHalf
  deriving DecidableEq, Repr

/-- A 4 KiB page number of the 32-bit address space. -/
abbrev Page := BitVec 20

/-- One word per page; zero stands for an unmapped page. -/
abbrev Lut := Page → BitVec 32

/-- `struct tlb`. -/
structure Tlb where
  entries : Fin 32 → TlbEntry
  lutR : Lut
  lutW : Lut

/-- The page of an address, `address >> 12`. -/
def pageOf (address : BitVec 32) : Page := address.extractLsb' 12 20

/-- The first address of a page. -/
def pageBase (p : Page) : BitVec 32 := p.zeroExtend 32 <<< 12

/-- All halves and entries are cleared at power on. -/
def zeroHalf : TlbHalf := ⟨0, 0, 0, 0, 0, 0, 0⟩

/-- An entry cleared by `memset`. -/
def zeroEntry : TlbEntry := ⟨0, 0, 0, 0, 0, zeroHalf, zeroHalf⟩

/-- `poweron_tlb`. -/
def powerOnTlb : Tlb := { entries := fun _ => zeroEntry, lutR := fun _ => 0, lutW := fun _ => 0 }

/-- `for (i = first; i < stop; i += 0x1000) lut[i>>12] = value(i);` on 32-bit counters. -/
def forPages (value : BitVec 32 → BitVec 32) (stop : BitVec 32) :
    ℕ → BitVec 32 → Lut → Option Lut
  | 0, _, _ => none
  | fuel + 1, i, lut =>
    if i < stop then
      forPages value stop fuel (i + 0x1000) (Function.update lut (pageOf i) (value i))
    else some lut

/-- One more step than there are pages. -/
def pageFuel : ℕ := 0x100001

/-- The clearing loops of `tlb_unmap` for one half. -/
def unmapHalf (h : TlbHalf) (t : Tlb) : Option Tlb :=
  if h.v ≠ 0 then do
    let lutR ← forPages (fun _ => 0) h.stop pageFuel h.start t.lutR
    let lutW ← if h.d ≠ 0 then forPages (fun _ => 0) h.stop pageFuel h.start t.lutW
      else some t.lutW
    some { t with lutR, lutW }
  else some t

/-- The guard of `tlb_map`: a non-empty range outside the unmapped segments, and a physical
    base inside the address space of the bus. -/
def TlbHalf.Mappable (h : TlbHalf) : Prop :=
  h.start < h.stop ∧ ¬(0x80000000 ≤ h.start ∧ h.stop < 0xC0000000) ∧ h.phys < 0x20000000

instance (h : TlbHalf) : Decidable h.Mappable := inferInstanceAs (Decidable (_ ∧ _ ∧ _))

/-- The word `tlb_map` stores for the page at `i`. -/
def TlbHalf.word (h : TlbHalf) (i : BitVec 32) : BitVec 32 :=
  0x80000000 ||| (h.phys + (i - h.start) + 0xFFF)

/-- The filling loops of `tlb_map` for one half. -/
def mapHalf (h : TlbHalf) (t : Tlb) : Option Tlb :=
  if h.v ≠ 0 then
    if h.Mappable then do
      let lutR ← forPages h.word h.stop pageFuel h.start t.lutR
      let lutW ← if h.d ≠ 0 then forPages h.word h.stop pageFuel h.start t.lutW
        else some t.lutW
      some { t with lutR, lutW }
    else some t
  else some t

/-- `tlb_unmap`. -/
def tlbUnmap (t : Tlb) (entry : Fin 32) : Option Tlb := do
  let t ← unmapHalf (t.entries entry).even t
  unmapHalf (t.entries entry).odd t

/-- `tlb_map`. -/
def tlbMap (t : Tlb) (entry : Fin 32) : Option Tlb := do
  let t ← mapHalf (t.entries entry).even t
  mapHalf (t.entries entry).odd t

/-- The kinds of access that `virtual_to_physical_address` tells apart by its argument `w`. -/
inductive Access where
  | read
  | write
  | fetch
  deriving DecidableEq, Repr

/-- The table part of `virtual_to_physical_address`; `none` is the path that raises the TLB
    exception and answers 0. -/
def Tlb.lookup (t : Tlb) (address : BitVec 32) (w : Access) : Option (BitVec 32) :=
  let word := match w with
    | .write => t.lutW (pageOf address)
    | .read | .fetch => t.lutR (pageOf address)
  if word ≠ 0 then some ((word &&& 0xFFFFF000) ||| (address &&& 0xFFF)) else none

/-- What a page loop leaves: `value` on the pages from `lo` up to `stop`. -/
def paint (value : BitVec 32 → BitVec 32) (lo stop : BitVec 32) (lut : Lut) : Lut := fun p =>
  if lo ≤ pageBase p ∧ pageBase p < stop then value (pageBase p) else lut p

@[simp] theorem pageOf_toNat (a : BitVec 32) : (pageOf a).toNat = a.toNat / 4096 := by
  have ha := a.isLt
  simp only [pageOf, BitVec.extractLsb'_toNat, Nat.shiftRight_eq_div_pow]
  omega

@[simp] theorem pageBase_toNat (p : Page) : (pageBase p).toNat = p.toNat * 4096 := by
  have hp := p.isLt
  simp only [pageBase, BitVec.toNat_shiftLeft, BitVec.truncate_eq_setWidth, BitVec.toNat_setWidth,
    Nat.shiftLeft_eq]
  omega

theorem pageOf_eq_iff {a : BitVec 32} {p : Page} (ha : a.toNat % 4096 = 0) :
    p = pageOf a ↔ pageBase p = a := by
  rw [← BitVec.toNat_inj, ← BitVec.toNat_inj, pageOf_toNat, pageBase_toNat]
  omega

/-- One turn of the page loop paints one page. -/
theorem paint_step (value : BitVec 32 → BitVec 32) {i stop : BitVec 32} (lut : Lut)
    (hi : i.toNat % 4096 = 0) (hs : stop.toNat % 4096 = 4095) (hlt : i < stop)
    (hnext : (i + 0x1000).toNat = i.toNat + 4096) :
    paint value (i + 0x1000) stop (Function.update lut (pageOf i) (value i)) =
      paint value i stop lut := by
  funext p
  have hbase := pageBase_toNat p
  simp only [paint, BitVec.le_def, BitVec.lt_def, hnext] at *
  by_cases hp : pageBase p = i
  · have hpage : p = pageOf i := (pageOf_eq_iff hi).mpr hp
    rw [if_neg (by rw [hp]; omega), if_pos (by rw [hp]; omega), hpage, Function.update_self,
      ← hpage, hp]
  · have hpage : p ≠ pageOf i := fun h => hp ((pageOf_eq_iff hi).mp h)
    have hne : (pageBase p).toNat ≠ i.toNat := fun h => hp (BitVec.eq_of_toNat_eq h)
    rw [Function.update_of_ne hpage]
    congr 1
    apply propext
    omega

/-- The page loop ends, on a range of whole pages that stops short of the last address. -/
theorem forPages_eq_paint (value : BitVec 32 → BitVec 32) {stop : BitVec 32}
    (hs : stop.toNat % 4096 = 4095) (htop : stop ≠ 0xFFFFFFFF) (fuel : ℕ) (i : BitVec 32)
    (lut : Lut) (hi : i.toNat % 4096 = 0) (hfuel : (stop.toNat + 1 - i.toNat) / 4096 < fuel) :
    forPages value stop fuel i lut = some (paint value i stop lut) := by
  induction fuel generalizing i lut with
  | zero => omega
  | succ fuel ih =>
    rw [forPages]
    split
    · next hlt =>
      have htop' : stop.toNat ≠ 4294967295 := fun h => htop (BitVec.eq_of_toNat_eq h)
      have hlt' : i.toNat < stop.toNat := hlt
      have hstop := stop.isLt
      have hnext : (i + 0x1000).toNat = i.toNat + 4096 := by
        rw [BitVec.toNat_add]
        show (i.toNat + 4096) % 4294967296 = _
        omega
      rw [ih _ _ (by omega) (by omega), paint_step value lut hi hs hlt hnext]
    · next hge =>
      have hge' : ¬i.toNat < stop.toNat := hge
      congr 1
      funext p
      have hbase := pageBase_toNat p
      simp only [paint, BitVec.le_def, BitVec.lt_def]
      rw [if_neg (by omega)]

end Mupen64plus
