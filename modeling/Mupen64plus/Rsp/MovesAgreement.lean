import Mupen64plus.Rsp.ParallelMovesExact

/-!
# The vector loads and stores of the two signal processors

The recompiler's routines against the interpreter's instructions. Where the interpreter reports
nothing they leave the same, but for `LUV` that stays in 16 bytes, `SFV` that keeps all bits of the
address, and `SDV` that the interpreter misplaces. Five stores mask an address before they move on
from it, and reach beyond DMEM.

## Main definitions

- `ParallelRight` — a routine leaves what the instruction leaves, and stays in DMEM
- `ParallelWrong` — the addresses, and the bytes there, for which it does not

## Main results

- `parallelRight_iff` — a routine is right exactly where it is not wrong
-/

namespace Mupen64plus

open Assignments RspVectors

-- ════════════════════
-- What is touched
-- ════════════════════

section Bounds

variable {s : RspVectors} {vt : Fin 32} {e : Fin 16} {offset : BitVec 7} {base : Fin 32}

theorem bes_lt_iff {a : ℕ} : bes a < 4096 ↔ a < 4096 := by
  rw [bes_eq]
  omega

theorem loadBytes_inBounds {l : Moves} (h : ∀ p ∈ l, p.1 < 16 ∧ p.2 < 4096) :
    (Transfer.loadBytes vt l).InBounds :=
  ⟨List.forall_mem_map.mpr fun p hp => (h p hp).2, List.forall_mem_map.mpr fun p hp => (h p hp).1⟩

theorem storeBytes_inBounds {l : Moves} (h : ∀ p ∈ l, p.1 < 4096 ∧ p.2 < 16) :
    (Transfer.storeBytes vt l).InBounds :=
  ⟨List.forall_mem_map.mpr fun p hp => (h p hp).1, List.forall_mem_map.mpr fun p hp => (h p hp).2⟩

/-- The two bytes of a lane that exists. -/
theorem laneBytes_lt {i : ℕ} (hi : i < 8) : ∀ j ∈ [2 * i, 2 * i + 1], j < 16 := by
  intro j hj
  rcases List.mem_pair.mp hj with rfl | rfl <;> omega

theorem loadLanes_inBounds {shift : ℕ} {l : Moves} (h : ∀ p ∈ l, p.1 < 8 ∧ p.2 < 4096) :
    (Transfer.loadLanes vt shift l).InBounds := by
  refine ⟨List.forall_mem_map.mpr fun p hp => (h p hp).2, fun j hj => ?_⟩
  obtain ⟨p, hp, hjp⟩ := List.mem_flatMap.mp hj
  exact laneBytes_lt (h p hp).1 j hjp

theorem storeLanes_inBounds {l : List (ℕ × ℕ × ℕ)} (h : ∀ p ∈ l, p.1 < 4096 ∧ p.2.1 < 8) :
    (Transfer.storeLanes vt l).InBounds := by
  refine ⟨List.forall_mem_map.mpr fun p hp => (h p hp).1, fun j hj => ?_⟩
  obtain ⟨p, hp, hjp⟩ := List.mem_flatMap.mp hj
  exact laneBytes_lt (h p hp).2 j hjp

theorem loadPasses_inBounds (start stop : ℕ) (addr : BitVec 32) :
    ∀ m ∈ [Transfer.loadBytes vt (loadPasses start stop addr)], m.InBounds :=
  List.forall_mem_singleton.mpr <| loadBytes_inBounds <| List.forall_mem_map.mpr fun _ _ =>
    ⟨mes_lt (Nat.mod_lt _ (by decide)), maskedByte_lt _⟩

theorem storePasses_inBounds {n addr : ℕ} (e : ℕ) (h : addr + n ≤ 4096) :
    ∀ m ∈ [Transfer.storeBytes vt (storePasses n e addr)], m.InBounds := by
  refine List.forall_mem_singleton.mpr (storeBytes_inBounds ?_)
  refine List.forall_mem_map.mpr fun k hk => ?_
  rw [List.mem_range] at hk
  exact ⟨bes_lt (by omega), mes_lt (Nat.mod_lt _ (by decide))⟩

theorem packed_inBounds (shift : ℕ) (e addr : ℕ) :
    ∀ m ∈ [Transfer.loadLanes vt shift (packedPasses e addr)], m.InBounds := by
  refine List.forall_mem_singleton.mpr (loadLanes_inBounds (List.forall_mem_map.mpr fun i hi => ?_))
  exact ⟨List.mem_range.mp hi, bes_lt (Nat.mod_lt _ (by decide))⟩

theorem packedStores_inBounds (e addr first second : ℕ) :
    ∀ m ∈ [Transfer.storeLanes vt (packedStores e addr first second)], m.InBounds :=
  List.forall_mem_singleton.mpr <| storeLanes_inBounds <| List.forall_mem_map.mpr fun _ _ =>
    ⟨bes_lt (Nat.mod_lt _ (by decide)), Nat.mod_lt _ (by decide)⟩

theorem rspSdv_inBounds : ∀ m ∈ rspSdv s vt e offset base, m.InBounds := by
  have haddr : s.address 8 offset base < 4096 := address_lt 8
  unfold rspSdv
  simp only
  split
  · refine List.forall_mem_singleton.mpr (storeBytes_inBounds (List.forall_mem_map.mpr ?_))
    exact fun i _ => ⟨bes_lt (Nat.mod_lt _ (by decide)), mes_lt (Nat.mod_lt _ (by decide))⟩
  · refine List.forall_mem_singleton.mpr (storeBytes_inBounds fun p hp => ?_)
    obtain ⟨i, hi, hpi⟩ := List.mem_flatMap.mp hp
    rw [List.mem_range] at hi
    have hhes := hes_eq ((s.address 8 offset base + 2 * i) % 4096)
    rcases List.mem_pair.mp hpi with rfl | rfl
    · exact ⟨by show 2 * _ + 1 < 4096; omega, by show 2 * _ + 1 < 16; omega⟩
    · exact ⟨by show 2 * _ < 4096; omega, by show 2 * _ < 16; omega⟩

theorem ltvLoop_inBounds (vt0 : ℕ) (start : BitVec 32) (n i j : ℕ) (addr : BitVec 32)
    (h : i + 2 * n ≤ 16) : ∀ m ∈ ltvLoop vt0 start n i j addr, m.InBounds := by
  induction n generalizing i j addr with
  | zero => exact fun m hm => absurd hm List.not_mem_nil
  | succ n ih =>
    refine List.forall_mem_cons.mpr ⟨loadBytes_inBounds fun p hp => ?_, ih _ _ _ (by omega)⟩
    rcases List.mem_pair.mp hp with rfl | rfl
    · exact ⟨mes_lt (by omega), maskedByte_lt _⟩
    · exact ⟨mes_lt (by omega), maskedByte_lt _⟩

theorem rspLfv_inBounds : ∀ m ∈ rspLfv s vt e offset base, m.InBounds := by
  refine List.forall_mem_singleton.mpr ⟨List.forall_mem_map.mpr fun i _ => maskedByte_lt _,
    List.forall_mem_map.mpr fun k hk => mes_lt ?_⟩
  rw [List.mem_range] at hk
  split at hk <;> omega

theorem rspLwv_inBounds : ∀ m ∈ rspLwv s vt e offset base, m.InBounds :=
  List.forall_mem_singleton.mpr <| loadBytes_inBounds <| List.forall_mem_map.mpr fun _ _ =>
    ⟨mes_lt (Nat.mod_lt _ (by decide)), maskedByte_lt _⟩

-- Stores that mask the address once.

theorem rspSlv_inBounds_iff :
    (∀ m ∈ rspSlv s vt e offset base, m.InBounds) ↔ ¬4092 < s.address 4 offset base := by
  constructor
  · intro h hlt
    have hlast := (List.forall_mem_singleton.mp h).1 (bes (s.address 4 offset base + 3))
      (List.mem_map_of_mem (List.mem_map_of_mem (List.mem_range.mpr (show 3 < 4 by decide))))
    rw [bes_lt_iff] at hlast
    omega
  · exact fun h => storePasses_inBounds e.val (by omega)

/-- Eight bytes on from the double-word is the next one. -/
theorem next_double {addr : ℕ} (h : addr < 4096) :
    addr - addr % 8 + (addr % 8 + 8) % 16 < 4096 ↔ ¬4088 ≤ addr := by
  omega

theorem double_lt {addr : ℕ} (h : ¬4088 ≤ addr) (d : ℕ) : addr - addr % 8 + d % 16 < 4096 := by
  omega

theorem rspShv_inBounds_iff :
    (∀ m ∈ rspShv s vt e offset base, m.InBounds) ↔ ¬4088 ≤ s.address 16 offset base := by
  have haddr : s.address 16 offset base < 4096 := address_lt 16
  constructor
  · intro h
    have hlast := (List.forall_mem_singleton.mp h).1 _
      (List.mem_map_of_mem (List.mem_map_of_mem (List.mem_range.mpr (show 4 < 8 by decide))))
    exact (next_double haddr).mp (bes_lt_iff.mp hlast)
  · intro h
    refine List.forall_mem_singleton.mpr ⟨?_, fun j hj => ?_⟩
    · exact List.forall_mem_map.mpr (List.forall_mem_map.mpr fun i _ =>
        bes_lt (double_lt h _))
    · obtain ⟨p, hp, hjp⟩ := List.mem_flatMap.mp hj
      obtain ⟨i, -, rfl⟩ := List.mem_map.mp hp
      rcases List.mem_pair.mp hjp with rfl | rfl <;> exact mes_lt (Nat.mod_lt _ (by decide))

theorem rspSwv_inBounds_iff :
    (∀ m ∈ rspSwv s vt e offset base, m.InBounds) ↔ ¬4088 ≤ s.address 16 offset base := by
  have haddr : s.address 16 offset base < 4096 := address_lt 16
  constructor
  · intro h
    have hlast := (List.forall_mem_singleton.mp h).1 _
      (List.mem_map_of_mem (List.mem_map_of_mem (List.mem_range.mpr (show 8 < 16 by decide))))
    exact (next_double haddr).mp (bes_lt_iff.mp hlast)
  · intro h
    refine List.forall_mem_singleton.mpr (storeBytes_inBounds (List.forall_mem_map.mpr ?_))
    exact fun k _ => ⟨bes_lt (double_lt h _), mes_lt (Nat.mod_lt _ (by decide))⟩

theorem rspStv_inBounds_iff :
    (∀ m ∈ rspStv s vt e offset base, m.InBounds) ↔ ¬4088 ≤ s.address 16 offset base := by
  have haddr : s.address 16 offset base < 4096 := address_lt 16
  have he := e.isLt
  have hwrap (k : ℕ) : wrapIndex (s.address 16 offset base % 8) (e.val / 2 * 2) k =
      (s.address 16 offset base % 8 + (16 - e.val / 2 * 2 + k)) % 16 := by
    rw [wrapIndex_eq k (by omega) (by omega)]
    exact congrArg (· % 16) (by omega)
  constructor
  · intro h
    -- The pass that stores the eighth byte behind the address.
    have hpass := List.forall_mem_map.mp h ((8 + e.val / 2 * 2) % 16 / 2)
      (List.mem_range.mpr (by omega))
    have hbyte := hpass.1 _ (List.mem_map_of_mem List.mem_cons_self)
    have hplace := bes_lt_iff.mp hbyte
    rw [hwrap] at hplace
    refine (next_double haddr).mp (lt_of_eq_of_lt ?_ hplace)
    omega
  · intro h
    refine List.forall_mem_map.mpr fun k _ => storeBytes_inBounds fun p hp => ?_
    rcases List.mem_pair.mp hp with rfl | rfl
    all_goals
      refine ⟨bes_lt ?_, mes_lt (Nat.mod_lt _ (by decide))⟩
      rw [hwrap]
      exact double_lt h _

/-- The place of the byte `k` that `SFV` writes. -/
def sfvPlace (addr k : ℕ) : ℕ := addr - addr % 8 + (addr % 8 + 4 * k) % 16

theorem sfvBytes_eq (addr : ℕ) :
    sfvBytes addr = (List.range 4).map fun k => bes (sfvPlace addr k) := by
  have h4 : List.range 4 = [0, 1, 2, 3] := rfl
  simp only [sfvBytes, h4, List.map_cons, List.map_nil, List.cons.injEq, and_true, sfvPlace]
  and_intros <;> exact congrArg bes (by omega)

/-- `SFV` writes four bytes, from lanes that exist. -/
theorem rspSfv_touches : ∃ m, rspSfv s vt e offset base = [m] ∧
    m.dmemBytes = sfvBytes (s.address 16 offset base) ∧ ∀ j ∈ m.registerBytes, j < 16 := by
  have hlanes : ∀ e' : Fin 16, ∀ lanes ∈ sfvLanes e'.val,
      4 ≤ lanes.length ∧ ∀ i ∈ lanes, i < 8 := by decide
  cases hl : sfvLanes e.val with
  | none =>
    exact ⟨.storeZeros (sfvBytes (s.address 16 offset base)), by simp only [rspSfv, hl], rfl, nofun⟩
  | some lanes =>
    obtain ⟨hlen, hlt⟩ := hlanes e lanes hl
    refine ⟨.storeLanes vt (((sfvBytes (s.address 16 offset base)).zip lanes).map fun p =>
      (p.1, p.2, 7)), by simp only [rspSfv, hl], ?_, fun j hj => ?_⟩
    · show (((sfvBytes _).zip lanes).map _).map Prod.fst = _
      rw [List.map_map]
      exact List.map_fst_zip hlen
    · obtain ⟨p, hp, hjp⟩ := List.mem_flatMap.mp hj
      obtain ⟨q, hq, rfl⟩ := List.mem_map.mp hp
      exact laneBytes_lt (hlt _ (List.of_mem_zip hq).2) j hjp

theorem rspSfv_inBounds_iff :
    (∀ m ∈ rspSfv s vt e offset base, m.InBounds) ↔ ¬4088 ≤ s.address 16 offset base := by
  have haddr : s.address 16 offset base < 4096 := address_lt 16
  obtain ⟨m, hm, hd, hr⟩ : ∃ m, rspSfv s vt e offset base = [m] ∧ _ := rspSfv_touches
  rw [hm, List.forall_mem_singleton]
  constructor
  · intro h
    have hthird := h.1 (bes (sfvPlace (s.address 16 offset base) 2)) (by
      rw [hd, sfvBytes_eq]
      exact List.mem_map_of_mem (List.mem_range.mpr (by decide)))
    exact (next_double haddr).mp (bes_lt_iff.mp hthird)
  · intro h
    refine ⟨?_, hr⟩
    rw [hd, sfvBytes_eq]
    exact List.forall_mem_map.mpr fun k _ => bes_lt (double_lt h _)

end Bounds

-- ════════════════════
-- Loads that stay in 16 bytes
-- ════════════════════

/-- A lane tells the byte it was loaded from. -/
theorem lane_inj {x y : BitVec 8} (h : x.setWidth 16 <<< 7 = y.setWidth 16 <<< 7) : x = y := by
  have hx := x.isLt
  have hy := y.isLt
  have hnat := congrArg BitVec.toNat h
  simp only [BitVec.toNat_shiftLeft, BitVec.toNat_setWidth, Nat.shiftLeft_eq] at hnat
  exact BitVec.eq_of_toNat_eq (by omega)

theorem loadLanes_eq_iff (m : RspArch) (vt : Fin 32) (f g : ℕ → ℕ) :
    m.loadLanes vt 7 f = m.loadLanes vt 7 g ↔ ∀ i < 8, m.byteAt (f i) = m.byteAt (g i) := by
  constructor
  · intro h i hi
    let shifted (a : ℕ) : BitVec 16 := (m.byteAt a).setWidth 16 <<< 7
    have hat (k : ℕ) (hk : k < 2) : (shifted (f i)).extractLsb' (8 * (1 - k)) 8 =
        (shifted (g i)).extractLsb' (8 * (1 - k)) 8 := by
      have helement := congrFun (congrFun (congrArg RspArch.element h) vt)
        ⟨2 * i + k, by omega⟩
      have hlane : (2 * i + k) / 2 = i := by omega
      have hbyte : (2 * i + k) % 2 = k := by omega
      simp only [RspArch.loadLanes, if_pos, hlane, hbyte] at helement
      exact helement
    have hhigh : (shifted (f i)).extractLsb' 8 8 = (shifted (g i)).extractLsb' 8 8 :=
      hat 0 (by decide)
    have hlow : (shifted (f i)).extractLsb' 0 8 = (shifted (g i)).extractLsb' 0 8 :=
      hat 1 (by decide)
    refine lane_inj (BitVec.eq_of_toNat_eq ?_)
    have hhigh' := congrArg BitVec.toNat hhigh
    have hlow' := congrArg BitVec.toNat hlow
    simp only [BitVec.extractLsb'_toNat, Nat.shiftRight_eq_div_pow] at hhigh' hlow'
    have hf := (shifted (f i)).isLt
    have hg := (shifted (g i)).isLt
    show (shifted (f i)).toNat = (shifted (g i)).toNat
    omega
  · exact loadLanes_congr m vt 7

section Agreement

variable {s t : RspVectors} {vt : Fin 32} {e : Fin 16} {offset : BitVec 7} {base : Fin 32}

/-- A lane of `LUV` whose byte is beyond 16 bytes from the double-word on, where the byte 16 before
    it is another. -/
def LuvWraps (s : RspVectors) (e addr : ℕ) : Prop :=
  ∃ i < 8, 16 ≤ addr % 8 + (i + 16 - e) % 16 ∧
    s.arch.byteAt (addr + (i + 16 - e) % 16) ≠ s.arch.byteAt (addr + (i + 16 - e) % 16 - 16)

theorem rspLuv_same_iff : (ParallelMove.run (.move .luv) s vt e offset base).arch =
      s.arch.loadLanes vt 7 (fun i => s.address 8 offset base + (i + 16 - e.val) % 16) ↔
    ¬LuvWraps s e.val (s.address 8 offset base) := by
  have he := e.isLt
  rw [rspLuv_arch, loadLanes_eq_iff]
  generalize s.address 8 offset base = addr
  constructor
  · rintro h ⟨i, hi, hbeyond, hne⟩
    refine hne ((h i hi).symm.trans (congrArg s.arch.byteAt ?_))
    omega
  · intro h i hi
    by_cases hbeyond : 16 ≤ addr % 8 + (i + 16 - e.val) % 16
    · have hsame : s.arch.byteAt (addr + (i + 16 - e.val) % 16) =
          s.arch.byteAt (addr + (i + 16 - e.val) % 16 - 16) :=
        not_not.mp fun hne => h ⟨i, hi, hbeyond, hne⟩
      rw [hsame]
      exact congrArg s.arch.byteAt (by omega)
    · exact congrArg s.arch.byteAt (by omega)

-- ════════════════════
-- Bytes put elsewhere
-- ════════════════════

/-- Memory after bytes were put at places of their own. -/
structure Placed (m m' : RspArch) (n : ℕ) (place : ℕ → ℕ) (value : ℕ → BitVec 8) : Prop where
  put : ∀ k < n, m'.byteAt (place k) = value k
  kept : ∀ a < 4096, (∀ k < n, place k ≠ a) → m'.byteAt a = m.byteAt a
  element : m'.element = m.element

/-- The same bytes put at other places: each has to be there already. -/
theorem placed_eq_iff {m m₁ m₂ : RspArch} {n : ℕ} {p q : ℕ → ℕ} {v : ℕ → BitVec 8}
    (h₁ : Placed m m₁ n p v) (h₂ : Placed m m₂ n q v) :
    m₁ = m₂ ↔ (∀ k < n, m₂.byteAt (p k) = v k) ∧ ∀ k < n, m₁.byteAt (q k) = v k := by
  constructor
  · rintro rfl
    exact ⟨h₁.put, h₂.put⟩
  · rintro ⟨hp, hq⟩
    refine RspArch.ext (funext fun a => ?_) (h₁.element.trans h₂.element.symm)
    have hat : ∀ m : RspArch, m.byte a = m.byteAt a.val := fun m =>
      congrArg m.byte (Fin.ext (Nat.mod_eq_of_lt a.isLt).symm)
    rw [hat, hat]
    by_cases hpa : ∃ k < n, p k = a.val
    · obtain ⟨k, hk, hka⟩ := hpa
      rw [← hka, h₁.put k hk, hp k hk]
    by_cases hqa : ∃ k < n, q k = a.val
    · obtain ⟨k, hk, hka⟩ := hqa
      rw [← hka, h₂.put k hk, hq k hk]
    · rw [h₁.kept a.val a.isLt fun k hk hka => hpa ⟨k, hk, hka⟩,
        h₂.kept a.val a.isLt fun k hk hka => hqa ⟨k, hk, hka⟩]

theorem bes_inj {a b : ℕ} (h : bes a = bes b) : a = b := by
  simp only [bes_eq] at h
  omega

/-- Bytes assigned to DMEM. -/
def RspVectors.storing (s : RspVectors) (l : List (ℕ × BitVec 8)) : RspVectors :=
  { s with dmem := assign s.dmem l }

theorem storing_placed {n : ℕ} {p : ℕ → ℕ} (v : ℕ → BitVec 8) (hp : ∀ k < n, p k < 4096)
    (hinj : ∀ k < n, ∀ k' < n, p k = p k' → k = k') :
    Placed s.arch (s.storing ((List.range n).map fun k => (bes (p k), v k))).arch n p v where
  put k hk := by
    rw [arch_byteAt, Nat.mod_eq_of_lt (hp k hk)]
    refine assign_map_of_mem (g := fun k => bes (p k)) _ List.nodup_range ?_ (List.mem_range.mpr hk)
    exact fun i hi j hj heq =>
      hinj i (List.mem_range.mp hi) j (List.mem_range.mp hj) (bes_inj heq)
  kept a ha hne := by
    rw [arch_byteAt, arch_byteAt, Nat.mod_eq_of_lt ha]
    exact assign_map_of_ne (g := fun k => bes (p k)) _ fun k hk heq =>
      hne k (List.mem_range.mp hk) (bes_inj heq)
  element := rfl

/-- The byte `k` of `SFV`. -/
def sfvByte (s : RspVectors) (vt : Fin 32) (e k : ℕ) : BitVec 8 :=
  ((s.lane vt (e / 2 + k)).sshiftRight 7).setWidth 8

theorem rspSfv_placed (he : e.val = 0 ∨ e.val = 8) (h : ¬4088 ≤ s.address 16 offset base) :
    Placed s.arch (ParallelMove.run (.move .sfv) s vt e offset base).arch 4
      (sfvPlace (s.address 16 offset base)) (sfvByte s vt e.val) := by
  have haddr : s.address 16 offset base < 4096 := address_lt 16
  have hrun : ParallelMove.run (.move .sfv) s vt e offset base =
      s.storing ((List.range 4).map fun k =>
        (bes (sfvPlace (s.address 16 offset base) k), sfvByte s vt e.val k)) := by
    show (rspSfv s vt e offset base).foldl Transfer.run s = _
    unfold rspSfv
    rw [sfvBytes_eq]
    rcases he with he | he <;> rw [he] <;> rfl
  rw [hrun]
  refine storing_placed _ (fun k _ => double_lt h _) fun i hi j hj heq => ?_
  unfold sfvPlace at heq
  omega

/-- The quad-word of `SFV`, with the two low bits of the address. -/
def sfvQuad (addr : ℕ) : ℕ := addr - 4 * (addr / 4 % 4)

theorem storeLanes_placed (he : e.val = 0 ∨ e.val = 8) {addr : ℕ} (haddr : addr < 4096) :
    Placed s.arch (s.arch.storeLanes vt 7 4 (e.val / 2) 4 (sfvQuad addr)) 4
      (fun k => sfvQuad addr + 4 * k) (sfvByte s vt e.val) := by
  have hquad : sfvQuad addr + 16 < 4096 + 4 := by
    unfold sfvQuad
    omega
  have hmoves : s.lanesOut vt 7 ((List.range 4).map fun k =>
      (bes ((sfvQuad addr + 4 * k) % 4096), e.val / 2 + k)) =
        s.storing ((List.range 4).map fun k =>
          (bes (sfvQuad addr + 4 * k), sfvByte s vt e.val k)) := by
    rw [lanesOut, List.map_map]
    refine congrArg s.storing (List.map_congr_left fun k hk => ?_)
    rw [List.mem_range] at hk
    show (bes ((sfvQuad addr + 4 * k) % 4096), _) = _
    rw [Nat.mod_eq_of_lt (by omega)]
    rfl
  rw [← lanesOut_arch s vt 7 (by decide) (by decide) (by omega) (by omega) (List.Perm.refl _),
    hmoves]
  refine storing_placed _ (fun k hk => ?_) fun i _ j _ heq => ?_
  · omega
  · omega

/-- The two processors put the four bytes of `SFV` at the same places, or at places where this
    makes no difference: by bits 2 and 3 of the address. -/
def SfvSame (s : RspVectors) (vt : Fin 32) (e addr : ℕ) : Prop :=
  let byte := sfvByte s vt e
  let old (i : ℕ) := s.arch.byteAt (sfvQuad addr + 4 * i)
  match addr / 4 % 4 with
  | 0 => True
  | 1 => byte 0 = byte 1 ∧ byte 1 = byte 2 ∧ byte 2 = byte 3
  | 2 =>
    old 0 = byte 0 ∧ old 1 = byte 1 ∧ byte 2 = byte 0 ∧ byte 3 = byte 1 ∧ old 4 = byte 2 ∧
      old 5 = byte 3
  | _ =>
    old 0 = byte 0 ∧ old 1 = byte 1 ∧ byte 2 = byte 3 ∧ byte 3 = byte 0 ∧ old 4 = byte 1 ∧
      old 5 = byte 2

/-- The word of the quad-word that a byte of `SFV` goes to in compiled code. -/
theorem sfvPlace_eq {addr k : ℕ} (hk : k < 4) : sfvPlace addr k =
    sfvQuad addr + 4 * (2 * (addr / 4 % 4 / 2) + (k + addr / 4 % 4 % 2) % 4) := by
  unfold sfvPlace sfvQuad
  omega

theorem forall_lt_four {P : ℕ → Prop} : (∀ k < 4, P k) ↔ P 0 ∧ P 1 ∧ P 2 ∧ P 3 := by
  constructor
  · intro h
    exact ⟨h 0 (by decide), h 1 (by decide), h 2 (by decide), h 3 (by decide)⟩
  · rintro ⟨h0, h1, h2, h3⟩ k hk
    interval_cases k <;> assumption

theorem rspSfv_same_iff (he : e.val = 0 ∨ e.val = 8) (h : ¬4088 ≤ s.address 16 offset base) :
    (ParallelMove.run (.move .sfv) s vt e offset base).arch =
        s.arch.storeLanes vt 7 4 (e.val / 2) 4 (sfvQuad (s.address 16 offset base)) ↔
      SfvSame s vt e.val (s.address 16 offset base) := by
  have haddr : s.address 16 offset base < 4096 := address_lt 16
  have hpar : Placed s.arch (ParallelMove.run (.move .sfv) s vt e offset base).arch 4
    (sfvPlace (s.address 16 offset base)) (sfvByte s vt e.val) := rspSfv_placed he h
  have hcxd : Placed s.arch
    (s.arch.storeLanes vt 7 4 (e.val / 2) 4 (sfvQuad (s.address 16 offset base))) 4
    (fun k => sfvQuad (s.address 16 offset base) + 4 * k) (sfvByte s vt e.val) :=
      storeLanes_placed he haddr
  rw [placed_eq_iff hpar hcxd]
  generalize (ParallelMove.run (.move .sfv) s vt e offset base).arch = m₁ at hpar ⊢
  generalize s.arch.storeLanes vt 7 4 (e.val / 2) 4 (sfvQuad (s.address 16 offset base)) = m₂
    at hcxd ⊢
  generalize s.address 16 offset base = addr at h haddr hpar hcxd ⊢
  have hquad : sfvQuad addr + 16 < 4096 + 4 := by
    unfold sfvQuad
    omega
  have hm : addr / 4 % 4 < 4 := Nat.mod_lt _ (by decide)
  have hfar : 2 ≤ addr / 4 % 4 → sfvQuad addr + 20 < 4096 := by
    unfold sfvQuad
    omega
  -- Byte by byte of the quad-word and the double-word behind it.
  have hput := hpar.put
  have hkept : ∀ i < 6, sfvQuad addr + 4 * i < 4096 → (∀ k < 4, 2 * (addr / 4 % 4 / 2) +
      (k + addr / 4 % 4 % 2) % 4 ≠ i) → m₁.byteAt (sfvQuad addr + 4 * i) =
        s.arch.byteAt (sfvQuad addr + 4 * i) := by
    intro i _ hlt hne
    refine hpar.kept _ hlt fun k hk heq => hne k hk ?_
    rw [sfvPlace_eq hk] at heq
    omega
  have hput' := hcxd.put
  have hkept' : ∀ i < 6, 4 ≤ i → sfvQuad addr + 4 * i < 4096 →
      m₂.byteAt (sfvQuad addr + 4 * i) = s.arch.byteAt (sfvQuad addr + 4 * i) := by
    intro i _ hi hlt
    refine hcxd.kept _ hlt fun k hk heq => ?_
    omega
  have hplace : ∀ m : RspArch, (∀ k < 4, m.byteAt (sfvPlace addr k) = sfvByte s vt e.val k) ↔
      ∀ k < 4, m.byteAt (sfvQuad addr + 4 * (2 * (addr / 4 % 4 / 2) +
        (k + addr / 4 % 4 % 2) % 4)) = sfvByte s vt e.val k := fun m =>
    forall₂_congr fun k hk => by rw [sfvPlace_eq hk]
  rw [hplace] at hput ⊢
  unfold SfvSame
  generalize addr / 4 % 4 = m at hm hfar hput hkept ⊢
  rw [forall_lt_four] at hput hput' ⊢
  rw [forall_lt_four]
  obtain ⟨hp0, hp1, hp2, hp3⟩ := hput
  obtain ⟨hq0, hq1, hq2, hq3⟩ := hput'
  interval_cases m
  case «0» => exact iff_of_true ⟨⟨hq0, hq1, hq2, hq3⟩, hp0, hp1, hp2, hp3⟩ trivial
  case «1» =>
    show ((m₂.byteAt (sfvQuad addr + 4 * 1) = _ ∧ m₂.byteAt (sfvQuad addr + 4 * 2) = _ ∧
      m₂.byteAt (sfvQuad addr + 4 * 3) = _ ∧ m₂.byteAt (sfvQuad addr + 4 * 0) = _) ∧ _) ↔ _
    grind
  case «2» =>
    have ho0 := hkept 0 (by decide) (by omega) (by decide)
    have ho1 := hkept 1 (by decide) (by omega) (by decide)
    have ho4 := hkept' 4 (by decide) (by decide) (by omega)
    have ho5 := hkept' 5 (by decide) (by decide) (by omega)
    grind
  case «3» =>
    have ho0 := hkept 0 (by decide) (by omega) (by decide)
    have ho1 := hkept 1 (by decide) (by omega) (by decide)
    have ho4 := hkept' 4 (by decide) (by decide) (by omega)
    have ho5 := hkept' 5 (by decide) (by decide) (by omega)
    grind

-- ════════════════════
-- Every routine
-- ════════════════════

/-- A routine leaves the DMEM and the registers that the instruction leaves, unless this reports,
    and touches nothing beyond them. -/
def ParallelRight (p : ParallelMove) (s : RspVectors) (vt : Fin 32) (e : Fin 16)
    (offset : BitVec 7) (base : Fin 32) : Prop :=
  (∀ op, p = .move op → ∀ t, op.run s vt e offset base = .ok t →
    (p.run s vt e offset base).arch = t.arch) ∧
  ∀ m ∈ p.transfers s vt e offset base, m.InBounds

/-- A store that reaches beyond DMEM, or bytes for which the places make a difference. -/
def ParallelWrong (p : ParallelMove) (s : RspVectors) (vt : Fin 32) (e : Fin 16)
    (offset : BitVec 7) (base : Fin 32) : Prop :=
  match p with
  | .move .slv => 4092 < s.address 4 offset base
  | .move .shv | .move .stv | .swv => 4088 ≤ s.address 16 offset base
  | .move .sfv => 4088 ≤ s.address 16 offset base ∨
      (e.val = 0 ∨ e.val = 8) ∧ ¬SfvSame s vt e.val (s.address 16 offset base)
  | .move .luv => LuvWraps s e.val (s.address 8 offset base)
  | .move .sdv => Misplaced .sdv s vt e offset base
  | _ => False

/-- A case that is not reported. -/
theorem ok_of_guard {c : Prop} [Decidable c] {message : String} {r : Except String RspVectors}
    (h : (if c then .error message else r) = .ok t) : ¬c ∧ r = .ok t := by
  by_cases hc : c
  · rw [if_pos hc] at h
    exact nomatch h
  · rw [if_neg hc] at h
    exact ⟨hc, h⟩

theorem right_of {op : VectorMove}
    (hsame : ∀ t, op.run s vt e offset base = .ok t →
      (ParallelMove.run (.move op) s vt e offset base).arch = t.arch)
    (hin : ∀ m ∈ (ParallelMove.move op).transfers s vt e offset base, m.InBounds) :
    ParallelRight (.move op) s vt e offset base := by
  refine ⟨fun op' hop => ?_, hin⟩
  cases hop
  exact hsame

theorem luv_ok : ∃ t, luv s vt e offset base = .ok t := by
  unfold luv
  simp only
  split
  · exact ⟨_, rfl⟩
  · exact ⟨_, rfl⟩

theorem sfv_ok_iff : (∃ t, sfv s vt e offset base = .ok t) ↔ e.val = 0 ∨ e.val = 8 := by
  unfold sfv
  simp only
  split
  next h0 => exact iff_of_true ⟨_, rfl⟩ (.inl h0)
  split
  next h8 => exact iff_of_true ⟨_, rfl⟩ (.inr h8)
  next h0 h8 => exact iff_of_false (fun ⟨_, h⟩ => nomatch h) (not_or.mpr ⟨h0, h8⟩)

-- Routines that agree everywhere, and stay in DMEM.

theorem lbv_right : ParallelRight (.move .lbv) s vt e offset base := by
  refine right_of (fun t ht => rspLbv_exact.trans (lbv_exact ht).symm) ?_
  exact List.forall_mem_singleton.mpr (loadBytes_inBounds (List.forall_mem_singleton.mpr
    ⟨mes_lt e.isLt, bes_lt (address_lt 1)⟩))

theorem lsv_right : ParallelRight (.move .lsv) s vt e offset base :=
  right_of (fun _ ht => rspLsv_exact.trans (lsv_exact ht).symm) (loadPasses_inBounds _ _ _)

theorem llv_right : ParallelRight (.move .llv) s vt e offset base :=
  right_of (fun _ ht => rspLlv_exact.trans (llv_exact ht).symm) (loadPasses_inBounds _ _ _)

theorem ldv_right : ParallelRight (.move .ldv) s vt e offset base :=
  right_of (fun _ ht => rspLdv_exact.trans (ldv_exact ht).symm) (loadPasses_inBounds _ _ _)

theorem lqv_right : ParallelRight (.move .lqv) s vt e offset base :=
  right_of (fun _ ht => rspLqv_exact.trans (lqv_exact ht).symm) (loadPasses_inBounds _ _ _)

theorem lrv_right : ParallelRight (.move .lrv) s vt e offset base := by
  refine right_of (fun t ht => ?_) (loadPasses_inBounds _ _ _)
  exact (rspLrv_exact (not_not.mp (ok_of_guard ht).1)).trans (lrv_exact ht).symm

theorem lpv_right : ParallelRight (.move .lpv) s vt e offset base := by
  refine right_of (fun t ht => ?_) (packed_inBounds _ _ _)
  exact (rspLpv_exact (not_not.mp (ok_of_guard ht).1)).trans (lpv_exact ht).symm

theorem lhv_right : ParallelRight (.move .lhv) s vt e offset base := by
  refine right_of (fun t ht => ?_) ?_
  · obtain ⟨he, ht'⟩ := ok_of_guard ht
    exact (rspLhv_exact (not_not.mp he) (not_not.mp (ok_of_guard ht').1)).trans (lhv_exact ht).symm
  · refine List.forall_mem_singleton.mpr (loadLanes_inBounds (List.forall_mem_map.mpr ?_))
    exact fun i hi => ⟨List.mem_range.mp hi, maskedByte_lt _⟩

theorem ltv_right : ParallelRight (.move .ltv) s vt e offset base := by
  refine right_of (fun t ht => ?_) (ltvLoop_inBounds _ _ 8 0 _ _ (by decide))
  obtain ⟨he, ht'⟩ := ok_of_guard ht
  obtain ⟨hvt, ht''⟩ := ok_of_guard ht'
  exact (rspLtv_exact (by omega) (not_not.mp hvt) (not_not.mp (ok_of_guard ht'').1)).trans
    (ltv_exact ht).symm

theorem sbv_right : ParallelRight (.move .sbv) s vt e offset base := by
  refine right_of (fun t ht => rspSbv_exact.trans (sbv_exact ht).symm) ?_
  exact List.forall_mem_singleton.mpr (storeBytes_inBounds (List.forall_mem_singleton.mpr
    ⟨bes_lt (address_lt 1), mes_lt e.isLt⟩))

theorem ssv_right : ParallelRight (.move .ssv) s vt e offset base := by
  refine right_of (fun t ht => rspSsv_exact.trans (ssv_exact ht).symm) ?_
  refine List.forall_mem_singleton.mpr (storeBytes_inBounds fun p hp => ?_)
  rcases List.mem_pair.mp hp with rfl | rfl
  · exact ⟨bes_lt (address_lt 2), mes_lt e.isLt⟩
  · exact ⟨bes_lt (Nat.mod_lt _ (by decide)), mes_lt (Nat.mod_lt _ (by decide))⟩

theorem spv_right : ParallelRight (.move .spv) s vt e offset base := by
  refine right_of (fun t ht => ?_) (packedStores_inBounds _ _ _ _)
  exact (rspSpv_exact (not_not.mp (ok_of_guard ht).1)).trans (spv_exact ht).symm

theorem suv_right : ParallelRight (.move .suv) s vt e offset base := by
  refine right_of (fun t ht => ?_) (packedStores_inBounds _ _ _ _)
  exact (rspSuv_exact (not_not.mp (ok_of_guard ht).1)).trans (suv_exact ht).symm

theorem sqv_right : ParallelRight (.move .sqv) s vt e offset base := by
  have haddr : s.address 16 offset base < 4096 := address_lt 16
  exact right_of (fun t ht => rspSqv_exact.trans (sqv_exact ht).symm)
    (storePasses_inBounds e.val (by omega))

theorem srv_right : ParallelRight (.move .srv) s vt e offset base := by
  have haddr : s.address 16 offset base < 4096 := address_lt 16
  refine right_of (fun t ht => ?_) (storePasses_inBounds _ (by omega))
  exact (rspSrv_exact (not_not.mp (ok_of_guard ht).1)).trans (srv_exact ht).symm

-- Routines that do not.

theorem luv_right_iff : ParallelRight (.move .luv) s vt e offset base ↔
    ¬LuvWraps s e.val (s.address 8 offset base) := by
  constructor
  · intro h
    obtain ⟨t, ht⟩ : ∃ t, luv s vt e offset base = .ok t := luv_ok
    exact rspLuv_same_iff.mp ((h.1 .luv rfl t ht).trans (luv_exact ht))
  · intro h
    exact right_of (fun t ht => (rspLuv_same_iff.mpr h).trans (luv_exact ht).symm)
      (packed_inBounds _ _ _)

theorem slv_right_iff : ParallelRight (.move .slv) s vt e offset base ↔
    ¬4092 < s.address 4 offset base := by
  constructor
  · exact fun h => rspSlv_inBounds_iff.mp h.2
  · intro h
    exact right_of (fun t ht => (rspSlv_exact (not_lt.mp h)).trans (slv_exact ht).symm)
      (rspSlv_inBounds_iff.mpr h)

theorem sdv_agrees_iff : ParallelRight (.move .sdv) s vt e offset base ↔
    ¬Misplaced .sdv s vt e offset base := by
  refine Iff.trans ?_ (sdv_right_iff s vt e offset base)
  constructor
  · exact fun h t ht => (h.1 .sdv rfl t ht).symm.trans rspSdv_exact
  · exact fun h => right_of (fun t ht => rspSdv_exact.trans (h t ht).symm) rspSdv_inBounds

theorem shv_right_iff : ParallelRight (.move .shv) s vt e offset base ↔
    ¬4088 ≤ s.address 16 offset base := by
  constructor
  · exact fun h => rspShv_inBounds_iff.mp h.2
  · refine fun h => right_of (fun t ht => ?_) (rspShv_inBounds_iff.mpr h)
    obtain ⟨he, ht'⟩ := ok_of_guard ht
    exact (rspShv_exact (not_not.mp he) (not_not.mp (ok_of_guard ht').1)).trans (shv_exact ht).symm

theorem sfv_right_iff : ParallelRight (.move .sfv) s vt e offset base ↔
    ¬(4088 ≤ s.address 16 offset base ∨
      (e.val = 0 ∨ e.val = 8) ∧ ¬SfvSame s vt e.val (s.address 16 offset base)) := by
  constructor
  · rintro h (hle | ⟨he, hne⟩)
    · exact rspSfv_inBounds_iff.mp h.2 hle
    · obtain ⟨t, ht⟩ := sfv_ok_iff.mpr he
      exact hne ((rspSfv_same_iff he (rspSfv_inBounds_iff.mp h.2)).mp
        ((h.1 .sfv rfl t ht).trans (sfv_exact ht)))
  · intro h
    obtain ⟨hlt, hsame⟩ := not_or.mp h
    refine right_of (fun t ht => ?_) (rspSfv_inBounds_iff.mpr hlt)
    have he := sfv_ok_iff.mp ⟨t, ht⟩
    exact ((rspSfv_same_iff he hlt).mpr (not_not.mp fun hne => hsame ⟨he, hne⟩)).trans
      (sfv_exact ht).symm

theorem stv_right_iff : ParallelRight (.move .stv) s vt e offset base ↔
    ¬4088 ≤ s.address 16 offset base := by
  constructor
  · exact fun h => rspStv_inBounds_iff.mp h.2
  · refine fun h => right_of (fun t ht => ?_) (rspStv_inBounds_iff.mpr h)
    obtain ⟨he, ht'⟩ := ok_of_guard ht
    obtain ⟨hvt, ht''⟩ := ok_of_guard ht'
    exact (rspStv_exact (by omega) (not_not.mp hvt) (not_not.mp (ok_of_guard ht'').1)).trans
      (stv_exact ht).symm

/-- **Agreement**: a routine is right exactly where it is not wrong. -/
theorem parallelRight_iff (p : ParallelMove) (s : RspVectors) (vt : Fin 32) (e : Fin 16)
    (offset : BitVec 7) (base : Fin 32) :
    ParallelRight p s vt e offset base ↔ ¬ParallelWrong p s vt e offset base := by
  cases p with
  | lfv => exact iff_of_true ⟨nofun, rspLfv_inBounds⟩ not_false
  | lwv => exact iff_of_true ⟨nofun, rspLwv_inBounds⟩ not_false
  | swv => exact ⟨fun h => rspSwv_inBounds_iff.mp h.2, fun h => ⟨nofun, rspSwv_inBounds_iff.mpr h⟩⟩
  | move op =>
    cases op with
    | lbv => exact iff_of_true lbv_right not_false
    | lsv => exact iff_of_true lsv_right not_false
    | llv => exact iff_of_true llv_right not_false
    | ldv => exact iff_of_true ldv_right not_false
    | lpv => exact iff_of_true lpv_right not_false
    | luv => exact luv_right_iff
    | lhv => exact iff_of_true lhv_right not_false
    | lqv => exact iff_of_true lqv_right not_false
    | lrv => exact iff_of_true lrv_right not_false
    | ltv => exact iff_of_true ltv_right not_false
    | sbv => exact iff_of_true sbv_right not_false
    | ssv => exact iff_of_true ssv_right not_false
    | slv => exact slv_right_iff
    | sdv => exact sdv_agrees_iff
    | spv => exact iff_of_true spv_right not_false
    | suv => exact iff_of_true suv_right not_false
    | shv => exact shv_right_iff
    | sfv => exact sfv_right_iff
    | sqv => exact iff_of_true sqv_right not_false
    | srv => exact iff_of_true srv_right not_false
    | stv => exact stv_right_iff

/-- `SLV` to the last half-word of DMEM goes on to the byte behind it. -/
theorem slv_leaves_dmem :
    ¬ParallelRight (.move .slv) ⟨fun _ => 0xffe, fun _ => 0, fun _ _ => 0⟩ 0 0 0 0 := by
  intro h
  exact absurd (rspSlv_inBounds_iff.mp h.2) (not_not.mpr (by decide))

end Agreement

end Mupen64plus
