import Mathlib.Tactic.IntervalCases
import Mupen64plus.Rsp.VectorMemory

/-!
# What vector loads and stores move

Seen from the guest, DMEM is 4096 bytes and a vector register 16, both in the order of the console.
A load or store is defined there byte by byte: which byte goes where, at addresses modulo 4096.

## Main definitions

- `RspArch` — DMEM and the registers as the guest sees them
- `VectorMove.definition` — an instruction, byte by byte

## Main results

- `moveIn_arch`, `moveOut_arch`, `lanesIn_arch`, `lanesOut_arch` — lists of assignments that are
  those of a byte-by-byte definition
-/

namespace Mupen64plus

open Assignments

-- ════════════════════════════════════════════════════════════════════════
-- Flipped addresses
-- ════════════════════════════════════════════════════════════════════════

theorem xor_low (a b n : ℕ) (hb : b < 2 ^ n) :
    a ^^^ b = 2 ^ n * (a / 2 ^ n) + (a % 2 ^ n ^^^ b) := by
  have hdiv : (a ^^^ b) / 2 ^ n = a / 2 ^ n := by
    rw [Nat.xor_div_two_pow, Nat.div_eq_of_lt hb, Nat.xor_zero]
  have hmod : (a ^^^ b) % 2 ^ n = a % 2 ^ n ^^^ b := by
    rw [Nat.xor_mod_two_pow, Nat.mod_eq_of_lt hb]
  rw [← hdiv, ← hmod, Nat.div_add_mod]

theorem bes_eq (a : ℕ) : bes a = 4 * (a / 4) + (3 - a % 4) := by
  have hlt : a % 4 < 4 := Nat.mod_lt _ (by decide)
  rw [bes, xor_low a 3 2 (by decide)]
  show 4 * (a / 4) + (a % 4 ^^^ 3) = _
  interval_cases a % 4 <;> rfl

theorem hes_eq (a : ℕ) : hes a = 4 * (a / 4) + (a % 4 + 2) % 4 := by
  have hlt : a % 4 < 4 := Nat.mod_lt _ (by decide)
  rw [hes, xor_low a 2 2 (by decide)]
  show 4 * (a / 4) + (a % 4 ^^^ 2) = _
  interval_cases a % 4 <;> rfl

theorem mes_eq (a : ℕ) : mes a = 2 * (a / 2) + (1 - a % 2) := by
  have hlt : a % 2 < 2 := Nat.mod_lt _ (by decide)
  rw [mes, xor_low a 1 1 (by decide)]
  show 2 * (a / 2) + (a % 2 ^^^ 1) = _
  interval_cases a % 2 <;> rfl

/-- The bytes of the half-word at an even address. -/
theorem bes_even {a : ℕ} (ha : a % 2 = 0) : bes a = hes a + 1 := by
  rw [bes_eq, hes_eq]
  omega

theorem bes_odd {a : ℕ} (ha : a % 2 = 0) : bes (a + 1) = hes a := by
  rw [bes_eq, hes_eq]
  omega

theorem bes_half {a : ℕ} (ha : a % 2 = 0) (hlt : a + 1 < 4096) (j : ℕ) :
    (if j % 2 = 0 then hes a + 1 else hes a) = bes ((a + j % 2) % 4096) := by
  rcases Nat.mod_two_eq_zero_or_one j with hj | hj
  · have hlt0 : a + 0 < 4096 := Nat.lt_of_succ_lt hlt
    rw [if_pos hj, hj, Nat.mod_eq_of_lt hlt0]
    exact (bes_even ha).symm
  · rw [if_neg (by rw [hj]; decide), hj, Nat.mod_eq_of_lt hlt, bes_odd ha]

/-- Words are not exchanged. -/
theorem bes_add_four (a k : ℕ) : bes (a + 4 * k) = bes a + 4 * k := by
  rw [bes_eq, bes_eq]
  omega

theorem hes_add_left {q : ℕ} (hq : q % 4 = 0) (c : ℕ) : hes (q + c) = q + hes c := by
  simp only [hes_eq]
  omega

/-- The half-word at an even place of a register. -/
theorem mes_even {e : ℕ} (he : e % 2 = 0) : mes e = e + 1 := by
  rw [mes_eq]
  omega

theorem mes_odd {e : ℕ} (he : e % 2 = 0) : mes (e + 1) = e := by
  rw [mes_eq]
  omega

theorem bes_add (q c : ℕ) : bes (8 * q + c) = 8 * q + bes c := by
  simp only [bes_eq]
  omega

theorem mes_add (f c : ℕ) : mes (2 * f + c) = 2 * f + mes c := by
  simp only [mes_eq]
  omega

theorem bes_zero : bes 0 = 3 := rfl

theorem bes_eight : bes 8 = 11 := rfl

theorem hes_zero : hes 0 = 2 := rfl

theorem wes_zero : wes 0 = 0 := rfl

/-- The place of the double-word after one, in DMEM. -/
def nextDouble (q : ℕ) : ℕ := (q + 1) % 512

/-- An address in a double-word of DMEM stays there, or goes over into the next. -/
theorem address_near {q n : ℕ} (hq : q < 512) (hn : n < 8) : (8 * q + n) % 4096 = 8 * q + n := by
  omega

theorem address_far {q n : ℕ} (hlo : 8 ≤ n) (hhi : n < 16) :
    (8 * q + n) % 4096 = 8 * nextDouble q + (n - 8) := by
  unfold nextDouble
  omega

-- ════════════════════════════════════════════════════════════════════════
-- The guest's view
-- ════════════════════════════════════════════════════════════════════════

/-- DMEM and the vector registers, byte by byte in the order of the console. -/
@[ext] structure RspArch where
  byte : Fin 4096 → BitVec 8
  element : Fin 32 → Fin 16 → BitVec 8

/-- The guest's view of the state. -/
def RspVectors.arch (s : RspVectors) : RspArch where
  byte a := s.dmem (bes a)
  element v j := s.vr v (mes j)

namespace RspArch

/-- The byte at an address modulo 4096. -/
def byteAt (m : RspArch) (a : ℕ) : BitVec 8 := m.byte (Fin.ofNat 4096 a)

/-- The element of a register modulo 16. -/
def elementAt (m : RspArch) (v : Fin 32) (j : ℕ) : BitVec 8 := m.element v (Fin.ofNat 16 j)

/-- A lane: two elements. -/
def laneAt (m : RspArch) (v : Fin 32) (i : ℕ) : BitVec 16 :=
  m.elementAt v (2 * i) ++ m.elementAt v (2 * i + 1)

/-- How far an address is behind another, modulo 4096. -/
def distance (addr : ℕ) (a : Fin 4096) : ℕ := (a.val + 4096 - addr) % 4096

/-- Byte `k` of `n` goes from `addr + k` to element `e + k`, where the register has it. -/
def loadBytes (m : RspArch) (vt : Fin 32) (n e addr : ℕ) : RspArch :=
  { m with element := fun v j =>
      if v = vt ∧ e ≤ j.val ∧ j.val < e + n then m.byteAt (addr + (j.val - e)) else m.element v j }

/-- Byte `k` of `n` goes from element `e + k`, modulo 16, to `addr + k`. -/
def storeBytes (m : RspArch) (vt : Fin 32) (n e addr : ℕ) : RspArch :=
  { m with byte := fun a =>
      if distance addr a < n then m.elementAt vt (e + distance addr a) else m.byte a }

/-- Lane `i` becomes the byte at `address i`, shifted. -/
def loadLanes (m : RspArch) (vt : Fin 32) (shift : ℕ) (address : ℕ → ℕ) : RspArch :=
  { m with element := fun v j =>
      if v = vt then
        ((m.byteAt (address (j.val / 2))).setWidth 16 <<< shift).extractLsb' (8 * (1 - j.val % 2)) 8
      else m.element v j }

/-- Lane `first + k` of `n`, shifted, goes to `addr + step * k`. -/
def storeLanes (m : RspArch) (vt : Fin 32) (shift n first step addr : ℕ) : RspArch :=
  { m with byte := fun a =>
      if distance addr a % step = 0 ∧ distance addr a / step < n then
        ((m.laneAt vt (first + distance addr a / step)).sshiftRight shift).setWidth 8
      else m.byte a }

/-- Half-word `i` goes to lane `i - e/2`, modulo 8, of the register at place `i` of the block. -/
def loadTransposed (m : RspArch) (vt : Fin 32) (e addr : ℕ) : RspArch :=
  { m with element := fun v j =>
      if v.val / 8 = vt.val / 8 ∧ j.val / 2 = (v.val % 8 + 8 - e / 2) % 8 then
        m.byteAt (addr + 2 * (v.val % 8) + j.val % 2)
      else m.element v j }

/-- Half-word `i` comes from lane `i` of the register at place `e/2 + i`, modulo 8. -/
def storeTransposed (m : RspArch) (vt : Fin 32) (e addr : ℕ) : RspArch :=
  { m with byte := fun a =>
      if distance addr a < 16 then
        m.elementAt (blockReg vt ((e / 2 + distance addr a / 2) % 8)) (distance addr a)
      else m.byte a }

end RspArch

namespace VectorMove

/-- The scale of the offset. -/
def scale (op : VectorMove) : BitVec 32 :=
  match op with
  | .lbv | .sbv => 1
  | .lsv | .ssv => 2
  | .llv | .slv => 4
  | .ldv | .sdv | .lpv | .luv | .spv | .suv => 8
  | .lhv | .shv | .sfv | .lqv | .lrv | .sqv | .srv | .ltv | .stv => 16

/-- The instruction at an address, byte by byte. -/
def definition (op : VectorMove) (m : RspArch) (vt : Fin 32) (e addr : ℕ) : RspArch :=
  match op with
  | .lbv => m.loadBytes vt 1 e addr
  | .lsv => m.loadBytes vt 2 e addr
  | .llv => m.loadBytes vt 4 e addr
  | .ldv => m.loadBytes vt 8 e addr
  | .lqv => m.loadBytes vt (16 - addr % 16) e addr
  | .lrv => m.loadBytes vt (addr % 16) (16 - addr % 16) (addr - addr % 16)
  | .lpv => m.loadLanes vt 8 fun i => addr + i
  | .luv => m.loadLanes vt 7 fun i => addr + (i + 16 - e) % 16
  | .lhv => m.loadLanes vt 7 fun i => addr + 2 * i
  | .ltv => m.loadTransposed vt e addr
  | .sbv => m.storeBytes vt 1 e addr
  | .ssv => m.storeBytes vt 2 e addr
  | .slv => m.storeBytes vt 4 e addr
  | .sdv => m.storeBytes vt 8 e addr
  | .sqv => m.storeBytes vt (16 - addr % 16) e addr
  | .srv => m.storeBytes vt (addr % 16) (16 - addr % 16) (addr - addr % 16)
  | .spv => m.storeLanes vt 8 8 0 1 addr
  | .suv => m.storeLanes vt 7 8 0 1 addr
  | .shv => m.storeLanes vt 7 8 0 2 addr
  -- Every fourth byte of a quad-word: bits 2 and 3 of the address are dropped.
  | .sfv => m.storeLanes vt 7 4 (e / 2) 4 (addr - 4 * (addr / 4 % 4))
  | .stv => m.storeTransposed vt e addr

end VectorMove

-- ════════════════════════════════════════════════════════════════════════
-- Assignments in order
-- ════════════════════════════════════════════════════════════════════════

namespace RspVectors

variable (s : RspVectors) (vt : Fin 32)

theorem arch_byteAt (a : ℕ) : s.arch.byteAt a = s.dmem (bes (a % 4096)) := rfl

theorem arch_elementAt (v : Fin 32) (j : ℕ) : s.arch.elementAt v j = s.vr v (mes (j % 16)) := rfl

theorem arch_laneAt (v : Fin 32) {i : ℕ} (hi : i < 8) : s.arch.laneAt v i = s.lane v i := by
  have h0 : mes (2 * i % 16) = 2 * i + 1 := by
    rw [mes_eq]
    omega
  have h1 : mes ((2 * i + 1) % 16) = 2 * i := by
    rw [mes_eq]
    omega
  rw [RspArch.laneAt, arch_elementAt, arch_elementAt, h0, h1]
  rfl

/-- The moves of a load, in order. -/
def bytesIn (n e addr : ℕ) : Moves :=
  (List.range n).map fun k => (mes (e + k), bes ((addr + k) % 4096))

/-- The moves of a store, in order. -/
def bytesOut (n e addr : ℕ) : Moves :=
  (List.range n).map fun k => (bes ((addr + k) % 4096), mes ((e + k) % 16))

theorem moveIn_arch (n e addr : ℕ) :
    (s.moveIn vt (bytesIn n e addr)).arch = s.arch.loadBytes vt n e addr := by
  refine RspArch.ext rfl ?_
  funext v j
  show (Function.update s.vr vt _) v (mes j) = if _ then _ else s.vr v (mes j)
  by_cases hv : v = vt
  · subst hv
    rw [Function.update_self, bytesIn, List.map_map]
    by_cases hj : e ≤ j.val ∧ j.val < e + n
    · have hkey : mes j.val = mes (e + (j.val - e)) := congrArg mes (by omega)
      rw [if_pos ⟨rfl, hj⟩, arch_byteAt, hkey]
      refine assign_map_of_mem (g := fun k => mes (e + k))
        (x := fun k => s.dmem (bes ((addr + k) % 4096))) _ List.nodup_range ?_
        (List.mem_range.mpr (by omega))
      intro k _ k' _ heq
      simp only [mes_eq] at heq
      omega
    · rw [if_neg fun h => hj h.2]
      refine assign_map_of_ne (g := fun k => mes (e + k)) _ fun k hk heq => hj ?_
      rw [List.mem_range] at hk
      simp only [mes_eq] at heq
      omega
  · rw [Function.update_of_ne hv, if_neg fun h => hv h.1]

/-- Bytes stored at an address and after it, modulo 4096. -/
theorem assign_bytes (f : Bytes) (x : ℕ → BitVec 8) {n : ℕ} (hn : n ≤ 4096) {addr : ℕ}
    (haddr : addr < 4096) (a : Fin 4096) :
    assign f ((List.range n).map fun k => (bes ((addr + k) % 4096), x k)) (bes a) =
      if RspArch.distance addr a < n then x (RspArch.distance addr a) else f (bes a) := by
  have ha := a.isLt
  rw [RspArch.distance]
  by_cases hk : (a.val + 4096 - addr) % 4096 < n
  · have hkey : bes a.val = bes ((addr + (a.val + 4096 - addr) % 4096) % 4096) :=
      congrArg bes (by omega)
    rw [if_pos hk, hkey]
    refine assign_map_of_mem (g := fun k => bes ((addr + k) % 4096)) _ List.nodup_range ?_
      (List.mem_range.mpr hk)
    intro k hk k' hk' heq
    rw [List.mem_range] at hk hk'
    simp only [bes_eq] at heq
    omega
  · rw [if_neg hk]
    refine assign_map_of_ne (g := fun k => bes ((addr + k) % 4096)) _ fun k hk' heq => hk ?_
    rw [List.mem_range] at hk'
    simp only [bes_eq] at heq
    omega

theorem moveOut_arch {n : ℕ} (hn : n ≤ 4096) (e : ℕ) {addr : ℕ} (haddr : addr < 4096) :
    (s.moveOut vt (bytesOut n e addr)).arch = s.arch.storeBytes vt n e addr := by
  refine RspArch.ext ?_ rfl
  funext a
  show assign s.dmem _ (bes a) = if _ then _ else s.dmem (bes a)
  rw [bytesOut, List.map_map]
  exact assign_bytes s.dmem (fun k => s.vr vt (mes ((e + k) % 16))) hn haddr a

/-- The bytes of all lanes, the lanes taken in order. -/
theorem flatMap_laneBytes (x : ℕ → BitVec 16) :
    ((List.range 8).flatMap fun i => laneBytes i (x i)) =
      (List.range 16).map fun j => (mes j, (x (j / 2)).extractLsb' (8 * (1 - j % 2)) 8) := rfl

/-- Lanes loaded from the bytes at eight addresses, in any order. -/
theorem lanesIn_arch (shift : ℕ) (address : ℕ → ℕ) {l : Moves}
    (hl : l.Perm ((List.range 8).map fun i => (i, bes (address i % 4096)))) :
    (s.lanesIn vt shift l).arch = s.arch.loadLanes vt shift address := by
  refine RspArch.ext rfl ?_
  funext v j
  show (Function.update s.vr vt _) v (mes j) = if _ then _ else s.vr v (mes j)
  by_cases hv : v = vt
  · subst hv
    have hinj : ∀ k ∈ List.range 16, ∀ k' ∈ List.range 16, mes k = mes k' → k = k' := by
      intro k _ k' _ heq
      simp only [mes_eq] at heq
      omega
    let value : ℕ → BitVec 16 := fun a => (s.dmem a).setWidth 16 <<< shift
    have hbytes : (l.flatMap fun p => laneBytes p.1 (value p.2)).Perm
        ((List.range 16).map fun j =>
          (mes j, (value (bes (address (j / 2) % 4096))).extractLsb' (8 * (1 - j % 2)) 8)) := by
      rw [← flatMap_laneBytes fun i => value (bes (address i % 4096))]
      have hperm := hl.flatMap_right fun p => laneBytes p.1 (value p.2)
      rwa [List.flatMap_map] at hperm
    have hkeys : ((l.flatMap fun p => laneBytes p.1 (value p.2)).map Prod.fst).Nodup := by
      rw [(hbytes.map Prod.fst).nodup_iff, List.map_map]
      exact List.Nodup.map_on hinj List.nodup_range
    rw [Function.update_self, if_pos rfl, arch_byteAt, assign_perm _ hkeys hbytes]
    exact assign_map_of_mem (g := mes) _ List.nodup_range hinj (List.mem_range.mpr j.isLt)
  · rw [Function.update_of_ne hv, if_neg hv]

/-- Lanes stored to bytes at equal steps, in any order. -/
theorem lanesOut_arch (shift : ℕ) {n first step addr : ℕ} (hstep : step * n ≤ 4096)
    (hpos : 0 < step) (hfirst : first + n ≤ 8) (haddr : addr < 4096) {l : Moves}
    (hl : l.Perm ((List.range n).map fun k => (bes ((addr + step * k) % 4096), first + k))) :
    (s.lanesOut vt shift l).arch = s.arch.storeLanes vt shift n first step addr := by
  refine RspArch.ext ?_ rfl
  funext a
  show assign s.dmem _ (bes a) = if _ then _ else s.dmem (bes a)
  have ha := a.isLt
  have hinj : ∀ k ∈ List.range n, ∀ k' ∈ List.range n,
      bes ((addr + step * k) % 4096) = bes ((addr + step * k') % 4096) → k = k' := by
    intro k hk k' hk' heq
    rw [List.mem_range] at hk hk'
    have hlt : step * k < 4096 := ((Nat.mul_lt_mul_left hpos).mpr hk).trans_le hstep
    have hlt' : step * k' < 4096 := ((Nat.mul_lt_mul_left hpos).mpr hk').trans_le hstep
    simp only [bes_eq] at heq
    exact Nat.eq_of_mul_eq_mul_left hpos (by omega)
  have hmoves : (l.map fun p => (p.1, ((s.lane vt p.2).sshiftRight shift).setWidth 8)).Perm
      ((List.range n).map fun k => (bes ((addr + step * k) % 4096),
        ((s.lane vt (first + k)).sshiftRight shift).setWidth 8)) := by
    have hperm := hl.map fun p => (p.1, ((s.lane vt p.2).sshiftRight shift).setWidth 8)
    rwa [List.map_map] at hperm
  have hkeys : ((l.map fun p =>
      (p.1, ((s.lane vt p.2).sshiftRight shift).setWidth 8)).map Prod.fst).Nodup := by
    rw [(hmoves.map Prod.fst).nodup_iff, List.map_map]
    exact List.Nodup.map_on hinj List.nodup_range
  rw [assign_perm _ hkeys hmoves, RspArch.distance]
  by_cases hk : (a.val + 4096 - addr) % 4096 % step = 0 ∧ (a.val + 4096 - addr) % 4096 / step < n
  · have hmul : step * ((a.val + 4096 - addr) % 4096 / step) = (a.val + 4096 - addr) % 4096 :=
      Nat.mul_div_cancel' (Nat.dvd_of_mod_eq_zero hk.1)
    have hkey : bes a.val =
        bes ((addr + step * ((a.val + 4096 - addr) % 4096 / step)) % 4096) := by
      rw [hmul]
      exact congrArg bes (by omega)
    rw [if_pos hk, arch_laneAt s vt (by omega), hkey]
    exact assign_map_of_mem (g := fun k => bes ((addr + step * k) % 4096))
      (x := fun k => ((s.lane vt (first + k)).sshiftRight shift).setWidth 8) _ List.nodup_range
      hinj (List.mem_range.mpr hk.2)
  · rw [if_neg hk]
    refine assign_map_of_ne (g := fun k => bes ((addr + step * k) % 4096)) _ fun k hk' heq => hk ?_
    rw [List.mem_range] at hk'
    have hlt : step * k < 4096 := ((Nat.mul_lt_mul_left hpos).mpr hk').trans_le hstep
    simp only [bes_eq] at heq
    have hdist : (a.val + 4096 - addr) % 4096 = step * k := by omega
    rw [hdist]
    exact ⟨Nat.mul_mod_right step k, by rwa [Nat.mul_div_cancel_left k hpos]⟩

end RspVectors

end Mupen64plus
