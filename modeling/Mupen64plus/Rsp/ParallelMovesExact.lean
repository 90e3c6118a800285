import Mupen64plus.Lib.Flags
import Mupen64plus.Rsp.ParallelMoves
import Mupen64plus.Rsp.VectorInstructions

/-!
# What the recompiler's vector loads and stores move

The routines against the byte-by-byte definitions of the instructions, each on the elements and
addresses for which the interpreter reports nothing.

## Main results

- `rspLsv_exact`, `rspLqv_exact`, … — a routine does what the definition of its instruction does
- `rspLuv_arch`, `rspSfv_run` — the two that do something else
-/

namespace Mupen64plus

open Assignments RspVectors

-- ════════════════════════════════════════════════════════════════════════
-- Addresses and indices
-- ════════════════════════════════════════════════════════════════════════

theorem toNat_and_fff (x : BitVec 32) : (x &&& 0xfff#32).toNat = x.toNat % 4096 :=
  Flags.toNat_and_low 12 rfl

theorem toNat_and_f (x : BitVec 32) : (x &&& 0xf#32).toNat = x.toNat % 16 :=
  Flags.toNat_and_low 4 rfl

theorem toNat_and_7 (x : BitVec 32) : (x &&& 7#32).toNat = x.toNat % 8 :=
  Flags.toNat_and_low 3 rfl

/-- An address rounded down to a double-word, modulo the size of DMEM. -/
theorem toNat_andNot_7 (x : BitVec 32) : (x &&& ~~~7#32).toNat = x.toNat - x.toNat % 8 := by
  have hlt := x.isLt
  refine ((BitVec.toNat_and _ _).trans (Flags.and_field _ 3 29)).trans ?_
  omega

theorem toNat_andNot_f (x : BitVec 32) : (x &&& ~~~0xf#32).toNat = x.toNat - x.toNat % 16 := by
  have hlt := x.isLt
  refine ((BitVec.toNat_and _ _).trans (Flags.and_field _ 4 28)).trans ?_
  omega

theorem maskedByte_eq (addr : BitVec 32) (k : ℕ) :
    maskedByte (addr + BitVec.ofNat 32 k) = bes ((addr.toNat % 4096 + k) % 4096) := by
  rw [maskedByte, toNat_and_fff, BitVec.toNat_add, BitVec.toNat_ofNat]
  exact congrArg bes (by omega)

theorem wrapIndex_eq {b e : ℕ} (i : ℕ) (hb : b < 16) (he : e < 16) :
    wrapIndex b e i = (b + 16 - e + i) % 16 := by
  rw [wrapIndex, toNat_and_f]
  simp only [BitVec.toNat_add, BitVec.toNat_sub, BitVec.toNat_ofNat]
  omega

section Routines

variable {s t : RspVectors} {vt : Fin 32} {e : Fin 16} {offset : BitVec 7} {base : Fin 32}

theorem wideAddress_mod (scale : BitVec 32) :
    (s.wideAddress scale offset base).toNat % 4096 = s.address scale offset base := by
  rw [RspVectors.address, toNat_and_fff]
  rfl

theorem mes_lt {j : ℕ} (h : j < 16) : mes j < 16 := by
  rw [mes_eq]
  omega

theorem bes_lt {a : ℕ} (h : a < 4096) : bes a < 4096 := by
  rw [bes_eq]
  omega

theorem maskedByte_lt (addr : BitVec 32) : maskedByte addr < 4096 := by
  rw [maskedByte, toNat_and_fff]
  exact bes_lt (Nat.mod_lt _ (by decide))

/-- Lanes from the same bytes. -/
theorem loadLanes_congr (m : RspArch) (vt : Fin 32) (shift : ℕ) {f g : ℕ → ℕ}
    (h : ∀ i < 8, m.byteAt (f i) = m.byteAt (g i)) :
    m.loadLanes vt shift f = m.loadLanes vt shift g := by
  refine RspArch.ext rfl ?_
  funext v j
  have hj := j.isLt
  show (if _ then _ else _) = if _ then _ else _
  rw [h (j.val / 2) (by omega)]

-- ════════════════════════════════════════════════════════════════════════
-- Loads and stores of bytes
-- ════════════════════════════════════════════════════════════════════════

theorem loadPasses_eq {start stop : ℕ} (hstop : stop ≤ 16) (addr : BitVec 32) :
    loadPasses start stop addr = bytesIn (stop - start) start (addr.toNat % 4096) := by
  refine List.map_congr_left fun k hk => ?_
  rw [List.mem_range] at hk
  rw [maskedByte_eq, Nat.mod_eq_of_lt (show start + k < 16 by omega)]

/-- Bytes beyond the register are not loaded. -/
theorem loadBytes_trim (m : RspArch) (vt : Fin 32) {n n' e : ℕ} (addr : ℕ)
    (h : ∀ j < 16, e ≤ j → (j < e + n ↔ j < e + n')) :
    m.loadBytes vt n e addr = m.loadBytes vt n' e addr := by
  refine RspArch.ext rfl ?_
  funext v j
  have hiff : (v = vt ∧ e ≤ j.val ∧ j.val < e + n) ↔ (v = vt ∧ e ≤ j.val ∧ j.val < e + n') := by
    constructor
    · rintro ⟨hv, hj, hn⟩
      exact ⟨hv, hj, (h j.val j.isLt hj).mp hn⟩
    · rintro ⟨hv, hj, hn⟩
      exact ⟨hv, hj, (h j.val j.isLt hj).mpr hn⟩
  show (if _ then _ else _) = if _ then _ else _
  by_cases hin : v = vt ∧ e ≤ j.val ∧ j.val < e + n
  · rw [if_pos hin, if_pos (hiff.mp hin)]
  · rw [if_neg hin, if_neg fun hc => hin (hiff.mpr hc)]

/-- A load of `n` bytes that stops at the end of the register. -/
theorem load_exact (n : ℕ) (scale : BitVec 32) {stop : ℕ} (hstop : stop ≤ 16)
    (hn : ∀ j < 16, e.val ≤ j → (j < stop ↔ j < e.val + n)) :
    (s.moveIn vt (loadPasses e.val stop (s.wideAddress scale offset base))).arch =
      s.arch.loadBytes vt n e.val (s.address scale offset base) := by
  rw [loadPasses_eq hstop, wideAddress_mod, moveIn_arch]
  refine loadBytes_trim _ _ _ fun j hj hej => ?_
  rw [← hn j hj hej]
  omega

theorem rspLbv_exact : (ParallelMove.run (.move .lbv) s vt e offset base).arch =
    s.arch.loadBytes vt 1 e.val (s.address 1 offset base) :=
  have h : lbv s vt e offset base = .ok (ParallelMove.run (.move .lbv) s vt e offset base) := rfl
  lbv_exact h

theorem rspLsv_exact : (ParallelMove.run (.move .lsv) s vt e offset base).arch =
    s.arch.loadBytes vt 2 e.val (s.address 2 offset base) :=
  load_exact 2 2 (by split <;> omega) fun j hj hej => by split <;> omega

theorem rspLlv_exact : (ParallelMove.run (.move .llv) s vt e offset base).arch =
    s.arch.loadBytes vt 4 e.val (s.address 4 offset base) :=
  load_exact 4 4 (by split <;> omega) fun j hj hej => by split <;> omega

theorem rspLdv_exact : (ParallelMove.run (.move .ldv) s vt e offset base).arch =
    s.arch.loadBytes vt 8 e.val (s.address 8 offset base) :=
  load_exact 8 8 (by split <;> omega) fun j hj hej => by split <;> omega

theorem rspLqv_exact : (ParallelMove.run (.move .lqv) s vt e offset base).arch =
    s.arch.loadBytes vt (16 - s.address 16 offset base % 16) e.val
      (s.address 16 offset base) := by
  have hoffset : ((s.wideAddress 16 offset base) &&& 0xf#32).toNat =
      s.address 16 offset base % 16 := by
    rw [toNat_and_f, ← wideAddress_mod]
    omega
  refine load_exact _ 16 ?_ fun j hj hej => ?_
  · split <;> omega
  · rw [hoffset]
    split <;> omega

theorem rspLrv_exact (he : e.val = 0) : (ParallelMove.run (.move .lrv) s vt e offset base).arch =
    s.arch.loadBytes vt (s.address 16 offset base % 16) (16 - s.address 16 offset base % 16)
      (s.address 16 offset base - s.address 16 offset base % 16) := by
  have hwide : (s.wideAddress 16 offset base).toNat % 4096 = s.address 16 offset base :=
    wideAddress_mod 16
  have hstart : (16 - (((s.wideAddress 16 offset base) &&& 0xf#32) - BitVec.ofNat 32 e.val)).toNat =
      16 - s.address 16 offset base % 16 := by
    have hmask := toNat_and_f (s.wideAddress 16 offset base)
    rw [he]
    show (16#32 - (_ - 0#32)).toNat = _
    rw [BitVec.sub_zero, BitVec.toNat_sub, hmask]
    show (2 ^ 32 - _ + 16) % 2 ^ 32 = _
    omega
  have hquad : ((s.wideAddress 16 offset base) &&& ~~~0xf#32).toNat % 4096 =
      s.address 16 offset base - s.address 16 offset base % 16 := by
    rw [toNat_andNot_f]
    omega
  show (s.moveIn vt (loadPasses _ 16 _)).arch = _
  rw [hstart, loadPasses_eq (Nat.le_refl 16), hquad, moveIn_arch]
  congr 1
  omega

theorem storePasses_eq {n e addr : ℕ} (h : addr + n ≤ 4096) :
    storePasses n e addr = bytesOut n e addr := by
  refine List.map_congr_left fun k hk => ?_
  rw [List.mem_range] at hk
  rw [Nat.mod_eq_of_lt (show addr + k < 4096 by omega)]

theorem rspSbv_exact : (ParallelMove.run (.move .sbv) s vt e offset base).arch =
    s.arch.storeBytes vt 1 e.val (s.address 1 offset base) :=
  have h : sbv s vt e offset base = .ok (ParallelMove.run (.move .sbv) s vt e offset base) := rfl
  sbv_exact h

theorem rspSsv_exact : (ParallelMove.run (.move .ssv) s vt e offset base).arch =
    s.arch.storeBytes vt 2 e.val (s.address 2 offset base) :=
  have h : ssv s vt e offset base = .ok (ParallelMove.run (.move .ssv) s vt e offset base) := rfl
  ssv_exact h

theorem rspSlv_exact (h : s.address 4 offset base ≤ 4092) :
    (ParallelMove.run (.move .slv) s vt e offset base).arch =
      s.arch.storeBytes vt 4 e.val (s.address 4 offset base) := by
  show (s.moveOut vt (storePasses 4 e.val (s.address 4 offset base))).arch = _
  rw [storePasses_eq (by omega), moveOut_arch _ _ (by decide) _ (address_lt 4)]

/-- The half-words of `SDV` are its bytes. -/
theorem sdvHalves_eq {e addr : ℕ} (he : e ≤ 8) (heven : e % 2 = 0) (haddr : addr % 2 = 0) :
    ((List.range 4).flatMap fun i =>
      half (2 * (hes ((addr + 2 * i) % 4096) / 2)) (2 * (e / 2 + i))) = bytesOut 8 e addr := by
  have hbytes : bytesOut 8 e addr = exchange (bytesIn 8 e addr) :=
    (exchange_bytesIn (by omega)).symm
  rw [hbytes, show 8 = 2 * 4 from rfl, ← halves_eq addr
    (fun i => 2 * (hes ((addr + 2 * i) % 4096) / 2)) heven]
  · rw [exchange, List.map_flatMap]
    refine List.flatMap_congr fun i _ => ?_
    rw [show 2 * (e / 2 + i) = e + 2 * i by omega]
    rfl
  · intro i _
    have heven' : (addr + 2 * i) % 4096 % 2 = 0 := by omega
    have hhes : 2 * (hes ((addr + 2 * i) % 4096) / 2) = hes ((addr + 2 * i) % 4096) := by
      rw [hes_eq]
      omega
    have hnext : (addr + (2 * i + 1)) % 4096 = (addr + 2 * i) % 4096 + 1 := by omega
    rw [hhes, hnext]
    exact ⟨(bes_even heven').symm, (bes_odd heven').symm⟩

theorem rspSdv_exact : (ParallelMove.run (.move .sdv) s vt e offset base).arch =
    s.arch.storeBytes vt 8 e.val (s.address 8 offset base) := by
  rw [← moveOut_arch _ _ (by decide) _ (address_lt 8)]
  show ((rspSdv s vt e offset base).foldl Transfer.run s).arch = _
  unfold rspSdv
  simp only
  split
  · rfl
  · rw [sdvHalves_eq (by omega) (by omega) (by omega)]
    rfl

theorem rspSqv_exact : (ParallelMove.run (.move .sqv) s vt e offset base).arch =
    s.arch.storeBytes vt (16 - s.address 16 offset base % 16) e.val
      (s.address 16 offset base) := by
  have haddr : s.address 16 offset base < 4096 := address_lt 16
  show (s.moveOut vt (storePasses _ e.val (s.address 16 offset base))).arch = _
  rw [storePasses_eq (by omega), moveOut_arch _ _ (by omega) _ haddr]

theorem rspSrv_exact (he : e.val = 0) : (ParallelMove.run (.move .srv) s vt e offset base).arch =
    s.arch.storeBytes vt (s.address 16 offset base % 16) (16 - s.address 16 offset base % 16)
      (s.address 16 offset base - s.address 16 offset base % 16) := by
  have haddr : s.address 16 offset base < 4096 := address_lt 16
  show (s.moveOut vt (storePasses _ _ _)).arch = _
  rw [storePasses_eq (by omega), moveOut_arch _ _ (by omega) _ (by omega), he, Nat.zero_add]

-- ════════════════════════════════════════════════════════════════════════
-- Lanes
-- ════════════════════════════════════════════════════════════════════════

/-- `LPV` and `LUV` stay in the 16 bytes from the double-word on. -/
theorem packed_arch (shift : ℕ) : (s.lanesIn vt shift
    (packedPasses e.val (s.address 8 offset base))).arch = s.arch.loadLanes vt shift fun i =>
      s.address 8 offset base - s.address 8 offset base % 8 +
        (s.address 8 offset base % 8 + 16 - e.val + i) % 16 := by
  refine lanesIn_arch s vt shift _ (List.Perm.of_eq (List.map_congr_left fun i _ => ?_))
  rw [wrapIndex_eq i (by omega) e.isLt]

theorem rspLpv_exact (he : e.val = 0) : (ParallelMove.run (.move .lpv) s vt e offset base).arch =
    s.arch.loadLanes vt 8 fun i => s.address 8 offset base + i := by
  refine (packed_arch 8).trans (loadLanes_congr _ _ _ fun i hi => ?_)
  exact congrArg s.arch.byteAt (by omega)

theorem rspLuv_arch : (ParallelMove.run (.move .luv) s vt e offset base).arch =
    s.arch.loadLanes vt 7 fun i => s.address 8 offset base - s.address 8 offset base % 8 +
      (s.address 8 offset base % 8 + 16 - e.val + i) % 16 := packed_arch 7

theorem rspLhv_exact (he : e.val = 0) (haligned : s.address 16 offset base / 2 % 8 = 0) :
    (ParallelMove.run (.move .lhv) s vt e offset base).arch =
      s.arch.loadLanes vt 7 fun i => s.address 16 offset base + 2 * i := by
  have hwide : (s.wideAddress 16 offset base).toNat % 4096 = s.address 16 offset base :=
    wideAddress_mod 16
  refine lanesIn_arch s vt 7 _ (List.Perm.of_eq (List.map_congr_left fun i hi => ?_))
  rw [List.mem_range] at hi
  rw [maskedByte_eq, toNat_andNot_7, toNat_and_7, wrapIndex_eq _ (by omega) e.isLt, he]
  exact congrArg (fun a => (i, bes a)) (by omega)

/-- `SPV` and `SUV` of element 0 shift all lanes alike. -/
theorem packedStores_zero (addr first second : ℕ) : packedStores 0 addr first second =
    ((List.range 8).map fun k => (bes ((addr + 1 * k) % 4096), 0 + k)).map
      fun p => (p.1, p.2, first) := by
  rw [List.map_map]
  refine List.map_congr_left fun k hk => ?_
  rw [List.mem_range] at hk
  show (bes ((addr + k) % 4096), (0 + k) % 8, if (0 + k) % 16 < 8 then first else second) =
    (bes ((addr + 1 * k) % 4096), 0 + k, first)
  rw [if_pos (by omega), Nat.mod_eq_of_lt (show 0 + k < 8 by omega), Nat.one_mul]

theorem storeLanes_run (shift : ℕ) (l : Moves) :
    Transfer.run s (.storeLanes vt (l.map fun p => (p.1, p.2, shift))) = s.lanesOut vt shift l := by
  rw [Transfer.run, lanesOut, List.map_map]
  rfl

theorem rspSpv_exact (he : e.val = 0) : (ParallelMove.run (.move .spv) s vt e offset base).arch =
    s.arch.storeLanes vt 8 8 0 1 (s.address 8 offset base) := by
  show (Transfer.run s (.storeLanes vt (packedStores e.val _ 8 7))).arch = _
  rw [he, packedStores_zero, storeLanes_run]
  exact lanesOut_arch s vt 8 (by decide) (by decide) (by decide) (address_lt 8) (List.Perm.refl _)

theorem rspSuv_exact (he : e.val = 0) : (ParallelMove.run (.move .suv) s vt e offset base).arch =
    s.arch.storeLanes vt 7 8 0 1 (s.address 8 offset base) := by
  show (Transfer.run s (.storeLanes vt (packedStores e.val _ 7 8))).arch = _
  rw [he, packedStores_zero, storeLanes_run]
  exact lanesOut_arch s vt 7 (by decide) (by decide) (by decide) (address_lt 8) (List.Perm.refl _)

/-- The byte of `SHV` from the two of a lane. -/
theorem pair_shift (high low : BitVec 8) :
    (high <<< 1) ||| (low >>> 7) = ((high ++ low).sshiftRight 7).setWidth 8 := by
  apply BitVec.eq_of_getLsbD_eq
  intro i hi
  rw [BitVec.getLsbD_or, BitVec.getLsbD_shiftLeft, BitVec.getLsbD_ushiftRight,
    BitVec.getLsbD_setWidth, decide_eq_true hi, BitVec.getLsbD_sshiftRight,
    decide_eq_false (show ¬16 ≤ i by omega), if_pos (show 7 + i < 16 by omega),
    BitVec.getLsbD_append]
  rcases Nat.eq_zero_or_pos i with rfl | hpos
  · simp
  · rw [decide_eq_false (show ¬i < 1 by omega), if_neg (show ¬7 + i < 8 by omega),
      BitVec.getLsbD_of_ge low _ (by omega), show 7 + i - 8 = i - 1 by omega]
    simp

theorem rspShv_exact (he : e.val = 0) (haligned : s.address 16 offset base / 2 % 8 = 0) :
    (ParallelMove.run (.move .shv) s vt e offset base).arch =
      s.arch.storeLanes vt 7 8 0 2 (s.address 16 offset base) := by
  have haddr : s.address 16 offset base < 4096 := address_lt 16
  rw [← lanesOut_arch s vt 7 (by decide) (by decide) (by decide) haddr (List.Perm.refl _)]
  show (Transfer.run s (.storePairs vt _)).arch = _
  refine congrArg (fun l => ({ s with dmem := assign s.dmem l } : RspVectors).arch) ?_
  rw [List.map_map, List.map_map]
  refine List.map_congr_left fun k hk => ?_
  rw [List.mem_range] at hk
  have hkey : bes (s.address 16 offset base - s.address 16 offset base % 8 +
      (s.address 16 offset base % 8 + 2 * k) % 16) =
        bes ((s.address 16 offset base + 2 * k) % 4096) := congrArg bes (by omega)
  have hhigh : mes ((e.val + 2 * k) % 16) = 2 * k + 1 := by
    rw [mes_eq]
    omega
  have hlow : mes ((e.val + 2 * k + 1) % 16) = 2 * k := by
    rw [mes_eq]
    omega
  show (bes _, (s.vr vt (mes ((e.val + 2 * k) % 16)) <<< 1) |||
      (s.vr vt (mes ((e.val + 2 * k + 1) % 16)) >>> 7)) =
    (_, ((s.lane vt (0 + k)).sshiftRight 7).setWidth 8)
  rw [hkey, hhigh, hlow, pair_shift, Nat.zero_add]
  rfl

-- ════════════════════════════════════════════════════════════════════════
-- Blocks of registers
-- ════════════════════════════════════════════════════════════════════════

theorem ltvNext_eq (start : BitVec 32) {c : ℕ} (hc : c < 16) :
    ltvNext start (start + BitVec.ofNat 32 c) = start + BitVec.ofNat 32 ((c + 1) % 16) := by
  have hstep : start + BitVec.ofNat 32 c + 1 = start + BitVec.ofNat 32 (c + 1) := by
    apply BitVec.eq_of_toNat_eq
    simp only [BitVec.toNat_add, BitVec.toNat_ofNat, BitVec.ofNat_eq_ofNat]
    omega
  have hend : (start + BitVec.ofNat 32 (c + 1) = start + 16) ↔ c + 1 = 16 := by
    constructor
    · intro h
      have hnat := congrArg BitVec.toNat h
      simp only [BitVec.toNat_add, BitVec.toNat_ofNat, BitVec.ofNat_eq_ofNat] at hnat
      have hlt := start.isLt
      omega
    · intro h
      rw [h]
      rfl
  rw [ltvNext, hstep]
  by_cases h : c + 1 = 16
  · rw [if_pos (hend.mpr h), h]
    exact (BitVec.add_zero start).symm
  · rw [if_neg fun hc' => h (hend.mp hc'), Nat.mod_eq_of_lt (by omega)]

/-- The passes of `LTV`: two bytes each, modulo 16, to the registers of the block in turn. -/
theorem ltvLoop_eq (vt0 : ℕ) (start : BitVec 32) (n i j : ℕ) {c : ℕ} (hc : c < 16) :
    ltvLoop vt0 start n i j (start + BitVec.ofNat 32 c) = (List.range n).map fun k =>
      .loadBytes (Fin.ofNat 32 (vt0 + (j + k) % 8))
        [(mes (i + 2 * k), maskedByte (start + BitVec.ofNat 32 ((c + 2 * k) % 16))),
          (mes (i + 2 * k + 1), maskedByte (start + BitVec.ofNat 32 ((c + 2 * k + 1) % 16)))] := by
  induction n generalizing i j c with
  | zero => rfl
  | succ n ih =>
    have hc' : (c + 1) % 16 < 16 := Nat.mod_lt _ (by decide)
    rw [ltvLoop, ltvNext_eq start hc, ltvNext_eq start hc', ih _ _ (Nat.mod_lt _ (by decide)),
      List.range_succ_eq_map, List.map_cons, List.map_map]
    refine List.cons_eq_cons.mpr ⟨?_, List.map_congr_left fun k _ => ?_⟩
    · simp only [Nat.add_zero, Nat.mul_zero, Nat.mod_eq_of_lt hc]
    · show Transfer.loadBytes _ _ = Transfer.loadBytes _ _
      rw [show (j % 8 + 1 + k) % 8 = (j + (k + 1)) % 8 by omega,
        show i + 2 + 2 * k = i + 2 * (k + 1) by omega,
        show (((c + 1) % 16 + 1) % 16 + 2 * k) % 16 = (c + 2 * (k + 1)) % 16 by omega,
        show (((c + 1) % 16 + 1) % 16 + 2 * k + 1) % 16 = (c + 2 * (k + 1) + 1) % 16 by omega]

/-- A pair of bytes that `LTV` moves is the half-word at an even address. -/
theorem pair_eq_half {k g : ℕ} (hg : g % 2 = 0) :
    [(mes (2 * k), bes g), (mes (2 * k + 1), bes (g + 1))] = half (2 * k) (hes g) := by
  simp only [half, List.cons.injEq, Prod.mk.injEq, and_true, mes_eq, bes_eq, hes_eq]
  and_intros <;> omega

theorem blockReg_eq (hvt : vt.val % 8 = 0) (i : ℕ) :
    Fin.ofNat 32 (vt.val / 8 * 8 + i) = blockReg vt i := by
  rw [blockReg]
  exact congrArg (Fin.ofNat 32) (by omega)

/-- The passes of `LTV` where the address is the one of a quad-word. -/
theorem rspLtv_eq (he : e.val % 2 = 0) (hvt : vt.val % 8 = 0)
    (haligned : s.address 16 offset base % 16 = 0) :
    ParallelMove.run (.move .ltv) s vt e offset base = (List.range 8).foldl (fun s' k =>
      s'.moveIn (blockReg vt ((e.val / 2 + k) % 8))
        (half (2 * k) (hes (s.address 16 offset base + (e.val + 2 * k) % 16)))) s := by
  have haddr : s.address 16 offset base < 4096 := address_lt 16
  have hwide : (s.wideAddress 16 offset base).toNat % 4096 = s.address 16 offset base :=
    wideAddress_mod 16
  have height : (s.wideAddress 16 offset base &&& 8#32).toNat = 0 := by
    refine ((BitVec.toNat_and _ _).trans (Flags.and_field _ 3 1)).trans ?_
    omega
  have hfirst : (BitVec.ofNat 32 e.val + (s.wideAddress 16 offset base &&& 8#32)) &&& 0xf#32 =
      BitVec.ofNat 32 e.val := by
    apply BitVec.eq_of_toNat_eq
    rw [toNat_and_f, BitVec.toNat_add, height, BitVec.toNat_ofNat]
    omega
  have hstart : (s.wideAddress 16 offset base &&& ~~~7#32).toNat % 4096 =
      s.address 16 offset base := by
    rw [toNat_andNot_7]
    omega
  show (ltvLoop _ _ 8 0 (e.val / 2) _).foldl Transfer.run s = _
  rw [hfirst, ltvLoop_eq _ _ 8 0 _ e.isLt, List.foldl_map]
  refine List.foldl_ext _ _ _ fun s' k hk => ?_
  rw [List.mem_range] at hk
  rw [blockReg_eq hvt, maskedByte_eq, maskedByte_eq, hstart, Nat.zero_add,
    show (e.val + 2 * k + 1) % 16 = (e.val + 2 * k) % 16 + 1 by omega,
    Nat.mod_eq_of_lt (show s.address 16 offset base + (e.val + 2 * k) % 16 < 4096 by omega),
    Nat.mod_eq_of_lt (show s.address 16 offset base + ((e.val + 2 * k) % 16 + 1) < 4096 by omega),
    ← Nat.add_assoc, pair_eq_half (by omega)]
  rfl

theorem rspLtv_exact (he : e.val % 2 = 0) (hvt : vt.val % 8 = 0)
    (haligned : s.address 16 offset base % 16 = 0) :
    (ParallelMove.run (.move .ltv) s vt e offset base).arch =
      s.arch.loadTransposed vt e.val (s.address 16 offset base) := by
  have haddr : s.address 16 offset base < 4096 := address_lt 16
  rw [rspLtv_eq he hvt haligned]
  generalize s.address 16 offset base = addr at haddr haligned ⊢
  have hreg : ∀ i < 8, ∀ j < 8, blockReg vt ((e.val / 2 + i) % 8) =
      blockReg vt ((e.val / 2 + j) % 8) → i = j := by
    intro i hi j hj heq
    have h := blockReg_inj hvt _ (Nat.mod_lt _ (by decide)) _ (Nat.mod_lt _ (by decide)) heq
    omega
  obtain ⟨hd, hin, hout⟩ := foldl_moveIn s (fun k => blockReg vt ((e.val / 2 + k) % 8))
    (fun k => half (2 * k) (hes (addr + (e.val + 2 * k) % 16))) 8 hreg
  refine RspArch.ext (funext fun a => congrFun hd (bes a)) ?_
  funext v j
  show _ = if _ then _ else s.vr v (mes j)
  have hv := v.isLt
  have hj := j.isLt
  by_cases hmem : v.val / 8 = vt.val / 8
  · have hplace : (e.val / 2 + (v.val % 8 + 8 - e.val / 2) % 8) % 8 = v.val % 8 := by omega
    have hhalf : (e.val + 2 * ((v.val % 8 + 8 - e.val / 2) % 8)) % 16 = 2 * (v.val % 8) := by omega
    have hblock : blockReg vt (v.val % 8) = v := by
      apply Fin.ext
      rw [blockReg_val vt hvt (Nat.mod_lt _ (by decide))]
      omega
    have hvr := hin ((v.val % 8 + 8 - e.val / 2) % 8) (Nat.mod_lt _ (by decide))
    rw [hplace, hblock, hhalf] at hvr
    refine (congrFun hvr (mes j)).trans ?_
    rw [assign_half]
    by_cases hlane : j.val / 2 = (v.val % 8 + 8 - e.val / 2) % 8
    · rw [if_pos hlane, if_pos (c := _ ∧ _) ⟨hmem, hlane⟩, arch_byteAt]
      exact congrArg s.dmem (bes_half (by omega) (by omega) j)
    · rw [if_neg hlane, if_neg (c := _ ∧ _) fun hc => hlane hc.2]
  · rw [if_neg fun hc => hmem hc.1]
    refine congrFun (hout v fun k _ heq => hmem ?_) (mes j)
    rw [← heq, blockReg_val vt hvt (Nat.mod_lt _ (by decide))]
    omega

/-- The bytes of `STV` are those of the quad-word, in another order. -/
theorem rotated_perm : ∀ e < 16, ((List.range 16).map fun k => (16 - e + k) % 16).Perm
    (List.range 16) := by
  decide

theorem rspStv_exact (he : e.val % 2 = 0) (hvt : vt.val % 8 = 0)
    (haligned : s.address 16 offset base % 16 = 0) :
    (ParallelMove.run (.move .stv) s vt e offset base).arch =
      s.arch.storeTransposed vt e.val (s.address 16 offset base) := by
  have haddr : s.address 16 offset base < 4096 := address_lt 16
  have helt := e.isLt
  let key (k : ℕ) : ℕ := bes (s.address 16 offset base - s.address 16 offset base % 8 +
    wrapIndex (s.address 16 offset base % 8) (e.val / 2 * 2) k)
  let src (k : ℕ) : ℕ := mes ((16 - e.val / 2 * 2 + k) % 16)
  have hrun : ParallelMove.run (.move .stv) s vt e offset base =
      (List.range 8).foldl (fun s' k => s'.moveOut (blockReg vt k)
        [(key (2 * k), src (2 * k)), (key (2 * k + 1), src (2 * k + 1))]) s := by
    show ((List.range 8).map fun k => Transfer.storeBytes (Fin.ofNat 32 (vt.val / 8 * 8 + k))
      [(key (2 * k), src (2 * k)), (key (2 * k + 1), src (2 * k + 1))]).foldl Transfer.run s = _
    rw [List.foldl_map]
    refine List.foldl_ext _ _ _ fun s' k _ => ?_
    rw [blockReg_eq hvt]
    rfl
  -- Byte `d` behind the address, which pass `(d + e) / 2` stores.
  let byte (d : ℕ) : ℕ × BitVec 8 := (bes ((s.address 16 offset base + d) % 4096),
    s.vr (blockReg vt ((e.val / 2 + d / 2) % 8)) (mes (d % 16)))
  have hbyte : ∀ k < 16,
      (key k, s.vr (blockReg vt (k / 2)) (src k)) = byte ((16 - e.val + k) % 16) := by
    intro k hk
    have hkey : key k = bes ((s.address 16 offset base + (16 - e.val + k) % 16) % 4096) := by
      show bes (_ + wrapIndex _ _ _) = _
      rw [wrapIndex_eq _ (by omega) (by omega)]
      exact congrArg bes (by omega)
    have hsrc : src k = mes ((16 - e.val + k) % 16 % 16) := congrArg mes (by omega)
    have hreg : k / 2 = (e.val / 2 + (16 - e.val + k) % 16 / 2) % 8 := by omega
    rw [hkey, hsrc, hreg]
  have hmoves : ((List.range 8).flatMap fun k =>
      [(key (2 * k), src (2 * k)), (key (2 * k + 1), src (2 * k + 1))].map fun p =>
        (p.1, s.vr (blockReg vt k) p.2)) =
      ((List.range 16).map fun k => (16 - e.val + k) % 16).map byte := by
    rw [List.map_map]
    refine Eq.trans ?_ (List.map_congr_left fun k hk => hbyte k (List.mem_range.mp hk))
    rfl
  have hperm := (rotated_perm e.val helt).map byte
  have hkeys : (((List.range 16).map byte).map Prod.fst).Nodup := by
    rw [List.map_map]
    refine List.Nodup.map_on (fun d hd d' hd' heq => ?_) List.nodup_range
    rw [List.mem_range] at hd hd'
    have heq' : bes ((s.address 16 offset base + d) % 4096) =
      bes ((s.address 16 offset base + d') % 4096) := heq
    simp only [bes_eq] at heq'
    omega
  rw [hrun, foldl_moveOut, hmoves]
  refine RspArch.ext (funext fun a => ?_) rfl
  show assign s.dmem _ (bes a) = if _ then _ else s.dmem (bes a)
  rw [← assign_perm s.dmem hkeys hperm.symm]
  exact assign_bytes s.dmem (fun d => (byte d).2) (by decide) haddr a

end Routines

end Mupen64plus
