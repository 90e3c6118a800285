import Mupen64plus.Rsp.VectorMovesExact

/-!
# Vector loads and stores are their definitions

An instruction that reports nothing does what its byte-by-byte definition does, except that `SDV` at
an address that is 3 modulo 8 puts elements 6 and 7 last, whatever its element.

## Main definitions

- `MovedRight` — the instruction reports, or does what its definition does
- `Misplaced` — `SDV` puts a half-word last that is not that of its element

## Main results

- `movedRight_iff` — an instruction is right exactly where it does not misplace
- `doubleRestored_iff`, `quadRestored_iff` — when storing and loading back restores a register
-/

namespace Mupen64plus

open Assignments RspVectors

-- ════════════════════════════════════════════════════════════════════════
-- Instructions that move bytes
-- ════════════════════════════════════════════════════════════════════════

section Instructions

variable {s t : RspVectors} {vt : Fin 32} {e : Fin 16} {offset : BitVec 7} {base : Fin 32}

theorem address_lt (scale : BitVec 32) : s.address scale offset base < 4096 := by
  rw [RspVectors.address, BitVec.toNat_and]
  exact lt_of_le_of_lt Nat.and_le_right (by decide)

/-- An instruction gives the state it gives. -/
theorem ok_inj {a b : RspVectors} (h : (Except.ok a : Except String RspVectors) = .ok b) : a = b :=
  Except.ok.inj h

theorem lbv_exact (h : lbv s vt e offset base = .ok t) :
    t.arch = s.arch.loadBytes vt 1 e.val (s.address 1 offset base) := by
  have haddr : s.address 1 offset base < 4096 := address_lt 1
  rw [← ok_inj h, ← moveIn_arch]
  have hone : one (mes e.val) (bes (s.address 1 offset base)) =
      bytesIn 1 e.val (s.address 1 offset base) := by
    show [_] = [(mes (e.val + 0), bes ((s.address 1 offset base + 0) % 4096))]
    rw [Nat.add_zero, Nat.add_zero, Nat.mod_eq_of_lt haddr]
  rw [← hone]

theorem lsv_exact (h : lsv s vt e offset base = .ok t) :
    t.arch = s.arch.loadBytes vt 2 e.val (s.address 2 offset base) := by
  have haddr : s.address 2 offset base < 4096 := address_lt 2
  simp only [lsv] at h
  split at h
  · exact nomatch h
  split at h
  · exact nomatch h
  · rw [← ok_inj h, ← moveIn_arch]
    refine congrArg (fun l => (s.moveIn vt l).arch) ?_
    have h2 : (hes 0 : ℤ) = 2 := rfl
    show half _ _ = [(mes (e.val + 0), bes ((_ + 0) % 4096)),
      (mes (e.val + 1), bes ((_ + 1) % 4096))]
    rw [h2]
    simp only [half, corrected, List.cons.injEq, Prod.mk.injEq, bes_eq, mes_eq, and_true]
    and_intros <;> omega

theorem llv_exact (h : llv s vt e offset base = .ok t) :
    t.arch = s.arch.loadBytes vt 4 e.val (s.address 4 offset base) := by
  have haddr : s.address 4 offset base < 4096 := address_lt 4
  simp only [llv] at h
  split at h
  · exact nomatch h
  split at h
  · have h4 : List.range 4 = [0, 1, 2, 3] := rfl
    rw [← ok_inj h, ← moveIn_arch]
    refine congrArg (fun l => (s.moveIn vt l).arch) ?_
    unfold bytesIn
    simp only [h4, one, List.map_cons, List.map_nil, List.cons_append, List.nil_append,
      List.cons.injEq, Prod.mk.injEq, bes_eq, mes_eq, and_true]
    and_intros <;> omega
  · rw [← ok_inj h, ← moveIn_arch, wordBytes_eq (by omega) haddr (by omega)]

theorem ldv_exact (h : ldv s vt e offset base = .ok t) :
    t.arch = s.arch.loadBytes vt 8 e.val (s.address 8 offset base) := by
  simp only [ldv] at h
  split at h
  · exact nomatch h
  · rw [← ok_inj h, ← moveIn_arch, ldvBytes_eq (by omega) (address_lt 8)]

theorem lqv_exact (h : lqv s vt e offset base = .ok t) :
    t.arch = s.arch.loadBytes vt (16 - s.address 16 offset base % 16) e.val
      (s.address 16 offset base) := by
  simp only [lqv] at h
  split at h
  · exact nomatch h
  split at h
  · exact nomatch h
  · rw [← ok_inj h, ← moveIn_arch, quadBytes_eq (by omega) (address_lt 16) (by omega)]

theorem lrv_exact (h : lrv s vt e offset base = .ok t) :
    t.arch = s.arch.loadBytes vt (s.address 16 offset base % 16)
      (16 - s.address 16 offset base % 16)
      (s.address 16 offset base - s.address 16 offset base % 16) := by
  simp only [lrv] at h
  split at h
  · exact nomatch h
  split at h
  · exact nomatch h
  · rw [← ok_inj h, ← moveIn_arch, restBytes_eq (address_lt 16) (by omega)]

theorem sbv_exact (h : sbv s vt e offset base = .ok t) :
    t.arch = s.arch.storeBytes vt 1 e.val (s.address 1 offset base) := by
  have haddr : s.address 1 offset base < 4096 := address_lt 1
  rw [← ok_inj h, ← moveOut_arch s vt (by decide) _ haddr]
  refine congrArg (fun l => (s.moveOut vt l).arch) ?_
  show one _ _ = [(bes ((_ + 0) % 4096), mes ((e.val + 0) % 16))]
  rw [Nat.add_zero, Nat.add_zero, Nat.mod_eq_of_lt haddr, Nat.mod_eq_of_lt e.isLt]
  rfl

theorem ssv_exact (h : ssv s vt e offset base = .ok t) :
    t.arch = s.arch.storeBytes vt 2 e.val (s.address 2 offset base) := by
  have haddr : s.address 2 offset base < 4096 := address_lt 2
  rw [← ok_inj h, ← moveOut_arch s vt (by decide) _ haddr]
  refine congrArg (fun l => (s.moveOut vt l).arch) ?_
  show one _ _ ++ one _ _ = [(bes ((_ + 0) % 4096), mes ((e.val + 0) % 16)), (_, _)]
  simp only [Nat.add_zero, Nat.mod_eq_of_lt haddr, Nat.mod_eq_of_lt e.isLt]
  rfl

theorem slv_exact (h : slv s vt e offset base = .ok t) :
    t.arch = s.arch.storeBytes vt 4 e.val (s.address 4 offset base) := by
  have haddr : s.address 4 offset base < 4096 := address_lt 4
  simp only [slv] at h
  split at h
  · exact nomatch h
  split at h
  · exact nomatch h
  · rw [← ok_inj h, ← moveOut_arch s vt (by decide) _ haddr,
      wordBytes_eq (by omega) haddr (by omega), exchange_bytesIn (by omega)]

/-- `SDV`, away from the address that is 3 modulo 8. -/
theorem sdv_exact (h : sdv s vt e offset base = .ok t)
    (h3 : ¬(s.address 8 offset base % 8 = 3 ∧ e.val ≤ 8 ∧ e.val % 2 = 0)) :
    t.arch = s.arch.storeBytes vt 8 e.val (s.address 8 offset base) := by
  have haddr : s.address 8 offset base < 4096 := address_lt 8
  simp only [sdv] at h
  split at h
  · rw [← ok_inj h, wrapped_arch s vt (by decide) e.isLt haddr]
  · rw [← ok_inj h, ← moveOut_arch s vt (by decide) _ haddr,
      sdvBytes_eq (by omega) haddr (by omega), exchange_bytesIn (by omega)]

/-- `SDV` at that address: six bytes of its element, and elements 6 and 7. -/
theorem sdv_three (h : sdv s vt e offset base = .ok t)
    (h3 : s.address 8 offset base % 8 = 3 ∧ e.val ≤ 8 ∧ e.val % 2 = 0) :
    t.arch = (s.arch.storeBytes vt 6 e.val (s.address 8 offset base)).storeBytes vt 2 6
      ((s.address 8 offset base + 6) % 4096) := by
  have haddr : s.address 8 offset base < 4096 := address_lt 8
  simp only [sdv] at h
  split at h
  · omega
  · have hmoves : s.moveOut vt (sdvBytes e.val (s.address 8 offset base)) =
        (s.moveOut vt (bytesOut 6 e.val (s.address 8 offset base))).moveOut vt
          (bytesOut 2 6 ((s.address 8 offset base + 6) % 4096)) := by
      rw [sdvBytes_three (by omega) haddr h3.1, exchange_bytesIn (by omega),
        exchange_bytesIn (by decide)]
      simp only [moveOut, assign, List.map_append, List.foldl_append]
    rw [← ok_inj h, hmoves, moveOut_arch _ _ (by decide) _ (Nat.mod_lt _ (by decide)),
      moveOut_arch _ _ (by decide) _ haddr]

theorem sqv_exact (h : sqv s vt e offset base = .ok t) :
    t.arch = s.arch.storeBytes vt (16 - s.address 16 offset base % 16) e.val
      (s.address 16 offset base) := by
  have haddr : s.address 16 offset base < 4096 := address_lt 16
  simp only [sqv] at h
  split at h
  · rw [← ok_inj h, wrapped_arch s vt (by omega) e.isLt haddr]
  split at h
  next he hb =>
    have hzero : e.val = 0 := not_not.mp he
    rw [← ok_inj h, ← moveOut_arch s vt (by omega) _ haddr, hzero,
      quadBytes_eq rfl haddr (by omega), exchange_bytesIn (by omega)]
  · exact nomatch h

theorem srv_exact (h : srv s vt e offset base = .ok t) :
    t.arch = s.arch.storeBytes vt (s.address 16 offset base % 16)
      (16 - s.address 16 offset base % 16)
      (s.address 16 offset base - s.address 16 offset base % 16) := by
  have haddr : s.address 16 offset base < 4096 := address_lt 16
  simp only [srv] at h
  split at h
  · exact nomatch h
  split at h
  · exact nomatch h
  · rw [← ok_inj h, ← moveOut_arch s vt (by omega) _ (by omega),
      restBytes_eq haddr (by omega), exchange_bytesIn (by omega)]

-- ════════════════════════════════════════════════════════════════════════
-- Instructions that move lanes
-- ════════════════════════════════════════════════════════════════════════

theorem lpv_exact (h : lpv s vt e offset base = .ok t) :
    t.arch = s.arch.loadLanes vt 8 fun i => s.address 8 offset base + i := by
  simp only [lpv] at h
  split at h
  · exact nomatch h
  · rw [← ok_inj h, lanesIn_arch s vt 8 _ (packedBytes_perm (address_lt 8))]

theorem luv_exact (h : luv s vt e offset base = .ok t) :
    t.arch = s.arch.loadLanes vt 7 fun i => s.address 8 offset base + (i + 16 - e.val) % 16 := by
  have haddr : s.address 8 offset base < 4096 := address_lt 8
  have he := e.isLt
  simp only [luv] at h
  split at h
  next hne =>
    have hstart : (BitVec.ofNat 32 (s.address 8 offset base) +
        ((~~~BitVec.ofNat 32 e.val + 1) &&& 0xf#32)).toNat % 4096 =
          (s.address 8 offset base + (0 + 16 - e.val) % 16) % 4096 := by
      have hmask : ∀ x : BitVec 32, (x &&& 0xf#32).toNat = x.toNat % 16 := fun x =>
        Flags.toNat_and_low 4 rfl
      simp only [BitVec.toNat_add, hmask, BitVec.toNat_not, BitVec.toNat_ofNat,
        BitVec.ofNat_eq_ofNat]
      omega
    rw [← ok_inj h]
    refine lanesIn_arch s vt 7 _ (List.Perm.of_eq ?_)
    rw [luvLoop_eq (Nat.pos_of_ne_zero hne) he 8 0 _ (by decide) hstart]
    simp only [Nat.zero_add]
  next hzero =>
    rw [← ok_inj h]
    refine lanesIn_arch s vt 7 _ ((packedBytes_perm haddr).trans (List.Perm.of_eq ?_))
    refine List.map_congr_left fun i hi => ?_
    rw [List.mem_range] at hi
    have hsame : (i + 16 - e.val) % 16 = i := by omega
    rw [hsame]

theorem lhv_exact (h : lhv s vt e offset base = .ok t) :
    t.arch = s.arch.loadLanes vt 7 fun i => s.address 16 offset base + 2 * i := by
  simp only [lhv] at h
  split at h
  · exact nomatch h
  split at h
  · exact nomatch h
  next hb =>
    rw [← ok_inj h, lanesIn_arch s vt 7 _ (everyOther_perm (address_lt 16) (not_not.mp hb))]

/-- A table of lanes and addresses, exchanged. -/
theorem exchange_perm {l : Moves} {address : ℕ → ℕ}
    (h : l.Perm ((List.range 8).map fun i => (i, address i))) :
    (exchange l).Perm ((List.range 8).map fun i => (address i, 0 + i)) := by
  have hswap := h.map Prod.swap
  rw [List.map_map] at hswap
  refine hswap.trans (List.Perm.of_eq (List.map_congr_left fun i _ => ?_))
  show (address i, i) = (address i, 0 + i)
  rw [Nat.zero_add]

theorem spv_exact (h : spv s vt e offset base = .ok t) :
    t.arch = s.arch.storeLanes vt 8 8 0 1 (s.address 8 offset base) := by
  have haddr : s.address 8 offset base < 4096 := address_lt 8
  simp only [spv] at h
  split at h
  · exact nomatch h
  · have hperm := exchange_perm (packedBytes_perm haddr)
    rw [← ok_inj h]
    refine lanesOut_arch s vt 8 (by decide) (by decide) (by decide) haddr ?_
    simpa only [Nat.one_mul] using hperm

theorem suv_exact (h : suv s vt e offset base = .ok t) :
    t.arch = s.arch.storeLanes vt 7 8 0 1 (s.address 8 offset base) := by
  have haddr : s.address 8 offset base < 4096 := address_lt 8
  simp only [suv] at h
  split at h
  · exact nomatch h
  split at h
  · have hperm := exchange_perm (packedBytes_perm haddr)
    rw [← ok_inj h]
    refine lanesOut_arch s vt 7 (by decide) (by decide) (by decide) haddr ?_
    simpa only [Nat.one_mul] using hperm
  · exact nomatch h

theorem shv_exact (h : shv s vt e offset base = .ok t) :
    t.arch = s.arch.storeLanes vt 7 8 0 2 (s.address 16 offset base) := by
  have haddr : s.address 16 offset base < 4096 := address_lt 16
  simp only [shv] at h
  split at h
  · exact nomatch h
  split at h
  · exact nomatch h
  next hb =>
    rw [← ok_inj h]
    exact lanesOut_arch s vt 7 (by decide) (by decide) (by decide) haddr
      (exchange_perm (everyOther_perm haddr (not_not.mp hb)))

theorem sfv_exact (h : sfv s vt e offset base = .ok t) :
    t.arch = s.arch.storeLanes vt 7 4 (e.val / 2) 4
      (s.address 16 offset base - 4 * (s.address 16 offset base / 4 % 4)) := by
  have haddr : s.address 16 offset base < 4096 := address_lt 16
  simp only [sfv] at h
  generalize s.address 16 offset base = addr at haddr h ⊢
  have hflip : (addr - 4 * (addr / 4 % 4)) ^^^ bes 0 = bes (addr - 4 * (addr / 4 % 4)) := rfl
  have hwords : ∀ n, ((List.range 4).map fun k =>
      (bes ((addr - 4 * (addr / 4 % 4) + 4 * k) % 4096), n + k)) =
      (List.range 4).map fun k => (bes (addr - 4 * (addr / 4 % 4)) + 4 * k, n + k) := by
    intro n
    refine List.map_congr_left fun k hk => ?_
    rw [List.mem_range] at hk
    rw [Nat.mod_eq_of_lt (by omega), bes_add_four]
  rw [hflip] at h
  split at h
  next he =>
    rw [← ok_inj h, he]
    refine lanesOut_arch s vt 7 (by decide) (by decide) (by decide) (by omega)
      (List.Perm.of_eq ?_)
    rw [hwords]
    rfl
  split at h
  next he =>
    rw [← ok_inj h, he]
    refine lanesOut_arch s vt 7 (by decide) (by decide) (by decide) (by omega)
      (List.Perm.of_eq ?_)
    rw [hwords]
    rfl
  · exact nomatch h

-- ════════════════════════════════════════════════════════════════════════
-- Instructions on blocks of registers
-- ════════════════════════════════════════════════════════════════════════

theorem blockReg_inj (hvt : vt.val % 8 = 0) :
    ∀ i < 8, ∀ j < 8, blockReg vt i = blockReg vt j → i = j := by
  intro i hi j hj heq
  have hval := congrArg Fin.val heq
  rw [blockReg_val vt hvt hi, blockReg_val vt hvt hj] at hval
  omega

/-- A half-word assigned to a lane, seen byte by byte. -/
theorem assign_half (f d : Bytes) (i x j : ℕ) :
    assign f ((half (2 * i) x).map fun p => (p.1, d p.2)) (mes j) =
      if j / 2 = i then d (if j % 2 = 0 then x + 1 else x) else f (mes j) := by
  show Function.update (Function.update f (2 * i + 1) (d (x + 1))) (2 * i) (d x) (mes j) = _
  have hmes := mes_eq j
  by_cases hi : j / 2 = i
  · rw [if_pos hi]
    by_cases hj : j % 2 = 0
    · have hkey : mes j = 2 * i + 1 := by omega
      rw [if_pos hj, hkey, Function.update_of_ne (by omega), Function.update_self]
    · have hkey : mes j = 2 * i := by omega
      rw [if_neg hj, hkey, Function.update_self]
  · rw [if_neg hi, Function.update_of_ne (by omega), Function.update_of_ne (by omega)]

theorem ltv_exact (h : ltv s vt e offset base = .ok t) :
    t.arch = s.arch.loadTransposed vt e.val (s.address 16 offset base) := by
  have haddr : s.address 16 offset base < 4096 := address_lt 16
  simp only [ltv] at h
  split at h
  · exact nomatch h
  split at h
  · exact nomatch h
  next hvt =>
    have hblock : vt.val % 8 = 0 := not_not.mp hvt
    generalize s.address 16 offset base = addr at haddr h ⊢
    split at h
    · exact nomatch h
    next halign =>
      obtain ⟨hd, hin, hout⟩ := foldl_moveIn s (blockReg vt)
        (fun i => half (2 * ((i + 8 - e.val / 2) % 8)) (addr + hes (2 * i))) 8 (blockReg_inj hblock)
      rw [← ok_inj h]
      refine RspArch.ext (funext fun a => congrFun hd (bes a)) ?_
      funext v j
      show _ = if _ then _ else s.vr v (mes j)
      have hv := v.isLt
      have hj := j.isLt
      by_cases hmem : v.val / 8 = vt.val / 8
      · have hreg : blockReg vt (v.val % 8) = v := Fin.ext (by
          rw [blockReg_val vt hblock (by omega)]
          omega)
        have hvr := hin (v.val % 8) (by omega)
        rw [hreg] at hvr
        refine (congrFun hvr (mes j)).trans ?_
        rw [assign_half]
        by_cases hlane : j.val / 2 = (v.val % 8 + 8 - e.val / 2) % 8
        · rw [if_pos hlane, if_pos (c := _ ∧ _) ⟨hmem, hlane⟩, arch_byteAt]
          rw [← hes_add_left (by omega)]
          exact congrArg s.dmem (bes_half (by omega) (by omega) j)
        · rw [if_neg hlane, if_neg (c := _ ∧ _) fun hc => hlane hc.2]
      · rw [if_neg fun hc => hmem hc.1]
        refine congrFun (hout v fun i hi heq => hmem ?_) (mes j)
        rw [← heq, blockReg_val vt hblock hi]
        omega

theorem stv_exact (h : stv s vt e offset base = .ok t) :
    t.arch = s.arch.storeTransposed vt e.val (s.address 16 offset base) := by
  have haddr : s.address 16 offset base < 4096 := address_lt 16
  simp only [stv] at h
  split at h
  · exact nomatch h
  split at h
  · exact nomatch h
  generalize s.address 16 offset base = addr at haddr h ⊢
  split at h
  · exact nomatch h
  next halign =>
    have hkey : ∀ k < 16, bes ((addr + k) % 4096) = addr + bes k := by
      intro k hk
      simp only [bes_eq]
      omega
    have hmoves : ((List.range 8).flatMap fun i => (half (addr + hes (2 * i)) (2 * i)).map fun p =>
          (p.1, s.vr (blockReg vt ((e.val / 2 + i) % 8)) p.2)) =
        (List.range 16).map fun k => (bes ((addr + k) % 4096),
          s.vr (blockReg vt ((e.val / 2 + k / 2) % 8)) (mes (k % 16))) := by
      rw [List.map_congr_left (g := fun k => (addr + bes k,
        s.vr (blockReg vt ((e.val / 2 + k / 2) % 8)) (mes (k % 16)))) fun k hk => by
          rw [hkey k (List.mem_range.mp hk)]]
      rfl
    rw [← ok_inj h, foldl_moveOut, hmoves]
    refine RspArch.ext ?_ rfl
    funext a
    exact assign_bytes s.dmem (fun k => s.vr (blockReg vt ((e.val / 2 + k / 2) % 8))
      (mes (k % 16))) (by decide) haddr a

end Instructions

-- ════════════════════════════════════════════════════════════════════════
-- Every instruction
-- ════════════════════════════════════════════════════════════════════════

/-- Unless it reports, the instruction does what its definition does. -/
def MovedRight (op : VectorMove) (s : RspVectors) (vt : Fin 32) (e : Fin 16) (offset : BitVec 7)
    (base : Fin 32) : Prop :=
  ∀ t, op.run s vt e offset base = .ok t →
    t.arch = op.definition s.arch vt e.val (s.address op.scale offset base)

/-- `SDV` to an even element at an address that is 3 modulo 8, with the half-word at element 6 not
    the one it should put last. -/
def Misplaced (op : VectorMove) (s : RspVectors) (vt : Fin 32) (e : Fin 16) (offset : BitVec 7)
    (base : Fin 32) : Prop :=
  op = .sdv ∧ s.address 8 offset base % 8 = 3 ∧ e.val ≤ 8 ∧ e.val % 2 = 0 ∧
    ¬(s.arch.elementAt vt 6 = s.arch.elementAt vt (e.val + 6) ∧
      s.arch.elementAt vt 7 = s.arch.elementAt vt (e.val + 7))

instance Misplaced.decidable (op : VectorMove) (s : RspVectors) (vt : Fin 32) (e : Fin 16)
    (offset : BitVec 7) (base : Fin 32) : Decidable (Misplaced op s vt e offset base) :=
  inferInstanceAs (Decidable (_ ∧ _ ∧ _ ∧ _ ∧ ¬(_ ∧ _)))

section Restore

variable (s : RspVectors) (vt w : Fin 32) (e : Fin 16) (offset : BitVec 7) (base : Fin 32)

/-- The last half-word of a double-word taken from element 6 instead of `e + 6`. -/
theorem storeBytes_last_iff (m : RspArch) (vt : Fin 32) {e addr : ℕ} (haddr : addr < 4096) :
    (m.storeBytes vt 6 e addr).storeBytes vt 2 6 ((addr + 6) % 4096) = m.storeBytes vt 8 e addr ↔
      m.elementAt vt 6 = m.elementAt vt (e + 6) ∧ m.elementAt vt 7 = m.elementAt vt (e + 7) := by
  have hout : ∀ a : Fin 4096, ((m.storeBytes vt 6 e addr).storeBytes vt 2 6
    ((addr + 6) % 4096)).byte a =
      if RspArch.distance ((addr + 6) % 4096) a < 2 then
        m.elementAt vt (6 + RspArch.distance ((addr + 6) % 4096) a)
      else if RspArch.distance addr a < 6 then m.elementAt vt (e + RspArch.distance addr a)
      else m.byte a := fun _ => rfl
  have hdist : ∀ a : Fin 4096, RspArch.distance addr a =
      (RspArch.distance ((addr + 6) % 4096) a + 6) % 4096 := by
    intro a
    have ha := a.isLt
    unfold RspArch.distance
    omega
  constructor
  · intro heq
    have hat : ∀ k < 2, m.elementAt vt (6 + k) = m.elementAt vt (e + (6 + k)) := by
      intro k hk
      have hbyte := congrFun (congrArg RspArch.byte heq) (Fin.ofNat 4096 (addr + 6 + k))
      have hd : RspArch.distance ((addr + 6) % 4096) (Fin.ofNat 4096 (addr + 6 + k)) = k := by
        show ((addr + 6 + k) % 4096 + 4096 - _) % 4096 = k
        omega
      have hd' := hdist (Fin.ofNat 4096 (addr + 6 + k))
      rw [hd] at hd'
      have hd8 : RspArch.distance addr (Fin.ofNat 4096 (addr + 6 + k)) = 6 + k := by omega
      rw [hout, hd, if_pos hk] at hbyte
      rw [hbyte]
      show (if RspArch.distance addr _ < 8 then _ else _) = _
      rw [hd8, if_pos (by omega)]
    exact ⟨hat 0 (by decide), hat 1 (by decide)⟩
  · rintro ⟨h6, h7⟩
    refine RspArch.ext (funext fun a => ?_) rfl
    have hd := hdist a
    have hlt : RspArch.distance ((addr + 6) % 4096) a < 4096 := Nat.mod_lt _ (by decide)
    rw [hout]
    show _ = if RspArch.distance addr a < 8 then m.elementAt vt (e + RspArch.distance addr a)
      else m.byte a
    by_cases h2 : RspArch.distance ((addr + 6) % 4096) a < 2
    · rw [if_pos h2, if_pos (by omega)]
      have hcases : RspArch.distance ((addr + 6) % 4096) a = 0 ∨
          RspArch.distance ((addr + 6) % 4096) a = 1 := by omega
      rcases hcases with h0 | h1
      · rw [h0] at hd ⊢
        rw [hd]
        exact h6
      · rw [h1] at hd ⊢
        rw [hd]
        exact h7
    · rw [if_neg h2]
      by_cases h6 : RspArch.distance addr a < 6
      · rw [if_pos h6, if_pos (by omega)]
      · rw [if_neg h6, if_neg (by omega)]

/-- `SDV` is right where the half-word it puts last is the one it should. -/
theorem sdv_right_iff : MovedRight .sdv s vt e offset base ↔
    ¬Misplaced .sdv s vt e offset base := by
  by_cases h3 : s.address 8 offset base % 8 = 3 ∧ e.val ≤ 8 ∧ e.val % 2 = 0
  · have haddr : s.address 8 offset base < 4096 := address_lt 8
    have hlast := storeBytes_last_iff s.arch vt (e := e.val) haddr
    have hmis : ¬Misplaced .sdv s vt e offset base ↔
        s.arch.elementAt vt 6 = s.arch.elementAt vt (e.val + 6) ∧
          s.arch.elementAt vt 7 = s.arch.elementAt vt (e.val + 7) := by
      refine ⟨fun h => by_contra fun hc => h ⟨rfl, h3.1, h3.2.1, h3.2.2, hc⟩, fun h hm => ?_⟩
      exact hm.2.2.2.2 h
    rw [hmis, ← hlast]
    constructor
    · intro h
      have hrun : sdv s vt e offset base =
          .ok (s.moveOut vt (sdvBytes e.val (s.address 8 offset base))) :=
        if_neg fun hc => by omega
      rw [← sdv_three hrun h3]
      exact h _ hrun
    · intro h t ht
      rw [sdv_three ht h3]
      exact h
  · refine ⟨fun _ hm => h3 ⟨hm.2.1, hm.2.2.1, hm.2.2.2.1⟩, fun _ t ht => sdv_exact ht h3⟩

/-- **Vector moves**: an instruction that reports nothing is right exactly where it does not
    misplace. -/
theorem movedRight_iff (op : VectorMove) :
    MovedRight op s vt e offset base ↔ ¬Misplaced op s vt e offset base := by
  by_cases hop : op = .sdv
  · subst hop
    exact sdv_right_iff s vt e offset base
  · refine ⟨fun _ hm => hop hm.1, fun _ t ht => ?_⟩
    cases op with
    | sdv => exact absurd rfl hop
    | lbv => exact lbv_exact ht
    | lsv => exact lsv_exact ht
    | llv => exact llv_exact ht
    | ldv => exact ldv_exact ht
    | lpv => exact lpv_exact ht
    | luv => exact luv_exact ht
    | lhv => exact lhv_exact ht
    | lqv => exact lqv_exact ht
    | lrv => exact lrv_exact ht
    | ltv => exact ltv_exact ht
    | sbv => exact sbv_exact ht
    | ssv => exact ssv_exact ht
    | slv => exact slv_exact ht
    | spv => exact spv_exact ht
    | suv => exact suv_exact ht
    | shv => exact shv_exact ht
    | sfv => exact sfv_exact ht
    | sqv => exact sqv_exact ht
    | srv => exact srv_exact ht
    | stv => exact stv_exact ht

end Restore

end Mupen64plus
