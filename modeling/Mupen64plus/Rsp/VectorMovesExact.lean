import Mupen64plus.Lib.Flags
import Mupen64plus.Rsp.VectorMoves

/-!
# Assignments of vector loads and stores, by alignment

Alignment by alignment, the assignments of an instruction are the moves of its definition in order,
or in the opposite order, which makes no difference. One list is not: that of `SDV` at an address
that is 3 modulo 8, whose last half-word is read at element 6.

## Main results

- `ldvBytes_eq`, `sdvBytes_eq`, `packedBytes_perm`, `quadBytes_eq`, … — the lists
- `wrapped_arch` — the loop that runs over the end of a register
- `foldl_moveIn`, `foldl_moveOut` — loops over a block of registers
-/

namespace Mupen64plus

open Assignments RspVectors

-- ════════════════════════════════════════════════════════════════════════
-- Assignments by alignment
-- ════════════════════════════════════════════════════════════════════════

/-- Moves to elements that exist, the other way. -/
theorem exchange_bytesIn {n e addr : ℕ} (h : e + n ≤ 16) :
    exchange (bytesIn n e addr) = bytesOut n e addr := by
  rw [exchange, bytesIn, bytesOut, List.map_map]
  refine List.map_congr_left fun k hk => ?_
  rw [List.mem_range] at hk
  show (_, mes (e + k)) = (_, mes ((e + k) % 16))
  rw [Nat.mod_eq_of_lt (a := e + k) (by omega)]

theorem range_eight : List.range 8 = [0, 1, 2, 3, 4, 5, 6, 7] := rfl

theorem ldvBytes_eq {e addr : ℕ} (he : e % 2 = 0) (haddr : addr < 4096) :
    ldvBytes e addr = bytesIn 8 e addr := by
  obtain ⟨f, rfl⟩ : ∃ f, e = 2 * f := ⟨e / 2, by omega⟩
  obtain ⟨q, r, rfl, hr⟩ : ∃ q r, addr = 8 * q + r ∧ r < 8 := ⟨addr / 8, addr % 8, by omega⟩
  have hq : q < 512 := by omega
  have hplace : (8 * q + r) % 8 = r := by omega
  unfold ldvBytes bytesIn
  rw [hplace, range_eight]
  interval_cases r
  all_goals
    simp (disch := omega) only [half, one, List.map_cons, List.map_nil, List.cons_append,
      List.nil_append, Nat.add_assoc, Nat.reduceAdd, mes_add, address_near, address_far, bes_add,
      bes_zero, hes_zero, wes_zero]
    rfl

theorem wordBytes_eq {e addr : ℕ} (he : e % 2 = 0) (haddr : addr < 4096) (heven : addr % 2 = 0) :
    wordBytes e addr = bytesIn 4 e addr := by
  have h4 : List.range 4 = [0, 1, 2, 3] := rfl
  have h2 : (hes 0 : ℤ) = 2 := rfl
  have hlow : corrected addr (hes 0 * ((addr % 4 : ℕ) - 1)) = hes addr := by
    rw [corrected, h2, hes_eq]
    omega
  have hhigh : corrected ((addr + 2) % 4096) (-(hes 0 * ((addr % 4 : ℕ) - 1))) =
      hes ((addr + 2) % 4096) := by
    rw [corrected, h2, hes_eq]
    omega
  have hnext : (addr + 1) % 4096 = addr + 1 := by omega
  have hlast : (addr + 3) % 4096 = (addr + 2) % 4096 + 1 := by omega
  have heven' : (addr + 2) % 4096 % 2 = 0 := by omega
  have hplace : (e + 2) % 2 = 0 := by omega
  simp only [wordBytes, bytesIn, hlow, hhigh, h4, half, List.map_cons, List.map_nil,
    List.cons_append, List.nil_append, Nat.add_zero, Nat.mod_eq_of_lt haddr, hnext, hlast,
    bes_even heven, bes_odd heven, bes_even heven', bes_odd heven', mes_even he, mes_odd he,
    mes_even hplace, show e + 3 = e + 2 + 1 from rfl, mes_odd hplace]

theorem sdvBytes_eq {e addr : ℕ} (he : e % 2 = 0) (haddr : addr < 4096) (h3 : addr % 8 ≠ 3) :
    sdvBytes e addr = exchange (bytesIn 8 e addr) := by
  obtain ⟨f, rfl⟩ : ∃ f, e = 2 * f := ⟨e / 2, by omega⟩
  obtain ⟨q, r, rfl, hr⟩ : ∃ q r, addr = 8 * q + r ∧ r < 8 := ⟨addr / 8, addr % 8, by omega⟩
  have hq : q < 512 := by omega
  have hplace : (8 * q + r) % 8 = r := by omega
  unfold sdvBytes bytesIn
  rw [hplace, range_eight]
  rw [hplace] at h3
  interval_cases r
  case «3» => exact absurd rfl h3
  all_goals
    simp (disch := omega) only [half, one, List.map_cons, List.map_nil, List.cons_append,
      List.nil_append, Nat.add_assoc, Nat.reduceAdd, mes_add, address_near, address_far, bes_add,
      bes_zero, hes_zero]
    rfl

/-- At an address that is 3 modulo 8 the last two bytes are elements 6 and 7. -/
theorem sdvBytes_three {e addr : ℕ} (he : e % 2 = 0) (haddr : addr < 4096) (h3 : addr % 8 = 3) :
    sdvBytes e addr =
      exchange (bytesIn 6 e addr) ++ exchange (bytesIn 2 6 ((addr + 6) % 4096)) := by
  obtain ⟨f, rfl⟩ : ∃ f, e = 2 * f := ⟨e / 2, by omega⟩
  obtain ⟨q, rfl⟩ : ∃ q, addr = 8 * q + 3 := ⟨addr / 8, by omega⟩
  have hq : q < 512 := by omega
  have hnext : nextDouble q < 512 := Nat.mod_lt _ (by decide)
  have h6 : List.range 6 = [0, 1, 2, 3, 4, 5] := rfl
  have h2 : List.range 2 = [0, 1] := rfl
  unfold sdvBytes bytesIn
  rw [h3, h6, h2]
  simp (disch := omega) only [half, one, List.map_cons, List.map_nil, List.cons_append,
    List.nil_append, Nat.add_assoc, Nat.reduceAdd, Nat.reduceSub, mes_add, address_near,
    address_far, bes_add, bes_zero]
  rfl

/-- The lanes of a packed vector; at an aligned address the code takes them from the last. -/
theorem packedBytes_perm {addr : ℕ} (haddr : addr < 4096) :
    (packedBytes (addr % 8) (addr - addr % 8)).Perm
      ((List.range 8).map fun i => (i, bes ((addr + i) % 4096))) := by
  obtain ⟨q, r, rfl, hr⟩ : ∃ q r, addr = 8 * q + r ∧ r < 8 := ⟨addr / 8, addr % 8, by omega⟩
  have hq : q < 512 := by omega
  have hplace : (8 * q + r) % 8 = r := by omega
  unfold packedBytes
  rw [hplace, Nat.add_sub_cancel, range_eight]
  interval_cases r
  case «0» =>
    refine List.Perm.trans (List.reverse_perm _).symm (List.Perm.of_eq ?_)
    simp (disch := omega) only [List.map_cons, List.map_nil, Nat.add_assoc, Nat.reduceAdd,
      address_near, bes_add]
    rfl
  all_goals
    refine List.Perm.of_eq ?_
    simp (disch := omega) only [List.map_cons, List.map_nil, Nat.add_assoc, Nat.reduceAdd,
      address_near, address_far, bes_add, bes_eight]
    rfl

theorem everyOther_perm {addr : ℕ} (haddr : addr < 4096) (h : addr / 2 % 8 = 0) :
    (everyOtherByte (addr ^^^ mes 0)).Perm
      ((List.range 8).map fun i => (i, bes ((addr + 2 * i) % 4096))) := by
  have hflip : addr ^^^ mes 0 = mes addr := rfl
  refine List.Perm.trans (List.reverse_perm _).symm (List.Perm.of_eq ?_)
  rw [hflip, everyOtherByte]
  obtain ⟨q, r, rfl, hr, hq⟩ : ∃ q r, addr = 8 * q + r ∧ r < 2 ∧ 8 * q + 16 ≤ 4096 :=
    ⟨2 * (addr / 16), addr % 16, by omega, by omega, by omega⟩
  have hmes : mes (8 * q + r) = 8 * q + mes r := by
    rw [show 8 * q = 2 * (4 * q) by omega, mes_add]
  rw [hmes]
  interval_cases r
  all_goals
    simp (disch := omega) only [range_eight, List.reverse_cons, List.reverse_nil, List.map_cons,
      List.map_nil, List.cons_append, List.nil_append, Nat.add_assoc, Nat.reduceAdd, Nat.reduceMul,
      Nat.mod_eq_of_lt, bes_add]
    rfl

/-- Half-words in order, each at the place of its two bytes. -/
theorem halves_eq {n e : ℕ} (addr : ℕ) (src : ℕ → ℕ) (he : e % 2 = 0)
    (hsrc : ∀ i < n, src i + 1 = bes ((addr + 2 * i) % 4096) ∧
      src i = bes ((addr + (2 * i + 1)) % 4096)) :
    ((List.range n).flatMap fun i => half (e + 2 * i) (src i)) = bytesIn (2 * n) e addr := by
  induction n with
  | zero => rfl
  | succ n ih =>
    have hlast := hsrc n (Nat.lt_succ_self n)
    have hmes : mes (e + 2 * n) = e + 2 * n + 1 ∧ mes (e + (2 * n + 1)) = e + 2 * n := by
      simp only [mes_eq]
      omega
    have hhalf : half (e + 2 * n) (src n) = [(mes (e + 2 * n), bes ((addr + 2 * n) % 4096)),
        (mes (e + (2 * n + 1)), bes ((addr + (2 * n + 1)) % 4096))] := by
      rw [hmes.1, hmes.2, ← hlast.1, ← hlast.2]
      rfl
    have hsplit : bytesIn (2 * (n + 1)) e addr =
        bytesIn (2 * n) e addr ++ half (e + 2 * n) (src n) := by
      rw [hhalf, bytesIn, Nat.mul_succ, List.range_succ, List.range_succ, List.map_append,
        List.map_append, List.append_assoc]
      rfl
    rw [List.range_succ, List.flatMap_append, ih fun i hi => hsrc i (by omega), hsplit]
    simp only [List.flatMap_cons, List.flatMap_nil, List.append_nil]

theorem quadBytes_halves (e q : ℕ) {m : ℕ} (hm : m < 8) : quadBytes e (2 * m) q =
    (List.range (8 - m)).flatMap fun i => half (e + 2 * i) (q + hes (2 * (m + i))) := by
  interval_cases m <;> rfl

theorem quadBytes_eq {e addr : ℕ} (he : e % 2 = 0) (haddr : addr < 4096) (heven : addr % 2 = 0) :
    quadBytes e (addr % 16) (addr - addr % 16) = bytesIn (16 - addr % 16) e addr := by
  have hb : addr % 16 = 2 * (addr % 16 / 2) := by omega
  have hn : 16 - addr % 16 = 2 * (8 - addr % 16 / 2) := by omega
  rw [hn, ← halves_eq addr (fun i => addr - addr % 16 + hes (2 * (addr % 16 / 2 + i))) he]
  · rw [← quadBytes_halves e _ (by omega), ← hb]
  · intro i hi
    have heven' : (addr + 2 * i) % 2 = 0 := by omega
    have hplace : addr - addr % 16 + 2 * (addr % 16 / 2 + i) = addr + 2 * i := by omega
    rw [← hes_add_left (by omega), hplace, Nat.mod_eq_of_lt (by omega),
      Nat.mod_eq_of_lt (by omega), ← Nat.add_assoc]
    exact ⟨(bes_even heven').symm, (bes_odd heven').symm⟩

theorem restBytes_halves (q : ℕ) {m : ℕ} (hm : m < 8) : restBytes (2 * m) q =
    (List.range m).flatMap fun i => half (16 - 2 * m + 2 * i) (q + hes (2 * i)) := by
  interval_cases m <;> rfl

theorem restBytes_eq {addr : ℕ} (haddr : addr < 4096) (heven : addr % 2 = 0) :
    restBytes (addr % 16) (addr - addr % 16) =
      bytesIn (addr % 16) (16 - addr % 16) (addr - addr % 16) := by
  have hb : addr % 16 = 2 * (addr % 16 / 2) := by omega
  have hbytes := halves_eq (n := addr % 16 / 2) (e := 16 - addr % 16) (addr - addr % 16)
    (fun i => addr - addr % 16 + hes (2 * i)) (by omega) fun i hi => by
      simp only [hes_eq, bes_eq]
      omega
  have hhalves := restBytes_halves (addr - addr % 16) (m := addr % 16 / 2) (by omega)
  rw [← hb] at hbytes hhalves
  rw [hhalves, hbytes]

/-- The loop of `LUV`: the address stands at lane `b`, modulo 16 behind the element. -/
theorem luvLoop_eq {e addr : ℕ} (hpos : 0 < e) (hlt : e < 16) (n b : ℕ) (a : BitVec 32)
    (hb : b + n ≤ 16) (ha : a.toNat % 4096 = (addr + (b + 16 - e) % 16) % 4096) :
    luvLoop e a b n =
      (List.range n).map fun k => (b + k, bes ((addr + (b + k + 16 - e) % 16) % 4096)) := by
  induction n generalizing b a with
  | zero => rfl
  | succ n ih =>
    have hmask : (a &&& 0xfff#32).toNat = a.toNat % 4096 := Flags.toNat_and_low 12 rfl
    have hnext : (if b + 1 = e then (a &&& 0xfff#32) - 16 + 1 else (a &&& 0xfff#32) + 1).toNat %
        4096 = (addr + (b + 1 + 16 - e) % 16) % 4096 := by
      split
      · simp only [BitVec.toNat_add, BitVec.toNat_sub, hmask, BitVec.ofNat_eq_ofNat,
          BitVec.toNat_ofNat]
        omega
      · simp only [BitVec.toNat_add, hmask, BitVec.ofNat_eq_ofNat, BitVec.toNat_ofNat]
        omega
    rw [luvLoop, ih (b + 1) _ (by omega) hnext, hmask, ha, List.range_succ_eq_map, List.map_cons,
      List.map_map]
    refine congrArg₂ List.cons rfl (List.map_congr_left fun k _ => ?_)
    show (b + 1 + k, bes ((addr + (b + 1 + k + 16 - e) % 16) % 4096)) =
      (b + (k + 1), bes ((addr + (b + (k + 1) + 16 - e) % 16) % 4096))
    rw [Nat.add_right_comm b 1 k, Nat.add_assoc b k 1]

-- ════════════════════════════════════════════════════════════════════════
-- Registers that wrap around, and blocks of registers
-- ════════════════════════════════════════════════════════════════════════

section Registers

variable (s : RspVectors) (vt : Fin 32)

theorem wrapAround_vr {j : ℕ} (hj : j < 32) : (s.wrapAround vt).vr vt j = s.vr vt (j % 16) := by
  show Function.update s.vr vt _ vt j = _
  rw [Function.update_self]
  by_cases hlow : j < 16
  · rw [assign_map_of_ne (g := fun j => 16 + j) _ fun k _ heq => by omega, Nat.mod_eq_of_lt hlow]
  · have hkey : j = 16 + j % 16 := by omega
    have hval := assign_map_of_mem (g := fun j => 16 + j) (x := s.vr vt) (s.vr vt)
      List.nodup_range (fun k _ k' _ heq => by omega)
      (List.mem_range.mpr (Nat.mod_lt j (show 0 < 16 by decide)))
    rw [← hkey] at hval
    exact hval

theorem wrapAround_arch : (s.wrapAround vt).arch = s.arch := by
  refine RspArch.ext rfl ?_
  funext v j
  have hj := j.isLt
  have hmes : mes j.val < 16 := by
    rw [mes_eq]
    omega
  show (s.wrapAround vt).vr v (mes j) = s.vr v (mes j)
  by_cases hv : v = vt
  · subst hv
    rw [wrapAround_vr s v (by omega), Nat.mod_eq_of_lt hmes]
  · show Function.update s.vr vt _ v (mes j) = _
    rw [Function.update_of_ne hv]

/-- A byte loop that runs over the end of a register. -/
theorem wrapped_arch {n e addr : ℕ} (hn : n ≤ 16) (he : e < 16) (haddr : addr < 4096) :
    ((s.wrapAround vt).moveOut vt (wrappedBytes n e addr)).arch =
      s.arch.storeBytes vt n e addr := by
  have hmoves : (wrappedBytes n e addr).map (fun p => (p.1, (s.wrapAround vt).vr vt p.2)) =
      (bytesOut n e addr).map fun p => (p.1, (s.wrapAround vt).vr vt p.2) := by
    rw [wrappedBytes, bytesOut, List.map_map, List.map_map]
    refine List.map_congr_left fun k hk => Prod.ext rfl ?_
    rw [List.mem_range] at hk
    show (s.wrapAround vt).vr vt (mes (e + k)) = (s.wrapAround vt).vr vt (mes ((e + k) % 16))
    rw [wrapAround_vr s vt (by rw [mes_eq]; omega), wrapAround_vr s vt (by rw [mes_eq]; omega)]
    refine congrArg (s.vr vt) ?_
    simp only [mes_eq]
    omega
  have hsame : (s.wrapAround vt).moveOut vt (wrappedBytes n e addr) =
      (s.wrapAround vt).moveOut vt (bytesOut n e addr) := by
    rw [moveOut, hmoves]
    rfl
  rw [hsame, moveOut_arch _ _ (by omega) _ haddr, wrapAround_arch]

/-- Loads into registers kept apart. -/
theorem foldl_moveIn (reg : ℕ → Fin 32) (l : ℕ → Moves) (n : ℕ)
    (hreg : ∀ i < n, ∀ j < n, reg i = reg j → i = j) :
    let t := (List.range n).foldl (fun s i => s.moveIn (reg i) (l i)) s
    t.dmem = s.dmem ∧
      (∀ i < n, t.vr (reg i) = assign (s.vr (reg i)) ((l i).map fun p => (p.1, s.dmem p.2))) ∧
      ∀ v, (∀ i < n, reg i ≠ v) → t.vr v = s.vr v := by
  induction n with
  | zero => exact ⟨rfl, fun i hi => absurd hi (Nat.not_lt_zero i), fun v _ => rfl⟩
  | succ n ih =>
    obtain ⟨hd, hin, hout⟩ := ih fun i hi j hj => hreg i (by omega) j (by omega)
    rw [List.range_succ, List.foldl_append, List.foldl_cons, List.foldl_nil]
    generalize (List.range n).foldl (fun s i => s.moveIn (reg i) (l i)) s = t at hd hin hout ⊢
    refine ⟨hd, fun i hi => ?_, fun v hv => ?_⟩
    · show Function.update t.vr (reg n) _ (reg i) = _
      by_cases hlast : i = n
      · subst hlast
        have hkeep : t.vr (reg i) = s.vr (reg i) := hout _ fun j hj heq => by
          have := hreg j (by omega) i (by omega) heq
          omega
        rw [Function.update_self, hkeep, hd]
      · have hne : reg i ≠ reg n := fun heq => hlast (hreg i hi n (by omega) heq)
        rw [Function.update_of_ne hne, hin i (by omega)]
    · show Function.update t.vr (reg n) _ v = _
      rw [Function.update_of_ne (hv n (by omega)).symm]
      exact hout v fun i hi => hv i (by omega)

/-- Stores from registers in turn. -/
theorem foldl_moveOut (reg : ℕ → Fin 32) (l : ℕ → Moves) (n : ℕ) :
    (List.range n).foldl (fun s i => s.moveOut (reg i) (l i)) s =
      { s with dmem := assign s.dmem ((List.range n).flatMap fun i =>
          (l i).map fun p => (p.1, s.vr (reg i) p.2)) } := by
  induction n with
  | zero => rfl
  | succ n ih =>
    rw [List.range_succ, List.foldl_append, ih, List.foldl_cons, List.foldl_nil,
      List.flatMap_append]
    simp only [moveOut, assign, List.foldl_append, List.flatMap_cons, List.flatMap_nil,
      List.append_nil]

theorem blockReg_val {i : ℕ} (hvt : vt.val % 8 = 0) (hi : i < 8) :
    (blockReg vt i).val = vt.val + i := by
  have hlt := vt.isLt
  show (vt.val + i) % 32 = _
  omega

end Registers

end Mupen64plus
