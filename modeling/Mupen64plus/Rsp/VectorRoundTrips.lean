import Mupen64plus.Rsp.VectorInstructions

/-!
# Storing a register and loading it back

`SDV` and then `LDV` restore eight bytes, `SQV` and `SRV` and then `LQV` and `LRV` all sixteen, into
any register. The first fails where `SDV` misplaces, the second where `SQV` does not handle the
address, which it reports.

## Main definitions

- `DoubleRestored`, `QuadRestored` — the instructions succeed and the bytes are back

## Main results

- `vectorMoves_iff` — exactly when the instructions are right and restore what they store
-/

namespace Mupen64plus

open RspVectors

section Bytes

variable (m : RspArch) (vt : Fin 32) (n e addr : ℕ)

theorem storeBytes_byteAt (a : ℕ) : (m.storeBytes vt n e addr).byteAt a =
    if (a % 4096 + 4096 - addr) % 4096 < n then
      m.elementAt vt (e + (a % 4096 + 4096 - addr) % 4096)
    else m.byteAt a := rfl

@[simp] theorem storeBytes_elementAt (v : Fin 32) (j : ℕ) :
    (m.storeBytes vt n e addr).elementAt v j = m.elementAt v j := rfl

@[simp] theorem loadBytes_byteAt (a : ℕ) :
    (m.loadBytes vt n e addr).byteAt a = m.byteAt a := rfl

theorem loadBytes_elementAt {j : ℕ} (hj : j < 16) : (m.loadBytes vt n e addr).elementAt vt j =
    if e ≤ j ∧ j < e + n then m.byteAt (addr + (j - e)) else m.elementAt vt j := by
  show (if vt = vt ∧ e ≤ j % 16 ∧ j % 16 < e + n then m.byteAt (addr + (j % 16 - e))
    else m.elementAt vt j) = _
  rw [Nat.mod_eq_of_lt hj]
  by_cases hc : e ≤ j ∧ j < e + n
  · rw [if_pos ⟨rfl, hc⟩, if_pos hc]
  · rw [if_neg hc, if_neg fun h => hc h.2]

end Bytes

section Restore

variable (s : RspVectors) (vt w : Fin 32) (e : Fin 16) (offset next : BitVec 7) (base : Fin 32)

/-- `SDV`, and `LDV` with the same operands, give a register the eight bytes. -/
def DoubleRestored : Prop :=
  ∃ t u, sdv s vt e offset base = .ok t ∧ ldv t w e offset base = .ok u ∧
    ∀ k < 8, u.arch.elementAt w (e.val + k) = s.arch.elementAt vt (e.val + k)

/-- `SQV`, `SRV` at the second address, and `LQV` and `LRV` in turn, give a register all bytes. -/
def QuadRestored : Prop :=
  ∃ t u v x, sqv s vt 0 offset base = .ok t ∧ srv t vt 0 next base = .ok u ∧
    lqv u w 0 offset base = .ok v ∧ lrv v w 0 next base = .ok x ∧
    ∀ k < 16, x.arch.elementAt w k = s.arch.elementAt vt k

variable {e}

/-- What `SDV` leaves at its eight addresses is what `LDV` brings back. -/
theorem doubleRestored_iff (heven : e.val % 2 = 0) (hle : e.val ≤ 8) :
    DoubleRestored s vt w e offset base ↔ ¬Misplaced .sdv s vt e offset base := by
  have haddr : s.address 8 offset base < 4096 := address_lt 8
  have hsdv : sdv s vt e offset base =
      .ok (s.moveOut vt (sdvBytes e.val (s.address 8 offset base))) := if_neg fun h => by omega
  have hldv : ∀ t : RspVectors, ldv t w e offset base =
      .ok (t.moveIn w (ldvBytes e.val (t.address 8 offset base))) := fun t => if_neg
        fun h => by omega
  have hback : ∀ u, ldv (s.moveOut vt (sdvBytes e.val (s.address 8 offset base))) w e offset base =
      .ok u → ∀ k < 8, u.arch.elementAt w (e.val + k) =
        (s.moveOut vt (sdvBytes e.val (s.address 8 offset base))).arch.byteAt
          (s.address 8 offset base + k) := by
    intro u hu k hk
    rw [ldv_exact hu, loadBytes_elementAt _ _ _ _ _ (by omega), if_pos (by omega),
      Nat.add_sub_cancel_left]
    rfl
  constructor
  · rintro ⟨t, u, ht, hu, hk⟩ ⟨-, h3, -, -, hne⟩
    have ht' : t = s.moveOut vt (sdvBytes e.val (s.address 8 offset base)) :=
      (ok_inj (hsdv.symm.trans ht)).symm
    subst ht'
    have hlast : ∀ k < 2, s.arch.elementAt vt (6 + k) = s.arch.elementAt vt (e.val + (6 + k)) := by
      intro k hlt
      have hd : ((s.address 8 offset base + (6 + k)) % 4096 + 4096 -
          (s.address 8 offset base + 6) % 4096) % 4096 = k := by
        omega
      rw [← hk (6 + k) (by omega), hback u hu (6 + k) (by omega), sdv_three hsdv ⟨h3, hle, heven⟩,
        storeBytes_byteAt, hd, if_pos hlt, storeBytes_elementAt]
    exact hne ⟨hlast 0 (by decide), hlast 1 (by decide)⟩
  · intro hmis
    have hright := (sdv_right_iff s vt e offset base).mpr hmis
    refine ⟨_, _, hsdv, hldv _, fun k hk => ?_⟩
    have hd : ((s.address 8 offset base + k) % 4096 + 4096 - s.address 8 offset base) % 4096 =
        k := by
      omega
    rw [hback _ (hldv _) k hk, hright _ hsdv]
    show (s.arch.storeBytes vt 8 e.val (s.address 8 offset base)).byteAt _ = _
    rw [storeBytes_byteAt, hd, if_pos hk]

/-- `SQV` handles an even address in the first half of a quad-word only. -/
theorem sqv_zero (heven : s.address 16 offset base % 2 = 0) :
    (∃ t, sqv s vt 0 offset base = .ok t) ↔ s.address 16 offset base % 16 < 8 := by
  have hrun : sqv s vt 0 offset base =
      if s.address 16 offset base % 16 = 0 ∨ s.address 16 offset base % 16 = 2 ∨
          s.address 16 offset base % 16 = 4 ∨ s.address 16 offset base % 16 = 6 then
        .ok (s.moveOut vt (exchange (quadBytes 0 (s.address 16 offset base % 16)
          (s.address 16 offset base - s.address 16 offset base % 16))))
      else .error "SQV\nWeird addr." := rfl
  rw [hrun]
  split
  next hb => exact ⟨fun _ => by omega, fun _ => ⟨_, rfl⟩⟩
  next hb => exact ⟨fun ⟨t, ht⟩ => (nomatch ht), fun _ => by omega⟩

theorem sqv_sr {t : RspVectors} (h : sqv s vt 0 offset base = .ok t) : t.sr = s.sr := by
  simp only [sqv] at h
  split at h
  · rw [← ok_inj h]
    rfl
  split at h
  · rw [← ok_inj h]
    rfl
  · cases h

/-- The other instructions handle every even address. -/
theorem srv_zero (heven : s.address 16 offset base % 2 ≠ 1) :
    ∃ t, srv s vt 0 offset base = .ok t ∧ t.sr = s.sr :=
  ⟨_, (if_neg (not_not.mpr rfl)).trans (if_neg heven), rfl⟩

theorem lqv_zero (heven : s.address 16 offset base % 2 ≠ 1) :
    ∃ t, lqv s w 0 offset base = .ok t ∧ t.sr = s.sr :=
  ⟨_, (if_neg (by decide)).trans (if_neg heven), rfl⟩

theorem lrv_zero (heven : s.address 16 offset base % 2 ≠ 1) :
    ∃ t, lrv s w 0 offset base = .ok t ∧ t.sr = s.sr :=
  ⟨_, (if_neg (not_not.mpr rfl)).trans (if_neg heven), rfl⟩

theorem address_of_sr {s t : RspVectors} (h : t.sr = s.sr) (scale : BitVec 32) (o : BitVec 7)
    (base : Fin 32) : t.address scale o base = s.address scale o base := by
  rw [RspVectors.address, h]
  rfl

/-- The sixteen bytes are back where `SQV` handles the address. -/
theorem quadRestored_iff (heven : s.address 16 offset base % 2 = 0)
    (hnext : s.address 16 next base = (s.address 16 offset base + 16) % 4096) :
    QuadRestored s vt w offset next base ↔ s.address 16 offset base % 16 < 8 := by
  have haddr : s.address 16 offset base < 4096 := address_lt 16
  rw [← sqv_zero s vt offset base heven]
  refine ⟨fun ⟨t, _, _, _, ht, _⟩ => ⟨t, ht⟩, fun ⟨t, ht⟩ => ?_⟩
  have hta := address_of_sr (sqv_sr s vt offset base ht) 16
  obtain ⟨u, hu, husr⟩ := srv_zero t vt next base (by rw [hta, hnext]; omega)
  have hua := address_of_sr husr 16
  obtain ⟨v, hv, hvsr⟩ := lqv_zero u w offset base (by rw [hua, hta]; omega)
  have hva := address_of_sr hvsr 16
  obtain ⟨x, hx, -⟩ := lrv_zero v w next base (by rw [hva, hua, hta, hnext]; omega)
  refine ⟨t, u, v, x, ht, hu, hv, hx, fun k hk => ?_⟩
  have hzero : ((0 : Fin 16) : ℕ) = 0 := rfl
  rw [lrv_exact hx, loadBytes_elementAt _ _ _ _ _ hk]
  by_cases hrest : 16 - s.address 16 offset base % 16 ≤ k
  · -- The rest, which `SRV` stored behind the quad-word.
    rw [if_pos (by rw [hva, hua, hta]; omega), lqv_exact hv, loadBytes_byteAt, srv_exact hu,
      storeBytes_byteAt, sqv_exact ht, storeBytes_elementAt]
    simp only [hva, hua, hta, hnext]
    generalize s.address 16 offset base = addr at haddr heven hrest
    rw [if_pos (by omega)]
    refine congrArg (s.arch.elementAt vt) ?_
    omega
  · -- The bytes up to the end of the quad-word, which `SRV` does not touch.
    rw [if_neg (by rw [hva, hua, hta]; omega), lqv_exact hv, loadBytes_elementAt _ _ _ _ _ hk,
      if_pos (by rw [hua, hta, hzero]; omega), srv_exact hu, storeBytes_byteAt, sqv_exact ht,
      storeBytes_byteAt, hzero]
    simp only [hua, hta, hnext]
    generalize s.address 16 offset base = addr at haddr heven hrest
    rw [if_neg (by omega), if_pos (by omega)]
    refine congrArg (s.arch.elementAt vt) ?_
    omega

variable (op : VectorMove)

/-- The instruction is right, and what the two sequences store comes back. -/
structure MovesRight (e : Fin 16) : Prop where
  moved : MovedRight op s vt e offset base
  double : e.val % 2 = 0 → e.val ≤ 8 → DoubleRestored s vt w e offset base
  quad : s.address 16 offset base % 2 = 0 →
    s.address 16 next base = (s.address 16 offset base + 16) % 4096 →
      QuadRestored s vt w offset next base

/-- `SDV` does not misplace, and `SQV` handles the even address. -/
structure Handled (e : Fin 16) : Prop where
  moved : ¬Misplaced op s vt e offset base
  double : e.val % 2 = 0 → e.val ≤ 8 → ¬Misplaced .sdv s vt e offset base
  quad : s.address 16 offset base % 2 = 0 →
    s.address 16 next base = (s.address 16 offset base + 16) % 4096 →
      s.address 16 offset base % 16 < 8

/-- **Vector moves**: for every instruction, operands and state, the bytes moved are those of the
    definition and both sequences restore them exactly where `SDV` does not take its last half-word
    from element 6 for another and `SQV` handles the address. -/
theorem vectorMoves_iff (e : Fin 16) :
    MovesRight s vt w offset next base op e ↔ Handled s vt offset next base op e := by
  constructor
  · intro h
    exact ⟨(movedRight_iff s vt e offset base op).mp h.moved,
      fun heven hle => (doubleRestored_iff s vt w offset base heven hle).mp (h.double heven hle),
      fun heven hnext => (quadRestored_iff s vt w offset next base heven hnext).mp
        (h.quad heven hnext)⟩
  · intro h
    exact ⟨(movedRight_iff s vt e offset base op).mpr h.moved,
      fun heven hle => (doubleRestored_iff s vt w offset base heven hle).mpr (h.double heven hle),
      fun heven hnext => (quadRestored_iff s vt w offset next base heven hnext).mpr
        (h.quad heven hnext)⟩

/-- `SDV` of element 2 at address 3, from a register whose bytes are all different. -/
theorem sdv_misplaces : ¬∀ op s vt e offset base, MovedRight op s vt e offset base := by
  intro h
  have hright := h .sdv ⟨fun _ => 3, fun _ => 0, fun _ j => BitVec.ofNat 8 j⟩ 0 2 0 0
  exact (movedRight_iff _ _ _ _ _ _).mp hright (by decide)

end Restore

end Mupen64plus
