import Mupen64plus.R4300.PureDecode
import Mupen64plus.R4300.Idec

/-!
# The decoder tables by fields

`r4300_get_idec` reads the fields of a word through an escape; `r4300_decode` then lets a
destination field turn the instruction into a NOP and the format field select a floating point
function. Prefix by prefix, that is compared with the switch of the pure interpreter.

## Main results

- `r4300GetIdec_entry` — the table entry of a word, from its fields
- `tablesAgree` — where both select the same routine, prefix by prefix
-/

namespace Mupen64plus

/-- The routine `r4300_decode` settles on, by the register fields that decide about it. -/
def R4300Op.settled (o : R4300Op) (rs rt rd : BitVec 5) : Routine :=
  match o.decodeCase with
  | .toRd => unlessR0 rd o.ciRoutine
  | .toRt | .copToRt => unlessR0 rt o.ciRoutine
  | .cp1 op => match op.format rs with
    | some fmt => .fpu op fmt
    | none => .reserved
  | _ => o.ciRoutine

/-! ## The table lookup by fields -/

def escapeOf (op : BitVec 6) (rs : BitVec 5) : R4300OpEscape :=
  match op.toNat with
  | 0 => eSpecial
  | 1 => eRegimm
  | 16 => if rs < 8 then eCop0 else if rs < 16 then eBc0 else eTlb
  | 17 => if rs < 8 then eCop1 else if rs < 16 then eBc1 else eFpu
  | 18 => if rs < 8 then eCop2 else if rs < 16 then eBc2 else eInv
  | _ => eMain

/-- Eight values of RS share an escape. -/
theorem escapeOf_eighth (op : BitVec 6) (rs : BitVec 5) :
    escapeOf op rs = escapeOf op (BitVec.ofNat 5 (8 * (rs.toNat / 8))) := by
  have h8 : BitVec.ofNat 5 (8 * (rs.toNat / 8)) < 8 ↔ rs < 8 := by bv_omega
  have h16 : BitVec.ofNat 5 (8 * (rs.toNat / 8)) < 16 ↔ rs < 16 := by bv_omega
  simp only [escapeOf, h8, h16]

theorem escapesTable_eq (op : BitVec 6) (rs : BitVec 5) :
    r4300EscapesTable.getD (op.toNat * 4 + rs.toNat / 8) eInv = escapeOf op rs := by
  have key : ∀ (op : BitVec 6) (k : Fin 4),
      r4300EscapesTable.getD (op.toNat * 4 + k) eInv = escapeOf op (BitVec.ofNat 5 (8 * k)) := by
    decide +kernel
  have hk : rs.toNat / 8 < 4 := by omega
  rw [escapeOf_eighth]
  exact key op ⟨rs.toNat / 8, hk⟩

theorem prefix_toNat (iw : BitVec 32) :
    (iw >>> 24).toNat = (opOf iw).toNat * 4 + (rsOf iw).toNat / 8 := by
  simp only [opOf, rsOf, BitVec.toNat_ushiftRight, BitVec.extractLsb'_toNat,
    Nat.shiftRight_eq_div_pow]
  omega

theorem r4300GetIdec_eq (iw : BitVec 32) (h : iw ≠ 0) :
    r4300GetIdec iw =
      r4300OpTable.getD ((escapeOf (opOf iw) (rsOf iw)).index iw) .reserved := by
  rw [r4300GetIdec, if_neg h, prefix_toNat, escapesTable_eq]

theorem and_mask_toNat (x : BitVec 32) (n : ℕ) (h : n < 32) :
    (x &&& BitVec.ofNat 32 (2 ^ n - 1)).toNat = x.toNat % 2 ^ n := by
  have hlt : 2 ^ n - 1 < 2 ^ 32 :=
    lt_of_le_of_lt (Nat.sub_le _ _) (Nat.pow_lt_pow_right (by decide) h)
  rw [BitVec.toNat_and, BitVec.toNat_ofNat, Nat.mod_eq_of_lt hlt, Nat.and_two_pow_sub_one_eq_mod]

/-- An escape reads `n` bits at its shift. -/
theorem index_eq (iw : BitVec 32) (offset shift n : ℕ) (h : n < 32) :
    R4300OpEscape.index ⟨offset, shift, BitVec.ofNat 32 (2 ^ n - 1)⟩ iw =
      offset + (iw.extractLsb' shift n).toNat := by
  simp only [R4300OpEscape.index, and_mask_toNat _ _ h, BitVec.toNat_ushiftRight,
    BitVec.extractLsb'_toNat]

/-- Three bits of a five bit field. -/
theorem extract3_toNat (iw : BitVec 32) (shift : ℕ) :
    (iw.extractLsb' shift 3).toNat = (iw.extractLsb' shift 5).toNat % 8 := by
  simp only [BitVec.extractLsb'_toNat]
  omega

/-! ## Agreement of the routines, prefix by prefix -/

def DecodeCase.usesRs : DecodeCase → Bool
  | .cp1 _ => true
  | _ => false

def DecodeCase.usesRt : DecodeCase → Bool
  | .toRt | .copToRt => true
  | _ => false

def DecodeCase.usesRd : DecodeCase → Bool
  | .toRd => true
  | _ => false

theorem settled_congr {o : R4300Op} {rs rt rd rs' rt' rd' : BitVec 5}
    (hs : o.decodeCase.usesRs = true → rs = rs') (ht : o.decodeCase.usesRt = true → rt = rt')
    (hd : o.decodeCase.usesRd = true → rd = rd') : o.settled rs rt rd = o.settled rs' rt' rd' := by
  rw [R4300Op.settled, R4300Op.settled]
  cases hcase : o.decodeCase with
  | toRd => rw [hcase] at hd; rw [hd rfl]
  | toRt | copToRt => rw [hcase] at ht; rw [ht rfl]
  | cp1 op => rw [hcase] at hs; rw [hs rfl]
  | _ => rfl

/-- Entry `n` of the opcode table. -/
def entry (n : ℕ) : R4300Op := r4300OpTable.getD n .reserved

/-! A destination field matters only as zero or not, so one other value stands for all of them. -/

theorem unlessR0_of_ne {r : BitVec 5} (h : r ≠ 0) (k : Routine) :
    unlessR0 r k = unlessR0 1 k := by
  rw [unlessR0, unlessR0, if_pos h, if_pos (by decide)]

theorem settled_rt_of_ne (o : R4300Op) {rs rt rd : BitVec 5} (h : rt ≠ 0) :
    o.settled rs rt rd = o.settled rs 1 rd := by
  simp only [R4300Op.settled, unlessR0_of_ne h]

theorem settled_rd_of_ne (o : R4300Op) {rs rt rd : BitVec 5} (h : rd ≠ 0) :
    o.settled rs rt rd = o.settled rs rt 1 := by
  simp only [R4300Op.settled, unlessR0_of_ne h]

theorem interpretMajor_of_ne {op : BitVec 6} {rt : BitVec 5} (h : rt ≠ 0) :
    interpretMajor op rt = interpretMajor op 1 := by
  simp only [interpretMajor, unlessR0_of_ne h]

theorem interpretSpecial_of_ne {rd : BitVec 5} {funct : BitVec 6} (h : rd ≠ 0) :
    interpretSpecial rd funct = interpretSpecial 1 funct := by
  simp only [interpretSpecial, unlessR0_of_ne h]

/-- The values of RS from 16 on that are formats. -/
def fpuFormats : List (BitVec 5) := [16, 17, 20, 21]

theorem interpretCop0_above {rs rt : BitVec 5} {funct : BitVec 6} (h : 16 < rs) :
    interpretCop0 rs rt funct = .reserved := by
  have hlt : 16 < rs.toNat := by bv_omega
  rw [interpretCop0]
  split <;> first | rfl | omega

theorem format_other {rs : BitVec 5} (h : rs ∉ fpuFormats) (op : FpuOp) : op.format rs = none := by
  have hne : rs.toNat ≠ 0x10 ∧ rs.toNat ≠ 0x11 ∧ rs.toNat ≠ 0x14 ∧ rs.toNat ≠ 0x15 := by
    simp only [fpuFormats, List.mem_cons, List.not_mem_nil, or_false, not_or] at h
    bv_omega
  rw [FpuOp.format.eq_def]
  split <;> first | rfl | omega

theorem interpretCop1_other {rs rt : BitVec 5} {funct : BitVec 6} (h16 : 16 ≤ rs)
    (h : rs ∉ fpuFormats) : interpretCop1 rs rt funct = .reserved := by
  have hge : 16 ≤ rs.toNat := by bv_omega
  have hne : rs.toNat ≠ 16 ∧ rs.toNat ≠ 17 ∧ rs.toNat ≠ 20 ∧ rs.toNat ≠ 21 := by
    simp only [fpuFormats, List.mem_cons, List.not_mem_nil, or_false, not_or] at h
    bv_omega
  rw [interpretCop1]
  split <;> first | rfl | omega

theorem settled_other {rs : BitVec 5} (h : rs ∉ fpuFormats) (o : R4300Op) (rt rd : BitVec 5) :
    o.settled rs rt rd = o.settled 18 rt rd := by
  have h18 : (18 : BitVec 5) ∉ fpuFormats := by decide
  simp only [R4300Op.settled, format_other h, format_other h18]

/-- The opcode the tables give for a word, by the escape of its prefix. -/
theorem r4300GetIdec_entry (iw : BitVec 32) (h : iw ≠ 0) :
    r4300GetIdec iw = entry (match (opOf iw).toNat with
      | 0 => 64 + (functOf iw).toNat
      | 1 => 128 + (rtOf iw).toNat
      | 16 => if rsOf iw < 8 then 160 + (rsOf iw).toNat % 8
          else if rsOf iw < 16 then 168 + (rtOf iw).toNat % 8 else 176 + (functOf iw).toNat
      | 17 => if rsOf iw < 8 then 240 + (rsOf iw).toNat % 8
          else if rsOf iw < 16 then 248 + (rtOf iw).toNat % 8 else 256 + (functOf iw).toNat
      | 18 => if rsOf iw < 8 then 320 + (rsOf iw).toNat % 8
          else if rsOf iw < 16 then 328 + (rtOf iw).toNat % 8 else 0
      | op => op) := by
  rw [r4300GetIdec_eq iw h, entry]
  congr 1
  have funct (n) : R4300OpEscape.index ⟨n, 0, 0x3f⟩ iw = n + (functOf iw).toNat :=
    index_eq iw n 0 6 (by decide)
  have rt3 (n) : R4300OpEscape.index ⟨n, 16, 0x07⟩ iw = n + (rtOf iw).toNat % 8 := by
    rw [rtOf, ← extract3_toNat]; exact index_eq iw n 16 3 (by decide)
  have rs3 (n) : R4300OpEscape.index ⟨n, 21, 0x07⟩ iw = n + (rsOf iw).toNat % 8 := by
    rw [rsOf, ← extract3_toNat]; exact index_eq iw n 21 3 (by decide)
  rw [escapeOf]
  split
  · exact funct 64
  · exact index_eq iw 128 16 5 (by decide)
  · split_ifs
    · exact rs3 160
    · exact rt3 168
    · exact funct 176
  · split_ifs
    · exact rs3 240
    · exact rt3 248
    · exact funct 256
  · split_ifs
    · exact rs3 320
    · exact rt3 328
    · simp only [R4300OpEscape.index, eInv, BitVec.and_zero, BitVec.ofNat_eq_ofNat,
        BitVec.toNat_zero, Nat.add_zero]
  · exact (index_eq iw 0 26 6 (by decide)).trans (Nat.zero_add _)

theorem interpretCop0_funct {rs rt : BitVec 5} {funct : BitVec 6} (h : rs < 16) :
    interpretCop0 rs rt funct = interpretCop0 rs rt 0 := by
  have hne : rs.toNat ≠ 16 := by bv_omega
  rw [interpretCop0, interpretCop0]
  split <;> first | rfl | contradiction

theorem interpretCop0_rt {rs rt : BitVec 5} {funct : BitVec 6} (h : 16 ≤ rs) :
    interpretCop0 rs rt funct = interpretCop0 rs 0 funct := by
  have hle : 16 ≤ rs.toNat := by bv_omega
  rw [interpretCop0, interpretCop0]
  split <;> first | rfl | omega

theorem interpretCop1_funct {rs rt : BitVec 5} {funct : BitVec 6} (h : rs < 16) :
    interpretCop1 rs rt funct = interpretCop1 rs rt 0 := by
  have hlt : rs.toNat < 16 := by bv_omega
  rw [interpretCop1, interpretCop1]
  split <;> first | rfl | omega

theorem interpretCop1_rt {rs rt : BitVec 5} {funct : BitVec 6} (h : 16 ≤ rs) :
    interpretCop1 rs rt funct = interpretCop1 rs 0 funct := by
  have hle : 16 ≤ rs.toNat := by bv_omega
  rw [interpretCop1, interpretCop1]
  split <;> first | rfl | omega

/-- The entries of the table against the switch of the pure interpreter, prefix by prefix and over
    the values of the fields that stand for all others. -/
structure TablesAgree : Prop where
  major : ∀ (op : BitVec 6), ∀ rt ∈ ([0, 1] : List (BitVec 5)), op.toNat ∉ [0, 1, 16, 17, 18] →
    (entry op.toNat).decodeCase.usesRs = false ∧ (entry op.toNat).decodeCase.usesRd = false ∧
    ((entry op.toNat).settled 0 rt 0 = interpretMajor op rt ↔
      ¬ (op.toNat ∈ [50, 54, 58, 62] ∨ (op.toNat = 52 ∧ rt = 0)))
  special : ∀ (funct : BitVec 6), ∀ rd ∈ ([0, 1] : List (BitVec 5)),
    (entry (64 + funct.toNat)).decodeCase.usesRs = false ∧
    (entry (64 + funct.toNat)).decodeCase.usesRt = false ∧
    (entry (64 + funct.toNat)).settled 0 0 rd = interpretSpecial rd funct
  regimm : ∀ rt : BitVec 5,
    (entry (128 + rt.toNat)).decodeCase.usesRs = false ∧
    (entry (128 + rt.toNat)).decodeCase.usesRt = false ∧
    (entry (128 + rt.toNat)).decodeCase.usesRd = false ∧
    (entry (128 + rt.toNat)).settled 0 0 0 = interpretRegimm rt
  cop0 : ∀ rs rt : BitVec 5, rs < 8 →
    (entry (160 + rs.toNat % 8)).decodeCase.usesRs = false ∧
    (entry (160 + rs.toNat % 8)).decodeCase.usesRd = false ∧
    ((entry (160 + rs.toNat % 8)).settled 0 rt 0 = interpretCop0 rs rt 0 ↔
      ¬ (rs = 2 ∨ rs = 6))
  bc0 : ∀ rs rt : BitVec 5, 8 ≤ rs → rs < 16 →
    (entry (168 + rt.toNat % 8)).decodeCase.usesRs = false ∧
    (entry (168 + rt.toNat % 8)).decodeCase.usesRt = false ∧
    (entry (168 + rt.toNat % 8)).decodeCase.usesRd = false ∧
    ((entry (168 + rt.toNat % 8)).settled 0 0 0 = interpretCop0 rs rt 0 ↔ ¬ rt.toNat % 8 < 4)
  tlb : ∀ rs ∈ ([16, 17] : List (BitVec 5)), ∀ funct : BitVec 6,
    (entry (176 + funct.toNat)).decodeCase.usesRs = false ∧
    (entry (176 + funct.toNat)).decodeCase.usesRt = false ∧
    (entry (176 + funct.toNat)).decodeCase.usesRd = false ∧
    ((entry (176 + funct.toNat)).settled 0 0 0 = interpretCop0 rs 0 funct ↔
      ¬ (16 < rs ∧ funct.toNat ∈ [1, 2, 6, 8, 24]))
  cop1 : ∀ rs rt : BitVec 5, rs < 8 →
    (entry (240 + rs.toNat % 8)).decodeCase.usesRs = false ∧
    (entry (240 + rs.toNat % 8)).decodeCase.usesRd = false ∧
    (entry (240 + rs.toNat % 8)).settled 0 rt 0 = interpretCop1 rs rt 0
  bc1 : ∀ rs rt : BitVec 5, 8 ≤ rs → rs < 16 →
    (entry (248 + rt.toNat % 8)).decodeCase.usesRs = false ∧
    (entry (248 + rt.toNat % 8)).decodeCase.usesRt = false ∧
    (entry (248 + rt.toNat % 8)).decodeCase.usesRd = false ∧
    ((entry (248 + rt.toNat % 8)).settled 0 0 0 = interpretCop1 rs rt 0 ↔
      ¬ ((rs = 8 ∧ 4 ≤ rt.toNat % 8) ∨ (8 < rs ∧ rt.toNat % 8 < 4)))
  fpu : ∀ rs ∈ 18 :: fpuFormats, ∀ funct : BitVec 6,
    (entry (256 + funct.toNat)).decodeCase.usesRt = false ∧
    (entry (256 + funct.toNat)).decodeCase.usesRd = false ∧
    (entry (256 + funct.toNat)).settled rs 0 0 = interpretCop1 rs 0 funct
  cop2 : ∀ rs rt : BitVec 5, rs < 8 →
    (entry (320 + rs.toNat % 8)).decodeCase.usesRs = false ∧
    (entry (320 + rs.toNat % 8)).decodeCase.usesRd = false ∧
    ((entry (320 + rs.toNat % 8)).settled 0 rt 0 = interpretCop2 rs rt ↔ ¬ (rs = 3 ∧ rt = 0))
  bc2 : ∀ rs rt : BitVec 5, 8 ≤ rs →
    (entry (328 + rt.toNat % 8)).decodeCase.usesRs = false ∧
    (entry (328 + rt.toNat % 8)).decodeCase.usesRt = false ∧
    (entry (328 + rt.toNat % 8)).decodeCase.usesRd = false ∧
    (entry (328 + rt.toNat % 8)).settled 0 0 0 ≠ interpretCop2 rs rt ∧
    (entry 0).settled 0 0 0 ≠ interpretCop2 rs rt

theorem tablesAgree : TablesAgree where
  major := by decide +kernel
  special := by decide +kernel
  regimm := by decide +kernel
  cop0 := by decide +kernel
  bc0 := by decide +kernel
  tlb := by decide +kernel
  cop1 := by decide +kernel
  bc1 := by decide +kernel
  fpu := by decide +kernel
  cop2 := by decide +kernel
  bc2 := by decide +kernel

end Mupen64plus
