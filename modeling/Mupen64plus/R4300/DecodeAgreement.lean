import Mupen64plus.R4300.DecodeTables

/-!
# Agreement of the two decoders

An instruction word is the same instruction for both interpreters when they call the same routine
of `mips_instructions.def` and that routine reads the same operands.

## Main results

- `operands_eq` — a routine that both interpreters select reads the same operands, but for the
  second operand of `C_F_S`
- `settled_eq_iff` — the words for which both select the same routine
- `decoders_agree_iff` — both together
-/

namespace Mupen64plus

/-! ## Operands -/

/-- The content `r4300_decode` leaves in the union, by the group of case labels. -/
def DecodeCase.fill (c : DecodeCase) (iw : BitVec 32) (idec : Idec) (stale : InstrF) : InstrF :=
  match c with
  | .jalr | .toRd | .copToRt | .rType => fillR iw idec
  | .jr | .branch | .toRt | .iType => fillI iw idec
  | .lf => fillLf iw idec
  | .cp1 _ => fillCf iw idec
  | .jump => .j (iw &&& 0x3FFFFFF)
  | .bare => stale

theorem r4300Decode_f (o : R4300Op) (iw nextIw addr blockStart blockEnd : BitVec 32)
    (stale : InstrF) : (r4300Decode o iw nextIw addr blockStart blockEnd stale).f =
      o.decodeCase.fill iw o.idec stale := by
  rw [r4300Decode]
  cases o.decodeCase with
  | cp1 op => dsimp only [DecodeCase.fill]; split <;> rfl
  | _ => rfl

/-- The decoder parameters point a macro at the field where the pure interpreter looks. -/
def Accessor.fits (c : DecodeCase) (idec : Idec) (a : Accessor) : Bool :=
  match c, a with
  | .jalr, .rrs | .toRd, .rrs | .copToRt, .rrs | .rType, .rrs
  | .jr, .rrs | .branch, .rrs | .toRt, .rrs | .iType, .rrs
  | .jalr, .irs | .toRd, .irs | .copToRt, .irs | .rType, .irs
  | .jr, .irs | .branch, .irs | .toRt, .irs | .iType, .irs => idec.s = u53Rs
  | .jalr, .rrt | .toRd, .rrt | .copToRt, .rrt | .rType, .rrt
  | .branch, .irt | .toRt, .irt | .iType, .irt => idec.t = u53Rt
  | .jalr, .rrd | .toRd, .rrd | .copToRt, .rrd | .rType, .rrd => idec.d = u53Rd
  | .toRd, .rsa => idec.x.shift = 6
  | .copToRt, .rfs | .rType, .rfs => idec.d.shift = 11
  | .branch, .iimmediate | .toRt, .iimmediate | .iType, .iimmediate => true
  | .jump, .jinstIndex => true
  | .lf, .lfbase => idec.s.shift = 21
  | .lf, .lfft => idec.t.shift = 16
  | .lf, .lfoffset => true
  | .cp1 _, .cfft => idec.t.shift = 16
  | .cp1 _, .cffs => idec.s.shift = 11
  | .cp1 _, .cffd => idec.d.shift = 6
  | _, _ => false

theorem ofInstr_fill {c : DecodeCase} {idec : Idec} {a : Accessor} (h : a.fits c idec)
    (iw : BitVec 32) (stale : InstrF) :
    a.ofInstr (c.fill iw idec stale) = some (a.ofOpcode iw) := by
  obtain ⟨imm, d, t, s, x⟩ := idec
  unfold Accessor.fits at h
  split at h
  all_goals first
    -- the parameters say nothing about the macro
    | exact absurd h Bool.false_ne_true
    -- they name its field, or the shift of its field
    | (simp only [decide_eq_true_eq] at h
       first
         | (subst h; rfl)
         | (simp [DecodeCase.fill, fillR, fillLf, fillCf, Accessor.ofInstr, Accessor.ofOpcode,
             idecU53, h]; rfl))
    | rfl

/-- What `r4300_decode` reads for a routine of `ci_table` is what the routine asks for. -/
theorem ciRoutine_fits (o : R4300Op) :
    o.ciRoutine.accessors.all (·.fits o.decodeCase o.idec) = true := by
  cases o <;> rfl

theorem fpu_fits (op : FpuOp) (fmt : Format) (h : ¬ (op = .cF ∧ fmt = .S)) :
    (op.accessors fmt).all (·.fits (.cp1 op) (R4300Op.cp1 op).idec) = true := by
  cases op <;> cases fmt <;> first | rfl | exact absurd ⟨rfl, rfl⟩ h

/-! ## Executions -/

/-- What an interpreter executes: the routine and each operand the routine reads. -/
structure Execution where
  routine : Routine
  operands : List (Option Operand)
  deriving DecidableEq, Repr

def pureExecution (iw nextIw addr : BitVec 32) : Execution :=
  let routine := (interpretOpcode iw nextIw addr).routine
  ⟨routine, routine.accessors.map fun a => some (a.ofOpcode iw)⟩

def cachedExecution (iw nextIw addr blockStart blockEnd : BitVec 32) (stale : InstrF) :
    Execution :=
  let inst := r4300Decode (r4300GetIdec iw) iw nextIw addr blockStart blockEnd stale
  ⟨inst.ops.routine, inst.ops.routine.accessors.map (Accessor.ofInstr inst.f)⟩

def MajorsDiffer (op : BitVec 6) (rt : BitVec 5) : Prop :=
  op.toNat ∈ [50, 54, 58, 62] ∨ (op.toNat = 52 ∧ rt = 0)

def Cop0Differs (rs rt : BitVec 5) (funct : BitVec 6) : Prop :=
  rs = 2 ∨ rs = 6 ∨ (8 ≤ rs ∧ rs < 16 ∧ rt.toNat % 8 < 4) ∨
    (16 < rs ∧ funct.toNat ∈ [1, 2, 6, 8, 24])

def Cop1Differs (rs rt : BitVec 5) : Prop :=
  (rs = 8 ∧ 4 ≤ rt.toNat % 8) ∨ (8 < rs ∧ rs < 16 ∧ rt.toNat % 8 < 4)

def Cop2Differs (rs rt : BitVec 5) : Prop :=
  (rs = 3 ∧ rt = 0) ∨ 8 ≤ rs

/-- The words for which the two decoders select different routines. -/
def RoutinesDiffer (iw : BitVec 32) : Prop :=
  match (opOf iw).toNat with
  | 16 => Cop0Differs (rsOf iw) (rtOf iw) (functOf iw)
  | 17 => Cop1Differs (rsOf iw) (rtOf iw)
  | 18 => Cop2Differs (rsOf iw) (rtOf iw)
  | _ => MajorsDiffer (opOf iw) (rtOf iw)

/-- The words that are `C_F_S` with a field `fd` other than the low bits of its function code. -/
def ComparesFd (iw : BitVec 32) : Prop :=
  opOf iw = 17 ∧ rsOf iw = 16 ∧ functOf iw = 48 ∧ fdOf iw ≠ 16

/-- The words the interpreters execute differently: the coprocessor words that a mask of the tables
    folds onto other instructions or that the switch of the pure interpreter has no case for, the
    coprocessor 2 loads and stores, `LLD` to register zero and `C_F_S`. -/
def DecodersDiffer (iw : BitVec 32) : Prop :=
  RoutinesDiffer iw ∨ ComparesFd iw

instance (op : BitVec 6) (rt : BitVec 5) : Decidable (MajorsDiffer op rt) :=
  inferInstanceAs (Decidable (_ ∨ _))

instance (rs rt : BitVec 5) (funct : BitVec 6) : Decidable (Cop0Differs rs rt funct) :=
  inferInstanceAs (Decidable (_ ∨ _))

instance (rs rt : BitVec 5) : Decidable (Cop1Differs rs rt) :=
  inferInstanceAs (Decidable (_ ∨ _))

instance (rs rt : BitVec 5) : Decidable (Cop2Differs rs rt) :=
  inferInstanceAs (Decidable (_ ∨ _))

instance (iw : BitVec 32) : Decidable (RoutinesDiffer iw) := by
  unfold RoutinesDiffer
  split <;> infer_instance

instance (iw : BitVec 32) : Decidable (ComparesFd iw) :=
  inferInstanceAs (Decidable (_ ∧ _))

instance (iw : BitVec 32) : Decidable (DecodersDiffer iw) :=
  inferInstanceAs (Decidable (_ ∨ _))

/-! ## Routines -/

theorem major_agree (op : BitVec 6) (rt : BitVec 5) (hop : op.toNat ∉ [0, 1, 16, 17, 18]) :
    (entry op.toNat).decodeCase.usesRs = false ∧ (entry op.toNat).decodeCase.usesRd = false ∧
    ((entry op.toNat).settled 0 rt 0 = interpretMajor op rt ↔
      ¬ (op.toNat ∈ [50, 54, 58, 62] ∨ (op.toNat = 52 ∧ rt = 0))) := by
  by_cases hrt : rt = 0
  · subst hrt
    exact tablesAgree.major op 0 (by decide) hop
  · obtain ⟨hs, hd, heq⟩ := tablesAgree.major op 1 (by decide) hop
    have h10 : (1 : BitVec 5) ≠ 0 := by decide
    refine ⟨hs, hd, ?_⟩
    rw [settled_rt_of_ne _ hrt, interpretMajor_of_ne hrt, heq]
    simp only [h10, hrt, and_false]

theorem special_agree (funct : BitVec 6) (rd : BitVec 5) :
    (entry (64 + funct.toNat)).decodeCase.usesRs = false ∧
    (entry (64 + funct.toNat)).decodeCase.usesRt = false ∧
    (entry (64 + funct.toNat)).settled 0 0 rd = interpretSpecial rd funct := by
  by_cases hrd : rd = 0
  · subst hrd
    exact tablesAgree.special funct 0 (by decide)
  · obtain ⟨hs, ht, heq⟩ := tablesAgree.special funct 1 (by decide)
    refine ⟨hs, ht, ?_⟩
    rw [settled_rd_of_ne _ hrd, interpretSpecial_of_ne hrd, heq]

theorem tlb_agree (rs : BitVec 5) (funct : BitVec 6) (hrs : 16 ≤ rs) :
    (entry (176 + funct.toNat)).decodeCase.usesRs = false ∧
    (entry (176 + funct.toNat)).decodeCase.usesRt = false ∧
    (entry (176 + funct.toNat)).decodeCase.usesRd = false ∧
    ((entry (176 + funct.toNat)).settled 0 0 0 = interpretCop0 rs 0 funct ↔
      ¬ (16 < rs ∧ funct.toNat ∈ [1, 2, 6, 8, 24])) := by
  by_cases heq : rs = 16
  · subst heq
    exact tablesAgree.tlb 16 (by decide) funct
  · have habove : 16 < rs := by bv_omega
    have h17 : (16 : BitVec 5) < 17 := by decide
    have hkey := tablesAgree.tlb 17 (by decide) funct
    rw [interpretCop0_above h17] at hkey
    rw [interpretCop0_above habove]
    simpa only [habove, h17, true_and] using hkey

theorem fpu_agree (rs : BitVec 5) (funct : BitVec 6) (hrs : 16 ≤ rs) :
    (entry (256 + funct.toNat)).decodeCase.usesRt = false ∧
    (entry (256 + funct.toNat)).decodeCase.usesRd = false ∧
    (entry (256 + funct.toNat)).settled rs 0 0 = interpretCop1 rs 0 funct := by
  by_cases hmem : rs ∈ fpuFormats
  · exact tablesAgree.fpu rs (List.mem_cons_of_mem _ hmem) funct
  · have h18 : (18 : BitVec 5) ∉ fpuFormats := by decide
    have hkey := tablesAgree.fpu 18 List.mem_cons_self funct
    rw [interpretCop1_other (by decide) h18] at hkey
    rw [interpretCop1_other hrs hmem, settled_other hmem]
    exact hkey

/-- Where a destination decides, the decoder parameters name its field. -/
theorem destination_field (o : R4300Op) :
    match o.decodeCase with
    | .toRd => o.idec.d = u53Rd
    | .toRt | .copToRt => o.idec.t = u53Rt
    | .cp1 op => o = .cp1 op ∧ o.idec.x = u53Fmt
    | _ => True := by
  cases o with
  | cp1 op => exact ⟨rfl, by cases op <;> rfl⟩
  | _ => first | exact trivial | rfl

theorem destination_idec (o : R4300Op) :
    (o.decodeCase = .toRd → o.idec.d = u53Rd) ∧
    (o.decodeCase = .toRt → o.idec.t = u53Rt) ∧
    (o.decodeCase = .copToRt → o.idec.t = u53Rt) ∧
    (∀ op, o.decodeCase = .cp1 op → o = .cp1 op ∧ o.idec.x = u53Fmt) := by
  have hfield := destination_field o
  refine ⟨fun h => ?_, fun h => ?_, fun h => ?_, fun op h => ?_⟩ <;>
  · rw [h] at hfield
    exact hfield

theorem ofTable_routine (o : R4300Op) (v : Variant) (f : InstrF)
    (h : v = .idle → o ≠ .jr ∧ o ≠ .jalr) : (Decoded.ofTable o v f).ops.routine = o.ciRoutine := by
  simp only [Decoded.ofTable, ciTable]
  split
  · exact absurd rfl (h rfl).1
  · exact absurd rfl (h rfl).2
  · rfl

theorem ofTable_unlessR0 (o : R4300Op) (r : BitVec 5) (f : InstrF) :
    (Decoded.ofTable (if r = 0 then .nop else o) .regular f).ops.routine =
      unlessR0 r o.ciRoutine := by
  rw [ofTable_routine _ _ _ (by intro h; cases h), unlessR0]
  by_cases hr : r = 0
  · rw [if_pos hr, if_neg (not_not.2 hr)]; rfl
  · rw [if_neg hr, if_pos hr]

theorem r4300Decode_routine (o : R4300Op) (iw nextIw addr blockStart blockEnd : BitVec 32)
    (stale : InstrF) : (r4300Decode o iw nextIw addr blockStart blockEnd stale).ops.routine =
      o.settled (rsOf iw) (rtOf iw) (rdOf iw) := by
  obtain ⟨hd, ht, hc, hf⟩ := destination_idec o
  have not_reg : ∀ v, o.decodeCase = .jump ∨ o.decodeCase = .branch →
      (v = Variant.idle → o ≠ .jr ∧ o ≠ .jalr) := by
    rintro v h -
    constructor <;> rintro rfl <;> exact absurd h (by decide)
  rw [r4300Decode, R4300Op.settled]
  generalize hcase : o.decodeCase = c at *
  cases c with
  | toRd => rw [hd rfl]; exact ofTable_unlessR0 o _ _
  | toRt => rw [ht rfl]; exact ofTable_unlessR0 o _ _
  | copToRt => rw [hc rfl]; exact ofTable_unlessR0 o _ _
  | cp1 op =>
    dsimp only
    rw [(hf op rfl).2, show (idecU53 iw u53Fmt).2 = rsOf iw from rfl]
    cases op.format (rsOf iw) with
    | some fmt => rfl
    | none => rfl
  | jump => dsimp only; rw [ofTable_routine _ _ _ (not_reg _ (.inl rfl))]
  | branch => dsimp only; rw [ofTable_routine _ _ _ (not_reg _ (.inr rfl))]
  | jalr | jr | lf | rType | iType | bare =>
    dsimp only; rw [ofTable_routine _ _ _ (by intro h; cases h)]

/-- The operands of the routine `r4300_decode` settles on are those the pure interpreter reads,
    unless it is `C_F_S`. -/
theorem cached_operands (o : R4300Op) (iw nextIw addr blockStart blockEnd : BitVec 32)
    (stale : InstrF)
    (h : o.settled (rsOf iw) (rtOf iw) (rdOf iw) ≠ .fpu .cF .S) :
    let inst := r4300Decode o iw nextIw addr blockStart blockEnd stale
    inst.ops.routine.accessors.map (Accessor.ofInstr inst.f) =
      inst.ops.routine.accessors.map fun a => some (a.ofOpcode iw) := by
  intro inst
  have hfits : inst.ops.routine.accessors.all (·.fits o.decodeCase o.idec) = true := by
    rw [r4300Decode_routine]
    rw [R4300Op.settled] at h ⊢
    have hci := ciRoutine_fits o
    have hun : ∀ r, (unlessR0 r o.ciRoutine).accessors.all
        (·.fits o.decodeCase o.idec) = true := by
      intro r
      rw [unlessR0]
      split
      · exact hci
      · rfl
    cases hcase : o.decodeCase with
    | toRd => simpa only [hcase] using hun (rdOf iw)
    | toRt | copToRt => simpa only [hcase] using hun (rtOf iw)
    | cp1 op =>
      obtain rfl := ((destination_idec o).2.2.2 op hcase).1
      simp only [hcase] at h ⊢
      cases hfmt : op.format (rsOf iw) with
      | none => rfl
      | some fmt =>
        rw [hfmt] at h
        exact fpu_fits op fmt (by rintro ⟨rfl, rfl⟩; exact h rfl)
    | _ => simpa only [hcase] using hci
  rw [List.map_inj_left]
  intro a ha
  rw [r4300Decode_f]
  exact ofInstr_fill (List.all_eq_true.1 hfits a ha) iw stale

theorem of_flag_off {b : Bool} {p : Prop} (h : b = false) : b = true → p := by
  intro hb
  rw [h] at hb
  cases hb

theorem special_settled (funct : BitVec 6) (rs rt rd : BitVec 5) :
    (entry (64 + funct.toNat)).settled rs rt rd = interpretSpecial rd funct := by
  obtain ⟨hs, ht, heq⟩ := special_agree funct rd
  rw [settled_congr (of_flag_off hs) (of_flag_off ht) fun _ => rfl, heq]

theorem regimm_settled (rs rt rd : BitVec 5) :
    (entry (128 + rt.toNat)).settled rs rt rd = interpretRegimm rt := by
  obtain ⟨hs, ht, hd, heq⟩ := tablesAgree.regimm rt
  rw [settled_congr (of_flag_off hs) (of_flag_off ht) (of_flag_off hd), heq]

theorem cop0_settled_iff (rs rt rd : BitVec 5) (funct : BitVec 6) :
    (entry (if rs < 8 then 160 + rs.toNat % 8
      else if rs < 16 then 168 + rt.toNat % 8 else 176 + funct.toNat)).settled rs rt rd =
      interpretCop0 rs rt funct ↔ ¬ Cop0Differs rs rt funct := by
  rw [Cop0Differs]
  split_ifs with h8 h16
  · obtain ⟨hs, hd, heq⟩ := tablesAgree.cop0 rs rt h8
    rw [settled_congr (of_flag_off hs) (fun _ => rfl) (of_flag_off hd),
      interpretCop0_funct (by bv_omega), heq]
    have hrs : ¬ 8 ≤ rs ∧ ¬ 16 < rs := by constructor <;> bv_omega
    tauto
  · obtain ⟨hs, ht, hd, heq⟩ := tablesAgree.bc0 rs rt (by bv_omega) h16
    rw [settled_congr (of_flag_off hs) (of_flag_off ht) (of_flag_off hd), interpretCop0_funct h16,
      heq]
    have hrs : 8 ≤ rs ∧ rs ≠ 2 ∧ rs ≠ 6 ∧ ¬ 16 < rs := by
      refine ⟨?_, ?_, ?_, ?_⟩ <;> bv_omega
    tauto
  · obtain ⟨hs, ht, hd, heq⟩ := tlb_agree rs funct (by bv_omega)
    rw [settled_congr (of_flag_off hs) (of_flag_off ht) (of_flag_off hd),
      interpretCop0_rt (by bv_omega), heq]
    have hrs : rs ≠ 2 ∧ rs ≠ 6 := by constructor <;> bv_omega
    tauto

theorem cop1_settled_iff (rs rt rd : BitVec 5) (funct : BitVec 6) :
    (entry (if rs < 8 then 240 + rs.toNat % 8
      else if rs < 16 then 248 + rt.toNat % 8 else 256 + funct.toNat)).settled rs rt rd =
      interpretCop1 rs rt funct ↔ ¬ Cop1Differs rs rt := by
  rw [Cop1Differs]
  split_ifs with h8 h16
  · obtain ⟨hs, hd, heq⟩ := tablesAgree.cop1 rs rt h8
    rw [settled_congr (of_flag_off hs) (fun _ => rfl) (of_flag_off hd),
      interpretCop1_funct (by bv_omega), heq]
    have hrs : rs ≠ 8 ∧ ¬ 8 < rs := by constructor <;> bv_omega
    tauto
  · obtain ⟨hs, ht, hd, heq⟩ := tablesAgree.bc1 rs rt (by bv_omega) h16
    rw [settled_congr (of_flag_off hs) (of_flag_off ht) (of_flag_off hd), interpretCop1_funct h16,
      heq]
    tauto
  · obtain ⟨ht, hd, heq⟩ := fpu_agree rs funct (by bv_omega)
    rw [settled_congr (fun _ => rfl) (of_flag_off ht) (of_flag_off hd),
      interpretCop1_rt (by bv_omega), heq]
    have hrs : rs ≠ 8 := by bv_omega
    tauto

theorem cop2_settled_iff (rs rt rd : BitVec 5) :
    (entry (if rs < 8 then 320 + rs.toNat % 8
      else if rs < 16 then 328 + rt.toNat % 8 else 0)).settled rs rt rd =
      interpretCop2 rs rt ↔ ¬ Cop2Differs rs rt := by
  rw [Cop2Differs]
  split_ifs with h8 h16
  · obtain ⟨hs, hd, heq⟩ := tablesAgree.cop2 rs rt h8
    rw [settled_congr (of_flag_off hs) (fun _ => rfl) (of_flag_off hd), heq]
    have hrs : ¬ 8 ≤ rs := by bv_omega
    tauto
  · obtain ⟨hs, ht, hd, hne, -⟩ := tablesAgree.bc2 rs rt (by bv_omega)
    rw [settled_congr (of_flag_off hs) (of_flag_off ht) (of_flag_off hd)]
    have hrs : 8 ≤ rs := by bv_omega
    tauto
  · obtain ⟨-, -, -, -, hne⟩ := tablesAgree.bc2 rs rt (by bv_omega)
    have hrs : 8 ≤ rs := by bv_omega
    rw [show (entry 0).settled rs rt rd = (entry 0).settled 0 0 0 from rfl]
    tauto

/-- Away from the word 0 both interpreters select the same routine but for the words listed. -/
theorem settled_eq_iff (iw : BitVec 32) (h : iw ≠ 0) :
    (r4300GetIdec iw).settled (rsOf iw) (rtOf iw) (rdOf iw) = interpretRoutine iw ↔
      ¬ RoutinesDiffer iw := by
  rw [r4300GetIdec_entry iw h, interpretRoutine, RoutinesDiffer, MajorsDiffer]
  have major := major_agree (opOf iw) (rtOf iw)
  generalize (opOf iw).toNat = op at *
  by_cases hop : op ∈ [0, 1, 16, 17, 18]
  · simp only [List.mem_cons, List.not_mem_nil, or_false] at hop
    rcases hop with rfl | rfl | rfl | rfl | rfl
    · exact iff_of_true (special_settled _ _ _ _) (by simp)
    · exact iff_of_true (regimm_settled _ _ _) (by simp)
    · exact cop0_settled_iff _ _ _ _
    · exact cop1_settled_iff _ _ _ _
    · exact cop2_settled_iff _ _ _
  · obtain ⟨hs, hd, heq⟩ := major hop
    repeat' split
    all_goals first
      | exact absurd (by decide) hop
      | rw [settled_congr (of_flag_off hs) (fun _ => rfl) (of_flag_off hd), heq]

/-! ## The operands of `C_F_S` -/

theorem ciRoutine_ne_fpu (o : R4300Op) (op : FpuOp) (fmt : Format) :
    o.ciRoutine ≠ .fpu op fmt := by
  cases o <;> exact fun h => by cases h

theorem of_settled_fpu {o : R4300Op} {rs rt rd : BitVec 5} {op : FpuOp} {fmt : Format}
    (h : o.settled rs rt rd = .fpu op fmt) : o = .cp1 op := by
  have unless_ne : ∀ r, unlessR0 r o.ciRoutine ≠ .fpu op fmt := by
    intro r
    rw [unlessR0]
    split
    · exact ciRoutine_ne_fpu o op fmt
    · exact fun h => by cases h
  rw [R4300Op.settled] at h
  cases hcase : o.decodeCase with
  | toRd => rw [hcase] at h; exact absurd h (unless_ne rd)
  | toRt | copToRt => rw [hcase] at h; exact absurd h (unless_ne rt)
  | cp1 op' =>
    obtain rfl := ((destination_idec o).2.2.2 op' hcase).1
    rw [hcase] at h
    dsimp only at h
    split at h
    · injection h with hop; rw [hop]
    · cases h
  | _ => rw [hcase] at h; exact absurd h (ciRoutine_ne_fpu o op fmt)

theorem interpretCop1_eq_cF (rs rt : BitVec 5) (funct : BitVec 6) :
    interpretCop1 rs rt funct = .fpu .cF .S ↔ rs = 16 ∧ funct = 48 := by
  have low : ∀ rs rt : BitVec 5, rs < 16 → interpretCop1 rs rt 0 ≠ .fpu .cF .S := by
    decide
  have high : ∀ rs ∈ fpuFormats, ∀ funct : BitVec 6,
      (interpretCop1 rs 0 funct = .fpu .cF .S ↔ rs = 16 ∧ funct = 48) := by
    decide
  by_cases h : rs < 16
  · rw [interpretCop1_funct h]
    refine iff_of_false (low rs rt h) ?_
    rintro ⟨rfl, -⟩
    exact absurd h (by decide)
  · have hle : 16 ≤ rs := by bv_omega
    rw [interpretCop1_rt hle]
    by_cases hmem : rs ∈ fpuFormats
    · exact high rs hmem funct
    · rw [interpretCop1_other hle hmem]
      refine iff_of_false Routine.noConfusion ?_
      rintro ⟨rfl, -⟩
      exact hmem (by decide)

/-! A destination register other than zero stands for all of them. -/

theorem interpretSpecial_ne_cF (rd : BitVec 5) (funct : BitVec 6) :
    interpretSpecial rd funct ≠ .fpu .cF .S := by
  have key : ∀ rd ∈ ([0, 1] : List (BitVec 5)), ∀ funct : BitVec 6,
      interpretSpecial rd funct ≠ .fpu .cF .S := by
    decide
  by_cases hrd : rd = 0
  · rw [hrd]
    exact key 0 (by decide) funct
  · rw [interpretSpecial_of_ne hrd]
    exact key 1 (by decide) funct

theorem interpretMajor_ne_cF (op : BitVec 6) (rt : BitVec 5) :
    interpretMajor op rt ≠ .fpu .cF .S := by
  have key : ∀ rt ∈ ([0, 1] : List (BitVec 5)), ∀ op : BitVec 6,
      interpretMajor op rt ≠ .fpu .cF .S := by
    decide
  by_cases hrt : rt = 0
  · rw [hrt]
    exact key 0 (by decide) op
  · rw [interpretMajor_of_ne hrt]
    exact key 1 (by decide) op

theorem interpretCop0_ne_cF (rs rt : BitVec 5) (funct : BitVec 6) :
    interpretCop0 rs rt funct ≠ .fpu .cF .S := by
  have tlb : ∀ funct, interpretTlb funct ≠ .fpu .cF .S := by decide
  have mfc : ∀ rs rt : BitVec 5, rs < 16 → interpretCop0 rs rt 0 ≠ .fpu .cF .S := by
    decide
  by_cases h : rs < 16
  · rw [interpretCop0_funct h]
    exact mfc rs rt h
  · by_cases h16 : rs = 16
    · rw [h16]
      exact tlb funct
    · rw [interpretCop0_above (by bv_omega)]
      exact Routine.noConfusion

theorem interpretRoutine_eq_cF (iw : BitVec 32) :
    interpretRoutine iw = .fpu .cF .S ↔ opOf iw = 17 ∧ rsOf iw = 16 ∧ functOf iw = 48 := by
  have regimm : ∀ rt : BitVec 5, interpretRegimm rt ≠ .fpu .cF .S := by decide
  have cop2 : ∀ rs rt : BitVec 5, interpretCop2 rs rt ≠ .fpu .cF .S := by decide
  have hop : opOf iw = 17 ↔ (opOf iw).toNat = 17 := by
    constructor
    · rintro h; rw [h]; rfl
    · intro h; exact BitVec.eq_of_toNat_eq h
  rw [interpretRoutine, hop]
  generalize (opOf iw).toNat = op
  split
  · exact iff_of_false (interpretSpecial_ne_cF _ _) (by omega)
  · exact iff_of_false (regimm _) (by omega)
  · exact iff_of_false (interpretCop0_ne_cF _ _ _) (by omega)
  · rw [interpretCop1_eq_cF]; simp
  · exact iff_of_false (cop2 _ _) (by omega)
  · rename_i n17 n18
    exact iff_of_false (interpretMajor_ne_cF _ _) fun h => n17 h.1

/-- The decoder of `C_F_S` has no field for `fd`, so the low bits of the word stand in for it. -/
theorem cF_operands_iff (iw nextIw addr blockStart blockEnd : BitVec 32) (stale : InstrF)
    (hfunct : functOf iw = 48) :
    ([.cffs, .cffd] : List Accessor).map
        (Accessor.ofInstr (r4300Decode (.cp1 .cF) iw nextIw addr blockStart blockEnd stale).f) =
      ([.cffs, .cffd] : List Accessor).map (fun a => some (a.ofOpcode iw)) ↔ fdOf iw = 16 := by
  have hlow : iw.extractLsb' 0 5 = 16 := by
    have h48 : iw.toNat % 64 = 48 := by
      simpa [functOf] using congrArg BitVec.toNat hfunct
    refine BitVec.eq_of_toNat_eq ?_
    simp only [BitVec.extractLsb'_toNat, Nat.shiftRight_zero]
    change iw.toNat % 32 = 16
    omega
  rw [r4300Decode_f, show (R4300Op.cp1 .cF).decodeCase = .cp1 .cF from rfl,
    show (R4300Op.cp1 .cF).idec = idecFsFtFmt from rfl]
  simp only [DecodeCase.fill, fillCf, idecFsFtFmt, List.map_cons, List.map_nil,
    Accessor.ofInstr, Accessor.ofOpcode, idecU53, u53None, u53Fs, hlow, List.cons.injEq,
    Option.some.injEq, Operand.index.injEq, and_true]
  exact ⟨fun h => h.2.symm, fun h => ⟨rfl, h.symm⟩⟩

/-- **The decoders agree exactly off the listed words.** In every block, at every address and in
    front of every word, the cached interpreter executes the routine of the pure interpreter with
    the operands of the pure interpreter if and only if `iw` is none of them. -/
theorem decoders_agree_iff (iw nextIw addr blockStart blockEnd : BitVec 32) (stale : InstrF) :
    cachedExecution iw nextIw addr blockStart blockEnd stale = pureExecution iw nextIw addr ↔
      ¬ DecodersDiffer iw := by
  by_cases h0 : iw = 0
  · subst h0
    exact iff_of_true rfl (by decide)
  have hroutine := r4300Decode_routine (r4300GetIdec iw) iw nextIw addr blockStart blockEnd stale
  have hiff := settled_eq_iff iw h0
  rw [DecodersDiffer, not_or, ← hiff, cachedExecution, pureExecution, interpretOpcode]
  dsimp only
  rw [Execution.mk.injEq, hroutine]
  refine and_congr_right fun heq => ?_
  by_cases hcF : interpretRoutine iw = .fpu .cF .S
  · obtain ⟨hop, hrs, hfunct⟩ := (interpretRoutine_eq_cF iw).1 hcF
    have hget := of_settled_fpu (heq.trans hcF)
    rw [heq, hcF, hget]
    refine (cF_operands_iff iw nextIw addr blockStart blockEnd stale hfunct).trans ?_
    simp [ComparesFd, hop, hrs, hfunct]
  · have hops := cached_operands (r4300GetIdec iw) iw nextIw addr blockStart blockEnd stale
      (by rw [heq]; exact hcF)
    dsimp only at hops
    rw [hroutine, heq] at hops
    rw [heq]
    refine iff_of_true hops ?_
    rintro ⟨hop, hrs, hfunct, -⟩
    exact hcF ((interpretRoutine_eq_cF iw).2 ⟨hop, hrs, hfunct⟩)

/-- `CFC0` into register zero is a NOP for the cached interpreter and reserved for the pure one. -/
theorem cfc0_decodes_differently :
    ¬ ∀ iw nextIw addr blockStart blockEnd stale,
      cachedExecution iw nextIw addr blockStart blockEnd stale =
        pureExecution iw nextIw addr := by
  intro h
  exact absurd (h 0x40400000 1 0x80000000 0x80000000 0x80001000 (.j 0)) (by decide)

end Mupen64plus
