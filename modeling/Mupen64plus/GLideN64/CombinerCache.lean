import Mathlib.Data.List.AList
import Mupen64plus.GLideN64.CombinerPrograms
import Mupen64plus.Lib.Runs

/-!
# Cache of combiner programs

`CombinerInfo` keeps a program for each key, which is the mux with the drawing state in its high
byte. The depth fog shader takes the place of the current program until an update. The uniforms of
the programs and the storage of shaders in a file are left out.

## Main definitions

- `CombinerInfo.setCombine`, `update`, `setDepthFogCombiner` — the current program
- `CombinerProgram.Fits` — a program is the one of the drawing state

## Main results

- `combinerCache_sound` — where an update finds the right program, and that none is lost
-/

namespace Mupen64plus

-- ════════════════════
-- Keys
-- ════════════════════

/-- What `Combiner_Compile` hands to `createCombinerProgram`. -/
structure CombinerProgram where
  key : BitVec 64
  color : List (List CombinerOp)
  alpha : List (List CombinerOp)
  deriving DecidableEq, Repr

/-- `getCycleType`. -/
def keyCycleType (key : BitVec 64) : BitVec 2 := key.extractLsb' 57 2

/-- `getBilerp`. -/
def keyBilerp (key : BitVec 64) : BitVec 2 := key.extractLsb' 59 2

/-- `isRectKey`. -/
def keyIsRect (key : BitVec 64) : Bool := key.getLsbD 56

/-- `isHWLSupported`. -/
def keyHwlSupported (key : BitVec 64) : Bool := key.getLsbD 61

def cycleTypeOf (bits : BitVec 2) : CycleType :=
  [.oneCycle, .twoCycle, .copy].getD bits.toNat .fill

/-- `Combiner_Compile`. -/
def CombinerProgram.compile (key : BitVec 64) : CombinerProgram where
  key := key
  color := (combinerCompile (cycleTypeOf (keyCycleType key)) (CombineMux.ofBits key)).1
  alpha := (combinerCompile (cycleTypeOf (keyCycleType key)) (CombineMux.ofBits key)).2

/-- What `m_pCurrent` points to. -/
inductive CurrentProgram where
  | combiner (p : CombinerProgram)
  | shadowmap
  deriving DecidableEq, Repr

/-- `getKey`; that of a shader is empty. -/
def CurrentProgram.getKey : CurrentProgram → BitVec 64
  | .combiner p => p.key
  | .shadowmap => 0

-- ════════════════════
-- The cache
-- ════════════════════

/-- `CombinerInfo`, and what its keys look at in `gDP` and `GBI`. -/
structure CombinerInfo where
  mux : BitVec 64 := 0
  cycleType : BitVec 2 := 0
  bilerp : BitVec 2 := 0
  hwlSupported : Bool := false
  rectMode : Bool := true
  changed : Bool := false
  current : Option CurrentProgram := none
  combiners : AList (fun _ : BitVec 64 => CombinerProgram) := ∅
  shadowmapProgram : Bool := false
  /-- The programs that were compiled and not deleted. -/
  live : List CombinerProgram := []

namespace CombinerInfo

variable (c : CombinerInfo)

/-- The flags that the constructor of `CombinerKey` collects. -/
def flags : BitVec 64 :=
  (BitVec.ofBool c.rectMode).setWidth 64 ||| (c.cycleType.setWidth 64 <<< 1) |||
    (c.bilerp.setWidth 64 <<< 3) ||| ((BitVec.ofBool c.hwlSupported).setWidth 64 <<< 5)

/-- The constructor of `CombinerKey`. -/
def key (mux : BitVec 64) : BitVec 64 := mux ||| c.flags <<< 56

/-- `CombinerInfo::setCombine`. -/
def setCombine (mux : BitVec 64) : CombinerInfo :=
  if c.current.map CurrentProgram.getKey = some (c.key mux) then { c with changed := false }
  else match c.combiners.lookup (c.key mux) with
    | some p => { c with current := some (.combiner p), changed := true }
    | none =>
      let p := CombinerProgram.compile (c.key mux)
      { c with
        current := some (.combiner p)
        combiners := c.combiners.insert p.key p
        live := p :: c.live
        changed := true }

/-- `EncodeCombineMode(0, 0, 0, d, 0, 0, 0, d)` for both cycles. -/
def solidMux (d : BitVec 3) : BitVec 64 :=
  0x00fffffffffc7038 ||| d.setWidth 64 <<< 15 ||| d.setWidth 64 <<< 9 ||| d.setWidth 64 <<< 6 |||
    d.setWidth 64

/-- `TEXEL0` in copy mode, `SHADE` in fill mode. -/
def updateMux : BitVec 64 :=
  match cycleTypeOf c.cycleType with
  | .copy => solidMux 1
  | .fill => solidMux 4
  | _ => c.mux

/-- `CombinerInfo::update`. -/
def update : CombinerInfo := c.setCombine c.updateMux

/-- `Combiner_Init`, without the storage; not every context has a depth fog shader. -/
def init (depthFogShader : Bool) : CombinerInfo :=
  let started := { c with current := none }
  let filled :=
    if c.combiners.entries = [] then
      let texRect := { started with rectMode := true, cycleType := 2 }.setCombine (solidMux 1)
      { texRect with cycleType := 3 }.setCombine (solidMux 4)
    else started
  { filled with shadowmapProgram := depthFogShader, cycleType := 0 }

/-- `CombinerInfo::destroy`. -/
def destroy : CombinerInfo :=
  { c with
    shadowmapProgram := false
    current := none
    live := c.live.diff (c.combiners.entries.map Sigma.snd)
    combiners := ∅ }

/-- `CombinerInfo::setDepthFogCombiner`. -/
def setDepthFogCombiner : CombinerInfo :=
  if c.shadowmapProgram then { c with current := some .shadowmap } else c

end CombinerInfo

/-- The calls of `CombinerInfo`, and what sets the mux and the drawing state. -/
inductive CombinerCall where
  | setCombineMode (w0 w1 : BitVec 32)
  | setDrawState (cycleType bilerp : BitVec 2) (hwlSupported : Bool)
  | setPolygonMode (rectMode : Bool)
  | setDepthFogCombiner
  | update
  | init (depthFogShader : Bool)
  | destroy

def CombinerInfo.call (c : CombinerInfo) : CombinerCall → CombinerInfo
  -- `RDP_SetCombine` masks the command off the first word
  | .setCombineMode w0 w1 => { c with mux := (w0 &&& 0x00ffffff) ++ w1 }
  | .setDrawState cycleType bilerp hwlSupported => { c with cycleType, bilerp, hwlSupported }
  | .setPolygonMode rectMode => { c with rectMode }
  | .setDepthFogCombiner => c.setDepthFogCombiner
  | .update => c.update
  | .init depthFogShader => c.init depthFogShader
  | .destroy => c.destroy

/-- The program is built of the muxes and for the drawing state of an update. -/
structure CombinerProgram.Fits (p : CombinerProgram) (c : CombinerInfo) : Prop where
  stages : (p.color, p.alpha) =
    combinerCompile (cycleTypeOf c.cycleType) (CombineMux.ofBits c.updateMux)
  cycleType : keyCycleType p.key = c.cycleType
  bilerp : keyBilerp p.key = c.bilerp
  isRect : keyIsRect p.key = c.rectMode
  hwlSupported : keyHwlSupported p.key = c.hwlSupported

-- ════════════════════
-- The high byte
-- ════════════════════

/-- The byte of the flags is free. -/
def HighByteZero (mux : BitVec 64) : Prop := ∀ i ≥ 56, mux.getLsbD i = false

theorem solidMux_high (d : BitVec 3) : HighByteZero (CombinerInfo.solidMux d) := by
  intro i hi
  by_cases hlt : i < 64
  · unfold CombinerInfo.solidMux
    interval_cases i <;> simp
  · exact BitVec.getLsbD_of_ge _ _ (by omega)

theorem setCombineMode_high (w0 w1 : BitVec 32) :
    HighByteZero ((w0 &&& 0x00ffffff) ++ w1) := by
  intro i hi
  by_cases hlt : i < 64
  · have hmask : (0x00ffffff : BitVec 32).getLsbD (i - 32) = false := by interval_cases i <;> rfl
    rw [BitVec.getLsbD_append, if_neg (by omega), BitVec.getLsbD_and, hmask, Bool.and_false]
  · exact BitVec.getLsbD_of_ge _ _ (by omega)

namespace CombinerInfo

variable {c : CombinerInfo} {mux : BitVec 64}

theorem updateMux_high (hmux : HighByteZero c.mux) : HighByteZero c.updateMux := by
  unfold updateMux
  split
  · exact solidMux_high 1
  · exact solidMux_high 4
  · exact hmux

theorem getLsbD_flags (c : CombinerInfo) {i : ℕ} (hi : i < 8) : c.flags.getLsbD i =
    [c.rectMode, c.cycleType.getLsbD 0, c.cycleType.getLsbD 1, c.bilerp.getLsbD 0,
      c.bilerp.getLsbD 1, c.hwlSupported, false, false].getD i false := by
  unfold flags
  interval_cases i <;> simp

theorem getLsbD_key (hmux : HighByteZero mux) {i : ℕ} (hi : i < 64) :
    (c.key mux).getLsbD i = if i < 56 then mux.getLsbD i else c.flags.getLsbD (i - 56) := by
  have hhigh : 56 ≤ i → mux.getLsbD i = false := hmux i
  unfold key
  simp only [BitVec.getLsbD_or, BitVec.getLsbD_shiftLeft, hi]
  grind

/-- The fields of the muxes end below the flags. -/
theorem ofBits_key (hmux : HighByteZero mux) :
    CombineMux.ofBits (c.key mux) = CombineMux.ofBits mux := by
  have hfield : ∀ start len : ℕ, start + len ≤ 56 →
      (c.key mux).extractLsb' start len = mux.extractLsb' start len := by
    intro start len hlen
    refine BitVec.eq_of_getLsbD_eq fun i hi => ?_
    rw [BitVec.getLsbD_extractLsb', BitVec.getLsbD_extractLsb', getLsbD_key hmux (by omega),
      if_pos (by omega)]
  unfold CombineMux.ofBits
  simp only [hfield, Nat.reduceAdd, Nat.reduceLeDiff]

theorem keyCycleType_key (hmux : HighByteZero mux) : keyCycleType (c.key mux) = c.cycleType := by
  refine BitVec.eq_of_getLsbD_eq fun i hi => ?_
  rw [keyCycleType, BitVec.getLsbD_extractLsb', getLsbD_key hmux (by omega), if_neg (by omega),
    getLsbD_flags c (by omega)]
  interval_cases i <;> simp

theorem keyBilerp_key (hmux : HighByteZero mux) : keyBilerp (c.key mux) = c.bilerp := by
  refine BitVec.eq_of_getLsbD_eq fun i hi => ?_
  rw [keyBilerp, BitVec.getLsbD_extractLsb', getLsbD_key hmux (by omega), if_neg (by omega),
    getLsbD_flags c (by omega)]
  interval_cases i <;> simp

/-- A program compiled for an update says what the state does. -/
theorem compile_fits (hmux : HighByteZero c.mux) :
    (CombinerProgram.compile (c.key c.updateMux)).Fits c := by
  have hhigh := updateMux_high hmux
  have hcycle := keyCycleType_key (c := c) hhigh
  refine ⟨?_, hcycle, keyBilerp_key hhigh, ?_, ?_⟩
  · unfold CombinerProgram.compile
    rw [hcycle, ofBits_key hhigh]
  · show keyIsRect (c.key c.updateMux) = c.rectMode
    rw [keyIsRect, getLsbD_key hhigh (by decide), if_neg (by decide), getLsbD_flags c (by decide)]
    rfl
  · show keyHwlSupported (c.key c.updateMux) = c.hwlSupported
    rw [keyHwlSupported, getLsbD_key hhigh (by decide), if_neg (by decide),
      getLsbD_flags c (by decide)]
    rfl

-- ════════════════════
-- The programs of a run
-- ════════════════════

/-- Every program is kept under its own key, and the current one is among them. -/
structure Kept (c : CombinerInfo) : Prop where
  compiled : ∀ key p, c.combiners.lookup key = some p → p = .compile key
  live : c.live.Perm (c.combiners.entries.map Sigma.snd)
  current : ∀ p, c.current = some (.combiner p) → c.combiners.lookup p.key = some p

/-- The shader stays where its key is the one that is looked for. -/
def KeepsShader (c : CombinerInfo) (mux : BitVec 64) : Prop :=
  c.current = some .shadowmap ∧ c.key mux = 0

theorem setCombine_of_found {p : CombinerProgram}
    (hother : c.current.map CurrentProgram.getKey ≠ some (c.key mux))
    (hfound : c.combiners.lookup (c.key mux) = some p) :
    c.setCombine mux = { c with current := some (.combiner p), changed := true } := by
  unfold setCombine
  rw [if_neg hother, hfound]

theorem setCombine_of_missing
    (hother : c.current.map CurrentProgram.getKey ≠ some (c.key mux))
    (hmissing : c.combiners.lookup (c.key mux) = none) :
    c.setCombine mux = { c with
      current := some (.combiner (.compile (c.key mux)))
      combiners := c.combiners.insert (c.key mux) (.compile (c.key mux))
      live := .compile (c.key mux) :: c.live
      changed := true } := by
  unfold setCombine
  rw [if_neg hother, hmissing]
  rfl

theorem Kept.setCombine (h : c.Kept) (mux : BitVec 64) : (c.setCombine mux).Kept := by
  by_cases hsame : c.current.map CurrentProgram.getKey = some (c.key mux)
  · unfold CombinerInfo.setCombine
    rw [if_pos hsame]
    exact ⟨h.compiled, h.live, h.current⟩
  cases hlookup : c.combiners.lookup (c.key mux) with
  | some p =>
    rw [setCombine_of_found hsame hlookup]
    refine ⟨h.compiled, h.live, ?_⟩
    rintro _ ⟨⟩
    obtain rfl := h.compiled _ _ hlookup
    exact hlookup
  | none =>
    rw [setCombine_of_missing hsame hlookup]
    have hnew : c.key mux ∉ c.combiners := AList.lookup_eq_none.mp hlookup
    refine ⟨fun key p hp => ?_, ?_, ?_⟩
    · by_cases hkey : key = c.key mux
      · subst hkey
        rw [AList.lookup_insert] at hp
        exact (Option.some_inj.mp hp).symm
      · rw [AList.lookup_insert_ne hkey] at hp
        exact h.compiled key p hp
    · rw [AList.entries_insert_of_notMem hnew, List.map_cons]
      exact h.live.cons _
    · rintro _ ⟨⟩
      exact AList.lookup_insert _

/-- The current program behind `setCombine`. -/
theorem Kept.setCombine_current (h : c.Kept) (hshader : ¬c.KeepsShader mux) :
    (c.setCombine mux).current = some (.combiner (.compile (c.key mux))) := by
  by_cases hsame : c.current.map CurrentProgram.getKey = some (c.key mux)
  · unfold CombinerInfo.setCombine
    rw [if_pos hsame]
    obtain ⟨program, hcurrent, hkey⟩ := Option.map_eq_some_iff.mp hsame
    cases program with
    | shadowmap => exact absurd ⟨hcurrent, hkey.symm⟩ hshader
    | combiner p =>
      have hp := h.compiled _ _ (h.current p hcurrent)
      have hkey' : p.key = c.key mux := hkey
      rw [← hkey', ← hp]
      exact hcurrent
  cases hlookup : c.combiners.lookup (c.key mux) with
  | some p => rw [setCombine_of_found hsame hlookup, h.compiled _ _ hlookup]
  | none => rw [setCombine_of_missing hsame hlookup]

theorem setCombine_of_keepsShader (hshader : c.KeepsShader mux) :
    (c.setCombine mux).current = some .shadowmap := by
  obtain ⟨hcurrent, hkey⟩ := hshader
  unfold setCombine
  rw [if_pos (by rw [hcurrent, hkey]; rfl)]
  exact hcurrent

theorem setCombine_mux (c : CombinerInfo) (mux : BitVec 64) : (c.setCombine mux).mux = c.mux := by
  unfold setCombine
  split
  · rfl
  · split <;> rfl

/-- **Updates** find the right program unless the shader stays. -/
theorem Kept.update_fits_iff (h : c.Kept) (hmux : HighByteZero c.mux) :
    (∃ p, c.update.current = some (.combiner p) ∧ p.Fits c) ↔ ¬c.KeepsShader c.updateMux := by
  constructor
  · rintro ⟨p, hcurrent, -⟩ hshader
    rw [CombinerInfo.update, setCombine_of_keepsShader hshader] at hcurrent
    cases hcurrent
  · exact fun hshader => ⟨_, h.setCombine_current hshader, compile_fits hmux⟩

/-- No key is compiled twice, the current program is not deleted, and `destroy` loses none. -/
structure Owned (c : CombinerInfo) : Prop where
  once : (c.live.map CombinerProgram.key).Nodup
  current : ∀ p, c.current = some (.combiner p) → p ∈ c.live
  destroyed : c.destroy.live = []

theorem Kept.destroy_live (h : c.Kept) : c.destroy.live = [] := by
  have hdiff := (h.live.diff_right (c.combiners.entries.map Sigma.snd)).length_eq
  have hself : (c.combiners.entries.map Sigma.snd ++ (c.combiners.entries.map Sigma.snd).diff
      (c.combiners.entries.map Sigma.snd)).Perm (c.combiners.entries.map Sigma.snd) :=
    List.subperm_append_diff_self_of_count_le fun _ _ => le_rfl
  have hlength := hself.length_eq
  rw [List.length_append, ← hdiff] at hlength
  exact List.eq_nil_of_length_eq_zero (Nat.add_eq_left.mp hlength)

theorem Kept.owned (h : c.Kept) : c.Owned where
  once := by
    have hkeys : (c.combiners.entries.map Sigma.snd).map CombinerProgram.key =
        c.combiners.entries.keys := by
      rw [List.map_map]
      refine List.map_congr_left fun entry hentry => ?_
      have hp := h.compiled _ _ (AList.mem_lookup_iff.mpr hentry)
      exact congrArg CombinerProgram.key hp
    rw [(h.live.map CombinerProgram.key).nodup_iff, hkeys]
    exact c.combiners.keys_nodup
  current p hp := by
    rw [h.live.mem_iff]
    exact List.mem_map_of_mem (AList.mem_lookup_iff.mp (h.current p hp))
  destroyed := h.destroy_live

/-- What every run keeps. -/
structure Sound (c : CombinerInfo) : Prop where
  mux : HighByteZero c.mux
  kept : c.Kept

theorem Sound.setCombine (h : c.Sound) (mux : BitVec 64) : (c.setCombine mux).Sound :=
  ⟨by rw [setCombine_mux]; exact h.mux, h.kept.setCombine mux⟩

/-- `Combiner_Init` starts without a current program, and compiles at most two. -/
theorem Sound.init (h : c.Sound) (depthFogShader : Bool) : (c.init depthFogShader).Sound := by
  have hstarted : Sound { c with current := none } := ⟨h.mux, h.kept.compiled, h.kept.live, nofun⟩
  have hdrawn : ∀ {c : CombinerInfo}, c.Sound → ∀ rectMode cycleType,
      Sound { c with rectMode, cycleType } := fun h _ _ =>
    ⟨h.mux, h.kept.compiled, h.kept.live, h.kept.current⟩
  have hset : ∀ {c : CombinerInfo}, c.Sound →
      Sound { c with shadowmapProgram := depthFogShader, cycleType := 0 } := fun h =>
    ⟨h.mux, h.kept.compiled, h.kept.live, h.kept.current⟩
  refine hset ?_
  split
  · exact (hdrawn ((hdrawn hstarted true 2).setCombine _) _ 3).setCombine _
  · exact hstarted

theorem Sound.call (h : c.Sound) (call : CombinerCall) : (c.call call).Sound := by
  obtain ⟨hmux, hkept⟩ := h
  cases call with
  | setCombineMode w0 w1 =>
    exact ⟨setCombineMode_high w0 w1, hkept.compiled, hkept.live, hkept.current⟩
  | setDrawState | setPolygonMode => exact ⟨hmux, hkept.compiled, hkept.live, hkept.current⟩
  | setDepthFogCombiner =>
    show c.setDepthFogCombiner.Sound
    unfold CombinerInfo.setDepthFogCombiner
    split
    · exact ⟨hmux, hkept.compiled, hkept.live, nofun⟩
    · exact ⟨hmux, hkept⟩
  | update => exact Sound.setCombine ⟨hmux, hkept⟩ c.updateMux
  | init depthFogShader => exact Sound.init ⟨hmux, hkept⟩ depthFogShader
  | destroy =>
    refine ⟨hmux, nofun, ?_, nofun⟩
    show c.destroy.live.Perm []
    rw [hkept.destroy_live]

theorem sound_start : Sound {} where
  mux _ _ := BitVec.getLsbD_zero
  kept := ⟨nofun, List.Perm.nil, nofun⟩

end CombinerInfo

/-- Behind calls from the constructor on. -/
def CombinerInfo.after (calls : List CombinerCall) : CombinerInfo :=
  Runs.runFrom CombinerInfo.call {} calls

/-- **Combiner programs**: an update finds the program of the muxes and the drawing state, unless
the depth fog shader is current and the key is empty; no run compiles a key twice, deletes the
current program or loses one. -/
theorem combinerCache_sound (calls : List CombinerCall) :
    ((∃ p, (CombinerInfo.after calls).update.current = some (.combiner p) ∧
        p.Fits (CombinerInfo.after calls)) ↔
      ¬(CombinerInfo.after calls).KeepsShader (CombinerInfo.after calls).updateMux) ∧
    (CombinerInfo.after calls).Owned := by
  have hsound : (CombinerInfo.after calls).Sound := Runs.invariant_end (I := CombinerInfo.Sound)
    (fun _ call h => h.call call) CombinerInfo.sound_start
  exact ⟨hsound.kept.update_fits_iff hsound.mux, hsound.kept.owned⟩

/-- Triangles of one cycle with a mux of zeros are drawn by the depth fog shader. -/
example : (CombinerInfo.after
    [.init true, .setDepthFogCombiner, .setPolygonMode false, .update]).current =
      some .shadowmap := by
  decide

end Mupen64plus
