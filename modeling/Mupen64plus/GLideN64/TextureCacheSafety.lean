import Mathlib.Algebra.BigOperators.Group.List.Basic
import Mathlib.Data.List.Induction
import Mupen64plus.Lib.Runs
import Mupen64plus.GLideN64.TextureCache

/-!
# The texture cache stays whole

The list, the table, the count of the HD bytes and the textures of GL go together on every path. The
two pointers do not: nothing keeps the entry one of them points at, nor the one that is being
loaded, from being the one that has to go.

## Main definitions

- `TextureCache.Sound` — what is to hold of the cache
- `TextureCache.Pinned` — the pointer that a call does not set points at the entry
- `TextureOp.Fine` — the entries a call takes out are not pinned, and a loaded texture stays

## Main results

- `checkHdTexLimit_spec` — which entries the limit leaves
- `textureCache_sound_iff` — the cache is whole in a run exactly when each call is fine
- `textureCache_not_sound` — a texture that is larger than the limit is gone when it is activated
-/

namespace Mupen64plus

namespace TextureCache

variable {maxTxCacheSize txHiresVramLimit : BitVec 32} {s t : TextureCache} {i j : ℕ}

/-- The HD bytes of an entry. -/
def hdBytesOf (l : NodeList CachedTexture) (i : ℕ) : ℕ :=
  if (l.node i).bHDTexture then (l.node i).textureBytes.toNat else 0

/-- The HD bytes of some entries. -/
def hdBytes (l : NodeList CachedTexture) (is : List ℕ) : ℕ := (is.map (hdBytesOf l)).sum

/-- The entries from the front up to one. -/
def upTo (order : List ℕ) (i : ℕ) : List ℕ := order.takeWhile (· ≠ i) ++ [i]

structure Sound (maxTxCacheSize : BitVec 32) (s : TextureCache) : Prop where
  locations : ∀ crc i, s.locations crc = some i ↔
    i ∈ s.textures.order ∧ (s.textures.node i).crc = crc
  size : s.textures.order.length ≤ maxTxCacheSize.toNat
  hdSize : s.hdTexCacheSize.toNat = hdBytes s.textures s.textures.order
  names : ∀ i ∈ s.textures.order, ∀ j ∈ s.textures.order,
    (s.textures.node i).name = (s.textures.node j).name → i = j
  deletedOnce : s.deleted.Nodup
  deleted : ∀ name, name ∈ s.deleted ↔
    name < s.created ∧ ∀ i ∈ s.textures.order, (s.textures.node i).name ≠ name
  current : ∀ t i, s.current t = some (.entry i) → i ∈ s.textures.order

/-! ### The condition -/

/-- The pointer other than `current[t]` points at the entry. -/
def Pinned (s : TextureCache) (t : Fin 2) (i : ℕ) : Prop := ∃ u ≠ t, s.current u = some (.entry i)

instance decidablePinned (t : Fin 2) : Decidable (s.Pinned t i) :=
  inferInstanceAs (Decidable (∃ u : Fin 2, u ≠ t ∧ s.current u = some (.entry i)))

/-- An HD texture of some bytes is loaded with these entries behind it: it is below the limit, and
    so is each pinned HD entry with all that lies in front of it. -/
def LimitFine (txHiresVramLimit : BitVec 32) (t : Fin 2) (bytes : BitVec 32) (s : TextureCache) :
    Prop :=
  let maxCacheSize := (maxHdCacheSize txHiresVramLimit).toNat
  maxCacheSize ≠ 0 → bytes.toNat < maxCacheSize ∧
    ∀ i ∈ s.textures.order, s.Pinned t i → (s.textures.node i).bHDTexture = true →
      bytes.toNat + hdBytes s.textures (upTo s.textures.order i) < maxCacheSize

/-- A texture is added: the cache may hold one, the last entry of a full list is not pinned, and the
    limit takes out no entry that is. -/
def MissFine (maxTxCacheSize txHiresVramLimit : BitVec 32) (t : Fin 2) (loaded : LoadedTexture)
    (s : TextureCache) : Prop :=
  maxTxCacheSize ≠ 0 ∧
    (maxTxCacheSize.toNat ≤ s.textures.order.length →
      ∀ i ∈ s.textures.order.getLast?, ¬s.Pinned t i) ∧
    ∀ info ∈ loaded.hd,
      LimitFine txHiresVramLimit t info.textureBytes (s.checkCacheSize maxTxCacheSize)

def FindFine (maxTxCacheSize txHiresVramLimit : BitVec 32) (t : Fin 2) (tile : TileUpdate)
    (s : TextureCache) : Prop :=
  (s.current t).map s.crcOf ≠ some tile.crc →
    match s.locations tile.crc with
    | none => s.MissFine maxTxCacheSize txHiresVramLimit t tile.loaded
    | some i =>
      let texture := s.textures.node i
      ¬(texture.width.setWidth 32 = tile.width ∧ texture.height.setWidth 32 = tile.height) →
        ¬s.Pinned t i ∧
          (s.removeTexture i).MissFine maxTxCacheSize txHiresVramLimit t tile.loaded

end TextureCache

namespace TextureOp

open TextureCache

def Fine (maxTxCacheSize txHiresVramLimit : BitVec 32) (s : TextureCache) : TextureOp → Prop
  | .update t tile =>
    if t = 1 ∧ tile.replaceTex1ByTex0 then
      s.current 0 = none →
        { s with current := Function.update s.current 1 none }.FindFine maxTxCacheSize
          txHiresVramLimit t tile
    else s.FindFine maxTxCacheSize txHiresVramLimit t tile
  | .updateBackground bg =>
    s.locations bg.crc = none → s.MissFine maxTxCacheSize txHiresVramLimit 0 bg.loaded
  | .activateFrameBuffer .. | .clear => True

end TextureOp

namespace TextureCache

variable {maxTxCacheSize txHiresVramLimit : BitVec 32} {s t : TextureCache} {i j : ℕ}

/-! ### What goes together -/

/-- All that is to hold but the size of the list and the pointers. The texture of an entry has the
    name that counts the entries. -/
structure Core (s : TextureCache) : Prop where
  wellFormed : s.textures.WellFormed
  locations : ∀ crc i, s.locations crc = some i ↔
    i ∈ s.textures.order ∧ (s.textures.node i).crc = crc
  hdSize : s.hdTexCacheSize.toNat = hdBytes s.textures s.textures.order
  created : s.created = s.textures.next
  name : ∀ i < s.textures.next, (s.textures.node i).name = i
  deletedOnce : s.deleted.Nodup
  deleted : ∀ i, i ∈ s.deleted ↔ i < s.textures.next ∧ i ∉ s.textures.order

structure Inv (maxTxCacheSize : BitVec 32) (s : TextureCache) : Prop extends s.Core where
  size : s.textures.order.length ≤ maxTxCacheSize.toNat
  current : ∀ t i, s.current t = some (.entry i) → i ∈ s.textures.order

theorem Inv.sound (h : s.Inv maxTxCacheSize) : s.Sound maxTxCacheSize where
  locations := h.locations
  size := h.size
  hdSize := h.hdSize
  names := by
    intro i hi j hj heq
    rwa [h.name i (h.wellFormed.fresh i hi), h.name j (h.wellFormed.fresh j hj)] at heq
  deletedOnce := h.deletedOnce
  deleted := by
    intro n
    rw [h.deleted, h.created]
    refine and_congr_right fun hn => ⟨?_, ?_⟩
    · intro hout i hi heq
      rw [h.name i (h.wellFormed.fresh i hi)] at heq
      exact hout (heq ▸ hi)
    · intro hne hin
      exact hne n hin (h.name n hn)
  current := h.current

theorem inv_empty : empty.Inv maxTxCacheSize where
  wellFormed := ⟨List.nodup_nil, fun _ hi => absurd hi List.not_mem_nil⟩
  locations := fun _ _ => ⟨fun h => (by cases h), fun h => absurd h.1 List.not_mem_nil⟩
  hdSize := rfl
  created := rfl
  name := fun _ hi => absurd hi (Nat.not_lt_zero _)
  deletedOnce := List.nodup_nil
  deleted := fun _ => ⟨fun h => absurd h List.not_mem_nil, fun h => absurd h.1 (Nat.not_lt_zero _)⟩
  size := Nat.zero_le _
  current := fun _ _ h => by cases h

/-! ### HD bytes -/

theorem hdBytes_cons (l : NodeList CachedTexture) (i : ℕ) (is : List ℕ) :
    hdBytes l (i :: is) = hdBytesOf l i + hdBytes l is := by
  rw [hdBytes, List.map_cons, List.sum_cons, hdBytes]

theorem hdBytes_append (l : NodeList CachedTexture) (is js : List ℕ) :
    hdBytes l (is ++ js) = hdBytes l is + hdBytes l js := by
  rw [hdBytes, List.map_append, List.sum_append, hdBytes, hdBytes]

theorem hdBytes_perm {l : NodeList CachedTexture} {is js : List ℕ} (h : is.Perm js) :
    hdBytes l is = hdBytes l js :=
  (h.map _).sum_eq

theorem hdBytes_congr {l l' : NodeList CachedTexture} {is : List ℕ}
    (h : ∀ i ∈ is, l.node i = l'.node i) : hdBytes l is = hdBytes l' is := by
  rw [hdBytes, hdBytes]
  congr 1
  exact List.map_congr_left fun i hi => by rw [hdBytesOf, hdBytesOf, h i hi]

theorem hdBytes_eq_zero {l : NodeList CachedTexture} {is : List ℕ}
    (h : ∀ i ∈ is, (l.node i).bHDTexture = false) : hdBytes l is = 0 := by
  refine List.sum_eq_zero fun n hn => ?_
  obtain ⟨i, hi, rfl⟩ := List.mem_map.mp hn
  rw [hdBytesOf, h i hi]
  rfl

/-- Each entry has fewer bytes than a word counts. -/
theorem hdBytes_le (l : NodeList CachedTexture) (is : List ℕ) :
    hdBytes l is ≤ is.length * (2 ^ 32 - 1) := by
  induction is with
  | nil => exact Nat.zero_le _
  | cons i is ih =>
    have hlt := (l.node i).textureBytes.isLt
    have hone : hdBytesOf l i ≤ 2 ^ 32 - 1 := by
      unfold hdBytesOf
      split <;> omega
    rw [hdBytes_cons, List.length_cons]
    omega

theorem toNat_word64 (w : BitVec 32) : (w.setWidth 64).toNat = w.toNat := by
  rw [BitVec.toNat_setWidth]
  exact Nat.mod_eq_of_lt (by have := w.isLt; omega)

/-! ### Entries that go -/

/-- **An entry leaves the list** -/
theorem Core.removeTexture (h : s.Core) (hi : i ∈ s.textures.order) : (s.removeTexture i).Core := by
  have hwf := h.wellFormed
  have hbytes : hdBytes s.textures s.textures.order =
      hdBytesOf s.textures i + hdBytes s.textures (s.textures.order.erase i) := by
    rw [← hdBytes_cons]
    exact hdBytes_perm (List.perm_cons_erase hi)
  refine ⟨hwf.erase, ?_, ?_, h.created, h.name, ?_, ?_⟩
  · intro crc j
    change Function.update s.locations (s.textures.node i).crc none crc = some j ↔
      j ∈ (s.textures.erase i).order ∧ (s.textures.node j).crc = crc
    rw [hwf.mem_erase]
    by_cases hcrc : crc = (s.textures.node i).crc
    · subst hcrc
      rw [Function.update_self]
      refine ⟨fun hnone => (by cases hnone), ?_⟩
      rintro ⟨⟨hji, hj⟩, hsame⟩
      have hown := (h.locations _ i).mpr ⟨hi, rfl⟩
      have hother := (h.locations _ j).mpr ⟨hj, hsame⟩
      exact absurd (Option.some.inj (hother.symm.trans hown)) hji
    · rw [Function.update_of_ne hcrc, h.locations]
      refine ⟨?_, fun hj => ⟨hj.1.2, hj.2⟩⟩
      rintro ⟨hj, rfl⟩
      exact ⟨⟨fun hji => hcrc (by rw [hji]), hj⟩, rfl⟩
  · have hsize := h.hdSize
    unfold TextureCache.removeTexture
    dsimp only
    change _ = hdBytes s.textures (s.textures.order.erase i)
    split
    · next hhd =>
      rw [hdBytesOf, if_pos hhd] at hbytes
      have hword := toNat_word64 (s.textures.node i).textureBytes
      rw [BitVec.toNat_sub_of_le (by rw [BitVec.le_def]; omega)]
      omega
    · next hhd =>
      rw [hdBytesOf, if_neg hhd] at hbytes
      omega
  · refine List.nodup_cons.mpr ⟨?_, h.deletedOnce⟩
    rw [h.name i (hwf.fresh i hi), h.deleted]
    exact fun hgone => hgone.2 hi
  · intro n
    change n ∈ (s.textures.node i).name :: s.deleted ↔
      n < s.textures.next ∧ n ∉ (s.textures.erase i).order
    rw [List.mem_cons, h.name i (hwf.fresh i hi), h.deleted, hwf.mem_erase]
    constructor
    · rintro (rfl | ⟨hlt, hout⟩)
      · exact ⟨hwf.fresh _ hi, fun hin => hin.1 rfl⟩
      · exact ⟨hlt, fun hin => hout hin.2⟩
    · rintro ⟨hlt, hout⟩
      by_cases hn : n = i
      · exact Or.inl hn
      · exact Or.inr ⟨hlt, fun hin => hout ⟨hn, hin⟩⟩

/-! ### The limit of the HD textures -/

theorem upTo_append_cons {f : List ℕ} (hi : i ∉ f) (b : List ℕ) :
    upTo (f ++ i :: b) i = f ++ [i] := by
  have hall : ∀ j ∈ f, decide (j ≠ i) = true := by
    intro j hj
    rw [decide_eq_true_iff]
    rintro rfl
    exact hi hj
  rw [upTo, List.takeWhile_append_of_pos hall, List.takeWhile_cons_of_neg (by simp),
    List.append_nil]

theorem upTo_append {f : List ℕ} (hi : i ∈ f) (b : List ℕ) : upTo (f ++ b) i = upTo f i := by
  obtain ⟨f₁, f₂, rfl, hnot⟩ := List.eq_append_cons_of_mem hi
  rw [List.append_assoc, List.cons_append, upTo_append_cons hnot, upTo_append_cons hnot]

theorem hdBytes_upTo_le (l : NodeList CachedTexture) {is : List ℕ} (hi : i ∈ is) :
    hdBytes l (upTo is i) ≤ hdBytes l is := by
  obtain ⟨f, b, rfl, hnot⟩ := List.eq_append_cons_of_mem hi
  rw [upTo_append_cons hnot, hdBytes_append, hdBytes_append, hdBytes_cons, hdBytes_cons]
  exact Nat.add_le_add_left (Nat.add_le_add_left (Nat.zero_le _) _) _

/-- What the limit leaves: the HD entries that are below it with all in front of them. -/
structure Limited (limit : ℕ) (s t : TextureCache) : Prop where
  core : t.Core
  current : t.current = s.current
  sublist : t.textures.order.Sublist s.textures.order
  mem : ∀ i ∈ s.textures.order, i ∈ t.textures.order ↔
    ((s.textures.node i).bHDTexture = true → hdBytes s.textures (upTo s.textures.order i) < limit)

/-- With `back` the entries that the loop has left, from the back of the list on. -/
theorem checkHdTexLimitLoop_spec (limit : BitVec 64) {front back : List ℕ} (h : s.Core)
    (horder : s.textures.order = front ++ back)
    (hback : ∀ i ∈ back, (s.textures.node i).bHDTexture = false) :
    Limited limit.toNat s (checkHdTexLimitLoop limit front.length s) := by
  induction front using List.reverseRecOn generalizing s back with
  | nil =>
    refine ⟨h, rfl, .refl _, fun i hi => ⟨fun _ hhd => ?_, fun _ => hi⟩⟩
    rw [horder] at hi
    rw [hback i hi] at hhd
    cases hhd
  | append_singleton front i ih =>
    have hi : i ∈ s.textures.order := by
      rw [horder]
      simp
    have hget : s.textures.order[front.length]? = some i := by
      rw [horder, List.append_assoc, List.getElem?_append_right (Nat.le_refl _), Nat.sub_self]
      rfl
    rw [List.length_append, List.length_singleton, checkHdTexLimitLoop]
    split
    · next hbelow =>
      -- the count is below the limit, and with it that of each part of the list
      refine ⟨h, rfl, .refl _, fun j hj => ⟨fun _ _ => ?_, fun _ => hj⟩⟩
      have hle := hdBytes_upTo_le s.textures hj
      rw [BitVec.lt_def, h.hdSize] at hbelow
      omega
    · next habove =>
      simp only [hget]
      split
      · next hhd =>
        have hnodup := h.wellFormed.nodup
        rw [horder, List.append_assoc, List.singleton_append] at hnodup
        have hout : i ∉ front := fun hin =>
          List.disjoint_of_nodup_append hnodup hin List.mem_cons_self
        have hrest : (s.removeTexture i).textures.order = front ++ back := by
          change s.textures.order.erase i = _
          rw [horder, List.append_assoc, List.singleton_append, List.erase_append_right _ hout,
            List.erase_cons_head]
        have hlimited := ih (h.removeTexture hi) hrest hback
        refine ⟨hlimited.core, hlimited.current, hlimited.sublist.trans (List.erase_sublist), ?_⟩
        intro j hj
        by_cases hji : j = i
        · subst hji
          have hgone : j ∉ (checkHdTexLimitLoop limit front.length
              (s.removeTexture j)).textures.order := fun hin =>
            (h.wellFormed.mem_erase.mp (hlimited.sublist.subset hin)).1 rfl
          refine ⟨fun hin => absurd hin hgone, fun hbelow => absurd (hbelow hhd) ?_⟩
          rw [BitVec.lt_def, h.hdSize, horder, hdBytes_append, hdBytes_eq_zero hback,
            Nat.add_zero] at habove
          rwa [horder, List.append_assoc, List.singleton_append, upTo_append_cons hout]
        · rw [hlimited.mem j (h.wellFormed.mem_erase.mpr ⟨hji, hj⟩)]
          refine forall_congr' fun hjhd => ?_
          have hfront : j ∈ front := by
            rw [horder, List.append_assoc, List.singleton_append] at hj
            rcases List.mem_append.mp hj with hin | hin
            · exact hin
            · rcases List.mem_cons.mp hin with rfl | hin
              · exact absurd rfl hji
              · have hplain := hback j hin
                exact absurd (hjhd.symm.trans hplain) Bool.true_eq_false.mp
          rw [hrest, horder, List.append_assoc, upTo_append hfront, upTo_append hfront]
          rfl
      · next hplain =>
        refine ih h (by rw [horder, List.append_assoc, List.singleton_append]) ?_
        intro j hj
        rcases List.mem_cons.mp hj with rfl | hj
        · exact (Bool.not_eq_true _).mp hplain
        · exact hback j hj

/-- **The limit** takes out of a list what is over it, from the back. -/
theorem checkHdTexLimit_spec (h : s.Core) (hlimit : maxHdCacheSize txHiresVramLimit ≠ 0) :
    Limited (maxHdCacheSize txHiresVramLimit).toNat s (s.checkHdTexLimit txHiresVramLimit) := by
  rw [checkHdTexLimit, if_neg hlimit]
  exact checkHdTexLimitLoop_spec _ h (List.append_nil _).symm
    fun _ hi => absurd hi List.not_mem_nil

/-! ### Entries that come in -/

/-- The key is free where no entry has it. -/
theorem Core.free_iff (h : s.Core) {crc : BitVec 64} :
    s.locations crc = none ↔ ∀ i ∈ s.textures.order, (s.textures.node i).crc ≠ crc := by
  rw [Option.eq_none_iff_forall_ne_some]
  refine forall_congr' fun i => ?_
  rw [Ne, h.locations, not_and]

/-- What `_checkCacheSize` comes to: all entries, but the last of a full list. -/
structure Popped (maxTxCacheSize : BitVec 32) (s t : TextureCache) : Prop where
  core : t.Core
  current : t.current = s.current
  node : t.textures.node = s.textures.node
  next : t.textures.next = s.textures.next
  sublist : t.textures.order.Sublist s.textures.order
  mem : ∀ i ∈ s.textures.order, i ∈ t.textures.order ↔
    (maxTxCacheSize.toNat ≤ s.textures.order.length → i ∉ s.textures.order.getLast?)
  length : s.textures.order.length ≤ maxTxCacheSize.toNat → maxTxCacheSize ≠ 0 →
    t.textures.order.length + 1 ≤ maxTxCacheSize.toNat

theorem Core.checkCacheSize (h : s.Core) :
    Popped maxTxCacheSize s (s.checkCacheSize maxTxCacheSize) := by
  have hmax : maxTxCacheSize ≠ 0 → maxTxCacheSize.toNat ≠ 0 :=
    fun hne hzero => hne (BitVec.eq_of_toNat_eq hzero)
  unfold TextureCache.checkCacheSize
  split
  · next hfull =>
    split
    · next hnone =>
      rw [List.getLast?_eq_none_iff] at hnone
      refine ⟨h, rfl, rfl, rfl, .refl _, fun i hi => ?_, fun _ hne => ?_⟩
      · rw [hnone] at hi
        exact absurd hi List.not_mem_nil
      · have hpos := hmax hne
        rw [hnone, List.length_nil] at hfull ⊢
        omega
    · next i hlast =>
      have hi := List.mem_of_getLast? hlast
      refine ⟨h.removeTexture hi, rfl, rfl, rfl, List.erase_sublist, fun j hj => ?_,
        fun hle hne => ?_⟩
      · rw [show j ∈ (s.removeTexture i).textures.order ↔ j ≠ i ∧ j ∈ s.textures.order from
          h.wellFormed.mem_erase, hlast, Option.mem_some_iff]
        exact ⟨fun hin _ heq => hin.1 heq.symm, fun hne => ⟨fun heq => hne hfull heq.symm, hj⟩⟩
      · change (s.textures.order.erase i).length + 1 ≤ _
        have hpos := List.length_pos_of_mem hi
        rw [List.length_erase_of_mem hi]
        omega
  · next hroom =>
    refine ⟨h, rfl, rfl, rfl, .refl _, fun i hi => ⟨fun _ hfull => ?_, fun _ => hi⟩, fun _ _ => ?_⟩
    · exact absurd hfull hroom
    · omega

/-- **An entry comes in**: the new one, which is not an HD texture yet. -/
theorem Core.add (h : s.Core) {crc : BitVec 64} (hfree : s.locations crc = none)
    (width height : BitVec 16) :
    Core { s with
      textures := s.textures.emplaceFront ⟨s.created, crc, 0, width, height, false⟩
      locations := Function.update s.locations crc (some s.textures.next)
      created := s.created + 1 } := by
  have hwf := h.wellFormed
  have hnew := NodeList.node_emplaceFront_self (l := s.textures)
    (⟨s.created, crc, 0, width, height, false⟩ : CachedTexture)
  have hold : ∀ i, i ≠ s.textures.next → (s.textures.emplaceFront
      (⟨s.created, crc, 0, width, height, false⟩ : CachedTexture)).node i = s.textures.node i :=
    fun i hi => NodeList.node_emplaceFront _ hi
  refine ⟨hwf.emplaceFront _, ?_, ?_, congrArg (· + 1) h.created, ?_, h.deletedOnce, ?_⟩
  · intro crc' i
    dsimp only
    rw [NodeList.order_emplaceFront, List.mem_cons]
    by_cases hcrc : crc' = crc
    · subst hcrc
      rw [Function.update_self, Option.some.injEq]
      constructor
      · rintro rfl
        exact ⟨Or.inl rfl, by rw [hnew]⟩
      · rintro ⟨rfl | hi, hsame⟩
        · rfl
        · rw [hold i (hwf.ne_next hi)] at hsame
          exact absurd hsame (h.free_iff.mp hfree i hi)
    · rw [Function.update_of_ne hcrc, h.locations]
      constructor
      · rintro ⟨hi, hsame⟩
        exact ⟨Or.inr hi, by rw [hold i (hwf.ne_next hi), hsame]⟩
      · rintro ⟨rfl | hi, hsame⟩
        · rw [hnew] at hsame
          exact absurd hsame.symm hcrc
        · exact ⟨hi, by rw [← hsame, hold i (hwf.ne_next hi)]⟩
  · dsimp only
    rw [NodeList.order_emplaceFront, hdBytes_cons, hdBytesOf, hnew, h.hdSize,
      hdBytes_congr fun i hi => hold i (hwf.ne_next hi)]
    exact (Nat.zero_add _).symm
  · intro i hi
    dsimp only at hi ⊢
    by_cases hin : i = s.textures.next
    · subst hin
      rw [hnew, h.created]
    · rw [hold i hin]
      exact h.name i (by change i < s.textures.next + 1 at hi; omega)
  · intro n
    change n ∈ s.deleted ↔ n < s.textures.next + 1 ∧ n ∉ s.textures.next :: s.textures.order
    rw [h.deleted, List.mem_cons, not_or]
    constructor
    · rintro ⟨hlt, hout⟩
      exact ⟨by omega, by omega, hout⟩
    · rintro ⟨hlt, hne, hout⟩
      exact ⟨by omega, hout⟩

/-- A texture of an entry is changed, with the count of the HD bytes. -/
theorem Core.modify (h : s.Core) {f : CachedTexture → CachedTexture} {size : BitVec 64}
    (hcrc : (f (s.textures.node i)).crc = (s.textures.node i).crc)
    (hname : (f (s.textures.node i)).name = (s.textures.node i).name)
    (hsize : size.toNat = hdBytes (s.textures.modify i f) s.textures.order) :
    Core { s with textures := s.textures.modify i f, hdTexCacheSize := size } := by
  have hcrcs : ∀ j, ((s.textures.modify i f).node j).crc = (s.textures.node j).crc := by
    intro j
    by_cases hj : j = i
    · subst hj
      rw [NodeList.node_modify_self, hcrc]
    · rw [NodeList.node_modify_of_ne _ hj]
  refine ⟨h.wellFormed.modify f, ?_, hsize, h.created, ?_, h.deletedOnce, h.deleted⟩
  · intro crc j
    dsimp only
    rw [hcrcs]
    exact h.locations crc j
  · intro j hj
    by_cases hji : j = i
    · subst hji
      dsimp only
      rw [NodeList.node_modify_self, hname]
      exact h.name j hj
    · dsimp only
      rw [NodeList.node_modify_of_ne _ hji]
      exact h.name j hj

/-- The HD bytes of a list whose first entry is changed. -/
theorem hdBytes_modify (l : NodeList CachedTexture) (f : CachedTexture → CachedTexture)
    {is : List ℕ} (hi : i ∉ is) :
    hdBytes (l.modify i f) (i :: is) =
      (if (f (l.node i)).bHDTexture then (f (l.node i)).textureBytes.toNat else 0) +
        hdBytes l is := by
  have hrest : hdBytes (l.modify i f) is = hdBytes l is :=
    hdBytes_congr fun j hj => NodeList.node_modify_of_ne f fun hji => hi (hji ▸ hj)
  rw [hdBytes_cons, hrest, hdBytesOf, NodeList.node_modify_self]

theorem upTo_cons {is : List ℕ} (h : i ≠ j) : upTo (i :: is) j = i :: upTo is j := by
  rw [upTo, List.takeWhile_cons_of_pos (by simpa using h), List.cons_append, upTo]

theorem upTo_self (is : List ℕ) : upTo (i :: is) i = [i] :=
  upTo_append_cons List.not_mem_nil is

theorem mem_upTo {is : List ℕ} (hi : i ∈ is) (hj : j ∈ upTo is i) : j ∈ is := by
  rcases List.mem_append.mp hj with hin | hin
  · exact (List.takeWhile_sublist _).subset hin
  · rw [List.mem_singleton.mp hin]
    exact hi

/-- An entry in front of others is loaded as an HD texture. -/
theorem Core.setHdTexture (h : s.Core) {is : List ℕ} (horder : s.textures.order = i :: is)
    (hplain : (s.textures.node i).bHDTexture = false) (hlength : is.length < 2 ^ 32)
    (info : HdInfo) :
    (s.setHdTexture i info).Core ∧ hdBytes (s.setHdTexture i info).textures (i :: is) =
      info.textureBytes.toNat + hdBytes s.textures is := by
  have hout : i ∉ is := by
    have hnodup := h.wellFormed.nodup
    rw [horder] at hnodup
    exact (List.nodup_cons.mp hnodup).1
  have hbytes : hdBytes (s.setHdTexture i info).textures (i :: is) =
      info.textureBytes.toNat + hdBytes s.textures is :=
    hdBytes_modify s.textures (fun texture =>
      { texture with textureBytes := info.textureBytes, bHDTexture := true }) hout
  refine ⟨h.modify rfl rfl ?_, hbytes⟩
  have hsize := h.hdSize
  rw [horder, hdBytes_cons, hdBytesOf, hplain] at hsize
  have hword := toNat_word64 info.textureBytes
  have hlt := info.textureBytes.isLt
  have hle := hdBytes_le s.textures is
  have hmul := Nat.mul_le_mul_right (2 ^ 32 - 1) (Nat.le_of_lt_succ hlength)
  rw [BitVec.toNat_add, hword, horder]
  refine Eq.trans ?_ hbytes.symm
  simp only [Bool.false_eq_true, if_false, Nat.zero_add] at hsize
  rw [hsize, Nat.mod_eq_of_lt (by omega), Nat.add_comm]

/-- What loading the first entry, with the others behind it, comes to. -/
structure Loads (limit : ℕ) (loaded : LoadedTexture) (new : ℕ) (rest : List ℕ)
    (s t : TextureCache) : Prop where
  core : t.Core
  current : t.current = s.current
  sublist : t.textures.order.Sublist (new :: rest)
  new : new ∈ t.textures.order ↔
    ∀ info ∈ loaded.hd, limit ≠ 0 → info.textureBytes.toNat < limit
  old : ∀ i ∈ rest, i ∈ t.textures.order ↔
    ∀ info ∈ loaded.hd, limit ≠ 0 → (s.textures.node i).bHDTexture = true →
      info.textureBytes.toNat + hdBytes s.textures (upTo rest i) < limit

theorem Core.loadTexture (txHiresVramLimit : BitVec 32) (h : s.Core) {rest : List ℕ}
    (horder : s.textures.order = i :: rest)
    (hplain : (s.textures.node i).bHDTexture = false) (hlength : rest.length < 2 ^ 32)
    (loaded : LoadedTexture) :
    Loads (maxHdCacheSize txHiresVramLimit).toNat loaded i rest s
      (s.loadTexture txHiresVramLimit i loaded) := by
  have hout : i ∉ rest := by
    have hnodup := h.wellFormed.nodup
    rw [horder] at hnodup
    exact (List.nodup_cons.mp hnodup).1
  have hne : ∀ j ∈ rest, j ≠ i := fun j hj hji => hout (hji ▸ hj)
  obtain ⟨textureBytes, hd⟩ := loaded
  unfold TextureCache.loadTexture
  cases hd with
  | none =>
    have hbytes := hdBytes_modify s.textures
      (fun texture => { texture with textureBytes := textureBytes }) hout
    have hsize := h.hdSize
    rw [horder, hdBytes_cons, hdBytesOf, hplain] at hsize
    simp only [hplain] at hbytes
    refine ⟨h.modify rfl rfl ?_, rfl, ?_, ?_, ?_⟩
    · rw [horder, hbytes, hsize]
      rfl
    · exact (List.Sublist.refl _).trans (horder ▸ List.Sublist.refl _)
    · refine ⟨fun _ info hinfo => ?_, fun _ => ?_⟩
      · cases hinfo
      · exact horder ▸ List.mem_cons_self
    · refine fun j hj => ⟨fun _ info hinfo => ?_, fun _ => ?_⟩
      · cases hinfo
      · exact horder ▸ List.mem_cons_of_mem _ hj
  | some info =>
    obtain ⟨hcore, -⟩ := h.setHdTexture horder hplain hlength info
    have horder' : (s.setHdTexture i info).textures.order = i :: rest := horder
    have hnode : ∀ j ∈ rest, (s.setHdTexture i info).textures.node j = s.textures.node j :=
      fun j hj => by rw [TextureCache.setHdTexture, NodeList.node_modify_of_ne _ (hne j hj)]
    have hself : hdBytesOf (s.setHdTexture i info).textures i = info.textureBytes.toNat := by
      rw [hdBytesOf, TextureCache.setHdTexture, NodeList.node_modify_self]
      rfl
    dsimp only
    by_cases hlimit : maxHdCacheSize txHiresVramLimit = 0
    · have hzero : (maxHdCacheSize txHiresVramLimit).toNat = 0 := by rw [hlimit]; rfl
      rw [checkHdTexLimit, if_pos hlimit, hzero]
      refine ⟨hcore, rfl, horder' ▸ .refl _, ?_, ?_⟩
      · exact ⟨fun _ _ _ hne => absurd rfl hne, fun _ => horder' ▸ List.mem_cons_self⟩
      · exact fun j hj =>
          ⟨fun _ _ _ hne => absurd rfl hne, fun _ => horder' ▸ List.mem_cons_of_mem _ hj⟩
    · have hpos : (maxHdCacheSize txHiresVramLimit).toNat ≠ 0 :=
        fun hzero => hlimit (BitVec.eq_of_toNat_eq hzero)
      have hlimited := checkHdTexLimit_spec hcore hlimit
      refine ⟨hlimited.core, hlimited.current, horder' ▸ hlimited.sublist, ?_, ?_⟩
      · rw [hlimited.mem i (horder' ▸ List.mem_cons_self), horder', upTo_self, hdBytes_cons, hself]
        have hset : ((s.setHdTexture i info).textures.node i).bHDTexture = true := by
          rw [TextureCache.setHdTexture, NodeList.node_modify_self]
        constructor
        · rintro hbelow _ ⟨⟩ -
          exact Nat.lt_of_le_of_lt (Nat.le_add_right _ _) (hbelow hset)
        · exact fun hbelow _ => hbelow info rfl hpos
      · intro j hj
        rw [hlimited.mem j (horder' ▸ List.mem_cons_of_mem _ hj), horder',
          upTo_cons (hne j hj).symm, hdBytes_cons, hself, hnode j hj,
          hdBytes_congr fun k hk => hnode k (mem_upTo hj hk)]
        constructor
        · rintro hbelow _ ⟨⟩ -
          exact hbelow
        · exact fun hbelow => hbelow info rfl hpos

/-- What `_addTexture` comes to: the new entry, in front of those that stay. -/
theorem addTexture_spec (maxTxCacheSize : BitVec 32) (h : s.Core) {crc : BitVec 64}
    (hfree : s.locations crc = none)
    (width height : BitVec 16) :
    (s.addTexture maxTxCacheSize crc width height).Core ∧
      (s.addTexture maxTxCacheSize crc width height).current = s.current ∧
      (s.addTexture maxTxCacheSize crc width height).textures.next = s.textures.next + 1 ∧
      (s.addTexture maxTxCacheSize crc width height).textures.order =
        s.textures.next :: (s.checkCacheSize maxTxCacheSize).textures.order ∧
      ((s.addTexture maxTxCacheSize crc width height).textures.node
        s.textures.next).bHDTexture = false ∧
      ∀ i ∈ s.textures.order,
        (s.addTexture maxTxCacheSize crc width height).textures.node i = s.textures.node i := by
  have hpop : Popped maxTxCacheSize s (s.checkCacheSize maxTxCacheSize) := h.checkCacheSize
  have hfree' : (s.checkCacheSize maxTxCacheSize).locations crc = none := by
    rw [hpop.core.free_iff, hpop.node]
    exact fun i hi => h.free_iff.mp hfree i (hpop.sublist.subset hi)
  have hadd := hpop.core.add hfree' width height
  rw [addTexture]
  dsimp only
  rw [if_pos hfree']
  refine ⟨hadd, hpop.current, by rw [← hpop.next]; rfl, by rw [← hpop.next]; rfl, ?_, ?_⟩
  · rw [← hpop.next, NodeList.node_emplaceFront_self]
  · intro i hi
    rw [NodeList.node_emplaceFront _ (by rw [hpop.next]; exact h.wellFormed.ne_next hi), hpop.node]

/-- What adding and loading a texture comes to: which of the old entries stay, and whether the new
    one does. -/
structure Missed (maxTxCacheSize txHiresVramLimit : BitVec 32) (u : Fin 2) (loaded : LoadedTexture)
    (s t : TextureCache) : Prop where
  core : t.Core
  current : t.current = Function.update s.current u (some (.entry s.textures.next))
  size : maxTxCacheSize ≠ 0 → t.textures.order.length ≤ maxTxCacheSize.toNat
  subset : ∀ i ∈ t.textures.order, i = s.textures.next ∨ i ∈ s.textures.order
  new : s.textures.next ∈ t.textures.order ↔
    ∀ info ∈ loaded.hd, (maxHdCacheSize txHiresVramLimit).toNat ≠ 0 →
      info.textureBytes.toNat < (maxHdCacheSize txHiresVramLimit).toNat
  old : ∀ i ∈ s.textures.order, i ∈ t.textures.order ↔
    (maxTxCacheSize.toNat ≤ s.textures.order.length → i ∉ s.textures.order.getLast?) ∧
      ∀ info ∈ loaded.hd, (maxHdCacheSize txHiresVramLimit).toNat ≠ 0 →
        (s.textures.node i).bHDTexture = true →
          info.textureBytes.toNat + hdBytes s.textures
            (upTo (s.checkCacheSize maxTxCacheSize).textures.order i) <
              (maxHdCacheSize txHiresVramLimit).toNat

/-- **A texture is added, loaded and activated** -/
theorem missTexture_spec (txHiresVramLimit : BitVec 32) (h : s.Core)
    (hsize : s.textures.order.length ≤ maxTxCacheSize.toNat)
    {crc : BitVec 64} (hfree : s.locations crc = none) (u : Fin 2) (width height : BitVec 16)
    (loaded : LoadedTexture) :
    Missed maxTxCacheSize txHiresVramLimit u loaded s
      (s.missTexture maxTxCacheSize txHiresVramLimit u crc width height loaded) := by
  have hpop : Popped maxTxCacheSize s (s.checkCacheSize maxTxCacheSize) := h.checkCacheSize
  obtain ⟨hcore, hcurrent, hnext, horder, hplain, hnode⟩ :=
    addTexture_spec maxTxCacheSize h hfree width height
  have hlength : (s.checkCacheSize maxTxCacheSize).textures.order.length < 2 ^ 32 := by
    have hle := hpop.sublist.length_le
    have hlt := maxTxCacheSize.isLt
    omega
  have hloads := hcore.loadTexture txHiresVramLimit horder hplain hlength loaded
  unfold missTexture
  dsimp only
  rw [hnext, Nat.add_sub_cancel]
  refine ⟨?_, ?_, ?_, ?_, hloads.new, ?_⟩
  · exact ⟨hloads.core.wellFormed, hloads.core.locations, hloads.core.hdSize, hloads.core.created,
      hloads.core.name, hloads.core.deletedOnce, hloads.core.deleted⟩
  · change Function.update _ u _ = _
    rw [hloads.current, hcurrent]
  · intro hmax
    exact Nat.le_trans hloads.sublist.length_le (hpop.length hsize hmax)
  · intro i hi
    rcases List.mem_cons.mp (hloads.sublist.subset hi) with rfl | hin
    · exact Or.inl rfl
    · exact Or.inr (hpop.sublist.subset hin)
  · intro i hi
    change i ∈ ((s.addTexture maxTxCacheSize crc width height).loadTexture txHiresVramLimit
      s.textures.next loaded).textures.order ↔ _
    rw [← hpop.mem i hi]
    by_cases hin : i ∈ (s.checkCacheSize maxTxCacheSize).textures.order
    · rw [hloads.old i hin, hnode i hi, and_iff_right hin]
      rw [hdBytes_congr fun k hk => hnode k (hpop.sublist.subset (mem_upTo hin hk))]
    · refine ⟨fun hmem => ?_, fun hmem => absurd hmem.1 hin⟩
      rcases List.mem_cons.mp (hloads.sublist.subset hmem) with rfl | hin'
      · exact absurd rfl (h.wellFormed.ne_next hi)
      · exact absurd hin' hin

/-! ### One call -/

variable {u : Fin 2} {loaded : LoadedTexture} {crc : BitVec 64} {width height : BitVec 16}

/-- The cache as it may be where `current[u]` is about to be set. -/
structure InvBut (maxTxCacheSize : BitVec 32) (u : Fin 2) (s : TextureCache) : Prop
    extends s.Core where
  size : s.textures.order.length ≤ maxTxCacheSize.toNat
  current : ∀ i, s.Pinned u i → i ∈ s.textures.order

theorem Inv.but (h : s.Inv maxTxCacheSize) (u : Fin 2) : s.InvBut maxTxCacheSize u :=
  ⟨h.toCore, h.size, fun i hi => by
    obtain ⟨w, -, hw⟩ := hi
    exact h.current w i hw⟩

theorem Core.withCurrent (h : s.Core) (current : Fin 2 → Option TextureRef) :
    Core { s with current := current } :=
  ⟨h.wellFormed, h.locations, h.hdSize, h.created, h.name, h.deletedOnce, h.deleted⟩

theorem InvBut.activateTexture (h : s.InvBut maxTxCacheSize u) {texture : TextureRef}
    (halive : ∀ i, texture = .entry i → i ∈ s.textures.order) :
    (s.activateTexture u texture).Inv maxTxCacheSize := by
  refine ⟨h.toCore.withCurrent _, h.size, fun w i hw => ?_⟩
  change Function.update s.current u (some texture) w = some (.entry i) at hw
  by_cases hwu : w = u
  · subst hwu
    rw [Function.update_self, Option.some.injEq] at hw
    exact halive i hw
  · rw [Function.update_of_ne hwu] at hw
    exact h.current i ⟨w, hwu, hw⟩

/-- A texture that is there is taken to the front. -/
theorem Inv.hitTexture (h : s.Inv maxTxCacheSize) (hi : i ∈ s.textures.order) :
    (s.hitTexture u i).Inv maxTxCacheSize := by
  have hperm : s.textures.order.Perm (i :: s.textures.order.erase i) := List.perm_cons_erase hi
  have hmem : ∀ j, j ∈ (s.textures.moveFront i).order ↔ j ∈ s.textures.order :=
    fun j => hperm.mem_iff.symm
  refine InvBut.activateTexture (s := { s with textures := s.textures.moveFront i }) ?_ ?_
  · refine ⟨⟨⟨hperm.nodup_iff.mp h.wellFormed.nodup, ?_⟩, ?_, ?_, h.created, h.name,
      h.deletedOnce, ?_⟩, hperm.length_eq ▸ h.size, ?_⟩
    · exact fun j hj => h.wellFormed.fresh j ((hmem j).mp hj)
    · intro crc j
      rw [hmem]
      exact h.locations crc j
    · exact h.hdSize.trans (hdBytes_perm hperm)
    · intro n
      rw [hmem]
      exact h.deleted n
    · rintro j ⟨w, -, hw⟩
      exact (hmem j).mpr (h.current w j hw)
  · rintro j ⟨⟩
    exact (hmem i).mpr hi

/-- A miss that is fine leaves the cache as it may be. -/
theorem InvBut.missTexture (h : s.InvBut maxTxCacheSize u) (hfree : s.locations crc = none)
    (hfine : s.MissFine maxTxCacheSize txHiresVramLimit u loaded) :
    (s.missTexture maxTxCacheSize txHiresVramLimit u crc width height loaded).Inv
      maxTxCacheSize := by
  obtain ⟨hmax, hpop, hlimit⟩ := hfine
  have hpopped : Popped maxTxCacheSize s (s.checkCacheSize maxTxCacheSize) :=
    h.toCore.checkCacheSize
  have hmissed := missTexture_spec txHiresVramLimit h.toCore h.size hfree u
    width height loaded
  refine ⟨hmissed.core, hmissed.size hmax, fun w i hw => ?_⟩
  rw [hmissed.current] at hw
  by_cases hwu : w = u
  · subst hwu
    rw [Function.update_self, Option.some.injEq, TextureRef.entry.injEq] at hw
    exact hw ▸ hmissed.new.mpr fun info hinfo hpos => (hlimit info hinfo hpos).1
  · rw [Function.update_of_ne hwu] at hw
    have hpinned : s.Pinned u i := ⟨w, hwu, hw⟩
    have hi := h.current i hpinned
    have hkept : maxTxCacheSize.toNat ≤ s.textures.order.length → i ∉ s.textures.order.getLast? :=
      fun hfull hlast => hpop hfull i hlast hpinned
    refine (hmissed.old i hi).mpr ⟨hkept, fun info hinfo hpos hhd => ?_⟩
    have hbelow := (hlimit info hinfo hpos).2 i ((hpopped.mem i hi).mpr hkept)
      (by rwa [Pinned, hpopped.current]) (by rwa [hpopped.node])
    rwa [hdBytes_congr fun k _ => congrFun hpopped.node k] at hbelow

/-- A miss that leaves the cache sound is fine. -/
theorem Core.missFine (h : s.Core) (hsize : s.textures.order.length ≤ maxTxCacheSize.toNat)
    (hfree : s.locations crc = none)
    (hsound : (s.missTexture maxTxCacheSize txHiresVramLimit u crc width height loaded).Sound
      maxTxCacheSize) :
    s.MissFine maxTxCacheSize txHiresVramLimit u loaded := by
  have hpopped : Popped maxTxCacheSize s (s.checkCacheSize maxTxCacheSize) := h.checkCacheSize
  have hmissed := missTexture_spec txHiresVramLimit h hsize hfree u
    width height loaded
  have hnew := hsound.current u s.textures.next (by rw [hmissed.current, Function.update_self])
  have hpinned : ∀ i, s.Pinned u i →
      i ∈ (s.missTexture maxTxCacheSize txHiresVramLimit u crc width height
        loaded).textures.order := by
    rintro i ⟨w, hwu, hw⟩
    exact hsound.current w i (by rw [hmissed.current, Function.update_of_ne hwu, hw])
  refine ⟨?_, ?_, ?_⟩
  · rintro rfl
    have hlength := List.length_pos_of_mem hnew
    have hbound := hsound.size
    rw [show BitVec.toNat (0 : BitVec 32) = 0 from rfl] at hbound
    omega
  · intro hfull i hlast hpin
    exact ((hmissed.old i (List.mem_of_getLast? hlast)).mp (hpinned i hpin)).1 hfull hlast
  · intro info hinfo hpos
    refine ⟨hmissed.new.mp hnew info hinfo hpos, fun i hi hpin hhd => ?_⟩
    rw [Pinned, hpopped.current] at hpin
    rw [hpopped.node] at hhd
    have hbelow := ((hmissed.old i (hpopped.sublist.subset hi)).mp (hpinned i hpin)).2 info hinfo
      hpos hhd
    rwa [hdBytes_congr fun k _ => congrFun hpopped.node k]

/-- The entry of a key that is in the table. -/
theorem Core.located (h : s.Core) (hi : s.locations crc = some i) :
    i ∈ s.textures.order ∧ (s.removeTexture i).locations crc = none := by
  obtain ⟨hmem, rfl⟩ := (h.locations _ _).mp hi
  exact ⟨hmem, Function.update_self ..⟩

theorem Inv.removeTexture (h : s.Inv maxTxCacheSize) (hi : i ∈ s.textures.order)
    (hpin : ¬s.Pinned u i) : (s.removeTexture i).InvBut maxTxCacheSize u := by
  refine ⟨h.toCore.removeTexture hi, Nat.le_trans List.length_erase_le h.size, ?_⟩
  intro j hj
  refine h.wellFormed.mem_erase.mpr ⟨?_, (h.but u).current j hj⟩
  rintro rfl
  exact hpin hj

theorem Inv.findTile (h : s.Inv maxTxCacheSize) {tile : TileUpdate}
    (hfine : s.FindFine maxTxCacheSize txHiresVramLimit u tile) :
    (s.findTile maxTxCacheSize txHiresVramLimit u tile).Inv maxTxCacheSize := by
  unfold FindFine at hfine
  unfold TextureCache.findTile
  dsimp only
  split
  · exact h
  · next hother =>
    replace hfine := hfine hother
    split
    · next hfree =>
      simp only [hfree] at hfine
      exact (h.but u).missTexture hfree hfine
    · next i hi =>
      simp only [hi] at hfine
      obtain ⟨hmem, hfree⟩ := h.toCore.located hi
      split
      · exact h.hitTexture hmem
      · next hsizes =>
        obtain ⟨hpin, hmiss⟩ := hfine hsizes
        exact (h.removeTexture hmem hpin).missTexture hfree hmiss

theorem Inv.findFine (h : s.Inv maxTxCacheSize) {tile : TileUpdate}
    (hsound : (s.findTile maxTxCacheSize txHiresVramLimit u tile).Sound maxTxCacheSize) :
    s.FindFine maxTxCacheSize txHiresVramLimit u tile := by
  unfold FindFine
  unfold TextureCache.findTile at hsound
  dsimp only at hsound ⊢
  intro hother
  rw [if_neg hother] at hsound
  split
  · next hfree =>
    simp only [hfree] at hsound
    exact h.toCore.missFine h.size hfree hsound
  · next i hi =>
    simp only [hi] at hsound
    obtain ⟨hmem, hfree⟩ := h.toCore.located hi
    intro hsizes
    rw [if_neg hsizes] at hsound
    have hcore := h.toCore.removeTexture hmem
    have hsize : (s.removeTexture i).textures.order.length ≤ maxTxCacheSize.toNat :=
      Nat.le_trans List.length_erase_le h.size
    refine ⟨?_, hcore.missFine hsize hfree hsound⟩
    rintro ⟨w, hwu, hw⟩
    have hmissed := missTexture_spec txHiresVramLimit hcore hsize hfree u
      (tile.width.setWidth 16) (tile.height.setWidth 16) tile.loaded
    have hin := hsound.current w i (by rw [hmissed.current, Function.update_of_ne hwu]; exact hw)
    rcases hmissed.subset i hin with heq | hrest
    · exact h.wellFormed.ne_next hmem heq
    · exact (h.wellFormed.mem_erase.mp hrest).1 rfl

/-- `current[1]` may be set to what `current[0]` is. -/
theorem Inv.replaceTex1 (h : s.Inv maxTxCacheSize) :
    Inv maxTxCacheSize { s with current := Function.update s.current 1 (s.current 0) } := by
  refine ⟨h.toCore.withCurrent _, h.size, fun w i hw => ?_⟩
  change Function.update s.current 1 (s.current 0) w = some (.entry i) at hw
  by_cases hw1 : w = 1
  · subst hw1
    rw [Function.update_self] at hw
    exact h.current 0 i hw
  · rw [Function.update_of_ne hw1] at hw
    exact h.current w i hw

theorem Inv.clear (h : s.Inv maxTxCacheSize) : s.clear.Inv maxTxCacheSize := by
  have hnames : s.textures.order.map (fun i => (s.textures.node i).name) = s.textures.order := by
    have hname : ∀ i ∈ s.textures.order, (s.textures.node i).name = id i :=
      fun i hi => h.name i (h.wellFormed.fresh i hi)
    rw [List.map_congr_left hname, List.map_id]
  refine ⟨⟨⟨List.nodup_nil, fun _ hi => absurd hi List.not_mem_nil⟩, ?_, rfl, h.created, h.name,
    ?_, ?_⟩, Nat.zero_le _, fun _ _ hw => by cases hw⟩
  · exact fun _ _ => ⟨fun hnone => (by cases hnone), fun hin => absurd hin.1 List.not_mem_nil⟩
  · change (_ ++ s.deleted).Nodup
    rw [hnames]
    refine (List.nodup_reverse.mpr h.wellFormed.nodup).append h.deletedOnce ?_
    intro i hi hgone
    exact ((h.deleted i).mp hgone).2 (List.mem_reverse.mp hi)
  · intro n
    change n ∈ _ ++ s.deleted ↔ n < s.textures.next ∧ n ∉ ([] : List ℕ)
    rw [hnames, List.mem_append, List.mem_reverse, h.deleted]
    constructor
    · rintro (hin | hgone)
      · exact ⟨h.wellFormed.fresh n hin, List.not_mem_nil⟩
      · exact ⟨hgone.1, List.not_mem_nil⟩
    · rintro ⟨hlt, -⟩
      by_cases hin : n ∈ s.textures.order
      · exact Or.inl hin
      · exact Or.inr ⟨hlt, hin⟩

end TextureCache

namespace TextureOp

open TextureCache

variable {maxTxCacheSize txHiresVramLimit : BitVec 32} {s : TextureCache} {op : TextureOp}

/-- A call that is fine leaves the cache as it may be. -/
theorem step_inv (h : s.Inv maxTxCacheSize) (hfine : op.Fine maxTxCacheSize txHiresVramLimit s) :
    (s.step maxTxCacheSize txHiresVramLimit op).Inv maxTxCacheSize := by
  cases op with
  | update t tile =>
    unfold Fine at hfine
    unfold step updateTile
    dsimp only at hfine ⊢
    split
    · next hreplace =>
      rw [if_pos hreplace] at hfine
      split
      · exact h.replaceTex1
      · next hnone =>
        rw [Function.update_self, ne_eq, not_not] at hnone
        have hreplaced := h.replaceTex1
        rw [hnone] at hreplaced ⊢
        exact hreplaced.findTile (hfine hnone)
    · next hown =>
      rw [if_neg hown] at hfine
      exact h.findTile hfine
  | updateBackground bg =>
    unfold step TextureCache.updateBackground
    dsimp only
    split
    · next hfree => exact (h.but 0).missTexture hfree (hfine hfree)
    · next i hi => exact h.hitTexture (h.toCore.located hi).1
  | activateFrameBuffer t crc =>
    cases crc with
    | none => exact h
    | some crc => exact (h.but t).activateTexture fun _ heq => by cases heq
  | clear => exact h.clear

/-- A call that leaves the cache sound is fine. -/
theorem fine_of_sound (h : s.Inv maxTxCacheSize)
    (hsound : (s.step maxTxCacheSize txHiresVramLimit op).Sound maxTxCacheSize) :
    op.Fine maxTxCacheSize txHiresVramLimit s := by
  cases op with
  | update t tile =>
    unfold Fine
    unfold step updateTile at hsound
    dsimp only at hsound ⊢
    split
    · next hreplace =>
      intro hnone
      have hreplaced := h.replaceTex1
      simp only [hreplace, hnone, Function.update_self, ne_eq, not_true, if_false, and_self,
        if_true] at hreplaced hsound ⊢
      exact hreplaced.findFine hsound
    · next hown =>
      rw [if_neg hown] at hsound
      exact h.findFine hsound
  | updateBackground bg =>
    intro hfree
    unfold step TextureCache.updateBackground at hsound
    simp only [hfree] at hsound
    exact h.toCore.missFine h.size hfree hsound
  | activateFrameBuffer t crc => trivial
  | clear => trivial

/-- **The cache is sound in a run** exactly when each call of it is fine. -/
theorem textureCache_sound_iff (maxTxCacheSize txHiresVramLimit : BitVec 32)
    (ops : List TextureOp) :
    (∀ s ∈ Runs.visited (step maxTxCacheSize txHiresVramLimit) .empty ops,
      s.Sound maxTxCacheSize) ↔
      Runs.Along (step maxTxCacheSize txHiresVramLimit)
        (fun s op => op.Fine maxTxCacheSize txHiresVramLimit s) .empty ops :=
  Runs.visited_iff_along_of (I := Inv maxTxCacheSize) (fun _ h => h.sound)
    (fun _ _ h hfine => step_inv h hfine) (fun _ _ h hsound => fine_of_sound h hsound) inv_empty

/-- A tile whose texture in the pack has 512 MiB. -/
def largeTile : TileUpdate where
  replaceTex1ByTex0 := false
  crc := 0x1234
  width := 32
  height := 32
  loaded := ⟨0, some ⟨16384, 8192, true⟩⟩

/-- **A texture of the pack that is over the limit**, of 500 MiB, is gone when it is activated. -/
theorem textureCache_not_sound :
    ¬∀ maxTxCacheSize txHiresVramLimit ops,
      ∀ s ∈ Runs.visited (step maxTxCacheSize txHiresVramLimit) .empty ops,
        s.Sound maxTxCacheSize := by
  intro h
  have hsound := h 8000 500 [.update 0 largeTile] _ (Runs.runFrom_mem_visited _ _ _)
  have hmem := hsound.current 0 0 (by decide)
  revert hmem
  decide

end TextureOp

end Mupen64plus
