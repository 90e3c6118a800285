import Mupen64plus.Device.FrameBufferGuard

/-!
# Runs with protected frame buffers

Tasks, loads, stores and rows from power-on, with reports of buffers inside RDRAM. The regions of
the buffers of the last task are mapped to the functions of `fb.c` as long as the first entry is not
empty.

## Main definitions

- `Fb.Invariant` — buffers lie inside RDRAM, exactly their regions are mapped, and pages exist

## Main results

- `Fb.Invariant.step` — every event keeps the invariant
- `fbRun_covered` — in a run of events that fit, the plugin is told of every byte of a buffer that
  is written, once; `unprotect_framebuffers` maps RDRAM to its own functions
-/

namespace Mupen64plus

namespace Fb

variable {expansion : Bool} {fb : Fb}

-- ════════════════════
-- Handlers and pages
-- ════════════════════

/-- Buffers lie inside RDRAM, exactly their regions are mapped, and pages exist. -/
structure Invariant (expansion : Bool) (fb : Fb) : Prop where
  inside : ∀ i, (fb.infos i).addr + (fb.infos i).bufferSize ≤ dramSize expansion
  mapped : ∀ region, fb.handlers region = .fb ↔ (fb.infos 0).addr ≠ 0 ∧ ∃ i,
    (fb.infos i).addr ≠ 0 ∧ (fb.infos i).addr >>> 16 ≤ region ∧
      region ≤ (fb.infos i).last >>> 16
  pages : ∀ page ∈ fb.pages, page < fbDirtyPagesCount

theorem invariant_poweron : poweron.Invariant expansion where
  inside := fun _ => Nat.zero_le _
  mapped := fun region => by simp [poweron]
  pages := fun _ h => absurd h List.not_mem_nil

@[simp] theorem mapTurn_infos (handler : RdramHandler) (i : Fin 6) :
    (fb.mapTurn handler i).infos = fb.infos := by
  unfold mapTurn
  split <;> rfl

@[simp] theorem mapTurn_pages (handler : RdramHandler) (i : Fin 6) :
    (fb.mapTurn handler i).pages = fb.pages := by
  unfold mapTurn
  split <;> rfl

@[simp] theorem markTurn_infos (i : Fin 6) : (fb.markTurn i).infos = fb.infos := by
  unfold markTurn
  split <;> rfl

@[simp] theorem markTurn_handlers (i : Fin 6) : (fb.markTurn i).handlers = fb.handlers := by
  unfold markTurn
  split <;> rfl

/-- The regions of an entry that is not empty. -/
def Covers (fb : Fb) (i : Fin 6) (region : ℕ) : Prop :=
  (fb.infos i).addr ≠ 0 ∧ (fb.infos i).addr >>> 16 ≤ region ∧ region ≤ (fb.infos i).last >>> 16

theorem mapTurn_handlers (handler : RdramHandler) (i : Fin 6) (region : ℕ) :
    (fb.mapTurn handler i).handlers region = handler ∧ fb.Covers i region ∨
      (fb.mapTurn handler i).handlers region = fb.handlers region ∧ ¬fb.Covers i region := by
  unfold mapTurn Covers
  by_cases haddr : (fb.infos i).addr = 0
  · rw [if_pos haddr]
    exact .inr ⟨rfl, fun h => h.1 haddr⟩
  · rw [if_neg haddr]
    unfold applyMemMapping
    by_cases hregion : (fb.infos i).addr >>> 16 ≤ region ∧ region ≤ (fb.infos i).last >>> 16
    · exact .inl ⟨if_pos hregion, haddr, hregion⟩
    · exact .inr ⟨if_neg hregion, fun h => hregion h.2⟩

/-- What turns that map the entries do to a region. -/
theorem foldl_handlers (handler : RdramHandler) (turn : Fb → Fin 6 → Fb)
    (hinfos : ∀ fb i, (turn fb i).infos = fb.infos)
    (hturn : ∀ fb i, (turn fb i).handlers = (fb.mapTurn handler i).handlers) (region : ℕ)
    (l : List (Fin 6)) (fb : Fb) :
    ((∃ i ∈ l, fb.Covers i region) → (l.foldl turn fb).handlers region = handler) ∧
      ((∀ i ∈ l, ¬fb.Covers i region) →
        (l.foldl turn fb).handlers region = fb.handlers region) := by
  induction l generalizing fb with
  | nil => exact ⟨fun ⟨_, h, _⟩ => absurd h List.not_mem_nil, fun _ => rfl⟩
  | cons i l ih =>
    obtain ⟨hcovered, hkept⟩ := ih (turn fb i)
    have hcovers : ∀ j, (turn fb i).Covers j region ↔ fb.Covers j region := fun j => by
      unfold Covers
      rw [hinfos]
    simp only [hcovers] at hcovered hkept
    rw [List.foldl_cons]
    constructor
    · rintro ⟨j, hj, hjregion⟩
      by_cases hrest : ∃ k ∈ l, fb.Covers k region
      · exact hcovered hrest
      · obtain rfl := (List.mem_cons.1 hj).resolve_right fun hl => hrest ⟨j, hl, hjregion⟩
        rw [hkept fun k hk hkregion => hrest ⟨k, hk, hkregion⟩, hturn]
        exact ((mapTurn_handlers handler j region).resolve_right fun h => h.2 hjregion).1
    · intro hnone
      rw [hkept fun k hk => hnone k (List.mem_cons_of_mem i hk), hturn]
      exact ((mapTurn_handlers handler i region).resolve_left fun h =>
        hnone i List.mem_cons_self h.2).1

theorem foldl_infos {turn : Fb → Fin 6 → Fb} (hinfos : ∀ fb i, (turn fb i).infos = fb.infos)
    (l : List (Fin 6)) (fb : Fb) : (l.foldl turn fb).infos = fb.infos := by
  induction l generalizing fb with
  | nil => rfl
  | cons i l ih => rw [List.foldl_cons, ih, hinfos]

/-- Turns that touch pages of RDRAM only leave such pages behind. -/
theorem foldl_pages {turn : Fb → Fin 6 → Fb} (hinfos : ∀ fb i, (turn fb i).infos = fb.infos)
    (hpages : ∀ fb : Fb, (∀ i, (fb.infos i).addr + (fb.infos i).bufferSize ≤ 0x800000) → ∀ i,
      ∀ page ∈ (turn fb i).pages, page ∈ fb.pages ∨ page < fbDirtyPagesCount)
    (l : List (Fin 6)) (fb : Fb)
    (hinside : ∀ i, (fb.infos i).addr + (fb.infos i).bufferSize ≤ 0x800000)
    (h : ∀ page ∈ fb.pages, page < fbDirtyPagesCount) :
    ∀ page ∈ (l.foldl turn fb).pages, page < fbDirtyPagesCount := by
  induction l generalizing fb with
  | nil => exact h
  | cons i l ih =>
    refine ih _ (by rwa [hinfos]) fun page hpage => ?_
    exact (hpages fb hinside i page hpage).elim (h page) id

theorem mem_pages_markTurn (hinside : ∀ i, (fb.infos i).addr + (fb.infos i).bufferSize ≤ 0x800000)
    (i : Fin 6) {page : ℕ} (h : page ∈ (fb.markTurn i).pages) :
    page ∈ fb.pages ∨ page < fbDirtyPagesCount := by
  unfold markTurn at h
  split at h
  next => exact .inl h
  next haddr =>
    refine (List.mem_append.1 h).imp_right fun hrange => ?_
    have hlast := hinside i
    rw [List.mem_range'_1, Nat.shiftRight_eq_div_pow, Nat.shiftRight_eq_div_pow] at hrange
    unfold FrameBufferInfo.last at hrange
    unfold fbDirtyPagesCount
    omega

@[simp] theorem readTurn_infos (address : ℕ) (i : Fin 6) :
    (fb.readTurn address i).infos = fb.infos := by
  unfold readTurn
  split
  · split <;> rfl
  · rfl

@[simp] theorem readTurn_handlers (address : ℕ) (i : Fin 6) :
    (fb.readTurn address i).handlers = fb.handlers := by
  unfold readTurn
  split
  · split <;> rfl
  · rfl

theorem mem_pages_readTurn (address : ℕ)
    (hinside : ∀ i, (fb.infos i).addr + (fb.infos i).bufferSize ≤ 0x800000) (i : Fin 6) {page : ℕ}
    (h : page ∈ (fb.readTurn address i).pages) :
    page ∈ fb.pages ∨ page < fbDirtyPagesCount := by
  have hpage : (fb.infos i).addr ≠ 0 ∧ (fb.infos i).Contains address →
      address >>> 12 < fbDirtyPagesCount := by
    rintro ⟨haddr, hcontains⟩
    have hlt := hcontains.lt haddr (hinside i)
    rw [Nat.shiftRight_eq_div_pow]
    unfold fbDirtyPagesCount
    omega
  unfold readTurn at h
  split at h
  next hhit =>
    split at h
    · refine (List.mem_append.1 h).imp_right fun hnew => ?_
      simp only [List.mem_cons, List.not_mem_nil, or_false, or_self] at hnew
      exact hnew ▸ hpage hhit
    · refine (List.mem_append.1 h).imp_right fun hnew => ?_
      exact List.mem_singleton.1 hnew ▸ hpage hhit
  next => exact .inl h

/-- `unprotect_framebuffers` maps every region to the functions of RDRAM. -/
theorem unprotect_handlers (h : fb.Invariant expansion) (region : ℕ) :
    fb.unprotectFramebuffers.handlers region = .dram := by
  have hplain : fb.handlers region ≠ .fb → fb.handlers region = .dram := by
    cases fb.handlers region with
    | dram => exact fun _ => rfl
    | fb => exact fun hne => absurd rfl hne
  unfold unprotectFramebuffers
  by_cases hfirst : (fb.infos 0).addr = 0
  · rw [if_pos hfirst]
    exact hplain fun hmapped => ((h.mapped region).1 hmapped).1 hfirst
  · rw [if_neg hfirst]
    obtain ⟨hcovered, hkept⟩ := foldl_handlers .dram (mapTurn .dram)
      (fun fb i => mapTurn_infos .dram i) (fun _ _ => rfl) region (List.finRange 6) fb
    by_cases hregion : ∃ i, fb.Covers i region
    · obtain ⟨i, hi⟩ := hregion
      exact hcovered ⟨i, List.mem_finRange i, hi⟩
    · rw [hkept fun i _ hi => hregion ⟨i, hi⟩]
      exact hplain fun hmapped => hregion ((h.mapped region).1 hmapped).2

theorem foldl_mapTurn_pages (handler : RdramHandler) (l : List (Fin 6)) (fb : Fb) :
    (l.foldl (mapTurn handler) fb).pages = fb.pages := by
  induction l generalizing fb with
  | nil => rfl
  | cons i l ih => rw [List.foldl_cons, ih, mapTurn_pages]

theorem unprotect_pages : fb.unprotectFramebuffers.pages = fb.pages := by
  unfold unprotectFramebuffers
  split
  · rfl
  · exact foldl_mapTurn_pages .dram _ fb

theorem invariant_protect {report : FbReport expansion}
    (hplain : ∀ region, fb.handlers region = .dram)
    (hpages : ∀ page ∈ fb.pages, page < fbDirtyPagesCount) :
    (fb.protectFramebuffers report.infos).Invariant expansion := by
  have hturn : ∀ (fb : Fb) (i : Fin 6),
      ((fb.mapTurn .fb i).markTurn i).infos = fb.infos := fun fb i => by
    simp
  unfold protectFramebuffers
  by_cases hfirst : (report.infos 0).addr = 0
  · rw [if_pos hfirst]
    refine ⟨report.inside, fun region => ?_, hpages⟩
    rw [hplain]
    exact ⟨fun h => RdramHandler.noConfusion h, fun h => absurd hfirst h.1⟩
  · rw [if_neg hfirst]
    have hinfos := foldl_infos hturn (List.finRange 6) { fb with infos := report.infos }
    have hinside : ∀ i, (report.infos i).addr + (report.infos i).bufferSize ≤ 0x800000 := fun i =>
      (report.inside i).trans (dramSize_le expansion)
    refine ⟨?_, fun region => ?_, ?_⟩
    · rw [hinfos]
      exact report.inside
    · rw [hinfos]
      obtain ⟨hcovered, hkept⟩ := foldl_handlers .fb _ hturn
        (fun fb i => markTurn_handlers i) region (List.finRange 6) { fb with infos := report.infos }
      constructor
      · intro hmapped
        refine ⟨hfirst, ?_⟩
        by_contra hnone
        rw [hkept fun i _ hi => hnone ⟨i, hi⟩, hplain] at hmapped
        exact RdramHandler.noConfusion hmapped
      · rintro ⟨-, i, hi⟩
        exact hcovered ⟨i, List.mem_finRange i, hi⟩
    · refine foldl_pages hturn (fun fb hfb i page hpage => ?_) _ _ hinside hpages
      exact (mem_pages_markTurn (by simpa using hfb) i hpage).imp_left fun h => by simpa using h

theorem foldl_readTurn_handlers (address : ℕ) (l : List (Fin 6)) (fb : Fb) :
    (l.foldl (Fb.readTurn address) fb).handlers = fb.handlers := by
  induction l generalizing fb with
  | nil => rfl
  | cons i l ih => rw [List.foldl_cons, ih, readTurn_handlers]

/-- Loads leave the handlers and the entries, and touch pages that exist. -/
theorem Invariant.read (h : fb.Invariant expansion) (address : ℕ) :
    (fb.preFramebufferRead address).Invariant expansion := by
  have hinfos := foldl_infos (fun fb i => @readTurn_infos fb address i) (List.finRange 6) fb
  unfold preFramebufferRead
  split
  · exact h
  · refine ⟨by rw [hinfos]; exact h.inside, fun region => ?_, ?_⟩
    · rw [hinfos, foldl_readTurn_handlers]
      exact h.mapped region
    · exact foldl_pages (fun fb i => readTurn_infos address i)
        (fun fb hfb i page => mem_pages_readTurn address hfb i) _ fb
        (fun i => (h.inside i).trans (dramSize_le expansion)) h.pages

theorem Invariant.reads (word : ℕ) (l : List ℕ) (h : fb.Invariant expansion) :
    (l.foldl (fun fb k => fb.preFramebufferRead (4 * (word + k))) fb).Invariant expansion := by
  induction l generalizing fb with
  | nil => exact h
  | cons k l ih => exact ih (h.read _)

/-- Every event keeps the invariant. -/
theorem Invariant.step (h : fb.Invariant expansion) (e : FbEvent expansion) :
    (fb.step e).Invariant expansion := by
  cases e with
  | task report =>
    exact invariant_protect (fun region => unprotect_handlers h region)
      (by rw [unprotect_pages]; exact h.pages)
  | load word count =>
    show Fb.Invariant expansion (if _ then _ else _)
    split
    · exact h.reads word _
    · exact h
  | store word masks => exact h
  | rowFromDram dramaddr =>
    show Fb.Invariant expansion (if _ then _ else _)
    split
    · exact h.read dramaddr
    · exact h
  | rowToDram dramaddr dma => exact h

-- ════════════════════
-- Runs
-- ════════════════════

/-- A byte of a buffer lies in a region that is mapped. -/
theorem Invariant.handlers_fb (h : fb.Invariant expansion) {i : Fin 6} {x : ℕ}
    (hfirst : (fb.infos 0).addr ≠ 0) (haddr : (fb.infos i).addr ≠ 0)
    (hx : (fb.infos i).Contains x) : fb.handlers (x >>> 16) = .fb := by
  refine (h.mapped _).2 ⟨hfirst, i, haddr, ?_, ?_⟩
  · rw [Nat.shiftRight_eq_div_pow, Nat.shiftRight_eq_div_pow]
    exact Nat.div_le_div_right hx.1
  · rw [Nat.shiftRight_eq_div_pow, Nat.shiftRight_eq_div_pow]
    exact Nat.div_le_div_right hx.2

theorem covered_nil {P : ℕ → Prop} (hP : ∀ x, ¬P x) :
    (bytesOf []).Nodup ∧ ∀ x, x ∈ bytesOf [] ↔ P x :=
  ⟨List.nodup_nil, fun x => ⟨fun h => absurd h List.not_mem_nil, fun h => absurd h (hP x)⟩⟩

/-- The words of a store lie in its region. -/
theorem WordsWritten.region {word region : ℕ} {masks : List (BitVec 32)} {x : ℕ}
    (h : WordsWritten expansion word masks x) (hbase : region * 0x4000 ≤ word)
    (hend : word + masks.length ≤ (region + 1) * 0x4000) : x >>> 16 = region := by
  induction masks generalizing word with
  | nil => exact h.elim
  | cons mask masks ih =>
    rw [List.length_cons] at hend
    rcases h with ⟨hword, -⟩ | h
    · rw [Nat.shiftRight_eq_div_pow]
      omega
    · exact ih h (by omega) (by omega)

theorem covered_store (h : fb.Invariant expansion) {word : ℕ} {masks : List (BitVec 32)}
    (hfits : fb.Fits (.store word masks : FbEvent expansion)) :
    fb.Covered (.store word masks : FbEvent expansion) := by
  intro i haddr
  obtain ⟨hregion, hwords⟩ := hfits
  have hcovered := words_covered haddr (h.inside i) (hwords i haddr)
  have hcalls : fb.calls i (.store word masks : FbEvent expansion) =
      if fb.handlers ((4 * word) >>> 16) = .fb then writeRdramFb fb.infos i word masks
      else [] := rfl
  rw [hcalls]
  by_cases hmapped : fb.handlers ((4 * word) >>> 16) = .fb
  · rw [if_pos hmapped]
    exact hcovered
  · rw [if_neg hmapped]
    refine covered_nil fun x => ?_
    rintro ⟨hwritten, hcontains⟩
    by_cases hfirst : (fb.infos 0).addr = 0
    · have hx := (hcovered.2 x).2 ⟨hwritten, hcontains⟩
      rw [writeRdramFb_eq_nil hfirst] at hx
      exact List.not_mem_nil hx
    · have hplace : x >>> 16 = (4 * word) >>> 16 := by
        refine WordsWritten.region hwritten ?_ ?_ <;> rw [Nat.shiftRight_eq_div_pow] <;> omega
      exact hmapped (hplace ▸ h.handlers_fb hfirst haddr hcontains)

theorem covered_row {dramaddr : ℕ} {dma : SpDma}
    (hfits : fb.Fits (.rowToDram dramaddr dma : FbEvent expansion)) :
    fb.Covered (.rowToDram dramaddr dma : FbEvent expansion) := by
  have hlength : dma.rowLength.toNat % 4 = 0 := by
    rw [dma.rowLength_toNat]
    omega
  intro i haddr
  have hrow : fb.calls i (.rowToDram dramaddr dma : FbEvent expansion) =
      if dramaddr + dma.rowLength.toNat ≤ 0x800000 then
        postFramebufferWrite fb.infos dramaddr dma.rowLength.toNat i else [] := rfl
  rw [hrow]
  rcases hfits i haddr with hout | ⟨hfirst, haligned, hend, hwhole⟩
  · have hcalls : (if dramaddr + dma.rowLength.toNat ≤ 0x800000 then
        postFramebufferWrite fb.infos dramaddr dma.rowLength.toNat i else []) = [] := by
      split
      next hle => exact postFramebufferWrite_eq_nil fun n hn => (hout n hn).2 hle
      next => rfl
    rw [hcalls]
    refine covered_nil fun x => ?_
    rintro ⟨⟨n, hn, rfl⟩, hcontains⟩
    exact (hout n hn).1 hcontains
  · rw [if_pos hend]
    refine ⟨nodup_bytesOf_post _ _, fun x => ?_⟩
    rw [mem_bytesOf_post hfirst haddr hwhole]
    exact and_congr_left' (row_written haligned hlength hend).symm

theorem covered_of_fits (h : fb.Invariant expansion) (e : FbEvent expansion) (hfits : fb.Fits e) :
    fb.Covered e := by
  cases e with
  | task report => exact fun i _ => covered_nil fun x hx => hx.1
  | load word count => exact fun i _ => covered_nil fun x hx => hx.1
  | store word masks => exact covered_store h hfits
  | rowFromDram dramaddr => exact fun i _ => covered_nil fun x hx => hx.1
  | rowToDram dramaddr dma => exact covered_row hfits

theorem Invariant.covered_along (h : fb.Invariant expansion) {events : List (FbEvent expansion)}
    (hfits : Along Fits fb events) : Along Covered fb events := by
  induction events generalizing fb with
  | nil => exact trivial
  | cons e events ih => exact ⟨covered_of_fits h e hfits.1, ih (h.step e) hfits.2⟩

theorem Invariant.foldl (h : fb.Invariant expansion) (events : List (FbEvent expansion)) :
    (events.foldl Fb.step fb).Invariant expansion := by
  induction events generalizing fb with
  | nil => exact h
  | cons e events ih => exact ih (h.step e)

end Fb

/-- **Protected buffers**: in a run of events that fit, the plugin is told of every byte of a buffer
    that is written, once; pages exist, and RDRAM can be mapped to its own functions again. -/
theorem fbRun_covered {expansion : Bool} (events : List (FbEvent expansion))
    (hfits : Fb.Along Fb.Fits .poweron events) :
    Fb.Along Fb.Covered .poweron events ∧
      (∀ page ∈ (events.foldl Fb.step .poweron).pages, page < fbDirtyPagesCount) ∧
      ∀ region, (events.foldl Fb.step .poweron).unprotectFramebuffers.handlers region = .dram :=
  ⟨Fb.invariant_poweron.covered_along hfits, (Fb.invariant_poweron.foldl events).pages,
    Fb.unprotect_handlers (Fb.invariant_poweron.foldl events)⟩

/-- One buffer of 320 by 240 pixels. -/
def oneBufferInfos : FrameBufferInfos := fun i =>
  if i.val = 0 then ⟨0x100000, 2, 320, 240⟩ else ⟨0, 0, 0, 0⟩

theorem oneBufferInfos_inside (i : Fin 6) :
    (oneBufferInfos i).addr + (oneBufferInfos i).bufferSize ≤ dramSize true := by
  revert i
  decide

def oneBuffer : FbReport true := ⟨oneBufferInfos, oneBufferInfos_inside⟩

/-- A word and a row of eight bytes are written to the buffer. -/
def oneBufferRun : List (FbEvent true) :=
  [.task oneBuffer, .store 0x40000 [0xffffffff], .rowToDram 0x100010 ⟨0, 0, 0, 0⟩]

theorem fbRun_covered_oneBuffer :
    Fb.Along Fb.Covered .poweron oneBufferRun ∧
      (∀ page ∈ (oneBufferRun.foldl Fb.step .poweron).pages, page < fbDirtyPagesCount) ∧
      ∀ region, (oneBufferRun.foldl Fb.step .poweron).unprotectFramebuffers.handlers region =
        .dram := by
  have hwhole : ∀ address ∈ [0x100000, 0x100010], ∀ n ∈ [4, 8],
      ChunksWhole (oneBuffer.infos 0) address n := by
    unfold ChunksWhole
    decide
  refine fbRun_covered oneBufferRun ⟨trivial, ⟨by decide, fun i haddr => ?_⟩, fun i haddr => ?_,
    trivial⟩
  · obtain rfl : i = 0 := by
      by_contra hne
      exact haddr (congrArg FrameBufferInfo.addr (if_neg fun h => hne (Fin.ext h)))
    exact ⟨.inr ⟨by decide, by decide, by decide, hwhole 0x100000 (by decide) 4 (by decide)⟩,
      trivial⟩
  · obtain rfl : i = 0 := by
      by_contra hne
      exact haddr (congrArg FrameBufferInfo.addr (if_neg fun h => hne (Fin.ext h)))
    exact .inr ⟨by decide, by decide, by decide, hwhole 0x100010 (by decide) 8 (by decide)⟩

end Mupen64plus
