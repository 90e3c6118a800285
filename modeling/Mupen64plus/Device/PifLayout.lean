import Mupen64plus.Device.SiTransfers

/-!
# The layout of the joybus channels in PIF RAM

`setup_channels_format` lays the channels out as the bytes of PIF RAM describe them, and
`process_channel` hands each of them to a joybus device. The lengths of a command are not compared
with the room behind it, and a scan that runs off the end of PIF RAM leaves the channels it did not
reach as an earlier scan laid them out.

## Main definitions

- `pifItem`, `pifScan` — what PIF RAM describes
- `Device.setupChannelsRound` — one round of the loop of `setup_channels_format`
- `JoybusConforms` — a joybus device stays with the bytes of its command
- `PifSafe` — the channels behind a scan are inside of PIF RAM, apart, and described by it
- `PifOrderly` — commands end inside of PIF RAM, and no channel is left over from an earlier scan

## Main results

- `setupChannelsFormat_scanned` — the channels behind a scan
- `pifSafe_iff` — the channels are safe exactly when PIF RAM is orderly
-/

namespace Mupen64plus

/-- The length in a byte of PIF RAM. -/
def lengthAt (ram : Bytes) (a : ℕ) : ℕ := (ram a &&& 0x3f).toNat

/-- What the PIF makes of the byte at an offset; a command comes with the bytes it takes. -/
inductive PifItem where
  | filler
  | skip
  | endMark
  | reset
  | truncated
  | command (length : ℕ)
  deriving DecidableEq, Repr

def commandLength (ram : Bytes) (i : ℕ) : ℕ := 2 + lengthAt ram i + lengthAt ram (i + 1)

def pifItem (ram : Bytes) (i : ℕ) : PifItem :=
  match (ram i).toNat with
  | 0x00 => .skip
  | 0xff => .filler
  | 0xfe => .endMark
  | 0xfd => .reset
  | _ =>
    if i + 1 < 64 ∧ ram (i + 1) = 0xfe then .filler
    else if 64 ≤ i + 2 then .truncated
    else .command (commandLength ram i)

/-- What PIF RAM says of one channel. -/
inductive PifSlot where
  | skip
  | reset
  | command (offset : ℕ)
  deriving DecidableEq, Repr

/-- The channels PIF RAM describes, and whether an end mark stands behind them. -/
structure PifScan where
  slots : List PifSlot
  closed : Bool
  deriving DecidableEq, Repr

namespace PifScan

def cons (slot : PifSlot) (s : PifScan) : PifScan := ⟨slot :: s.slots, s.closed⟩

def empty : PifScan := ⟨[], false⟩

end PifScan

/-- The description from an offset on, of so many channels at most. -/
def pifScan (ram : Bytes) : ℕ → ℕ → ℕ → PifScan
  | 0, _, _ => .empty
  | fuel + 1, i, left =>
    if i < 64 ∧ 0 < left then
      match pifItem ram i with
      | .filler => pifScan ram fuel (i + 1) left
      | .skip => .cons .skip (pifScan ram fuel (i + 1) (left - 1))
      | .endMark => ⟨[], true⟩
      | .reset => .cons .reset (pifScan ram fuel (i + 1) (left - 1))
      | .truncated => .empty
      | .command n => .cons (.command i) (pifScan ram fuel (i + n) (left - 1))
    else .empty

/-- The description of the five channels. -/
def pifDescribed (ram : Bytes) : PifScan := pifScan ram 70 0 5

/-- The channel as it is laid out for a description. -/
def PifSlot.channel (ram : Bytes) : PifSlot → Option PifChannel
  | .skip => none
  | .reset => some ⟨.dummyReset, 3⟩
  | .command i => some ⟨.ram i, 2 + lengthAt ram i⟩

/-- Channel number `n` behind a scan that found it as `old`. -/
def PifScan.channel (s : PifScan) (ram : Bytes) (old : Option PifChannel) (n : ℕ) :
    Option PifChannel :=
  match s.slots[n]? with
  | some slot => slot.channel ram
  | none => if s.closed then none else old

@[simp] theorem PifScan.channel_cons_zero (slot : PifSlot) (s : PifScan) (ram : Bytes)
    (old : Option PifChannel) : (s.cons slot).channel ram old 0 = slot.channel ram := rfl

@[simp] theorem PifScan.channel_cons_succ (slot : PifSlot) (s : PifScan) (ram : Bytes)
    (old : Option PifChannel) (n : ℕ) :
    (s.cons slot).channel ram old (n + 1) = s.channel ram old n := rfl

/-- PIF RAM wants channel number `n`. -/
def PifScan.describes (s : PifScan) (n : ℕ) : Prop := ∃ slot ∈ s.slots[n]?, slot ≠ .skip

-- ════════════════════
-- The loop
-- ════════════════════

/-- The variables of the loop of `setup_channels_format`. -/
structure PifLoop where
  device : Device
  offset : ℕ
  channel : ℕ

def PifLoop.Running (s : PifLoop) : Prop := s.offset < 64 ∧ s.channel < 5

namespace Device

/-- One round of the loop of `setup_channels_format`. -/
def setupChannelsRound (o : Outside) (s : PifLoop) : PifLoop :=
  if h : s.offset < 64 ∧ s.channel < 5 then
    let ch : Fin 5 := ⟨s.channel, h.2⟩
    match pifItem s.device.pif.ram s.offset with
    | .filler => ⟨s.device, s.offset + 1, s.channel⟩
    | .skip => ⟨s.device.disablePifChannel ch, s.offset + 1, s.channel + 1⟩
    | .endMark => ⟨s.device.disableFrom s.channel, s.offset, 5⟩
    | .reset =>
      ⟨(setupPifChannel o (s.device.resetCommand ch) ch .dummyReset).2, s.offset + 1,
        s.channel + 1⟩
    | .truncated => ⟨s.device, 64, s.channel⟩
    | .command n =>
      ⟨(setupPifChannel o s.device ch (.ram s.offset)).2, s.offset + n, s.channel + 1⟩
  else s

variable (o : Outside)

theorem setupChannelsLoop_stopped (fuel : ℕ) (d : Device) {i k : ℕ} (h : ¬(i < 64 ∧ k < 5)) :
    setupChannelsLoop o fuel d i k = d := by
  cases fuel with
  | zero => rfl
  | succ fuel => rw [setupChannelsLoop, dif_neg h]

theorem setupChannelsRound_stopped {s : PifLoop} (h : ¬s.Running) : setupChannelsRound o s = s :=
  dif_neg h

theorem setupChannelsLoop_succ (fuel : ℕ) (s : PifLoop) :
    setupChannelsLoop o (fuel + 1) s.device s.offset s.channel =
      setupChannelsLoop o fuel (setupChannelsRound o s).device (setupChannelsRound o s).offset
        (setupChannelsRound o s).channel := by
  by_cases hrunning : s.offset < 64 ∧ s.channel < 5
  · rw [setupChannelsLoop, dif_pos hrunning]
    unfold setupChannelsRound
    rw [dif_pos hrunning]
    split
    · next hbyte =>
      have hitem : pifItem s.device.pif.ram s.offset = .skip := by simp [pifItem, hbyte]
      rw [hitem]
    · next hbyte =>
      have hitem : pifItem s.device.pif.ram s.offset = .filler := by simp [pifItem, hbyte]
      rw [hitem]
    · next hbyte =>
      have hitem : pifItem s.device.pif.ram s.offset = .endMark := by simp [pifItem, hbyte]
      rw [hitem, setupChannelsLoop_stopped o fuel _ (by simp)]
    · next hbyte =>
      have hitem : pifItem s.device.pif.ram s.offset = .reset := by simp [pifItem, hbyte]
      rw [hitem]
    · next h0 hff hfe hfd =>
      split
      · next hbogus =>
        have hitem : pifItem s.device.pif.ram s.offset = .filler := by
          simp [pifItem, hbogus]
        rw [hitem]
      · next hbogus =>
        split
        · next hshort =>
          have hitem : pifItem s.device.pif.ram s.offset = .truncated := by
            simp only [pifItem, if_neg hbogus, if_pos hshort]
          rw [hitem, setupChannelsLoop_stopped o fuel _ (by simp)]
        · next hroom =>
          have hitem : pifItem s.device.pif.ram s.offset =
              .command (commandLength s.device.pif.ram s.offset) := by
            simp only [pifItem, if_neg hbogus, if_neg hroom]
          rw [hitem]
          rfl
  · rw [setupChannelsRound_stopped o hrunning, setupChannelsLoop_stopped o _ _ hrunning,
      setupChannelsLoop_stopped o _ _ hrunning]

theorem setupChannelsLoop_eq_iterate (fuel : ℕ) (s : PifLoop) :
    setupChannelsLoop o fuel s.device s.offset s.channel =
      ((setupChannelsRound o)^[fuel] s).device := by
  induction fuel generalizing s with
  | zero => rfl
  | succ fuel ih => rw [setupChannelsLoop_succ, ih, Function.iterate_succ_apply]

/-- The rounds that are left at most. -/
def roundsLeft (s : PifLoop) : ℕ := (64 - s.offset) + (5 - s.channel)

theorem roundsLeft_round {s : PifLoop} (h : s.Running) :
    roundsLeft (setupChannelsRound o s) < roundsLeft s := by
  obtain ⟨hoffset, hchannel⟩ := h
  unfold setupChannelsRound
  rw [dif_pos ⟨hoffset, hchannel⟩]
  cases hitem : pifItem s.device.pif.ram s.offset <;> simp only [roundsLeft] <;> omega

theorem setupChannelsRound_iterate_stops (n : ℕ) (s : PifLoop) (h : roundsLeft s ≤ n) :
    ¬((setupChannelsRound o)^[n] s).Running := by
  induction n generalizing s with
  | zero =>
    rintro ⟨hoffset, hchannel⟩
    simp only [Function.iterate_zero, id_eq, roundsLeft] at h hoffset hchannel
    omega
  | succ n ih =>
    rw [Function.iterate_succ_apply]
    by_cases hrunning : s.Running
    · have hless := roundsLeft_round o hrunning
      exact ih _ (by omega)
    · rw [setupChannelsRound_stopped o hrunning]
      have hfixed : (setupChannelsRound o)^[n] s = s :=
        Function.iterate_fixed (setupChannelsRound_stopped o hrunning) n
      rw [hfixed]
      exact hrunning

end Device

-- ════════════════════
-- Joybus devices
-- ════════════════════

namespace PifChannel

/-- The bytes of a channel: `tx`, `rx` and `tx_buf`, which stand next to each other, and
    `rx_buf`. -/
def Covers (c : PifChannel) (tx rx j : ℕ) : Prop :=
  j < 2 + tx ∨ (c.rxBuf ≤ j ∧ j < c.rxBuf + rx)

/-- What a joybus device reads of PIF RAM: its channel, and the command byte of an empty one. -/
def Reads (c : PifChannel) (ram : Bytes) (a : ℕ) : Prop :=
  ∃ off, c.buf = .ram off ∧ off ≤ a ∧
    (c.Covers (lengthAt ram off) (lengthAt ram (off + 1)) (a - off) ∨ a = off + 2)

/-- What a joybus device writes of PIF RAM: `rx` and `rx_buf`. -/
def Writes (c : PifChannel) (ram : Bytes) (a : ℕ) : Prop :=
  ∃ off, c.buf = .ram off ∧
    (a = off + 1 ∨ (off + c.rxBuf ≤ a ∧ a < off + c.rxBuf + lengthAt ram (off + 1)))

end PifChannel

/-- Joybus devices stay with the bytes of their command, whose lengths they leave alone, and set up
    nothing in PIF RAM. -/
structure JoybusConforms (o : Outside) : Prop where
  setupRam : ∀ k c v, (o.joybusPostSetup k c v).ram = v.ram
  setupReset : ∀ k c v, (o.joybusPostSetup k c v).dummyResetBuffer = v.dummyResetBuffer
  writes : ∀ k (c : PifChannel) v a, ¬c.Writes v.ram a → (o.joybusProcess k c v).ram a = v.ram a
  lengths : ∀ k (c : PifChannel) v off, c.buf = .ram off → 2 ≤ c.rxBuf →
    lengthAt (o.joybusProcess k c v).ram (off + 1) = lengthAt v.ram (off + 1)
  reads : ∀ k (c : PifChannel) (v : JoybusView) (ram : Bytes),
    (∀ a, c.Reads v.ram a → ram a = v.ram a) →
      ∃ ram', o.joybusProcess k c { v with ram := ram } =
          { o.joybusProcess k c v with ram := ram' } ∧
        ∀ a, c.Writes v.ram a → ram' a = (o.joybusProcess k c v).ram a

-- ════════════════════
-- The channels behind a scan
-- ════════════════════

/-- What a scan from channel `k` on makes of a device. -/
structure PifScanned (d d' : Device) (k : ℕ) (scan : PifScan) : Prop where
  ram : d'.pif.ram = d.pif.ram
  before : ∀ j : Fin 5, j.val < k → d'.pif.channels j = d.pif.channels j ∧
    d'.pif.dummyResetBuffer j = d.pif.dummyResetBuffer j
  channel : ∀ j : Fin 5, k ≤ j.val →
    d'.pif.channels j = scan.channel d.pif.ram (d.pif.channels j) (j.val - k)
  reset : ∀ j : Fin 5, k ≤ j.val → scan.slots[j.val - k]? = some .reset →
    d'.pif.dummyResetBuffer j 0 = 1 ∧ d'.pif.dummyResetBuffer j 1 = 3

namespace PifScanned

variable {d d₁ d' : Device} {k : ℕ} {scan : PifScan}

/-- A scan that found nothing more. -/
theorem stopped (d : Device) (k : ℕ) : PifScanned d d k .empty where
  ram := rfl
  before _ _ := ⟨rfl, rfl⟩
  channel _ _ := rfl
  reset _ _ h := by simp [PifScan.empty] at h

theorem closed (d : Device) (k : ℕ) : PifScanned d (d.disableFrom k) k ⟨[], true⟩ where
  ram := rfl
  before j hj := ⟨if_neg (by omega), rfl⟩
  channel j hj := if_pos hj
  reset _ _ h := by simp at h

/-- One channel is laid out, and the scan goes on with the next. -/
theorem step (slot : PifSlot) (hk : k < 5) (hram : d₁.pif.ram = d.pif.ram)
    (hother : ∀ j : Fin 5, j.val ≠ k → d₁.pif.channels j = d.pif.channels j ∧
      d₁.pif.dummyResetBuffer j = d.pif.dummyResetBuffer j)
    (hchannel : d₁.pif.channels ⟨k, hk⟩ = slot.channel d.pif.ram)
    (hreset : slot = .reset → d₁.pif.dummyResetBuffer ⟨k, hk⟩ 0 = 1 ∧
      d₁.pif.dummyResetBuffer ⟨k, hk⟩ 1 = 3)
    (hrest : PifScanned d₁ d' (k + 1) scan) : PifScanned d d' k (scan.cons slot) where
  ram := hrest.ram.trans hram
  before j hj := by
    obtain ⟨hc, hb⟩ := hrest.before j (by omega)
    obtain ⟨hc₁, hb₁⟩ := hother j (by omega)
    exact ⟨hc.trans hc₁, hb.trans hb₁⟩
  channel j hj := by
    by_cases hjk : j.val = k
    · obtain rfl : j = ⟨k, hk⟩ := Fin.ext hjk
      rw [(hrest.before ⟨k, hk⟩ (Nat.lt_succ_self k)).1, hchannel, Nat.sub_self,
        PifScan.channel_cons_zero]
    · obtain ⟨n, hn⟩ : ∃ n, j.val - k = n + 1 := ⟨j.val - k - 1, by omega⟩
      have hnext : j.val - (k + 1) = n := by omega
      rw [hrest.channel j (by omega), hnext, hn, hram, (hother j hjk).1, PifScan.channel_cons_succ]
  reset j hj hslot := by
    by_cases hjk : j.val = k
    · obtain rfl : j = ⟨k, hk⟩ := Fin.ext hjk
      rw [(hrest.before ⟨k, hk⟩ (Nat.lt_succ_self k)).2]
      exact hreset (by simpa [PifScan.cons] using hslot)
    · obtain ⟨n, hn⟩ : ∃ n, j.val - k = n + 1 := ⟨j.val - k - 1, by omega⟩
      have hnext : j.val - (k + 1) = n := by omega
      refine hrest.reset j (by omega) ?_
      rw [hn] at hslot
      rw [hnext]
      simpa [PifScan.cons] using hslot

end PifScanned

namespace Device

variable {o : Outside} (ho : JoybusConforms o)
include ho

theorem setupPifChannel_pif (d : Device) (k : Fin 5) (buf : ChannelBuf) :
    let d' := (setupPifChannel o d k buf).2
    d'.pif.ram = d.pif.ram ∧ d'.pif.dummyResetBuffer = d.pif.dummyResetBuffer ∧
      d'.pif.channels = Function.update d.pif.channels k
        (some ⟨buf, 2 + (d.channelByte k buf 0 &&& 0x3f).toNat⟩) := by
  unfold setupPifChannel joybus
  simp only [ho.setupRam, ho.setupReset]
  exact ⟨rfl, rfl, rfl⟩

/-- The reset command of a channel stands in its own row. -/
theorem setupReset_pif (d : Device) (k : Fin 5) :
    let d' := (setupPifChannel o (d.resetCommand k) k .dummyReset).2
    d'.pif.ram = d.pif.ram ∧
      d'.pif.channels = Function.update d.pif.channels k (some ⟨.dummyReset, 3⟩) ∧
      (∀ j, j ≠ k → d'.pif.dummyResetBuffer j = d.pif.dummyResetBuffer j) ∧
      d'.pif.dummyResetBuffer k 0 = 1 ∧ d'.pif.dummyResetBuffer k 1 = 3 := by
  obtain ⟨hram, hrows, hchannels⟩ :=
    setupPifChannel_pif ho (d.resetCommand k) k .dummyReset
  refine ⟨hram, ?_, ?_, ?_, ?_⟩
  · rw [hchannels]
    simp [resetCommand, setChannelByte, channelByte]
  · intro j hj
    rw [hrows]
    simp [resetCommand, setChannelByte, hj]
  · rw [hrows]
    simp [resetCommand, setChannelByte]
  · rw [hrows]
    simp [resetCommand, setChannelByte]

/-- **A scan** lays the channels out as PIF RAM describes them. -/
theorem setupChannelsLoop_scanned (fuel : ℕ) (d : Device) (i k : ℕ) :
    PifScanned d (setupChannelsLoop o fuel d i k) k (pifScan d.pif.ram fuel i (5 - k)) := by
  induction fuel generalizing d i k with
  | zero => exact .stopped d k
  | succ fuel ih =>
    have hsucc := setupChannelsLoop_succ o fuel ⟨d, i, k⟩
    simp only at hsucc
    rw [hsucc, pifScan]
    by_cases hrunning : i < 64 ∧ k < 5
    · have hleft : i < 64 ∧ 0 < 5 - k := ⟨hrunning.1, by omega⟩
      have hnext : 5 - k - 1 = 5 - (k + 1) := by omega
      unfold setupChannelsRound
      rw [dif_pos hrunning, if_pos hleft, hnext]
      simp only
      cases hitem : pifItem d.pif.ram i with
      | filler => exact ih d (i + 1) k
      | skip =>
        simp only
        have hrest := ih (d.disablePifChannel ⟨k, hrunning.2⟩) (i + 1) (k + 1)
        refine .step .skip hrunning.2 ?_ ?_ ?_ nofun hrest
        · rfl
        · intro j hj
          have hne : j ≠ ⟨k, hrunning.2⟩ := fun h => hj (congrArg Fin.val h)
          exact ⟨Function.update_of_ne hne _ _, rfl⟩
        · exact Function.update_self _ _ _
      | endMark =>
        rw [setupChannelsLoop_stopped o fuel _ (by simp)]
        exact .closed d k
      | reset =>
        obtain ⟨hram, hchannels, hrows, h0, h1⟩ := setupReset_pif ho d ⟨k, hrunning.2⟩
        simp only
        rw [← hram]
        refine .step .reset hrunning.2 hram ?_ ?_ (fun _ => ⟨h0, h1⟩) (ih _ (i + 1) (k + 1))
        · intro j hj
          have hne : j ≠ ⟨k, hrunning.2⟩ := fun h => hj (congrArg Fin.val h)
          exact ⟨by rw [hchannels, Function.update_of_ne hne], hrows j hne⟩
        · rw [hchannels, Function.update_self]
          rfl
      | truncated =>
        rw [setupChannelsLoop_stopped o fuel _ (by simp)]
        exact .stopped d k
      | command n =>
        obtain ⟨hram, hrows, hchannels⟩ := setupPifChannel_pif ho d ⟨k, hrunning.2⟩ (.ram i)
        have hrest := ih (setupPifChannel o d ⟨k, hrunning.2⟩ (.ram i)).2 (i + n) (k + 1)
        rw [hram] at hrest
        simp only
        refine .step (.command i) hrunning.2 hram ?_ ?_ nofun hrest
        · intro j hj
          have hne : j ≠ ⟨k, hrunning.2⟩ := fun h => hj (congrArg Fin.val h)
          exact ⟨by rw [hchannels, Function.update_of_ne hne], by rw [hrows]⟩
        · rw [hchannels, Function.update_self]
          rfl
    · have hleft : ¬(i < 64 ∧ 0 < 5 - k) := by omega
      have hstop : ¬PifLoop.Running ⟨d, i, k⟩ := hrunning
      rw [setupChannelsRound_stopped o hstop, if_neg hleft]
      simp only
      rw [setupChannelsLoop_stopped o fuel d hrunning]
      exact .stopped d k

end Device

-- ════════════════════
-- The description
-- ════════════════════

theorem pifItem_command {ram : Bytes} {i n : ℕ} (h : pifItem ram i = .command n) :
    n = commandLength ram i ∧ i + 2 < 64 := by
  unfold pifItem at h
  split at h
  · cases h
  · cases h
  · cases h
  · cases h
  · split at h
    · cases h
    · split at h
      · cases h
      · next hroom => exact ⟨(PifItem.command.inj h).symm, by omega⟩

theorem pifScan_length (ram : Bytes) (fuel i left : ℕ) :
    (pifScan ram fuel i left).slots.length ≤ left := by
  induction fuel generalizing i left with
  | zero => exact Nat.zero_le left
  | succ fuel ih =>
    unfold pifScan
    split
    · next hrunning =>
      have hcons : ∀ slot i, ((pifScan ram fuel i (left - 1)).cons slot).slots.length ≤ left := by
        intro slot i
        have hrest := ih i (left - 1)
        simp only [PifScan.cons, List.length_cons]
        omega
      cases pifItem ram i with
      | filler => exact ih (i + 1) left
      | skip => exact hcons .skip (i + 1)
      | endMark => exact Nat.zero_le left
      | reset => exact hcons .reset (i + 1)
      | truncated => exact Nat.zero_le left
      | command n => exact hcons (.command i) (i + n)
    · exact Nat.zero_le left

/-- The commands of a scan stand behind its offset. -/
theorem pifScan_offset {ram : Bytes} {fuel i left a : ℕ}
    (h : .command a ∈ (pifScan ram fuel i left).slots) : i ≤ a ∧ a + 2 < 64 := by
  induction fuel generalizing i left with
  | zero => cases h
  | succ fuel ih =>
    unfold pifScan at h
    split at h
    · cases hitem : pifItem ram i with
      | filler =>
        simp only [hitem] at h
        have hrest := ih h
        omega
      | skip =>
        simp only [hitem, PifScan.cons, List.mem_cons, reduceCtorEq, false_or] at h
        have hrest := ih h
        omega
      | endMark =>
        simp only [hitem] at h
        cases h
      | reset =>
        simp only [hitem, PifScan.cons, List.mem_cons, reduceCtorEq, false_or] at h
        have hrest := ih h
        omega
      | truncated =>
        simp only [hitem] at h
        cases h
      | command n =>
        obtain ⟨hn, hroom⟩ := pifItem_command hitem
        simp only [hitem, PifScan.cons, List.mem_cons, PifSlot.command.injEq] at h
        rcases h with rfl | h
        · exact ⟨le_refl a, hroom⟩
        · have hrest := ih h
          omega
    · cases h

/-- A command ends where the next one starts, at the latest. -/
def PifSlot.Before (ram : Bytes) (s t : PifSlot) : Prop :=
  ∀ a b, s = .command a → t = .command b → a + commandLength ram a ≤ b

theorem pifScan_pairwise (ram : Bytes) (fuel i left : ℕ) :
    (pifScan ram fuel i left).slots.Pairwise (PifSlot.Before ram) := by
  induction fuel generalizing i left with
  | zero => exact .nil
  | succ fuel ih =>
    unfold pifScan
    split
    · cases hitem : pifItem ram i with
      | filler => exact ih (i + 1) left
      | skip => exact .cons (fun t ht a b hs => nomatch hs) (ih (i + 1) (left - 1))
      | endMark => exact .nil
      | reset => exact .cons (fun t ht a b hs => nomatch hs) (ih (i + 1) (left - 1))
      | truncated => exact .nil
      | command n =>
        refine .cons ?_ (ih (i + n) (left - 1))
        rintro t ht a b hs rfl
        obtain rfl := PifSlot.command.inj hs
        rw [← (pifItem_command hitem).1]
        exact (pifScan_offset ht).1
    · exact .nil

-- ════════════════════
-- Safe channels
-- ════════════════════

/-- The bytes from a buffer on that may be used. -/
def ChannelBuf.room : ChannelBuf → ℕ
  | .ram offset => 64 - offset
  | .dummyReset => 6

def PifSlot.fits (ram : Bytes) : PifSlot → Bool
  | .command i => i + commandLength ram i ≤ 64
  | _ => true

namespace Device

def txLength (d : Device) (k : Fin 5) (c : PifChannel) : ℕ :=
  (d.channelByte k c.buf 0 &&& 0x3f).toNat

def rxLength (d : Device) (k : Fin 5) (c : PifChannel) : ℕ :=
  (d.channelByte k c.buf 1 &&& 0x3f).toNat

/-- Other bytes behind PIF RAM. -/
def withBehind (d : Device) (x : Bytes) : Device :=
  d.setRam fun a => if a < 64 then d.pif.ram a else x a

end Device

/-- The channels behind a scan: each inside of PIF RAM or of its reset command, apart from each
    other, disabled unless described, and processed without a byte from behind PIF RAM, read or
    written. -/
structure PifSafe (o : Outside) (d : Device) : Prop where
  terminates : ∃ n, ¬((Device.setupChannelsRound o)^[n] ⟨d, 0, 0⟩).Running ∧
    Device.setupChannelsFormat o d = ((Device.setupChannelsRound o)^[n] ⟨d, 0, 0⟩).device
  inside : ∀ k c, (Device.setupChannelsFormat o d).pif.channels k = some c →
    ∀ j, c.Covers ((Device.setupChannelsFormat o d).txLength k c)
      ((Device.setupChannelsFormat o d).rxLength k c) j → j < c.buf.room
  apart : ∀ k k' c c' off off', k ≠ k' →
    (Device.setupChannelsFormat o d).pif.channels k = some c → c.buf = .ram off →
    (Device.setupChannelsFormat o d).pif.channels k' = some c' → c'.buf = .ram off' →
    ∀ j j', c.Covers ((Device.setupChannelsFormat o d).txLength k c)
        ((Device.setupChannelsFormat o d).rxLength k c) j →
      c'.Covers ((Device.setupChannelsFormat o d).txLength k' c')
        ((Device.setupChannelsFormat o d).rxLength k' c') j' → off + j ≠ off' + j'
  disabled : ∀ k : Fin 5, ¬(pifDescribed d.pif.ram).describes k.val →
    (Device.setupChannelsFormat o d).pif.channels k = none
  confined : ∀ (ks : List (Fin 5)) (x : Bytes),
    ks.foldl (Device.processChannel o) ((Device.setupChannelsFormat o d).withBehind x) =
      (ks.foldl (Device.processChannel o) (Device.setupChannelsFormat o d)).withBehind x

/-- Every command ends inside of PIF RAM, and the scan meets an end mark, or reaches all channels
    that an earlier scan enabled. -/
structure PifOrderly (d : Device) : Prop where
  fits : ∀ slot ∈ (pifDescribed d.pif.ram).slots, slot.fits d.pif.ram = true
  reached : (pifDescribed d.pif.ram).closed = true ∨
    ∀ k : Fin 5, (pifDescribed d.pif.ram).slots.length ≤ k.val → d.pif.channels k = none

theorem setupChannelsFormat_scanned {o : Outside} (ho : JoybusConforms o) (d : Device) :
    PifScanned d (Device.setupChannelsFormat o d) 0 (pifDescribed d.pif.ram) :=
  Device.setupChannelsLoop_scanned ho 70 d 0 0

/-- The channels behind an orderly scan are reset commands and commands in PIF RAM. -/
theorem PifOrderly.channel {o : Outside} (ho : JoybusConforms o) {d : Device} (h : PifOrderly d)
    {k : Fin 5} {c : PifChannel} (hc : (Device.setupChannelsFormat o d).pif.channels k = some c) :
    ((pifDescribed d.pif.ram).slots[k.val]? = some .reset ∧ c = ⟨.dummyReset, 3⟩) ∨
      ∃ i, (pifDescribed d.pif.ram).slots[k.val]? = some (.command i) ∧
        c = ⟨.ram i, 2 + lengthAt d.pif.ram i⟩ := by
  have hchannel := (setupChannelsFormat_scanned ho d).channel k (Nat.zero_le _)
  rw [hc, Nat.sub_zero, PifScan.channel] at hchannel
  cases hslot : (pifDescribed d.pif.ram).slots[k.val]? with
  | none =>
    have hnone : d.pif.channels k = none ∨ (pifDescribed d.pif.ram).closed = true := by
      rcases h.reached with hclosed | hold
      · exact .inr hclosed
      · exact .inl (hold k (List.getElem?_eq_none_iff.mp hslot))
    rw [hslot] at hchannel
    simp only at hchannel
    rcases hnone with hnone | hclosed
    · rw [hnone, ite_self] at hchannel
      cases hchannel
    · rw [if_pos hclosed] at hchannel
      cases hchannel
  | some slot =>
    rw [hslot] at hchannel
    simp only at hchannel
    cases slot with
    | skip => cases hchannel
    | reset => exact .inl ⟨rfl, Option.some.inj hchannel⟩
    | command i => exact .inr ⟨i, rfl, Option.some.inj hchannel⟩

-- ════════════════════
-- Processing
-- ════════════════════

/-- Commands inside of PIF RAM, one behind the other. -/
structure PifLaid (d : Device) : Prop where
  shape : ∀ k c off, d.pif.channels k = some c → c.buf = .ram off →
    off + 2 < 64 ∧ c.rxBuf = 2 + lengthAt d.pif.ram off ∧
      off + c.rxBuf + lengthAt d.pif.ram (off + 1) ≤ 64
  apart : ∀ k k' c c' off off', k ≠ k' → d.pif.channels k = some c → c.buf = .ram off →
    d.pif.channels k' = some c' → c'.buf = .ram off' →
    off + c.rxBuf + lengthAt d.pif.ram (off + 1) ≤ off' ∨
      off' + c'.rxBuf + lengthAt d.pif.ram (off' + 1) ≤ off

/-- The channels are the same, and the lengths of their commands. -/
structure PifKept (d d' : Device) : Prop where
  channels : d'.pif.channels = d.pif.channels
  lengths : ∀ k c off, d.pif.channels k = some c → c.buf = .ram off →
    lengthAt d'.pif.ram off = lengthAt d.pif.ram off ∧
      lengthAt d'.pif.ram (off + 1) = lengthAt d.pif.ram (off + 1)

theorem PifKept.trans {d d' d'' : Device} (h : PifKept d d') (h' : PifKept d' d'') :
    PifKept d d'' where
  channels := h'.channels.trans h.channels
  lengths k c off hc hbuf := by
    obtain ⟨htx, hrx⟩ := h.lengths k c off hc hbuf
    obtain ⟨htx', hrx'⟩ := h'.lengths k c off (by rw [h.channels]; exact hc) hbuf
    exact ⟨htx'.trans htx, hrx'.trans hrx⟩

theorem PifLaid.congr {d d' : Device} (h : PifLaid d) (hkept : PifKept d d') : PifLaid d' where
  shape k c off hc hbuf := by
    rw [hkept.channels] at hc
    obtain ⟨htx, hrx⟩ := hkept.lengths k c off hc hbuf
    rw [htx, hrx]
    exact h.shape k c off hc hbuf
  apart k k' c c' off off' hne hc hbuf hc' hbuf' := by
    rw [hkept.channels] at hc hc'
    rw [(hkept.lengths k c off hc hbuf).2, (hkept.lengths k' c' off' hc' hbuf').2]
    exact h.apart k k' c c' off off' hne hc hbuf hc' hbuf'

theorem lengthAt_update (ram : Bytes) {a : ℕ} {b : BitVec 8} (h : b &&& 0x3f = ram a &&& 0x3f)
    (i : ℕ) : lengthAt (Function.update ram a b) i = lengthAt ram i := by
  unfold lengthAt
  by_cases hi : i = a
  · subst hi
    rw [Function.update_self, h]
  · rw [Function.update_of_ne hi]

namespace Device

variable (d : Device) (k : Fin 5) (buf : ChannelBuf)

/-- A store that leaves the length in a byte alone. -/
theorem setChannelByte_kept {j : ℕ} {b : BitVec 8}
    (h : b &&& 0x3f = d.channelByte k buf j &&& 0x3f) : PifKept d (d.setChannelByte k buf j b) := by
  cases buf with
  | ram off =>
    have hram : b &&& 0x3f = d.pif.ram (off + j) &&& 0x3f := h
    exact ⟨rfl, fun _ _ _ _ _ => ⟨lengthAt_update _ hram _, lengthAt_update _ hram _⟩⟩
  | dummyReset => exact ⟨rfl, fun _ _ _ _ _ => ⟨rfl, rfl⟩⟩

/-- A byte inside of PIF RAM is read the same whatever stands behind. -/
theorem channelByte_withBehind {j : ℕ} (h : ∀ off, buf = .ram off → off + j < 64) (x : Bytes) :
    (d.withBehind x).channelByte k buf j = d.channelByte k buf j := by
  cases buf with
  | ram off => exact if_pos (h off rfl)
  | dummyReset => rfl

theorem setChannelByte_withBehind {j : ℕ} (h : ∀ off, buf = .ram off → off + j < 64) (b : BitVec 8)
    (x : Bytes) :
    (d.withBehind x).setChannelByte k buf j b = (d.setChannelByte k buf j b).withBehind x := by
  cases buf with
  | ram off =>
    have hoff := h off rfl
    unfold withBehind setChannelByte setRam
    simp only
    congr 2
    funext a
    by_cases ha : a = off + j
    · subst ha
      rw [Function.update_self, if_pos hoff, Function.update_self]
    · rw [Function.update_of_ne ha, Function.update_of_ne ha]
  | dummyReset => rfl

/-- The two stores `process_channel` begins with. -/
def maskLengths : Device :=
  let d := d.setChannelByte k buf 0 (d.channelByte k buf 0 &&& 0x3f)
  d.setChannelByte k buf 1 (d.channelByte k buf 1 &&& 0x3f)

theorem maskLengths_kept : PifKept d (d.maskLengths k buf) := by
  have hmask : ∀ b : BitVec 8, b &&& 0x3f &&& 0x3f = b &&& 0x3f := by
    intro b
    rw [BitVec.and_assoc, BitVec.and_self]
  exact (setChannelByte_kept d k buf (hmask _)).trans (setChannelByte_kept _ k buf (hmask _))

theorem maskLengths_withBehind (h : ∀ off, buf = .ram off → off + 2 < 64) (x : Bytes) :
    (d.withBehind x).maskLengths k buf = (d.maskLengths k buf).withBehind x := by
  have h0 : ∀ off, buf = .ram off → off + 0 < 64 := fun off hbuf => by
    have := h off hbuf
    omega
  have h1 : ∀ off, buf = .ram off → off + 1 < 64 := fun off hbuf => by
    have := h off hbuf
    omega
  unfold maskLengths
  simp only
  rw [channelByte_withBehind d k buf h0, setChannelByte_withBehind d k buf h0,
    channelByte_withBehind _ k buf h1, setChannelByte_withBehind _ k buf h1]

end Device

theorem PifChannel.Writes.reads {c : PifChannel} {ram : Bytes} {a : ℕ} (h : c.Writes ram a) :
    c.Reads ram a := by
  obtain ⟨off, hbuf, ha⟩ := h
  refine ⟨off, hbuf, by omega, .inl ?_⟩
  unfold PifChannel.Covers
  omega

/-- A joybus device on other bytes behind those of its command. -/
theorem JoybusConforms.process_eq {o : Outside} (ho : JoybusConforms o) (k : Fin 5) (c : PifChannel)
    (v : JoybusView) (ram : Bytes) (hram : ∀ a, c.Reads v.ram a → ram a = v.ram a) :
    ∃ ram', o.joybusProcess k c { v with ram := ram } = { o.joybusProcess k c v with ram := ram' } ∧
      (∀ a, c.Writes v.ram a → ram' a = (o.joybusProcess k c v).ram a) ∧
      ∀ a, ¬c.Writes v.ram a → ram' a = ram a := by
  obtain ⟨ram', heq, hwritten⟩ := ho.reads k c v ram hram
  refine ⟨ram', heq, hwritten, fun a ha => ?_⟩
  have hkeep := ho.writes k c { v with ram := ram } a ?_
  · rw [heq] at hkeep
    exact hkeep
  · rintro ⟨off, hbuf, hwrites⟩
    -- the length of the answer is among the bytes the device reads
    have hread : c.Reads v.ram (off + 1) := by
      refine ⟨off, hbuf, by omega, .inl (.inl ?_)⟩
      omega
    have hlen : lengthAt ram (off + 1) = lengthAt v.ram (off + 1) := by
      unfold lengthAt
      rw [hram _ hread]
    simp only [hlen] at hwrites
    exact ha ⟨off, hbuf, hwrites⟩

namespace PifLaid

variable {o : Outside} {d : Device} {k : Fin 5} {c : PifChannel}

theorem reads_inside (h : PifLaid d) (hc : d.pif.channels k = some c) {a : ℕ}
    (ha : c.Reads d.pif.ram a) : a < 64 := by
  obtain ⟨off, hbuf, hle, hcovers⟩ := ha
  obtain ⟨hoff, hrx, hend⟩ := h.shape k c off hc hbuf
  unfold PifChannel.Covers at hcovers
  omega

theorem process_kept (ho : JoybusConforms o) (h : PifLaid d) (hc : d.pif.channels k = some c) :
    PifKept d (d.joybus (o.joybusProcess k c)) := by
  refine ⟨rfl, fun k' c' off' hc' hbuf' => ?_⟩
  obtain ⟨hoff', hrx', hend'⟩ := h.shape k' c' off' hc' hbuf'
  have hsame : ∀ a, ¬c.Writes d.pif.ram a →
      lengthAt (d.joybus (o.joybusProcess k c)).pif.ram a = lengthAt d.pif.ram a := by
    intro a ha
    exact congrArg (fun b : BitVec 8 => (b &&& 0x3f).toNat) (ho.writes k c d.joybusView a ha)
  by_cases hk : k' = k
  · subst hk
    obtain rfl : c' = c := Option.some.inj (hc'.symm.trans hc)
    refine ⟨hsame off' ?_, ho.lengths k' c' d.joybusView off' hbuf' (by omega)⟩
    rintro ⟨off, hbuf, hwrites⟩
    obtain rfl : off' = off := ChannelBuf.ram.inj (hbuf'.symm.trans hbuf)
    omega
  · -- the bytes of another channel stand before or behind those that are written
    have hfar : ∀ a, a = off' ∨ a = off' + 1 → ¬c.Writes d.pif.ram a := by
      rintro a ha ⟨off, hbuf, hwrites⟩
      obtain ⟨hoff, hrx, hend⟩ := h.shape k c off hc hbuf
      have hapart := h.apart k' k c' c off' off hk hc' hbuf' hc hbuf
      omega
    exact ⟨hsame off' (hfar _ (.inl rfl)), hsame (off' + 1) (hfar _ (.inr rfl))⟩

theorem process_withBehind (ho : JoybusConforms o) (h : PifLaid d) (hc : d.pif.channels k = some c)
    (x : Bytes) :
    (d.withBehind x).joybus (o.joybusProcess k c) =
      (d.joybus (o.joybusProcess k c)).withBehind x := by
  obtain ⟨ram', heq, hwritten, hkept⟩ := ho.process_eq k c d.joybusView
    (fun a => if a < 64 then d.pif.ram a else x a) fun a ha => if_pos (h.reads_inside hc ha)
  have hram : ram' = fun a => if a < 64 then (o.joybusProcess k c d.joybusView).ram a else x a := by
    funext a
    by_cases ha : c.Writes d.pif.ram a
    · rw [hwritten a ha, if_pos (h.reads_inside hc ha.reads)]
    · rw [hkept a ha, ho.writes k c d.joybusView a ha]
      rfl
  have hview : (d.withBehind x).joybusView =
      { d.joybusView with ram := fun a => if a < 64 then d.pif.ram a else x a } := rfl
  unfold Device.joybus
  simp only [hview, heq, hram]
  rfl

/-- **One channel** is processed inside of PIF RAM, and stays as it is laid out. -/
theorem processChannel (ho : JoybusConforms o) (h : PifLaid d) (k : Fin 5) (x : Bytes) :
    PifKept d (d.processChannel o k) ∧
      Device.processChannel o (d.withBehind x) k = (Device.processChannel o d k).withBehind x := by
  cases hc : d.pif.channels k with
  | none =>
    have hnone : ∀ e : Device, e.pif.channels k = none → e.processChannel o k = e := by
      intro e he
      rw [Device.processChannel, he]
    rw [hnone d hc, hnone (d.withBehind x) hc]
    exact ⟨⟨rfl, fun _ _ _ _ _ => ⟨rfl, rfl⟩⟩, rfl⟩
  | some c =>
    have hsome : ∀ e : Device, e.pif.channels k = some c → e.processChannel o k =
        if o.joybusConnected k then (e.maskLengths k c.buf).joybus (o.joybusProcess k c)
        else (e.maskLengths k c.buf).setChannelByte k c.buf 1
          ((e.maskLengths k c.buf).channelByte k c.buf 1 ||| 0x80) := by
      intro e he
      rw [Device.processChannel, he]
      rfl
    have hinside : ∀ off, c.buf = .ram off → off + 2 < 64 := fun off hbuf =>
      (h.shape k c off hc hbuf).1
    have hmask := d.maskLengths_kept k c.buf
    rw [hsome d hc, hsome (d.withBehind x) hc, d.maskLengths_withBehind k c.buf hinside]
    have hlaid := h.congr hmask
    have hc' : (d.maskLengths k c.buf).pif.channels k = some c := by rw [hmask.channels, hc]
    generalize d.maskLengths k c.buf = e at hmask hlaid hc'
    split
    · exact ⟨hmask.trans (hlaid.process_kept ho hc'), hlaid.process_withBehind ho hc' x⟩
    · have hone : ∀ off, c.buf = .ram off → off + 1 < 64 := fun off hbuf => by
        have := hinside off hbuf
        omega
      have hnoResponse : ∀ b : BitVec 8, (b ||| 0x80) &&& 0x3f = b &&& 0x3f := by
        intro b
        exact Flags.or_and_of_disjoint (by decide)
      rw [Device.channelByte_withBehind e k c.buf hone,
        Device.setChannelByte_withBehind e k c.buf hone]
      exact ⟨hmask.trans (Device.setChannelByte_kept e k c.buf (hnoResponse _)), rfl⟩

theorem foldl_processChannel (ho : JoybusConforms o) (h : PifLaid d) (ks : List (Fin 5))
    (x : Bytes) :
    ks.foldl (Device.processChannel o) (d.withBehind x) =
      (ks.foldl (Device.processChannel o) d).withBehind x := by
  induction ks generalizing d with
  | nil => rfl
  | cons k ks ih =>
    obtain ⟨hkept, heq⟩ := h.processChannel ho k x
    rw [List.foldl_cons, List.foldl_cons, heq]
    exact ih (h.congr hkept)

end PifLaid

-- ════════════════════
-- When the channels are safe
-- ════════════════════

theorem setupChannelsFormat_terminates (o : Outside) (d : Device) :
    ∃ n, ¬((Device.setupChannelsRound o)^[n] ⟨d, 0, 0⟩).Running ∧
      Device.setupChannelsFormat o d = ((Device.setupChannelsRound o)^[n] ⟨d, 0, 0⟩).device := by
  refine ⟨70, ?_, Device.setupChannelsLoop_eq_iterate o 70 ⟨d, 0, 0⟩⟩
  exact Device.setupChannelsRound_iterate_stops o 70 ⟨d, 0, 0⟩ (by simp [Device.roundsLeft])

namespace PifOrderly

variable {o : Outside} {d : Device}

theorem laid (ho : JoybusConforms o) (h : PifOrderly d) : PifLaid (d.setupChannelsFormat o) := by
  have hram := (setupChannelsFormat_scanned ho d).ram
  have hcommand : ∀ k c off, (d.setupChannelsFormat o).pif.channels k = some c → c.buf = .ram off →
      (pifDescribed d.pif.ram).slots[k.val]? = some (.command off) ∧
        c.rxBuf = 2 + lengthAt d.pif.ram off := by
    intro k c off hc hbuf
    rcases h.channel ho hc with ⟨-, rfl⟩ | ⟨i, hslot, rfl⟩
    · cases hbuf
    · obtain rfl := ChannelBuf.ram.inj hbuf
      exact ⟨hslot, rfl⟩
  constructor
  · intro k c off hc hbuf
    obtain ⟨hslot, hrx⟩ := hcommand k c off hc hbuf
    have hmem := List.mem_of_getElem? hslot
    have hfits : off + commandLength d.pif.ram off ≤ 64 := by
      have hfits := h.fits _ hmem
      simpa [PifSlot.fits] using hfits
    rw [hram, hrx]
    unfold commandLength at hfits
    exact ⟨(pifScan_offset hmem).2, rfl, by omega⟩
  · -- the command of a lower channel stands before that of a higher one
    have hbefore : ∀ (k k' : Fin 5) off off', k.val < k'.val →
        (pifDescribed d.pif.ram).slots[k.val]? = some (.command off) →
        (pifDescribed d.pif.ram).slots[k'.val]? = some (.command off') →
        off + commandLength d.pif.ram off ≤ off' := by
      intro k k' off off' hlt hslot hslot'
      obtain ⟨hk, hget⟩ := List.getElem?_eq_some_iff.mp hslot
      obtain ⟨hk', hget'⟩ := List.getElem?_eq_some_iff.mp hslot'
      have hpair := List.pairwise_iff_getElem.mp (pifScan_pairwise d.pif.ram 70 0 5) k.val k'.val hk
        hk' hlt
      exact hpair off off' hget hget'
    intro k k' c c' off off' hne hc hbuf hc' hbuf'
    obtain ⟨hslot, hrx⟩ := hcommand k c off hc hbuf
    obtain ⟨hslot', hrx'⟩ := hcommand k' c' off' hc' hbuf'
    rw [hram, hrx, hrx']
    rcases Nat.lt_or_gt_of_ne (fun hval => hne (Fin.ext hval)) with hlt | hgt
    · have hle := hbefore k k' off off' hlt hslot hslot'
      unfold commandLength at hle
      exact .inl (by omega)
    · have hle := hbefore k' k off' off hgt hslot' hslot
      unfold commandLength at hle
      exact .inr (by omega)

theorem safe (ho : JoybusConforms o) (h : PifOrderly d) : PifSafe o d := by
  have hlaid := h.laid ho
  have hscanned := setupChannelsFormat_scanned ho d
  have hlength : ∀ k c off, c.buf = .ram off →
      (d.setupChannelsFormat o).txLength k c = lengthAt (d.setupChannelsFormat o).pif.ram off ∧
        (d.setupChannelsFormat o).rxLength k c =
          lengthAt (d.setupChannelsFormat o).pif.ram (off + 1) := by
    rintro k ⟨buf, rxBuf⟩ off hbuf
    simp only at hbuf
    subst hbuf
    exact ⟨rfl, rfl⟩
  refine ⟨setupChannelsFormat_terminates o d, ?_, ?_, ?_, hlaid.foldl_processChannel ho⟩
  · intro k c hc j hj
    rcases h.channel ho hc with ⟨hslot, rfl⟩ | ⟨i, hslot, rfl⟩
    · obtain ⟨h0, h1⟩ := hscanned.reset k (Nat.zero_le _) hslot
      have htx : (d.setupChannelsFormat o).txLength k ⟨.dummyReset, 3⟩ = 1 := by
        change ((d.setupChannelsFormat o).pif.dummyResetBuffer k 0 &&& 0x3f).toNat = 1
        rw [h0]
        rfl
      have hrx : (d.setupChannelsFormat o).rxLength k ⟨.dummyReset, 3⟩ = 3 := by
        change ((d.setupChannelsFormat o).pif.dummyResetBuffer k 1 &&& 0x3f).toNat = 3
        rw [h1]
        rfl
      rw [htx, hrx] at hj
      simp only [PifChannel.Covers, ChannelBuf.room] at hj ⊢
      omega
    · obtain ⟨htx, hrx⟩ := hlength k ⟨.ram i, 2 + lengthAt d.pif.ram i⟩ i rfl
      obtain ⟨hoff, hbuf, hend⟩ := hlaid.shape k _ i hc rfl
      rw [htx, hrx] at hj
      simp only [PifChannel.Covers, ChannelBuf.room] at hj hbuf hend ⊢
      omega
  · intro k k' c c' off off' hne hc hbuf hc' hbuf' j j' hj hj'
    obtain ⟨htx, hrx⟩ := hlength k c off hbuf
    obtain ⟨htx', hrx'⟩ := hlength k' c' off' hbuf'
    obtain ⟨-, hrxBuf, -⟩ := hlaid.shape k c off hc hbuf
    obtain ⟨-, hrxBuf', -⟩ := hlaid.shape k' c' off' hc' hbuf'
    have hapart := hlaid.apart k k' c c' off off' hne hc hbuf hc' hbuf'
    rw [htx, hrx] at hj
    rw [htx', hrx'] at hj'
    unfold PifChannel.Covers at hj hj'
    omega
  · intro k hnot
    by_contra hsome
    obtain ⟨c, hc⟩ := Option.ne_none_iff_exists'.mp hsome
    rcases h.channel ho hc with ⟨hslot, -⟩ | ⟨i, hslot, -⟩
    · exact hnot ⟨_, hslot, nofun⟩
    · exact hnot ⟨_, hslot, nofun⟩

end PifOrderly

theorem PifSafe.orderly {o : Outside} (ho : JoybusConforms o) {d : Device} (h : PifSafe o d) :
    PifOrderly d := by
  have hscanned := setupChannelsFormat_scanned ho d
  constructor
  · intro slot hmem
    cases slot with
    | skip => rfl
    | reset => rfl
    | command i =>
      obtain ⟨n, hn, hget⟩ := List.getElem_of_mem hmem
      have hlt : n < 5 := Nat.lt_of_lt_of_le hn (pifScan_length d.pif.ram 70 0 5)
      have hslot : (pifDescribed d.pif.ram).slots[n]? = some (.command i) := by
        rw [List.getElem?_eq_getElem hn, hget]
      let c : PifChannel := ⟨.ram i, 2 + lengthAt d.pif.ram i⟩
      have hc : (d.setupChannelsFormat o).pif.channels ⟨n, hlt⟩ = some c := by
        rw [hscanned.channel ⟨n, hlt⟩ (Nat.zero_le _), Nat.sub_zero, PifScan.channel, hslot]
        rfl
      have hinside := h.inside ⟨n, hlt⟩ c hc
      have htx : (d.setupChannelsFormat o).txLength ⟨n, hlt⟩ c = lengthAt d.pif.ram i := by
        rw [← hscanned.ram]
        rfl
      have hrx : (d.setupChannelsFormat o).rxLength ⟨n, hlt⟩ c = lengthAt d.pif.ram (i + 1) := by
        rw [← hscanned.ram]
        rfl
      rw [htx, hrx] at hinside
      have hoff := (pifScan_offset hmem).2
      have hlast := hinside (commandLength d.pif.ram i - 1) (by
        simp only [PifChannel.Covers, commandLength, c]
        omega)
      simp only [ChannelBuf.room, commandLength, c] at hlast
      have hle : i + commandLength d.pif.ram i ≤ 64 := by
        unfold commandLength
        omega
      simpa [PifSlot.fits] using hle
  · by_cases hclosed : (pifDescribed d.pif.ram).closed = true
    · exact .inl hclosed
    · refine .inr fun k hk => ?_
      have hslot := List.getElem?_eq_none_iff.mpr hk
      have hnone := h.disabled k fun ⟨slot, hmem, _⟩ => by
        rw [hslot] at hmem
        cases hmem
      rw [hscanned.channel k (Nat.zero_le _), Nat.sub_zero, PifScan.channel, hslot] at hnone
      simpa [hclosed] using hnone

/-- **The channel layout**: with joybus devices that stay with their commands, the channels behind a
    scan are safe exactly when PIF RAM is orderly. -/
theorem pifSafe_iff (o : Outside) (ho : JoybusConforms o) (d : Device) :
    PifSafe o d ↔ PifOrderly d :=
  ⟨fun h => h.orderly ho, fun h => h.safe ho⟩

instance (d : Device) : Decidable (PifOrderly d) :=
  decidable_of_iff
    ((∀ slot ∈ (pifDescribed d.pif.ram).slots, slot.fits d.pif.ram = true) ∧
      ((pifDescribed d.pif.ram).closed = true ∨
        ∀ k : Fin 5, (pifDescribed d.pif.ram).slots.length ≤ k.val → d.pif.channels k = none))
    ⟨fun h => ⟨h.1, h.2⟩, fun h => ⟨h.fits, h.reached⟩⟩

/-- A standard controller in the first port, with no button pressed, as far as the command that
    reads its buttons goes. -/
def padProcess (c : PifChannel) (v : JoybusView) : JoybusView :=
  match c.buf with
  | .dummyReset => v
  | .ram off =>
    if v.ram (off + 2) ≠ 0x01 then v
    else if lengthAt v.ram off = 1 ∧ lengthAt v.ram (off + 1) = 4 then
      { v with ram := fun a =>
        if off + c.rxBuf ≤ a ∧ a < off + c.rxBuf + 4 then 0 else v.ram a }
    else { v with ram := Function.update v.ram (off + 1) (v.ram (off + 1) ||| 0x40) }

def padOutside : Outside :=
  { quietOutside with joybusConnected := (· == 0), joybusProcess := fun _ => padProcess }

theorem padOutside_conforms : JoybusConforms padOutside where
  setupRam _ _ _ := rfl
  setupReset _ _ _ := rfl
  writes k c v a h := by
    change (padProcess c v).ram a = v.ram a
    unfold padProcess
    cases hbuf : c.buf with
    | dummyReset => rfl
    | ram off =>
      simp only
      split
      · rfl
      · split
        · next hformat =>
          refine if_neg fun hrange => h ⟨off, hbuf, .inr ?_⟩
          rw [hformat.2]
          exact hrange
        · refine Function.update_of_ne (fun ha => h ⟨off, hbuf, .inl ha⟩) _ _
  lengths k c v off hbuf hrx := by
    change lengthAt (padProcess c v).ram (off + 1) = lengthAt v.ram (off + 1)
    unfold padProcess
    rw [hbuf]
    simp only
    split
    · rfl
    · split
      · exact congrArg (fun b : BitVec 8 => (b &&& 0x3f).toNat) (if_neg (by omega))
      · exact lengthAt_update v.ram (Flags.or_and_of_disjoint (by decide)) _
  reads k c v ram hram := by
    change ∃ ram', padProcess c { v with ram := ram } = { padProcess c v with ram := ram' } ∧
      ∀ a, c.Writes v.ram a → ram' a = (padProcess c v).ram a
    unfold padProcess
    cases hbuf : c.buf with
    | dummyReset => exact ⟨ram, rfl, fun a ha => hram a ha.reads⟩
    | ram off =>
      have hread : ∀ j, j < 3 → ram (off + j) = v.ram (off + j) := by
        intro j hj
        refine hram _ ⟨off, hbuf, by omega, ?_⟩
        unfold PifChannel.Covers
        omega
      have h0 := hread 0 (by omega)
      have h1 := hread 1 (by omega)
      have h2 := hread 2 (by omega)
      have hlen : lengthAt ram off = lengthAt v.ram off ∧
          lengthAt ram (off + 1) = lengthAt v.ram (off + 1) := by
        unfold lengthAt
        rw [← h1, ← Nat.add_zero off, h0]
        exact ⟨rfl, rfl⟩
      simp only [h1, h2, hlen]
      split
      · exact ⟨ram, rfl, fun a ha => hram a ha.reads⟩
      · split
        · refine ⟨_, rfl, fun a ha => ?_⟩
          simp only
          rw [hram a ha.reads]
        · refine ⟨_, rfl, fun a ha => ?_⟩
          simp only [Function.update_apply]
          rw [hram a ha.reads]

/-- PIF RAM with a read of the buttons, a reset and an end mark. -/
def padRam : Bytes := fun a =>
  [0x01, 0x04, 0x01, 0xff, 0xff, 0xff, 0xff, 0xfd, 0xfe].getD a 0

theorem pifSafe_pad : PifSafe padOutside (freshConsole.setRam padRam) :=
  (pifSafe_iff padOutside padOutside_conforms _).mpr (by decide)

/-- PIF RAM whose last four bytes are a read of the buttons. -/
def overrunningRam : Bytes := fun a =>
  if a < 60 then 0xff else [0x01, 0x04, 0x01, 0xff].getD (a - 60) 0

/-- The answer to a command at the end of PIF RAM is laid out behind it. -/
theorem pif_overruns :
    ¬∀ (o : Outside), JoybusConforms o → ∀ d : Device, PifSafe o d := by
  intro h
  have hsafe := h padOutside padOutside_conforms (freshConsole.setRam overrunningRam)
  have hlast := hsafe.inside 0 ⟨.ram 60, 3⟩ (by decide) 6 (by
    right
    decide)
  exact absurd hlast (by decide)

end Mupen64plus
