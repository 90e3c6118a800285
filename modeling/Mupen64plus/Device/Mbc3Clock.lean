import Mupen64plus.Device.GbCart

/-!
# The clock of an MBC3

What `update_rtc_regs` makes of the time of day and of the day counter over any number of updates.
Seconds, minutes and hours are always right. The day counter has nine bits, of which bit 8 and the
carry lie in the upper day register.

## Main definitions

- `Mbc3Rtc.clock` — the registers as a number of seconds
- `Mbc3Rtc.advance`, `Mbc3Rtc.advances` — an update after so many seconds, and a list of them
- `Mbc3Rtc.Keeps` — the clock has advanced by a number of seconds
- `Mbc3Rtc.FitsRun` — the condition

## Main results

- `Mbc3Rtc.exactRun_iff`
-/

namespace Mupen64plus

namespace Mbc3Rtc

/-- The ranges of the time of day. -/
structure InRange (rtc : Mbc3Rtc) : Prop where
  seconds : (rtc.regs 0).toNat < 60
  minutes : (rtc.regs 1).toNat < 60
  hours : (rtc.regs 2).toNat < 24

/-- The day counter, of nine bits. -/
def day (rtc : Mbc3Rtc) : ℕ := 256 * (rtc.regs 4 &&& 0x01).toNat + (rtc.regs 3).toNat

/-- The registers as a number of seconds. -/
def clock (rtc : Mbc3Rtc) : ℕ :=
  ((rtc.day * 24 + (rtc.regs 2).toNat) * 60 + (rtc.regs 1).toNat) * 60 + (rtc.regs 0).toNat

/-- The day carry. -/
def overflowed (rtc : Mbc3Rtc) : Bool := rtc.regs 4 &&& 0x80 != 0

/-- The seconds after which the day counter is the same again. -/
def period : ℕ := 512 * 86400

/-- An update `n` seconds after the last one. -/
def advance (rtc : Mbc3Rtc) (n : BitVec 63) : Mbc3Rtc :=
  updateRtcRegs (rtc.lastTime + n.setWidth 64) rtc

/-- Updates, each so many seconds after the one before. -/
def advances (rtc : Mbc3Rtc) (elapsed : List (BitVec 63)) : Mbc3Rtc := elapsed.foldl advance rtc

/-- The seconds of a list of updates. -/
def total (elapsed : List (BitVec 63)) : ℕ := (elapsed.map BitVec.toNat).sum

/-- The clock has advanced by `n` seconds: the time of day is in its ranges, the counter is right,
and the carry is set where the counter has overflowed and never cleared. -/
structure Keeps (rtc rtc' : Mbc3Rtc) (n : ℕ) : Prop where
  inRange : rtc'.InRange
  clock : rtc'.clock = (rtc.clock + n) % period
  overflowed : rtc'.overflowed = (rtc.overflowed || decide (period ≤ rtc.clock + n))

/-- After each of the updates the clock has advanced by all seconds so far. -/
def ExactRun (rtc : Mbc3Rtc) (elapsed : List (BitVec 63)) : Prop :=
  ∀ k, rtc.Keeps (rtc.advances (elapsed.take k)) (total (elapsed.take k))

/-- The day, as a count that does not overflow, `n` seconds later. -/
def dayAfter (rtc : Mbc3Rtc) (n : ℕ) : ℕ := (rtc.clock + n) / 86400

/-- The days the counter loses where midnight wraps its lower register around. -/
def lost (rtc : Mbc3Rtc) (n : ℕ) : ℕ :=
  if rtc.regs 3 = 255 ∧ 86400 ≤ rtc.clock % 86400 + n % 86400 then 256 else 0

/-- The new day needs no bit 8. Where the counter overflows, the carry is set already, or the 32 bit
sum of days is above 511 without the days that are lost. -/
def Fits (rtc : Mbc3Rtc) (n : ℕ) : Prop :=
  n = 0 ∨ rtc.dayAfter n % 512 < 256 ∧ (rtc.overflowed = true ∨ rtc.dayAfter n < 512 ∨
    512 ≤ (rtc.dayAfter n - rtc.lost n) % 2 ^ 32)

instance decidableFits (rtc : Mbc3Rtc) (n : ℕ) : Decidable (rtc.Fits n) :=
  inferInstanceAs (Decidable (_ ∨ _))

/-- Each update fits. -/
def FitsRun (rtc : Mbc3Rtc) : List (BitVec 63) → Prop
  | [] => True
  | n :: rest => rtc.Fits n.toNat ∧ (rtc.advance n).FitsRun rest

instance decidableFitsRun : (rtc : Mbc3Rtc) → (l : List (BitVec 63)) → Decidable (rtc.FitsRun l)
  | _, [] => isTrue trivial
  | rtc, n :: rest =>
    haveI := decidableFitsRun (rtc.advance n) rest
    inferInstanceAs (Decidable (rtc.Fits n.toNat ∧ (rtc.advance n).FitsRun rest))

-- ════════════════════
-- The carries of the time of day
-- ════════════════════

section

variable {regs : Fin 5 → BitVec 8} {reg next : Fin 5} {limit : BitVec 8} {n : ℕ}

theorem rtcCarry_sum (hlimit : limit.toNat ≤ 128)
    (hlt : (regs reg).toNat + n < 2 * limit.toNat) :
    (regs reg + BitVec.ofNat 8 n).toNat = (regs reg).toNat + n := by
  rw [BitVec.toNat_add, BitVec.toNat_ofNat]
  omega

theorem rtcCarry_self (hne : reg ≠ next) (hlimit : limit.toNat ≤ 128)
    (hlt : (regs reg).toNat + n < 2 * limit.toNat) :
    (rtcCarry regs reg next limit n reg).toNat = ((regs reg).toNat + n) % limit.toNat := by
  have hv := rtcCarry_sum hlimit hlt
  unfold rtcCarry
  dsimp only
  split
  · next hle =>
    have hle' : limit.toNat ≤ (regs reg).toNat + n := by
      rw [← hv]
      exact BitVec.le_def.mp hle
    rw [Function.update_of_ne hne, Function.update_self, BitVec.toNat_sub_of_le hle, hv,
      Nat.mod_eq_sub_mod hle', Nat.mod_eq_of_lt (by omega)]
  · next hlt' =>
    rw [BitVec.le_def, hv] at hlt'
    rw [Function.update_self, hv, Nat.mod_eq_of_lt (by omega)]

theorem rtcCarry_next (hne : reg ≠ next) (hlimit : limit.toNat ≤ 128)
    (hlt : (regs reg).toNat + n < 2 * limit.toNat) :
    rtcCarry regs reg next limit n next =
      regs next + BitVec.ofNat 8 (((regs reg).toNat + n) / limit.toNat) := by
  have hv := rtcCarry_sum hlimit hlt
  unfold rtcCarry
  dsimp only
  split
  · next hle =>
    rw [BitVec.le_def, hv] at hle
    have hone : ((regs reg).toNat + n) / limit.toNat = 1 := Nat.div_eq_of_lt_le
      (by omega) (by omega)
    rw [Function.update_self, Function.update_of_ne hne.symm, hone]
    rfl
  · next hlt' =>
    rw [BitVec.le_def, hv, not_le] at hlt'
    rw [Function.update_of_ne hne.symm, Nat.div_eq_of_lt hlt', BitVec.add_zero]

theorem rtcCarry_other {i : Fin 5} (hi : i ≠ reg) (hi' : i ≠ next) :
    rtcCarry regs reg next limit n i = regs i := by
  unfold rtcCarry
  dsimp only
  split
  · rw [Function.update_of_ne hi', Function.update_of_ne hi]
  · rw [Function.update_of_ne hi]

end

-- ════════════════════
-- The day counter
-- ════════════════════

/-- The sum of days, as it is before it is stored into the two registers. -/
def daySum (low high : BitVec 8) (n : ℕ) : BitVec 32 :=
  ((high.setWidth 32 &&& 0x01#32) <<< 8 ||| low.setWidth 32) + BitVec.ofNat 32 n

theorem daySum_toNat (low high : BitVec 8) (n : ℕ) :
    (daySum low high n).toNat = (256 * (high &&& 0x01).toNat + low.toNat + n) % 2 ^ 32 := by
  have hpair : (((high.setWidth 32 &&& 0x01#32) <<< 8) ||| low.setWidth 32).toNat =
      256 * (high &&& 0x01).toNat + low.toNat := by
    have hlow : (high.setWidth 32 &&& 0x01#32) = (high &&& 0x01#8).setWidth 32 := by
      rw [BitVec.setWidth_and]
      rfl
    have hbit : (high &&& 0x01#8).toNat < 2 := by
      rw [BitVec.toNat_and]
      exact lt_of_le_of_lt Nat.and_le_right (by decide)
    have hlt := low.isLt
    rw [hlow, BitVec.toNat_or, BitVec.toNat_shiftLeft, BitVec.toNat_setWidth,
      BitVec.toNat_setWidth, Nat.mod_eq_of_lt (by omega : (high &&& 0x01#8).toNat < 2 ^ 32),
      Nat.mod_eq_of_lt (by omega : low.toNat < 2 ^ 32), Nat.shiftLeft_eq,
      Nat.mod_eq_of_lt (by omega), mul_comm, ← Nat.two_pow_add_eq_or_of_lt hlt]
    rfl
  unfold daySum
  rw [BitVec.toNat_add, hpair, BitVec.toNat_ofNat]
  omega

/-- Bit 8 of the days does not fit into the upper day register. -/
theorem highDay_eq (high : BitVec 8) (days : BitVec 32) :
    (high.setWidth 32 &&& ~~~0x01#32 ||| days &&& 0x100#32).setWidth 8 = high &&& ~~~0x01 := by
  rw [BitVec.setWidth_or, BitVec.setWidth_and, BitVec.setWidth_and,
    BitVec.setWidth_setWidth_of_le _ (by decide), BitVec.setWidth_eq]
  have hbit : (0x100#32).setWidth 8 = 0#8 := by decide
  have hmask : (~~~0x01#32).setWidth 8 = ~~~0x01#8 := by decide
  rw [hbit, hmask, BitVec.and_zero, BitVec.or_zero]
  rfl

theorem lowDay_eq (days : BitVec 32) : ((days &&& 0xff).setWidth 8).toNat = days.toNat % 256 := by
  rw [BitVec.toNat_setWidth, BitVec.toNat_and]
  show (days.toNat &&& 2 ^ 8 - 1) % 2 ^ 8 = _
  rw [Nat.and_two_pow_sub_one_eq_mod, Nat.mod_mod]

/-- The upper day register after an update. -/
def highDay (high : BitVec 8) (days : BitVec 32) : BitVec 8 :=
  if 511 < days then (high &&& ~~~0x01) ||| 0x80 else high &&& ~~~0x01

theorem highDay_low (high : BitVec 8) (days : BitVec 32) : highDay high days &&& 0x01 = 0 := by
  unfold highDay
  split
  · exact (by decide : ∀ h : BitVec 8, ((h &&& ~~~0x01) ||| 0x80) &&& 0x01 = 0) high
  · exact (by decide : ∀ h : BitVec 8, (h &&& ~~~0x01) &&& 0x01 = 0) high

theorem highDay_carry (high : BitVec 8) (days : BitVec 32) :
    (highDay high days &&& 0x80 != 0) = (high &&& 0x80 != 0 || decide (511 < days)) := by
  unfold highDay
  split
  · next hlt =>
    rw [decide_eq_true hlt, Bool.or_true]
    exact (by decide : ∀ h : BitVec 8, (((h &&& ~~~0x01) ||| 0x80) &&& 0x80 != 0) = true) high
  · next hle =>
    rw [decide_eq_false hle, Bool.or_false]
    exact (by decide : ∀ h : BitVec 8,
      ((h &&& ~~~0x01) &&& 0x80 != 0) = (h &&& 0x80 != 0)) high

theorem highDay_other (high : BitVec 8) (days : BitVec 32) :
    highDay high days &&& 0x7e = high &&& 0x7e := by
  unfold highDay
  split
  · exact (by decide : ∀ h : BitVec 8, ((h &&& ~~~0x01) ||| 0x80) &&& 0x7e = h &&& 0x7e) high
  · exact (by decide : ∀ h : BitVec 8, (h &&& ~~~0x01) &&& 0x7e = h &&& 0x7e) high

-- ════════════════════
-- One update
-- ════════════════════

variable {rtc rtc' : Mbc3Rtc} {n : ℕ}

theorem lost_mod (rtc : Mbc3Rtc) (n : ℕ) : rtc.lost n % 256 = 0 := by
  unfold lost
  split <;> rfl

/-- The registers after the three carries of `n` seconds. -/
def carried (rtc : Mbc3Rtc) (n : ℕ) : Fin 5 → BitVec 8 :=
  rtcCarry (rtcCarry (rtcCarry rtc.regs 0 1 60 (n % 60)) 1 2 60 (n / 60 % 60)) 2 3 24
    (n / 60 / 60 % 24)

/-- The minutes that end within `n` seconds. -/
def minutes (rtc : Mbc3Rtc) (n : ℕ) : ℕ := ((rtc.regs 0).toNat + n) / 60

/-- The hours that end within `n` seconds. -/
def hours (rtc : Mbc3Rtc) (n : ℕ) : ℕ := ((rtc.regs 1).toNat + rtc.minutes n) / 60

/-- The days that end within `n` seconds. -/
def days (rtc : Mbc3Rtc) (n : ℕ) : ℕ := ((rtc.regs 2).toNat + rtc.hours n) / 24

theorem day_lt (rtc : Mbc3Rtc) : rtc.day < 512 := by
  have hlow := (rtc.regs 3).isLt
  have hbit : (rtc.regs 4 &&& 0x01).toNat < 2 := by
    rw [BitVec.toNat_and]
    exact lt_of_le_of_lt Nat.and_le_right (by decide)
  unfold day
  omega

theorem clock_add (rtc : Mbc3Rtc) (n : ℕ) : rtc.clock + n =
    (((rtc.day + rtc.days n) * 24 + ((rtc.regs 2).toNat + rtc.hours n) % 24) * 60 +
      ((rtc.regs 1).toNat + rtc.minutes n) % 60) * 60 + ((rtc.regs 0).toNat + n) % 60 := by
  unfold clock days hours minutes
  omega

theorem dayAfter_eq : rtc.dayAfter n = rtc.day + rtc.days n := by
  unfold dayAfter
  rw [clock_add]
  omega

theorem secondOfDay (h : rtc.InRange) : rtc.clock % 86400 =
    ((rtc.regs 2).toNat * 60 + (rtc.regs 1).toNat) * 60 + (rtc.regs 0).toNat := by
  have hs := h.seconds
  have hm := h.minutes
  have hh := h.hours
  unfold clock
  omega

/-- Where midnight is carried into the day counter. -/
theorem midnight_iff (h : rtc.InRange) :
    86400 ≤ rtc.clock % 86400 + n % 86400 ↔ rtc.days n = n / 60 / 60 / 24 + 1 := by
  have hs := h.seconds
  have hm := h.minutes
  have hh := h.hours
  rw [secondOfDay h]
  unfold days hours minutes
  omega

theorem days_bounds (h : rtc.InRange) :
    n / 60 / 60 / 24 ≤ rtc.days n ∧ rtc.days n ≤ n / 60 / 60 / 24 + 1 := by
  have hs := h.seconds
  have hm := h.minutes
  have hh := h.hours
  unfold days hours minutes
  omega

theorem lost_le (h : rtc.InRange) : rtc.lost n ≤ rtc.dayAfter n := by
  have hb := days_bounds (n := n) h
  have hmid := midnight_iff (n := n) h
  rw [dayAfter_eq]
  unfold lost
  split
  · next hlost =>
    have hlow : (rtc.regs 3).toNat = 255 := by
      rw [hlost.1]
      rfl
    have hday := hmid.mp hlost.2
    unfold day
    omega
  · exact Nat.zero_le _

section

variable (h : rtc.InRange)

include h

theorem carried_seconds : (rtc.carried n 0).toNat = ((rtc.regs 0).toNat + n) % 60 := by
  have hs := h.seconds
  unfold carried
  rw [rtcCarry_other (by decide) (by decide), rtcCarry_other (by decide) (by decide),
    rtcCarry_self (by decide) (by decide) (by show _ < 2 * 60; omega)]
  show ((rtc.regs 0).toNat + n % 60) % 60 = _
  omega

/-- The minutes after the first carry. -/
theorem carry_minutes : (rtcCarry rtc.regs 0 1 60 (n % 60) 1).toNat =
    (rtc.regs 1).toNat + ((rtc.regs 0).toNat + n % 60) / 60 := by
  have hs := h.seconds
  have hm := h.minutes
  rw [rtcCarry_next (by decide) (by decide) (by show _ < 2 * 60; omega), BitVec.toNat_add,
    BitVec.toNat_ofNat]
  show ((rtc.regs 1).toNat + ((rtc.regs 0).toNat + n % 60) / 60 % 2 ^ 8) % 2 ^ 8 = _
  omega

theorem carried_minutes :
    (rtc.carried n 1).toNat = ((rtc.regs 1).toNat + rtc.minutes n) % 60 := by
  have hs := h.seconds
  have hm := h.minutes
  have hc := carry_minutes (n := n) h
  unfold carried minutes
  rw [rtcCarry_other (by decide) (by decide),
    rtcCarry_self (by decide) (by decide) (by rw [hc]; show _ < 2 * 60; omega), hc]
  show _ % 60 = _
  omega

/-- The hours after the second carry. -/
theorem carry_hours : (rtcCarry (rtcCarry rtc.regs 0 1 60 (n % 60)) 1 2 60
    (n / 60 % 60) 2).toNat = (rtc.regs 2).toNat +
      ((rtc.regs 1).toNat + ((rtc.regs 0).toNat + n % 60) / 60 + n / 60 % 60) / 60 := by
  have hs := h.seconds
  have hm := h.minutes
  have hh := h.hours
  have hc := carry_minutes (n := n) h
  rw [rtcCarry_next (by decide) (by decide) (by rw [hc]; show _ < 2 * 60; omega), hc,
    rtcCarry_other (by decide) (by decide), BitVec.toNat_add, BitVec.toNat_ofNat]
  show ((rtc.regs 2).toNat + ((rtc.regs 1).toNat + ((rtc.regs 0).toNat + n % 60) / 60 +
    n / 60 % 60) / 60 % 2 ^ 8) % 2 ^ 8 = _
  omega

theorem carried_hours : (rtc.carried n 2).toNat = ((rtc.regs 2).toNat + rtc.hours n) % 24 := by
  have hs := h.seconds
  have hm := h.minutes
  have hh := h.hours
  have hc := carry_hours (n := n) h
  unfold carried hours minutes
  rw [rtcCarry_self (by decide) (by decide) (by rw [hc]; show _ < 2 * 24; omega), hc]
  show _ % 24 = _
  omega

/-- The lower day register after the third carry. -/
theorem carried_lowDay : (rtc.carried n 3).toNat =
    ((rtc.regs 3).toNat + (rtc.days n - n / 60 / 60 / 24)) % 256 := by
  have hs := h.seconds
  have hm := h.minutes
  have hh := h.hours
  have hc := carry_hours (n := n) h
  have hother : rtcCarry (rtcCarry rtc.regs 0 1 60 (n % 60)) 1 2 60 (n / 60 % 60) 3 =
      rtc.regs 3 := by
    rw [rtcCarry_other (by decide) (by decide), rtcCarry_other (by decide) (by decide)]
  unfold carried days hours minutes
  rw [rtcCarry_next (by decide) (by decide) (by rw [hc]; show _ < 2 * 24; omega), hc, hother,
    BitVec.toNat_add, BitVec.toNat_ofNat]
  show ((rtc.regs 3).toNat + _ / 24 % 2 ^ 8) % 2 ^ 8 = _
  omega

end

theorem carried_highDay : rtc.carried n 4 = rtc.regs 4 := by
  unfold carried
  rw [rtcCarry_other (by decide) (by decide), rtcCarry_other (by decide) (by decide),
    rtcCarry_other (by decide) (by decide)]

/-- The days of an update of `n` seconds. -/
def newDays (rtc : Mbc3Rtc) (n : ℕ) : BitVec 32 :=
  daySum (rtc.carried n 3) (rtc.regs 4) (n / 60 / 60 / 24)

theorem newDays_toNat (h : rtc.InRange) :
    (rtc.newDays n).toNat = (rtc.dayAfter n - rtc.lost n) % 2 ^ 32 := by
  have hb := days_bounds (n := n) h
  have hlow := (rtc.regs 3).isLt
  have hmid := midnight_iff (n := n) h
  have hfull : rtc.regs 3 = 255 ↔ (rtc.regs 3).toNat = 255 := BitVec.toNat_inj.symm
  unfold newDays lost
  rw [daySum_toNat, carried_lowDay h, dayAfter_eq]
  simp only [hmid, hfull]
  unfold day
  split <;> omega

section

variable {d : BitVec 63}

theorem advance_zero : rtc.advance 0 = rtc := by
  unfold advance updateRtcRegs
  simp

theorem advance_of_pos (hd : d ≠ 0) : rtc.advance d =
    { rtc with
      lastTime := rtc.lastTime + d.setWidth 64
      regs := Function.update (Function.update (rtc.carried d.toNat) 3
        ((rtc.newDays d.toNat &&& 0xff).setWidth 8)) 4
        (highDay (rtc.regs 4) (rtc.newDays d.toNat)) } := by
  have hdiff : rtc.lastTime + d.setWidth 64 - rtc.lastTime = d.setWidth 64 :=
    add_sub_cancel_left _ _
  have hnat : (d.setWidth 64).toNat = d.toNat :=
    BitVec.toNat_setWidth_of_le (by decide)
  have hpos : 0 < (d.setWidth 64).toInt := by
    have hlt := d.isLt
    have hne : d.toNat ≠ 0 := fun h0 => hd (BitVec.eq_of_toNat_eq (by simpa using h0))
    rw [BitVec.toInt_eq_toNat_cond, hnat]
    omega
  unfold advance updateRtcRegs
  dsimp only
  rw [hdiff, if_pos hpos, hnat]
  refine congrArg
    (fun regs => { rtc with lastTime := rtc.lastTime + d.setWidth 64, regs := regs }) ?_
  have hhigh : rtcCarry (rtcCarry (rtcCarry rtc.regs 0 1 60 (d.toNat % 60)) 1 2 60
      (d.toNat / 60 % 60)) 2 3 24 (d.toNat / 60 / 60 % 24) 4 = rtc.regs 4 := carried_highDay
  simp only [Function.update_of_ne (show (4 : Fin 5) ≠ 3 by decide), hhigh, highDay_eq]
  unfold highDay
  split
  · next hlt =>
    have hlt' : 511 < rtc.newDays d.toNat := hlt
    rw [if_pos hlt', Function.update_self, Function.update_idem]
    rfl
  · next hge =>
    have hge' : ¬ 511 < rtc.newDays d.toNat := hge
    rw [if_neg hge']
    rfl

theorem advance_regs (hd : d ≠ 0) (i : Fin 5) (hi : i < 3) :
    (rtc.advance d).regs i = rtc.carried d.toNat i := by
  rw [advance_of_pos hd]
  dsimp only
  rw [Function.update_of_ne (by rintro rfl; exact absurd hi (by decide)),
    Function.update_of_ne (by rintro rfl; exact absurd hi (by decide))]

theorem advance_lowDay (hd : d ≠ 0) :
    ((rtc.advance d).regs 3).toNat = (rtc.newDays d.toNat).toNat % 256 := by
  rw [advance_of_pos hd]
  dsimp only
  rw [Function.update_of_ne (by decide), Function.update_self, lowDay_eq]

theorem advance_highDay (hd : d ≠ 0) :
    (rtc.advance d).regs 4 = highDay (rtc.regs 4) (rtc.newDays d.toNat) := by
  rw [advance_of_pos hd]
  dsimp only
  rw [Function.update_self]

/-- The time of day is always right. -/
theorem advance_inRange (h : rtc.InRange) : (rtc.advance d).InRange := by
  by_cases hd : d = 0
  · rw [hd, advance_zero]
    exact h
  · refine ⟨?_, ?_, ?_⟩
    · rw [advance_regs hd 0 (by decide), carried_seconds h]
      exact Nat.mod_lt _ (by decide)
    · rw [advance_regs hd 1 (by decide), carried_minutes h]
      exact Nat.mod_lt _ (by decide)
    · rw [advance_regs hd 2 (by decide), carried_hours h]
      exact Nat.mod_lt _ (by decide)

theorem advance_day (h : rtc.InRange) (hd : d ≠ 0) :
    (rtc.advance d).day = rtc.dayAfter d.toNat % 256 := by
  have hmod := lost_mod rtc d.toNat
  have hle := lost_le (n := d.toNat) h
  unfold day
  rw [advance_highDay hd, highDay_low, advance_lowDay hd, newDays_toNat h]
  show 256 * 0 + _ = _
  omega

theorem advance_clock (h : rtc.InRange) (hd : d ≠ 0) :
    (rtc.advance d).clock = rtc.dayAfter d.toNat % 256 * 86400 + (rtc.clock + d.toNat) % 86400 := by
  unfold clock
  rw [advance_day h hd, advance_regs hd 0 (by decide), advance_regs hd 1 (by decide),
    advance_regs hd 2 (by decide), carried_seconds h, carried_minutes h, carried_hours h]
  have hadd := clock_add rtc d.toNat
  unfold clock at hadd
  omega

theorem advance_overflowed (h : rtc.InRange) (hd : d ≠ 0) : (rtc.advance d).overflowed =
    (rtc.overflowed || decide (512 ≤ (rtc.dayAfter d.toNat - rtc.lost d.toNat) % 2 ^ 32)) := by
  unfold overflowed
  rw [advance_highDay hd, highDay_carry]
  refine congrArg _ (decide_eq_decide.mpr ?_)
  rw [BitVec.lt_def, newDays_toNat h]
  exact Iff.rfl

/-- Of an update that takes time, the day and the carry decide. -/
theorem keeps_advance_iff_of_pos (h : rtc.InRange) (hd : d ≠ 0) :
    rtc.Keeps (rtc.advance d) d.toNat ↔ rtc.dayAfter d.toNat % 256 = rtc.dayAfter d.toNat % 512 ∧
      (rtc.overflowed || decide (512 ≤ (rtc.dayAfter d.toNat - rtc.lost d.toNat) % 2 ^ 32)) =
        (rtc.overflowed || decide (512 ≤ rtc.dayAfter d.toNat)) := by
  have hperiod : period ≤ rtc.clock + d.toNat ↔ 512 ≤ rtc.dayAfter d.toNat := by
    unfold period dayAfter
    omega
  have hmod : (rtc.clock + d.toNat) % period =
      rtc.dayAfter d.toNat % 512 * 86400 + (rtc.clock + d.toNat) % 86400 := by
    unfold period dayAfter
    omega
  constructor
  · intro hk
    have hclock := hk.clock
    have hov := hk.overflowed
    rw [advance_clock h hd, hmod] at hclock
    rw [advance_overflowed h hd] at hov
    simp only [hperiod] at hov
    exact ⟨by omega, hov⟩
  · rintro ⟨hday, hov⟩
    refine ⟨advance_inRange h, ?_, ?_⟩
    · rw [advance_clock h hd, hmod, hday]
    · rw [advance_overflowed h hd, hov]
      simp only [hperiod]

theorem keeps_self (h : rtc.InRange) : rtc.Keeps rtc 0 := by
  have hlt : rtc.clock < period := by
    have hs := h.seconds
    have hm := h.minutes
    have hh := h.hours
    have hlow := (rtc.regs 3).isLt
    have hday := rtc.day_lt
    unfold clock period
    omega
  refine ⟨h, (Nat.mod_eq_of_lt hlt).symm, ?_⟩
  rw [Nat.add_zero, decide_eq_false (not_le.mpr hlt), Bool.or_false]

/-- One update advances the clock where it fits. -/
theorem keeps_advance_iff (h : rtc.InRange) :
    rtc.Keeps (rtc.advance d) d.toNat ↔ rtc.Fits d.toNat := by
  by_cases hd : d = 0
  · subst hd
    rw [advance_zero]
    exact iff_of_true (keeps_self h) (Or.inl rfl)
  · have hne : d.toNat ≠ 0 := fun h0 => hd (BitVec.eq_of_toNat_eq (by simpa using h0))
    rw [keeps_advance_iff_of_pos h hd]
    unfold Fits
    rw [or_iff_right hne]
    have hlost := Nat.mod_le (rtc.dayAfter d.toNat - rtc.lost d.toNat) (2 ^ 32)
    refine and_congr (by omega) ?_
    cases rtc.overflowed with
    | true => simp
    | false =>
      simp only [Bool.false_or, decide_eq_decide, Bool.false_eq_true, false_or]
      omega

-- ════════════════════
-- A list of updates
-- ════════════════════

/-- Two stretches of time after each other: where the first is kept, the whole is kept if and only
if the second is. -/
theorem Keeps.trans_iff {rtc'' : Mbc3Rtc} {m : ℕ} (h : rtc.Keeps rtc' n) :
    rtc.Keeps rtc'' (n + m) ↔ rtc'.Keeps rtc'' m := by
  have hclock : (rtc.clock + (n + m)) % period = (rtc'.clock + m) % period := by
    rw [h.clock, ← Nat.add_assoc, Nat.mod_add_mod]
  have hov : (rtc.overflowed || decide (period ≤ rtc.clock + (n + m))) =
      (rtc'.overflowed || decide (period ≤ rtc'.clock + m)) := by
    rw [h.overflowed, Bool.or_assoc]
    refine congrArg _ ?_
    have hc := h.clock
    by_cases hlt : period ≤ rtc.clock + n
    · rw [decide_eq_true hlt, decide_eq_true (by omega), Bool.true_or]
    · rw [decide_eq_false hlt, Bool.false_or, hc, Nat.mod_eq_of_lt (by omega), Nat.add_assoc]
  constructor
  · intro hk
    exact ⟨hk.inRange, hk.clock.trans hclock, hk.overflowed.trans hov⟩
  · intro hk
    exact ⟨hk.inRange, hk.clock.trans hclock.symm, hk.overflowed.trans hov.symm⟩

theorem total_cons (l : List (BitVec 63)) : total (d :: l) = d.toNat + total l := rfl

theorem exactRun_cons (h : rtc.InRange) (l : List (BitVec 63)) :
    rtc.ExactRun (d :: l) ↔ rtc.Keeps (rtc.advance d) d.toNat ∧ (rtc.advance d).ExactRun l := by
  constructor
  · intro hrun
    have hstep : rtc.Keeps (rtc.advance d) d.toNat := hrun 1
    exact ⟨hstep, fun k => hstep.trans_iff.mp (hrun (k + 1))⟩
  · rintro ⟨hstep, hrun⟩ k
    cases k with
    | zero => exact keeps_self h
    | succ k => exact hstep.trans_iff.mpr (hrun k)

theorem exactRun_iff_fitsRun (h : rtc.InRange) (l : List (BitVec 63)) :
    rtc.ExactRun l ↔ rtc.FitsRun l := by
  induction l generalizing rtc with
  | nil =>
    refine iff_of_true (fun k => ?_) trivial
    rw [List.take_nil]
    exact keeps_self h
  | cons d l ih =>
    rw [exactRun_cons h, keeps_advance_iff h, ih (advance_inRange h)]
    exact Iff.rfl

-- ════════════════════
-- How the time is split
-- ════════════════════

/-- What an update leaves as it is, with the time of the last update. -/
theorem advance_frame (rtc : Mbc3Rtc) (d : BitVec 63) :
    (rtc.advance d).lastTime = rtc.lastTime + BitVec.ofNat 64 d.toNat ∧
    (rtc.advance d).latch = rtc.latch ∧ (rtc.advance d).latchedRegs = rtc.latchedRegs ∧
    (rtc.advance d).regs 4 &&& 0x7e = rtc.regs 4 &&& 0x7e := by
  have hofNat : d.setWidth 64 = BitVec.ofNat 64 d.toNat := (BitVec.ofNat_toNat ..).symm
  by_cases hd : d = 0
  · subst hd
    rw [advance_zero]
    exact ⟨(BitVec.add_zero _).symm, rfl, rfl, rfl⟩
  · rw [advance_highDay hd, highDay_other, advance_of_pos hd, ← hofNat]
    exact ⟨rfl, rfl, rfl, rfl⟩

theorem advances_frame (rtc : Mbc3Rtc) (l : List (BitVec 63)) :
    (rtc.advances l).lastTime = rtc.lastTime + BitVec.ofNat 64 (total l) ∧
      (rtc.advances l).latch = rtc.latch ∧ (rtc.advances l).latchedRegs = rtc.latchedRegs ∧
      (rtc.advances l).regs 4 &&& 0x7e = rtc.regs 4 &&& 0x7e := by
  induction l generalizing rtc with
  | nil => exact ⟨(BitVec.add_zero _).symm, rfl, rfl, rfl⟩
  | cons d l ih =>
    obtain ⟨htime, hlatch, hlatched, hflags⟩ := advance_frame rtc d
    obtain ⟨htime', hlatch', hlatched', hflags'⟩ := ih (rtc.advance d)
    refine ⟨?_, hlatch'.trans hlatch, hlatched'.trans hlatched, hflags'.trans hflags⟩
    rw [total_cons, BitVec.ofNat_add, ← BitVec.add_assoc, ← htime]
    exact htime'

theorem highDay_parts : ∀ a : BitVec 8,
    a = (a &&& 0x01) ||| (a &&& 0x7e) ||| (if a &&& 0x80 != 0 then 0x80 else 0) := by decide

theorem highDay_ext {a b : BitVec 8} (hlow : a &&& 0x01 = b &&& 0x01)
    (hflags : a &&& 0x7e = b &&& 0x7e) (hcarry : (a &&& 0x80 != 0) = (b &&& 0x80 != 0)) :
    a = b := by
  rw [highDay_parts a, highDay_parts b, hlow, hflags, hcarry]

/-- The clock and the carry determine the registers but for the other bits of the last one. -/
theorem regs_eq (h : rtc.InRange) (h' : rtc'.InRange) (hclock : rtc.clock = rtc'.clock)
    (hov : rtc.overflowed = rtc'.overflowed)
    (hflags : rtc.regs 4 &&& 0x7e = rtc'.regs 4 &&& 0x7e) : rtc.regs = rtc'.regs := by
  have hs := h.seconds
  have hm := h.minutes
  have hh := h.hours
  have hs' := h'.seconds
  have hm' := h'.minutes
  have hh' := h'.hours
  have hlow := (rtc.regs 3).isLt
  have hlow' := (rtc'.regs 3).isLt
  unfold clock day at hclock
  funext i
  match i with
  | 0 => exact BitVec.eq_of_toNat_eq (by omega)
  | 1 => exact BitVec.eq_of_toNat_eq (by omega)
  | 2 => exact BitVec.eq_of_toNat_eq (by omega)
  | 3 => exact BitVec.eq_of_toNat_eq (by omega)
  | 4 => exact highDay_ext (BitVec.eq_of_toNat_eq (by omega)) hflags hov

theorem advances_eq (h : rtc.InRange) {l l' : List (BitVec 63)} (htotal : total l' = total l)
    (hl : rtc.FitsRun l) (hl' : rtc.FitsRun l') : rtc.advances l' = rtc.advances l := by
  have hk := (exactRun_iff_fitsRun h l).mpr hl l.length
  have hk' := (exactRun_iff_fitsRun h l').mpr hl' l'.length
  rw [List.take_length] at hk hk'
  obtain ⟨htime, hlatch, hlatched, hflags⟩ := advances_frame rtc l
  obtain ⟨htime', hlatch', hlatched', hflags'⟩ := advances_frame rtc l'
  rw [htotal] at hk' htime'
  have hregs := regs_eq hk'.inRange hk.inRange (hk'.clock.trans hk.clock.symm)
    (hk'.overflowed.trans hk.overflowed.symm) (hflags'.trans hflags.symm)
  have heq : ∀ a b : Mbc3Rtc, a.regs = b.regs → a.latch = b.latch →
      a.latchedRegs = b.latchedRegs → a.lastTime = b.lastTime → a = b := by
    rintro ⟨⟩ ⟨⟩ rfl rfl rfl rfl
    rfl
  exact heq _ _ hregs (hlatch'.trans hlatch.symm) (hlatched'.trans hlatched.symm)
    (htime'.trans htime.symm)

/-- Over any number of updates the clock advances exactly if and only if each of them fits, and how
the time is split does not matter between lists of updates that fit. -/
theorem exactRun_iff (rtc : Mbc3Rtc) (h : rtc.InRange) (l : List (BitVec 63)) :
    (rtc.ExactRun l ↔ rtc.FitsRun l) ∧ ∀ l', total l' = total l → rtc.FitsRun l →
      rtc.FitsRun l' → rtc.advances l' = rtc.advances l :=
  ⟨exactRun_iff_fitsRun h l, fun _ htotal hl hl' => advances_eq h htotal hl hl'⟩

/-- Day `low` of the first 256, one second before midnight. -/
def beforeMidnight (low : BitVec 8) : Mbc3Rtc :=
  { regs := fun i => match i with
      | 0 => 59
      | 1 => 59
      | 2 => 23
      | 3 => low
      | 4 => 0
    latch := 0
    latchedRegs := fun _ => 0
    lastTime := 0 }

theorem beforeMidnight_inRange (low : BitVec 8) : (beforeMidnight low).InRange :=
  ⟨(by decide : (59 : BitVec 8).toNat < 60), (by decide : (59 : BitVec 8).toNat < 60),
    (by decide : (23 : BitVec 8).toNat < 24)⟩

/-- From day 7 two seconds in one update and in two. -/
theorem day7_exact :
    ((beforeMidnight 7).ExactRun [2] ↔ (beforeMidnight 7).FitsRun [2]) ∧
      (beforeMidnight 7).advances [1, 1] = (beforeMidnight 7).advances [2] :=
  have hrun := exactRun_iff (beforeMidnight 7) (beforeMidnight_inRange 7) [2]
  ⟨hrun.1, hrun.2 [1, 1] (by decide) (by decide) (by decide)⟩

/-- At the end of day 255 the counter goes back to day 0. -/
theorem day255_lost :
    ¬ ∀ (rtc : Mbc3Rtc), rtc.InRange → ∀ l, rtc.ExactRun l := by
  intro hall
  have hclock := (hall _ (beforeMidnight_inRange 255) [1] 1).clock
  revert hclock
  decide

end

end Mbc3Rtc

end Mupen64plus
