/-
  Rish.SoftVm.Rtc — the calendar the CMOS clock reports.

  Proved: up to the end of the year 9999 the clock's registers are the BCD fields of the one date and
  time that is the boot time after the epoch (`clock_tells_boot_time`).
-/

import Rish.Lib.Calendar
import Rish.SoftVm.Chipset

namespace Rish.SoftVm.Cmos

open Lib Date

/-! ## The day-of-era formulas -/

theorem yearOfEra_eq {yoe doy} (hy : yoe < 400) (h : doy < marchLength yoe) :
    marchDays yoe + doy < 146097 ∧
      ((marchDays yoe + doy) - (marchDays yoe + doy) / 1460 + (marchDays yoe + doy) / 36524 -
        (marchDays yoe + doy) / 146096) / 365 = yoe := by
  have hlen : doy ≤ 364 ∨ doy = 365 ∧ 4 ∣ yoe + 1 ∧ (¬100 ∣ yoe + 1 ∨ yoe = 399) := by
    unfold marchLength IsLeap at h; split at h <;> omega
  have hdays : marchDays yoe = 365 * yoe + yoe / 4 - yoe / 100 := by unfold marchDays; omega
  rw [hdays]
  generalize hdoe : 365 * yoe + yoe / 4 - yoe / 100 + doy = doe
  -- the century within the era; only the last day of the era is counted in a fifth one
  obtain ⟨c, s, hs, rfl⟩ : ∃ c s, s < 100 ∧ yoe = 100 * c + s := ⟨yoe / 100, yoe % 100, by omega, by omega⟩
  have hquarter : (100 * c + s) / 4 = 25 * c + s / 4 := by omega
  have hcentury : (100 * c + s) / 100 = c := by omega
  rw [hquarter, hcentury] at hdoe
  have hfull : 365 * s + s / 4 + doy < 36524 ∨ doe = 146096 ∧ c = 3 ∧ s = 99 := by omega
  rcases hfull with hin | ⟨rfl, rfl, rfl⟩
  · have h36524 : doe / 36524 = c := by omega
    have h146096 : doe / 146096 = 0 := by omega
    obtain ⟨q, r, hr, rfl⟩ : ∃ q r, r < 4 ∧ s = 4 * q + r := ⟨s / 4, s % 4, by omega, by omega⟩
    have hq : (4 * q + r) / 4 = q := by omega
    have hfour : doe / 1460 = 25 * c + q + (24 * c + q + 365 * r + doy) / 1460 := by omega
    have hcarry : doy - (24 * c + q + 365 * r + doy) / 1460 ≤ 364 ∧ (24 * c + q + 365 * r + doy) / 1460 ≤ doy := by
      omega
    rw [h36524, h146096, hfour]
    generalize (24 * c + q + 365 * r + doy) / 1460 = e at hcarry
    rw [hq] at hdoe hin
    clear hlen hdays h36524 h146096 hfour hquarter hcentury h
    have hsum : doe - (25 * c + q + e) + c - 0 = 365 * (100 * c + (4 * q + r)) + (doy - e) := by omega
    rw [hsum, Nat.mul_add_div (by decide), Nat.div_eq_of_lt (by omega)]
    omega
  · decide

theorem civilFromDays_march {n y doy} (w) (h : doy < marchLength y)
    (hn : n + 719468 = marchDays y + doy) :
    civilFromDays n = (((ofMarch y doy w).year : Int), (ofMarch y doy w).month, (ofMarch y doy w).day) := by
  obtain ⟨era, yoe, hyoe, rfl⟩ : ∃ era yoe, yoe < 400 ∧ y = 400 * era + yoe :=
    ⟨y / 400, y % 400, by omega, by omega⟩
  have hlen : marchLength (400 * era + yoe) = marchLength yoe := by
    unfold marchLength IsLeap; congr 1; simp only [eq_iff_iff]; omega
  have hdays : marchDays (400 * era + yoe) = 146097 * era + marchDays yoe := by unfold marchDays; omega
  have hmarch : marchDays yoe = 365 * yoe + yoe / 4 - yoe / 100 := by unfold marchDays; omega
  obtain ⟨hdoe, hyear⟩ := yearOfEra_eq hyoe (hlen ▸ h)
  generalize hD : marchDays yoe + doy = D at hdoe hyear
  -- each intermediate value of the source is a natural number
  have hz : (n : Int) + 719468 = ((146097 * era + D : Nat) : Int) := by omega
  have hera : ((146097 * era + D : Nat) : Int).tdiv 146097 = era := by
    rw [Int.tdiv_eq_ediv_of_nonneg (by omega)]; omega
  have hdoeInt : ((146097 * era + D : Nat) : Int) - era * 146097 = D := by omega
  have hyoeInt : ((D : Int) - (D : Int).tdiv 1460 + (D : Int).tdiv 36524 - (D : Int).tdiv 146096).tdiv 365 = yoe := by
    simp only [Int.tdiv_eq_ediv_of_nonneg (Int.natCast_nonneg D)]
    rw [Int.tdiv_eq_ediv_of_nonneg (by omega)]
    omega
  have hdoy : (D : Int) - (365 * yoe + (yoe : Int).tdiv 4 - (yoe : Int).tdiv 100) = doy := by
    simp only [Int.tdiv_eq_ediv_of_nonneg (Int.natCast_nonneg yoe)]; omega
  have hmonth : marchMonth doy < 12 := by unfold marchMonth; unfold marchLength at h; split at h <;> omega
  have hmp : (5 * (doy : Int) + 2).tdiv 153 = marchMonth doy := rfl
  have hd : (doy : Int) - (153 * (marchMonth doy : Int) + 2).tdiv 5 + 1 = marchDay doy := by
    have hin : (153 * marchMonth doy + 2) / 5 ≤ doy := by unfold marchMonth; omega
    rw [Int.tdiv_eq_ediv_of_nonneg (by omega)]; unfold marchDay; omega
  simp only [civilFromDays, hz, ge_iff_le, Int.natCast_nonneg, if_true, hera, hdoeInt, hyoeInt, hdoy, hmp, hd]
  clear hera hdoeInt hyoeInt hdoy hmp hd hz hyear hdays hmarch hlen
  simp only [ofMarch]
  split_ifs <;> simp only [Prod.mk.injEq] <;> omega

/-! ## The registers -/

/-- The two decimal digits of a BCD byte. -/
def fromBcd (b : U8) : Option Nat :=
  if b.toNat / 16 ≤ 9 ∧ b.toNat % 16 ≤ 9 then some (b.toNat / 16 * 10 + b.toNat % 16) else none

theorem fromBcd_bcd {v} (h : v < 100) : fromBcd (bcd v) = some v :=
  (by decide : ∀ v : Fin 100, fromBcd (bcd v) = some v.val) ⟨v, h⟩

/-- What the clock's registers say. -/
structure Denotes (c : Cmos) (t : Moment) : Prop where
  seconds : fromBcd (c.readRegister 0x00) = some t.seconds
  minutes : fromBcd (c.readRegister 0x02) = some t.minutes
  hours : fromBcd (c.readRegister 0x04) = some t.hours
  weekday : fromBcd (c.readRegister 0x06) = some t.date.weekday
  day : fromBcd (c.readRegister 0x07) = some t.date.day
  month : fromBcd (c.readRegister 0x08) = some t.date.month
  year : fromBcd (c.readRegister 0x09) = some (t.date.year % 100)
  century : fromBcd (c.readRegister 0x32) = some (t.date.year / 100)

theorem civilFromDays_onDay (n : Nat) :
    civilFromDays n = (((onDay n).year : Int), (onDay n).month, (onDay n).day) ∧
      (onDay n).weekday = (n + 4) % 7 + 1 := by
  obtain ⟨y, doy, hdoy, hn, hdate⟩ := onDay_march n
  rw [hdate]
  refine ⟨civilFromDays_march _ hdoy hn, ?_⟩
  unfold ofMarch
  split <;> rfl

/-- 9999-12-31 is day 2932896. -/
theorem year_le {n} (h : n ≤ 2932896) : (onDay n).year ≤ 9999 := by
  generalize hlast : 2932896 = last at h
  have hcivil := (civilFromDays_onDay last).1
  rw [show civilFromDays last = (9999, 12, 31) from hlast ▸ by decide +kernel] at hcivil
  have hle : (onDay n).year ≤ (onDay last).year := year_monotone h
  simp only [Prod.mk.injEq] at hcivil
  omega

/-- The clock tells the one date and time that is the boot time after the epoch, and the day after a day
    has the next date. -/
theorem clock_tells_boot_time (c : Cmos) (h : c.bootEpochSeconds.toNat < 253402300800) :
    (∃! t : Moment, t.IsAfter c.bootEpochSeconds.toNat) ∧
    (∀ t : Moment, t.IsAfter c.bootEpochSeconds.toNat → c.Denotes t) ∧
    ∀ n : Nat, ∃ d : Date, civilFromDays n = ((d.year : Int), d.month, d.day) ∧
      civilFromDays (n + 1 : Nat) = ((d.next.year : Int), d.next.month, d.next.day) := by
  refine ⟨⟨_, Moment.isAfter_iff.mpr rfl, fun t ht => Moment.isAfter_iff.mp ht⟩, fun t ht => ?_, fun n =>
    ⟨onDay n, (civilFromDays_onDay n).1, onDay_succ n ▸ (civilFromDays_onDay (n + 1)).1⟩⟩
  generalize hn : c.bootEpochSeconds.toNat = n at h ht
  obtain rfl := Moment.isAfter_iff.mp ht
  obtain ⟨hcivil, hweekday⟩ := civilFromDays_onDay (n / 86400)
  have hyear := year_le (n := n / 86400) (by omega)
  have hbounded := onDay_bounded (n / 86400)
  have hdays : ((n : Int) / 86400) = ((n / 86400 : Nat) : Int) := by omega
  constructor <;> simp only [readRegister, hn, hdays, hcivil, hweekday]
  case weekday =>
    have : (((n / 86400 : Nat) : Int) + 4) % 7 = ((n / 86400 + 4) % 7 : Nat) := by omega
    exact this ▸ fromBcd_bcd (by omega)
  case year =>
    have : ((onDay (n / 86400)).year : Int) % 100 = ((onDay (n / 86400)).year % 100 : Nat) := by omega
    exact this ▸ fromBcd_bcd (by omega)
  case century =>
    have : ((onDay (n / 86400)).year : Int).tdiv 100 = ((onDay (n / 86400)).year / 100 : Nat) := rfl
    exact this ▸ fromBcd_bcd (by omega)
  all_goals exact fromBcd_bcd (by omega)

theorem second_day_told : (Cmos.mk 0 90061).Denotes ⟨⟨1970, 1, 2, 6⟩, 1, 1, 1⟩ :=
  (clock_tells_boot_time ⟨0, 90061⟩ (by decide)).2.1 _ ⟨1, rfl, by decide⟩

end Rish.SoftVm.Cmos
