/-
  Rish.Lib.Calendar — the proleptic Gregorian calendar, counted day by day from 1970-01-01.

  Proved: a year that starts in March has its first day at `marchDays` (`onDay_march`), and one date
  and time is a number of seconds after the epoch (`isAfter_iff`).
-/

import Mathlib.Order.Monotone.Basic
import Mathlib.Tactic.SplitIfs

namespace Rish.Lib

structure Date where
  year : Nat
  month : Nat
  day : Nat
  /-- Sunday is 1 and Saturday 7. -/
  weekday : Nat
  deriving DecidableEq

namespace Date

abbrev IsLeap (year : Nat) : Prop := 4 ∣ year ∧ (¬100 ∣ year ∨ 400 ∣ year)

def daysInMonth (year month : Nat) : Nat :=
  if month = 2 then if IsLeap year then 29 else 28
  else if month = 4 ∨ month = 6 ∨ month = 9 ∨ month = 11 then 30 else 31

/-- 1970-01-01 was a Thursday. -/
def epoch : Date := ⟨1970, 1, 1, 5⟩

def next (d : Date) : Date :=
  let weekday := d.weekday % 7 + 1
  if d.day < daysInMonth d.year d.month then ⟨d.year, d.month, d.day + 1, weekday⟩
  else if d.month < 12 then ⟨d.year, d.month + 1, 1, weekday⟩
  else ⟨d.year + 1, 1, 1, weekday⟩

variable (n : Nat)

def onDay : Date := next^[n] epoch

theorem onDay_succ : onDay (n + 1) = (onDay n).next := Function.iterate_succ_apply' next n epoch

/-! ## Years from March -/

/-- Days from 0000-03-01 to the first of March of a year. -/
def marchDays (y : Nat) : Nat := 365 * y + y / 4 - y / 100 + y / 400

/-- The length of the year that starts in March, so that a leap day is its last. -/
def marchLength (y : Nat) : Nat := if IsLeap (y + 1) then 366 else 365

theorem marchDays_succ (y) : marchDays (y + 1) = marchDays y + marchLength y := by
  have hle : y / 100 ≤ y / 4 := Nat.div_le_div_left (by decide) (by decide)
  unfold marchDays marchLength IsLeap
  simp only [Nat.succ_div]
  generalize y / 4 = a at *
  generalize y / 100 = b at *
  by_cases h4 : 4 ∣ y + 1 <;> by_cases h1 : 100 ∣ y + 1 <;> by_cases h0 : 400 ∣ y + 1 <;>
    simp only [h4, h1, h0, if_true, if_false, true_and, false_and, not_true_eq_false, not_false_eq_true, or_true,
      or_false] <;> omega

/-- The month, counted from March, and the day of the month of a day of the year that starts in March:
    months of 31, 30, 31, 30 and 31 days repeat. -/
def marchMonth (doy : Nat) : Nat := (5 * doy + 2) / 153

def marchDay (doy : Nat) : Nat := doy - (153 * marchMonth doy + 2) / 5 + 1

def ofMarch (y doy weekday : Nat) : Date :=
  if marchMonth doy < 10 then ⟨y, marchMonth doy + 3, marchDay doy, weekday⟩
  else ⟨y + 1, marchMonth doy - 9, marchDay doy, weekday⟩

/-- The table of the months: every one but February is as long as the calendar says. -/
theorem march_table : ∀ doy : Fin 366,
    marchMonth doy < 12 ∧ (marchMonth doy = 11 → marchDay doy + 336 = doy ∧
      (doy.val + 1 < 366 → marchMonth (doy + 1) = 11 ∧ marchDay (doy + 1) = marchDay doy + 1)) ∧
    (marchMonth doy < 11 → ∀ length,
      daysInMonth 0 (if marchMonth doy < 10 then marchMonth doy + 3 else marchMonth doy - 9) = length →
      (marchDay doy < length → marchMonth (doy + 1) = marchMonth doy ∧ marchDay (doy + 1) = marchDay doy + 1) ∧
      (¬marchDay doy < length → marchMonth (doy + 1) = marchMonth doy + 1 ∧ marchDay (doy + 1) = 1)) := by
  simp only [forall_eq']
  decide +kernel

theorem next_march {y doy w} (h : doy < marchLength y) : (ofMarch y doy w).next =
      if doy + 1 < marchLength y then ofMarch y (doy + 1) (w % 7 + 1) else ofMarch (y + 1) 0 (w % 7 + 1) := by
  have hlt : doy < 366 := by unfold marchLength at h; split at h <;> omega
  obtain ⟨hmonth, hfeb, hrest⟩ := march_table ⟨doy, hlt⟩
  dsimp only at hmonth hfeb hrest
  by_cases h11 : marchMonth doy = 11
  · -- February: its length is what makes the year longer
    obtain ⟨hday, hsame⟩ := hfeb h11
    have hlength : daysInMonth (y + 1) 2 + 337 = marchLength y := by
      simp only [daysInMonth, marchLength, if_true]; split <;> rfl
    have hiff : marchDay doy < daysInMonth (y + 1) 2 ↔ doy + 1 < marchLength y := by omega
    simp only [ofMarch, h11, next, Nat.reduceLT, if_false, Nat.reduceSub, if_true, hiff]
    split
    case isTrue hin =>
      have hleap : marchLength y ≤ 366 := by unfold marchLength; split <;> omega
      simp [hsame (by omega)]
    case isFalse => rfl
  · have hin : doy + 1 < marchLength y := by
      unfold marchLength marchMonth at *; split <;> omega
    have hother : ∀ y' m, m ≠ 2 → daysInMonth y' m = daysInMonth 0 m := by
      intro y' m hm; simp [daysInMonth, hm]
    obtain ⟨hstay, hover⟩ := hrest (by omega) _ rfl
    rw [if_pos hin]
    by_cases hten : marchMonth doy < 10
    all_goals
      simp only [hten, if_true, if_false] at hstay hover
      simp only [ofMarch, hten, next, if_true, if_false]
      rw [hother _ _ (by omega)]
      split
      case isTrue hd => simp [hstay hd, hten]
      case isFalse hd =>
        rw [(hover hd).1, (hover hd).2]
        split_ifs <;> simp <;> omega

/-- Every date from the epoch on is a day of a year that starts in March. -/
theorem onDay_march : ∃ y doy, doy < marchLength y ∧ n + 719468 = marchDays y + doy ∧
    onDay n = ofMarch y doy ((n + 4) % 7 + 1) := by
  induction n with
  | zero => exact ⟨1969, 306, by decide, by decide, by decide⟩
  | succ n ih =>
    obtain ⟨y, doy, hdoy, hday, hdate⟩ := ih
    have hw : ((n + 4) % 7 + 1) % 7 + 1 = (n + 1 + 4) % 7 + 1 := by omega
    rw [onDay_succ, hdate, next_march hdoy, hw]
    split
    case isTrue h => exact ⟨y, doy + 1, h, by omega, rfl⟩
    case isFalse h =>
      refine ⟨y + 1, 0, ?_, ?_, rfl⟩
      · unfold marchLength; split <;> omega
      · rw [marchDays_succ]; omega

theorem onDay_bounded : (onDay n).month ≤ 12 ∧ (onDay n).day ≤ 31 := by
  induction n with
  | zero => decide
  | succ n ih =>
    have hlen : daysInMonth (onDay n).year (onDay n).month ≤ 31 := by unfold daysInMonth; split_ifs <;> omega
    rw [onDay_succ]
    unfold next
    split_ifs <;> simp <;> omega

theorem year_monotone : Monotone fun n => (onDay n).year := by
  refine monotone_nat_of_le_succ fun n => ?_
  rw [onDay_succ]
  unfold next
  split_ifs <;> simp only <;> omega

end Date

/-! ## Time of day -/

structure Moment where
  date : Date
  hours : Nat
  minutes : Nat
  seconds : Nat
  deriving DecidableEq

namespace Moment

def IsAfter (t : Moment) (n : Nat) : Prop :=
  ∃ days, t.date = Date.onDay days ∧ t.hours < 24 ∧ t.minutes < 60 ∧ t.seconds < 60 ∧
    n = ((days * 24 + t.hours) * 60 + t.minutes) * 60 + t.seconds

/-- The one date and time a number of seconds after the epoch. -/
theorem isAfter_iff {t : Moment} {n : Nat} :
    t.IsAfter n ↔ t = ⟨Date.onDay (n / 86400), n / 3600 % 24, n / 60 % 60, n % 60⟩ := by
  constructor
  · rintro ⟨days, hdate, hh, hm, hs, hn⟩
    have hdays : n / 86400 = days := by omega
    cases t
    simp only [Moment.mk.injEq] at *
    exact ⟨by rw [hdate, hdays], by omega, by omega, by omega⟩
  · rintro rfl
    exact ⟨n / 86400, rfl, by simp only; omega⟩

end Moment
end Rish.Lib
