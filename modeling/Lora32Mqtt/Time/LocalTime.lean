import Lora32Mqtt.Base.Calendar
import Lora32Mqtt.Time.TimeEsp
import Mathlib.Tactic.IntervalCases

/-!
# Local time is Gregorian

`localtime_r` finds the year by a division that corrects for the leap days of a
cycle of 400 years, and the month by one that follows the lengths from March on.
Both are checked against the calendar: the members printed are a date and a time
of the day, and determine the second.
-/

namespace Lora32Mqtt

open Calendar

/-- Days before a year of the cycle, whose years begin in March. -/
def cycleStart (year : Nat) : Nat := 365 * year + year / 4 - year / 100 + year / 400

/-- The dividend whose quotient by 365 is the year. -/
def withoutLeapDays (day : Nat) : Nat :=
  day - day / 1460 + day / 36524 - day / 146096

theorem withoutLeapDays_mono {day later : Nat} (le : day ≤ later) :
    withoutLeapDays day ≤ withoutLeapDays later := by
  induction le with
  | refl => exact Nat.le_refl _
  | step _ induction =>
      refine Nat.le_trans induction ?_
      simp only [withoutLeapDays, Nat.succ_eq_add_one]
      omega

/-- The correction is right on the first and the last day of every year. -/
theorem withoutLeapDays_bounds : ∀ year < 400,
    365 * year ≤ withoutLeapDays (cycleStart year) ∧
      withoutLeapDays (cycleStart (year + 1) - 1) < 365 * (year + 1) := by
  decide +kernel

theorem exists_year_of_cycle {years day : Nat} (inside : day < cycleStart years) :
    ∃ year < years, cycleStart year ≤ day ∧ day < cycleStart (year + 1) := by
  induction years with
  | zero => cases inside
  | succ years induction =>
      rcases Nat.lt_or_ge day (cycleStart years) with before | after
      · obtain ⟨year, less, bounds⟩ := induction before
        exact ⟨year, Nat.lt_succ_of_lt less, bounds⟩
      · exact ⟨years, Nat.lt_succ_self _, after, inside⟩

theorem year_of_cycle {day : Nat} (inside : day < 146097) :
    withoutLeapDays day / 365 < 400 ∧
      cycleStart (withoutLeapDays day / 365) ≤ day ∧
      day < cycleStart (withoutLeapDays day / 365 + 1) := by
  obtain ⟨year, less, first, last⟩ := @exists_year_of_cycle 400 day inside
  obtain ⟨lower, upper⟩ := withoutLeapDays_bounds year less
  have atLeast := Nat.le_trans lower (withoutLeapDays_mono first)
  have atMost := Nat.lt_of_le_of_lt
    (withoutLeapDays_mono (Nat.le_sub_one_of_lt last)) upper
  have found : withoutLeapDays day / 365 = year := by omega
  rw [found]
  exact ⟨less, first, last⟩

theorem cycleStart_eq (year : Nat) :
    (cycleStart year : Int) = daysBeforeYear (year + 1) := by
  simp only [cycleStart, daysBeforeYear]
  omega

/-- The month that `localtime_r` computes for a day of such a year. -/
def marchMonth (day : Int) : Int := (5 * day + 2) / 153

/-- Days of the year before one of its months. -/
def daysBeforeMarchMonth (month : Int) : Int := (153 * month + 2) / 5

theorem monthLength_march {year : Int} {month : Nat} (le : month ≤ 9) :
    monthLength year (month + 2) =
      daysBeforeMarchMonth (month + 1) - daysBeforeMarchMonth month := by
  interval_cases month <;> rfl

theorem daysBeforeMonth_march {year : Int} {month : Nat} (le : month ≤ 10) :
    daysBeforeMonth year (month + 2) + 306 =
      daysBeforeMonth year 12 + daysBeforeMarchMonth month := by
  induction month with
  | zero =>
      have february : daysBeforeMonth year 2 = 31 + (28 + leapDays year) := rfl
      have march : daysBeforeMarchMonth (0 : Nat) = 0 := rfl
      rw [daysBeforeMonth_twelve, february, march]
      omega
  | succ month induction =>
      have before := induction (Nat.le_of_succ_le le)
      have length := @monthLength_march year month (Nat.le_of_succ_le_succ le)
      rw [Nat.add_right_comm, daysBeforeMonth_succ, length, Nat.cast_succ]
      omega

theorem daysBeforeMonth_january {year : Int} {month : Nat} (le : month ≤ 1) :
    daysBeforeMonth year month + 306 = daysBeforeMarchMonth (month + 10) := by
  interval_cases month <;> rfl

def calendarMonth (month : Int) : Int := if month < 10 then month + 3 else month - 9

theorem length_january {year day : Int} {month : Nat} (le : month ≤ 1)
    (inMonth : day < daysBeforeMarchMonth ((month : Int) + 10 + 1))
    (inYear : day < 365 + leapDays year) :
    day - daysBeforeMarchMonth ((month : Int) + 10) + 1 ≤ monthLength year month := by
  simp only [daysBeforeMarchMonth] at inMonth ⊢
  rcases Nat.le_one_iff_eq_zero_or_eq_one.mp le with rfl | rfl
  · simp [monthLength, monthLengths]
    omega
  · simp [monthLength, monthLengths]
    omega

/-- A day of a year from March on is a date of that year or the next. -/
theorem date_of_marchDay (year : Int) {day : Int} (nonneg : 0 ≤ day)
    (inYear : day < 365 + leapDays (year + 1)) :
    ∃ date : Date,
      date.year =
        year + (if calendarMonth (marchMonth day) ≤ 2 then 1 else 0) ∧
      (date.month : Int) = calendarMonth (marchMonth day) - 1 ∧
      date.day = day - daysBeforeMarchMonth (marchMonth day) + 1 ∧
      date.dayNumber = daysBeforeYear (year + 1) - 306 + day := by
  have leap := leapDays_cases (year + 1)
  obtain ⟨month, monthEq⟩ := Int.eq_ofNat_of_zero_le
    (show 0 ≤ marchMonth day by simp only [marchMonth]; omega)
  have inMonth : daysBeforeMarchMonth month ≤ day ∧
      day < daysBeforeMarchMonth (month + 1) ∧ month < 12 := by
    simp only [marchMonth] at monthEq
    simp only [daysBeforeMarchMonth]
    omega
  obtain ⟨first, last, less⟩ := inMonth
  rw [monthEq]
  rcases Nat.lt_or_ge month 10 with early | late
  · have before := @daysBeforeMonth_march year month (by omega)
    have length := @monthLength_march year month (by omega)
    have years := daysBeforeYear_succ year
    have named : calendarMonth month = month + 3 := if_pos (by omega)
    have inMonth :
        day - daysBeforeMarchMonth month + 1 ≤ monthLength year (month + 2) := by
      omega
    let date : Date :=
      ⟨year, month + 2, day - daysBeforeMarchMonth month + 1, by omega, by omega,
        inMonth⟩
    refine ⟨date, ?_, ?_, rfl, ?_⟩
    · rw [named, if_neg (by omega), Int.add_zero]
    · rw [named]
      simp only [date]
      omega
    · simp only [date, Date.dayNumber]
      omega
  · obtain ⟨later, rfl⟩ := Nat.exists_eq_add_of_le' late
    have before := @daysBeforeMonth_january (year + 1) later (by omega)
    have named : calendarMonth ((later : Int) + 10) = later + 1 := by
      rw [calendarMonth, if_neg (by omega)]
      omega
    have shifted : ((later + 10 : Nat) : Int) = (later : Int) + 10 := by omega
    rw [shifted] at first last ⊢
    have inMonth := length_january (by omega) last inYear
    let date : Date :=
      ⟨year + 1, later, day - daysBeforeMarchMonth (later + 10) + 1, by omega,
        by omega, inMonth⟩
    refine ⟨date, ?_, ?_, rfl, ?_⟩
    · rw [named, if_pos (by omega)]
    · rw [named]
      simp only [date]
      omega
    · simp only [date, Date.dayNumber]
      omega

/-- Days from the first day of the year 1 to the epoch. -/
def epochDay : Int := 719162

theorem localtimeR_date (seconds : Int) :
    ∃ date : Date,
      (localtimeR seconds).tmYear + 1900 = date.year ∧
      (localtimeR seconds).tmMon = date.month ∧
      (localtimeR seconds).tmMday = date.day ∧
      date.dayNumber = (seconds + brtOffset) / 86400 + epochDay := by
  generalize shiftedEq : (seconds + brtOffset) / 86400 + 719468 = shifted
  generalize eraEq : shifted / 146097 = era
  obtain ⟨day, dayEq⟩ := Int.eq_ofNat_of_zero_le
    (Int.emod_nonneg shifted (show (146097 : Int) ≠ 0 by decide))
  have inCycle : day < 146097 := by omega
  obtain ⟨inside, first, last⟩ := year_of_cycle inCycle
  have yearEq : ((day : Int) - day / 1460 + day / 36524 - day / 146096) / 365 =
      (withoutLeapDays day / 365 : Nat) := by
    simp only [withoutLeapDays]
    omega
  generalize withoutLeapDays day / 365 = year at inside first last yearEq
  have start : (365 * year + year / 4 - year / 100 : Int) = cycleStart year := by
    simp only [cycleStart]
    omega
  have inYear : (day : Int) - cycleStart year <
      365 + leapDays (year + era * 400 + 1) := by
    have length := daysBeforeYear_succ (year + 1)
    rw [daysBeforeMonth_twelve, ← cycleStart_eq year] at length
    have next := cycleStart_eq (year + 1)
    rw [Nat.cast_succ, length] at next
    rw [Int.add_right_comm, leapDays_cycle]
    omega
  obtain ⟨date, yearDate, monthDate, dayDate, number⟩ :=
    date_of_marchDay (year + era * 400) (by omega) inYear
  refine ⟨date, ?_, ?_, ?_, ?_⟩
  · simp only [localtimeR, shiftedEq, eraEq, dayEq, yearEq, start]
    rw [yearDate, Int.sub_add_cancel]
    rfl
  · simp only [localtimeR, shiftedEq, eraEq, dayEq, yearEq, start]
    rw [monthDate]
    rfl
  · simp only [localtimeR, shiftedEq, eraEq, dayEq, yearEq, start]
    rw [dayDate]
    rfl
  · rw [number, Int.add_right_comm, daysBeforeYear_cycle, ← cycleStart_eq, epochDay]
    omega

structure LocalTime where
  date : Date
  hour : Nat
  minute : Nat
  second : Nat
  hourInDay : hour < 24
  minuteInHour : minute < 60
  secondInMinute : second < 60

namespace LocalTime

def seconds (time : LocalTime) : Int :=
  86400 * time.date.dayNumber + 3600 * time.hour + 60 * time.minute + time.second

def tm (time : LocalTime) : Tm where
  tmYear := time.date.year - 1900
  tmMon := time.date.month
  tmMday := time.date.day
  tmHour := time.hour
  tmMin := time.minute
  tmSec := time.second

end LocalTime

theorem localtimeR_eq (seconds : Int) :
    ∃ time : LocalTime, localtimeR seconds = time.tm ∧
      time.seconds = seconds + brtOffset + 86400 * epochDay := by
  obtain ⟨date, year, month, day, number⟩ := localtimeR_date seconds
  obtain ⟨second, secondEq⟩ := Int.eq_ofNat_of_zero_le
    (Int.emod_nonneg (seconds + brtOffset) (show (86400 : Int) ≠ 0 by decide))
  have inDay : second < 86400 := by omega
  let time : LocalTime :=
    ⟨date, second / 3600, second % 3600 / 60, second % 60, by omega, by omega,
      by omega⟩
  refine ⟨time, ?_, ?_⟩
  · have hour : (localtimeR seconds).tmHour = (second / 3600 : Nat) := by
      simp only [localtimeR, secondEq]
      omega
    have minute : (localtimeR seconds).tmMin = (second % 3600 / 60 : Nat) := by
      simp only [localtimeR, secondEq]
      omega
    have second : (localtimeR seconds).tmSec = (second % 60 : Nat) := by
      simp only [localtimeR, secondEq]
      omega
    have year : (localtimeR seconds).tmYear = date.year - 1900 := by omega
    rw [LocalTime.tm, ← year, ← month, ← day, ← hour, ← minute, ← second]
  · simp only [LocalTime.seconds, time, number]
    omega

end Lora32Mqtt
