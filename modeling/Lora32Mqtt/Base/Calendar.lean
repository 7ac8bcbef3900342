import Mathlib.Data.List.GetD

/-!
# The proleptic Gregorian calendar

Months are counted from 0 and days of a month from 1.  `dayNumber` counts days
from the first day of the year 1; it orders dates as their members do.
-/

namespace Calendar

def isLeap (year : Int) : Bool :=
  year % 4 == 0 && (year % 100 != 0 || year % 400 == 0)

def leapDays (year : Int) : Int := if isLeap year then 1 else 0

def monthLengths (year : Int) : List Int :=
  [31, 28 + leapDays year, 31, 30, 31, 30, 31, 31, 30, 31, 30, 31]

def monthLength (year : Int) (month : Nat) : Int := (monthLengths year).getD month 0

def daysBeforeMonth (year : Int) : Nat → Int
  | 0 => 0
  | month + 1 => daysBeforeMonth year month + monthLength year month

def daysBeforeYear (year : Int) : Int :=
  365 * (year - 1) + (year - 1) / 4 - (year - 1) / 100 + (year - 1) / 400

@[ext] structure Date where
  year : Int
  month : Nat
  day : Int
  monthInYear : month < 12
  dayFromOne : 1 ≤ day
  dayInMonth : day ≤ monthLength year month

namespace Date

def dayNumber (date : Date) : Int :=
  daysBeforeYear date.year + daysBeforeMonth date.year date.month + (date.day - 1)

def Before (date other : Date) : Prop :=
  date.year < other.year ∨ date.year = other.year ∧
    (date.month < other.month ∨ date.month = other.month ∧ date.day < other.day)

end Date

theorem leapDays_eq (year : Int) :
    leapDays year = year / 4 - (year - 1) / 4 - (year / 100 - (year - 1) / 100) +
      (year / 400 - (year - 1) / 400) := by
  simp only [leapDays, isLeap, Bool.and_eq_true, Bool.or_eq_true, beq_iff_eq,
    bne_iff_ne]
  split <;> omega

theorem leapDays_cases (year : Int) : leapDays year = 0 ∨ leapDays year = 1 := by
  rw [leapDays]
  split
  · exact Or.inr rfl
  · exact Or.inl rfl

theorem monthLength_eq {year : Int} {month : Nat}
    (inside : month < (monthLengths year).length) :
    monthLength year month = (monthLengths year)[month] :=
  List.getD_eq_getElem _ _ inside

theorem daysBeforeMonth_succ (year : Int) (month : Nat) :
    daysBeforeMonth year (month + 1) =
      daysBeforeMonth year month + monthLength year month :=
  rfl

theorem monthLength_pos {year : Int} {month : Nat} (inYear : month < 12) :
    0 < monthLength year month := by
  have positive : ∀ length ∈ monthLengths year, 0 < length := by
    have february : 0 < 28 + leapDays year := by
      have cases := leapDays_cases year
      omega
    simp [monthLengths, february]
  have inside : month < (monthLengths year).length := inYear
  rw [monthLength_eq inside]
  exact positive _ (List.getElem_mem inside)

theorem monthLength_le {year : Int} {month : Nat} (inYear : month < 12) :
    monthLength year month ≤ 31 := by
  have bounded : ∀ length ∈ monthLengths year, length ≤ 31 := by
    have february : 28 + leapDays year ≤ 31 := by
      have cases := leapDays_cases year
      omega
    simp [monthLengths, february]
  have inside : month < (monthLengths year).length := inYear
  rw [monthLength_eq inside]
  exact bounded _ (List.getElem_mem inside)

theorem daysBeforeMonth_mono {year : Int} {month later : Nat} (le : month ≤ later)
    (inYear : later ≤ 12) :
    daysBeforeMonth year month ≤ daysBeforeMonth year later := by
  induction le with
  | refl => exact Int.le_refl _
  | @step later le induction =>
      have step := daysBeforeMonth_succ year later
      have positive := @monthLength_pos year later inYear
      have before := induction (Nat.le_of_lt inYear)
      rw [Nat.succ_eq_add_one]
      omega

theorem daysBeforeMonth_twelve (year : Int) :
    daysBeforeMonth year 12 = 365 + leapDays year := by
  simp [daysBeforeMonth, monthLength, monthLengths]
  omega

theorem daysBeforeYear_succ (year : Int) :
    daysBeforeYear (year + 1) = daysBeforeYear year + daysBeforeMonth year 12 := by
  rw [daysBeforeMonth_twelve, leapDays_eq]
  simp only [daysBeforeYear]
  omega

theorem daysBeforeYear_mono {year later : Int} (le : year ≤ later) :
    daysBeforeYear year ≤ daysBeforeYear later := by
  rcases Int.lt_or_eq_of_le le with less | rfl
  · simp only [daysBeforeYear]
    omega
  · exact Int.le_refl _

/-- The calendar repeats after 400 years. -/
theorem leapDays_cycle (year cycles : Int) :
    leapDays (year + cycles * 400) = leapDays year := by
  rw [leapDays_eq, leapDays_eq]
  omega

theorem daysBeforeYear_cycle (year cycles : Int) :
    daysBeforeYear (year + cycles * 400) =
      daysBeforeYear year + 146097 * cycles := by
  simp only [daysBeforeYear]
  omega

namespace Date

variable {date other : Date}

theorem dayNumber_lt_month (date : Date) :
    date.dayNumber <
      daysBeforeYear date.year + daysBeforeMonth date.year (date.month + 1) := by
  have step := daysBeforeMonth_succ date.year date.month
  have inMonth := date.dayInMonth
  simp only [dayNumber]
  omega

theorem le_dayNumber (date : Date) :
    daysBeforeYear date.year + daysBeforeMonth date.year date.month ≤
      date.dayNumber := by
  have fromOne := date.dayFromOne
  simp only [dayNumber]
  omega

theorem dayNumber_lt_year (date : Date) :
    date.dayNumber < daysBeforeYear (date.year + 1) := by
  have inMonth := date.dayNumber_lt_month
  have inYear := @daysBeforeMonth_mono date.year (date.month + 1) 12
    date.monthInYear (Nat.le_refl _)
  have step := daysBeforeYear_succ date.year
  omega

theorem year_le_dayNumber (date : Date) :
    daysBeforeYear date.year ≤ date.dayNumber := by
  have inMonth := date.le_dayNumber
  have inYear := @daysBeforeMonth_mono date.year 0 date.month (Nat.zero_le _)
    (Nat.le_of_lt date.monthInYear)
  have first : daysBeforeMonth date.year 0 = 0 := rfl
  omega

theorem Before.dayNumber_lt (before : date.Before other) :
    date.dayNumber < other.dayNumber := by
  rcases before with year | ⟨year, month | ⟨month, day⟩⟩
  · have upper := date.dayNumber_lt_year
    have lower := other.year_le_dayNumber
    have years := daysBeforeYear_mono (show date.year + 1 ≤ other.year from year)
    omega
  · have upper := date.dayNumber_lt_month
    have lower := other.le_dayNumber
    have months := @daysBeforeMonth_mono other.year (date.month + 1) other.month
      month (Nat.le_of_lt other.monthInYear)
    rw [year] at upper
    omega
  · simp only [dayNumber, year, month]
    omega

theorem before_trichotomy (date other : Date) :
    date.Before other ∨ date = other ∨ other.Before date := by
  simp only [Before, Date.ext_iff]
  omega

theorem dayNumber_lt_iff :
    date.dayNumber < other.dayNumber ↔ date.Before other := by
  constructor
  · intro less
    rcases before_trichotomy date other with before | rfl | after
    · exact before
    · exact absurd less (Int.lt_irrefl _)
    · exact absurd after.dayNumber_lt (Int.lt_asymm less)
  · exact Before.dayNumber_lt

theorem dayNumber_inj : date.dayNumber = other.dayNumber ↔ date = other := by
  constructor
  · intro same
    rcases before_trichotomy date other with before | equal | after
    · exact absurd same (Int.ne_of_lt before.dayNumber_lt)
    · exact equal
    · exact absurd same.symm (Int.ne_of_lt after.dayNumber_lt)
  · rintro rfl
    rfl

end Date

end Calendar
