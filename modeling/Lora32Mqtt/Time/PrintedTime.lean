import Lora32Mqtt.Base.Numerals
import Lora32Mqtt.Time.LocalTime

/-!
# Printed times

Both formatters print the members of a local time with fixed widths and the
larger ones first.  So the text determines the time to the millisecond, and texts
are in the order of their times as long as the year has four digits.
-/

namespace Lora32Mqtt

open Calendar

/-- `get_format_time`, from what `gettimeofday` writes. -/
def getFormatTime (tv : Timeval) : List UInt8 :=
  let milliseconds := (tv.tvUsec.tdiv 1000 % 2 ^ 32).toNat
  formatTm (localtimeR tv.tvSec) milliseconds

theorem zeroPadded_of_nonneg {value : Int} (width : Nat) (nonneg : 0 ≤ value) :
    zeroPadded width value = padded width value.toNat := by
  rw [zeroPadded, if_neg (Int.not_lt.mpr nonneg), padded,
    show value.natAbs = value.toNat by omega]

section Field

variable {width value other : Nat} {rest otherRest : List UInt8}

theorem field_eq_iff (positive : 0 < width) (fits : value < 10 ^ width)
    (otherFits : other < 10 ^ width) (separator : UInt8) :
    padded width value ++ separator :: rest =
        padded width other ++ separator :: otherRest ↔
      value = other ∧ rest = otherRest := by
  constructor
  · intro same
    obtain ⟨numeral, tail⟩ := List.append_inj same
      (by rw [length_padded positive fits, length_padded positive otherFits])
    exact ⟨padded_injective numeral, (List.cons.inj tail).2⟩
  · rintro ⟨rfl, rfl⟩
    rfl

theorem field_lt_iff (positive : 0 < width) (fits : value < 10 ^ width)
    (otherFits : other < 10 ^ width) (separator : UInt8) :
    padded width value ++ separator :: rest <
        padded width other ++ separator :: otherRest ↔
      value < other ∨ value = other ∧ rest < otherRest := by
  have tail : separator :: rest < separator :: otherRest ↔ rest < otherRest := by
    simp
  rw [append_lt_append_iff
      (by rw [length_padded positive fits, length_padded positive otherFits]),
    padded_lt_padded_iff positive fits otherFits, padded_inj, tail]

end Field

namespace LocalTime

def textAfterYear (time : LocalTime) (milliseconds : Nat) : List UInt8 :=
  padded 2 (time.date.month + 1) ++ 45 ::
    (padded 2 time.date.day.toNat ++ 32 ::
      (padded 2 time.hour ++ 58 ::
        (padded 2 time.minute ++ 58 ::
          (padded 2 time.second ++ 46 :: padded 3 milliseconds))))

def text (time : LocalTime) (milliseconds : Nat) : List UInt8 :=
  padded 4 time.date.year.toNat ++ 45 :: time.textAfterYear milliseconds

def milliseconds (time : LocalTime) (fraction : Nat) : Int :=
  1000 * time.seconds + fraction

variable {time other : LocalTime} {fraction otherFraction : Nat}

theorem tmText_tm (nonneg : 0 ≤ time.date.year) :
    tmText time.tm fraction = time.text fraction := by
  have fromOne := time.date.dayFromOne
  simp only [tmText, tm, text, textAfterYear, Int.sub_add_cancel]
  rw [zeroPadded_of_nonneg 4 nonneg, zeroPadded_of_nonneg 2 (by omega),
    zeroPadded_of_nonneg 2 (by omega), zeroPadded_of_nonneg 2 (by omega),
    zeroPadded_of_nonneg 2 (by omega), zeroPadded_of_nonneg 2 (by omega),
    zeroPadded_of_nonneg 3 (by omega)]
  rfl

theorem twoDigits (time : LocalTime) :
    time.date.month + 1 < 10 ^ 2 ∧ time.date.day.toNat < 10 ^ 2 ∧
      time.hour < 10 ^ 2 ∧ time.minute < 10 ^ 2 ∧ time.second < 10 ^ 2 := by
  have month := time.date.monthInYear
  have day := time.date.dayInMonth
  have short := @monthLength_le time.date.year time.date.month month
  have hour := time.hourInDay
  have minute := time.minuteInHour
  have second := time.secondInMinute
  omega

theorem length_textAfterYear (small : fraction < 1000) :
    (time.textAfterYear fraction).length = 18 := by
  obtain ⟨month, day, hour, minute, second⟩ := time.twoDigits
  simp only [textAfterYear, List.length_append, List.length_cons,
    length_padded Nat.two_pos month, length_padded Nat.two_pos day,
    length_padded Nat.two_pos hour, length_padded Nat.two_pos minute,
    length_padded Nat.two_pos second,
    length_padded (show 0 < 3 by decide) (show fraction < 10 ^ 3 from small)]

theorem clock_bounds (time : LocalTime) :
    time.hour < 24 ∧ time.minute < 60 ∧ time.second < 60 :=
  ⟨time.hourInDay, time.minuteInHour, time.secondInMinute⟩

/-- The order of the members that are printed behind the year. -/
def Precedes (time : LocalTime) (fraction : Nat) (other : LocalTime)
    (otherFraction : Nat) : Prop :=
  time.hour < other.hour ∨ time.hour = other.hour ∧
    (time.minute < other.minute ∨ time.minute = other.minute ∧
      (time.second < other.second ∨ time.second = other.second ∧
        fraction < otherFraction))

theorem milliseconds_lt_iff (small : fraction < 1000)
    (otherSmall : otherFraction < 1000) :
    time.milliseconds fraction < other.milliseconds otherFraction ↔
      time.date.Before other.date ∨ time.date = other.date ∧
        time.Precedes fraction other otherFraction := by
  obtain ⟨hour, minute, second⟩ := time.clock_bounds
  obtain ⟨otherHour, otherMinute, otherSecond⟩ := other.clock_bounds
  rw [← Date.dayNumber_lt_iff, ← Date.dayNumber_inj]
  simp only [milliseconds, seconds, Precedes]
  omega

theorem milliseconds_eq_iff (small : fraction < 1000)
    (otherSmall : otherFraction < 1000) :
    time.milliseconds fraction = other.milliseconds otherFraction ↔
      time.date = other.date ∧ time.hour = other.hour ∧
        time.minute = other.minute ∧ time.second = other.second ∧
          fraction = otherFraction := by
  obtain ⟨hour, minute, second⟩ := time.clock_bounds
  obtain ⟨otherHour, otherMinute, otherSecond⟩ := other.clock_bounds
  rw [← Date.dayNumber_inj]
  simp only [milliseconds, seconds]
  omega

theorem textAfterYear_eq_iff :
    time.textAfterYear fraction = other.textAfterYear otherFraction ↔
      time.date.month = other.date.month ∧ time.date.day = other.date.day ∧
        time.hour = other.hour ∧ time.minute = other.minute ∧
          time.second = other.second ∧ fraction = otherFraction := by
  obtain ⟨month, day, hour, minute, second⟩ := time.twoDigits
  obtain ⟨otherMonth, otherDay, otherHour, otherMinute, otherSecond⟩ :=
    other.twoDigits
  have fromOne := time.date.dayFromOne
  have otherFromOne := other.date.dayFromOne
  simp only [textAfterYear]
  rw [field_eq_iff Nat.two_pos month otherMonth,
    field_eq_iff Nat.two_pos day otherDay,
    field_eq_iff Nat.two_pos hour otherHour,
    field_eq_iff Nat.two_pos minute otherMinute,
    field_eq_iff Nat.two_pos second otherSecond, padded_inj]
  omega

theorem textAfterYear_lt_iff (small : fraction < 1000)
    (otherSmall : otherFraction < 1000) :
    time.textAfterYear fraction < other.textAfterYear otherFraction ↔
      time.date.month < other.date.month ∨ time.date.month = other.date.month ∧
        (time.date.day < other.date.day ∨ time.date.day = other.date.day ∧
          time.Precedes fraction other otherFraction) := by
  obtain ⟨month, day, hour, minute, second⟩ := time.twoDigits
  obtain ⟨otherMonth, otherDay, otherHour, otherMinute, otherSecond⟩ :=
    other.twoDigits
  have fromOne := time.date.dayFromOne
  have otherFromOne := other.date.dayFromOne
  simp only [textAfterYear]
  rw [field_lt_iff Nat.two_pos month otherMonth,
    field_lt_iff Nat.two_pos day otherDay,
    field_lt_iff Nat.two_pos hour otherHour,
    field_lt_iff Nat.two_pos minute otherMinute,
    field_lt_iff Nat.two_pos second otherSecond,
    padded_lt_padded_iff (by decide) small otherSmall]
  rw [Nat.add_lt_add_iff_right, Nat.add_right_cancel_iff,
    Int.toNat_lt_toNat (Int.lt_of_lt_of_le Int.one_pos otherFromOne),
    show time.date.day.toNat = other.date.day.toNat ↔
      time.date.day = other.date.day by omega]
  rfl

/-- The text determines the time to the millisecond. -/
theorem text_eq_iff (nonneg : 0 ≤ time.date.year) (otherNonneg : 0 ≤ other.date.year)
    (small : fraction < 1000) (otherSmall : otherFraction < 1000) :
    time.text fraction = other.text otherFraction ↔
      time.milliseconds fraction = other.milliseconds otherFraction := by
  rw [milliseconds_eq_iff small otherSmall, Date.ext_iff]
  constructor
  · intro same
    obtain ⟨year, tail⟩ := List.append_inj' same (by
      rw [List.length_cons, List.length_cons, length_textAfterYear small,
        length_textAfterYear otherSmall])
    have years := padded_injective year
    have rest := textAfterYear_eq_iff.mp (List.cons.inj tail).2
    omega
  · rintro ⟨⟨year, month, day⟩, clock⟩
    rw [text, text, year,
      textAfterYear_eq_iff.mpr ⟨month, day, clock⟩]

/-- With four digits for the year, texts are in the order of their times. -/
theorem text_lt_iff (nonneg : 0 ≤ time.date.year) (otherNonneg : 0 ≤ other.date.year)
    (fits : time.date.year ≤ 9999) (otherFits : other.date.year ≤ 9999)
    (small : fraction < 1000) (otherSmall : otherFraction < 1000) :
    time.text fraction < other.text otherFraction ↔
      time.milliseconds fraction < other.milliseconds otherFraction := by
  have less : time.date.year.toNat < other.date.year.toNat ↔
      time.date.year < other.date.year := by omega
  have equal : time.date.year.toNat = other.date.year.toNat ↔
      time.date.year = other.date.year := by omega
  rw [milliseconds_lt_iff small otherSmall, text, text,
    field_lt_iff (by decide) (show time.date.year.toNat < 10 ^ 4 by omega)
      (show other.date.year.toNat < 10 ^ 4 by omega),
    textAfterYear_lt_iff small otherSmall, less, equal]
  -- the members behind the day come last on both sides
  simp only [Date.Before, Date.ext_iff, and_or_left, or_assoc, and_assoc]

theorem length_text (short : time.date.year < 10 ^ 44) (small : fraction < 1000) :
    (time.text fraction).length < timeBufferSize := by
  have year := @length_padded_le 4 time.date.year.toNat 44 (by decide) (by decide)
    (by omega)
  rw [text, List.length_append, List.length_cons, length_textAfterYear small]
  exact Nat.lt_of_le_of_lt (Nat.add_le_add_right year _) (by decide)

theorem zero_notMem_text : 0 ∉ time.text fraction := by
  simp [text, textAfterYear, zero_notMem_padded]

section Years

variable {seconds : Int}
  (localEq : time.seconds = seconds + brtOffset + 86400 * epochDay)

include localEq

theorem year_nonneg (nonneg : 0 ≤ seconds) : 0 ≤ time.date.year := by
  have upper := time.date.dayNumber_lt_year
  have hour := time.hourInDay
  have minute := time.minuteInHour
  have second := time.secondInMinute
  simp only [LocalTime.seconds, brtOffset, epochDay] at localEq
  simp only [daysBeforeYear] at upper
  omega

/-- The years that 64 bits of microseconds reach. -/
theorem year_lt (small : seconds * 1000000 < 2 ^ 64) : time.date.year < 10 ^ 6 := by
  have lower := time.date.year_le_dayNumber
  simp only [LocalTime.seconds, brtOffset, epochDay] at localEq
  simp only [daysBeforeYear] at lower
  omega

end Years

end LocalTime

/-- Seconds and milliseconds of a stamp. -/
def stampSeconds (timestampUs : UInt64) : Nat := timestampUs.toNat / 1000000

def stampMilliseconds (timestampUs : UInt64) : Nat :=
  timestampUs.toNat % 1000000 / 1000

theorem formartTimestampUs_eq_formatTm (timestampUs : UInt64) :
    formartTimestampUs timestampUs =
      formatTm (localtimeR (stampSeconds timestampUs))
        (stampMilliseconds timestampUs) := by
  simp [formartTimestampUs, stampSeconds, stampMilliseconds]

theorem formatTm_eq {seconds : Int} {time : LocalTime} {fraction : Nat}
    (tm : localtimeR seconds = time.tm) (nonneg : 0 ≤ time.date.year)
    (short : time.date.year < 10 ^ 44) (small : fraction < 1000) :
    formatTm (localtimeR seconds) fraction = time.text fraction := by
  rw [formatTm, tm, LocalTime.tmText_tm nonneg, List.take_of_length_le]
  exact Nat.le_sub_one_of_lt (LocalTime.length_text short small)

theorem stampMilliseconds_lt (timestampUs : UInt64) :
    stampMilliseconds timestampUs < 1000 := by
  simp only [stampMilliseconds]
  omega

theorem formartTimestampUs_eq (timestampUs : UInt64) :
    ∃ time : LocalTime,
      localtimeR (stampSeconds timestampUs) = time.tm ∧
      0 ≤ time.date.year ∧ time.date.year < 10 ^ 44 ∧
      formartTimestampUs timestampUs = time.text (stampMilliseconds timestampUs) ∧
      time.milliseconds (stampMilliseconds timestampUs) =
        (timestampUs.toNat / 1000 : Nat) +
          1000 * (brtOffset + 86400 * epochDay) := by
  obtain ⟨time, tm, seconds⟩ := localtimeR_eq (stampSeconds timestampUs)
  have bounded := timestampUs.toNat_lt
  have nonneg := LocalTime.year_nonneg seconds (by omega)
  have late := LocalTime.year_lt seconds (by simp only [stampSeconds]; omega)
  have short : time.date.year < 10 ^ 44 := by omega
  refine ⟨time, tm, nonneg, short, ?_, ?_⟩
  · rw [formartTimestampUs_eq_formatTm,
      formatTm_eq tm nonneg short (stampMilliseconds_lt timestampUs)]
  · simp only [LocalTime.milliseconds, seconds, stampSeconds, stampMilliseconds]
    omega

theorem formartTimestampUs_whole (timestampUs : UInt64) :
    formartTimestampUs timestampUs =
        tmText (localtimeR (stampSeconds timestampUs))
          (stampMilliseconds timestampUs) ∧
      0 ∉ formartTimestampUs timestampUs ∧
      (formartTimestampUs timestampUs).length < timeBufferSize := by
  obtain ⟨time, tm, nonneg, short, printed, _⟩ := formartTimestampUs_eq timestampUs
  rw [printed, tm, LocalTime.tmText_tm nonneg]
  exact ⟨rfl, LocalTime.zero_notMem_text,
    LocalTime.length_text short (stampMilliseconds_lt timestampUs)⟩

theorem formartTimestampUs_eq_iff (timestampUs other : UInt64) :
    formartTimestampUs timestampUs = formartTimestampUs other ↔
      timestampUs.toNat / 1000 = other.toNat / 1000 := by
  obtain ⟨time, _, nonneg, _, printed, value⟩ := formartTimestampUs_eq timestampUs
  obtain ⟨otherTime, _, otherNonneg, _, otherPrinted, otherValue⟩ :=
    formartTimestampUs_eq other
  rw [printed, otherPrinted, LocalTime.text_eq_iff nonneg otherNonneg
    (stampMilliseconds_lt timestampUs) (stampMilliseconds_lt other), value, otherValue]
  omega

def localYear (timestampUs : UInt64) : Int :=
  (localtimeR (stampSeconds timestampUs)).tmYear + 1900

theorem formartTimestampUs_lt_iff {timestampUs other : UInt64}
    (fits : localYear timestampUs ≤ 9999) (otherFits : localYear other ≤ 9999) :
    formartTimestampUs timestampUs < formartTimestampUs other ↔
      timestampUs.toNat / 1000 < other.toNat / 1000 := by
  obtain ⟨time, tm, nonneg, _, printed, value⟩ := formartTimestampUs_eq timestampUs
  obtain ⟨otherTime, otherTm, otherNonneg, _, otherPrinted, otherValue⟩ :=
    formartTimestampUs_eq other
  rw [localYear, tm, LocalTime.tm, Int.sub_add_cancel] at fits
  rw [localYear, otherTm, LocalTime.tm, Int.sub_add_cancel] at otherFits
  rw [printed, otherPrinted, LocalTime.text_lt_iff nonneg otherNonneg fits otherFits
    (stampMilliseconds_lt timestampUs) (stampMilliseconds_lt other), value, otherValue]
  omega

/-- The microseconds that a `timeval` stands for. -/
def Timeval.microseconds (tv : Timeval) : Int := tv.tvSec * 1000000 + tv.tvUsec

theorem toNat_getEpochTimeUsAt (tv : Timeval) :
    ((getEpochTimeUsAt tv).toNat : Int) = tv.microseconds % 2 ^ 64 := by
  have joined : getEpochTimeUsAt tv = toUInt64 tv.microseconds := settimeofday_eq tv
  rw [joined, toUInt64_toNat]

theorem getFormatTime_eq {tv : Timeval} (normalised : tv.Normalised)
    (small : tv.microseconds < 2 ^ 64) :
    getFormatTime tv = formartTimestampUs (getEpochTimeUsAt tv) := by
  obtain ⟨secNonneg, usecNonneg, usecSmall⟩ := normalised
  have count := toNat_getEpochTimeUsAt tv
  simp only [Timeval.microseconds] at small count
  rw [Int.emod_eq_of_lt (by omega) small] at count
  have seconds : (stampSeconds (getEpochTimeUsAt tv) : Int) = tv.tvSec := by
    simp only [stampSeconds]
    omega
  have milliseconds : stampMilliseconds (getEpochTimeUsAt tv) =
      (tv.tvUsec.tdiv 1000 % 2 ^ 32).toNat := by
    rw [Int.tdiv_eq_ediv_of_nonneg usecNonneg]
    simp only [stampMilliseconds]
    omega
  rw [formartTimestampUs_eq_formatTm, seconds, milliseconds]
  rfl

/-- Later instants that still have a year in an `int` are printed differently,
since 64 bits do not count their microseconds. -/
theorem getFormatTime_ne {tv : Timeval} (normalised : tv.Normalised)
    (large : 2 ^ 64 ≤ tv.microseconds)
    (intYear : (localtimeR tv.tvSec).tmYear < 2 ^ 31) :
    getFormatTime tv ≠ formartTimestampUs (getEpochTimeUsAt tv) := by
  obtain ⟨secNonneg, usecNonneg, usecSmall⟩ := normalised
  obtain ⟨time, tm, seconds⟩ := localtimeR_eq tv.tvSec
  obtain ⟨other, _, otherNonneg, _, printed, value⟩ :=
    formartTimestampUs_eq (getEpochTimeUsAt tv)
  have count := toNat_getEpochTimeUsAt tv
  have wrapped := Int.emod_lt_of_pos tv.microseconds (show (0 : Int) < 2 ^ 64 by decide)
  have year : time.date.year - 1900 < 2 ^ 31 := by
    rw [tm] at intYear
    exact intYear
  have short : time.date.year < 10 ^ 44 := by omega
  have nonneg := LocalTime.year_nonneg seconds secNonneg
  have milliseconds : (tv.tvUsec.tdiv 1000 % 2 ^ 32).toNat =
      (tv.tvUsec / 1000).toNat := by
    rw [Int.tdiv_eq_ediv_of_nonneg usecNonneg]
    omega
  have small : (tv.tvUsec / 1000).toNat < 1000 := by omega
  intro same
  rw [getFormatTime, milliseconds, formatTm_eq tm nonneg short small, printed,
    LocalTime.text_eq_iff nonneg otherNonneg small (stampMilliseconds_lt _), value]
    at same
  simp only [LocalTime.milliseconds, seconds] at same
  simp only [Timeval.microseconds] at large count wrapped
  omega

/-- Stamps are printed whole, so that the milliseconds can be recovered, and in
order up to the year 9999, and both formatters print an instant alike as long as
64 bits count its microseconds. -/
theorem printedTimes_faithful :
    (∀ timestampUs : UInt64,
      formartTimestampUs timestampUs =
          tmText (localtimeR (stampSeconds timestampUs))
            (stampMilliseconds timestampUs) ∧
        0 ∉ formartTimestampUs timestampUs ∧
        (formartTimestampUs timestampUs).length < timeBufferSize) ∧
    (∀ timestampUs other : UInt64,
      formartTimestampUs timestampUs = formartTimestampUs other ↔
        timestampUs.toNat / 1000 = other.toNat / 1000) ∧
    (∀ timestampUs other : UInt64,
      localYear timestampUs ≤ 9999 → localYear other ≤ 9999 →
        (formartTimestampUs timestampUs < formartTimestampUs other ↔
          timestampUs.toNat / 1000 < other.toNat / 1000)) ∧
    (∀ tv : Timeval, tv.Normalised → tv.microseconds < 2 ^ 64 →
      getFormatTime tv = formartTimestampUs (getEpochTimeUsAt tv)) :=
  ⟨formartTimestampUs_whole, formartTimestampUs_eq_iff,
    fun _ _ => formartTimestampUs_lt_iff, fun _ => getFormatTime_eq⟩

theorem printedTimes_faithful_samples :
    formartTimestampUs 1709218799999999 < formartTimestampUs 1709218800000000 ∧
      getFormatTime ⟨1709218799, 999999⟩ =
        formartTimestampUs (getEpochTimeUsAt ⟨1709218799, 999999⟩) := by
  constructor
  · exact (printedTimes_faithful.2.2.1 1709218799999999 1709218800000000
      (by decide) (by decide)).mpr (by decide)
  · exact printedTimes_faithful.2.2.2 ⟨1709218799, 999999⟩ (by decide) (by decide)

/-- The first second whose microseconds 64 bits do not count. -/
def wrappingTimeval : Timeval := ⟨18446744073710, 0⟩

theorem printedTimes_alike_fails :
    ¬ ∀ tv : Timeval, tv.Normalised →
      getFormatTime tv = formartTimestampUs (getEpochTimeUsAt tv) := by
  intro alike
  exact getFormatTime_ne (show wrappingTimeval.Normalised by decide) (by decide)
    (by decide) (alike wrappingTimeval (by decide))

end Lora32Mqtt
