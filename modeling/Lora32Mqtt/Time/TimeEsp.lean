import Lora32Mqtt.Base.CString
import Lora32Mqtt.Base.MachineInt

/-!
# The system clock (`time_esp.cpp`)

The system time is a 64-bit count of microseconds since the epoch, which is how
the C library of the board keeps it.  The wrappers read it through `timeval`;
`formartTimestampUs` prints a stamp in local time (`TZ` is `BRT3`, three hours
behind UTC all year).
-/

namespace Lora32Mqtt

/-- `struct timeval`; both members are signed in C. -/
structure Timeval where
  tvSec : Int
  tvUsec : Int
  deriving DecidableEq

/-- A time that names an instant at or after the epoch. -/
def Timeval.Normalised (tv : Timeval) : Prop :=
  0 ≤ tv.tvSec ∧ 0 ≤ tv.tvUsec ∧ tv.tvUsec < 1000000

instance (tv : Timeval) : Decidable tv.Normalised :=
  inferInstanceAs (Decidable (_ ∧ _ ∧ _))

/-- `gettimeofday` at system time `clock`. -/
def gettimeofday (clock : UInt64) : Timeval :=
  { tvSec := clock.toNat / 1000000
    tvUsec := clock.toNat % 1000000 }

/-- The system time `settimeofday` leaves behind. -/
def settimeofday (tv : Timeval) : UInt64 :=
  toUInt64 tv.tvSec * 1000000 + toUInt64 tv.tvUsec

/-- `get_epoch_time_us`, from what `gettimeofday` writes. -/
def getEpochTimeUsAt (tv : Timeval) : UInt64 :=
  toUInt64 tv.tvSec * 1000000 + toUInt64 tv.tvUsec

def getEpochTimeUs (clock : UInt64) : UInt64 :=
  getEpochTimeUsAt (gettimeofday clock)

theorem gettimeofday_normalised (clock : UInt64) :
    (gettimeofday clock).Normalised := by
  simp only [Timeval.Normalised, gettimeofday]
  omega

theorem settimeofday_eq (tv : Timeval) :
    settimeofday tv = toUInt64 (tv.tvSec * 1000000 + tv.tvUsec) := by
  have million : (1000000 : UInt64) = toUInt64 1000000 := rfl
  rw [settimeofday, million, toUInt64_mul, toUInt64_add]

/-- Splitting into seconds and microseconds and joining again loses nothing. -/
theorem settimeofday_gettimeofday (clock : UInt64) :
    settimeofday (gettimeofday clock) = clock := by
  rw [settimeofday_eq]
  have joined : (gettimeofday clock).tvSec * 1000000 +
      (gettimeofday clock).tvUsec = clock.toNat := by
    simp only [gettimeofday]
    omega
  rw [joined, toUInt64_ofNat_toNat]

@[simp] theorem getEpochTimeUs_eq (clock : UInt64) :
    getEpochTimeUs clock = clock :=
  settimeofday_gettimeofday clock

/-- The members of `struct tm` that are printed. -/
structure Tm where
  tmYear : Int
  tmMon : Int
  tmMday : Int
  tmHour : Int
  tmMin : Int
  tmSec : Int
  deriving DecidableEq

/-- Offset of `BRT3` from UTC, in seconds. -/
def brtOffset : Int := -10800

/-- `localtime_r`: the proleptic Gregorian calendar.  Years are counted from
March so that the leap day ends a year, in cycles of 400 years. -/
def localtimeR (seconds : Int) : Tm :=
  let localSeconds := seconds + brtOffset
  let days := localSeconds / 86400
  let secondOfDay := localSeconds % 86400
  let shifted := days + 719468
  let era := shifted / 146097
  let dayOfEra := shifted % 146097
  let yearOfEra :=
    (dayOfEra - dayOfEra / 1460 + dayOfEra / 36524 - dayOfEra / 146096) / 365
  let dayOfYear := dayOfEra - (365 * yearOfEra + yearOfEra / 4 - yearOfEra / 100)
  let marchMonth := (5 * dayOfYear + 2) / 153
  let month := if marchMonth < 10 then marchMonth + 3 else marchMonth - 9
  let year := yearOfEra + era * 400 + (if month ≤ 2 then 1 else 0)
  { tmYear := year - 1900
    tmMon := month - 1
    tmMday := dayOfYear - (153 * marchMonth + 2) / 5 + 1
    tmHour := secondOfDay / 3600
    tmMin := secondOfDay % 3600 / 60
    tmSec := secondOfDay % 60 }

/-- `%0<width>d`. -/
def zeroPadded (width : Nat) (value : Int) : List UInt8 :=
  if value < 0 then
    45 :: (List.replicate (width - 1 - (decimal value.natAbs).length) 48 ++
      decimal value.natAbs)
  else
    List.replicate (width - (decimal value.natAbs).length) 48 ++
      decimal value.natAbs

def timeBufferSize : Nat := 64

/-- What the format of both formatters prints. -/
def tmText (timeinfo : Tm) (milliseconds : Nat) : List UInt8 :=
  zeroPadded 4 (timeinfo.tmYear + 1900) ++ 45 ::
    (zeroPadded 2 (timeinfo.tmMon + 1) ++ 45 ::
      (zeroPadded 2 timeinfo.tmMday ++ 32 ::
        (zeroPadded 2 timeinfo.tmHour ++ 58 ::
          (zeroPadded 2 timeinfo.tmMin ++ 58 ::
            (zeroPadded 2 timeinfo.tmSec ++ 46 ::
              zeroPadded 3 milliseconds)))))

/-- Their `snprintf`, which cuts the text to the buffer. -/
def formatTm (timeinfo : Tm) (milliseconds : Nat) : List UInt8 :=
  (tmText timeinfo milliseconds).take (timeBufferSize - 1)

/-- `formart_timestamp_us`, as the text it leaves in its static buffer. -/
def formartTimestampUs (timestampUs : UInt64) : List UInt8 :=
  let seconds := timestampUs / 1000000
  let microseconds := timestampUs % 1000000
  let milliseconds := microseconds / 1000
  formatTm (localtimeR seconds.toNat) milliseconds.toNat

-- The stamp one microsecond after the epoch is still in the previous year.
example : formartTimestampUs 1 = asciiBytes "1969-12-31 21:00:00.000" := by decide

example : formartTimestampUs 1709218799999999 =
    asciiBytes "2024-02-29 11:59:59.999" := by decide

end Lora32Mqtt
