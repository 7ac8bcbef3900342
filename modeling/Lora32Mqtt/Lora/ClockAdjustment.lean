import Lora32Mqtt.Base.ClockExchange
import Lora32Mqtt.Lora.Messages

/-!
# The clock adjustment of the slave (`process_time_response`)

The function is modelled in two halves, since time may pass between its reading
of T4 and its reading of the time it corrects.  Signed operations wrap, as the
target does, and the model records whether one of them overflowed.
-/

namespace Lora32Mqtt

/-- Operands of the signed sum that is halved. -/
def outwardGap (response : LoraTimeSyncMsg) : Int :=
  toInt64 (response.t2 - response.t1)

def backGap (response : LoraTimeSyncMsg) (t4 : UInt64) : Int :=
  toInt64 (response.t3 - t4)

def timeOffset (response : LoraTimeSyncMsg) (t4 : UInt64) : Int :=
  (wrapInt64 (outwardGap response + backGap response t4)).tdiv 2

def roundTripDelay (response : LoraTimeSyncMsg) (t4 : UInt64) : Int :=
  toInt64 ((t4 - response.t1) - (response.t3 - response.t2))

/-- `llabs(offset) > 10000` -/
def needsAdjustment (offset : Int) : Bool := 10000 < offset.natAbs

def newTimeUs (tv : Timeval) (offset : Int) : Int :=
  wrapInt64 (wrapInt64 (wrapInt64 (tv.tvSec * 1000000) + tv.tvUsec) + offset)

/-- The `timeval` handed to `settimeofday`. -/
def adjustedTimeval (tv : Timeval) (offset : Int) : Timeval :=
  { tvSec := (newTimeUs tv offset).tdiv 1000000
    tvUsec := (newTimeUs tv offset).tmod 1000000 }

/-- Every signed operation on the way to the offset stays in range. -/
def offsetInRange (response : LoraTimeSyncMsg) (t4 : UInt64) : Bool :=
  decide (Int64Range (outwardGap response + backGap response t4))

/-- Every signed operation on the way to the new time stays in range. -/
def newTimeInRange (tv : Timeval) (offset : Int) : Bool :=
  decide (Int64Range (tv.tvSec * 1000000)) &&
    decide (Int64Range (tv.tvSec * 1000000 + tv.tvUsec)) &&
    decide (Int64Range (tv.tvSec * 1000000 + tv.tvUsec + offset))

/-- What one call computes, and the argument of `settimeofday` if it is called. -/
structure Correction where
  offset : Int
  roundTripDelay : Int
  adjustment : Option Timeval
  overflow : Bool
  deriving DecidableEq

/-- `process_time_response`; `clock4` is the system time at the T4 reading and
`clock5` the system time at `gettimeofday`. -/
def processTimeResponse (response : LoraTimeSyncMsg) (clock4 clock5 : UInt64) :
    Correction :=
  let t4 := getEpochTimeUs clock4
  let offset := timeOffset response t4
  let tv := gettimeofday clock5
  if needsAdjustment offset then
    { offset := offset
      roundTripDelay := roundTripDelay response t4
      adjustment := some (adjustedTimeval tv offset)
      overflow := !(offsetInRange response t4 && newTimeInRange tv offset) }
  else
    { offset := offset
      roundTripDelay := roundTripDelay response t4
      adjustment := none
      overflow := !offsetInRange response t4 }

theorem needsAdjustment_iff (offset : Int) :
    needsAdjustment offset = true ↔ 10000 < |offset| := by
  simp only [needsAdjustment]
  rw [decide_eq_true_iff, Int.abs_eq_natAbs]
  omega

section Fields

variable (response : LoraTimeSyncMsg) (clock4 clock5 : UInt64)

theorem processTimeResponse_offset :
    (processTimeResponse response clock4 clock5).offset =
      timeOffset response clock4 := by
  simp only [processTimeResponse, getEpochTimeUs_eq]
  split <;> rfl

theorem processTimeResponse_roundTripDelay :
    (processTimeResponse response clock4 clock5).roundTripDelay =
      roundTripDelay response clock4 := by
  simp only [processTimeResponse, getEpochTimeUs_eq]
  split <;> rfl

theorem processTimeResponse_adjustment :
    (processTimeResponse response clock4 clock5).adjustment =
      if needsAdjustment (timeOffset response clock4) then
        some (adjustedTimeval (gettimeofday clock5)
          (timeOffset response clock4))
      else none := by
  simp only [processTimeResponse, getEpochTimeUs_eq]
  split <;> rfl

theorem processTimeResponse_overflow_eq_false_iff :
    (processTimeResponse response clock4 clock5).overflow = false ↔
      offsetInRange response clock4 = true ∧
        (needsAdjustment (timeOffset response clock4) = true →
          newTimeInRange (gettimeofday clock5)
            (timeOffset response clock4) = true) := by
  simp only [processTimeResponse, getEpochTimeUs_eq]
  split
  next adjusts => simp [adjusts]
  next keeps => simp [keeps]

end Fields

theorem newTimeInRange_iff (clock : UInt64) (offset : Int) :
    newTimeInRange (gettimeofday clock) offset = true ↔
      clock.toNat < 2 ^ 63 ∧ Int64Range (clock.toNat + offset) := by
  simp only [newTimeInRange, Bool.and_eq_true, decide_eq_true_eq]
  simp only [gettimeofday, Int64Range]
  omega

theorem newTimeUs_eq {clock : UInt64} {offset : Int}
    (inRange : newTimeInRange (gettimeofday clock) offset = true) :
    newTimeUs (gettimeofday clock) offset = clock.toNat + offset := by
  obtain ⟨small, total⟩ := (newTimeInRange_iff clock offset).mp inRange
  have seconds : Int64Range ((gettimeofday clock).tvSec * 1000000) := by
    simp only [Int64Range, gettimeofday]
    omega
  have joined : (gettimeofday clock).tvSec * 1000000 +
      (gettimeofday clock).tvUsec = clock.toNat := by
    simp only [gettimeofday]
    omega
  have current : Int64Range (clock.toNat : Int) := by
    simp only [Int64Range]
    omega
  simp only [newTimeUs]
  rw [wrapInt64_of_range seconds, joined, wrapInt64_of_range current,
    wrapInt64_of_range total]

/-- C's truncating `/` and `%` give a proper `timeval` exactly for times at or
after the epoch. -/
theorem adjustedTimeval_normalised_iff (tv : Timeval) (offset : Int) :
    (adjustedTimeval tv offset).Normalised ↔ 0 ≤ newTimeUs tv offset := by
  simp only [Timeval.Normalised, adjustedTimeval]
  constructor
  · intro normalised
    obtain ⟨seconds, microseconds, _⟩ := normalised
    have joined := Int.mul_tdiv_add_tmod (newTimeUs tv offset) 1000000
    omega
  · intro nonneg
    rw [Int.tdiv_eq_ediv_of_nonneg nonneg, Int.tmod_eq_emod_of_nonneg nonneg]
    omega

theorem settimeofday_adjustedTimeval (tv : Timeval) (offset : Int) :
    settimeofday (adjustedTimeval tv offset) =
      toUInt64 (newTimeUs tv offset) := by
  have joined := Int.mul_tdiv_add_tmod (newTimeUs tv offset) 1000000
  rw [settimeofday_eq]
  congr 1
  simp only [adjustedTimeval]
  omega

theorem settimeofday_adjusted_of_range {clock : UInt64} {offset : Int}
    (inRange : newTimeInRange (gettimeofday clock) offset = true) :
    settimeofday (adjustedTimeval (gettimeofday clock) offset) =
      toUInt64 (clock.toNat + offset) := by
  rw [settimeofday_adjustedTimeval, newTimeUs_eq inRange]

namespace Exchange

def response (exchange : Exchange) : LoraTimeSyncMsg :=
  { msgType := LoraMsgType.timeResponse.code
    t1 := toUInt64 exchange.t1
    t2 := toUInt64 exchange.t2
    t3 := toUInt64 exchange.t3
    t4 := 0 }

/-- The four readings stay far from the ends of the 64-bit range. -/
structure InRange (exchange : Exchange) : Prop where
  t1 : 0 ≤ exchange.t1 ∧ exchange.t1 < 2 ^ 62
  t2 : 0 ≤ exchange.t2 ∧ exchange.t2 < 2 ^ 62
  t3 : 0 ≤ exchange.t3 ∧ exchange.t3 < 2 ^ 62
  t4 : 0 ≤ exchange.t4 ∧ exchange.t4 < 2 ^ 62

variable {exchange : Exchange}

theorem outwardGap_response (inRange : exchange.InRange) :
    outwardGap exchange.response = exchange.t2 - exchange.t1 := by
  obtain ⟨first, second, _, _⟩ := inRange
  simp only [outwardGap, response]
  rw [toUInt64_sub]
  exact toInt64_toUInt64 (by unfold Int64Range; omega)

theorem backGap_response (inRange : exchange.InRange) :
    backGap exchange.response (toUInt64 exchange.t4) =
      exchange.t3 - exchange.t4 := by
  obtain ⟨_, _, third, fourth⟩ := inRange
  simp only [backGap, response]
  rw [toUInt64_sub]
  exact toInt64_toUInt64 (by unfold Int64Range; omega)

theorem doubled_range (inRange : exchange.InRange) :
    Int64Range exchange.doubled := by
  obtain ⟨first, second, third, fourth⟩ := inRange
  simp only [Int64Range, doubled]
  omega

/-- The machine computation is the estimate of the exchange. -/
theorem timeOffset_response (inRange : exchange.InRange) :
    timeOffset exchange.response (toUInt64 exchange.t4) = exchange.estimate := by
  simp only [timeOffset]
  rw [outwardGap_response inRange, backGap_response inRange]
  exact congrArg (Int.tdiv · 2) (wrapInt64_of_range (doubled_range inRange))

theorem offsetInRange_response (inRange : exchange.InRange) :
    offsetInRange exchange.response (toUInt64 exchange.t4) = true := by
  simp only [offsetInRange]
  rw [outwardGap_response inRange, backGap_response inRange, decide_eq_true_iff]
  exact doubled_range inRange

theorem roundTripDelay_response (inRange : exchange.InRange) :
    roundTripDelay exchange.response (toUInt64 exchange.t4) =
      exchange.roundTrip := by
  obtain ⟨first, second, third, fourth⟩ := inRange
  simp only [roundTripDelay, response]
  rw [toUInt64_sub, toUInt64_sub, toUInt64_sub]
  exact toInt64_toUInt64 (by unfold Int64Range; omega)

end Exchange

end Lora32Mqtt
