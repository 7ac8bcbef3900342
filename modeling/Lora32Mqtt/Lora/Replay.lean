import Lora32Mqtt.Lora.CorrectionBounds

/-!
# A response received twice

The slave keeps nothing about its outstanding request, so a response that
arrives again is processed like any other.  Its stamps are those of the same
exchange with a longer way back and a client that has moved in between.
-/

namespace Lora32Mqtt

/-- What one call adds to the clock for the offset it has computed. -/
def applied (offset : Int) : Int := if needsAdjustment offset then offset else 0

theorem abs_applied_le {offset : Int} (small : |offset| ≤ 2 ^ 62) :
    |applied offset| ≤ 2 ^ 62 := by
  simp only [applied]
  split
  · exact small
  · decide

theorem applied_eq_zero_iff (offset : Int) :
    applied offset = 0 ↔ |offset| ≤ 10000 := by
  have adjusts := needsAdjustment_iff offset
  simp only [applied]
  split
  next large =>
    have far := adjusts.mp large
    constructor
    · intro zero
      rw [zero, abs_zero] at far
      omega
    · intro near
      omega
  next small =>
    have near : ¬ 10000 < |offset| := fun far => small (adjusts.mpr far)
    simp only [true_iff]
    omega

/-- System time of the slave at the end of `process_time_response`: T4 is read
at `clock`, and `lag` microseconds later the time that may be corrected. -/
def clockAfter (response : LoraTimeSyncMsg) (clock : UInt64) (lag : Int) :
    UInt64 :=
  match (processTimeResponse response clock (clock + toUInt64 lag)).adjustment with
  | some tv => settimeofday tv
  | none => clock + toUInt64 lag

/-- Processed again `wait` microseconds later, the response leaves the clock to
run on as the first call left it. -/
def HarmlessReplay (response : LoraTimeSyncMsg) (clock : UInt64)
    (lag wait lagAgain : Int) : Prop :=
  clockAfter response (clockAfter response clock lag + toUInt64 wait) lagAgain =
    clockAfter response clock lag + toUInt64 wait + toUInt64 lagAgain

instance (response : LoraTimeSyncMsg) (clock : UInt64)
    (lag wait lagAgain : Int) :
    Decidable (HarmlessReplay response clock lag wait lagAgain) :=
  inferInstanceAs (Decidable (_ = _))

namespace Exchange

variable {exchange : Exchange}

theorem clockAfter_response (inRange : exchange.InRange) {lag : Int}
    (reading : Reading (exchange.t4 + lag)) :
    clockAfter exchange.response (toUInt64 exchange.t4) lag =
      toUInt64 (exchange.t4 + lag + applied exchange.estimate) := by
  have inTime := newTimeInRange_estimate inRange reading
  -- its equation takes seconds to derive
  delta clockAfter
  rw [applied, toUInt64_add, processTimeResponse_adjustment,
    timeOffset_response inRange]
  cases adjusts : needsAdjustment exchange.estimate with
  | true =>
      rw [if_pos rfl, if_pos rfl]
      change settimeofday (adjustedTimeval _ _) = _
      rw [settimeofday_adjusted_of_range inTime]
      have value := toUInt64_toNat_of_range reading.1
        (by have below := reading.2; omega)
      rw [value]
  | false =>
      rw [if_neg Bool.false_ne_true, if_neg Bool.false_ne_true, Int.add_zero]

/-- The exchange as its response shows it `delay` microseconds later, to a
client that has moved by `moved`. -/
def replayed (exchange : Exchange) (moved delay : Int) : Exchange :=
  { exchange with
    after := exchange.after - moved
    back := exchange.back + delay }

theorem replayed_t4 (moved delay : Int) :
    (exchange.replayed moved delay).t4 = exchange.t4 + moved + delay := by
  simp only [replayed, t4]
  omega

theorem replayed_response (moved delay : Int) :
    (exchange.replayed moved delay).response = exchange.response := rfl

theorem replayed_estimate (moved delay : Int) :
    (exchange.replayed moved delay).estimate =
      (exchange.doubled - moved - delay).tdiv 2 := by
  simp only [estimate]
  congr 1
  simp only [doubled_eq, replayed, asymmetry]
  omega

theorem replayed_inRange (inRange : exchange.InRange) {moved delay : Int}
    (reading : Reading (exchange.t4 + moved + delay)) :
    (exchange.replayed moved delay).InRange := by
  refine ⟨inRange.t1, inRange.t2, inRange.t3, ?_⟩
  rw [replayed_t4]
  exact reading

end Exchange

/-- The threshold on the offset in terms of the sum that is halved. -/
theorem abs_tdiv_two_le_iff (gaps : Int) :
    |gaps.tdiv 2| ≤ 10000 ↔ |gaps| ≤ 20001 := by
  have threshold := needsAdjustment_tdiv_iff gaps
  rw [needsAdjustment_iff] at threshold
  omega

/-- Adding a small number to a reading changes it unless the number is zero. -/
theorem toUInt64_add_eq_iff {value change : Int}
    (small : |change| ≤ 2 ^ 62) :
    toUInt64 (value + change) = toUInt64 value ↔ change = 0 := by
  constructor
  · intro same
    have changed := toUInt64_toNat (value + change)
    have unchanged := toUInt64_toNat value
    rw [same] at changed
    have bounds := abs_le.mp small
    omega
  · intro zero
    rw [zero, add_zero]

/-- What the second processing of a response does: it finds the sum of the first
one less what the clock was moved and the time that has passed, and the clock is
left alone exactly if that sum is within the threshold. -/
theorem replay_effect
    (theta t1 d1 p d2 lag wait lagAgain : Int)
    (reading1 : Reading t1) (reading2 : Reading (t1 + d1 + theta))
    (reading3 : Reading (t1 + d1 + p + theta))
    (reading4 : Reading (t1 + d1 + p + d2))
    (reading5 : Reading (t1 + d1 + p + d2 + lag))
    (readingAgain4 : Reading (t1 + d1 + p + d2 + lag +
      applied ((2 * theta + d1 - d2).tdiv 2) + wait))
    (readingAgain5 : Reading (t1 + d1 + p + d2 + lag +
      applied ((2 * theta + d1 - d2).tdiv 2) + wait + lagAgain)) :
    let response : LoraTimeSyncMsg :=
      { msgType := LoraMsgType.timeResponse.code
        t1 := toUInt64 t1
        t2 := toUInt64 (t1 + d1 + theta)
        t3 := toUInt64 (t1 + d1 + p + theta)
        t4 := 0 }
    let t4 := t1 + d1 + p + d2
    let moved := applied ((2 * theta + d1 - d2).tdiv 2)
    let gaps := 2 * theta + d1 - d2 - moved - (lag + wait)
    clockAfter response (toUInt64 t4) lag = toUInt64 (t4 + lag + moved) ∧
    clockAfter response (toUInt64 (t4 + lag + moved + wait)) lagAgain =
      toUInt64 (t4 + lag + moved + wait + lagAgain + applied (gaps.tdiv 2)) ∧
    (HarmlessReplay response (toUInt64 t4) lag wait lagAgain ↔
      |gaps| ≤ 20001) := by
  intro response t4 moved gaps
  let exchange := steadyExchange theta t1 d1 p d2
  let again := exchange.replayed moved (lag + wait)
  have inRange : exchange.InRange :=
    steadyExchange_inRange reading1 reading2 reading3 reading4
  have stamp4 : exchange.t4 = t4 := steadyExchange_t4
  have isResponse : exchange.response = response :=
    steadyExchange_response theta t1 d1 p d2
  have estimate : applied exchange.estimate = moved :=
    congrArg applied steadyExchange_estimate
  have doubled : exchange.doubled = 2 * theta + d1 - d2 := steadyExchange_doubled
  have stampAgain : again.t4 = t4 + lag + moved + wait := by
    rw [Exchange.replayed_t4, stamp4]
    omega
  have inRangeAgain : again.InRange := by
    refine Exchange.replayed_inRange inRange ?_
    rw [stamp4, show t4 + moved + (lag + wait) = t4 + lag + moved + wait by omega]
    exact readingAgain4
  have estimateAgain : again.estimate = gaps.tdiv 2 := by
    rw [Exchange.replayed_estimate, doubled]
  have first : clockAfter response (toUInt64 t4) lag =
      toUInt64 (t4 + lag + moved) := by
    have once := Exchange.clockAfter_response inRange
      (show Reading (exchange.t4 + lag) from by rw [stamp4]; exact reading5)
    rwa [stamp4, isResponse, estimate] at once
  have second : clockAfter response (toUInt64 (t4 + lag + moved + wait))
      lagAgain =
        toUInt64 (t4 + lag + moved + wait + lagAgain +
          applied (gaps.tdiv 2)) := by
    have twice := Exchange.clockAfter_response inRangeAgain
      (show Reading (again.t4 + lagAgain) from by
        rw [stampAgain]; exact readingAgain5)
    rwa [stampAgain, Exchange.replayed_response, isResponse, estimateAgain]
      at twice
  refine ⟨first, second, ?_⟩
  have small : |applied (gaps.tdiv 2)| ≤ 2 ^ 62 := by
    have range := Exchange.estimate_range inRangeAgain
    rw [estimateAgain] at range
    exact abs_applied_le (abs_le.mpr range)
  rw [HarmlessReplay, first, toUInt64_add, toUInt64_add, second,
    toUInt64_add_eq_iff small, applied_eq_zero_iff, abs_tdiv_two_le_iff]

/-- A slave 50 ms ahead: a duplicate after one second. -/
theorem replay_effect_ahead :
    let response : LoraTimeSyncMsg :=
      { msgType := LoraMsgType.timeResponse.code
        t1 := toUInt64 1000000
        t2 := toUInt64 (1000000 + 90000 + -50000)
        t3 := toUInt64 (1000000 + 90000 + 1000 + -50000)
        t4 := 0 }
    let t4 := 1000000 + 90000 + 1000 + 30000
    let moved := applied ((2 * -50000 + 90000 - 30000 : Int).tdiv 2)
    let gaps := 2 * -50000 + 90000 - 30000 - moved - (500 + 1000000)
    clockAfter response (toUInt64 t4) 500 = toUInt64 (t4 + 500 + moved) ∧
    clockAfter response (toUInt64 (t4 + 500 + moved + 1000000)) 500 =
      toUInt64 (t4 + 500 + moved + 1000000 + 500 + applied (gaps.tdiv 2)) ∧
    (HarmlessReplay response (toUInt64 t4) 500 1000000 500 ↔
      |gaps| ≤ 20001) :=
  replay_effect (-50000) 1000000 90000 1000 30000 500 1000000 500
    (by decide) (by decide) (by decide) (by decide) (by decide) (by decide)
    (by decide)

/-- A slave that shows the master's time is set back by its own response,
received again one second later. -/
theorem harmlessReplay_fails :
    ¬ ∀ theta t1 d1 p d2 lag wait lagAgain : Int,
      0 ≤ d1 → 0 ≤ p → 0 ≤ d2 → 0 ≤ lag → 0 ≤ wait → 0 ≤ lagAgain →
      Reading t1 → Reading (t1 + d1 + theta) → Reading (t1 + d1 + p + theta) →
      Reading (t1 + d1 + p + d2) →
      Reading (t1 + d1 + p + d2 + lag + wait + lagAgain) →
      HarmlessReplay
        { msgType := LoraMsgType.timeResponse.code
          t1 := toUInt64 t1
          t2 := toUInt64 (t1 + d1 + theta)
          t3 := toUInt64 (t1 + d1 + p + theta)
          t4 := 0 }
        (toUInt64 (t1 + d1 + p + d2)) lag wait lagAgain := by
  intro always
  have harmless := always 0 1000000 50000 1000 50000 500 1000000 500
    (by decide) (by decide) (by decide) (by decide) (by decide) (by decide)
    (by decide) (by decide) (by decide) (by decide) (by decide)
  revert harmless
  decide

end Lora32Mqtt
