import Lora32Mqtt.Lora.ClockAdjustment

/-!
# What one correction does to the clock

For stamps of a real exchange the machine arithmetic is exact and the remaining
error is half the asymmetry of the delays.  For arbitrary stamps the last
theorem says which of them keep the arithmetic in range and lead to a proper
time.
-/

namespace Lora32Mqtt

def Reading (value : Int) : Prop := 0 ≤ value ∧ value < 2 ^ 62

instance (value : Int) : Decidable (Reading value) :=
  inferInstanceAs (Decidable (_ ∧ _))

namespace Exchange

variable {exchange : Exchange}

/-- The offset of an in-range exchange is far too small to overflow the sum
with a reading. -/
theorem estimate_range (inRange : exchange.InRange) :
    -2 ^ 62 ≤ exchange.estimate ∧ exchange.estimate ≤ 2 ^ 62 := by
  obtain ⟨first, second, third, fourth⟩ := inRange
  have halved := two_mul_tdiv_two exchange.doubled
  simp only [estimate]
  simp only [doubled] at halved ⊢
  omega

theorem newTimeInRange_estimate (inRange : exchange.InRange) {now : Int}
    (reading : Reading now) :
    newTimeInRange (gettimeofday (toUInt64 now)) exchange.estimate = true := by
  simp only [Reading] at reading
  have range := estimate_range inRange
  have value := toUInt64_toNat_of_range reading.1 (by omega)
  refine (newTimeInRange_iff _ _).mpr ⟨by omega, ?_⟩
  simp only [Int64Range]
  omega

theorem processTimeResponse_overflow (inRange : exchange.InRange) {now : Int}
    (reading : Reading now) :
    (processTimeResponse exchange.response (toUInt64 exchange.t4)
      (toUInt64 now)).overflow = false := by
  rw [processTimeResponse_overflow_eq_false_iff, timeOffset_response inRange]
  exact ⟨offsetInRange_response inRange,
    fun _ => newTimeInRange_estimate inRange reading⟩

theorem processTimeResponse_adjusts (inRange : exchange.InRange)
    (clock5 : UInt64) (large : 10000 < |exchange.estimate|) :
    (processTimeResponse exchange.response (toUInt64 exchange.t4)
      clock5).adjustment =
        some (adjustedTimeval (gettimeofday clock5) exchange.estimate) := by
  rw [processTimeResponse_adjustment, timeOffset_response inRange,
    if_pos ((needsAdjustment_iff _).mpr large)]

theorem processTimeResponse_keeps (inRange : exchange.InRange)
    (clock5 : UInt64) (small : |exchange.estimate| ≤ 10000) :
    (processTimeResponse exchange.response (toUInt64 exchange.t4)
      clock5).adjustment = none := by
  have keeps : ¬ needsAdjustment exchange.estimate = true := by
    rw [needsAdjustment_iff]
    omega
  rw [processTimeResponse_adjustment, timeOffset_response inRange,
    if_neg keeps]

theorem settimeofday_estimate (inRange : exchange.InRange) {now : Int}
    (reading : Reading now) (nonneg : 0 ≤ now + exchange.estimate) :
    (adjustedTimeval (gettimeofday (toUInt64 now))
        exchange.estimate).Normalised ∧
      ((settimeofday (adjustedTimeval (gettimeofday (toUInt64 now))
        exchange.estimate)).toNat : Int) = now + exchange.estimate := by
  have newRange := newTimeInRange_estimate inRange reading
  have range := estimate_range inRange
  simp only [Reading] at reading
  have value := toUInt64_toNat_of_range reading.1 (by omega)
  constructor
  · rw [adjustedTimeval_normalised_iff, newTimeUs_eq newRange, value]
    exact nonneg
  · rw [settimeofday_adjusted_of_range newRange, value]
    exact toUInt64_toNat_of_range nonneg (by omega)

end Exchange

/-- An exchange with one offset `theta`, request stamp `t1` and delays `d1`,
`p`, `d2`. -/
def steadyExchange (theta t1 d1 p d2 : Int) : Exchange :=
  { reference := t1 + theta
    before := theta
    after := theta
    outward := d1
    waiting := p
    back := d2 }

section Steady

variable {theta t1 d1 p d2 : Int}

theorem steadyExchange_t4 :
    (steadyExchange theta t1 d1 p d2).t4 = t1 + d1 + p + d2 := by
  simp only [steadyExchange, Exchange.t4]
  omega

theorem steadyExchange_inRange
    (reading1 : Reading t1) (reading2 : Reading (t1 + d1 + theta))
    (reading3 : Reading (t1 + d1 + p + theta))
    (reading4 : Reading (t1 + d1 + p + d2)) :
    (steadyExchange theta t1 d1 p d2).InRange := by
  simp only [Reading] at reading1 reading2 reading3 reading4
  constructor <;>
    simp only [steadyExchange, Exchange.t1, Exchange.t2, Exchange.t3,
      Exchange.t4] <;> omega

theorem steadyExchange_doubled :
    (steadyExchange theta t1 d1 p d2).doubled = 2 * theta + d1 - d2 := by
  rw [Exchange.doubled_eq]
  simp only [steadyExchange, Exchange.asymmetry]
  omega

theorem steadyExchange_estimate :
    (steadyExchange theta t1 d1 p d2).estimate =
      (2 * theta + d1 - d2).tdiv 2 := by
  rw [Exchange.estimate, steadyExchange_doubled]

theorem steadyExchange_response (theta t1 d1 p d2 : Int) :
    (steadyExchange theta t1 d1 p d2).response =
      { msgType := LoraMsgType.timeResponse.code
        t1 := toUInt64 t1
        t2 := toUInt64 (t1 + d1 + theta)
        t3 := toUInt64 (t1 + d1 + p + theta)
        t4 := 0 } := by
  simp only [Exchange.response, steadyExchange, Exchange.t1, Exchange.t2,
    Exchange.t3, LoraTimeSyncMsg.mk.injEq, true_and, and_true]
  refine ⟨?_, ?_, ?_⟩ <;> congr 1 <;> ring

end Steady

/-- The correction of a steady exchange in machine arithmetic: no overflow, the
exact round trip, the offset rounded toward zero, and either a clock moved by
exactly the offset that is left with half the asymmetry, or an untouched clock
that was at most half of `20001` plus the asymmetry away. -/
theorem processTimeResponse_steady
    (theta t1 d1 p d2 lag : Int)
    (d1Nonneg : 0 ≤ d1) (pNonneg : 0 ≤ p) (d2Nonneg : 0 ≤ d2)
    (lagNonneg : 0 ≤ lag)
    (reading1 : Reading t1) (reading2 : Reading (t1 + d1 + theta))
    (reading3 : Reading (t1 + d1 + p + theta))
    (reading4 : Reading (t1 + d1 + p + d2))
    (reading5 : Reading (t1 + d1 + p + d2 + lag)) :
    let correction := processTimeResponse
      { msgType := LoraMsgType.timeResponse.code
        t1 := toUInt64 t1
        t2 := toUInt64 (t1 + d1 + theta)
        t3 := toUInt64 (t1 + d1 + p + theta)
        t4 := 0 }
      (toUInt64 (t1 + d1 + p + d2)) (toUInt64 (t1 + d1 + p + d2 + lag))
    correction.overflow = false ∧
    correction.roundTripDelay = d1 + d2 ∧
    correction.offset = (2 * theta + d1 - d2).tdiv 2 ∧
    (10000 < |correction.offset| →
      ∃ tv, correction.adjustment = some tv ∧ tv.Normalised ∧
        ((getEpochTimeUs (settimeofday tv)).toNat : Int) =
          t1 + d1 + p + d2 + lag + correction.offset ∧
        2 * |theta - correction.offset| ≤ |d1 - d2| + 1) ∧
    (|correction.offset| ≤ 10000 →
      correction.adjustment = none ∧ 2 * |theta| ≤ 20001 + |d1 - d2|) := by
  let exchange := steadyExchange theta t1 d1 p d2
  have inRange : exchange.InRange :=
    steadyExchange_inRange reading1 reading2 reading3 reading4
  have unmoved : exchange.after = exchange.before := rfl
  have stamp4 : exchange.t4 = t1 + d1 + p + d2 := steadyExchange_t4
  rw [← steadyExchange_response theta t1 d1 p d2, ← stamp4]
  rw [← stamp4] at reading5
  have offset := processTimeResponse_offset exchange.response
    (toUInt64 exchange.t4) (toUInt64 (exchange.t4 + lag))
  rw [Exchange.timeOffset_response inRange] at offset
  have overflow := Exchange.processTimeResponse_overflow inRange reading5
  have delay := processTimeResponse_roundTripDelay exchange.response
    (toUInt64 exchange.t4) (toUInt64 (exchange.t4 + lag))
  rw [Exchange.roundTripDelay_response inRange,
    exchange.roundTrip_eq unmoved] at delay
  refine ⟨overflow, delay, offset.trans steadyExchange_estimate, ?_, ?_⟩
  · intro large
    rw [offset] at large ⊢
    have nonneg : 0 ≤ exchange.t4 + lag + exchange.estimate := by
      have reached := exchange.corrected_nonneg inRange.t2.1 d1Nonneg pNonneg
        d2Nonneg unmoved
      omega
    obtain ⟨normalised, moved⟩ :=
      Exchange.settimeofday_estimate inRange reading5 nonneg
    refine ⟨_, Exchange.processTimeResponse_adjusts inRange _ large,
      normalised, ?_, exchange.residual_bound_of_unmoved unmoved⟩
    rw [getEpochTimeUs_eq]
    exact moved
  · intro small
    rw [offset] at small
    exact ⟨Exchange.processTimeResponse_keeps inRange _ small,
      exchange.offset_bound_of_estimate unmoved small⟩

/-- A slave 50 ms ahead, asked over a slow way out and a fast way back. -/
theorem processTimeResponse_steady_ahead :
    let correction := processTimeResponse
      { msgType := LoraMsgType.timeResponse.code
        t1 := toUInt64 1000000
        t2 := toUInt64 (1000000 + 90000 + -50000)
        t3 := toUInt64 (1000000 + 90000 + 1000 + -50000)
        t4 := 0 }
      (toUInt64 (1000000 + 90000 + 1000 + 30000))
      (toUInt64 (1000000 + 90000 + 1000 + 30000 + 500))
    correction.overflow = false ∧
    correction.roundTripDelay = 90000 + 30000 ∧
    correction.offset = (2 * -50000 + 90000 - 30000 : Int).tdiv 2 ∧
    (10000 < |correction.offset| →
      ∃ tv, correction.adjustment = some tv ∧ tv.Normalised ∧
        ((getEpochTimeUs (settimeofday tv)).toNat : Int) =
          1000000 + 90000 + 1000 + 30000 + 500 + correction.offset ∧
        2 * |(-50000) - correction.offset| ≤ |(90000 : Int) - 30000| + 1) ∧
    (|correction.offset| ≤ 10000 →
      correction.adjustment = none ∧
        2 * |(-50000 : Int)| ≤ 20001 + |(90000 : Int) - 30000|) :=
  processTimeResponse_steady (-50000) 1000000 90000 1000 30000 500
    (by decide) (by decide) (by decide) (by decide) (by decide) (by decide)
    (by decide) (by decide) (by decide)

/-- One call neither overflows nor hands `settimeofday` an improper time. -/
def RobustAdjustment (response : LoraTimeSyncMsg) (clock4 clock5 : UInt64) :
    Prop :=
  (processTimeResponse response clock4 clock5).overflow = false ∧
    ∀ tv, (processTimeResponse response clock4 clock5).adjustment = some tv →
      tv.Normalised

theorem toInt64_sub (left right : UInt64) :
    toInt64 (left - right) =
      Int.bmod ((left.toNat : Int) - right.toNat) (2 ^ 64) := by
  have leftBound := left.toNat_lt
  have rightBound := right.toNat_lt
  have difference := UInt64.toNat_sub left right
  rw [Int.bmod_def]
  simp only [toInt64]
  split <;> split <;> omega

/-- The two gaps between the stamps, each taken modulo `2^64` around zero. -/
def stampGaps (response : LoraTimeSyncMsg) (clock4 : UInt64) : Int :=
  Int.bmod ((response.t2.toNat : Int) - response.t1.toNat) (2 ^ 64) +
    Int.bmod ((response.t3.toNat : Int) - clock4.toNat) (2 ^ 64)

theorem offsetInRange_iff (response : LoraTimeSyncMsg) (clock4 : UInt64) :
    offsetInRange response clock4 = true ↔
      Int64Range (stampGaps response clock4) := by
  unfold offsetInRange outwardGap backGap stampGaps
  rw [toInt64_sub, toInt64_sub, decide_eq_true_iff]

theorem timeOffset_of_range {response : LoraTimeSyncMsg} {clock4 : UInt64}
    (range : Int64Range (stampGaps response clock4)) :
    timeOffset response clock4 = (stampGaps response clock4).tdiv 2 := by
  simp only [timeOffset, outwardGap, backGap]
  rw [toInt64_sub, toInt64_sub]
  exact congrArg (Int.tdiv · 2) (wrapInt64_of_range range)

/-- The half of the gaps leads from a reading to a time in `[0, 2^63)`. -/
theorem newTime_proper_iff (gaps : Int) (clock : UInt64) :
    (newTimeInRange (gettimeofday clock) (gaps.tdiv 2) = true ∧
        (adjustedTimeval (gettimeofday clock) (gaps.tdiv 2)).Normalised) ↔
      clock.toNat < 2 ^ 63 ∧ -1 ≤ 2 * (clock.toNat : Int) + gaps ∧
        2 * (clock.toNat : Int) + gaps < 2 ^ 64 := by
  rw [adjustedTimeval_normalised_iff]
  rcases Int.le_total 0 gaps with nonneg | nonpos
  · have halved := tdiv_two_of_nonneg nonneg
    constructor
    · intro newTime
      obtain ⟨inRange, proper⟩ := newTime
      obtain ⟨small, total⟩ := (newTimeInRange_iff _ _).mp inRange
      simp only [Int64Range] at total
      omega
    · intro bounds
      obtain ⟨small, _, below⟩ := bounds
      have inRange : newTimeInRange (gettimeofday clock) (gaps.tdiv 2) = true :=
        (newTimeInRange_iff _ _).mpr ⟨small, by unfold Int64Range; omega⟩
      refine ⟨inRange, ?_⟩
      rw [newTimeUs_eq inRange]
      omega
  · have halved := tdiv_two_of_nonpos nonpos
    constructor
    · intro newTime
      obtain ⟨inRange, proper⟩ := newTime
      obtain ⟨small, _⟩ := (newTimeInRange_iff _ _).mp inRange
      rw [newTimeUs_eq inRange] at proper
      omega
    · intro bounds
      obtain ⟨small, above, _⟩ := bounds
      have inRange : newTimeInRange (gettimeofday clock) (gaps.tdiv 2) = true :=
        (newTimeInRange_iff _ _).mpr ⟨small, by unfold Int64Range; omega⟩
      refine ⟨inRange, ?_⟩
      rw [newTimeUs_eq inRange]
      omega

theorem needsAdjustment_tdiv_iff (gaps : Int) :
    needsAdjustment (gaps.tdiv 2) = true ↔ 20001 < |gaps| := by
  rw [needsAdjustment_iff]
  rcases Int.le_total 0 gaps with nonneg | nonpos
  · have halved := tdiv_two_of_nonneg nonneg
    rw [abs_of_nonneg (show 0 ≤ gaps.tdiv 2 by omega), abs_of_nonneg nonneg]
    omega
  · have halved := tdiv_two_of_nonpos nonpos
    rw [abs_of_nonpos (show gaps.tdiv 2 ≤ 0 by omega), abs_of_nonpos nonpos]
    omega

/-- Exactly the stamps that the adjustment withstands: their gaps add up
without overflow, and unless these are within the threshold, half of them added
to the reading stays in `[0, 2^63)`. -/
theorem robustAdjustment_iff (response : LoraTimeSyncMsg)
    (clock4 clock5 : UInt64) :
    RobustAdjustment response clock4 clock5 ↔
      Int64Range (stampGaps response clock4) ∧
        (|stampGaps response clock4| ≤ 20001 ∨
          (clock5.toNat < 2 ^ 63 ∧
            -1 ≤ 2 * (clock5.toNat : Int) + stampGaps response clock4 ∧
            2 * (clock5.toNat : Int) + stampGaps response clock4 < 2 ^ 64)) := by
  simp only [RobustAdjustment]
  rw [processTimeResponse_overflow_eq_false_iff, processTimeResponse_adjustment,
    offsetInRange_iff, and_assoc]
  refine and_congr_right fun range => ?_
  rw [timeOffset_of_range range, ← newTime_proper_iff]
  have threshold := needsAdjustment_tdiv_iff (stampGaps response clock4)
  by_cases adjusts :
      needsAdjustment ((stampGaps response clock4).tdiv 2) = true
  · have large : ¬ |stampGaps response clock4| ≤ 20001 :=
      not_le.mpr (threshold.mp adjusts)
    simp [adjusts, large]
  · have small : |stampGaps response clock4| ≤ 20001 :=
      not_lt.mp fun large => adjusts (threshold.mpr large)
    simp [adjusts, small]

/-- Two frames the slave accepts: one overflows the sum of the gaps, the other
sets a clock that shows 2.5 s to a time before the epoch. -/
theorem robustAdjustment_fails :
    ¬ RobustAdjustment
        { msgType := LoraMsgType.timeResponse.code
          t1 := 0, t2 := 9223372036854775807
          t3 := 9223372036854775807, t4 := 0 } 2500000 2500000 ∧
      ¬ RobustAdjustment
        { msgType := LoraMsgType.timeResponse.code
          t1 := 8000000, t2 := 0, t3 := 0, t4 := 0 } 2500000 2500000 := by
  constructor
  · intro robust
    have overflow := robust.1
    revert overflow
    decide
  · intro robust
    have proper := robust.2 { tvSec := -2, tvUsec := -750000 } (by decide)
    revert proper
    decide

end Lora32Mqtt
