import Lora32Mqtt.Base.MachineInt
import Mathlib.Algebra.Order.Group.Abs

/-!
# Two-way clock exchanges

A client stamps a request (`t1`), a reference clock stamps its arrival (`t2`)
and the answer (`t3`), and the client stamps the arrival of the answer (`t4`).
All clocks advance at the same rate, so an exchange is given by the distance
from the client to the reference at both ends and by three delays.  The client
may have moved between its two stamps.
-/

namespace Lora32Mqtt

structure Exchange where
  /-- Reference reading when the request is stamped. -/
  reference : Int
  /-- Reference minus client when the request is stamped. -/
  before : Int
  /-- Reference minus client when the answer arrives. -/
  after : Int
  outward : Int
  waiting : Int
  back : Int
  deriving DecidableEq

namespace Exchange

variable (exchange : Exchange)

def t1 : Int := exchange.reference - exchange.before
def t2 : Int := exchange.reference + exchange.outward
def t3 : Int := exchange.reference + exchange.outward + exchange.waiting
def t4 : Int :=
  exchange.reference + exchange.outward + exchange.waiting + exchange.back -
    exchange.after

/-- The signed sum that the client halves. -/
def doubled : Int := (exchange.t2 - exchange.t1) + (exchange.t3 - exchange.t4)

/-- The correction the client computes, truncated toward zero. -/
def estimate : Int := exchange.doubled.tdiv 2

def roundTrip : Int :=
  (exchange.t4 - exchange.t1) - (exchange.t3 - exchange.t2)

def asymmetry : Int := exchange.outward - exchange.back

theorem doubled_eq :
    exchange.doubled =
      exchange.before + exchange.after + exchange.asymmetry := by
  simp only [doubled, asymmetry, t1, t2, t3, t4]
  omega

/-- Neither the offset nor the waiting time of a client that did not move
enters the round trip. -/
theorem roundTrip_eq (unmoved : exchange.after = exchange.before) :
    exchange.roundTrip = exchange.outward + exchange.back := by
  simp only [roundTrip, t1, t2, t3, t4]
  omega

/-- Twice the error left by the correction, compared with how far the client
moved between its stamps. -/
theorem residual_bound :
    |2 * (exchange.after - exchange.estimate) -
        (exchange.after - exchange.before)| ≤ |exchange.asymmetry| + 1 := by
  have halved := two_mul_tdiv_two exchange.doubled
  rw [exchange.doubled_eq] at halved
  simp only [estimate]
  rw [exchange.doubled_eq]
  have upper := le_abs_self exchange.asymmetry
  have lower := neg_abs_le exchange.asymmetry
  exact abs_le.mpr ⟨by omega, by omega⟩

theorem residual_bound_of_unmoved
    (unmoved : exchange.after = exchange.before) :
    2 * |exchange.after - exchange.estimate| ≤ |exchange.asymmetry| + 1 := by
  have bound := abs_le.mp exchange.residual_bound
  rw [unmoved] at bound ⊢
  rcases abs_cases (exchange.before - exchange.estimate) with
    ⟨same, _⟩ | ⟨opposite, _⟩
  · omega
  · omega

theorem offset_bound_of_estimate
    (unmoved : exchange.after = exchange.before) {threshold : Int}
    (small : |exchange.estimate| ≤ threshold) :
    2 * |exchange.before| ≤ 2 * threshold + 1 + |exchange.asymmetry| := by
  have halved := two_mul_tdiv_two exchange.doubled
  rw [exchange.doubled_eq, unmoved] at halved
  simp only [estimate] at small
  rw [exchange.doubled_eq, unmoved] at small
  have bounds := abs_le.mp small
  have upper := le_abs_self exchange.asymmetry
  have lower := neg_abs_le exchange.asymmetry
  rcases abs_cases exchange.before with ⟨same, _⟩ | ⟨opposite, _⟩
  · omega
  · omega

/-- Applied on top of the reading `t4`, the correction never leads below the
half-way point between the reference stamps. -/
theorem corrected_nonneg
    (reading : 0 ≤ exchange.t2) (outward : 0 ≤ exchange.outward)
    (waiting : 0 ≤ exchange.waiting) (back : 0 ≤ exchange.back)
    (unmoved : exchange.after = exchange.before) :
    0 ≤ exchange.t4 + exchange.estimate := by
  have halved := two_mul_tdiv_two exchange.doubled
  have sum := exchange.doubled_eq
  simp only [estimate]
  simp only [t2] at reading
  simp only [t4]
  simp only [asymmetry] at sum
  omega

end Exchange

end Lora32Mqtt
