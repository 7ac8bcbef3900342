import Mathlib.Algebra.Order.Group.Int
import Mathlib.Tactic.Ring

/-!
# Fixed-width integers of the C code

Unsigned 64-bit values are `UInt64`.  A signed 64-bit value is an integer; the
conversions reduce modulo `2^64`, and `Int64Range` says that an operation did
not overflow.  Division and remainder of C truncate toward zero.
-/

namespace Lora32Mqtt

/-- `(uint64_t) value`. -/
def toUInt64 (value : Int) : UInt64 := UInt64.ofNat (value % 2 ^ 64).toNat

/-- `(int64_t) value`. -/
def toInt64 (value : UInt64) : Int :=
  if value.toNat < 2 ^ 63 then value.toNat else value.toNat - 2 ^ 64

def Int64Range (value : Int) : Prop := -2 ^ 63 ≤ value ∧ value < 2 ^ 63

instance (value : Int) : Decidable (Int64Range value) :=
  inferInstanceAs (Decidable (_ ∧ _))

/-- The 64 bits a signed operation leaves behind when it overflows. -/
def wrapInt64 (value : Int) : Int := toInt64 (toUInt64 value)

theorem toUInt64_toNat (value : Int) :
    ((toUInt64 value).toNat : Int) = value % 2 ^ 64 := by
  have below : (value % 2 ^ 64).toNat < 2 ^ 64 := by omega
  simp only [toUInt64]
  rw [UInt64.toNat_ofNat_of_lt' below]
  omega

theorem toUInt64_toNat_of_range {value : Int}
    (nonneg : 0 ≤ value) (below : value < 2 ^ 64) :
    ((toUInt64 value).toNat : Int) = value := by
  rw [toUInt64_toNat]
  omega

theorem toUInt64_ofNat_toNat (value : UInt64) :
    toUInt64 value.toNat = value := by
  apply UInt64.toNat_inj.mp
  have bound := value.toNat_lt
  have same := toUInt64_toNat value.toNat
  omega

@[simp] theorem toUInt64_sub (left right : Int) :
    toUInt64 left - toUInt64 right = toUInt64 (left - right) := by
  apply UInt64.toNat_inj.mp
  rw [UInt64.toNat_sub]
  have leftValue := toUInt64_toNat left
  have rightValue := toUInt64_toNat right
  have difference := toUInt64_toNat (left - right)
  omega

theorem toUInt64_add (left right : Int) :
    toUInt64 left + toUInt64 right = toUInt64 (left + right) := by
  apply UInt64.toNat_inj.mp
  rw [UInt64.toNat_add]
  have leftValue := toUInt64_toNat left
  have rightValue := toUInt64_toNat right
  have total := toUInt64_toNat (left + right)
  omega

theorem toUInt64_mul (left right : Int) :
    toUInt64 left * toUInt64 right = toUInt64 (left * right) := by
  apply UInt64.toNat_inj.mp
  rw [UInt64.toNat_mul]
  have product := toUInt64_toNat (left * right)
  have reduced := Int.mul_emod left right (2 ^ 64)
  rw [← toUInt64_toNat left, ← toUInt64_toNat right] at reduced
  omega

theorem toInt64_toUInt64 {value : Int} (range : Int64Range value) :
    toInt64 (toUInt64 value) = value := by
  have reduced := toUInt64_toNat value
  simp only [Int64Range] at range
  simp only [toInt64]
  split <;> omega

theorem wrapInt64_of_range {value : Int} (range : Int64Range value) :
    wrapInt64 value = value :=
  toInt64_toUInt64 range

/-- Halving toward zero loses at most one half. -/
theorem two_mul_tdiv_two (value : Int) :
    value - 1 ≤ 2 * value.tdiv 2 ∧ 2 * value.tdiv 2 ≤ value + 1 := by
  rcases Int.le_total 0 value with nonneg | nonpos
  · rw [Int.tdiv_eq_ediv_of_nonneg nonneg]
    omega
  · have opposite : value.tdiv 2 = -((-value).tdiv 2) := by simp
    rw [opposite, Int.tdiv_eq_ediv_of_nonneg (by omega)]
    omega

theorem tdiv_two_of_nonneg {value : Int} (nonneg : 0 ≤ value) :
    value - 1 ≤ 2 * value.tdiv 2 ∧ 2 * value.tdiv 2 ≤ value := by
  rw [Int.tdiv_eq_ediv_of_nonneg nonneg]
  omega

theorem tdiv_two_of_nonpos {value : Int} (nonpos : value ≤ 0) :
    value ≤ 2 * value.tdiv 2 ∧ 2 * value.tdiv 2 ≤ value + 1 := by
  have opposite : value.tdiv 2 = -((-value).tdiv 2) := by simp
  rw [opposite, Int.tdiv_eq_ediv_of_nonneg (by omega)]
  omega

end Lora32Mqtt
