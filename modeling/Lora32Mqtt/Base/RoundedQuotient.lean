import Mathlib.Algebra.Group.Nat.Defs

/-!
# Truncated quotients of a floating format

A floating division rounds the exact quotient to the nearest number of the format,
and a cast to an integer drops its fraction.  Rounding can only matter to the
result if it reaches the next integer, which a small divisor does not allow.
-/

namespace Lora32Mqtt

/-- The integer nearest to a quotient; of two equally near ones the even one. -/
def nearestQuotient (numerator divisor : Nat) : Nat :=
  let whole := numerator / divisor
  let rest := numerator % divisor
  if 2 * rest < divisor ∨ 2 * rest = divisor ∧ whole % 2 = 0 then whole
  else whole + 1

/-- The bits of the fraction that a quotient from one on keeps, if the significand
has `precision` bits. -/
def fractionBits (precision numerator divisor : Nat) : Nat :=
  precision - 1 - Nat.log2 (numerator / divisor)

/-- Divide in the format, then cut off the fraction. -/
def truncatedQuotient (precision numerator divisor : Nat) : Nat :=
  let bits := fractionBits precision numerator divisor
  nearestQuotient (numerator * 2 ^ bits) divisor / 2 ^ bits

/-- The number of the format nearest to an integer. -/
def roundedInteger (precision value : Nat) : Nat :=
  let unit := 2 ^ (Nat.log2 value + 1 - precision)
  nearestQuotient value unit * unit

theorem roundedInteger_of_lt {precision value : Nat} (some : 0 < precision)
    (small : value < 2 ^ precision) : roundedInteger precision value = value := by
  have bits : Nat.log2 value + 1 - precision = 0 := by
    by_cases zero : value = 0
    · rw [zero, Nat.log2_zero]
      omega
    · have below := (Nat.log2_lt zero).mpr small
      omega
  simp [roundedInteger, bits, nearestQuotient, Nat.mod_one]

theorem nearestQuotient_cases (numerator divisor : Nat) (positive : 0 < divisor) :
    nearestQuotient numerator divisor = numerator / divisor ∨
      nearestQuotient numerator divisor = numerator / divisor + 1 ∧
        numerator % divisor ≠ 0 := by
  simp only [nearestQuotient]
  split
  next => exact .inl rfl
  next far =>
    refine .inr ⟨rfl, fun exact => far (.inl ?_)⟩
    rw [exact]
    exact positive

/-- A quotient that is rounded up stays below the next integer. -/
theorem scaled_div_succ_lt {numerator divisor scale : Nat} (positive : 0 < divisor)
    (fine : divisor ≤ scale) (inexact : numerator * scale % divisor ≠ 0) :
    numerator * scale / divisor + 1 < (numerator / divisor + 1) * scale := by
  have rest := Nat.mod_lt numerator positive
  have split := Nat.div_add_mod numerator divisor
  have below : numerator * scale + divisor ≤
      divisor * ((numerator / divisor + 1) * scale) := by
    calc numerator * scale + divisor
        ≤ numerator * scale + scale := Nat.add_le_add_left fine _
      _ = (numerator + 1) * scale := (Nat.succ_mul numerator scale).symm
      _ ≤ (divisor * (numerator / divisor) + divisor) * scale := by
          refine Nat.mul_le_mul_right scale ?_
          omega
      _ = divisor * ((numerator / divisor + 1) * scale) := by
          rw [← Nat.mul_succ, Nat.mul_assoc]
  have strict : numerator * scale <
      divisor * ((numerator / divisor + 1) * scale - 1) := by
    rw [Nat.mul_sub_one]
    refine Nat.lt_of_le_of_ne (by omega) fun same => inexact ?_
    rw [same, ← Nat.mul_sub_one, Nat.mul_mod_right]
  exact Nat.add_lt_of_lt_sub (Nat.div_lt_of_lt_mul strict)

theorem truncatedQuotient_eq {precision numerator divisor : Nat}
    (positive : 0 < divisor)
    (fine : divisor ≤ 2 ^ fractionBits precision numerator divisor) :
    truncatedQuotient precision numerator divisor = numerator / divisor := by
  simp only [truncatedQuotient]
  generalize 2 ^ fractionBits precision numerator divisor = scale at fine ⊢
  have scalePositive : 0 < scale := Nat.lt_of_lt_of_le positive fine
  have exact : numerator * scale / divisor / scale = numerator / divisor := by
    rw [Nat.div_div_eq_div_mul, Nat.mul_div_mul_right _ _ scalePositive]
  rcases nearestQuotient_cases (numerator * scale) divisor positive with
    down | ⟨up, inexact⟩
  · rw [down, exact]
  · rw [up]
    refine Nat.le_antisymm ?_ ?_
    · exact Nat.le_of_lt_succ (Nat.div_lt_of_lt_mul (by
        rw [Nat.mul_comm scale]
        exact scaled_div_succ_lt positive fine inexact))
    · rw [← exact]
      exact Nat.div_le_div_right (Nat.le_succ _)

theorem truncatedQuotient_of_lt {precision numerator divisor bits : Nat}
    (positive : 0 < divisor) (fits : numerator / divisor < 2 ^ bits)
    (fine : divisor ≤ 2 ^ (precision - 1 - bits)) :
    truncatedQuotient precision numerator divisor = numerator / divisor := by
  have size : Nat.log2 (numerator / divisor) ≤ bits := by
    by_cases zero : numerator / divisor = 0
    · rw [zero, Nat.log2_zero]
      exact Nat.zero_le bits
    · exact Nat.le_of_lt ((Nat.log2_lt zero).mpr fits)
  refine truncatedQuotient_eq positive (Nat.le_trans fine ?_)
  exact Nat.pow_le_pow_right (by decide) (Nat.sub_le_sub_left size _)

end Lora32Mqtt
