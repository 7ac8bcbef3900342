import Lora32Mqtt.Base.CString

/-!
# Padded decimal numerals

A numeral that is padded with zeros determines its number, and numerals of one
width are in the order of their numbers.
-/

namespace Lora32Mqtt

/-- Texts that start with texts of one length are ordered by these first. -/
theorem append_lt_append_iff {α : Type} [LT α] {first other rest otherRest : List α}
    (length : first.length = other.length) :
    first ++ rest < other ++ otherRest ↔
      first < other ∨ first = other ∧ rest < otherRest := by
  induction first generalizing other with
  | nil =>
      obtain rfl := List.length_eq_zero_iff.mp length.symm
      simp
  | cons head tail induction =>
      cases other with
      | nil => cases length
      | cons otherHead otherTail =>
          rw [List.cons_append, List.cons_append, List.cons_lt_cons_iff,
            List.cons_lt_cons_iff, induction (Nat.succ.inj length),
            List.cons.injEq]
          constructor
          · rintro (head | ⟨head, tail | ⟨tail, rest⟩⟩)
            · exact .inl (.inl head)
            · exact .inl (.inr ⟨head, tail⟩)
            · exact .inr ⟨⟨head, tail⟩, rest⟩
          · rintro ((head | ⟨head, tail⟩) | ⟨⟨head, tail⟩, rest⟩)
            · exact .inl head
            · exact .inr ⟨head, .inl tail⟩
            · exact .inr ⟨head, .inr ⟨tail, rest⟩⟩

def digitByte (digit : Nat) : UInt8 := UInt8.ofNat (48 + digit)

theorem toNat_digitByte {digit : Nat} (small : digit < 10) :
    (digitByte digit).toNat = 48 + digit :=
  UInt8.toNat_ofNat_of_lt' (by simp only [UInt8.size]; omega)

theorem decimal_of_lt {value : Nat} (small : value < 10) :
    decimal value = [digitByte value] := by
  rw [decimal, Nat.toDigits_of_lt_base small, List.map_singleton,
    Nat.toNat_digitChar_of_lt_ten small, digitByte]

theorem decimal_of_le {value : Nat} (large : 10 ≤ value) :
    decimal value = decimal (value / 10) ++ [digitByte (value % 10)] := by
  rw [decimal, Nat.toDigits_of_base_le (by decide) large, List.map_append,
    List.map_singleton,
    Nat.toNat_digitChar_of_lt_ten (Nat.mod_lt _ (by decide)), digitByte]
  rfl

def decimalValue (text : List UInt8) : Nat :=
  text.foldl (fun value digit => 10 * value + (digit.toNat - 48)) 0

theorem decimalValue_concat (text : List UInt8) {digit : Nat} (small : digit < 10) :
    decimalValue (text ++ [digitByte digit]) = 10 * decimalValue text + digit := by
  simp only [decimalValue, List.foldl_append, List.foldl_cons, List.foldl_nil,
    toNat_digitByte small]
  omega

theorem decimalValue_decimal (value : Nat) : decimalValue (decimal value) = value := by
  induction value using Nat.strongRecOn with
  | ind value induction =>
      rcases Nat.lt_or_ge value 10 with small | large
      · have single := decimalValue_concat [] small
        rw [List.nil_append] at single
        rw [decimal_of_lt small, single]
        simp [decimalValue]
      · rw [decimal_of_le large, decimalValue_concat _ (Nat.mod_lt _ (by decide)),
          induction _ (by omega)]
        omega

/-- A numeral with zeros in front of it up to a width. -/
def padded (width value : Nat) : List UInt8 :=
  List.replicate (width - (decimal value).length) 48 ++ decimal value

theorem decimalValue_padded (width value : Nat) :
    decimalValue (padded width value) = value := by
  have zeros (count : Nat) : decimalValue (List.replicate count 48) = 0 := by
    induction count with
    | zero => rfl
    | succ count induction =>
        rw [decimalValue, List.replicate_succ]
        exact induction
  have joined (text : List UInt8) (zero : decimalValue text = 0) :
      decimalValue (text ++ decimal value) = decimalValue (decimal value) := by
    rw [decimalValue, List.foldl_append]
    exact congrArg (fun start => (decimal value).foldl _ start) zero
  rw [padded, joined _ (zeros _), decimalValue_decimal]

theorem padded_injective {width value other : Nat}
    (same : padded width value = padded width other) : value = other := by
  rw [← decimalValue_padded width value, same, decimalValue_padded]

theorem padded_inj {width value other : Nat} :
    padded width value = padded width other ↔ value = other :=
  ⟨padded_injective, congrArg (padded width)⟩

theorem zero_notMem_padded (width value : Nat) : 0 ∉ padded width value := by
  simp [padded, zero_notMem_decimal]

theorem length_padded {width value : Nat} (positive : 0 < width)
    (fits : value < 10 ^ width) : (padded width value).length = width := by
  have short := length_decimal_le positive fits
  simp only [padded, List.length_append, List.length_replicate]
  omega

theorem length_padded_le {width value bound : Nat} (positive : 0 < bound)
    (wide : width ≤ bound) (fits : value < 10 ^ bound) :
    (padded width value).length ≤ bound := by
  have short := length_decimal_le positive fits
  simp only [padded, List.length_append, List.length_replicate]
  omega

theorem padded_one {value : Nat} (small : value < 10) :
    padded 1 value = [digitByte value] := by
  rw [padded, decimal_of_lt small]
  rfl

theorem padded_succ {width : Nat} (positive : 0 < width) (value : Nat) :
    padded (width + 1) value =
      padded width (value / 10) ++ [digitByte (value % 10)] := by
  rcases Nat.lt_or_ge value 10 with small | large
  · rw [Nat.div_eq_of_lt small, Nat.mod_eq_of_lt small, padded, padded,
      decimal_of_lt small, decimal_of_lt (by decide)]
    have zeros : List.replicate width (48 : UInt8) =
        List.replicate (width - 1) 48 ++ [digitByte 0] := by
      rw [show digitByte 0 = 48 from rfl, ← List.replicate_succ',
        show width - 1 + 1 = width by omega]
    simp only [List.length_singleton, Nat.add_sub_cancel, zeros]
  · rw [padded, padded, decimal_of_le large, List.length_append,
      List.length_singleton, List.append_assoc, Nat.add_sub_add_right]

theorem padded_lt_padded_iff {width value other : Nat} (positive : 0 < width)
    (fits : value < 10 ^ width) (otherFits : other < 10 ^ width) :
    padded width value < padded width other ↔ value < other := by
  obtain ⟨width, rfl⟩ := Nat.exists_eq_succ_of_ne_zero (Nat.ne_of_gt positive)
  induction width generalizing value other with
  | zero =>
      rw [padded_one fits, padded_one otherFits, List.cons_lt_cons_iff,
        UInt8.lt_iff_toNat_lt, toNat_digitByte fits, toNat_digitByte otherFits]
      simp
  | succ width induction =>
      have digit := Nat.mod_lt value (show 10 > 0 by decide)
      have otherDigit := Nat.mod_lt other (show 10 > 0 by decide)
      have front : value / 10 < 10 ^ (width + 1) := by
        rw [Nat.pow_succ] at fits
        omega
      have otherFront : other / 10 < 10 ^ (width + 1) := by
        rw [Nat.pow_succ] at otherFits
        omega
      have last : [digitByte (value % 10)] < [digitByte (other % 10)] ↔
          value % 10 < other % 10 := by
        rw [List.cons_lt_cons_iff, UInt8.lt_iff_toNat_lt, toNat_digitByte digit,
          toNat_digitByte otherDigit]
        simp
      rw [padded_succ (Nat.succ_pos _), padded_succ (Nat.succ_pos _),
        append_lt_append_iff (by
          rw [length_padded (Nat.succ_pos _) front,
            length_padded (Nat.succ_pos _) otherFront]),
        induction (Nat.succ_pos _) front otherFront, padded_inj, last]
      omega

end Lora32Mqtt
