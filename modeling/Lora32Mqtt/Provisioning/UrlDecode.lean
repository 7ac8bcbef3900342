import Lora32Mqtt.Base.CString

/-!
# Form values (`url_decode`)

`url_decode` reads escapes as long as its array has room.  `EncodedAs` relates a
value to every text that an encoder may choose for it, and `FormEncoded` to those
of `application/x-www-form-urlencoded`; the decoder cuts what it inverts.
-/

namespace Lora32Mqtt

def isXDigit (byte : UInt8) : Bool :=
  (0x30 ≤ byte && byte ≤ 0x39) || (0x41 ≤ byte && byte ≤ 0x46) ||
    (0x61 ≤ byte && byte ≤ 0x66)

def hexDigitValue (digit : UInt8) : UInt8 :=
  if digit ≤ 0x39 then digit - 0x30
  else if digit ≤ 0x46 then digit - 0x37
  else digit - 0x57

/-- `strtol` on two hexadecimal digits, as a `char` -/
def hexByte (high low : UInt8) : UInt8 :=
  hexDigitValue high * 16 + hexDigitValue low

def plainByte (byte : UInt8) : UInt8 := if byte = 0x2B then 0x20 else byte

/-- One round of the loop: the byte written and what is left to read.  The NUL
at the end of the text is no digit. -/
def decodeNext (byte : UInt8) (rest : List UInt8) : UInt8 × List UInt8 :=
  match rest with
  | high :: low :: later =>
      if byte = 0x25 ∧ isXDigit high ∧ isXDigit low then
        (hexByte high low, later)
      else (plainByte byte, rest)
  | _ => (plainByte byte, rest)

/-- The loop with the room left in the array. -/
def decodeInto : Nat → List UInt8 → List UInt8
  | 0, _ => []
  | _ + 1, [] => []
  | room + 1, byte :: rest =>
      (decodeNext byte rest).1 :: decodeInto room (decodeNext byte rest).2

/-- What `url_decode` writes before its NUL. -/
def urlDecode (encoded : List UInt8) (maxLen : Nat) : List UInt8 :=
  decodeInto (maxLen - 1) encoded

/-- The whole decoded value. -/
def formDecode (encoded : List UInt8) : List UInt8 :=
  decodeInto encoded.length encoded

theorem length_decodeNext_le (byte : UInt8) (rest : List UInt8) :
    (decodeNext byte rest).2.length ≤ rest.length := by
  simp only [decodeNext]
  split
  · split
    · simp only [List.length_cons]
      omega
    · exact Nat.le_refl _
  · exact Nat.le_refl _

theorem decodeInto_take (room more : Nat) (encoded : List UInt8) :
    (decodeInto (room + more) encoded).take room = decodeInto room encoded := by
  induction room generalizing encoded with
  | zero => simp [decodeInto]
  | succ room induction =>
      rw [Nat.succ_add]
      cases encoded with
      | nil => simp [decodeInto]
      | cons byte rest => simp only [decodeInto, List.take_succ_cons, induction]

/-- There is never more to write than there was to read. -/
theorem decodeInto_enough {room : Nat} {encoded : List UInt8}
    (enough : encoded.length ≤ room) :
    decodeInto room encoded = formDecode encoded := by
  have whole : ∀ (room : Nat) (encoded : List UInt8), encoded.length ≤ room →
      decodeInto room encoded = decodeInto (room + 1) encoded := by
    intro room
    induction room with
    | zero =>
        intro encoded short
        rw [List.length_eq_zero_iff.mp (Nat.le_zero.mp short)]
        rfl
    | succ room induction =>
        intro encoded short
        cases encoded with
        | nil => rfl
        | cons byte rest =>
            have shorter := length_decodeNext_le byte rest
            simp only [List.length_cons] at short
            simp only [decodeInto]
            rw [induction _ (by omega)]
  obtain ⟨more, rfl⟩ := Nat.exists_eq_add_of_le enough
  induction more with
  | zero => rfl
  | succ more induction =>
      rw [← Nat.add_assoc, ← whole _ encoded (by omega), induction (by omega)]

/-- The array cuts the value, nothing else. -/
theorem urlDecode_eq_take (encoded : List UInt8) (maxLen : Nat) :
    urlDecode encoded maxLen = (formDecode encoded).take (maxLen - 1) := by
  rw [urlDecode, ← decodeInto_take (maxLen - 1) encoded.length,
    decodeInto_enough (by omega)]

theorem length_urlDecode_le (encoded : List UInt8) (maxLen : Nat) :
    (urlDecode encoded maxLen).length ≤ maxLen - 1 := by
  rw [urlDecode_eq_take]
  exact List.length_take_le _ _

theorem urlDecode_eq_formDecode {encoded : List UInt8} {maxLen : Nat}
    (fits : encoded.length < maxLen) :
    urlDecode encoded maxLen = formDecode encoded :=
  decodeInto_enough (by omega)

theorem formDecode_cons (byte : UInt8) (rest : List UInt8) :
    formDecode (byte :: rest) =
      (decodeNext byte rest).1 :: formDecode (decodeNext byte rest).2 := by
  rw [formDecode, List.length_cons, decodeInto,
    decodeInto_enough (length_decodeNext_le byte rest)]

theorem formDecode_eq_nil {encoded : List UInt8} :
    formDecode encoded = [] ↔ encoded = [] := by
  cases encoded with
  | nil => simp [formDecode, decodeInto]
  | cons byte rest => simp [formDecode_cons]

/-- Letters, digits and `*`, `-`, `.`, `_` stand for themselves. -/
def isUnreserved (byte : UInt8) : Bool :=
  (0x30 ≤ byte && byte ≤ 0x39) || (0x41 ≤ byte && byte ≤ 0x5A) ||
    (0x61 ≤ byte && byte ≤ 0x7A) || byte == 0x2A || byte == 0x2D ||
    byte == 0x2E || byte == 0x5F

/-- A text for a value.  Every byte may be escaped. -/
inductive FormEncoded : List UInt8 → List UInt8 → Prop where
  | nil : FormEncoded [] []
  | unreserved {byte : UInt8} {value text : List UInt8} :
      isUnreserved byte → FormEncoded value text →
      FormEncoded (byte :: value) (byte :: text)
  | space {value text : List UInt8} :
      FormEncoded value text → FormEncoded (0x20 :: value) (0x2B :: text)
  | escape {high low : UInt8} {value text : List UInt8} :
      isXDigit high → isXDigit low → FormEncoded value text →
      FormEncoded (hexByte high low :: value) (0x25 :: high :: low :: text)

theorem decodeNext_of_not_percent {byte : UInt8} (rest : List UInt8)
    (noEscape : byte ≠ 0x25) :
    decodeNext byte rest = (plainByte byte, rest) := by
  simp only [decodeNext]
  split
  · exact if_neg fun escape => noEscape escape.1
  · rfl

theorem isUnreserved_not_special {byte : UInt8} (unreserved : isUnreserved byte) :
    byte ≠ 0 ∧ byte ≠ 0x25 ∧ byte ≠ 0x26 ∧ byte ≠ 0x2B := by
  refine ⟨?_, ?_, ?_, ?_⟩ <;> rintro rfl <;>
    exact absurd unreserved (by decide)

theorem isXDigit_not_special {byte : UInt8} (digit : isXDigit byte) :
    byte ≠ 0 ∧ byte ≠ 0x26 := by
  constructor <;> rintro rfl <;> exact absurd digit (by decide)

def isLiteral (byte : UInt8) : Bool :=
  byte != 0 && byte != 0x20 && byte != 0x25 && byte != 0x2B

/-- The encodings of a value.  The encoder chooses the literals it escapes, the
case of each digit and how it writes a space. -/
inductive EncodedAs : List UInt8 → List UInt8 → Prop where
  | nil : EncodedAs [] []
  | literal {byte : UInt8} {value text : List UInt8} :
      isLiteral byte → EncodedAs value text →
      EncodedAs (byte :: value) (byte :: text)
  | space {value text : List UInt8} :
      EncodedAs value text → EncodedAs (0x20 :: value) (0x2B :: text)
  | escape {high low : UInt8} {value text : List UInt8} :
      isXDigit high → isXDigit low → EncodedAs value text →
      EncodedAs (hexByte high low :: value) (0x25 :: high :: low :: text)

theorem isLiteral_not_special {byte : UInt8} (literal : isLiteral byte) :
    byte ≠ 0 ∧ byte ≠ 0x25 ∧ byte ≠ 0x2B := by
  simp only [isLiteral, Bool.and_eq_true, bne_iff_ne] at literal
  exact ⟨literal.1.1.1, literal.1.2, literal.2⟩

theorem isLiteral_of_isUnreserved {byte : UInt8} (unreserved : isUnreserved byte) :
    isLiteral byte := by
  obtain ⟨noNul, noEscape, _, noPlus⟩ := isUnreserved_not_special unreserved
  have noSpace : byte ≠ 0x20 := by
    rintro rfl
    exact absurd unreserved (by decide)
  simp [isLiteral, noNul, noSpace, noEscape, noPlus]

namespace EncodedAs

variable {value text : List UInt8}

theorem noNul (encoded : EncodedAs value text) : 0 ∉ text := by
  induction encoded with
  | nil => exact List.not_mem_nil
  | literal literal _ induction =>
      simp [induction, (isLiteral_not_special literal).1.symm]
  | space _ induction => simp [induction]
  | escape high low _ induction =>
      simp [induction, (isXDigit_not_special high).1.symm,
        (isXDigit_not_special low).1.symm]

theorem formDecode_eq (encoded : EncodedAs value text) :
    formDecode text = value := by
  induction encoded with
  | nil => rfl
  | literal literal _ induction =>
      obtain ⟨_, noEscape, noPlus⟩ := isLiteral_not_special literal
      rw [formDecode_cons, decodeNext_of_not_percent _ noEscape, plainByte,
        if_neg noPlus, induction]
  | space _ induction =>
      rw [formDecode_cons, decodeNext_of_not_percent _ (by decide), induction]
      rfl
  | escape high low _ induction =>
      rw [formDecode_cons, decodeNext, if_pos ⟨rfl, high, low⟩, induction]

end EncodedAs

namespace FormEncoded

variable {value text : List UInt8}

theorem encodedAs (encoded : FormEncoded value text) : EncodedAs value text := by
  induction encoded with
  | nil => exact .nil
  | unreserved unreserved _ induction =>
      exact .literal (isLiteral_of_isUnreserved unreserved) induction
  | space _ induction => exact .space induction
  | escape high low _ induction => exact .escape high low induction

theorem formDecode_eq (encoded : FormEncoded value text) :
    formDecode text = value :=
  encoded.encodedAs.formDecode_eq

/-- An encoding has no NUL and no separator of the query. -/
theorem not_special (encoded : FormEncoded value text) :
    0 ∉ text ∧ 0x26 ∉ text := by
  induction encoded with
  | nil => simp
  | unreserved unreserved _ induction =>
      obtain ⟨noNul, _, noSeparator, _⟩ := isUnreserved_not_special unreserved
      simp [induction, noNul.symm, noSeparator.symm]
  | space _ induction => simp [induction]
  | escape high low _ induction =>
      obtain ⟨highNul, highSeparator⟩ := isXDigit_not_special high
      obtain ⟨lowNul, lowSeparator⟩ := isXDigit_not_special low
      simp [induction, highNul.symm, highSeparator.symm, lowNul.symm,
        lowSeparator.symm]

theorem ofUnreserved (text : List UInt8)
    (unreserved : text.all isUnreserved = true) : FormEncoded text text := by
  induction text with
  | nil => exact .nil
  | cons byte rest induction =>
      rw [List.all_cons, Bool.and_eq_true] at unreserved
      exact .unreserved unreserved.1 (induction unreserved.2)

end FormEncoded

end Lora32Mqtt
