import Lora32Mqtt.Provisioning.UrlDecode

/-!
# The loop of `url_decode` on memory

The loop reads and writes through pointers.  The memory of the model is just the
encoded string with its NUL and the output array, and an access outside of them
has no result.
-/

namespace Lora32Mqtt

/-- `*src == '%' && isxdigit (src[1]) && isxdigit (src[2])`, which looks ahead
only as far as it has to. -/
def isEscape (encoded : List UInt8) (src : Nat) : Option Bool := do
  let byte ← encoded[src]?
  if byte ≠ 0x25 then pure false
  else
    let high ← encoded[src + 1]?
    if ¬ isXDigit high then pure false
    else
      let low ← encoded[src + 2]?
      pure (isXDigit low)

/-- The byte that a round writes, and how far it moves `src`. -/
def decodeAt (encoded : List UInt8) (src : Nat) : Option (UInt8 × Nat) := do
  let escape ← isEscape encoded src
  if escape then
    let high ← encoded[src + 1]?
    let low ← encoded[src + 2]?
    pure (hexByte high low, 3)
  else
    let byte ← encoded[src]?
    pure (if byte = 0x2B then 0x20 else byte, 1)

/-- The loop with `src` and `dest` as offsets; `rounds` bounds the number of
times the condition is tested. -/
def urlDecodeLoop (encoded : List UInt8) (maxLen : Nat) :
    Nat → Nat → Nat → List UInt8 → Option (List UInt8 × Nat)
  | 0, _, _, _ => none
  | rounds + 1, src, dest, decoded => do
      let byte ← encoded[src]?
      if byte ≠ 0 ∧ dest < maxLen - 1 then
        let (value, length) ← decodeAt encoded src
        let decoded ← storeAt decoded dest value
        urlDecodeLoop encoded maxLen rounds (src + length) (dest + 1) decoded
      else pure (decoded, dest)

/-- `url_decode (decoded, encoded, max_len)` -/
def urlDecodeInto (rounds : Nat) (encoded decoded : List UInt8) (maxLen : Nat) :
    Option (List UInt8) := do
  let (decoded, dest) ← urlDecodeLoop encoded maxLen rounds 0 0 decoded
  storeAt decoded dest 0

section Round

variable {encoded rest : List UInt8} {src : Nat} {byte : UInt8}

theorem decodeAt_plain (reading : encoded.drop src = byte :: (rest ++ [0]))
    (plain : isEscape encoded src = some false) :
    decodeAt encoded src = some (plainByte byte, 1) := by
  have byteAt : encoded[src]? = some byte := getElem?_of_drop reading 0
  simp [decodeAt, plain, byteAt, plainByte]

/-- A round writes what the decoder on lists writes and goes on with what is
left there. -/
theorem decodeAt_eq (reading : encoded.drop src = byte :: (rest ++ [0])) :
    ∃ length, decodeAt encoded src = some ((decodeNext byte rest).1, length) ∧
      encoded.drop (src + length) = (decodeNext byte rest).2 ++ [0] := by
  have byteAt : encoded[src]? = some byte := getElem?_of_drop reading 0
  have after : encoded.drop (src + 1) = rest ++ [0] := by
    rw [← List.drop_drop, reading]
    rfl
  have plain (same : decodeNext byte rest = (plainByte byte, rest))
      (noEscape : isEscape encoded src = some false) :
      ∃ length, decodeAt encoded src =
          some ((decodeNext byte rest).1, length) ∧
        encoded.drop (src + length) = (decodeNext byte rest).2 ++ [0] := by
    rw [same]
    exact ⟨1, decodeAt_plain reading noEscape, after⟩
  by_cases percent : byte = 0x25
  · subst percent
    match rest, reading, after, plain with
    | [], reading, _, plain =>
        -- the NUL behind the sign is no digit
        have highAt : encoded[src + 1]? = some 0 := getElem?_of_drop reading 1
        refine plain rfl ?_
        simp [isEscape, byteAt, highAt, show isXDigit 0 = false from rfl]
    | [high], reading, _, plain =>
        have highAt : encoded[src + 1]? = some high := getElem?_of_drop reading 1
        have lowAt : encoded[src + 2]? = some 0 := getElem?_of_drop reading 2
        refine plain rfl ?_
        simp [isEscape, byteAt, highAt, lowAt, show isXDigit 0 = false from rfl]
    | high :: low :: later, reading, after, plain =>
        have highAt : encoded[src + 1]? = some high := getElem?_of_drop reading 1
        have lowAt : encoded[src + 2]? = some low := getElem?_of_drop reading 2
        by_cases digits : isXDigit high ∧ isXDigit low
        · refine ⟨3, ?_, ?_⟩
          · simp [decodeAt, isEscape, byteAt, highAt, lowAt, digits.1, digits.2,
              decodeNext]
          · rw [decodeNext, if_pos ⟨rfl, digits⟩, ← List.drop_drop, reading]
            rfl
        · refine plain (if_neg fun escape => digits escape.2) ?_
          cases isHigh : isXDigit high with
          | false => simp [isEscape, byteAt, highAt, isHigh]
          | true =>
              have notLow : isXDigit low = false := by simpa [isHigh] using digits
              simp [isEscape, byteAt, highAt, lowAt, notLow]
  · refine plain (decodeNext_of_not_percent rest percent) ?_
    simp [isEscape, byteAt, percent]

end Round

section Stored

variable {array : List UInt8} {index : Nat} (value : UInt8)

theorem take_stored (inside : index < array.length) :
    (array.take index ++ value :: array.drop (index + 1)).take (index + 1) =
      array.take index ++ [value] := by
  have taken : (array.take index).length = index :=
    List.length_take_of_le (Nat.le_of_lt inside)
  rw [List.take_append, taken, List.take_of_length_le (by omega),
    show index + 1 - index = 1 by omega]
  rfl

theorem drop_stored (inside : index < array.length) (more : Nat) :
    (array.take index ++ value :: array.drop (index + 1)).drop
        (index + 1 + more) = array.drop (index + 1 + more) := by
  have taken : (array.take index).length = index :=
    List.length_take_of_le (Nat.le_of_lt inside)
  rw [List.drop_append, taken, List.drop_of_length_le (by omega),
    show index + 1 + more - index = more + 1 by omega, List.nil_append,
    List.drop_succ_cons, List.drop_drop]

end Stored

theorem decodeNext_subset (byte : UInt8) (rest : List UInt8) :
    (decodeNext byte rest).2 ⊆ rest := by
  simp only [decodeNext]
  split
  · split
    · exact fun _ member => List.mem_cons_of_mem _ (List.mem_cons_of_mem _ member)
    · exact List.Subset.refl _
  · exact List.Subset.refl _

/-- From any place of the string the loop writes what the decoder on lists writes
into the room that is left. -/
theorem urlDecodeLoop_eq (maxLen : Nat) {encoded text : List UInt8}
    {rounds src dest : Nat} {decoded : List UInt8} (noNul : 0 ∉ text)
    (reading : encoded.drop src = text ++ [0]) (enough : text.length < rounds)
    (size : decoded.length = maxLen) (room : dest < maxLen) :
    urlDecodeLoop encoded maxLen rounds src dest decoded = some
      (decoded.take dest ++ decodeInto (maxLen - 1 - dest) text ++
          decoded.drop (dest + (decodeInto (maxLen - 1 - dest) text).length),
        dest + (decodeInto (maxLen - 1 - dest) text).length) := by
  induction rounds generalizing text src dest decoded with
  | zero => omega
  | succ rounds induction =>
      cases text with
      | nil =>
          have byteAt : encoded[src]? = some 0 := getElem?_of_drop reading 0
          have nothing : decodeInto (maxLen - 1 - dest) [] = [] := by
            cases maxLen - 1 - dest <;> rfl
          simp [urlDecodeLoop, byteAt, nothing]
      | cons byte rest =>
          have byteAt : encoded[src]? = some byte := getElem?_of_drop reading 0
          have nonzero : byte ≠ 0 := (noNul_cons noNul).1
          cases left : maxLen - 1 - dest with
          | zero =>
              have full : ¬ dest < maxLen - 1 := by omega
              simp [urlDecodeLoop, byteAt, full, decodeInto]
          | succ more =>
              have roomLeft : dest < maxLen - 1 := by omega
              have inside : dest < decoded.length := by omega
              obtain ⟨length, value, after⟩ := decodeAt_eq reading
              have shorter := length_decodeNext_le byte rest
              have noNulLeft : 0 ∉ (decodeNext byte rest).2 := fun member =>
                noNul (List.mem_cons_of_mem _ (decodeNext_subset byte rest member))
              have continued :=
                @induction _ (src + length) (dest + 1)
                  (decoded.take dest ++
                    (decodeNext byte rest).1 :: decoded.drop (dest + 1))
                  noNulLeft after
                  (by simp only [List.length_cons] at enough; omega)
                  (by simp only [List.length_append, List.length_take,
                        List.length_cons, List.length_drop]
                      omega)
                  (by omega)
              rw [show maxLen - 1 - (dest + 1) = more by omega] at continued
              have round : urlDecodeLoop encoded maxLen (rounds + 1) src dest decoded =
                  urlDecodeLoop encoded maxLen rounds (src + length) (dest + 1)
                    (decoded.take dest ++
                      (decodeNext byte rest).1 :: decoded.drop (dest + 1)) := by
                simp [urlDecodeLoop, byteAt, nonzero, roomLeft, value,
                  storeAt_eq inside]
              rw [round, continued, take_stored _ inside, drop_stored _ inside,
                decodeInto, Nat.add_right_comm dest 1]
              simp only [List.append_assoc, List.cons_append, List.nil_append,
                List.length_cons, Nat.add_assoc]

theorem urlDecodeInto_eq (encoded : CString) {decoded : List UInt8}
    {maxLen rounds : Nat} (size : decoded.length = maxLen) (room : 1 ≤ maxLen)
    (enough : encoded.text.length < rounds) :
    urlDecodeInto rounds (encoded.text ++ [0]) decoded maxLen =
      some (stringInto decoded (urlDecode encoded.text maxLen)) := by
  have short := length_urlDecode_le encoded.text maxLen
  have looped := @urlDecodeLoop_eq maxLen (encoded.text ++ [0]) encoded.text
    rounds 0 0 decoded encoded.noNul rfl enough size (by omega)
  simp only [List.take_zero, List.nil_append, Nat.zero_add, Nat.sub_zero] at looped
  change _ = some (urlDecode encoded.text maxLen ++
    decoded.drop (urlDecode encoded.text maxLen).length,
      (urlDecode encoded.text maxLen).length) at looped
  generalize urlDecode encoded.text maxLen = written at short looped
  simp only [urlDecodeInto, looped, Option.bind_eq_bind, Option.bind_some]
  rw [storeAt_eq (by simp only [List.length_append, List.length_drop]; omega),
    List.take_left, List.drop_append, List.drop_of_length_le (by omega),
    List.nil_append, List.drop_drop, stringInto,
    show written.length + (written.length + 1 - written.length) =
      written.length + 1 by omega]

/-- Each escape is its byte, each `+` a space and every other byte itself, a `%`
without two digits behind it as well. -/
def referenceDecode : List UInt8 → List UInt8
  | [] => []
  | [byte] => [plainByte byte]
  | [first, second] => [plainByte first, plainByte second]
  | first :: second :: third :: rest =>
      if first = 0x25 ∧ isXDigit second ∧ isXDigit third then
        hexByte second third :: referenceDecode rest
      else plainByte first :: referenceDecode (second :: third :: rest)

theorem formDecode_eq_referenceDecode (text : List UInt8) :
    formDecode text = referenceDecode text := by
  fun_induction referenceDecode text with
  | case1 => rfl
  | case2 byte => rfl
  | case3 first second => rfl
  | case4 first second third rest escape induction =>
      rw [formDecode_cons, decodeNext, if_pos escape, induction]
  | case5 first second third rest plain induction =>
      rw [formDecode_cons, decodeNext, if_neg plain, induction]

def EncodedAs.toCString {value text : List UInt8}
    (encoded : EncodedAs value text) : CString := ⟨text, encoded.noNul⟩

/-- The loop ends on every string and within both arrays, and the output is the
start of the reference decoding and a NUL.  So every encoding of a value decodes
to the start of the value. -/
theorem urlDecode_leftInverse {decoded : List UInt8} {maxLen : Nat}
    (size : decoded.length = maxLen) (room : 1 ≤ maxLen) :
    (∀ (encoded : CString) (rounds : Nat), encoded.text.length < rounds →
      urlDecodeInto rounds (encoded.text ++ [0]) decoded maxLen =
        some (stringInto decoded
          ((referenceDecode encoded.text).take (maxLen - 1)))) ∧
    (∀ value text, EncodedAs value text → 0 ∉ text ∧
      ∀ rounds, text.length < rounds →
        urlDecodeInto rounds (text ++ [0]) decoded maxLen =
          some (stringInto decoded (value.take (maxLen - 1)))) := by
  constructor
  · intro encoded rounds enough
    rw [urlDecodeInto_eq encoded size room enough, urlDecode_eq_take,
      formDecode_eq_referenceDecode]
  · intro value text encoded
    refine ⟨encoded.noNul, fun rounds enough => ?_⟩
    have written := urlDecodeInto_eq encoded.toCString size room enough
    rw [urlDecode_eq_take] at written
    exact written.trans
      (by rw [show formDecode encoded.toCString.text = value from
        encoded.formDecode_eq])

/-- `a%2bb+%` in an array of five, cut inside the string. -/
theorem urlDecode_leftInverse_cut :
    urlDecodeInto 8 (asciiBytes "a%2bb+%" ++ [0]) [9, 9, 9, 9, 9] 5 =
      some (asciiBytes "a+b " ++ [0]) :=
  (@urlDecode_leftInverse [9, 9, 9, 9, 9] 5 rfl (by decide)).1
    ⟨asciiBytes "a%2bb+%", by decide⟩ 8 (by decide)

end Lora32Mqtt
