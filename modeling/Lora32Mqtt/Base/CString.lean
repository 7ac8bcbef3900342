import Mathlib.Algebra.Group.Nat.Defs
import Mathlib.Data.List.Basic
import Mathlib.Data.Vector.Basic

/-!
# C strings in byte arrays

The text of a C string is the bytes before its NUL.  `cString` reads a string
from memory and fails when it runs past the end without finding a NUL;
`strncpy` writes one into an array that may hold anything.
-/

namespace Lora32Mqtt

/-- A C array of bytes. -/
abbrev CArray (size : Nat) := List.Vector UInt8 size

/-- A string a caller can pass as `const char *`. -/
structure CString where
  text : List UInt8
  noNul : 0 ∉ text
  deriving DecidableEq

theorem CString.noNul_take (source : CString) (count : Nat) :
    0 ∉ source.text.take count :=
  fun member => source.noNul (List.mem_of_mem_take member)

/-- The string in a `char` array of that size. -/
structure CBuffer (size : Nat) extends CString where
  fits : text.length < size
  deriving DecidableEq

/-- Copy a string into an array unless it is too long with its NUL. -/
def CString.toBuffer? (string : CString) (size : Nat) : Option (CBuffer size) :=
  if fits : string.text.length < size then some ⟨string, fits⟩ else none

theorem CString.toBuffer?_eq_some {string : CString} {size : Nat}
    {buffer : CBuffer size} :
    string.toBuffer? size = some buffer ↔ buffer.toCString = string := by
  simp only [toBuffer?]
  constructor
  · intro copied
    split at copied
    · obtain rfl := Option.some.inj copied
      rfl
    · cases copied
  · intro same
    subst same
    rw [dif_pos buffer.fits]

def asciiBytes (literal : String) : List UInt8 :=
  literal.toList.map fun character => UInt8.ofNat character.toNat

/-- The bytes before the first NUL. -/
def cText : List UInt8 → List UInt8
  | [] => []
  | byte :: rest => if byte = 0 then [] else byte :: cText rest

/-- Read a string up to its NUL; there is none in the memory given. -/
def cString : List UInt8 → Option (List UInt8)
  | [] => none
  | byte :: rest =>
      if byte = 0 then some []
      else (cString rest).map (byte :: ·)

/-- The last offset that is read for the string at an offset: that of its NUL, or
the first past the memory if there is none. -/
def stringEnd (memory : List UInt8) (start : Nat) : Nat :=
  start + (cText (memory.drop start)).length

/-- `strncpy (dest, src, n)`: at most `n` characters, padded with NULs to `n`. -/
def strncpy (dest src : List UInt8) (n : Nat) : List UInt8 :=
  (src ++ List.replicate n 0).take n ++ dest.drop n

/-- `array[index] = value`, if there is such an element. -/
def storeAt (array : List UInt8) (index : Nat) (value : UInt8) :
    Option (List UInt8) :=
  if index < array.length then some (array.set index value) else none

/-- The array after a string was written to its start. -/
def stringInto (array output : List UInt8) : List UInt8 :=
  output ++ 0 :: array.drop (output.length + 1)

theorem noNul_cons {head : UInt8} {tail : List UInt8} (noNul : 0 ∉ head :: tail) :
    head ≠ 0 ∧ 0 ∉ tail := by
  rw [List.mem_cons, not_or] at noNul
  exact ⟨Ne.symm noNul.1, noNul.2⟩

theorem zero_notMem_cText (memory : List UInt8) : 0 ∉ cText memory := by
  induction memory with
  | nil => simp [cText]
  | cons head tail induction =>
      by_cases nul : head = 0
      · simp [cText, nul]
      · simp [cText, nul, induction, Ne.symm nul]

theorem length_cText_le (memory : List UInt8) :
    (cText memory).length ≤ memory.length := by
  induction memory with
  | nil => simp [cText]
  | cons head tail induction =>
      by_cases nul : head = 0
      · simp [cText, nul]
      · simpa [cText, nul] using induction

theorem cText_of_noNul {text : List UInt8} (noNul : 0 ∉ text) :
    cText text = text := by
  induction text with
  | nil => rfl
  | cons head tail induction =>
      obtain ⟨headNonzero, tailNoNul⟩ := noNul_cons noNul
      simp [cText, headNonzero, induction tailNoNul]

theorem cText_append_nul {text : List UInt8} (noNul : 0 ∉ text)
    (rest : List UInt8) : cText (text ++ 0 :: rest) = text := by
  induction text with
  | nil => simp [cText]
  | cons head tail induction =>
      obtain ⟨headNonzero, tailNoNul⟩ := noNul_cons noNul
      simp [cText, headNonzero, induction tailNoNul]

theorem cString_append_nul {text : List UInt8} (noNul : 0 ∉ text)
    (rest : List UInt8) : cString (text ++ 0 :: rest) = some text := by
  induction text with
  | nil => simp [cString]
  | cons head tail induction =>
      obtain ⟨headNonzero, tailNoNul⟩ := noNul_cons noNul
      simp [cString, headNonzero, induction tailNoNul]

theorem cString_eq_nil_iff (head : UInt8) (tail : List UInt8) :
    cString (head :: tail) = some [] ↔ head = 0 := by
  by_cases nul : head = 0
  · simp [cString, nul]
  · simp [cString, nul]

theorem cString_eq_none_iff {memory : List UInt8} :
    cString memory = none ↔ 0 ∉ memory := by
  induction memory with
  | nil => simp [cString]
  | cons head tail induction =>
      by_cases nul : head = 0
      · simp [cString, nul]
      · simp [cString, nul, Ne.symm nul, induction]

theorem cString_append_of_mem {field : List UInt8} (terminated : 0 ∈ field)
    (rest : List UInt8) : cString (field ++ rest) = some (cText field) := by
  induction field with
  | nil => cases terminated
  | cons head tail induction =>
      by_cases nul : head = 0
      · simp [cString, cText, nul]
      · have later : 0 ∈ tail :=
          (List.mem_cons.mp terminated).resolve_left (Ne.symm nul)
        simp [cString, cText, nul, induction later]

/-- The string ends inside the field exactly if the field holds a NUL. -/
theorem length_cText_append_lt_iff (field rest : List UInt8) :
    (cText (field ++ rest)).length < field.length ↔ 0 ∈ field := by
  induction field with
  | nil => simp
  | cons head tail induction =>
      by_cases nul : head = 0
      · simp [cText, nul]
      · simp [cText, nul, Ne.symm nul, induction]

theorem length_stringInto {array output : List UInt8}
    (fits : output.length < array.length) :
    (stringInto array output).length = array.length := by
  simp [stringInto]
  omega

@[simp] theorem length_strncpy {dest src : List UInt8} {n : Nat}
    (fits : n ≤ dest.length) : (strncpy dest src n).length = dest.length := by
  simp [strncpy]
  omega

/-- The idiom of the senders: copy into all but the last byte, then terminate.
Nothing the array held before survives. -/
theorem strncpy_set_last {dest src : List UInt8} {n : Nat}
    (size : dest.length = n + 1) :
    (strncpy dest src n).set n 0 =
      (src ++ List.replicate n 0).take n ++ [0] := by
  have copied : ((src ++ List.replicate n 0).take n).length = n := by simp
  obtain ⟨last, lastEq⟩ : ∃ last, dest.drop n = [last] :=
    List.length_eq_one_iff.mp (by simp [size])
  rw [strncpy, lastEq, List.set_append_right _ _ (by omega), copied]
  simp

/-- What a reader of such an array sees is the start of the source. -/
theorem padded_eq_take_append {src : List UInt8} (n : Nat) :
    (src ++ List.replicate n 0).take n ++ [0] =
      src.take n ++ 0 :: List.replicate (n - src.length) 0 := by
  rw [List.take_append, List.take_replicate]
  rcases Nat.le_total n src.length with long | short
  · simp [Nat.sub_eq_zero_of_le long]
  · rw [List.append_assoc, Nat.min_eq_left (Nat.sub_le _ _),
      ← List.replicate_succ', List.replicate_succ]

theorem storeAt_eq {array : List UInt8} {index : Nat}
    (inside : index < array.length) (value : UInt8) :
    storeAt array index value =
      some (array.take index ++ value :: array.drop (index + 1)) := by
  rw [storeAt, if_pos inside, List.set_eq_take_append_cons_drop, if_pos inside]

theorem getElem?_of_drop {memory text : List UInt8} {start : Nat}
    (reading : memory.drop start = text) (index : Nat) :
    memory[start + index]? = text[index]? := by
  rw [← List.getElem?_drop, reading]

/-- What `%lu` prints. -/
def decimal (value : Nat) : List UInt8 :=
  (Nat.toDigits 10 value).map fun digit => UInt8.ofNat digit.toNat

theorem length_decimal_le {value width : Nat} (positive : 0 < width)
    (small : value < 10 ^ width) : (decimal value).length ≤ width := by
  simpa [decimal] using
    (Nat.length_toDigits_le_iff (by decide) positive).mpr small

private theorem digit_range {digit : Char} (isDigit : digit.isDigit) :
    48 ≤ digit.toNat ∧ digit.toNat ≤ 57 := by
  simp only [Char.isDigit, Bool.and_eq_true, decide_eq_true_eq] at isDigit
  exact ⟨isDigit.1, isDigit.2⟩

theorem toNat_of_mem_decimal {value : Nat} {byte : UInt8}
    (member : byte ∈ decimal value) : 48 ≤ byte.toNat ∧ byte.toNat ≤ 57 := by
  obtain ⟨digit, digitMember, rfl⟩ := List.mem_map.mp member
  have range := digit_range
    (Nat.isDigit_of_mem_toDigits (by decide) (by decide) digitMember)
  rwa [UInt8.toNat_ofNat_of_lt' (show digit.toNat < 256 by omega)]

theorem zero_notMem_decimal (value : Nat) : 0 ∉ decimal value :=
  fun member => absurd (toNat_of_mem_decimal member).1 (by decide)

end Lora32Mqtt
