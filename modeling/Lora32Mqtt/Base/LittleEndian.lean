import Mathlib.Data.List.Basic
import Mathlib.Tactic.Ring

/-!
# Little-endian fields inside byte arrays

A packed C structure is the concatenation of its fields.  `u64Bytes` writes a
64-bit field, `readU64` reads one at an offset; reading at the place of a
written field returns it whatever surrounds it.
-/

namespace Lora32Mqtt

def toLittleEndian : (width : Nat) → Nat → List UInt8
  | 0, _ => []
  | width + 1, value =>
      UInt8.ofNat (value % 256) :: toLittleEndian width (value / 256)

def ofLittleEndian : List UInt8 → Nat
  | [] => 0
  | head :: tail => head.toNat + 256 * ofLittleEndian tail

@[simp] theorem length_toLittleEndian (width value : Nat) :
    (toLittleEndian width value).length = width := by
  induction width generalizing value with
  | zero => rfl
  | succ width induction => simp [toLittleEndian, induction]

theorem ofLittleEndian_toLittleEndian (width value : Nat) :
    ofLittleEndian (toLittleEndian width value) = value % 256 ^ width := by
  induction width generalizing value with
  | zero => simp [toLittleEndian, ofLittleEndian, Nat.mod_one]
  | succ width induction =>
      have digit : (UInt8.ofNat (value % 256)).toNat = value % 256 :=
        UInt8.toNat_ofNat_of_lt' (Nat.mod_lt _ (by decide))
      simp only [toLittleEndian, ofLittleEndian, induction, digit]
      rw [pow_succ', Nat.mod_mul]

theorem toLittleEndian_ofLittleEndian (bytes : List UInt8) :
    toLittleEndian bytes.length (ofLittleEndian bytes) = bytes := by
  induction bytes with
  | nil => rfl
  | cons head tail induction =>
      have bound := head.toNat_lt
      have digit : (head.toNat + 256 * ofLittleEndian tail) % 256 = head.toNat := by
        omega
      have rest : (head.toNat + 256 * ofLittleEndian tail) / 256 =
          ofLittleEndian tail := by
        omega
      simp only [ofLittleEndian, List.length_cons, toLittleEndian, digit, rest,
        induction, UInt8.ofNat_toNat]

theorem ofLittleEndian_lt (bytes : List UInt8) :
    ofLittleEndian bytes < 256 ^ bytes.length := by
  induction bytes with
  | nil => simp [ofLittleEndian]
  | cons head tail induction =>
      have bound := head.toNat_lt
      rw [ofLittleEndian, List.length_cons, pow_succ']
      omega

/-- The eight bytes of a 64-bit field. -/
def u64Bytes (value : UInt64) : List UInt8 := toLittleEndian 8 value.toNat

/-- The 64-bit field at a byte offset. -/
def readU64 (bytes : List UInt8) (offset : Nat) : UInt64 :=
  UInt64.ofNat (ofLittleEndian ((bytes.drop offset).take 8))

@[simp] theorem length_u64Bytes (value : UInt64) :
    (u64Bytes value).length = 8 := by
  simp [u64Bytes]

theorem ofLittleEndian_u64Bytes (value : UInt64) :
    UInt64.ofNat (ofLittleEndian (u64Bytes value)) = value := by
  have bound := value.toNat_lt
  simp only [u64Bytes]
  rw [ofLittleEndian_toLittleEndian, Nat.mod_eq_of_lt (by omega)]
  exact UInt64.ofNat_toNat

theorem readU64_field (before rest : List UInt8) {bytes : List UInt8}
    {value : UInt64} {offset : Nat}
    (layout : bytes = before ++ (u64Bytes value ++ rest))
    (position : before.length = offset) :
    readU64 bytes offset = value := by
  have field : (bytes.drop offset).take 8 = u64Bytes value := by
    rw [layout, ← position, List.drop_left]
    exact List.take_left' (length_u64Bytes value)
  rw [readU64, field, ofLittleEndian_u64Bytes]

theorem u64Bytes_readU64 {bytes : List UInt8} {offset : Nat}
    (inside : offset + 8 ≤ bytes.length) :
    u64Bytes (readU64 bytes offset) = (bytes.drop offset).take 8 := by
  have size : ((bytes.drop offset).take 8).length = 8 := by
    simp
    omega
  have bound := ofLittleEndian_lt ((bytes.drop offset).take 8)
  rw [size] at bound
  have exact : (readU64 bytes offset).toNat =
      ofLittleEndian ((bytes.drop offset).take 8) := by
    simp only [readU64]
    rw [UInt64.toNat_ofNat', Nat.mod_eq_of_lt (by omega)]
  have written := toLittleEndian_ofLittleEndian ((bytes.drop offset).take 8)
  rw [size] at written
  rw [u64Bytes, exact, written]

/-- Only the bytes of the field itself are read. -/
theorem readU64_append {bytes rest : List UInt8} {offset : Nat}
    (inside : offset + 8 ≤ bytes.length) :
    readU64 (bytes ++ rest) offset = readU64 bytes offset := by
  simp only [readU64]
  rw [List.drop_append_of_le_length (by omega),
    List.take_append_of_le_length (by simp; omega)]

end Lora32Mqtt
