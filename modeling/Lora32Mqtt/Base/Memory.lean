import Mathlib.Data.List.Basic
import Mathlib.Logic.Function.Basic

/-!
# Memory around a buffer

A memory gives a byte for every address, counted from the start of a buffer, so
that an access behind the end of the buffer is an access to something else.
-/

namespace Lora32Mqtt

abbrev Memory : Type := Nat → UInt8

namespace Memory

def cells (memory : Memory) (start : Nat) : Nat → List UInt8
  | 0 => []
  | count + 1 => memory start :: cells memory (start + 1) count

def store (memory : Memory) (address : Nat) (value : UInt8) : Memory :=
  Function.update memory address value

/-- `memcpy (memory + start, bytes, length)` -/
def copyAt (memory : Memory) (start : Nat) (bytes : List UInt8) : Memory :=
  fun address =>
    if start ≤ address then
      (bytes[address - start]?).getD (memory address)
    else memory address

variable {memory other : Memory} {start count : Nat} {bytes : List UInt8}

@[simp] theorem length_cells : (cells memory start count).length = count := by
  induction count generalizing start with
  | zero => rfl
  | succ count induction => rw [cells, List.length_cons, induction]

theorem getElem?_cells (index : Nat) :
    (cells memory start count)[index]? =
      if index < count then some (memory (start + index)) else none := by
  induction count generalizing start index with
  | zero => simp [cells]
  | succ count induction =>
      cases index with
      | zero => simp [cells]
      | succ index =>
          rw [cells, List.getElem?_cons_succ, induction]
          simp only [Nat.add_lt_add_iff_right]
          rw [Nat.add_assoc, Nat.add_comm 1 index]

theorem cells_add (more : Nat) :
    cells memory start (count + more) =
      cells memory start count ++ cells memory (start + count) more := by
  induction count generalizing start with
  | zero => simp [cells]
  | succ count induction =>
      rw [Nat.succ_add, cells, cells, induction, List.cons_append,
        Nat.add_assoc, Nat.add_comm 1 count]

theorem cells_congr
    (same : ∀ address, start ≤ address → address < start + count →
      memory address = other address) :
    cells memory start count = cells other start count := by
  refine List.ext_getElem? fun index => ?_
  rw [getElem?_cells, getElem?_cells]
  split
  · rw [same _ (Nat.le_add_right _ _) (by omega)]
  · rfl

/-- What was copied is found where it was copied to. -/
theorem cells_copyAt :
    cells (memory.copyAt start bytes) start bytes.length = bytes := by
  refine List.ext_getElem? fun index => ?_
  rw [getElem?_cells]
  split
  next inside =>
    simp [copyAt, List.getElem?_eq_getElem inside]
  next outside =>
    rw [List.getElem?_eq_none (by omega)]

theorem copyAt_below {address : Nat} (below : address < start) :
    memory.copyAt start bytes address = memory address := by
  rw [copyAt, if_neg (by omega)]

theorem copyAt_inside {address : Nat} (above : start ≤ address)
    {byte : UInt8} (inside : bytes[address - start]? = some byte) :
    memory.copyAt start bytes address = byte := by
  rw [copyAt, if_pos above, inside, Option.getD_some]

/-- One store among the cells is one change of the list. -/
theorem cells_store {address : Nat} (above : start ≤ address) (value : UInt8) :
    cells (memory.store address value) start count =
      (cells memory start count).set (address - start) value := by
  refine List.ext_getElem? fun index => ?_
  rw [List.getElem?_set, length_cells, getElem?_cells, getElem?_cells]
  by_cases same : address - start = index
  · have here : start + index = address := by omega
    simp [store, same, here]
  · have distinct : start + index ≠ address := by omega
    simp [store, same, Function.update_of_ne distinct]

end Memory

end Lora32Mqtt
