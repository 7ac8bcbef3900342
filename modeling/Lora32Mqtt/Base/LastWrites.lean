import Mathlib.Data.List.Induction
import Mathlib.Logic.Function.Basic

/-!
# The last writes of a log

Some entries of a log write a value under a key.  What is known after a log is the
value last written under each key.
-/

namespace Lora32Mqtt

section LastWrites

variable {Entry Key Value : Type*} [DecidableEq Key]
  (write : Entry → Option (Key × Value))

def learn (known : Key → Option Value) (entry : Entry) : Key → Option Value :=
  match write entry with
  | some (key, value) => Function.update known key (some value)
  | none => known

def lastWrites (log : List Entry) : Key → Option Value :=
  log.foldl (learn write) fun _ => none

theorem lastWrites_append (log added : List Entry) :
    lastWrites write (log ++ added) = added.foldl (learn write) (lastWrites write log) :=
  List.foldl_append

variable {write}

theorem lastWrites_concat {log : List Entry} {entry : Entry} {key : Key} {value : Value}
    (writes : write entry = some (key, value)) :
    lastWrites write (log ++ [entry]) =
      Function.update (lastWrites write log) key (some value) := by
  rw [lastWrites_append, List.foldl_cons, List.foldl_nil, learn, writes]

theorem lastWrites_of_other {log added : List Entry} {key : Key}
    (other : ∀ entry ∈ added, ∀ value, write entry ≠ some (key, value)) :
    lastWrites write (log ++ added) key = lastWrites write log key := by
  rw [lastWrites_append]
  induction added using List.reverseRecOn with
  | nil => rfl
  | append_singleton earlier last induction =>
      rw [List.foldl_append, List.foldl_cons, List.foldl_nil, learn]
      have before := induction fun entry member =>
        other entry (List.mem_append_left _ member)
      have lastOther := other last List.mem_concat_self
      cases written : write last with
      | none => exact before
      | some pair =>
          have different : key ≠ pair.1 := fun same =>
            lastOther pair.2 (by rw [written, same])
          exact (Function.update_of_ne different _ _).trans before

/-- Entries that all write under one key end with the value of the last. -/
theorem lastWrites_of_same {log earlier : List Entry} {entry : Entry} {key : Key}
    {value : Value} (writes : write entry = some (key, value))
    (same : ∀ other ∈ earlier, ∀ otherKey otherValue,
      write other = some (otherKey, otherValue) → otherKey = key) :
    lastWrites write (log ++ (earlier ++ [entry])) =
      Function.update (lastWrites write log) key (some value) := by
  rw [← List.append_assoc, lastWrites_concat writes]
  funext other
  by_cases isKey : other = key
  · rw [isKey, Function.update_self, Function.update_self]
  · rw [Function.update_of_ne isKey, Function.update_of_ne isKey]
    refine lastWrites_of_other fun one member otherValue written => isKey ?_
    exact same one member other otherValue written

end LastWrites

end Lora32Mqtt
