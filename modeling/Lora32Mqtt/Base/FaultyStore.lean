import Mathlib.Logic.Function.Basic
import Lora32Mqtt.Base.Program

/-!
# A store with failing writes and a failing supply

A device keeps a map from keys to values.  A write is durable at once or leaves
the map as it was, as the next of a list of outcomes says; where the list ends,
the power does, and the program hangs.  Every prefix of the writes of a program
is thus what it does for some list of outcomes.
-/

namespace Lora32Mqtt

abbrev Store (Key Value : Type) : Type := Key → Option Value

structure Device (Key Value : Type) where
  store : Store Key Value
  outcomes : List Bool

/-- Whether the write with this number takes effect. -/
def took (outcomes : List Bool) (index : Nat) : Bool := outcomes.getD index false

namespace Store

variable {Key Value : Type} [DecidableEq Key]

/-- A write of a value, or of none to erase the key. -/
def attempt (done : Bool) (key : Key) (value : Option Value)
    (store : Store Key Value) : Store Key Value :=
  if done then Function.update store key value else store

variable (done : Bool) (key : Key) (value : Option Value)
  (store : Store Key Value)

theorem attempt_same :
    attempt done key value store key = if done then value else store key := by
  cases done <;> simp [attempt]

theorem attempt_other {other : Key} (different : other ≠ key) :
    attempt done key value store other = store other := by
  cases done <;> simp [attempt, different]

end Store

namespace Device

variable {Key Value : Type} [DecidableEq Key]

def put (key : Key) (value : Option Value) :
    Program (Device Key Value) Bool := fun device =>
  match device.outcomes with
  | [] => (none, device)
  | done :: rest =>
      (some done, ⟨device.store.attempt done key value, rest⟩)

end Device

end Lora32Mqtt
