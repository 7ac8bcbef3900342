import Lora32Mqtt.Base.Machine

/-!
# Results that do not depend on former contents

A computation that reads what its memory held before is a function of these
contents.  Its result is determined if any two runs that differ in nothing else
agree.  A machine whose single steps are determined has determined runs, whatever
the memory holds before each step.
-/

namespace Lora32Mqtt

def Determined {Memory Result : Type*} (result : Memory → Result) : Prop :=
  ∀ memory other, result memory = result other

namespace Determined

variable {Memory Result : Type*} {result : Memory → Result}

theorem of_eq {value : Result} (always : ∀ memory, result memory = value) :
    Determined result := by
  intro memory other
  rw [always memory, always other]

theorem not_of_ne {memory other : Memory} (different : result memory ≠ result other) :
    ¬ Determined result :=
  fun determined => different (determined memory other)

theorem run {State Action Event Input : Type*} {machine : Machine State Action Event}
    {action : Input → Memory → Action}
    (each : ∀ state input, Determined fun memory =>
      machine.step state (action input memory))
    (start : State) (inputs : List Input) :
    Determined fun memories : Nat → Memory =>
      machine.run start (inputs.mapIdx fun index input =>
        action input (memories index)) := by
  intro memories others
  dsimp only
  induction inputs generalizing start memories others with
  | nil => rfl
  | cons input inputs induction =>
      have first := each start input (memories 0) (others 0)
      dsimp only at first
      rw [List.mapIdx_cons, List.mapIdx_cons, Machine.run, Machine.run, first]
      cases machine.step start (action input (others 0)) with
      | none => rfl
      | some outcome =>
          dsimp only
          rw [induction outcome.1 (fun index => memories (index + 1))
            fun index => others (index + 1)]

end Determined

end Lora32Mqtt
