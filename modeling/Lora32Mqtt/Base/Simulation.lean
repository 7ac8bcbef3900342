import Lora32Mqtt.Base.Machine

/-!
# Forward simulations between machines

A machine is simulated by another one if every step of it is matched by a run of
the other, of any length, that reports what can be observed of the step.  Whole
runs are then matched by runs.
-/

namespace Lora32Mqtt

namespace Machine

variable {State Action Event Model Move Report : Type*}

/-- Related states stay related, and `observe` says what an event looks like to
the other machine. -/
def Simulates (abstract : Machine Model Move Report)
    (concrete : Machine State Action Event) (relates : State → Model → Prop)
    (observe : Event → List Report) : Prop :=
  ∀ state model action next events, relates state model →
    concrete.step state action = some (next, events) →
      ∃ later, abstract.Reaches model (events.flatMap observe) later ∧
        relates next later

namespace Simulates

variable {abstract : Machine Model Move Report}
  {concrete : Machine State Action Event} {relates : State → Model → Prop}
  {observe : Event → List Report}

theorem reaches (simulates : Simulates abstract concrete relates observe)
    {start state : State} {model : Model} {history : List Event}
    (related : relates start model)
    (reached : concrete.Reaches start history state) :
    ∃ later, abstract.Reaches model (history.flatMap observe) later ∧
      relates state later := by
  induction reached with
  | refl => exact ⟨model, .refl, related⟩
  | step _ taken induction =>
      obtain ⟨middle, before, relatedMiddle⟩ := induction
      obtain ⟨later, after, relatedLater⟩ :=
        simulates _ _ _ _ _ relatedMiddle taken
      refine ⟨later, ?_, relatedLater⟩
      rw [List.flatMap_append]
      exact before.trans after

end Simulates

end Machine

end Lora32Mqtt
