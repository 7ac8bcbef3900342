import Mathlib.Data.List.Basic

/-!
# Machines with a history of events

A machine takes one action at a time, may refuse it, and reports what happened
as a list of events.  A run is identified with the state it reaches and the
whole list of events it produced.  The rules below reduce a property of every
run, and a property of every event in terms of the events before it, to one
step.
-/

namespace Lora32Mqtt

structure Machine (State Action Event : Type*) where
  step : State → Action → Option (State × List Event)

namespace Machine

variable {State Action Event : Type*} (machine : Machine State Action Event)

/-- Execute a list of actions, concatenating the reported events. -/
def run : State → List Action → Option (State × List Event)
  | state, [] => some (state, [])
  | state, action :: rest =>
      match machine.step state action with
      | none => none
      | some (next, events) =>
          match run next rest with
          | none => none
          | some (final, later) => some (final, events ++ later)

/-- `Reaches start history state`: some run from `start` ends in `state` and
produced exactly `history`. -/
inductive Reaches (start : State) : List Event → State → Prop where
  | refl : Reaches start [] start
  | step {history events : List Event} {state next : State} {action : Action} :
      Reaches start history state →
      machine.step state action = some (next, events) →
      Reaches start (history ++ events) next

variable {machine}

namespace Reaches

theorem trans {start middle state : State} {history later : List Event}
    (first : machine.Reaches start history middle)
    (second : machine.Reaches middle later state) :
    machine.Reaches start (history ++ later) state := by
  induction second with
  | refl => simpa using first
  | step _ taken induction =>
      rw [← List.append_assoc]
      exact .step induction taken

/-- What holds at the start and is preserved by one step, with the history
extended by the events of that step, holds after every run. -/
theorem invariant {start : State} {holds : List Event → State → Prop}
    (initial : holds [] start)
    (preserved : ∀ history state action next events,
      holds history state → machine.step state action = some (next, events) →
        holds (history ++ events) next)
    {history : List Event} {state : State}
    (reached : machine.Reaches start history state) :
    holds history state := by
  induction reached with
  | refl => exact initial
  | step _ taken induction => exact preserved _ _ _ _ _ induction taken

/-- The same rule for runs all of whose events are admissible: a step may then
use that its own events are, and that the run so far is a run. -/
theorem invariantOfEvents {start : State}
    (admissible : Event → Prop) (holds : List Event → State → Prop)
    (initial : holds [] start)
    (preserved : ∀ history state action next events,
      machine.Reaches start history state → holds history state →
        machine.step state action = some (next, events) →
        (∀ event ∈ events, admissible event) → holds (history ++ events) next)
    {history : List Event} {state : State}
    (reached : machine.Reaches start history state)
    (allAdmissible : ∀ event ∈ history, admissible event) :
    holds history state := by
  induction reached with
  | refl => exact initial
  | step earlier taken induction =>
      have before := induction fun event member =>
        allAdmissible event (List.mem_append_left _ member)
      exact preserved _ _ _ _ _ earlier before taken
        fun event member => allAdmissible event (List.mem_append_right _ member)

end Reaches

theorem reaches_of_run {start state : State} {actions : List Action}
    {history : List Event}
    (executed : machine.run start actions = some (state, history)) :
    machine.Reaches start history state := by
  induction actions generalizing start history with
  | nil =>
      simp only [run, Option.some.injEq, Prod.mk.injEq] at executed
      obtain ⟨rfl, rfl⟩ := executed
      exact .refl
  | cons action rest induction =>
      simp only [run] at executed
      cases taken : machine.step start action with
      | none => simp [taken] at executed
      | some outcome =>
          obtain ⟨next, events⟩ := outcome
          cases continued : machine.run next rest with
          | none => simp [taken, continued] at executed
          | some ending =>
              obtain ⟨final, later⟩ := ending
              simp only [taken, continued, Option.some.injEq,
                Prod.mk.injEq] at executed
              obtain ⟨rfl, rfl⟩ := executed
              have first : machine.Reaches start ([] ++ events) next :=
                .step .refl taken
              simpa using first.trans (induction continued)

/-- The events of a run, none if an action was refused. -/
def history (machine : Machine State Action Event) (start : State)
    (actions : List Action) : List Event :=
  ((machine.run start actions).map Prod.snd).getD []

theorem exists_reaches {start : State} {actions : List Action}
    (executed : (machine.run start actions).isSome = true) :
    ∃ state, machine.Reaches start (machine.history start actions) state := by
  obtain ⟨⟨state, events⟩, outcome⟩ := Option.isSome_iff_exists.mp executed
  refine ⟨state, ?_⟩
  have reached := reaches_of_run outcome
  rwa [history, outcome]

def restrict (machine : Machine State Action Event) (admits : Action → Prop)
    [DecidablePred admits] : Machine State Action Event where
  step state action := if admits action then machine.step state action else none

theorem restrict_step {admits : Action → Prop} [DecidablePred admits] {state : State}
    {action : Action} {outcome : State × List Event} :
    (machine.restrict admits).step state action = some outcome ↔
      admits action ∧ machine.step state action = some outcome := by
  simp [restrict]

end Machine

/-- Every event of the history satisfies `justifies` with the list of the
events before it. -/
def Justified {Event : Type*} (justifies : List Event → Event → Prop)
    (history : List Event) : Prop :=
  ∀ past event future, history = past ++ event :: future →
    justifies past event

namespace Justified

variable {Event : Type*} {justifies : List Event → Event → Prop}

theorem nil : Justified justifies [] := by
  intro past event future split
  simp at split

theorem cons {event : Event} {events : List Event}
    (first : justifies [] event)
    (later : Justified (fun past => justifies (event :: past)) events) :
    Justified justifies (event :: events) := by
  intro past middle future split
  cases past with
  | nil =>
      obtain ⟨rfl, _⟩ := List.cons.inj split
      exact first
  | cons head past =>
      obtain ⟨rfl, rest⟩ := List.cons.inj split
      exact later past middle future rest

theorem append {history events : List Event}
    (before : Justified justifies history)
    (added : Justified (fun past => justifies (history ++ past)) events) :
    Justified justifies (history ++ events) := by
  intro past event future split
  rcases List.append_eq_append_iff.mp split with
    ⟨middle, pastEq, eventsEq⟩ | ⟨middle, historyEq, restEq⟩
  · rw [pastEq]
    exact added middle event future eventsEq
  · cases middle with
    | nil =>
        simp only [List.append_nil] at historyEq
        simp only [List.nil_append] at restEq
        have first := added [] event future restEq.symm
        simpa [historyEq] using first
    | cons head middle =>
        simp only [List.cons_append, List.cons.injEq] at restEq
        obtain ⟨rfl, _⟩ := restEq
        exact before past event middle historyEq

theorem concat {history : List Event} {event : Event}
    (before : Justified justifies history)
    (added : justifies history event) :
    Justified justifies (history ++ [event]) := by
  refine before.append (.cons ?_ .nil)
  simpa using added

/-- The events need nothing of what was before them. -/
theorem of_forall {prefixed events : List Event}
    (free : ∀ event ∈ events, ∀ past, justifies past event) :
    Justified (fun past => justifies (prefixed ++ past)) events := by
  intro past event future split
  have member : event ∈ events := by simp [split]
  exact free event member (prefixed ++ past)

end Justified

/-- Every event of the history satisfies `requires` with the list of the events
after it. -/
def Followed {Event : Type*} (requires : List Event → Event → Prop)
    (history : List Event) : Prop :=
  ∀ past event future, history = past ++ event :: future →
    requires future event

namespace Followed

variable {Event : Type*} {requires : List Event → Event → Prop}

theorem nil : Followed requires [] := by
  intro past event future split
  simp at split

theorem cons {event : Event} {events : List Event}
    (first : requires events event) (later : Followed requires events) :
    Followed requires (event :: events) := by
  intro past middle future split
  cases past with
  | nil =>
      obtain ⟨rfl, rfl⟩ := List.cons.inj split
      exact first
  | cons head past =>
      obtain ⟨rfl, rest⟩ := List.cons.inj split
      exact later past middle future rest

theorem append {history events : List Event}
    (stable : ∀ future more event, requires future event →
      requires (future ++ more) event)
    (before : Followed requires history) (added : Followed requires events) :
    Followed requires (history ++ events) := by
  induction history with
  | nil => exact added
  | cons head history induction =>
      have rest : Followed requires history := fun past event future split =>
        before (head :: past) event future (by rw [split, List.cons_append])
      exact .cons (stable _ _ _ (before [] head history rfl)) (induction rest)

end Followed

section Latest

variable {Event : Type*} {kind : Event → Bool} {history events : List Event}
  {event : Event}

def latest (kind : Event → Bool) (history : List Event) : Option Event :=
  (history.filter kind).getLast?

theorem latest_append_of_none
    (other : ∀ event ∈ events, kind event = false) :
    latest kind (history ++ events) = latest kind history := by
  have empty : events.filter kind = [] := by
    rw [List.filter_eq_nil_iff]
    intro event member
    simp [other event member]
  rw [latest, List.filter_append, empty, List.append_nil, latest]

end Latest

end Lora32Mqtt
