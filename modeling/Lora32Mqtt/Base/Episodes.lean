import Mathlib.Data.List.Forall2
import Mathlib.Data.List.Induction
import Lora32Mqtt.Base.Machine

/-!
# Episodes of a history, and events in order

Some events of a history end an episode, and what matters of the past may be only
the episode that is going on.  `InOrder kinds events` finds events of the given
kinds among `events`, in this order and with any others in between.
-/

namespace Lora32Mqtt

section Episodes

variable {Event : Type*} (ends : Event → Bool)

/-- The events after the last one that ends an episode. -/
def episode (history : List Event) : List Event :=
  history.foldl (fun current event => if ends event then [] else current ++ [event]) []

theorem episode_concat (history : List Event) (event : Event) :
    episode ends (history ++ [event]) =
      if ends event then [] else episode ends history ++ [event] := by
  rw [episode, List.foldl_concat, episode]

variable {ends}

theorem episode_append {history events : List Event}
    (continues : ∀ event ∈ events, ends event = false) :
    episode ends (history ++ events) = episode ends history ++ events := by
  induction events using List.reverseRecOn with
  | nil => simp
  | append_singleton events event induction =>
      have last := continues event (List.mem_append_right _ (List.mem_singleton_self _))
      have before := induction fun other member =>
        continues other (List.mem_append_left _ member)
      rw [← List.append_assoc, episode_concat, if_neg (by simp [last]), before,
        List.append_assoc]

theorem episode_of_ends {history : List Event} {event : Event}
    (closing : ends event = true) : episode ends (history ++ [event]) = [] := by
  rw [episode_concat, if_pos closing]

theorem episode_suffix (history : List Event) : episode ends history <:+ history := by
  induction history using List.reverseRecOn with
  | nil => exact List.suffix_rfl
  | append_singleton history event induction =>
      rw [episode_concat]
      split
      · exact List.nil_suffix
      · obtain ⟨past, split⟩ := induction
        exact ⟨past, by rw [← List.append_assoc, split]⟩

end Episodes

/-- An event of a run was reported by one step, between the run up to it and the
run from it on. -/
theorem Machine.Reaches.split {State Action Event : Type*}
    {machine : Machine State Action Event} {start state : State}
    {history past future : List Event} {event : Event}
    (reached : machine.Reaches start history state)
    (position : history = past ++ event :: future) :
    ∃ earlier middle action next before after later,
      machine.Reaches start earlier middle ∧
        machine.step middle action = some (next, before ++ event :: after) ∧
        machine.Reaches next later state ∧
        past = earlier ++ before ∧ future = after ++ later := by
  induction reached generalizing future with
  | refl => simp at position
  | @step history events middle next action earlier taken induction =>
      rcases List.append_eq_append_iff.mp position with
        ⟨before, pastEq, eventsEq⟩ | ⟨rest, historyEq, restEq⟩
      · subst eventsEq
        exact ⟨history, middle, action, next, before, future, [], earlier, taken, .refl,
          pastEq, (List.append_nil _).symm⟩
      · cases rest with
        | nil =>
            rw [List.nil_append] at restEq
            subst restEq
            exact ⟨history, middle, action, next, [], future, [], earlier, taken, .refl,
              by rw [historyEq, List.append_nil, List.append_nil],
              (List.append_nil _).symm⟩
        | cons head rest =>
            rw [List.cons_append, List.cons.injEq] at restEq
            obtain ⟨rfl, rfl⟩ := restEq
            obtain ⟨first, found, did, result, before, after, later, toFound, step,
              fromStep, pastEq, futureEq⟩ := induction historyEq
            exact ⟨first, found, did, result, before, after, later ++ events, toFound, step,
              .step fromStep taken, pastEq, by rw [futureEq, List.append_assoc]⟩

section InOrder

variable {Event : Type*} {kinds : List (Event → Prop)} {kind : Event → Prop}
  {events later : List Event} {event : Event}

def InOrder (kinds : List (Event → Prop)) (events : List Event) : Prop :=
  ∃ chosen, List.Forall₂ (fun kind event => kind event) kinds chosen ∧
    chosen.Sublist events

namespace InOrder

theorem nil : InOrder [] events :=
  ⟨[], .nil, List.nil_sublist _⟩

theorem append (inOrder : InOrder kinds events) : InOrder kinds (events ++ later) := by
  obtain ⟨chosen, agrees, sublist⟩ := inOrder
  exact ⟨chosen, agrees, sublist.trans (List.sublist_append_left _ _)⟩

theorem concat (inOrder : InOrder kinds events) (isKind : kind event) :
    InOrder (kinds ++ [kind]) (events ++ [event]) := by
  obtain ⟨chosen, agrees, sublist⟩ := inOrder
  refine ⟨chosen ++ [event], ?_, sublist.append (List.Sublist.refl _)⟩
  exact List.rel_append agrees (.cons isKind .nil)

theorem take (inOrder : InOrder kinds events) (count : Nat) :
    InOrder (kinds.take count) events := by
  obtain ⟨chosen, agrees, sublist⟩ := inOrder
  exact ⟨chosen.take count, List.forall₂_take count agrees,
    (List.take_sublist count chosen).trans sublist⟩

theorem next {index : Nat} (inOrder : InOrder (kinds.take index) events)
    (less : index < kinds.length) (isKind : kinds[index] event) :
    InOrder (kinds.take (index + 1)) (events ++ [event]) := by
  rw [List.take_succ_eq_append_getElem less]
  exact inOrder.concat isKind

theorem exists_of_mem (inOrder : InOrder kinds events) (member : kind ∈ kinds) :
    ∃ event ∈ events, kind event := by
  obtain ⟨chosen, agrees, sublist⟩ := inOrder
  have found : ∃ event ∈ chosen, kind event := by
    clear sublist
    induction agrees with
    | nil => cases member
    | @cons _ event _ chosen isKind _ induction =>
        rcases List.mem_cons.mp member with rfl | member
        · exact ⟨event, List.mem_cons_self, isKind⟩
        · obtain ⟨other, otherMember, isKind⟩ := induction member
          exact ⟨other, List.mem_cons_of_mem _ otherMember, isKind⟩
  obtain ⟨event, eventMember, isKind⟩ := found
  exact ⟨event, sublist.subset eventMember, isKind⟩

end InOrder

end InOrder

end Lora32Mqtt
