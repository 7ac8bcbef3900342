import Mathlib.Data.List.Basic

/-!
# Stateful programs that may not return

A program maps a state to a result and a state; without a result it hangs in the
state it has reached.  `Ensures` is a Hoare triple with one postcondition for
returning and one for hanging.  `Grows` says that a program only takes steps of
a preorder, however it ends.
-/

namespace Lora32Mqtt

def Program (State Result : Type) : Type := State → Option Result × State

namespace Program

variable {State Result Next : Type}

instance : Monad (Program State) where
  pure result state := (some result, state)
  bind first second state :=
    match first state with
    | (some result, later) => second result later
    | (none, later) => (none, later)

def get : Program State State := fun state => (some state, state)

def modify (update : State → State) : Program State Unit :=
  fun state => (some (), update state)

def hang : Program State Result := fun state => (none, state)

/-- A loop bounded by a counter that hangs when the counter runs out. -/
def retry (body : Program State (Option Result)) :
    Nat → Program State Result
  | 0 => hang
  | attempts + 1 => do
      match ← body with
      | some result => pure result
      | none => retry body attempts

theorem bind_apply (first : Program State Next)
    (second : Next → Program State Result) (state : State) :
    (first >>= second) state =
      match first state with
      | (some result, later) => second result later
      | (none, later) => (none, later) := rfl

theorem bind_of_some {first : Program State Next}
    {second : Next → Program State Result} {state later : State}
    {middle : Next} (returns : first state = (some middle, later)) :
    (first >>= second) state = second middle later := by
  rw [bind_apply, returns]

theorem bind_of_none {first : Program State Next}
    {second : Next → Program State Result} {state later : State}
    (hangs : first state = (none, later)) :
    (first >>= second) state = (none, later) := by
  rw [bind_apply, hangs]

instance : LawfulMonad (Program State) := by
  refine LawfulMonad.mk' _ ?_ ?_ ?_
  · intro Result program
    funext state
    change (program >>= fun result => Pure.pure (id result)) state = _
    rw [bind_apply]
    cases outcome : program state with
    | mk answer later => cases answer <;> rfl
  · intro _ _ result second
    rfl
  · intro _ _ _ program second third
    funext state
    simp only [bind_apply]
    cases outcome : program state with
    | mk answer later => cases answer <;> rfl

/-- From `pre`, the program returns in `post` or hangs in `halt`. -/
def Ensures (pre : State → Prop) (program : Program State Result)
    (post : Result → State → Prop) (halt : State → Prop) : Prop :=
  ∀ state, pre state →
    match program state with
    | (some result, later) => post result later
    | (none, later) => halt later

namespace Ensures

variable {pre stronger halt weakerHalt : State → Prop}
  {program : Program State Result} {post weaker : Result → State → Prop}

theorem pure {result : Result} (holds : ∀ state, pre state → post result state) :
    Ensures pre (Pure.pure result) post halt :=
  holds

theorem modify {update : State → State} (post : Unit → State → Prop)
    (holds : ∀ state, pre state → post () (update state)) :
    Ensures pre (Program.modify update) post halt :=
  holds

theorem get (post : State → State → Prop)
    (holds : ∀ state, pre state → post state state) :
    Ensures pre Program.get post halt :=
  holds

theorem hang (holds : ∀ state, pre state → halt state) :
    Ensures pre (Program.hang : Program State Result) post halt :=
  holds

theorem bind {first : Program State Next}
    {second : Next → Program State Result}
    {middle : Next → State → Prop}
    (one : Ensures pre first middle halt)
    (two : ∀ result, Ensures (middle result) (second result) post halt) :
    Ensures pre (first >>= second) post halt := by
  intro state holds
  have reached := one state holds
  cases outcome : first state with
  | mk answer later =>
      rw [outcome] at reached
      cases answer with
      | some result =>
          rw [bind_of_some outcome]
          exact two result later reached
      | none =>
          rw [bind_of_none outcome]
          exact reached

theorem weaken (ensured : Ensures stronger program post halt)
    (before : ∀ state, pre state → stronger state)
    (after : ∀ result state, post result state → weaker result state)
    (hung : ∀ state, halt state → weakerHalt state) :
    Ensures pre program weaker weakerHalt := by
  intro state holds
  have reached := ensured state (before state holds)
  cases outcome : program state with
  | mk answer later =>
      rw [outcome] at reached
      cases answer with
      | some result => exact after result later reached
      | none => exact hung later reached

theorem retry {body : Program State (Option Result)}
    (each : Ensures pre body
      (fun answer state =>
        match answer with
        | some result => post result state
        | none => pre state) halt)
    (exhausted : ∀ state, pre state → halt state) (attempts : Nat) :
    Ensures pre (Program.retry body attempts) post halt := by
  induction attempts with
  | zero => exact hang exhausted
  | succ attempts induction =>
      refine bind each fun answer => ?_
      cases answer with
      | some result => exact pure fun state holds => holds
      | none => exact induction

theorem ofExists {Value : Type} {choice : Value → State → Prop}
    (each : ∀ value, Ensures (choice value) program post halt) :
    Ensures (fun state => ∃ value, choice value state) program post halt := by
  intro state holds
  obtain ⟨value, holds⟩ := holds
  exact each value state holds

theorem given {fact : Prop} (each : fact → Ensures pre program post halt) :
    Ensures (fun state => fact ∧ pre state) program post halt :=
  fun state holds => each holds.1 state holds.2

theorem returns (ensured : Ensures pre program post halt) {state : State}
    {result : Result} (holds : pre state) (returned : (program state).1 = some result) :
    post result (program state).2 := by
  have reached := ensured state holds
  cases outcome : program state with
  | mk answer later =>
      rw [outcome] at reached returned
      cases returned
      exact reached

end Ensures

/-- However the program ends, it leads along `grows`. -/
def Grows (grows : State → State → Prop) (program : Program State Result) :
    Prop :=
  ∀ state, grows state (program state).2

namespace Grows

variable {grows : State → State → Prop} [Std.Refl grows]
  [IsTrans State grows] {program : Program State Result}

omit [IsTrans State grows] in
theorem pure (result : Result) :
    Grows grows (Pure.pure result : Program State Result) :=
  fun state => Std.Refl.refl state

omit [IsTrans State grows] in
theorem hang : Grows grows (Program.hang : Program State Result) :=
  fun state => Std.Refl.refl state

omit [Std.Refl grows] in
theorem bind {first : Program State Next}
    {second : Next → Program State Result}
    (one : Grows grows first) (two : ∀ result, Grows grows (second result)) :
    Grows grows (first >>= second) := by
  intro state
  have reached := one state
  cases outcome : first state with
  | mk answer later =>
      rw [outcome] at reached
      cases answer with
      | some result =>
          rw [bind_of_some outcome]
          exact trans_of grows reached (two result later)
      | none =>
          rw [bind_of_none outcome]
          exact reached

theorem retry {body : Program State (Option Result)} (each : Grows grows body)
    (attempts : Nat) : Grows grows (Program.retry body attempts) := by
  induction attempts with
  | zero => exact hang
  | succ attempts induction =>
      refine bind each fun answer => ?_
      cases answer with
      | some result => exact pure result
      | none => exact induction

omit [Std.Refl grows] [IsTrans State grows] in
theorem ensures (growing : Grows grows program) {holds : State → Prop}
    (kept : ∀ state later, grows state later → holds state → holds later) :
    Ensures holds program (fun _ => holds) holds := by
  intro state before
  have after := kept _ _ (growing state) before
  cases outcome : program state with
  | mk answer later =>
      rw [outcome] at after
      cases answer with
      | some result => exact after
      | none => exact after

omit [Std.Refl grows] in
/-- A triple holds along with the way from where the program began. -/
theorem alongside {pre halt : State → Prop} {post : Result → State → Prop}
    (growing : Grows grows program) (ensured : Ensures pre program post halt)
    (origin : State) :
    Ensures (fun state => pre state ∧ grows origin state) program
      (fun result state => post result state ∧ grows origin state)
      (fun state => halt state ∧ grows origin state) := by
  intro state both
  have after := trans_of grows both.2 (growing state)
  have reached := ensured state both.1
  cases outcome : program state with
  | mk answer later =>
      rw [outcome] at after reached
      cases answer with
      | some result => exact ⟨reached, after⟩
      | none => exact ⟨reached, after⟩

end Grows

end Program

end Lora32Mqtt
