import Lora32Mqtt.Base.Machine
import Lora32Mqtt.Lora.Messages
import Lora32Mqtt.Mqtt.Publish

/-!
# Starting the client (`mqtt.cpp`)

`mqtt_init` keeps the handle of the client in a static variable, which it sets
before it starts the client, and does nothing once the variable is set.  The MQTT
library is not part of the source: it makes a handle or none, and starts a client
or does not, in each call as it likes.
-/

namespace Lora32Mqtt

/-- The members of `esp_mqtt_client_config_t` that are set. -/
structure MqttConfig where
  brokerAddressUri : String
  skipCertCommonNameCheck : Bool
  disableAutoReconnect : Bool
  networkTimeoutMs : Nat
  taskPriority : Nat
  sessionKeepalive : Nat

def configMqtt : MqttConfig where
  brokerAddressUri := "mqtt://10.5.223.152:1883"
  skipCertCommonNameCheck := true
  disableAutoReconnect := false
  networkTimeoutMs := 15000
  taskPriority := 5
  sessionKeepalive := 60

/-- What the library does in one call of `mqtt_init`. -/
structure MqttLibrary (Client : Type) where
  /-- `esp_mqtt_client_init` -/
  clientInit : MqttConfig → Option Client
  /-- Whether `esp_mqtt_client_start` succeeds. -/
  clientStarts : Client → Bool

structure MqttState (Client : Type) where
  globalClient : Option Client
  /-- The clients that were started, in order. -/
  started : List Client

section Calls

variable {Client : Type}

def espMqttClientStart (library : MqttLibrary Client) (client : Client) :
    StateM (MqttState Client) Bool := do
  if library.clientStarts client then
    modify fun state => { state with started := state.started ++ [client] }
  pure (library.clientStarts client)

def mqttInit (library : MqttLibrary Client) : StateM (MqttState Client) EspErr := do
  if (← get).globalClient.isSome then
    return .espOk
  let made := library.clientInit configMqtt
  modify fun state => { state with globalClient := made }
  match made with
  | none => return .espFail
  | some client =>
      let ok ← espMqttClientStart library client
      if !ok then
        return .espFail
      return .espOk

end Calls

structure PublishInput where
  succeeds : Creations
  slaveId : Int
  messageData : CharPtr
  clock : UInt64
  timeBuffer : TimeBuffer

inductive MqttAction (Client : Type) where
  | init (library : MqttLibrary Client)
  | publish (input : PublishInput)

/-- An action and the state that it found. -/
structure MqttEvent (Client : Type) where
  before : MqttState Client
  action : MqttAction Client

section Runs

variable {Client : Type}

def MqttAction.next (action : MqttAction Client) (state : MqttState Client) :
    MqttState Client :=
  match action with
  | .init library => ((mqttInit library).run state).2
  | .publish _ => state

def mqtt : Machine (MqttState Client) (MqttAction Client) (MqttEvent Client) where
  step state action := some (action.next state, [⟨state, action⟩])

/-- `mqtt_publish_data` with the client that `mqtt_client` returns. -/
def PublishInput.published (input : PublishInput) (state : MqttState Client) :
    List (Publication Client) :=
  (publishCall input.succeeds state.globalClient input.slaveId input.messageData
    input.clock input.timeBuffer).published

def noClient : MqttState Client := ⟨none, []⟩

def MqttState.Started (state : MqttState Client) : Prop :=
  ∃ client, state.globalClient = some client ∧ client ∈ state.started

/-- Success is reported for a started client, a failure changes nothing, and what
is published goes through a started client. -/
def MqttEvent.Sound (event : MqttEvent Client) : Prop :=
  match event.action with
  | .init library =>
      let outcome := (mqttInit library).run event.before
      (outcome.1 = .espOk → outcome.2.Started) ∧
        (outcome.1 = .espFail →
          outcome.2.globalClient = event.before.globalClient)
  | .publish input =>
      ∀ publication ∈ input.published event.before,
        publication.client ∈ event.before.started

def MqttEvent.StartFails (event : MqttEvent Client) : Prop :=
  match event.action with
  | .init library =>
      event.before.globalClient = none ∧
        ∃ client, library.clientInit configMqtt = some client ∧
          library.clientStarts client = false
  | .publish _ => False

/-- What a call of `mqtt_init` returns and leaves. -/
inductive MqttInitOutcome (library : MqttLibrary Client) (state : MqttState Client) :
    EspErr × MqttState Client → Prop where
  | again {client : Client} (held : state.globalClient = some client) :
      MqttInitOutcome library state (.espOk, state)
  | noHandle (unset : state.globalClient = none)
      (unmade : library.clientInit configMqtt = none) :
      MqttInitOutcome library state (.espFail, state)
  | starts {client : Client} (unset : state.globalClient = none)
      (made : library.clientInit configMqtt = some client)
      (starts : library.clientStarts client = true) :
      MqttInitOutcome library state
        (.espOk, ⟨some client, state.started ++ [client]⟩)
  | startFails {client : Client} (unset : state.globalClient = none)
      (made : library.clientInit configMqtt = some client)
      (fails : library.clientStarts client = false) :
      MqttInitOutcome library state (.espFail, ⟨some client, state.started⟩)

theorem mqttInit_outcome (library : MqttLibrary Client) (state : MqttState Client) :
    ∃ outcome, (mqttInit library).run state = outcome ∧
      MqttInitOutcome library state outcome := by
  obtain ⟨globalClient, started⟩ := state
  cases globalClient with
  | some client => exact ⟨_, rfl, .again rfl⟩
  | none =>
      cases made : library.clientInit configMqtt with
      | none =>
          have outcome : (mqttInit library).run ⟨none, started⟩ =
              (.espFail, ⟨none, started⟩) := by
            simp only [mqttInit, made]
            rfl
          exact ⟨_, outcome, .noHandle rfl made⟩
      | some client =>
          cases starts : library.clientStarts client with
          | true =>
              have outcome : (mqttInit library).run ⟨none, started⟩ =
                  (.espOk, ⟨some client, started ++ [client]⟩) := by
                simp only [mqttInit, made, espMqttClientStart, starts]
                rfl
              exact ⟨_, outcome, .starts rfl made starts⟩
          | false =>
              have outcome : (mqttInit library).run ⟨none, started⟩ =
                  (.espFail, ⟨some client, started⟩) := by
                simp only [mqttInit, made, espMqttClientStart, starts]
                rfl
              exact ⟨_, outcome, .startFails rfl made starts⟩

theorem PublishInput.client_of_published {input : PublishInput}
    {state : MqttState Client} {publication : Publication Client}
    (member : publication ∈ input.published state) :
    state.globalClient = some publication.client := by
  rw [PublishInput.published] at member
  cases held : state.globalClient with
  | none =>
      rw [held, publishCall_none] at member
      cases member
  | some client =>
      rw [held, publishCall_some, List.mem_singleton] at member
      rw [member]

/-- What is needed of a state for the next action to be sound. -/
def MqttState.HoldsStarted (state : MqttState Client) : Prop :=
  ∀ client, state.globalClient = some client → client ∈ state.started

theorem MqttEvent.sound_iff {event : MqttEvent Client}
    (holdsStarted : event.before.HoldsStarted) :
    event.Sound ↔ ¬ event.StartFails := by
  obtain ⟨before, action⟩ := event
  cases action with
  | publish input =>
      simp only [Sound, StartFails, not_false_eq_true, iff_true]
      intro publication member
      exact holdsStarted _ (PublishInput.client_of_published member)
  | init library =>
      obtain ⟨outcome, outcomeEq, possible⟩ := mqttInit_outcome library before
      simp only [Sound, StartFails, outcomeEq]
      cases possible with
      | again held =>
          refine iff_of_true ⟨fun _ => ⟨_, held, holdsStarted _ held⟩, nofun⟩ ?_
          rintro ⟨unset, _⟩
          rw [held] at unset
          cases unset
      | noHandle unset unmade =>
          refine iff_of_true ⟨nofun, fun _ => rfl⟩ ?_
          rintro ⟨_, client, made, _⟩
          rw [unmade] at made
          cases made
      | starts unset made starts =>
          refine iff_of_true ⟨fun _ => ⟨_, rfl, List.mem_concat_self⟩, nofun⟩ ?_
          rintro ⟨_, client, same, fails⟩
          obtain rfl := Option.some.inj (made.symm.trans same)
          rw [starts] at fails
          cases fails
      | startFails unset made fails =>
          refine iff_of_false ?_ (not_not_intro ⟨unset, _, made, fails⟩)
          rintro ⟨_, unchanged⟩
          have held := (unchanged rfl).trans unset
          cases held

theorem MqttAction.next_holdsStarted {action : MqttAction Client}
    {state : MqttState Client} (holdsStarted : state.HoldsStarted)
    (succeeds : ¬ MqttEvent.StartFails ⟨state, action⟩) :
    (action.next state).HoldsStarted := by
  cases action with
  | publish input => exact holdsStarted
  | init library =>
      obtain ⟨outcome, outcomeEq, possible⟩ := mqttInit_outcome library state
      rw [next, outcomeEq]
      cases possible with
      | again held => exact holdsStarted
      | noHandle unset unmade => exact holdsStarted
      | starts unset made starts =>
          intro client held
          obtain rfl := Option.some.inj held
          exact List.mem_concat_self
      | startFails unset made fails =>
          exact absurd ⟨unset, _, made, fails⟩ succeeds

/-- A client is started only while none is held, and is held from then on. -/
theorem MqttAction.next_started {action : MqttAction Client} {state : MqttState Client}
    (once : state.started.length ≤ if state.globalClient.isSome then 1 else 0) :
    (action.next state).started.length ≤
      if (action.next state).globalClient.isSome then 1 else 0 := by
  cases action with
  | publish input => exact once
  | init library =>
      obtain ⟨outcome, outcomeEq, possible⟩ := mqttInit_outcome library state
      rw [next, outcomeEq]
      cases possible with
      | again held => exact once
      | noHandle unset unmade => exact once
      | starts unset made starts =>
          rw [unset] at once
          simpa using once
      | startFails unset made fails =>
          rw [unset] at once
          exact Nat.le_succ_of_le once

variable {state : MqttState Client} {history : List (MqttEvent Client)}

/-- Whatever fails, at most one client is ever started. -/
theorem started_at_most_once (reached : mqtt.Reaches noClient history state) :
    state.started.length ≤ 1 := by
  have once : state.started.length ≤ if state.globalClient.isSome then 1 else 0 := by
    induction reached with
    | refl => exact Nat.le_refl 0
    | step _ taken induction =>
        obtain ⟨rfl, _⟩ := Prod.mk.inj (Option.some.inj taken)
        exact MqttAction.next_started induction
  split at once
  · exact once
  · exact Nat.le_succ_of_le once

theorem holdsStarted_of_reaches (reached : mqtt.Reaches noClient history state)
    (succeeds : ∀ event ∈ history, ¬ event.StartFails) : state.HoldsStarted := by
  refine reached.invariantOfEvents (fun event => ¬ event.StartFails)
    (fun _ state => state.HoldsStarted) nofun ?_ succeeds
  intro history state action next events _ holdsStarted taken succeeds
  obtain ⟨rfl, rfl⟩ := Prod.mk.inj (Option.some.inj taken)
  exact MqttAction.next_holdsStarted holdsStarted (succeeds _ List.mem_cons_self)

/-- The first action that fails to start a client is itself not sound. -/
theorem sound_iff_of_reaches (reached : mqtt.Reaches noClient history state) :
    (∀ event ∈ history, event.Sound) ↔ ∀ event ∈ history, ¬ event.StartFails := by
  induction reached with
  | refl => simp
  | @step history events state next action earlier taken induction =>
      obtain ⟨rfl, rfl⟩ := Prod.mk.inj (Option.some.inj taken)
      simp only [List.forall_mem_append, List.forall_mem_singleton, induction]
      refine and_congr_right fun succeeds => ?_
      exact MqttEvent.sound_iff (holdsStarted_of_reaches earlier succeeds)

/-- A run keeps its promises exactly if no client that it makes fails to start. -/
theorem mqttInit_sound_iff (reached : mqtt.Reaches noClient history state) :
    ((∀ event ∈ history, event.Sound) ∧ state.started.length ≤ 1) ↔
      ∀ event ∈ history, ¬ event.StartFails := by
  rw [sound_iff_of_reaches reached]
  exact and_iff_left (started_at_most_once reached)

/-- From a client that is held nothing leads on: a client that failed to start is
not started again, while every further call reports success. -/
theorem held_forever {start : MqttState Client} {client : Client}
    (held : start.globalClient = some client)
    (reached : mqtt.Reaches start history state) :
    state = start ∧ ∀ event ∈ history, ∀ library, event.action = .init library →
      (mqttInit library).run event.before = (.espOk, start) := by
  induction reached with
  | refl => exact ⟨rfl, fun _ member => nomatch member⟩
  | @step history events state next action _ taken induction =>
      obtain ⟨rfl, before⟩ := induction
      obtain ⟨rfl, rfl⟩ := Prod.mk.inj (Option.some.inj taken)
      have again (library : MqttLibrary Client) :
          (mqttInit library).run state = (.espOk, state) := by
        obtain ⟨globalClient, started⟩ := state
        subst held
        rfl
      constructor
      · cases action with
        | publish input => rfl
        | init library => rw [MqttAction.next, again]
      · simp only [List.forall_mem_append, List.forall_mem_singleton]
        exact ⟨before, fun library _ => again library⟩

end Runs

def startingLibrary : MqttLibrary Unit := ⟨fun _ => some (), fun _ => true⟩

def failingLibrary : MqttLibrary Unit := ⟨fun _ => some (), fun _ => false⟩

/-- The client is started, and a second call finds it. -/
theorem mqttInit_sound_starting :
    (∀ event ∈ [⟨noClient, .init startingLibrary⟩,
        ⟨⟨some (), [()]⟩, .init failingLibrary⟩], MqttEvent.Sound event) ∧
      [()].length ≤ 1 := by
  have first : mqtt.Reaches noClient _ _ :=
    .step .refl (rfl : mqtt.step _ (.init startingLibrary) = some (⟨some (), [()]⟩, _))
  have second : mqtt.Reaches noClient _ _ :=
    .step first (rfl : mqtt.step _ (.init failingLibrary) = some (⟨some (), [()]⟩, _))
  refine (mqttInit_sound_iff second).mpr ?_
  simp [MqttEvent.StartFails, startingLibrary]

/-- After a failed start the second call reports success, and nothing was
started. -/
theorem mqttInit_unsound :
    ¬ ∀ (history : List (MqttEvent Unit)) (state : MqttState Unit),
      mqtt.Reaches noClient history state →
        (∀ event ∈ history, event.Sound) ∧ state.started.length ≤ 1 := by
  intro always
  have first : mqtt.Reaches noClient _ _ :=
    .step .refl (rfl : mqtt.step _ (.init failingLibrary) = some (⟨some (), []⟩, _))
  have second : mqtt.Reaches noClient _ _ :=
    .step first (rfl : mqtt.step _ (.init startingLibrary) = some (⟨some (), []⟩, _))
  have sound : MqttEvent.Sound ⟨⟨some (), []⟩, .init startingLibrary⟩ :=
    (always _ _ second).1 _ List.mem_concat_self
  obtain ⟨client, _, started⟩ := sound.1 rfl
  cases started

end Lora32Mqtt
