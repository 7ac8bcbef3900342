import Lora32Mqtt.Lora.Discipline
import Lora32Mqtt.Radio.Started

/-!
# The tasks on the driver

A node is one of the two tasks, the driver that it calls and a chip.  It reads the
frames that `LoRaReceive` returns, and it stops for good in a call that does not
return.  What a node puts on the air is what its task hands to `LoRaSend` in one of
its runs.
-/

namespace Lora32Mqtt

namespace Radio

def payloadOf (frame : Frame) : Payload :=
  ⟨frame.bytes, Nat.lt_of_le_of_lt frame.short (by decide)⟩

/-- A task with the places where it calls the driver. -/
structure DriverTask (Task Env Effect : Type) where
  step : Task → Env → Task × List Effect
  /-- The step begins with `LoRaReceive`. -/
  listens : Task → Bool
  /-- The surroundings with what it has returned. -/
  hears : Env → Frame → Env
  /-- The call behind an effect. -/
  call : Effect → Option DriverCall
  /-- Frames are only sent in synchronous mode. -/
  synchronous : ∀ effect other, call effect = some other →
    other = .getPacketStatus ∨ ∃ frame, other = .loRaSend (payloadOf frame) 0x02
  /-- At most the first effect of a step hands a frame over. -/
  first : ∀ task env, ∀ effect ∈ (step task env).2.tail,
    (call effect).bind DriverCall.frame = none

inductive NodeEvent (Effect : Type) where
  | did (effect : Effect)
  | called (event : DriverEvent)

namespace NodeEvent

variable {Effect : Type}

def effect : NodeEvent Effect → List Effect
  | .did effect => [effect]
  | .called _ => []

def driverEvent : NodeEvent Effect → List DriverEvent
  | .did _ => []
  | .called event => [event]

end NodeEvent

structure NodeState (Task : Type) where
  task : Task
  driver : DriverState

def Answer.frame : Answer → Frame
  | .received bytes => ⟨bytes.take 255, List.length_take_le 255 bytes⟩
  | _ => silence

namespace DriverTask

variable {Task Env Effect : Type} (program : DriverTask Task Env Effect) (chip : Chip)
  (polls : Nat)

/-- The task by itself, in any surroundings. -/
def loop : Machine Task Env Effect where
  step task env := some (program.step task env)

def callDriver (radio : RadioState) (call : DriverCall) :
    DriverState × DriverEvent :=
  let outcome := call.perform chip polls radio
  (⟨outcome.2, outcome.1.isNone⟩, ⟨call, outcome.1⟩)

/-- The effects of a step, as far as their calls return. -/
def carryOut : RadioState → List Effect → DriverState × List (NodeEvent Effect)
  | radio, [] => (⟨radio, false⟩, [])
  | radio, effect :: rest =>
      match program.call effect with
      | none =>
          let outcome := carryOut radio rest
          (outcome.1, .did effect :: outcome.2)
      | some call =>
          let called := callDriver chip polls radio call
          if called.1.stuck then (called.1, [.did effect, .called called.2])
          else
            let outcome := carryOut called.1.radio rest
            (outcome.1, .did effect :: .called called.2 :: outcome.2)

/-- The step of a task that has heard a frame, or has not listened. -/
def goOn (task : Task) (env : Env) (radio : RadioState) :
    NodeState Task × List (NodeEvent Effect) :=
  let result := program.step task env
  let done := program.carryOut chip polls radio result.2
  (⟨result.1, done.1⟩, done.2)

def node : Machine (NodeState Task) Env (NodeEvent Effect) where
  step state env :=
    if state.driver.stuck then none
    else if program.listens state.task then
      let heard := callDriver chip polls state.driver.radio (.loRaReceive 256)
      match heard.2.answer with
      | none => some (⟨state.task, heard.1⟩, [.called heard.2])
      | some answer =>
          let rest := program.goOn chip polls state.task (program.hears env answer.frame)
            heard.1.radio
          some (rest.1, .called heard.2 :: rest.2)
    else some (program.goOn chip polls state.task env state.driver.radio)

end DriverTask

def DriverTask.handed {Task Env Effect : Type} (program : DriverTask Task Env Effect)
    (effect : Effect) : Option (List UInt8) :=
  (program.call effect).bind DriverCall.frame

theorem takenFrames_of_synchronous {history : List DriverEvent}
    (synchronous : ∀ event ∈ history, ∀ data mode, event.call = .loRaSend data mode →
      mode = 0x02 ∧ data.bytes.length ≤ 255) :
    takenFrames history = history.filterMap fun event => event.call.frame := by
  rw [takenFrames]
  induction history with
  | nil => rfl
  | cons event rest induction =>
      have rest := induction fun later member =>
        synchronous later (List.mem_cons_of_mem _ member)
      have first := synchronous event List.mem_cons_self
      obtain ⟨call, answer⟩ := event
      cases call with
      | loRaSend data mode =>
          obtain ⟨rfl, short⟩ := first data mode rfl
          have free : DriverEvent.engages false ⟨.loRaSend data 0x02, answer⟩ = false := by
            rcases answer with _ | _ | (_ | _) | _ | _ | _ <;> rfl
          have whole : DriverEvent.taken false ⟨.loRaSend data 0x02, answer⟩ =
              [data.bytes] := by
            rw [← carried_of_short short]
            rfl
          rw [takenFrom, free, rest, whole]
          rfl
      | receiveMode =>
          have free : DriverEvent.engages false ⟨.receiveMode, answer⟩ = false := by
            rcases answer with _ | _ | (_ | _) | _ | _ | _ <;> rfl
          rw [takenFrom, free, rest]
          rfl
      | _ =>
          rw [takenFrom]
          exact rest

section Runs

variable {Task Env Effect : Type} {program : DriverTask Task Env Effect} {chip : Chip}
  {polls : Nat}

theorem driver_callDriver (radio : RadioState) (call : DriverCall) :
    (driver chip polls).Reaches ⟨radio, false⟩
      [(DriverTask.callDriver chip polls radio call).2]
      (DriverTask.callDriver chip polls radio call).1 :=
  .step .refl (rfl : (driver chip polls).step ⟨radio, false⟩ call = some
    ((DriverTask.callDriver chip polls radio call).1,
      [(DriverTask.callDriver chip polls radio call).2]))

/-- What has happened between two states of a node. -/
structure Unfolds (program : DriverTask Task Env Effect) (chip : Chip) (polls : Nat)
    (radio : RadioState) (due : List Effect) (events : List (NodeEvent Effect))
    (reached : DriverState) : Prop where
  calls : (driver chip polls).Reaches ⟨radio, false⟩
    (events.flatMap NodeEvent.driverEvent) reached
  /-- The effects are those that were due, up to a call that did not return. -/
  effects : events.flatMap NodeEvent.effect <+: due
  complete : reached.stuck = false → events.flatMap NodeEvent.effect = due
  frames : (events.flatMap NodeEvent.driverEvent).filterMap
      (fun event => event.call.frame) =
    (events.flatMap NodeEvent.effect).filterMap program.handed
  /-- What was not done would not have handed anything over. -/
  handed : (events.flatMap NodeEvent.effect).filterMap program.handed =
    due.filterMap program.handed
  synchronous : ∀ event ∈ events.flatMap NodeEvent.driverEvent, ∀ data mode,
    event.call = .loRaSend data mode → mode = 0x02 ∧ data.bytes.length ≤ 255

theorem Unfolds.trans {radio middle : RadioState} {due moreDue : List Effect}
    {events more : List (NodeEvent Effect)} {reached : DriverState}
    (first : Unfolds program chip polls radio due events ⟨middle, false⟩)
    (second : Unfolds program chip polls middle moreDue more reached) :
    Unfolds program chip polls radio (due ++ moreDue) (events ++ more) reached := by
  have all : events.flatMap NodeEvent.effect = due := first.complete rfl
  refine ⟨?_, ?_, fun going => ?_, ?_, ?_, ?_⟩
  · rw [List.flatMap_append]
    exact first.calls.trans second.calls
  · rw [List.flatMap_append, all]
    exact List.prefix_append_right_inj due |>.mpr second.effects
  · rw [List.flatMap_append, all, second.complete going]
  · rw [List.flatMap_append, List.flatMap_append, List.filterMap_append,
      List.filterMap_append, first.frames, second.frames]
  · rw [List.flatMap_append, List.filterMap_append, List.filterMap_append, first.handed,
      second.handed]
  · rw [List.flatMap_append]
    intro event member
    exact (List.mem_append.mp member).elim (first.synchronous event)
      (second.synchronous event)

theorem Unfolds.refl (radio : RadioState) :
    Unfolds program chip polls radio [] [] ⟨radio, false⟩ :=
  ⟨.refl, List.prefix_rfl, fun _ => rfl, rfl, rfl,
    fun _ member => absurd member List.not_mem_nil⟩

theorem unfolds_carryOut (radio : RadioState) {effects : List Effect}
    (silent : ∀ effect ∈ effects.tail, program.handed effect = none) :
    Unfolds program chip polls radio effects
      (program.carryOut chip polls radio effects).2
      (program.carryOut chip polls radio effects).1 := by
  induction effects generalizing radio with
  | nil => exact .refl radio
  | cons effect rest induction =>
      have quietRest : ∀ later ∈ rest, program.handed later = none := silent
      have induction := fun radio =>
        induction radio fun later member => quietRest later (List.mem_of_mem_tail member)
      rw [DriverTask.carryOut]
      cases calls : program.call effect with
      | none =>
          have alone : Unfolds program chip polls radio [effect] [.did effect]
              ⟨radio, false⟩ := by
            refine ⟨.refl, List.prefix_rfl, fun _ => rfl, ?_, rfl,
              fun _ member => absurd member List.not_mem_nil⟩
            have quiet : program.handed effect = none := by
              rw [DriverTask.handed, calls]
              rfl
            change ([] : List (List UInt8)) = List.filterMap program.handed [effect]
            rw [List.filterMap_cons_none quiet, List.filterMap_nil]
          exact alone.trans (induction radio)
      | some call =>
          have alone : Unfolds program chip polls radio [effect]
              [.did effect, .called (DriverTask.callDriver chip polls radio call).2]
              (DriverTask.callDriver chip polls radio call).1 := by
            refine ⟨driver_callDriver radio call, List.prefix_rfl, fun _ => rfl, ?_, rfl,
              ?_⟩
            · have same : program.handed effect = call.frame := by
                rw [DriverTask.handed, calls]
                rfl
              change List.filterMap (fun event : DriverEvent => event.call.frame)
                [⟨call, _⟩] = List.filterMap program.handed [effect]
              rw [List.filterMap_cons, List.filterMap_cons, same]
              rfl
            · intro event member data mode isSend
              obtain rfl := List.mem_singleton.mp member
              rcases program.synchronous effect call calls with rfl | ⟨frame, rfl⟩
              · cases isSend
              · obtain ⟨rfl, rfl⟩ := DriverCall.loRaSend.inj isSend
                exact ⟨rfl, frame.short⟩
          dsimp only
          split
          next stuck =>
            have part := List.prefix_append [effect] rest
            have nothing : rest.filterMap program.handed = [] :=
              List.filterMap_eq_nil_iff.mpr quietRest
            refine ⟨alone.calls, part,
              fun going => absurd (stuck.symm.trans going) (by decide),
              alone.frames, ?_, alone.synchronous⟩
            have split : (effect :: rest).filterMap program.handed =
                [effect].filterMap program.handed ++ rest.filterMap program.handed := by
              rw [← List.filterMap_append, List.singleton_append]
            rw [alone.handed, split, nothing, List.append_nil]
          next going =>
            rw [Bool.not_eq_true] at going
            have returned : (DriverTask.callDriver chip polls radio call).1 =
                ⟨(DriverTask.callDriver chip polls radio call).1.radio, false⟩ := by
              rw [← going]
            exact (returned ▸ alone).trans (induction _)

theorem unfolds_hearing (radio : RadioState) :
    Unfolds program chip polls radio []
      [.called (DriverTask.callDriver chip polls radio (.loRaReceive 256)).2]
      (DriverTask.callDriver chip polls radio (.loRaReceive 256)).1 := by
  refine ⟨driver_callDriver radio _, List.prefix_rfl, fun _ => rfl, rfl, rfl, ?_⟩
  intro event member data mode isSend
  obtain rfl := List.mem_singleton.mp member
  cases isSend

/-- A run of a node is a run of its task and a run of the driver. -/
theorem unfolds_of_reaches {task : Task} {radio : RadioState} {state : NodeState Task}
    {history : List (NodeEvent Effect)}
    (reached : (program.node chip polls).Reaches ⟨task, ⟨radio, false⟩⟩ history state) :
    ∃ due, program.loop.Reaches task due state.task ∧
      Unfolds program chip polls radio due history state.driver := by
  induction reached with
  | refl => exact ⟨[], .refl, .refl radio⟩
  | @step history events state next env _ taken induction =>
      obtain ⟨due, ran, before⟩ := induction
      obtain ⟨task, middle, stuck⟩ := state
      simp only [DriverTask.node] at taken
      cases stuck with
      | true => cases taken
      | false =>
      rw [if_neg (by decide)] at taken
      split at taken
      next listens =>
        have hearing : Unfolds program chip polls middle [] _ _ := unfolds_hearing middle
        simp only [DriverTask.callDriver] at taken hearing
        cases outcome : (DriverCall.loRaReceive 256).perform chip polls middle with
        | mk answer later =>
            rw [outcome] at taken hearing
            have heard := before.trans hearing
            rw [List.append_nil] at heard
            cases answer with
            | none =>
                obtain ⟨rfl, rfl⟩ := Prod.mk.inj (Option.some.inj taken)
                exact ⟨due, ran, heard⟩
            | some answer =>
                obtain ⟨rfl, rfl⟩ := Prod.mk.inj (Option.some.inj taken)
                refine ⟨_, .step ran rfl, ?_⟩
                rw [← List.singleton_append, ← List.append_assoc]
                exact heard.trans (unfolds_carryOut later (program.first _ _))
      next deaf =>
        obtain ⟨rfl, rfl⟩ := Prod.mk.inj (Option.some.inj taken)
        exact ⟨_, .step ran rfl,
          before.trans (unfolds_carryOut middle (program.first _ _))⟩

end Runs

/-- The payloads on the air are those frames, in order and with up to nine copies of
each; the last one may be missing if a call of the driver has not returned. -/
structure Broadcasts (chip : Chip) (start : Emitter) (frames : List (List UInt8))
    (state : DriverState) : Prop where
  onAir : ∃ sent, Repeated 9 sent (start.after state.radio.log).emitted ∧
    sent <+: frames ∧ frames.length ≤ sent.length + 1
  complete : state.stuck = false →
    Repeated 9 frames (start.after state.radio.log).emitted
  once : state.stuck = false → Chip.AnswersWell chip →
    (start.after state.radio.log).emitted = frames

section OnAir

variable {Task Env Effect : Type} {program : DriverTask Task Env Effect} {chip : Chip}
  {polls : Nat} {start : Emitter} {params : CArray 6} {lost : Int32}
  {radio : RadioState}

theorem Unfolds.broadcasts {due : List Effect} {events : List (NodeEvent Effect)}
    {reached : DriverState}
    (ready : Airs start [] params false lost (fun _ => True) radio)
    (unfolds : Unfolds program chip polls radio due events reached) :
    Broadcasts chip start (due.filterMap program.handed) reached := by
  obtain ⟨ledger, run, related⟩ := driver_refines ready unfolds.calls
  have transmits := related.transmits (Keeps.of_reaches run)
  have taken : takenFrames (events.flatMap NodeEvent.driverEvent) =
      due.filterMap program.handed := by
    rw [takenFrames_of_synchronous unfolds.synchronous, unfolds.frames, unfolds.handed]
  rw [← taken]
  exact ⟨transmits.onAir, transmits.complete, transmits.once⟩

end OnAir

def txModeSync : UInt8 := 0x02

def slaveCall : TxEffect → Option DriverCall
  | .timeRequest frame | .timestamp frame => some (.loRaSend (payloadOf frame) txModeSync)
  | .timeResponse _ _ | .settimeofday _ => none

theorem TxTask.tail_step (task : TxTask) (env : TaskEnv) : (task.step env).2.tail = [] := by
  rw [TxTask.step]
  split
  case h_4 =>
    dsimp only
    split
    · split <;> rfl
    · rfl
  case h_6 | h_9 => split <;> rfl
  all_goals rfl

def slaveProgram (tickStart : UInt32) :
    DriverTask TickedTask TickedEnv (Nat × TxEffect) where
  step := tickedStep tickStart
  listens state := state.task.phase = .receive
  hears action frame := { action with env := { action.env with received := frame } }
  call effect := slaveCall effect.2
  synchronous := by
    intro effect other calls
    obtain ⟨moment, effect⟩ := effect
    cases effect with
    | timeRequest frame => exact .inr ⟨frame, (Option.some.inj calls).symm⟩
    | timestamp frame => exact .inr ⟨frame, (Option.some.inj calls).symm⟩
    | timeResponse frame t4 => cases calls
    | settimeofday tv => cases calls
  first := by
    intro state action effect member
    simp only [tickedStep, ← List.map_tail, TxTask.tail_step, List.map_nil] at member
    exact absurd member List.not_mem_nil

/-- What a slave has put on the air since it was started is what its task, in a run
that keeps the discipline, has handed over. -/
theorem slave_on_air {chip : Chip} {bus : SpiBus} {residue : UInt8 × UInt8}
    {start : Emitter} {packetParams : CArray 6} {txLost : Int32} {tasks : List LoraTask}
    {radio : RadioState} {polls : Nat} {tickStart : UInt32} {task : TxTask}
    {history : List (NodeEvent (Nat × TxEffect))} {state : NodeState TickedTask}
    (fresh : start.emitted = []) (unstarted : task.Fresh)
    (started : initLoraSlave chip bus residue (initialized packetParams txLost) =
      (some (.espOk, tasks), radio))
    (reached : ((slaveProgram tickStart).node chip polls).Reaches
      ⟨⟨task, 0⟩, ⟨radio, false⟩⟩ history state) :
    ∃ loopHistory, (slaveLoop tickStart).Reaches ⟨task, 0⟩ loopHistory state.task ∧
      Justified ObeysDiscipline loopHistory ∧
      Broadcasts chip start (loopHistory.filterMap (slaveProgram tickStart).handed)
        state.driver := by
  obtain ⟨loopHistory, ran, unfolds⟩ := unfolds_of_reaches reached
  exact ⟨loopHistory, ran, (SlaveInvariant.of_reaches unstarted ran).disciplined,
    unfolds.broadcasts (started_airs fresh started)⟩

/-- Surroundings in which nothing is heard but what the chip has. -/
def quietEnv : TaskEnv where
  received := silence
  clock := 7
  tick := 0
  sent := true
  residue := List.Vector.replicate 50 0

/-- A slave that has sent its first request. -/
theorem slave_on_air_request :
    let program := slaveProgram 0
    ∃ (state : NodeState TickedTask) (loopHistory : TxHistory),
      Justified ObeysDiscipline loopHistory ∧
      (emptyEmitter.after state.driver.radio.log).emitted =
        loopHistory.filterMap program.handed ∧
      (emptyEmitter.after state.driver.radio.log).emitted =
        [(loraRequestTimesync 7 true).frame.bytes] := by
  have executed : (((slaveProgram 0).node (scriptedChip 139) 3).run
      ⟨⟨sampleTxTask, 0⟩, ⟨startedNode 139 .loraTxTask, false⟩⟩ [⟨quietEnv, 0⟩]).map
        (fun outcome => (outcome.1.driver.stuck,
          (emptyEmitter.after outcome.1.driver.radio.log).emitted)) =
            some (false, [(loraRequestTimesync 7 true).frame.bytes]) := by
    decide +kernel
  obtain ⟨⟨state, history⟩, outcome, same⟩ := Option.map_eq_some_iff.mp executed
  obtain ⟨going, sent⟩ := Prod.mk.inj same
  obtain ⟨loopHistory, _, disciplined, broadcasts⟩ := slave_on_air
    (rfl : emptyEmitter.emitted = []) ⟨rfl, rfl, rfl⟩
    (startedNode_started (by decide +kernel)) (Machine.reaches_of_run outcome)
  exact ⟨state, loopHistory, disciplined,
    broadcasts.once going (scriptedChip_answersWell 139), sent⟩

def masterCall : RxEffect → Option DriverCall
  | .loRaSend frame => some (.loRaSend (payloadOf frame) txModeSync)
  | .getPacketStatus => some .getPacketStatus
  | .logTimestamp _ | .logDescription _ | .mqttPublishData _ _ => none

def masterProgram : DriverTask RxTask TaskEnv RxEffect where
  step := RxTask.step
  listens task := task.phase = .receive
  hears env frame := { env with received := frame }
  call := masterCall
  synchronous := by
    intro effect other calls
    cases effect with
    | loRaSend frame => exact .inr ⟨frame, (Option.some.inj calls).symm⟩
    | getPacketStatus => exact .inl (Option.some.inj calls).symm
    | logTimestamp timestampUs => cases calls
    | logDescription text => cases calls
    | mqttPublishData slaveId message => cases calls
  first := by
    intro task env effect member
    rw [RxTask.step] at member
    split at member
    · dsimp only at member
      split at member
      · exact absurd member List.not_mem_nil
      · split at member
        · simp only [handleTimestamp, List.tail_cons, List.mem_cons, List.not_mem_nil,
            or_false] at member
          rcases member with rfl | rfl | rfl <;> rfl
        · exact absurd member List.not_mem_nil
    · exact absurd member List.not_mem_nil

/-- The request that a call of `LoRaReceive` returned. -/
def DriverEvent.request (event : DriverEvent) : Option Frame :=
  match event.call, event.answer with
  | .loRaReceive _, some answer =>
      if answer.frame.Is .timeRequest sizeofLoraTimeSyncMsg then some answer.frame
      else none
  | _, _ => none

def requestsOf (history : List (NodeEvent RxEffect)) : List Frame :=
  (history.flatMap NodeEvent.driverEvent).filterMap DriverEvent.request

def responsesOf (history : List (NodeEvent RxEffect)) : List (List UInt8) :=
  (history.flatMap NodeEvent.effect).filterMap masterProgram.handed

def AnswersRequest (request : Frame) (payload : List UInt8) : Prop :=
  ∃ clock2 clock3, payload = (responseTo request clock2 clock3).toBytes

/-- All requests are answered, or all but the one in the buffer. -/
def MasterOwes (history : List (NodeEvent RxEffect)) (task : RxTask) : Prop :=
  match task.phase with
  | .receive => List.Forall₂ AnswersRequest (requestsOf history) (responsesOf history)
  | .respond => ∃ answered last, requestsOf history = answered ++ [last] ∧
      List.Forall₂ AnswersRequest answered (responsesOf history) ∧
      readU64 task.buf.toList 1 = readU64 last.bytes 1

section Master

variable {chip : Chip} {polls : Nat}

theorem requestsOf_append (history events : List (NodeEvent RxEffect)) :
    requestsOf (history ++ events) = requestsOf history ++ requestsOf events := by
  rw [requestsOf, List.flatMap_append, List.filterMap_append, requestsOf, requestsOf]

theorem responsesOf_append (history events : List (NodeEvent RxEffect)) :
    responsesOf (history ++ events) = responsesOf history ++ responsesOf events := by
  rw [responsesOf, List.flatMap_append, List.filterMap_append, responsesOf, responsesOf]

theorem requestsOf_carryOut (radio : RadioState) (effects : List RxEffect) :
    requestsOf (masterProgram.carryOut chip polls radio effects).2 = [] := by
  induction effects generalizing radio with
  | nil => rfl
  | cons effect rest induction =>
      rw [DriverTask.carryOut]
      cases calls : masterProgram.call effect with
      | none => exact induction radio
      | some call =>
          have notRequest :
              (DriverTask.callDriver chip polls radio call).2.request = none := by
            rcases masterProgram.synchronous effect call calls with rfl | ⟨frame, rfl⟩
            · rfl
            · rfl
          have alone : requestsOf
              [.did effect, .called (DriverTask.callDriver chip polls radio call).2] = [] :=
            List.filterMap_cons_none notRequest
          dsimp only
          split
          · exact alone
          · have both := requestsOf_append
              [.did effect, .called (DriverTask.callDriver chip polls radio call).2]
            exact (both _).trans (by rw [alone, induction]; rfl)

theorem responsesOf_carryOut (radio : RadioState) {effects : List RxEffect}
    (silent : ∀ effect ∈ effects, masterProgram.handed effect = none) :
    responsesOf (masterProgram.carryOut chip polls radio effects).2 = [] := by
  have unfolds : Unfolds masterProgram chip polls radio effects _ _ :=
    unfolds_carryOut radio fun effect member => silent effect (List.mem_of_mem_tail member)
  exact List.filterMap_eq_nil_iff.mpr fun effect member =>
    silent effect (unfolds.effects.subset member)

theorem responsesOf_send (radio : RadioState) (frame : Frame) :
    responsesOf (masterProgram.carryOut chip polls radio [.loRaSend frame]).2 =
      [frame.bytes] := by
  simp only [DriverTask.carryOut, masterProgram, masterCall]
  split <;> rfl

/-- Without a request the master keeps listening and hands nothing over. -/
theorem step_other (buf : CArray 256) {env : TaskEnv}
    (notRequest : ¬ env.received.Is .timeRequest sizeofLoraTimeSyncMsg) :
    (RxTask.step ⟨.receive, buf⟩ env).1.phase = .receive ∧
      ∀ effect ∈ (RxTask.step ⟨.receive, buf⟩ env).2,
        masterProgram.handed effect = none := by
  rw [Frame.Is, ← isMessage_iff _ (by decide) buf, Bool.not_eq_true] at notRequest
  simp only [RxTask.step, notRequest, Bool.false_eq_true, if_false]
  split
  · refine ⟨rfl, fun effect member => ?_⟩
    simp only [handleTimestamp, List.mem_cons, List.not_mem_nil, or_false] at member
    rcases member with rfl | rfl | rfl | rfl <;> rfl
  · exact ⟨rfl, fun _ member => absurd member List.not_mem_nil⟩

theorem MasterOwes.hears {history : List (NodeEvent RxEffect)} {task : RxTask}
    (owes : MasterOwes history task) (phase : task.phase = .receive) (env : TaskEnv)
    (radio : RadioState) {heard : DriverEvent}
    (heardFrame : heard.request =
      if env.received.Is .timeRequest sizeofLoraTimeSyncMsg then some env.received
      else none) :
    MasterOwes
      (history ++ .called heard ::
        (masterProgram.carryOut chip polls radio (task.step env).2).2)
      (task.step env).1 := by
  have answered :
      List.Forall₂ AnswersRequest (requestsOf history) (responsesOf history) := by
    rwa [MasterOwes, phase] at owes
  obtain ⟨_, buf⟩ := task
  cases phase
  have requests : ∀ later, requestsOf (.called heard :: later) =
      (if env.received.Is .timeRequest sizeofLoraTimeSyncMsg then [env.received] else []) ++
        requestsOf later := by
    intro later
    rw [← List.singleton_append, requestsOf_append]
    refine congrArg (· ++ requestsOf later) ?_
    change List.filterMap DriverEvent.request [heard] = _
    rw [List.filterMap_cons, heardFrame]
    by_cases isRequest : env.received.Is .timeRequest sizeofLoraTimeSyncMsg
    · rw [if_pos isRequest, if_pos isRequest]
      rfl
    · rw [if_neg isRequest, if_neg isRequest]
      rfl
  by_cases isRequest : env.received.Is .timeRequest sizeofLoraTimeSyncMsg
  · have dispatched := (isMessage_iff .timeRequest
      (show 0 < sizeofLoraTimeSyncMsg by decide) buf env.received).mpr isRequest
    have inside : 1 + 8 ≤ env.received.bytes.length := by
      rw [isRequest.1]
      decide
    simp only [RxTask.step, dispatched, if_true]
    refine ⟨requestsOf history, env.received, ?_, ?_, ?_⟩
    · rw [requestsOf_append, requests, if_pos isRequest]
      rfl
    · rw [responsesOf_append]
      exact (List.append_nil (responsesOf history)).symm ▸ answered
    · rw [readU64_storeT2_t1, readU64_receiveInto inside]
  · obtain ⟨receives, silent⟩ := step_other buf isRequest
    rw [MasterOwes, receives]
    change List.Forall₂ AnswersRequest (requestsOf (history ++ _))
      (responsesOf (history ++ _))
    have nothing : responsesOf (.called heard :: (masterProgram.carryOut chip polls radio
        (RxTask.step ⟨.receive, buf⟩ env).2).2) = [] := responsesOf_carryOut radio silent
    rw [requestsOf_append, requests, if_neg isRequest, requestsOf_carryOut,
      responsesOf_append, nothing, List.append_nil, List.append_nil, List.append_nil]
    exact answered

theorem MasterOwes.responds {history : List (NodeEvent RxEffect)} {task : RxTask}
    (owes : MasterOwes history task) (phase : task.phase = .respond) (env : TaskEnv)
    (radio : RadioState) :
    MasterOwes
      (history ++ (masterProgram.carryOut chip polls radio (task.step env).2).2)
      (task.step env).1 := by
  rw [MasterOwes, phase] at owes
  obtain ⟨answered, last, requests, responses, stamp⟩ := owes
  obtain ⟨_, buf⟩ := task
  cases phase
  have one : AnswersRequest last (loraSendTimeResponse (LoraTimeSyncMsg.ofBytes buf.toList)
      env.clock env.sent).frame.bytes := by
    refine ⟨readU64 buf.toList 9, env.clock, ?_⟩
    rw [loraSendTimeResponse_frame, responseTo, ← stamp]
    rfl
  change List.Forall₂ AnswersRequest (requestsOf (history ++ _))
    (responsesOf (history ++ _))
  rw [requestsOf_append, responsesOf_append, requestsOf_carryOut, List.append_nil, requests]
  refine List.rel_append responses ?_
  change List.Forall₂ AnswersRequest [last] (responsesOf (masterProgram.carryOut chip polls
    radio [.loRaSend _]).2)
  rw [responsesOf_send]
  exact .cons one .nil

/-- In every run the master answers the requests it hears one by one. -/
theorem MasterOwes.of_reaches {task : RxTask} {radio : RadioState}
    {history : List (NodeEvent RxEffect)} {state : NodeState RxTask}
    (idle : task.phase = .receive)
    (reached : (masterProgram.node chip polls).Reaches ⟨task, ⟨radio, false⟩⟩ history
      state) :
    MasterOwes history state.task := by
  have initial : MasterOwes [] task := by
    rw [MasterOwes, idle]
    exact .nil
  induction reached with
  | refl => exact initial
  | @step history events state next env _ taken owes =>
      obtain ⟨task, middle, stuck⟩ := state
      simp only [DriverTask.node] at taken
      cases stuck with
      | true => cases taken
      | false =>
      rw [if_neg (by decide)] at taken
      split at taken
      next listens =>
        have phase : task.phase = .receive := of_decide_eq_true listens
        simp only [DriverTask.callDriver] at taken
        cases outcome : (DriverCall.loRaReceive 256).perform chip polls middle with
        | mk answer later =>
            rw [outcome] at taken
            cases answer with
            | none =>
                obtain ⟨rfl, rfl⟩ := Prod.mk.inj (Option.some.inj taken)
                rw [MasterOwes, phase] at owes ⊢
                change List.Forall₂ AnswersRequest (requestsOf (history ++ _))
                  (responsesOf (history ++ _))
                rw [requestsOf_append, responsesOf_append]
                exact List.rel_append owes .nil
            | some answer =>
                obtain ⟨rfl, rfl⟩ := Prod.mk.inj (Option.some.inj taken)
                exact owes.hears phase _ later rfl
      next deaf =>
        have phase : task.phase = .respond := by
          cases phase : task.phase with
          | receive => exact absurd (decide_eq_true phase) deaf
          | respond => rfl
        obtain ⟨rfl, rfl⟩ := Prod.mk.inj (Option.some.inj taken)
        exact owes.responds phase env middle

theorem MasterOwes.answered {history : List (NodeEvent RxEffect)} {task : RxTask}
    (owes : MasterOwes history task) :
    ∃ answered, List.Forall₂ AnswersRequest answered (responsesOf history) ∧
      answered <+: requestsOf history ∧
      (requestsOf history).length ≤ answered.length + 1 := by
  rw [MasterOwes] at owes
  cases phase : task.phase with
  | receive =>
      rw [phase] at owes
      exact ⟨requestsOf history, owes, List.prefix_rfl, Nat.le_succ _⟩
  | respond =>
      rw [phase] at owes
      obtain ⟨answered, last, requests, responses, _⟩ := owes
      refine ⟨answered, responses, ?_, ?_⟩
      · rw [requests]
        exact List.prefix_append _ _
      · rw [requests, List.length_append]
        exact Nat.le_refl _

theorem quiet_of_respond {task : RxTask} {env : TaskEnv} (phase : task.phase = .receive)
    (next : (task.step env).1.phase = .respond) : (task.step env).2 = [] := by
  obtain ⟨_, buf⟩ := task
  cases phase
  simp only [RxTask.step] at next ⊢
  split
  · rfl
  · split
    next other timestamp =>
      rw [if_neg other, if_pos timestamp] at next
      cases next
    next => rfl

theorem awake_of_respond {task : RxTask} {radio : RadioState}
    {history : List (NodeEvent RxEffect)} {state : NodeState RxTask}
    (reached : (masterProgram.node chip polls).Reaches ⟨task, ⟨radio, false⟩⟩ history
      state)
    (phase : state.task.phase = .respond) : state.driver.stuck = false := by
  cases reached with
  | refl => rfl
  | @step _ _ before _ env _ taken =>
      obtain ⟨task, middle, stuck⟩ := before
      simp only [DriverTask.node] at taken
      cases stuck with
      | true => cases taken
      | false =>
      rw [if_neg (by decide)] at taken
      split at taken
      next listens =>
        have receives : task.phase = .receive := of_decide_eq_true listens
        simp only [DriverTask.callDriver] at taken
        cases outcome : (DriverCall.loRaReceive 256).perform chip polls middle with
        | mk answer later =>
            rw [outcome] at taken
            cases answer with
            | none =>
                obtain ⟨rfl, rfl⟩ := Prod.mk.inj (Option.some.inj taken)
                cases receives.symm.trans phase
            | some answer =>
                obtain ⟨rfl, rfl⟩ := Prod.mk.inj (Option.some.inj taken)
                simp only [DriverTask.goOn]
                rw [show (masterProgram.step task _).2 = [] from
                  quiet_of_respond receives phase]
                rfl
      next deaf =>
        have responds : task.phase = .respond := by
          cases phase : task.phase with
          | receive => exact absurd (decide_eq_true phase) deaf
          | respond => rfl
        obtain ⟨rfl, rfl⟩ := Prod.mk.inj (Option.some.inj taken)
        obtain ⟨_, buf⟩ := task
        cases responds
        cases phase

end Master

/-- What a master has put on the air since it was started, with up to nine copies of
each, are its responses to the requests that it has heard, in order; at most the last
one is not answered. -/
theorem master_on_air {chip : Chip} {bus : SpiBus} {residue : UInt8 × UInt8}
    {start : Emitter} {packetParams : CArray 6} {txLost : Int32} {tasks : List LoraTask}
    {radio : RadioState} {polls : Nat} {task : RxTask}
    {history : List (NodeEvent RxEffect)} {state : NodeState RxTask}
    (fresh : start.emitted = []) (idle : task.phase = .receive)
    (started : initLoraMaster chip bus residue (initialized packetParams txLost) =
      (some (.espOk, tasks), radio))
    (reached : (masterProgram.node chip polls).Reaches ⟨task, ⟨radio, false⟩⟩ history
      state) :
    ∃ sent answered, Repeated 9 sent (start.after state.driver.radio.log).emitted ∧
      (state.driver.stuck = false → Chip.AnswersWell chip →
        (start.after state.driver.radio.log).emitted = sent) ∧
      List.Forall₂ AnswersRequest answered sent ∧ answered <+: requestsOf history ∧
      (requestsOf history).length ≤ answered.length + 1 := by
  obtain ⟨_, _, unfolds⟩ := unfolds_of_reaches reached
  have broadcasts : Broadcasts chip start (responsesOf history) state.driver := by
    rw [responsesOf, unfolds.handed]
    exact unfolds.broadcasts (started_airs fresh started)
  have owes := MasterOwes.of_reaches idle reached
  cases going : state.driver.stuck with
  | false =>
      obtain ⟨answered, responses, within, missing⟩ := owes.answered
      exact ⟨responsesOf history, answered, broadcasts.complete going,
        fun _ => broadcasts.once going, responses, within, missing⟩
  | true =>
      -- a master that hangs in a call has handed over all responses
      cases phase : state.task.phase with
      | respond =>
          exact absurd (going.symm.trans (awake_of_respond reached phase)) (by decide)
      | receive =>
          rw [MasterOwes, phase] at owes
          obtain ⟨sent, repeated, within, short⟩ := broadcasts.onAir
          refine ⟨sent, (requestsOf history).take sent.length, repeated,
            fun impossible => absurd impossible (by decide), ?_, List.take_prefix _ _, ?_⟩
          · have front := List.forall₂_take sent.length owes
            rwa [← List.prefix_iff_eq_take.mp within] at front
          · rw [List.length_take, owes.length_eq]
            omega

/-- A master that has heard a request and has answered it. -/
theorem master_on_air_response :
    ∃ (state : NodeState RxTask) (request : Frame) (payload : List UInt8),
      (emptyEmitter.after state.driver.radio.log).emitted = [payload] ∧
      AnswersRequest request payload := by
  have executed : ((masterProgram.node (scriptedChip 186) 3).run
      ⟨⟨.receive, List.Vector.replicate 256 0⟩, ⟨startedNode 186 .loraRxTask, false⟩⟩
      [quietEnv, quietEnv]).map
        (fun outcome => (outcome.1.driver.stuck,
          (emptyEmitter.after outcome.1.driver.radio.log).emitted.length)) =
            some (false, 1) := by
    decide +kernel
  obtain ⟨⟨state, history⟩, outcome, same⟩ := Option.map_eq_some_iff.mp executed
  obtain ⟨going, one⟩ := Prod.mk.inj same
  obtain ⟨frames, answered, _, once, answers, _, _⟩ := master_on_air
    (rfl : emptyEmitter.emitted = []) rfl (startedNode_started (by decide +kernel))
    (Machine.reaches_of_run outcome)
  have sent := once going (scriptedChip_answersWell 186)
  obtain ⟨payload, single⟩ := List.length_eq_one_iff.mp one
  rw [← sent, single] at answers
  cases answers with
  | cons answersOne rest =>
      exact ⟨state, _, payload, single, answersOne⟩

end Radio

end Lora32Mqtt
