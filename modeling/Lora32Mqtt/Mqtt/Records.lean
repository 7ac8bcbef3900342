import Lora32Mqtt.Base.Machine
import Lora32Mqtt.Lora.FrameFormat
import Lora32Mqtt.Mqtt.Publish

/-!
# Records of received frames

The receive loop of the master with the static buffer of the formatter.  The loop
passes a pointer into this buffer to `mqtt_publish_data`, which overwrites it with
the time of the master; the log lines overwrite it as well.
-/

namespace Lora32Mqtt

structure MasterState where
  task : RxTask
  timeBuffer : TimeBuffer

/-- One step of `lora_rx_task`, with its calls of `mqtt_publish_data`. -/
def MasterState.step {Client : Type} (client : Option Client) (state : MasterState)
    (env : TaskEnv) : MasterState × List (PublishState Client) :=
  let task := (state.task.step env).1
  match state.task.phase with
  | .receive =>
      let buf := receiveInto state.task.buf env.received
      if isMessage .timeRequest sizeofLoraTimeSyncMsg buf env.received then
        -- the log line with T2
        (⟨task, formatInto (getEpochTimeUs env.clock) state.timeBuffer⟩, [])
      else if isMessage .timestamp sizeofLoraTimestampMsg buf env.received then
        let timestampUs := readU64 buf.toList 1
        let logged := formatInto timestampUs state.timeBuffer
        let passed := formatInto timestampUs logged
        let call := publishCall allSucceed client 299 .timeBuffer env.clock passed
        (⟨task, call.timeBuffer⟩, [call])
      else (⟨task, state.timeBuffer⟩, [])
  | .respond => (⟨task, state.timeBuffer⟩, [])

/-- One step: the frame that was received and when, and the calls. -/
structure MasterRound (Client : Type) where
  heard : Option (Frame × UInt64)
  calls : List (PublishState Client)

def masterLoop {Client : Type} (client : Option Client) :
    Machine MasterState TaskEnv (MasterRound Client) where
  step state env :=
    some ((state.step client env).1,
      [{ heard :=
           if state.task.phase = .receive then some (env.received, env.clock)
           else none
         calls := (state.step client env).2 }])

section Records

variable {Client : Type}

/-- The record of a slave's stamp, made at some time of the master. -/
def recordOf (client : Client) (slaveId : Int) (slaveTime : List UInt8)
    (clock : UInt64) : Publication Client where
  client := client
  topic := mqttTopic
  data := some
    [("slave_id", .number slaveId), ("slave_time", .string slaveTime),
      ("master_time", .string (formartTimestampUs clock))]
  len := 0
  qos := 1
  retain := 0

/-- The publications that a frame should cause. -/
def recordsFor (client : Option Client) (frame : Frame) (clock : UInt64) :
    List (Publication Client) :=
  match client with
  | none => []
  | some client =>
      if frame.Is .timestamp sizeofLoraTimestampMsg then
        [recordOf client 299 (formartTimestampUs (readU64 frame.bytes 1)) clock]
      else []

namespace MasterRound

def published (round : MasterRound Client) : List (Publication Client) :=
  round.calls.flatMap PublishState.published

def due (client : Option Client) (round : MasterRound Client) :
    List (Publication Client) :=
  match round.heard with
  | none => []
  | some (frame, clock) => recordsFor client frame clock

end MasterRound

/-- The message is copied before the buffer is overwritten. -/
theorem publishCall_published (client : Client) (slaveId : Int)
    (messageData : CharPtr) (clock : UInt64) (timeBuffer : TimeBuffer) :
    (publishCall allSucceed (some client) slaveId messageData clock
        timeBuffer).published =
      [recordOf client slaveId (messageData.read timeBuffer) clock] := by
  rw [publishCall_some]
  rfl

variable (client : Option Client) (state : MasterState) (env : TaskEnv)

/-- The calls publish what the task wants published, if there is a client. -/
theorem MasterState.step_published :
    (state.step client env).2.flatMap PublishState.published =
      match client with
      | none => []
      | some client =>
          ((state.task.step env).2.filterMap RxEffect.published).map fun wanted =>
            recordOf client wanted.1 wanted.2 env.clock := by
  obtain ⟨⟨phase, buf⟩, timeBuffer⟩ := state
  cases phase with
  | respond => cases client <;> rfl
  | receive =>
      simp only [MasterState.step, RxTask.step]
      split
      · cases client <;> rfl
      · split
        · cases client with
          | none => rfl
          | some client =>
              rw [List.flatMap_singleton, publishCall_published, read_formatInto]
              rfl
        · cases client <;> rfl

theorem RxTask.respond_wanted {task : RxTask} (phase : task.phase = .respond) :
    (task.step env).2.filterMap RxEffect.published = [] := by
  simp only [RxTask.step, phase]
  rfl

theorem RxTask.step_wanted (task : RxTask) :
    (task.step env).2.filterMap RxEffect.published =
      if task.phase = .receive ∧ env.received.Is .timestamp sizeofLoraTimestampMsg
      then [(299, formartTimestampUs (readU64 env.received.bytes 1))]
      else [] := by
  cases phase : task.phase with
  | respond => rw [respond_wanted env phase, if_neg (fun both => nomatch both.1)]
  | receive =>
      obtain ⟨phase, buf⟩ := task
      subst phase
      have handled := handle_publishes buf env env
      simp only [handle] at handled
      simp only [true_and]
      rw [← handled]
      split
      · rfl
      next responds =>
        rw [List.filterMap_append, respond_wanted env responds, List.append_nil]

theorem MasterState.step_calls :
    ∀ call ∈ (state.step client env).2, ∃ timeBuffer : TimeBuffer,
      call = publishCall allSucceed client 299 .timeBuffer env.clock timeBuffer := by
  obtain ⟨⟨phase, buf⟩, timeBuffer⟩ := state
  cases phase with
  | respond => exact fun _ member => nomatch member
  | receive =>
      simp only [MasterState.step]
      split
      · exact fun _ member => nomatch member
      · split
        · intro call member
          obtain rfl := List.mem_singleton.mp member
          exact ⟨_, rfl⟩
        · exact fun _ member => nomatch member

end Records

section Runs

variable {Client : Type} {client : Option Client} {start state : MasterState}
  {history : List (MasterRound Client)}

structure MasterRound.Recorded (client : Option Client)
    (round : MasterRound Client) : Prop where
  published : round.published = round.due client
  settled : ∀ call ∈ round.calls, call.Settled
  idle : client = none → ∀ call ∈ round.calls,
    call.published = [] ∧ call.obtained = []

theorem masterLoop_step {env : TaskEnv} {next : MasterState}
    {rounds : List (MasterRound Client)}
    (taken : (masterLoop client).step state env = some (next, rounds)) :
    ∀ round ∈ rounds, round.Recorded client := by
  obtain ⟨_, rfl⟩ := Prod.mk.inj (Option.some.inj taken)
  intro round member
  obtain rfl := List.mem_singleton.mp member
  refine ⟨?_, ?_, ?_⟩
  rotate_left
  · intro call made
    obtain ⟨timeBuffer, rfl⟩ := state.step_calls client env call made
    exact publishCall_settled client _ _ _ _
  · rintro rfl call made
    obtain ⟨timeBuffer, rfl⟩ := state.step_calls none env call made
    exact ⟨rfl, rfl⟩
  rw [MasterRound.published, state.step_published client env, MasterRound.due]
  by_cases listens : state.task.phase = .receive
  · rw [if_pos listens]
    cases client with
    | none => rfl
    | some client =>
        simp only [RxTask.step_wanted, listens, true_and, recordsFor]
        split <;> rfl
  · rw [if_neg listens]
    cases client with
    | none => rfl
    | some client =>
        simp only [RxTask.step_wanted, listens, false_and]
        rfl

theorem recorded_of_reaches
    (reached : (masterLoop client).Reaches start history state) :
    ∀ round ∈ history, round.Recorded client := by
  induction reached with
  | refl => exact fun _ member => nomatch member
  | step _ taken induction =>
      intro round member
      rcases List.mem_append.mp member with before | now
      · exact induction round before
      · exact masterLoop_step taken round now

/-- All publications of a run, in order. -/
def publishedIn (history : List (MasterRound Client)) : List (Publication Client) :=
  history.flatMap MasterRound.published

/-- The frames of a run, in order, and when each was handled. -/
def heardIn (history : List (MasterRound Client)) : List (Frame × UInt64) :=
  history.filterMap MasterRound.heard

theorem publishedIn_eq (recorded : ∀ round ∈ history, round.Recorded client) :
    publishedIn history =
      (heardIn history).flatMap fun heard => recordsFor client heard.1 heard.2 := by
  induction history with
  | nil => rfl
  | cons round history induction =>
      have first := recorded round List.mem_cons_self
      have later := induction fun other member =>
        recorded other (List.mem_cons_of_mem _ member)
      rw [publishedIn, List.flatMap_cons, first.published]
      rw [publishedIn] at later
      rw [later, MasterRound.due]
      cases heard : round.heard with
      | none => simp [heardIn, heard]
      | some pair => simp [heardIn, heard]

/-- In every run each timestamp frame that is received causes one publication, of
its own stamp and of the time of the master then, other frames cause none, and
what a call obtains it releases.  Without a client nothing is published and
nothing obtained. -/
theorem receivedTimestamps_recorded
    (reached : (masterLoop client).Reaches start history state) :
    (∀ round ∈ history, round.Recorded client) ∧
      publishedIn history =
        (heardIn history).flatMap fun heard => recordsFor client heard.1 heard.2 :=
  ⟨recorded_of_reaches reached, publishedIn_eq (recorded_of_reaches reached)⟩

def zeroTimestamp : Frame := ⟨0x04 :: List.replicate 58 0, by decide⟩

/-- A master that receives it one second after the epoch. -/
def secondEnv : TaskEnv where
  received := zeroTimestamp
  clock := 1000000
  tick := 0
  sent := true
  residue := List.Vector.replicate 50 0

def quietMaster : MasterState :=
  ⟨⟨.receive, List.Vector.replicate 256 0⟩, List.Vector.replicate timeBufferSize 0⟩

theorem receivedTimestamps_recorded_zero :
    ∃ history state, (masterLoop (some ())).Reaches quietMaster history state ∧
      heardIn history = [(zeroTimestamp, 1000000)] ∧
      publishedIn history =
        [recordOf () 299 (asciiBytes "1969-12-31 21:00:00.000") 1000000] := by
  have reached := Machine.Reaches.step .refl
    (rfl : (masterLoop (some ())).step quietMaster secondEnv = some _)
  have stamp : readU64 zeroTimestamp.bytes 1 = 0 := by decide
  have text : formartTimestampUs 0 = asciiBytes "1969-12-31 21:00:00.000" := by decide
  refine ⟨_, _, reached, rfl, ?_⟩
  rw [(receivedTimestamps_recorded reached).2,
    show heardIn _ = [(zeroTimestamp, 1000000)] from rfl, List.flatMap_singleton,
    recordsFor, if_pos (by decide), stamp, text]

end Runs

end Lora32Mqtt
