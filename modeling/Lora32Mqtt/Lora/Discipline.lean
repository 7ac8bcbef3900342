import Lora32Mqtt.Base.Machine
import Lora32Mqtt.Lora.FrameFormat

/-!
# Transmission discipline of the slave loop

The slave's task runs against a 32-bit tick counter that starts anywhere and
wraps.  `elapsed` counts the ticks of the run without wrapping; every effect is
recorded with it.  The invariant says, phase by phase, what the two tick stamps
and `time_synced` know about the attempts already made.
-/

namespace Lora32Mqtt

structure TickedTask where
  task : TxTask
  elapsed : Nat

/-- One step takes place some ticks after the last one. -/
structure TickedEnv where
  env : TaskEnv
  increment : Nat

/-- `xTaskGetTickCount()` after `elapsed` ticks of the run. -/
def tickCount (start : UInt32) (elapsed : Nat) : UInt32 :=
  start + UInt32.ofNat elapsed

/-- One step of the slave's task; its effects are stamped with the ticks
elapsed. -/
def tickedStep (start : UInt32) (state : TickedTask) (action : TickedEnv) :
    TickedTask × List (Nat × TxEffect) :=
  let elapsed := state.elapsed + action.increment
  let outcome :=
    state.task.step { action.env with tick := tickCount start elapsed }
  ({ task := outcome.1, elapsed := elapsed },
    outcome.2.map fun effect => (elapsed, effect))

def slaveLoop (start : UInt32) :
    Machine TickedTask TickedEnv (Nat × TxEffect) where
  step state action := some (tickedStep start state action)

/-- Unsigned subtraction never shows more ticks than have elapsed. -/
theorem elapsed_of_tickCount_sub {start limit : UInt32} {stamp elapsed : Nat}
    (order : stamp ≤ elapsed)
    (passed : tickCount start elapsed - tickCount start stamp > limit) :
    stamp + limit.toNat < elapsed := by
  have passedNat : limit.toNat <
      (tickCount start elapsed - tickCount start stamp).toNat :=
    UInt32.lt_iff_toNat_lt.mp passed
  simp only [tickCount] at passedNat
  rw [UInt32.toNat_sub, UInt32.toNat_add, UInt32.toNat_add,
    UInt32.toNat_ofNat', UInt32.toNat_ofNat'] at passedNat
  omega

def TxEffect.isRequest : TxEffect → Bool
  | .timeRequest _ => true
  | _ => false

def TxEffect.isTimestamp : TxEffect → Bool
  | .timestamp _ => true
  | _ => false

abbrev TxHistory := List (Nat × TxEffect)

/-- A response of the right kind and size was processed after the last
request. -/
def Answered (history : TxHistory) : Prop :=
  ∃ early moment frame t4 recent,
    history = early ++ (moment, .timeResponse frame t4) :: recent ∧
      frame.Is .timeResponse sizeofLoraTimeSyncMsg ∧
      ∀ event ∈ recent, event.2.isRequest = false

/-- Every attempt of a kind is more than `gap` ticks before `elapsed`. -/
def Spaced (kind : TxEffect → Bool) (gap elapsed : Nat) (history : TxHistory) :
    Prop :=
  ∀ event ∈ history, kind event.2 = true → event.1 + gap < elapsed

def StampedAfter (start : UInt32) (kind : TxEffect → Bool) (stamp : UInt32)
    (elapsed : Nat) (history : TxHistory) : Prop :=
  ∃ moment, moment ≤ elapsed ∧ stamp = tickCount start moment ∧
    ∀ event ∈ history, kind event.2 = true → event.1 ≤ moment

def NoAttempt (kind : TxEffect → Bool) (history : TxHistory) : Prop :=
  ∀ event ∈ history, kind event.2 = false

def attemptCount (history : TxHistory) : Nat :=
  (history.filter fun event => event.2.isTimestamp).length

theorem Answered.append {history : TxHistory} (answered : Answered history)
    {elapsed : Nat} {effect : TxEffect}
    (noRequest : effect.isRequest = false) :
    Answered (history ++ [(elapsed, effect)]) := by
  obtain ⟨early, moment, frame, t4, recent, split, kind, quiet⟩ := answered
  refine ⟨early, moment, frame, t4, recent ++ [(elapsed, effect)], ?_, kind, ?_⟩
  · simp [split]
  · intro event member
    rcases List.mem_append.mp member with old | new
    · exact quiet event old
    · rw [List.mem_singleton.mp new]
      exact noRequest

theorem Spaced.mono {kind : TxEffect → Bool} {gap elapsed later : Nat}
    {history : TxHistory} (spaced : Spaced kind gap elapsed history)
    (order : elapsed ≤ later) : Spaced kind gap later history := by
  intro event member attempt
  have before := spaced event member attempt
  omega

theorem StampedAfter.mono {start stamp : UInt32} {kind : TxEffect → Bool}
    {elapsed later : Nat} {history : TxHistory}
    (stamped : StampedAfter start kind stamp elapsed history)
    (order : elapsed ≤ later) :
    StampedAfter start kind stamp later history := by
  obtain ⟨moment, bound, stampEq, all⟩ := stamped
  exact ⟨moment, by omega, stampEq, all⟩

theorem StampedAfter.append {start stamp : UInt32} {kind : TxEffect → Bool}
    {elapsed : Nat} {history : TxHistory} {effect : TxEffect}
    (stamped : StampedAfter start kind stamp elapsed history)
    (other : kind effect = false) :
    StampedAfter start kind stamp elapsed (history ++ [(elapsed, effect)]) := by
  obtain ⟨moment, bound, stampEq, all⟩ := stamped
  refine ⟨moment, bound, stampEq, ?_⟩
  intro event member attempt
  rcases List.mem_append.mp member with old | new
  · exact all event old attempt
  · rw [List.mem_singleton.mp new] at attempt
    simp [other] at attempt

theorem StampedAfter.now {start : UInt32} {kind : TxEffect → Bool}
    {elapsed : Nat} {history : TxHistory}
    (bounded : ∀ event ∈ history, event.1 ≤ elapsed) :
    StampedAfter start kind (tickCount start elapsed) elapsed history :=
  ⟨elapsed, le_rfl, rfl, fun event member _ => bounded event member⟩

/-- A passed timer means that the attempts it stands for are far enough back. -/
theorem StampedAfter.spaced {start stamp limit : UInt32}
    {kind : TxEffect → Bool} {elapsed : Nat} {history : TxHistory}
    (stamped : StampedAfter start kind stamp elapsed history)
    (passed : tickCount start elapsed - stamp > limit) :
    Spaced kind limit.toNat elapsed history := by
  obtain ⟨moment, bound, rfl, all⟩ := stamped
  have distance := elapsed_of_tickCount_sub bound passed
  intro event member attempt
  have before := all event member attempt
  omega

theorem NoAttempt.append {kind : TxEffect → Bool} {history : TxHistory}
    {elapsed : Nat} {effect : TxEffect} (silent : NoAttempt kind history)
    (other : kind effect = false) :
    NoAttempt kind (history ++ [(elapsed, effect)]) := by
  intro event member
  rcases List.mem_append.mp member with old | new
  · exact silent event old
  · rw [List.mem_singleton.mp new]
    exact other

theorem NoAttempt.spaced {kind : TxEffect → Bool} {history : TxHistory}
    (silent : NoAttempt kind history) (gap elapsed : Nat) :
    Spaced kind gap elapsed history := by
  intro event member attempt
  simp [silent event member] at attempt

theorem attemptCount_timestamp {history : TxHistory} {elapsed : Nat}
    {frame : Frame} :
    attemptCount (history ++ [(elapsed, .timestamp frame)]) =
      attemptCount history + 1 := by
  simp [attemptCount, List.filter_append, TxEffect.isTimestamp]

theorem attemptCount_other {history : TxHistory} {elapsed : Nat}
    {effect : TxEffect} (other : effect.isTimestamp = false) :
    UInt32.ofNat (attemptCount (history ++ [(elapsed, effect)])) =
      UInt32.ofNat (attemptCount history) := by
  simp [attemptCount, List.filter_append, other]

def Labelled (index : Nat) (frame : Frame) : Prop :=
  cString (frame.bytes.drop descriptionOffset) =
    some (asciiBytes "Message #" ++ decimal (index % 2 ^ 32))

theorem labelled_loraSendTimestamp (residue : CArray 50) (clock : UInt64)
    (sent : Bool) {msgCounter : UInt32} {index : Nat}
    (counted : msgCounter = UInt32.ofNat index) :
    Labelled index (loraSendTimestamp residue (some (messageLabel msgCounter))
      clock sent).frame := by
  obtain ⟨rest, layout⟩ := loraSendTimestamp_frame residue
    (some (messageLabel msgCounter)) clock sent
  have front : (LoraMsgType.timestamp.code :: u64Bytes clock).length =
      descriptionOffset := by simp [descriptionOffset]
  have whole : (messageLabel msgCounter).text.take 49 =
      (messageLabel msgCounter).text :=
    List.take_of_length_le (by simp [messageLabel])
  have value : msgCounter.toNat = index % 2 ^ 32 := by
    rw [counted, UInt32.toNat_ofNat']
  simp only [Labelled]
  rw [layout, ← List.cons_append, ← front, List.drop_left,
    cString_append_nul (descriptionText_noNul _), ← value,
    ← messageLabel_text msgCounter]
  exact congrArg some whole

/-- The rule each attempt obeys, given the history before it. -/
def ObeysDiscipline (past : TxHistory) (event : Nat × TxEffect) : Prop :=
  match event.2 with
  | .timestamp frame =>
      Answered past ∧ Spaced TxEffect.isTimestamp 500 event.1 past ∧
        Labelled (attemptCount past) frame
  | .timeRequest _ => Spaced TxEffect.isRequest 15000 event.1 past
  | _ => True

/-- What the task knows at each place where it waits. -/
def PhaseKnows (start : UInt32) (history : TxHistory) (elapsed : Nat)
    (task : TxTask) : Prop :=
  let msgTimed :=
    StampedAfter start TxEffect.isTimestamp task.lastMsg elapsed history
  let syncTimed :=
    StampedAfter start TxEffect.isRequest task.lastSync elapsed history
  let synced := task.timeSynced = true → Answered history
  let counted := task.msgCounter = UInt32.ofNat (attemptCount history)
  match task.phase with
  | .boot =>
      NoAttempt TxEffect.isTimestamp history ∧
        NoAttempt TxEffect.isRequest history ∧ task.timeSynced = false ∧
        counted
  | .bootSync =>
      NoAttempt TxEffect.isTimestamp history ∧ task.timeSynced = false ∧
        counted
  | .bootMsg =>
      NoAttempt TxEffect.isTimestamp history ∧ syncTimed ∧ synced ∧ counted
  | .receive => msgTimed ∧ syncTimed ∧ synced ∧ counted
  | .adjust _ => msgTimed ∧ syncTimed ∧ Answered history ∧ counted
  | .message => msgTimed ∧ syncTimed ∧ synced ∧ counted
  | .sendTimestamp =>
      Spaced TxEffect.isTimestamp 500 elapsed history ∧ syncTimed ∧
        Answered history ∧ counted
  | .messageSent =>
      syncTimed ∧ Answered history ∧
        task.msgCounter + 1 = UInt32.ofNat (attemptCount history)
  | .resync => msgTimed ∧ syncTimed ∧ synced ∧ counted
  | .sendRequest =>
      msgTimed ∧ Spaced TxEffect.isRequest 15000 elapsed history ∧ counted
  | .requestSent => msgTimed ∧ counted

structure SlaveInvariant (start : UInt32) (history : TxHistory)
    (state : TickedTask) : Prop where
  bounded : ∀ event ∈ history, event.1 ≤ state.elapsed
  knows : PhaseKnows start history state.elapsed state.task
  disciplined : Justified ObeysDiscipline history

namespace SlaveInvariant

variable {start : UInt32} {history : TxHistory} {state : TickedTask}

theorem of_silent {action : TickedEnv} {next : TxTask}
    (invariant : SlaveInvariant start history state)
    (outcome : state.task.step
      { action.env with
        tick := tickCount start (state.elapsed + action.increment) } =
      (next, []))
    (knows : PhaseKnows start history (state.elapsed + action.increment) next) :
    SlaveInvariant start (history ++ (tickedStep start state action).2)
      (tickedStep start state action).1 := by
  simp only [tickedStep]
  simp only [outcome, List.map_nil, List.append_nil]
  refine ⟨?_, knows, invariant.disciplined⟩
  intro event member
  have before := invariant.bounded event member
  show event.1 ≤ state.elapsed + action.increment
  omega

theorem of_effect {action : TickedEnv} {next : TxTask} {effect : TxEffect}
    (invariant : SlaveInvariant start history state)
    (outcome : state.task.step
      { action.env with
        tick := tickCount start (state.elapsed + action.increment) } =
      (next, [effect]))
    (obeys : ObeysDiscipline history
      (state.elapsed + action.increment, effect))
    (knows : PhaseKnows start
      (history ++ [(state.elapsed + action.increment, effect)])
      (state.elapsed + action.increment) next) :
    SlaveInvariant start (history ++ (tickedStep start state action).2)
      (tickedStep start state action).1 := by
  simp only [tickedStep]
  simp only [outcome, List.map_cons, List.map_nil]
  refine ⟨?_, knows, invariant.disciplined.concat obeys⟩
  intro event member
  show event.1 ≤ state.elapsed + action.increment
  rcases List.mem_append.mp member with old | new
  · have before := invariant.bounded event old
    omega
  · rw [List.mem_singleton.mp new]

theorem bounded_later (invariant : SlaveInvariant start history state)
    (increment : Nat) :
    ∀ event ∈ history, event.1 ≤ state.elapsed + increment := by
  intro event member
  have before := invariant.bounded event member
  omega

theorem step_boot (invariant : SlaveInvariant start history state)
    (phase : state.task.phase = .boot) (action : TickedEnv) :
    SlaveInvariant start (history ++ (tickedStep start state action).2)
      (tickedStep start state action).1 := by
  have knows := invariant.knows
  simp only [PhaseKnows, phase] at knows
  obtain ⟨noTimestamp, noRequest, unsynced, counted⟩ := knows
  refine invariant.of_effect (TxTask.step_boot phase)
    (noRequest.spaced _ _) ?_
  exact ⟨noTimestamp.append rfl, unsynced,
    counted.trans (attemptCount_other rfl).symm⟩

theorem step_bootSync (invariant : SlaveInvariant start history state)
    (phase : state.task.phase = .bootSync) (action : TickedEnv) :
    SlaveInvariant start (history ++ (tickedStep start state action).2)
      (tickedStep start state action).1 := by
  have knows := invariant.knows
  simp only [PhaseKnows, phase] at knows
  obtain ⟨noTimestamp, unsynced, counted⟩ := knows
  refine invariant.of_silent (TxTask.step_bootSync phase) ?_
  refine ⟨noTimestamp, .now (invariant.bounded_later _), ?_, counted⟩
  intro synced
  simp [unsynced] at synced

theorem step_bootMsg (invariant : SlaveInvariant start history state)
    (phase : state.task.phase = .bootMsg) (action : TickedEnv) :
    SlaveInvariant start (history ++ (tickedStep start state action).2)
      (tickedStep start state action).1 := by
  have knows := invariant.knows
  simp only [PhaseKnows, phase] at knows
  obtain ⟨_, syncTimed, synced, counted⟩ := knows
  refine invariant.of_silent (TxTask.step_bootMsg phase) ?_
  exact ⟨.now (invariant.bounded_later _),
    syncTimed.mono (Nat.le_add_right _ _), synced, counted⟩

/-- A response of the right kind and size answers the last request at once. -/
theorem answered_response {frame : Frame} {t4 : UInt64} {elapsed : Nat}
    (kind : frame.Is .timeResponse sizeofLoraTimeSyncMsg) :
    Answered (history ++ [(elapsed, .timeResponse frame t4)]) :=
  ⟨history, elapsed, frame, t4, [], rfl, kind, by simp⟩

theorem step_receive (invariant : SlaveInvariant start history state)
    (phase : state.task.phase = .receive) (action : TickedEnv) :
    SlaveInvariant start (history ++ (tickedStep start state action).2)
      (tickedStep start state action).1 := by
  have knows := invariant.knows
  simp only [PhaseKnows, phase] at knows
  obtain ⟨msgTimed, syncTimed, synced, counted⟩ := knows
  have msgLater := msgTimed.mono (Nat.le_add_right _ action.increment)
  have syncLater := syncTimed.mono (Nat.le_add_right _ action.increment)
  by_cases kind : action.env.received.Is .timeResponse sizeofLoraTimeSyncMsg
  · have kindEq := kind.2
    have frame :=
      (LoraTimeSyncMsg.toBytes_ofBytes kind.1).symm
    have countedLater : state.task.msgCounter =
        UInt32.ofNat (attemptCount (history ++
          [(state.elapsed + action.increment,
            .timeResponse action.env.received action.env.clock)])) :=
      counted.trans (attemptCount_other rfl).symm
    cases adjusts : needsAdjustment (timeOffset
        (LoraTimeSyncMsg.ofBytes action.env.received.bytes) action.env.clock) with
    | true =>
        refine invariant.of_effect
          (TxTask.step_receive_adjusts phase kindEq frame adjusts) trivial ?_
        exact ⟨msgLater.append rfl, syncLater.append rfl,
          answered_response kind, countedLater⟩
    | false =>
        refine invariant.of_effect
          (TxTask.step_receive_accepts phase kindEq frame adjusts) trivial ?_
        exact ⟨msgLater.append rfl, syncLater.append rfl,
          fun _ => answered_response kind, countedLater⟩
  · refine invariant.of_silent (TxTask.step_receive_other phase kind) ?_
    exact ⟨msgLater, syncLater, synced, counted⟩

theorem step_adjust {offset : Int}
    (invariant : SlaveInvariant start history state)
    (phase : state.task.phase = .adjust offset) (action : TickedEnv) :
    SlaveInvariant start (history ++ (tickedStep start state action).2)
      (tickedStep start state action).1 := by
  have knows := invariant.knows
  simp only [PhaseKnows, phase] at knows
  obtain ⟨msgTimed, syncTimed, answered, counted⟩ := knows
  refine invariant.of_effect (TxTask.step_adjust phase) trivial ?_
  exact ⟨(msgTimed.mono (Nat.le_add_right _ _)).append rfl,
    (syncTimed.mono (Nat.le_add_right _ _)).append rfl,
    fun _ => answered.append rfl,
    counted.trans (attemptCount_other rfl).symm⟩

theorem step_message (invariant : SlaveInvariant start history state)
    (phase : state.task.phase = .message) (action : TickedEnv) :
    SlaveInvariant start (history ++ (tickedStep start state action).2)
      (tickedStep start state action).1 := by
  have knows := invariant.knows
  simp only [PhaseKnows, phase] at knows
  obtain ⟨msgTimed, syncTimed, synced, counted⟩ := knows
  have msgLater := msgTimed.mono (Nat.le_add_right _ action.increment)
  have syncLater := syncTimed.mono (Nat.le_add_right _ action.increment)
  by_cases due : state.task.timeSynced = true ∧
      tickCount start (state.elapsed + action.increment) - state.task.lastMsg >
        pdMsToTicks 5000
  · refine invariant.of_silent (TxTask.step_message_due phase due.1 due.2) ?_
    exact ⟨msgLater.spaced due.2, syncLater, synced due.1, counted⟩
  · refine invariant.of_silent (TxTask.step_message_waits phase due) ?_
    exact ⟨msgLater, syncLater, synced, counted⟩

theorem step_sendTimestamp (invariant : SlaveInvariant start history state)
    (phase : state.task.phase = .sendTimestamp) (action : TickedEnv) :
    SlaveInvariant start (history ++ (tickedStep start state action).2)
      (tickedStep start state action).1 := by
  have knows := invariant.knows
  simp only [PhaseKnows, phase] at knows
  obtain ⟨spaced, syncTimed, answered, counted⟩ := knows
  refine invariant.of_effect (TxTask.step_sendTimestamp phase) ?_ ?_
  · exact ⟨answered, spaced.mono (Nat.le_add_right _ _),
      labelled_loraSendTimestamp _ _ _ counted⟩
  · refine ⟨(syncTimed.mono (Nat.le_add_right _ _)).append rfl,
      answered.append rfl, ?_⟩
    rw [attemptCount_timestamp, counted]
    exact (UInt32.ofNat_add _ 1).symm

theorem step_messageSent (invariant : SlaveInvariant start history state)
    (phase : state.task.phase = .messageSent) (action : TickedEnv) :
    SlaveInvariant start (history ++ (tickedStep start state action).2)
      (tickedStep start state action).1 := by
  have knows := invariant.knows
  simp only [PhaseKnows, phase] at knows
  obtain ⟨syncTimed, answered, counted⟩ := knows
  refine invariant.of_silent (TxTask.step_messageSent phase) ?_
  exact ⟨.now (invariant.bounded_later _),
    syncTimed.mono (Nat.le_add_right _ _), fun _ => answered, counted⟩

theorem step_resync (invariant : SlaveInvariant start history state)
    (phase : state.task.phase = .resync) (action : TickedEnv) :
    SlaveInvariant start (history ++ (tickedStep start state action).2)
      (tickedStep start state action).1 := by
  have knows := invariant.knows
  simp only [PhaseKnows, phase] at knows
  obtain ⟨msgTimed, syncTimed, synced, counted⟩ := knows
  have msgLater := msgTimed.mono (Nat.le_add_right _ action.increment)
  have syncLater := syncTimed.mono (Nat.le_add_right _ action.increment)
  by_cases due : tickCount start (state.elapsed + action.increment) -
      state.task.lastSync > pdMsToTicks 150000
  · refine invariant.of_silent (TxTask.step_resync_due phase due) ?_
    exact ⟨msgLater, syncLater.spaced due, counted⟩
  · refine invariant.of_silent (TxTask.step_resync_waits phase due) ?_
    exact ⟨msgLater, syncLater, synced, counted⟩

theorem step_sendRequest (invariant : SlaveInvariant start history state)
    (phase : state.task.phase = .sendRequest) (action : TickedEnv) :
    SlaveInvariant start (history ++ (tickedStep start state action).2)
      (tickedStep start state action).1 := by
  have knows := invariant.knows
  simp only [PhaseKnows, phase] at knows
  obtain ⟨msgTimed, spaced, counted⟩ := knows
  refine invariant.of_effect (TxTask.step_sendRequest phase)
    (spaced.mono (Nat.le_add_right _ _)) ?_
  exact ⟨(msgTimed.mono (Nat.le_add_right _ _)).append rfl,
    counted.trans (attemptCount_other rfl).symm⟩

theorem step_requestSent (invariant : SlaveInvariant start history state)
    (phase : state.task.phase = .requestSent) (action : TickedEnv) :
    SlaveInvariant start (history ++ (tickedStep start state action).2)
      (tickedStep start state action).1 := by
  have knows := invariant.knows
  simp only [PhaseKnows, phase] at knows
  obtain ⟨msgTimed, counted⟩ := knows
  refine invariant.of_silent (TxTask.step_requestSent phase) ?_
  refine ⟨msgTimed.mono (Nat.le_add_right _ _),
    .now (invariant.bounded_later _), ?_, counted⟩
  intro synced
  simp at synced

theorem step (invariant : SlaveInvariant start history state)
    (action : TickedEnv) :
    SlaveInvariant start (history ++ (tickedStep start state action).2)
      (tickedStep start state action).1 := by
  cases phase : state.task.phase with
  | boot => exact invariant.step_boot phase action
  | bootSync => exact invariant.step_bootSync phase action
  | bootMsg => exact invariant.step_bootMsg phase action
  | receive => exact invariant.step_receive phase action
  | adjust offset => exact invariant.step_adjust phase action
  | message => exact invariant.step_message phase action
  | sendTimestamp => exact invariant.step_sendTimestamp phase action
  | messageSent => exact invariant.step_messageSent phase action
  | resync => exact invariant.step_resync phase action
  | sendRequest => exact invariant.step_sendRequest phase action
  | requestSent => exact invariant.step_requestSent phase action

theorem initial {task : TxTask} (fresh : task.Fresh) :
    SlaveInvariant start [] { task := task, elapsed := 0 } := by
  obtain ⟨phase, unsynced, counter⟩ := fresh
  refine ⟨by simp, ?_, .nil⟩
  simp only [PhaseKnows, phase]
  exact ⟨by simp [NoAttempt], by simp [NoAttempt], unsynced, counter⟩

theorem of_reaches {task : TxTask} (fresh : task.Fresh)
    (reached : (slaveLoop start).Reaches { task := task, elapsed := 0 }
      history state) :
    SlaveInvariant start history state := by
  refine reached.invariant (initial fresh) ?_
  intro history state action next events invariant taken
  have outcome := Option.some.inj taken
  have preserved := invariant.step action
  rwa [outcome] at preserved

end SlaveInvariant

/-- What an observer of the attempts sees; `past` is everything before one. -/
structure TransmissionDiscipline (history : TxHistory) : Prop where
  /-- No data message while a request is unanswered. -/
  answered : ∀ past moment frame future,
    history = past ++ (moment, .timestamp frame) :: future → Answered past
  messageGap : ∀ past early first between late second future,
    history = past ++ (early, .timestamp first) ::
      (between ++ (late, .timestamp second) :: future) →
    early + (pdMsToTicks 5000).toNat < late
  requestGap : ∀ past early first between late second future,
    history = past ++ (early, .timeRequest first) ::
      (between ++ (late, .timeRequest second) :: future) →
    early + (pdMsToTicks 150000).toNat < late
  /-- The number of earlier attempts is the label. -/
  labels : ∀ past moment frame future,
    history = past ++ (moment, .timestamp frame) :: future →
    Labelled (attemptCount past) frame

/-- Any received frames, clock readings, outcomes of `LoRaSend`, leftovers in
the buffers and tick increments, from any start of the tick counter. -/
theorem lora_tx_task_discipline {start : UInt32} {task : TxTask}
    (fresh : task.Fresh) {history : TxHistory} {state : TickedTask}
    (reached : (slaveLoop start).Reaches { task := task, elapsed := 0 }
      history state) :
    TransmissionDiscipline history := by
  have disciplined := (SlaveInvariant.of_reaches fresh reached).disciplined
  refine ⟨?_, ?_, ?_, ?_⟩
  · intro past moment frame future split
    exact (disciplined past _ future split).1
  · intro past early first between late second future split
    have rule := disciplined (past ++ (early, .timestamp first) :: between)
      (late, .timestamp second) future (by simp [split])
    exact rule.2.1 (early, .timestamp first) (by simp) rfl
  · intro past early first between late second future split
    have rule := disciplined (past ++ (early, .timeRequest first) :: between)
      (late, .timeRequest second) future (by simp [split])
    exact rule (early, .timeRequest first) (by simp) rfl
  · intro past moment frame future split
    exact (disciplined past _ future split).2.2

/-- A boot, an answer, and a message after the tick counter has wrapped. -/
def sampleTickedRun : List TickedEnv :=
  let env : TaskEnv :=
    { received := silence, clock := 0, tick := 0, sent := true
      residue := List.Vector.replicate 50 0 }
  let response : LoraTimeSyncMsg :=
    ⟨LoraMsgType.timeResponse.code, 0, 0, 0, 0⟩
  [⟨env, 0⟩, ⟨env, 0⟩, ⟨env, 0⟩,
    ⟨{ env with received := response.toFrame }, 10⟩,
    ⟨env, 491⟩, ⟨{ env with sent := false }, 20⟩, ⟨env, 0⟩, ⟨env, 0⟩]

def sampleTxTask : TxTask :=
  { phase := .boot, buf := List.Vector.replicate 256 0, timeSynced := false
    msgCounter := 0, lastSync := 0, lastMsg := 0 }

theorem lora_tx_task_discipline_sample :
    let history :=
      (slaveLoop 0xFFFFFF00).history ⟨sampleTxTask, 0⟩ sampleTickedRun
    attemptCount history = 1 ∧ TransmissionDiscipline history := by
  obtain ⟨state, reached⟩ := Machine.exists_reaches
    (show ((slaveLoop 0xFFFFFF00).run
    ⟨sampleTxTask, 0⟩ sampleTickedRun).isSome = true by decide)
  exact ⟨by decide, lora_tx_task_discipline ⟨rfl, rfl, rfl⟩ reached⟩

end Lora32Mqtt
