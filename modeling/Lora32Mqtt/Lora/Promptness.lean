import Lora32Mqtt.Lora.Discipline

/-!
# How long the slave is silent

The discipline of the slave says how far its attempts are apart at least.  If the
task runs at least every `pace` ticks, it also says how far at most, although the
two timers of the task wrap.  A timer is known by what it reads, and by an attempt
that was made as many ticks ago.
-/

namespace Lora32Mqtt

/-- The slave's task with at most `pace` ticks from step to step. -/
def pacedLoop (start : UInt32) (pace : Nat) :
    Machine TickedTask TickedEnv (Nat × TxEffect) :=
  (slaveLoop start).restrict fun action => action.increment ≤ pace

def timerReading (start stamp : UInt32) (elapsed : Nat) : Nat :=
  (tickCount start elapsed - stamp).toNat

theorem timerReading_now (start : UInt32) (elapsed : Nat) :
    timerReading start (tickCount start elapsed) elapsed = 0 := by
  simp [timerReading]

theorem timerReading_add {start stamp : UInt32} {elapsed increment : Nat}
    (small : timerReading start stamp elapsed + increment < 2 ^ 32) :
    timerReading start stamp (elapsed + increment) =
      timerReading start stamp elapsed + increment := by
  simp only [timerReading, tickCount, UInt32.toNat_sub, UInt32.toNat_add,
    UInt32.toNat_ofNat'] at small ⊢
  omega

/-- An attempt of a kind was made at most `lag` ticks ago. -/
def Recent (kind : TxEffect → Bool) (lag elapsed : Nat) (history : TxHistory) : Prop :=
  ∃ event ∈ history, kind event.2 = true ∧ elapsed ≤ event.1 + lag

/-- A timer reads at most `limit`, and an attempt of a kind was made at most `lag`
ticks before it was started. -/
structure TimedBy (start : UInt32) (kind : TxEffect → Bool) (lag limit : Nat)
    (stamp : UInt32) (elapsed : Nat) (history : TxHistory) : Prop where
  reading : timerReading start stamp elapsed ≤ limit
  attempt : Recent kind (lag + timerReading start stamp elapsed) elapsed history

section Timers

variable {start stamp : UInt32} {kind : TxEffect → Bool} {history : TxHistory}
  {lag limit elapsed increment pace : Nat}

theorem Recent.weaken {wider : Nat} (recent : Recent kind lag elapsed history)
    (wide : lag ≤ wider) : Recent kind wider elapsed history := by
  obtain ⟨event, member, attempt, bound⟩ := recent
  exact ⟨event, member, attempt, by omega⟩

theorem Recent.later (recent : Recent kind lag elapsed history)
    (paced : increment ≤ pace) :
    Recent kind (lag + pace) (elapsed + increment) history := by
  obtain ⟨event, member, attempt, bound⟩ := recent
  exact ⟨event, member, attempt, by omega⟩

theorem Recent.append (recent : Recent kind lag elapsed history)
    (events : TxHistory) : Recent kind lag elapsed (history ++ events) := by
  obtain ⟨event, member, rest⟩ := recent
  exact ⟨event, List.mem_append_left _ member, rest⟩

theorem Recent.now {effect : TxEffect} (attempt : kind effect = true) :
    Recent kind 0 elapsed (history ++ [(elapsed, effect)]) :=
  ⟨_, List.mem_append_right _ List.mem_cons_self, attempt, le_rfl⟩

namespace TimedBy

theorem weaken {wider : Nat} (timed : TimedBy start kind lag limit stamp elapsed history)
    (wide : limit ≤ wider) : TimedBy start kind lag wider stamp elapsed history :=
  ⟨timed.reading.trans wide, timed.attempt⟩

theorem append (timed : TimedBy start kind lag limit stamp elapsed history)
    (events : TxHistory) :
    TimedBy start kind lag limit stamp elapsed (history ++ events) :=
  ⟨timed.reading, timed.attempt.append events⟩

theorem later (timed : TimedBy start kind lag limit stamp elapsed history)
    (paced : increment ≤ pace) (small : limit + pace < 2 ^ 32) :
    TimedBy start kind lag (limit + pace) stamp (elapsed + increment) history := by
  have reading := timed.reading
  have added : timerReading start stamp (elapsed + increment) =
      timerReading start stamp elapsed + increment := timerReading_add (by omega)
  refine ⟨by omega, ?_⟩
  obtain ⟨event, member, attempt, bound⟩ := timed.attempt
  exact ⟨event, member, attempt, by omega⟩

theorem recent (timed : TimedBy start kind lag limit stamp elapsed history) :
    Recent kind (lag + limit) elapsed history :=
  timed.attempt.weaken (Nat.add_le_add_left timed.reading lag)

theorem now (recent : Recent kind lag elapsed history) :
    TimedBy start kind lag limit (tickCount start elapsed) elapsed history :=
  ⟨by rw [timerReading_now]; exact Nat.zero_le _, recent.weaken (Nat.le_add_right _ _)⟩

theorem waits {bound : UInt32}
    (recent : Recent kind (lag + timerReading start stamp elapsed) elapsed history)
    (waits : ¬ tickCount start elapsed - stamp > bound) :
    TimedBy start kind lag bound.toNat stamp elapsed history :=
  ⟨UInt32.le_iff_toNat_le.mp (UInt32.not_lt.mp waits), recent⟩

end TimedBy

end Timers

def TxEffect.isResponse : TxEffect → Bool
  | .timeResponse _ _ => true
  | _ => false

/-- A message, or a response that allows messages. -/
def TxEffect.keepsUp (effect : TxEffect) : Bool :=
  effect.isTimestamp || effect.isResponse

theorem not_answered_nil : ¬ Answered [] := by
  rintro ⟨early, moment, frame, t4, recent, split, _⟩
  exact absurd split (by simp)

theorem Answered.of_concat {history : TxHistory} {event : Nat × TxEffect}
    (other : event.2.isResponse = false) (answered : Answered (history ++ [event])) :
    Answered history ∧ event.2.isRequest = false := by
  obtain ⟨early, moment, frame, t4, recent, split, kind, quiet⟩ := answered
  rcases List.eq_nil_or_concat recent with rfl | ⟨before, last, rfl⟩
  · obtain rfl := List.singleton_inj.mp (List.append_inj_right' split rfl)
    cases other
  · have whole : history ++ [event] =
        (early ++ (moment, .timeResponse frame t4) :: before) ++ [last] := by
      simpa using split
    obtain ⟨rfl, same⟩ := List.append_inj' whole rfl
    obtain rfl := List.singleton_inj.mp same
    refine ⟨⟨early, moment, frame, t4, before, rfl, kind, ?_⟩, ?_⟩
    · intro other member
      exact quiet other (by simp [member])
    · exact quiet _ (by simp)

theorem not_answered_request {history : TxHistory} {elapsed : Nat} {frame : Frame} :
    ¬ Answered (history ++ [(elapsed, .timeRequest frame)]) := by
  intro answered
  cases (answered.of_concat rfl).2

/-- What the task knows at each place where it waits: how many steps ago a timer
was read at most. -/
def PromptlyKnows (start : UInt32) (pace : Nat) (history : TxHistory) (elapsed : Nat)
    (task : TxTask) : Prop :=
  let asks (steps : Nat) := TimedBy start TxEffect.isRequest pace
    (15000 + steps * pace) task.lastSync elapsed history
  let sends (steps : Nat) := TimedBy start TxEffect.keepsUp (2 * pace)
    (500 + steps * pace) task.lastMsg elapsed history
  let keptUp (lag : Nat) := Recent TxEffect.keepsUp lag elapsed history
  let synced := Answered history → task.timeSynced = true
  match task.phase with
  | .boot => history = [] ∧ task.timeSynced = false
  | .bootSync =>
      Recent TxEffect.isRequest 0 elapsed history ∧ ¬ Answered history ∧
        task.timeSynced = false
  | .bootMsg =>
      TimedBy start TxEffect.isRequest pace 0 task.lastSync elapsed history ∧
        ¬ Answered history ∧ task.timeSynced = false
  | .receive => asks 0 ∧ synced ∧ (task.timeSynced = true → sends 1)
  | .adjust _ => asks 1 ∧ keptUp 0
  | .message => asks 2 ∧ synced ∧ (task.timeSynced = true → keptUp pace ∨ sends 3)
  | .sendTimestamp => asks 3 ∧ task.timeSynced = true ∧ keptUp (500 + 6 * pace)
  | .messageSent => asks 4 ∧ task.timeSynced = true ∧ keptUp 0
  | .resync => asks 5 ∧ synced ∧ (task.timeSynced = true → sends 0)
  | .sendRequest => asks 6 ∧ synced ∧ (task.timeSynced = true → sends 1)
  | .requestSent => Recent TxEffect.isRequest 0 elapsed history ∧ ¬ Answered history

/-- The last request is not too long ago, nor is the last message while it is
answered. -/
def NotSilent (past : TxHistory) (elapsed asks sends : Nat) : Prop :=
  (past ≠ [] → Recent TxEffect.isRequest asks elapsed past) ∧
    (Answered past → Recent TxEffect.keepsUp sends elapsed past)

theorem NotSilent.later {past : TxHistory} {elapsed increment pace asks sends : Nat}
    (audible : NotSilent past elapsed asks sends) (paced : increment ≤ pace) :
    NotSilent past (elapsed + increment) (asks + pace) (sends + pace) :=
  ⟨fun begun => (audible.1 begun).later paced,
    fun answered => (audible.2 answered).later paced⟩

theorem PromptlyKnows.notSilent {start : UInt32} {pace elapsed : Nat}
    {history : TxHistory} {task : TxTask}
    (knows : PromptlyKnows start pace history elapsed task) :
    NotSilent history elapsed (15000 + 7 * pace) (500 + 6 * pace) := by
  cases phase : task.phase with
  | boot =>
      simp only [PromptlyKnows, phase] at knows
      obtain ⟨rfl, _⟩ := knows
      exact ⟨fun begun => absurd rfl begun,
        fun answered => absurd answered not_answered_nil⟩
  | bootSync =>
      simp only [PromptlyKnows, phase] at knows
      exact ⟨fun _ => knows.1.weaken (by omega), fun answered => absurd answered knows.2.1⟩
  | bootMsg =>
      simp only [PromptlyKnows, phase] at knows
      exact ⟨fun _ => knows.1.recent.weaken (by omega),
        fun answered => absurd answered knows.2.1⟩
  | receive =>
      simp only [PromptlyKnows, phase] at knows
      obtain ⟨asks, synced, sends⟩ := knows
      exact ⟨fun _ => asks.recent.weaken (by omega),
        fun answered => (sends (synced answered)).recent.weaken (by omega)⟩
  | adjust offset =>
      simp only [PromptlyKnows, phase] at knows
      exact ⟨fun _ => knows.1.recent.weaken (by omega), fun _ => knows.2.weaken (by omega)⟩
  | message =>
      simp only [PromptlyKnows, phase] at knows
      obtain ⟨asks, synced, sends⟩ := knows
      refine ⟨fun _ => asks.recent.weaken (by omega), fun answered => ?_⟩
      rcases sends (synced answered) with kept | sent
      · exact kept.weaken (by omega)
      · exact sent.recent.weaken (by omega)
  | sendTimestamp =>
      simp only [PromptlyKnows, phase] at knows
      exact ⟨fun _ => knows.1.recent.weaken (by omega), fun _ => knows.2.2⟩
  | messageSent =>
      simp only [PromptlyKnows, phase] at knows
      exact ⟨fun _ => knows.1.recent.weaken (by omega),
        fun _ => knows.2.2.weaken (by omega)⟩
  | resync | sendRequest =>
      simp only [PromptlyKnows, phase] at knows
      obtain ⟨asks, synced, sends⟩ := knows
      exact ⟨fun _ => asks.recent.weaken (by omega),
        fun answered => (sends (synced answered)).recent.weaken (by omega)⟩
  | requestSent =>
      simp only [PromptlyKnows, phase] at knows
      exact ⟨fun _ => knows.1.weaken (by omega), fun answered => absurd answered knows.2⟩

/-- The same when something happens, one step later. -/
def HappensPromptly (pace : Nat) (past : TxHistory) (event : Nat × TxEffect) : Prop :=
  NotSilent past event.1 (15000 + 8 * pace) (500 + 7 * pace)

structure Prompt (start : UInt32) (pace : Nat) (history : TxHistory)
    (state : TickedTask) : Prop where
  knows : PromptlyKnows start pace history state.elapsed state.task
  gaps : Justified (HappensPromptly pace) history

namespace Prompt

variable {start : UInt32} {pace : Nat} {history : TxHistory} {state : TickedTask}
  {action : TickedEnv}

theorem of_silent {next : TxTask} (prompt : Prompt start pace history state)
    (outcome : state.task.step
      { action.env with
        tick := tickCount start (state.elapsed + action.increment) } = (next, []))
    (knows : PromptlyKnows start pace history (state.elapsed + action.increment) next) :
    Prompt start pace (history ++ (tickedStep start state action).2)
      (tickedStep start state action).1 := by
  simp only [tickedStep, outcome, List.map_nil, List.append_nil]
  exact ⟨knows, prompt.gaps⟩

theorem of_effect {next : TxTask} {effect : TxEffect}
    (prompt : Prompt start pace history state) (paced : action.increment ≤ pace)
    (outcome : state.task.step
      { action.env with
        tick := tickCount start (state.elapsed + action.increment) } = (next, [effect]))
    (knows : PromptlyKnows start pace
      (history ++ [(state.elapsed + action.increment, effect)])
      (state.elapsed + action.increment) next) :
    Prompt start pace (history ++ (tickedStep start state action).2)
      (tickedStep start state action).1 := by
  simp only [tickedStep, outcome, List.map_cons, List.map_nil]
  refine ⟨knows, prompt.gaps.concat ?_⟩
  have audible := prompt.knows.notSilent.later paced
  rwa [show 15000 + 7 * pace + pace = 15000 + 8 * pace by omega,
    show 500 + 6 * pace + pace = 500 + 7 * pace by omega] at audible

theorem step_boot (prompt : Prompt start pace history state)
    (phase : state.task.phase = .boot) (paced : action.increment ≤ pace) :
    Prompt start pace (history ++ (tickedStep start state action).2)
      (tickedStep start state action).1 := by
  have knows := prompt.knows
  simp only [PromptlyKnows, phase] at knows
  exact prompt.of_effect paced (TxTask.step_boot phase)
    ⟨.now rfl, not_answered_request, knows.2⟩

theorem step_bootSync (prompt : Prompt start pace history state)
    (phase : state.task.phase = .bootSync) (paced : action.increment ≤ pace) :
    Prompt start pace (history ++ (tickedStep start state action).2)
      (tickedStep start state action).1 := by
  have knows := prompt.knows
  simp only [PromptlyKnows, phase] at knows
  obtain ⟨asked, unanswered, unsynced⟩ := knows
  refine prompt.of_silent (TxTask.step_bootSync phase) ⟨.now ?_, unanswered, unsynced⟩
  exact (asked.later paced).weaken (by omega)

theorem step_bootMsg (prompt : Prompt start pace history state)
    (phase : state.task.phase = .bootMsg) (paced : action.increment ≤ pace)
    (small : pace ≤ 15000) :
    Prompt start pace (history ++ (tickedStep start state action).2)
      (tickedStep start state action).1 := by
  have knows := prompt.knows
  simp only [PromptlyKnows, phase] at knows
  obtain ⟨asks, unanswered, unsynced⟩ := knows
  refine prompt.of_silent (TxTask.step_bootMsg phase) ⟨?_, ?_, ?_⟩
  · exact (asks.later paced (by omega)).weaken (by omega)
  · exact fun answered => absurd answered unanswered
  · exact fun synced => by simp [unsynced] at synced

theorem step_receive (prompt : Prompt start pace history state)
    (phase : state.task.phase = .receive) (paced : action.increment ≤ pace)
    (small : pace ≤ 15000) :
    Prompt start pace (history ++ (tickedStep start state action).2)
      (tickedStep start state action).1 := by
  have knows := prompt.knows
  simp only [PromptlyKnows, phase] at knows
  obtain ⟨asks, synced, sends⟩ := knows
  have asksLater := asks.later paced (by omega)
  by_cases kind : action.env.received.Is .timeResponse sizeofLoraTimeSyncMsg
  · have frame := (LoraTimeSyncMsg.toBytes_ofBytes kind.1).symm
    cases adjusts : needsAdjustment (timeOffset
        (LoraTimeSyncMsg.ofBytes action.env.received.bytes) action.env.clock) with
    | true =>
        refine prompt.of_effect paced
          (TxTask.step_receive_adjusts phase kind.2 frame adjusts) ⟨?_, ?_⟩
        · exact (asksLater.append _).weaken (by omega)
        · exact .now rfl
    | false =>
        refine prompt.of_effect paced
          (TxTask.step_receive_accepts phase kind.2 frame adjusts)
          ⟨?_, fun _ => rfl, fun _ => .inl ?_⟩
        · exact (asksLater.append _).weaken (by omega)
        · exact (Recent.now rfl).weaken (Nat.zero_le _)
  · refine prompt.of_silent (TxTask.step_receive_other phase kind) ⟨?_, synced, ?_⟩
    · exact asksLater.weaken (by omega)
    · intro ready
      exact .inr (((sends ready).later paced (by omega)).weaken (by omega))

theorem step_adjust {offset : Int} (prompt : Prompt start pace history state)
    (phase : state.task.phase = .adjust offset) (paced : action.increment ≤ pace)
    (small : pace ≤ 15000) :
    Prompt start pace (history ++ (tickedStep start state action).2)
      (tickedStep start state action).1 := by
  have knows := prompt.knows
  simp only [PromptlyKnows, phase] at knows
  obtain ⟨asks, answered⟩ := knows
  refine prompt.of_effect paced (TxTask.step_adjust phase)
    ⟨?_, fun _ => rfl, fun _ => .inl ?_⟩
  · exact ((asks.later paced (by omega)).append _).weaken (by omega)
  · exact ((answered.later paced).append _).weaken (by omega)

theorem step_message (prompt : Prompt start pace history state)
    (phase : state.task.phase = .message) (paced : action.increment ≤ pace)
    (small : pace ≤ 15000) :
    Prompt start pace (history ++ (tickedStep start state action).2)
      (tickedStep start state action).1 := by
  have knows := prompt.knows
  simp only [PromptlyKnows, phase] at knows
  obtain ⟨asks, synced, sends⟩ := knows
  have asksLater := asks.later paced (by omega)
  by_cases due : state.task.timeSynced = true ∧
      tickCount start (state.elapsed + action.increment) - state.task.lastMsg >
        pdMsToTicks 5000
  · refine prompt.of_silent (TxTask.step_message_due phase due.1 due.2) ⟨?_, due.1, ?_⟩
    · exact asksLater.weaken (by omega)
    · rcases sends due.1 with answered | sent
      · exact (answered.later paced).weaken (by omega)
      · exact (sent.later paced (by omega)).recent.weaken (by omega)
  · refine prompt.of_silent (TxTask.step_message_waits phase due) ⟨?_, synced, ?_⟩
    · exact asksLater.weaken (by omega)
    · intro ready
      have waits := fun passed => due ⟨ready, passed⟩
      refine (TimedBy.waits ?_ waits).weaken ?_
      · rcases sends ready with answered | sent
        · exact (answered.later paced).weaken (by omega)
        · exact (sent.later paced (by omega)).attempt
      · exact Nat.le_add_right 500 _

theorem step_sendTimestamp (prompt : Prompt start pace history state)
    (phase : state.task.phase = .sendTimestamp) (paced : action.increment ≤ pace)
    (small : pace ≤ 15000) :
    Prompt start pace (history ++ (tickedStep start state action).2)
      (tickedStep start state action).1 := by
  have knows := prompt.knows
  simp only [PromptlyKnows, phase] at knows
  obtain ⟨asks, ready, _⟩ := knows
  refine prompt.of_effect paced (TxTask.step_sendTimestamp phase) ⟨?_, ready, .now rfl⟩
  exact ((asks.later paced (by omega)).append _).weaken (by omega)

theorem step_messageSent (prompt : Prompt start pace history state)
    (phase : state.task.phase = .messageSent) (paced : action.increment ≤ pace)
    (small : pace ≤ 15000) :
    Prompt start pace (history ++ (tickedStep start state action).2)
      (tickedStep start state action).1 := by
  have knows := prompt.knows
  simp only [PromptlyKnows, phase] at knows
  obtain ⟨asks, ready, sent⟩ := knows
  refine prompt.of_silent (TxTask.step_messageSent phase)
    ⟨?_, fun _ => ready, fun _ => .now ?_⟩
  · exact (asks.later paced (by omega)).weaken (by omega)
  · exact (sent.later paced).weaken (by omega)

theorem step_resync (prompt : Prompt start pace history state)
    (phase : state.task.phase = .resync) (paced : action.increment ≤ pace)
    (small : pace ≤ 15000) :
    Prompt start pace (history ++ (tickedStep start state action).2)
      (tickedStep start state action).1 := by
  have knows := prompt.knows
  simp only [PromptlyKnows, phase] at knows
  obtain ⟨asks, synced, sends⟩ := knows
  have asksLater := asks.later paced (by omega)
  have sendsLater (ready : state.task.timeSynced = true) :
      TimedBy start TxEffect.keepsUp (2 * pace) (500 + 1 * pace) state.task.lastMsg
        (state.elapsed + action.increment) history :=
    ((sends ready).later paced (by omega)).weaken (by omega)
  by_cases due : tickCount start (state.elapsed + action.increment) -
      state.task.lastSync > pdMsToTicks 150000
  · refine prompt.of_silent (TxTask.step_resync_due phase due) ⟨?_, synced, sendsLater⟩
    exact asksLater.weaken (by omega)
  · refine prompt.of_silent (TxTask.step_resync_waits phase due) ⟨?_, synced, sendsLater⟩
    exact (TimedBy.waits asksLater.attempt due).weaken (Nat.le_add_right 15000 _)

theorem step_sendRequest (prompt : Prompt start pace history state)
    (phase : state.task.phase = .sendRequest) (paced : action.increment ≤ pace) :
    Prompt start pace (history ++ (tickedStep start state action).2)
      (tickedStep start state action).1 :=
  prompt.of_effect paced (TxTask.step_sendRequest phase) ⟨.now rfl, not_answered_request⟩

theorem step_requestSent (prompt : Prompt start pace history state)
    (phase : state.task.phase = .requestSent) (paced : action.increment ≤ pace) :
    Prompt start pace (history ++ (tickedStep start state action).2)
      (tickedStep start state action).1 := by
  have knows := prompt.knows
  simp only [PromptlyKnows, phase] at knows
  obtain ⟨asked, unanswered⟩ := knows
  refine prompt.of_silent (TxTask.step_requestSent phase) ⟨.now ?_, ?_, ?_⟩
  · exact (asked.later paced).weaken (by omega)
  · exact fun answered => absurd answered unanswered
  · exact fun synced => by simp at synced

theorem step (prompt : Prompt start pace history state) (paced : action.increment ≤ pace)
    (small : pace ≤ 15000) :
    Prompt start pace (history ++ (tickedStep start state action).2)
      (tickedStep start state action).1 := by
  cases phase : state.task.phase with
  | boot => exact prompt.step_boot phase paced
  | bootSync => exact prompt.step_bootSync phase paced
  | bootMsg => exact prompt.step_bootMsg phase paced small
  | receive => exact prompt.step_receive phase paced small
  | adjust offset => exact prompt.step_adjust phase paced small
  | message => exact prompt.step_message phase paced small
  | sendTimestamp => exact prompt.step_sendTimestamp phase paced small
  | messageSent => exact prompt.step_messageSent phase paced small
  | resync => exact prompt.step_resync phase paced small
  | sendRequest => exact prompt.step_sendRequest phase paced
  | requestSent => exact prompt.step_requestSent phase paced

theorem of_reaches {task : TxTask} (fresh : task.Fresh) (small : pace ≤ 15000)
    (reached : (pacedLoop start pace).Reaches { task := task, elapsed := 0 }
      history state) :
    Prompt start pace history state := by
  induction reached with
  | refl =>
      obtain ⟨phase, unsynced, _⟩ := fresh
      refine ⟨?_, .nil⟩
      simp only [PromptlyKnows, phase]
      exact ⟨trivial, unsynced⟩
  | step _ taken prompt =>
      obtain ⟨paced, outcome⟩ := Machine.restrict_step.mp taken
      have preserved := prompt.step paced small
      rwa [Option.some.inj outcome] at preserved

end Prompt

/-- With at most `pace` ticks between two steps the slave asks for the time every
`15000 + 8 * pace` ticks at least, and as long as its last request is answered it
processes a response or sends a message every `500 + 7 * pace` ticks: at every
event of a run, and at its end. -/
theorem lora_tx_task_prompt {start : UInt32} {pace : Nat} {task : TxTask}
    (fresh : task.Fresh) (small : pace ≤ 15000) {history : TxHistory}
    {state : TickedTask}
    (reached : (pacedLoop start pace).Reaches { task := task, elapsed := 0 }
      history state) :
    Justified (HappensPromptly pace) history ∧
      NotSilent history state.elapsed (15000 + 7 * pace) (500 + 6 * pace) :=
  let prompt := Prompt.of_reaches fresh small reached
  ⟨prompt.gaps, prompt.knows.notSilent⟩

theorem lora_tx_task_prompt_sample :
    ∃ state, (pacedLoop 0xFFFFFF00 500).Reaches ⟨sampleTxTask, 0⟩
        ((pacedLoop 0xFFFFFF00 500).history ⟨sampleTxTask, 0⟩ sampleTickedRun) state ∧
      NotSilent ((pacedLoop 0xFFFFFF00 500).history ⟨sampleTxTask, 0⟩ sampleTickedRun)
        state.elapsed 18500 3500 := by
  obtain ⟨state, reached⟩ := Machine.exists_reaches
    (show ((pacedLoop 0xFFFFFF00 500).run ⟨sampleTxTask, 0⟩
      sampleTickedRun).isSome = true by decide)
  exact ⟨state, reached, (lora_tx_task_prompt ⟨rfl, rfl, rfl⟩ (by decide) reached).2⟩

end Lora32Mqtt
