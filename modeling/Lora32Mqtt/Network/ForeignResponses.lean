import Lora32Mqtt.Network.Steps

/-!
# Which response sets a clock

A slave checks kind and size of a response, and nothing that ties it to a
request of its own.  So every response that reaches it corrects its clock, and
what the correction leaves depends on how far apart the clocks of the two slaves
were.
-/

namespace Lora32Mqtt

variable {ι : Type} [DecidableEq ι]

def NetEvent.requester : NetEvent ι → Option ι
  | .exchange _ requester _ => some requester
  | _ => none

def NetEvent.completed : NetEvent ι → Option Exchange
  | .exchange _ _ answered => some answered
  | _ => none

/-- A slave processes a response or sets its clock. -/
def NetEvent.isCorrection (slave : ι) : NetEvent ι → Bool
  | .exchange other _ _ => other = slave
  | .clockSet other _ _ => other = slave
  | _ => false

/-- A slave processes a response or sends a request. -/
def NetEvent.isSync (slave : ι) : NetEvent ι → Bool
  | .exchange other _ _ => other = slave
  | .effect other _ (.timeRequest _) => other = slave
  | _ => false

def NetEvent.setsClock (slave : ι) : NetEvent ι → Bool
  | .clockSet other _ _ => other = slave
  | _ => false

/-- Slave clock minus true time after a history: what it was last set to. -/
def Network.offsetSince (start : Network ι) (history : List (NetEvent ι))
    (slave : ι) : Int :=
  match latest (NetEvent.setsClock slave) history with
  | some (.clockSet _ _ after) => after
  | _ => (start.slaves slave).offset

theorem Network.offsetSince_append {start : Network ι}
    {history events : List (NetEvent ι)} {slave : ι}
    (others : ∀ event ∈ events, event.setsClock slave = false) :
    start.offsetSince (history ++ events) slave =
      start.offsetSince history slave := by
  rw [offsetSince, latest_append_of_none others, offsetSince]

structure Corrected (slave : ι) (masterOffset : Int)
    (history : List (NetEvent ι)) (task : TxTask) (offset : Int) : Prop where
  /-- The pending offset is the estimate of the latest exchange. -/
  pending : ∀ estimate, task.Adjusting estimate →
    ∃ requester completed,
      latest (NetEvent.isCorrection slave) history =
        some (.exchange slave requester completed) ∧
      estimate = completed.estimate ∧ completed.InRange ∧
      10000 < |completed.estimate| ∧ completed.after = masterOffset - offset
  /-- A large estimate stays pending until the clock is set. -/
  large : ∀ requester completed,
    latest (NetEvent.isCorrection slave) history =
      some (.exchange slave requester completed) →
    10000 < |completed.estimate| → task.Adjusting completed.estimate
  synced : ∀ requester completed,
    latest (NetEvent.isSync slave) history =
      some (.exchange slave requester completed) →
    task.timeSynced = true ∨ ∃ estimate, task.Adjusting estimate
  sent : task.phase = .requestSent → ∃ moment frame,
    latest (NetEvent.isSync slave) history =
      some (.effect slave moment (.timeRequest frame))

namespace Corrected

variable {slave : ι} {masterOffset : Int} {history events : List (NetEvent ι)}
  {task next : TxTask} {offset : Int}

theorem initial (fresh : task.Fresh) :
    Corrected slave masterOffset [] task offset := by
  refine ⟨?_, by simp [latest], by simp [latest], ?_⟩
  · intro estimate adjusting
    exact absurd (fresh.1.symm.trans adjusting) (by simp)
  · intro phase
    exact absurd (fresh.1.symm.trans phase) (by simp)

theorem append (known : Corrected slave masterOffset history task offset)
    (noCorrection : ∀ event ∈ events, event.isCorrection slave = false)
    (noSync : ∀ event ∈ events, event.isSync slave = false) :
    Corrected slave masterOffset (history ++ events) task offset := by
  have correction : latest (NetEvent.isCorrection slave) (history ++ events) =
      latest (NetEvent.isCorrection slave) history :=
    latest_append_of_none noCorrection
  have sync : latest (NetEvent.isSync slave) (history ++ events) =
      latest (NetEvent.isSync slave) history := latest_append_of_none noSync
  exact ⟨by rw [correction]; exact known.pending,
    by rw [correction]; exact known.large, by rw [sync]; exact known.synced,
    by rw [sync]; exact known.sent⟩

theorem quiet (known : Corrected slave masterOffset history task offset)
    (calm : ∀ estimate, ¬ task.Adjusting estimate)
    (calmNext : ∀ estimate, ¬ next.Adjusting estimate)
    (synced : next.timeSynced = task.timeSynced ∨ task.phase = .requestSent)
    (notSent : next.phase ≠ .requestSent) :
    Corrected slave masterOffset history next offset := by
  refine ⟨?_, ?_, ?_, fun phase => absurd phase notSent⟩
  · intro estimate adjusting
    exact absurd adjusting (calmNext estimate)
  · intro requester completed latestEq isLarge
    exact absurd (known.large requester completed latestEq isLarge) (calm _)
  · intro requester completed latestEq
    rcases synced with same | phase
    · rw [same]
      rcases known.synced requester completed latestEq with done | ⟨_, adjusting⟩
      · exact .inl done
      · exact absurd adjusting (calm _)
    · obtain ⟨moment, frame, asked⟩ := known.sent phase
      simp [asked] at latestEq

theorem request (known : Corrected slave masterOffset history task offset)
    (calm : ∀ estimate, ¬ task.Adjusting estimate)
    (calmNext : ∀ estimate, ¬ next.Adjusting estimate) {value : Int}
    {moment : Nat} {frame : Frame} :
    Corrected slave masterOffset
      (history ++ [.reading value, .effect slave moment (.timeRequest frame)])
      next offset := by
  have correction : latest (NetEvent.isCorrection slave)
      (history ++ [.reading value,
        .effect slave moment (.timeRequest frame)]) =
      latest (NetEvent.isCorrection slave) history :=
    latest_append_of_none (by simp [NetEvent.isCorrection])
  refine ⟨fun estimate adjusting => absurd adjusting (calmNext _), ?_, ?_, ?_⟩
  · intro requester completed latestEq large
    rw [correction] at latestEq
    exact absurd (known.large _ _ latestEq large) (calm _)
  · intro requester completed latestEq
    simp [latest, NetEvent.isSync] at latestEq
  · intro phase
    exact ⟨moment, frame, by simp [latest, NetEvent.isSync]⟩

end Corrected

/-- Where an event of the network comes from, given the events before it: a
completed exchange from the response just processed and the request it answers,
a clock step from the latest exchange of its slave. -/
def NetEvent.Explained (start : Network ι) (past : List (NetEvent ι)) :
    NetEvent ι → Prop
  | .exchange slave requester completed =>
      ∃ (sent processed : Nat) (frame : Frame),
        NetEvent.effect requester sent
          (.timeRequest (requestFrame (toUInt64 completed.t1))) ∈ past ∧
        past.getLast? = some (.effect slave processed
          (.timeResponse frame (toUInt64 completed.t4))) ∧
        frame.bytes = completed.response.toBytes ∧
        completed.t4 = processed + start.offsetSince past slave ∧
        completed.reference = sent + start.masterOffset ∧
        completed.after = start.masterOffset - start.offsetSince past slave ∧
        0 ≤ completed.outward ∧ 0 ≤ completed.waiting ∧ 0 ≤ completed.back
  | .clockSet slave before after =>
      before = start.offsetSince past slave ∧
      ∃ requester completed,
        latest (NetEvent.isCorrection slave) past =
          some (.exchange slave requester completed) ∧
        10000 < |completed.estimate| ∧
        completed.after = start.masterOffset - before ∧
        after = before + completed.estimate ∧
        |2 * (start.masterOffset - after) -
            (completed.after - completed.before)| ≤
          |completed.asymmetry| + 1 ∧
        (completed.after = completed.before →
          2 * |start.masterOffset - after| ≤ |completed.asymmetry| + 1)
  | _ => True

/-- What follows an effect: a processed response completes an exchange whose
stamps it carries, and `settimeofday` sets the clock. -/
def NetEvent.CarriedOut (future : List (NetEvent ι)) : NetEvent ι → Prop
  | .effect slave _ (.timeResponse frame clock) =>
      ∃ requester completed,
        future.head? = some (.exchange slave requester completed) ∧
          frame.bytes = completed.response.toBytes ∧
          clock = toUInt64 completed.t4
  | .effect slave moment (.settimeofday tv) =>
      ∃ before, future.head? = some (.clockSet slave before
        (tv.tvSec * 1000000 + tv.tvUsec - moment))
  | _ => True

omit [DecidableEq ι] in
theorem NetEvent.CarriedOut.append (future more : List (NetEvent ι))
    (event : NetEvent ι) (done : event.CarriedOut future) :
    event.CarriedOut (future ++ more) := by
  cases event with
  | effect slave moment effect =>
      cases effect with
      | timeResponse frame clock =>
          obtain ⟨requester, completed, first, carried⟩ := done
          exact ⟨requester, completed, by simp [List.head?_append, first], carried⟩
      | settimeofday tv =>
          obtain ⟨before, first⟩ := done
          exact ⟨before, by simp [List.head?_append, first]⟩
      | timeRequest _ | timestamp _ => trivial
  | reading _ | exchange _ _ _ | clockSet _ _ _ => trivial

structure ForeignInvariant (start : Network ι) (history : List (NetEvent ι))
    (net : Network ι) : Prop where
  known : ∀ slave, Corrected slave start.masterOffset history
    (net.slaves slave).task (net.slaves slave).offset
  offsets : ∀ slave,
    (net.slaves slave).offset = start.offsetSince history slave
  explained : Justified (NetEvent.Explained start) history
  carried : Followed NetEvent.CarriedOut history

namespace Network

variable {net next : Network ι} {slave : ι} {heard : Option (Packet ι)}
  {inbox : List (Packet ι)} {masterOffset : Int} {start : Network ι}
  {history events : List (NetEvent ι)}

theorem SlaveMove.foreign
    (moved : SlaveMove net slave heard inbox history (next, events))
    {other : ι} (different : other ≠ slave) :
    (∀ event ∈ events, event.isCorrection other = false) ∧
      (∀ event ∈ events, event.isSync other = false) ∧
        ∀ event ∈ events, event.setsClock other = false := by
  have reverse : ¬ slave = other := fun same => different same.symm
  cases moved <;>
    simp [NetEvent.isCorrection, NetEvent.isSync, NetEvent.setsClock, reverse]

theorem SlaveMove.corrected
    (moved : SlaveMove net slave heard inbox history (next, events))
    (genuine : net.Genuine masterOffset history)
    (known : Corrected slave masterOffset history
      (net.slaves slave).task (net.slaves slave).offset) :
    Corrected slave masterOffset (history ++ events)
      (next.slaves slave).task (next.slaves slave).offset := by
  cases moved with
  | silent calm calmNext ready synced notSent =>
      simp only [List.append_nil, withTask_slaves_self]
      exact known.quiet calm calmNext synced notSent
  | request calm calmNext ready reading =>
      simp only [fromSlave_slaves_self, withTask_slaves_self]
      exact known.request calm calmNext
  | timestamp calm nextPhase synced ready kind stamp reading =>
      simp only [fromSlave_slaves_self, withTask_slaves_self]
      refine (known.quiet calm (TxTask.not_adjusting nextPhase (by simp))
        (.inl synced) (by simp [nextPhase])).append ?_ ?_
      · simp [NetEvent.isCorrection]
      · simp [NetEvent.isSync]
  | @adjusts _ _ origin _ _ calm hears received past inRange large nextPhase
      synced =>
      rw [← genuine.constant]
      simp only [withTask_slaves_self]
      refine ⟨?_, ?_, fun _ _ _ => .inr ⟨_, nextPhase⟩, ?_⟩
      · intro estimate adjusting
        refine ⟨origin.slave, _, ?_, adjusting.injective nextPhase, inRange,
          large, rfl⟩
        simp [latest, NetEvent.isCorrection]
      · intro requester completed latestEq isLarge
        simp [latest, NetEvent.isCorrection] at latestEq
        rw [← latestEq.2]
        exact nextPhase
      · intro phase
        exact absurd (nextPhase.symm.trans phase) (by simp)
  | accepts calm hears received past inRange small nextPhase synced =>
      simp only [withTask_slaves_self]
      refine ⟨?_, ?_, fun _ _ _ => .inl synced, ?_⟩
      · intro estimate adjusting
        exact absurd adjusting (TxTask.not_adjusting nextPhase (by simp) _)
      · intro requester completed latestEq isLarge
        simp [latest, NetEvent.isCorrection] at latestEq
        rw [← latestEq.2] at isLarge
        omega
      · intro phase
        exact absurd (nextPhase.symm.trans phase) (by simp)
  | sets phase nextPhase synced reading time =>
      simp only [setClock_slaves_self, withTask_slaves_self]
      refine ⟨?_, ?_, fun _ _ _ => .inl synced, ?_⟩
      · intro estimate adjusting
        exact absurd adjusting (TxTask.not_adjusting nextPhase (by simp) _)
      · intro requester completed latestEq isLarge
        simp [latest, NetEvent.isCorrection] at latestEq
      · intro sent
        exact absurd (nextPhase.symm.trans sent) (by simp)

/-- The clock of a slave shows what the history says it was set to. -/
theorem SlaveMove.offset
    (moved : SlaveMove net slave heard inbox history (next, events))
    (before : (net.slaves slave).offset = start.offsetSince history slave) :
    (next.slaves slave).offset =
      start.offsetSince (history ++ events) slave := by
  cases moved with
  | silent | adjusts | accepts =>
      rw [offsetSince_append (by simp [NetEvent.setsClock]), ← before,
        withTask_slaves_self]
  | request | timestamp =>
      rw [offsetSince_append (by simp [NetEvent.setsClock]), ← before,
        fromSlave_slaves_self, withTask_slaves_self]
  | sets =>
      simp [offsetSince, latest, NetEvent.setsClock]

/-- A processed response carries out its exchange, and `settimeofday` a step of
the clock. -/
theorem SlaveMove.carried
    (moved : SlaveMove net slave heard inbox history (next, events)) :
    Followed NetEvent.CarriedOut events := by
  cases moved with
  | silent => exact .nil
  | request | timestamp => exact .cons trivial (.cons trivial .nil)
  | @adjusts _ _ _ arrived answered _ _ _ _ _ _ _ _ content
  | @accepts _ _ _ arrived answered _ _ _ _ _ _ _ _ content =>
      refine .cons trivial (.cons ⟨_, _, rfl, content, ?_⟩ (.cons trivial .nil))
      rw [exchangeOf_t4]
  | sets => exact .cons trivial (.cons ⟨_, rfl⟩ (.cons trivial .nil))

theorem explained_exchange {origin : Origin ι} {frame : Frame} {value : Int}
    {arrived answered : Nat}
    (received : origin.Received net.masterOffset history arrived answered)
    (order : answered ≤ net.now)
    (content : frame.bytes =
      (net.exchangeOf slave origin arrived answered).response.toBytes)
    (constant : net.masterOffset = start.masterOffset)
    (offset : (net.slaves slave).offset = start.offsetSince history slave) :
    NetEvent.Explained start
      (history ++ [.reading value,
        .effect slave net.now
          (.timeResponse frame (toUInt64 (net.slaveClock slave)))])
      (.exchange slave origin.slave
        (net.exchangeOf slave origin arrived answered)) := by
  have first := received.stamped.past
  have second := received.past
  have kept : start.offsetSince (history ++ [.reading value,
      .effect slave net.now
        (.timeResponse frame (toUInt64 (net.slaveClock slave)))]) slave =
      (net.slaves slave).offset := by
    rw [offset]
    exact offsetSince_append (by simp [NetEvent.setsClock])
  refine ⟨origin.moment, net.now, frame, ?_, ?_, content, ?_, ?_, ?_, ?_, ?_, ?_⟩
  · rw [exchangeOf_t1]
    exact List.mem_append_left _ received.stamped.sent
  · rw [exchangeOf_t4]
    simp
  · rw [kept, exchangeOf_t4, slaveClock]
  · rw [← constant]
    rfl
  · rw [kept, ← constant]
    rfl
  · simp only [exchangeOf]
    omega
  · simp only [exchangeOf]
    omega
  · simp only [exchangeOf]
    omega

/-- The events of a slave's step are explained by what it knew. -/
theorem SlaveMove.explained
    (moved : SlaveMove net slave heard inbox history (next, events))
    (genuine : net.Genuine start.masterOffset history)
    (known : Corrected slave start.masterOffset history
      (net.slaves slave).task (net.slaves slave).offset)
    (offset : (net.slaves slave).offset = start.offsetSince history slave) :
    Justified (fun past => NetEvent.Explained start (history ++ past))
      events := by
  cases moved with
  | silent => exact .nil
  | request | timestamp => exact .cons trivial (.cons trivial .nil)
  | @adjusts _ _ _ _ _ _ _ received past _ _ _ _ content
  | @accepts _ _ _ _ _ _ _ received past _ _ _ _ content =>
      refine .cons trivial (.cons trivial (.cons ?_ .nil))
      exact explained_exchange received past content genuine.constant offset
  | sets phase nextPhase synced reading time =>
      refine .cons trivial (.cons trivial (.cons ?_ .nil))
      obtain ⟨requester, completed, latestEq, rfl, inRange, large, after⟩ :=
        known.pending _ phase
      subst time
      rw [offsetAfter_adjusted
        (Exchange.newTimeInRange_estimate inRange reading) reading]
      have left : start.masterOffset -
          ((net.slaves slave).offset + completed.estimate) =
          completed.after - completed.estimate := by
        rw [after]
        omega
      refine ⟨?_, requester, completed, ?_, large, after, rfl, ?_, ?_⟩
      · rw [offset]
        exact (offsetSince_append (by simp [NetEvent.setsClock])).symm
      · rw [← latestEq]
        exact latest_append_of_none (by simp [NetEvent.isCorrection])
      · rw [left]
        exact completed.residual_bound
      · intro unmoved
        rw [left]
        exact completed.residual_bound_of_unmoved unmoved

end Network

theorem ForeignInvariant.step {start net next : Network ι}
    {history events : List (NetEvent ι)}
    (invariant : ForeignInvariant start history net)
    (genuine : net.Genuine start.masterOffset history)
    (step : net.Step history (next, events)) :
    ForeignInvariant start (history ++ events) next := by
  cases step with
  | elapse micros =>
      rw [List.append_nil]
      exact ⟨invariant.known, invariant.offsets, invariant.explained,
        invariant.carried⟩
  | @slave slave _ _ _ taken moved =>
      refine ⟨?_, ?_, invariant.explained.append (moved.explained genuine
          (invariant.known _) (invariant.offsets _)),
        invariant.carried.append NetEvent.CarriedOut.append moved.carried⟩
      · intro other
        by_cases same : other = slave
        · rw [same]
          exact moved.corrected genuine (invariant.known _)
        · obtain ⟨taskEq, offsetEq⟩ := moved.other same
          obtain ⟨noCorrection, noSync, _⟩ := moved.foreign same
          rw [taskEq, offsetEq]
          exact (invariant.known other).append noCorrection noSync
      · intro other
        by_cases same : other = slave
        · rw [same]
          exact moved.offset (invariant.offsets _)
        · rw [(moved.other same).2,
            Network.offsetSince_append (moved.foreign same).2.2]
          exact invariant.offsets other
  | master taken moved =>
      have readings : ∀ event ∈ events, ∃ value,
          event = NetEvent.reading value := by
        cases moved <;> simp
      refine ⟨?_, ?_, invariant.explained.append ?_,
        invariant.carried.append NetEvent.CarriedOut.append ?_⟩
      · intro slave
        obtain ⟨taskEq, offsetEq⟩ := moved.slave slave
        rw [taskEq, offsetEq]
        refine (invariant.known slave).append ?_ ?_
        · intro event member
          obtain ⟨value, rfl⟩ := readings event member
          rfl
        · intro event member
          obtain ⟨value, rfl⟩ := readings event member
          rfl
      · intro slave
        rw [(moved.slave slave).2, Network.offsetSince_append]
        · exact invariant.offsets slave
        · intro event member
          obtain ⟨value, rfl⟩ := readings event member
          rfl
      · intro past event future split
        obtain ⟨value, rfl⟩ := readings event (by simp [split])
        trivial
      · intro past event future split
        obtain ⟨value, rfl⟩ := readings event (by simp [split])
        trivial

/-- Responses correct every slave that hears them.  An exchange comes from some
slave's request and is what the processed frame describes, a clock is set by the
estimate of the latest exchange of its slave, and what that leaves is compared
with how far the two slaves' clocks were apart; a processed response sets
`time_synced`, at once or after the clock. -/
theorem responses_correct_every_slave {start : Network ι}
    (initial : start.Initial) {history : List (NetEvent ι)} {net : Network ι}
    (reached : (loraNetwork ι).Reaches start history net)
    (readable : ∀ event ∈ history, event.Readable) :
    Justified (NetEvent.Explained start) history ∧
      Followed NetEvent.CarriedOut history ∧
      (∀ slave, (net.slaves slave).offset = start.offsetSince history slave) ∧
      (∀ slave requester completed,
        latest (NetEvent.isCorrection slave) history =
          some (.exchange slave requester completed) →
        10000 < |completed.estimate| →
        (net.slaves slave).task.Adjusting completed.estimate) ∧
      (∀ slave requester completed,
        latest (NetEvent.isSync slave) history =
          some (.exchange slave requester completed) →
        (net.slaves slave).task.timeSynced = true ∨
          ∃ estimate, (net.slaves slave).task.Adjusting estimate) := by
  have invariant : ForeignInvariant start history net :=
    Network.invariant_of_reaches initial NetEvent.Readable
      (ForeignInvariant start) (fun _ => id)
      ⟨fun slave => .initial (initial.fresh slave), fun _ => rfl, .nil, .nil⟩
      (fun _ _ _ _ _ genuine kept step _ => kept.step genuine step)
      reached readable
  exact ⟨invariant.explained, invariant.carried, invariant.offsets,
    fun slave => (invariant.known slave).large,
    fun slave => (invariant.known slave).synced⟩

/-- Only the answer to an own request sets a clock, and leaves it close. -/
def OwnResponsesOnly (masterOffset : Int) (history : List (NetEvent ι)) :
    Prop :=
  ∀ past slave before after future,
    history = past ++ .clockSet slave before after :: future →
    ∃ completed,
      latest (NetEvent.isCorrection slave) past =
        some (.exchange slave slave completed) ∧
      2 * |masterOffset - after| ≤ |completed.asymmetry| + 1

/-- A master and two slaves; the clock of `false` shows true time. -/
def twoSlaves (masterOffset offset : Int) : Network Bool :=
  { now := 10000000
    masterOffset := masterOffset
    master := { phase := .receive, buf := List.Vector.replicate 256 0 }
    serving := none
    masterInbox := []
    slaves := fun slave =>
      { task := sampleTxTask
        offset := if slave then offset else 0
        tickPhase := 0
        inbox := [] } }

theorem twoSlaves_initial (masterOffset offset : Int) :
    (twoSlaves masterOffset offset).Initial :=
  ⟨rfl, rfl, rfl, fun _ => ⟨rfl, rfl, rfl⟩, fun _ => rfl⟩

/-- Slave `false` asks, the master answers, and slave `true` takes the answer
for its own. -/
def overheardResponse : List (NetAction Bool) :=
  [.slave false none sampleEnv, .master (some 0) sampleEnv,
    .master none sampleEnv, .slave true none sampleEnv,
    .slave true none sampleEnv, .slave true none sampleEnv,
    .slave true (some 1) sampleEnv, .slave true none sampleEnv]

def ownResponse : List (NetAction Bool) :=
  [.slave true none sampleEnv, .master (some 0) sampleEnv,
    .master none sampleEnv, .slave true none sampleEnv,
    .slave true none sampleEnv, .slave true (some 0) sampleEnv,
    .slave true none sampleEnv]

def overheardHistory : List (NetEvent Bool) :=
  (loraNetwork Bool).history (twoSlaves 0 (-5000000)) overheardResponse

def farAwayHistory : List (NetEvent Bool) :=
  (loraNetwork Bool).history (twoSlaves (2 ^ 63 - 50000) 0) ownResponse

/-- A slave that overhears a response processes it, and its clock ends where the
step left it. -/
theorem responses_correct_every_slave_overheard :
    Justified (NetEvent.Explained (twoSlaves 0 (-5000000))) overheardHistory ∧
      Followed NetEvent.CarriedOut overheardHistory ∧
      ∃ net, (loraNetwork Bool).Reaches (twoSlaves 0 (-5000000))
          overheardHistory net ∧
        (net.slaves true).offset = -2500000 := by
  obtain ⟨net, reached⟩ := Machine.exists_reaches
    (show ((loraNetwork Bool).run (twoSlaves 0 (-5000000))
      overheardResponse).isSome = true by decide +kernel)
  have readable : ∀ event ∈ overheardHistory, event.Readable := by
    decide +kernel
  obtain ⟨explained, carried, offsets, _⟩ := responses_correct_every_slave
    (twoSlaves_initial _ _) reached readable
  refine ⟨explained, carried, net, reached, ?_⟩
  rw [offsets]
  decide +kernel

theorem not_ownResponsesOnly_overheard :
    ¬ OwnResponsesOnly 0 overheardHistory := by
  intro own
  obtain ⟨completed, foreign, _⟩ := own (overheardHistory.take 11) true
    (-5000000) (-2500000) [] (by decide +kernel)
  have overheard : (latest (NetEvent.isCorrection true)
      (overheardHistory.take 11)).bind NetEvent.requester = some false := by
    decide +kernel
  rw [foreign] at overheard
  simp [NetEvent.requester] at overheard

/-- Half the range away, the sum of the two gaps wraps to a small offset. -/
theorem not_ownResponsesOnly_farAway :
    ¬ OwnResponsesOnly (2 ^ 63 - 50000) farAwayHistory := by
  intro own
  obtain ⟨completed, answered, close⟩ := own (farAwayHistory.take 9) true
    0 (-50000) [] (by decide +kernel)
  have symmetric : ((latest (NetEvent.isCorrection true)
      (farAwayHistory.take 9)).bind NetEvent.completed).map
        Exchange.asymmetry = some 0 := by
    decide +kernel
  rw [answered] at symmetric
  simp only [Option.bind_some, NetEvent.completed, Option.map_some,
    Option.some.injEq] at symmetric
  rw [symmetric] at close
  revert close
  decide

/-- Neither half of the rule holds: a foreign response sets a clock five seconds
away, and a clock half the range away is not brought close by its own. -/
theorem ownResponsesOnly_fails :
    (∃ net, (loraNetwork Bool).Reaches (twoSlaves 0 (-5000000))
        overheardHistory net ∧
      (∀ event ∈ overheardHistory, event.Readable) ∧
      ¬ OwnResponsesOnly 0 overheardHistory) ∧
    ∃ net, (loraNetwork Bool).Reaches (twoSlaves (2 ^ 63 - 50000) 0)
        farAwayHistory net ∧
      ¬ OwnResponsesOnly (2 ^ 63 - 50000) farAwayHistory := by
  obtain ⟨first, firstReached⟩ := Machine.exists_reaches
    (show ((loraNetwork Bool).run (twoSlaves 0 (-5000000))
      overheardResponse).isSome = true by decide +kernel)
  obtain ⟨second, secondReached⟩ := Machine.exists_reaches
    (show ((loraNetwork Bool).run (twoSlaves (2 ^ 63 - 50000) 0)
      ownResponse).isSome = true by decide +kernel)
  exact ⟨⟨first, firstReached, by decide +kernel,
      not_ownResponsesOnly_overheard⟩,
    second, secondReached, not_ownResponsesOnly_farAway⟩

end Lora32Mqtt
