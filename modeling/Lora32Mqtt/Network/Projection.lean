import Lora32Mqtt.Network.Channel

/-!
# Each slave of the network runs the slave loop

Seen by one slave, a run of the network is a run of its loop in some
surroundings, with the ticks since the start of the network as time.  What holds
of every run of the loop therefore holds in the network.
-/

namespace Lora32Mqtt

variable {ι : Type}

theorem SlaveNode.lt_of_ticks {node : SlaveNode ι}
    {origin early late gap : Nat}
    (apart : node.ticks early - node.ticks origin + gap <
      node.ticks late - node.ticks origin) :
    early + gap * 10000 < late := by
  simp only [SlaveNode.ticks] at apart
  omega

variable [DecidableEq ι]

/-- What an event of the network is in the history of one slave. -/
def NetEvent.seenBy (node : SlaveNode ι) (origin : Nat) (slave : ι) :
    NetEvent ι → Option (Nat × TxEffect)
  | .effect other moment caused =>
      if other = slave then
        some (node.ticks moment - node.ticks origin, caused)
      else none
  | _ => none

namespace Network

def seen (start : Network ι) (slave : ι) (history : List (NetEvent ι)) :
    TxHistory :=
  history.filterMap (NetEvent.seenBy (start.slaves slave) start.now slave)

section Perform

variable (net : Network ι) (slave : ι) (heard : Option (Packet ι))

theorem perform_task (effect : TxEffect) (other : ι) :
    ((net.perform slave heard effect).1.slaves other).task =
      (net.slaves other).task ∧
    ((net.perform slave heard effect).1.slaves other).tickPhase =
      (net.slaves other).tickPhase := by
  cases effect with
  | timeRequest | timestamp =>
      simp only [perform, fromSlave]
      split <;> exact ⟨rfl, rfl⟩
  | timeResponse => exact ⟨rfl, rfl⟩
  | settimeofday =>
      simp only [perform, setClock, setSlave, Function.update_apply]
      split
      next same => exact same ▸ ⟨rfl, rfl⟩
      next different => exact ⟨rfl, rfl⟩

theorem perform_now (effect : TxEffect) :
    (net.perform slave heard effect).1.now = net.now := by
  cases effect <;> rfl

/-- The further events of an effect are invisible in the history of a slave. -/
theorem perform_unseen (effect : TxEffect) (start : Network ι) (other : ι) :
    start.seen other (net.perform slave heard effect).2 = [] := by
  simp only [perform]
  split
  · rfl
  · rfl
  · split <;> rfl
  · rfl

theorem performAll_task (effects : List TxEffect) (other : ι) :
    ((net.performAll slave heard effects).1.slaves other).task =
      (net.slaves other).task ∧
    ((net.performAll slave heard effects).1.slaves other).tickPhase =
      (net.slaves other).tickPhase := by
  induction effects generalizing net with
  | nil => exact ⟨rfl, rfl⟩
  | cons effect rest induction =>
      have first := net.perform_task slave heard effect other
      have later := induction (net.perform slave heard effect).1
      exact ⟨later.1.trans first.1, later.2.trans first.2⟩

theorem performAll_now (effects : List TxEffect) :
    (net.performAll slave heard effects).1.now = net.now := by
  induction effects generalizing net with
  | nil => rfl
  | cons effect rest induction =>
      exact (induction _).trans (net.perform_now slave heard effect)

theorem performAll_seen (effects : List TxEffect) (start : Network ι)
    (other : ι) :
    start.seen other (net.performAll slave heard effects).2 =
      if slave = other then
        effects.map fun effect =>
          ((start.slaves other).ticks net.now -
            (start.slaves other).ticks start.now, effect)
      else [] := by
  induction effects generalizing net with
  | nil => simp [performAll, seen]
  | cons effect rest induction =>
      have hidden := net.perform_unseen slave heard effect start other
      have later := induction (net.perform slave heard effect).1
      rw [perform_now] at later
      simp only [seen] at hidden later ⊢
      simp only [performAll, List.filterMap_cons, List.filterMap_append, hidden,
        later, NetEvent.seenBy, List.nil_append]
      by_cases same : slave = other
      · simp [same]
      · simp [same]

end Perform

/-- The run of one slave inside a run of the network. -/
structure Projected (start : Network ι) (slave : ι)
    (history : List (NetEvent ι)) (net : Network ι) : Prop where
  tickPhase :
    (net.slaves slave).tickPhase = (start.slaves slave).tickPhase
  loop : ∃ elapsed,
    (start.slaves slave).ticks start.now + elapsed ≤
      (start.slaves slave).ticks net.now ∧
    (slaveLoop (UInt32.ofNat ((start.slaves slave).ticks start.now))).Reaches
      { task := (start.slaves slave).task, elapsed := 0 }
      (start.seen slave history)
      { task := (net.slaves slave).task, elapsed := elapsed }

namespace Projected

variable {start net : Network ι} {slave : ι} {history : List (NetEvent ι)}

theorem initial (start : Network ι) (slave : ι) :
    Projected start slave [] start :=
  ⟨rfl, 0, le_rfl, .refl⟩

theorem of_unseen (projected : Projected start slave history net)
    {next : Network ι} {events : List (NetEvent ι)}
    (unseen : start.seen slave events = [])
    (task : (next.slaves slave).task = (net.slaves slave).task)
    (tickPhase : (next.slaves slave).tickPhase = (net.slaves slave).tickPhase)
    (order : net.now ≤ next.now) :
    Projected start slave (history ++ events) next := by
  obtain ⟨samePhase, elapsed, bound, loop⟩ := projected
  have later : (start.slaves slave).ticks net.now ≤
      (start.slaves slave).ticks next.now := by
    simp only [SlaveNode.ticks]
    omega
  refine ⟨tickPhase.trans samePhase, elapsed, bound.trans later, ?_⟩
  simp only [seen] at unseen loop ⊢
  rw [List.filterMap_append, unseen, List.append_nil, task]
  exact loop

theorem slaveStep (projected : Projected start slave history net)
    (env : TaskEnv) (heard : Option (Packet ι)) (inbox : List (Packet ι)) :
    Projected start slave
      (history ++ (net.slaveStep slave env heard inbox).2)
      (net.slaveStep slave env heard inbox).1 := by
  obtain ⟨samePhase, elapsed, bound, loop⟩ := projected
  have sameTicks : (net.slaves slave).ticks net.now =
      (start.slaves slave).ticks net.now := by
    simp only [SlaveNode.ticks, samePhase]
  let increment := (start.slaves slave).ticks net.now -
    (start.slaves slave).ticks start.now - elapsed
  have total : elapsed + increment = (start.slaves slave).ticks net.now -
      (start.slaves slave).ticks start.now := by
    omega
  have counter : tickCount
      (UInt32.ofNat ((start.slaves slave).ticks start.now))
      (elapsed + increment) =
        UInt32.ofNat ((net.slaves slave).ticks net.now) := by
    simp only [tickCount]
    rw [total, sameTicks, ← UInt32.ofNat_add]
    congr 1
    omega
  have sameEnv : ({ net.slaveEnv slave env heard with
      tick := tickCount (UInt32.ofNat
        ((start.slaves slave).ticks start.now)) (elapsed + increment) } :
      TaskEnv) = net.slaveEnv slave env heard := by
    rw [counter]
    rfl
  let outcome := (net.slaves slave).task.step (net.slaveEnv slave env heard)
  have stepped : (slaveLoop
      (UInt32.ofNat ((start.slaves slave).ticks start.now))).Reaches
      { task := (start.slaves slave).task, elapsed := 0 }
      (start.seen slave history ++
        outcome.2.map fun effect => (elapsed + increment, effect))
      { task := outcome.1, elapsed := elapsed + increment } := by
    refine loop.step (?_ : (slaveLoop _).step _
      ⟨net.slaveEnv slave env heard, increment⟩ = _)
    simp only [slaveLoop, tickedStep, sameEnv, outcome]
  obtain ⟨taskEq, phaseEq⟩ := (net.withTask slave outcome.1 inbox).performAll_task
    slave heard outcome.2 slave
  have nowEq := (net.withTask slave outcome.1 inbox).performAll_now slave heard
    outcome.2
  have seenEq := (net.withTask slave outcome.1 inbox).performAll_seen slave heard
    outcome.2 start slave
  have self : (net.withTask slave outcome.1 inbox).slaves slave =
      { net.slaves slave with task := outcome.1, inbox := inbox } := by
    simp [withTask, setSlave]
  rw [total] at stepped
  refine ⟨phaseEq.trans (by rw [self]; exact samePhase),
    (start.slaves slave).ticks net.now - (start.slaves slave).ticks start.now,
    ?_, ?_⟩
  · show _ ≤ (start.slaves slave).ticks ((net.withTask slave outcome.1
      inbox).performAll slave heard outcome.2).1.now
    rw [nowEq]
    show _ ≤ (start.slaves slave).ticks net.now
    omega
  · show (slaveLoop _).Reaches _
      (start.seen slave (history ++ ((net.withTask slave outcome.1
        inbox).performAll slave heard outcome.2).2))
      { task := (((net.withTask slave outcome.1 inbox).performAll slave heard
          outcome.2).1.slaves slave).task
        elapsed := _ }
    rw [if_pos rfl] at seenEq
    simp only [seen] at seenEq stepped ⊢
    rw [List.filterMap_append, seenEq, taskEq, self]
    exact stepped

theorem otherStep (projected : Projected start slave history net)
    {other : ι} (different : other ≠ slave) (env : TaskEnv)
    (heard : Option (Packet ι)) (inbox : List (Packet ι)) :
    Projected start slave
      (history ++ (net.slaveStep other env heard inbox).2)
      (net.slaveStep other env heard inbox).1 := by
  let outcome := (net.slaves other).task.step (net.slaveEnv other env heard)
  obtain ⟨taskEq, phaseEq⟩ := (net.withTask other outcome.1 inbox).performAll_task
    other heard outcome.2 slave
  have nowEq := (net.withTask other outcome.1 inbox).performAll_now other heard
    outcome.2
  have seenEq := (net.withTask other outcome.1 inbox).performAll_seen other heard
    outcome.2 start slave
  have unmoved : (net.withTask other outcome.1 inbox).slaves slave =
      net.slaves slave := by
    simp [withTask, setSlave, Ne.symm different]
  rw [unmoved] at taskEq phaseEq
  rw [if_neg different] at seenEq
  exact projected.of_unseen seenEq taskEq phaseEq (le_of_eq nowEq.symm)

omit [DecidableEq ι] in
theorem fromMaster_all (net : Network ι) (tag : Tag ι) (sent : List Frame)
    (slave : ι) :
    let later := sent.foldl (fun heardBy frame =>
      heardBy.fromMaster { frame := frame, tag := tag }) net
    (later.slaves slave).task = (net.slaves slave).task ∧
      (later.slaves slave).tickPhase = (net.slaves slave).tickPhase ∧
      later.now = net.now := by
  induction sent generalizing net with
  | nil => exact ⟨rfl, rfl, rfl⟩
  | cons frame rest induction =>
      exact induction (net.fromMaster { frame := frame, tag := tag })

theorem step (projected : Projected start slave history net)
    {action : NetAction ι} {next : Network ι} {events : List (NetEvent ι)}
    (taken : (loraNetwork ι).step net action = some (next, events)) :
    Projected start slave (history ++ events) next := by
  cases action with
  | elapse micros =>
      obtain ⟨rfl, rfl⟩ := Prod.mk.inj (Option.some.inj taken)
      exact projected.of_unseen rfl rfl rfl (Nat.le_add_right _ _)
  | slave other choice env =>
      obtain ⟨⟨heard, inbox⟩, _, outcome⟩ := Option.map_eq_some_iff.mp taken
      obtain ⟨rfl, rfl⟩ := Prod.mk.inj outcome
      by_cases same : other = slave
      · subst same
        exact projected.slaveStep env heard inbox
      · exact projected.otherStep same env heard inbox
  | master choice env =>
      obtain ⟨⟨heard, inbox⟩, _, outcome⟩ := Option.map_eq_some_iff.mp taken
      obtain ⟨rfl, rfl⟩ := Prod.mk.inj outcome
      obtain ⟨taskEq, phaseEq, nowEq⟩ := fromMaster_all
        (net.withMaster (net.master.step (net.masterEnv env heard)).1
          (net.nextServing
            (net.master.step (net.masterEnv env heard)).1.phase heard) inbox)
        net.responseTag
        ((net.master.step (net.masterEnv env heard)).2.filterMap
          RxEffect.sentFrame) slave
      refine projected.of_unseen ?_ taskEq phaseEq (le_of_eq nowEq.symm)
      simp only [seen]
      split <;> rfl

end Projected

theorem projected_of_reaches {start net : Network ι}
    {history : List (NetEvent ι)}
    (reached : (loraNetwork ι).Reaches start history net) (slave : ι) :
    Projected start slave history net :=
  reached.invariant (.initial start slave)
    fun _ _ _ _ _ projected taken => projected.step taken

section Spacing

variable {start net : Network ι} {slave : ι}
  {history past future : List (NetEvent ι)} {early late : Nat}
  {first second : TxEffect}

/-- Every attempt in the network obeys the rule of the loop. -/
theorem attempt_obeys (initial : start.Initial)
    (reached : (loraNetwork ι).Reaches start history net)
    (split : history = past ++ .effect slave late second :: future) :
    ObeysDiscipline (start.seen slave past)
      ((start.slaves slave).ticks late -
        (start.slaves slave).ticks start.now, second) := by
  obtain ⟨_, elapsed, _, loop⟩ := projected_of_reaches reached slave
  have disciplined :=
    (SlaveInvariant.of_reaches (initial.fresh slave) loop).disciplined
  refine disciplined _ _ (start.seen slave future) ?_
  rw [split]
  simp [seen, NetEvent.seenBy]

variable (start) in
theorem mem_seen (member : .effect slave early first ∈ past) :
    ((start.slaves slave).ticks early - (start.slaves slave).ticks start.now,
      first) ∈ start.seen slave past :=
  List.mem_filterMap.mpr ⟨_, member, by simp [NetEvent.seenBy]⟩

/-- Two requests of a slave are more than 150 seconds apart. -/
theorem requests_spaced (initial : start.Initial)
    (reached : (loraNetwork ι).Reaches start history net)
    (split : history = past ++ .effect slave late second :: future)
    (isLater : second.isRequest = true)
    (member : .effect slave early first ∈ past)
    (isEarlier : first.isRequest = true) :
    early + 150000000 < late := by
  have obeys := attempt_obeys initial reached split
  cases second with
  | timeRequest frame =>
      exact SlaveNode.lt_of_ticks
        (obeys _ (mem_seen start member) isEarlier)
  | timestamp | timeResponse | settimeofday => cases isLater

/-- Two timestamps of a slave are more than 5 seconds apart. -/
theorem timestamps_spaced (initial : start.Initial)
    (reached : (loraNetwork ι).Reaches start history net)
    (split : history = past ++ .effect slave late second :: future)
    (isLater : second.isTimestamp = true)
    (member : .effect slave early first ∈ past)
    (isEarlier : first.isTimestamp = true) :
    early + 5000000 < late := by
  have obeys := attempt_obeys initial reached split
  cases second with
  | timestamp frame =>
      exact SlaveNode.lt_of_ticks
        (obeys.2.1 _ (mem_seen start member) isEarlier)
  | timeRequest | timeResponse | settimeofday => cases isLater

end Spacing


end Network

end Lora32Mqtt
