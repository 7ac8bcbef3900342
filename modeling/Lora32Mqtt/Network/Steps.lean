import Lora32Mqtt.Network.Genuine

/-!
# Steps of the network

What one step of a slave does to the network when the readings it takes are in
range: the offset it computes is the estimate of the exchange that the tag of
the frame describes.  Frames stay genuine over every run.
-/

namespace Lora32Mqtt

variable {ι : Type}

/-- Clock readings stay far from the ends of the 64-bit range. -/
def NetEvent.Readable : NetEvent ι → Prop
  | .reading value => Reading value
  | _ => True

instance (event : NetEvent ι) : Decidable event.Readable :=
  match event with
  | .reading value => inferInstanceAs (Decidable (Reading value))
  | .effect _ _ _ | .exchange _ _ _ | .clockSet _ _ _ =>
      inferInstanceAs (Decidable True)

namespace Network

section ExchangeOf

variable (net : Network ι) (slave : ι) (origin : Origin ι)
  (arrived answered : Nat)

theorem exchangeOf_t1 :
    (net.exchangeOf slave origin arrived answered).t1 = origin.reading := by
  simp only [exchangeOf, Exchange.t1]
  omega

theorem exchangeOf_t2 :
    (net.exchangeOf slave origin arrived answered).t2 =
      arrived + net.masterOffset := by
  simp only [exchangeOf, Exchange.t2]
  omega

theorem exchangeOf_t3 :
    (net.exchangeOf slave origin arrived answered).t3 =
      answered + net.masterOffset := by
  simp only [exchangeOf, Exchange.t3]
  omega

theorem exchangeOf_t4 :
    (net.exchangeOf slave origin arrived answered).t4 =
      net.slaveClock slave := by
  simp only [exchangeOf, Exchange.t4, slaveClock]
  omega

theorem exchangeOf_response :
    (net.exchangeOf slave origin arrived answered).response =
      origin.response net.masterOffset arrived answered := by
  simp only [Exchange.response, Origin.response, exchangeOf_t1, exchangeOf_t2,
    exchangeOf_t3]

variable {net slave origin arrived answered}

theorem exchangeOf_inRange {history : List (NetEvent ι)}
    (received : origin.Received net.masterOffset history arrived answered)
    (reading3 : Reading (answered + net.masterOffset))
    (reading4 : Reading (net.slaveClock slave)) :
    (net.exchangeOf slave origin arrived answered).InRange := by
  refine ⟨?_, ?_, ?_, ?_⟩
  · rw [exchangeOf_t1]
    exact received.stamped.reading
  · rw [exchangeOf_t2]
    exact received.reading
  · rw [exchangeOf_t3]
    exact reading3
  · rw [exchangeOf_t4]
    exact reading4

theorem timeOffset_exchangeOf
    (inRange : (net.exchangeOf slave origin arrived answered).InRange) :
    timeOffset (origin.response net.masterOffset arrived answered)
        (toUInt64 (net.slaveClock slave)) =
      (net.exchangeOf slave origin arrived answered).estimate := by
  rw [← exchangeOf_response net slave, ← exchangeOf_t4 net slave origin arrived
    answered]
  exact Exchange.timeOffset_response inRange

end ExchangeOf

/-- A slave that takes a frame for a response completes the exchange of its
tag. -/
theorem hears_response {net : Network ι} {slave : ι}
    {heard : Option (Packet ι)} {history : List (NetEvent ι)}
    {masterOffset : Int}
    (genuine : net.Genuine masterOffset history)
    (taken : ∀ packet, heard = some packet →
      packet ∈ (net.slaves slave).inbox)
    (reading : Reading (net.slaveClock slave))
    {response : LoraTimeSyncMsg}
    (kind : response.msgType = LoraMsgType.timeResponse.code)
    (frame : (heardFrame heard).bytes = response.toBytes) :
    ∃ content origin arrived answered,
      heard = some
        { frame := content, tag := .response origin arrived answered } ∧
        origin.Received net.masterOffset history arrived answered ∧
        answered ≤ net.now ∧
        (net.exchangeOf slave origin arrived answered).InRange ∧
        timeOffset response (toUInt64 (net.slaveClock slave)) =
          (net.exchangeOf slave origin arrived answered).estimate ∧
        content.bytes =
          (net.exchangeOf slave origin arrived answered).response.toBytes := by
  cases heard with
  | none =>
      have sizes := congrArg List.length frame
      rw [response.length_toBytes] at sizes
      cases sizes
  | some packet =>
      have genuinePacket := genuine.inbox slave packet (taken packet rfl)
      rw [← genuine.constant] at genuinePacket
      obtain ⟨origin, arrived, answered, tag, received, past, reading3, rfl⟩ :=
        genuinePacket.of_response kind frame
      have inRange := exchangeOf_inRange received reading3 reading
      obtain ⟨content, label⟩ := packet
      have label' : label = .response origin arrived answered := tag
      exact ⟨content, origin, arrived, answered, by rw [label'], received, past,
        inRange, timeOffset_exchangeOf inRange, by
          rw [exchangeOf_response]
          exact frame⟩

theorem offsetAfter_adjusted {net : Network ι} {slave : ι} {offset : Int}
    (inRange : newTimeInRange
      (gettimeofday (toUInt64 (net.slaveClock slave))) offset = true)
    (reading : Reading (net.slaveClock slave)) :
    net.offsetAfter (adjustedTimeval
        (gettimeofday (toUInt64 (net.slaveClock slave))) offset) =
      (net.slaves slave).offset + offset := by
  have joined := Int.mul_tdiv_add_tmod
    (newTimeUs (gettimeofday (toUInt64 (net.slaveClock slave))) offset) 1000000
  simp only [Reading] at reading
  have value := toUInt64_toNat_of_range reading.1 (by omega)
  rw [newTimeUs_eq inRange, value] at joined
  simp only [offsetAfter, adjustedTimeval, newTimeUs_eq inRange, value]
  simp only [slaveClock] at joined ⊢
  omega

variable [DecidableEq ι]

section WithTask

variable (net : Network ι) (slave : ι) (next : TxTask)
  (inbox : List (Packet ι))

@[simp] theorem withTask_now :
    (net.withTask slave next inbox).now = net.now := rfl

@[simp] theorem withTask_masterOffset :
    (net.withTask slave next inbox).masterOffset = net.masterOffset := rfl

@[simp] theorem withTask_slaves_self :
    (net.withTask slave next inbox).slaves slave =
      { net.slaves slave with task := next, inbox := inbox } :=
  setSlave_slaves_self net slave _

theorem withTask_slaves_of_ne {other : ι} (different : other ≠ slave) :
    (net.withTask slave next inbox).slaves other = net.slaves other :=
  setSlave_slaves_of_ne net slave _ different

@[simp] theorem withTask_slaveClock :
    (net.withTask slave next inbox).slaveClock slave = net.slaveClock slave := by
  simp [slaveClock]

@[simp] theorem withTask_exchangeOf (origin : Origin ι)
    (arrived answered : Nat) :
    (net.withTask slave next inbox).exchangeOf slave origin arrived answered =
      net.exchangeOf slave origin arrived answered := by
  simp [exchangeOf]

@[simp] theorem setClock_now (offset : Int) :
    (net.setClock slave offset).now = net.now := rfl

@[simp] theorem setClock_slaves_self (offset : Int) :
    (net.setClock slave offset).slaves slave =
      { net.slaves slave with offset := offset } :=
  setSlave_slaves_self net slave _

theorem setClock_slaves_of_ne (offset : Int) {other : ι}
    (different : other ≠ slave) :
    (net.setClock slave offset).slaves other = net.slaves other :=
  setSlave_slaves_of_ne net slave _ different

end WithTask

def requestPacket (net : Network ι) (slave : ι) : Packet ι :=
  { frame := requestFrame (toUInt64 (net.slaveClock slave))
    tag := .request
      { slave := slave, moment := net.now, reading := net.slaveClock slave } }

/-- The kinds of step of a slave in the network, with the events of each. -/
inductive SlaveMove (net : Network ι) (slave : ι) (heard : Option (Packet ι))
    (inbox : List (Packet ι)) (history : List (NetEvent ι)) :
    Network ι × List (NetEvent ι) → Prop
  | silent {next : TxTask}
      (calm : ∀ offset, ¬ (net.slaves slave).task.Adjusting offset)
      (calmNext : ∀ offset, ¬ next.Adjusting offset)
      (ready : next.Ready → (net.slaves slave).task.Ready)
      (synced : next.timeSynced = (net.slaves slave).task.timeSynced ∨
        (net.slaves slave).task.phase = .requestSent)
      (notSent : next.phase ≠ .requestSent) :
      SlaveMove net slave heard inbox history
        (net.withTask slave next inbox, [])
  | request {next : TxTask}
      (calm : ∀ offset, ¬ (net.slaves slave).task.Adjusting offset)
      (calmNext : ∀ offset, ¬ next.Adjusting offset)
      (ready : next.Ready → (net.slaves slave).task.Ready)
      (reading : Reading (net.slaveClock slave)) :
      SlaveMove net slave heard inbox history
        ((net.withTask slave next inbox).fromSlave slave
            (net.requestPacket slave),
          [.reading (net.slaveClock slave),
            .effect slave net.now
              (.timeRequest (requestFrame (toUInt64 (net.slaveClock slave))))])
  | timestamp {next : TxTask} {frame : Frame}
      (calm : ∀ offset, ¬ (net.slaves slave).task.Adjusting offset)
      (nextPhase : next.phase = .messageSent)
      (synced : next.timeSynced = (net.slaves slave).task.timeSynced)
      (ready : (net.slaves slave).task.Ready)
      (kind : frame.Is .timestamp sizeofLoraTimestampMsg)
      (stamp : readU64 frame.bytes 1 = toUInt64 (net.slaveClock slave))
      (reading : Reading (net.slaveClock slave)) :
      SlaveMove net slave heard inbox history
        ((net.withTask slave next inbox).fromSlave slave
            { frame := frame, tag := .other },
          [.reading (net.slaveClock slave),
            .effect slave net.now (.timestamp frame)])
  | adjusts {next : TxTask} {frame : Frame} {origin : Origin ι}
      {arrived answered : Nat}
      (calm : ∀ offset, ¬ (net.slaves slave).task.Adjusting offset)
      (hears : heard =
        some { frame := frame, tag := .response origin arrived answered })
      (received : origin.Received net.masterOffset history arrived answered)
      (past : answered ≤ net.now)
      (inRange : (net.exchangeOf slave origin arrived answered).InRange)
      (large : 10000 <
        |(net.exchangeOf slave origin arrived answered).estimate|)
      (nextPhase : next.Adjusting
        (net.exchangeOf slave origin arrived answered).estimate)
      (synced : next.timeSynced = (net.slaves slave).task.timeSynced)
      (content : frame.bytes =
        (net.exchangeOf slave origin arrived answered).response.toBytes) :
      SlaveMove net slave heard inbox history
        (net.withTask slave next inbox,
          [.reading (net.slaveClock slave),
            .effect slave net.now
              (.timeResponse frame (toUInt64 (net.slaveClock slave))),
            .exchange slave origin.slave
              (net.exchangeOf slave origin arrived answered)])
  | accepts {next : TxTask} {frame : Frame} {origin : Origin ι}
      {arrived answered : Nat}
      (calm : ∀ offset, ¬ (net.slaves slave).task.Adjusting offset)
      (hears : heard =
        some { frame := frame, tag := .response origin arrived answered })
      (received : origin.Received net.masterOffset history arrived answered)
      (past : answered ≤ net.now)
      (inRange : (net.exchangeOf slave origin arrived answered).InRange)
      (small : |(net.exchangeOf slave origin arrived answered).estimate| ≤
        10000)
      (nextPhase : next.phase = .message)
      (synced : next.timeSynced = true)
      (content : frame.bytes =
        (net.exchangeOf slave origin arrived answered).response.toBytes) :
      SlaveMove net slave heard inbox history
        (net.withTask slave next inbox,
          [.reading (net.slaveClock slave),
            .effect slave net.now
              (.timeResponse frame (toUInt64 (net.slaveClock slave))),
            .exchange slave origin.slave
              (net.exchangeOf slave origin arrived answered)])
  | sets {next : TxTask} {offset : Int} {tv : Timeval}
      (phase : (net.slaves slave).task.Adjusting offset)
      (nextPhase : next.phase = .message)
      (synced : next.timeSynced = true)
      (reading : Reading (net.slaveClock slave))
      (time : tv = adjustedTimeval
        (gettimeofday (toUInt64 (net.slaveClock slave))) offset) :
      SlaveMove net slave heard inbox history
        ((net.withTask slave next inbox).setClock slave (net.offsetAfter tv),
          [.reading (net.slaveClock slave),
            .effect slave net.now (.settimeofday tv),
            .clockSet slave (net.slaves slave).offset (net.offsetAfter tv)])

theorem performAll_singleton (net : Network ι) (slave : ι)
    (heard : Option (Packet ι)) (effect : TxEffect) :
    net.performAll slave heard [effect] =
      ((net.perform slave heard effect).1,
        .reading (net.slaveClock slave) :: .effect slave net.now effect ::
          (net.perform slave heard effect).2) := by
  simp [performAll]

theorem perform_timeRequest (net : Network ι) (slave : ι)
    (heard : Option (Packet ι)) (next : TxTask) (inbox : List (Packet ι)) :
    (net.withTask slave next inbox).perform slave heard
        (.timeRequest (requestFrame (toUInt64 (net.slaveClock slave)))) =
      ((net.withTask slave next inbox).fromSlave slave
        (net.requestPacket slave), []) := by
  simp [perform, requestPacket]

theorem perform_settimeofday (net : Network ι) (slave : ι)
    (heard : Option (Packet ι)) (next : TxTask) (inbox : List (Packet ι))
    (tv : Timeval) :
    (net.withTask slave next inbox).perform slave heard (.settimeofday tv) =
      ((net.withTask slave next inbox).setClock slave (net.offsetAfter tv),
        [.clockSet slave (net.slaves slave).offset (net.offsetAfter tv)]) := by
  simp [perform, offsetAfter]

theorem performAll_response (net : Network ι) (slave : ι) (content : Frame)
    (origin : Origin ι) (arrived answered : Nat) (clock : UInt64) :
    net.performAll slave
        (some { frame := content, tag := .response origin arrived answered })
        [.timeResponse content clock] =
      (net,
        [.reading (net.slaveClock slave),
          .effect slave net.now (.timeResponse content clock),
          .exchange slave origin.slave
            (net.exchangeOf slave origin arrived answered)]) := rfl

section SlaveStep

variable {net : Network ι} {slave : ι} {heard : Option (Packet ι)}
  {inbox : List (Packet ι)} {history : List (NetEvent ι)} {env : TaskEnv}

theorem slaveStep_move {masterOffset : Int}
    (genuine : net.Genuine masterOffset history)
    (taken : ∀ packet, heard = some packet →
      packet ∈ (net.slaves slave).inbox)
    (readable : ∀ event ∈ (net.slaveStep slave env heard inbox).2,
      event.Readable) :
    SlaveMove net slave heard inbox history
      (net.slaveStep slave env heard inbox) := by
  have move := TxTask.move (net.slaves slave).task
    (net.slaveEnv slave env heard)
  simp only [slaveStep] at readable ⊢
  generalize (net.slaves slave).task.step (net.slaveEnv slave env heard) =
    outcome at move readable ⊢
  cases move with
  | silent calm calmNext ready synced notSent =>
      exact .silent calm calmNext ready synced notSent
  | request calm calmNext ready =>
      simp only [performAll_singleton, slaveEnv_clock, withTask_slaveClock,
        perform_timeRequest] at readable ⊢
      exact .request calm calmNext ready (readable _ List.mem_cons_self)
  | timestamp calm nextPhase synced ready kind stamp =>
      simp only [performAll_singleton, withTask_slaveClock] at readable ⊢
      exact .timestamp calm nextPhase synced ready kind stamp
        (readable _ List.mem_cons_self)
  | adjusts calm kind frame large nextPhase synced =>
      simp only [performAll_singleton, withTask_slaveClock] at readable
      obtain ⟨content, origin, arrived, answered, rfl, received, past, inRange,
        offset, carries⟩ :=
        hears_response genuine taken (readable _ List.mem_cons_self) kind frame
      rw [slaveEnv_clock, offset] at large nextPhase
      simp only [slaveEnv_received, slaveEnv_clock, heardFrame_some,
        performAll_response, withTask_exchangeOf, withTask_slaveClock]
      exact .adjusts calm rfl received past inRange
        ((needsAdjustment_iff _).mp large) nextPhase synced carries
  | accepts calm kind frame small nextPhase synced =>
      simp only [performAll_singleton, withTask_slaveClock] at readable
      obtain ⟨content, origin, arrived, answered, rfl, received, past, inRange,
        offset, carries⟩ :=
        hears_response genuine taken (readable _ List.mem_cons_self) kind frame
      rw [slaveEnv_clock, offset] at small
      have keeps := mt (needsAdjustment_iff _).mpr (Bool.eq_false_iff.mp small)
      simp only [slaveEnv_received, slaveEnv_clock, heardFrame_some,
        performAll_response, withTask_exchangeOf, withTask_slaveClock]
      exact .accepts calm rfl received past inRange (not_lt.mp keeps) nextPhase
        synced carries
  | sets phase nextPhase synced =>
      simp only [performAll_singleton, withTask_slaveClock, slaveEnv_clock,
        perform_settimeofday] at readable ⊢
      exact .sets phase nextPhase synced (readable _ List.mem_cons_self) rfl

theorem SlaveMove.other {next : Network ι} {events : List (NetEvent ι)}
    (moved : SlaveMove net slave heard inbox history (next, events))
    {other : ι} (different : other ≠ slave) :
    (next.slaves other).task = (net.slaves other).task ∧
      (next.slaves other).offset = (net.slaves other).offset := by
  cases moved with
  | silent | adjusts | accepts =>
      rw [withTask_slaves_of_ne _ _ _ _ different]
      exact ⟨rfl, rfl⟩
  | request | timestamp =>
      rw [fromSlave_slaves_of_ne _ _ _ different,
        withTask_slaves_of_ne _ _ _ _ different]
      exact ⟨rfl, rfl⟩
  | sets =>
      rw [setClock_slaves_of_ne _ _ _ different,
        withTask_slaves_of_ne _ _ _ _ different]
      exact ⟨rfl, rfl⟩

theorem Genuine.slaveStep {masterOffset : Int}
    (genuine : net.Genuine masterOffset history)
    {next : Network ι} {events : List (NetEvent ι)}
    (rest : inbox ⊆ (net.slaves slave).inbox)
    (moved : SlaveMove net slave heard inbox history (next, events)) :
    next.Genuine masterOffset (history ++ events) := by
  have stepped (task : TxTask) : (net.withTask slave task inbox).Genuine
      masterOffset (history ++ events) :=
    (genuine.setSlave rest).mono (List.subset_append_left _ _)
  cases moved with
  | silent => exact stepped _
  | request calm calmNext ready reading =>
      refine (stepped _).fromSlave ⟨⟨?_, reading, le_rfl⟩, rfl⟩
      simp
  | timestamp calm nextPhase synced ready kind stamp reading =>
      refine (stepped _).fromSlave ⟨?_, ?_⟩
      · exact fun request => Frame.not_timestamp_of_request request kind
      · intro response
        exact absurd (response.1.symm.trans kind.1) (by decide)
  | adjusts => exact stepped _
  | accepts => exact stepped _
  | sets => exact (stepped _).setSlave (List.Subset.refl _)

end SlaveStep

inductive MasterMove (net : Network ι) (heard : Option (Packet ι))
    (inbox : List (Packet ι)) (history : List (NetEvent ι)) :
    Network ι × List (NetEvent ι) → Prop
  | accepts {next : RxTask} {origin : Origin ι} {frame : Frame}
      (phase : net.master.phase = .receive)
      (hears : heard = some { frame := frame, tag := .request origin })
      (stamped : origin.Stamped history net.now)
      (reading : Reading net.masterClock)
      (t1 : readU64 next.buf.toList 1 = toUInt64 origin.reading)
      (t2 : readU64 next.buf.toList 9 = toUInt64 net.masterClock) :
      MasterMove net heard inbox history
        (net.withMaster next (some (origin, net.now)) inbox,
          [.reading net.masterClock])
  | answers {next : RxTask} {origin : Origin ι} {arrived : Nat}
      (phase : net.master.phase = .respond)
      (nextPhase : next.phase = .receive)
      (serving : net.serving = some (origin, arrived))
      (received : origin.Received net.masterOffset history arrived net.now)
      (reading : Reading net.masterClock) :
      MasterMove net heard inbox history
        ((net.withMaster next none inbox).fromMaster
            { frame :=
                (origin.response net.masterOffset arrived net.now).toFrame
              tag := .response origin arrived net.now },
          [.reading net.masterClock])
  | ignores {next : RxTask}
      (phase : net.master.phase = .receive)
      (nextPhase : next.phase = .receive) :
      MasterMove net heard inbox history
        (net.withMaster next none inbox, [])

section MasterStep

variable {net : Network ι} {heard : Option (Packet ι)}
  {inbox : List (Packet ι)} {history : List (NetEvent ι)} {env : TaskEnv}

omit [DecidableEq ι]

theorem hears_request {masterOffset : Int}
    (genuine : net.Genuine masterOffset history)
    (taken : ∀ packet, heard = some packet → packet ∈ net.masterInbox)
    (request : (heardFrame heard).Is .timeRequest sizeofLoraTimeSyncMsg) :
    ∃ content origin,
      heard = some { frame := content, tag := .request origin } ∧
        origin.Stamped history net.now ∧
        content = requestFrame (toUInt64 origin.reading) := by
  cases heard with
  | none =>
      have size := request.1
      cases size
  | some packet =>
      have genuinePacket := genuine.masterInbox packet (taken packet rfl)
      obtain ⟨origin, tag, stamped, content⟩ :=
        genuinePacket.of_request request
      obtain ⟨frame, label⟩ := packet
      have label' : label = .request origin := tag
      exact ⟨frame, origin, by rw [label'], stamped, content⟩

theorem masterStep_move {masterOffset : Int}
    (genuine : net.Genuine masterOffset history)
    (taken : ∀ packet, heard = some packet → packet ∈ net.masterInbox)
    (readable : ∀ event ∈ (net.masterStep env heard inbox).2,
      event.Readable) :
    MasterMove net heard inbox history (net.masterStep env heard inbox) := by
  have move := RxTask.move net.master (net.masterEnv env heard)
  simp only [masterStep] at readable ⊢
  generalize net.master.step (net.masterEnv env heard) = outcome
    at move readable ⊢
  obtain ⟨next, effects⟩ := outcome
  simp only at move readable ⊢
  generalize effects.filterMap RxEffect.sentFrame = sent at move readable ⊢
  cases move with
  | accepts phase request nextPhase t1 t2 =>
      obtain ⟨content, origin, rfl, stamped, frame⟩ :=
        hears_request genuine taken request
      simp only [nextPhase, or_true, if_true, nextServing,
        List.foldl_nil] at readable ⊢
      refine .accepts phase rfl stamped (readable _ List.mem_cons_self) ?_ t2
      rw [t1]
      show readU64 content.bytes 1 = _
      rw [frame]
      exact readU64_requestFrame _
  | answers phase nextPhase =>
      obtain ⟨origin, arrived, serving, received, stamp1, stamp2⟩ :=
        genuine.serving phase
      rw [← genuine.constant] at received stamp2
      simp only [nextPhase, phase, true_or, if_true, nextServing, responseTag,
        serving, stamp1, stamp2, List.foldl_cons, List.foldl_nil]
        at readable ⊢
      exact .answers phase nextPhase serving received
        (readable _ List.mem_cons_self)
  | ignores phase nextPhase =>
      simp only [nextPhase, phase, nextServing, List.foldl_nil]
      exact .ignores phase nextPhase

theorem MasterMove.slave {next : Network ι} {events : List (NetEvent ι)}
    (moved : MasterMove net heard inbox history (next, events)) (slave : ι) :
    (next.slaves slave).task = (net.slaves slave).task ∧
      (next.slaves slave).offset = (net.slaves slave).offset := by
  cases moved with
  | accepts | answers | ignores => exact ⟨rfl, rfl⟩

/-- A master that waits for frames owes no answer. -/
theorem Genuine.withMaster {masterOffset : Int}
    (genuine : net.Genuine masterOffset history)
    (rest : inbox ⊆ net.masterInbox) {next : RxTask}
    (nextPhase : next.phase = .receive) {serving : Option (Origin ι × Nat)} :
    (net.withMaster next serving inbox).Genuine masterOffset history := by
  refine ⟨genuine.constant,
    fun packet member => genuine.masterInbox packet (rest member),
    genuine.inbox, ?_⟩
  intro phase
  exact absurd (nextPhase.symm.trans phase) (by decide)

theorem Genuine.masterStep {masterOffset : Int}
    (genuine : net.Genuine masterOffset history)
    {next : Network ι} {events : List (NetEvent ι)}
    (rest : inbox ⊆ net.masterInbox)
    (moved : MasterMove net heard inbox history (next, events)) :
    next.Genuine masterOffset (history ++ events) := by
  have later := genuine.mono (List.subset_append_left history events)
  cases moved with
  | accepts phase hears stamped reading t1 t2 =>
      refine ⟨later.constant,
        fun packet member => later.masterInbox packet (rest member),
        later.inbox, fun _ => ⟨_, _, rfl, ⟨?_, le_rfl, ?_⟩, t1, ?_⟩⟩
      · exact stamped.mono (List.subset_append_left _ _) le_rfl
      · rw [← genuine.constant]
        exact reading
      · rw [← genuine.constant]
        exact t2
  | answers phase nextPhase serving received reading =>
      simp only [masterClock] at reading
      rw [genuine.constant] at received reading ⊢
      refine (later.withMaster rest nextPhase).fromMaster ?_
      exact ⟨received.mono (List.subset_append_left _ _) le_rfl, le_rfl,
        reading, rfl⟩
  | ignores phase nextPhase => exact later.withMaster rest nextPhase


end MasterStep

omit [DecidableEq ι] in
theorem Initial.genuine {net : Network ι} (initial : net.Initial) :
    net.Genuine net.masterOffset [] := by
  refine ⟨rfl, ?_, ?_, ?_⟩
  · simp [initial.masterInbox]
  · simp [initial.inbox]
  · intro phase
    exact absurd (initial.master.symm.trans phase) (by decide)

inductive Step (net : Network ι) (history : List (NetEvent ι)) :
    Network ι × List (NetEvent ι) → Prop
  | elapse (micros : Nat) :
      Step net history ({ net with now := net.now + micros }, [])
  | slave {slave : ι} {heard : Option (Packet ι)} {inbox : List (Packet ι)}
      {outcome : Network ι × List (NetEvent ι)}
      (taken : (net.slaves slave).inbox.Perm (heard.toList ++ inbox))
      (moved : SlaveMove net slave heard inbox history outcome) :
      Step net history outcome
  | master {heard : Option (Packet ι)} {inbox : List (Packet ι)}
      {outcome : Network ι × List (NetEvent ι)}
      (taken : net.masterInbox.Perm (heard.toList ++ inbox))
      (moved : MasterMove net heard inbox history outcome) :
      Step net history outcome

theorem step_of_taken {net : Network ι} {masterOffset : Int}
    {history : List (NetEvent ι)}
    (genuine : net.Genuine masterOffset history)
    {action : NetAction ι} {next : Network ι} {events : List (NetEvent ι)}
    (taken : (loraNetwork ι).step net action = some (next, events))
    (readable : ∀ event ∈ events, event.Readable) :
    net.Step history (next, events) := by
  cases action with
  | elapse micros =>
      have outcome := Option.some.inj taken
      rw [← outcome]
      exact .elapse micros
  | slave slave choice env =>
      obtain ⟨⟨heard, inbox⟩, picked, outcome⟩ := Option.map_eq_some_iff.mp taken
      simp only at outcome
      have moved : SlaveMove net slave heard inbox history
          (net.slaveStep slave env heard inbox) :=
        slaveStep_move genuine (fun packet hears => mem_of_heard (hears ▸ picked))
          (by rw [outcome]; exact readable)
      rw [outcome] at moved
      exact .slave (takePacket_perm picked) moved
  | master choice env =>
      obtain ⟨⟨heard, inbox⟩, picked, outcome⟩ := Option.map_eq_some_iff.mp taken
      simp only at outcome
      have moved : MasterMove net heard inbox history
          (net.masterStep env heard inbox) :=
        masterStep_move genuine
          (fun packet hears => mem_of_heard (hears ▸ picked))
          (by rw [outcome]; exact readable)
      rw [outcome] at moved
      exact .master (takePacket_perm picked) moved

theorem Genuine.step {net : Network ι} {masterOffset : Int}
    {history : List (NetEvent ι)}
    (genuine : net.Genuine masterOffset history)
    {next : Network ι} {events : List (NetEvent ι)}
    (step : net.Step history (next, events)) :
    next.Genuine masterOffset (history ++ events) := by
  cases step with
  | elapse micros => simpa using genuine.elapse micros
  | slave taken moved =>
      refine genuine.slaveStep (fun packet member => ?_) moved
      exact taken.mem_iff.mpr (List.mem_append_right _ member)
  | master taken moved =>
      refine genuine.masterStep (fun packet member => ?_) moved
      exact taken.mem_iff.mpr (List.mem_append_right _ member)

/-- What every step of the network preserves, given genuine frames, holds after
every run. -/
theorem invariant_of_reaches {start net : Network ι} (initial : start.Initial)
    (admissible : NetEvent ι → Prop)
    (holds : List (NetEvent ι) → Network ι → Prop)
    (readings : ∀ event, admissible event → event.Readable)
    (atStart : holds [] start)
    (preserved : ∀ history net next events,
      (loraNetwork ι).Reaches start (history ++ events) next →
      net.Genuine start.masterOffset history → holds history net →
      net.Step history (next, events) →
      (∀ event ∈ events, admissible event) → holds (history ++ events) next)
    {history : List (NetEvent ι)}
    (reached : (loraNetwork ι).Reaches start history net)
    (allAdmissible : ∀ event ∈ history, admissible event) :
    holds history net := by
  refine (reached.invariantOfEvents admissible (fun history net =>
      net.Genuine start.masterOffset history ∧ holds history net)
    ⟨initial.genuine, atStart⟩ ?_ allAdmissible).2
  intro history net action next events earlier before taken fresh
  obtain ⟨genuine, kept⟩ := before
  have step := step_of_taken genuine taken
    (fun event member => readings event (fresh event member))
  exact ⟨genuine.step step,
    preserved history net next events (.step earlier taken) genuine kept step
      fresh⟩

end Network

end Lora32Mqtt
