import Lora32Mqtt.Base.Simulation
import Lora32Mqtt.Mqtt.Records
import Lora32Mqtt.Network.ClockAccuracy

/-!
# From the clock of a slave to the broker

The network of one master and any number of slaves, with what the master hands to
its MQTT client.  What is published has been sent by a slave before, at most as
often as it was sent, and with times that belong together.
-/

namespace Lora32Mqtt

variable {ι Client : Type}

structure Telemetry (ι : Type) where
  net : Network ι
  timeBuffer : TimeBuffer

inductive TelemetryEvent (ι Client : Type) where
  | radio (event : NetEvent ι)
  | published (publication : Publication Client)

/-- A step of `lora_rx_task`, with the calls of `mqtt_publish_data` in it. -/
def Telemetry.masterStep (client : Option Client) (system : Telemetry ι) (env : TaskEnv)
    (heard : Option (Packet ι)) (inbox : List (Packet ι)) :
    Telemetry ι × List (TelemetryEvent ι Client) :=
  let stepped := system.net.masterStep env heard inbox
  let master : MasterState := ⟨system.net.master, system.timeBuffer⟩
  let called := master.step client (system.net.masterEnv env heard)
  ({ net := stepped.1, timeBuffer := called.1.timeBuffer },
    stepped.2.map .radio ++
      (called.2.flatMap PublishState.published).map .published)

def telemetry (ι : Type) [DecidableEq ι] (client : Option Client) :
    Machine (Telemetry ι) (NetAction ι) (TelemetryEvent ι Client) where
  step system
    | .elapse micros =>
        some ({ system with net := { system.net with now := system.net.now + micros } }, [])
    | .slave slave choice env =>
        (takePacket (system.net.slaves slave).inbox choice).map fun taken =>
          let stepped := system.net.slaveStep slave env taken.1 taken.2
          ({ system with net := stepped.1 }, stepped.2.map .radio)
    | .master choice env =>
        (takePacket system.net.masterInbox choice).map fun taken =>
          system.masterStep client env taken.1 taken.2

def TelemetryEvent.onRadio : TelemetryEvent ι Client → List (NetEvent ι)
  | .radio event => [event]
  | .published _ => []

def radioOf (history : List (TelemetryEvent ι Client)) : List (NetEvent ι) :=
  history.flatMap TelemetryEvent.onRadio

theorem radioOf_append (history events : List (TelemetryEvent ι Client)) :
    radioOf (history ++ events) = radioOf history ++ radioOf events :=
  List.flatMap_append

theorem radioOf_radio (events : List (NetEvent ι)) :
    radioOf (events.map .radio : List (TelemetryEvent ι Client)) = events := by
  induction events with
  | nil => rfl
  | cons event events induction => exact congrArg _ induction

theorem radioOf_published (publications : List (Publication Client)) :
    radioOf (publications.map .published : List (TelemetryEvent ι Client)) = [] := by
  induction publications with
  | nil => rfl
  | cons publication publications induction => exact induction

/-- The client changes nothing on the radio. -/
theorem telemetry_simulates [DecidableEq ι] (client : Option Client) :
    Machine.Simulates (loraNetwork ι) (telemetry ι client)
      (fun system net => system.net = net) TelemetryEvent.onRadio := by
  rintro system _ action next events rfl taken
  suffices step : (loraNetwork ι).step system.net action =
      some (next.net, radioOf events) by
    refine ⟨next.net, ?_, rfl⟩
    have reached := Machine.Reaches.step .refl step
    rwa [List.nil_append] at reached
  cases action with
  | elapse micros =>
      obtain ⟨rfl, rfl⟩ := Prod.mk.inj (Option.some.inj taken)
      rfl
  | slave slave choice env =>
      obtain ⟨packet, took, same⟩ := Option.map_eq_some_iff.mp taken
      obtain ⟨rfl, rfl⟩ := Prod.mk.inj same
      rw [radioOf_radio]
      exact Option.map_eq_some_iff.mpr ⟨packet, took, rfl⟩
  | master choice env =>
      obtain ⟨packet, took, same⟩ := Option.map_eq_some_iff.mp taken
      obtain ⟨rfl, rfl⟩ := Prod.mk.inj same
      rw [radioOf_append, radioOf_radio, radioOf_published, List.append_nil]
      exact Option.map_eq_some_iff.mpr ⟨packet, took, rfl⟩

/-- The stamp of a frame as the formatter prints it. -/
def stampText (frame : Frame) : List UInt8 :=
  formartTimestampUs (readU64 frame.bytes 1)

def Publication.slaveTime (publication : Publication Client) : Option (List UInt8) :=
  match publication.data.bind (List.lookup "slave_time") with
  | some (.string text) => some text
  | _ => none

def NetEvent.stamped : NetEvent ι → Option Frame
  | .effect _ _ (.timestamp frame) => some frame
  | _ => none

def TelemetryEvent.slaveTime : TelemetryEvent ι Client → Option (List UInt8)
  | .published publication => publication.slaveTime
  | .radio _ => none

/-- The stamps that slaves send, as they should be printed. -/
def stampsSent (events : List (NetEvent ι)) : Multiset (List UInt8) :=
  (events.filterMap NetEvent.stamped).map stampText

def stampsPublished (history : List (TelemetryEvent ι Client)) :
    Multiset (List UInt8) :=
  history.filterMap TelemetryEvent.slaveTime

def Packet.stamp? (packet : Packet ι) : Option (List UInt8) :=
  if packet.frame.Is .timestamp sizeofLoraTimestampMsg then
    some (stampText packet.frame)
  else none

def stampsIn (packets : List (Packet ι)) : Multiset (List UInt8) :=
  packets.filterMap Packet.stamp?

theorem stampsSent_append (events later : List (NetEvent ι)) :
    stampsSent (events ++ later) = stampsSent events + stampsSent later := by
  simp [stampsSent]

theorem stampsPublished_append (history events : List (TelemetryEvent ι Client)) :
    stampsPublished (history ++ events) =
      stampsPublished history + stampsPublished events := by
  simp [stampsPublished]

theorem stampsPublished_radio (events : List (NetEvent ι)) :
    stampsPublished (events.map .radio : List (TelemetryEvent ι Client)) = 0 := by
  simp [stampsPublished, List.filterMap_map, Function.comp_def,
    TelemetryEvent.slaveTime]

theorem stampsIn_append (packets later : List (Packet ι)) :
    stampsIn (packets ++ later) = stampsIn packets + stampsIn later := by
  simp [stampsIn]

theorem stampsIn_of_perm {packets other : List (Packet ι)}
    (perm : packets.Perm other) : stampsIn packets = stampsIn other :=
  Multiset.coe_eq_coe.mpr (perm.filterMap _)

/-- What a step of a slave adds to the inbox of the master. -/
structure Network.Delivers (net next : Network ι) (slave : ι)
    (events : List (NetEvent ι)) (added : List (Packet ι)) : Prop where
  now : next.now = net.now
  constant : next.masterOffset = net.masterOffset
  inbox : next.masterInbox = net.masterInbox ++ added
  stamps : stampsIn added = stampsSent events
  sent : ∀ packet ∈ added, packet.frame.Is .timestamp sizeofLoraTimestampMsg →
    NetEvent.effect slave net.now (.timestamp packet.frame) ∈ events

theorem requestFrame_not_timestamp (clock : UInt64) :
    ¬ (requestFrame clock).Is .timestamp sizeofLoraTimestampMsg :=
  fun stamped => absurd stamped.2 (by simp [requestFrame, LoraTimeSyncMsg.toBytes,
    LoraMsgType.code])

theorem slaveStep_delivers [DecidableEq ι] (net : Network ι) (slave : ι)
    (env : TaskEnv) (heard : Option (Packet ι)) (inbox : List (Packet ι)) :
    ∃ added, net.Delivers (net.slaveStep slave env heard inbox).1 slave
      (net.slaveStep slave env heard inbox).2 added := by
  have move := TxTask.move (net.slaves slave).task (net.slaveEnv slave env heard)
  simp only [Network.slaveStep]
  generalize (net.slaves slave).task.step (net.slaveEnv slave env heard) = outcome
    at move ⊢
  have quiet {next : Network ι} {events : List (NetEvent ι)} (now : next.now = net.now)
      (constant : next.masterOffset = net.masterOffset)
      (same : next.masterInbox = net.masterInbox) (none : stampsSent events = 0) :
      ∃ added, net.Delivers next slave events added :=
    ⟨[], now, constant, by rw [same, List.append_nil], none.symm,
      List.forall_mem_nil _⟩
  cases move with
  | silent => exact quiet rfl rfl rfl rfl
  | request =>
      rw [Network.performAll_singleton]
      have other := requestFrame_not_timestamp (net.slaveEnv slave env heard).clock
      refine ⟨[_], rfl, rfl, rfl, ?_, ?_⟩
      · simp only [stampsIn, List.filterMap_cons, Packet.stamp?, if_neg other]
        rfl
      · intro packet member stamped
        obtain rfl := List.mem_singleton.mp member
        exact absurd stamped other
  | @timestamp next frame calm nextPhase synced ready kind stamp =>
      rw [Network.performAll_singleton]
      refine ⟨[_], rfl, rfl, rfl, ?_, ?_⟩
      · simp only [stampsIn, List.filterMap_cons, Packet.stamp?, if_pos kind]
        rfl
      · intro packet member _
        obtain rfl := List.mem_singleton.mp member
        exact List.mem_cons_of_mem _ List.mem_cons_self
  | adjusts | accepts =>
      rw [Network.performAll_singleton]
      refine quiet rfl rfl rfl ?_
      simp only [Network.perform]
      split <;> rfl
  | sets =>
      rw [Network.performAll_singleton]
      exact quiet rfl rfl rfl rfl

/-- A step of the master only empties its inbox. -/
structure Network.Takes (net next : Network ι) (events : List (NetEvent ι))
    (inbox : List (Packet ι)) : Prop where
  now : next.now = net.now
  constant : next.masterOffset = net.masterOffset
  inbox : next.masterInbox = inbox
  stamps : stampsSent events = 0

theorem Network.Takes.answers {net next : Network ι} {events : List (NetEvent ι)}
    {inbox : List (Packet ι)} (takes : net.Takes next events inbox) (tag : Tag ι)
    (sent : List Frame) :
    net.Takes (sent.foldl (fun heardBy frame =>
      heardBy.fromMaster { frame := frame, tag := tag }) next) events inbox := by
  induction sent generalizing next with
  | nil => exact takes
  | cons frame sent induction =>
      exact induction ⟨takes.now, takes.constant, takes.inbox, takes.stamps⟩

theorem masterStep_takes (net : Network ι) (env : TaskEnv)
    (heard : Option (Packet ι)) (inbox : List (Packet ι)) :
    net.Takes (net.masterStep env heard inbox).1 (net.masterStep env heard inbox).2
      inbox := by
  have silent : stampsSent (net.masterStep env heard inbox).2 = 0 := by
    simp only [Network.masterStep]
    split <;> rfl
  let called := net.master.step (net.masterEnv env heard)
  have stepped : net.Takes
      (net.withMaster called.1 (net.nextServing called.1.phase heard) inbox)
      (net.masterStep env heard inbox).2 inbox := ⟨rfl, rfl, rfl, silent⟩
  exact stepped.answers net.responseTag (called.2.filterMap RxEffect.sentFrame)

theorem masterStep_published (client : Client) (state : MasterState) (env : TaskEnv) :
    (state.step (some client) env).2.flatMap PublishState.published =
      if state.task.phase = .receive ∧
          env.received.Is .timestamp sizeofLoraTimestampMsg
      then [recordOf client 299 (stampText env.received) env.clock] else [] := by
  rw [state.step_published (some client) env]
  simp only [RxTask.step_wanted]
  split <;> rfl

theorem heard_of_stamp {heard : Option (Packet ι)}
    (stamped : (heardFrame heard).Is .timestamp sizeofLoraTimestampMsg) :
    ∃ packet, heard = some packet := by
  cases heard with
  | none => cases stamped.1
  | some packet => exact ⟨packet, rfl⟩

/-- A slave sent the frame at some time up to now. -/
def Frame.SentBefore (frame : Frame) (history : List (TelemetryEvent ι Client))
    (now : Nat) : Prop :=
  ∃ (slave : ι) (moment : Nat),
    .radio (.effect slave moment (.timestamp frame)) ∈ history ∧ moment ≤ now

theorem Frame.SentBefore.mono {frame : Frame}
    {history later : List (TelemetryEvent ι Client)} {now moment : Nat}
    (sent : frame.SentBefore history now) (grow : history ⊆ later)
    (order : now ≤ moment) : frame.SentBefore later moment := by
  obtain ⟨slave, past, member, before⟩ := sent
  exact ⟨slave, past, grow member, before.trans order⟩

/-- The record of a stamp that a slave sent before, with a later time of the
master. -/
def TelemetryEvent.Traced (client : Client) (masterOffset : Int)
    (past : List (TelemetryEvent ι Client)) : TelemetryEvent ι Client → Prop
  | .published publication =>
      ∃ (frame : Frame) (handled : Nat), frame.SentBefore past handled ∧
        publication = recordOf client 299 (stampText frame)
          (toUInt64 (handled + masterOffset))
  | .radio _ => True

/-- Nothing is published that was not sent, and what waits is not published yet. -/
structure Telemetry.Faithful (client : Client) (masterOffset : Int)
    (history : List (TelemetryEvent ι Client)) (system : Telemetry ι) : Prop where
  constant : system.net.masterOffset = masterOffset
  sent : ∀ packet ∈ system.net.masterInbox,
    packet.frame.Is .timestamp sizeofLoraTimestampMsg →
      packet.frame.SentBefore history system.net.now
  balance : stampsPublished history + stampsIn system.net.masterInbox ≤
    stampsSent (radioOf history)
  traced : Justified (TelemetryEvent.Traced client masterOffset) history

theorem traced_radio {client : Client} {masterOffset : Int}
    {history : List (TelemetryEvent ι Client)}
    (traced : Justified (TelemetryEvent.Traced client masterOffset) history)
    (events : List (NetEvent ι)) :
    Justified (TelemetryEvent.Traced client masterOffset)
      (history ++ events.map .radio) := by
  refine traced.append ?_
  intro past event future split
  have member : event ∈ (events.map .radio : List (TelemetryEvent ι Client)) := by
    rw [split]
    simp
  obtain ⟨radio, _, rfl⟩ := List.mem_map.mp member
  exact True.intro

namespace Telemetry.Faithful

variable {client : Client} {masterOffset : Int}
  {history : List (TelemetryEvent ι Client)} {system : Telemetry ι}

theorem elapse (faithful : Faithful client masterOffset history system)
    (micros : Nat) :
    Faithful client masterOffset history
      { system with net := { system.net with now := system.net.now + micros } } := by
  refine ⟨faithful.constant, ?_, faithful.balance, faithful.traced⟩
  intro packet member stamped
  exact (faithful.sent packet member stamped).mono (List.Subset.refl _)
    (Nat.le_add_right _ _)

theorem delivered {next : Network ι} {slave : ι} {events : List (NetEvent ι)}
    {added : List (Packet ι)}
    (faithful : Faithful client masterOffset history system)
    (delivers : system.net.Delivers next slave events added) :
    Faithful client masterOffset (history ++ events.map .radio)
      { system with net := next } := by
  refine ⟨delivers.constant.trans faithful.constant, ?_, ?_,
    traced_radio faithful.traced events⟩
  · intro packet member stamped
    rw [delivers.inbox] at member
    rw [delivers.now]
    rcases List.mem_append.mp member with old | new
    · exact (faithful.sent packet old stamped).mono (List.subset_append_left _ _) le_rfl
    · refine ⟨slave, system.net.now, List.mem_append_right _ ?_, le_rfl⟩
      exact List.mem_map_of_mem (delivers.sent packet new stamped)
  · calc stampsPublished (history ++ events.map .radio) + stampsIn next.masterInbox
        = stampsPublished history + stampsIn system.net.masterInbox +
            stampsSent events := by
          rw [stampsPublished_append, stampsPublished_radio, delivers.inbox,
            stampsIn_append, delivers.stamps, add_zero, add_assoc]
      _ ≤ stampsSent (radioOf history) + stampsSent events :=
          add_le_add_left faithful.balance _
      _ = stampsSent (radioOf (history ++ events.map .radio)) := by
          rw [radioOf_append, radioOf_radio, stampsSent_append]

/-- The publications of a step of the master have to be stamps that it took out of
its inbox. -/
theorem published {next : Telemetry ι} {events : List (NetEvent ι)}
    {heard : Option (Packet ι)} {inbox : List (Packet ι)}
    {publications : List (Publication Client)}
    (faithful : Faithful client masterOffset history system)
    (takes : system.net.Takes next.net events inbox)
    (taken : system.net.masterInbox.Perm (heard.toList ++ inbox))
    (fewer : stampsPublished
        (publications.map .published : List (TelemetryEvent ι Client)) ≤
      stampsIn heard.toList)
    (traced : Justified (TelemetryEvent.Traced client masterOffset)
      ((history ++ events.map .radio) ++ publications.map .published)) :
    Faithful client masterOffset
      (history ++ (events.map .radio ++ publications.map .published)) next := by
  refine ⟨takes.constant.trans faithful.constant, ?_, ?_, ?_⟩
  · intro packet member stamped
    rw [takes.inbox] at member
    rw [takes.now]
    have waited := taken.mem_iff.mpr (List.mem_append_right heard.toList member)
    exact (faithful.sent packet waited stamped).mono (List.subset_append_left _ _)
      le_rfl
  · rw [← List.append_assoc, stampsPublished_append, stampsPublished_append,
      stampsPublished_radio, radioOf_append, radioOf_append, radioOf_radio,
      radioOf_published, List.append_nil, stampsSent_append, takes.stamps, takes.inbox,
      add_zero, add_zero]
    calc stampsPublished history + stampsPublished (publications.map .published) +
          stampsIn inbox
        ≤ stampsPublished history + stampsIn heard.toList + stampsIn inbox := by
          gcongr
      _ = stampsPublished history + stampsIn system.net.masterInbox := by
          rw [stampsIn_of_perm taken, stampsIn_append, add_assoc]
      _ ≤ stampsSent (radioOf history) := faithful.balance
  · rw [← List.append_assoc]
    exact traced

theorem masterStep {heard : Option (Packet ι)} {inbox : List (Packet ι)}
    (faithful : Faithful client masterOffset history system)
    (taken : system.net.masterInbox.Perm (heard.toList ++ inbox)) (env : TaskEnv) :
    Faithful client masterOffset
      (history ++ (system.masterStep (some client) env heard inbox).2)
      (system.masterStep (some client) env heard inbox).1 := by
  refine faithful.published (masterStep_takes system.net env heard inbox) taken ?_ ?_
  · rw [masterStep_published]
    split
    next hears =>
      obtain ⟨packet, rfl⟩ := heard_of_stamp hears.2
      simp only [stampsIn, Option.toList_some, List.filterMap_cons, Packet.stamp?,
        if_pos (show packet.frame.Is _ _ from hears.2)]
      exact le_rfl
    · exact Multiset.zero_le _
  · rw [masterStep_published]
    have before := traced_radio faithful.traced (system.net.masterStep env heard inbox).2
    split
    next hears =>
      obtain ⟨packet, rfl⟩ := heard_of_stamp hears.2
      have waited := taken.mem_iff.mpr (List.mem_append_left inbox List.mem_cons_self)
      refine before.concat ⟨packet.frame, system.net.now, ?_, ?_⟩
      · exact (faithful.sent packet waited hears.2).mono (List.subset_append_left _ _)
          le_rfl
      · rw [← faithful.constant]
        rfl
    · exact (List.append_nil _).symm ▸ before

end Telemetry.Faithful

section Runs

variable [DecidableEq ι] {client : Client} {start system : Telemetry ι}
  {history : List (TelemetryEvent ι Client)}

theorem faithful_of_reaches (initial : start.net.Initial)
    (reached : (telemetry ι (some client)).Reaches start history system) :
    system.Faithful client start.net.masterOffset history := by
  induction reached with
  | refl =>
      refine ⟨rfl, ?_, ?_, .nil⟩
      · rw [initial.masterInbox]
        exact List.forall_mem_nil _
      · rw [initial.masterInbox]
        exact le_rfl
  | @step history events system next action _ taken faithful =>
      cases action with
      | elapse micros =>
          obtain ⟨rfl, rfl⟩ := Prod.mk.inj (Option.some.inj taken)
          rw [List.append_nil]
          exact faithful.elapse micros
      | slave slave choice env =>
          obtain ⟨packet, took, same⟩ := Option.map_eq_some_iff.mp taken
          obtain ⟨rfl, rfl⟩ := Prod.mk.inj same
          obtain ⟨added, delivers⟩ :=
            slaveStep_delivers system.net slave env packet.1 packet.2
          exact faithful.delivered delivers
      | master choice env =>
          obtain ⟨packet, took, same⟩ := Option.map_eq_some_iff.mp taken
          obtain ⟨rfl, rfl⟩ := Prod.mk.inj same
          exact faithful.masterStep (takePacket_perm took) env

/-- Every record is that of a stamp which a slave sent before, with a later time of
the master, and no stamp is published more often than it was sent. -/
theorem telemetry_faithful (initial : start.net.Initial)
    (reached : (telemetry ι (some client)).Reaches start history system) :
    Justified (TelemetryEvent.Traced client start.net.masterOffset) history ∧
      stampsPublished history ≤ stampsSent (radioOf history) := by
  have faithful := faithful_of_reaches initial reached
  refine ⟨faithful.traced, le_trans ?_ faithful.balance⟩
  exact le_add_of_nonneg_right (Multiset.zero_le _)

end Runs

def bootedStation : Telemetry Unit :=
  ⟨oneSlave, List.Vector.replicate timeBufferSize 0⟩

theorem bootedStation_initial : bootedStation.net.Initial :=
  ⟨rfl, rfl, rfl, fun _ => ⟨rfl, rfl, rfl⟩, fun _ => rfl⟩

/-- The first message, heard forty milliseconds after it was sent. -/
def firstRecord : List (NetAction Unit) :=
  firstMessage ++ [.elapse 40000, .master (some 0) sampleEnv]

theorem firstRecord_reaches :
    ∃ system, (telemetry Unit (some ())).Reaches bootedStation
      ((telemetry Unit (some ())).history bootedStation firstRecord) system :=
  Machine.exists_reaches (by decide +kernel)

theorem telemetry_faithful_firstRecord :
    let history := (telemetry Unit (some ())).history bootedStation firstRecord
    stampsPublished history = {asciiBytes "1969-12-31 21:00:15.081"} ∧
      stampsPublished history ≤ stampsSent (radioOf history) := by
  obtain ⟨system, reached⟩ := firstRecord_reaches
  exact ⟨by decide +kernel, (telemetry_faithful bootedStation_initial reached).2⟩

section OneSlave

variable {client : Client} {start system : Telemetry Unit}
  {history : List (TelemetryEvent Unit Client)} {bound : Int}

theorem mem_radioOf {event : NetEvent ι} {history : List (TelemetryEvent ι Client)}
    (member : .radio event ∈ history) : event ∈ radioOf history :=
  List.mem_flatMap.mpr ⟨_, member, List.mem_cons_self⟩

/-- With one slave, every record carries a stamp that was within
`(20001 + D) / 2` microseconds of the master clock when it was sent, and the
time of the master at a later moment. -/
theorem telemetry_accurate (initial : start.net.Initial)
    (reached : (telemetry Unit (some client)).Reaches start history system)
    (within : ∀ event ∈ radioOf history, event.WithinBounds bound)
    {publication : Publication Client} {past future : List (TelemetryEvent Unit Client)}
    (split : history = past ++ .published publication :: future) :
    ∃ (frame : Frame) (moment handled : Nat),
      .radio (.effect () moment (.timestamp frame)) ∈ past ∧ moment ≤ handled ∧
      publication = recordOf client 299 (formartTimestampUs (readU64 frame.bytes 1))
        (toUInt64 (handled + start.net.masterOffset)) ∧
      2 * |((readU64 frame.bytes 1).toNat : Int) -
        (moment + start.net.masterOffset)| ≤ 20001 + bound := by
  obtain ⟨frame, handled, ⟨_, moment, sent, order⟩, record⟩ :=
    (faithful_of_reaches initial reached).traced past _ future split
  obtain ⟨net, onRadio, rfl⟩ := (telemetry_simulates (some client)).reaches rfl reached
  have accurate := accurate_of_reaches initial onRadio within
  have member : .radio (.effect () moment (.timestamp frame)) ∈ history := by
    rw [split]
    exact List.mem_append_left _ sent
  exact ⟨frame, moment, handled, sent, order, record,
    accurate.stamps moment frame (mem_radioOf member)⟩

theorem telemetry_accurate_firstRecord :
    ∃ (publication : Publication Unit) (past future : List (TelemetryEvent Unit Unit)),
      (telemetry Unit (some ())).history bootedStation firstRecord =
        past ++ .published publication :: future ∧
      ∃ (frame : Frame) (moment handled : Nat),
        .radio (.effect () moment (.timestamp frame)) ∈ past ∧ moment ≤ handled ∧
        publication = recordOf () 299 (formartTimestampUs (readU64 frame.bytes 1))
          (toUInt64 (handled + 0)) ∧
        2 * |((readU64 frame.bytes 1).toNat : Int) - (moment + 0)| ≤ 20001 + 20000 := by
  obtain ⟨system, reached⟩ := firstRecord_reaches
  have within : ∀ event ∈
      radioOf ((telemetry Unit (some ())).history bootedStation firstRecord),
      event.WithinBounds 20000 := by
    decide +kernel
  have recorded : ∃ event ∈
      (telemetry Unit (some ())).history bootedStation firstRecord,
      event.slaveTime.isSome = true := by
    decide +kernel
  obtain ⟨event, member, text⟩ := recorded
  cases event with
  | radio event => cases text
  | published publication =>
      obtain ⟨past, future, split⟩ := List.append_of_mem member
      exact ⟨publication, past, future, split,
        telemetry_accurate bootedStation_initial reached within split⟩

end OneSlave

end Lora32Mqtt
