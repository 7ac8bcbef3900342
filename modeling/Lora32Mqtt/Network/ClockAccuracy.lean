import Lora32Mqtt.Network.Projection
import Lora32Mqtt.Network.Steps
import Mathlib.Algebra.Order.Group.Multiset
import Mathlib.Data.Multiset.Filter
import Mathlib.Tactic.Abel

/-!
# The clock of a single slave

With one slave, at most one request in flight is not yet overtaken by another,
and a response processed in time answers it, on the clock on which it was
stamped.  So a synchronised clock is close to the master's, and the timestamps
it puts on messages are close and in order.
-/

namespace Lora32Mqtt

def Packet.origin? {ι : Type} (packet : Packet ι) : Option (Origin ι) :=
  match packet.tag with
  | .request origin => some origin
  | .response origin _ _ => some origin
  | .other => none

def origins {ι : Type} (packets : List (Packet ι)) : Multiset (Origin ι) :=
  packets.filterMap Packet.origin?

theorem origins_append {ι : Type} (first second : List (Packet ι)) :
    origins (first ++ second) = origins first + origins second := by
  simp [origins]

theorem origins_of_perm {ι : Type} {first second : List (Packet ι)}
    (perm : first.Perm second) : origins first = origins second :=
  Multiset.coe_eq_coe.mpr (perm.filterMap _)

def served {ι : Type} (serving : Option (Origin ι × Nat)) :
    Multiset (Origin ι) :=
  serving.toList.map Prod.fst

@[simp] theorem served_none {ι : Type} :
    served (none : Option (Origin ι × Nat)) = 0 := rfl

/-- The requests in the master's inbox, the one it answers, and the responses on
their way back. -/
def Network.pending (net : Network Unit) : Multiset (Origin Unit) :=
  origins net.masterInbox + served net.serving +
    origins (net.slaves ()).inbox

/-- A request of the slave at a moment of the history. -/
def RequestedAt (history : List (NetEvent Unit)) (moment : Nat) : Prop :=
  ∃ frame, NetEvent.effect () moment (.timeRequest frame) ∈ history

/-- A later request was stamped, and not too soon after it. -/
def Origin.Stale (origin : Origin Unit) (history : List (NetEvent Unit)) :
    Prop :=
  ∃ moment, RequestedAt history moment ∧ origin.moment + 150000000 < moment

/-- The requests of a history and those of them still in flight. -/
structure Queue (history : List (NetEvent Unit)) (now : Nat)
    (pending : Multiset (Origin Unit)) : Prop where
  past : ∀ moment, RequestedAt history moment → moment ≤ now
  apart : ∀ early late, RequestedAt history early → RequestedAt history late →
    early < late → early + 150000000 < late
  asked : ∀ origin ∈ pending, RequestedAt history origin.moment
  distinct : (pending.map Origin.moment).Nodup

section Queue

variable {history events : List (NetEvent Unit)} {now later : Nat}
  {pending rest : Multiset (Origin Unit)} {origin : Origin Unit}

theorem RequestedAt.mono {moment : Nat} (requested : RequestedAt history moment)
    (events : List (NetEvent Unit)) :
    RequestedAt (history ++ events) moment :=
  let ⟨frame, member⟩ := requested
  ⟨frame, List.mem_append_left _ member⟩

theorem Origin.Stale.mono (stale : origin.Stale history)
    (events : List (NetEvent Unit)) : origin.Stale (history ++ events) :=
  let ⟨moment, requested, after⟩ := stale
  ⟨moment, requested.mono events, after⟩

theorem Queue.keep (queue : Queue history now pending)
    (noRequest : ∀ moment, ¬ RequestedAt events moment)
    (order : now ≤ later) (fewer : rest ≤ pending) :
    Queue (history ++ events) later rest := by
  have old : ∀ moment, RequestedAt (history ++ events) moment →
      RequestedAt history moment := by
    intro moment requested
    obtain ⟨frame, member⟩ := requested
    rcases List.mem_append.mp member with before | added
    · exact ⟨frame, before⟩
    · exact absurd ⟨frame, added⟩ (noRequest moment)
  refine ⟨?_, ?_, ?_, ?_⟩
  · intro moment requested
    exact (queue.past moment (old moment requested)).trans order
  · intro early late first second
    exact queue.apart early late (old _ first) (old _ second)
  · intro origin member
    exact (queue.asked origin (Multiset.mem_of_le fewer member)).mono events
  · exact Multiset.nodup_of_le (Multiset.map_le_map fewer) queue.distinct

/-- A new request overtakes everything that is in flight. -/
theorem Queue.request (queue : Queue history now pending)
    (added : RequestedAt events now)
    (only : ∀ moment, RequestedAt events moment → moment = now)
    (spaced : ∀ moment, RequestedAt history moment →
      moment + 150000000 < now)
    (moment : origin.moment = now) (fewer : rest ≤ origin ::ₘ pending) :
    Queue (history ++ events) now rest ∧
      ∀ other ∈ rest, other = origin ∨ other.Stale (history ++ events) := by
  have either : ∀ moment, RequestedAt (history ++ events) moment →
      RequestedAt history moment ∨ moment = now := by
    intro moment requested
    obtain ⟨frame, member⟩ := requested
    rcases List.mem_append.mp member with before | fresh
    · exact .inl ⟨frame, before⟩
    · exact .inr (only moment ⟨frame, fresh⟩)
  have requestedNow : RequestedAt (history ++ events) now :=
    let ⟨frame, member⟩ := added
    ⟨frame, List.mem_append_right _ member⟩
  refine ⟨⟨?_, ?_, ?_, ?_⟩, ?_⟩
  · intro moment requested
    rcases either moment requested with before | rfl
    · exact queue.past moment before
    · exact le_rfl
  · intro early late first second order
    rcases either early first with firstOld | rfl
    · rcases either late second with secondOld | rfl
      · exact queue.apart early late firstOld secondOld order
      · exact spaced early firstOld
    · rcases either late second with secondOld | rfl
      · have bound := queue.past late secondOld
        omega
      · omega
  · intro other member
    rcases Multiset.mem_cons.mp (Multiset.mem_of_le fewer member) with
      rfl | before
    · rw [moment]
      exact requestedNow
    · exact (queue.asked other before).mono events
  · refine Multiset.nodup_of_le (Multiset.map_le_map fewer) ?_
    rw [Multiset.map_cons, Multiset.nodup_cons]
    refine ⟨?_, queue.distinct⟩
    intro clash
    obtain ⟨other, member, same⟩ := Multiset.mem_map.mp clash
    have before := spaced _ (queue.asked other member)
    omega
  · intro other member
    rcases Multiset.mem_cons.mp (Multiset.mem_of_le fewer member) with
      rfl | before
    · exact .inl rfl
    · exact .inr ⟨now, requestedNow, spaced _ (queue.asked other before)⟩

/-- Once the answer to a request that nothing has overtaken is taken out, all
that is left has been overtaken. -/
theorem Queue.rest_stale (queue : Queue history now pending)
    (taken : origin ::ₘ rest ≤ pending) (fresh : ¬ origin.Stale history)
    {other : Origin Unit} (member : other ∈ rest) : other.Stale history := by
  have inside : origin ∈ pending :=
    Multiset.mem_of_le taken (Multiset.mem_cons_self _ _)
  have otherInside : other ∈ pending :=
    Multiset.mem_of_le taken (Multiset.mem_cons_of_mem member)
  have distinct := Multiset.nodup_of_le (Multiset.map_le_map taken)
    queue.distinct
  rw [Multiset.map_cons, Multiset.nodup_cons] at distinct
  have different : other.moment ≠ origin.moment := by
    intro same
    exact distinct.1 (same ▸ Multiset.mem_map_of_mem _ member)
  have asked := queue.asked origin inside
  have otherAsked := queue.asked other otherInside
  rcases Nat.lt_or_gt_of_ne different with earlier | later
  · exact ⟨origin.moment, asked, queue.apart _ _ otherAsked asked earlier⟩
  · exact absurd ⟨other.moment, otherAsked,
      queue.apart _ _ asked otherAsked later⟩ fresh

end Queue

namespace Network

variable {net next : Network Unit} {history events : List (NetEvent Unit)}
  {heard : Option (Packet Unit)} {inbox : List (Packet Unit)}

@[simp] theorem pending_setClock (slave : Unit) (offset : Int) :
    (net.setClock slave offset).pending = net.pending := by
  simp [pending, setClock]

theorem pending_withTask (task : TxTask)
    (taken : (net.slaves ()).inbox.Perm (heard.toList ++ inbox)) :
    origins heard.toList + (net.withTask () task inbox).pending =
      net.pending := by
  have split := origins_of_perm taken
  rw [origins_append] at split
  simp only [pending, withTask_slaves_self, split]
  simp only [withTask, setSlave_masterInbox, setSlave_serving]
  abel

theorem pending_fromSlave (packet : Packet Unit) :
    (net.fromSlave () packet).pending =
      origins [packet] + net.pending := by
  simp only [pending, fromSlave_slaves_self]
  simp only [fromSlave, origins_append]
  abel

theorem pending_withMaster (task : RxTask)
    (serving : Option (Origin Unit × Nat))
    (taken : net.masterInbox.Perm (heard.toList ++ inbox)) :
    origins heard.toList + served net.serving +
        (net.withMaster task serving inbox).pending =
      served serving + net.pending := by
  have split := origins_of_perm taken
  rw [origins_append] at split
  simp only [pending, withMaster, split]
  abel

theorem pending_fromMaster (packet : Packet Unit) :
    (net.fromMaster packet).pending = origins [packet] + net.pending := by
  simp only [pending, fromMaster, SlaveNode.hear, origins_append]
  abel

theorem MasterMove.pending_le
    (taken : net.masterInbox.Perm (heard.toList ++ inbox))
    (moved : MasterMove net heard inbox history (next, events)) :
    next.pending ≤ net.pending := by
  cases moved with
  | @accepts task origin frame phase hears stamped reading t1 t2 =>
      subst hears
      have balance := pending_withMaster task (some (origin, net.now)) taken
      have same : origins
          (some { frame := frame, tag := .request origin }).toList =
          served (some (origin, net.now)) := rfl
      rw [same, add_assoc] at balance
      exact (Multiset.le_add_left _ _).trans (add_left_cancel balance).le
  | @answers task origin arrived phase nextPhase serving received reading =>
      have balance := pending_withMaster task none taken
      rw [served_none, zero_add, serving, add_assoc] at balance
      rw [pending_fromMaster]
      exact (Multiset.le_add_left _ _).trans balance.le
  | @ignores task phase nextPhase =>
      have balance := pending_withMaster task none taken
      rw [served_none, zero_add] at balance
      exact (Multiset.le_add_left _ _).trans balance.le

end Network

/-- The conditions under which the clocks are compared: readings in range, and
exchanges of bounded asymmetry that are completed in time. -/
def NetEvent.WithinBounds (bound : Int) : NetEvent Unit → Prop
  | .reading value => Reading value
  | .exchange _ _ completed =>
      |completed.asymmetry| ≤ bound ∧
        completed.outward + completed.waiting + completed.back < 150000000
  | _ => True

instance (bound : Int) (event : NetEvent Unit) :
    Decidable (event.WithinBounds bound) :=
  match event with
  | .reading value => inferInstanceAs (Decidable (Reading value))
  | .exchange _ _ _ => inferInstanceAs (Decidable (_ ∧ _))
  | .effect _ _ _ | .clockSet _ _ _ => inferInstanceAs (Decidable True)

def NetEvent.timestampFrame : NetEvent Unit → Option Frame
  | .effect _ _ (.timestamp frame) => some frame
  | _ => none

/-- Distance of the timestamp in a frame from the master clock at a moment. -/
def stampError (masterOffset : Int) (moment : Nat) (frame : Frame) : Int :=
  (readU64 frame.bytes 1).toNat - (moment + masterOffset)

/-- What is known about the slave's clock. -/
structure Accurate (masterOffset bound : Int)
    (history : List (NetEvent Unit)) (net : Network Unit) : Prop where
  queue : Queue history net.now net.pending
  /-- The clock has not moved since the latest request was stamped. -/
  current : ∀ origin ∈ net.pending, origin.Stale history ∨
    origin.reading = origin.moment + (net.slaves ()).offset
  adjusting : ∀ estimate, (net.slaves ()).task.Adjusting estimate →
    (∃ completed : Exchange, estimate = completed.estimate ∧
      completed.InRange ∧ completed.after = completed.before ∧
      completed.after = masterOffset - (net.slaves ()).offset ∧
      |completed.asymmetry| ≤ bound) ∧
    ∀ origin ∈ net.pending, origin.Stale history
  synced : (net.slaves ()).task.Ready →
    2 * |masterOffset - (net.slaves ()).offset| ≤ 20001 + bound
  stamps : ∀ moment frame,
    NetEvent.effect () moment (.timestamp frame) ∈ history →
    2 * |stampError masterOffset moment frame| ≤ 20001 + bound

namespace Accurate

variable {masterOffset bound : Int} {net next : Network Unit}
  {history events : List (NetEvent Unit)}

theorem initial {start : Network Unit} (initial : start.Initial) :
    Accurate start.masterOffset bound [] start := by
  have empty : start.pending = 0 := by
    simp [Network.pending, initial.masterInbox, initial.serving, initial.inbox,
      origins]
  obtain ⟨phase, unsynced, _⟩ := initial.fresh ()
  refine ⟨⟨?_, ?_, ?_, ?_⟩, ?_, ?_, ?_, ?_⟩
  · simp [RequestedAt]
  · simp [RequestedAt]
  · simp [empty]
  · simp [empty]
  · simp [empty]
  · intro estimate adjusting
    exact absurd (phase.symm.trans adjusting) (by simp)
  · intro ready
    rcases ready with synced | sending
    · simp [unsynced] at synced
    · exact absurd (phase.symm.trans sending) (by simp)
  · simp

theorem current_of_le (accurate : Accurate masterOffset bound history net)
    {rest : Multiset (Origin Unit)} (fewer : rest ≤ net.pending)
    (events : List (NetEvent Unit)) {origin : Origin Unit}
    (member : origin ∈ rest) :
    origin.Stale (history ++ events) ∨
      origin.reading = origin.moment + (net.slaves ()).offset :=
  (accurate.current origin (Multiset.mem_of_le fewer member)).imp_left
    fun stale => stale.mono events

theorem stamps_append (accurate : Accurate masterOffset bound history net)
    (noStamp : ∀ moment frame,
      NetEvent.effect () moment (.timestamp frame) ∉ events)
    {moment : Nat} {frame : Frame}
    (member : NetEvent.effect () moment (.timestamp frame) ∈
      history ++ events) :
    2 * |stampError masterOffset moment frame| ≤ 20001 + bound := by
  rcases List.mem_append.mp member with before | added
  · exact accurate.stamps moment frame before
  · exact absurd added (noStamp moment frame)

theorem keep (accurate : Accurate masterOffset bound history net)
    (noRequest : ∀ moment, ¬ RequestedAt events moment)
    (noStamp : ∀ moment frame,
      NetEvent.effect () moment (.timestamp frame) ∉ events)
    (order : net.now ≤ next.now) (fewer : next.pending ≤ net.pending)
    (offset : (next.slaves ()).offset = (net.slaves ()).offset)
    (ready : (next.slaves ()).task.Ready → (net.slaves ()).task.Ready)
    (adjusting : ∀ estimate, (next.slaves ()).task.Adjusting estimate →
      (net.slaves ()).task.Adjusting estimate) :
    Accurate masterOffset bound (history ++ events) next := by
  refine ⟨accurate.queue.keep noRequest order fewer, ?_, ?_, ?_, ?_⟩
  · intro origin member
    rw [offset]
    exact accurate.current_of_le fewer events member
  · intro estimate pending
    rw [offset]
    obtain ⟨completed, allStale⟩ :=
      accurate.adjusting estimate (adjusting estimate pending)
    refine ⟨completed, fun origin member => ?_⟩
    exact (allStale origin (Multiset.mem_of_le fewer member)).mono events
  · rw [offset]
    exact fun isReady => accurate.synced (ready isReady)
  · exact fun moment frame => accurate.stamps_append noStamp

theorem stamp (accurate : Accurate masterOffset bound history net)
    {moment : Nat} {frame : Frame}
    (close : 2 * |stampError masterOffset moment frame| ≤ 20001 + bound) :
    Accurate masterOffset bound
      (history ++ [.effect () moment (.timestamp frame)]) net := by
  have noRequest : ∀ later, ¬ RequestedAt
      [NetEvent.effect () moment (.timestamp frame)] later := by
    simp [RequestedAt]
  refine ⟨accurate.queue.keep noRequest le_rfl le_rfl,
    fun origin => accurate.current_of_le le_rfl _, ?_, accurate.synced, ?_⟩
  · intro estimate pending
    obtain ⟨completed, allStale⟩ := accurate.adjusting estimate pending
    exact ⟨completed, fun origin member => (allStale origin member).mono _⟩
  · intro later other member
    rcases List.mem_append.mp member with before | added
    · exact accurate.stamps later other before
    · have same := List.mem_singleton.mp added
      simp only [NetEvent.effect.injEq, TxEffect.timestamp.injEq, true_and]
        at same
      rw [same.1, same.2]
      exact close

/-- The error of a stamp is the distance of the clocks. -/
theorem stampError_eq {frame : Frame}
    (reading : Reading (net.slaveClock ()))
    (stamp : readU64 frame.bytes 1 = toUInt64 (net.slaveClock ())) :
    |stampError masterOffset net.now frame| =
      |masterOffset - (net.slaves ()).offset| := by
  simp only [Reading] at reading
  have value := toUInt64_toNat_of_range reading.1 (by omega)
  simp only [stampError]
  rw [stamp, value, abs_sub_comm]
  simp only [Network.slaveClock]
  congr 1
  omega

/-- A response processed in time belongs to the latest request, whose stamp was
taken on the present clock; nothing else in flight does. -/
theorem completes (accurate : Accurate masterOffset bound history net)
    {frame : Frame} {origin : Origin Unit} {arrived answered : Nat}
    {inbox : List (Packet Unit)} (task : TxTask)
    (taken : (net.slaves ()).inbox.Perm
      ((some { frame := frame
               tag := .response origin arrived answered }).toList ++ inbox))
    (inTime : (net.exchangeOf () origin arrived answered).outward +
        (net.exchangeOf () origin arrived answered).waiting +
        (net.exchangeOf () origin arrived answered).back < 150000000) :
    (net.exchangeOf () origin arrived answered).after =
        (net.exchangeOf () origin arrived answered).before ∧
      (net.withTask () task inbox).pending ≤ net.pending ∧
      ∀ other ∈ (net.withTask () task inbox).pending,
        other.Stale history := by
  have balance := Network.pending_withTask task taken
  have consumed : origin ::ₘ (net.withTask () task inbox).pending ≤
      net.pending := balance.le
  have inside : origin ∈ net.pending :=
    Multiset.mem_of_le consumed (Multiset.mem_cons_self _ _)
  simp only [Network.exchangeOf] at inTime
  have fresh : ¬ origin.Stale history := by
    intro stale
    obtain ⟨moment, requested, after⟩ := stale
    have bound := accurate.queue.past moment requested
    omega
  refine ⟨?_, (Multiset.le_cons_self _ _).trans consumed, ?_⟩
  · rcases accurate.current origin inside with stale | reading
    · exact absurd stale fresh
    · simp only [Network.exchangeOf]
      omega
  · intro other member
    exact accurate.queue.rest_stale consumed fresh member

theorem step_request (accurate : Accurate masterOffset bound history net)
    {task : TxTask} {heard : Option (Packet Unit)}
    {inbox : List (Packet Unit)}
    (taken : (net.slaves ()).inbox.Perm (heard.toList ++ inbox))
    (calmNext : ∀ estimate, ¬ task.Adjusting estimate)
    (ready : task.Ready → (net.slaves ()).task.Ready)
    (spaced : ∀ moment, RequestedAt history moment →
      moment + 150000000 < net.now) :
    Accurate masterOffset bound
      (history ++ [.reading (net.slaveClock ()),
        .effect () net.now
          (.timeRequest (requestFrame (toUInt64 (net.slaveClock ()))))])
      ((net.withTask () task inbox).fromSlave () (net.requestPacket ())) := by
  have balance := Network.pending_withTask task taken
  have fewer : ((net.withTask () task inbox).fromSlave ()
      (net.requestPacket ())).pending ≤
        { slave := (), moment := net.now
          reading := net.slaveClock () } ::ₘ net.pending := by
    rw [Network.pending_fromSlave, ← balance]
    exact Multiset.cons_le_cons _ (Multiset.le_add_left _ _)
  obtain ⟨queue, overtaken⟩ := accurate.queue.request
    (show RequestedAt [.reading (net.slaveClock ()), .effect () net.now
      (.timeRequest (requestFrame (toUInt64 (net.slaveClock ()))))] net.now from
        ⟨_, List.mem_cons_of_mem _ List.mem_cons_self⟩)
    (by simp [RequestedAt]) spaced rfl fewer
  refine ⟨queue, ?_, ?_, ?_, ?_⟩
  · intro origin member
    rcases overtaken origin member with rfl | stale
    · right
      simp [Network.slaveClock]
    · exact .inl stale
  · intro estimate adjusting
    simp only [Network.fromSlave_slaves_self,
      Network.withTask_slaves_self] at adjusting
    exact absurd adjusting (calmNext estimate)
  · simp only [Network.fromSlave_slaves_self, Network.withTask_slaves_self]
    exact fun isReady => accurate.synced (ready isReady)
  · exact fun moment frame => accurate.stamps_append (by simp)

theorem step_timestamp (accurate : Accurate masterOffset bound history net)
    {task : TxTask} {frame : Frame} {heard : Option (Packet Unit)}
    {inbox : List (Packet Unit)}
    (taken : (net.slaves ()).inbox.Perm (heard.toList ++ inbox))
    (calmNext : ∀ estimate, ¬ task.Adjusting estimate)
    (readyNext : task.Ready → (net.slaves ()).task.Ready)
    (ready : (net.slaves ()).task.Ready)
    (stamp : readU64 frame.bytes 1 = toUInt64 (net.slaveClock ()))
    (reading : Reading (net.slaveClock ())) :
    Accurate masterOffset bound
      (history ++ [.reading (net.slaveClock ()),
        .effect () net.now (.timestamp frame)])
      ((net.withTask () task inbox).fromSlave ()
        { frame := frame, tag := .other }) := by
  have close := accurate.synced ready
  rw [← stampError_eq reading stamp] at close
  have fewer : ((net.withTask () task inbox).fromSlave ()
      { frame := frame, tag := .other }).pending ≤ net.pending := by
    rw [Network.pending_fromSlave, ← Network.pending_withTask task taken]
    exact add_le_add_left (Multiset.zero_le _) _
  have before : Accurate masterOffset bound
      (history ++ [.reading (net.slaveClock ())])
      ((net.withTask () task inbox).fromSlave ()
        { frame := frame, tag := .other }) := by
    refine accurate.keep (by simp [RequestedAt]) (by simp) le_rfl fewer ?_ ?_ ?_
    · simp
    · simpa using readyNext
    · simp only [Network.fromSlave_slaves_self, Network.withTask_slaves_self]
      exact fun estimate adjusting => absurd adjusting (calmNext estimate)
  have after := before.stamp close
  rwa [List.append_assoc] at after

theorem step_exchange (accurate : Accurate masterOffset bound history net)
    {task : TxTask} {frame : Frame} {origin : Origin Unit}
    {arrived answered : Nat} {inbox : List (Packet Unit)}
    (taken : (net.slaves ()).inbox.Perm
      ((some { frame := frame
               tag := .response origin arrived answered }).toList ++ inbox))
    (within : (NetEvent.exchange () origin.slave
      (net.exchangeOf () origin arrived answered)).WithinBounds bound)
    (constant : net.masterOffset = masterOffset)
    (inRange : (net.exchangeOf () origin arrived answered).InRange)
    (adjusting : ∀ estimate, task.Adjusting estimate →
      estimate = (net.exchangeOf () origin arrived answered).estimate)
    (synced : task.Ready → (net.slaves ()).task.Ready ∨
      |(net.exchangeOf () origin arrived answered).estimate| ≤ 10000) :
    Accurate masterOffset bound
      (history ++ [.reading (net.slaveClock ()),
        .effect () net.now (.timeResponse frame (toUInt64 (net.slaveClock ()))),
        .exchange () origin.slave
          (net.exchangeOf () origin arrived answered)])
      (net.withTask () task inbox) := by
  obtain ⟨unmoved, fewer, allStale⟩ := accurate.completes task taken within.2
  have after : (net.exchangeOf () origin arrived answered).after =
      masterOffset - (net.slaves ()).offset := by
    rw [← constant]
    rfl
  refine ⟨accurate.queue.keep (by simp [RequestedAt]) le_rfl fewer, ?_, ?_, ?_,
    fun moment frame => accurate.stamps_append (by simp)⟩
  · intro other member
    exact .inl ((allStale other member).mono _)
  · simp only [Network.withTask_slaves_self]
    intro estimate isAdjusting
    exact ⟨⟨_, adjusting estimate isAdjusting, inRange, unmoved, after,
      within.1⟩, fun other member => (allStale other member).mono _⟩
  · simp only [Network.withTask_slaves_self]
    intro isReady
    rcases synced isReady with before | small
    · exact accurate.synced before
    · have close := Exchange.offset_bound_of_estimate _ unmoved small
      rw [← unmoved, after] at close
      have asymmetry := within.1
      omega

theorem step_sets (accurate : Accurate masterOffset bound history net)
    {task : TxTask} {heard : Option (Packet Unit)}
    {inbox : List (Packet Unit)} {offset : Int} {tv : Timeval}
    (taken : (net.slaves ()).inbox.Perm (heard.toList ++ inbox))
    (phase : (net.slaves ()).task.Adjusting offset)
    (nextPhase : task.phase = .message)
    (reading : Reading (net.slaveClock ()))
    (time : tv = adjustedTimeval
      (gettimeofday (toUInt64 (net.slaveClock ()))) offset) :
    Accurate masterOffset bound
      (history ++ [.reading (net.slaveClock ()),
        .effect () net.now (.settimeofday tv),
        .clockSet () (net.slaves ()).offset (net.offsetAfter tv)])
      ((net.withTask () task inbox).setClock () (net.offsetAfter tv)) := by
  obtain ⟨⟨completed, rfl, inRange, unmoved, after, asymmetry⟩, allStale⟩ :=
    accurate.adjusting offset phase
  have balance := Network.pending_withTask task taken
  have fewer : ((net.withTask () task inbox).setClock ()
      (net.offsetAfter tv)).pending ≤ net.pending := by
    rw [Network.pending_setClock]
    exact (Multiset.le_add_left _ _).trans balance.le
  have moved : net.offsetAfter tv =
      (net.slaves ()).offset + completed.estimate := by
    rw [time]
    exact Network.offsetAfter_adjusted
      (Exchange.newTimeInRange_estimate inRange reading) reading
  refine ⟨accurate.queue.keep (by simp [RequestedAt]) le_rfl fewer, ?_, ?_, ?_,
    fun moment frame => accurate.stamps_append (by simp)⟩
  · intro other member
    exact .inl ((allStale other (Multiset.mem_of_le fewer member)).mono _)
  · simp only [Network.setClock_slaves_self, Network.withTask_slaves_self]
    intro estimate adjusting
    exact absurd (nextPhase.symm.trans adjusting) (by simp)
  · simp only [Network.setClock_slaves_self, moved]
    intro _
    have close := completed.residual_bound_of_unmoved unmoved
    have left : masterOffset -
        ((net.slaves ()).offset + completed.estimate) =
          completed.after - completed.estimate := by
      rw [after]
      omega
    rw [left]
    omega

theorem slaveStep (accurate : Accurate masterOffset bound history net)
    (genuine : net.Genuine masterOffset history)
    {heard : Option (Packet Unit)} {inbox : List (Packet Unit)}
    (taken : (net.slaves ()).inbox.Perm (heard.toList ++ inbox))
    (moved : Network.SlaveMove net () heard inbox history (next, events))
    (within : ∀ event ∈ events, event.WithinBounds bound)
    (spaced : ∀ moment, RequestedAt events net.now →
      RequestedAt history moment → moment + 150000000 < net.now) :
    Accurate masterOffset bound (history ++ events) next := by
  have fewer (task : TxTask) :
      (net.withTask () task inbox).pending ≤ net.pending :=
    (Multiset.le_add_left _ _).trans (Network.pending_withTask task taken).le
  cases moved with
  | silent calm calmNext ready synced notSent =>
      refine accurate.keep (by simp [RequestedAt]) (by simp) le_rfl (fewer _)
        ?_ ?_ ?_
      · simp
      · simpa using ready
      · simp only [Network.withTask_slaves_self]
        exact fun estimate adjusting => absurd adjusting (calmNext estimate)
  | request calm calmNext ready reading =>
      refine accurate.step_request taken calmNext ready fun moment => ?_
      exact spaced moment ⟨_, List.mem_cons_of_mem _ List.mem_cons_self⟩
  | timestamp calm nextPhase synced ready kind stamp reading =>
      exact accurate.step_timestamp taken
        (TxTask.not_adjusting nextPhase (by simp))
        (.of_synced synced (by simp [nextPhase])) ready stamp reading
  | adjusts calm hears received past inRange large nextPhase synced =>
      subst hears
      refine accurate.step_exchange taken
        (within _ (by simp)) genuine.constant inRange
        (fun estimate adjusting => adjusting.injective nextPhase) ?_
      intro ready
      refine .inl (.of_synced synced ?_ ready)
      intro sending
      exact absurd (nextPhase.symm.trans sending) (by simp)
  | accepts calm hears received past inRange small nextPhase synced =>
      subst hears
      refine accurate.step_exchange taken
        (within _ (by simp)) genuine.constant inRange ?_ (fun _ => .inr small)
      intro estimate adjusting
      exact absurd (nextPhase.symm.trans adjusting) (by simp)
  | sets phase nextPhase synced reading time =>
      exact accurate.step_sets taken phase nextPhase reading time

theorem masterStep (accurate : Accurate masterOffset bound history net)
    {heard : Option (Packet Unit)} {inbox : List (Packet Unit)}
    (taken : net.masterInbox.Perm (heard.toList ++ inbox))
    (moved : Network.MasterMove net heard inbox history (next, events)) :
    Accurate masterOffset bound (history ++ events) next := by
  obtain ⟨taskEq, offsetEq⟩ := moved.slave ()
  have fewer := moved.pending_le taken
  have readings : ∀ event ∈ events, ∃ value,
      event = NetEvent.reading value := by
    cases moved <;> simp
  have order : net.now ≤ next.now := by
    cases moved <;> exact le_rfl
  refine accurate.keep ?_ ?_ order fewer offsetEq (by rw [taskEq]; exact id)
    (by rw [taskEq]; exact fun _ => id)
  · intro moment requested
    obtain ⟨frame, member⟩ := requested
    obtain ⟨value, equality⟩ := readings _ member
    cases equality
  · intro moment frame member
    obtain ⟨value, equality⟩ := readings _ member
    cases equality

theorem step (accurate : Accurate masterOffset bound history net)
    (genuine : net.Genuine masterOffset history)
    (step : net.Step history (next, events))
    (within : ∀ event ∈ events, event.WithinBounds bound)
    (spaced : ∀ moment, RequestedAt events net.now →
      RequestedAt history moment → moment + 150000000 < net.now) :
    Accurate masterOffset bound (history ++ events) next := by
  cases step with
  | elapse micros =>
      exact accurate.keep (by simp [RequestedAt]) (by simp)
        (Nat.le_add_right _ _) le_rfl rfl id (fun _ => id)
  | slave taken moved =>
      exact accurate.slaveStep genuine taken moved within spaced
  | master taken moved => exact accurate.masterStep taken moved

end Accurate

section Runs

variable {bound : Int} {start net : Network Unit}
  {history : List (NetEvent Unit)}

theorem accurate_of_reaches (initial : start.Initial)
    (reached : (loraNetwork Unit).Reaches start history net)
    (within : ∀ event ∈ history, event.WithinBounds bound) :
    Accurate start.masterOffset bound history net := by
  refine Network.invariant_of_reaches initial (NetEvent.WithinBounds bound)
    (Accurate start.masterOffset bound) ?_ (Accurate.initial initial) ?_ reached
    within
  · intro event isWithin
    cases event with
    | reading value => exact isWithin
    | effect | exchange | clockSet => trivial
  · intro history net next events extended genuine accurate step fresh
    refine accurate.step genuine step fresh ?_
    intro moment requested earlier
    obtain ⟨late, isRequest⟩ := requested
    obtain ⟨early, member⟩ := earlier
    obtain ⟨before, after, split⟩ := List.append_of_mem isRequest
    have whole : history ++ events =
        (history ++ before) ++
          .effect () net.now (.timeRequest late) :: after := by
      rw [split, List.append_assoc]
    exact Network.requests_spaced initial extended whole rfl
      (List.mem_append_left before member) rfl

/-- Each timestamp is within `(20001 + D) / 2` microseconds of the master clock.
Two of them are as far apart as the moments at which they were taken, up to
`20001 + D` microseconds, and in order as long as `D` stays below 4.98 s. -/
theorem timestamps_follow_master (initial : start.Initial)
    (reached : (loraNetwork Unit).Reaches start history net)
    (within : ∀ event ∈ history, event.WithinBounds bound) :
    (∀ moment frame,
      NetEvent.effect () moment (.timestamp frame) ∈ history →
        2 * |((readU64 frame.bytes 1).toNat : Int) -
          (moment + start.masterOffset)| ≤ 20001 + bound) ∧
    ∀ past (early : Nat) first between (late : Nat) second future,
      history = past ++ .effect () early (.timestamp first) ::
        (between ++ .effect () late (.timestamp second) :: future) →
      |(((readU64 second.bytes 1).toNat : Int) -
          (readU64 first.bytes 1).toNat) - ((late : Int) - early)| ≤
        20001 + bound ∧
      (20001 + bound ≤ 5000000 →
        (readU64 first.bytes 1).toNat < (readU64 second.bytes 1).toNat) := by
  have stamps := (accurate_of_reaches initial reached within).stamps
  refine ⟨stamps, ?_⟩
  intro past early first between late second future split
  have apart : early + 5000000 < late :=
    Network.timestamps_spaced initial reached
      (show history = (past ++ .effect () early (.timestamp first) :: between) ++
        .effect () late (.timestamp second) :: future by rw [split]; simp) rfl
      (show .effect () early (.timestamp first) ∈
        past ++ .effect () early (.timestamp first) :: between by simp) rfl
  have firstError := stamps early first (by rw [split]; simp)
  have secondError := stamps late second (by rw [split]; simp)
  simp only [stampError] at firstError secondError
  have firstBounds := abs_le.mp
    (show |((readU64 first.bytes 1).toNat : Int) -
      (early + start.masterOffset)| ≤ (20001 + bound) / 2 by omega)
  have secondBounds := abs_le.mp
    (show |((readU64 second.bytes 1).toNat : Int) -
      (late + start.masterOffset)| ≤ (20001 + bound) / 2 by omega)
  constructor
  · exact abs_le.mpr ⟨by omega, by omega⟩
  · intro small
    omega

end Runs

def oneSlave : Network Unit :=
  { now := 10000000
    masterOffset := 0
    master := { phase := .receive, buf := List.Vector.replicate 256 0 }
    serving := none
    masterInbox := []
    slaves := fun _ =>
      { task := sampleTxTask, offset := -5000000, tickPhase := 0
        inbox := [] } }

/-- Request, slow answer, correction, and a message five seconds later. -/
def firstMessage : List (NetAction Unit) :=
  [.slave () none sampleEnv, .elapse 30000, .master (some 0) sampleEnv,
    .elapse 1000, .master none sampleEnv, .elapse 50000,
    .slave () none sampleEnv, .slave () none sampleEnv,
    .slave () (some 0) sampleEnv, .slave () none sampleEnv,
    .elapse 5010000, .slave () none sampleEnv, .slave () none sampleEnv]

theorem timestamps_follow_master_firstMessage :
    let history := (loraNetwork Unit).history oneSlave firstMessage
    (∃ moment frame,
      NetEvent.effect () moment (.timestamp frame) ∈ history ∧
        2 * |((readU64 frame.bytes 1).toNat : Int) - (moment + 0)| ≤
          20001 + 20000) := by
  obtain ⟨net, reached⟩ := Machine.exists_reaches
    (show ((loraNetwork Unit).run oneSlave firstMessage).isSome = true by
      decide +kernel)
  have within : ∀ event ∈ (loraNetwork Unit).history oneSlave firstMessage,
      event.WithinBounds 20000 := by
    decide +kernel
  have accurate := (timestamps_follow_master ⟨rfl, rfl, rfl,
    fun _ => ⟨rfl, rfl, rfl⟩, fun _ => rfl⟩ reached within).1
  refine ⟨15091000, _, ?_, accurate 15091000
    (((((loraNetwork Unit).history oneSlave firstMessage)).filterMap
      NetEvent.timestampFrame).headD silence) ?_⟩
  · decide +kernel
  · decide +kernel

end Lora32Mqtt
