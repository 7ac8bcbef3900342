import Lora32Mqtt.Lora.CorrectionBounds
import Lora32Mqtt.Network.Moves

/-!
# Frames in flight carry the stamps of their tags

Nothing is forged on the channel, so a response in an inbox contains the T1
reading of the slave that asked and the two readings of the master; the exchange
built from its tag is the one the frame describes.
-/

namespace Lora32Mqtt

variable {ι : Type}

structure Origin.Stamped (origin : Origin ι) (history : List (NetEvent ι))
    (now : Nat) : Prop where
  sent : NetEvent.effect origin.slave origin.moment
    (.timeRequest (requestFrame (toUInt64 origin.reading))) ∈ history
  reading : Reading origin.reading
  past : origin.moment ≤ now

structure Origin.Received (origin : Origin ι) (masterOffset : Int)
    (history : List (NetEvent ι)) (arrived now : Nat) : Prop where
  stamped : origin.Stamped history arrived
  past : arrived ≤ now
  reading : Reading (arrived + masterOffset)

def Origin.response (origin : Origin ι) (masterOffset : Int)
    (arrived answered : Nat) : LoraTimeSyncMsg :=
  { msgType := LoraMsgType.timeResponse.code
    t1 := toUInt64 origin.reading
    t2 := toUInt64 (arrived + masterOffset)
    t3 := toUInt64 (answered + masterOffset)
    t4 := 0 }

/-- The frame is what its tag says. -/
def Packet.Genuine (packet : Packet ι) (masterOffset : Int)
    (history : List (NetEvent ι)) (now : Nat) : Prop :=
  match packet.tag with
  | .request origin =>
      origin.Stamped history now ∧
        packet.frame = requestFrame (toUInt64 origin.reading)
  | .response origin arrived answered =>
      origin.Received masterOffset history arrived answered ∧
        answered ≤ now ∧ Reading (answered + masterOffset) ∧
        packet.frame =
          (origin.response masterOffset arrived answered).toFrame
  | .other =>
      ¬ packet.frame.Is .timeRequest sizeofLoraTimeSyncMsg ∧
        ¬ packet.frame.Is .timeResponse sizeofLoraTimeSyncMsg

section Growth

variable {history later : List (NetEvent ι)} {now moment : Nat}
  {masterOffset : Int}

theorem Origin.Stamped.mono {origin : Origin ι}
    (stamped : origin.Stamped history now) (grow : history ⊆ later)
    (order : now ≤ moment) : origin.Stamped later moment :=
  ⟨grow stamped.sent, stamped.reading, stamped.past.trans order⟩

theorem Origin.Received.mono {origin : Origin ι} {arrived : Nat}
    (received : origin.Received masterOffset history arrived now)
    (grow : history ⊆ later) (order : now ≤ moment) :
    origin.Received masterOffset later arrived moment :=
  ⟨received.stamped.mono grow le_rfl, received.past.trans order,
    received.reading⟩

theorem Packet.Genuine.mono {packet : Packet ι}
    (genuine : packet.Genuine masterOffset history now)
    (grow : history ⊆ later) (order : now ≤ moment) :
    packet.Genuine masterOffset later moment := by
  obtain ⟨frame, tag⟩ := packet
  cases tag with
  | request origin => exact ⟨genuine.1.mono grow order, genuine.2⟩
  | response origin arrived answered =>
      exact ⟨genuine.1.mono grow le_rfl, genuine.2.1.trans order, genuine.2.2⟩
  | other => exact genuine

end Growth

theorem requestFrame_not_response (clock : UInt64) :
    ¬ (requestFrame clock).Is .timeResponse sizeofLoraTimeSyncMsg :=
  fun both => absurd both.2 (by simp [requestFrame, LoraTimeSyncMsg.toBytes,
    LoraMsgType.code])

theorem response_not_request {response : LoraTimeSyncMsg}
    (kind : response.msgType = LoraMsgType.timeResponse.code) :
    ¬ response.toFrame.Is .timeRequest sizeofLoraTimeSyncMsg := by
  intro response
  obtain ⟨_, code⟩ := response
  have same : response.msgType = LoraMsgType.timeRequest.code := code
  rw [kind] at same
  revert same
  decide

theorem Packet.Genuine.of_response {packet : Packet ι} {masterOffset : Int}
    {history : List (NetEvent ι)} {now : Nat}
    (genuine : packet.Genuine masterOffset history now)
    {response : LoraTimeSyncMsg}
    (kind : response.msgType = LoraMsgType.timeResponse.code)
    (frame : packet.frame.bytes = response.toBytes) :
    ∃ origin arrived answered,
      packet.tag = .response origin arrived answered ∧
        origin.Received masterOffset history arrived answered ∧
        answered ≤ now ∧ Reading (answered + masterOffset) ∧
        response = origin.response masterOffset arrived answered := by
  have isResponse : packet.frame.Is .timeResponse sizeofLoraTimeSyncMsg :=
    ⟨by rw [frame]; exact response.length_toBytes, by rw [frame]; exact kind⟩
  obtain ⟨content, tag⟩ := packet
  cases tag with
  | request origin =>
      obtain ⟨_, rfl⟩ := genuine
      exact absurd isResponse (requestFrame_not_response _)
  | response origin arrived answered =>
      obtain ⟨received, past, reading, rfl⟩ := genuine
      refine ⟨origin, arrived, answered, rfl, received, past, reading, ?_⟩
      have same := congrArg LoraTimeSyncMsg.ofBytes frame
      have left := LoraTimeSyncMsg.ofBytes_toBytes_append
        (origin.response masterOffset arrived answered) []
      have right := LoraTimeSyncMsg.ofBytes_toBytes_append response []
      rw [List.append_nil] at left right
      rw [LoraTimeSyncMsg.toFrame_bytes, left, right] at same
      exact same.symm
  | other => exact absurd isResponse genuine.2

theorem readU64_requestFrame (clock : UInt64) :
    readU64 (requestFrame clock).bytes 1 = clock :=
  readU64_field [LoraMsgType.timeRequest.code]
    (u64Bytes 0 ++ (u64Bytes 0 ++ u64Bytes 0)) rfl rfl

theorem Packet.Genuine.of_request {packet : Packet ι} {masterOffset : Int}
    {history : List (NetEvent ι)} {now : Nat}
    (genuine : packet.Genuine masterOffset history now)
    (isRequest : packet.frame.Is .timeRequest sizeofLoraTimeSyncMsg) :
    ∃ origin, packet.tag = .request origin ∧ origin.Stamped history now ∧
      packet.frame = requestFrame (toUInt64 origin.reading) := by
  obtain ⟨content, tag⟩ := packet
  cases tag with
  | request origin => exact ⟨origin, rfl, genuine⟩
  | response origin arrived answered =>
      obtain ⟨_, _, _, rfl⟩ := genuine
      exact absurd isRequest (response_not_request rfl)
  | other => exact absurd isRequest genuine.1

namespace Network

section Operations

variable [DecidableEq ι] (net : Network ι) (slave : ι) (node : SlaveNode ι)
  (packet : Packet ι)

@[simp] theorem setSlave_serving :
    (net.setSlave slave node).serving = net.serving := rfl

@[simp] theorem setSlave_masterInbox :
    (net.setSlave slave node).masterInbox = net.masterInbox := rfl

@[simp] theorem setSlave_slaves_self :
    (net.setSlave slave node).slaves slave = node := by
  simp [setSlave]

theorem setSlave_slaves_of_ne {other : ι} (different : other ≠ slave) :
    (net.setSlave slave node).slaves other = net.slaves other := by
  simp [setSlave, different]

@[simp] theorem fromSlave_slaves_self :
    (net.fromSlave slave packet).slaves slave = net.slaves slave := by
  simp [fromSlave]

theorem fromSlave_slaves_of_ne {other : ι} (different : other ≠ slave) :
    (net.fromSlave slave packet).slaves other =
      (net.slaves other).hear packet := by
  simp [fromSlave, different]

end Operations

structure Genuine (net : Network ι) (masterOffset : Int)
    (history : List (NetEvent ι)) : Prop where
  constant : net.masterOffset = masterOffset
  masterInbox : ∀ packet ∈ net.masterInbox,
    packet.Genuine masterOffset history net.now
  inbox : ∀ slave, ∀ packet ∈ (net.slaves slave).inbox,
    packet.Genuine masterOffset history net.now
  serving : net.master.phase = .respond →
    ∃ origin arrived, net.serving = some (origin, arrived) ∧
      origin.Received masterOffset history arrived net.now ∧
      readU64 net.master.buf.toList 1 = toUInt64 origin.reading ∧
      readU64 net.master.buf.toList 9 = toUInt64 (arrived + masterOffset)

namespace Genuine

variable {net : Network ι} {masterOffset : Int}
  {history : List (NetEvent ι)}

theorem mono {later : List (NetEvent ι)}
    (genuine : net.Genuine masterOffset history) (grow : history ⊆ later) :
    net.Genuine masterOffset later := by
  refine ⟨genuine.constant, ?_, ?_, ?_⟩
  · intro packet member
    exact (genuine.masterInbox packet member).mono grow le_rfl
  · intro slave packet member
    exact (genuine.inbox slave packet member).mono grow le_rfl
  · intro phase
    obtain ⟨origin, arrived, serving, received, stamps⟩ := genuine.serving phase
    exact ⟨origin, arrived, serving, received.mono grow le_rfl, stamps⟩

theorem elapse (genuine : net.Genuine masterOffset history) (micros : Nat) :
    ({ net with now := net.now + micros } : Network ι).Genuine masterOffset
      history := by
  have order : net.now ≤ net.now + micros := Nat.le_add_right _ _
  refine ⟨genuine.constant, ?_, ?_, ?_⟩
  · intro packet member
    exact (genuine.masterInbox packet member).mono (List.Subset.refl _) order
  · intro slave packet member
    exact (genuine.inbox slave packet member).mono (List.Subset.refl _) order
  · intro phase
    obtain ⟨origin, arrived, serving, received, stamps⟩ := genuine.serving phase
    exact ⟨origin, arrived, serving, received.mono (List.Subset.refl _) order,
      stamps⟩

theorem fromMaster (genuine : net.Genuine masterOffset history)
    {packet : Packet ι}
    (added : packet.Genuine masterOffset history net.now) :
    (net.fromMaster packet).Genuine masterOffset history := by
  refine ⟨genuine.constant, genuine.masterInbox, ?_, genuine.serving⟩
  intro receiver other member
  rcases List.mem_append.mp member with old | new
  · exact genuine.inbox receiver other old
  · rw [List.mem_singleton.mp new]
    exact added

variable [DecidableEq ι]

/-- A slave may change anything about itself but put frames into its inbox. -/
theorem setSlave (genuine : net.Genuine masterOffset history) {slave : ι}
    {node : SlaveNode ι} (taken : node.inbox ⊆ (net.slaves slave).inbox) :
    (net.setSlave slave node).Genuine masterOffset history := by
  refine ⟨genuine.constant, genuine.masterInbox, ?_, genuine.serving⟩
  intro other packet member
  by_cases same : other = slave
  · subst same
    rw [setSlave_slaves_self] at member
    exact genuine.inbox other packet (taken member)
  · rw [setSlave_slaves_of_ne _ _ _ same] at member
    exact genuine.inbox other packet member

theorem fromSlave (genuine : net.Genuine masterOffset history) {slave : ι}
    {packet : Packet ι}
    (added : packet.Genuine masterOffset history net.now) :
    (net.fromSlave slave packet).Genuine masterOffset history := by
  refine ⟨genuine.constant, ?_, ?_, genuine.serving⟩
  · intro other member
    rcases List.mem_append.mp member with old | new
    · exact genuine.masterInbox other old
    · rw [List.mem_singleton.mp new]
      exact added
  · intro receiver other member
    by_cases same : receiver = slave
    · subst same
      rw [fromSlave_slaves_self] at member
      exact genuine.inbox receiver other member
    · rw [fromSlave_slaves_of_ne _ _ _ same] at member
      rcases List.mem_append.mp member with old | new
      · exact genuine.inbox receiver other old
      · rw [List.mem_singleton.mp new]
        exact added

end Genuine

end Network

end Lora32Mqtt
