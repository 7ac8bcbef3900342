import Lora32Mqtt.Lora.Tasks

/-!
# The frame format

The senders and the two receive loops agree on the frames.  Whatever earlier
frames left in the receive buffer, a request is answered by exactly one
response that the slave reads back, a timestamp is published and its
description recovered, and every other frame is ignored.
-/

namespace Lora32Mqtt

/-- What the master does about one frame: the step that receives it and, if it
is a request, the step that answers it. -/
def RxTask.handle (buf : CArray 256) (env envSend : TaskEnv) : List RxEffect :=
  let task : RxTask := { phase := .receive, buf := buf }
  let outcome := task.step env
  match outcome.1.phase with
  | .receive => outcome.2
  | .respond => outcome.2 ++ (outcome.1.step envSend).2

def RxEffect.sentFrame : RxEffect → Option Frame
  | .loRaSend frame => some frame
  | _ => none

def RxEffect.published : RxEffect → Option (Int × List UInt8)
  | .mqttPublishData slaveId message => some (slaveId, message)
  | _ => none

/-- The frame is of the kind and has the size of its structure. -/
def Frame.Is (frame : Frame) (kind : LoraMsgType) (size : Nat) : Prop :=
  frame.bytes.length = size ∧ frame.bytes.headD 0 = kind.code

instance (frame : Frame) (kind : LoraMsgType) (size : Nat) :
    Decidable (frame.Is kind size) :=
  inferInstanceAs (Decidable (_ ∧ _))

theorem readU64_receiveInto {buf : CArray 256} {received : Frame}
    {offset : Nat} (inside : offset + 8 ≤ received.bytes.length) :
    readU64 (receiveInto buf received).toList offset =
      readU64 received.bytes offset := by
  rw [receiveInto_toList]
  exact readU64_append inside

theorem storeT2_toList (buf : CArray 256) (value : UInt64) :
    (storeT2 buf value).toList =
      buf.toList.take 9 ++ (u64Bytes value ++ buf.toList.drop 17) := rfl

theorem readU64_storeT2_t1 (buf : CArray 256) (value : UInt64) :
    readU64 (storeT2 buf value).toList 1 = readU64 buf.toList 1 := by
  have inside : 1 + 8 ≤ (buf.toList.take 9).length := by simp
  have whole : readU64 (buf.toList.take 9 ++ buf.toList.drop 9) 1 =
      readU64 (buf.toList.take 9) 1 := readU64_append inside
  rw [List.take_append_drop] at whole
  rw [storeT2_toList, readU64_append inside, whole]

theorem readU64_storeT2_t2 (buf : CArray 256) (value : UInt64) :
    readU64 (storeT2 buf value).toList 9 = value :=
  readU64_field (buf.toList.take 9) (buf.toList.drop 17)
    (storeT2_toList buf value) (by simp)

section Handle

variable (buf : CArray 256) (env envSend : TaskEnv)

/-- The only answer to a request, with the client's own stamp and the two
readings of the master. -/
def responseTo (received : Frame) (clock2 clock3 : UInt64) : LoraTimeSyncMsg :=
  { msgType := LoraMsgType.timeResponse.code
    t1 := readU64 received.bytes 1
    t2 := clock2
    t3 := clock3
    t4 := 0 }

theorem RxTask.handle_request
    (request : env.received.Is .timeRequest sizeofLoraTimeSyncMsg) :
    RxTask.handle buf env envSend =
      [.loRaSend
        (responseTo env.received env.clock envSend.clock).toFrame] := by
  have dispatched : isMessage .timeRequest sizeofLoraTimeSyncMsg
      (receiveInto buf env.received) env.received = true :=
    (isMessage_iff _ (by decide) buf env.received).mpr request
  have inside : 1 + 8 ≤ env.received.bytes.length := by
    rw [request.1]
    decide
  simp only [RxTask.handle, RxTask.step]
  simp only [dispatched, if_true, List.nil_append, loraSendTimeResponse_frame,
    getEpochTimeUs_eq, LoraTimeSyncMsg.ofBytes, readU64_storeT2_t1,
    readU64_storeT2_t2, readU64_receiveInto inside, responseTo]

theorem RxTask.step_timestamp
    (timestamp : env.received.Is .timestamp sizeofLoraTimestampMsg) :
    RxTask.step { phase := .receive, buf := buf } env =
      ({ phase := .receive, buf := receiveInto buf env.received },
        handleTimestamp (receiveInto buf env.received)) := by
  have dispatched : isMessage .timestamp sizeofLoraTimestampMsg
      (receiveInto buf env.received) env.received = true :=
    (isMessage_iff _ (by decide) buf env.received).mpr timestamp
  have notRequest : isMessage .timeRequest sizeofLoraTimeSyncMsg
      (receiveInto buf env.received) env.received = false := by
    rw [Bool.eq_false_iff, ne_eq, isMessage_iff _ (by decide), timestamp.1]
    exact fun both => absurd both.1 (by decide)
  simp only [RxTask.step]
  simp only [dispatched, notRequest, if_true, Bool.false_eq_true, if_false]

theorem RxTask.handle_timestamp
    (timestamp : env.received.Is .timestamp sizeofLoraTimestampMsg) :
    RxTask.handle buf env envSend =
      [.getPacketStatus,
        .logTimestamp (readU64 env.received.bytes 1),
        .logDescription (loggedDescription (receiveInto buf env.received)),
        .mqttPublishData 299
          (formartTimestampUs (readU64 env.received.bytes 1))] := by
  have inside : 1 + 8 ≤ env.received.bytes.length := by
    rw [timestamp.1]
    decide
  simp only [RxTask.handle, RxTask.step_timestamp buf env timestamp,
    handleTimestamp, readU64_receiveInto inside]

theorem RxTask.handle_other
    (notRequest : ¬ env.received.Is .timeRequest sizeofLoraTimeSyncMsg)
    (notTimestamp : ¬ env.received.Is .timestamp sizeofLoraTimestampMsg) :
    RxTask.handle buf env envSend = [] := by
  simp only [Frame.Is] at notRequest notTimestamp
  rw [← isMessage_iff _ (by decide) buf] at notRequest notTimestamp
  simp only [RxTask.handle, RxTask.step]
  simp only [notRequest, notTimestamp, Bool.false_eq_true, if_false]

theorem Frame.not_timestamp_of_request {frame : Frame}
    (request : frame.Is .timeRequest sizeofLoraTimeSyncMsg) :
    ¬ frame.Is .timestamp sizeofLoraTimestampMsg := by
  intro timestamp
  have kinds := request.2.symm.trans timestamp.2
  exact absurd (LoraMsgType.code_injective kinds) (by simp)

/-- The master sends exactly for requests, whatever the buffer held. -/
theorem RxTask.handle_sends :
    (RxTask.handle buf env envSend).filterMap RxEffect.sentFrame =
      if env.received.Is .timeRequest sizeofLoraTimeSyncMsg then
        [(responseTo env.received env.clock envSend.clock).toFrame]
      else [] := by
  by_cases request : env.received.Is .timeRequest sizeofLoraTimeSyncMsg
  · rw [handle_request buf env envSend request, if_pos request]
    rfl
  · rw [if_neg request]
    by_cases timestamp : env.received.Is .timestamp sizeofLoraTimestampMsg
    · rw [handle_timestamp buf env envSend timestamp]
      rfl
    · rw [handle_other buf env envSend request timestamp]
      rfl

/-- The master publishes exactly for timestamps, whatever the buffer held. -/
theorem RxTask.handle_publishes :
    (RxTask.handle buf env envSend).filterMap RxEffect.published =
      if env.received.Is .timestamp sizeofLoraTimestampMsg then
        [(299, formartTimestampUs (readU64 env.received.bytes 1))]
      else [] := by
  by_cases timestamp : env.received.Is .timestamp sizeofLoraTimestampMsg
  · rw [handle_timestamp buf env envSend timestamp, if_pos timestamp]
    rfl
  · rw [if_neg timestamp]
    by_cases request : env.received.Is .timeRequest sizeofLoraTimeSyncMsg
    · rw [handle_request buf env envSend request]
      rfl
    · rw [handle_other buf env envSend request timestamp]
      rfl

end Handle

/-- The text of an optional description; `NULL` counts as empty. -/
def descriptionText : Option CString → List UInt8
  | some description => description.text
  | none => []

theorem loraSendTimestamp_some (residue : CArray 50) (text : CString)
    (clock : UInt64) (sent : Bool) :
    (loraSendTimestamp residue (some text) clock sent).frame.bytes =
      LoraMsgType.timestamp.code :: (u64Bytes clock ++
        (text.text.take 49 ++ 0 :: List.replicate (49 - text.text.length) 0)) := by
  simp only [loraSendTimestamp, LoraTimestampMsg.toFrame,
    LoraTimestampMsg.toBytes, getEpochTimeUs_eq, copyTerminated_toList]

theorem loraSendTimestamp_null (residue : CArray 50) (clock : UInt64)
    (sent : Bool) :
    (loraSendTimestamp residue none clock sent).frame.bytes =
      LoraMsgType.timestamp.code :: (u64Bytes clock ++ 0 :: residue.toList.tail) := by
  have nonempty : residue.toList ≠ [] := by
    intro empty
    have size := residue.toList_length
    rw [empty] at size
    cases size
  obtain ⟨head, tail, split⟩ := List.exists_cons_of_ne_nil nonempty
  simp [loraSendTimestamp, LoraTimestampMsg.toFrame,
    LoraTimestampMsg.toBytes, List.Vector.toList_set, split]

theorem loraSendTimestamp_frame (residue : CArray 50)
    (description : Option CString) (clock : UInt64) (sent : Bool) :
    ∃ rest, (loraSendTimestamp residue description clock sent).frame.bytes =
      LoraMsgType.timestamp.code :: (u64Bytes clock ++
        ((descriptionText description).take 49 ++ 0 :: rest)) := by
  cases description with
  | some text => exact ⟨_, loraSendTimestamp_some residue text clock sent⟩
  | none => exact ⟨_, loraSendTimestamp_null residue clock sent⟩

theorem descriptionText_noNul (description : Option CString) :
    0 ∉ (descriptionText description).take 49 := by
  cases description with
  | some text => exact text.noNul_take 49
  | none => simp [descriptionText]

/-- What the master logs for the text of a description. -/
def loggedText (text : List UInt8) : List UInt8 :=
  if text = [] then asciiBytes "none" else text

namespace Frame

/-- The last 50 bytes of a timestamp frame. -/
def description (frame : Frame) : List UInt8 := frame.bytes.drop descriptionOffset

/-- The sender has terminated the description. -/
def Terminated (frame : Frame) : Prop := 0 ∈ frame.description

instance (frame : Frame) : Decidable frame.Terminated :=
  inferInstanceAs (Decidable (_ ∈ _))

end Frame

section Description

variable {frame : Frame} (isTimestamp : frame.Is .timestamp sizeofLoraTimestampMsg)
include isTimestamp

theorem Frame.length_description : frame.description.length = 50 := by
  rw [description, List.length_drop, isTimestamp.1]
  rfl

/-- In the buffer the description is followed by what was there before. -/
theorem drop_receiveInto (buf : CArray 256) :
    (receiveInto buf frame).toList.drop descriptionOffset =
      frame.description ++ buf.toList.drop sizeofLoraTimestampMsg := by
  have inside : descriptionOffset ≤ frame.bytes.length := by
    rw [isTimestamp.1]
    decide
  rw [receiveInto_toList, List.drop_append_of_le_length inside, isTimestamp.1]
  rfl

theorem loggedDescription_receiveInto (terminated : frame.Terminated)
    (buf : CArray 256) :
    loggedDescription (receiveInto buf frame) =
      some (loggedText (cText frame.description)) := by
  have read := cString_append_of_mem terminated
    (buf.toList.drop sizeofLoraTimestampMsg)
  rw [loggedDescription, drop_receiveInto isTimestamp, read]
  rw [Frame.Terminated] at terminated
  cases field : frame.description with
  | nil => simp [field] at terminated
  | cons head tail =>
      by_cases nul : head = 0
      · simp [loggedText, cText, nul]
      · simp [loggedText, cText, nul]

end Description

theorem loraSendTimestamp_description (residue : CArray 50)
    (description : Option CString) (clock : UInt64) (sent : Bool) :
    ∃ rest, (loraSendTimestamp residue description clock sent).frame.description =
      (descriptionText description).take 49 ++ 0 :: rest := by
  obtain ⟨rest, layout⟩ := loraSendTimestamp_frame residue description clock sent
  have front : (LoraMsgType.timestamp.code :: u64Bytes clock).length =
      descriptionOffset := by simp [descriptionOffset]
  refine ⟨rest, ?_⟩
  rw [Frame.description, layout, ← List.cons_append, ← front, List.drop_left]

/-- The senders of this program terminate every description. -/
theorem loraSendTimestamp_terminated (residue : CArray 50)
    (description : Option CString) (clock : UInt64) (sent : Bool) :
    (loraSendTimestamp residue description clock sent).frame.Terminated := by
  obtain ⟨rest, field⟩ := loraSendTimestamp_description residue description clock sent
  rw [Frame.Terminated, field]
  exact List.mem_append_right _ List.mem_cons_self

theorem timestamp_decoded (buf : CArray 256) (residue : CArray 50)
    (description : Option CString) (clock : UInt64) (sent : Bool) :
    let frame := (loraSendTimestamp residue description clock sent).frame
    let text := (descriptionText description).take 49
    frame.Is .timestamp sizeofLoraTimestampMsg ∧
      readU64 frame.bytes 1 = clock ∧
      cString ((receiveInto buf frame).toList.drop descriptionOffset) =
        some text ∧
      loggedDescription (receiveInto buf frame) = some (loggedText text) := by
  intro frame text
  obtain ⟨rest, layout⟩ :=
    loraSendTimestamp_frame residue description clock sent
  obtain ⟨padding, field⟩ :=
    loraSendTimestamp_description residue description clock sent
  have noNul : 0 ∉ text := descriptionText_noNul description
  have isTimestamp : frame.Is .timestamp sizeofLoraTimestampMsg :=
    ⟨length_loraSendTimestamp_frame _ _ _ _, by rw [layout]; rfl⟩
  have whole : cText frame.description = text := by
    rw [field]
    exact cText_append_nul noNul _
  have terminated := loraSendTimestamp_terminated residue description clock sent
  refine ⟨isTimestamp,
    readU64_field [LoraMsgType.timestamp.code] (text ++ 0 :: rest)
      (by rw [layout]; simp [text]) rfl, ?_, ?_⟩
  · rw [drop_receiveInto isTimestamp, cString_append_of_mem terminated, whole]
  · rw [loggedDescription_receiveInto isTimestamp terminated, whole]

theorem loraSendData_frame (residue : CArray 254) (message : CString)
    (sent : Bool) :
    (loraSendData residue message sent).frame.bytes =
      LoraMsgType.data.code :: (message.text.take 253 ++ [0]) := by
  let text := message.text.take 253
  let padding := List.replicate (253 - message.text.length) (0 : UInt8)
  have split : LoraMsgType.data.code :: (text ++ 0 :: padding) =
      (LoraMsgType.data.code :: (text ++ [0])) ++ padding := by simp
  have size : (LoraMsgType.data.code :: (text ++ [0])).length =
      1 + text.length + 1 := by
    simp
    omega
  simp only [loraSendData, LoraMsg.toBytes, cText_copyTerminated]
  rw [copyTerminated_toList, split]
  exact List.take_left' size

/-- Request and response, timestamps, data messages, and the two dispatchers on
arbitrary frames over arbitrary leftovers. -/
theorem loraFrames_agree :
    (∀ (clock : UInt64) (sent : Bool),
      (loraRequestTimesync clock sent).frame =
        LoraTimeSyncMsg.toFrame
          ⟨LoraMsgType.timeRequest.code, clock, 0, 0, 0⟩) ∧
    (∀ (t1 t2 t3 t4 : UInt64) (buf slaveBuf : CArray 256)
        (env envSend : TaskEnv),
      let request : LoraTimeSyncMsg :=
        ⟨LoraMsgType.timeRequest.code, t1, t2, t3, t4⟩
      let response : LoraTimeSyncMsg :=
        ⟨LoraMsgType.timeResponse.code, t1, env.clock, envSend.clock, 0⟩
      RxTask.handle buf { env with received := request.toFrame } envSend =
          [.loRaSend response.toFrame] ∧
        response.toFrame.bytes.length = 33 ∧
        response.toFrame.bytes.headD 0 = 0x02 ∧
        LoraTimeSyncMsg.ofBytes
          (receiveInto slaveBuf response.toFrame).toList = response) ∧
    (∀ (residue : CArray 50) (description : Option CString) (clock : UInt64)
        (sent : Bool) (buf : CArray 256) (env envSend : TaskEnv),
      let frame := (loraSendTimestamp residue description clock sent).frame
      let text := (descriptionText description).take 49
      readU64 (receiveInto buf frame).toList 1 = clock ∧
        cString ((receiveInto buf frame).toList.drop descriptionOffset) =
          some text ∧
        RxTask.handle buf { env with received := frame } envSend =
          [.getPacketStatus, .logTimestamp clock,
            .logDescription (some (loggedText text)),
            .mqttPublishData 299 (formartTimestampUs clock)]) ∧
    (∀ (residue : CArray 254) (message : CString) (sent : Bool),
      let frame := (loraSendData residue message sent).frame
      frame.bytes = 0x03 :: (message.text.take 253 ++ [0]) ∧
        2 ≤ frame.bytes.length ∧ frame.bytes.length ≤ 255) ∧
    (∀ (buf : CArray 256) (env envSend : TaskEnv),
      (RxTask.handle buf env envSend).filterMap RxEffect.sentFrame =
          (if env.received.bytes.length = 33 ∧
              env.received.bytes.headD 0 = 0x01 then
            [(responseTo env.received env.clock envSend.clock).toFrame]
          else []) ∧
        (RxTask.handle buf env envSend).filterMap RxEffect.published =
          (if env.received.bytes.length = 59 ∧
              env.received.bytes.headD 0 = 0x04 then
            [(299, formartTimestampUs (readU64 env.received.bytes 1))]
          else [])) ∧
    (∀ (task : TxTask) (env : TaskEnv),
      let receiving := { task with phase := .receive }
      (env.received.bytes.length = 33 ∧
          env.received.bytes.headD 0 = 0x02) ∨
        receiving.step env =
          ({ task with
              phase := .message
              buf := receiveInto task.buf env.received }, [])) := by
  refine ⟨loraRequestTimesync_frame, ?_, ?_, ?_, ?_, ?_⟩
  · intro t1 t2 t3 t4 buf slaveBuf env envSend request response
    have isRequest :
        request.toFrame.Is .timeRequest sizeofLoraTimeSyncMsg :=
      ⟨request.length_toBytes, rfl⟩
    have handled := RxTask.handle_request buf
      { env with received := request.toFrame } envSend isRequest
    have stamp : readU64 request.toFrame.bytes 1 = t1 :=
      readU64_field [request.msgType]
        (u64Bytes t2 ++ (u64Bytes t3 ++ u64Bytes t4)) rfl rfl
    refine ⟨?_, response.length_toBytes, rfl,
      ofBytes_receiveInto response.toFrame_bytes⟩
    rw [handled, responseTo, stamp]
  · intro residue description clock sent buf env envSend frame text
    obtain ⟨isTimestamp, stamp, recovered, logged⟩ :=
      timestamp_decoded buf residue description clock sent
    have handled := RxTask.handle_timestamp buf
      { env with received := frame } envSend isTimestamp
    have inside : 1 + 8 ≤ frame.bytes.length := by
      rw [isTimestamp.1]
      decide
    refine ⟨by rw [readU64_receiveInto inside, stamp], recovered, ?_⟩
    rw [handled]
    dsimp only
    rw [logged, stamp]
  · intro residue message sent frame
    have bytes : frame.bytes = 0x03 :: (message.text.take 253 ++ [0]) :=
      loraSendData_frame residue message sent
    refine ⟨bytes, ?_, frame.short⟩
    rw [bytes]
    simp
  · intro buf env envSend
    exact ⟨RxTask.handle_sends buf env envSend,
      RxTask.handle_publishes buf env envSend⟩
  · intro task env receiving
    by_cases response : env.received.Is .timeResponse sizeofLoraTimeSyncMsg
    · exact .inl response
    · exact .inr (TxTask.step_receive_other rfl response)

end Lora32Mqtt
