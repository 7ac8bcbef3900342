import Lora32Mqtt.Lora.ClockAdjustment

/-!
# The two LoRa tasks (`lora_rx_task`, `lora_tx_task`)

Each task is a step function.  A step runs the code between two places where
time may pass, so that a task takes one reading of a clock or of the tick
counter, one `LoRaReceive` or one `LoRaSend` per step; the phase is the place
where it waits.  What `LoRaSend` returns only reaches the log.
-/

namespace Lora32Mqtt

/-- What the surroundings supply to one step. -/
structure TaskEnv where
  /-- The payload `LoRaReceive` finds, empty if there is none. -/
  received : Frame
  /-- System time in microseconds. -/
  clock : UInt64
  /-- `xTaskGetTickCount()` -/
  tick : UInt32
  /-- Outcome of `LoRaSend`. -/
  sent : Bool
  /-- Former contents of the uninitialised description field. -/
  residue : CArray 50

/-- What `LoRaReceive` leaves when there is no frame. -/
def silence : Frame := ⟨[], by decide⟩

/-- `LoRaReceive (buf, sizeof(buf))`: the payload overwrites the start of the
buffer and leaves the rest as earlier frames left it. -/
def receiveInto (buf : CArray 256) (received : Frame) : CArray 256 :=
  ⟨received.bytes ++ buf.toList.drop received.bytes.length, by
    have short := received.short
    simp
    omega⟩

theorem receiveInto_toList (buf : CArray 256) (received : Frame) :
    (receiveInto buf received).toList =
      received.bytes ++ buf.toList.drop received.bytes.length := rfl

/-- `msg_type` and `rxLen` as the dispatchers compare them. -/
def isMessage (kind : LoraMsgType) (size : Nat) (buf : CArray 256)
    (received : Frame) : Bool :=
  decide (0 < received.bytes.length) &&
    (buf.toList.headD 0 == kind.code && received.bytes.length == size)

inductive RxPhase where
  | receive
  | respond
  deriving DecidableEq

structure RxTask where
  phase : RxPhase
  buf : CArray 256

inductive RxEffect where
  | loRaSend (frame : Frame)
  | getPacketStatus
  | logTimestamp (timestampUs : UInt64)
  | logDescription (text : Option (List UInt8))
  | mqttPublishData (slaveId : Int) (message : List UInt8)
  deriving DecidableEq

/-- `time_req->t2 = value` in the receive buffer. -/
def storeT2 (buf : CArray 256) (value : UInt64) : CArray 256 :=
  ⟨buf.toList.take 9 ++ (u64Bytes value ++ buf.toList.drop 17), by simp⟩

/-- `msg->description[0] ? msg->description : "none"`, read by `%s`. -/
def loggedDescription (buf : CArray 256) : Option (List UInt8) :=
  let description := buf.toList.drop descriptionOffset
  if description.headD 0 = 0 then some (asciiBytes "none")
  else cString description

/-- The branch of the master for a TIMESTAMP message. -/
def handleTimestamp (buf : CArray 256) : List RxEffect :=
  let timestampUs := readU64 buf.toList 1
  [.getPacketStatus, .logTimestamp timestampUs,
    .logDescription (loggedDescription buf),
    .mqttPublishData 299 (formartTimestampUs timestampUs)]

/-- One step of `lora_rx_task`. -/
def RxTask.step (task : RxTask) (env : TaskEnv) : RxTask × List RxEffect :=
  match task.phase with
  | .receive =>
      let buf := receiveInto task.buf env.received
      if isMessage .timeRequest sizeofLoraTimeSyncMsg buf env.received then
        ({ phase := .respond, buf := storeT2 buf (getEpochTimeUs env.clock) }, [])
      else if isMessage .timestamp sizeofLoraTimestampMsg buf env.received then
        ({ phase := .receive, buf := buf }, handleTimestamp buf)
      else
        ({ phase := .receive, buf := buf }, [])
  | .respond =>
      let request := LoraTimeSyncMsg.ofBytes task.buf.toList
      let call := loraSendTimeResponse request env.clock env.sent
      ({ phase := .receive, buf := task.buf }, [.loRaSend call.frame])

/-- `pdMS_TO_TICKS` with `CONFIG_FREERTOS_HZ=100`. -/
def pdMsToTicks (milliseconds : UInt32) : UInt32 := milliseconds * 100 / 1000

inductive TxPhase where
  /-- Before the first request, and before the two readings after it. -/
  | boot
  | bootSync
  | bootMsg
  /-- Top of the loop. -/
  | receive
  /-- Between T4 and `gettimeofday`, with the offset computed. -/
  | adjust (offset : Int)
  | message
  | sendTimestamp
  | messageSent
  | resync
  | sendRequest
  | requestSent
  deriving DecidableEq

structure TxTask where
  phase : TxPhase
  buf : CArray 256
  timeSynced : Bool
  msgCounter : UInt32
  lastSync : UInt32
  lastMsg : UInt32

inductive TxEffect where
  /-- `lora_request_timesync` hands a frame to `LoRaSend`. -/
  | timeRequest (frame : Frame)
  /-- `lora_send_timestamp` hands a frame to `LoRaSend`. -/
  | timestamp (frame : Frame)
  /-- `process_time_response` is called on a received frame. -/
  | timeResponse (frame : Frame) (t4 : UInt64)
  | settimeofday (tv : Timeval)
  deriving DecidableEq

/-- A task that has not run yet; its buffer and tick stamps hold anything. -/
def TxTask.Fresh (task : TxTask) : Prop :=
  task.phase = .boot ∧ task.timeSynced = false ∧ task.msgCounter = 0

private theorem zero_notMem_label (msgCounter : UInt32) :
    0 ∉ (asciiBytes "Message #" ++ decimal msgCounter.toNat).take 49 := by
  intro member
  rcases List.mem_append.mp (List.mem_of_mem_take member) with label | digits
  · revert label
    decide
  · exact zero_notMem_decimal _ digits

/-- `snprintf (desc, sizeof(desc), "Message #%lu", msg_counter)` -/
def messageLabel (msgCounter : UInt32) : CString :=
  { text := (asciiBytes "Message #" ++ decimal msgCounter.toNat).take 49
    noNul := zero_notMem_label msgCounter }

theorem messageLabel_text (msgCounter : UInt32) :
    (messageLabel msgCounter).text =
      asciiBytes "Message #" ++ decimal msgCounter.toNat := by
  have bound := msgCounter.toNat_lt
  have digits : (decimal msgCounter.toNat).length ≤ 10 :=
    length_decimal_le (by decide) (by omega)
  have literal : (asciiBytes "Message #").length = 9 := by decide
  refine List.take_of_length_le ?_
  rw [List.length_append]
  omega

/-- One step of `lora_tx_task`. -/
def TxTask.step (task : TxTask) (env : TaskEnv) : TxTask × List TxEffect :=
  match task.phase with
  | .boot =>
      let call := loraRequestTimesync env.clock env.sent
      ({ task with phase := .bootSync }, [.timeRequest call.frame])
  | .bootSync =>
      ({ task with phase := .bootMsg, lastSync := env.tick }, [])
  | .bootMsg =>
      ({ task with phase := .receive, lastMsg := env.tick }, [])
  | .receive =>
      let buf := receiveInto task.buf env.received
      if isMessage .timeResponse sizeofLoraTimeSyncMsg buf env.received then
        let response := LoraTimeSyncMsg.ofBytes buf.toList
        let t4 := getEpochTimeUs env.clock
        let offset := timeOffset response t4
        if needsAdjustment offset then
          ({ task with phase := .adjust offset, buf := buf },
            [.timeResponse env.received t4])
        else
          ({ task with phase := .message, buf := buf, timeSynced := true },
            [.timeResponse env.received t4])
      else
        ({ task with phase := .message, buf := buf }, [])
  | .adjust offset =>
      ({ task with phase := .message, timeSynced := true },
        [.settimeofday (adjustedTimeval (gettimeofday env.clock) offset)])
  | .message =>
      if task.timeSynced && decide (env.tick - task.lastMsg > pdMsToTicks 5000)
      then ({ task with phase := .sendTimestamp }, [])
      else ({ task with phase := .resync }, [])
  | .sendTimestamp =>
      let desc := messageLabel task.msgCounter
      let call := loraSendTimestamp env.residue (some desc) env.clock env.sent
      ({ task with phase := .messageSent }, [.timestamp call.frame])
  | .messageSent =>
      ({ task with
          phase := .resync
          msgCounter := task.msgCounter + 1
          lastMsg := env.tick }, [])
  | .resync =>
      if env.tick - task.lastSync > pdMsToTicks 150000
      then ({ task with phase := .sendRequest }, [])
      else ({ task with phase := .receive }, [])
  | .sendRequest =>
      let call := loraRequestTimesync env.clock env.sent
      ({ task with phase := .requestSent }, [.timeRequest call.frame])
  | .requestSent =>
      -- "Aguarda confirmação de sincronização"
      ({ task with
          phase := .receive
          lastSync := env.tick
          timeSynced := false }, [])

theorem headD_receiveInto {buf : CArray 256} {received : Frame}
    (nonempty : 0 < received.bytes.length) :
    (receiveInto buf received).toList.headD 0 = received.bytes.headD 0 := by
  rw [receiveInto_toList]
  cases bytesEq : received.bytes with
  | nil => simp [bytesEq] at nonempty
  | cons head tail => rfl

/-- The dispatchers see only the frame, never what the buffer held before. -/
theorem isMessage_iff (kind : LoraMsgType) {size : Nat} (positive : 0 < size)
    (buf : CArray 256) (received : Frame) :
    isMessage kind size (receiveInto buf received) received = true ↔
      received.bytes.length = size ∧ received.bytes.headD 0 = kind.code := by
  simp only [isMessage]
  simp only [Bool.and_eq_true, decide_eq_true_eq, beq_iff_eq]
  constructor
  · intro dispatched
    obtain ⟨nonempty, kindEq, sizeEq⟩ := dispatched
    exact ⟨sizeEq, (headD_receiveInto nonempty).symm.trans kindEq⟩
  · intro isKind
    obtain ⟨sizeEq, kindEq⟩ := isKind
    have nonempty : 0 < received.bytes.length := by omega
    exact ⟨nonempty, (headD_receiveInto nonempty).trans kindEq, sizeEq⟩

/-- A structure received whole is read back whatever the buffer held. -/
theorem ofBytes_receiveInto {buf : CArray 256} {received : Frame}
    {msg : LoraTimeSyncMsg} (frame : received.bytes = msg.toBytes) :
    LoraTimeSyncMsg.ofBytes (receiveInto buf received).toList = msg := by
  rw [receiveInto_toList, frame]
  exact LoraTimeSyncMsg.ofBytes_toBytes_append msg _

namespace TxTask

variable {task : TxTask} {env : TaskEnv}

theorem step_boot (phase : task.phase = .boot) :
    task.step env =
      ({ task with phase := .bootSync },
        [.timeRequest (loraRequestTimesync env.clock env.sent).frame]) := by
  simp only [step, phase]

theorem step_bootSync (phase : task.phase = .bootSync) :
    task.step env =
      ({ task with phase := .bootMsg, lastSync := env.tick }, []) := by
  simp only [step, phase]

theorem step_bootMsg (phase : task.phase = .bootMsg) :
    task.step env =
      ({ task with phase := .receive, lastMsg := env.tick }, []) := by
  simp only [step, phase]

theorem step_receive_other (phase : task.phase = .receive)
    (other : ¬ (env.received.bytes.length = sizeofLoraTimeSyncMsg ∧
      env.received.bytes.headD 0 = LoraMsgType.timeResponse.code)) :
    task.step env =
      ({ task with
          phase := .message
          buf := receiveInto task.buf env.received }, []) := by
  rw [← isMessage_iff _ (by decide) task.buf] at other
  simp only [step, phase, other, Bool.false_eq_true, if_false]

theorem step_receive_adjusts (phase : task.phase = .receive)
    {response : LoraTimeSyncMsg}
    (kind : response.msgType = LoraMsgType.timeResponse.code)
    (frame : env.received.bytes = response.toBytes)
    (adjusts : needsAdjustment (timeOffset response env.clock) = true) :
    task.step env =
      ({ task with
          phase := .adjust (timeOffset response env.clock)
          buf := receiveInto task.buf env.received },
        [.timeResponse env.received env.clock]) := by
  have isResponse := (isMessage_iff .timeResponse
    (show 0 < sizeofLoraTimeSyncMsg by decide) task.buf env.received).mpr
      ⟨by rw [frame]; exact response.length_toBytes, by rw [frame]; exact kind⟩
  simp only [step, phase, isResponse, if_true, getEpochTimeUs_eq,
    ofBytes_receiveInto frame, adjusts]

theorem step_receive_accepts (phase : task.phase = .receive)
    {response : LoraTimeSyncMsg}
    (kind : response.msgType = LoraMsgType.timeResponse.code)
    (frame : env.received.bytes = response.toBytes)
    (accepts : needsAdjustment (timeOffset response env.clock) = false) :
    task.step env =
      ({ task with
          phase := .message
          buf := receiveInto task.buf env.received
          timeSynced := true },
        [.timeResponse env.received env.clock]) := by
  have isResponse := (isMessage_iff .timeResponse
    (show 0 < sizeofLoraTimeSyncMsg by decide) task.buf env.received).mpr
      ⟨by rw [frame]; exact response.length_toBytes, by rw [frame]; exact kind⟩
  simp only [step, phase, isResponse, if_true, getEpochTimeUs_eq,
    ofBytes_receiveInto frame, accepts, Bool.false_eq_true, if_false]

theorem step_adjust {offset : Int} (phase : task.phase = .adjust offset) :
    task.step env =
      ({ task with phase := .message, timeSynced := true },
        [.settimeofday
          (adjustedTimeval (gettimeofday env.clock) offset)]) := by
  simp only [step, phase]

theorem step_message_due (phase : task.phase = .message)
    (synced : task.timeSynced = true)
    (passed : env.tick - task.lastMsg > pdMsToTicks 5000) :
    task.step env = ({ task with phase := .sendTimestamp }, []) := by
  simp only [step, phase, synced, passed, decide_true, Bool.and_true, if_true]

theorem step_message_waits (phase : task.phase = .message)
    (waits : ¬ (task.timeSynced = true ∧
      env.tick - task.lastMsg > pdMsToTicks 5000)) :
    task.step env = ({ task with phase := .resync }, []) := by
  have blocked : ¬ (task.timeSynced &&
      decide (env.tick - task.lastMsg > pdMsToTicks 5000)) = true := by
    rwa [Bool.and_eq_true, decide_eq_true_iff]
  simp only [step, phase, blocked, Bool.false_eq_true, if_false]

theorem step_sendTimestamp (phase : task.phase = .sendTimestamp) :
    task.step env =
      ({ task with phase := .messageSent },
        [.timestamp (loraSendTimestamp env.residue
          (some (messageLabel task.msgCounter)) env.clock env.sent).frame]) := by
  simp only [step, phase]

theorem step_messageSent (phase : task.phase = .messageSent) :
    task.step env =
      ({ task with
          phase := .resync
          msgCounter := task.msgCounter + 1
          lastMsg := env.tick }, []) := by
  simp only [step, phase]

theorem step_resync_due (phase : task.phase = .resync)
    (passed : env.tick - task.lastSync > pdMsToTicks 150000) :
    task.step env = ({ task with phase := .sendRequest }, []) := by
  simp only [step, phase, passed, if_true]

theorem step_resync_waits (phase : task.phase = .resync)
    (waits : ¬ env.tick - task.lastSync > pdMsToTicks 150000) :
    task.step env = ({ task with phase := .receive }, []) := by
  simp only [step, phase, waits, if_false]

theorem step_sendRequest (phase : task.phase = .sendRequest) :
    task.step env =
      ({ task with phase := .requestSent },
        [.timeRequest (loraRequestTimesync env.clock env.sent).frame]) := by
  simp only [step, phase]

theorem step_requestSent (phase : task.phase = .requestSent) :
    task.step env =
      ({ task with
          phase := .receive
          lastSync := env.tick
          timeSynced := false }, []) := by
  simp only [step, phase]

end TxTask

/-- The two steps into which `process_time_response` is cut hand
`settimeofday` exactly what the whole function hands it. -/
theorem TxTask.step_receive_response {task : TxTask} {env later : TaskEnv}
    {response : LoraTimeSyncMsg} (phase : task.phase = .receive)
    (kind : response.msgType = LoraMsgType.timeResponse.code)
    (frame : env.received = response.toFrame) :
    match (processTimeResponse response env.clock later.clock).adjustment with
    | some tv =>
        ∃ offset, (task.step env).1.phase = .adjust offset ∧
          ((task.step env).1.step later).2 = [.settimeofday tv]
    | none =>
        (task.step env).1.phase = .message ∧
          (task.step env).1.timeSynced = true := by
  have bytes : env.received.bytes = response.toBytes := by
    rw [frame]
    rfl
  rw [processTimeResponse_adjustment]
  cases adjusts : needsAdjustment (timeOffset response env.clock) with
  | true =>
      rw [if_pos rfl, TxTask.step_receive_adjusts phase kind bytes adjusts]
      exact ⟨_, rfl, by rw [TxTask.step_adjust rfl]⟩
  | false =>
      rw [if_neg (by decide),
        TxTask.step_receive_accepts phase kind bytes adjusts]
      exact ⟨rfl, rfl⟩

end Lora32Mqtt
