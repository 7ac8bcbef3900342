import Lora32Mqtt.Base.CString
import Lora32Mqtt.Base.LittleEndian
import Lora32Mqtt.Time.TimeEsp

/-!
# LoRa messages and their senders (`lora_esp.h`, `lora_esp.cpp`)

The packed structures are modelled by their bytes on the air.  A sender is
modelled by the one frame it hands to `LoRaSend` and by what it returns; the
clock readings it takes, the outcome of `LoRaSend` and the former contents of
its uninitialised locals are arguments.
-/

namespace Lora32Mqtt

inductive EspErr where
  | espOk
  | espFail
  deriving DecidableEq

inductive LoraMsgType where
  | timeRequest
  | timeResponse
  | data
  | timestamp
  | sensorData
  deriving DecidableEq

def LoraMsgType.code : LoraMsgType → UInt8
  | .timeRequest => 0x01
  | .timeResponse => 0x02
  | .data => 0x03
  | .timestamp => 0x04
  | .sensorData => 0x05

theorem LoraMsgType.code_injective : Function.Injective LoraMsgType.code := by
  intro left right equality
  cases left <;> cases right <;> first | rfl | cases equality

/-- A payload as the radio delivers it; its length is a single byte. -/
structure Frame where
  bytes : List UInt8
  short : bytes.length ≤ 255
  deriving DecidableEq

theorem Frame.eq_of_bytes {frame other : Frame} (same : frame.bytes = other.bytes) :
    frame = other := by
  obtain ⟨bytes, short⟩ := frame
  obtain ⟨otherBytes, otherShort⟩ := other
  subst same
  rfl

structure LoraTimeSyncMsg where
  msgType : UInt8
  t1 : UInt64
  t2 : UInt64
  t3 : UInt64
  t4 : UInt64
  deriving DecidableEq

def sizeofLoraTimeSyncMsg : Nat := 33

namespace LoraTimeSyncMsg

def toBytes (msg : LoraTimeSyncMsg) : List UInt8 :=
  msg.msgType :: (u64Bytes msg.t1 ++
    (u64Bytes msg.t2 ++ (u64Bytes msg.t3 ++ u64Bytes msg.t4)))

/-- The structure seen through a pointer into a byte buffer. -/
def ofBytes (bytes : List UInt8) : LoraTimeSyncMsg :=
  { msgType := bytes.headD 0
    t1 := readU64 bytes 1
    t2 := readU64 bytes 9
    t3 := readU64 bytes 17
    t4 := readU64 bytes 25 }

@[simp] theorem length_toBytes (msg : LoraTimeSyncMsg) :
    msg.toBytes.length = sizeofLoraTimeSyncMsg := by
  simp [toBytes, sizeofLoraTimeSyncMsg]

/-- A structure written to the start of a buffer is read back from it. -/
theorem ofBytes_toBytes_append (msg : LoraTimeSyncMsg) (rest : List UInt8) :
    ofBytes (msg.toBytes ++ rest) = msg := by
  have first : readU64 (msg.toBytes ++ rest) 1 = msg.t1 :=
    readU64_field [msg.msgType]
      (u64Bytes msg.t2 ++ (u64Bytes msg.t3 ++ u64Bytes msg.t4) ++ rest)
      (by simp [toBytes]) rfl
  have second : readU64 (msg.toBytes ++ rest) 9 = msg.t2 :=
    readU64_field (msg.msgType :: u64Bytes msg.t1)
      (u64Bytes msg.t3 ++ u64Bytes msg.t4 ++ rest)
      (by simp [toBytes]) (by simp)
  have third : readU64 (msg.toBytes ++ rest) 17 = msg.t3 :=
    readU64_field (msg.msgType :: (u64Bytes msg.t1 ++ u64Bytes msg.t2))
      (u64Bytes msg.t4 ++ rest)
      (by simp [toBytes]) (by simp)
  have fourth : readU64 (msg.toBytes ++ rest) 25 = msg.t4 :=
    readU64_field
      (msg.msgType :: (u64Bytes msg.t1 ++ (u64Bytes msg.t2 ++ u64Bytes msg.t3)))
      rest (by simp [toBytes]) (by simp)
  cases msg
  simp only [ofBytes, first, second, third, fourth, LoraTimeSyncMsg.mk.injEq]
  simp [toBytes]

theorem toBytes_ofBytes {bytes : List UInt8}
    (size : bytes.length = sizeofLoraTimeSyncMsg) :
    (ofBytes bytes).toBytes = bytes := by
  simp only [sizeofLoraTimeSyncMsg] at size
  simp only [ofBytes, toBytes]
  rw [u64Bytes_readU64 (by omega), u64Bytes_readU64 (by omega),
    u64Bytes_readU64 (by omega), u64Bytes_readU64 (by omega)]
  cases bytes with
  | nil => simp at size
  | cons head tail =>
      have tailSize : tail.length = 32 := by simpa using size
      have field (offset : Nat) (later : List UInt8)
          (rest : tail.drop (offset + 8) = later) :
          (tail.drop offset).take 8 ++ later = tail.drop offset := by
        rw [← rest, ← List.drop_drop, List.take_append_drop]
      simp only [List.headD_cons, List.drop_succ_cons, List.cons.injEq, true_and]
      have last : (tail.drop 24).take 8 = tail.drop 24 :=
        List.take_of_length_le (by simp [tailSize])
      rw [last, field 16 _ rfl, field 8 _ rfl, field 0 _ rfl, List.drop_zero]

def toFrame (msg : LoraTimeSyncMsg) : Frame :=
  ⟨msg.toBytes, by simp [sizeofLoraTimeSyncMsg]⟩

@[simp] theorem toFrame_bytes (msg : LoraTimeSyncMsg) :
    msg.toFrame.bytes = msg.toBytes := rfl

end LoraTimeSyncMsg

structure LoraTimestampMsg where
  msgType : UInt8
  timestampUs : UInt64
  description : CArray 50
  deriving DecidableEq

def sizeofLoraTimestampMsg : Nat := 59

/-- Offset of `description` inside the packed structure. -/
def descriptionOffset : Nat := 9

def LoraTimestampMsg.toBytes (msg : LoraTimestampMsg) : List UInt8 :=
  msg.msgType :: (u64Bytes msg.timestampUs ++ msg.description.toList)

@[simp] theorem LoraTimestampMsg.length_toBytes (msg : LoraTimestampMsg) :
    msg.toBytes.length = sizeofLoraTimestampMsg := by
  simp [toBytes, sizeofLoraTimestampMsg]

def LoraTimestampMsg.toFrame (msg : LoraTimestampMsg) : Frame :=
  ⟨msg.toBytes, by simp [sizeofLoraTimestampMsg]⟩

structure LoraMsg where
  msgType : UInt8
  payload : CArray 254
  deriving DecidableEq

def LoraMsg.toBytes (msg : LoraMsg) : List UInt8 :=
  msg.msgType :: msg.payload.toList

@[simp] theorem LoraMsg.length_toBytes (msg : LoraMsg) :
    msg.toBytes.length = 255 := by
  simp [toBytes]

/-- The frame given to `LoRaSend` and the value returned to the caller. -/
structure SendCall where
  frame : Frame
  result : EspErr
  deriving DecidableEq

def sendResult (sent : Bool) : EspErr :=
  if sent = false then .espFail else .espOk

def loraRequestTimesync (clock : UInt64) (sent : Bool) : SendCall :=
  let msg : LoraTimeSyncMsg :=
    { msgType := LoraMsgType.timeRequest.code
      t1 := getEpochTimeUs clock
      t2 := 0
      t3 := 0
      t4 := 0 }
  { frame := msg.toFrame, result := sendResult sent }

def loraSendTimeResponse (request : LoraTimeSyncMsg) (clock : UInt64)
    (sent : Bool) : SendCall :=
  let response : LoraTimeSyncMsg :=
    { msgType := LoraMsgType.timeResponse.code
      t1 := request.t1
      t2 := request.t2
      t3 := getEpochTimeUs clock
      t4 := 0 }
  { frame := response.toFrame, result := sendResult sent }

/-- `strncpy (field, source, sizeof(field) - 1)` followed by the terminator. -/
def copyTerminated {size : Nat} (field : CArray (size + 1)) (source : CString) :
    CArray (size + 1) :=
  ⟨(strncpy field.toList source.text size).set size 0, by
    simp [length_strncpy (show size ≤ field.toList.length by simp)]⟩

/-- `lora_send_data`; `residue` is what `msg.payload` held before. -/
def loraSendData (residue : CArray 254) (message : CString) (sent : Bool) :
    SendCall :=
  let msg : LoraMsg :=
    { msgType := LoraMsgType.data.code
      payload := copyTerminated residue message }
  let txLen := 1 + (cText msg.payload.toList).length + 1
  { frame := ⟨msg.toBytes.take txLen, by simp⟩, result := sendResult sent }

/-- `lora_send_timestamp`; the description may be `NULL`. -/
def loraSendTimestamp (residue : CArray 50) (description : Option CString)
    (clock : UInt64) (sent : Bool) : SendCall :=
  let msg : LoraTimestampMsg :=
    { msgType := LoraMsgType.timestamp.code
      timestampUs := getEpochTimeUs clock
      description :=
        match description with
        | some text => copyTerminated residue text
        | none => residue.set 0 0 }
  { frame := msg.toFrame, result := sendResult sent }

@[simp] theorem loraRequestTimesync_frame (clock : UInt64) (sent : Bool) :
    (loraRequestTimesync clock sent).frame =
      LoraTimeSyncMsg.toFrame
        ⟨LoraMsgType.timeRequest.code, clock, 0, 0, 0⟩ := by
  simp [loraRequestTimesync]

@[simp] theorem loraSendTimeResponse_frame (request : LoraTimeSyncMsg)
    (clock : UInt64) (sent : Bool) :
    (loraSendTimeResponse request clock sent).frame =
      LoraTimeSyncMsg.toFrame
        ⟨LoraMsgType.timeResponse.code, request.t1, request.t2, clock, 0⟩ := by
  simp [loraSendTimeResponse]

theorem copyTerminated_toList {size : Nat} (field : CArray (size + 1))
    (source : CString) :
    (copyTerminated field source).toList =
      source.text.take size ++
        0 :: List.replicate (size - source.text.length) 0 := by
  have stored : (copyTerminated field source).toList =
      (strncpy field.toList source.text size).set size 0 := rfl
  rw [stored, strncpy_set_last (by simp), padded_eq_take_append]

@[simp] theorem cText_copyTerminated {size : Nat} (field : CArray (size + 1))
    (source : CString) :
    cText (copyTerminated field source).toList = source.text.take size := by
  rw [copyTerminated_toList]
  exact cText_append_nul (source.noNul_take size) _

theorem length_loraSendTimestamp_frame (residue : CArray 50)
    (description : Option CString) (clock : UInt64) (sent : Bool) :
    (loraSendTimestamp residue description clock sent).frame.bytes.length =
      sizeofLoraTimestampMsg := by
  simp [loraSendTimestamp, LoraTimestampMsg.toFrame]

end Lora32Mqtt
