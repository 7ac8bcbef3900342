import Lora32Mqtt.Base.Determined
import Lora32Mqtt.Lora.Discipline

/-!
# What a frame shows of the stack (`lora_esp.cpp`)

Two of the four senders build their message in a variable that is not
initialised.  Two runs of a sender have the same arguments and the same reading of
the clock, and differ in what this variable held and in what `LoRaSend` returns.
-/

namespace Lora32Mqtt

/-- A sender with its arguments; the description may be `NULL`. -/
inductive SenderCall where
  | requestTimesync
  | sendTimeResponse (request : LoraTimeSyncMsg)
  | sendData (message : CString)
  | sendTimestamp (description : Option CString)

/-- What a run of a sender finds. -/
structure SenderRun where
  /-- Former contents of `msg.payload`. -/
  payload : CArray 254
  /-- Former contents of `msg.description`. -/
  description : CArray 50
  sent : Bool

namespace SenderCall

def perform (call : SenderCall) (clock : UInt64) (run : SenderRun) : SendCall :=
  match call with
  | .requestTimesync => loraRequestTimesync clock run.sent
  | .sendTimeResponse request => loraSendTimeResponse request clock run.sent
  | .sendData message => loraSendData run.payload message run.sent
  | .sendTimestamp description =>
      loraSendTimestamp run.description description clock run.sent

def transmitted (call : SenderCall) (clock : UInt64) (run : SenderRun) : List UInt8 :=
  (call.perform clock run).frame.bytes

/-- The bytes as the arguments and the clock determine them, if they do. -/
def determinedBytes (call : SenderCall) (clock : UInt64) : Option (List UInt8) :=
  match call with
  | .requestTimesync =>
      some (LoraTimeSyncMsg.toBytes ⟨LoraMsgType.timeRequest.code, clock, 0, 0, 0⟩)
  | .sendTimeResponse request =>
      some (LoraTimeSyncMsg.toBytes
        ⟨LoraMsgType.timeResponse.code, request.t1, request.t2, clock, 0⟩)
  | .sendData message =>
      some (LoraMsgType.data.code :: (message.text.take 253 ++ [0]))
  | .sendTimestamp (some text) =>
      some (LoraMsgType.timestamp.code :: (u64Bytes clock ++
        (text.text.take 49 ++ 0 :: List.replicate (49 - text.text.length) 0)))
  | .sendTimestamp none => none

theorem transmitted_eq {call : SenderCall} {clock : UInt64} {bytes : List UInt8}
    (determined : call.determinedBytes clock = some bytes) (run : SenderRun) :
    call.transmitted clock run = bytes := by
  cases call with
  | requestTimesync =>
      obtain rfl := Option.some.inj determined
      exact congrArg Frame.bytes (loraRequestTimesync_frame clock run.sent)
  | sendTimeResponse request =>
      obtain rfl := Option.some.inj determined
      exact congrArg Frame.bytes (loraSendTimeResponse_frame request clock run.sent)
  | sendData message =>
      obtain rfl := Option.some.inj determined
      exact loraSendData_frame run.payload message run.sent
  | sendTimestamp description =>
      cases description with
      | none => cases determined
      | some text =>
          obtain rfl := Option.some.inj determined
          exact loraSendTimestamp_some run.description text clock run.sent

theorem transmitted_null (clock : UInt64) (run : SenderRun) :
    (sendTimestamp none).transmitted clock run =
      LoraMsgType.timestamp.code ::
        (u64Bytes clock ++ 0 :: run.description.toList.tail) :=
  loraSendTimestamp_null run.description clock run.sent

/-- Forty-nine bytes of the variable can be told from the frame. -/
theorem transmitted_null_eq_iff (clock : UInt64) (run other : SenderRun) :
    (sendTimestamp none).transmitted clock run =
        (sendTimestamp none).transmitted clock other ↔
      run.description.toList.tail = other.description.toList.tail := by
  rw [transmitted_null, transmitted_null]
  simp

def stackOf (byte : UInt8) : SenderRun :=
  ⟨List.Vector.replicate 254 byte, List.Vector.replicate 50 byte, true⟩

/-- Of all calls only the one without a description transmits what it found. -/
theorem transmitted_determined_iff (call : SenderCall) (clock : UInt64) :
    Determined (call.transmitted clock) ↔ call ≠ .sendTimestamp none := by
  constructor
  · intro determined isNull
    subst isNull
    have tails := (transmitted_null_eq_iff clock _ _).mp
      (determined (stackOf 0) (stackOf 1))
    exact absurd tails (by decide)
  · intro notNull
    cases call with
    | requestTimesync => exact .of_eq (transmitted_eq rfl)
    | sendTimeResponse request => exact .of_eq (transmitted_eq rfl)
    | sendData message => exact .of_eq (transmitted_eq rfl)
    | sendTimestamp description =>
        cases description with
        | none => exact absurd rfl notNull
        | some text => exact .of_eq (transmitted_eq rfl)

/-- Two frames of the same moment that differ in all but ten bytes. -/
theorem transmitted_undetermined :
    (sendTimestamp none).transmitted 0 (stackOf 0) =
        0x04 :: List.replicate 58 0 ∧
      (sendTimestamp none).transmitted 0 (stackOf 1) =
        0x04 :: (List.replicate 9 0 ++ List.replicate 49 1) ∧
      ¬ ∀ (call : SenderCall) (clock : UInt64), Determined (call.transmitted clock) := by
  have zeros : (sendTimestamp none).transmitted 0 (stackOf 0) =
      0x04 :: List.replicate 58 0 := by decide
  have ones : (sendTimestamp none).transmitted 0 (stackOf 1) =
      0x04 :: (List.replicate 9 0 ++ List.replicate 49 1) := by decide
  have different : (sendTimestamp none).transmitted 0 (stackOf 0) ≠
      (sendTimestamp none).transmitted 0 (stackOf 1) := by
    rw [zeros, ones]
    decide
  exact ⟨zeros, ones, fun always => Determined.not_of_ne different (always _ _)⟩

end SenderCall

/-- The task always passes a description. -/
theorem TxTask.step_residue (task : TxTask) (env : TaskEnv) (residue : CArray 50) :
    task.step { env with residue } = task.step env := by
  obtain ⟨phase, buf, timeSynced, msgCounter, lastSync, lastMsg⟩ := task
  cases phase with
  | sendTimestamp =>
      rw [step_sendTimestamp rfl, step_sendTimestamp rfl,
        Frame.eq_of_bytes ((loraSendTimestamp_some residue _ env.clock env.sent).trans
          (loraSendTimestamp_some env.residue _ env.clock env.sent).symm)]
  | _ => rfl

def TickedEnv.over (action : TickedEnv) (residue : CArray 50) : TickedEnv :=
  { action with env := { action.env with residue } }

theorem slaveLoop_step_over (start : UInt32) (state : TickedTask)
    (action : TickedEnv) (residue : CArray 50) :
    (slaveLoop start).step state (action.over residue) =
      (slaveLoop start).step state action := by
  have same := state.task.step_residue
    { action.env with tick := tickCount start (state.elapsed + action.increment) }
    residue
  simp only [slaveLoop, tickedStep, TickedEnv.over, same]

/-- The frames, their ticks and the state in which the task ends do not depend on
what the stack held at any of its steps. -/
theorem slaveLoop_determined (start : UInt32) (state : TickedTask)
    (actions : List TickedEnv) :
    Determined fun residues : Nat → CArray 50 =>
      (slaveLoop start).run state (actions.mapIdx fun index action =>
        action.over (residues index)) :=
  .run (fun state action => .of_eq (slaveLoop_step_over start state action)) state
    actions

end Lora32Mqtt
