import Lora32Mqtt.Network.Channel
import Mathlib.Data.List.Perm.Basic

/-!
# What a step of a node can do

One inversion lemma for each task, so that the invariants of the network look at
a few kinds of step and not at the phases.
-/

namespace Lora32Mqtt

def requestFrame (clock : UInt64) : Frame :=
  LoraTimeSyncMsg.toFrame ⟨LoraMsgType.timeRequest.code, clock, 0, 0, 0⟩

namespace TxTask

/-- Synchronised, or about to send because it was. -/
def Ready (task : TxTask) : Prop :=
  task.timeSynced = true ∨ task.phase = .sendTimestamp

def Adjusting (task : TxTask) (offset : Int) : Prop :=
  task.phase = .adjust offset

/-- The kinds of step of `lora_tx_task`, with what each does to `time_synced`. -/
inductive Move (task : TxTask) (env : TaskEnv) : TxTask × List TxEffect → Prop
  | silent {next : TxTask}
      (calm : ∀ offset, ¬ task.Adjusting offset)
      (calmNext : ∀ offset, ¬ next.Adjusting offset)
      (ready : next.Ready → task.Ready)
      (synced : next.timeSynced = task.timeSynced ∨
        task.phase = .requestSent)
      (notSent : next.phase ≠ .requestSent) :
      Move task env (next, [])
  | request {next : TxTask}
      (calm : ∀ offset, ¬ task.Adjusting offset)
      (calmNext : ∀ offset, ¬ next.Adjusting offset)
      (ready : next.Ready → task.Ready) :
      Move task env (next, [.timeRequest (requestFrame env.clock)])
  | timestamp {next : TxTask} {frame : Frame}
      (calm : ∀ offset, ¬ task.Adjusting offset)
      (nextPhase : next.phase = .messageSent)
      (synced : next.timeSynced = task.timeSynced)
      (ready : task.Ready)
      (kind : frame.Is .timestamp sizeofLoraTimestampMsg)
      (stamp : readU64 frame.bytes 1 = env.clock) :
      Move task env (next, [.timestamp frame])
  | adjusts {next : TxTask} {response : LoraTimeSyncMsg}
      (calm : ∀ offset, ¬ task.Adjusting offset)
      (kind : response.msgType = LoraMsgType.timeResponse.code)
      (frame : env.received.bytes = response.toBytes)
      (large : needsAdjustment (timeOffset response env.clock) = true)
      (nextPhase : next.Adjusting (timeOffset response env.clock))
      (synced : next.timeSynced = task.timeSynced) :
      Move task env (next, [.timeResponse env.received env.clock])
  | accepts {next : TxTask} {response : LoraTimeSyncMsg}
      (calm : ∀ offset, ¬ task.Adjusting offset)
      (kind : response.msgType = LoraMsgType.timeResponse.code)
      (frame : env.received.bytes = response.toBytes)
      (small : needsAdjustment (timeOffset response env.clock) = false)
      (nextPhase : next.phase = .message)
      (synced : next.timeSynced = true) :
      Move task env (next, [.timeResponse env.received env.clock])
  | sets {next : TxTask} {offset : Int}
      (phase : task.Adjusting offset)
      (nextPhase : next.phase = .message)
      (synced : next.timeSynced = true) :
      Move task env
        (next, [.settimeofday
          (adjustedTimeval (gettimeofday env.clock) offset)])

variable {task : TxTask} {env : TaskEnv}

theorem not_adjusting {phase : TxPhase} (atPhase : task.phase = phase)
    (other : ∀ offset, phase ≠ .adjust offset) (offset : Int) :
    ¬ task.Adjusting offset := by
  intro adjusting
  exact other offset (atPhase.symm.trans adjusting)

theorem Ready.of_synced {next : TxTask}
    (synced : next.timeSynced = task.timeSynced)
    (notSending : next.phase ≠ .sendTimestamp) (ready : next.Ready) :
    task.Ready := by
  rcases ready with done | sending
  · exact .inl (synced ▸ done)
  · exact absurd sending notSending

theorem Adjusting.injective {first second : Int}
    (one : task.Adjusting first) (other : task.Adjusting second) :
    first = second := by
  have same := one.symm.trans other
  injection same

theorem Move.quiet {next : TxTask} {phase nextPhase : TxPhase}
    (before : task.phase = phase) (after : next.phase = nextPhase)
    (calm : ∀ offset, phase ≠ .adjust offset)
    (calmNext : ∀ offset, nextPhase ≠ .adjust offset)
    (notSending : nextPhase ≠ .sendTimestamp)
    (notSent : nextPhase ≠ .requestSent)
    (synced : next.timeSynced = task.timeSynced) :
    Move task env (next, []) := by
  exact .silent (not_adjusting before calm) (not_adjusting after calmNext)
    (.of_synced synced (by rw [after]; exact notSending)) (.inl synced)
    (by rw [after]; exact notSent)

theorem move_receive (phase : task.phase = .receive) :
    Move task env (task.step env) := by
  have calm := not_adjusting phase (by simp)
  by_cases kind : env.received.Is .timeResponse sizeofLoraTimeSyncMsg
  · have code := kind.2
    have frame := (LoraTimeSyncMsg.toBytes_ofBytes kind.1).symm
    cases adjusts : needsAdjustment
        (timeOffset (LoraTimeSyncMsg.ofBytes env.received.bytes) env.clock) with
    | true =>
        rw [step_receive_adjusts phase code frame adjusts]
        exact .adjusts calm code frame adjusts rfl rfl
    | false =>
        rw [step_receive_accepts phase code frame adjusts]
        exact .accepts calm code frame adjusts rfl rfl
  · rw [step_receive_other phase kind]
    exact .quiet phase rfl (by simp) (by simp) (by simp) (by simp) rfl

theorem move_message (phase : task.phase = .message) :
    Move task env (task.step env) := by
  by_cases due : task.timeSynced = true ∧
      env.tick - task.lastMsg > pdMsToTicks 5000
  · rw [step_message_due phase due.1 due.2]
    exact .silent (not_adjusting phase (by simp))
      (not_adjusting rfl (by simp)) (fun _ => .inl due.1) (.inl rfl) (by simp)
  · rw [step_message_waits phase due]
    exact .quiet phase rfl (by simp) (by simp) (by simp) (by simp) rfl

theorem move_resync (phase : task.phase = .resync) :
    Move task env (task.step env) := by
  by_cases due : env.tick - task.lastSync > pdMsToTicks 150000
  · rw [step_resync_due phase due]
    exact .quiet phase rfl (by simp) (by simp) (by simp) (by simp) rfl
  · rw [step_resync_waits phase due]
    exact .quiet phase rfl (by simp) (by simp) (by simp) (by simp) rfl

theorem move_requestSent (phase : task.phase = .requestSent) :
    Move task env (task.step env) := by
  rw [step_requestSent phase]
  refine .silent (not_adjusting phase (by simp)) (not_adjusting rfl (by simp))
    ?_ (.inr phase) (by simp)
  intro ready
  rcases ready with ready | sending
  · cases ready
  · cases sending

theorem move_sendTimestamp (phase : task.phase = .sendTimestamp) :
    Move task env (task.step env) := by
  rw [step_sendTimestamp phase]
  obtain ⟨kind, stamp, _⟩ := timestamp_decoded task.buf env.residue
    (some (messageLabel task.msgCounter)) env.clock env.sent
  exact .timestamp (not_adjusting phase (by simp)) rfl rfl (.inr phase)
    kind stamp

theorem move (task : TxTask) (env : TaskEnv) :
    Move task env (task.step env) := by
  cases phase : task.phase with
  | boot =>
      rw [step_boot phase, loraRequestTimesync_frame]
      exact .request (not_adjusting phase (by simp))
        (not_adjusting rfl (by simp)) (.of_synced rfl (by simp))
  | bootSync =>
      rw [step_bootSync phase]
      exact .quiet phase rfl (by simp) (by simp) (by simp) (by simp) rfl
  | bootMsg =>
      rw [step_bootMsg phase]
      exact .quiet phase rfl (by simp) (by simp) (by simp) (by simp) rfl
  | receive => exact move_receive phase
  | adjust offset =>
      rw [step_adjust phase]
      exact .sets phase rfl rfl
  | message => exact move_message phase
  | sendTimestamp => exact move_sendTimestamp phase
  | messageSent =>
      rw [step_messageSent phase]
      exact .quiet phase rfl (by simp) (by simp) (by simp) (by simp) rfl
  | resync => exact move_resync phase
  | sendRequest =>
      rw [step_sendRequest phase, loraRequestTimesync_frame]
      exact .request (not_adjusting phase (by simp))
        (not_adjusting rfl (by simp)) (.of_synced rfl (by simp))
  | requestSent => exact move_requestSent phase

end TxTask

namespace RxTask

/-- The kinds of step of `lora_rx_task`, with the frames it sends. -/
inductive Move (task : RxTask) (env : TaskEnv) : RxTask → List Frame → Prop
  | accepts {next : RxTask}
      (phase : task.phase = .receive)
      (request : env.received.Is .timeRequest sizeofLoraTimeSyncMsg)
      (nextPhase : next.phase = .respond)
      (t1 : readU64 next.buf.toList 1 = readU64 env.received.bytes 1)
      (t2 : readU64 next.buf.toList 9 = env.clock) :
      Move task env next []
  | answers {next : RxTask}
      (phase : task.phase = .respond)
      (nextPhase : next.phase = .receive) :
      Move task env next
        [LoraTimeSyncMsg.toFrame
          { msgType := LoraMsgType.timeResponse.code
            t1 := readU64 task.buf.toList 1
            t2 := readU64 task.buf.toList 9
            t3 := env.clock
            t4 := 0 }]
  | ignores {next : RxTask}
      (phase : task.phase = .receive)
      (nextPhase : next.phase = .receive) :
      Move task env next []

theorem move (task : RxTask) (env : TaskEnv) :
    Move task env (task.step env).1
      ((task.step env).2.filterMap RxEffect.sentFrame) := by
  cases phase : task.phase with
  | respond =>
      simp only [step, phase, loraSendTimeResponse_frame,
        LoraTimeSyncMsg.ofBytes, List.filterMap_cons, List.filterMap_nil,
        RxEffect.sentFrame]
      exact .answers phase rfl
  | receive =>
      by_cases request : isMessage .timeRequest sizeofLoraTimeSyncMsg
          (receiveInto task.buf env.received) env.received = true
      · have kind := (isMessage_iff _ (by decide) _ _).mp request
        have inside : 1 + 8 ≤ env.received.bytes.length := by
          rw [kind.1]
          decide
        simp only [step, phase, request, if_true, List.filterMap_nil]
        refine .accepts phase kind rfl ?_ ?_
        · rw [readU64_storeT2_t1, readU64_receiveInto inside]
        · rw [readU64_storeT2_t2, getEpochTimeUs_eq]
      · by_cases timestamp : isMessage .timestamp sizeofLoraTimestampMsg
            (receiveInto task.buf env.received) env.received = true
        · simp only [step, phase, request, timestamp, Bool.false_eq_true,
            if_false, if_true, handleTimestamp, List.filterMap_cons,
            List.filterMap_nil, RxEffect.sentFrame]
          exact .ignores phase rfl
        · simp only [step, phase, request, timestamp, Bool.false_eq_true,
            if_false, List.filterMap_nil]
          exact .ignores phase rfl

end RxTask

variable {ι : Type}

/-- A frame is taken out of an inbox at most once. -/
theorem takePacket_perm {inbox rest : List (Packet ι)} {choice : Option Nat}
    {heard : Option (Packet ι)}
    (taken : takePacket inbox choice = some (heard, rest)) :
    inbox.Perm (heard.toList ++ rest) := by
  cases choice with
  | none =>
      simp only [takePacket, Option.some.injEq, Prod.mk.injEq] at taken
      obtain ⟨rfl, rfl⟩ := taken
      exact .refl _
  | some index =>
      by_cases inside : index < inbox.length
      · simp only [takePacket, List.getElem?_eq_getElem inside,
          Option.some.injEq, Prod.mk.injEq] at taken
        obtain ⟨rfl, rfl⟩ := taken
        exact (List.getElem_cons_eraseIdx_perm inside).symm
      · simp [takePacket, List.getElem?_eq_none (not_lt.mp inside)] at taken

theorem mem_of_heard {inbox rest : List (Packet ι)} {choice : Option Nat}
    {packet : Packet ι}
    (taken : takePacket inbox choice = some (some packet, rest)) :
    packet ∈ inbox :=
  (takePacket_perm taken).mem_iff.mpr (by simp)

end Lora32Mqtt
