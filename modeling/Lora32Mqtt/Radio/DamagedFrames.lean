import Lora32Mqtt.Radio.Reception

/-!
# Damaged frames in the two loops

Both tasks listen, and both go on with what `LoRaReceive` gives them whatever
the interrupt status said about its checks.
-/

namespace Lora32Mqtt

theorem isMessage_nil (kind : LoraMsgType) (size : Nat) (buf : CArray 256)
    {received : Frame} (empty : received.bytes = []) :
    isMessage kind size buf received = false := by
  simp [isMessage, empty]

/-- `lora_rx_task`: everything it does is a reaction, a response one step after
its request. -/
def rxListener : Listener RxTask RxEffect where
  step := RxTask.step
  listens task := task.phase = .receive
  pending task := task.phase = .respond
  reaction _ := true
  reacts := by
    intro task env reacting
    cases phase : task.phase with
    | receive =>
        rw [if_pos (by decide)]
        intro empty
        simp [RxTask.step, phase, isMessage_nil _ _ _ empty] at reacting
    | respond => simp

/-- `lora_tx_task`: it reacts to responses, which set the clock one step
later. -/
def txListener : Listener TxTask TxEffect where
  step := TxTask.step
  listens task := task.phase = .receive
  pending task :=
    match task.phase with
    | .adjust _ => true
    | _ => false
  reaction effect :=
    match effect with
    | .timeResponse _ _ | .settimeofday _ => true
    | .timeRequest _ | .timestamp _ => false
  reacts := by
    intro task env reacting
    cases phase : task.phase with
    | receive =>
        rw [if_pos (by decide)]
        intro empty
        simp [TxTask.step, phase, isMessage_nil _ _ _ empty] at reacting
    | adjust offset => simp
    | message =>
        by_cases due : task.timeSynced = true ∧
          env.tick - task.lastMsg > pdMsToTicks 5000
        · simp [TxTask.step_message_due phase due.1 due.2] at reacting
        · simp [TxTask.step_message_waits phase due] at reacting
    | resync =>
        by_cases due : env.tick - task.lastSync > pdMsToTicks 150000
        · simp [TxTask.step_resync_due phase due] at reacting
        · simp [TxTask.step_resync_waits phase due] at reacting
    | boot => simp [TxTask.step, phase] at reacting
    | bootSync => simp [TxTask.step, phase] at reacting
    | bootMsg => simp [TxTask.step, phase] at reacting
    | sendTimestamp => simp [TxTask.step, phase] at reacting
    | messageSent => simp [TxTask.step, phase] at reacting
    | sendRequest => simp [TxTask.step, phase] at reacting
    | requestSent => simp [TxTask.step, phase] at reacting

/-- In every run of the master and of a slave, the damaged frames are discarded
and never reacted to exactly if none of them has `RX_DONE` and a payload. -/
theorem damagedFrames_discarded_iff {rxStart rxTask : RxTask}
    {txStart txTask : TxTask} {rxHistory : List (Round RxEffect)}
    {txHistory : List (Round TxEffect)}
    (rxReady : rxStart.phase = .receive)
    (rxReached : rxListener.loop.Reaches rxStart rxHistory rxTask)
    (txReady : txStart.phase = .boot)
    (txReached : txListener.loop.Reaches txStart txHistory txTask) :
    (Discards rxListener.reaction rxHistory ↔ DamagedUnread rxHistory) ∧
      (Discards txListener.reaction txHistory ↔ DamagedUnread txHistory) :=
  ⟨discards_iff (by simp [rxListener, rxReady]) rxReached,
    discards_iff (by simp [txListener, txReady]) txReached⟩

/-- A frame of which only the header was received, and damaged. -/
def headerError : Reception := ⟨0x30, 0, 0, fun _ => 0⟩

def calmEnv : TaskEnv where
  received := silence
  clock := 0
  tick := 0
  sent := true
  residue := List.Vector.replicate 50 0

def readyRxTask : RxTask := ⟨.receive, List.Vector.replicate 256 0⟩

def readyTxTask : TxTask :=
  ⟨.boot, List.Vector.replicate 256 0, false, 0, 0, 0⟩

def headerErrorRounds : List (Round RxEffect) := [⟨some headerError, []⟩]

theorem reaches_headerError :
    rxListener.loop.Reaches readyRxTask headerErrorRounds readyRxTask := by
  have taken : rxListener.loop.step readyRxTask (headerError, calmEnv) =
      some (readyRxTask, headerErrorRounds) := rfl
  exact .step .refl taken

/-- Three steps of the slave before it listens, and the one in which it hears the
damaged frame. -/
def headerErrorInputs : List (Reception × TaskEnv) :=
  List.replicate 4 (headerError, calmEnv)

/-- Both hear the header error, the slave after its first request. -/
theorem damagedFrames_discarded_headerError :
    let slaveRounds := txListener.loop.history readyTxTask headerErrorInputs
    lastHeard slaveRounds = some headerError ∧
      (Discards rxListener.reaction headerErrorRounds ↔
        DamagedUnread headerErrorRounds) ∧
      (Discards txListener.reaction slaveRounds ↔ DamagedUnread slaveRounds) := by
  obtain ⟨task, reached⟩ := Machine.exists_reaches
    (show (txListener.loop.run readyTxTask headerErrorInputs).isSome = true from rfl)
  exact ⟨rfl, damagedFrames_discarded_iff rfl reaches_headerError
    (rfl : readyTxTask.phase = .boot) reached⟩

/-- A `TIMESTAMP` frame with stamp 0 that failed its check. -/
def damagedTimestamp : Reception :=
  ⟨0x42, 59, 0, fun address => if address = 0 then 0x04 else 0⟩

/-- The master publishes it. -/
theorem damagedFrames_discarded_fails :
    ¬ ∀ (rxStart rxTask : RxTask) (rxHistory : List (Round RxEffect)),
      rxStart.phase = .receive →
        rxListener.loop.Reaches rxStart rxHistory rxTask →
          Discards rxListener.reaction rxHistory := by
  intro always
  have reached := Machine.Reaches.step .refl
    (rfl : rxListener.loop.step readyRxTask (damagedTimestamp, calmEnv) = some _)
  have discards := always readyRxTask _ _ rfl reached
  have empty := discards.discarded _ List.mem_cons_self damagedTimestamp rfl
    (by decide)
  rw [Reception.received_eq_nil_iff] at empty
  revert empty
  decide

end Lora32Mqtt
