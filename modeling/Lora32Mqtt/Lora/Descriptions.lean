import Lora32Mqtt.Base.Determined
import Lora32Mqtt.Base.Machine
import Lora32Mqtt.Lora.FrameFormat

/-!
# Received descriptions

The master logs the description of a timestamp frame as the C string that starts
in its receive buffer.  Behind a frame of 59 bytes this buffer holds what was there
before: the tails of longer frames, or what the stack held.
-/

namespace Lora32Mqtt

/-- The effect logs a description. -/
def RxEffect.logged : RxEffect → Option (Option (List UInt8))
  | .logDescription text => some text
  | _ => none

/-- One step of `lora_rx_task`: the frame that was received, if the task listened,
the buffer after it, and the effects. -/
structure RxRound where
  heard : Option Frame
  buf : CArray 256
  effects : List RxEffect

def rxLoop : Machine RxTask TaskEnv RxRound where
  step task env :=
    some ((task.step env).1,
      [{ heard := if task.phase = .receive then some env.received else none
         buf := (task.step env).1.buf
         effects := (task.step env).2 }])

/-- The log shows the description of the frame, and is not read from behind it. -/
structure RxRound.ReadsWithin (round : RxRound) (frame : Frame) : Prop where
  ends : stringEnd round.buf.toList descriptionOffset < sizeofLoraTimestampMsg
  logged : round.effects.filterMap RxEffect.logged =
    [some (loggedText (cText frame.description))]

/-- Whatever timestamp frame the round handled. -/
def RxRound.Contained (round : RxRound) : Prop :=
  ∀ frame, round.heard = some frame →
    frame.Is .timestamp sizeofLoraTimestampMsg → round.ReadsWithin frame

def RxRound.HeardTerminated (round : RxRound) : Prop :=
  ∀ frame, round.heard = some frame →
    frame.Is .timestamp sizeofLoraTimestampMsg → frame.Terminated

section Frame

variable {frame : Frame} (isTimestamp : frame.Is .timestamp sizeofLoraTimestampMsg)
include isTimestamp

theorem stringEnd_receiveInto_iff (buf : CArray 256) :
    stringEnd (receiveInto buf frame).toList descriptionOffset <
        sizeofLoraTimestampMsg ↔
      frame.Terminated := by
  have length := frame.length_description isTimestamp
  rw [stringEnd, drop_receiveInto isTimestamp, Frame.Terminated,
    ← length_cText_append_lt_iff _ (buf.toList.drop sizeofLoraTimestampMsg), length,
    descriptionOffset, sizeofLoraTimestampMsg]
  omega

/-- Without a NUL in the field the log goes on with what is behind the frame. -/
theorem loggedDescription_unterminated (unterminated : ¬ frame.Terminated)
    (buf : CArray 256) :
    loggedDescription (receiveInto buf frame) =
      cString (frame.description ++ buf.toList.drop sizeofLoraTimestampMsg) := by
  rw [loggedDescription, drop_receiveInto isTimestamp, if_neg]
  intro nul
  rw [Frame.Terminated] at unterminated
  cases description : frame.description with
  | nil =>
      have length := frame.length_description isTimestamp
      rw [description] at length
      cases length
  | cons head tail =>
      rw [description, List.cons_append, List.headD_cons] at nul
      rw [description, nul] at unterminated
      exact unterminated List.mem_cons_self

/-- What is logged is decided by the frame alone exactly if it is terminated.  With
zeros behind it the string ends there, with ones it leaves the buffer. -/
theorem loggedDescription_determined_iff :
    Determined (fun buf => loggedDescription (receiveInto buf frame)) ↔
      frame.Terminated := by
  constructor
  · intro determined
    by_contra unterminated
    have behind (byte : UInt8) : (List.Vector.replicate 256 byte).toList.drop
        sizeofLoraTimestampMsg = List.replicate 197 byte := List.drop_replicate
    have ones : cString (frame.description ++ List.replicate 197 1) = none := by
      refine cString_eq_none_iff.mpr (fun member => ?_)
      rcases List.mem_append.mp member with inside | behind
      · exact unterminated inside
      · exact absurd (List.eq_of_mem_replicate behind) (by decide)
    have same := determined (List.Vector.replicate 256 0) (List.Vector.replicate 256 1)
    dsimp only at same
    rw [loggedDescription_unterminated isTimestamp unterminated,
      loggedDescription_unterminated isTimestamp unterminated, behind, behind, ones,
      List.replicate_succ, cString_append_nul unterminated] at same
    cases same
  · exact fun terminated =>
      .of_eq (loggedDescription_receiveInto isTimestamp terminated)

end Frame

theorem rxLoop_step {task next : RxTask} {env : TaskEnv} {rounds : List RxRound}
    (taken : rxLoop.step task env = some (next, rounds)) :
    ∀ round ∈ rounds, round.Contained ↔ round.HeardTerminated := by
  obtain ⟨_, rfl⟩ := Prod.mk.inj (Option.some.inj taken)
  intro round member
  obtain rfl := List.mem_singleton.mp member
  refine forall_congr' fun frame => forall_congr' fun heard =>
    forall_congr' fun isTimestamp => ?_
  obtain ⟨phase, buf⟩ := task
  cases phase with
  | respond => cases heard
  | receive =>
      obtain rfl := Option.some.inj heard
      have step := RxTask.step_timestamp buf env isTimestamp
      constructor
      · intro within
        have ends := within.ends
        rw [step] at ends
        exact (stringEnd_receiveInto_iff isTimestamp buf).mp ends
      · intro terminated
        refine ⟨?_, ?_⟩
        · rw [step]
          exact (stringEnd_receiveInto_iff isTimestamp buf).mpr terminated
        · rw [step, ← loggedDescription_receiveInto isTimestamp terminated buf]
          rfl

/-- In every run the descriptions are read within their frames exactly if all of
them were terminated by the sender. -/
theorem descriptions_contained_iff {start task : RxTask} {history : List RxRound}
    (reached : rxLoop.Reaches start history task) :
    (∀ round ∈ history, round.Contained) ↔
      ∀ round ∈ history, round.HeardTerminated := by
  induction reached with
  | refl => simp
  | step _ taken induction =>
      rw [List.forall_mem_append, List.forall_mem_append, induction]
      exact and_congr_right fun _ => forall₂_congr (rxLoop_step taken)

def hearing (frame : Frame) : TaskEnv :=
  ⟨frame, 0, 0, true, List.Vector.replicate 50 0⟩

def onesTask : RxTask := ⟨.receive, List.Vector.replicate 256 1⟩

theorem descriptions_contained_sent :
    let frame := (loraSendTimestamp (List.Vector.replicate 50 1) none 0 true).frame
    ∃ history task, rxLoop.Reaches onesTask history task ∧
      history.filterMap RxRound.heard = [frame] ∧
      ∀ round ∈ history, round.Contained := by
  intro frame
  have reached := Machine.Reaches.step .refl
    (rfl : rxLoop.step onesTask (hearing frame) = some _)
  refine ⟨_, _, reached, rfl, (descriptions_contained_iff reached).mpr ?_⟩
  intro round member heardFrame heard _
  obtain rfl := List.mem_singleton.mp member
  obtain rfl := Option.some.inj heard
  exact loraSendTimestamp_terminated (List.Vector.replicate 50 1) none 0 true

def unterminated : Frame := ⟨0x04 :: List.replicate 58 1, by decide⟩

/-- Where the buffer held ones, such a description is read up to its end and on. -/
theorem descriptions_escape :
    loggedDescription (receiveInto onesTask.buf unterminated) = none ∧
    ¬ ∀ (start task : RxTask) (history : List RxRound),
      rxLoop.Reaches start history task → ∀ round ∈ history, round.Contained := by
  refine ⟨by decide +kernel, fun always => ?_⟩
  have taken : rxLoop.step onesTask (hearing unterminated) = some _ := rfl
  have contained := always _ _ _ (.step .refl taken) _ (List.mem_singleton_self _)
  have terminated := (rxLoop_step taken _ (List.mem_singleton_self _)).mp contained
  exact absurd (terminated unterminated rfl (by decide)) (by decide)

end Lora32Mqtt
