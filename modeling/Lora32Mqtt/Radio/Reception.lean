import Lora32Mqtt.Base.Machine
import Lora32Mqtt.Lora.Tasks
import Lora32Mqtt.Radio.PacketParams

/-!
# Receptions and the frames the tasks see

`LoRaReceive` looks at one bit of the interrupt status, clears all of them and
reads the frame, so that the tasks are told of a frame with a failed check just
as of any other.  A listener is a task that calls `LoRaReceive` in its loop.
-/

namespace Lora32Mqtt

/-- What the chip reports to one call of `LoRaReceive`. -/
structure Reception where
  irqStatus : UInt16
  payloadLength : UInt8
  rxStartBufferPointer : UInt8
  /-- The data buffer of the chip, read with wrap-around. -/
  buffer : UInt8 → UInt8

namespace Reception

variable (reception : Reception)

def payload : List UInt8 :=
  (List.range reception.payloadLength.toNat).map fun index =>
    reception.buffer (reception.rxStartBufferPointer + UInt8.ofNat index)

/-- `LoRaReceive (buf, len)`: the bytes stored in `buf`, as many as it
returns. -/
def received (len : Int) : List UInt8 :=
  if reception.irqStatus &&& 0x02 ≠ 0 then
    if (reception.payloadLength.toNat : Int) > len then []
    else reception.payload
  else []

@[simp] theorem length_payload :
    reception.payload.length = reception.payloadLength.toNat := by
  simp [payload]

theorem length_received_le (len : Int) :
    (reception.received len).length ≤ 255 := by
  have byte := reception.payloadLength.toNat_lt
  simp only [received]
  split
  · split
    · exact Nat.zero_le _
    · rw [length_payload]
      omega
  · exact Nat.zero_le _

def frame : Frame := ⟨reception.received 256, reception.length_received_le 256⟩

/-- `SX126X_IRQ_CRC_ERR` or `SX126X_IRQ_HEADER_ERR` is set. -/
def Damaged : Prop :=
  reception.irqStatus &&& 0x40 ≠ 0 ∨ reception.irqStatus &&& 0x20 ≠ 0

instance : Decidable reception.Damaged := inferInstanceAs (Decidable (_ ∨ _))

/-- `SX126X_IRQ_RX_DONE` is not set, or there is no payload. -/
def Unread : Prop :=
  reception.irqStatus &&& 0x02 = 0 ∨ reception.payloadLength = 0

instance : Decidable reception.Unread := inferInstanceAs (Decidable (_ ∨ _))

theorem received_eq_nil_iff :
    reception.received 256 = [] ↔ reception.Unread := by
  have byte := reception.payloadLength.toNat_lt
  have none : reception.payload = [] ↔ reception.payloadLength = 0 := by
    rw [← List.length_eq_zero_iff, length_payload, ← UInt8.toNat_inj]
    rfl
  simp only [received, Unread]
  split
  next done =>
    rw [if_neg (by omega), none]
    simp [done]
  next notDone => simp [not_not.mp notDone]

theorem exists_payload (irqStatus : UInt16) (payloadLength offset : UInt8)
    {bytes : List UInt8} (size : bytes.length = payloadLength.toNat) :
    ∃ reception : Reception, reception.irqStatus = irqStatus ∧
      reception.payloadLength = payloadLength ∧ reception.payload = bytes := by
  have byte := payloadLength.toNat_lt
  refine ⟨⟨irqStatus, payloadLength, offset,
    fun address => bytes.getD (address - offset).toNat 0⟩, rfl, rfl, ?_⟩
  refine List.ext_getElem (by simp [payload, size]) fun index inside stored => ?_
  rw [length_payload] at inside
  have place : (offset + UInt8.ofNat index - offset).toNat = index := by
    have start := offset.toNat_lt
    simp only [UInt8.toNat_sub, UInt8.toNat_add, UInt8.toNat_ofNat']
    dsimp only at inside
    omega
  simp only [payload, List.getElem_map, List.getElem_range, place]
  rw [List.getD_eq_getElem?_getD, List.getElem?_eq_getElem stored,
    Option.getD_some]

end Reception

namespace Radio

variable (chip : Chip)

theorem transfers_readAll_length (count : Nat) :
    Transfers (readAll chip count) fun result _ => result.length = count := by
  induction count with
  | zero => exact (Transfers.pure []).weaken fun _ _ both => by rw [both.1]; rfl
  | succ count induction =>
      refine ((transfers_spiTransfer chip 0x00).bind fun first =>
        induction.bind fun rest => Transfers.pure (first :: rest)).weaken ?_
      intro result sent parts
      obtain ⟨_, _, _, _, ⟨rest, _, _, size, ⟨rfl, _⟩, _⟩, _⟩ := parts
      rw [List.length_cons, size]

theorem transaction_returns {Result : Type} {cmd : UInt8} {body : Radio Result}
    {spec : Result → List UInt8 → Prop} (transfers : Transfers body spec)
    {state later : RadioState} {result : Result}
    (returned : transaction chip cmd body state = (some result, later)) :
    ∃ sent, spec result sent := by
  obtain ⟨answer, sent, holds, outcome⟩ :=
    transaction_eq chip cmd transfers state
  rw [returned] at outcome
  simp only at outcome
  split at outcome
  · split at outcome
    · obtain rfl := Option.some.inj (congrArg Prod.fst outcome)
      exact ⟨sent, holds⟩
    · cases congrArg Prod.fst outcome
  · cases congrArg Prod.fst outcome

theorem readBuffer_returns {rxDataLen : Int} {state later : RadioState}
    {bytes : List UInt8} (irqStatus : UInt16) (done : irqStatus &&& 0x02 ≠ 0)
    (returned : readBuffer chip rxDataLen state = (some bytes, later)) :
    ∃ reception : Reception, reception.irqStatus = irqStatus ∧
      bytes = reception.received rxDataLen := by
  simp only [readBuffer] at returned
  cases told : readCommand chip 0x13 3 state with
  | mk answer middle =>
      cases answer with
      | none =>
          rw [Program.bind_of_none told] at returned
          cases congrArg Prod.fst returned
      | some status =>
          rw [Program.bind_of_some told] at returned
          split at returned
          next tooLong =>
            refine ⟨⟨irqStatus, (status.drop 1).headD 0, 0, fun _ => 0⟩, rfl, ?_⟩
            rw [Reception.received, if_pos done, if_pos tooLong]
            exact (Option.some.inj (congrArg Prod.fst returned)).symm
          next fits =>
            obtain ⟨sent, _, _, _, _, size, _⟩ := transaction_returns chip
              ((transfers_sendAll chip _).bind fun _ =>
                transfers_readAll_length chip _) returned
            obtain ⟨reception, same, length, rfl⟩ := Reception.exists_payload
              irqStatus ((status.drop 1).headD 0) ((status.drop 2).headD 0) size
            refine ⟨reception, same, ?_⟩
            rw [Reception.received, same, length, if_pos done, if_neg fits]

/-- The driver returns what a reception with the status it has read leaves. -/
theorem loRaReceive_returns {len : Int} {state later : RadioState}
    {bytes : List UInt8}
    (returned : loRaReceive chip len state = (some bytes, later)) :
    ∃ reception : Reception,
      (getIrqStatus chip state).1 = some reception.irqStatus ∧
        bytes = reception.received len := by
  simp only [loRaReceive] at returned
  cases told : getIrqStatus chip state with
  | mk answer middle =>
      cases answer with
      | none =>
          rw [Program.bind_of_none told] at returned
          cases congrArg Prod.fst returned
      | some irqRegs =>
          rw [Program.bind_of_some told] at returned
          split at returned
          next done =>
            cases cleared : clearIrqStatus chip 0x3FF middle with
            | mk answer last =>
                cases answer with
                | none =>
                    rw [Program.bind_of_none cleared] at returned
                    cases congrArg Prod.fst returned
                | some _ =>
                    rw [Program.bind_of_some cleared] at returned
                    obtain ⟨reception, same, received⟩ :=
                      readBuffer_returns chip irqRegs done returned
                    exact ⟨reception, by rw [same], received⟩
          next notDone =>
            refine ⟨⟨irqRegs, 0, 0, fun _ => 0⟩, rfl, ?_⟩
            rw [Reception.received, if_neg notDone]
            exact (Option.some.inj (congrArg Prod.fst returned)).symm

end Radio

/-- A task that takes up what `LoRaReceive` returns in some of its states, and
may go on with it in a later step. -/
structure Listener (Task Effect : Type) where
  step : Task → TaskEnv → Task × List Effect
  listens : Task → Bool
  /-- A reaction to the last frame is to follow. -/
  pending : Task → Bool
  /-- The effect is a reaction to a frame. -/
  reaction : Effect → Bool
  /-- A reaction begins with a frame, or was begun before. -/
  reacts : ∀ task env,
    pending (step task env).1 = true ∨
        (∃ effect ∈ (step task env).2, reaction effect = true) →
      if listens task then env.received.bytes ≠ [] else pending task = true

/-- One step of a listener: the reception it has taken up, if any, and what it
did. -/
structure Round (Effect : Type) where
  heard : Option Reception
  effects : List Effect

namespace Listener

variable {Task Effect : Type} (listener : Listener Task Effect)

/-- The chip reports a reception at every step; a task that does not listen does
not see it. -/
def loop : Machine Task (Reception × TaskEnv) (Round Effect) where
  step task input :=
    let env := { input.2 with received := input.1.frame }
    some ((listener.step task env).1,
      [{ heard := if listener.listens task then some input.1 else none
         effects := (listener.step task env).2 }])

end Listener

section Discards

variable {Task Effect : Type}

def lastHeard (history : List (Round Effect)) : Option Reception :=
  (history.filterMap Round.heard).getLast?

theorem lastHeard_concat (history : List (Round Effect)) (round : Round Effect) :
    lastHeard (history ++ [round]) = round.heard.or (lastHeard history) := by
  cases heard : round.heard with
  | none => simp [lastHeard, heard]
  | some reception => simp [lastHeard, heard]

/-- The last frame taken up before or in a round was undamaged. -/
def OnUndamaged (past : List (Round Effect)) (round : Round Effect) : Prop :=
  ∃ reception, lastHeard (past ++ [round]) = some reception ∧
    ¬ reception.Damaged

/-- `LoRaReceive` returned 0 for every damaged frame, and the task reacted to
undamaged ones only. -/
structure Discards (reaction : Effect → Bool) (history : List (Round Effect)) :
    Prop where
  discarded : ∀ round ∈ history, ∀ reception, round.heard = some reception →
    reception.Damaged → reception.received 256 = []
  reactions : Justified
    (fun past round => ∀ effect ∈ round.effects, reaction effect = true →
      OnUndamaged past round) history

/-- Every damaged frame of the history came without `RX_DONE` or without a
payload. -/
def DamagedUnread (history : List (Round Effect)) : Prop :=
  ∀ round ∈ history, ∀ reception, round.heard = some reception →
    reception.Damaged → reception.Unread

variable {listener : Listener Task Effect} {start task : Task}
  {history : List (Round Effect)}

theorem DamagedUnread.reactions (idle : listener.pending start = false)
    (reached : listener.loop.Reaches start history task)
    (unread : DamagedUnread history) :
    (listener.pending task = true → ∃ reception,
        lastHeard history = some reception ∧ ¬ reception.Damaged) ∧
      Justified
        (fun past round => ∀ effect ∈ round.effects,
          listener.reaction effect = true → OnUndamaged past round) history := by
  induction reached with
  | refl =>
      refine ⟨fun pending => ?_, Justified.nil⟩
      rw [idle] at pending
      cases pending
  | @step history events task next input _ taken induction =>
      have earlier : DamagedUnread history := fun round member =>
        unread round (List.mem_append_left _ member)
      obtain ⟨awaited, justified⟩ := induction earlier
      obtain ⟨rfl, rfl⟩ := Prod.mk.inj (Option.some.inj taken)
      -- a reaction needs an undamaged frame, now or before
      have begun := listener.reacts task { input.2 with received := input.1.frame }
      have undamaged : (if listener.listens task
          then input.1.frame.bytes ≠ [] else listener.pending task = true) →
          ∃ reception,
            (if listener.listens task then some input.1 else none).or
              (lastHeard history) = some reception ∧ ¬ reception.Damaged := by
        intro reacting
        cases listens : listener.listens task with
        | true =>
            rw [listens, if_pos rfl] at reacting
            refine ⟨input.1, rfl, fun damaged => reacting ?_⟩
            refine (Reception.received_eq_nil_iff _).mpr
              (unread _ (List.mem_append_right _ List.mem_cons_self) _ ?_ damaged)
            simp [listens]
        | false =>
            rw [listens, if_neg (by decide)] at reacting
            exact awaited reacting
      constructor
      · intro pending
        rw [lastHeard_concat]
        exact undamaged (begun (Or.inl pending))
      · refine justified.concat fun effect member reaction => ?_
        rw [OnUndamaged, lastHeard_concat]
        exact undamaged (begun (Or.inr ⟨effect, member, reaction⟩))

theorem discards_iff (idle : listener.pending start = false)
    (reached : listener.loop.Reaches start history task) :
    Discards listener.reaction history ↔ DamagedUnread history := by
  constructor
  · intro discards round member reception heard damaged
    exact (Reception.received_eq_nil_iff _).mp
      (discards.discarded round member reception heard damaged)
  · intro unread
    refine ⟨fun round member reception heard damaged => ?_,
      (DamagedUnread.reactions idle reached unread).2⟩
    exact (Reception.received_eq_nil_iff _).mpr
      (unread round member reception heard damaged)

end Discards

end Lora32Mqtt
