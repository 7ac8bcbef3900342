import Mathlib.Data.List.Induction
import Lora32Mqtt.Base.Repeated
import Lora32Mqtt.Radio.Sent

/-!
# What goes on the air

Seen from the wire, the transmit side of the chip is a buffer, a base address, a
payload length and a command that sends so many bytes from there.  A free
`LoRaSend` makes it send exactly the frame it was given, whatever the chip was told
before; of more than 255 bytes it sends those behind the last wrap of the buffer.
-/

namespace Lora32Mqtt

namespace Radio

/-- Bytes are stored with wrap-around. -/
def writeFifo (fifo : UInt8 → UInt8) (address : UInt8) :
    List UInt8 → UInt8 → UInt8
  | [] => fifo
  | byte :: rest => writeFifo (Function.update fifo address byte) (address + 1) rest

def readFifo (fifo : UInt8 → UInt8) (address : UInt8) : Nat → List UInt8
  | 0 => []
  | count + 1 => fifo address :: readFifo fifo (address + 1) count

theorem writeFifo_other {fifo : UInt8 → UInt8} {address other : UInt8}
    {data : List UInt8}
    (apart : ∀ index < data.length, address + UInt8.ofNat index ≠ other) :
    writeFifo fifo address data other = fifo other := by
  induction data generalizing fifo address with
  | nil => rfl
  | cons byte rest induction =>
      have first := apart 0 (Nat.succ_pos _)
      have here : address ≠ other := by simpa using first
      rw [writeFifo, induction, Function.update_of_ne here.symm]
      intro index below
      have next := apart (index + 1) (Nat.succ_lt_succ below)
      rwa [UInt8.ofNat_add, UInt8.add_comm (UInt8.ofNat index), ← UInt8.add_assoc]
        at next

theorem readFifo_writeFifo (fifo : UInt8 → UInt8) (address : UInt8)
    {data : List UInt8} (fits : data.length ≤ 256) :
    readFifo (writeFifo fifo address data) address data.length = data := by
  induction data generalizing fifo address with
  | nil => rfl
  | cons byte rest induction =>
      rw [List.length_cons] at fits
      have first : writeFifo (Function.update fifo address byte) (address + 1) rest
          address = byte := by
        rw [writeFifo_other, Function.update_self]
        intro index below same
        have numbers := congrArg UInt8.toNat same
        simp only [UInt8.toNat_add, UInt8.toNat_ofNat', UInt8.reduceToNat] at numbers
        have small := address.toNat_lt
        omega
      rw [List.length_cons, readFifo, writeFifo, first, induction _ _ (by omega)]

theorem writeFifo_append (fifo : UInt8 → UInt8) (address : UInt8)
    (front rest : List UInt8) :
    writeFifo fifo address (front ++ rest) =
      writeFifo (writeFifo fifo address front)
        (address + UInt8.ofNat front.length) rest := by
  induction front generalizing fifo address with
  | nil => simp [writeFifo]
  | cons byte front induction =>
      rw [List.cons_append, writeFifo, induction, writeFifo, List.length_cons,
        UInt8.ofNat_add, UInt8.add_comm (UInt8.ofNat front.length), ← UInt8.add_assoc]
      rfl

/-- What a frame keeps of a payload: the bytes behind the last wrap of the buffer. -/
def carried (data : List UInt8) : List UInt8 := data.drop (256 * (data.length / 256))

theorem carried_of_short {data : List UInt8} (short : data.length ≤ 255) :
    carried data = data := by
  rw [carried, Nat.div_eq_of_lt (Nat.lt_succ_of_le short), Nat.mul_zero, List.drop_zero]

theorem length_carried (data : List UInt8) :
    (UInt8.ofNat data.length).toNat = (carried data).length := by
  rw [UInt8.toNat_ofNat', carried, List.length_drop]
  omega

/-- Earlier bytes are overwritten, so that the frame is read from the front. -/
theorem readFifo_carried (fifo : UInt8 → UInt8) (data : List UInt8) :
    readFifo (writeFifo fifo 0 data) 0 (UInt8.ofNat data.length).toNat =
      carried data := by
  have wraps : UInt8.ofNat (data.take (256 * (data.length / 256))).length = 0 := by
    have whole : 256 * (data.length / 256) ≤ data.length := Nat.mul_div_le _ _
    rw [List.length_take_of_le whole]
    refine UInt8.toNat_inj.mp ?_
    rw [UInt8.toNat_ofNat']
    exact Nat.mul_mod_right 256 _
  have split : data = data.take (256 * (data.length / 256)) ++ carried data :=
    (List.take_append_drop _ data).symm
  have short : (carried data).length ≤ 256 := by
    rw [← length_carried]
    exact Nat.le_of_lt (UInt8.toNat_lt _)
  rw [length_carried]
  conv_lhs => rw [split]
  rw [writeFifo_append, wraps, UInt8.add_zero]
  have same : (carried (data.take (256 * (data.length / 256)) ++ carried data)) =
      carried data := by rw [← split]
  rw [same]
  exact readFifo_writeFifo _ 0 short

structure Emitter where
  fifo : UInt8 → UInt8
  txBase : UInt8
  payloadLength : UInt8
  /-- The payloads sent so far. -/
  emitted : List (List UInt8)

namespace Emitter

def payload (emitter : Emitter) : List UInt8 :=
  readFifo emitter.fifo emitter.txBase emitter.payloadLength.toNat

/-- A command that is broken off does nothing. -/
def execute (emitter : Emitter) (cmd : UInt8) (operands : List UInt8) : Emitter :=
  if cmd = 0x0E then
    match operands with
    | offset :: data => { emitter with fifo := writeFifo emitter.fifo offset data }
    | [] => emitter
  else if cmd = 0x8C then
    match operands with
    | [_, _, _, length, _, _] => { emitter with payloadLength := length }
    | _ => emitter
  else if cmd = 0x8F then
    match operands with
    | [txBase, _] => { emitter with txBase := txBase }
    | _ => emitter
  else if cmd = 0x83 then
    match operands with
    | [_, _, _] => { emitter with emitted := emitter.emitted ++ [emitter.payload] }
    | _ => emitter
  else emitter

def step (emitter : Emitter) : List UInt8 → Emitter
  | [] => emitter
  | cmd :: operands => emitter.execute cmd operands

def after (start : Emitter) (log : List (List UInt8)) : Emitter := log.foldl step start

theorem after_append (start : Emitter) (log added : List (List UInt8)) :
    start.after (log ++ added) = (start.after log).after added :=
  List.foldl_append

/-- The commands that the transmit side listens to. -/
def heeds : List UInt8 := [0x0E, 0x8C, 0x8F, 0x83]

def Unheeded (cmds : List UInt8) : Prop := ∀ cmd ∈ cmds, cmd ∉ heeds

instance (cmds : List UInt8) : Decidable (Unheeded cmds) :=
  List.decidableBAll (fun cmd => cmd ∉ heeds) cmds

theorem step_unheeded (emitter : Emitter) {cmd : UInt8} (operands : List UInt8)
    (other : cmd ∉ heeds) : emitter.step (cmd :: operands) = emitter := by
  simp only [heeds, List.mem_cons, List.not_mem_nil, or_false, not_or] at other
  obtain ⟨notWrite, notParams, notBase, notTx⟩ := other
  simp only [step, execute, notWrite, notParams, notBase, notTx, if_false]

theorem after_unheeded (emitter : Emitter) {added : List (List UInt8)}
    (other : ∀ sent ∈ added, ∃ cmd ∉ heeds, ∃ operands, sent = cmd :: operands) :
    emitter.after added = emitter := by
  induction added with
  | nil => rfl
  | cons sent rest induction =>
      obtain ⟨cmd, notHeeded, operands, rfl⟩ := other sent List.mem_cons_self
      rw [after, List.foldl_cons, emitter.step_unheeded operands notHeeded]
      exact induction fun later member => other later (List.mem_cons_of_mem _ member)

@[simp] theorem step_write (emitter : Emitter) (offset : UInt8) (data : List UInt8) :
    emitter.step (0x0E :: offset :: data) =
      { emitter with fifo := writeFifo emitter.fifo offset data } := rfl

section Attempts

variable {cmd : UInt8} {data : List UInt8} {most : Nat} {sent : List (List UInt8)}

/-- A command that sets something has set it in its last attempt if it was
acknowledged, and in none of them or in some otherwise. -/
theorem after_setting (emitter : Emitter) (attempts : Attempts cmd data most sent)
    (partly : ∀ (other : Emitter) operands, operands <+: data → operands ≠ data →
      other.step (cmd :: operands) = other)
    (again : (emitter.step (cmd :: data)).step (cmd :: data) =
      emitter.step (cmd :: data)) :
    (emitter.after sent = emitter ∨ emitter.after sent = emitter.step (cmd :: data)) ∧
      (Acknowledged cmd data sent → emitter.after sent = emitter.step (cmd :: data)) := by
  have settles : ∀ (attempted : List (List UInt8)),
      (∀ one ∈ attempted, ∃ operands, one = cmd :: operands ∧ operands <+: data) →
      emitter.after attempted = emitter ∨
        emitter.after attempted = emitter.step (cmd :: data) := by
    intro attempted each
    induction attempted using List.reverseRecOn with
    | nil => exact .inl rfl
    | append_singleton earlier last induction =>
        have before := induction fun one member =>
          each one (List.mem_append_left _ member)
        obtain ⟨operands, rfl, within⟩ := each last List.mem_concat_self
        rw [after_append]
        change (emitter.after earlier).step (cmd :: operands) = _ ∨ _ = _
        by_cases whole : operands = data
        · subst whole
          rcases before with same | set
          · exact .inr (by rw [same]; rfl)
          · exact .inr (by rw [set]; exact again)
        · rw [partly _ operands within whole]
          rcases before with same | set
          · exact .inl same
          · refine .inr ?_
            change (emitter.after earlier).step (cmd :: operands) = _
            rw [partly _ operands within whole, set]
  refine ⟨settles sent attempts.each, fun acknowledged => ?_⟩
  obtain ⟨earlier, rfl⟩ := acknowledged
  rw [after_append]
  change (emitter.after earlier).step (cmd :: data) = _
  rcases settles earlier fun one member =>
    attempts.each one (List.mem_append_left _ member) with same | set
  · rw [same]
  · rw [set, again]

theorem length_lt_of_part {operands : List UInt8} (within : operands <+: data)
    (broken : operands ≠ data) : operands.length < data.length :=
  Nat.lt_of_le_of_ne within.length_le fun same => broken (within.eq_of_length same)

theorem after_setTx (emitter : Emitter) (first second third : UInt8)
    (attempts : Attempts 0x83 [first, second, third] most sent) :
    ∃ count ≤ most, emitter.after sent =
        { emitter with
          emitted := emitter.emitted ++ List.replicate count emitter.payload } ∧
      (Acknowledged 0x83 [first, second, third] sent → 1 ≤ count) := by
  have counted : ∀ (attempted : List (List UInt8)),
      (∀ one ∈ attempted, ∃ operands, one = 0x83 :: operands ∧
        operands <+: [first, second, third]) →
      ∃ count ≤ attempted.length, emitter.after attempted =
        { emitter with
          emitted := emitter.emitted ++ List.replicate count emitter.payload } := by
    intro attempted each
    induction attempted using List.reverseRecOn with
    | nil => exact ⟨0, Nat.le_refl 0, by simp [after]⟩
    | append_singleton earlier last induction =>
        obtain ⟨count, bounded, before⟩ := induction fun one member =>
          each one (List.mem_append_left _ member)
        obtain ⟨operands, rfl, within⟩ := each last List.mem_concat_self
        rw [after_append, before, List.length_append, List.length_singleton]
        by_cases whole : operands = [first, second, third]
        · subst whole
          refine ⟨count + 1, Nat.succ_le_succ bounded, ?_⟩
          rw [List.replicate_succ', ← List.append_assoc]
          rfl
        · refine ⟨count, Nat.le_succ_of_le bounded, ?_⟩
          have short := length_lt_of_part within whole
          rcases operands with _ | ⟨one, _ | ⟨two, _ | ⟨three, _ | ⟨four, rest⟩⟩⟩⟩
          · rfl
          · rfl
          · rfl
          · simp at short
          · simp only [List.length_cons, List.length_nil] at short
            omega
  obtain ⟨count, bounded, final⟩ := counted sent attempts.each
  refine ⟨count, Nat.le_trans bounded attempts.bounded, final, fun acknowledged => ?_⟩
  obtain ⟨earlier, rfl⟩ := acknowledged
  by_contra none
  obtain rfl : count = 0 := by omega
  have before := counted earlier fun one member =>
    attempts.each one (List.mem_append_left _ member)
  obtain ⟨earlierCount, _, earlierEq⟩ := before
  rw [after_append, earlierEq] at final
  have emissions := congrArg (fun reached => reached.emitted.length) final
  simp [after, step, execute] at emissions

end Attempts

end Emitter

section Programs

variable (chip : Chip) (start : Emitter) {frames : List (List UInt8)}
  {params : CArray 6} {active : Bool} {lost : Int32} {loaded : Emitter → Prop}

/-- The static variables, the payloads on the air, and what the chip is loaded
with. -/
structure Airs (frames : List (List UInt8)) (params : CArray 6) (active : Bool)
    (lost : Int32) (loaded : Emitter → Prop) (state : RadioState) : Prop where
  packetParams : state.packetParams = params
  txActive : state.txActive = active
  txLost : state.txLost = lost
  txBase : (start.after state.log).txBase = 0
  emitted : (start.after state.log).emitted = frames
  loaded : loaded (start.after state.log)

/-- The payloads on the air, wherever the driver has stopped. -/
def Aired (frames : List (List UInt8)) (state : RadioState) : Prop :=
  (start.after state.log).emitted = frames

variable {start}

/-- The transmit side does not notice a step that sends other commands. -/
theorem Sent.after_eq {cmds : List UInt8} {state later : RadioState}
    (sent : Sent cmds state later) (other : Emitter.Unheeded cmds) :
    start.after later.log = start.after state.log := by
  obtain ⟨added, logged, each⟩ := sent.log
  rw [logged, Emitter.after_append]
  refine Emitter.after_unheeded _ fun one member => ?_
  obtain ⟨cmd, isCmd, operands, rfl⟩ := each one member
  exact ⟨cmd, other cmd isCmd, operands, rfl⟩

theorem ensures_unheeded {Result : Type} {cmds : List UInt8} {program : Radio Result}
    (sends : Sends cmds program) (other : Emitter.Unheeded cmds) :
    Program.Ensures (Airs start frames params active lost loaded) program
      (fun _ => Airs start frames params active lost loaded) (Aired start frames) := by
  refine (sends.ensures fun state later sent airs => ?_).weaken
    (fun _ same => same) (fun _ _ same => same) fun _ airs => airs.emitted
  have same : start.after later.log = start.after state.log := sent.after_eq other
  exact ⟨sent.packetParams.trans airs.packetParams,
    sent.txActive.trans airs.txActive, sent.txLost.trans airs.txLost,
    by rw [same, airs.txBase], by rw [same, airs.emitted], by
      rw [same]
      exact airs.loaded⟩

/-- A command that sets something of the transmit side, and neither its base address
nor what was sent. -/
theorem ensures_setting {cmd : UInt8} {data : List UInt8}
    (partly : ∀ (other : Emitter) operands, operands <+: data → operands ≠ data →
      other.step (cmd :: operands) = other)
    (again : ∀ other : Emitter,
      (other.step (cmd :: data)).step (cmd :: data) = other.step (cmd :: data))
    (keeps : ∀ other : Emitter, (other.step (cmd :: data)).txBase = other.txBase ∧
      (other.step (cmd :: data)).emitted = other.emitted)
    {next : Emitter → Prop}
    (sets : ∀ other, loaded other → next (other.step (cmd :: data))) :
    Program.Ensures (Airs start frames params active lost loaded)
      (writeCommand chip cmd data)
      (fun _ => Airs start frames params active lost next) (Aired start frames) := by
  intro state airs
  have quiet : Sent [cmd] state (writeCommand chip cmd data state).2 :=
    sends_writeCommand chip data List.mem_cons_self state
  obtain ⟨sent, sentEq, attempts, acknowledged⟩ :=
    writeCommand_attempted chip cmd data state
  obtain ⟨either, whole⟩ := (start.after state.log).after_setting attempts partly
    (again _)
  obtain ⟨sameBase, sameEmitted⟩ := keeps (start.after state.log)
  cases outcome : writeCommand chip cmd data state with
  | mk answer later =>
      rw [outcome] at quiet sentEq acknowledged
      cases answer with
      | some done =>
          have reached : start.after later.log =
              (start.after state.log).step (cmd :: data) := by
            rw [sentEq, Emitter.after_append, whole (acknowledged rfl)]
          exact ⟨quiet.packetParams.trans airs.packetParams,
            quiet.txActive.trans airs.txActive, quiet.txLost.trans airs.txLost,
            by rw [reached, sameBase, airs.txBase],
            by rw [reached, sameEmitted, airs.emitted], by
              rw [reached]
              exact sets _ airs.loaded⟩
      | none =>
          change (start.after later.log).emitted = frames
          rw [sentEq, Emitter.after_append]
          rcases either with same | set
          · rw [same, airs.emitted]
          · rw [set, sameEmitted, airs.emitted]

theorem ensures_setPacketParams_air :
    Program.Ensures (Airs start frames params active lost loaded) (setPacketParams chip)
      (fun _ => Airs start frames params active lost
        fun emitter => emitter.payloadLength = params.get 3) (Aired start frames) := by
  intro state airs
  rw [setPacketParams, Program.bind_of_some (rfl : Program.get state = _),
    airs.packetParams]
  refine ensures_setting chip ?_ ?_ ?_ ?_ state airs
  · intro other operands within broken
    have short := Emitter.length_lt_of_part within broken
    rw [List.Vector.toList_length] at short
    rcases operands with _ | ⟨a, _ | ⟨b, _ | ⟨c, _ | ⟨d, _ | ⟨e, _ | ⟨f, rest⟩⟩⟩⟩⟩⟩
    · rfl
    · rfl
    · rfl
    · rfl
    · rfl
    · rfl
    · simp only [List.length_cons] at short
      omega
  all_goals
    obtain ⟨bytes, size⟩ := params
    rcases bytes with
      _ | ⟨a, _ | ⟨b, _ | ⟨c, _ | ⟨d, _ | ⟨e, _ | ⟨f, _ | ⟨g, rest⟩⟩⟩⟩⟩⟩⟩ <;>
      simp at size
  · exact fun other => rfl
  · exact fun other => ⟨rfl, rfl⟩
  · exact fun other _ => rfl

theorem transfers_sendAll_exact (data : List UInt8) :
    Transfers (sendAll chip data) fun _ sent => sent = data := by
  induction data with
  | nil => exact (Transfers.pure ()).weaken fun _ _ both => both.2
  | cons byte rest induction =>
      refine ((transfers_spiTransfer chip byte).bind fun _ => induction).weaken ?_
      intro _ _ parts
      obtain ⟨_, early, late, rfl, rfl, rfl⟩ := parts
      rfl

theorem ensures_writeBuffer_air (data : List UInt8) :
    Program.Ensures
      (Airs start frames params active lost
        fun emitter => emitter.payloadLength = UInt8.ofNat data.length)
      (writeBuffer chip data)
      (fun _ => Airs start frames params active lost
        fun emitter => emitter.payload = carried data) (Aired start frames) := by
  intro state airs
  obtain ⟨result, sent, ⟨_, early, late, rfl, whole, rfl⟩, outcome⟩ :=
    transaction_eq chip 0x0E ((transfers_sendAll_exact chip [0]).bind fun _ =>
      transfers_sendAll_exact chip data) state
  rw [whole] at outcome
  have reached : start.after (state.log ++ [0x0E :: ([0] ++ data)]) =
      { start.after state.log with
        fifo := writeFifo (start.after state.log).fifo 0 data } := by
    rw [Emitter.after_append]
    rfl
  rw [writeBuffer, outcome]
  by_cases idle : chip.idles state.waited
  · by_cases again : chip.idles (state.waited + 1)
    · rw [if_pos idle, if_pos again]
      refine ⟨airs.packetParams, airs.txActive, airs.txLost, ?_, ?_, ?_⟩
      · rw [reached]
        exact airs.txBase
      · rw [reached]
        exact airs.emitted
      · rw [reached, Emitter.payload, airs.txBase, airs.loaded]
        exact readFifo_carried _ data
    · rw [if_pos idle, if_neg again]
      change (start.after (state.log ++ _)).emitted = frames
      rw [reached]
      exact airs.emitted
  · rw [if_neg idle]
    exact airs.emitted

/-- A program that adds nothing to the air, or some copies of one more payload. -/
abbrev AddsUpTo (start : Emitter) (frames : List (List UInt8)) (most : Nat)
    (data : List UInt8) (state : RadioState) : Prop :=
  ∃ count ≤ most, Aired start (frames ++ List.replicate count data) state

theorem Aired.adds {most : Nat} {data : List UInt8} {state : RadioState}
    (aired : Aired start frames state) : AddsUpTo start frames most data state :=
  ⟨0, Nat.zero_le most, by rwa [List.replicate_zero, List.append_nil]⟩

variable {chip} {most : Nat}

theorem ensures_setTx_air (within : Chip.Within chip most) (data : List UInt8)
    (timeoutInMs : UInt32) :
    Program.Ensures
      (Airs start frames params active lost fun emitter => emitter.payload = data)
      (setTx chip timeoutInMs)
      (fun _ state => ∃ count, (1 ≤ count ∧ count ≤ most) ∧
        Airs start (frames ++ List.replicate count data) params active lost
          (fun _ => True) state)
      (AddsUpTo start frames most data) := by
  have standby : Sends [0x80] (setStandby chip 0x00) :=
    sends_writeCommand chip _ (by decide)
  refine ((ensures_unheeded standby (by decide)).weaken (fun _ same => same)
    (fun _ _ same => same) fun _ aired => aired.adds).bind fun _ => ?_
  have command : Program.Ensures
      (Airs start frames params active lost fun emitter => emitter.payload = data)
      (writeCommand chip 0x83 (timeoutBytes (timeoutInMs * 1000 * 64)))
      (fun _ state => ∃ count, (1 ≤ count ∧ count ≤ most) ∧
        Airs start (frames ++ List.replicate count data) params active lost
          (fun _ => True) state)
      (AddsUpTo start frames most data) := by
    intro state airs
    have quiet : Sent [0x83] state
        (writeCommand chip 0x83 (timeoutBytes (timeoutInMs * 1000 * 64)) state).2 :=
      sends_writeCommand chip _ List.mem_cons_self state
    obtain ⟨sent, sentEq, attempts, acknowledged⟩ :=
      within (timeoutBytes (timeoutInMs * 1000 * 64)) state
    obtain ⟨count, bounded, counted, positive⟩ :=
      (start.after state.log).after_setTx _ _ _ attempts
    rw [← Emitter.after_append, ← sentEq, airs.loaded, airs.emitted] at counted
    cases outcome : writeCommand chip 0x83 (timeoutBytes (timeoutInMs * 1000 * 64))
        state with
    | mk answer later =>
        rw [outcome] at quiet counted acknowledged
        cases answer with
        | some done =>
            exact ⟨count, ⟨positive (acknowledged rfl), bounded⟩,
              quiet.packetParams.trans airs.packetParams,
              quiet.txActive.trans airs.txActive, quiet.txLost.trans airs.txLost,
              by rw [counted, ← airs.txBase], by rw [counted], trivial⟩
        | none =>
            refine ⟨count, bounded, ?_⟩
            change (start.after later.log).emitted = _
            rw [counted]
  refine command.bind fun _ => Program.Ensures.ofExists fun count => ?_
  intro state reached
  obtain ⟨bounds, airs⟩ := reached
  have mode : Sends [0xC0] (requireMode chip 0x60) :=
    sends_requireMode chip _ (by decide)
  exact (ensures_unheeded mode (by decide)).weaken (fun _ same => same)
    (fun _ _ after => ⟨count, bounds, after⟩)
    (fun _ aired => ⟨count, bounds.2, aired⟩) state airs

/-- A free transmitter sends the frame and nothing else. -/
theorem ensures_transmit_air (within : Chip.Within chip most) (polls : Nat)
    (data : List UInt8) (mode : UInt8) :
    Program.Ensures (Airs start frames params false lost fun _ => True)
      (transmit chip polls data mode)
      (fun rv state => (mode &&& 0x02 = 0 → rv = true) ∧
        ∃ count, (1 ≤ count ∧ count ≤ most) ∧
          Airs start (frames ++ List.replicate count (carried data))
            (sendParams params data.length) (decide (mode &&& 0x02 = 0)) lost
            (fun _ => True) state)
      (AddsUpTo start frames most (carried data)) := by
  have adds : ∀ state, Aired start frames state →
      AddsUpTo start frames most (carried data) state := fun _ aired => aired.adds
  refine Program.Ensures.bind (Program.Ensures.modify
    (fun _ => Airs start frames params true lost fun _ => True) ?_) fun _ => ?_
  · exact fun state airs =>
      ⟨airs.packetParams, rfl, airs.txLost, airs.txBase, airs.emitted, trivial⟩
  refine Program.Ensures.bind (Program.Ensures.modify
    (fun _ => Airs start frames (sendParams params data.length) true lost
      fun _ => True) ?_) fun _ => ?_
  · intro state airs
    refine ⟨?_, airs.txActive, airs.txLost, airs.txBase, airs.emitted, trivial⟩
    simp only [airs.packetParams]
  refine ((ensures_setPacketParams_air chip).weaken (fun _ same => same)
    (fun _ _ same => same) adds).bind fun _ => ?_
  have length : (sendParams params data.length).get 3 =
      UInt8.ofNat data.length := by
    rw [sendParams, List.Vector.get_set_same]
  rw [length]
  have clear : Sends [0x02] (clearIrqStatus chip 0x3FF) :=
    sends_writeCommand chip _ (by decide)
  refine ((ensures_unheeded clear (by decide)).weaken (fun _ same => same)
    (fun _ _ same => same) adds).bind fun _ => ?_
  refine ((ensures_writeBuffer_air chip data).weaken (fun _ same => same)
    (fun _ _ same => same) adds).bind fun _ => ?_
  refine (ensures_setTx_air within (carried data) 500).bind fun _ =>
    Program.Ensures.ofExists fun count => ?_
  intro state reached
  obtain ⟨bounds, airs⟩ := reached
  have grown : ∀ state,
      Aired start (frames ++ List.replicate count (carried data)) state →
        AddsUpTo start frames most (carried data) state :=
    fun _ aired => ⟨count, bounds.2, aired⟩
  by_cases asynchronous : mode &&& 0x02 = 0
  · rw [if_neg (not_not.mpr asynchronous)]
    refine ⟨fun _ => rfl, count, bounds, ?_⟩
    rw [decide_eq_true asynchronous]
    exact airs
  · rw [if_pos asynchronous, decide_eq_false asynchronous]
    revert state
    have awaiting : Sends [0x12] (awaitTx chip polls) :=
      sends_awaitTx chip polls (by decide)
    refine ((ensures_unheeded awaiting (by decide)).weaken (fun _ same => same)
      (fun _ _ same => same) grown).bind fun irqStatus => ?_
    refine Program.Ensures.bind (Program.Ensures.modify
      (fun _ => Airs start (frames ++ List.replicate count (carried data))
        (sendParams params data.length) false lost fun _ => True) ?_) fun _ => ?_
    · exact fun state airs =>
        ⟨airs.packetParams, rfl, airs.txLost, airs.txBase, airs.emitted, trivial⟩
    have receiving : Sends [0x80, 0x82, 0xC0] (setRx chip 0xFFFFFF) :=
      sends_setRx chip _ (by decide) (by decide) (by decide)
    refine ((ensures_unheeded receiving (by decide)).weaken (fun _ same => same)
      (fun _ _ same => same) grown).bind fun _ => ?_
    exact Program.Ensures.pure fun state airs =>
      ⟨fun impossible => absurd impossible asynchronous, count, bounds, airs⟩

end Programs

end Radio

end Lora32Mqtt
