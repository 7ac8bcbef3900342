import Lora32Mqtt.Base.Machine
import Lora32Mqtt.Radio.Ra01s

/-!
# Packet parameters on the chip

What the chip goes by is the last `SET_PACKET_PARAMS` command it was sent, and
that is a property of the list of transactions.  `LoRaConfig` and `LoRaSend`
write the parameters from one static array before they enter receive mode.
-/

namespace Lora32Mqtt

namespace Radio

/-- The last `SET_PACKET_PARAMS` on the wire, and the one that was the last at
each `SET_RX`. -/
structure Told where
  params : Option (List UInt8)
  receiving : List (Option (List UInt8))

def Told.step (told : Told) (sent : List UInt8) : Told :=
  if sent.head? = some 0x8C then { told with params := some sent }
  else if sent.head? = some 0x82 then
    { told with receiving := told.receiving ++ [told.params] }
  else told

def told (log : List (List UInt8)) : Told := log.foldl Told.step ⟨none, []⟩

theorem told_concat (log : List (List UInt8)) (sent : List UInt8) :
    told (log ++ [sent]) = (told log).step sent := by
  simp [told, List.foldl_append]

@[simp]
theorem Told.step_params (told : Told) (operands : List UInt8) :
    told.step (0x8C :: operands) =
      ⟨some (0x8C :: operands), told.receiving⟩ := rfl

@[simp]
theorem Told.step_receiving (told : Told) (operands : List UInt8) :
    told.step (0x82 :: operands) =
      ⟨told.params, told.receiving ++ [told.params]⟩ := rfl

theorem Told.step_other (told : Told) {cmd : UInt8} {operands : List UInt8}
    (notParams : cmd ≠ 0x8C) (notReceiving : cmd ≠ 0x82) :
    told.step (cmd :: operands) = told := by
  simp [Told.step, notParams, notReceiving]

/-- The driver's two static variables and what the chip knows. -/
structure Stands (params : CArray 6) (active : Bool) (chip : Told)
    (state : RadioState) : Prop where
  packetParams : state.packetParams = params
  txActive : state.txActive = active
  log : told state.log = chip

/-- The step from a state that leaves all this as it is. -/
structure Quiet (state later : RadioState) : Prop where
  packetParams : later.packetParams = state.packetParams
  txActive : later.txActive = state.txActive
  log : told later.log = told state.log

instance : Std.Refl Quiet where
  refl _ := ⟨rfl, rfl, rfl⟩

instance : IsTrans RadioState Quiet where
  trans _ _ _ first second :=
    ⟨second.packetParams.trans first.packetParams,
      second.txActive.trans first.txActive, second.log.trans first.log⟩

theorem Stands.quiet {params : CArray 6} {active : Bool} {chip : Told}
    {state later : RadioState} (quiet : Quiet state later)
    (stands : Stands params active chip state) :
    Stands params active chip later :=
  ⟨quiet.packetParams.trans stands.packetParams,
    quiet.txActive.trans stands.txActive, quiet.log.trans stands.log⟩

/-- The body of a transaction returns and does nothing but exchange bytes. -/
def Transfers {Result : Type} (body : Radio Result)
    (spec : Result → List UInt8 → Prop) : Prop :=
  ∀ state, ∃ result sent, spec result sent ∧
    body state = (some result,
      { state with
        exchanged := state.exchanged + sent.length
        current := state.current ++ sent })

namespace Transfers

variable {First Result : Type}

theorem pure (result : Result) :
    Transfers (Pure.pure result) fun answer sent => answer = result ∧ sent = [] :=
  fun state => ⟨result, [], ⟨rfl, rfl⟩, by
    rw [List.append_nil]
    rfl⟩

theorem bind {body : Radio First} {next : First → Radio Result}
    {spec : First → List UInt8 → Prop}
    {rest : First → Result → List UInt8 → Prop}
    (one : Transfers body spec) (two : ∀ first, Transfers (next first) (rest first)) :
    Transfers (body >>= next) fun result sent =>
      ∃ first early late, spec first early ∧ rest first result late ∧
        sent = early ++ late := by
  intro state
  obtain ⟨first, early, firstSpec, firstEq⟩ := one state
  obtain ⟨result, late, secondSpec, secondEq⟩ := two first
    { state with
      exchanged := state.exchanged + early.length
      current := state.current ++ early }
  refine ⟨result, early ++ late,
    ⟨first, early, late, firstSpec, secondSpec, rfl⟩, ?_⟩
  rw [Program.bind_of_some firstEq, secondEq]
  simp only [List.append_assoc, List.length_append, Nat.add_assoc]

theorem weaken {body : Radio Result} {spec weaker : Result → List UInt8 → Prop}
    (transfers : Transfers body spec)
    (implies : ∀ result sent, spec result sent → weaker result sent) :
    Transfers body weaker := by
  intro state
  obtain ⟨result, sent, holds, outcome⟩ := transfers state
  exact ⟨result, sent, implies result sent holds, outcome⟩

end Transfers

variable (chip : Chip)

theorem transfers_spiTransfer (byte : UInt8) :
    Transfers (spiTransfer chip byte) fun _ sent => sent = [byte] :=
  fun _ => ⟨_, [byte], rfl, rfl⟩

theorem transfers_sendAll (data : List UInt8) :
    Transfers (sendAll chip data) fun _ _ => True := by
  induction data with
  | nil => exact (Transfers.pure ()).weaken fun _ _ _ => trivial
  | cons byte rest induction =>
      exact ((transfers_spiTransfer chip byte).bind fun _ => induction).weaken
        fun _ _ _ => trivial

theorem transfers_readAll (count : Nat) :
    Transfers (readAll chip count) fun _ _ => True := by
  induction count with
  | zero => exact (Transfers.pure []).weaken fun _ _ _ => trivial
  | succ count induction =>
      refine ((transfers_spiTransfer chip 0x00).bind fun first =>
        induction.bind fun rest => Transfers.pure (first :: rest)).weaken ?_
      exact fun _ _ _ => trivial

/-- A command is acknowledged only after its last operand. -/
theorem transfers_sendChecked (data : List UInt8) :
    Transfers (sendChecked chip data) fun status sent =>
      status = 0 → sent = data := by
  induction data with
  | nil => exact (Transfers.pure 0).weaken fun _ _ both _ => both.2
  | cons byte rest induction =>
      intro state
      let input := chip.reply state.current state.exchanged
      let sentOne : RadioState :=
        { state with
          exchanged := state.exchanged + 1
          current := state.current ++ [byte] }
      have sending : spiTransfer chip byte state = (some input, sentOne) := rfl
      by_cases bad : transferStatus input ≠ 0
      · refine ⟨transferStatus input, [byte], fun good => absurd good bad, ?_⟩
        simp only [sendChecked]
        rw [Program.bind_of_some sending, if_pos bad]
        rfl
      · obtain ⟨status, sent, whole, outcome⟩ := induction sentOne
        refine ⟨status, byte :: sent, fun good => by rw [whole good], ?_⟩
        simp only [sendChecked]
        rw [Program.bind_of_some sending, if_neg bad, outcome]
        simp only [sentOne, List.append_assoc, List.singleton_append, List.length_cons,
          Nat.add_assoc, Nat.add_comm 1]

section Transaction

variable {Result : Type} (cmd : UInt8) {body : Radio Result}
  {spec : Result → List UInt8 → Prop}

/-- The chip may time out before the select pin is pulled and after it is
released. -/
theorem transaction_eq (transfers : Transfers body spec) (state : RadioState) :
    ∃ result sent, spec result sent ∧
      let released : RadioState :=
        { state with
          waited := state.waited + 1
          exchanged := state.exchanged + 1 + sent.length
          current := cmd :: sent
          log := state.log ++ [cmd :: sent] }
      transaction chip cmd body state =
        if chip.idles state.waited then
          if chip.idles (state.waited + 1) then
            (some result, { released with waited := state.waited + 2 })
          else (none, released)
        else (none, state) := by
  let selected : RadioState :=
    { state with
      waited := state.waited + 1
      exchanged := state.exchanged + 1
      current := [cmd] }
  obtain ⟨result, sent, holds, outcome⟩ := transfers selected
  refine ⟨result, sent, holds, ?_⟩
  intro released
  by_cases idle : chip.idles state.waited
  · have waiting : waitForIdle chip state =
        (some (), { state with waited := state.waited + 1 }) := by
      simp only [waitForIdle, idle, if_true]
    simp only [transaction]
    rw [Program.bind_of_some waiting]
    change (body >>= _) selected = _
    rw [Program.bind_of_some outcome]
    change (waitForIdle chip >>= fun _ => Pure.pure result) released = _
    by_cases again : chip.idles (state.waited + 1)
    · have waitingAgain : waitForIdle chip released =
          (some (), { released with waited := state.waited + 2 }) := by
        simp only [waitForIdle, released, again, if_true]
      rw [Program.bind_of_some waitingAgain, if_pos idle, if_pos again]
      rfl
    · have stuck : waitForIdle chip released = (none, released) := by
        simp only [waitForIdle, released, again]
        rfl
      rw [Program.bind_of_none stuck, if_pos idle, if_neg again]
  · have stuck : waitForIdle chip state = (none, state) := by
      simp only [waitForIdle, idle]
      rfl
    simp only [transaction]
    rw [Program.bind_of_none stuck, if_neg idle]

theorem transaction_log (transfers : Transfers body spec) (state : RadioState) :
    let later := (transaction chip cmd body state).2
    later.packetParams = state.packetParams ∧
      later.txActive = state.txActive ∧
      ((transaction chip cmd body state).1 = none ∧ later.log = state.log ∨
        ∃ sent, later.log = state.log ++ [cmd :: sent] ∧
          ∀ result, (transaction chip cmd body state).1 = some result →
            spec result sent) := by
  obtain ⟨result, sent, holds, outcome⟩ :=
    transaction_eq chip cmd transfers state
  simp only [outcome]
  split
  · split
    · refine ⟨rfl, rfl, Or.inr ⟨sent, rfl, ?_⟩⟩
      intro answer answered
      obtain rfl := Option.some.inj answered
      exact holds
    · refine ⟨rfl, rfl, Or.inr ⟨sent, rfl, ?_⟩⟩
      intro answer answered
      cases answered
  · exact ⟨rfl, rfl, Or.inl ⟨rfl, rfl⟩⟩

end Transaction

theorem quiet_transaction {Result : Type} {cmd : UInt8} {body : Radio Result}
    {spec : Result → List UInt8 → Prop} (transfers : Transfers body spec)
    (notParams : cmd ≠ 0x8C) (notReceiving : cmd ≠ 0x82) :
    Program.Grows Quiet (transaction chip cmd body) := by
  intro state
  obtain ⟨params, active, ⟨_, same⟩ | ⟨sent, logged, _⟩⟩ :=
    transaction_log chip cmd transfers state
  · exact ⟨params, active, by rw [same]⟩
  · refine ⟨params, active, ?_⟩
    rw [logged, told_concat, Told.step_other _ notParams notReceiving]

theorem quiet_writeCommand {cmd : UInt8} (data : List UInt8)
    (notParams : cmd ≠ 0x8C) (notReceiving : cmd ≠ 0x82) :
    Program.Grows Quiet (writeCommand chip cmd data) :=
  Program.Grows.retry
    ((quiet_transaction chip (transfers_sendChecked chip data) notParams
      notReceiving).bind fun _ => Program.Grows.pure _) 9

theorem quiet_readCommand {cmd : UInt8} (count : Nat)
    (notParams : cmd ≠ 0x8C) (notReceiving : cmd ≠ 0x82) :
    Program.Grows Quiet (readCommand chip cmd count) :=
  quiet_transaction chip (transfers_readAll chip count) notParams notReceiving

theorem quiet_writeRegister (reg : UInt16) (data : List UInt8) :
    Program.Grows Quiet (writeRegister chip reg data) :=
  quiet_transaction chip
    ((transfers_sendAll chip _).bind fun _ => transfers_sendAll chip data)
    (by decide) (by decide)

theorem quiet_readRegister (reg : UInt16) (count : Nat) :
    Program.Grows Quiet (readRegister chip reg count) :=
  quiet_transaction chip
    ((transfers_sendAll chip _).bind fun _ => transfers_readAll chip count)
    (by decide) (by decide)

theorem quiet_writeBuffer (data : List UInt8) :
    Program.Grows Quiet (writeBuffer chip data) :=
  quiet_transaction chip
    ((transfers_sendAll chip _).bind fun _ => transfers_sendAll chip data)
    (by decide) (by decide)

theorem quiet_readBuffer (rxDataLen : Int) :
    Program.Grows Quiet (readBuffer chip rxDataLen) := by
  refine (quiet_readCommand chip 3 (by decide) (by decide)).bind fun status => ?_
  dsimp only
  split
  · exact Program.Grows.pure _
  · exact quiet_transaction chip
      ((transfers_sendAll chip _).bind fun _ => transfers_readAll chip _)
      (by decide) (by decide)

theorem quiet_getStatus : Program.Grows Quiet (getStatus chip) :=
  (quiet_readCommand chip 1 (by decide) (by decide)).bind
    fun _ => Program.Grows.pure _

theorem quiet_getIrqStatus : Program.Grows Quiet (getIrqStatus chip) :=
  (quiet_readCommand chip 3 (by decide) (by decide)).bind
    fun _ => Program.Grows.pure _

theorem quiet_awaitMode (mode : UInt8) (attempts : Nat) :
    Program.Grows Quiet (awaitMode chip mode attempts) := by
  induction attempts with
  | zero => exact Program.Grows.pure ()
  | succ attempts induction =>
      refine (quiet_getStatus chip).bind fun status => ?_
      split
      · exact Program.Grows.pure ()
      · exact induction

theorem quiet_requireMode (mode : UInt8) :
    Program.Grows Quiet (requireMode chip mode) := by
  refine (quiet_awaitMode chip mode 10).bind fun _ => ?_
  refine (quiet_getStatus chip).bind fun status => ?_
  split
  · exact Program.Grows.pure ()
  · exact Program.Grows.hang

theorem quiet_setStandby (mode : UInt8) :
    Program.Grows Quiet (setStandby chip mode) :=
  quiet_writeCommand chip _ (by decide) (by decide)

theorem quiet_setTx (timeoutInMs : UInt32) :
    Program.Grows Quiet (setTx chip timeoutInMs) :=
  (quiet_setStandby chip _).bind fun _ =>
    (quiet_writeCommand chip _ (by decide) (by decide)).bind fun _ =>
      quiet_requireMode chip _

theorem quiet_fixInvertedIQ (iqConfig : UInt8) :
    Program.Grows Quiet (fixInvertedIQ chip iqConfig) :=
  (quiet_readRegister chip _ _).bind fun _ => quiet_writeRegister chip _ _

theorem quiet_awaitTx (polls : Nat) :
    Program.Grows Quiet (awaitTx chip polls) :=
  Program.Grows.retry
    ((quiet_getIrqStatus chip).bind fun _ => Program.Grows.pure _) polls

theorem quiet_loRaReceive (len : Int) :
    Program.Grows Quiet (loRaReceive chip len) := by
  refine (quiet_getIrqStatus chip).bind fun irqRegs => ?_
  split
  · exact (quiet_writeCommand chip _ (by decide) (by decide)).bind fun _ =>
      quiet_readBuffer chip len
  · exact Program.Grows.pure []

end Radio

end Lora32Mqtt
