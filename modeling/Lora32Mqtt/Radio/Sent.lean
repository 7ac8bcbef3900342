import Lora32Mqtt.Radio.Commands
import Lora32Mqtt.Radio.Reception

/-!
# What a call can send

Every call of the driver only uses some of the commands, and leaves the static
variables alone unless it is one of those that set them.  What depends on other
commands only is thus unchanged by it, whether it returns or not.
-/

namespace Lora32Mqtt

namespace Radio

/-- The step added transactions that begin with one of the commands, and nothing
happened to the static variables. -/
structure Sent (cmds : List UInt8) (state later : RadioState) : Prop where
  packetParams : later.packetParams = state.packetParams
  txActive : later.txActive = state.txActive
  txLost : later.txLost = state.txLost
  /-- As many bytes were exchanged as were logged. -/
  exchanged : later.exchanged + state.log.flatten.length =
    state.exchanged + later.log.flatten.length
  log : ∃ added, later.log = state.log ++ added ∧
    ∀ sent ∈ added, ∃ cmd ∈ cmds, ∃ operands, sent = cmd :: operands

instance (cmds : List UInt8) : Std.Refl (Sent cmds) where
  refl _ := ⟨rfl, rfl, rfl, rfl, [], (List.append_nil _).symm,
    fun _ member => absurd member List.not_mem_nil⟩

instance (cmds : List UInt8) : IsTrans RadioState (Sent cmds) where
  trans := by
    intro state middle later first second
    obtain ⟨early, earlyEq, earlyCmds⟩ := first.log
    obtain ⟨late, lateEq, lateCmds⟩ := second.log
    refine ⟨second.packetParams.trans first.packetParams,
      second.txActive.trans first.txActive, second.txLost.trans first.txLost, ?_,
      early ++ late, by rw [lateEq, earlyEq, List.append_assoc], ?_⟩
    · have one := first.exchanged
      have two := second.exchanged
      omega
    · intro sent member
      exact (List.mem_append.mp member).elim (earlyCmds sent) (lateCmds sent)

/-- The program sends nothing but some of the commands. -/
abbrev Sends {Result : Type} (cmds : List UInt8) (program : Radio Result) : Prop :=
  Program.Grows (Sent cmds) program

theorem Sends.mono {Result : Type} {cmds more : List UInt8} {program : Radio Result}
    (sends : Sends cmds program) (within : cmds ⊆ more) : Sends more program := by
  intro state
  obtain ⟨params, active, lost, exchanged, added, logged, each⟩ := sends state
  refine ⟨params, active, lost, exchanged, added, logged, fun sent member => ?_⟩
  obtain ⟨cmd, isCmd, operands⟩ := each sent member
  exact ⟨cmd, within isCmd, operands⟩

section Transactions

variable (chip : Chip) {cmds : List UInt8}

theorem sends_transaction {Result : Type} {cmd : UInt8} {body : Radio Result}
    {spec : Result → List UInt8 → Prop} (transfers : Transfers body spec)
    (member : cmd ∈ cmds) : Sends cmds (transaction chip cmd body) := by
  intro state
  obtain ⟨result, sent, _, outcome⟩ := transaction_eq chip cmd transfers state
  have one : ∀ other ∈ [cmd :: sent],
      ∃ allowed ∈ cmds, ∃ operands, other = allowed :: operands := by
    intro other isSent
    exact ⟨cmd, member, sent, List.mem_singleton.mp isSent⟩
  have counted : state.exchanged + 1 + sent.length + state.log.flatten.length =
      state.exchanged + (state.log ++ [cmd :: sent]).flatten.length := by
    simp only [List.flatten_append, List.flatten_cons, List.flatten_nil,
      List.append_nil, List.length_append, List.length_cons]
    omega
  simp only [outcome]
  split
  · split
    · exact ⟨rfl, rfl, rfl, counted, [cmd :: sent], rfl, one⟩
    · exact ⟨rfl, rfl, rfl, counted, [cmd :: sent], rfl, one⟩
  · exact Std.Refl.refl state

theorem sends_waitForIdle : Sends cmds (waitForIdle chip) := by
  intro state
  simp only [waitForIdle]
  split
  · exact ⟨rfl, rfl, rfl, rfl, [], (List.append_nil _).symm,
      fun _ member => absurd member List.not_mem_nil⟩
  · exact Std.Refl.refl state

theorem sends_writeCommand {cmd : UInt8} (data : List UInt8) (member : cmd ∈ cmds) :
    Sends cmds (writeCommand chip cmd data) :=
  Program.Grows.retry
    ((sends_transaction chip (transfers_sendChecked chip data) member).bind
      fun _ => Program.Grows.pure _) 9

theorem sends_readCommand {cmd : UInt8} (count : Nat) (member : cmd ∈ cmds) :
    Sends cmds (readCommand chip cmd count) :=
  sends_transaction chip (transfers_readAll chip count) member

theorem sends_writeRegister (reg : UInt16) (data : List UInt8) (member : 0x0D ∈ cmds) :
    Sends cmds (writeRegister chip reg data) :=
  sends_transaction chip
    ((transfers_sendAll chip _).bind fun _ => transfers_sendAll chip data) member

theorem sends_readRegister (reg : UInt16) (count : Nat) (member : 0x1D ∈ cmds) :
    Sends cmds (readRegister chip reg count) :=
  sends_transaction chip
    ((transfers_sendAll chip _).bind fun _ => transfers_readAll chip count) member

theorem sends_readBuffer (rxDataLen : Int) (length : 0x13 ∈ cmds)
    (read : 0x1E ∈ cmds) : Sends cmds (readBuffer chip rxDataLen) := by
  refine (sends_readCommand chip 3 length).bind fun status => ?_
  dsimp only
  split
  · exact Program.Grows.pure _
  · exact sends_transaction chip
      ((transfers_sendAll chip _).bind fun _ => transfers_readAll chip _) read

theorem sends_getStatus (member : 0xC0 ∈ cmds) : Sends cmds (getStatus chip) :=
  (sends_readCommand chip 1 member).bind fun _ => Program.Grows.pure _

theorem sends_getIrqStatus (member : 0x12 ∈ cmds) : Sends cmds (getIrqStatus chip) :=
  (sends_readCommand chip 3 member).bind fun _ => Program.Grows.pure _

theorem sends_awaitMode (mode : UInt8) (attempts : Nat) (member : 0xC0 ∈ cmds) :
    Sends cmds (awaitMode chip mode attempts) := by
  induction attempts with
  | zero => exact Program.Grows.pure ()
  | succ attempts induction =>
      refine (sends_getStatus chip member).bind fun status => ?_
      split
      · exact Program.Grows.pure ()
      · exact induction

theorem sends_requireMode (mode : UInt8) (member : 0xC0 ∈ cmds) :
    Sends cmds (requireMode chip mode) := by
  refine (sends_awaitMode chip mode 10 member).bind fun _ => ?_
  refine (sends_getStatus chip member).bind fun status => ?_
  split
  · exact Program.Grows.pure ()
  · exact Program.Grows.hang

theorem sends_awaitTx (polls : Nat) (member : 0x12 ∈ cmds) :
    Sends cmds (awaitTx chip polls) :=
  Program.Grows.retry
    ((sends_getIrqStatus chip member).bind fun _ => Program.Grows.pure _) polls

theorem sends_setRx (timeout : UInt32) (standby : 0x80 ∈ cmds) (receive : 0x82 ∈ cmds)
    (status : 0xC0 ∈ cmds) : Sends cmds (setRx chip timeout) :=
  (sends_writeCommand chip _ standby).bind fun _ =>
    (sends_writeCommand chip _ receive).bind fun _ => sends_requireMode chip _ status

theorem sends_loRaReceive (len : Int) :
    Sends [0x12, 0x02, 0x13, 0x1E] (loRaReceive chip len) := by
  refine (sends_getIrqStatus chip (by decide)).bind fun irqRegs => ?_
  split
  · exact (sends_writeCommand chip _ (by decide)).bind fun _ =>
      sends_readBuffer chip len (by decide) (by decide)
  · exact Program.Grows.pure []

theorem sends_fixInvertedIQ (iqConfig : UInt8) (read : 0x1D ∈ cmds)
    (write : 0x0D ∈ cmds) : Sends cmds (fixInvertedIQ chip iqConfig) :=
  (sends_readRegister chip _ _ read).bind fun _ => sends_writeRegister chip _ _ write

end Transactions

/-- What became of a command: some attempts, each of which sent the beginning of
its operands. -/
structure Attempts (cmd : UInt8) (data : List UInt8) (most : Nat)
    (sent : List (List UInt8)) : Prop where
  bounded : sent.length ≤ most
  each : ∀ one ∈ sent, ∃ operands, one = cmd :: operands ∧ operands <+: data

/-- The last attempt was acknowledged, so it was a whole command. -/
def Acknowledged (cmd : UInt8) (data : List UInt8) (sent : List (List UInt8)) : Prop :=
  ∃ earlier, sent = earlier ++ [cmd :: data]

section Attempts

variable (chip : Chip) (cmd : UInt8) (data : List UInt8)

theorem transfers_operands :
    Transfers (sendChecked chip data) fun status sent =>
      sent <+: data ∧ (status = 0 → sent = data) := by
  intro state
  obtain ⟨status, sent, within, outcome⟩ :=
    transfers_sendChecked_part chip data state
  obtain ⟨same, sentAgain, whole, outcomeAgain⟩ :=
    transfers_sendChecked chip data state
  refine ⟨status, sent, ⟨within, fun good => ?_⟩, outcome⟩
  rw [outcome] at outcomeAgain
  obtain ⟨sameStatus, sameState⟩ := Prod.mk.inj outcomeAgain
  have currents := congrArg RadioState.current sameState
  rw [List.append_cancel_left currents]
  exact whole (Option.some.inj sameStatus ▸ good)

theorem writeCommand2_attempted (state : RadioState) :
    let outcome := writeCommand2 chip cmd data state
    ∃ sent, outcome.2.log = state.log ++ sent ∧ Attempts cmd data 1 sent ∧
      (outcome.1 = some 0 → Acknowledged cmd data sent) := by
  obtain ⟨status, operands, ⟨within, whole⟩, outcome⟩ :=
    transaction_eq chip cmd (transfers_operands chip data) state
  have attempt : Attempts cmd data 1 [cmd :: operands] := by
    refine ⟨Nat.le_refl 1, fun one member => ?_⟩
    exact ⟨operands, List.mem_singleton.mp member, within⟩
  simp only [writeCommand2, outcome]
  split
  · split
    · refine ⟨[cmd :: operands], rfl, attempt, fun good => ?_⟩
      rw [whole (Option.some.inj good)]
      exact ⟨[], rfl⟩
    · exact ⟨[cmd :: operands], rfl, attempt, fun impossible => by cases impossible⟩
  · exact ⟨[], (List.append_nil _).symm, ⟨Nat.zero_le 1, fun _ member => by cases member⟩,
      fun impossible => by cases impossible⟩

end Attempts

/-- The driver attempts `SET_TX` no more often than this on the chip. -/
def Chip.Within (chip : Chip) (most : Nat) : Prop :=
  ∀ (data : List UInt8) (state : RadioState),
    let outcome := writeCommand chip 0x83 data state
    ∃ sent, outcome.2.log = state.log ++ sent ∧ Attempts 0x83 data most sent ∧
      (outcome.1 = some () → Acknowledged 0x83 data sent)

/-- The driver gives up a command after nine attempts. -/
theorem writeCommand_attempted (chip : Chip) (cmd : UInt8) (data : List UInt8)
    (state : RadioState) :
    let outcome := writeCommand chip cmd data state
    ∃ sent, outcome.2.log = state.log ++ sent ∧ Attempts cmd data 9 sent ∧
      (outcome.1 = some () → Acknowledged cmd data sent) := by
  simp only [writeCommand]
  generalize 9 = attempts
  induction attempts generalizing state with
  | zero =>
      exact ⟨[], (List.append_nil _).symm,
        ⟨Nat.le_refl 0, fun _ member => absurd member List.not_mem_nil⟩,
        fun impossible => nomatch impossible⟩
  | succ attempts induction =>
      obtain ⟨first, firstEq, firstAttempt, acknowledged⟩ :=
        writeCommand2_attempted chip cmd data state
      have one : first.length ≤ attempts + 1 :=
        Nat.le_trans firstAttempt.bounded (Nat.le_add_left 1 attempts)
      simp only [Program.retry, bind_assoc, pure_bind]
      cases outcome : writeCommand2 chip cmd data state with
      | mk answer middle =>
          rw [outcome] at firstEq acknowledged
          cases answer with
          | none =>
              rw [Program.bind_of_none outcome]
              exact ⟨first, firstEq, ⟨one, firstAttempt.each⟩,
                fun impossible => nomatch impossible⟩
          | some status =>
              rw [Program.bind_of_some outcome]
              by_cases good : status = 0
              · subst good
                exact ⟨first, firstEq, ⟨one, firstAttempt.each⟩,
                  fun _ => acknowledged rfl⟩
              · rw [if_neg good]
                obtain ⟨rest, restEq, restAttempts, last⟩ := induction middle
                refine ⟨first ++ rest, ?_, ⟨?_, ?_⟩, fun returned => ?_⟩
                · rw [restEq, firstEq, List.append_assoc]
                · have bound := firstAttempt.bounded
                  have restBound := restAttempts.bounded
                  rw [List.length_append]
                  omega
                · intro sent member
                  exact (List.mem_append.mp member).elim (firstAttempt.each sent)
                    (restAttempts.each sent)
                · obtain ⟨earlier, rfl⟩ := last returned
                  exact ⟨first ++ earlier, (List.append_assoc _ _ _).symm⟩

theorem within_nine (chip : Chip) : Chip.Within chip 9 :=
  writeCommand_attempted chip 0x83

/-- No byte that comes back while the operands of `SET_TX` are sent reports an
error. -/
def Chip.AnswersWell (chip : Chip) : Prop :=
  ∀ operands exchanged, transferStatus (chip.reply (0x83 :: operands) exchanged) = 0

theorem sendChecked_good {chip : Chip} (good : Chip.AnswersWell chip) (data : List UInt8)
    {state : RadioState} {operands : List UInt8}
    (sending : state.current = 0x83 :: operands) :
    (sendChecked chip data state).1 = some 0 := by
  induction data generalizing state operands with
  | nil => rfl
  | cons byte rest induction =>
      have first : spiTransfer chip byte state =
          (some (chip.reply (0x83 :: operands) state.exchanged),
            { state with
              exchanged := state.exchanged + 1
              current := 0x83 :: (operands ++ [byte]) }) := by
        rw [spiTransfer, sending]
        rfl
      simp only [sendChecked]
      rw [Program.bind_of_some first, if_neg (not_not.mpr (good _ _))]
      exact induction rfl

theorem transaction_body {Result : Type} {chip : Chip} {cmd : UInt8} {body : Radio Result}
    {state later : RadioState} {result : Result}
    (returned : transaction chip cmd body state = (some result, later)) :
    ∃ selected : RadioState, selected.current = [cmd] ∧
      (body selected).1 = some result := by
  let selected : RadioState :=
    { state with
      waited := state.waited + 1
      exchanged := state.exchanged + 1
      current := [cmd] }
  refine ⟨selected, rfl, ?_⟩
  simp only [transaction] at returned
  by_cases idle : chip.idles state.waited
  · have waiting : waitForIdle chip state =
        (some (), { state with waited := state.waited + 1 }) := by
      simp only [waitForIdle, idle, if_true]
    rw [Program.bind_of_some waiting] at returned
    change (body >>= _) selected = _ at returned
    cases outcome : body selected with
    | mk answer released =>
        cases answer with
        | none =>
            rw [Program.bind_of_none outcome] at returned
            cases congrArg Prod.fst returned
        | some given =>
            rw [Program.bind_of_some outcome,
              Program.bind_of_some (rfl : Program.modify _ released = _),
              Program.bind_apply, waitForIdle] at returned
            split at returned
            next last waits =>
              exact congrArg Prod.fst returned
            next => cases congrArg Prod.fst returned
  · have stuck : waitForIdle chip state = (none, state) := by
      simp only [waitForIdle, idle]
      rfl
    rw [Program.bind_of_none stuck] at returned
    cases congrArg Prod.fst returned

theorem writeCommand2_good {chip : Chip} (good : Chip.AnswersWell chip)
    {data : List UInt8} {state later : RadioState} {status : UInt8}
    (returned : writeCommand2 chip 0x83 data state = (some status, later)) :
    status = 0 := by
  obtain ⟨selected, current, answered⟩ := transaction_body returned
  exact Option.some.inj (answered.symm.trans (sendChecked_good good data current))

theorem within_one {chip : Chip} (good : Chip.AnswersWell chip) :
    Chip.Within chip 1 := by
  intro data state
  obtain ⟨sent, sentEq, attempt, acknowledged⟩ :=
    writeCommand2_attempted chip 0x83 data state
  simp only [writeCommand, Program.retry, bind_assoc, pure_bind]
  cases outcome : writeCommand2 chip 0x83 data state with
  | mk answer middle =>
      rw [outcome] at sentEq acknowledged
      cases answer with
      | none =>
          rw [Program.bind_of_none outcome]
          exact ⟨sent, sentEq, attempt, fun impossible => nomatch impossible⟩
      | some status =>
          obtain rfl : status = 0 := writeCommand2_good good outcome
          rw [Program.bind_of_some outcome]
          exact ⟨sent, sentEq, attempt, fun _ => acknowledged rfl⟩

end Radio

end Lora32Mqtt
