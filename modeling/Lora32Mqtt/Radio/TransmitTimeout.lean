import Lora32Mqtt.Radio.ReceiveMode

/-!
# The timeout of a transmission

The chip counts timeouts in steps of 15.625 microseconds.  `SetTx` multiplies
its microseconds by 64 instead of dividing them, and what the chip is given of
the result is the lowest 24 bits.
-/

namespace Lora32Mqtt

namespace Radio

/-- Whole steps of 15.625 microseconds, as `SetDio3AsTcxoCtrl` converts its
delay. -/
def timerSteps (microseconds : Nat) : Nat := microseconds * 1000 / 15625

/-- The number that operands, most significant byte first, encode. -/
def bigEndian (operands : List UInt8) : Nat :=
  operands.foldl (fun value byte => value * 256 + byte.toNat) 0

def transactions {Result : Type} (program : Radio Result) (state : RadioState) :
    List (List UInt8) :=
  (program state).2.log.drop state.log.length

/-- `SetTx` sends a whole `SET_TX` command with the timeout in steps. -/
def ProgramsTimeout (chip : Chip) (timeoutInMs : UInt32) (state : RadioState) :
    Prop :=
  ∃ operands, 0x83 :: operands ∈ transactions (setTx chip timeoutInMs) state ∧
    operands.length = 3 ∧
    bigEndian operands = timerSteps (timeoutInMs.toNat * 1000)

def Logs (kind : List UInt8 → Prop) (state later : RadioState) : Prop :=
  ∃ added, later.log = state.log ++ added ∧ ∀ sent ∈ added, kind sent

instance (kind : List UInt8 → Prop) : Std.Refl (Logs kind) where
  refl _ := ⟨[], by simp⟩

instance (kind : List UInt8 → Prop) : IsTrans RadioState (Logs kind) where
  trans := by
    intro state middle later first second
    obtain ⟨early, earlyEq, earlyKind⟩ := first
    obtain ⟨late, lateEq, lateKind⟩ := second
    refine ⟨early ++ late, by rw [lateEq, earlyEq, List.append_assoc], ?_⟩
    intro sent member
    exact (List.mem_append.mp member).elim (earlyKind sent) (lateKind sent)

section Logging

variable (chip : Chip) {kind : List UInt8 → Prop}

theorem transfers_sendChecked_part (data : List UInt8) :
    Transfers (sendChecked chip data) fun _ sent => sent <+: data := by
  induction data with
  | nil =>
      exact (Transfers.pure 0).weaken fun _ _ both => both.2 ▸ List.prefix_rfl
  | cons byte rest induction =>
      have goesOn : ∀ input, Transfers
          (if transferStatus input ≠ 0 then pure (transferStatus input)
            else sendChecked chip rest) fun _ sent => sent <+: rest := by
        intro input
        split
        · exact (Transfers.pure (transferStatus input)).weaken
            fun _ _ both => both.2 ▸ List.nil_prefix
        · exact induction
      refine ((transfers_spiTransfer chip byte).bind goesOn).weaken ?_
      intro _ _ parts
      obtain ⟨_, early, late, rfl, within, rfl⟩ := parts
      exact (List.prefix_cons_inj byte).mpr within

theorem logs_transaction {Result : Type} {cmd : UInt8} {body : Radio Result}
    {spec : Result → List UInt8 → Prop} (transfers : Transfers body spec)
    (each : ∀ result sent, spec result sent → kind (cmd :: sent)) :
    Program.Grows (Logs kind) (transaction chip cmd body) := by
  intro state
  obtain ⟨result, sent, holds, outcome⟩ :=
    transaction_eq chip cmd transfers state
  have one : ∀ other ∈ [cmd :: sent], kind other := by
    intro other member
    obtain rfl := List.mem_singleton.mp member
    exact each result sent holds
  simp only [outcome]
  split
  · split
    · exact ⟨[cmd :: sent], rfl, one⟩
    · exact ⟨[cmd :: sent], rfl, one⟩
  · exact ⟨[], (List.append_nil _).symm, by simp⟩

theorem logs_writeCommand {cmd : UInt8} {data : List UInt8}
    (each : ∀ sent, sent <+: data → kind (cmd :: sent)) :
    Program.Grows (Logs kind) (writeCommand chip cmd data) :=
  Program.Grows.retry
    ((logs_transaction chip (transfers_sendChecked_part chip data)
      fun _ sent => each sent).bind fun _ => Program.Grows.pure _) 9

theorem logs_getStatus (each : ∀ sent, kind (0xC0 :: sent)) :
    Program.Grows (Logs kind) (getStatus chip) :=
  (logs_transaction chip (transfers_readAll chip 1)
    fun _ sent _ => each sent).bind fun _ => Program.Grows.pure _

theorem logs_awaitMode (each : ∀ sent, kind (0xC0 :: sent)) (mode : UInt8)
    (attempts : Nat) : Program.Grows (Logs kind) (awaitMode chip mode attempts) := by
  induction attempts with
  | zero => exact Program.Grows.pure ()
  | succ attempts induction =>
      refine (logs_getStatus chip each).bind fun status => ?_
      split
      · exact Program.Grows.pure ()
      · exact induction

theorem logs_requireMode (each : ∀ sent, kind (0xC0 :: sent)) (mode : UInt8) :
    Program.Grows (Logs kind) (requireMode chip mode) := by
  refine (logs_awaitMode chip each mode 10).bind fun _ => ?_
  refine (logs_getStatus chip each).bind fun status => ?_
  split
  · exact Program.Grows.pure ()
  · exact Program.Grows.hang

/-- A `SET_TX` with three operands has the timeout that `SetTx` computes. -/
theorem logs_setTx (timeoutInMs : UInt32) :
    Program.Grows
      (Logs fun sent => ∀ operands, sent = 0x83 :: operands →
        operands.length = 3 → operands = timeoutBytes (timeoutInMs * 1000 * 64))
      (setTx chip timeoutInMs) := by
  refine (logs_writeCommand chip ?_).bind fun _ =>
    (logs_writeCommand chip ?_).bind fun _ => logs_requireMode chip ?_ _
  · intro sent _ operands impossible
    cases impossible
  · intro sent within operands same whole
    obtain ⟨_, rfl⟩ := List.cons.inj same
    exact within.eq_of_length whole
  · intro sent operands impossible
    cases impossible

theorem ensures_writeCommand_logged (cmd : UInt8) (data : List UInt8)
    (log : List (List UInt8)) :
    Program.Ensures (fun state => ∃ added, state.log = log ++ added)
      (writeCommand chip cmd data)
      (fun _ state => ∃ added, state.log = log ++ added ∧ cmd :: data ∈ added)
      (fun _ => True) := by
  have attempt : Program.Ensures
      (fun state => ∃ added, state.log = log ++ added)
      (writeCommand2 chip cmd data)
      (fun status state => ∃ added, state.log = log ++ added ∧
        (status = 0 → cmd :: data ∈ added))
      (fun _ => True) := by
    intro state earlier
    obtain ⟨added, logged⟩ := earlier
    obtain ⟨status, sent, whole, outcome⟩ :=
      transaction_eq chip cmd (transfers_sendChecked chip data) state
    simp only [writeCommand2, outcome]
    by_cases idle : chip.idles state.waited
    · by_cases again : chip.idles (state.waited + 1)
      · rw [if_pos idle, if_pos again]
        refine ⟨added ++ [cmd :: sent], by simp [logged], fun good => ?_⟩
        rw [whole good]
        simp
      · rw [if_pos idle, if_neg again]
        trivial
    · rw [if_neg idle]
      trivial
  refine Program.Ensures.retry (attempt.bind fun status => ?_)
    (fun _ _ => trivial) 9
  refine Program.Ensures.pure fun state reached => ?_
  obtain ⟨added, logged, good⟩ := reached
  by_cases acknowledged : status = 0
  · rw [if_pos acknowledged]
    exact ⟨added, logged, good acknowledged⟩
  · rw [if_neg acknowledged]
    exact ⟨added, logged⟩

theorem ensures_setTx_logged (timeoutInMs : UInt32) (log : List (List UInt8)) :
    Program.Ensures (fun state => state.log = log) (setTx chip timeoutInMs)
      (fun _ state => ∃ added, state.log = log ++ added ∧
        0x83 :: timeoutBytes (timeoutInMs * 1000 * 64) ∈ added)
      (fun _ => True) := by
  have standby := (ensures_writeCommand_logged chip 0x80 [0x00] log).weaken
    (fun state (same : state.log = log) => ⟨[], by simpa using same⟩)
    (fun _ state reached => reached.imp fun _ both => both.1)
    fun _ _ => trivial
  refine standby.bind fun _ =>
    (ensures_writeCommand_logged chip 0x83 _ log).bind fun _ => ?_
  have quiet : Program.Grows (Logs fun _ => True) (requireMode chip 0x60) :=
    logs_requireMode chip (fun _ => trivial) 0x60
  refine (quiet.ensures ?_).weaken (fun _ reached => reached)
    (fun _ _ reached => reached) fun _ _ => trivial
  intro state later longer reached
  obtain ⟨new, newEq, _⟩ := longer
  obtain ⟨added, logged, member⟩ := reached
  exact ⟨added ++ new, by rw [newEq, logged, List.append_assoc],
    List.mem_append_left _ member⟩

end Logging

theorem bigEndian_timeoutBytes (timeout : UInt32) :
    bigEndian (timeoutBytes timeout) = timeout.toNat % 2 ^ 24 := by
  simp only [bigEndian, timeoutBytes, List.foldl_cons, List.foldl_nil,
    UInt32.toNat_toUInt8, UInt32.toNat_shiftRight]
  simp only [Nat.shiftRight_eq_div_pow]
  simp
  omega

theorem timerSteps_milliseconds (milliseconds : Nat) :
    timerSteps (milliseconds * 1000) = milliseconds * 64 := by
  simp only [timerSteps]
  omega

/-- `SetTx` programs a thousand times the steps, reduced to 24 bits. -/
theorem bigEndian_setTx (timeoutInMs : UInt32) :
    bigEndian (timeoutBytes (timeoutInMs * 1000 * 64)) =
      timeoutInMs.toNat * 64000 % 2 ^ 24 := by
  rw [bigEndian_timeoutBytes, UInt32.toNat_mul, UInt32.toNat_mul]
  simp
  omega

theorem operands_setTx {chip : Chip} {timeoutInMs : UInt32} {state : RadioState}
    {operands : List UInt8}
    (member : 0x83 :: operands ∈ transactions (setTx chip timeoutInMs) state)
    (whole : operands.length = 3) :
    operands = timeoutBytes (timeoutInMs * 1000 * 64) := by
  obtain ⟨added, logged, kinds⟩ := logs_setTx chip timeoutInMs state
  rw [transactions, logged, List.drop_left] at member
  exact kinds _ member operands rfl whole

/-- A timeout whose steps fit into 24 bits times 999 is no multiple of `2^18`. -/
theorem steps_ne_thousandfold {milliseconds : Nat} (positive : 1 ≤ milliseconds)
    (fits : milliseconds * 64 < 2 ^ 24) :
    milliseconds * 64000 % 2 ^ 24 ≠ milliseconds * 64 := by
  intro same
  have whole := Nat.div_add_mod (milliseconds * 64000) (2 ^ 24)
  rw [same] at whole
  generalize milliseconds * 64000 / 2 ^ 24 = quotient at whole
  have multiple : milliseconds * 999 = 2 ^ 18 * quotient := by
    clear same fits
    omega
  have divides : 2 ^ 18 ∣ milliseconds :=
    Nat.Coprime.dvd_of_dvd_mul_right (by decide) ⟨quotient, multiple⟩
  have below : milliseconds < 2 ^ 18 := by
    clear same whole multiple divides
    omega
  exact Nat.not_dvd_of_pos_of_lt positive below divides

theorem not_programsTimeout (chip : Chip) {timeoutInMs : UInt32}
    (state : RadioState) (positive : 1 ≤ timeoutInMs.toNat)
    (fits : timeoutInMs.toNat * 64 < 2 ^ 24) :
    ¬ ProgramsTimeout chip timeoutInMs state := by
  rintro ⟨operands, member, whole, right⟩
  rw [operands_setTx member whole, bigEndian_setTx, timerSteps_milliseconds] at right
  exact steps_ne_thousandfold positive fits right

/-- No timeout is programmed as it was asked for: what is programmed is a
thousand times as many steps, modulo `2^24`. -/
theorem setTx_never_programsTimeout (chip : Chip) (timeoutInMs : UInt32)
    (state : RadioState) (positive : 1 ≤ timeoutInMs.toNat)
    (fits : timeoutInMs.toNat * 64 < 2 ^ 24) :
    ¬ ProgramsTimeout chip timeoutInMs state ∧
      ((setTx chip timeoutInMs state).1 = some () →
        ∃ operands, 0x83 :: operands ∈
            transactions (setTx chip timeoutInMs) state ∧
          operands.length = 3 ∧
          bigEndian operands = timeoutInMs.toNat * 64000 % 2 ^ 24) := by
  refine ⟨not_programsTimeout chip state positive fits, fun returned => ?_⟩
  obtain ⟨added, logged, _⟩ := logs_setTx chip timeoutInMs state
  have transactionsEq : transactions (setTx chip timeoutInMs) state = added := by
    rw [transactions, logged, List.drop_left]
  rw [transactionsEq]
  have sent := ensures_setTx_logged chip timeoutInMs state.log state rfl
  cases outcome : setTx chip timeoutInMs state with
  | mk answer later =>
      rw [outcome] at sent returned logged
      obtain rfl := (returned : answer = some ())
      obtain ⟨_, loggedAgain, member⟩ := sent
      obtain rfl := List.append_cancel_left (logged.symm.trans loggedAgain)
      exact ⟨_, member, rfl, bigEndian_setTx timeoutInMs⟩

def transmittingChip : Chip where
  reply _ _ := 0x63
  idles _ := true

/-- The 500 ms of `LoRaSend` become 15222784 steps, almost four minutes. -/
theorem setTx_never_programsTimeout_loRaSend :
    ¬ ProgramsTimeout transmittingChip 500
        (initialized (List.Vector.replicate 6 0) 0) ∧
      ((setTx transmittingChip 500
          (initialized (List.Vector.replicate 6 0) 0)).1 = some () →
        ∃ operands, 0x83 :: operands ∈
            transactions (setTx transmittingChip 500)
              (initialized (List.Vector.replicate 6 0) 0) ∧
          operands.length = 3 ∧ bigEndian operands = 500 * 64000 % 2 ^ 24) :=
  setTx_never_programsTimeout transmittingChip 500 _ (by decide) (by decide)

theorem programsTimeout_fails :
    ¬ ∀ (chip : Chip) (timeoutInMs : UInt32) (state : RadioState),
      1 ≤ timeoutInMs.toNat → timeoutInMs.toNat * 64 < 2 ^ 24 →
        (setTx chip timeoutInMs state).1 = some () →
          ProgramsTimeout chip timeoutInMs state := by
  intro always
  exact not_programsTimeout transmittingChip _ (by decide) (by decide)
    (always transmittingChip 500 (initialized (List.Vector.replicate 6 0) 0)
      (by decide) (by decide) (by decide +kernel))

end Radio

end Lora32Mqtt
