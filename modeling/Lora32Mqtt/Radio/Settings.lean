import Lora32Mqtt.Base.LastWrites
import Lora32Mqtt.Radio.Driver

/-!
# What the chip is set to

The settings are what the chip was last told under each command, and under each
address for its registers.  Starting a node enters a fixed table of them, whether it
is a master or a slave, and no call of the tasks touches those that decide how a
frame is modulated and on which channel.
-/

namespace Lora32Mqtt

namespace Radio

/-- The commands that tell the chip nothing. -/
def queries : List UInt8 := [0x12, 0x13, 0x14, 0x15, 0x1D, 0x1E, 0xC0]

/-- What a transaction sets, a register by its address. -/
def setting : List UInt8 → Option (List UInt8 × List UInt8)
  | [] => none
  | cmd :: operands =>
      if cmd ∈ queries then none
      else if cmd = 0x0D then some (cmd :: operands.take 2, operands.drop 2)
      else some ([cmd], operands)

def settings (log : List (List UInt8)) : List UInt8 → Option (List UInt8) :=
  lastWrites setting log

def entered (known : List UInt8 → Option (List UInt8))
    (entries : List (List UInt8 × List UInt8)) : List UInt8 → Option (List UInt8) :=
  entries.foldl (fun earlier entry =>
    Function.update earlier entry.1 (some entry.2)) known

theorem entered_append (known : List UInt8 → Option (List UInt8))
    (entries others : List (List UInt8 × List UInt8)) :
    entered (entered known entries) others = entered known (entries ++ others) :=
  List.foldl_append.symm

section Commands

variable (chip : Chip) {initial : RadioState} {known : List UInt8 → Option (List UInt8)}

/-- Every byte exchanged since then is in the log. -/
def Counted (initial state : RadioState) : Prop :=
  ∃ added, state.log = initial.log ++ added ∧
    state.exchanged = initial.exchanged + added.flatten.length

theorem Counted.refl (state : RadioState) : Counted state state :=
  ⟨[], (List.append_nil _).symm, rfl⟩

theorem Sent.counted {cmds : List UInt8} {state later : RadioState}
    (sent : Sent cmds state later) (counted : Counted initial state) :
    Counted initial later := by
  obtain ⟨before, loggedBefore, count⟩ := counted
  obtain ⟨added, logged, _⟩ := sent.log
  have exchanged := sent.exchanged
  refine ⟨before ++ added, by rw [logged, loggedBefore, List.append_assoc], ?_⟩
  simp only [logged, loggedBefore, List.flatten_append, List.length_append]
    at exchanged ⊢
  omega

/-- The settings are exactly these. -/
structure Settled (initial : RadioState) (known : List UInt8 → Option (List UInt8))
    (state : RadioState) : Prop where
  settings : settings state.log = known
  counted : Counted initial state

abbrev Whatever (_ : RadioState) : Prop := True

theorem setting_command {cmd : UInt8} (operands : List UInt8)
    (plain : cmd ∉ 0x0D :: queries) :
    setting (cmd :: operands) = some ([cmd], operands) := by
  rw [List.mem_cons, not_or] at plain
  rw [setting, if_neg plain.2, if_neg plain.1]

theorem ensures_writeCommand_settings {cmd : UInt8} (data : List UInt8)
    (plain : cmd ∉ 0x0D :: queries) :
    Program.Ensures (Settled initial known) (writeCommand chip cmd data)
      (fun _ => Settled initial (Function.update known [cmd] (some data))) Whatever := by
  intro state settled
  obtain ⟨sent, sentEq, attempts, acknowledged⟩ :=
    writeCommand_attempted chip cmd data state
  have quiet : Sent [cmd] state (writeCommand chip cmd data state).2 :=
    sends_writeCommand chip data List.mem_cons_self state
  cases outcome : writeCommand chip cmd data state with
  | mk answer later =>
      cases answer with
      | none => trivial
      | some done =>
          rw [outcome] at sentEq acknowledged quiet
          obtain ⟨earlier, rfl⟩ := acknowledged rfl
          refine ⟨?_, quiet.counted settled.counted⟩
          change lastWrites setting later.log = _
          rw [sentEq, lastWrites_of_same (setting_command data plain)]
          · exact congrArg (fun before => Function.update before [cmd] (some data))
              settled.settings
          · intro one member key value written
            obtain ⟨operands, rfl, _⟩ := attempts.each one
              (List.mem_append_left _ member)
            rw [setting_command operands plain] at written
            exact (Prod.mk.inj (Option.some.inj written)).1.symm

theorem ensures_writeRegister_settings (reg : UInt16) (data : List UInt8) :
    Program.Ensures (Settled initial known) (writeRegister chip reg data)
      (fun _ => Settled initial (Function.update known
        [0x0D, (reg >>> 8).toUInt8, reg.toUInt8] (some data))) Whatever := by
  intro state settled
  have quiet : Sent [0x0D] state (writeRegister chip reg data state).2 :=
    sends_writeRegister chip reg data List.mem_cons_self state
  obtain ⟨result, sent, ⟨_, early, late, rfl, same, rfl⟩, outcome⟩ :=
    transaction_eq chip 0x0D ((transfers_sendAll_exact chip
      [(reg >>> 8).toUInt8, reg.toUInt8]).bind fun _ =>
        transfers_sendAll_exact chip data) state
  rw [writeRegister, outcome] at quiet ⊢
  by_cases idle : chip.idles state.waited
  · by_cases again : chip.idles (state.waited + 1)
    · rw [if_pos idle, if_pos again] at quiet ⊢
      refine ⟨?_, quiet.counted settled.counted⟩
      change lastWrites setting (state.log ++ [_]) = _
      rw [lastWrites_concat (show setting _ = some _ from rfl), same]
      exact congrArg (fun before : List UInt8 → Option (List UInt8) =>
        Function.update before _ (some data)) settled.settings
    · rw [if_pos idle, if_neg again]
      trivial
  · rw [if_neg idle]
    trivial

/-- The step added transactions of some commands. -/
abbrev Uses {Result : Type} (cmds : List UInt8) (program : Radio Result) : Prop :=
  Program.Grows (Logs fun sent => ∃ cmd ∈ cmds, ∃ operands, sent = cmd :: operands)
    program

theorem Sends.uses {Result : Type} {cmds more : List UInt8} {program : Radio Result}
    (sends : Sends cmds program) (within : cmds ⊆ more) : Uses more program :=
  fun state => (sends.mono within state).log

/-- A setting is left alone by a program without its command. -/
theorem Uses.settings_eq {Result : Type} {cmds : List UInt8} {program : Radio Result}
    (uses : Uses cmds program) {cmd : UInt8} (other : cmd ∉ cmds) (rest : List UInt8)
    (state : RadioState) :
    settings (program state).2.log (cmd :: rest) = settings state.log (cmd :: rest) := by
  obtain ⟨added, logged, each⟩ := uses state
  rw [logged]
  refine lastWrites_of_other fun one member value written => ?_
  obtain ⟨used, isUsed, operands, rfl⟩ := each one member
  have same : used = cmd := by
    rw [setting] at written
    split at written
    · cases written
    · split at written
      next register =>
        obtain ⟨key, _⟩ := Prod.mk.inj (Option.some.inj written)
        exact (List.cons.inj key).1
      next =>
        obtain ⟨key, _⟩ := Prod.mk.inj (Option.some.inj written)
        exact (List.cons.inj key).1
  exact other (same ▸ isUsed)

theorem Sent.settings_eq {cmds : List UInt8} {state later : RadioState}
    (sent : Sent cmds state later) (ask : cmds ⊆ queries) :
    settings later.log = settings state.log := by
  obtain ⟨added, logged, each⟩ := sent.log
  funext key
  rw [logged]
  refine lastWrites_of_other fun one member value written => ?_
  obtain ⟨cmd, isCmd, operands, rfl⟩ := each one member
  rw [setting, if_pos (ask isCmd)] at written
  cases written

theorem ensures_queries {Result : Type} {cmds : List UInt8} {program : Radio Result}
    (sends : Sends cmds program) (ask : cmds ⊆ queries) :
    Program.Ensures (Settled initial known) program (fun _ => Settled initial known)
      Whatever := by
  have settles := sends.ensures fun _ _ sent settled =>
    (⟨(sent.settings_eq ask).trans settled.settings, sent.counted settled.counted⟩ :
      Settled initial known _)
  exact settles.weaken (fun _ same => same) (fun _ _ same => same) fun _ _ => trivial

theorem ensures_setRx_settings (timeout : UInt32) :
    Program.Ensures (Settled initial known) (setRx chip timeout)
      (fun _ => Settled initial (entered known
        [([0x80], [0x00]), ([0x82], timeoutBytes timeout)])) Whatever := by
  refine (ensures_writeCommand_settings chip [0x00] (by decide)).bind fun _ => ?_
  refine (ensures_writeCommand_settings chip _ (by decide)).bind fun _ => ?_
  have asks : Sends [0xC0] (requireMode chip 0x50) :=
    sends_requireMode chip _ (by decide)
  exact ensures_queries asks (by decide)

theorem bigEndian_wordBytes (word : UInt32) : bigEndian (wordBytes word) = word.toNat := by
  have bound := word.toNat_lt
  simp only [bigEndian, wordBytes, List.foldl_cons, List.foldl_nil,
    UInt32.toNat_toUInt8, UInt32.toNat_shiftRight]
  simp only [Nat.shiftRight_eq_div_pow]
  simp
  omega

/-- The rounding of the division never reaches the next step. -/
theorem toNat_frequencyWord {frequency : UInt32} (inRange : frequency.toNat < 4096000000) :
    (frequencyWord frequency).toNat = frequency.toNat * 2 ^ 14 / 15625 := by
  have small : frequency.toNat * 2 ^ 14 / 15625 < 2 ^ 32 :=
    Nat.div_lt_of_lt_mul (by omega)
  rw [frequencyWord, truncatedQuotient_of_lt (by decide) small (by decide),
    UInt32.toNat_ofNat_of_lt' small]

theorem ensures_rfFrequency_settings (residue : UInt8 × UInt8) (frequency : UInt32) :
    Program.Ensures (Settled initial known) (setRfFrequency chip residue frequency)
      (fun _ => Settled initial (entered known
        [([0x98], [(calFreq residue frequency).1, (calFreq residue frequency).2]),
          ([0x86], wordBytes (frequencyWord frequency))])) Whatever :=
  (ensures_writeCommand_settings chip _ (by decide)).bind fun _ =>
    ensures_writeCommand_settings chip _ (by decide)

/-- The four bytes on the wire are the largest number of steps of 15625 / 2^14 Hz that
does not exceed the frequency. -/
theorem ensures_setRfFrequency {frequency : UInt32} (residue : UInt8 × UInt8)
    (inRange : frequency.toNat < 4096000000) :
    Program.Ensures Whatever (setRfFrequency chip residue frequency)
      (fun _ state => ∃ bytes, settings state.log [0x86] = some bytes ∧ bytes.length = 4 ∧
        bigEndian bytes * 15625 ≤ frequency.toNat * 2 ^ 14 ∧
        frequency.toNat * 2 ^ 14 < (bigEndian bytes + 1) * 15625) Whatever := by
  intro state _
  refine ((ensures_rfFrequency_settings chip residue frequency).weaken (fun _ same => same)
    (fun _ later settled => ⟨wordBytes (frequencyWord frequency), ?_, rfl, ?_, ?_⟩)
    fun _ same => same) state ⟨rfl, .refl state⟩
  · exact congrFun settled.settings [0x86]
  · rw [bigEndian_wordBytes, toNat_frequencyWord inRange]
    exact Nat.div_mul_le_self _ _
  · rw [bigEndian_wordBytes, toNat_frequencyWord inRange]
    omega

/-- The frequency of the nodes, on a chip that acknowledges both commands. -/
theorem ensures_setRfFrequency_node :
    let later := (setRfFrequency transmittingChip (0, 0) 915000000
      (initialized (List.Vector.replicate 6 0) 0)).2
    ∃ bytes, settings later.log [0x86] = some bytes ∧ bytes.length = 4 ∧
      bigEndian bytes * 15625 ≤ (915000000 : UInt32).toNat * 2 ^ 14 ∧
      (915000000 : UInt32).toNat * 2 ^ 14 < (bigEndian bytes + 1) * 15625 :=
  Program.Ensures.returns (ensures_setRfFrequency transmittingChip (0, 0)
    (show (915000000 : UInt32).toNat < 4096000000 by decide)) trivial
      (show _ = some () by decide +kernel)

/-- The limits of `LoRaBegin` and of `SetPowerConfig`. -/
def clampPower (power : Int8) : Int8 :=
  if power > 22 then 22 else if power < -3 then -3 else power

theorem clampPower_twice (power : Int8) :
    clampPower (if (if power > 22 then 22 else power) < -3 then -3
      else if power > 22 then 22 else power) = clampPower power := by
  simp only [clampPower]
  split_ifs with above <;> first | rfl | contradiction

/-- The oscillator is supplied before the rest. -/
def supplyEntries (tcxoVoltage : Rat) : List (List UInt8 × List UInt8) :=
  [([0x80], [0x00]), ([0x9D], [0x01])] ++
    if tcxoVoltage > 0 then
      [([0x97], tcxoCode tcxoVoltage :: timeoutBytes (delayValue 5000))]
    else []

def beginEntries (residue : UInt8 × UInt8) (frequencyInHz : UInt32) (txPowerInDbm : Int8)
    (useRegulatorLDO : Bool) : List (List UInt8 × List UInt8) :=
  [([0x89], [0x7F]), ([0x96], [if useRegulatorLDO then 0x00 else 0x01]),
    ([0x8F], [0x00, 0x00]), ([0x95], [0x04, 0x07, 0x00, 0x01]),
    ([0x0D, 0x08, 0xE7], [24]), ([0x8E], [(clampPower txPowerInDbm).toUInt8, 0x04]),
    ([0x98], [(calFreq residue frequencyInHz).1, (calFreq residue frequencyInHz).2]),
    ([0x86], wordBytes (frequencyWord frequencyInHz))]

def configEntries (args : ConfigArgs) (polarity : UInt8) :
    List (List UInt8 × List UInt8) :=
  [([0x9F], [0x00]), ([0xA0], [0x00]), ([0x8A], [0x01]),
    ([0x8B], [args.spreadingFactor, args.bandwidth, args.codingRate, 0x00]),
    ([0x0D, 0x07, 0x36],
      [if args.invertIrq then polarity &&& 0xFB else polarity ||| 0x04]),
    ([0x8C], args.packetParams.toList),
    ([0x08], [0x03, 0xFF, 0x00, 0x00, 0x00, 0x00, 0x00, 0x00]),
    ([0x80], [0x00]), ([0x82], [0xFF, 0xFF, 0xFF])]

def At (sent : List UInt8) (count : Nat) (state : RadioState) : Prop :=
  state.current = sent ∧ state.exchanged = count

theorem ensures_spiTransfer_at (sent : List UInt8) (count : Nat) (byte : UInt8) :
    Program.Ensures (At sent count) (spiTransfer chip byte)
      (fun input state => input = chip.reply sent count ∧
        At (sent ++ [byte]) (count + 1) state) Whatever := by
  intro state reached
  obtain ⟨rfl, rfl⟩ := reached
  exact ⟨rfl, rfl, rfl⟩

theorem ensures_sendAll_at (sent : List UInt8) (count : Nat) (data : List UInt8) :
    Program.Ensures (At sent count) (sendAll chip data)
      (fun _ => At (sent ++ data) (count + data.length)) Whatever := by
  induction data generalizing sent count with
  | nil => exact fun state reached => ⟨reached.1.trans (List.append_nil _).symm, reached.2⟩
  | cons byte rest induction =>
      refine ((ensures_spiTransfer_at chip sent count byte).weaken (fun _ same => same)
        (fun _ _ both => both.2) fun _ same => same).bind fun _ => ?_
      rw [List.length_cons, Nat.add_comm rest.length, ← Nat.add_assoc]
      have later := induction (sent ++ [byte]) (count + 1)
      rw [List.append_assoc] at later
      exact later

def answers (sent : List UInt8) (first : Nat) : Nat → List UInt8
  | 0 => []
  | count + 1 => chip.reply sent first :: answers (sent ++ [0x00]) (first + 1) count

theorem ensures_readAll_at (sent : List UInt8) (first count : Nat) :
    Program.Ensures (At sent first) (readAll chip count)
      (fun bytes _ => bytes = answers chip sent first count) Whatever := by
  induction count generalizing sent first with
  | zero => exact fun state _ => rfl
  | succ count induction =>
      refine (ensures_spiTransfer_at chip sent first 0x00).bind fun input => ?_
      intro state before
      obtain ⟨rfl, at_next⟩ := before
      refine ((induction (sent ++ [0x00]) (first + 1)).bind fun bytes => ?_) state at_next
      intro later same
      exact congrArg (chip.reply sent first :: ·) same

def selects (reg : UInt16) : List UInt8 :=
  [0x1D, (reg >>> 8).toUInt8, reg.toUInt8, 0x00]

theorem ensures_readRegister_at (first : Nat) (reg : UInt16) (count : Nat) :
    Program.Ensures (fun state => state.exchanged = first) (readRegister chip reg count)
      (fun bytes _ => bytes = answers chip (selects reg) (first + 4) count) Whatever := by
  have waits : Program.Ensures (fun state => state.exchanged = first) (waitForIdle chip)
      (fun _ state => state.exchanged = first) Whatever := by
    intro state reached
    rw [waitForIdle]
    by_cases idle : chip.idles state.waited
    · rw [if_pos idle]
      exact reached
    · rw [if_neg idle]
      trivial
  have cleared : Program.Ensures (fun state => state.exchanged = first)
      (Program.modify fun state => { state with current := [] }) (fun _ => At [] first)
      Whatever := fun _ same => ⟨rfl, same⟩
  refine waits.bind fun _ => cleared.bind fun _ => ?_
  refine ((ensures_spiTransfer_at chip [] first 0x1D).weaken (fun _ same => same)
    (fun _ _ both => both.2) fun _ same => same).bind fun _ => ?_
  refine Program.Ensures.bind ((ensures_sendAll_at chip [0x1D] (first + 1) _).bind
    fun _ => ensures_readAll_at chip (selects reg) (first + 4) count) fun bytes => ?_
  intro state same
  rw [Program.bind_of_some (rfl : Program.modify _ state = _), Program.bind_apply,
    waitForIdle]
  by_cases idle : chip.idles state.waited
  · rw [if_pos idle]
    exact same
  · rw [if_neg idle]
    trivial

theorem transfers_readAll_exact (count : Nat) :
    Transfers (readAll chip count) fun _ sent => sent = List.replicate count 0x00 := by
  induction count with
  | zero => exact (Transfers.pure []).weaken fun _ _ both => both.2
  | succ count induction =>
      refine ((transfers_spiTransfer chip 0x00).bind fun first =>
        induction.bind fun rest => Transfers.pure (first :: rest)).weaken ?_
      intro _ _ parts
      obtain ⟨_, _, _, rfl, ⟨_, _, _, rfl, ⟨_, rfl⟩, rfl⟩, rfl⟩ := parts
      rw [List.append_nil, List.replicate_succ]
      rfl

theorem readRegister_logged {reg : UInt16} {count : Nat} {state later : RadioState}
    {bytes : List UInt8}
    (returned : readRegister chip reg count state = (some bytes, later)) :
    later.log = state.log ++ [selects reg ++ List.replicate count 0x00] := by
  obtain ⟨result, sent, ⟨_, early, late, rfl, rfl, rfl⟩, outcome⟩ :=
    transaction_eq chip 0x1D ((transfers_sendAll_exact chip
      [(reg >>> 8).toUInt8, reg.toUInt8, 0x00]).bind fun _ =>
        transfers_readAll_exact chip count) state
  rw [readRegister, outcome] at returned
  split at returned
  · split at returned
    · obtain ⟨_, rfl⟩ := Prod.mk.inj returned
      rfl
    · cases congrArg Prod.fst returned
  · cases congrArg Prod.fst returned

theorem ensures_power_settings (power : Int8) (rampTime : UInt8) :
    Program.Ensures (Settled initial known) (setPowerConfig chip power rampTime)
      (fun _ => Settled initial (Function.update known [0x8E]
        (some [(clampPower power).toUInt8, rampTime]))) Whatever :=
  ensures_writeCommand_settings chip _ (by decide)

/-- 60 mA are 24 steps of the register. -/
theorem ensures_overcurrent_settings :
    Program.Ensures (Settled initial known) (setOvercurrentProtection chip 60)
      (fun _ => Settled initial (Function.update known [0x0D, 0x08, 0xE7] (some [24])))
      Whatever := by
  have inRange : (0 : Rat) ≤ 60 ∧ (60 : Rat) ≤ 140 := by decide
  have steps : UInt8.ofNat ((60 : Rat) / (25 / 10)).floor.toNat = 24 := by decide +kernel
  rw [setOvercurrentProtection, if_pos inRange, steps]
  exact ensures_writeRegister_settings chip 0x08E7 [24]

theorem ensures_begin_settings (residue : UInt8 × UInt8) (frequencyInHz : UInt32)
    (txPowerInDbm : Int8) (useRegulatorLDO : Bool) :
    Program.Ensures (Settled initial known)
      (do
        calibrate chip 0x7F
        setRegulatorMode chip (if useRegulatorLDO then 0x00 else 0x01)
        setBufferBaseAddress chip 0 0
        setPaConfig chip 0x04 0x07 0x00 0x01
        setOvercurrentProtection chip 60
        setPowerConfig chip (if (if txPowerInDbm > 22 then 22 else txPowerInDbm) < -3
          then -3 else if txPowerInDbm > 22 then 22 else txPowerInDbm) 0x04
        setRfFrequency chip residue frequencyInHz
        pure errNone)
      (fun status later => status = errNone ∧ Settled initial (entered known
        (beginEntries residue frequencyInHz txPowerInDbm useRegulatorLDO)) later)
      Whatever := by
  refine (ensures_writeCommand_settings chip _ (by decide)).bind fun _ => ?_
  refine (ensures_writeCommand_settings chip _ (by decide)).bind fun _ => ?_
  refine (ensures_writeCommand_settings chip _ (by decide)).bind fun _ => ?_
  refine (ensures_writeCommand_settings chip _ (by decide)).bind fun _ => ?_
  refine (ensures_overcurrent_settings chip).bind fun _ => ?_
  refine (ensures_power_settings chip _ _).bind fun _ => ?_
  rw [clampPower_twice]
  refine (ensures_rfFrequency_settings chip _ _).bind fun _ => ?_
  exact Program.Ensures.pure fun state settled => ⟨rfl, settled⟩

/-- The answers by which `LoRaBegin` decides whether there is a chip. -/
def recognised (state : RadioState) : Bool :=
  isSyncWord (answers chip (selects 0x0740) (state.exchanged + 4) 2)

theorem ensures_loRaBegin_settings (residue : UInt8 × UInt8) (frequencyInHz : UInt32)
    (txPowerInDbm : Int8) (tcxoVoltage : Rat) (useRegulatorLDO : Bool)
    (initial : RadioState) :
    Program.Ensures (fun state => state = initial)
      (loRaBegin chip residue frequencyInHz txPowerInDbm tcxoVoltage useRegulatorLDO)
      (fun status later =>
        if recognised chip initial then
          status = errNone ∧ Settled initial (entered (settings initial.log)
            (supplyEntries tcxoVoltage ++
              beginEntries residue frequencyInHz txPowerInDbm useRegulatorLDO)) later
        else status = errInvalidMode ∧ Sent [0x1D] initial later)
      (fun later => recognised chip initial = false → Sent [0x1D] initial later) := by
  have waits : Sends [0x1D] (reset chip) := sends_waitForIdle chip
  have reads : Sends [0x1D] (readRegister chip 0x0740 2) :=
    sends_readRegister chip 0x0740 2 List.mem_cons_self
  have kept : ∀ later, Whatever later ∧ Sent [0x1D] initial later →
      recognised chip initial = false → Sent [0x1D] initial later :=
    fun _ both _ => both.2
  have still : Program.Ensures (fun state => state.exchanged = initial.exchanged)
      (reset chip) (fun _ state => state.exchanged = initial.exchanged) Whatever := by
    intro state same
    rw [reset, waitForIdle]
    by_cases idle : chip.idles state.waited
    · rw [if_pos idle]
      exact same
    · rw [if_neg idle]
      trivial
  refine Program.Ensures.bind ((waits.alongside still initial).weaken ?_
    (fun _ _ same => same) kept) fun _ => ?_
  · rintro state rfl
    exact ⟨rfl, Std.Refl.refl state⟩
  refine Program.Ensures.bind ((reads.alongside
    (ensures_readRegister_at chip initial.exchanged 0x0740 2) initial).weaken
    (fun _ same => same) (fun _ _ same => same) kept) fun syncWord => ?_
  intro state found
  obtain ⟨rfl, sent⟩ := found
  have settled : Settled initial (settings initial.log) state :=
    ⟨sent.settings_eq (by decide), sent.counted (.refl initial)⟩
  rw [show isSyncWord (answers chip (selects 0x0740) (initial.exchanged + 4) 2) =
    recognised chip initial from rfl]
  cases recognised chip initial with
  | false => exact ⟨rfl, sent⟩
  | true =>
      refine ((ensures_writeCommand_settings chip [0x00] (by decide)).bind fun _ =>
        (ensures_writeCommand_settings chip [0x01] (by decide)).bind fun _ => ?_).weaken
        (fun _ same => same) (fun _ _ same => same)
        (fun _ _ impossible => absurd impossible (by decide)) state settled
      rw [supplyEntries, ← entered_append, ← entered_append]
      by_cases supplied : tcxoVoltage > 0
      · simp only [if_pos supplied]
        exact (ensures_writeCommand_settings chip _ (by decide)).bind fun _ =>
          ensures_begin_settings chip residue frequencyInHz txPowerInDbm useRegulatorLDO
      · simp only [if_neg supplied]
        exact ensures_begin_settings chip residue frequencyInHz txPowerInDbm useRegulatorLDO

/-- The byte is what the chip has answered when the IQ polarity register was read. -/
def PolarityRead (chip : Chip) (initial : RadioState) (polarity : UInt8)
    (state : RadioState) : Prop :=
  ∃ before after,
    state.log = initial.log ++ before ++ (selects 0x0736 ++ [0x00]) :: after ∧
      polarity = chip.reply (selects 0x0736)
        (initial.exchanged + before.flatten.length + 4)

/-- The register keeps its other bits; the state right after it was read is the one
from which the rest is counted. -/
theorem ensures_fixInvertedIQ_settings (iqConfig : UInt8) (params : CArray 6) :
    Program.Ensures
      (fun state => Settled initial known state ∧ state.packetParams = params)
      (fixInvertedIQ chip iqConfig)
      (fun _ state => ∃ polarity middle, PolarityRead chip initial polarity middle ∧
        Settled middle (Function.update known [0x0D, 0x07, 0x36]
          (some [if iqConfig = 0x01 then polarity &&& 0xFB else polarity ||| 0x04])) state ∧
        state.packetParams = params)
      Whatever := by
  intro state before
  have reads : Sends [0x1D] (readRegister chip 0x0736 1) :=
    sends_readRegister chip 0x0736 1 List.mem_cons_self
  have sent := reads state
  have answered := ensures_readRegister_at chip state.exchanged 0x0736 1 state rfl
  rw [fixInvertedIQ]
  cases outcome : readRegister chip 0x0736 1 state with
  | mk answer middle =>
      rw [outcome] at sent answered
      cases answer with
      | none =>
          rw [Program.bind_of_none outcome]
          trivial
      | some data =>
          obtain rfl : data = _ := answered
          rw [Program.bind_of_some outcome]
          obtain ⟨added, logged, count⟩ := before.1.counted
          have polarityRead : PolarityRead chip initial
              (chip.reply (selects 0x0736) (state.exchanged + 4)) middle := by
            refine ⟨added, [], ?_, by rw [count]⟩
            rw [readRegister_logged chip outcome, logged]
            rfl
          have here : Settled middle known middle :=
            ⟨(sent.settings_eq (by decide)).trans before.1.settings, .refl middle⟩
          have writes : ∀ data : List UInt8,
              Sends [0x0D] (writeRegister chip 0x0736 data) :=
            fun data => sends_writeRegister chip 0x0736 data List.mem_cons_self
          refine (((writes _).alongside
            (ensures_writeRegister_settings chip 0x0736 _) middle).weaken
            (fun _ same => same)
            (fun _ later reached => ⟨_, middle, polarityRead, reached.1, ?_⟩)
            fun _ _ => trivial) middle ⟨here, Std.Refl.refl middle⟩
          exact reached.2.packetParams.trans (sent.packetParams.trans before.2)

theorem ensures_setPacketParams_settings (params : CArray 6) :
    Program.Ensures
      (fun state => Settled initial known state ∧ state.packetParams = params)
      (setPacketParams chip)
      (fun _ => Settled initial (Function.update known [0x8C] (some params.toList)))
      Whatever := by
  intro state before
  obtain ⟨settled, rfl⟩ := before
  exact ensures_writeCommand_settings chip state.packetParams.toList (by decide) state
    settled

theorem PolarityRead.counted {initial middle later : RadioState} {polarity : UInt8}
    (polarityRead : PolarityRead chip initial polarity middle)
    (counted : Counted middle later) : PolarityRead chip initial polarity later := by
  obtain ⟨before, after, logged, same⟩ := polarityRead
  obtain ⟨added, loggedLater, _⟩ := counted
  refine ⟨before, after ++ added, ?_, same⟩
  rw [loggedLater, logged, List.append_assoc, List.cons_append]

theorem ensures_loRaConfig_settings (args : ConfigArgs) :
    Program.Ensures (Settled initial known) (loRaConfig chip args)
      (fun _ state => ∃ polarity, PolarityRead chip initial polarity state ∧
        settings state.log = entered known (configEntries args polarity))
      Whatever := by
  refine (ensures_writeCommand_settings chip _ (by decide)).bind fun _ => ?_
  refine (ensures_writeCommand_settings chip _ (by decide)).bind fun _ => ?_
  refine (ensures_writeCommand_settings chip _ (by decide)).bind fun _ => ?_
  refine (ensures_writeCommand_settings chip _ (by decide)).bind fun _ => ?_
  have stored : ∀ entered, Program.Ensures (Settled initial entered)
      (storeParams args.packetParams)
      (fun _ state => Settled initial entered state ∧
        state.packetParams = args.packetParams)
      Whatever := fun _ _ settled => ⟨⟨settled.settings, settled.counted⟩, rfl⟩
  refine (stored _).bind fun _ => ?_
  refine (ensures_fixInvertedIQ_settings chip _ args.packetParams).bind fun _ => ?_
  refine Program.Ensures.ofExists fun polarity => Program.Ensures.ofExists fun middle =>
    Program.Ensures.given fun polarityRead => ?_
  refine (ensures_setPacketParams_settings chip args.packetParams).bind fun _ => ?_
  refine (ensures_writeCommand_settings chip _ (by decide)).bind fun _ => ?_
  refine (ensures_setRx_settings chip 0xFFFFFF).weaken (fun _ same => same)
    (fun _ state settled => ⟨polarity, polarityRead.counted chip settled.counted, ?_⟩)
    fun _ same => same
  rw [configEntries, settled.settings]
  cases args.invertIrq with
  | false => rfl
  | true => rfl

/-- What a node has entered when it starts. -/
def nodeEntries (residue : UInt8 × UInt8) (polarity : UInt8) :
    List (List UInt8 × List UInt8) :=
  supplyEntries nodeVoltage ++ beginEntries residue 915000000 22 true ++
    configEntries nodeArgs polarity

/-- Nothing was sent but readings of registers. -/
def OnlyRead (initial later : RadioState) : Prop :=
  ∃ added, later.log = initial.log ++ added ∧
    ∀ sent ∈ added, ∃ operands, sent = 0x1D :: operands

theorem Sent.onlyRead {initial later : RadioState} (sent : Sent [0x1D] initial later) :
    OnlyRead initial later := by
  obtain ⟨added, logged, each⟩ := sent.log
  refine ⟨added, logged, fun one member => ?_⟩
  obtain ⟨cmd, isRead, operands⟩ := each one member
  exact List.mem_singleton.mp isRead ▸ operands

theorem ensures_loRaInit (bus : SpiBus) (initial : RadioState) :
    Program.Ensures (fun state => state = initial) (loRaInit bus)
      (fun _ later => later = { initial with txActive := false })
      (fun later => later = { initial with txActive := false }) := by
  intro state same
  subst same
  rw [loRaInit, Program.bind_of_some (rfl : setActive false state = _)]
  cases bus.initialized && bus.deviceAdded with
  | false => exact rfl
  | true => exact rfl

theorem ensures_startNode_settings (bus : SpiBus) (residue : UInt8 × UInt8)
    (task : LoraTask) (initial : RadioState) :
    Program.Ensures (fun state => state = initial) (startNode chip bus residue task)
      (fun answer later =>
        if recognised chip initial then
          answer = (.espOk, [task]) ∧ ∃ polarity,
            PolarityRead chip initial polarity later ∧
              settings later.log =
                entered (settings initial.log) (nodeEntries residue polarity)
        else answer = (.espFail, []) ∧ OnlyRead initial later)
      (fun later => recognised chip initial = false → OnlyRead initial later) := by
  have silent : OnlyRead initial { initial with txActive := false } :=
    ⟨[], (List.append_nil _).symm, fun _ member => absurd member List.not_mem_nil⟩
  refine Program.Ensures.bind ((ensures_loRaInit bus initial).weaken (fun _ same => same)
    (fun _ _ same => same) fun later same _ => same ▸ silent) fun _ => ?_
  have begun := ensures_loRaBegin_settings chip residue 915000000 22 nodeVoltage true
    { initial with txActive := false }
  refine Program.Ensures.bind (begun.weaken (fun _ same => same) (fun _ _ same => same)
    fun later asked unknown => (asked unknown).onlyRead) fun status => ?_
  intro state answered
  change (if recognised chip initial then _ else _ : Prop) at answered
  by_cases known : recognised chip initial
  · rw [if_pos known] at answered
    obtain ⟨rfl, settled⟩ := answered
    rw [if_neg (not_not.mpr rfl)]
    refine ((ensures_loRaConfig_settings chip nodeArgs).bind fun _ => ?_).weaken
      (fun _ same => same) (fun _ _ same => same)
      (fun _ _ unknown => absurd (known.symm.trans unknown) (by decide)) state settled
    intro later configured
    obtain ⟨polarity, polarityRead, settled⟩ := configured
    rw [entered_append] at settled
    change (if recognised chip initial then _ else _ : Prop)
    rw [if_pos known]
    exact ⟨rfl, polarity, polarityRead, settled⟩
  · rw [if_neg known] at answered
    obtain ⟨rfl, sent⟩ := answered
    change (if recognised chip initial then _ else _ : Prop)
    rw [if_neg known]
    exact ⟨rfl, sent.onlyRead⟩

section Uses

variable {cmds : List UInt8}

theorem uses_writeCommand {cmd : UInt8} (data : List UInt8) (member : cmd ∈ cmds) :
    Uses cmds (writeCommand chip cmd data) :=
  (sends_writeCommand chip data member).uses fun _ same => same

theorem uses_modify {update : RadioState → RadioState}
    (sameLog : ∀ state, (update state).log = state.log) :
    Uses cmds (Program.modify update) :=
  fun state => ⟨[], (sameLog state).trans (List.append_nil _).symm,
    fun _ member => absurd member List.not_mem_nil⟩

theorem uses_get : Uses cmds (Program.get : Radio RadioState) :=
  fun _ => ⟨[], (List.append_nil _).symm, fun _ member => absurd member List.not_mem_nil⟩

theorem uses_setPacketParams (member : 0x8C ∈ cmds) : Uses cmds (setPacketParams chip) :=
  uses_get.bind fun _ => uses_writeCommand chip _ member

theorem uses_setRx (timeout : UInt32) (standby : 0x80 ∈ cmds) (receive : 0x82 ∈ cmds)
    (status : 0xC0 ∈ cmds) : Uses cmds (setRx chip timeout) :=
  (sends_setRx chip timeout standby receive status).uses fun _ same => same

theorem uses_setTx (timeoutInMs : UInt32) (standby : 0x80 ∈ cmds) (send : 0x83 ∈ cmds)
    (status : 0xC0 ∈ cmds) : Uses cmds (setTx chip timeoutInMs) :=
  (uses_writeCommand chip _ standby).bind fun _ =>
    (uses_writeCommand chip _ send).bind fun _ =>
      (sends_requireMode chip 0x60 status).uses fun _ same => same

end Uses

def configCommands : List UInt8 :=
  [0x9F, 0xA0, 0x8A, 0x8B, 0x1D, 0x0D, 0x8C, 0x08, 0x80, 0x82, 0xC0]

theorem uses_loRaConfig (args : ConfigArgs) :
    Uses configCommands (loRaConfig chip args) := by
  refine (uses_writeCommand chip _ (by decide)).bind fun _ => ?_
  refine (uses_writeCommand chip _ (by decide)).bind fun _ => ?_
  refine (uses_writeCommand chip _ (by decide)).bind fun _ => ?_
  refine (uses_writeCommand chip _ (by decide)).bind fun _ => ?_
  have stores : Uses configCommands (storeParams args.packetParams) :=
    uses_modify fun _ => rfl
  refine stores.bind fun _ => ?_
  have polarity : Sends [0x1D, 0x0D]
      (fixInvertedIQ chip (if args.invertIrq then 0x01 else 0x00)) :=
    sends_fixInvertedIQ chip _ (by decide) (by decide)
  refine (polarity.uses (by decide)).bind fun _ => ?_
  refine (uses_setPacketParams chip (by decide)).bind fun _ => ?_
  refine (uses_writeCommand chip _ (by decide)).bind fun _ => ?_
  exact uses_setRx chip _ (by decide) (by decide) (by decide)

def sendCommands : List UInt8 := [0x8C, 0x02, 0x0E, 0x80, 0x83, 0xC0, 0x12, 0x82]

theorem uses_transmit (polls : Nat) (data : List UInt8) (mode : UInt8) :
    Uses sendCommands (transmit chip polls data mode) := by
  have activates : ∀ active, Uses sendCommands (setActive active) :=
    fun _ => uses_modify fun _ => rfl
  have stores : Uses sendCommands (Program.modify fun state : RadioState =>
      { state with packetParams := sendParams state.packetParams data.length }) :=
    uses_modify fun _ => rfl
  have writes : Uses sendCommands (writeBuffer chip data) :=
    logs_transaction chip ((transfers_sendAll chip _).bind fun _ =>
      transfers_sendAll chip data) fun _ sent _ => ⟨0x0E, by decide, sent, rfl⟩
  refine (activates true).bind fun _ => stores.bind fun _ => ?_
  refine (uses_setPacketParams chip (by decide)).bind fun _ => ?_
  refine (uses_writeCommand chip _ (by decide)).bind fun _ => writes.bind fun _ => ?_
  refine (uses_setTx chip 500 (by decide) (by decide) (by decide)).bind fun _ => ?_
  split
  · have waits : Sends [0x12] (awaitTx chip polls) := sends_awaitTx chip polls (by decide)
    refine (waits.uses (by decide)).bind fun _ => (activates false).bind fun _ => ?_
    refine (uses_setRx chip _ (by decide) (by decide) (by decide)).bind fun _ => ?_
    exact Program.Grows.pure _
  · exact Program.Grows.pure true

theorem uses_loRaSend (polls : Nat) (data : List UInt8) (mode : UInt8) :
    Uses sendCommands (loRaSend chip polls data mode) := by
  have counts : Uses sendCommands countLost := uses_modify fun _ => rfl
  have ends : ∀ rv : Bool, Uses sendCommands
      (if rv then pure true
        else do
          countLost
          pure false) := by
    intro rv
    cases rv with
    | true => exact Program.Grows.pure true
    | false => exact counts.bind fun _ => Program.Grows.pure false
  refine uses_get.bind fun state => ?_
  dsimp only
  split
  · exact ends false
  · exact (uses_transmit chip polls data mode).bind ends

def receiveModeCommands : List UInt8 := [0x12, 0x80, 0x82, 0xC0]

theorem uses_receiveMode : Uses receiveModeCommands (receiveMode chip) := by
  refine uses_get.bind fun state => ?_
  split
  · have polls : Sends [0x12] (getIrqStatus chip) := sends_getIrqStatus chip (by decide)
    refine (polls.uses (by decide)).bind fun irq => ?_
    split
    · have deactivates : Uses receiveModeCommands (setActive false) :=
        uses_modify fun _ => rfl
      refine (uses_setRx chip _ (by decide) (by decide) (by decide)).bind fun _ => ?_
      exact deactivates.bind fun _ => Program.Grows.pure true
    · exact Program.Grows.pure false
  · exact Program.Grows.pure true

/-- The commands that a call can send. -/
def DriverCall.commands : DriverCall → List UInt8
  | .loRaConfig _ => configCommands
  | .loRaReceive _ => [0x12, 0x02, 0x13, 0x1E]
  | .loRaSend _ _ => sendCommands
  | .receiveMode => receiveModeCommands
  | .getPacketStatus => [0x14]
  | .getRssiInst => [0x15]
  | .wakeup => [0xC0]
  | .setTxPower _ => [0x8E]
  | .setSyncWord _ => [0x0D]
  | .setCadParams _ _ _ _ _ => [0x88]
  | .setCad => [0xC5]

theorem uses_perform (polls : Nat) (call : DriverCall) :
    Uses call.commands (call.perform chip polls) := by
  cases call with
  | loRaConfig args =>
      exact (uses_loRaConfig chip args).bind fun _ => Program.Grows.pure _
  | loRaReceive len =>
      exact ((sends_loRaReceive chip len).uses fun _ same => same).bind
        fun _ => Program.Grows.pure _
  | loRaSend frame mode =>
      exact (uses_loRaSend chip polls frame.bytes mode).bind fun _ => Program.Grows.pure _
  | receiveMode => exact (uses_receiveMode chip).bind fun _ => Program.Grows.pure _
  | getPacketStatus =>
      have reads : Sends [0x14] (readCommand chip 0x14 4) :=
        sends_readCommand chip 4 List.mem_cons_self
      exact ((reads.uses fun _ same => same).bind fun _ => Program.Grows.pure _).bind
        fun _ => Program.Grows.pure _
  | getRssiInst =>
      have reads : Sends [0x15] (readCommand chip 0x15 2) :=
        sends_readCommand chip 2 List.mem_cons_self
      exact ((reads.uses fun _ same => same).bind fun _ => Program.Grows.pure _).bind
        fun _ => Program.Grows.pure _
  | wakeup =>
      have reads : Sends [0xC0] (getStatus chip) := sends_getStatus chip List.mem_cons_self
      exact ((reads.uses fun _ same => same).bind fun _ => Program.Grows.pure _).bind
        fun _ => Program.Grows.pure _
  | setTxPower txPowerInDbm =>
      exact (uses_writeCommand chip _ List.mem_cons_self).bind
        fun _ => Program.Grows.pure _
  | setSyncWord sync =>
      have writes : Sends [0x0D] (setSyncWord chip sync) :=
        sends_writeRegister chip 0x0740 _ List.mem_cons_self
      exact (writes.uses fun _ same => same).bind fun _ => Program.Grows.pure _
  | setCadParams cadSymbolNum cadDetPeak cadDetMin cadExitMode cadTimeout =>
      exact (uses_writeCommand chip _ List.mem_cons_self).bind
        fun _ => Program.Grows.pure _
  | setCad =>
      exact (uses_writeCommand chip _ List.mem_cons_self).bind
        fun _ => Program.Grows.pure _

/-- In a run whose calls do not use a command, its setting is what it was. -/
theorem settings_of_reaches {polls : Nat} {radio : RadioState} {cmd : UInt8}
    {history : List DriverEvent} {state : DriverState}
    (reached : (driver chip polls).Reaches ⟨radio, false⟩ history state)
    (other : ∀ event ∈ history, cmd ∉ event.call.commands) (rest : List UInt8) :
    settings state.radio.log (cmd :: rest) = settings radio.log (cmd :: rest) := by
  refine reached.invariantOfEvents (fun event => cmd ∉ event.call.commands)
    (fun _ state => settings state.radio.log (cmd :: rest) =
      settings radio.log (cmd :: rest)) rfl ?_ other
  intro history state call next events _ before taken admissible
  simp only [driver] at taken
  split at taken
  · cases taken
  · obtain ⟨rfl, rfl⟩ := Prod.mk.inj (Option.some.inj taken)
    have notUsed := admissible _ List.mem_cons_self
    exact ((uses_perform chip polls call).settings_eq notUsed rest state.radio).trans before

end Commands

/-- The calls that neither task makes: they set something of the link. -/
def DriverCall.sets : DriverCall → Bool
  | .loRaConfig _ | .setTxPower _ | .setSyncWord _ | .setCadParams _ _ _ _ _
  | .setCad => true
  | _ => false

/-- What a node transmits and receives with, but for the length of a packet. -/
def linkEntries : List (List UInt8 × List UInt8) :=
  [([0x9D], [0x01]), ([0x97], [0x07, 0x00, 0x01, 0x40]), ([0x89], [0x7F]),
    ([0x96], [0x00]), ([0x8F], [0x00, 0x00]), ([0x95], [0x04, 0x07, 0x00, 0x01]),
    ([0x0D, 0x08, 0xE7], [24]), ([0x8E], [22, 0x04]), ([0x98], [0xE1, 0xE9]),
    ([0x86], [0x39, 0x30, 0x00, 0x00]), ([0x9F], [0x00]), ([0xA0], [0x00]),
    ([0x8A], [0x01]), ([0x8B], [7, 4, 1, 0]),
    ([0x08], [0x03, 0xFF, 0x00, 0x00, 0x00, 0x00, 0x00, 0x00])]

theorem nodeEntries_eq (residue : UInt8 × UInt8) (polarity : UInt8) :
    nodeEntries residue polarity =
      [([0x80], [0x00]), ([0x9D], [0x01]), ([0x97], [0x07, 0x00, 0x01, 0x40]),
        ([0x89], [0x7F]), ([0x96], [0x00]), ([0x8F], [0x00, 0x00]),
        ([0x95], [0x04, 0x07, 0x00, 0x01]), ([0x0D, 0x08, 0xE7], [24]),
        ([0x8E], [22, 0x04]), ([0x98], [0xE1, 0xE9]), ([0x86], [0x39, 0x30, 0x00, 0x00]),
        ([0x9F], [0x00]), ([0xA0], [0x00]), ([0x8A], [0x01]), ([0x8B], [7, 4, 1, 0]),
        ([0x0D, 0x07, 0x36], [polarity ||| 0x04]), ([0x8C], [0, 8, 0, 0xFF, 1, 0]),
        ([0x08], [0x03, 0xFF, 0x00, 0x00, 0x00, 0x00, 0x00, 0x00]), ([0x80], [0x00]),
        ([0x82], [0xFF, 0xFF, 0xFF])] := by
  have supplied : supplyEntries nodeVoltage =
      [([0x80], [0x00]), ([0x9D], [0x01]), ([0x97], [0x07, 0x00, 0x01, 0x40])] := by
    decide +kernel
  rw [nodeEntries, supplied]
  rfl

theorem entered_linkEntries (known : List UInt8 → Option (List UInt8))
    (residue : UInt8 × UInt8) (polarity : UInt8) {entry : List UInt8 × List UInt8}
    (member : entry ∈ linkEntries) :
    entered known (nodeEntries residue polarity) entry.1 = some entry.2 := by
  rw [nodeEntries_eq]
  simp only [linkEntries, List.mem_cons, List.not_mem_nil, or_false] at member
  rcases member with rfl | rfl | rfl | rfl | rfl | rfl | rfl | rfl | rfl | rfl | rfl | rfl |
    rfl | rfl | rfl <;> rfl

/-- The commands of the calls that set nothing of the link. -/
def linkless : List UInt8 :=
  [0x12, 0x02, 0x13, 0x1E, 0x8C, 0x0E, 0x80, 0x83, 0xC0, 0x82, 0x14, 0x15]

theorem DriverCall.commands_linkless {call : DriverCall} (task : call.sets = false) :
    call.commands ⊆ linkless := by
  cases call with
  | loRaReceive len => exact of_decide_eq_true rfl
  | loRaSend frame mode => exact of_decide_eq_true rfl
  | receiveMode | getPacketStatus | getRssiInst | wakeup => decide
  | loRaConfig args => exact nomatch task
  | setTxPower txPowerInDbm => exact nomatch task
  | setSyncWord sync => exact nomatch task
  | setCadParams cadSymbolNum cadDetPeak cadDetMin cadExitMode cadTimeout =>
      exact nomatch task
  | setCad => exact nomatch task

theorem linkEntries_key {entry : List UInt8 × List UInt8} (member : entry ∈ linkEntries) :
    ∃ cmd ∉ linkless, ∃ rest, entry.1 = cmd :: rest := by
  have all : ∀ entry ∈ linkEntries, ∃ cmd ∈ entry.1.head?, cmd ∉ linkless := by decide
  obtain ⟨cmd, isHead, other⟩ := all entry member
  exact ⟨cmd, other, entry.1.tail, (List.cons_head?_tail isHead).symm⟩

/-- Whatever the tasks of a node have its driver do after it has started, whether
the calls return or not, the node transmits and receives with the same settings. -/
theorem link_of_reaches {chip : Chip} {bus : SpiBus} {residue : UInt8 × UInt8}
    {task : LoraTask} {initial radio : RadioState} {tasks : List LoraTask} {polls : Nat}
    {history : List DriverEvent} {state : DriverState}
    (started : startNode chip bus residue task initial = (some (.espOk, tasks), radio))
    (reached : (driver chip polls).Reaches ⟨radio, false⟩ history state)
    (tasksOnly : ∀ event ∈ history, event.call.sets = false) :
    (∀ entry ∈ linkEntries, settings state.radio.log entry.1 = some entry.2) ∧
      ∃ polarity : UInt8,
        settings state.radio.log [0x0D, 0x07, 0x36] = some [polarity ||| 0x04] := by
  have outcome := ensures_startNode_settings chip bus residue task initial initial rfl
  rw [started] at outcome
  change (if recognised chip initial then _ else _ : Prop) at outcome
  by_cases known : recognised chip initial
  · rw [if_pos known] at outcome
    obtain ⟨_, polarity, _, settled⟩ := outcome
    have kept : ∀ cmd ∉ linkless, ∀ rest, settings state.radio.log (cmd :: rest) =
        entered (settings initial.log) (nodeEntries residue polarity) (cmd :: rest) := by
      intro cmd other rest
      rw [settings_of_reaches chip reached (fun event member used =>
        other (DriverCall.commands_linkless (tasksOnly event member) used)) rest]
      exact congrFun settled _
    refine ⟨fun entry member => ?_, polarity, ?_⟩
    · obtain ⟨cmd, other, rest, key⟩ := linkEntries_key member
      rw [key, kept cmd other rest, ← key]
      exact entered_linkEntries _ residue polarity member
    · rw [kept 0x0D (by decide), nodeEntries_eq]
      rfl
  · rw [if_neg known] at outcome
    cases outcome.1

/-- A chip that is recognised and answers with `RX_DONE` and `TX_DONE` set.  A frame
that is read right after the start is a request of 33 bytes, and the chip is in
transmit mode for some exchanges. -/
def scriptedChip (sending : Nat) : Chip where
  reply _ exchange :=
    if exchange = 4 then 0x34 else if exchange = 5 then 0x44
    else if exchange = 97 then 33 else if exchange = 102 then 0x01
    else if sending ≤ exchange ∧ exchange < sending + 4 then 0x63 else 0x53
  idles _ := true

theorem scriptedChip_answersWell (sending : Nat) :
    Chip.AnswersWell (scriptedChip sending) := by
  intro operands exchange
  simp only [scriptedChip]
  split_ifs <;> decide

def startedNode (sending : Nat) (task : LoraTask) : RadioState :=
  (startNode (scriptedChip sending) ⟨true, true⟩ (0, 0) task
    (initialized (List.Vector.replicate 6 0) 0)).2

theorem startedNode_started {sending : Nat} {task : LoraTask}
    (answered : (startNode (scriptedChip sending) ⟨true, true⟩ (0, 0) task
      (initialized (List.Vector.replicate 6 0) 0)).1 = some (.espOk, [task])) :
    startNode (scriptedChip sending) ⟨true, true⟩ (0, 0) task
      (initialized (List.Vector.replicate 6 0) 0) =
        (some (.espOk, [task]), startedNode sending task) := by
  rw [startedNode, ← answered]

/-- A frame is sent, one is received, and the third call does not return. -/
def scriptedCalls : List DriverCall :=
  [.loRaSend ⟨[1, 2, 3], by decide⟩ 2, .loRaReceive 15, .loRaSend ⟨[4], by decide⟩ 2]

theorem link_of_reaches_scripted :
    let radio := startedNode 109 .loraTxTask
    ∃ state, (driver (scriptedChip 109) 3).Reaches ⟨radio, false⟩
        ((driver (scriptedChip 109) 3).history ⟨radio, false⟩ scriptedCalls) state ∧
      ∀ entry ∈ linkEntries, settings state.radio.log entry.1 = some entry.2 := by
  obtain ⟨state, reached⟩ := Machine.exists_reaches
    (show ((driver (scriptedChip 109) 3).run ⟨startedNode 109 .loraTxTask, false⟩
      scriptedCalls).isSome = true by decide +kernel)
  refine ⟨state, reached, (link_of_reaches (startedNode_started ?_) reached ?_).1⟩
  · decide +kernel
  · decide +kernel

end Radio

end Lora32Mqtt
