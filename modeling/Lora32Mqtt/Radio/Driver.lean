import Lora32Mqtt.Base.Simulation
import Lora32Mqtt.Radio.OnAir

/-!
# The driver as a transmitter

Any sequence of calls of the driver, each with what it answers, is a run of a
simple transmitter: it takes one frame at a time, is busy after an asynchronous one
until `ReceiveMode` says that this is over, refuses frames while it is busy and
counts those that were not sent.  What the transmitter has taken is what went on the
air; of a payload of more than 255 bytes a frame carries the end.
-/

namespace Lora32Mqtt

namespace Radio

/-- What `LoRaSend` is handed; `len` is an `int16_t` that is not negative. -/
structure Payload where
  bytes : List UInt8
  short : bytes.length < 2 ^ 15
  deriving DecidableEq

inductive DriverCall where
  | loRaConfig (args : ConfigArgs)
  | loRaReceive (len : Int)
  | loRaSend (data : Payload) (mode : UInt8)
  | receiveMode
  | getPacketStatus
  | getRssiInst
  | wakeup
  | setTxPower (txPowerInDbm : Int8)
  | setSyncWord (sync : UInt16)
  | setCadParams (cadSymbolNum cadDetPeak cadDetMin cadExitMode : UInt8)
      (cadTimeout : UInt32)
  | setCad

def DriverCall.frame : DriverCall → Option (List UInt8)
  | .loRaSend data _ => some data.bytes
  | _ => none

inductive Answer where
  | done
  | flag (rv : Bool)
  | received (bytes : List UInt8)
  | packetStatus (rssi snr : Int)
  | rssi (value : UInt8)
  deriving DecidableEq

def DriverCall.perform (chip : Chip) (polls : Nat) : DriverCall → Radio Answer
  | .loRaConfig args => do
      Radio.loRaConfig chip args
      pure .done
  | .loRaReceive len => do
      let bytes ← Radio.loRaReceive chip len
      pure (.received bytes)
  | .loRaSend data mode => do
      let rv ← Radio.loRaSend chip polls data.bytes mode
      pure (.flag rv)
  | .receiveMode => do
      let rv ← Radio.receiveMode chip
      pure (.flag rv)
  | .getPacketStatus => do
      let status ← Radio.getPacketStatus chip
      pure (.packetStatus status.1 status.2)
  | .getRssiInst => do
      let value ← Radio.getRssiInst chip
      pure (.rssi value)
  | .wakeup => do
      Radio.wakeup chip
      pure .done
  | .setTxPower txPowerInDbm => do
      Radio.setTxPower chip txPowerInDbm
      pure .done
  | .setSyncWord sync => do
      Radio.setSyncWord chip sync
      pure .done
  | .setCadParams cadSymbolNum cadDetPeak cadDetMin cadExitMode cadTimeout => do
      Radio.setCadParams chip cadSymbolNum cadDetPeak cadDetMin cadExitMode cadTimeout
      pure .done
  | .setCad => do
      Radio.setCad chip
      pure .done

structure DriverEvent where
  call : DriverCall
  answer : Option Answer

/-- Nothing is called after a call that does not return. -/
structure DriverState where
  radio : RadioState
  stuck : Bool

def driver (chip : Chip) (polls : Nat) : Machine DriverState DriverCall DriverEvent where
  step state call :=
    if state.stuck then none
    else
      let outcome := call.perform chip polls state.radio
      some (⟨outcome.2, outcome.1.isNone⟩, [⟨call, outcome.1⟩])

structure Ledger where
  /-- A transmission may be going on. -/
  active : Bool
  /-- The frames that were refused or not sent in time. -/
  lost : Int32
  /-- The frames taken, in order. -/
  frames : List (List UInt8)
  /-- A call has not returned, and the frame it was to send, if any. -/
  stopped : Option (Option (List UInt8))

/-- What the transmitter makes of a call with its answer, if it is one of its
answers. -/
def Ledger.take (ledger : Ledger) (event : DriverEvent) : Option Ledger :=
  match event.call, event.answer with
  | .loRaSend data mode, some (.flag rv) =>
      if ledger.active then
        if rv then none else some { ledger with lost := ledger.lost + 1 }
      else if mode &&& 0x02 = 0 then
        if rv then
          some { ledger with
            active := true
            frames := ledger.frames ++ [carried data.bytes] }
        else none
      else
        some { ledger with
          frames := ledger.frames ++ [carried data.bytes]
          lost := if rv then ledger.lost else ledger.lost + 1 }
  | .loRaSend data _, none =>
      if ledger.active then none
      else some { ledger with stopped := some (some (carried data.bytes)) }
  | .receiveMode, some (.flag rv) =>
      if ledger.active then some { ledger with active := !rv }
      else if rv then some ledger
      else none
  | .receiveMode, none =>
      if ledger.active then some { ledger with stopped := some none } else none
  | .loRaSend _ _, some _ | .receiveMode, some _ => none
  | _, some _ => some ledger
  | _, none => some { ledger with stopped := some none }

def transmitter : Machine Ledger DriverEvent DriverEvent where
  step ledger event :=
    if ledger.stopped.isSome then none
    else (ledger.take event).map fun next => (next, [event])

/-- Each frame taken is on the air, with up to `most` copies in a row, and of a frame
whose call did not return up to as many. -/
def Agrees (start : Emitter) (most : Nat) (state : DriverState) (ledger : Ledger) :
    Prop :=
  ∃ copies, Repeated most ledger.frames copies ∧
    match ledger.stopped with
    | none => state.stuck = false ∧ ∃ params,
        Airs start copies params ledger.active ledger.lost (fun _ => True) state.radio
    | some none => state.stuck = true ∧ Aired start copies state.radio
    | some (some data) => state.stuck = true ∧ AddsUpTo start copies most data state.radio

section Calls

variable (chip : Chip) (polls : Nat) {start : Emitter} {most : Nat}
  {copies : List (List UInt8)} {params : CArray 6} {active : Bool} {lost : Int32}

theorem ensures_loRaConfig_air (args : ConfigArgs) :
    Program.Ensures (Airs start copies params active lost fun _ => True)
      (loRaConfig chip args)
      (fun _ => Airs start copies args.packetParams active lost fun _ => True)
      (Aired start copies) := by
  have writes : ∀ {params : CArray 6} {cmd : UInt8} (data : List UInt8),
      cmd ∉ Emitter.heeds →
      Program.Ensures (Airs start copies params active lost fun _ => True)
        (writeCommand chip cmd data)
        (fun _ => Airs start copies params active lost fun _ => True)
        (Aired start copies) := by
    intro params cmd data other
    have sends : Sends [cmd] (writeCommand chip cmd data) :=
      sends_writeCommand chip data List.mem_cons_self
    exact ensures_unheeded sends fun one member => List.mem_singleton.mp member ▸ other
  refine (writes _ (by decide)).bind fun _ => ?_
  refine (writes _ (by decide)).bind fun _ => ?_
  refine (writes _ (by decide)).bind fun _ => ?_
  refine (writes _ (by decide)).bind fun _ => ?_
  refine Program.Ensures.bind (Program.Ensures.modify
    (fun _ => Airs start copies args.packetParams active lost fun _ => True) ?_)
    fun _ => ?_
  · exact fun state airs =>
      ⟨rfl, airs.txActive, airs.txLost, airs.txBase, airs.emitted, trivial⟩
  have polarity : Sends [0x1D, 0x0D]
      (fixInvertedIQ chip (if args.invertIrq then 0x01 else 0x00)) :=
    sends_fixInvertedIQ chip _ (by decide) (by decide)
  refine (ensures_unheeded polarity (by decide)).bind fun _ => ?_
  have loads : Program.Ensures
      (Airs start copies args.packetParams active lost fun _ => True)
      (setPacketParams chip)
      (fun _ => Airs start copies args.packetParams active lost fun _ => True)
      (Aired start copies) :=
    (ensures_setPacketParams_air chip).weaken (fun _ same => same)
      (fun _ _ airs => ⟨airs.packetParams, airs.txActive, airs.txLost, airs.txBase,
        airs.emitted, trivial⟩) fun _ aired => aired
  refine loads.bind fun _ => ?_
  refine (writes _ (by decide)).bind fun _ => ?_
  have receiving : Sends [0x80, 0x82, 0xC0] (setRx chip 0xFFFFFF) :=
    sends_setRx chip _ (by decide) (by decide) (by decide)
  exact ensures_unheeded receiving (by decide)

variable {chip} in
/-- A busy transmitter refuses the frame; a free one takes it. -/
theorem ensures_loRaSend_air (within : Chip.Within chip most) (data : List UInt8)
    (mode : UInt8) :
    Program.Ensures (Airs start copies params active lost fun _ => True)
      (loRaSend chip polls data mode)
      (fun rv state =>
        if active then
          rv = false ∧
            Airs start copies params active (lost + 1) (fun _ => True) state
        else (mode &&& 0x02 = 0 → rv = true) ∧
          ∃ count, (1 ≤ count ∧ count ≤ most) ∧
            Airs start (copies ++ List.replicate count (carried data))
              (sendParams params data.length) (decide (mode &&& 0x02 = 0))
              (if rv then lost else lost + 1) (fun _ => True) state)
      (fun state => active = false ∧
        AddsUpTo start copies most (carried data) state) := by
  refine Program.Ensures.bind (Program.Ensures.get (fun seen state =>
    seen.txActive = active ∧
      Airs start copies params active lost (fun _ => True) state) ?_) fun seen => ?_
  · exact fun state airs => ⟨airs.txActive, airs⟩
  intro state before
  obtain ⟨same, airs⟩ := before
  rw [same]
  cases active with
  | true =>
      exact ⟨rfl, airs.packetParams, airs.txActive, congrArg (· + 1) airs.txLost,
        airs.txBase, airs.emitted, trivial⟩
  | false =>
      have sent : Program.Ensures (Airs start copies params false lost fun _ => True)
          (transmit chip polls data mode)
          (fun rv state => (mode &&& 0x02 = 0 → rv = true) ∧
            ∃ count, (1 ≤ count ∧ count ≤ most) ∧
              Airs start (copies ++ List.replicate count (carried data))
                (sendParams params data.length) (decide (mode &&& 0x02 = 0)) lost
                (fun _ => True) state)
          (fun state => false = false ∧
            AddsUpTo start copies most (carried data) state) :=
        (ensures_transmit_air within polls data mode).weaken (fun _ same => same)
          (fun _ _ same => same) fun _ adds => ⟨rfl, adds⟩
      refine (sent.bind fun rv => ?_) state airs
      cases rv with
      | true => exact Program.Ensures.pure fun _ taken => taken
      | false =>
          intro state taken
          obtain ⟨synchronous, count, bounds, airs⟩ := taken
          exact ⟨synchronous, count, bounds, airs.packetParams, airs.txActive,
            congrArg (· + 1) airs.txLost, airs.txBase, airs.emitted, trivial⟩

theorem ensures_receiveMode_air :
    Program.Ensures (Airs start copies params active lost fun _ => True)
      (receiveMode chip)
      (fun rv state => (active = false → rv = true) ∧
        Airs start copies params (active && !rv) lost (fun _ => True) state)
      (fun state => active = true ∧ Aired start copies state) := by
  refine Program.Ensures.bind (Program.Ensures.get (fun seen state =>
    seen.txActive = active ∧
      Airs start copies params active lost (fun _ => True) state) ?_) fun seen => ?_
  · exact fun state airs => ⟨airs.txActive, airs⟩
  intro state before
  obtain ⟨same, airs⟩ := before
  rw [same]
  cases active with
  | false => exact ⟨fun _ => rfl, airs⟩
  | true =>
      have polling : Sends [0x12] (getIrqStatus chip) :=
        sends_getIrqStatus chip (by decide)
      have receiving : Sends [0x80, 0x82, 0xC0] (setRx chip 0xFFFFFF) :=
        sends_setRx chip _ (by decide) (by decide) (by decide)
      have awake : ∀ state, Aired start copies state →
          true = true ∧ Aired start copies state := fun _ aired => ⟨rfl, aired⟩
      refine (((ensures_unheeded polling (by decide)).weaken (fun _ same => same)
        (fun _ _ same => same) awake).bind fun irq => ?_) state airs
      split
      · refine ((ensures_unheeded receiving (by decide)).weaken (fun _ same => same)
          (fun _ _ same => same) awake).bind fun _ => ?_
        intro state airs
        exact ⟨nofun, airs.packetParams, rfl, airs.txLost, airs.txBase, airs.emitted,
          trivial⟩
      · exact fun state airs => ⟨nofun, airs⟩

/-- The agreement of a transmitter that has not stopped. -/
def Running (start : Emitter) (most : Nat) (ledger : Ledger) (state : RadioState) :
    Prop :=
  ∃ copies, Repeated most ledger.frames copies ∧ ∃ params,
    Airs start copies params ledger.active ledger.lost (fun _ => True) state

/-- The agreement after a call with its answer. -/
def Takes (start : Emitter) (most : Nat) (ledger : Ledger) (call : DriverCall)
    (answer : Option Answer) (state : RadioState) : Prop :=
  ∃ next, ledger.take ⟨call, answer⟩ = some next ∧
    Agrees start most ⟨state, answer.isNone⟩ next

variable {ledger : Ledger}

theorem Running.takes {call : DriverCall} {answer : Answer} (next : Ledger)
    {state : RadioState} (taken : ledger.take ⟨call, some answer⟩ = some next)
    (going : next.stopped = none) (running : Running start most next state) :
    Takes start most ledger call (some answer) state := by
  obtain ⟨copies, repeated, params, airs⟩ := running
  refine ⟨next, taken, copies, repeated, ?_⟩
  rw [going]
  exact ⟨rfl, params, airs⟩

theorem takes_answer {Result : Type} {cmds : List UInt8} {program : Radio Result}
    {call : DriverCall} (going : ledger.stopped = none) (sends : Sends cmds program)
    (other : Emitter.Unheeded cmds) (answer : Result → Answer)
    (taken : ∀ result, ledger.take ⟨call, some (answer result)⟩ = some ledger)
    (stopped : ledger.take ⟨call, none⟩ = some { ledger with stopped := some none }) :
    Program.Ensures (Running start most ledger)
      (do
        let result ← program
        pure (answer result))
      (fun given => Takes start most ledger call (some given))
      (Takes start most ledger call none) := by
  intro state running
  obtain ⟨copies, repeated, params, airs⟩ := running
  refine ((ensures_unheeded sends other).weaken (fun _ same => same)
    (fun _ _ same => same) ?_).bind (fun result => ?_) state airs
  · exact fun state aired => ⟨_, stopped, copies, repeated, rfl, aired⟩
  · refine Program.Ensures.pure fun state airs => ?_
    exact Running.takes ledger (taken result) going ⟨copies, repeated, params, airs⟩

theorem takes_loRaConfig (going : ledger.stopped = none) (args : ConfigArgs) :
    Program.Ensures (Running start most ledger)
      ((DriverCall.loRaConfig args).perform chip polls)
      (fun given => Takes start most ledger (.loRaConfig args) (some given))
      (Takes start most ledger (.loRaConfig args) none) := by
  intro state running
  obtain ⟨copies, repeated, params, airs⟩ := running
  refine ((ensures_loRaConfig_air chip args).weaken (fun _ same => same)
    (fun _ _ same => same) ?_).bind (fun result => ?_) state airs
  · exact fun state aired => ⟨_, rfl, copies, repeated, rfl, aired⟩
  · refine Program.Ensures.pure fun state airs => ?_
    exact Running.takes ledger rfl going ⟨copies, repeated, _, airs⟩

theorem takes_loRaSend (within : Chip.Within chip most) (going : ledger.stopped = none)
    (data : Payload) (mode : UInt8) :
    Program.Ensures (Running start most ledger)
      ((DriverCall.loRaSend data mode).perform chip polls)
      (fun given => Takes start most ledger (.loRaSend data mode) (some given))
      (Takes start most ledger (.loRaSend data mode) none) := by
  intro state running
  obtain ⟨copies, repeated, params, airs⟩ := running
  refine ((ensures_loRaSend_air polls within data.bytes mode).weaken (fun _ same => same)
    (fun _ _ same => same) ?_).bind (fun rv => ?_) state airs
  · intro state unsent
    obtain ⟨free, adds⟩ := unsent
    refine ⟨{ ledger with stopped := some (some (carried data.bytes)) }, ?_, copies,
      repeated, rfl, adds⟩
    simp only [Ledger.take, free, Bool.false_eq_true, if_false]
  · refine Program.Ensures.pure fun state sent => ?_
    cases active : ledger.active with
    | true =>
        rw [active, if_pos rfl] at sent
        obtain ⟨rfl, airs⟩ := sent
        refine Running.takes { ledger with lost := ledger.lost + 1 } ?_ going
          ⟨copies, repeated, params, ?_⟩
        · simp only [Ledger.take, active, if_true, Bool.false_eq_true, if_false]
        · rw [active]
          exact airs
    | false =>
        rw [active, if_neg (by decide)] at sent
        obtain ⟨synchronous, count, bounds, airs⟩ := sent
        have longer :=
          repeated.append (.singleton (carried data.bytes) bounds.1 bounds.2)
        by_cases asynchronous : mode &&& 0x02 = 0
        · obtain rfl := synchronous asynchronous
          rw [decide_eq_true asynchronous] at airs
          refine Running.takes
            { ledger with
              active := true
              frames := ledger.frames ++ [carried data.bytes] }
            ?_ going ⟨_, longer, _, airs⟩
          simp only [Ledger.take, active, asynchronous, if_true, Bool.false_eq_true,
            if_false]
        · rw [decide_eq_false asynchronous] at airs
          refine Running.takes
            { ledger with
              frames := ledger.frames ++ [carried data.bytes]
              lost := if rv then ledger.lost else ledger.lost + 1 }
            ?_ going ⟨_, longer, _, active ▸ airs⟩
          simp only [Ledger.take, active, asynchronous, if_false, Bool.false_eq_true]

theorem takes_receiveMode (going : ledger.stopped = none) :
    Program.Ensures (Running start most ledger)
      (DriverCall.receiveMode.perform chip polls)
      (fun given => Takes start most ledger .receiveMode (some given))
      (Takes start most ledger .receiveMode none) := by
  intro state running
  obtain ⟨copies, repeated, params, airs⟩ := running
  refine ((ensures_receiveMode_air chip).weaken (fun _ same => same)
    (fun _ _ same => same) ?_).bind (fun rv => ?_) state airs
  · intro state waiting
    obtain ⟨busy, aired⟩ := waiting
    refine ⟨{ ledger with stopped := some none }, ?_, copies, repeated, rfl, aired⟩
    simp only [Ledger.take, busy, if_true]
  · refine Program.Ensures.pure fun state ended => ?_
    obtain ⟨free, airs⟩ := ended
    cases active : ledger.active with
    | true =>
        rw [active, Bool.true_and] at airs
        refine Running.takes { ledger with active := !rv } ?_ going
          ⟨copies, repeated, params, airs⟩
        simp only [Ledger.take, active, if_true]
    | false =>
        obtain rfl := free active
        rw [active, Bool.false_and] at airs
        refine Running.takes ledger ?_ going ⟨copies, repeated, params, active ▸ airs⟩
        simp only [Ledger.take, active, Bool.false_eq_true, if_false, if_true]

theorem takes_perform (within : Chip.Within chip most) (going : ledger.stopped = none)
    (call : DriverCall) :
    Program.Ensures (Running start most ledger) (call.perform chip polls)
      (fun given => Takes start most ledger call (some given))
      (Takes start most ledger call none) := by
  have writes : ∀ (cmd : UInt8) (data : List UInt8),
      Sends [cmd] (writeCommand chip cmd data) :=
    fun cmd data => sends_writeCommand chip data List.mem_cons_self
  have reads : ∀ (cmd : UInt8) (count : Nat), Sends [cmd] (readCommand chip cmd count) :=
    fun cmd count => sends_readCommand chip count List.mem_cons_self
  have registers : ∀ (reg : UInt16) (data : List UInt8),
      Sends [0x0D] (writeRegister chip reg data) :=
    fun reg data => sends_writeRegister chip reg data List.mem_cons_self
  cases call with
  | loRaConfig args => exact takes_loRaConfig chip polls going args
  | loRaReceive len =>
      exact takes_answer going (sends_loRaReceive chip len) (by decide) Answer.received
        (fun _ => rfl) rfl
  | loRaSend data mode => exact takes_loRaSend chip polls within going data mode
  | receiveMode => exact takes_receiveMode chip polls going
  | getPacketStatus =>
      have status : Sends [0x14] (getPacketStatus chip) :=
        (reads 0x14 4).bind fun _ => Program.Grows.pure _
      exact takes_answer going status (by decide)
        (fun status => Answer.packetStatus status.1 status.2) (fun _ => rfl) rfl
  | getRssiInst =>
      have rssi : Sends [0x15] (getRssiInst chip) :=
        (reads 0x15 2).bind fun _ => Program.Grows.pure _
      exact takes_answer going rssi (by decide) Answer.rssi (fun _ => rfl) rfl
  | wakeup =>
      have waking : Sends [0xC0] (wakeup chip) :=
        (sends_getStatus chip (by decide)).bind fun _ => Program.Grows.pure _
      exact takes_answer going waking (by decide) (fun _ => Answer.done) (fun _ => rfl)
        rfl
  | setTxPower txPowerInDbm =>
      exact takes_answer going (writes 0x8E _) (by decide) (fun _ => Answer.done)
        (fun _ => rfl) rfl
  | setSyncWord sync =>
      exact takes_answer going (registers _ _) (by decide) (fun _ => Answer.done)
        (fun _ => rfl) rfl
  | setCadParams cadSymbolNum cadDetPeak cadDetMin cadExitMode cadTimeout =>
      exact takes_answer going (writes 0x88 _) (by decide) (fun _ => Answer.done)
        (fun _ => rfl) rfl
  | setCad =>
      exact takes_answer going (writes 0xC5 _) (by decide) (fun _ => Answer.done)
        (fun _ => rfl) rfl

end Calls

section Runs

variable {chip : Chip} {polls : Nat} {start : Emitter}

/-- The agreement, for every bound on the attempts that the chip keeps to. -/
def Related (chip : Chip) (start : Emitter) (state : DriverState) (ledger : Ledger) :
    Prop :=
  ∀ most, Chip.Within chip most → Agrees start most state ledger

theorem Agrees.running {most : Nat} {state : DriverState} {ledger : Ledger}
    (agrees : Agrees start most state ledger) (going : state.stuck = false) :
    ledger.stopped = none ∧ Running start most ledger state.radio := by
  obtain ⟨copies, repeated, rest⟩ := agrees
  cases stopped : ledger.stopped with
  | none =>
      rw [stopped] at rest
      exact ⟨rfl, copies, repeated, rest.2⟩
  | some frame =>
      rw [stopped] at rest
      cases frame with
      | none => exact absurd (going.symm.trans rest.1) (by decide)
      | some data => exact absurd (going.symm.trans rest.1) (by decide)

theorem takes_outcome {most : Nat} (within : Chip.Within chip most) {ledger : Ledger}
    (going : ledger.stopped = none) {radio : RadioState}
    (running : Running start most ledger radio) (call : DriverCall) :
    Takes start most ledger call (call.perform chip polls radio).1
      (call.perform chip polls radio).2 := by
  have taken := takes_perform chip polls within going call radio running
  cases outcome : call.perform chip polls radio with
  | mk answer later =>
      rw [outcome] at taken
      cases answer with
      | none => exact taken
      | some given => exact taken

theorem transmitter_simulates (chip : Chip) (polls : Nat) (start : Emitter) :
    Machine.Simulates transmitter (driver chip polls) (Related chip start)
      fun event => [event] := by
  intro state ledger call next events related taken
  have going : state.stuck = false := by
    by_contra stuck
    rw [Bool.not_eq_false] at stuck
    simp only [driver, stuck, if_true] at taken
    cases taken
  simp only [driver, going, Bool.false_eq_true, if_false] at taken
  obtain ⟨rfl, rfl⟩ := Prod.mk.inj (Option.some.inj taken)
  have outcome : ∀ most, Chip.Within chip most →
      Takes start most ledger call (call.perform chip polls state.radio).1
        (call.perform chip polls state.radio).2 := by
    intro most within
    obtain ⟨notStopped, running⟩ := (related most within).running going
    exact takes_outcome within notStopped running call
  obtain ⟨later, accepted, _⟩ := outcome 9 (within_nine chip)
  refine ⟨later, ?_, fun most within => ?_⟩
  · have notStopped := ((related 9 (within_nine chip)).running going).1
    have step : transmitter.step ledger
        ⟨call, (call.perform chip polls state.radio).1⟩ =
          some (later, [⟨call, (call.perform chip polls state.radio).1⟩]) := by
      simp only [transmitter, notStopped, Option.isSome_none, Bool.false_eq_true,
        if_false, accepted, Option.map_some]
    simpa using Machine.Reaches.step .refl step
  · obtain ⟨same, acceptedAgain, agrees⟩ := outcome most within
    obtain rfl := Option.some.inj (accepted.symm.trans acceptedAgain)
    exact agrees

/-- Every run of the driver is a run of the transmitter, and what this has taken is
on the air. -/
theorem driver_refines {params : CArray 6} {lost : Int32} {radio : RadioState}
    {history : List DriverEvent} {state : DriverState}
    (ready : Airs start [] params false lost (fun _ => True) radio)
    (reached : (driver chip polls).Reaches ⟨radio, false⟩ history state) :
    ∃ ledger, transmitter.Reaches ⟨false, lost, [], none⟩ history ledger ∧
      Related chip start state ledger := by
  have fresh : Related chip start ⟨radio, false⟩ ⟨false, lost, [], none⟩ :=
    fun most _ => ⟨[], .nil, rfl, params, ready⟩
  obtain ⟨ledger, run, related⟩ :=
    (transmitter_simulates chip polls start).reaches fresh reached
  rw [List.flatMap_singleton'] at run
  exact ⟨ledger, run, related⟩

end Runs

end Radio

end Lora32Mqtt
