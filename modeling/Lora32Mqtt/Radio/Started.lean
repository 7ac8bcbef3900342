import Lora32Mqtt.Radio.Settings

/-!
# A started node as a transmitter

Whatever was in the chip at power-on, a node that has started is a transmitter with
nothing on the air.  From then on its driver takes one frame at a time and counts
those that were not sent.
-/

namespace Lora32Mqtt

namespace Radio

section Starting

variable (chip : Chip) {start : Emitter} {params : CArray 6} {lost : Int32}

/-- The transmitter is free and has sent nothing; its base address is not known. -/
structure Idle (start : Emitter) (params : CArray 6) (lost : Int32) (state : RadioState) :
    Prop where
  packetParams : state.packetParams = params
  txActive : state.txActive = false
  txLost : state.txLost = lost
  emitted : (start.after state.log).emitted = []

theorem Sent.idle {cmds : List UInt8} {state later : RadioState}
    (sent : Sent cmds state later) (other : Emitter.Unheeded cmds)
    (idle : Idle start params lost state) : Idle start params lost later :=
  ⟨sent.packetParams.trans idle.packetParams, sent.txActive.trans idle.txActive,
    sent.txLost.trans idle.txLost, by rw [sent.after_eq other, idle.emitted]⟩

theorem ensures_unheeded_idle {Result : Type} {cmds : List UInt8} {program : Radio Result}
    (sends : Sends cmds program) (other : Emitter.Unheeded cmds) :
    Program.Ensures (Idle start params lost) program (fun _ => Idle start params lost)
      Whatever :=
  (sends.ensures fun _ _ sent idle => sent.idle other idle).weaken (fun _ same => same)
    (fun _ _ same => same) fun _ _ => trivial

/-- From here on the base address is 0. -/
theorem ensures_setBufferBaseAddress_air :
    Program.Ensures (Idle start params lost) (setBufferBaseAddress chip 0 0)
      (fun _ => Airs start [] params false lost fun _ => True) Whatever := by
  intro state idle
  have quiet : Sent [0x8F] state (setBufferBaseAddress chip 0 0 state).2 :=
    sends_writeCommand chip _ List.mem_cons_self state
  obtain ⟨sent, sentEq, attempts, acknowledged⟩ :=
    writeCommand_attempted chip 0x8F [0, 0] state
  have partly : ∀ (other : Emitter) operands, operands <+: [0, 0] → operands ≠ [0, 0] →
      other.step (0x8F :: operands) = other := by
    intro other operands part broken
    have short := Emitter.length_lt_of_part part broken
    rcases operands with _ | ⟨one, _ | ⟨two, rest⟩⟩
    · rfl
    · rfl
    · simp only [List.length_cons, List.length_nil] at short
      omega
  obtain ⟨_, whole⟩ := (start.after state.log).after_setting attempts partly rfl
  rw [setBufferBaseAddress] at quiet ⊢
  cases outcome : writeCommand chip 0x8F [0, 0] state with
  | mk answer later =>
      rw [outcome] at quiet sentEq acknowledged
      cases answer with
      | none => trivial
      | some done =>
          have reached : start.after later.log =
              { start.after state.log with txBase := 0 } := by
            rw [sentEq, Emitter.after_append, whole (acknowledged rfl)]
            rfl
          exact ⟨quiet.packetParams.trans idle.packetParams,
            quiet.txActive.trans idle.txActive, quiet.txLost.trans idle.txLost,
            by rw [reached], by rw [reached, ← idle.emitted], trivial⟩

theorem ensures_begin_air (residue : UInt8 × UInt8) (frequencyInHz : UInt32)
    (txPowerInDbm : Int8) (useRegulatorLDO : Bool) :
    Program.Ensures (Idle start params lost)
      (do
        calibrate chip 0x7F
        setRegulatorMode chip (if useRegulatorLDO then 0x00 else 0x01)
        setBufferBaseAddress chip 0 0
        setPaConfig chip 0x04 0x07 0x00 0x01
        setOvercurrentProtection chip 60
        setPowerConfig chip txPowerInDbm 0x04
        setRfFrequency chip residue frequencyInHz
        pure errNone)
      (fun status state => status = errNone →
        Airs start [] params false lost (fun _ => True) state) Whatever := by
  have writes : ∀ (cmd : UInt8) (data : List UInt8),
      Sends [cmd] (writeCommand chip cmd data) :=
    fun cmd data => sends_writeCommand chip data List.mem_cons_self
  have airs : ∀ {Result : Type} {cmds : List UInt8} {program : Radio Result},
      Sends cmds program → Emitter.Unheeded cmds →
      Program.Ensures (Airs start [] params false lost fun _ => True) program
        (fun _ => Airs start [] params false lost fun _ => True) Whatever :=
    fun sends other => (ensures_unheeded sends other).weaken (fun _ same => same)
      (fun _ _ same => same) fun _ _ => trivial
  have limits : Sends [0x0D] (setOvercurrentProtection chip 60) := by
    rw [setOvercurrentProtection]
    split
    · exact sends_writeRegister chip _ _ List.mem_cons_self
    · exact Program.Grows.pure ()
  have tunes : Sends [0x98, 0x86] (setRfFrequency chip residue frequencyInHz) :=
    (sends_writeCommand chip _ (by decide)).bind fun _ =>
      sends_writeCommand chip _ (by decide)
  refine (ensures_unheeded_idle (writes 0x89 _) (by decide)).bind fun _ => ?_
  refine (ensures_unheeded_idle (writes 0x96 _) (by decide)).bind fun _ => ?_
  refine (ensures_setBufferBaseAddress_air chip).bind fun _ => ?_
  refine (airs (writes 0x95 _) (by decide)).bind fun _ => ?_
  refine (airs limits (by decide)).bind fun _ => ?_
  refine (airs (writes 0x8E _) (by decide)).bind fun _ => ?_
  exact (airs tunes (by decide)).bind fun _ => Program.Ensures.pure fun _ same _ => same

theorem ensures_loRaBegin_air (residue : UInt8 × UInt8) (frequencyInHz : UInt32)
    (txPowerInDbm : Int8) (tcxoVoltage : Rat) (useRegulatorLDO : Bool) :
    Program.Ensures (Idle start params lost)
      (loRaBegin chip residue frequencyInHz txPowerInDbm tcxoVoltage useRegulatorLDO)
      (fun status state => status = errNone →
        Airs start [] params false lost (fun _ => True) state) Whatever := by
  have writes : ∀ (cmd : UInt8) (data : List UInt8),
      Sends [cmd] (writeCommand chip cmd data) :=
    fun cmd data => sends_writeCommand chip data List.mem_cons_self
  have waits : Sends [] (reset chip) := sends_waitForIdle chip
  have reads : Sends [0x1D] (readRegister chip 0x0740 2) :=
    sends_readRegister chip 0x0740 2 List.mem_cons_self
  refine (ensures_unheeded_idle waits (by decide)).bind fun _ => ?_
  refine (ensures_unheeded_idle reads (by decide)).bind fun syncWord => ?_
  dsimp only
  split
  · refine (ensures_unheeded_idle (writes 0x80 _) (by decide)).bind fun _ => ?_
    refine (ensures_unheeded_idle (writes 0x9D _) (by decide)).bind fun _ => ?_
    split
    · exact (ensures_unheeded_idle (writes 0x97 _) (by decide)).bind fun _ =>
        ensures_begin_air chip _ _ _ _
    · exact ensures_begin_air chip _ _ _ _
  · exact Program.Ensures.pure fun _ _ impossible => absurd impossible (by decide)

theorem ensures_startNode_air (bus : SpiBus) (residue : UInt8 × UInt8) (task : LoraTask) :
    Program.Ensures (Idle start params lost) (startNode chip bus residue task)
      (fun answer state => answer.1 = .espOk →
        Airs start [] nodeArgs.packetParams false lost (fun _ => True) state) Whatever := by
  have inits : Program.Ensures (Idle start params lost) (loRaInit bus)
      (fun _ => Idle start params lost) Whatever := by
    intro state idle
    have reached := ensures_loRaInit bus state state rfl
    have still : Idle start params lost { state with txActive := false } :=
      ⟨idle.packetParams, rfl, idle.txLost, idle.emitted⟩
    cases outcome : loRaInit bus state with
    | mk answer later =>
        rw [outcome] at reached
        cases answer with
        | none => trivial
        | some done => exact (show later = _ from reached) ▸ still
  refine inits.bind fun _ => ?_
  refine (ensures_loRaBegin_air chip residue 915000000 22 nodeVoltage true).bind
    fun status => ?_
  by_cases failed : status ≠ errNone
  · rw [if_pos failed]
    exact Program.Ensures.pure fun _ _ impossible => nomatch impossible
  · rw [if_neg failed]
    intro state begun
    refine (((ensures_loRaConfig_air chip nodeArgs).weaken (fun _ same => same)
      (fun _ _ same => same) fun _ _ => trivial).bind fun _ => ?_) state
      (begun (not_not.mp failed))
    exact Program.Ensures.pure fun _ airs _ => airs

end Starting

namespace DriverEvent

def lost (event : DriverEvent) : Bool :=
  match event.call, event.answer with
  | .loRaSend _ _, some (.flag false) => true
  | _, _ => false

/-- Whether an asynchronous transmission may be going on after the call. -/
def engages (busy : Bool) (event : DriverEvent) : Bool :=
  match event.call, event.answer with
  | .loRaSend _ mode, some (.flag true) => busy || decide (mode &&& 0x02 = 0)
  | .receiveMode, some (.flag true) => false
  | _, _ => busy

/-- What goes on the air of a call that is not refused. -/
def taken (busy : Bool) (event : DriverEvent) : List (List UInt8) :=
  match event.call with
  | .loRaSend data _ => if busy then [] else [carried data.bytes]
  | _ => []

end DriverEvent

/-- An asynchronous transmission was begun and not reported to be over. -/
def Busy (history : List DriverEvent) : Bool :=
  history.foldl DriverEvent.engages false

def takenFrom (busy : Bool) : List DriverEvent → List (List UInt8)
  | [] => []
  | event :: rest => event.taken busy ++ takenFrom (event.engages busy) rest

def takenFrames (history : List DriverEvent) : List (List UInt8) :=
  takenFrom false history

def lostFrames (history : List DriverEvent) : Nat :=
  (history.filter DriverEvent.lost).length

/-- A busy transmitter refuses every frame, a free one no asynchronous frame. -/
def Refuses (past : List DriverEvent) (event : DriverEvent) : Prop :=
  ∀ data mode, event.call = .loRaSend data mode →
    if Busy past then event.answer = some (.flag false)
    else mode &&& 0x02 = 0 → event.answer ≠ some (.flag false)

theorem Busy_concat (history : List DriverEvent) (event : DriverEvent) :
    Busy (history ++ [event]) = event.engages (Busy history) := by
  rw [Busy, List.foldl_append]
  rfl

theorem takenFrames_concat (history : List DriverEvent) (event : DriverEvent) :
    takenFrames (history ++ [event]) =
      takenFrames history ++ event.taken (Busy history) := by
  rw [takenFrames, takenFrames, Busy]
  generalize false = busy
  induction history generalizing busy with
  | nil => exact List.append_nil _
  | cons first rest induction =>
      rw [List.cons_append, takenFrom, takenFrom, induction, List.append_assoc]
      rfl

theorem lostFrames_concat (history : List DriverEvent) (event : DriverEvent) :
    lostFrames (history ++ [event]) =
      if event.lost then lostFrames history + 1 else lostFrames history := by
  rw [lostFrames, List.filter_append, List.length_append]
  cases lost : event.lost with
  | true => simp [lost, lostFrames]
  | false => simp [lost, lostFrames]

def Ledger.pending (ledger : Ledger) : List (List UInt8) := ledger.stopped.join.toList

theorem Ledger.take_eq {ledger next : Ledger} {event : DriverEvent}
    (going : ledger.stopped = none) (taken : ledger.take event = some next) :
    next.active = event.engages ledger.active ∧
      next.frames ++ next.pending = ledger.frames ++ event.taken ledger.active ∧
      next.lost = (if event.lost then ledger.lost + 1 else ledger.lost) ∧
      ∀ data mode, event.call = .loRaSend data mode →
        if ledger.active then event.answer = some (.flag false)
        else mode &&& 0x02 = 0 → event.answer ≠ some (.flag false) := by
  obtain ⟨call, answer⟩ := event
  obtain ⟨active, lost, frames, stopped⟩ := ledger
  cases going
  cases call with
  | loRaSend data mode =>
      cases answer with
      | none =>
          cases active with
          | true => cases taken
          | false =>
              obtain rfl := Option.some.inj taken
              exact ⟨rfl, rfl, rfl, fun _ _ _ _ => (Option.some_ne_none _).symm⟩
      | some given =>
          cases given with
          | flag rv =>
              cases active with
              | true =>
                  cases rv with
                  | true => cases taken
                  | false =>
                      obtain rfl := Option.some.inj taken
                      exact ⟨rfl, rfl, rfl, fun _ _ _ => rfl⟩
              | false =>
                  by_cases asynchronous : mode &&& 0x02 = 0
                  · simp only [Ledger.take, asynchronous, if_true, Bool.false_eq_true,
                      if_false] at taken
                    cases rv with
                    | false => cases taken
                    | true =>
                        obtain rfl := Option.some.inj taken
                        refine ⟨?_, List.append_nil _, rfl,
                          fun _ _ _ _ same => by cases same⟩
                        simp only [DriverEvent.engages, asynchronous, decide_true,
                          Bool.or_true]
                  · simp only [Ledger.take, asynchronous, Bool.false_eq_true, if_false]
                      at taken
                    obtain rfl := Option.some.inj taken
                    refine ⟨?_, List.append_nil _, ?_,
                      fun _ otherMode same isAsynchronous => ?_⟩
                    · cases rv with
                      | false => rfl
                      | true =>
                          simp only [DriverEvent.engages, asynchronous, decide_false,
                            Bool.or_false]
                    · cases rv <;> rfl
                    · obtain ⟨_, rfl⟩ := DriverCall.loRaSend.inj same
                      exact absurd isAsynchronous asynchronous
          | _ => cases taken
  | receiveMode =>
      cases answer with
      | none =>
          cases active with
          | true =>
              obtain rfl := Option.some.inj taken
              exact ⟨rfl, rfl, rfl, fun _ _ same => by cases same⟩
          | false => cases taken
      | some given =>
          cases given with
          | flag rv =>
              cases active with
              | true =>
                  obtain rfl := Option.some.inj taken
                  cases rv <;> exact ⟨rfl, rfl, rfl, fun _ _ same => by cases same⟩
              | false =>
                  cases rv with
                  | true =>
                      obtain rfl := Option.some.inj taken
                      exact ⟨rfl, rfl, rfl, fun _ _ same => by cases same⟩
                  | false => cases taken
          | _ => cases taken
  | _ =>
      cases answer with
      | none =>
          obtain rfl := Option.some.inj taken
          exact ⟨rfl, rfl, rfl, fun _ _ same => by cases same⟩
      | some given =>
          obtain rfl := Option.some.inj taken
          exact ⟨rfl, rfl, rfl, fun _ _ same => by cases same⟩

/-- What the transmitter keeps track of, read off the calls. -/
structure Keeps (lost : Int32) (history : List DriverEvent) (ledger : Ledger) : Prop where
  active : ledger.active = Busy history
  frames : ledger.frames ++ ledger.pending = takenFrames history
  lost : ledger.lost = lost + Int32.ofNat (lostFrames history)
  refuses : Justified Refuses history

theorem Keeps.of_reaches {lost : Int32} {history : List DriverEvent} {ledger : Ledger}
    (reached : transmitter.Reaches ⟨false, lost, [], none⟩ history ledger) :
    Keeps lost history ledger := by
  refine reached.invariant ⟨rfl, rfl, (Int32.add_zero lost).symm, Justified.nil⟩ ?_
  intro history ledger event next events keeps taken
  simp only [transmitter] at taken
  cases going : ledger.stopped with
  | some frame =>
      rw [going, Option.isSome_some, if_pos rfl] at taken
      cases taken
  | none =>
  rw [going, Option.isSome_none, if_neg (by decide)] at taken
  obtain ⟨later, accepted, same⟩ := Option.map_eq_some_iff.mp taken
  obtain ⟨rfl, rfl⟩ := Prod.mk.inj same
  obtain ⟨active, frames, lostNow, refuses⟩ := Ledger.take_eq going accepted
  have sofar : ledger.frames = takenFrames history := by
    rw [← keeps.frames, Ledger.pending, going]
    exact (List.append_nil _).symm
  rw [keeps.active] at active frames refuses
  refine ⟨?_, ?_, ?_, keeps.refuses.concat refuses⟩
  · rw [Busy_concat, active]
  · rw [takenFrames_concat, frames, sofar]
  · rw [lostFrames_concat, lostNow, keeps.lost]
    split
    · rw [Int32.ofNat_add, ← Int32.add_assoc]
      rfl
    · rfl

theorem started_airs {chip : Chip} {bus : SpiBus} {residue : UInt8 × UInt8}
    {task : LoraTask} {start : Emitter} {packetParams : CArray 6} {txLost : Int32}
    {tasks : List LoraTask} {radio : RadioState} (fresh : start.emitted = [])
    (started : startNode chip bus residue task (initialized packetParams txLost) =
      (some (.espOk, tasks), radio)) :
    Airs start [] nodeArgs.packetParams false txLost (fun _ => True) radio := by
  have idle : Idle start packetParams txLost (initialized packetParams txLost) :=
    ⟨rfl, rfl, rfl, fresh⟩
  have ready := ensures_startNode_air chip bus residue task _ idle
  rw [started] at ready
  exact ready rfl

/-- The frames on the air are those of the ledger, but for the last one if its call did
not return. -/
theorem Agrees.onAir {start : Emitter} {most : Nat} {state : DriverState}
    {ledger : Ledger} (agrees : Agrees start most state ledger) :
    ∃ sent, Repeated most sent (start.after state.radio.log).emitted ∧
      sent <+: ledger.frames ++ ledger.pending ∧
      (ledger.frames ++ ledger.pending).length ≤ sent.length + 1 := by
  obtain ⟨copies, repeated, rest⟩ := agrees
  rw [Ledger.pending]
  cases stopped : ledger.stopped with
  | none =>
      rw [stopped] at rest
      obtain ⟨_, _, airs⟩ := rest
      exact ⟨ledger.frames, airs.emitted ▸ repeated, List.prefix_append _ _,
        Nat.le_succ_of_le (Nat.le_of_eq (congrArg List.length (List.append_nil _)))⟩
  | some frame =>
      cases frame with
      | none =>
          rw [stopped] at rest
          exact ⟨ledger.frames, rest.2 ▸ repeated, List.prefix_append _ _,
            Nat.le_succ_of_le (Nat.le_of_eq (congrArg List.length (List.append_nil _)))⟩
      | some data =>
          rw [stopped] at rest
          obtain ⟨_, count, bounded, aired⟩ := rest
          have one : (ledger.frames ++ [data]).length = ledger.frames.length + 1 :=
            List.length_append
          by_cases none : count = 0
          · subst none
            rw [Aired, List.replicate_zero, List.append_nil] at aired
            exact ⟨ledger.frames, aired ▸ repeated, List.prefix_append _ _, one.le⟩
          · refine ⟨ledger.frames ++ [data], ?_, List.prefix_rfl, Nat.le_succ _⟩
            rw [show (start.after state.radio.log).emitted = _ from aired]
            exact repeated.append (.singleton data (Nat.pos_of_ne_zero none) bounded)

/-- What a driver shows that has been called some times since a node has started. -/
structure Transmits (chip : Chip) (start : Emitter) (lost : Int32)
    (history : List DriverEvent) (state : DriverState) : Prop where
  /-- Each frame is on the air up to nine times in a row, the last one may be missing. -/
  onAir : ∃ sent, Repeated 9 sent (start.after state.radio.log).emitted ∧
    sent <+: takenFrames history ∧ (takenFrames history).length ≤ sent.length + 1
  /-- If all calls have returned none is missing. -/
  complete : state.stuck = false →
    Repeated 9 (takenFrames history) (start.after state.radio.log).emitted
  /-- Nor is one repeated if the chip reports no error when it is told to send. -/
  once : state.stuck = false → Chip.AnswersWell chip →
    (start.after state.radio.log).emitted = takenFrames history
  txActive : state.stuck = false → state.radio.txActive = Busy history
  packetLost : state.stuck = false →
    getPacketLost state.radio = lost + Int32.ofNat (lostFrames history)
  refuses : Justified Refuses history

theorem Related.transmits {chip : Chip} {start : Emitter} {lost : Int32}
    {history : List DriverEvent} {state : DriverState} {ledger : Ledger}
    (related : Related chip start state ledger) (keeps : Keeps lost history ledger) :
    Transmits chip start lost history state := by
  -- the same ledger for every bound that the chip keeps to
  have shown : state.stuck = false → ∀ most, Chip.Within chip most → ∃ copies,
      Repeated most (takenFrames history) copies ∧ ∃ params,
        Airs start copies params (Busy history)
          (lost + Int32.ofNat (lostFrames history)) (fun _ => True) state.radio := by
    intro going most within
    obtain ⟨notStopped, running⟩ := (related most within).running going
    have all : ledger.frames = takenFrames history := by
      rw [← keeps.frames, Ledger.pending, notStopped]
      exact (List.append_nil _).symm
    rwa [Running, all, keeps.active, keeps.lost] at running
  refine ⟨?_, fun going => ?_, fun going good => ?_, fun going => ?_, fun going => ?_,
    keeps.refuses⟩
  · rw [← keeps.frames]
    exact (related 9 (within_nine chip)).onAir
  · obtain ⟨copies, repeated, params, airs⟩ := shown going 9 (within_nine chip)
    exact airs.emitted ▸ repeated
  · obtain ⟨once, single, _, airs⟩ := shown going 1 (within_one good)
    rw [airs.emitted, single.eq_of_one]
  · obtain ⟨_, _, _, airs⟩ := shown going 9 (within_nine chip)
    exact airs.txActive
  · obtain ⟨_, _, _, airs⟩ := shown going 9 (within_nine chip)
    exact airs.txLost

/-- Whatever the chip held at power-on and whatever it answers: in every sequence of
calls after a node has started, the frames on the air are those that were not
refused, an asynchronous frame is refused exactly while another one may be going on,
and `GetPacketLost` counts the calls that returned false, as an `int`. -/
theorem transmits_of_reaches {chip : Chip} {bus : SpiBus} {residue : UInt8 × UInt8}
    {task : LoraTask} {start : Emitter} {packetParams : CArray 6} {txLost : Int32}
    {tasks : List LoraTask} {radio : RadioState} {polls : Nat}
    {history : List DriverEvent} {state : DriverState} (fresh : start.emitted = [])
    (started : startNode chip bus residue task (initialized packetParams txLost) =
      (some (.espOk, tasks), radio))
    (reached : (driver chip polls).Reaches ⟨radio, false⟩ history state) :
    Transmits chip start txLost history state := by
  have airs := started_airs fresh started
  obtain ⟨ledger, run, related⟩ := driver_refines airs reached
  exact related.transmits (Keeps.of_reaches run)

def emptyEmitter : Emitter := ⟨fun _ => 0, 0, 0, []⟩

/-- A frame and a reception. -/
theorem transmits_of_reaches_scripted :
    ∃ history state, (driver (scriptedChip 109) 3).Reaches
        ⟨startedNode 109 .loraTxTask, false⟩ history state ∧
      (emptyEmitter.after state.radio.log).emitted = [[1, 2, 3]] := by
  have executed : ((driver (scriptedChip 109) 3).run ⟨startedNode 109 .loraTxTask, false⟩
      (scriptedCalls.take 2)).map
        (fun outcome => (outcome.1.stuck, takenFrames outcome.2)) =
          some (false, [[1, 2, 3]]) := by
    decide +kernel
  obtain ⟨⟨state, history⟩, outcome, same⟩ := Option.map_eq_some_iff.mp executed
  obtain ⟨going, taken⟩ := Prod.mk.inj same
  have reached := Machine.reaches_of_run outcome
  have transmits := transmits_of_reaches (rfl : emptyEmitter.emitted = [])
    (startedNode_started (by decide +kernel)) reached
  exact ⟨history, state, reached,
    (transmits.once going (scriptedChip_answersWell 109)).trans taken⟩

end Radio

end Lora32Mqtt
