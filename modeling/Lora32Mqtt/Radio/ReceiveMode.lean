import Lora32Mqtt.Radio.PacketParams

/-!
# Receive mode after sending

`LoRaSend` puts the length of its frame into the shared packet parameters and
goes back to receive mode without restoring them.  A session is `LoRaConfig` and
then any calls of `LoRaReceive` and of a synchronous `LoRaSend`.
-/

namespace Lora32Mqtt

namespace Radio

variable {params : CArray 6} {active : Bool} {known : Told}
  {past : List (Option (List UInt8))} {want : Option (List UInt8)}

/-- The command that `PacketParams` is written with. -/
abbrev paramsCommand (params : CArray 6) : Option (List UInt8) :=
  some (0x8C :: params.toList)

/-- Receive mode was entered, once or several times, with what the chip was told
last. -/
def Entered (params : CArray 6) (active : Bool)
    (past : List (Option (List UInt8))) (mode : Option (List UInt8))
    (state : RadioState) : Prop :=
  ∃ count, Stands params active
    ⟨mode, past ++ List.replicate (count + 1) mode⟩ state

/-- The receive mode was entered before, or with the wanted parameters. -/
def Stopped (past : List (Option (List UInt8))) (want : Option (List UInt8))
    (state : RadioState) : Prop :=
  ∃ count, (told state.log).receiving = past ++ List.replicate count want

theorem Stands.stopped {state : RadioState}
    (stands : Stands params active known state)
    (before : known.receiving = past) : Stopped past want state :=
  ⟨0, by rw [stands.log, before]; simp⟩

theorem ensures_quiet {Result : Type} {program : Radio Result}
    (quiet : Program.Grows Quiet program)
    (before : known.receiving = past) :
    Program.Ensures (Stands params active known) program
      (fun _ => Stands params active known) (Stopped past want) :=
  (quiet.ensures fun _ _ steps => Stands.quiet steps).weaken
    (fun _ stands => stands) (fun _ _ stands => stands)
    fun _ stands => stands.stopped before

variable (chip : Chip)

theorem ensures_writeCommand2 (cmd : UInt8) (data : List UInt8) :
    Program.Ensures (Stands params active known) (writeCommand2 chip cmd data)
      (fun status state => ∃ sent, (status = 0 → sent = data) ∧
        Stands params active (known.step (cmd :: sent)) state)
      (fun state => Stands params active known state ∨
        ∃ sent, Stands params active (known.step (cmd :: sent)) state) := by
  intro state stands
  have logged :=
    transaction_log chip cmd (transfers_sendChecked chip data) state
  cases outcome : writeCommand2 chip cmd data state with
  | mk answer later =>
      rw [show transaction chip cmd (sendChecked chip data) state =
        (answer, later) from outcome] at logged
      obtain ⟨sameParams, sameActive, wire⟩ := logged
      have statics := sameParams.trans stands.packetParams
      have inactive := sameActive.trans stands.txActive
      have sentStands : ∀ sent, later.log = state.log ++ [cmd :: sent] →
          Stands params active (known.step (cmd :: sent)) later := by
        intro sent logEq
        refine ⟨statics, inactive, ?_⟩
        rw [logEq, told_concat, stands.log]
      cases answer with
      | some status =>
          obtain ⟨impossible, _⟩ | ⟨sent, logEq, whole⟩ := wire
          · cases impossible
          · exact ⟨sent, whole status rfl, sentStands sent logEq⟩
      | none =>
          obtain ⟨_, logEq⟩ | ⟨sent, logEq, _⟩ := wire
          · refine Or.inl ⟨statics, inactive, ?_⟩
            rw [show later.log = state.log from logEq, stands.log]
          · exact Or.inr ⟨sent, sentStands sent logEq⟩

/-- A write that returns has sent the whole command last.  `attempted` is what
any number of attempts keeps. -/
theorem ensures_writeCommand {cmd : UInt8} (attempted : Told → Prop)
    (data : List UInt8)
    (kept : ∀ known sent, attempted known →
      attempted (known.step (cmd :: sent))) :
    Program.Ensures
      (fun state => ∃ known, attempted known ∧
        Stands params active known state)
      (writeCommand chip cmd data)
      (fun _ state => ∃ known, attempted known ∧
        Stands params active (known.step (cmd :: data)) state)
      (fun state => ∃ known, attempted known ∧
        Stands params active known state) := by
  refine Program.Ensures.retry ?_ (fun _ before => before) 9
  intro state before
  obtain ⟨known, holds, stands⟩ := before
  refine (((ensures_writeCommand2 chip cmd data).weaken
    (fun _ same => same) (fun _ _ same => same) ?_).bind fun status =>
      Program.Ensures.pure ?_) state stands
  · intro later stopped
    rcases stopped with unchanged | ⟨sent, written⟩
    · exact ⟨known, holds, unchanged⟩
    · exact ⟨_, kept known sent holds, written⟩
  · intro later wrote
    obtain ⟨sent, whole, written⟩ := wrote
    by_cases good : status = 0
    · rw [if_pos good]
      rw [whole good] at written
      exact ⟨known, holds, written⟩
    · rw [if_neg good]
      exact ⟨_, kept known sent holds, written⟩

theorem ensures_writeParams (data : List UInt8) :
    Program.Ensures (Stands params active known) (writeCommand chip 0x8C data)
      (fun _ => Stands params active ⟨some (0x8C :: data), known.receiving⟩)
      (Stopped known.receiving want) := by
  refine (ensures_writeCommand chip
    (fun seen => seen.receiving = known.receiving) data ?_).weaken
      (fun _ stands => ⟨known, rfl, stands⟩) ?_ ?_
  · intro seen sent same
    exact same
  · intro _ state wrote
    obtain ⟨seen, same, written⟩ := wrote
    rw [Told.step_params, same] at written
    exact written
  · intro state stopped
    obtain ⟨seen, same, stands⟩ := stopped
    exact stands.stopped same

/-- Every attempt enters receive mode with the parameters of the moment. -/
theorem ensures_writeReceive (data : List UInt8) :
    Program.Ensures (Stands params active known) (writeCommand chip 0x82 data)
      (fun _ => Entered params active known.receiving known.params)
      (Stopped known.receiving known.params) := by
  refine (ensures_writeCommand chip
    (fun seen => ∃ count, seen = ⟨known.params,
      known.receiving ++ List.replicate count known.params⟩) data ?_).weaken
      (fun _ stands => ⟨known, ⟨0, by simp⟩, stands⟩) ?_ ?_
  · intro seen sent attempts
    obtain ⟨count, rfl⟩ := attempts
    refine ⟨count + 1, ?_⟩
    rw [Told.step_receiving, List.replicate_succ', List.append_assoc]
  · intro _ state wrote
    obtain ⟨seen, ⟨count, rfl⟩, written⟩ := wrote
    refine ⟨count, ?_⟩
    rwa [Told.step_receiving, List.append_assoc, ← List.replicate_succ']
      at written
  · intro state stopped
    obtain ⟨seen, ⟨count, rfl⟩, stands⟩ := stopped
    exact ⟨count, by rw [stands.log]⟩

theorem ensures_setPacketParams :
    Program.Ensures (Stands params active known) (setPacketParams chip)
      (fun _ => Stands params active
        ⟨paramsCommand params, known.receiving⟩)
      (Stopped known.receiving want) := by
  refine Program.Ensures.bind (Program.Ensures.get (fun seen state =>
    seen.packetParams = params ∧ Stands params active known state) ?_)
      fun seen => ?_
  · exact fun state stands => ⟨stands.packetParams, stands⟩
  · intro state before
    rw [before.1]
    exact ensures_writeParams chip _ state before.2

theorem ensures_setRx (timeout : UInt32) :
    Program.Ensures (Stands params active known) (setRx chip timeout)
      (fun _ => Entered params active known.receiving known.params)
      (Stopped known.receiving known.params) := by
  refine (ensures_quiet (quiet_setStandby chip 0x00) rfl).bind fun _ => ?_
  refine (ensures_writeReceive chip _).bind fun _ => ?_
  intro state entered
  obtain ⟨count, stands⟩ := entered
  refine ((quiet_requireMode chip 0x50).ensures
    fun _ _ steps => Stands.quiet steps).weaken (fun _ same => same)
      (fun _ _ entered => ⟨count, entered⟩) ?_ state stands
  exact fun _ entered => ⟨count + 1, by rw [entered.log]⟩

theorem ensures_loRaConfig (args : ConfigArgs) :
    Program.Ensures (Stands params active known) (loRaConfig chip args)
      (fun _ => Entered args.packetParams active known.receiving
        (paramsCommand args.packetParams))
      (Stopped known.receiving (paramsCommand args.packetParams)) := by
  have writes : ∀ {params : CArray 6} {known : Told} {cmd : UInt8}
      (data : List UInt8), cmd ≠ 0x8C → cmd ≠ 0x82 →
      Program.Ensures (Stands params active known) (writeCommand chip cmd data)
        (fun _ => Stands params active known)
        (Stopped known.receiving (paramsCommand args.packetParams)) :=
    fun data notParams notReceiving =>
      ensures_quiet (quiet_writeCommand chip data notParams notReceiving) rfl
  refine (writes _ (by decide) (by decide)).bind fun _ => ?_
  refine (writes _ (by decide) (by decide)).bind fun _ => ?_
  refine (writes _ (by decide) (by decide)).bind fun _ => ?_
  refine (writes _ (by decide) (by decide)).bind fun _ => ?_
  refine Program.Ensures.bind (Program.Ensures.modify
    (fun _ => Stands args.packetParams active known) ?_) fun _ => ?_
  · exact fun state stands => ⟨rfl, stands.txActive, stands.log⟩
  refine (ensures_quiet (quiet_fixInvertedIQ chip _) rfl).bind fun _ => ?_
  refine (ensures_setPacketParams chip).bind fun _ => ?_
  refine (writes _ (by decide) (by decide)).bind fun _ => ?_
  exact ensures_setRx chip _

theorem ensures_transmit (polls : Nat) (data : List UInt8) :
    let frame := sendParams params data.length
    Program.Ensures (Stands params false known)
      (transmit chip polls data 0x02)
      (fun _ => Entered frame false known.receiving (paramsCommand frame))
      (Stopped known.receiving (paramsCommand frame)) := by
  intro frame
  refine Program.Ensures.bind (Program.Ensures.modify
    (fun _ => Stands params true known) ?_) fun _ => ?_
  · exact fun state stands => ⟨stands.packetParams, rfl, stands.log⟩
  refine Program.Ensures.bind (Program.Ensures.modify
    (fun _ => Stands frame true known) ?_) fun _ => ?_
  · intro state stands
    refine ⟨?_, stands.txActive, stands.log⟩
    simp only [frame, stands.packetParams]
  refine (ensures_setPacketParams chip).bind fun _ => ?_
  refine (ensures_quiet
    (quiet_writeCommand chip _ (by decide) (by decide)) rfl).bind fun _ => ?_
  refine (ensures_quiet (quiet_writeBuffer chip data) rfl).bind fun _ => ?_
  refine (ensures_quiet (quiet_setTx chip 500) rfl).bind fun _ => ?_
  -- the mode is the synchronous one
  rw [if_pos (by decide)]
  refine (ensures_quiet (quiet_awaitTx chip polls) rfl).bind fun status => ?_
  refine Program.Ensures.bind (Program.Ensures.modify
    (fun _ => Stands frame false
      ⟨paramsCommand frame, known.receiving⟩) ?_) fun _ => ?_
  · exact fun state stands => ⟨stands.packetParams, rfl, stands.log⟩
  refine (ensures_setRx chip _).bind fun _ => ?_
  exact Program.Ensures.pure fun _ entered => entered

theorem ensures_loRaSend (polls : Nat) (data : List UInt8) :
    let frame := sendParams params data.length
    Program.Ensures (Stands params false known)
      (loRaSend chip polls data 0x02)
      (fun _ => Entered frame false known.receiving (paramsCommand frame))
      (Stopped known.receiving (paramsCommand frame)) := by
  refine Program.Ensures.bind (Program.Ensures.get (fun seen state =>
    seen.txActive = false ∧ Stands params false known state) ?_) fun seen => ?_
  · exact fun state stands => ⟨stands.txActive, stands⟩
  intro state before
  obtain ⟨idle, stands⟩ := before
  rw [idle]
  refine ((ensures_transmit chip polls data).bind fun rv => ?_) state stands
  cases rv with
  | true => exact Program.Ensures.pure fun _ entered => entered
  | false =>
      -- only the count of lost frames changes
      intro state receives
      obtain ⟨count, entered⟩ := receives
      exact ⟨count, entered.packetParams, entered.txActive, entered.log⟩

/-- What the tasks call.  Every `LoRaSend` is `SX126x_TXMODE_SYNC`. -/
inductive Call where
  | receive (len : Int)
  | send (data : List UInt8)

/-- After `LoRaInit`, with whatever the statics hold. -/
def initialized (packetParams : CArray 6) (txLost : Int32) :
    RadioState where
  packetParams := packetParams
  txActive := false
  txLost := txLost
  exchanged := 0
  waited := 0
  current := []
  log := []

def Call.perform (polls : Nat) : Call → Radio Unit
  | .receive len => do
      let _ ← loRaReceive chip len
      pure ()
  | .send data => do
      let _ ← loRaSend chip polls data 0x02
      pure ()

def performAll (polls : Nat) : List Call → Radio Unit
  | [] => pure ()
  | call :: rest => do
      call.perform chip polls
      performAll polls rest

def session (polls : Nat) (args : ConfigArgs) (calls : List Call) :
    Radio Unit := do
  loRaConfig chip args
  performAll chip polls calls

/-- The mode of the frame of one of the calls. -/
def FrameMode (params : CArray 6) (calls : List Call)
    (mode : Option (List UInt8)) : Prop :=
  ∃ data, Call.send data ∈ calls ∧
    mode = paramsCommand (sendParams params data.length)

theorem toList_sendParams (params : CArray 6) (len : Nat) :
    (sendParams params len).toList =
      (params.toList.set 2 0x00).set 3 (UInt8.ofNat len) := by
  simp [sendParams]

theorem sendParams_sendParams (params : CArray 6) (len later : Nat) :
    sendParams (sendParams params len) later = sendParams params later := by
  apply List.Vector.toList_injective
  simp only [toList_sendParams]
  rw [List.set_comm _ _ (by decide), List.set_set, List.set_comm _ _ (by decide),
    List.set_set]

/-- Sending keeps the configured parameters exactly for frames of 255 bytes,
counted modulo 256, in variable-length mode. -/
theorem sendParams_eq_iff (args : ConfigArgs) (len : Nat) :
    sendParams args.packetParams len = args.packetParams ↔
      args.payloadLen = 0 ∧ len % 256 = 255 := by
  have lengthByte : UInt8.ofNat len = 0xFF ↔ len % 256 = 255 := by
    rw [← UInt8.toNat_inj]
    simp
  constructor
  · intro same
    have bytes := congrArg List.Vector.toList same
    rw [toList_sendParams] at bytes
    by_cases fixed : args.payloadLen = 0
    · have limit := congrArg (fun bytes => bytes[3]?) bytes
      simp [ConfigArgs.packetParams, fixed] at limit
      exact ⟨fixed, lengthByte.mp limit⟩
    · have header := congrArg (fun bytes => bytes[2]?) bytes
      simp [ConfigArgs.packetParams, fixed] at header
  · intro fitting
    obtain ⟨variableLength, len255⟩ := fitting
    apply List.Vector.toList_injective
    rw [toList_sendParams, lengthByte.mpr len255]
    simp [ConfigArgs.packetParams, variableLength]

theorem frameMode_receive (params : CArray 6) (len : Int) (rest : List Call)
    (mode : Option (List UInt8)) :
    FrameMode params (.receive len :: rest) mode ↔
      FrameMode params rest mode := by
  simp [FrameMode]

theorem frameMode_send (params : CArray 6) (data : List UInt8)
    (rest : List Call) (mode : Option (List UInt8)) :
    FrameMode params (.send data :: rest) mode ↔
      mode = paramsCommand (sendParams params data.length) ∨
        FrameMode (sendParams params data.length) rest mode := by
  simp only [FrameMode, sendParams_sendParams, List.mem_cons, Call.send.injEq]
  constructor
  · intro sent
    obtain ⟨frame, rfl | sentLater, same⟩ := sent
    · exact Or.inl same
    · exact Or.inr ⟨frame, sentLater, same⟩
  · intro sent
    rcases sent with same | ⟨frame, sentLater, same⟩
    · exact ⟨data, Or.inl rfl, same⟩
    · exact ⟨frame, Or.inr sentLater, same⟩

theorem ensures_perform_receive (polls : Nat) (len : Int) :
    Program.Ensures (Stands params false known)
      (Call.perform chip polls (.receive len))
      (fun _ => Stands params false known)
      (fun state => (told state.log).receiving = known.receiving) :=
  (((quiet_loRaReceive chip len).ensures
    fun _ _ steps => Stands.quiet steps).weaken (fun _ same => same)
      (fun _ _ same => same) fun _ stands => by rw [stands.log]).bind
    fun _ => Program.Ensures.pure fun _ stands => stands

theorem ensures_perform_send (polls : Nat) (data : List UInt8) :
    let frame := sendParams params data.length
    Program.Ensures (Stands params false known)
      (Call.perform chip polls (.send data))
      (fun _ => Entered frame false known.receiving (paramsCommand frame))
      (Stopped known.receiving (paramsCommand frame)) :=
  (ensures_loRaSend chip polls data).bind
    fun _ => Program.Ensures.pure fun _ entered => entered

theorem mem_of_stopped {state : RadioState} (stopped : Stopped past want state)
    {mode : Option (List UInt8)} (member : mode ∈ (told state.log).receiving) :
    mode ∈ past ∨ mode = want := by
  obtain ⟨count, entered⟩ := stopped
  rw [entered, List.mem_append, List.mem_replicate] at member
  exact member.imp_right And.right

/-- The receive mode is entered with the parameters of each frame sent, and with
no others. -/
theorem ensures_performAll (polls : Nat) (calls : List Call) :
    Program.Ensures (Stands params false known) (performAll chip polls calls)
      (fun _ state => ∀ mode, mode ∈ (told state.log).receiving ↔
        mode ∈ known.receiving ∨ FrameMode params calls mode)
      (fun state => ∀ mode ∈ (told state.log).receiving,
        mode ∈ known.receiving ∨ FrameMode params calls mode) := by
  induction calls generalizing params known with
  | nil =>
      refine Program.Ensures.pure fun state stands mode => ?_
      simp [stands.log, FrameMode]
  | cons call rest induction =>
      cases call with
      | receive len =>
          simp only [frameMode_receive]
          refine ((ensures_perform_receive chip polls len).weaken
            (fun _ same => same) (fun _ _ same => same) ?_).bind
              fun _ => induction
          intro state unchanged mode member
          exact Or.inl (unchanged ▸ member)
      | send data =>
          simp only [frameMode_send]
          refine ((ensures_perform_send chip polls data).weaken
            (fun _ same => same) (fun _ _ same => same) ?_).bind fun _ => ?_
          · intro state stopped mode member
            exact (mem_of_stopped stopped member).imp_right Or.inl
          · intro state sent
            obtain ⟨count, stands⟩ := sent
            refine induction.weaken (fun _ same => same) ?_ ?_ state stands
            · intro _ later modes mode
              rw [modes mode, List.mem_append, List.mem_replicate]
              simp [or_assoc]
            · intro later modes mode member
              have entered := modes mode member
              rw [List.mem_append, List.mem_replicate] at entered
              rcases entered with (before | same) | later
              · exact Or.inl before
              · exact Or.inr (Or.inl same.2)
              · exact Or.inr (Or.inr later)

theorem ensures_session (polls : Nat) (args : ConfigArgs) (calls : List Call) :
    Program.Ensures (Stands params false ⟨none, []⟩)
      (session chip polls args calls)
      (fun _ state => ∀ mode, mode ∈ (told state.log).receiving ↔
        mode = paramsCommand args.packetParams ∨
          FrameMode args.packetParams calls mode)
      (fun state => ∀ mode ∈ (told state.log).receiving,
        mode = paramsCommand args.packetParams ∨
          FrameMode args.packetParams calls mode) := by
  refine Program.Ensures.bind
    ((ensures_loRaConfig chip args).weaken (fun _ same => same)
      (fun _ _ same => same) ?_) fun _ => ?_
  · intro state stopped mode member
    obtain ⟨count, entered⟩ := stopped
    rw [entered, List.mem_append, List.mem_replicate] at member
    simp only [List.not_mem_nil, false_or] at member
    exact Or.inl member.2
  · intro state entered
    obtain ⟨count, stands⟩ := entered
    refine (ensures_performAll chip polls calls).weaken (fun _ same => same)
      ?_ ?_ state stands
    · intro _ later modes mode
      rw [modes mode]
      simp
    · intro later modes mode member
      simpa using modes mode member

/-- Whenever receive mode was entered, the chip had the configured parameters. -/
def ReceivesAsConfigured (args : ConfigArgs) (state : RadioState) : Prop :=
  ∀ mode ∈ (told state.log).receiving,
    mode = paramsCommand args.packetParams

/-- A frame whose parameters are those of the configuration. -/
def Call.KeepsParams (args : ConfigArgs) : Call → Prop
  | .receive _ => True
  | .send data => args.payloadLen = 0 ∧ data.length % 256 = 255

theorem session_receiving (polls : Nat) (args : ConfigArgs) (calls : List Call)
    (packetParams : CArray 6) (txLost : Int32) :
    let outcome := session chip polls args calls
      (initialized packetParams txLost)
    (∀ mode ∈ (told outcome.2.log).receiving,
        mode = paramsCommand args.packetParams ∨
          FrameMode args.packetParams calls mode) ∧
      (outcome.1 = some () → ∀ mode, FrameMode args.packetParams calls mode →
        mode ∈ (told outcome.2.log).receiving) := by
  have fresh : Stands packetParams false ⟨none, []⟩
      (initialized packetParams txLost) := ⟨rfl, rfl, rfl⟩
  have ensured := ensures_session chip polls args calls _ fresh
  intro outcome
  cases result : outcome with
  | mk answer last =>
      rw [show session chip polls args calls
        (initialized packetParams txLost) = (answer, last) from result]
        at ensured
      cases answer with
      | some done =>
          exact ⟨fun mode => (ensured mode).mp,
            fun _ mode frame => (ensured mode).mpr (Or.inr frame)⟩
      | none => exact ⟨ensured, fun impossible => nomatch impossible⟩

/-- The configuration outlives exactly the frames of the configured length. -/
theorem receivesAsConfigured_iff (polls : Nat) (args : ConfigArgs)
    (calls : List Call) (packetParams : CArray 6) (txLost : Int32) :
    let outcome := session chip polls args calls
      (initialized packetParams txLost)
    ((∀ call ∈ calls, call.KeepsParams args) →
        ReceivesAsConfigured args outcome.2) ∧
      (outcome.1 = some () →
        (ReceivesAsConfigured args outcome.2 ↔
          ∀ call ∈ calls, call.KeepsParams args)) := by
  intro outcome
  obtain ⟨only, each⟩ :=
    session_receiving chip polls args calls packetParams txLost
  have enough : (∀ call ∈ calls, call.KeepsParams args) →
      ReceivesAsConfigured args outcome.2 := by
    intro keeps mode member
    rcases only mode member with configured | sent
    · exact configured
    · obtain ⟨data, isSent, rfl⟩ := sent
      rw [(sendParams_eq_iff args data.length).mpr (keeps _ isSent)]
  refine ⟨enough, fun returned => ⟨fun holds call member => ?_, enough⟩⟩
  cases call with
  | receive len => trivial
  | send data =>
      have same := holds _ (each returned _ ⟨data, member, rfl⟩)
      rw [Call.KeepsParams, ← sendParams_eq_iff]
      apply List.Vector.toList_injective
      simpa using same

/-- A chip that answers from receive mode with `TX_DONE` set, and from transmit
mode for the bytes in which `SetTx` polls it. -/
def answeringChip : Chip where
  reply _ exchange := if 97 ≤ exchange ∧ exchange < 101 then 0x63 else 0x53
  idles _ := true

/-- The parameters that `init_lora_master` and `init_lora_slave` pass. -/
def nodeArgs : ConfigArgs where
  spreadingFactor := 7
  bandwidth := 4
  codingRate := 1
  preambleLength := 8
  payloadLen := 0
  crcOn := true
  invertIrq := false

/-- A time response of 33 bytes leaves a payload limit of 33. -/
theorem receivesAsConfigured_fails :
    ¬ ∀ (chip : Chip) (polls : Nat) (args : ConfigArgs) (calls : List Call)
      (packetParams : CArray 6) (txLost : Int32),
      ReceivesAsConfigured args
        (session chip polls args calls (initialized packetParams txLost)).2 := by
  intro always
  have entered := always answeringChip 1 nodeArgs
    [.send (List.replicate 33 0x02)] (List.Vector.replicate 6 0) 0
    (some [0x8C, 0, 8, 0, 33, 1, 0]) (by decide +kernel)
  exact absurd entered (by decide)

end Radio

end Lora32Mqtt
