import Lora32Mqtt.System.Firmware

/-!
# The order of a boot

In each boot the station comes first, then its address, the time, the MQTT client
and the radio, and only then anything is published.  The HTTP server serves requests
in other boots.
-/

namespace Lora32Mqtt

section Startup

variable {Client : Type}

namespace FirmwareEvent

def IsStation (event : FirmwareEvent Client) : Prop :=
  ∃ nvs sta, event = .stationStarted nvs sta

def IsRequest (event : FirmwareEvent Client) : Prop :=
  ∃ request found, event = .requested request found

/-- Neither a restart nor a station nor a request. -/
structure Quiet (event : FirmwareEvent Client) : Prop where
  continues : event.isRestart = false
  noStation : ¬ event.IsStation
  noRequest : ¬ event.IsRequest

def IsTimeSynced (event : FirmwareEvent Client) : Prop :=
  ∃ seconds, event = .timeSynced seconds ∧ clockEpoch ≤ seconds

def IsMqttStarted (client : Option Client) (event : FirmwareEvent Client) : Prop :=
  ∃ started, client = some started ∧ event = .mqttStarted started

end FirmwareEvent

/-- What a boot has to go through, in order, with the client that is held. -/
def services (client : Option Client) : List (FirmwareEvent Client → Prop) :=
  [FirmwareEvent.IsStation, fun event => event = .gotIp, FirmwareEvent.IsTimeSynced,
    FirmwareEvent.IsMqttStarted client, fun event => event = .loraStarted]

def MainPhase.services : MainPhase → Nat
  | .waitIp => 1
  | .sync => 2
  | .startMqtt => 3
  | .startLora => 4
  | .serving => 5
  | _ => 0

/-- The HTTP server may run. -/
def MainPhase.provisions : MainPhase → Bool
  | .register _ | .poll | .copy | .copying _ | .save _ _ => true
  | _ => false

/-- The events of the present boot. -/
def currentBoot (history : List (FirmwareEvent Client)) : List (FirmwareEvent Client) :=
  episode FirmwareEvent.isRestart history

/-- The event comes after all that it needs, in the same boot. -/
def FirmwareEvent.InPlace (past : List (FirmwareEvent Client)) :
    FirmwareEvent Client → Prop
  | .requested _ _ => ∀ event ∈ currentBoot past, ¬ event.IsStation
  | .stationStarted _ _ =>
      ∀ event ∈ currentBoot past, ¬ event.IsStation ∧ ¬ event.IsRequest
  | .connects | .gotIp => InOrder ((services none).take 1) (currentBoot past)
  | .timeSynced _ => InOrder ((services none).take 2) (currentBoot past)
  | .mqttStarted _ => InOrder ((services none).take 3) (currentBoot past)
  | .loraStarted =>
      ∃ client, InOrder ((services (some client)).take 4) (currentBoot past)
  | .published publication =>
      InOrder (services (some publication.client)) (currentBoot past)
  | _ => True

structure BootInvariant (boot : List (FirmwareEvent Client)) (ram : Ram Client) :
    Prop where
  inOrder : InOrder ((services ram.mqtt.globalClient).take ram.phase.services) boot
  bit : ram.connectedBit = true →
    InOrder ((services ram.mqtt.globalClient).take 2) boot
  client : ram.phase.services < 4 → ram.mqtt.globalClient = none
  apart : ram.phase.services = 0 → ∀ event ∈ boot, ¬ event.IsStation
  requests : ram.phase.provisions = false → ∀ event ∈ boot, ¬ event.IsRequest
  server : ram.uris.isSome = true → ram.phase.provisions = true

theorem currentBoot_restarted (history events : List (FirmwareEvent Client)) :
    currentBoot (history ++ (events ++ [.restarted])) = [] := by
  rw [currentBoot, ← List.append_assoc]
  exact episode_of_ends rfl

theorem currentBoot_append {history events : List (FirmwareEvent Client)}
    (continues : ∀ event ∈ events, event.isRestart = false) :
    currentBoot (history ++ events) = currentBoot history ++ events :=
  episode_append continues

theorem currentBoot_concat {history : List (FirmwareEvent Client)}
    {event : FirmwareEvent Client} (continues : event.isRestart = false) :
    currentBoot (history ++ [event]) = currentBoot history ++ [event] :=
  currentBoot_append (by simpa using continues)

theorem FirmwareEvent.quiet (event : FirmwareEvent Client) :
    match event with
    | .restarted | .stationStarted _ _ | .requested _ _ => True
    | _ => event.Quiet := by
  cases event with
  | restarted => trivial
  | stationStarted nvs sta => trivial
  | requested request found => trivial
  | _ => exact ⟨rfl, (fun ⟨_, _, same⟩ => by cases same), fun ⟨_, _, same⟩ => by cases same⟩

theorem FlashSetup.events_quiet (setup : FlashSetup) :
    ∀ event ∈ (setup.events : List (FirmwareEvent Client)), event.Quiet := by
  intro event member
  obtain ⟨rfl, _⟩ := FlashSetup.eq_of_mem_events member
  exact FirmwareEvent.quiet .erased

theorem NvsOpening.events_quiet (opening : NvsOpening) :
    ∀ event ∈ (opening.events : List (FirmwareEvent Client)), event.Quiet := by
  intro event member
  obtain rfl := NvsOpening.eq_of_mem_events member
  exact FirmwareEvent.quiet .openFailed

theorem savedEvents_quiet (credentials : WifiCredentials) (outcomes : List Bool) :
    ∀ event ∈ (savedEvents credentials outcomes : List (FirmwareEvent Client)),
      event.Quiet := by
  intro event member
  obtain ⟨rfl, _⟩ := eq_of_mem_savedEvents member
  exact FirmwareEvent.quiet (.saved credentials outcomes)

/-- What `wifi_init` reports before the station. -/
theorem joining_quiet (opening : NvsOpening) (setup : FlashSetup) :
    ∀ event ∈ (opening.events ++ setup.events : List (FirmwareEvent Client)),
      event.Quiet :=
  List.forall_mem_append.mpr ⟨opening.events_quiet, setup.events_quiet⟩

namespace BootInvariant

variable {history boot : List (FirmwareEvent Client)} {ram : Ram Client}

theorem fresh : BootInvariant ([] : List (FirmwareEvent Client)) freshRam where
  inOrder := .nil
  bit := fun set => by cases set
  client := fun _ => rfl
  apart := fun _ event member => by cases member
  requests := fun _ event member => by cases member
  server := fun running => by cases running

/-- Quiet events, while the phase stays among those without a service. -/
theorem quiet (invariant : BootInvariant (currentBoot history) ram) {later : Ram Client}
    {events : List (FirmwareEvent Client)} (before : ram.phase.services = 0)
    (after : later.phase.services = 0) (mqtt : later.mqtt = ram.mqtt)
    (bit : later.connectedBit = ram.connectedBit)
    (quiet : ∀ event ∈ events, event.Quiet)
    (apart : later.phase.provisions = false → ram.phase.provisions = false)
    (server : later.uris.isSome = true → later.phase.provisions = true) :
    BootInvariant (currentBoot (history ++ events)) later := by
  rw [currentBoot_append fun event member => (quiet event member).continues]
  refine ⟨?_, ?_, ?_, ?_, ?_, server⟩
  · rw [after]
    exact .nil
  · rw [bit, mqtt]
    exact fun set => (invariant.bit set).append
  · rw [mqtt]
    exact fun _ => invariant.client (by omega)
  · exact fun _ => List.forall_mem_append.mpr
      ⟨invariant.apart before, fun event member => (quiet event member).noStation⟩
  · exact fun none => List.forall_mem_append.mpr
      ⟨invariant.requests (apart none), fun event member => (quiet event member).noRequest⟩

theorem no_server (invariant : BootInvariant boot ram)
    (none : ram.phase.provisions = false) {holds : Prop} :
    ram.uris.isSome = true → holds := by
  intro running
  rw [invariant.server running] at none
  cases none

theorem serviceStarts (invariant : BootInvariant boot ram) {later : Ram Client}
    {event : FirmwareEvent Client}
    (inOrder : InOrder ((services later.mqtt.globalClient).take later.phase.services)
      (boot ++ [event]))
    (noRequest : ¬ event.IsRequest) (some : 0 < later.phase.services)
    (bit : later.connectedBit = ram.connectedBit)
    (sameClient : later.mqtt.globalClient = ram.mqtt.globalClient)
    (client : later.phase.services < 4 → ram.mqtt.globalClient = none)
    (uris : later.uris = ram.uris) (none : ram.phase.provisions = false) :
    BootInvariant (boot ++ [event]) later where
  inOrder := inOrder
  bit := by
    rw [bit, sameClient]
    exact fun set => (invariant.bit set).append
  client := by rwa [sameClient]
  apart := fun zero => absurd zero (Nat.ne_of_gt some)
  requests := fun _ => List.forall_mem_append.mpr
    ⟨invariant.requests none, List.forall_mem_singleton.mpr noRequest⟩
  server := by
    rw [uris]
    exact invariant.no_server none

end BootInvariant

theorem MainPhase.services_disturbed (phase : MainPhase) :
    phase.disturbed.services = phase.services := by
  cases phase <;> rfl

theorem MainPhase.provisions_disturbed (phase : MainPhase) :
    phase.disturbed.provisions = phase.provisions := by
  cases phase <;> rfl

theorem MainPhase.services_of_provisions {phase : MainPhase}
    (provisions : phase.provisions = true) : phase.services = 0 := by
  cases phase <;> first | rfl | cases provisions

theorem MainPhase.services_of_handlesEvents {phase : MainPhase}
    (handles : phase.handlesEvents = true) :
    0 < phase.services ∧ phase.provisions = false := by
  cases phase <;> first | exact ⟨by decide, rfl⟩ | cases handles

variable {server : HttpServer} {fw next : Firmware Client}
  {history events : List (FirmwareEvent Client)}

theorem wifiEventHandler_quiet (event : EspEvent) (connectedBit : Bool) :
    ∀ handled ∈ (@wifiEventHandler Client event connectedBit).2, handled.Quiet := by
  intro handled member
  rcases eq_of_mem_wifiEventHandler member with rfl | rfl
  · exact FirmwareEvent.quiet .connects
  · exact FirmwareEvent.quiet .gotIp

theorem published_quiet (publications : List (Publication Client)) :
    ∀ event ∈ publications.map FirmwareEvent.published, event.Quiet := by
  intro event member
  obtain ⟨publication, _, rfl⟩ := List.mem_map.mp member
  exact FirmwareEvent.quiet (.published publication)

theorem BootInvariant.station (invariant : BootInvariant (currentBoot history) fw.ram)
    (registered : fw.ram.phase.handlesEvents = true) :
    InOrder ((services fw.ram.mqtt.globalClient).take 1) (currentBoot history) := by
  have station := invariant.inOrder.take 1
  rwa [List.take_take,
    Nat.min_eq_left (MainPhase.services_of_handlesEvents registered).1] at station

theorem BootInvariant.handles (invariant : BootInvariant (currentBoot history) fw.ram)
    (event : EspEvent) (registered : fw.ram.phase.handlesEvents = true) :
    BootInvariant
      (currentBoot (history ++ (wifiEventHandler event fw.ram.connectedBit).2))
      { fw.ram with
        connectedBit := (@wifiEventHandler Client event fw.ram.connectedBit).1 } := by
  obtain ⟨some, none⟩ := MainPhase.services_of_handlesEvents registered
  have quiet := @wifiEventHandler_quiet Client event fw.ram.connectedBit
  rw [currentBoot_append fun event member => (quiet event member).continues]
  refine ⟨invariant.inOrder.append, ?_, invariant.client,
    fun zero => absurd zero (Nat.ne_of_gt some), fun _ => ?_, invariant.no_server none⟩
  rotate_left
  · exact List.forall_mem_append.mpr
      ⟨invariant.requests none, fun event member => (quiet event member).noRequest⟩
  intro set
  cases event with
  | ipStaGotIp => exact (invariant.station registered).next (by decide : 1 < 5) rfl
  | wifiStaStart => exact (invariant.bit set).append
  | wifiStaDisconnected => exact (invariant.bit set).append
  | other => exact (invariant.bit set).append

theorem BootInvariant.move (invariant : BootInvariant (currentBoot history) fw.ram)
    (move : FirmwareMove server fw (next, events)) :
    BootInvariant (currentBoot (history ++ events)) next.ram := by
  cases move with
  | restarts =>
      have boot : currentBoot (history ++ [.restarted]) = [] :=
        currentBoot_restarted history []
      rw [boot]
      exact fresh
  | flashFails opening flash =>
      rw [currentBoot_restarted]
      exact fresh
  | setsUp flash phase =>
      exact invariant.quiet (by rw [phase]; rfl) rfl rfl rfl (FlashSetup.events_quiet _)
        (fun _ => by rw [phase]; rfl) (invariant.no_server (by rw [phase]; rfl))
  | configured opening garbage phase flagged =>
      exact invariant.quiet (by rw [phase]; rfl) rfl rfl rfl opening.events_quiet
        (fun _ => by rw [phase]; rfl) (invariant.no_server (by rw [phase]; rfl))
  | unconfigured opening garbage phase unflagged =>
      exact invariant.quiet (by rw [phase]; rfl) rfl rfl rfl opening.events_quiet
        (fun _ => by rw [phase]; rfl) (invariant.no_server (by rw [phase]; rfl))
  | startsServer phase =>
      exact invariant.quiet (by rw [phase]; rfl) rfl rfl rfl (List.forall_mem_nil _)
        (fun _ => by rw [phase]; rfl) fun _ => rfl
  | noServer phase =>
      exact invariant.quiet (by rw [phase]; rfl) rfl rfl rfl (List.forall_mem_nil _)
        (fun _ => by rw [phase]; rfl) fun _ => rfl
  | registers phase running =>
      exact invariant.quiet (by rw [phase]; rfl) rfl rfl rfl (List.forall_mem_nil _)
        (fun none => by cases none) fun _ => rfl
  | registered phase =>
      exact invariant.quiet (by rw [phase]; rfl) rfl rfl rfl (List.forall_mem_nil _)
        (fun none => by cases none) fun _ => rfl
  | polls =>
      rw [List.append_nil]
      exact invariant
  | connected phase isConnected =>
      exact invariant.quiet (by rw [phase]; rfl) rfl rfl rfl (List.forall_mem_nil _)
        (fun none => by cases none) fun _ => rfl
  | beginsCopy phase =>
      exact invariant.quiet (by rw [phase]; rfl) rfl rfl rfl (List.forall_mem_nil _)
        (fun none => by cases none) fun _ => rfl
  | copies phase =>
      exact invariant.quiet (by rw [phase]; rfl) rfl rfl rfl (List.forall_mem_nil _)
        (fun none => by cases none) fun _ => rfl
  | tears read phase =>
      exact invariant.quiet (by rw [phase]; rfl) rfl rfl rfl
        (List.forall_mem_singleton.mpr (FirmwareEvent.quiet .torn))
        (fun none => by cases none) fun _ => rfl
  | puts done phase write =>
      exact invariant.quiet (by rw [phase]; rfl) rfl rfl rfl (savedEvents_quiet _ _)
        (fun none => by cases none) fun _ => rfl
  | requests request running idle =>
      have provisions := invariant.server (Option.isSome_iff_exists.mpr ⟨_, running⟩)
      have zero := MainPhase.services_of_provisions provisions
      rw [currentBoot_concat rfl]
      refine ⟨invariant.inOrder.append, fun set => (invariant.bit set).append,
        invariant.client, fun _ => ?_, fun none => ?_, fun _ => provisions⟩
      · exact List.forall_mem_append.mpr ⟨invariant.apart zero,
          List.forall_mem_singleton.mpr fun ⟨_, _, same⟩ => by cases same⟩
      · rw [provisions] at none
        cases none
  | stores inHand =>
      rw [List.append_nil]
      obtain ⟨inOrder, bit, client, apart, requests, server⟩ := invariant
      rw [← MainPhase.services_disturbed] at inOrder client apart
      rw [← MainPhase.provisions_disturbed] at requests server
      exact ⟨inOrder, bit, client, apart, requests, server⟩
  | joins opening flash garbage phase =>
      have before := @joining_quiet Client opening (setupEeprom flash fw.nvs)
      rw [← List.append_assoc, currentBoot_concat rfl]
      have later : BootInvariant _ fw.ram := invariant.quiet (by rw [phase]; rfl)
        (by rw [phase]; rfl) rfl rfl before id invariant.server
      have none := later.inOrder.take 0
      rw [List.take_zero] at none
      exact later.serviceStarts (none.concat ⟨_, _, rfl⟩)
        (fun ⟨_, _, same⟩ => by cases same) (by decide : 0 < 1) rfl rfl
        (fun _ => later.client (by rw [phase]; decide)) rfl (by rw [phase]; rfl)
  | handles event registered => exact invariant.handles event registered
  | online phase bit =>
      rw [List.append_nil]
      exact ⟨invariant.bit bit, invariant.bit,
        fun _ => invariant.client (by rw [phase]; decide),
        fun zero => absurd zero (by decide : 2 ≠ 0),
        fun _ => invariant.requests (by rw [phase]; rfl),
        invariant.no_server (by rw [phase]; rfl)⟩
  | syncs time phase ok =>
      rw [currentBoot_concat rfl]
      obtain ⟨_, now, set⟩ := syncTime_ok ok
      have online := invariant.inOrder
      rw [phase] at online
      exact invariant.serviceStarts
        (online.next (by decide : 2 < 5) ⟨_, rfl, by rw [now]; exact set⟩)
        (fun ⟨_, _, same⟩ => by cases same) (by decide : 0 < 3) rfl rfl
        (fun _ => invariant.client (by rw [phase]; decide)) rfl (by rw [phase]; rfl)
  | findsMqtt phase held =>
      rw [invariant.client (by rw [phase]; decide)] at held
      cases held
  | @startsMqtt client phase unset =>
      rw [currentBoot_concat rfl]
      have synced := invariant.inOrder
      have bit := invariant.bit
      rw [phase, unset] at synced
      rw [unset] at bit
      have known : InOrder ((services (some client)).take 3) (currentBoot history) := synced
      have noRequest := invariant.requests (by rw [phase]; rfl)
      exact ⟨known.next (by decide : 3 < 5) ⟨_, rfl, rfl⟩, fun set => (bit set).append,
        fun less => absurd less (by decide : ¬ 4 < 4),
        fun zero => absurd zero (by decide : 4 ≠ 0),
        fun _ => List.forall_mem_append.mpr ⟨noRequest,
          List.forall_mem_singleton.mpr fun ⟨_, _, same⟩ => by cases same⟩,
        invariant.no_server (by rw [phase]; rfl)⟩
  | startsLora buf phase =>
      rw [currentBoot_concat rfl]
      have started := invariant.inOrder
      rw [phase] at started
      exact invariant.serviceStarts (started.next (by decide : 4 < 5) rfl)
        (fun ⟨_, _, same⟩ => by cases same) (by decide : 0 < 5) rfl rfl
        (fun less => absurd less (by decide : ¬ 5 < 4)) rfl (by rw [phase]; rfl)
  | @receives env master phase created =>
      have quiet := published_quiet
        ((master.step fw.ram.mqtt.globalClient env).2.flatMap PublishState.published)
      rw [currentBoot_append fun event member => (quiet event member).continues]
      refine ⟨invariant.inOrder.append, fun set => (invariant.bit set).append,
        invariant.client, fun zero => ?_, fun none => ?_, invariant.server⟩
      · rw [phase] at zero
        cases zero
      · exact List.forall_mem_append.mpr
          ⟨invariant.requests none, fun event member => (quiet event member).noRequest⟩

theorem MasterState.client_of_published {client : Option Client} {state : MasterState}
    {env : TaskEnv} {publication : Publication Client}
    (member : publication ∈ (state.step client env).2.flatMap PublishState.published) :
    client = some publication.client := by
  rw [state.step_published client env] at member
  cases client with
  | none => cases member
  | some client =>
      obtain ⟨_, _, rfl⟩ := List.mem_map.mp member
      rfl

theorem FlashSetup.events_inPlace (setup : FlashSetup) :
    ∀ event ∈ (setup.events : List (FirmwareEvent Client)), ∀ past, event.InPlace past := by
  intro event member past
  obtain ⟨rfl, _⟩ := FlashSetup.eq_of_mem_events member
  trivial

theorem NvsOpening.events_inPlace (opening : NvsOpening) :
    ∀ event ∈ (opening.events : List (FirmwareEvent Client)),
      ∀ past, event.InPlace past := by
  intro event member past
  obtain rfl := NvsOpening.eq_of_mem_events member
  trivial

theorem savedEvents_inPlace (credentials : WifiCredentials) (outcomes : List Bool) :
    ∀ event ∈ (savedEvents credentials outcomes : List (FirmwareEvent Client)),
      ∀ past, event.InPlace past := by
  intro event member past
  obtain ⟨rfl, _⟩ := eq_of_mem_savedEvents member
  trivial

theorem BootInvariant.published_inPlace
    (invariant : BootInvariant (currentBoot history) fw.ram) {env : TaskEnv}
    {master : MasterState} (phase : fw.ram.phase = .serving) :
    Justified (fun past => FirmwareEvent.InPlace (history ++ past))
      (((master.step fw.ram.mqtt.globalClient env).2.flatMap
        PublishState.published).map FirmwareEvent.published) := by
  intro past event future split
  have quiet := published_quiet
    ((master.step fw.ram.mqtt.globalClient env).2.flatMap PublishState.published)
  have all := invariant.inOrder
  rw [phase] at all
  obtain ⟨publication, made, rfl⟩ := List.mem_map.mp
    (show event ∈ List.map _ _ by rw [split]; simp)
  rw [MasterState.client_of_published made] at all
  rw [split] at quiet
  have before : currentBoot (history ++ past) = currentBoot history ++ past :=
    currentBoot_append fun event member =>
      (quiet event (List.mem_append_left _ member)).continues
  rw [FirmwareEvent.InPlace, before]
  exact all.append

theorem held_of_started {client : Option Client} {boot : List (FirmwareEvent Client)}
    (started : InOrder ((services client).take 4) boot) :
    ∃ held, client = some held := by
  have member : FirmwareEvent.IsMqttStarted client ∈ (services client).take 4 :=
    .tail _ (.tail _ (.tail _ (.head _)))
  obtain ⟨_, _, held, isHeld, _⟩ := started.exists_of_mem member
  exact ⟨held, isHeld⟩

theorem BootInvariant.inPlace (invariant : BootInvariant (currentBoot history) fw.ram)
    (move : FirmwareMove server fw (next, events)) :
    Justified (fun past => FirmwareEvent.InPlace (history ++ past)) events := by
  have single {event : FirmwareEvent Client} (inPlace : event.InPlace history) :
      Justified (fun past => FirmwareEvent.InPlace (history ++ past)) [event] :=
    .cons (by rwa [List.append_nil]) .nil
  cases move with
  | restarts => exact single trivial
  | flashFails opening flash =>
      exact (Justified.of_forall (List.forall_mem_append.mpr
        ⟨opening.events_inPlace, FlashSetup.events_inPlace _⟩)).concat trivial
  | setsUp flash phase => exact .of_forall (FlashSetup.events_inPlace _)
  | configured opening garbage phase flagged => exact .of_forall opening.events_inPlace
  | unconfigured opening garbage phase unflagged =>
      exact .of_forall opening.events_inPlace
  | startsServer phase => exact .nil
  | noServer phase => exact .nil
  | registers phase running => exact .nil
  | registered phase => exact .nil
  | polls => exact .nil
  | connected phase isConnected => exact .nil
  | beginsCopy phase => exact .nil
  | copies phase => exact .nil
  | tears read phase => exact single trivial
  | puts done phase write => exact .of_forall (savedEvents_inPlace _ _)
  | stores inHand => exact .nil
  | online phase bit => exact .nil
  | findsMqtt phase held => exact .nil
  | requests request running idle =>
      have provisions := invariant.server (Option.isSome_iff_exists.mpr ⟨_, running⟩)
      exact single (invariant.apart (MainPhase.services_of_provisions provisions))
  | joins opening flash garbage phase =>
      have quiet := @joining_quiet Client opening (setupEeprom flash fw.nvs)
      refine Justified.concat (.of_forall (List.forall_mem_append.mpr
        ⟨opening.events_inPlace, FlashSetup.events_inPlace _⟩)) ?_
      rw [FirmwareEvent.InPlace,
        currentBoot_append fun event member => (quiet event member).continues]
      have apart := invariant.apart (by rw [phase]; rfl)
      have requests := invariant.requests (by rw [phase]; rfl)
      exact List.forall_mem_append.mpr
        ⟨fun event member => ⟨apart event member, requests event member⟩,
          fun event member => ⟨(quiet event member).noStation,
            (quiet event member).noRequest⟩⟩
  | handles event registered =>
      have station := invariant.station registered
      cases event with
      | wifiStaStart => exact single station
      | wifiStaDisconnected => exact single station
      | ipStaGotIp => exact single station
      | other => exact .nil
  | syncs time phase ok =>
      have online := invariant.inOrder
      rw [phase] at online
      exact single online
  | startsMqtt phase unset =>
      have synced := invariant.inOrder
      rw [phase, unset] at synced
      exact single synced
  | startsLora buf phase =>
      have started := invariant.inOrder
      rw [phase] at started
      obtain ⟨client, held⟩ := held_of_started started
      rw [held] at started
      exact single ⟨client, started⟩
  | receives env phase created => exact invariant.published_inPlace phase

theorem boots_invariant {start : Firmware Client} (fresh : start.ram = freshRam)
    (reached : (firmware server).Reaches start history fw) :
    BootInvariant (currentBoot history) fw.ram ∧
      Justified FirmwareEvent.InPlace history := by
  induction reached with
  | refl =>
      rw [fresh]
      exact ⟨.fresh, .nil⟩
  | step _ taken induction =>
      obtain ⟨invariant, justified⟩ := induction
      have move := Firmware.step_move taken
      exact ⟨invariant.move move, justified.append (invariant.inPlace move)⟩

/-- In every boot of every run, what is published comes after a station, an address,
a clock that shows 2016 or later, the start of the client it goes through and the
radio, in this order; each of these waits for the ones before it; and no boot both
serves a request and starts a station. -/
theorem services_in_order {start : Firmware Client} (fresh : start.ram = freshRam)
    (reached : (firmware server).Reaches start history fw) :
    Justified FirmwareEvent.InPlace history :=
  (boots_invariant fresh reached).2

end Startup

def homeNvs : Nvs :=
  (provision homeSsid homePassword ⟨fun _ => none, [true, true, true]⟩).2.store

def zeroGarbage : Garbage := ⟨0, initialCredentials⟩

def goodFlash : FlashOutcome := ⟨.ok, true, .ok⟩

def goodOpening : NvsOpening := ⟨true, fun _ => none⟩

def setClock (_ : Nat) : Int := 1451617200

theorem syncTime_setClock : syncTime setClock = .espOk :=
  syncTime_eq_espOk Nat.one_pos (by decide) (Int.le_of_eq clockEpoch_eq)

theorem step_syncTime {Client : Type} {server : HttpServer} {fw : Firmware Client}
    {time : Nat → Int} (phase : fw.ram.phase = .sync) (ok : syncTime time = .espOk) :
    (firmware server).step fw (.syncTime time) =
      some (fw.proceed .startMqtt, [.timeSynced (syncWaits time).now]) := by
  simp only [firmware, Firmware.step, phase, ok]

def zeroBuf : CArray 256 := List.Vector.replicate 256 0

theorem secondEnv_publishes :
    ∃ publication, publication ∈
      ((Firmware.createMaster zeroBuf).step (some ()) secondEnv).2.flatMap
        PublishState.published := by
  rw [MasterState.step_published]
  exact ⟨_, List.mem_cons_self⟩

/-- Up to the first stamp of a slave. -/
theorem services_in_order_home :
    ∃ (history : List (FirmwareEvent Unit)) (publication : Publication Unit),
      .published publication ∈ history ∧ Justified FirmwareEvent.InPlace history := by
  let server := HttpServer.exactServer 8
  let start : Firmware Unit := ⟨homeNvs, freshRam⟩
  have setUp := Machine.Reaches.step .refl
    (rfl : (firmware server).step start (.setupEeprom goodFlash) = some _)
  have chosen := setUp.step
    (rfl : (firmware server).step _ (.hasWifiConfigured goodOpening zeroGarbage) = some _)
  have joined := chosen.step
    (rfl : (firmware server).step _ (.wifiInit goodOpening goodFlash zeroGarbage) = some _)
  have started := joined.step
    (rfl : (firmware server).step _ (.wifiEvent .wifiStaStart) = some _)
  have addressed := started.step
    (rfl : (firmware server).step _ (.wifiEvent .ipStaGotIp) = some _)
  have online := addressed.step (rfl : (firmware server).step _ .waitBits = some _)
  have synced := online.step (step_syncTime rfl syncTime_setClock)
  have connected := synced.step
    (rfl : (firmware server).step _ (.mqttInit startingLibrary) = some _)
  have listening := connected.step
    (rfl : (firmware server).step _ (.initLoraMaster .espOk zeroBuf) = some _)
  have received := listening.step
    (rfl : (firmware server).step _ (.rxTask secondEnv) = some _)
  obtain ⟨publication, made⟩ := secondEnv_publishes
  exact ⟨_, publication, List.mem_append_right _ (List.mem_map_of_mem made),
    services_in_order rfl received⟩

end Lora32Mqtt
