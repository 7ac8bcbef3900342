import Lora32Mqtt.Base.Episodes
import Lora32Mqtt.Mqtt.Connection
import Lora32Mqtt.Mqtt.Records
import Lora32Mqtt.Provisioning.StoredConfiguration
import Lora32Mqtt.Provisioning.WebServer
import Lora32Mqtt.Time.SyncTime

/-!
# The master over any number of boots (`app_main`)

`app_main` runs beside the task of the HTTP server, the task that delivers the
events of the Wi-Fi driver and, in the end, `lora_rx_task`.  A restart, at any
moment, clears the RAM and keeps the NVS partition; a failed `ESP_ERROR_CHECK` is
one.  An erase takes effect as a whole.

No lock protects `last_credentials`.  Each `strcpy` of `set_wifi_handler` is a step,
taken when it begins; it is over when the next one is taken, as `connected` comes
last.  A copy of the structure takes from one step to another.
-/

namespace Lora32Mqtt

inductive NvsFlashInit where
  | ok
  | noFreePages
  | newVersionFound
  | otherError
  deriving DecidableEq

/-- The two calls of `nvs_flash_init`, and whether the erase between them succeeds. -/
structure FlashOutcome where
  first : NvsFlashInit
  erases : Bool
  second : NvsFlashInit

structure FlashSetup where
  nvs : Nvs
  erased : Bool
  /-- No `ESP_ERROR_CHECK` has failed. -/
  ready : Bool

/-- `setup_eeprom`, with which `wifi_init` begins as well. -/
def setupEeprom (flash : FlashOutcome) (nvs : Nvs) : FlashSetup :=
  match flash.first with
  | .ok => { nvs := nvs, erased := false, ready := true }
  | .otherError => { nvs := nvs, erased := false, ready := false }
  | .noFreePages | .newVersionFound =>
      if flash.erases then
        { nvs := fun _ => none, erased := true, ready := flash.second = .ok }
      else { nvs := nvs, erased := false, ready := false }

inductive MainPhase where
  | setup
  | choose
  | provision
  /-- In `start_webserver`, with the handlers to be registered. -/
  | register (rest : List HttpdUri)
  /-- In the loop on `wifi_credentials().connected`. -/
  | poll
  | copy
  /-- In the copy, and whether a request has been half stored meanwhile. -/
  | copying (torn : Bool)
  /-- What became of the writes so far; after three, in `esp_restart`. -/
  | save (credentials : WifiCredentials) (outcomes : List Bool)
  | join
  | waitIp
  | sync
  | startMqtt
  | startLora
  | serving

structure Ram (Client : Type) where
  phase : MainPhase
  /-- The handlers of the HTTP server, once it runs. -/
  uris : Option (List HttpdUri)
  lastCredentials : WifiCredentials
  /-- What the request in hand has yet to store. -/
  pending : List CredentialStore
  /-- The request has stored something, and not yet all. -/
  midway : Bool
  /-- `WIFI_CONNECTED_BIT` -/
  connectedBit : Bool
  mqtt : MqttState Client
  /-- `lora_rx_task`, once it has been created. -/
  master : Option MasterState

def freshRam {Client : Type} : Ram Client where
  phase := .setup
  uris := none
  lastCredentials := initialCredentials
  pending := []
  midway := false
  connectedBit := false
  mqtt := noClient
  master := none

structure Firmware (Client : Type) where
  nvs : Nvs
  ram : Ram Client

inductive EspEvent where
  | wifiStaStart
  | wifiStaDisconnected
  | ipStaGotIp
  | other
  deriving DecidableEq

/-- What the surroundings make happen next. -/
inductive FirmwareAction (Client : Type) where
  | restart
  | setupEeprom (flash : FlashOutcome)
  | hasWifiConfigured (opening : NvsOpening) (garbage : Garbage)
  | startWebserver (starts : Bool)
  | registerUri
  | poll
  | beginCopy
  | endCopy (read : WifiCredentials)
  | put (done : Bool)
  | request (request : HttpRequest)
  | store
  | wifiInit (opening : NvsOpening) (flash : FlashOutcome) (garbage : Garbage)
  | wifiEvent (event : EspEvent)
  | waitBits
  | syncTime (time : Nat → Int)
  | mqttInit (library : MqttLibrary Client)
  | initLoraMaster (result : EspErr) (buf : CArray 256)
  | rxTask (env : TaskEnv)

inductive FirmwareEvent (Client : Type) where
  | restarted
  | erased
  /-- `nvs_open` failed, and what was read is not from the partition. -/
  | openFailed
  | requested (request : HttpRequest) (found : HttpdFound)
  /-- The copy of the credentials is mixed up. -/
  | torn
  /-- The three writes of a provisioning, with what became of them. -/
  | saved (credentials : WifiCredentials) (outcomes : List Bool)
  /-- `esp_wifi_start` with this configuration, made of this partition. -/
  | stationStarted (nvs : Nvs) (sta : StaConfig)
  /-- `esp_wifi_connect` -/
  | connects
  | gotIp
  | timeSynced (seconds : Int)
  | mqttStarted (client : Client)
  | loraStarted
  | published (publication : Publication Client)

section Steps

variable {Client : Type}

def FirmwareEvent.isRestart : FirmwareEvent Client → Bool
  | .restarted => true
  | _ => false

/-- The bit and the event that the handler leaves. -/
def wifiEventHandler (event : EspEvent) (connectedBit : Bool) :
    Bool × List (FirmwareEvent Client) :=
  match event with
  | .wifiStaStart => (connectedBit, [.connects])
  | .wifiStaDisconnected => (connectedBit, [.connects])
  | .ipStaGotIp => (true, [.gotIp])
  | .other => (connectedBit, [])

def MainPhase.handlesEvents : MainPhase → Bool
  | .waitIp | .sync | .startMqtt | .startLora | .serving => true
  | _ => false

def FlashSetup.events (setup : FlashSetup) : List (FirmwareEvent Client) :=
  if setup.erased then [.erased] else []

def NvsOpening.events (opening : NvsOpening) : List (FirmwareEvent Client) :=
  if opening.opens then [] else [.openFailed]

def savedEvents (credentials : WifiCredentials) (outcomes : List Bool) :
    List (FirmwareEvent Client) :=
  if outcomes.length = 3 then [.saved credentials outcomes] else []

section Reports

variable {event : FirmwareEvent Client}

theorem FlashSetup.eq_of_mem_events {setup : FlashSetup} (member : event ∈ setup.events) :
    event = .erased ∧ setup.erased = true := by
  rw [FlashSetup.events] at member
  split at member
  next erased => exact ⟨List.mem_singleton.mp member, erased⟩
  next => cases member

theorem NvsOpening.eq_of_mem_events {opening : NvsOpening}
    (member : event ∈ opening.events) : event = .openFailed := by
  rw [NvsOpening.events] at member
  split at member
  · cases member
  · exact List.mem_singleton.mp member

theorem eq_of_mem_savedEvents {credentials : WifiCredentials} {outcomes : List Bool}
    (member : event ∈ savedEvents credentials outcomes) :
    event = .saved credentials outcomes ∧ outcomes.length = 3 := by
  rw [savedEvents] at member
  split at member
  next three => exact ⟨List.mem_singleton.mp member, three⟩
  next => cases member

theorem eq_of_mem_wifiEventHandler {delivered : EspEvent} {connectedBit : Bool}
    (member : event ∈ (wifiEventHandler delivered connectedBit).2) :
    event = .connects ∨ event = .gotIp := by
  cases delivered with
  | wifiStaStart => exact .inl (List.mem_singleton.mp member)
  | wifiStaDisconnected => exact .inl (List.mem_singleton.mp member)
  | ipStaGotIp => exact .inr (List.mem_singleton.mp member)
  | other => cases member

end Reports

/-- A store tears a copy. -/
def MainPhase.disturbed : MainPhase → MainPhase
  | .copying _ => .copying true
  | phase => phase

namespace Firmware

def restart (firmware : Firmware Client) : Firmware Client :=
  { firmware with ram := freshRam }

def proceed (firmware : Firmware Client) (phase : MainPhase) : Firmware Client :=
  { firmware with ram := { firmware.ram with phase := phase } }

/-- The configuration that `wifi_init` makes of what is stored. -/
def station (garbage : Garbage) (nvs : Nvs) : StaConfig :=
  let credentials := loadWifiCredentials garbage nvs
  Lora32Mqtt.wifiInit credentials.ssid credentials.password

/-- The task with its buffer as it finds it; the buffer of the formatter is static. -/
def createMaster (buf : CArray 256) : MasterState :=
  ⟨⟨.receive, buf⟩, List.Vector.replicate timeBufferSize 0⟩

def step (server : HttpServer) (firmware : Firmware Client)
    (action : FirmwareAction Client) :
    Option (Firmware Client × List (FirmwareEvent Client)) :=
  let ram := firmware.ram
  match action, ram.phase with
  | .restart, _ => some (firmware.restart, [.restarted])
  | .setupEeprom flash, .setup =>
      let setup := Lora32Mqtt.setupEeprom flash firmware.nvs
      let firmware := { firmware with nvs := setup.nvs }
      if setup.ready then some (firmware.proceed .choose, setup.events)
      else some (firmware.restart, setup.events ++ [.restarted])
  | .hasWifiConfigured opening garbage, .choose =>
      if Lora32Mqtt.hasWifiConfigured garbage.hasData (opening.seen firmware.nvs) then
        some (firmware.proceed .join, opening.events)
      else some (firmware.proceed .provision, opening.events)
  | .startWebserver starts, .provision =>
      if starts then
        some ({ firmware with
          ram := { ram with phase := .register portalUris, uris := some [] } }, [])
      else some (firmware.proceed .poll, [])
  | .registerUri, .register rest =>
      match rest, ram.uris with
      | uri :: rest, some table =>
          some ({ firmware with
            ram := { ram with
              phase := .register rest
              uris := some (server.register table uri) } }, [])
      -- The handler for error 404 comes last.
      | [], _ => some (firmware.proceed .poll, [])
      | _, none => none
  | .poll, .poll =>
      if ram.lastCredentials.connected then some (firmware.proceed .copy, [])
      else some (firmware, [])
  | .beginCopy, .copy => some (firmware.proceed (.copying ram.midway), [])
  | .endCopy read, .copying torn =>
      if torn then some (firmware.proceed (.save read []), [.torn])
      else some (firmware.proceed (.save ram.lastCredentials []), [])
  | .put done, .save credentials outcomes =>
      let writes :=
        provisionWrites credentials.ssid.toCString credentials.password.toCString
      match writes[outcomes.length]? with
      | none => none
      | some (key, value) =>
          let outcomes := outcomes ++ [done]
          let next := { firmware with nvs := firmware.nvs.attempt done key (some value) }
          some (next.proceed (.save credentials outcomes),
            savedEvents credentials outcomes)
  | .request request, _ =>
      match ram.uris, ram.pending with
      | some table, [] =>
          let found := server.find table request.method request.path
          some ({ firmware with
            ram := { ram with
              pending := found.stores server.httpd request.query
              midway := false } }, [.requested request found])
      | _, _ => none
  | .store, phase =>
      match ram.pending with
      | [] => none
      | store :: rest =>
          some ({ firmware with
            ram := { ram with
              phase := phase.disturbed
              lastCredentials := store.apply ram.lastCredentials
              pending := rest
              midway := !rest.isEmpty } }, [])
  | .wifiInit opening flash garbage, .join =>
      let sta := station garbage (opening.seen firmware.nvs)
      let setup := Lora32Mqtt.setupEeprom flash firmware.nvs
      let next := { firmware with nvs := setup.nvs }
      let events := opening.events ++ setup.events
      if setup.ready then
        some (next.proceed .waitIp, events ++ [.stationStarted firmware.nvs sta])
      else some (next.restart, events ++ [.restarted])
  | .wifiEvent event, phase =>
      if phase.handlesEvents then
        let handled := wifiEventHandler event ram.connectedBit
        some ({ firmware with ram := { ram with connectedBit := handled.1 } }, handled.2)
      else none
  | .waitBits, .waitIp =>
      -- Without the bit the call goes on waiting.
      if ram.connectedBit then some (firmware.proceed .sync, []) else none
  | .syncTime time, .sync =>
      match Lora32Mqtt.syncTime time with
      | .espOk => some (firmware.proceed .startMqtt, [.timeSynced (syncWaits time).now])
      | .espFail => some (firmware.restart, [.restarted])
  | .mqttInit library, .startMqtt =>
      let (result, mqtt) := (Lora32Mqtt.mqttInit library).run ram.mqtt
      let started :=
        (mqtt.started.drop ram.mqtt.started.length).map FirmwareEvent.mqttStarted
      match result with
      | .espOk =>
          some ({ firmware with ram := { ram with phase := .startLora, mqtt } }, started)
      | .espFail => some (firmware.restart, started ++ [.restarted])
  | .initLoraMaster result buf, .startLora =>
      match result with
      | .espOk =>
          some ({ firmware with
            ram := { ram with phase := .serving, master := some (createMaster buf) } },
            [.loraStarted])
      | .espFail => some (firmware.restart, [.restarted])
  | .rxTask env, .serving =>
      match ram.master with
      | none => none
      | some master =>
          let (master, calls) := master.step ram.mqtt.globalClient env
          some ({ firmware with ram := { ram with master := some master } },
            (calls.flatMap PublishState.published).map FirmwareEvent.published)
  | _, _ => none

end Firmware

def firmware (server : HttpServer) :
    Machine (Firmware Client) (FirmwareAction Client) (FirmwareEvent Client) where
  step := Firmware.step server

inductive FirmwareMove (server : HttpServer) (firmware : Firmware Client) :
    Firmware Client × List (FirmwareEvent Client) → Prop where
  | restarts : FirmwareMove server firmware (firmware.restart, [.restarted])
  /-- The flash cannot be used, perhaps after an erase. -/
  | flashFails (opening : NvsOpening) (flash : FlashOutcome) :
      FirmwareMove server firmware
        ({ firmware with nvs := (setupEeprom flash firmware.nvs).nvs }.restart,
          opening.events ++ (setupEeprom flash firmware.nvs).events ++ [.restarted])
  | setsUp (flash : FlashOutcome) (phase : firmware.ram.phase = .setup) :
      FirmwareMove server firmware
        ({ firmware with nvs := (setupEeprom flash firmware.nvs).nvs }.proceed .choose,
          (setupEeprom flash firmware.nvs).events)
  | configured (opening : NvsOpening) (garbage : Garbage)
      (phase : firmware.ram.phase = .choose)
      (flagged : hasWifiConfigured garbage.hasData (opening.seen firmware.nvs) = true) :
      FirmwareMove server firmware (firmware.proceed .join, opening.events)
  | unconfigured (opening : NvsOpening) (garbage : Garbage)
      (phase : firmware.ram.phase = .choose)
      (unflagged : hasWifiConfigured garbage.hasData (opening.seen firmware.nvs) = false) :
      FirmwareMove server firmware (firmware.proceed .provision, opening.events)
  | startsServer (phase : firmware.ram.phase = .provision) :
      FirmwareMove server firmware
        ({ firmware with
          ram := { firmware.ram with phase := .register portalUris, uris := some [] } },
          [])
  | noServer (phase : firmware.ram.phase = .provision) :
      FirmwareMove server firmware (firmware.proceed .poll, [])
  | registers {uri : HttpdUri} {rest table : List HttpdUri}
      (phase : firmware.ram.phase = .register (uri :: rest))
      (running : firmware.ram.uris = some table) :
      FirmwareMove server firmware
        ({ firmware with
          ram := { firmware.ram with
            phase := .register rest
            uris := some (server.register table uri) } }, [])
  | registered (phase : firmware.ram.phase = .register []) :
      FirmwareMove server firmware (firmware.proceed .poll, [])
  | polls : FirmwareMove server firmware (firmware, [])
  | connected (phase : firmware.ram.phase = .poll)
      (isConnected : firmware.ram.lastCredentials.connected = true) :
      FirmwareMove server firmware (firmware.proceed .copy, [])
  | beginsCopy (phase : firmware.ram.phase = .copy) :
      FirmwareMove server firmware
        (firmware.proceed (.copying firmware.ram.midway), [])
  | copies (phase : firmware.ram.phase = .copying false) :
      FirmwareMove server firmware
        (firmware.proceed (.save firmware.ram.lastCredentials []), [])
  | tears (read : WifiCredentials) (phase : firmware.ram.phase = .copying true) :
      FirmwareMove server firmware (firmware.proceed (.save read []), [.torn])
  | puts (done : Bool) {credentials : WifiCredentials} {outcomes : List Bool}
      {key : String} {value : NvsValue}
      (phase : firmware.ram.phase = .save credentials outcomes)
      (write : (provisionWrites credentials.ssid.toCString
        credentials.password.toCString)[outcomes.length]? = some (key, value)) :
      FirmwareMove server firmware
        ({ firmware with nvs := firmware.nvs.attempt done key (some value) }.proceed
            (.save credentials (outcomes ++ [done])),
          savedEvents credentials (outcomes ++ [done]))
  | requests (request : HttpRequest) {table : List HttpdUri}
      (running : firmware.ram.uris = some table) (idle : firmware.ram.pending = []) :
      FirmwareMove server firmware
        ({ firmware with
          ram := { firmware.ram with
            pending := (server.find table request.method request.path).stores
              server.httpd request.query
            midway := false } },
          [.requested request (server.find table request.method request.path)])
  | stores {store : CredentialStore} {rest : List CredentialStore}
      (inHand : firmware.ram.pending = store :: rest) :
      FirmwareMove server firmware
        ({ firmware with
          ram := { firmware.ram with
            phase := firmware.ram.phase.disturbed
            lastCredentials := store.apply firmware.ram.lastCredentials
            pending := rest
            midway := !rest.isEmpty } }, [])
  | joins (opening : NvsOpening) (flash : FlashOutcome) (garbage : Garbage)
      (phase : firmware.ram.phase = .join) :
      FirmwareMove server firmware
        ({ firmware with nvs := (setupEeprom flash firmware.nvs).nvs }.proceed .waitIp,
          opening.events ++ (setupEeprom flash firmware.nvs).events ++
            [.stationStarted firmware.nvs
              (Firmware.station garbage (opening.seen firmware.nvs))])
  | handles (event : EspEvent) (registered : firmware.ram.phase.handlesEvents = true) :
      FirmwareMove server firmware
        ({ firmware with
          ram := { firmware.ram with
            connectedBit :=
              (@wifiEventHandler Client event firmware.ram.connectedBit).1 } },
          (wifiEventHandler event firmware.ram.connectedBit).2)
  | online (phase : firmware.ram.phase = .waitIp)
      (bit : firmware.ram.connectedBit = true) :
      FirmwareMove server firmware (firmware.proceed .sync, [])
  | syncs (time : Nat → Int) (phase : firmware.ram.phase = .sync)
      (ok : syncTime time = .espOk) :
      FirmwareMove server firmware
        (firmware.proceed .startMqtt, [.timeSynced (syncWaits time).now])
  | findsMqtt {client : Client} (phase : firmware.ram.phase = .startMqtt)
      (held : firmware.ram.mqtt.globalClient = some client) :
      FirmwareMove server firmware (firmware.proceed .startLora, [])
  | startsMqtt {client : Client} (phase : firmware.ram.phase = .startMqtt)
      (unset : firmware.ram.mqtt.globalClient = none) :
      FirmwareMove server firmware
        ({ firmware with
          ram := { firmware.ram with
            phase := .startLora
            mqtt := ⟨some client, firmware.ram.mqtt.started ++ [client]⟩ } },
          [.mqttStarted client])
  | startsLora (buf : CArray 256) (phase : firmware.ram.phase = .startLora) :
      FirmwareMove server firmware
        ({ firmware with
          ram := { firmware.ram with
            phase := .serving
            master := some (Firmware.createMaster buf) } }, [.loraStarted])
  | receives (env : TaskEnv) {master : MasterState}
      (phase : firmware.ram.phase = .serving)
      (created : firmware.ram.master = some master) :
      FirmwareMove server firmware
        ({ firmware with
          ram := { firmware.ram with
            master :=
              some (master.step firmware.ram.mqtt.globalClient env).1 } },
          ((master.step firmware.ram.mqtt.globalClient env).2.flatMap
            PublishState.published).map .published)

variable {server : HttpServer} {fw : Firmware Client}
  {outcome : Firmware Client × List (FirmwareEvent Client)}

theorem Firmware.step_move {action : FirmwareAction Client}
    (taken : fw.step server action = some outcome) : FirmwareMove server fw outcome := by
  simp only [step] at taken
  split at taken
  next =>
    obtain rfl := Option.some.inj taken
    exact .restarts
  next flash phase =>
    split at taken
    all_goals obtain rfl := Option.some.inj taken
    · exact .setsUp flash phase
    · exact .flashFails ⟨true, fun _ => none⟩ flash
  next opening garbage phase =>
    split at taken
    all_goals obtain rfl := Option.some.inj taken
    next flagged => exact .configured opening garbage phase flagged
    next unflagged =>
      exact .unconfigured opening garbage phase (Bool.eq_false_iff.mpr unflagged)
  next starts phase =>
    split at taken
    all_goals obtain rfl := Option.some.inj taken
    · exact .startsServer phase
    · exact .noServer phase
  next rest phase =>
    split at taken
    next uri rest table running =>
      obtain rfl := Option.some.inj taken
      exact .registers phase running
    next =>
      obtain rfl := Option.some.inj taken
      exact .registered phase
    next => cases taken
  next phase =>
    split at taken
    all_goals obtain rfl := Option.some.inj taken
    next isConnected => exact .connected phase isConnected
    next => exact .polls
  next phase =>
    obtain rfl := Option.some.inj taken
    exact .beginsCopy phase
  next read torn phase =>
    cases torn with
    | false =>
        obtain rfl := Option.some.inj taken
        exact .copies phase
    | true =>
        obtain rfl := Option.some.inj taken
        exact .tears read phase
  next done credentials outcomes phase =>
    split at taken
    · cases taken
    next key value write =>
      obtain rfl := Option.some.inj taken
      exact .puts done phase write
  next request =>
    split at taken
    next table running idle =>
      obtain rfl := Option.some.inj taken
      exact .requests request running idle
    next => cases taken
  next =>
    split at taken
    · cases taken
    next store rest inHand =>
      obtain rfl := Option.some.inj taken
      exact .stores inHand
  next opening flash garbage phase =>
    split at taken
    all_goals obtain rfl := Option.some.inj taken
    · exact .joins opening flash garbage phase
    · exact .flashFails opening flash
  next event =>
    split at taken
    next registered =>
      obtain rfl := Option.some.inj taken
      exact .handles event registered
    next => cases taken
  next phase =>
    split at taken
    next bit =>
      obtain rfl := Option.some.inj taken
      exact .online phase bit
    next => cases taken
  next time phase =>
    split at taken
    all_goals obtain rfl := Option.some.inj taken
    next ok => exact .syncs time phase ok
    next => exact .restarts
  next library phase =>
    obtain ⟨result, initialised, possible⟩ := mqttInit_outcome library fw.ram.mqtt
    rw [initialised] at taken
    cases possible with
    | again held =>
        simp only [List.drop_length, List.map_nil] at taken
        obtain rfl := Option.some.inj taken
        exact .findsMqtt phase held
    | noHandle unset unmade =>
        simp only [List.drop_length, List.map_nil] at taken
        obtain rfl := Option.some.inj taken
        exact .restarts
    | starts unset made starts =>
        simp only [List.drop_left, List.map_singleton] at taken
        obtain rfl := Option.some.inj taken
        exact .startsMqtt phase unset
    | startFails unset made fails =>
        simp only [List.drop_length, List.map_nil] at taken
        obtain rfl := Option.some.inj taken
        exact .restarts
  next result buf phase =>
    cases result with
    | espOk =>
        obtain rfl := Option.some.inj taken
        exact .startsLora buf phase
    | espFail =>
        obtain rfl := Option.some.inj taken
        exact .restarts
  next env phase =>
    split at taken
    · cases taken
    next master created =>
      obtain rfl := Option.some.inj taken
      exact .receives env phase created
  next => cases taken

/-- `start_webserver` registers its handlers one by one. -/
theorem register_reaches (server : HttpServer) (nvs : Nvs) (ram : Ram Client)
    (uris table : List HttpdUri) :
    (firmware server).Reaches
      ⟨nvs, { ram with phase := .register uris, uris := some table }⟩ []
      ⟨nvs, { ram with
        phase := .poll
        uris := some (uris.foldl server.register table) }⟩ := by
  induction uris generalizing table with
  | nil =>
      exact .step .refl (rfl : (firmware server).step _ .registerUri = some (_, []))
  | cons uri uris induction =>
      have registered := Machine.Reaches.step .refl
        (rfl : (firmware server).step ⟨nvs, { ram with
          phase := .register (uri :: uris)
          uris := some table }⟩ .registerUri = some (_, []))
      exact registered.trans (induction _)

theorem startWebserver_reaches (server : HttpServer) (nvs : Nvs) (ram : Ram Client) :
    (firmware server).Reaches ⟨nvs, { ram with phase := .provision }⟩ []
      ⟨nvs, { ram with phase := .poll, uris := server.startWebserver true }⟩ := by
  have started := Machine.Reaches.step .refl
    (rfl : (firmware server).step ⟨nvs, { ram with phase := .provision }⟩
      (.startWebserver true) = some (_, []))
  exact started.trans (register_reaches server nvs ram portalUris [])

theorem stores_reaches (server : HttpServer) (nvs : Nvs) (ram : Ram Client)
    (still : ram.phase.disturbed = ram.phase) (stores : List CredentialStore)
    (last : WifiCredentials) (midway : Bool) :
    (firmware server).Reaches
      ⟨nvs, { ram with lastCredentials := last, pending := stores, midway := midway }⟩ []
      ⟨nvs, { ram with
        lastCredentials := stores.foldl CredentialStore.apply last
        pending := []
        midway := midway && stores.isEmpty }⟩ := by
  induction stores generalizing last midway with
  | nil =>
      rw [List.isEmpty_nil, Bool.and_true]
      exact .refl
  | cons store rest induction =>
      have stored : (firmware server).step
          ⟨nvs, { ram with
            lastCredentials := last
            pending := store :: rest
            midway := midway }⟩ .store =
          some (⟨nvs, { ram with
            lastCredentials := store.apply last
            pending := rest
            midway := !rest.isEmpty }⟩, []) := by
        simp only [firmware, Firmware.step, still]
      have later := induction (store.apply last) (!rest.isEmpty)
      rw [Bool.not_and_self] at later
      rw [List.isEmpty_cons, Bool.and_false]
      exact (Machine.Reaches.step .refl stored).trans later

/-- A request that is stored without interruption does what `serve` says. -/
theorem request_reaches (server : HttpServer) (nvs : Nvs) {ram : Ram Client}
    {table : List HttpdUri} (request : HttpRequest) (running : ram.uris = some table)
    (idle : ram.pending = []) (still : ram.phase.disturbed = ram.phase) :
    (firmware server).Reaches ⟨nvs, ram⟩
      [.requested request (server.find table request.method request.path)]
      ⟨nvs, { ram with
        lastCredentials := (server.serve table ram.lastCredentials request).1
        pending := []
        midway := false }⟩ := by
  have requested : (firmware server).step ⟨nvs, ram⟩ (.request request) =
      some (⟨nvs, { ram with
        pending := (server.find table request.method request.path).stores
          server.httpd request.query
        midway := false }⟩,
        [.requested request (server.find table request.method request.path)]) := by
    simp only [firmware, Firmware.step, running, idle]
  rw [HttpServer.serve_eq_stores]
  exact (Machine.Reaches.step .refl requested).trans
    (stores_reaches server nvs ram still _ ram.lastCredentials false)

/-- Once something has been submitted it is saved, and the device restarts. -/
theorem save_reaches (server : HttpServer) (nvs : Nvs) {ram : Ram Client}
    (phase : ram.phase = .poll) (connected : ram.lastCredentials.connected = true)
    (midway : ram.midway = false) :
    (firmware server).Reaches ⟨nvs, ram⟩
      [.saved ram.lastCredentials [true, true, true], .restarted]
      ⟨(provision ram.lastCredentials.ssid.toCString ram.lastCredentials.password.toCString
        ⟨nvs, [true, true, true]⟩).2.store, freshRam⟩ := by
  let polled : Firmware Client := ⟨nvs, { ram with phase := .copy }⟩
  have polls : (firmware server).step ⟨nvs, ram⟩ .poll = some (polled, []) := by
    simp only [firmware, Firmware.step, phase, connected, if_true]
    rfl
  have copying := (Machine.Reaches.step .refl polls).step
    (rfl : (firmware server).step polled .beginCopy = some _)
  rw [show polled.ram.midway = false from midway] at copying
  have copied := copying.step
    (rfl : (firmware server).step _ (.endCopy ram.lastCredentials) = some _)
  have first := copied.step (rfl : (firmware server).step _ (.put true) = some _)
  have second := first.step (rfl : (firmware server).step _ (.put true) = some _)
  have third := second.step (rfl : (firmware server).step _ (.put true) = some _)
  exact third.step (rfl : (firmware server).step _ .restart = some _)

end Steps

end Lora32Mqtt
