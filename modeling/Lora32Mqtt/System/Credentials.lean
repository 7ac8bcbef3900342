import Lora32Mqtt.System.Startup

/-!
# Where a station gets its credentials

The credentials of a station have a history: requests of one boot, a copy, three
writes, and a load in a later boot.  Unless something goes wrong on the way they come
from the requests of one boot, and once they are written they are the credentials of
every later boot.
-/

namespace Lora32Mqtt

section Credentials

variable {Client : Type} {httpd : Httpd} {history events : List (FirmwareEvent Client)}
  {credentials : WifiCredentials}

def FirmwareEvent.submitted : FirmwareEvent Client → List Request
  | .requested request (.handler .setWifi) => [request.query]
  | _ => []

def submissions (history : List (FirmwareEvent Client)) : List Request :=
  history.flatMap FirmwareEvent.submitted

/-- The credentials after the first of these submissions, in one boot. -/
def MadeOf (httpd : Httpd) (boot : List (FirmwareEvent Client))
    (credentials : WifiCredentials) : Prop :=
  ∃ requests, requests <+: submissions boot ∧
    (credentialsPage httpd).Reaches initialCredentials requests credentials

/-- The credentials, complete, went into a provisioning. -/
def Saved (httpd : Httpd) (history : List (FirmwareEvent Client))
    (credentials : WifiCredentials) : Prop :=
  credentials.connected = true ∧
    ∃ past outcomes future, history = past ++ .saved credentials outcomes :: future ∧
      MadeOf httpd (currentBoot past) credentials

/-- The flag with the two strings of the credentials. -/
structure Stores (nvs : Nvs) (credentials : WifiCredentials) : Prop where
  flag : Configured nvs
  ssid : nvs "ssid" = some (.str credentials.ssid.toCString)
  password : nvs "password" = some (.str credentials.password.toCString)

/-- `nvs_open` does not fail, no copy is torn, and a provisioning that sets the flag
has written both strings. -/
structure FirmwareEvent.Sound (event : FirmwareEvent Client) : Prop where
  opens : event ≠ .openFailed
  untorn : event ≠ .torn
  flagLast : ∀ credentials outcomes, event = .saved credentials outcomes →
    took outcomes 2 = true → took outcomes 0 = true ∧ took outcomes 1 = true

/-- A station of a boot that found the flag has the credentials of a provisioning;
if all requests are well formed, these are those of a single one. -/
def FirmwareEvent.Sourced (httpd : Httpd) (past : List (FirmwareEvent Client)) :
    FirmwareEvent Client → Prop
  | .stationStarted nvs sta =>
      Configured nvs → ∃ credentials, Saved httpd past credentials ∧
        sta = wifiInit credentials.ssid credentials.password ∧
        ((∀ request ∈ submissions past, WellFormed httpd request) →
          FromOneRequest httpd (submissions past) credentials)
  | _ => True

theorem submissions_append :
    submissions (history ++ events) = submissions history ++ submissions events :=
  List.flatMap_append

theorem MadeOf.append (made : MadeOf httpd history credentials) :
    MadeOf httpd (history ++ events) credentials := by
  obtain ⟨requests, first, reached⟩ := made
  rw [MadeOf, submissions_append]
  exact ⟨requests, first.trans (List.prefix_append _ _), reached⟩

theorem Saved.append (saved : Saved httpd history credentials) :
    Saved httpd (history ++ events) credentials := by
  obtain ⟨connected, past, outcomes, future, rfl, made⟩ := saved
  refine ⟨connected, past, outcomes, future ++ events, ?_, made⟩
  rw [List.append_assoc, List.cons_append]

theorem FromOneRequest.mono {requests later : List Request}
    (single : FromOneRequest httpd requests credentials) (grow : requests ⊆ later) :
    FromOneRequest httpd later credentials := by
  intro connected
  obtain ⟨nonempty, request, member, isOf⟩ := single connected
  exact ⟨nonempty, request, grow member, isOf⟩

/-- Well-formed requests leave the credentials of one of them. -/
theorem fromOneRequest_of_reaches {requests : List Request}
    (reached : (credentialsPage httpd).Reaches initialCredentials requests credentials)
    (wellFormed : ∀ request ∈ requests, WellFormed httpd request) :
    FromOneRequest httpd requests credentials := by
  refine reached.invariantOfEvents _ (FromOneRequest httpd)
    (fun connected => absurd connected (by decide)) ?_ wellFormed
  intro requests last request next added _ before taken good
  obtain ⟨rfl, rfl⟩ := Prod.mk.inj (Option.some.inj taken)
  exact (good _ (List.mem_singleton_self _)).fromOneRequest before

theorem Saved.fromOneRequest (saved : Saved httpd history credentials)
    (wellFormed : ∀ request ∈ submissions history, WellFormed httpd request) :
    FromOneRequest httpd (submissions history) credentials := by
  obtain ⟨_, past, outcomes, future, rfl, requests, first, reached⟩ := saved
  have inBoot : submissions (currentBoot past) ⊆ submissions past := by
    obtain ⟨before, split⟩ := @episode_suffix _ FirmwareEvent.isRestart past
    have whole : submissions past =
        submissions before ++ submissions (currentBoot past) := by
      rw [← submissions_append, currentBoot, split]
    rw [whole]
    exact List.subset_append_right _ _
  have all : requests ⊆
      submissions (past ++ .saved credentials outcomes :: future) := by
    rw [submissions_append]
    exact List.Subset.trans (List.Subset.trans first.subset inBoot)
      (List.subset_append_left _ _)
  exact (fromOneRequest_of_reaches reached fun request member =>
    wellFormed request (all member)).mono all

theorem setupEeprom_nvs (flash : FlashOutcome) (nvs : Nvs) :
    (setupEeprom flash nvs).erased = false ∧ (setupEeprom flash nvs).nvs = nvs ∨
      (setupEeprom flash nvs).erased = true ∧
        (setupEeprom flash nvs).nvs = fun _ => none := by
  rw [setupEeprom]
  split
  · exact Or.inl ⟨rfl, rfl⟩
  · exact Or.inl ⟨rfl, rfl⟩
  all_goals
    split
    · exact Or.inr ⟨rfl, rfl⟩
    · exact Or.inl ⟨rfl, rfl⟩

theorem setupEeprom_configured {flash : FlashOutcome} {nvs : Nvs}
    (configured : Configured (setupEeprom flash nvs).nvs) :
    (setupEeprom flash nvs).nvs = nvs := by
  rcases setupEeprom_nvs flash nvs with ⟨_, same⟩ | ⟨_, blank⟩
  · exact same
  · rw [blank] at configured
    cases configured

theorem Stores.provision {nvs : Nvs} {outcomes : List Bool}
    (ssidTook : took outcomes 0 = true) (passwordTook : took outcomes 1 = true)
    (flagTook : took outcomes 2 = true) :
    Stores (Lora32Mqtt.provision credentials.ssid.toCString
      credentials.password.toCString ⟨nvs, outcomes⟩).2.store credentials := by
  obtain ⟨ssidEq, passwordEq, flagEq⟩ := provision_lookup nvs
    credentials.ssid.toCString credentials.password.toCString outcomes
  exact ⟨flagEq.trans (if_pos flagTook), ssidEq.trans (if_pos ssidTook),
    passwordEq.trans (if_pos passwordTook)⟩

/-- Only the last write sets the flag. -/
theorem configured_of_put {nvs : Nvs} {ssid password : CString} {outcomes : List Bool}
    {key : String} {value : NvsValue} {done : Bool} (unconfigured : ¬ Configured nvs)
    (write : (provisionWrites ssid password)[outcomes.length]? = some (key, value))
    (configured : Configured (nvs.attempt done key (some value))) :
    outcomes.length = 2 ∧ took (outcomes ++ [done]) 2 = true := by
  rcases outcomes with _ | ⟨first, _ | ⟨second, _ | ⟨third, rest⟩⟩⟩
  · cases write
    rw [Configured, Store.attempt_other _ _ _ _ (by decide)] at configured
    exact absurd configured unconfigured
  · cases write
    rw [Configured, Store.attempt_other _ _ _ _ (by decide)] at configured
    exact absurd configured unconfigured
  · cases write
    refine ⟨rfl, ?_⟩
    cases done with
    | true => rfl
    | false => exact absurd configured unconfigured
  · cases write

theorem Stores.station {nvs : Nvs} (stores : Stores nvs credentials) (garbage : Garbage) :
    Firmware.station garbage nvs = wifiInit credentials.ssid credentials.password := by
  simp only [Firmware.station, loadWifiCredentials, nvsGetStr_of_stored stores.ssid,
    nvsGetStr_of_stored stores.password, Option.getD_some]

theorem hasWifiConfigured_of_configured {nvs : Nvs} (configured : Configured nvs)
    (garbage : UInt8) : hasWifiConfigured garbage nvs = true := by
  rw [hasWifiConfigured, configured]
  rfl

/-- The credentials that are left when the request in hand is stored, and now. -/
structure Handled (httpd : Httpd) (boot : List (FirmwareEvent Client))
    (ram : Ram Client) : Prop where
  settles : (credentialsPage httpd).Reaches initialCredentials (submissions boot)
    (ram.pending.foldl CredentialStore.apply ram.lastCredentials)
  whole : ram.midway = false → MadeOf httpd boot ram.lastCredentials

namespace Handled

variable {boot : List (FirmwareEvent Client)} {ram later : Ram Client}

theorem fresh : Handled httpd ([] : List (FirmwareEvent Client)) freshRam where
  settles := .refl
  whole := fun _ => ⟨[], List.prefix_rfl, .refl⟩

theorem append (handled : Handled httpd boot ram) (silent : submissions events = [])
    (last : later.lastCredentials = ram.lastCredentials)
    (pending : later.pending = ram.pending) (midway : later.midway = ram.midway) :
    Handled httpd (boot ++ events) later where
  settles := by
    rw [submissions_append, silent, List.append_nil, last, pending]
    exact handled.settles
  whole := by
    rw [last, midway]
    exact fun whole => (handled.whole whole).append

/-- A request has stored nothing yet when its handler begins. -/
theorem requested (handled : Handled httpd boot ram) (idle : ram.pending = [])
    (request : HttpRequest) (found : HttpdFound) :
    Handled httpd (boot ++ [.requested request found])
      { ram with pending := found.stores httpd request.query, midway := false } := by
  have settled := handled.settles
  rw [idle, List.foldl_nil] at settled
  have stored : (credentialsPage httpd).Reaches ram.lastCredentials
      (submissions ([.requested request found] : List (FirmwareEvent Client)))
      ((found.stores httpd request.query).foldl CredentialStore.apply
        ram.lastCredentials) := by
    cases found with
    | notFound => exact .refl
    | otherError => exact .refl
    | handler handler =>
        cases handler with
        | connectTest => exact .refl
        | redirect => exact .refl
        | root => exact .refl
        | setWifi =>
            have one : submissions ([.requested request (.handler .setWifi)] :
                List (FirmwareEvent Client)) = [request.query] := rfl
            have stores : HttpdFound.stores httpd request.query (.handler .setWifi) =
                setWifiStores httpd request.query := rfl
            rw [one, stores, foldl_setWifiStores]
            have taken : (credentialsPage httpd).step ram.lastCredentials request.query =
                some (setWifiHandler httpd ram.lastCredentials request.query,
                  [request.query]) := rfl
            exact .step .refl taken
  refine ⟨?_, fun _ => MadeOf.append ⟨_, List.prefix_rfl, settled⟩⟩
  rw [submissions_append]
  exact settled.trans stored

theorem stored (handled : Handled httpd boot ram) {store : CredentialStore}
    {rest : List CredentialStore} (inHand : ram.pending = store :: rest)
    (last : later.lastCredentials = store.apply ram.lastCredentials)
    (pending : later.pending = rest) (midway : later.midway = !rest.isEmpty) :
    Handled httpd boot later := by
  have settles := handled.settles
  rw [inHand, List.foldl_cons, ← last, ← pending] at settles
  refine ⟨settles, fun whole => ?_⟩
  rw [midway, Bool.not_eq_false', List.isEmpty_iff, ← pending] at whole
  rw [whole, List.foldl_nil] at settles
  exact ⟨_, List.prefix_rfl, settles⟩

end Handled

/-- The boot has not found the flag, and has not tried to set it. -/
def MainPhase.unconfigured : MainPhase → Bool
  | .provision | .register _ | .poll | .copy | .copying _ => true
  | .save _ outcomes => outcomes.length < 3
  | _ => false

/-- What is known of the credentials from when the loop has seen `connected`. -/
def MainPhase.Known (httpd : Httpd) (boot : List (FirmwareEvent Client))
    (last : WifiCredentials) : MainPhase → Prop
  | .copy => last.connected = true
  | .copying torn => last.connected = true ∧ (torn = false → MadeOf httpd boot last)
  | .save credentials _ => credentials.connected = true ∧ MadeOf httpd boot credentials
  | _ => True

def MainPhase.Written (nvs : Nvs) : MainPhase → Prop
  | .save credentials outcomes =>
      ∃ found, nvs = (Lora32Mqtt.provision credentials.ssid.toCString
        credentials.password.toCString ⟨found, outcomes⟩).2.store
  | _ => True

theorem MainPhase.Known.append {last : WifiCredentials} {phase : MainPhase}
    {boot : List (FirmwareEvent Client)} (known : phase.Known httpd boot last) :
    phase.Known httpd (boot ++ events) last := by
  cases phase with
  | copying torn => exact ⟨known.1, fun whole => (known.2 whole).append⟩
  | save credentials outcomes => exact ⟨known.1, known.2.append⟩
  | copy => exact known
  | _ => trivial

theorem MainPhase.Known.disturbed {last : WifiCredentials} {phase : MainPhase}
    {boot : List (FirmwareEvent Client)} (known : phase.Known httpd boot last)
    (store : CredentialStore) :
    phase.disturbed.Known httpd boot (store.apply last) := by
  cases phase with
  | copying torn => exact ⟨store.apply_connected known.1, fun whole => by cases whole⟩
  | save credentials outcomes => exact known
  | copy => exact store.apply_connected known
  | _ => trivial

theorem MainPhase.known_of_handlesEvents {phase : MainPhase} {last : WifiCredentials}
    {boot : List (FirmwareEvent Client)} (handles : phase.handlesEvents = true) :
    phase.unconfigured = false ∧ phase.Known httpd boot last := by
  cases phase <;> first | exact ⟨rfl, trivial⟩ | cases handles

theorem MainPhase.unconfigured_disturbed (phase : MainPhase) :
    phase.disturbed.unconfigured = phase.unconfigured := by
  cases phase <;> rfl

theorem MainPhase.Written.disturbed {phase : MainPhase} {nvs : Nvs}
    (written : phase.Written nvs) : phase.disturbed.Written nvs := by
  cases phase with
  | copying torn => trivial
  | _ => exact written

theorem FirmwareEvent.Quiet.submitted {event : FirmwareEvent Client}
    (quiet : event.Quiet) : event.submitted = [] := by
  cases event with
  | requested request found => exact absurd ⟨request, found, rfl⟩ quiet.noRequest
  | _ => rfl

theorem submissions_quiet (quiet : ∀ event ∈ events, event.Quiet) :
    submissions events = [] :=
  List.flatMap_eq_nil_iff.mpr fun event member => (quiet event member).submitted

structure Provenance (httpd : Httpd) (history : List (FirmwareEvent Client))
    (fw : Firmware Client) : Prop where
  handled : Handled httpd (currentBoot history) fw.ram
  known : fw.ram.phase.Known httpd (currentBoot history) fw.ram.lastCredentials
  unconfigured : fw.ram.phase.unconfigured = true → ¬ Configured fw.nvs
  stored : Configured fw.nvs →
    ∃ credentials, Saved httpd history credentials ∧ Stores fw.nvs credentials

variable {server : HttpServer} {fw next : Firmware Client}

namespace Provenance

theorem fresh {nvs : Nvs}
    (stored : Configured nvs →
      ∃ credentials, Saved httpd history credentials ∧ Stores nvs credentials)
    (boot : currentBoot history = []) : Provenance httpd history ⟨nvs, freshRam⟩ where
  handled := by
    rw [boot]
    exact .fresh
  known := trivial
  unconfigured := fun choice => by cases choice
  stored := stored

theorem stored_append (provenance : Provenance httpd history fw) {nvs : Nvs}
    (kept : Configured nvs → nvs = fw.nvs) (configured : Configured nvs) :
    ∃ credentials, Saved httpd (history ++ events) credentials ∧
      Stores nvs credentials := by
  have same := kept configured
  rw [same] at configured ⊢
  obtain ⟨credentials, saved, stores⟩ := provenance.stored configured
  exact ⟨credentials, saved.append, stores⟩

theorem restarted (provenance : Provenance httpd history fw) {nvs : Nvs}
    (events : List (FirmwareEvent Client)) (kept : Configured nvs → nvs = fw.nvs) :
    Provenance httpd (history ++ (events ++ [.restarted])) ⟨nvs, freshRam⟩ :=
  .fresh (provenance.stored_append kept) (currentBoot_restarted history events)

theorem advance (provenance : Provenance httpd history fw)
    (continues : ∀ event ∈ events, event.isRestart = false)
    (silent : submissions events = [])
    (last : next.ram.lastCredentials = fw.ram.lastCredentials)
    (pending : next.ram.pending = fw.ram.pending)
    (midway : next.ram.midway = fw.ram.midway)
    (kept : Configured next.nvs → next.nvs = fw.nvs)
    (known : next.ram.phase.Known httpd (currentBoot history) fw.ram.lastCredentials)
    (unconfigured : next.ram.phase.unconfigured = true → ¬ Configured next.nvs) :
    Provenance httpd (history ++ events) next := by
  have boot : currentBoot (history ++ events) = currentBoot history ++ events :=
    currentBoot_append continues
  refine ⟨?_, ?_, unconfigured, provenance.stored_append kept⟩
  · rw [boot]
    exact provenance.handled.append silent last pending midway
  · rw [boot, last]
    exact known.append

theorem quiet (provenance : Provenance httpd history fw) {ram : Ram Client}
    (quiet : ∀ event ∈ events, event.Quiet)
    (last : ram.lastCredentials = fw.ram.lastCredentials)
    (pending : ram.pending = fw.ram.pending) (midway : ram.midway = fw.ram.midway)
    (known : ram.phase.Known httpd (currentBoot history) fw.ram.lastCredentials)
    (unconfigured : ram.phase.unconfigured = true → ¬ Configured fw.nvs) :
    Provenance httpd (history ++ events) { fw with ram := ram } :=
  provenance.advance (fun event member => (quiet event member).continues)
    (submissions_quiet quiet) last pending midway (fun _ => rfl) known unconfigured

theorem silent (provenance : Provenance httpd history fw) {ram : Ram Client}
    (last : ram.lastCredentials = fw.ram.lastCredentials)
    (pending : ram.pending = fw.ram.pending) (midway : ram.midway = fw.ram.midway)
    (known : ram.phase.Known httpd (currentBoot history) fw.ram.lastCredentials)
    (unconfigured : ram.phase.unconfigured = true → ¬ Configured fw.nvs) :
    Provenance httpd (history ++ []) { fw with ram := ram } :=
  provenance.quiet (List.forall_mem_nil _) last pending midway known unconfigured

end Provenance

theorem NvsOpening.seen_of_opens {opening : NvsOpening} {nvs : Nvs}
    (opened : .openFailed ∉ (opening.events : List (FirmwareEvent Client))) :
    opening.seen nvs = nvs := by
  cases opens : opening.opens with
  | true => rw [seen, if_pos opens]
  | false =>
      refine absurd ?_ opened
      rw [events, opens]
      exact List.mem_singleton_self _

theorem MainPhase.Written.move (written : fw.ram.phase.Written fw.nvs)
    (move : FirmwareMove server fw (next, events)) : next.ram.phase.Written next.nvs := by
  cases move with
  | polls => exact written
  | copies phase => exact ⟨fw.nvs, rfl⟩
  | tears read phase => exact ⟨fw.nvs, rfl⟩
  | puts done phase write =>
      rw [phase] at written
      obtain ⟨found, same⟩ := written
      refine ⟨found, ?_⟩
      rw [provision_concat done write, ← same]
      rfl
  | requests request running idle => exact written
  | stores inHand => exact written.disturbed
  | handles event registered => exact written
  | receives env phase created => exact written
  | _ => trivial

/-- A write of a provisioning; with the last one the credentials are stored. -/
theorem Provenance.puts (provenance : Provenance httpd history fw)
    {outcomes : List Bool} {key : String} {value : NvsValue} {done : Bool}
    (phase : fw.ram.phase = .save credentials outcomes)
    (write : (provisionWrites credentials.ssid.toCString
      credentials.password.toCString)[outcomes.length]? = some (key, value))
    (written : fw.ram.phase.Written fw.nvs)
    (sound : ∀ event ∈
      (savedEvents credentials (outcomes ++ [done]) : List (FirmwareEvent Client)),
        event.Sound) :
    Provenance httpd (history ++ savedEvents credentials (outcomes ++ [done]))
      ({ fw with nvs := fw.nvs.attempt done key (some value) }.proceed
        (.save credentials (outcomes ++ [done]))) := by
  have known := provenance.known
  rw [phase] at known written
  obtain ⟨connected, made⟩ := known
  obtain ⟨found, same⟩ := written
  have few : outcomes.length < 3 := (List.getElem?_eq_some_iff.mp write).1
  have blank := provenance.unconfigured (by rw [phase]; exact decide_eq_true few)
  have quiet := @savedEvents_quiet Client credentials (outcomes ++ [done])
  have boot : currentBoot (history ++ savedEvents credentials (outcomes ++ [done])) =
      currentBoot history ++ savedEvents credentials (outcomes ++ [done]) :=
    currentBoot_append fun event member => (quiet event member).continues
  refine ⟨?_, ?_, fun more configured => ?_, fun configured => ?_⟩
  · rw [boot]
    exact provenance.handled.append (submissions_quiet quiet) rfl rfl rfl
  · rw [boot]
    exact ⟨connected, made.append⟩
  · obtain ⟨two, _⟩ := configured_of_put blank write configured
    have less := of_decide_eq_true more
    rw [List.length_append, List.length_singleton] at less
    omega
  · obtain ⟨two, flagTook⟩ := configured_of_put blank write configured
    have last : (savedEvents credentials (outcomes ++ [done]) :
        List (FirmwareEvent Client)) = [.saved credentials (outcomes ++ [done])] := by
      rw [savedEvents, List.length_append, two]
      rfl
    rw [last] at sound ⊢
    obtain ⟨ssidTook, passwordTook⟩ :=
      (sound _ (List.mem_singleton_self _)).flagLast _ _ rfl flagTook
    have stores := @Stores.provision credentials found _ ssidTook passwordTook flagTook
    rw [provision_concat done write, ← same] at stores
    exact ⟨credentials, ⟨connected, history, _, [], rfl, made⟩, stores⟩

theorem Provenance.requests (provenance : Provenance httpd history fw)
    (idle : fw.ram.pending = []) (request : HttpRequest) (found : HttpdFound) :
    Provenance httpd (history ++ [.requested request found])
      { fw with
        ram := { fw.ram with
          pending := found.stores httpd request.query
          midway := false } } := by
  have boot : currentBoot (history ++ [.requested request found]) =
      currentBoot history ++ [.requested request found] := currentBoot_concat rfl
  refine ⟨?_, ?_, provenance.unconfigured, provenance.stored_append fun _ => rfl⟩
  · rw [boot]
    exact provenance.handled.requested idle request found
  · rw [boot]
    exact provenance.known.append

theorem Provenance.move (provenance : Provenance server.httpd history fw)
    (written : fw.ram.phase.Written fw.nvs) (move : FirmwareMove server fw (next, events))
    (sound : ∀ event ∈ events, event.Sound) :
    Provenance server.httpd (history ++ events) next := by
  cases move with
  | restarts => exact provenance.restarted [] fun _ => rfl
  | flashFails opening flash => exact provenance.restarted _ setupEeprom_configured
  | setsUp flash phase =>
      have quiet := @FlashSetup.events_quiet Client (setupEeprom flash fw.nvs)
      exact provenance.advance (fun event member => (quiet event member).continues)
        (submissions_quiet quiet) rfl rfl rfl setupEeprom_configured trivial
        fun choice => by cases choice
  | configured opening garbage phase flagged =>
      exact provenance.quiet opening.events_quiet rfl rfl rfl trivial
        fun choice => by cases choice
  | unconfigured opening garbage phase unflagged =>
      refine provenance.quiet opening.events_quiet rfl rfl rfl trivial
        fun _ configured => ?_
      rw [opening.seen_of_opens fun failed => (sound _ failed).opens rfl,
        hasWifiConfigured_of_configured configured] at unflagged
      cases unflagged
  | startsServer phase =>
      exact provenance.silent rfl rfl rfl trivial fun _ =>
        provenance.unconfigured (by rw [phase]; rfl)
  | noServer phase =>
      exact provenance.silent rfl rfl rfl trivial fun _ =>
        provenance.unconfigured (by rw [phase]; rfl)
  | registers phase running =>
      exact provenance.silent rfl rfl rfl trivial fun _ =>
        provenance.unconfigured (by rw [phase]; rfl)
  | registered phase =>
      exact provenance.silent rfl rfl rfl trivial fun _ =>
        provenance.unconfigured (by rw [phase]; rfl)
  | polls =>
      rw [List.append_nil]
      exact provenance
  | connected phase isConnected =>
      exact provenance.silent rfl rfl rfl isConnected fun _ =>
        provenance.unconfigured (by rw [phase]; rfl)
  | beginsCopy phase =>
      have connected := provenance.known
      rw [phase] at connected
      exact provenance.silent rfl rfl rfl ⟨connected, provenance.handled.whole⟩ fun _ =>
        provenance.unconfigured (by rw [phase]; rfl)
  | copies phase =>
      have known := provenance.known
      rw [phase] at known
      exact provenance.silent rfl rfl rfl ⟨known.1, known.2 rfl⟩ fun _ =>
        provenance.unconfigured (by rw [phase]; rfl)
  | tears read phase => exact absurd rfl (sound _ (List.mem_singleton_self _)).untorn
  | puts done phase write => exact provenance.puts phase write written sound
  | requests request running idle => exact provenance.requests idle request _
  | stores inHand =>
      rw [List.append_nil]
      refine ⟨provenance.handled.stored inHand rfl rfl rfl,
        provenance.known.disturbed _, fun choice => ?_, provenance.stored⟩
      exact provenance.unconfigured (by rwa [← MainPhase.unconfigured_disturbed])
  | joins opening flash garbage phase =>
      have quiet := @joining_quiet Client opening (setupEeprom flash fw.nvs)
      refine provenance.advance (List.forall_mem_append.mpr ⟨fun event member =>
        (quiet event member).continues, List.forall_mem_singleton.mpr rfl⟩) ?_ rfl rfl rfl
          setupEeprom_configured trivial fun choice => by cases choice
      rw [submissions_append, submissions_quiet quiet]
      rfl
  | handles event registered =>
      obtain ⟨configured, known⟩ := MainPhase.known_of_handlesEvents registered
      refine provenance.quiet (wifiEventHandler_quiet event _) rfl rfl rfl known
        fun choice => ?_
      rw [configured] at choice
      cases choice
  | online phase bit =>
      exact provenance.silent rfl rfl rfl trivial fun choice => by cases choice
  | syncs time phase ok =>
      exact provenance.advance (List.forall_mem_singleton.mpr rfl) rfl rfl rfl rfl
        (fun _ => rfl) trivial fun choice => by cases choice
  | findsMqtt phase held =>
      exact provenance.silent rfl rfl rfl trivial fun choice => by cases choice
  | startsMqtt phase unset =>
      exact provenance.advance (List.forall_mem_singleton.mpr rfl) rfl rfl rfl rfl
        (fun _ => rfl) trivial fun choice => by cases choice
  | startsLora buf phase =>
      exact provenance.advance (List.forall_mem_singleton.mpr rfl) rfl rfl rfl rfl
        (fun _ => rfl) trivial fun choice => by cases choice
  | receives env phase created =>
      refine provenance.quiet (published_quiet _) rfl rfl rfl ?_ fun choice => ?_
      · rw [phase]
        trivial
      · rw [phase] at choice
        cases choice

/-- A station is started with what the partition holds, if it could be opened. -/
theorem FirmwareMove.of_station (move : FirmwareMove server fw (next, events))
    {nvs : Nvs} {sta : StaConfig} (member : .stationStarted nvs sta ∈ events)
    (opened : .openFailed ∉ events) :
    ∃ garbage, nvs = fw.nvs ∧ sta = Firmware.station garbage fw.nvs := by
  have isStation : (.stationStarted nvs sta : FirmwareEvent Client).IsStation :=
    ⟨nvs, sta, rfl⟩
  cases move with
  | joins opening flash garbage phase =>
      have seen : opening.seen fw.nvs = fw.nvs := opening.seen_of_opens fun failed =>
        opened (List.mem_append_left _ (List.mem_append_left _ failed))
      rcases List.mem_append.mp member with early | last
      · exact absurd isStation (joining_quiet _ _ _ early).noStation
      · rw [seen] at last
        exact ⟨garbage, FirmwareEvent.stationStarted.inj (List.mem_singleton.mp last)⟩
  | setsUp flash phase =>
      exact absurd isStation (FlashSetup.events_quiet _ _ member).noStation
  | configured opening garbage phase flagged =>
      exact absurd isStation (opening.events_quiet _ member).noStation
  | unconfigured opening garbage phase unflagged =>
      exact absurd isStation (opening.events_quiet _ member).noStation
  | flashFails opening flash =>
      rcases List.mem_append.mp member with early | last
      · exact absurd isStation (joining_quiet _ _ _ early).noStation
      · cases List.mem_singleton.mp last
  | puts done phase write =>
      exact absurd isStation (savedEvents_quiet _ _ _ member).noStation
  | receives env phase created =>
      exact absurd isStation (published_quiet _ _ member).noStation
  | handles event registered =>
      exact absurd isStation (wifiEventHandler_quiet event _ _ member).noStation
  | _ => simp at member

theorem Provenance.sourced (provenance : Provenance server.httpd history fw)
    (move : FirmwareMove server fw (next, events))
    (sound : ∀ event ∈ events, event.Sound) :
    Justified (fun past => FirmwareEvent.Sourced server.httpd (history ++ past))
      events := by
  intro past event future split
  cases event with
  | stationStarted nvs sta =>
      have member : .stationStarted nvs sta ∈ events := by simp [split]
      obtain ⟨garbage, rfl, rfl⟩ := move.of_station member fun failed =>
        (sound _ failed).opens rfl
      intro configured
      obtain ⟨credentials, saved, stores⟩ := provenance.stored configured
      exact ⟨credentials, saved.append, stores.station garbage,
        saved.append.fromOneRequest⟩
  | _ => trivial

theorem Written.reaches {start : Firmware Client} (fresh : start.ram = freshRam)
    (reached : (firmware server).Reaches start history fw) :
    fw.ram.phase.Written fw.nvs := by
  induction reached with
  | refl =>
      rw [fresh]
      trivial
  | step _ taken induction => exact induction.move (Firmware.step_move taken)

/-- In every run from a partition without the flag, if `nvs_open` never fails, no
request is half stored while the credentials are copied and no provisioning sets the
flag after it failed to write a string, a station whose boot has found the flag has
the credentials that the requests of one earlier boot made; and if the requests are
well formed, they are those of one request. -/
theorem stations_sourced {start : Firmware Client} (fresh : start.ram = freshRam)
    (blank : ¬ Configured start.nvs)
    (reached : (firmware server).Reaches start history fw)
    (sound : ∀ event ∈ history, event.Sound) :
    Justified (FirmwareEvent.Sourced server.httpd) history := by
  have both : Provenance server.httpd history fw ∧
      Justified (FirmwareEvent.Sourced server.httpd) history := by
    refine reached.invariantOfEvents _ (fun history fw =>
      Provenance server.httpd history fw ∧
        Justified (FirmwareEvent.Sourced server.httpd) history) ?_ ?_ sound
    · obtain ⟨nvs, ram⟩ := start
      obtain rfl := fresh
      exact ⟨.fresh (fun configured => absurd configured blank) rfl, .nil⟩
    · intro history fw action next events reached holds taken sound
      have move := Firmware.step_move taken
      have written := Written.reaches fresh reached
      exact ⟨holds.1.move written move sound, holds.2.append (holds.1.sourced move sound)⟩
  exact both.2

/-- Nothing of the boot changes the credentials that are stored, and after a restart
no request is served. -/
structure Settled (credentials : WifiCredentials) (history : List (FirmwareEvent Client))
    (fw : Firmware Client) : Prop where
  stores : Stores fw.nvs credentials
  phase : fw.ram.phase.unconfigured = false
  server : .restarted ∈ history → fw.ram.uris = none

/-- An event of a device that keeps these credentials. -/
def FirmwareEvent.Keeps (credentials : WifiCredentials)
    (past : List (FirmwareEvent Client)) : FirmwareEvent Client → Prop
  | .requested _ _ => .restarted ∉ past
  | .saved _ _ => False
  | .stationStarted _ sta => sta = wifiInit credentials.ssid credentials.password
  | _ => True

theorem FlashSetup.mem_of_erased {setup : FlashSetup} (erased : setup.erased = true) :
    .erased ∈ (setup.events : List (FirmwareEvent Client)) := by
  rw [FlashSetup.events, if_pos erased]
  exact List.mem_singleton_self _

theorem setupEeprom_kept {flash : FlashOutcome} {nvs : Nvs}
    (kept : .erased ∉ ((setupEeprom flash nvs).events : List (FirmwareEvent Client))) :
    (setupEeprom flash nvs).nvs = nvs := by
  rcases setupEeprom_nvs flash nvs with ⟨_, same⟩ | ⟨erased, _⟩
  · exact same
  · exact absurd (FlashSetup.mem_of_erased erased) kept

theorem Settled.not_unconfigured (settled : Settled credentials history fw)
    {phase : MainPhase} (atPhase : fw.ram.phase = phase)
    (unconfigured : phase.unconfigured = true) {holds : Prop} : holds := by
  have other := settled.phase
  rw [atPhase, unconfigured] at other
  cases other

theorem Settled.append (settled : Settled credentials history fw)
    (continues : ∀ event ∈ events, event.isRestart = false)
    (uris : next.ram.uris = fw.ram.uris) (kept : next.nvs = fw.nvs)
    (phase : next.ram.phase.unconfigured = false) :
    Settled credentials (history ++ events) next where
  stores := by
    rw [kept]
    exact settled.stores
  phase := phase
  server := by
    intro restarted
    rw [uris]
    rcases List.mem_append.mp restarted with before | now
    · exact settled.server before
    · have never := continues _ now
      cases never

theorem Settled.restarted {nvs : Nvs} (stores : Stores nvs credentials) :
    Settled credentials history (⟨nvs, freshRam⟩ : Firmware Client) :=
  ⟨stores, rfl, fun _ => rfl⟩

theorem FlashSetup.events_keep (setup : FlashSetup) :
    ∀ event ∈ (setup.events : List (FirmwareEvent Client)),
      ∀ past, event.Keeps credentials past := by
  intro event member past
  obtain ⟨rfl, _⟩ := FlashSetup.eq_of_mem_events member
  trivial

theorem NvsOpening.events_keep (opening : NvsOpening) :
    ∀ event ∈ (opening.events : List (FirmwareEvent Client)),
      ∀ past, event.Keeps credentials past := by
  intro event member past
  obtain rfl := NvsOpening.eq_of_mem_events member
  trivial

theorem joining_keep (opening : NvsOpening) (setup : FlashSetup) :
    ∀ event ∈ (opening.events ++ setup.events : List (FirmwareEvent Client)),
      ∀ past, event.Keeps credentials past :=
  List.forall_mem_append.mpr ⟨opening.events_keep, setup.events_keep⟩

theorem Settled.move (settled : Settled credentials history fw)
    (move : FirmwareMove server fw (next, events)) (kept : .erased ∉ events)
    (opened : .openFailed ∉ events) :
    Settled credentials (history ++ events) next ∧
      Justified (fun past => FirmwareEvent.Keeps credentials (history ++ past)) events := by
  have one {event : FirmwareEvent Client} (keeps : ∀ past, event.Keeps credentials past) :
      Justified (fun past => FirmwareEvent.Keeps credentials (history ++ past)) [event] :=
    .of_forall (List.forall_mem_singleton.mpr keeps)
  have stores := settled.stores
  cases move with
  | restarts => exact ⟨.restarted stores, one fun _ => trivial⟩
  | flashFails opening flash =>
      have same := @setupEeprom_kept Client flash fw.nvs fun member =>
        kept (List.mem_append_left _ (List.mem_append_right _ member))
      rw [← same] at stores
      exact ⟨.restarted stores, (Justified.of_forall (joining_keep _ _)).concat trivial⟩
  | setsUp flash phase =>
      have quiet := @FlashSetup.events_quiet Client (setupEeprom flash fw.nvs)
      exact ⟨settled.append (fun event member => (quiet event member).continues) rfl
        (setupEeprom_kept kept) rfl, .of_forall (FlashSetup.events_keep _)⟩
  | configured opening garbage phase flagged =>
      have quiet := @NvsOpening.events_quiet Client opening
      exact ⟨settled.append (fun event member => (quiet event member).continues) rfl rfl
        rfl, .of_forall opening.events_keep⟩
  | unconfigured opening garbage phase unflagged =>
      rw [opening.seen_of_opens opened, hasWifiConfigured_of_configured stores.flag]
        at unflagged
      cases unflagged
  | startsServer phase => exact settled.not_unconfigured phase rfl
  | noServer phase => exact settled.not_unconfigured phase rfl
  | registers phase running => exact settled.not_unconfigured phase rfl
  | registered phase => exact settled.not_unconfigured phase rfl
  | polls =>
      rw [List.append_nil]
      exact ⟨settled, .nil⟩
  | connected phase isConnected => exact settled.not_unconfigured phase rfl
  | beginsCopy phase => exact settled.not_unconfigured phase rfl
  | copies phase => exact settled.not_unconfigured phase rfl
  | tears read phase => exact settled.not_unconfigured phase rfl
  | puts done phase write =>
      exact settled.not_unconfigured phase
        (decide_eq_true (List.getElem?_eq_some_iff.mp write).1)
  | requests request running idle =>
      have served : .restarted ∉ history := fun restarted => by
        have none := settled.server restarted
        rw [running] at none
        cases none
      refine ⟨⟨stores, settled.phase, fun restarted => ?_⟩, .cons ?_ .nil⟩
      · rcases List.mem_append.mp restarted with before | now
        · exact absurd before served
        · cases List.mem_singleton.mp now
      · rwa [List.append_nil]
  | stores inHand =>
      rw [List.append_nil]
      refine ⟨⟨stores, ?_, settled.server⟩, .nil⟩
      rw [← settled.phase]
      exact MainPhase.unconfigured_disturbed _
  | joins opening flash garbage phase =>
      have seen : opening.seen fw.nvs = fw.nvs := opening.seen_of_opens fun failed =>
        opened (List.mem_append_left _ (List.mem_append_left _ failed))
      have same := @setupEeprom_kept Client flash fw.nvs fun member =>
        kept (List.mem_append_left _ (List.mem_append_right _ member))
      have quiet := @joining_quiet Client opening (setupEeprom flash fw.nvs)
      rw [seen]
      refine ⟨settled.append (List.forall_mem_append.mpr
        ⟨fun event member => (quiet event member).continues,
          List.forall_mem_singleton.mpr rfl⟩) rfl same rfl, ?_⟩
      exact (Justified.of_forall (joining_keep _ _)).concat (stores.station garbage)
  | handles event registered =>
      have quiet := @wifiEventHandler_quiet Client event fw.ram.connectedBit
      refine ⟨settled.append (fun handled member => (quiet handled member).continues) rfl
        rfl settled.phase, .of_forall fun handled member past => ?_⟩
      rcases eq_of_mem_wifiEventHandler member with rfl | rfl
      · trivial
      · trivial
  | online phase bit =>
      exact ⟨settled.append (List.forall_mem_nil _) rfl rfl rfl, .nil⟩
  | syncs time phase ok =>
      exact ⟨settled.append (List.forall_mem_singleton.mpr rfl) rfl rfl rfl,
        one fun _ => trivial⟩
  | findsMqtt phase held =>
      exact ⟨settled.append (List.forall_mem_nil _) rfl rfl rfl, .nil⟩
  | startsMqtt phase unset =>
      exact ⟨settled.append (List.forall_mem_singleton.mpr rfl) rfl rfl rfl,
        one fun _ => trivial⟩
  | startsLora buf phase =>
      exact ⟨settled.append (List.forall_mem_singleton.mpr rfl) rfl rfl rfl,
        one fun _ => trivial⟩
  | receives env phase created =>
      have quiet := @published_quiet Client
      refine ⟨settled.append (fun event member => (quiet _ event member).continues) rfl rfl
        settled.phase, .of_forall fun event member past => ?_⟩
      obtain ⟨_, _, rfl⟩ := List.mem_map.mp member
      trivial

theorem Settled.reaches {start : Firmware Client} (settled : Settled credentials [] start)
    (reached : (firmware server).Reaches start history fw) (kept : .erased ∉ history)
    (opened : .openFailed ∉ history) :
    Settled credentials history fw ∧
      Justified (FirmwareEvent.Keeps credentials) history := by
  induction reached with
  | refl => exact ⟨settled, .nil⟩
  | step _ taken induction =>
      obtain ⟨before, earlier⟩ := induction
        (fun member => kept (List.mem_append_left _ member))
        fun member => opened (List.mem_append_left _ member)
      obtain ⟨after, now⟩ := before.move (Firmware.step_move taken)
        (fun member => kept (List.mem_append_right _ member))
        fun member => opened (List.mem_append_right _ member)
      exact ⟨after, earlier.append now⟩

/-- A provisioning is reported with its last write. -/
theorem FirmwareMove.of_saved (move : FirmwareMove server fw (next, events))
    {outcomes : List Bool} (member : .saved credentials outcomes ∈ events) :
    events = [.saved credentials outcomes] ∧
      next.ram.phase = .save credentials outcomes ∧ outcomes.length = 3 := by
  have early (opening : NvsOpening) (setup : FlashSetup) :
      (.saved credentials outcomes : FirmwareEvent Client) ∉
        opening.events ++ setup.events := by
    intro member
    have keeps := @joining_keep Client credentials opening setup _ member []
    exact keeps
  cases move with
  | puts done phase write =>
      obtain ⟨same, three⟩ := eq_of_mem_savedEvents member
      obtain ⟨rfl, rfl⟩ := FirmwareEvent.saved.inj same
      exact ⟨if_pos three, rfl, three⟩
  | joins opening flash garbage phase =>
      rcases List.mem_append.mp member with before | last
      · exact absurd before (early _ _)
      · cases List.mem_singleton.mp last
  | flashFails opening flash =>
      rcases List.mem_append.mp member with before | last
      · exact absurd before (early _ _)
      · cases List.mem_singleton.mp last
  | setsUp flash phase => cases (FlashSetup.eq_of_mem_events member).1
  | configured opening garbage phase flagged => cases NvsOpening.eq_of_mem_events member
  | unconfigured opening garbage phase unflagged =>
      cases NvsOpening.eq_of_mem_events member
  | receives env phase created =>
      obtain ⟨_, _, same⟩ := List.mem_map.mp member
      cases same
  | handles event registered =>
      rcases eq_of_mem_wifiEventHandler member with same | same
      · cases same
      · cases same
  | _ => simp at member

/-- In every run, once the three writes of a provisioning are done, and until the
partition is erased or `nvs_open` fails, the credentials stay as they are, nothing is
saved, no request is served after the restart that follows, and every station has
these credentials, whether or not they are any good. -/
theorem saved_permanently {start : Firmware Client} (fresh : start.ram = freshRam)
    (reached : (firmware server).Reaches start history fw)
    {past future : List (FirmwareEvent Client)} {outcomes : List Bool}
    (split : history = past ++ .saved credentials outcomes :: future)
    (ssidTook : took outcomes 0 = true) (passwordTook : took outcomes 1 = true)
    (flagTook : took outcomes 2 = true) (kept : .erased ∉ future)
    (opened : .openFailed ∉ future) :
    Stores fw.nvs credentials ∧ Justified (FirmwareEvent.Keeps credentials) future := by
  obtain ⟨earlier, middle, action, next, before, after, later, toMiddle, taken, fromNext,
    _, rfl⟩ := reached.split split
  have move := Firmware.step_move taken
  obtain ⟨reported, phase, three⟩ := move.of_saved
    (List.mem_append_right before List.mem_cons_self)
  have written := (Written.reaches fresh toMiddle).move move
  rw [phase] at written
  obtain ⟨found, same⟩ := written
  have settled : Settled credentials [] next := by
    refine ⟨?_, ?_, fun restarted => by cases restarted⟩
    · rw [same]
      exact .provision ssidTook passwordTook flagTook
    · rw [phase]
      exact decide_eq_false (by omega)
  have nothing : after = [] := by
    have one := congrArg List.length reported
    simp only [List.length_append, List.length_cons, List.length_nil] at one
    exact List.eq_nil_of_length_eq_zero (by omega)
  rw [nothing, List.nil_append] at kept opened ⊢
  obtain ⟨stays, keeps⟩ := settled.reaches fromNext kept opened
  exact ⟨stays.stores, keeps⟩

end Credentials

def homeRequest : HttpRequest := ⟨.get, "/set_wifi", some homeQuery⟩

/-- The credentials of this request. -/
def homeCredentials : WifiCredentials :=
  ((HttpServer.exactServer 8).serve portalUris initialCredentials homeRequest).1

theorem homeCredentials_connected : homeCredentials.connected = true := by
  have served := @HttpServer.serve_portal (HttpServer.exactServer 8)
    ⟨"/set_wifi", .get, .setWifi⟩ (by decide) initialCredentials (some homeQuery)
  rw [homeCredentials, homeRequest, served]
  exact (setWifiHandler_readable splittingHttpd initialCredentials
    (show homeQuery.text.length < 100 by decide)).2.2

/-- A blank board is provisioned by one request and joins in its second boot. -/
theorem homeRun :
    ∃ (nvs : Nvs) (sta : StaConfig) (fw : Firmware Unit),
      (firmware (HttpServer.exactServer 8)).Reaches ⟨fun _ => none, freshRam⟩
        [.requested homeRequest (.handler .setWifi),
          .saved homeCredentials [true, true, true], .restarted,
          .stationStarted nvs sta] fw ∧ Configured nvs := by
  let server := HttpServer.exactServer 8
  let start : Firmware Unit := ⟨fun _ => none, freshRam⟩
  have setUp := Machine.Reaches.step .refl
    (rfl : (firmware server).step start (.setupEeprom goodFlash) = some _)
  have chosen := setUp.step (rfl : (firmware server).step _
    (.hasWifiConfigured goodOpening ⟨1, initialCredentials⟩) = some _)
  have serving := chosen.trans (startWebserver_reaches server _ _)
  have table : server.startWebserver true = some portalUris :=
    server.startWebserver_of_room (by decide)
  rw [table] at serving
  have requested := serving.trans (request_reaches server _ homeRequest rfl rfl rfl)
  have restarted := requested.trans
    (save_reaches server _ rfl homeCredentials_connected rfl)
  have rebooted := restarted.step
    (rfl : (firmware server).step _ (.setupEeprom goodFlash) = some _)
  have found := rebooted.step
    (rfl : (firmware server).step _ (.hasWifiConfigured goodOpening zeroGarbage) = some _)
  have joined := found.step
    (rfl : (firmware server).step _ (.wifiInit goodOpening goodFlash zeroGarbage) = some _)
  have form : server.find portalUris .get "/set_wifi" = .handler .setWifi :=
    @HttpServer.find_portal server ⟨"/set_wifi", .get, .setWifi⟩ (by decide)
  rw [show server.find portalUris homeRequest.method homeRequest.path = _ from form]
    at joined
  exact ⟨_, _, _, joined, rfl⟩

theorem stations_sourced_home :
    ∃ (nvs : Nvs) (sta : StaConfig), Configured nvs ∧
      Justified (@FirmwareEvent.Sourced Unit splittingHttpd)
        [.requested homeRequest (.handler .setWifi),
          .saved homeCredentials [true, true, true], .restarted,
          .stationStarted nvs sta] := by
  obtain ⟨nvs, sta, _, reached, configured⟩ := homeRun
  refine ⟨nvs, sta, configured,
    stations_sourced rfl (by simp [Configured]) reached fun event member => ?_⟩
  simp only [List.mem_cons, List.not_mem_nil, or_false] at member
  rcases member with rfl | rfl | rfl | rfl
  all_goals
    refine ⟨by simp, by simp, fun _ outcomes same => ?_⟩
    cases same
  exact fun _ => ⟨rfl, rfl⟩

theorem saved_permanently_home :
    ∃ (sta : StaConfig) (fw : Firmware Unit), Stores fw.nvs homeCredentials ∧
      sta = wifiInit homeCredentials.ssid homeCredentials.password := by
  obtain ⟨nvs, sta, fw, reached, _⟩ := homeRun
  let past : List (FirmwareEvent Unit) := [.requested homeRequest (.handler .setWifi)]
  let future : List (FirmwareEvent Unit) := [.restarted, .stationStarted nvs sta]
  have kept : .erased ∉ future := by simp [future]
  have opened : .openFailed ∉ future := by simp [future]
  obtain ⟨stores, keeps⟩ := saved_permanently rfl reached
    (show _ = past ++ .saved homeCredentials [true, true, true] :: future from rfl)
    rfl rfl rfl kept opened
  exact ⟨sta, fw, stores, keeps [.restarted] _ [] rfl⟩

end Lora32Mqtt
