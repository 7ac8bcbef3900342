import Lora32Mqtt.Base.CString
import Lora32Mqtt.Base.FaultyStore
import Lora32Mqtt.Base.Machine

/-!
# The provisioning store (`eeprom_esp.cpp`)

Three keys of the NVS partition.  Errors of a write are logged and change nothing
else, so a function is a list of writes.  A run is any sequence of provisionings,
as `app_main` makes them, and resets, each with its own failures and, where the
outcomes run out, a power loss.
-/

namespace Lora32Mqtt

inductive NvsValue where
  | str (text : CString)
  | u8 (value : UInt8)
  deriving DecidableEq

abbrev Nvs : Type := Store String NvsValue

abbrev NvsProgram : Type := Program (Device String NvsValue) Unit

def setWifiConfigured (hasData : UInt8) : NvsProgram := do
  let _ ← Device.put "has_data" (some (.u8 hasData))

def saveWifiCredentials (ssid password : CString) : NvsProgram := do
  let _ ← Device.put "ssid" (some (.str ssid))
  let _ ← Device.put "password" (some (.str password))

def resetWifiCredentials : NvsProgram := do
  let _ ← Device.put "ssid" none
  let _ ← Device.put "password" none
  setWifiConfigured 1

/-- The end of `app_main` in provisioning mode. -/
def provision (ssid password : CString) : NvsProgram := do
  saveWifiCredentials ssid password
  setWifiConfigured 0

/-- The stored flag; a missing one leaves the variable uninitialised. -/
def hasWifiConfigured (garbage : UInt8) (nvs : Nvs) : Bool :=
  match nvs "has_data" with
  | some (.u8 hasData) => hasData == 0
  | _ => garbage == 0

def nvsGetStr (nvs : Nvs) (key : String) (size : Nat) : Option (CBuffer size) :=
  match nvs key with
  | some (.str text) => text.toBuffer? size
  | _ => none

inductive EepromOperation where
  | provision (ssid password : CString)
  | reset

def EepromOperation.program : EepromOperation → NvsProgram
  | .provision ssid password => Lora32Mqtt.provision ssid password
  | .reset => resetWifiCredentials

/-- An operation with the store it found and what became of its writes. -/
structure EepromEvent where
  before : Nvs
  operation : EepromOperation
  outcomes : List Bool

def eeprom : Machine Nvs (EepromOperation × List Bool) EepromEvent where
  step nvs action :=
    some ((action.1.program ⟨nvs, action.2⟩).2.store,
      [⟨nvs, action.1, action.2⟩])

def writeKeys (ssid password : Option NvsValue) (hasData : UInt8) :
    NvsProgram := do
  let _ ← Device.put "ssid" ssid
  let _ ← Device.put "password" password
  setWifiConfigured hasData

theorem provision_eq_writeKeys (ssid password : CString) :
    provision ssid password =
      writeKeys (some (.str ssid)) (some (.str password)) 0 := by
  simp only [provision, saveWifiCredentials, writeKeys, bind_assoc, pure_bind]

theorem resetWifiCredentials_eq_writeKeys :
    resetWifiCredentials = writeKeys none none 1 := rfl

theorem writeKeys_lookup (nvs : Nvs) (ssid password : Option NvsValue)
    (hasData : UInt8) (outcomes : List Bool) :
    let next := (writeKeys ssid password hasData ⟨nvs, outcomes⟩).2.store
    next "ssid" = (if took outcomes 0 then ssid else nvs "ssid") ∧
      next "password" =
        (if took outcomes 1 then password else nvs "password") ∧
      next "has_data" =
        (if took outcomes 2 then some (.u8 hasData) else nvs "has_data") := by
  have writes : (writeKeys ssid password hasData ⟨nvs, outcomes⟩).2.store =
      (((nvs.attempt (took outcomes 0) "ssid" ssid).attempt
        (took outcomes 1) "password" password).attempt
          (took outcomes 2) "has_data" (some (.u8 hasData))) := by
    rcases outcomes with _ | ⟨first, _ | ⟨second, _ | ⟨third, _⟩⟩⟩ <;> rfl
  simp [writes, Store.attempt_same, Store.attempt_other]

theorem provision_lookup (nvs : Nvs) (ssid password : CString)
    (outcomes : List Bool) :
    let next := (provision ssid password ⟨nvs, outcomes⟩).2.store
    next "ssid" =
        (if took outcomes 0 then some (.str ssid) else nvs "ssid") ∧
      next "password" =
        (if took outcomes 1 then some (.str password) else nvs "password") ∧
      next "has_data" =
        (if took outcomes 2 then some (.u8 0) else nvs "has_data") := by
  rw [provision_eq_writeKeys]
  exact writeKeys_lookup nvs _ _ 0 outcomes

def provisionWrites (ssid password : CString) : List (String × NvsValue) :=
  [("ssid", .str ssid), ("password", .str password), ("has_data", .u8 0)]

/-- One more outcome is one more write. -/
theorem provision_concat {ssid password : CString} {nvs : Nvs} {outcomes : List Bool}
    {key : String} {value : NvsValue} (done : Bool)
    (next : (provisionWrites ssid password)[outcomes.length]? = some (key, value)) :
    (provision ssid password ⟨nvs, outcomes ++ [done]⟩).2.store =
      (provision ssid password ⟨nvs, outcomes⟩).2.store.attempt done key (some value) := by
  rcases outcomes with _ | ⟨first, _ | ⟨second, _ | ⟨third, rest⟩⟩⟩
  all_goals cases next
  all_goals rfl

/-- The next boot takes the station path. -/
def Configured (nvs : Nvs) : Prop := nvs "has_data" = some (.u8 0)

/-- The values of one `save_wifi_credentials`, once the flag is set. -/
def Consistent (history : List EepromEvent) (nvs : Nvs) : Prop :=
  Configured nvs → ∃ event ∈ history, ∃ ssid password,
    event.operation = .provision ssid password ∧
      nvs "ssid" = some (.str ssid) ∧ nvs "password" = some (.str password)

/-- No string is written or erased under a set flag, and a provisioning sets the
flag only after both its strings. -/
def EepromEvent.Safe (event : EepromEvent) : Prop :=
  (Configured event.before →
    took event.outcomes 0 = false ∧ took event.outcomes 1 = false) ∧
  (¬ Configured event.before →
    ∀ ssid password, event.operation = .provision ssid password →
      took event.outcomes 2 = true →
        took event.outcomes 0 = true ∧ took event.outcomes 1 = true)

theorem Consistent.append {history : List EepromEvent} {nvs next : Nvs}
    (consistent : Consistent history nvs) (event : EepromEvent)
    (configured : Configured nvs) (sameSsid : next "ssid" = nvs "ssid")
    (samePassword : next "password" = nvs "password") :
    Consistent (history ++ [event]) next := by
  intro _
  obtain ⟨saving, member, ssid, password, isProvision, ssidEq, passwordEq⟩ :=
    consistent configured
  exact ⟨saving, List.mem_append_left _ member, ssid, password, isProvision,
    sameSsid.trans ssidEq, samePassword.trans passwordEq⟩

theorem Consistent.provision {history : List EepromEvent} {nvs : Nvs}
    {ssid password : CString} {outcomes : List Bool}
    (consistent : Consistent history nvs)
    (safe : EepromEvent.Safe ⟨nvs, .provision ssid password, outcomes⟩) :
    Consistent (history ++ [⟨nvs, .provision ssid password, outcomes⟩])
      (Lora32Mqtt.provision ssid password ⟨nvs, outcomes⟩).2.store := by
  obtain ⟨ssidEq, passwordEq, flagEq⟩ :=
    provision_lookup nvs ssid password outcomes
  by_cases configured : Configured nvs
  · obtain ⟨noSsid, noPassword⟩ := safe.1 configured
    exact consistent.append _ configured (by simp [ssidEq, noSsid])
      (by simp [passwordEq, noPassword])
  · intro flagged
    have flagTook : took outcomes 2 = true := by
      by_contra notTook
      rw [Configured, flagEq, if_neg notTook] at flagged
      exact configured flagged
    obtain ⟨ssidTook, passwordTook⟩ :=
      safe.2 configured ssid password rfl flagTook
    exact ⟨_, List.mem_concat_self, ssid, password, rfl,
      by rw [ssidEq, if_pos ssidTook], by rw [passwordEq, if_pos passwordTook]⟩

theorem Consistent.reset {history : List EepromEvent} {nvs : Nvs}
    {outcomes : List Bool} (consistent : Consistent history nvs)
    (safe : EepromEvent.Safe ⟨nvs, .reset, outcomes⟩) :
    Consistent (history ++ [⟨nvs, .reset, outcomes⟩])
      (resetWifiCredentials ⟨nvs, outcomes⟩).2.store := by
  rw [resetWifiCredentials_eq_writeKeys]
  obtain ⟨ssidEq, passwordEq, flagEq⟩ :=
    writeKeys_lookup nvs none none 1 outcomes
  by_cases configured : Configured nvs
  · obtain ⟨noSsid, noPassword⟩ := safe.1 configured
    exact consistent.append _ configured (by simp [ssidEq, noSsid])
      (by simp [passwordEq, noPassword])
  · intro flagged
    rw [Configured, flagEq] at flagged
    split at flagged
    · simp at flagged
    · exact absurd flagged configured

/-- In a run of safe operations, a set flag comes with the two values of one
provisioning, whatever fails and wherever the power goes. -/
theorem configured_consistent {start nvs : Nvs} {history : List EepromEvent}
    (unconfigured : ¬ Configured start)
    (reached : eeprom.Reaches start history nvs)
    (safe : ∀ event ∈ history, event.Safe) : Consistent history nvs := by
  refine reached.invariantOfEvents _ Consistent
    (fun configured => absurd configured unconfigured) ?_ safe
  intro history nvs action next events _ consistent taken safe
  obtain ⟨operation, outcomes⟩ := action
  obtain ⟨rfl, rfl⟩ := Prod.mk.inj (Option.some.inj taken)
  have eventSafe := safe _ (List.mem_singleton_self _)
  cases operation with
  | provision ssid password => exact consistent.provision eventSafe
  | reset => exact consistent.reset eventSafe

def homeSsid : CString := ⟨asciiBytes "home", by decide⟩

def homePassword : CString := ⟨asciiBytes "secret-42", by decide⟩

theorem configured_consistent_home :
    Consistent
      [⟨fun _ => none, .provision homeSsid homePassword, [true, true, true]⟩]
      (provision homeSsid homePassword
        ⟨fun _ => none, [true, true, true]⟩).2.store :=
  have reached : eeprom.Reaches (fun _ => none) _ _ :=
    .step .refl (show eeprom.step _
      (.provision homeSsid homePassword, [true, true, true]) = _ from rfl)
  configured_consistent (by simp [Configured]) reached
    (by simp [EepromEvent.Safe, Configured, took])

/-- A failed write of the SSID does not keep the flag from being set. -/
theorem configured_inconsistent :
    ¬ ∀ (start nvs : Nvs) (history : List EepromEvent),
      ¬ Configured start → eeprom.Reaches start history nvs →
        Consistent history nvs := by
  intro always
  have reached : eeprom.Reaches (fun _ => none) _ _ :=
    .step .refl (show eeprom.step _
      (.provision homeSsid homePassword, [false, true, true]) = _ from rfl)
  obtain ⟨ssidEq, _, flagEq⟩ := provision_lookup (fun _ => none) homeSsid
    homePassword [false, true, true]
  obtain ⟨_, _, ssid, _, _, stored, _⟩ :=
    always _ _ _ (by simp [Configured]) reached flagEq
  exact absurd (ssidEq.symm.trans stored) (by simp [took])

end Lora32Mqtt
