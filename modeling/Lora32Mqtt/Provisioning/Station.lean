import Mathlib.Data.Vector.Basic
import Lora32Mqtt.Provisioning.Eeprom
import Lora32Mqtt.Provisioning.WifiCredentials

/-!
# From the form to the station (`wifi_esp.cpp`, `main.cpp`)

One submission after a boot in provisioning mode, the restart, and the station
configuration that the next boot makes of what is stored.  All NVS calls succeed.
-/

namespace Lora32Mqtt

/-- Uninitialised variables of a boot. -/
structure Garbage where
  hasData : UInt8
  credentials : WifiCredentials

def loadWifiCredentials (garbage : Garbage) (nvs : Nvs) : WifiCredentials where
  ssid := (nvsGetStr nvs "ssid" 32).getD garbage.credentials.ssid
  password := (nvsGetStr nvs "password" 64).getD garbage.credentials.password
  connected := garbage.credentials.connected

/-- `wifi_config.sta` -/
structure StaConfig where
  ssid : List.Vector UInt8 32
  password : List.Vector UInt8 64

/-- `strcpy` into an array of zeros -/
def CBuffer.padded {size : Nat} (buffer : CBuffer size) :
    List.Vector UInt8 size :=
  ⟨buffer.text ++ List.replicate (size - buffer.text.length) 0, by
    have fits := buffer.fits
    simp
    omega⟩

def wifiInit (ssid : CBuffer 32) (pass : CBuffer 64) : StaConfig where
  ssid := ssid.padded
  password := pass.padded

/-- The station path of `app_main`, if the boot takes it. -/
def bootMaster (garbage : Garbage) (nvs : Nvs) : Option StaConfig :=
  if hasWifiConfigured garbage.hasData nvs then
    let credentials := loadWifiCredentials garbage nvs
    some (wifiInit credentials.ssid credentials.password)
  else none

/-- A submission in provisioning mode and the boot after it; `app_main` goes on
waiting if it is not connected. -/
def submitAndRestart (httpd : Httpd) (nvs : Nvs) (garbage : Garbage)
    (request : Request) : Option StaConfig :=
  let credentials := setWifiHandler httpd initialCredentials request
  if credentials.connected then
    let saving :=
      provision credentials.ssid.toCString credentials.password.toCString
        ⟨nvs, [true, true, true]⟩
    bootMaster garbage saving.2.store
  else none

/-- The arrays hold exactly these bytes, then zeros. -/
def StaConfig.Holds (sta : StaConfig) (ssid password : List UInt8) : Prop :=
  sta.ssid.toList = ssid ++ List.replicate (32 - ssid.length) 0 ∧
    sta.password.toList = password ++ List.replicate (64 - password.length) 0

structure Wpa2 where
  ssid : List UInt8
  passphrase : List UInt8
  ssidLength : 1 ≤ ssid.length ∧ ssid.length ≤ 32
  ssidNoNul : 0 ∉ ssid
  passphraseLength : 8 ≤ passphrase.length ∧ passphrase.length ≤ 63
  printable : ∀ byte ∈ passphrase, 0x20 ≤ byte ∧ byte ≤ 0x7E

theorem printable_of_all {text : List UInt8}
    (all : text.all (fun byte => 0x20 ≤ byte && byte ≤ 0x7E) = true) :
    ∀ byte ∈ text, 0x20 ≤ byte ∧ byte ≤ 0x7E := by
  simpa using all

theorem Wpa2.passphraseNoNul (wpa2 : Wpa2) : 0 ∉ wpa2.passphrase :=
  fun member => absurd (wpa2.printable 0 member).1 (by decide)

/-- The two values as a browser may encode them. -/
structure Submission (wpa2 : Wpa2) where
  ssid : List UInt8
  password : List UInt8
  ssidEncoded : FormEncoded wpa2.ssid ssid
  passwordEncoded : FormEncoded wpa2.passphrase password

namespace Submission

variable {wpa2 : Wpa2} (submission : Submission wpa2)

def rawSsid : CString := ⟨submission.ssid, submission.ssidEncoded.not_special.1⟩

def rawPassword : CString :=
  ⟨submission.password, submission.passwordEncoded.not_special.1⟩

/-- `ssid=..&password=..` -/
def query : CString where
  text := asciiBytes "ssid=" ++ submission.ssid ++
    asciiBytes "&password=" ++ submission.password
  noNul := by
    simp only [List.mem_append, not_or]
    exact ⟨⟨⟨by decide, submission.rawSsid.noNul⟩, by decide⟩,
      submission.rawPassword.noNul⟩

theorem length_query :
    submission.query.text.length =
      15 + submission.ssid.length + submission.password.length := by
  have names : (asciiBytes "ssid=").length = 5 ∧
      (asciiBytes "&password=").length = 10 := by decide
  simp only [query, List.length_append, names]
  omega

/-- The server finds the raw texts of this query. -/
structure Read (httpd : Httpd) : Prop where
  ssid : httpd.value submission.query ssidKey = some submission.rawSsid
  password :
    httpd.value submission.query passwordKey = some submission.rawPassword

end Submission

theorem cText_append_zeros {text : List UInt8} (noNul : 0 ∉ text)
    (count : Nat) : cText (text ++ List.replicate count 0) = text := by
  cases count with
  | zero => simpa using cText_of_noNul noNul
  | succ count => exact cText_append_nul noNul _

theorem CBuffer.padded_eq_iff {size : Nat} (buffer : CBuffer size)
    {value : List UInt8} (noNul : 0 ∉ value) :
    buffer.padded.toList = value ++ List.replicate (size - value.length) 0 ↔
      buffer.text = value := by
  constructor
  · intro same
    have texts := congrArg cText same
    rwa [cText_append_zeros noNul, padded, List.Vector.toList_mk,
      cText_append_zeros buffer.noNul] at texts
  · intro same
    subst same
    rfl

theorem nvsGetStr_of_stored {nvs : Nvs} {key : String} {size : Nat}
    {buffer : CBuffer size} (stored : nvs key = some (.str buffer.toCString)) :
    nvsGetStr nvs key size = some buffer := by
  simp only [nvsGetStr, stored]
  exact CString.toBuffer?_eq_some.mpr rfl

theorem bootMaster_provision (garbage : Garbage) (nvs : Nvs) (ssid : CBuffer 32)
    (password : CBuffer 64) :
    bootMaster garbage (provision ssid.toCString password.toCString
      ⟨nvs, [true, true, true]⟩).2.store = some (wifiInit ssid password) := by
  obtain ⟨ssidEq, passwordEq, flagEq⟩ := provision_lookup nvs ssid.toCString
    password.toCString [true, true, true]
  have configured : hasWifiConfigured garbage.hasData (provision ssid.toCString
      password.toCString ⟨nvs, [true, true, true]⟩).2.store = true := by
    rw [hasWifiConfigured, flagEq]
    rfl
  rw [bootMaster, if_pos configured, loadWifiCredentials,
    nvsGetStr_of_stored (ssidEq.trans (if_pos rfl)),
    nvsGetStr_of_stored (passwordEq.trans (if_pos rfl))]
  rfl

theorem wifiInit_holds_iff (ssid : CBuffer 32) (password : CBuffer 64)
    (wpa2 : Wpa2) :
    (wifiInit ssid password).Holds wpa2.ssid wpa2.passphrase ↔
      ssid.text = wpa2.ssid ∧ password.text = wpa2.passphrase := by
  rw [StaConfig.Holds, wifiInit, ssid.padded_eq_iff wpa2.ssidNoNul,
    password.padded_eq_iff wpa2.passphraseNoNul]

/-- From an empty field, the value is stored exactly if its text fits. -/
theorem fieldText_eq_iff {value : List UInt8} {raw : CString}
    (encoded : FormEncoded value raw.text) (noNul : 0 ∉ value)
    (nonempty : value ≠ []) :
    fieldText (some raw) [] = value ↔ raw.text.length ≤ 31 := by
  have decoded : cText (formDecode raw.text) = value := by
    rw [encoded.formDecode_eq, cText_of_noNul noNul]
  by_cases fits : raw.text.length < 32
  · rw [fieldText, if_pos fits, decoded]
    simp
    omega
  · rw [fieldText, if_neg fits]
    constructor
    · exact fun empty => absurd empty.symm nonempty
    · intro short
      omega

/-- A submission reaches the station unchanged exactly if both encoded values
have at most 31 characters. -/
theorem station_holds_submission_iff {httpd : Httpd} {wpa2 : Wpa2}
    (submission : Submission wpa2) (read : submission.Read httpd) (nvs : Nvs)
    (garbage : Garbage) :
    (∃ sta, submitAndRestart httpd nvs garbage (some submission.query) =
        some sta ∧ sta.Holds wpa2.ssid wpa2.passphrase) ↔
      submission.ssid.length ≤ 31 ∧ submission.password.length ≤ 31 := by
  have queryLength := submission.length_query
  by_cases readable : submission.query.text.length < 100
  · obtain ⟨ssidEq, passwordEq, connected⟩ :=
      setWifiHandler_readable httpd initialCredentials readable
    rw [read.ssid] at ssidEq
    rw [read.password] at passwordEq
    have ssidNonempty : wpa2.ssid ≠ [] := by
      intro empty
      have long := wpa2.ssidLength.1
      simp [empty] at long
    have passphraseNonempty : wpa2.passphrase ≠ [] := by
      intro empty
      have long := wpa2.passphraseLength.1
      simp [empty] at long
    have reached := bootMaster_provision garbage nvs
      (setWifiHandler httpd initialCredentials (some submission.query)).ssid
      (setWifiHandler httpd initialCredentials (some submission.query)).password
    simp only [submitAndRestart, connected, if_true, reached,
      Option.some.injEq, exists_eq_left', wifiInit_holds_iff, ssidEq, passwordEq]
    exact and_congr
      (fieldText_eq_iff submission.ssidEncoded wpa2.ssidNoNul ssidNonempty)
      (fieldText_eq_iff submission.passwordEncoded wpa2.passphraseNoNul
        passphraseNonempty)
  · have ignored :
        setWifiHandler httpd initialCredentials (some submission.query) =
          initialCredentials := by
      refine setWifiHandler_unreadable fun query isQuery short => ?_
      obtain rfl := Option.some.inj isQuery
      exact readable short
    simp only [submitAndRestart, ignored]
    constructor
    · intro booted
      obtain ⟨sta, impossible, _⟩ := booted
      cases impossible
    · intro short
      omega

def homeWpa2 : Wpa2 where
  ssid := homeSsid.text
  passphrase := asciiBytes "a secret"
  ssidLength := by decide
  ssidNoNul := homeSsid.noNul
  passphraseLength := by decide
  printable := printable_of_all (by decide)

def homeSubmission : Submission homeWpa2 where
  ssid := homeSsid.text
  password := asciiBytes "a+secret"
  ssidEncoded := .ofUnreserved _ (by decide)
  passwordEncoded :=
    .unreserved (by decide) (.space (.ofUnreserved _ (by decide)))

theorem station_holds_submission_home :
    ∃ sta, submitAndRestart splittingHttpd (fun _ => none)
        ⟨7, initialCredentials⟩ (some homeSubmission.query) = some sta ∧
      sta.Holds homeWpa2.ssid homeWpa2.passphrase :=
  (station_holds_submission_iff homeSubmission
    ⟨by decide +kernel, by decide +kernel⟩ (fun _ => none)
    ⟨7, initialCredentials⟩).mpr (by decide)

def letters : List UInt8 := List.replicate 32 0x61

def longWpa2 : Wpa2 where
  ssid := homeSsid.text
  passphrase := letters
  ssidLength := homeWpa2.ssidLength
  ssidNoNul := homeSsid.noNul
  passphraseLength := by decide
  printable := printable_of_all (by decide)

def longSubmission : Submission longWpa2 where
  ssid := homeSsid.text
  password := letters
  ssidEncoded := homeSubmission.ssidEncoded
  passwordEncoded := .ofUnreserved _ (by decide)

/-- A passphrase of 32 letters is lost on the way. -/
theorem station_loses_submission :
    ¬ ∀ (httpd : Httpd) (wpa2 : Wpa2) (submission : Submission wpa2),
      submission.Read httpd → ∀ (nvs : Nvs) (garbage : Garbage),
        ∃ sta, submitAndRestart httpd nvs garbage (some submission.query) =
            some sta ∧ sta.Holds wpa2.ssid wpa2.passphrase := by
  intro always
  have read : longSubmission.Read splittingHttpd :=
    ⟨by decide +kernel, by decide +kernel⟩
  obtain ⟨sta, booted, _, password⟩ := always splittingHttpd longWpa2
    longSubmission read (fun _ => none) ⟨7, initialCredentials⟩
  have empty : (submitAndRestart splittingHttpd (fun _ => none)
      ⟨7, initialCredentials⟩ (some longSubmission.query)).map
        (fun sta => sta.password.toList.head?) = some (some 0) := by
    decide +kernel
  rw [booted, Option.map_some, password] at empty
  exact absurd empty (by decide)

end Lora32Mqtt
