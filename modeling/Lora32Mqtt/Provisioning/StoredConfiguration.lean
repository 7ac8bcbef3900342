import Lora32Mqtt.Base.Determined
import Lora32Mqtt.Provisioning.Station

/-!
# The stored configuration at boot (`eeprom_esp.cpp`, `main.cpp`)

`app_main` reads the flag and the credentials through a handle and into variables
that are assigned only if a call succeeds.  An error is logged, and the variable
is used all the same.  A handle that is not open, among them the null handle,
makes a read fail.
-/

namespace Lora32Mqtt

abbrev NvsHandle : Type := UInt32

/-- The open handles, each with the name of its namespace. -/
structure NvsHandles where
  nameOf : NvsHandle → Option String
  null : nameOf 0 = none

namespace NvsHandles

def opened (handles : NvsHandles) (name : String) (fresh : NvsHandle)
    (nonzero : fresh ≠ 0) : NvsHandles where
  nameOf := Function.update handles.nameOf fresh (some name)
  null := by rw [Function.update_of_ne nonzero.symm, handles.null]

/-- `nvs_close`, which ignores a handle that is not open. -/
def closed (handles : NvsHandles) (handle : NvsHandle) : NvsHandles where
  nameOf := Function.update handles.nameOf handle none
  null := by
    by_cases isNull : handle = 0
    · rw [isNull, Function.update_self]
    · rw [Function.update_of_ne (Ne.symm isNull), handles.null]

def contents (handles : NvsHandles) (partition : String → Nvs)
    (handle : NvsHandle) : Nvs :=
  match handles.nameOf handle with
  | some name => partition name
  | none => fun _ => none

end NvsHandles

/-- For one call of `eeprom_handler`: the number that `nvs_open` would give, and
what the variable for it held. -/
structure HandlerMemory where
  fresh : NvsHandle
  nonzero : fresh ≠ 0
  myHandle : NvsHandle

/-- `eeprom_handler`; a failed `nvs_open` assigns nothing. -/
def eepromHandler (opens : Bool) (memory : HandlerMemory) :
    StateM NvsHandles NvsHandle := do
  if opens then
    modify fun handles => handles.opened "storage" memory.fresh memory.nonzero
    pure memory.fresh
  else
    pure memory.myHandle

def nvsClose (handle : NvsHandle) : StateM NvsHandles Unit :=
  modify fun handles => handles.closed handle

/-- A call of `eeprom_handler`: whether `nvs_open` succeeds, and what can be read
through the handle that is returned uninitialised if not. -/
structure NvsOpening where
  opens : Bool
  other : Nvs

def NvsOpening.seen (opening : NvsOpening) (nvs : Nvs) : Nvs :=
  if opening.opens then nvs else opening.other

/-- The contents of the partition, and which of the two calls of `nvs_open`
succeed. -/
structure Stored where
  partition : String → Nvs
  flagOpens : Bool
  credentialsOpen : Bool

/-- `wifi_credentials_t` in memory -/
structure CredentialBytes where
  ssid : CArray 32
  password : CArray 64
  connected : UInt8

/-- What else a boot finds: the handles of other components, and the former
contents of the uninitialised variables. -/
structure BootMemory where
  handles : NvsHandles
  flagHandler : HandlerMemory
  hasData : UInt8
  credentialsHandler : HandlerMemory
  credentials : CredentialBytes

def nvsGetU8 (nvs : Nvs) (key : String) : Option UInt8 :=
  match nvs key with
  | some (.u8 value) => some value
  | _ => none

/-- `nvs_get_str` into an array that keeps its bytes if the call fails. -/
def nvsGetStrInto {size : Nat} (nvs : Nvs) (key : String) (field : CArray size) :
    CArray size :=
  match nvsGetStr nvs key size with
  | some buffer =>
      ⟨stringInto field.toList buffer.text,
        (length_stringInto (by simpa using buffer.fits)).trans field.toList_length⟩
  | none => field

namespace Stored

variable (stored : Stored)

def hasWifiConfigured (memory : BootMemory) : StateM NvsHandles Bool := do
  let handler ← eepromHandler stored.flagOpens memory.flagHandler
  let nvs := (← get).contents stored.partition handler
  let hasData := (nvsGetU8 nvs "has_data").getD memory.hasData
  nvsClose handler
  pure (hasData == 0)

def loadWifiCredentials (memory : BootMemory) :
    StateM NvsHandles CredentialBytes := do
  let handler ← eepromHandler stored.credentialsOpen memory.credentialsHandler
  let nvs := (← get).contents stored.partition handler
  let ssid := nvsGetStrInto nvs "ssid" memory.credentials.ssid
  let password := nvsGetStrInto nvs "password" memory.credentials.password
  nvsClose handler
  pure { memory.credentials with ssid, password }

end Stored

namespace CredentialBytes

variable (credentials : CredentialBytes)

def toBytes : List UInt8 :=
  credentials.ssid.toList ++ (credentials.password.toList ++ [credentials.connected])

/-- The string that starts at the member, if it ends inside the structure. -/
def ssidString : Option (List UInt8) := cString credentials.toBytes

def passwordString : Option (List UInt8) := cString (credentials.toBytes.drop 32)

end CredentialBytes

/-- The branch of `app_main`, with the strings that `wifi_init` is given. -/
inductive BootBranch where
  | provisioning
  | station (ssid password : Option (List UInt8))
  deriving DecidableEq

/-- `app_main` up to there, with `IS_MASTER` -/
def Stored.appMain (stored : Stored) (memory : BootMemory) : BootBranch :=
  let (configured, handles) := (stored.hasWifiConfigured memory).run memory.handles
  if !configured then .provisioning
  else
    let credentials := ((stored.loadWifiCredentials memory).run handles).1
    .station credentials.ssidString credentials.passwordString

namespace Stored

variable (stored : Stored)

def nvs : Nvs := stored.partition "storage"

/-- `has_data`, if it can be read. -/
def flag : Option UInt8 :=
  if stored.flagOpens then nvsGetU8 stored.nvs "has_data" else none

/-- The string under a key, if it can be read into a field of that size. -/
def text (key : String) (size : Nat) : Option (CBuffer size) :=
  if stored.credentialsOpen then nvsGetStr stored.nvs key size else none

/-- Its bytes, none if it cannot be read. -/
def textOrEmpty (key : String) (size : Nat) : List UInt8 :=
  match stored.text key size with
  | some buffer => buffer.text
  | none => []

def FlagReadable : Prop :=
  stored.flagOpens = true ∧ ∃ hasData, stored.nvs "has_data" = some (.u8 hasData)

/-- The string under the key fits a field of that size. -/
def TextReadable (key : String) (size : Nat) : Prop :=
  stored.credentialsOpen = true ∧
    ∃ text, stored.nvs key = some (.str text) ∧ text.text.length < size

def CredentialsReadable : Prop :=
  stored.TextReadable "ssid" 32 ∧ stored.TextReadable "password" 64

/-- The reads give what is stored, and a boot is decided by it. -/
structure DependsOnStoreAlone : Prop where
  flag : ∀ memory handles,
    ((stored.hasWifiConfigured memory).run handles).1 = true ↔ stored.flag = some 0
  ssid : ∀ memory handles,
    cString ((stored.loadWifiCredentials memory).run handles).1.ssid.toList =
      some (stored.textOrEmpty "ssid" 32)
  password : ∀ memory handles,
    cString ((stored.loadWifiCredentials memory).run handles).1.password.toList =
      some (stored.textOrEmpty "password" 64)
  boots : Determined stored.appMain

end Stored

theorem NvsHandles.contents_opened (handles : NvsHandles)
    (partition : String → Nvs) (name : String) {fresh : NvsHandle}
    (nonzero : fresh ≠ 0) :
    (handles.opened name fresh nonzero).contents partition fresh = partition name := by
  simp only [contents, opened, Function.update_self]

theorem NvsHandles.contents_null (handles : NvsHandles) (partition : String → Nvs) :
    handles.contents partition 0 = fun _ => none := by
  simp only [contents, handles.null]

namespace Stored

variable (stored : Stored) (memory : BootMemory) (handles : NvsHandles)

/-- What is seen through the handle that `eeprom_handler` returns. -/
def seen (opens : Bool) (handler : HandlerMemory) : Nvs :=
  if opens then stored.nvs else handles.contents stored.partition handler.myHandle

theorem hasWifiConfigured_run :
    ((stored.hasWifiConfigured memory).run handles).1 =
      ((nvsGetU8 (stored.seen handles stored.flagOpens memory.flagHandler)
        "has_data").getD memory.hasData == 0) := by
  have opened := handles.contents_opened stored.partition "storage"
    memory.flagHandler.nonzero
  cases opens : stored.flagOpens with
  | true =>
      rw [seen, if_pos rfl, nvs, ← opened]
      simp only [hasWifiConfigured, opens]
      rfl
  | false =>
      simp only [hasWifiConfigured, opens]
      rfl

theorem loadWifiCredentials_run :
    let nvs := stored.seen handles stored.credentialsOpen memory.credentialsHandler
    ((stored.loadWifiCredentials memory).run handles).1 =
      { ssid := nvsGetStrInto nvs "ssid" memory.credentials.ssid
        password := nvsGetStrInto nvs "password" memory.credentials.password
        connected := memory.credentials.connected } := by
  have opened := handles.contents_opened stored.partition "storage"
    memory.credentialsHandler.nonzero
  cases opens : stored.credentialsOpen with
  | true =>
      rw [seen, if_pos rfl, nvs, ← opened]
      simp only [loadWifiCredentials, opens]
      rfl
  | false =>
      simp only [loadWifiCredentials, opens]
      rfl

theorem exists_flag_iff :
    (∃ hasData, stored.flag = some hasData) ↔ stored.FlagReadable := by
  rw [flag, FlagReadable, nvsGetU8]
  constructor
  · intro read
    obtain ⟨hasData, read⟩ := read
    split at read
    next opens =>
      refine ⟨opens, ?_⟩
      split at read
      next hasData found => exact ⟨hasData, found⟩
      next => cases read
    next => cases read
  · intro readable
    obtain ⟨opens, hasData, found⟩ := readable
    exact ⟨hasData, by rw [if_pos opens, found]⟩

theorem exists_text_iff (key : String) (size : Nat) :
    (∃ buffer, stored.text key size = some buffer) ↔ stored.TextReadable key size := by
  rw [text, TextReadable, nvsGetStr]
  constructor
  · intro read
    obtain ⟨buffer, read⟩ := read
    split at read
    next opens =>
      refine ⟨opens, ?_⟩
      split at read
      next text found =>
        obtain rfl := CString.toBuffer?_eq_some.mp read
        exact ⟨_, found, buffer.fits⟩
      next => cases read
    next => cases read
  · intro readable
    obtain ⟨opens, text, found, fits⟩ := readable
    refine ⟨⟨text, fits⟩, ?_⟩
    rw [if_pos opens, found]
    exact CString.toBuffer?_eq_some.mpr rfl

theorem flag_eq_none (unreadable : ¬ stored.FlagReadable) : stored.flag = none := by
  rw [← exists_flag_iff] at unreadable
  exact Option.eq_none_iff_forall_ne_some.mpr (not_exists.mp unreadable)

theorem text_eq_none {key : String} {size : Nat}
    (unreadable : ¬ stored.TextReadable key size) : stored.text key size = none := by
  rw [← exists_text_iff] at unreadable
  exact Option.eq_none_iff_forall_ne_some.mpr (not_exists.mp unreadable)

theorem nvsGetU8_seen {hasData : UInt8} (readable : stored.flag = some hasData)
    (handler : HandlerMemory) :
    nvsGetU8 (stored.seen handles stored.flagOpens handler) "has_data" =
      some hasData := by
  rw [flag] at readable
  split at readable
  next opens => rwa [seen, if_pos opens]
  next => cases readable

theorem nvsGetStr_seen {key : String} {size : Nat} {buffer : CBuffer size}
    (readable : stored.text key size = some buffer) (handler : HandlerMemory) :
    nvsGetStr (stored.seen handles stored.credentialsOpen handler) key size =
      some buffer := by
  rw [text] at readable
  split at readable
  next opens => rwa [seen, if_pos opens]
  next => cases readable

/-- Through a null handle there is nothing to be seen that should not be. -/
theorem seen_null {handler : HandlerMemory} (null : handler.myHandle = 0)
    (opens : Bool) :
    stored.seen handles opens handler = if opens then stored.nvs else fun _ => none := by
  rw [seen, null, handles.contents_null]

theorem nvsGetU8_seen_null {handler : HandlerMemory} (null : handler.myHandle = 0) :
    nvsGetU8 (stored.seen handles stored.flagOpens handler) "has_data" =
      stored.flag := by
  rw [seen_null _ _ null, flag]
  split <;> rfl

theorem nvsGetStr_seen_null {handler : HandlerMemory} (null : handler.myHandle = 0)
    (key : String) (size : Nat) :
    nvsGetStr (stored.seen handles stored.credentialsOpen handler) key size =
      stored.text key size := by
  rw [seen_null _ _ null, text]
  split <;> rfl

end Stored

theorem cString_nvsGetStrInto {nvs : Nvs} {key : String} {size : Nat}
    {buffer : CBuffer size} (readable : nvsGetStr nvs key size = some buffer)
    (field : CArray size) (rest : List UInt8) :
    cString ((nvsGetStrInto nvs key field).toList ++ rest) = some buffer.text := by
  have stored : (nvsGetStrInto nvs key field).toList =
      buffer.text ++ 0 :: field.toList.drop (buffer.text.length + 1) := by
    simp only [nvsGetStrInto, readable]
    rfl
  rw [stored, List.append_assoc]
  exact cString_append_nul buffer.noNul _

theorem nvsGetStrInto_of_none {nvs : Nvs} {key : String} {size : Nat}
    (unreadable : nvsGetStr nvs key size = none) (field : CArray size) :
    nvsGetStrInto nvs key field = field := by
  simp only [nvsGetStrInto, unreadable]

theorem CredentialBytes.passwordString_eq (credentials : CredentialBytes) :
    credentials.passwordString =
      cString (credentials.password.toList ++ [credentials.connected]) := by
  rw [passwordString, toBytes, List.drop_left' credentials.ssid.toList_length]

/-- Every variable is full of one byte, and the handles are null. -/
def filledWith (byte : UInt8) : BootMemory where
  handles := ⟨fun _ => none, rfl⟩
  flagHandler := ⟨1, by decide, 0⟩
  hasData := byte
  credentialsHandler := ⟨1, by decide, 0⟩
  credentials :=
    ⟨List.Vector.replicate 32 byte, List.Vector.replicate 64 byte, byte⟩

namespace Stored

variable {stored : Stored}

theorem flag_iff :
    (∀ memory handles,
        ((stored.hasWifiConfigured memory).run handles).1 = true ↔
          stored.flag = some 0) ↔
      stored.FlagReadable := by
  constructor
  · intro right
    by_contra unreadable
    have missing := stored.flag_eq_none unreadable
    have configured := (right (filledWith 0) ⟨fun _ => none, rfl⟩).mp (by
      rw [hasWifiConfigured_run, nvsGetU8_seen_null _ _ rfl, missing]
      rfl)
    rw [missing] at configured
    cases configured
  · intro readable memory handles
    obtain ⟨hasData, read⟩ := stored.exists_flag_iff.mpr readable
    rw [hasWifiConfigured_run, nvsGetU8_seen stored handles read, read]
    simp

/-- A field whose string was not read holds what the memory did. -/
theorem unread_field_iff {handler : HandlerMemory} (null : handler.myHandle = 0)
    {key : String} {size : Nat} (unreadable : ¬ stored.TextReadable key (size + 1))
    (handles : NvsHandles) (byte : UInt8) (rest : List UInt8) :
    cString ((nvsGetStrInto (stored.seen handles stored.credentialsOpen handler) key
        (List.Vector.replicate (size + 1) byte)).toList ++ rest) = some [] ↔
      byte = 0 := by
  have missing := stored.text_eq_none unreadable
  rw [nvsGetStrInto_of_none (by rw [nvsGetStr_seen_null _ _ null, missing])]
  exact cString_eq_nil_iff byte _

/-- In memory full of ones a field is empty only if an empty string was read. -/
theorem textReadable_of_ones {handles : NvsHandles} {handler : HandlerMemory}
    (null : handler.myHandle = 0) {key : String} {size : Nat}
    (right : cString (nvsGetStrInto
        (stored.seen handles stored.credentialsOpen handler) key
        (List.Vector.replicate (size + 1) 1)).toList =
      some (stored.textOrEmpty key (size + 1))) :
    stored.TextReadable key (size + 1) := by
  by_contra unreadable
  have unread := unread_field_iff null unreadable handles 1 []
  rw [List.append_nil, right, textOrEmpty, stored.text_eq_none unreadable] at unread
  exact absurd (unread.mp rfl) (by decide)

/-- What two runs read alike from different memory was stored. -/
theorem textReadable_of_same {handles others : NvsHandles}
    {handler other : HandlerMemory} (null : handler.myHandle = 0)
    (otherNull : other.myHandle = 0) {key : String} {size : Nat}
    {rest otherRest : List UInt8}
    (same : cString ((nvsGetStrInto
          (stored.seen handles stored.credentialsOpen handler) key
          (List.Vector.replicate (size + 1) 0)).toList ++ rest) =
      cString ((nvsGetStrInto
          (stored.seen others stored.credentialsOpen other) key
          (List.Vector.replicate (size + 1) 1)).toList ++ otherRest)) :
    stored.TextReadable key (size + 1) := by
  by_contra unreadable
  have zeros := (unread_field_iff null unreadable handles 0 rest).mpr rfl
  have ones := unread_field_iff otherNull unreadable others 1 otherRest
  rw [← same] at ones
  exact absurd (ones.mp zeros) (by decide)

theorem cString_text {handles : NvsHandles} {handler : HandlerMemory}
    {key : String} {size : Nat} (readable : stored.TextReadable key size)
    (field : CArray size) (rest : List UInt8) :
    cString ((nvsGetStrInto (stored.seen handles stored.credentialsOpen handler) key
        field).toList ++ rest) =
      some (stored.textOrEmpty key size) := by
  obtain ⟨buffer, read⟩ := (stored.exists_text_iff key size).mpr readable
  rw [cString_nvsGetStrInto (stored.nvsGetStr_seen handles read handler), textOrEmpty,
    read]

theorem credentials_iff :
    ((∀ memory handles,
        cString ((stored.loadWifiCredentials memory).run handles).1.ssid.toList =
          some (stored.textOrEmpty "ssid" 32)) ∧
      ∀ memory handles,
        cString ((stored.loadWifiCredentials memory).run handles).1.password.toList =
          some (stored.textOrEmpty "password" 64)) ↔
      stored.CredentialsReadable := by
  constructor
  · intro right
    obtain ⟨ssid, password⟩ := right
    have ssidRight := ssid (filledWith 1) ⟨fun _ => none, rfl⟩
    have passwordRight := password (filledWith 1) ⟨fun _ => none, rfl⟩
    rw [loadWifiCredentials_run] at ssidRight passwordRight
    exact ⟨textReadable_of_ones rfl ssidRight, textReadable_of_ones rfl passwordRight⟩
  · intro readable
    obtain ⟨ssid, password⟩ := readable
    constructor
    · intro memory handles
      rw [loadWifiCredentials_run, ← List.append_nil (List.Vector.toList _)]
      exact cString_text ssid _ []
    · intro memory handles
      rw [loadWifiCredentials_run, ← List.append_nil (List.Vector.toList _)]
      exact cString_text password _ []

def bootCredentials (stored : Stored) (memory : BootMemory) : CredentialBytes :=
  ((stored.loadWifiCredentials memory).run
    ((stored.hasWifiConfigured memory).run memory.handles).2).1

theorem appMain_eq (memory : BootMemory) :
    stored.appMain memory =
      if ((stored.hasWifiConfigured memory).run memory.handles).1 = true then
        .station (stored.bootCredentials memory).ssidString
          (stored.bootCredentials memory).passwordString
      else .provisioning := by
  rw [appMain, bootCredentials]
  cases outcome : (stored.hasWifiConfigured memory).run memory.handles with
  | mk configured handles => cases configured <;> rfl

theorem appMain_filledWith (missing : stored.flag = none) (byte : UInt8) :
    stored.appMain (filledWith byte) = .provisioning ↔ byte ≠ 0 := by
  rw [appMain_eq, hasWifiConfigured_run, nvsGetU8_seen_null _ _ rfl, missing]
  by_cases zero : byte = 0
  · subst zero
    simp [filledWith]
  · simp [filledWith, zero]

theorem appMain_of_flag {hasData : UInt8} (read : stored.flag = some hasData)
    (memory : BootMemory) :
    stored.appMain memory =
      if hasData = 0 then
        .station (stored.bootCredentials memory).ssidString
          (stored.bootCredentials memory).passwordString
      else .provisioning := by
  rw [appMain_eq, hasWifiConfigured_run, nvsGetU8_seen _ _ read, Option.getD_some]
  simp only [beq_iff_eq]

theorem bootCredentials_strings (memory : BootMemory) :
    ∃ handles,
      let nvs := stored.seen handles stored.credentialsOpen memory.credentialsHandler
      let password := (nvsGetStrInto nvs "password" memory.credentials.password).toList
      (stored.bootCredentials memory).ssidString =
          cString ((nvsGetStrInto nvs "ssid" memory.credentials.ssid).toList ++
            (password ++ [memory.credentials.connected])) ∧
        (stored.bootCredentials memory).passwordString =
          cString (password ++ [memory.credentials.connected]) := by
  refine ⟨((stored.hasWifiConfigured memory).run memory.handles).2, ?_⟩
  rw [bootCredentials, loadWifiCredentials_run]
  exact ⟨rfl, CredentialBytes.passwordString_eq _⟩

/-- The branch that the store decides. -/
def branch (stored : Stored) : BootBranch :=
  if stored.flag = some 0 then
    .station (some (stored.textOrEmpty "ssid" 32))
      (some (stored.textOrEmpty "password" 64))
  else .provisioning

/-- The credentials only matter to a boot that takes the station branch. -/
theorem appMain_of_readable (flagReadable : stored.FlagReadable)
    (credentialsReadable : Configured stored.nvs → stored.CredentialsReadable)
    (memory : BootMemory) : stored.appMain memory = stored.branch := by
  obtain ⟨opens, hasData, found⟩ := flagReadable
  have read : stored.flag = some hasData := by rw [flag, if_pos opens, nvsGetU8, found]
  rw [appMain_of_flag read, branch, read]
  by_cases configured : hasData = 0
  · obtain ⟨ssid, password⟩ :=
      credentialsReadable (by rw [Configured, found, configured])
    obtain ⟨handles, ssidEq, passwordEq⟩ := stored.bootCredentials_strings memory
    rw [if_pos configured, if_pos (congrArg some configured), ssidEq, passwordEq,
      cString_text ssid, cString_text password]
  · rw [if_neg configured, if_neg fun same => configured (Option.some.inj same)]

theorem appMain_determined_iff :
    Determined stored.appMain ↔
      stored.FlagReadable ∧ (Configured stored.nvs → stored.CredentialsReadable) := by
  constructor
  · intro determined
    have same := determined (filledWith 0) (filledWith 1)
    have readable : stored.FlagReadable := by
      by_contra unreadable
      have missing := stored.flag_eq_none unreadable
      have provisions := (appMain_filledWith missing 1).mpr (by decide)
      exact (appMain_filledWith missing 0).mp (same.trans provisions) rfl
    refine ⟨readable, fun configured => ?_⟩
    have read : stored.flag = some 0 := by
      rw [flag, if_pos readable.1, nvsGetU8, configured]
    obtain ⟨handles, ssidZero, passwordZero⟩ :=
      stored.bootCredentials_strings (filledWith 0)
    obtain ⟨others, ssidOne, passwordOne⟩ :=
      stored.bootCredentials_strings (filledWith 1)
    rw [appMain_of_flag read, appMain_of_flag read, if_pos rfl, if_pos rfl,
      BootBranch.station.injEq, ssidZero, ssidOne, passwordZero, passwordOne] at same
    exact ⟨textReadable_of_same rfl rfl same.1, textReadable_of_same rfl rfl same.2⟩
  · intro readable
    exact .of_eq (appMain_of_readable readable.1 readable.2)

/-- The reads give what is stored exactly if all three keys can be read.  For two
boots to agree the credentials have to be readable only if the flag is set. -/
theorem dependsOnStoreAlone_iff (stored : Stored) :
    (stored.DependsOnStoreAlone ↔
      stored.FlagReadable ∧ stored.CredentialsReadable) ∧
    (Determined stored.appMain ↔
      stored.FlagReadable ∧ (Configured stored.nvs → stored.CredentialsReadable)) := by
  refine ⟨⟨fun depends => ?_, fun readable => ?_⟩, appMain_determined_iff⟩
  · exact ⟨flag_iff.mp depends.flag,
      credentials_iff.mp ⟨depends.ssid, depends.password⟩⟩
  · obtain ⟨ssid, password⟩ := credentials_iff.mpr readable.2
    exact ⟨flag_iff.mpr readable.1, ssid, password,
      appMain_determined_iff.mpr ⟨readable.1, fun _ => readable.2⟩⟩

def erased : Stored := ⟨fun _ _ => none, true, true⟩

/-- With an erased partition the memory decides the branch. -/
theorem erased_undecided :
    erased.appMain (filledWith 0) = .station (some []) (some []) ∧
      erased.appMain (filledWith 1) = .provisioning ∧
      ¬ erased.DependsOnStoreAlone := by
  have station : erased.appMain (filledWith 0) = .station (some []) (some []) := by
    decide
  have provisioning : erased.appMain (filledWith 1) = .provisioning := by decide
  have different : erased.appMain (filledWith 0) ≠ erased.appMain (filledWith 1) := by
    rw [station, provisioning]
    exact BootBranch.noConfusion
  exact ⟨station, provisioning, fun depends =>
    Determined.not_of_ne different depends.boots⟩

theorem cString_padded {size : Nat} (buffer : CBuffer size) (rest : List UInt8) :
    cString (buffer.padded.toList ++ rest) = some buffer.text := by
  obtain ⟨count, sizeEq⟩ := Nat.exists_eq_add_of_lt buffer.fits
  have zeros : size - buffer.text.length = count + 1 := by omega
  rw [CBuffer.padded, List.Vector.toList_mk, zeros, List.replicate_succ,
    List.append_assoc]
  exact cString_append_nul buffer.noNul _

theorem cString_nvsGetStrInto_padded (nvs : Nvs) (key : String) {size : Nat}
    (former : CBuffer size) (rest : List UInt8) :
    cString ((nvsGetStrInto nvs key former.padded).toList ++ rest) =
      some ((nvsGetStr nvs key size).getD former).text := by
  cases found : nvsGetStr nvs key size with
  | some buffer => exact cString_nvsGetStrInto found _ rest
  | none =>
      rw [nvsGetStrInto_of_none found]
      exact cString_padded former rest

/-- What the first call of `eeprom_handler` gives a boot to read. -/
def flagOpening (stored : Stored) (memory : BootMemory) : NvsOpening where
  opens := stored.flagOpens
  other := memory.handles.contents stored.partition memory.flagHandler.myHandle

def credentialsOpening (stored : Stored) (memory : BootMemory) : NvsOpening where
  opens := stored.credentialsOpen
  other := ((stored.hasWifiConfigured memory).run memory.handles).2.contents
    stored.partition memory.credentialsHandler.myHandle

/-- Where the arrays held strings, only what the two calls see matters. -/
theorem appMain_of_strings {garbage : Garbage} {memory : BootMemory}
    (hasData : memory.hasData = garbage.hasData)
    (ssid : memory.credentials.ssid = garbage.credentials.ssid.padded)
    (password : memory.credentials.password = garbage.credentials.password.padded) :
    let credentials := Lora32Mqtt.loadWifiCredentials garbage
      ((stored.credentialsOpening memory).seen stored.nvs)
    stored.appMain memory =
      if Lora32Mqtt.hasWifiConfigured garbage.hasData
          ((stored.flagOpening memory).seen stored.nvs) = true then
        .station (some credentials.ssid.text) (some credentials.password.text)
      else .provisioning := by
  have flag (nvs : Nvs) : ((nvsGetU8 nvs "has_data").getD garbage.hasData == 0) =
      Lora32Mqtt.hasWifiConfigured garbage.hasData nvs := by
    rw [nvsGetU8, Lora32Mqtt.hasWifiConfigured]
    rcases nvs "has_data" with _ | _ | _ <;> rfl
  rw [appMain_eq, bootCredentials, hasWifiConfigured_run, loadWifiCredentials_run,
    hasData, flag, ssid, password, CredentialBytes.passwordString_eq,
    CredentialBytes.ssidString, CredentialBytes.toBytes]
  simp only [cString_nvsGetStrInto_padded]
  rfl

theorem readable_of_provision {nvs : Nvs} {ssid : CBuffer 32} {password : CBuffer 64}
    (opens : stored.flagOpens = true ∧ stored.credentialsOpen = true)
    (provisioned : stored.nvs =
      (provision ssid.toCString password.toCString ⟨nvs, [true, true, true]⟩).2.store) :
    stored.FlagReadable ∧ stored.CredentialsReadable := by
  obtain ⟨ssidEq, passwordEq, flagEq⟩ := provision_lookup nvs ssid.toCString
    password.toCString [true, true, true]
  rw [← provisioned] at ssidEq passwordEq flagEq
  exact ⟨⟨opens.1, 0, flagEq⟩, ⟨opens.2, _, ssidEq, ssid.fits⟩,
    opens.2, _, passwordEq, password.fits⟩

end Stored

end Lora32Mqtt
