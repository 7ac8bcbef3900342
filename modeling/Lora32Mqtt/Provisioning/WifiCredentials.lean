import Lora32Mqtt.Base.Machine
import Lora32Mqtt.Provisioning.UrlDecode

/-!
# The configuration page (`wifi_credentials.cpp`)

The server is a parameter: which text it finds after a key of a query.  A text is
handed over only if it fits the buffer with its NUL.
-/

namespace Lora32Mqtt

structure Httpd where
  /-- The raw text of a key in a query. -/
  value : CString → CString → Option CString

/-- The query string of a request, if it has one. -/
abbrev Request : Type := Option CString

def httpdReqGetUrlQueryStr (request : Request) (size : Nat) :
    Option (CBuffer size) :=
  request.bind (·.toBuffer? size)

def Httpd.queryKeyValue (httpd : Httpd) (query key : CString) (size : Nat) :
    Option (CBuffer size) :=
  (httpd.value query key).bind (·.toBuffer? size)

structure WifiCredentials where
  ssid : CBuffer 32
  password : CBuffer 64
  connected : Bool
  deriving DecidableEq

/-- `static wifi_credentials_t last_credentials = {0}` -/
def initialCredentials : WifiCredentials where
  ssid := ⟨⟨[], by decide⟩, by decide⟩
  password := ⟨⟨[], by decide⟩, by decide⟩
  connected := false

def ssidKey : CString := ⟨asciiBytes "ssid", by decide⟩

def passwordKey : CString := ⟨asciiBytes "password", by decide⟩

/-- `url_decode` into an array of the field's size, then `strcpy` -/
def decodeField (size : Nat) (positive : 0 < size) (param : CString) :
    CBuffer size where
  text := cText (urlDecode param.text size)
  noNul := zero_notMem_cText _
  fits := by
    have cut := length_cText_le (urlDecode param.text size)
    have decoded := length_urlDecode_le param.text size
    omega

def setWifiHandler (httpd : Httpd) (last : WifiCredentials)
    (request : Request) : WifiCredentials :=
  match httpdReqGetUrlQueryStr request 100 with
  | none => last
  | some query =>
      let last :=
        match httpd.queryKeyValue query.toCString ssidKey 32 with
        | some param =>
            { last with ssid := decodeField 32 (by decide) param.toCString }
        | none => last
      let last :=
        match httpd.queryKeyValue query.toCString passwordKey 32 with
        | some param =>
            { last with
              password := decodeField 64 (by decide) param.toCString }
        | none => last
      { last with connected := true }

/-- A store into `last_credentials`, which other tasks may read in between. -/
inductive CredentialStore where
  | ssid (decoded : CBuffer 32)
  | password (decoded : CBuffer 64)
  | connected

def CredentialStore.apply (last : WifiCredentials) : CredentialStore → WifiCredentials
  | .ssid decoded => { last with ssid := decoded }
  | .password decoded => { last with password := decoded }
  | .connected => { last with connected := true }

/-- The stores of `set_wifi_handler`, in order. -/
def setWifiStores (httpd : Httpd) (request : Request) : List CredentialStore :=
  match httpdReqGetUrlQueryStr request 100 with
  | none => []
  | some query =>
      ((httpd.queryKeyValue query.toCString ssidKey 32).map fun param =>
        .ssid (decodeField 32 (by decide) param.toCString)).toList ++
      (((httpd.queryKeyValue query.toCString passwordKey 32).map fun param =>
        .password (decodeField 64 (by decide) param.toCString)).toList ++ [.connected])

/-- Together they are the handler. -/
theorem foldl_setWifiStores (httpd : Httpd) (last : WifiCredentials) (request : Request) :
    (setWifiStores httpd request).foldl CredentialStore.apply last =
      setWifiHandler httpd last request := by
  rw [setWifiStores, setWifiHandler]
  cases httpdReqGetUrlQueryStr request 100 with
  | none => rfl
  | some query =>
      dsimp only
      cases httpd.queryKeyValue query.toCString ssidKey 32 <;>
        cases httpd.queryKeyValue query.toCString passwordKey 32 <;> rfl

theorem CredentialStore.apply_connected {last : WifiCredentials}
    (connected : last.connected = true) (store : CredentialStore) :
    (store.apply last).connected = true := by
  cases store with
  | ssid decoded => exact connected
  | password decoded => exact connected
  | connected => rfl

variable {httpd : Httpd}

/-- The whole decoded value of a key. -/
def Submits (httpd : Httpd) (query key : CString) (value : List UInt8) : Prop :=
  ∃ raw, httpd.value query key = some raw ∧ formDecode raw.text = value

/-- These are the SSID and the password of the request. -/
def IsOf (httpd : Httpd) (request : Request) (credentials : WifiCredentials) :
    Prop :=
  ∃ query, request = some query ∧
    Submits httpd query ssidKey credentials.ssid.text ∧
    Submits httpd query passwordKey credentials.password.text

/-- A call stores all of its request, or nothing. -/
def Atomic (httpd : Httpd) (last : WifiCredentials) (request : Request) :
    Prop :=
  setWifiHandler httpd last request = last ∨
    IsOf httpd request (setWifiHandler httpd last request) ∧
      (setWifiHandler httpd last request).connected = true

/-- Credentials to connect with are those of one request, with an SSID. -/
def FromOneRequest (httpd : Httpd) (history : List Request)
    (last : WifiCredentials) : Prop :=
  last.connected = true →
    last.ssid.text ≠ [] ∧ ∃ request ∈ history, IsOf httpd request last

/-- The raw text fits the parameter buffer and decodes to a C string. -/
def FitsParam (httpd : Httpd) (query key : CString) (raw : CString) : Prop :=
  httpd.value query key = some raw ∧ raw.text.length < 32 ∧
    0 ∉ formDecode raw.text

/-- A readable query has both keys, with values that fit and an SSID that is not
empty. -/
def WellFormed (httpd : Httpd) (request : Request) : Prop :=
  ∀ query, request = some query → query.text.length < 100 →
    (∃ raw, FitsParam httpd query ssidKey raw ∧ raw.text ≠ []) ∧
      ∃ raw, FitsParam httpd query passwordKey raw

/-- The page as a machine: one call of the handler for each request. -/
def credentialsPage (httpd : Httpd) :
    Machine WifiCredentials Request Request where
  step last request := some (setWifiHandler httpd last request, [request])

theorem toBuffer?_of_fits {string : CString} {size : Nat}
    (fits : string.text.length < size) :
    string.toBuffer? size = some ⟨string, fits⟩ :=
  CString.toBuffer?_eq_some.mpr rfl

theorem toBuffer?_of_long {string : CString} {size : Nat}
    (long : ¬ string.text.length < size) : string.toBuffer? size = none := by
  rw [CString.toBuffer?, dif_neg long]

theorem decodeField_text {size : Nat} (positive : 0 < size) {param : CString}
    (fits : param.text.length < size) :
    (decodeField size positive param).text = cText (formDecode param.text) := by
  rw [← urlDecode_eq_formDecode fits]
  rfl

theorem setWifiHandler_unreadable {last : WifiCredentials} {request : Request}
    (unreadable : ∀ query, request = some query → ¬ query.text.length < 100) :
    setWifiHandler httpd last request = last := by
  cases request with
  | none => rfl
  | some query =>
      simp only [setWifiHandler, httpdReqGetUrlQueryStr, Option.bind_some,
        toBuffer?_of_long (unreadable query rfl)]

/-- What a call does to the text of a field, given what the server finds. -/
def fieldText (raw : Option CString) (old : List UInt8) : List UInt8 :=
  match raw with
  | some raw =>
      if raw.text.length < 32 then cText (formDecode raw.text) else old
  | none => old

theorem setWifiHandler_readable (httpd : Httpd) (last : WifiCredentials) {query : CString}
    (readable : query.text.length < 100) :
    let next := setWifiHandler httpd last (some query)
    next.ssid.text = fieldText (httpd.value query ssidKey) last.ssid.text ∧
      next.password.text =
        fieldText (httpd.value query passwordKey) last.password.text ∧
      next.connected = true := by
  have found : ∀ key, httpd.queryKeyValue query key 32 =
      (httpd.value query key).bind (·.toBuffer? 32) := fun _ => rfl
  simp only [setWifiHandler, httpdReqGetUrlQueryStr, Option.bind_some,
    toBuffer?_of_fits readable, found]
  refine ⟨?_, ?_, trivial⟩
  · cases ssidRaw : httpd.value query ssidKey with
    | none => cases (httpd.value query passwordKey).bind (·.toBuffer? 32) <;> rfl
    | some raw =>
        by_cases fits : raw.text.length < 32
        · rw [Option.bind_some, toBuffer?_of_fits fits, fieldText, if_pos fits,
            ← decodeField_text (by decide) fits]
          cases (httpd.value query passwordKey).bind (·.toBuffer? 32) <;> rfl
        · rw [Option.bind_some, toBuffer?_of_long fits, fieldText, if_neg fits]
          cases (httpd.value query passwordKey).bind (·.toBuffer? 32) <;> rfl
  · have keeps : ∀ param : Option (CBuffer 32),
        (match param with
          | some param =>
              { last with ssid := decodeField 32 (by decide) param.toCString }
          | none => last : WifiCredentials).password = last.password := by
      intro param
      cases param <;> rfl
    cases passwordRaw : httpd.value query passwordKey with
    | none => rw [Option.bind_none, fieldText, keeps]
    | some raw =>
        by_cases fits : raw.text.length < 32
        · rw [Option.bind_some, toBuffer?_of_fits fits, fieldText, if_pos fits]
          exact decodeField_text (by decide) (Nat.lt_trans fits (by decide))
        · rw [Option.bind_some, toBuffer?_of_long fits, fieldText, if_neg fits,
            keeps]

theorem fieldText_of_fits {query key raw : CString} {old : List UInt8}
    (fits : FitsParam httpd query key raw) :
    fieldText (httpd.value query key) old = formDecode raw.text := by
  rw [fits.1, fieldText, if_pos fits.2.1, cText_of_noNul fits.2.2]

theorem WellFormed.stored {query : CString}
    (wellFormed : WellFormed httpd (some query))
    (readable : query.text.length < 100) (last : WifiCredentials) :
    let next := setWifiHandler httpd last (some query)
    IsOf httpd (some query) next ∧ next.connected = true ∧
      next.ssid.text ≠ [] := by
  obtain ⟨⟨ssidRaw, ssidFits, nonempty⟩, passwordRaw, passwordFits⟩ :=
    wellFormed query rfl readable
  obtain ⟨ssidEq, passwordEq, connected⟩ :=
    setWifiHandler_readable httpd last readable
  rw [fieldText_of_fits ssidFits] at ssidEq
  rw [fieldText_of_fits passwordFits] at passwordEq
  refine ⟨⟨query, rfl, ⟨ssidRaw, ssidFits.1, ssidEq.symm⟩,
    ⟨passwordRaw, passwordFits.1, passwordEq.symm⟩⟩, connected, ?_⟩
  rw [ssidEq, Ne, formDecode_eq_nil]
  exact nonempty

theorem WellFormed.cases {request : Request}
    (wellFormed : WellFormed httpd request) (last : WifiCredentials) :
    setWifiHandler httpd last request = last ∨
      IsOf httpd request (setWifiHandler httpd last request) ∧
        (setWifiHandler httpd last request).connected = true ∧
        (setWifiHandler httpd last request).ssid.text ≠ [] := by
  by_cases readable : ∃ query, request = some query ∧ query.text.length < 100
  · obtain ⟨query, rfl, short⟩ := readable
    exact Or.inr (wellFormed.stored short last)
  · refine Or.inl (setWifiHandler_unreadable fun query isSome short => ?_)
    exact readable ⟨query, isSome, short⟩

theorem WellFormed.atomic {request : Request}
    (wellFormed : WellFormed httpd request) (last : WifiCredentials) :
    Atomic httpd last request :=
  (wellFormed.cases last).imp_right fun stored => ⟨stored.1, stored.2.1⟩

theorem WellFormed.fromOneRequest {request : Request} {history : List Request}
    {last : WifiCredentials} (wellFormed : WellFormed httpd request)
    (before : FromOneRequest httpd history last) :
    FromOneRequest httpd (history ++ [request])
      (setWifiHandler httpd last request) := by
  rcases wellFormed.cases last with same | ⟨isOf, _, nonempty⟩
  · rw [same]
    intro connected
    obtain ⟨nonempty, source, member, isOf⟩ := before connected
    exact ⟨nonempty, source, List.mem_append_left _ member, isOf⟩
  · exact fun _ => ⟨nonempty, request, List.mem_concat_self, isOf⟩

theorem wellFormed_of_first {request : Request}
    (sound : FromOneRequest httpd [request]
      (setWifiHandler httpd initialCredentials request)) :
    WellFormed httpd request := by
  intro query isQuery readable
  subst isQuery
  obtain ⟨ssidEq, passwordEq, connected⟩ :=
    setWifiHandler_readable httpd initialCredentials readable
  obtain ⟨nonempty, source, member, isOf⟩ := sound connected
  obtain rfl := List.mem_singleton.mp member
  obtain ⟨_, sameQuery, ⟨ssidRaw, ssidFound, ssidWhole⟩, passwordRaw,
    passwordFound, passwordWhole⟩ := isOf
  obtain rfl := Option.some.inj sameQuery
  rw [ssidFound, fieldText] at ssidEq
  rw [passwordFound, fieldText] at passwordEq
  have ssidFits : ssidRaw.text.length < 32 := by
    by_contra long
    rw [if_neg long] at ssidEq
    exact nonempty ssidEq
  have passwordFits : passwordRaw.text.length < 32 := by
    by_contra long
    rw [if_neg long] at passwordEq
    rw [passwordEq, show initialCredentials.password.text = [] from rfl,
      formDecode_eq_nil] at passwordWhole
    rw [passwordWhole] at long
    exact long (by decide)
  refine ⟨⟨ssidRaw, ⟨ssidFound, ssidFits, ?_⟩, ?_⟩, passwordRaw, passwordFound,
    passwordFits, ?_⟩
  · rw [ssidWhole]
    exact (setWifiHandler httpd initialCredentials (some query)).ssid.noNul
  · rw [← ssidWhole, Ne, formDecode_eq_nil] at nonempty
    exact nonempty
  · rw [passwordWhole]
    exact (setWifiHandler httpd initialCredentials (some query)).password.noNul

/-- Well-formed requests are stored as a whole or not at all, and what there is
to connect with comes from one of them.  A first request is treated so only if it
is well formed. -/
theorem submissions_whole {history : List Request} {last : WifiCredentials}
    (reached : (credentialsPage httpd).Reaches initialCredentials history last)
    (wellFormed : ∀ request ∈ history, WellFormed httpd request) :
    FromOneRequest httpd history last ∧
      (∀ request, WellFormed httpd request → Atomic httpd last request) ∧
      ∀ request, WellFormed httpd request ↔
        Atomic httpd initialCredentials request ∧
          FromOneRequest httpd [request]
            (setWifiHandler httpd initialCredentials request) := by
  have fresh : FromOneRequest httpd [] initialCredentials :=
    fun connected => absurd connected (by decide)
  refine ⟨?_, fun request good => good.atomic last, fun request => ?_⟩
  · refine reached.invariantOfEvents _ (FromOneRequest httpd) fresh ?_
      wellFormed
    intro history last request next events _ before taken good
    obtain ⟨rfl, rfl⟩ := Prod.mk.inj (Option.some.inj taken)
    exact (good _ (List.mem_singleton_self _)).fromOneRequest before
  · exact ⟨fun good => ⟨good.atomic _, good.fromOneRequest fresh⟩,
      fun sound => wellFormed_of_first sound.2⟩

/-- A server that splits the query at `&` and takes the first field `key=`. -/
def splittingHttpd : Httpd where
  value query key :=
    (query.text.splitOn 0x26).findSome? fun field =>
      if (key.text ++ [0x3D]).isPrefixOf field then
        some ⟨cText (field.drop (key.text.length + 1)), zero_notMem_cText _⟩
      else none

def homeQuery : CString :=
  ⟨asciiBytes "ssid=home&password=secret-42", by decide⟩

theorem homeQuery_wellFormed : WellFormed splittingHttpd (some homeQuery) := by
  intro query isHome _
  obtain rfl := Option.some.inj isHome
  refine ⟨⟨⟨asciiBytes "home", by decide⟩, ⟨?_, ?_, ?_⟩, ?_⟩,
    ⟨asciiBytes "secret-42", by decide⟩, ?_, ?_, ?_⟩ <;> decide +kernel

theorem submissions_whole_home :
    FromOneRequest splittingHttpd [some homeQuery]
      (setWifiHandler splittingHttpd initialCredentials (some homeQuery)) :=
  have reached : (credentialsPage splittingHttpd).Reaches initialCredentials
      [some homeQuery]
      (setWifiHandler splittingHttpd initialCredentials (some homeQuery)) :=
    .step .refl (show (credentialsPage splittingHttpd).step _
      (some homeQuery) = _ from rfl)
  (submissions_whole reached (by simpa using homeQuery_wellFormed)).1

/-- A password without an SSID is enough to connect. -/
theorem submissions_mixed :
    ¬ ∀ (httpd : Httpd) (history : List Request) (last : WifiCredentials),
      (credentialsPage httpd).Reaches initialCredentials history last →
        FromOneRequest httpd history last ∧
          ∀ request, Atomic httpd last request := by
  intro always
  let request : Request :=
    some ⟨asciiBytes "password=secret-42", by decide⟩
  have reached : (credentialsPage splittingHttpd).Reaches initialCredentials
      [request] (setWifiHandler splittingHttpd initialCredentials request) :=
    .step .refl (show (credentialsPage splittingHttpd).step _ request = _
      from rfl)
  have named := ((always splittingHttpd _ _ reached).1 (by decide +kernel)).1
  exact absurd named (by decide +kernel)

end Lora32Mqtt
