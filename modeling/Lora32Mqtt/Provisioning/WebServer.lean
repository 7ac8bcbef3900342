import Lora32Mqtt.Base.Simulation
import Lora32Mqtt.Provisioning.WifiCredentials

/-!
# The configuration server (`start_webserver`)

The HTTP server is not part of the source.  Of `httpd_register_uri_handler` it is
assumed that a handler for a new path is taken as long as there is room, and of a
request that the handler for its path and method runs, and the one for error 404 if
nobody has registered the path.  The two HTML documents are given by their names.
-/

namespace Lora32Mqtt

inductive HttpMethod where
  | get
  | head
  | post
  | other
  deriving DecidableEq

structure HttpRequest where
  method : HttpMethod
  path : String
  query : Request

inductive HttpBody where
  | wifiConfigPage
  | wifiConfiguredSuccessful
  | bytes (content : List UInt8)
  deriving DecidableEq

structure HttpResponse where
  status : String
  type : String
  location : Option String
  body : HttpBody
  deriving DecidableEq

/-- What the server fills in if a handler does not. -/
def httpdResponse (body : HttpBody) : HttpResponse where
  status := "200 OK"
  type := "text/html"
  location := none
  body := body

def portalLocation : String := "http://4.3.2.1"

def rootHandler : HttpResponse := httpdResponse .wifiConfigPage

def redirectHandler : HttpResponse :=
  { httpdResponse (.bytes []) with
    status := "302 Found"
    location := some portalLocation }

/-- The length that is given covers the NUL of the literal. -/
def connectTestHandler : HttpResponse :=
  httpdResponse (.bytes ((asciiBytes "http://logout.net" ++ [0]).take 18))

def notFoundHandler : HttpResponse :=
  { httpdResponse (.bytes []) with
    status := "302 Found"
    location := some portalLocation }

inductive UriHandler where
  | connectTest
  | redirect
  | root
  | setWifi
  deriving DecidableEq

/-- The credentials that a handler leaves and what it sends. -/
def UriHandler.run (httpd : Httpd) (handler : UriHandler) (last : WifiCredentials)
    (query : Request) : WifiCredentials × HttpResponse :=
  match handler with
  | .connectTest => (last, connectTestHandler)
  | .redirect => (last, redirectHandler)
  | .root => (last, rootHandler)
  | .setWifi =>
      (setWifiHandler httpd last query, httpdResponse .wifiConfiguredSuccessful)

def UriHandler.stores (httpd : Httpd) (query : Request) :
    UriHandler → List CredentialStore
  | .setWifi => setWifiStores httpd query
  | .connectTest | .redirect | .root => []

structure HttpdUri where
  uri : String
  method : HttpMethod
  handler : UriHandler
  deriving DecidableEq

inductive HttpdFound where
  | handler (handler : UriHandler)
  | notFound
  | otherError
  deriving DecidableEq

def HttpdFound.stores (httpd : Httpd) (query : Request) :
    HttpdFound → List CredentialStore
  | .handler registered => registered.stores httpd query
  | .notFound | .otherError => []

/-- The server; a table lists what has been registered, in order. -/
structure HttpServer where
  httpd : Httpd
  maxUriHandlers : Nat
  /-- `httpd_register_uri_handler`, the result of which is ignored. -/
  register : List HttpdUri → HttpdUri → List HttpdUri
  find : List HttpdUri → HttpMethod → String → HttpdFound
  /-- What is sent for the errors without a handler of their own. -/
  errorResponse : HttpResponse
  registers : ∀ {table uri}, table.length < maxUriHandlers →
    (∀ other ∈ table, other.uri ≠ uri.uri) → register table uri = table ++ [uri]
  refuses : ∀ {table uri}, maxUriHandlers ≤ table.length → register table uri = table
  found : ∀ {table method path handler},
    find table method path = .handler handler → ⟨path, method, handler⟩ ∈ table
  finds : ∀ {table method path handler}, ⟨path, method, handler⟩ ∈ table →
    (∀ uri ∈ table, uri.uri = path → uri.handler = handler) →
      find table method path = .handler handler
  misses : ∀ {table method path}, (∀ uri ∈ table, uri.uri ≠ path) →
    find table method path = .notFound

/-- The handlers that `start_webserver` registers, in order. -/
def portalUris : List HttpdUri :=
  [⟨"/connecttest.txt", .get, .connectTest⟩, ⟨"/redirect", .get, .redirect⟩,
    ⟨"/hotspot-detect.html", .get, .redirect⟩, ⟨"/canonical.html", .get, .redirect⟩,
    ⟨"/generate_204", .get, .redirect⟩, ⟨"/ncsi.txt", .get, .redirect⟩,
    ⟨"/", .get, .root⟩, ⟨"/set_wifi", .get, .setWifi⟩]

namespace HttpServer

variable (server : HttpServer)

def startWebserver (starts : Bool) : Option (List HttpdUri) :=
  if starts then some (portalUris.foldl server.register []) else none

def serve (table : List HttpdUri) (last : WifiCredentials) (request : HttpRequest) :
    WifiCredentials × HttpResponse :=
  match server.find table request.method request.path with
  | .handler handler => handler.run server.httpd last request.query
  | .notFound => (last, notFoundHandler)
  | .otherError => (last, server.errorResponse)

/-- A browser that follows a redirection to the portal. -/
def browse (table : List HttpdUri) (last : WifiCredentials) (request : HttpRequest) :
    WifiCredentials × HttpResponse :=
  let (last, response) := server.serve table last request
  if response.location = some portalLocation then
    server.serve table last { method := .get, path := "/", query := none }
  else (last, response)

/-- Any sequence of requests; an event is a request with its response. -/
def portal (table : List HttpdUri) :
    Machine WifiCredentials HttpRequest (HttpRequest × HttpResponse) where
  step last request :=
    some ((server.serve table last request).1,
      [(request, (server.serve table last request).2)])

end HttpServer

namespace HttpServer

variable {server : HttpServer} {table : List HttpdUri}

theorem registered_eq (server : HttpServer) (uris table : List HttpdUri)
    (room : table.length ≤ server.maxUriHandlers)
    (distinct : ((table ++ uris).map HttpdUri.uri).Nodup) :
    uris.foldl server.register table =
      table ++ uris.take (server.maxUriHandlers - table.length) := by
  induction uris generalizing table with
  | nil => simp
  | cons uri uris induction =>
      rw [List.foldl_cons]
      rcases Nat.lt_or_ge table.length server.maxUriHandlers with less | full
      · have new : ∀ other ∈ table, other.uri ≠ uri.uri := by
          intro other member same
          rw [List.map_append, List.nodup_append] at distinct
          exact distinct.2.2 _ (List.mem_map_of_mem member) _
            (List.mem_map_of_mem List.mem_cons_self) same
        have grown : (table ++ [uri]).length ≤ server.maxUriHandlers := by
          rwa [List.length_append, List.length_singleton]
        have rest : server.maxUriHandlers - table.length =
            server.maxUriHandlers - (table ++ [uri]).length + 1 := by
          simp only [List.length_append, List.length_singleton]
          omega
        rw [server.registers less new, induction _ grown (by simpa using distinct), rest,
          List.take_succ_cons, List.append_assoc, List.singleton_append]
      · have others : ((table ++ uris).map HttpdUri.uri).Nodup := by
          refine distinct.sublist (List.Sublist.map _ ?_)
          exact (List.Sublist.refl _).append (List.sublist_cons_self _ _)
        have none : server.maxUriHandlers - table.length = 0 := by omega
        rw [server.refuses full, induction _ room others, none]
        simp

theorem startWebserver_eq {starts : Bool}
    (started : server.startWebserver starts = some table) :
    table = portalUris.take server.maxUriHandlers := by
  rw [startWebserver] at started
  split at started
  next =>
    have filled := server.registered_eq portalUris [] (Nat.zero_le _) (by decide)
    rw [← Option.some.inj started, filled]
    simp
  next => cases started

theorem startWebserver_of_room (server : HttpServer) (room : 8 ≤ server.maxUriHandlers) :
    server.startWebserver true = some portalUris := by
  have filled := server.registered_eq portalUris [] (Nat.zero_le _) (by decide)
  rw [startWebserver, if_pos rfl, filled, List.nil_append]
  exact congrArg some (List.take_of_length_le room)

theorem startWebserver_whole {starts : Bool}
    (started : server.startWebserver starts = some table)
    (room : 8 ≤ server.maxUriHandlers) : table = portalUris := by
  rw [startWebserver_eq started]
  exact List.take_of_length_le room

theorem serve_eq_stores (last : WifiCredentials) (request : HttpRequest) :
    (server.serve table last request).1 =
      ((server.find table request.method request.path).stores server.httpd
        request.query).foldl CredentialStore.apply last := by
  rw [serve]
  cases server.find table request.method request.path with
  | notFound => rfl
  | otherError => rfl
  | handler handler =>
      cases handler with
      | setWifi => exact (foldl_setWifiStores server.httpd last request.query).symm
      | connectTest => rfl
      | redirect => rfl
      | root => rfl

/-- Only the handler of the form changes the credentials. -/
theorem serve_keeps {last : WifiCredentials} {request : HttpRequest}
    (absent : ⟨request.path, request.method, .setWifi⟩ ∉ table) :
    (server.serve table last request).1 = last := by
  rw [serve]
  cases found : server.find table request.method request.path with
  | notFound => rfl
  | otherError => rfl
  | handler handler =>
      cases handler with
      | setWifi => exact absurd (server.found found) absent
      | connectTest => rfl
      | redirect => rfl
      | root => rfl

theorem find_portal {uri : HttpdUri} (member : uri ∈ portalUris) :
    server.find portalUris uri.method uri.uri = .handler uri.handler := by
  refine server.finds member fun other otherMember same => ?_
  revert uri other
  decide

theorem serve_portal {uri : HttpdUri} (member : uri ∈ portalUris)
    (last : WifiCredentials) (query : Request) :
    server.serve portalUris last ⟨uri.method, uri.uri, query⟩ =
      uri.handler.run server.httpd last query := by
  simp only [serve, find_portal member]

theorem serve_missing {path : String} (missing : ∀ uri ∈ portalUris, uri.uri ≠ path)
    (last : WifiCredentials) (method : HttpMethod) (query : Request) :
    server.serve portalUris last ⟨method, path, query⟩ = (last, notFoundHandler) := by
  simp only [serve, server.misses missing]

def submitted (request : HttpRequest) : List Request :=
  if request.method = .get ∧ request.path = "/set_wifi" then [request.query] else []

theorem serve_credentials (server : HttpServer) (last : WifiCredentials)
    (request : HttpRequest) :
    (credentialsPage server.httpd).Reaches last (submitted request)
      (server.serve portalUris last request).1 := by
  obtain ⟨method, path, query⟩ := request
  rw [submitted]
  by_cases submits : method = .get ∧ path = "/set_wifi"
  · rw [if_pos submits]
    obtain ⟨rfl, rfl⟩ := submits
    have served := @serve_portal server ⟨"/set_wifi", .get, .setWifi⟩ (by decide) last query
    rw [served]
    have taken : (credentialsPage server.httpd).step last query =
        some (setWifiHandler server.httpd last query, [query]) := rfl
    exact .step .refl taken
  · have absent : ⟨path, method, .setWifi⟩ ∉ portalUris := by
      intro member
      apply submits
      have only : ∀ uri ∈ portalUris, uri.handler = .setWifi →
          uri.method = .get ∧ uri.uri = "/set_wifi" := by decide
      exact only _ member rfl
    rw [if_neg submits, serve_keeps absent]
    exact .refl

/-- Any other path is the form, or leads to it. -/
theorem serve_form (server : HttpServer) (last : WifiCredentials) {path : String}
    (query : Request) (notTest : path ≠ "/connecttest.txt")
    (notForm : path ≠ "/set_wifi") :
    server.serve portalUris last ⟨.get, path, query⟩ = (last, rootHandler) ∨
      ∃ response, server.serve portalUris last ⟨.get, path, query⟩ = (last, response) ∧
        response.location = some portalLocation := by
  by_cases known : ∃ uri ∈ portalUris, uri.uri = path
  · obtain ⟨uri, member, rfl⟩ := known
    have get : ∀ uri ∈ portalUris, uri.method = .get := by decide
    have kinds : ∀ uri ∈ portalUris, uri.uri ≠ "/connecttest.txt" →
        uri.uri ≠ "/set_wifi" →
          uri = ⟨"/", .get, .root⟩ ∨ uri.handler = .redirect := by decide
    have served := @serve_portal server uri member last query
    rw [get uri member] at served
    rcases kinds uri member notTest notForm with rfl | redirects
    · exact .inl served
    · rw [redirects] at served
      exact .inr ⟨_, served, rfl⟩
  · have missing : ∀ uri ∈ portalUris, uri.uri ≠ path :=
      fun uri member same => known ⟨uri, member, same⟩
    exact .inr ⟨_, serve_missing missing last .get query, rfl⟩

theorem serve_root (server : HttpServer) (last : WifiCredentials) :
    server.serve portalUris last ⟨.get, "/", none⟩ = (last, rootHandler) :=
  @serve_portal server ⟨"/", .get, .root⟩ (by decide) last none

theorem browse_form (last : WifiCredentials) {path : String} (query : Request)
    (notTest : path ≠ "/connecttest.txt") (notForm : path ≠ "/set_wifi") :
    server.browse portalUris last ⟨.get, path, query⟩ = (last, rootHandler) := by
  rcases server.serve_form last query notTest notForm with
    form | ⟨response, served, location⟩
  · simp only [browse, form]
    rfl
  · simp only [browse, served, location, if_true]
    exact server.serve_root last

theorem portal_simulates (server : HttpServer) :
    Machine.Simulates (credentialsPage server.httpd) (server.portal portalUris) Eq
      fun event => submitted event.1 := by
  rintro last _ request next events rfl taken
  obtain ⟨rfl, rfl⟩ := Prod.mk.inj (Option.some.inj taken)
  refine ⟨_, ?_, rfl⟩
  rw [List.flatMap_singleton]
  exact server.serve_credentials last request

theorem portal_unchanged
    (absent : ∀ path method, ⟨path, method, .setWifi⟩ ∉ table)
    {start last : WifiCredentials} {history : List (HttpRequest × HttpResponse)}
    (reached : (server.portal table).Reaches start history last) : last = start := by
  induction reached with
  | refl => rfl
  | step _ taken induction =>
      obtain ⟨rfl, _⟩ := Prod.mk.inj (Option.some.inj taken)
      exact (serve_keeps (absent _ _)).trans induction

/-- A server with room for eight handlers is a captive portal: whatever is asked
for, the credentials are what the handler of the form makes of its own requests,
in order, and a browser that asks for any other path but one is shown the form. -/
theorem portal_captive {starts : Bool}
    (started : server.startWebserver starts = some table)
    (room : 8 ≤ server.maxUriHandlers) {history : List (HttpRequest × HttpResponse)}
    {last : WifiCredentials}
    (reached : (server.portal table).Reaches initialCredentials history last) :
    (credentialsPage server.httpd).Reaches initialCredentials
        (history.flatMap fun event => submitted event.1) last ∧
      ∀ path query, path ≠ "/connecttest.txt" → path ≠ "/set_wifi" →
        server.browse table last ⟨.get, path, query⟩ = (last, rootHandler) := by
  obtain rfl := startWebserver_whole started room
  obtain ⟨_, submissions, rfl⟩ := server.portal_simulates.reaches rfl reached
  exact ⟨submissions, fun _ query notTest notForm =>
    browse_form _ query notTest notForm⟩

/-- A server that takes the first handler of a path with the method. -/
def exactServer (maxUriHandlers : Nat) : HttpServer where
  httpd := splittingHttpd
  maxUriHandlers := maxUriHandlers
  register table uri :=
    if table.length < maxUriHandlers ∧
        ∀ other ∈ table, other.uri = uri.uri → other.method ≠ uri.method then
      table ++ [uri]
    else table
  find table method path :=
    match table.find? fun uri => uri.uri = path ∧ uri.method = method with
    | some uri => .handler uri.handler
    | none => if table.any (·.uri = path) then .otherError else .notFound
  errorResponse := { httpdResponse (.bytes []) with status := "405 Method Not Allowed" }
  registers := fun less new =>
    if_pos ⟨less, fun other member same => absurd same (new other member)⟩
  refuses := fun full => if_neg fun both => absurd both.1 (Nat.not_lt.mpr full)
  found := by
    intro table method path handler found
    split at found
    next uri first =>
      have known := List.find?_some first
      rw [decide_eq_true_eq] at known
      obtain ⟨rfl, rfl⟩ := known
      cases found
      exact List.mem_of_find?_eq_some first
    next =>
      split at found
      · cases found
      · cases found
  finds := by
    intro table method path handler member only
    cases first : table.find? fun uri => uri.uri = path ∧ uri.method = method with
    | none =>
        have unknown := List.find?_eq_none.mp first _ member
        simp at unknown
    | some uri =>
        have known := List.find?_some first
        rw [decide_eq_true_eq] at known
        exact congrArg _ (only uri (List.mem_of_find?_eq_some first) known.1)
  misses := by
    intro table method path missing
    have first : (table.find? fun uri => uri.uri = path ∧ uri.method = method) = none := by
      refine List.find?_eq_none.mpr fun uri member => ?_
      simp [missing uri member]
    have unknown : table.any (·.uri = path) = false := by
      simpa using missing
    rw [first, unknown]
    rfl

/-- A probe for the portal, then the form. -/
theorem portal_captive_home :
    ∃ last, (credentialsPage splittingHttpd).Reaches initialCredentials
        [some homeQuery] last ∧
      ((exactServer 8).browse portalUris last ⟨.get, "/news", none⟩ =
        (last, rootHandler)) := by
  have probed : ((exactServer 8).portal portalUris).Reaches initialCredentials _ _ :=
    .step .refl (rfl : ((exactServer 8).portal portalUris).step _
      ⟨.get, "/generate_204", none⟩ = some _)
  have submits := Machine.Reaches.step probed
    (rfl : ((exactServer 8).portal portalUris).step _
      ⟨.get, "/set_wifi", some homeQuery⟩ = some _)
  have started : (exactServer 8).startWebserver true = some portalUris := rfl
  obtain ⟨submissions, shows⟩ := portal_captive started (by decide) submits
  exact ⟨_, submissions, shows "/news" none (by decide) (by decide)⟩

/-- The form comes last, so that it can be submitted exactly if there is room for
all eight handlers. -/
theorem portal_configurable_iff {starts : Bool}
    (started : server.startWebserver starts = some table) :
    (∃ history last, (server.portal table).Reaches initialCredentials history last ∧
        last.connected = true) ↔
      8 ≤ server.maxUriHandlers := by
  constructor
  · rintro ⟨history, last, reached, connected⟩
    by_contra full
    have absent (path : String) (method : HttpMethod) :
        ⟨path, method, .setWifi⟩ ∉ table := by
      intro member
      rw [startWebserver_eq started] at member
      have few : portalUris.take server.maxUriHandlers ⊆ portalUris.take 7 :=
        List.Sublist.subset (List.take_sublist_take_left (by omega))
      have other : ∀ uri ∈ portalUris.take 7, uri.handler ≠ .setWifi := by decide
      exact other _ (few member) rfl
    rw [portal_unchanged absent reached] at connected
    cases connected
  · intro room
    obtain rfl := startWebserver_whole started room
    let empty : CString := ⟨[], by decide⟩
    have taken : (server.portal portalUris).step initialCredentials
        ⟨.get, "/set_wifi", some empty⟩ = some _ := rfl
    refine ⟨_, _, .step .refl taken, ?_⟩
    have served := @serve_portal server ⟨"/set_wifi", .get, .setWifi⟩ (by decide)
      initialCredentials (some empty)
    rw [served]
    exact (setWifiHandler_readable server.httpd initialCredentials
      (show empty.text.length < 100 by decide)).2.2

/-- The server of a default configuration has room for eight. -/
theorem portal_configurable_iff_default :
    ∃ history last,
      ((exactServer 8).portal portalUris).Reaches initialCredentials history last ∧
        last.connected = true :=
  (portal_configurable_iff (rfl : (exactServer 8).startWebserver true = _)).mpr
    (by decide)

end HttpServer

end Lora32Mqtt
