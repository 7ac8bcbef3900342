import Lora32Mqtt.Base.Numerals
import Lora32Mqtt.Provisioning.DnsAnswer
import Lora32Mqtt.Provisioning.WebServer

/-!
# The open access point (`start_wifi_ap`)

The access point, the name server and the redirections of the web server write down
one address in three ways.  Whoever joins the network and asks for any host is
therefore led to the form.  Of `esp_ip4addr_aton`, and of a browser, it is assumed
that it reads dotted decimal texts.
-/

namespace Lora32Mqtt

open Dns

/-- The text of an address, its bytes in decimal between dots. -/
def dottedDecimal (address : List UInt8) : List UInt8 :=
  List.intercalate [0x2E] (address.map fun byte => decimal byte.toNat)

/-- A parser that reads back the text of an address. -/
structure AddressParser where
  aton : List UInt8 → List UInt8
  reads : ∀ address, address.length = 4 → aton (dottedDecimal address) = address

def apIp : String := "4.3.2.1"

def apGateway : String := "4.3.2.1"

def apNetmask : String := "255.255.255.0"

def upperHexDigit (value : Nat) : UInt8 :=
  if value < 10 then UInt8.ofNat (0x30 + value) else UInt8.ofNat (0x37 + value)

/-- `%02X` -/
def upperHex (byte : UInt8) : List UInt8 :=
  [upperHexDigit (byte.toNat / 16), upperHexDigit (byte.toNat % 16)]

/-- What `"DC%02X%02X%02X%02X%02X%02X"` prints. -/
def apName (mac : CArray 6) : List UInt8 :=
  asciiBytes "DC" ++ mac.toList.flatMap upperHex

inductive WifiAuthMode where
  | wifiAuthOpen
  | other
  deriving DecidableEq

structure ApConfig where
  ssid : CArray 32
  ssidLen : UInt8
  channel : UInt8
  authmode : WifiAuthMode
  maxConnection : UInt8

structure IpInfo where
  ip : List UInt8
  netmask : List UInt8
  gw : List UInt8
  deriving DecidableEq

theorem length_apName (mac : CArray 6) : (apName mac).length = 14 := by
  have two : ∀ byte ∈ mac.toList, (upperHex byte).length = 2 := fun _ _ => rfl
  rw [apName, List.length_append, List.length_flatMap, List.map_congr_left two]
  simp [asciiBytes]

/-- `snprintf` into a field of zeros. -/
def apSsid (mac : CArray 6) : CArray 32 :=
  ⟨stringInto (List.replicate 32 0) ((apName mac).take 31), by
    rw [length_stringInto (by simp [length_apName])]
    simp⟩

/-- What is given to `esp_wifi_set_config` and to `esp_netif_set_ip_info`. -/
def startWifiAp (espIp4addr : AddressParser) (mac : CArray 6) : ApConfig × IpInfo :=
  ({ ssid := apSsid mac
     ssidLen := UInt8.ofNat (cText (apSsid mac).toList).length
     channel := 6
     authmode := .wifiAuthOpen
     maxConnection := 4 },
    { ip := espIp4addr.aton (asciiBytes apIp)
      netmask := espIp4addr.aton (asciiBytes apNetmask)
      gw := espIp4addr.aton (asciiBytes apGateway) })

variable {espIp4addr browser : AddressParser}

theorem hexDigitValue_upperHexDigit {value : Nat} (small : value < 16) :
    hexDigitValue (upperHexDigit value) = UInt8.ofNat value := by
  have all : ∀ digit < 16,
      hexDigitValue (upperHexDigit digit) = UInt8.ofNat digit := by decide
  exact all value small

theorem upperHexDigit_ne_zero {value : Nat} (small : value < 16) :
    upperHexDigit value ≠ 0 := by
  have all : ∀ digit < 16, upperHexDigit digit ≠ 0 := by decide
  exact all value small

theorem upperHex_injective : Function.Injective upperHex := by
  intro byte other same
  have read (byte : UInt8) : hexByte (upperHexDigit (byte.toNat / 16))
      (upperHexDigit (byte.toNat % 16)) = byte := by
    have bound := byte.toNat_lt
    rw [hexByte, hexDigitValue_upperHexDigit (by omega),
      hexDigitValue_upperHexDigit (by omega)]
    refine UInt8.toNat_inj.mp ?_
    rw [UInt8.toNat_add, UInt8.toNat_mul, UInt8.toNat_ofNat', UInt8.toNat_ofNat']
    change (byte.toNat / 16 % 2 ^ 8 * 16 % 2 ^ 8 + byte.toNat % 16 % 2 ^ 8) % 2 ^ 8 = _
    omega
  obtain ⟨high, low⟩ := List.cons.inj same
  rw [← read byte, high, List.singleton_inj.mp low, read other]

theorem flatMap_upperHex_injective : Function.Injective (List.flatMap upperHex) := by
  intro bytes
  induction bytes with
  | nil =>
      intro others same
      cases others with
      | nil => rfl
      | cons other others => cases same
  | cons byte bytes induction =>
      intro others same
      cases others with
      | nil => cases same
      | cons other others =>
          rw [List.flatMap_cons, List.flatMap_cons] at same
          obtain ⟨first, rest⟩ := List.append_inj same rfl
          rw [upperHex_injective first, induction rest]

theorem apName_injective : Function.Injective apName := by
  intro mac other same
  exact List.Vector.toList_injective
    (flatMap_upperHex_injective (List.append_cancel_left same))

theorem zero_notMem_apName (mac : CArray 6) : 0 ∉ apName mac := by
  intro member
  rcases List.mem_append.mp member with front | digits
  · revert front
    decide
  · obtain ⟨byte, _, digit⟩ := List.mem_flatMap.mp digits
    have bound := byte.toNat_lt
    rcases List.mem_cons.mp digit with high | low
    · exact upperHexDigit_ne_zero (by omega) high.symm
    · exact upperHexDigit_ne_zero (by omega) (List.mem_singleton.mp low).symm

/-- The whole name fits and its length is given. -/
theorem startWifiAp_name (mac : CArray 6) :
    cText (startWifiAp espIp4addr mac).1.ssid.toList = apName mac ∧
      (startWifiAp espIp4addr mac).1.ssidLen = 14 := by
  have whole : (apName mac).take 31 = apName mac :=
    List.take_of_length_le (by rw [length_apName]; decide)
  have text : cText (apSsid mac).toList = apName mac := by
    change cText (stringInto _ _) = _
    rw [whole]
    exact cText_append_nul (zero_notMem_apName mac) _
  refine ⟨text, ?_⟩
  change UInt8.ofNat (cText (apSsid mac).toList).length = 14
  rw [text, length_apName]
  rfl

/-- Different hardware has different networks. -/
theorem startWifiAp_distinct {mac other : CArray 6}
    (same : cText (startWifiAp espIp4addr mac).1.ssid.toList =
      cText (startWifiAp espIp4addr other).1.ssid.toList) : mac = other := by
  rw [(startWifiAp_name mac).1, (startWifiAp_name other).1] at same
  exact apName_injective same

example : apName ⟨[0x24, 0x0A, 0xC4, 0x00, 0x9F, 0xFF], rfl⟩ =
    asciiBytes "DC240AC4009FFF" := by decide

/-- The address that a client takes from a reply. -/
def resolve (name : DomainName) (reply : List UInt8) : Option (List UInt8) := do
  let message ← readMessage reply
  let record ← message.answers.find? fun record =>
    record.name = name ∧ record.rtype = 1 ∧ record.rclass = 1
  if message.header.qr then pure record.rdata else none

def locationHost (location : String) : List UInt8 :=
  (asciiBytes location).drop (asciiBytes "http://").length

/-- A browser asks the address that it was told, and once more where it is led; nobody
else is on the network. -/
def HttpServer.visit (server : HttpServer) (browser : AddressParser) (info : IpInfo)
    (table : List HttpdUri) (last : WifiCredentials) (address : List UInt8)
    (request : HttpRequest) : Option (WifiCredentials × HttpResponse) :=
  if address = info.ip then
    let (last, response) := server.serve table last request
    match response.location with
    | none => some (last, response)
    | some location =>
        if browser.aton (locationHost location) = info.ip then
          some (server.serve table last { method := .get, path := "/", query := none })
        else none
  else none

theorem startWifiAp_ip (mac : CArray 6) :
    (startWifiAp espIp4addr mac).2.ip = [4, 3, 2, 1] := by
  have text : asciiBytes apIp = dottedDecimal [4, 3, 2, 1] := by decide
  change espIp4addr.aton (asciiBytes apIp) = _
  rw [text, espIp4addr.reads _ rfl]

/-- The three addresses are one. -/
theorem portalLocation_ip (mac : CArray 6) :
    browser.aton (locationHost portalLocation) = (startWifiAp espIp4addr mac).2.ip := by
  have text : locationHost portalLocation = dottedDecimal [4, 3, 2, 1] := by decide
  rw [startWifiAp_ip, text, browser.reads _ rfl]

theorem resolve_dnsReply {memory : Memory} {datagram : Datagram} {query : Message}
    {name : DomainName} (ordinary : OrdinaryQuery datagram.bytes query name)
    (plain : query.additional = []) :
    resolve name (dnsReply memory datagram).sent = some [4, 3, 2, 1] := by
  obtain ⟨flags, first, rest, response, split, read⟩ :=
    readMessage_dnsReply memory ordinary
  rw [plain, List.nil_append] at split
  obtain ⟨rfl, _⟩ := List.cons.inj split
  simp [resolve, read, dnsRecord, Header.qr, response]

/-- In any run of the name server, a client that asks for the address of any host
is told that of the access point, and whatever it asks there but two paths, it ends
at the form and changes nothing. -/
theorem portal_reached {server : HttpServer} {starts : Bool} {table : List HttpdUri}
    (started : server.startWebserver starts = some table)
    (room : 8 ≤ server.maxUriHandlers) (mac : CArray 6) {memory : Memory}
    {received : List (Option Datagram)} {reply : DnsReply}
    (replied : reply ∈ dnsServerTask memory received) {query : Message}
    {name : DomainName} (ordinary : OrdinaryQuery reply.datagram.bytes query name)
    (plain : query.additional = []) :
    ∃ address, resolve name reply.sent = some address ∧
      ∀ last path request, path ≠ "/connecttest.txt" → path ≠ "/set_wifi" →
        server.visit browser (startWifiAp espIp4addr mac).2 table last address
          ⟨.get, path, request⟩ = some (last, rootHandler) := by
  obtain rfl := HttpServer.startWebserver_whole started room
  obtain ⟨before, same⟩ := mem_dnsServerTask replied
  refine ⟨[4, 3, 2, 1], ?_, ?_⟩
  · rw [same]
    exact resolve_dnsReply ordinary plain
  · intro last path request notTest notForm
    rw [HttpServer.visit, if_pos (startWifiAp_ip mac).symm]
    rcases server.serve_form last request notTest notForm with
      form | ⟨response, served, location⟩
    · simp only [form]
      rfl
    · simp only [served, location, if_pos (portalLocation_ip mac)]
      rw [server.serve_root]

def homeMac : CArray 6 := ⟨[0x24, 0x0A, 0xC4, 0x00, 0x9F, 0xFF], rfl⟩

/-- Enough of a parser for dotted decimal texts. -/
def splittingAton : AddressParser where
  aton text := (text.splitOn 0x2E).map fun octet => UInt8.ofNat (decimalValue octet)
  reads := by
    intro address length
    have octets : ∀ octet ∈ address.map fun byte : UInt8 => decimal byte.toNat,
        0x2E ∉ octet := by
      intro octet member
      obtain ⟨byte, _, rfl⟩ := List.mem_map.mp member
      exact fun dot => absurd (toNat_of_mem_decimal dot).1 (by decide)
    have some : (address.map fun byte : UInt8 => decimal byte.toNat) ≠ [] := by
      rintro none
      rw [List.map_eq_nil_iff.mp none] at length
      cases length
    rw [dottedDecimal, List.splitOn_intercalate _ octets some, List.map_map]
    exact List.map_id'' (fun byte => by simp [decimalValue_decimal]) address

/-- The probe of a client that has asked for the address of `a`. -/
theorem portal_reached_home :
    (HttpServer.exactServer 8).visit splittingAton (startWifiAp splittingAton homeMac).2
        portalUris initialCredentials [4, 3, 2, 1] ⟨.get, "/generate_204", none⟩ =
      some (initialCredentials, rootHandler) := by
  have ordinary := @ordinary_sampleQuery 0 [] [] (by decide) rfl
  let asked : Datagram := ⟨sampleQuery 0 [], by decide⟩
  have replied : dnsReply (fun _ => 0) asked ∈ dnsServerTask (fun _ => 0) [some asked] :=
    List.mem_cons_self
  obtain ⟨address, resolved, visits⟩ := portal_reached
    (rfl : (HttpServer.exactServer 8).startWebserver true = some portalUris)
    (by decide) homeMac replied ordinary rfl
  rw [resolve_dnsReply ordinary rfl] at resolved
  obtain rfl := Option.some.inj resolved
  exact visits initialCredentials "/generate_204" none (by decide) (by decide)

end Lora32Mqtt
