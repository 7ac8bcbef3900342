import Lora32Mqtt.Time.PrintedTime

/-!
# Publishing (`mqtt.cpp`)

`mqtt_publish_data` builds a JSON object of three members, prints it and hands the
text to the MQTT client.  cJSON is not part of the source.  Each of its five
creations may return NULL, adding a NULL to an object or to a NULL object does
nothing and takes no ownership, and deleting an object deletes its members.  A
printed text is given by the members that it shows.
-/

namespace Lora32Mqtt

abbrev TimeBuffer : Type := CArray timeBufferSize

/-- A `const char *`: into the static buffer, or to a string of the caller. -/
inductive CharPtr where
  | timeBuffer
  | text (string : CString)

/-- The string that is read through the pointer. -/
def CharPtr.read (pointer : CharPtr) (timeBuffer : TimeBuffer) : List UInt8 :=
  match pointer with
  | .timeBuffer => cText timeBuffer.toList
  | .text string => string.text

/-- What a call of `formart_timestamp_us` leaves in its buffer, to which it returns
a pointer. -/
def formatInto (timestampUs : UInt64) (timeBuffer : TimeBuffer) : TimeBuffer :=
  ⟨stringInto timeBuffer.toList (formartTimestampUs timestampUs),
    (length_stringInto
      (by simpa using (formartTimestampUs_whole timestampUs).2.2)).trans
      timeBuffer.toList_length⟩

theorem read_formatInto (timestampUs : UInt64) (timeBuffer : TimeBuffer) :
    CharPtr.timeBuffer.read (formatInto timestampUs timeBuffer) =
      formartTimestampUs timestampUs :=
  cText_append_nul (formartTimestampUs_whole timestampUs).2.1 _

/-- What a call can obtain from cJSON. -/
inductive Block where
  | object
  | slaveId
  | slaveTime
  | masterTime
  | printed
  deriving DecidableEq

structure Creations where
  object : Bool
  slaveId : Bool
  slaveTime : Bool
  masterTime : Bool
  printed : Bool
  deriving DecidableEq

def allSucceed : Creations := ⟨true, true, true, true, true⟩

inductive JsonValue where
  | number (value : Int)
  | string (text : List UInt8)
  deriving DecidableEq

structure JsonItem where
  block : Block
  value : JsonValue

structure JsonObject where
  block : Block
  members : List (String × JsonItem)

structure JsonText where
  block : Block
  members : List (String × JsonValue)

def mqttTopic : String := "mqtt-lora32"

/-- A call of `esp_mqtt_client_publish`. -/
structure Publication (Client : Type) where
  client : Client
  topic : String
  /-- The text that is read during the call, NULL if there is none. -/
  data : Option (List (String × JsonValue))
  len : Int
  qos : Int
  retain : Int
  deriving DecidableEq

/-- The static buffer, and what a call has done so far. -/
structure PublishState (Client : Type) where
  timeBuffer : TimeBuffer
  obtained : List Block
  released : List Block
  published : List (Publication Client)

abbrev PublishM (Client : Type) : Type → Type := StateM (PublishState Client)

section Calls

variable {Client : Type}

/-- A creation, which returns NULL if it does not succeed. -/
def create {α : Type} (succeeds : Bool) (block : Block) (made : α) :
    PublishM Client (Option α) :=
  if succeeds then do
    modify fun state => { state with obtained := state.obtained ++ [block] }
    pure (some made)
  else pure none

def release (blocks : List Block) : PublishM Client Unit :=
  modify fun state => { state with released := state.released ++ blocks }

def cJsonCreateObject (succeeds : Bool) : PublishM Client (Option JsonObject) :=
  create succeeds .object ⟨.object, []⟩

def cJsonCreateNumber (succeeds : Bool) (block : Block) (value : Int) :
    PublishM Client (Option JsonItem) :=
  create succeeds block ⟨block, .number value⟩

/-- The string is copied during the call. -/
def cJsonCreateString (succeeds : Bool) (block : Block) (pointer : CharPtr) :
    PublishM Client (Option JsonItem) := do
  let state ← get
  create succeeds block ⟨block, .string (pointer.read state.timeBuffer)⟩

def cJsonAddItemToObject (object : Option JsonObject) (name : String)
    (item : Option JsonItem) : Option JsonObject :=
  match object, item with
  | some object, some item =>
      some { object with members := object.members ++ [(name, item)] }
  | object, _ => object

def cJsonPrint (succeeds : Bool) (object : Option JsonObject) :
    PublishM Client (Option JsonText) :=
  match object with
  | some object =>
      create succeeds .printed
        ⟨.printed, object.members.map fun member => (member.1, member.2.value)⟩
  | none => pure none

def cJsonDelete (object : Option JsonObject) : PublishM Client Unit :=
  match object with
  | some object =>
      release (object.block :: object.members.map fun member => member.2.block)
  | none => pure ()

def freeText (text : Option JsonText) : PublishM Client Unit :=
  match text with
  | some text => release [text.block]
  | none => pure ()

/-- `formart_timestamp_us` as a call. -/
def formart (timestampUs : UInt64) : PublishM Client CharPtr := do
  modify fun state =>
    { state with timeBuffer := formatInto timestampUs state.timeBuffer }
  pure .timeBuffer

def espMqttClientPublish (client : Client) (topic : String)
    (data : Option JsonText) (len qos retain : Int) : PublishM Client Unit :=
  modify fun state =>
    { state with
      published := state.published ++
        [{ client, topic, data := data.map JsonText.members, len, qos, retain }] }

/-- `mqtt_publish_data (slave_id, message_data)`, with the client that
`mqtt_client` returns and the system time. -/
def mqttPublishData (succeeds : Creations) (client : Option Client) (slaveId : Int)
    (messageData : CharPtr) (clock : UInt64) : PublishM Client Unit := do
  match client with
  | none => pure ()
  | some client =>
      let json ← cJsonCreateObject succeeds.object
      let slaveIdJson ← cJsonCreateNumber succeeds.slaveId .slaveId slaveId
      let message ← cJsonCreateString succeeds.slaveTime .slaveTime messageData
      let timestamp ← cJsonCreateString succeeds.masterTime .masterTime
        (← formart (getEpochTimeUs clock))
      let json := cJsonAddItemToObject json "slave_id" slaveIdJson
      let json := cJsonAddItemToObject json "slave_time" message
      let json := cJsonAddItemToObject json "master_time" timestamp
      let jsonString ← cJsonPrint succeeds.printed json
      espMqttClientPublish client mqttTopic jsonString 0 1 0
      freeText jsonString
      cJsonDelete json

/-- One call, from what the buffer holds before. -/
def publishCall (succeeds : Creations) (client : Option Client) (slaveId : Int)
    (messageData : CharPtr) (clock : UInt64) (timeBuffer : TimeBuffer) :
    PublishState Client :=
  ((mqttPublishData succeeds client slaveId messageData clock).run
    ⟨timeBuffer, [], [], []⟩).2

end Calls

section Outcome

variable {Client : Type} (succeeds : Creations) (client : Client) (slaveId : Int)
  (messageData : CharPtr) (clock : UInt64) (timeBuffer : TimeBuffer)

/-- The items that the object takes if it exists. -/
def Creations.items : List Block :=
  (if succeeds.slaveId then [.slaveId] else []) ++
    ((if succeeds.slaveTime then [.slaveTime] else []) ++
      (if succeeds.masterTime then [.masterTime] else []))

def Creations.members (slaveTime masterTime : List UInt8) :
    List (String × JsonValue) :=
  (if succeeds.slaveId then [("slave_id", .number slaveId)] else []) ++
    ((if succeeds.slaveTime then [("slave_time", .string slaveTime)] else []) ++
      (if succeeds.masterTime then [("master_time", .string masterTime)] else []))

theorem publishCall_none :
    publishCall succeeds (none : Option Client) slaveId messageData clock timeBuffer =
      ⟨timeBuffer, [], [], []⟩ :=
  rfl

/-- With a client there is one publication, whatever was created.  Items are
released with the object only, so that they stay allocated if there is none. -/
theorem publishCall_some :
    publishCall succeeds (some client) slaveId messageData clock timeBuffer =
      { timeBuffer := formatInto clock timeBuffer
        obtained := (if succeeds.object then [.object] else []) ++
          (succeeds.items ++
            (if succeeds.object && succeeds.printed then [.printed] else []))
        released := (if succeeds.object && succeeds.printed then [.printed] else []) ++
          (if succeeds.object then .object :: succeeds.items else [])
        published :=
          [{ client
             topic := mqttTopic
             data :=
               if succeeds.object && succeeds.printed then
                 some (succeeds.members slaveId (messageData.read timeBuffer)
                   (formartTimestampUs clock))
               else none
             len := 0
             qos := 1
             retain := 0 }] } := by
  obtain ⟨object, number, slaveTime, masterTime, printed⟩ := succeeds
  rw [← read_formatInto clock timeBuffer]
  have reading := getEpochTimeUs_eq clock
  cases object <;> cases number <;> cases slaveTime <;> cases masterTime <;>
    cases printed <;>
      (simp only [publishCall, mqttPublishData, reading]; rfl)

end Outcome

section Complete

variable {Client : Type}

def Creations.All (succeeds : Creations) : Prop :=
  succeeds.object ∧ succeeds.slaveId ∧ succeeds.slaveTime ∧ succeeds.masterTime ∧
    succeeds.printed

/-- There is a text, and it shows the three members. -/
def Publication.Complete (publication : Publication Client) : Prop :=
  ∃ members, publication.data = some members ∧
    ∀ name ∈ ["slave_id", "slave_time", "master_time"], name ∈ members.map Prod.fst

/-- What was obtained is released exactly once. -/
def PublishState.Settled (call : PublishState Client) : Prop :=
  ∀ block, call.released.count block = if block ∈ call.obtained then 1 else 0

/-- One complete record or none, and nothing stays allocated or is released
twice. -/
structure PublishState.CompleteOrNothing (call : PublishState Client) : Prop where
  complete : call.published = [] ∨
    ∃ publication, call.published = [publication] ∧ publication.Complete
  settled : call.Settled

theorem publishCall_settled (client : Option Client) (slaveId : Int)
    (messageData : CharPtr) (clock : UInt64) (timeBuffer : TimeBuffer) :
    (publishCall allSucceed client slaveId messageData clock
      timeBuffer).Settled := by
  intro block
  cases client with
  | none => rfl
  | some client =>
      rw [publishCall_some]
      cases block <;> rfl

theorem Creations.all_of_complete {succeeds : Creations} {slaveId : Int}
    {slaveTime masterTime : List UInt8} {members : List (String × JsonValue)}
    (data : (if succeeds.object && succeeds.printed then
      some (succeeds.members slaveId slaveTime masterTime) else none) = some members)
    (named : ∀ name ∈ ["slave_id", "slave_time", "master_time"],
      name ∈ members.map Prod.fst) : succeeds.All := by
  have both : (succeeds.object && succeeds.printed) = true := by
    by_contra missing
    rw [if_neg missing] at data
    cases data
  rw [if_pos both, Option.some.injEq] at data
  subst data
  simp only [Creations.members, List.map_append, apply_ite (List.map Prod.fst),
    List.map_cons, List.map_nil, List.mem_append, List.mem_ite_nil_right] at named
  rw [Bool.and_eq_true] at both
  refine ⟨both.1, ?_, ?_, ?_, both.2⟩
  · simpa using named "slave_id" (by simp)
  · simpa using named "slave_time" (by simp)
  · simpa using named "master_time" (by simp)

variable (succeeds : Creations) (client : Option Client) (slaveId : Int)
  (messageData : CharPtr) (clock : UInt64) (timeBuffer : TimeBuffer)

/-- The function checks the client and no creation. -/
theorem publishCall_completeOrNothing_iff :
    (publishCall succeeds client slaveId messageData clock
        timeBuffer).CompleteOrNothing ↔
      client = none ∨ succeeds.All := by
  cases client with
  | none =>
      rw [publishCall_none]
      exact iff_of_true ⟨.inl rfl, fun _ => rfl⟩ (.inl rfl)
  | some client =>
      rw [publishCall_some]
      constructor
      · rintro ⟨none | ⟨publication, once, members, data, named⟩, _⟩
        · cases none
        · obtain rfl := List.singleton_inj.mp once
          exact .inr (Creations.all_of_complete data named)
      · rintro (none | all)
        · cases none
        · obtain ⟨object, number, slaveTime, masterTime, printed⟩ := succeeds
          obtain ⟨rfl, rfl, rfl, rfl, rfl⟩ := all
          have settled := publishCall_settled (some client) slaveId messageData clock
            timeBuffer
          rw [publishCall_some] at settled
          exact ⟨.inr ⟨_, rfl, _, rfl, by simp [Creations.members]⟩, settled⟩

def withoutSlaveTime : Creations := ⟨true, true, false, true, true⟩

theorem publishCall_completeOrNothing_fails :
    ¬ (publishCall withoutSlaveTime (some ()) 299 (.text ⟨[], by simp⟩) 0
      (List.Vector.replicate timeBufferSize 0)).CompleteOrNothing := by
  rw [publishCall_some]
  rintro ⟨none | ⟨publication, once, members, data, named⟩, _⟩
  · cases none
  · obtain rfl := List.singleton_inj.mp once
    have all : withoutSlaveTime.All := Creations.all_of_complete data named
    exact absurd all.2.2.1 (by decide)

end Complete

end Lora32Mqtt
