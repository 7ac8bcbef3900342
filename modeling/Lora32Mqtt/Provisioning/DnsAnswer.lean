import Lora32Mqtt.Base.DnsMessage
import Lora32Mqtt.Provisioning.DnsServer

/-!
# What the name server answers

A reply is read by the grammar of messages.  The server counts its record as the
answer but writes it behind everything else, so a query that comes with
additional records has its first one read as the answer.
-/

namespace Lora32Mqtt

open Dns

/-- An ordinary query for the address of a name.  No pointer can lead from the
first name of a message to an earlier one, so this name is not compressed. -/
structure OrdinaryQuery (bytes : List UInt8) (query : Message)
    (name : DomainName) : Prop where
  short : bytes.length ≤ 496
  read : readMessage bytes = some query
  qr : query.header.qr = false
  opcode : query.header.opcode = 0
  qdCount : query.header.qdCount = 1
  anCount : query.header.anCount = 0
  nsCount : query.header.nsCount = 0
  questions : query.questions = [⟨name, 1, 1⟩]

/-- A response to the query with one answer, the address 4.3.2.1. -/
structure Answers (query : Message) (name : DomainName) (reply : Message) :
    Prop where
  id : reply.header.id = query.header.id
  qr : reply.header.qr = true
  questions : reply.questions = query.questions
  answers : ∃ ttl, reply.answers = [⟨name, 1, 1, ttl, [4, 3, 2, 1]⟩]
  additional : reply.additional = query.additional

/-- The fixed record, for the name it points to. -/
def dnsRecord (name : DomainName) : ResourceRecord :=
  ⟨name, 1, 1, 60, [4, 3, 2, 1]⟩

theorem readHeader_eq_some_iff {bytes : List UInt8} {header : Header} :
    readHeader bytes = some header ↔
      ∃ b0 b1 b2 b3 b4 b5 b6 b7 b8 b9 b10 b11 body,
        bytes = b0 :: b1 :: b2 :: b3 :: b4 :: b5 :: b6 :: b7 :: b8 :: b9 ::
          b10 :: b11 :: body ∧
        header = ⟨b0.toNat * 256 + b1.toNat, b2.toNat * 256 + b3.toNat,
          b4.toNat * 256 + b5.toNat, b6.toNat * 256 + b7.toNat,
          b8.toNat * 256 + b9.toNat, b10.toNat * 256 + b11.toNat⟩ := by
  constructor
  · intro read
    match bytes, read with
    | b0 :: b1 :: b2 :: b3 :: b4 :: b5 :: b6 :: b7 :: b8 :: b9 :: b10 :: b11 ::
        body, read =>
      exact ⟨b0, b1, b2, b3, b4, b5, b6, b7, b8, b9, b10, b11, body, rfl,
        (Option.some.inj read).symm⟩
  · intro shape
    obtain ⟨b0, b1, b2, b3, b4, b5, b6, b7, b8, b9, b10, b11, body, rfl, rfl⟩ :=
      shape
    rfl

/-- The changes make a response with one more answer out of a query. -/
theorem readHeader_patched {bytes : List UInt8} {header : Header}
    (read : readHeader bytes = some header) (noAnswer : header.anCount = 0)
    (tail : List UInt8) :
    ∃ flags, 32768 ≤ flags ∧
      readHeader (patched bytes ++ tail) =
        some { header with flags := flags, anCount := 1 } := by
  obtain ⟨b0, b1, b2, b3, b4, b5, b6, b7, b8, b9, b10, b11, body, rfl, rfl⟩ :=
    readHeader_eq_some_iff.mp read
  have high : b6.toNat = 0 := by
    dsimp only at noAnswer
    omega
  refine ⟨(b2 ||| 0x80).toNat * 256 + b3.toNat, ?_, ?_⟩
  · have bit : 128 ≤ (b2 ||| 0x80).toNat := by
      rw [UInt8.toNat_or]
      exact Nat.right_le_or
    omega
  · refine readHeader_eq_some_iff.mpr ⟨b0, b1, b2 ||| 0x80, b3, b4, b5, b6, 1, b8,
      b9, b10, b11, body ++ tail, rfl, ?_⟩
    simp [high]

theorem headerSize_le_of_read {bytes : List UInt8} {header : Header}
    (read : readHeader bytes = some header) : headerSize ≤ bytes.length := by
  obtain ⟨b0, b1, b2, b3, b4, b5, b6, b7, b8, b9, b10, b11, body, rfl, _⟩ :=
    readHeader_eq_some_iff.mp read
  simp [headerSize]

theorem extends_patched {bytes : List UInt8} (whole : headerSize ≤ bytes.length)
    (tail : List UInt8) : Extends bytes (patched bytes ++ tail) where
  longer := by simp [length_patched]
  behind := by
    refine ⟨tail, ?_⟩
    rw [List.drop_append_of_le_length (by rwa [length_patched]), patched,
      List.drop_set, if_pos (by decide), List.drop_modify_of_lt _ _ _ _ (by decide)]

theorem readRecord_dnsResponse {message : List UInt8} {name : DomainName}
    {next : Nat} (longer : headerSize < message.length)
    (named : readName (message ++ dnsResponse) headerSize = some (name, next)) :
    readRecord (message ++ dnsResponse) message.length =
      some (dnsRecord name, (message ++ dnsResponse).length) := by
  have dropped : ∀ count, (message ++ dnsResponse).drop (message.length + count) =
      dnsResponse.drop count := by
    intro count
    rw [← List.drop_drop, List.drop_left]
  have start : (message ++ dnsResponse).drop message.length =
      0xC0 :: 0x0C :: dnsResponse.drop 2 := List.drop_left
  have target : headerSize =
      ((0xC0 : UInt8).toNat - 192) * 256 + (0x0C : UInt8).toNat := rfl
  simp only [readName, Option.filter_eq_some_iff] at named
  have pointed : readName (message ++ dnsResponse) message.length =
      some (name, message.length + 2) := by
    simp only [readName, Option.filter_eq_some_iff]
    refine ⟨?_, named.2⟩
    rw [readLabels_pointer start (by decide) target (Nat.le_refl _) longer,
      named.1]
    rfl
  have field : ∀ {offset : Nat} (count : Nat) {value : Nat},
      offset = message.length + count → readU16 dnsResponse count = some value →
        readU16 (message ++ dnsResponse) offset = some value := by
    intro offset count value position found
    subst position
    simpa only [readU16, dropped] using found
  have data : readBytes (message ++ dnsResponse) (message.length + 2 + 10) 4 =
      some [4, 3, 2, 1] := by
    rw [readBytes, if_pos (by simp [dnsResponse]), Nat.add_assoc, dropped]
    rfl
  rw [List.length_append]
  exact readRecord_of_fields pointed (field 2 rfl rfl) (field 4 rfl rfl)
    (field 6 rfl rfl) (field 8 rfl rfl) (field 10 rfl rfl) data

variable {datagram : Datagram} {query : Message} {name : DomainName}

/-- The reply as a message: what was first among the additional records and the
appended one has become the answer. -/
theorem readMessage_dnsReply (memory : Memory)
    (ordinary : OrdinaryQuery datagram.bytes query name) :
    ∃ flags first rest, 32768 ≤ flags ∧
      first :: rest = query.additional ++ [dnsRecord name] ∧
      readMessage (dnsReply memory datagram).sent = some
        ⟨{ query.header with flags := flags, anCount := 1 }, query.questions,
          [first], [], rest⟩ := by
  have read := ordinary.read
  simp only [readMessage, Option.bind_eq_bind, Option.bind_eq_some_iff,
    Prod.exists] at read
  obtain ⟨header, headed, questions, next1, asked, answers, next2, answered,
    authority, next3, authorised, additional, next4, added, done⟩ := read
  split at done
  next whole =>
    obtain rfl := Option.some.inj done
    have noAnswer : header.anCount = 0 := ordinary.anCount
    have noAuthority : header.nsCount = 0 := ordinary.nsCount
    have oneQuestion : header.qdCount = 1 := ordinary.qdCount
    have isQuestion : questions = [⟨name, 1, 1⟩] := ordinary.questions
    rw [noAnswer] at answered
    obtain ⟨rfl, rfl⟩ := Prod.mk.inj (Option.some.inj answered)
    rw [noAuthority] at authorised
    obtain ⟨rfl, rfl⟩ := Prod.mk.inj (Option.some.inj authorised)
    rw [oneQuestion] at asked
    obtain ⟨question, _, _, one, _, same⟩ := readMany_succ_eq_some.mp asked
    obtain ⟨rfl, _⟩ := List.cons.inj (isQuestion.symm.trans same)
    obtain ⟨behind, named⟩ := readName_of_readQuestion one
    -- everything of the query is read again in the reply
    have extended : Extends datagram.bytes
        (patched datagram.bytes ++ dnsResponse) :=
      extends_patched (headerSize_le_of_read headed) dnsResponse
    obtain ⟨inside, asked⟩ :=
      extended.carries_readQuestion.many 1 (Nat.le_refl _) asked
    obtain ⟨_, added⟩ := extended.carries_readRecord.many _ inside added
    obtain ⟨_, renamed⟩ := extended.carries_readName (Nat.le_refl _) named
    -- and behind it the appended record
    have longer : headerSize < (patched datagram.bytes).length := by
      rw [length_patched]
      exact lt_of_readName named
    have appended := readRecord_dnsResponse longer renamed
    rw [length_patched, ← whole] at appended
    obtain ⟨first, between, rest, head, tail, split⟩ :=
      readMany_succ_eq_some.mp (readMany_concat added appended)
    obtain ⟨flags, response, reheaded⟩ :=
      readHeader_patched headed noAnswer dnsResponse
    refine ⟨flags, first, rest, response, split.symm, ?_⟩
    rw [dnsReply_sent]
    have answer : readMany (readRecord (patched datagram.bytes ++ dnsResponse)) 1
        next1 = some ([first], between) :=
      readMany_succ_eq_some.mpr ⟨first, between, [], head, rfl, rfl⟩
    have none : readMany (readRecord (patched datagram.bytes ++ dnsResponse)) 0
        between = some ([], between) := rfl
    simp only [readMessage, Option.bind_eq_bind, reheaded, Option.bind_some,
      oneQuestion, asked, answer, noAuthority, none, tail, if_true]
    rfl
  next => cases done

/-- A record in front of a list is one behind it only in a constant list. -/
theorem cons_eq_concat_iff {Item : Type} {front back : Item}
    {items : List Item} :
    front :: items = items ++ [back] ↔
      front = back ∧ ∀ item ∈ items, item = back := by
  induction items generalizing front with
  | nil => simp
  | cons head tail induction =>
      rw [List.cons_append, List.cons.injEq, induction]
      simp only [List.mem_cons, forall_eq_or_imp]
      constructor
      · intro same
        obtain ⟨rfl, rfl, rest⟩ := same
        exact ⟨rfl, rfl, rest⟩
      · intro same
        obtain ⟨rfl, rfl, rest⟩ := same
        exact ⟨rfl, rfl, rest⟩

/-- The reply answers the query exactly if the additional records of the query,
if it has any, are all the appended record itself. -/
theorem dnsReply_answers_iff (memory : Memory) (datagram : Datagram)
    (query : Message) (name : DomainName)
    (ordinary : OrdinaryQuery datagram.bytes query name) :
    (∃ reply, readMessage (dnsReply memory datagram).sent = some reply ∧
        Answers query name reply) ↔
      ∀ record ∈ query.additional, record = dnsRecord name := by
  obtain ⟨flags, first, rest, response, split, read⟩ :=
    readMessage_dnsReply memory ordinary
  rw [read]
  constructor
  · intro answered
    obtain ⟨reply, same, answers⟩ := answered
    obtain rfl := Option.some.inj same
    have additional : rest = query.additional := answers.additional
    rw [additional] at split
    exact (cons_eq_concat_iff.mp split).2
  · intro constant
    have split' := cons_eq_concat_iff.mpr ⟨rfl, constant⟩
    obtain ⟨rfl, rfl⟩ := List.cons.inj (split.trans split'.symm)
    refine ⟨_, rfl, ⟨rfl, ?_, rfl, ⟨60, rfl⟩, rfl⟩⟩
    simpa [Header.qr] using response

def sampleQuery (arCount : UInt8) (records : List UInt8) : List UInt8 :=
  [0x12, 0x34, 0x01, 0x00, 0, 1, 0, 0, 0, 0, 0, arCount,
    1, 0x61, 0, 0, 1, 0, 1] ++ records

theorem readQuestion_sampleQuery (arCount : UInt8) (records : List UInt8) :
    readQuestion (sampleQuery arCount records) headerSize =
      some (⟨[[0x61]], 1, 1⟩, 19) := by
  have label : (sampleQuery arCount records).drop 12 =
      1 :: 0x61 :: ([0, 0, 1, 0, 1] ++ records) := rfl
  have root : readLabels (sampleQuery arCount records) 12 14 = some ([], 15) :=
    readLabels_root (rfl : (sampleQuery arCount records).drop 14 =
      0 :: ([0, 1, 0, 1] ++ records))
  have name : readName (sampleQuery arCount records) headerSize =
      some ([[0x61]], 15) := by
    rw [readName, headerSize,
      readLabels_label label (by decide) (by decide) (by simp)]
    change (Option.map _ (readLabels (sampleQuery arCount records) 12 14)).filter
      _ = _
    rw [root]
    rfl
  exact readQuestion_of_fields name rfl rfl

theorem ordinary_sampleQuery {arCount : UInt8} {records : List UInt8}
    {additional : List ResourceRecord}
    (short : (sampleQuery arCount records).length ≤ 496)
    (added : readMany (readRecord (sampleQuery arCount records)) arCount.toNat 19 =
      some (additional, (sampleQuery arCount records).length)) :
    OrdinaryQuery (sampleQuery arCount records)
      ⟨⟨0x1234, 0x0100, 1, 0, 0, arCount.toNat⟩, [⟨[[0x61]], 1, 1⟩], [], [],
        additional⟩ [[0x61]] where
  short := short
  read := by
    have headed : readHeader (sampleQuery arCount records) =
        some ⟨0x1234, 0x0100, 1, 0, 0, 0 * 256 + arCount.toNat⟩ := rfl
    have asked : readMany (readQuestion (sampleQuery arCount records)) 1
        headerSize = some ([⟨[[0x61]], 1, 1⟩], 19) :=
      readMany_succ_eq_some.mpr
        ⟨_, _, [], readQuestion_sampleQuery arCount records, rfl, rfl⟩
    have none : readMany (readRecord (sampleQuery arCount records)) 0 19 =
        some ([], 19) := rfl
    rw [Nat.zero_mul, Nat.zero_add] at headed
    simp only [readMessage, Option.bind_eq_bind, headed, Option.bind_some, asked,
      none, added, if_true]
    rfl
  qr := rfl
  opcode := by simp [Header.opcode]
  qdCount := rfl
  anCount := rfl
  nsCount := rfl
  questions := rfl

/-- A query without additional records is answered. -/
theorem dnsReply_answers_plain :
    ∃ reply,
      readMessage (dnsReply (fun _ => 0) ⟨sampleQuery 0 [], by decide⟩).sent =
        some reply ∧
      Answers
        ⟨⟨0x1234, 0x0100, 1, 0, 0, 0⟩, [⟨[[0x61]], 1, 1⟩], [], [], []⟩
        [[0x61]] reply :=
  (dnsReply_answers_iff (fun _ => 0) ⟨sampleQuery 0 [], by decide⟩ _ [[0x61]]
    (ordinary_sampleQuery (by decide) rfl)).mpr (by simp)

/-- The `OPT` record of a client that can take replies of 4096 bytes. -/
def optRecord : List UInt8 := [0, 0, 41, 16, 0, 0, 0, 0, 0, 0, 0]

theorem readRecord_optRecord :
    readRecord (sampleQuery 1 optRecord) 19 =
      some (⟨[], 41, 4096, 0, []⟩, 30) := by
  have root : readName (sampleQuery 1 optRecord) 19 = some ([], 20) := by
    rw [readName, readLabels_root (rfl : (sampleQuery 1 optRecord).drop 19 =
      0 :: optRecord.drop 1)]
    rfl
  have type : readU16 (sampleQuery 1 optRecord) 20 = some 41 := rfl
  have size : readU16 (sampleQuery 1 optRecord) 22 = some 4096 := rfl
  have ttlHigh : readU16 (sampleQuery 1 optRecord) 24 = some 0 := rfl
  have ttlLow : readU16 (sampleQuery 1 optRecord) 26 = some 0 := rfl
  have empty : readU16 (sampleQuery 1 optRecord) 28 = some 0 := rfl
  have data : readBytes (sampleQuery 1 optRecord) 30 0 = some [] := rfl
  exact readRecord_of_fields root type size ttlHigh ttlLow empty data

def ednsQuery : Datagram := ⟨sampleQuery 1 optRecord, by decide⟩

/-- The `OPT` record is read as the answer. -/
theorem dnsReply_answers_fails :
    ¬ ∀ (memory : Memory) (datagram : Datagram) (query : Message)
      (name : DomainName), OrdinaryQuery datagram.bytes query name →
        ∃ reply, readMessage (dnsReply memory datagram).sent = some reply ∧
          Answers query name reply := by
  intro always
  have ordinary : OrdinaryQuery ednsQuery.bytes _ [[0x61]] :=
    ordinary_sampleQuery (by decide) (readMany_succ_eq_some.mpr
      ⟨_, _, [], readRecord_optRecord, rfl, rfl⟩)
  obtain ⟨reply, read, answers⟩ := always (fun _ => 0) _ _ _ ordinary
  obtain ⟨flags, first, rest, _, split, same⟩ :=
    readMessage_dnsReply (fun _ => 0) ordinary
  obtain rfl := Option.some.inj (same.symm.trans read)
  obtain ⟨rfl, _⟩ := List.cons.inj split
  obtain ⟨ttl, answer⟩ := answers.answers
  cases answer

end Lora32Mqtt
