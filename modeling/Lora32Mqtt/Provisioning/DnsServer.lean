import Lora32Mqtt.Base.Memory

/-!
# The name server of the open access point (`dns_server_task`)

Every datagram is received over the last one and answered in place: two bytes of
the header are changed and a record is appended.  The buffer is followed by the
rest of the task's stack, which the model keeps as further addresses.
-/

namespace Lora32Mqtt

def bufferSize : Nat := 512

/-- What `recvfrom` can put into a buffer of `BUFFER_SIZE` bytes. -/
structure Datagram where
  bytes : List UInt8
  short : bytes.length ≤ bufferSize
  deriving DecidableEq

/-- The local array `response`: the address 4.3.2.1 for the name at offset 12. -/
def dnsResponse : List UInt8 :=
  [0xC0, 0x0C, 0x00, 0x01, 0x00, 0x01, 0x00, 0x00, 0x00, 0x3C, 0x00, 0x04,
    4, 3, 2, 1]

structure DnsReply where
  datagram : Datagram
  /-- Indices of `buffer` written while the reply is built. -/
  written : List Nat
  /-- The `len` bytes handed to `sendto`. -/
  sent : List UInt8
  memory : Memory

def dnsReply (memory : Memory) (datagram : Datagram) : DnsReply :=
  let len := datagram.bytes.length
  let received := memory.copyAt 0 datagram.bytes
  let flagged := received.store 2 (received 2 ||| 0x80)
  let counted := flagged.store 7 1
  let finished := counted.copyAt len dnsResponse
  { datagram := datagram
    written := 2 :: 7 :: List.range' len dnsResponse.length
    sent := finished.cells 0 (len + dnsResponse.length)
    memory := finished }

/-- The rounds of `dns_server_task` for what `recvfrom` returns; an error ends
the loop. -/
def dnsServerTask (memory : Memory) : List (Option Datagram) → List DnsReply
  | [] => []
  | none :: _ => []
  | some datagram :: later =>
      dnsReply memory datagram ::
        dnsServerTask (dnsReply memory datagram).memory later

/-- The bytes of a datagram with the changes to its header, as far as it has
one. -/
def patched (bytes : List UInt8) : List UInt8 :=
  (bytes.modify 2 (· ||| 0x80)).set 7 1

/-- The reply stays inside the buffer and is made of nothing but its datagram
and the fixed record. -/
structure DnsReply.StaysInside (reply : DnsReply) : Prop where
  written : ∀ index ∈ reply.written, index < bufferSize
  length : reply.sent.length ≤ bufferSize
  sent : reply.sent = patched reply.datagram.bytes ++ dnsResponse

theorem length_patched (bytes : List UInt8) :
    (patched bytes).length = bytes.length := by
  simp [patched]

/-- The bits of the flags are set in place; past the end of a short datagram
nothing of it is changed. -/
theorem set_flags (memory : Memory) (bytes : List UInt8) :
    bytes.set 2 (memory.copyAt 0 bytes 2 ||| 0x80) =
      bytes.modify 2 (· ||| 0x80) := by
  refine List.ext_getElem? fun index => ?_
  rw [List.getElem?_set, List.getElem?_modify]
  by_cases flags : 2 = index
  · subst flags
    cases byte : bytes[2]? with
    | none =>
        have beyond := List.getElem?_eq_none_iff.mp byte
        simp
        omega
    | some value =>
        have inside := (List.getElem?_eq_some_iff.mp byte).1
        rw [Memory.copyAt_inside (Nat.zero_le _) byte]
        simp [inside]
  · simp [flags]

/-- What is sent does not depend on what the memory held before. -/
theorem dnsReply_sent (memory : Memory) (datagram : Datagram) :
    (dnsReply memory datagram).sent =
      patched datagram.bytes ++ dnsResponse := by
  simp only [dnsReply]
  rw [Memory.cells_add, Nat.zero_add, Memory.cells_copyAt]
  congr 1
  rw [Memory.cells_congr fun address _ below =>
      Memory.copyAt_below (by omega),
    Memory.cells_store (Nat.zero_le _), Memory.cells_store (Nat.zero_le _),
    Memory.cells_copyAt, Nat.sub_zero, Nat.sub_zero, set_flags, patched]

theorem dnsReply_staysInside_iff (memory : Memory) (datagram : Datagram) :
    (dnsReply memory datagram).StaysInside ↔
      datagram.bytes.length + 16 ≤ bufferSize := by
  have size : dnsResponse.length = 16 := rfl
  constructor
  · intro inside
    have last := inside.written (datagram.bytes.length + 15) (by
      simp only [dnsReply, List.mem_cons, List.mem_range'_1]
      omega)
    omega
  · intro room
    refine ⟨?_, ?_, dnsReply_sent memory datagram⟩
    · intro index member
      simp only [dnsReply, List.mem_cons, List.mem_range'_1] at member
      simp only [bufferSize] at room ⊢
      omega
    · rw [dnsReply_sent, List.length_append, length_patched]
      omega

theorem mem_dnsServerTask {memory : Memory} {received : List (Option Datagram)}
    {reply : DnsReply} (member : reply ∈ dnsServerTask memory received) :
    ∃ before, reply = dnsReply before reply.datagram := by
  induction received generalizing memory with
  | nil => cases member
  | cons outcome later induction =>
      cases outcome with
      | none => cases member
      | some datagram =>
          rcases List.mem_cons.mp member with rfl | after
          · exact ⟨memory, rfl⟩
          · exact induction after

/-- The replies that stay inside the buffer are those to datagrams that leave
room for the record. -/
theorem dnsReplies_staysInside_iff (memory : Memory)
    (received : List (Option Datagram)) :
    (∀ reply ∈ dnsServerTask memory received, reply.StaysInside) ↔
      ∀ reply ∈ dnsServerTask memory received,
        reply.datagram.bytes.length ≤ bufferSize - 16 := by
  refine forall₂_congr fun reply member => ?_
  obtain ⟨before, same⟩ := mem_dnsServerTask member
  rw [same, dnsReply_staysInside_iff]
  simp only [dnsReply, bufferSize]
  omega

/-- A datagram that fills the buffer leaves the record outside. -/
theorem dnsReplies_staysInside_fails :
    ¬ ∀ (memory : Memory) (received : List (Option Datagram)),
      ∀ reply ∈ dnsServerTask memory received, reply.StaysInside := by
  intro always
  have size : (List.replicate 512 (0 : UInt8)).length = bufferSize :=
    List.length_replicate
  have inside := always (fun _ => 0) [some ⟨_, Nat.le_of_eq size⟩] _
    List.mem_cons_self
  rw [dnsReply_staysInside_iff, size] at inside
  exact absurd inside (by decide)

end Lora32Mqtt
