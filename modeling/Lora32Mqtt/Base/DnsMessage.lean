import Mathlib.Data.List.Basic

/-!
# Domain messages

The message format of the domain name system: a header with four counts, then as
many questions and resource records, whose names may end in a pointer to an
earlier name.  A reader goes through the whole message at an offset and returns
what it has read with the offset behind it.  Bytes added at the end of a message
do not change what is read before them.
-/

namespace Dns

abbrev Label : Type := List UInt8

abbrev DomainName : Type := List Label

/-- Octets of an uncompressed name, with the length octets and the final zero. -/
def wireLength : DomainName → Nat
  | [] => 1
  | label :: rest => label.length + 1 + wireLength rest

def headerSize : Nat := 12

structure Header where
  id : Nat
  flags : Nat
  qdCount : Nat
  anCount : Nat
  nsCount : Nat
  arCount : Nat
  deriving DecidableEq

def Header.qr (header : Header) : Bool := 32768 ≤ header.flags

def Header.opcode (header : Header) : Nat := header.flags / 2048 % 16

structure Question where
  name : DomainName
  qtype : Nat
  qclass : Nat
  deriving DecidableEq

structure ResourceRecord where
  name : DomainName
  rtype : Nat
  rclass : Nat
  ttl : Nat
  rdata : List UInt8
  deriving DecidableEq

structure Message where
  header : Header
  questions : List Question
  answers : List ResourceRecord
  authority : List ResourceRecord
  additional : List ResourceRecord
  deriving DecidableEq

def readU16 (message : List UInt8) (offset : Nat) : Option Nat :=
  match message.drop offset with
  | high :: low :: _ => some (high.toNat * 256 + low.toNat)
  | _ => none

def readBytes (message : List UInt8) (offset count : Nat) :
    Option (List UInt8) :=
  if offset + count ≤ message.length then
    some ((message.drop offset).take count)
  else none

/-- The labels at an offset.  The run of labels began at `start`; a pointer
leads to a place behind the header and before that. -/
def readLabels (message : List UInt8) (start offset : Nat) :
    Option (DomainName × Nat) :=
  match bytes : message.drop offset with
  | [] => none
  | byte :: rest =>
      if byte = 0 then some ([], offset + 1)
      else if byte.toNat < 64 then
        if byte.toNat ≤ rest.length then
          (readLabels message start (offset + 1 + byte.toNat)).map
            fun found => (rest.take byte.toNat :: found.1, found.2)
        else none
      else if 192 ≤ byte.toNat then
        match rest with
        | [] => none
        | low :: _ =>
            let target := (byte.toNat - 192) * 256 + low.toNat
            if headerSize ≤ target ∧ target < start then
              (readLabels message target target).map
                fun found => (found.1, offset + 2)
            else none
      else none
termination_by (start, message.length - offset)
decreasing_by
  · have inside : offset < message.length := by
      by_contra beyond
      rw [List.drop_eq_nil_of_le (by omega)] at bytes
      cases bytes
    exact Prod.Lex.right _ (by omega)
  · exact Prod.Lex.left _ _ (by omega)

def readName (message : List UInt8) (offset : Nat) :
    Option (DomainName × Nat) :=
  (readLabels message offset offset).filter
    fun found => wireLength found.1 ≤ 255

def readQuestion (message : List UInt8) (offset : Nat) :
    Option (Question × Nat) := do
  let (name, next) ← readName message offset
  let qtype ← readU16 message next
  let qclass ← readU16 message (next + 2)
  pure (⟨name, qtype, qclass⟩, next + 4)

def readRecord (message : List UInt8) (offset : Nat) :
    Option (ResourceRecord × Nat) := do
  let (name, next) ← readName message offset
  let rtype ← readU16 message next
  let rclass ← readU16 message (next + 2)
  let ttlHigh ← readU16 message (next + 4)
  let ttlLow ← readU16 message (next + 6)
  let rdLength ← readU16 message (next + 8)
  let rdata ← readBytes message (next + 10) rdLength
  pure (⟨name, rtype, rclass, ttlHigh * 65536 + ttlLow, rdata⟩,
    next + 10 + rdLength)

def readMany {Item : Type} (read : Nat → Option (Item × Nat)) :
    Nat → Nat → Option (List Item × Nat)
  | 0, offset => some ([], offset)
  | count + 1, offset => do
      let (first, next) ← read offset
      let (rest, last) ← readMany read count next
      pure (first :: rest, last)

def readHeader (message : List UInt8) : Option Header := do
  let id ← readU16 message 0
  let flags ← readU16 message 2
  let qdCount ← readU16 message 4
  let anCount ← readU16 message 6
  let nsCount ← readU16 message 8
  let arCount ← readU16 message 10
  pure ⟨id, flags, qdCount, anCount, nsCount, arCount⟩

/-- A message is read to its end according to its own counts. -/
def readMessage (message : List UInt8) : Option Message := do
  let header ← readHeader message
  let (questions, next) ←
    readMany (readQuestion message) header.qdCount headerSize
  let (answers, next) ← readMany (readRecord message) header.anCount next
  let (authority, next) ← readMany (readRecord message) header.nsCount next
  let (additional, next) ← readMany (readRecord message) header.arCount next
  if next = message.length then
    pure ⟨header, questions, answers, authority, additional⟩
  else none

section Labels

variable {message rest : List UInt8} {start offset : Nat} {byte low : UInt8}

theorem readLabels_root (bytes : message.drop offset = 0 :: rest) :
    readLabels message start offset = some ([], offset + 1) := by
  rw [readLabels]
  split
  next empty => simp [empty] at bytes
  next found =>
    obtain ⟨rfl, rfl⟩ := List.cons.inj (found.symm.trans bytes)
    rw [if_pos rfl]

theorem readLabels_label (bytes : message.drop offset = byte :: rest)
    (nonzero : byte ≠ 0) (short : byte.toNat < 64)
    (inside : byte.toNat ≤ rest.length) :
    readLabels message start offset =
      (readLabels message start (offset + 1 + byte.toNat)).map
        fun found => (rest.take byte.toNat :: found.1, found.2) := by
  rw [readLabels]
  split
  next empty => simp [empty] at bytes
  next found =>
    obtain ⟨rfl, rfl⟩ := List.cons.inj (found.symm.trans bytes)
    rw [if_neg nonzero, if_pos short, if_pos inside]

theorem readLabels_pointer (bytes : message.drop offset = byte :: low :: rest)
    (isPointer : 192 ≤ byte.toNat) {target : Nat}
    (isTarget : target = (byte.toNat - 192) * 256 + low.toNat)
    (behindHeader : headerSize ≤ target) (earlier : target < start) :
    readLabels message start offset =
      (readLabels message target target).map
        fun found => (found.1, offset + 2) := by
  have nonzero : byte ≠ 0 := by
    intro zero
    rw [zero] at isPointer
    exact absurd isPointer (by decide)
  rw [readLabels]
  split
  next empty => simp [empty] at bytes
  next found =>
    obtain ⟨rfl, rfl⟩ := List.cons.inj (found.symm.trans bytes)
    subst isTarget
    rw [if_neg nonzero, if_neg (by omega), if_pos isPointer]
    exact if_pos ⟨behindHeader, earlier⟩

end Labels

section Fields

variable {message : List UInt8} {offset next : Nat} {name : DomainName}

theorem readQuestion_of_fields {qtype qclass : Nat}
    (named : readName message offset = some (name, next))
    (typed : readU16 message next = some qtype)
    (classed : readU16 message (next + 2) = some qclass) :
    readQuestion message offset = some (⟨name, qtype, qclass⟩, next + 4) := by
  simp only [readQuestion, Option.bind_eq_bind, named, Option.bind_some, typed,
    classed, Option.pure_def]

theorem readRecord_of_fields {rtype rclass ttlHigh ttlLow rdLength : Nat}
    {rdata : List UInt8} (named : readName message offset = some (name, next))
    (typed : readU16 message next = some rtype)
    (classed : readU16 message (next + 2) = some rclass)
    (high : readU16 message (next + 4) = some ttlHigh)
    (low : readU16 message (next + 6) = some ttlLow)
    (sized : readU16 message (next + 8) = some rdLength)
    (filled : readBytes message (next + 10) rdLength = some rdata) :
    readRecord message offset =
      some (⟨name, rtype, rclass, ttlHigh * 65536 + ttlLow, rdata⟩,
        next + 10 + rdLength) := by
  simp only [readRecord, Option.bind_eq_bind, named, Option.bind_some, typed,
    classed, high, low, sized, filled, Option.pure_def]

end Fields

/-- `later` has the octets of `message` behind the header, and then more. -/
structure Extends (message later : List UInt8) : Prop where
  longer : message.length ≤ later.length
  behind : ∃ tail, later.drop headerSize = message.drop headerSize ++ tail

section Extends

variable {message later : List UInt8} {start offset : Nat}

theorem Extends.drop (extended : Extends message later)
    (behind : headerSize ≤ offset) (inside : offset ≤ message.length) :
    ∃ tail, later.drop offset = message.drop offset ++ tail := by
  obtain ⟨tail, same⟩ := extended.behind
  have further := congrArg (List.drop (offset - headerSize)) same
  rw [List.drop_drop, Nat.add_sub_cancel' behind] at further
  refine ⟨tail, ?_⟩
  rw [further, List.drop_append_of_le_length (by rw [List.length_drop]; omega),
    List.drop_drop, Nat.add_sub_cancel' behind]

theorem lt_of_drop_eq_cons {byte : UInt8} {rest : List UInt8}
    (bytes : message.drop offset = byte :: rest) : offset < message.length := by
  have size := congrArg List.length bytes
  simp only [List.length_drop, List.length_cons] at size
  omega

theorem lt_of_readName {found : DomainName × Nat}
    (read : readName message offset = some found) : offset < message.length := by
  simp only [readName, Option.filter_eq_some_iff] at read
  have labels := read.1
  rw [readLabels] at labels
  split at labels
  next => cases labels
  next bytes => exact lt_of_drop_eq_cons bytes

theorem readName_of_readQuestion {question : Question} {next : Nat}
    (read : readQuestion message offset = some (question, next)) :
    ∃ behind, readName message offset = some (question.name, behind) := by
  simp only [readQuestion, Option.bind_eq_bind, Option.bind_eq_some_iff,
    Prod.exists] at read
  obtain ⟨name, behind, named, _, _, _, _, done⟩ := read
  obtain ⟨rfl, _⟩ := Prod.mk.inj (Option.some.inj done)
  exact ⟨behind, named⟩

theorem Extends.cons (extended : Extends message later)
    (behind : headerSize ≤ offset) {byte : UInt8} {rest : List UInt8}
    (bytes : message.drop offset = byte :: rest) :
    ∃ tail, later.drop offset = byte :: (rest ++ tail) := by
  obtain ⟨tail, same⟩ :=
    extended.drop behind (Nat.le_of_lt (lt_of_drop_eq_cons bytes))
  exact ⟨tail, by rw [same, bytes, List.cons_append]⟩

theorem Extends.readU16 (extended : Extends message later)
    (behind : headerSize ≤ offset) {value : Nat}
    (read : readU16 message offset = some value) :
    readU16 later offset = some value := by
  simp only [Dns.readU16] at read ⊢
  split at read
  next high low rest bytes =>
    obtain ⟨tail, same⟩ := extended.cons behind bytes
    rw [same]
    exact read
  next => cases read

theorem Extends.readBytes (extended : Extends message later)
    (behind : headerSize ≤ offset) {count : Nat} {bytes : List UInt8}
    (read : readBytes message offset count = some bytes) :
    readBytes later offset count = some bytes := by
  simp only [Dns.readBytes] at read ⊢
  split at read
  next inside =>
    obtain ⟨tail, same⟩ := extended.drop behind (by omega)
    have longer := extended.longer
    rw [if_pos (by omega), same,
      List.take_append_of_le_length (by rw [List.length_drop]; omega)]
    exact read
  next => cases read

theorem Extends.readLabels (extended : Extends message later)
    (behind : headerSize ≤ offset) {found : DomainName × Nat}
    (read : readLabels message start offset = some found) :
    readLabels later start offset = some found := by
  revert found
  fun_induction Dns.readLabels message start offset with
  | case1 => intro found read; cases read
  | case2 start offset rest bytes =>
      intro found read
      obtain ⟨tail, same⟩ := extended.cons behind bytes
      rwa [readLabels_root same]
  | case3 start offset byte rest bytes nonzero short inside induction =>
      intro found read
      obtain ⟨tail, same⟩ := extended.cons behind bytes
      obtain ⟨last, earlier, rfl⟩ := Option.map_eq_some_iff.mp read
      rw [readLabels_label same nonzero short (by rw [List.length_append]; omega),
        induction (by omega) earlier, Option.map_some,
        List.take_append_of_le_length inside]
  | case4 => intro found read; cases read
  | case5 => intro found read; cases read
  | case6 start offset byte _ _ isPointer low rest _ target bounds bytes induction =>
      intro found read
      obtain ⟨tail, same⟩ := extended.cons behind bytes
      obtain ⟨last, earlier, rfl⟩ := Option.map_eq_some_iff.mp read
      rw [readLabels_pointer same isPointer rfl bounds.1 bounds.2,
        induction bounds.1 earlier, Option.map_some]
  | case7 => intro found read; cases read
  | case8 => intro found read; cases read

theorem le_of_readLabels {found : DomainName × Nat}
    (read : readLabels message start offset = some found) :
    offset ≤ found.2 := by
  revert found
  fun_induction readLabels message start offset with
  | case1 => intro found read; cases read
  | case2 =>
      intro found read
      obtain rfl := Option.some.inj read
      exact Nat.le_succ _
  | case3 _ _ _ _ _ _ _ _ induction =>
      intro found read
      obtain ⟨last, earlier, rfl⟩ := Option.map_eq_some_iff.mp read
      have further := induction earlier
      dsimp only
      omega
  | case4 => intro found read; cases read
  | case5 => intro found read; cases read
  | case6 =>
      intro found read
      obtain ⟨last, _, rfl⟩ := Option.map_eq_some_iff.mp read
      exact Nat.le_add_right _ _
  | case7 => intro found read; cases read
  | case8 => intro found read; cases read

/-- What one reader reads behind the header, the other reads as well, and the
reading goes on behind the header. -/
def Carries {Item : Type} (read later : Nat → Option (Item × Nat)) : Prop :=
  ∀ ⦃offset item next⦄, headerSize ≤ offset → read offset = some (item, next) →
    headerSize ≤ next ∧ later offset = some (item, next)

theorem Extends.carries_readName (extended : Extends message later) :
    Carries (readName message) (readName later) := by
  intro offset name next behind read
  simp only [Dns.readName, Option.filter_eq_some_iff] at read ⊢
  have further := le_of_readLabels read.1
  exact ⟨Nat.le_trans behind further, extended.readLabels behind read.1, read.2⟩

theorem Extends.carries_readQuestion (extended : Extends message later) :
    Carries (readQuestion message) (readQuestion later) := by
  intro offset question last behind read
  simp only [readQuestion, Option.bind_eq_bind, Option.bind_eq_some_iff,
    Prod.exists] at read
  obtain ⟨name, next, named, qtype, typed, qclass, classed, done⟩ := read
  obtain ⟨inside, named⟩ := extended.carries_readName behind named
  obtain ⟨rfl, rfl⟩ := Prod.mk.inj (Option.some.inj done)
  exact ⟨by omega, readQuestion_of_fields named (extended.readU16 inside typed)
    (extended.readU16 (by omega) classed)⟩

theorem Extends.carries_readRecord (extended : Extends message later) :
    Carries (readRecord message) (readRecord later) := by
  intro offset record last behind read
  simp only [readRecord, Option.bind_eq_bind, Option.bind_eq_some_iff,
    Prod.exists] at read
  obtain ⟨name, next, named, rtype, typed, rclass, classed, high, ttlHigh, low,
    ttlLow, size, sized, rdata, filled, done⟩ := read
  obtain ⟨inside, named⟩ := extended.carries_readName behind named
  obtain ⟨rfl, rfl⟩ := Prod.mk.inj (Option.some.inj done)
  exact ⟨by omega, readRecord_of_fields named (extended.readU16 inside typed)
    (extended.readU16 (by omega) classed) (extended.readU16 (by omega) ttlHigh)
    (extended.readU16 (by omega) ttlLow) (extended.readU16 (by omega) sized)
    (extended.readBytes (by omega) filled)⟩

end Extends

section Many

variable {Item : Type} {read later : Nat → Option (Item × Nat)}
  {count offset next last : Nat} {items : List Item} {item : Item}

theorem readMany_succ_eq_some :
    readMany read (count + 1) offset = some (items, last) ↔
      ∃ first next rest, read offset = some (first, next) ∧
        readMany read count next = some (rest, last) ∧ items = first :: rest := by
  simp only [readMany, Option.bind_eq_bind, Option.bind_eq_some_iff,
    Prod.exists, Option.pure_def, Option.some.injEq, Prod.mk.injEq]
  constructor
  · intro found
    obtain ⟨first, next, one, rest, _, more, rfl, rfl⟩ := found
    exact ⟨first, next, rest, one, more, rfl⟩
  · intro found
    obtain ⟨first, next, rest, one, more, rfl⟩ := found
    exact ⟨first, next, one, rest, last, more, rfl, rfl⟩

theorem readMany_concat (before : readMany read count offset = some (items, next))
    (one : read next = some (item, last)) :
    readMany read (count + 1) offset = some (items ++ [item], last) := by
  induction count generalizing offset items with
  | zero =>
      obtain ⟨rfl, rfl⟩ := Prod.mk.inj (Option.some.inj before)
      exact readMany_succ_eq_some.mpr ⟨item, last, [], one, rfl, rfl⟩
  | succ count induction =>
      obtain ⟨first, middle, rest, head, tail, rfl⟩ :=
        readMany_succ_eq_some.mp before
      exact readMany_succ_eq_some.mpr
        ⟨first, middle, rest ++ [item], head, induction tail, rfl⟩

theorem Carries.many (carries : Carries read later) (count : Nat) :
    Carries (readMany read count) (readMany later count) := by
  induction count with
  | zero =>
      intro offset items last behind done
      obtain ⟨rfl, rfl⟩ := Prod.mk.inj (Option.some.inj done)
      exact ⟨behind, rfl⟩
  | succ count induction =>
      intro offset items last behind found
      obtain ⟨first, next, rest, one, more, rfl⟩ :=
        readMany_succ_eq_some.mp found
      obtain ⟨inside, one⟩ := carries behind one
      obtain ⟨further, more⟩ := induction inside more
      exact ⟨further, readMany_succ_eq_some.mpr
        ⟨first, next, rest, one, more, rfl⟩⟩

end Many

end Dns
