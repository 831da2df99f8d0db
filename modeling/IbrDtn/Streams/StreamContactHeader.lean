import IbrDtn.Data.AdminRecord
import IbrDtn.Streams.StreamDataSegment

/-!
# Contact headers and sequences of messages

This file models `ibrdtn/streams/StreamContactHeader.cpp`: the header that both ends of a stream
connection send first.  It then joins the two kinds of messages: what is written for any sequence of
them is read back message by message, provided that each has a form on the wire.

## Main definitions

* `StreamContactHeader` : the header with its stream operators.
* `StreamMessage` : a message of either kind, with `StreamMessage.readAll` for a sequence.
* `StreamMessage.Representable` : the messages that have a form on the wire.

## Main results

* `StreamContactHeader.reads_read` : a contact header is read back.
* `StreamMessage.restoresAll_iff` : a sequence is read back exactly if every message has a form on
  the wire.
-/

namespace IbrDtn

/-- `stream.read(memory, n)` into `n` bytes of memory that hold `old`. -/
def readInto (old : Bytes) : Parser Exn Bytes :=
  Parser.ofRun fun s =>
    if s.good then
      if old.length ≤ s.rest.length then
        (.ok (s.rest.take old.length), { s with rest := s.rest.drop old.length })
      else (.ok (s.rest ++ old.drop s.rest.length), s.exhaust)
    else (.ok old, { s with fail := true })

theorem reads_readInto {old bs : Bytes} (h : bs.length = old.length) :
    (readInto old).Reads bs bs := by
  intro r st
  simp [readInto, InStream.good, ← h]

/-! ### Numbers in network byte order -/

namespace NetworkOrder

/-- The bytes of `htons(v)`. -/
def write (v : UInt16) : Bytes := [UInt8.ofNat (v.toNat / 256), UInt8.ofNat v.toNat]

/-- `ntohs` of a number with the given bytes. -/
def read (bs : Bytes) : UInt16 :=
  UInt16.ofNat (bs.foldl (fun v b => 256 * v + b.toNat) 0)

theorem read_write (v : UInt16) : read (write v) = v := by
  have hlt := v.toNat_lt
  rw [← UInt16.toNat_inj, read, write]
  simp only [List.foldl_cons, List.foldl_nil, UInt8.toNat_ofNat', UInt16.toNat_ofNat']
  omega

end NetworkOrder

/-! ### Contact headers -/

/-- `class StreamContactHeader`. -/
structure StreamContactHeader where
  localeid : EID
  flags : UInt8
  keepalive : UInt16
deriving DecidableEq

namespace StreamContactHeader

/-- `TCPCL_VERSION`. -/
def version : UInt8 := 3

/-- The first four bytes of a contact header. -/
def magic : Bytes := ascii ['d', 't', 'n', '!']

/-- `StreamContactHeader::StreamContactHeader(EID)`. -/
def create (localeid : EID) : StreamContactHeader := ⟨localeid, 1, 0⟩

/-- `operator<<(std::ostream&, const StreamContactHeader&)`. -/
def write (h : StreamContactHeader) : Bytes :=
  magic ++ (version :: h.flags ::
    (NetworkOrder.write h.keepalive ++ BundleString.write h.localeid.getString))

/-- What follows the magic. -/
def readFields (old : StreamContactHeader) : Parser Exn StreamContactHeader := do
  let v ← Parser.getByte none
  if v ≠ version then throw (.invalidProtocol "invalid bundle protocol version")
  else
    let flags ← Parser.getByte (some old.flags)
    let keepalive ← readInto [0, 0]
    let eid ← BundleString.read
    pure ⟨EID.ofString eid, flags, NetworkOrder.read keepalive⟩

/-- `operator>>(std::istream&, StreamContactHeader&)`, into `old`. The magic is compared as a string
that ends at its first NUL. -/
def read (old : StreamContactHeader) : Parser Exn StreamContactHeader := do
  let bs ← Parser.readBytes 4
  if bs.takeWhile (· ≠ 0) ≠ magic then throw (.invalidProtocol "not talking dtn")
  else readFields old

/-- The EID is the one that its text denotes. -/
def Representable (h : StreamContactHeader) : Prop := EID.ofString h.localeid.getString = h.localeid

instance (h : StreamContactHeader) : Decidable h.Representable :=
  inferInstanceAs (Decidable (_ = _))

/-- The header for an EID that was made from a text has a form on the wire. -/
theorem representable_create (value : Bytes) : (create (EID.ofString value)).Representable :=
  EID.ofString_getString_ofString value

/-- **A contact header is read back**, whatever object it is read into. -/
theorem reads_read {h : StreamContactHeader} (hrep : h.Representable)
    (hlen : h.localeid.getString.length < 2 ^ 63) (old : StreamContactHeader) :
    (read old).Reads h.write h := by
  have hfields : (readFields old).Reads (version :: h.flags ::
      (NetworkOrder.write h.keepalive ++ BundleString.write h.localeid.getString)) h := by
    refine (Parser.reads_getByte none version).bind_cons ?_
    rw [if_neg (by simp)]
    refine (Parser.reads_getByte _ h.flags).bind_cons ?_
    have hkeepalive : (readInto [0, 0]).Reads (NetworkOrder.write h.keepalive)
        (NetworkOrder.write h.keepalive) := reads_readInto rfl
    refine hkeepalive.bind ?_
    have hread := (BundleString.reads_read hlen).bind_pure
      (f := fun eid => (⟨EID.ofString eid, h.flags, h.keepalive⟩ : StreamContactHeader))
    rw [hrep] at hread
    rw [NetworkOrder.read_write]
    exact hread
  refine (Parser.reads_readBytes magic).bind ?_
  rw [if_neg (by decide)]
  exact hfields

/-- **Whatever is read has a form on the wire.** -/
theorem ensures_read (old : StreamContactHeader) : (read old).Ensures Representable := by
  refine (Parser.ensures_true _).bind fun bs _ => ?_
  split_ifs
  · intro is h hrun
    exact absurd hrun (by simp)
  · refine (Parser.ensures_true _).bind fun v _ => ?_
    split_ifs
    · intro is h hrun
      exact absurd hrun (by simp)
    · exact (Parser.ensures_true _).bind fun flags _ => (Parser.ensures_true _).bind
        fun keepalive _ => (Parser.ensures_true _).bind fun eid _ =>
          Parser.ensures_pure (EID.ofString_getString_ofString eid)

end StreamContactHeader

/-! ### Sequences of messages -/

/-- What two connected streams exchange: contact headers first, then segments. -/
inductive StreamMessage where
  | contact (h : StreamContactHeader)
  | segment (seg : StreamDataSegment)
deriving DecidableEq

namespace StreamMessage

/-- `operator<<` of the class. -/
def write : StreamMessage → Bytes
  | contact h => h.write
  | segment seg => seg.write

/-- `operator>>` of the class, into an object. -/
def read : StreamMessage → Parser Exn StreamMessage
  | contact old => do
      let h ← old.read
      pure (contact h)
  | segment old => do
      let seg ← old.read
      pure (segment seg)

/-- One message after the other is read, into objects. -/
def readAll : List StreamMessage → Parser Exn (List StreamMessage)
  | [] => pure []
  | old :: olds => do
      let m ← old.read
      let ms ← readAll olds
      pure (m :: ms)

/-- The objects are of one class. -/
def SameClass : StreamMessage → StreamMessage → Prop
  | contact _, contact _ | segment _, segment _ => True
  | _, _ => False

/-- The message has a form on the wire. -/
def Representable : StreamMessage → Prop
  | contact h => h.Representable
  | segment seg => seg.Representable

/-- The type and the fields that it carries are those of the first message. -/
def Restores : StreamMessage → StreamMessage → Prop
  | contact h, contact h' => h' = h
  | segment seg, segment seg' => seg.Restores seg'
  | _, _ => False

/-- The text of the EID of a contact header has the length of a string. -/
def Fits : StreamMessage → Prop
  | contact h => h.localeid.getString.length < 2 ^ 63
  | segment _ => True

theorem reads_read {m old : StreamMessage} (hm : m.Representable) (hfits : m.Fits)
    (hclass : SameClass old m) : ∃ m', old.read.Reads m.write m' ∧ m.Restores m' := by
  cases m with
  | contact h =>
      cases old with
      | contact old =>
          exact ⟨_, (StreamContactHeader.reads_read hm hfits old).bind_pure, rfl⟩
      | segment old => exact absurd hclass id
  | segment seg =>
      cases old with
      | contact old => exact absurd hclass id
      | segment old =>
          obtain ⟨seg', hread, hrestores⟩ := StreamDataSegment.reads_read hm old
          exact ⟨_, hread.bind_pure, hrestores⟩

theorem ensures_read (old : StreamMessage) : old.read.Ensures Representable := by
  cases old with
  | contact old =>
      exact (StreamContactHeader.ensures_read old).bind fun _ h => Parser.ensures_pure h
  | segment old =>
      exact (StreamDataSegment.ensures_read old).bind fun _ h => Parser.ensures_pure h

theorem Restores.representable {m m' : StreamMessage} (h : m.Restores m')
    (h' : m'.Representable) : m.Representable := by
  cases m <;> cases m'
  · rw [Restores] at h
    exact h ▸ h'
  · exact absurd h id
  · exact absurd h id
  · exact StreamDataSegment.Restores.representable h h'

/-- Whatever a sequence is read from, its messages have a form on the wire. -/
theorem ensures_readAll (olds : List StreamMessage) :
    (readAll olds).Ensures fun ms => ∀ m ∈ ms, m.Representable := by
  induction olds with
  | nil => exact Parser.ensures_pure fun m hm => absurd hm List.not_mem_nil
  | cons old olds ih =>
      exact (ensures_read old).bind fun m hm => ih.bind fun ms hms =>
        Parser.ensures_pure (List.forall_mem_cons.2 ⟨hm, hms⟩)

/-- **A sequence of messages with a form on the wire is read back.** -/
theorem reads_readAll {ms olds : List StreamMessage} (hms : ∀ m ∈ ms, m.Representable)
    (hfits : ∀ m ∈ ms, m.Fits) (hclass : List.Forall₂ SameClass olds ms) :
    ∃ ms', (readAll olds).Reads (ms.flatMap write) ms' ∧ List.Forall₂ Restores ms ms' := by
  induction hclass with
  | nil => exact ⟨[], Parser.reads_pure _, List.Forall₂.nil⟩
  | cons hclass _ ih =>
      rw [List.forall_mem_cons] at hms hfits
      obtain ⟨m', hread, hrestores⟩ := reads_read hms.1 hfits.1 hclass
      obtain ⟨ms', hreads, hall⟩ := ih hms.2 hfits.2
      exact ⟨m' :: ms', hread.bind hreads.bind_pure, .cons hrestores hall⟩

/-- Only messages with a form on the wire are restored. -/
theorem representable_of_restores {ms ms' olds : List StreamMessage} {bs : Bytes}
    (hreads : (readAll olds).Reads bs ms') (hall : List.Forall₂ Restores ms ms') :
    ∀ m ∈ ms, m.Representable := by
  have hread := ensures_readAll olds _ ms' (congrArg Prod.fst (hreads [] []))
  clear hreads
  induction hall with
  | nil => exact fun m hm => absurd hm List.not_mem_nil
  | cons hrestores _ ih =>
      rw [List.forall_mem_cons] at hread
      exact List.forall_mem_cons.2 ⟨hrestores.representable hread.1, ih hread.2⟩

/-- **A sequence of messages is read back exactly if** every one of them has a form on the wire,
whatever objects they are read into and whatever bytes follow. -/
theorem restoresAll_iff {ms olds : List StreamMessage}
    (hclass : List.Forall₂ SameClass olds ms) (hfits : ∀ m ∈ ms, m.Fits) :
    (∃ ms', (readAll olds).Reads (ms.flatMap write) ms' ∧ List.Forall₂ Restores ms ms') ↔
      ∀ m ∈ ms, m.Representable := by
  refine ⟨?_, fun hms => reads_readAll hms hfits hclass⟩
  rintro ⟨ms', hreads, hall⟩
  exact representable_of_restores hreads hall

/-- The endpoint `dtn://a`. -/
def sampleEID : EID := EID.ofString (ascii ['d', 't', 'n', ':', '/', '/', 'a'])

/-- A connection from its contact header to its shutdown. -/
def sample (reason : ShutdownReason) : List StreamMessage :=
  [.contact (.create sampleEID), .segment (.data 3 true true), .segment (.ofType .ackSegment 3),
    .segment (.ofReason reason 0)]

theorem sameClass_sample (reason : ShutdownReason) :
    List.Forall₂ SameClass (sample .idleTimeout) (sample reason) :=
  .cons trivial (.cons trivial (.cons trivial (.cons trivial .nil)))

theorem fits_sample (reason : ShutdownReason) : ∀ m ∈ sample reason, m.Fits := by
  have hlen : sampleEID.getString.length < 2 ^ 63 := by decide
  simp only [sample, List.forall_mem_cons]
  exact ⟨hlen, trivial, trivial, trivial, fun m hm => absurd hm List.not_mem_nil⟩

theorem restoresAll_iff_sample : ∃ ms',
    (readAll (sample .idleTimeout)).Reads ((sample .busy).flatMap write) ms' ∧
      List.Forall₂ Restores (sample .busy) ms' := by
  refine (restoresAll_iff (sameClass_sample .busy) (fits_sample .busy)).2 ?_
  simp only [sample, List.forall_mem_cons]
  refine ⟨StreamContactHeader.representable_create _, ⟨?_, ?_, ?_⟩, ⟨?_, ?_, ?_⟩, ⟨?_, ?_, ?_⟩,
    fun m hm => absurd hm List.not_mem_nil⟩
  all_goals decide

/-- **A shutdown without reason comes back with another number**: its character is negative. -/
theorem not_restoresAll : ¬ ∃ ms',
    (readAll (sample .idleTimeout)).Reads ((sample .none).flatMap write) ms' ∧
      List.Forall₂ Restores (sample .none) ms' := by
  rintro ⟨ms', hreads, hall⟩
  have hseg : (StreamDataSegment.ofReason .none 0).Representable :=
    representable_of_restores hreads hall (.segment (.ofReason .none 0))
      (by simp only [sample, List.mem_cons, true_or, or_true])
  exact absurd (hseg.reason_eq rfl) (by decide)

end StreamMessage

end IbrDtn
