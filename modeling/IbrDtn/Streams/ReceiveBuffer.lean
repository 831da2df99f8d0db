import IbrDtn.Data.Encoding
import IbrDtn.Streams.StreamBuffer

/-!
# The receiving half of a stream buffer

This file models `underflow`, `skipData` and `reject` of `ibrdtn/streams/StreamBuffer.cpp`, and the
functions of `std::streambuf` that call them.  The payload of a data segment is handed to the reader
in pieces that fit the buffer; the other messages in between are handled on the way.  When the
reader rejects a bundle, the rest of its data is skipped up to the next segment with a start mark.

The call of `underflow` returns the first byte of the buffer behind every data segment that is not
skipped, also if the segment is empty.

## Main definitions

* `ReceiveBuffer` : the members of the receiving half.
* `ReceiveBuffer.underflow`, `ReceiveBuffer.reject` : what fills and clears the get area.
* `WireSegment` : a message on the wire, with its payload.
* `Reading` : what a reader has still to get from a sequence of messages.

## Main results

* `ReceiveBuffer.simulates_step` : a buffer follows the reading as long as no empty segment is next.
* `ReceiveBuffer.outputs_eq` : the same, for a whole run.
* `ReceiveBuffer.obtained_eq` : the bytes that a reader obtains between two rejections.
-/

namespace IbrDtn

/-- `_underflow_state`. -/
inductive UnderflowState where
  | idle
  | dataTransfer
deriving DecidableEq, Repr

/-- The receiving half of `class StreamConnection::StreamBuffer`: the sending half, whose segments
are acknowledged, the state bits `STREAM_REJECT` and `STREAM_FAILED`, `in_buf_` with the get area
from `next` to `limit`, the state of `underflow`, the stream, the messages that were sent, and the
acknowledged lengths that the connection was told. -/
structure ReceiveBuffer where
  sender : StreamBuffer
  rejecting : Bool
  failed : Bool
  inBuf : Bytes
  next : ℕ
  limit : ℕ
  state : UnderflowState
  dataRemain : ℕ
  recvSize : UInt64
  stream : InStream
  replies : List StreamDataSegment
  acked : List UInt64

namespace ReceiveBuffer

/-- How a part of `underflow` ends early: a `StreamErrorException`, a `StreamShutdownException`,
another exception, or not at all. -/
inductive Failure where
  | streamError (what : String)
  | shutdown
  | escapes (e : Exn)
  | diverges
deriving DecidableEq, Repr

/-- `StreamBuffer::StreamBuffer` on a stream, behind the handshake, with what the memory of the
buffer holds. -/
def create (sender : StreamBuffer) (inBuf wire : Bytes) : ReceiveBuffer :=
  ⟨sender, false, false, inBuf, 0, 0, .idle, 0, 0, .ofBytes wire, [], []⟩

/-- `_stream << seg << std::flush`, of an answer. -/
def reply (b : ReceiveBuffer) (seg : StreamDataSegment) : Except Failure Unit × ReceiveBuffer :=
  if b.stream.good then (.ok (), { b with replies := b.replies ++ [seg] })
  else (.error (.streamError "stream went bad"), b)

/-- The answer to a segment that is skipped. -/
def refuse (b : ReceiveBuffer) : Except Failure Unit × ReceiveBuffer :=
  if b.sender.nackSupport then b.reply (.ofType .refuseBundle 0) else (.ok (), b)

/-- `readsize`. -/
def readSize (b : ReceiveBuffer) : ℕ :=
  if b.dataRemain < b.sender.bufferSize then b.dataRemain else b.sender.bufferSize

/-- The loop of `StreamBuffer::skipData`, which runs at most `fuel` times. -/
def skipData : ℕ → ReceiveBuffer → Except Failure Unit × ReceiveBuffer
  | 0, b =>
      if 0 < b.dataRemain ∧ b.stream.good = true then (.error .diverges, b) else (.ok (), b)
  | fuel + 1, b =>
      if 0 < b.dataRemain ∧ b.stream.good = true then
        skipData fuel { b with
          stream := ((Parser.readBytes b.readSize : Parser Exn Bytes).run b.stream).2
          dataRemain := b.dataRemain - b.readSize }
      else (.ok (), b)

/-- The data of a segment that is skipped. -/
def discard (b : ReceiveBuffer) : Except Failure Unit × ReceiveBuffer :=
  match b.refuse with
  | (.error e, b) => (.error e, b)
  | (.ok (), b) => skipData b.dataRemain b

/-- The first part of `StreamBuffer::underflow`: the segment in transfer is skipped, or acknowledged
if it is complete. -/
def finishSegment (b : ReceiveBuffer) : Except Failure Unit × ReceiveBuffer :=
  match b.state with
  | .idle => (.ok (), b)
  | .dataTransfer =>
      if b.rejecting then
        match b.discard with
        | (.error e, b) => (.error e, b)
        | (.ok (), b) => (.ok (), { b with state := .idle })
      else if b.dataRemain = 0 then
        if b.sender.ackSupport then
          match b.reply (.ofType .ackSegment b.recvSize) with
          | (.error e, b) => (.error e, b)
          | (.ok (), b) => (.ok (), { b with state := .idle })
        else (.ok (), { b with state := .idle })
      else (.ok (), b)

/-- The case of `MSG_DATA_SEGMENT`. -/
def receiveData (b : ReceiveBuffer) (seg : StreamDataSegment) :
    Except Failure Unit × ReceiveBuffer :=
  let b := if seg.isBegin then { b with recvSize := seg.value, rejecting := false }
    else { b with recvSize := b.recvSize + seg.value }
  let b := { b with dataRemain := seg.value.toNat }
  if b.rejecting then b.discard else (.ok (), { b with state := .dataTransfer })

/-- The case of `MSG_ACK_SEGMENT`: the first segment of the queue is acknowledged. -/
def receiveAck (b : ReceiveBuffer) (seg : StreamDataSegment) : ReceiveBuffer :=
  if b.sender.ackSupport then
    match b.sender.segments with
    | [] => b
    | qs :: segments =>
        let events := if qs.isEnd then b.sender.events ++ [.forwarded] else b.sender.events
        { b with sender := { b.sender with segments, events }, acked := b.acked ++ [seg.value] }
  else b

/-- The case of `MSG_REFUSE_BUNDLE`: the segments of the refused transfer wait to be refused too. -/
def receiveRefuse (b : ReceiveBuffer) : ReceiveBuffer :=
  if b.sender.ackSupport && b.sender.nackSupport then
    match b.sender.rejectedSegments with
    | _ :: rejectedSegments => { b with sender := { b.sender with rejectedSegments } }
    | [] =>
        match b.sender.segments with
        | [] => b
        | _ :: rest =>
            let segments := rest.dropWhile fun seg => !seg.isBegin
            { b with sender := { b.sender with
              rejectedSegments := rest.takeWhile fun seg => !seg.isBegin
              segments
              events := b.sender.events ++ [.refused]
              skip := if segments = [] then true else b.sender.skip } }
  else b

/-- The cases of the message types. -/
def receive (b : ReceiveBuffer) (seg : StreamDataSegment) : Except Failure Unit × ReceiveBuffer :=
  match seg.type with
  | .dataSegment => b.receiveData seg
  | .ackSegment => (.ok (), b.receiveAck seg)
  | .keepalive => (.ok (), b)
  | .refuseBundle => (.ok (), b.receiveRefuse)
  | .shutdown => (.error .shutdown, b)
  | .other _ => (.ok (), b)

/-- The loop of `StreamBuffer::underflow` over messages until data is available, which runs at most
`fuel` times. -/
def readSegments : ℕ → ReceiveBuffer → Except Failure Unit × ReceiveBuffer
  | 0, b => if b.state = .idle then (.error .diverges, b) else (.ok (), b)
  | fuel + 1, b =>
      if b.state = .idle then
        if b.stream.good then
          match (StreamDataSegment.read (.ofType .keepalive 0)).run b.stream with
          | (.error e, stream) => (.error (.escapes e), { b with stream })
          | (.ok seg, stream) =>
              match receive { b with stream } seg with
              | (.error e, b) => (.error e, b)
              | (.ok (), b) => readSegments fuel b
        else (.error (.streamError "stream went bad"), b)
      else (.ok (), b)

/-- `_stream.read(in_buf_, n)`, into memory that is left as it is where nothing is read. -/
def readInto (s : InStream) (buf : Bytes) (n : ℕ) : Bytes × InStream :=
  let bs := s.rest.take n
  (bs ++ buf.drop bs.length,
    if n ≤ s.rest.length then { s with rest := s.rest.drop n } else s.exhaust)

/-- The last part of `StreamBuffer::underflow`: the next piece of the data is read. -/
def fill (b : ReceiveBuffer) : Except Failure UInt8 × ReceiveBuffer :=
  if b.stream.good then
    let (inBuf, stream) := readInto b.stream b.inBuf b.readSize
    (.ok (inBuf.headD 0), { b with
      stream
      inBuf
      dataRemain := b.dataRemain - b.readSize
      next := 0
      limit := b.readSize })
  else (.error (.streamError "stream went bad"), b)

/-- What a reader gets: a byte, the end of the file, an exception, or no answer. -/
inductive Output where
  | byte (b : UInt8)
  | eof
  | throws
  | diverges
deriving DecidableEq, Repr

/-- The `catch` clauses of `StreamBuffer::underflow`. -/
def caught (e : Failure) (b : ReceiveBuffer) : Output × ReceiveBuffer :=
  match e with
  | .streamError _ => (.throws, { b with failed := true })
  | .shutdown => (.eof, { b with failed := true })
  | .escapes _ => (.throws, b)
  | .diverges => (.diverges, b)

/-- `StreamBuffer::underflow`. Every turn of its loop takes a byte of the stream, or is the last but
one. -/
def underflow (b : ReceiveBuffer) : Output × ReceiveBuffer :=
  match b.finishSegment with
  | (.error e, b) => caught e b
  | (.ok (), b) =>
      match readSegments (b.stream.rest.length + 2) b with
      | (.error e, b) => caught e b
      | (.ok (), b) =>
          match b.fill with
          | (.error e, b) => caught e b
          | (.ok c, b) => (.byte c, b)

/-- `std::streambuf::sgetc`. -/
def sgetc (b : ReceiveBuffer) : Output × ReceiveBuffer :=
  if b.next < b.limit then (.byte ((b.inBuf[b.next]?).getD 0), b) else b.underflow

/-- `std::streambuf::sbumpc`, with `uflow`. -/
def sbumpc (b : ReceiveBuffer) : Output × ReceiveBuffer :=
  if b.next < b.limit then
    (.byte ((b.inBuf[b.next]?).getD 0), { b with next := b.next + 1 })
  else
    match b.underflow with
    | (.byte _, b) => (.byte ((b.inBuf[b.next]?).getD 0), { b with next := b.next + 1 })
    | (o, b) => (o, b)

/-- `StreamBuffer::reject`. -/
def reject (b : ReceiveBuffer) : ReceiveBuffer :=
  { b with rejecting := true, next := 0, limit := 0 }

end ReceiveBuffer

/-! ### Messages on the wire -/

/-- A message on the wire: four bits of flags, a number in any form, and the payload of a data
segment, whose length is that number. -/
inductive WireSegment where
  | data (flags : Fin 16) (length : SDNV.Wire) (payload : Bytes)
      (h : payload.length = length.value.toNat)
  | ack (flags : Fin 16) (length : SDNV.Wire)
  | keepalive (flags : Fin 16)
  | refuse (flags : Fin 16)

namespace WireSegment

/-- The number behind the header. -/
def number : WireSegment → Bytes
  | data _ length _ _ | ack _ length => length.bytes
  | keepalive _ | refuse _ => []

/-- What is read of a message in front of its payload. -/
def seg : WireSegment → StreamDataSegment
  | data flags length _ _ => ⟨length.value, .dataSegment, .idleTimeout, UInt8.ofNat flags⟩
  | ack flags length => ⟨length.value, .ackSegment, .idleTimeout, UInt8.ofNat flags⟩
  | keepalive flags => ⟨0, .keepalive, .idleTimeout, UInt8.ofNat flags⟩
  | refuse flags => ⟨0, .refuseBundle, .idleTimeout, UInt8.ofNat flags⟩

/-- The bytes in front of the payload. -/
def head (m : WireSegment) : Bytes := m.seg.header :: m.number

/-- The payload of a data segment. -/
def payload : WireSegment → Bytes
  | data _ _ payload _ => payload
  | ack _ _ | keepalive _ | refuse _ => []

/-- The bytes of a message. -/
def bytes (m : WireSegment) : Bytes := m.head ++ m.payload

/-- The bytes of a sequence of messages. -/
def wire (ms : List WireSegment) : Bytes := ms.flatMap bytes

theorem wire_cons (m : WireSegment) (ms : List WireSegment) :
    wire (m :: ms) = m.head ++ (m.payload ++ wire ms) := by
  rw [wire, List.flatMap_cons, bytes, List.append_assoc]
  rfl

/-- Every message has its head on the wire. -/
theorem length_le_wire (ms : List WireSegment) : ms.length ≤ (wire ms).length := by
  induction ms with
  | nil => exact Nat.zero_le _
  | cons m ms ih =>
      rw [wire_cons, head, List.cons_append, List.length_cons, List.length_cons,
        List.length_append, List.length_append]
      omega

theorem representable_seg (m : WireSegment) : m.seg.Representable := by
  have hflags (flags : Fin 16) : (UInt8.ofNat flags).toNat < 16 := by
    rw [UInt8.toNat_ofNat']
    omega
  cases m with
  | data flags _ _ _ => exact ⟨hflags flags, StreamDataSegment.ofCode_code_and nofun, nofun⟩
  | ack flags _ => exact ⟨hflags flags, StreamDataSegment.ofCode_code_and nofun, nofun⟩
  | keepalive flags => exact ⟨hflags flags, StreamDataSegment.ofCode_code_and nofun, nofun⟩
  | refuse flags => exact ⟨hflags flags, StreamDataSegment.ofCode_code_and nofun, nofun⟩

/-- **The head of a message is read.** -/
theorem reads_head (m : WireSegment) :
    (StreamDataSegment.read (.ofType .keepalive 0)).Reads m.head m.seg := by
  obtain ⟨hflags, htype⟩ := StreamDataSegment.header_eq m.representable_seg
  refine (Parser.reads_getByte _ m.seg.header).bind_cons ?_
  rw [hflags, htype]
  cases m with
  | data flags length _ _ => exact length.reads.bind_pure
  | ack flags length => exact length.reads.bind_pure
  | keepalive flags => exact Parser.reads_pure _
  | refuse flags => exact Parser.reads_pure _

end WireSegment

/-! ### What a reader has still to get -/

/-- What a reader has still to get of a sequence of messages: the rest of the segment that it reads,
whether it skips to the next start mark, and the messages behind. -/
structure Reading where
  pending : Bytes
  skipping : Bool
  rest : List WireSegment

namespace Reading

/-- The payload of a data segment, unless the reader skips it. -/
def accepted (skipping : Bool) : WireSegment → Option Bytes
  | .data flags length payload h =>
      if skipping && !(WireSegment.data flags length payload h).seg.isBegin then none
      else some payload
  | .ack _ _ | .keepalive _ | .refuse _ => none

/-- The reader skips behind a message. -/
def skipsBehind (skipping : Bool) : WireSegment → Bool
  | .data flags length payload h =>
      skipping && !(WireSegment.data flags length payload h).seg.isBegin
  | .ack _ _ | .keepalive _ | .refuse _ => skipping

theorem skipsBehind_of_accepted {skipping : Bool} {m : WireSegment} {payload : Bytes}
    (h : accepted skipping m = some payload) : skipsBehind skipping m = false := by
  cases m with
  | data flags length payload hlength =>
      rw [accepted] at h
      split_ifs at h with hskips
      exact Bool.eq_false_iff.2 hskips
  | ack _ _ | keepalive _ | refuse _ => cases h

/-- The segment that is read next: the first one that is not skipped with something in it. -/
def advance : Bool → List WireSegment → Reading
  | skipping, [] => ⟨[], skipping, []⟩
  | skipping, m :: ms =>
      match accepted skipping m with
      | some (c :: cs) => ⟨c :: cs, skipsBehind skipping m, ms⟩
      | some [] | none => advance (skipsBehind skipping m) ms

/-- The reader is in a segment with something left, if there is any. -/
def settle (r : Reading) : Reading :=
  if r.pending = [] then advance r.skipping r.rest else r

/-- What a reader does. -/
inductive Action where
  | sgetc
  | sbumpc
  | reject
deriving DecidableEq, Repr

/-- The output for the next byte, if there is one. -/
def outputOf : Option UInt8 → ReceiveBuffer.Output
  | some c => .byte c
  | none => .throws

/-- What a reader gets for an action, and what it has still to get. -/
def step (r : Reading) : Action → Option ReceiveBuffer.Output × Reading
  | .sgetc => (some (outputOf r.settle.pending.head?), r.settle)
  | .sbumpc => (some (outputOf r.settle.pending.head?),
      { r.settle with pending := r.settle.pending.tail })
  | .reject => (none, ⟨[], true, r.rest⟩)

/-- The payloads that are not skipped. -/
def payloads : Bool → List WireSegment → Bytes
  | _, [] => []
  | skipping, m :: ms => (accepted skipping m).getD [] ++ payloads (skipsBehind skipping m) ms

/-- **All that a reader can get** without a rejection. -/
def available (r : Reading) : Bytes := r.pending ++ payloads r.skipping r.rest

theorem available_advance (skipping : Bool) (ms : List WireSegment) :
    (advance skipping ms).available = payloads skipping ms := by
  induction ms generalizing skipping with
  | nil => rfl
  | cons m ms ih =>
      rw [advance, payloads]
      rcases accepted skipping m with _ | _ | ⟨c, cs⟩
      · exact ih _
      · exact ih _
      · rfl

theorem available_settle (r : Reading) : r.settle.available = r.available := by
  rw [settle]
  split_ifs with h
  · rw [available_advance, available, h, List.nil_append]
  · rfl

/-- The segment that is read next has something in it, or there is none. -/
theorem advance_cases (skipping : Bool) (ms : List WireSegment) :
    (advance skipping ms).pending ≠ [] ∨
      ∃ skipping', advance skipping ms = ⟨[], skipping', []⟩ := by
  induction ms generalizing skipping with
  | nil => exact Or.inr ⟨skipping, rfl⟩
  | cons m ms ih =>
      rw [advance]
      rcases accepted skipping m with _ | _ | ⟨c, cs⟩
      · exact ih _
      · exact ih _
      · exact Or.inl (List.cons_ne_nil c cs)

/-- The payload of the next data segment that is not skipped. -/
def next : Bool → List WireSegment → Option Bytes
  | _, [] => none
  | skipping, m :: ms =>
      match accepted skipping m with
      | some payload => some payload
      | none => next (skipsBehind skipping m) ms

/-- The next data segment that is not skipped has something in it, if there is one. -/
def Filled (skipping : Bool) (ms : List WireSegment) : Prop := next skipping ms ≠ some []

/-- The action does not come to an empty segment. -/
def Meets (r : Reading) (a : Action) : Prop :=
  a = .reject ∨ r.pending ≠ [] ∨ Filled r.skipping r.rest

instance decidableMeets (r : Reading) (a : Action) : Decidable (r.Meets a) :=
  inferInstanceAs (Decidable (_ ∨ _ ∨ _ ≠ _))

end Reading

/-! ### How a buffer follows -/

namespace ReceiveBuffer

/-- The bytes of the get area that were not taken. -/
def area (b : ReceiveBuffer) : Bytes := (b.inBuf.take b.limit).drop b.next

/-- `in_buf_` and the places of the get area. -/
def buffer (b : ReceiveBuffer) : Bytes × ℕ × ℕ := (b.inBuf, b.next, b.limit)

theorem area_eq_of_buffer {b b' : ReceiveBuffer} (h : b'.buffer = b.buffer) : b'.area = b.area := by
  obtain ⟨hinBuf, hplaces⟩ := Prod.mk.inj h
  obtain ⟨hnext, hlimit⟩ := Prod.mk.inj hplaces
  rw [area, area, hinBuf, hnext, hlimit]

theorem limit_le_of_buffer {b b' : ReceiveBuffer} (h : b'.buffer = b.buffer)
    (hlimit : b.limit ≤ b.inBuf.length) : b'.limit ≤ b'.inBuf.length := by
  obtain ⟨hinBuf, hplaces⟩ := Prod.mk.inj h
  rwa [hinBuf, (Prod.mk.inj hplaces).2]

/-- What the reader does not see: the buffer and the rejection are as before. -/
structure Keeps (b b' : ReceiveBuffer) : Prop where
  bufferSize_eq : b'.sender.bufferSize = b.sender.bufferSize
  buffer_eq : b'.buffer = b.buffer
  rejecting_eq : b'.rejecting = b.rejecting

theorem reply_eq {b : ReceiveBuffer} (h : b.stream.good = true) (seg : StreamDataSegment) :
    b.reply seg = (.ok (), { b with replies := b.replies ++ [seg] }) := if_pos h

/-- The bytes in front of `w` on a good stream. -/
def At (b : ReceiveBuffer) (bs : Bytes) : Prop :=
  ∃ stale, b.stream = ⟨bs, false, false, stale⟩

theorem At.good {b : ReceiveBuffer} {bs : Bytes} (h : b.At bs) : b.stream.good = true := by
  obtain ⟨stale, h⟩ := h
  rw [h]
  rfl

theorem At.of_stream {b b' : ReceiveBuffer} {bs : Bytes} (hat : b.At bs)
    (h : b'.stream = b.stream) : b'.At bs := by
  rw [At, h]
  exact hat

/-- **The data of a segment is skipped** as a whole. -/
theorem skipData_eq {fuel : ℕ} {b : ReceiveBuffer} {left w : Bytes} (hfuel : left.length ≤ fuel)
    (hsize : 0 < b.sender.bufferSize) (hremain : b.dataRemain = left.length)
    (hat : b.At (left ++ w)) :
    ∃ b', skipData fuel b = (.ok (), b') ∧ b.Keeps b' ∧ b'.state = b.state ∧ b'.At w := by
  induction fuel generalizing b left with
  | zero =>
      obtain rfl := List.length_eq_zero_iff.1 (Nat.le_zero.1 hfuel)
      refine ⟨b, ?_, ⟨rfl, rfl, rfl⟩, rfl, hat⟩
      rw [skipData, if_neg (by rw [hremain]; exact fun h => Nat.lt_irrefl 0 h.1)]
  | succ fuel ih =>
      rw [skipData]
      by_cases hnil : left = []
      · subst hnil
        refine ⟨b, ?_, ⟨rfl, rfl, rfl⟩, rfl, hat⟩
        rw [if_neg (by rw [hremain]; exact fun h => Nat.lt_irrefl 0 h.1)]
      · have hpos := List.length_pos_iff.2 hnil
        have hread : b.readSize ≤ left.length ∧ 0 < b.readSize := by
          rw [readSize]
          split_ifs <;> omega
        rw [if_pos ⟨by omega, hat.good⟩]
        obtain ⟨stale, hstream⟩ := hat
        have hle : b.readSize ≤ (left ++ w).length := by
          rw [List.length_append]
          omega
        have hskipped : ((Parser.readBytes b.readSize : Parser Exn Bytes).run b.stream).2 =
            ⟨left.drop b.readSize ++ w, false, false, stale⟩ := by
          simp only [hstream, Parser.readBytes, Parser.run_ofRun, InStream.good, Bool.not_false,
            Bool.and_self, if_true, if_pos hle, List.drop_append_of_le_length hread.1]
        obtain ⟨b', hskip, hkeeps, hstate, hat'⟩ := @ih
          { b with
            stream := ((Parser.readBytes b.readSize : Parser Exn Bytes).run b.stream).2
            dataRemain := b.dataRemain - b.readSize }
          (left.drop b.readSize) (by rw [List.length_drop]; omega) hsize
          (by rw [List.length_drop]; exact congrArg (· - b.readSize) hremain) ⟨stale, hskipped⟩
        exact ⟨b', hskip, ⟨hkeeps.1, hkeeps.2, hkeeps.3⟩, hstate, hat'⟩

/-- What is left of a segment is refused and skipped. -/
theorem discard_eq {b : ReceiveBuffer} {left w : Bytes} (hsize : 0 < b.sender.bufferSize)
    (hremain : b.dataRemain = left.length) (hat : b.At (left ++ w)) :
    ∃ b', b.discard = (.ok (), b') ∧ b.Keeps b' ∧ b'.state = b.state ∧ b'.At w := by
  rw [discard, refuse]
  split_ifs
  · rw [reply_eq hat.good]
    obtain ⟨b', hskip, hkeeps, hstate, hat'⟩ := skipData_eq hremain.ge hsize
      (b := { b with replies := b.replies ++ [.ofType .refuseBundle 0] }) hremain hat
    exact ⟨b', hskip, ⟨hkeeps.1, hkeeps.2, hkeeps.3⟩, hstate, hat'⟩
  · exact skipData_eq hremain.ge hsize hremain hat

/-! ### The loop over messages -/

/-- A data segment is skipped, or announced. -/
theorem receiveData_eq (b : ReceiveBuffer) (seg : StreamDataSegment) :
    ∃ recvSize, b.receiveData seg =
      (let b' := { b with
        recvSize
        rejecting := b.rejecting && !seg.isBegin
        dataRemain := seg.value.toNat }
      if b'.rejecting then b'.discard else (.ok (), { b' with state := .dataTransfer })) := by
  rw [receiveData]
  cases hbegin : seg.isBegin with
  | true => exact ⟨seg.value, by rw [Bool.not_true, Bool.and_false]; rfl⟩
  | false => exact ⟨b.recvSize + seg.value, by rw [Bool.not_false, Bool.and_true]; rfl⟩

theorem readSegments_of_dataTransfer {b : ReceiveBuffer} (h : b.state = .dataTransfer) (fuel : ℕ) :
    readSegments fuel b = (.ok (), b) := by
  have hne : ¬ b.state = .idle := by rw [h]; exact nofun
  cases fuel with
  | zero => rw [readSegments, if_neg hne]
  | succ fuel => rw [readSegments, if_neg hne]

/-- One turn of the loop on a message. -/
theorem readSegments_succ {b : ReceiveBuffer} {m : WireSegment} {w stale : Bytes} (fuel : ℕ)
    (hidle : b.state = .idle) (hstream : b.stream = ⟨m.head ++ w, false, false, stale⟩) :
    readSegments (fuel + 1) b =
      match receive { b with stream := ⟨w, false, false, stale⟩ } m.seg with
      | (.error e, b) => (.error e, b)
      | (.ok (), b) => readSegments fuel b := by
  have hgood : b.stream.good = true := by rw [hstream]; rfl
  rw [readSegments, if_pos hidle, if_pos hgood, hstream, m.reads_head w stale]

/-- The end of the stream takes two turns of the loop. -/
theorem readSegments_nil {b : ReceiveBuffer} (fuel : ℕ) (hidle : b.state = .idle)
    (hat : b.At []) : ∃ stream, stream.good = false ∧
      readSegments (fuel + 2) b = (.error (.streamError "stream went bad"), { b with stream }) := by
  obtain ⟨stale, hstream⟩ := hat
  refine ⟨⟨[], true, true, stale⟩, rfl, ?_⟩
  have hgood : b.stream.good = true := by rw [hstream]; rfl
  have hread : (StreamDataSegment.read (.ofType .keepalive 0)).run b.stream =
      (.ok ⟨0, .other 0, .idleTimeout, 0⟩, ⟨[], true, true, stale⟩) := by
    rw [hstream]
    rfl
  rw [readSegments, if_pos hidle, if_pos hgood, hread]
  dsimp only [receive]
  rw [readSegments, if_pos hidle, if_neg (by exact nofun)]

/-- An acknowledgement only changes the sending half. -/
theorem keeps_receiveAck (b : ReceiveBuffer) (seg : StreamDataSegment) :
    b.Keeps (b.receiveAck seg) ∧ (b.receiveAck seg).state = b.state ∧
      (b.receiveAck seg).stream = b.stream := by
  rw [receiveAck]
  split_ifs
  · split
    · exact ⟨⟨rfl, rfl, rfl⟩, rfl, rfl⟩
    · exact ⟨⟨rfl, rfl, rfl⟩, rfl, rfl⟩
  · exact ⟨⟨rfl, rfl, rfl⟩, rfl, rfl⟩

/-- A refusal only changes the sending half. -/
theorem keeps_receiveRefuse (b : ReceiveBuffer) :
    b.Keeps b.receiveRefuse ∧ b.receiveRefuse.state = b.state ∧
      b.receiveRefuse.stream = b.stream := by
  rw [receiveRefuse]
  split_ifs
  · split
    · exact ⟨⟨rfl, rfl, rfl⟩, rfl, rfl⟩
    · split
      · exact ⟨⟨rfl, rfl, rfl⟩, rfl, rfl⟩
      · exact ⟨⟨rfl, rfl, rfl⟩, rfl, rfl⟩
  · exact ⟨⟨rfl, rfl, rfl⟩, rfl, rfl⟩

/-- **What a message does**: the data of a segment that is not skipped is announced, and everything
else is gone behind it. -/
theorem receive_eq {b : ReceiveBuffer} {m : WireSegment} {w : Bytes}
    (hsize : 0 < b.sender.bufferSize) (hidle : b.state = .idle) (hat : b.At (m.payload ++ w)) :
    ∃ b', b.receive m.seg = (.ok (), b') ∧ b'.sender.bufferSize = b.sender.bufferSize ∧
      b'.buffer = b.buffer ∧ b'.rejecting = Reading.skipsBehind b.rejecting m ∧
      match Reading.accepted b.rejecting m with
      | some payload => b'.state = .dataTransfer ∧ b'.dataRemain = payload.length ∧
          b'.At (payload ++ w)
      | none => b'.state = .idle ∧ b'.At w := by
  cases m with
  | data flags length payload h =>
      obtain ⟨recvSize, hdata⟩ := b.receiveData_eq (WireSegment.data flags length payload h).seg
      have hreceive : b.receive (WireSegment.data flags length payload h).seg =
          b.receiveData (WireSegment.data flags length payload h).seg := rfl
      rw [hreceive, hdata, Reading.accepted, Reading.skipsBehind]
      generalize (b.rejecting && !(WireSegment.data flags length payload h).seg.isBegin) = skips
      cases skips with
      | true =>
          obtain ⟨b', hdiscard, hkeeps, hstate, hat'⟩ := @discard_eq
            { b with recvSize, rejecting := true, dataRemain := length.value.toNat } payload w
            hsize h.symm hat
          exact ⟨b', hdiscard, hkeeps.1, hkeeps.2, hkeeps.3, hstate.trans hidle, hat'⟩
      | false => exact ⟨_, rfl, rfl, rfl, rfl, rfl, h.symm, hat⟩
  | ack flags length =>
      obtain ⟨hkeeps, hstate, hstream⟩ := b.keeps_receiveAck (WireSegment.ack flags length).seg
      exact ⟨_, rfl, hkeeps.1, hkeeps.2, hkeeps.3, hstate.trans hidle, hat.of_stream hstream⟩
  | keepalive flags => exact ⟨b, rfl, rfl, rfl, rfl, hidle, hat⟩
  | refuse flags =>
      obtain ⟨hkeeps, hstate, hstream⟩ := b.keeps_receiveRefuse
      exact ⟨_, rfl, hkeeps.1, hkeeps.2, hkeeps.3, hstate.trans hidle, hat.of_stream hstream⟩

/-- What the loop finds: the next segment, or the end of the stream. -/
inductive Found (b : ReceiveBuffer) (r : Reading) :
    Except Failure Unit × ReceiveBuffer → Prop where
  | segment {b' : ReceiveBuffer} (hne : r.pending ≠ []) (hskipping : r.skipping = false)
      (hkept : b'.sender.bufferSize = b.sender.bufferSize ∧ b'.buffer = b.buffer)
      (hstate : b'.state = .dataTransfer) (hrejecting : b'.rejecting = false)
      (hremain : b'.dataRemain = r.pending.length)
      (hat : b'.At (r.pending ++ WireSegment.wire r.rest)) : Found b r (.ok (), b')
  | nothing {b' : ReceiveBuffer} {what : String} (hpending : r.pending = []) (hrest : r.rest = [])
      (hkept : b'.sender.bufferSize = b.sender.bufferSize ∧ b'.buffer = b.buffer)
      (hstate : b'.state = .idle) (hbad : b'.stream.good = false) :
      Found b r (.error (.streamError what), b')

/-- What the loop finds behind a message that the reader does not see. -/
theorem Found.of_kept {b b' : ReceiveBuffer} {r : Reading}
    {x : Except Failure Unit × ReceiveBuffer} (h : Found b' r x)
    (hsame : b'.sender.bufferSize = b.sender.bufferSize ∧ b'.buffer = b.buffer) : Found b r x := by
  cases h with
  | segment hne hskipping hkept hstate hrejecting hremain hat =>
      exact .segment hne hskipping ⟨hkept.1.trans hsame.1, hkept.2.trans hsame.2⟩ hstate
        hrejecting hremain hat
  | nothing hpending hrest hkept hstate hbad =>
      exact .nothing hpending hrest ⟨hkept.1.trans hsame.1, hkept.2.trans hsame.2⟩ hstate hbad

/-- **The loop finds the segment that is read next**, if no empty one comes before it. -/
theorem found_readSegments {fuel : ℕ} {b : ReceiveBuffer} {ms : List WireSegment}
    (hfuel : ms.length + 2 ≤ fuel) (hsize : 0 < b.sender.bufferSize) (hidle : b.state = .idle)
    (hat : b.At (WireSegment.wire ms)) (hfilled : Reading.Filled b.rejecting ms) :
    Found b (Reading.advance b.rejecting ms) (readSegments fuel b) := by
  induction ms generalizing fuel b with
  | nil =>
      obtain ⟨fuel, rfl⟩ : ∃ k, fuel = k + 2 := ⟨fuel - 2, (Nat.sub_add_cancel hfuel).symm⟩
      obtain ⟨stream, hbad, heq⟩ := readSegments_nil fuel hidle hat
      rw [heq]
      exact .nothing rfl rfl ⟨rfl, rfl⟩ hidle hbad
  | cons m ms ih =>
      obtain ⟨fuel, rfl⟩ : ∃ k, fuel = k + 1 := ⟨fuel - 1, by omega⟩
      rw [List.length_cons] at hfuel
      obtain ⟨stale, hstream⟩ := hat
      rw [WireSegment.wire_cons] at hstream
      obtain ⟨b', hreceive, hkept, harea, hrejecting, hcases⟩ := receive_eq
        (b := { b with stream := ⟨m.payload ++ WireSegment.wire ms, false, false, stale⟩ })
        (m := m) hsize hidle ⟨stale, rfl⟩
      rw [readSegments_succ fuel hidle hstream, hreceive, Reading.advance]
      rw [Reading.Filled, Reading.next] at hfilled
      dsimp only at hrejecting hcases
      rcases haccepted : Reading.accepted b.rejecting m with _ | _ | ⟨c, cs⟩ <;>
        rw [haccepted] at hcases hfilled
      · obtain ⟨hidle', hat'⟩ := hcases
        rw [← hrejecting] at hfilled ⊢
        exact (ih (by omega) (hkept ▸ hsize) hidle' hat' hfilled).of_kept ⟨hkept, harea⟩
      · exact absurd rfl hfilled
      · obtain ⟨hstate, hremain, hat'⟩ := hcases
        have hbehind := Reading.skipsBehind_of_accepted haccepted
        dsimp only
        rw [readSegments_of_dataTransfer hstate]
        exact .segment (List.cons_ne_nil c cs) hbehind ⟨hkept, harea⟩ hstate
          (hrejecting.trans hbehind) hremain hat'

/-! ### The get area -/

theorem area_eq_cons {b : ReceiveBuffer} (h : b.next < b.limit)
    (hlimit : b.limit ≤ b.inBuf.length) :
    b.area = (b.inBuf[b.next]?).getD 0 :: area { b with next := b.next + 1 } := by
  have hlt : b.next < (b.inBuf.take b.limit).length := by
    rw [List.length_take_of_le hlimit]
    exact h
  rw [area, List.drop_eq_getElem_cons hlt, List.getElem_take, List.getElem?_eq_getElem (by omega),
    Option.getD_some]
  rfl

theorem area_eq_nil {b : ReceiveBuffer} (h : ¬ b.next < b.limit) : b.area = [] := by
  rw [area, List.drop_eq_nil_iff, List.length_take]
  omega

/-- **The buffer follows a reading**: what is pending is in the get area and in front of the other
messages on the stream; what is left of a rejected segment is still to be skipped. At the end of the
stream there is nothing more. -/
inductive Follows (b : ReceiveBuffer) (r : Reading) : Prop where
  | live (left : Bytes) (hsize : 0 < b.sender.bufferSize) (hlimit : b.limit ≤ b.inBuf.length)
      (hat : b.At (left ++ WireSegment.wire r.rest)) (hskipping : r.skipping = b.rejecting)
      (hpending : r.pending = if b.rejecting then [] else b.area ++ left)
      (harea : b.rejecting = true → b.area = [])
      (hidle : b.state = .idle → left = [] ∧ b.area = [])
      (hremain : b.state = .dataTransfer → b.dataRemain = left.length)
  | ended (hlimit : b.limit ≤ b.inBuf.length) (hbad : b.stream.good = false)
      (hidle : b.state = .idle) (harea : b.area = []) (hpending : r.pending = [])
      (hrest : r.rest = [])

theorem Follows.limit_le {b : ReceiveBuffer} {r : Reading} (h : b.Follows r) :
    b.limit ≤ b.inBuf.length := by
  cases h <;> assumption

/-- What is not taken of the get area is pending. -/
theorem Follows.pending_eq {b : ReceiveBuffer} {r : Reading} (h : b.Follows r)
    (hne : b.area ≠ []) : ∃ left, r.pending = b.area ++ left := by
  cases h with
  | live left _ _ _ _ hpending harea _ _ =>
      refine ⟨left, ?_⟩
      rw [hpending, if_neg fun h => hne (harea h)]
  | ended _ _ _ harea _ _ => exact absurd harea hne

/-- The next piece of a segment is put into the get area. -/
theorem follows_fill {b : ReceiveBuffer} {pending : Bytes} {rest : List WireSegment}
    (hsize : 0 < b.sender.bufferSize) (hne : pending ≠ []) (hstate : b.state = .dataTransfer)
    (hrejecting : b.rejecting = false) (hremain : b.dataRemain = pending.length)
    (hat : b.At (pending ++ WireSegment.wire rest)) :
    ∃ c b', pending.head? = some c ∧ b.fill = (.ok c, b') ∧ b'.next < b'.limit ∧
      b'.Follows ⟨pending, false, rest⟩ := by
  have hpos := List.length_pos_iff.2 hne
  have hread : b.readSize ≤ pending.length ∧ 0 < b.readSize := by
    rw [readSize]
    split_ifs <;> omega
  obtain ⟨stale, hstream⟩ := hat
  have hlength : (pending.take b.readSize).length = b.readSize := List.length_take_of_le hread.1
  have hle : b.readSize ≤ (pending ++ WireSegment.wire rest).length := by
    rw [List.length_append]
    omega
  have hinto : readInto b.stream b.inBuf b.readSize =
      (pending.take b.readSize ++ b.inBuf.drop b.readSize,
        ⟨pending.drop b.readSize ++ WireSegment.wire rest, false, false, stale⟩) := by
    rw [hstream, readInto]
    dsimp only
    rw [if_pos hle, List.take_append_of_le_length hread.1, List.drop_append_of_le_length hread.1,
      hlength]
  have hgood : b.stream.good = true := by rw [hstream]; rfl
  obtain ⟨c, cs, rfl⟩ := List.exists_cons_of_ne_nil hne
  refine ⟨c, { b with
    stream := ⟨(c :: cs).drop b.readSize ++ WireSegment.wire rest, false, false, stale⟩
    inBuf := (c :: cs).take b.readSize ++ b.inBuf.drop b.readSize
    dataRemain := b.dataRemain - b.readSize
    next := 0
    limit := b.readSize }, rfl, ?_, hread.2, ?_⟩
  · obtain ⟨k, hk⟩ : ∃ k, b.readSize = k + 1 := ⟨b.readSize - 1, by omega⟩
    rw [fill, if_pos hgood, hinto, hk]
    rfl
  · refine .live ((c :: cs).drop b.readSize) hsize ?_ ⟨stale, rfl⟩ hrejecting.symm ?_ ?_ ?_ ?_
    · change b.readSize ≤ ((c :: cs).take b.readSize ++ b.inBuf.drop b.readSize).length
      rw [List.length_append, hlength]
      exact Nat.le_add_right _ _
    · have harea : (((c :: cs).take b.readSize ++ b.inBuf.drop b.readSize).take b.readSize).drop 0 =
          (c :: cs).take b.readSize := by
        rw [List.drop_zero, List.take_append_of_le_length hlength.ge, List.take_of_length_le
          hlength.le]
      change c :: cs = if b.rejecting = true then [] else
        (((c :: cs).take b.readSize ++ b.inBuf.drop b.readSize).take b.readSize).drop 0 ++
          (c :: cs).drop b.readSize
      rw [hrejecting, if_neg Bool.false_ne_true, harea, List.take_append_drop]
    · exact fun h => absurd (hrejecting.symm.trans h) Bool.false_ne_true
    · exact fun h => absurd (hstate.symm.trans h) nofun
    · intro
      rw [List.length_drop]
      exact congrArg (· - b.readSize) hremain

/-- **The segment in transfer is finished**, unless it has something left for the reader. -/
theorem finishSegment_cases {b : ReceiveBuffer} {left w : Bytes}
    (hsize : 0 < b.sender.bufferSize) (hat : b.At (left ++ w))
    (hidle : b.state = .idle → left = [])
    (hremain : b.state = .dataTransfer → b.dataRemain = left.length) :
    (b.state = .dataTransfer ∧ b.rejecting = false ∧ left ≠ [] ∧
      b.finishSegment = (.ok (), b)) ∨
    ((b.rejecting = false → left = []) ∧ ∃ b', b.finishSegment = (.ok (), b') ∧ b.Keeps b' ∧
      b'.state = .idle ∧ b'.At w) := by
  rw [finishSegment]
  cases hstate : b.state with
  | idle =>
      obtain rfl := hidle hstate
      exact Or.inr ⟨fun _ => rfl, b, rfl, ⟨rfl, rfl, rfl⟩, hstate, hat⟩
  | dataTransfer =>
      have hlength := hremain hstate
      dsimp only
      by_cases hrejecting : b.rejecting = true
      · obtain ⟨b', hdiscard, hkeeps, -, hat'⟩ := discard_eq hsize hlength hat
        rw [if_pos hrejecting, hdiscard]
        exact Or.inr ⟨fun h => absurd (h.symm.trans hrejecting) Bool.false_ne_true, _, rfl,
          ⟨hkeeps.1, hkeeps.2, hkeeps.3⟩, rfl, hat'⟩
      · rw [if_neg hrejecting]
        by_cases hnil : left = []
        · subst hnil
          rw [if_pos (show b.dataRemain = 0 from hlength)]
          split_ifs
          · rw [reply_eq hat.good]
            exact Or.inr ⟨fun _ => rfl, _, rfl, ⟨rfl, rfl, rfl⟩, rfl, hat⟩
          · exact Or.inr ⟨fun _ => rfl, _, rfl, ⟨rfl, rfl, rfl⟩, rfl, hat⟩
        · have hpos := List.length_pos_iff.2 hnil
          rw [if_neg (by omega)]
          exact Or.inl ⟨rfl, Bool.eq_false_iff.2 hrejecting, hnil, rfl⟩

/-- **An underflow yields the next byte**, or throws at the end of the stream. -/
theorem follows_underflow {b : ReceiveBuffer} {r : Reading} (h : b.Follows r) (harea : b.area = [])
    (hmeets : r.pending ≠ [] ∨ Reading.Filled r.skipping r.rest) :
    ∃ b', b.underflow = (Reading.outputOf r.settle.pending.head?, b') ∧ b'.Follows r.settle ∧
      (r.settle.pending ≠ [] → b'.next < b'.limit) := by
  rw [underflow]
  cases h with
  | live left hsize hlimit hat hskipping hpending _ hidle hremain =>
      rw [harea, List.nil_append] at hpending
      rcases finishSegment_cases hsize hat (fun h => (hidle h).1) hremain with
        ⟨hstate, hrejecting, hne, hfinish⟩ | ⟨hleft, b', hfinish, hkeeps, hidle', hat'⟩
      · rw [hrejecting, if_neg Bool.false_ne_true] at hpending
        have hsettle : r.settle = ⟨left, false, r.rest⟩ := by
          rw [Reading.settle, if_neg (by rw [hpending]; exact hne), ← hpending, ← hrejecting,
            ← hskipping]
        obtain ⟨c, b', hhead, hfill, hlt, hfollows⟩ := follows_fill hsize hne hstate hrejecting
          (hremain hstate) hat
        rw [hfinish]
        dsimp only
        rw [readSegments_of_dataTransfer hstate]
        dsimp only
        rw [hfill, hsettle]
        dsimp only
        rw [hhead]
        exact ⟨b', rfl, hfollows, fun _ => hlt⟩
      · have hnil : r.pending = [] := by
          rw [hpending]
          split_ifs with hrejecting
          · rfl
          · exact hleft (Bool.eq_false_iff.2 hrejecting)
        have hsettle : r.settle = Reading.advance b'.rejecting r.rest := by
          rw [Reading.settle, if_pos hnil, hkeeps.rejecting_eq, ← hskipping]
        have hfilled : Reading.Filled b'.rejecting r.rest := by
          rw [hkeeps.rejecting_eq, ← hskipping]
          exact hmeets.resolve_left fun h => h hnil
        have hfuel : r.rest.length + 2 ≤ b'.stream.rest.length + 2 := by
          obtain ⟨stale, hstream⟩ := hat'
          rw [hstream]
          exact Nat.add_le_add_right (WireSegment.length_le_wire r.rest) 2
        have hsize' : 0 < b'.sender.bufferSize := hkeeps.bufferSize_eq ▸ hsize
        have hfound := found_readSegments hfuel hsize' hidle' hat' hfilled
        rw [hfinish, hsettle]
        dsimp only
        generalize Reading.advance b'.rejecting r.rest = r' at hfound ⊢
        generalize readSegments (b'.stream.rest.length + 2) b' = found at hfound ⊢
        cases hfound with
        | @segment b'' hne hskipping' hkept hstate hrejecting hremain' hat'' =>
            obtain ⟨c, b₃, hhead, hfill, hlt, hfollows⟩ :=
              follows_fill (hkept.1 ▸ hsize') hne hstate hrejecting hremain' hat''
            dsimp only
            rw [hfill, hhead]
            rw [← hskipping'] at hfollows
            exact ⟨b₃, rfl, hfollows, fun _ => hlt⟩
        | @nothing b'' what hpending' hrest hkept hstate hbad =>
            have hbuffer := hkept.2.trans hkeeps.buffer_eq
            rw [hpending']
            refine ⟨_, rfl, .ended (@limit_le_of_buffer b b'' hbuffer hlimit) hbad hstate
              ((@area_eq_of_buffer b b'' hbuffer).trans harea) hpending' hrest,
              fun h => absurd rfl h⟩
  | ended hlimit hbad hidle _ hpending hrest =>
      have hsettle : r.settle = ⟨[], r.skipping, []⟩ := by
        rw [Reading.settle, if_pos hpending, hrest]
        rfl
      have hfinish : b.finishSegment = (.ok (), b) := by rw [finishSegment, hidle]
      have hread : readSegments (b.stream.rest.length + 2) b =
          (.error (.streamError "stream went bad"), b) := by
        rw [readSegments, if_pos hidle, if_neg (by rw [hbad]; exact Bool.false_ne_true)]
      rw [hfinish]
      dsimp only
      rw [hread, hsettle]
      exact ⟨_, rfl, .ended hlimit hbad hidle harea rfl rfl, fun h => absurd rfl h⟩

/-! ### One step -/

/-- What a reader gets for an action. -/
def step (b : ReceiveBuffer) : Reading.Action → Option Output × ReceiveBuffer
  | .sgetc => (some b.sgetc.1, b.sgetc.2)
  | .sbumpc => (some b.sbumpc.1, b.sbumpc.2)
  | .reject => (none, b.reject)

/-- The first byte of the get area is pending. -/
theorem Follows.pending_eq_cons {b : ReceiveBuffer} {r : Reading} (h : b.Follows r)
    (hlt : b.next < b.limit) : ∃ bs, r.pending = (b.inBuf[b.next]?).getD 0 :: bs := by
  have hcons := area_eq_cons hlt h.limit_le
  obtain ⟨left, hpending⟩ := h.pending_eq (by rw [hcons]; exact List.cons_ne_nil _ _)
  exact ⟨_, by rw [hpending, hcons]; rfl⟩

/-- A byte of the get area is taken. -/
theorem Follows.taken {b : ReceiveBuffer} {r : Reading} (h : b.Follows r) (hlt : b.next < b.limit) :
    Follows { b with next := b.next + 1 } { r with pending := r.pending.tail } := by
  have hcons := area_eq_cons hlt h.limit_le
  cases h with
  | live left hsize hlimit hat hskipping hpending harea hidle hremain =>
      have hrejecting : b.rejecting = false := by
        refine Bool.eq_false_iff.2 fun h => ?_
        rw [harea h] at hcons
        cases hcons
      refine .live left hsize hlimit hat hskipping ?_ (fun h => ?_) (fun h => ?_) hremain
      · rw [if_neg (by rw [hrejecting]; exact Bool.false_ne_true)] at hpending ⊢
        rw [hpending, hcons]
        rfl
      · exact absurd (hrejecting.symm.trans h) Bool.false_ne_true
      · rw [(hidle h).2] at hcons
        cases hcons
  | ended _ _ _ harea _ _ =>
      rw [harea] at hcons
      cases hcons

/-- A rejection clears the get area. -/
theorem Follows.reject {b : ReceiveBuffer} {r : Reading} (h : b.Follows r) :
    b.reject.Follows ⟨[], true, r.rest⟩ := by
  cases h with
  | live left hsize _ hat _ _ _ hidle hremain =>
      exact .live left hsize (Nat.zero_le _) hat rfl rfl (fun _ => rfl)
        (fun h => ⟨(hidle h).1, rfl⟩) hremain
  | ended _ hbad hidle _ _ hrest => exact .ended (Nat.zero_le _) hbad hidle rfl rfl hrest

/-- **A buffer follows the reading** as long as no empty segment is next. -/
theorem simulates_step {b : ReceiveBuffer} {r : Reading} {a : Reading.Action} (h : b.Follows r)
    (hmeets : r.Meets a) :
    (b.step a).1 = (r.step a).1 ∧ (b.step a).2.Follows (r.step a).2 := by
  by_cases hreject : a = .reject
  · subst hreject
    exact ⟨rfl, h.reject⟩
  have hnext := hmeets.resolve_left hreject
  by_cases hlt : b.next < b.limit
  · obtain ⟨bs, hpending⟩ := h.pending_eq_cons hlt
    have hsettle : r.settle = r := by
      rw [Reading.settle, if_neg (by rw [hpending]; exact List.cons_ne_nil _ _)]
    cases a with
    | sgetc =>
        rw [step, sgetc, if_pos hlt, Reading.step, hsettle, hpending]
        exact ⟨rfl, h⟩
    | sbumpc =>
        have htaken := h.taken hlt
        rw [step, sbumpc, if_pos hlt, Reading.step, hsettle]
        refine ⟨?_, htaken⟩
        rw [hpending]
        rfl
    | reject => exact absurd rfl hreject
  · obtain ⟨b', hunderflow, hfollows, hlt'⟩ := follows_underflow h (area_eq_nil hlt) hnext
    cases a with
    | sgetc =>
        rw [step, sgetc, if_neg hlt, Reading.step, hunderflow]
        exact ⟨rfl, hfollows⟩
    | sbumpc =>
        rw [step, sbumpc, if_neg hlt, Reading.step, hunderflow]
        by_cases hne : r.settle.pending = []
        · have hsame : ({ r.settle with pending := r.settle.pending.tail } : Reading) =
              r.settle := by
            rw [hne]
            exact congrArg (Reading.mk · _ _) hne.symm
          rw [hsame, hne]
          exact ⟨rfl, hfollows⟩
        · obtain ⟨bs, hpending⟩ := hfollows.pending_eq_cons (hlt' hne)
          have htaken := hfollows.taken (hlt' hne)
          rw [hpending] at htaken ⊢
          exact ⟨rfl, htaken⟩
    | reject => exact absurd rfl hreject

/-- A buffer that was made for a stream follows the reading of its messages. -/
theorem follows_create {sender : StreamBuffer} (hsize : 0 < sender.bufferSize) (inBuf : Bytes)
    (ms : List WireSegment) :
    (create sender inBuf (WireSegment.wire ms)).Follows ⟨[], false, ms⟩ :=
  .live [] hsize (Nat.zero_le _) ⟨[], rfl⟩ rfl rfl (fun h => absurd h Bool.false_ne_true)
    (fun _ => ⟨rfl, rfl⟩) nofun

/-! ### Runs -/

/-- The outputs of a run. -/
def outputs (b : ReceiveBuffer) : List Reading.Action → List (Option Output)
  | [] => []
  | a :: as => (b.step a).1 :: outputs (b.step a).2 as

/-- The buffer behind a run. -/
def after (b : ReceiveBuffer) (as : List Reading.Action) : ReceiveBuffer :=
  as.foldl (fun b a => (b.step a).2) b

/-- The byte that an action takes out of the buffer. -/
def takenByte : Reading.Action → Option Output → Option UInt8
  | .sbumpc, some (.byte c) => some c
  | _, _ => none

/-- The bytes that a reader obtains in a run. -/
def obtained (b : ReceiveBuffer) : List Reading.Action → Bytes
  | [] => []
  | a :: as => (takenByte a (b.step a).1).toList ++ obtained (b.step a).2 as

end ReceiveBuffer

namespace Reading

/-- What is still to get behind a run. -/
def after (r : Reading) (as : List Action) : Reading := as.foldl (fun r a => (r.step a).2) r

/-- The outputs for a run. -/
def outputs (r : Reading) : List Action → List (Option ReceiveBuffer.Output)
  | [] => []
  | a :: as => (r.step a).1 :: outputs (r.step a).2 as

/-- No action of a run comes to an empty segment. -/
def Admissible (r : Reading) : List Action → Prop
  | [] => True
  | a :: as => r.Meets a ∧ Admissible (r.step a).2 as

instance decidableAdmissible : (r : Reading) → (as : List Action) → Decidable (r.Admissible as)
  | _, [] => isTrue trivial
  | r, a :: as =>
      have := decidableAdmissible (r.step a).2 as
      inferInstanceAs (Decidable (r.Meets a ∧ Admissible (r.step a).2 as))

theorem admissible_append {r : Reading} {as as' : List Action} (h : r.Admissible (as ++ as')) :
    r.Admissible as ∧ (r.after as).Admissible as' := by
  induction as generalizing r with
  | nil => exact ⟨trivial, h⟩
  | cons a as ih => exact ⟨⟨h.1, (ih h.2).1⟩, (ih h.2).2⟩

/-- A reader that has nothing in front of it has nothing more to get. -/
theorem available_of_settle_pending {r : Reading} (h : r.settle.pending = []) :
    r.available = [] := by
  rw [settle] at h
  split_ifs at h with hnil
  · rw [available, hnil, List.nil_append, ← available_advance]
    rcases advance_cases r.skipping r.rest with hne | ⟨skipping, heq⟩
    · exact absurd h hne
    · rw [heq]
      rfl
  · exact absurd h hnil

/-- A byte that is taken is the first one of all that can be got. -/
theorem available_sbumpc (r : Reading) :
    (ReceiveBuffer.takenByte .sbumpc (r.step .sbumpc).1).toList = r.available.take 1 ∧
      (r.step .sbumpc).2.available = r.available.drop 1 := by
  rw [step]
  cases hpending : r.settle.pending with
  | nil =>
      have hnil := available_of_settle_pending hpending
      have hsettle := r.available_settle
      rw [available, hpending, hnil] at hsettle
      rw [hnil]
      exact ⟨rfl, hsettle⟩
  | cons c cs =>
      have hsettle := r.available_settle
      rw [available, hpending] at hsettle
      rw [← hsettle]
      exact ⟨rfl, rfl⟩

/-- A reading answers with a byte, or throws. -/
theorem diverges_notMem_outputs (r : Reading) (as : List Action) :
    some .diverges ∉ r.outputs as := by
  induction as generalizing r with
  | nil => exact List.not_mem_nil
  | cons a as ih =>
      rw [outputs, List.mem_cons, not_or]
      refine ⟨?_, ih _⟩
      cases a with
      | sgetc | sbumpc =>
          rw [step]
          cases r.settle.pending.head? <;> exact nofun
      | reject => exact nofun

end Reading

namespace ReceiveBuffer

/-- **A buffer follows the reading** in a run that comes to no empty segment. -/
theorem outputs_eq {b : ReceiveBuffer} {r : Reading} {as : List Reading.Action} (h : b.Follows r)
    (hadmissible : r.Admissible as) :
    b.outputs as = r.outputs as ∧ (b.after as).Follows (r.after as) := by
  induction as generalizing b r with
  | nil => exact ⟨rfl, h⟩
  | cons a as ih =>
      obtain ⟨houtput, hfollows⟩ := simulates_step h hadmissible.1
      obtain ⟨houtputs, hafter⟩ := ih hfollows hadmissible.2
      refine ⟨?_, hafter⟩
      rw [outputs, houtput, houtputs]
      rfl

/-- Without a rejection, a reader takes what can be got, in order. -/
theorem obtained_of_follows {b : ReceiveBuffer} {r : Reading} {as : List Reading.Action}
    (h : b.Follows r) (hadmissible : r.Admissible as) (hreject : .reject ∉ as) :
    b.obtained as = r.available.take (as.count .sbumpc) := by
  induction as generalizing b r with
  | nil => rfl
  | cons a as ih =>
      obtain ⟨houtput, hfollows⟩ := simulates_step h hadmissible.1
      have hrest := ih hfollows hadmissible.2 (List.not_mem_of_not_mem_cons hreject)
      rw [obtained, houtput, hrest]
      cases a with
      | sgetc =>
          rw [List.count_cons_of_ne (by exact nofun), Reading.step, Reading.available_settle]
          rfl
      | sbumpc =>
          obtain ⟨htaken, hbehind⟩ := r.available_sbumpc
          rw [htaken, hbehind, List.count_cons_self, ← List.take_add, Nat.add_comm]
      | reject => exact absurd List.mem_cons_self hreject

/-- **What a reader obtains** in any run that comes to no empty segment, for every sequence of
messages: between two rejections, the bytes are those of the segments that are not skipped, from the
place that the run before has come to. -/
theorem obtained_eq {sender : StreamBuffer} (hsize : 0 < sender.bufferSize) (inBuf : Bytes)
    {ms : List WireSegment} {before reads : List Reading.Action}
    (hadmissible : (Reading.mk [] false ms).Admissible (before ++ reads))
    (hreject : .reject ∉ reads) :
    some .diverges ∉ (create sender inBuf (WireSegment.wire ms)).outputs (before ++ reads) ∧
      ((create sender inBuf (WireSegment.wire ms)).after before).obtained reads =
        ((Reading.mk [] false ms).after before).available.take (reads.count .sbumpc) := by
  have hcreate := follows_create hsize inBuf ms
  obtain ⟨hbefore, hreads⟩ := Reading.admissible_append hadmissible
  obtain ⟨-, hafter⟩ := outputs_eq hcreate hbefore
  refine ⟨?_, obtained_of_follows hafter hreads hreject⟩
  rw [(outputs_eq hcreate hadmissible).1]
  exact Reading.diverges_notMem_outputs _ _

/-- Two bundles with an acknowledgement between the segments of the first one. -/
def sampleMessages : List WireSegment :=
  [.keepalive 0, .data 2 (.shortest 3) [1, 2, 3] rfl, .ack 0 (.shortest 3),
    .data 1 (.shortest 1) [4] rfl, .refuse 0, .data 3 (.shortest 2) [5, 6] rfl]

theorem obtained_eq_sample :
    some .diverges ∉ (create (.create 2 true true) [0, 0] (WireSegment.wire sampleMessages)).outputs
        ([.sbumpc, .sgetc, .sbumpc, .reject] ++ [.sbumpc, .sgetc, .sbumpc]) ∧
      ((create (.create 2 true true) [0, 0] (WireSegment.wire sampleMessages)).after
        [.sbumpc, .sgetc, .sbumpc, .reject]).obtained [.sbumpc, .sgetc, .sbumpc] = [5, 6] :=
  @obtained_eq (.create 2 true true) (by decide) [0, 0] sampleMessages
    [.sbumpc, .sgetc, .sbumpc, .reject] [.sbumpc, .sgetc, .sbumpc] (by decide) (by decide)

/-- A byte of the buffer is taken behind the head of an empty segment: none was sent. -/
theorem obtained_empty_sample :
    (create (.create 2 true true) [0, 0]
        (WireSegment.wire [.data 3 (.shortest 0) [] rfl])).obtained [.sbumpc] = [0] ∧
      (Reading.mk [] false [.data 3 (.shortest 0) [] rfl]).available = [] := by
  decide

end ReceiveBuffer

end IbrDtn
