import IbrDtn.Library.Transition
import IbrDtn.Streams.ReceiveBuffer

/-!
# Two stream buffers on a connection

This file models two peers that send bundles to each other with `ibrdtn/streams/StreamBuffer.cpp`.
On either side one thread writes segments (`overflow`), while the thread of the reader takes
messages from the connection (`underflow`), answers data segments and handles the answers of the
peer.  What a thread does between two accesses to what both use is one step: the queue of segments,
the state bit `STREAM_SKIP` and the connection.

## Main definitions

* `StreamPeer` : the two halves of a peer and the messages on their way from it.
* `StreamLink.step` : the steps of two peers.
* `StreamLink.Apart` : the condition on the steps, that no refusal is handled while a segment is
  between the test of `STREAM_SKIP` and the queue.

## Main results

* `StreamPeer.Outgoing.overflow_eq` : without a step of the reader in between, a segment is sent as
  `StreamBuffer.overflow` does it.
* `StreamPeer.Outgoing.takeRefusal_eq`, `StreamPeer.Outgoing.takeAck_buffer` : an answer is handled
  as `ReceiveBuffer` does it.
-/

namespace IbrDtn

namespace StreamBuffer

/-- The part of `overflow` that puts a segment into the queue. -/
def push (b : StreamBuffer) (seg : StreamDataSegment) : StreamBuffer :=
  if b.ackSupport then { b with segments := b.segments ++ [seg] }
  else if seg.isEnd then { b with events := b.events ++ [.forwarded] }
  else b

theorem transmit_eq_push (b : StreamBuffer) (seg : StreamDataSegment) (data : Bytes) :
    b.transmit seg data = { b.push seg with sent := (b.push seg).sent ++ [(seg, data)] } := rfl

end StreamBuffer

namespace StreamPeer

/-! ### The sending half -/

/-- Where the thread that writes bundles is: outside of `overflow`, behind the marks of a segment,
behind the test of `STREAM_SKIP`, or behind the queue. -/
inductive SendState where
  | idle
  | marked (seg : StreamDataSegment) (data : Bytes)
  | decided (seg : StreamDataSegment) (data : Bytes)
  | queued (seg : StreamDataSegment) (data : Bytes)
deriving DecidableEq, Repr

/-- The segment that `overflow` is about. -/
def SendState.segment : SendState → Option StreamDataSegment
  | .idle => none
  | .marked seg _ | .decided seg _ | .queued seg _ => some seg

/-- The segment on its way to the queue. -/
def SendState.pending : SendState → Option StreamDataSegment
  | .idle | .queued _ _ => none
  | .marked seg _ | .decided seg _ => some seg

/-- Where the thread of the reader is in the case `MSG_REFUSE_BUNDLE`: behind the event, or behind
the test whether the queue is empty. -/
inductive RefusalState where
  | idle
  | refused
  | checked (empty : Bool)
deriving DecidableEq, Repr

/-- The sending half of a peer: its members, the places of both threads, all segments that
`overflow` made, and the segments that left the queues with their answers. -/
structure Outgoing where
  buffer : StreamBuffer
  sending : SendState
  refusal : RefusalState
  marked : List StreamDataSegment
  concluded : List (StreamDataSegment × StreamDataSegment)

namespace Outgoing

/-- The first part of `overflow`, which marks a segment with some data. -/
def mark (o : Outgoing) (data : Bytes) (isEnd : Bool) : Option Outgoing :=
  if o.sending = .idle ∧ data ≠ [] then
    let (seg, buffer) := o.buffer.mark data.length isEnd
    some { o with buffer, sending := .marked seg data, marked := o.marked ++ [seg] }
  else none

/-- `if (!get(STREAM_SKIP))`. -/
def decide (o : Outgoing) : Option Outgoing :=
  match o.sending with
  | .marked seg data =>
      some { o with sending := if o.buffer.skip then .idle else .decided seg data }
  | _ => none

/-- `_segments.push(seg)`. -/
def push (o : Outgoing) : Option Outgoing :=
  match o.sending with
  | .decided seg data => some { o with buffer := o.buffer.push seg, sending := .queued seg data }
  | _ => none

/-- `_stream << seg`, with the data. -/
def write (o : Outgoing) : Option (Outgoing × (StreamDataSegment × Bytes)) :=
  match o.sending with
  | .queued seg data =>
      some ({ o with
        buffer := { o.buffer with sent := o.buffer.sent ++ [(seg, data)] }
        sending := .idle }, (seg, data))
  | _ => none

/-- The case `MSG_ACK_SEGMENT` of `underflow`. -/
def takeAck (o : Outgoing) (seg : StreamDataSegment) : Outgoing :=
  if o.buffer.ackSupport then
    match o.buffer.segments with
    | [] => o
    | qs :: segments =>
        let events := if qs.isEnd then o.buffer.events ++ [.forwarded] else o.buffer.events
        { o with
          buffer := { o.buffer with segments, events }
          concluded := o.concluded ++ [(qs, seg)] }
  else o

/-- The case `MSG_REFUSE_BUNDLE` of `underflow`, up to the event. -/
def takeRefusal (o : Outgoing) (seg : StreamDataSegment) : Outgoing :=
  if o.buffer.ackSupport && o.buffer.nackSupport then
    match o.buffer.rejectedSegments with
    | qs :: rejectedSegments =>
        { o with
          buffer := { o.buffer with rejectedSegments }
          concluded := o.concluded ++ [(qs, seg)] }
    | [] =>
        match o.buffer.segments with
        | [] => o
        | qs :: rest =>
            { o with
              buffer := { o.buffer with
                rejectedSegments := rest.takeWhile fun seg => !seg.isBegin
                segments := rest.dropWhile fun seg => !seg.isBegin
                events := o.buffer.events ++ [.refused] }
              refusal := .refused
              concluded := o.concluded ++ [(qs, seg)] }
  else o

/-- `if (_segments.empty())`. -/
def check (o : Outgoing) : Option Outgoing :=
  match o.refusal with
  | .refused => some { o with refusal := .checked o.buffer.segments.isEmpty }
  | _ => none

/-- `set(STREAM_SKIP)`, if the queue was empty. -/
def setSkip (o : Outgoing) : Option Outgoing :=
  match o.refusal with
  | .checked empty =>
      some { o with buffer := { o.buffer with skip := empty || o.buffer.skip }, refusal := .idle }
  | _ => none

end Outgoing

/-! ### The receiving half -/

/-- The receiving half of a peer: `STREAM_REJECT`, the segment that is read with what is left of it,
`_recv_size`, the segments that were answered with their answers, and all segments that it is done
with, each with whether the reader had rejected its bundle by then. -/
structure Incoming where
  rejecting : Bool
  transfer : Option (StreamDataSegment × ℕ)
  recvSize : UInt64
  answered : List (StreamDataSegment × StreamDataSegment)
  handled : List (StreamDataSegment × Bool)

namespace Incoming

/-- The half is done with a segment: an answer goes to the connection, if its kind is supported. -/
def answer (i : Incoming) (supported : Bool) (seg reply : StreamDataSegment) :
    Incoming × List (StreamDataSegment × Bytes) :=
  let i := { i with handled := i.handled ++ [(seg, i.rejecting)] }
  if supported then ({ i with answered := i.answered ++ [(seg, reply)] }, [(reply, [])])
  else (i, [])

/-- The case `MSG_DATA_SEGMENT` of `underflow`. -/
def receive (i : Incoming) (nackSupport : Bool) (seg : StreamDataSegment) :
    Incoming × List (StreamDataSegment × Bytes) :=
  let i := if seg.isBegin then { i with recvSize := seg.value, rejecting := false }
    else { i with recvSize := i.recvSize + seg.value }
  if i.rejecting then i.answer nackSupport seg (.ofType .refuseBundle 0)
  else ({ i with transfer := some (seg, seg.value.toNat) }, [])

/-- The last part of `underflow`, which hands over a piece of the segment. -/
def read (i : Incoming) (n : ℕ) : Option Incoming :=
  match i.transfer with
  | some (seg, remain) =>
      if i.rejecting = false ∧ 0 < n ∧ n ≤ remain then
        some { i with transfer := some (seg, remain - n) }
      else none
  | none => none

/-- The first part of `underflow`: the segment is over, or it is refused. -/
def finish (i : Incoming) (ackSupport nackSupport : Bool) :
    Option (Incoming × List (StreamDataSegment × Bytes)) :=
  match i.transfer with
  | some (seg, remain) =>
      if i.rejecting then
        some (answer { i with transfer := none } nackSupport seg (.ofType .refuseBundle 0))
      else if remain = 0 then
        some (answer { i with transfer := none } ackSupport seg (.ofType .ackSegment i.recvSize))
      else none
  | none => none

/-- `StreamBuffer::reject`. -/
def reject (i : Incoming) : Incoming := { i with rejecting := true }

end Incoming

end StreamPeer

/-! ### Peers -/

/-- A peer: both halves of its stream buffer, and the messages on their way from it. -/
structure StreamPeer where
  outgoing : StreamPeer.Outgoing
  incoming : StreamPeer.Incoming
  channel : List (StreamDataSegment × Bytes)

namespace StreamPeer

/-- The steps of the threads. -/
inductive Action where
  | mark (data : Bytes) (isEnd : Bool)
  | decide
  | push
  | write
  | receive
  | check
  | setSkip
  | read (n : ℕ)
  | finish
  | reject
deriving DecidableEq, Repr

/-- `REQUEST_ACKNOWLEDGMENTS` and `REQUEST_NEGATIVE_ACKNOWLEDGMENTS`. -/
def requestAck : UInt8 := 0x01
def requestNack : UInt8 := 0x04

/-- What the flags of a contact header request. -/
def asksAck (flags : UInt8) : Bool := flags &&& requestAck != 0
def asksNack (flags : UInt8) : Bool := flags &&& requestNack != 0

/-- A peer behind `StreamBuffer::handshake`, with the flags of the contact header that it read. -/
def create (bufferSize : ℕ) (flags : UInt8) : StreamPeer where
  outgoing := ⟨.create bufferSize (asksAck flags) (asksNack flags), .idle, .idle, [], []⟩
  incoming := ⟨false, none, 0, [], []⟩
  channel := []

/-- The receiving half has changed, and some answers were sent. -/
def withIncoming (p : StreamPeer) (x : Incoming × List (StreamDataSegment × Bytes)) : StreamPeer :=
  { p with incoming := x.1, channel := p.channel ++ x.2 }

/-- A message is taken from the connection, when no segment is in transfer. -/
def receive (p : StreamPeer) (m : StreamDataSegment × Bytes) : Option StreamPeer :=
  if p.incoming.transfer = none ∧ p.outgoing.refusal = .idle then
    match m.1.type with
    | .dataSegment => some (p.withIncoming (p.incoming.receive p.outgoing.buffer.nackSupport m.1))
    | .ackSegment => some { p with outgoing := p.outgoing.takeAck m.1 }
    | .refuseBundle => some { p with outgoing := p.outgoing.takeRefusal m.1 }
    | _ => some p
  else none

/-- The steps that take nothing from the connection. -/
def step (p : StreamPeer) : Action → Option StreamPeer
  | .mark data isEnd => (p.outgoing.mark data isEnd).map fun outgoing => { p with outgoing }
  | .decide => p.outgoing.decide.map fun outgoing => { p with outgoing }
  | .push => p.outgoing.push.map fun outgoing => { p with outgoing }
  | .write => p.outgoing.write.map fun x =>
      { p with outgoing := x.1, channel := p.channel ++ [x.2] }
  | .receive => none
  | .check => p.outgoing.check.map fun outgoing => { p with outgoing }
  | .setSkip => p.outgoing.setSkip.map fun outgoing => { p with outgoing }
  | .read n => (p.incoming.read n).map fun incoming => { p with incoming }
  | .finish => (p.incoming.finish p.outgoing.buffer.ackSupport p.outgoing.buffer.nackSupport).map
      p.withIncoming
  | .reject =>
      if p.outgoing.refusal = .idle then some { p with incoming := p.incoming.reject } else none

end StreamPeer

/-- Two peers. What is on its way from one of them comes to the other one. -/
abbrev StreamLink := Bool → StreamPeer

namespace StreamLink

open StreamPeer

/-- Two peers behind their handshakes, with the flags that each of them requests. -/
def create (bufferSize : Bool → ℕ) (requests : Bool → UInt8) : StreamLink :=
  fun i => StreamPeer.create (bufferSize i) (requests !i)

/-- A step of one of the peers. -/
def step (s : StreamLink) : Bool × Action → Option StreamLink
  | (i, .receive) =>
      match (s !i).channel with
      | [] => none
      | m :: channel =>
          ((s i).receive m).map fun p =>
            Function.update (Function.update s (!i) { s !i with channel }) i p
  | (i, a) => ((s i).step a).map (Function.update s i)

/-- **The condition on the steps.** A refusal that leaves the queue empty is not handled while
`overflow` puts a further segment of the bundle into the queue; `STREAM_SKIP` is not tested for such
a segment between that and the moment when it is set; and it is not set when another bundle has
begun, unless that has already ended. -/
def Apart (s : StreamLink) : Bool × Action → Prop
  | (i, .receive) =>
      ∀ m ∈ (s !i).channel.head?, m.1.type = .refuseBundle →
        (s i).outgoing.buffer.rejectedSegments = [] →
        (∀ seg ∈ (s i).outgoing.buffer.segments.tail, seg.isBegin = false) →
        ∀ seg data, (s i).outgoing.sending = .decided seg data → seg.isBegin = true
  | (i, .decide) =>
      ∀ seg data, (s i).outgoing.sending = .marked seg data →
        seg.isBegin = true ∨ (s i).outgoing.buffer.skip = true ∨ (s i).outgoing.refusal = .idle ∨
          (s i).outgoing.buffer.segments ≠ []
  | (i, .setSkip) =>
      (s i).outgoing.refusal = .checked true →
        ((s i).outgoing.buffer.segments = [] ∧
          ∀ seg ∈ (s i).outgoing.sending.pending, seg.isBegin = false) ∨
        ((s i).outgoing.buffer.sob = true ∧
          ∀ seg data, (s i).outgoing.sending ≠ .marked seg data)
  | _ => True

end StreamLink

section Decidable

variable (P : StreamDataSegment → Prop) [DecidablePred P]

instance decidableMarked (st : StreamPeer.SendState) :
    Decidable (∀ seg data, st = .marked seg data → P seg) :=
  match st with
  | .marked seg data => decidable_of_iff (P seg)
      ⟨fun h _ _ heq => (StreamPeer.SendState.marked.inj heq).1 ▸ h, fun h => h seg data rfl⟩
  | .idle | .decided _ _ | .queued _ _ => isTrue nofun

instance decidableDecided (st : StreamPeer.SendState) :
    Decidable (∀ seg data, st = .decided seg data → P seg) :=
  match st with
  | .decided seg data => decidable_of_iff (P seg)
      ⟨fun h _ _ heq => (StreamPeer.SendState.decided.inj heq).1 ▸ h, fun h => h seg data rfl⟩
  | .idle | .marked _ _ | .queued _ _ => isTrue nofun

instance decidableNotMarked (st : StreamPeer.SendState) :
    Decidable (∀ seg data, st ≠ .marked seg data) :=
  decidableMarked (fun _ => False) st

end Decidable

instance StreamLink.decidableApart (s : StreamLink) (x : Bool × StreamPeer.Action) :
    Decidable (s.Apart x) :=
  match x with
  | (_, .receive) => inferInstanceAs (Decidable (∀ m ∈ _, _ → _ → _ → _))
  | (_, .decide) => inferInstanceAs (Decidable (∀ _ _, _ → _))
  | (_, .setSkip) => inferInstanceAs (Decidable (_ → _ ∨ _))
  | (_, .mark _ _) | (_, .push) | (_, .write) | (_, .check) | (_, .read _) | (_, .finish)
  | (_, .reject) => isTrue trivial

/-! ### The steps of one call -/

namespace StreamPeer.Outgoing

/-- A whole call of `overflow`. -/
def overflow (o : Outgoing) (data : Bytes) (isEnd : Bool) : Option Outgoing := do
  let o ← (← o.mark data isEnd).decide
  if o.sending = .idle then some o
  else (← o.push).write.map Prod.fst

/-- **Without a step of the reader in between, a segment is sent as a whole.** -/
theorem overflow_eq {o : Outgoing} (hidle : o.sending = .idle) (hout : o.buffer.out = [])
    {out : Bytes} {c : Option UInt8} (hne : out ++ c.toList ≠ []) :
    (o.overflow (out ++ c.toList) c.isNone).map Outgoing.buffer =
      some (StreamBuffer.overflow { o.buffer with out } c) := by
  have hlength : ¬ (out ++ c.toList).length = 0 := by
    rw [List.length_eq_zero_iff]
    exact hne
  have hbuffer : ({ o.buffer with out := [] } : StreamBuffer) = o.buffer := by rw [← hout]
  rw [StreamBuffer.overflow, if_neg hlength, overflow, mark, if_pos ⟨hidle, hne⟩]
  simp only [hbuffer, StreamBuffer.mark_eq]
  cases hskip : o.buffer.skip && !o.buffer.sob with
  | true => simp [decide]
  | false => simp [decide, push, write, StreamBuffer.transmit_eq_push]

/-- The end of the case `MSG_REFUSE_BUNDLE`. -/
def finishRefusal (o : Outgoing) : Outgoing := ((o.check >>= setSkip).getD o)

/-- **Without a step of the writer in between, a refusal is handled as a whole.** -/
theorem takeRefusal_eq {o : Outgoing} {b : ReceiveBuffer} (hidle : o.refusal = .idle)
    (hbuffer : o.buffer = b.sender) (seg : StreamDataSegment) :
    (o.takeRefusal seg).finishRefusal.buffer = b.receiveRefuse.sender := by
  have hnone (o : Outgoing) (hidle : o.refusal = .idle) : o.finishRefusal = o := by
    rw [finishRefusal, check, hidle]
    rfl
  rw [takeRefusal, ReceiveBuffer.receiveRefuse, ← hbuffer]
  split_ifs
  · cases o.buffer.rejectedSegments with
    | cons qs rest =>
        exact congrArg Outgoing.buffer (hnone { o with
          buffer := { o.buffer with rejectedSegments := rest }
          concluded := o.concluded ++ [(qs, seg)] } hidle)
    | nil =>
        cases o.buffer.segments with
        | nil => exact (congrArg Outgoing.buffer (hnone o hidle)).trans hbuffer
        | cons qs rest =>
            cases hrest : rest.dropWhile fun seg => !seg.isBegin with
            | nil => simp [finishRefusal, check, setSkip, hrest]
            | cons seg segs => simp [finishRefusal, check, setSkip, hrest]
  · exact (congrArg Outgoing.buffer (hnone o hidle)).trans hbuffer

/-- An acknowledgement is handled as a whole. -/
theorem takeAck_buffer {o : Outgoing} {b : ReceiveBuffer} (hbuffer : o.buffer = b.sender)
    (seg : StreamDataSegment) : (o.takeAck seg).buffer = (b.receiveAck seg).sender := by
  rw [takeAck, ReceiveBuffer.receiveAck, ← hbuffer]
  split_ifs
  · cases o.buffer.segments with
    | nil => exact hbuffer
    | cons qs rest => rfl
  · exact hbuffer

end StreamPeer.Outgoing

end IbrDtn
