import IbrDtn.Net.DatagramService
import IbrDtn.Net.DatagramStream
import IbrDtn.Net.DiscoveryAnnouncement

/-!
# The receive loop of the datagram convergence layer

This file models the loop `componentRun` of `daemon/src/net/DatagramConvergenceLayer.cpp` with
`queue` and `ack` of `DatagramConnection.cpp`.  The loop takes one datagram after the other from the
service.  Announcements become events; segments and acknowledgements go to the connection of the
address that the service found, which is made if there is none.

An exception of the announcements is caught nowhere in the loop.  A segment that finds the buffer of
its connection full makes the loop wait for the thread of the connection, which may be gone.

## Main definitions

* `DatagramConnection`, `DatagramConvergenceLayer` : the parts that the loop works on.
* `DatagramConvergenceLayer.handle` : the loop with one datagram.
* `DatagramMessage` : what a datagram says, by the formats of the services.
* `DatagramConvergenceLayer.Withstands` : what hostile datagrams must not break.

## Main results

* `DatagramConvergenceLayer.wellFormed_handle` : the loop keeps its invariant.
* `DatagramConvergenceLayer.withstands_iff` : which datagrams the loop withstands.
-/

namespace IbrDtn

/-! ### Connections -/

/-- `class DatagramConnection`: the parts that the receive loop works on. The last one tells whether
the thread of the connection is going to take what is in the buffer of the stream. -/
structure DatagramConnection where
  identifier : Bytes
  stream : DatagramStream
  lastAck : UInt64
  waitAck : UInt64
  reading : Bool
deriving DecidableEq, Repr

namespace DatagramConnection

/-- `DatagramConnection::DatagramConnection`, and its thread is started. -/
def create (identifier : Bytes) (maxMsgLength maxSeqNumbers : ℕ) : DatagramConnection :=
  ⟨identifier, DatagramStream.create maxMsgLength maxSeqNumbers, -1, -1, true⟩

/-- `DatagramConnection::ack`. -/
def ack (c : DatagramConnection) (seqno : UInt32) : DatagramConnection :=
  if c.waitAck = seqno.toUInt64 then { c with lastAck := seqno.toUInt64 } else c

/-- How a call of `DatagramConnection::queue` ends: it returns, an exception comes out of it, or it
waits for a buffer that no thread empties. -/
inductive QueueOutcome where
  | returns
  | throws (what : String)
  | waits
deriving DecidableEq, Repr

/-- `DatagramConnection::queue` of a segment, up to the acknowledgement. -/
def queue (c : DatagramConnection) (d : Datagram) : QueueOutcome × DatagramConnection :=
  match c.stream.queue d with
  | (.thrown what, s) => (.throws what, { c with stream := s })
  | (.dropped, s) => (.returns, { c with stream := s })
  | (.accepted, s) =>
      if s.queueBuf = [] then (.returns, { c with stream := s.store d.data })
      else if c.reading then (.returns, { c with stream := s.underflow.store d.data })
      else (.waits, { c with stream := s })

end DatagramConnection

/-! ### The loop -/

/-- `class DatagramConvergenceLayer`: the service with its surroundings and resources, the buffer of
the loop, the connections, the announcements that were raised as events, with their addresses, and
the acknowledgements that were sent. -/
structure DatagramConvergenceLayer where
  service : Service
  resources : Resources
  data : Region
  connections : List DatagramConnection
  raised : List (DiscoveryAnnouncement × Bytes)
  acks : List (UInt32 × Bytes)

namespace DatagramConvergenceLayer

/-- What became of the loop: it runs on, it was left, or it waits for ever. -/
inductive Outcome where
  | running (l : DatagramConvergenceLayer)
  | left (e : Exn)
  | stuck (l : DatagramConvergenceLayer)

/-- The connection with an identifier: the first one of the list, or a new one. -/
def lookup (l : DatagramConvergenceLayer) (identifier : Bytes) : DatagramConnection :=
  (l.connections.find? (·.identifier == identifier)).getD
    (.create identifier l.service.maxMsgLength l.service.maxSeqNumbers)

/-- The first connection with the identifier is replaced, or the new one is put at the end. -/
def replace (c : DatagramConnection) : List DatagramConnection → List DatagramConnection
  | [] => [c]
  | x :: xs => if x.identifier == c.identifier then c :: xs else x :: replace c xs

/-- What is done with the connection that `getConnection` returns. -/
def put (l : DatagramConvergenceLayer) (c : DatagramConnection) : DatagramConvergenceLayer :=
  { l with connections := replace c l.connections }

/-- `_params.flowcontrol == FLOW_STOPNWAIT`. -/
def stopAndWait : Service → Bool
  | .udp _ => true
  | .lowpan _ => false

/-- The branch for `HEADER_BROADCAST`, for what was written to the stream: an exception leaves the
loop. -/
def handleBroadcast (l : DatagramConvergenceLayer) (content stale address : Bytes) : Outcome :=
  match (DiscoveryAnnouncement.read l.resources .create).run ⟨content, false, false, stale⟩ with
  | (.error e, _) => .left e
  | (.ok announce, _) => .running { l with raised := l.raised ++ [(announce, address)] }

/-- The branch for `HEADER_SEGMENT`: an exception is caught. -/
def handleSegment (l : DatagramConvergenceLayer) (address : Bytes) (d : Datagram)
    (seqno : UInt32) : Outcome :=
  match (l.lookup address).queue d with
  | (.throws _, c) => .running (l.put c)
  | (.waits, c) => .stuck (l.put c)
  | (.returns, c) =>
      if stopAndWait l.service then .running { l.put c with acks := l.acks ++ [(seqno, address)] }
      else .running (l.put c)

/-- The branch for `HEADER_ACK`. -/
def handleAck (l : DatagramConvergenceLayer) (address : Bytes) (seqno : UInt32) : Outcome :=
  .running (l.put ((l.lookup address).ack seqno))

/-- What the loop does with what it received: `type`, `flags`, `seqno`, `address` and the data. -/
def dispatch (l : DatagramConvergenceLayer) (stale : Bytes) (type flags : UInt8) (seqno : UInt32)
    (address data : Bytes) : Outcome :=
  if type = headerBroadcast then l.handleBroadcast data stale address
  else if type = headerSegment then l.handleSegment address ⟨flags, seqno.toNat, data⟩ seqno
  else if type = headerAck then l.handleAck address seqno
  else .running l

/-- One turn of the loop in `DatagramConvergenceLayer::componentRun`, with a datagram from the
given surroundings; `stale` is what the memory of the parser held. -/
def handle (l : DatagramConvergenceLayer) (w : Service.Surroundings) (stale datagram : Bytes) :
    Outcome :=
  let got := l.service.recvfrom w l.data datagram
  dispatch { l with data := got.buf } stale got.type got.flags got.seqno got.address
    (got.buf.load 0 got.length.toNat)

/-- The connections of other senders. -/
def others (l : DatagramConvergenceLayer) (sender : Bytes) : List DatagramConnection :=
  l.connections.filter fun c => c.identifier ≠ sender

end DatagramConvergenceLayer

/-! ### What a datagram says -/

/-- The parts of a datagram. -/
structure DatagramMessage where
  type : UInt8
  flags : UInt8
  seqno : UInt32
  address : Bytes
  content : Bytes
deriving DecidableEq, Repr

namespace Service

/-- A byte of a datagram, or what the memory behind it held. -/
def byteAt (w : Surroundings) (datagram : Bytes) (i : ℕ) : UInt8 :=
  (datagram[i]?).getD (w.receiver i)

/-- What a datagram says to a loop with the buffer `data`. The service for LoWPAN takes the address
from the places behind the buffer's end, and counts one or two bytes to the content that the buffer
held before. -/
def message (s : Service) (w : Surroundings) (data : Region) (datagram : Bytes) :
    DatagramMessage :=
  match s with
  | udp _ =>
      { type := byteAt w datagram 0
        flags := (0x0f : UInt8) &&& (byteAt w datagram 1 >>> 4)
        seqno := ((0x0f : UInt8) &&& byteAt w datagram 1).toUInt32
        address := UDPDatagramService.encode w.address w.port
        content := datagram.drop 2 }
  | lowpan panid =>
      let isExtended := extended datagram (w.receiver 0)
      let header := if isExtended then 2 else 1
      let payload := (datagram.drop header).take (datagram.length - header - 2)
      { type := if isExtended then byteAt w datagram 1 else headerSegment
        flags := (0x0f : UInt8) &&& (byteAt w datagram 0 >>> 4)
        seqno := ((0x0f : UInt8) &&& byteAt w datagram 0).toUInt32
        address := LOWPANDatagramService.encode (LOWPANDatagramService.joinAddress
          (byteAt w datagram (data.size - 1)) (byteAt w datagram (data.size - 2))) panid
        content := payload ++ data.load payload.length header }

/-- The sender of a datagram: where it came from, or the short address at its end. -/
def senderOf (s : Service) (w : Surroundings) (datagram : Bytes) : Bytes :=
  match s with
  | udp _ => UDPDatagramService.encode w.address w.port
  | lowpan panid =>
      let last (i : ℕ) : UInt16 := ((datagram[datagram.length - i]?).getD 0).toUInt16
      LOWPANDatagramService.encode ((last 1 <<< 8) ||| last 2) panid

/-- The size of the buffer that `recvfrom` receives into. -/
def receiveSize (s : Service) (size : ℕ) : ℕ :=
  match s with
  | udp _ => size + 2
  | lowpan _ => size + 4

/-- The datagram has a whole header, and is not longer than what fits the buffer of the loop by the
count of the service. -/
def Sized (s : Service) (w : Surroundings) (size : ℕ) (datagram : Bytes) : Prop :=
  match s with
  | udp _ => 2 ≤ datagram.length
  | lowpan _ => (if extended datagram (w.receiver 0) then 4 else 3) ≤ datagram.length ∧
      datagram.length ≤ size + 2

theorem safe_recvfrom_iff (s : Service) (w : Surroundings) {data : Region}
    (hinside : data.inside = true) (hroom : data.size + 4 < 2 ^ 64) {datagram : Bytes}
    (hle : datagram.length ≤ s.receiveSize data.size) :
    (s.recvfrom w data datagram).Safe ↔ s.Sized w data.size datagram := by
  cases s with
  | udp mtu => exact safe_udp_iff hinside hroom hle w.receiver w.address w.port
  | lowpan panid => exact safe_lowpan_iff hinside hroom hle w.receiver panid

/-- What the loop finds in its buffer behind a copy that leaves out a header and as many bytes as an
address has, when the returned length only leaves out the address. -/
theorem load_content (tmp data : Region) {datagram : Bytes} (hn : datagram.length < 2 ^ 64)
    (header : ℕ) {k : UInt64} (hk : k.toNat = header + 2) (hge : header + 2 ≤ datagram.length) :
    (data.store 0 ((tmp.store 0 datagram).load header
        (UInt64.ofNat datagram.length - k).toNat)).load 0
          (UInt64.ofNat datagram.length - 2).toNat =
      (datagram.drop header).take (datagram.length - header - 2) ++
        data.load ((datagram.drop header).take (datagram.length - header - 2)).length header := by
  have hcount : (UInt64.ofNat datagram.length - k).toNat = datagram.length - header - 2 := by
    rw [toNat_ofNat_sub hn (hk.trans_le hge), hk, Nat.sub_sub]
  have hlength : ((datagram.drop header).take (datagram.length - header - 2)).length =
      datagram.length - header - 2 :=
    List.length_take_of_le (by rw [List.length_drop]; omega)
  have hreturn : (UInt64.ofNat datagram.length - 2).toNat =
      ((datagram.drop header).take (datagram.length - header - 2)).length + header := by
    have htwo : (2 : UInt64).toNat = 2 := rfl
    rw [toNat_ofNat_sub hn (by omega), hlength]
    omega
  rw [hcount, tmp.load_store_slice datagram (by omega), hreturn, Region.load_store_add,
    Nat.zero_add]

/-- **What the service hands over** of a datagram that it copies safely. -/
theorem recvfrom_eq (s : Service) (w : Surroundings) {data : Region}
    (hroom : data.size + 4 < 2 ^ 64) {datagram : Bytes}
    (hle : datagram.length ≤ s.receiveSize data.size) (hsized : s.Sized w data.size datagram) :
    let got := s.recvfrom w data datagram
    DatagramMessage.mk got.type got.flags got.seqno got.address
        (got.buf.load 0 got.length.toNat) = s.message w data datagram := by
  have hn : datagram.length < 2 ^ 64 := by
    cases s <;> simp only [receiveSize] at hle <;> omega
  cases s with
  | udp mtu =>
      have hcount : (UInt64.ofNat datagram.length - 2).toNat = datagram.length - 2 :=
        toNat_ofNat_sub hn hsized
      have hslice : 2 + (datagram.length - 2) ≤ datagram.length := by
        have hheader : 2 ≤ datagram.length := hsized
        omega
      have hcontent := (Region.alloc (data.size + 2) w.receiver).load_store_slice datagram hslice
      rw [recvfrom, UDPDatagramService.recvfrom,
        receive_eq (.alloc (data.size + 2) w.receiver) hle]
      dsimp only
      have hlen : (datagram.drop 2).length = datagram.length - 2 := List.length_drop
      rw [hcount, hcontent, List.take_of_length_le hlen.le, ← hlen, Region.load_store]
      rfl
  | lowpan panid =>
      rw [recvfrom, LOWPANDatagramService.recvfrom,
        receive_eq (.alloc (data.size + 4) w.receiver) hle]
      obtain ⟨hge, -⟩ := hsized
      have hextended : (((Region.alloc (data.size + 4) w.receiver).store 0 datagram).cell 0 &&&
          LOWPANDatagramService.extendedMask != 0) = extended datagram (w.receiver 0) := rfl
      dsimp only
      rw [message, hextended]
      cases hcase : extended datagram (w.receiver 0) with
      | true =>
          rw [hcase] at hge
          have hcontent := load_content (Region.alloc (data.size + 4) w.receiver) data hn 2
            (k := 4) rfl hge
          simp only [if_true, hcontent]
          rfl
      | false =>
          rw [hcase] at hge
          have hcontent := load_content (Region.alloc (data.size + 4) w.receiver) data hn 1
            (k := 3) rfl hge
          simp only [Bool.false_eq_true, if_false, hcontent]
          rfl

end Service

/-! ### What a segment does to its connection -/

namespace DatagramConnection

/-- A segment waits for a thread that is gone: the stream expects it, the buffer is not free, and
the thread takes nothing from it. -/
structure Blocks (c : DatagramConnection) (d : Datagram) : Prop where
  abort_eq : c.stream.abort = false
  inSeqNum_eq : c.stream.inSeqNum = d.seqno
  expects : DatagramStream.expects c.stream.inState d.flags = true
  queueBuf_ne : c.stream.queueBuf ≠ []
  reading_eq : c.reading = false

/-- The call of `queue` changes the stream only, and waits exactly for a thread that is gone. An
aborted stream is left as it is; another one is aborted or expects the next number. -/
structure Queues (c : DatagramConnection) (d : Datagram) (o : QueueOutcome) (s : DatagramStream) :
    Prop where
  queue_eq : c.queue d = (o, { c with stream := s })
  maxseqno_eq : s.maxseqno = c.stream.maxseqno
  waits_iff : o = .waits ↔ c.Blocks d
  stream_eq : c.stream.abort = true → s = c.stream
  next : c.stream.abort = false →
    s.abort = true ∨ s.inSeqNum = (c.stream.inSeqNum + 1) % c.stream.maxseqno

theorem queues_of_abort {c : DatagramConnection} {d : Datagram} (h : c.stream.abort = true) :
    c.Queues d (.throws "stream aborted") c.stream := by
  have hqueue : c.stream.queue d = (.thrown "stream aborted", c.stream) := if_pos h
  refine ⟨by rw [queue, hqueue], rfl, iff_of_false (by simp) fun hblocks => ?_, fun _ => rfl,
    fun habort => ?_⟩
  · exact Bool.false_ne_true (hblocks.abort_eq.symm.trans h)
  · exact absurd (habort.symm.trans h) Bool.false_ne_true

theorem queues_of_expects {c : DatagramConnection} {d : Datagram} (habort : c.stream.abort = false)
    (hseq : c.stream.inSeqNum = d.seqno)
    (hexpects : DatagramStream.expects c.stream.inState d.flags = true) :
    ∃ o s, c.Queues d o s := by
  have hblocks : c.Blocks d ↔ c.stream.queueBuf ≠ [] ∧ c.reading = false :=
    ⟨fun h => ⟨h.queueBuf_ne, h.reading_eq⟩, fun h => ⟨habort, hseq, hexpects, h.1, h.2⟩⟩
  have hqueue := DatagramStream.queue_of_expects habort hseq hexpects
  generalize haccepted : ({ c.stream with
    inState := if Datagram.isLast d.flags then Datagram.segmentFirst else Datagram.segmentMiddle
    inSeqNum := (c.stream.inSeqNum + 1) % c.stream.maxseqno
    waiting := some d.data } : DatagramStream) = s at hqueue
  have hbuf : s.queueBuf = c.stream.queueBuf := by rw [← haccepted]
  have hmax : s.maxseqno = c.stream.maxseqno := by rw [← haccepted]
  have hnext : s.inSeqNum = (c.stream.inSeqNum + 1) % c.stream.maxseqno := by rw [← haccepted]
  have habort' : c.stream.abort ≠ true := Bool.eq_false_iff.1 habort
  by_cases hfree : c.stream.queueBuf = []
  · refine ⟨.returns, s.store d.data, ?_, hmax, ?_, fun h => absurd h habort',
      fun _ => Or.inr hnext⟩
    · rw [queue, hqueue]
      dsimp only
      rw [hbuf, if_pos hfree]
    · exact iff_of_false nofun fun h => h.queueBuf_ne hfree
  · cases hreading : c.reading with
    | true =>
        refine ⟨.returns, s.underflow.store d.data, ?_, hmax, ?_, fun h => absurd h habort',
          fun _ => Or.inr hnext⟩
        · rw [queue, hqueue]
          dsimp only
          rw [hbuf, if_neg hfree, hreading, if_pos rfl]
        · exact iff_of_false nofun fun h => Bool.false_ne_true (h.reading_eq.symm.trans hreading)
    | false =>
        refine ⟨.waits, s, ?_, hmax, ?_, fun h => absurd h habort', fun _ => Or.inr hnext⟩
        · rw [queue, hqueue]
          dsimp only
          rw [hbuf, if_neg hfree, hreading, if_neg Bool.false_ne_true]
        · exact iff_of_true rfl (hblocks.2 ⟨hfree, hreading⟩)

theorem queues_of_not_expects {c : DatagramConnection} {d : Datagram}
    (habort : c.stream.abort = false) (h : ¬ (c.stream.inSeqNum = d.seqno ∧
      DatagramStream.expects c.stream.inState d.flags = true)) :
    ∃ o, c.Queues d o { c.stream with abort := true } := by
  obtain ⟨o, ho, hqueue⟩ := DatagramStream.queue_of_not_expects habort h
  have hnot : ¬ c.Blocks d := fun hblocks => h ⟨hblocks.inSeqNum_eq, hblocks.expects⟩
  have habort' : c.stream.abort ≠ true := Bool.eq_false_iff.1 habort
  cases o with
  | accepted => exact absurd rfl ho
  | dropped =>
      exact ⟨.returns, by rw [queue, hqueue], rfl, iff_of_false nofun hnot,
        fun habort => absurd habort habort', fun _ => Or.inl rfl⟩
  | thrown what =>
      exact ⟨.throws what, by rw [queue, hqueue], rfl, iff_of_false nofun hnot,
        fun habort => absurd habort habort', fun _ => Or.inl rfl⟩

theorem exists_queues (c : DatagramConnection) (d : Datagram) : ∃ o s, c.Queues d o s := by
  cases habort : c.stream.abort with
  | true => exact ⟨_, _, queues_of_abort habort⟩
  | false =>
      by_cases h : c.stream.inSeqNum = d.seqno ∧
          DatagramStream.expects c.stream.inState d.flags = true
      · exact queues_of_expects habort h.1 h.2
      · obtain ⟨o, h⟩ := queues_of_not_expects habort h
        exact ⟨o, _, h⟩

/-- **A segment changes exactly the connections whose stream is not aborted.** -/
theorem Queues.stream_eq_iff {c : DatagramConnection} {d : Datagram} {o : QueueOutcome}
    {s : DatagramStream} (h : c.Queues d o s) (hmax : 1 < c.stream.maxseqno) :
    s = c.stream ↔ c.stream.abort = true := by
  refine ⟨fun heq => ?_, h.stream_eq⟩
  by_contra hne
  have habort := Bool.eq_false_iff.2 hne
  rcases h.next habort with haborted | hnext
  · exact Bool.false_ne_true (habort.symm.trans (heq ▸ haborted))
  · rw [heq] at hnext
    have hlt := Nat.mod_lt (c.stream.inSeqNum + 1) (Nat.zero_lt_of_lt hmax)
    rcases Nat.lt_or_ge (c.stream.inSeqNum + 1) c.stream.maxseqno with hsmall | hlarge
    · rw [Nat.mod_eq_of_lt hsmall] at hnext
      omega
    · have hlast : c.stream.inSeqNum + 1 = c.stream.maxseqno := by omega
      rw [hlast, Nat.mod_self] at hnext
      omega

theorem identifier_ack (c : DatagramConnection) (seqno : UInt32) :
    (c.ack seqno).identifier = c.identifier := by
  rw [ack]
  split_ifs <;> rfl

theorem stream_ack (c : DatagramConnection) (seqno : UInt32) :
    (c.ack seqno).stream = c.stream := by
  rw [ack]
  split_ifs <;> rfl

/-- An acknowledgement leaves a connection as it is that waits for another one, or has it. -/
theorem ack_eq_self_iff (c : DatagramConnection) (seqno : UInt32) :
    c.ack seqno = c ↔ (c.waitAck = seqno.toUInt64 → c.lastAck = seqno.toUInt64) := by
  rw [ack]
  split_ifs with h
  · rw [imp_iff_right h]
    constructor
    · intro heq
      rw [← heq]
    · intro heq
      rw [← heq]
  · exact iff_of_true rfl fun h' => absurd h' h

end DatagramConnection

/-! ### What the loop does to the connections -/

namespace DatagramConvergenceLayer

/-- The buffer of the loop is that of the parameters, and so are the streams of the connections. -/
structure WellFormed (l : DatagramConvergenceLayer) : Prop where
  inside_eq : l.data.inside = true
  size_eq : l.data.size = l.service.maxMsgLength
  maxseqno_eq : ∀ c ∈ l.connections, c.stream.maxseqno = l.service.maxSeqNumbers

theorem mem_replace {c x : DatagramConnection} {cs : List DatagramConnection}
    (h : x ∈ replace c cs) : x = c ∨ x ∈ cs := by
  induction cs with
  | nil => exact Or.inl (List.mem_singleton.1 h)
  | cons y ys ih =>
      rw [replace] at h
      split_ifs at h
      · rcases List.mem_cons.1 h with rfl | h
        · exact Or.inl rfl
        · exact Or.inr (List.mem_cons_of_mem y h)
      · rcases List.mem_cons.1 h with rfl | h
        · exact Or.inr List.mem_cons_self
        · exact (ih h).imp id (List.mem_cons_of_mem y)

/-- A connection of the sender is none of the others. -/
theorem others_replace_of_eq {c : DatagramConnection} {sender : Bytes} (h : c.identifier = sender)
    (cs : List DatagramConnection) :
    (replace c cs).filter (fun c => c.identifier ≠ sender) =
      cs.filter fun c => c.identifier ≠ sender := by
  induction cs with
  | nil => simp [replace, h]
  | cons x xs ih =>
      rw [replace]
      split_ifs with hx
      · have hx' : x.identifier = sender := (eq_of_beq hx).trans h
        simp [h, hx']
      · rw [List.filter_cons, List.filter_cons, ih]

/-- Another connection is the same afterwards exactly if it was there, as it is now. -/
theorem others_replace_of_ne {c : DatagramConnection} {sender : Bytes} (h : c.identifier ≠ sender)
    (cs : List DatagramConnection) :
    (replace c cs).filter (fun c => c.identifier ≠ sender) =
        cs.filter (fun c => c.identifier ≠ sender) ↔
      cs.find? (·.identifier == c.identifier) = some c := by
  induction cs with
  | nil => simp [replace, h]
  | cons x xs ih =>
      rw [replace, List.find?_cons]
      cases hx : x.identifier == c.identifier with
      | true =>
          have hx' : x.identifier ≠ sender := by rw [eq_of_beq hx]; exact h
          simp only [if_true, List.filter_cons, h, hx', ne_eq, not_false_eq_true, decide_true,
            List.cons.injEq, and_true, Option.some.injEq]
          exact eq_comm
      | false =>
          simp only [Bool.false_eq_true, if_false, List.filter_cons]
          split_ifs
          · rw [List.cons.injEq, and_iff_right rfl, ih]
          · exact ih

/-- What is put back is of the sender, or it was there as it is. -/
theorem others_put (l : DatagramConvergenceLayer) (c : DatagramConnection) (sender : Bytes) :
    (l.put c).others sender = l.others sender ↔ c.identifier = sender ∨
      l.connections.find? (·.identifier == c.identifier) = some c := by
  by_cases h : c.identifier = sender
  · exact iff_of_true (others_replace_of_eq h l.connections) (Or.inl h)
  · rw [or_iff_right h]
    exact others_replace_of_ne h l.connections

theorem identifier_lookup (l : DatagramConvergenceLayer) (identifier : Bytes) :
    (l.lookup identifier).identifier = identifier := by
  rw [lookup]
  cases h : l.connections.find? (·.identifier == identifier) with
  | none => rfl
  | some c => exact eq_of_beq (List.find?_some h :)

theorem maxseqno_lookup {l : DatagramConvergenceLayer} (hl : l.WellFormed) (identifier : Bytes) :
    (l.lookup identifier).stream.maxseqno = l.service.maxSeqNumbers := by
  rw [lookup]
  cases h : l.connections.find? (·.identifier == identifier) with
  | none => rfl
  | some c => exact hl.maxseqno_eq c (List.mem_of_find?_eq_some h)

/-- What is done with the connection of an address leaves the connections of other senders alone if
the address is the sender's, or there is such a connection and nothing is done with it. -/
theorem others_put_lookup (l : DatagramConvergenceLayer) {c : DatagramConnection}
    {address : Bytes} (hc : c.identifier = address) (sender : Bytes) :
    (l.put c).others sender = l.others sender ↔ address = sender ∨
      ∃ x, l.connections.find? (·.identifier == address) = some x ∧ c = l.lookup address := by
  rw [others_put, hc]
  refine or_congr_right ⟨fun h => ⟨c, h, ?_⟩, ?_⟩
  · rw [lookup, h]
    rfl
  · rintro ⟨x, hx, rfl⟩
    rw [lookup, hx]
    rfl

/-- The loop runs on, and the connections of other senders are as before. -/
def Survives (l : DatagramConvergenceLayer) (sender : Bytes) (o : Outcome) : Prop :=
  ∃ l', o = .running l' ∧ l'.others sender = l.others sender

/-- The message leaves the connection of its address alone: a segment for an aborted stream, or an
acknowledgement that is not waited for. -/
def LeavesAlone (l : DatagramConvergenceLayer) (m : DatagramMessage) : Prop :=
  ∃ c, l.connections.find? (·.identifier == m.address) = some c ∧
    if m.type = headerSegment then c.stream.abort = true
    else c.waitAck = m.seqno.toUInt64 → c.lastAck = m.seqno.toUInt64

/-- What the loop withstands of the messages of a sender: an announcement has the format, a segment
does not wait for a thread that is gone, and what goes to a connection goes to that of the sender,
or leaves the connection alone. -/
structure Withstands (l : DatagramConvergenceLayer) (stale sender : Bytes) (m : DatagramMessage) :
    Prop where
  announces : m.type = headerBroadcast →
    DiscoveryAnnouncement.Announces l.resources m.content stale
  not_blocks : m.type = headerSegment →
    ¬ (l.lookup m.address).Blocks ⟨m.flags, m.seqno.toNat, m.content⟩
  own : m.type = headerSegment ∨ m.type = headerAck → m.address = sender ∨ l.LeavesAlone m

theorem survives_running {l l' : DatagramConvergenceLayer} {sender : Bytes} :
    l.Survives sender (.running l') ↔ l'.others sender = l.others sender := by
  constructor
  · rintro ⟨l', ⟨⟩, h⟩
    exact h
  · exact fun h => ⟨l', rfl, h⟩

theorem survives_handleBroadcast (l : DatagramConvergenceLayer)
    (content stale address sender : Bytes) :
    l.Survives sender (l.handleBroadcast content stale address) ↔
      DiscoveryAnnouncement.Announces l.resources content stale := by
  rw [← DiscoveryAnnouncement.accepts_iff, handleBroadcast]
  rcases (DiscoveryAnnouncement.read l.resources .create).run ⟨content, false, false, stale⟩
    with ⟨e | a, s'⟩
  · refine iff_of_false ?_ ?_
    · rintro ⟨l', h, -⟩
      cases h
    · rintro ⟨a, s', h⟩
      cases h
  · exact iff_of_true ⟨_, rfl, rfl⟩ ⟨a, s', rfl⟩

/-- The connection that is put back for a segment. -/
theorem others_put_queued {l : DatagramConvergenceLayer} (hl : l.WellFormed)
    (address sender : Bytes) {d : Datagram} {o : DatagramConnection.QueueOutcome}
    {s : DatagramStream} (h : (l.lookup address).Queues d o s) :
    (l.put { l.lookup address with stream := s }).others sender = l.others sender ↔
      address = sender ∨
        ∃ c, l.connections.find? (·.identifier == address) = some c ∧ c.stream.abort = true := by
  have hmax : 1 < (l.lookup address).stream.maxseqno := by
    rw [maxseqno_lookup hl]
    cases l.service <;> exact (by decide : 1 < 8)
  have hid : ({ l.lookup address with stream := s } : DatagramConnection).identifier = address :=
    identifier_lookup l address
  rw [others_put_lookup l hid]
  refine or_congr_right (exists_congr fun c => and_congr_right fun hfind => ?_)
  have hc : l.lookup address = c := by rw [lookup, hfind, Option.getD_some]
  rw [← hc, ← h.stream_eq_iff hmax]
  constructor
  · exact fun heq => congrArg DatagramConnection.stream heq
  · rintro rfl
    rfl

theorem survives_handleSegment {l : DatagramConvergenceLayer} (hl : l.WellFormed)
    (address sender : Bytes) (d : Datagram) (seqno : UInt32) :
    l.Survives sender (l.handleSegment address d seqno) ↔
      ¬ (l.lookup address).Blocks d ∧ (address = sender ∨
        ∃ c, l.connections.find? (·.identifier == address) = some c ∧ c.stream.abort = true) := by
  obtain ⟨o, s, h⟩ := (l.lookup address).exists_queues d
  have hothers := others_put_queued hl address sender h
  rw [handleSegment, h.queue_eq, ← h.waits_iff]
  cases o with
  | returns =>
      rw [and_iff_right nofun, ← hothers]
      dsimp only
      split_ifs
      · exact survives_running
      · exact survives_running
  | throws what =>
      rw [and_iff_right nofun, ← hothers]
      exact survives_running
  | waits =>
      refine iff_of_false ?_ fun hnot => hnot.1 rfl
      rintro ⟨l', hl', -⟩
      cases hl'

theorem survives_handleAck (l : DatagramConvergenceLayer) (address sender : Bytes)
    (seqno : UInt32) :
    l.Survives sender (l.handleAck address seqno) ↔ address = sender ∨
      ∃ c, l.connections.find? (·.identifier == address) = some c ∧
        (c.waitAck = seqno.toUInt64 → c.lastAck = seqno.toUInt64) := by
  have hid := (DatagramConnection.identifier_ack _ seqno).trans (identifier_lookup l address)
  rw [handleAck, survives_running, others_put_lookup l hid]
  refine or_congr_right (exists_congr fun c => and_congr_right fun hfind => ?_)
  have hc : l.lookup address = c := by rw [lookup, hfind, Option.getD_some]
  rw [hc, DatagramConnection.ack_eq_self_iff]

/-- **The messages that the loop withstands.** -/
theorem survives_dispatch {l : DatagramConvergenceLayer} (hl : l.WellFormed)
    (stale sender : Bytes) (m : DatagramMessage) :
    l.Survives sender (l.dispatch stale m.type m.flags m.seqno m.address m.content) ↔
      l.Withstands stale sender m := by
  have hsegment : headerSegment ≠ headerBroadcast := by decide
  have hack : headerAck ≠ headerBroadcast ∧ headerAck ≠ headerSegment := by decide
  rw [dispatch]
  split_ifs with hbroadcast hseg hackType
  · rw [survives_handleBroadcast]
    refine ⟨fun h => ⟨fun _ => h, fun heq => ?_, fun heq => ?_⟩, fun h => h.announces hbroadcast⟩
    · exact absurd (heq.symm.trans hbroadcast) hsegment
    · rcases heq with heq | heq
      · exact absurd (heq.symm.trans hbroadcast) hsegment
      · exact absurd (heq.symm.trans hbroadcast) hack.1
  · have halone : l.LeavesAlone m ↔ ∃ c,
        l.connections.find? (·.identifier == m.address) = some c ∧ c.stream.abort = true := by
      simp only [LeavesAlone, if_pos hseg]
    rw [survives_handleSegment hl, ← halone]
    exact ⟨fun h => ⟨fun heq => absurd heq hbroadcast, fun _ => h.1, fun _ => h.2⟩,
      fun h => ⟨h.not_blocks hseg, h.own (Or.inl hseg)⟩⟩
  · have halone : l.LeavesAlone m ↔ ∃ c,
        l.connections.find? (·.identifier == m.address) = some c ∧
          (c.waitAck = m.seqno.toUInt64 → c.lastAck = m.seqno.toUInt64) := by
      simp only [LeavesAlone, if_neg hseg]
    rw [survives_handleAck, ← halone]
    exact ⟨fun h => ⟨fun heq => absurd heq hbroadcast, fun heq => absurd heq hseg, fun _ => h⟩,
      fun h => h.own (Or.inr hackType)⟩
  · refine iff_of_true ⟨l, rfl, rfl⟩ ⟨fun heq => absurd heq hbroadcast, fun heq => absurd heq hseg,
      fun heq => ?_⟩
    exact absurd heq (not_or.2 ⟨hseg, hackType⟩)

/-! ### Hostile datagrams -/

/-- **The datagram does not break the loop**: `recvfrom` copies safely, the loop runs on, and no
connection of another sender is changed. -/
structure Unbroken (l : DatagramConvergenceLayer) (w : Service.Surroundings)
    (stale datagram : Bytes) : Prop where
  safe : (l.service.recvfrom w l.data datagram).Safe
  survives : l.Survives (l.service.senderOf w datagram) (l.handle w stale datagram)

theorem wellFormed_put {l : DatagramConvergenceLayer} (hl : l.WellFormed) {c : DatagramConnection}
    (hc : c.stream.maxseqno = l.service.maxSeqNumbers) : (l.put c).WellFormed where
  inside_eq := hl.inside_eq
  size_eq := hl.size_eq
  maxseqno_eq x hx := (mem_replace hx).elim (fun h => h ▸ hc) (hl.maxseqno_eq x)

theorem wellFormed_handleSegment {l l' : DatagramConvergenceLayer} (hl : l.WellFormed)
    {address : Bytes} {d : Datagram} {seqno : UInt32}
    (h : l.handleSegment address d seqno = .running l') : l'.WellFormed := by
  obtain ⟨o, s, hqueues⟩ := (l.lookup address).exists_queues d
  have hput := wellFormed_put (c := { l.lookup address with stream := s }) hl
    (hqueues.maxseqno_eq.trans (maxseqno_lookup hl address))
  rw [handleSegment, hqueues.queue_eq] at h
  cases o with
  | returns =>
      dsimp only at h
      split_ifs at h
      · obtain rfl := Outcome.running.inj h
        exact ⟨hput.inside_eq, hput.size_eq, hput.maxseqno_eq⟩
      · exact Outcome.running.inj h ▸ hput
  | throws what => exact Outcome.running.inj h ▸ hput
  | waits => cases h

theorem wellFormed_dispatch {l l' : DatagramConvergenceLayer} (hl : l.WellFormed) {stale : Bytes}
    {type flags : UInt8} {seqno : UInt32} {address data : Bytes}
    (h : l.dispatch stale type flags seqno address data = .running l') : l'.WellFormed := by
  rw [dispatch] at h
  split_ifs at h
  · rw [handleBroadcast] at h
    rcases hrun : (DiscoveryAnnouncement.read l.resources .create).run ⟨data, false, false, stale⟩
      with ⟨e | a, s'⟩
    · rw [hrun] at h
      cases h
    · rw [hrun] at h
      obtain rfl := Outcome.running.inj h
      exact ⟨hl.inside_eq, hl.size_eq, hl.maxseqno_eq⟩
  · exact wellFormed_handleSegment hl h
  · obtain rfl := Outcome.running.inj h
    refine wellFormed_put hl ?_
    rw [DatagramConnection.stream_ack]
    exact maxseqno_lookup hl address
  · exact Outcome.running.inj h ▸ hl

theorem size_recvfrom (s : Service) (w : Service.Surroundings) (data : Region) (datagram : Bytes) :
    (s.recvfrom w data datagram).buf.size = data.size := by
  cases s <;> rfl

theorem wellFormed_received {l : DatagramConvergenceLayer} (hl : l.WellFormed)
    {w : Service.Surroundings} {datagram : Bytes}
    (hsafe : (l.service.recvfrom w l.data datagram).Safe) :
    WellFormed { l with data := (l.service.recvfrom w l.data datagram).buf } :=
  ⟨hsafe.inside, (size_recvfrom _ _ _ _).trans hl.size_eq, hl.maxseqno_eq⟩

/-- **The invariant of the loop** is kept. -/
theorem wellFormed_handle {l l' : DatagramConvergenceLayer} (hl : l.WellFormed)
    {w : Service.Surroundings} {stale datagram : Bytes}
    (hsafe : (l.service.recvfrom w l.data datagram).Safe)
    (h : l.handle w stale datagram = .running l') : l'.WellFormed :=
  wellFormed_dispatch (wellFormed_received hl hsafe) h

/-- A turn of the loop with a datagram that the service copies safely. -/
theorem survives_handle {l : DatagramConvergenceLayer} (hl : l.WellFormed)
    (hroom : l.service.maxMsgLength < 2 ^ 31) (w : Service.Surroundings) (stale : Bytes)
    {datagram : Bytes} (hle : datagram.length ≤ l.service.receiveSize l.service.maxMsgLength)
    (hsafe : (l.service.recvfrom w l.data datagram).Safe)
    (hsized : l.service.Sized w l.data.size datagram) (sender : Bytes) :
    l.Survives sender (l.handle w stale datagram) ↔
      l.Withstands stale sender (l.service.message w l.data datagram) := by
  have hsize := hl.size_eq
  have hmessage := l.service.recvfrom_eq w (by omega) (hsize.symm ▸ hle) hsized
  have hdispatch := survives_dispatch (wellFormed_received hl hsafe) stale sender
    (l.service.message w l.data datagram)
  rw [← hmessage] at hdispatch ⊢
  refine hdispatch.trans ⟨fun h => ⟨h.announces, h.not_blocks, h.own⟩, fun h =>
    ⟨h.announces, h.not_blocks, h.own⟩⟩

/-- **Exactly these datagrams do not break the loop**: those of a length that the service can take
apart, with a message that the loop withstands. -/
theorem unbroken_iff {l : DatagramConvergenceLayer} (hl : l.WellFormed)
    (hroom : l.service.maxMsgLength < 2 ^ 31) (w : Service.Surroundings) (stale : Bytes)
    {datagram : Bytes} (hle : datagram.length ≤ l.service.receiveSize l.service.maxMsgLength) :
    l.Unbroken w stale datagram ↔
      l.service.Sized w l.service.maxMsgLength datagram ∧
        l.Withstands stale (l.service.senderOf w datagram)
          (l.service.message w l.data datagram) := by
  have hsize := hl.size_eq
  have hsafe_iff := l.service.safe_recvfrom_iff w hl.inside_eq (by omega) (hsize.symm ▸ hle)
  rw [← hsize]
  constructor
  · rintro ⟨hsafe, hsurvives⟩
    have hsized := hsafe_iff.1 hsafe
    exact ⟨hsized, (survives_handle hl hroom w stale hle hsafe hsized _).1 hsurvives⟩
  · rintro ⟨hsized, hwithstands⟩
    have hsafe := hsafe_iff.2 hsized
    exact ⟨hsafe, (survives_handle hl hroom w stale hle hsafe hsized _).2 hwithstands⟩

/-- A layer without connections, over the service for UDP. -/
def sampleLayer : DatagramConvergenceLayer :=
  ⟨.udp 1280, ⟨8192, 1000⟩, Region.alloc 1278 fun _ => 0, [], [], []⟩

theorem wellFormed_sampleLayer : sampleLayer.WellFormed := ⟨rfl, rfl, nofun⟩

/-- Neither an acknowledgement nor the only segment of a message ends the loop. -/
theorem unbroken_iff_sample :
    sampleLayer.Unbroken Service.sampleSurroundings [] [headerAck, 0x05] ∧
      sampleLayer.Unbroken Service.sampleSurroundings [] [headerSegment, 0x30, 0x68, 0x69] := by
  constructor
  · exact (unbroken_iff wellFormed_sampleLayer (by decide) Service.sampleSurroundings []
      (by decide)).2 ⟨le_rfl, nofun, nofun, fun _ => Or.inl rfl⟩
  · have hsized : sampleLayer.service.Sized Service.sampleSurroundings
        sampleLayer.service.maxMsgLength [headerSegment, 0x30, 0x68, 0x69] := by
      change 2 ≤ 4
      decide
    refine (unbroken_iff wellFormed_sampleLayer (by decide) Service.sampleSurroundings []
      (by decide)).2 ⟨hsized, nofun, fun _ hblocks => ?_, fun _ => Or.inl rfl⟩
    exact absurd rfl hblocks.queueBuf_ne

/-- **An announcement of an unknown version** ends the loop. -/
theorem not_unbroken_sample : ¬ sampleLayer.Unbroken Service.sampleSurroundings []
    [headerBroadcast, 0, 9] := by
  rintro ⟨-, l', h, -⟩
  cases h

end DatagramConvergenceLayer

end IbrDtn
