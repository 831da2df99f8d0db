import IbrDtn.Library.PutArea
import IbrDtn.Streams.StreamDataSegment

/-!
# The sending half of a stream buffer

This file models `overflow` and `sync` of `ibrdtn/streams/StreamBuffer.cpp`.  Bundles are written
to a put area; whatever leaves it is sent as a data segment, and kept until it is acknowledged.  A
segment carries the start mark if the state bit `STREAM_SOB` is set, and the end mark if the
overflow was called by `sync`.  `TCPConnection::operator<<` writes a bundle in pieces and flushes
once behind it.

The end mark is not sent when nothing is left for `sync`, so the segments of a bundle are framed
exactly when its length is no multiple of the buffer size.

## Main definitions

* `StreamBuffer` : the members of the sending half.
* `StreamBuffer.overflow`, `StreamBuffer.sync` : the two ways in which segments leave.
* `StreamBuffer.segmentsOf` : the segments that are sent for each bundle of a sequence.

## Main results

* `StreamBuffer.sendBundle_eq` : what one bundle sends and leaves behind.
* `StreamBuffer.framed_segmentsOf_iff` : when all bundles of a sequence are framed.
-/

namespace IbrDtn

/-- The calls of a stream buffer to its connection that end the transfer of a bundle. -/
inductive BundleEvent where
  | forwarded
  | refused
deriving DecidableEq, Repr

/-- The sending half of `class StreamConnection::StreamBuffer`: the bits of `_statebits` it uses, the
characters of the put area, `_segments`, `_rejected_segments`, the data segments that were
written to `_stream`, and the events. -/
structure StreamBuffer where
  bufferSize : ℕ
  ackSupport : Bool
  nackSupport : Bool
  sob : Bool
  skip : Bool
  out : Bytes
  segments : List StreamDataSegment
  rejectedSegments : List StreamDataSegment
  sent : List (StreamDataSegment × Bytes)
  events : List BundleEvent
deriving DecidableEq, Repr

namespace StreamBuffer

/-- `StreamBuffer::StreamBuffer`, with the support bits that the handshake sets. -/
def create (bufferSize : ℕ) (ackSupport nackSupport : Bool) : StreamBuffer :=
  ⟨bufferSize, ackSupport, nackSupport, true, false, [], [], [], [], []⟩

/-! ### Sending a segment -/

/-- The first part of `overflow`: a segment with its marks. -/
def mark (b : StreamBuffer) (size : ℕ) (isEnd : Bool) : StreamDataSegment × StreamBuffer :=
  let seg := StreamDataSegment.data (UInt64.ofNat size) b.sob isEnd
  let b := if b.sob then { b with skip := false, sob := false } else b
  (seg, if isEnd then { b with sob := true } else b)

/-- The second part of `overflow`, for a segment that is not skipped. Without support of
acknowledgements a bundle counts as forwarded when its last segment is sent. -/
def transmit (b : StreamBuffer) (seg : StreamDataSegment) (data : Bytes) : StreamBuffer :=
  let b :=
    if b.ackSupport then { b with segments := b.segments ++ [seg] }
    else if seg.isEnd then { b with events := b.events ++ [.forwarded] }
    else b
  { b with sent := b.sent ++ [(seg, data)] }

/-- `StreamBuffer::overflow`, with a character or with the end of the file. -/
def overflow (b : StreamBuffer) (c : Option UInt8) : StreamBuffer :=
  let data := b.out ++ c.toList
  let b := { b with out := [] }
  if data.length = 0 then b
  else
    let (seg, b) := b.mark data.length c.isNone
    if b.skip then b else b.transmit seg data

/-- `StreamBuffer::sync`. -/
def sync (b : StreamBuffer) : StreamBuffer := b.overflow none

/-- `std::streambuf::sputc`. -/
def sputc (b : StreamBuffer) (c : UInt8) : StreamBuffer :=
  if b.out.length + 1 < b.bufferSize then { b with out := b.out ++ [c] } else b.overflow (some c)

/-- `std::streambuf::sputn`. -/
def sputn (b : StreamBuffer) (cs : Bytes) : StreamBuffer := cs.foldl sputc b

/-- `operator<<(TCPConnection&, const Bundle&)`: the serializer writes the bundle in pieces, then the
stream is flushed. -/
def sendBundle (b : StreamBuffer) (pieces : List Bytes) : StreamBuffer :=
  (pieces.foldl sputn b).sync

/-- The segments that are sent for each bundle of a sequence. -/
def segmentsOf (b : StreamBuffer) : List (List Bytes) → List (List (StreamDataSegment × Bytes))
  | [] => []
  | bundle :: bundles =>
      (b.sendBundle bundle).sent.drop b.sent.length :: segmentsOf (b.sendBundle bundle) bundles

/-! ### Filling the put area -/

/-- Data segments on the wire. -/
def parts : PutArea.Parts UInt8 (StreamDataSegment × Bytes) where
  part isBegin isEnd data :=
    (StreamDataSegment.data (UInt64.ofNat data.length) isBegin isEnd, data)
  start p := p.1.isBegin
  final p := p.1.isEnd
  data := Prod.snd
  start_part s f _ := StreamDataSegment.isBegin_data _ s f
  final_part s f _ := StreamDataSegment.isEnd_data _ s f
  data_part _ _ _ := rfl

/-- A buffer between two bundles: the put area is empty and nothing is skipped. -/
structure Idle (b : StreamBuffer) : Prop where
  out_eq : b.out = []
  skip_eq : b.skip = false

/-- The buffer `b` sent the segments of the abstract area `a` since it was `b₀`. -/
structure Sends (b₀ b : StreamBuffer) (a : PutArea UInt8) : Prop where
  bufferSize_eq : b.bufferSize = b₀.bufferSize
  skip_eq : b.skip = false
  sob_eq : b.sob = (b₀.sob && a.segments.isEmpty)
  out_eq : b.out = a.pending
  sent_eq : b.sent = b₀.sent ++ parts.opened b₀.sob a.segments

theorem mark_eq (b : StreamBuffer) (size : ℕ) (isEnd : Bool) :
    b.mark size isEnd = (StreamDataSegment.data (UInt64.ofNat size) b.sob isEnd,
      { b with sob := isEnd, skip := b.skip && !b.sob }) := by
  obtain ⟨_, _, _, sob, skip, _, _, _, _, _⟩ := b
  cases sob <;> cases skip <;> cases isEnd <;> rfl

theorem transmit_sent (b : StreamBuffer) (seg : StreamDataSegment) (data : Bytes) :
    (b.transmit seg data).sent = b.sent ++ [(seg, data)] := by
  rw [transmit]
  split_ifs <;> rfl

theorem transmit_out (b : StreamBuffer) (seg : StreamDataSegment) (data : Bytes) :
    (b.transmit seg data).out = b.out ∧ (b.transmit seg data).sob = b.sob ∧
      (b.transmit seg data).skip = b.skip ∧ (b.transmit seg data).bufferSize = b.bufferSize := by
  rw [transmit]
  split_ifs <;> exact ⟨rfl, rfl, rfl, rfl⟩

/-- What an overflow does to a buffer that skips nothing. -/
theorem overflow_eq (b : StreamBuffer) (hskip : b.skip = false) (c : Option UInt8)
    (hne : b.out ++ c.toList ≠ []) :
    (b.overflow c).sent = b.sent ++ [parts.part b.sob c.isNone (b.out ++ c.toList)] ∧
      (b.overflow c).out = [] ∧ (b.overflow c).skip = false ∧ (b.overflow c).sob = c.isNone ∧
      (b.overflow c).bufferSize = b.bufferSize := by
  have hlen : ¬ (b.out ++ c.toList).length = 0 := by
    rw [List.length_eq_zero_iff]
    exact hne
  rw [overflow, if_neg hlen]
  simp only [mark_eq, hskip, Bool.false_and, Bool.false_eq_true, if_false, transmit_sent,
    transmit_out, parts, and_self]

theorem sends_refl {b : StreamBuffer} (h : b.Idle) : Sends b b PutArea.empty :=
  ⟨rfl, h.skip_eq, by simp [PutArea.empty], h.out_eq, by simp [PutArea.Parts.opened, PutArea.empty]⟩

/-- **Writing a character follows the abstract area.** -/
theorem Sends.sputc {b₀ b : StreamBuffer} {a : PutArea UInt8} (h : Sends b₀ b a) (c : UInt8) :
    Sends b₀ (b.sputc c) (PutArea.put b₀.bufferSize a c) := by
  have hroom : b.out.length + 1 < b.bufferSize ↔ a.pending.length + 1 < b₀.bufferSize := by
    rw [h.out_eq, h.bufferSize_eq]
  rw [StreamBuffer.sputc, PutArea.put]
  by_cases hlt : a.pending.length + 1 < b₀.bufferSize
  · rw [if_pos (hroom.2 hlt), if_pos hlt]
    exact ⟨h.bufferSize_eq, h.skip_eq, h.sob_eq, congrArg (· ++ [c]) h.out_eq, h.sent_eq⟩
  · rw [if_neg (mt hroom.1 hlt), if_neg hlt]
    obtain ⟨hsent, hout, hskip, hsob, hsize⟩ := overflow_eq b h.skip_eq (some c) (by simp)
    refine ⟨hsize.trans h.bufferSize_eq, hskip, ?_, hout, ?_⟩
    · rw [hsob]
      simp
    · rw [hsent, PutArea.Parts.opened_concat, h.sent_eq, h.sob_eq, h.out_eq, List.append_assoc]
      rfl

theorem Sends.sputn {b₀ b : StreamBuffer} {a : PutArea UInt8} (h : Sends b₀ b a) (cs : Bytes) :
    Sends b₀ (b.sputn cs) (PutArea.write b₀.bufferSize a cs) := by
  induction cs generalizing b a with
  | nil => exact h
  | cons c cs ih => exact ih (h.sputc c)

/-- **The pieces that a bundle is written in do not matter.** -/
theorem Sends.pieces {b₀ b : StreamBuffer} {a : PutArea UInt8} (h : Sends b₀ b a)
    (pieces : List Bytes) :
    Sends b₀ (pieces.foldl StreamBuffer.sputn b)
      (PutArea.write b₀.bufferSize a pieces.flatten) := by
  induction pieces generalizing b a with
  | nil => exact h
  | cons piece pieces ih =>
      rw [List.foldl_cons, List.flatten_cons, PutArea.write_append]
      exact ih (h.sputn piece)

/-! ### Bundles -/

/-- The abstract area after a bundle was written to it. -/
def areaOf (b : StreamBuffer) (pieces : List Bytes) : PutArea UInt8 :=
  PutArea.write b.bufferSize PutArea.empty pieces.flatten

/-- **What a bundle sends and leaves behind**: segments that are no last ones, and, if something is
left for the flush, the last one; otherwise the next bundle does not start with a start mark. -/
theorem sendBundle_eq {b : StreamBuffer} (h : b.Idle) (pieces : List Bytes) :
    (b.sendBundle pieces).Idle ∧ (b.sendBundle pieces).bufferSize = b.bufferSize ∧
      (b.sendBundle pieces).sent = b.sent ++
        (parts.opened b.sob (b.areaOf pieces).segments ++
          if (b.areaOf pieces).pending = [] then []
          else [parts.part (b.sob && (b.areaOf pieces).segments.isEmpty) true
            (b.areaOf pieces).pending]) ∧
      (b.sendBundle pieces).sob =
        if (b.areaOf pieces).pending = [] then b.sob && (b.areaOf pieces).segments.isEmpty
        else true := by
  have hsends := (sends_refl h).pieces pieces
  rw [sendBundle, sync]
  change Sends b _ (b.areaOf pieces) at hsends
  generalize pieces.foldl sputn b = b' at hsends
  by_cases hpending : (b.areaOf pieces).pending = []
  · have hout : b'.out = [] := hsends.out_eq.trans hpending
    have hover : b'.overflow none = { b' with out := [] } := by
      rw [overflow, if_pos]
      rw [hout]
      rfl
    rw [hover, if_pos hpending, if_pos hpending, List.append_nil]
    exact ⟨⟨rfl, hsends.skip_eq⟩, hsends.bufferSize_eq, hsends.sent_eq, hsends.sob_eq⟩
  · obtain ⟨hsent, hout, hskip, hsob, hsize⟩ := overflow_eq b' hsends.skip_eq none (by
      rw [hsends.out_eq, Option.toList_none, List.append_nil]
      exact hpending)
    rw [if_neg hpending, if_neg hpending]
    refine ⟨⟨hout, hskip⟩, hsize.trans hsends.bufferSize_eq, ?_, hsob⟩
    rw [hsent, hsends.sent_eq, hsends.sob_eq, hsends.out_eq, Option.toList_none, List.append_nil,
      List.append_assoc]
    rfl

/-- A bundle of which nothing is left for the flush is not framed, whatever was sent before it. -/
theorem not_framed_of_dvd {b : StreamBuffer} (h : b.Idle) (hsize : 0 < b.bufferSize)
    {pieces : List Bytes} (hdvd : b.bufferSize ∣ pieces.flatten.length) :
    ¬ parts.Framed ((b.sendBundle pieces).sent.drop b.sent.length) pieces.flatten := by
  obtain ⟨-, -, hsent, -⟩ := sendBundle_eq h pieces
  have hpending : (b.areaOf pieces).pending = [] :=
    (PutArea.filled_write hsize pieces.flatten).pending_eq_nil_iff.2 hdvd
  rw [hsent, List.drop_left, if_pos hpending, List.append_nil]
  exact parts.not_framed_opened _ _ _

/-- A bundle of which something is left for the flush is framed, behind another one of that kind. -/
theorem framed_of_not_dvd {b : StreamBuffer} (h : b.Idle) (hsize : 0 < b.bufferSize)
    (hsob : b.sob = true) {pieces : List Bytes}
    (hdvd : ¬ b.bufferSize ∣ pieces.flatten.length) :
    parts.Framed ((b.sendBundle pieces).sent.drop b.sent.length) pieces.flatten ∧
      (b.sendBundle pieces).sob = true := by
  obtain ⟨-, -, hsent, hsob'⟩ := sendBundle_eq h pieces
  have hfilled := PutArea.filled_write hsize pieces.flatten
  have hpending : (b.areaOf pieces).pending ≠ [] := mt hfilled.pending_eq_nil_iff.1 hdvd
  rw [if_neg hpending] at hsob' hsent
  refine ⟨?_, hsob'⟩
  rw [hsent, List.drop_left, hsob, Bool.true_and]
  rw [← hfilled.flatten_eq]
  exact parts.framed_of_flush _ _

/-- **The segments of all bundles are framed exactly when no bundle has a length that the buffer
size divides**, for every sequence of bundles and all pieces that they are written in. -/
theorem framed_segmentsOf_iff {bufferSize : ℕ} (hsize : 0 < bufferSize) (ack nack : Bool)
    (bundles : List (List Bytes)) :
    List.Forall₂ (fun pieces segs => parts.Framed segs pieces.flatten) bundles
        ((create bufferSize ack nack).segmentsOf bundles) ↔
      ∀ pieces ∈ bundles, ¬ bufferSize ∣ pieces.flatten.length := by
  have hrun (b : StreamBuffer) (h : b.Idle) (hb : b.bufferSize = bufferSize)
      (hsob : b.sob = true) :
      List.Forall₂ (fun pieces segs => parts.Framed segs pieces.flatten) bundles
          (b.segmentsOf bundles) ↔
        ∀ pieces ∈ bundles, ¬ bufferSize ∣ pieces.flatten.length := by
    induction bundles generalizing b with
    | nil => simp [segmentsOf]
    | cons pieces bundles ih =>
        obtain ⟨hidle, hb', -, -⟩ := sendBundle_eq h pieces
        rw [segmentsOf, List.forall₂_cons, List.forall_mem_cons]
        by_cases hdvd : bufferSize ∣ pieces.flatten.length
        · have hnot := not_framed_of_dvd h (hb ▸ hsize) (hb ▸ hdvd)
          exact iff_of_false (fun h => hnot h.1) (fun h => h.1 hdvd)
        · obtain ⟨hframed, hsob'⟩ := framed_of_not_dvd h (hb ▸ hsize) hsob (hb ▸ hdvd)
          simp only [hframed, hdvd, not_false_eq_true, true_and]
          exact ih _ hidle (hb'.trans hb) hsob'
  exact hrun _ ⟨rfl, rfl⟩ rfl rfl

theorem framed_segmentsOf_sample :
    List.Forall₂ (fun pieces segs => parts.Framed segs pieces.flatten) [[[1], [2, 3]], [[4, 5]]]
      ((create 4 true true).segmentsOf [[[1], [2, 3]], [[4, 5]]]) :=
  (framed_segmentsOf_iff (by decide) true true _).2 (by decide)

/-- **A bundle that fills the buffer has no last segment**, and the one behind it no first. -/
theorem not_framed_segmentsOf_full :
    (create 4 true true).segmentsOf [[[1, 2, 3, 4]], [[5]]] =
        [[parts.part true false [1, 2, 3, 4]], [parts.part false true [5]]] ∧
      ¬ parts.Framed [parts.part true false [1, 2, 3, 4]] [1, 2, 3, 4] ∧
      ¬ parts.Framed [parts.part false true [5]] [5] := by
  refine ⟨by decide, fun h => ?_, fun h => ?_⟩
  · exact absurd ((h.2.1 0 Nat.one_pos).2.2 rfl) (by decide)
  · exact absurd ((h.2.1 0 Nat.one_pos).1.2 rfl) (by decide)

end StreamBuffer

end IbrDtn
