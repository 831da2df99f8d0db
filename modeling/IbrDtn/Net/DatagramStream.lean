import IbrDtn.Data.Sdnv
import IbrDtn.Library.PutArea

/-!
# Datagram streams

This file models `DatagramConnection::Stream` of `daemon/src/net/DatagramConnection.cpp`.  The
writing half cuts bundles into datagrams with marks and sequence numbers; the reading half takes
one datagram at a time, and aborts for good when a mark or a number is not the expected one.  The
thread that hands a datagram over waits until the reader emptied the buffer.

The last mark is not sent when nothing is left for `sync`, so the reading half follows the writing
half exactly when no bundle has a length that the size of a datagram divides.

## Main definitions

* `Datagram`, `DatagramStream` : the data types.
* `DatagramStream.overflow`, `DatagramStream.sync` : the writing half.
* `DatagramStream.queue`, `DatagramStream.underflow` : the reading half, with the steps of its two
  threads (`DatagramStream.Run`).

## Main results

* `DatagramStream.Run.follows` : what the reading half has done with a numbered sequence of
  datagrams that it accepts.
* `DatagramStream.transfers_iff` : which sequences of bundles are transferred.
-/

namespace IbrDtn

/-- A datagram: what `stream_send` is given. -/
structure Datagram where
  flags : UInt8
  seqno : ℕ
  data : Bytes
deriving DecidableEq, Repr

namespace Datagram

/-- The bits of `HEADER_FLAGS`. -/
def segmentFirst : UInt8 := 0x02
def segmentLast : UInt8 := 0x01
def segmentMiddle : UInt8 := 0x00

/-- `flags & SEGMENT_FIRST`. -/
def isFirst (flags : UInt8) : Bool := flags &&& segmentFirst != 0

/-- `flags & SEGMENT_LAST`. -/
def isLast (flags : UInt8) : Bool := flags &&& segmentLast != 0

/-- The flags of a datagram. -/
def marks (first last : Bool) : UInt8 :=
  (if first then segmentFirst else segmentMiddle) ||| (if last then segmentLast else 0)

theorem isFirst_marks : ∀ s f : Bool, isFirst (marks s f) = s := by decide

theorem isLast_marks : ∀ s f : Bool, isLast (marks s f) = f := by decide

end Datagram

/-- `class DatagramConnection::Stream`: `_queue_buf` up to `_queue_buf_len`, the characters of the
put area, the datagrams that were sent, the bytes that `underflow` handed to the reader, and the
data with which a thread waits in `queue` for the buffer. -/
structure DatagramStream where
  bufSize : ℕ
  maxseqno : ℕ
  inState : UInt8
  outState : UInt8
  queueBuf : Bytes
  outBuf : Bytes
  inSeqNum : ℕ
  outSeqNum : ℕ
  abort : Bool
  sent : List Datagram
  received : Bytes
  waiting : Option Bytes
deriving DecidableEq, Repr

namespace DatagramStream

open Datagram

/-- `Stream::Stream`. -/
def create (maxmsglen maxseqno : ℕ) : DatagramStream :=
  ⟨maxmsglen, maxseqno, segmentFirst, segmentFirst, [], [], 0, 0, false, [], [], none⟩

/-! ### The writing half -/

/-- `Stream::overflow`, on a stream that is not aborted, with a character or with the end of the
file. -/
def overflow (s : DatagramStream) (c : Option UInt8) : DatagramStream :=
  let data := s.outBuf ++ c.toList
  let s := { s with outBuf := [] }
  if data.length = 0 then s
  else { s with
    sent := s.sent ++ [⟨s.outState, s.outSeqNum, data⟩]
    outSeqNum := (s.outSeqNum + 1) % s.maxseqno
    outState := segmentMiddle }

/-- `Stream::sync`. -/
def sync (s : DatagramStream) : DatagramStream :=
  let s := { s with outState := s.outState ||| segmentLast }
  { s.overflow none with outState := segmentFirst }

/-- `std::streambuf::sputc`. -/
def sputc (s : DatagramStream) (c : UInt8) : DatagramStream :=
  if s.outBuf.length + 1 < s.bufSize then { s with outBuf := s.outBuf ++ [c] }
  else s.overflow (some c)

/-- `std::streambuf::sputn`. -/
def sputn (s : DatagramStream) (cs : Bytes) : DatagramStream := cs.foldl sputc s

/-- `serializer << bundle; _stream.flush()`, for a bundle that is written in pieces. -/
def sendBundle (s : DatagramStream) (pieces : List Bytes) : DatagramStream :=
  (pieces.foldl sputn s).sync

/-- The datagrams that are sent for each bundle of a sequence. -/
def datagramsOf (s : DatagramStream) : List (List Bytes) → List (List Datagram)
  | [] => []
  | bundle :: bundles =>
      (s.sendBundle bundle).sent.drop s.sent.length :: datagramsOf (s.sendBundle bundle) bundles

/-! ### The reading half -/

/-- How a call of `queue` ends. -/
inductive QueueOutcome where
  | accepted
  | dropped
  | thrown (what : String)
deriving DecidableEq, Repr

/-- `Stream::queue` up to the wait for the buffer. -/
def queue (s : DatagramStream) (d : Datagram) : QueueOutcome × DatagramStream :=
  if s.abort then (.thrown "stream aborted", s)
  else if s.inSeqNum ≠ d.seqno then
    (if isFirst d.flags then .thrown "out of bound exception - re-initiate the connection"
      else .dropped, { s with abort := true })
  else if isFirst s.inState && !isFirst d.flags then (.dropped, { s with abort := true })
  else if s.inState == segmentMiddle && isFirst d.flags then (.dropped, { s with abort := true })
  else
    (.accepted, { s with
      inState := if isLast d.flags then segmentFirst else segmentMiddle
      inSeqNum := (s.inSeqNum + 1) % s.maxseqno
      waiting := some d.data })

/-- `Stream::queue` behind the wait: the data is copied to the buffer. -/
def store (s : DatagramStream) (data : Bytes) : DatagramStream :=
  { s with queueBuf := data, waiting := none }

/-- `Stream::underflow`, for a buffer that is not empty. -/
def underflow (s : DatagramStream) : DatagramStream :=
  { s with received := s.received ++ s.queueBuf, queueBuf := [] }

/-- The steps of the two threads on the reading half: a datagram is handed over by the thread that
receives, which then waits for the buffer, and the buffer is emptied by the thread that reads. -/
inductive Step : DatagramStream → Option Datagram → DatagramStream → Prop where
  | queue {s : DatagramStream} (d : Datagram) (h : s.waiting = none) :
      Step s (some d) (s.queue d).2
  | store {s : DatagramStream} {data : Bytes} (h : s.waiting = some data)
      (hfree : s.queueBuf = []) : Step s none (s.store data)
  | underflow {s : DatagramStream} (h : s.queueBuf ≠ []) : Step s none s.underflow

/-- A run of the reading half, with the datagrams that were handed over in it. -/
inductive Run : DatagramStream → List Datagram → DatagramStream → Prop where
  | refl (s : DatagramStream) : Run s [] s
  | handed {s s' s'' : DatagramStream} {ds : List Datagram} {d : Datagram} (h : Run s ds s')
      (hstep : Step s' (some d) s'') : Run s (ds ++ [d]) s''
  | silent {s s' s'' : DatagramStream} {ds : List Datagram} (h : Run s ds s')
      (hstep : Step s' none s'') : Run s ds s''

/-! ### Filling the put area -/

/-- Flags and data of datagrams. -/
def parts : PutArea.Parts UInt8 (UInt8 × Bytes) where
  part first last data := (marks first last, data)
  start p := isFirst p.1
  final p := isLast p.1
  data := Prod.snd
  start_part s f _ := isFirst_marks s f
  final_part s f _ := isLast_marks s f
  data_part _ _ _ := rfl

/-- A datagram without its sequence number. -/
def part (d : Datagram) : UInt8 × Bytes := (d.flags, d.data)

/-- A stream between two bundles, whose datagrams were numbered one after the other. -/
structure Idle (s : DatagramStream) : Prop where
  outBuf_eq : s.outBuf = []
  outState_eq : s.outState = segmentFirst
  numbered : s.sent.map Datagram.seqno = (List.range s.sent.length).map (· % s.maxseqno)
  outSeqNum_eq : s.outSeqNum = s.sent.length % s.maxseqno

/-- The stream `s` sent the segments of the abstract area `a` since it was `s₀`. -/
structure Sends (s₀ s : DatagramStream) (a : PutArea UInt8) : Prop where
  bufSize_eq : s.bufSize = s₀.bufSize
  maxseqno_eq : s.maxseqno = s₀.maxseqno
  outState_eq : s.outState = marks a.segments.isEmpty false
  outBuf_eq : s.outBuf = a.pending
  sent_prefix : s₀.sent <+: s.sent
  sent_eq : s.sent.map part = s₀.sent.map part ++ parts.opened true a.segments
  numbered : s.sent.map Datagram.seqno = (List.range s.sent.length).map (· % s₀.maxseqno)
  outSeqNum_eq : s.outSeqNum = s.sent.length % s₀.maxseqno

theorem numbered_concat {n : ℕ} {ds : List Datagram} {d : Datagram}
    (h : ds.map Datagram.seqno = (List.range ds.length).map (· % n))
    (hd : d.seqno = ds.length % n) :
    (ds ++ [d]).map Datagram.seqno = (List.range (ds ++ [d]).length).map (· % n) := by
  rw [List.map_append, h, List.length_append, List.length_singleton, List.range_succ,
    List.map_append, List.map_singleton, List.map_singleton, hd]

/-- What an overflow does. -/
theorem overflow_eq (s : DatagramStream) (c : Option UInt8) (hne : s.outBuf ++ c.toList ≠ []) :
    s.overflow c = { s with
      outBuf := []
      sent := s.sent ++ [⟨s.outState, s.outSeqNum, s.outBuf ++ c.toList⟩]
      outSeqNum := (s.outSeqNum + 1) % s.maxseqno
      outState := segmentMiddle } := by
  rw [overflow, if_neg]
  rw [List.length_eq_zero_iff]
  exact hne

/-- An overflow of nothing. -/
theorem overflow_of_eq_nil (s : DatagramStream) (c : Option UInt8)
    (h : s.outBuf ++ c.toList = []) : s.overflow c = { s with outBuf := [] } := by
  rw [overflow, if_pos]
  rw [h]
  rfl

theorem sends_refl {s : DatagramStream} (h : s.Idle) : Sends s s PutArea.empty :=
  ⟨rfl, rfl, h.outState_eq, h.outBuf_eq, List.prefix_rfl, (List.append_nil _).symm, h.numbered,
    h.outSeqNum_eq⟩

/-- **Writing a character follows the abstract area.** -/
theorem Sends.sputc {s₀ s : DatagramStream} {a : PutArea UInt8} (h : Sends s₀ s a) (c : UInt8) :
    Sends s₀ (s.sputc c) (PutArea.put s₀.bufSize a c) := by
  have hroom : s.outBuf.length + 1 < s.bufSize ↔ a.pending.length + 1 < s₀.bufSize := by
    rw [h.outBuf_eq, h.bufSize_eq]
  rw [DatagramStream.sputc, PutArea.put]
  by_cases hlt : a.pending.length + 1 < s₀.bufSize
  · rw [if_pos (hroom.2 hlt), if_pos hlt]
    exact ⟨h.bufSize_eq, h.maxseqno_eq, h.outState_eq, congrArg (· ++ [c]) h.outBuf_eq,
      h.sent_prefix, h.sent_eq, h.numbered, h.outSeqNum_eq⟩
  · rw [if_neg (mt hroom.1 hlt), if_neg hlt, overflow_eq s (some c) (by simp)]
    refine ⟨h.bufSize_eq, h.maxseqno_eq, by simp [marks], rfl,
      h.sent_prefix.trans (List.prefix_append _ _), ?_,
      numbered_concat h.numbered h.outSeqNum_eq, ?_⟩
    · rw [PutArea.Parts.opened_concat, ← List.append_assoc, ← h.sent_eq, List.map_append,
        List.map_singleton, part, h.outState_eq, h.outBuf_eq]
      rfl
    · simp only [h.outSeqNum_eq, h.maxseqno_eq, List.length_append, List.length_singleton,
        Nat.mod_add_mod]

theorem Sends.sputn {s₀ s : DatagramStream} {a : PutArea UInt8} (h : Sends s₀ s a) (cs : Bytes) :
    Sends s₀ (s.sputn cs) (PutArea.write s₀.bufSize a cs) := by
  induction cs generalizing s a with
  | nil => exact h
  | cons c cs ih => exact ih (h.sputc c)

/-- **The pieces that a bundle is written in do not matter.** -/
theorem Sends.pieces {s₀ s : DatagramStream} {a : PutArea UInt8} (h : Sends s₀ s a)
    (pieces : List Bytes) :
    Sends s₀ (pieces.foldl DatagramStream.sputn s)
      (PutArea.write s₀.bufSize a pieces.flatten) := by
  induction pieces generalizing s a with
  | nil => exact h
  | cons piece pieces ih =>
      rw [List.foldl_cons, List.flatten_cons, PutArea.write_append]
      exact ih (h.sputn piece)

/-- The abstract area after a bundle was written to it. -/
def areaOf (s : DatagramStream) (pieces : List Bytes) : PutArea UInt8 :=
  PutArea.write s.bufSize PutArea.empty pieces.flatten

/-- **What a bundle sends and leaves behind**: datagrams that are no last ones, and, if something is
left for the flush, the last one. The next bundle starts with a first one in any case. -/
theorem sendBundle_eq {s : DatagramStream} (h : s.Idle) (pieces : List Bytes) :
    (s.sendBundle pieces).Idle ∧ (s.sendBundle pieces).bufSize = s.bufSize ∧
      (s.sendBundle pieces).maxseqno = s.maxseqno ∧ s.sent <+: (s.sendBundle pieces).sent ∧
      (s.sendBundle pieces).sent.map part = s.sent.map part ++
        (parts.opened true (s.areaOf pieces).segments ++
          if (s.areaOf pieces).pending = [] then []
          else [parts.part (s.areaOf pieces).segments.isEmpty true (s.areaOf pieces).pending]) := by
  have hsends := (sends_refl h).pieces pieces
  rw [sendBundle, sync]
  change Sends s _ (s.areaOf pieces) at hsends
  generalize pieces.foldl sputn s = s' at hsends
  by_cases hpending : (s.areaOf pieces).pending = []
  · have hnil : s'.outBuf ++ (none : Option UInt8).toList = [] := by
      rw [hsends.outBuf_eq, hpending]
      rfl
    rw [overflow_of_eq_nil { s' with outState := s'.outState ||| segmentLast } none hnil,
      if_pos hpending, List.append_nil]
    exact ⟨⟨rfl, rfl, hsends.maxseqno_eq ▸ hsends.numbered,
      hsends.maxseqno_eq ▸ hsends.outSeqNum_eq⟩, hsends.bufSize_eq, hsends.maxseqno_eq,
      hsends.sent_prefix, hsends.sent_eq⟩
  · have hne : s'.outBuf ++ (none : Option UInt8).toList ≠ [] := by
      rw [hsends.outBuf_eq, Option.toList_none, List.append_nil]
      exact hpending
    rw [overflow_eq { s' with outState := s'.outState ||| segmentLast } none hne,
      if_neg hpending]
    refine ⟨⟨rfl, rfl, ?_, ?_⟩, hsends.bufSize_eq, hsends.maxseqno_eq,
      hsends.sent_prefix.trans (List.prefix_append _ _), ?_⟩
    · simp only [hsends.maxseqno_eq]
      exact numbered_concat hsends.numbered hsends.outSeqNum_eq
    · simp only [hsends.outSeqNum_eq, hsends.maxseqno_eq, List.length_append,
        List.length_singleton, Nat.mod_add_mod]
    · rw [List.map_append, hsends.sent_eq, List.append_assoc, List.map_singleton, part,
        hsends.outState_eq, hsends.outBuf_eq, Option.toList_none, List.append_nil]
      cases (s.areaOf pieces).segments.isEmpty <;> rfl

/-! ### What the reading half accepts -/

/-- The marks of a datagram are the ones that the reading half expects. -/
def expects (inState flags : UInt8) : Bool :=
  !(isFirst inState && !isFirst flags) && !(inState == segmentMiddle && isFirst flags)

/-- The state behind a sequence of marks, if all of them are expected. -/
def followAll : UInt8 → List UInt8 → Option UInt8
  | inState, [] => some inState
  | inState, flags :: rest =>
      if expects inState flags then
        followAll (if isLast flags then segmentFirst else segmentMiddle) rest
      else none

theorem followAll_append (inState : UInt8) (xs ys : List UInt8) :
    followAll inState (xs ++ ys) = (followAll inState xs).bind (followAll · ys) := by
  induction xs generalizing inState with
  | nil => rfl
  | cons flags xs ih =>
      rw [List.cons_append, followAll, followAll]
      by_cases h : expects inState flags = true
      · rw [if_pos h, if_pos h]
        exact ih _
      · rw [if_neg h, if_neg h]
        rfl

theorem isSome_followAll_left {inState : UInt8} {ds es : List Datagram}
    (h : (followAll inState ((ds ++ es).map Datagram.flags)).isSome = true) :
    (followAll inState (ds.map Datagram.flags)).isSome = true := by
  rw [List.map_append, followAll_append] at h
  exact Option.isSome_of_isSome_bind h

theorem queue_of_expects {s : DatagramStream} {d : Datagram} (habort : s.abort = false)
    (hseq : s.inSeqNum = d.seqno) (h : expects s.inState d.flags = true) :
    s.queue d = (.accepted, { s with
      inState := if isLast d.flags then segmentFirst else segmentMiddle
      inSeqNum := (s.inSeqNum + 1) % s.maxseqno
      waiting := some d.data }) := by
  rw [expects, Bool.and_eq_true, Bool.not_eq_true', Bool.not_eq_true'] at h
  rw [queue, habort, if_neg Bool.false_ne_true, if_neg (not_not.2 hseq), h.1,
    if_neg Bool.false_ne_true, h.2, if_neg Bool.false_ne_true]

/-- A segment that a stream does not expect aborts it. -/
theorem queue_of_not_expects {s : DatagramStream} {d : Datagram}
    (habort : s.abort = false) (h : ¬ (s.inSeqNum = d.seqno ∧ expects s.inState d.flags = true)) :
    ∃ o, o ≠ .accepted ∧ s.queue d = (o, { s with abort := true }) := by
  rw [queue, if_neg (Bool.eq_false_iff.1 habort)]
  by_cases hseq : s.inSeqNum = d.seqno
  · rw [if_neg (not_not.2 hseq)]
    have hexpects := fun hexpects => h ⟨hseq, hexpects⟩
    rw [expects, Bool.and_eq_true, Bool.not_eq_true', Bool.not_eq_true'] at hexpects
    by_cases hfirst : (isFirst s.inState && !isFirst d.flags) = true
    · exact ⟨.dropped, nofun, by rw [if_pos hfirst]⟩
    · by_cases hmiddle : (s.inState == segmentMiddle && isFirst d.flags) = true
      · exact ⟨.dropped, nofun, by rw [if_neg hfirst, if_pos hmiddle]⟩
      · exact absurd ⟨Bool.eq_false_iff.2 hfirst, Bool.eq_false_iff.2 hmiddle⟩ hexpects
  · rw [if_pos hseq]
    refine ⟨_, ?_, rfl⟩
    split_ifs <;> nofun

/-- The datagrams have the numbers that a new stream gives. -/
def Numbered (n : ℕ) (ds : List Datagram) : Prop :=
  ds.map Datagram.seqno = (List.range ds.length).map (· % n)

theorem numbered_concat_iff {n : ℕ} {ds : List Datagram} {d : Datagram} :
    Numbered n (ds ++ [d]) ↔ Numbered n ds ∧ d.seqno = ds.length % n := by
  refine ⟨fun h => ?_, fun h => numbered_concat h.1 h.2⟩
  rw [Numbered, List.map_append, List.length_append, List.length_singleton, List.range_succ,
    List.map_append, List.map_singleton, List.map_singleton] at h
  obtain ⟨hds, hd⟩ := List.append_inj' h rfl
  exact ⟨hds, List.singleton_inj.1 hd⟩

theorem Numbered.left {n : ℕ} {ds es : List Datagram} (h : Numbered n (ds ++ es)) :
    Numbered n ds := by
  rw [Numbered, List.map_append, List.length_append, List.range_add, List.map_append] at h
  exact (List.append_inj h (by simp)).1

/-- What a new stream has done when it accepted the datagrams. -/
structure Follows (n : ℕ) (ds : List Datagram) (s : DatagramStream) : Prop where
  maxseqno_eq : s.maxseqno = n
  abort_eq : s.abort = false
  inState_eq : followAll segmentFirst (ds.map Datagram.flags) = some s.inState
  inSeqNum_eq : s.inSeqNum = ds.length % n
  received_eq : s.received ++ s.queueBuf ++ s.waiting.getD [] = ds.flatMap Datagram.data

theorem follows_create (maxmsglen n : ℕ) : Follows n [] (create maxmsglen n) :=
  ⟨rfl, rfl, rfl, (Nat.zero_mod n).symm, rfl⟩

theorem Follows.expects {n : ℕ} {ds : List Datagram} {s : DatagramStream} (h : Follows n ds s)
    {d : Datagram}
    (hmarks : (followAll segmentFirst ((ds ++ [d]).map Datagram.flags)).isSome = true) :
    DatagramStream.expects s.inState d.flags = true := by
  by_contra hne
  rw [List.map_append, List.map_singleton, followAll_append, h.inState_eq, Option.bind_some,
    followAll, if_neg hne] at hmarks
  exact Bool.false_ne_true hmarks

/-- **The next datagram is accepted** if its number and its marks are the expected ones. -/
theorem Follows.queue {n : ℕ} {ds : List Datagram} {s : DatagramStream} (h : Follows n ds s)
    {d : Datagram} (hwaiting : s.waiting = none) (hseq : d.seqno = ds.length % n)
    (hmarks : (followAll segmentFirst ((ds ++ [d]).map Datagram.flags)).isSome = true) :
    (s.queue d).1 = .accepted ∧ Follows n (ds ++ [d]) (s.queue d).2 := by
  have hexpects := h.expects hmarks
  rw [queue_of_expects h.abort_eq (h.inSeqNum_eq.trans hseq.symm) hexpects]
  refine ⟨rfl, h.maxseqno_eq, h.abort_eq, ?_, ?_, ?_⟩
  · rw [List.map_append, List.map_singleton, followAll_append, h.inState_eq, Option.bind_some,
      followAll, if_pos hexpects]
    rfl
  · simp only [h.inSeqNum_eq, h.maxseqno_eq, List.length_append, List.length_singleton,
      Nat.mod_add_mod]
  · have hreceived := h.received_eq
    rw [hwaiting, Option.getD_none, List.append_nil] at hreceived
    rw [Option.getD_some, hreceived, List.flatMap_append, List.flatMap_singleton]

/-- The other steps only move data on. -/
theorem Follows.silent {n : ℕ} {ds : List Datagram} {s s' : DatagramStream} (h : Follows n ds s)
    (hstep : Step s none s') : Follows n ds s' := by
  have hreceived := h.received_eq
  cases hstep with
  | store hwaiting hfree =>
      rw [hwaiting, hfree, List.append_nil, Option.getD_some] at hreceived
      refine ⟨h.maxseqno_eq, h.abort_eq, h.inState_eq, h.inSeqNum_eq, ?_⟩
      rw [DatagramStream.store, Option.getD_none, List.append_nil]
      exact hreceived
  | underflow hne =>
      refine ⟨h.maxseqno_eq, h.abort_eq, h.inState_eq, h.inSeqNum_eq, ?_⟩
      rw [DatagramStream.underflow, List.append_nil]
      exact hreceived

/-- **The reading half follows a numbered sequence of datagrams with expected marks**, however its
two threads interleave. -/
theorem Run.follows {n : ℕ} {ds : List Datagram} {s₀ s : DatagramStream} (h : Run s₀ ds s)
    (h₀ : Follows n [] s₀) (hds : Numbered n ds)
    (hmarks : (followAll segmentFirst (ds.map Datagram.flags)).isSome = true) :
    Follows n ds s := by
  induction h with
  | refl => exact h₀
  | @handed s' s'' ds d h hstep ih =>
      obtain ⟨hds, hd⟩ := numbered_concat_iff.1 hds
      cases hstep with
      | queue d hwaiting =>
          exact ((ih hds (isSome_followAll_left hmarks)).queue hwaiting hd hmarks).2
  | silent h hstep ih => exact (ih hds hmarks).silent hstep

/-- **Every such sequence can be handed over** and read. -/
theorem exists_run {s₀ : DatagramStream} (hwaiting : s₀.waiting = none) (hfree : s₀.queueBuf = [])
    {n : ℕ} (h₀ : Follows n [] s₀) {ds : List Datagram} (hds : Numbered n ds)
    (hmarks : (followAll segmentFirst (ds.map Datagram.flags)).isSome = true) :
    ∃ s, Run s₀ ds s ∧ s.waiting = none ∧ s.queueBuf = [] := by
  induction ds using List.reverseRecOn with
  | nil => exact ⟨s₀, .refl s₀, hwaiting, hfree⟩
  | append_singleton ds d ih =>
      obtain ⟨hds', hd⟩ := numbered_concat_iff.1 hds
      have hmarks' := isSome_followAll_left hmarks
      obtain ⟨s, hrun, hwaiting, hfree⟩ := ih hds' hmarks'
      have hqueued := hrun.handed (.queue d hwaiting)
      have hfollows := hrun.follows h₀ hds' hmarks'
      have hexpects := hfollows.expects hmarks
      rw [queue_of_expects hfollows.abort_eq (hfollows.inSeqNum_eq.trans hd.symm) hexpects]
        at hqueued
      have hstored := hqueued.silent (.store rfl hfree)
      by_cases hdata : d.data = []
      · exact ⟨_, hstored, rfl, hdata⟩
      · exact ⟨_, hstored.silent (.underflow hdata), rfl, rfl⟩

/-! ### The marks of the writing half -/

theorem followAll_marks : ∀ s f : Bool,
    followAll (if s then segmentFirst else segmentMiddle) [marks s f] =
      some (if f then segmentFirst else segmentMiddle) := by decide

/-- The segments that overflow lead the reading half from a first to a middle state. -/
theorem followAll_opened (segments : List Bytes) :
    followAll segmentFirst ((parts.opened true segments).map Prod.fst) =
      some (if segments.isEmpty then segmentFirst else segmentMiddle) := by
  induction segments using List.reverseRecOn with
  | nil => rfl
  | append_singleton segments s ih =>
      rw [PutArea.Parts.opened_concat, List.map_append, followAll_append, ih, Option.bind_some]
      refine (followAll_marks segments.isEmpty false).trans ?_
      simp

theorem followAll_framed (segments : List Bytes) (rest : Bytes) :
    followAll segmentFirst ((parts.opened true segments ++
      [parts.part segments.isEmpty true rest]).map Prod.fst) = some segmentFirst := by
  rw [List.map_append, followAll_append, followAll_opened, Option.bind_some]
  exact followAll_marks segments.isEmpty true

section Bundle

variable {s : DatagramStream} (h : s.Idle) (pieces : List Bytes)

include h

/-- The datagrams of a bundle. -/
theorem drop_sendBundle :
    ((s.sendBundle pieces).sent.drop s.sent.length).map part =
        parts.opened true (s.areaOf pieces).segments ++
          (if (s.areaOf pieces).pending = [] then []
          else [parts.part (s.areaOf pieces).segments.isEmpty true (s.areaOf pieces).pending]) ∧
      (s.sendBundle pieces).sent = s.sent ++ (s.sendBundle pieces).sent.drop s.sent.length := by
  obtain ⟨-, -, -, hprefix, hsent⟩ := sendBundle_eq h pieces
  refine ⟨?_, (List.prefix_iff_eq_append.1 hprefix).symm⟩
  rw [List.map_drop, hsent, ← List.length_map part, List.drop_left]

/-- A bundle of which nothing is left for the flush is not framed. -/
theorem not_framed_of_dvd (hsize : 0 < s.bufSize) (hdvd : s.bufSize ∣ pieces.flatten.length) :
    ¬ parts.Framed (((s.sendBundle pieces).sent.drop s.sent.length).map part) pieces.flatten := by
  have hpending : (s.areaOf pieces).pending = [] :=
    (PutArea.filled_write hsize pieces.flatten).pending_eq_nil_iff.2 hdvd
  rw [(drop_sendBundle h pieces).1, if_pos hpending, List.append_nil]
  exact parts.not_framed_opened _ _ _

/-- A bundle of which something is left for the flush is framed, and leads the reading half from a
first state to a first state. -/
theorem framed_of_not_dvd (hsize : 0 < s.bufSize) (hdvd : ¬ s.bufSize ∣ pieces.flatten.length) :
    parts.Framed (((s.sendBundle pieces).sent.drop s.sent.length).map part) pieces.flatten ∧
      followAll segmentFirst
        (((s.sendBundle pieces).sent.drop s.sent.length).map Datagram.flags) =
        some segmentFirst := by
  have hfilled := PutArea.filled_write hsize pieces.flatten
  have hpending : (s.areaOf pieces).pending ≠ [] := mt hfilled.pending_eq_nil_iff.1 hdvd
  have hflags (ds : List Datagram) : ds.map Datagram.flags = (ds.map part).map Prod.fst := by
    rw [List.map_map]
    rfl
  rw [hflags, (drop_sendBundle h pieces).1, if_neg hpending]
  refine ⟨?_, followAll_framed _ _⟩
  rw [← hfilled.flatten_eq]
  exact parts.framed_of_flush _ _

end Bundle

/-! ### Whole transfers -/

theorem sent_foldl_sendBundle {s : DatagramStream} (h : s.Idle) (bundles : List (List Bytes)) :
    (bundles.foldl sendBundle s).Idle ∧ (bundles.foldl sendBundle s).maxseqno = s.maxseqno ∧
      (bundles.foldl sendBundle s).sent = s.sent ++ (s.datagramsOf bundles).flatten := by
  induction bundles generalizing s with
  | nil => exact ⟨h, rfl, (List.append_nil _).symm⟩
  | cons pieces bundles ih =>
      obtain ⟨hidle, -, hmax, -⟩ := sendBundle_eq h pieces
      obtain ⟨hidle', hmax', hsent⟩ := ih hidle
      refine ⟨hidle', hmax'.trans hmax, ?_⟩
      rw [List.foldl_cons, hsent, datagramsOf, List.flatten_cons, ← List.append_assoc,
        ← (drop_sendBundle h pieces).2]

/-- The bundles are transferred to a new stream at the peer: their datagrams are framed; in every
run of the reading half that is handed a part of them, from the first on, nothing is refused; they
can all be handed over; and when they were, the bytes that were read are those of the bundles. -/
structure Transfers (maxmsglen maxseqno : ℕ) (bundles : List (List Bytes)) : Prop where
  framed : List.Forall₂ (fun pieces ds => parts.Framed (ds.map part) pieces.flatten) bundles
    ((create maxmsglen maxseqno).datagramsOf bundles)
  accepted : ∀ ds s, ds <+: ((create maxmsglen maxseqno).datagramsOf bundles).flatten →
    Run (create maxmsglen maxseqno) ds s → s.abort = false
  complete : ∃ s, Run (create maxmsglen maxseqno)
    ((create maxmsglen maxseqno).datagramsOf bundles).flatten s ∧ s.waiting = none ∧
    s.queueBuf = []
  received : ∀ s, Run (create maxmsglen maxseqno)
    ((create maxmsglen maxseqno).datagramsOf bundles).flatten s → s.waiting = none →
    s.queueBuf = [] → s.received = (bundles.map List.flatten).flatten

/-- All bundles are framed exactly when no bundle has a length that the size of a datagram divides;
then their marks lead the reading half from a first state to a first state. -/
theorem framed_datagramsOf_iff {s : DatagramStream} (h : s.Idle) (hsize : 0 < s.bufSize)
    (bundles : List (List Bytes)) :
    (List.Forall₂ (fun pieces ds => parts.Framed (ds.map part) pieces.flatten) bundles
        (s.datagramsOf bundles) ↔ ∀ pieces ∈ bundles, ¬ s.bufSize ∣ pieces.flatten.length) ∧
      ((∀ pieces ∈ bundles, ¬ s.bufSize ∣ pieces.flatten.length) →
        followAll segmentFirst ((s.datagramsOf bundles).flatten.map Datagram.flags) =
          some segmentFirst) := by
  induction bundles generalizing s with
  | nil => simp [datagramsOf, followAll]
  | cons pieces bundles ih =>
      obtain ⟨hidle, hbuf, -⟩ := sendBundle_eq h pieces
      have ih := ih hidle (hbuf ▸ hsize)
      rw [hbuf] at ih
      rw [datagramsOf, List.forall₂_cons, List.forall_mem_cons, List.flatten_cons, List.map_append,
        followAll_append]
      by_cases hdvd : s.bufSize ∣ pieces.flatten.length
      · have hnot := not_framed_of_dvd h pieces hsize hdvd
        exact ⟨iff_of_false (fun h => hnot h.1) (fun h => h.1 hdvd), fun h => absurd hdvd h.1⟩
      · obtain ⟨hframed, hstate⟩ := framed_of_not_dvd h pieces hsize hdvd
        simp only [hframed, hdvd, not_false_eq_true, true_and, hstate, Option.bind_some]
        exact ih

theorem flatMap_data_of_framed {bundles : List (List Bytes)} {dss : List (List Datagram)}
    (h : List.Forall₂ (fun pieces ds => parts.Framed (ds.map part) pieces.flatten) bundles dss) :
    dss.flatten.flatMap Datagram.data = (bundles.map List.flatten).flatten := by
  induction h with
  | nil => rfl
  | @cons pieces ds bundles dss hframed _ ih =>
      have hdata : ds.flatMap Datagram.data = pieces.flatten := by
        rw [← hframed.2.2, List.flatMap_map]
        rfl
      rw [List.flatten_cons, List.flatMap_append, hdata, ih, List.map_cons, List.flatten_cons]

theorem idle_create (maxmsglen maxseqno : ℕ) : (create maxmsglen maxseqno).Idle :=
  ⟨rfl, rfl, rfl, (Nat.zero_mod _).symm⟩

/-- The datagrams of bundles on a new stream are numbered one after the other. -/
theorem numbered_datagramsOf (maxmsglen maxseqno : ℕ) (bundles : List (List Bytes)) :
    Numbered maxseqno ((create maxmsglen maxseqno).datagramsOf bundles).flatten := by
  obtain ⟨hidle, hmax, hsent⟩ := sent_foldl_sendBundle (idle_create maxmsglen maxseqno) bundles
  have hall := hidle.numbered
  rw [hmax, hsent] at hall
  exact hall

/-- **The bundles of a sequence are transferred exactly when none of them has a length that the size
of a datagram divides**, whatever pieces they are written in and however the threads of the
reading half interleave. -/
theorem transfers_iff {maxmsglen : ℕ} (hsize : 0 < maxmsglen) (maxseqno : ℕ)
    (bundles : List (List Bytes)) :
    Transfers maxmsglen maxseqno bundles ↔
      ∀ pieces ∈ bundles, ¬ maxmsglen ∣ pieces.flatten.length := by
  have hidle := idle_create maxmsglen maxseqno
  obtain ⟨hiff, hstate⟩ := framed_datagramsOf_iff hidle hsize bundles
  refine ⟨fun h => hiff.1 h.framed, fun h => ?_⟩
  have hframed := hiff.2 h
  have hmarks := hstate h
  have hnumbered := numbered_datagramsOf maxmsglen maxseqno bundles
  have h₀ : Follows maxseqno [] (create maxmsglen maxseqno) := follows_create _ _
  have hsome : (followAll segmentFirst (((create maxmsglen maxseqno).datagramsOf
      bundles).flatten.map Datagram.flags)).isSome = true := by
    rw [hmarks]
    rfl
  refine ⟨hframed, ?_, exists_run rfl rfl h₀ hnumbered hsome, fun s hrun hwaiting hfree => ?_⟩
  · rintro ds s ⟨rest, hrest⟩ hrun
    rw [← hrest] at hnumbered hsome
    exact (hrun.follows h₀ hnumbered.left (isSome_followAll_left hsome)).abort_eq
  · have hreceived := (hrun.follows h₀ hnumbered hsome).received_eq
    rw [hfree, hwaiting, Option.getD_none, List.append_nil, List.append_nil] at hreceived
    rw [hreceived, flatMap_data_of_framed hframed]

theorem transfers_sample : Transfers 4 8 [[[1], [2, 3]], [[4, 5]]] :=
  (transfers_iff (by decide) 8 _).2 (by decide)

/-- **A bundle that fills a datagram has no last one**, and the first one behind it aborts the
reading half. -/
theorem not_transfers_full :
    (create 4 8).datagramsOf [[[1, 2, 3, 4]], [[5]]] =
        [[⟨segmentFirst, 0, [1, 2, 3, 4]⟩], [⟨segmentFirst ||| segmentLast, 1, [5]⟩]] ∧
      ¬ parts.Framed [(segmentFirst, [1, 2, 3, 4])] [1, 2, 3, 4] ∧
      (((create 4 8).queue ⟨segmentFirst, 0, [1, 2, 3, 4]⟩).2.queue
        ⟨segmentFirst ||| segmentLast, 1, [5]⟩).2.abort = true := by
  refine ⟨by decide, fun h => ?_, by decide⟩
  exact absurd ((h.2.1 0 Nat.one_pos).2.2 rfl) (by decide)

end DatagramStream

end IbrDtn
