import IbrDtn.Library.OrderedSet
import IbrDtn.Data.Eid

/-!
# Streams over bundles

This file models `daemon/src/api/BundleStreamBuf.cpp`.  What is written to the buffer is cut into
bundles with sequence numbers, at the size of the buffer and at a limit for the chunks.  The
reader gets bundles in any order, keeps those with sequence numbers to come, and reads the one with
the next sequence number piece by piece.  A bundle that the callback gives is in the storage, and
nobody else reads its payload.  Sequence numbers are natural numbers here, and of type `size_t` in
the source: the model is that of streams of fewer than `2 ^ 64` chunks.

## Main definitions

* `BundleStreamBuf.Sender` : the members for writing, with `sputc`, `overflow` and `sync`.
* `BundleStreamBuf.Receiver` : the members for reading, with `underflow`.
* `BundleStreamBuf.Reads` : what a reader gets until the end of the stream.

## Main results

* `BundleStreamBuf.reads_send` : the reader gets what was written, whatever the order and the number
  of the bundles that arrive, and every chunk is reported once.
-/

namespace IbrDtn

namespace BundleStreamBuf

/-- `BUFF_SIZE`. -/
def buffSize : ℕ := 5120

theorem buffSize_pos : 0 < buffSize := by decide

/-- What the stream block of a bundle says: the sequence number, `STREAM_BEGIN` and `STREAM_END`. -/
structure StreamInfo where
  seq : ℕ
  streamBegin : Bool
  streamEnd : Bool
deriving DecidableEq

/-- A bundle: its stream block, if it has one, and its payload. -/
structure StreamBundle where
  block : Option StreamInfo
  payload : Bytes
deriving DecidableEq

/-! ### Writing -/

/-- The members for writing: the bytes in front of `pptr()`, `_chunk_payload`, `_out_seq` and
`_first_chunk`; and the bundles that were given to the callback. -/
structure Sender where
  inBuf : Bytes
  chunkPayload : Bytes
  outSeq : ℕ
  firstChunk : Bool
  sent : List StreamBundle

namespace Sender

/-- `BundleStreamBuf::BundleStreamBuf`. -/
def create : Sender := ⟨[], [], 0, true, []⟩

/-- `BundleStreamBuf::flushPayload`. -/
def flushPayload (s : Sender) (final : Bool) : Sender :=
  if s.firstChunk && s.chunkPayload.isEmpty then s
  else { s with
    chunkPayload := []
    outSeq := s.outSeq + 1
    firstChunk := false
    sent := s.sent ++ [⟨some ⟨s.outSeq, s.firstChunk, final⟩, s.chunkPayload⟩] }

/-- `BundleStreamBuf::overflow`, where `none` is `eof()`. -/
def overflow (chunkSize : ℕ) (s : Sender) (c : Option UInt8) : Sender :=
  let data := s.inBuf ++ c.toList
  if data.isEmpty then { s with inBuf := [] }
  else
    let s := { s with inBuf := [], chunkPayload := s.chunkPayload ++ data }
    if s.chunkPayload.length > chunkSize then s.flushPayload false else s

/-- `sputc`: the last place of the buffer is left to `overflow`. -/
def sputc (chunkSize : ℕ) (s : Sender) (c : UInt8) : Sender :=
  if s.inBuf.length < buffSize - 1 then { s with inBuf := s.inBuf ++ [c] }
  else s.overflow chunkSize (some c)

/-- A piece is written. -/
def write (chunkSize : ℕ) (s : Sender) (piece : Bytes) : Sender := piece.foldl (sputc chunkSize) s

/-- `BundleStreamBuf::sync`. -/
def sync (chunkSize : ℕ) (s : Sender) : Sender := (s.overflow chunkSize none).flushPayload true

/-- The bundles for a stream that is written in pieces and flushed. -/
def send (chunkSize : ℕ) (pieces : List Bytes) : List StreamBundle :=
  ((pieces.foldl (write chunkSize) create).sync chunkSize).sent

end Sender

/-! ### Reading -/

/-- `class BundleStreamBuf::Chunk`. -/
structure Chunk where
  bundle : StreamBundle
  seq : ℕ
  first : Bool
  last : Bool
deriving DecidableEq

/-- `Chunk::Chunk`. -/
def Chunk.ofBundle (b : StreamBundle) : Chunk :=
  match b.block with
  | some i => ⟨b, i.seq, i.streamBegin, i.streamEnd⟩
  | none => ⟨b, 0, false, false⟩

/-- `Chunk::operator<`, on the sequence numbers. -/
def seqLt (a b : ℕ) : Bool := decide (a < b)

/-- What `_callback.get` gives: a bundle or an exception, and what the stop watch shows then. -/
structure Arrival where
  bundle : Option StreamBundle
  seconds : ℕ

/-- The members for reading: `_chunks`, `_chunk_offset`, `_current_bundle`, `_in_seq`, `_streaming`,
`_last_chunk_received` and `_timeout_receive`; and the bundles that were reported as delivered. -/
structure Receiver where
  chunks : List Chunk
  chunkOffset : ℕ
  currentBundle : Option StreamBundle
  inSeq : ℕ
  streaming : Bool
  lastChunkReceived : Bool
  timeoutReceive : ℕ
  delivered : List StreamBundle

/-- Why a call ends without a result: it waits for a bundle, or the callback threw. -/
inductive Stop where
  | waits
  | throws
deriving DecidableEq

namespace Receiver

/-- `BundleStreamBuf::BundleStreamBuf` with `setTimeout`. -/
def create (waitSeqZero : Bool) (timeout : ℕ) : Receiver :=
  ⟨[], 0, none, 0, waitSeqZero, false, timeout, []⟩

/-- A bundle arrives. -/
def accept (r : Receiver) (b : StreamBundle) : Receiver :=
  if (Chunk.ofBundle b).seq ≥ r.inSeq then
    { r with chunks :=
        OrderedSet.insert Chunk.seq seqLt (.ofBundle b) r.chunks }
  else r

/-- The loop that waits for a first chunk. -/
def waitChunk : Receiver → List Arrival → Except Stop (Receiver × List Arrival)
  | r, [] => if r.chunks.isEmpty then .error .waits else .ok (r, [])
  | r, a :: as =>
      if r.chunks.isEmpty then
        match a.bundle with
        | some b => (r.accept b).waitChunk as
        | none => .error .throws
      else .ok (r, a :: as)

/-- The first chunk has the next sequence number. -/
def ready (r : Receiver) : Bool := r.chunks.head?.any fun c => r.inSeq == c.seq

/-- Behind an arrival, missing bundles are skipped when the time is over, or at the beginning. -/
def skip (r : Receiver) (seconds : ℕ) : Receiver :=
  if (r.timeoutReceive > 0 ∧ seconds > r.timeoutReceive) ∨ r.streaming = false then
    match r.chunks with
    | c :: _ => { r with inSeq := c.seq, streaming := true }
    | [] => r
  else r

/-- The loop that waits for the chunk with the next sequence number. -/
def waitSeq : Receiver → List Arrival → Except Stop (Receiver × List Arrival)
  | r, [] => if r.ready then .ok (r, []) else .error .waits
  | r, a :: as =>
      if r.ready then .ok (r, a :: as)
      else
        match a.bundle with
        | some b => ((r.accept b).skip a.seconds).waitSeq as
        | none => (r.skip a.seconds).waitSeq as

/-- The bytes that are read from a chunk. -/
def readFrom (r : Receiver) (b : StreamBundle) : Bytes :=
  (b.payload.drop r.chunkOffset).take buffSize

/-- The bundle of the first chunk, which is loaded if it is not the current one. -/
def load (r : Receiver) (c : Chunk) : StreamBundle :=
  match r.currentBundle with
  | some b => if c.bundle ≠ b then c.bundle else b
  | none => c.bundle

/-- The part of `underflow` behind the loops: the bytes that were read from the first chunk. A read
that gets less than it wants comes to the end of the chunk. -/
def readChunk (r : Receiver) (c : Chunk) : Bytes × Receiver :=
  let bundle := r.load c
  let bytes := r.readFrom bundle
  if bytes.length < buffSize then
    (bytes, { r with
      currentBundle := some bundle
      lastChunkReceived := r.lastChunkReceived || c.last
      delivered := r.delivered ++ [c.bundle]
      chunks := OrderedSet.erase Chunk.seq seqLt c.seq r.chunks
      chunkOffset := 0
      inSeq := r.inSeq + 1 })
  else
    (bytes, { r with
      currentBundle := some bundle
      chunkOffset := r.chunkOffset + bytes.length })

/-- `BundleStreamBuf::underflow` up to its recursive call, where `none` is `eof()`. -/
def underflowStep (r : Receiver) (as : List Arrival) :
    Except Stop (Option Bytes × Receiver × List Arrival) :=
  if r.lastChunkReceived then .ok (none, r, as)
  else
    match r.waitChunk as with
    | .error e => .error e
    | .ok (r, as) =>
        match r.waitSeq as with
        | .error e => .error e
        | .ok (r, as) =>
            match r.chunks with
            | c :: _ => .ok (some (r.readChunk c).1, (r.readChunk c).2, as)
            | [] => .error .waits

theorem length_insert_le (c : Chunk) (cs : List Chunk) :
    (OrderedSet.insert Chunk.seq seqLt c cs).length ≤ cs.length + 1 := by
  induction cs with
  | nil => exact Nat.le_refl _
  | cons x cs ih =>
      rw [OrderedSet.insert]
      split_ifs
      · exact Nat.succ_le_succ ih
      · exact Nat.le_refl _
      · exact Nat.le_succ _

theorem length_accept_le (r : Receiver) (b : StreamBundle) :
    (r.accept b).chunks.length ≤ r.chunks.length + 1 := by
  rw [accept]
  split_ifs
  · exact length_insert_le _ _
  · exact Nat.le_succ _

/-- The first chunk is erased, and the ones behind it stay if they have other numbers. -/
theorem erase_head (c : Chunk) (cs : List Chunk) :
    (OrderedSet.erase Chunk.seq seqLt c.seq (c :: cs)).length ≤ cs.length ∧
      ((∀ d ∈ cs, c.seq < d.seq) → OrderedSet.erase Chunk.seq seqLt c.seq (c :: cs) = cs) := by
  have hhead : OrderedSet.erase Chunk.seq seqLt c.seq (c :: cs) =
      OrderedSet.erase Chunk.seq seqLt c.seq cs := by
    rw [OrderedSet.erase, seqLt, decide_eq_false (Nat.lt_irrefl _)]
    rfl
  rw [hhead]
  refine ⟨(OrderedSet.sublist_erase _ _).length_le, fun hcs => ?_⟩
  exact OrderedSet.erase_of_comparable fun d hd => .inr (decide_eq_true (hcs d hd))

theorem skip_chunks (r : Receiver) (seconds : ℕ) : (r.skip seconds).chunks = r.chunks := by
  rw [skip]
  split_ifs
  · rcases hchunks : r.chunks with _ | ⟨c, cs⟩
    · exact hchunks
    · rfl
  · rfl

theorem load_eq (r : Receiver) (c : Chunk) : r.load c = c.bundle := by
  rw [load]
  rcases r.currentBundle with _ | b
  · rfl
  · dsimp only
    split_ifs with hne
    · rfl
    · exact (not_not.1 hne).symm

/-- A chunk that is read to its end is erased. -/
theorem readChunk_of_lt {r : Receiver} {c : Chunk} (h : (r.readFrom c.bundle).length < buffSize) :
    r.readChunk c = (r.readFrom c.bundle, { r with
      currentBundle := some c.bundle
      lastChunkReceived := r.lastChunkReceived || c.last
      delivered := r.delivered ++ [c.bundle]
      chunks := OrderedSet.erase Chunk.seq seqLt c.seq r.chunks
      chunkOffset := 0
      inSeq := r.inSeq + 1 }) := by
  rw [readChunk, load_eq, if_pos h]

/-- Otherwise the offset moves on. -/
theorem readChunk_of_not_lt {r : Receiver} {c : Chunk}
    (h : ¬ (r.readFrom c.bundle).length < buffSize) :
    r.readChunk c = (r.readFrom c.bundle, { r with
      currentBundle := some c.bundle
      chunkOffset := r.chunkOffset + (r.readFrom c.bundle).length }) := by
  rw [readChunk, load_eq, if_neg h]

/-- Waiting for a chunk turns arrivals into chunks. -/
theorem waitChunk_length {r r' : Receiver} {as as' : List Arrival}
    (h : r.waitChunk as = .ok (r', as')) :
    as'.length + r'.chunks.length ≤ as.length + r.chunks.length := by
  induction as generalizing r with
  | nil =>
      rw [waitChunk] at h
      split_ifs at h
      obtain ⟨rfl, rfl⟩ := Prod.mk.inj (Except.ok.inj h)
      exact Nat.le_refl _
  | cons a as ih =>
      rw [waitChunk] at h
      split_ifs at h
      · rcases hbundle : a.bundle with _ | b
        · simp [hbundle] at h
        · simp only [hbundle] at h
          have hlength := length_accept_le r b
          have hrest := ih h
          rw [List.length_cons]
          omega
      · obtain ⟨rfl, rfl⟩ := Prod.mk.inj (Except.ok.inj h)
        exact Nat.le_refl _

/-- Waiting for the next chunk turns arrivals into chunks. -/
theorem waitSeq_length {r r' : Receiver} {as as' : List Arrival}
    (h : r.waitSeq as = .ok (r', as')) :
    as'.length + r'.chunks.length ≤ as.length + r.chunks.length := by
  induction as generalizing r with
  | nil =>
      rw [waitSeq] at h
      split_ifs at h
      obtain ⟨rfl, rfl⟩ := Prod.mk.inj (Except.ok.inj h)
      exact Nat.le_refl _
  | cons a as ih =>
      rw [waitSeq] at h
      split_ifs at h
      · obtain ⟨rfl, rfl⟩ := Prod.mk.inj (Except.ok.inj h)
        exact Nat.le_refl _
      · rcases hbundle : a.bundle with _ | b
        · simp only [hbundle] at h
          have hrest := ih h
          rw [skip_chunks] at hrest
          rw [List.length_cons]
          omega
        · simp only [hbundle] at h
          have hlength := length_accept_le r b
          have hrest := ih h
          rw [skip_chunks] at hrest
          rw [List.length_cons]
          omega

/-- A chunk that gave no bytes is gone. -/
theorem length_lt_of_underflowStep {r r' : Receiver} {as as' : List Arrival}
    (h : r.underflowStep as = .ok (some [], r', as')) :
    as'.length + r'.chunks.length < as.length + r.chunks.length := by
  rw [underflowStep] at h
  split_ifs at h
  · cases h
  · rcases hchunk : r.waitChunk as with e | ⟨r₁, as₁⟩
    · simp [hchunk] at h
    · rcases hseq : r₁.waitSeq as₁ with e | ⟨r₂, as₂⟩
      · simp [hchunk, hseq] at h
      · rcases hchunks : r₂.chunks with _ | ⟨c, cs⟩
        · simp [hchunk, hseq, hchunks] at h
        · simp only [hchunk, hseq, hchunks, Except.ok.injEq, Prod.mk.injEq, Option.some.injEq] at h
          obtain ⟨hbytes, rfl, rfl⟩ := h
          have hlength := waitChunk_length hchunk
          have hlength' := waitSeq_length hseq
          have hgone : (r₂.readChunk c).2.chunks.length ≤ cs.length := by
            by_cases hend : (r₂.readFrom c.bundle).length < buffSize
            · rw [readChunk_of_lt hend, hchunks]
              exact (erase_head c cs).1
            · rw [readChunk_of_not_lt hend] at hbytes
              rw [show r₂.readFrom c.bundle = [] from hbytes] at hend
              exact absurd buffSize_pos hend
          rw [hchunks, List.length_cons] at hlength'
          omega

/-- `BundleStreamBuf::underflow`. -/
def underflow (r : Receiver) (as : List Arrival) :
    Except Stop (Option Bytes × Receiver × List Arrival) :=
  match _h : r.underflowStep as with
  | .ok (some [], r', as') => r'.underflow as'
  | result => result
termination_by as.length + r.chunks.length
decreasing_by exact length_lt_of_underflowStep _h

end Receiver

open Receiver in
/-- What a reader gets until the end of the stream. -/
inductive Reads : Receiver → List Arrival → Bytes → Receiver → List Arrival → Prop where
  | eof {r r' as as'} (h : r.underflow as = .ok (none, r', as')) : Reads r as [] r' as'
  | more {r r' r'' as as' as'' bytes data} (h : r.underflow as = .ok (some bytes, r', as'))
      (hrest : Reads r' as' data r'' as'') : Reads r as (bytes ++ data) r'' as''

/-! ### What is sent -/

/-- **The chunks of a stream**: their payloads together are its bytes, their sequence numbers are
their places, and the flags mark the first and the last one. -/
structure Chunked (bs : List StreamBundle) (data : Bytes) : Prop where
  payload : bs.flatMap StreamBundle.payload = data
  block : ∀ (k : ℕ) (b : StreamBundle), bs[k]? = some b →
    b.block = some ⟨k, decide (k = 0), decide (k + 1 = bs.length)⟩

namespace Sender

/-- The bytes that were written are in the bundles, in `_chunk_payload` and in the buffer. -/
structure Writes (s : Sender) (data : Bytes) : Prop where
  bytes : s.sent.flatMap StreamBundle.payload ++ (s.chunkPayload ++ s.inBuf) = data
  block : ∀ (k : ℕ) (b : StreamBundle), s.sent[k]? = some b →
    b.block = some ⟨k, decide (k = 0), false⟩
  outSeq : s.outSeq = s.sent.length
  firstChunk : s.firstChunk = s.sent.isEmpty

theorem writes_create : create.Writes [] := ⟨rfl, fun _ _ => nofun, rfl, rfl⟩

variable {s : Sender} {data : Bytes}

/-- A place in a list that has become longer. -/
theorem getElem?_concat_cases {α : Type} {l : List α} {a b : α} {k : ℕ}
    (h : (l ++ [a])[k]? = some b) : l[k]? = some b ∨ k = l.length ∧ b = a := by
  rcases Nat.lt_or_ge k l.length with hlt | hge
  · rw [List.getElem?_append_left hlt] at h
    exact .inl h
  · rw [List.getElem?_append_right hge] at h
    have hlt := (List.getElem?_eq_some_iff.1 h).1
    rw [List.length_singleton, Nat.lt_one_iff] at hlt
    rw [hlt] at h
    exact .inr ⟨Nat.le_antisymm (Nat.sub_eq_zero_iff_le.1 hlt) hge, (Option.some.inj h).symm⟩

/-- A bundle is sent. -/
theorem Writes.flushPayload (h : s.Writes data) : (s.flushPayload false).Writes data := by
  rw [Sender.flushPayload]
  split_ifs with hnone
  · exact h
  · refine ⟨?_, fun k b hk => ?_, ?_, ?_⟩
    · rw [List.flatMap_append, List.flatMap_singleton, List.append_assoc, List.nil_append]
      exact h.bytes
    · rcases getElem?_concat_cases hk with hk | ⟨rfl, rfl⟩
      · exact h.block k b hk
      · rw [h.outSeq, h.firstChunk]
        cases s.sent with
        | nil => rfl
        | cons x xs => rfl
    · rw [List.length_append, List.length_singleton, h.outSeq]
    · cases s.sent with
      | nil => rfl
      | cons x xs => rfl

/-- The buffer is emptied. -/
theorem Writes.overflow (h : s.Writes data) (chunkSize : ℕ) (c : Option UInt8) :
    (s.overflow chunkSize c).Writes (data ++ c.toList) := by
  have hmore : Writes { s with inBuf := [], chunkPayload := s.chunkPayload ++ (s.inBuf ++ c.toList) }
      (data ++ c.toList) := by
    refine ⟨?_, h.block, h.outSeq, h.firstChunk⟩
    rw [← h.bytes, List.append_nil, List.append_assoc, List.append_assoc]
  rw [Sender.overflow]
  dsimp only
  split_ifs with hnone hfull
  · obtain ⟨hbuf, hc⟩ := List.append_eq_nil_iff.1 (List.isEmpty_iff.1 hnone)
    rw [hc, List.append_nil]
    refine ⟨?_, h.block, h.outSeq, h.firstChunk⟩
    rw [← h.bytes, hbuf]
  · exact hmore.flushPayload
  · exact hmore

theorem inBuf_overflow (s : Sender) (chunkSize : ℕ) (c : Option UInt8) :
    (s.overflow chunkSize c).inBuf = [] := by
  rw [Sender.overflow]
  dsimp only
  split_ifs
  · rfl
  · rw [Sender.flushPayload]
    split_ifs
    · rfl
    · rfl
  · rfl

/-- A byte is written. -/
theorem Writes.sputc (h : s.Writes data) (chunkSize : ℕ) (c : UInt8) :
    (s.sputc chunkSize c).Writes (data ++ [c]) := by
  rw [Sender.sputc]
  split_ifs
  · refine ⟨?_, h.block, h.outSeq, h.firstChunk⟩
    rw [← h.bytes, List.append_assoc, List.append_assoc]
  · exact h.overflow chunkSize (some c)

/-- A piece is written. -/
theorem Writes.write (h : s.Writes data) (chunkSize : ℕ) (piece : Bytes) :
    (s.write chunkSize piece).Writes (data ++ piece) := by
  induction piece generalizing s data with
  | nil =>
      rw [List.append_nil]
      exact h
  | cons c piece ih =>
      rw [List.append_cons]
      exact ih (h.sputc chunkSize c)

/-- Pieces are written. -/
theorem Writes.foldl_write (h : s.Writes data) (chunkSize : ℕ) (pieces : List Bytes) :
    (pieces.foldl (Sender.write chunkSize) s).Writes (data ++ pieces.flatten) := by
  induction pieces generalizing s data with
  | nil =>
      rw [List.flatten_nil, List.append_nil]
      exact h
  | cons piece pieces ih =>
      rw [List.flatten_cons, ← List.append_assoc]
      exact ih (h.write chunkSize piece)

/-- **The flush sends the rest**, with the mark for the end of the stream. -/
theorem Writes.chunked_sync (h : s.Writes data) (hdata : data ≠ []) (chunkSize : ℕ) :
    Chunked (s.sync chunkSize).sent data := by
  have hflushed := h.overflow chunkSize none
  rw [Option.toList_none, List.append_nil] at hflushed
  have hbuf := inBuf_overflow s chunkSize none
  rw [Sender.sync]
  generalize s.overflow chunkSize none = s' at hflushed hbuf
  have hbytes : s'.sent.flatMap StreamBundle.payload ++ s'.chunkPayload = data := by
    rw [← hflushed.bytes, hbuf, List.append_nil]
  rw [Sender.flushPayload]
  split_ifs with hnone
  · -- Nothing was sent, and nothing is left.
    obtain ⟨hfirst, hpayload⟩ := Bool.and_eq_true_iff.1 hnone
    rw [hflushed.firstChunk, List.isEmpty_iff] at hfirst
    rw [hfirst, List.isEmpty_iff.1 hpayload] at hbytes
    exact absurd hbytes.symm hdata
  · refine ⟨?_, fun k b hk => ?_⟩
    · rw [List.flatMap_append, List.flatMap_singleton]
      exact hbytes
    · change b.block = some ⟨k, _, decide (k + 1 = (s'.sent ++ [_]).length)⟩
      rw [List.length_append, List.length_singleton]
      rcases getElem?_concat_cases hk with hk | ⟨rfl, rfl⟩
      · have hlt := (List.getElem?_eq_some_iff.1 hk).1
        rw [hflushed.block k b hk, decide_eq_false (Nat.ne_of_lt (Nat.succ_lt_succ hlt))]
      · rw [hflushed.outSeq, hflushed.firstChunk, decide_eq_true rfl]
        cases s'.sent with
        | nil => rfl
        | cons x xs => rfl

/-- **What is sent is the stream in chunks.** -/
theorem chunked_send (chunkSize : ℕ) {pieces : List Bytes} (h : pieces.flatten ≠ []) :
    Chunked (send chunkSize pieces) pieces.flatten :=
  (writes_create.foldl_write chunkSize pieces).chunked_sync h chunkSize

end Sender

/-! ### What is read -/

/-- The chunk of the bundle with a sequence number. -/
theorem Chunked.ofBundle_eq {bs : List StreamBundle} {data : Bytes} (h : Chunked bs data) {k : ℕ}
    {b : StreamBundle} (hk : bs[k]? = some b) :
    Chunk.ofBundle b = ⟨b, k, decide (k = 0), decide (k + 1 = bs.length)⟩ := by
  rw [Chunk.ofBundle, h.block k b hk]

/-- The bundles of a stream differ. -/
theorem Chunked.nodup {bs : List StreamBundle} {data : Bytes} (h : Chunked bs data) : bs.Nodup := by
  refine List.nodup_iff_getElem?_ne_getElem?.2 fun i j hij hj heq => ?_
  obtain ⟨b, hb⟩ : ∃ b, bs[j]? = some b := ⟨_, List.getElem?_eq_getElem hj⟩
  have hi := h.ofBundle_eq (heq.trans hb)
  rw [h.ofBundle_eq hb] at hi
  exact Nat.ne_of_gt hij (congrArg Chunk.seq hi)

/-- The bytes that are left. -/
def rest (bs : List StreamBundle) (r : Receiver) : Bytes :=
  ((bs.drop r.inSeq).flatMap StreamBundle.payload).drop r.chunkOffset

/-- **The receiver follows the stream**: every chunk from the next one on is among those that it
keeps or has yet to arrive, and those before were delivered. -/
structure Follows (bs : List StreamBundle) (r : Receiver) (as : List Arrival) : Prop where
  streaming : r.streaming = true
  timeout : r.timeoutReceive = 0
  arrivals : ∀ a ∈ as, ∃ b ∈ bs, a.bundle = some b
  chunks : ∀ c ∈ r.chunks, r.inSeq ≤ c.seq ∧ ∃ b ∈ bs, c = .ofBundle b
  sorted : r.chunks.Pairwise fun c d => seqLt c.seq d.seq = true
  toCome : ∀ (k : ℕ) (b : StreamBundle), r.inSeq ≤ k → bs[k]? = some b →
    .ofBundle b ∈ r.chunks ∨ ∃ a ∈ as, a.bundle = some b
  delivered : r.delivered = bs.take r.inSeq
  last : r.lastChunkReceived = decide (r.inSeq = bs.length)
  inSeq : r.inSeq ≤ bs.length
  offset : ∀ b, bs[r.inSeq]? = some b → r.chunkOffset ≤ b.payload.length

section Follows

variable {bs : List StreamBundle} {data : Bytes} {r : Receiver} {as : List Arrival}
  (hbs : Chunked bs data) (h : Follows bs r as)

include hbs

/-- A bundle arrives. -/
theorem Follows.accept {a : Arrival} (h : Follows bs r (a :: as)) {b : StreamBundle}
    (hb : a.bundle = some b) : Follows bs (r.accept b) as ∧ (r.accept b).inSeq = r.inSeq ∧
      (r.accept b).chunkOffset = r.chunkOffset := by
  have hmem : b ∈ bs := by
    obtain ⟨b', hb', heq⟩ := h.arrivals a List.mem_cons_self
    rw [Option.some.inj (hb.symm.trans heq)]
    exact hb'
  have harrivals : ∀ a' ∈ as, ∃ b ∈ bs, a'.bundle = some b := fun a' ha' =>
    h.arrivals a' (List.mem_cons_of_mem a ha')
  obtain ⟨j, hj⟩ := List.getElem?_of_mem hmem
  have hchunk := hbs.ofBundle_eq hj
  rw [Receiver.accept]
  split_ifs with hge
  · refine ⟨⟨h.streaming, h.timeout, harrivals, fun c hc => ?_, ?_, fun k b' hk hb' => ?_,
      h.delivered, h.last, h.inSeq, h.offset⟩, rfl, rfl⟩
    · rcases OrderedSet.mem_of_mem_insert hc with rfl | hc
      · exact ⟨hge, b, hmem, rfl⟩
      · exact h.chunks c hc
    · refine OrderedSet.pairwise_insert (fun _ _ _ hkl hlm => decide_eq_true ?_) _ h.sorted
      exact Nat.lt_trans (of_decide_eq_true hkl) (of_decide_eq_true hlm)
    · rcases h.toCome k b' hk hb' with hold | ⟨a', ha', heq⟩
      · exact .inl (OrderedSet.mem_insert_of_mem hold)
      · rcases List.mem_cons.1 ha' with rfl | ha'
        · -- It is the one that arrives; a chunk with its number is the same.
          obtain rfl := Option.some.inj (hb.symm.trans heq)
          refine .inl ?_
          have hinsert : Chunk.ofBundle b ∈ OrderedSet.insert Chunk.seq seqLt (.ofBundle b) r.chunks ∨
              ∃ c ∈ r.chunks, seqLt c.seq (Chunk.ofBundle b).seq = false ∧
                seqLt (Chunk.ofBundle b).seq c.seq = false :=
            OrderedSet.mem_insert_self_or _ _
          rcases hinsert with hnew | ⟨c, hc, hlt, hgt⟩
          · exact hnew
          · obtain ⟨-, b₀, hb₀, rfl⟩ := h.chunks c hc
            obtain ⟨i, hi⟩ := List.getElem?_of_mem hb₀
            rw [hbs.ofBundle_eq hi, hchunk] at hlt hgt
            have hij : i = j := Nat.le_antisymm (Nat.not_lt.1 (of_decide_eq_false hgt))
              (Nat.not_lt.1 (of_decide_eq_false hlt))
            have hb₀ : b₀ = b := Option.some.inj (hi.symm.trans (by rw [hij]; exact hj))
            rw [hb₀] at hc
            exact OrderedSet.mem_insert_of_mem hc
        · exact .inr ⟨a', ha', heq⟩
  · refine ⟨⟨h.streaming, h.timeout, harrivals, h.chunks, h.sorted, fun k b' hk hb' => ?_,
      h.delivered, h.last, h.inSeq, h.offset⟩, rfl, rfl⟩
    rcases h.toCome k b' hk hb' with hold | ⟨a', ha', heq⟩
    · exact .inl hold
    · rcases List.mem_cons.1 ha' with rfl | ha'
      · -- It is too late, and not one to come.
        obtain rfl := Option.some.inj (hb.symm.trans heq)
        rw [hbs.ofBundle_eq hb'] at hge
        exact absurd hk hge
      · exact .inr ⟨a', ha', heq⟩

/-- A first chunk arrives. -/
theorem Follows.waitChunk (h : Follows bs r as) (hlt : r.inSeq < bs.length) :
    ∃ r' as', r.waitChunk as = .ok (r', as') ∧ Follows bs r' as' ∧ r'.inSeq = r.inSeq ∧
      r'.chunkOffset = r.chunkOffset ∧ r'.chunks ≠ [] := by
  induction as generalizing r with
  | nil =>
      rcases hchunks : r.chunks with _ | ⟨c, cs⟩
      · rcases h.toCome _ _ (Nat.le_refl _) (List.getElem?_eq_getElem hlt) with hmem | ⟨a, ha, -⟩
        · rw [hchunks] at hmem
          exact absurd hmem List.not_mem_nil
        · exact absurd ha List.not_mem_nil
      · refine ⟨r, [], ?_, h, rfl, rfl, ?_⟩
        · rw [Receiver.waitChunk, hchunks]
          rfl
        · rw [hchunks]
          exact List.cons_ne_nil c cs
  | cons a as ih =>
      rcases hchunks : r.chunks with _ | ⟨c, cs⟩
      · obtain ⟨b, -, hb⟩ := h.arrivals a List.mem_cons_self
        obtain ⟨hfollows, hseq, hoffset⟩ := h.accept hbs hb
        obtain ⟨r', as', hwait, hrest, hseq', hoffset', hne⟩ := ih hfollows (hseq ▸ hlt)
        refine ⟨r', as', ?_, hrest, hseq'.trans hseq, hoffset'.trans hoffset, hne⟩
        rw [Receiver.waitChunk, hchunks]
        simp only [List.isEmpty_nil, if_true, hb]
        exact hwait
      · refine ⟨r, a :: as, ?_, h, rfl, rfl, ?_⟩
        · rw [Receiver.waitChunk, hchunks]
          rfl
        · rw [hchunks]
          exact List.cons_ne_nil c cs

omit hbs in
/-- Without a timeout, nothing is skipped. -/
theorem Follows.skip_eq (h : Follows bs r as) (seconds : ℕ) : r.skip seconds = r := by
  refine if_neg ?_
  rintro (⟨hpos, -⟩ | hstreaming)
  · exact Nat.lt_irrefl 0 (h.timeout ▸ hpos)
  · exact Bool.false_ne_true (hstreaming.symm.trans h.streaming)

/-- The chunk with the next sequence number is the first one, when it is there. -/
theorem Follows.ready_of_mem (h : Follows bs r as) {b : StreamBundle}
    (hb : bs[r.inSeq]? = some b) (hmem : Chunk.ofBundle b ∈ r.chunks) : r.ready = true := by
  rcases hchunks : r.chunks with _ | ⟨c, cs⟩
  · rw [hchunks] at hmem
    exact absurd hmem List.not_mem_nil
  · have hle := (h.chunks c (by rw [hchunks]; exact List.mem_cons_self)).1
    have hseq : (Chunk.ofBundle b).seq = r.inSeq := by rw [hbs.ofBundle_eq hb]
    rw [Receiver.ready, hchunks]
    refine beq_iff_eq.2 (Nat.le_antisymm hle ?_)
    rw [hchunks] at hmem
    rcases List.mem_cons.1 hmem with heq | hmem
    · rw [← heq, hseq]
    · have hsorted := h.sorted
      rw [hchunks] at hsorted
      have hlt := of_decide_eq_true ((List.pairwise_cons.1 hsorted).1 _ hmem)
      rw [hseq] at hlt
      exact Nat.le_of_lt hlt

/-- The chunk with the next sequence number arrives. -/
theorem Follows.waitSeq (h : Follows bs r as) (hlt : r.inSeq < bs.length) :
    ∃ r' as', r.waitSeq as = .ok (r', as') ∧ Follows bs r' as' ∧ r'.inSeq = r.inSeq ∧
      r'.chunkOffset = r.chunkOffset ∧ r'.ready = true := by
  induction as generalizing r with
  | nil =>
      have hready : r.ready = true := by
        have hb := List.getElem?_eq_getElem hlt
        rcases h.toCome _ _ (Nat.le_refl _) hb with hmem | ⟨a, ha, -⟩
        · exact h.ready_of_mem hbs hb hmem
        · exact absurd ha List.not_mem_nil
      exact ⟨r, [], by rw [Receiver.waitSeq, if_pos hready], h, rfl, rfl, hready⟩
  | cons a as ih =>
      by_cases hready : r.ready = true
      · exact ⟨r, a :: as, by rw [Receiver.waitSeq, if_pos hready], h, rfl, rfl, hready⟩
      · obtain ⟨b, -, hb⟩ := h.arrivals a List.mem_cons_self
        obtain ⟨hfollows, hseq, hoffset⟩ := h.accept hbs hb
        obtain ⟨r', as', hwait, hrest, hseq', hoffset', hready'⟩ := ih hfollows (hseq ▸ hlt)
        refine ⟨r', as', ?_, hrest, hseq'.trans hseq, hoffset'.trans hoffset, hready'⟩
        rw [Receiver.waitSeq, if_neg hready]
        simp only [hb, hfollows.skip_eq]
        exact hwait

omit hbs in
/-- The bytes that are left are those of the next chunk and of those behind it. -/
theorem rest_eq {bs : List StreamBundle} {r : Receiver} {b : StreamBundle}
    (hb : bs[r.inSeq]? = some b) (hoffset : r.chunkOffset ≤ b.payload.length) :
    rest bs r = b.payload.drop r.chunkOffset ++
      (bs.drop (r.inSeq + 1)).flatMap StreamBundle.payload := by
  obtain ⟨hlt, rfl⟩ := List.getElem?_eq_some_iff.1 hb
  rw [rest, List.drop_eq_getElem_cons hlt, List.flatMap_cons, List.drop_append_of_le_length hoffset]

omit hbs in
/-- The first chunk is read up to its end. -/
theorem Follows.consumed (hbs : Chunked bs data) (h : Follows bs r as) {b : StreamBundle}
    (hb : bs[r.inSeq]? = some b) {cs : List Chunk} (hchunks : r.chunks = .ofBundle b :: cs)
    {current : Option StreamBundle} :
    Follows bs { r with
      currentBundle := current
      lastChunkReceived := r.lastChunkReceived || (Chunk.ofBundle b).last
      delivered := r.delivered ++ [b]
      chunks := OrderedSet.erase Chunk.seq seqLt (Chunk.ofBundle b).seq r.chunks
      chunkOffset := 0
      inSeq := r.inSeq + 1 } as := by
  have hchunk := hbs.ofBundle_eq hb
  have hlt : r.inSeq < bs.length := (List.getElem?_eq_some_iff.1 hb).1
  have hsorted := h.sorted
  rw [hchunks] at hsorted
  obtain ⟨hhead, hsorted⟩ := List.pairwise_cons.1 hsorted
  have hcs : OrderedSet.erase Chunk.seq seqLt (Chunk.ofBundle b).seq r.chunks = cs := by
    rw [hchunks]
    exact (Receiver.erase_head _ cs).2 fun d hd => of_decide_eq_true (hhead d hd)
  rw [hcs]
  refine ⟨h.streaming, h.timeout, h.arrivals, fun c hc => ⟨?_, ?_⟩, hsorted, fun k b' hk hb' => ?_,
    ?_, ?_, hlt, fun _ _ => Nat.zero_le _⟩
  · have hseq := of_decide_eq_true (hhead c hc)
    rw [hchunk] at hseq
    exact hseq
  · exact (h.chunks c (by rw [hchunks]; exact List.mem_cons_of_mem _ hc)).2
  · refine (h.toCome k b' (Nat.le_of_succ_le hk) hb').imp_left fun hmem => ?_
    rw [hchunks] at hmem
    refine (List.mem_cons.1 hmem).resolve_left fun heq => ?_
    rw [hchunk, hbs.ofBundle_eq hb'] at heq
    exact Nat.ne_of_gt hk (congrArg Chunk.seq heq)
  · change r.delivered ++ [b] = bs.take (r.inSeq + 1)
    rw [List.take_add_one, hb, h.delivered]
    rfl
  · change (r.lastChunkReceived || (Chunk.ofBundle b).last) = decide (r.inSeq + 1 = bs.length)
    rw [h.last, decide_eq_false (Nat.ne_of_lt hlt), hchunk, Bool.false_or]

omit hbs in
/-- The first chunk is read in part. -/
theorem Follows.advanced (h : Follows bs r as) {b : StreamBundle} (hb : bs[r.inSeq]? = some b)
    {current : Option StreamBundle} :
    Follows bs { r with
      currentBundle := current
      chunkOffset := r.chunkOffset + (r.readFrom b).length } as := by
  refine ⟨h.streaming, h.timeout, h.arrivals, h.chunks, h.sorted, h.toCome, h.delivered, h.last,
    h.inSeq, fun b' hb' => ?_⟩
  obtain rfl := Option.some.inj (hb.symm.trans hb')
  have hoffset := h.offset b hb
  have hlength : (r.readFrom b).length ≤ b.payload.length - r.chunkOffset := by
    rw [Receiver.readFrom, List.length_take, List.length_drop]
    exact Nat.min_le_right _ _
  change r.chunkOffset + (r.readFrom b).length ≤ b.payload.length
  omega

/-- **What a call reads**: bytes that come next, or nothing from a chunk that is at its end. -/
theorem Follows.underflowStep (h : Follows bs r as) (hlt : r.inSeq < bs.length) :
    ∃ bytes r' as', r.underflowStep as = .ok (some bytes, r', as') ∧ Follows bs r' as' ∧
      rest bs r = bytes ++ rest bs r' ∧
        bs.length - r'.inSeq + (rest bs r').length < bs.length - r.inSeq + (rest bs r).length := by
  obtain ⟨r₁, as₁, hchunk, hfollows₁, hseq₁, hoffset₁, -⟩ := h.waitChunk hbs hlt
  obtain ⟨r₂, as₂, hseq, hfollows₂, hseq₂, hoffset₂, hready⟩ := hfollows₁.waitSeq hbs (hseq₁ ▸ hlt)
  have hlt₂ : r₂.inSeq < bs.length := by rw [hseq₂, hseq₁]; exact hlt
  have hrest : rest bs r = rest bs r₂ := by
    rw [rest, rest, hseq₂, hseq₁, hoffset₂, hoffset₁]
  have hnotlast : r.lastChunkReceived = false := by
    rw [h.last]
    exact decide_eq_false (Nat.ne_of_lt hlt)
  rcases hchunks : r₂.chunks with _ | ⟨c, cs⟩
  · rw [Receiver.ready, hchunks] at hready
    exact absurd hready Bool.false_ne_true
  · have hstep : r.underflowStep as =
        .ok (some (r₂.readChunk c).1, (r₂.readChunk c).2, as₂) := by
      rw [Receiver.underflowStep, hnotlast]
      simp only [Bool.false_eq_true, if_false, hchunk, hseq, hchunks]
    -- The first chunk is that of the bundle with the next sequence number.
    rw [Receiver.ready, hchunks] at hready
    obtain ⟨-, b, hb, rfl⟩ := hfollows₂.chunks c (by rw [hchunks]; exact List.mem_cons_self)
    obtain ⟨k, hk⟩ := List.getElem?_of_mem hb
    have hchunkb := hbs.ofBundle_eq hk
    have hkseq : r₂.inSeq = k := by
      have heq : r₂.inSeq = (Chunk.ofBundle b).seq := beq_iff_eq.1 hready
      rw [heq, hchunkb]
    subst hkseq
    have hbundle : (Chunk.ofBundle b).bundle = b := by rw [hchunkb]
    have hoffset := hfollows₂.offset b hk
    have hrest₂ := rest_eq hk hoffset
    rw [← hseq₁, ← hseq₂, hrest]
    by_cases hend : (r₂.readFrom b).length < buffSize
    · -- All that is left of the chunk is read.
      have hbytes : r₂.readFrom b = b.payload.drop r₂.chunkOffset := by
        refine List.take_of_length_le (Nat.le_of_not_lt fun hlong => ?_)
        rw [Receiver.readFrom, List.length_take, Nat.min_eq_left (Nat.le_of_lt hlong)] at hend
        exact Nat.lt_irrefl _ hend
      have hread := Receiver.readChunk_of_lt (r := r₂) (c := .ofBundle b) (by rw [hbundle]; exact hend)
      rw [hbundle] at hread
      rw [hread] at hstep
      refine ⟨_, _, _, hstep, hfollows₂.consumed hbs hk hchunks, ?_, ?_⟩
      · rw [hrest₂, hbytes]
        rfl
      · rw [hrest₂, List.length_append]
        change bs.length - (r₂.inSeq + 1) +
          ((bs.drop (r₂.inSeq + 1)).flatMap StreamBundle.payload).length < _
        omega
    · have hread := Receiver.readChunk_of_not_lt (r := r₂) (c := .ofBundle b)
        (by rw [hbundle]; exact hend)
      rw [hbundle] at hread
      rw [hread] at hstep
      have hlength : (r₂.readFrom b).length = buffSize :=
        Nat.le_antisymm (List.length_take_le _ _) (Nat.not_lt.1 hend)
      have hfollows : Follows bs { r₂ with
          currentBundle := some b
          chunkOffset := r₂.chunkOffset + (r₂.readFrom b).length } as₂ := hfollows₂.advanced hk
      have hrest' := rest_eq (r := { r₂ with
        currentBundle := some b
        chunkOffset := r₂.chunkOffset + (r₂.readFrom b).length }) hk (hfollows.offset b hk)
      have heq : rest bs r₂ = r₂.readFrom b ++ rest bs { r₂ with
          currentBundle := some b
          chunkOffset := r₂.chunkOffset + (r₂.readFrom b).length } := by
        rw [hrest₂, hrest', ← List.append_assoc]
        refine congrArg (· ++ _) ?_
        change b.payload.drop r₂.chunkOffset =
          r₂.readFrom b ++ b.payload.drop (r₂.chunkOffset + (r₂.readFrom b).length)
        rw [← List.drop_drop, hlength, Receiver.readFrom, List.take_append_drop]
      refine ⟨_, _, _, hstep, hfollows, heq, Nat.add_lt_add_left ?_ _⟩
      rw [heq, List.length_append]
      exact Nat.lt_add_of_pos_left (hlength ▸ buffSize_pos)

end Follows

/-! ### The reader -/

section Reads

variable {r r' : Receiver} {as as' : List Arrival}

/-- A call that reads nothing from the end of a chunk goes on. -/
theorem underflow_of_nil (h : r.underflowStep as = .ok (some [], r', as')) :
    r.underflow as = r'.underflow as' := by
  rw [Receiver.underflow, h]

/-- A call that reads something. -/
theorem underflow_of_ne_nil {bytes : Bytes} (h : r.underflowStep as = .ok (some bytes, r', as'))
    (hbytes : bytes ≠ []) : r.underflow as = .ok (some bytes, r', as') := by
  rw [Receiver.underflow]
  cases bytes with
  | nil => exact absurd rfl hbytes
  | cons x xs => rw [h]

/-- A call behind the last chunk. -/
theorem underflow_of_last (h : r.lastChunkReceived = true) (as : List Arrival) :
    r.underflow as = .ok (none, r, as) := by
  have hstep : r.underflowStep as = .ok (none, r, as) := by
    rw [Receiver.underflowStep, if_pos h]
  rw [Receiver.underflow, hstep]

/-- A reader that goes on elsewhere gets the same. -/
theorem Reads.congr (h : r.underflow as = r'.underflow as') {data : Bytes} {r'' : Receiver}
    {as'' : List Arrival} (hreads : Reads r' as' data r'' as'') : Reads r as data r'' as'' := by
  cases hreads with
  | eof hend => exact .eof (h.trans hend)
  | more hmore hrest => exact .more (h.trans hmore) hrest

/-- What a reader gets is determined by what arrives. -/
theorem Reads.unique {data data' : Bytes} {r₁ r₂ : Receiver} {as₁ as₂ : List Arrival}
    (h : Reads r as data r₁ as₁) (h' : Reads r as data' r₂ as₂) :
    data = data' ∧ r₁ = r₂ ∧ as₁ = as₂ := by
  induction h generalizing data' with
  | eof hend =>
      cases h' with
      | eof hend' =>
          cases hend.symm.trans hend'
          exact ⟨rfl, rfl, rfl⟩
      | more hmore _ => cases hend.symm.trans hmore
  | more hmore hrest ih =>
      cases h' with
      | eof hend => cases hmore.symm.trans hend
      | more hmore' hrest' =>
          cases hmore.symm.trans hmore'
          obtain ⟨rfl, hr⟩ := ih hrest'
          exact ⟨rfl, hr⟩

/-- **A receiver that follows the stream reads what is left of it**, and reports every chunk. -/
theorem Follows.reads {bs : List StreamBundle} {data : Bytes} (hbs : Chunked bs data)
    (h : Follows bs r as) :
    ∃ r' as', Reads r as (rest bs r) r' as' ∧ r'.delivered = bs ∧ r'.lastChunkReceived = true := by
  -- Every step comes to the end of a chunk, or leaves fewer bytes.
  induction hn : bs.length - r.inSeq + (rest bs r).length using Nat.strong_induction_on
    generalizing r as with
  | _ n ih =>
      rcases Nat.lt_or_eq_of_le h.inSeq with hlt | heq
      · obtain ⟨bytes, r₁, as₁, hstep, hfollows, hrest, hless⟩ := h.underflowStep hbs hlt
        obtain ⟨r', as', hreads, hdelivered⟩ := ih _ (hn ▸ hless) hfollows rfl
        refine ⟨r', as', ?_, hdelivered⟩
        rw [hrest]
        cases bytes with
        | nil => exact .congr (underflow_of_nil hstep) hreads
        | cons x xs => exact .more (underflow_of_ne_nil hstep (List.cons_ne_nil x xs)) hreads
      · have hlast : r.lastChunkReceived = true := by
          rw [h.last]
          exact decide_eq_true heq
        refine ⟨r, as, ?_, ?_, hlast⟩
        · rw [rest, heq, List.drop_length, List.flatMap_nil, List.drop_nil]
          exact .eof (underflow_of_last hlast as)
        · rw [h.delivered, heq, List.take_length]

end Reads

/-- **A stream over bundles is lossless.** Whatever is written in whatever pieces, and in whatever
order and how often its bundles arrive, the reader gets exactly these bytes and then the end of the
stream, and every chunk is reported once. -/
theorem reads_send (chunkSize : ℕ) {pieces : List Bytes} (hpieces : pieces.flatten ≠ [])
    {arrivals : List Arrival}
    (hsent : ∀ a ∈ arrivals, ∃ b ∈ Sender.send chunkSize pieces, a.bundle = some b)
    (hall : ∀ b ∈ Sender.send chunkSize pieces, ∃ a ∈ arrivals, a.bundle = some b) :
    ∃ r' as', (∀ data r as, Reads (.create true 0) arrivals data r as ↔
        data = pieces.flatten ∧ r = r' ∧ as = as') ∧
      (∀ as, r'.underflow as = .ok (none, r', as)) ∧
        r'.delivered = Sender.send chunkSize pieces ∧ (Sender.send chunkSize pieces).Nodup := by
  have hbs := Sender.chunked_send chunkSize hpieces
  have hne : Sender.send chunkSize pieces ≠ [] := fun hnil =>
    hpieces (by rw [← hbs.payload, hnil]; rfl)
  have hfollows : Follows (Sender.send chunkSize pieces) (.create true 0) arrivals := by
    refine ⟨rfl, rfl, hsent, fun _ => nofun, .nil, fun k b _ hb => .inr ?_, rfl, ?_, Nat.zero_le _,
      fun _ _ => Nat.zero_le _⟩
    · exact hall b (List.mem_of_getElem? hb)
    · exact (decide_eq_false fun hzero => hne (List.length_eq_zero_iff.1 hzero.symm)).symm
  obtain ⟨r', as', hreads, hdelivered, hlast⟩ := hfollows.reads hbs
  have hrest : rest (Sender.send chunkSize pieces) (.create true 0) = pieces.flatten := hbs.payload
  rw [hrest] at hreads
  refine ⟨r', as', fun data r as => ⟨fun h => h.unique hreads, ?_⟩, underflow_of_last hlast,
    hdelivered, hbs.nodup⟩
  rintro ⟨rfl, rfl, rfl⟩
  exact hreads

/-- The chunks arrive twice each, the last one first. -/
def sampleArrivals : List Arrival :=
  [⟨some ⟨some ⟨1, false, true⟩, []⟩, 0⟩, ⟨some ⟨some ⟨0, true, false⟩, [1, 2, 3]⟩, 0⟩,
    ⟨some ⟨some ⟨0, true, false⟩, [1, 2, 3]⟩, 0⟩, ⟨some ⟨some ⟨1, false, true⟩, []⟩, 0⟩]

theorem reads_send_sample :
    ∃ r' as', (∀ data r as, Reads (.create true 0) sampleArrivals data r as ↔
        data = [1, 2, 3] ∧ r = r' ∧ as = as') ∧
      (∀ as, r'.underflow as = .ok (none, r', as)) ∧
        r'.delivered = Sender.send 2 [[1], [2, 3]] ∧ (Sender.send 2 [[1], [2, 3]]).Nodup := by
  have hsend : Sender.send 2 [[1], [2, 3]] =
      [⟨some ⟨0, true, false⟩, [1, 2, 3]⟩, ⟨some ⟨1, false, true⟩, []⟩] := by decide +kernel
  have hpieces : ([[1], [2, 3]] : List Bytes).flatten ≠ [] := List.cons_ne_nil _ _
  have hsent : ∀ a ∈ sampleArrivals, ∃ b ∈ Sender.send 2 [[1], [2, 3]], a.bundle = some b := by
    rw [hsend]
    decide
  have hall : ∀ b ∈ Sender.send 2 [[1], [2, 3]], ∃ a ∈ sampleArrivals, a.bundle = some b := by
    rw [hsend]
    decide
  exact reads_send 2 hpieces hsent hall

end BundleStreamBuf

end IbrDtn
