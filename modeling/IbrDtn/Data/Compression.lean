import IbrDtn.Library.StreamCoder
import IbrDtn.Data.BlockReplacement

/-!
# Compressed payloads

This file models `CompressedPayloadBlock::compress` and `CompressedPayloadBlock::extract` of
`ibrdtn/data/CompressedPayloadBlock.cpp`.  The payload goes through zlib in chunks, and the result
is put into a new payload block, which replaces the old one: the payload comes back, but the new
block has neither the flags nor the EIDs of the old one.

The library zlib and the BLOBs of the library `ibrcommon` are not part of the repository: zlib is a
pair of coders, and `good` says whether the stream of a new BLOB is good with some content.

## Main definitions

* `Zlib`, `Zlib.Works` : the library, and what its documentation says.
* `CompressedPayloadBlock.compress`, `CompressedPayloadBlock.extract` : the functions.
* `CompressedPayloadBlock.RoundTrips` : what was compressed can be extracted.
* `CompressedPayloadBlock.Plain` : the payload block is like a new one.

## Main results

* `Zlib.Works.compressStream`, `Zlib.Works.extractStream` : the chunks, for every length.
* `CompressedPayloadBlock.roundTrips_iff` : bundles survive if their payload block is plain.
-/

namespace IbrDtn

open Block (lastBlock newCompressedPayload ofPayload payloadType)

/-- The members of a compressed payload block. -/
def Body.compressedPayload? : Body → Option CompressedPayloadBlock
  | .compressedPayload b => some b
  | _ => none

/-- The library zlib: `deflate` and `inflate`. -/
structure Zlib where
  Deflating : Type
  Inflating : Type
  deflate : StreamCoder UInt8 Deflating
  inflate : StreamCoder UInt8 Inflating

namespace Zlib

/-- **What the documentation of zlib says**, of which `complete xs ys` is to say that `xs` is the
complete stream of `ys`: behind the last call, `deflate` has given the complete stream of what it
took; and `inflate` gives `ys` for the complete stream of `ys`, and reports its end, not before. -/
structure Works (z : Zlib) (complete : Bytes → Bytes → Prop) : Prop where
  deflates : ∃ rel, z.deflate.Follows (fun _ => True) rel fun last ys xs status =>
    last = true → status = .streamEnd ∧ complete xs ys
  inflates : ∀ xs ys, complete xs ys → xs ≠ [] ∧ ∃ rel,
    z.inflate.Follows (· <+: xs) rel fun _ xs' ys' status =>
      (status = .streamEnd ↔ xs' = xs) ∧ (xs' = xs → ys' = ys)

end Zlib

namespace CompressedPayloadBlock

open StreamCoder (Status)

/-- `CompressedPayloadBlock::COMPRESSION_ZLIB`. -/
def compressionZlib : UInt64 := 1

/-- `CHUNK_SIZE`. -/
def chunkSize : ℕ := 16384

variable (z : Zlib) (good : Bytes → Bool)

/-- What `compress` does behind a call of `deflate`, when so much has been written. -/
def checkDeflate (status : Status) (os : Bytes) : Except Exn Unit :=
  if status = .streamError then .error (.undefined "assert(ret != Z_STREAM_ERROR)")
  else if !good os then .error (.exception "decompression failed. output stream went wrong.")
  else .ok ()

/-- What `extract` does behind a call of `inflate`, when so much has been written. -/
def checkInflate (status : Status) (os : Bytes) : Except Exn Unit :=
  if status = .streamError then .error (.undefined "assert(ret != Z_STREAM_ERROR)")
  else if status = .needDict ∨ status = .dataError ∨ status = .memError then
    .error (.exception "decompression failed. memory error.")
  else if !good os then .error (.exception "decompression failed. output stream went wrong.")
  else .ok ()

/-- The loop of `compress` over the chunks of `is`: the one that is not full is the last one. -/
def compressLoop (fuel : ℕ) : ℕ → z.Deflating → Bytes → Bytes → Except Exn Bytes
  | 0, _, _, _ => .error (.diverges "compress")
  | n + 1, s, is, os =>
      let flush := decide (is.length < chunkSize)
      match z.deflate.drain chunkSize (checkDeflate good) (.diverges "compress") flush fuel s
          (is.take chunkSize) os with
      | .error e => .error e
      | .ok (s, left, os, ret) =>
          if left ≠ [] then .error (.undefined "assert(strm.avail_in == 0)")
          else if !flush then compressLoop fuel n s (is.drop chunkSize) os
          else if ret ≠ .streamEnd then .error (.undefined "assert(ret == Z_STREAM_END)")
          else .ok os

/-- `CompressedPayloadBlock::compress(COMPRESS_ALGS, std::istream&, std::ostream&)`. -/
def compressStream (fuel : ℕ) (alg : UInt64) (is : Bytes) : Except Exn Bytes :=
  if alg = compressionZlib then
    match z.deflate.init with
    | none => .error (.exception "initialization of zlib failed")
    | some s => compressLoop z good fuel fuel s is []
  else .error (.exception "compression mode is not supported")

/-- The loop of `extract` over the chunks of `is`, which ends with the stream. -/
def extractLoop (fuel : ℕ) : ℕ → z.Inflating → Bytes → Bytes → Except Exn Bytes
  | 0, _, _, _ => .error (.diverges "extract")
  | n + 1, s, is, os =>
      if is.take chunkSize = [] then
        .error (.exception "decompression failed. no enough data available.")
      else
        match z.inflate.drain chunkSize (checkInflate good) (.diverges "extract") false fuel s
            (is.take chunkSize) os with
        | .error e => .error e
        | .ok (s, left, os, ret) =>
            if left ≠ [] then .error (.undefined "assert(strm.avail_in == 0)")
            else if ret ≠ .streamEnd then extractLoop fuel n s (is.drop chunkSize) os
            else .ok os

/-- `CompressedPayloadBlock::extract(COMPRESS_ALGS, std::istream&, std::ostream&)`. -/
def extractStream (fuel : ℕ) (alg : UInt64) (is : Bytes) : Except Exn Bytes :=
  if alg = compressionZlib then
    match z.inflate.init with
    | none => .error (.exception "initialization of zlib failed")
    | some s => extractLoop z good fuel fuel s is []
  else .error (.exception "compression mode is not supported")

section Streams

variable {z : Zlib} {good : Bytes → Bool} {complete : Bytes → Bytes → Prop}
  (hgood : ∀ os, good os = true)

theorem chunkSize_pos : 0 < chunkSize := by decide

include hgood

theorem checkDeflate_eq_ok {status : Status} {os : Bytes}
    (h : status = .ok ∨ status = .streamEnd ∨ status = .bufError) :
    checkDeflate good status os = .ok () := by
  rw [checkDeflate, hgood]
  rcases h with rfl | rfl | rfl <;> rfl

theorem checkInflate_eq_ok {status : Status} {os : Bytes}
    (h : status = .ok ∨ status = .streamEnd ∨ status = .bufError) :
    checkInflate good status os = .ok () := by
  rw [checkInflate, hgood]
  rcases h with rfl | rfl | rfl <;> rfl

/-- The chunks that are left are compressed. -/
theorem exists_compressLoop {rel : Option Bytes → z.Deflating → Bytes → Bytes → Prop}
    (h : z.deflate.Follows (fun _ => True) rel fun last ys xs status =>
      last = true → status = .streamEnd ∧ complete xs ys)
    {s : z.Deflating} {ys xs : Bytes} (hs : rel none s ys xs) (is os : Bytes) :
    ∃ m out, (∀ fuel ≥ m, ∀ n ≥ m, compressLoop z good fuel n s is os = .ok (os ++ out)) ∧
      complete (xs ++ out) (ys ++ is) := by
  induction hlen : is.length using Nat.strong_induction_on generalizing s ys xs is os with
  | _ len ih =>
      subst hlen
      obtain ⟨m, s', out, status, hdrain, hs', hends⟩ := h.drain chunkSize_pos
        (fun status os => checkDeflate_eq_ok hgood) (.diverges "compress")
        (decide (is.length < chunkSize)) (is.take chunkSize) hs trivial (.inl rfl) os
      by_cases hlast : is.length < chunkSize
      · rw [decide_eq_true hlast, List.take_of_length_le hlast.le] at hends hdrain
        obtain ⟨rfl, hcomplete⟩ := hends rfl
        refine ⟨m + 1, out, fun fuel hfuel n hn => ?_, hcomplete⟩
        obtain ⟨n, rfl⟩ := Nat.exists_eq_add_of_le' (Nat.le_trans (Nat.succ_pos m) hn)
        rw [compressLoop, decide_eq_true hlast, List.take_of_length_le hlast.le,
          hdrain fuel (Nat.le_of_succ_le hfuel)]
        rfl
      · rw [decide_eq_false hlast] at hdrain hs'
        have hshort : (is.drop chunkSize).length < is.length := by
          rw [List.length_drop]
          exact Nat.sub_lt (Nat.lt_of_lt_of_le chunkSize_pos (not_lt.1 hlast)) chunkSize_pos
        obtain ⟨m', out', hloop, hcomplete⟩ := ih _ hshort hs' (is.drop chunkSize) (os ++ out) rfl
        refine ⟨max m m' + 1, out ++ out', fun fuel hfuel n hn => ?_, ?_⟩
        · obtain ⟨n, rfl⟩ := Nat.exists_eq_add_of_le' (Nat.le_trans (Nat.succ_pos _) hn)
          rw [compressLoop, decide_eq_false hlast, hdrain fuel (by omega)]
          dsimp only
          rw [if_neg (not_not.2 rfl), if_pos Bool.not_false, hloop fuel (by omega) n (by omega),
            List.append_assoc]
        · rw [List.append_assoc, List.append_assoc, List.take_append_drop] at hcomplete
          exact hcomplete

/-- **The whole payload is compressed**, if there is enough fuel. -/
theorem exists_compressStream (hz : z.Works complete) (is : Bytes) :
    ∃ m xs, (∀ fuel ≥ m, compressStream z good fuel compressionZlib is = .ok xs) ∧
      complete xs is := by
  obtain ⟨rel, h⟩ := hz.deflates
  obtain ⟨s, hinit, hs⟩ := h.init
  obtain ⟨m, out, hloop, hcomplete⟩ := exists_compressLoop hgood h hs is []
  refine ⟨m, out, fun fuel hfuel => ?_, hcomplete⟩
  rw [compressStream, if_pos rfl, hinit]
  exact hloop fuel hfuel fuel hfuel

/-- The chunks that are left of a complete stream are extracted. -/
theorem exists_extractLoop {xs ys : Bytes}
    {rel : Option Bytes → z.Inflating → Bytes → Bytes → Prop}
    (h : z.inflate.Follows (· <+: xs) rel fun _ xs' ys' status =>
      (status = .streamEnd ↔ xs' = xs) ∧ (xs' = xs → ys' = ys))
    {s : z.Inflating} {taken given : Bytes} (hs : rel none s taken given) {is : Bytes}
    (his : is ≠ []) (heq : taken ++ is = xs) (os : Bytes) :
    ∃ m out, (∀ fuel ≥ m, ∀ n ≥ m, extractLoop z good fuel n s is os = .ok (os ++ out)) ∧
      given ++ out = ys := by
  induction hlen : is.length using Nat.strong_induction_on generalizing s taken given is os with
  | _ len ih =>
      subst hlen
      have htake : is.take chunkSize ≠ [] := by
        rw [Ne, List.take_eq_nil_iff, not_or]
        exact ⟨chunkSize_pos.ne', his⟩
      have hsplit : taken ++ is.take chunkSize ++ is.drop chunkSize = xs := by
        rw [List.append_assoc, List.take_append_drop, heq]
      obtain ⟨m, s', out, status, hdrain, hs', hend, hgiven⟩ := h.drain chunkSize_pos
        (fun status os => checkInflate_eq_ok hgood) (.diverges "extract") false
        (is.take chunkSize) hs ⟨_, hsplit⟩ (.inl rfl) os
      by_cases hrest : is.drop chunkSize = []
      · rw [hrest, List.append_nil] at hsplit
        obtain rfl := hend.2 hsplit
        refine ⟨m + 1, out, fun fuel hfuel n hn => ?_, hgiven hsplit⟩
        obtain ⟨n, rfl⟩ := Nat.exists_eq_add_of_le' (Nat.le_trans (Nat.succ_pos m) hn)
        rw [extractLoop, if_neg htake, hdrain fuel (Nat.le_of_succ_le hfuel)]
        rfl
      · have hne : status ≠ .streamEnd := fun hstatus => hrest (by
          rw [hend.1 hstatus] at hsplit
          exact List.append_right_eq_self.1 hsplit)
        have hshort : (is.drop chunkSize).length < is.length := by
          rw [List.length_drop]
          exact Nat.sub_lt (List.length_pos_of_ne_nil his) chunkSize_pos
        obtain ⟨m', out', hloop, hout⟩ := ih _ hshort hs' hrest hsplit (os ++ out) rfl
        refine ⟨max m m' + 1, out ++ out', fun fuel hfuel n hn => ?_, ?_⟩
        · obtain ⟨n, rfl⟩ := Nat.exists_eq_add_of_le' (Nat.le_trans (Nat.succ_pos _) hn)
          rw [extractLoop, if_neg htake, hdrain fuel (by omega)]
          dsimp only
          rw [if_neg (not_not.2 rfl), if_pos hne, hloop fuel (by omega) n (by omega),
            List.append_assoc]
        · rw [← List.append_assoc, hout]

/-- **The whole payload is extracted** from its complete stream, if there is enough fuel. -/
theorem exists_extractStream (hz : z.Works complete) {xs ys : Bytes} (hxs : complete xs ys) :
    ∃ m, ∀ fuel ≥ m, extractStream z good fuel compressionZlib xs = .ok ys := by
  obtain ⟨hne, rel, h⟩ := hz.inflates xs ys hxs
  obtain ⟨s, hinit, hs⟩ := h.init
  obtain ⟨m, out, hloop, hout⟩ := exists_extractLoop hgood h hs hne rfl []
  refine ⟨m, fun fuel hfuel => ?_⟩
  rw [extractStream, if_pos rfl, hinit, ← hout]
  exact hloop fuel hfuel fuel hfuel

end Streams

/-- `NoSuchBlockFoundException`. -/
def noSuchBlockFound : Exn := .exception "No block found with this Block ID."

/-- `CompressedPayloadBlock::compress(Bundle&, COMPRESS_ALGS)`, and the bundle behind it. -/
def compress (fuel : ℕ) (b : Bundle) (alg : UInt64) : Except Exn Unit × Bundle :=
  match b.place payloadType Body.payload? with
  | none => (.error noSuchBlockFound, b)
  | some (p, blob) =>
      match compressStream z good fuel alg blob with
      | .error e => (.error e, b)
      | .ok ref =>
          let cpb := { newCompressedPayload with
            body := .compressedPayload ⟨alg, UInt64.ofNat blob.length⟩ }
          (.ok (), ((b.pushFront cpb).insert (p + 1) (.ofPayload ref)).remove (p + 2))

/-- `CompressedPayloadBlock::extract(Bundle&)`, and the bundle behind it. -/
def extract (fuel : ℕ) (b : Bundle) : Except Exn Unit × Bundle :=
  match b.place newCompressedPayload.blocktype Body.compressedPayload? with
  | none => (.error noSuchBlockFound, b)
  | some (c, cpb) =>
      match b.place payloadType Body.payload? with
      | none => (.error noSuchBlockFound, b)
      | some (p, blob) =>
          match extractStream z good fuel cpb.algorithm blob with
          | .error e => (.error e, b)
          | .ok ref => (.ok (), ((b.insert p (.ofPayload ref)).remove (p + 1)).remove c)

/-- **What was compressed can be extracted**, and gives the bundle back; and a bundle that cannot be
extracted stays as it is. -/
structure RoundTrips (b : Bundle) : Prop where
  extracts : ∃ m, ∀ fuel ≥ m, ∃ b', compress z good fuel b compressionZlib = (.ok (), b') ∧
    extract z good fuel b' = (.ok (), b)
  unchanged : ∀ fuel b' b'' e, extract z good fuel b' = (.error e, b'') → b'' = b'

/-- **The payload block is like a new one**: it has no EIDs, and no flag but the mark of the last
block, if it is that; and the final block has this mark. -/
def Plain (b : Bundle) : Prop :=
  match b.place payloadType Body.payload? with
  | none => True
  | some (p, _) =>
      (∀ a ∈ b.blocks[p]?, a.eids = [] ∧
        a.procflags = if p + 1 = b.blocks.length then lastBlock else 0) ∧
      ∀ a ∈ b.blocks.getLast?, a.get lastBlock = true

section Bundles

variable {z : Zlib} {good : Bytes → Bool} {complete : Bytes → Bytes → Prop} {b : Bundle}
  {xs ys : List Block} {a : Block} {blob ref : Bytes} {fuel : ℕ}

/-- **A bundle that cannot be extracted stays as it is.** -/
theorem extract_unchanged {b' : Bundle} {e : Exn} (h : extract z good fuel b = (.error e, b')) :
    b' = b := by
  rw [extract] at h
  split at h
  · exact (Prod.mk.inj h).2.symm
  · split at h
    · exact (Prod.mk.inj h).2.symm
    · split at h
      · exact (Prod.mk.inj h).2.symm
      · cases h

variable (hblocks : b.blocks = xs ++ a :: ys) (hxs : ∀ c ∈ xs, c.blocktype ≠ payloadType)
  (htype : a.blocktype = payloadType)

include hblocks hxs htype

/-- What `compress` leaves. -/
theorem compress_eq (hbody : a.body = .payload blob) {alg : UInt64}
    (hstream : compressStream z good fuel alg blob = .ok ref) :
    ∃ cpb : Block, cpb.blocktype = newCompressedPayload.blocktype ∧
      Body.compressedPayload? cpb.body = some ⟨alg, UInt64.ofNat blob.length⟩ ∧
      compress z good fuel b alg = (.ok (), { b with
        blocks := cpb :: xs ++ BlockList.markBack (.ofPayload ref :: ys) }) := by
  have hplace : b.place payloadType Body.payload? = some (xs.length, blob) :=
    Bundle.place_eq_some_iff.2 ⟨xs, a, ys, hblocks, rfl, hxs, htype,
      Body.payload?_eq_some_iff.2 hbody⟩
  refine ⟨{ newCompressedPayload with
    body := .compressedPayload ⟨alg, UInt64.ofNat blob.length⟩ }, rfl, rfl, ?_⟩
  rw [compress, hplace]
  dsimp only
  rw [hstream]
  dsimp only
  have hne : (xs ++ a :: ys).isEmpty = false := by simp
  rw [Bundle.remove, Bundle.insert, Bundle.pushFront, BlockList.pushFront, hblocks, hne]
  have hreplace := BlockList.remove_insert ({ newCompressedPayload with
    body := .compressedPayload ⟨alg, UInt64.ofNat blob.length⟩ } :: xs) a (.ofPayload ref) ys
  exact congrArg (fun blocks => ((.ok () : Except Exn Unit), { b with blocks })) hreplace

omit hblocks in
/-- What `extract` leaves. -/
theorem extract_eq {cpb : Block} {members : CompressedPayloadBlock}
    (hcpb : cpb.blocktype = newCompressedPayload.blocktype)
    (hmembers : Body.compressedPayload? cpb.body = some members) (hbody : a.body = .payload ref)
    (hstream : extractStream z good fuel members.algorithm ref = .ok blob) :
    extract z good fuel { b with blocks := cpb :: xs ++ a :: ys } = (.ok (), { b with
      blocks := xs ++ BlockList.markBack (.ofPayload blob :: ys) }) := by
  have hplace : Bundle.place { b with blocks := cpb :: xs ++ a :: ys }
      newCompressedPayload.blocktype Body.compressedPayload? = some (0, members) :=
    Bundle.place_eq_some_iff.2
      ⟨[], cpb, xs ++ a :: ys, rfl, rfl, List.forall_mem_nil _, hcpb, hmembers⟩
  have hplace' : Bundle.place { b with blocks := cpb :: xs ++ a :: ys }
      payloadType Body.payload? = some (xs.length + 1, ref) := by
    refine Bundle.place_eq_some_iff.2
      ⟨cpb :: xs, a, ys, rfl, rfl, fun c hc => ?_, htype,
      Body.payload?_eq_some_iff.2 hbody⟩
    rcases List.mem_cons.1 hc with rfl | hc
    · rw [hcpb]
      decide
    · exact hxs c hc
  have hreplace := BlockList.remove_insert (cpb :: xs) a (.ofPayload blob) ys
  have hne : BlockList.markBack (ofPayload blob :: ys) ≠ [] :=
    mt BlockList.markBack_eq_nil_iff.1 (List.cons_ne_nil _ _)
  have hmarked : BlockList.markBack (xs ++ BlockList.markBack (.ofPayload blob :: ys)) =
      xs ++ BlockList.markBack (.ofPayload blob :: ys) := by
    rw [BlockList.markBack_append xs hne, BlockList.markBack_markBack]
  have hremove := (BlockList.remove_append [] cpb
    (xs ++ BlockList.markBack (.ofPayload blob :: ys))).trans hmarked
  rw [extract, hplace, hplace']
  dsimp only
  rw [hstream]
  dsimp only
  rw [Bundle.remove, Bundle.remove, Bundle.insert]
  dsimp only
  rw [List.length_cons] at hreplace
  rw [hreplace]
  exact congrArg (fun blocks => ((.ok () : Except Exn Unit), { b with blocks })) hremove

/-- The new payload block stands where the old one stood, and is the same if that was plain. -/
theorem markBack_ofPayload_iff (hbody : a.body = .payload blob) :
    xs ++ BlockList.markBack (.ofPayload blob :: ys) = b.blocks ↔ Plain b := by
  have hplace : b.place payloadType Body.payload? = some (xs.length, blob) :=
    Bundle.place_eq_some_iff.2 ⟨xs, a, ys, hblocks, rfl, hxs, htype,
      Body.payload?_eq_some_iff.2 hbody⟩
  have hget : b.blocks[xs.length]? = some a := by
    rw [hblocks, List.getElem?_append_right le_rfl, Nat.sub_self]
    rfl
  have hsame (flags : UInt64) : (ofPayload blob).eids = a.eids ∧ flags = a.procflags ↔
      ({ ofPayload blob with procflags := flags } : Block) = a := by
    constructor
    · rintro ⟨heids, hflags⟩
      obtain ⟨type, procflags, eids, body⟩ := a
      obtain rfl : type = payloadType := htype
      obtain rfl : body = .payload blob := hbody
      obtain rfl : [] = eids := heids
      obtain rfl : flags = procflags := hflags
      rfl
    · rintro rfl
      exact ⟨rfl, rfl⟩
  rw [Plain, hplace]
  dsimp only
  rw [hget, hblocks, List.append_cancel_left_eq]
  simp only [Option.mem_def, Option.some.injEq, forall_eq']
  by_cases hys : ys = []
  · subst hys
    have hlast : (if xs.length + 1 = (xs ++ [a]).length then lastBlock else 0) =
        lastBlock := if_pos (by simp)
    rw [hlast, List.getLast?_concat]
    simp only [Option.some.injEq, forall_eq']
    have hmark : BlockList.markBack [ofPayload blob] =
        [{ ofPayload blob with procflags := lastBlock }] := by
      have hflags : FlagWord.assign 0 lastBlock true = lastBlock := by decide
      rw [← hflags]
      rfl
    rw [hmark, List.cons.injEq, and_iff_left rfl, ← hsame]
    constructor
    · rintro ⟨heids, hflags⟩
      refine ⟨⟨heids.symm, hflags.symm⟩, ?_⟩
      rw [Block.get, ← hflags]
      decide
    · rintro ⟨⟨heids, hflags⟩, -⟩
      exact ⟨heids.symm, hflags.symm⟩
  · have hlast : (if xs.length + 1 = (xs ++ a :: ys).length then lastBlock else 0) = 0 :=
      if_neg (by simpa using hys)
    rw [hlast, BlockList.markBack_cons _ hys, List.cons.injEq, BlockList.markBack_eq_self_iff,
      List.getLast?_append_of_ne_nil xs (List.cons_ne_nil a ys), List.getLast?_cons_of_ne_nil hys]
    exact and_congr_left fun _ =>
      ⟨fun h => ⟨((hsame 0).2 h).1.symm, ((hsame 0).2 h).2.symm⟩,
        fun h => (hsame 0).1 ⟨h.1.symm, h.2.symm⟩⟩

end Bundles

/-- **With enough fuel, both functions succeed**, and a new payload block stands for the old one. -/
theorem exists_compress_extract {z : Zlib} {good : Bytes → Bool} {complete : Bytes → Bytes → Prop}
    (hz : z.Works complete) (hgood : ∀ os, good os = true) {b : Bundle} {xs ys : List Block}
    {a : Block} {blob : Bytes} (hblocks : b.blocks = xs ++ a :: ys)
    (hxs : ∀ c ∈ xs, c.blocktype ≠ payloadType) (htype : a.blocktype = payloadType)
    (hbody : a.body = .payload blob) : ∃ m, ∀ fuel ≥ m, ∃ b',
      compress z good fuel b compressionZlib = (.ok (), b') ∧ extract z good fuel b' =
        (.ok (), { b with blocks := xs ++ BlockList.markBack (.ofPayload blob :: ys) }) := by
  obtain ⟨m, ref, hcompress, hcomplete⟩ := exists_compressStream hgood hz blob
  obtain ⟨m', hextract⟩ := exists_extractStream hgood hz hcomplete
  obtain ⟨a', ys', hmark, htype', hbody', hremark⟩ :=
    BlockList.exists_markBack_cons (.ofPayload ref) ys
  refine ⟨max m m', fun fuel hfuel => ?_⟩
  obtain ⟨cpb, hcpb, hmembers, heq⟩ := compress_eq hblocks hxs htype hbody
    (hcompress fuel (le_trans (le_max_left _ _) hfuel))
  refine ⟨_, heq, ?_⟩
  rw [hmark, ← hremark]
  exact extract_eq hxs htype' hcpb hmembers hbody'
    (hextract fuel (le_trans (le_max_right _ _) hfuel))

/-- What comes back is what both functions give. -/
theorem RoundTrips.eq {z : Zlib} {good : Bytes → Bool} {b : Bundle} {blocks : List Block}
    (h : RoundTrips z good b) (hboth : ∃ m, ∀ fuel ≥ m, ∃ b',
      compress z good fuel b compressionZlib = (.ok (), b') ∧
        extract z good fuel b' = (.ok (), { b with blocks })) : blocks = b.blocks := by
  obtain ⟨m, hm⟩ := hboth
  obtain ⟨n, hn⟩ := h.extracts
  obtain ⟨b', hcompress, hextract⟩ := hm _ (le_max_left m n)
  obtain ⟨b'', hcompress', hextract'⟩ := hn _ (le_max_right m n)
  obtain rfl : b' = b'' := (Prod.mk.inj (hcompress.symm.trans hcompress')).2
  exact congrArg Bundle.blocks (Prod.mk.inj (hextract.symm.trans hextract')).2

/-- **A bundle survives compression exactly if its payload block is like a new one.** -/
theorem roundTrips_iff {z : Zlib} {good : Bytes → Bool} {complete : Bytes → Bytes → Prop}
    (hz : z.Works complete) (hgood : ∀ os, good os = true) {b : Bundle} {index : ℕ} {blob : Bytes}
    (hb : b.place payloadType Body.payload? = some (index, blob)) :
    RoundTrips z good b ↔ Plain b := by
  obtain ⟨xs, a, ys, hblocks, rfl, hxs, htype, hcast⟩ := Bundle.place_eq_some_iff.1 hb
  have hbody := Body.payload?_eq_some_iff.1 hcast
  have hboth := exists_compress_extract hz hgood hblocks hxs htype hbody
  rw [← markBack_ofPayload_iff hblocks hxs htype hbody]
  constructor
  · exact fun h => h.eq hboth
  · intro heq
    rw [heq] at hboth
    exact ⟨hboth, fun fuel b' b'' e => extract_unchanged⟩

/-! ### A library for examples -/

/-- A form of streams: that of zlib for nothing, and with a byte in front of each byte otherwise. -/
def sampleStream (ys : Bytes) : Bytes :=
  if ys = [] then [0x78, 0x9c, 0x03, 0x00, 0x00, 0x00, 0x00, 0x01]
  else 0x78 :: 0x9c :: 0x00 :: (ys.flatMap (fun y => [1, y]) ++ [0])

/-- The bytes behind the header. -/
def sampleContent : Bytes → Option Bytes
  | [0] => some []
  | 1 :: y :: xs => (sampleContent xs).map (y :: ·)
  | _ => none

/-- The content of a stream, if it is complete. -/
def sampleInflate : Bytes → Option Bytes
  | 0x78 :: 0x9c :: 0x03 :: xs => if xs = [0x00, 0x00, 0x00, 0x00, 0x01] then some [] else none
  | 0x78 :: 0x9c :: 0x00 :: xs => sampleContent xs
  | _ => none

/-- A library that collects what it takes. -/
def sampleZlib : Zlib where
  Deflating := Bytes × ℕ
  Inflating := Bytes × ℕ
  deflate := .buffered fun last ys => if last then some (sampleStream ys) else none
  inflate := .buffered fun _ xs => sampleInflate xs

theorem sampleContent_flatMap (ys : Bytes) :
    sampleContent (ys.flatMap (fun y => [1, y]) ++ [0]) = some ys := by
  induction ys with
  | nil => rfl
  | cons y ys ih =>
      change (sampleContent (ys.flatMap (fun y => [1, y]) ++ [0])).map (y :: ·) = _
      rw [ih]
      rfl

theorem sampleInflate_sampleStream (ys : Bytes) : sampleInflate (sampleStream ys) = some ys := by
  rw [sampleStream]
  split_ifs with hys
  · rw [hys]
    rfl
  · exact sampleContent_flatMap ys

/-- Nothing continues the bytes behind the header. -/
theorem eq_nil_of_sampleContent {xs rest : Bytes} (hxs : (sampleContent xs).isSome = true)
    (hrest : (sampleContent (xs ++ rest)).isSome = true) : rest = [] := by
  fun_induction sampleContent xs with
  | case1 =>
      rcases rest with _ | ⟨x, rest⟩
      · rfl
      · cases hrest
  | case2 y xs ih =>
      rw [Option.isSome_map] at hxs
      refine ih hxs ?_
      change ((sampleContent (xs ++ rest)).map (y :: ·)).isSome = true at hrest
      rwa [Option.isSome_map] at hrest
  | case3 => cases hxs

/-- Nothing continues a complete stream. -/
theorem eq_of_sampleInflate {xs xs' ys ys' : Bytes} (hle : xs <+: xs')
    (hxs : sampleInflate xs = some ys) (hxs' : sampleInflate xs' = some ys') : xs = xs' := by
  obtain ⟨rest, rfl⟩ := hle
  suffices hrest : rest = [] by rw [hrest, List.append_nil]
  fun_cases sampleInflate xs with
  | case1 =>
      have hrest : (if [0x00, 0x00, 0x00, 0x00, 0x01] ++ rest = [0x00, 0x00, 0x00, 0x00, 0x01] then
          some [] else none) = some ys' := hxs'
      split_ifs at hrest with heq
      exact List.append_right_eq_self.1 heq
  | case2 xs hne => cases (if_neg hne).symm.trans hxs
  | case3 xs =>
      have hcontent : sampleContent xs = some ys := hxs
      have hcontent' : sampleContent (xs ++ rest) = some ys' := hxs'
      exact eq_nil_of_sampleContent (by rw [hcontent]; rfl) (by rw [hcontent']; rfl)
  | case4 => simp_all [sampleInflate]

theorem length_sampleStream_le (ys : Bytes) : (sampleStream ys).length ≤ 2 * ys.length + 8 := by
  have hflat : (ys.flatMap fun y => [1, y]).length = 2 * ys.length := by
    induction ys with
    | nil => rfl
    | cons y ys ih =>
        rw [List.flatMap_cons, List.length_append, ih, List.length_cons]
        simp only [List.length_cons, List.length_nil]
        omega
  rw [sampleStream]
  split_ifs
  · exact Nat.le_add_left _ _
  · simp only [List.length_cons, List.length_append, hflat, List.length_nil]
    omega

theorem works_sampleZlib : sampleZlib.Works fun xs ys => sampleInflate xs = some ys := by
  constructor
  · refine ⟨_, StreamCoder.Follows.imp (StreamCoder.follows_buffered
      (fun last ys => if last then some (sampleStream ys) else none) (fun y _ => ?_) ?_) ?_⟩
    · refine ⟨2 * y.length + 8, fun last y' o hle ho => ?_⟩
      split_ifs at ho
      obtain rfl := Option.some.inj ho
      have hlen := hle.length_le
      exact (length_sampleStream_le y').trans (by omega)
    · intro last y xs o last' _ ho hrest
      split_ifs at ho with hlast
      obtain ⟨rfl, rfl⟩ := hrest hlast
      rw [List.append_nil, if_pos rfl]
      exact ho
    · rintro last ys xs status - ⟨hends, -⟩ rfl
      obtain ⟨rfl, rfl⟩ := hends _ (if_pos rfl)
      exact ⟨rfl, sampleInflate_sampleStream ys⟩
  · intro xs ys hcomplete
    have hwhole {xs' ys' : Bytes} (hle : xs' <+: xs) (hxs' : sampleInflate xs' = some ys') :
        xs' = xs := eq_of_sampleInflate hle hxs' hcomplete
    refine ⟨?_, _, StreamCoder.Follows.imp (StreamCoder.follows_buffered
      (fun _ xs => sampleInflate xs) (fun y hy => ?_) ?_) ?_⟩
    · rintro rfl
      cases hcomplete
    · refine ⟨ys.length, fun _ xs' o hle ho => ?_⟩
      obtain rfl := hwhole (hle.trans hy) ho
      exact (congrArg List.length (Option.some.inj (ho.symm.trans hcomplete))).le
    · intro _ xs' rest o _ hle ho _
      obtain rfl := hwhole ((List.prefix_append xs' rest).trans hle) ho
      rw [List.append_right_eq_self.1 (hle.eq_of_length_le (by simp)), List.append_nil]
      exact ho
    · rintro _ xs' ys' status hle ⟨hends, hnone⟩
      refine ⟨⟨fun hstatus => ?_, ?_⟩, ?_⟩
      · rcases hout : sampleInflate xs' with _ | o
        · rw [hnone hout] at hstatus
          cases hstatus
        · exact hwhole hle hout
      · rintro rfl
        exact (hends ys hcomplete).1
      · rintro rfl
        exact (hends ys hcomplete).2

/-- A bundle with an empty payload, whose block has the given flags and EIDs. -/
def sampleBundle (procflags : UInt64) (eids : List EID) : Bundle :=
  { PrimaryBlock.create 1 0 with blocks := [{ ofPayload [] with procflags, eids }] }

/-- A payload between two other blocks. -/
def sampleBetween : Bundle :=
  { PrimaryBlock.create 1 0 with
    blocks := [⟨200, 0, [], .extension [1]⟩, { ofPayload [0x68] with procflags := 0 },
      ⟨201, lastBlock, [], .extension [2]⟩] }

theorem roundTrips_iff_sample : RoundTrips sampleZlib (fun _ => true) sampleBetween := by
  refine (roundTrips_iff works_sampleZlib (fun _ => rfl) rfl).2 ⟨?_, ?_⟩
  · rintro a ⟨⟩
    exact ⟨rfl, rfl⟩
  · rintro a ⟨⟩
    decide

/-- **The EIDs and the flags of a payload block are lost.** -/
theorem not_roundTrips_sample :
    ¬ RoundTrips sampleZlib (fun _ => true)
        (sampleBundle (lastBlock ||| Block.blockContainsEids) [EID.none]) ∧
      ¬ RoundTrips sampleZlib (fun _ => true)
        (sampleBundle (lastBlock ||| Block.replicateInEveryFragment) []) := by
  have hlost (procflags : UInt64) (eids : List EID)
      (h : RoundTrips sampleZlib (fun _ => true) (sampleBundle procflags eids)) :
      BlockList.markBack [.ofPayload []] = (sampleBundle procflags eids).blocks := by
    have hblocks : (sampleBundle procflags eids).blocks =
        [] ++ { ofPayload [] with procflags, eids } :: [] := rfl
    exact h.eq (exists_compress_extract works_sampleZlib (fun _ => rfl) hblocks
      (List.forall_mem_nil _) rfl rfl)
  exact ⟨fun h => absurd (hlost _ _ h) (by decide), fun h => absurd (hlost _ _ h) (by decide)⟩

end CompressedPayloadBlock

end IbrDtn
