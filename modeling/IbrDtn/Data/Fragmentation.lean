import IbrDtn.Data.UncompressedHeader
import IbrDtn.Data.CompressedHeader

/-!
# Fragments of bundles

This file models the operator of `DefaultSerializer` for `ibrdtn/data/BundleFragment.cpp`.  A
fragment is written with the primary block of the bundle, in which the fragment flag, the offset
and the application data length are replaced, and with the payload clipped to its range.  Of the
other blocks it has those behind the payload, and those in front of it that are marked as
replicated in every fragment.

## Main definitions

* `DefaultSerializer.writeFragment` : the stream operator.
* `Bundle.Fragmented` : the bundles that are read from the fragments are what the marks of the
  blocks and the ranges promise.

## Main results

* `Bundle.reads_writeFragment` : what is read from a fragment.
* `Bundle.fragmented_iff` : the bundles for which the fragments are as promised.
-/

namespace IbrDtn

/-- `class BundleFragment`. -/
structure BundleFragment where
  bundle : Bundle
  offset : UInt64
  length : UInt64
deriving DecidableEq

/-- The primary block of a fragment. -/
def BundleFragment.primary (obj : BundleFragment) : PrimaryBlock :=
  { obj.bundle.toPrimaryBlock.set PrimaryBlock.fragment true with
    appdatalength := obj.length
    fragmentoffset := obj.bundle.fragmentoffset + obj.offset }

namespace DefaultSerializer

/-- `DefaultSerializer::serialize(const PayloadBlock&, size_t, size_t)`, of a block with the given
BLOB, from which as many bytes are copied as are there. -/
def writePayload (s : DefaultSerializer) (b : Block) (blob : Bytes) (offset length : UInt64) :
    Bytes :=
  b.blocktype :: (SDNV.write b.procflags ++
    (optional (b.get Block.blockContainsEids)
        (SDNV.write (UInt64.ofNat b.eids.length) ++ s.writeRefs b.eids) ++
      (SDNV.write length ++ (blob.drop offset.toNat).take length.toNat)))

/-- The loop over the blocks, with the variable `post_payload`. -/
def writeFragmentBlocks (s : DefaultSerializer) (offset length : UInt64) :
    Bool → List Block → Bytes
  | _, [] => []
  | postPayload, b :: bs =>
      match b.body with
      | .payload blob =>
          s.writePayload b blob offset length ++ writeFragmentBlocks s offset length true bs
      | _ =>
          (if postPayload || b.get Block.replicateInEveryFragment then s.writeBlock b else []) ++
            writeFragmentBlocks s offset length postPayload bs

/-- `DefaultSerializer::operator<<(const BundleFragment&)`. -/
def writeFragment (s : DefaultSerializer) (obj : BundleFragment) : Bytes × DefaultSerializer :=
  let s := { s.rebuildDictionary obj.bundle with compressable := isCompressable obj.bundle }
  let (primary, s) := s.writePrimary obj.primary
  (primary ++ s.writeFragmentBlocks obj.offset obj.length false obj.bundle.blocks, s)

end DefaultSerializer

/-- A block up to the mark that it is the last one. -/
def Block.View.unmarked (v : Block.View) : Block.View :=
  { v with procflags := v.procflags &&& ~~~Block.lastBlock }

/-! ### The law -/

/-- The block with the payload clipped to a range. -/
def Block.clip (p : Block) (blob : Bytes) (range : UInt64 × UInt64) : Block :=
  { p with body := .payload ((blob.drop range.1.toNat).take range.2.toNat) }

/-- The ranges, each an offset and a length, follow each other from `start` to `stop`. -/
def Consecutive : ℕ → List (UInt64 × UInt64) → ℕ → Prop
  | start, [], stop => start = stop
  | start, r :: rs, stop => r.1.toNat = start ∧ Consecutive (start + r.2.toNat) rs stop

theorem Consecutive.le {start stop : ℕ} {rs : List (UInt64 × UInt64)}
    (h : Consecutive start rs stop) : start ≤ stop := by
  induction rs generalizing start with
  | nil => exact Nat.le_of_eq h
  | cons r rs ih => exact (Nat.le_add_right _ _).trans (ih h.2)

theorem Consecutive.add_le {start stop : ℕ} {rs : List (UInt64 × UInt64)}
    (h : Consecutive start rs stop) {r : UInt64 × UInt64} (hr : r ∈ rs) :
    r.1.toNat + r.2.toNat ≤ stop := by
  induction rs generalizing start with
  | nil => exact absurd hr List.not_mem_nil
  | cons r' rs ih =>
      rcases List.mem_cons.1 hr with rfl | hr
      · rw [h.1]
        exact h.2.le
      · exact ih h.2 hr

namespace Bundle

/-- The bundle comes back from a stream with its EIDs as they are. -/
structure Survives (b : Bundle) : Prop where
  serializable : b.Serializable
  canonical : DefaultSerializer.isCompressable b = true → ∀ e ∈ b.allEIDs, e.IsCanonical
  nameable : DefaultSerializer.isCompressable b = false →
    ∀ e ∈ b.allEIDs, Dictionary.Nameable e ∧ e.trimmed = e
  size_lt : (b.allEIDs.map Dictionary.sizeOf).sum < 2 ^ 64

/-- The bundle has exactly one payload block, between the blocks `before` and `after`. -/
structure HasPayload (b : Bundle) (before : List Block) (p : Block) (after : List Block)
    (blob : Bytes) : Prop where
  blocks : b.blocks = before ++ p :: after
  payload : p.body = .payload blob
  others : ∀ c ∈ before ++ after, c.blocktype ≠ Block.payloadType

/-- Where the payload of the bundle begins in the application data. -/
def start (b : Bundle) : ℕ :=
  if b.get PrimaryBlock.fragment then b.fragmentoffset.toNat else 0

/-- The length of the application data that the payload `blob` of the bundle is from. -/
def total (b : Bundle) (blob : Bytes) : ℕ :=
  if b.get PrimaryBlock.fragment then b.appdatalength.toNat else blob.length

/-- **What a fragment has to be**: `isFirst` and `isLast` say whether it is the first or the last
of its bundle. -/
structure IsFragment (b : Bundle) (before : List Block) (p : Block) (after : List Block)
    (blob : Bytes) (range : UInt64 × UInt64) (isFirst isLast : Bool) (n : Bundle) : Prop where
  marked : n.get PrimaryBlock.fragment = true
  source : n.source = b.source
  timestamp : n.timestamp = b.timestamp
  sequencenumber : n.sequencenumber = b.sequencenumber
  offset : n.fragmentoffset.toNat = b.start + range.1.toNat
  appdatalength : n.appdatalength.toNat = b.total blob
  blocks : n.blocks.map (fun c => c.view.unmarked) =
    ((before.filter fun c => c.get Block.replicateInEveryFragment || isFirst) ++
      p.clip blob range ::
        after.filter fun c => c.get Block.replicateInEveryFragment || isLast).map
      fun c => c.view.unmarked

/-- The fragments of the ranges are read back as what they have to be. -/
def Fragmented (s : DefaultSerializer) (d : DefaultDeserializer) (env : DeserializerEnv)
    (obj b : Bundle) (before : List Block) (p : Block) (after : List Block) (blob : Bytes)
    (ranges : List (UInt64 × UInt64)) : Prop :=
  ∀ i (h : i < ranges.length), ∃ n d',
    (DefaultDeserializer.readBundle env d obj).Reads
      (s.writeFragment ⟨b, ranges[i].1, ranges[i].2⟩).1 (n, d') ∧
    IsFragment b before p after blob ranges[i] (i == 0) (i + 1 == ranges.length) n

end Bundle

/-! ### Reading a fragment -/

namespace DefaultSerializer

theorem writePayload_eq (s : DefaultSerializer) (p : Block) {blob : Bytes}
    {range : UInt64 × UInt64} (h : range.1.toNat + range.2.toNat ≤ blob.length) :
    s.writePayload p blob range.1 range.2 = s.writeBlock (p.clip blob range) := by
  have hlen : ((blob.drop range.1.toNat).take range.2.toNat).length = range.2.toNat := by
    rw [List.length_take, List.length_drop]
    omega
  simp only [writePayload, writeBlock, Block.clip, Block.get, Body.getLength, Body.serialize, hlen,
    UInt64.ofNat_toNat]

/-- Behind the payload every block is written. -/
theorem writeFragmentBlocks_true (s : DefaultSerializer) (offset length : UInt64) {bs : List Block}
    (hbs : ∀ c ∈ bs, ∀ blob, c.body ≠ .payload blob) :
    s.writeFragmentBlocks offset length true bs = bs.flatMap s.writeBlock := by
  induction bs with
  | nil => rfl
  | cons c bs ih =>
      have hc := hbs c List.mem_cons_self
      rw [writeFragmentBlocks, List.flatMap_cons,
        ih fun c' hc' => hbs c' (List.mem_cons_of_mem _ hc')]
      split
      · exact absurd ‹_› (hc _)
      · rfl

/-- In front of the payload only the replicated blocks are. -/
theorem writeFragmentBlocks_append (s : DefaultSerializer) (offset length : UInt64)
    {bs : List Block} (hbs : ∀ c ∈ bs, ∀ blob, c.body ≠ .payload blob) (cs : List Block) :
    s.writeFragmentBlocks offset length false (bs ++ cs) =
      (bs.filter fun c => c.get Block.replicateInEveryFragment).flatMap s.writeBlock ++
        s.writeFragmentBlocks offset length false cs := by
  induction bs with
  | nil => rfl
  | cons c bs ih =>
      have hc := hbs c List.mem_cons_self
      rw [List.cons_append, writeFragmentBlocks,
        ih fun c' hc' => hbs c' (List.mem_cons_of_mem _ hc'), List.filter_cons]
      split
      · exact absurd ‹_› (hc _)
      · rw [Bool.false_or]
        split
        · rw [List.flatMap_cons, List.append_assoc]
        · rfl

end DefaultSerializer

namespace Bundle

variable {b : Bundle} {before after : List Block} {p : Block} {blob : Bytes}
  {range : UInt64 × UInt64}

/-- References to the EIDs of a bundle that survives lead back to them. -/
theorem Survives.exists_resolves (hb : b.Survives) {s : DefaultSerializer}
    (hs : s.dictionary.good = true) {d : DefaultDeserializer} (hd : d.dictionary.good = true) :
    ∃ (I : DefaultDeserializer → Prop) (P : EID → Prop) (f : EID → EID) (d' : DefaultDeserializer),
      Resolves { s.rebuildDictionary b with
        compressable := DefaultSerializer.isCompressable b } I P f ∧
      DefaultDeserializer.ReadsDictionary { s.rebuildDictionary b with
        compressable := DefaultSerializer.isCompressable b } f b.toPrimaryBlock d d' ∧
      I d' ∧ (∀ e ∈ b.allEIDs, P e) ∧ ∀ e ∈ b.allEIDs, f e = e := by
  cases hform : DefaultSerializer.isCompressable b with
  | true =>
      exact ⟨_, _, _, _, DefaultDeserializer.resolves_compressed rfl,
        DefaultDeserializer.readsDictionary_compressed rfl b.toPrimaryBlock d, rfl,
        fun _ _ => trivial, fun e he => (EID.decompressed_eq_iff e).2 (hb.canonical hform e he)⟩
  | false =>
      have hname := hb.nameable hform
      have hlen : (s.rebuildDictionary b).dictionary.bytes.length < 2 ^ 64 :=
        (DefaultSerializer.length_rebuildDictionary_le s b).trans_lt hb.size_lt
      obtain ⟨entries, hlists, hold, hpos, hne⟩ := DefaultSerializer.rebuildDictionary_lists s hs
        (b := b) fun e he => ⟨(hname e he).1.scheme_nulFree, (hname e he).1.ssp_nulFree⟩
      have hP : ∀ e ∈ b.allEIDs, Dictionary.Holds entries e ∧ Dictionary.Nameable e :=
        fun e he => ⟨hold e he, (hname e he).1⟩
      obtain ⟨d', hd', hdict⟩ := DefaultDeserializer.readsDictionary_dictionary
        (s := { s.rebuildDictionary b with compressable := false }) rfl hlen hlists hpos hne
        (p := b.toPrimaryBlock) (fun e he => hP e (List.mem_append_left _ he)) hd
      exact ⟨_, _, _, d', DefaultDeserializer.resolves_dictionary rfl hlen, hdict, hd', hP,
        fun e he => (hname e he).2⟩

/-- The bundle that the fragment of a range is written as. -/
def fragmentOf (b : Bundle) (before : List Block) (p : Block) (after : List Block)
    (blob : Bytes)
    (range : UInt64 × UInt64) : Bundle :=
  { BundleFragment.primary ⟨b, range.1, range.2⟩ with
    blocks := (before.filter fun c => c.get Block.replicateInEveryFragment) ++
      p.clip blob range :: after }

theorem HasPayload.mem_blocks (hp : b.HasPayload before p after blob) {c : Block}
    (hc : c ∈ before ++ after) : c ∈ b.blocks := by
  rw [hp.blocks]
  rcases List.mem_append.1 hc with hc | hc
  · exact List.mem_append_left _ hc
  · exact List.mem_append_right _ (List.mem_cons_of_mem p hc)

theorem HasPayload.mem_self (hp : b.HasPayload before p after blob) : p ∈ b.blocks := by
  rw [hp.blocks]
  exact List.mem_append_right _ List.mem_cons_self

theorem HasPayload.ne_payload (hp : b.HasPayload before p after blob) (hb : b.Serializable)
    {c : Block} (hc : c ∈ before ++ after) (data : Bytes) : c.body ≠ .payload data := by
  intro h
  have htype := (hb.blocks c (hp.mem_blocks hc)).hasType
  rw [h] at htype
  exact hp.others c hc (htype.eq_of_classType rfl)

theorem serializable_clip (h : p.Serializable) (hp : p.body = .payload blob)
    (range : UInt64 × UInt64) : (p.clip blob range).Serializable := by
  have htype := h.hasType
  have hlen := h.payload_lt
  rw [hp] at htype hlen
  refine ⟨.inl (congrArg some (htype.eq_of_classType rfl).symm), fun _ hs => ?_, h.contains,
    h.eids_lt, ?_, fun hs => ?_⟩
  · exact absurd hs (by simp [Block.clip, Body.security?])
  · refine lt_of_le_of_lt ?_ hlen
    simp only [Block.clip, Body.serialize, List.length_take, List.length_drop]
    omega
  · exact absurd hs (by simp [Block.clip, Body.classType])

/-- Clipping the payload and leaving out blocks in front of it keeps the mark of the last block. -/
theorem marked_fragmentOf {q : Block → Bool} (h : BlockList.Marked (before ++ p :: after))
    (range : UInt64 × UInt64) :
    BlockList.Marked (before.filter q ++ p.clip blob range :: after) := by
  rcases List.eq_nil_or_concat after with rfl | ⟨cs, last, rfl⟩
  · rw [BlockList.marked_append_singleton] at h ⊢
    exact ⟨fun c hc => h.1 c (List.mem_of_mem_filter hc), h.2⟩
  · rw [List.concat_eq_append, ← List.cons_append, ← List.append_assoc,
      BlockList.marked_append_singleton] at h ⊢
    refine ⟨fun c hc => ?_, h.2⟩
    rcases List.mem_append.1 hc with hc | hc
    · exact h.1 c (List.mem_append_left _ (List.mem_of_mem_filter hc))
    · rcases List.mem_cons.1 hc with rfl | hc
      · exact h.1 p (by simp)
      · exact h.1 c (by simp [hc])

theorem headerEIDs_fragmentOf (b : Bundle) (before : List Block) (p : Block) (after : List Block)
    (blob : Bytes)
    (range : UInt64 × UInt64) :
    headerEIDs (b.fragmentOf before p after blob range).toPrimaryBlock =
      headerEIDs b.toPrimaryBlock := rfl

theorem allEIDs_fragmentOf_subset (hp : b.HasPayload before p after blob) {e : EID}
    (he : e ∈ (b.fragmentOf before p after blob range).allEIDs) : e ∈ b.allEIDs := by
  rw [allEIDs, headerEIDs_fragmentOf] at he
  rw [allEIDs, hp.blocks]
  rcases List.mem_append.1 he with he | he
  · exact List.mem_append_left _ he
  · refine List.mem_append_right _ ?_
    obtain ⟨c, hc, he⟩ := List.mem_flatMap.1 he
    rcases List.mem_append.1 hc with hc | hc
    · exact List.mem_flatMap.2 ⟨c, List.mem_append_left _ (List.mem_of_mem_filter hc), he⟩
    · rcases List.mem_cons.1 hc with rfl | hc
      · exact List.mem_flatMap.2 ⟨p, by simp, he⟩
      · exact List.mem_flatMap.2 ⟨c, by simp [hc], he⟩

theorem serializable_fragmentOf (hb : b.Serializable) (hp : b.HasPayload before p after blob)
    (range : UInt64 × UInt64) : (b.fragmentOf before p after blob range).Serializable := by
  refine ⟨?_, ?_, fun c hc => ?_, ?_⟩
  · simp [fragmentOf]
  · exact marked_fragmentOf (hp.blocks ▸ hb.marked) range
  · rcases List.mem_append.1 hc with hc | hc
    · exact hb.blocks c (hp.mem_blocks (List.mem_append_left _ (List.mem_of_mem_filter hc)))
    · rcases List.mem_cons.1 hc with rfl | hc
      · exact serializable_clip (hb.blocks p hp.mem_self) hp.payload range
      · exact hb.blocks c (hp.mem_blocks (List.mem_append_right _ hc))
  · have h : FlagWord.has (FlagWord.assign b.procflags PrimaryBlock.fragment true)
        PrimaryBlock.appdataIsAdmrecord = b.get PrimaryBlock.appdataIsAdmrecord :=
      FlagWord.has_assign_of_disjoint (by decide) true
    exact h.trans hb.noRecord

/-- **What is read from the fragment of a range**: the primary block with the replaced fields, and
the blocks of the fragment. -/
theorem reads_writeFragment (hb : b.Survives) (hp : b.HasPayload before p after blob)
    (hrange : range.1.toNat + range.2.toNat ≤ blob.length) {s : DefaultSerializer}
    (hs : s.dictionary.good = true) {d : DefaultDeserializer} (hd : d.dictionary.good = true)
    {container : BLOB} (hcontainer : container.CopiesExactly) (now : DTNTime) (obj : Bundle) :
    ∃ n d', (DefaultDeserializer.readBundle (.default container now) d obj).Reads
        (s.writeFragment ⟨b, range.1, range.2⟩).1 (n, d') ∧
      n.toPrimaryBlock = BundleFragment.primary ⟨b, range.1, range.2⟩ ∧
      n.blocks.map Block.view = (b.fragmentOf before p after blob range).blocks.map Block.view := by
  obtain ⟨I, P, f, d', hres, hdict, hd', hP, hf⟩ := hb.exists_resolves hs hd
  have hsub : ∀ e ∈ (b.fragmentOf before p after blob range).allEIDs, e ∈ b.allEIDs :=
    fun e he => allEIDs_fragmentOf_subset hp he
  obtain ⟨n, d'', hread, hprimary, hviews⟩ := DefaultDeserializer.reads_readBundle hres obj
    (b := b.fragmentOf before p after blob range) hdict hd'
    (serializable_fragmentOf hb.serializable hp range) (fun e he => hP e (hsub e he))
    (.default container now) rfl hcontainer
  refine ⟨n, d'', ?_, ?_, ?_⟩
  · have hne {c : Block} (hc : c ∈ before ++ after) : ∀ data, c.body ≠ .payload data :=
      hp.ne_payload hb.serializable hc
    have hwrite (s : DefaultSerializer) :
        s.writeFragmentBlocks range.1 range.2 false b.blocks =
          (b.fragmentOf before p after blob range).blocks.flatMap s.writeBlock := by
      rw [hp.blocks, s.writeFragmentBlocks_append _ _ fun c hc => hne (List.mem_append_left _ hc),
        DefaultSerializer.writeFragmentBlocks, hp.payload]
      simp only [fragmentOf, List.flatMap_append, List.flatMap_cons, s.writePayload_eq p hrange,
        s.writeFragmentBlocks_true range.1 range.2
          fun c hc => hne (List.mem_append_right before hc)]
    rw [DefaultSerializer.writeFragment]
    simp only [hwrite]
    exact hread
  · have heids : ∀ e ∈ headerEIDs b.toPrimaryBlock, f e = e :=
      fun e he => hf e (List.mem_append_left _ he)
    simp only [headerEIDs, List.forall_mem_cons] at heids
    obtain ⟨hdestination, hsource, hreportto, hcustodian, -⟩ := heids
    have hmark : (BundleFragment.primary ⟨b, range.1, range.2⟩).get PrimaryBlock.fragment = true :=
      FlagWord.has_assign_self (by decide) true
    rw [hprimary, DefaultDeserializer.receivedPrimary]
    simp only [fragmentOf, hmark, if_true]
    simp only [BundleFragment.primary, PrimaryBlock.set, hdestination, hsource, hreportto,
      hcustodian]
  · rw [hviews]
    refine List.map_congr_left fun c hc => ?_
    have hmap : c.eids.map f = c.eids := by
      refine (List.map_congr_left fun e he => hf e (hsub e ?_)).trans (List.map_id c.eids)
      exact List.mem_append_right _ (List.mem_flatMap.2 ⟨c, hc, he⟩)
    rw [Block.mapEIDs, hmap]

/-! ### When the fragments are what they have to be -/

/-- The fields of the ranges that the operator writes are right. -/
structure FitsFragment (b : Bundle) (blob : Bytes) (range : UInt64 × UInt64) : Prop where
  offset : if b.get PrimaryBlock.fragment then
    b.fragmentoffset.toNat + range.1.toNat < 2 ^ 64 else b.fragmentoffset = 0
  length : range.2.toNat = b.total blob

/-- The offset of a fragment is right exactly if it does not exceed 64 bits, and if the bundle has
no offset unless it is a fragment itself. -/
theorem toNat_offset_eq_iff (b : Bundle) (offset : UInt64) :
    (b.fragmentoffset + offset).toNat = b.start + offset.toNat ↔
      if b.get PrimaryBlock.fragment then
        b.fragmentoffset.toNat + offset.toNat < 2 ^ 64 else b.fragmentoffset = 0 := by
  have hoffset := offset.toNat_lt
  have hstart := b.fragmentoffset.toNat_lt
  rw [start, UInt64.toNat_add]
  split_ifs
  · omega
  · rw [← UInt64.toNat_inj, UInt64.toNat_zero]
    omega

/-- The blocks of a fragment are right exactly if all blocks in front of the payload are in every
fragment or this is not the first one, and all blocks behind it are or this is the last one. -/
theorem blocks_fragmentOf_iff (hp : b.HasPayload before p after blob) (hb : b.Serializable)
    (range : UInt64 × UInt64) (isFirst isLast : Bool) :
    (b.fragmentOf before p after blob range).blocks.map (fun c => c.view.unmarked) =
        ((before.filter fun c => c.get Block.replicateInEveryFragment || isFirst) ++
          p.clip blob range ::
            after.filter fun c => c.get Block.replicateInEveryFragment || isLast).map
          (fun c => c.view.unmarked) ↔
      (isFirst = true → ∀ c ∈ before, c.get Block.replicateInEveryFragment = true) ∧
        (isLast = false → ∀ c ∈ after, c.get Block.replicateInEveryFragment = true) := by
  have hpayload : p.blocktype = Block.payloadType := by
    have htype := (hb.blocks p hp.mem_self).hasType
    rw [hp.payload] at htype
    exact htype.eq_of_classType rfl
  have hnot {bs : List Block} (hbs : ∀ c ∈ bs, c ∈ before ++ after) :
      (p.clip blob range).view.unmarked ∉ bs.map fun c => c.view.unmarked := by
    intro hmem
    obtain ⟨c, hc, heq⟩ := List.mem_map.1 hmem
    have htype : c.blocktype = p.blocktype := congrArg Block.View.blocktype heq
    exact hp.others c (hbs c hc) (htype.trans hpayload)
  have hbefore : (before.filter fun c => c.get Block.replicateInEveryFragment).map
        (fun c => c.view.unmarked) =
      (before.filter fun c => c.get Block.replicateInEveryFragment || isFirst).map
        (fun c => c.view.unmarked) ↔
      (isFirst = true → ∀ c ∈ before, c.get Block.replicateInEveryFragment = true) := by
    cases isFirst with
    | false => simp
    | true =>
        simp only [Bool.or_true, List.filter_true, forall_const]
        refine ⟨fun h => ?_, fun h => by rw [List.filter_eq_self.2 h]⟩
        have hlen := congrArg List.length h
        rw [List.length_map, List.length_map] at hlen
        exact List.length_filter_eq_length_iff.1 hlen
  have hafter : after.map (fun c => c.view.unmarked) =
      (after.filter fun c => c.get Block.replicateInEveryFragment || isLast).map
        (fun c => c.view.unmarked) ↔
      (isLast = false → ∀ c ∈ after, c.get Block.replicateInEveryFragment = true) := by
    cases isLast with
    | true => simp
    | false =>
        simp only [Bool.or_false, forall_const]
        refine ⟨fun h => ?_, fun h => by rw [List.filter_eq_self.2 h]⟩
        have hlen := congrArg List.length h
        rw [List.length_map, List.length_map] at hlen
        exact List.length_filter_eq_length_iff.1 hlen.symm
  rw [fragmentOf, List.map_append, List.map_append, List.map_cons, List.map_cons,
    List.append_cons_inj_of_notMem
      (hnot fun c hc => List.mem_append_left after (List.mem_of_mem_filter hc))
      (hnot fun c hc => List.mem_append_right before hc), hbefore, hafter]
  simp only [true_and]

section Law

variable {ranges : List (UInt64 × UInt64)} {s : DefaultSerializer} {d : DefaultDeserializer}
  {container : BLOB} (hb : b.Survives) (hp : b.HasPayload before p after blob)
  (hranges : Consecutive 0 ranges blob.length) (hne : ranges ≠ [])
  (hs : s.dictionary.good = true) (hd : d.dictionary.good = true)
  (hcontainer : container.CopiesExactly) (now : DTNTime) (obj : Bundle)

include hb hp hranges hs hd hcontainer

/-- One fragment is read back as what it has to be exactly if its fields fit and the blocks that
only some fragments have are not missing or too many. -/
theorem isFragment_iff {range : UInt64 × UInt64} (hrange : range ∈ ranges) (isFirst isLast : Bool) :
    (∃ n d', (DefaultDeserializer.readBundle (.default container now) d obj).Reads
        (s.writeFragment ⟨b, range.1, range.2⟩).1 (n, d') ∧
        IsFragment b before p after blob range isFirst isLast n) ↔
      FitsFragment b blob range ∧
        (isFirst = true → ∀ c ∈ before, c.get Block.replicateInEveryFragment = true) ∧
        (isLast = false → ∀ c ∈ after, c.get Block.replicateInEveryFragment = true) := by
  obtain ⟨n, d', hread, hprimary, hviews⟩ := reads_writeFragment hb hp (hranges.add_le hrange) hs hd
    hcontainer now obj
  have hblocks : n.blocks.map (fun c => c.view.unmarked) =
      (b.fragmentOf before p after blob range).blocks.map fun c => c.view.unmarked := by
    have h := congrArg (List.map Block.View.unmarked) hviews
    rwa [List.map_map, List.map_map] at h
  have hmarked : n.get PrimaryBlock.fragment = true := by
    rw [hprimary]
    exact FlagWord.has_assign_self (by decide) true
  have hoffset : n.fragmentoffset = b.fragmentoffset + range.1 := by rw [hprimary]; rfl
  have hlength : n.appdatalength = range.2 := by rw [hprimary]; rfl
  constructor
  · rintro ⟨m, d'', hread', hm⟩
    obtain rfl : m = n := congrArg Prod.fst (hread'.unique hread)
    refine ⟨⟨?_, ?_⟩, ?_⟩
    · rw [← toNat_offset_eq_iff, ← hoffset]
      exact hm.offset
    · rw [← hlength]
      exact hm.appdatalength
    · rw [← blocks_fragmentOf_iff hp hb.serializable, ← hblocks]
      exact hm.blocks
  · rintro ⟨hfits, hreplicated⟩
    refine ⟨n, d', hread, hmarked, ?_, ?_, ?_, ?_, ?_, ?_⟩
    · rw [hprimary]
      rfl
    · rw [hprimary]
      rfl
    · rw [hprimary]
      rfl
    · rw [hoffset]
      exact (toNat_offset_eq_iff b range.1).2 hfits.offset
    · rw [hlength]
      exact hfits.length
    · rw [hblocks]
      exact (blocks_fragmentOf_iff hp hb.serializable range isFirst isLast).2 hreplicated

include hne

/-- **The fragments are what they have to be** exactly if each range is as long as the application
data, the bundle has no offset unless it is a fragment, all blocks in front of the payload are
marked as replicated, and so are the blocks behind it, if there is more than one fragment. -/
theorem fragmented_iff :
    Fragmented s d (.default container now) obj b before p after blob ranges ↔
      (∀ range ∈ ranges, FitsFragment b blob range) ∧
        (∀ c ∈ before, c.get Block.replicateInEveryFragment = true) ∧
        (1 < ranges.length → ∀ c ∈ after, c.get Block.replicateInEveryFragment = true) := by
  have hpos : 0 < ranges.length := List.length_pos_of_ne_nil hne
  have hiff (i : ℕ) (h : i < ranges.length) := isFragment_iff hb hp hranges hs hd hcontainer now obj
    (List.getElem_mem h) (i == 0) (i + 1 == ranges.length)
  constructor
  · intro h
    refine ⟨fun range hrange => ?_, ?_, fun hmany => ?_⟩
    · obtain ⟨i, hi, rfl⟩ := List.getElem_of_mem hrange
      exact ((hiff i hi).1 (h i hi)).1
    · exact ((hiff 0 hpos).1 (h 0 hpos)).2.1 rfl
    · exact ((hiff 0 hpos).1 (h 0 hpos)).2.2 (by simpa using by omega)
  · rintro ⟨hfits, hbefore, hafter⟩ i hi
    refine (hiff i hi).2 ⟨hfits _ (List.getElem_mem hi), fun _ => hbefore, fun hlast => hafter ?_⟩
    have hne : i + 1 ≠ ranges.length := by simpa using hlast
    omega

end Law

/-- A payload of two bytes behind an extension block with the given flags. -/
def sampleBehind (procflags : UInt64) : Bundle :=
  sample [⟨200, procflags, [], .extension [1]⟩, samplePayload Block.lastBlock []]

theorem survives_sampleBehind : (sampleBehind 1).Survives := by
  refine ⟨⟨by decide, ⟨by decide, rfl⟩, fun c hc => ?_, by decide⟩, by decide, by decide,
    by decide⟩
  simp only [sampleBehind, sample, List.mem_cons, List.not_mem_nil, or_false] at hc
  rcases hc with rfl | rfl
  · exact ⟨by decide, fun _ h => absurd h (by simp [Body.security?]), by decide, by decide,
      by decide, by decide⟩
  · exact ⟨by decide, fun _ h => absurd h (by simp [samplePayload, Body.security?]), by decide,
      by decide, by decide, by decide⟩

theorem fragmented_iff_sample :
    Fragmented DefaultSerializer.create DefaultDeserializer.create (.default BLOB.exact ⟨0, 0⟩)
      (create 0 0) (sampleBehind 1) [⟨200, 1, [], .extension [1]⟩]
      (samplePayload Block.lastBlock []) [] [0x68, 0x69] [(0, 2)] := by
  refine (fragmented_iff survives_sampleBehind ⟨rfl, rfl, by decide⟩
    (show Consecutive 0 [(0, 2)] 2 from ⟨rfl, rfl⟩) (by decide) rfl rfl
    BLOB.exact_copiesExactly ⟨0, 0⟩ (create 0 0)).2 ⟨fun range hrange => ?_, by decide, by decide⟩
  obtain rfl := List.mem_singleton.1 hrange
  exact ⟨by decide, by decide⟩

/-- The bundle that a new deserializer reads from a fragment. -/
def rereadFragment (obj : BundleFragment) : Option Bundle :=
  let reader := DefaultDeserializer.readBundle (.default BLOB.exact ⟨0, 0⟩)
    DefaultDeserializer.create (Bundle.create 0 0)
  match (reader.run (InStream.ofBytes (DefaultSerializer.create.writeFragment obj).1)).1 with
  | .ok (n, _) => some n
  | .error _ => none

/-- **Fragments that are shorter than the payload have their own length as that of the application
data, and a fragment with the whole payload lacks a block in front of it.** -/
theorem not_fragmented_sample :
    ¬ Fragmented DefaultSerializer.create DefaultDeserializer.create (.default BLOB.exact ⟨0, 0⟩)
      (create 0 0) (sampleBehind 1) [⟨200, 1, [], .extension [1]⟩]
      (samplePayload Block.lastBlock []) [] [0x68, 0x69] [(0, 1), (1, 1)] ∧
    ¬ Fragmented DefaultSerializer.create DefaultDeserializer.create (.default BLOB.exact ⟨0, 0⟩)
      (create 0 0) (sampleBehind 0) [⟨200, 0, [], .extension [1]⟩]
      (samplePayload Block.lastBlock []) [] [0x68, 0x69] [(0, 2)] := by
  have hread {obj : BundleFragment} {n : Bundle} {d' : DefaultDeserializer}
      (h : (DefaultDeserializer.readBundle (.default BLOB.exact ⟨0, 0⟩)
        DefaultDeserializer.create (create 0 0)).Reads
        (DefaultSerializer.create.writeFragment obj).1 (n, d')) : rereadFragment obj = some n := by
    have hrun := h.ofBytes []
    rw [List.append_nil] at hrun
    rw [rereadFragment, hrun]
  constructor
  · intro h
    obtain ⟨n, d', hn, hfragment⟩ := h 0 (by decide)
    have hlen : (rereadFragment ⟨sampleBehind 1, 0, 1⟩).map (fun n => n.appdatalength.toNat) =
        some 1 := by decide +kernel
    rw [show rereadFragment ⟨sampleBehind 1, 0, 1⟩ = some n from hread hn, Option.map_some,
      hfragment.appdatalength] at hlen
    exact absurd hlen (by decide)
  · intro h
    obtain ⟨n, d', hn, hfragment⟩ := h 0 (by decide)
    have hblocks : (rereadFragment ⟨sampleBehind 0, 0, 2⟩).map (fun n => n.blocks.length) =
        some 1 := by decide +kernel
    rw [show rereadFragment ⟨sampleBehind 0, 0, 2⟩ = some n from hread hn,
      Option.map_some] at hblocks
    have hlen := congrArg List.length hfragment.blocks
    rw [List.length_map, Option.some.inj hblocks] at hlen
    exact absurd hlen (by decide)

end Bundle

end IbrDtn
