import IbrDtn.Data.RoundTrip

/-!
# Bundles with compressed references

This file instantiates the round trip for compressed headers, in which an EID is a pair of
numbers.  An EID is resolved to the one that its numbers denote, so the addressing of a bundle is
preserved exactly when all its EIDs are canonical.  The serializer does not ask for that: it
compresses every EID of the scheme `ipn`.

## Main definitions

* `Bundle.KeepsAddressing` : the operators read all EIDs of a bundle back from a compressed header.

## Main results

* `DefaultDeserializer.reads_writeBundle_compressed` : a bundle with a compressed header is read
  back with the EIDs that their numbers denote.
* `Bundle.keepsAddressing_iff` : which bundles keep their addressing.
-/

namespace IbrDtn

namespace DefaultDeserializer

section Compressed

variable {s : DefaultSerializer} (hs : s.compressable = true)

include hs

theorem ref_compressed (e : EID) : s.ref e = e.compressed := by
  rw [DefaultSerializer.ref, if_pos hs]

/-- The references are numbers, which denote an EID to every reader of a compressed header. -/
theorem resolves_compressed :
    Resolves s (fun d => d.compressed = true) (fun _ => True) EID.decompressed := by
  refine ⟨fun hd _ => ?_, fun hd _ => ?_⟩
  · rw [lookupEID, if_pos hd, ref_compressed hs, EID.decompressed]
  · rw [lookupEID, if_pos hd]
    exact hd

/-- The reader does not use its dictionary for that, and can read another bundle with it. -/
theorem resolves_compressed_good :
    Resolves s (fun d => d.compressed = true ∧ d.dictionary.good = true) (fun _ => True)
      EID.decompressed := by
  refine ⟨fun hd he => (resolves_compressed hs).fst hd.1 he, fun hd he => ?_⟩
  rw [lookupEID, if_pos hd.1]
  exact hd

/-- The header without dictionary: its size zero is refused, which the reader takes to mean that
the references are compressed. -/
theorem readsDictionary_compressed (p : PrimaryBlock) (d : DefaultDeserializer) :
    ReadsDictionary s EID.decompressed p d { d with compressed := true } := by
  have hread : (d.readEIDs (s.ref p.destination) (s.ref p.source) (s.ref p.reportto)
      (s.ref p.custodian)).Throws (SDNV.write 0) (.invalidData "Dictionary size is zero!") :=
    (Dictionary.throws_read d.dictionary).bind _
  have hcatch := throws_catching (c := Exn.isInvalidData) hread rfl (Parser.reads_pure
    (d.compressedEIDs (s.ref p.destination) (s.ref p.source) (s.ref p.reportto)
      (s.ref p.custodian)))
  rw [List.append_nil] at hcatch
  rw [ReadsDictionary, DefaultSerializer.writeDictionary, if_pos hs]
  simpa only [compressedEIDs, ref_compressed hs, EID.decompressed] using hcatch

end Compressed

/-- **The round trip of a bundle with a compressed header**: its EIDs are replaced by those that
their numbers denote. -/
theorem reads_writeBundle_compressed (s : DefaultSerializer) {b : Bundle} (obj : Bundle)
    (hform : DefaultSerializer.isCompressable b = true) (hb : b.Serializable)
    (d : DefaultDeserializer) {blob : BLOB} (hblob : blob.CopiesExactly) (now : DTNTime) :
    ∃ n d', (readBundle (.default blob now) d obj).Reads (s.writeBundle b).1 (n, d') ∧
      n.toPrimaryBlock = receivedPrimary EID.decompressed b.toPrimaryBlock obj.toPrimaryBlock ∧
      n.blocks.map Block.view = b.blocks.map fun c => (c.mapEIDs EID.decompressed).view := by
  obtain ⟨n, d', hread, hprimary, hviews⟩ := reads_readBundle
    (s := { s.rebuildDictionary b with compressable := true }) (resolves_compressed rfl)
    obj (readsDictionary_compressed rfl b.toPrimaryBlock d) rfl hb (fun _ _ => trivial)
    (.default blob now) rfl hblob
  refine ⟨n, d', ?_, hprimary, hviews⟩
  rw [DefaultSerializer.writeBundle, hform]
  exact hread

/-! ### The operators on their own -/

theorem keeps_blockDeserialize (blob : BLOB) (length : UInt64) :
    Loader.Keeps (Block.deserialize blob length) Block.eids := by
  refine (Loader.keeps_object _).bind fun b => Loader.Keeps.bind
    (Loader.keeps_within (fun body (b : Block) => { b with body }) (fun _ _ => rfl) _ _)
    fun _ => ?_
  cases b.body.forwardedMark with
  | none => exact Loader.keeps_pure _ _
  | some value => exact Loader.keeps_update fun _ => rfl

/-- The EIDs that a block has after it was read from a compressed bundle. -/
def receivedEIDs (c : Block) : List EID :=
  if c.get Block.blockContainsEids then c.eids.map EID.decompressed else []

theorem loads_readEIDList_compressed {s : DefaultSerializer} (hs : s.compressable = true)
    {c n : Block} (hflags : n.procflags = c.procflags) (hlen : c.eids.length < 2 ^ 32)
    (hn : n.eids = []) {d : DefaultDeserializer} (hd : d.compressed = true) :
    ∃ d', (readEIDList c.procflags).Loads
      (optional (c.get Block.blockContainsEids)
        (SDNV.write (UInt64.ofNat c.eids.length) ++ s.writeRefs c.eids))
      (d, n) (d', { n with eids := receivedEIDs c }) () := by
  rw [receivedEIDs]
  cases hc : c.get Block.blockContainsEids with
  | false =>
      refine ⟨d, ?_⟩
      rw [readEIDList, ← Block.get, hc, if_neg Bool.false_ne_true, if_neg Bool.false_ne_true, ← hn]
      exact Loader.loads_pure () _
  | true =>
      obtain ⟨d', -, hload⟩ := loads_readEIDList (resolves_compressed hs) hflags hn
        (fun _ => hc) (fun _ _ => trivial) hlen hd
      rw [hc] at hload
      exact ⟨d', hload⟩

/-- **Reading a block leaves it with the images of the EIDs that its flags announce**, whether its
payload can be read or not. -/
theorem leaves_readBlock {s : DefaultSerializer} (hs : s.compressable = true)
    (env : DeserializerEnv) {c n : Block} (hlen : c.eids.length < 2 ^ 32) (hn : n.eids = [])
    (hlast : n.procflags &&& Block.lastBlock = Block.lastBlock)
    {d : DefaultDeserializer} (hd : d.compressed = true) :
    (readBlock env).Leaves (s.writeBlock c) (d, n) fun o => o.2.eids = receivedEIDs c := by
  let n₁ : Block := { n with blocktype := c.blocktype, procflags := c.procflags }
  obtain ⟨d', heids⟩ := loads_readEIDList_compressed hs (c := c) (n := n₁) rfl hlen hn hd
  have hflags : c.procflags &&& (~~~Block.lastBlock ||| n.procflags) = c.procflags :=
    FlagWord.and_not_or_of_and_eq hlast
  refine (Loader.loads_object _).leaves_bind_nil ?_
  refine (Loader.loads_ofParser (Parser.reads_getByte _ c.blocktype) _).leaves_bind_cons
    ((Loader.loads_update _ _).leaves_bind_nil ?_)
  refine (Loader.loads_ofParser (SDNV.reads_read c.procflags) _).leaves_bind
    ((Loader.loads_update _ _).leaves_bind_nil ?_)
  simp only [hflags]
  refine (Loader.loads_object _).leaves_bind_nil (heids.leaves_bind ?_)
  refine (Loader.loads_ofParser (SDNV.reads_read _) _).leaves_bind ?_
  refine (Loader.loads_object _).leaves_bind_nil ?_
  refine Loader.leaves_ofExcept_bind rfl fun _ => ?_
  exact (keeps_blockDeserialize _ _).leaves_within (fun _ h => h) _

end DefaultDeserializer

theorem Block.eids_receiver (type : UInt8) : (Block.receiver type).eids = [] := by
  rw [Block.receiver]
  cases hf : Factory.get type with
  | some n => exact Factory.eids_of_get hf
  | none =>
      simp only
      split_ifs <;> rfl

theorem map_decompressed_eq_iff (eids : List EID) :
    eids.map EID.decompressed = eids ↔ ∀ e ∈ eids, e.IsCanonical := by
  simp only [← EID.decompressed_eq_iff]
  nth_rewrite 2 [← List.map_id eids]
  exact List.map_inj_left

namespace Bundle

theorem headerEIDs_receivedPrimary (f : EID → EID) (p obj : PrimaryBlock) :
    headerEIDs (DefaultDeserializer.receivedPrimary f p obj) = (headerEIDs p).map f := rfl

/-- The serializer that writes a compressed bundle. -/
def compressor (b : Bundle) : DefaultSerializer :=
  { DefaultSerializer.create.rebuildDictionary b with compressable := true }

/-- The operators keep the EIDs of a compressed bundle: the primary block is read back with the
same four EIDs, and every block that is read behind it, into the new block that the reader
appends, has the same list of EIDs afterwards. -/
def KeepsAddressing (env : DeserializerEnv) (b : Bundle) : Prop :=
  ∃ p d, (DefaultDeserializer.readPrimary env DefaultDeserializer.create
      (PrimaryBlock.create 0 0)).Reads (b.compressor.writePrimary b.toPrimaryBlock).1 (p, d) ∧
    headerEIDs p = headerEIDs b.toPrimaryBlock ∧
    ∀ c ∈ b.blocks, (DefaultDeserializer.readBlock env).Leaves
      ((b.compressor.writePrimary b.toPrimaryBlock).2.writeBlock c)
      (d, (Block.receiver c.blocktype).set Block.lastBlock true) fun o => o.2.eids = c.eids

theorem receivedEIDs_eq_iff (c : Block) :
    DefaultDeserializer.receivedEIDs c = c.eids ↔
      (∀ e ∈ c.eids, e.IsCanonical) ∧ (c.eids ≠ [] → c.get Block.blockContainsEids = true) := by
  rw [DefaultDeserializer.receivedEIDs]
  cases hc : c.get Block.blockContainsEids with
  | true =>
      rw [if_pos rfl, map_decompressed_eq_iff]
      simp
  | false =>
      rw [if_neg Bool.false_ne_true]
      constructor
      · intro h
        rw [← h]
        simp
      · rintro ⟨-, h⟩
        by_contra hne
        exact Bool.false_ne_true (h fun hnil => hne hnil.symm)

/-- **The operators keep the addressing of a compressed bundle exactly when** all its EIDs are
canonical and its blocks announce the EIDs that they carry. -/
theorem keepsAddressing_iff {env : DeserializerEnv}
    (hprimary : ∀ p, env.validator.primaryBlock p = .ok ()) {b : Bundle}
    (hlen : ∀ c ∈ b.blocks, c.eids.length < 2 ^ 32) :
    b.KeepsAddressing env ↔ (∀ e ∈ b.allEIDs, e.IsCanonical) ∧
      ∀ c ∈ b.blocks, c.eids ≠ [] → c.get Block.blockContainsEids = true := by
  let d₀ : DefaultDeserializer := { DefaultDeserializer.create with compressed := true }
  have hheader := DefaultDeserializer.reads_readPrimary (PrimaryBlock.create 0 0)
    (DefaultDeserializer.readsDictionary_compressed (s := b.compressor) rfl b.toPrimaryBlock
      DefaultDeserializer.create) hprimary
  have hblock (c : Block) (hc : c ∈ b.blocks) := DefaultDeserializer.leaves_readBlock
    (s := (b.compressor.writePrimary b.toPrimaryBlock).2) rfl env (hlen c hc)
    (n := (Block.receiver c.blocktype).set Block.lastBlock true) (Block.eids_receiver _)
    (FlagWord.or_and_self _ _) (d := d₀) rfl
  have hall : (∀ e ∈ b.allEIDs, e.IsCanonical) ↔
      (∀ e ∈ headerEIDs b.toPrimaryBlock, e.IsCanonical) ∧
        ∀ c ∈ b.blocks, ∀ e ∈ c.eids, e.IsCanonical := by
    simp only [allEIDs, List.forall_mem_append, List.forall_mem_flatMap]
  rw [hall]
  constructor
  · rintro ⟨p, d, hread, hp, hblocks⟩
    obtain ⟨rfl, rfl⟩ := Prod.mk.inj (hread.unique hheader)
    rw [headerEIDs_receivedPrimary, map_decompressed_eq_iff] at hp
    have hlists (c : Block) (hc : c ∈ b.blocks) := (receivedEIDs_eq_iff c).1
      (((hblock c hc) [] []).symm.trans ((hblocks c hc) [] []))
    exact ⟨⟨hp, fun c hc => (hlists c hc).1⟩, fun c hc => (hlists c hc).2⟩
  · rintro ⟨⟨hp, hlists⟩, hannounced⟩
    refine ⟨_, _, hheader, ?_, fun c hc r st => ?_⟩
    · rw [headerEIDs_receivedPrimary, map_decompressed_eq_iff]
      exact hp
    · rw [← (receivedEIDs_eq_iff c).2 ⟨hlists c hc, hannounced c hc⟩]
      exact hblock c hc r st

/-- The bundle is read back with the same four EIDs and the same list of EIDs in every block. -/
def RereadsAddressing (env : DeserializerEnv) (b : Bundle) : Prop :=
  ∃ n d, (DefaultDeserializer.readBundle env DefaultDeserializer.create (Bundle.create 0 0)).Reads
      (DefaultSerializer.create.writeBundle b).1 (n, d) ∧
    headerEIDs n.toPrimaryBlock = headerEIDs b.toPrimaryBlock ∧
    n.blocks.map Block.eids = b.blocks.map Block.eids

theorem rereadsAddressing_iff {b : Bundle} (hform : DefaultSerializer.isCompressable b = true)
    (hb : b.Serializable) {blob : BLOB} (hblob : blob.CopiesExactly) (now : DTNTime) :
    b.RereadsAddressing (.default blob now) ↔ ∀ e ∈ b.allEIDs, e.IsCanonical := by
  obtain ⟨n, d, hread, hprimary, hviews⟩ := DefaultDeserializer.reads_writeBundle_compressed
    DefaultSerializer.create (Bundle.create 0 0) hform hb DefaultDeserializer.create hblob now
  have hheader : headerEIDs n.toPrimaryBlock = headerEIDs b.toPrimaryBlock ↔
      ∀ e ∈ headerEIDs b.toPrimaryBlock, e.IsCanonical := by
    rw [hprimary, headerEIDs_receivedPrimary, map_decompressed_eq_iff]
  have heids : n.blocks.map Block.eids = b.blocks.map fun c => c.eids.map EID.decompressed := by
    have h := congrArg (List.map Block.View.eids) hviews
    rw [List.map_map, List.map_map] at h
    exact h
  have hlists : n.blocks.map Block.eids = b.blocks.map Block.eids ↔
      ∀ c ∈ b.blocks, ∀ e ∈ c.eids, e.IsCanonical := by
    simp only [heids, List.map_inj_left, map_decompressed_eq_iff]
  have hall : (∀ e ∈ b.allEIDs, e.IsCanonical) ↔
      (∀ e ∈ headerEIDs b.toPrimaryBlock, e.IsCanonical) ∧
        ∀ c ∈ b.blocks, ∀ e ∈ c.eids, e.IsCanonical := by
    simp only [allEIDs, List.forall_mem_append, List.forall_mem_flatMap]
  rw [hall, ← hheader, ← hlists]
  constructor
  · rintro ⟨n', d', hread', h⟩
    obtain ⟨rfl, rfl⟩ := Prod.mk.inj (hread'.unique hread)
    exact h
  · exact fun h => ⟨n, d, hread, h⟩

/-- **Which compressed bundles keep their addressing.** For the operators on their own these are the
bundles whose EIDs are canonical and announced; a bundle that survives the round trip otherwise
is read back with its addressing exactly when its EIDs are canonical. -/
theorem addressing_iff {b : Bundle} (hform : DefaultSerializer.isCompressable b = true)
    (hlen : ∀ c ∈ b.blocks, c.eids.length < 2 ^ 32) {blob : BLOB} (hblob : blob.CopiesExactly)
    (now : DTNTime) :
    (b.KeepsAddressing (.default blob now) ↔ (∀ e ∈ b.allEIDs, e.IsCanonical) ∧
        ∀ c ∈ b.blocks, c.eids ≠ [] → c.get Block.blockContainsEids = true) ∧
      (b.Serializable → (b.RereadsAddressing (.default blob now) ↔
        ∀ e ∈ b.allEIDs, e.IsCanonical)) :=
  ⟨keepsAddressing_iff (fun _ => rfl) hlen, fun hb => rereadsAddressing_iff hform hb hblob now⟩

/-- A bundle from an `ipn` endpoint. -/
def sampleFrom (ssp : List Char) : Bundle :=
  { sample [samplePayload Block.lastBlock []] with source := ⟨EID.cbheScheme, ascii ssp⟩ }

/-- The source of the bundle that a new deserializer reads. -/
def rereadSource (b : Bundle) : Option EID :=
  match b.reread.1 with
  | .ok n => some n.source
  | .error _ => none

/-- Scheme specific parts and what they come back as: a number with a leading zero, a node without
application, a part that is no number, and a node number beyond 64 bits. -/
def unstableSsps : List (List Char × EID) :=
  [(['0', '1', '.', '2'], EID.ofNumbers 1 2), (['5'], EID.ofNumbers 5 0),
    (['a', 'b', 'c'], EID.none),
    (['1', '8', '4', '4', '6', '7', '4', '4', '0', '7', '3', '7', '0', '9', '5', '5', '1', '6', '1',
      '6', '.', '1'], EID.ofNumbers 0xffffffffffffffff 1)]

/-- **Not every compressed bundle keeps its source.** -/
theorem rereadSource_unstableSsps :
    unstableSsps.Forall fun p => DefaultSerializer.isCompressable (sampleFrom p.1) = true ∧
      (sampleFrom p.1).rereadSource = some p.2 ∧ p.2 ≠ (sampleFrom p.1).source := by
  decide +kernel

theorem addressing_iff_sampleFrom :
    (∀ e ∈ (sampleFrom ['1', '.', '2']).allEIDs, e.IsCanonical) ∧
      (sampleFrom ['1', '.', '2']).KeepsAddressing (.default BLOB.exact ⟨0, 0⟩) ∧
      (sampleFrom ['1', '.', '2']).RereadsAddressing (.default BLOB.exact ⟨0, 0⟩) := by
  have hcanonical : ∀ e ∈ (sampleFrom ['1', '.', '2']).allEIDs, e.IsCanonical := by
    decide +kernel
  have hserializable : (sampleFrom ['1', '.', '2']).Serializable := by
    refine ⟨by decide, rfl, fun c hc => ?_, by decide⟩
    simp only [sampleFrom, sample, List.mem_cons, List.not_mem_nil, or_false] at hc
    subst hc
    exact ⟨by decide, fun _ h => absurd h (by simp [samplePayload, Body.security?]), by decide,
      by decide, by decide, by decide⟩
  have h := addressing_iff (b := sampleFrom ['1', '.', '2']) (by decide +kernel) (by decide)
    BLOB.exact_copiesExactly ⟨0, 0⟩
  exact ⟨hcanonical, h.1.2 ⟨hcanonical, by decide⟩, (h.2 hserializable).2 hcanonical⟩

end Bundle

end IbrDtn
