import IbrDtn.Data.UncompressedHeader
import IbrDtn.Data.CompressedHeader

/-!
# The transport of a bundle

A bundle is transported when a serializer writes it and a deserializer reads it, with a header of
the form that the serializer chooses.  This file joins the two forms, and says exactly what the
reader gets.

## Main definitions

* `Bundle.resolved` : what the references to the EIDs of a bundle are resolved to.
* `Bundle.Transportable` : the bundles that can be read back.
* `Bundle.transported` : what the reader gets.

## Main results

* `Bundle.Transportable.reads_transported` : a bundle is read back from a header of either form.
-/

namespace IbrDtn

namespace Block

/-- Blocks are equal if their members are. -/
theorem ext {c c' : Block} (hblocktype : c.blocktype = c'.blocktype)
    (hprocflags : c.procflags = c'.procflags) (heids : c.eids = c'.eids)
    (hbody : c.body = c'.body) : c = c' := by
  cases c
  cases c'
  exact (Block.mk.injEq ..).mpr ⟨hblocktype, hprocflags, heids, hbody⟩

theorem get_transported (f : EID → EID) (c : Block) {flag : UInt64}
    (h : forwardedWithoutProcessed &&& flag = 0) : (c.transported f).get flag = c.get flag :=
  get_withMark _ _ h

/-- The mark is the same after a transport exactly if it is the one that the reader sets. -/
theorem procflags_transported_iff (f : EID → EID) (c : Block) :
    (c.transported f).procflags = c.procflags ↔
      ∀ value ∈ (receiver c.blocktype).body.forwardedMark,
        c.get forwardedWithoutProcessed = value := by
  rw [transported]
  cases hmark : (receiver c.blocktype).body.forwardedMark with
  | none => simp [withMark]
  | some value =>
      simp only [withMark, set, Option.mem_def, Option.some.injEq, forall_eq']
      constructor
      · intro h
        have hget : FlagWord.has
            (FlagWord.assign c.procflags forwardedWithoutProcessed value)
            forwardedWithoutProcessed = value := FlagWord.has_assign_self (by decide) value
        rwa [h] at hget
      · rintro rfl
        exact FlagWord.assign_of_has ⟨5, by decide, by decide⟩ rfl

end Block

namespace Bundle

/-- What the references to the EIDs of the bundle are resolved to. -/
def resolved (b : Bundle) : EID → EID :=
  if DefaultSerializer.isCompressable b then EID.decompressed else EID.trimmed

/-- The serializer that has the dictionary and the form of the bundle. -/
def serializer (s : DefaultSerializer) (b : Bundle) : DefaultSerializer :=
  { s.rebuildDictionary b with compressable := DefaultSerializer.isCompressable b }

/-- The bundle can be written, and read if nothing of it is dropped. -/
structure Sendable (b : Bundle) : Prop where
  nonempty : b.blocks ≠ []
  marked : BlockList.Marked b.blocks
  blocks : ∀ c ∈ b.blocks, c.Sendable
  nameable : DefaultSerializer.isCompressable b = false → ∀ e ∈ b.allEIDs, Dictionary.Nameable e
  size_lt : (b.allEIDs.map Dictionary.sizeOf).sum < 2 ^ 64

/-- The bundle can be read back. -/
structure Transportable (b : Bundle) : Prop where
  serializable : b.Serializable
  nameable : DefaultSerializer.isCompressable b = false → ∀ e ∈ b.allEIDs, Dictionary.Nameable e
  size_lt : (b.allEIDs.map Dictionary.sizeOf).sum < 2 ^ 64

/-- What the reader gets, when it reads the bundle into `obj`. -/
def transported (b obj : Bundle) : Bundle :=
  { DefaultDeserializer.receivedPrimary b.resolved b.toPrimaryBlock obj.toPrimaryBlock with
    blocks := b.blocks.map (Block.transported b.resolved) }

variable {b : Bundle}

theorem Transportable.sendable (hb : b.Transportable) : b.Sendable :=
  ⟨hb.serializable.nonempty, hb.serializable.marked,
    fun c hc => (hb.serializable.blocks c hc).sendable, hb.nameable, hb.size_lt⟩

/-- References to the EIDs of a bundle lead to what they are resolved to, also behind copies of the
dictionary. -/
theorem Sendable.exists_resolves (hb : b.Sendable) {s : DefaultSerializer}
    (hs : s.dictionary.good = true) {d : DefaultDeserializer} (hd : d.dictionary.good = true) :
    ∃ (I : DefaultDeserializer → Prop) (P : EID → Prop) (d' : DefaultDeserializer),
      Resolves (serializer s b) I P b.resolved ∧
      DefaultDeserializer.ReadsDictionary (serializer s b) b.resolved b.toPrimaryBlock d d' ∧
      I d' ∧ (∀ d, I d → d.dictionary.good = true) ∧ (∀ e ∈ b.allEIDs, P e) ∧
      ∀ d, I d → I { d with dictionary := d.dictionary.copy.2.copy.2 } := by
  rw [serializer, resolved]
  cases hform : DefaultSerializer.isCompressable b with
  | true =>
      exact ⟨_, _, _, DefaultDeserializer.resolves_compressed_good rfl,
        DefaultDeserializer.readsDictionary_compressed rfl b.toPrimaryBlock d, ⟨rfl, hd⟩,
        fun _ hd => hd.2, fun _ _ => trivial, fun _ hd => hd⟩
  | false =>
      have hname := hb.nameable hform
      have hlen : (s.rebuildDictionary b).dictionary.bytes.length < 2 ^ 64 :=
        (DefaultSerializer.length_rebuildDictionary_le s b).trans_lt hb.size_lt
      obtain ⟨entries, hlists, hold, hpos, hne⟩ := DefaultSerializer.rebuildDictionary_lists s hs
        (b := b) fun e he => ⟨(hname e he).scheme_nulFree, (hname e he).ssp_nulFree⟩
      have hP : ∀ e ∈ b.allEIDs, Dictionary.Holds entries e ∧ Dictionary.Nameable e :=
        fun e he => ⟨hold e he, hname e he⟩
      obtain ⟨d', hd', hdict⟩ := DefaultDeserializer.readsDictionary_dictionary
        (s := { s.rebuildDictionary b with compressable := false }) rfl hlen hlists hpos hne
        (p := b.toPrimaryBlock) (fun e he => hP e (List.mem_append_left _ he)) hd
      exact ⟨_, _, d', DefaultDeserializer.resolves_dictionary rfl hlen, hdict, hd',
        fun _ hd => hd.lists.good, hP, fun _ hd => ⟨hd.compressed,
          ⟨hd.lists.bytes_eq, hd.lists.nulFree, hd.lists.eof_eq, hd.lists.fail_eq⟩, hd.bytes_eq⟩⟩

/-- **A bundle is read back** from a header of either form, by a deserializer that can read the next
one. -/
theorem Transportable.reads_transported (hb : b.Transportable) (obj : Bundle)
    {s : DefaultSerializer} (hs : s.dictionary.good = true) {d : DefaultDeserializer}
    (hd : d.dictionary.good = true) {env : DeserializerEnv}
    (henv : env.validator = Validator.accept) (hblob : env.blob.CopiesExactly) :
    ∃ d', d'.dictionary.good = true ∧ (DefaultDeserializer.readBundle env d obj).Reads
      (s.writeBundle b).1 (b.transported obj, d') := by
  obtain ⟨I, P, d₁, hres, hdict, hd₁, hgood, hP, -⟩ := hb.sendable.exists_resolves hs hd
  obtain ⟨d', hd', hread⟩ := DefaultDeserializer.reads_readBundle_transported hres obj hdict hd₁
    hb.serializable hP env henv hblob
  exact ⟨d', hgood d' hd', hread⟩

end Bundle

end IbrDtn
