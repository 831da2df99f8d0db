import IbrDtn.Data.RoundTrip

/-!
# Bundles with a dictionary

This file instantiates the round trip for headers with a dictionary.  Every EID is resolved to
itself with the blanks around its parts removed, since the deserializer builds EIDs with the
constructor from two strings.

## Main results

* `DefaultDeserializer.reads_writeBundle` : a bundle with an uncompressed header is read back.
-/

namespace IbrDtn

namespace Dictionary

theorem getRef_congr {d d' : Dictionary} (h : d.bytes = d'.bytes) (eid : EID) :
    d.getRef eid = d'.getRef eid := by
  rw [getRef, getRef, get, get, get, get, h]

theorem Lists.bytes_ne_nil {d : Dictionary} {entries : List Bytes} (h : d.Lists entries)
    (hne : entries ≠ []) : d.bytes ≠ [] := by
  obtain ⟨s, entries, rfl⟩ := List.exists_cons_of_ne_nil hne
  rw [h.bytes_eq, table_cons]
  simp

end Dictionary

namespace DefaultDeserializer

/-- The dictionary of the reader holds the strings that the serializer `s` wrote. -/
structure Knows (s : DefaultSerializer) (entries : List Bytes) (d : DefaultDeserializer) :
    Prop where
  compressed : d.compressed = false
  lists : d.dictionary.Lists entries
  bytes_eq : d.dictionary.bytes = s.dictionary.bytes

section Dictionary

variable {s : DefaultSerializer} {entries : List Bytes}
  (hs : s.compressable = false) (hlen : s.dictionary.bytes.length < 2 ^ 64)

include hs hlen

theorem getEID_ref {dict : Dictionary} (h : dict.Lists entries)
    (hbytes : dict.bytes = s.dictionary.bytes) {e : EID} (hold : Dictionary.Holds entries e)
    (hname : Dictionary.Nameable e) :
    ∃ dict', dict.getEID (s.ref e).1 (s.ref e).2 = (e.trimmed, dict') ∧ dict'.Lists entries ∧
      dict'.bytes = s.dictionary.bytes := by
  obtain ⟨dict', hget, hlists, hbytes'⟩ := h.getEID_getRef (hbytes ▸ hlen) hold hname
  refine ⟨dict', ?_, hlists, hbytes'.trans hbytes⟩
  rw [DefaultSerializer.ref, hs, if_neg Bool.false_ne_true,
    Dictionary.getRef_congr hbytes.symm]
  exact hget

/-- The references are offsets that lead back to the EIDs. -/
theorem resolves_dictionary :
    Resolves s (Knows s entries) (fun e => Dictionary.Holds entries e ∧ Dictionary.Nameable e)
      EID.trimmed := by
  have hlookup {d : DefaultDeserializer} {e : EID} (hd : Knows s entries d)
      (he : Dictionary.Holds entries e ∧ Dictionary.Nameable e) :
      ∃ d', d.lookupEID (s.ref e).1 (s.ref e).2 = (e.trimmed, d') ∧ Knows s entries d' := by
    obtain ⟨dict', hget, hlists, hbytes⟩ := getEID_ref hs hlen hd.lists hd.bytes_eq he.1 he.2
    refine ⟨{ d with dictionary := dict' }, ?_, hd.compressed, hlists, hbytes⟩
    rw [lookupEID, hd.compressed, if_neg Bool.false_ne_true, hget]
  constructor
  · intro d e hd he
    obtain ⟨d', hget, -⟩ := hlookup hd he
    rw [hget]
  · intro d e hd he
    obtain ⟨d', hget, hd'⟩ := hlookup hd he
    rw [hget]
    exact hd'

/-- The header with a dictionary. -/
theorem readsDictionary_dictionary (hlists : s.dictionary.Lists entries)
    (hpos : s.dictionary.gpos = 0) (hne : entries ≠ []) {p : PrimaryBlock}
    (hP : ∀ e ∈ Bundle.headerEIDs p, Dictionary.Holds entries e ∧ Dictionary.Nameable e)
    {d : DefaultDeserializer} (hd : d.dictionary.good = true) :
    ∃ d', Knows s entries d' ∧ ReadsDictionary s EID.trimmed p d d' := by
  have hdict₀ : (⟨s.dictionary.bytes, 0, false, false⟩ : Dictionary).Lists entries :=
    ⟨hlists.bytes_eq, hlists.nulFree, rfl, rfl⟩
  simp only [Bundle.headerEIDs, List.forall_mem_cons] at hP
  obtain ⟨hdestination, hsource, hreportto, hcustodian, -⟩ := hP
  obtain ⟨dict₁, hget₁, hlists₁, hbytes₁⟩ :=
    getEID_ref hs hlen hdict₀ rfl hdestination.1 hdestination.2
  obtain ⟨dict₂, hget₂, hlists₂, hbytes₂⟩ :=
    getEID_ref hs hlen hlists₁ hbytes₁ hsource.1 hsource.2
  obtain ⟨dict₃, hget₃, hlists₃, hbytes₃⟩ :=
    getEID_ref hs hlen hlists₂ hbytes₂ hreportto.1 hreportto.2
  obtain ⟨dict₄, hget₄, hlists₄, hbytes₄⟩ :=
    getEID_ref hs hlen hlists₃ hbytes₃ hcustodian.1 hcustodian.2
  refine ⟨⟨dict₄, false⟩, ⟨rfl, hlists₄, hbytes₄⟩, reads_catching ?_ _⟩
  rw [DefaultSerializer.writeDictionary, hs, if_neg Bool.false_ne_true]
  refine (Dictionary.reads_read hpos hlen (hlists.bytes_ne_nil hne) hd).then_nil ?_
  simp only [hget₁, hget₂, hget₃, hget₄]
  exact Parser.reads_pure _

end Dictionary

/-- **The round trip of a bundle with a dictionary.** Whatever follows it in the stream, the bundle
is read back with the same numbers and flags, and with its EIDs trimmed, in the primary block and
in every block; the fragment fields are written for fragments only. The stream is left at the
first byte behind the bundle. -/
theorem reads_writeBundle {s : DefaultSerializer} (hs : s.dictionary.good = true) {b obj : Bundle}
    (hform : DefaultSerializer.isCompressable b = false)
    (hname : ∀ e ∈ b.allEIDs, Dictionary.Nameable e)
    (hsize : (b.allEIDs.map Dictionary.sizeOf).sum < 2 ^ 64) (hb : b.Serializable)
    {d : DefaultDeserializer} (hd : d.dictionary.good = true) {blob : BLOB}
    (hblob : blob.CopiesExactly) (now : DTNTime) :
    ∃ n d', (readBundle (.default blob now) d obj).Reads (s.writeBundle b).1 (n, d') ∧
      n.toPrimaryBlock = receivedPrimary EID.trimmed b.toPrimaryBlock obj.toPrimaryBlock ∧
      n.blocks.map Block.view = b.blocks.map fun c => (c.mapEIDs EID.trimmed).view := by
  let s₀ : DefaultSerializer := { s.rebuildDictionary b with compressable := false }
  have hlen : s₀.dictionary.bytes.length < 2 ^ 64 :=
    (DefaultSerializer.length_rebuildDictionary_le s b).trans_lt hsize
  obtain ⟨entries, hlists, hold, hpos, hne⟩ := DefaultSerializer.rebuildDictionary_lists s hs
    (b := b) fun e he => ⟨(hname e he).scheme_nulFree, (hname e he).ssp_nulFree⟩
  have hP : ∀ e ∈ b.allEIDs, Dictionary.Holds entries e ∧ Dictionary.Nameable e :=
    fun e he => ⟨hold e he, hname e he⟩
  obtain ⟨d', hd', hdict⟩ := readsDictionary_dictionary (s := s₀) rfl hlen hlists hpos hne
    (p := b.toPrimaryBlock) (fun e he => hP e (List.mem_append_left _ he)) hd
  obtain ⟨n, d'', hread, hprimary, hviews⟩ := reads_readBundle (resolves_dictionary rfl hlen)
    obj hdict hd' hb hP (.default blob now) rfl hblob
  refine ⟨n, d'', ?_, hprimary, hviews⟩
  rw [DefaultSerializer.writeBundle, hform]
  exact hread

end DefaultDeserializer

/-! ### Bundles that do not survive -/

namespace Bundle

/-- The bundle is read back with the same primary block and blocks of the same views, and nothing is
left in the stream. -/
def RoundTrips (b : Bundle) : Prop :=
  match b.reread with
  | (.ok n, rest) => n.toPrimaryBlock = b.toPrimaryBlock ∧
      n.blocks.map Block.view = b.blocks.map Block.view ∧ rest = []
  | (.error _, _) => False

instance (b : Bundle) : Decidable b.RoundTrips := by
  unfold RoundTrips
  split <;> infer_instance

/-- Bundles with a block, with a dictionary in the header, with EIDs that the dictionary can name,
and with no block that may be discarded; no administrative records. -/
def Plain (b : Bundle) : Prop :=
  b.blocks ≠ [] ∧ DefaultSerializer.isCompressable b = false ∧
    (∀ e ∈ b.allEIDs, Dictionary.Nameable e) ∧
    b.get PrimaryBlock.appdataIsAdmrecord = false ∧
    ∀ c ∈ b.blocks, c.get Block.discardIfNotProcessed = false

instance (b : Bundle) : Decidable b.Plain := by
  unfold Plain
  infer_instance

/-- A security block that promises a security source and carries no EID. -/
def sourcelessSecurity : Block :=
  ⟨4, Block.lastBlock, [], .payloadConfidential
    { SecurityBlock.create 3 with ciphersuiteFlags := SecurityBlock.containsSecuritySource }⟩

/-- Plain bundles: a blank before a scheme specific part, an application data length without the
fragment flag, two blocks that are both marked as the last, a final block that is not marked,
EIDs that the flags of their block do not announce, an extension block of type zero, and a
security block without the EID that it promises. -/
def unstable : List Bundle :=
  [{ sample [samplePayload Block.lastBlock []] with
      source := ⟨EID.defaultScheme, ascii [' ', '/', '/', 'a']⟩ },
    { sample [samplePayload Block.lastBlock []] with appdatalength := 1 },
    sample [samplePayload Block.lastBlock [], samplePayload Block.lastBlock []],
    sample [samplePayload 0 []],
    sample [samplePayload Block.lastBlock [sampleEID]],
    sample [⟨0, Block.lastBlock, [], .extension [0x68]⟩],
    sample [sourcelessSecurity]]

/-- **Not every plain bundle survives.** -/
theorem not_roundTrips_unstable :
    unstable.Forall fun b => b.Plain ∧ ¬ b.RoundTrips := by
  decide +kernel

/-- A fragment with an extension block of an unknown type that carries an EID, and a payload. -/
def sampleFragment : Bundle :=
  { sample [⟨200, Block.blockContainsEids, [sampleEID], .extension [0x68]⟩,
      samplePayload Block.lastBlock []] with
    procflags := PrimaryBlock.fragment, fragmentoffset := 3, appdatalength := 9 }

theorem serializable_sampleFragment : sampleFragment.Serializable := by
  refine ⟨by decide, ⟨by decide, rfl⟩, fun c hc => ?_, by decide⟩
  simp only [sampleFragment, sample, List.mem_cons, List.not_mem_nil, or_false] at hc
  rcases hc with rfl | rfl
  · exact ⟨by decide, fun _ h => absurd h (by simp [Body.security?]), by decide, by decide,
      by decide, by decide⟩
  · exact ⟨by decide, fun _ h => absurd h (by simp [samplePayload, Body.security?]), by decide,
      by decide, by decide, by decide⟩

theorem reads_writeBundle_sampleFragment :
    ∃ n d', (DefaultDeserializer.readBundle (.default BLOB.exact ⟨0, 0⟩)
        DefaultDeserializer.create (Bundle.create 0 0)).Reads
        (DefaultSerializer.create.writeBundle sampleFragment).1 (n, d') ∧
      n.toPrimaryBlock = DefaultDeserializer.receivedPrimary EID.trimmed
        sampleFragment.toPrimaryBlock (Bundle.create 0 0).toPrimaryBlock ∧
      n.blocks.map Block.view =
        sampleFragment.blocks.map fun c => (c.mapEIDs EID.trimmed).view :=
  DefaultDeserializer.reads_writeBundle rfl (by decide) (by decide) (by decide)
    serializable_sampleFragment rfl BLOB.exact_copiesExactly _

end Bundle

end IbrDtn
