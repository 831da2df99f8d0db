import IbrDtn.Data.Bundle
import IbrDtn.Data.Dictionary

/-!
# Writing bundles

This file models `DefaultSerializer` of `ibrdtn/data/Serializer.cpp`.  A bundle is written as its
primary block followed by its blocks.  EIDs are written as references: offsets into the
dictionary of the header, or, when all EIDs of the bundle are compressable, pairs of numbers with
an empty dictionary.

## Main definitions

* `DefaultSerializer` : the dictionary and the compression flag.
* `DefaultSerializer.writePrimary`, `DefaultSerializer.writeBlock`,
  `DefaultSerializer.writeBundle` : the stream operators.
* `DefaultSerializer.getLength` : the predicted length of a bundle.

## Main results

* `DefaultSerializer.rebuildDictionary_lists` : the dictionary that is built for a bundle holds
  all its EIDs.
* `DefaultSerializer.length_after_blockLength` : the announced block length is the number of bytes
  that follow it in the primary block.
-/

namespace IbrDtn

/-- `class DefaultSerializer`: the members `_dictionary` and `_compressable`. -/
structure DefaultSerializer where
  dictionary : Dictionary
  compressable : Bool
deriving DecidableEq, Repr

namespace DefaultSerializer

/-- `DefaultSerializer::DefaultSerializer(std::ostream&)`. -/
def create : DefaultSerializer := ⟨Dictionary.empty, false⟩

/-- `DefaultSerializer::rebuildDictionary`. -/
def rebuildDictionary (s : DefaultSerializer) (b : Bundle) : DefaultSerializer :=
  let d := s.dictionary.clear
  let d := (((d.add b.destination).add b.source).add b.reportto).add b.custodian
  { s with dictionary := b.blocks.foldl (fun d block => d.addAll block.eids) d }

/-- `DefaultSerializer::isCompressable`. -/
def isCompressable (b : Bundle) : Bool :=
  (b.source.isCompressable && b.destination.isCompressable && b.reportto.isCompressable &&
    b.custodian.isCompressable) &&
    b.blocks.all fun block => block.eids.all EID.isCompressable

/-- Every EID of a compressable bundle has a compressed form. -/
theorem isCompressable_of_mem {b : Bundle} {e : EID} (h : isCompressable b = true)
    (he : e ∈ b.allEIDs) : e.isCompressable = true := by
  simp only [isCompressable, Bool.and_eq_true, List.all_eq_true] at h
  obtain ⟨⟨⟨⟨hsource, hdestination⟩, hreportto⟩, hcustodian⟩, hblocks⟩ := h
  rcases List.mem_append.1 he with he | he
  · simp only [Bundle.headerEIDs, List.mem_cons, List.not_mem_nil, or_false] at he
    rcases he with rfl | rfl | rfl | rfl <;> assumption
  · obtain ⟨block, hblock, he⟩ := List.mem_flatMap.1 he
    exact hblocks block hblock e he

/-- The two numbers that name an EID. -/
def ref (s : DefaultSerializer) (eid : EID) : UInt64 × UInt64 :=
  if s.compressable then eid.compressed else s.dictionary.getRef eid

/-- The references of a list of EIDs, one SDNV for each number. -/
def writeRefs (s : DefaultSerializer) (eids : List EID) : Bytes :=
  eids.flatMap fun eid => SDNV.write (s.ref eid).1 ++ SDNV.write (s.ref eid).2

/-- What follows the eleven numbers of the header: the size of the dictionary and its bytes. -/
def writeDictionary (s : DefaultSerializer) : Bytes × DefaultSerializer :=
  if s.compressable then (SDNV.write 0, s)
  else (s.dictionary.write.1, { s with dictionary := s.dictionary.write.2 })

/-- The length of the references of a list of EIDs. -/
def refsLength (s : DefaultSerializer) (eids : List EID) : ℕ :=
  (eids.map fun eid => SDNV.getLength (s.ref eid).1 + SDNV.getLength (s.ref eid).2).sum

/-- The predicted length of the primary block behind the length field. -/
def blockLength (s : DefaultSerializer) (p : PrimaryBlock) : ℕ :=
  (if s.compressable then 0 else s.dictionary.getSize.toNat) +
    (s.refsLength (Bundle.headerEIDs p) + SDNV.getLength p.timestamp +
      SDNV.getLength p.sequencenumber + SDNV.getLength p.lifetime +
      SDNV.getLength (if s.compressable then 0 else s.dictionary.getSize)) +
    (if p.get PrimaryBlock.fragment then
      SDNV.getLength p.fragmentoffset + SDNV.getLength p.appdatalength else 0)

/-- The part of the primary block behind the length field. -/
def writeHeader (s : DefaultSerializer) (p : PrimaryBlock) : Bytes × DefaultSerializer :=
  let (dictionary, s') := s.writeDictionary
  (s.writeRefs (Bundle.headerEIDs p) ++
    (SDNV.write p.timestamp ++ (SDNV.write p.sequencenumber ++ (SDNV.write p.lifetime ++
      (dictionary ++ optional (p.get PrimaryBlock.fragment)
        (SDNV.write p.fragmentoffset ++ SDNV.write p.appdatalength))))), s')

/-- `DefaultSerializer::operator<<(const PrimaryBlock&)`. -/
def writePrimary (s : DefaultSerializer) (p : PrimaryBlock) : Bytes × DefaultSerializer :=
  let (header, s') := s.writeHeader p
  (PrimaryBlock.bundleVersion :: (SDNV.write p.procflags ++
    (SDNV.write (UInt64.ofNat (s.blockLength p)) ++ header)), s')

/-- `DefaultSerializer::operator<<(const Block&)`. -/
def writeBlock (s : DefaultSerializer) (b : Block) : Bytes :=
  b.blocktype :: (SDNV.write b.procflags ++
    (optional (b.get Block.blockContainsEids)
        (SDNV.write (UInt64.ofNat b.eids.length) ++ s.writeRefs b.eids) ++
      (SDNV.write (UInt64.ofNat b.body.getLength) ++ b.body.serialize)))

/-- `DefaultSerializer::operator<<(const Bundle&)`. -/
def writeBundle (s : DefaultSerializer) (b : Bundle) : Bytes × DefaultSerializer :=
  let s := { s.rebuildDictionary b with compressable := isCompressable b }
  let (primary, s) := s.writePrimary b.toPrimaryBlock
  (primary ++ b.blocks.flatMap s.writeBlock, s)

/-! ### Predicted lengths -/

/-- `DefaultSerializer::getLength(const PrimaryBlock&)`, which adds the length of a number for the
length of everything before it. -/
def primaryLength (s : DefaultSerializer) (p : PrimaryBlock) : ℕ :=
  let len := 1 + SDNV.getLength p.procflags + s.blockLength p
  len + SDNV.getLength (UInt64.ofNat len)

/-- `DefaultSerializer::getLength(const Block&)`, which always refers to the dictionary. -/
def blockSize (s : DefaultSerializer) (b : Block) : ℕ :=
  1 + SDNV.getLength b.procflags +
    (if b.get Block.blockContainsEids then
      SDNV.getLength (UInt64.ofNat b.eids.length) +
        { s with compressable := false }.refsLength b.eids else 0) +
    b.body.getLength

/-- `DefaultSerializer::getLength(const Bundle&)`. -/
def getLength (s : DefaultSerializer) (b : Bundle) : ℕ :=
  let s := s.rebuildDictionary b
  s.primaryLength b.toPrimaryBlock + (b.blocks.map s.blockSize).sum

/-! ### The dictionary of a bundle -/

/-- The parts of the EID contain no NUL byte. -/
def NulFree (eid : EID) : Prop := (0 : UInt8) ∉ eid.scheme ∧ (0 : UInt8) ∉ eid.ssp

theorem foldl_addAll (d : Dictionary) (blocks : List Block) :
    blocks.foldl (fun d block => d.addAll block.eids) d =
      d.addAll (blocks.flatMap fun block => block.eids) := by
  induction blocks generalizing d with
  | nil => rfl
  | cons block blocks ih =>
      rw [List.foldl_cons, ih, List.flatMap_cons, Dictionary.addAll, Dictionary.addAll,
        Dictionary.addAll, List.foldl_append]

theorem rebuildDictionary_dictionary (s : DefaultSerializer) (b : Bundle) :
    (s.rebuildDictionary b).dictionary = s.dictionary.clear.addAll b.allEIDs := by
  rw [Bundle.allEIDs, Dictionary.addAll, List.foldl_append, ← Dictionary.addAll, ← foldl_addAll]
  simp only [rebuildDictionary, Bundle.headerEIDs, List.foldl_cons, List.foldl_nil]

/-- The dictionary of a bundle whose EIDs have no NUL bytes holds all of them. -/
theorem rebuildDictionary_lists (s : DefaultSerializer) (hs : s.dictionary.good = true)
    {b : Bundle} (hnul : ∀ e ∈ b.allEIDs, NulFree e) :
    ∃ entries, (s.rebuildDictionary b).dictionary.Lists entries ∧
      (∀ e ∈ b.allEIDs, Dictionary.Holds entries e) ∧
      (s.rebuildDictionary b).dictionary.gpos = 0 ∧ entries ≠ [] := by
  have hgood : s.dictionary.eof = false ∧ s.dictionary.fail = false := by
    simpa [Dictionary.good] using hs
  have hclear : s.dictionary.clear.Lists [] := ⟨rfl, by simp, hgood.1, hgood.2⟩
  obtain ⟨entries, hlists, hold, -⟩ := hclear.addAll hnul
  rw [rebuildDictionary_dictionary]
  refine ⟨entries, hlists, hold, Dictionary.gpos_addAll _ _, ?_⟩
  have hmem : b.destination ∈ b.allEIDs := List.mem_cons_self
  exact List.ne_nil_of_mem (hold b.destination hmem).1

/-- The dictionary of a bundle is no longer than the strings of its EIDs together. -/
theorem length_rebuildDictionary_le (s : DefaultSerializer) (b : Bundle) :
    (s.rebuildDictionary b).dictionary.bytes.length ≤
      (b.allEIDs.map Dictionary.sizeOf).sum := by
  rw [rebuildDictionary_dictionary]
  exact (Dictionary.length_addAll_le _ _).trans_eq (Nat.zero_add _)

/-! ### The announced length -/

theorem length_writeRefs (s : DefaultSerializer) (eids : List EID) :
    (s.writeRefs eids).length = s.refsLength eids := by
  induction eids with
  | nil => rfl
  | cons e eids ih =>
      rw [writeRefs, List.flatMap_cons, List.length_append, List.length_append,
        SDNV.length_write, SDNV.length_write, ← writeRefs, ih]
      simp only [refsLength, List.map_cons, List.sum_cons]

/-- The announced length of a primary block is the number of bytes written behind it, for a
dictionary that was not written before. -/
theorem length_after_blockLength (s : DefaultSerializer) (p : PrimaryBlock)
    (hpos : s.dictionary.gpos = 0) (hlen : s.dictionary.bytes.length < 2 ^ 64) :
    (s.writeHeader p).1.length = s.blockLength p := by
  have hsize : s.dictionary.getSize.toNat = s.dictionary.bytes.length :=
    EID.toNat_ofNat_of_lt hlen
  have hfrag : (optional (p.get PrimaryBlock.fragment)
      (SDNV.write p.fragmentoffset ++ SDNV.write p.appdatalength)).length =
      if p.get PrimaryBlock.fragment then
        SDNV.getLength p.fragmentoffset + SDNV.getLength p.appdatalength else 0 := by
    cases p.get PrimaryBlock.fragment <;> simp [optional]
  simp only [writeHeader, blockLength, List.length_append, SDNV.length_write, length_writeRefs,
    hfrag, writeDictionary, hsize]
  cases s.compressable with
  | true =>
      simp only [if_true, SDNV.length_write]
      omega
  | false =>
      simp only [Bool.false_eq_true, if_false, Dictionary.write, hpos, List.drop_zero,
        List.length_append, SDNV.length_write]
      omega

end DefaultSerializer

end IbrDtn
