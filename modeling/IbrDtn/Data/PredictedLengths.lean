import IbrDtn.Data.Transport

/-!
# Predicted lengths

`DefaultSerializer` predicts lengths in two places.  A primary block announces how many bytes
follow, and `getLength` says how long a bundle, a primary block or a block will be.  This file
compares both with the bytes that are written.

## Main definitions

* `DefaultSerializer.writtenHeader` : what reaches the stream behind the announced length.
* `DefaultSerializer.Predicts` : the lengths of a bundle and of its parts are right.

## Main results

* `DefaultSerializer.blockLength_eq_iff` : when the announced length is right.
* `DefaultSerializer.predicts_iff` : when the predicted lengths are right.
-/

namespace IbrDtn

open IbrDtn.Bundle (headerEIDs sample samplePayload serializer)

namespace SDNV

theorem groupCount_mono {fuel : ℕ} {v w : UInt64} (h : v.toNat ≤ w.toNat) :
    groupCount fuel v ≤ groupCount fuel w := by
  induction fuel generalizing v w with
  | zero => exact le_rfl
  | succ fuel ih =>
      rcases Nat.lt_or_ge v.toNat 128 with hv | hv
      · rw [groupCount_succ_of_lt fuel hv]
        exact groupCount_pos fuel w
      · rw [groupCount_succ_of_le fuel hv, groupCount_succ_of_le fuel (hv.trans h)]
        refine Nat.succ_le_succ (ih ?_)
        rw [toNat_shiftRight_seven, toNat_shiftRight_seven]
        exact Nat.div_le_div_right h

/-- Larger numbers have no shorter encoding. -/
theorem getLength_mono {v w : UInt64} (h : v.toNat ≤ w.toNat) : getLength v ≤ getLength w := by
  rw [getLength_eq, getLength_eq]
  exact groupCount_mono h

end SDNV

namespace DefaultSerializer

variable {s : DefaultSerializer} {p : PrimaryBlock}

/-! ### The announced length -/

/-- The dictionary is inserted into the stream without any byte, which makes the stream fail. -/
def failsAfterDictionary (s : DefaultSerializer) : Bool :=
  !s.compressable && (s.dictionary.bytes.drop s.dictionary.gpos).isEmpty

/-- What reaches the stream behind the announced length: nothing more after it failed. -/
def writtenHeader (s : DefaultSerializer) (p : PrimaryBlock) : Bytes :=
  s.writeRefs (headerEIDs p) ++
    (SDNV.write p.timestamp ++ (SDNV.write p.sequencenumber ++ (SDNV.write p.lifetime ++
      (s.writeDictionary.1 ++ optional (p.get PrimaryBlock.fragment && !s.failsAfterDictionary)
        (SDNV.write p.fragmentoffset ++ SDNV.write p.appdatalength)))))

/-- The strings of the EIDs of the primary block are in the dictionary. -/
def HoldsEIDs (s : DefaultSerializer) (p : PrimaryBlock) : Prop :=
  ∀ e ∈ headerEIDs p,
    s.dictionary.contains e.scheme = true ∧ s.dictionary.contains e.ssp = true

instance (s : DefaultSerializer) (p : PrimaryBlock) : Decidable (s.HoldsEIDs p) :=
  inferInstanceAs (Decidable (∀ e ∈ headerEIDs p, _ ∧ _))

/-- The size of the primary block fits a `size_t`. -/
theorem blockLength_lt (hlen : s.dictionary.bytes.length < 2 ^ 63) (p : PrimaryBlock) :
    s.blockLength p < 2 ^ 63 + 200 := by
  have hle := SDNV.getLength_le
  have hsize : s.dictionary.getSize.toNat = s.dictionary.bytes.length :=
    EID.toNat_ofNat_of_lt (by omega)
  have hrefs : s.refsLength (headerEIDs p) ≤ 80 := by
    simp only [refsLength, headerEIDs, List.map_cons, List.map_nil, List.sum_cons,
      List.sum_nil]
    have h (e : EID) := Nat.add_le_add (hle (s.ref e).1) (hle (s.ref e).2)
    have h₁ := h p.destination
    have h₂ := h p.source
    have h₃ := h p.reportto
    have h₄ := h p.custodian
    simp only [SDNV.maxLength] at h₁ h₂ h₃ h₄
    omega
  have htimestamp := hle p.timestamp
  have hsequencenumber := hle p.sequencenumber
  have hlifetime := hle p.lifetime
  have hdictionary := hle (if s.compressable then 0 else s.dictionary.getSize)
  have hoffset := hle p.fragmentoffset
  have happdata := hle p.appdatalength
  simp only [SDNV.maxLength] at htimestamp hsequencenumber hlifetime hdictionary hoffset happdata
  rw [blockLength, hsize]
  generalize SDNV.getLength (if s.compressable then 0 else s.dictionary.getSize) = size at *
  split_ifs <;> omega

theorem length_writtenHeader (s : DefaultSerializer) (p : PrimaryBlock) :
    (s.writtenHeader p).length = s.refsLength (headerEIDs p) + SDNV.getLength p.timestamp +
      SDNV.getLength p.sequencenumber + SDNV.getLength p.lifetime +
      SDNV.getLength (if s.compressable then 0 else s.dictionary.getSize) +
      (if s.compressable then 0 else s.dictionary.bytes.length - s.dictionary.gpos) +
      (if p.get PrimaryBlock.fragment && !s.failsAfterDictionary then
        SDNV.getLength p.fragmentoffset + SDNV.getLength p.appdatalength else 0) := by
  have hdictionary : s.writeDictionary.1.length =
      SDNV.getLength (if s.compressable then 0 else s.dictionary.getSize) +
        if s.compressable then 0 else s.dictionary.bytes.length - s.dictionary.gpos := by
    rw [writeDictionary]
    split_ifs
    · exact SDNV.length_write 0
    · rw [Dictionary.write, List.length_append, SDNV.length_write, List.length_drop]
  rw [writtenHeader]
  simp only [List.length_append, SDNV.length_write, length_writeRefs, hdictionary,
    StatusReportBlock.length_optional]
  omega

/-- **The announced length is the number of bytes behind it exactly if** there is no dictionary, or
it was not read before. -/
theorem blockLength_eq_iff (hp : s.HoldsEIDs p) (hlen : s.dictionary.bytes.length < 2 ^ 63) :
    (UInt64.ofNat (s.blockLength p)).toNat = (s.writtenHeader p).length ↔
      s.compressable = true ∨ s.dictionary.gpos = 0 := by
  have hsize : s.dictionary.getSize.toNat = s.dictionary.bytes.length :=
    EID.toNat_ofNat_of_lt (by omega)
  have hnonempty : 0 < s.dictionary.bytes.length := by
    have hcontains := (hp p.destination List.mem_cons_self).1
    rw [Dictionary.contains] at hcontains
    split_ifs at hcontains with hzero
    exact Nat.pos_of_ne_zero hzero
  rw [EID.toNat_ofNat_of_lt (by have := blockLength_lt hlen p; omega), length_writtenHeader,
    blockLength, hsize]
  by_cases hcompressable : s.compressable = true
  · have hfails : s.failsAfterDictionary = false := by
      rw [failsAfterDictionary, hcompressable, Bool.not_true, Bool.false_and]
    simp only [hcompressable, hfails, if_true, Bool.not_false, Bool.and_true, true_or, iff_true]
    omega
  · simp only [if_neg hcompressable, or_iff_right hcompressable]
    constructor
    · intro heq
      -- The bytes in front of the read position are counted and not written.
      by_contra hpos
      have hfragment : (if p.get PrimaryBlock.fragment && !s.failsAfterDictionary then
          SDNV.getLength p.fragmentoffset + SDNV.getLength p.appdatalength else 0) ≤
          if p.get PrimaryBlock.fragment then
            SDNV.getLength p.fragmentoffset + SDNV.getLength p.appdatalength else 0 := by
        cases p.get PrimaryBlock.fragment with
        | false => exact le_rfl
        | true =>
            rw [Bool.true_and, if_pos rfl]
            split_ifs
            · exact le_rfl
            · exact Nat.zero_le _
      omega
    · intro hpos
      have hfails : s.failsAfterDictionary = false := by
        rw [failsAfterDictionary, hpos, List.drop_zero, Bool.and_eq_false_iff]
        exact Or.inr (by simpa using List.ne_nil_of_length_pos hnonempty)
      rw [hfails, Bool.not_false, Bool.and_true, hpos, Nat.sub_zero]
      omega

/-- **A dictionary that was written is empty for the next primary block**, which announces its
length all the same. -/
theorem not_blockLength_eq_rewritten :
    let b := sample []
    let s := ((create.rebuildDictionary b).writePrimary b.toPrimaryBlock).2
    s.HoldsEIDs b.toPrimaryBlock ∧ s.dictionary.bytes.length < 2 ^ 63 ∧
      (UInt64.ofNat (s.blockLength b.toPrimaryBlock)).toNat ≠
        (s.writtenHeader b.toPrimaryBlock).length := by
  decide

theorem blockLength_eq_iff_sample :
    let b := sample []
    let s := create.rebuildDictionary b
    (UInt64.ofNat (s.blockLength b.toPrimaryBlock)).toNat =
      (s.writtenHeader b.toPrimaryBlock).length :=
  (blockLength_eq_iff (by decide) (by decide)).2 (Or.inr (by decide))

/-! ### The predicted lengths -/

/-- The predicted lengths of the bundle, of its primary block and of its blocks are the numbers of
bytes that are written for them. -/
structure Predicts (b : Bundle) : Prop where
  bundle : create.getLength b = (create.writeBundle b).1.length
  primary : (serializer create b).primaryLength b.toPrimaryBlock =
    ((serializer create b).writePrimary b.toPrimaryBlock).1.length
  blocks : ∀ c ∈ b.blocks,
    (serializer create b).blockSize c = ((serializer create b).writeBlock c).length

/-- The length of the announced EIDs of a block, in the form of the serializer. -/
def announcedLength (s : DefaultSerializer) (c : Block) : ℕ :=
  if c.get Block.blockContainsEids then s.refsLength c.eids else 0

/-- What the prediction leaves out, the length of the length field, is made up for: the payload is
shorter than the block says, or its EIDs are in the dictionary and written without it. -/
def Balanced (s : DefaultSerializer) (c : Block) : Prop :=
  { s with compressable := false }.announcedLength c + c.body.getLength =
    s.announcedLength c + SDNV.getLength (UInt64.ofNat c.body.getLength) + c.body.serialize.length

/-- The version and the flags of the primary block do not make the length field longer, if they are
counted. -/
def NoCarry (s : DefaultSerializer) (p : PrimaryBlock) : Prop :=
  SDNV.getLength (UInt64.ofNat (1 + SDNV.getLength p.procflags + s.blockLength p)) =
    SDNV.getLength (UInt64.ofNat (s.blockLength p))

theorem length_writeBlock (s : DefaultSerializer) (c : Block) :
    (s.writeBlock c).length = 1 + SDNV.getLength c.procflags +
      ((if c.get Block.blockContainsEids then SDNV.getLength (UInt64.ofNat c.eids.length) else 0) +
        s.announcedLength c) +
      (SDNV.getLength (UInt64.ofNat c.body.getLength) + c.body.serialize.length) := by
  rw [writeBlock, announcedLength]
  simp only [List.length_cons, List.length_append, SDNV.length_write,
    StatusReportBlock.length_optional, length_writeRefs]
  split_ifs <;> omega

/-- **The predicted length of a block is right exactly if** it is balanced. -/
theorem blockSize_eq_iff (s : DefaultSerializer) (c : Block) :
    s.blockSize c = (s.writeBlock c).length ↔ s.Balanced c := by
  rw [length_writeBlock, blockSize, Balanced, announcedLength, announcedLength]
  split_ifs <;> omega

theorem length_writePrimary (hpos : s.dictionary.gpos = 0)
    (hlen : s.dictionary.bytes.length < 2 ^ 64) (p : PrimaryBlock) :
    (s.writePrimary p).1.length = 1 + SDNV.getLength p.procflags +
      (SDNV.getLength (UInt64.ofNat (s.blockLength p)) + s.blockLength p) := by
  have hheader := length_after_blockLength s p hpos hlen
  rw [writePrimary]
  simp only [List.length_cons, List.length_append, SDNV.length_write, hheader]
  omega

/-- **The predicted length of a primary block is right exactly if** nothing is carried. -/
theorem primaryLength_eq_iff (hpos : s.dictionary.gpos = 0)
    (hlen : s.dictionary.bytes.length < 2 ^ 64) (p : PrimaryBlock) :
    s.primaryLength p = (s.writePrimary p).1.length ↔ s.NoCarry p := by
  rw [length_writePrimary hpos hlen, primaryLength, NoCarry]
  omega

/-- The length of a length and itself determine the length. -/
theorem eq_of_add_getLength_eq {k m n : ℕ} (hm : k + m < 2 ^ 64) (hn : k + n < 2 ^ 64)
    (h : m + SDNV.getLength (UInt64.ofNat (k + m)) = n + SDNV.getLength (UInt64.ofNat (k + n))) :
    m = n := by
  have hmono {m n : ℕ} (hm : k + m < 2 ^ 64) (hn : k + n < 2 ^ 64) (hle : m ≤ n) :
      SDNV.getLength (UInt64.ofNat (k + m)) ≤ SDNV.getLength (UInt64.ofNat (k + n)) := by
    refine SDNV.getLength_mono ?_
    rw [EID.toNat_ofNat_of_lt hm, EID.toNat_ofNat_of_lt hn]
    exact Nat.add_le_add_left hle k
  rcases Nat.le_total m n with hle | hle
  · have := hmono hm hn hle
    omega
  · have := hmono hn hm hle
    omega

section Bundles

variable {b : Bundle} (hlen : (b.allEIDs.map Dictionary.sizeOf).sum < 2 ^ 63)

include hlen

theorem length_dictionary_serializer :
    (serializer create b).dictionary.bytes.length < 2 ^ 63 :=
  (length_rebuildDictionary_le create b).trans_lt hlen

omit hlen in
theorem gpos_serializer (b : Bundle) : (serializer create b).dictionary.gpos = 0 := by
  rw [serializer, rebuildDictionary_dictionary, Dictionary.gpos_addAll]
  rfl

omit hlen in
theorem length_writeBundle (b : Bundle) : (create.writeBundle b).1.length =
    ((serializer create b).writePrimary b.toPrimaryBlock).1.length +
      (b.blocks.map fun c => ((serializer create b).writeBlock c).length).sum := by
  have href (e : EID) : ((serializer create b).writePrimary b.toPrimaryBlock).2.ref e =
      (serializer create b).ref e :=
    DefaultDeserializer.ref_writeDictionary _ e
  have hblock (c : Block) :
      ((serializer create b).writePrimary b.toPrimaryBlock).2.writeBlock c =
        (serializer create b).writeBlock c := by
    simp only [writeBlock, writeRefs, href]
  simp only [← hblock]
  rw [← List.length_flatMap, ← List.length_append]
  rfl

/-- **The predicted lengths are right exactly if** every block is balanced, nothing is carried in
the primary block, and its form with the dictionary is as long as the one that is written. -/
theorem predicts_iff : Predicts b ↔
    (∀ c ∈ b.blocks, (serializer create b).Balanced c) ∧
      (serializer create b).NoCarry b.toPrimaryBlock ∧
      (create.rebuildDictionary b).blockLength b.toPrimaryBlock =
        (serializer create b).blockLength b.toPrimaryBlock := by
  have hdictionary := length_dictionary_serializer hlen
  have hprimary := primaryLength_eq_iff (gpos_serializer b)
    (hdictionary.trans (by decide)) b.toPrimaryBlock
  have hflags := SDNV.getLength_le b.procflags
  rw [SDNV.maxLength] at hflags
  have hrebuilt : (create.rebuildDictionary b).dictionary.bytes.length < 2 ^ 63 := hdictionary
  have hlt := blockLength_lt hrebuilt b.toPrimaryBlock
  have hlt' := blockLength_lt hdictionary b.toPrimaryBlock
  have hpredicted : create.getLength b =
      (create.rebuildDictionary b).primaryLength b.toPrimaryBlock +
        (b.blocks.map (serializer create b).blockSize).sum := rfl
  have hsum (hblocks : ∀ c ∈ b.blocks, (serializer create b).Balanced c) :
      (b.blocks.map (serializer create b).blockSize).sum =
        (b.blocks.map fun c => ((serializer create b).writeBlock c).length).sum :=
    congrArg List.sum (List.map_congr_left fun c hc => (blockSize_eq_iff _ c).2 (hblocks c hc))
  constructor
  · intro h
    have hblocks : ∀ c ∈ b.blocks, (serializer create b).Balanced c := fun c hc =>
      (blockSize_eq_iff _ c).1 (h.blocks c hc)
    refine ⟨hblocks, hprimary.1 h.primary, ?_⟩
    -- The blocks and the primary block add up to the bundle.
    have hbundle := h.bundle
    rw [hpredicted, length_writeBundle, hsum hblocks, ← h.primary, primaryLength,
      primaryLength] at hbundle
    refine eq_of_add_getLength_eq (k := 1 + SDNV.getLength b.procflags) (by omega) (by omega) ?_
    omega
  · rintro ⟨hblocks, hcarry, heq⟩
    refine ⟨?_, hprimary.2 hcarry, fun c hc => (blockSize_eq_iff _ c).2 (hblocks c hc)⟩
    rw [hpredicted, length_writeBundle, hsum hblocks, ← hprimary.2 hcarry, primaryLength,
      primaryLength, heq]

end Bundles

/-- **The length of a bundle with a payload block is predicted wrong**: the length field of the
block is not counted. -/
theorem not_predicts_sample :
    create.getLength (sample [samplePayload Block.lastBlock []]) + 1 =
        (create.writeBundle (sample [samplePayload Block.lastBlock []])).1.length ∧
      ¬ Predicts (sample [samplePayload Block.lastBlock []]) := by
  have hlength : create.getLength (sample [samplePayload Block.lastBlock []]) + 1 =
      (create.writeBundle (sample [samplePayload Block.lastBlock []])).1.length := by
    decide +kernel
  exact ⟨hlength, fun h => absurd (h.bundle.trans hlength.symm) (Nat.lt_succ_self _).ne⟩

/-- A bundle authentication block, whose result is shorter by a byte than the class announces. -/
def sampleAuthentication : Block :=
  ⟨2, Block.lastBlock, [], .bundleAuthentication { SecurityBlock.create 1 with
    ciphersuiteFlags := SecurityBlock.containsSecurityResult
    securityResult := ⟨[⟨1, List.replicate 19 0⟩], List.pairwise_singleton _ _⟩ }⟩

/-- The missing byte makes up for the length field. -/
theorem predicts_iff_sample : Predicts (sample [sampleAuthentication]) := by
  refine (predicts_iff (by decide)).2 ⟨fun c hc => ?_, ?_, ?_⟩
  · obtain rfl := List.mem_singleton.1 hc
    rw [Balanced]
    decide +kernel
  · rw [NoCarry]
    decide +kernel
  · decide +kernel

end DefaultSerializer

end IbrDtn
