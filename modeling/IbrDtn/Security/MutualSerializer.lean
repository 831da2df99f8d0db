import IbrDtn.Library.PrefixCode
import IbrDtn.Data.RoundTrip

/-!
# The mutable canonical form

This file models `ibrdtn/security/MutualSerializer.cpp`, which writes what a payload integrity block
signs: numbers with a fixed width, EIDs as texts, of the flags those that may not change, and of the
blocks the payload, the integrity blocks and the confidentiality blocks.  In place of the
correlator of a security block its ciphersuite flags are written a second time.

## Main definitions

* `MutualSerializer.writeBundle` : the stream operator.
* `MutualSerializer.View`, `MutualSerializer.Agree` : what the form is meant to bind.
* `MutualSerializer.Signable` : the sizes for which the form is meant.

## Main results

* `MutualSerializer.determines_writeBlock` : what the bytes of a block determine.
* `MutualSerializer.binds_iff` : the bundles whose form binds what it is meant to bind.
-/

namespace IbrDtn

open SecurityBlock (containsCiphersuiteParams containsCorrelator containsSecurityResult)

namespace MutualSerializer

/-- `operator<<(const u_int32_t)`. -/
def writeU32 (value : ℕ) : Bytes := bigEndian 4 value

/-- `operator<<(const SDNV&)`. -/
def writeSDNV (value : UInt64) : Bytes := bigEndian 8 value.toNat

/-- `MutualSerializer::sdnv_size`. -/
def sdnvSize : ℕ := 8

/-- `operator<<(const EID&)`. -/
def writeEID (value : EID) : Bytes := writeU32 value.getString.length ++ value.getString

/-- `operator<<(const TLVList&)`. -/
def writeTLVList (list : TLVList) : Bytes :=
  writeSDNV (UInt64.ofNat list.getLength) ++ list.items.flatMap TLV.write

/-- The processing flags of a bundle and of a block that may not change. -/
def primaryMask : UInt64 := 0x7C1BE
def blockMask : UInt64 := 0x77

/-- `getLength(const PrimaryBlock&)`. -/
def primaryLength (p : PrimaryBlock) : ℕ :=
  4 + p.destination.getString.length + (4 + p.source.getString.length) +
    (4 + p.reportto.getString.length) + 2 * sdnvSize + sdnvSize

/-- `operator<<(const PrimaryBlock&)`. -/
def writePrimary (p : PrimaryBlock) : Bytes :=
  PrimaryBlock.bundleVersion :: (writeSDNV (p.procflags &&& primaryMask) ++
    (writeU32 (primaryLength p) ++ (writeEID p.destination ++ (writeEID p.source ++
      (writeEID p.reportto ++ (writeSDNV p.timestamp ++ (writeSDNV p.sequencenumber ++
        writeSDNV p.lifetime)))))))

/-- `SecurityBlock::getLength_mutable`. -/
def lengthMutable (b : SecurityBlock) (resultSize : ℕ) : ℕ :=
  sdnvSize + sdnvSize +
    (if SecurityBlock.has b.ciphersuiteFlags containsCorrelator then sdnvSize
      else 0) +
    (if SecurityBlock.has b.ciphersuiteFlags containsCiphersuiteParams then
      sdnvSize + b.ciphersuiteParams.getLength else 0) +
    (if SecurityBlock.has b.ciphersuiteFlags containsSecurityResult then
      sdnvSize + resultSize else 0)

/-- `SecurityBlock::serialize_mutable_without_security_result`. -/
def serializeMutable (b : SecurityBlock) (resultSize : ℕ) : Bytes :=
  writeSDNV b.ciphersuiteId ++ (writeSDNV b.ciphersuiteFlags ++
    (optional (SecurityBlock.has b.ciphersuiteFlags containsCorrelator)
      (writeSDNV b.ciphersuiteFlags) ++
    (optional (SecurityBlock.has b.ciphersuiteFlags containsCiphersuiteParams)
      (writeTLVList b.ciphersuiteParams) ++
    optional (SecurityBlock.has b.ciphersuiteFlags containsSecurityResult)
      (writeSDNV (UInt64.ofNat resultSize)))))

/-- The length of the content of a block that is announced. -/
def contentLength (c : Block) : ℕ :=
  match c.body.security? with
  | some b => lengthMutable b c.body.getSecurityResultSize
  | none => c.body.getLength

/-- The content of a block. -/
def writeContent (c : Block) : Bytes :=
  match c.body.security? with
  | some b =>
      if c.blocktype = 3 ∨ c.blocktype = 4 then serializeMutable b c.body.getSecurityResultSize
      else []
  | none => c.body.serialize

/-- The blocks that are written. -/
def covered (c : Block) : Bool :=
  c.blocktype == Block.payloadType || c.blocktype == 3 || c.blocktype == 4

/-- `operator<<(const Block&)`, of a block that is not ignored. -/
def writeBlock (c : Block) : Bytes :=
  if covered c then
    c.blocktype :: (writeSDNV (c.procflags &&& blockMask) ++
      (optional (c.get Block.blockContainsEids) (c.eids.flatMap writeEID) ++
        (writeSDNV (UInt64.ofNat (contentLength c)) ++ writeContent c)))
  else []

/-- The blocks from the one at the place `ignore` on that are written, or all that are. -/
def coveredBlocks (ignore : Option ℕ) (b : Bundle) : List Block :=
  (b.blocks.drop (ignore.getD 0)).filter covered

/-- `DefaultSerializer::operator<<(const Bundle&)` of a `MutualSerializer` that ignores the blocks
before the one at the place `ignore`. -/
def writeBundle (ignore : Option ℕ) (b : Bundle) : Bytes :=
  writePrimary b.toPrimaryBlock ++ (b.blocks.drop (ignore.getD 0)).flatMap writeBlock

/-! ### What the form is meant to bind -/

/-- The content of a covered block. -/
inductive Content where
  | payload (bs : Bytes)
  | security (ciphersuiteId ciphersuiteFlags : UInt64) (correlator : Option UInt64)
      (ciphersuiteParams : Option TLVList)
deriving DecidableEq

/-- A covered block up to what may change, with its EIDs as values of `ε`. -/
structure View (ε : Type) where
  blocktype : UInt8
  procflags : UInt64
  eids : List ε
  content : Content
deriving DecidableEq

/-- The content of a block, with its correlator or without. -/
def content (withCorrelator : Bool) (c : Block) : Content :=
  match c.body.security? with
  | some b => .security b.ciphersuiteId b.ciphersuiteFlags
      (if withCorrelator &&
          SecurityBlock.has b.ciphersuiteFlags containsCorrelator then
        some b.correlator else none)
      (if SecurityBlock.has b.ciphersuiteFlags containsCiphersuiteParams then
        some b.ciphersuiteParams else none)
  | none => .payload c.body.serialize

/-- The view of a block. -/
def view (c : Block) : View EID :=
  ⟨c.blocktype, c.procflags &&& blockMask, c.announced, content true c⟩

/-- The view of a block without its correlator, and with the texts of its EIDs. -/
def textView (c : Block) : View Bytes :=
  ⟨c.blocktype, c.procflags &&& blockMask, c.announced.map EID.getString, content false c⟩

/-- **Two bundles agree** in the fields that may not change and in the covered blocks. -/
structure Agree (ignore : Option ℕ) (b : Bundle) (ignore' : Option ℕ) (b' : Bundle) : Prop where
  procflags : b.procflags &&& primaryMask = b'.procflags &&& primaryMask
  destination : b.destination = b'.destination
  source : b.source = b'.source
  reportto : b.reportto = b'.reportto
  timestamp : b.timestamp = b'.timestamp
  sequencenumber : b.sequencenumber = b'.sequencenumber
  lifetime : b.lifetime = b'.lifetime
  blocks : (coveredBlocks ignore b).map view = (coveredBlocks ignore' b').map view

/-- The EIDs that are written. -/
def writtenEIDs (ignore : Option ℕ) (b : Bundle) : List EID :=
  b.destination :: b.source :: b.reportto :: (coveredBlocks ignore b).flatMap Block.announced

/-- The parameters that the flags select fit a stream. -/
def ParamsFit (b : SecurityBlock) : Prop :=
  SecurityBlock.has b.ciphersuiteFlags containsCiphersuiteParams = true →
    b.ciphersuiteParams.Fits

/-- The sizes for which the form of a block is meant: those of `size_t` for its content and its
parameters, and 32 bits for the texts of its EIDs and for a content behind a list of EIDs. -/
structure BlockSignable (c : Block) : Prop where
  covered : covered c = true
  eids_lt : ∀ e ∈ c.announced, e.getString.length < 2 ^ 32
  hasType : c.body.HasType c.blocktype
  params : ∀ s, c.body.security? = some s → ParamsFit s
  content_lt : contentLength c < 2 ^ 64
  content_eids_lt : c.get Block.blockContainsEids = true → contentLength c < 2 ^ 32

/-- The sizes for which the form of a bundle is meant. -/
structure Signable (ignore : Option ℕ) (b : Bundle) : Prop where
  destination_lt : b.destination.getString.length < 2 ^ 32
  source_lt : b.source.getString.length < 2 ^ 32
  reportto_lt : b.reportto.getString.length < 2 ^ 32
  blocks : ∀ c ∈ coveredBlocks ignore b, BlockSignable c

/-- The form of the bundle binds what it is meant to bind. -/
def Binds (ignore : Option ℕ) (b : Bundle) : Prop :=
  ∀ ignore' b', Signable ignore' b' → writeBundle ignore b = writeBundle ignore' b' →
    Agree ignore b ignore' b'

/-- No covered block has a correlator. -/
def Uncorrelated (ignore : Option ℕ) (b : Bundle) : Prop :=
  ∀ c ∈ coveredBlocks ignore b, ∀ s, c.body.security? = some s →
    SecurityBlock.has s.ciphersuiteFlags containsCorrelator = false

/-! ### EIDs as texts -/

end MutualSerializer

namespace EID

/-- The text of the EID has a single colon. -/
def SingleColon (e : EID) : Prop := (0x3a : UInt8) ∉ e.scheme ∧ (0x3a : UInt8) ∉ e.ssp

theorem getString_ne_nil (e : EID) : e.getString ≠ [] := by
  rw [getString]
  exact List.append_ne_nil_of_right_ne_nil _ (List.cons_ne_nil _ _)

/-- A text with a single colon is the text of one EID only. -/
theorem SingleColon.eq_of_getString_eq {e e' : EID} (h : e.SingleColon)
    (heq : e.getString = e'.getString) : e = e' := by
  rcases e with ⟨scheme, ssp⟩
  rcases e' with ⟨scheme', ssp'⟩
  obtain ⟨hscheme, hssp⟩ := h
  rcases List.append_eq_append_iff.1 heq with ⟨t, hscheme', ht⟩ | ⟨t, hscheme', ht⟩
  · cases t with
    | nil =>
        obtain ⟨-, hssp'⟩ := List.cons.inj ht
        exact EID.mk.injEq .. ▸ ⟨(hscheme'.trans (List.append_nil _)).symm, hssp'⟩
    | cons u t =>
        obtain ⟨-, hssp'⟩ := List.cons.inj ht
        exact absurd (hssp' ▸ List.mem_append_right t List.mem_cons_self) hssp
  · cases t with
    | nil =>
        obtain ⟨-, hssp'⟩ := List.cons.inj ht
        exact EID.mk.injEq .. ▸ ⟨hscheme'.trans (List.append_nil _), hssp'.symm⟩
    | cons u t =>
        obtain ⟨hu, -⟩ := List.cons.inj ht
        exact absurd (hscheme' ▸ List.mem_append_right _ (hu ▸ List.mem_cons_self)) hscheme

/-- A text with more colons is the text of another EID as well. -/
theorem exists_getString_eq {e : EID} (h : ¬ e.SingleColon) :
    ∃ e' : EID, e'.getString = e.getString ∧ e' ≠ e := by
  rcases e with ⟨scheme, ssp⟩
  rw [SingleColon, not_and_or, not_not, not_not] at h
  rcases h with h | h
  · obtain ⟨s, t, rfl⟩ := List.append_of_mem h
    refine ⟨⟨s, t ++ 0x3a :: ssp⟩, by simp [getString], fun heq => ?_⟩
    have hlen := congrArg List.length (congrArg EID.scheme heq)
    simp at hlen
  · obtain ⟨s, t, rfl⟩ := List.append_of_mem h
    refine ⟨⟨scheme ++ 0x3a :: s, t⟩, by simp [getString], fun heq => ?_⟩
    have hlen := congrArg List.length (congrArg EID.scheme heq)
    simp at hlen

/-- All EIDs whose text has more than one colon can be split in another way. -/
theorem exists_resplit :
    ∃ f : EID → EID, ∀ e, (f e).getString = e.getString ∧ (f e = e → e.SingleColon) := by
  have h : ∀ e : EID, ∃ e' : EID, e'.getString = e.getString ∧ (e' = e → e.SingleColon) := by
    intro e
    by_cases he : e.SingleColon
    · exact ⟨e, rfl, fun _ => he⟩
    · obtain ⟨e', htext, hne⟩ := exists_getString_eq he
      exact ⟨e', htext, fun heq => absurd heq hne⟩
  choose f hf using h
  exact ⟨f, hf⟩

theorem eq_of_map_getString_eq {es es' : List EID} (h : ∀ e ∈ es, e.SingleColon)
    (heq : es.map getString = es'.map getString) : es = es' := by
  induction es generalizing es' with
  | nil =>
      rw [List.map_nil] at heq
      exact (List.map_eq_nil_iff.1 heq.symm).symm
  | cons e es ih =>
      cases es' with
      | nil => exact absurd heq (List.cons_ne_nil _ _)
      | cons e' es' =>
          obtain ⟨htext, htail⟩ := List.cons.inj heq
          rw [(h e List.mem_cons_self).eq_of_getString_eq htext,
            ih (fun x hx => h x (List.mem_cons_of_mem e hx)) htail]

end EID

namespace MutualSerializer

/-! ### What the parts of the form determine -/

theorem prefixFree_writeU32 : PrefixFree (fun n => n < 2 ^ 32) writeU32 :=
  prefixFree_bigEndian 4

theorem prefixFree_writeSDNV : PrefixFree (fun _ : UInt64 => True) writeSDNV :=
  (prefixFree_bigEndian 8).comp (fun v _ => v.toNat_lt) fun _ _ _ _ h => UInt64.toNat_inj.1 h

/-- The text of an EID behind its length. -/
def writeText (text : Bytes) : Bytes := writeU32 text.length ++ text

theorem prefixFree_writeText : PrefixFree (fun t : Bytes => t.length < 2 ^ 32) writeText :=
  prefixFree_writeU32.framed

theorem flatMap_writeEID (es : List EID) :
    es.flatMap writeEID = (es.map EID.getString).flatMap writeText := by
  rw [List.flatMap_map]
  rfl

/-- A length of 32 bits begins with four zeros, and the length of a text does not. -/
theorem writeText_append_ne {t : Bytes} (hne : t ≠ []) (hlt : t.length < 2 ^ 32) {v : UInt64}
    (hv : v.toNat < 2 ^ 32) (r r' : Bytes) : writeText t ++ r ≠ writeSDNV v ++ r' := by
  intro h
  rw [writeText, writeSDNV, bigEndian_add 4 4, List.append_assoc, List.append_assoc] at h
  have hlen := (prefixFree_writeU32 hlt (Nat.lt_of_le_of_lt (Nat.div_le_self _ _) hv) h).1
  rw [Nat.div_eq_of_lt (by simpa using hv)] at hlen
  exact hne (List.length_eq_zero_iff.1 hlen)

theorem prefixFree_write_TLV :
    PrefixFree (fun t : TLV => t.value.length < 2 ^ 63) TLV.write :=
  Parser.prefixFree fun _ => TLV.reads_read

theorem prefixFree_writeTLVList : PrefixFree TLVList.Fits writeTLVList := by
  intro l l' r r' hl hl' h
  rw [writeTLVList, writeTLVList, List.append_assoc, List.append_assoc] at h
  obtain ⟨hlen, h⟩ := prefixFree_writeSDNV trivial trivial h
  have hlen' : l.getLength = l'.getLength :=
    (EID.toNat_ofNat_of_lt hl.1).symm.trans
      ((congrArg UInt64.toNat hlen).trans (EID.toNat_ofNat_of_lt hl'.1))
  simp only [TLVList.getLength, TLVList.getPayloadLength, ← TLVList.length_flatMap_write] at hlen'
  obtain ⟨hitems, hr⟩ := List.append_inj h hlen'
  have hmap := (prefixFree_write_TLV.determines id).map_eq_of_flatMap_eq
    (fun t _ => List.cons_ne_nil _ _) hl.2 hl'.2 hitems
  rw [List.map_id, List.map_id] at hmap
  cases l
  cases l'
  exact ⟨by simpa using hmap, hr⟩

/-- A part that both values have or both lack. -/
theorem optional_append_inj {α β : Type} {P : α → Prop} {enc : α → Bytes} {v : α → β}
    (henc : Determines P enc v) {present present' : Bool} (hpresent : present = present') {a a' : α}
    (ha : present = true → P a) (ha' : present' = true → P a') {r r' : Bytes}
    (h : optional present (enc a) ++ r = optional present' (enc a') ++ r') :
    (present = true → v a = v a') ∧ r = r' := by
  subst hpresent
  cases present with
  | true => exact (henc (ha rfl) (ha' rfl) h).imp_left fun hv _ => hv
  | false => exact ⟨fun hp => absurd hp Bool.false_ne_true, h⟩

/-- **The fields of a security block are determined** up to the correlator and the result. -/
theorem serializeMutable_append_inj {b b' : SecurityBlock} (hb : ParamsFit b) (hb' : ParamsFit b')
    {size size' : ℕ} {r r' : Bytes}
    (h : serializeMutable b size ++ r = serializeMutable b' size' ++ r') :
    b.ciphersuiteId = b'.ciphersuiteId ∧ b.ciphersuiteFlags = b'.ciphersuiteFlags ∧
      (SecurityBlock.has b.ciphersuiteFlags containsCiphersuiteParams = true →
        b.ciphersuiteParams = b'.ciphersuiteParams) ∧ r = r' := by
  simp only [serializeMutable, List.append_assoc] at h
  have htrue {present : Bool} : present = true → True := fun _ => trivial
  obtain ⟨hid, h⟩ := prefixFree_writeSDNV trivial trivial h
  obtain ⟨hflags, h⟩ := prefixFree_writeSDNV trivial trivial h
  have hnumber := prefixFree_writeSDNV.determines id
  obtain ⟨-, h⟩ := optional_append_inj hnumber (by rw [hflags]) htrue htrue h
  obtain ⟨hparams, h⟩ := optional_append_inj (prefixFree_writeTLVList.determines id)
    (by rw [hflags]) hb hb' h
  obtain ⟨-, h⟩ := optional_append_inj hnumber (by rw [hflags]) htrue htrue h
  exact ⟨hid, hflags, hparams, h⟩

/-! ### What a block determines -/

/-- A covered block is a payload, or a security block of one of the two types. -/
theorem BlockSignable.cases {c : Block} (h : BlockSignable c) :
    (c.blocktype = Block.payloadType ∧ c.body.security? = none ∧
        c.body.serialize.length = c.body.getLength) ∨
      ((c.blocktype = 3 ∨ c.blocktype = 4) ∧ ∃ s, c.body.security? = some s) := by
  have hcovered := h.covered
  simp only [MutualSerializer.covered, Bool.or_eq_true, beq_iff_eq] at hcovered
  rcases h.hasType with ht | ⟨-, hf, hp, -⟩
  · cases hbody : c.body with
    | payload bs =>
        rw [hbody] at ht
        exact Or.inl ⟨(Option.some.inj ht).symm, rfl, rfl⟩
    | statusReport b =>
        rw [hbody] at ht
        exact Or.inl ⟨(Option.some.inj ht).symm, rfl, b.length_serialize⟩
    | custodySignal b =>
        rw [hbody] at ht
        exact Or.inl ⟨(Option.some.inj ht).symm, rfl, b.length_serialize⟩
    | payloadIntegrity b resultSize =>
        rw [hbody] at ht
        exact Or.inr ⟨Or.inl (Option.some.inj ht).symm, b, rfl⟩
    | payloadConfidential b =>
        rw [hbody] at ht
        exact Or.inr ⟨Or.inr (Option.some.inj ht).symm, b, rfl⟩
    | extension | age | scopeControlHopLimit | stream | compressedPayload
    | bundleAuthentication | extensionSecurity =>
        rw [hbody] at ht
        simp only [Body.classType, Option.some.injEq, reduceCtorEq] at ht <;>
          simp [← ht, Block.payloadType] at hcovered
  · rcases hcovered with (hcovered | hcovered) | hcovered <;> rw [hcovered] at hf hp
    · exact absurd rfl hp
    · exact absurd hf (by decide)
    · exact absurd hf (by decide)

/-- The length that is announced behind the EIDs, with what follows them. -/
def writeTail (c : Block) : Bytes :=
  writeSDNV (UInt64.ofNat (contentLength c)) ++ writeContent c

/-- **The content is determined** by its length and its bytes among the blocks of one type. -/
theorem writeTail_append_inj {c c' : Block} (hc : BlockSignable c) (hc' : BlockSignable c')
    (htype : c.blocktype = c'.blocktype) {r r' : Bytes}
    (h : writeTail c ++ r = writeTail c' ++ r') : content false c = content false c' ∧ r = r' := by
  rw [writeTail, writeTail, List.append_assoc, List.append_assoc] at h
  obtain ⟨hlen, h⟩ := prefixFree_writeSDNV trivial trivial h
  have hlen' : contentLength c = contentLength c' :=
    (EID.toNat_ofNat_of_lt hc.content_lt).symm.trans
      ((congrArg UInt64.toNat hlen).trans (EID.toNat_ofNat_of_lt hc'.content_lt))
  rcases hc.cases with ⟨ht, hs, hsize⟩ | ⟨ht, s, hs⟩ <;>
    rcases hc'.cases with ⟨ht', hs', hsize'⟩ | ⟨ht', s', hs'⟩
  · simp only [contentLength, hs, hs'] at hlen'
    simp only [writeContent, hs, hs'] at h
    obtain ⟨hbytes, hr⟩ := List.append_inj h (by rw [hsize, hsize', hlen'])
    simp only [content, hs, hs', hbytes, hr, true_and]
  · rw [← htype, ht] at ht'
    exact absurd ht' (by decide)
  · rw [htype, ht'] at ht
    exact absurd ht (by decide)
  · simp only [writeContent, hs, hs', if_pos ht, if_pos ht'] at h
    obtain ⟨hid, hflags, hparams, hr⟩ :=
      serializeMutable_append_inj (hc.params s hs) (hc'.params s' hs') h
    refine ⟨?_, hr⟩
    simp only [content, hs, hs', hid, ← hflags, Bool.false_and, Bool.false_eq_true, if_false]
    congr 1
    split_ifs with hp
    · rw [hparams hp]
    · rfl

/-- The mask leaves the flag that announces a list of EIDs. -/
theorem get_containsEids (c : Block) : c.get Block.blockContainsEids =
    FlagWord.has (c.procflags &&& blockMask) Block.blockContainsEids := by
  rw [Block.get, FlagWord.has, FlagWord.has, UInt64.and_assoc]
  rfl

theorem writeBlock_of_covered {c : Block} (h : covered c = true) : writeBlock c =
    c.blocktype :: (writeSDNV (c.procflags &&& blockMask) ++
      ((c.announced.map EID.getString).flatMap writeText ++ writeTail c)) := by
  rw [writeBlock, if_pos h, ← flatMap_writeEID, Block.announced, writeTail]
  congr 3
  cases c.get Block.blockContainsEids <;> rfl

/-- **The EIDs and the content are determined**: the length of the content ends the EIDs. -/
theorem eids_append_inj {c c' : Block} (hc : BlockSignable c) (hc' : BlockSignable c')
    (htype : c.blocktype = c'.blocktype)
    (hget : c.get Block.blockContainsEids = c'.get Block.blockContainsEids) {r r' : Bytes}
    (h : (c.announced.map EID.getString).flatMap writeText ++ (writeTail c ++ r) =
      (c'.announced.map EID.getString).flatMap writeText ++ (writeTail c' ++ r')) :
    c.announced.map EID.getString = c'.announced.map EID.getString ∧
      content false c = content false c' ∧ r = r' := by
  cases hcontains : c.get Block.blockContainsEids with
  | false =>
      have hnone : c.announced = [] := by
        rw [Block.announced, hcontains]
        rfl
      have hnone' : c'.announced = [] := by
        rw [Block.announced, ← hget, hcontains]
        rfl
      rw [hnone, hnone'] at h ⊢
      exact ⟨rfl, writeTail_append_inj hc hc' htype h⟩
  | true =>
      have htexts {d : Block} (hd : BlockSignable d) :
          ∀ t ∈ d.announced.map EID.getString, t ≠ [] ∧ t.length < 2 ^ 32 := by
        intro t ht
        obtain ⟨e, he, rfl⟩ := List.mem_map.1 ht
        exact ⟨e.getString_ne_nil, hd.eids_lt e he⟩
      have hlength {d : Block} (hd : BlockSignable d)
          (hcontains : d.get Block.blockContainsEids = true) :
          (UInt64.ofNat (contentLength d)).toNat < 2 ^ 32 := by
        rw [EID.toNat_ofNat_of_lt hd.content_lt]
        exact hd.content_eids_lt hcontains
      have hitem : PrefixFree (fun t : Bytes => t ≠ [] ∧ t.length < 2 ^ 32) writeText :=
        fun _ _ _ _ ht ht' => prefixFree_writeText ht.2 ht'.2
      have hstop : PrefixFree (fun v : UInt64 => v.toNat < 2 ^ 32) writeSDNV :=
        fun _ _ _ _ _ _ => prefixFree_writeSDNV trivial trivial
      simp only [writeTail, List.append_assoc] at h
      obtain ⟨heids, hlen, hrest⟩ := hitem.terminated hstop
        (fun t v r r' ht hv => writeText_append_ne ht.1 ht.2 hv r r') (htexts hc) (htexts hc')
        (hlength hc hcontains) (hlength hc' (hget ▸ hcontains)) h
      refine ⟨heids, writeTail_append_inj hc hc' htype ?_⟩
      rw [writeTail, writeTail, List.append_assoc, List.append_assoc, hlen, hrest]

/-- **What the bytes of a block determine**: all but the correlator and the split of its EIDs. -/
theorem determines_writeBlock : Determines BlockSignable writeBlock textView := by
  intro c c' r r' hc hc' h
  rw [writeBlock_of_covered hc.covered, writeBlock_of_covered hc'.covered, List.cons_append,
    List.cons_append] at h
  obtain ⟨htype, h⟩ := List.cons.inj h
  simp only [List.append_assoc] at h
  obtain ⟨hflags, h⟩ := prefixFree_writeSDNV trivial trivial h
  have hget : c.get Block.blockContainsEids = c'.get Block.blockContainsEids := by
    rw [get_containsEids, hflags, get_containsEids]
  obtain ⟨heids, hcontent, hr⟩ := eids_append_inj hc hc' htype hget h
  refine ⟨?_, hr⟩
  rw [textView, textView, htype, hflags, heids, hcontent]

/-! ### What a bundle determines -/

theorem flatMap_writeBlock (cs : List Block) :
    cs.flatMap writeBlock = (cs.filter covered).flatMap writeBlock := by
  induction cs with
  | nil => rfl
  | cons c cs ih =>
      rw [List.flatMap_cons, ih]
      cases hc : covered c with
      | true => rw [List.filter_cons_of_pos hc, List.flatMap_cons]
      | false =>
          rw [List.filter_cons_of_neg (by rw [hc]; exact Bool.false_ne_true), writeBlock, hc,
            if_neg Bool.false_ne_true, List.nil_append]

/-- The covered blocks are determined up to their correlators and the splits of their EIDs. -/
theorem map_textView_eq {ignore ignore' : Option ℕ} {b b' : Bundle} (hb : Signable ignore b)
    (hb' : Signable ignore' b') (h : (b.blocks.drop (ignore.getD 0)).flatMap writeBlock =
      (b'.blocks.drop (ignore'.getD 0)).flatMap writeBlock) :
    (coveredBlocks ignore b).map textView = (coveredBlocks ignore' b').map textView := by
  rw [flatMap_writeBlock, flatMap_writeBlock (b'.blocks.drop _)] at h
  refine determines_writeBlock.map_eq_of_flatMap_eq (fun c hc => ?_) hb.blocks hb'.blocks h
  rw [writeBlock_of_covered hc.covered]
  exact List.cons_ne_nil _ _

/-- Without correlator and with EIDs whose texts have a single colon, the view follows. -/
theorem view_eq_of_textView_eq {c c' : Block} (h : textView c = textView c')
    (hcorrelator : ∀ s, c.body.security? = some s →
      SecurityBlock.has s.ciphersuiteFlags containsCorrelator = false)
    (hcolon : ∀ e ∈ c.announced, e.SingleColon) : view c = view c' := by
  obtain ⟨htype, hflags, heids, hcontent⟩ := (View.mk.injEq ..).mp h
  have hcontent' : content true c = content true c' := by
    cases hs : c.body.security? with
    | none =>
        cases hs' : c'.body.security? with
        | none => simpa only [content, hs, hs'] using hcontent
        | some s' => simp only [content, hs, hs', reduceCtorEq] at hcontent
    | some s =>
        cases hs' : c'.body.security? with
        | none => simp only [content, hs, hs', reduceCtorEq] at hcontent
        | some s' =>
            have hno := hcorrelator s hs
            simp only [content, hs, hs', Bool.false_and, Content.security.injEq] at hcontent
            have hno' := hcontent.2.1 ▸ hno
            simpa only [content, hs, hs', hno, hno', Bool.and_false, Content.security.injEq]
              using hcontent
  rw [view, view, htype, hflags, EID.eq_of_map_getString_eq hcolon heids, hcontent']

theorem map_view_eq {cs cs' : List Block} (h : cs.map textView = cs'.map textView)
    (hview : ∀ c ∈ cs, ∀ c', textView c = textView c' → view c = view c') :
    cs.map view = cs'.map view := by
  induction cs generalizing cs' with
  | nil =>
      rw [List.map_nil] at h
      rw [List.map_eq_nil_iff.1 h.symm]
  | cons c cs ih =>
      cases cs' with
      | nil => exact absurd h (List.cons_ne_nil _ _)
      | cons c' cs' =>
          obtain ⟨hhead, htail⟩ := List.cons.inj h
          rw [List.map_cons, List.map_cons, hview c List.mem_cons_self c' hhead,
            ih htail fun x hx => hview x (List.mem_cons_of_mem c hx)]

/-- **The form binds** what it is meant to bind where no covered block has a correlator and the
texts of the EIDs have a single colon. -/
theorem binds_of_uncorrelated {ignore : Option ℕ} {b : Bundle} (hb : Signable ignore b)
    (hcorrelator : Uncorrelated ignore b) (hcolon : ∀ e ∈ writtenEIDs ignore b, e.SingleColon) :
    Binds ignore b := by
  intro ignore' b' hb' h
  have heid {e e' : EID} (he : e.SingleColon) (hlt : e.getString.length < 2 ^ 32)
      (hlt' : e'.getString.length < 2 ^ 32) {r r' : Bytes}
      (h : writeEID e ++ r = writeEID e' ++ r') : e = e' ∧ r = r' :=
    (prefixFree_writeText hlt hlt' h).imp_left he.eq_of_getString_eq
  simp only [writtenEIDs, List.mem_cons, forall_eq_or_imp] at hcolon
  obtain ⟨hdestination, hsource, hreportto, hblocks⟩ := hcolon
  rw [writeBundle, writeBundle, writePrimary, writePrimary, List.cons_append, List.cons_append] at h
  simp only [List.append_assoc] at h
  obtain ⟨-, h⟩ := List.cons.inj h
  obtain ⟨procflags, h⟩ := prefixFree_writeSDNV trivial trivial h
  obtain ⟨-, h⟩ := List.append_inj h (by
    rw [writeU32, writeU32, length_bigEndian, length_bigEndian])
  obtain ⟨destination, h⟩ := heid hdestination hb.destination_lt hb'.destination_lt h
  obtain ⟨source, h⟩ := heid hsource hb.source_lt hb'.source_lt h
  obtain ⟨reportto, h⟩ := heid hreportto hb.reportto_lt hb'.reportto_lt h
  obtain ⟨timestamp, h⟩ := prefixFree_writeSDNV trivial trivial h
  obtain ⟨sequencenumber, h⟩ := prefixFree_writeSDNV trivial trivial h
  obtain ⟨lifetime, h⟩ := prefixFree_writeSDNV trivial trivial h
  refine ⟨procflags, destination, source, reportto, timestamp, sequencenumber, lifetime, ?_⟩
  exact map_view_eq (map_textView_eq hb hb' h) fun c hc c' hview =>
    view_eq_of_textView_eq hview (hcorrelator c hc) fun e he =>
      hblocks e (List.mem_flatMap.2 ⟨c, hc, he⟩)

/-! ### Changes that the form does not show -/

/-- The bundle with its EIDs and its blocks replaced. -/
def altered (f : EID → EID) (g : Block → Block) (b : Bundle) : Bundle :=
  { b with
    destination := f b.destination, source := f b.source, reportto := f b.reportto
    blocks := b.blocks.map g }

/-- The replaced EIDs and blocks are written like the ones that they replace. -/
structure Unnoticed (f : EID → EID) (g : Block → Block) : Prop where
  getString : ∀ e, (f e).getString = e.getString
  covered : ∀ c, covered (g c) = covered c
  writeBlock : ∀ c, writeBlock (g c) = writeBlock c
  signable : ∀ c, BlockSignable c → BlockSignable (g c)

section Unnoticed

variable {f : EID → EID} {g : Block → Block} (h : Unnoticed f g) {ignore : Option ℕ} {b : Bundle}

include h

theorem Unnoticed.coveredBlocks_altered :
    coveredBlocks ignore (altered f g b) = (coveredBlocks ignore b).map g := by
  rw [coveredBlocks, altered, ← List.map_drop, List.filter_map, coveredBlocks]
  congr 2
  funext c
  exact h.covered c

theorem Unnoticed.signable_altered (hb : Signable ignore b) : Signable ignore (altered f g b) where
  destination_lt := (congrArg List.length (h.getString b.destination)).trans_lt hb.destination_lt
  source_lt := (congrArg List.length (h.getString b.source)).trans_lt hb.source_lt
  reportto_lt := (congrArg List.length (h.getString b.reportto)).trans_lt hb.reportto_lt
  blocks := by
    rw [h.coveredBlocks_altered]
    intro c hc
    obtain ⟨c', hc', rfl⟩ := List.mem_map.1 hc
    exact h.signable c' (hb.blocks c' hc')

theorem Unnoticed.writeBundle_altered :
    writeBundle ignore (altered f g b) = writeBundle ignore b := by
  have hblocks : ((altered f g b).blocks.drop (ignore.getD 0)).flatMap MutualSerializer.writeBlock =
      (b.blocks.drop (ignore.getD 0)).flatMap MutualSerializer.writeBlock := by
    rw [altered, ← List.map_drop, List.flatMap_map]
    exact List.flatMap_congr fun c _ => h.writeBlock c
  rw [writeBundle, hblocks, writeBundle]
  simp only [writePrimary, primaryLength, writeEID, altered, h.getString]

/-- A bundle whose form binds is not altered. -/
theorem Unnoticed.eq_of_binds (hb : Signable ignore b) (hbinds : Binds ignore b) :
    (f b.destination = b.destination ∧ f b.source = b.source ∧ f b.reportto = b.reportto) ∧
      ∀ c ∈ coveredBlocks ignore b, view (g c) = view c := by
  have hagree := hbinds ignore (altered f g b) (h.signable_altered hb) h.writeBundle_altered.symm
  refine ⟨⟨hagree.destination.symm, hagree.source.symm, hagree.reportto.symm⟩, fun c hc => ?_⟩
  have hblocks := hagree.blocks
  rw [h.coveredBlocks_altered, List.map_map] at hblocks
  exact (List.map_inj_left.1 hblocks c hc).symm

end Unnoticed

/-- The correlator does not show. -/
theorem unnoticed_correlator :
    Unnoticed id (Block.mapSecurity fun s => { s with correlator := s.correlator + 1 }) where
  getString _ := rfl
  covered _ := rfl
  writeBlock c := by
    rcases c with ⟨_, _, _, body⟩
    cases body <;> rfl
  signable c hc := by
    have hlength : contentLength
        (c.mapSecurity fun s => { s with correlator := s.correlator + 1 }) = contentLength c := by
      rcases c with ⟨_, _, _, body⟩
      cases body <;> rfl
    refine ⟨hc.covered, hc.eids_lt, ?_, fun s hs => ?_, ?_, fun hget => ?_⟩
    · have htype := hc.hasType
      rcases c with ⟨_, _, _, body⟩
      cases body <;> exact htype
    · rw [Block.security?_mapSecurity] at hs
      obtain ⟨s', hs', rfl⟩ := Option.map_eq_some_iff.1 hs
      exact hc.params s' hs'
    · rw [hlength]
      exact hc.content_lt
    · rw [hlength]
      exact hc.content_eids_lt hget

theorem announced_mapEIDs (f : EID → EID) (c : Block) :
    (c.mapEIDs f).announced = c.announced.map f := by
  rw [Block.announced, Block.announced, apply_ite (List.map f)]
  rfl

/-- Where the text of an EID is split does not show. -/
theorem unnoticed_mapEIDs {f : EID → EID} (hf : ∀ e, (f e).getString = e.getString) :
    Unnoticed f (Block.mapEIDs f) where
  getString := hf
  covered _ := rfl
  writeBlock c := by
    have heids : (c.mapEIDs f).eids.flatMap writeEID = c.eids.flatMap writeEID := by
      rw [Block.mapEIDs, List.flatMap_map]
      refine List.flatMap_congr fun e _ => ?_
      rw [writeEID, hf, writeEID]
    rw [writeBlock, heids]
    rfl
  signable c hc := by
    refine ⟨hc.covered, fun e he => ?_, hc.hasType, hc.params, hc.content_lt, hc.content_eids_lt⟩
    rw [announced_mapEIDs] at he
    obtain ⟨e', he', rfl⟩ := List.mem_map.1 he
    rw [hf]
    exact hc.eids_lt e' he'

/-- A block with a correlator has another view when that is changed. -/
theorem uncorrelated_of_binds {ignore : Option ℕ} {b : Bundle} (hb : Signable ignore b)
    (hbinds : Binds ignore b) : Uncorrelated ignore b := by
  intro c hc s hs
  have hview := (unnoticed_correlator.eq_of_binds hb hbinds).2 c hc
  have hcontent := congrArg View.content hview
  simp only [view, content, Block.security?_mapSecurity, hs, Option.map_some, Bool.true_and,
    Content.security.injEq, true_and, and_true] at hcontent
  by_contra hhas
  rw [Bool.not_eq_false] at hhas
  rw [if_pos hhas, if_pos hhas, Option.some.injEq] at hcontent
  have hsucc := congrArg UInt64.toNat hcontent
  rw [UInt64.toNat_add, UInt64.toNat_one] at hsucc
  have := s.correlator.toNat_lt
  omega

/-- An EID whose text has more colons is replaced by another one. -/
theorem singleColon_of_binds {ignore : Option ℕ} {b : Bundle} (hb : Signable ignore b)
    (hbinds : Binds ignore b) : ∀ e ∈ writtenEIDs ignore b, e.SingleColon := by
  obtain ⟨f, hf⟩ := EID.exists_resplit
  obtain ⟨⟨hdestination, hsource, hreportto⟩, hblocks⟩ :=
    (unnoticed_mapEIDs fun e => (hf e).1).eq_of_binds hb hbinds
  simp only [writtenEIDs, List.mem_cons, forall_eq_or_imp]
  refine ⟨(hf _).2 hdestination, (hf _).2 hsource, (hf _).2 hreportto, fun e he => ?_⟩
  obtain ⟨c, hc, he⟩ := List.mem_flatMap.1 he
  have heids : (c.mapEIDs f).announced = c.announced := congrArg View.eids (hblocks c hc)
  rw [announced_mapEIDs] at heids
  exact (hf e).2 (List.map_inj_left.1 (heids.trans (List.map_id _).symm) e he)

/-- **The form binds what it is meant to bind if and only if** no covered block has a correlator,
which is written as the flags, and the text of every EID can be split in one way only. -/
theorem binds_iff {ignore : Option ℕ} {b : Bundle} (hb : Signable ignore b) :
    Binds ignore b ↔
      Uncorrelated ignore b ∧ ∀ e ∈ writtenEIDs ignore b, e.SingleColon := by
  constructor
  · intro hbinds
    exact ⟨uncorrelated_of_binds hb hbinds, singleColon_of_binds hb hbinds⟩
  · rintro ⟨hcorrelator, hcolon⟩
    exact binds_of_uncorrelated hb hcorrelator hcolon

/-! ### A bundle with a correlated block -/

/-- A signed bundle with a confidentiality block behind the signature. -/
def signedSample (confidential : SecurityBlock) : Bundle :=
  .sample [
    ⟨3, 0x01, [], .payloadIntegrity
      { SecurityBlock.create 2 with
        ciphersuiteFlags := containsSecurityResult
        securityResult := TLVList.empty.set 5 [0x73] } 3⟩,
    ⟨4, 0, [], .payloadConfidential confidential⟩,
    Bundle.samplePayload 0x08 []]

/-- A confidentiality block with a correlator. -/
def correlatedSample (correlator : UInt64) : SecurityBlock :=
  { SecurityBlock.create 3 with
    ciphersuiteFlags := containsCorrelator
    correlator }

/-- The samples without parameters and result can be signed. -/
theorem signable_signedSample {s : SecurityBlock}
    (hparams : SecurityBlock.has s.ciphersuiteFlags containsCiphersuiteParams = false)
    (hresult : SecurityBlock.has s.ciphersuiteFlags containsSecurityResult = false) :
    Signable (some 0) (signedSample s) where
  destination_lt := by
    change EID.none.getString.length < 2 ^ 32
    decide
  source_lt := by
    change Bundle.sampleEID.getString.length < 2 ^ 32
    decide
  reportto_lt := by
    change EID.none.getString.length < 2 ^ 32
    decide
  blocks := by
    have hlength : contentLength ⟨4, 0, [], .payloadConfidential s⟩ ≤ 24 := by
      simp only [contentLength, Body.security?, lengthMutable, hparams, hresult, sdnvSize,
        Bool.false_eq_true, if_false]
      split_ifs <;> simp
    intro c hc
    have hmem := (List.mem_filter.1 hc).1
    simp only [signedSample, Bundle.sample, Option.getD_some, List.drop_zero, List.mem_cons,
      List.not_mem_nil, or_false] at hmem
    rcases hmem with rfl | rfl | rfl
    · refine ⟨rfl, by decide, by decide, fun s hs => ?_, by decide, by decide⟩
      obtain rfl := Option.some.inj hs
      exact fun h => absurd h (by decide)
    · have hnone : Block.announced ⟨4, 0, [], .payloadConfidential s⟩ = [] := ite_self _
      refine ⟨rfl, fun e he => absurd (hnone ▸ he) List.not_mem_nil, Or.inl rfl, fun s hs => ?_,
        by omega, by omega⟩
      obtain rfl := Option.some.inj hs
      exact fun h => absurd h (by rw [hparams]; exact Bool.false_ne_true)
    · exact ⟨rfl, by decide, by decide, fun s hs => absurd hs (Option.some_ne_none s).symm,
        by decide, by decide⟩

/-- **A correlator can be changed** behind a signature. -/
theorem not_binds_signedSample : ¬ Binds (some 0) (signedSample (correlatedSample 1)) := by
  intro hbinds
  have hagree := hbinds (some 0) (signedSample (correlatedSample 2))
    (signable_signedSample rfl rfl) rfl
  exact absurd hagree.blocks (by decide)

/-- Without correlator the form of the sample binds. -/
theorem binds_iff_sample : Binds (some 0) (signedSample (.create 3)) := by
  refine (binds_iff (signable_signedSample rfl rfl)).2 ⟨fun c hc s hs => ?_, fun e he => ?_⟩
  · have hmem := (List.mem_filter.1 hc).1
    simp only [signedSample, Bundle.sample, Option.getD_some, List.drop_zero, List.mem_cons,
      List.not_mem_nil, or_false] at hmem
    rcases hmem with rfl | rfl | rfl
    · obtain rfl := Option.some.inj hs
      rfl
    · obtain rfl := Option.some.inj hs
      rfl
    · exact absurd hs (Option.some_ne_none s).symm
  · have hwritten : writtenEIDs (some 0) (signedSample (.create 3)) =
        [EID.none, Bundle.sampleEID, EID.none] := rfl
    rw [hwritten] at he
    simp only [List.mem_cons, List.not_mem_nil, or_false] at he
    rcases he with rfl | rfl | rfl <;> exact ⟨by decide, by decide⟩

end MutualSerializer

end IbrDtn
