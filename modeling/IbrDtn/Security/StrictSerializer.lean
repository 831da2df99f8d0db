import IbrDtn.Library.PrefixCode
import IbrDtn.Data.LossyTransport

/-!
# The strict canonical form

This file models `ibrdtn/security/StrictSerializer.cpp`, which writes what a bundle authentication
block authenticates: the bundle with a dictionary, with the age left out, and with the size of the
security results in place of the results.

## Main definitions

* `StrictSerializer.writeBlock`, `StrictSerializer.writeBundle` : the stream operators.
* `Block.Unaltered` : the blocks that a transport leaves as they are.

## Main results

* `StrictSerializer.determines_writeBlock` : the strict form of a block ends where it is known to.
* `StrictSerializer.keepsBlocks_of_writeBundle_eq`, `StrictSerializer.writeBundle_restores` : the
  bundles whose strict form is the same before and after a transport.
-/

namespace IbrDtn

theorem SDNV.prefixFree_write : PrefixFree (fun _ : UInt64 => True) SDNV.write :=
  Parser.prefixFree fun v _ => SDNV.reads_read v

namespace SecurityBlock

/-- `SecurityBlock::serialize_strict`, of a class that answers `resultSize` to
`getSecurityResultSize`. -/
def serializeStrict (b : SecurityBlock) (resultSize : ℕ) : Bytes :=
  SDNV.write b.ciphersuiteId ++ (SDNV.write b.ciphersuiteFlags ++
    (optional (has b.ciphersuiteFlags containsCorrelator) (SDNV.write b.correlator) ++
    (optional (has b.ciphersuiteFlags containsCiphersuiteParams) b.ciphersuiteParams.write ++
    optional (has b.ciphersuiteFlags containsSecurityResult)
      (SDNV.write (UInt64.ofNat resultSize)))))

end SecurityBlock

namespace Body

/-- `getLength_strict` of the class. -/
def getLengthStrict : Body → ℕ
  | .age _ => 1
  | body => body.getLength

/-- `serialize_strict` of the class. -/
def serializeStrict (body : Body) : Bytes :=
  match body.security? with
  | some b => b.serializeStrict body.getSecurityResultSize
  | none =>
    match body with
    | .age _ => [0]
    | body => body.serialize

end Body

namespace StrictSerializer

/-- `operator<<(const Block&)`, where `s` has the dictionary of the bundle. -/
def writeBlock (s : DefaultSerializer) (b : Block) : Bytes :=
  b.blocktype :: (SDNV.write b.procflags ++
    (optional (b.get Block.blockContainsEids)
        (SDNV.write (UInt64.ofNat b.eids.length) ++ s.writeRefs b.eids) ++
      (SDNV.write (UInt64.ofNat b.body.getLengthStrict) ++ b.body.serializeStrict)))

/-- The base class with the dictionary of a bundle. The bundle is never compressed, since
`_compressable` stays as the constructor set it. -/
def base (b : Bundle) : DefaultSerializer := DefaultSerializer.create.rebuildDictionary b

/-- `operator<<(const Bundle&)` of a serializer without correlator. -/
def writeBundle (b : Bundle) : Bytes :=
  let header := (base b).writePrimary b.toPrimaryBlock
  header.1 ++ b.blocks.flatMap (writeBlock header.2)

end StrictSerializer

/-! ### Security blocks -/

namespace SecurityBlock

/-- The strict form of what was read does not depend on the EIDs. -/
theorem serializeStrict_receivedWith (eids : List EID) (b : SecurityBlock) (resultSize : ℕ) :
    (b.receivedWith eids).serializeStrict resultSize = b.serializeStrict resultSize := by
  simp only [serializeStrict, receivedWith, received, optional_ite]

theorem getLength_receivedWith (eids : List EID) (b : SecurityBlock) (resultSize : ℕ) :
    (b.receivedWith eids).getLength resultSize = b.getLength resultSize := by
  refine congrArg₂ (· + ·) (congrArg₂ (· + ·) (congrArg₂ (· + ·) rfl ?_) ?_) rfl
  · simp only [receivedWith, received]
    split_ifs <;> rfl
  · simp only [receivedWith, received]
    split_ifs <;> rfl

/-- The size of the result is at the end of the strict form. -/
theorem serializeStrict_append_inj (b : SecurityBlock) {size size' : ℕ} {r r' : Bytes}
    (h : b.serializeStrict size ++ r = b.serializeStrict size' ++ r') :
    (has b.ciphersuiteFlags containsSecurityResult = true →
      UInt64.ofNat size = UInt64.ofNat size') ∧ r = r' := by
  simp only [serializeStrict, List.append_assoc, List.append_cancel_left_eq] at h
  cases hresult : has b.ciphersuiteFlags containsSecurityResult with
  | false =>
      rw [hresult] at h
      exact ⟨fun hf => absurd hf Bool.false_ne_true, h⟩
  | true =>
      rw [hresult] at h
      exact (SDNV.prefixFree_write trivial trivial h).imp_left fun heq _ => heq

end SecurityBlock

namespace Body

theorem security?_received (eids : List EID) (body : Body) :
    (body.received eids).security? = body.security?.map (SecurityBlock.receivedWith eids) := by
  cases body <;> rfl

/-- The size that an integrity block predicted for its result is right. -/
def Predicted (body : Body) : Prop :=
  ∀ s size, body = .payloadIntegrity s size →
    SecurityBlock.has s.ciphersuiteFlags SecurityBlock.containsSecurityResult = true →
      size = 0 ∨ size = s.securityResult.getLength

theorem getSecurityResultSize_received_payloadIntegrity (eids : List EID) (s : SecurityBlock)
    (size : ℕ) : ((payloadIntegrity s size).received eids).getSecurityResultSize =
      (s.receivedWith eids).getSecurityResultSize :=
  ite_self _

/-- The size of a security result that is written is the same after a transport, unless an
integrity block predicted another one. -/
theorem getSecurityResultSize_received {eids : List EID} {body : Body} {b : SecurityBlock}
    (hb : body.security? = some b)
    (hresult : SecurityBlock.has b.ciphersuiteFlags SecurityBlock.containsSecurityResult = true) :
    (body.received eids).getSecurityResultSize = body.getSecurityResultSize ↔ body.Predicted := by
  have hreceived : (b.receivedWith eids).getSecurityResultSize = b.getSecurityResultSize := by
    simp only [SecurityBlock.getSecurityResultSize, SecurityBlock.receivedWith,
      SecurityBlock.received, hresult, if_true]
  cases body with
  | payloadIntegrity s size =>
      obtain rfl := Option.some.inj hb
      rw [getSecurityResultSize_received_payloadIntegrity, hreceived, getSecurityResultSize]
      constructor
      · rintro h _ _ ⟨⟩ -
        split_ifs at h with hpos
        · exact Or.inr h.symm
        · exact Or.inl (Nat.eq_zero_of_not_pos hpos)
      · intro h
        split_ifs with hpos
        · rcases h s size rfl hresult with rfl | hsize
          · exact absurd hpos (Nat.lt_irrefl 0)
          · exact hsize.symm
        · rfl
  | bundleAuthentication s =>
      exact ⟨fun _ _ _ h => by simp at h, fun _ => rfl⟩
  | payloadConfidential s =>
      obtain rfl := Option.some.inj hb
      exact ⟨fun _ _ _ h => by simp at h, fun _ => hreceived⟩
  | extensionSecurity s =>
      obtain rfl := Option.some.inj hb
      exact ⟨fun _ _ _ h => by simp at h, fun _ => hreceived⟩
  | payload | extension | age | scopeControlHopLimit | stream | compressedPayload | statusReport
  | custodySignal => exact absurd hb (Option.some_ne_none b).symm

/-- The sizes of results are those of an `int` and of a `size_t`. -/
def SizesFit (body : Body) : Prop :=
  (∀ s size, body = .payloadIntegrity s size → size < 2 ^ 31) ∧
    ∀ s, body.security? = some s → s.securityResult.Fits

theorem SizesFit.getSecurityResultSize_lt {body : Body} (h : body.SizesFit) {b : SecurityBlock}
    (hb : body.security? = some b) (eids : List EID) :
    body.getSecurityResultSize < 2 ^ 64 ∧
      (body.received eids).getSecurityResultSize < 2 ^ 64 := by
  have hfits : b.securityResult.getLength < 2 ^ 64 := (h.2 b hb).1
  have hreceived : (b.receivedWith eids).getSecurityResultSize < 2 ^ 64 := by
    rw [SecurityBlock.getSecurityResultSize, SecurityBlock.receivedWith, SecurityBlock.received]
    dsimp only
    split_ifs
    · exact hfits
    · exact Nat.two_pow_pos 64
  cases body with
  | payloadIntegrity s size =>
      obtain rfl := Option.some.inj hb
      rw [getSecurityResultSize_received_payloadIntegrity]
      refine ⟨?_, hreceived⟩
      have hsize := h.1 s size rfl
      rw [getSecurityResultSize]
      split_ifs
      · omega
      · exact hfits
  | bundleAuthentication s =>
      have hsize : authenticationResultSize < 2 ^ 64 := by decide
      exact ⟨hsize, hsize⟩
  | payloadConfidential s =>
      obtain rfl := Option.some.inj hb
      exact ⟨hfits, hreceived⟩
  | extensionSecurity s =>
      obtain rfl := Option.some.inj hb
      exact ⟨hfits, hreceived⟩
  | payload | extension | age | scopeControlHopLimit | stream | compressedPayload | statusReport
  | custodySignal => exact absurd hb (Option.some_ne_none b).symm

/-- **The strict form of a body is the same after a transport exactly if** no integrity block
predicted another size for its result. -/
theorem serializeStrict_received_append_inj {body : Body} (hfits : body.SizesFit)
    (eids : List EID) {r r' : Bytes}
    (h : (body.received eids).serializeStrict ++ r' = body.serializeStrict ++ r) :
    body.Predicted ∧ r' = r := by
  cases hb : body.security? with
  | none =>
      have hsame : (body.received eids).serializeStrict = body.serializeStrict := by
        cases body <;> first | rfl | exact absurd hb (Option.some_ne_none _)
      rw [hsame, List.append_cancel_left_eq] at h
      refine ⟨?_, h⟩
      rintro s size rfl
      exact absurd hb (Option.some_ne_none s)
  | some b =>
      have hb' : (body.received eids).security? = some (b.receivedWith eids) := by
        rw [security?_received, hb, Option.map_some]
      simp only [serializeStrict, hb, hb', SecurityBlock.serializeStrict_receivedWith] at h
      obtain ⟨hsize, hr⟩ := b.serializeStrict_append_inj h
      refine ⟨?_, hr⟩
      rintro s size rfl hresult
      obtain rfl := Option.some.inj hb
      obtain ⟨hlt, hlt'⟩ := hfits.getSecurityResultSize_lt hb eids
      have heq := congrArg UInt64.toNat (hsize hresult)
      rw [EID.toNat_ofNat_of_lt hlt, EID.toNat_ofNat_of_lt hlt'] at heq
      exact (getSecurityResultSize_received hb hresult).1 heq s size rfl hresult

theorem serializeStrict_received {body : Body} (h : body.Predicted) (eids : List EID) :
    (body.received eids).serializeStrict = body.serializeStrict := by
  cases hb : body.security? with
  | none => cases body <;> first | rfl | exact absurd hb (Option.some_ne_none _)
  | some b =>
      have hb' : (body.received eids).security? = some (b.receivedWith eids) := by
        rw [security?_received, hb, Option.map_some]
      simp only [serializeStrict, hb, hb', SecurityBlock.serializeStrict_receivedWith]
      cases hresult : SecurityBlock.has b.ciphersuiteFlags SecurityBlock.containsSecurityResult with
      | false => simp only [SecurityBlock.serializeStrict, hresult, optional, Bool.false_eq_true,
          if_false]
      | true => rw [(getSecurityResultSize_received hb hresult).2 h]

theorem getLength_of_security {body : Body} {b : SecurityBlock} (hb : body.security? = some b) :
    body.getLength = b.getLength body.getSecurityResultSize := by
  cases body <;> first
    | exact absurd hb (Option.some_ne_none b).symm
    | (obtain rfl := Option.some.inj hb; rfl)

/-- The announced length is the same as well. -/
theorem getLengthStrict_received {body : Body} (h : body.Predicted) (eids : List EID) :
    (body.received eids).getLengthStrict = body.getLengthStrict := by
  cases hb : body.security? with
  | none =>
      cases body with
      | statusReport b => exact b.length_serialize
      | custodySignal b => exact b.length_serialize
      | bundleAuthentication | payloadIntegrity | payloadConfidential | extensionSecurity =>
          exact absurd hb (Option.some_ne_none _)
      | payload | extension | age | scopeControlHopLimit | stream | compressedPayload => rfl
  | some b =>
      have hb' : (body.received eids).security? = some (b.receivedWith eids) := by
        rw [security?_received, hb, Option.map_some]
      have hstrict {body : Body} {b : SecurityBlock} (hb : body.security? = some b) :
          body.getLengthStrict = b.getLength body.getSecurityResultSize := by
        rw [← getLength_of_security hb]
        cases body <;> first | rfl | exact absurd hb (Option.some_ne_none b).symm
      rw [hstrict hb, hstrict hb', SecurityBlock.getLength_receivedWith]
      cases hresult : SecurityBlock.has b.ciphersuiteFlags SecurityBlock.containsSecurityResult with
      | false => simp only [SecurityBlock.getLength, hresult, Bool.false_eq_true, if_false]
      | true => rw [(getSecurityResultSize_received hb hresult).2 h]

end Body

/-! ### Blocks -/

namespace Block

/-- A transport leaves the block as it is, up to the age and the security result. -/
structure Unaltered (f : EID → EID) (c : Block) : Prop where
  eids : ∀ e ∈ c.eids, f e = e
  mark : ∀ value ∈ (receiver c.blocktype).body.forwardedMark,
    c.get forwardedWithoutProcessed = value
  result : c.body.Predicted

end Block

namespace Body

variable {body body' : Body} {type : UInt8}

/-- The class of a block follows from its type, up to that of a payload. -/
theorem HasType.classType_eq (h : body.HasType type) : body.classType =
    if Factory.get type = none ∧ type ≠ Block.payloadType then none else some type := by
  split_ifs with hunknown
  · exact h.classType_eq_none hunknown.1 hunknown.2
  · exact h.resolve_right fun h => hunknown ⟨h.2.1, h.2.2.1⟩

theorem security?_isSome_iff (body : Body) : body.security?.isSome =
    decide (body.classType ∈ [some 2, some 3, some 4, some 9]) := by
  cases body <;> rfl

theorem exists_age_iff (body : Body) : (∃ b, body = .age b) ↔ body.classType = some 10 := by
  cases body <;> simp [classType, Block.payloadType]

/-- The strict form of a class that is none of these is its payload. -/
theorem serializeStrict_eq (hsecurity : body.security? = none) (hage : ∀ b, body ≠ .age b) :
    body.serializeStrict = body.serialize ∧ body.getLengthStrict = body.serialize.length := by
  cases body with
  | age b => exact absurd rfl (hage b)
  | payload | extension => exact ⟨rfl, rfl⟩
  | scopeControlHopLimit | stream | compressedPayload =>
      refine ⟨rfl, ?_⟩
      simp [getLengthStrict, getLength, serialize]
  | statusReport b => exact ⟨rfl, b.length_serialize.symm⟩
  | custodySignal b => exact ⟨rfl, b.length_serialize.symm⟩
  | bundleAuthentication | payloadIntegrity | payloadConfidential | extensionSecurity =>
      simp [security?] at hsecurity

end Body

/-- The strict form of the block is known to end: its class fits its type, and its EIDs, payload and
parameters have sizes of 64 bits. -/
structure Block.Decodable (c : Block) : Prop where
  hasType : c.body.HasType c.blocktype
  eids_lt : c.eids.length < 2 ^ 64
  payload_lt : c.body.serialize.length < 2 ^ 64
  params : ∀ s, c.body.security? = some s →
    SecurityBlock.has s.ciphersuiteFlags SecurityBlock.containsCiphersuiteParams = true →
      s.ciphersuiteParams.getPayloadLength < 2 ^ 64

namespace Block

variable {f : EID → EID} {c : Block}

theorem Sendable.decodable (h : c.Sendable) : c.Decodable :=
  ⟨h.hasType, h.eids_lt.trans (by decide), h.payload_lt,
    fun s hs hp => ((h.security s hs).2.1 hp).1⟩

theorem length_eids_transported_le (c : Block) :
    (c.transported f).eids.length ≤ c.eids.length := by
  rw [transported, eids_withMark, announced]
  dsimp only
  split_ifs <;> simp

theorem body_transported (f : EID → EID) (c : Block) :
    (c.transported f).body = c.body.received (c.announced.map f) := by
  rw [transported, body_withMark]

theorem blocktype_transported (f : EID → EID) (c : Block) :
    (c.transported f).blocktype = c.blocktype := by
  rw [transported, blocktype_withMark]

theorem classType_received (eids : List EID) (body : Body) :
    (body.received eids).classType = body.classType := by
  cases body <;> rfl

theorem Sendable.decodable_transported (h : c.Sendable) : (c.transported f).Decodable := by
  refine ⟨?_, (length_eids_transported_le c).trans_lt (h.eids_lt.trans (by decide)), ?_,
    fun s hs hp => ?_⟩
  · rw [body_transported, blocktype_transported, Body.HasType, classType_received]
    exact h.hasType
  · rw [body_transported, Body.serialize_received]
    exact h.payload_lt
  · rw [body_transported, Body.security?_received] at hs
    obtain ⟨s₀, hs₀, rfl⟩ := Option.map_eq_some_iff.1 hs
    have hparams : (s₀.receivedWith (c.announced.map f)).ciphersuiteParams =
        s₀.ciphersuiteParams := if_pos hp
    rw [hparams]
    exact ((h.security s₀ hs₀).2.1 hp).1

/-- A record that was read again. -/
theorem Sendable.decodable_reread (h : c.Sendable) (htype : c.blocktype = payloadType) {body : Body}
    (hclass : body.classType = some payloadType) (hlt : body.serialize.length < 2 ^ 64) :
    Decodable { c.transported f with eids := c.announced.map fun _ => EID.blank, body } := by
  refine ⟨.inl ?_, ?_, hlt, fun s hs => ?_⟩
  · rw [blocktype_transported, htype]
    exact hclass
  · rw [List.length_map, h.announced_eq]
    exact h.eids_lt.trans (by decide)
  · have hsome : body.security?.isSome = true := by rw [hs]; rfl
    rw [Body.security?_isSome_iff, hclass] at hsome
    exact absurd hsome (by decide)

end Block

namespace SecurityBlock

/-- The strict form ends behind the fields that its flags select. -/
theorem serializeStrict_append_tail {b b' : SecurityBlock} {size size' : ℕ}
    (hb : has b.ciphersuiteFlags containsCiphersuiteParams = true →
      b.ciphersuiteParams.getPayloadLength < 2 ^ 64)
    (hb' : has b'.ciphersuiteFlags containsCiphersuiteParams = true →
      b'.ciphersuiteParams.getPayloadLength < 2 ^ 64) {r r' : Bytes}
    (h : b'.serializeStrict size' ++ r' = b.serializeStrict size ++ r) : r' = r := by
  have hoptional {present : Bool} {bs bs' cs cs' : Bytes}
      (hsame : present = true → bs' ++ cs' = bs ++ cs → cs' = cs)
      (h : optional present bs' ++ cs' = optional present bs ++ cs) : cs' = cs := by
    cases present with
    | false => exact h
    | true => exact hsame rfl h
  simp only [serializeStrict, List.append_assoc] at h
  obtain ⟨-, h⟩ := SDNV.prefixFree_write trivial trivial h
  obtain ⟨hflags, h⟩ := SDNV.prefixFree_write trivial trivial h
  rw [hflags] at h hb'
  replace h := hoptional (fun _ h => (SDNV.prefixFree_write trivial trivial h).2) h
  replace h := hoptional (fun hp h => ?_) h
  · exact hoptional (fun _ h => (SDNV.prefixFree_write trivial trivial h).2) h
  · rw [TLVList.write, TLVList.write, List.append_assoc, List.append_assoc] at h
    obtain ⟨hsize, h⟩ := SDNV.prefixFree_write trivial trivial h
    have hlength := congrArg UInt64.toNat hsize
    rw [EID.toNat_ofNat_of_lt (hb' hp), EID.toNat_ofNat_of_lt (hb hp)] at hlength
    refine (List.append_inj h ?_).2
    rw [TLVList.length_flatMap_write, TLVList.length_flatMap_write]
    exact hlength

end SecurityBlock

namespace StrictSerializer

/-! ### References -/

/-- The references of lists of one length are equal one by one. -/
theorem writeRefs_append_inj {s s' : DefaultSerializer} {es es' : List EID}
    (hlength : es'.length = es.length) {r r' : Bytes}
    (h : s'.writeRefs es' ++ r' = s.writeRefs es ++ r) :
    List.Forall₂ (fun e' e => s'.ref e' = s.ref e) es' es ∧ r' = r := by
  induction es generalizing es' with
  | nil =>
      obtain rfl := List.length_eq_zero_iff.1 hlength
      exact ⟨.nil, h⟩
  | cons e es ih =>
      obtain ⟨e', es', rfl⟩ := List.exists_cons_of_length_eq_add_one hlength
      simp only [DefaultSerializer.writeRefs, List.flatMap_cons, List.append_assoc] at h
      obtain ⟨hfst, h⟩ := SDNV.prefixFree_write trivial trivial h
      obtain ⟨hsnd, h⟩ := SDNV.prefixFree_write trivial trivial h
      obtain ⟨hrefs, hr⟩ := ih (Nat.succ.inj hlength) h
      exact ⟨.cons (Prod.ext hfst hsnd) hrefs, hr⟩

/-- The references of the images of EIDs are equal one by one. -/
theorem writeRefs_map_append_inj {s s' : DefaultSerializer} {f : EID → EID} {es : List EID}
    {r r' : Bytes} (h : s'.writeRefs (es.map f) ++ r' = s.writeRefs es ++ r) :
    (∀ e ∈ es, s'.ref (f e) = s.ref e) ∧ r' = r :=
  (writeRefs_append_inj (List.length_map f) h).imp_left fun hrefs =>
    List.forall₂_same.1 (List.forall₂_map_left_iff.1 hrefs)

/-- Equal references into equal dictionaries are those of one EID. -/
theorem eq_of_getRef_eq {d d' : Dictionary} {entries entries' : List Bytes}
    (hd : d.Lists entries) (hd' : d'.Lists entries') (hbytes : d'.bytes = d.bytes)
    (hlen : d.bytes.length < 2 ^ 64) {e e' : EID} (he : Dictionary.Holds entries e)
    (he' : Dictionary.Holds entries' e') (href : d'.getRef e' = d.getRef e) : e' = e := by
  have hpart {value value' : Bytes} (hv : value ∈ entries) (hv' : value' ∈ entries')
      (hget : d'.get value' = d.get value) : value' = value := by
    obtain ⟨r, hdrop, -⟩ := hd.get_of_mem hlen hv
    obtain ⟨r', hdrop', -⟩ := hd'.get_of_mem (hbytes ▸ hlen) hv'
    rw [hbytes, hget, hdrop] at hdrop'
    have htake := congrArg (List.takeWhile (· ≠ 0)) hdrop'
    rw [Dictionary.takeWhile_nul (hd.nulFree value hv),
      Dictionary.takeWhile_nul (hd'.nulFree value' hv')] at htake
    exact htake.symm
  obtain ⟨hscheme, hssp⟩ := Prod.mk.inj href
  rcases e with ⟨scheme, ssp⟩
  rcases e' with ⟨scheme', ssp'⟩
  exact congrArg₂ EID.mk (hpart he.1 he'.1 hscheme) (hpart he.2 he'.2 hssp)

/-! ### Blocks -/

/-- What the strict form of a block determines in front of its payload. -/
theorem writeBlock_append_inj {s s' : DefaultSerializer} {c n : Block}
    (hc : c.eids.length < 2 ^ 64) (hn : n.eids.length < 2 ^ 64) {r r' : Bytes}
    (h : writeBlock s' n ++ r' = writeBlock s c ++ r) :
    n.blocktype = c.blocktype ∧ n.procflags = c.procflags ∧
      (c.get Block.blockContainsEids = true →
        List.Forall₂ (fun e' e => s'.ref e' = s.ref e) n.eids c.eids) ∧
      UInt64.ofNat n.body.getLengthStrict = UInt64.ofNat c.body.getLengthStrict ∧
      n.body.serializeStrict ++ r' = c.body.serializeStrict ++ r := by
  rw [writeBlock, writeBlock, List.cons_append, List.cons_append] at h
  obtain ⟨htype, h⟩ := List.cons.inj h
  simp only [List.append_assoc] at h
  obtain ⟨hflags, h⟩ := SDNV.prefixFree_write trivial trivial h
  have hget : n.get Block.blockContainsEids = c.get Block.blockContainsEids := by
    rw [Block.get, hflags, Block.get]
  rw [hget] at h
  refine ⟨htype, hflags, ?_⟩
  cases hcontains : c.get Block.blockContainsEids with
  | false =>
      rw [hcontains] at h
      exact ⟨fun h => absurd h Bool.false_ne_true, SDNV.prefixFree_write trivial trivial h⟩
  | true =>
      rw [hcontains] at h
      simp only [optional, if_true, List.append_assoc] at h
      obtain ⟨hcount, h⟩ := SDNV.prefixFree_write trivial trivial h
      have hlength := congrArg UInt64.toNat hcount
      rw [EID.toNat_ofNat_of_lt hn, EID.toNat_ofNat_of_lt hc] at hlength
      obtain ⟨hrefs, h⟩ := writeRefs_append_inj hlength h
      exact ⟨fun _ => hrefs, SDNV.prefixFree_write trivial trivial h⟩

/-- The strict forms of payloads that are announced with one length end at one place. -/
theorem serialize_append_inj {body body' : Body} (hsecurity : body.security? = none)
    (hsecurity' : body'.security? = none) (hage : ∀ b, body ≠ .age b) (hage' : ∀ b, body' ≠ .age b)
    (hlt : body.serialize.length < 2 ^ 64) (hlt' : body'.serialize.length < 2 ^ 64)
    (hlength : UInt64.ofNat body'.getLengthStrict = UInt64.ofNat body.getLengthStrict)
    {r r' : Bytes} (h : body'.serializeStrict ++ r' = body.serializeStrict ++ r) :
    body'.serialize = body.serialize ∧ r' = r := by
  obtain ⟨hstrict, hsize⟩ := Body.serializeStrict_eq hsecurity hage
  obtain ⟨hstrict', hsize'⟩ := Body.serializeStrict_eq hsecurity' hage'
  have hnat := congrArg UInt64.toNat hlength
  rw [hsize, hsize', EID.toNat_ofNat_of_lt hlt, EID.toNat_ofNat_of_lt hlt'] at hnat
  rw [hstrict, hstrict'] at h
  exact List.append_inj h hnat

/-- **The strict form of a block ends where it is known to.** -/
theorem determines_writeBlock :
    Determines (fun p : DefaultSerializer × Block => p.2.Decodable) (fun p => writeBlock p.1 p.2)
      fun _ => () := by
  rintro ⟨s', n⟩ ⟨s, c⟩ r' r hn hc h
  refine ⟨rfl, ?_⟩
  obtain ⟨htype, -, -, hlength, h⟩ := writeBlock_append_inj hc.eids_lt hn.eids_lt h
  have hclass : n.body.classType = c.body.classType := by
    rw [hn.hasType.classType_eq, hc.hasType.classType_eq]
    dsimp only at htype
    rw [htype]
  have hsome : n.body.security?.isSome = c.body.security?.isSome := by
    rw [Body.security?_isSome_iff, Body.security?_isSome_iff, hclass]
  cases hb : c.body.security? with
  | some b =>
      rw [hb, Option.isSome_some] at hsome
      obtain ⟨b', hb'⟩ := Option.isSome_iff_exists.1 hsome
      simp only [Body.serializeStrict, hb, hb'] at h
      exact SecurityBlock.serializeStrict_append_tail (hc.params b hb) (hn.params b' hb') h
  | none =>
      rw [hb, Option.isSome_none] at hsome
      have hnone : n.body.security? = none := Option.not_isSome_iff_eq_none.1 (by simp [hsome])
      by_cases hage : ∃ b, c.body = .age b
      · obtain ⟨b', hb'⟩ := (Body.exists_age_iff n.body).2 (hclass.trans
          ((Body.exists_age_iff c.body).1 hage))
        obtain ⟨b, hb⟩ := hage
        rw [hb, hb'] at h
        exact List.append_cancel_left h
      · have hage' : ¬ ∃ b, n.body = .age b := fun h =>
          hage ((Body.exists_age_iff c.body).2 (hclass.symm.trans
            ((Body.exists_age_iff n.body).1 h)))
        exact (serialize_append_inj hb hnone (fun b h => hage ⟨b, h⟩) (fun b h => hage' ⟨b, h⟩)
          hc.payload_lt hn.payload_lt hlength h).2

/-- Blocks with the same strict form are as many. -/
theorem length_eq_of_flatMap_eq {s s' : DefaultSerializer} {cs ns : List Block}
    (hcs : ∀ c ∈ cs, c.Decodable) (hns : ∀ n ∈ ns, n.Decodable)
    (h : ns.flatMap (writeBlock s') = cs.flatMap (writeBlock s)) : ns.length = cs.length := by
  have hform : (ns.map fun n => (s', n)).flatMap (fun x => writeBlock x.1 x.2) =
      (cs.map fun c => (s, c)).flatMap fun x => writeBlock x.1 x.2 := by
    rw [List.flatMap_map, List.flatMap_map]
    exact h
  have hsame := determines_writeBlock.map_eq_of_flatMap_eq (fun _ _ => List.cons_ne_nil _ _)
    (List.forall_mem_map.2 hns) (List.forall_mem_map.2 hcs) hform
  have hlength := congrArg List.length hsame
  rwa [List.length_map, List.length_map, List.length_map, List.length_map] at hlength

section Blocks

variable {f : EID → EID} {c : Block} {s s' : DefaultSerializer}

/-- **A block with the same strict form is left as it is**, if references are. -/
theorem unaltered_of_writeBlock_eq (hc : c.Sendable) (hfits : c.body.SizesFit)
    (hrefs : ∀ e ∈ c.eids, s'.ref (f e) = s.ref e → f e = e) {r r' : Bytes}
    (h : writeBlock s' (c.transported f) ++ r' = writeBlock s c ++ r) :
    c.Unaltered f ∧ r' = r := by
  have heids : (c.transported f).eids = c.eids.map f := by
    rw [Block.transported, Block.eids_withMark, hc.announced_eq]
  obtain ⟨-, hflags, hsame, -, h⟩ := writeBlock_append_inj hc.decodable.eids_lt
    hc.decodable_transported.eids_lt h
  rw [Block.body_transported] at h
  obtain ⟨hresult, hr⟩ := Body.serializeStrict_received_append_inj hfits _ h
  refine ⟨⟨fun e he => ?_, (Block.procflags_transported_iff f c).1 hflags, hresult⟩, hr⟩
  have hcontains := hc.contains (List.ne_nil_of_mem he)
  have hsame := hsame hcontains
  rw [heids, List.forall₂_map_left_iff, List.forall₂_same] at hsame
  exact hrefs e he (hsame e he)

/-- **A record with the same strict form is restored**, and has no EIDs, if no reference of one is
that of an EID without parts. -/
theorem recorded_of_writeBlock_eq (hc : c.Sendable) (htype : c.blocktype = Block.payloadType)
    {body : Body} (hread : RecordRead c.body.serialize body)
    (hlt : body.serialize.length < 2 ^ 64)
    (hrefs : ∀ e ∈ c.eids, s'.ref EID.blank ≠ s.ref e) {r r' : Bytes}
    (h : writeBlock s' { c.transported f with eids := c.announced.map fun _ => EID.blank, body } ++
      r' = writeBlock s c ++ r) :
    c.Unaltered f ∧ c.eids = [] ∧ Recorded c.body.serialize ∧ r' = r := by
  have hdecodable := hc.decodable_reread (f := f) htype hread.classType hlt
  obtain ⟨-, hflags, hsame, hlength, h⟩ := writeBlock_append_inj hc.decodable.eids_lt
    hdecodable.eids_lt h
  have hclass := Block.HasType.classType_payloadType (htype ▸ hc.hasType)
  have hsecurity {body : Body} (h : body.classType = some Block.payloadType) :
      body.security? = none := by
    have hnone := body.security?_isSome_iff
    rw [h] at hnone
    exact Option.not_isSome_iff_eq_none.1 (by rw [hnone]; decide)
  have hage {body : Body} (h : body.classType = some Block.payloadType) (b : AgeBlock) :
      body ≠ .age b := by
    rintro rfl
    exact absurd (Option.some.inj h) (by decide)
  obtain ⟨hserialize, hr⟩ := serialize_append_inj (hsecurity hclass) (hsecurity hread.classType)
    (hage hclass) (hage hread.classType) hc.payload_lt hlt hlength h
  have heids : c.eids = [] := by
    by_contra hne
    have hsame := hsame (hc.contains hne)
    dsimp only at hsame
    rw [hc.announced_eq, List.forall₂_map_left_iff, List.forall₂_same] at hsame
    obtain ⟨e, he⟩ := List.exists_mem_of_ne_nil _ hne
    exact hrefs e he (hsame e he)
  refine ⟨⟨by simp [heids], (Block.procflags_transported_iff f c).1 hflags, ?_⟩, heids,
    hread.recorded hserialize, hr⟩
  rintro b size hbody
  exact absurd ((congrArg Body.security? hbody).symm.trans (hsecurity hclass))
    (by simp [Body.security?])

/-- A block that is read back has the same strict form, if it is left as it is. -/
theorem writeBlock_restores (hc : c.Sendable) (h : c.Unaltered f) {n : Block}
    (hn : c.Restores f n) (s : DefaultSerializer) : writeBlock s n = writeBlock s c := by
  have heids : (c.transported f).eids = c.eids := by
    rw [Block.transported, Block.eids_withMark, hc.announced_eq]
    exact (List.map_congr_left h.eids).trans (List.map_id c.eids)
  obtain ⟨body, rfl, hbody⟩ := hn
  have hsame : body.serializeStrict = c.body.serializeStrict ∧
      body.getLengthStrict = c.body.getLengthStrict := by
    rcases hbody with rfl | ⟨htype, hclass, hserialize⟩
    · rw [Block.body_transported]
      exact ⟨Body.serializeStrict_received h.result _, Body.getLengthStrict_received h.result _⟩
    · have hstrict {body : Body} (h : body.classType = some Block.payloadType) :
          body.serializeStrict = body.serialize ∧
            body.getLengthStrict = body.serialize.length := by
        have hsecurity := body.security?_isSome_iff
        rw [h] at hsecurity
        have hnone : body.security? = none :=
          Option.not_isSome_iff_eq_none.1 (by rw [hsecurity]; decide)
        refine Body.serializeStrict_eq hnone ?_
        rintro b rfl
        exact absurd (Option.some.inj h) (by decide)
      have hclass' := hstrict (Block.HasType.classType_payloadType (htype ▸ hc.hasType))
      rw [(hstrict hclass).1, (hstrict hclass).2, hclass'.1, hclass'.2, hserialize]
      exact ⟨rfl, rfl⟩
  have hflags : (c.transported f).procflags = c.procflags :=
    (Block.procflags_transported_iff f c).2 h.mark
  have hget : Block.get { c.transported f with body } Block.blockContainsEids =
      c.get Block.blockContainsEids := congrArg (FlagWord.has · Block.blockContainsEids) hflags
  rw [writeBlock, hget, writeBlock]
  dsimp only
  rw [Block.blocktype_transported, hflags, heids, hsame.1, hsame.2]

end Blocks

/-- At most one block comes of a block. -/
theorem length_flatten_le {adm : Bool} {f : EID → EID} {cs : List Block} {nss : List (List Block)}
    (h : List.Forall₂ (Block.Becomes adm f) cs nss) : nss.flatten.length ≤ cs.length := by
  induction h with
  | nil => exact le_rfl
  | cons hn _ ih =>
      rw [List.flatten_cons, List.length_append, List.length_cons]
      cases hn <;> simp only [List.length_nil, List.length_singleton] <;> omega

/-- Every block that is there comes of one that was written. -/
theorem exists_of_mem_flatten {adm : Bool} {f : EID → EID} {cs : List Block}
    {nss : List (List Block)} (h : List.Forall₂ (Block.Becomes adm f) cs nss) {n : Block}
    (hn : n ∈ nss.flatten) : ∃ c ∈ cs, ∃ ns, c.Becomes adm f ns ∧ n ∈ ns := by
  induction h with
  | nil => exact absurd hn List.not_mem_nil
  | @cons c ns cs nss hc _ ih =>
      rcases List.mem_append.1 hn with hn | hn
      · exact ⟨c, List.mem_cons_self, ns, hc, hn⟩
      · obtain ⟨c', hc', hns⟩ := ih hn
        exact ⟨c', List.mem_cons_of_mem c hc', hns⟩

theorem decodable_of_becomes {adm : Bool} {f : EID → EID} {c n : Block} {ns : List Block}
    (hc : c.Sendable) (h : c.Becomes adm f ns) (hn : n ∈ ns)
    (hlt : n.body.classType = some Block.payloadType → n.body.serialize.length < 2 ^ 64) :
    n.Decodable := by
  cases h with
  | discarded | unknown => exact absurd hn List.not_mem_nil
  | kept =>
      obtain rfl := List.mem_singleton.1 hn
      exact hc.decodable_transported
  | reread hrecord hbody =>
      obtain rfl := List.mem_singleton.1 hn
      exact hc.decodable_reread hrecord.2 hbody.classType (hlt hbody.classType)

/-- **Blocks with the same strict form are left as they are, and none is dropped.** -/
theorem kept_of_flatMap_eq {adm : Bool} {f : EID → EID} {s s' : DefaultSerializer}
    {cs : List Block} {nss : List (List Block)} (hcs : ∀ c ∈ cs, c.Sendable ∧ c.body.SizesFit)
    (hbecomes : List.Forall₂ (Block.Becomes adm f) cs nss)
    (hlt : ∀ n ∈ nss.flatten, n.body.classType = some Block.payloadType →
      n.body.serialize.length < 2 ^ 64)
    (hrefs : ∀ n ∈ nss.flatten, ∀ e' ∈ n.eids, ∀ c ∈ cs, ∀ e ∈ c.eids,
      s'.ref e' = s.ref e → e' = e)
    (hblank : ∀ c ∈ cs, EID.blank ∉ c.eids)
    (h : nss.flatten.flatMap (writeBlock s') = cs.flatMap (writeBlock s)) :
    ∀ c ∈ cs, c.Unaltered f ∧ ¬ c.AsksDiscard ∧
      (c.IsRecord adm → c.eids = [] ∧ Recorded c.body.serialize) := by
  have hlength : nss.flatten.length = cs.length := by
    refine length_eq_of_flatMap_eq (fun c hc => (hcs c hc).1.decodable) (fun n hn => ?_) h
    obtain ⟨c, hc, ns, hns, hn'⟩ := exists_of_mem_flatten hbecomes hn
    exact decodable_of_becomes (hcs c hc).1 hns hn' (hlt n hn)
  induction hbecomes with
  | nil => exact fun c hc => absurd hc List.not_mem_nil
  | @cons c ns cs nss hn hrest ih =>
      have hle := length_flatten_le hrest
      obtain ⟨hc, hcs⟩ := List.forall_mem_cons.1 hcs
      obtain ⟨hblank, hblanks⟩ := List.forall_mem_cons.1 hblank
      rw [List.flatten_cons, List.length_append, List.length_cons] at hlength
      rw [List.flatten_cons, List.flatMap_append, List.flatMap_cons] at h
      rw [List.flatten_cons] at hlt hrefs
      have hone {n : Block} (hns : ns = [n])
          (hr : nss.flatten.flatMap (writeBlock s') = cs.flatMap (writeBlock s)) :=
        ih hcs (fun n hn => hlt n (List.mem_append_right _ hn))
          (fun n hn e' he' c hc => hrefs n (List.mem_append_right _ hn) e' he' c
            (List.mem_cons_of_mem _ hc)) hblanks hr
          (by rw [hns, List.length_singleton] at hlength; omega)
      have hfirst {n : Block} (hns : ns = [n]) {e' e : EID} (he' : e' ∈ n.eids) (he : e ∈ c.eids)
          (href : s'.ref e' = s.ref e) : e' = e :=
        hrefs n (List.mem_append_left _ (hns ▸ List.mem_singleton_self n)) e' he' c
          List.mem_cons_self e he href
      cases hn with
      | discarded | unknown =>
          rw [List.length_nil] at hlength
          omega
      | kept hkept hrecord =>
          rw [List.flatMap_singleton] at h
          obtain ⟨hunaltered, hr⟩ := unaltered_of_writeBlock_eq hc.1 hc.2 (fun e he href =>
            hfirst rfl (by
              rw [Block.transported, Block.eids_withMark, hc.1.announced_eq]
              exact List.mem_map_of_mem he) he href) h
          exact List.forall_mem_cons.2 ⟨⟨hunaltered, hkept, fun h => absurd h hrecord⟩, hone rfl hr⟩
      | reread hrecord hbody =>
          rw [List.flatMap_singleton] at h
          obtain ⟨hunaltered, heids, hrecorded, hr⟩ := recorded_of_writeBlock_eq hc.1 hrecord.2
            hbody (hlt _ (List.mem_append_left _ (List.mem_singleton_self _)) hbody.classType)
            (fun e he href => hblank (hfirst rfl (by
              rw [hc.1.announced_eq]
              exact List.mem_map.2 ⟨e, he, rfl⟩) he href ▸ he)) h
          have hclass := hc.1.hasType
          rw [hrecord.2] at hclass
          have hkept : ¬ c.AsksDiscard := fun hdiscard => absurd
            ((Block.HasType.classType_payloadType hclass).symm.trans hdiscard.1) (by simp)
          exact List.forall_mem_cons.2
            ⟨⟨hunaltered, hkept, fun _ => ⟨heids, hrecorded⟩⟩, hone rfl hr⟩

end StrictSerializer

/-! ### The dictionary of what is read -/

namespace EID

theorem nulFree_ofNumbers (node application : UInt64) :
    DefaultSerializer.NulFree (ofNumbers node application) := by
  have hdigits (n : ℕ) : (0 : UInt8) ∉ Decimal.numeral n := fun h =>
    absurd ((Decimal.isNumeral_numeral n).digits 0 h) (by decide)
  rw [ofNumbers]
  split_ifs
  · exact ⟨by decide, by decide⟩
  · refine ⟨show (0 : UInt8) ∉ cbheScheme by decide, fun h => ?_⟩
    rcases List.mem_append.1 h with h | h
    · exact hdigits _ h
    · rcases List.mem_cons.1 h with h | h
      · exact absurd h (by decide)
      · exact hdigits _ h

theorem nulFree_trimmed {e : EID} (h : DefaultSerializer.NulFree e) :
    DefaultSerializer.NulFree e.trimmed :=
  ⟨fun h0 => h.1 (Utils.mem_of_mem_trim h0), fun h0 => h.2 (Utils.mem_of_mem_trim h0)⟩

end EID

namespace Bundle

theorem nulFree_resolved {b : Bundle} {e : EID} (h : DefaultSerializer.NulFree e) :
    DefaultSerializer.NulFree (b.resolved e) := by
  rw [resolved]
  split_ifs
  · exact EID.nulFree_ofNumbers _ _
  · exact EID.nulFree_trimmed h

/-- No EID of a bundle that can be written is one without parts. -/
theorem Sendable.blank_not_mem {b : Bundle} (hb : b.Sendable) : EID.blank ∉ b.allEIDs := by
  intro hblank
  cases hform : DefaultSerializer.isCompressable b with
  | false => exact (hb.nameable hform _ hblank).scheme_ne (by decide)
  | true =>
      have hall := DefaultSerializer.isCompressable_of_mem hform hblank
      exact absurd hall (by decide)

/-- The conditions under which the strict form makes sense before and after the transport: EIDs
without NUL bytes, dictionaries and results of the size of a `size_t`, and a strict form that is
shorter than a stream. -/
structure Addressed (b : Bundle) : Prop where
  nulFree : ∀ e ∈ b.allEIDs, DefaultSerializer.NulFree e
  resolved_size_lt : ((b.allEIDs.map b.resolved).map Dictionary.sizeOf).sum < 2 ^ 64
  sizes : ∀ c ∈ b.blocks, c.body.SizesFit
  strict_lt : (StrictSerializer.writeBundle b).length < 2 ^ 63

/-- A transport leaves the bundle as it is, up to ages and security results. -/
structure Unaltered (b : Bundle) : Prop where
  header : ∀ e ∈ headerEIDs b.toPrimaryBlock, b.resolved e = e
  blocks : ∀ c ∈ b.blocks, c.Unaltered b.resolved

end Bundle

namespace StrictSerializer

variable {b : Bundle}

/-- The dictionary depends on the EIDs only. -/
theorem base_congr {b b' : Bundle} (h : b'.allEIDs = b.allEIDs) : base b' = base b := by
  have hdictionary : (base b').dictionary = (base b).dictionary := by
    rw [base, DefaultSerializer.rebuildDictionary_dictionary, h, base,
      DefaultSerializer.rebuildDictionary_dictionary]
  exact congrArg₂ DefaultSerializer.mk hdictionary rfl

/-- The blocks are written with the dictionary of the header, whose read position does not
matter. -/
theorem flatMap_writeBlock_writePrimary (s : DefaultSerializer) (p : PrimaryBlock)
    (cs : List Block) : cs.flatMap (writeBlock (s.writePrimary p).2) =
      cs.flatMap (writeBlock s) := by
  refine List.flatMap_congr fun c _ => ?_
  have href (e : EID) : (s.writePrimary p).2.ref e = s.ref e :=
    DefaultDeserializer.ref_writeDictionary s e
  have hrefs : (s.writePrimary p).2.writeRefs c.eids = s.writeRefs c.eids := by
    simp only [DefaultSerializer.writeRefs, href]
  rw [writeBlock, hrefs, writeBlock]

theorem writeBundle_eq (b : Bundle) : writeBundle b =
    ((base b).writePrimary b.toPrimaryBlock).1 ++ b.blocks.flatMap (writeBlock (base b)) := by
  rw [writeBundle, flatMap_writeBlock_writePrimary]

/-- The fragment fields of a bundle that is no fragment are not written. -/
theorem writePrimary_receivedPrimary {f : EID → EID} {p : PrimaryBlock}
    (h : ∀ e ∈ Bundle.headerEIDs p, f e = e) (s : DefaultSerializer) (q : PrimaryBlock) :
    (s.writePrimary (DefaultDeserializer.receivedPrimary f p q)).1 = (s.writePrimary p).1 := by
  simp only [Bundle.headerEIDs, List.forall_mem_cons] at h
  obtain ⟨hdestination, hsource, hreportto, hcustodian, -⟩ := h
  rw [DefaultDeserializer.receivedPrimary, hdestination, hsource, hreportto, hcustodian]
  cases hfragment : p.get PrimaryBlock.fragment with
  | true => rfl
  | false =>
      rw [PrimaryBlock.get] at hfragment
      simp only [DefaultSerializer.writePrimary, DefaultSerializer.writeHeader,
        DefaultSerializer.blockLength, Bundle.headerEIDs, PrimaryBlock.get, hfragment, optional,
        Bool.false_eq_true, if_false]

/-- **A bundle that is left as it is, and keeps its blocks, has the same strict form.** -/
theorem writeBundle_restores {b n : Bundle} {q : PrimaryBlock} (hb : b.Sendable) (h : b.Unaltered)
    (hprimary : n.toPrimaryBlock =
      DefaultDeserializer.receivedPrimary b.resolved b.toPrimaryBlock q)
    (hblocks : List.Forall₂ (Block.Restores b.resolved) b.blocks n.blocks) :
    writeBundle n = writeBundle b := by
  have heids {c n : Block} (hc : c ∈ b.blocks) (hn : c.Restores b.resolved n) :
      n.eids = c.eids := by
    obtain ⟨body, rfl, -⟩ := hn
    rw [Block.transported, Block.eids_withMark, (hb.blocks c hc).announced_eq]
    exact (List.map_congr_left (h.blocks c hc).eids).trans (List.map_id c.eids)
  have hsame {cs ns : List Block} (hcs : ∀ c ∈ cs, c ∈ b.blocks)
      (hns : List.Forall₂ (Block.Restores b.resolved) cs ns) :
      ns.flatMap Block.eids = cs.flatMap Block.eids ∧
        ∀ s, ns.flatMap (writeBlock s) = cs.flatMap (writeBlock s) := by
    induction hns with
    | nil => exact ⟨rfl, fun _ => rfl⟩
    | @cons c n cs ns hn _ ih =>
        rw [List.forall_mem_cons] at hcs
        obtain ⟨heids', hwrite⟩ := ih hcs.2
        refine ⟨?_, fun s => ?_⟩
        · rw [List.flatMap_cons, List.flatMap_cons, heids hcs.1 hn, heids']
        · rw [List.flatMap_cons, List.flatMap_cons,
            writeBlock_restores (hb.blocks c hcs.1) (h.blocks c hcs.1) hn, hwrite]
  obtain ⟨hallEIDs, hwrite⟩ := hsame (fun _ hc => hc) hblocks
  have hheader : Bundle.headerEIDs n.toPrimaryBlock = Bundle.headerEIDs b.toPrimaryBlock := by
    rw [hprimary]
    exact (List.map_congr_left h.header).trans (List.map_id _)
  have hbase : base n = base b := base_congr (congrArg₂ (· ++ ·) hheader hallEIDs)
  rw [writeBundle_eq, writeBundle_eq, hbase, hwrite, hprimary,
    writePrimary_receivedPrimary h.header]

/-- The dictionary of the strict form holds the EIDs. -/
theorem base_lists (hnul : ∀ e ∈ b.allEIDs, DefaultSerializer.NulFree e) :
    ∃ entries, (base b).dictionary.Lists entries ∧
      (∀ e ∈ b.allEIDs, Dictionary.Holds entries e) ∧ (base b).dictionary.gpos = 0 := by
  obtain ⟨entries, hlists, hold, hpos, -⟩ :=
    DefaultSerializer.rebuildDictionary_lists .create rfl hnul
  exact ⟨entries, hlists, hold, hpos⟩

/-- What the strict form of a primary block determines: the references of its EIDs, and the
dictionary, whose size is in front of it. -/
theorem writePrimary_append_inj {s s' : DefaultSerializer} {f : EID → EID} {p q : PrimaryBlock}
    (hs : s.compressable = false) (hs' : s'.compressable = false) (hpos : s.dictionary.gpos = 0)
    (hpos' : s'.dictionary.gpos = 0) (hlen : s.dictionary.bytes.length < 2 ^ 64)
    (hlen' : s'.dictionary.bytes.length < 2 ^ 64) {r r' : Bytes}
    (h : (s'.writePrimary (DefaultDeserializer.receivedPrimary f p q)).1 ++ r' =
      (s.writePrimary p).1 ++ r) :
    (∀ e ∈ Bundle.headerEIDs p, s'.ref (f e) = s.ref e) ∧
      s'.dictionary.bytes = s.dictionary.bytes ∧ r' = r := by
  have hheader : Bundle.headerEIDs (DefaultDeserializer.receivedPrimary f p q) =
      (Bundle.headerEIDs p).map f := rfl
  simp only [DefaultSerializer.writePrimary, DefaultSerializer.writeHeader, hheader,
    DefaultSerializer.writeDictionary, hs, hs', Dictionary.write, hpos, hpos', List.drop_zero,
    Bool.false_eq_true, if_false, List.cons_append, List.append_assoc] at h
  obtain ⟨-, h⟩ := List.cons.inj h
  obtain ⟨-, h⟩ := SDNV.prefixFree_write trivial trivial h
  obtain ⟨-, h⟩ := SDNV.prefixFree_write trivial trivial h
  obtain ⟨hrefs, h⟩ := writeRefs_map_append_inj h
  obtain ⟨-, h⟩ := SDNV.prefixFree_write trivial trivial h
  obtain ⟨-, h⟩ := SDNV.prefixFree_write trivial trivial h
  obtain ⟨-, h⟩ := SDNV.prefixFree_write trivial trivial h
  obtain ⟨hsize, h⟩ := SDNV.prefixFree_write trivial trivial h
  have hsize' : s'.dictionary.bytes.length = s.dictionary.bytes.length :=
    (EID.toNat_ofNat_of_lt hlen').symm.trans
      ((congrArg UInt64.toNat hsize).trans (EID.toNat_ofNat_of_lt hlen))
  obtain ⟨hbytes, h⟩ := List.append_inj h hsize'
  refine ⟨hrefs, hbytes, ?_⟩
  have hget : (DefaultDeserializer.receivedPrimary f p q).get PrimaryBlock.fragment =
      p.get PrimaryBlock.fragment := rfl
  rw [hget] at h
  cases hfragment : p.get PrimaryBlock.fragment with
  | false =>
      rw [hfragment] at h
      exact h
  | true =>
      rw [hfragment] at h
      simp only [optional, if_true, List.append_assoc] at h
      obtain ⟨-, h⟩ := SDNV.prefixFree_write trivial trivial h
      exact (SDNV.prefixFree_write trivial trivial h).2

/-- What comes of blocks has EIDs that are resolved, or none with parts, and no more of them. -/
theorem eids_of_becomes {adm : Bool} {f : EID → EID} {cs : List Block} {nss : List (List Block)}
    (hcs : ∀ c ∈ cs, c.Sendable) (h : List.Forall₂ (Block.Becomes adm f) cs nss) :
    (∀ e' ∈ nss.flatten.flatMap Block.eids, e' = EID.blank ∨
      ∃ e ∈ cs.flatMap Block.eids, e' = f e) ∧
      ((nss.flatten.flatMap Block.eids).map Dictionary.sizeOf).sum ≤
        (((cs.flatMap Block.eids).map f).map Dictionary.sizeOf).sum := by
  have hblank (es : List EID) : ((es.map fun _ => EID.blank).map Dictionary.sizeOf).sum ≤
      ((es.map f).map Dictionary.sizeOf).sum := by
    rw [List.map_map, List.map_map]
    exact List.sum_le_sum fun e _ => show 2 ≤ Dictionary.sizeOf (f e) from Nat.le_add_left _ _
  induction h with
  | nil => exact ⟨fun _ h => absurd h List.not_mem_nil, le_rfl⟩
  | @cons c ns cs nss hn _ ih =>
      obtain ⟨hc, hcs⟩ := List.forall_mem_cons.1 hcs
      obtain ⟨hmem, hsum⟩ := ih hcs
      simp only [List.flatten_cons, List.flatMap_append, List.flatMap_cons, List.map_append,
        List.sum_append, List.forall_mem_append]
      have hrest : ∀ e' ∈ nss.flatten.flatMap Block.eids, e' = EID.blank ∨
          ∃ e ∈ c.eids ++ cs.flatMap Block.eids, e' = f e := fun e' he' =>
        (hmem e' he').imp_right fun ⟨e, he, heq⟩ => ⟨e, List.mem_append_right _ he, heq⟩
      cases hn with
      | discarded | unknown => exact ⟨⟨by simp, hrest⟩, by simpa using Nat.le_add_left_of_le hsum⟩
      | kept =>
          have heids : (c.transported f).eids = c.eids.map f := by
            rw [Block.transported, Block.eids_withMark, hc.announced_eq]
          rw [List.flatMap_singleton, heids]
          refine ⟨⟨fun e' he' => .inr ?_, hrest⟩, Nat.add_le_add_left hsum _⟩
          obtain ⟨e, he, rfl⟩ := List.mem_map.1 he'
          exact ⟨e, List.mem_append_left _ he, rfl⟩
      | reread =>
          rw [List.flatMap_singleton, hc.announced_eq]
          refine ⟨⟨fun e' he' => .inl ?_, hrest⟩, Nat.add_le_add (hblank c.eids) hsum⟩
          obtain ⟨e, -, rfl⟩ := List.mem_map.1 he'
          rfl

/-- A payload is no longer than the strict form that it is in. -/
theorem length_serialize_le {n : Bundle} {c : Block} (hc : c ∈ n.blocks)
    (hclass : c.body.classType = some Block.payloadType) :
    c.body.serialize.length ≤ (writeBundle n).length := by
  have hstrict : c.body.serializeStrict = c.body.serialize := by
    have hsecurity := c.body.security?_isSome_iff
    rw [hclass] at hsecurity
    refine (Body.serializeStrict_eq (Option.not_isSome_iff_eq_none.1
      (by rw [hsecurity]; decide)) fun b hb => ?_).1
    rw [hb] at hclass
    exact absurd (Option.some.inj hclass) (by decide)
  have hblock : c.body.serialize.length ≤ (writeBlock (base n) c).length := by
    rw [writeBlock, hstrict]
    simp only [List.length_cons, List.length_append]
    omega
  have hmem : (writeBlock (base n) c).length ≤ (n.blocks.flatMap (writeBlock (base n))).length := by
    rw [List.length_flatMap]
    exact List.single_le_sum (fun _ _ => Nat.zero_le _) _ (List.mem_map_of_mem hc)
  rw [writeBundle_eq, List.length_append]
  omega

/-- **A bundle with the same strict form is left as it is**, and keeps its blocks. -/
theorem keepsBlocks_of_writeBundle_eq {b n : Bundle} {q : PrimaryBlock} {nss : List (List Block)}
    (hb : b.Sendable) (haddressed : b.Addressed)
    (hprimary : n.toPrimaryBlock =
      DefaultDeserializer.receivedPrimary b.resolved b.toPrimaryBlock q)
    (hbecomes : List.Forall₂ (Block.Becomes (b.get PrimaryBlock.appdataIsAdmrecord) b.resolved)
      b.blocks nss) (hblocks : n.blocks = nss.flatten) (h : writeBundle n = writeBundle b) :
    b.Unaltered ∧ b.KeepsBlocks := by
  obtain ⟨hmem, hsum⟩ := eids_of_becomes hb.blocks hbecomes
  rw [← hblocks] at hmem hsum
  have hheader : Bundle.headerEIDs n.toPrimaryBlock =
      (Bundle.headerEIDs b.toPrimaryBlock).map b.resolved := congrArg Bundle.headerEIDs hprimary
  obtain ⟨entries, hlists, hold, hpos⟩ := base_lists haddressed.nulFree
  obtain ⟨entries', hlists', hold', hpos'⟩ := base_lists (b := n) fun e he => by
    rcases List.mem_append.1 he with he | he
    · rw [hheader] at he
      obtain ⟨e', he', rfl⟩ := List.mem_map.1 he
      exact Bundle.nulFree_resolved (haddressed.nulFree e' (List.mem_append_left _ he'))
    · rcases hmem e he with rfl | ⟨e', he', rfl⟩
      · exact ⟨by decide, by decide⟩
      · exact Bundle.nulFree_resolved (haddressed.nulFree e' (List.mem_append_right _ he'))
  have hlen : (base b).dictionary.bytes.length < 2 ^ 64 :=
    (DefaultSerializer.length_rebuildDictionary_le _ b).trans_lt hb.size_lt
  have hlen' : (base n).dictionary.bytes.length < 2 ^ 64 := by
    refine (DefaultSerializer.length_rebuildDictionary_le _ _).trans_lt (lt_of_le_of_lt ?_
      haddressed.resolved_size_lt)
    rw [Bundle.allEIDs, hheader, Bundle.allEIDs, List.map_append, List.map_append, List.map_append,
      List.sum_append, List.sum_append]
    exact Nat.add_le_add_left hsum _
  have hsize := congrArg List.length h
  rw [writeBundle_eq, writeBundle_eq, hprimary] at h
  obtain ⟨hrefs, hbytes, hsame⟩ := writePrimary_append_inj rfl rfl hpos hpos' hlen hlen' h
  have hresolved {e' e : EID} (he' : e' ∈ n.allEIDs) (he : e ∈ b.allEIDs)
      (href : (base n).ref e' = (base b).ref e) : e' = e :=
    eq_of_getRef_eq hlists hlists' hbytes hlen (hold e he) (hold' e' he') href
  have hblock {m : Block} (hm : m ∈ n.blocks) {e : EID} (he : e ∈ m.eids) : e ∈ n.allEIDs :=
    List.mem_append_right _ (List.mem_flatMap.2 ⟨m, hm, he⟩)
  have hown {c : Block} (hc : c ∈ b.blocks) {e : EID} (he : e ∈ c.eids) : e ∈ b.allEIDs :=
    List.mem_append_right _ (List.mem_flatMap.2 ⟨c, hc, he⟩)
  rw [hblocks] at hsame
  have hkept := kept_of_flatMap_eq (fun c hc => ⟨hb.blocks c hc, haddressed.sizes c hc⟩) hbecomes
    (fun m hm hclass => ?_)
    (fun m hm e' he' c hc e he => hresolved (hblock (hblocks ▸ hm) he') (hown hc he))
    (fun c hc hblank => hb.blank_not_mem (hown hc hblank)) hsame
  · refine ⟨⟨fun e he => ?_, fun c hc => (hkept c hc).1⟩, fun c hc => (hkept c hc).2.1,
      fun c hc => (hkept c hc).2.2⟩
    refine hresolved (List.mem_append_left _ ?_) (List.mem_append_left _ he) (hrefs e he)
    rw [hheader]
    exact List.mem_map_of_mem he
  · refine (length_serialize_le (hblocks ▸ hm) hclass).trans_lt ?_
    rw [hsize]
    exact haddressed.strict_lt.trans (by decide)

end StrictSerializer

end IbrDtn
