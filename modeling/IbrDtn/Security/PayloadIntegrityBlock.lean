import IbrDtn.Data.BlockReplacement
import IbrDtn.Security.BundleAuthenticationBlock
import IbrDtn.Security.MutualSerializer
import IbrDtn.Security.SecurityTransport

/-!
# Payload integrity blocks

This file models `ibrdtn/security/PayloadIntegrityBlock.cpp`.  A block with a signature is put in
front of a bundle, and signs the mutable canonical form of what is behind it.  OpenSSL is not part
of the repository: it is what it does with the contents of a key file.

## Main definitions

* `Rsa`, `Rsa.Pair` : the parameter for OpenSSL, and the keys of a pair.
* `PayloadIntegrityBlock.sign`, `PayloadIntegrityBlock.verify`, `PayloadIntegrityBlock.strip` : the
  operations.
* `PayloadIntegrityBlock.Signed` : a block with a signature that names its owner.

## Main results

* `MutualSerializer.writeBlock_transported` : a transport that leaves a covered block as it is.
* `PayloadIntegrityBlock.sign_spec` : what `sign` makes of a bundle.
* `PayloadIntegrityBlock.verifyBlock_iff` : what a verification asks for.
-/

/-- A program that returns has a first part that does. -/
theorem Except.exists_ok_of_bind {ε α β : Type} {x : Except ε α} {f : α → Except ε β} {b : β}
    (h : x >>= f = .ok b) : ∃ a, x = .ok a ∧ f a = .ok b := by
  cases x with
  | error e => cases h
  | ok a => exact ⟨a, rfl, h⟩

namespace IbrDtn

open BundleAuthenticationBlock (frontMembers namedSource remembered setHash)
open SecurityBlock (containsSecurityResult getSecuritySource integritySignature isSecuritySource
  receivedWith)

/-- What OpenSSL does with the contents of a key file: whether there is a key in it, how long its
signatures are, the signature of some data, and the answer to a signature of some data. -/
structure Rsa where
  present : Bytes → Bool
  size : Bytes → ℕ
  sign : Bytes → Bytes → Option Bytes
  verification : Bytes → Bytes → Bytes → Int

/-- The keys of a pair: what one of them signs is verified by the other, and nothing else is. -/
structure Rsa.Pair (rsa : Rsa) (own other : Bytes) : Prop where
  present : rsa.present other = true
  size_pos : 0 < rsa.size own
  signs (data : Bytes) : (rsa.sign own data).isSome = true
  verification (data data' signature : Bytes) (h : rsa.sign own data = some signature) :
    0 < rsa.verification other data' signature ↔ data' = data

namespace PayloadIntegrityBlock

/-- `SecurityBlock::PIB_RSA_SHA256`, and the type of a range among `SecurityBlock::TLV_TYPES`. -/
def pibRsaSha256 : UInt64 := 2
def fragmentRange : UInt8 := 4

/-- `bundle.getBlocks<PayloadIntegrityBlock>()`, with the places of the blocks. -/
def getBlocks (blocks : List Block) : List (ℕ × SecurityBlock) :=
  blocks.zipIdx.filterMap fun c =>
    match c.1.body with
    | .payloadIntegrity s _ => some (c.2, s)
    | _ => none

/-- `SecurityBlock::addFragmentRange`, for the parameters of the block. -/
def addFragmentRange (offset : UInt64) (length : ℕ) (c : Block) : Block :=
  c.mapSecurity fun s =>
    { s with
      ciphersuiteParams := s.ciphersuiteParams.set fragmentRange
        (SDNV.write offset ++ SDNV.write (UInt64.ofNat length)) }

section Functions

variable (rsa : Rsa)

/-- `PayloadIntegrityBlock::setResultSize`: a type, a length and a signature. -/
def setResultSize (key : SecurityKey) (c : Block) : Block :=
  match c.body with
  | .payloadIntegrity s _ =>
      let size := rsa.size key.data
      { c with
        body := .payloadIntegrity s
          (if size > 0 then size + SDNV.getLength (UInt64.ofNat size) + 1
            else s.securityResult.getLength) }
  | _ => c

/-- `PayloadIntegrityBlock::calcHash`, for the block at the front. There is an empty text in place
of a signature if there is none. -/
def calcHash (b : Bundle) (key : SecurityKey) : Bytes :=
  (rsa.sign key.data (MutualSerializer.writeBundle (some 0) b)).getD []

/-- What `sign` does to the block before the signature is made. -/
def finish (key : SecurityKey) (c : Block) : Block :=
  (setResultSize rsa key c).mapSecurity fun s =>
    { s with
      ciphersuiteId := pibRsaSha256
      ciphersuiteFlags := s.ciphersuiteFlags ||| containsSecurityResult }

/-- The part of `sign` for a fragment: its range is among the parameters of the block in front. -/
def signRange (b : Bundle) : Except Exn Bundle :=
  if b.get PrimaryBlock.fragment then
    match b.getPayload with
    | some blob => .ok (b.modify 0 (addFragmentRange b.fragmentoffset blob.length))
    | none => .error (.exception "No block found with this Block ID.")
  else .ok b

/-- `PayloadIntegrityBlock::sign`. -/
def sign (b : Bundle) (key : SecurityKey) (destination : EID) : Except Exn Bundle := do
  let b := (b.pushFront Block.newPayloadIntegrity).modify 0 fun c =>
    c.set Block.replicateInEveryFragment true
  let b ← signRange b
  let source ← b.source.getNode
  let b := b.modify 0 fun c =>
    if key.reference != source then c.setSecuritySource key.reference else c
  let node ← b.destination.getNode
  let b := b.modify 0 fun c =>
    if destination != node then c.setSecurityDestination destination else c
  let b := b.modify 0 (finish rsa key)
  pure (b.modify 0 (setHash (calcHash rsa b key)))

/-- `PayloadIntegrityBlock::verify(bundle, key, sb)`, for the block at the given place. -/
def verifyBlock (b : Bundle) (key : SecurityKey) (index : ℕ) (sb : SecurityBlock) :
    Except Exn Unit := do
  if !(← sb.isSecuritySource b.toPrimaryBlock key.reference) then
    throw (.exception "key not match the security source")
  if sb.ciphersuiteId ≠ pibRsaSha256 then
    throw (.exception "can not verify the PIB because of an invalid algorithm")
  if !rsa.present key.data then throw (.exception "verification error")
  match sb.securityResult.get? integritySignature with
  | none => throw (.exception "element not found")
  | some signature =>
      let ret := rsa.verification key.data (MutualSerializer.writeBundle (some index) b) signature
      if ret = 0 then throw (.exception "verification failed")
      else if ret < 0 then throw (.exception "verification error")
      else pure ()

/-- `PayloadIntegrityBlock::verify(bundle, key)`, which asks for all of the blocks. -/
def verify (b : Bundle) (key : SecurityKey) : Except Exn Unit :=
  (getBlocks b.blocks).forM fun c => verifyBlock rsa b key c.1 c.2

/-- The loop of `PayloadIntegrityBlock::strip`, with the places of the blocks before, the last one
first. -/
def stripLoop (b : Bundle) (key : SecurityKey) (all : Bool) :
    List ℕ → List (ℕ × SecurityBlock) → Bundle
  | _, [] => b
  | before, c :: cs =>
      match verifyBlock rsa b key c.1 c.2 with
      | .ok () => if all then before.foldl Bundle.remove (b.remove c.1) else b.remove c.1
      | .error _ => stripLoop b key all (c.1 :: before) cs

/-- `PayloadIntegrityBlock::strip(bundle, key, all)`: the first block that verifies is removed, and
those before it if `all` is set. -/
def strip (b : Bundle) (key : SecurityKey) (all : Bool) : Bundle :=
  stripLoop rsa b key all [] (getBlocks b.blocks)

end Functions

end PayloadIntegrityBlock

/-! ### Lists of blocks -/

namespace BlockList

variable {α : Type} {g : Block → α} (hg : ∀ c value, g (c.set Block.lastBlock value) = g c)

include hg

theorem map_markBack (cs : List Block) : (markBack cs).map g = cs.map g := by
  rcases List.eq_nil_or_concat cs with rfl | ⟨cs, last, rfl⟩
  · rfl
  · rw [List.concat_eq_append, markBack, List.getLast?_concat, List.dropLast_concat]
    simp only [List.map_append, List.map_cons, List.map_nil, hg]

/-- What does not depend on the mark of the last block changes with a list as the list does. -/
theorem map_pushBack (cs : List Block) (c : Block) :
    (pushBack cs c).map g = cs.map g ++ [g c] := by
  rcases List.eq_nil_or_concat cs with rfl | ⟨cs, last, rfl⟩
  · exact congrArg (fun x => [x]) (hg c true)
  · rw [List.concat_eq_append, pushBack_append_singleton]
    simp only [List.map_append, List.map_cons, List.map_nil, hg, List.append_assoc,
      List.singleton_append]

theorem map_remove {cs : List Block} {j : ℕ} (hj : j < cs.length) :
    (remove cs j).map g = (cs.map g).eraseIdx j := by
  rw [remove, if_pos hj, map_markBack hg, List.eraseIdx_map]

end BlockList

/-! ### The canonical form -/

namespace MutualSerializer

/-- The form of a bundle is that of its parts, one behind the other. -/
theorem writeBundle_eq_flatten (i : ℕ) (b : Bundle) : writeBundle (some i) b =
    writePrimary b.toPrimaryBlock ++ ((b.blocks.map writeBlock).drop i).flatten := by
  rw [writeBundle, Option.getD_some, ← List.map_drop, List.flatMap]

theorem writeBlock_eq_nil_iff {c : Block} : writeBlock c = [] ↔ covered c = false := by
  rw [writeBlock]
  cases covered c with
  | true => simp
  | false => simp

/-- The mark of the last block is not part of the form. -/
theorem writeBlock_set_lastBlock (c : Block) (value : Bool) :
    writeBlock (c.set Block.lastBlock value) = writeBlock c := by
  have hflags : FlagWord.assign c.procflags Block.lastBlock value &&& blockMask =
      c.procflags &&& blockMask := by
    cases value with
    | true => exact FlagWord.or_and_of_disjoint (by decide)
    | false => exact FlagWord.and_not_and_of_disjoint (by decide)
  have hget : (c.set Block.lastBlock value).get Block.blockContainsEids =
      c.get Block.blockContainsEids := FlagWord.has_assign_of_disjoint (by decide) value
  have hcovered : covered (c.set Block.lastBlock value) = covered c := rfl
  rw [writeBlock, hcovered, hget, writeBlock]
  simp only [Block.set, hflags]
  rfl

/-- The mutable form of the members depends on what the flags select. -/
theorem lengthMutable_receivedWith (eids : List EID) (s : SecurityBlock) (resultSize : ℕ) :
    lengthMutable (s.receivedWith eids) resultSize = lengthMutable s resultSize := by
  cases hparams : SecurityBlock.has s.ciphersuiteFlags SecurityBlock.containsCiphersuiteParams <;>
    simp [lengthMutable, receivedWith, SecurityBlock.received, hparams]

theorem serializeMutable_receivedWith (eids : List EID) (s : SecurityBlock) (resultSize : ℕ) :
    serializeMutable (s.receivedWith eids) resultSize = serializeMutable s resultSize := by
  simp only [serializeMutable, receivedWith, SecurityBlock.received,
    SecurityBlock.optional_ite]

theorem lengthMutable_of_noResult {s : SecurityBlock}
    (h : SecurityBlock.has s.ciphersuiteFlags containsSecurityResult = false)
    (size size' : ℕ) : lengthMutable s size = lengthMutable s size' := by
  simp only [lengthMutable, h, Bool.false_eq_true, if_false]

theorem serializeMutable_of_noResult {s : SecurityBlock}
    (h : SecurityBlock.has s.ciphersuiteFlags containsSecurityResult = false)
    (size size' : ℕ) : serializeMutable s size = serializeMutable s size' := by
  simp only [serializeMutable, h, optional, Bool.false_eq_true, if_false]

/-- A covered block without the members of a security block has a content that every transport
keeps. -/
theorem getLength_received_of_covered {c : Block} (hc : c.body.HasType c.blocktype)
    (hcovered : covered c = true) (hsecurity : c.body.security? = none) (eids : List EID) :
    (c.body.received eids).getLength = c.body.getLength := by
  have hage (b : AgeBlock) : c.body ≠ .age b := by
    intro hb
    have htype : c.blocktype = 10 := hc.eq_of_classType (by rw [hb]; rfl)
    rw [covered, htype] at hcovered
    exact absurd hcovered (by decide)
  cases hb : c.body with
  | age b => exact absurd hb (hage b)
  | statusReport b => exact b.length_serialize
  | custodySignal b => exact b.length_serialize
  | bundleAuthentication | payloadIntegrity | payloadConfidential | extensionSecurity =>
      rw [hb] at hsecurity
      exact absurd hsecurity (Option.some_ne_none _)
  | payload | extension | scopeControlHopLimit | stream | compressedPayload => rfl

/-- **A transport that leaves a covered block as it is does so to its form.** -/
theorem writeBlock_transported {f : EID → EID} {c : Block} (hc : c.Serializable)
    (h : covered c = true → c.Unaltered f) : writeBlock (c.transported f) = writeBlock c := by
  have hbody : (c.transported f).body = c.body.received (c.announced.map f) := by
    rw [Block.transported, Block.body_withMark]
  have htype : (c.transported f).blocktype = c.blocktype := by
    rw [Block.transported, Block.blocktype_withMark]
  have hcovered : covered (c.transported f) = covered c := by
    rw [covered, htype, covered]
  cases hkind : covered c with
  | false => rw [writeBlock_eq_nil_iff.2 hkind, writeBlock_eq_nil_iff.2 (hcovered.trans hkind)]
  | true =>
      have hunaltered := h hkind
      have heids : (c.transported f).eids = c.eids := by
        rw [Block.transported, Block.eids_withMark, hc.sendable.announced_eq]
        exact (List.map_congr_left hunaltered.eids).trans (List.map_id c.eids)
      have hcontent : contentLength (c.transported f) = contentLength c ∧
          writeContent (c.transported f) = writeContent c := by
        rw [contentLength, contentLength, writeContent, writeContent, hbody, htype,
          Body.security?_received]
        cases hs : c.body.security? with
        | none => exact ⟨getLength_received_of_covered hc.hasType hkind hs _,
            Body.serialize_received _ _⟩
        | some s =>
            simp only [Option.map_some, lengthMutable_receivedWith, serializeMutable_receivedWith]
            cases hresult : SecurityBlock.has s.ciphersuiteFlags
              containsSecurityResult with
            | false => exact ⟨lengthMutable_of_noResult hresult _ _, by
                rw [serializeMutable_of_noResult hresult]⟩
            | true =>
                rw [(Body.getSecurityResultSize_received hs hresult).2 hunaltered.result]
                exact ⟨rfl, rfl⟩
      rw [writeBlock, writeBlock, hcovered, htype,
        (Block.procflags_transported_iff f c).2 hunaltered.mark, heids,
        Block.get_transported f c (by decide), hcontent.1, hcontent.2]

end MutualSerializer

namespace PayloadIntegrityBlock

/-! ### Signing -/

/-- The members name the security source, or leave it to the source of the bundle. -/
structure Names (named : EID) (s : SecurityBlock) (eids : List EID) : Prop where
  source : s.securitySource = named
  flag : SecurityBlock.has s.ciphersuiteFlags SecurityBlock.containsSecuritySource =
    (named != EID.none)
  head : named ≠ EID.none → eids.head? = some named

/-- An integrity block that names its security source. -/
structure Prepared (named : EID) (c : Block) : Prop where
  blocktype : c.blocktype = 3
  body : ∃ s size, c.body = .payloadIntegrity s size ∧ Names named s c.eids

variable {rsa : Rsa} {named : EID} {c : Block} {key : SecurityKey} {b : Bundle}

/-- The reader finds the same security source. -/
theorem Names.receivedSource {s : SecurityBlock} {eids : List EID} (h : Names named s eids) :
    SecurityBlock.receivedSource s.ciphersuiteFlags eids = named := by
  unfold SecurityBlock.receivedSource SecurityBlock.readSource
  rw [h.flag]
  by_cases hnamed : named = EID.none
  · rw [hnamed]
    rfl
  · obtain ⟨rest, rfl⟩ : ∃ rest, eids = named :: rest := by
      have hhead := h.head hnamed
      cases eids with
      | nil => cases hhead
      | cons e rest => exact ⟨rest, congrArg (· :: rest) (Option.some.inj hhead)⟩
    rw [if_pos (bne_iff_ne.2 hnamed)]

theorem Names.references (s : SecurityBlock) : Names s.securitySource s.stored s.references where
  source := rfl
  flag := s.has_stored_source
  head hnamed := by
    rw [SecurityBlock.references, if_neg hnamed]
    rfl

theorem prepared_new : Prepared EID.none Block.newPayloadIntegrity where
  blocktype := rfl
  body := ⟨_, _, rfl, rfl, by decide, fun h => absurd rfl h⟩

theorem Prepared.set (h : Prepared named c) (flag : UInt64) (value : Bool) :
    Prepared named (c.set flag value) := ⟨h.blocktype, h.body⟩

theorem Prepared.addFragmentRange (h : Prepared named c) (offset : UInt64) (length : ℕ) :
    Prepared named (addFragmentRange offset length c) := by
  rcases c with ⟨blocktype, procflags, eids, body⟩
  obtain ⟨htype, s, size, rfl, hnames⟩ := h
  exact ⟨htype, _, size, rfl, hnames.source, hnames.flag, hnames.head⟩

theorem Prepared.storeSecurityReferences (h : Prepared named c) (s : SecurityBlock) :
    Prepared s.securitySource (c.storeSecurityReferences s) := by
  rcases c with ⟨blocktype, procflags, eids, body⟩
  obtain ⟨htype, t, size, rfl, -⟩ := h
  exact ⟨htype, s.stored, size, rfl, Names.references s⟩

theorem Prepared.setSecuritySource (h : Prepared named c) (source : EID) :
    Prepared source (c.setSecuritySource source) := by
  rcases c with ⟨blocktype, procflags, eids, body⟩
  obtain ⟨s, size, rfl, -⟩ := h.body
  exact h.storeSecurityReferences { s with securitySource := source }

theorem Prepared.setSecurityDestination (h : Prepared named c) (destination : EID) :
    Prepared named (c.setSecurityDestination destination) := by
  rcases c with ⟨blocktype, procflags, eids, body⟩
  obtain ⟨s, size, rfl, rfl, -, -⟩ := h.body
  exact h.storeSecurityReferences { s with securityDestination := destination }

/-- An integrity block that is ready for its signature. -/
structure Finished (rsa : Rsa) (key : SecurityKey) (named : EID) (c : Block) : Prop where
  blocktype : c.blocktype = 3
  body : ∃ s size, c.body = .payloadIntegrity s size ∧ Names named s c.eids ∧
    s.ciphersuiteId = pibRsaSha256 ∧
    SecurityBlock.has s.ciphersuiteFlags containsSecurityResult = true ∧
    (0 < rsa.size key.data → 0 < size)

theorem Prepared.finish (h : Prepared named c) (rsa : Rsa) (key : SecurityKey) :
    Finished rsa key named (finish rsa key c) := by
  rcases c with ⟨blocktype, procflags, eids, body⟩
  obtain ⟨htype, s, size, rfl, hnames⟩ := h
  have hsource : SecurityBlock.has
      (s.ciphersuiteFlags ||| containsSecurityResult)
      SecurityBlock.containsSecuritySource = (named != EID.none) := by
    rw [← hnames.flag, SecurityBlock.has, SecurityBlock.has, FlagWord.has, FlagWord.has,
      FlagWord.or_and_of_disjoint (by decide)]
  have hresult : SecurityBlock.has
      (s.ciphersuiteFlags ||| containsSecurityResult)
      containsSecurityResult = true := by
    rw [SecurityBlock.has, FlagWord.has, FlagWord.or_and_self]
    decide
  refine ⟨htype, _, _, rfl, ⟨hnames.source, hsource, hnames.head⟩, rfl, hresult, fun hpos => ?_⟩
  rw [if_pos hpos]
  exact Nat.succ_pos _

/-- The mutable form leaves room for a signature in the size that was announced. -/
theorem Finished.writeBlock_setHash (h : Finished rsa key named c) (hpos : 0 < rsa.size key.data)
    (signature : Bytes) : MutualSerializer.writeBlock
      (setHash signature c) = MutualSerializer.writeBlock c := by
  rcases c with ⟨blocktype, procflags, eids, body⟩
  obtain ⟨-, s, size, rfl, -, -, -, hsize⟩ := h
  have hpos := hsize hpos
  rw [setHash, Block.mapSecurity, MutualSerializer.writeBlock,
    MutualSerializer.writeBlock, MutualSerializer.contentLength, MutualSerializer.contentLength,
    MutualSerializer.writeContent, MutualSerializer.writeContent]
  simp only [Body.security?, Body.getSecurityResultSize, if_pos hpos]
  rfl

theorem modify_zero_cons (b : Bundle) (c : Block) (cs : List Block) (f : Block → Block) :
    Bundle.modify { b with blocks := c :: cs } 0 f = { b with blocks := f c :: cs } := rfl

theorem exists_signRange (hc : Prepared named c) {b₂ : Bundle}
    (h : signRange { b with blocks := c :: b.blocks } = .ok b₂) :
    ∃ c₂, b₂ = { b with blocks := c₂ :: b.blocks } ∧ Prepared named c₂ := by
  rw [signRange] at h
  split_ifs at h
  · split at h
    · exact ⟨_, (Except.ok.inj h).symm, hc.addFragmentRange _ _⟩
    · cases h
  · exact ⟨_, (Except.ok.inj h).symm, hc⟩

/-- **What `sign` makes of a bundle**: a block in front that names the owner of the key, with the
signature of the form of the bundle with this block. -/
theorem sign_spec {b₁ : Bundle} {destination : EID} (h : sign rsa b key destination = .ok b₁) :
    ∃ source c, b.source.getNode = .ok source ∧
      Finished rsa key (namedSource key source) c ∧
      b₁ = { b with
        blocks := setHash
          (calcHash rsa { b with blocks := c :: b.blocks } key) c :: b.blocks } := by
  have hfirst : ∃ c₀, b.pushFront Block.newPayloadIntegrity = { b with blocks := c₀ :: b.blocks } ∧
      Prepared EID.none c₀ := by
    rw [Bundle.pushFront, BlockList.pushFront]
    cases hblocks : b.blocks with
    | nil => exact ⟨_, rfl, prepared_new.set _ _⟩
    | cons d ds => exact ⟨_, rfl, prepared_new⟩
  obtain ⟨c₀, hpush, hc₀⟩ := hfirst
  rw [sign, hpush, modify_zero_cons] at h
  obtain ⟨b₂, hrange, h⟩ := Except.exists_ok_of_bind h
  obtain ⟨c₂, rfl, hc₂⟩ := exists_signRange (hc₀.set Block.replicateInEveryFragment true) hrange
  obtain ⟨source, hsource, h⟩ := Except.exists_ok_of_bind h
  obtain ⟨node, -, h⟩ := Except.exists_ok_of_bind h
  simp only [modify_zero_cons] at h
  have hc₃ : Prepared (namedSource key source)
      (if key.reference != source then c₂.setSecuritySource key.reference else c₂) := by
    rw [namedSource]
    by_cases href : key.reference = source
    · rw [if_pos href, if_neg (by simpa using href)]
      exact hc₂
    · rw [if_neg href, if_pos (bne_iff_ne.2 href)]
      exact hc₂.setSecuritySource _
  have hc₄ : Prepared (namedSource key source)
      (if destination != node then Block.setSecurityDestination destination
        (if key.reference != source then c₂.setSecuritySource key.reference else c₂)
      else if key.reference != source then c₂.setSecuritySource key.reference else c₂) := by
    by_cases hdestination : (destination != node) = true
    · rw [if_pos hdestination]
      exact hc₃.setSecurityDestination destination
    · rw [if_neg hdestination]
      exact hc₃
  exact ⟨source, _, hsource, hc₄.finish rsa key, (Except.ok.inj h).symm⟩

/-! ### Verification -/

/-- An integrity block with a signature. -/
structure Signed (named : EID) (signature : Bytes) (c : Block) : Prop where
  blocktype : c.blocktype = 3
  body : ∃ s size, c.body = .payloadIntegrity s size ∧ Names named s c.eids ∧
    s.ciphersuiteId = pibRsaSha256 ∧
    SecurityBlock.has s.ciphersuiteFlags containsSecurityResult = true ∧
    s.securityResult.get? integritySignature = some signature

variable {signature : Bytes}

theorem Finished.signed (h : Finished rsa key named c) (signature : Bytes) :
    Signed named signature (setHash signature c) := by
  rcases c with ⟨blocktype, procflags, eids, body⟩
  obtain ⟨htype, s, size, rfl, hnames, hid, hresult, -⟩ := h
  refine ⟨htype, _, size, rfl, ⟨hnames.source, hnames.flag, hnames.head⟩, hid, hresult, ?_⟩
  exact (TLVList.get?_set _ _ _ _).trans (if_pos rfl)

theorem Signed.set (h : Signed named signature c) (flag : UInt64) (value : Bool) :
    Signed named signature (c.set flag value) := ⟨h.blocktype, h.body⟩

theorem Signed.covered (h : Signed named signature c) : MutualSerializer.covered c = true := by
  rw [MutualSerializer.covered, h.blocktype]
  rfl

/-- A transport that leaves the block as it is keeps the signature and whose it is. -/
theorem Signed.transported (h : Signed named signature c) (hc : c.Serializable) {f : EID → EID}
    (hunaltered : c.Unaltered f) : Signed named signature (c.transported f) := by
  obtain ⟨s, size, hbody, hnames, hid, hresult, hsignature⟩ := h.body
  have heids : c.announced.map f = c.eids := by
    rw [hc.sendable.announced_eq]
    exact (List.map_congr_left hunaltered.eids).trans (List.map_id c.eids)
  refine ⟨?_, s.receivedWith c.eids, (s.receivedWith c.eids).securityResult.getLength, ?_, ?_, hid,
    hresult, ?_⟩
  · rw [Block.transported, Block.blocktype_withMark]
    exact h.blocktype
  · rw [Block.transported, Block.body_withMark, hbody, heids]
    rfl
  · rw [Block.transported, Block.eids_withMark, heids]
    exact ⟨hnames.receivedSource, hnames.flag, hnames.head⟩
  · rw [receivedWith, SecurityBlock.received]
    dsimp only
    rw [if_pos hresult]
    exact hsignature

theorem mem_getBlocks {blocks : List Block} {i : ℕ} {s : SecurityBlock} :
    (i, s) ∈ getBlocks blocks ↔
      ∃ c size, blocks[i]? = some c ∧ c.body = .payloadIntegrity s size := by
  rw [getBlocks, List.mem_filterMap]
  constructor
  · rintro ⟨⟨c, j⟩, hmem, hblock⟩
    have hget := List.mem_zipIdx_iff_getElem?.1 hmem
    dsimp only at hblock
    split at hblock
    · next s' size hbody =>
        obtain ⟨rfl, rfl⟩ := Prod.mk.inj (Option.some.inj hblock)
        exact ⟨c, size, hget, hbody⟩
    · cases hblock
  · rintro ⟨c, size, hget, hbody⟩
    refine ⟨(c, i), List.mem_zipIdx_iff_getElem?.2 hget, ?_⟩
    dsimp only
    rw [hbody]

/-- The members that name the owner of the key belong to it, if its EID is that of a node. -/
theorem isSecuritySource_iff {p : PrimaryBlock} {source : EID}
    (hsource : p.source.getNode = .ok source)
    {s : SecurityBlock} (hs : s.securitySource = namedSource key source) :
    s.isSecuritySource p key.reference = .ok true ↔ BundleAuthenticationBlock.Owned key p := by
  rw [← BundleAuthenticationBlock.remembered_frontMembers hsource 0,
    remembered]
  have hsame : (frontMembers
      (namedSource key source) 0).isSecuritySource p key.reference =
        s.isSecuritySource p key.reference := by
    rw [isSecuritySource, getSecuritySource,
      isSecuritySource, getSecuritySource, hs]
    rfl
  rw [hsame, BundleAuthenticationBlock.hasCorrelator_frontMembers]
  cases s.isSecuritySource p key.reference with
  | error e => simp
  | ok r => cases r <;> simp [frontMembers, SecurityBlock.create]

/-- **A verification** asks for the owner of the key, and for the bytes that were signed. -/
theorem verifyBlock_iff {own other : Bytes} (hpair : rsa.Pair own other) {reference source : EID}
    {p : PrimaryBlock} (hp : b.source = p.source) (hsource : p.source.getNode = .ok source)
    {s : SecurityBlock} (hs : s.securitySource =
      namedSource ⟨reference, own⟩ source)
    (hid : s.ciphersuiteId = pibRsaSha256)
    (hresult : s.securityResult.get? integritySignature = some signature)
    {data : Bytes} (hsignature : rsa.sign own data = some signature) (index : ℕ) :
    verifyBlock rsa b ⟨reference, other⟩ index s = .ok () ↔
      BundleAuthenticationBlock.Owned ⟨reference, own⟩ p ∧
        MutualSerializer.writeBundle (some index) b = data := by
  rw [← hpair.verification data _ signature hsignature, ← isSecuritySource_iff hsource hs,
    ← BundleAuthenticationBlock.isSecuritySource_congr hp, verifyBlock]
  dsimp only
  cases s.isSecuritySource b.toPrimaryBlock reference with
  | error e => simp [bind, Except.bind]
  | ok r =>
      cases r with
      | false => simp [bind, Except.bind, throw, throwThe, MonadExceptOf.throw]
      | true =>
          simp only [bind, Except.bind, hid, hpair.present, hresult, pure, Except.pure, throw,
            throwThe, MonadExceptOf.throw]
          generalize rsa.verification other (MutualSerializer.writeBundle (some index) b)
            signature = ret
          rcases Int.lt_trichotomy ret 0 with hret | hret | hret
          · simp [hret.ne, hret, hret.le]
          · simp [hret]
          · simp [hret, hret.ne', not_lt.2 hret.le]

end PayloadIntegrityBlock

end IbrDtn
