import IbrDtn.Security.SecurityKey
import IbrDtn.Security.StrictSerializer
import IbrDtn.Data.PredictedLengths

/-!
# The transport of a security block

A security block keeps its source and its destination among the EIDs of the block, marked by two of
its ciphersuite flags, and its correlator and its lists of typed values behind three more.  This
file says which security blocks come out of a transport of their bundle as they went in.  Where
both references are present the reader takes the first EID for either of them.

## Main definitions

* `SecurityBlock.stored`, `SecurityBlock.references` : what `store_security_references` makes of the
  flags, and the EIDs that it stores.
* `Bundle.Keeps` : the EIDs that the header of a bundle names exactly.
* `Bundle.KeepsSecurity` : the security blocks that the reader gets back.

## Main results

* `Block.security?_transported` : the members of a security block behind a transport.
* `DefaultDeserializer.restoresSecurity_iff` : the members come back, and the payload has the
  announced length, exactly if the two references are kept and do not differ, what the flags
  leave out is empty, and the announced size of the result is right.
-/

namespace IbrDtn

namespace SecurityBlock

/-- The members behind `store_security_references`. -/
def stored (s : SecurityBlock) : SecurityBlock :=
  { s with
    ciphersuiteFlags := FlagWord.assign
      (FlagWord.assign s.ciphersuiteFlags containsSecuritySource (s.securitySource != EID.none))
      containsSecurityDestination (s.securityDestination != EID.none) }

/-- The EIDs that `store_security_references` puts into the block. -/
def references (s : SecurityBlock) : List EID :=
  (if s.securitySource = EID.none then [] else [s.securitySource]) ++
    if s.securityDestination = EID.none then [] else [s.securityDestination]

/-! ### The flags -/

theorem has_stored_source (s : SecurityBlock) :
    has s.stored.ciphersuiteFlags containsSecuritySource = (s.securitySource != EID.none) := by
  rw [stored, has, FlagWord.has_assign_of_disjoint (by decide),
    FlagWord.has_assign_self (by decide)]

theorem has_stored_destination (s : SecurityBlock) :
    has s.stored.ciphersuiteFlags containsSecurityDestination =
      (s.securityDestination != EID.none) :=
  FlagWord.has_assign_self (by decide) _

/-- The flags of the other parts stay as they are. -/
theorem has_stored {flag : UInt64} (hsource : containsSecuritySource &&& flag = 0)
    (hdestination : containsSecurityDestination &&& flag = 0) (s : SecurityBlock) :
    has s.stored.ciphersuiteFlags flag = has s.ciphersuiteFlags flag := by
  rw [stored, has, FlagWord.has_assign_of_disjoint hdestination,
    FlagWord.has_assign_of_disjoint hsource, has]

theorem has_stored_correlator (s : SecurityBlock) :
    has s.stored.ciphersuiteFlags containsCorrelator =
      has s.ciphersuiteFlags containsCorrelator :=
  has_stored (by decide) (by decide) s

theorem has_stored_params (s : SecurityBlock) :
    has s.stored.ciphersuiteFlags containsCiphersuiteParams =
      has s.ciphersuiteFlags containsCiphersuiteParams :=
  has_stored (by decide) (by decide) s

theorem has_stored_result (s : SecurityBlock) :
    has s.stored.ciphersuiteFlags containsSecurityResult =
      has s.ciphersuiteFlags containsSecurityResult :=
  has_stored (by decide) (by decide) s

/-! ### The references -/

/-- The reader finds the image of the source at the front. -/
theorem receivedSource_stored {f : EID → EID} (hf : f EID.none = EID.none) (s : SecurityBlock) :
    receivedSource s.stored.ciphersuiteFlags (s.references.map f) = f s.securitySource := by
  unfold receivedSource readSource
  rw [has_stored_source, references]
  by_cases hsource : s.securitySource = EID.none
  · simp only [hsource, bne_self_eq_false, Bool.false_eq_true, if_false, hf]
  · have hne : (s.securitySource != EID.none) = true := bne_iff_ne.2 hsource
    simp only [hne, if_true, if_neg hsource, List.cons_append, List.nil_append, List.map_cons]

/-- The reader finds the image of the destination there, unless there is a source: it then takes
that for the destination. -/
theorem receivedDestination_stored {f : EID → EID} (hf : f EID.none = EID.none)
    (s : SecurityBlock) :
    receivedDestination s.stored.ciphersuiteFlags (s.references.map f) =
      if s.securityDestination = EID.none ∨ s.securitySource = EID.none then
        f s.securityDestination
      else f s.securitySource := by
  unfold receivedDestination readDestination
  rw [has_stored_destination, has_stored_source, references]
  by_cases hdestination : s.securityDestination = EID.none
  · simp only [hdestination, bne_self_eq_false, Bool.false_eq_true, if_false, true_or, if_true, hf]
  · have hne : (s.securityDestination != EID.none) = true := bne_iff_ne.2 hdestination
    by_cases hsource : s.securitySource = EID.none
    · simp only [hne, hsource, bne_self_eq_false, Bool.false_eq_true, if_false, if_true,
        if_neg hdestination, or_true, List.nil_append, List.map_cons]
    · have hne' : (s.securitySource != EID.none) = true := bne_iff_ne.2 hsource
      simp only [hne, hne', if_true, hsource, hdestination, or_self, if_false, List.cons_append,
        List.nil_append, List.map_cons]

/-! ### The members -/

/-- What was received is what was sent if and only if the references are, and what the flags leave
out is empty. -/
theorem received_eq_self_iff (s : SecurityBlock) (source destination : EID) :
    s.received source destination = s ↔
      source = s.securitySource ∧ destination = s.securityDestination ∧
        (has s.ciphersuiteFlags containsCorrelator = false → s.correlator = 0) ∧
        (has s.ciphersuiteFlags containsCiphersuiteParams = false →
          s.ciphersuiteParams = TLVList.empty) ∧
        (has s.ciphersuiteFlags containsSecurityResult = false →
          s.securityResult = TLVList.empty) := by
  have hpart {α : Type} (present : Bool) (a a' : α) :
      (if present then a else a') = a ↔ (present = false → a = a') := by
    cases present with
    | true => simp only [if_true, Bool.true_eq_false, false_implies]
    | false => simp only [Bool.false_eq_true, if_false, true_implies, eq_comm]
  cases s
  simp only [received, SecurityBlock.mk.injEq, hpart, true_and]
  tauto

/-- What the flags leave out is empty. -/
structure Flagged (s : SecurityBlock) : Prop where
  correlator : has s.ciphersuiteFlags containsCorrelator = false → s.correlator = 0
  params : has s.ciphersuiteFlags containsCiphersuiteParams = false →
    s.ciphersuiteParams = TLVList.empty
  result : has s.ciphersuiteFlags containsSecurityResult = false →
    s.securityResult = TLVList.empty

/-- **The members of a block come back exactly if** its two references are kept and do not differ,
and what its flags leave out is empty. -/
theorem receivedWith_stored_iff {f : EID → EID} (hf : f EID.none = EID.none) (s : SecurityBlock) :
    s.stored.receivedWith (s.references.map f) = s.stored ↔
      f s.securitySource = s.securitySource ∧ f s.securityDestination = s.securityDestination ∧
        (s.securitySource = EID.none ∨ s.securityDestination = EID.none ∨
          s.securityDestination = s.securitySource) ∧ s.Flagged := by
  rw [receivedWith, received_eq_self_iff, receivedSource_stored hf, receivedDestination_stored hf,
    has_stored_correlator, has_stored_params, has_stored_result]
  change f s.securitySource = s.securitySource ∧ _ = s.securityDestination ∧
    (_ → s.correlator = 0) ∧ (_ → s.ciphersuiteParams = _) ∧ (_ → s.securityResult = _) ↔ _
  split_ifs with hnone
  · constructor
    · rintro ⟨hsource, hdestination, hcorrelator, hparams, hresult⟩
      exact ⟨hsource, hdestination, hnone.elim (Or.inr ∘ Or.inl) Or.inl,
        hcorrelator, hparams, hresult⟩
    · rintro ⟨hsource, hdestination, -, hflagged⟩
      exact ⟨hsource, hdestination, hflagged.correlator, hflagged.params, hflagged.result⟩
  · obtain ⟨hdestination, hsource⟩ := not_or.1 hnone
    constructor
    · rintro ⟨hkeep, hsame, hcorrelator, hparams, hresult⟩
      have heq : s.securityDestination = s.securitySource := hsame.symm.trans hkeep
      exact ⟨hkeep, by rw [heq, hkeep], Or.inr (Or.inr heq), hcorrelator, hparams, hresult⟩
    · rintro ⟨hkeep, -, hsame, hflagged⟩
      have heq : s.securityDestination = s.securitySource :=
        (hsame.resolve_left hsource).resolve_left hdestination
      exact ⟨hkeep, hkeep.trans heq.symm, hflagged.correlator, hflagged.params, hflagged.result⟩

/-! ### The announced length -/

/-- The length of the payload, of which the announced one differs in the size of the result. -/
theorem length_serialize (s : SecurityBlock) :
    s.serialize.length = s.getLength s.securityResult.getLength := by
  rw [serialize, getLength]
  simp only [List.length_append, SDNV.length_write, optional]
  split_ifs <;> simp only [SDNV.length_write, TLVList.length_write, TLVList.getLength,
    List.length_nil] <;> omega

/-- **The announced length is right exactly if** the announced size of a result is. -/
theorem getLength_eq_length_serialize_iff {s : SecurityBlock} (hlen : s.serialize.length < 2 ^ 64)
    (resultSize : ℕ) : s.getLength resultSize = s.serialize.length ↔
      (has s.ciphersuiteFlags containsSecurityResult = true →
        resultSize = s.securityResult.getLength) := by
  rw [length_serialize] at hlen ⊢
  cases hresult : has s.ciphersuiteFlags containsSecurityResult with
  | false => simp only [getLength, hresult, Bool.false_eq_true, if_false, false_implies]
  | true =>
      refine ⟨fun h _ => ?_, fun h => by rw [h rfl]⟩
      have hlt := h.trans_lt hlen
      simp only [getLength, hresult, if_true] at h hlt hlen
      refine DefaultSerializer.eq_of_add_getLength_eq (k := 0) (by omega) (by omega) ?_
      simp only [Nat.zero_add]
      omega

end SecurityBlock

/-! ### Blocks -/

namespace Block

theorem security?_storeSecurityReferences (c : Block) (s : SecurityBlock) :
    (c.storeSecurityReferences s).body.security? = c.body.security?.map fun _ => s.stored :=
  security?_mapSecurity (fun _ => s.stored) c

theorem eids_storeSecurityReferences (c : Block) (s : SecurityBlock) :
    (c.storeSecurityReferences s).eids = s.references :=
  rfl

/-- The members of a security block behind a transport. -/
theorem security?_transported (f : EID → EID) (c : Block) :
    (c.transported f).body.security? =
      c.body.security?.map (SecurityBlock.receivedWith (c.announced.map f)) := by
  rw [transported, body_withMark, Body.security?_received]

/-- The payload of a block has the length that its class announces. -/
def AnnouncesLength (c : Block) : Prop := c.body.getLength = c.body.serialize.length

theorem announcesLength_iff {c : Block} {s : SecurityBlock} (hs : c.body.security? = some s)
    (hlen : c.body.serialize.length < 2 ^ 64) : c.AnnouncesLength ↔
      (SecurityBlock.has s.ciphersuiteFlags SecurityBlock.containsSecurityResult = true →
        c.body.getSecurityResultSize = s.securityResult.getLength) := by
  have hserialize : c.body.serialize = s.serialize := by
    cases hbody : c.body <;> rw [hbody] at hs <;> first
      | exact absurd hs (Option.some_ne_none s).symm
      | (obtain rfl := Option.some.inj hs; rfl)
  rw [hserialize] at hlen
  rw [AnnouncesLength, Body.getLength_of_security hs, hserialize,
    SecurityBlock.getLength_eq_length_serialize_iff hlen]

end Block

/-! ### Bundles -/

namespace Bundle

/-- The header of the bundle names the EID exactly: in the compressed form a canonical one, and in
the form with a dictionary one that the constructor from two strings leaves alone. -/
def Keeps (b : Bundle) (e : EID) : Prop :=
  if DefaultSerializer.isCompressable b then e.IsCanonical else e.trimmed = e

instance (b : Bundle) (e : EID) : Decidable (b.Keeps e) :=
  inferInstanceAs (Decidable (if DefaultSerializer.isCompressable b then _ else _))

theorem resolved_eq_self_iff (b : Bundle) (e : EID) : b.resolved e = e ↔ b.Keeps e := by
  rw [resolved, Keeps]
  split_ifs
  · exact EID.decompressed_eq_iff e
  · exact Iff.rfl

theorem keeps_none (b : Bundle) : b.Keeps EID.none := by
  rw [Keeps]
  split_ifs
  · exact Or.inl rfl
  · decide

/-- The reader gets the members of the security block back: its references are named exactly, and
are not two different ones, and what its flags leave out is empty. -/
structure KeepsSecurity (b : Bundle) (s : SecurityBlock) : Prop where
  source : b.Keeps s.securitySource
  destination : b.Keeps s.securityDestination
  one : s.securitySource = EID.none ∨ s.securityDestination = EID.none ∨
    s.securityDestination = s.securitySource
  flagged : s.Flagged

end Bundle

namespace DefaultDeserializer

/-- **A security block comes back from a transport exactly if** the bundle keeps its references,
which do not differ, what its flags leave out is empty, and the size that its class announces for a
result is right. -/
theorem restoresSecurity_iff {b : Bundle} (hb : b.Transportable) {i : ℕ} {c : Block}
    {s : SecurityBlock} (hc : c.body.security?.isSome = true)
    (hi : b.blocks[i]? = some (c.storeSecurityReferences s)) (obj : Bundle)
    {ser : DefaultSerializer} (hser : ser.dictionary.good = true) {d : DefaultDeserializer}
    (hd : d.dictionary.good = true) {env : DeserializerEnv}
    (henv : env.validator = Validator.accept) (hblob : env.blob.CopiesExactly) :
    (∃ n d' c', (readBundle env d obj).Reads (ser.writeBundle b).1 (n, d') ∧
        n.blocks[i]? = some c' ∧ c'.body.security? = some s.stored ∧
        (c.storeSecurityReferences s).AnnouncesLength) ↔
      b.KeepsSecurity s ∧
        (SecurityBlock.has s.ciphersuiteFlags SecurityBlock.containsSecurityResult = true →
          (c.storeSecurityReferences s).body.getSecurityResultSize =
            s.securityResult.getLength) := by
  obtain ⟨d₁, -, hread⟩ := hb.reads_transported obj hser hd henv hblob
  have hserializable := hb.serializable.blocks _ (List.mem_of_getElem? hi)
  have hsecurity : (c.storeSecurityReferences s).body.security? = some s.stored := by
    obtain ⟨s₀, hs₀⟩ := Option.isSome_iff_exists.1 hc
    rw [Block.security?_storeSecurityReferences, hs₀, Option.map_some]
  have hlength := Block.announcesLength_iff hsecurity hserializable.payload_lt
  rw [SecurityBlock.has_stored_result] at hlength
  have hget : (b.transported obj).blocks[i]? =
      some ((c.storeSecurityReferences s).transported b.resolved) := by
    rw [Bundle.transported, List.getElem?_map, hi, Option.map_some]
  -- what the reader gets, in the words of the block that was sent
  have hmembers : ((c.storeSecurityReferences s).transported b.resolved).body.security? =
      some s.stored ↔ b.KeepsSecurity s := by
    rw [Block.security?_transported, hserializable.sendable.announced_eq,
      Block.eids_storeSecurityReferences, hsecurity, Option.map_some, Option.some.injEq,
      SecurityBlock.receivedWith_stored_iff ((b.resolved_eq_self_iff _).2 b.keeps_none),
      b.resolved_eq_self_iff, b.resolved_eq_self_iff]
    exact ⟨fun h => ⟨h.1, h.2.1, h.2.2.1, h.2.2.2⟩,
      fun h => ⟨h.source, h.destination, h.one, h.flagged⟩⟩
  constructor
  · rintro ⟨n, d', c', hn, hc', hs', hannounced⟩
    obtain ⟨rfl, -⟩ := Prod.mk.inj (hn.unique hread)
    obtain rfl := Option.some.inj (hc'.symm.trans hget)
    exact ⟨hmembers.1 hs', hlength.1 hannounced⟩
  · rintro ⟨hkeeps, hsize⟩
    exact ⟨_, d₁, _, hread, hget, hmembers.2 hkeeps, hlength.2 hsize⟩

/-! ### A block with two references -/

/-- An extension security block without contents, from `dtn://a` to the same or another node. -/
def referringBlock (same : Bool) : SecurityBlock :=
  { SecurityBlock.create 4 with
    securitySource := Bundle.sampleEID
    securityDestination :=
      if same then Bundle.sampleEID else ⟨EID.defaultScheme, ascii ['/', '/', 'b']⟩ }

/-- A security block at the end of a bundle. -/
def lastSecurity : Block := { Block.newExtensionSecurity with procflags := Block.lastBlock }

/-- A bundle with this block. -/
def referring (same : Bool) : Bundle :=
  Bundle.sample [lastSecurity.storeSecurityReferences (referringBlock same)]

theorem transportable_referring (same : Bool) : (referring same).Transportable where
  serializable := by
    refine ⟨List.cons_ne_nil _ _, ?_, fun c hc => ?_, by cases same <;> decide⟩
    · have hlast : (lastSecurity.storeSecurityReferences (referringBlock same)).get
          Block.lastBlock = true := by cases same <;> decide
      exact hlast
    · obtain rfl := List.mem_singleton.1 hc
      refine ⟨by cases same <;> decide, fun s hs => ?_, fun _ => by cases same <;> decide,
        by cases same <;> decide, by cases same <;> decide, by cases same <;> decide⟩
      obtain rfl := Option.some.inj hs
      exact ⟨⟨by cases same <;> decide, by cases same <;> decide⟩,
        by cases same <;> exact fun h => absurd h (by decide),
        by cases same <;> exact fun h => absurd h (by decide)⟩
  nameable := by cases same <;> decide
  size_lt := by cases same <;> decide

/-- **A block that comes back**: its source is its destination. -/
theorem restoresSecurity_iff_same : ∃ n d' c',
    (readBundle (.default BLOB.exact ⟨0, 0⟩) .create (Bundle.create 0 0)).Reads
      (DefaultSerializer.create.writeBundle (referring true)).1 (n, d') ∧
    n.blocks[0]? = some c' ∧ c'.body.security? = some (referringBlock true).stored ∧
    (lastSecurity.storeSecurityReferences (referringBlock true)).AnnouncesLength := by
  refine (restoresSecurity_iff (transportable_referring true) rfl rfl _ rfl rfl rfl
    BLOB.exact_copiesExactly).2 ⟨⟨?_, ?_, Or.inr (Or.inr rfl), ?_⟩, fun h => absurd h ?_⟩
  · decide
  · decide
  · exact ⟨fun _ => rfl, fun _ => rfl, fun _ => rfl⟩
  · decide

/-- **A block that does not come back**: behind the transport its destination is its source. -/
theorem not_restoresSecurity : ¬ ∃ n d' c',
    (readBundle (.default BLOB.exact ⟨0, 0⟩) .create (Bundle.create 0 0)).Reads
      (DefaultSerializer.create.writeBundle (referring false)).1 (n, d') ∧
    n.blocks[0]? = some c' ∧ c'.body.security? = some (referringBlock false).stored ∧
    (lastSecurity.storeSecurityReferences (referringBlock false)).AnnouncesLength := by
  rintro ⟨n, d', c', hn, hc', hs', -⟩
  obtain ⟨d₁, -, hread⟩ := @Bundle.Transportable.reads_transported _
    (transportable_referring false) (.create 0 0) .create rfl .create rfl
    (.default BLOB.exact ⟨0, 0⟩) rfl BLOB.exact_copiesExactly
  obtain ⟨rfl, -⟩ := Prod.mk.inj (hn.unique hread)
  obtain rfl := Option.some.inj hc'
  exact absurd hs' (by decide)

end DefaultDeserializer

end IbrDtn
