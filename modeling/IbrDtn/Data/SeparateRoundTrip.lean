import IbrDtn.Data.EidText
import IbrDtn.Data.Encoding
import IbrDtn.Data.RecordRoundTrip
import IbrDtn.Data.SeparateSerializer
import IbrDtn.Library.Framing

/-!
# Which blocks come back from files of their own

A block in a file of its own is read into a new block, whose class is chosen by the type of the
block and, in an administrative bundle, by the first byte of the payload.  This file says exactly
for which blocks the reader appends one block with the same type, flags, EIDs and payload to the
bundle, and what it does with the others.

## Main definitions

* `SeparateDeserializer.reader` : the new block that is filled.
* `SeparateDeserializer.Recovers` : what is asked of the reader.
* `SeparateDeserializer.Recoverable` : the blocks for which it does this.

## Main results

* `SeparateDeserializer.run_pushAndRead` : the file of a block is read as far as the class of the
  new block reads its payload.
* `SeparateDeserializer.recovers_iff` : what is asked of the reader is done for exactly these.
-/

namespace IbrDtn

open Block (lastBlock newExtension newPayload payloadType receiver)
open Loader (exists_of_run_bind exists_of_run_within loads_object loads_ofParser loads_update
  ofParser preserves_ofParser preserves_update run_bind run_bind_ok run_map run_object run_update
  run_within)
open Parser (Ensures)

/-! ### What a class reads -/

namespace SecurityBlock

theorem eidsPresent_of_ok {flags : UInt64} {eids : List EID} {old old' source destination : EID}
    (hsource : readSource flags eids old = .ok source)
    (hdestination : readDestination flags eids old' = .ok destination) :
    EidsPresent flags eids := by
  refine ⟨fun hs hnil => ?_, fun hd => ⟨fun hnil => ?_, fun hs => ?_⟩⟩
  · rw [readSource.eq_def, if_pos hs, hnil] at hsource
    cases hsource
  · rw [readDestination.eq_def, if_pos hd, hnil] at hdestination
    split_ifs at hdestination
  · rw [readDestination.eq_def, if_pos hd, if_pos hs] at hdestination
    rcases eids with _ | ⟨e, _ | ⟨e', eids⟩⟩
    · cases hdestination
    · cases hdestination
    · exact Nat.le_add_left 2 _

theorem keeps_loadOptional {σ τ : Type} {p : Loader Exn σ Unit} {f : σ → τ}
    (hp : Loader.Keeps p f) (present : Bool) : Loader.Keeps (loadOptional present p) f := by
  cases present with
  | true => exact hp
  | false => exact Loader.keeps_pure () f

/-- **A security block that was read has the EIDs that its flags promise.** -/
theorem eidsPresent_of_run {eids : List EID} {b b' : SecurityBlock} {s s' : InStream}
    (h : (deserialize eids).run (b, s) = (.ok (), (b', s'))) :
    EidsPresent b'.ciphersuiteFlags eids := by
  obtain ⟨id, t₁, -, h⟩ := exists_of_run_bind h
  obtain ⟨flags, t₂, -, h⟩ := exists_of_run_bind h
  rw [run_bind_ok (run_update _ _), run_bind_ok (run_object _)] at h
  obtain ⟨source, t₃, hsource, h⟩ := exists_of_run_bind h
  rw [Loader.run_ofExcept] at hsource
  obtain ⟨hpresent, rfl⟩ := Prod.mk.inj hsource
  rw [run_bind_ok (run_update _ _)] at h
  obtain ⟨destination, t₄, hdestination, h⟩ := exists_of_run_bind h
  rw [Loader.run_ofExcept] at hdestination
  obtain ⟨hpresent', rfl⟩ := Prod.mk.inj hdestination
  rw [run_bind_ok (run_update _ _)] at h
  have hflags : b'.ciphersuiteFlags = flags := by
    have hkeeps {p : Loader Exn SecurityBlock Unit} (hp : p.Keeps ciphersuiteFlags)
        {o : SecurityBlock × InStream} (hrun : p.run o = (.ok (), (b', s'))) :
        b'.ciphersuiteFlags = o.1.ciphersuiteFlags := by
      have hkept := hp o
      rwa [hrun] at hkept
    refine hkeeps (Loader.Keeps.bind (keeps_loadOptional ?_ _) fun _ =>
      Loader.Keeps.bind (keeps_loadOptional ?_ _) fun _ => keeps_loadOptional ?_ _) h
    · exact Loader.Keeps.bind (Loader.keeps_ofParser _ _) fun _ =>
        Loader.keeps_update fun _ => rfl
    · refine Loader.keeps_within _ (fun _ _ => ?_) _ _
      rfl
    · refine Loader.keeps_within _ (fun _ _ => ?_) _ _
      rfl
  rw [hflags]
  exact eidsPresent_of_ok hpresent hpresent'

/-- The lists of a security block whose payload is no longer than a stream fit one. -/
theorem fits_of_length {b : SecurityBlock} (h : b.serialize.length < 2 ^ 63) : b.Fits := by
  have hlist {l : TLVList} (hl : l.write.length < 2 ^ 63) : l.Fits := by
    rw [TLVList.length_write] at hl
    refine ⟨by omega, fun t ht => ?_⟩
    have hle : t.getLength ≤ l.getPayloadLength := by
      rw [TLVList.getPayloadLength]
      exact List.single_le_sum (fun _ _ => Nat.zero_le _) _ (List.mem_map_of_mem ht)
    rw [TLV.getLength, BundleString.getLength] at hle
    omega
  refine ⟨fun hp => hlist ?_, fun hr => hlist ?_⟩
  · refine lt_of_le_of_lt ?_ h
    simp only [serialize, hp, optional, if_true, List.length_append]
    omega
  · refine lt_of_le_of_lt ?_ h
    simp only [serialize, hr, optional, if_true, List.length_append]
    omega

end SecurityBlock

/-- The place of a fragment is written only where there is one. -/
theorem AdministrativeBlock.optional_fragment (present : Bool) (m n m' n' : UInt64) :
    optional present (SDNV.write (if present then m else m') ++
      SDNV.write (if present then n else n')) =
    optional present (SDNV.write m ++ SDNV.write n) := by
  cases present <;> rfl

/-- A record that is read from what it writes itself is legible. -/
theorem StatusReportBlock.legible_of_run {b old : StatusReportBlock} {r st : Bytes}
    (h : ((deserialize old).run ⟨b.serialize ++ r, false, false, st⟩).1 = .ok b) : b.Legible := by
  obtain ⟨hadmfield, hstatus, hreasoncode⟩ := isSpace_of_run h
  have hsource : Ensures (deserialize old) fun b => b.source.Readable := by
    iterate 12 refine Ensures.of_bind fun _ => ?_
    exact Parser.ensures_pure (EID.ofString_getString_ofString _)
  exact ⟨hadmfield, hstatus, hreasoncode, hsource _ b h⟩

/-- A record that was read into another one writes the same. -/
theorem StatusReportBlock.serialize_into (b old : StatusReportBlock) :
    (b.into old).serialize = b.serialize := by
  simp only [serialize, into, AdministrativeBlock.optional_fragment, SecurityBlock.optional_ite]

/-- A record that is read from what it writes itself is legible. -/
theorem CustodySignalBlock.legible_of_run {b old : CustodySignalBlock} {r st : Bytes}
    (h : ((deserialize old).run ⟨b.serialize ++ r, false, false, st⟩).1 = .ok b) : b.Legible := by
  obtain ⟨hadmfield, hstatus, hreason⟩ := isSpace_of_run h
  have hsource : Ensures (deserialize old) fun b => b.source.Readable := by
    iterate 7 refine Ensures.of_bind fun _ => ?_
    exact Parser.ensures_pure (EID.ofString_getString_ofString _)
  exact ⟨hadmfield, hstatus, hreason, hsource _ b h⟩

/-- A record that was read into another one writes the same. -/
theorem CustodySignalBlock.serialize_into (b old : CustodySignalBlock) :
    (b.into old).serialize = b.serialize := by
  simp only [serialize, into, AdministrativeBlock.optional_fragment]
  rfl

theorem Factory.classType_of_get {type : UInt8} {n : Block} (h : Factory.get type = some n) :
    n.body.classType = some type := by
  have htype : n.blocktype = type := eq_of_beq (List.find?_some h :)
  have hmem := List.mem_of_find?_eq_some h
  rw [← htype]
  simp only [List.mem_cons, List.not_mem_nil, or_false] at hmem
  rcases hmem with rfl | rfl | rfl | rfl | rfl | rfl | rfl | rfl <;> rfl

namespace Body

/-- Reading a payload does not change the class. -/
theorem preserves_classType (blob : BLOB) (eids : List EID) (length : UInt64)
    (c : Option UInt8) :
    Loader.Preserves (deserialize blob eids length) fun b => b.classType = c := by
  have htrivial {τ α : Type} (p : Loader Exn τ α) : p.Preserves fun _ => True :=
    fun _ _ => trivial
  refine Loader.preserves_object_bind fun o ho => ?_
  cases o with
  | payload b =>
      exact (preserves_ofParser _).bind fun _ => preserves_update fun _ _ => ho
  | extension b =>
      exact (preserves_ofParser _).bind fun _ => preserves_update fun _ _ => ho
  | statusReport b =>
      exact (preserves_ofParser _).bind fun _ => preserves_update fun _ _ => ho
  | custodySignal b =>
      exact (preserves_ofParser _).bind fun _ => preserves_update fun _ _ => ho
  | _ => exact (htrivial _).within trivial fun _ _ _ _ => ho

/-- A block that was read has the EIDs that its flags promise, if it is a security block. -/
theorem eidsPresent_of_run {blob : BLOB} {eids : List EID} {length : UInt64} {body body' : Body}
    {s s' : InStream} (h : (deserialize blob eids length).run (body, s) = (.ok (), (body', s')))
    {b : SecurityBlock} (hb : body'.security? = some b) :
    SecurityBlock.EidsPresent b.ciphersuiteFlags eids := by
  rw [deserialize, run_bind_ok (run_object _)] at h
  cases body with
  | bundleAuthentication b₀ =>
      obtain ⟨b₁, hrun, rfl⟩ := exists_of_run_within h
      obtain rfl := Option.some.inj hb
      exact SecurityBlock.eidsPresent_of_run hrun
  | payloadConfidential b₀ =>
      obtain ⟨b₁, hrun, rfl⟩ := exists_of_run_within h
      obtain rfl := Option.some.inj hb
      exact SecurityBlock.eidsPresent_of_run hrun
  | extensionSecurity b₀ =>
      obtain ⟨b₁, hrun, rfl⟩ := exists_of_run_within h
      obtain rfl := Option.some.inj hb
      exact SecurityBlock.eidsPresent_of_run hrun
  | payloadIntegrity b₀ size =>
      obtain ⟨o₁, hrun, rfl⟩ := exists_of_run_within h
      obtain rfl := Option.some.inj hb
      rw [PayloadIntegrityBlock.deserialize, run_bind_ok (run_object _)] at hrun
      obtain ⟨_, ⟨o₂, t⟩, hsecurity, hupdate⟩ := exists_of_run_bind hrun
      obtain ⟨b₁, hrun', rfl⟩ := exists_of_run_within hsecurity
      obtain ⟨-, hpair⟩ := Prod.mk.inj hupdate
      obtain ⟨rfl, -⟩ := Prod.mk.inj hpair
      exact SecurityBlock.eidsPresent_of_run hrun'
  | age b₀ =>
      obtain ⟨b₁, -, rfl⟩ := exists_of_run_within h
      cases hb
  | scopeControlHopLimit b₀ =>
      obtain ⟨b₁, -, rfl⟩ := exists_of_run_within h
      cases hb
  | stream b₀ =>
      obtain ⟨b₁, -, rfl⟩ := exists_of_run_within h
      cases hb
  | compressedPayload b₀ =>
      obtain ⟨b₁, -, rfl⟩ := exists_of_run_within h
      cases hb
  | _ =>
      obtain ⟨b₁, t, -, hupdate⟩ := exists_of_run_bind h
      obtain ⟨-, hpair⟩ := Prod.mk.inj hupdate
      obtain ⟨rfl, -⟩ := Prod.mk.inj hpair
      cases hb

/-- What the class of a new block reads in the payload of a block with the EIDs `eids`: the classes
that hold a BLOB read everything, a record must be legible, and another class reads what its blocks
write. -/
def Takes (eids : List EID) (payload : Bytes) : Body → Prop
  | .payload _ | .extension _ => True
  | .statusReport _ => ∃ r : StatusReportBlock, r.Legible ∧ r.serialize = payload
  | .custodySignal _ => ∃ r : CustodySignalBlock, r.Legible ∧ r.serialize = payload
  | body => ∃ body' : Body, body'.classType = body.classType ∧ body'.serialize = payload ∧
      ∀ b, body'.security? = some b → SecurityBlock.EidsPresent b.ciphersuiteFlags eids

theorem serialize_of_security {body : Body} {b : SecurityBlock} (h : body.security? = some b) :
    body.serialize = b.serialize := by
  cases body with
  | bundleAuthentication b' => exact congrArg SecurityBlock.serialize (Option.some.inj h)
  | payloadIntegrity b' size => exact congrArg SecurityBlock.serialize (Option.some.inj h)
  | payloadConfidential b' => exact congrArg SecurityBlock.serialize (Option.some.inj h)
  | extensionSecurity b' => exact congrArg SecurityBlock.serialize (Option.some.inj h)
  | _ => cases h

/-- The class reads what it takes: a payload that it read, and that it writes again. -/
theorem takes_of_run {blob : BLOB} {eids : List EID} {length : UInt64} {body body' : Body}
    {rest st : Bytes} {s : InStream} (h : (deserialize blob eids length).run
      (body, ⟨body'.serialize ++ rest, false, false, st⟩) = (.ok (), (body', s))) :
    body.Takes eids body'.serialize := by
  have hpresent (b : SecurityBlock) (hb : body'.security? = some b) :
      SecurityBlock.EidsPresent b.ciphersuiteFlags eids := eidsPresent_of_run h hb
  have hclass : body'.classType = body.classType := by
    have hkept := preserves_classType blob eids length body.classType
      (body, ⟨body'.serialize ++ rest, false, false, st⟩) rfl
    rwa [h] at hkept
  cases body with
  | payload bs => trivial
  | extension bs => trivial
  | statusReport old =>
      rw [deserialize, run_bind_ok (run_object _)] at h
      obtain ⟨r, t, hrun, hupdate⟩ := exists_of_run_bind h
      obtain ⟨-, hpair⟩ := Prod.mk.inj hupdate
      obtain ⟨rfl, -⟩ := Prod.mk.inj hpair
      exact ⟨r, StatusReportBlock.legible_of_run (congrArg Prod.fst hrun), rfl⟩
  | custodySignal old =>
      rw [deserialize, run_bind_ok (run_object _)] at h
      obtain ⟨r, t, hrun, hupdate⟩ := exists_of_run_bind h
      obtain ⟨-, hpair⟩ := Prod.mk.inj hupdate
      obtain ⟨rfl, -⟩ := Prod.mk.inj hpair
      exact ⟨r, CustodySignalBlock.legible_of_run (congrArg Prod.fst hrun), rfl⟩
  | _ => exact ⟨body', hclass, rfl, hpresent⟩

/-- **A new block reads what its class takes**, and writes it again. -/
theorem exists_loads_of_takes {blob : BLOB} (hblob : blob.CopiesExactly) {type : UInt8}
    {now : DTNTime} {body : Body} (hbody : body = (receiver type).body ∨
      body = .statusReport (.create now) ∨ body = .custodySignal (.create now))
    {eids : List EID} {payload : Bytes} {length : UInt64} (hlt : payload.length < 2 ^ 63)
    (hlength : body.isBlob = true → length = UInt64.ofNat payload.length)
    (htakes : body.Takes eids payload) :
    ∃ body', (deserialize blob eids length).Loads payload body body' () ∧
      body'.serialize = payload := by
  rcases hbody with rfl | rfl | rfl
  · cases hf : Factory.get type with
    | none =>
        by_cases htype : type = payloadType
        · have hreceiver : receiver type = newPayload := by
            rw [receiver, hf]
            exact if_pos htype
          rw [hreceiver] at hlength ⊢
          rw [hlength rfl]
          exact ⟨_, (loads_object _).bind_nil (loads_blob hblob (by omega) .payload _), rfl⟩
        · have hreceiver : receiver type = newExtension := by
            rw [receiver, hf]
            exact if_neg htype
          rw [hreceiver] at hlength ⊢
          rw [hlength rfl]
          exact ⟨_, (loads_object _).bind_nil (loads_blob hblob (by omega) .extension _), rfl⟩
    | some n =>
        have hreceiver : (receiver type).body = n.body := by rw [receiver, hf]
        have hnot := Factory.isBlob_of_get hf
        obtain ⟨body', hclass, rfl, hpresent⟩ : ∃ body' : Body,
            body'.classType = some type ∧ body'.serialize = payload ∧
              ∀ b, body'.security? = some b →
                SecurityBlock.EidsPresent b.ciphersuiteFlags eids := by
          have hclass := Factory.classType_of_get hf
          rw [hreceiver] at htakes
          have hmem := List.mem_of_find?_eq_some hf
          rw [← hclass]
          simp only [List.mem_cons, List.not_mem_nil, or_false] at hmem
          rcases hmem with rfl | rfl | rfl | rfl | rfl | rfl | rfl | rfl <;> exact htakes
        have hfits : body'.SecurityFits eids := fun b hb =>
          ⟨hpresent b hb, SecurityBlock.fits_of_length (by rwa [serialize_of_security hb] at hlt)⟩
        have hload := loads_deserialize hblob (.inl hclass) hfits (by omega)
        refine ⟨_, fun r st => ?_, serialize_received eids body'⟩
        rw [hreceiver, run_deserialize_length hnot blob eids length (UInt64.ofNat body'.getLength),
          ← hreceiver]
        exact hload r st
  · obtain ⟨r, hlegible, rfl⟩ := htakes
    have hsource : r.source.getString.length < 2 ^ 63 := by
      rw [StatusReportBlock.length_serialize, StatusReportBlock.getLength,
        BundleString.getLength] at hlt
      omega
    have hread := ((StatusReportBlock.restored_iff_legible hsource).2 hlegible).2 (.create now)
    refine ⟨.statusReport (r.into (.create now)), ?_, r.serialize_into _⟩
    exact (loads_object _).bind_nil ((loads_ofParser hread _).then_nil (loads_update _ _))
  · obtain ⟨r, hlegible, rfl⟩ := htakes
    have hsource : r.source.getString.length < 2 ^ 63 := by
      rw [CustodySignalBlock.length_serialize, CustodySignalBlock.getLength,
        BundleString.getLength] at hlt
      omega
    have hread := ((CustodySignalBlock.restored_iff_legible hsource).2 hlegible).2 (.create now)
    refine ⟨.custodySignal (r.into (.create now)), ?_, r.serialize_into _⟩
    exact (loads_object _).bind_nil ((loads_ofParser hread _).then_nil (loads_update _ _))

end Body

namespace Block

/-- The flags that a block has when its payload was read by the class of the new block `n`. -/
def markedBy (n b : Block) : UInt64 :=
  match n.body.forwardedMark with
  | some value => FlagWord.assign b.procflags forwardedWithoutProcessed value
  | none => b.procflags

/-- The mark leaves the flags alone exactly if it is there already. -/
theorem markedBy_eq_iff (n b : Block) : n.markedBy b = b.procflags ↔
    ∀ value ∈ n.body.forwardedMark, b.get forwardedWithoutProcessed = value := by
  rw [markedBy]
  cases n.body.forwardedMark with
  | none => exact iff_of_true rfl (by rintro value ⟨⟩)
  | some value =>
      dsimp only
      constructor
      · rintro h _ ⟨⟩
        rw [get, ← h]
        exact FlagWord.has_assign_self (by decide) value
      · intro h
        exact FlagWord.assign_of_has ⟨5, by decide, by decide⟩ (h value rfl)

theorem run_deserialize (blob : BLOB) (length : UInt64) (o : Block) (s : InStream) :
    (deserialize blob length).run (o, s) =
      match (Body.deserialize blob o.eids length).run (o.body, s) with
      | (.ok _, (body, s')) => (.ok (), (⟨o.blocktype, o.markedBy o, o.eids, body⟩, s'))
      | (.error e, (body, s')) => (.error e, ({ o with body }, s')) := by
  rw [deserialize, run_bind_ok (run_object _), run_bind, run_within]
  rcases (Body.deserialize blob o.eids length).run (o.body, s) with ⟨e | u, body, s'⟩
  · rfl
  · dsimp only
    rw [markedBy]
    cases o.body.forwardedMark <;> rfl

/-- The blocks of a bundle: the type fits the class, unless this holds a BLOB, and the counts and
the lengths are those of containers in memory. -/
structure Storable (b : Block) : Prop where
  hasType : b.body.HasType b.blocktype ∨ b.body.isBlob = true
  eids_lt : b.eids.length < 2 ^ 64
  texts_lt : ∀ e ∈ b.eids, e.getString.length < 2 ^ 63
  payload_lt : b.body.serialize.length < 2 ^ 63

/-- The announced length is the one of the payload, for the types without a factory. -/
theorem Storable.getLength_eq {b : Block} (hb : b.Storable) (hf : Factory.get b.blocktype = none) :
    b.body.getLength = b.body.serialize.length := by
  have hfactory {t : UInt8} (hclass : b.body.classType = some t) (hblob : b.body.isBlob = false) :
      Factory.get t = none := by
    rcases hb.hasType with h | h
    · rwa [← h.eq_of_classType hclass]
    · exact absurd (hblob.symm.trans h) Bool.false_ne_true
  cases hbody : b.body with
  | payload bs => rfl
  | extension bs => rfl
  | statusReport r => exact r.length_serialize.symm
  | custodySignal r => exact r.length_serialize.symm
  | _ =>
      rw [hbody] at hfactory
      exact absurd (hfactory rfl rfl) (by decide)

/-- The block has the type, the flags, the EIDs and the payload of another one. -/
structure Equals (b b' : Block) : Prop where
  blocktype : b.blocktype = b'.blocktype
  procflags : b.procflags = b'.procflags
  eids : b.eids = b'.eids
  payload : b.body.serialize = b'.body.serialize

/-- The texts of the EIDs give them back exactly if the flags announce them and each EID is read
back from its text. -/
theorem textEIDs_eq_iff (b : Block) :
    b.textEIDs = b.eids ↔ ∀ e ∈ b.eids, b.get blockContainsEids = true ∧ e.Readable := by
  rw [textEIDs]
  split_ifs with hflag
  · rw [← List.map_id b.eids, List.map_map, List.map_inj_left, List.map_id]
    exact forall₂_congr fun e _ => (and_iff_right hflag).symm
  · constructor
    · intro h e he
      rw [← h] at he
      cases he
    · intro h
      rcases heids : b.eids with _ | ⟨e, es⟩
      · rfl
      · exact absurd (h e (heids ▸ List.mem_cons_self)).1 hflag

end Block

theorem Bundle.length_append (bundle : Bundle) (block : Block) :
    (bundle.append block).blocks.length = bundle.blocks.length + 1 := by
  rw [append, List.length_append, List.length_singleton, BlockList.unmarkBack]
  rcases bundle.blocks.eq_nil_or_concat with h | ⟨bs, last, h⟩
  · rw [h]
    rfl
  · rw [h, List.concat_eq_append, List.getLast?_concat]
    simp

/-- A block that is appended when a temporary one was removed comes behind the blocks before. -/
theorem Bundle.append_remove_append (bundle : Bundle) (t b : Block) :
    ((bundle.append t).remove ((bundle.append t).blocks.length - 1)).append b =
      bundle.append b := by
  have hremove : BlockList.remove (bundle.append t).blocks ((bundle.append t).blocks.length - 1) =
      BlockList.markBack (BlockList.unmarkBack bundle.blocks) := by
    rw [Bundle.append, BlockList.remove_back]
  rw [Bundle.append, Bundle.remove, hremove, BlockList.unmarkBack_markBack,
    BlockList.unmarkBack_unmarkBack]
  rfl

namespace SeparateDeserializer

variable (env : DeserializerEnv)

/-! ### The parts of a file -/

/-- The members of `Block`, and the length of the payload. -/
def readHeader : Loader Exn Block UInt64 := do
  let b ← Loader.object
  let blocktype ← ofParser (Parser.getByte (some b.blocktype))
  Loader.update fun b => { b with blocktype }
  let procflags ← ofParser SDNV.read
  Loader.update fun b => { b with procflags }
  readTextList procflags
  ofParser SDNV.read

theorem read_eq : read env = (do
    let blockSize ← readHeader
    let b ← Loader.object
    MonadExcept.ofExcept (env.validator.block b blockSize)
    Block.deserialize env.blob blockSize) := by
  simp only [read, readHeader, bind_assoc]

/-- A file with a block, and bytes behind it. -/
abbrev file (b : Block) (rest st : Bytes) : InStream :=
  ⟨SeparateSerializer.writeBlock b ++ rest, false, false, st⟩

/-- The bytes in front of the payload. -/
def header (b : Block) : Bytes :=
  b.blocktype :: (SDNV.write b.procflags ++
    (optional (b.get Block.blockContainsEids)
        (SDNV.write (UInt64.ofNat b.eids.length) ++ SeparateSerializer.writeEIDs b.eids) ++
      SDNV.write (UInt64.ofNat b.body.getLength)))

theorem writeBlock_eq (b : Block) :
    SeparateSerializer.writeBlock b = header b ++ b.body.serialize := by
  simp only [SeparateSerializer.writeBlock, header, List.cons_append, List.append_assoc]

theorem loads_readHeader {b n : Block} (hb : b.Storable)
    (hfew : b.get Block.blockContainsEids = true → b.eids.length < 2 ^ 32) (hn : n.eids = []) :
    readHeader.Loads (header b) n ⟨b.blocktype, b.procflags, b.textEIDs, n.body⟩
      (UInt64.ofNat b.body.getLength) := by
  have htexts : (readTextList b.procflags).Loads
      (optional (b.get Block.blockContainsEids)
        (SDNV.write (UInt64.ofNat b.eids.length) ++ SeparateSerializer.writeEIDs b.eids))
      { n with blocktype := b.blocktype, procflags := b.procflags }
      ⟨b.blocktype, b.procflags, b.textEIDs, n.body⟩ () := by
    cases hflag : b.get Block.blockContainsEids with
    | false =>
        rw [readTextList, ← Block.get, hflag, Block.textEIDs, hflag, ← hn]
        exact Loader.loads_pure () _
    | true =>
        have hload := loads_readTextList (b := b)
          (n := { n with blocktype := b.blocktype, procflags := b.procflags }) rfl hn (hfew hflag)
          hb.texts_lt
        rwa [hflag] at hload
  refine (loads_object _).bind_nil ?_
  refine (loads_ofParser (Parser.reads_getByte _ b.blocktype) _).bind_cons
    ((loads_update _ _).bind_nil ?_)
  refine (loads_ofParser (SDNV.reads_read b.procflags) _).bind ((loads_update _ _).bind_nil ?_)
  exact htexts.bind (loads_ofParser (SDNV.reads_read _) _)

/-- A loop that leaves off before the last EID is followed by what throws. -/
theorem run_readTexts_throw {eids : List EID} {b : Block} {e : Exn} {count : ℕ}
    (hcount : count ≤ eids.length) (heids : ∀ e ∈ eids, e.getString.length < 2 ^ 63)
    (hb : b.procflags &&& Block.blockContainsEids = Block.blockContainsEids) (rest st : Bytes) :
    ∃ t, (readTexts count >>= fun _ => throw e : Loader Exn Block Unit).run
      (b, ⟨SeparateSerializer.writeEIDs eids ++ rest, false, false, st⟩) = (.error e, t) := by
  have hlt : ∀ e ∈ eids.take count, e.getString.length < 2 ^ 63 :=
    fun e he => heids e (List.mem_of_mem_take he)
  have hload := loads_readTexts hlt hb
  rw [List.length_take_of_le hcount] at hload
  have hsplit : SeparateSerializer.writeEIDs eids ++ rest =
      SeparateSerializer.writeEIDs (eids.take count) ++
        (SeparateSerializer.writeEIDs (eids.drop count) ++ rest) := by
    rw [← List.append_assoc, SeparateSerializer.writeEIDs, SeparateSerializer.writeEIDs,
      SeparateSerializer.writeEIDs, ← List.flatMap_append, List.take_append_drop]
  rw [hsplit, run_bind_ok (hload _ _)]
  exact ⟨_, rfl⟩

/-- **The reader does not come back from too many EIDs.** -/
theorem run_readHeader_of_many {b n : Block} (hb : b.Storable)
    (hflag : b.get Block.blockContainsEids = true) (hmany : 2 ^ 32 ≤ b.eids.length)
    (rest st : Bytes) : ∃ e t,
      readHeader.run (n, file b rest st) =
        (.error e, t) ∧ e.isException = false := by
  have hnat : (UInt64.ofNat b.eids.length).toNat = b.eids.length :=
    EID.toNat_ofNat_of_lt hb.eids_lt
  have hbit : b.procflags &&& Block.blockContainsEids = Block.blockContainsEids :=
    FlagWord.and_eq_of_has ⟨6, by decide, by decide⟩ hflag
  have hlist (r : Bytes) : ∃ t, (readTextList b.procflags).run
      ({ n with blocktype := b.blocktype, procflags := b.procflags },
        ⟨SDNV.write (UInt64.ofNat b.eids.length) ++
          (SeparateSerializer.writeEIDs b.eids ++ r), false, false, st⟩) =
        (.error (.diverges "32-bit counter of the EIDs of a block"), t) := by
    rw [readTextList, ← Block.get, if_pos hflag,
      run_bind_ok (loads_ofParser (SDNV.reads_read _) _ _ st), hnat,
      if_neg (not_lt.2 hmany)]
    exact run_readTexts_throw (b := { n with blocktype := b.blocktype, procflags := b.procflags })
      hmany hb.texts_lt hbit r st
  have hwrite : SeparateSerializer.writeBlock b ++ rest = [b.blocktype] ++
      (SDNV.write b.procflags ++ (SDNV.write (UInt64.ofNat b.eids.length) ++
        (SeparateSerializer.writeEIDs b.eids ++ (SDNV.write (UInt64.ofNat b.body.getLength) ++
          (b.body.serialize ++ rest))))) := by
    simp only [SeparateSerializer.writeBlock, hflag, optional, if_true, List.cons_append,
      List.nil_append, List.append_assoc]
  obtain ⟨t, hrun⟩ := hlist (SDNV.write (UInt64.ofNat b.body.getLength) ++
    (b.body.serialize ++ rest))
  refine ⟨.diverges "32-bit counter of the EIDs of a block", t, ?_, rfl⟩
  rw [readHeader, run_bind_ok (run_object _), file, hwrite,
    run_bind_ok (loads_ofParser (Parser.reads_getByte _ b.blocktype) n _ st),
    run_bind_ok (run_update _ _),
    run_bind_ok (loads_ofParser (SDNV.reads_read b.procflags) _ _ st),
    run_bind_ok (run_update _ _), run_bind, hrun]

section Reading

variable {env : DeserializerEnv} (hvalid : ∀ b size, env.validator.block b size = .ok ())

include hvalid

/-- **A file is read as far as the class of the new block reads its payload**, and the block is
appended to the bundle, also when the class throws. -/
theorem run_pushAndRead {b n : Block} (hb : b.Storable)
    (hfew : b.get Block.blockContainsEids = true → b.eids.length < 2 ^ 32) (hn : n.eids = [])
    (bundle : Bundle) (rest st : Bytes) :
    (pushAndRead env n).run (bundle, file b rest st) =
      match (Body.deserialize env.blob b.textEIDs (UInt64.ofNat b.body.getLength)).run
          (n.body, ⟨b.body.serialize ++ rest, false, false, st⟩) with
      | (.ok _, (body, s)) => (.ok ⟨b.blocktype, n.markedBy b, b.textEIDs, body⟩,
          (bundle.append ⟨b.blocktype, n.markedBy b, b.textEIDs, body⟩, s))
      | (.error e, (body, s)) =>
          (.error e, (bundle.append ⟨b.blocktype, b.procflags, b.textEIDs, body⟩, s)) := by
  have hread : (read env).run (n.set lastBlock true, file b rest st) =
      (Block.deserialize env.blob (UInt64.ofNat b.body.getLength)).run
        (⟨b.blocktype, b.procflags, b.textEIDs, n.body⟩,
          ⟨b.body.serialize ++ rest, false, false, st⟩) := by
    have hheader := loads_readHeader (n := n.set lastBlock true) hb hfew hn
    rw [read_eq, file, writeBlock_eq, List.append_assoc, run_bind_ok (hheader _ st),
      run_bind_ok (run_object _), hvalid]
    rfl
  rw [pushAndRead, run_bind_ok (run_update _ _), run_within,
    run_bind, hread, Block.run_deserialize]
  rcases (Body.deserialize env.blob b.textEIDs (UInt64.ofNat b.body.getLength)).run
    (n.body, ⟨b.body.serialize ++ rest, false, false, st⟩) with ⟨e | u, body, s⟩
  · dsimp only
    rw [pushBack_setBack]
  · dsimp only
    rw [run_object, pushBack_setBack]
    rfl

omit hvalid in
/-- Whatever happens, one block was appended. -/
theorem exists_append_of_run (env : DeserializerEnv) (n : Block) (x : Bundle × InStream) :
    ∃ b, ((pushAndRead env n).run x).2.1 = x.1.append b := by
  rw [pushAndRead, run_bind_ok (run_update _ _), run_within]
  exact ⟨_, pushBack_setBack _ _ _⟩

end Reading

/-! ### What is asked of the reader -/

/-- The record that the first byte of a payload selects. -/
def record? (now : DTNTime) : Bytes → Option Block
  | c :: _ =>
      if c >>> 4 = 1 then some (Block.newStatusReport now)
      else if c >>> 4 = 2 then some (Block.newCustodySignal now)
      else none
  | [] => none

/-- The new block that a block of the bundle is read into, if there is a class for it. -/
def reader (bundle : Bundle) (b : Block) : Option Block :=
  if b.blocktype = payloadType ∧ bundle.get PrimaryBlock.appdataIsAdmrecord = true then
    record? env.now b.body.serialize
  else some (receiver b.blocktype)

/-- The blocks that the reader accepts: the type is not zero, and there is a class for them. -/
def Accepts (bundle : Bundle) (b : Block) : Prop :=
  b.blocktype ≠ 0 ∧ (reader env bundle b).isSome = true

/-- What is asked of one call, when bytes follow the file. A block that was returned is the one that
was written, and the last one of the bundle; a block that was removed is not returned; and only a
block that is not accepted makes the reader throw, which leaves the bundle as it was. -/
def Answers (bundle : Bundle) (b : Block) (rest : Bytes) :
    Except Exn (Option Block) × (Bundle × InStream) → Prop
  | (.ok (some b'), (bundle', s)) =>
      bundle' = bundle.append b' ∧ b'.Equals b ∧ s.rest = rest ∧ s.good = true
  | (.ok none, _) => False
  | (.error e, (bundle', _)) =>
      ¬ Accepts env bundle b ∧ e.isException = true ∧ bundle' = bundle

/-- **What is asked of the reader**, for every content of memory that is not initialised. -/
def Recovers (bundle : Bundle) (b : Block) : Prop :=
  ∀ rest st, Answers env bundle b rest ((readBlock env).run (bundle, file b rest st))

/-- The blocks that come back when they are read into the new block `n`: the flags announce the
EIDs, of which there are not too many and each is read back from its text; the mark that the class
sets or clears is as it leaves it; and the class takes the payload. -/
structure Recoverable (n b : Block) : Prop where
  eids_lt : b.get Block.blockContainsEids = true → b.eids.length < 2 ^ 32
  eids : ∀ e ∈ b.eids, b.get Block.blockContainsEids = true ∧ e.Readable
  flags : ∀ value ∈ n.body.forwardedMark, b.get Block.forwardedWithoutProcessed = value
  payload : n.body.Takes b.eids b.body.serialize

section Recovery

variable {env}

/-- The new block has no EIDs of its own, and its class is the one of a factory, or one of the
records in an administrative bundle. -/
theorem reader_eq {bundle : Bundle} {b n : Block} (h : reader env bundle b = some n) :
    n.eids = [] ∧ (n.body = (receiver b.blocktype).body ∨
      n.body = .statusReport (.create env.now) ∨ n.body = .custodySignal (.create env.now)) := by
  rw [reader] at h
  split_ifs at h
  · rw [record?.eq_def] at h
    split at h
    · split_ifs at h
      · obtain rfl := Option.some.inj h
        exact ⟨rfl, .inr (.inl rfl)⟩
      · obtain rfl := Option.some.inj h
        exact ⟨rfl, .inr (.inr rfl)⟩
    · cases h
  · obtain rfl := Option.some.inj h
    refine ⟨?_, .inl rfl⟩
    rw [receiver]
    split
    · next n hf => exact Factory.eids_of_get hf
    · split_ifs <;> rfl

/-- A class that holds a BLOB is chosen only for types without a factory. -/
theorem factory_of_isBlob {bundle : Bundle} {b n : Block} (h : reader env bundle b = some n)
    (hblob : n.body.isBlob = true) : Factory.get b.blocktype = none := by
  rcases (reader_eq h).2 with hn | hn | hn
  · rw [hn, receiver] at hblob
    cases hf : Factory.get b.blocktype with
    | none => rfl
    | some m =>
        rw [hf] at hblob
        exact absurd ((Factory.isBlob_of_get hf).symm.trans hblob) Bool.false_ne_true
  · rw [hn] at hblob
    cases hblob
  · rw [hn] at hblob
    cases hblob

variable (hvalid : ∀ b size, env.validator.block b size = .ok ())

include hvalid

/-- **A block is appended as it was written exactly if** it can be recovered. -/
theorem pushAndRead_iff (hblob : env.blob.CopiesExactly) {bundle : Bundle} {b n : Block}
    (hb : b.Storable) (hn : reader env bundle b = some n)
    (hfew : b.get Block.blockContainsEids = true → b.eids.length < 2 ^ 32) (bundle' : Bundle)
    (rest st : Bytes) :
    (∃ b' s, (pushAndRead env n).run (bundle', file b rest st) =
        (.ok b', (bundle'.append b', s)) ∧ b'.Equals b ∧ s.rest = rest ∧ s.good = true) ↔
      Recoverable n b := by
  rw [run_pushAndRead hvalid hb hfew (reader_eq hn).1]
  constructor
  · rintro ⟨b', s, hrun, hequals, -, -⟩
    rcases hbody : (Body.deserialize env.blob b.textEIDs (UInt64.ofNat b.body.getLength)).run
      (n.body, ⟨b.body.serialize ++ rest, false, false, st⟩) with ⟨e | u, body, t⟩
    · rw [hbody] at hrun
      cases hrun
    · rw [hbody] at hrun
      obtain ⟨hb', -⟩ := Prod.mk.inj hrun
      obtain rfl := Except.ok.inj hb'
      have hpayload : body.serialize = b.body.serialize := hequals.payload
      have heids : b.textEIDs = b.eids := hequals.eids
      rw [← hpayload, heids] at hbody
      refine ⟨hfew, b.textEIDs_eq_iff.1 heids, (n.markedBy_eq_iff b).1 hequals.procflags, ?_⟩
      rw [← hpayload]
      exact Body.takes_of_run hbody
  · intro h
    have heids : b.textEIDs = b.eids := b.textEIDs_eq_iff.2 h.eids
    have hflags : n.markedBy b = b.procflags := (n.markedBy_eq_iff b).2 h.flags
    have hlength (hisBlob : n.body.isBlob = true) :
        UInt64.ofNat b.body.getLength = UInt64.ofNat b.body.serialize.length := by
      rw [hb.getLength_eq (factory_of_isBlob hn hisBlob)]
    obtain ⟨body, hload, hpayload⟩ :=
      Body.exists_loads_of_takes hblob (reader_eq hn).2 hb.payload_lt hlength h.payload
    rw [heids, hload rest st]
    exact ⟨_, _, rfl, ⟨rfl, hflags, rfl, hpayload⟩, rfl, rfl⟩

omit hvalid in
/-- The type of the block is the first byte of its file. -/
theorem run_peek (bundle : Bundle) (b : Block) (rest st : Bytes) :
    (ofParser Parser.peekByte : Loader Exn Bundle (Option UInt8)).run
      (bundle, file b rest st) = (.ok (some b.blocktype), (bundle, file b rest st)) := rfl

omit hvalid in
/-- A block of type zero is refused. -/
theorem run_readBlock_of_zero {b : Block} (hzero : b.blocktype = 0) (bundle : Bundle)
    (rest st : Bytes) :
    (readBlock env).run (bundle, file b rest st) =
      (.error (.invalidData "block type is zero"), (bundle, file b rest st)) := by
  rw [readBlock, run_bind_ok (run_peek bundle b rest st)]
  simp only [Option.getD_some, if_pos hzero]
  rfl

omit hvalid in
/-- The payload block of an administrative bundle is read as a record. -/
theorem run_readBlock_of_record {bundle : Bundle} {b : Block}
    (htype : b.blocktype = payloadType)
    (hadm : bundle.get PrimaryBlock.appdataIsAdmrecord = true) (rest st : Bytes) :
    (readBlock env).run (bundle, file b rest st) =
      (readRecord env).run (bundle, file b rest st) := by
  have hzero : b.blocktype ≠ 0 := by
    rw [htype]
    decide
  rw [readBlock, run_bind_ok (run_peek bundle b rest st)]
  simp only [Option.getD_some, if_neg hzero, if_pos htype]
  rw [run_bind_ok (run_object _), if_pos hadm]

omit hvalid in
/-- Another block is read by the class for its type. What the class of a factory throws is caught,
and a plain extension block is read from where it left off. -/
theorem run_readBlock_of_receiver {bundle : Bundle} {b : Block} (hzero : b.blocktype ≠ 0)
    (hnot : ¬ (b.blocktype = payloadType ∧
      bundle.get PrimaryBlock.appdataIsAdmrecord = true)) (rest st : Bytes) :
    (readBlock env).run (bundle, file b rest st) =
      match (pushAndRead env (receiver b.blocktype)).run (bundle, file b rest st) with
      | (.ok b', t) => (.ok (some b'), t)
      | (.error e, t) =>
          if (Factory.get b.blocktype).isSome = true ∧ e.isException = true then
            (some <$> pushAndRead env newExtension).run t
          else (.error e, t) := by
  rw [readBlock, run_bind_ok (run_peek bundle b rest st)]
  simp only [Option.getD_some, if_neg hzero]
  by_cases htype : b.blocktype = payloadType
  · have hadm : ¬ bundle.get PrimaryBlock.appdataIsAdmrecord = true := fun h => hnot ⟨htype, h⟩
    have hfactory : Factory.get b.blocktype = none := by
      rw [htype]
      decide
    have hreceiver : receiver b.blocktype = newPayload := by
      rw [receiver, hfactory]
      exact if_pos htype
    rw [if_pos htype, run_bind_ok (run_object _), if_neg hadm, run_map,
      hreceiver, hfactory]
    rcases (pushAndRead env newPayload).run (bundle, file b rest st) with ⟨e | b', t⟩ <;> rfl
  · rw [if_neg htype, Loader.run_tryCatch]
    cases hf : Factory.get b.blocktype with
    | none =>
        have hreceiver : receiver b.blocktype = newExtension := by
          rw [receiver, hf]
          exact if_neg htype
        rw [hreceiver]
        dsimp only
        rw [Loader.run_throw]
        simp only [Exn.isException, if_true]
        rw [run_map]
        rcases (pushAndRead env newExtension).run (bundle, file b rest st) with
          ⟨e | b', t⟩ <;> rfl
    | some n =>
        have hreceiver : receiver b.blocktype = n := by rw [receiver, hf]
        rw [hreceiver]
        dsimp only
        rw [run_map]
        rcases (pushAndRead env n).run (bundle, file b rest st) with ⟨e | b', t⟩
        · dsimp only [Except.map, Option.isSome]
          by_cases he : e.isException = true
          · rw [if_pos he, if_pos ⟨rfl, he⟩]
          · rw [if_neg he, if_neg fun h => he h.2]
            rfl
        · rfl

omit hvalid in
/-- The place where the file begins is remembered. -/
theorem run_tell (bundle : Bundle) (b : Block) (rest st : Bytes) :
    (ofParser (Parser.ofRun fun s => (.ok s.rest, s)) : Loader Exn Bundle Bytes).run
      (bundle, file b rest st) =
        (.ok (SeparateSerializer.writeBlock b ++ rest), (bundle, file b rest st)) := rfl

omit hvalid in
/-- The first byte of a payload selects the record, a stale byte if there is none. -/
theorem run_admfield (payload : Bytes) (o : Bundle) (rest : Bytes) {st : Bytes}
    (hstale : payload = [] → st = []) :
    (ofParser (match payload with
      | b :: _ => (pure b : Parser Exn UInt8)
      | [] => Parser.ofRun fun s => (.ok s.popStale.1, s.popStale.2))).run
        (o, ⟨rest, false, false, st⟩) = (.ok (payload.headD 0), (o, ⟨rest, false, false, st⟩)) := by
  cases payload with
  | nil =>
      obtain rfl := hstale rfl
      rfl
  | cons c bs => rfl

/-- **A record is read into a temporary block first**, which is removed again. -/
theorem exists_run_readRecord (hblob : env.blob.CopiesExactly) {b : Block} (hb : b.Storable)
    (hfew : b.get Block.blockContainsEids = true → b.eids.length < 2 ^ 32)
    (htype : b.blocktype = payloadType) (bundle : Bundle) (rest st : Bytes)
    (hstale : b.body.serialize = [] → st = []) :
    ∃ bundle', (∀ b', bundle'.append b' = bundle.append b') ∧
      (readRecord env).run (bundle, file b rest st) =
        match record? env.now b.body.serialize with
        | some n => (some <$> pushAndRead env n).run (bundle', file b rest st)
        | none => (.ok none, (bundle', file b rest st)) := by
  have hlength := hb.getLength_eq (by rw [htype]; decide)
  have hload : (Body.deserialize env.blob b.textEIDs (UInt64.ofNat b.body.getLength)).Loads
      b.body.serialize (.extension []) (.extension b.body.serialize) () := by
    rw [hlength]
    exact (loads_object _).bind_nil
      (Body.loads_blob hblob (hb.payload_lt.trans (by decide)) .extension _)
  have hpush := run_pushAndRead hvalid hb hfew (n := newExtension) rfl bundle rest st
  rw [show newExtension.body = .extension [] from rfl, hload rest st] at hpush
  refine ⟨_, Bundle.append_remove_append bundle ⟨b.blocktype, newExtension.markedBy b,
    b.textEIDs, .extension b.body.serialize⟩, ?_⟩
  have hseek (o : Bundle) : (ofParser (seek (SeparateSerializer.writeBlock b ++ rest))).run
      (o, ⟨rest, false, false, st⟩) =
      (.ok (), (o, file b rest st)) := rfl
  rw [readRecord, run_bind_ok (run_tell bundle b rest st), run_bind_ok hpush]
  refine (run_bind_ok (run_admfield b.body.serialize _ rest hstale)).trans ?_
  rw [run_bind_ok (run_update _ _), run_bind_ok (hseek _)]
  cases hpayload : b.body.serialize with
  | nil => rfl
  | cons c bs =>
      rw [record?, List.headD_cons]
      split_ifs <;> rfl

omit hvalid in
/-- Too many EIDs keep the reader of any block. -/
theorem exists_run_readBlock_of_many (bundle : Bundle) {b : Block} (hb : b.Storable)
    (hzero : b.blocktype ≠ 0) (hflag : b.get Block.blockContainsEids = true)
    (hmany : 2 ^ 32 ≤ b.eids.length) (rest st : Bytes) : ∃ e t,
      (readBlock env).run (bundle, file b rest st) =
        (.error e, t) ∧ e.isException = false := by
  have hpush (n : Block) : ∃ e t, (pushAndRead env n).run (bundle, file b rest st) =
      (.error e, t) ∧ e.isException = false := by
    obtain ⟨e, t, hrun, he⟩ := run_readHeader_of_many (n := n.set lastBlock true) hb hflag
      hmany rest st
    refine ⟨e, (bundle.append t.1, t.2), ?_, he⟩
    rw [pushAndRead, run_bind_ok (run_update _ _), run_within, read_eq,
      run_bind, run_bind, hrun]
    dsimp only
    rw [pushBack_setBack]
  by_cases hrecord : b.blocktype = payloadType ∧
      bundle.get PrimaryBlock.appdataIsAdmrecord = true
  · obtain ⟨e, t, hrun, he⟩ := hpush newExtension
    refine ⟨e, t, ?_, he⟩
    rw [run_readBlock_of_record hrecord.1 hrecord.2, readRecord,
      run_bind_ok (run_tell bundle b rest st),
      run_bind, hrun]
  · obtain ⟨e, t, hrun, he⟩ := hpush (receiver b.blocktype)
    refine ⟨e, t, ?_, he⟩
    rw [run_readBlock_of_receiver hzero hrecord, hrun]
    exact if_neg fun h => Bool.false_ne_true (he.symm.trans h.2)

omit hvalid in
/-- Of a block that comes back, the EIDs can be counted. -/
theorem eids_lt_of_recovers {bundle : Bundle} {b : Block} (hb : b.Storable)
    (hzero : b.blocktype ≠ 0) (h : Recovers env bundle b)
    (hflag : b.get Block.blockContainsEids = true) : b.eids.length < 2 ^ 32 := by
  by_contra hmany
  obtain ⟨e, t, hrun, he⟩ := exists_run_readBlock_of_many bundle hb hzero
    hflag (not_lt.1 hmany) [] []
  have hanswer := h [] []
  rw [hrun] at hanswer
  exact Bool.false_ne_true (he.symm.trans hanswer.2.1)

/-- A record comes back from its file exactly if there is a class for it that reads it. -/
theorem record_recovers_iff (hblob : env.blob.CopiesExactly) {bundle : Bundle} {b : Block}
    (hb : b.Storable) (hzero : b.blocktype ≠ 0)
    (hrecord : b.blocktype = payloadType ∧
      bundle.get PrimaryBlock.appdataIsAdmrecord = true) :
    Recovers env bundle b ↔ ∃ n ∈ reader env bundle b, Recoverable n b := by
  have hreader : reader env bundle b = record? env.now b.body.serialize := if_pos hrecord
  constructor
  · intro h
    have hfew := eids_lt_of_recovers hb hzero h
    obtain ⟨bundle', happend, hrun⟩ := exists_run_readRecord hvalid hblob hb hfew
      hrecord.1 bundle [] [] fun _ => rfl
    have hanswer := h [] []
    rw [run_readBlock_of_record hrecord.1 hrecord.2, hrun] at hanswer
    cases hrecord? : record? env.now b.body.serialize with
    | none =>
        rw [hrecord?] at hanswer
        exact hanswer.elim
    | some n =>
        rw [hrecord?] at hanswer
        dsimp only at hanswer
        rw [run_map] at hanswer
        have hn := hreader.trans hrecord?
        rcases hpush : (pushAndRead env n).run (bundle', file b [] []) with ⟨e | b', o, s⟩
        · rw [hpush] at hanswer
          exact absurd ⟨hzero, by rw [hn]; rfl⟩ hanswer.1
        · rw [hpush] at hanswer
          obtain ⟨rfl, hequals, hrest, hgood⟩ := hanswer
          refine ⟨n, hn, (pushAndRead_iff hvalid hblob hb hn hfew bundle' [] []).1
            ⟨b', s, ?_, hequals, hrest, hgood⟩⟩
          rw [hpush, happend]
  · rintro ⟨n, hn, hrecoverable⟩ rest st
    obtain ⟨bundle', happend, hrun⟩ := exists_run_readRecord hvalid hblob hb
      hrecoverable.eids_lt hrecord.1 bundle rest st fun hnil => by
        rw [hreader, hnil] at hn
        cases hn
    obtain ⟨b', s, hpush, hequals, hrest, hgood⟩ := (pushAndRead_iff hvalid hblob hb hn
      hrecoverable.eids_lt bundle' rest st).2 hrecoverable
    rw [run_readBlock_of_record hrecord.1 hrecord.2, hrun, hreader.symm.trans hn]
    dsimp only
    rw [run_map, hpush]
    exact ⟨happend b', hequals, hrest, hgood⟩

/-- Another block comes back exactly if the class for its type reads it: when a plain block is read
after an exception, the block of the factory is still there. -/
theorem receiver_recovers_iff (hblob : env.blob.CopiesExactly) {bundle : Bundle} {b : Block}
    (hb : b.Storable) (hzero : b.blocktype ≠ 0)
    (hrecord : ¬ (b.blocktype = payloadType ∧
      bundle.get PrimaryBlock.appdataIsAdmrecord = true)) :
    Recovers env bundle b ↔ ∃ n ∈ reader env bundle b, Recoverable n b := by
  have hreader : reader env bundle b = some (receiver b.blocktype) := if_neg hrecord
  have haccepts : Accepts env bundle b := ⟨hzero, by rw [hreader]; rfl⟩
  constructor
  · intro h
    have hfew := eids_lt_of_recovers hb hzero h
    have hanswer := h [] []
    rw [run_readBlock_of_receiver hzero hrecord] at hanswer
    rcases hpush : (pushAndRead env (receiver b.blocktype)).run (bundle, file b [] []) with
      ⟨e | b', o, s⟩
    · rw [hpush] at hanswer
      dsimp only at hanswer
      split_ifs at hanswer
      · -- The block of the factory stays in the bundle, with another one behind it.
        obtain ⟨x, hx⟩ := exists_append_of_run env (receiver b.blocktype)
          (bundle, file b [] [])
        rw [hpush] at hx
        obtain ⟨y, hy⟩ := exists_append_of_run env newExtension (o, s)
        rw [run_map] at hanswer
        rcases hagain : (pushAndRead env newExtension).run (o, s) with ⟨e' | b', o', s'⟩
        · rw [hagain] at hanswer
          exact absurd haccepts hanswer.1
        · rw [hagain] at hanswer hy
          have hone := congrArg (fun bundle => bundle.blocks.length) hanswer.1
          have htwo := congrArg (fun bundle => bundle.blocks.length) hy
          have hfirst := congrArg (fun bundle => bundle.blocks.length) hx
          simp only [Bundle.length_append] at hone htwo hfirst
          omega
      · exact absurd haccepts hanswer.1
    · rw [hpush] at hanswer
      obtain ⟨rfl, hequals, hrest, hgood⟩ := hanswer
      exact ⟨_, hreader, (pushAndRead_iff hvalid hblob hb hreader hfew bundle [] []).1
        ⟨b', s, hpush, hequals, hrest, hgood⟩⟩
  · rintro ⟨n, hn, hrecoverable⟩ rest st
    obtain rfl : receiver b.blocktype = n := Option.some.inj (hreader.symm.trans hn)
    obtain ⟨b', s, hpush, hanswer⟩ := (pushAndRead_iff hvalid hblob hb hreader
      hrecoverable.eids_lt bundle rest st).2 hrecoverable
    rw [run_readBlock_of_receiver hzero hrecord, hpush]
    exact ⟨rfl, hanswer⟩

/-- **The reader does what is asked of it exactly if** the block has type zero, or there is a class
for it and the block can be recovered. -/
theorem recovers_iff (hblob : env.blob.CopiesExactly) (bundle : Bundle) {b : Block}
    (hb : b.Storable) : Recovers env bundle b ↔
      b.blocktype = 0 ∨ ∃ n ∈ reader env bundle b, Recoverable n b := by
  by_cases hzero : b.blocktype = 0
  · refine iff_of_true (fun rest st => ?_) (.inl hzero)
    rw [run_readBlock_of_zero hzero]
    exact ⟨fun h => h.1 hzero, rfl, rfl⟩
  rw [or_iff_right hzero]
  by_cases hrecord : b.blocktype = payloadType ∧
      bundle.get PrimaryBlock.appdataIsAdmrecord = true
  · exact record_recovers_iff hvalid hblob hb hzero hrecord
  · exact receiver_recovers_iff hvalid hblob hb hzero hrecord

end Recovery

/-- A bundle without blocks, with the given flags. -/
def sampleTarget (procflags : UInt64) : Bundle :=
  { PrimaryBlock.create 7 1 with procflags, blocks := [] }

/-- A deserializer at the beginning of time. -/
def sampleEnv : DeserializerEnv := .default BLOB.exact ⟨0, 0⟩

/-- A status report in a block with an EID. -/
def sampleReport : Block :=
  ⟨payloadType, lastBlock ||| Block.blockContainsEids, [EID.none],
    .statusReport (.create ⟨0, 0⟩)⟩

/-- A status report comes back from its file. -/
theorem recovers_iff_report :
    Recovers sampleEnv (sampleTarget PrimaryBlock.appdataIsAdmrecord) sampleReport := by
  have hreport : (StatusReportBlock.create ⟨0, 0⟩).Legible :=
    ⟨by decide, by decide, by decide, by decide⟩
  have hstorable : sampleReport.Storable :=
    ⟨.inl (by decide), by decide, by decide, by decide +kernel⟩
  have hrecoverable : Recoverable (Block.newStatusReport ⟨0, 0⟩) sampleReport :=
    ⟨fun _ => by decide, by decide, by decide, ⟨_, hreport, rfl⟩⟩
  have hvalid (b : Block) (size : UInt64) : sampleEnv.validator.block b size = .ok () := rfl
  exact (recovers_iff hvalid BLOB.exact_copiesExactly
    (sampleTarget PrimaryBlock.appdataIsAdmrecord) hstorable).2
      (.inr ⟨_, by decide +kernel, hrecoverable⟩)

/-- **A reference to a block is returned that was removed**, for an unknown record; and a payload
block comes back without the mark that it was forwarded without being processed. -/
theorem not_recovers :
    ¬ Recovers sampleEnv (sampleTarget PrimaryBlock.appdataIsAdmrecord)
        ⟨payloadType, lastBlock, [], .payload [0x30]⟩ ∧
      ¬ Recovers sampleEnv (sampleTarget 0)
        ⟨payloadType, Block.forwardedWithoutProcessed, [], .payload []⟩ := by
  have hanswer {bundle : Bundle} {b : Block} {r : Except Exn (Option Block)}
      (hrun : ((readBlock sampleEnv).run (bundle, file b [] [])).1 = r)
      (h : Recovers sampleEnv bundle b) : ∃ t, Answers sampleEnv bundle b [] (r, t) := by
    refine ⟨((readBlock sampleEnv).run (bundle, file b [] [])).2, ?_⟩
    rw [← hrun]
    exact h [] []
  refine ⟨fun h => ?_, fun h => ?_⟩
  · obtain ⟨t, ht⟩ := hanswer (r := .ok none) (by decide +kernel) h
    exact ht
  · obtain ⟨t, ht⟩ := hanswer (r := .ok (some newPayload)) (by decide +kernel) h
    exact absurd ht.2.1.procflags (by decide)

end SeparateDeserializer

end IbrDtn
