import IbrDtn.Data.RecordFraming
import IbrDtn.Data.SeparateRoundTrip
import IbrDtn.Data.Transport

/-!
# Transports that do not keep every block

A deserializer removes a block of an unknown type that asks for it.  The payload block of an
administrative bundle is read into a temporary block, written to a temporary stream and read again
by the class that its first byte selects, with a dictionary that knows no EID; if none is selected,
nothing is left of it.  This file says what becomes of the blocks of any bundle, and which bundles
keep them all.

## Main definitions

* `Block.Becomes` : what the reader makes of a block.
* `Recorded` : the payloads that the detour of a record leaves as they are.
* `Bundle.KeepsBlocks` : the bundles that keep all their blocks.

## Main results

* `Bundle.Sendable.exists_becomes` : what becomes of the blocks of a bundle.
* `Bundle.Sendable.reads_restores` : a bundle that is intact is read back.
-/

namespace IbrDtn

open DefaultDeserializer (firstTurn readBundle reads_readPrimary receivedPrimary
  resolves_writeDictionary run_readBundle)
open Block (lastBlock)
open BlockList (markBack pushBack_eq remove remove_back unmarkBack unmarkBack_markBack
  unmarkBack_unmarkBack)
open Loader (Frames loads_object loads_update loads_ofParser)

/-- The EID without parts, which a dictionary gives that cannot be read. -/
def EID.blank : EID := ofParts [] []

/-! ### What becomes of a block -/

/-- The payload was read as the record that its first byte selects. -/
inductive RecordRead (payload : Bytes) : Body → Prop where
  | statusReport {r old : StatusReportBlock} {bs st : Bytes}
      (hselect : ∀ k ∈ payload.head?, k >>> 4 = 1)
      (hrun : (old.deserialize.run ⟨payload ++ bs, false, false, st⟩).1 = .ok r) :
      RecordRead payload (.statusReport r)
  | custodySignal {r old : CustodySignalBlock} {bs st : Bytes}
      (hselect : ∀ k ∈ payload.head?, k >>> 4 = 2)
      (hrun : (old.deserialize.run ⟨payload ++ bs, false, false, st⟩).1 = .ok r) :
      RecordRead payload (.custodySignal r)

/-- The payload is what a record writes that is restored. -/
def Recorded (payload : Bytes) : Prop :=
  (∃ r : StatusReportBlock, r.Legible ∧ r.admfield >>> 4 = 1 ∧ r.serialize = payload) ∨
    ∃ r : CustodySignalBlock, r.Legible ∧ r.admfield >>> 4 = 2 ∧ r.serialize = payload

theorem RecordRead.classType {payload : Bytes} {body : Body} (h : RecordRead payload body) :
    body.classType = some Block.payloadType := by
  cases h <;> rfl

/-- **A record that writes what it was read from is restored.** -/
theorem RecordRead.recorded {payload : Bytes} {body : Body} (h : RecordRead payload body)
    (hsame : body.serialize = payload) : Recorded payload := by
  cases h with
  | @statusReport r old bs st hselect hrun =>
      obtain rfl : r.serialize = payload := hsame
      exact .inl ⟨r, StatusReportBlock.legible_of_run hrun, hselect _ rfl, rfl⟩
  | @custodySignal r old bs st hselect hrun =>
      obtain rfl : r.serialize = payload := hsame
      exact .inr ⟨r, CustodySignalBlock.legible_of_run hrun, hselect _ rfl, rfl⟩

theorem StatusReportBlock.length_getString_le (r : StatusReportBlock) :
    r.source.getString.length ≤ r.serialize.length := by
  simp only [serialize, BundleString.write, List.length_cons, List.length_append]
  omega

theorem CustodySignalBlock.length_getString_le (r : CustodySignalBlock) :
    r.source.getString.length ≤ r.serialize.length := by
  simp only [serialize, BundleString.write, List.length_cons, List.length_append]
  omega

/-- **A record that is restored is read** by the class that its first byte selects, and writes the
same. -/
theorem Recorded.exists_loads {payload : Bytes} (h : Recorded payload)
    (hlt : payload.length < 2 ^ 63) (now : DTNTime) (blob : BLOB) :
    ∃ k bs body, payload = k :: bs ∧ body.classType = some Block.payloadType ∧
      body.serialize = payload ∧
      ((k >>> 4 = 1 ∧ ∀ eids length, (Body.deserialize blob eids length).Loads payload
          (Block.newStatusReport now).body body ()) ∨
        (k >>> 4 = 2 ∧ ∀ eids length, (Body.deserialize blob eids length).Loads payload
          (Block.newCustodySignal now).body body ())) := by
  rcases h with ⟨r, hr, hselect, rfl⟩ | ⟨r, hr, hselect, rfl⟩
  · have hread := ((StatusReportBlock.restored_iff_legible
      (r.length_getString_le.trans_lt hlt)).2 hr).2 (.create now)
    refine ⟨_, _, .statusReport (r.into (.create now)), rfl, rfl, r.serialize_into _,
      .inl ⟨hselect, fun eids length => ?_⟩⟩
    exact (loads_object _).bind_nil ((loads_ofParser hread _).then_nil (loads_update _ _))
  · have hread := ((CustodySignalBlock.restored_iff_legible
      (r.length_getString_le.trans_lt hlt)).2 hr).2 (.create now)
    refine ⟨_, _, .custodySignal (r.into (.create now)), rfl, rfl, r.serialize_into _,
      .inr ⟨hselect, fun eids length => ?_⟩⟩
    exact (loads_object _).bind_nil ((loads_ofParser hread _).then_nil (loads_update _ _))

namespace Block

/-- The block is the payload block of an administrative bundle. -/
def IsRecord (adm : Bool) (c : Block) : Prop := adm = true ∧ c.blocktype = payloadType

instance (adm : Bool) (c : Block) : Decidable (c.IsRecord adm) :=
  inferInstanceAs (Decidable (_ ∧ _))

/-- What the reader makes of a block, in a bundle that is an administrative record or not. -/
inductive Becomes (adm : Bool) (f : EID → EID) (c : Block) : List Block → Prop where
  | discarded (h : c.AsksDiscard) : Becomes adm f c []
  | unknown (hrecord : c.IsRecord adm) (h : UnknownRecord c.body.serialize) : Becomes adm f c []
  | kept (hkept : ¬ c.AsksDiscard) (hrecord : ¬ c.IsRecord adm) : Becomes adm f c [c.transported f]
  | reread {body : Body} (hrecord : c.IsRecord adm) (hbody : RecordRead c.body.serialize body) :
      Becomes adm f c [{ c.transported f with eids := c.announced.map fun _ => EID.blank, body }]

/-- The block is read back, perhaps with the record that its payload stands for. -/
def Restores (f : EID → EID) (c n : Block) : Prop :=
  ∃ body, n = { c.transported f with body } ∧ (body = (c.transported f).body ∨
    c.blocktype = payloadType ∧ body.classType = some payloadType ∧
      body.serialize = c.body.serialize)

/-- The temporary block of a record. -/
def temporary (f : EID → EID) (c : Block) : Block :=
  ({ c with eids := c.announced.map f, body := .extension c.body.serialize } : Block).set
    forwardedWithoutProcessed true

variable {f : EID → EID} {c : Block}

theorem get_temporary {flag : UInt64} (h : forwardedWithoutProcessed &&& flag = 0) :
    (c.temporary f).get flag = c.get flag :=
  FlagWord.has_assign_of_disjoint h true

theorem announced_temporary : (c.temporary f).announced = c.announced.map f := by
  have hget : (c.temporary f).get blockContainsEids = c.get blockContainsEids :=
    get_temporary (by decide)
  rw [announced, hget]
  split_ifs with hc
  · rfl
  · rw [announced, if_neg hc, List.map_nil]

/-- What a class of records without a dictionary makes of the temporary block. -/
theorem withMark_temporary (htype : c.blocktype = payloadType) (body : Body) :
    withMark (some false)
      { c.temporary f with
        eids := (c.temporary f).announced.map fun _ => EID.blank
        body } =
      { c.transported f with eids := c.announced.map fun _ => EID.blank, body } := by
  have hmark : (receiver c.blocktype).body.forwardedMark = some false := by rw [htype]; rfl
  have hflags : FlagWord.assign (c.temporary f).procflags forwardedWithoutProcessed false =
      (c.transported f).procflags := by
    rw [transported, hmark]
    exact FlagWord.assign_and_not _ _ true
  rw [announced_temporary, List.map_map]
  have htransported : (c.transported f).blocktype = c.blocktype := blocktype_withMark _ _
  exact ext htransported.symm hflags rfl rfl

/-- The size of a payload is the one that is announced. -/
theorem getLength_of_payloadType {body : Body} (h : body.classType = some payloadType) :
    body.getLength = body.serialize.length := by
  cases body with
  | payload => rfl
  | statusReport b => exact b.length_serialize.symm
  | custodySignal b => exact b.length_serialize.symm
  | _ => simp [Body.classType, payloadType] at h

theorem HasType.classType_payloadType {body : Body} (h : body.HasType payloadType) :
    body.classType = some payloadType :=
  h.resolve_right fun hunknown => hunknown.2.2.1 rfl

end Block

namespace DefaultDeserializer

variable {env : DeserializerEnv}

/-! ### The detour of a record -/

/-- The deserializer of the temporary stream knows no EID. -/
structure Blind (d : DefaultDeserializer) : Prop where
  compressed : d.compressed = false
  fail : d.dictionary.fail = true

/-- It reads every reference as an EID without parts. -/
theorem resolves_blind (s : DefaultSerializer) :
    Resolves s Blind (fun _ => True) fun _ => EID.blank := by
  have hget {dict : Dictionary} (h : dict.fail = true) (pos : UInt64) :
      ∃ dict', (dict.seekg pos).getBuffer = ([], dict') ∧ dict'.fail = true := by
    have hseek : (dict.seekg pos).fail = true := by
      rw [Dictionary.seekg]
      simp only [h, if_true]
    have hgood : ¬ (dict.seekg pos).good = true := by
      rw [Dictionary.good, hseek]
      simp
    rw [Dictionary.getBuffer, if_neg hgood]
    exact ⟨_, rfl, rfl⟩
  have hlookup {d : DefaultDeserializer} (hd : d.Blind) (scheme ssp : UInt64) :
      ∃ d', d.lookupEID scheme ssp = (EID.blank, d') ∧ d'.Blind := by
    obtain ⟨dict₁, h₁, hfail₁⟩ := hget hd.fail scheme
    obtain ⟨dict₂, h₂, hfail₂⟩ := hget hfail₁ ssp
    refine ⟨{ d with dictionary := dict₂ }, ?_, hd.compressed, hfail₂⟩
    rw [lookupEID, hd.compressed, if_neg Bool.false_ne_true, Dictionary.getEID, h₁]
    simp only [h₂]
    rfl
  refine ⟨fun hd _ => ?_, fun hd _ => ?_⟩
  · obtain ⟨d', h, -⟩ := hlookup hd _ _
    rw [h]
  · obtain ⟨d', h, hd'⟩ := hlookup hd _ _
    rw [h]
    exact hd'

/-- The second copy of a dictionary is empty. -/
theorem blind_copy (dict : Dictionary) : Blind ⟨dict.copy.2.copy.1, false⟩ := by
  refine ⟨rfl, ?_⟩
  have hnil : dict.bytes.drop (max dict.gpos dict.bytes.length) = [] :=
    List.drop_eq_nil_of_le (Nat.le_max_right _ _)
  simp only [Dictionary.copy, hnil, decide_true]

/-- **What is read of a block**, whatever its class makes of the payload. -/
theorem exists_of_run_readBlock {s : DefaultSerializer} {I : DefaultDeserializer → Prop}
    {P : EID → Prop} {f : EID → EID} (hres : Resolves s I P f)
    (hblock : ∀ b size, env.validator.block b size = .ok ()) {b n : Block}
    (hP : ∀ e ∈ b.announced, P e) (hlen : b.eids.length < 2 ^ 32) (hn : n.eids = [])
    {d : DefaultDeserializer} (hd : I d) {r st : Bytes} {o' : DefaultDeserializer × Block}
    {is : InStream}
    (hrun : (readBlock env).run ((d, n), ⟨s.writeBlock b ++ r, false, false, st⟩) =
      (.ok (), (o', is))) :
    ∃ body' is', (Body.deserialize env.blob (b.announced.map f)
        (UInt64.ofNat b.body.getLength)).run
          (n.body, ⟨b.body.serialize ++ r, false, false, st⟩) = (.ok (), (body', is')) ∧
      o'.2 = Block.withMark n.body.forwardedMark
        { b with
          procflags := b.procflags &&& (~~~lastBlock ||| n.procflags)
          eids := b.announced.map f
          body := body' } := by
  obtain ⟨d', -, hheader⟩ := run_readBlock hres hblock hP hlen hn hd
  rw [hheader r st] at hrun
  obtain ⟨c, hinner, rfl⟩ := Loader.exists_of_run_within hrun
  rw [Block.deserialize, Loader.run_bind_ok (Loader.run_object _)] at hinner
  obtain ⟨_, ⟨c', is'⟩, hwithin, hmark⟩ := Loader.exists_of_run_bind hinner
  obtain ⟨body', hbody, rfl⟩ := Loader.exists_of_run_within hwithin
  refine ⟨body', is', hbody, ?_⟩
  dsimp only at hmark ⊢
  cases hvalue : n.body.forwardedMark with
  | none =>
      rw [hvalue] at hmark
      exact (Prod.mk.inj (Prod.mk.inj hmark).2).1.symm
  | some value =>
      rw [hvalue] at hmark
      exact (Prod.mk.inj (Prod.mk.inj hmark).2).1.symm

/-- The record that a class of records has read. -/
theorem recordRead_of_run {blob : BLOB} {eids : List EID} {length : UInt64} {payload bs st : Bytes}
    {body body' : Body} {is : InStream}
    (hrun : (Body.deserialize blob eids length).run (body, ⟨payload ++ bs, false, false, st⟩) =
      (.ok (), (body', is)))
    (hbody : (∃ old, body = .statusReport old ∧ ∀ k ∈ payload.head?, k >>> 4 = 1) ∨
      ∃ old, body = .custodySignal old ∧ ∀ k ∈ payload.head?, k >>> 4 = 2) :
    RecordRead payload body' := by
  rcases hbody with ⟨old, rfl, hselect⟩ | ⟨old, rfl, hselect⟩
  · rw [Body.deserialize, Loader.run_bind_ok (Loader.run_object _)] at hrun
    obtain ⟨r, t, hread, hupdate⟩ := Loader.exists_of_run_bind hrun
    obtain rfl := (Prod.mk.inj (Prod.mk.inj hupdate).2).1
    exact .statusReport hselect (Prod.mk.inj hread).1
  · rw [Body.deserialize, Loader.run_bind_ok (Loader.run_object _)] at hrun
    obtain ⟨r, t, hread, hupdate⟩ := Loader.exists_of_run_bind hrun
    obtain rfl := (Prod.mk.inj (Prod.mk.inj hupdate).2).1
    exact .custodySignal hselect (Prod.mk.inj hread).1

/-- **A temporary block is read again**, without any EID, and behind the blocks that are left. -/
theorem frames_rereadRecord_body {t record : Block} {dict : Dictionary}
    (hdict : Blind ⟨dict, false⟩) (hlen : t.eids.length < 2 ^ 32) (hrecord : record.eids = [])
    (s : DefaultSerializer) (o : DefaultDeserializer × Bundle) :
    (rereadRecord env dict (s.writeBlock t) record).Frames [] o fun o' last =>
      o'.1 = o.1 ∧ o'.2.toPrimaryBlock = o.2.toPrimaryBlock ∧ last = t.get lastBlock ∧
        ∃ eids length body' st is', (Body.deserialize env.blob eids length).run
            (record.body, ⟨t.body.serialize ++ [], false, false, st⟩) = (.ok (), (body', is')) ∧
          o'.2.blocks = unmarkBack o.2.blocks ++ [Block.withMark
            record.body.forwardedMark
            { t with eids := t.announced.map fun _ => EID.blank, body := body' }] := by
  refine (loads_update _ o).frames_bind_nil ?_
  intro r st last o' s' hrun
  rw [Loader.within, Loader.run_ofRun, Loader.run_ofRun] at hrun
  dsimp only at hrun
  rcases hread : (readBlock { env with validator := Validator.accept }).run
    ((⟨dict, false⟩, record.set lastBlock true), ⟨s.writeBlock t, false, false, st⟩)
    with ⟨e | u, o₁, is⟩
  · rw [hread] at hrun
    exact absurd (Prod.mk.inj hrun).1 (by simp)
  · have happend : s.writeBlock t = s.writeBlock t ++ [] := (List.append_nil _).symm
    have hflags : t.procflags &&& (~~~lastBlock |||
        (record.set lastBlock true).procflags) = t.procflags :=
      FlagWord.and_not_or_of_and_eq (FlagWord.or_and_self _ _)
    have haccepts (b : Block) (size : UInt64) :
        { env with validator := Validator.accept }.validator.block b size = .ok () := rfl
    obtain ⟨body', is', hbody, hblock⟩ := exists_of_run_readBlock (resolves_blind s) haccepts
      (fun _ _ => trivial) hlen
      (show (record.set lastBlock true).eids = [] from hrecord) hdict (happend ▸ hread)
    rw [hread] at hrun
    obtain ⟨ha, ho⟩ := Prod.mk.inj hrun
    obtain ⟨rfl, rfl⟩ := Prod.mk.inj ho
    rw [hflags] at hblock
    have hback : ((o.2.pushBack record).setBack o₁.2).blocks =
        unmarkBack o.2.blocks ++ [o₁.2] := by
      rw [Bundle.setBack, Bundle.pushBack, pushBack_eq, List.dropLast_concat]
    refine ⟨⟨is.stale, rfl⟩, rfl, rfl, ?_, _, _, body', st, is', hbody, hback.trans ?_⟩
    · refine (Except.ok.inj ha).symm.trans ?_
      rw [hblock]
      exact Block.get_withMark _ _ (by decide)
    · rw [hblock]
      rfl

/-- A record is read into its temporary block. -/
theorem loads_pushAndRead_temporary {s : DefaultSerializer} {I : DefaultDeserializer → Prop}
    {P : EID → Prop} {f : EID → EID} (hres : Resolves s I P f) (hblob : env.blob.CopiesExactly)
    (hblock : ∀ b size, env.validator.block b size = .ok ()) {c : Block} (hc : c.Sendable)
    (htype : c.blocktype = Block.payloadType) (hP : ∀ e ∈ c.eids, P e) {d : DefaultDeserializer}
    (hd : I d) (bundle : Bundle) :
    ∃ d', I d' ∧ (pushAndRead env Block.newExtension).Loads (s.writeBlock c) (d, bundle)
      (d', { bundle with
        blocks := unmarkBack bundle.blocks ++ [c.temporary f] }) (c.temporary f) := by
  have hlength : c.body.getLength = c.body.serialize.length :=
    Block.getLength_of_payloadType (Block.HasType.classType_payloadType (htype ▸ hc.hasType))
  have hbody : (Body.deserialize env.blob (c.announced.map f)
      (UInt64.ofNat c.body.getLength)).Loads c.body.serialize (.extension [])
        (.extension c.body.serialize) () := by
    rw [hlength]
    exact (loads_object _).bind_nil (Body.loads_blob hblob hc.payload_lt .extension _)
  obtain ⟨d', hd', hload⟩ := loads_readBlock_exact hres hblock
    (n := Block.newExtension.set lastBlock true)
    (fun e he => hP e (hc.announced_eq ▸ he)) hc.eids_lt rfl hbody hd
  have hflags : c.procflags &&& (~~~lastBlock |||
      (Block.newExtension.set lastBlock true).procflags) = c.procflags :=
    FlagWord.and_not_or_of_and_eq (FlagWord.or_and_self _ _)
  rw [hflags] at hload
  exact ⟨d', hd', loads_pushAndRead_of_readBlock hload bundle⟩

/-- A temporary block is read again by a class that reads its payload. -/
theorem loads_rereadRecord_body {t record : Block} {dict : Dictionary}
    (hdict : Blind ⟨dict, false⟩) (hlen : t.eids.length < 2 ^ 32) (hrecord : record.eids = [])
    {body : Body} (hbody : ∀ eids length, (Body.deserialize env.blob eids length).Loads
      t.body.serialize record.body body ()) (s : DefaultSerializer)
    (o : DefaultDeserializer × Bundle) :
    (rereadRecord env dict (s.writeBlock t) record).Loads [] o (o.1, { o.2 with
      blocks := unmarkBack o.2.blocks ++ [Block.withMark record.body.forwardedMark
        { t with eids := t.announced.map fun _ => EID.blank, body }] })
      (t.get lastBlock) := by
  have hflags : t.procflags &&& (~~~lastBlock |||
      (record.set lastBlock true).procflags) = t.procflags :=
    FlagWord.and_not_or_of_and_eq (FlagWord.or_and_self _ _)
  have haccepts (b : Block) (size : UInt64) :
      { env with validator := Validator.accept }.validator.block b size = .ok () := rfl
  obtain ⟨d', -, hload⟩ := loads_readBlock_exact (resolves_blind s) haccepts
    (fun _ _ => trivial) hlen
    (show (record.set lastBlock true).eids = [] from hrecord) (hbody _ _) hdict
  rw [hflags] at hload
  have hback (n : Block) : ((o.2.pushBack record).setBack n).blocks =
      unmarkBack o.2.blocks ++ [n] := by
    rw [Bundle.setBack, Bundle.pushBack, pushBack_eq, List.dropLast_concat]
  refine (loads_update _ o).bind_nil fun r st => ?_
  have hrun := hload [] st
  rw [List.append_nil] at hrun
  rw [Loader.within, Loader.run_ofRun, Loader.run_ofRun]
  dsimp only
  rw [hrun]
  dsimp only
  refine congrArg₂ (fun b n => ((.ok b, ((o.1, n), ⟨r, false, false, st⟩)) :
    Except Exn Bool × (DefaultDeserializer × Bundle) × InStream)) ?_ ?_
  · exact Block.get_withMark _ _ (by decide)
  · exact congrArg (fun blocks => ({ o.2 with blocks } : Bundle)) (hback _)

section Blocks

variable {s : DefaultSerializer} {I : DefaultDeserializer → Prop} {P : EID → Prop}
  {f : EID → EID} (hres : Resolves s I P f) (hblob : env.blob.CopiesExactly)
  (hblock : ∀ b size, env.validator.block b size = .ok ())
  (hcopy : ∀ d, I d → I { d with dictionary := d.dictionary.copy.2.copy.2 })

include hres hblob hblock hcopy

/-- **A record is dropped or read again.** -/
theorem frames_readRecord_becomes {c : Block} (hc : c.Sendable) {adm : Bool}
    (hrecord : c.IsRecord adm) (hP : ∀ e ∈ c.eids, P e)
    (hunmarked : c.get lastBlock = false) {d : DefaultDeserializer} (hd : I d)
    (bundle : Bundle) :
    (readRecord env).Frames (s.writeBlock c) (d, bundle) fun o' last =>
      I o'.1 ∧ o'.2.toPrimaryBlock = bundle.toPrimaryBlock ∧ last = false ∧
        ∃ ns, c.Becomes adm f ns ∧ unmarkBack o'.2.blocks =
          unmarkBack bundle.blocks ++ ns := by
  obtain ⟨d', hd', hload⟩ := loads_pushAndRead_temporary hres hblob hblock hc hrecord.2 hP hd bundle
  have hleft : unmarkBack (markBack (unmarkBack bundle.blocks)) =
      unmarkBack bundle.blocks := by
    rw [unmarkBack_markBack, unmarkBack_unmarkBack]
  have hlast : (c.temporary f).get lastBlock = false :=
    (Block.get_temporary (by decide)).trans hunmarked
  have hcount : (c.temporary f).eids.length < 2 ^ 32 := by
    have hlt := hc.eids_lt
    rw [← hc.announced_eq, ← List.length_map f] at hlt
    exact hlt
  refine hload.frames_then_nil ?_
  refine (frames_admfield (c.temporary f).body.serialize _).then_nil ?_
  rintro o₁ k ⟨rfl, hk⟩
  refine (loads_object _).frames_bind_nil ((loads_update _ _).frames_bind_nil ?_)
  dsimp only
  rw [Bundle.remove]
  dsimp only
  rw [remove_back]
  -- what the class with the given number makes of the temporary block
  have hreread {record : Block} (hnew : record.eids = [])
      (hmark : record.body.forwardedMark = some false)
      (hclass : (∃ old, record.body = .statusReport old ∧
          ∀ k ∈ c.body.serialize.head?, k >>> 4 = 1) ∨
        ∃ old, record.body = .custodySignal old ∧
          ∀ k ∈ c.body.serialize.head?, k >>> 4 = 2) :
      (rereadRecord env d'.dictionary.copy.2.copy.1
        (DefaultSerializer.writeBlock ⟨d'.dictionary.copy.1, false⟩ (c.temporary f))
        record).Frames []
        ({ d' with dictionary := d'.dictionary.copy.2.copy.2 }, { bundle with
          blocks := markBack (unmarkBack bundle.blocks) })
        fun o' last => I o'.1 ∧ o'.2.toPrimaryBlock = bundle.toPrimaryBlock ∧ last = false ∧
          ∃ ns, c.Becomes adm f ns ∧ unmarkBack o'.2.blocks =
            unmarkBack bundle.blocks ++ ns := by
    refine (frames_rereadRecord_body (blind_copy _) hcount hnew _ _).imp ?_
    rintro o' last ⟨ho, hprimary, rfl, eids, length, body', st, is', hrun, hblocks⟩
    rw [hmark, Block.withMark_temporary hrecord.2, hleft] at hblocks
    refine ⟨ho ▸ hcopy d' hd', hprimary, hlast, _,
      .reread hrecord (recordRead_of_run hrun hclass), ?_⟩
    rw [hblocks]
    refine BlockList.unmarkBack_append_of_unmarked ?_ _
    exact (Block.get_transported f c (by decide)).trans hunmarked
  by_cases h1 : k >>> 4 = 1
  · rw [if_pos h1]
    exact hreread rfl rfl (.inl ⟨_, rfl, fun k' hk' => hk k' hk' ▸ h1⟩)
  · rw [if_neg h1]
    by_cases h2 : k >>> 4 = 2
    · rw [if_pos h2]
      exact hreread rfl rfl (.inr ⟨_, rfl, fun k' hk' => hk k' hk' ▸ h2⟩)
    · rw [if_neg h2]
      refine (Loader.loads_pure _ _).frames ⟨hcopy d' hd', rfl, rfl, [], ?_, ?_⟩
      · exact .unknown hrecord fun k' hk' => hk k' hk' ▸ ⟨h1, h2⟩
      · rw [List.append_nil]
        exact hleft

/-- **What one turn of the loop makes of a block** that is not marked as the last. -/
theorem frames_readNext_becomes {c : Block} (hc : c.Sendable) (hP : ∀ e ∈ c.eids, P e)
    (hunmarked : c.get lastBlock = false) {d : DefaultDeserializer} (hd : I d)
    (bundle : Bundle) :
    (readNext env).Frames (s.writeBlock c) (d, bundle) fun o' last =>
      I o'.1 ∧ o'.2.toPrimaryBlock = bundle.toPrimaryBlock ∧ last = false ∧
        ∃ ns, c.Becomes (bundle.get PrimaryBlock.appdataIsAdmrecord) f ns ∧
          unmarkBack o'.2.blocks = unmarkBack bundle.blocks ++ ns := by
  by_cases hrecord : c.IsRecord (bundle.get PrimaryBlock.appdataIsAdmrecord)
  · have hread := frames_readRecord_becomes hres hblob hblock hcopy hc hrecord hP hunmarked hd
      bundle
    rw [DefaultSerializer.writeBlock] at hread ⊢
    refine Frames.peek ?_
    simp only [Option.getD_some, if_neg hc.hasType.ne_zero, if_pos hrecord.2]
    refine (loads_object _).frames_bind_nil ?_
    rw [if_pos hrecord.1]
    exact hread
  · obtain ⟨d', hd', hload⟩ := loads_readNext_sendable hres hblob hblock hc hP hd bundle
      fun htype => Bool.eq_false_iff.2 fun hadm => hrecord ⟨hadm, htype⟩
    refine hload.frames ⟨hd', rfl, hunmarked, ?_⟩
    by_cases hdiscard : c.AsksDiscard
    · refine ⟨[], .discarded hdiscard, ?_⟩
      rw [if_pos hdiscard, unmarkBack_markBack, unmarkBack_unmarkBack,
        List.append_nil]
    · refine ⟨_, .kept hdiscard hrecord, ?_⟩
      rw [if_neg hdiscard]
      refine BlockList.unmarkBack_append_of_unmarked ?_ _
      exact (Block.get_transported f c (by decide)).trans hunmarked

/-- **What the loop makes of blocks** in front of one that is kept and marked as the last. -/
theorem frames_readBlocks_becomes {bs : List Block} {c : Block}
    (hbs : ∀ b ∈ bs, b.Sendable ∧ b.get lastBlock = false) (hc : c.Sendable)
    (hmarked : c.get lastBlock = true) (hkept : ¬ c.AsksDiscard)
    (htype : c.blocktype ≠ Block.payloadType) (hP : ∀ b ∈ bs ++ [c], ∀ e ∈ b.eids, P e)
    {d : DefaultDeserializer} (hd : I d) (bundle : Bundle) (fuel : ℕ) :
    (readBlocks env fuel).Frames ((bs ++ [c]).flatMap s.writeBlock) (d, bundle) fun o' _ =>
      o'.2.toPrimaryBlock = bundle.toPrimaryBlock ∧
        ∃ nss, List.Forall₂ (Block.Becomes (bundle.get PrimaryBlock.appdataIsAdmrecord) f)
            (bs ++ [c]) nss ∧
          o'.2.blocks = unmarkBack bundle.blocks ++ nss.flatten := by
  induction bs generalizing d bundle fuel with
  | nil =>
      cases fuel with
      | zero =>
          intro r st a o' s' hrun
          exact absurd (Prod.mk.inj hrun).1 (by simp)
      | succ fuel =>
          obtain ⟨d', hd', hload⟩ := loads_readNext_sendable hres hblob hblock hc
            (hP c (by simp)) hd bundle fun h => absurd h htype
          rw [hmarked, if_neg hkept] at hload
          rw [List.nil_append, List.flatMap_singleton]
          refine (loads_ofParser Parser.reads_atEof _).frames_bind_nil ?_
          rw [if_neg Bool.false_ne_true]
          have hbecomes : c.Becomes (bundle.get PrimaryBlock.appdataIsAdmrecord) f
              [c.transported f] := .kept hkept fun h => htype h.2
          exact hload.frames_then_nil ((Loader.loads_pure _ _).frames
            ⟨rfl, [[c.transported f]], .cons hbecomes .nil, rfl⟩)
  | cons b bs ih =>
      obtain ⟨hb, hbs⟩ := List.forall_mem_cons.1 hbs
      rw [List.cons_append, List.forall_mem_cons] at hP
      cases fuel with
      | zero =>
          intro r st a o' s' hrun
          exact absurd (Prod.mk.inj hrun).1 (by simp)
      | succ fuel =>
          have hturn := frames_readNext_becomes hres hblob hblock hcopy hb.1 hP.1 hb.2 hd bundle
          rw [List.cons_append, List.flatMap_cons]
          refine (loads_ofParser Parser.reads_atEof _).frames_bind_nil ?_
          rw [if_neg Bool.false_ne_true]
          refine hturn.bind ?_
          rintro ⟨d', bundle'⟩ last ⟨hd', hprimary, rfl, ns, hbecomes, hblocks⟩
          dsimp only at hd' hprimary hblocks
          rw [if_neg Bool.false_ne_true]
          refine (ih hbs hP.2 hd' bundle' fuel).imp ?_
          rintro o' - ⟨hprimary', nss, hnss, hblocks'⟩
          have hadm : bundle'.get PrimaryBlock.appdataIsAdmrecord =
              bundle.get PrimaryBlock.appdataIsAdmrecord :=
            congrArg (fun p => PrimaryBlock.get p PrimaryBlock.appdataIsAdmrecord) hprimary
          refine ⟨hprimary'.trans hprimary, ns :: nss, .cons hbecomes (hadm ▸ hnss), ?_⟩
          rw [hblocks', hblocks, List.flatten_cons, List.append_assoc]

/-! ### Blocks that are kept -/

/-- **A record that is restored is read back.** -/
theorem loads_readRecord_restores {c : Block} (hc : c.Sendable)
    (htype : c.blocktype = Block.payloadType) (heids : c.eids = [])
    (hrecorded : Recorded c.body.serialize) (hlt : c.body.serialize.length < 2 ^ 63)
    {d : DefaultDeserializer} (hd : I d) (bundle : Bundle) :
    ∃ d' n, I d' ∧ c.Restores f n ∧ (readRecord env).Loads (s.writeBlock c) (d, bundle)
      (d', { bundle with blocks := unmarkBack bundle.blocks ++ [n] })
      (c.get lastBlock) := by
  obtain ⟨k, bs, body, hpayload, hclass, hserialize, hselect⟩ :=
    hrecorded.exists_loads hlt env.now env.blob
  obtain ⟨d', hd', hload⟩ := loads_pushAndRead_temporary hres hblob hblock hc htype
    (by simp [heids]) hd bundle
  have hannounced : c.announced = [] := hc.announced_eq.trans heids
  have hcount : (c.temporary f).eids.length < 2 ^ 32 := by
    rw [Block.temporary, Block.set, hannounced]
    exact Nat.two_pow_pos 32
  have hreread {record : Block} (hnew : record.eids = [])
      (hmark : record.body.forwardedMark = some false)
      (hread : ∀ eids length, (Body.deserialize env.blob eids length).Loads c.body.serialize
        record.body body ()) :
      (rereadRecord env d'.dictionary.copy.2.copy.1
        (DefaultSerializer.writeBlock ⟨d'.dictionary.copy.1, false⟩ (c.temporary f))
        record).Loads []
        ({ d' with dictionary := d'.dictionary.copy.2.copy.2 }, { bundle with
          blocks := markBack (unmarkBack bundle.blocks) })
        ({ d' with dictionary := d'.dictionary.copy.2.copy.2 }, { bundle with
          blocks := unmarkBack bundle.blocks ++ [{ c.transported f with body }] })
        (c.get lastBlock) := by
    have hloads := loads_rereadRecord_body (blind_copy d'.dictionary) hcount hnew hread
      ⟨d'.dictionary.copy.1, false⟩ ({ d' with dictionary := d'.dictionary.copy.2.copy.2 },
        { bundle with blocks := markBack (unmarkBack bundle.blocks) })
    have hblock : ({ c.transported f with
          eids := c.announced.map fun _ => EID.blank
          body } : Block) = { c.transported f with body } := by
      refine Block.ext rfl rfl ?_ rfl
      rw [Block.transported, Block.eids_withMark, hannounced, List.map_nil, List.map_nil]
    rw [hmark, Block.withMark_temporary htype, hblock, Block.get_temporary (by decide)] at hloads
    dsimp only at hloads
    rwa [unmarkBack_markBack, unmarkBack_unmarkBack] at hloads
  refine ⟨_, _, hcopy d' hd', ⟨body, rfl, .inr ⟨htype, hclass, hserialize⟩⟩, ?_⟩
  refine hload.then_nil ?_
  have hfirst : (c.temporary f).body.serialize = k :: bs := hpayload
  rw [hfirst]
  refine (loads_ofParser (Parser.reads_pure k) _).bind_nil
    ((loads_object _).bind_nil ((loads_update _ _).bind_nil ?_))
  dsimp only
  rw [Bundle.remove]
  dsimp only
  rw [remove_back]
  rcases hselect with ⟨h1, hread⟩ | ⟨h2, hread⟩
  · rw [if_pos h1]
    exact hreread rfl rfl hread
  · have h1 : ¬ k >>> 4 = 1 := fun h => absurd (h2.symm.trans h) (by decide)
    rw [if_neg h1, if_pos h2]
    exact hreread rfl rfl hread

/-- **A block that is intact is read back.** -/
theorem loads_readNext_restores {c : Block} (hc : c.Sendable) (hP : ∀ e ∈ c.eids, P e)
    (hkept : ¬ c.AsksDiscard)
    (hlt : c.blocktype = Block.payloadType → c.body.serialize.length < 2 ^ 63)
    {d : DefaultDeserializer} (hd : I d) (bundle : Bundle)
    (hrecord : c.IsRecord (bundle.get PrimaryBlock.appdataIsAdmrecord) →
      c.eids = [] ∧ Recorded c.body.serialize) :
    ∃ d' n, I d' ∧ c.Restores f n ∧ (readNext env).Loads (s.writeBlock c) (d, bundle)
      (d', { bundle with blocks := unmarkBack bundle.blocks ++ [n] })
      (c.get lastBlock) := by
  by_cases h : c.IsRecord (bundle.get PrimaryBlock.appdataIsAdmrecord)
  · obtain ⟨d', n, hd', hn, hload⟩ := loads_readRecord_restores hres hblob hblock hcopy hc h.2
      (hrecord h).1 (hrecord h).2 (hlt h.2) hd bundle
    refine ⟨d', n, hd', hn, ?_⟩
    rw [DefaultSerializer.writeBlock] at hload ⊢
    refine Loader.Loads.peek ?_
    simp only [Option.getD_some, if_neg hc.hasType.ne_zero, if_pos h.2]
    refine (loads_object _).bind_nil ?_
    rw [if_pos h.1]
    exact hload
  · obtain ⟨d', hd', hload⟩ := loads_readNext_sendable hres hblob hblock hc hP hd bundle
      fun htype => Bool.eq_false_iff.2 fun hadm => h ⟨hadm, htype⟩
    rw [if_neg hkept] at hload
    exact ⟨d', _, hd', ⟨_, rfl, .inl rfl⟩, hload⟩

/-- **Blocks that are intact are read back**, up to the one that is marked as the last. -/
theorem loads_readBlocks_restores {bs : List Block} (hne : bs ≠ []) (hbs : ∀ c ∈ bs, c.Sendable)
    (hP : ∀ c ∈ bs, ∀ e ∈ c.eids, P e) (hmarked : BlockList.Marked bs)
    (hlt : ∀ c ∈ bs, c.blocktype = Block.payloadType → c.body.serialize.length < 2 ^ 63)
    {d : DefaultDeserializer} (hd : I d) (bundle : Bundle) (hkept : ∀ c ∈ bs, ¬ c.AsksDiscard)
    (hrecords : ∀ c ∈ bs, c.IsRecord (bundle.get PrimaryBlock.appdataIsAdmrecord) →
      c.eids = [] ∧ Recorded c.body.serialize) :
    ∃ d' ns, I d' ∧ List.Forall₂ (Block.Restores f) bs ns ∧ ∀ fuel, bs.length ≤ fuel →
      (readBlocks env fuel).Loads (bs.flatMap s.writeBlock) (d, bundle)
        (d', { bundle with blocks := unmarkBack bundle.blocks ++ ns }) () := by
  induction bs generalizing d bundle with
  | nil => exact absurd rfl hne
  | cons c bs ih =>
      simp only [List.forall_mem_cons] at hbs hP hlt hkept hrecords
      obtain ⟨d₁, n, hd₁, hn, hload⟩ := loads_readNext_restores hres hblob hblock hcopy hbs.1 hP.1
        hkept.1 hlt.1 hd bundle hrecords.1
      cases bs with
      | nil =>
          refine ⟨d₁, [n], hd₁, .cons hn .nil, fun fuel hfuel => ?_⟩
          obtain ⟨fuel, rfl⟩ := Nat.exists_eq_add_one.2 (Nat.lt_of_succ_le hfuel)
          have hlast : c.get lastBlock = true := hmarked
          rw [hlast] at hload
          rw [List.flatMap_singleton]
          refine (loads_ofParser Parser.reads_atEof _).bind_nil ?_
          exact hload.then_nil (Loader.loads_pure _ _)
      | cons c' bs =>
          have hlast : c.get lastBlock = false := hmarked.1
          rw [hlast] at hload
          have hunmarked : n.get lastBlock = false := by
            obtain ⟨body, rfl, -⟩ := hn
            exact (Block.get_transported f c (by decide)).trans hlast
          obtain ⟨d', ns, hd', hns, hloads⟩ := ih (List.cons_ne_nil _ _) hbs.2 hP.2 hmarked.2
            hlt.2 hd₁ { bundle with blocks := unmarkBack bundle.blocks ++ [n] }
            hkept.2 hrecords.2
          rw [BlockList.unmarkBack_append_of_unmarked hunmarked] at hloads
          refine ⟨d', n :: ns, hd', .cons hn hns, fun fuel hfuel => ?_⟩
          obtain ⟨fuel, rfl⟩ := Nat.exists_eq_add_one.2 ((Nat.succ_pos _).trans_le hfuel)
          rw [List.flatMap_cons]
          refine (loads_ofParser Parser.reads_atEof _).bind_nil (hload.bind ?_)
          have hrest := hloads fuel (Nat.le_of_succ_le_succ hfuel)
          rwa [List.append_assoc] at hrest

end Blocks

end DefaultDeserializer

/-! ### Bundles -/

namespace Bundle

/-- **The bundle keeps all its blocks**: none asks to be discarded, and if it is an administrative
record, its payloads are records that are restored, in blocks without EIDs. -/
structure KeepsBlocks (b : Bundle) : Prop where
  kept : ∀ c ∈ b.blocks, ¬ c.AsksDiscard
  records : ∀ c ∈ b.blocks, c.IsRecord (b.get PrimaryBlock.appdataIsAdmrecord) →
    c.eids = [] ∧ Recorded c.body.serialize

variable {b obj : Bundle} {s : DefaultSerializer} {d : DefaultDeserializer} {env : DeserializerEnv}

/-- **What becomes of a bundle** whose last block is kept. -/
theorem Sendable.exists_becomes (hb : b.Sendable) {cs : List Block} {c : Block}
    (hblocks : b.blocks = cs ++ [c]) (hkept : ¬ c.AsksDiscard)
    (htype : c.blocktype ≠ Block.payloadType) (hs : s.dictionary.good = true)
    (hd : d.dictionary.good = true) (henv : env.validator = Validator.accept)
    (hblob : env.blob.CopiesExactly) {r st : Bytes} {n : Bundle} {d' : DefaultDeserializer}
    {is : InStream} (hrun : (readBundle env d obj).run
      ⟨(s.writeBundle b).1 ++ r, false, false, st⟩ = (.ok (n, d'), is)) :
    n.toPrimaryBlock =
        receivedPrimary b.resolved b.toPrimaryBlock obj.toPrimaryBlock ∧
      ∃ nss, List.Forall₂ (Block.Becomes (b.get PrimaryBlock.appdataIsAdmrecord) b.resolved)
          b.blocks nss ∧ n.blocks = nss.flatten := by
  obtain ⟨I, P, d₁, hres, hdict, hd₁, -, hP, hcopy⟩ := hb.exists_resolves hs hd
  have hmem {x : Block} (hx : x ∈ b.blocks) : ∀ e ∈ x.eids, P e := fun e he =>
    hP e (List.mem_append_right _ (List.mem_flatMap.2 ⟨x, hx, he⟩))
  have hmarked := hb.marked
  have hsendable := hb.blocks
  rw [hblocks] at hsendable hmem
  rw [hblocks, BlockList.marked_append_singleton] at hmarked
  have haccepts (p : PrimaryBlock) : env.validator.primaryBlock p = .ok () := by rw [henv]; rfl
  have hprimary := reads_readPrimary obj.toPrimaryBlock hdict haccepts
  have hloop := DefaultDeserializer.frames_readBlocks_becomes
    (resolves_writeDictionary hres) hblob (fun _ _ => by rw [henv]; rfl) hcopy
    (fun x hx => ⟨hsendable x (List.mem_append_left _ hx), hmarked.1 x hx⟩)
    (hsendable c (List.mem_append_right _ (List.mem_singleton_self c))) hmarked.2 hkept htype
    (fun x hx => hmem hx) hd₁ { receivedPrimary b.resolved b.toPrimaryBlock
      obj.toPrimaryBlock with blocks := [] }
  rw [← hblocks] at hloop
  have hwrite : (s.writeBundle b).1 = ((serializer s b).writePrimary b.toPrimaryBlock).1 ++
      b.blocks.flatMap (serializer s b).writeDictionary.2.writeBlock := rfl
  rw [hwrite, List.append_assoc, run_readBundle (hprimary _ st)
    (fun _ => by rw [henv]; rfl), firstTurn] at hrun
  rcases hread : (DefaultDeserializer.readBlocks env ((b.blocks.flatMap
      (serializer s b).writeDictionary.2.writeBlock ++ r).length + 2)).run
    ((d₁, { receivedPrimary b.resolved b.toPrimaryBlock
      obj.toPrimaryBlock with blocks := [] }),
      ⟨b.blocks.flatMap (serializer s b).writeDictionary.2.writeBlock ++ r, false, false, st⟩)
    with ⟨e | u, o, t⟩
  · rw [hread] at hrun
    exact absurd (Prod.mk.inj hrun).1 (by simp)
  · rw [hread] at hrun
    obtain ⟨rfl, -⟩ := Prod.mk.inj (Except.ok.inj (Prod.mk.inj hrun).1)
    obtain ⟨-, hkeeps, nss, hbecomes, hout⟩ := hloop _ r st u o t hread
    exact ⟨hkeeps, nss, hbecomes, hout⟩

/-- **A bundle that keeps all its blocks is read back.** -/
theorem Sendable.reads_restores (hb : b.Sendable) (hkeeps : b.KeepsBlocks)
    (hlt : ∀ c ∈ b.blocks, c.blocktype = Block.payloadType → c.body.serialize.length < 2 ^ 63)
    (hs : s.dictionary.good = true) (hd : d.dictionary.good = true)
    (henv : env.validator = Validator.accept) (hblob : env.blob.CopiesExactly) :
    ∃ n d', (readBundle env d obj).Reads (s.writeBundle b).1 (n, d') ∧
      n.toPrimaryBlock =
        receivedPrimary b.resolved b.toPrimaryBlock obj.toPrimaryBlock ∧
      List.Forall₂ (Block.Restores b.resolved) b.blocks n.blocks := by
  obtain ⟨I, P, d₁, hres, hdict, hd₁, -, hP, hcopy⟩ := hb.exists_resolves hs hd
  obtain ⟨d', ns, -, hns, hloads⟩ := DefaultDeserializer.loads_readBlocks_restores
    (resolves_writeDictionary hres) hblob (fun _ _ => by rw [henv]; rfl) hcopy
    hb.nonempty hb.blocks
    (fun c hc e he => hP e (List.mem_append_right _ (List.mem_flatMap.2 ⟨c, hc, he⟩)))
    hb.marked hlt hd₁ { receivedPrimary b.resolved b.toPrimaryBlock
      obj.toPrimaryBlock with blocks := [] } hkeeps.kept hkeeps.records
  refine ⟨{ receivedPrimary b.resolved b.toPrimaryBlock obj.toPrimaryBlock with
    blocks := ns }, d', ?_, rfl, hns⟩
  have haccepts (p : PrimaryBlock) : env.validator.primaryBlock p = .ok () := by rw [henv]; rfl
  have hprimary := reads_readPrimary obj.toPrimaryBlock hdict haccepts
  intro r st
  have hfuel : b.blocks.length ≤ (b.blocks.flatMap
      (serializer s b).writeDictionary.2.writeBlock ++ r).length + 2 := by
    have hle := DefaultDeserializer.length_le_flatMap_writeBlock
      (serializer s b).writeDictionary.2 b.blocks
    rw [List.length_append]
    omega
  have hwrite : (s.writeBundle b).1 = ((serializer s b).writePrimary b.toPrimaryBlock).1 ++
      b.blocks.flatMap (serializer s b).writeDictionary.2.writeBlock := rfl
  rw [hwrite, List.append_assoc, run_readBundle (hprimary _ st)
    (fun _ => by rw [henv]; rfl), firstTurn]
  dsimp only
  rw [hloads _ hfuel r st]
  rfl

end Bundle

end IbrDtn
