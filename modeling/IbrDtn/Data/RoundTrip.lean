import IbrDtn.Data.Deserializer

/-!
# Reading back what was written

This file proves that `DefaultDeserializer` reads a bundle back that `DefaultSerializer` wrote.
The proof is the same for headers with a dictionary and for compressed ones up to the way in which
references are resolved, so the block lemmas are stated for any invariant of the deserializer
under which every reference is resolved (`Resolves`).

## Main definitions

* `Resolves` : the references of a serializer are resolved by the deserializers of an invariant.
* `Block.transported` : what a block that was written is read as.
* `Bundle.Serializable` : the bundles that survive the round trip.

## Main results

* `DefaultDeserializer.loads_readBlock` : a block is read back.
* `DefaultDeserializer.loads_readBlocks` : a list of blocks marked at its end is read back.
* `DefaultDeserializer.reads_readBundle` : a bundle is read back, and the stream is left at the
  first byte behind it.
-/

namespace IbrDtn

open Loader (Loads loads_object loads_update loads_ofParser)

namespace Block

/-- The EIDs that the flags of the block announce, which are the ones that are written. -/
def announced (b : Block) : List EID := if b.get blockContainsEids then b.eids else []

/-- `deserialize` of a class assigns its mark to the block. -/
def withMark (mark : Option Bool) (b : Block) : Block :=
  match mark with
  | some value => b.set forwardedWithoutProcessed value
  | none => b

@[simp] theorem blocktype_withMark (mark : Option Bool) (b : Block) :
    (withMark mark b).blocktype = b.blocktype := by
  cases mark <;> rfl

@[simp] theorem eids_withMark (mark : Option Bool) (b : Block) :
    (withMark mark b).eids = b.eids := by
  cases mark <;> rfl

@[simp] theorem body_withMark (mark : Option Bool) (b : Block) :
    (withMark mark b).body = b.body := by
  cases mark <;> rfl

theorem procflags_withMark (mark : Option Bool) (b : Block) :
    (withMark mark b).procflags &&& ~~~forwardedWithoutProcessed =
      b.procflags &&& ~~~forwardedWithoutProcessed := by
  cases mark with
  | none => rfl
  | some value => exact FlagWord.assign_and_not _ _ _

/-- The mark is none of the other flags. -/
theorem get_withMark (mark : Option Bool) (b : Block) {flag : UInt64}
    (h : forwardedWithoutProcessed &&& flag = 0) : (withMark mark b).get flag = b.get flag := by
  cases mark with
  | none => rfl
  | some value => exact FlagWord.has_assign_of_disjoint h value

end Block

/-- The deserializers that satisfy `I` resolve the references that `s` writes for the EIDs that
satisfy `P` to their images under `f`, and keep `I`. -/
structure Resolves (s : DefaultSerializer) (I : DefaultDeserializer → Prop) (P : EID → Prop)
    (f : EID → EID) : Prop where
  fst : ∀ {d e}, I d → P e → (d.lookupEID (s.ref e).1 (s.ref e).2).1 = f e
  snd : ∀ {d e}, I d → P e → I (d.lookupEID (s.ref e).1 (s.ref e).2).2

namespace DefaultDeserializer

/-! ### Blocks -/

section Blocks

variable {s : DefaultSerializer} {I : DefaultDeserializer → Prop} {P : EID → Prop}
  {f : EID → EID} (hres : Resolves s I P f)

include hres

/-- The loop over the EIDs of a block that is already known to contain EIDs. -/
theorem loads_readBlockEIDs {eids : List EID} (heids : ∀ e ∈ eids, P e) {d : DefaultDeserializer}
    (hd : I d) {b : Block}
    (hb : b.procflags &&& Block.blockContainsEids = Block.blockContainsEids) :
    ∃ d', I d' ∧ (readBlockEIDs eids.length).Loads (s.writeRefs eids) (d, b)
      (d', { b with eids := b.eids ++ eids.map f }) () := by
  induction eids generalizing d b with
  | nil =>
      refine ⟨d, hd, ?_⟩
      rw [List.map_nil, List.append_nil]
      exact Loader.loads_pure () _
  | cons e eids ih =>
      have he := heids e List.mem_cons_self
      have hadd : b.addEID (f e) = { b with eids := b.eids ++ [f e] } := by
        rw [Block.addEID, FlagWord.assign, if_pos rfl, FlagWord.or_eq_self hb]
      obtain ⟨d', hd', hload⟩ := ih (fun e' he' => heids e' (List.mem_cons_of_mem _ he'))
        (hres.snd hd he) (b := { b with eids := b.eids ++ [f e] }) hb
      refine ⟨d', hd', ?_⟩
      rw [List.length_cons, readBlockEIDs, DefaultSerializer.writeRefs, List.flatMap_cons,
        List.append_assoc]
      refine (loads_ofParser (SDNV.reads_read _) _).bind
        ((loads_ofParser (SDNV.reads_read _) _).bind ((loads_update _ _).bind_nil ?_))
      simp only [hres.fst hd he, hadd]
      rw [List.map_cons, List.append_cons b.eids (f e) (eids.map f)]
      exact hload

/-- The optional EIDs of a block whose flags were read. -/
theorem loads_readEIDList {b n : Block} (hflags : n.procflags = b.procflags) (hn : n.eids = [])
    (hcontains : b.eids ≠ [] → b.get Block.blockContainsEids = true)
    (heids : ∀ e ∈ b.eids, P e) (hlen : b.eids.length < 2 ^ 32) {d : DefaultDeserializer}
    (hd : I d) :
    ∃ d', I d' ∧ (readEIDList b.procflags).Loads
      (optional (b.get Block.blockContainsEids)
        (SDNV.write (UInt64.ofNat b.eids.length) ++ s.writeRefs b.eids))
      (d, n) (d', { n with eids := b.eids.map f }) () := by
  rw [readEIDList, ← Block.get]
  cases hc : b.get Block.blockContainsEids with
  | false =>
      have hnil : b.eids = [] := by
        by_contra hne
        exact absurd (hcontains hne) (by simp [hc])
      refine ⟨d, hd, ?_⟩
      rw [hnil, List.map_nil, ← hn]
      exact Loader.loads_pure () _
  | true =>
      have hbit : n.procflags &&& Block.blockContainsEids = Block.blockContainsEids := by
        rw [hflags]
        exact FlagWord.and_eq_of_has ⟨6, by decide, by decide⟩ hc
      obtain ⟨d', hd', hload⟩ := loads_readBlockEIDs hres heids hd hbit
      rw [hn, List.nil_append] at hload
      have hnat : (UInt64.ofNat b.eids.length).toNat = b.eids.length :=
        EID.toNat_ofNat_of_lt (by omega)
      refine ⟨d', hd', (loads_ofParser (SDNV.reads_read _) _).bind ?_⟩
      rw [hnat, if_pos hlen]
      exact hload

variable {env : DeserializerEnv} (hblock : ∀ b size, env.validator.block b size = .ok ())

include hblock

/-- The header of a block is read, and its class reads the payload: the mark of the last block is
taken from the block that it is read into. -/
theorem run_readBlock {b n : Block} (hP : ∀ e ∈ b.announced, P e) (hlen : b.eids.length < 2 ^ 32)
    (hn : n.eids = []) {d : DefaultDeserializer} (hd : I d) :
    ∃ d', I d' ∧ ∀ r st, (readBlock env).run ((d, n), ⟨s.writeBlock b ++ r, false, false, st⟩) =
      (Loader.within { b with
          procflags := b.procflags &&& (~~~Block.lastBlock ||| n.procflags)
          eids := b.announced.map f
          body := n.body } (fun b o => (o.1, b))
        (Block.deserialize env.blob (UInt64.ofNat b.body.getLength))).run
        ((d', { b with
          procflags := b.procflags &&& (~~~Block.lastBlock ||| n.procflags)
          eids := b.announced.map f
          body := n.body }), ⟨b.body.serialize ++ r, false, false, st⟩) := by
  let n₁ : Block := { n with
    blocktype := b.blocktype
    procflags := b.procflags &&& (~~~Block.lastBlock ||| n.procflags) }
  have hflag : n₁.get Block.blockContainsEids = b.get Block.blockContainsEids := by
    have hmask : (~~~Block.lastBlock ||| n.procflags) &&& Block.blockContainsEids =
        Block.blockContainsEids := FlagWord.or_and_of_and_eq (by decide)
    rw [Block.get, Block.get, FlagWord.has, FlagWord.has, UInt64.and_assoc, hmask]
  have heids : ∃ d', I d' ∧ (readEIDList n₁.procflags).Loads
      (optional (b.get Block.blockContainsEids)
        (SDNV.write (UInt64.ofNat b.eids.length) ++ s.writeRefs b.eids))
      (d, n₁) (d', { n₁ with eids := b.announced.map f }) () := by
    cases hc : b.get Block.blockContainsEids with
    | false =>
        refine ⟨d, hd, ?_⟩
        rw [readEIDList, ← Block.get, hflag, hc, Block.announced, hc]
        rw [if_neg Bool.false_ne_true, if_neg Bool.false_ne_true, List.map_nil, ← hn]
        exact Loader.loads_pure () _
    | true =>
        have hannounced : b.announced = b.eids := by rw [Block.announced, hc, if_pos rfl]
        rw [hannounced] at hP ⊢
        obtain ⟨d', hd', hload⟩ := loads_readEIDList hres
          (b := { b with procflags := n₁.procflags }) (n := n₁) rfl hn
          (fun _ => hflag.trans hc) hP hlen hd
        rw [show ({ b with procflags := n₁.procflags } : Block).get Block.blockContainsEids = true
          from hflag.trans hc] at hload
        exact ⟨d', hd', hload⟩
  obtain ⟨d', hd', heids⟩ := heids
  refine ⟨d', hd', fun r st => ?_⟩
  rw [DefaultSerializer.writeBlock]
  simp only [List.cons_append, List.append_assoc]
  refine (Loader.run_bind_ok (loads_object _ _ st)).trans ?_
  refine (Loader.run_bind_ok (loads_ofParser (Parser.reads_getByte _ b.blocktype) _ _ st)).trans ?_
  refine (Loader.run_bind_ok (loads_update _ _ _ st)).trans ?_
  refine (Loader.run_bind_ok (loads_ofParser (SDNV.reads_read b.procflags) _ _ st)).trans ?_
  refine (Loader.run_bind_ok (loads_update _ _ _ st)).trans ?_
  refine (Loader.run_bind_ok (loads_object _ _ st)).trans ?_
  refine (Loader.run_bind_ok (heids _ st)).trans ?_
  refine (Loader.run_bind_ok (loads_ofParser (SDNV.reads_read _) _ _ st)).trans ?_
  refine (Loader.run_bind_ok (loads_object _ _ st)).trans ?_
  exact Loader.run_bind_ok (SecurityBlock.loads_ofExcept (hblock _ _) _ _ st)

/-- **A block is read back**, with all its members: the mark of the last block is taken from the
block that it is read into, and the class of that block may set the mark that it was forwarded. -/
theorem loads_readBlock_exact {b n : Block} {body' : Body} (hP : ∀ e ∈ b.announced, P e)
    (hlen : b.eids.length < 2 ^ 32) (hn : n.eids = [])
    (hbody : (Body.deserialize env.blob (b.announced.map f)
      (UInt64.ofNat b.body.getLength)).Loads b.body.serialize n.body body' ())
    {d : DefaultDeserializer} (hd : I d) :
    ∃ d', I d' ∧ (readBlock env).Loads (s.writeBlock b) (d, n) (d', Block.withMark
      n.body.forwardedMark
      { b with
        procflags := b.procflags &&& (~~~Block.lastBlock ||| n.procflags)
        eids := b.announced.map f
        body := body' }) () := by
  obtain ⟨d', hd', hrun⟩ := run_readBlock hres hblock hP hlen hn hd
  refine ⟨d', hd', fun r st => (hrun r st).trans ?_⟩
  have hwithin := hbody.within (fun body (b : Block) => { b with body }) { b with
    procflags := b.procflags &&& (~~~Block.lastBlock ||| n.procflags)
    eids := b.announced.map f
    body := n.body }
  refine Loader.Loads.within ?_ (fun b (o : DefaultDeserializer × Block) => (o.1, b)) (d', _) r st
  refine (loads_object _).bind_nil (hwithin.then_nil ?_)
  cases hmark : n.body.forwardedMark with
  | none => exact Loader.loads_pure () _
  | some value => exact loads_update _ _

end Blocks

end DefaultDeserializer

/-- The blocks that can be written and read: the type fits the class, security blocks carry the EIDs
that their flags promise, a list of EIDs is announced by the flag and shorter than the counter of
the reader, and the payload has a length of 64 bits. -/
structure Block.Sendable (b : Block) : Prop where
  hasType : b.body.HasType b.blocktype
  security : b.body.SecurityFits b.eids
  contains : b.eids ≠ [] → b.get Block.blockContainsEids = true
  eids_lt : b.eids.length < 2 ^ 32
  payload_lt : b.body.serialize.length < 2 ^ 64

/-- The block has an unknown type and asks to be discarded. -/
def Block.AsksDiscard (b : Block) : Prop :=
  b.body.classType = none ∧ b.get Block.discardIfNotProcessed = true

instance (b : Block) : Decidable b.AsksDiscard := inferInstanceAs (Decidable (_ ∧ _))

/-- The blocks that survive the round trip: those that can be written and read, and that do not ask
to be discarded if they have no factory. -/
structure Block.Serializable (b : Block) : Prop where
  hasType : b.body.HasType b.blocktype
  security : b.body.SecurityFits b.eids
  contains : b.eids ≠ [] → b.get Block.blockContainsEids = true
  eids_lt : b.eids.length < 2 ^ 32
  payload_lt : b.body.serialize.length < 2 ^ 64
  discard : b.body.classType = none → b.get Block.discardIfNotProcessed = false

theorem Block.Serializable.sendable {b : Block} (h : b.Serializable) : b.Sendable :=
  ⟨h.hasType, h.security, h.contains, h.eids_lt, h.payload_lt⟩

/-- The block with its EIDs replaced by their images. -/
def Block.mapEIDs (f : EID → EID) (b : Block) : Block := { b with eids := b.eids.map f }

/-- The block with the members of a security block replaced. -/
def Block.mapSecurity (f : SecurityBlock → SecurityBlock) (b : Block) : Block :=
  { b with
    body :=
      match b.body with
      | .bundleAuthentication s => .bundleAuthentication (f s)
      | .payloadIntegrity s resultSize => .payloadIntegrity (f s) resultSize
      | .payloadConfidential s => .payloadConfidential (f s)
      | .extensionSecurity s => .extensionSecurity (f s)
      | body => body }

theorem Block.security?_mapSecurity (f : SecurityBlock → SecurityBlock) (b : Block) :
    (b.mapSecurity f).body.security? = b.body.security?.map f := by
  rcases b with ⟨_, _, _, body⟩
  cases body <;> rfl

theorem Block.get_of_view {f : EID → EID} {b n : Block} (h : n.view = (b.mapEIDs f).view)
    (flag : UInt64) (hf : Block.forwardedWithoutProcessed &&& flag = 0) : n.get flag = b.get flag := by
  have hflags : n.procflags &&& ~~~Block.forwardedWithoutProcessed =
      b.procflags &&& ~~~Block.forwardedWithoutProcessed := congrArg Block.View.procflags h
  rw [Block.get, ← FlagWord.has_and_not_of_disjoint hf, hflags,
    FlagWord.has_and_not_of_disjoint hf, Block.get]

theorem Block.securityFits_map {b : Block} (h : b.body.SecurityFits b.eids) (f : EID → EID) :
    b.body.SecurityFits (b.eids.map f) := by
  intro s hs
  obtain ⟨⟨hsource, hdestination⟩, hfits⟩ := h s hs
  refine ⟨⟨fun hf => ?_, fun hf => ⟨?_, fun hf' => ?_⟩⟩, hfits⟩
  · rw [ne_eq, List.map_eq_nil_iff]
    exact hsource hf
  · rw [ne_eq, List.map_eq_nil_iff]
    exact (hdestination hf).1
  · rw [List.length_map]
    exact (hdestination hf).2 hf'

namespace Block

/-- What a block that was written is read as, where `f` is what references to EIDs are resolved
to. -/
def transported (f : EID → EID) (b : Block) : Block :=
  withMark (receiver b.blocktype).body.forwardedMark
    { b with
      eids := b.announced.map f
      body := b.body.received (b.announced.map f) }

theorem Sendable.announced_eq {b : Block} (h : b.Sendable) : b.announced = b.eids := by
  rw [announced]
  split_ifs with hc
  · rfl
  · by_contra hne
    exact hc (h.contains (Ne.symm hne))

/-- The reader sees the block that was written, up to the images of its EIDs. -/
theorem Sendable.view_transported {b : Block} (h : b.Sendable) (f : EID → EID) :
    (b.transported f).view = (b.mapEIDs f).view := by
  rw [transported, h.announced_eq, view, blocktype_withMark, eids_withMark, body_withMark,
    Body.serialize_received, procflags_withMark, view, mapEIDs]

end Block

namespace DefaultDeserializer

section Blocks

variable {s : DefaultSerializer} {I : DefaultDeserializer → Prop} {P : EID → Prop}
  {f : EID → EID} (hres : Resolves s I P f) {env : DeserializerEnv}
  (hblob : env.blob.CopiesExactly)
  (hblock : ∀ b size, env.validator.block b size = .ok ())

include hres hblob hblock

/-- **A block is read back** into a new block of the class that the reader chooses for its type. -/
theorem loads_readBlock {b n : Block} (hb : b.Sendable) (hP : ∀ e ∈ b.eids, P e)
    (hbody : n.body = (Block.receiver b.blocktype).body) (hn : n.eids = [])
    (hlast : n.procflags &&& Block.lastBlock = Block.lastBlock) {d : DefaultDeserializer}
    (hd : I d) :
    ∃ d', I d' ∧ (readBlock env).Loads (s.writeBlock b) (d, n) (d', b.transported f) () := by
  have hflags : b.procflags &&& (~~~Block.lastBlock ||| n.procflags) = b.procflags :=
    FlagWord.and_not_or_of_and_eq hlast
  have hload := Body.loads_deserialize hblob hb.hasType (Block.securityFits_map hb.security f)
    hb.payload_lt
  rw [← hbody, ← hb.announced_eq] at hload
  obtain ⟨d', hd', hread⟩ := loads_readBlock_exact hres hblock
    (fun e he => hP e (hb.announced_eq ▸ he)) hb.eids_lt hn hload hd
  rw [hflags, hbody] at hread
  exact ⟨d', hd', hread⟩

omit hres hblob hblock in
/-- A new block is appended, and read into. -/
theorem loads_pushAndRead_of_readBlock {b n n' : Block} {d d' : DefaultDeserializer}
    (hload : (readBlock env).Loads (s.writeBlock b) (d, n.set Block.lastBlock true) (d', n') ())
    (bundle : Bundle) :
    (pushAndRead env n).Loads (s.writeBlock b) (d, bundle)
      (d', { bundle with blocks := BlockList.unmarkBack bundle.blocks ++ [n'] }) n' := by
  refine (loads_update _ _).bind_nil ((loads_object _).bind_nil ?_)
  have hread := (hload.then_nil (f := fun _ => Loader.object >>= fun p => pure p.2)
    ((loads_object (d', n')).bind_nil (Loader.loads_pure n' _))).within
    (fun p (o : DefaultDeserializer × Bundle) => (p.1, o.2.setBack p.2)) (d, bundle.pushBack n)
  have hback : (bundle.pushBack n).setBack n' =
      { bundle with blocks := BlockList.unmarkBack bundle.blocks ++ [n'] } := by
    rw [Bundle.setBack, Bundle.pushBack, BlockList.pushBack_eq, List.dropLast_concat]
  rwa [hback] at hread

/-- A new block is appended and read back. -/
theorem loads_pushAndRead {b n : Block} (hb : b.Sendable) (hP : ∀ e ∈ b.eids, P e)
    (hbody : n.body = (Block.receiver b.blocktype).body) (hn : n.eids = [])
    {d : DefaultDeserializer} (hd : I d) (bundle : Bundle) :
    ∃ d', I d' ∧ (pushAndRead env n).Loads (s.writeBlock b) (d, bundle)
      (d', { bundle with blocks := BlockList.unmarkBack bundle.blocks ++ [b.transported f] })
      (b.transported f) := by
  obtain ⟨d', hd', hload⟩ := loads_readBlock hres hblob hblock hb hP
    (n := n.set Block.lastBlock true) hbody hn (FlagWord.or_and_self _ _) hd
  exact ⟨d', hd', loads_pushAndRead_of_readBlock hload bundle⟩

omit hres hblob hblock in
/-- An exception that is thrown before anything was read is handled on the same stream. -/
theorem loads_tryCatch_throw {σ α : Type} {e : Exn} (h : Exn → Loader Exn σ α) {bs : Bytes}
    {o o' : σ} {a : α} (hh : (h e).Loads bs o o' a) :
    (MonadExcept.tryCatch (throw e) h : Loader Exn σ α).Loads bs o o' a := by
  intro r st
  rw [Loader.run_tryCatch, Loader.run_throw]
  exact hh r st

/-- **One turn of the loop reads one block**, unless it is an administrative record, and answers
whether it is marked as the last. A block of an unknown type that asks to be discarded is removed
again. -/
theorem loads_readNext_sendable {b : Block} (hb : b.Sendable) (hP : ∀ e ∈ b.eids, P e)
    {d : DefaultDeserializer} (hd : I d) (bundle : Bundle)
    (hadm : b.blocktype = Block.payloadType → bundle.get PrimaryBlock.appdataIsAdmrecord = false) :
    ∃ d', I d' ∧ (readNext env).Loads (s.writeBlock b) (d, bundle)
      (d', { bundle with
        blocks :=
          if b.AsksDiscard then BlockList.markBack (BlockList.unmarkBack bundle.blocks)
          else BlockList.unmarkBack bundle.blocks ++ [b.transported f] })
      (b.get Block.lastBlock) := by
  have hread {n : Block} (hn : n.body = (Block.receiver b.blocktype).body) (he : n.eids = []) :=
    loads_pushAndRead hres hblob hblock hb hP hn he hd bundle
  have hview := hb.view_transported f
  have hreturn {n : Block} {d' : DefaultDeserializer}
      (hload : (pushAndRead env n).Loads (s.writeBlock b) (d, bundle)
        (d', { bundle with blocks := BlockList.unmarkBack bundle.blocks ++ [b.transported f] })
        (b.transported f)) :
      (do let block ← pushAndRead env n
          pure (block.get Block.lastBlock) :
          Loader Exn (DefaultDeserializer × Bundle) Bool).Loads (s.writeBlock b) (d, bundle)
        (d', { bundle with blocks := BlockList.unmarkBack bundle.blocks ++ [b.transported f] })
        (b.get Block.lastBlock) := by
    rw [← Block.get_of_view hview Block.lastBlock (by decide)]
    exact hload.then_nil (Loader.loads_pure _ _)
  have hknown {t : UInt8} (h : b.body.classType = some t) :
      ¬ b.AsksDiscard :=
    fun hnone => Option.some_ne_none t (h.symm.trans hnone.1)
  have hzero := hb.hasType.ne_zero
  by_cases hp : b.blocktype = Block.payloadType
  · obtain ⟨d', hd', hload⟩ := hread (n := Block.newPayload) (by rw [hp]; rfl) rfl
    have hclass := hb.hasType.resolve_right fun h => h.2.2.1 hp
    refine ⟨d', hd', Loader.Loads.peek ?_⟩
    simp only [Option.getD_some, if_neg hzero, if_pos hp, if_neg (hknown hclass)]
    refine (loads_object _).bind_nil ?_
    simp only [hadm hp, Bool.false_eq_true, if_false]
    exact hreturn hload
  · cases hf : Factory.get b.blocktype with
    | some n =>
        have hn : n = Block.receiver b.blocktype := by rw [Block.receiver, hf]
        have hclass := hb.hasType.resolve_right fun h => by simp [hf] at h
        rw [if_neg (hknown hclass)]
        obtain ⟨d', hd', hload⟩ := hread (congrArg Block.body hn) (Factory.eids_of_get hf)
        refine ⟨d', hd', Loader.Loads.peek ?_⟩
        simp only [Option.getD_some, if_neg hzero, if_neg hp, hf]
        exact (hreturn hload).tryCatch _
    | none =>
        have hn : Block.newExtension = Block.receiver b.blocktype := by
          rw [Block.receiver, hf, if_neg hp]
        obtain ⟨d', hd', hload⟩ := hread (congrArg Block.body hn) rfl
        have hdiscard : (b.transported f).get Block.discardIfNotProcessed =
            b.get Block.discardIfNotProcessed := Block.get_of_view hview _ (by decide)
        have hclass := hb.hasType.classType_eq_none hf hp
        refine ⟨d', hd', Loader.Loads.peek ?_⟩
        simp only [Option.getD_some, if_neg hzero, if_neg hp, hf]
        refine loads_tryCatch_throw _ ?_
        simp only [Exn.isException, if_true]
        rw [← Block.get_of_view hview Block.lastBlock (by decide)]
        refine hload.then_nil ?_
        rw [hdiscard]
        by_cases hd : b.get Block.discardIfNotProcessed = true
        · have hdropped : b.AsksDiscard := ⟨hclass, hd⟩
          have hremove : BlockList.remove (BlockList.unmarkBack bundle.blocks ++ [b.transported f])
              ((BlockList.unmarkBack bundle.blocks ++ [b.transported f]).length - 1) =
                BlockList.markBack (BlockList.unmarkBack bundle.blocks) := BlockList.remove_back _ _
          rw [if_pos hdropped, if_pos hd, ← hremove]
          exact (loads_update _ _).bind_nil (Loader.loads_pure _ _)
        · have hkept : ¬ b.AsksDiscard := fun h => hd h.2
          rw [if_neg hkept, if_neg hd]
          exact Loader.loads_pure _ _

/-- **One turn of the loop reads one block back** and answers whether it is marked as the last. -/
theorem loads_readNext {b : Block} (hb : b.Serializable) (hP : ∀ e ∈ b.eids, P e)
    {d : DefaultDeserializer} (hd : I d) {bundle : Bundle}
    (hmark : ∀ c ∈ bundle.blocks, c.get Block.lastBlock = false)
    (hadm : b.blocktype = Block.payloadType → bundle.get PrimaryBlock.appdataIsAdmrecord = false) :
    ∃ d', I d' ∧ (readNext env).Loads (s.writeBlock b) (d, bundle)
      (d', { bundle with blocks := bundle.blocks ++ [b.transported f] })
      (b.get Block.lastBlock) := by
  have hkept : ¬ b.AsksDiscard := fun h => Bool.false_ne_true ((hb.discard h.1).symm.trans h.2)
  have hload := loads_readNext_sendable hres hblob hblock hb.sendable hP hd bundle hadm
  rwa [if_neg hkept, BlockList.unmarkBack_of_unmarked hmark] at hload

/-- **The loop reads the blocks back** up to the one that is marked as the last, with as many turns
as there are blocks or more. -/
theorem loads_readBlocks {bs : List Block} (hne : bs ≠ []) (hbs : ∀ b ∈ bs, b.Serializable)
    (hP : ∀ b ∈ bs, ∀ e ∈ b.eids, P e) (hmarked : BlockList.Marked bs)
    {d : DefaultDeserializer} (hd : I d) (bundle : Bundle)
    (hmark : ∀ c ∈ bundle.blocks, c.get Block.lastBlock = false)
    (hadm : bundle.get PrimaryBlock.appdataIsAdmrecord = false) :
    ∃ d', I d' ∧ ∀ fuel, bs.length ≤ fuel →
      (readBlocks env fuel).Loads (bs.flatMap s.writeBlock) (d, bundle)
        (d', { bundle with blocks := bundle.blocks ++ bs.map (Block.transported f) }) () := by
  induction bs generalizing d bundle with
  | nil => exact absurd rfl hne
  | cons b bs ih =>
      obtain ⟨d₁, hd₁, hload⟩ :=
        loads_readNext hres hblob hblock (hbs b List.mem_cons_self) (hP b List.mem_cons_self) hd
          hmark fun _ => hadm
      have hnlast : (b.transported f).get Block.lastBlock = b.get Block.lastBlock :=
        Block.get_of_view ((hbs b List.mem_cons_self).sendable.view_transported f) _ (by decide)
      cases bs with
      | nil =>
          refine ⟨d₁, hd₁, fun fuel hfuel => ?_⟩
          obtain ⟨fuel, rfl⟩ : ∃ k, fuel = k + 1 := ⟨fuel - 1, by simp at hfuel; omega⟩
          have hlast : b.get Block.lastBlock = true := hmarked
          rw [hlast] at hload
          rw [List.flatMap_singleton]
          refine (loads_ofParser Parser.reads_atEof _).bind_nil ?_
          exact hload.then_nil (Loader.loads_pure _ _)
      | cons c bs =>
          have hlast : b.get Block.lastBlock = false := hmarked.1
          rw [hlast] at hload
          obtain ⟨d', hd', hloads⟩ := ih (List.cons_ne_nil _ _)
            (fun b' hb' => hbs b' (List.mem_cons_of_mem _ hb'))
            (fun b' hb' => hP b' (List.mem_cons_of_mem _ hb')) hmarked.2 hd₁
            { bundle with blocks := bundle.blocks ++ [b.transported f] }
            (by
              intro c' hc'
              rcases List.mem_append.1 hc' with hc' | hc'
              · exact hmark c' hc'
              · rw [List.mem_singleton.1 hc', hnlast, hlast])
            hadm
          refine ⟨d', hd', fun fuel hfuel => ?_⟩
          obtain ⟨fuel, rfl⟩ : ∃ k, fuel = k + 1 := ⟨fuel - 1, by simp at hfuel; omega⟩
          rw [List.flatMap_cons]
          refine (loads_ofParser Parser.reads_atEof _).bind_nil ?_
          refine hload.bind ?_
          rw [List.map_cons, List.append_cons bundle.blocks (b.transported f)
            ((c :: bs).map (Block.transported f))]
          exact hloads fuel (by simpa using hfuel)

end Blocks

/-! ### The primary block -/

theorem reads_readRef (ref : UInt64 × UInt64) :
    readRef.Reads (SDNV.write ref.1 ++ SDNV.write ref.2) ref :=
  (SDNV.reads_read _).bind (SDNV.reads_read _).bind_pure

/-- What the reader makes of the primary block of `p` when it reads it into `obj`: the EIDs are
replaced by their images, and the fragment fields of a bundle that is no fragment are those of
`obj`. -/
def receivedPrimary (f : EID → EID) (p obj : PrimaryBlock) : PrimaryBlock :=
  let isFragment := p.get PrimaryBlock.fragment
  { p with
    source := f p.source, destination := f p.destination, reportto := f p.reportto,
    custodian := f p.custodian,
    fragmentoffset := if isFragment then p.fragmentoffset else obj.fragmentoffset,
    appdatalength := if isFragment then p.appdatalength else obj.appdatalength }

/-- The part of the header that depends on its form: the dictionary, and the four EIDs that the
references before it stand for. -/
def ReadsDictionary (s : DefaultSerializer) (f : EID → EID) (p : PrimaryBlock)
    (d d' : DefaultDeserializer) : Prop :=
  (catching Exn.isInvalidData
    (d.readEIDs (s.ref p.destination) (s.ref p.source) (s.ref p.reportto) (s.ref p.custodian))
    (pure (d.compressedEIDs (s.ref p.destination) (s.ref p.source) (s.ref p.reportto)
      (s.ref p.custodian)))).Reads s.writeDictionary.1
    (⟨f p.destination, f p.source, f p.reportto, f p.custodian⟩, d')

/-- **A primary block is read back.** -/
theorem reads_readPrimary {s : DefaultSerializer} {f : EID → EID} {p : PrimaryBlock}
    (obj : PrimaryBlock) {d d' : DefaultDeserializer} (hdict : ReadsDictionary s f p d d')
    {env : DeserializerEnv}
    (hprimary : ∀ p, env.validator.primaryBlock p = .ok ()) :
    (readPrimary env d obj).Reads (s.writePrimary p).1 (receivedPrimary f p obj, d') := by
  have hrefs (tail : Bytes) : s.writeRefs (Bundle.headerEIDs p) ++ tail =
      (SDNV.write (s.ref p.destination).1 ++ SDNV.write (s.ref p.destination).2) ++
      ((SDNV.write (s.ref p.source).1 ++ SDNV.write (s.ref p.source).2) ++
      ((SDNV.write (s.ref p.reportto).1 ++ SDNV.write (s.ref p.reportto).2) ++
      ((SDNV.write (s.ref p.custodian).1 ++ SDNV.write (s.ref p.custodian).2) ++ tail))) := by
    simp [DefaultSerializer.writeRefs, Bundle.headerEIDs]
  have hfragment : (readOptional (p.get PrimaryBlock.fragment) readRef
      (obj.fragmentoffset, obj.appdatalength)).Reads
      (optional (p.get PrimaryBlock.fragment)
        (SDNV.write p.fragmentoffset ++ SDNV.write p.appdatalength))
      ((receivedPrimary f p obj).fragmentoffset, (receivedPrimary f p obj).appdatalength) := by
    refine reads_readOptional (fun hf => ?_) (fun hf => ?_)
    · simp only [receivedPrimary, hf, if_true]
      exact reads_readRef (p.fragmentoffset, p.appdatalength)
    · simp only [receivedPrimary, hf, Bool.false_eq_true, if_false]
  refine (Parser.reads_getByte _ PrimaryBlock.bundleVersion).bind_cons ?_
  rw [if_neg (by decide)]
  refine (SDNV.reads_read p.procflags).bind ((SDNV.reads_read _).bind ?_)
  simp only [hrefs]
  refine (reads_readRef (s.ref p.destination)).bind ((reads_readRef (s.ref p.source)).bind
    ((reads_readRef (s.ref p.reportto)).bind ((reads_readRef (s.ref p.custodian)).bind ?_)))
  refine (SDNV.reads_read p.timestamp).bind ((SDNV.reads_read p.sequencenumber).bind
    ((SDNV.reads_read p.lifetime).bind ?_))
  refine hdict.bind ?_
  refine hfragment.then_nil ?_
  simp only [hprimary]
  exact Parser.reads_pure _

/-! ### Bundles -/

theorem ref_writeDictionary (s : DefaultSerializer) (e : EID) :
    s.writeDictionary.2.ref e = s.ref e := by
  rw [DefaultSerializer.writeDictionary]
  split_ifs <;> rfl

/-- Writing the dictionary does not change what references stand for. -/
theorem resolves_writeDictionary {s : DefaultSerializer} {I : DefaultDeserializer → Prop}
    {P : EID → Prop} {f : EID → EID} (h : Resolves s I P f) :
    Resolves s.writeDictionary.2 I P f := by
  refine ⟨fun hd he => ?_, fun hd he => ?_⟩
  · rw [ref_writeDictionary]
    exact h.fst hd he
  · rw [ref_writeDictionary]
    exact h.snd hd he

end DefaultDeserializer

/-- The bundles that survive the round trip: no administrative records, with at least one block,
the last-block flag on exactly the final one, and blocks that survive on their own. -/
structure Bundle.Serializable (b : Bundle) : Prop where
  nonempty : b.blocks ≠ []
  marked : BlockList.Marked b.blocks
  blocks : ∀ c ∈ b.blocks, c.Serializable
  noRecord : b.get PrimaryBlock.appdataIsAdmrecord = false

namespace DefaultDeserializer

theorem length_le_flatMap_writeBlock (s : DefaultSerializer) (bs : List Block) :
    bs.length ≤ (bs.flatMap s.writeBlock).length := by
  induction bs with
  | nil => exact le_rfl
  | cons b bs ih =>
      rw [List.length_cons, List.flatMap_cons, List.length_append, DefaultSerializer.writeBlock,
        List.length_cons]
      omega

/-- **A bundle is read back** with a header of either form, into a bundle with the primary block
`receivedPrimary` and with the blocks that are read for its blocks. -/
theorem reads_readBundle_transported {s : DefaultSerializer} {I : DefaultDeserializer → Prop}
    {P : EID → Prop} {f : EID → EID} (hres : Resolves s I P f) {b : Bundle} (obj : Bundle)
    {d d' : DefaultDeserializer} (hdict : ReadsDictionary s f b.toPrimaryBlock d d') (hd' : I d')
    (hb : b.Serializable) (hP : ∀ e ∈ b.allEIDs, P e) (env : DeserializerEnv)
    (henv : env.validator = Validator.accept) (hblob : env.blob.CopiesExactly) :
    ∃ d'', I d'' ∧ (readBundle env d obj).Reads
      ((s.writePrimary b.toPrimaryBlock).1 ++ b.blocks.flatMap s.writeDictionary.2.writeBlock)
      ({ receivedPrimary f b.toPrimaryBlock obj.toPrimaryBlock with
        blocks := b.blocks.map (Block.transported f) }, d'') := by
  obtain ⟨d'', hd'', hload⟩ := loads_readBlocks (resolves_writeDictionary hres) hblob
    (fun _ _ => by rw [henv]; rfl) hb.nonempty hb.blocks
    (fun c hc e he => hP e (List.mem_append_right _ (List.mem_flatMap.2 ⟨c, hc, he⟩)))
    hb.marked hd'
    { receivedPrimary f b.toPrimaryBlock obj.toPrimaryBlock with blocks := [] }
    (by simp) hb.noRecord
  refine ⟨d'', hd'', (reads_readPrimary _ hdict (fun _ => by rw [henv]; rfl)).bind ?_⟩
  intro r st
  have hrun := hload _ ((length_le_flatMap_writeBlock s.writeDictionary.2 b.blocks).trans
    ((Nat.le_add_right _ (r.length + 2)).trans_eq
      (by rw [← Nat.add_assoc, ← List.length_append]))) r st
  simp only [Parser.run_bind, Parser.remaining, Parser.run_ofRun, hrun, List.nil_append, henv]
  rfl

/-- **A bundle is read back** into one with blocks of the same views up to the images of their
EIDs. -/
theorem reads_readBundle {s : DefaultSerializer} {I : DefaultDeserializer → Prop} {P : EID → Prop}
    {f : EID → EID} (hres : Resolves s I P f) {b : Bundle} (obj : Bundle)
    {d d' : DefaultDeserializer} (hdict : ReadsDictionary s f b.toPrimaryBlock d d') (hd' : I d')
    (hb : b.Serializable) (hP : ∀ e ∈ b.allEIDs, P e) (env : DeserializerEnv)
    (henv : env.validator = Validator.accept) (hblob : env.blob.CopiesExactly) :
    ∃ n d'', (readBundle env d obj).Reads
        ((s.writePrimary b.toPrimaryBlock).1 ++ b.blocks.flatMap s.writeDictionary.2.writeBlock)
        (n, d'') ∧
      n.toPrimaryBlock = receivedPrimary f b.toPrimaryBlock obj.toPrimaryBlock ∧
      n.blocks.map Block.view = b.blocks.map fun c => (c.mapEIDs f).view := by
  obtain ⟨d'', -, hread⟩ := reads_readBundle_transported hres obj hdict hd' hb hP env henv hblob
  refine ⟨_, d'', hread, rfl, ?_⟩
  rw [List.map_map]
  exact List.map_congr_left fun c hc => (hb.blocks c hc).sendable.view_transported f

end DefaultDeserializer

/-! ### Running the round trip -/

namespace Bundle

/-- What a new deserializer makes of the bytes that a new serializer writes for a bundle, and the
bytes that it leaves in the stream. -/
def reread (b : Bundle) : Except Exn Bundle × Bytes :=
  let reader := DefaultDeserializer.readBundle (.default BLOB.exact ⟨0, 0⟩)
    DefaultDeserializer.create (Bundle.create 0 0)
  match reader.run (InStream.ofBytes (DefaultSerializer.create.writeBundle b).1) with
  | (.ok (n, _), is) => (.ok n, is.rest)
  | (.error e, is) => (.error e, is.rest)

/-- The endpoint `dtn://a`. -/
def sampleEID : EID := ⟨EID.defaultScheme, ascii ['/', '/', 'a']⟩

/-- A payload block with the given flags. -/
def samplePayload (procflags : UInt64) (eids : List EID) : Block :=
  ⟨Block.payloadType, procflags, eids, .payload [0x68, 0x69]⟩

/-- A bundle from `dtn://a` with the given blocks. -/
def sample (blocks : List Block) : Bundle :=
  { PrimaryBlock.create 7 1 with source := sampleEID, blocks }

end Bundle

end IbrDtn
