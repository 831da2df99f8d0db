import IbrDtn.Data.Deserializer

/-!
# Bundles without the flag for administrative records

The deserializer decides by a flag of the primary block whether the payload of a bundle is an
administrative record.  This file proves that a bundle without the flag is read without records,
whatever its blocks are, and that the flag is the one that was written.

## Main definitions

* `Body.isRecord` : the classes of administrative records.

## Main results

* `DefaultDeserializer.noRecord_of_writeBundle` : no block of a bundle that was written without the
  flag is read as a record.
-/

namespace IbrDtn

open Loader (Preserves preserves_pure preserves_throw preserves_ofParser preserves_ofExcept
  preserves_update preserves_object_bind)
open Parser (Ensures Yields)

/-- The body is one of the two administrative records. -/
def Body.isRecord : Body → Bool
  | .statusReport _ | .custodySignal _ => true
  | _ => false

/-! ### Blocks keep their class -/

/-- Reading a payload does not turn it into a record. -/
theorem Body.preserves_deserialize (blob : BLOB) (eids : List EID) (length : UInt64) :
    (Body.deserialize blob eids length).Preserves fun b => b.isRecord = false := by
  have htrivial {τ α : Type} (p : Loader Exn τ α) : p.Preserves fun _ => True :=
    fun _ _ => trivial
  refine preserves_object_bind fun o ho => ?_
  cases o with
  | payload b => exact (preserves_ofParser _).bind fun _ => preserves_update fun _ _ => rfl
  | extension b => exact (preserves_ofParser _).bind fun _ => preserves_update fun _ _ => rfl
  | age b => exact (htrivial _).within trivial fun _ _ _ _ => rfl
  | scopeControlHopLimit b => exact (htrivial _).within trivial fun _ _ _ _ => rfl
  | stream b => exact (htrivial _).within trivial fun _ _ _ _ => rfl
  | compressedPayload b => exact (htrivial _).within trivial fun _ _ _ _ => rfl
  | bundleAuthentication b => exact (htrivial _).within trivial fun _ _ _ _ => rfl
  | payloadIntegrity b n => exact (htrivial _).within trivial fun _ _ _ _ => rfl
  | payloadConfidential b => exact (htrivial _).within trivial fun _ _ _ _ => rfl
  | extensionSecurity b => exact (htrivial _).within trivial fun _ _ _ _ => rfl
  | statusReport b => exact Bool.noConfusion (ho : true = false)
  | custodySignal b => exact Bool.noConfusion (ho : true = false)

theorem Block.preserves_deserialize (blob : BLOB) (length : UInt64) :
    (Block.deserialize blob length).Preserves fun b => b.body.isRecord = false := by
  refine preserves_object_bind fun o ho => ?_
  refine ((Body.preserves_deserialize blob o.eids length).within ho fun _ _ h _ => h).bind
    fun _ => ?_
  cases o.body.forwardedMark with
  | none => exact preserves_pure ()
  | some value => exact preserves_update fun _ h => h

namespace DefaultDeserializer

theorem preserves_readBlockEIDs (count : ℕ) :
    (readBlockEIDs count).Preserves fun o => o.2.body.isRecord = false := by
  induction count with
  | zero => exact preserves_pure ()
  | succ count ih =>
      refine (preserves_ofParser _).bind fun _ => (preserves_ofParser _).bind fun _ => ?_
      exact Preserves.bind (preserves_update fun _ h => h) fun _ => ih

theorem preserves_readEIDList (procflags : UInt64) :
    (readEIDList procflags).Preserves fun o => o.2.body.isRecord = false := by
  rw [readEIDList]
  split_ifs
  · refine (preserves_ofParser _).bind fun eidcount => ?_
    split_ifs
    · exact preserves_readBlockEIDs _
    · exact (preserves_readBlockEIDs _).bind fun _ => preserves_throw _
  · exact preserves_pure ()

variable (env : DeserializerEnv)

/-- **A block keeps its class** while it is read. -/
theorem preserves_readBlock :
    (readBlock env).Preserves fun o => o.2.body.isRecord = false := by
  refine preserves_object_bind fun o _ => ?_
  refine (preserves_ofParser _).bind fun _ => Preserves.bind (preserves_update ?_) fun _ => ?_
  · exact fun _ h => h
  refine (preserves_ofParser _).bind fun _ => Preserves.bind (preserves_update ?_) fun _ => ?_
  · exact fun _ h => h
  refine preserves_object_bind fun o _ => ?_
  refine (preserves_readEIDList _).bind fun _ => (preserves_ofParser _).bind fun _ => ?_
  refine preserves_object_bind fun o ho => (preserves_ofExcept _).bind fun _ => ?_
  exact (Block.preserves_deserialize _ _).within ho fun _ _ h _ => h

/-! ### Bundles without records -/

/-- The bundle is not flagged as an administrative record, and holds none. -/
def Plain (o : DefaultDeserializer × Bundle) : Prop :=
  o.2.get PrimaryBlock.appdataIsAdmrecord = false ∧ ∀ c ∈ o.2.blocks, c.body.isRecord = false

theorem plain_pushBack {d d' : DefaultDeserializer} {b : Bundle} (h : Plain (d, b)) {block : Block}
    (hblock : block.body.isRecord = false) : Plain (d', b.pushBack block) := by
  refine ⟨h.1, fun c hc => ?_⟩
  rw [Bundle.pushBack, BlockList.pushBack] at hc
  cases hlast : b.blocks.getLast? with
  | none =>
      simp only [hlast, List.mem_singleton] at hc
      rw [hc]
      exact hblock
  | some last =>
      have hmem : last ∈ b.blocks := List.mem_of_getLast? hlast
      simp only [hlast, List.mem_append, List.mem_cons, List.not_mem_nil, or_false] at hc
      rcases hc with hc | rfl | rfl
      · exact h.2 c (List.mem_of_mem_dropLast hc)
      · exact h.2 last hmem
      · exact hblock

theorem plain_setBack {d d' : DefaultDeserializer} {b : Bundle} (h : Plain (d, b)) {block : Block}
    (hblock : block.body.isRecord = false) : Plain (d', b.setBack block) := by
  refine ⟨h.1, fun c hc => ?_⟩
  rcases List.mem_append.1 hc with hc | hc
  · exact h.2 c (List.mem_of_mem_dropLast hc)
  · rw [List.mem_singleton.1 hc]
    exact hblock

theorem plain_remove {d d' : DefaultDeserializer} {b : Bundle} (h : Plain (d, b)) (index : ℕ) :
    Plain (d', b.remove index) := by
  refine ⟨h.1, fun c hc => ?_⟩
  rw [Bundle.remove, BlockList.remove] at hc
  split_ifs at hc with hlt
  · rw [BlockList.markBack] at hc
    cases hlast : (b.blocks.eraseIdx index).getLast? with
    | none => simp [hlast] at hc
    | some last =>
        have hmem := List.mem_of_mem_eraseIdx (List.mem_of_getLast? hlast)
        simp only [hlast, List.mem_append, List.mem_singleton] at hc
        rcases hc with hc | rfl
        · exact h.2 c (List.mem_of_mem_eraseIdx (List.mem_of_mem_dropLast hc))
        · exact h.2 last hmem
  · exact h.2 c hc

theorem preserves_pushAndRead {n : Block} (hn : n.body.isRecord = false) :
    (pushAndRead env n).Preserves Plain := by
  refine (preserves_update fun o ho => plain_pushBack ho hn).bind fun _ => ?_
  refine preserves_object_bind fun o _ => ?_
  refine Preserves.within ((preserves_readBlock env).bind fun _ =>
    preserves_object_bind fun _ _ => preserves_pure _) hn fun p o hp ho => ?_
  exact plain_setBack ho hp

theorem preserves_readUnknown : (readUnknown env).Preserves Plain := by
  refine (preserves_pushAndRead env rfl).bind fun block => ?_
  split_ifs
  · exact (preserves_update fun o ho => plain_remove ho _).bind fun _ => preserves_pure _
  · exact preserves_pure _

theorem isRecord_of_get {type : UInt8} {n : Block} (h : Factory.get type = some n) :
    n.body.isRecord = false := by
  have hmem := List.mem_of_find?_eq_some h
  simp only [List.mem_cons, List.not_mem_nil, or_false] at hmem
  rcases hmem with rfl | rfl | rfl | rfl | rfl | rfl | rfl | rfl <;> rfl

theorem preserves_readNext : (readNext env).Preserves Plain := by
  refine (preserves_ofParser _).bind fun next => ?_
  dsimp only
  split_ifs with hzero hpayload
  · exact preserves_throw _
  · refine preserves_object_bind fun o ho => ?_
    rw [ho.1, if_neg Bool.false_ne_true]
    exact (preserves_pushAndRead env rfl).bind fun _ => preserves_pure _
  · refine Preserves.tryCatch ?_ fun e => ?_
    · cases hget : Factory.get (next.getD 0xff) with
      | none => exact preserves_throw _
      | some n =>
          exact (preserves_pushAndRead env (isRecord_of_get hget)).bind fun _ => preserves_pure _
    · split_ifs
      · exact preserves_readUnknown env
      · exact preserves_throw _

theorem preserves_readBlocks (fuel : ℕ) : (readBlocks env fuel).Preserves Plain := by
  induction fuel with
  | zero => exact preserves_throw _
  | succ fuel ih =>
      refine (preserves_ofParser _).bind fun eof => ?_
      split_ifs
      · exact preserves_pure _
      · refine (preserves_readNext env).bind fun last => ?_
        split_ifs
        · exact preserves_pure _
        · exact ih

/-! ### The flag -/

/-- The flags of a primary block are the ones that were written. -/
theorem yields_readPrimary (d : DefaultDeserializer) (obj : PrimaryBlock) (procflags : UInt64)
    (bs : Bytes) :
    (readPrimary env d obj).Yields (PrimaryBlock.bundleVersion :: (SDNV.write procflags ++ bs))
      fun p => p.1.procflags = procflags := by
  refine (Parser.reads_getByte _ PrimaryBlock.bundleVersion).yields_bind_cons ?_
  rw [if_neg (by decide)]
  refine (SDNV.reads_read procflags).yields_bind (Ensures.yields ?_ _)
  refine Ensures.of_bind fun _ => Ensures.of_bind fun _ => Ensures.of_bind fun _ => ?_
  refine Ensures.of_bind fun _ => Ensures.of_bind fun _ => Ensures.of_bind fun _ => ?_
  refine Ensures.of_bind fun _ => Ensures.of_bind fun _ => Ensures.of_bind fun _ => ?_
  exact Ensures.of_bind fun _ => Ensures.of_bind fun _ => Parser.ensures_pure rfl

/-- **A bundle that was written without the flag is read without records**, whatever it is read
into and whatever becomes of its EIDs and blocks. -/
theorem noRecord_of_writeBundle (s : DefaultSerializer) {b : Bundle}
    (hflag : b.get PrimaryBlock.appdataIsAdmrecord = false) (d : DefaultDeserializer)
    (obj : Bundle) :
    (readBundle env d obj).Yields (s.writeBundle b).1
      fun p => ∀ c ∈ p.1.blocks, c.body.isRecord = false := by
  have hblocks (o : DefaultDeserializer × Bundle) (ho : Plain o) (fuel : ℕ) (is : InStream) :
      Plain ((readBlocks env fuel).run (o, is)).2.1 := preserves_readBlocks env fuel (o, is) ho
  have hprimary : (readPrimary env d obj.toPrimaryBlock).Yields (s.writeBundle b).1
      fun p => p.1.get PrimaryBlock.appdataIsAdmrecord = false := by
    intro r st p hp
    have hbytes : ∃ bs, (s.writeBundle b).1 =
        PrimaryBlock.bundleVersion :: (SDNV.write b.procflags ++ bs) :=
      ⟨_, by simp only [DefaultSerializer.writeBundle, DefaultSerializer.writePrimary,
        List.cons_append, List.append_assoc]; rfl⟩
    obtain ⟨bs, hbs⟩ := hbytes
    rw [hbs] at hp
    rw [PrimaryBlock.get, yields_readPrimary env d _ b.procflags bs r st p hp]
    exact hflag
  refine hprimary.bind fun p hp => Ensures.of_bind fun remaining => ?_
  refine Ensures.bind (P := fun o => ∀ c ∈ o.1.blocks, c.body.isRecord = false) ?_
    fun o ho => Ensures.of_bind fun _ => Parser.ensures_pure ho
  intro is o ho
  have hplain := hblocks (p.2, { p.1 with blocks := [] }) ⟨hp, by simp⟩ (remaining + 2) is
  rw [Parser.run_ofRun] at ho
  rcases hrun : (readBlocks env (remaining + 2)).run ((p.2, { p.1 with blocks := [] }), is) with
    ⟨e | a, o', is'⟩
  · simp [hrun] at ho
  · rw [hrun] at hplain
    simp only [hrun, Except.ok.injEq] at ho
    rw [← ho]
    exact hplain.2

end DefaultDeserializer

end IbrDtn
