import IbrDtn.Data.Encoding
import IbrDtn.Library.Framing

/-!
# Streams of bundles with administrative records

The payload of a bundle that is flagged as an administrative record is read into a temporary block,
and read again by the class that its first byte selects.  Of a record that no class is selected for,
the turn of the loop does not say whether its block was the last one.  This file studies what this
means for a stream of bundles: when a read stops at the end of its bundle.

## Main definitions

* `UnknownRecord`, `WireBundle.EndsWithUnknownRecord` : the records without a class.
* `DefaultDeserializer.Framed` : every read of a bundle in a stream consumes its bytes and no more.

## Main results

* `DefaultDeserializer.frames_readNext_wire` : one turn of the loop.
* `DefaultDeserializer.framed_iff` : a bundle is framed exactly if it does not end with such a
  record, and a stream of such bundles is read bundle by bundle.
-/

namespace IbrDtn

open Block (blockContainsEids lastBlock payloadType)
open Loader (Frames Keeps keeps_pure keeps_throw keeps_ofParser keeps_update keeps_object loads_object
  loads_update loads_ofParser)

/-! ### Records -/

/-- The first byte of the record, if there is one, selects none of the two classes. -/
def UnknownRecord (payload : Bytes) : Prop := ∀ b ∈ payload.head?, b >>> 4 ≠ 1 ∧ b >>> 4 ≠ 2

instance (payload : Bytes) : Decidable (UnknownRecord payload) :=
  Option.decidableForallMem _

/-- The bundle is flagged as an administrative record, and its last block is a payload block with
an unknown record. -/
def WireBundle.EndsWithUnknownRecord (w : WireBundle) : Prop :=
  w.get PrimaryBlock.appdataIsAdmrecord = true ∧
    ∃ b ∈ w.blocks.getLast?, b.blocktype = payloadType ∧ UnknownRecord b.payload

/-- The validator accepts everything, as the one of a deserializer without validator does. -/
structure DeserializerEnv.Accepts (env : DeserializerEnv) : Prop where
  primaryBlock : ∀ p, env.validator.primaryBlock p = .ok ()
  block : ∀ b size, env.validator.block b size = .ok ()
  bundle : ∀ b, env.validator.bundle b = .ok ()

namespace DefaultDeserializer

/-! ### The last-block flag -/

theorem keeps_lastBlock_blockDeserialize (blob : BLOB) (length : UInt64) :
    Keeps (Block.deserialize blob length) fun b => b.get lastBlock := by
  refine (keeps_object _).bind fun b => Keeps.bind
    (Loader.keeps_within (fun body (b : Block) => { b with body }) (fun _ _ => rfl) _ _)
    fun _ => ?_
  cases b.body.forwardedMark with
  | none => exact keeps_pure _ _
  | some value =>
      refine keeps_update fun o => ?_
      exact FlagWord.has_assign_of_disjoint (by decide) value

theorem keeps_lastBlock_readBlockEIDs (count : ℕ) :
    Keeps (readBlockEIDs count) fun o => o.2.get lastBlock := by
  induction count with
  | zero => exact keeps_pure _ _
  | succ count ih =>
      refine (keeps_ofParser _ _).bind fun scheme => (keeps_ofParser _ _).bind fun ssp => ?_
      refine Keeps.bind (keeps_update fun o => ?_) fun _ => ih
      exact FlagWord.has_assign_of_disjoint (by decide) true

theorem keeps_lastBlock_readEIDList (procflags : UInt64) :
    Keeps (readEIDList procflags) fun o => o.2.get lastBlock := by
  rw [readEIDList]
  split_ifs
  · refine (keeps_ofParser _ _).bind fun eidcount => ?_
    split_ifs
    · exact keeps_lastBlock_readBlockEIDs _
    · exact (keeps_lastBlock_readBlockEIDs _).bind fun _ => keeps_throw _ _
  · exact keeps_pure _ _

/-- **The last-block flag is the one on the wire**, for a block that is read into one with the flag,
whatever becomes of the rest of the block. -/
theorem leaves_readBlock_lastBlock (env : DeserializerEnv) {n : Block}
    (hlast : n.procflags &&& lastBlock = lastBlock) (d : DefaultDeserializer)
    (type : UInt8) (procflags : UInt64) (bs : Bytes) :
    (readBlock env).Leaves (type :: (SDNV.write procflags ++ bs)) (d, n)
      fun o => o.2.get lastBlock = FlagWord.has procflags lastBlock := by
  have hflags : procflags &&& (~~~lastBlock ||| n.procflags) = procflags :=
    FlagWord.and_not_or_of_and_eq hlast
  refine (loads_object _).leaves_bind_nil ?_
  refine (loads_ofParser (Parser.reads_getByte _ type) _).leaves_bind_cons ?_
  refine (loads_update _ _).leaves_bind_nil ?_
  refine (loads_ofParser (SDNV.reads_read procflags) _).leaves_bind ?_
  refine (loads_update _ _).leaves_bind_nil ?_
  -- the flags are there, and nothing that follows changes this one
  refine Loader.leaves_of_keeps (f := fun o => o.2.get lastBlock) ?_ (fun o' ho' => ?_) bs
  · refine (keeps_object _).bind fun o => (keeps_lastBlock_readEIDList _).bind fun _ => ?_
    refine (keeps_ofParser _ _).bind fun size => Loader.keeps_object_bind fun o is => ?_
    dsimp only
    cases env.validator.block o.2 size with
    | error e => rfl
    | ok u => exact keeps_lastBlock_blockDeserialize env.blob size (o.2, is)
  · refine ho'.trans ?_
    dsimp only
    rw [hflags, Block.get]

/-! ### One turn of the loop -/

variable {env : DeserializerEnv}

/-- Reading a record again from the temporary stream leaves the stream of the bundle alone, and
gives the flag of the temporary block. -/
theorem frames_rereadRecord (dict : Dictionary) (s : DefaultSerializer) (block record : Block)
    (o : DefaultDeserializer × Bundle) :
    (rereadRecord env dict (s.writeBlock block) record).Frames [] o fun o' b =>
      o'.2.toPrimaryBlock = o.2.toPrimaryBlock ∧ b = block.get lastBlock := by
  refine (loads_update _ o).frames_bind_nil ?_
  intro r st a o' s' hrun
  have hleaves := leaves_readBlock_lastBlock { env with validator := Validator.accept }
    (n := record.set lastBlock true) (FlagWord.or_and_self _ _) ⟨dict, false⟩
    block.blocktype block.procflags
    (optional (block.get blockContainsEids)
        (SDNV.write (UInt64.ofNat block.eids.length) ++ s.writeRefs block.eids) ++
      (SDNV.write (UInt64.ofNat block.body.getLength) ++ block.body.serialize)) [] st
  rw [List.append_nil, ← DefaultSerializer.writeBlock] at hleaves
  rw [Loader.within, Loader.run_ofRun, Loader.run_ofRun] at hrun
  dsimp only at hrun
  rcases hread : (readBlock { env with validator := Validator.accept }).run
    ((⟨dict, false⟩, record.set lastBlock true), ⟨s.writeBlock block, false, false, st⟩)
    with ⟨e | u, o₁, is⟩
  · rw [hread] at hrun
    exact absurd (Prod.mk.inj hrun).1 (by simp)
  · rw [hread] at hrun hleaves
    obtain ⟨ha, ho⟩ := Prod.mk.inj hrun
    obtain ⟨rfl, rfl⟩ := Prod.mk.inj ho
    exact ⟨⟨is.stale, rfl⟩, rfl, (Except.ok.inj ha).symm.trans hleaves⟩

variable {w : WireBlock}

/-- The field that selects the class of a record is the first byte of the payload, or a stale one. -/
theorem frames_admfield (payload : Bytes) (o : DefaultDeserializer × Bundle) :
    Frames (Loader.ofParser (match payload with
      | b :: _ => (pure b : Parser Exn UInt8)
      | [] => Parser.ofRun fun s => (.ok s.popStale.1, s.popStale.2))) [] o fun o' b =>
        o' = o ∧ ∀ c ∈ payload.head?, b = c := by
  cases payload with
  | nil =>
      intro r st b o' s' hrun
      obtain ⟨-, ho⟩ := Prod.mk.inj hrun
      obtain ⟨rfl, rfl⟩ := Prod.mk.inj ho
      refine ⟨?_, rfl, by simp⟩
      cases st with
      | nil => exact ⟨[], rfl⟩
      | cons c st => exact ⟨st, rfl⟩
  | cons c bs =>
      exact (loads_ofParser (Parser.reads_pure c) o).frames ⟨rfl, by simp⟩

/-- **An administrative record keeps to its frame.** The turn gives the flag of its block, unless
that is set and the record is unknown. -/
theorem frames_readRecord_wire (hblob : env.blob.CopiesExactly)
    (hblock : ∀ b size, env.validator.block b size = .ok ()) (hw : w.WellFormed)
    (hlast : UnknownRecord w.payload → w.get lastBlock = false)
    (o : DefaultDeserializer × Bundle) :
    (readRecord env).Frames w.bytes o fun o' b =>
      o'.2.toPrimaryBlock = o.2.toPrimaryBlock ∧ b = w.get lastBlock := by
  obtain ⟨d', n', hload, -, hpayload, -, hget⟩ := loads_pushAndRead_wire hblob hblock hw
    (n := Block.newExtension) (.inr rfl) rfl o
  have hflag : n'.get lastBlock = w.get lastBlock := hget _ (by decide)
  refine hload.frames_then_nil ?_
  refine (frames_admfield n'.body.serialize _).then_nil ?_
  rw [hpayload]
  rintro o₁ b ⟨rfl, hb⟩
  refine (loads_object _).frames_bind_nil ((loads_update _ _).frames_bind_nil ?_)
  rw [← hflag]
  by_cases h1 : b >>> 4 = 1
  · rw [if_pos h1]
    exact frames_rereadRecord _ _ _ _ _
  · rw [if_neg h1]
    by_cases h2 : b >>> 4 = 2
    · rw [if_pos h2]
      exact frames_rereadRecord _ _ _ _ _
    · rw [if_neg h2]
      exact (Loader.loads_pure _ _).frames ⟨rfl, (hflag.trans (hlast fun c hc =>
        hb c hc ▸ ⟨h1, h2⟩)).symm⟩

/-- **A turn of the loop keeps to the frame of its block**, and gives the flag of the block. -/
theorem frames_readNext_wire (hblob : env.blob.CopiesExactly)
    (hblock : ∀ b size, env.validator.block b size = .ok ()) (hw : w.WellFormed)
    (o : DefaultDeserializer × Bundle)
    (hlast : IsRecord w o.2.toPrimaryBlock → UnknownRecord w.payload →
      w.get lastBlock = false) :
    (readNext env).Frames w.bytes o fun o' b =>
      o'.2.toPrimaryBlock = o.2.toPrimaryBlock ∧ b = w.get lastBlock := by
  by_cases hrecord : IsRecord w o.2.toPrimaryBlock
  · have hread := frames_readRecord_wire hblob hblock hw (hlast hrecord) o
    have hadm : o.2.get PrimaryBlock.appdataIsAdmrecord = true := hrecord.2
    have hcons : w.bytes = w.blocktype :: (w.procflags.bytes ++ (w.refBytes ++ w.length.bytes) ++
        w.payload) := rfl
    rw [hcons] at hread ⊢
    refine Frames.peek ?_
    simp only [Option.getD_some, if_neg hw.ne_zero, if_pos hrecord.1]
    refine (loads_object _).frames_bind_nil ?_
    rw [if_pos hadm]
    exact hread
  · obtain ⟨o', hload, hprimary⟩ := loads_readNext_wire hblob hblock hw o hrecord
    exact hload.frames ⟨hprimary, rfl⟩

/-- Without a stale byte the field is zero for an empty payload. -/
theorem run_admfield (payload : Bytes) (o : DefaultDeserializer × Bundle) (r : Bytes) :
    (Loader.ofParser (match payload with
      | b :: _ => (pure b : Parser Exn UInt8)
      | [] => Parser.ofRun fun s => (.ok s.popStale.1, s.popStale.2))).run
        (o, ⟨r, false, false, []⟩) = (.ok (payload.headD 0), (o, ⟨r, false, false, []⟩)) := by
  cases payload <;> rfl

/-- An unknown record is read, and the turn says that its block was not the last one. No stale
memory selects a class. -/
theorem run_readNext_unknown (hblob : env.blob.CopiesExactly)
    (hblock : ∀ b size, env.validator.block b size = .ok ()) (hw : w.WellFormed)
    (o : DefaultDeserializer × Bundle) (hrecord : IsRecord w o.2.toPrimaryBlock)
    (hunknown : UnknownRecord w.payload) (r : Bytes) :
    ∃ o', (readNext env).run (o, ⟨w.bytes ++ r, false, false, []⟩) =
      (.ok false, (o', ⟨r, false, false, []⟩)) ∧
        o'.2.toPrimaryBlock = o.2.toPrimaryBlock := by
  obtain ⟨d', n', hload, -, hpayload, -⟩ := loads_pushAndRead_wire hblob hblock hw
    (n := Block.newExtension) (.inr rfl) rfl o
  have hadm : o.2.get PrimaryBlock.appdataIsAdmrecord = true := hrecord.2
  have hnext : (readNext env).run (o, ⟨w.bytes ++ r, false, false, []⟩) =
      (readRecord env).run (o, ⟨w.bytes ++ r, false, false, []⟩) := by
    rw [run_readNext, show blockType ⟨w.bytes ++ r, false, false, []⟩ = payloadType from
      hrecord.1, readTyped, if_neg (by decide), if_pos rfl,
      Loader.run_bind_ok (Loader.run_object _)]
    dsimp only
    rw [if_pos hadm]
    rfl
  have hadmfield := run_admfield n'.body.serialize
    (d', (o.2.pushBack Block.newExtension).setBack n') r
  have hhead : n'.body.serialize.headD 0 >>> 4 ≠ 1 ∧ n'.body.serialize.headD 0 >>> 4 ≠ 2 := by
    rw [hpayload]
    cases hp : w.payload with
    | nil => decide
    | cons c bs => exact hunknown c (by simp [hp])
  refine ⟨?_, hnext.trans ((Loader.run_bind_ok (hload r [])).trans
    ((Loader.run_bind_ok hadmfield).trans ?_)), ?_⟩
  rotate_left
  · rw [Loader.run_bind_ok (Loader.run_object _)]
    dsimp only
    rw [Loader.run_bind_ok (Loader.run_update _ _), if_neg hhead.1, if_neg hhead.2]
    rfl
  · rfl

/-! ### The loop -/

/-- The loop keeps to the frame of its blocks, if the last one is not an unknown record. -/
theorem frames_readBlocks_wire (hblob : env.blob.CopiesExactly)
    (hblock : ∀ b size, env.validator.block b size = .ok ()) {bs : List WireBlock}
    (hbs : ∀ c ∈ bs, c.WellFormed ∧ c.get lastBlock = false) (hw : w.WellFormed)
    (hlast : w.get lastBlock = true) (fuel : ℕ) (o : DefaultDeserializer × Bundle)
    (hrecord : IsRecord w o.2.toPrimaryBlock → ¬ UnknownRecord w.payload) :
    (readBlocks env fuel).Frames (bs.flatMap WireBlock.bytes ++ w.bytes) o fun _ _ => True := by
  induction fuel generalizing bs o with
  | zero =>
      intro r st a o' s' hrun
      exact absurd (Prod.mk.inj hrun).1 (by simp)
  | succ fuel ih =>
      refine (loads_ofParser Parser.reads_atEof o).frames_bind_nil ?_
      rw [if_neg Bool.false_ne_true]
      cases bs with
      | nil =>
          have hturn := frames_readNext_wire hblob hblock hw o
            fun h hunknown => absurd hunknown (hrecord h)
          refine hturn.then_nil fun o' b hb => ?_
          rw [hb.2, hlast, if_pos rfl]
          exact (Loader.loads_pure _ _).frames trivial
      | cons c bs =>
          obtain ⟨hc, hbs⟩ := List.forall_mem_cons.1 hbs
          have hturn := frames_readNext_wire hblob hblock hc.1 o fun _ _ => hc.2
          rw [List.flatMap_cons, List.append_assoc]
          refine hturn.bind fun o' b hb => ?_
          rw [hb.2, hc.2, if_neg Bool.false_ne_true]
          exact ih hbs o' (hb.1 ▸ hrecord)

/-! ### Bundles -/

/-- The operator behind the primary block: the loop, and the check of the whole bundle. -/
theorem run_readBundle {d d' : DefaultDeserializer} {obj : Bundle} {p : PrimaryBlock}
    {s s' : InStream} (hprimary : (readPrimary env d obj.toPrimaryBlock).run s = (.ok (p, d'), s'))
    (hbundle : ∀ b, env.validator.bundle b = .ok ()) :
    (readBundle env d obj).run s =
      match (readBlocks env (s'.rest.length + 2)).run (firstTurn d' p s') with
      | (.ok _, (o, t)) => (.ok (o.2, o.1), t)
      | (.error e, (_, t)) => (.error e, t) := by
  have hremaining : Parser.run (Parser.remaining : Parser Exn ℕ) s' = (.ok s'.rest.length, s') := rfl
  rw [readBundle, Parser.run_bind_ok hprimary]
  dsimp only
  rw [Parser.run_bind_ok hremaining, Parser.run_bind, Parser.run_ofRun, firstTurn]
  rcases (readBlocks env (s'.rest.length + 2)).run ((d', { p with blocks := [] }), s') with
    ⟨e | u, o, t⟩
  · rfl
  · dsimp only
    rw [hbundle]
    rfl

theorem length_le_flatMap_bytes (bs : List WireBlock) :
    bs.length ≤ (bs.flatMap WireBlock.bytes).length := by
  induction bs with
  | nil => exact le_rfl
  | cons b bs ih =>
      have hpos : 0 < b.bytes.length := Nat.succ_pos _
      rw [List.length_cons, List.flatMap_cons, List.length_append]
      omega

/-- The operator on a bundle whose first blocks are read by turns which do not stop the loop. -/
theorem run_readBundle_of_turns (haccepts : env.Accepts) {w : WireBundle} (hw : w.WellFormed)
    {bs : List WireBlock} (hturn : ∀ c ∈ bs, ∀ o : DefaultDeserializer × Bundle,
      o.2.procflags = w.procflags.value → ∃ o', (readNext env).Loads c.bytes o o' false ∧
        o'.2.toPrimaryBlock = o.2.toPrimaryBlock)
    (d : DefaultDeserializer) (obj : Bundle) (r : Bytes) :
    ∃ o fuel, o.2.procflags = w.procflags.value ∧ ∀ st, (readBundle env d obj).run
        ⟨w.primary ++ (bs.flatMap WireBlock.bytes ++ r), false, false, st⟩ =
      match (readBlocks env (fuel + 2)).run (o, ⟨r, false, false, st⟩) with
      | (.ok _, (o, t)) => (.ok (o.2, o.1), t)
      | (.error e, (_, t)) => (.error e, t) := by
  obtain ⟨p, d', hprimary, hflags⟩ := reads_readPrimary_wire haccepts.primaryBlock hw.dictionary d
    obj.toPrimaryBlock
  obtain ⟨o, ho, hrun⟩ := run_readBlocks_of_turns (p := p) (fun c hc o ho => by
      obtain ⟨o', hload, hkept⟩ := hturn c hc o ((congrArg PrimaryBlock.procflags ho).trans hflags)
      exact ⟨o', hload, hkept.trans ho⟩) (d', { p with blocks := [] }) rfl
  have hlength := length_le_flatMap_bytes bs
  obtain ⟨fuel, hfuel⟩ : ∃ fuel, (bs.flatMap WireBlock.bytes ++ r).length + 2 =
      bs.length + (fuel + 2) := by
    rw [List.length_append]
    exact ⟨(bs.flatMap WireBlock.bytes).length + r.length - bs.length, by omega⟩
  refine ⟨o, fuel, (congrArg PrimaryBlock.procflags ho).trans hflags, fun st => ?_⟩
  rw [run_readBundle (hprimary _ st) haccepts.bundle, firstTurn]
  dsimp only
  rw [hfuel, hrun]

variable (env)

/-- Reading the bundle from a stream of bundles consumes its bytes and no more, if it does not
throw. -/
def Framed (w : WireBundle) : Prop :=
  ∀ following : List WireBundle, (∀ v ∈ following, v.WellFormed) → ∀ d obj st x s',
    (readBundle env d obj).run
        ⟨w.bytes ++ following.flatMap WireBundle.bytes, false, false, st⟩ = (.ok x, s') →
      ∃ st', s' = ⟨following.flatMap WireBundle.bytes, false, false, st'⟩

/-- Reads of bundles that follow each other and do not throw. -/
inductive Successive : ℕ → InStream → InStream → Prop where
  | start (s : InStream) : Successive 0 s s
  | next {n : ℕ} {s s' s'' : InStream} {d : DefaultDeserializer} {obj : Bundle}
      {x : Bundle × DefaultDeserializer} (hread : (readBundle env d obj).run s = (.ok x, s'))
      (h : Successive n s' s'') : Successive (n + 1) s s''

variable {env}

/-- **A bundle that does not end with an unknown record keeps to its frame.** -/
theorem stream_of_readBundle (hblob : env.blob.CopiesExactly) (haccepts : env.Accepts)
    {w : WireBundle} (hw : w.WellFormed) (hknown : ¬ w.EndsWithUnknownRecord)
    {d : DefaultDeserializer} {obj : Bundle} {r st : Bytes} {x : Bundle × DefaultDeserializer}
    {s' : InStream}
    (hrun : (readBundle env d obj).run ⟨w.bytes ++ r, false, false, st⟩ = (.ok x, s')) :
    ∃ st', s' = ⟨r, false, false, st'⟩ := by
  obtain ⟨p, d', hprimary, hflags⟩ := reads_readPrimary_wire haccepts.primaryBlock hw.dictionary d
    obj.toPrimaryBlock
  obtain ⟨bs, b, hblocks, hunmarked, hlast⟩ := hw.marked
  have hmem (c : WireBlock) (hc : c ∈ bs ++ [b]) : c.WellFormed := hw.blocks c (hblocks ▸ hc)
  have hframes := frames_readBlocks_wire hblob haccepts.block
    (fun c hc => ⟨hmem c (List.mem_append_left _ hc), hunmarked c hc⟩)
    (hmem b (List.mem_append_right _ (List.mem_singleton_self b))) hlast
    ((w.blocks.flatMap WireBlock.bytes ++ r).length + 2) (d', { p with blocks := [] })
    fun hrecord hunknown => hknown ⟨by
      rw [WireBundle.get, ← hflags]
      exact hrecord.2, b, by simp [hblocks], hrecord.1, hunknown⟩
  have hbytes : w.blocks.flatMap WireBlock.bytes = bs.flatMap WireBlock.bytes ++ b.bytes := by
    simp [hblocks]
  rw [WireBundle.bytes, List.append_assoc,
    run_readBundle (hprimary _ st) haccepts.bundle, firstTurn] at hrun
  rcases hloop : (readBlocks env ((w.blocks.flatMap WireBlock.bytes ++ r).length + 2)).run
    ((d', { p with blocks := [] }),
      ⟨w.blocks.flatMap WireBlock.bytes ++ r, false, false, st⟩) with ⟨e | u, o, t⟩
  · rw [hloop] at hrun
    exact absurd (Prod.mk.inj hrun).1 (by simp)
  · rw [hloop] at hrun
    obtain rfl : t = s' := (Prod.mk.inj hrun).2
    exact (hframes r st u o t (hbytes ▸ hloop)).1

/-- **A stream of bundles that do not end with unknown records is read bundle by bundle.** -/
theorem Successive.stream_eq (hblob : env.blob.CopiesExactly) (haccepts : env.Accepts)
    {ws : List WireBundle} (hws : ∀ w ∈ ws, w.WellFormed ∧ ¬ w.EndsWithUnknownRecord) {n : ℕ}
    (hn : n ≤ ws.length) {st : Bytes} {s' : InStream}
    (h : Successive env n ⟨ws.flatMap WireBundle.bytes, false, false, st⟩ s') :
    ∃ st', s' = ⟨(ws.drop n).flatMap WireBundle.bytes, false, false, st'⟩ := by
  induction n generalizing ws st with
  | zero =>
      cases h
      exact ⟨st, rfl⟩
  | succ n ih =>
      cases ws with
      | nil => exact absurd hn (Nat.not_succ_le_zero n)
      | cons w ws =>
          obtain ⟨hw, hws⟩ := List.forall_mem_cons.1 hws
          cases h with
          | next hread h =>
              rw [List.flatMap_cons] at hread
              obtain ⟨st₁, rfl⟩ := stream_of_readBundle hblob haccepts hw.1 hw.2 hread
              exact ih hws (Nat.le_of_succ_le_succ hn) h

end DefaultDeserializer

/-! ### Reading beyond the end -/

namespace WireBundle

/-- The primary block, taken for a block whose type is the version number. -/
def asBlock (w : WireBundle) : WireBlock :=
  ⟨PrimaryBlock.bundleVersion, w.procflags, w.procflags, [], w.blocklength, w.header⟩

theorem bytes_asBlock {w : WireBundle} (heids : w.get blockContainsEids = false) :
    w.asBlock.bytes = w.primary := by
  have hrefs : w.asBlock.refBytes = [] := by
    rw [WireBlock.refBytes, WireBlock.get]
    exact congrArg (fun present => optional present _) heids
  rw [WireBlock.bytes, WireBlock.header, hrefs, primary]
  simp [asBlock]

theorem wellFormed_asBlock {w : WireBundle} (hw : w.WellFormed)
    (heids : w.get blockContainsEids = false) : w.asBlock.WellFormed where
  ne_zero := show PrimaryBlock.bundleVersion ≠ 0 by decide
  count := fun h => absurd (heids.symm.trans h) Bool.false_ne_true
  refs_lt := show 0 < 2 ^ 32 by decide
  length := hw.blocklength
  format := fun h => absurd rfl h

/-- A bundle without EIDs and fragment fields that carries the given payload. -/
def sample (procflags : UInt64) (payload : Bytes) : WireBundle where
  procflags := .shortest procflags
  blocklength := .shortest 12
  destination := (.shortest 0, .shortest 0)
  source := (.shortest 0, .shortest 0)
  reportto := (.shortest 0, .shortest 0)
  custodian := (.shortest 0, .shortest 0)
  timestamp := .shortest 0
  sequencenumber := .shortest 0
  lifetime := .shortest 0
  dictionaryLength := .shortest 0
  dictionary := []
  fragment := (.shortest 0, .shortest 0)
  blocks := [⟨payloadType, .shortest lastBlock, .shortest 0, [],
    .shortest (UInt64.ofNat payload.length), payload⟩]

theorem wellFormed_sample {procflags : UInt64}
    (hfragment : FlagWord.has procflags PrimaryBlock.fragment = false) {payload : Bytes}
    (hlength : payload.length < 2 ^ 64) : (sample procflags payload).WellFormed where
  blocklength := by
    have hget : (sample procflags payload).get PrimaryBlock.fragment = false := hfragment
    rw [header, hget]
    rfl
  dictionary := rfl
  blocks := by
    intro b hb
    rw [List.mem_singleton.1 hb]
    refine ⟨show payloadType ≠ 0 by decide, fun h => ?_, show 0 < 2 ^ 32 by decide,
      EID.toNat_ofNat_of_lt hlength, fun h => absurd rfl h⟩
    exact absurd h (show FlagWord.has lastBlock blockContainsEids ≠ true by decide)
  marked := ⟨[], _, rfl, by simp, show FlagWord.has lastBlock lastBlock = true by decide⟩
  payload := List.pairwise_singleton _ _

end WireBundle

namespace DefaultDeserializer

variable {env : DeserializerEnv}

/-- **An unknown record at the end of a bundle makes the operator read on**, into the primary block
of the bundle that follows. -/
theorem run_readBundle_unknown (hblob : env.blob.CopiesExactly) (haccepts : env.Accepts)
    {w v : WireBundle} (hw : w.WellFormed) (hv : v.WellFormed) (hends : w.EndsWithUnknownRecord)
    (hlast : v.get lastBlock = true) (heids : v.get blockContainsEids = false)
    (d : DefaultDeserializer) (obj : Bundle) :
    ∃ x, (readBundle env d obj).run ⟨w.bytes ++ v.bytes, false, false, []⟩ =
      (.ok x, ⟨v.blocks.flatMap WireBlock.bytes, false, false, []⟩) := by
  obtain ⟨bs, b, hblocks, hunmarked, -⟩ := hw.marked
  obtain ⟨hadm, b', hb', htype, hunknown⟩ := hends
  obtain rfl : b = b' := by simpa [hblocks] using hb'
  have hmem (c : WireBlock) (hc : c ∈ bs ++ [b]) : c.WellFormed := hw.blocks c (hblocks ▸ hc)
  have hb : b ∈ bs ++ [b] := List.mem_append_right _ (List.mem_singleton_self b)
  -- there is one payload block, so the blocks before it are no records
  have hother (c : WireBlock) (hc : c ∈ bs) (p : PrimaryBlock) : ¬ IsRecord c p := by
    have hpair := hw.payload
    rw [hblocks, List.pairwise_append] at hpair
    exact fun h => hpair.2.2 c hc b (List.mem_singleton_self b) h.1 htype
  obtain ⟨o₁, fuel, hflags, hrun₁⟩ := run_readBundle_of_turns haccepts hw (fun c hc o _ => by
      obtain ⟨o', hload, hkept⟩ := loads_readNext_wire hblob haccepts.block
        (hmem c (List.mem_append_left _ hc)) o (hother c hc _)
      exact ⟨o', hunmarked c hc ▸ hload, hkept⟩) d obj (b.bytes ++ v.bytes)
  have hrecord : IsRecord b o₁.2.toPrimaryBlock := by
    refine ⟨htype, ?_⟩
    rw [PrimaryBlock.get, hflags]
    exact hadm
  obtain ⟨o₂, hrun₂, -⟩ := run_readNext_unknown hblob haccepts.block (hmem b hb) o₁ hrecord
    hunknown v.bytes
  -- the next turn reads the primary block of the next bundle
  have hversion : ¬ IsRecord v.asBlock o₂.2.toPrimaryBlock := fun h =>
    absurd h.1 (show PrimaryBlock.bundleVersion ≠ payloadType by decide)
  obtain ⟨o₃, hload, -⟩ := loads_readNext_wire hblob haccepts.block
    (WireBundle.wellFormed_asBlock hv heids) o₂ hversion
  have hrun₃ : (readNext env).run (o₂, ⟨v.bytes, false, false, []⟩) =
      (.ok true, (o₃, ⟨v.blocks.flatMap WireBlock.bytes, false, false, []⟩)) := by
    have hrun := hload (v.blocks.flatMap WireBlock.bytes) []
    rw [WireBundle.bytes_asBlock heids, ← WireBundle.bytes] at hrun
    exact (show v.asBlock.get lastBlock = true from hlast) ▸ hrun
  have hbytes : w.bytes ++ v.bytes =
      w.primary ++ (bs.flatMap WireBlock.bytes ++ (b.bytes ++ v.bytes)) := by
    simp [WireBundle.bytes, hblocks]
  rw [hbytes, hrun₁, run_readBlocks_of_next rfl hrun₂, run_readBlocks_of_last rfl hrun₃]
  exact ⟨_, rfl⟩

/-- **When a read of a bundle stops at its end.** It does exactly if the bundle does not end with an
unknown record; and a stream of such bundles is read bundle by bundle, with any deserializers and
into any objects. -/
theorem framed_iff {env : DeserializerEnv} (hblob : env.blob.CopiesExactly)
    (haccepts : env.Accepts) :
    (∀ w : WireBundle, w.WellFormed → (Framed env w ↔ ¬ w.EndsWithUnknownRecord)) ∧
      ∀ ws : List WireBundle, (∀ w ∈ ws, w.WellFormed ∧ ¬ w.EndsWithUnknownRecord) →
        ∀ n st s', n ≤ ws.length →
          Successive env n ⟨ws.flatMap WireBundle.bytes, false, false, st⟩ s' →
            ∃ st', s' = ⟨(ws.drop n).flatMap WireBundle.bytes, false, false, st'⟩ := by
  refine ⟨fun w hw => ⟨fun hframed hends => ?_, fun hknown => ?_⟩, fun ws hws n st s' hn h => ?_⟩
  · let v := WireBundle.sample PrimaryBlock.custodyRequested []
    have hv : v.WellFormed := WireBundle.wellFormed_sample (by decide) (by decide)
    obtain ⟨x, hrun⟩ := run_readBundle_unknown hblob haccepts hw hv hends (by decide) (by decide)
      create (Bundle.create 0 0)
    obtain ⟨st', hs⟩ := hframed [v] (by simpa using hv) create (Bundle.create 0 0) [] x _
      (by simpa using hrun)
    have hrest : v.blocks.flatMap WireBlock.bytes = [v].flatMap WireBundle.bytes :=
      congrArg InStream.rest hs
    exact absurd (congrArg List.length hrest) (by decide)
  · exact fun following _ d obj st x s' hrun => stream_of_readBundle hblob haccepts hw hknown hrun
  · exact h.stream_eq hblob haccepts hws hn

theorem accepts_default (blob : BLOB) (now : DTNTime) :
    (DeserializerEnv.default blob now).Accepts :=
  ⟨fun _ => rfl, fun _ _ => rfl, fun _ => rfl⟩

/-- A status report is framed, and a record of the next type is not. -/
theorem framed_iff_sample :
    Framed (.default BLOB.exact ⟨0, 0⟩)
        (.sample PrimaryBlock.appdataIsAdmrecord [0x10, 0x00, 0x00]) ∧
      ¬ Framed (.default BLOB.exact ⟨0, 0⟩) (.sample PrimaryBlock.appdataIsAdmrecord [0x30]) := by
  have h := (framed_iff BLOB.exact_copiesExactly (accepts_default BLOB.exact ⟨0, 0⟩)).1
  refine ⟨(h _ (WireBundle.wellFormed_sample (by decide) (by decide))).2 ?_, fun hframed => ?_⟩
  · rintro ⟨-, b, hb, -, hunknown⟩
    obtain rfl := Option.some.inj hb
    exact absurd rfl (hunknown 0x10 rfl).1
  · refine (h _ (WireBundle.wellFormed_sample (by decide) (by decide))).1 hframed ⟨by decide, _, rfl,
      rfl, ?_⟩
    show UnknownRecord [0x30]
    decide

/-- **The bundle behind an unknown record is lost**: the operator reads its primary block. -/
theorem not_framed_sample :
    (WireBundle.sample PrimaryBlock.appdataIsAdmrecord [0x30]).WellFormed ∧
      ¬ Framed (.default BLOB.exact ⟨0, 0⟩)
        (.sample PrimaryBlock.appdataIsAdmrecord [0x30]) := by
  refine ⟨WireBundle.wellFormed_sample (by decide) (by decide), fun hframed => ?_⟩
  let v := WireBundle.sample PrimaryBlock.custodyRequested []
  have hv : v.WellFormed := WireBundle.wellFormed_sample (by decide) (by decide)
  rcases hrun : (readBundle (.default BLOB.exact ⟨0, 0⟩) create (Bundle.create 0 0)).run
    ⟨(WireBundle.sample PrimaryBlock.appdataIsAdmrecord [0x30]).bytes ++
      [v].flatMap WireBundle.bytes, false, false, []⟩ with ⟨e | x, s'⟩
  · have hok : ((readBundle (.default BLOB.exact ⟨0, 0⟩) create (Bundle.create 0 0)).run
        ⟨(WireBundle.sample PrimaryBlock.appdataIsAdmrecord [0x30]).bytes ++
          [v].flatMap WireBundle.bytes, false, false, []⟩).1.isOk = true := by
      decide +kernel
    rw [hrun] at hok
    exact Bool.false_ne_true hok
  · have hleft : ((readBundle (.default BLOB.exact ⟨0, 0⟩) create (Bundle.create 0 0)).run
        ⟨(WireBundle.sample PrimaryBlock.appdataIsAdmrecord [0x30]).bytes ++
          [v].flatMap WireBundle.bytes, false, false, []⟩).2.rest =
            v.blocks.flatMap WireBlock.bytes := by
      decide +kernel
    obtain ⟨st', rfl⟩ := hframed [v] (by simpa using hv) _ _ [] x s' hrun
    have hlonger : (v.blocks.flatMap WireBlock.bytes).length <
        ([v].flatMap WireBundle.bytes).length := by decide
    rw [hrun] at hleft
    exact absurd (congrArg List.length hleft) hlonger.ne'

end DefaultDeserializer

end IbrDtn
