import IbrDtn.Data.RoundTrip
import IbrDtn.Data.Turns

/-!
# Encodings of bundles

This file describes bundles on the wire, independently of the serializer: a primary block with its
numbers, its dictionary and its fragment fields, and blocks with their flags, references to EIDs
and payloads.  Numbers are SDNVs of any length.  A block of a type with a factory carries what a
block of the class of that type writes; every other block carries any bytes.

## Main definitions

* `SDNV.Wire` : a number on the wire.
* `WireBlock`, `WireBlock.WellFormed` : a block on the wire.
* `WireBundle`, `WireBundle.WellFormed` : a bundle on the wire.

## Main results

* `DefaultDeserializer.loads_pushAndRead_of_body` : a well-formed block is read to its end.
* `DefaultDeserializer.reads_readPrimary_wire` : a primary block is read to its end.
-/

namespace IbrDtn

open Block (blockContainsEids lastBlock payloadType receiver)
open Loader (Loads loads_object loads_update loads_ofParser)

/-! ### Numbers -/

/-- A number on the wire. -/
structure SDNV.Wire where
  bytes : Bytes
  value : UInt64
  terminated : SDNV.Terminated bytes
  length_le : bytes.length ≤ SDNV.maxLength
  decoded : SDNV.decode bytes = .ok value

namespace SDNV.Wire

/-- The shortest form of a number. -/
def shortest (value : UInt64) : Wire where
  bytes := SDNV.bytes value
  value := value
  terminated := SDNV.terminated_bytes value
  length_le := by
    rw [SDNV.length_bytes]
    exact SDNV.groupCount_le _ _
  decoded := SDNV.decode_bytes value

theorem reads (n : Wire) : SDNV.read.Reads n.bytes n.value := by
  refine (SDNV.reads_readBuffer n.terminated n.length_le).then_nil ?_
  rw [n.decoded]
  exact Parser.reads_pure n.value

theorem ne_nil (n : Wire) : n.bytes ≠ [] := by
  intro h
  have hterminated := n.terminated
  rw [h] at hterminated
  exact hterminated

end SDNV.Wire

/-- Pairs of numbers on the wire. -/
abbrev WireRef := SDNV.Wire × SDNV.Wire

namespace WireRef

/-- The bytes of the two numbers. -/
def bytes (ref : WireRef) : Bytes := ref.1.bytes ++ ref.2.bytes

/-- The two numbers. -/
def value (ref : WireRef) : UInt64 × UInt64 := (ref.1.value, ref.2.value)

theorem reads (ref : WireRef) : DefaultDeserializer.readRef.Reads (bytes ref) (value ref) :=
  ref.1.reads.bind ref.2.reads.bind_pure

end WireRef

/-! ### Blocks -/

/-- A block on the wire. The number and the list of references are there if the flags say so. -/
structure WireBlock where
  blocktype : UInt8
  procflags : SDNV.Wire
  count : SDNV.Wire
  refs : List WireRef
  length : SDNV.Wire
  payload : Bytes

namespace WireBlock

/-- A flag of the block. -/
def get (w : WireBlock) (flag : UInt64) : Bool := FlagWord.has w.procflags.value flag

/-- The references of the block. -/
def refList (w : WireBlock) : List WireRef :=
  if w.get blockContainsEids then w.refs else []

/-- The references with their number in front. -/
def refBytes (w : WireBlock) : Bytes :=
  optional (w.get blockContainsEids) (w.count.bytes ++ w.refs.flatMap WireRef.bytes)

/-- Everything in front of the payload. -/
def header (w : WireBlock) : Bytes :=
  w.blocktype :: (w.procflags.bytes ++ (w.refBytes ++ w.length.bytes))

/-- The bytes of the block. -/
def bytes (w : WireBlock) : Bytes := w.header ++ w.payload

/-- The block is what it says: the two announced numbers are right, and the payload of a block of a
type with a factory is in the format of the class of that type. -/
structure WellFormed (w : WireBlock) : Prop where
  ne_zero : w.blocktype ≠ 0
  count : w.get blockContainsEids = true → w.count.value.toNat = w.refs.length
  refs_lt : w.refs.length < 2 ^ 32
  length : w.length.value.toNat = w.payload.length
  format : Factory.get w.blocktype ≠ none → ∃ body : Body, body.classType = some w.blocktype ∧
    (∀ eids : List EID, eids.length = w.refList.length → body.SecurityFits eids) ∧
      body.serialize = w.payload

theorem WellFormed.length_eq {w : WireBlock} (hw : w.WellFormed) :
    w.length.value = UInt64.ofNat w.payload.length := by
  rw [← hw.length, UInt64.ofNat_toNat]

theorem WellFormed.length_lt {w : WireBlock} (hw : w.WellFormed) : w.payload.length < 2 ^ 64 :=
  hw.length ▸ w.length.value.toNat_lt

end WireBlock

/-! ### Reading blocks -/

namespace Body

/-- The two classes that hold a BLOB. -/
def isBlob : Body → Bool
  | .payload _ | .extension _ => true
  | _ => false

/-- The other classes do not look at the announced length. -/
theorem run_deserialize_length {body : Body} (h : body.isBlob = false) (blob : BLOB)
    (eids : List EID) (length length' : UInt64) (s : InStream) :
    (deserialize blob eids length).run (body, s) = (deserialize blob eids length').run (body, s) := by
  rw [deserialize, deserialize, Loader.run_bind_ok (Loader.run_object _),
    Loader.run_bind_ok (Loader.run_object _)]
  cases body <;> first | rfl | exact absurd h (by simp [isBlob])

end Body

theorem Factory.isBlob_of_get {type : UInt8} {n : Block} (hf : Factory.get type = some n) :
    n.body.isBlob = false := by
  have hmem := List.mem_of_find?_eq_some hf
  simp only [List.mem_cons, List.not_mem_nil, or_false] at hmem
  rcases hmem with rfl | rfl | rfl | rfl | rfl | rfl | rfl | rfl <;> rfl

namespace DefaultDeserializer

variable {blob : BLOB} {w : WireBlock}

/-- Any payload is read by the classes that hold a BLOB. -/
theorem loads_blob_wire (hblob : blob.CopiesExactly) (hw : w.WellFormed) (eids : List EID)
    {body : Body} (hbody : body.isBlob = true) :
    ∃ body', (Body.deserialize blob eids w.length.value).Loads w.payload body body' () ∧
      body'.serialize = w.payload := by
  rw [hw.length_eq]
  cases body with
  | payload bs =>
      exact ⟨_, (loads_object _).bind_nil (Body.loads_blob hblob hw.length_lt .payload _), rfl⟩
  | extension bs =>
      exact ⟨_, (loads_object _).bind_nil (Body.loads_blob hblob hw.length_lt .extension _), rfl⟩
  | _ => exact absurd hbody (by simp [Body.isBlob])

/-- The payload of a well-formed block is read by the class that the reader chooses for its type. -/
theorem loads_body_wire (hblob : blob.CopiesExactly) (hw : w.WellFormed) {eids : List EID}
    (heids : eids.length = w.refList.length) :
    ∃ body, (Body.deserialize blob eids w.length.value).Loads w.payload
      (receiver w.blocktype).body body () ∧ body.serialize = w.payload := by
  cases hf : Factory.get w.blocktype with
  | none =>
      refine loads_blob_wire hblob hw eids ?_
      rw [receiver, hf]
      dsimp only
      split_ifs <;> rfl
  | some n =>
      obtain ⟨b, htype, hfits, hpayload⟩ := hw.format (by rw [hf]; exact Option.some_ne_none n)
      have hload := Body.loads_deserialize hblob (.inl htype) (hfits eids heids)
        (hpayload ▸ hw.length_lt)
      have hserialize := b.serialize_received eids
      have hbody : (receiver w.blocktype).body.isBlob = false := by
        rw [receiver, hf]
        exact Factory.isBlob_of_get hf
      rw [hpayload] at hload hserialize
      refine ⟨_, fun r st => ?_, hserialize⟩
      rw [Body.run_deserialize_length hbody _ _ _ (UInt64.ofNat b.getLength)]
      exact hload r st

/-- Reading the payload of a block changes its flags at most by the mark that it was forwarded
without being processed. -/
theorem loads_blockDeserialize {length : UInt64} {n : Block} {body : Body} {bs : Bytes}
    (h : (Body.deserialize blob n.eids length).Loads bs n.body body ()) :
    ∃ n', (Block.deserialize blob length).Loads bs n n' () ∧ n'.body = body ∧
      n'.blocktype = n.blocktype ∧ n'.eids = n.eids ∧
      ∀ flag, Block.forwardedWithoutProcessed &&& flag = 0 → n'.get flag = n.get flag := by
  have hwithin := h.within (fun body (b : Block) => { b with body }) n
  cases hmark : n.body.forwardedMark with
  | none =>
      refine ⟨{ n with body }, (loads_object n).bind_nil (hwithin.then_nil ?_), rfl, rfl,
        rfl, fun _ _ => rfl⟩
      rw [hmark]
      exact Loader.loads_pure () _
  | some value =>
      refine ⟨{ n with body }.set Block.forwardedWithoutProcessed value,
        (loads_object n).bind_nil (hwithin.then_nil ?_), rfl, rfl, rfl, fun flag hflag => ?_⟩
      · rw [hmark]
        exact loads_update _ _
      · rw [Block.get, Block.get, Block.set]
        exact FlagWord.has_assign_of_disjoint hflag value

/-- The references of a block that is already known to contain EIDs are read. -/
theorem loads_readBlockEIDs_wire (refs : List WireRef) (d : DefaultDeserializer) {b : Block}
    (hb : b.procflags &&& blockContainsEids = blockContainsEids) :
    ∃ d' eids, eids.length = refs.length ∧ (readBlockEIDs refs.length).Loads
      (refs.flatMap WireRef.bytes) (d, b) (d', { b with eids := b.eids ++ eids }) () := by
  induction refs generalizing d b with
  | nil =>
      refine ⟨d, [], rfl, ?_⟩
      rw [List.append_nil]
      exact Loader.loads_pure () _
  | cons ref refs ih =>
      let e := (d.lookupEID ref.1.value ref.2.value).1
      have hadd : b.addEID e = { b with eids := b.eids ++ [e] } := by
        rw [Block.addEID, FlagWord.assign, if_pos rfl, FlagWord.or_eq_self hb]
      obtain ⟨d', eids, hlength, hload⟩ := ih (d.lookupEID ref.1.value ref.2.value).2
        (b := { b with eids := b.eids ++ [e] }) hb
      refine ⟨d', e :: eids, by rw [List.length_cons, List.length_cons, hlength], ?_⟩
      rw [List.length_cons, readBlockEIDs, List.flatMap_cons, WireRef.bytes, List.append_assoc]
      refine (loads_ofParser ref.1.reads _).bind
        ((loads_ofParser ref.2.reads _).bind ((loads_update _ _).bind_nil ?_))
      rw [List.append_cons b.eids e eids]
      simp only [show b.addEID (d.lookupEID ref.1.value ref.2.value).1 = _ from hadd]
      exact hload

/-- The optional references of a block whose flags were read. -/
theorem loads_readEIDList_wire (hw : w.WellFormed) (d : DefaultDeserializer) {n : Block}
    (hflags : n.procflags = w.procflags.value) (hn : n.eids = []) :
    ∃ d' eids, eids.length = w.refList.length ∧ (readEIDList w.procflags.value).Loads w.refBytes
      (d, n) (d', { n with eids }) () := by
  rw [readEIDList, WireBlock.refBytes, WireBlock.refList, ← WireBlock.get]
  cases hc : w.get blockContainsEids with
  | false =>
      refine ⟨d, [], rfl, ?_⟩
      rw [if_neg Bool.false_ne_true, ← hn]
      exact Loader.loads_pure () _
  | true =>
      have hbit : n.procflags &&& blockContainsEids = blockContainsEids := by
        rw [hflags]
        exact FlagWord.and_eq_of_has ⟨6, by decide, by decide⟩ hc
      obtain ⟨d', eids, hlength, hload⟩ := loads_readBlockEIDs_wire w.refs d hbit
      rw [hn, List.nil_append] at hload
      refine ⟨d', eids, hlength, ?_⟩
      rw [if_pos rfl]
      refine (loads_ofParser w.count.reads _).bind ?_
      rw [hw.count hc, if_pos hw.refs_lt]
      exact hload

/-- The header of a well-formed block is read, and leaves the announced length. -/
theorem loads_readHeader_wire (hw : w.WellFormed) {n : Block} (hn : n.eids = [])
    (hlast : n.procflags &&& lastBlock = lastBlock) (d : DefaultDeserializer) :
    ∃ d' eids, eids.length = w.refList.length ∧ readHeader.Loads w.header (d, n)
      (d', { n with blocktype := w.blocktype, procflags := w.procflags.value, eids })
        w.length.value := by
  have hflags : w.procflags.value &&& (~~~lastBlock ||| n.procflags) = w.procflags.value :=
    FlagWord.and_not_or_of_and_eq hlast
  let n₁ : Block := { n with blocktype := w.blocktype, procflags := w.procflags.value }
  obtain ⟨d', eids, hlength, heids⟩ := loads_readEIDList_wire hw d (n := n₁) rfl hn
  refine ⟨d', eids, hlength, (loads_object _).bind_nil ?_⟩
  refine (loads_ofParser (Parser.reads_getByte _ w.blocktype) _).bind_cons
    ((loads_update _ _).bind_nil ?_)
  refine (loads_ofParser w.procflags.reads _).bind ((loads_update _ _).bind_nil ?_)
  refine (loads_object _).bind_nil ?_
  simp only [hflags]
  exact heids.bind (loads_ofParser w.length.reads _)

/-- A well-formed block is read to its end into a new block whose class reads the payload. It has
the flags that are on the wire, up to the mark that it was forwarded without being processed. -/
theorem loads_readBlock_of_body {env : DeserializerEnv} {Q : Body → Prop}
    (hblock : ∀ b size, env.validator.block b size = .ok ()) (hw : w.WellFormed) {n : Block}
    (hbody : ∀ eids : List EID, eids.length = w.refList.length → ∃ body,
      (Body.deserialize env.blob eids w.length.value).Loads w.payload n.body body () ∧ Q body)
    (hn : n.eids = []) (hlast : n.procflags &&& lastBlock = lastBlock)
    (d : DefaultDeserializer) :
    ∃ d' n', (readBlock env).Loads w.bytes (d, n) (d', n') () ∧ n'.blocktype = w.blocktype ∧
      Q n'.body ∧ n'.eids.length = w.refList.length ∧
      ∀ flag, Block.forwardedWithoutProcessed &&& flag = 0 → n'.get flag = w.get flag := by
  obtain ⟨d', eids, hlength, hheader⟩ := loads_readHeader_wire hw hn hlast d
  obtain ⟨body, hload, hQ⟩ := hbody eids hlength
  let n₁ : Block := { n with blocktype := w.blocktype, procflags := w.procflags.value, eids }
  obtain ⟨n', hpayload, hb, htype, heids, hget⟩ := loads_blockDeserialize (n := n₁) hload
  refine ⟨d', n', ?_, htype, hb ▸ hQ, heids ▸ hlength, hget⟩
  rw [readBlock_eq, WireBlock.bytes]
  refine hheader.bind ((loads_object _).bind_nil ?_)
  refine Loader.Loads.bind_nil (SecurityBlock.loads_ofExcept (hblock _ _) _) ?_
  exact hpayload.within _ _

/-- A new block is appended and read. -/
theorem loads_pushAndRead_of_body {env : DeserializerEnv} {Q : Body → Prop}
    (hblock : ∀ b size, env.validator.block b size = .ok ()) (hw : w.WellFormed) {n : Block}
    (hbody : ∀ eids : List EID, eids.length = w.refList.length → ∃ body,
      (Body.deserialize env.blob eids w.length.value).Loads w.payload n.body body () ∧ Q body)
    (hn : n.eids = []) (o : DefaultDeserializer × Bundle) :
    ∃ d' n', (pushAndRead env n).Loads w.bytes o (d', (o.2.pushBack n).setBack n') n' ∧
      n'.blocktype = w.blocktype ∧ Q n'.body ∧ n'.eids.length = w.refList.length ∧
      ∀ flag, Block.forwardedWithoutProcessed &&& flag = 0 → n'.get flag = w.get flag := by
  have hlast : (n.set lastBlock true).procflags &&& lastBlock = lastBlock :=
    FlagWord.or_and_self _ _
  obtain ⟨d', n', hload, hn'⟩ := loads_readBlock_of_body hblock hw
    (n := n.set lastBlock true) hbody hn hlast o.1
  refine ⟨d', n', (loads_update _ _).bind_nil ((loads_object _).bind_nil ?_), hn'⟩
  exact (hload.then_nil (f := fun _ => Loader.object >>= fun p => pure p.2)
    ((loads_object (d', n')).bind_nil (Loader.loads_pure n' _))).within
    (fun p (o : DefaultDeserializer × Bundle) => (p.1, o.2.setBack p.2)) (o.1, o.2.pushBack n)

/-- The new block is of the class that the reader chooses for its type, or a plain extension
block. -/
theorem loads_pushAndRead_wire {env : DeserializerEnv} (hblob : env.blob.CopiesExactly)
    (hblock : ∀ b size, env.validator.block b size = .ok ()) (hw : w.WellFormed) {n : Block}
    (hbody : n.body = (receiver w.blocktype).body ∨ n.body.isBlob = true) (hn : n.eids = [])
    (o : DefaultDeserializer × Bundle) :
    ∃ d' n', (pushAndRead env n).Loads w.bytes o (d', (o.2.pushBack n).setBack n') n' ∧
      n'.blocktype = w.blocktype ∧ n'.body.serialize = w.payload ∧
      n'.eids.length = w.refList.length ∧
      ∀ flag, Block.forwardedWithoutProcessed &&& flag = 0 → n'.get flag = w.get flag := by
  refine loads_pushAndRead_of_body (Q := fun body => body.serialize = w.payload) hblock hw
    (fun eids hlength => ?_) hn o
  rcases hbody with hbody | hbody
  · rw [hbody]
    exact loads_body_wire hblob hw hlength
  · exact loads_blob_wire hblob hw eids hbody

/-! ### Turns of the loop -/

/-- The payload block of a bundle that is flagged as an administrative record. -/
def IsRecord (w : WireBlock) (p : PrimaryBlock) : Prop :=
  w.blocktype = payloadType ∧ p.get PrimaryBlock.appdataIsAdmrecord = true

/-- **One turn of the loop reads a block that is no administrative record to its end**, answers
whether it is flagged as the last one, and keeps the primary block. -/
theorem loads_readNext_wire {env : DeserializerEnv} (hblob : env.blob.CopiesExactly)
    (hblock : ∀ b size, env.validator.block b size = .ok ()) (hw : w.WellFormed)
    (o : DefaultDeserializer × Bundle) (hrecord : ¬ IsRecord w o.2.toPrimaryBlock) :
    ∃ o', (readNext env).Loads w.bytes o o' (w.get lastBlock) ∧
      o'.2.toPrimaryBlock = o.2.toPrimaryBlock := by
  have hcons : w.bytes = w.blocktype :: (w.procflags.bytes ++ (w.refBytes ++ w.length.bytes) ++
      w.payload) := rfl
  have hread {n : Block} (hbody : n.body = (receiver w.blocktype).body ∨
      n.body.isBlob = true) (hn : n.eids = []) := loads_pushAndRead_wire hblob hblock hw hbody hn o
  by_cases hp : w.blocktype = payloadType
  · obtain ⟨d', n', hload, -, -, -, hget⟩ := hread (n := Block.newPayload) (.inr rfl) rfl
    refine ⟨(d', (o.2.pushBack Block.newPayload).setBack n'), ?_, rfl⟩
    rw [hcons] at hload ⊢
    refine Loads.peek ?_
    simp only [Option.getD_some, if_neg hw.ne_zero, if_pos hp]
    refine (loads_object _).bind_nil ?_
    have hadm : o.2.get PrimaryBlock.appdataIsAdmrecord = false :=
      Bool.eq_false_iff.2 fun h => hrecord ⟨hp, h⟩
    simp only [hadm, Bool.false_eq_true, if_false]
    rw [← hget lastBlock (by decide)]
    exact hload.then_nil (Loader.loads_pure _ _)
  · cases hf : Factory.get w.blocktype with
    | some n =>
        have hn : n = receiver w.blocktype := by rw [receiver, hf]
        obtain ⟨d', n', hload, -, -, -, hget⟩ := hread (.inl (congrArg Block.body hn))
          (Factory.eids_of_get hf)
        refine ⟨(d', (o.2.pushBack n).setBack n'), ?_, rfl⟩
        rw [hcons] at hload ⊢
        refine Loads.peek ?_
        simp only [Option.getD_some, if_neg hw.ne_zero, if_neg hp, hf]
        rw [← hget lastBlock (by decide)]
        refine Loads.tryCatch ?_ _
        exact hload.then_nil (Loader.loads_pure _ _)
    | none =>
        obtain ⟨d', n', hload, -, -, -, hget⟩ := hread (n := Block.newExtension) (.inr rfl) rfl
        let bundle := (o.2.pushBack Block.newExtension).setBack n'
        refine ⟨(d', if n'.get Block.discardIfNotProcessed then
          bundle.remove (bundle.blocks.length - 1) else bundle), ?_, ?_⟩
        · rw [hcons] at hload ⊢
          refine Loads.peek ?_
          simp only [Option.getD_some, if_neg hw.ne_zero, if_neg hp, hf]
          refine loads_tryCatch_throw _ ?_
          simp only [Exn.isException, if_true]
          rw [← hget lastBlock (by decide)]
          refine hload.then_nil ?_
          cases n'.get Block.discardIfNotProcessed with
          | true => exact (loads_update _ _).bind_nil (Loader.loads_pure _ _)
          | false => exact Loader.loads_pure _ _
        · dsimp only
          split_ifs <;> rfl

/-- Blocks that are read by turns which do not stop the loop. -/
theorem run_readBlocks_of_turns {env : DeserializerEnv} {p : PrimaryBlock} {bs : List WireBlock}
    (hturn : ∀ c ∈ bs, ∀ o : DefaultDeserializer × Bundle, o.2.toPrimaryBlock = p →
      ∃ o', (readNext env).Loads c.bytes o o' false ∧ o'.2.toPrimaryBlock = p)
    (o : DefaultDeserializer × Bundle) (ho : o.2.toPrimaryBlock = p) :
    ∃ o', o'.2.toPrimaryBlock = p ∧ ∀ fuel r st,
      (readBlocks env (bs.length + fuel)).run (o, ⟨bs.flatMap WireBlock.bytes ++ r, false, false,
        st⟩) = (readBlocks env fuel).run (o', ⟨r, false, false, st⟩) := by
  induction bs generalizing o with
  | nil => exact ⟨o, ho, fun fuel r st => by rw [List.length_nil, Nat.zero_add]; rfl⟩
  | cons c bs ih =>
      obtain ⟨hc, hbs⟩ := List.forall_mem_cons.1 hturn
      obtain ⟨o₁, hload, ho₁⟩ := hc o ho
      obtain ⟨o', ho', hrun⟩ := ih hbs o₁ ho₁
      refine ⟨o', ho', fun fuel r st => ?_⟩
      rw [List.length_cons, Nat.add_right_comm, List.flatMap_cons, List.append_assoc,
        run_readBlocks_of_next rfl (hload _ st), hrun]

end DefaultDeserializer

/-! ### Bundles -/

/-- A bundle on the wire. The fragment fields are there if the flags say so; a compressed header is
one with an empty dictionary. -/
structure WireBundle where
  procflags : SDNV.Wire
  blocklength : SDNV.Wire
  destination : WireRef
  source : WireRef
  reportto : WireRef
  custodian : WireRef
  timestamp : SDNV.Wire
  sequencenumber : SDNV.Wire
  lifetime : SDNV.Wire
  dictionaryLength : SDNV.Wire
  dictionary : Bytes
  fragment : WireRef
  blocks : List WireBlock

namespace WireBundle

/-- A flag of the bundle. -/
def get (w : WireBundle) (flag : UInt64) : Bool := FlagWord.has w.procflags.value flag

/-- The primary block behind its length. -/
def header (w : WireBundle) : Bytes :=
  WireRef.bytes w.destination ++ (WireRef.bytes w.source ++ (WireRef.bytes w.reportto ++
    (WireRef.bytes w.custodian ++ (w.timestamp.bytes ++ (w.sequencenumber.bytes ++
      (w.lifetime.bytes ++ ((w.dictionaryLength.bytes ++ w.dictionary) ++
        optional (w.get PrimaryBlock.fragment) (WireRef.bytes w.fragment))))))))

/-- The primary block. -/
def primary (w : WireBundle) : Bytes :=
  PrimaryBlock.bundleVersion :: (w.procflags.bytes ++ (w.blocklength.bytes ++ w.header))

/-- The bytes of the bundle. -/
def bytes (w : WireBundle) : Bytes := w.primary ++ w.blocks.flatMap WireBlock.bytes

/-- The bundle is what it says: the announced lengths are right, the blocks are well formed, exactly
the final one is flagged as the last, and at most one is a payload block. -/
structure WellFormed (w : WireBundle) : Prop where
  blocklength : w.blocklength.value.toNat = w.header.length
  dictionary : w.dictionaryLength.value.toNat = w.dictionary.length
  blocks : ∀ b ∈ w.blocks, b.WellFormed
  marked : ∃ bs b, w.blocks = bs ++ [b] ∧ (∀ c ∈ bs, c.get lastBlock = false) ∧
    b.get lastBlock = true
  payload : w.blocks.Pairwise fun b c =>
    b.blocktype = payloadType → c.blocktype ≠ payloadType

end WireBundle

namespace DefaultDeserializer

/-- The dictionary of a bundle, or its absence, is read. -/
theorem reads_dictionary_wire {w : WireBundle}
    (hw : w.dictionaryLength.value.toNat = w.dictionary.length) (d : DefaultDeserializer)
    (destination source reportto custodian : UInt64 × UInt64) :
    ∃ x, (catching Exn.isInvalidData (d.readEIDs destination source reportto custodian)
      (pure (d.compressedEIDs destination source reportto custodian))).Reads
        (w.dictionaryLength.bytes ++ w.dictionary) x := by
  by_cases hzero : w.dictionaryLength.value.toNat ≤ 0
  · refine ⟨d.compressedEIDs destination source reportto custodian, ?_⟩
    have hnil : w.dictionary = [] := by
      rw [← List.length_eq_zero_iff, ← hw]
      omega
    have hthrow : d.dictionary.read.Throws (w.dictionaryLength.bytes ++ [])
        (.invalidData "Dictionary size is zero!") := by
      refine w.dictionaryLength.reads.bind_throws ?_
      rw [if_pos hzero]
      exact (Parser.throws_throw _).bind _
    rw [hnil, List.append_nil] at *
    rw [← List.append_nil w.dictionaryLength.bytes]
    exact throws_catching (hthrow.bind _) rfl (Parser.reads_pure _)
  · have hread : d.dictionary.read.Reads (w.dictionaryLength.bytes ++ w.dictionary)
        (d.dictionary.clear.append w.dictionary) := by
      refine w.dictionaryLength.reads.bind ?_
      rw [if_neg hzero, hw]
      exact (Parser.reads_readBytes w.dictionary).bind_pure
    exact ⟨_, reads_catching (hread.bind_pure) _⟩

/-- **A primary block is read to its end**, with the flags that are on the wire. -/
theorem reads_readPrimary_wire {env : DeserializerEnv}
    (hprimary : ∀ p, env.validator.primaryBlock p = .ok ()) {w : WireBundle}
    (hw : w.dictionaryLength.value.toNat = w.dictionary.length) (d : DefaultDeserializer)
    (obj : PrimaryBlock) :
    ∃ p d', (readPrimary env d obj).Reads w.primary (p, d') ∧
      p.procflags = w.procflags.value := by
  obtain ⟨⟨eids, d'⟩, hdict⟩ := reads_dictionary_wire hw d (WireRef.value w.destination)
    (WireRef.value w.source) (WireRef.value w.reportto) (WireRef.value w.custodian)
  have hfragment : ∃ ref, (readOptional (w.get PrimaryBlock.fragment) readRef
      (obj.fragmentoffset, obj.appdatalength)).Reads
      (optional (w.get PrimaryBlock.fragment) (WireRef.bytes w.fragment)) ref := by
    cases w.get PrimaryBlock.fragment with
    | true => exact ⟨_, WireRef.reads w.fragment⟩
    | false => exact ⟨_, Parser.reads_pure _⟩
  obtain ⟨ref, hfragment⟩ := hfragment
  let p : PrimaryBlock :=
    { procflags := w.procflags.value, timestamp := w.timestamp.value,
      sequencenumber := w.sequencenumber.value, lifetime := w.lifetime.value,
      fragmentoffset := ref.1, appdatalength := ref.2, source := eids.source,
      destination := eids.destination, reportto := eids.reportto, custodian := eids.custodian }
  refine ⟨p, d', ?_, rfl⟩
  refine (Parser.reads_getByte _ PrimaryBlock.bundleVersion).bind_cons ?_
  rw [if_neg (by decide)]
  refine w.procflags.reads.bind (w.blocklength.reads.bind ?_)
  refine (WireRef.reads w.destination).bind ((WireRef.reads w.source).bind
    ((WireRef.reads w.reportto).bind ((WireRef.reads w.custodian).bind ?_)))
  refine w.timestamp.reads.bind (w.sequencenumber.reads.bind (w.lifetime.reads.bind ?_))
  refine hdict.bind ?_
  refine hfragment.then_nil ?_
  simp only [hprimary]
  exact Parser.reads_pure _

end DefaultDeserializer

end IbrDtn
