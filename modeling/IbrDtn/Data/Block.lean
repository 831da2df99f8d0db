import IbrDtn.Data.SecurityBlock

/-!
# Blocks

This file models `ibrdtn/data/Block.cpp` and the classes derived from it: a block has a type,
processing flags, a list of EIDs and a payload in the format of its class.  The classes are the
constructors of `Body`; the extension block factories create the bodies that the reader knows.

The BLOBs that hold payloads belong to the library `ibrcommon`, which is not part of the
repository.  Their content is a byte string here, and the function that fills one from a stream is
the parameter `BLOB.copy`.

## Main definitions

* `Body`, `Block` : the block classes and their common members.
* `Body.getLength`, `Body.serialize`, `Body.deserialize` : the payload formats.
* `Factory.get` : the extension block factories.
* `Block.view` : what a block is to its reader.

## Main results

* `Body.loads_deserialize` : the class that the reader chooses for a type reads the payload of a
  block of that type back.
-/

namespace IbrDtn

open Loader (loads_object loads_update object ofParser update within)
open Parser (reads_pure)

/-! ### Containers for payloads -/

/-- The parameter for `ibrcommon::BLOB`: whether a new container is in a good state, and
`BLOB::copy(*io, stream, length)`, which returns the bytes it put into the container. -/
structure BLOB where
  good : Bool
  copy : ℕ → Parser Exn Bytes

namespace BLOB

/-- The containers work, and copy exactly the requested bytes. -/
structure CopiesExactly (blob : BLOB) : Prop where
  good : blob.good = true
  copy : ∀ bs : Bytes, (blob.copy bs.length).Reads bs bs

/-- Filling a container, as `ExtensionBlock::deserialize` and `PayloadBlock::deserialize` do. -/
def fill (blob : BLOB) (length : ℕ) : Parser Exn Bytes :=
  if blob.good then
    MonadExcept.tryCatch (blob.copy length) fun e =>
      match e with
      | .ioException what => throw (.serializationFailed what)
      | e => throw e
  else throw (.serializationFailed "could not open BLOB for payload")

theorem CopiesExactly.reads_fill {blob : BLOB} (h : blob.CopiesExactly) (bs : Bytes) :
    (blob.fill bs.length).Reads bs bs := by
  rw [fill, if_pos h.good]
  exact (h.copy bs).tryCatch _

/-- Containers that copy what there is, and throw when that is too little. -/
def exact : BLOB :=
  ⟨true, fun length => do
    let remaining ← Parser.remaining
    if length ≤ remaining then Parser.readBytes length
    else throw (Exn.ioException "input stream went bad")⟩

theorem exact_copiesExactly : exact.CopiesExactly := by
  refine ⟨rfl, fun bs r st => ?_⟩
  have hlen : bs.length ≤ (bs ++ r).length := by
    rw [List.length_append]
    omega
  have hrem : Parser.run (Parser.remaining : Parser Exn ℕ) ⟨bs ++ r, false, false, st⟩ =
      (.ok (bs ++ r).length, ⟨bs ++ r, false, false, st⟩) := rfl
  rw [exact, Parser.run_bind_ok hrem, if_pos hlen]
  exact Parser.reads_readBytes bs r st

end BLOB

/-! ### The block classes -/

/-- `class AgeBlock`: the stored age, and what the running `_time` measures when the length of the
payload is predicted and when the payload is written. -/
structure AgeBlock where
  age : UInt64
  elapsedAtLength : UInt64
  elapsedAtSerialize : UInt64
deriving DecidableEq, Repr

/-- `AgeBlock::deserialize`, which restarts `_time`. -/
def AgeBlock.deserialize : Loader Exn AgeBlock Unit := do
  let a ← object
  within a.age (fun age a => { a with age }) SDNV.load
  update fun a => ⟨a.age, 0, 0⟩

/-- `class ScopeControlHopLimitBlock`. -/
structure ScopeControlHopLimitBlock where
  count : UInt64
  limit : UInt64
deriving DecidableEq, Repr

/-- `ScopeControlHopLimitBlock::deserialize`. -/
def ScopeControlHopLimitBlock.deserialize : Loader Exn ScopeControlHopLimitBlock Unit := do
  let b ← object
  within b.count (fun count b => { b with count }) SDNV.load
  within b.limit (fun limit b => { b with limit }) SDNV.load

/-- `class StreamBlock`. -/
structure StreamBlock where
  streamflags : UInt64
  seq : UInt64
deriving DecidableEq, Repr

/-- `StreamBlock::deserialize`. -/
def StreamBlock.deserialize : Loader Exn StreamBlock Unit := do
  let streamflags ← ofParser SDNV.read
  update fun b => { b with streamflags }
  let b ← object
  within b.seq (fun seq b => { b with seq }) SDNV.load

/-- `class CompressedPayloadBlock`. -/
structure CompressedPayloadBlock where
  algorithm : UInt64
  originSize : UInt64
deriving DecidableEq, Repr

/-- `CompressedPayloadBlock::deserialize`. -/
def CompressedPayloadBlock.deserialize : Loader Exn CompressedPayloadBlock Unit := do
  let b ← object
  within b.algorithm (fun algorithm b => { b with algorithm }) SDNV.load
  within b.originSize (fun originSize b => { b with originSize }) SDNV.load

/-- `PayloadIntegrityBlock::deserialize`, into the members of the security block and the size of
its result. -/
def PayloadIntegrityBlock.deserialize (eids : List EID) :
    Loader Exn (SecurityBlock × ℕ) Unit := do
  let o ← object
  within o.1 (fun b o => (b, o.2)) (SecurityBlock.deserialize eids)
  update fun o => (o.1, o.1.securityResult.getLength)

/-- The members of the block classes beyond those of `Block`. -/
inductive Body where
  | payload (blob : Bytes)
  | extension (blob : Bytes)
  | age (b : AgeBlock)
  | scopeControlHopLimit (b : ScopeControlHopLimitBlock)
  | stream (b : StreamBlock)
  | compressedPayload (b : CompressedPayloadBlock)
  | bundleAuthentication (b : SecurityBlock)
  | payloadIntegrity (b : SecurityBlock) (resultSize : ℕ)
  | payloadConfidential (b : SecurityBlock)
  | extensionSecurity (b : SecurityBlock)
  | statusReport (b : StatusReportBlock)
  | custodySignal (b : CustodySignalBlock)
deriving DecidableEq

namespace Body

/-- `BundleAuthenticationBlock::getSecurityResultSize`: a type, a length and a SHA-1 hash. -/
def authenticationResultSize : ℕ := 1 + SDNV.getLength 20 + 20

/-- `getSecurityResultSize` of the class, for the blocks that have a security result. -/
def getSecurityResultSize : Body → ℕ
  | .bundleAuthentication _ => authenticationResultSize
  | .payloadIntegrity b resultSize => if resultSize > 0 then resultSize else b.getSecurityResultSize
  | .payloadConfidential b | .extensionSecurity b => b.getSecurityResultSize
  | _ => 0

/-- `getLength` of the class. -/
def getLength : Body → ℕ
  | .payload blob => blob.length
  | .extension blob => blob.length
  | .age b => SDNV.getLength (b.age + b.elapsedAtLength)
  | .scopeControlHopLimit b => SDNV.getLength b.count + SDNV.getLength b.limit
  | .stream b => SDNV.getLength b.streamflags + SDNV.getLength b.seq
  | .compressedPayload b => SDNV.getLength b.algorithm + SDNV.getLength b.originSize
  | .bundleAuthentication b => b.getLength authenticationResultSize
  | .payloadIntegrity b resultSize =>
      b.getLength (if resultSize > 0 then resultSize else b.getSecurityResultSize)
  | .payloadConfidential b => b.getLength b.getSecurityResultSize
  | .extensionSecurity b => b.getLength b.getSecurityResultSize
  | .statusReport b => b.getLength
  | .custodySignal b => b.getLength

/-- `serialize` of the class. -/
def serialize : Body → Bytes
  | .payload blob => blob
  | .extension blob => blob
  | .age b => SDNV.write (b.age + b.elapsedAtSerialize)
  | .scopeControlHopLimit b => SDNV.write b.count ++ SDNV.write b.limit
  | .stream b => SDNV.write b.streamflags ++ SDNV.write b.seq
  | .compressedPayload b => SDNV.write b.algorithm ++ SDNV.write b.originSize
  | .bundleAuthentication b => b.serialize
  | .payloadIntegrity b _ => b.serialize
  | .payloadConfidential b => b.serialize
  | .extensionSecurity b => b.serialize
  | .statusReport b => b.serialize
  | .custodySignal b => b.serialize

/-- `deserialize` of the class, in a block with the EIDs `eids`. Only the two classes that hold a
BLOB look at the announced `length`. -/
def deserialize (blob : BLOB) (eids : List EID) (length : UInt64) : Loader Exn Body Unit := do
  match ← object with
  | .payload _ =>
      let bs ← ofParser (blob.fill length.toNat)
      update fun _ => .payload bs
  | .extension _ =>
      let bs ← ofParser (blob.fill length.toNat)
      update fun _ => .extension bs
  | .age b => within b (fun b _ => .age b) AgeBlock.deserialize
  | .scopeControlHopLimit b =>
      within b (fun b _ => .scopeControlHopLimit b) ScopeControlHopLimitBlock.deserialize
  | .stream b => within b (fun b _ => .stream b) StreamBlock.deserialize
  | .compressedPayload b =>
      within b (fun b _ => .compressedPayload b) CompressedPayloadBlock.deserialize
  | .bundleAuthentication b =>
      within b (fun b _ => .bundleAuthentication b) (SecurityBlock.deserialize eids)
  | .payloadIntegrity b resultSize =>
      within (b, resultSize) (fun o _ => .payloadIntegrity o.1 o.2)
        (PayloadIntegrityBlock.deserialize eids)
  | .payloadConfidential b =>
      within b (fun b _ => .payloadConfidential b) (SecurityBlock.deserialize eids)
  | .extensionSecurity b =>
      within b (fun b _ => .extensionSecurity b) (SecurityBlock.deserialize eids)
  | .statusReport b =>
      let b ← ofParser b.deserialize
      update fun _ => .statusReport b
  | .custodySignal b =>
      let b ← ofParser b.deserialize
      update fun _ => .custodySignal b

/-- What `deserialize` assigns to the mark `FORWARDED_WITHOUT_PROCESSED` of the block at its end,
if anything. -/
def forwardedMark : Body → Option Bool
  | .extension _ => some true
  | .payload _ | .statusReport _ | .custodySignal _ => some false
  | _ => none

/-- The members of a security block. -/
def security? : Body → Option SecurityBlock
  | .bundleAuthentication b | .payloadIntegrity b _ | .payloadConfidential b
  | .extensionSecurity b => some b
  | _ => none

end Body

/-- `class Block` with the members of its class. -/
structure Block where
  blocktype : UInt8
  procflags : UInt64
  eids : List EID
  body : Body
deriving DecidableEq

namespace Block

/-! ### Flags -/

/-- The bits of `Block::ProcFlags`. -/
def replicateInEveryFragment : UInt64 := 0x01
def transmitStatusreportIfNotProcessed : UInt64 := 0x02
def deleteBundleIfNotProcessed : UInt64 := 0x04
def lastBlock : UInt64 := 0x08
def discardIfNotProcessed : UInt64 := 0x10
def forwardedWithoutProcessed : UInt64 := 0x20
def blockContainsEids : UInt64 := 0x40

/-- `Block::get`. -/
def get (b : Block) (flag : UInt64) : Bool := FlagWord.has b.procflags flag

/-- `Block::set`. -/
def set (b : Block) (flag : UInt64) (value : Bool) : Block :=
  { b with procflags := FlagWord.assign b.procflags flag value }

/-- `Block::addEID`. -/
def addEID (b : Block) (eid : EID) : Block :=
  { b with
    eids := b.eids ++ [eid]
    procflags := FlagWord.assign b.procflags blockContainsEids true }

/-- `deserialize` of the class of the block, with the mark that some classes set at its end. -/
def deserialize (blob : BLOB) (length : UInt64) : Loader Exn Block Unit := do
  let b ← object
  within b.body (fun body b => { b with body }) (Body.deserialize blob b.eids length)
  match b.body.forwardedMark with
  | some value => update fun b => b.set forwardedWithoutProcessed value
  | none => pure ()

/-! ### Constructors -/

/-- `PayloadBlock::BLOCK_TYPE`. -/
def payloadType : UInt8 := 1

/-- `PayloadBlock::PayloadBlock()`. -/
def newPayload : Block := ⟨payloadType, 0, [], .payload []⟩

/-- `ExtensionBlock::ExtensionBlock()`. -/
def newExtension : Block := ⟨0, 0, [], .extension []⟩

/-- `AgeBlock::AgeBlock()`. -/
def newAge : Block := ⟨10, replicateInEveryFragment, [], .age ⟨0, 0, 0⟩⟩

/-- `ScopeControlHopLimitBlock::ScopeControlHopLimitBlock()`. -/
def newScopeControlHopLimit : Block :=
  ⟨199, replicateInEveryFragment, [], .scopeControlHopLimit ⟨0, 0⟩⟩

/-- `StreamBlock::StreamBlock()`. -/
def newStream : Block := ⟨242, 0, [], .stream ⟨0, 0⟩⟩

/-- `CompressedPayloadBlock::CompressedPayloadBlock()`. -/
def newCompressedPayload : Block := ⟨202, 0, [], .compressedPayload ⟨0, 0⟩⟩

/-- `BundleAuthenticationBlock::BundleAuthenticationBlock()`. -/
def newBundleAuthentication : Block := ⟨2, 0, [], .bundleAuthentication (.create 1)⟩

/-- `PayloadIntegrityBlock::PayloadIntegrityBlock()`. -/
def newPayloadIntegrity : Block := ⟨3, 0, [], .payloadIntegrity (.create 2) 0⟩

/-- `PayloadConfidentialBlock::PayloadConfidentialBlock()`. -/
def newPayloadConfidential : Block := ⟨4, 0, [], .payloadConfidential (.create 3)⟩

/-- `ExtensionSecurityBlock::ExtensionSecurityBlock()`. -/
def newExtensionSecurity : Block := ⟨9, 0, [], .extensionSecurity (.create 4)⟩

/-- `StatusReportBlock::StatusReportBlock()` at the time `now`. -/
def newStatusReport (now : DTNTime) : Block := ⟨payloadType, 0, [], .statusReport (.create now)⟩

/-- `CustodySignalBlock::CustodySignalBlock()` at the time `now`. -/
def newCustodySignal (now : DTNTime) : Block := ⟨payloadType, 0, [], .custodySignal (.create now)⟩

end Block

/-- `ExtensionBlock::Factory::get(type).create()`: the block that the factory registered for a
type creates. There is no factory for the other types. -/
def Factory.get (type : UInt8) : Option Block :=
  [Block.newAge, Block.newScopeControlHopLimit, Block.newStream, Block.newCompressedPayload,
    Block.newBundleAuthentication, Block.newPayloadIntegrity, Block.newPayloadConfidential,
    Block.newExtensionSecurity].find? fun b => b.blocktype == type

theorem Factory.eids_of_get {type : UInt8} {n : Block} (h : Factory.get type = some n) :
    n.eids = [] := by
  have hmem := List.mem_of_find?_eq_some h
  simp only [List.mem_cons, List.not_mem_nil, or_false] at hmem
  rcases hmem with rfl | rfl | rfl | rfl | rfl | rfl | rfl | rfl <;> rfl

namespace Block

/-- The new block that the reader of a bundle without administrative record fills for a block of
the given type. -/
def receiver (type : UInt8) : Block :=
  match Factory.get type with
  | some n => n
  | none => if type = payloadType then newPayload else newExtension

end Block

/-! ### Reading payloads back -/

namespace Body

/-- The block type of the blocks of a class. Plain extension blocks have the type that was read. -/
def classType : Body → Option UInt8
  | .payload _ | .statusReport _ | .custodySignal _ => some Block.payloadType
  | .extension _ => none
  | .age _ => some 10
  | .scopeControlHopLimit _ => some 199
  | .stream _ => some 242
  | .compressedPayload _ => some 202
  | .bundleAuthentication _ => some 2
  | .payloadIntegrity _ _ => some 3
  | .payloadConfidential _ => some 4
  | .extensionSecurity _ => some 9

/-- The type fits the class. Plain extension blocks stand for the types without a factory, other
than the payload type and zero, which the reader refuses. -/
def HasType (type : UInt8) (body : Body) : Prop :=
  body.classType = some type ∨
    (body.classType = none ∧ Factory.get type = none ∧ type ≠ Block.payloadType ∧ type ≠ 0)

instance (type : UInt8) (body : Body) : Decidable (body.HasType type) :=
  inferInstanceAs (Decidable (_ ∨ _))

theorem HasType.eq_of_classType {type t : UInt8} {body : Body} (h : body.HasType type)
    (hc : body.classType = some t) : type = t := by
  rcases h with h | ⟨h, -⟩
  · exact (Option.some.inj (hc.symm.trans h)).symm
  · exact absurd (hc.symm.trans h) (by simp)

theorem HasType.ne_zero {type : UInt8} {body : Body} (h : body.HasType type) : type ≠ 0 := by
  rcases h with h | ⟨-, -, -, h⟩
  · rintro rfl
    cases body <;> simp [classType, Block.payloadType] at h
  · exact h

/-- Only plain extension blocks have a type that is neither the payload type nor known to a
factory. -/
theorem HasType.classType_eq_none {type : UInt8} {body : Body} (h : body.HasType type)
    (hf : Factory.get type = none) (hp : type ≠ Block.payloadType) : body.classType = none := by
  rcases h with h | ⟨h, -⟩
  · exfalso
    cases body <;> simp only [classType, Option.some.injEq, reduceCtorEq] at h <;> subst h
    all_goals first
      | exact hp rfl
      | exact absurd hf (by decide)
  · exact h

/-- A security block carries the EIDs that its flags promise, and its lists fit a stream. -/
def SecurityFits (eids : List EID) (body : Body) : Prop :=
  ∀ s, body.security? = some s → SecurityBlock.EidsPresent s.ciphersuiteFlags eids ∧ s.Fits

theorem loads_blob {blob : BLOB} (hblob : blob.CopiesExactly) {bs : Bytes}
    (h : bs.length < 2 ^ 64) (mk : Bytes → Body) (o : Body) :
    (do let bs ← ofParser (blob.fill (UInt64.ofNat bs.length).toNat)
        update fun _ => mk bs : Loader Exn Body Unit).Loads bs o (mk bs) () := by
  rw [EID.toNat_ofNat_of_lt h]
  exact (Loader.loads_ofParser (hblob.reads_fill bs) o).then_nil (loads_update _ o)

theorem loads_age (b o : AgeBlock) :
    AgeBlock.deserialize.Loads (SDNV.write (b.age + b.elapsedAtSerialize)) o
      ⟨b.age + b.elapsedAtSerialize, 0, 0⟩ () :=
  (loads_object o).bind_nil
    (((SDNV.loads_load _ _).within _ o).then_nil (loads_update _ _))

theorem loads_scopeControlHopLimit (b o : ScopeControlHopLimitBlock) :
    ScopeControlHopLimitBlock.deserialize.Loads (SDNV.write b.count ++ SDNV.write b.limit) o
      b () :=
  (loads_object o).bind_nil
    (((SDNV.loads_load _ _).within _ o).bind ((SDNV.loads_load _ _).within _ _))

theorem loads_stream (b o : StreamBlock) :
    StreamBlock.deserialize.Loads (SDNV.write b.streamflags ++ SDNV.write b.seq) o b () :=
  (Loader.loads_ofParser (SDNV.reads_read _) o).bind
    ((loads_update _ o).bind_nil ((loads_object _).bind_nil
      ((SDNV.loads_load _ _).within _ _)))

theorem loads_compressedPayload (b o : CompressedPayloadBlock) :
    CompressedPayloadBlock.deserialize.Loads
      (SDNV.write b.algorithm ++ SDNV.write b.originSize) o b () :=
  (loads_object o).bind_nil
    (((SDNV.loads_load _ _).within _ o).bind ((SDNV.loads_load _ _).within _ _))

theorem loads_payloadIntegrity {eids : List EID} {bs : Bytes} {b b' : SecurityBlock}
    (h : (SecurityBlock.deserialize eids).Loads bs b b' ()) (resultSize : ℕ) :
    (PayloadIntegrityBlock.deserialize eids).Loads bs (b, resultSize)
      (b', b'.securityResult.getLength) () :=
  (loads_object (b, resultSize)).bind_nil
    ((h.within (fun b o => (b, o.2)) (b, resultSize)).then_nil (loads_update _ _))

/-- What the class that the reader chooses holds after the payload was read, in a block with the
EIDs `eids`: the age is the one that was written, a security block takes its source and destination
from the EIDs, and records are payload blocks. -/
def received (eids : List EID) : Body → Body
  | .age b => .age ⟨b.age + b.elapsedAtSerialize, 0, 0⟩
  | .bundleAuthentication b => .bundleAuthentication (b.receivedWith eids)
  | .payloadIntegrity b _ =>
      .payloadIntegrity (b.receivedWith eids) (b.receivedWith eids).securityResult.getLength
  | .payloadConfidential b => .payloadConfidential (b.receivedWith eids)
  | .extensionSecurity b => .extensionSecurity (b.receivedWith eids)
  | .statusReport b => .payload b.serialize
  | .custodySignal b => .payload b.serialize
  | body => body

@[simp] theorem serialize_received (eids : List EID) (body : Body) :
    (body.received eids).serialize = body.serialize := by
  cases body <;> simp [received, serialize]

/-- **The class that the reader chooses for a type reads the payload of a block of that type
back.** -/
theorem loads_deserialize {blob : BLOB} (hblob : blob.CopiesExactly) {type : UInt8} {body : Body}
    (ht : body.HasType type) {eids : List EID} (hs : body.SecurityFits eids)
    (hlen : body.serialize.length < 2 ^ 64) :
    (deserialize blob eids (UInt64.ofNat body.getLength)).Loads body.serialize
      (Block.receiver type).body (body.received eids) () := by
  cases body with
  | payload bs =>
      obtain rfl := ht.eq_of_classType rfl
      exact (loads_object _).bind_nil (loads_blob hblob hlen .payload _)
  | extension bs =>
      obtain h | ⟨-, hf, hp, -⟩ := ht
      · exact absurd h (by simp [classType])
      · have hreceiver : Block.receiver type = Block.newExtension := by
          rw [Block.receiver, hf]
          exact if_neg hp
        rw [hreceiver]
        exact (loads_object _).bind_nil (loads_blob hblob hlen .extension _)
  | age b =>
      obtain rfl := ht.eq_of_classType rfl
      exact (loads_object _).bind_nil ((loads_age b _).within _ _)
  | scopeControlHopLimit b =>
      obtain rfl := ht.eq_of_classType rfl
      exact (loads_object _).bind_nil ((loads_scopeControlHopLimit b _).within _ _)
  | stream b =>
      obtain rfl := ht.eq_of_classType rfl
      exact (loads_object _).bind_nil ((loads_stream b _).within _ _)
  | compressedPayload b =>
      obtain rfl := ht.eq_of_classType rfl
      exact (loads_object _).bind_nil ((loads_compressedPayload b _).within _ _)
  | bundleAuthentication b =>
      obtain rfl := ht.eq_of_classType rfl
      have h := SecurityBlock.loads_deserialize (hs b rfl).1 (hs b rfl).2 1
      exact (loads_object _).bind_nil (h.within _ _)
  | payloadIntegrity b resultSize =>
      obtain rfl := ht.eq_of_classType rfl
      have h := SecurityBlock.loads_deserialize (hs b rfl).1 (hs b rfl).2 2
      exact (loads_object _).bind_nil ((loads_payloadIntegrity h 0).within _ _)
  | payloadConfidential b =>
      obtain rfl := ht.eq_of_classType rfl
      have h := SecurityBlock.loads_deserialize (hs b rfl).1 (hs b rfl).2 3
      exact (loads_object _).bind_nil (h.within _ _)
  | extensionSecurity b =>
      obtain rfl := ht.eq_of_classType rfl
      have h := SecurityBlock.loads_deserialize (hs b rfl).1 (hs b rfl).2 4
      exact (loads_object _).bind_nil (h.within _ _)
  | statusReport b =>
      obtain rfl := ht.eq_of_classType rfl
      rw [getLength, ← b.length_serialize]
      exact (loads_object _).bind_nil (loads_blob hblob hlen .payload _)
  | custodySignal b =>
      obtain rfl := ht.eq_of_classType rfl
      rw [getLength, ← b.length_serialize]
      exact (loads_object _).bind_nil (loads_blob hblob hlen .payload _)

end Body

namespace Block

/-! ### What a block is to its reader -/

/-- A block as the reader of a bundle sees it: the type, the flags up to the mark that it was
forwarded without being processed, the EIDs and the payload bytes. -/
structure View where
  blocktype : UInt8
  procflags : UInt64
  eids : List EID
  payload : Bytes
deriving DecidableEq

/-- The view of a block. -/
def view (b : Block) : View :=
  ⟨b.blocktype, b.procflags &&& ~~~forwardedWithoutProcessed, b.eids, b.body.serialize⟩

end Block

end IbrDtn
