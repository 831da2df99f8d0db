import IbrDtn.Data.Serializer

/-!
# Reading bundles

This file models `DefaultDeserializer` of `ibrdtn/data/Serializer.cpp`: the primary block, the
blocks, and the loop that reads blocks up to the one marked as the last.  A block of a type with a
factory is read into a block of its class; the payload of an administrative record is read into a
temporary block and parsed again; every other block is read into a plain extension block.  The
loop catches every exception of a block with a factory and goes on with a plain extension block
from where the stream is, keeping the block that failed.

## Main definitions

* `Validator`, `DeserializerEnv` : what a deserializer is given.
* `DefaultDeserializer` : the dictionary and the compression flag.
* `DefaultDeserializer.readPrimary`, `DefaultDeserializer.readBlock`,
  `DefaultDeserializer.readBundle` : the stream operators.
-/

namespace IbrDtn

/-! ### Validators -/

/-- `class Validator`: the three checks, each of which may throw. -/
structure Validator where
  primaryBlock : PrimaryBlock → Except Exn Unit
  block : Block → UInt64 → Except Exn Unit
  bundle : Bundle → Except Exn Unit

/-- `class AcceptValidator`, the default. -/
def Validator.accept : Validator := ⟨fun _ => .ok (), fun _ _ => .ok (), fun _ => .ok ()⟩

/-- What a deserializer is given: its validator, the containers for payloads and the clock. -/
structure DeserializerEnv where
  validator : Validator
  blob : BLOB
  now : DTNTime

/-- The default deserializer. -/
def DeserializerEnv.default (blob : BLOB) (now : DTNTime) : DeserializerEnv :=
  ⟨Validator.accept, blob, now⟩

/-- `class DefaultDeserializer`: the members `_dictionary` and `_compressed`. -/
structure DefaultDeserializer where
  dictionary : Dictionary
  compressed : Bool
deriving DecidableEq, Repr

namespace DefaultDeserializer

/-- `DefaultDeserializer::DefaultDeserializer(std::istream&)`. -/
def create : DefaultDeserializer := ⟨Dictionary.empty, false⟩

/-! ### The primary block -/

/-- A reference of the header: two SDNVs. -/
def readRef : Parser Exn (UInt64 × UInt64) := do
  let first ← SDNV.read
  let second ← SDNV.read
  pure (first, second)

/-- The four EIDs of a primary block in the order of the header. -/
structure HeaderEIDs where
  destination : EID
  source : EID
  reportto : EID
  custodian : EID

/-- The dictionary of the header and the EIDs it gives for the references. -/
def readEIDs (d : DefaultDeserializer) (destination source reportto custodian : UInt64 × UInt64) :
    Parser Exn (HeaderEIDs × DefaultDeserializer) := do
  let dict ← d.dictionary.read
  let (destination, dict) := dict.getEID destination.1 destination.2
  let (source, dict) := dict.getEID source.1 source.2
  let (reportto, dict) := dict.getEID reportto.1 reportto.2
  let (custodian, dict) := dict.getEID custodian.1 custodian.2
  pure (⟨destination, source, reportto, custodian⟩, ⟨dict, false⟩)

/-- The EIDs that the references stand for in a compressed header. -/
def compressedEIDs (d : DefaultDeserializer)
    (destination source reportto custodian : UInt64 × UInt64) :
    HeaderEIDs × DefaultDeserializer :=
  (⟨EID.ofNumbers destination.1 destination.2, EID.ofNumbers source.1 source.2,
    EID.ofNumbers reportto.1 reportto.2, EID.ofNumbers custodian.1 custodian.2⟩,
    { d with compressed := true })

variable (env : DeserializerEnv)

/-- `DefaultDeserializer::operator>>(PrimaryBlock&)`, into `obj`: the fragment fields of a primary
block that is no fragment stay as they are. An exception of the dictionary is taken to mean that
the header is compressed. -/
def readPrimary (d : DefaultDeserializer) (obj : PrimaryBlock) :
    Parser Exn (PrimaryBlock × DefaultDeserializer) := do
  let version ← Parser.getByte (some 0)
  if version ≠ PrimaryBlock.bundleVersion then
    throw (.invalidProtocol "Bundle version differ from ours.")
  let procflags ← SDNV.read
  let _blocklength ← SDNV.read
  let destination ← readRef
  let source ← readRef
  let reportto ← readRef
  let custodian ← readRef
  let timestamp ← SDNV.read
  let sequencenumber ← SDNV.read
  let lifetime ← SDNV.read
  let (eids, d) ← catching Exn.isInvalidData
    (d.readEIDs destination source reportto custodian)
    (pure (d.compressedEIDs destination source reportto custodian))
  let (fragmentoffset, appdatalength) ←
    readOptional (FlagWord.has procflags PrimaryBlock.fragment) readRef
      (obj.fragmentoffset, obj.appdatalength)
  let obj : PrimaryBlock :=
    { procflags, timestamp, sequencenumber, lifetime, fragmentoffset, appdatalength,
      source := eids.source, destination := eids.destination, reportto := eids.reportto,
      custodian := eids.custodian }
  MonadExcept.ofExcept (env.validator.primaryBlock obj)
  pure (obj, d)

/-! ### Blocks -/

/-- The EID of a reference in a block. -/
def lookupEID (d : DefaultDeserializer) (scheme ssp : UInt64) : EID × DefaultDeserializer :=
  if d.compressed then (EID.ofNumbers scheme ssp, d)
  else
    let (eid, dict) := d.dictionary.getEID scheme ssp
    (eid, { d with dictionary := dict })

/-- `count` turns of the loop that reads the EIDs of a block. -/
def readBlockEIDs : ℕ → Loader Exn (DefaultDeserializer × Block) Unit
  | 0 => pure ()
  | count + 1 => do
      let scheme ← Loader.ofParser SDNV.read
      let ssp ← Loader.ofParser SDNV.read
      Loader.update fun o =>
        let (eid, d) := o.1.lookupEID scheme ssp
        (d, o.2.addEID eid)
      readBlockEIDs count

/-- The EIDs of a block with the flags `procflags`. The loop counts in 32 bits, so it never ends for
an announced number beyond. -/
def readEIDList (procflags : UInt64) : Loader Exn (DefaultDeserializer × Block) Unit :=
  if FlagWord.has procflags Block.blockContainsEids then do
    let eidcount ← Loader.ofParser SDNV.read
    if eidcount.toNat < 2 ^ 32 then readBlockEIDs eidcount.toNat
    else
      readBlockEIDs (2 ^ 32)
      throw (.diverges "32-bit counter of the EIDs of a block")
  else pure ()

/-- `DefaultDeserializer::operator>>(Block&)`. -/
def readBlock : Loader Exn (DefaultDeserializer × Block) Unit := do
  let (_, b) ← Loader.object
  let blocktype ← Loader.ofParser (Parser.getByte (some b.blocktype))
  Loader.update fun o => (o.1, { o.2 with blocktype })
  let procflags ← Loader.ofParser SDNV.read
  Loader.update fun o =>
    (o.1, { o.2 with procflags := procflags &&& (~~~Block.lastBlock ||| o.2.procflags) })
  let (_, b) ← Loader.object
  readEIDList b.procflags
  let blockSize ← Loader.ofParser SDNV.read
  let (_, b) ← Loader.object
  MonadExcept.ofExcept (env.validator.block b blockSize)
  Loader.within b (fun b o => (o.1, b)) (Block.deserialize env.blob blockSize)

/-! ### Bundles -/

/-- Append a new block and read into it: the block that is in the bundle afterwards. -/
def pushAndRead (block : Block) : Loader Exn (DefaultDeserializer × Bundle) Block := do
  Loader.update fun o => (o.1, o.2.pushBack block)
  let (d, _) ← Loader.object
  Loader.within (d, block.set Block.lastBlock true) (fun p o => (p.1, o.2.setBack p.2)) do
    readBlock env
    let (_, b) ← Loader.object
    pure b

/-- Read a record of an administrative bundle again from the bytes of its temporary block, with a
deserializer of its own. -/
def rereadRecord (dict : Dictionary) (bytes : Bytes) (record : Block) :
    Loader Exn (DefaultDeserializer × Bundle) Bool := do
  Loader.update fun o => (o.1, o.2.pushBack record)
  let reader := { env with validator := Validator.accept }
  let block := record.set Block.lastBlock true
  Loader.within (⟨dict, false⟩, block) (fun (p : DefaultDeserializer × Block) o =>
      (o.1, o.2.setBack p.2)) <| Loader.ofRun fun s =>
    match (readBlock reader).run (s.1, ⟨bytes, false, false, s.2.stale⟩) with
    | (.ok _, (o, is)) => (.ok (o.2.get Block.lastBlock), (o, { s.2 with stale := is.stale }))
    | (.error e, (o, is)) => (.error e, (o, { s.2 with stale := is.stale }))

/-- The payload block of an administrative record: it is read into a temporary block, written to
a temporary stream with a copy of the dictionary, and read again by the class that the first
byte of the payload selects. The block of an unknown record is dropped. -/
def readRecord : Loader Exn (DefaultDeserializer × Bundle) Bool := do
  let block ← pushAndRead env Block.newExtension
  let payload := block.body.serialize
  let admfield ← Loader.ofParser (match payload with
    | b :: _ => pure b
    | [] => Parser.ofRun fun s => (.ok s.popStale.1, s.popStale.2))
  let (d, bundle) ← Loader.object
  let (forSerializer, dict) := d.dictionary.copy
  let (forDeserializer, dict) := dict.copy
  let bytes := DefaultSerializer.writeBlock ⟨forSerializer, false⟩ block
  Loader.update fun o =>
    ({ o.1 with dictionary := dict }, o.2.remove (bundle.blocks.length - 1))
  if admfield >>> 4 = 1 then
    rereadRecord env forDeserializer bytes (Block.newStatusReport env.now)
  else if admfield >>> 4 = 2 then
    rereadRecord env forDeserializer bytes (Block.newCustodySignal env.now)
  else pure false

/-- A block that is read into a plain extension block, and removed if it asks for that. -/
def readUnknown : Loader Exn (DefaultDeserializer × Bundle) Bool := do
  let block ← pushAndRead env Block.newExtension
  if block.get Block.discardIfNotProcessed then
    Loader.update fun o => (o.1, o.2.remove (o.2.blocks.length - 1))
  pure (block.get Block.lastBlock)

/-- One turn of the loop over the blocks: whether the last block was read. -/
def readNext : Loader Exn (DefaultDeserializer × Bundle) Bool := do
  let blockType := (← Loader.ofParser Parser.peekByte).getD 0xff
  if blockType = 0 then throw (.invalidData "block type is zero")
  else if blockType = Block.payloadType then
    let (_, bundle) ← Loader.object
    if bundle.get PrimaryBlock.appdataIsAdmrecord then readRecord env
    else
      let block ← pushAndRead env Block.newPayload
      pure (block.get Block.lastBlock)
  else
    MonadExcept.tryCatch
      (match Factory.get blockType with
      | none => throw (.exception "Factory not available")
      | some n => do
          let block ← pushAndRead env n
          pure (block.get Block.lastBlock))
      fun e => if e.isException then readUnknown env else throw e

/-- The loop `while (!_stream.eof() && !lastblock)`. Every turn that does not reach the end of the
stream consumes a byte, so the turns are bounded by the length of the stream. -/
def readBlocks : ℕ → Loader Exn (DefaultDeserializer × Bundle) Unit
  | 0 => throw (.diverges "loop over the blocks of a bundle")
  | fuel + 1 => do
      if ← Loader.ofParser Parser.atEof then pure ()
      else if ← readNext env then pure ()
      else readBlocks fuel

/-- `DefaultDeserializer::operator>>(Bundle&)`, into `obj`. -/
def readBundle (d : DefaultDeserializer) (obj : Bundle) :
    Parser Exn (Bundle × DefaultDeserializer) := do
  let (primary, d) ← readPrimary env d obj.toPrimaryBlock
  let remaining ← Parser.remaining
  let (bundle, d) ← Parser.ofRun fun s =>
    match (readBlocks env (remaining + 2)).run ((d, { primary with blocks := [] }), s) with
    | (.ok _, (o, s)) => (.ok (o.2, o.1), s)
    | (.error e, (_, s)) => (.error e, s)
  MonadExcept.ofExcept (env.validator.bundle bundle)
  pure (bundle, d)

end DefaultDeserializer

end IbrDtn
