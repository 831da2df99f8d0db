import IbrDtn.Data.Deserializer
import IbrDtn.Library.Decimal
import IbrDtn.Library.FlagNames
import IbrDtn.Library.TextLines
import IbrDtn.Utils.Tokenize

/-!
# Bundles as plain text

This file models `PlainSerializer` and `PlainDeserializer` of `ibrdtn/api/PlainSerializer.cpp`, by
which the extended API and its client exchange bundles.  The primary block and every block are a
header of lines with a key and a value; behind the header of a block stands its payload in Base64.

The streams for Base64 belong to the library `ibrcommon`, which is not part of the repository: they
are the parameter `Base64Streams`.  To see whether a line ends with a carriage return, the source
looks at the byte in front of its end, also when the line is empty: that byte is taken to be another
one.

## Main definitions

* `PlainSerializer.writeBundle` : `operator<<(const Bundle&)`.
* `PlainDeserializer.readBlock` : `operator>>(Block&)`.
* `PlainDeserializer.readNext` : `PlainDeserializer::readBlock`.
* `PlainDeserializer.readBundle` : `operator>>(Bundle&)`.
-/

namespace IbrDtn

open TextLines (getline header line readHeader stripReturn newline)

/-! ### Keys and names -/

namespace PlainText

/- The keys of the lines. -/
def processingFlags : Bytes :=
  ascii ['P', 'r', 'o', 'c', 'e', 's', 's', 'i', 'n', 'g', ' ', 'f', 'l', 'a', 'g', 's']
def timestamp : Bytes := ascii ['T', 'i', 'm', 'e', 's', 't', 'a', 'm', 'p']
def sequencenumber : Bytes :=
  ascii ['S', 'e', 'q', 'u', 'e', 'n', 'c', 'e', 'n', 'u', 'm', 'b', 'e', 'r']
def source : Bytes := ascii ['S', 'o', 'u', 'r', 'c', 'e']
def destination : Bytes := ascii ['D', 'e', 's', 't', 'i', 'n', 'a', 't', 'i', 'o', 'n']
def reportto : Bytes := ascii ['R', 'e', 'p', 'o', 'r', 't', 't', 'o']
def custodian : Bytes := ascii ['C', 'u', 's', 't', 'o', 'd', 'i', 'a', 'n']
def lifetime : Bytes := ascii ['L', 'i', 'f', 'e', 't', 'i', 'm', 'e']
def fragmentOffset : Bytes :=
  ascii ['F', 'r', 'a', 'g', 'm', 'e', 'n', 't', ' ', 'o', 'f', 'f', 's', 'e', 't']
def applicationDataLength : Bytes :=
  ascii ['A', 'p', 'p', 'l', 'i', 'c', 'a', 't', 'i', 'o', 'n', ' ', 'd', 'a', 't', 'a', ' ', 'l',
    'e', 'n', 'g', 't', 'h']
def blocks : Bytes := ascii ['B', 'l', 'o', 'c', 'k', 's']
def block : Bytes := ascii ['B', 'l', 'o', 'c', 'k']
def flags : Bytes := ascii ['F', 'l', 'a', 'g', 's']
def eid : Bytes := ascii ['E', 'I', 'D']
def length : Bytes := ascii ['L', 'e', 'n', 'g', 't', 'h']

/- The names of the flags of a block. -/
def lastBlockName : Bytes := ascii ['L', 'A', 'S', 'T', '_', 'B', 'L', 'O', 'C', 'K']
def replicateInEveryFragmentName : Bytes :=
  ascii ['R', 'E', 'P', 'L', 'I', 'C', 'A', 'T', 'E', '_', 'I', 'N', '_', 'E', 'V', 'E', 'R', 'Y',
    '_', 'F', 'R', 'A', 'G', 'M', 'E', 'N', 'T']
def transmitStatusreportIfNotProcessedName : Bytes :=
  ascii ['T', 'R', 'A', 'N', 'S', 'M', 'I', 'T', '_', 'S', 'T', 'A', 'T', 'U', 'S', 'R', 'E', 'P',
    'O', 'R', 'T', '_', 'I', 'F', '_', 'N', 'O', 'T', '_', 'P', 'R', 'O', 'C', 'E', 'S', 'S', 'E',
    'D']
def deleteBundleIfNotProcessedName : Bytes :=
  ascii ['D', 'E', 'L', 'E', 'T', 'E', '_', 'B', 'U', 'N', 'D', 'L', 'E', '_', 'I', 'F', '_', 'N',
    'O', 'T', '_', 'P', 'R', 'O', 'C', 'E', 'S', 'S', 'E', 'D']
def discardIfNotProcessedName : Bytes :=
  ascii ['D', 'I', 'S', 'C', 'A', 'R', 'D', '_', 'I', 'F', '_', 'N', 'O', 'T', '_', 'P', 'R', 'O',
    'C', 'E', 'S', 'S', 'E', 'D']
def forwardedWithoutProcessedName : Bytes :=
  ascii ['F', 'O', 'R', 'W', 'A', 'R', 'D', 'E', 'D', '_', 'W', 'I', 'T', 'H', 'O', 'U', 'T', '_',
    'P', 'R', 'O', 'C', 'E', 'S', 'S', 'E', 'D']

/-- The flags of a block that have a name, in the order of the serializer. -/
def blockFlags : List (UInt64 × Bytes) :=
  [(Block.lastBlock, lastBlockName),
    (Block.replicateInEveryFragment, replicateInEveryFragmentName),
    (Block.transmitStatusreportIfNotProcessed, transmitStatusreportIfNotProcessedName),
    (Block.deleteBundleIfNotProcessed, deleteBundleIfNotProcessedName),
    (Block.discardIfNotProcessed, discardIfNotProcessedName),
    (Block.forwardedWithoutProcessed, forwardedWithoutProcessedName)]

/-- A line of a header. -/
def field (key value : Bytes) : Bytes := key ++ 0x3a :: 0x20 :: value

/-- A number, as it is put into a stream. -/
def number (n : UInt64) : Bytes := Decimal.numeral n.toNat

/-- A number, as it is taken from a stream. -/
def parseNumber (value : Bytes) : UInt64 := UInt64.ofNat (Decimal.extract 64 value)

/-- The type of a block as an `int`, which has the sign of the `char`. -/
def typeNumber (blocktype : UInt8) : ℤ := blocktype.toInt8.toInt

/-- `(char) block_type`. -/
def numberType (blockType : ℤ) : UInt8 := (Int8.ofInt blockType).toUInt8

end PlainText

/-- The streams `ibrcommon::Base64Stream` and `ibrcommon::Base64Reader`: the text that the one makes
of bytes, and what the other delivers when it is told how many bytes there are. -/
structure Base64Streams where
  encode : Bytes → Bytes
  decode : ℕ → Parser Exn Bytes

/-- The reader delivers what was put into the stream, and takes all of its text. -/
def Base64Streams.Restores (base64 : Base64Streams) : Prop :=
  ∀ bs, (base64.decode bs.length).Reads (base64.encode bs) bs

/-! ### Writing -/

namespace PlainSerializer

open PlainText

/-- The lines of `operator<<(const PrimaryBlock&)`. -/
def primaryLines (p : PrimaryBlock) : List Bytes :=
  [field processingFlags (number p.procflags), field timestamp (number p.timestamp),
    field sequencenumber (number p.sequencenumber), field source p.source.getString,
    field destination p.destination.getString, field reportto p.reportto.getString,
    field custodian p.custodian.getString, field lifetime (number p.lifetime)] ++
  if p.get PrimaryBlock.fragment then
    [field fragmentOffset (number p.fragmentoffset),
      field applicationDataLength (number p.appdatalength)]
  else []

/-- The names of the flags, each behind a blank. -/
def flagsText (b : Block) : Bytes :=
  (FlagWord.names blockFlags b.procflags).flatMap fun name => 0x20 :: name

/-- The lines of `operator<<(const Block&)` in front of the payload. -/
def blockLines (b : Block) : List Bytes :=
  field block (Decimal.signedNumeral (typeNumber b.blocktype)) ::
    (if flagsText b = [] then [] else [flags ++ 0x3a :: flagsText b]) ++
    (if b.get Block.blockContainsEids then b.eids.map fun e => field eid e.getString else []) ++
    [field length (Decimal.numeral b.body.getLength)]

variable (base64 : Base64Streams) (skipPayload : Bool)

/-- `PlainSerializer::operator<<(const Block&)`. -/
def writeBlock (b : Block) : Bytes :=
  (blockLines b).flatMap line ++
    if skipPayload then [] else newline :: line (base64.encode b.body.serialize)

/-- `PlainSerializer::operator<<(const Bundle&)`. -/
def writeBundle (b : Bundle) : Bytes :=
  (primaryLines b.toPrimaryBlock).flatMap line ++
    line (field blocks (Decimal.numeral b.blocks.length)) ++
    (b.blocks.flatMap fun c => newline :: writeBlock base64 skipPayload c) ++ [newline]

end PlainSerializer

/-! ### Reading -/

/-- What a `PlainDeserializer` throws: `PlainDeserializerException`, `std::out_of_range` of
`tokenize`, and the exceptions of what it calls. -/
inductive PlainExn where
  | exception (e : Exn)
  | unknownBlock (what : String)
  | blockNotProcessable
  | outOfRange (e : Utils.OutOfRange)
deriving DecidableEq, Repr

/-- `catch (const ibrcommon::Exception&)` takes the exception. -/
def PlainExn.isException : PlainExn → Bool
  | .exception e => e.isException
  | .unknownBlock _ | .blockNotProcessable => true
  | .outOfRange _ => false

/-- What a `PlainDeserializer` uses: the streams, the containers for payloads and the clock. -/
structure PlainEnv where
  base64 : Base64Streams
  blob : BLOB
  now : DTNTime

namespace PlainDeserializer

open PlainText

/-- `Utils::tokenize(":", data, 1)`. -/
def splitHeader (data : Bytes) : Except PlainExn (List Bytes) :=
  (Utils.tokenize [0x3a] data (some 1)).mapError .outOfRange

/-- The value of a line is assigned to a member of the primary block. -/
def assignField (key value : Bytes) (p : PrimaryBlock) : PrimaryBlock :=
  if key = processingFlags then { p with procflags := parseNumber value }
  else if key = timestamp then { p with timestamp := parseNumber value }
  else if key = sequencenumber then { p with sequencenumber := parseNumber value }
  else if key = source then { p with source := EID.ofString value }
  else if key = destination then { p with destination := EID.ofString value }
  else if key = reportto then { p with reportto := EID.ofString value }
  else if key = custodian then { p with custodian := EID.ofString value }
  else if key = lifetime then { p with lifetime := parseNumber value }
  else if key = fragmentOffset then { p with fragmentoffset := parseNumber value }
  else if key = applicationDataLength then { p with appdatalength := parseNumber value }
  else p

/-- A line of the header of a primary block. -/
def assignPrimary (data : Bytes) (p : PrimaryBlock) : Except PlainExn PrimaryBlock := do
  match ← splitHeader data with
  | key :: value :: _ => pure (assignField key value p)
  | [_] => throw (.exception (.undefined "second of one value"))
  | [] => throw (.exception (.exception "parsing error"))

/-- The flag of a name is set. -/
def setFlag (b : Block) (name : Bytes) : Block :=
  { b with procflags := FlagWord.setNamed blockFlags b.procflags name }

/-- The value of a line is assigned to a block, or to the variable `blocksize`. -/
def assignBlockField (key value : Bytes) (o : Block × UInt64) : Except PlainExn (Block × UInt64) :=
  if key = flags then
    match Utils.tokenize [0x20] value none with
    | .ok names => .ok (names.foldl setFlag o.1, o.2)
    | .error e => .error (.outOfRange e)
  else if key = eid then .ok (o.1.addEID (EID.ofString value), o.2)
  else if key = length then .ok (o.1, parseNumber value)
  else .ok o

/-- A line of the header of a block. -/
def assignBlock (data : Bytes) (o : Block × UInt64) : Except PlainExn (Block × UInt64) := do
  match ← splitHeader data with
  | key :: value :: _ => assignBlockField key value o
  | [_] => throw (.exception (.undefined "second of one value"))
  | [] => throw (.exception (.undefined "first of no values"))

/-- The line that must be empty. -/
def emptyLine {σ : Type} : Loader PlainExn σ Unit := do
  let buffer := stripReturn (← Loader.ofParser getline)
  if buffer = [] then pure () else throw (.exception (.invalidData "last line not empty"))

variable (env : PlainEnv)

/-- The bytes that the stream for Base64 delivers. -/
def decode {σ : Type} (blocksize : UInt64) : Loader PlainExn σ Bytes :=
  Loader.mapError .exception (Loader.ofParser (env.base64.decode blocksize.toNat))

/-- `PlainDeserializer::operator>>(Block&)`. -/
def readBlock : Loader PlainExn Block Unit := do
  let b ← Loader.object
  let blocksize ← Loader.within (b, (0 : UInt64)) (fun o _ => o.1) (do
    readHeader assignBlock
    let o ← Loader.object
    pure o.2)
  let bytes ← decode env blocksize
  Loader.onBytes bytes (Loader.mapError .exception (Block.deserialize env.blob blocksize))
  emptyLine
  emptyLine

/-- The block in which a new one is read: appended to the bundle, and not marked as the last. -/
def inserted (n : Block) : Block := (n.set Block.lastBlock true).set Block.lastBlock false

/-- A new block is inserted at the end, and read. -/
def insertAndRead (n : Block) : Loader PlainExn Bundle Block := do
  Loader.update fun bundle => (bundle.pushBack n).setBack (inserted n)
  Loader.within (inserted n) (fun b bundle => bundle.setBack b) (do
    readBlock env
    Loader.object)

/-- A block is inserted and read, and given up if it asks to be discarded. It stays in the
bundle. -/
def insertProcessable (n : Block) : Loader PlainExn Bundle Block := do
  let block ← insertAndRead env n
  if block.get Block.discardIfNotProcessed then throw .blockNotProcessable else pure block

/-- A record of an administrative bundle is read again from the text of its temporary block. -/
def rereadRecord (text : Bytes) (record : Block) : Loader PlainExn Bundle Block := do
  Loader.update fun bundle => (bundle.pushBack record).setBack (inserted record)
  Loader.within (inserted record) (fun b bundle => bundle.setBack b) (do
    Loader.onBytes text (readBlock env)
    Loader.object)

/-- The payload block of an administrative record: it is read into a temporary block, written as
text, and read again by the class that the first byte of the payload selects. -/
def readRecord : Loader PlainExn Bundle Block := do
  let block ← Loader.within (Block.newExtension.set Block.lastBlock false)
    (fun _ bundle => bundle) (do
      readBlock env
      Loader.object)
  let admfield ← Loader.ofParser (match block.body.serialize with
    | b :: _ => pure b
    | [] => Parser.ofRun fun s => (.ok s.popStale.1, s.popStale.2))
  let text := PlainSerializer.writeBlock env.base64 false block
  if admfield >>> 4 = 1 then rereadRecord env text (Block.newStatusReport env.now)
  else if admfield >>> 4 = 2 then rereadRecord env text (Block.newCustodySignal env.now)
  else throw (.unknownBlock "unknown administrative record")

/-- The type of the next block, from its first line. -/
def readType {σ : Type} : Loader PlainExn σ ℤ := do
  let buffer := stripReturn (← Loader.ofParser getline)
  if buffer = [] then throw (.exception (.invalidData "block header is missing"))
  else
    match ← MonadExcept.ofExcept (splitHeader buffer) with
    | key :: value :: _ =>
        if key = block then pure (Decimal.extractSigned 31 value)
        else throw (.exception (.invalidData "need block type as first header"))
    | [_] => throw (.exception (.undefined "second of one value"))
    | [] => throw (.exception (.undefined "first of no values"))

/-- `PlainDeserializer::readBlock`, with an inserter at the end of the bundle. -/
def readNext (payloadIsAdm : Bool) : Loader PlainExn Bundle Block := do
  let blockType ← readType
  if blockType = 0 then throw (.exception (.invalidData "block type is zero"))
  else if blockType = 1 then
    if payloadIsAdm then readRecord env else insertAndRead env Block.newPayload
  else
    MonadExcept.tryCatch
      (match Factory.get (numberType blockType) with
      | none => throw (.exception (.exception "Factory not available"))
      | some n => insertProcessable env n)
      fun e =>
        if e = .blockNotProcessable then throw e
        else if e.isException then insertProcessable env Block.newExtension
        else throw e

/-- A turn of the loop over the blocks: whether the last block was read. -/
def readTurn : Loader PlainExn Bundle Bool :=
  MonadExcept.tryCatch
    (do
      let bundle ← Loader.object
      let block ← readNext env (bundle.get PrimaryBlock.appdataIsAdmrecord)
      pure (block.get Block.lastBlock))
    fun e =>
      match e with
      | .unknownBlock _ | .blockNotProcessable => pure false
      | e => throw e

/-- The loop `while (!_stream.eof() && !lastblock)`. Every turn that does not end the loop takes a
byte or sets a bit of the stream, so that the turns are bounded by its length. -/
def readBlocks : ℕ → Loader PlainExn Bundle Unit
  | 0 => throw (.exception (.diverges "loop over the blocks of a bundle"))
  | rounds + 1 => do
      if ← Loader.ofParser Parser.atEof then pure ()
      else if ← readTurn env then pure ()
      else readBlocks rounds

/-- `PlainDeserializer::operator>>(Bundle&)`. -/
def readBundle : Loader PlainExn Bundle Unit := do
  Loader.update Bundle.clearBlocks
  let bundle ← Loader.object
  Loader.within bundle.toPrimaryBlock (fun p bundle => { p with blocks := bundle.blocks })
    (readHeader assignPrimary)
  let remaining ← Loader.ofParser Parser.remaining
  readBlocks env (remaining + 2)

end PlainDeserializer

end IbrDtn
