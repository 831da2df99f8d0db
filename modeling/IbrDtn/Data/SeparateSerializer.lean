import IbrDtn.Data.RoundTrip

/-!
# Blocks in files of their own

This file models `SeparateSerializer` and `SeparateDeserializer` of `ibrdtn/data/Serializer.cpp`,
which write a block without its bundle.  There is no dictionary, so the EIDs of the block are
written as texts.  The reader appends a new block to a bundle and takes the flags from the file as
they are.

## Main definitions

* `SeparateSerializer.writeBlock`, `SeparateDeserializer.readBlock` : the block in a file.
* `Block.textEIDs`, `Block.markedFlags` : what the reader makes of the EIDs and of the flags.
* `Block.Separable` : the blocks that are read back.

## Main results

* `SeparateDeserializer.loads_read` : the members of a block are read back.
* `SeparateDeserializer.loads_readBlock` : a block is read back and appended to a bundle.
-/

namespace IbrDtn

open Loader (Loads loads_object loads_ofParser loads_pure loads_update object ofParser run update)

/-- The bundle with a block behind its blocks, of which none is the last one any more. -/
def Bundle.append (b : Bundle) (block : Block) : Bundle :=
  { b with blocks := BlockList.unmarkBack b.blocks ++ [block] }

namespace SeparateSerializer

/-- The EIDs of a block as texts. -/
def writeEIDs (eids : List EID) : Bytes := eids.flatMap fun e => BundleString.write e.getString

/-- `SeparateSerializer::operator<<(const Block&)`. -/
def writeBlock (b : Block) : Bytes :=
  b.blocktype :: (SDNV.write b.procflags ++
    (optional (b.get Block.blockContainsEids)
        (SDNV.write (UInt64.ofNat b.eids.length) ++ writeEIDs b.eids) ++
      (SDNV.write (UInt64.ofNat b.body.getLength) ++ b.body.serialize)))

/-- A file is longer than the payload in it. -/
theorem length_lt_writeBlock (b : Block) : b.body.serialize.length < (writeBlock b).length := by
  simp only [writeBlock, List.length_cons, List.length_append]
  omega

end SeparateSerializer

namespace SeparateDeserializer

variable (env : DeserializerEnv)

/-- `count` turns of the loop that reads the EIDs of a block. -/
def readTexts : ℕ → Loader Exn Block Unit
  | 0 => pure ()
  | count + 1 => do
      let str ← ofParser BundleString.read
      update fun b => b.addEID (EID.ofString str)
      readTexts count

/-- The EIDs of a block with the flags `procflags`. The loop counts in 32 bits, so it never ends for
an announced number beyond. -/
def readTextList (procflags : UInt64) : Loader Exn Block Unit :=
  if FlagWord.has procflags Block.blockContainsEids then do
    let eidcount ← ofParser SDNV.read
    if eidcount.toNat < 2 ^ 32 then readTexts eidcount.toNat
    else
      readTexts (2 ^ 32)
      throw (.diverges "32-bit counter of the EIDs of a block")
  else pure ()

/-- `SeparateDeserializer::operator>>(Block&)`. -/
def read : Loader Exn Block Unit := do
  let b ← object
  let blocktype ← ofParser (Parser.getByte (some b.blocktype))
  update fun b => { b with blocktype }
  let procflags ← ofParser SDNV.read
  update fun b => { b with procflags }
  readTextList procflags
  let blockSize ← ofParser SDNV.read
  let b ← object
  MonadExcept.ofExcept (env.validator.block b blockSize)
  Block.deserialize env.blob blockSize

/-- Append a new block and read into it: the block that is in the bundle afterwards. -/
def pushAndRead (block : Block) : Loader Exn Bundle Block := do
  update fun o => o.pushBack block
  Loader.within (block.set Block.lastBlock true) (fun b (o : Bundle) => o.setBack b) do
    read env
    object

/-- `_stream.seekg(blockbegin)`, to the place where `rest` was still to be read. -/
def seek (rest : Bytes) : Parser Exn Unit :=
  Parser.ofRun fun s => (.ok (), if s.fail then s else { s with rest, eof := false })

/-- The payload block of an administrative record: it is read into a temporary block, and read again
by the class that the first byte of the payload selects. The block of an unknown record is dropped,
so nothing is returned for it. -/
def readRecord : Loader Exn Bundle (Option Block) := do
  let rest ← ofParser (Parser.ofRun fun s => (.ok s.rest, s))
  let block ← pushAndRead env Block.newExtension
  let admfield ← ofParser (match block.body.serialize with
    | b :: _ => pure b
    | [] => Parser.ofRun fun s => (.ok s.popStale.1, s.popStale.2))
  update fun o => o.remove (o.blocks.length - 1)
  ofParser (seek rest)
  if admfield >>> 4 = 1 then some <$> pushAndRead env (Block.newStatusReport env.now)
  else if admfield >>> 4 = 2 then some <$> pushAndRead env (Block.newCustodySignal env.now)
  else pure none

/-- `SeparateDeserializer::readBlock`. A block with a factory that throws stays in the bundle, and
what follows is read into a plain extension block. -/
def readBlock : Loader Exn Bundle (Option Block) := do
  let blockType := (← ofParser Parser.peekByte).getD 0xff
  if blockType = 0 then throw (.invalidData "block type is zero")
  else if blockType = Block.payloadType then
    let bundle ← object
    if bundle.get PrimaryBlock.appdataIsAdmrecord then readRecord env
    else some <$> pushAndRead env Block.newPayload
  else
    MonadExcept.tryCatch
      (match Factory.get blockType with
      | none => throw (.exception "Factory not available")
      | some n => some <$> pushAndRead env n)
      fun e =>
        if e.isException then some <$> pushAndRead env Block.newExtension else throw e

end SeparateDeserializer

/-- A body stays of its class when its payload is read. -/
theorem Body.classType_of_loads {blob : BLOB} {eids : List EID} {length : UInt64} {bs : Bytes}
    {body body' : Body} (h : (deserialize blob eids length).Loads bs body body' ()) :
    body'.classType = body.classType := by
  have hkeeps : (run (deserialize blob eids length)
      (body, ⟨bs ++ [], false, false, []⟩)).2.1.classType = body.classType := by
    have hmember {α : Type} (p : Parser Exn α) (mk : α → Body)
        (hmk : ∀ a, (mk a).classType = body.classType) (s : InStream) :
        (run (do
          let a ← ofParser p
          update fun _ => mk a) (body, s)).2.1.classType = body.classType := by
      rw [Loader.run_bind]
      split
      · next a s' _ => exact hmk a
      · next e s' heq =>
          rw [← congrArg (fun x => x.2.1) heq]
          rfl
    cases body with
    | payload bs => exact hmember _ .payload (fun _ => rfl) _
    | extension bs => exact hmember _ .extension (fun _ => rfl) _
    | statusReport b => exact hmember _ .statusReport (fun _ => rfl) _
    | custodySignal b => exact hmember _ .custodySignal (fun _ => rfl) _
    | _ => rfl
  rwa [h [] []] at hkeeps

namespace Block

/-- The EIDs that are read from the file of a block: their texts are written if the flags say that
there are EIDs. -/
def textEIDs (b : Block) : List EID :=
  if b.get blockContainsEids then b.eids.map fun e => EID.ofString e.getString else []

/-- The flags that a block has when it was read by the class that is chosen for its type, which may
set or clear the mark that it was forwarded without being processed. -/
def markedFlags (b : Block) : UInt64 :=
  match (receiver b.blocktype).body.forwardedMark with
  | some value => FlagWord.assign b.procflags forwardedWithoutProcessed value
  | none => b.procflags

/-- The blocks that are read back: the type fits the class, security blocks find the EIDs that their
flags promise, and counts and lengths fit the reader. -/
structure Separable (b : Block) : Prop where
  hasType : b.body.HasType b.blocktype
  security : b.body.SecurityFits b.textEIDs
  eids_lt : b.eids.length < 2 ^ 32
  texts_lt : ∀ e ∈ b.eids, e.getString.length < 2 ^ 63
  payload_lt : b.body.serialize.length < 2 ^ 64

end Block

namespace SeparateDeserializer

/-- The loop over the texts of a block that is already known to contain EIDs. -/
theorem loads_readTexts {eids : List EID} (heids : ∀ e ∈ eids, e.getString.length < 2 ^ 63)
    {b : Block} (hb : b.procflags &&& Block.blockContainsEids = Block.blockContainsEids) :
    (readTexts eids.length).Loads (SeparateSerializer.writeEIDs eids) b
      { b with eids := b.eids ++ eids.map fun e => EID.ofString e.getString } () := by
  induction eids generalizing b with
  | nil =>
      rw [List.map_nil, List.append_nil]
      exact loads_pure () _
  | cons e eids ih =>
      have hadd : b.addEID (EID.ofString e.getString) =
          { b with eids := b.eids ++ [EID.ofString e.getString] } := by
        rw [Block.addEID, FlagWord.assign, if_pos rfl, FlagWord.or_eq_self hb]
      have hload := ih (fun e' he' => heids e' (List.mem_cons_of_mem _ he'))
        (b := { b with eids := b.eids ++ [EID.ofString e.getString] }) hb
      rw [List.length_cons, readTexts, SeparateSerializer.writeEIDs, List.flatMap_cons]
      refine (loads_ofParser (BundleString.reads_read (heids e List.mem_cons_self)) _).bind
        ((loads_update _ _).bind_nil ?_)
      rw [hadd, List.map_cons, List.append_cons b.eids (EID.ofString e.getString)
        (eids.map fun e => EID.ofString e.getString)]
      exact hload

/-- The optional texts of a block whose flags were read. -/
theorem loads_readTextList {b n : Block} (hflags : n.procflags = b.procflags) (hn : n.eids = [])
    (hlen : b.eids.length < 2 ^ 32) (htexts : ∀ e ∈ b.eids, e.getString.length < 2 ^ 63) :
    (readTextList b.procflags).Loads
      (optional (b.get Block.blockContainsEids)
        (SDNV.write (UInt64.ofNat b.eids.length) ++ SeparateSerializer.writeEIDs b.eids))
      n { n with eids := b.textEIDs } () := by
  rw [readTextList, ← Block.get, Block.textEIDs]
  cases hc : b.get Block.blockContainsEids with
  | false =>
      simp only [Bool.false_eq_true, if_false]
      rw [← hn]
      exact loads_pure () _
  | true =>
      have hbit : n.procflags &&& Block.blockContainsEids = Block.blockContainsEids := by
        rw [hflags]
        exact FlagWord.and_eq_of_has ⟨6, by decide, by decide⟩ hc
      have hload := loads_readTexts htexts hbit
      rw [hn, List.nil_append] at hload
      have hnat : (UInt64.ofNat b.eids.length).toNat = b.eids.length :=
        EID.toNat_ofNat_of_lt (by omega)
      refine (loads_ofParser (SDNV.reads_read _) _).bind ?_
      rw [hnat, if_pos hlen]
      exact hload

variable {env : DeserializerEnv} (hblob : env.blob.CopiesExactly)
  (hblock : ∀ b size, env.validator.block b size = .ok ())

include hblob hblock

/-- **The members of a block are read back** into a new block of the class that is chosen for its
type: the type and the payload bytes, the flags up to the mark, and the EIDs that the texts
denote. -/
theorem loads_read {b n : Block} (hb : b.Separable)
    (hbody : n.body = (Block.receiver b.blocktype).body) (hn : n.eids = []) :
    ∃ body', (read env).Loads (SeparateSerializer.writeBlock b) n
      ⟨b.blocktype, b.markedFlags, b.textEIDs, body'⟩ () ∧ body'.serialize = b.body.serialize ∧
        body'.classType = (Block.receiver b.blocktype).body.classType := by
  have hload := Body.loads_deserialize hblob hb.hasType hb.security hb.payload_lt
  refine ⟨_, ?_, Body.serialize_received _ _, Body.classType_of_loads hload⟩
  have htexts := loads_readTextList (b := b)
    (n := { n with blocktype := b.blocktype, procflags := b.procflags }) rfl hn hb.eids_lt
    hb.texts_lt
  refine (loads_object _).bind_nil ?_
  refine (loads_ofParser (Parser.reads_getByte _ b.blocktype) _).bind_cons
    ((loads_update _ _).bind_nil ?_)
  refine (loads_ofParser (SDNV.reads_read b.procflags) _).bind ((loads_update _ _).bind_nil ?_)
  refine htexts.bind ((loads_ofParser (SDNV.reads_read _) _).bind ?_)
  refine (loads_object _).bind_nil ?_
  refine Loader.Loads.bind_nil (SecurityBlock.loads_ofExcept (hblock _ _) _) ?_
  refine (loads_object _).bind_nil ?_
  rw [hbody, ← List.append_nil b.body.serialize]
  refine (hload.within (fun body (b : Block) => { b with body }) _).bind ?_
  rw [Block.markedFlags]
  cases (Block.receiver b.blocktype).body.forwardedMark with
  | none => exact loads_pure () _
  | some value => exact loads_update _ _

omit hblob hblock in
theorem pushBack_setBack (bundle : Bundle) (n n' : Block) :
    (bundle.pushBack n).setBack n' = bundle.append n' := by
  have hlast (bs : List Block) :
      (BlockList.pushBack bs n).dropLast = BlockList.unmarkBack bs := by
    rw [BlockList.pushBack, BlockList.unmarkBack]
    cases bs.getLast? with
    | none => rfl
    | some last =>
        dsimp only
        rw [List.append_cons, List.dropLast_concat]
  rw [Bundle.setBack, Bundle.pushBack, hlast, Bundle.append]

/-- A new block is appended and read back. -/
theorem loads_pushAndRead {b n : Block} (hb : b.Separable)
    (hbody : n.body = (Block.receiver b.blocktype).body) (hn : n.eids = []) (bundle : Bundle) :
    ∃ body', (pushAndRead env n).Loads (SeparateSerializer.writeBlock b) bundle
      (bundle.append ⟨b.blocktype, b.markedFlags, b.textEIDs, body'⟩)
      ⟨b.blocktype, b.markedFlags, b.textEIDs, body'⟩ ∧ body'.serialize = b.body.serialize ∧
        body'.classType = (Block.receiver b.blocktype).body.classType := by
  obtain ⟨body', hload, hserialize⟩ := loads_read hblob hblock hb
    (n := n.set Block.lastBlock true) hbody hn
  refine ⟨body', (loads_update _ _).bind_nil ?_, hserialize⟩
  rw [← pushBack_setBack bundle n]
  exact (hload.then_nil (loads_object _)).within (fun b (o : Bundle) => o.setBack b) _

/-- **A block that is no payload is read back** and appended to the bundle. -/
theorem loads_readBlock {b : Block} (hb : b.Separable) (htype : b.blocktype ≠ Block.payloadType)
    (bundle : Bundle) :
    ∃ body', (readBlock env).Loads (SeparateSerializer.writeBlock b) bundle
      (bundle.append ⟨b.blocktype, b.markedFlags, b.textEIDs, body'⟩)
      (some ⟨b.blocktype, b.markedFlags, b.textEIDs, body'⟩) ∧
      body'.serialize = b.body.serialize ∧
        body'.classType = (Block.receiver b.blocktype).body.classType := by
  have hread {n : Block} (hn : n = Block.receiver b.blocktype) (he : n.eids = []) :
      ∃ body', (some <$> pushAndRead env n).Loads (SeparateSerializer.writeBlock b) bundle
        (bundle.append ⟨b.blocktype, b.markedFlags, b.textEIDs, body'⟩)
        (some ⟨b.blocktype, b.markedFlags, b.textEIDs, body'⟩) ∧
        body'.serialize = b.body.serialize ∧
          body'.classType = (Block.receiver b.blocktype).body.classType := by
    obtain ⟨body', hload, hserialize⟩ := loads_pushAndRead hblob hblock hb (by rw [hn]) he bundle
    refine ⟨body', ?_, hserialize⟩
    rw [← bind_pure_comp]
    exact hload.then_nil (loads_pure _ _)
  have hzero := hb.hasType.ne_zero
  cases hf : Factory.get b.blocktype with
  | some n =>
      obtain ⟨body', hload, hserialize⟩ := hread (n := n) (by rw [Block.receiver, hf])
        (Factory.eids_of_get hf)
      refine ⟨body', Loader.Loads.peek ?_, hserialize⟩
      simp only [Option.getD_some, if_neg hzero, if_neg htype, hf]
      exact hload.tryCatch _
  | none =>
      obtain ⟨body', hload, hserialize⟩ := hread (n := Block.newExtension)
        (by rw [Block.receiver, hf]; exact (if_neg htype).symm) rfl
      refine ⟨body', Loader.Loads.peek ?_, hserialize⟩
      simp only [Option.getD_some, if_neg hzero, if_neg htype, hf]
      refine DefaultDeserializer.loads_tryCatch_throw _ ?_
      simp only [Exn.isException, if_true]
      exact hload

end SeparateDeserializer

end IbrDtn
