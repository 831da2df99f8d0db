import IbrDtn.Data.RecordFraming
import IbrDtn.Data.ShortReads

/-!
# Truncated bundles

This file studies what becomes of a bundle whose encoding is cut off: the readers of numbers, of the
dictionary and of the payloads of known blocks do not look at the state of the stream, so that a
bundle is rejected, whatever the stale memory holds, only where a container for a payload notices
that bytes are missing.

## Main definitions

* `BLOB.RefusesShort` : containers that throw when bytes are missing.
* `WireBundle.Valid` : encodings that are read.
* `WireBundle.InContent` : the cuts inside of the content of a container.
* `DefaultDeserializer.Rejects` : the operator throws for every stale memory.

## Main results

* `DefaultDeserializer.slips_readNext_wire` : a turn of the loop on a block that is cut off.
* `DefaultDeserializer.rejects_iff` : where a truncated bundle is rejected.
-/

namespace IbrDtn

open Loader (Cuts CutsSink Lax Loads Sinks SinksAtEnd Slips cuts_getByte lax_getByte lax_object
  lax_pure lax_update loads_object loads_ofParser loads_update ofParser ofParser_bind
  ofParser_pure run run_bind run_bind_ok run_object run_ofRun within)

/-! ### Headers and payloads of blocks -/

namespace DefaultDeserializer

variable {env : DeserializerEnv} {w : WireBlock}

/-- What follows the type of a block starts with a number. -/
theorem sinksAtEnd_readHeader : SinksAtEnd Exn.Escapes readHeader := by
  rw [readHeader]
  refine lax_object.bind_sinks fun o => (lax_getByte _).bind_sinks fun blocktype => ?_
  exact (lax_update _).bind_sinks fun _ => SDNV.sinksAtEnd_read.bind _

theorem cutsSink_readHeader (hw : w.WellFormed) {n : Block} (hn : n.eids = [])
    (hlast : n.procflags &&& Block.lastBlock = Block.lastBlock) (d : DefaultDeserializer) :
    CutsSink Exn.Escapes readHeader w.header (d, n) := by
  have hflags : w.procflags.value &&& (~~~Block.lastBlock ||| n.procflags) = w.procflags.value :=
    FlagWord.and_not_or_of_and_eq hlast
  let n₁ : Block := { n with blocktype := w.blocktype, procflags := w.procflags.value }
  obtain ⟨d', eids, -, heids⟩ := loads_readEIDList_wire hw d (n := n₁) rfl hn
  rw [readHeader, WireBlock.header, ← List.singleton_append]
  refine CutsSink.bind_nil (loads_object _) ?_
  refine Cuts.bind_sinks (loads_ofParser (Parser.reads_getByte _ w.blocktype) _)
    (cuts_getByte _ _ _) (fun _ => (lax_update _).bind_sinks fun _ =>
      SDNV.sinksAtEnd_read.bind _) ?_
  refine CutsSink.bind_nil (loads_update _ _) ?_
  refine (SDNV.cutsSink_read w.procflags _).bind_sink (loads_ofParser w.procflags.reads _) ?_
  refine CutsSink.bind_nil (loads_update _ _) (CutsSink.bind_nil (loads_object _) ?_)
  simp only [hflags]
  exact (cutsSink_readEIDList hw _).bind_sink heids (SDNV.cutsSink_read w.length _)

/-- A block of a known type that is cut off. -/
theorem cuts_readBlock (hblock : ∀ b size, env.validator.block b size = .ok ())
    (hw : w.WellFormed) (hf : Factory.get w.blocktype ≠ none) {n : Block}
    (hbody : n.body = (Block.receiver w.blocktype).body) (hn : n.eids = [])
    (hlast : n.procflags &&& Block.lastBlock = Block.lastBlock) (d : DefaultDeserializer) :
    Cuts Exn.Escapes (readBlock env) w.bytes (d, n) := by
  obtain ⟨d', eids, hlength, hheader⟩ := loads_readHeader_wire hw hn hlast d
  obtain ⟨body, htype, hfits, hpayload⟩ := hw.format hf
  rw [readBlock_eq, WireBlock.bytes]
  refine (cutsSink_readHeader hw hn hlast d).bind hheader ?_
  refine Cuts.bind_nil (loads_object _) ?_
  refine Cuts.bind_nil (SecurityBlock.loads_ofExcept (hblock _ _) _) ?_
  refine (Block.cuts_deserialize ?_).within _ _
  rw [← hpayload]
  dsimp only
  rw [hbody]
  exact Body.cuts_deserialize htype hf (hfits eids hlength) _ _

/-! ### Turns of the loop -/

/-- Appending a new block does not touch the stream. -/
theorem run_pushAndRead (block : Block) (o : DefaultDeserializer × Bundle) (s : InStream) :
    (pushAndRead env block).run (o, s) =
      (within (o.1, block.set Block.lastBlock true) (fun p o => (p.1, o.2.setBack p.2)) (do
        readBlock env
        let (_, b) ← Loader.object
        pure b)).run ((o.1, o.2.pushBack block), s) := by
  rw [pushAndRead, run_bind_ok (Loader.run_update _ _),
    run_bind_ok (run_object _)]

theorem sinks_pushAndRead {block : Block} {o : DefaultDeserializer × Bundle} {s : InStream}
    (h : Sinks Exn.Escapes (readBlock env) (o.1, block.set Block.lastBlock true) s) :
    Sinks Exn.Escapes (pushAndRead env block) o s :=
  ((h.bind _).within _ _).of_run fun st => run_pushAndRead block o (s.withStale st)

theorem slips_pushAndRead {block : Block} {o : DefaultDeserializer × Bundle} {s : InStream}
    (h : Slips Exn.Escapes (readBlock env) (o.1, block.set Block.lastBlock true) s) :
    Slips Exn.Escapes (pushAndRead env block) o s := by
  refine (Slips.within (h.bind fun _ o' s' heof => ?_) _ _).of_run
    fun st => run_pushAndRead block o (s.withStale st)
  exact (lax_object.bind fun _ => lax_pure _) o' s' heof

theorem sinks_readUnknown {o : DefaultDeserializer × Bundle} {s : InStream}
    (h : Sinks Exn.Escapes (readBlock env) (o.1, Block.newExtension.set Block.lastBlock true) s) :
    Sinks Exn.Escapes (readUnknown env) o s :=
  (sinks_pushAndRead h).bind _

/-- A turn of the loop on a block whose header is cut off. -/
theorem sinks_readTyped {type : UInt8} (htype : type ≠ 0) {o : DefaultDeserializer × Bundle}
    {s : InStream} (h : ∀ n : Block, n.eids = [] →
      Sinks Exn.Escapes (readBlock env) (o.1, n.set Block.lastBlock true) s) :
    Sinks Exn.Escapes (readTyped env type) o s := by
  rw [readTyped, if_neg htype]
  split_ifs with hp
  · have hobject (st : Bytes) : (Loader.object >>= fun o' : DefaultDeserializer × Bundle =>
        if o'.2.get PrimaryBlock.appdataIsAdmrecord then readRecord env
        else (do
          let block ← pushAndRead env Block.newPayload
          pure (block.get Block.lastBlock))).run (o, s.withStale st) =
        run (if o.2.get PrimaryBlock.appdataIsAdmrecord then readRecord env
        else (do
          let block ← pushAndRead env Block.newPayload
          pure (block.get Block.lastBlock))) (o, s.withStale st) :=
      run_bind_ok (run_object _)
    refine Sinks.of_run hobject ?_
    split_ifs
    · exact (sinks_pushAndRead (h _ rfl)).bind _
    · exact (sinks_pushAndRead (h _ rfl)).bind _
  · cases hf : Factory.get type with
    | none =>
        refine Sinks.of_run (q := readUnknown env) (fun st => ?_) (sinks_readUnknown (h _ rfl))
        rw [Loader.run_tryCatch, Loader.run_throw]
        rfl
    | some n =>
        exact ((sinks_pushAndRead (h n (Factory.eids_of_get hf))).bind _).tryCatch
          fun e he => if_neg (Bool.eq_false_iff.1 he)

theorem run_readNext_short (type : UInt8) (r : Bytes) (o : DefaultDeserializer × Bundle)
    (st : Bytes) : (readNext env).run (o, (InStream.short (type :: r)).withStale st) =
      (readTyped env type).run (o, (InStream.short (type :: r)).withStale st) := by
  rw [run_readNext]
  rfl

/-- A turn behind the last byte of a truncated bundle: the peek fails, but the loop was entered. -/
theorem sinks_readNext_end (o : DefaultDeserializer × Bundle) :
    Sinks Exn.Escapes (readNext env) o (.short []) := by
  have htyped : Sinks Exn.Escapes (readTyped env 0xff) o ⟨[], true, false, []⟩ := by
    refine sinks_readTyped (by decide) fun n _ => ?_
    rw [readBlock_eq]
    exact (sinksAtEnd_readHeader _ _ rfl).bind _
  refine htyped.of_run fun st => ?_
  rw [run_readNext]
  rfl

/-- **A turn on a block that is cut off**, in its header or, for the known types, anywhere. -/
theorem slips_readNext_wire (hblock : ∀ b size, env.validator.block b size = .ok ())
    (hw : w.WellFormed) {k : ℕ} (hpos : 0 < k) (hk : k < w.bytes.length)
    (hcut : k < w.header.length ∨ Factory.get w.blocktype ≠ none)
    (o : DefaultDeserializer × Bundle) :
    Slips Exn.Escapes (readNext env) o (.short (w.bytes.take k)) := by
  obtain ⟨k, rfl⟩ : ∃ i, k = i + 1 := ⟨k - 1, by omega⟩
  have hcons : w.bytes.take (k + 1) = w.blocktype ::
      ((w.procflags.bytes ++ (w.refBytes ++ w.length.bytes)) ++ w.payload).take k := rfl
  have hread : Slips Exn.Escapes (readTyped env w.blocktype) o (.short (w.bytes.take (k + 1))) := by
    by_cases hheader : k + 1 < w.header.length
    · refine .sinks (sinks_readTyped hw.ne_zero fun n hn => ?_)
      rw [readBlock_eq, WireBlock.bytes, List.take_append_of_le_length hheader.le]
      refine Sinks.bind ?_ _
      exact cutsSink_readHeader (n := n.set Block.lastBlock true) hw hn (FlagWord.or_and_self _ _)
        o.1 _ hheader
    · have hknown : Factory.get w.blocktype ≠ none := hcut.resolve_left hheader
      obtain ⟨n, hf⟩ := Option.ne_none_iff_exists'.1 hknown
      have hbody : n.body = (Block.receiver w.blocktype).body := by rw [Block.receiver, hf]
      rw [readTyped, if_neg hw.ne_zero, if_neg (ne_payload_of_factory hf), hf]
      refine Slips.tryCatch (Slips.bind (slips_pushAndRead ?_) fun _ o' s' heof => ?_)
        fun e he => if_neg (Bool.eq_false_iff.1 he)
      · exact cuts_readBlock (n := n.set Block.lastBlock true) hblock hw hknown hbody
          (show n.eids = [] from Factory.eids_of_get hf) (FlagWord.or_and_self _ _) o.1 _ hk
      · exact lax_pure _ o' s' heof
  rw [hcons] at hread ⊢
  exact hread.of_run (run_readNext_short _ _ _)

end DefaultDeserializer

/-! ### Containers that notice missing bytes -/

/-- `BLOB::copy` throws an `IOException` when the stream has fewer bytes than it is asked for. -/
def BLOB.RefusesShort (blob : BLOB) : Prop :=
  ∀ (bs : Bytes) (n : ℕ) (st : Bytes), bs.length < n →
    ∃ what s', (blob.copy n).run ⟨bs, false, false, st⟩ = (.error (.ioException what), s')

theorem BLOB.exact_refusesShort : BLOB.exact.RefusesShort := by
  intro bs n st h
  have hrem : Parser.run (Parser.remaining : Parser Exn ℕ) ⟨bs, false, false, st⟩ =
      (.ok bs.length, ⟨bs, false, false, st⟩) := rfl
  refine ⟨"input stream went bad", ⟨bs, false, false, st⟩, ?_⟩
  rw [BLOB.exact, Parser.run_bind_ok hrem, if_neg (Nat.not_le.2 h)]
  rfl

theorem BLOB.RefusesShort.run_fill {blob : BLOB} (h : blob.RefusesShort) {bs : Bytes} {n : ℕ}
    (hn : bs.length < n) (st : Bytes) :
    ∃ what s', (blob.fill n).run ⟨bs, false, false, st⟩ = (.error (.serializationFailed what), s') := by
  rw [BLOB.fill]
  split_ifs
  · obtain ⟨what, s', hcopy⟩ := h bs n st hn
    refine ⟨what, s', ?_⟩
    rw [Parser.run_tryCatch, hcopy]
    rfl
  · exact ⟨_, _, rfl⟩

theorem Body.run_deserialize_short {blob : BLOB} (h : blob.RefusesShort) {body : Body}
    (hbody : body.isBlob = true) (eids : List EID) {bs : Bytes} {length : UInt64}
    (hlength : bs.length < length.toNat) (st : Bytes) :
    ∃ what t', (deserialize blob eids length).run (body, ⟨bs, false, false, st⟩) =
      (.error (.serializationFailed what), t') := by
  obtain ⟨what, s', hfill⟩ := h.run_fill hlength st
  have hparser (body : Body) : (ofParser (blob.fill length.toNat) : Loader Exn Body
      Bytes).run (body, ⟨bs, false, false, st⟩) =
        (.error (.serializationFailed what), (body, s')) := by
    rw [ofParser, run_ofRun]
    dsimp only
    rw [hfill]
  rw [deserialize, run_bind_ok (run_object _)]
  cases body with
  | payload b => exact ⟨what, _, by rw [run_bind, hparser]⟩
  | extension b => exact ⟨what, _, by rw [run_bind, hparser]⟩
  | _ => exact absurd hbody (by simp [isBlob])

namespace DefaultDeserializer

variable {env : DeserializerEnv} {w : WireBlock}

/-- **A container whose content is cut off refuses its block**, whatever the stale memory holds. -/
theorem run_readBlock_short (hrefuse : env.blob.RefusesShort)
    (hblock : ∀ b size, env.validator.block b size = .ok ()) (hw : w.WellFormed) {k : ℕ}
    (hk : k < w.payload.length) {n : Block} (hbody : n.body.isBlob = true) (hn : n.eids = [])
    (hlast : n.procflags &&& Block.lastBlock = Block.lastBlock) (d : DefaultDeserializer)
    (st : Bytes) : ∃ what t', (readBlock env).run
      ((d, n), ⟨w.header ++ w.payload.take k, false, false, st⟩) =
        (.error (.serializationFailed what), t') := by
  obtain ⟨d', eids, -, hheader⟩ := loads_readHeader_wire hw hn hlast d
  have hlength : (w.payload.take k).length < w.length.value.toNat := by
    rw [hw.length, List.length_take_of_le hk.le]
    exact hk
  obtain ⟨what, t', hshort⟩ := Body.run_deserialize_short hrefuse hbody eids hlength st
  rw [readBlock_eq, run_bind_ok (hheader _ st), readPayload,
    run_bind_ok (run_object _)]
  dsimp only
  rw [hblock, run_bind_ok (show run (MonadExcept.ofExcept (.ok ())) _ = (.ok (), _)
    from rfl), within, run_ofRun]
  dsimp only
  rw [Block.deserialize, run_bind_ok (run_object _), run_bind, within,
    run_ofRun]
  dsimp only
  rw [hshort]
  exact ⟨what, _, rfl⟩

/-- A turn on a block without factory whose payload is cut off. -/
theorem throws_readNext_wire (hrefuse : env.blob.RefusesShort)
    (hblock : ∀ b size, env.validator.block b size = .ok ()) (hw : w.WellFormed)
    (hf : Factory.get w.blocktype = none) {k : ℕ} (hk : k < w.payload.length)
    (o : DefaultDeserializer × Bundle) (st : Bytes) :
    ∃ what t', (readNext env).run (o, ⟨w.header ++ w.payload.take k, false, false, st⟩) =
      (.error (.serializationFailed what), t') := by
  let n := target w.blocktype o.2
  have hn : n.body.isBlob = true ∧ n.eids = [] := by
    simp only [n, target, Block.receiver, hf]
    split_ifs <;> exact ⟨rfl, rfl⟩
  obtain ⟨what, t', hread⟩ := run_readBlock_short hrefuse hblock hw hk
    (n := n.set Block.lastBlock true) hn.1 hn.2 (FlagWord.or_and_self _ _) o.1 st
  have hpush : ∃ t'', (pushAndRead env n).run
      (o, ⟨w.header ++ w.payload.take k, false, false, st⟩) =
        (.error (.serializationFailed what), t'') := by
    rw [run_pushAndRead, within, run_ofRun]
    dsimp only
    rw [run_bind, hread]
    exact ⟨_, rfl⟩
  obtain ⟨t'', hpush⟩ := hpush
  exact ⟨what, t'', run_readNext_of_throws hpush hw.ne_zero (.inl hf)⟩

end DefaultDeserializer

/-! ### Valid encodings -/

/-- A record that has a first byte, and is read in full by the class which that byte selects, if
any. -/
structure ReadableRecord (payload : Bytes) : Prop where
  ne_nil : payload ≠ []
  statusReport : ∀ b ∈ payload.head?, b >>> 4 = 1 → ∀ old : StatusReportBlock,
    ∃ r, old.deserialize.Reads payload r
  custodySignal : ∀ b ∈ payload.head?, b >>> 4 = 2 → ∀ old : CustodySignalBlock,
    ∃ r, old.deserialize.Reads payload r

/-- The bundle is what it says, and so is its administrative record. -/
structure WireBundle.Valid (w : WireBundle) : Prop extends w.WellFormed where
  records : w.get PrimaryBlock.appdataIsAdmrecord = true → ∀ b ∈ w.blocks,
    b.blocktype = Block.payloadType → ReadableRecord b.payload

namespace WireBlock

/-- A block as a serializer writes it. -/
def ofBlock (s : DefaultSerializer) (b : Block) : WireBlock where
  blocktype := b.blocktype
  procflags := .shortest b.procflags
  count := .shortest (UInt64.ofNat b.eids.length)
  refs := b.eids.map fun eid => (.shortest (s.ref eid).1, .shortest (s.ref eid).2)
  length := .shortest (UInt64.ofNat b.body.getLength)
  payload := b.body.serialize

theorem bytes_ofBlock (s : DefaultSerializer) (b : Block) :
    (ofBlock s b).bytes = s.writeBlock b := by
  have hrefs : (ofBlock s b).refs.flatMap WireRef.bytes = s.writeRefs b.eids := by
    rw [ofBlock, List.flatMap_map, DefaultSerializer.writeRefs]
    refine congrArg (fun f => List.flatMap f b.eids) (funext fun eid => ?_)
    rw [SDNV.write_eq_bytes, SDNV.write_eq_bytes]
    rfl
  rw [bytes, header, refBytes, hrefs, DefaultSerializer.writeBlock, SDNV.write_eq_bytes,
    SDNV.write_eq_bytes, SDNV.write_eq_bytes, List.cons_append, List.append_assoc,
    List.append_assoc]
  rfl

end WireBlock

namespace DefaultDeserializer

variable {env : DeserializerEnv} {w : WireBlock}

/-- A record that its class reads is read again from the temporary stream. -/
theorem loads_rereadRecord {block record : Block} {payload : Bytes} {Q : Body → Prop}
    (htype : block.blocktype = Block.payloadType) (hbody : block.body = .extension payload)
    (heids : block.eids.length < 2 ^ 32) (hlength : payload.length < 2 ^ 64)
    (hrecord : record.eids = []) (hread : ∀ eids length, ∃ body,
      (Body.deserialize env.blob eids length).Loads payload record.body body () ∧ Q body)
    (dict : Dictionary) (s : DefaultSerializer) (o : DefaultDeserializer × Bundle) :
    ∃ n', (rereadRecord env dict (s.writeBlock block) record).Loads [] o
      (o.1, (o.2.pushBack record).setBack n') (block.get Block.lastBlock) ∧
        n'.blocktype = block.blocktype ∧ Q n'.body := by
  have hw : (WireBlock.ofBlock s block).WellFormed := by
    refine ⟨?_, fun _ => ?_, ?_, ?_, fun hf => absurd ?_ hf⟩
    · exact (show block.blocktype ≠ 0 from htype ▸ by decide)
    · refine (EID.toNat_ofNat_of_lt (by omega)).trans ?_
      rw [WireBlock.ofBlock, List.length_map]
    · rw [WireBlock.ofBlock, List.length_map]
      exact heids
    · rw [WireBlock.ofBlock, hbody]
      exact EID.toNat_ofNat_of_lt hlength
    · exact (show Factory.get block.blocktype = none from htype ▸ rfl)
  obtain ⟨d', n', hload, htype', hQ, -, hget⟩ := loads_readBlock_of_body (w := .ofBlock s block)
    (Q := Q) (n := record.set Block.lastBlock true)
    (show ∀ b size, ({ env with validator := Validator.accept } : DeserializerEnv).validator.block
      b size = .ok () from fun _ _ => rfl) hw (fun eids _ => by
      obtain ⟨body, hload, hQ⟩ := hread eids (WireBlock.ofBlock s block).length.value
      have hpayload : (WireBlock.ofBlock s block).payload = payload := by
        rw [WireBlock.ofBlock, hbody]
        rfl
      exact ⟨body, hpayload ▸ hload, hQ⟩) hrecord (FlagWord.or_and_self _ _) ⟨dict, false⟩
  have hlast : n'.get Block.lastBlock = block.get Block.lastBlock := hget _ (by decide)
  refine ⟨n', (loads_update _ o).bind_nil fun r st => ?_, htype', hQ⟩
  have hrun := hload [] st
  rw [WireBlock.bytes_ofBlock, List.append_nil] at hrun
  rw [within, run_ofRun, run_ofRun]
  dsimp only
  rw [hrun, ← hlast]
  rfl

/-- The field that selects the class of a record is the first byte of its payload. -/
theorem loads_admfield {c : UInt8} {payload bs : Bytes} (h : payload = c :: bs)
    (o : DefaultDeserializer × Bundle) :
    Loads (ofParser (match payload with
      | b :: _ => (pure b : Parser Exn UInt8)
      | [] => Parser.ofRun fun s => (.ok s.popStale.1, s.popStale.2))) [] o o c := by
  rw [h]
  exact loads_ofParser (Parser.reads_pure c) o

/-- A turn on an administrative record reads its block into a temporary one, and goes on with the
class that the first byte of the payload selects. -/
theorem loads_readRecord_of_select (hblob : env.blob.CopiesExactly)
    (hblock : ∀ b size, env.validator.block b size = .ok ()) (hw : w.WellFormed)
    (htype : w.blocktype = Block.payloadType) {c : UInt8} {bs : Bytes}
    (hpayload : w.payload = c :: bs) (o : DefaultDeserializer × Bundle) :
    ∃ (d' : DefaultDeserializer) (n' : Block) (dict : Dictionary), n'.blocktype = Block.payloadType ∧
      n'.body = .extension w.payload ∧ n'.eids.length < 2 ^ 32 ∧
      n'.get Block.lastBlock = w.get Block.lastBlock ∧
      ∀ o' b,
        (if c >>> 4 = 1 then
          rereadRecord env dict (DefaultSerializer.writeBlock ⟨d'.dictionary.copy.1, false⟩ n')
            (Block.newStatusReport env.now)
        else if c >>> 4 = 2 then
          rereadRecord env dict (DefaultSerializer.writeBlock ⟨d'.dictionary.copy.1, false⟩ n')
            (Block.newCustodySignal env.now)
        else pure false).Loads []
          ({ d' with dictionary := d'.dictionary.copy.2.copy.2 },
            ((o.2.pushBack Block.newExtension).setBack n').remove
              (((o.2.pushBack Block.newExtension).setBack n').blocks.length - 1)) o' b →
          (readRecord env).Loads w.bytes o o' b := by
  obtain ⟨d', n', hload, htype', hbody, heids, hget⟩ := loads_pushAndRead_of_body
    (n := Block.newExtension) (Q := fun body => body = .extension w.payload) hblock hw
    (fun eids _ => ⟨.extension w.payload, by
      rw [hw.length_eq]
      exact (loads_object _).bind_nil (Body.loads_blob hblob hw.length_lt .extension _), rfl⟩)
    rfl o
  have hcount : n'.eids.length < 2 ^ 32 := by
    rw [heids, WireBlock.refList]
    split_ifs
    · exact hw.refs_lt
    · decide
  have hserialize : n'.body.serialize = c :: bs := by
    rw [hbody, Body.serialize, hpayload]
  refine ⟨d', n', d'.dictionary.copy.2.copy.1, htype'.trans htype, hbody, hcount,
    hget _ (by decide), fun o' b hselect => ?_⟩
  exact hload.then_nil ((loads_admfield hserialize _).bind_nil ((loads_object _).bind_nil
    ((loads_update _ _).bind_nil hselect)))

/-- **A turn on an administrative record that is not the last block** does not stop the loop. -/
theorem loads_readRecord_valid (hblob : env.blob.CopiesExactly)
    (hblock : ∀ b size, env.validator.block b size = .ok ()) (hw : w.WellFormed)
    (htype : w.blocktype = Block.payloadType) (hrecord : ReadableRecord w.payload)
    (hmark : w.get Block.lastBlock = false) (o : DefaultDeserializer × Bundle) :
    ∃ o', (readRecord env).Loads w.bytes o o' false ∧
      o'.2.toPrimaryBlock = o.2.toPrimaryBlock := by
  obtain ⟨c, bs, hpayload⟩ := List.exists_cons_of_ne_nil hrecord.ne_nil
  have hhead : c ∈ w.payload.head? := by rw [hpayload]; rfl
  obtain ⟨d', n', dict, htype', hbody, hcount, hlast, hselect⟩ :=
    loads_readRecord_of_select hblob hblock hw htype hpayload o
  rw [hmark] at hlast
  have hreread (record : Block) (heids : record.eids = []) (hread : ∀ eids length, ∃ body,
      (Body.deserialize env.blob eids length).Loads w.payload record.body body () ∧ True) :=
    loads_rereadRecord (Q := fun _ => True) htype' hbody hcount hw.length_lt heids hread dict
      ⟨d'.dictionary.copy.1, false⟩
  by_cases h1 : c >>> 4 = 1
  · obtain ⟨r', hloads, -⟩ := hreread (Block.newStatusReport env.now) rfl (fun eids length => by
        obtain ⟨r, hr⟩ := hrecord.statusReport c hhead h1 (.create env.now)
        exact ⟨_, (loads_object _).bind_nil ((loads_ofParser hr _).then_nil (loads_update _ _)),
          trivial⟩) _
    rw [hlast] at hloads
    rw [if_pos h1] at hselect
    exact ⟨_, hselect _ _ hloads, rfl⟩
  rw [if_neg h1] at hselect
  by_cases h2 : c >>> 4 = 2
  · obtain ⟨r', hloads, -⟩ := hreread (Block.newCustodySignal env.now) rfl (fun eids length => by
        obtain ⟨r, hr⟩ := hrecord.custodySignal c hhead h2 (.create env.now)
        exact ⟨_, (loads_object _).bind_nil ((loads_ofParser hr _).then_nil (loads_update _ _)),
          trivial⟩) _
    rw [hlast] at hloads
    rw [if_pos h2] at hselect
    exact ⟨_, hselect _ _ hloads, rfl⟩
  · rw [if_neg h2] at hselect
    exact ⟨_, hselect _ _ (Loader.loads_pure _ _), rfl⟩

/-- The blocks of a valid encoding in front of the last one do not stop the loop. -/
theorem loads_readNext_valid (hblob : env.blob.CopiesExactly)
    (hblock : ∀ b size, env.validator.block b size = .ok ()) (hw : w.WellFormed)
    (hmark : w.get Block.lastBlock = false) (o : DefaultDeserializer × Bundle)
    (hrecord : IsRecord w o.2.toPrimaryBlock → ReadableRecord w.payload) :
    ∃ o', (readNext env).Loads w.bytes o o' false ∧
      o'.2.toPrimaryBlock = o.2.toPrimaryBlock := by
  by_cases h : IsRecord w o.2.toPrimaryBlock
  · obtain ⟨o', hload, hprimary⟩ :=
      loads_readRecord_valid hblob hblock hw h.1 (hrecord h) hmark o
    have hadm : o.2.get PrimaryBlock.appdataIsAdmrecord = true := h.2
    have hcons : w.bytes = w.blocktype :: (w.procflags.bytes ++ (w.refBytes ++ w.length.bytes) ++
        w.payload) := rfl
    refine ⟨o', ?_, hprimary⟩
    rw [hcons] at hload ⊢
    refine Loads.peek ?_
    simp only [Option.getD_some, if_neg hw.ne_zero, if_pos h.1]
    refine (loads_object _).bind_nil ?_
    rw [if_pos hadm]
    exact hload
  · exact hmark ▸ loads_readNext_wire hblob hblock hw o h

/-! ### The primary block -/

/-- The dictionary that is cut off. -/
theorem cuts_readDictionary {w : WireBundle} (hw : w.WellFormed) (d : Dictionary) :
    Cuts Exn.Escapes (ofParser d.read : Loader Exn Unit Dictionary)
      (w.dictionaryLength.bytes ++ w.dictionary) () := by
  rw [Dictionary.read, ofParser_bind]
  by_cases hzero : w.dictionaryLength.value.toNat ≤ 0
  · have hnil : w.dictionary = [] := by
      rw [← List.length_eq_zero_iff, ← hw.dictionary]
      omega
    rw [hnil, List.append_nil]
    exact ((SDNV.cutsSink_read _ _).then _).cuts
  · refine (SDNV.cutsSink_read _ _).bind (loads_ofParser w.dictionaryLength.reads _) ?_
    rw [if_neg hzero, hw.dictionary, ofParser_bind]
    exact (Loader.cuts_readBytes w.dictionary ()).then_nil fun _ => lax_pure _

/-- The handler for compressed headers does not take what escapes. -/
theorem catching_escapes {h : Parser Exn (HeaderEIDs × DefaultDeserializer)} (e : Exn)
    (he : e.Escapes) : (ofParser (if e.isInvalidData then h else throw e) :
      Loader Exn Unit (HeaderEIDs × DefaultDeserializer)) = throw e := by
  cases e with
  | undefined what => rfl
  | diverges what => rfl
  | _ => exact absurd he (by simp [Exn.Escapes, Exn.isException])

/-- What follows the dictionary in a primary block, with whatever the dictionary gave. -/
theorem lax_behindDictionary (hprimary : ∀ p, env.validator.primaryBlock p = .ok ())
    (procflags : UInt64) (old : UInt64 × UInt64) (mk : UInt64 × UInt64 → PrimaryBlock)
    (d : DefaultDeserializer) :
    Lax Exn.Escapes (ofParser (do
      let ref ← readOptional (FlagWord.has procflags PrimaryBlock.fragment) readRef old
      MonadExcept.ofExcept (env.validator.primaryBlock (mk ref))
      pure (mk ref, d)) : Loader Exn Unit (PrimaryBlock × DefaultDeserializer)) := by
  refine Lax.parser_bind ?_ fun ref => ?_
  · cases FlagWord.has procflags PrimaryBlock.fragment with
    | true => exact sinksAtEnd_readRef.lax
    | false => exact lax_pure old
  · simp only [hprimary]
    exact lax_pure (mk ref, d)

/-- **A primary block that is cut off** behind its version. -/
theorem slips_readPrimary_wire (hprimary : ∀ p, env.validator.primaryBlock p = .ok ())
    {w : WireBundle} (hw : w.WellFormed) {k : ℕ} (hpos : 0 < k) (hk : k < w.primary.length)
    (d : DefaultDeserializer) (obj : PrimaryBlock) :
    Slips Exn.Escapes (ofParser (readPrimary env d obj)) () (.short (w.primary.take k)) := by
  obtain ⟨k, rfl⟩ : ∃ i, k = i + 1 := ⟨k - 1, by omega⟩
  obtain ⟨⟨eids, d'⟩, hdict⟩ := reads_dictionary_wire hw.dictionary d
    (WireRef.value w.destination) (WireRef.value w.source) (WireRef.value w.reportto)
    (WireRef.value w.custodian)
  rw [readPrimary, ofParser_bind]
  refine (loads_ofParser (Parser.reads_getByte _ PrimaryBlock.bundleVersion) ()).slips_bind ?_
  rw [if_neg (by decide)]
  refine (?_ : Cuts _ _ (w.procflags.bytes ++ (w.blocklength.bytes ++ w.header)) ()) k
    (Nat.lt_of_succ_lt_succ hk)
  refine (SDNV.cutsSink_read _ _).parser_bind w.procflags.reads ?_
  refine (SDNV.cutsSink_read _ _).parser_bind w.blocklength.reads ?_
  refine (cutsSink_readRef _ _).parser_bind (WireRef.reads w.destination) ?_
  refine (cutsSink_readRef _ _).parser_bind (WireRef.reads w.source) ?_
  refine (cutsSink_readRef _ _).parser_bind (WireRef.reads w.reportto) ?_
  refine (cutsSink_readRef _ _).parser_bind (WireRef.reads w.custodian) ?_
  refine (SDNV.cutsSink_read _ _).parser_bind w.timestamp.reads ?_
  refine (SDNV.cutsSink_read _ _).parser_bind w.sequencenumber.reads ?_
  refine (SDNV.cutsSink_read _ _).parser_bind w.lifetime.reads ?_
  rw [ofParser_bind]
  refine Cuts.bind (loads_ofParser hdict ()) ?_ (fun x => ?_) ?_
  · rw [catching, Loader.ofParser_tryCatch]
    refine Cuts.tryCatch ?_ catching_escapes
    rw [readEIDs, ofParser_bind]
    exact (cuts_readDictionary hw _).then_nil fun _ => lax_pure _
  · exact lax_behindDictionary hprimary _ _ (fun ref =>
      { procflags := w.procflags.value, timestamp := w.timestamp.value,
        sequencenumber := w.sequencenumber.value, lifetime := w.lifetime.value,
        fragmentoffset := ref.1, appdatalength := ref.2, source := x.1.source,
        destination := x.1.destination, reportto := x.1.reportto,
        custodian := x.1.custodian }) x.2
  · rw [ofParser_bind]
    refine Cuts.then_nil ?_ fun ref => ?_
    · cases hfragment : w.get PrimaryBlock.fragment with
      | true =>
          rw [show FlagWord.has w.procflags.value PrimaryBlock.fragment = true from hfragment]
          exact (cutsSink_readRef w.fragment ()).cuts
      | false => exact Loader.cuts_nil _ _
    · simp only [hprimary]
      exact lax_pure _

/-- The loop on a block that is cut off: the end of the stream stops it if nothing else does. -/
theorem slips_readBlocks {o : DefaultDeserializer × Bundle} {r : Bytes}
    (h : Slips Exn.Escapes (readNext env) o (.short r)) (fuel : ℕ) :
    Slips Exn.Escapes (readBlocks env (fuel + 2)) o (.short r) := by
  refine (loads_ofParser Parser.reads_atEof o).slips_bind (h.bind fun last o' s' heof => ?_)
  cases last with
  | true => exact lax_pure () o' s' heof
  | false =>
      refine .returns [] () o' s' heof fun st' => ?_
      have hatEof : (ofParser Parser.atEof : Loader Exn (DefaultDeserializer × Bundle)
          Bool).run (o', s'.withStale st') = (.ok true, (o', s'.withStale st')) :=
        congrArg (fun eof => (Except.ok eof, (o', s'.withStale st'))) heof
      rw [List.nil_append, if_neg Bool.false_ne_true, readBlocks, run_bind_ok hatEof,
        if_pos rfl, Loader.run_pure]

end DefaultDeserializer

/-! ### Where a truncated bundle is rejected -/

/-- The first `k` bytes of the encoding end inside of the payload of a block without factory, at its
start at the earliest. -/
def WireBundle.InContent (w : WireBundle) (k : ℕ) : Prop :=
  ∃ bs b cs i, w.blocks = bs ++ b :: cs ∧ Factory.get b.blocktype = none ∧ i < b.payload.length ∧
    k = w.primary.length + ((bs.flatMap WireBlock.bytes).length + (b.header.length + i))

/-- A place in the concatenation of parts is in one of them. -/
theorem exists_cut {α : Type} (f : α → Bytes) {l : List α} {k : ℕ}
    (hk : k < (l.flatMap f).length) : ∃ bs b cs i, l = bs ++ b :: cs ∧ i < (f b).length ∧
      k = (bs.flatMap f).length + i := by
  induction l generalizing k with
  | nil => exact absurd hk (Nat.not_lt_zero k)
  | cons a l ih =>
      by_cases h : k < (f a).length
      · exact ⟨[], a, l, k, rfl, h, (Nat.zero_add k).symm⟩
      · rw [List.flatMap_cons, List.length_append] at hk
        obtain ⟨bs, b, cs, i, rfl, hi, hbs⟩ := ih (k := k - (f a).length) (by omega)
        refine ⟨a :: bs, b, cs, i, rfl, hi, ?_⟩
        rw [List.flatMap_cons, List.length_append]
        omega

theorem WireBundle.take_bytes {w : WireBundle} {bs cs : List WireBlock} {b : WireBlock}
    (hblocks : w.blocks = bs ++ b :: cs) {i : ℕ} (hi : i < b.bytes.length) :
    w.bytes.take (w.primary.length + ((bs.flatMap WireBlock.bytes).length + i)) =
      w.primary ++ (bs.flatMap WireBlock.bytes ++ b.bytes.take i) := by
  have hbytes : w.bytes = w.primary ++ (bs.flatMap WireBlock.bytes ++ (b.bytes ++
      cs.flatMap WireBlock.bytes)) := by
    simp [bytes, hblocks]
  rw [hbytes, List.take_length_add_append, List.take_length_add_append,
    List.take_append_of_le_length hi.le]

namespace DefaultDeserializer

/-- The operator throws an exception on the first `k` bytes of the encoding, whatever the memory
holds that the failing reads do not write. -/
def Rejects (env : DeserializerEnv) (w : WireBundle) (k : ℕ) : Prop :=
  ∀ d obj st, ∃ e s', (readBundle env d obj).run ⟨w.bytes.take k, false, false, st⟩ =
    (.error e, s') ∧ e.isException = true

variable {env : DeserializerEnv} {w : WireBundle}

/-- The blocks before a cut do not stop the loop. -/
theorem loads_before (hblob : env.blob.CopiesExactly) (haccepts : env.Accepts) (hw : w.Valid)
    {bs cs : List WireBlock} {b : WireBlock} (hblocks : w.blocks = bs ++ b :: cs) :
    ∀ c ∈ bs, ∀ o : DefaultDeserializer × Bundle, o.2.procflags = w.procflags.value →
      ∃ o', (readNext env).Loads c.bytes o o' false ∧
        o'.2.toPrimaryBlock = o.2.toPrimaryBlock := by
  intro c hc o hflags
  obtain ⟨ds, e, hmarked, hunmarked, -⟩ := hw.marked
  have hc' : c ∈ ds := by
    have hbs : bs <+: ds := by
      have hlength : bs.length ≤ ds.length := by
        have := congrArg List.length (hblocks.symm.trans hmarked)
        rw [List.length_append, List.length_append, List.length_cons, List.length_singleton] at this
        omega
      exact List.prefix_of_prefix_length_le (hblocks ▸ List.prefix_append bs (b :: cs))
        (hmarked ▸ List.prefix_append ds [e]) hlength
    exact hbs.subset hc
  have hmem : c ∈ w.blocks := hblocks ▸ List.mem_append_left _ hc
  refine loads_readNext_valid hblob haccepts.block (hw.blocks c hmem) (hunmarked c hc') o
    fun hrecord => hw.records ?_ c hmem hrecord.1
  rw [WireBundle.get, ← hflags]
  exact hrecord.2

/-- A cut inside of the content of a container is noticed. -/
theorem rejects_of_inContent (hblob : env.blob.CopiesExactly) (hrefuse : env.blob.RefusesShort)
    (haccepts : env.Accepts) (hw : w.Valid) {k : ℕ} (h : w.InContent k) : Rejects env w k := by
  intro d obj st
  obtain ⟨bs, b, cs, i, hblocks, hf, hi, rfl⟩ := h
  have hb : b.WellFormed := hw.blocks b (hblocks ▸ List.mem_append_right _ List.mem_cons_self)
  obtain ⟨o, fuel, -, hrun⟩ := run_readBundle_of_turns haccepts hw.toWellFormed
    (loads_before hblob haccepts hw hblocks) d obj (b.header ++ b.payload.take i)
  obtain ⟨what, t', hnext⟩ := throws_readNext_wire hrefuse haccepts.block hb hf hi o st
  have hlength : b.header.length + i < b.bytes.length := by
    rw [WireBlock.bytes, List.length_append]
    omega
  have htake : b.bytes.take (b.header.length + i) = b.header ++ b.payload.take i :=
    List.take_length_add_append i
  rw [WireBundle.take_bytes hblocks hlength, htake, hrun, run_readBlocks_of_throws rfl hnext]
  exact ⟨_, _, rfl, rfl⟩

/-- Nothing of a bundle is rejected, since the memory for the version is cleared. -/
theorem rejects_zero (env : DeserializerEnv) (w : WireBundle) : Rejects env w 0 := by
  intro d obj st
  have hversion : (Parser.getByte (some 0) : Parser Exn UInt8).run ⟨[], false, false, st⟩ =
      (.ok 0, ⟨[], true, true, st⟩) := rfl
  refine ⟨.invalidProtocol "Bundle version differ from ours.", ⟨[], true, true, st⟩, ?_, rfl⟩
  rw [List.take_zero, readBundle, Parser.run_bind, readPrimary, Parser.run_bind_ok hversion,
    if_pos (show (0 : UInt8) ≠ PrimaryBlock.bundleVersion by decide)]
  rfl

/-- A turn that slips keeps the operator from throwing. -/
theorem not_rejects_of_slips {k : ℕ} {o : DefaultDeserializer × Bundle} {r : Bytes} (fuel : ℕ)
    (hrun : ∀ st, (readBundle env create (Bundle.create 0 0)).run
        ⟨w.bytes.take k, false, false, st⟩ =
      match (readBlocks env (fuel + 2)).run (o, ⟨r, false, false, st⟩) with
      | (.ok _, (o, t)) => (.ok (o.2, o.1), t)
      | (.error e, (_, t)) => (.error e, t))
    (h : Slips Exn.Escapes (readNext env) o (.short r)) : ¬ Rejects env w k := by
  intro hrejects
  cases slips_readBlocks h fuel with
  | returns st a o' s' heof hreturns =>
      obtain ⟨e, t, hthrow, -⟩ := hrejects create (Bundle.create 0 0) (st ++ [])
      rw [hrun, show (readBlocks env (fuel + 2)).run (o, ⟨r, false, false, st ++ []⟩) = _ from
        hreturns []] at hthrow
      exact absurd (Prod.mk.inj hthrow).1 (by simp)
  | sinks hsinks =>
      obtain ⟨st, hsinks⟩ := hsinks
      obtain ⟨e, t, hthrow, hexception⟩ := hrejects create (Bundle.create 0 0) (st ++ [])
      obtain ⟨e', he', hescapes⟩ := hsinks []
      rw [hrun] at hthrow
      rcases hloop : (readBlocks env (fuel + 2)).run (o, ⟨r, false, false, st ++ []⟩) with
        ⟨e'' | a, o', t'⟩
      · have hsame : e'' = e' := Except.error.inj ((congrArg Prod.fst hloop).symm.trans he')
        rw [hloop] at hthrow
        have hthrown : e'' = e := Except.error.inj (Prod.mk.inj hthrow).1
        rw [← hthrown, hsame, hescapes] at hexception
        exact Bool.false_ne_true hexception
      · exact absurd ((congrArg Prod.fst hloop).symm.trans he') (by simp)

/-- A primary block that is cut off is not rejected. -/
theorem not_rejects_primary (haccepts : env.Accepts) (hw : w.WellFormed) {k : ℕ} (hpos : 0 < k)
    (hk : k < w.primary.length) : ¬ Rejects env w k := by
  intro hrejects
  have htake : w.bytes.take k = w.primary.take k := by
    rw [WireBundle.bytes, List.take_append_of_le_length hk.le]
  cases slips_readPrimary_wire haccepts.primaryBlock hw hpos hk create
    (Bundle.create 0 0).toPrimaryBlock with
  | returns st x o' s' heof h =>
      obtain ⟨e, t, hthrow, -⟩ := hrejects create (Bundle.create 0 0) (st ++ [])
      have hprimary : (readPrimary env create (Bundle.create 0 0).toPrimaryBlock).run
          ⟨w.bytes.take k, false, false, st ++ []⟩ = (.ok x, s'.withStale []) := by
        have hvalue := congrArg Prod.fst (h [])
        have hstream := congrArg (fun s => s.2.2) (h [])
        rw [htake]
        exact Prod.ext hvalue hstream
      have hatEof (o : DefaultDeserializer × Bundle) : (ofParser Parser.atEof : Loader Exn
          (DefaultDeserializer × Bundle) Bool).run (o, s'.withStale []) =
            (.ok true, (o, s'.withStale [])) :=
        congrArg (fun eof => (Except.ok eof, (o, s'.withStale []))) heof
      rw [run_readBundle hprimary haccepts.bundle, firstTurn, readBlocks,
        run_bind_ok (hatEof _), if_pos rfl, Loader.run_pure] at hthrow
      exact absurd (Prod.mk.inj hthrow).1 (by simp)
  | sinks h =>
      obtain ⟨st, h⟩ := h
      obtain ⟨e, t, hthrow, hexception⟩ := hrejects create (Bundle.create 0 0) (st ++ [])
      obtain ⟨e', he', hescapes⟩ := h []
      have hprimary : ((readPrimary env create (Bundle.create 0 0).toPrimaryBlock).run
          ⟨w.bytes.take k, false, false, st ++ []⟩).1 = .error e' := by
        rw [htake]
        exact he'
      rw [readBundle, Parser.run_bind] at hthrow
      rcases hrun : (readPrimary env create (Bundle.create 0 0).toPrimaryBlock).run
        ⟨w.bytes.take k, false, false, st ++ []⟩ with ⟨e'' | x, s'⟩
      · rw [hrun] at hthrow hprimary
        have hthrown : e'' = e := Except.error.inj (Prod.mk.inj hthrow).1
        rw [← hthrown, Except.error.inj hprimary, hescapes] at hexception
        exact Bool.false_ne_true hexception
      · rw [hrun] at hprimary
        exact absurd hprimary (by simp)

/-- **Where a truncated bundle is rejected.** A valid encoding that is cut off after `k` bytes makes
the operator throw for every stale memory exactly if nothing of it is left, or the cut is inside of
the payload of a payload block or of a block without factory. -/
theorem rejects_iff (hblob : env.blob.CopiesExactly) (hrefuse : env.blob.RefusesShort)
    (haccepts : env.Accepts) (hw : w.Valid) {k : ℕ} (hk : k < w.bytes.length) :
    Rejects env w k ↔ k = 0 ∨ w.InContent k := by
  constructor
  · intro hrejects
    by_contra hnot
    obtain ⟨hzero, hcontent⟩ := not_or.1 hnot
    by_cases hprimary : k < w.primary.length
    · exact not_rejects_primary haccepts hw.toWellFormed (Nat.pos_of_ne_zero hzero) hprimary
        hrejects
    · obtain ⟨j, rfl⟩ := Nat.exists_eq_add_of_le (Nat.le_of_not_lt hprimary)
      have hj : j < (w.blocks.flatMap WireBlock.bytes).length := by
        rw [WireBundle.bytes, List.length_append] at hk
        omega
      obtain ⟨bs, b, cs, i, hblocks, hi, rfl⟩ := exists_cut WireBlock.bytes hj
      have hb : b.WellFormed := hw.blocks b (hblocks ▸ List.mem_append_right _ List.mem_cons_self)
      obtain ⟨o, fuel, -, hrun⟩ := run_readBundle_of_turns haccepts hw.toWellFormed
        (loads_before hblob haccepts hw hblocks) create (Bundle.create 0 0) (b.bytes.take i)
      refine not_rejects_of_slips (o := o) (r := b.bytes.take i) fuel (fun st => ?_) ?_ hrejects
      · rw [WireBundle.take_bytes hblocks hi]
        exact hrun st
      · cases i with
        | zero => exact .sinks (sinks_readNext_end o)
        | succ i =>
            refine slips_readNext_wire haccepts.block hb (Nat.succ_pos i) hi ?_ o
            by_contra hcut
            obtain ⟨hheader, hf⟩ := not_or.1 hcut
            obtain ⟨n, hn⟩ := Nat.exists_eq_add_of_le (Nat.le_of_not_lt hheader)
            rw [WireBlock.bytes, List.length_append] at hi
            exact hcontent ⟨bs, b, cs, n, hblocks, not_not.1 hf, by omega, by omega⟩
  · rintro (rfl | h)
    · exact rejects_zero env w
    · exact rejects_of_inContent hblob hrefuse haccepts hw h

theorem valid_sample : (WireBundle.sample 0 [1, 2, 3]).Valid where
  toWellFormed := WireBundle.wellFormed_sample (by decide) (by decide)
  records := fun h => absurd h (show FlagWord.has 0 PrimaryBlock.appdataIsAdmrecord ≠ true by decide)

/-- The cuts inside of the payload are noticed, and one inside of the primary block is not. -/
theorem rejects_iff_sample :
    Rejects (.default BLOB.exact ⟨0, 0⟩) (.sample 0 [1, 2, 3]) 19 ∧
      ¬ Rejects (.default BLOB.exact ⟨0, 0⟩) (.sample 0 [1, 2, 3]) 5 := by
  refine ⟨(rejects_iff BLOB.exact_copiesExactly BLOB.exact_refusesShort (accepts_default _ _)
    valid_sample (by decide)).2 (.inr ⟨[], _, [], 1, rfl, rfl, by decide, by decide⟩), fun h => ?_⟩
  rcases (rejects_iff BLOB.exact_copiesExactly BLOB.exact_refusesShort (accepts_default _ _)
    valid_sample (by decide)).1 h with h | ⟨bs, b, cs, i, -, -, -, h⟩
  · exact absurd h (by decide)
  · have hprimary : (WireBundle.sample 0 [1, 2, 3]).primary.length = 15 := by decide
    omega

/-- **A bundle that is cut off inside of its primary block is returned**, without blocks. -/
theorem not_rejects_sample : (WireBundle.sample 0 [1, 2, 3]).Valid ∧
    ¬ Rejects (.default BLOB.exact ⟨0, 0⟩) (.sample 0 [1, 2, 3]) 5 ∧
      ((readBundle (.default BLOB.exact ⟨0, 0⟩) create (Bundle.create 0 0)).run
        ⟨(WireBundle.sample 0 [1, 2, 3]).bytes.take 5, false, false, []⟩).1.toOption.map
          (fun p => p.1.blocks) = some [] := by
  have hblocks : ((readBundle (.default BLOB.exact ⟨0, 0⟩) create (Bundle.create 0 0)).run
      ⟨(WireBundle.sample 0 [1, 2, 3]).bytes.take 5, false, false, []⟩).1.toOption.map
        (fun p => p.1.blocks) = some [] := by
    decide +kernel
  refine ⟨valid_sample, fun hrejects => ?_, hblocks⟩
  obtain ⟨e, s', hthrow, -⟩ := hrejects create (Bundle.create 0 0) []
  rw [hthrow] at hblocks
  exact absurd hblocks (by simp [Except.toOption])

end DefaultDeserializer

end IbrDtn
