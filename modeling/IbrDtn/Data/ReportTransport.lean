import IbrDtn.Data.RecordRoundTrip
import IbrDtn.Data.RecordFlag
import IbrDtn.Data.Truncation
import IbrDtn.Utils.Clock

/-!
# The transport of status reports

A bundle with a status report is read by a detour: the deserializer reads the record into a
temporary block, writes that block to a temporary stream and reads it again.  This file follows a
report from the serializer through the detour into the block that the reader finds.

## Main definitions

* `Body.statusReport?` : the members of a status report.
* `Bundle.Reports` : the bundles that end with a status report.

## Main results

* `Bundle.Reports.reads_readBundle` : the reader finds the status report, with the source that its
  text denotes.
-/

namespace IbrDtn

open Loader (Preserves loads_object loads_update loads_ofParser preserves_pure preserves_throw
  preserves_ofParser preserves_update preserves_object_bind)
open Parser (Ensures)

/-- The members of a status report. -/
def Body.statusReport? : Body → Option StatusReportBlock
  | .statusReport b => some b
  | _ => none

theorem StatusReportBlock.getLength_lt {r : StatusReportBlock}
    (hlt : r.source.getString.length < 2 ^ 63) : r.getLength < 2 ^ 64 := by
  have hle := SDNV.getLength_le
  have htime (t : DTNTime) : t.getLength ≤ 20 := Nat.add_le_add (hle _) (hle _)
  have hoptional (p : Prop) [Decidable p] {n : ℕ} (hn : n ≤ 20) : (if p then n else 0) ≤ 20 := by
    split_ifs <;> omega
  have hsource : BundleString.getLength r.source.getString ≤ 10 + r.source.getString.length :=
    Nat.add_le_add_right (hle _) _
  have h₁ := hle r.bundleTimestamp
  have h₂ := hle r.bundleSequence
  have hfragment := Nat.add_le_add (hle r.fragmentOffset) (hle r.fragmentLength)
  have h₃ := hoptional (isFragment r.admfield = true) hfragment
  have h₄ := hoptional (has r.status receiptOfBundle = true) (htime r.timeOfReceipt)
  have h₅ := hoptional (has r.status custodyAcceptanceOfBundle = true) (htime r.timeOfCustodyAccept)
  have h₆ := hoptional (has r.status forwardingOfBundle = true) (htime r.timeOfForwarding)
  have h₇ := hoptional (has r.status deliveryOfBundle = true) (htime r.timeOfDelivery)
  have h₈ := hoptional (has r.status deletionOfBundle = true) (htime r.timeOfDeletion)
  rw [SDNV.maxLength] at h₁ h₂
  rw [getLength]
  omega

/-! ### Blocks in front of the record -/

namespace BlockList

/-- Appending a block keeps the types of the blocks in front of it. -/
theorem exists_of_mem_dropLast_pushBack {blocks : List Block} {block b : Block}
    (h : b ∈ (pushBack blocks block).dropLast) : ∃ c ∈ blocks, c.blocktype = b.blocktype := by
  rw [pushBack] at h
  cases hlast : blocks.getLast? with
  | none => simp [hlast] at h
  | some last =>
      simp only [hlast] at h
      rw [List.append_cons, List.dropLast_concat] at h
      rcases List.mem_append.1 h with h | h
      · exact ⟨b, List.mem_of_mem_dropLast h, rfl⟩
      · exact ⟨last, List.mem_of_getLast? hlast, by rw [List.mem_singleton.1 h]; rfl⟩

/-- Removing the last block keeps the types of the others. -/
theorem exists_of_mem_remove_concat {blocks : List Block} {block b : Block}
    (h : b ∈ remove (blocks ++ [block]) ((blocks ++ [block]).length - 1)) :
    ∃ c ∈ blocks, c.blocktype = b.blocktype := by
  rw [remove_back, markBack] at h
  cases hlast : blocks.getLast? with
  | none => simp [hlast] at h
  | some last =>
      simp only [hlast] at h
      rcases List.mem_append.1 h with h | h
      · exact ⟨b, List.mem_of_mem_dropLast h, rfl⟩
      · exact ⟨last, List.mem_of_getLast? hlast, by rw [List.mem_singleton.1 h]; rfl⟩

end BlockList

/-- The last block is found, if there is no other one of its type. -/
theorem Bundle.getBlock_setBack {α : Type} {b : Bundle} {n : Block} {type : UInt8}
    (hfront : ∀ c ∈ b.blocks.dropLast, c.blocktype ≠ type) (hn : n.blocktype = type)
    (cast : Body → Option α) : (b.setBack n).getBlock type cast = cast n.body := by
  have hnone : b.blocks.dropLast.find? (fun block => block.blocktype == type) = none :=
    List.find?_eq_none.2 fun c hc => by
      rw [beq_iff_eq]
      exact hfront c hc
  rw [getBlock, setBack]
  dsimp only
  rw [List.find?_append, hnone, Option.none_or, List.find?_singleton, hn,
    if_pos (beq_self_eq_true _), Option.bind_some]

namespace DefaultDeserializer

variable {env : DeserializerEnv}

/-- **A status report takes the detour**, and is the payload block that the reader finds. -/
theorem loads_readRecord_statusReport (hblob : env.blob.CopiesExactly)
    (hblock : ∀ b size, env.validator.block b size = .ok ()) {r : StatusReportBlock}
    (hadmfield : Parser.isSpace r.admfield = false) (hstatus : Parser.isSpace r.status = false)
    (hreasoncode : Parser.isSpace r.reasoncode = false)
    (hlt : r.source.getString.length < 2 ^ 63) (hselect : r.admfield >>> 4 = 1) {c : Block}
    (htype : c.blocktype = Block.payloadType) (hbody : c.body = .statusReport r)
    (heids : c.eids = []) (hlength : r.serialize.length < 2 ^ 64) (s : DefaultSerializer)
    (o : DefaultDeserializer × Bundle)
    (hfront : ∀ b ∈ o.2.blocks, b.blocktype ≠ Block.payloadType) :
    ∃ o', (readRecord env).Loads (s.writeBlock c) o o' (c.get Block.lastBlock) ∧
      o'.2.toPrimaryBlock = o.2.toPrimaryBlock ∧
      o'.2.getBlock Block.payloadType Body.statusReport? =
        some { r.into (.create env.now) with source := EID.ofString r.source.getString } := by
  have hpayload : (WireBlock.ofBlock s c).payload = r.serialize := by
    rw [WireBlock.ofBlock, hbody]
    rfl
  have hw : (WireBlock.ofBlock s c).WellFormed := by
    refine ⟨?_, fun _ => ?_, ?_, ?_, fun hf => absurd ?_ hf⟩
    · exact (show c.blocktype ≠ 0 from htype ▸ by decide)
    · rw [WireBlock.ofBlock, heids]
      rfl
    · rw [WireBlock.ofBlock, heids]
      exact Nat.two_pow_pos 32
    · rw [hpayload, r.length_serialize, WireBlock.ofBlock, hbody]
      exact EID.toNat_ofNat_of_lt (n := r.getLength) (r.length_serialize ▸ hlength)
    · exact (show Factory.get c.blocktype = none from htype ▸ rfl)
  obtain ⟨d', n', dict, htype', hbody', hcount, hlast, hturn⟩ :=
    loads_readRecord_of_select hblob hblock hw htype
      (show (WireBlock.ofBlock s c).payload = r.admfield :: r.serialize.tail from hpayload) o
  rw [if_pos hselect, WireBlock.bytes_ofBlock] at hturn
  have hreread : ∀ eids length, ∃ body, (Body.deserialize env.blob eids length).Loads
      (WireBlock.ofBlock s c).payload (Block.newStatusReport env.now).body body () ∧
        body = .statusReport { r.into (.create env.now) with
          source := EID.ofString r.source.getString } :=
    fun eids length => ⟨_, (loads_object _).bind_nil
      ((loads_ofParser (hpayload ▸ StatusReportBlock.reads_deserialize hadmfield hstatus
        hreasoncode hlt (.create env.now)) _).then_nil (loads_update _ _)), rfl⟩
  obtain ⟨n, hload, hntype, hn⟩ := loads_rereadRecord htype' hbody' hcount hw.length_lt
    (show (Block.newStatusReport env.now).eids = [] from rfl) hreread dict
    ⟨d'.dictionary.copy.1, false⟩ _
  rw [hlast] at hload
  refine ⟨_, hturn _ _ hload, rfl, ?_⟩
  have hmem {b : Block} {blocks : List Block} (h : ∃ c ∈ blocks, c.blocktype = b.blocktype)
      (hblocks : ∀ c ∈ blocks, c.blocktype ≠ Block.payloadType) :
      b.blocktype ≠ Block.payloadType := by
    obtain ⟨c, hc, hsame⟩ := h
    exact hsame ▸ hblocks c hc
  refine (Bundle.getBlock_setBack (fun b hb => ?_) (hntype.trans htype') _).trans (congrArg _ hn)
  refine hmem (BlockList.exists_of_mem_dropLast_pushBack hb) fun b hb => ?_
  refine hmem (BlockList.exists_of_mem_remove_concat hb) fun b hb => ?_
  exact hmem (BlockList.exists_of_mem_dropLast_pushBack hb) hfront

/-- The loop reads the blocks in front of the record, and then the record. -/
theorem loads_readBlocks_statusReport (hblob : env.blob.CopiesExactly)
    (hblock : ∀ b size, env.validator.block b size = .ok ()) {r' : StatusReportBlock}
    {front : List Block} {c : Block} (s : DefaultSerializer)
    (hserializable : ∀ b ∈ front, b.Serializable) (heids : ∀ b ∈ front, b.eids = [])
    (htypes : ∀ b ∈ front, b.blocktype ≠ Block.payloadType)
    (hmarks : ∀ b ∈ front, b.get Block.lastBlock = false) (hmark : c.get Block.lastBlock = true)
    (hctype : c.blocktype = Block.payloadType)
    (hrecord : ∀ o : DefaultDeserializer × Bundle,
      (∀ b ∈ o.2.blocks, b.blocktype ≠ Block.payloadType) →
      ∃ o', (readRecord env).Loads (s.writeBlock c) o o' (c.get Block.lastBlock) ∧
        o'.2.toPrimaryBlock = o.2.toPrimaryBlock ∧
        o'.2.getBlock Block.payloadType Body.statusReport? = some r')
    (d : DefaultDeserializer) (bundle : Bundle)
    (hbundle : bundle.get PrimaryBlock.appdataIsAdmrecord = true)
    (hblocks : ∀ b ∈ bundle.blocks, b.blocktype ≠ Block.payloadType)
    (hunmarked : ∀ b ∈ bundle.blocks, b.get Block.lastBlock = false) :
    ∃ o' : DefaultDeserializer × Bundle, o'.2.toPrimaryBlock = bundle.toPrimaryBlock ∧
      o'.2.getBlock Block.payloadType Body.statusReport? = some r' ∧
      ∀ fuel, front.length < fuel →
        (readBlocks env fuel).Loads ((front ++ [c]).flatMap s.writeBlock) (d, bundle) o' () := by
  -- No EIDs are read, so that any resolution of references will do.
  have hres : Resolves s (fun _ => True) (fun _ => False) id :=
    ⟨fun _ h => h.elim, fun _ _ => trivial⟩
  induction front generalizing d bundle with
  | nil =>
      obtain ⟨o', hload, hprimary, hfind⟩ := hrecord (d, bundle) hblocks
      refine ⟨o', hprimary, hfind, fun fuel hfuel => ?_⟩
      obtain ⟨fuel, rfl⟩ := Nat.exists_eq_add_one.2 hfuel
      rw [List.nil_append, List.flatMap_singleton]
      refine (loads_ofParser Parser.reads_atEof _).bind_nil ?_
      have hturn : (readNext env).Loads (s.writeBlock c) (d, bundle) o' true := by
        rw [hmark, DefaultSerializer.writeBlock, hctype] at hload
        rw [DefaultSerializer.writeBlock, hctype]
        refine Loader.Loads.peek ?_
        simp only [Option.getD_some, if_neg (show Block.payloadType ≠ 0 by decide), if_true]
        refine (loads_object _).bind_nil ?_
        simp only [hbundle, if_true]
        exact hload
      exact hturn.then_nil (Loader.loads_pure _ _)
  | cons b front ih =>
      obtain ⟨d₁, -, hload⟩ := loads_readNext hres hblob hblock
        (hserializable b List.mem_cons_self) (by simp [heids b List.mem_cons_self]) (d := d) trivial
        hunmarked fun h => absurd h (htypes b List.mem_cons_self)
      have hmem {p : Block → Prop} {bs : List Block} {x : Block} (hbs : ∀ b ∈ bs, p b) (hx : p x) :
          ∀ b ∈ bs ++ [x], p b := by
        intro b hb
        rcases List.mem_append.1 hb with hb | hb
        · exact hbs b hb
        · exact List.mem_singleton.1 hb ▸ hx
      have hmarkb := hmarks b List.mem_cons_self
      have hview := (hserializable b List.mem_cons_self).sendable.view_transported id
      obtain ⟨o', hprimary, hfind, hloads⟩ := ih
        (fun b hb => hserializable b (List.mem_cons_of_mem _ hb))
        (fun b hb => heids b (List.mem_cons_of_mem _ hb))
        (fun b hb => htypes b (List.mem_cons_of_mem _ hb))
        (fun b hb => hmarks b (List.mem_cons_of_mem _ hb)) d₁
        { bundle with blocks := bundle.blocks ++ [b.transported id] } hbundle
        (hmem hblocks (by
          rw [show (b.transported id).blocktype = b.blocktype from
            congrArg Block.View.blocktype hview]
          exact htypes b List.mem_cons_self))
        (hmem hunmarked ((Block.get_of_view hview _ (by decide)).trans hmarkb))
      refine ⟨o', hprimary, hfind, fun fuel hfuel => ?_⟩
      obtain ⟨fuel, rfl⟩ := Nat.exists_eq_add_one.2 ((Nat.zero_le _).trans_lt hfuel)
      rw [List.cons_append, List.flatMap_cons]
      refine (loads_ofParser Parser.reads_atEof _).bind_nil ?_
      rw [hmarkb] at hload
      exact hload.bind (hloads fuel (by simpa using hfuel))

end DefaultDeserializer

/-! ### The flags -/

namespace DefaultDeserializer

variable (env : DeserializerEnv)

section

variable {p : PrimaryBlock}

theorem preserves_primary_pushAndRead (n : Block) :
    (pushAndRead env n).Preserves fun o => o.2.toPrimaryBlock = p := by
  refine Preserves.bind (preserves_update fun o ho => ?_) fun _ =>
    preserves_object_bind fun o _ => ?_
  · exact ho
  · exact Preserves.within (J := fun _ => True) (fun _ _ => trivial) trivial fun _ _ _ h => h

theorem preserves_primary_rereadRecord (dict : Dictionary) (bytes : Bytes) (record : Block) :
    (rereadRecord env dict bytes record).Preserves fun o => o.2.toPrimaryBlock = p := by
  refine Preserves.bind (preserves_update fun o ho => ?_) fun _ => ?_
  · exact ho
  · exact Preserves.within (J := fun _ => True) (fun _ _ => trivial) trivial fun _ _ _ h => h

theorem preserves_primary_readRecord :
    (readRecord env).Preserves fun o => o.2.toPrimaryBlock = p := by
  refine (preserves_primary_pushAndRead env _).bind fun block =>
    (preserves_ofParser _).bind fun admfield => preserves_object_bind fun o _ => ?_
  refine Preserves.bind (preserves_update fun o ho => ?_) fun _ => ?_
  · exact ho
  split_ifs
  · exact preserves_primary_rereadRecord env _ _ _
  · exact preserves_primary_rereadRecord env _ _ _
  · exact preserves_pure _

theorem preserves_primary_readUnknown :
    (readUnknown env).Preserves fun o => o.2.toPrimaryBlock = p := by
  refine (preserves_primary_pushAndRead env _).bind fun block => ?_
  split_ifs
  · refine Preserves.bind (preserves_update fun o ho => ?_) fun _ => preserves_pure _
    exact ho
  · exact preserves_pure _

theorem preserves_primary_readNext :
    (readNext env).Preserves fun o => o.2.toPrimaryBlock = p := by
  refine (preserves_ofParser _).bind fun next => ?_
  dsimp only
  split_ifs with hzero hpayload
  · exact preserves_throw _
  · refine preserves_object_bind fun o _ => ?_
    split_ifs
    · exact preserves_primary_readRecord env
    · exact (preserves_primary_pushAndRead env _).bind fun _ => preserves_pure _
  · refine Preserves.tryCatch ?_ fun e => ?_
    · cases Factory.get (next.getD 0xff) with
      | none => exact preserves_throw _
      | some n => exact (preserves_primary_pushAndRead env n).bind fun _ => preserves_pure _
    · split_ifs
      · exact preserves_primary_readUnknown env
      · exact preserves_throw _

theorem preserves_primary_readBlocks (fuel : ℕ) :
    (readBlocks env fuel).Preserves fun o => o.2.toPrimaryBlock = p := by
  induction fuel with
  | zero => exact preserves_throw _
  | succ fuel ih =>
      refine (preserves_ofParser _).bind fun eof => ?_
      split_ifs
      · exact preserves_pure _
      · refine (preserves_primary_readNext env).bind fun last => ?_
        split_ifs
        · exact preserves_pure _
        · exact ih

end

/-- **The flags of a bundle are the ones that were written**, whatever becomes of its EIDs and
blocks. -/
theorem yields_procflags_readBundle (s : DefaultSerializer) (b : Bundle) (d : DefaultDeserializer)
    (obj : Bundle) :
    (readBundle env d obj).Yields (s.writeBundle b).1 fun p => p.1.procflags = b.procflags := by
  have hprimary : (readPrimary env d obj.toPrimaryBlock).Yields (s.writeBundle b).1
      fun p => p.1.procflags = b.procflags := by
    have hbytes : ∃ bs, (s.writeBundle b).1 =
        PrimaryBlock.bundleVersion :: (SDNV.write b.procflags ++ bs) :=
      ⟨_, by simp only [DefaultSerializer.writeBundle, DefaultSerializer.writePrimary,
        List.cons_append, List.append_assoc]; rfl⟩
    obtain ⟨bs, hbs⟩ := hbytes
    rw [hbs]
    exact yields_readPrimary env d _ b.procflags bs
  refine hprimary.bind fun p hp => Ensures.of_bind fun remaining => ?_
  refine Ensures.bind (P := fun o => o.1.procflags = b.procflags) ?_
    fun o ho => Ensures.of_bind fun _ => Parser.ensures_pure ho
  intro is o ho
  have hkept := preserves_primary_readBlocks env (remaining + 2) (p := p.1)
    ((p.2, { p.1 with blocks := [] }), is) rfl
  rw [Parser.run_ofRun] at ho
  rcases hrun : (readBlocks env (remaining + 2)).run ((p.2, { p.1 with blocks := [] }), is) with
    ⟨e | a, o', is'⟩
  · simp [hrun] at ho
  · rw [hrun] at hkept
    simp only [hrun, Except.ok.injEq] at ho
    rw [← ho]
    exact (congrArg PrimaryBlock.procflags hkept).trans hp

end DefaultDeserializer

/-! ### The primary block -/

/-- A primary block as a serializer writes it. -/
def WireBundle.ofPrimary (s : DefaultSerializer) (p : PrimaryBlock) : WireBundle where
  procflags := .shortest p.procflags
  blocklength := .shortest (UInt64.ofNat (s.blockLength p))
  destination := (.shortest (s.ref p.destination).1, .shortest (s.ref p.destination).2)
  source := (.shortest (s.ref p.source).1, .shortest (s.ref p.source).2)
  reportto := (.shortest (s.ref p.reportto).1, .shortest (s.ref p.reportto).2)
  custodian := (.shortest (s.ref p.custodian).1, .shortest (s.ref p.custodian).2)
  timestamp := .shortest p.timestamp
  sequencenumber := .shortest p.sequencenumber
  lifetime := .shortest p.lifetime
  dictionaryLength := .shortest (if s.compressable then 0 else s.dictionary.getSize)
  dictionary := if s.compressable then [] else s.dictionary.bytes
  fragment := (.shortest p.fragmentoffset, .shortest p.appdatalength)
  blocks := []

theorem WireBundle.primary_ofPrimary {s : DefaultSerializer} (hpos : s.dictionary.gpos = 0)
    (p : PrimaryBlock) : (ofPrimary s p).primary = (s.writePrimary p).1 := by
  have hwrite (v : UInt64) : SDNV.write v = (SDNV.Wire.shortest v).bytes := SDNV.write_eq_bytes v
  have hdictionary : (ofPrimary s p).dictionaryLength.bytes ++ (ofPrimary s p).dictionary =
      s.writeDictionary.1 := by
    rw [DefaultSerializer.writeDictionary, ofPrimary]
    dsimp only
    rw [← hwrite]
    split_ifs
    · rw [List.append_nil]
    · rw [Dictionary.write, hpos, List.drop_zero]
  have hrefs (tail : Bytes) : s.writeRefs (Bundle.headerEIDs p) ++ tail =
      WireRef.bytes (ofPrimary s p).destination ++ (WireRef.bytes (ofPrimary s p).source ++
        (WireRef.bytes (ofPrimary s p).reportto ++
          (WireRef.bytes (ofPrimary s p).custodian ++ tail))) := by
    simp [DefaultSerializer.writeRefs, Bundle.headerEIDs, WireRef.bytes, ofPrimary, hwrite]
  rw [primary, header, hdictionary, ← hrefs]
  simp only [DefaultSerializer.writePrimary, DefaultSerializer.writeHeader, hwrite]
  rfl

/-! ### Bundles -/

namespace Bundle

/-- The bundle is flagged as an administrative record, and ends with the block `c` of the status
report `r`, behind blocks `front` without EIDs that are no payload blocks. -/
structure Reports (b : Bundle) (r : StatusReportBlock) (front : List Block) (c : Block) : Prop where
  flagged : b.get PrimaryBlock.appdataIsAdmrecord = true
  blocks_eq : b.blocks = front ++ [c]
  front_serializable : ∀ x ∈ front, x.Serializable
  front_eids : ∀ x ∈ front, x.eids = []
  front_type : ∀ x ∈ front, x.blocktype ≠ Block.payloadType
  front_unmarked : ∀ x ∈ front, x.get Block.lastBlock = false
  marked : c.get Block.lastBlock = true
  type_eq : c.blocktype = Block.payloadType
  body_eq : c.body = .statusReport r
  eids_eq : c.eids = []

/-- **A status report is found by the reader**, with the source that its text denotes. -/
theorem Reports.reads_readBundle {b : Bundle} {r : StatusReportBlock} {front : List Block}
    {c : Block} (hb : b.Reports r front c) (hadmfield : Parser.isSpace r.admfield = false)
    (hselect : r.admfield >>> 4 = 1) (hstatus : Parser.isSpace r.status = false)
    (hreasoncode : Parser.isSpace r.reasoncode = false)
    (hlt : r.source.getString.length < 2 ^ 63)
    (hsize : (b.allEIDs.map Dictionary.sizeOf).sum < 2 ^ 64) (s : DefaultSerializer)
    {env : DeserializerEnv} (haccepts : env.Accepts) (hblob : env.blob.CopiesExactly)
    (d : DefaultDeserializer) (obj : Bundle) :
    ∃ n d', (DefaultDeserializer.readBundle env d obj).Reads (s.writeBundle b).1 (n, d') ∧
      n.procflags = b.procflags ∧
      n.getBlock Block.payloadType Body.statusReport? =
        some { r.into (.create env.now) with source := EID.ofString r.source.getString } := by
  let s' : DefaultSerializer :=
    { s.rebuildDictionary b with compressable := DefaultSerializer.isCompressable b }
  have hpos : s'.dictionary.gpos = 0 := by
    rw [show s'.dictionary = (s.rebuildDictionary b).dictionary from rfl,
      DefaultSerializer.rebuildDictionary_dictionary, Dictionary.gpos_addAll]
    rfl
  have hlength : s'.dictionary.bytes.length < 2 ^ 64 :=
    (DefaultSerializer.length_rebuildDictionary_le s b).trans_lt hsize
  have hdictionary : (WireBundle.ofPrimary s' b.toPrimaryBlock).dictionaryLength.value.toNat =
      (WireBundle.ofPrimary s' b.toPrimaryBlock).dictionary.length := by
    rw [WireBundle.ofPrimary]
    dsimp only
    split_ifs
    · rfl
    · exact EID.toNat_ofNat_of_lt hlength
  obtain ⟨p, d₁, hprimary, hflags⟩ := DefaultDeserializer.reads_readPrimary_wire
    haccepts.primaryBlock hdictionary d obj.toPrimaryBlock
  rw [WireBundle.primary_ofPrimary hpos] at hprimary
  have hflagged : p.get PrimaryBlock.appdataIsAdmrecord = true := by
    rw [PrimaryBlock.get, hflags]
    exact hb.flagged
  have hlength : r.serialize.length < 2 ^ 64 := by
    rw [r.length_serialize]
    exact r.getLength_lt hlt
  obtain ⟨o', ho', hfind, hloads⟩ := DefaultDeserializer.loads_readBlocks_statusReport hblob
    haccepts.block s'.writeDictionary.2 hb.front_serializable hb.front_eids hb.front_type
    hb.front_unmarked hb.marked hb.type_eq
    (DefaultDeserializer.loads_readRecord_statusReport hblob haccepts.block hadmfield hstatus
      hreasoncode hlt hselect hb.type_eq hb.body_eq hb.eids_eq hlength s'.writeDictionary.2)
    d₁ { p with blocks := [] } hflagged (fun _ h => absurd h List.not_mem_nil)
    (fun _ h => absurd h List.not_mem_nil)
  refine ⟨o'.2, o'.1, ?_, ?_, hfind⟩
  · rw [← hb.blocks_eq] at hloads
    intro rest st
    have hprimary := hprimary (b.blocks.flatMap s'.writeDictionary.2.writeBlock ++ rest) st
    rw [← List.append_assoc] at hprimary
    refine (DefaultDeserializer.run_readBundle hprimary haccepts.bundle).trans ?_
    have hfuel : front.length < (b.blocks.flatMap s'.writeDictionary.2.writeBlock ++
        rest).length + 2 := by
      have hle := DefaultDeserializer.length_le_flatMap_writeBlock s'.writeDictionary.2 b.blocks
      rw [hb.blocks_eq, List.length_append] at hle
      rw [hb.blocks_eq, List.length_append]
      omega
    rw [DefaultDeserializer.firstTurn, hloads _ hfuel rest st]
  · rw [ho']
    exact hflags

end Bundle

end IbrDtn
