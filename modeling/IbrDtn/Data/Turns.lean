import IbrDtn.Data.Deserializer
import IbrDtn.Library.StreamUse

/-!
# The turns of the loop over the blocks

The loop of `DefaultDeserializer::operator>>(Bundle&)` reads a block in every turn.  This file
names the turns that a bundle is read in, and shows that the loop of the model, which bounds their
number by the length of the stream, always has enough of them: a turn that does not reach the end
of the stream consumes a byte, since all that the deserializer does to its stream is to read it.

## Main definitions

* `DefaultDeserializer.Turn`, `DefaultDeserializer.Reaches` : the turns of the loop.
* `DefaultDeserializer.target` : the new block that a turn reads into.
* `DefaultDeserializer.readHeader` : what is read of a block before it is validated.

## Main results

* `DefaultDeserializer.run_readNext_of_throws`, `DefaultDeserializer.run_readNext_of_fails` : the
  turns in which the block cannot be read.
* `DefaultDeserializer.run_readBundle_of_reaches` : an exception that leaves a turn leaves the
  operator.
-/

namespace IbrDtn

open Loader (object ofParser run_bind run_bind_ok run_ofRun run_throw)

/-! ### Programs that only read their stream -/

/-- `BLOB::copy` does nothing to its input stream but read it. -/
class BLOB.ReadOnly (blob : BLOB) : Prop where
  copy : ∀ n, (blob.copy n).ReadOnly

instance : BLOB.exact.ReadOnly := ⟨fun _ => by unfold BLOB.exact; infer_instance⟩

section ReadOnly

open Parser (ReadOnly)

instance (room : ℕ) : ReadOnly (SDNV.readBuffer room) := by
  induction room with
  | zero => exact inferInstanceAs (ReadOnly (throw _))
  | succ room ih =>
      rw [SDNV.readBuffer]
      infer_instance

instance : ReadOnly SDNV.read := by
  have h (sdnv : Bytes) : ReadOnly (match SDNV.decode sdnv with
      | .ok val => (pure val : Parser Exn UInt64)
      | .error e => throw e) := by
    split <;> infer_instance
  rw [SDNV.read]
  infer_instance

instance : SDNV.load.ReadOnly := by
  have h (sdnv : Bytes) : Loader.ReadOnly (match SDNV.decode sdnv with
      | .ok _ => (pure () : Loader Exn UInt64 Unit)
      | .error e => throw e) := by
    split <;> infer_instance
  rw [SDNV.load]
  infer_instance

instance : ReadOnly BundleString.read := by
  rw [BundleString.read]
  infer_instance

instance : ReadOnly DTNTime.read := by
  rw [DTNTime.read]
  infer_instance

instance {α : Type} (present : Bool) (p : Parser Exn α) [ReadOnly p] (old : α) :
    ReadOnly (readOptional present p old) := by
  rw [readOptional]
  infer_instance

instance {σ : Type} (present : Bool) (p : Loader Exn σ Unit) [p.ReadOnly] :
    (loadOptional present p).ReadOnly := by
  rw [loadOptional]
  infer_instance

instance (b : CustodySignalBlock) : ReadOnly b.deserialize := by
  rw [CustodySignalBlock.deserialize]
  infer_instance

instance (b : StatusReportBlock) : ReadOnly b.deserialize := by
  rw [StatusReportBlock.deserialize]
  infer_instance

instance : ReadOnly TLV.read := by
  rw [TLV.read]
  infer_instance

instance (length fuel readLength : ℕ) : (TLVList.loadLoop length fuel readLength).ReadOnly := by
  induction fuel generalizing readLength with
  | zero => exact inferInstanceAs (Loader.ReadOnly (pure ()))
  | succ fuel ih =>
      rw [TLVList.loadLoop]
      infer_instance

instance : TLVList.load.ReadOnly := by
  rw [TLVList.load]
  infer_instance

set_option synthInstance.maxSize 512 in
instance (eids : List EID) : (SecurityBlock.deserialize eids).ReadOnly := by
  rw [SecurityBlock.deserialize]
  infer_instance

instance : AgeBlock.deserialize.ReadOnly := by
  rw [AgeBlock.deserialize]
  infer_instance

instance : ScopeControlHopLimitBlock.deserialize.ReadOnly := by
  rw [ScopeControlHopLimitBlock.deserialize]
  infer_instance

instance : StreamBlock.deserialize.ReadOnly := by
  rw [StreamBlock.deserialize]
  infer_instance

instance : CompressedPayloadBlock.deserialize.ReadOnly := by
  rw [CompressedPayloadBlock.deserialize]
  infer_instance

instance (eids : List EID) : (PayloadIntegrityBlock.deserialize eids).ReadOnly := by
  rw [PayloadIntegrityBlock.deserialize]
  infer_instance

instance (blob : BLOB) [hblob : blob.ReadOnly] (length : ℕ) : ReadOnly (blob.fill length) := by
  have hcopy := hblob.copy length
  have h (e : Exn) : ReadOnly (match e with
      | .ioException what => (throw (.serializationFailed what) : Parser Exn Bytes)
      | e => throw e) := by
    split <;> infer_instance
  rw [BLOB.fill]
  infer_instance

instance (blob : BLOB) [blob.ReadOnly] (eids : List EID) (length : UInt64) :
    (Body.deserialize blob eids length).ReadOnly := by
  rw [Body.deserialize]
  refine .bind inferInstance fun body => ?_
  cases body <;> dsimp only <;> infer_instance

instance (blob : BLOB) [blob.ReadOnly] (length : UInt64) :
    (Block.deserialize blob length).ReadOnly := by
  rw [Block.deserialize]
  refine .bind inferInstance fun b => .bind inferInstance fun _ => ?_
  split <;> infer_instance

instance (d : Dictionary) : ReadOnly d.read := by
  rw [Dictionary.read]
  infer_instance

instance {α : Type} (c : Exn → Bool) (p h : Parser Exn α) [ReadOnly p] [ReadOnly h] :
    ReadOnly (catching c p h) := by
  rw [catching]
  infer_instance

namespace DefaultDeserializer

instance : ReadOnly readRef := by
  rw [readRef]
  infer_instance

instance (d : DefaultDeserializer) (destination source reportto custodian : UInt64 × UInt64) :
    ReadOnly (d.readEIDs destination source reportto custodian) := by
  rw [readEIDs]
  infer_instance

set_option synthInstance.maxSize 512 in
instance (env : DeserializerEnv) (d : DefaultDeserializer) (obj : PrimaryBlock) :
    ReadOnly (readPrimary env d obj) := by
  rw [readPrimary]
  refine .bind inferInstance fun version => ?_
  dsimp only
  split <;> infer_instance

instance (count : ℕ) : (readBlockEIDs count).ReadOnly := by
  induction count with
  | zero => exact inferInstanceAs (Loader.ReadOnly (pure ()))
  | succ count ih =>
      rw [readBlockEIDs]
      infer_instance

instance (procflags : UInt64) : (readEIDList procflags).ReadOnly := by
  rw [readEIDList]
  infer_instance

variable {env : DeserializerEnv} [env.blob.ReadOnly]

instance : (readBlock env).ReadOnly := by
  rw [readBlock]
  refine .bind inferInstance fun o => .bind inferInstance fun blocktype => ?_
  refine .bind inferInstance fun _ => .bind inferInstance fun procflags => ?_
  refine .bind inferInstance fun _ => .bind inferInstance fun o => ?_
  infer_instance

instance (block : Block) : (pushAndRead env block).ReadOnly := by
  rw [pushAndRead]
  infer_instance

instance (dict : Dictionary) (bytes : Bytes) (record : Block) :
    (rereadRecord env dict bytes record).ReadOnly := by
  rw [rereadRecord]
  refine .bind inferInstance fun _ => ⟨fun hJ s h => ?_⟩
  dsimp only
  rw [Loader.within, run_ofRun, run_ofRun]
  dsimp only
  split <;> exact hJ.stale h _

/-- The field that selects the class of a record is peeked. -/
theorem readOnly_admfield (payload : Bytes) :
    ReadOnly (match payload with
      | b :: _ => (pure b : Parser Exn UInt8)
      | [] => Parser.ofRun fun s => (.ok s.popStale.1, s.popStale.2)) := by
  cases payload with
  | nil => exact ⟨fun hJ s h => hJ.popStale h⟩
  | cons b bs => infer_instance

omit [env.blob.ReadOnly] in
/-- What a turn does with an administrative record behind its temporary block. -/
theorem readRecord_eq : ∃ f, readRecord env = pushAndRead env Block.newExtension >>= f ∧
    ∀ block, (f block).ReadOnly := by
  refine ⟨_, rfl, fun block => ?_⟩
  have hadmfield := readOnly_admfield block.body.serialize
  infer_instance

instance : (readRecord env).ReadOnly := by
  obtain ⟨f, hf, hrest⟩ := @readRecord_eq env
  rw [hf]
  infer_instance

instance : (readUnknown env).ReadOnly := by
  rw [readUnknown]
  infer_instance

end DefaultDeserializer

end ReadOnly

namespace DefaultDeserializer

/-! ### Parts of a turn -/

/-- The first half of `DefaultDeserializer::operator>>(Block&)`: everything up to the announced size
of the payload. -/
def readHeader : Loader Exn (DefaultDeserializer × Block) UInt64 := do
  let (_, b) ← object
  let blocktype ← ofParser (Parser.getByte (some b.blocktype))
  Loader.update fun o => (o.1, { o.2 with blocktype })
  let procflags ← ofParser SDNV.read
  Loader.update fun o =>
    (o.1, { o.2 with procflags := procflags &&& (~~~Block.lastBlock ||| o.2.procflags) })
  let (_, b) ← object
  readEIDList b.procflags
  ofParser SDNV.read

variable (env : DeserializerEnv)

/-- The second half: the block is validated, and its payload is read. -/
def readPayload (blockSize : UInt64) : Loader Exn (DefaultDeserializer × Block) Unit := do
  let (_, b) ← object
  MonadExcept.ofExcept (env.validator.block b blockSize)
  Loader.within b (fun b o => (o.1, b)) (Block.deserialize env.blob blockSize)

theorem readBlock_eq : readBlock env = readHeader >>= readPayload env := by
  simp only [readBlock, readHeader, bind_assoc]
  rfl

/-- The object that a turn for a block of the given type appends to the bundle. -/
def target (type : UInt8) (bundle : Bundle) : Block :=
  if type = Block.payloadType ∧ bundle.get PrimaryBlock.appdataIsAdmrecord = true then
    Block.newExtension
  else Block.receiver type

/-- `_stream.peek()`, which is `EOF` at the end of the stream. -/
def blockType (s : InStream) : UInt8 := if s.good then s.rest.head?.getD 0xff else 0xff

/-- The stream behind `_stream.peek()`. -/
def peeked (s : InStream) : InStream :=
  (Parser.run (Parser.peekByte : Parser Exn (Option UInt8)) s).2

/-- A turn behind the look at the type of the block. -/
def readTyped (type : UInt8) : Loader Exn (DefaultDeserializer × Bundle) Bool :=
  if type = 0 then throw (.invalidData "block type is zero")
  else if type = Block.payloadType then do
    let (_, bundle) ← object
    if bundle.get PrimaryBlock.appdataIsAdmrecord then readRecord env
    else
      let block ← pushAndRead env Block.newPayload
      pure (block.get Block.lastBlock)
  else
    MonadExcept.tryCatch
      (match Factory.get type with
      | none => throw (.exception "Factory not available")
      | some n => do
          let block ← pushAndRead env n
          pure (block.get Block.lastBlock))
      fun e => if e.isException then readUnknown env else throw e

/-- The loop reads blocks into a bundle: its state, and the stream. -/
abbrev Turn := (DefaultDeserializer × Bundle) × InStream

theorem run_readNext (t : Turn) :
    (readNext env).run t = (readTyped env (blockType t.2)).run (t.1, peeked t.2) := by
  have hpeek : (ofParser Parser.peekByte : Loader Exn (DefaultDeserializer × Bundle)
      (Option UInt8)).run t =
      (.ok (if t.2.good then t.2.rest.head? else none), (t.1, peeked t.2)) := by
    rw [ofParser, run_ofRun, peeked, Parser.peekByte, Parser.run_ofRun]
    by_cases hgood : t.2.good = true
    · rw [if_pos hgood, if_pos hgood]
      cases t.2.rest <;> rfl
    · rw [if_neg hgood, if_neg hgood]
  have htype : (if t.2.good then t.2.rest.head? else none).getD 0xff = blockType t.2 := by
    rw [blockType]
    split_ifs <;> rfl
  rw [readNext, run_bind_ok hpeek]
  dsimp only
  rw [htype]
  rfl

variable {env} {t t' : Turn} {e : Exn}

/-- A block that cannot be read ends its turn, if there is no factory for its type or the exception
is none of the classes that the handler of the factory takes. -/
theorem run_readNext_of_throws
    (hread : (pushAndRead env (target (blockType t.2) t.1.2)).run (t.1, peeked t.2) =
      (.error e, t'))
    (htype : blockType t.2 ≠ 0)
    (hcaught : Factory.get (blockType t.2) = none ∨ e.isException = false) :
    (readNext env).run t = (.error e, t') := by
  rw [run_readNext, readTyped, if_neg htype]
  rw [target, Block.receiver] at hread
  by_cases hp : blockType t.2 = Block.payloadType
  · rw [if_pos hp, run_bind_ok (Loader.run_object _)]
    rw [hp] at hread
    by_cases hadm : t.1.2.get PrimaryBlock.appdataIsAdmrecord = true
    · rw [if_pos ⟨rfl, hadm⟩] at hread
      dsimp only
      rw [if_pos hadm, readRecord, run_bind, hread]
    · rw [if_neg fun h => hadm h.2] at hread
      dsimp only
      have hread : (pushAndRead env Block.newPayload).run (t.1, peeked t.2) = (.error e, t') := hread
      rw [if_neg hadm, run_bind, hread]
  · rw [if_neg hp, Loader.run_tryCatch]
    rw [if_neg fun h => hp h.1] at hread
    cases hf : Factory.get (blockType t.2) with
    | some n =>
        rw [hf] at hread hcaught
        have hnot : e.isException = false := hcaught.resolve_left (Option.some_ne_none n)
        dsimp only
        rw [run_bind, hread]
        dsimp only
        rw [if_neg (Bool.eq_false_iff.1 hnot), run_throw]
    | none =>
        rw [hf] at hread
        dsimp only at hread ⊢
        rw [if_neg hp] at hread
        rw [run_throw]
        dsimp only
        rw [if_pos (show Exn.isException (.exception "Factory not available") = true from rfl),
          readUnknown, run_bind, hread]

theorem ne_zero_of_factory {type : UInt8} {n : Block} (hf : Factory.get type = some n) :
    type ≠ 0 := by
  rintro rfl
  exact absurd hf (by rw [show Factory.get 0 = none from rfl]; simp)

theorem ne_payload_of_factory {type : UInt8} {n : Block} (hf : Factory.get type = some n) :
    type ≠ Block.payloadType := by
  rintro rfl
  exact absurd hf (by rw [show Factory.get Block.payloadType = none from rfl]; simp)

/-- **A block with a factory that cannot be read is read again as a plain extension block**, from
where the stream is. -/
theorem run_readNext_of_fails {n : Block}
    (hread : (pushAndRead env n).run (t.1, peeked t.2) = (.error e, t'))
    (hf : Factory.get (blockType t.2) = some n) (he : e.isException = true) :
    (readNext env).run t = (readUnknown env).run t' := by
  rw [run_readNext, readTyped, if_neg (ne_zero_of_factory hf), if_neg (ne_payload_of_factory hf),
    Loader.run_tryCatch, hf]
  dsimp only
  rw [run_bind, hread]
  dsimp only
  rw [if_pos he]

/-! ### Turns in order -/

theorem run_atEof (heof : t.2.eof = false) :
    (ofParser Parser.atEof : Loader Exn (DefaultDeserializer × Bundle) Bool).run t =
      (.ok false, t) := by
  rw [ofParser, run_ofRun, Parser.atEof, Parser.run_ofRun, heof]

theorem run_readBlocks_of_next (heof : t.2.eof = false)
    (hnext : (readNext env).run t = (.ok false, t')) (fuel : ℕ) :
    (readBlocks env (fuel + 1)).run t = (readBlocks env fuel).run t' := by
  rw [readBlocks, run_bind_ok (run_atEof heof), if_neg Bool.false_ne_true,
    run_bind_ok hnext, if_neg Bool.false_ne_true]

theorem run_readBlocks_of_last (heof : t.2.eof = false)
    (hnext : (readNext env).run t = (.ok true, t')) (fuel : ℕ) :
    (readBlocks env (fuel + 1)).run t = (.ok (), t') := by
  rw [readBlocks, run_bind_ok (run_atEof heof), if_neg Bool.false_ne_true,
    run_bind_ok hnext, if_pos rfl, Loader.run_pure]

theorem run_readBlocks_of_throws (heof : t.2.eof = false)
    (hnext : (readNext env).run t = (.error e, t')) (fuel : ℕ) :
    (readBlocks env (fuel + 1)).run t = (.error e, t') := by
  rw [readBlocks, run_bind_ok (run_atEof heof), if_neg Bool.false_ne_true,
    run_bind, hnext]

variable (env)

/-- The turns of the loop that starts at `t₀`: the stream has not met its end, and the block
that was read is not the last one. -/
inductive Reaches (t₀ : Turn) : Turn → Prop where
  | start : Reaches t₀ t₀
  | next {t t' : Turn} (h : Reaches t₀ t) (heof : t.2.eof = false)
      (hnext : (readNext env).run t = (.ok false, t')) : Reaches t₀ t'

variable {env}

section Fuel

variable [env.blob.ReadOnly]

omit [env.blob.ReadOnly] in

instance (blockSize : UInt64) : (readPayload env blockSize).ReadOnly := by
  rw [readPayload]
  infer_instance

instance (type : UInt8) : (readTyped env type).ReadOnly := by
  have hknown : Loader.ReadOnly (match Factory.get type with
      | none => throw (.exception "Factory not available")
      | some n => (do
          let block ← pushAndRead env n
          pure (block.get Block.lastBlock) : Loader Exn (DefaultDeserializer × Bundle) Bool)) := by
    split <;> infer_instance
  rw [readTyped]
  infer_instance

/-- Reading a block consumes the byte of its type. -/
theorem consumes_pushAndRead (block : Block) : (pushAndRead env block).Consumes := by
  have hread : (readBlock env).Consumes := by
    rw [readBlock_eq, readHeader, bind_assoc]
    refine Loader.consumes_object_bind fun o => ?_
    rw [bind_assoc]
    refine (Loader.consumes_getByte _).bind fun _ => .bind ?_ inferInstance
    infer_instance
  refine Loader.consumes_update_bind (Loader.consumes_object_bind fun o => ?_)
  exact Loader.Consumes.within (hread.bind fun _ => inferInstance) _ _

theorem consumes_readTyped {type : UInt8} (htype : type ≠ 0) : (readTyped env type).Consumes := by
  have hreturn (block : Block) : (do
      let block ← pushAndRead env block
      pure (block.get Block.lastBlock) : Loader Exn (DefaultDeserializer × Bundle) Bool).Consumes :=
    (consumes_pushAndRead block).bind fun _ => inferInstance
  have hunknown : (readUnknown env).Consumes := (consumes_pushAndRead _).bind fun _ => inferInstance
  rw [readTyped, if_neg htype]
  split_ifs with hp
  · refine Loader.consumes_object_bind fun o => ?_
    dsimp only
    split_ifs with hadm
    · obtain ⟨f, hf, hrest⟩ := @readRecord_eq env
      rw [hf]
      exact (consumes_pushAndRead _).bind hrest
    · exact hreturn _
  · cases Factory.get type with
    | none =>
        refine Loader.consumes_throw_tryCatch ?_
        rw [if_pos (show Exn.isException (.exception "Factory not available") = true from rfl)]
        exact hunknown
    | some n => exact (hreturn n).tryCatch fun _ => inferInstance

/-- **A turn that returns has met the end of the stream or consumed a byte.** -/
theorem length_lt_of_readNext {b : Bool} (hfail : t.2.fail = true → t.2.eof = true)
    (heof : t.2.eof = false) (hnext : (readNext env).run t = (.ok b, t'))
    (heof' : t'.2.eof = false) :
    t'.2.rest.length < t.2.rest.length ∧ (t'.2.fail = true → t'.2.eof = true) := by
  obtain ⟨o, ⟨rest, eof, fail, st⟩⟩ := t
  obtain rfl : eof = false := heof
  obtain rfl : fail = false := Bool.eq_false_iff.2 fun h => Bool.false_ne_true (hfail h)
  rw [run_readNext] at hnext
  cases rest with
  | nil =>
      have hended := (inferInstance : (readTyped env 0xff).ReadOnly).keeps InStream.closed_eof
        (o, peeked ⟨[], false, false, st⟩) rfl
      have hrun : (readTyped env 0xff).run (o, peeked ⟨[], false, false, st⟩) = (.ok b, t') := hnext
      rw [hrun] at hended
      exact absurd (heof'.symm.trans hended) Bool.false_ne_true
  | cons c rest =>
      have hrun : (readTyped env c).run (o, ⟨c :: rest, false, false, st⟩) = (.ok b, t') := hnext
      have hc : c ≠ 0 := by
        rintro rfl
        rw [readTyped, if_pos rfl, run_throw] at hrun
        exact absurd (Prod.mk.inj hrun).1 (by simp)
      have hkept := (show (readTyped env c).Consumes from consumes_readTyped hc).keeps
        (InStream.closed_within rest.length) o c rest st
        ⟨le_rfl, Bool.noConfusion⟩
      rw [hrun] at hkept
      exact ⟨Nat.lt_succ_of_le hkept.1, hkept.2⟩

/-- The loop gets to every turn with enough turns left. -/
theorem Reaches.run_readBlocks {t₀ : Turn} (h : Reaches env t₀ t)
    (h₀ : t₀.2.fail = true → t₀.2.eof = true) (heof : t.2.eof = false) :
    ∃ k, k + t.2.rest.length ≤ t₀.2.rest.length ∧ (t.2.fail = true → t.2.eof = true) ∧
      ∀ fuel, (readBlocks env (k + fuel)).run t₀ = (readBlocks env fuel).run t := by
  induction h with
  | start => exact ⟨0, (Nat.zero_add _).le, h₀, fun fuel => by rw [Nat.zero_add]⟩
  | @next t t' _ heof₁ hnext ih =>
      obtain ⟨k, hk, hfail, hrun⟩ := ih heof₁
      have hturn : t'.2.rest.length < t.2.rest.length ∧ (t'.2.fail = true → t'.2.eof = true) :=
        length_lt_of_readNext hfail heof₁ hnext heof
      have hlt := hturn.1
      refine ⟨k + 1, by omega, hturn.2, fun fuel => ?_⟩
      rw [Nat.add_assoc, Nat.add_comm 1 fuel, hrun, run_readBlocks_of_next heof₁ hnext]

/-! ### From the turns to the operator -/

/-- The first turn: the primary block was read. -/
def firstTurn (d : DefaultDeserializer) (p : PrimaryBlock) (s : InStream) : Turn :=
  ((d, { p with blocks := [] }), s)

omit [env.blob.ReadOnly] in
/-- A primary block is read from a good stream only, and reading it keeps that. -/
theorem fail_of_readPrimary {d d' : DefaultDeserializer} {obj p : PrimaryBlock} {s s' : InStream}
    (h : (readPrimary env d obj).run s = (.ok (p, d'), s')) : s'.fail = true → s'.eof = true := by
  have hgood : s.good = true := by
    by_contra hbad
    have hversion : (Parser.getByte (some 0) : Parser Exn UInt8).run s =
        (.ok 0, { s with fail := true }) := by
      rw [Parser.getByte, Parser.run_ofRun, if_neg hbad]
      rfl
    rw [readPrimary, Parser.run_bind_ok hversion] at h
    exact absurd (congrArg Prod.fst h) (by simp [PrimaryBlock.bundleVersion])
  have hkept := (inferInstance : (readPrimary env d obj).ReadOnly).keeps
    (InStream.closed_within s.rest.length) s
    ⟨le_rfl, fun hfail => absurd (((InStream.good_iff s).1 hgood).2.symm.trans hfail)
      Bool.false_ne_true⟩
  rw [h] at hkept
  exact hkept.2

/-- **An exception that leaves a turn of the loop leaves the operator**, with the stream as it is. -/
theorem run_readBundle_of_reaches {d d' : DefaultDeserializer} {obj : Bundle} {p : PrimaryBlock}
    {s s' : InStream} (hprimary : (readPrimary env d obj.toPrimaryBlock).run s = (.ok (p, d'), s'))
    (h : Reaches env (firstTurn d' p s') t) (heof : t.2.eof = false)
    (hthrow : (readNext env).run t = (.error e, t')) :
    (readBundle env d obj).run s = (.error e, t'.2) := by
  obtain ⟨k, hk, -, hrun⟩ := h.run_readBlocks (fail_of_readPrimary hprimary) heof
  obtain ⟨fuel, hfuel⟩ : ∃ fuel, s'.rest.length + 2 = k + (fuel + 1) :=
    ⟨s'.rest.length + 1 - k, by
      have : k + t.2.rest.length ≤ s'.rest.length := hk
      omega⟩
  have hloop : (readBlocks env (s'.rest.length + 2)).run (firstTurn d' p s') = (.error e, t') := by
    rw [hfuel, hrun, run_readBlocks_of_throws heof hthrow]
  rw [firstTurn] at hloop
  rw [readBundle, Parser.run_bind_ok hprimary]
  dsimp only
  rw [Parser.run_bind_ok (show Parser.run (Parser.remaining : Parser Exn ℕ) s' =
    (.ok s'.rest.length, s') from rfl), Parser.run_bind, Parser.run_ofRun, hloop]

end Fuel

end DefaultDeserializer

end IbrDtn
