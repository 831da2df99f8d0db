import IbrDtn.Data.RoundTrip
import IbrDtn.Data.Turns
import IbrDtn.Utils.Clock

/-!
# Rejected blocks

This file models the checks of `daemon/src/core/BundleCore.cpp` that the node applies to the bundles
it receives, and studies what becomes of a block that they reject, or that the class of its
type cannot read.  The handler that is meant for a missing factory takes the exceptions of blocks
with a factory as well: the block stays in the bundle as far as it was read, and the loop goes on
with another block from the middle of it.

## Main definitions

* `BundleCore.validator` : the checks of a node.
* `DefaultDeserializer.Fails` : a turn of the loop whose block is rejected or cannot be read.
* `DefaultDeserializer.NeverSwallows` : every such turn ends the operator.

## Main results

* `DefaultDeserializer.neverSwallows_iff` : this is so exactly when no such block has a factory.
-/

namespace IbrDtn

/-! ### The checks of a node -/

namespace BundleCore

/-- The settings of the checks: `BundleCore::blocksizelimit`, `max_lifetime`, `max_timestamp_future`,
`forwarding` and `local`. -/
structure Limits where
  blocksizelimit : UInt64
  maxLifetime : UInt64
  maxTimestampFuture : UInt64
  forwarding : Bool
  eid : EID

/-- `RejectedException(what)` if the condition holds. -/
def rejectIf (c : Bool) (what : String) : Except Exn Unit :=
  if c then .error (.rejected what) else .ok ()

/-- `BundleCore::validate(const PrimaryBlock&)`. The exception of an endpoint without host is not
among those that the function declares. -/
def validatePrimary (limits : Limits) (c : Clock) (p : PrimaryBlock) : Except Exn Unit := do
  if !limits.forwarding then
    match p.destination.getNode, limits.eid.getNode with
    | .ok host, .ok node => rejectIf (host ≠ node) "bundle is not local"
    | _, _ => .error (.undefined "unexpected exception of BundleCore::validate")
  rejectIf (limits.maxLifetime > 0 && p.lifetime > limits.maxLifetime)
    "lifetime of the bundle is too long"
  rejectIf (limits.maxTimestampFuture > 0 && (c.hasQuality &&
    decide (c.time + limits.maxTimestampFuture < p.timestamp)))
    "timestamp is too far in the future"

/-- `BundleCore::validate(const Block&, const size_t)`. -/
def validateBlock (limits : Limits) (size : UInt64) : Except Exn Unit :=
  rejectIf (limits.blocksizelimit > 0 && size > limits.blocksizelimit) "block size is too big"

/-- `BundleCore::validate(const Bundle&)`, without the optional security checks. -/
def validateBundle (c : Clock) (b : Bundle) : Except Exn Unit :=
  rejectIf (c.isExpired b) "bundle is expired"

/-- `class BundleCore` as a `Validator`. -/
def validator (limits : Limits) (c : Clock) : Validator where
  primaryBlock := validatePrimary limits c
  block := fun _ size => validateBlock limits size
  bundle := validateBundle c

end BundleCore

/-! ### Blocks that cannot be read -/

namespace DefaultDeserializer

variable (env : DeserializerEnv)

/-- What may happen behind the header of a block of the given type, which is at the start of the
stream: the validator rejects the block, or the class that belongs to the type cannot read its
payload. -/
inductive Fault (type : UInt8) (t : (DefaultDeserializer × Block) × InStream) : Exn → Prop where
  | rejected {size : UInt64} {t' : (DefaultDeserializer × Block) × InStream} {what : String}
      (hheader : readHeader.run t = (.ok size, t'))
      (hreject : env.validator.block t'.1.2 size = .error (.rejected what)) :
      Fault type t (.rejected what)
  | broken {size : UInt64} {t' : (DefaultDeserializer × Block) × InStream} {n b : Block} {e : Exn}
      {s : InStream} (hfactory : Factory.get type = some n)
      (hheader : readHeader.run t = (.ok size, t'))
      (haccept : env.validator.block t'.1.2 size = .ok ())
      (hread : (Block.deserialize env.blob size).run (t'.1.2, t'.2) = (.error e, (b, s))) :
      Fault type t e

/-- A turn of the loop whose block is rejected or cannot be read. -/
structure Fails (t : Turn) (e : Exn) : Prop where
  notEof : t.2.eof = false
  ne_zero : blockType t.2 ≠ 0
  fault : Fault env (blockType t.2)
    ((t.1.1, (target (blockType t.2) t.1.2).set Block.lastBlock true), peeked t.2) e

/-- Reading a bundle from `s` never swallows a rejection: a turn whose block is rejected or cannot be
read ends with the exception where reading the block has stopped, and so does the operator. -/
def NeverSwallows (d : DefaultDeserializer) (obj : Bundle) (s : InStream) : Prop :=
  ∀ p d' s', (readPrimary env d obj.toPrimaryBlock).run s = (.ok (p, d'), s') →
    ∀ t, Reaches env (firstTurn d' p s') t → ∀ e, Fails env t e →
      ∃ t', (pushAndRead env (target (blockType t.2) t.1.2)).run (t.1, peeked t.2) =
          (.error e, t') ∧
        (readNext env).run t = (.error e, t') ∧ (readBundle env d obj).run s = (.error e, t'.2)

/-- No block that is rejected or cannot be read has a factory, up to exceptions that no handler
takes. -/
def NoKnownBlockFails (d : DefaultDeserializer) (obj : Bundle) (s : InStream) : Prop :=
  ∀ p d' s', (readPrimary env d obj.toPrimaryBlock).run s = (.ok (p, d'), s') →
    ∀ t, Reaches env (firstTurn d' p s') t → ∀ e, Fails env t e → e.isException = true →
      Factory.get (blockType t.2) = none

variable {env} {t : Turn} {e : Exn}

theorem Fault.of_header {type : UInt8} {t : (DefaultDeserializer × Block) × InStream}
    {size : UInt64} {what : String} (hheader : (readHeader.run t).1 = .ok size)
    (hreject : ∀ b, env.validator.block b size = .error (.rejected what)) :
    Fault env type t (.rejected what) :=
  .rejected (Prod.ext hheader rfl) (hreject _)

/-- A fault leaves the operator for blocks. -/
theorem Fault.run_readBlock {type : UInt8} {t : (DefaultDeserializer × Block) × InStream}
    (h : Fault env type t e) : ∃ t', (readBlock env).run t = (.error e, t') := by
  cases h with
  | @rejected size t' what hheader hreject =>
      refine ⟨t', ?_⟩
      rw [readBlock_eq, Loader.run_bind_ok hheader, readPayload,
        Loader.run_bind_ok (Loader.run_object _)]
      dsimp only
      rw [hreject]
      rfl
  | @broken size t' n b e s _ hheader haccept hread =>
      refine ⟨((t'.1.1, b), s), ?_⟩
      rw [readBlock_eq, Loader.run_bind_ok hheader, readPayload,
        Loader.run_bind_ok (Loader.run_object _)]
      dsimp only
      rw [haccept]
      change (Loader.within t'.1.2 (fun b o => (o.1, b)) (Block.deserialize env.blob size)).run t' = _
      rw [Loader.within, Loader.run_ofRun, hread]

/-- A block that is rejected or cannot be read is in the bundle nevertheless. -/
theorem Fails.run_pushAndRead (h : Fails env t e) :
    ∃ t', (pushAndRead env (target (blockType t.2) t.1.2)).run (t.1, peeked t.2) =
      (.error e, t') := by
  obtain ⟨t', hread⟩ := h.fault.run_readBlock
  rw [pushAndRead, Loader.run_bind_ok (Loader.run_update _ _),
    Loader.run_bind_ok (Loader.run_object _)]
  dsimp only
  rw [Loader.within, Loader.run_ofRun, Loader.run_bind, hread]
  exact ⟨_, rfl⟩

theorem length_pushBack (bs : List Block) (b : Block) :
    (BlockList.pushBack bs b).length = bs.length + 1 := by
  rcases List.eq_nil_or_concat bs with rfl | ⟨bs, last, rfl⟩
  · rfl
  · rw [List.concat_eq_append, BlockList.pushBack_append_singleton, List.length_append,
      List.length_append]
    rfl

/-- Reading a block into a new one makes the bundle one block longer, whether it can be read or
not. -/
theorem length_pushAndRead (block : Block) (t : Turn) :
    ((pushAndRead env block).run t).2.1.2.blocks.length = t.1.2.blocks.length + 1 := by
  have hpush : (t.1.2.pushBack block).blocks.length = t.1.2.blocks.length + 1 :=
    length_pushBack _ _
  rw [pushAndRead, Loader.run_bind_ok (Loader.run_update _ _),
    Loader.run_bind_ok (Loader.run_object _)]
  dsimp only
  rw [Loader.within, Loader.run_ofRun]
  dsimp only
  rw [Bundle.setBack, List.length_append, List.length_dropLast, hpush]
  rfl

/-- If a block without factory cannot be read, it is in the bundle. -/
theorem length_readUnknown {t' : Turn} (h : (readUnknown env).run t = (.error e, t')) :
    t'.1.2.blocks.length = t.1.2.blocks.length + 1 := by
  have hlength : ((pushAndRead env Block.newExtension).run t).2.1.2.blocks.length =
      t.1.2.blocks.length + 1 := length_pushAndRead _ t
  rw [readUnknown, Loader.run_bind] at h
  rcases hrun : (pushAndRead env Block.newExtension).run t with ⟨e' | block, t₁⟩
  · rw [hrun] at h hlength
    obtain rfl : t₁ = t' := (Prod.mk.inj h).2
    exact hlength
  · rw [hrun] at h
    dsimp only at h
    split_ifs at h
    · exact absurd (Prod.mk.inj h).1 (by simp)
    · exact absurd (Prod.mk.inj h).1 (by simp)

/-- **When a rejection is swallowed.** A turn whose block is rejected or cannot be read ends the
operator exactly if the block has no factory, or the exception is none that a handler takes. -/
theorem neverSwallows_iff (env : DeserializerEnv) [env.blob.ReadOnly] (d : DefaultDeserializer)
    (obj : Bundle) (s : InStream) : NeverSwallows env d obj s ↔ NoKnownBlockFails env d obj s := by
  constructor
  · intro h p d' s' hprimary t hreach e hfails he
    obtain ⟨t', hread, hnext, -⟩ := h p d' s' hprimary t hreach e hfails
    cases hf : Factory.get (blockType t.2) with
    | none => rfl
    | some n =>
        -- the handler appends another block
        have htarget : target (blockType t.2) t.1.2 = n := by
          rw [target, if_neg fun h => ne_payload_of_factory hf h.1, Block.receiver, hf]
        have hlength := length_readUnknown
          ((run_readNext_of_fails (htarget ▸ hread) hf he).symm.trans hnext)
        omega
  · intro h p d' s' hprimary t hreach e hfails
    obtain ⟨t', hread⟩ := hfails.run_pushAndRead
    have hcaught : Factory.get (blockType t.2) = none ∨ e.isException = false := by
      by_cases he : e.isException = true
      · exact .inl (h p d' s' hprimary t hreach e hfails he)
      · exact .inr (Bool.eq_false_iff.2 he)
    have hnext := run_readNext_of_throws hread hfails.ne_zero hcaught
    exact ⟨t', hread, hnext, run_readBundle_of_reaches hprimary hreach hfails.notEof hnext⟩

/-! ### A rejection that is swallowed -/

/-- A node that accepts blocks of ten bytes. -/
def sampleEnv : DeserializerEnv :=
  ⟨BundleCore.validator ⟨10, 0, 0, true, EID.none⟩ (Clock.showing 0), BLOB.exact, ⟨0, 0⟩⟩

instance : sampleEnv.blob.ReadOnly := inferInstanceAs BLOB.exact.ReadOnly

theorem validateBlock_sample : BundleCore.validateBlock ⟨10, 0, 0, true, EID.none⟩ 20 =
    .error (.rejected "block size is too big") := by
  decide +kernel

/-- A bundle whose only block has the given type and twenty bytes of payload: a block of an unknown
type that is marked as the last one, and twelve bytes more. -/
def sampleStream (type : UInt8) : InStream :=
  .ofBytes ((DefaultSerializer.create.writeBundle (Bundle.sample [])).1 ++
    [type, Block.lastBlock.toUInt8, 20] ++
      ([0xb0, Block.lastBlock.toUInt8, 5, 1, 2, 3, 4, 5] ++ List.replicate 12 0))

/-- The first turn behind a primary block that can be read. -/
def turnBehind : Except Exn (PrimaryBlock × DefaultDeserializer) × InStream → Turn
  | (.ok (p, d), s) => firstTurn d p s
  | (.error _, s) => ((create, Bundle.create 0 0), s)

/-- The turn that reads the only block. -/
def sampleTurn (type : UInt8) : Turn :=
  turnBehind ((readPrimary sampleEnv create (Bundle.create 0 0).toPrimaryBlock).run
    (sampleStream type))

theorem firstTurn_eq_sampleTurn {type : UInt8} {p : PrimaryBlock} {d : DefaultDeserializer}
    {s : InStream} (h : (readPrimary sampleEnv create (Bundle.create 0 0).toPrimaryBlock).run
      (sampleStream type) = (.ok (p, d), s)) : firstTurn d p s = sampleTurn type := by
  rw [sampleTurn, h, turnBehind]

/-- **The rejection of an age block is swallowed**: the bundle is returned with the block, and with
one from the middle of it. -/
theorem not_neverSwallows_sample :
    ¬ NeverSwallows sampleEnv create (Bundle.create 0 0) (sampleStream 10) ∧
      ((readBundle sampleEnv create (Bundle.create 0 0)).run (sampleStream 10)).1.toOption.map
        (fun p => p.1.blocks.map Block.blocktype) = some [10, 0xb0] := by
  have hblocks : ((readBundle sampleEnv create (Bundle.create 0 0)).run
      (sampleStream 10)).1.toOption.map (fun p => p.1.blocks.map Block.blocktype) =
        some [10, 0xb0] := by
    decide +kernel
  refine ⟨fun h => ?_, hblocks⟩
  rcases hprimary : (readPrimary sampleEnv create (Bundle.create 0 0).toPrimaryBlock).run
    (sampleStream 10) with ⟨e | ⟨p, d⟩, s⟩
  · have hok : ((readPrimary sampleEnv create (Bundle.create 0 0).toPrimaryBlock).run
      (sampleStream 10)).1.isOk = true := by decide +kernel
    rw [hprimary] at hok
    exact Bool.false_ne_true hok
  · have hreach : Reaches sampleEnv (firstTurn d p s) (sampleTurn 10) :=
      firstTurn_eq_sampleTurn hprimary ▸ .start
    have hheader : (readHeader.run (((sampleTurn 10).1.1,
        (target (blockType (sampleTurn 10).2) (sampleTurn 10).1.2).set Block.lastBlock true),
        peeked (sampleTurn 10).2)).1 = .ok 20 := by
      decide +kernel
    have hfails : Fails sampleEnv (sampleTurn 10) (.rejected "block size is too big") :=
      ⟨by decide +kernel, by decide +kernel, .of_header hheader fun _ => validateBlock_sample⟩
    obtain ⟨t', -, -, hrun⟩ := h p d s hprimary _ hreach _ hfails
    rw [hrun] at hblocks
    exact absurd hblocks (by simp [Except.toOption])

/-- The rejection of a payload is not swallowed. -/
theorem neverSwallows_sample :
    NeverSwallows sampleEnv create (Bundle.create 0 0) (sampleStream Block.payloadType) := by
  refine (neverSwallows_iff sampleEnv create (Bundle.create 0 0) (sampleStream _)).2 ?_
  intro p d s hprimary t hreach e hfails he
  have hends : ((readNext sampleEnv).run (sampleTurn Block.payloadType)).1 =
      .error (.rejected "block size is too big") := by
    decide +kernel
  rw [firstTurn_eq_sampleTurn hprimary] at hreach
  have hfirst : t = sampleTurn Block.payloadType := by
    clear hfails he
    induction hreach with
    | start => rfl
    | next _ _ hnext ih =>
        rw [ih] at hnext
        rw [hnext] at hends
        exact absurd hends (by simp)
  rw [hfirst]
  decide +kernel

end DefaultDeserializer

end IbrDtn
