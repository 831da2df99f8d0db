import IbrDtn.Core.BundleStorage
import IbrDtn.Data.RecordFlag
import IbrDtn.Data.RoundTrip

/-!
# Bundles for the node itself

This file models `BundleCore::raiseEvent` of `daemon/src/core/BundleCore.cpp`: a bundle that is
addressed to the node itself is taken from the storage, searched for a custody signal and
deleted.  A custodian that receives a custody signal learns so that it may release a bundle.

The nodes that send custody signals do not flag them as administrative records, so that the
custodian reads a payload and releases nothing.

## Main definitions

* `BundleCore.Action` : what the event handler does.
* `BundleCore.raiseEvent` : the event handler.
* `BundleCore.answer` : what a custodian does that receives a bundle.

## Main results

* `BundleCore.not_releases_custodySignal` : no custody signal releases anything.
-/

namespace IbrDtn

/-- The custody signal that a body holds. -/
def Body.custodySignal? : Body → Option CustodySignalBlock
  | .custodySignal b => some b
  | _ => none

namespace BundleCore

/-- What the event handler does: `releaseCustody` and `remove` of the storage, and the
`BundleEvent` that says whether the bundle was delivered. -/
inductive Action where
  | releaseCustody (custodian : EID) (id : BundleID)
  | delivered (bundle : MetaBundle)
  | deleted (bundle : MetaBundle)
  | remove (id : BundleID)
deriving DecidableEq, Repr

/-- The identifier that a custody signal names. -/
def signalled (custody : CustodySignalBlock) : BundleID :=
  ⟨custody.source, custody.bundleTimestamp, custody.bundleSequence,
    decide (custody.fragmentLength > 0), custody.fragmentOffset⟩

/-- `BundleCore::raiseEvent` for a `QueueBundleEvent`, at the node `eid` with a storage from which
`get` takes bundles. -/
def raiseEvent (eid : EID) (get : BundleID → Option Bundle) (m : MetaBundle) : List Action :=
  if m.destination = eid then
    match get m.toBundleID with
    | none => []
    | some bundle =>
        (match bundle.getBlock Block.payloadType Body.custodySignal? with
          | some custody => [.releaseCustody bundle.source (signalled custody), .delivered m]
          | none => [.deleted m]) ++ [.remove m.toBundleID]
  else []

variable (env : DeserializerEnv) (d : DefaultDeserializer) (obj : Bundle) (c : Clock) (eid : EID)

/-- What the node `eid` does with the bundle that it reads from the stream: the bundle is stored, and
the event handler is called for it. -/
def answer (is : InStream) : List Action :=
  match ((DefaultDeserializer.readBundle env d obj).run is).1 with
  | .ok (n, _) => raiseEvent eid (fun _ => some n) (.ofBundle c n)
  | .error _ => []

/-- What the node does when the signal was generated, and its bytes were written to the stream,
followed by `rest`. -/
def answerTo (s : DefaultSerializer) (rest stale : Bytes) (signal : Except Exn Bundle) :
    List Action :=
  match signal with
  | .ok b => answer env d obj c eid ⟨(s.writeBundle b).1 ++ rest, false, false, stale⟩
  | .error _ => []

/-- A bundle without records releases nothing. -/
theorem not_mem_raiseEvent {get : BundleID → Option Bundle} {m : MetaBundle}
    (h : ∀ n, get m.toBundleID = some n → ∀ b ∈ n.blocks, b.body.isRecord = false)
    (custodian : EID) (id : BundleID) :
    .releaseCustody custodian id ∉ raiseEvent eid get m := by
  rw [raiseEvent]
  split_ifs with hlocal
  · cases hget : get m.toBundleID with
    | none => simp
    | some n =>
        cases hblock : n.getBlock Block.payloadType Body.custodySignal? with
        | none => simp [hblock]
        | some custody =>
            obtain ⟨b, hfind, hcast⟩ := Option.bind_eq_some_iff.1 hblock
            have hrecord := h n hget b (List.mem_of_find?_eq_some hfind)
            rcases hbody : b.body with _ | _ | _ | _ | _ | _ | _ | _ | _ | _ | _ | _ <;>
              simp [hbody, Body.custodySignal?, Body.isRecord] at hcast hrecord
  · simp

/-- A signal without the flag for administrative records releases nothing. -/
theorem not_mem_answerTo (s : DefaultSerializer) (rest stale : Bytes) {signal : Except Exn Bundle}
    (h : ∀ b, signal = .ok b → b.get PrimaryBlock.appdataIsAdmrecord = false)
    (custodian : EID) (id : BundleID) :
    .releaseCustody custodian id ∉ answerTo env d obj c eid s rest stale signal := by
  cases signal with
  | error e => simp [answerTo]
  | ok b =>
      have hread := DefaultDeserializer.noRecord_of_writeBundle env s (h b rfl) d obj rest stale
      rw [answerTo, answer]
      rcases hrun : ((DefaultDeserializer.readBundle env d obj).run
        ⟨(s.writeBundle b).1 ++ rest, false, false, stale⟩).1 with e | ⟨n, d'⟩
      · simp
      · refine not_mem_raiseEvent eid (fun n' hn' => ?_) custodian id
        cases hn'
        exact hread _ hrun

/-- **No custody signal releases anything**: whatever bundle custody is accepted or rejected for, and
however the custodian reads the signal. -/
theorem not_releases_custodySignal (s : DefaultSerializer) (rest stale : Bytes) (node : LocalNode)
    (m : MetaBundle) :
    (¬ ∃ custodian id, .releaseCustody custodian id ∈
        answerTo env d obj c eid s rest stale ((BundleStorage.acceptCustody node m).map Prod.snd)) ∧
      ¬ ∃ reason custodian id, .releaseCustody custodian id ∈
        answerTo env d obj c eid s rest stale (BundleStorage.rejectCustody node m reason) := by
  constructor
  · rintro ⟨custodian, id, hmem⟩
    refine not_mem_answerTo env d obj c eid s rest stale (fun b hb => ?_) custodian id hmem
    cases haccept : BundleStorage.acceptCustody node m with
    | error e => simp [haccept, Except.map] at hb
    | ok p =>
        rw [haccept] at hb
        cases hb
        exact BundleStorage.noFlag_acceptCustody haccept
  · rintro ⟨reason, custodian, id, hmem⟩
    exact not_mem_answerTo env d obj c eid s rest stale
      (fun b hb => BundleStorage.noFlag_rejectCustody hb) custodian id hmem

/-- The endpoint `dtn://b`. -/
def sampleCustodian : EID := ⟨EID.defaultScheme, ascii ['/', '/', 'b']⟩

/-- A bundle from `dtn://a` whose custody is to be transferred from `dtn://b`. -/
def sampleMeta : MetaBundle :=
  .ofBundle (Clock.showing 100)
    { Bundle.sample [Bundle.samplePayload Block.lastBlock []] with
      procflags := PrimaryBlock.custodyRequested, custodian := sampleCustodian }

/-- What `dtn://b` does when `dtn://a` accepted custody for that bundle. -/
def sampleAnswer : List Action :=
  answerTo (.default BLOB.exact ⟨0, 0⟩) .create (Bundle.create 0 0) (Clock.showing 100)
    sampleCustodian .create [] []
    ((BundleStorage.acceptCustody ⟨Bundle.sampleEID, 9, 2, ⟨9, 0⟩⟩ sampleMeta).map Prod.snd)

/-- **The custodian deletes the signal** for a bundle whose custody was accepted. -/
theorem not_releases_sampleMeta :
    sampleAnswer =
        [.deleted ⟨⟨Bundle.sampleEID, 9, 2, false, 0⟩, 3600, sampleCustodian, EID.none, EID.none, 0,
            PrimaryBlock.priorityBit2 ||| PrimaryBlock.destinationIsSingleton, 3609,
            UInt64.ofNat (2 ^ 64 - 1)⟩,
          .remove ⟨Bundle.sampleEID, 9, 2, false, 0⟩] ∧
      ¬ ∃ id, .releaseCustody Bundle.sampleEID id ∈ sampleAnswer := by
  refine (and_iff_left_of_imp fun h => ?_).2 (by decide +kernel)
  rw [h]
  simp

end BundleCore

end IbrDtn
