import IbrDtn.Data.BundleList

/-!
# Bundle storages and custody

This file models what all bundle storages share, from `daemon/src/core/BundleStorage.cpp` and
`BundleStorage.h`: the exceptions of a storage, and the two functions that answer a bundle whose
custody is to be transferred with a custody signal.

## Main definitions

* `BundleStorage.Exn` : the exceptions of a storage.
* `LocalNode` : what a node puts into the bundles it generates.
* `BundleStorage.acceptCustody`, `BundleStorage.rejectCustody` : the custody signals.
-/

namespace IbrDtn

/-- What a node puts into a bundle it generates: `BundleCore::local`, the timestamp and the sequence
number of a new primary block, and the time of a new record. -/
structure LocalNode where
  eid : EID
  timestamp : UInt64
  sequencenumber : UInt64
  now : DTNTime
deriving DecidableEq, Repr

/-- `CustodySignalBlock::setMatch(const MetaBundle&)`. -/
def CustodySignalBlock.setMatch (b : CustodySignalBlock) (other : MetaBundle) :
    CustodySignalBlock :=
  let b :=
    if other.get PrimaryBlock.fragment then
      { b with
        fragmentOffset := other.offset
        fragmentLength := other.appdatalength
        admfield := if isFragment b.admfield then b.admfield else b.admfield + 1 }
    else b
  { b with
    bundleTimestamp := other.timestamp
    bundleSequence := other.sequencenumber
    source := other.source }

namespace BundleStorage

/-- The exceptions of `BundleStorage.h`. -/
inductive Exn where
  | noBundleFound
  | bundleLoad
  | storageSizeExeeded
deriving DecidableEq, Repr

/-- The two checks at the start of `acceptCustody` and `rejectCustody`. -/
def checkCustody (m : MetaBundle) : Except IbrDtn.Exn Unit :=
  if !m.get PrimaryBlock.custodyRequested then
    .error (.exception "custody transfer is not requested for this bundle.")
  else if m.custodian = EID.none then .error (.exception "no previous custodian is set.")
  else .ok ()

/-- The bundle with a custody signal as its last block. -/
def pushSignal (b : Bundle) (signal : CustodySignalBlock) : Bundle :=
  b.pushBack ⟨Block.payloadType, 0, [], .custodySignal signal⟩

/-- `BundleStorage::acceptCustody`: the new custodian, and the bundle of the `BundleGeneratedEvent`
that it raises. -/
def acceptCustody (node : LocalNode) (m : MetaBundle) : Except IbrDtn.Exn (EID × Bundle) := do
  checkCustody m
  let primary := Bundle.create node.timestamp node.sequencenumber
  let flags := FlagWord.assign primary.procflags PrimaryBlock.priorityBit1 false
  let flags := FlagWord.assign flags PrimaryBlock.priorityBit2 true
  let signal := (CustodySignalBlock.create node.now).setMatch m
  let bundle := pushSignal primary { signal with custodyAccepted := true }
  pure (node.eid,
    { bundle with
      procflags := FlagWord.assign flags PrimaryBlock.destinationIsSingleton true
      destination := m.custodian
      source := node.eid })

/-- `BundleStorage::rejectCustody`: the bundle of the `BundleGeneratedEvent` that it raises. -/
def rejectCustody (node : LocalNode) (m : MetaBundle) (reason : UInt8) :
    Except IbrDtn.Exn Bundle := do
  checkCustody m
  let primary := Bundle.create node.timestamp node.sequencenumber
  let signal := (CustodySignalBlock.create node.now).setMatch m
  let bundle := pushSignal primary { signal with reason := reason }
  pure { bundle with destination := m.custodian, source := node.eid }

/-- **No custody signal is flagged as an administrative record.** -/
theorem noFlag_acceptCustody {node : LocalNode} {m : MetaBundle} {eid : EID} {b : Bundle}
    (h : acceptCustody node m = .ok (eid, b)) :
    b.get PrimaryBlock.appdataIsAdmrecord = false := by
  have hflags : FlagWord.has (FlagWord.assign (FlagWord.assign (FlagWord.assign 0
      PrimaryBlock.priorityBit1 false) PrimaryBlock.priorityBit2 true)
      PrimaryBlock.destinationIsSingleton true) PrimaryBlock.appdataIsAdmrecord = false := by decide
  rw [acceptCustody] at h
  cases hcheck : checkCustody m with
  | error e => simp [hcheck, bind, Except.bind] at h
  | ok u =>
      simp only [hcheck, bind, Except.bind, pure, Except.pure, Except.ok.injEq, Prod.mk.injEq] at h
      rw [← h.2]
      exact hflags

theorem noFlag_rejectCustody {node : LocalNode} {m : MetaBundle} {reason : UInt8} {b : Bundle}
    (h : rejectCustody node m reason = .ok b) :
    b.get PrimaryBlock.appdataIsAdmrecord = false := by
  have hflags : FlagWord.has 0 PrimaryBlock.appdataIsAdmrecord = false := by decide
  rw [rejectCustody] at h
  cases hcheck : checkCustody m with
  | error e => simp [hcheck, bind, Except.bind] at h
  | ok u =>
      simp only [hcheck, bind, Except.bind, pure, Except.pure, Except.ok.injEq] at h
      rw [← h]
      exact hflags

end BundleStorage

end IbrDtn
