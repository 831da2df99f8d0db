import IbrDtn.Data.Eid

/-!
# Administrative records

This file models `ibrdtn/data/BundleString.cpp`, `DTNTime.cpp`, `CustodySignalBlock.cpp` and
`StatusReportBlock.cpp`: the payloads of custody signals and status reports.  The readers take
the record flags, the status and the reason code by formatted extraction, which skips white
space; the remaining fields are SDNVs.

## Main definitions

* `BundleString`, `DTNTime` : counted strings and times of day.
* `CustodySignalBlock`, `StatusReportBlock` : the two records with their codecs.

## Main results

* `BundleString.reads_read`, `DTNTime.reads_read` : reading inverts writing.
* `CustodySignalBlock.length_serialize`, `StatusReportBlock.length_serialize` : the predicted
  length is the number of bytes written.
-/

namespace IbrDtn

open Parser (reads_pure)

/-! ### Counted strings -/

namespace BundleString

/-- `BundleString::getLength`. -/
def getLength (s : Bytes) : ℕ := SDNV.getLength (UInt64.ofNat s.length) + s.length

/-- `operator<<(std::ostream&, const BundleString&)`. -/
def write (s : Bytes) : Bytes := SDNV.write (UInt64.ofNat s.length) ++ s

/-- `operator>>(std::istream&, BundleString&)`: the length is taken as a signed number, and a
string of negative length is empty. -/
def read : Parser Exn Bytes := do
  let length ← SDNV.read
  if 0 < length.toNat ∧ length.toNat < 2 ^ 63 then Parser.readBytes length.toNat else pure []

@[simp] theorem length_write (s : Bytes) : (write s).length = getLength s := by
  rw [write, List.length_append, SDNV.length_write, getLength]

theorem reads_read {s : Bytes} (h : s.length < 2 ^ 63) : read.Reads (write s) s := by
  refine (SDNV.reads_read _).bind ?_
  rw [EID.toNat_ofNat_of_lt (by omega)]
  split_ifs with hlen
  · exact Parser.reads_readBytes s
  · have hnil : s = [] := List.length_eq_zero_iff.1 (by omega)
    subst hnil
    exact reads_pure []

end BundleString

/-! ### Times of day -/

/-- `class DTNTime`. -/
structure DTNTime where
  seconds : UInt64
  nanoseconds : UInt64
deriving DecidableEq, Repr

namespace DTNTime

/-- `DTNTime::getLength`. -/
def getLength (t : DTNTime) : ℕ := SDNV.getLength t.seconds + SDNV.getLength t.nanoseconds

/-- `operator<<(std::ostream&, const DTNTime&)`. -/
def write (t : DTNTime) : Bytes := SDNV.write t.seconds ++ SDNV.write t.nanoseconds

/-- `operator>>(std::istream&, DTNTime&)`. -/
def read : Parser Exn DTNTime := do
  let seconds ← SDNV.read
  let nanoseconds ← SDNV.read
  pure ⟨seconds, nanoseconds⟩

@[simp] theorem length_write (t : DTNTime) : (write t).length = t.getLength := by
  rw [write, List.length_append, SDNV.length_write, SDNV.length_write, getLength]

theorem reads_read (t : DTNTime) : read.Reads (write t) t :=
  (SDNV.reads_read _).bind (SDNV.reads_read _).bind_pure

end DTNTime

/-- What is written of an optional field. -/
def optional (present : Bool) (bs : Bytes) : Bytes := if present then bs else []

/-- Reading an optional field, which keeps its value `old` when it is absent. -/
def readOptional {α : Type} (present : Bool) (p : Parser Exn α) (old : α) : Parser Exn α :=
  if present then p else pure old

theorem reads_readOptional {α : Type} {p : Parser Exn α} {bs : Bytes} {a old : α} {present : Bool}
    (hp : present = true → p.Reads bs a) (h : present = false → old = a) :
    (readOptional present p old).Reads (optional present bs) a := by
  cases present with
  | true => exact hp rfl
  | false =>
      rw [← h rfl]
      exact reads_pure old

/-! ### Custody signals -/

/-- `class CustodySignalBlock`: the fields of the record. The reason code is the number that the
status byte holds above its lowest bit. -/
structure CustodySignalBlock where
  admfield : UInt8
  custodyAccepted : Bool
  reason : UInt8
  fragmentOffset : UInt64
  fragmentLength : UInt64
  timeOfSignal : DTNTime
  bundleTimestamp : UInt64
  bundleSequence : UInt64
  source : EID
deriving DecidableEq, Repr

namespace CustodySignalBlock

/-- `CustodySignalBlock::NO_ADDITIONAL_INFORMATION`. -/
def noAdditionalInformation : UInt8 := 0x00

/-- `CustodySignalBlock::CustodySignalBlock()` at the time `now`. -/
def create (now : DTNTime) : CustodySignalBlock :=
  ⟨32, false, noAdditionalInformation, 0, 0, now, 0, 0, EID.none⟩

/-- The record names a fragment: `_admfield & 0x01`. -/
def isFragment (admfield : UInt8) : Bool := admfield &&& 0x01 != 0

/-- The status byte: the reason shifted by one, and the acceptance in the lowest bit. -/
def status (b : CustodySignalBlock) : UInt8 :=
  let status := b.reason <<< 1
  if b.custodyAccepted then status ||| 0x01 else status

/-- `CustodySignalBlock::getLength`. -/
def getLength (b : CustodySignalBlock) : ℕ :=
  1 + 1 +
    (if isFragment b.admfield then
      SDNV.getLength b.fragmentOffset + SDNV.getLength b.fragmentLength else 0) +
    b.timeOfSignal.getLength + SDNV.getLength b.bundleTimestamp +
    SDNV.getLength b.bundleSequence + BundleString.getLength b.source.getString

/-- `CustodySignalBlock::serialize`. -/
def serialize (b : CustodySignalBlock) : Bytes :=
  b.admfield :: b.status ::
    (optional (isFragment b.admfield)
        (SDNV.write b.fragmentOffset ++ SDNV.write b.fragmentLength) ++
      (b.timeOfSignal.write ++ (SDNV.write b.bundleTimestamp ++
        (SDNV.write b.bundleSequence ++ BundleString.write b.source.getString))))

/-- `status >> 1` for a signed character. -/
def shiftedReason (status : UInt8) : UInt8 := (status >>> 1) ||| (status &&& 0x80)

/-- `CustodySignalBlock::deserialize`, into the record `b`. -/
def deserialize (b : CustodySignalBlock) : Parser Exn CustodySignalBlock := do
  let admfield ← Parser.extractByte (some b.admfield)
  let status ← Parser.extractByte none
  let (fragmentOffset, fragmentLength) ← readOptional (isFragment admfield)
    (do
      let offset ← SDNV.read
      let length ← SDNV.read
      pure (offset, length))
    (b.fragmentOffset, b.fragmentLength)
  let timeOfSignal ← DTNTime.read
  let bundleTimestamp ← SDNV.read
  let bundleSequence ← SDNV.read
  let source ← BundleString.read
  pure
    { admfield, custodyAccepted := status &&& 0x01 != 0, reason := shiftedReason status,
      fragmentOffset, fragmentLength, timeOfSignal, bundleTimestamp, bundleSequence,
      source := EID.ofString source }

theorem length_serialize (b : CustodySignalBlock) : b.serialize.length = b.getLength := by
  simp only [serialize, getLength, optional, List.length_cons, List.length_append,
    DTNTime.length_write, SDNV.length_write, BundleString.length_write]
  split_ifs <;> simp only [List.length_append, List.length_nil, SDNV.length_write] <;> omega

end CustodySignalBlock

/-! ### Status reports -/

/-- `class StatusReportBlock`: the fields of the record. -/
structure StatusReportBlock where
  admfield : UInt8
  status : UInt8
  reasoncode : UInt8
  fragmentOffset : UInt64
  fragmentLength : UInt64
  timeOfReceipt : DTNTime
  timeOfCustodyAccept : DTNTime
  timeOfForwarding : DTNTime
  timeOfDelivery : DTNTime
  timeOfDeletion : DTNTime
  bundleTimestamp : UInt64
  bundleSequence : UInt64
  source : EID
deriving DecidableEq, Repr

namespace StatusReportBlock

/-- `StatusReportBlock::StatusReportBlock()` at the time `now`. -/
def create (now : DTNTime) : StatusReportBlock :=
  ⟨16, 0, 0, 0, 0, now, now, now, now, now, 0, 0, EID.none⟩

/-- The status bits of `StatusReportBlock::TYPE`, in the order in which the times are written. -/
def receiptOfBundle : UInt8 := 0x01
def custodyAcceptanceOfBundle : UInt8 := 0x02
def forwardingOfBundle : UInt8 := 0x04
def deliveryOfBundle : UInt8 := 0x08
def deletionOfBundle : UInt8 := 0x10

/-- The record names a fragment: `_admfield & 0x01`. -/
def isFragment (admfield : UInt8) : Bool := admfield &&& 0x01 != 0

/-- The status byte holds the given bit. -/
def has (status bit : UInt8) : Bool := status &&& bit != 0

/-- `StatusReportBlock::getLength`. -/
def getLength (b : StatusReportBlock) : ℕ :=
  1 + 1 + 1 +
    (if isFragment b.admfield then
      SDNV.getLength b.fragmentOffset + SDNV.getLength b.fragmentLength else 0) +
    (if has b.status receiptOfBundle then b.timeOfReceipt.getLength else 0) +
    (if has b.status custodyAcceptanceOfBundle then b.timeOfCustodyAccept.getLength else 0) +
    (if has b.status forwardingOfBundle then b.timeOfForwarding.getLength else 0) +
    (if has b.status deliveryOfBundle then b.timeOfDelivery.getLength else 0) +
    (if has b.status deletionOfBundle then b.timeOfDeletion.getLength else 0) +
    SDNV.getLength b.bundleTimestamp + SDNV.getLength b.bundleSequence +
    BundleString.getLength b.source.getString

/-- `StatusReportBlock::serialize`. -/
def serialize (b : StatusReportBlock) : Bytes :=
  b.admfield :: b.status :: b.reasoncode ::
    (optional (isFragment b.admfield)
        (SDNV.write b.fragmentOffset ++ SDNV.write b.fragmentLength) ++
      (optional (has b.status receiptOfBundle) b.timeOfReceipt.write ++
      (optional (has b.status custodyAcceptanceOfBundle) b.timeOfCustodyAccept.write ++
      (optional (has b.status forwardingOfBundle) b.timeOfForwarding.write ++
      (optional (has b.status deliveryOfBundle) b.timeOfDelivery.write ++
      (optional (has b.status deletionOfBundle) b.timeOfDeletion.write ++
      (SDNV.write b.bundleTimestamp ++ (SDNV.write b.bundleSequence ++
        BundleString.write b.source.getString))))))))

/-- `StatusReportBlock::deserialize`, into the record `b`. -/
def deserialize (b : StatusReportBlock) : Parser Exn StatusReportBlock := do
  let admfield ← Parser.extractByte (some b.admfield)
  let status ← Parser.extractByte (some b.status)
  let reasoncode ← Parser.extractByte (some b.reasoncode)
  let (fragmentOffset, fragmentLength) ← readOptional (isFragment admfield)
    (do
      let offset ← SDNV.read
      let length ← SDNV.read
      pure (offset, length))
    (b.fragmentOffset, b.fragmentLength)
  let timeOfReceipt ← readOptional (has status receiptOfBundle) DTNTime.read b.timeOfReceipt
  let timeOfCustodyAccept ← readOptional (has status custodyAcceptanceOfBundle) DTNTime.read
    b.timeOfCustodyAccept
  let timeOfForwarding ← readOptional (has status forwardingOfBundle) DTNTime.read
    b.timeOfForwarding
  let timeOfDelivery ← readOptional (has status deliveryOfBundle) DTNTime.read b.timeOfDelivery
  let timeOfDeletion ← readOptional (has status deletionOfBundle) DTNTime.read b.timeOfDeletion
  let bundleTimestamp ← SDNV.read
  let bundleSequence ← SDNV.read
  let source ← BundleString.read
  pure
    { admfield, status, reasoncode, fragmentOffset, fragmentLength, timeOfReceipt,
      timeOfCustodyAccept, timeOfForwarding, timeOfDelivery, timeOfDeletion, bundleTimestamp,
      bundleSequence, source := EID.ofString source }

theorem length_optional (present : Bool) (bs : Bytes) :
    (optional present bs).length = if present then bs.length else 0 := by
  cases present <;> rfl

theorem length_serialize (b : StatusReportBlock) : b.serialize.length = b.getLength := by
  simp only [serialize, getLength, List.length_cons, List.length_append, length_optional,
    DTNTime.length_write, SDNV.length_write, BundleString.length_write]
  omega

end StatusReportBlock

end IbrDtn
