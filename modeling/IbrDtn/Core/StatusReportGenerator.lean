import IbrDtn.Data.BlockReplacement
import IbrDtn.Data.BundleList
import IbrDtn.Data.ReportTransport

/-!
# The generator of status reports

This file models `core/StatusReportGenerator.cpp`: for the events about a bundle whose primary block
asks for it, a bundle with a status report is generated and sent to the report-to endpoint.  The
generator sees the meta data of the bundle only, which has the length of the application data and
not the number of bytes in the payload.

## Main definitions

* `StatusReportGenerator.createStatusReport`, `StatusReportGenerator.raiseEvent` : the operations.
* `StatusReportGenerator.Occurrence` : an event about a bundle.
* `StatusReportGenerator.Faithful` : the reports that an event causes, as the report-to endpoint
  reads them.
* `StatusReportGenerator.Copy` : a report in storages and at other nodes.

## Main results

* `StatusReportGenerator.faithful_run_iff` : when the reports of a run of events are faithful; and
  reports cause no reports.
-/

namespace IbrDtn

open PrimaryBlock (appdataIsAdmrecord)

namespace StatusReportBlock

/-- `StatusReportBlock::TYPE`. -/
inductive Kind where
  | receiptOfBundle
  | custodyAcceptanceOfBundle
  | forwardingOfBundle
  | deliveryOfBundle
  | deletionOfBundle
deriving DecidableEq, Repr

/-- The bit of the status byte. -/
def Kind.bit : Kind → UInt8
  | receiptOfBundle => StatusReportBlock.receiptOfBundle
  | custodyAcceptanceOfBundle => StatusReportBlock.custodyAcceptanceOfBundle
  | forwardingOfBundle => StatusReportBlock.forwardingOfBundle
  | deliveryOfBundle => StatusReportBlock.deliveryOfBundle
  | deletionOfBundle => StatusReportBlock.deletionOfBundle

/-- `StatusReportBlock::REASON_CODE`. -/
inductive ReasonCode where
  | noAdditionalInformation
  | lifetimeExpired
  | forwardedOverUnidirectionalLink
  | transmissionCanceled
  | depletedStorage
  | destinationEndpointIdUnintelligible
  | noKnownRouteToDestinationFromHere
  | noTimelyContactWithNextNodeOnRoute
  | blockUnintelligible
deriving DecidableEq, Repr

/-- The number of a reason code. -/
def ReasonCode.code : ReasonCode → UInt8
  | noAdditionalInformation => 0x00
  | lifetimeExpired => 0x01
  | forwardedOverUnidirectionalLink => 0x02
  | transmissionCanceled => 0x03
  | depletedStorage => 0x04
  | destinationEndpointIdUnintelligible => 0x05
  | noKnownRouteToDestinationFromHere => 0x06
  | noTimelyContactWithNextNodeOnRoute => 0x07
  | blockUnintelligible => 0x08

/-- The time of the event of the given kind. -/
def timeOf (r : StatusReportBlock) : Kind → DTNTime
  | .receiptOfBundle => r.timeOfReceipt
  | .custodyAcceptanceOfBundle => r.timeOfCustodyAccept
  | .forwardingOfBundle => r.timeOfForwarding
  | .deliveryOfBundle => r.timeOfDelivery
  | .deletionOfBundle => r.timeOfDeletion

/-- The time of an event that is announced is read. -/
theorem timeOf_into {b : StatusReportBlock} (old : StatusReportBlock) {kind : Kind}
    (h : has b.status kind.bit = true) : (b.into old).timeOf kind = b.timeOf kind := by
  cases kind <;> exact if_pos h

/-- The `set()` of the time of the event of the given kind. -/
def setTime (r : StatusReportBlock) (kind : Kind) (time : DTNTime) : StatusReportBlock :=
  match kind with
  | .receiptOfBundle => { r with timeOfReceipt := time }
  | .custodyAcceptanceOfBundle => { r with timeOfCustodyAccept := time }
  | .forwardingOfBundle => { r with timeOfForwarding := time }
  | .deliveryOfBundle => { r with timeOfDelivery := time }
  | .deletionOfBundle => { r with timeOfDeletion := time }

end StatusReportBlock

/-- The bits of `PrimaryBlock::FLAGS` that ask for status reports. -/
def PrimaryBlock.requestReportOf : StatusReportBlock.Kind → UInt64
  | .receiptOfBundle => 0x4000
  | .custodyAcceptanceOfBundle => 0x8000
  | .forwardingOfBundle => 0x10000
  | .deliveryOfBundle => 0x20000
  | .deletionOfBundle => 0x40000

/-- An age block whose stop watch shows the given times while the block is written. -/
def Block.watched (elapsedAtLength elapsedAtSerialize : UInt64) (b : Block) : Block :=
  match b.body with
  | .age age => { b with body := .age { age with elapsedAtLength, elapsedAtSerialize } }
  | _ => b

/-- The bundle while it is written. -/
def Bundle.watched (elapsedAtLength elapsedAtSerialize : UInt64) (b : Bundle) : Bundle :=
  { b with blocks := b.blocks.map (Block.watched elapsedAtLength elapsedAtSerialize) }

namespace StatusReportGenerator

open StatusReportBlock (Kind ReasonCode)

/-- `EventBundleAction`. -/
inductive EventBundleAction where
  | deleted
  | custodyAccepted
  | forwarded
  | delivered
  | received
  | stored
deriving DecidableEq, Repr

/-- `class BundleEvent`. -/
structure BundleEvent where
  bundle : MetaBundle
  action : EventBundleAction
  reason : ReasonCode
deriving DecidableEq, Repr

/-- The node while it handles an event: `BundleCore::local`, the label of the next bundle, and what
the clock says when a record is constructed and when its time is set. -/
structure Node where
  localEID : EID
  timestamp : UInt64
  sequencenumber : UInt64
  constructed : DTNTime
  time : DTNTime
deriving DecidableEq, Repr

/-- The record that `createStatusReport` puts together. -/
def report (node : Node) (b : MetaBundle) (type : Kind) (reason : ReasonCode) :
    StatusReportBlock :=
  let report := StatusReportBlock.create node.constructed
  let report := { report with
    status := report.status ||| type.bit, reasoncode := report.reasoncode ||| reason.code }
  let report := report.setTime type node.time
  let report :=
    if b.get PrimaryBlock.fragment then
      { report with
        fragmentOffset := b.offset, fragmentLength := b.appdatalength,
        admfield := report.admfield ||| 1 }
    else report
  { report with
    bundleTimestamp := b.timestamp, bundleSequence := b.sequencenumber, source := b.source }

/-- `StatusReportGenerator::createStatusReport`: the bundle of the `BundleGeneratedEvent`. -/
def createStatusReport (node : Node) (b : MetaBundle) (type : Kind) (reason : ReasonCode) :
    Bundle :=
  let bundle := Bundle.create node.timestamp node.sequencenumber
  let bundle := bundle.pushBack
    { Block.newStatusReport node.constructed with
      body := .statusReport (report node b type reason) }
  let primary := bundle.toPrimaryBlock.set appdataIsAdmrecord true
  let primary := { primary with source := node.localEID }
  let primary := primary.set PrimaryBlock.destinationIsSingleton true
  { bundle with toPrimaryBlock := { primary with destination := b.reportto } }

/-- `StatusReportGenerator::raiseEvent`: the bundles that are generated. -/
def raiseEvent (node : Node) (event : BundleEvent) : List Bundle :=
  let b := event.bundle
  -- No reports about status reports and custody signals.
  if b.get appdataIsAdmrecord then []
  else
    let generate (type : Kind) : List Bundle :=
      if b.get (PrimaryBlock.requestReportOf type) then
        [createStatusReport node b type event.reason]
      else []
    match event.action with
    | .received => generate .receiptOfBundle
    | .deleted => generate .deletionOfBundle
    | .forwarded => generate .forwardingOfBundle
    | .delivered => generate .deliveryOfBundle
    | .custodyAccepted => generate .custodyAcceptanceOfBundle
    | .stored => []

/-! ### What a report has to say -/

/-- The kind of the status reports about an action. -/
def EventBundleAction.kind : EventBundleAction → Option Kind
  | .received => some .receiptOfBundle
  | .deleted => some .deletionOfBundle
  | .forwarded => some .forwardingOfBundle
  | .delivered => some .deliveryOfBundle
  | .custodyAccepted => some .custodyAcceptanceOfBundle
  | .stored => none

/-- The event that the node handles, about a bundle whose meta data is taken at the given clock. -/
structure Occurrence where
  node : Node
  clock : Clock
  bundle : Bundle
  action : EventBundleAction
  reason : ReasonCode

/-- What a node makes of a report, when it reads what another one has written. -/
def Delivers (report : Bundle) (P : StatusReportBlock → Prop) : Prop :=
  ∀ (elapsedAtLength elapsedAtSerialize : UInt64) (s : DefaultSerializer) (env : DeserializerEnv)
    (d : DefaultDeserializer) (obj : Bundle), env.Accepts → env.blob.CopiesExactly →
    ∃ n d' r, (DefaultDeserializer.readBundle env d obj).Reads
        (s.writeBundle (report.watched elapsedAtLength elapsedAtSerialize)).1 (n, d') ∧
      n.getBlock Block.payloadType Body.statusReport? = some r ∧ P r

namespace Occurrence

/-- The `BundleEvent`. -/
def event (o : Occurrence) : BundleEvent := ⟨.ofBundle o.clock o.bundle, o.action, o.reason⟩

/-- The reports that are generated. -/
def reports (o : Occurrence) : List Bundle := raiseEvent o.node o.event

/-- The event is of a kind that the bundle asks for, which is no administrative record. -/
def Asks (o : Occurrence) (kind : Kind) : Prop :=
  o.action.kind = some kind ∧ o.bundle.get (PrimaryBlock.requestReportOf kind) = true ∧
    o.bundle.get appdataIsAdmrecord = false

/-- The number of bytes in the payload of the bundle. -/
def payloadLength (o : Occurrence) : ℕ := (o.bundle.getPayload.getD []).length

/-- The record names the bundle and the event. -/
structure Names (o : Occurrence) (kind : Kind) (r : StatusReportBlock) : Prop where
  source : r.source = o.bundle.source
  timestamp : r.bundleTimestamp = o.bundle.timestamp
  sequencenumber : r.bundleSequence = o.bundle.sequencenumber
  isFragment : StatusReportBlock.isFragment r.admfield = o.bundle.get PrimaryBlock.fragment
  fragmentOffset : o.bundle.get PrimaryBlock.fragment = true →
    r.fragmentOffset = o.bundle.fragmentoffset
  fragmentLength : o.bundle.get PrimaryBlock.fragment = true →
    r.fragmentLength.toNat = o.payloadLength
  status : r.status = kind.bit
  time : r.timeOf kind = o.node.time
  reason : r.reasoncode = o.reason.code

/-- The event causes one report to the report-to endpoint if the bundle asks for it, and none
otherwise; and whoever reads the report finds a record that names the bundle and the event. -/
structure Faithful (o : Occurrence) : Prop where
  asked : ∀ kind, o.Asks kind → ∃ report, o.reports = [report] ∧
    report.destination = o.bundle.reportto ∧ Delivers report (o.Names kind)
  other : (∀ kind, ¬ o.Asks kind) → o.reports = []

/-- The source is the EID that its text denotes, and a fragment has as many bytes in its payload as
the application data. -/
structure Legible (o : Occurrence) : Prop where
  source : EID.ofString o.bundle.source.getString = o.bundle.source
  fragment : o.bundle.get PrimaryBlock.fragment = true →
    o.bundle.appdatalength.toNat = o.payloadLength

/-- The EIDs of the record and of its bundle have sizes that the fields of the format hold. -/
structure Sized (o : Occurrence) : Prop where
  source : o.bundle.source.getString.length < 2 ^ 63
  localEID : Dictionary.sizeOf o.node.localEID < 2 ^ 62
  reportto : Dictionary.sizeOf o.bundle.reportto < 2 ^ 62

/-! ### The generated bundle -/

theorem reports_of_asks {o : Occurrence} {kind : Kind} (h : o.Asks kind) :
    o.reports = [createStatusReport o.node (.ofBundle o.clock o.bundle) kind o.reason] := by
  obtain ⟨hkind, hflag, hadm⟩ := h
  have hflag : (MetaBundle.ofBundle o.clock o.bundle).get (PrimaryBlock.requestReportOf kind) =
      true := hflag
  have hadm : (MetaBundle.ofBundle o.clock o.bundle).get appdataIsAdmrecord =
      false := hadm
  rw [reports, raiseEvent, event]
  dsimp only
  rw [hadm, if_neg Bool.false_ne_true]
  cases haction : o.action <;> rw [haction] at hkind <;> cases hkind <;>
    simp only [hflag, if_true]

theorem reports_of_not_asks {o : Occurrence} (h : ∀ kind, ¬ o.Asks kind) : o.reports = [] := by
  rw [reports, raiseEvent, event]
  dsimp only
  by_cases hadm : (MetaBundle.ofBundle o.clock o.bundle).get appdataIsAdmrecord = true
  · rw [if_pos hadm]
  rw [if_neg hadm]
  have hnone (kind : Kind) (hkind : o.action.kind = some kind) :
      (MetaBundle.ofBundle o.clock o.bundle).get (PrimaryBlock.requestReportOf kind) = false :=
    Bool.eq_false_iff.2 fun hflag => h kind ⟨hkind, hflag, Bool.eq_false_iff.2 hadm⟩
  cases haction : o.action with
  | stored => rfl
  | _ =>
      dsimp only
      rw [hnone _ (congrArg EventBundleAction.kind haction), if_neg Bool.false_ne_true]

end Occurrence

section Report

variable (node : Node) (b : MetaBundle) (kind : Kind) (reason : ReasonCode)

theorem status_report : (report node b kind reason).status = kind.bit := by
  have h : (report node b kind reason).status = 0 ||| kind.bit := by
    rw [report]
    cases kind <;> split_ifs <;> rfl
  rw [h, UInt8.zero_or]

theorem reasoncode_report : (report node b kind reason).reasoncode = reason.code := by
  have h : (report node b kind reason).reasoncode = 0 ||| reason.code := by
    rw [report]
    cases kind <;> split_ifs <;> rfl
  rw [h, UInt8.zero_or]

theorem timeOf_report : (report node b kind reason).timeOf kind = node.time := by
  rw [report]
  cases kind <;> split_ifs <;> rfl

theorem admfield_report : (report node b kind reason).admfield =
    if b.get PrimaryBlock.fragment then 16 ||| 1 else 16 := by
  rw [report]
  cases kind <;> split_ifs <;> rfl

theorem isFragment_report :
    StatusReportBlock.isFragment (report node b kind reason).admfield =
      b.get PrimaryBlock.fragment := by
  rw [admfield_report]
  cases b.get PrimaryBlock.fragment <;> decide

theorem fragment_report (h : b.get PrimaryBlock.fragment = true) :
    (report node b kind reason).fragmentOffset = b.offset ∧
      (report node b kind reason).fragmentLength = b.appdatalength := by
  rw [report]
  simp only [h, if_true, and_self]

theorem procflags_createStatusReport :
    (createStatusReport node b kind reason).get appdataIsAdmrecord = true := by
  have h : (createStatusReport node b kind reason).procflags = FlagWord.assign
      (FlagWord.assign 0 appdataIsAdmrecord true)
        PrimaryBlock.destinationIsSingleton true := rfl
  rw [PrimaryBlock.get, h]
  decide

/-- The age block in front of a report that has no timestamp. -/
def ageBlocks (elapsedAtLength elapsedAtSerialize : UInt64) : List Block :=
  if node.timestamp = 0 then
    [⟨10, Block.replicateInEveryFragment, [], .age ⟨0, elapsedAtLength, elapsedAtSerialize⟩⟩]
  else []

/-- The block of the report. -/
def reportBlock : Block :=
  ⟨Block.payloadType, Block.lastBlock, [], .statusReport (report node b kind reason)⟩

theorem blocks_createStatusReport (elapsedAtLength elapsedAtSerialize : UInt64) :
    ((createStatusReport node b kind reason).watched elapsedAtLength elapsedAtSerialize).blocks =
      ageBlocks node elapsedAtLength elapsedAtSerialize ++ [reportBlock node b kind reason] := by
  have hage : (Block.newAge.set Block.lastBlock true).set Block.lastBlock false = Block.newAge := by
    decide
  have hmark : FlagWord.assign 0 Block.lastBlock true = Block.lastBlock := by decide
  have hblocks : (createStatusReport node b kind reason).blocks =
      (if node.timestamp = 0 then
        [(Block.newAge.set Block.lastBlock true).set Block.lastBlock false] else []) ++
      [⟨Block.payloadType, FlagWord.assign 0 Block.lastBlock true, [],
        .statusReport (report node b kind reason)⟩] := by
    rw [createStatusReport, Bundle.create]
    split_ifs <;> rfl
  rw [Bundle.watched]
  dsimp only
  rw [hblocks, hage, hmark, ageBlocks]
  split_ifs <;> rfl

/-- **A generated bundle is a report** in the sense of its readers. -/
theorem reports_createStatusReport (elapsedAtLength elapsedAtSerialize : UInt64) :
    ((createStatusReport node b kind reason).watched elapsedAtLength elapsedAtSerialize).Reports
      (report node b kind reason) (ageBlocks node elapsedAtLength elapsedAtSerialize)
      (reportBlock node b kind reason) where
  flagged := procflags_createStatusReport node b kind reason
  blocks_eq := blocks_createStatusReport node b kind reason _ _
  front_serializable := by
    rw [ageBlocks]
    split_ifs
    · intro x hx
      rw [List.mem_singleton.1 hx]
      refine ⟨.inl rfl, fun s hs => ?_, fun h => absurd rfl h, Nat.two_pow_pos 32, ?_, fun h => ?_⟩
      · cases hs
      · exact (SDNV.length_write _).trans_lt ((SDNV.getLength_le _).trans_lt (by decide))
      · cases h
    · exact fun x hx => absurd hx List.not_mem_nil
  front_eids := by
    rw [ageBlocks]
    split_ifs <;> simp
  front_type := by
    rw [ageBlocks]
    split_ifs <;> simp [Block.payloadType]
  front_unmarked := by
    rw [ageBlocks]
    split_ifs
    · intro x hx
      rw [List.mem_singleton.1 hx]
      exact show FlagWord.has Block.replicateInEveryFragment Block.lastBlock = false by decide
    · exact fun x hx => absurd hx List.not_mem_nil
  marked := show FlagWord.has Block.lastBlock Block.lastBlock = true by decide
  type_eq := rfl
  body_eq := rfl
  eids_eq := rfl

end Report

variable {o : Occurrence} {kind : Kind}

/-- What a reader finds in the record of a generated report. -/
def found (o : Occurrence) (kind : Kind) (old : StatusReportBlock) : StatusReportBlock :=
  { (report o.node (.ofBundle o.clock o.bundle) kind o.reason).into old with
    source := EID.ofString o.bundle.source.getString }

/-- **Every reader finds the record of a generated report.** -/
theorem exists_found (h : o.Sized) (kind : Kind) (elapsedAtLength elapsedAtSerialize : UInt64)
    (s : DefaultSerializer) {env : DeserializerEnv} (haccepts : env.Accepts)
    (hblob : env.blob.CopiesExactly) (d : DefaultDeserializer) (obj : Bundle) :
    ∃ n d', (DefaultDeserializer.readBundle env d obj).Reads
        (s.writeBundle ((createStatusReport o.node (.ofBundle o.clock o.bundle) kind
          o.reason).watched elapsedAtLength elapsedAtSerialize)).1 (n, d') ∧
      n.getBlock Block.payloadType Body.statusReport? =
        some (found o kind (.create env.now)) := by
  have hadmfield := admfield_report o.node (.ofBundle o.clock o.bundle) kind o.reason
  have hstatus := status_report o.node (.ofBundle o.clock o.bundle) kind o.reason
  have hreasoncode := reasoncode_report o.node (.ofBundle o.clock o.bundle) kind o.reason
  have hreports := reports_createStatusReport o.node (.ofBundle o.clock o.bundle) kind o.reason
    elapsedAtLength elapsedAtSerialize
  have hsize : ((((createStatusReport o.node (.ofBundle o.clock o.bundle) kind o.reason).watched
      elapsedAtLength elapsedAtSerialize).allEIDs).map Dictionary.sizeOf).sum < 2 ^ 64 := by
    rw [Bundle.allEIDs, blocks_createStatusReport]
    have heids : (ageBlocks o.node elapsedAtLength elapsedAtSerialize ++
        [reportBlock o.node (.ofBundle o.clock o.bundle) kind o.reason]).flatMap
          (fun block => block.eids) = [] := by
      rw [ageBlocks]
      split_ifs <;> rfl
    rw [heids, List.append_nil]
    have hnone : Dictionary.sizeOf EID.none = 9 := by decide
    have hsum := Nat.add_lt_add h.reportto h.localEID
    show Dictionary.sizeOf o.bundle.reportto + (Dictionary.sizeOf o.node.localEID +
      (Dictionary.sizeOf EID.none + (Dictionary.sizeOf EID.none + 0))) < 2 ^ 64
    omega
  obtain ⟨n, d', hread, -, hfind⟩ := hreports.reads_readBundle (by
      rw [hadmfield]
      split_ifs <;> decide) (by
      rw [hadmfield]
      split_ifs <;> decide) (by
      rw [hstatus]
      cases kind <;> decide) (by
      rw [hreasoncode]
      cases o.reason <;> decide) h.source hsize s haccepts hblob d obj
  exact ⟨n, d', hread, hfind⟩

theorem names_found (h : o.Legible) (kind : Kind) (old : StatusReportBlock) :
    o.Names kind (found o kind old) := by
  have hfragment := isFragment_report o.node (.ofBundle o.clock o.bundle) kind o.reason
  have hplace (hset : o.bundle.get PrimaryBlock.fragment = true) :=
    fragment_report o.node (.ofBundle o.clock o.bundle) kind o.reason hset
  refine ⟨h.source, rfl, rfl, hfragment, fun hset => ?_, fun hset => ?_, ?_, ?_, ?_⟩
  · rw [found, StatusReportBlock.into, hfragment]
    exact (if_pos hset).trans (hplace hset).1
  · rw [found, StatusReportBlock.into, hfragment]
    exact congrArg UInt64.toNat ((if_pos hset).trans (hplace hset).2) |>.trans (h.fragment hset)
  · exact status_report o.node (.ofBundle o.clock o.bundle) kind o.reason
  · have htime := timeOf_report o.node (.ofBundle o.clock o.bundle) kind o.reason
    have hstatus := status_report o.node (.ofBundle o.clock o.bundle) kind o.reason
    have hhas : StatusReportBlock.has kind.bit kind.bit = true := by
      cases kind <;> decide
    rw [← hstatus] at hhas
    refine Eq.trans ?_ ((StatusReportBlock.timeOf_into old (hstatus ▸ hhas)).trans htime)
    cases kind <;> rfl
  · exact reasoncode_report o.node (.ofBundle o.clock o.bundle) kind o.reason

/-- **An event is reported faithfully exactly if** its bundle asks for no report, or is legible. -/
theorem faithful_iff (h : o.Sized) : o.Faithful ↔ ∀ kind, o.Asks kind → o.Legible := by
  constructor
  · intro hfaithful kind hasks
    obtain ⟨bundle, hreports, -, hdelivers⟩ := hfaithful.asked kind hasks
    rw [Occurrence.reports_of_asks hasks] at hreports
    obtain rfl := List.singleton_injective hreports
    have haccepts := DefaultDeserializer.accepts_default BLOB.exact ⟨0, 0⟩
    obtain ⟨n, d', r, hread, hfind, hnames⟩ := hdelivers 0 0 DefaultSerializer.create
      (.default BLOB.exact ⟨0, 0⟩) DefaultDeserializer.create (Bundle.create 0 0) haccepts
      BLOB.exact_copiesExactly
    obtain ⟨n', d'', hread', hfind'⟩ := exists_found h kind 0 0 DefaultSerializer.create haccepts
      BLOB.exact_copiesExactly DefaultDeserializer.create (Bundle.create 0 0)
    obtain rfl : n' = n := congrArg Prod.fst (hread'.unique hread)
    obtain rfl := Option.some.inj (hfind'.symm.trans hfind)
    refine ⟨hnames.source, fun hset => ?_⟩
    have hplace := fragment_report o.node (.ofBundle o.clock o.bundle) kind o.reason hset
    have hfragment := isFragment_report o.node (.ofBundle o.clock o.bundle) kind o.reason
    have hlength := hnames.fragmentLength hset
    rw [found, StatusReportBlock.into, hfragment] at hlength
    exact (congrArg UInt64.toNat ((if_pos hset).trans hplace.2)).symm.trans hlength
  · intro hlegible
    refine ⟨fun kind hasks => ?_, Occurrence.reports_of_not_asks⟩
    refine ⟨_, Occurrence.reports_of_asks hasks, rfl, ?_⟩
    intro elapsedAtLength elapsedAtSerialize s env d obj haccepts hblob
    obtain ⟨n, d', hread, hfind⟩ := exists_found h kind elapsedAtLength elapsedAtSerialize s
      haccepts hblob d obj
    exact ⟨n, d', _, hread, hfind, names_found (hlegible kind hasks) kind _⟩

/-! ### Runs -/

/-- A report as it was generated, or as it was written and read any number of times, in storages and
at other nodes. -/
inductive Copy (report : Bundle) : Bundle → Prop where
  | generated : Copy report report
  | read {b n : Bundle} {elapsedAtLength elapsedAtSerialize : UInt64} {s : DefaultSerializer}
      {env : DeserializerEnv} {d d' : DefaultDeserializer} {obj : Bundle} {r st : Bytes}
      {is : InStream} (h : Copy report b)
      (hrun : (DefaultDeserializer.readBundle env d obj).run
        ⟨(s.writeBundle (b.watched elapsedAtLength elapsedAtSerialize)).1 ++ r, false, false, st⟩ =
          (.ok (n, d'), is)) : Copy report n

/-- Copies keep their flags. -/
theorem Copy.procflags_eq {report b : Bundle} (h : Copy report b) :
    b.procflags = report.procflags := by
  induction h with
  | generated => rfl
  | read h hrun ih =>
      exact (DefaultDeserializer.yields_procflags_readBundle _ _ _ _ _ _ _ _
        (congrArg Prod.fst hrun)).trans ih

/-- **A report causes no reports**, wherever it has been. -/
theorem reports_of_copy {o o' : Occurrence} {report : Bundle} (hreport : report ∈ o.reports)
    (hcopy : Copy report o'.bundle) : o'.reports = [] := by
  refine Occurrence.reports_of_not_asks fun kind hasks => ?_
  have hflagged : report.get appdataIsAdmrecord = true := by
    by_cases h : ∃ kind, o.Asks kind
    · obtain ⟨kind, h⟩ := h
      rw [Occurrence.reports_of_asks h] at hreport
      rw [List.mem_singleton.1 hreport]
      exact procflags_createStatusReport _ _ _ _
    · rw [Occurrence.reports_of_not_asks (not_exists.1 h)] at hreport
      exact absurd hreport List.not_mem_nil
  have hsame : o'.bundle.get appdataIsAdmrecord =
      report.get appdataIsAdmrecord :=
    congrArg (fun flags => FlagWord.has flags appdataIsAdmrecord) hcopy.procflags_eq
  exact Bool.false_ne_true (hasks.2.2.symm.trans (hsame.trans hflagged))

/-- **The reports of a run of events are faithful exactly if** the bundles that ask for them are
legible; and no event about a report causes another one. -/
theorem faithful_run_iff {os : List Occurrence} (h : ∀ o ∈ os, o.Sized) :
    ((∀ o ∈ os, o.Faithful) ↔ ∀ o ∈ os, ∀ kind, o.Asks kind → o.Legible) ∧
      ∀ o ∈ os, ∀ report ∈ o.reports, ∀ o' : Occurrence, Copy report o'.bundle → o'.reports = [] :=
  ⟨forall₂_congr fun o ho => faithful_iff (h o ho),
    fun _ _ _ hreport _ hcopy => reports_of_copy hreport hcopy⟩

/-- The node `dtn://a` receives a bundle of its own with a payload of two bytes, which asks for a
report of its reception. -/
def sample (procflags appdatalength : UInt64) : Occurrence where
  node := ⟨Bundle.sampleEID, 8, 1, ⟨0, 0⟩, ⟨0, 0⟩⟩
  clock := Clock.showing 8
  bundle := { Bundle.sample [Bundle.samplePayload Block.lastBlock []] with
    procflags, appdatalength, reportto := Bundle.sampleEID }
  action := .received
  reason := .noAdditionalInformation

/-- The reception of a bundle that is no fragment is reported. -/
theorem faithful_run_sample :
    (sample (PrimaryBlock.requestReportOf .receiptOfBundle) 0).Faithful := by
  have hsized : ∀ o ∈ [sample (PrimaryBlock.requestReportOf .receiptOfBundle) 0], o.Sized := by
    intro o ho
    rw [List.mem_singleton.1 ho]
    exact ⟨by decide, by decide, by decide⟩
  refine (faithful_run_iff hsized).1.2 (fun o ho _ _ => ?_) _ List.mem_cons_self
  rw [List.mem_singleton.1 ho]
  exact ⟨by decide, fun h => absurd h (by decide)⟩

/-- **The report about a fragment names the length of the application data**: two of four bytes are
in the payload, and the report says four. -/
theorem not_faithful_sample :
    ¬ (sample (PrimaryBlock.requestReportOf .receiptOfBundle ||| PrimaryBlock.fragment)
      4).Faithful := by
  intro h
  have hasks : (sample (PrimaryBlock.requestReportOf .receiptOfBundle ||| PrimaryBlock.fragment)
      4).Asks .receiptOfBundle := ⟨rfl, by decide, by decide⟩
  have hsized : (sample (PrimaryBlock.requestReportOf .receiptOfBundle ||| PrimaryBlock.fragment)
      4).Sized := ⟨by decide, by decide, by decide⟩
  have hlegible := (faithful_iff hsized).1 h _ hasks
  exact absurd (hlegible.fragment (by decide)) (by decide)

end StatusReportGenerator

end IbrDtn
