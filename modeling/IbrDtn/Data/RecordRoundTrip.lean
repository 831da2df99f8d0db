import IbrDtn.Data.AdminRecord

/-!
# Administrative records that are read back

The readers of administrative records take the first bytes by formatted extraction, which skips
white space.  This file says exactly which records are read back: those whose first bytes are no
white space, and whose source is the EID that its text denotes.

## Main definitions

* `StatusReportBlock.Restored`, `CustodySignalBlock.Restored` : a record is read back.
* `StatusReportBlock.Legible`, `CustodySignalBlock.Legible` : the records that can be.

## Main results

* `AdminRecord.restored_iff` : both are the same.
-/

namespace IbrDtn

open Parser (Ensures Yields ensures_pure isSpace reads_extractByte yields_extractByte)

/-- The text of an EID has a colon, which is no white space. -/
theorem EID.exists_not_isSpace (e : EID) : ∃ c ∈ e.getString, isSpace c = false :=
  ⟨0x3a, List.mem_append_right _ List.mem_cons_self, by decide⟩

namespace StatusReportBlock

/-- What is read into the record `old`: the fields that the flags do not announce stay. -/
def into (b old : StatusReportBlock) : StatusReportBlock :=
  { b with
    fragmentOffset := if isFragment b.admfield then b.fragmentOffset else old.fragmentOffset
    fragmentLength := if isFragment b.admfield then b.fragmentLength else old.fragmentLength
    timeOfReceipt := if has b.status receiptOfBundle then b.timeOfReceipt else old.timeOfReceipt
    timeOfCustodyAccept :=
      if has b.status custodyAcceptanceOfBundle then b.timeOfCustodyAccept
      else old.timeOfCustodyAccept
    timeOfForwarding :=
      if has b.status forwardingOfBundle then b.timeOfForwarding else old.timeOfForwarding
    timeOfDelivery := if has b.status deliveryOfBundle then b.timeOfDelivery else old.timeOfDelivery
    timeOfDeletion :=
      if has b.status deletionOfBundle then b.timeOfDeletion else old.timeOfDeletion }

/-- Every field that is written is restored, and the bytes that were predicted are consumed. -/
def Restored (b : StatusReportBlock) : Prop :=
  b.serialize.length = b.getLength ∧ ∀ old, (deserialize old).Reads b.serialize (b.into old)

/-- The first bytes are no white space, and the source is the EID that its text denotes. -/
structure Legible (b : StatusReportBlock) : Prop where
  admfield : isSpace b.admfield = false
  status : isSpace b.status = false
  reasoncode : isSpace b.reasoncode = false
  source : EID.ofString b.source.getString = b.source

/-- **A record without white space in front is read back**, with the source that its text
denotes. -/
theorem reads_deserialize {b : StatusReportBlock} (hadmfield : isSpace b.admfield = false)
    (hstatus : isSpace b.status = false)
    (hreasoncode : isSpace b.reasoncode = false)
    (hlt : b.source.getString.length < 2 ^ 63) (old : StatusReportBlock) :
    (deserialize old).Reads b.serialize
      { b.into old with source := EID.ofString b.source.getString } := by
  have htime (status bit : UInt8) (time old : DTNTime) :
      (readOptional (has status bit) DTNTime.read old).Reads
        (optional (has status bit) time.write) (if has status bit then time else old) :=
    reads_readOptional (fun h => by rw [h]; exact DTNTime.reads_read time)
      (fun h => by rw [h]; rfl)
  refine (reads_extractByte _ hadmfield).bind_cons
    ((reads_extractByte _ hstatus).bind_cons
      ((reads_extractByte _ hreasoncode).bind_cons ?_))
  refine (reads_readOptional (a := ((b.into old).fragmentOffset, (b.into old).fragmentLength))
    (fun h => ?_) fun h => ?_).bind ?_
  · simp only [into, h, if_true]
    exact (SDNV.reads_read _).bind (SDNV.reads_read _).bind_pure
  · simp only [into, h, Bool.false_eq_true, if_false]
  refine (htime _ _ _ _).bind ((htime _ _ _ _).bind ((htime _ _ _ _).bind ((htime _ _ _ _).bind
    ((htime _ _ _ _).bind ((SDNV.reads_read _).bind ((SDNV.reads_read _).bind ?_))))))
  exact (BundleString.reads_read hlt).bind_pure

theorem exists_not_isSpace (b : StatusReportBlock) :
    ∃ c ∈ BundleString.write b.source.getString, isSpace c = false := by
  obtain ⟨c, hc, hspace⟩ := b.source.exists_not_isSpace
  exact ⟨c, List.mem_append_right _ hc, hspace⟩

/-- A record that is read from what it writes itself has no white space in its first three bytes. -/
theorem isSpace_of_run {b old : StatusReportBlock} {r st : Bytes}
    (h : ((deserialize old).run ⟨b.serialize ++ r, false, false, st⟩).1 = .ok b) :
    isSpace b.admfield = false ∧ isSpace b.status = false ∧
      isSpace b.reasoncode = false := by
  have htext : ∃ bs, b.serialize = b.admfield :: b.status :: b.reasoncode :: bs ∧
      ∃ c ∈ bs, isSpace c = false := by
    obtain ⟨c, hc, hspace⟩ := b.exists_not_isSpace
    refine ⟨_, rfl, c, ?_, hspace⟩
    iterate 8 refine List.mem_append_right _ ?_
    exact hc
  obtain ⟨bs, hbs, c, hc, hspace⟩ := htext
  have hyields {Q : StatusReportBlock → Prop} (hQ : (deserialize old).Yields b.serialize Q) : Q b :=
    hQ r st b h
  have hadmfield : isSpace b.admfield = false := by
    refine hyields (Q := fun r => isSpace r.admfield = false) ?_
    refine (yields_extractByte _ ⟨c, ?_, hspace⟩).bind fun a ha => ?_
    · rw [hbs]
      exact List.mem_cons_of_mem _ (List.mem_cons_of_mem _ (List.mem_cons_of_mem _ hc))
    iterate 11 refine Ensures.of_bind fun _ => ?_
    exact ensures_pure ha
  have hstatus : isSpace b.status = false := by
    refine hyields (Q := fun r => isSpace r.status = false) ?_
    rw [hbs]
    refine (reads_extractByte _ hadmfield).yields_bind_cons ?_
    refine (yields_extractByte _ ⟨c, ?_, hspace⟩).bind fun a ha => ?_
    · exact List.mem_cons_of_mem _ (List.mem_cons_of_mem _ hc)
    iterate 10 refine Ensures.of_bind fun _ => ?_
    exact ensures_pure ha
  refine ⟨hadmfield, hstatus, hyields (Q := fun r => isSpace r.reasoncode = false) ?_⟩
  rw [hbs]
  refine (reads_extractByte _ hadmfield).yields_bind_cons ?_
  refine (reads_extractByte _ hstatus).yields_bind_cons ?_
  refine (yields_extractByte _ ⟨c, List.mem_cons_of_mem _ hc, hspace⟩).bind fun a ha => ?_
  iterate 9 refine Ensures.of_bind fun _ => ?_
  exact ensures_pure ha

/-- What is restored has no white space in its first three bytes. -/
theorem isSpace_of_restored {b : StatusReportBlock} (h : b.Restored) :
    isSpace b.admfield = false ∧ isSpace b.status = false ∧
      isSpace b.reasoncode = false := by
  have hread := h.2 b
  have hsame : b.into b = b := by simp only [into, ite_self]
  rw [hsame] at hread
  exact isSpace_of_run (congrArg Prod.fst (hread [] []))

/-- **A record is restored exactly if** it is legible. -/
theorem restored_iff_legible {b : StatusReportBlock} (hlt : b.source.getString.length < 2 ^ 63) :
    b.Restored ↔ b.Legible := by
  constructor
  · intro h
    obtain ⟨hadmfield, hstatus, hreasoncode⟩ := isSpace_of_restored h
    refine ⟨hadmfield, hstatus, hreasoncode, ?_⟩
    have hread := reads_deserialize hadmfield hstatus hreasoncode hlt b
    exact congrArg source (hread.unique (h.2 b))
  · intro h
    refine ⟨b.length_serialize, fun old => ?_⟩
    have hread := reads_deserialize h.admfield h.status h.reasoncode hlt old
    rwa [h.source] at hread

end StatusReportBlock

namespace CustodySignalBlock

/-- What is read into the record `old`. -/
def into (b old : CustodySignalBlock) : CustodySignalBlock :=
  { b with
    fragmentOffset := if isFragment b.admfield then b.fragmentOffset else old.fragmentOffset
    fragmentLength := if isFragment b.admfield then b.fragmentLength else old.fragmentLength }

/-- Every field that is written is restored, and the bytes that were predicted are consumed. -/
def Restored (b : CustodySignalBlock) : Prop :=
  b.serialize.length = b.getLength ∧ ∀ old, (deserialize old).Reads b.serialize (b.into old)

/-- The first bytes are no white space, the reason has its place in the status byte, and the source
is the EID that its text denotes. -/
structure Legible (b : CustodySignalBlock) : Prop where
  admfield : isSpace b.admfield = false
  status : isSpace b.status = false
  reason : shiftedReason b.status = b.reason
  source : EID.ofString b.source.getString = b.source

/-- The lowest bit of the status byte is the acceptance. -/
theorem accepted_status (b : CustodySignalBlock) :
    (b.status &&& 0x01 != 0) = b.custodyAccepted := by
  have hshift (x : UInt8) : x <<< 1 &&& 0x01 = 0 := by
    have h : ∀ i, UInt8.ofFin i <<< 1 &&& 0x01 = 0 := by decide +kernel
    exact h x.toFin
  have hor (x : UInt8) : (x ||| 0x01) &&& 0x01 = 0x01 := by
    have h : ∀ i, (UInt8.ofFin i ||| 0x01) &&& 0x01 = 0x01 := by decide +kernel
    exact h x.toFin
  cases haccepted : b.custodyAccepted with
  | false => simp only [status, haccepted, hshift, Bool.false_eq_true, if_false]; rfl
  | true => simp only [status, haccepted, hor, if_true]; rfl

/-- **A record without white space in front is read back**, with the reason that its status byte
holds and the source that its text denotes. -/
theorem reads_deserialize_into {b : CustodySignalBlock}
    (hadmfield : isSpace b.admfield = false) (hstatus : isSpace b.status = false)
    (hlt : b.source.getString.length < 2 ^ 63) (old : CustodySignalBlock) :
    (deserialize old).Reads b.serialize
      { b.into old with
        reason := shiftedReason b.status, source := EID.ofString b.source.getString } := by
  refine (reads_extractByte _ hadmfield).bind_cons
    ((reads_extractByte _ hstatus).bind_cons ?_)
  refine (reads_readOptional (a := ((b.into old).fragmentOffset, (b.into old).fragmentLength))
    (fun h => ?_) fun h => ?_).bind ?_
  · simp only [into, h, if_true]
    exact (SDNV.reads_read _).bind (SDNV.reads_read _).bind_pure
  · simp only [into, h, Bool.false_eq_true, if_false]
  refine (DTNTime.reads_read _).bind ((SDNV.reads_read _).bind ((SDNV.reads_read _).bind ?_))
  rw [accepted_status]
  exact (BundleString.reads_read hlt).bind_pure

/-- A record that is read from what it writes itself has no white space in its first two bytes, and
the status byte that is read is the one that was written. -/
theorem isSpace_of_run {b old : CustodySignalBlock} {r st : Bytes}
    (h : ((deserialize old).run ⟨b.serialize ++ r, false, false, st⟩).1 = .ok b) :
    isSpace b.admfield = false ∧ isSpace b.status = false ∧
      shiftedReason b.status = b.reason := by
  have htext : ∃ bs, b.serialize = b.admfield :: b.status :: bs ∧
      ∃ c ∈ bs, isSpace c = false := by
    obtain ⟨c, hc, hspace⟩ := b.source.exists_not_isSpace
    refine ⟨_, rfl, c, ?_, hspace⟩
    iterate 5 refine List.mem_append_right _ ?_
    exact hc
  obtain ⟨bs, hbs, c, hc, hspace⟩ := htext
  have hyields {Q : CustodySignalBlock → Prop} (hQ : (deserialize old).Yields b.serialize Q) :
      Q b := hQ r st b h
  have hadmfield : isSpace b.admfield = false := by
    refine hyields (Q := fun r => isSpace r.admfield = false) ?_
    refine (yields_extractByte _ ⟨c, ?_, hspace⟩).bind fun a ha => ?_
    · rw [hbs]
      exact List.mem_cons_of_mem _ (List.mem_cons_of_mem _ hc)
    iterate 6 refine Ensures.of_bind fun _ => ?_
    exact ensures_pure ha
  refine ⟨hadmfield, ?_⟩
  -- The status byte that is read is the one that was written: it determines both of its fields.
  have hfields : ∃ status, isSpace status = false ∧
      shiftedReason status = b.reason ∧ (status &&& 0x01 != 0) = b.custodyAccepted := by
    refine hyields (Q := fun r => ∃ status, isSpace status = false ∧
      shiftedReason status = r.reason ∧ (status &&& 0x01 != 0) = r.custodyAccepted) ?_
    rw [hbs]
    refine (reads_extractByte _ hadmfield).yields_bind_cons ?_
    refine (yields_extractByte _ ⟨c, List.mem_cons_of_mem _ hc, hspace⟩).bind fun a ha => ?_
    iterate 5 refine Ensures.of_bind fun _ => ?_
    exact ensures_pure ⟨a, ha, rfl, rfl⟩
  obtain ⟨status, hspace, hreason, haccepted⟩ := hfields
  have hsame : b.status = status := by
    have hback (s : UInt8) : (if s &&& 0x01 != 0 then shiftedReason s <<< 1 ||| 0x01
        else shiftedReason s <<< 1) = s := by
      have h : ∀ i, (if UInt8.ofFin i &&& 0x01 != 0 then shiftedReason (.ofFin i) <<< 1 ||| 0x01
          else shiftedReason (.ofFin i) <<< 1) = .ofFin i := by decide +kernel
      exact h s.toFin
    rw [CustodySignalBlock.status, ← hreason, ← haccepted]
    exact hback status
  rw [hsame]
  exact ⟨hspace, hreason⟩

/-- What is restored has no white space in its first two bytes. -/
theorem isSpace_of_restored {b : CustodySignalBlock} (h : b.Restored) :
    isSpace b.admfield = false ∧ isSpace b.status = false := by
  have hread := h.2 b
  have hsame : b.into b = b := by simp only [into, ite_self]
  rw [hsame] at hread
  obtain ⟨hadmfield, hstatus, -⟩ := isSpace_of_run (congrArg Prod.fst (hread [] []))
  exact ⟨hadmfield, hstatus⟩

/-- **A record is restored exactly if** it is legible. -/
theorem restored_iff_legible {b : CustodySignalBlock} (hlt : b.source.getString.length < 2 ^ 63) :
    b.Restored ↔ b.Legible := by
  constructor
  · intro h
    obtain ⟨hadmfield, hstatus⟩ := isSpace_of_restored h
    have hread := (reads_deserialize_into hadmfield hstatus hlt b).unique (h.2 b)
    exact ⟨hadmfield, hstatus, congrArg reason hread, congrArg source hread⟩
  · intro h
    refine ⟨b.length_serialize, fun old => ?_⟩
    have hread := reads_deserialize_into h.admfield h.status hlt old
    rwa [h.source, h.reason] at hread

end CustodySignalBlock

namespace AdminRecord

/-- **Administrative records are restored exactly if** they are legible. -/
theorem restored_iff {report : StatusReportBlock} {signal : CustodySignalBlock}
    (hreport : report.source.getString.length < 2 ^ 63)
    (hsignal : signal.source.getString.length < 2 ^ 63) :
    (report.Restored ↔ report.Legible) ∧ (signal.Restored ↔ signal.Legible) :=
  ⟨StatusReportBlock.restored_iff_legible hreport, CustodySignalBlock.restored_iff_legible hsignal⟩

/-- The records that their constructors make, with `dtn:none` as source. -/
theorem restored_iff_create :
    ((StatusReportBlock.create ⟨0, 0⟩).Restored ↔ (StatusReportBlock.create ⟨0, 0⟩).Legible) ∧
      ((CustodySignalBlock.create ⟨0, 0⟩).Restored ↔
        (CustodySignalBlock.create ⟨0, 0⟩).Legible) :=
  restored_iff (by decide) (by decide)

/-- **A custody signal is not restored**: its first byte, as the constructor sets it, is a blank. A
status report of receipt and delivery is not restored either: its status byte is a tabulator. -/
theorem not_restored_create : ¬ (CustodySignalBlock.create ⟨0, 0⟩).Restored ∧
    ¬ { StatusReportBlock.create ⟨0, 0⟩ with status := 0x09 }.Restored := by
  refine ⟨fun h => ?_, fun h => ?_⟩
  · exact absurd (CustodySignalBlock.isSpace_of_restored h).1 (by decide)
  · exact absurd (StatusReportBlock.isSpace_of_restored h).2.1 (by decide)

end AdminRecord

end IbrDtn
