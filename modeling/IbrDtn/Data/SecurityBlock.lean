import IbrDtn.Data.AdminRecord
import IbrDtn.Library.FlagWord

/-!
# The payload of security blocks

This file models the payload format of `ibrdtn/security/SecurityBlock.cpp`, which the bundle
authentication, payload integrity, payload confidentiality and extension security blocks share:
two numbers, an optional correlator and two optional lists of typed values.  The lists are sets
ordered by type, so a list never holds two values of one type.

## Main definitions

* `TLV`, `TLVList` : typed values and the sets of them, with `TLVList.get?` and `TLVList.set`.
* `SecurityBlock` : the fields of a security block with its codec.

## Main results

* `TLVList.loads_load` : reading inverts writing.
* `SecurityBlock.loads_deserialize` : the payload of a security block is read back, provided that
  the block carries the EIDs that its ciphersuite flags promise.
-/

namespace IbrDtn

/-! ### Typed values -/

/-- `SecurityBlock::TLV`. -/
structure TLV where
  type : UInt8
  value : Bytes
deriving DecidableEq, Repr

namespace TLV

/-- `TLV::getLength`. -/
def getLength (t : TLV) : ℕ := BundleString.getLength t.value + 1

/-- `operator<<(std::ostream&, const TLV&)`. -/
def write (t : TLV) : Bytes := t.type :: BundleString.write t.value

/-- `operator>>(std::istream&, TLV&)`. -/
def read : Parser Exn TLV := do
  let type ← Parser.getByte none
  let value ← BundleString.read
  pure ⟨type, value⟩

@[simp] theorem length_write (t : TLV) : t.write.length = t.getLength := by
  rw [write, List.length_cons, BundleString.length_write, getLength]

theorem reads_read {t : TLV} (h : t.value.length < 2 ^ 63) : read.Reads t.write t :=
  (Parser.reads_getByte none t.type).bind (BundleString.reads_read h).bind_pure

theorem getLength_pos (t : TLV) : 0 < t.getLength := Nat.succ_pos _

end TLV

/-! ### Sets of typed values -/

/-- `SecurityBlock::TLVList`, a `std::set<TLV>` ordered by type. -/
structure TLVList where
  items : List TLV
  sorted : items.Pairwise fun s t => s.type < t.type
deriving DecidableEq

namespace TLVList

/-- The empty set. -/
def empty : TLVList := ⟨[], List.Pairwise.nil⟩

/-- The list with `t` inserted at its place, unless there is a value of its type. -/
def insertItem (t : TLV) : List TLV → List TLV
  | [] => [t]
  | s :: ss =>
      if t.type < s.type then t :: s :: ss
      else if s.type < t.type then s :: insertItem t ss
      else s :: ss

theorem mem_insertItem {t s : TLV} {ss : List TLV} (h : s ∈ insertItem t ss) :
    s = t ∨ s ∈ ss := by
  induction ss with
  | nil => exact Or.inl (List.mem_singleton.1 h)
  | cons u us ih =>
      rw [insertItem] at h
      split_ifs at h
      · exact List.mem_cons.1 h
      · rcases List.mem_cons.1 h with rfl | h
        · exact Or.inr List.mem_cons_self
        · exact (ih h).imp_right (List.mem_cons_of_mem _)
      · exact Or.inr h

theorem sorted_insertItem {t : TLV} {ss : List TLV}
    (h : ss.Pairwise fun s t => s.type < t.type) :
    (insertItem t ss).Pairwise fun s t => s.type < t.type := by
  induction ss with
  | nil => exact List.pairwise_singleton _ _
  | cons s ss ih =>
      obtain ⟨hs, hss⟩ := List.pairwise_cons.1 h
      rw [insertItem]
      split_ifs with hlt hgt
      · refine List.pairwise_cons.2 ⟨fun u hu => ?_, h⟩
        rcases List.mem_cons.1 hu with rfl | hu
        · exact hlt
        · exact UInt8.lt_trans hlt (hs u hu)
      · refine List.pairwise_cons.2 ⟨fun u hu => ?_, ih hss⟩
        rcases mem_insertItem hu with rfl | hu
        · exact hgt
        · exact hs u hu
      · exact h

/-- A value above all others is inserted at the end. -/
theorem insertItem_of_forall_lt {t : TLV} {ss : List TLV} (h : ∀ s ∈ ss, s.type < t.type) :
    insertItem t ss = ss ++ [t] := by
  induction ss with
  | nil => rfl
  | cons s ss ih =>
      have hs := h s List.mem_cons_self
      rw [insertItem, if_neg (UInt8.lt_asymm hs), if_pos hs,
        ih fun u hu => h u (List.mem_cons_of_mem _ hu), List.cons_append]

/-- `tlvlist.insert(tlv)`. -/
def insert (l : TLVList) (t : TLV) : TLVList :=
  ⟨insertItem t l.items, sorted_insertItem l.sorted⟩

/-- `TLVList::getPayloadLength`. -/
def getPayloadLength (l : TLVList) : ℕ := (l.items.map TLV.getLength).sum

/-- `TLVList::getLength`. -/
def getLength (l : TLVList) : ℕ := l.getPayloadLength

/-- `operator<<(std::ostream&, const TLVList&)`. -/
def write (l : TLVList) : Bytes :=
  SDNV.write (UInt64.ofNat l.getPayloadLength) ++ l.items.flatMap TLV.write

/-- The loop of `operator>>(std::istream&, TLVList&)`. Every turn reads at least one byte of the
announced `length`, which bounds the turns. -/
def loadLoop (length : ℕ) : ℕ → ℕ → Loader Exn TLVList Unit
  | 0, _ => pure ()
  | fuel + 1, readLength =>
      if readLength < length then do
        let tlv ← Loader.ofParser TLV.read
        Loader.update fun l => l.insert tlv
        loadLoop length fuel (readLength + tlv.getLength)
      else pure ()

/-- `operator>>(std::istream&, TLVList&)`: the values are inserted into the set. -/
def load : Loader Exn TLVList Unit := do
  let length ← Loader.ofParser SDNV.read
  loadLoop length.toNat length.toNat 0

@[simp] theorem length_flatMap_write (ts : List TLV) :
    (ts.flatMap TLV.write).length = (ts.map TLV.getLength).sum := by
  induction ts with
  | nil => rfl
  | cons t ts ih => simp [ih]

theorem length_write (l : TLVList) :
    l.write.length = SDNV.getLength (UInt64.ofNat l.getPayloadLength) + l.getPayloadLength := by
  rw [write, List.length_append, SDNV.length_write, length_flatMap_write, getPayloadLength]

/-- The loop reads the values that are left, in order, when they come after those it has. -/
theorem loads_loadLoop {length : ℕ} {ts : List TLV} {l l' : TLVList}
    (hitems : l'.items = l.items ++ ts) (hlt : ∀ t ∈ ts, t.value.length < 2 ^ 63)
    {fuel readLength : ℕ} (hlen : readLength + (ts.map TLV.getLength).sum = length)
    (hfuel : ts.length ≤ fuel) :
    (loadLoop length fuel readLength).Loads (ts.flatMap TLV.write) l l' () := by
  induction ts generalizing l fuel readLength with
  | nil =>
      have hl : l = l' := by
        cases l
        cases l'
        simpa using hitems.symm
      subst hl
      cases fuel with
      | zero => exact Loader.loads_pure () l
      | succ fuel =>
          rw [loadLoop, if_neg (by simp at hlen; omega)]
          exact Loader.loads_pure () l
  | cons t ts ih =>
      obtain ⟨fuel, rfl⟩ : ∃ k, fuel = k + 1 := ⟨fuel - 1, by simp at hfuel; omega⟩
      have hpos := t.getLength_pos
      rw [List.map_cons, List.sum_cons] at hlen
      rw [loadLoop, if_pos (by omega), List.flatMap_cons]
      refine (Loader.loads_ofParser (TLV.reads_read (hlt t List.mem_cons_self)) l).bind ?_
      refine (Loader.loads_update _ l).bind_nil ?_
      have hbefore : ∀ s ∈ l.items, s.type < t.type := by
        have hsorted := l'.sorted
        rw [hitems] at hsorted
        intro s hs
        exact (List.pairwise_append.1 hsorted).2.2 s hs t List.mem_cons_self
      refine ih ?_ (fun u hu => hlt u (List.mem_cons_of_mem _ hu)) (by omega)
        (by simpa using hfuel)
      change l'.items = insertItem t l.items ++ ts
      rw [hitems, insertItem_of_forall_lt hbefore, List.append_assoc, List.singleton_append]

theorem length_le_payloadLength (ts : List TLV) : ts.length ≤ (ts.map TLV.getLength).sum := by
  induction ts with
  | nil => exact le_rfl
  | cons t ts ih =>
      have := t.getLength_pos
      rw [List.length_cons, List.map_cons, List.sum_cons]
      omega

/-- The set fits a stream: its payload length is a `size_t`, and so is every value's. -/
def Fits (l : TLVList) : Prop :=
  l.getPayloadLength < 2 ^ 64 ∧ ∀ t ∈ l.items, t.value.length < 2 ^ 63

instance (l : TLVList) : Decidable l.Fits := inferInstanceAs (Decidable (_ ∧ ∀ _ ∈ _, _))

/-- **Reading a set into the empty one inverts writing.** -/
theorem loads_load {l : TLVList} (h : l.Fits) : load.Loads l.write empty l () := by
  refine (Loader.loads_ofParser (SDNV.reads_read _) empty).bind ?_
  rw [EID.toNat_ofNat_of_lt h.1]
  refine loads_loadLoop (by rfl) h.2 (Nat.zero_add _) ?_
  exact length_le_payloadLength l.items

/-! ### Access by type -/

/-- `_items.erase(TLV(type, ""))`. -/
def erase (l : TLVList) (type : UInt8) : TLVList :=
  ⟨l.items.filter fun t => t.type != type, l.sorted.filter _⟩

/-- `TLVList::set`. -/
def set (l : TLVList) (type : UInt8) (value : Bytes) : TLVList :=
  (l.erase type).insert ⟨type, value⟩

/-- `TLVList::get`, which throws if there is no value of the type. -/
def get? (l : TLVList) (type : UInt8) : Option Bytes :=
  (l.items.find? fun t => t.type == type).map TLV.value

theorem find?_insertItem {t : TLV} {ss : List TLV} (h : ∀ s ∈ ss, s.type ≠ t.type) (type : UInt8) :
    (insertItem t ss).find? (fun s => s.type == type) =
      if t.type = type then some t else ss.find? fun s => s.type == type := by
  induction ss with
  | nil =>
      rw [insertItem, List.find?_singleton]
      simp only [beq_iff_eq, List.find?_nil]
  | cons s ss ih =>
      have hs := h s List.mem_cons_self
      have ih' := ih fun u hu => h u (List.mem_cons_of_mem s hu)
      rw [insertItem]
      by_cases hlt : t.type < s.type
      · rw [if_pos hlt, List.find?_cons]
        by_cases htype : t.type = type
        · simp [htype]
        · simp only [beq_eq_false_iff_ne.2 htype, if_neg htype]
      · have hgt : s.type < t.type := by
          rw [UInt8.lt_iff_toNat_lt] at hlt ⊢
          have hne : s.type.toNat ≠ t.type.toNat := fun heq => hs (UInt8.toNat_inj.1 heq)
          omega
        rw [if_neg hlt, if_pos hgt, List.find?_cons, ih', List.find?_cons]
        by_cases htype : t.type = type
        · have hs' : s.type ≠ type := htype ▸ hs
          simp only [beq_eq_false_iff_ne.2 hs', if_pos htype]
        · simp only [if_neg htype]

theorem get?_set (l : TLVList) (type type' : UInt8) (value : Bytes) :
    (l.set type value).get? type' = if type = type' then some value else l.get? type' := by
  rw [set, get?, insert, find?_insertItem]
  · split_ifs with h
    · rfl
    · rw [get?, erase, List.find?_filter]
      congr 2
      funext s
      by_cases hs : s.type = type'
      · simp [hs, Ne.symm h]
      · simp [hs]
  · intro s hs
    have := List.of_mem_filter hs
    simpa using this

@[simp] theorem get?_set_self (l : TLVList) (type : UInt8) (value : Bytes) :
    (l.set type value).get? type = some value := by
  rw [get?_set, if_pos rfl]

end TLVList

/-- Reading an optional part of an object. -/
def loadOptional {σ : Type} (present : Bool) (p : Loader Exn σ Unit) : Loader Exn σ Unit :=
  if present then p else pure ()

theorem loads_loadOptional {σ : Type} {p : Loader Exn σ Unit} {bs : Bytes} {o : σ} (o' : σ)
    {present : Bool} (hp : present = true → p.Loads bs o o' ())
    (h : present = false → o = o') :
    (loadOptional present p).Loads (optional present bs) o o' () := by
  cases present with
  | true => exact hp rfl
  | false =>
      rw [← h rfl]
      exact Loader.loads_pure () o

/-! ### Security blocks -/

/-- `class SecurityBlock`: the members beyond those of `Block`. -/
structure SecurityBlock where
  ciphersuiteId : UInt64
  ciphersuiteFlags : UInt64
  correlator : UInt64
  ciphersuiteParams : TLVList
  securityResult : TLVList
  securityDestination : EID
  securitySource : EID
deriving DecidableEq

namespace SecurityBlock

/-- The bits of `SecurityBlock::CIPHERSUITE_FLAGS`. -/
def containsSecurityResult : UInt64 := 0x01
def containsCorrelator : UInt64 := 0x02
def containsCiphersuiteParams : UInt64 := 0x04
def containsSecurityDestination : UInt64 := 0x08
def containsSecuritySource : UInt64 := 0x10

/-- `SecurityBlock::SecurityBlock(type, id)`. -/
def create (id : UInt64) : SecurityBlock :=
  ⟨id, 0, 0, TLVList.empty, TLVList.empty, EID.none, EID.none⟩

/-- `_ciphersuite_flags & flag`. -/
def has (flags flag : UInt64) : Bool := FlagWord.has flags flag

/-- `SecurityBlock::getSecurityResultSize`, which two of the four classes override. -/
def getSecurityResultSize (b : SecurityBlock) : ℕ := b.securityResult.getLength

/-- `SecurityBlock::getLength`, for a class that answers `resultSize` to
`getSecurityResultSize`. -/
def getLength (b : SecurityBlock) (resultSize : ℕ) : ℕ :=
  SDNV.getLength b.ciphersuiteId + SDNV.getLength b.ciphersuiteFlags +
    (if has b.ciphersuiteFlags containsCorrelator then SDNV.getLength b.correlator else 0) +
    (if has b.ciphersuiteFlags containsCiphersuiteParams then
      SDNV.getLength (UInt64.ofNat b.ciphersuiteParams.getLength) + b.ciphersuiteParams.getLength
      else 0) +
    (if has b.ciphersuiteFlags containsSecurityResult then
      SDNV.getLength (UInt64.ofNat resultSize) + resultSize else 0)

/-- `SecurityBlock::serialize`. -/
def serialize (b : SecurityBlock) : Bytes :=
  SDNV.write b.ciphersuiteId ++ (SDNV.write b.ciphersuiteFlags ++
    (optional (has b.ciphersuiteFlags containsCorrelator) (SDNV.write b.correlator) ++
    (optional (has b.ciphersuiteFlags containsCiphersuiteParams) b.ciphersuiteParams.write ++
    optional (has b.ciphersuiteFlags containsSecurityResult) b.securityResult.write)))

/-- The EID that `deserialize` takes for the security source: the first of the block. -/
def readSource (flags : UInt64) (eids : List EID) (old : EID) : Except Exn EID :=
  if has flags containsSecuritySource then
    match eids with
    | [] => .error (.serializationFailed
        "ciphersuite flags indicate a security source, but it is not present")
    | eid :: _ => .ok eid
  else .ok old

/-- The EID that `deserialize` takes for the security destination. It asks for a second EID when
there is a security source, but increments a copy of the iterator after it was read, so it takes
the first one in both branches. -/
def readDestination (flags : UInt64) (eids : List EID) (old : EID) : Except Exn EID :=
  if has flags containsSecurityDestination then
    if has flags containsSecuritySource then
      match eids with
      | eid :: _ :: _ => .ok eid
      | _ => .error (.serializationFailed
          "ciphersuite flags indicate a security destination, but it is not present")
    else
      match eids with
      | eid :: _ => .ok eid
      | [] => .error (.serializationFailed
          "ciphersuite flags indicate a security destination, but it is not present")
  else .ok old

/-- `SecurityBlock::deserialize`, into the members of a block with the EIDs `eids`. -/
def deserialize (eids : List EID) : Loader Exn SecurityBlock Unit := do
  let ciphersuiteId ← Loader.ofParser SDNV.read
  let ciphersuiteFlags ← Loader.ofParser SDNV.read
  Loader.update fun b => { b with ciphersuiteId, ciphersuiteFlags }
  let b ← Loader.object
  let securitySource ← MonadExcept.ofExcept (readSource ciphersuiteFlags eids b.securitySource)
  Loader.update fun b => { b with securitySource }
  let securityDestination ←
    MonadExcept.ofExcept (readDestination ciphersuiteFlags eids b.securityDestination)
  Loader.update fun b => { b with securityDestination }
  loadOptional (has ciphersuiteFlags containsCorrelator) do
    let correlator ← Loader.ofParser SDNV.read
    Loader.update fun b => { b with correlator }
  loadOptional (has ciphersuiteFlags containsCiphersuiteParams)
    (Loader.within b.ciphersuiteParams (fun ciphersuiteParams b => { b with ciphersuiteParams })
      TLVList.load)
  loadOptional (has ciphersuiteFlags containsSecurityResult)
    (Loader.within b.securityResult (fun securityResult b => { b with securityResult })
      TLVList.load)

/-- A block with these flags carries the EIDs that they promise: what
`SecurityBlock::store_security_references` establishes. -/
def EidsPresent (flags : UInt64) (eids : List EID) : Prop :=
  (has flags containsSecuritySource = true → eids ≠ []) ∧
    (has flags containsSecurityDestination = true → eids ≠ [] ∧
      (has flags containsSecuritySource = true → 2 ≤ eids.length))

instance (flags : UInt64) (eids : List EID) : Decidable (EidsPresent flags eids) :=
  inferInstanceAs (Decidable (_ ∧ _))

theorem readSource_isOk {flags : UInt64} {eids : List EID} (h : EidsPresent flags eids)
    (old : EID) : ∃ e, readSource flags eids old = .ok e := by
  unfold readSource
  split_ifs with hs
  · cases eids with
    | nil => exact absurd rfl (h.1 hs)
    | cons e eids => exact ⟨e, rfl⟩
  · exact ⟨old, rfl⟩

theorem readDestination_isOk {flags : UInt64} {eids : List EID} (h : EidsPresent flags eids)
    (old : EID) : ∃ e, readDestination flags eids old = .ok e := by
  unfold readDestination
  split_ifs with hd hs
  · match eids, (h.2 hd).2 hs with
    | e :: _ :: _, _ => exact ⟨e, rfl⟩
  · cases eids with
    | nil => exact absurd rfl (h.2 hd).1
    | cons e eids => exact ⟨e, rfl⟩
  · exact ⟨old, rfl⟩

/-- The lists that the flags select fit a stream. -/
def Fits (b : SecurityBlock) : Prop :=
  (has b.ciphersuiteFlags containsCiphersuiteParams = true → b.ciphersuiteParams.Fits) ∧
    (has b.ciphersuiteFlags containsSecurityResult = true → b.securityResult.Fits)

instance (b : SecurityBlock) : Decidable b.Fits := inferInstanceAs (Decidable (_ ∧ _))

/-- What a new block holds after the payload of `b` was read into it: the fields that the flags
select, and the given EIDs for source and destination. -/
def received (b : SecurityBlock) (source destination : EID) : SecurityBlock :=
  { b with
    correlator := if has b.ciphersuiteFlags containsCorrelator then b.correlator else 0
    ciphersuiteParams :=
      if has b.ciphersuiteFlags containsCiphersuiteParams then b.ciphersuiteParams
      else TLVList.empty
    securityResult :=
      if has b.ciphersuiteFlags containsSecurityResult then b.securityResult else TLVList.empty
    securitySource := source
    securityDestination := destination }

theorem optional_ite {α : Type} (f : α → Bytes) (present : Bool) (a a' : α) :
    optional present (f (if present then a else a')) = optional present (f a) := by
  cases present <;> rfl

/-- The received block has the payload that was sent. -/
@[simp] theorem serialize_received (b : SecurityBlock) (source destination : EID) :
    (b.received source destination).serialize = b.serialize := by
  simp only [serialize, received, optional_ite]

theorem loads_ofExcept {σ α : Type} {r : Except Exn α} {a : α} (h : r = .ok a) (o : σ) :
    (MonadExcept.ofExcept r : Loader Exn σ α).Loads [] o o a := by
  rw [h]
  exact Loader.loads_pure a o

/-- The source and the destination that a new block has after it was read. -/
def receivedSource (flags : UInt64) (eids : List EID) : EID :=
  match readSource flags eids EID.none with
  | .ok source => source
  | .error _ => EID.none

def receivedDestination (flags : UInt64) (eids : List EID) : EID :=
  match readDestination flags eids EID.none with
  | .ok destination => destination
  | .error _ => EID.none

theorem readSource_eq {flags : UInt64} {eids : List EID} (h : EidsPresent flags eids) :
    readSource flags eids EID.none = .ok (receivedSource flags eids) := by
  obtain ⟨source, hsource⟩ := readSource_isOk h EID.none
  rw [receivedSource, hsource]

theorem readDestination_eq {flags : UInt64} {eids : List EID} (h : EidsPresent flags eids) :
    readDestination flags eids EID.none = .ok (receivedDestination flags eids) := by
  obtain ⟨destination, hdestination⟩ := readDestination_isOk h EID.none
  rw [receivedDestination, hdestination]

/-- What a new block with the EIDs `eids` holds after the payload of `b` was read into it. -/
def receivedWith (eids : List EID) (b : SecurityBlock) : SecurityBlock :=
  b.received (receivedSource b.ciphersuiteFlags eids) (receivedDestination b.ciphersuiteFlags eids)

@[simp] theorem serialize_receivedWith (eids : List EID) (b : SecurityBlock) :
    (b.receivedWith eids).serialize = b.serialize :=
  serialize_received b _ _

/-- **The payload of a security block is read back** into a new block, provided that the block
carries the EIDs that the ciphersuite flags promise. -/
theorem loads_deserialize {b : SecurityBlock} {eids : List EID}
    (heids : EidsPresent b.ciphersuiteFlags eids) (hfits : b.Fits) (id : UInt64) :
    (deserialize eids).Loads b.serialize (create id) (b.receivedWith eids) () := by
  have hsource := readSource_eq heids
  have hdestination := readDestination_eq heids
  rw [receivedWith]
  generalize receivedSource b.ciphersuiteFlags eids = source at hsource ⊢
  generalize receivedDestination b.ciphersuiteFlags eids = destination at hdestination ⊢
  refine (Loader.loads_ofParser (SDNV.reads_read _) _).bind
    ((Loader.loads_ofParser (SDNV.reads_read _) _).bind ?_)
  refine (Loader.loads_update _ _).bind_nil ((Loader.loads_object _).bind_nil ?_)
  refine (loads_ofExcept hsource _).bind_nil ((Loader.loads_update _ _).bind_nil ?_)
  refine (loads_ofExcept hdestination _).bind_nil ((Loader.loads_update _ _).bind_nil ?_)
  refine (loads_loadOptional { create id with
      ciphersuiteId := b.ciphersuiteId, ciphersuiteFlags := b.ciphersuiteFlags
      securitySource := source, securityDestination := destination
      correlator := (b.received source destination).correlator } ?_ ?_).bind
    ((loads_loadOptional { b.received source destination with
        securityResult := TLVList.empty } ?_ ?_).bind
      (loads_loadOptional _ ?_ ?_))
  · intro h
    rw [received, if_pos h]
    exact (Loader.loads_ofParser (SDNV.reads_read _) _).then_nil (Loader.loads_update _ _)
  · intro h
    rw [received, if_neg (Bool.eq_false_iff.1 h)]
    rfl
  · intro h
    simp only [received, if_pos h]
    exact (TLVList.loads_load (hfits.1 h)).within _ _
  · intro h
    simp only [received, if_neg (Bool.eq_false_iff.1 h)]
    rfl
  · intro h
    simp only [received, if_pos h]
    exact (TLVList.loads_load (hfits.2 h)).within _ _
  · intro h
    simp only [received, if_neg (Bool.eq_false_iff.1 h)]

end SecurityBlock

end IbrDtn
