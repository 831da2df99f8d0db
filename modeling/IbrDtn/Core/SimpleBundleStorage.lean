import IbrDtn.Core.BundleStorage
import IbrDtn.Core.DataStorage
import IbrDtn.Data.Deserializer
import IbrDtn.Library.Transition

/-!
# The storage on disk

This file models `daemon/src/core/SimpleBundleStorage.cpp`.  The storage keeps meta data in memory and
bundles in files, which a worker writes and removes in the background.  The predicted length of a
bundle is charged when it is stored, and taken off when the worker reports that its file was
removed or could not be written.

A bundle that is stored while a length is still charged for its identifier is charged twice,
`clear` forgets the sum of the lengths but not the lengths, and a file that is shorter than
predicted stays although nothing is charged for it any more.  In the runs without such steps the
sum is that of the lengths charged for the files that are present, as soon as nothing is
outstanding.

## Main definitions

* `SimpleBundleStorage` : the members of the storage, with the calls and tasks that are under way.
* `SimpleBundleStorage.step` : the steps of the callers and of the worker.
* `SimpleBundleStorage.Accounted` : every length is charged for a store under way or for a file.
* `SimpleBundleStorage.Sound` : the steps that keep this.

## Main results

* `SimpleBundleStorage.accounted_step` : what one step keeps.
* `SimpleBundleStorage.charges_run` : the sum of the lengths behind every run of sound steps.
-/

namespace IbrDtn

open OrderedSet (Holds Ranked)

/-- `class SimpleBundleStorage`, with the calls of `store` that left the critical section, and have
yet to hand their container over. -/
structure SimpleBundleStorage where
  list : BundleList
  priorityIndex : List MetaBundle
  pendingBundles : List (Bytes × Bundle)
  storedBundles : List (MetaBundle × Bytes)
  bundleSize : List (MetaBundle × UInt64)
  maxsize : UInt64
  currentsize : UInt64
  datastore : DataStorage
  storing : List (Bytes × Container)
deriving DecidableEq

/-- `std::less<MetaBundle>`, which is `BundleID::operator<`. -/
def MetaBundle.lt (m n : MetaBundle) : Bool := m.toBundleID.lt n.toBundleID

/-- What is read from a file. -/
def Container.load (env : DeserializerEnv) (container : Container) : Except Exn Bundle :=
  let reader := DefaultDeserializer.readBundle env DefaultDeserializer.create (Bundle.create 0 0)
  match (reader.run (InStream.ofBytes container.bytes)).1 with
  | .ok (b, _) => .ok b
  | .error e => .error e

/-- The name of the file of a bundle. -/
def BundleID.fileName (id : BundleID) : Bytes := DataStorage.hash id.toString

namespace SimpleBundleStorage

/-- `SimpleBundleStorage::SimpleBundleStorage`, on an empty folder. -/
def create (maxsize : UInt64) : SimpleBundleStorage :=
  ⟨.empty, [], [], [], [], maxsize, 0, .empty, []⟩

/-! ### Callbacks -/

/-- `_bundle_size[meta]`. -/
def sizeOf (s : SimpleBundleStorage) (m : MetaBundle) : UInt64 :=
  match OrderedSet.find? Prod.fst MetaBundle.lt m s.bundleSize with
  | some x => x.2
  | none => 0

/-- The length that was charged is taken off. -/
def release (s : SimpleBundleStorage) (m : MetaBundle) : SimpleBundleStorage :=
  { s with
    currentsize := s.currentsize - s.sizeOf m
    bundleSize := OrderedSet.erase Prod.fst MetaBundle.lt m s.bundleSize }

/-- `_pending_bundles[hash]`, where `fresh` is the new bundle that a missing key is given. -/
def pendingBundle (s : SimpleBundleStorage) (fresh : Bundle) (hash : Bytes) : Bundle :=
  match OrderedSet.find? Prod.fst DataStorage.hashLt hash s.pendingBundles with
  | some x => x.2
  | none => fresh

/-- `_pending_bundles.erase(hash)`. -/
def erasePending (s : SimpleBundleStorage) (hash : Bytes) : SimpleBundleStorage :=
  { s with
    pendingBundles := OrderedSet.erase Prod.fst DataStorage.hashLt hash s.pendingBundles }

/-- `SimpleBundleStorage::eventDataStorageStored`. -/
def eventDataStorageStored (s : SimpleBundleStorage) (c : Clock) (fresh : Bundle) (hash : Bytes) :
    SimpleBundleStorage :=
  let m := MetaBundle.ofBundle c (s.pendingBundle fresh hash)
  let s := s.erasePending hash
  { s with storedBundles := OrderedSet.assign MetaBundle.lt m hash s.storedBundles }

/-- `SimpleBundleStorage::eventDataStorageStoreFailed`. -/
def eventDataStorageStoreFailed (s : SimpleBundleStorage) (c : Clock) (fresh : Bundle)
    (hash : Bytes) : SimpleBundleStorage :=
  (s.release (.ofBundle c (s.pendingBundle fresh hash))).erasePending hash

/-- `SimpleBundleStorage::eventDataStorageRemoved`. -/
def eventDataStorageRemoved (s : SimpleBundleStorage) (hash : Bytes) : SimpleBundleStorage :=
  let p := fun x : MetaBundle × Bytes => x.2 == hash
  match s.storedBundles.find? p with
  | some x => { s.release x.1 with storedBundles := s.storedBundles.eraseP p }
  | none => s

/-- The callback of the worker, after which it lets the task go. -/
def callback (s : SimpleBundleStorage) (c : Clock) (fresh : Bundle) : SimpleBundleStorage :=
  let done := { s with datastore := { s.datastore with current := none } }
  match s.datastore.current with
  | some (.store hash _, .done) => done.eventDataStorageStored c fresh hash
  | some (.store hash _, _) => done.eventDataStorageStoreFailed c fresh hash
  | some (.remove hash, .done) => done.eventDataStorageRemoved hash
  | _ => done

/-! ### Operations -/

/-- The bundle does not fit any more. -/
def exceeds (s : SimpleBundleStorage) (c : Clock) (b : Bundle) : Bool :=
  decide (s.maxsize > 0) && decide (s.currentsize + b.lengthAt c > s.maxsize)

/-- The bundle as it is kept: with the node as its custodian, if the node accepts custody. -/
def withCustody (node : LocalNode) (c : Clock) (b : Bundle) : Bundle :=
  match BundleStorage.acceptCustody node (.ofBundle c b) with
  | .ok (custodian, _) => { b with custodian := custodian }
  | .error _ => b

/-- The critical section of `SimpleBundleStorage::store`, for a bundle that fits. -/
def insert (s : SimpleBundleStorage) (node : LocalNode) (c : Clock) (b : Bundle) :
    SimpleBundleStorage :=
  let size := b.lengthAt c
  let hash := b.toBundleID.fileName
  let kept := withCustody node c b
  let m := MetaBundle.ofBundle c kept
  { s with
    pendingBundles := OrderedSet.assign DataStorage.hashLt hash kept s.pendingBundles
    bundleSize := OrderedSet.assign MetaBundle.lt m size s.bundleSize
    currentsize := s.currentsize + size
    list := s.list.add m
    priorityIndex := OrderedSet.insert id MetaBundle.priorityLt m s.priorityIndex
    storing := s.storing ++ [(hash, ⟨b, size⟩)] }

/-- The end of a call of `store`: its container is handed over to the worker. -/
def handOver (s : SimpleBundleStorage) (index : ℕ) : SimpleBundleStorage :=
  match s.storing[index]? with
  | some x =>
      { s with
        storing := s.storing.eraseIdx index
        datastore := s.datastore.push (.store x.1 x.2) }
  | none => s

/-- What both functions `remove` do with an entry of the bundle list. -/
def discard (s : SimpleBundleStorage) (m : MetaBundle) : SimpleBundleStorage :=
  { s with
    list := s.list.remove m
    priorityIndex := OrderedSet.erase id MetaBundle.priorityLt m s.priorityIndex
    datastore := s.datastore.push (.remove m.toBundleID.fileName) }

/-- `SimpleBundleStorage::eventBundleExpired`, with the bundle list that calls it. -/
def eventBundleExpired (list : BundleList) (e : ExpiringBundle) (s : SimpleBundleStorage) :
    SimpleBundleStorage :=
  match list.metas.find? fun m => m.toBundleID.eq e.bundle.toBundleID with
  | some m =>
      { s with
        datastore := s.datastore.push (.remove m.toBundleID.fileName)
        priorityIndex := OrderedSet.erase id MetaBundle.priorityLt m s.priorityIndex }
  | none => s

/-- `SimpleBundleStorage::iterateDataStorage`, for a file that holds a bundle: the length is the
position of the stream behind the bundle. -/
def restore (s : SimpleBundleStorage) (c : Clock) (hash : Bytes) (found : Container) :
    SimpleBundleStorage :=
  let m := MetaBundle.ofBundle c found.bundle
  { s with
    storedBundles := OrderedSet.assign MetaBundle.lt m hash s.storedBundles
    bundleSize := OrderedSet.assign MetaBundle.lt m found.charged s.bundleSize
    currentsize := s.currentsize + found.charged
    list := s.list.add m
    priorityIndex := OrderedSet.insert id MetaBundle.priorityLt m s.priorityIndex
    datastore := { s.datastore with
      files := OrderedSet.assign DataStorage.hashLt hash found s.datastore.files } }

/-- `SimpleBundleStorage::__get`, with the age of the file: a bundle that is pending is at hand, and
any other is read from its file. -/
def fetch (s : SimpleBundleStorage) (env : DeserializerEnv) (age : UInt64) (m : MetaBundle) :
    Except BundleStorage.Exn Bundle :=
  let hash := m.toBundleID.fileName
  match OrderedSet.find? Prod.fst DataStorage.hashLt hash s.pendingBundles with
  | some x => .ok x.2
  | none =>
      match OrderedSet.find? Prod.fst DataStorage.hashLt hash s.datastore.files with
      | none => .error .noBundleFound
      | some x =>
          match x.2.load env with
          | .ok b => .ok (b.addSeconds age)
          | .error _ => .error .bundleLoad

/-- The outcome of `SimpleBundleStorage::get(const BundleID&)`. -/
def get (s : SimpleBundleStorage) (env : DeserializerEnv) (age : UInt64) (id : BundleID) :
    Except BundleStorage.Exn Bundle :=
  match s.list.metas.find? fun m => id.eq m.toBundleID with
  | some m => s.fetch env age m
  | none => .error .noBundleFound

/-- `SimpleBundleStorage::remove(const BundleID&)`. -/
def removeById (s : SimpleBundleStorage) (id : BundleID) : SimpleBundleStorage :=
  match s.list.metas.find? fun m => m.toBundleID.eq id with
  | some m => s.discard m
  | none => s

/-- The steps. A call of `store` is two steps: its critical section, and handing the container over;
a task is two steps of the worker: the file operation and the callback. The files that a new
storage finds in its folder are given by steps of their own. -/
inductive Action where
  | restore (c : Clock) (hash : Bytes) (found : Container)
  | store (node : LocalNode) (c : Clock) (b : Bundle)
  | handOver (index : ℕ)
  | get (env : DeserializerEnv) (age : UInt64) (id : BundleID)
  | removeById (id : BundleID)
  | removeByFilter (contains : Bytes → Bool)
  | clear
  | expire (c : Clock) (timestamp : UInt64)
  | work (fails : Bool)
  | callback (c : Clock) (fresh : Bundle)

/-- The storage that a step leaves. A bundle that cannot be loaded is removed by `get`. -/
def step (s : SimpleBundleStorage) : Action → SimpleBundleStorage
  | .restore c hash found => s.restore c hash found
  | .store node c b => if s.exceeds c b then s else s.insert node c b
  | .handOver index => s.handOver index
  | .get env age id =>
      match s.get env age id with
      | .error .bundleLoad => s.removeById id
      | _ => s
  | .removeById id => s.removeById id
  | .removeByFilter contains =>
      match s.list.metas.find? fun m => contains m.toBundleID.toString with
      | some m => s.discard m
      | none => s
  | .clear =>
      let tasks := s.list.metas.map fun m => Task.remove m.toBundleID.fileName
      { s with
        datastore := { s.datastore with tasks := s.datastore.tasks ++ tasks }
        priorityIndex := [], list := s.list.clear, currentsize := 0 }
  | .expire c timestamp =>
      let (list, s) := s.list.expire c timestamp eventBundleExpired s
      { s with list }
  | .work fails => { s with datastore := s.datastore.work fails }
  | .callback c fresh => s.callback c fresh

/-! ### The ledger -/

/-- A length that is charged: the container of a call of `store` with the bundle that is kept in
memory until it is written, and the meta data under which the length and the file are entered. -/
structure Charge where
  container : Container
  kept : Bundle
  chargedAs : MetaBundle
  storedAs : MetaBundle
  kept_id : kept.toBundleID = container.bundle.toBundleID
  chargedAs_id : chargedAs.toBundleID = container.bundle.toBundleID
  storedAs_id : storedAs.toBundleID = container.bundle.toBundleID

namespace Charge

/-- The identifier of the bundle. -/
def id (r : Charge) : BundleID := r.container.bundle.toBundleID

/-- The name of the file. -/
def hash (r : Charge) : Bytes := r.id.fileName

/-- The length that is charged. -/
def length (r : Charge) : ℕ := r.container.charged.toNat

/-- The container, as it is handed to the worker and written. -/
def entry (r : Charge) : Bytes × Container := (r.hash, r.container)

end Charge

/-- The containers whose callback is outstanding. -/
def outstanding (s : SimpleBundleStorage) : List (Bytes × Container) :=
  s.storing ++ (s.datastore.current.toList.map Prod.fst ++ s.datastore.tasks).filterMap
    Task.container?

/-- The files that are there beside those whose callback is over: the current task may have written
one. -/
def written : Option (Task × FileOutcome) → List (Bytes × Container)
  | some (_, .failed) => []
  | some (task, _) => task.container?.toList
  | none => []

/-- The charges whose file is still there: the current task may have removed one. -/
def remaining (current : Option (Task × FileOutcome)) (kept : List Charge) : List Charge :=
  match current with
  | some (.remove hash, .done) => kept.filter fun r => decide (r.hash ≠ hash)
  | _ => kept

/-- Where the bundles are: those of `waiting` are in memory and their containers on the way to their
files, and those of `kept` are in files. -/
structure Located (s : SimpleBundleStorage) (waiting kept : List Charge) : Prop where
  comparable : (waiting ++ kept).Pairwise fun r t => r.id.Comparable t.id
  pendingBundles : Holds Prod.fst DataStorage.hashRank s.pendingBundles
    (waiting.map fun r => (r.hash, r.kept))
  outstanding : s.outstanding.Perm (waiting.map Charge.entry)
  files : Holds Prod.fst DataStorage.hashRank s.datastore.files
    (written s.datastore.current ++ kept.map Charge.entry)

/-- The lengths are charged as the ledger says. -/
structure Charged (s : SimpleBundleStorage) (charges : List Charge) : Prop where
  comparable : charges.Pairwise fun r t => r.id.Comparable t.id
  bundleSize : Holds Prod.fst (fun m : MetaBundle => m.toBundleID.rank) s.bundleSize
    (charges.map fun r => (r.chargedAs, r.container.charged))
  currentsize : s.currentsize.toNat = (charges.map Charge.length).sum

/-- **Every length is charged for a store that is under way or for a file**: `waiting` are the
charges whose container has yet to be written, and `kept` those whose file was reported. -/
structure Accounted (s : SimpleBundleStorage) (waiting kept : List Charge) : Prop
    extends Charged s (waiting ++ kept) where
  complete : ∀ r ∈ waiting, r.container.complete = true
  current_ne : ∀ task, s.datastore.current ≠ some (task, .incomplete)
  located : s.Located waiting (remaining s.datastore.current kept)
  storedBundles : Holds Prod.fst (fun m : MetaBundle => m.toBundleID.rank) s.storedBundles
    (kept.map fun r => (r.storedAs, r.hash))

/-- No call of `store` is under way, and nothing is queued or called back. -/
def Quiescent (s : SimpleBundleStorage) : Prop := s.storing = [] ∧ s.datastore.Idle

instance (s : SimpleBundleStorage) : Decidable s.Quiescent := inferInstanceAs (Decidable (_ ∧ _))

/-! ### Sound steps -/

/-- The steps that keep the account. A bundle is stored only if its identifier can be told from
those for which a length is charged, its file will not be shorter than predicted, and the sum of
the lengths has 64 bits; the storage is cleared only when nothing is charged. A file that is found
at the start has the name that belongs to its bundle. -/
def Sound (s : SimpleBundleStorage) : Action → Prop
  | .store _ c b => s.exceeds c b = false →
      (∀ x ∈ s.bundleSize, x.1.toBundleID.Comparable b.toBundleID) ∧
        (⟨b, b.lengthAt c⟩ : Container).complete = true ∧
          s.currentsize.toNat + (b.lengthAt c).toNat < 2 ^ 64
  | .restore _ hash found => s.Quiescent ∧ hash = found.bundle.toBundleID.fileName ∧
      (∀ x ∈ s.bundleSize, x.1.toBundleID.Comparable found.bundle.toBundleID) ∧
        s.currentsize.toNat + found.charged.toNat < 2 ^ 64
  | .clear => s.bundleSize = []
  | .handOver _ | .get _ _ _ | .removeById _ | .removeByFilter _ | .expire _ _ | .work _
  | .callback _ _ => True

end SimpleBundleStorage

namespace BundleID

/-- Files of different bundles have different names. -/
theorem Comparable.fileName_ne {a b : BundleID} (h : a.Comparable b) :
    a.fileName ≠ b.fileName :=
  fun heq => h.toString_ne (DataStorage.hash_injective heq)

theorem Comparable.ranked_fileName {a b : BundleID} (h : a.Comparable b) :
    Ranked DataStorage.hashLt DataStorage.hashRank a.fileName b.fileName :=
  DataStorage.ranked_of_ne h.fileName_ne

end BundleID

namespace MetaBundle

theorem ranked_of_comparable {m n : MetaBundle} (h : m.toBundleID.Comparable n.toBundleID) :
    Ranked MetaBundle.lt (fun m => m.toBundleID.rank) m n :=
  ⟨(BundleID.ranked_of_comparable h).lt_iff, (BundleID.ranked_of_comparable h).gt_iff,
    (BundleID.ranked_of_comparable h).ne⟩

theorem equivalent_of_id {m n : MetaBundle} (h : m.toBundleID = n.toBundleID) :
    OrderedSet.Equivalent MetaBundle.lt (fun m => m.toBundleID.rank) m n := by
  have hself := BundleID.equivalent_self n.toBundleID
  refine ⟨?_, ?_, congrArg BundleID.rank h⟩
  · rw [MetaBundle.lt, h, hself.not_lt]
  · rw [MetaBundle.lt, h, hself.not_lt]

end MetaBundle

namespace SimpleBundleStorage

namespace Charged

variable {s : SimpleBundleStorage} {l t : List Charge} {r : Charge}

theorem of_perm (h : s.Charged l) (hperm : l.Perm t) : s.Charged t where
  comparable := h.comparable.perm hperm fun h => h.symm
  bundleSize := h.bundleSize.of_perm (hperm.map _)
  currentsize := h.currentsize.trans (hperm.map _).sum_eq

/-- The other charges can be told from the first. -/
theorem comparable_of_mem (h : s.Charged (r :: t)) : ∀ u ∈ t, u.id.Comparable r.id :=
  fun u hu => ((List.pairwise_cons.1 h.comparable).1 u hu).symm

/-- A bundle that can be told from those that are charged. -/
theorem comparable_of_bundleSize (h : s.Charged l) {id : BundleID}
    (hid : ∀ x ∈ s.bundleSize, x.1.toBundleID.Comparable id) : ∀ u ∈ l, u.id.Comparable id := by
  intro u hu
  have hmem := hid _ (h.bundleSize.perm.mem_iff.2 (List.mem_map_of_mem hu))
  rwa [u.chargedAs_id] at hmem

theorem ranked_chargedAs {m : MetaBundle} (ht : ∀ u ∈ t, u.id.Comparable m.toBundleID) :
    ∀ x ∈ t.map (fun u => (u.chargedAs, u.container.charged)),
      Ranked MetaBundle.lt (fun m => m.toBundleID.rank) x.1 m := by
  intro x hx
  obtain ⟨u, hu, rfl⟩ := List.mem_map.1 hx
  exact MetaBundle.ranked_of_comparable (u.chargedAs_id ▸ ht u hu)

/-- **A length is charged.** -/
theorem charge (h : s.Charged t) (ht : ∀ u ∈ t, u.id.Comparable r.id)
    (hsize : s.currentsize.toNat + r.length < 2 ^ 64) :
    { s with
      bundleSize :=
        OrderedSet.assign MetaBundle.lt r.chargedAs r.container.charged s.bundleSize
      currentsize := s.currentsize + r.container.charged }.Charged (r :: t) where
  comparable := List.pairwise_cons.2 ⟨fun u hu => (ht u hu).symm, h.comparable⟩
  bundleSize := h.bundleSize.assign _ (ranked_chargedAs (r.chargedAs_id ▸ ht))
  currentsize := by
    have hsum : (s.currentsize + r.container.charged).toNat = s.currentsize.toNat + r.length :=
      (UInt64.toNat_add _ _).trans (Nat.mod_eq_of_lt hsize)
    change (s.currentsize + r.container.charged).toNat = r.length + (t.map Charge.length).sum
    rw [hsum, h.currentsize, Nat.add_comm]

theorem sizeOf_eq (h : s.Charged (r :: t)) {m : MetaBundle} (hm : m.toBundleID = r.id) :
    s.sizeOf m = r.container.charged := by
  have hfind := h.bundleSize.find?_eq_some
    (MetaBundle.equivalent_of_id (m := r.chargedAs) (n := m) (r.chargedAs_id.trans hm.symm))
    (ranked_chargedAs (hm ▸ h.comparable_of_mem))
  rw [sizeOf, hfind]

/-- **A length is taken off.** -/
theorem release (h : s.Charged (r :: t)) {m : MetaBundle} (hm : m.toBundleID = r.id) :
    (s.release m).Charged t where
  comparable := (List.pairwise_cons.1 h.comparable).2
  bundleSize := h.bundleSize.erase
    (MetaBundle.equivalent_of_id (m := r.chargedAs) (n := m) (r.chargedAs_id.trans hm.symm))
    (ranked_chargedAs (hm ▸ h.comparable_of_mem))
  currentsize := by
    have hsum : s.currentsize.toNat = r.length + (t.map Charge.length).sum := h.currentsize
    have hle : r.container.charged ≤ s.currentsize := by
      rw [UInt64.le_iff_toNat_le, hsum]
      exact Nat.le_add_right _ _
    change (s.currentsize - s.sizeOf m).toNat = _
    rw [h.sizeOf_eq hm, UInt64.toNat_sub_of_le _ _ hle, hsum]
    exact Nat.add_sub_cancel_left _ _

/-- **No length exceeds the sum.** -/
theorem sizeOf_le (h : s.Charged l) (m : MetaBundle) : s.sizeOf m ≤ s.currentsize := by
  rw [sizeOf]
  cases hfind : OrderedSet.find? Prod.fst MetaBundle.lt m s.bundleSize with
  | none => exact UInt64.le_iff_toNat_le.2 (Nat.zero_le _)
  | some x =>
      obtain ⟨u, hu, rfl⟩ := List.mem_map.1
        (h.bundleSize.perm.mem_iff.1 (OrderedSet.mem_of_find?_eq_some hfind))
      rw [UInt64.le_iff_toNat_le, h.currentsize]
      exact List.le_sum_of_mem (List.mem_map_of_mem hu)

/-- The meta data under which a file is entered does not matter. -/
theorem with_storedAs (h : s.Charged (r :: t)) {m : MetaBundle}
    (hm : m.toBundleID = r.container.bundle.toBundleID) :
    s.Charged ({ r with storedAs := m, storedAs_id := hm } :: t) where
  comparable := List.pairwise_cons.2 (List.pairwise_cons.1 h.comparable)
  bundleSize := h.bundleSize
  currentsize := h.currentsize

end Charged

theorem withCustody_id (node : LocalNode) (c : Clock) (b : Bundle) :
    (withCustody node c b).toBundleID = b.toBundleID := by
  rw [withCustody]
  split <;> rfl

/-- What a call of `store` charges. -/
def Charge.ofStore (node : LocalNode) (c : Clock) (b : Bundle) : Charge where
  container := ⟨b, b.lengthAt c⟩
  kept := withCustody node c b
  chargedAs := .ofBundle c (withCustody node c b)
  storedAs := .ofBundle c (withCustody node c b)
  kept_id := withCustody_id node c b
  chargedAs_id := withCustody_id node c b
  storedAs_id := withCustody_id node c b

/-- What a file is charged for that is found at the start. -/
def Charge.ofFile (c : Clock) (found : Container) : Charge where
  container := found
  kept := found.bundle
  chargedAs := .ofBundle c found.bundle
  storedAs := .ofBundle c found.bundle
  kept_id := rfl
  chargedAs_id := rfl
  storedAs_id := rfl

theorem ranked_hash {r : Charge} {t : List Charge} {α : Type} {f : Charge → α}
    (ht : ∀ u ∈ t, u.id.Comparable r.id) :
    ∀ x ∈ t.map (fun u => (u.hash, f u)),
      Ranked DataStorage.hashLt DataStorage.hashRank x.1 r.hash := by
  intro x hx
  obtain ⟨u, hu, rfl⟩ := List.mem_map.1 hx
  exact (ht u hu).ranked_fileName

/-- A name belongs to one of the charges, or to none. -/
theorem exists_perm_or (charges : List Charge) (hash : Bytes) :
    (∃ r t, r.hash = hash ∧ charges.Perm (r :: t)) ∨ ∀ r ∈ charges, r.hash ≠ hash := by
  by_cases hex : ∃ r ∈ charges, r.hash = hash
  · obtain ⟨r, hr, hhash⟩ := hex
    obtain ⟨l₁, l₂, rfl⟩ := List.append_of_mem hr
    exact .inl ⟨r, l₁ ++ l₂, hhash, List.perm_middle⟩
  · exact .inr fun r hr hhash => hex ⟨r, hr, hhash⟩

/-! ### Outstanding callbacks -/

section Outstanding

variable (s : SimpleBundleStorage)

theorem outstanding_removes {tasks : List Task} (ht : tasks.filterMap Task.container? = []) :
    SimpleBundleStorage.outstanding
        { s with datastore := { s.datastore with tasks := s.datastore.tasks ++ tasks } } =
      s.outstanding := by
  rw [outstanding, outstanding, ← List.append_assoc, List.filterMap_append, ht, List.append_nil]

theorem outstanding_insert (node : LocalNode) (c : Clock) (b : Bundle) :
    (s.insert node c b).outstanding.Perm
      ((b.toBundleID.fileName, ⟨b, b.lengthAt c⟩) :: s.outstanding) := by
  rw [outstanding, outstanding]
  change (s.storing ++ [(b.toBundleID.fileName, _)] ++ _).Perm _
  rw [List.append_assoc, List.singleton_append]
  exact List.perm_middle

theorem outstanding_handOver (index : ℕ) : (s.handOver index).outstanding.Perm s.outstanding := by
  rw [SimpleBundleStorage.handOver]
  cases hx : s.storing[index]? with
  | none => exact .refl _
  | some x =>
      obtain ⟨hindex, rfl⟩ := List.getElem?_eq_some_iff.1 hx
      have hperm := List.getElem_cons_eraseIdx_perm hindex
      have htask : [Task.store s.storing[index].1 s.storing[index].2].filterMap Task.container? =
          [s.storing[index]] := rfl
      simp only [outstanding, DataStorage.push, ← List.append_assoc, List.filterMap_append, htask]
      refine (List.perm_append_singleton _ _).trans ?_
      rw [← List.cons_append, ← List.cons_append]
      exact (hperm.append_right _).append_right _

variable {s}

theorem outstanding_work {task : Task} {tasks : List Task} {outcome : FileOutcome}
    (hcurrent : s.datastore.current = none) (htasks : s.datastore.tasks = task :: tasks)
    (files : List (Bytes × Container)) :
    SimpleBundleStorage.outstanding
      { s with datastore := ⟨tasks, files, some (task, outcome)⟩ } = s.outstanding := by
  rw [outstanding, outstanding, hcurrent, htasks]
  rfl

theorem outstanding_stored {hash : Bytes} {container : Container} {outcome : FileOutcome}
    (hcurrent : s.datastore.current = some (.store hash container, outcome)) :
    s.outstanding.Perm ((hash, container) :: SimpleBundleStorage.outstanding
      { s with datastore := { s.datastore with current := none } }) := by
  rw [outstanding, hcurrent]
  exact List.perm_middle

theorem outstanding_current
    (hcontainer : (s.datastore.current.toList.map Prod.fst).filterMap Task.container? = []) :
    SimpleBundleStorage.outstanding
      { s with datastore := { s.datastore with current := none } } = s.outstanding := by
  change s.storing ++ s.datastore.tasks.filterMap Task.container? = s.storing ++ _
  rw [List.filterMap_append, hcontainer]
  rfl

end Outstanding

namespace Located

variable {s : SimpleBundleStorage} {waiting kept t : List Charge} {r : Charge} {c : Clock}

theorem of_perm (h : s.Located waiting kept) {waiting' kept' : List Charge}
    (hw : waiting.Perm waiting') (hk : kept.Perm kept') : s.Located waiting' kept' where
  comparable := h.comparable.perm (hw.append hk) fun h => h.symm
  pendingBundles := h.pendingBundles.of_perm (hw.map _)
  outstanding := h.outstanding.trans (hw.map _)
  files := h.files.of_perm ((hk.map _).append_left _)

/-- The members that have to do with lengths and lists do not matter. -/
theorem congr (h : s.Located waiting kept) {s' : SimpleBundleStorage}
    (hpending : s'.pendingBundles = s.pendingBundles) (hstoring : s'.storing = s.storing)
    (hdatastore : s'.datastore = s.datastore) : s'.Located waiting kept where
  comparable := h.comparable
  pendingBundles := hpending ▸ h.pendingBundles
  outstanding := by
    rw [SimpleBundleStorage.outstanding, hstoring, hdatastore]
    exact h.outstanding
  files := hdatastore ▸ h.files

/-- Tasks that remove files are queued. -/
theorem with_removes (h : s.Located waiting kept) {tasks : List Task}
    (ht : tasks.filterMap Task.container? = []) :
    { s with datastore := { s.datastore with tasks := s.datastore.tasks ++ tasks } }.Located
      waiting kept where
  comparable := h.comparable
  pendingBundles := h.pendingBundles
  outstanding := (outstanding_removes s ht).symm ▸ h.outstanding
  files := h.files

/-- **A bundle is stored** whose identifier can be told from the others. -/
theorem insert (h : s.Located waiting kept) {node : LocalNode} {b : Bundle}
    (hb : ∀ u ∈ waiting ++ kept, u.id.Comparable b.toBundleID) :
    (s.insert node c b).Located (.ofStore node c b :: waiting) kept where
  comparable := List.pairwise_cons.2 ⟨fun u hu => (hb u hu).symm, h.comparable⟩
  pendingBundles := h.pendingBundles.assign _
    (ranked_hash (r := .ofStore node c b) fun u hu => hb u (List.mem_append_left _ hu))
  outstanding := (outstanding_insert s node c b).trans (h.outstanding.cons _)
  files := h.files

/-- A container is handed over to the worker. -/
theorem handOver (h : s.Located waiting kept) (index : ℕ) :
    (s.handOver index).Located waiting kept := by
  have houtstanding := outstanding_handOver s index
  rw [SimpleBundleStorage.handOver] at houtstanding ⊢
  split at houtstanding
  · exact ⟨h.comparable, h.pendingBundles, houtstanding.trans h.outstanding, h.files⟩
  · exact h

/-- The charge of a container whose callback is outstanding. -/
theorem exists_waiting (h : s.Located waiting kept) {hash : Bytes} {container : Container}
    (hmem : (hash, container) ∈ s.outstanding) :
    ∃ r t, r.hash = hash ∧ r.container = container ∧ waiting.Perm (r :: t) := by
  obtain ⟨r, hr, hentry⟩ := List.mem_map.1 (h.outstanding.mem_iff.1 hmem)
  obtain ⟨hhash, hcontainer⟩ := Prod.mk.inj hentry
  obtain ⟨l₁, l₂, rfl⟩ := List.append_of_mem hr
  exact ⟨r, l₁ ++ l₂, hhash, hcontainer, List.perm_middle⟩

/-- The other files do not have the name of the first. -/
theorem filter_hash (h : kept.Pairwise fun r t => r.id.Comparable t.id)
    (hperm : kept.Perm (r :: t)) :
    (kept.filter fun u => decide (u.hash ≠ r.hash)).Perm t := by
  have hr := (List.pairwise_cons.1 (h.perm hperm fun h => h.symm)).1
  refine (hperm.filter _).trans (.of_eq ?_)
  rw [List.filter_cons_of_neg (by simp), List.filter_eq_self]
  exact fun u hu => decide_eq_true (hr u hu).fileName_ne.symm

/-- **The worker does the file operation of the next task.** -/
theorem work (h : s.Located waiting kept) (hcurrent : s.datastore.current = none) (fails : Bool) :
    { s with datastore := s.datastore.work fails }.Located waiting
      (remaining (s.datastore.work fails).current kept) := by
  have hfiles := h.files
  rw [hcurrent] at hfiles
  change Holds _ _ _ (kept.map Charge.entry) at hfiles
  rw [DataStorage.work, hcurrent]
  cases htasks : s.datastore.tasks with
  | nil =>
      dsimp only
      rw [hcurrent]
      exact h
  | cons task tasks =>
      have houtstanding {outcome files} : SimpleBundleStorage.outstanding
          { s with datastore := ⟨tasks, files, some (task, outcome)⟩ } = s.outstanding :=
        outstanding_work hcurrent htasks files
      cases task with
      | store hash container =>
          have hmem : (hash, container) ∈ s.outstanding := by
            rw [SimpleBundleStorage.outstanding, hcurrent, htasks]
            exact List.mem_append_right _ List.mem_cons_self
          obtain ⟨u, t, rfl, rfl, hperm⟩ := h.exists_waiting hmem
          have hu : u ∈ waiting := hperm.mem_iff.2 List.mem_cons_self
          have hassign := hfiles.assign u.container (ranked_hash (f := Charge.container)
            fun v hv => ((List.pairwise_append.1 h.comparable).2.2 u hu v hv).symm)
          dsimp only
          split_ifs
          · exact ⟨h.comparable, h.pendingBundles, houtstanding ▸ h.outstanding, hfiles⟩
          · exact ⟨h.comparable, h.pendingBundles, houtstanding ▸ h.outstanding, hassign⟩
          · exact ⟨h.comparable, h.pendingBundles, houtstanding ▸ h.outstanding, hassign⟩
      | remove hash =>
          dsimp only
          split_ifs with hfails
          · exact ⟨h.comparable, h.pendingBundles, houtstanding ▸ h.outstanding, hfiles⟩
          · rcases exists_perm_or kept hash with ⟨r, t, rfl, hperm⟩ | hne
            · have hcomparable := (List.pairwise_append.1 h.comparable).2.1
              have hfilter := filter_hash hcomparable hperm
              have hr := (List.pairwise_cons.1 (hcomparable.perm hperm fun h => h.symm)).1
              have hsub : (waiting ++ kept.filter fun u => decide (u.hash ≠ r.hash)).Sublist
                  (waiting ++ kept) := List.filter_sublist.append_left _
              refine ⟨h.comparable.sublist hsub, h.pendingBundles,
                houtstanding ▸ h.outstanding, .of_perm ?_ (hfilter.map _).symm⟩
              exact (hfiles.of_perm (hperm.map _)).erase (a := r.entry)
                (DataStorage.equivalent_self _) (ranked_hash (f := Charge.container)
                  fun u hu => (hr u hu).symm)
            · refine absurd (.inr (hfiles.find?_eq_none fun x hx => ?_)) hfails
              obtain ⟨u, hu, rfl⟩ := List.mem_map.1 hx
              exact DataStorage.ranked_of_ne (hne u hu)

/-- **The worker calls back** for a container: its bundle leaves the memory, and its file stays
unless it could not be written. -/
theorem erasePending (h : s.Located waiting kept) {hash : Bytes} {container : Container}
    {outcome : FileOutcome}
    (hcurrent : s.datastore.current = some (.store hash container, outcome)) (fresh : Bundle) :
    ∃ r t, r.hash = hash ∧ r.container = container ∧ waiting.Perm (r :: t) ∧
      s.pendingBundle fresh hash = r.kept ∧
      SimpleBundleStorage.Located
        ({ s with datastore := { s.datastore with current := none } }.erasePending hash) t
        (if outcome = .failed then kept else r :: kept) := by
  have houtstanding := outstanding_stored hcurrent
  obtain ⟨r, t, rfl, rfl, hperm⟩ :=
    h.exists_waiting (houtstanding.mem_iff.2 List.mem_cons_self)
  have hr := h.of_perm hperm (.refl _)
  have hranked := ranked_hash (f := Charge.kept) fun u hu =>
    ((List.pairwise_cons.1 (List.pairwise_append.1 hr.comparable).1).1 u hu).symm
  have hequiv := DataStorage.equivalent_self r.hash
  have hfind : s.pendingBundle fresh r.hash = r.kept := by
    rw [pendingBundle, hr.pendingBundles.find?_eq_some hequiv hranked]
  have hrest := (houtstanding.symm.trans hr.outstanding).cons_inv
  have hfiles := h.files
  rw [hcurrent] at hfiles
  refine ⟨r, t, rfl, rfl, hperm, hfind, ?_, hr.pendingBundles.erase hequiv hranked, hrest, ?_⟩
  · split_ifs
    · exact (List.pairwise_cons.1 hr.comparable).2
    · exact hr.comparable.perm List.perm_middle.symm fun h => h.symm
  · cases outcome with
    | done => exact hfiles
    | failed => exact hfiles
    | incomplete => exact hfiles

/-- The worker lets go of a task whose callback does nothing to what is in memory. -/
theorem with_current (h : s.Located waiting kept)
    (hwritten : written s.datastore.current = [])
    (hcontainer : (s.datastore.current.toList.map Prod.fst).filterMap Task.container? = []) :
    { s with datastore := { s.datastore with current := none } }.Located waiting kept where
  comparable := h.comparable
  pendingBundles := h.pendingBundles
  outstanding := (outstanding_current hcontainer).symm ▸ h.outstanding
  files := by
    have hfiles := h.files
    rwa [hwritten] at hfiles

/-- The meta data under which a file is entered does not matter. -/
theorem with_storedAs (h : s.Located waiting (r :: kept)) {m : MetaBundle}
    (hm : m.toBundleID = r.container.bundle.toBundleID) :
    s.Located waiting ({ r with storedAs := m, storedAs_id := hm } :: kept) where
  comparable := by
    have hcomparable := h.comparable
    rw [List.pairwise_append, List.pairwise_cons] at hcomparable ⊢
    refine ⟨hcomparable.1, hcomparable.2.1, fun u hu v hv => ?_⟩
    rcases List.mem_cons.1 hv with rfl | hv
    · exact hcomparable.2.2 u hu r List.mem_cons_self
    · exact hcomparable.2.2 u hu v (List.mem_cons_of_mem r hv)
  pendingBundles := h.pendingBundles
  outstanding := h.outstanding
  files := h.files

/-- A file is found at the start. -/
theorem restore (h : s.Located waiting kept) (hcurrent : s.datastore.current = none)
    {found : Container}
    (hfound : ∀ u ∈ waiting ++ kept, u.id.Comparable found.bundle.toBundleID) :
    (s.restore c found.bundle.toBundleID.fileName found).Located waiting
      (.ofFile c found :: kept) where
  comparable := by
    refine .perm (l := .ofFile c found :: (waiting ++ kept)) ?_ List.perm_middle.symm
      fun h => h.symm
    exact List.pairwise_cons.2 ⟨fun u hu => (hfound u hu).symm, h.comparable⟩
  pendingBundles := h.pendingBundles
  outstanding := h.outstanding
  files := by
    have hfiles := h.files
    rw [hcurrent] at hfiles
    change Holds _ _ _ (written s.datastore.current ++ _)
    rw [hcurrent]
    exact hfiles.assign _ (ranked_hash (r := .ofFile c found) (f := Charge.container) fun u hu =>
      hfound u (List.mem_append_right _ hu))

end Located

namespace Accounted

variable {s : SimpleBundleStorage} {waiting kept t : List Charge} {r : Charge} {c : Clock}

/-- The bundle list, the priority index and tasks that remove files do not matter. -/
theorem with_removes (h : s.Accounted waiting kept) (list : BundleList)
    (priorityIndex : List MetaBundle) {tasks : List Task}
    (ht : tasks.filterMap Task.container? = []) :
    { s with
      list := list, priorityIndex := priorityIndex
      datastore := { s.datastore with tasks := s.datastore.tasks ++ tasks } }.Accounted
      waiting kept where
  toCharged := ⟨h.comparable, h.bundleSize, h.currentsize⟩
  complete := h.complete
  current_ne := h.current_ne
  located := (h.located.with_removes ht).congr rfl rfl rfl
  storedBundles := h.storedBundles

/-- A bundle is removed in the background. -/
theorem removeById (h : s.Accounted waiting kept) (id : BundleID) :
    (s.removeById id).Accounted waiting kept := by
  rw [SimpleBundleStorage.removeById]
  split
  · exact h.with_removes _ _ rfl
  · exact h

/-- Expired bundles are removed in the background. -/
theorem expireLoop (h : s.Accounted waiting kept) (timestamp : UInt64) (es : List ExpiringBundle)
    (list : BundleList) :
    (BundleList.expireLoop timestamp eventBundleExpired es list s).2.Accounted waiting kept := by
  induction es generalizing list s with
  | nil => exact h
  | cons e es ih =>
      rw [BundleList.expireLoop]
      split_ifs
      · exact h
      · refine ih ?_ _
        rw [eventBundleExpired]
        split
        · exact h.with_removes s.list _ rfl
        · exact h

theorem mem_of_mem_remaining {current : Option (Task × FileOutcome)} {u : Charge}
    (hu : u ∈ remaining current kept) : u ∈ kept := by
  unfold remaining at hu
  split at hu
  · exact List.mem_of_mem_filter hu
  · exact hu

/-- **A bundle is stored** whose identifier can be told from those that are charged. -/
theorem insert (h : s.Accounted waiting kept) {node : LocalNode} {b : Bundle}
    (hb : ∀ u ∈ waiting ++ kept, u.id.Comparable b.toBundleID)
    (hcomplete : (⟨b, b.lengthAt c⟩ : Container).complete = true)
    (hsize : s.currentsize.toNat + (b.lengthAt c).toNat < 2 ^ 64) :
    (s.insert node c b).Accounted (.ofStore node c b :: waiting) kept where
  toCharged :=
    have hcharged := h.toCharged.charge (r := .ofStore node c b) hb hsize
    ⟨hcharged.comparable, hcharged.bundleSize, hcharged.currentsize⟩
  complete := List.forall_mem_cons.2 ⟨hcomplete, h.complete⟩
  current_ne := h.current_ne
  located := h.located.insert fun u hu => by
    rcases List.mem_append.1 hu with hu | hu
    · exact hb u (List.mem_append_left _ hu)
    · exact hb u (List.mem_append_right _ (mem_of_mem_remaining hu))
  storedBundles := h.storedBundles

/-- A container is handed over to the worker. -/
theorem handOver (h : s.Accounted waiting kept) (index : ℕ) :
    (s.handOver index).Accounted waiting kept := by
  have hlocated := h.located.handOver index
  rw [SimpleBundleStorage.handOver] at hlocated ⊢
  split at hlocated
  · exact ⟨⟨h.comparable, h.bundleSize, h.currentsize⟩, h.complete, h.current_ne, hlocated,
      h.storedBundles⟩
  · exact h

/-- The worker does the file operation of the next task. -/
theorem work (h : s.Accounted waiting kept) (fails : Bool) :
    { s with datastore := s.datastore.work fails }.Accounted waiting kept := by
  cases hcurrent : s.datastore.current with
  | some x =>
      have hwork : s.datastore.work fails = s.datastore := by rw [DataStorage.work, hcurrent]
      rw [hwork]
      exact h
  | none =>
      have hlocated := h.located
      rw [hcurrent] at hlocated
      refine ⟨⟨h.comparable, h.bundleSize, h.currentsize⟩, h.complete,
        DataStorage.work_ne_incomplete hcurrent (fun x hx => ?_) fails,
        hlocated.work hcurrent fails, h.storedBundles⟩
      have hmem : x ∈ s.outstanding := by
        rw [SimpleBundleStorage.outstanding, hcurrent]
        exact List.mem_append_right _ hx
      obtain ⟨u, hu, rfl⟩ := List.mem_map.1 (hlocated.outstanding.mem_iff.1 hmem)
      exact h.complete u hu

/-- The file of a bundle was written. -/
theorem stored {hash : Bytes} {container : Container} (h : s.Accounted waiting kept)
    (hcurrent : s.datastore.current = some (.store hash container, .done)) (fresh : Bundle) :
    ∃ waiting' kept', SimpleBundleStorage.Accounted
      (eventDataStorageStored { s with datastore := { s.datastore with current := none } } c fresh
        hash) waiting' kept' := by
  have hlocated := h.located
  rw [hcurrent] at hlocated
  obtain ⟨r, t, rfl, rfl, hperm, hpending, hlocated⟩ := hlocated.erasePending hcurrent fresh
  have hr := h.toCharged.of_perm (hperm.append_right kept)
  have hcharged := (hr.with_storedAs r.kept_id (m := .ofBundle c r.kept)).of_perm
    List.perm_middle.symm
  have hcomplete : ∀ u ∈ t, u.container.complete = true := fun u hu =>
    h.complete u (hperm.mem_iff.2 (List.mem_cons_of_mem r hu))
  have hstored : pendingBundle { s with datastore := { s.datastore with current := none } } fresh
    r.hash = r.kept := hpending
  rw [eventDataStorageStored, hstored]
  refine ⟨t, { r with storedAs := .ofBundle c r.kept, storedAs_id := r.kept_id } :: kept,
    ⟨hcharged.comparable, hcharged.bundleSize, hcharged.currentsize⟩, hcomplete,
    fun _ => nofun, (hlocated.with_storedAs r.kept_id).congr rfl rfl rfl, ?_⟩
  refine h.storedBundles.assign _ fun x hx => ?_
  obtain ⟨u, hu, rfl⟩ := List.mem_map.1 hx
  refine MetaBundle.ranked_of_comparable ?_
  have hid : (MetaBundle.ofBundle c r.kept).toBundleID = r.id := r.kept_id
  rw [u.storedAs_id, hid]
  exact hr.comparable_of_mem u (List.mem_append_right t hu)

/-- The file of a bundle could not be written. -/
theorem storeFailed {hash : Bytes} {container : Container} (h : s.Accounted waiting kept)
    (hcurrent : s.datastore.current = some (.store hash container, .failed)) (fresh : Bundle) :
    ∃ waiting' kept', SimpleBundleStorage.Accounted
      (eventDataStorageStoreFailed { s with datastore := { s.datastore with current := none } } c
        fresh hash) waiting' kept' := by
  have hlocated := h.located
  rw [hcurrent] at hlocated
  obtain ⟨r, t, rfl, rfl, hperm, hpending, hlocated⟩ := hlocated.erasePending hcurrent fresh
  have hcharged := (h.toCharged.of_perm (hperm.append_right kept)).release
    (m := .ofBundle c r.kept) r.kept_id
  have hcomplete : ∀ u ∈ t, u.container.complete = true := fun u hu =>
    h.complete u (hperm.mem_iff.2 (List.mem_cons_of_mem r hu))
  have hstored : pendingBundle { s with datastore := { s.datastore with current := none } } fresh
    r.hash = r.kept := hpending
  rw [eventDataStorageStoreFailed, hstored]
  exact ⟨t, kept, ⟨hcharged.comparable, hcharged.bundleSize, hcharged.currentsize⟩, hcomplete,
    fun _ => nofun, hlocated.congr rfl rfl rfl, h.storedBundles⟩

/-- The file of a bundle was removed. -/
theorem removed {hash : Bytes} (h : s.Accounted waiting kept)
    (hcurrent : s.datastore.current = some (.remove hash, .done)) :
    ∃ kept', SimpleBundleStorage.Accounted
      (eventDataStorageRemoved { s with datastore := { s.datastore with current := none } } hash)
      waiting kept' := by
  have hlocated := h.located.with_current (by rw [hcurrent]; rfl) (by rw [hcurrent]; rfl)
  rw [hcurrent, remaining] at hlocated
  rw [eventDataStorageRemoved]
  cases hfind : s.storedBundles.find? fun x => x.2 == hash with
  | none =>
      have hall : kept.filter (fun r => decide (r.hash ≠ hash)) = kept := by
        rw [List.filter_eq_self]
        intro u hu
        have hmem := h.storedBundles.perm.mem_iff.2 (List.mem_map_of_mem hu)
        have hne : u.hash ≠ hash := by simpa using List.find?_eq_none.1 hfind _ hmem
        exact decide_eq_true hne
      rw [hall] at hlocated
      exact ⟨kept, ⟨h.comparable, h.bundleSize, h.currentsize⟩, h.complete, fun _ => nofun,
        hlocated, h.storedBundles⟩
  | some x =>
      have hmem := h.storedBundles.perm.mem_iff.1 (List.mem_of_find?_eq_some hfind)
      obtain ⟨r, hr, rfl⟩ := List.mem_map.1 hmem
      obtain ⟨l₁, l₂, rfl⟩ := List.append_of_mem hr
      have hperm : (l₁ ++ r :: l₂).Perm (r :: (l₁ ++ l₂)) := List.perm_middle
      have hhash : r.hash = hash := by simpa using List.find?_some hfind
      have hcharged := (h.toCharged.of_perm ((hperm.append_left waiting).trans
        List.perm_middle)).release (m := r.storedAs) r.storedAs_id
      have hfilter := Located.filter_hash (List.pairwise_append.1 h.comparable).2.1 hperm
      rw [hhash] at hfilter
      have hstored := (h.storedBundles.of_perm (hperm.map _)).eraseP hfind
      exact ⟨l₁ ++ l₂, ⟨hcharged.comparable, hcharged.bundleSize, hcharged.currentsize⟩,
        h.complete, fun _ => nofun, (hlocated.of_perm (.refl _) hfilter).congr rfl rfl rfl,
        hstored⟩

/-- **The worker calls back.** -/
theorem callback (h : s.Accounted waiting kept) (fresh : Bundle) :
    ∃ waiting' kept', (s.callback c fresh).Accounted waiting' kept' := by
  rw [SimpleBundleStorage.callback]
  rcases hcurrent : s.datastore.current with _ | ⟨⟨hash, container⟩ | hash, _ | _ | _⟩
  · have hlocated := h.located.with_current (by rw [hcurrent]; rfl) (by rw [hcurrent]; rfl)
    rw [hcurrent] at hlocated
    exact ⟨waiting, kept, ⟨h.comparable, h.bundleSize, h.currentsize⟩, h.complete,
      fun _ => nofun, hlocated, h.storedBundles⟩
  · exact h.stored hcurrent fresh
  · exact h.storeFailed hcurrent fresh
  · exact absurd hcurrent (h.current_ne _)
  · exact ⟨waiting, h.removed hcurrent⟩
  · have hlocated := h.located.with_current (by rw [hcurrent]; rfl) (by rw [hcurrent]; rfl)
    rw [hcurrent] at hlocated
    exact ⟨waiting, kept, ⟨h.comparable, h.bundleSize, h.currentsize⟩, h.complete,
      fun _ => nofun, hlocated, h.storedBundles⟩
  · exact absurd hcurrent (h.current_ne _)

/-- A file is found at the start. -/
theorem restore (h : s.Accounted waiting kept) (hcurrent : s.datastore.current = none)
    {found : Container}
    (hfound : ∀ u ∈ waiting ++ kept, u.id.Comparable found.bundle.toBundleID)
    (hsize : s.currentsize.toNat + found.charged.toNat < 2 ^ 64) :
    (s.restore c found.bundle.toBundleID.fileName found).Accounted waiting
      (.ofFile c found :: kept) := by
  have hcharged := (h.toCharged.charge (r := .ofFile c found) hfound hsize).of_perm
    List.perm_middle.symm
  have hlocated := h.located
  rw [hcurrent] at hlocated
  refine ⟨⟨hcharged.comparable, hcharged.bundleSize, hcharged.currentsize⟩, h.complete,
    h.current_ne, ?_, h.storedBundles.assign _ fun x hx => ?_⟩
  · change SimpleBundleStorage.Located _ waiting (remaining s.datastore.current _)
    rw [hcurrent]
    exact hlocated.restore hcurrent hfound
  · obtain ⟨u, hu, rfl⟩ := List.mem_map.1 hx
    exact MetaBundle.ranked_of_comparable
      (u.storedAs_id ▸ hfound u (List.mem_append_right _ hu))

end Accounted

theorem accounted_create (maxsize : UInt64) : (create maxsize).Accounted [] [] where
  comparable := .nil
  bundleSize := OrderedSet.holds_nil
  currentsize := rfl
  complete := fun _ h => absurd h List.not_mem_nil
  current_ne := fun _ => nofun
  located := ⟨.nil, OrderedSet.holds_nil, .nil, OrderedSet.holds_nil⟩
  storedBundles := OrderedSet.holds_nil


/-- **A sound step keeps the account.** -/
theorem accounted_step {s : SimpleBundleStorage} {waiting kept : List Charge}
    (h : s.Accounted waiting kept) {a : Action} (hsound : s.Sound a) :
    ∃ waiting' kept', (s.step a).Accounted waiting' kept' := by
  cases a with
  | restore c hash found =>
      obtain ⟨hquiet, rfl, hfound, hsize⟩ := hsound
      exact ⟨_, _, h.restore hquiet.2.2 (h.toCharged.comparable_of_bundleSize hfound) hsize⟩
  | store node c b =>
      rw [step]
      split_ifs with hexceeds
      · exact ⟨_, _, h⟩
      · obtain ⟨hb, hcomplete, hsize⟩ := hsound (Bool.eq_false_iff.2 hexceeds)
        exact ⟨_, _, h.insert (h.toCharged.comparable_of_bundleSize hb) hcomplete hsize⟩
  | handOver index => exact ⟨_, _, h.handOver index⟩
  | get env age id =>
      rw [step]
      split
      · exact ⟨_, _, h.removeById id⟩
      · exact ⟨_, _, h⟩
  | removeById id => exact ⟨_, _, h.removeById id⟩
  | removeByFilter contains =>
      rw [step]
      split
      · exact ⟨_, _, h.with_removes _ _ rfl⟩
      · exact ⟨_, _, h⟩
  | clear =>
      have hnone : waiting ++ kept = [] := by
        have hperm := h.bundleSize.perm
        rw [show s.bundleSize = [] from hsound] at hperm
        exact List.map_eq_nil_iff.1 hperm.nil_eq.symm
      have hzero : s.currentsize = 0 := by
        have hsum := h.currentsize
        rw [hnone] at hsum
        exact UInt64.toNat_inj.1 hsum
      rw [step, ← hzero]
      refine ⟨_, _, h.with_removes _ _ ?_⟩
      rw [List.filterMap_map]
      exact List.filterMap_eq_nil_iff.2 fun _ _ => rfl
  | expire c timestamp =>
      rw [step, BundleList.expire]
      split_ifs
      · have hloop := h.expireLoop timestamp s.list.expiring s.list
        exact ⟨_, _, ⟨hloop.comparable, hloop.bundleSize, hloop.currentsize⟩, hloop.complete,
          hloop.current_ne, hloop.located.congr rfl rfl rfl, hloop.storedBundles⟩
      · exact ⟨_, _, h⟩
  | work fails => exact ⟨_, _, h.work fails⟩
  | callback c fresh => exact h.callback fresh

/-- Behind every run of sound steps the storage is accounted. -/
theorem charged_run {maxsize : UInt64} {actions : List Action} {s : SimpleBundleStorage}
    (h : Transition.Run (fun s a s' => s' = s.step a) Sound (create maxsize) actions s) :
    ∃ waiting kept, s.Accounted waiting kept :=
  h.invariant (I := fun s => ∃ waiting kept, s.Accounted waiting kept)
    ⟨[], [], accounted_create maxsize⟩ fun s a s' ⟨_, _, hs⟩ hmeets hstep => by
      rw [hstep]
      exact accounted_step hs hmeets

/-- When nothing is outstanding, the size is the sum of the lengths of the files. -/
theorem Accounted.currentsize_eq {s : SimpleBundleStorage} {waiting kept : List Charge}
    (h : s.Accounted waiting kept) (hquiet : s.Quiescent) :
    s.currentsize.toNat = (s.datastore.files.map fun x => x.2.charged.toNat).sum := by
  obtain ⟨hstoring, htasks, hcurrent⟩ := hquiet
  have hlocated := h.located
  rw [hcurrent] at hlocated
  have hwaiting : waiting = [] := by
    have houtstanding := hlocated.outstanding
    rw [SimpleBundleStorage.outstanding, hstoring, htasks, hcurrent] at houtstanding
    exact List.map_eq_nil_iff.1 houtstanding.nil_eq.symm
  have hperm := hlocated.files.perm
  rw [hcurrent] at hperm
  change s.datastore.files.Perm (kept.map Charge.entry) at hperm
  rw [h.toCharged.currentsize, hwaiting, (hperm.map _).sum_eq, List.map_map]
  rfl

/-- **The sum of the lengths behind every run of sound steps.** No length is taken off that exceeds
the sum. When nothing is outstanding, the sum is that of the lengths charged for the bundles whose
files are present, and a bundle is refused just when they do not leave enough of a limit. -/
theorem charges_run {maxsize : UInt64} {actions : List Action} {s : SimpleBundleStorage}
    (h : Transition.Run (fun s a s' => s' = s.step a) Sound (create maxsize) actions s) :
    (∀ m, s.sizeOf m ≤ s.currentsize) ∧
      (s.Quiescent →
        s.currentsize.toNat = (s.datastore.files.map fun x => x.2.charged.toNat).sum ∧
          ∀ c b, s.currentsize.toNat + (b.lengthAt c).toNat < 2 ^ 64 →
            (s.exceeds c b = true ↔ s.maxsize ≠ 0 ∧ s.maxsize.toNat <
              (s.datastore.files.map fun x => x.2.charged.toNat).sum + (b.lengthAt c).toNat)) := by
  obtain ⟨waiting, kept, hs⟩ := charged_run h
  refine ⟨hs.toCharged.sizeOf_le, fun hquiet => ⟨hs.currentsize_eq hquiet, fun c b hsize => ?_⟩⟩
  have hpos : s.maxsize > 0 ↔ s.maxsize ≠ 0 := by
    rw [gt_iff_lt, UInt64.lt_iff_toNat_lt, Ne, ← UInt64.toNat_inj]
    exact Nat.pos_iff_ne_zero
  rw [exceeds, Bool.and_eq_true, decide_eq_true_iff, decide_eq_true_iff, hpos, gt_iff_lt,
    UInt64.lt_iff_toNat_lt, UInt64.toNat_add, Nat.mod_eq_of_lt hsize, hs.currentsize_eq hquiet]

/-- A bundle with a payload. -/
def sampleBundle (source : EID) : Bundle :=
  { (Bundle.create 7 1).pushBack { Block.newPayload with body := .payload [0x68, 0x69] } with
    source := source }

/-- The endpoint `dtn://a`. -/
def sampleEID : EID := ⟨EID.defaultScheme, ascii ['/', '/', 'a']⟩

/-- A node that has accepted no custody yet. -/
def sampleNode : LocalNode := ⟨.none, 0, 0, ⟨0, 0⟩⟩

/-- The steps that store the sample. -/
def storeSample (source : EID) : List Action :=
  [.store sampleNode (Clock.showing 100) (sampleBundle source), .handOver 0]

/-- The steps of the worker for one task. -/
def runTask : List Action := [.work false, .callback (Clock.showing 100) (Bundle.create 0 0)]

/-- A new storage after some steps. -/
def after (actions : List Action) : SimpleBundleStorage := actions.foldl step (create 0)

/-- The size is that of the files, when nothing is outstanding. -/
def Balanced (s : SimpleBundleStorage) : Prop :=
  s.Quiescent → s.currentsize.toNat = (s.datastore.files.map fun x => x.2.charged.toNat).sum

instance (s : SimpleBundleStorage) : Decidable s.Balanced := inferInstanceAs (Decidable (_ → _))

/-- The sample is stored and its file is written. -/
theorem run_storeSample :
    Transition.Run (fun s a s' => s' = s.step a) Sound (create 0)
      (storeSample sampleEID ++ runTask) (after (storeSample sampleEID ++ runTask)) := by
  have hsound : (create 0).Sound
      (.store sampleNode (Clock.showing 100) (sampleBundle sampleEID)) := fun _ =>
    ⟨fun _ hx => absurd hx List.not_mem_nil, by decide +kernel, (Nat.zero_add _).trans_lt
      (UInt64.toNat_lt ((sampleBundle sampleEID).lengthAt (Clock.showing 100)))⟩
  have hhandOver : ∀ s : SimpleBundleStorage, s.Sound (.handOver 0) := fun _ => trivial
  have hwork : ∀ s : SimpleBundleStorage, s.Sound (.work false) := fun _ => trivial
  have hcallback : ∀ s : SimpleBundleStorage,
      s.Sound (.callback (Clock.showing 100) (Bundle.create 0 0)) := fun _ => trivial
  exact (((Transition.Run.nil.snoc hsound rfl).snoc (hhandOver _) rfl).snoc (hwork _) rfl).snoc
    (hcallback _) rfl

theorem charges_run_sample :
    let s := after (storeSample sampleEID ++ runTask)
    (s.Quiescent ∧ s.datastore.files.length = 1 ∧ s.currentsize ≠ 0) ∧
      (∀ m, s.sizeOf m ≤ s.currentsize) ∧
        (s.Quiescent →
          s.currentsize.toNat = (s.datastore.files.map fun x => x.2.charged.toNat).sum ∧
            ∀ c b, s.currentsize.toNat + (b.lengthAt c).toNat < 2 ^ 64 →
              (s.exceeds c b = true ↔ s.maxsize ≠ 0 ∧ s.maxsize.toNat <
                (s.datastore.files.map fun x => x.2.charged.toNat).sum +
                  (b.lengthAt c).toNat)) :=
  ⟨by decide +kernel, charges_run run_storeSample⟩

/-- **Storing a bundle again, a file that is shorter than predicted and clearing the storage break
the sum**: the length of a bundle that is stored twice is counted twice, that of a bundle with a
compressed header is not counted though its file is there, and behind `clear` a length is taken
off a sum of zero. -/
theorem not_charges_after :
    ¬ (after (storeSample sampleEID ++ storeSample sampleEID ++ runTask ++ runTask)).Balanced ∧
      ¬ (after (storeSample .none ++ runTask)).Balanced ∧
        let s := after (storeSample sampleEID ++ runTask ++ [.clear])
        s.currentsize < s.sizeOf (.ofBundle (Clock.showing 100) (sampleBundle sampleEID)) := by
  decide +kernel

end SimpleBundleStorage

end IbrDtn
