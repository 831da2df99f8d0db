import IbrDtn.Core.MemoryBundleLookup
import IbrDtn.Core.SQLiteTables
import IbrDtn.Core.SQLiteQuery

/-!
# The storage in memory beside the storage in a database

Both storages are given the same calls, and the worker of the one in the database is done with its
tasks before the next call.  The one in memory keeps a bundle once and compares identifiers with
`BundleID::operator==`; the one in the database adds a row whenever a whole bundle is stored, and
compares keys.  One waits until the expiry time of the clock has passed, the other expires a bundle
at its timestamp plus its lifetime.  Where these differences do not show, both storages report the
same bundles.

## Main definitions

* `StoragePair` : the two storages, and what they have reported as expired.
* `StoragePair.step` : the calls.
* `StoragePair.Same` : the storages report the same bundles.
* `StoragePair.Alike` : the calls that the storages take for the same.

## Main results

* `StoragePair.Agrees.step` : such a call keeps the bundles of both the same.
* `StoragePair.same_run` : behind every run of such calls, the storages report the same bundles.
-/

namespace IbrDtn

open SQLiteBundleStorage (addDeletion custodianFor sampleEnv sampleNode sampleWhole store_new)
open MemoryBundleStorage (Record)
open OrderedSet (Holds)
open Selection (select accepts)

/-- `MemoryBundleStorage::get(BundleFilterCallback&)`. -/
def MemoryBundleStorage.getFilter {ε : Type} (s : MemoryBundleStorage) (f : BundleFilter ε) :
    Except ε (List MetaBundle) :=
  select f.shouldAdd (if 0 < f.limit then f.limit else s.priorityIndex.length) s.priorityIndex

/-- The worker takes the given number of tasks, with the identifiers of the events that it raises.
-/
def SQLiteBundleStorage.runTasks :
    ℕ → SQLiteBundleStorage → List BundleID × SQLiteBundleStorage
  | 0, s => ([], s)
  | n + 1, s => (s.runTask.1 ++ (s.runTask.2.runTasks n).1, (s.runTask.2.runTasks n).2)

/-- The worker takes all tasks. None of them adds another one. -/
def SQLiteBundleStorage.drain (s : SQLiteBundleStorage) : List BundleID × SQLiteBundleStorage :=
  s.runTasks s.tasks.length

/-- The two storages, and the identifiers that they have reported as expired, each with the time of
the tick. -/
structure StoragePair where
  memory : MemoryBundleStorage
  database : SQLiteBundleStorage
  memoryExpired : List (UInt64 × BundleID)
  databaseExpired : List (UInt64 × BundleID)

namespace StoragePair

/-- Two new storages, without a limit of the size. -/
def create : StoragePair := ⟨.create 0, .create, [], []⟩

/-- The calls, and the ticks of the clock. -/
inductive Call where
  | store (c : Clock) (node : LocalNode) (env : SQLiteBundleStorage.StoreEnv) (b : Bundle)
  | remove (c : Clock) (i : BundleID)
  | tick (c : Clock) (timestamp : UInt64)

/-- The identifiers of the events that the expiry loop of the storage in memory raises. -/
def dueIds (m : MemoryBundleStorage) (c : Clock) (timestamp : UInt64) : List BundleID :=
  if c.hasQuality then (m.due timestamp).map fun e => e.bundle.toBundleID else []

/-- Both storages behind a call, when the worker is done. -/
def step (p : StoragePair) : Call → StoragePair
  | .store c node env b =>
      { p with
        memory := (p.memory.step c (.store b)).2
        database := (p.database.store c node env b).2.drain.2 }
  | .remove c i =>
      { p with
        memory := (p.memory.step c (.removeById i)).2
        database := (p.database.remove i).drain.2 }
  | .tick c timestamp =>
      { memory := (p.memory.step c (.expire timestamp)).2
        database := (p.database.tick timestamp).drain.2
        memoryExpired := p.memoryExpired ++
          (dueIds p.memory c timestamp).map fun i => (timestamp, i)
        databaseExpired := p.databaseExpired ++
          (p.database.tick timestamp).drain.1.map fun i => (timestamp, i) }

/-! ### What the storages report -/

/-- A bundle is found under its own identifier. -/
def Finds {ε : Type} (get : BundleID → Except ε Bundle) (j : BundleID) : Prop :=
  ∃ b, get j = .ok b ∧ b.toBundleID = j

/-- A bundle is found under some identifier. -/
def Reports {ε : Type} (get : BundleID → Except ε Bundle) (j : BundleID) : Prop :=
  ∃ i b, get i = .ok b ∧ b.toBundleID = j

/-- **The storages report the same bundles**: they have as many, find the same identifiers, select
the same for every filter that decides by the identifier, and have expired the same at the same
ticks. -/
structure Same (p : StoragePair) : Prop where
  count : p.memory.bundles.length = p.database.count
  empty : p.memory.bundles.isEmpty = p.database.empty
  got : ∀ env : SQLiteBundleStorage.GetEnv, env.Healthy → env.created.fragmentoffset = 0 →
    ∀ j, (Finds p.memory.get j ↔ Finds (p.database.get env) j) ∧
      (Reports p.memory.get j ↔ Reports (p.database.get env) j)
  filtered : ∀ {ε : Type} (c : Clock) (f : BundleFilter ε) (wanted : BundleID → Bool),
    f.limit = 0 → (∀ m, f.shouldAdd m = .ok (wanted m.toBundleID)) →
      (∀ w, f.getWhere = some w → ∀ r ∈ p.database.database.bundles,
        wanted (SQLiteBundleStorage.readMeta c f r).toBundleID = true → w r = true) →
      ∀ rows, SQLiteBundleStorage.Returns f p.database.database rows →
        ∃ ms ns, p.memory.getFilter f = .ok ms ∧ p.database.getFilter c f rows = some (.ok ns) ∧
          (ms.map MetaBundle.toBundleID).Perm (ns.map MetaBundle.toBundleID)
  expired : p.memoryExpired.Perm p.databaseExpired

/-! ### Calls that the storages take for the same -/

/-- A bundle that is no fragment, and whose source is read from its column again. -/
structure Whole (b : Bundle) : Prop where
  fragment : b.get PrimaryBlock.fragment = false
  offset : b.fragmentoffset = 0
  source : columnEID b.source.getString = b.source

/-- **The calls that the storages take for the same.** A bundle that is stored is whole and apart
from the stored ones, it can be loaded again, its expiry time is regular, and nothing fails. An
identifier that is removed is equal to that of a stored bundle exactly if it has its key, and that
bundle is still seen to expire at the time at which it was seen to when it was stored. No tick has a
time between the two at which the storages let a stored bundle expire: the sum of its timestamp and
its lifetime, and the moment behind the time that is in the expiry list. -/
def Alike (p : StoragePair) : Call → Prop
  | .store _ _ env b => Whole b ∧ SQLiteBundleStorage.Storable b ∧ Regular b.storedExpiry ∧
      (∀ b' ∈ p.memory.bundles, b'.toBundleID.Apart b.toBundleID) ∧
        env.rowError = none ∧ SQLiteBundleStorage.StoreEnv.Works env.block p.database.database
  | .remove c i => ∀ b ∈ p.memory.bundles,
      (i.eq b.toBundleID = true ↔ i.rowKey = b.toBundleID.rowKey) ∧
        (i.eq b.toBundleID = true → ∀ e ∈ p.memory.list.expiring,
          e.bundle.toBundleID = b.toBundleID → e.expiretime = c.getExpireTime b)
  | .tick c timestamp => c.hasQuality = true ∧ timestamp.toNat < 2 ^ 63 ∧
      ∀ b ∈ p.memory.bundles, ∀ e ∈ p.memory.list.expiring,
        e.bundle.toBundleID = b.toBundleID →
          ¬ (b.storedExpiry ≤ timestamp ∧ timestamp ≤ e.expiretime) ∧
            ¬ (e.expiretime < timestamp ∧ timestamp < b.storedExpiry)

/-! ### Rows of whole bundles -/

/-- The row without its custodian, which the storage may replace. -/
def withoutCustodian (r : BundleRow) : BundleRow := { r with custodian := [] }

/-- The row of an entry. -/
def row (r : Record) : BundleRow := withoutCustodian (.ofBundle r.clock r.bundle)

/-- A row that shows a whole bundle, up to the custodian. -/
def Shows (t : BundleRow) (r : Record) : Prop := withoutCustodian t = row r

variable {t : BundleRow} {r x : Record}

/-- The key of a whole bundle has no offset. -/
theorem Whole.rowKey (h : Whole r.bundle) :
    r.id.rowKey = ⟨r.id.source.getString, r.id.timestamp, r.id.sequencenumber, none⟩ := by
  have hfragment : r.id.fragment = false := h.fragment
  rw [BundleID.rowKey, hfragment]
  rfl

/-- Whole bundles that are apart have different keys. -/
theorem Whole.rowKey_ne (hr : Whole r.bundle) (hx : Whole x.bundle) (h : r.id.Apart x.id) :
    r.id.rowKey ≠ x.id.rowKey := by
  rw [hr.rowKey, hx.rowKey]
  intro heq
  obtain ⟨hsource, htime, hseq, -⟩ := RowKey.mk.inj heq
  have hfragment := ((h hsource).2 htime hseq).1
  rw [show r.id.fragment = false from hr.fragment] at hfragment
  exact Bool.noConfusion hfragment

namespace Shows

theorem toRowKey (h : Shows t r) : t.toRowKey = r.id.rowKey := congrArg BundleRow.toRowKey h

theorem expiretime (h : Shows t r) : t.expiretime = r.bundle.storedExpiry :=
  congrArg BundleRow.expiretime h

/-- The event of the expiry has the identifier of the bundle. -/
theorem bundleID (h : Shows t r) (hr : Whole r.bundle) : t.bundleID = r.id := by
  have hcolumns : (withoutCustodian t).bundleID = (row r).bundleID := congrArg BundleRow.bundleID h
  have hkey : (row r).toRowKey = r.id.rowKey := rfl
  have hsource : (row r).source = r.bundle.source.getString := rfl
  change (withoutCustodian t).bundleID = r.id
  rw [hcolumns, BundleRow.bundleID, RowKey.bundleID, hkey, hr.rowKey, hsource, hr.source]
  exact (BundleID.mk.injEq ..).mpr ⟨rfl, rfl, rfl, hr.fragment.symm, hr.offset.symm⟩

/-- The flags that are read from a row say that a bundle is no fragment. -/
theorem fragment (h : Shows t r) (hr : Whole r.bundle) :
    FlagWord.has (ofColumnInt t.procflags) PrimaryBlock.fragment = false := by
  have hflags : t.procflags = r.bundle.procflags.toUInt32 := congrArg BundleRow.procflags h
  rw [hflags, has_fragment_ofColumnInt]
  exact hr.fragment

/-- A filter is offered the identifier of the bundle. -/
theorem readMeta {ε : Type} (h : Shows t r) (hr : Whole r.bundle) (c : Clock) (f : BundleFilter ε) :
    (SQLiteBundleStorage.readMeta c f t).toBundleID = r.id := by
  have hsource : t.source = r.bundle.source.getString := congrArg BundleRow.source h
  have hkey := h.toRowKey.trans hr.rowKey
  rw [SQLiteBundleStorage.readMeta, BundleRow.metaBundle]
  dsimp only
  rw [h.fragment hr, hsource, hr.source, hkey]
  exact (BundleID.mk.injEq ..).mpr ⟨rfl, rfl, rfl, hr.fragment.symm, hr.offset.symm⟩

/-- The bundle that is read from a row has the identifier of the bundle that was stored. -/
theorem primaryBlock (h : Shows t r) (hr : Whole r.bundle) {created : PrimaryBlock}
    (hcreated : created.fragmentoffset = 0) :
    (t.primaryBlock created).toBundleID = r.id := by
  have hsource : t.source = r.bundle.source.getString := congrArg BundleRow.source h
  have hkey := h.toRowKey.trans hr.rowKey
  have hfragment := h.fragment hr
  rw [BundleRow.primaryBlock, PrimaryBlock.toBundleID, PrimaryBlock.get]
  dsimp only
  rw [hfragment, hsource, hr.source, hkey]
  exact (BundleID.mk.injEq ..).mpr ⟨rfl, rfl, rfl, hr.fragment.symm, hcreated.trans hr.offset.symm⟩

end Shows

/-! ### The invariant -/

/-- **Both storages keep the bundles of a ledger**, which are whole and have blocks in the tables;
and there is neither a task nor a mark. -/
structure Agrees (p : StoragePair) (l : List Record) : Prop where
  memory : p.memory.Tracked l
  maxsize : p.memory.maxsize = 0
  tables : p.database.Tables
  tasks : p.database.tasks = []
  marks : p.database.deletionList = []
  rows : (p.database.database.bundles.map withoutCustodian).Perm (l.map row)
  whole : ∀ r ∈ l, Whole r.bundle
  block : ∀ r ∈ l, ∃ b ∈ p.database.database.blocks, b.toRowKey = r.id.rowKey
  expired : p.memoryExpired.Perm p.databaseExpired

theorem agrees_create : create.Agrees [] :=
  ⟨MemoryBundleStorage.tracked_create 0, rfl, SQLiteBundleStorage.tables_create, rfl, rfl, .nil,
    fun _ h => absurd h List.not_mem_nil, fun _ h => absurd h List.not_mem_nil, .nil⟩

namespace Agrees

variable {p : StoragePair} {l : List Record} (h : p.Agrees l)

include h

/-- A row shows a bundle of the ledger. -/
theorem exists_shows {t : BundleRow} (ht : t ∈ p.database.database.bundles) :
    ∃ r ∈ l, Shows t r := by
  obtain ⟨r, hr, heq⟩ := List.mem_map.1 (h.rows.mem_iff.1 (List.mem_map_of_mem ht))
  exact ⟨r, hr, heq.symm⟩

/-- A bundle of the ledger is shown by a row. -/
theorem exists_row {r : Record} (hr : r ∈ l) : ∃ t ∈ p.database.database.bundles, Shows t r :=
  List.mem_map.1 (h.rows.mem_iff.2 (List.mem_map_of_mem hr))

/-- What is read from the rows is what the ledger says, if it does so for each row. -/
theorem map_perm {α : Type} {f : BundleRow → α} {g : Record → α}
    (hg : ∀ t, ∀ r ∈ l, Shows t r → f t = g r) :
    (p.database.database.bundles.map f).Perm (l.map g) := by
  have hleft : p.database.database.bundles.map f =
      (p.database.database.bundles.map withoutCustodian).map f := by
    rw [List.map_map]
    refine List.map_congr_left fun t ht => ?_
    obtain ⟨r, hr, hshows⟩ := h.exists_shows ht
    exact (hg t r hr hshows).trans (hg (withoutCustodian t) r hr hshows).symm
  have hright : (l.map row).map f = l.map g := by
    rw [List.map_map]
    exact List.map_congr_left fun r hr => hg _ r hr rfl
  rw [hleft, ← hright]
  exact h.rows.map f

/-- **What the storage in memory finds** are the bundles of the ledger. -/
theorem memory_get {i : BundleID} {b : Bundle} (hget : p.memory.get i = .ok b) :
    ∃ r ∈ l, r.id = b.toBundleID := by
  rw [MemoryBundleStorage.get] at hget
  rcases hfind : p.memory.bundles.find? fun b => i.eq b.toBundleID with - | b'
  · rw [hfind] at hget
    cases hget
  · rw [hfind] at hget
    obtain rfl : b' = b := Except.ok.inj hget
    obtain ⟨r, hr, rfl⟩ :=
      List.mem_map.1 (h.memory.bundles.perm.mem_iff.1 (List.mem_of_find?_eq_some hfind))
    exact ⟨r, hr, rfl⟩

theorem memory_finds {r : Record} (hr : r ∈ l) : Finds p.memory.get r.id := by
  obtain ⟨l₁, l₂, rfl⟩ := List.append_of_mem hr
  have hfind : p.memory.bundles.find? (fun b => r.id.eq b.toBundleID) = some r.bundle :=
    (h.memory.of_perm List.perm_middle).find?_bundle
  refine ⟨r.bundle, ?_, rfl⟩
  rw [MemoryBundleStorage.get, hfind]

/-- A key of the ledger can be fetched, and what is fetched is a bundle of the ledger. -/
theorem database_get {env : SQLiteBundleStorage.GetEnv} (henv : env.Healthy)
    (hcreated : env.created.fragmentoffset = 0) {i : BundleID} {r : Record} (hr : r ∈ l)
    (hkey : r.id.rowKey = i.rowKey) :
    ∃ b, p.database.get env i = .ok b ∧ ∃ x ∈ l, x.id.rowKey = i.rowKey ∧ b.toBundleID = x.id := by
  obtain ⟨t, ht, hshows⟩ := h.exists_row hr
  obtain ⟨y, hy, hykey⟩ := h.block r hr
  obtain ⟨b, hb, u, hu, hukey, hprimary⟩ := h.tables.exists_get henv
    ⟨t, ht, hshows.toRowKey.trans hkey⟩ ⟨y, hy, hykey.trans hkey⟩ fun m hm => by
      rw [h.marks] at hm
      exact absurd hm List.not_mem_nil
  obtain ⟨x, hx, hxshows⟩ := h.exists_shows hu
  refine ⟨b, hb, x, hx, hxshows.toRowKey.symm.trans hukey, ?_⟩
  rw [hprimary]
  exact hxshows.primaryBlock (h.whole x hx) hcreated

/-- The bundles of the ledger have keys of their own. -/
theorem eq_of_rowKey_eq {r x : Record} (hr : r ∈ l) (hx : x ∈ l)
    (hkey : x.id.rowKey = r.id.rowKey) : x = r := by
  by_contra hne
  have hsymm : Std.Symm fun r x : Record => r.id.Apart x.id := ⟨fun _ _ h => h.symm⟩
  exact (h.whole x hx).rowKey_ne (h.whole r hr) (h.memory.apart.forall hx hr hne) hkey

/-- **What the storage in a database finds** are the bundles of the ledger. -/
theorem database_finds {env : SQLiteBundleStorage.GetEnv} (henv : env.Healthy)
    (hcreated : env.created.fragmentoffset = 0) {r : Record} (hr : r ∈ l) :
    Finds (p.database.get env) r.id := by
  obtain ⟨b, hb, x, hx, hkey, hid⟩ := h.database_get henv hcreated hr rfl
  rw [h.eq_of_rowKey_eq hr hx hkey] at hid
  exact ⟨b, hb, hid⟩

/-- **What a filter selects from the storage in memory**, if it decides by the identifier. -/
theorem memory_filtered {ε : Type} {f : BundleFilter ε} {wanted : BundleID → Bool}
    (hlimit : f.limit = 0) (hwanted : ∀ m, f.shouldAdd m = .ok (wanted m.toBundleID)) :
    ∃ ms, p.memory.getFilter f = .ok ms ∧
      (ms.map MetaBundle.toBundleID).Perm ((l.map Record.id).filter wanted) := by
  have hnot : ¬ 0 < f.limit := hlimit ▸ Nat.lt_irrefl 0
  have haccepts : accepts f.shouldAdd = wanted ∘ MetaBundle.toBundleID := by
    refine funext fun m => ?_
    rw [accepts, hwanted]
    rfl
  refine ⟨p.memory.priorityIndex.filter (wanted ∘ MetaBundle.toBundleID), ?_, ?_⟩
  · rw [MemoryBundleStorage.getFilter, if_neg hnot,
      Selection.select_eq_ok fun m _ => ⟨_, hwanted m⟩,
      List.take_of_length_le (List.length_filter_le _ _), haccepts]
  · rw [← List.filter_map]
    have hperm := h.memory.priorityIndex.perm.map MetaBundle.toBundleID
    rw [List.map_map] at hperm
    exact hperm.filter wanted

/-- **What a filter selects from the storage in a database**, if its condition is met by what it
wants. -/
theorem database_filtered {ε : Type} {c : Clock} {f : BundleFilter ε} {wanted : BundleID → Bool}
    (hlimit : f.limit = 0) (hwanted : ∀ m, f.shouldAdd m = .ok (wanted m.toBundleID))
    (hwhere : ∀ w, f.getWhere = some w → ∀ r ∈ p.database.database.bundles,
      wanted (SQLiteBundleStorage.readMeta c f r).toBundleID = true → w r = true)
    {rows : List BundleRow} (hrows : SQLiteBundleStorage.Returns f p.database.database rows) :
    ∃ ns, p.database.getFilter c f rows = some (.ok ns) ∧
      (ns.map MetaBundle.toBundleID).Perm ((l.map Record.id).filter wanted) := by
  let idOf (t : BundleRow) : BundleID := (SQLiteBundleStorage.readMeta c f t).toBundleID
  have hnot : ¬ 0 < f.limit := hlimit ▸ Nat.lt_irrefl 0
  have hoffer (t : BundleRow) : p.database.offer c f t = .ok (wanted (idOf t)) := by
    have hhidden : p.database.containsDeletion (idOf t) = false := by
      rw [SQLiteBundleStorage.containsDeletion, h.marks]
      rfl
    rw [SQLiteBundleStorage.offer, if_neg (by rw [hhidden]; exact Bool.false_ne_true), hwanted]
  have haccepts : accepts (p.database.offer c f) = wanted ∘ idOf := by
    refine funext fun t => ?_
    rw [accepts, hoffer]
    rfl
  refine ⟨(rows.filter (wanted ∘ idOf)).map (SQLiteBundleStorage.readMeta c f), ?_, ?_⟩
  · rw [SQLiteBundleStorage.getFilter_eq, if_neg hnot,
      Selection.select_eq_ok fun t _ => ⟨_, hoffer t⟩,
      List.take_of_length_le (List.length_filter_le _ _), haccepts]
    rfl
  · have hids : (p.database.database.bundles.map idOf).Perm (l.map Record.id) :=
      h.map_perm fun t r hr hshows => hshows.readMeta (h.whole r hr) c f
    have hselected : (rows.filter (wanted ∘ idOf)).Perm
        (p.database.database.bundles.filter (wanted ∘ idOf)) := by
      refine (hrows.perm.filter _).trans (List.Perm.of_eq ?_)
      rw [List.filter_filter]
      refine List.filter_congr fun t ht => ?_
      cases hw : f.getWhere with
      | none => simp
      | some w =>
          cases hwant : (wanted ∘ idOf) t with
          | false => rfl
          | true => simp [hwhere w hw t ht hwant]
    rw [List.map_map]
    refine (hselected.map idOf).trans ?_
    rw [← List.filter_map]
    exact hids.filter wanted

/-- **Storages that keep the bundles of a ledger report the same.** -/
theorem same : p.Same := by
  have hcount : p.memory.bundles.length = p.database.count := by
    have hmemory := h.memory.bundles.perm.length_eq
    have hrows := h.rows.length_eq
    rw [List.length_map] at hmemory
    rw [List.length_map, List.length_map] at hrows
    exact hmemory.trans hrows.symm
  refine ⟨hcount, ?_, fun env henv hcreated j => ?_, ?_, h.expired⟩
  · have hempty : p.memory.bundles = [] ↔ p.database.database.bundles = [] := by
      rw [← List.length_eq_zero_iff, hcount, ← List.length_eq_zero_iff]
      rfl
    rw [Bool.eq_iff_iff, List.isEmpty_iff, hempty, SQLiteBundleStorage.empty, List.isEmpty_iff]
  · have hmemory (i : BundleID) (b : Bundle) (hget : p.memory.get i = .ok b) :
        ∃ r ∈ l, r.id = b.toBundleID := h.memory_get hget
    have hdatabase (i : BundleID) (b : Bundle) (hget : p.database.get env i = .ok b) :
        ∃ r ∈ l, r.id = b.toBundleID := by
      obtain ⟨t, ht, hkey⟩ := SQLiteBundleStorage.exists_row_of_get hget
      obtain ⟨r, hr, hshows⟩ := h.exists_shows ht
      obtain ⟨b', hb', x, hx, -, hid⟩ := h.database_get henv hcreated hr
        (hshows.toRowKey.symm.trans hkey)
      obtain rfl : b' = b := Except.ok.inj (hb'.symm.trans hget)
      exact ⟨x, hx, hid.symm⟩
    constructor
    · constructor
      · rintro ⟨b, hb, rfl⟩
        obtain ⟨r, hr, hid⟩ := hmemory _ b hb
        exact hid ▸ h.database_finds henv hcreated hr
      · rintro ⟨b, hb, rfl⟩
        obtain ⟨r, hr, hid⟩ := hdatabase _ b hb
        exact hid ▸ h.memory_finds hr
    · constructor
      · rintro ⟨i, b, hb, rfl⟩
        obtain ⟨r, hr, hid⟩ := hmemory i b hb
        exact ⟨_, hid ▸ h.database_finds henv hcreated hr⟩
      · rintro ⟨i, b, hb, rfl⟩
        obtain ⟨r, hr, hid⟩ := hdatabase i b hb
        exact ⟨_, hid ▸ h.memory_finds hr⟩
  · intro ε c f wanted hlimit hwanted hwhere rows hrows
    obtain ⟨ms, hms, hmemory⟩ := h.memory_filtered hlimit hwanted
    obtain ⟨ns, hns, hdatabase⟩ := h.database_filtered hlimit hwanted hwhere hrows
    exact ⟨ms, ns, hms, hns, hmemory.trans hdatabase.symm⟩

/-- The rows that meet a condition show the bundles of the ledger that do. -/
theorem filter_rows {q : BundleRow → Bool} {k : Record → Bool}
    (hq : ∀ t ∈ p.database.database.bundles, ∀ r ∈ l, Shows t r → q t = k r)
    (hcustodian : ∀ t, q (withoutCustodian t) = q t) :
    ((p.database.database.bundles.filter q).map withoutCustodian).Perm ((l.filter k).map row) := by
  have hleft : (p.database.database.bundles.filter q).map withoutCustodian =
      (p.database.database.bundles.map withoutCustodian).filter q := by
    rw [List.filter_map]
    exact congrArg (List.map withoutCustodian)
      (List.filter_congr fun t _ => (hcustodian t).symm)
  have hright : (l.map row).filter q = (l.filter k).map row := by
    rw [List.filter_map]
    refine congrArg (List.map row) (List.filter_congr fun r hr => ?_)
    obtain ⟨t, ht, hshows⟩ := h.exists_row hr
    rw [← hq t ht r hr hshows, ← hcustodian t, show withoutCustodian t = row r from hshows]
    rfl
  rw [hleft, ← hright]
  exact h.rows.filter q

/-- **What is deleted from the tables**, if it is told for the rows of each bundle of the ledger. -/
theorem deleted (gone : BundleRow → Bool) (kept : Record → Bool)
    (hkept : ∀ t ∈ p.database.database.bundles, ∀ r ∈ l, Shows t r → gone t = !kept r)
    (hcustodian : ∀ t, gone (withoutCustodian t) = gone t) :
    (((p.database.database.delete gone).bundles.map withoutCustodian).Perm
      ((l.filter kept).map row)) ∧
    ∀ r ∈ l.filter kept, ∃ b ∈ (p.database.database.delete gone).blocks,
      b.toRowKey = r.id.rowKey := by
  refine ⟨h.filter_rows (fun t ht r hr hshows => ?_) fun t => congrArg Bool.not (hcustodian t),
    fun r hr => ?_⟩
  · rw [hkept t ht r hr hshows, Bool.not_not]
  · obtain ⟨hr, hrkept⟩ := List.mem_filter.1 hr
    obtain ⟨b, hb, hkey⟩ := h.block r hr
    refine ⟨b, Database.mem_blocks_delete.2 ⟨hb, fun t ht htgone heq => ?_⟩, hkey⟩
    obtain ⟨x, hx, hshows⟩ := h.exists_shows ht
    obtain rfl := h.eq_of_rowKey_eq hr hx (hshows.toRowKey.symm.trans (heq.trans hkey))
    rw [hkept t ht x hx hshows, hrkept] at htgone
    exact Bool.noConfusion htgone

/-- **A bundle is stored in both storages.** -/
theorem store {c : Clock} {node : LocalNode} {env : SQLiteBundleStorage.StoreEnv} {b : Bundle}
    (halike : p.Alike (.store c node env b)) :
    (p.step (.store c node env b)).Agrees (⟨b, c⟩ :: l) := by
  obtain ⟨hwhole, hstorable, hregular, happart, hrow, henv⟩ := halike
  have hmemory : (p.memory.step c (.store b)).2 = p.memory.insert c b := by
    have hexceeds : p.memory.exceeds c b = false := by
      rw [MemoryBundleStorage.exceeds, h.maxsize]
      rfl
    rw [MemoryBundleStorage.step, hexceeds]
    rfl
  obtain ⟨rows, files', hstore, hrows⟩ := store_new c node hrow henv
    fun hfragment => absurd (hwhole.fragment.symm.trans hfragment) Bool.false_ne_true
  have htables := h.tables.written henv hstorable.separable hregular hrows c
    (custodianFor c node b)
  have hdrain : (p.database.store c node env b).2.drain.2 = (p.database.store c node env b).2 := by
    have htasks : (p.database.store c node env b).2.tasks = [] := by
      rw [hstore]
      exact h.tasks
    rw [SQLiteBundleStorage.drain, htasks]
    rfl
  have hstep : p.step (.store c node env b) = { p with
      memory := p.memory.insert c b, database := (p.database.store c node env b).2 } := by
    rw [step, hmemory, hdrain]
  rw [hstep, hstore]
  refine ⟨h.memory.insert happart, (p.memory.maxsize_insert c b).trans h.maxsize, htables, h.tasks,
    h.marks, ?_, fun r hr => ?_, fun r hr => ?_, h.expired⟩
  · have hmap : ((p.database.database.bundles ++ [BundleRow.ofBundle c b]).map fun r =>
        { r with custodian := custodianFor c node b r }).map withoutCustodian =
        p.database.database.bundles.map withoutCustodian ++ [row ⟨b, c⟩] := by
      rw [List.map_map, List.map_append]
      rfl
    refine (List.Perm.of_eq hmap).trans (List.perm_append_comm.trans ?_)
    exact h.rows.cons _
  · rcases List.mem_cons.1 hr with rfl | hr
    · exact hwhole
    · exact h.whole r hr
  · rcases List.mem_cons.1 hr with rfl | hr
    · have hfirst : 0 < rows.length := by
        rw [hrows.length_eq]
        exact List.length_pos_of_ne_nil hstorable.blocks_ne
      exact ⟨_, List.mem_append_right _ (List.getElem_mem hfirst),
        (hrows.written 0 hfirst (hrows.length_eq ▸ hfirst)).key⟩
    · obtain ⟨y, hy, hkey⟩ := h.block r hr
      exact ⟨y, List.mem_append_left _ hy, hkey⟩

/-- **A bundle is removed from both storages.** -/
theorem remove {c : Clock} {i : BundleID} (halike : p.Alike (.remove c i)) :
    (p.step (.remove c i)).Agrees (l.filter fun r => decide (r.id.rowKey ≠ i.rowKey)) := by
  have hkeys : ∀ r ∈ l, i.eq r.id = true ↔ i.rowKey = r.id.rowKey := fun r hr =>
    (halike r.bundle (h.memory.bundles.perm.mem_iff.2 (List.mem_map_of_mem hr))).1
  have hmemory : (p.memory.step c (.removeById i)).2.Tracked
      (l.filter fun r => decide (r.id.rowKey ≠ i.rowKey)) ∧
      (p.memory.step c (.removeById i)).2.maxsize = p.memory.maxsize := by
    rw [MemoryBundleStorage.step]
    rcases hfind : p.memory.bundles.find? fun b => i.eq b.toBundleID with - | b
    · have hall : l.filter (fun r => decide (r.id.rowKey ≠ i.rowKey)) = l := by
        refine List.filter_eq_self.2 fun r hr => decide_eq_true fun heq => ?_
        refine List.find?_eq_none.1 hfind r.bundle ?_ ((hkeys r hr).2 heq.symm)
        exact h.memory.bundles.perm.mem_iff.2 (List.mem_map_of_mem hr)
      simp only [hfind, hall]
      exact ⟨h.memory, trivial⟩
    · have hb := List.mem_of_find?_eq_some hfind
      have heq : i.eq b.toBundleID = true :=
        List.find?_some (p := fun b : Bundle => i.eq b.toBundleID) hfind
      obtain ⟨r, t, rfl, hperm⟩ := h.memory.exists_perm hb
      have hr := h.memory.of_perm hperm
      have htime : r.metaBundle.expiretime = c.getExpireTime r.bundle :=
        (halike r.bundle hb).2 heq (.ofMeta r.metaBundle)
          (hr.list.expiring.perm.mem_iff.2 List.mem_cons_self) rfl
      have herased : (p.memory.discardById c (fun b => i.eq b.toBundleID) r.bundle).Tracked t :=
        hr.erased hfind rfl (hr.lists_remove htime) rfl
      have hrmem : r ∈ l := hperm.mem_iff.2 List.mem_cons_self
      have hkey : r.id.rowKey = i.rowKey := ((hkeys r hrmem).1 heq).symm
      have hothers : t.filter (fun u => decide (u.id.rowKey ≠ i.rowKey)) = t := by
        refine List.filter_eq_self.2 fun u hu => decide_eq_true fun hukey => ?_
        have humem : u ∈ l := hperm.mem_iff.2 (List.mem_cons_of_mem _ hu)
        obtain rfl := h.eq_of_rowKey_eq hrmem humem (hukey.trans hkey.symm)
        exact (hr.apart_of_mem u hu).ne rfl
      have hfilter := hperm.filter fun u => decide (u.id.rowKey ≠ i.rowKey)
      rw [List.filter_cons_of_neg (by simp [hkey]), hothers] at hfilter
      simp only [hfind]
      exact ⟨herased.of_perm hfilter.symm, rfl⟩
  let s : SQLiteBundleStorage := { p.database with deletionList := [i], tasks := [] }
  have hdrain : (p.database.remove i).drain.2 = s.runRemove i := by
    have hremove : p.database.remove i = { s with tasks := [.remove i] } := by
      rw [SQLiteBundleStorage.remove, addDeletion, h.marks]
      dsimp only
      rw [h.tasks]
      rfl
    rw [hremove]
    rfl
  have hmarks : (s.runRemove i).deletionList = [] := by
    change OrderedSet.erase id BundleID.lt i [i] = []
    simp [OrderedSet.erase, BundleID.lt_self]
  have hstep : p.step (.remove c i) = { p with
      memory := (p.memory.step c (.removeById i)).2, database := s.runRemove i } := by
    rw [step, hdrain]
  have hs : s.Tables := h.tables.of_eq rfl rfl rfl
  obtain ⟨hrows, hblock⟩ := h.deleted (fun t => decide (t.toRowKey = i.rowKey))
    (fun r => decide (r.id.rowKey ≠ i.rowKey))
    (fun t _ r _ hshows => by simp [hshows.toRowKey]) fun _ => rfl
  rw [hstep]
  exact ⟨hmemory.1, hmemory.2.trans h.maxsize, hs.runRemove i, rfl, hmarks, hrows,
    fun r hr => h.whole r (List.mem_of_mem_filter hr), hblock, h.expired⟩

/-- **The same bundles expire in both storages.** -/
theorem tick {c : Clock} {timestamp : UInt64} (halike : p.Alike (.tick c timestamp)) :
    (p.step (.tick c timestamp)).Agrees (l.filter (Record.lasts timestamp)) := by
  obtain ⟨hquality, htime, hbetween⟩ := halike
  obtain ⟨hmemory, hmaxsize⟩ := h.memory.expire hquality timestamp
  have hexpired : ∀ t ∈ p.database.database.bundles, ∀ r ∈ l, Shows t r →
      t.expired timestamp = !r.lasts timestamp := by
    intro t ht r hr hshows
    have hnot := hbetween r.bundle (h.memory.bundles.perm.mem_iff.2 (List.mem_map_of_mem hr))
      (.ofMeta r.metaBundle) (h.memory.list.expiring.perm.mem_iff.2
        (List.mem_map_of_mem (List.mem_map_of_mem hr))) rfl
    rw [show (ExpiringBundle.ofMeta r.metaBundle).expiretime = r.metaBundle.expiretime from rfl]
      at hnot
    have hiff : t.expired timestamp = false ↔ r.lasts timestamp = true := by
      rw [h.tables.expired_eq_false_iff htime ht, hshows.expiretime, Record.lasts,
        decide_eq_true_iff, UInt64.lt_iff_toNat_lt, UInt64.le_iff_toNat_le]
      rw [UInt64.le_iff_toNat_le, UInt64.le_iff_toNat_le, UInt64.lt_iff_toNat_lt,
        UInt64.lt_iff_toNat_lt] at hnot
      omega
    cases hlasts : r.lasts timestamp with
    | true => exact hiff.2 hlasts
    | false => exact Bool.not_eq_false _ ▸ mt hiff.1 (by simp [hlasts])
  let s : SQLiteBundleStorage := { p.database with tasks := [] }
  have hs : s.Tables := h.tables.of_eq rfl rfl rfl
  obtain ⟨hevents, hdatabase, htasks, hmarks⟩ := hs.runExpire_eq htime
  have hdrain : (p.database.tick timestamp).drain =
      ((s.runExpire timestamp).1 ++ [], (s.runExpire timestamp).2) := by
    have htick : p.database.tick timestamp = { s with tasks := [.expire timestamp] } := by
      rw [SQLiteBundleStorage.tick, h.tasks]
      rfl
    rw [htick]
    rfl
  have hstep : p.step (.tick c timestamp) =
      { memory := (p.memory.step c (.expire timestamp)).2
        database := (s.runExpire timestamp).2
        memoryExpired := p.memoryExpired ++
          (dueIds p.memory c timestamp).map fun i => (timestamp, i)
        databaseExpired := p.databaseExpired ++
          (s.runExpire timestamp).1.map fun i => (timestamp, i) } := by
    rw [step, hdrain, List.append_nil]
  obtain ⟨hrows, hblock⟩ := h.deleted _ _ hexpired fun _ => rfl
  have hreported : (dueIds p.memory c timestamp).Perm (s.runExpire timestamp).1 := by
    rw [dueIds, hquality, if_pos rfl, hevents]
    refine (h.memory.due_perm timestamp).trans ?_
    have hids : ((l.filter fun r => !r.lasts timestamp).map row).map BundleRow.bundleID =
        (l.filter fun r => !r.lasts timestamp).map Record.id := by
      rw [List.map_map]
      refine List.map_congr_left fun r hr => ?_
      exact Shows.bundleID (t := row r) rfl (h.whole r (List.mem_of_mem_filter hr))
    have hevents : s.database.expireBundles timestamp =
        ((p.database.database.bundles.filter (BundleRow.expired timestamp)).map
          withoutCustodian).map BundleRow.bundleID := by
      rw [List.map_map]
      rfl
    rw [← hids, hevents]
    exact ((h.filter_rows hexpired fun _ => rfl).map _).symm
  rw [hstep]
  refine ⟨hmemory, hmaxsize.trans h.maxsize, hs.runExpire timestamp, htasks, hmarks.trans h.marks,
    ?_, fun r hr => h.whole r (List.mem_of_mem_filter hr), ?_, h.expired.append (hreported.map _)⟩
  · rw [hdatabase]
    exact hrows
  · rw [hdatabase]
    exact hblock

/-- **A call that the storages take for the same keeps them so.** -/
theorem step {call : Call} (halike : p.Alike call) : ∃ l', (p.step call).Agrees l' := by
  cases call with
  | store c node env b => exact ⟨_, h.store halike⟩
  | remove c i => exact ⟨_, h.remove halike⟩
  | tick c timestamp => exact ⟨_, h.tick halike⟩

end Agrees

/-- A step of both storages. -/
def Step (p : StoragePair) (call : Call) (p' : StoragePair) : Prop := p' = p.step call

/-- **Behind every run of calls that the storages take for the same, they report the same bundles.**
-/
theorem same_run {calls : List Call} {p : StoragePair}
    (h : Transition.Run Step Alike create calls p) : p.Same := by
  have hinv : ∃ l, p.Agrees l :=
    h.invariant (I := fun p => ∃ l, p.Agrees l) ⟨[], agrees_create⟩
      fun p call p' ⟨l, hl⟩ halike hstep => by
        rw [show p' = _ from hstep]
        exact hl.step halike
  exact hinv.elim fun _ hl => hl.same

/-- The store of a bundle. -/
def sampleStore (first : Char) (b : Bundle) : Call :=
  .store (Clock.showing 100) sampleNode
    { sampleEnv with
      block n := ⟨.ok (ascii [first] ++ Decimal.numeral n), .foreign, none, none⟩ } b

/-- Two new storages behind some calls. -/
def after (calls : List Call) : StoragePair := calls.foldl step create

theorem same_run_sample :
    (after [sampleStore 'b' sampleWhole,
      .tick (Clock.showing 200) 200]).Same := by
  have hstored : Transition.Run Step Alike create
      [sampleStore 'b' sampleWhole]
      (after [sampleStore 'b' sampleWhole]) := by
    refine Transition.Run.nil.snoc (i := sampleStore 'b' sampleWhole) ?_ rfl
    exact ⟨⟨by decide, by decide, by decide⟩, SQLiteBundleStorage.sampleWhole_storable, by decide,
      fun _ h => absurd h List.not_mem_nil, rfl, SQLiteBundleStorage.sampleEnv_works⟩
  have hticked : Alike (after [sampleStore 'b' sampleWhole])
      (.tick (Clock.showing 200) 200) := ⟨rfl, by decide, by decide +kernel⟩
  exact same_run (hstored.snoc hticked rfl)

/-- Every sequence of calls has a run. -/
theorem run_after (calls : List Call) :
    Transition.Run Step (fun _ _ => True) create calls (after calls) := by
  induction calls using List.reverseRecOn with
  | nil => exact .nil
  | append_singleton calls call ih =>
      refine ih.snoc trivial ?_
      rw [Step, after, List.foldl_append]
      rfl

/-- A bundle without a timestamp, which lives for ten minutes. -/
def sampleAged : Bundle := { Bundle.create 0 1 with lifetime := 600 }

/-- A bundle is stored again. -/
def sampleAgain : List Call :=
  [sampleStore 'b' sampleWhole, sampleStore 'c' sampleWhole]

/-- A tick has the very time at which a bundle expires. -/
def sampleInstant : List Call :=
  [sampleStore 'b' sampleWhole,
    .tick (Clock.showing sampleWhole.storedExpiry)
      sampleWhole.storedExpiry]

/-- A bundle without a timestamp lives as long as its age block says. -/
def sampleAge : List Call := [sampleStore 'b' sampleAged, .tick (Clock.showing 650) 650]

/-- Storages that have different numbers of bundles do not report the same. -/
theorem not_same_of_count {p : StoragePair} (h : p.memory.bundles.length ≠ p.database.count) :
    ¬ p.Same := fun hsame => h hsame.count

/-- **The storages differ** when a bundle is stored again, when a tick has the very time at which a
bundle expires, and when a bundle without a timestamp has an age block. -/
theorem not_same_sample :
    (Transition.Run Step (fun _ _ => True) create sampleAgain (after sampleAgain) ∧
      ¬ (after sampleAgain).Same) ∧
    (Transition.Run Step (fun _ _ => True) create sampleInstant (after sampleInstant) ∧
      ¬ (after sampleInstant).Same) ∧
    Transition.Run Step (fun _ _ => True) create sampleAge (after sampleAge) ∧
      ¬ (after sampleAge).Same := by
  refine ⟨⟨run_after _, not_same_of_count ?_⟩, ⟨run_after _, not_same_of_count ?_⟩,
    run_after _, not_same_of_count ?_⟩
  · decide +kernel
  · decide +kernel
  · decide +kernel

end StoragePair

end IbrDtn
