import IbrDtn.Core.BundleStorage
import IbrDtn.Core.SQLiteDatabase
import IbrDtn.Data.SeparateSerializer
import IbrDtn.Library.Directory

/-!
# The storage in a database

This file models `daemon/src/core/SQLiteBundleStorage.cpp`.  The storage keeps the primary fields of
its bundles in a table and each block in a file of its own, which a second table refers to.  A
removal marks an identifier and leaves the work to a task, and so does a tick of the clock, for
which the storage remembers the next time at which a bundle expires.

What `ibrcommon` and the file system do is given to the operations: the names of temporary files,
whether hard-links can be made, where a stream breaks, and which statements fail.

## Main definitions

* `SQLiteBundleStorage` : the database, the block files, and the members that threads share.
* `SQLiteBundleStorage.store`, `SQLiteBundleStorage.remove`, `SQLiteBundleStorage.tick` : the calls.
* `SQLiteBundleStorage.runTask` : the tasks of the worker.
* `SQLiteBundleStorage.get`, `SQLiteBundleStorage.count` : the queries.
-/

namespace IbrDtn

/-- The tasks of the worker. The tasks that vacuum the database change nothing that is modelled. -/
inductive SQLiteBundleStorage.Task where
  | remove (id : BundleID)
  | expire (timestamp : UInt64)
deriving DecidableEq

/-- `class SQLiteBundleStorage`. -/
structure SQLiteBundleStorage where
  session : Session Database
  files : Directory Bytes Bytes
  deletionList : List BundleID
  nextExpiration : UInt64
  tasks : List SQLiteBundleStorage.Task
deriving DecidableEq

namespace SQLiteBundleStorage

/-- A storage on an empty database. -/
def create : SQLiteBundleStorage := ⟨.closed .empty, [], [], 0, []⟩

/-- The tables as a statement sees them. -/
def database (s : SQLiteBundleStorage) : Database := s.session.current

/-- The storage with a changed database. -/
def execute (s : SQLiteBundleStorage) (f : Database → Database) : SQLiteBundleStorage :=
  { s with session := s.session.update f }

/-! ### Storing -/

/-- The BLOB of a payload block that is stored: it is none of this storage or cannot be opened, a
hard-link to its file is made, or the hard-link is refused, and another temporary file is
opened. -/
inductive BlobAccess where
  | foreign
  | linked
  | refused (tmpfile : Except Exn Bytes)

/-- What happens while a block is stored: the temporary file, the way to its BLOB, the number of
bytes behind which the serializer throws, and whether the statement fails, and with it the
transaction. -/
structure BlockEnv where
  tmpfile : Except Exn Bytes
  access : BlobAccess
  broken : Option (ℕ × Exn)
  fault : Option Bool

/-- The name is that of a temporary file. -/
def BlockEnv.Names (env : BlockEnv) (path : Bytes) : Prop :=
  env.tmpfile = .ok path ∨ env.access = .refused (.ok path)

/-- What happens while a bundle is stored: the message if the statement for its row fails, and what
happens to each of its blocks, counted from one. -/
structure StoreEnv where
  rowError : Option String
  block : ℕ → BlockEnv

/-- The serialization of a block in a file. -/
def serializeBlock (block : Block) (broken : Option (ℕ × Exn)) (path : Bytes)
    (files : Directory Bytes Bytes) : Except Exn Bytes × Directory Bytes Bytes :=
  let bytes := SeparateSerializer.writeBlock block
  match broken with
  | none => (.ok path, files.put path bytes)
  | some (n, e) => (.error e, files.put path (bytes.take n))

/-- The file for a block: a hard-link to the BLOB of a payload block, or a serialization. -/
def storeFile (block : Block) (env : BlockEnv) (files : Directory Bytes Bytes) :
    Except Exn Bytes × Directory Bytes Bytes :=
  match env.tmpfile with
  | .error e => (.error e, files)
  | .ok path =>
      match block.body, env.access with
      | .payload blob, .linked => (.ok path, files.put path blob)
      | .payload _, .refused (.ok path') =>
          serializeBlock block env.broken path' (files.remove path)
      | _, _ => serializeBlock block env.broken path files

/-- `SQLiteQueryException("can not store block of bundle")`. -/
def blockError : Exn := .exception "can not store block of bundle"

/-- One turn of the loop of `SQLiteBundleStorage::store_blocks`. -/
def storeBlock (k : RowKey) (number : ℕ) (block : Block) (env : BlockEnv)
    (s : SQLiteBundleStorage) : Except Exn Unit × SQLiteBundleStorage :=
  match storeFile block env s.files with
  | (.error e, files) => (.error e, { s with files })
  | (.ok filename, files) =>
      match env.fault with
      | some true => (.error blockError, { s with files, session := s.session.rollback })
      | some false => (.error blockError, { s with files })
      | none =>
          match s.database.blockStore ⟨k, block.blocktype, filename, number⟩ with
          | none => (.error blockError, { s with files })
          | some db => (.ok (), { s with files, session := { s.session with current := db } })

/-- `SQLiteBundleStorage::store_blocks`, from the block with the given number on. -/
def storeBlocks (k : RowKey) (env : ℕ → BlockEnv) :
    ℕ → List Block → SQLiteBundleStorage → Except Exn Unit × SQLiteBundleStorage
  | _, [], s => (.ok (), s)
  | number, block :: blocks, s =>
      match storeBlock k number block (env number) s with
      | (.error e, s) => (.error e, s)
      | (.ok _, s) => storeBlocks k env (number + 1) blocks s

/-- `SQLiteBundleStorage::new_expire_time`. -/
def newExpireTime (ttl : UInt64) (s : SQLiteBundleStorage) : SQLiteBundleStorage :=
  if s.nextExpiration = 0 ∨ ttl < s.nextExpiration then { s with nextExpiration := ttl } else s

/-- The end of `store`: custody is accepted if it is requested. -/
def updateCustodian (c : Clock) (node : LocalNode) (b : Bundle) (s : SQLiteBundleStorage) :
    SQLiteBundleStorage :=
  match BundleStorage.acceptCustody node (.ofBundle c b) with
  | .ok (custodian, _) =>
      s.execute fun db => db.updateCustodian b.toBundleID.rowKey custodian.getString
  | .error _ => s

/-- What `store` does when the rows of the bundle are written. -/
def finishStore (c : Clock) (node : LocalNode) (b : Bundle) (s : SQLiteBundleStorage) :
    SQLiteBundleStorage :=
  updateCustodian c node b
    (newExpireTime b.storedExpiry { s with session := s.session.commit })

/-- `SQLiteBundleStorage::store`. -/
def store (s : SQLiteBundleStorage) (c : Clock) (node : LocalNode) (env : StoreEnv) (b : Bundle) :
    Except Exn Unit × SQLiteBundleStorage :=
  let s := { s with session := s.session.begin }
  match env.rowError with
  | some message =>
      (.error (.exception ("SQLiteBundleStorage: store() failure: " ++ message)),
        { s with session := s.session.rollback })
  | none =>
      match s.database.bundleStore (.ofBundle c b) with
      | none => (.ok (), s.finishStore c node b)
      | some db =>
          match storeBlocks b.toBundleID.rowKey env.block 1 b.blocks
            { s with session := { s.session with current := db } } with
          | (.error e, s) => (.error e, s)
          | (.ok _, s) => (.ok (), s.finishStore c node b)

/-! ### Removing and expiring -/

/-- `SQLiteBundleStorage::add_deletion`. -/
def addDeletion (i : BundleID) (s : SQLiteBundleStorage) : SQLiteBundleStorage :=
  { s with deletionList := OrderedSet.insert id BundleID.lt i s.deletionList }

/-- `SQLiteBundleStorage::remove_deletion`. -/
def removeDeletion (i : BundleID) (s : SQLiteBundleStorage) : SQLiteBundleStorage :=
  { s with deletionList := OrderedSet.erase id BundleID.lt i s.deletionList }

/-- `SQLiteBundleStorage::contains_deletion`. -/
def containsDeletion (s : SQLiteBundleStorage) (i : BundleID) : Bool :=
  (OrderedSet.find? id BundleID.lt i s.deletionList).isSome

/-- `SQLiteBundleStorage::remove`. -/
def remove (s : SQLiteBundleStorage) (i : BundleID) : SQLiteBundleStorage :=
  let s := s.addDeletion i
  { s with tasks := s.tasks ++ [.remove i] }

/-- `SQLiteBundleStorage::raiseEvent`, of a tick of the clock. -/
def tick (s : SQLiteBundleStorage) (timestamp : UInt64) : SQLiteBundleStorage :=
  { s with tasks := s.tasks ++ [.expire timestamp] }

/-- The files of the given names are removed. -/
def removeFiles (names : List Bytes) (s : SQLiteBundleStorage) : SQLiteBundleStorage :=
  { s with files := s.files.removeAll (names.map columnText) }

/-- The statement of `update_expire_time`: zero without bundles. -/
def nextExpiryTime (s : SQLiteBundleStorage) : UInt64 := s.database.expireNextTimestamp.getD 0

/-- `SQLiteBundleStorage::update_expire_time`. -/
def updateExpireTime (s : SQLiteBundleStorage) : SQLiteBundleStorage :=
  { s with nextExpiration := s.nextExpiryTime }

/-- The names of the files of a bundle. -/
def filenames (s : SQLiteBundleStorage) (k : RowKey) : List Bytes :=
  (s.database.blockGetId k).map BlockRow.filename

/-- `TaskRemove::run`. -/
def runRemove (i : BundleID) (s : SQLiteBundleStorage) : SQLiteBundleStorage :=
  let s := s.removeFiles (s.filenames i.rowKey)
  let s := s.execute fun db => db.bundleDelete i.rowKey
  s.updateExpireTime.removeDeletion i

/-- The tick is of no use to `TaskExpire::run`: no bundle is due yet. -/
def skipsExpiry (s : SQLiteBundleStorage) (timestamp : UInt64) : Bool :=
  decide (timestamp < s.nextExpiration) || s.nextExpiration == 0

/-- `TaskExpire::run`, with the identifiers of the events that it raises. -/
def runExpire (timestamp : UInt64) (s : SQLiteBundleStorage) :
    List BundleID × SQLiteBundleStorage :=
  if s.skipsExpiry timestamp then ([], s)
  else
    let s := s.removeFiles (s.database.expireBundleFilenames timestamp)
    let events := s.database.expireBundles timestamp
    let s := s.execute fun db => db.expireBundleDelete timestamp
    (events, s.updateExpireTime)

/-- The worker takes a task, with the identifiers of the events that it raises. -/
def runTask (s : SQLiteBundleStorage) : List BundleID × SQLiteBundleStorage :=
  match s.tasks with
  | [] => ([], s)
  | .remove i :: tasks => ([], { s with tasks }.runRemove i)
  | .expire timestamp :: tasks => { s with tasks }.runExpire timestamp

/-! ### Queries -/

/-- What happens while a bundle is loaded: the primary block of a new bundle, whether a hard-link to a
block file is made, the seconds between the last change of a file and the last access to it, the
deserializer, and the stale memory. -/
structure GetEnv where
  created : PrimaryBlock
  link : Bytes → Except Exn Bool
  age : Bytes → UInt64
  deserializer : DeserializerEnv
  stale : List UInt8

/-- `std::ifstream` on a block file. -/
def openFile (files : Directory Bytes Bytes) (path : Bytes) (stale : List UInt8) : InStream :=
  match files.content? path with
  | some bytes => ⟨bytes, false, false, stale⟩
  | none => ⟨[], false, true, stale⟩

/-- One turn of the loop of `SQLiteBundleStorage::get_blocks`. A payload whose file cannot be linked
is left out, and an age block becomes older. -/
def getBlock (env : GetEnv) (files : Directory Bytes Bytes) (row : BlockRow) (bundle : Bundle) :
    Except Exn Bundle :=
  let path := columnText row.filename
  if row.blocktype = Block.payloadType then
    match env.link path, files.content? path with
    | .error e, _ => .error e
    | .ok true, some bytes =>
        .ok (bundle.pushBack { Block.newPayload with body := .payload bytes })
    | .ok _, _ => .ok bundle
  else
    match (SeparateDeserializer.readBlock env.deserializer).run
      (bundle, openFile files path env.stale) with
    | (.error e, _) => .error e
    | (.ok none, (bundle, _)) => .ok bundle
    | (.ok (some block), (bundle, _)) =>
        match block.body with
        | .age a =>
            .ok (bundle.setBack { block with body := .age (a.addSeconds (env.age path)) })
        | _ => .ok bundle

/-- The loop of `SQLiteBundleStorage::get_blocks`. -/
def getBlocks (env : GetEnv) (files : Directory Bytes Bytes) :
    List BlockRow → Bundle → Except Exn Bundle
  | [], bundle => .ok bundle
  | row :: rows, bundle =>
      match getBlock env files row bundle with
      | .error e => .error e
      | .ok bundle => getBlocks env files rows bundle

/-- `NoBundleFoundException`. -/
def noBundleFound : Exn := .missingObject "No bundle match the specified criteria."

/-- A bundle before its blocks are read. -/
def newBundle (created : PrimaryBlock) (row : BundleRow) : Bundle :=
  { row.primaryBlock created with
    blocks := (Bundle.create created.timestamp created.sequencenumber).blocks }

/-- `SQLiteBundleStorage::get(const BundleID&)`. -/
def get (s : SQLiteBundleStorage) (env : GetEnv) (i : BundleID) : Except Exn Bundle :=
  if s.containsDeletion i then .error noBundleFound
  else
    match s.database.bundleGetId i.rowKey with
    | none => .error noBundleFound
    | some row =>
        match getBlocks env s.files (s.database.blockGetId i.rowKey)
          (newBundle env.created row) with
        | .error e => .error (if e.isException then noBundleFound else e)
        | .ok bundle => if bundle.blocks.isEmpty then .error noBundleFound else .ok bundle

/-- `SQLiteBundleStorage::count`. -/
def count (s : SQLiteBundleStorage) : ℕ := s.database.countEntries

/-- `SQLiteBundleStorage::empty`. -/
def empty (s : SQLiteBundleStorage) : Bool := s.database.bundles.isEmpty

/-! ### The next expiry time -/

/-- A tick at the time at which the bundle of a row expires is not skipped. -/
def Covered (next : UInt64) (r : BundleRow) : Prop := next ≠ 0 ∧ next ≤ r.expiretime

instance (next : UInt64) (r : BundleRow) : Decidable (Covered next r) :=
  inferInstanceAs (Decidable (_ ∧ _))

variable {s : SQLiteBundleStorage} {r : BundleRow}

/-- **The next expiry time of the table covers every row.** -/
theorem covered_nextExpiryTime (hs : ∀ r ∈ s.database.bundles, Regular r.expiretime)
    (hr : r ∈ s.database.bundles) : Covered s.nextExpiryTime r := by
  rw [nextExpiryTime]
  cases hnext : s.database.expireNextTimestamp with
  | none =>
      rw [Database.expireNextTimestamp_eq_none_iff.1 hnext] at hr
      exact absurd hr List.not_mem_nil
  | some v =>
      obtain ⟨t, ht, rfl⟩ := Database.exists_of_expireNextTimestamp hnext
      refine ⟨(hs t ht).1, ?_⟩
      exact (signed_le_signed (hs t ht).2 (hs r hr).2).1 (Database.expireNextTimestamp_le hnext hr)

/-- The earlier of two times, of which the first may not be set. -/
def earlier (next ttl : UInt64) : UInt64 := if next = 0 ∨ ttl < next then ttl else next

theorem newExpireTime_eq (ttl : UInt64) (s : SQLiteBundleStorage) :
    newExpireTime ttl s = { s with nextExpiration := earlier s.nextExpiration ttl } := by
  rw [newExpireTime, earlier]
  split <;> rfl

/-- A new expiry time covers what was covered. -/
theorem Covered.earlier {next ttl : UInt64} (h : Covered next r) (httl : ttl ≠ 0) :
    Covered (earlier next ttl) r := by
  rw [SQLiteBundleStorage.earlier]
  split_ifs with hlt
  · exact ⟨httl, UInt64.le_trans (UInt64.le_of_lt (hlt.resolve_left h.1)) h.2⟩
  · exact h

/-- A new expiry time covers the rows that expire at that time. -/
theorem covered_earlier {ttl : UInt64} (httl : ttl ≠ 0) (hr : r.expiretime = ttl) (next : UInt64) :
    Covered (earlier next ttl) r := by
  rw [earlier]
  split_ifs with hlt
  · exact ⟨httl, hr ▸ UInt64.le_refl ttl⟩
  · rw [not_or] at hlt
    exact ⟨hlt.1, hr ▸ UInt64.not_lt.1 hlt.2⟩

/-- The custodian of a row behind `store`. -/
def custodianFor (c : Clock) (node : LocalNode) (b : Bundle) (r : BundleRow) : Bytes :=
  match BundleStorage.acceptCustody node (.ofBundle c b) with
  | .ok (custodian, _) =>
      if r.toRowKey = b.toBundleID.rowKey then custodian.getString else r.custodian
  | .error _ => r.custodian

/-- The end of `store` may replace custodians. -/
theorem updateCustodian_eq (c : Clock) (node : LocalNode) (b : Bundle) (s : SQLiteBundleStorage) :
    s.updateCustodian c node b = s.execute fun db => { db with
      bundles := db.bundles.map fun r => { r with custodian := custodianFor c node b r } } := by
  simp only [updateCustodian, custodianFor]
  split
  · refine congrArg s.execute (funext fun db => congrArg (Database.mk · db.blocks) ?_)
    refine List.map_congr_left fun r _ => ?_
    by_cases hkey : r.toRowKey = b.toBundleID.rowKey
    · simp only [if_pos hkey]
    · simp only [if_neg hkey]
  · simp only [List.map_id']
    rfl

/-- **What the end of `store` does**: it commits, brings the next expiry time up to date, and may
replace custodians. -/
theorem finishStore_eq (c : Clock) (node : LocalNode) (b : Bundle) (s : SQLiteBundleStorage) :
    s.finishStore c node b = { s with
      session := .closed { s.database with
        bundles := s.database.bundles.map fun r => { r with custodian := custodianFor c node b r } }
      nextExpiration := earlier s.nextExpiration b.storedExpiry } := by
  rw [finishStore, newExpireTime_eq, updateCustodian_eq]
  rfl

end SQLiteBundleStorage

end IbrDtn
