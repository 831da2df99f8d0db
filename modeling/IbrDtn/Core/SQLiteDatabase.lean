import IbrDtn.Data.BundleList
import IbrDtn.Library.Table

/-!
# The database of the SQLite storage

This file models the tables of `daemon/src/core/SQLiteBundleStorage.cpp` and the statements that the
storage prepares for them.  The bundles have a unique index over source, timestamp, sequence number
and fragment offset, and so have the blocks, although a bundle has several.  The offset of a bundle
that is no fragment is null, and null never equals anything in an index.

SQLite compares integers as signed numbers of 64 bits.  A text is read as a C string, up to its
first NUL byte, and the processing flags pass through a number of 32 bits.

## Main definitions

* `RowKey`, `BundleRow`, `BlockRow`, `Database` : the tables.
* `BundleID.rowKey`, `RowKey.bundleID` : what is bound for an identifier, and what is read back.
* `BundleRow.ofBundle`, `BundleRow.metaBundle`, `BundleRow.primaryBlock` : the same for bundles.
* `Database.bundleStore`, `Database.expireBundleDelete` and others : the statements.

## Main results

* `RowKey.rowKey_bundleID` : an identifier that is read from a key has that key.
* `Database.mem_blocks_delete` : deleting bundles deletes exactly their blocks.
* `Database.expireNextTimestamp_le` : the next expiry time is the smallest.
-/

namespace IbrDtn

/-! ### Columns -/

/-- A text column as a C string. -/
def columnText (text : Bytes) : Bytes := text.takeWhile fun b => b != 0

/-- The EID in a text column. -/
def columnEID (text : Bytes) : EID := EID.ofString (columnText text)

/-- An integer column as SQLite compares it. -/
def signed (value : UInt64) : ℤ :=
  if value.toNat < 2 ^ 63 then value.toNat else (value.toNat : ℤ) - 2 ^ 64

/-- `sqlite3_column_int` as a number of 64 bits: the sign of a number of 32 bits is kept. -/
def ofColumnInt (value : UInt32) : UInt64 :=
  if value.toNat < 2 ^ 31 then value.toUInt64 else value.toUInt64 ||| 0xffffffff00000000

theorem signed_of_lt {value : UInt64} (h : value.toNat < 2 ^ 63) : signed value = value.toNat :=
  if_pos h

/-- Small numbers are compared as they are. -/
theorem signed_le_signed {a b : UInt64} (ha : a.toNat < 2 ^ 63) (hb : b.toNat < 2 ^ 63) :
    signed a ≤ signed b ↔ a ≤ b := by
  rw [signed_of_lt ha, signed_of_lt hb, UInt64.le_iff_toNat_le, Nat.cast_le]

/-- A time that is not zero, and that SQLite takes for a positive number. -/
def Regular (time : UInt64) : Prop := time ≠ 0 ∧ time.toNat < 2 ^ 63

instance (time : UInt64) : Decidable (Regular time) := inferInstanceAs (Decidable (_ ∧ _))

/-- Without NUL bytes, a column has the text that was bound. -/
theorem columnText_eq_self {text : Bytes} (h : (0 : UInt8) ∉ text) : columnText text = text := by
  rw [columnText, List.takeWhile_eq_self_iff]
  intro b hb
  rw [bne_iff_ne]
  rintro rfl
  exact h hb

/-- An EID that was read from a column can be written to one. -/
theorem columnEID_getString_columnEID (text : Bytes) :
    columnEID (columnEID text).getString = columnEID text := by
  have hself : columnText (columnEID text).getString = (columnEID text).getString := by
    refine columnText_eq_self fun hzero => ?_
    rw [columnEID] at hzero
    rcases EID.getString_ofString (columnText text) with h | h
    · rw [h] at hzero
      have hmem := List.mem_takeWhile_imp (Utils.mem_of_mem_trim hzero)
      exact absurd hmem (by decide)
    · rw [h] at hzero
      exact absurd hzero (by decide)
  rw [columnEID, hself]
  exact EID.ofString_getString_ofString _

/-- What was read from a column of 32 bits can be written to one. -/
theorem ofColumnInt_toUInt32 (value : UInt32) :
    ofColumnInt (ofColumnInt value).toUInt32 = ofColumnInt value := by
  have h : (ofColumnInt value).toUInt32 = value := by
    rw [ofColumnInt]
    split_ifs
    · exact UInt32.toUInt32_toUInt64 value
    · rw [UInt64.toUInt32_or, UInt32.toUInt32_toUInt64]
      exact UInt32.or_zero
  rw [h]

/-- A column of 32 bits keeps the flag of fragments. -/
theorem has_fragment_ofColumnInt (procflags : UInt64) :
    FlagWord.has (ofColumnInt procflags.toUInt32) PrimaryBlock.fragment =
      FlagWord.has procflags PrimaryBlock.fragment := by
  have hword : procflags.toUInt32.toUInt64 &&& PrimaryBlock.fragment =
      procflags &&& PrimaryBlock.fragment := by
    have hone : PrimaryBlock.fragment.toNat = 1 := rfl
    rw [← UInt64.toNat_inj, UInt64.toNat_and, UInt64.toNat_and, hone, Nat.and_one_is_mod,
      Nat.and_one_is_mod, UInt32.toNat_toUInt64, UInt64.toNat_toUInt32]
    omega
  have hcolumn : ofColumnInt procflags.toUInt32 &&& PrimaryBlock.fragment =
      procflags.toUInt32.toUInt64 &&& PrimaryBlock.fragment := by
    rw [ofColumnInt]
    split_ifs
    · rfl
    · exact FlagWord.or_and_of_disjoint (by decide)
  rw [FlagWord.has, FlagWord.has, hcolumn, hword]

/-! ### Rows -/

/-- The columns by which bundles and blocks are identified. -/
structure RowKey where
  sourceId : Bytes
  timestamp : UInt64
  sequencenumber : UInt64
  fragmentoffset : Option UInt64
deriving DecidableEq, Repr

/-- `SQLiteBundleStorage::set_bundleid`. -/
def BundleID.rowKey (id : BundleID) : RowKey :=
  ⟨id.source.getString, id.timestamp, id.sequencenumber,
    if id.fragment then some id.offset else none⟩

/-- `SQLiteBundleStorage::get_bundleid`. -/
def RowKey.bundleID (k : RowKey) : BundleID :=
  ⟨columnEID k.sourceId, k.timestamp, k.sequencenumber, k.fragmentoffset.isSome,
    k.fragmentoffset.getD 0⟩

/-- The columns of the unique indexes: null for what is no fragment. -/
def RowKey.unique? (k : RowKey) : Option RowKey := if k.fragmentoffset.isSome then some k else none

/-- The text of a source that is read from its column stays the same. -/
def RowKey.Readable (k : RowKey) : Prop := (columnEID k.sourceId).getString = k.sourceId

instance (k : RowKey) : Decidable k.Readable := inferInstanceAs (Decidable (_ = _))

/-- **An identifier that is read from a key has that key**, if the text of the source stays. -/
theorem RowKey.rowKey_bundleID {k : RowKey} (h : k.Readable) : k.bundleID.rowKey = k := by
  obtain ⟨sourceId, timestamp, sequencenumber, fragmentoffset⟩ := k
  have hsource : (columnEID sourceId).getString = sourceId := h
  cases fragmentoffset <;> simp [RowKey.bundleID, BundleID.rowKey, hsource]

theorem RowKey.unique?_eq_none_iff {k : RowKey} : k.unique? = none ↔ k.fragmentoffset = none := by
  rw [RowKey.unique?]
  cases k.fragmentoffset <;> simp

/-- A row of the table `bundles`. -/
structure BundleRow extends RowKey where
  source : Bytes
  destination : Bytes
  reportto : Bytes
  custodian : Bytes
  procflags : UInt32
  lifetime : UInt64
  appdatalength : Option UInt64
  expiretime : UInt64
  priority : ℤ
  hopcount : Option UInt64
deriving DecidableEq

/-- A row of the table `blocks`. -/
structure BlockRow extends RowKey where
  blocktype : UInt8
  filename : Bytes
  ordernumber : ℕ
deriving DecidableEq

/-- The time at which `store` lets a bundle expire. -/
def Bundle.storedExpiry (b : Bundle) : UInt64 := b.timestamp + b.lifetime

namespace BundleRow

/-- What `store` binds for a bundle. -/
def ofBundle (c : Clock) (b : Bundle) : BundleRow where
  toRowKey := b.toBundleID.rowKey
  source := b.source.getString
  destination := b.destination.getString
  reportto := b.reportto.getString
  custodian := b.custodian.getString
  procflags := b.procflags.toUInt32
  lifetime := b.lifetime
  appdatalength := if b.get PrimaryBlock.fragment then some b.appdatalength else none
  expiretime := b.storedExpiry
  priority := (MetaBundle.ofBundle c b).getPriority
  hopcount := (b.getBlock Block.newScopeControlHopLimit.blocktype Body.scopeControlHopLimit?).map
    ScopeControlHopLimitBlock.getHopsToLive

/-- The identifier that the query for expired bundles reads. -/
def bundleID (r : BundleRow) : BundleID := { r.toRowKey with sourceId := r.source }.bundleID

/-- `SQLiteBundleStorage::get(sqlite3_stmt*, MetaBundle&)`, which does not say that a bundle is a
fragment. The query may have no column for the hop count. -/
def metaBundle (c : Clock) (hasHopcount : Bool) (r : BundleRow) : MetaBundle :=
  let procflags := ofColumnInt r.procflags
  let fragment := FlagWord.has procflags PrimaryBlock.fragment
  { source := columnEID r.source
    timestamp := r.timestamp
    sequencenumber := r.sequencenumber
    fragment := false
    offset := if fragment then r.fragmentoffset.getD 0 else 0
    lifetime := r.lifetime
    destination := columnEID r.destination
    reportto := columnEID r.reportto
    custodian := columnEID r.custodian
    appdatalength := if fragment then r.appdatalength.getD 0 else 0
    procflags := procflags
    expiretime := c.expireTime r.timestamp r.lifetime
    hopcount :=
      if hasHopcount then r.hopcount.getD (UInt64.ofNat (2 ^ 64 - 1))
      else UInt64.ofNat (2 ^ 64 - 1) }

/-- `SQLiteBundleStorage::get(sqlite3_stmt*, Bundle&)`, into a new primary block. -/
def primaryBlock (obj : PrimaryBlock) (r : BundleRow) : PrimaryBlock :=
  let procflags := ofColumnInt r.procflags
  let fragment := FlagWord.has procflags PrimaryBlock.fragment
  { source := columnEID r.source
    destination := columnEID r.destination
    reportto := columnEID r.reportto
    custodian := columnEID r.custodian
    procflags := procflags
    timestamp := r.timestamp
    sequencenumber := r.sequencenumber
    lifetime := r.lifetime
    fragmentoffset := if fragment then r.fragmentoffset.getD 0 else obj.fragmentoffset
    appdatalength := if fragment then r.appdatalength.getD 0 else obj.appdatalength }

/-- The bundle has expired at the given time, for SQLite. -/
def expired (timestamp : UInt64) (r : BundleRow) : Bool :=
  decide (signed r.expiretime ≤ signed timestamp)

theorem expired_iff {timestamp : UInt64} {r : BundleRow} (ht : timestamp.toNat < 2 ^ 63)
    (hr : Regular r.expiretime) : r.expired timestamp = true ↔ r.expiretime ≤ timestamp := by
  rw [expired, decide_eq_true_eq, signed_le_signed hr.2 ht]

end BundleRow

/-! ### Statements -/

/-- The two tables, each in the order in which its rows were inserted. -/
structure Database where
  bundles : List BundleRow
  blocks : List BlockRow
deriving DecidableEq

namespace Database

/-- The tables are empty. -/
def empty : Database := ⟨[], []⟩

/-- `BUNDLE_STORE`, which is refused if it is a fragment whose key is taken. -/
def bundleStore (row : BundleRow) (db : Database) : Option Database :=
  (Table.insert? (fun r : BundleRow => r.unique?) row db.bundles).map fun bundles =>
    { db with bundles }

/-- `BLOCK_STORE`, which is refused if it belongs to a fragment whose key is taken. -/
def blockStore (row : BlockRow) (db : Database) : Option Database :=
  (Table.insert? (fun r : BlockRow => r.unique?) row db.blocks).map fun blocks => { db with blocks }

/-- Bundles are deleted, and the trigger deletes their blocks. -/
def delete (p : BundleRow → Bool) (db : Database) : Database where
  bundles := db.bundles.filter fun r => !p r
  blocks := Table.cascade BlockRow.toRowKey BundleRow.toRowKey (db.bundles.filter p) db.blocks

/-- `BUNDLE_DELETE` and `FRAGMENT_DELETE`. -/
def bundleDelete (k : RowKey) (db : Database) : Database :=
  db.delete fun r => decide (r.toRowKey = k)

/-- `EXPIRE_BUNDLE_DELETE`. -/
def expireBundleDelete (timestamp : UInt64) (db : Database) : Database :=
  db.delete (BundleRow.expired timestamp)

/-- `BUNDLE_UPDATE_CUSTODIAN` and `FRAGMENT_UPDATE_CUSTODIAN`. -/
def updateCustodian (k : RowKey) (custodian : Bytes) (db : Database) : Database :=
  { db with
    bundles := db.bundles.map fun r => if r.toRowKey = k then { r with custodian } else r }

/-- `BUNDLE_GET_ID` and `FRAGMENT_GET_ID`. -/
def bundleGetId (k : RowKey) (db : Database) : Option BundleRow :=
  db.bundles.find? fun r => decide (r.toRowKey = k)

/-- `BLOCK_GET_ID` and `BLOCK_GET_ID_FRAGMENT`. -/
def blockGetId (k : RowKey) (db : Database) : List BlockRow :=
  Table.orderBy BlockRow.ordernumber (db.blocks.filter fun r => decide (r.toRowKey = k))

/-- `EXPIRE_BUNDLE_FILENAMES`. -/
def expireBundleFilenames (timestamp : UInt64) (db : Database) : List Bytes :=
  (db.bundles.filter (BundleRow.expired timestamp)).flatMap fun a =>
    (db.blocks.filter fun b => decide (a.toRowKey = b.toRowKey)).map BlockRow.filename

/-- `EXPIRE_BUNDLES`. -/
def expireBundles (timestamp : UInt64) (db : Database) : List BundleID :=
  (db.bundles.filter (BundleRow.expired timestamp)).map BundleRow.bundleID

/-- `EXPIRE_NEXT_TIMESTAMP`. -/
def expireNextTimestamp (db : Database) : Option UInt64 :=
  (Table.orderBy signed (db.bundles.map BundleRow.expiretime)).head?

/-- `COUNT_ENTRIES`. -/
def countEntries (db : Database) : ℕ := db.bundles.length

variable {db db' : Database}

/-- A fragment is inserted exactly if its key is free, and a bundle that is no fragment always. -/
theorem insert?_unique_iff {α : Type} (key : α → RowKey) {row : α} {rows rows' : List α} :
    Table.insert? (fun r => (key r).unique?) row rows = some rows' ↔
      rows' = rows ++ [row] ∧
        ((key row).fragmentoffset = none ∨ ∀ r ∈ rows, key r ≠ key row) := by
  rw [Table.insert?_eq_some_iff, RowKey.unique?_eq_none_iff]
  refine and_congr_right fun _ => or_congr_right' fun hfragment => ?_
  have hrow : (key row).fragmentoffset.isSome = true := Option.isSome_iff_ne_none.2 hfragment
  refine forall₂_congr fun r _ => not_congr ⟨fun heq => ?_, fun heq => by rw [heq]⟩
  rw [RowKey.unique?, RowKey.unique?, if_pos hrow] at heq
  split_ifs at heq
  exact Option.some.inj heq

theorem bundleStore_eq_some_iff {row : BundleRow} : db.bundleStore row = some db' ↔
    db' = { db with bundles := db.bundles ++ [row] } ∧
      (row.fragmentoffset = none ∨ ∀ r ∈ db.bundles, r.toRowKey ≠ row.toRowKey) := by
  simp only [bundleStore, Option.map_eq_some_iff, insert?_unique_iff BundleRow.toRowKey]
  constructor
  · rintro ⟨rows, ⟨rfl, hrow⟩, rfl⟩
    exact ⟨rfl, hrow⟩
  · rintro ⟨rfl, hrow⟩
    exact ⟨_, ⟨rfl, hrow⟩, rfl⟩

theorem blockStore_eq_some_iff {row : BlockRow} : db.blockStore row = some db' ↔
    db' = { db with blocks := db.blocks ++ [row] } ∧
      (row.fragmentoffset = none ∨ ∀ r ∈ db.blocks, r.toRowKey ≠ row.toRowKey) := by
  simp only [blockStore, Option.map_eq_some_iff, insert?_unique_iff BlockRow.toRowKey]
  constructor
  · rintro ⟨rows, ⟨rfl, hrow⟩, rfl⟩
    exact ⟨rfl, hrow⟩
  · rintro ⟨rfl, hrow⟩
    exact ⟨_, ⟨rfl, hrow⟩, rfl⟩

theorem bundleStore_eq_none_iff {row : BundleRow} : db.bundleStore row = none ↔
    row.fragmentoffset ≠ none ∧ ∃ r ∈ db.bundles, r.toRowKey = row.toRowKey := by
  rw [← not_iff_not, ← Ne, Option.ne_none_iff_exists']
  simp only [bundleStore_eq_some_iff, exists_and_right, exists_eq, true_and]
  rw [not_and_or, not_not]
  push Not
  exact Iff.rfl

@[simp] theorem mem_bundles_delete {p : BundleRow → Bool} {r : BundleRow} :
    r ∈ (db.delete p).bundles ↔ r ∈ db.bundles ∧ p r = false := by
  simp [delete]

/-- **Deleting bundles deletes exactly their blocks.** -/
@[simp] theorem mem_blocks_delete {p : BundleRow → Bool} {b : BlockRow} :
    b ∈ (db.delete p).blocks ↔
      b ∈ db.blocks ∧ ∀ r ∈ db.bundles, p r = true → r.toRowKey ≠ b.toRowKey := by
  simp [delete, Table.mem_cascade]

/-- The custodian of a row is all that an update changes. -/
theorem mem_bundles_updateCustodian {k : RowKey} {custodian : Bytes} {r : BundleRow} :
    r ∈ (db.updateCustodian k custodian).bundles ↔
      ∃ t ∈ db.bundles, (if t.toRowKey = k then { t with custodian } else t) = r := by
  simp [updateCustodian]

@[simp] theorem mem_blockGetId {k : RowKey} {b : BlockRow} :
    b ∈ db.blockGetId k ↔ b ∈ db.blocks ∧ b.toRowKey = k := by
  simp [blockGetId]

@[simp] theorem mem_expireBundleFilenames {timestamp : UInt64} {name : Bytes} :
    name ∈ db.expireBundleFilenames timestamp ↔
      ∃ r ∈ db.bundles, r.expired timestamp = true ∧
        ∃ b ∈ db.blocks, r.toRowKey = b.toRowKey ∧ b.filename = name := by
  simp [expireBundleFilenames, and_assoc]

/-- **The next expiry time is the smallest**, in the order of SQLite. -/
theorem expireNextTimestamp_le {v : UInt64} (h : db.expireNextTimestamp = some v) {r : BundleRow}
    (hr : r ∈ db.bundles) : signed v ≤ signed r.expiretime :=
  Table.le_of_head?_orderBy h (List.mem_map_of_mem hr)

theorem exists_of_expireNextTimestamp {v : UInt64} (h : db.expireNextTimestamp = some v) :
    ∃ r ∈ db.bundles, r.expiretime = v :=
  List.mem_map.1 (Table.mem_orderBy.1 (List.mem_of_mem_head? h))

theorem expireNextTimestamp_eq_none_iff : db.expireNextTimestamp = none ↔ db.bundles = [] := by
  rw [expireNextTimestamp, List.head?_eq_none_iff, ← List.map_eq_nil_iff (f := BundleRow.expiretime)]
  constructor
  · exact fun h => (h ▸ Table.perm_orderBy (f := signed)).nil_eq.symm
  · intro h
    rw [h]
    rfl

end Database

end IbrDtn
