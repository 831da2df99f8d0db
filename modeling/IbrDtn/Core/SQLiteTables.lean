import IbrDtn.Core.SQLiteBlockFiles
import IbrDtn.Core.SQLiteTransactions

/-!
# The tables and the block files

Every row of a block belongs to a bundle and names a file.  This file says what keeps the rows and
the files in line, between calls and tasks that nothing interrupts, and that a bundle whose row and
blocks are there can be fetched.

## Main definitions

* `SQLiteBundleStorage.Tables` : the tables fit the block files.
* `SQLiteBundleStorage.Storable` : the bundles that can be stored and loaded again.

## Main results

* `SQLiteBundleStorage.exists_get` : a bundle whose files can be loaded can be fetched.
* `SQLiteBundleStorage.Tables.delete` : what deletions keep.
-/

namespace IbrDtn

namespace SQLiteBundleStorage

/-! ### Tables and files -/

/-- **The tables fit the block files**: every block belongs to a bundle, and has a file of its own
that can be loaded. The expiry times are regular, and the next one covers them. -/
structure Tables (s : SQLiteBundleStorage) : Prop where
  closed : s.session.saved = none
  owned : ∀ b ∈ s.database.blocks, ∃ r ∈ s.database.bundles, r.toRowKey = b.toRowKey
  loadable : ∀ b ∈ s.database.blocks, Loadable s.files b
  names : s.database.blocks.Pairwise fun a b => columnText a.filename ≠ columnText b.filename
  regular : ∀ r ∈ s.database.bundles, Regular r.expiretime
  next : ∀ r ∈ s.database.bundles, Covered s.nextExpiration r

theorem tables_create : create.Tables :=
  ⟨rfl, fun _ h => absurd h List.not_mem_nil, fun _ h => absurd h List.not_mem_nil, .nil,
    fun _ h => absurd h List.not_mem_nil, fun _ h => absurd h List.not_mem_nil⟩

/-- **A bundle with blocks can be fetched**, if its files can be loaded and no mark is equivalent to
its identifier. Its primary block is read from its row. -/
theorem exists_get {s : SQLiteBundleStorage} {env : GetEnv} (henv : env.Healthy) {i : BundleID}
    (hrow : ∃ r ∈ s.database.bundles, r.toRowKey = i.rowKey)
    (hblock : ∃ b ∈ s.database.blocks, b.toRowKey = i.rowKey)
    (hloadable : ∀ b ∈ s.database.blocks, b.toRowKey = i.rowKey → Loadable s.files b)
    (hvisible : ∀ m ∈ s.deletionList, i.Comparable m) : ∃ b, s.get env i = .ok b ∧
      ∃ r ∈ s.database.bundles, r.toRowKey = i.rowKey ∧
        b.toPrimaryBlock = r.primaryBlock env.created := by
  have hmark : OrderedSet.find? id BundleID.lt i s.deletionList = none :=
    OrderedSet.find?_eq_none_of_comparable fun m hm => (hvisible m hm).symm
  have hhidden : s.containsDeletion i = false := by rw [containsDeletion, hmark, Option.isSome_none]
  obtain ⟨r, hr, hkey⟩ := hrow
  obtain ⟨row, hfind⟩ : ∃ row, s.database.bundleGetId i.rowKey = some row :=
    Option.isSome_iff_exists.1 (List.find?_isSome.2 ⟨r, hr, decide_eq_true hkey⟩)
  obtain ⟨bundle, hblocks, hprimary, hlength⟩ := getBlocks_loadable henv
    (s.database.blockGetId i.rowKey)
    (fun b hb => hloadable b (Database.mem_blockGetId.1 hb).1 (Database.mem_blockGetId.1 hb).2)
    (newBundle env.created row)
  have hne : bundle.blocks.isEmpty = false := by
    obtain ⟨b, hb, hbkey⟩ := hblock
    have hpos := List.length_pos_of_mem (Database.mem_blockGetId.2 ⟨hb, hbkey⟩)
    rw [List.isEmpty_eq_false_iff, ← List.length_pos_iff, hlength]
    omega
  refine ⟨bundle, ?_, row, List.mem_of_find?_eq_some hfind,
    of_decide_eq_true (List.find?_some hfind :), hprimary⟩
  rw [get, hhidden, hfind, if_neg Bool.false_ne_true]
  dsimp only
  rw [hblocks]
  dsimp only
  rw [hne, if_neg Bool.false_ne_true]

namespace Tables

variable {s : SQLiteBundleStorage}

/-- A call that changes nothing but marks and tasks. -/
theorem of_eq (h : s.Tables) {s' : SQLiteBundleStorage} (hsession : s'.session = s.session)
    (hfiles : s'.files = s.files) (hnext : s'.nextExpiration = s.nextExpiration) : s'.Tables := by
  have hdatabase : s'.database = s.database := congrArg Session.current hsession
  exact ⟨hsession ▸ h.closed, hdatabase ▸ h.owned, by rw [hdatabase, hfiles]; exact h.loadable,
    hdatabase ▸ h.names, hdatabase ▸ h.regular, by rw [hdatabase, hnext]; exact h.next⟩

/-- **Deletions keep the tables fit**, if the files of the bundles are removed and no others. -/
theorem delete (h : s.Tables) {p : BundleRow → Bool} {names : List Bytes}
    (hnames : ∀ name ∈ names, ∃ b ∈ s.database.blocks, b.filename = name ∧
      ∃ r ∈ s.database.bundles, p r = true ∧ r.toRowKey = b.toRowKey) :
    ((s.removeFiles names).execute (Database.delete p)).updateExpireTime.Tables := by
  have hregular : ∀ r ∈ (s.database.delete p).bundles, Regular r.expiretime := fun r hr =>
    h.regular r (Database.mem_bundles_delete.1 hr).1
  refine ⟨h.closed, fun b hb => ?_, fun b hb => ?_, h.names.sublist List.filter_sublist, hregular,
    fun r hr => covered_nextExpiryTime
      (s := (s.removeFiles names).execute (Database.delete p)) hregular hr⟩
  · obtain ⟨hb, hkept⟩ := Database.mem_blocks_delete.1 hb
    obtain ⟨r, hr, hkey⟩ := h.owned b hb
    refine ⟨r, Database.mem_bundles_delete.2 ⟨hr, ?_⟩, hkey⟩
    exact Bool.eq_false_iff.2 fun hp => hkept r hr hp hkey
  · obtain ⟨hb, hkept⟩ := Database.mem_blocks_delete.1 hb
    refine (h.loadable b hb).of_content ?_
    change Directory.content? _ (Directory.removeAll (names.map columnText) s.files) = _
    rw [Directory.content?_removeAll, if_neg]
    intro hmem
    obtain ⟨name, hname, htext⟩ := List.mem_map.1 hmem
    obtain ⟨b', hb', rfl, r, hr, hp, hkey⟩ := hnames name hname
    have hne : b' ≠ b := by
      rintro rfl
      exact hkept r hr hp hkey
    have hsymm : Std.Symm fun a b : BlockRow => columnText a.filename ≠ columnText b.filename :=
      ⟨fun _ _ h => h.symm⟩
    exact h.names.forall hb' hb hne htext

/-- The rows are those of the bundles and a new one, with some custodian. -/
theorem mem_custodians {bundles : List BundleRow} {custodian : BundleRow → Bytes} {r : BundleRow} :
    r ∈ bundles.map (fun t => { t with custodian := custodian t }) ↔
      ∃ t ∈ bundles, { t with custodian := custodian t } = r := List.mem_map

/-- **A bundle is written to the tables and its blocks to files.** -/
theorem written (h : s.Tables) {b : Bundle} {env : ℕ → BlockEnv}
    (henv : StoreEnv.Works env s.database) (hseparable : ∀ block ∈ b.blocks, block.Separable)
    (hregular : Regular b.storedExpiry) {rows : List BlockRow} {files' : Directory Bytes Bytes}
    (hrows : WrittenAll b env s.files files' rows) (c : Clock) (custodian : BundleRow → Bytes) :
    Tables { s with
      session := .closed {
        bundles := (s.database.bundles ++ [BundleRow.ofBundle c b]).map fun r =>
          { r with custodian := custodian r }
        blocks := s.database.blocks ++ rows }
      files := files'
      nextExpiration := earlier s.nextExpiration b.storedExpiry } := by
  have hold {r : BlockRow} (hr : r ∈ s.database.blocks) (n : ℕ) :
      ¬ (env n).Names (columnText r.filename) := fun hname => henv.fresh n _ hname r hr rfl
  have hnew {r : BlockRow} (hr : r ∈ rows) :
      columnText r.filename = r.filename ∧ ∃ n, (env n).Names r.filename := by
    obtain ⟨n, block, hblock, hwritten⟩ := hrows.exists_written hr
    exact ⟨henv.text n _ hwritten.named, n, hwritten.named⟩
  refine ⟨rfl, fun r hr => ?_, fun r hr => ?_, ?_, fun r hr => ?_, fun r hr => ?_⟩
  · rcases List.mem_append.1 hr with hr | hr
    · obtain ⟨t, ht, hkey⟩ := h.owned r hr
      exact ⟨_, mem_custodians.2 ⟨t, List.mem_append_left _ ht, rfl⟩, hkey⟩
    · obtain ⟨n, block, hblock, hwritten⟩ := hrows.exists_written hr
      exact ⟨_, mem_custodians.2 ⟨.ofBundle c b, List.mem_append_right _ List.mem_cons_self, rfl⟩,
        hwritten.key.symm⟩
  · rcases List.mem_append.1 hr with hr | hr
    · exact (h.loadable r hr).of_content (hrows.other _ (hold hr))
    · obtain ⟨n, block, hblock, hwritten⟩ := hrows.exists_written hr
      exact hwritten.loadable (hseparable block hblock) (hnew hr).1
  · refine List.pairwise_append.2 ⟨h.names, ?_, fun r hr t ht heq => ?_⟩
    · rw [List.pairwise_iff_getElem]
      intro i j hi hj hlt heq
      rw [(hnew (List.getElem_mem hi)).1, (hnew (List.getElem_mem hj)).1] at heq
      have hnamed := (hrows.written i hi (hrows.length_eq ▸ hi)).named
      rw [heq] at hnamed
      have := henv.distinct _ _ _ hnamed (hrows.written j hj (hrows.length_eq ▸ hj)).named
      omega
    · obtain ⟨htext, n, hname⟩ := hnew ht
      refine hold hr n ?_
      rwa [heq, htext]
  · obtain ⟨t, ht, rfl⟩ := mem_custodians.1 hr
    rcases List.mem_append.1 ht with ht | ht
    · exact h.regular t ht
    · rw [List.mem_singleton.1 ht]
      exact hregular
  · obtain ⟨t, ht, rfl⟩ := mem_custodians.1 hr
    rcases List.mem_append.1 ht with ht | ht
    · exact (h.next t ht).earlier hregular.1
    · rw [List.mem_singleton.1 ht]
      exact covered_earlier hregular.1 rfl _

/-- A bundle with blocks can be fetched. -/
theorem exists_get (h : s.Tables) {env : GetEnv} (henv : env.Healthy) {i : BundleID}
    (hrow : ∃ r ∈ s.database.bundles, r.toRowKey = i.rowKey)
    (hblock : ∃ b ∈ s.database.blocks, b.toRowKey = i.rowKey)
    (hvisible : ∀ m ∈ s.deletionList, i.Comparable m) : ∃ b, s.get env i = .ok b ∧
      ∃ r ∈ s.database.bundles, r.toRowKey = i.rowKey ∧
        b.toPrimaryBlock = r.primaryBlock env.created :=
  SQLiteBundleStorage.exists_get henv hrow hblock (fun b hb _ => h.loadable b hb) hvisible

/-- The task of a removal keeps the tables fit. -/
theorem runRemove (h : s.Tables) (i : BundleID) : (s.runRemove i).Tables := by
  have hnames : ∀ name ∈ s.filenames i.rowKey, ∃ b ∈ s.database.blocks,
      b.filename = name ∧ ∃ r ∈ s.database.bundles,
        decide (r.toRowKey = i.rowKey) = true ∧ r.toRowKey = b.toRowKey := by
    intro name hname
    obtain ⟨b, hb, rfl⟩ := List.mem_map.1 hname
    obtain ⟨hb, hkey⟩ := Database.mem_blockGetId.1 hb
    obtain ⟨r, hr, hrkey⟩ := h.owned b hb
    exact ⟨b, hb, rfl, r, hr, decide_eq_true (hrkey.trans hkey), hrkey⟩
  exact (h.delete hnames).of_eq rfl rfl rfl

/-- A bundle has not expired exactly if the time of the tick is before its expiry time. -/
theorem expired_eq_false_iff (h : s.Tables) {timestamp : UInt64} (ht : timestamp.toNat < 2 ^ 63)
    {r : BundleRow} (hr : r ∈ s.database.bundles) :
    r.expired timestamp = false ↔ timestamp < r.expiretime := by
  rw [← UInt64.not_le, ← BundleRow.expired_iff ht (h.regular r hr), Bool.not_eq_true]

/-- **The task of a tick deletes what has expired**, also if it is skipped, since the next expiry
time covers every bundle. -/
theorem runExpire_eq (h : s.Tables) {timestamp : UInt64} (ht : timestamp.toNat < 2 ^ 63) :
    (s.runExpire timestamp).1 = s.database.expireBundles timestamp ∧
      (s.runExpire timestamp).2.database = s.database.expireBundleDelete timestamp ∧
        (s.runExpire timestamp).2.tasks = s.tasks ∧
          (s.runExpire timestamp).2.deletionList = s.deletionList := by
  rw [SQLiteBundleStorage.runExpire]
  split_ifs with hskip
  · have hlater : ∀ r ∈ s.database.bundles, r.expired timestamp = false := by
      intro r hr
      obtain ⟨hne, hle⟩ := h.next r hr
      rw [h.expired_eq_false_iff ht hr]
      rcases Bool.or_eq_true_iff.1 hskip with hlt | hzero
      · exact UInt64.lt_of_lt_of_le (of_decide_eq_true hlt) hle
      · exact absurd (eq_of_beq hzero) hne
    have hnone : s.database.bundles.filter (BundleRow.expired timestamp) = [] :=
      List.filter_eq_nil_iff.2 fun r hr => Bool.not_eq_true _ ▸ hlater r hr
    refine ⟨?_, ?_, rfl, rfl⟩
    · rw [Database.expireBundles, hnone]
      rfl
    · rw [Database.expireBundleDelete, Database.delete, hnone, List.filter_eq_self.2 fun r hr => by
        rw [hlater r hr]
        rfl, Table.cascade]
      exact congrArg (Database.mk s.database.bundles) (List.filter_eq_self.2 fun _ _ => rfl).symm
  · exact ⟨rfl, rfl, rfl, rfl⟩

/-- The task of a tick keeps the tables fit. -/
theorem runExpire (h : s.Tables) (timestamp : UInt64) : (s.runExpire timestamp).2.Tables := by
  have hnames : ∀ name ∈ s.database.expireBundleFilenames timestamp,
      ∃ b ∈ s.database.blocks, b.filename = name ∧
        ∃ r ∈ s.database.bundles, r.expired timestamp = true ∧ r.toRowKey = b.toRowKey := by
    intro name hname
    obtain ⟨r, hr, hr', b, hb, hkey, rfl⟩ := Database.mem_expireBundleFilenames.1 hname
    exact ⟨b, hb, rfl, r, hr, hr', hkey⟩
  rw [SQLiteBundleStorage.runExpire]
  split_ifs
  · exact h
  · exact h.delete hnames

end Tables

/-- What can be fetched has a row. -/
theorem exists_row_of_get {s : SQLiteBundleStorage} {env : GetEnv} {i : BundleID} {b : Bundle}
    (h : s.get env i = .ok b) : ∃ r ∈ s.database.bundles, r.toRowKey = i.rowKey := by
  rw [get] at h
  split at h
  · simp at h
  · split at h
    · simp at h
    · next row hfind =>
        exact ⟨row, List.mem_of_find?_eq_some hfind, of_decide_eq_true (List.find?_some hfind :)⟩

/-- The bundle can be stored and loaded again: it has blocks, a fragment only one, and each can be
read back from its file. -/
structure Storable (b : Bundle) : Prop where
  blocks_ne : b.blocks ≠ []
  separable : ∀ block ∈ b.blocks, block.Separable
  fragment : b.get PrimaryBlock.fragment = true → b.blocks.length ≤ 1

/-- Nothing fails while blocks go to files `b1`, `b2` and so on. -/
theorem works_sample {access : BlobAccess} (haccess : ∀ path, access ≠ .refused (.ok path)) :
    StoreEnv.Works (fun n => ⟨.ok (ascii ['b'] ++ Decimal.numeral n), access, none, none⟩)
      Database.empty := by
  have hnames {n : ℕ} {path : Bytes} (h : BlockEnv.Names
      ⟨.ok (ascii ['b'] ++ Decimal.numeral n), access, none, none⟩ path) :
      path = ascii ['b'] ++ Decimal.numeral n :=
    h.elim (fun h => (Except.ok.inj h).symm) fun h => absurd h (haccess path)
  refine ⟨fun n => ⟨_, rfl⟩, fun _ => rfl, fun _ => rfl, fun n path h => ?_,
    fun _ _ _ r hr => absurd hr List.not_mem_nil, fun m n path hm hn => ?_⟩
  · rw [hnames h]
    refine columnText_eq_self fun hzero => ?_
    rcases List.mem_append.1 hzero with hzero | hzero
    · revert hzero
      decide
    · exact absurd ((Decimal.isNumeral_numeral n).digits _ hzero) (by decide)
  · have heq := (hnames hm).symm.trans (hnames hn)
    exact Decimal.numeral_injective (List.append_cancel_left heq)

theorem sampleEnv_works : StoreEnv.Works sampleEnv.block Database.empty :=
  works_sample fun _ h => by simp at h

theorem sampleWhole_storable : Storable sampleWhole := by
  have hblocks : sampleWhole.blocks =
      [({ Block.newPayload with body := .payload [0x68, 0x69] } : Block).set Block.lastBlock
        true] := rfl
  refine ⟨by decide, fun block hblock => ?_, fun h => absurd h (by decide)⟩
  rw [hblocks] at hblock
  obtain rfl := List.mem_singleton.1 hblock
  exact ⟨by decide, fun _ h => absurd h (by simp [Block.set, Body.security?]), by decide,
    fun _ h => absurd h (by simp [Block.set, Block.newPayload]), by decide⟩

/-- The environment in which nothing fails while a bundle is loaded. -/
def sampleGetEnv : GetEnv :=
  ⟨PrimaryBlock.create 100 1, fun _ => .ok true, fun _ => 0, .default BLOB.exact ⟨0, 0⟩, []⟩

theorem sampleGetEnv_healthy : sampleGetEnv.Healthy :=
  ⟨fun _ => rfl, BLOB.exact_copiesExactly, fun _ _ => rfl⟩

end SQLiteBundleStorage

end IbrDtn
