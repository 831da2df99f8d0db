import IbrDtn.Core.SQLiteTransactions

/-!
# The recovery of the storage in a database

When `SQLiteBundleStorage` comes up, the process before it may have ended at any moment.  The
storage compares the rows of the blocks with the block files, queues the removal of every bundle
that has a block without a file, and removes the files that no row names.  This file says what is
left when these removals have run, and that a recovery may be cut off and done again.

## Main definitions

* `SQLiteBundleStorage.restart` : what a new process finds.
* `SQLiteBundleStorage.componentUp` : the storage comes up.
* `SQLiteBundleStorage.recover` : the storage comes up, and its worker does what is queued.
* `SQLiteBundleStorage.recovered` : what a recovery leaves.

## Main results

* `SQLiteBundleStorage.recover_eq` : a recovery completes, and leaves that.
* `SQLiteBundleStorage.recover_interrupted` : a recovery that was cut off is completed by the next.
* `SQLiteBundleStorage.recover_matched_iff` : when the tables and the files belong together again.
-/

namespace IbrDtn


/-- Identifiers that are told apart have different keys. -/
theorem BundleID.Apart.rowKey_ne {i j : BundleID} (h : i.Apart j) : i.rowKey ≠ j.rowKey := by
  intro heq
  simp only [BundleID.rowKey, RowKey.mk.injEq] at heq
  obtain ⟨hsource, htime, hseq, hoffset⟩ := heq
  obtain ⟨hi, hj, hne⟩ := (h hsource).2 htime hseq
  rw [hi, hj, if_pos rfl, if_pos rfl] at hoffset
  exact hne (Option.some.inj hoffset)

namespace SQLiteBundleStorage

/-! ### Coming up -/

/-- What a new process finds: an open transaction is rolled back, and what was only in memory is
lost. -/
def restart (s : SQLiteBundleStorage) : SQLiteBundleStorage where
  session := s.session.rollback
  files := s.files
  deletionList := []
  nextExpiration := 0
  tasks := []

/-- What `check_consistency` takes for the path of a block file, with the function
`File::getBasename`. -/
def isBlockFile (basename : Bytes → Bytes) (path : Bytes) : Bool :=
  path.getLast? != some 0x2e && (basename path).head? == some 0x62

/-- The block files that are found. -/
def blockFiles (basename : Bytes → Bytes) (files : Directory Bytes Bytes) : List Bytes :=
  (files.map Prod.fst).filter (isBlockFile basename)

/-- The loop of `check_bundles` over the rows of the blocks, with the files that no row has named
yet, and with the set of damaged bundles. -/
def scanBlocks : List BlockRow → List Bytes → List BundleID → List Bytes × List BundleID
  | [], names, ids => (names, ids)
  | b :: bs, names, ids =>
      let filename := columnText b.filename
      if names.contains filename then
        scanBlocks bs (names.filter fun name => name ≠ filename) ids
      else scanBlocks bs names (OrderedSet.insert id BundleID.lt b.toRowKey.bundleID ids)

/-- The loop of `check_bundles` over the damaged bundles. `get_meta` throws an exception that is not
caught if the bundle is marked already; one that is not found is passed over. -/
def removeDamaged : List BundleID → SQLiteBundleStorage → Except Exn SQLiteBundleStorage
  | [], s => .ok s
  | i :: is, s =>
      if s.containsDeletion i then .error noBundleFound
      else
        match s.database.bundleGetId i.rowKey with
        | none => removeDamaged is s
        | some _ => removeDamaged is (s.remove i)

/-- `SQLiteBundleStorage::check_bundles`. -/
def checkBundles (basename : Bytes → Bytes) (s : SQLiteBundleStorage) :
    Except Exn SQLiteBundleStorage := do
  let (names, ids) := scanBlocks s.database.blocks (blockFiles basename s.files) []
  let s ← removeDamaged ids s
  pure { s with files := s.files.removeAll names }

/-- `SQLiteBundleStorage::componentUp` on an open database. The query of `check_fragments` compares
an offset with null, which holds for no row. -/
def componentUp (basename : Bytes → Bytes) (s : SQLiteBundleStorage) :
    Except Exn SQLiteBundleStorage := do
  let s ← checkBundles basename s
  pure s.updateExpireTime

/-- The worker does the given number of tasks. -/
def work (s : SQLiteBundleStorage) (n : ℕ) : SQLiteBundleStorage :=
  (fun s : SQLiteBundleStorage => s.runTask.2)^[n] s

/-- A new process: the storage comes up, and the worker does what is queued. -/
def recover (basename : Bytes → Bytes) (s : SQLiteBundleStorage) :
    Except Exn SQLiteBundleStorage := do
  let s ← componentUp basename s.restart
  pure (s.work s.tasks.length)

/-! ### What is left -/

/-- The rows for which the loop finds no file: there is none, or an earlier row has named it. -/
def damaged : List Bytes → List BlockRow → List BlockRow
  | _, [] => []
  | names, b :: bs =>
      if names.contains (columnText b.filename) then
        damaged (names.filter fun name => name ≠ columnText b.filename) bs
      else b :: damaged names bs

/-- The identifiers of the damaged bundles. -/
def damagedIds (basename : Bytes → Bytes) (s : SQLiteBundleStorage) : List BundleID :=
  (damaged (blockFiles basename s.files) s.database.blocks).map fun b => b.toRowKey.bundleID

/-- The bundles of the key are removed: a damaged row has an identifier with this key, and there is
such a bundle. -/
def Doomed (basename : Bytes → Bytes) (s : SQLiteBundleStorage) (k : RowKey) : Prop :=
  (∃ i ∈ s.damagedIds basename, i.rowKey = k) ∧ ∃ r ∈ s.database.bundles, r.toRowKey = k

instance (basename : Bytes → Bytes) (s : SQLiteBundleStorage) (k : RowKey) :
    Decidable (s.Doomed basename k) := inferInstanceAs (Decidable (_ ∧ _))

/-- A file is kept: it is no block file or a row names it, and none of the rows that are deleted
does. -/
def Keeps (basename : Bytes → Bytes) (s : SQLiteBundleStorage) (path : Bytes) : Prop :=
  (isBlockFile basename path = true → ∃ b ∈ s.database.blocks, columnText b.filename = path) ∧
    ∀ b ∈ s.database.blocks, s.Doomed basename b.toRowKey → columnText b.filename ≠ path

instance (basename : Bytes → Bytes) (s : SQLiteBundleStorage) (path : Bytes) :
    Decidable (s.Keeps basename path) := inferInstanceAs (Decidable (_ ∧ _))

/-- The tables that a recovery leaves. -/
def recoveredTables (basename : Bytes → Bytes) (s : SQLiteBundleStorage) : Database where
  bundles := s.database.bundles.filter fun r => decide (¬ s.Doomed basename r.toRowKey)
  blocks := s.database.blocks.filter fun b => decide (¬ s.Doomed basename b.toRowKey)

/-- The block files that no row names. -/
def strays (basename : Bytes → Bytes) (s : SQLiteBundleStorage) : List Bytes :=
  (blockFiles basename s.files).filter fun name =>
    decide (∀ b ∈ s.database.blocks, columnText b.filename ≠ name)

/-- **What a recovery leaves.** -/
def recovered (basename : Bytes → Bytes) (s : SQLiteBundleStorage) : SQLiteBundleStorage where
  session := .closed (s.recoveredTables basename)
  files := s.files.filter fun f => decide (s.Keeps basename f.1)
  deletionList := []
  nextExpiration := (s.recoveredTables basename).expireNextTimestamp.getD 0
  tasks := []

/-! ### The loops -/

variable {basename : Bytes → Bytes} {s s' : SQLiteBundleStorage}

theorem scanBlocks_eq (bs : List BlockRow) (names : List Bytes) (ids : List BundleID) :
    scanBlocks bs names ids =
      (names.filter fun name => decide (∀ b ∈ bs, columnText b.filename ≠ name),
        ((damaged names bs).map fun b => b.toRowKey.bundleID).foldl
          (fun ids i => OrderedSet.insert id BundleID.lt i ids) ids) := by
  induction bs generalizing names ids with
  | nil => simp [scanBlocks, damaged]
  | cons b bs ih =>
      rw [scanBlocks, damaged]
      split_ifs with hmem
      · rw [ih, List.filter_filter]
        refine Prod.ext (List.filter_congr fun name _ => ?_) rfl
        rw [← Bool.decide_and, decide_eq_decide, List.forall_mem_cons]
        exact ⟨fun h => ⟨h.2.symm, h.1⟩, fun h => ⟨h.2, h.1.symm⟩⟩
      · rw [ih, List.map_cons, List.foldl_cons]
        refine Prod.ext (List.filter_congr fun name hname => ?_) rfl
        have hne : columnText b.filename ≠ name :=
          fun heq => hmem (List.contains_iff_mem.2 (heq ▸ hname))
        simp [hne]

/-- Identifiers that are the same or told apart. -/
def Separate (is : List BundleID) : Prop := ∀ i ∈ is, ∀ j ∈ is, i = j ∨ i.Apart j

instance (is : List BundleID) : Decidable (Separate is) :=
  inferInstanceAs (Decidable (∀ i ∈ is, ∀ j ∈ is, i = j ∨ i.Apart j))

theorem ranked_of_separate {is : List BundleID} (h : Separate is) {i j : BundleID} (hi : i ∈ is)
    (hj : j ∈ is) (hne : i ≠ j) : OrderedSet.Ranked BundleID.lt BundleID.rank i j :=
  BundleID.ranked_of_apart ((h i hi j hj).resolve_left hne)

/-- **The set of the identifiers that are inserted**, if they are told apart. -/
theorem exists_holds_foldl {is ids t : List BundleID} (hsep : Separate (is ++ t)) (ht : t.Nodup)
    (h : OrderedSet.Holds id BundleID.rank ids t) :
    ∃ t', OrderedSet.Holds id BundleID.rank
        (is.foldl (fun ids i => OrderedSet.insert id BundleID.lt i ids) ids) t' ∧ t'.Nodup ∧
      ∀ i, i ∈ t' ↔ i ∈ is ∨ i ∈ t := by
  induction is generalizing ids t with
  | nil => exact ⟨t, h, ht, fun i => by simp⟩
  | cons i is ih =>
      have hranked {j : BundleID} (hj : j ∈ t) (hne : j ≠ i) :
          OrderedSet.Ranked BundleID.lt BundleID.rank j i :=
        ranked_of_separate hsep (List.mem_append_right _ hj)
          (List.mem_append_left _ List.mem_cons_self) hne
      rw [List.foldl_cons]
      by_cases hi : i ∈ t
      · obtain ⟨l, r, rfl⟩ := List.append_of_mem hi
        have hnodup := (List.nodup_middle.1 ht)
        have hh := h.of_perm List.perm_middle
        rw [hh.insert_eq (BundleID.equivalent_self i)
          (fun j hj => hranked (by simp at hj ⊢; tauto) (by
            rintro rfl
            exact (List.nodup_cons.1 hnodup).1 hj)) rfl]
        obtain ⟨t', hh', hnodup', hmem⟩ := ih (fun a ha b hb => hsep a (by simp at ha ⊢; tauto) b
          (by simp at hb ⊢; tauto)) ht h
        refine ⟨t', hh', hnodup', fun j => ?_⟩
        rw [hmem]
        simp only [List.mem_append, List.mem_cons]
        tauto
      · obtain ⟨t', hh', hnodup', hmem⟩ := ih (t := i :: t)
          (fun a ha b hb => hsep a (by simp at ha ⊢; tauto) b (by simp at hb ⊢; tauto))
          (List.nodup_cons.2 ⟨hi, ht⟩)
          (h.insert fun j hj => hranked hj (by
            rintro rfl
            exact hi hj))
        refine ⟨t', hh', hnodup', fun j => ?_⟩
        rw [hmem]
        simp only [List.mem_cons]
        tauto

/-- The bundles that are damaged and have a row. -/
def present (s : SQLiteBundleStorage) (ids : List BundleID) : List BundleID :=
  ids.filter fun i => (s.database.bundleGetId i.rowKey).isSome

/-- **The damaged bundles are marked, and their removal is queued.** -/
theorem exists_removeDamaged {ids t : List BundleID} (hsep : Separate (ids ++ t))
    (hnodup : (ids ++ t).Nodup) (h : OrderedSet.Holds id BundleID.rank s.deletionList t) :
    ∃ marked, removeDamaged ids s = .ok { s with
        deletionList := marked
        tasks := s.tasks ++ (s.present ids).map Task.remove } ∧
      OrderedSet.Holds id BundleID.rank marked (s.present ids ++ t) := by
  induction ids generalizing s t with
  | nil =>
      refine ⟨s.deletionList, ?_, h⟩
      rw [removeDamaged, present, List.filter_nil, List.map_nil, List.append_nil]
  | cons i ids ih =>
      have hranked : ∀ j ∈ t, OrderedSet.Ranked BundleID.lt BundleID.rank j i := by
        intro j hj
        refine ranked_of_separate hsep (List.mem_append_right _ hj)
          (List.mem_append_left _ List.mem_cons_self) ?_
        rintro rfl
        exact (List.nodup_cons.1 hnodup).1 (List.mem_append_right _ hj)
      have hcontains : s.containsDeletion i = false := by
        rw [containsDeletion, h.find?_eq_none hranked]
        rfl
      rw [removeDamaged, hcontains, if_neg Bool.false_ne_true]
      cases hget : s.database.bundleGetId i.rowKey with
      | none =>
          obtain ⟨marked, hok, hmarked⟩ := ih (fun a ha b hb => hsep a (List.mem_cons_of_mem i ha)
            b (List.mem_cons_of_mem i hb)) (List.nodup_cons.1 hnodup).2 h
          have hpresent : s.present (i :: ids) = s.present ids := by
            rw [present, List.filter_cons_of_neg (by simp [hget]), present]
          rw [hpresent]
          exact ⟨marked, hok, hmarked⟩
      | some row =>
          have hpresent : s.present (i :: ids) = i :: s.present ids := by
            rw [present, List.filter_cons_of_pos (by simp [hget]), present]
          have hmoved : (ids ++ i :: t).Perm (i :: (ids ++ t)) := List.perm_middle
          obtain ⟨marked, hok, hmarked⟩ := ih (s := s.remove i) (t := i :: t)
            (fun a ha b hb => hsep a (hmoved.mem_iff.1 ha) b (hmoved.mem_iff.1 hb))
            (hmoved.nodup_iff.2 hnodup) (h.insert hranked)
          refine ⟨marked, ?_, ?_⟩
          · rw [hpresent]
            refine hok.trans (congrArg Except.ok ?_)
            have htasks : (s.remove i).tasks = s.tasks ++ [.remove i] := rfl
            rw [htasks, List.append_assoc]
            rfl
          · rw [hpresent]
            exact hmarked.of_perm List.perm_middle

/-! ### The tasks -/

/-- The tables without the bundles of some keys. -/
def strikeTables (ks : List RowKey) (db : Database) : Database where
  bundles := db.bundles.filter fun r => decide (r.toRowKey ∉ ks)
  blocks := db.blocks.filter fun b => decide (b.toRowKey ∉ ks)

/-- The files that the rows of these bundles name. -/
def struckFiles (ks : List RowKey) (db : Database) : List Bytes :=
  (db.blocks.filter fun b => decide (b.toRowKey ∈ ks)).map fun b => columnText b.filename

theorem strikeTables_cons (k : RowKey) (ks : List RowKey) (db : Database) :
    strikeTables (k :: ks) db = strikeTables ks (strikeTables [k] db) := by
  rw [strikeTables, strikeTables, strikeTables, List.filter_filter, List.filter_filter]
  refine congrArg₂ Database.mk (List.filter_congr fun r _ => ?_) (List.filter_congr fun b _ => ?_)
  · simp [Bool.and_comm]
  · simp [Bool.and_comm]

theorem bundleDelete_eq {db : Database} {k : RowKey} (h : ∃ r ∈ db.bundles, r.toRowKey = k) :
    db.bundleDelete k = strikeTables [k] db := by
  refine congrArg₂ Database.mk (List.filter_congr fun r _ => by simp) ?_
  refine List.filter_congr fun b _ => ?_
  obtain ⟨r, hr, rfl⟩ := h
  rw [Bool.eq_iff_iff]
  simp only [Bool.not_eq_true', List.any_eq_false, List.mem_filter, decide_eq_true_eq,
    List.mem_singleton, and_imp]
  constructor
  · exact fun hnone heq => hnone r hr rfl heq.symm
  · exact fun hne t _ ht heq => hne (heq.symm.trans ht)

/-- The storage without the bundles of some keys. -/
def strike (ks : List RowKey) (s : SQLiteBundleStorage) : SQLiteBundleStorage :=
  { s with
    session := .closed (strikeTables ks s.database)
    files := s.files.removeAll (struckFiles ks s.database) }

/-- **A task removes the bundles of its key**, their blocks and their files. -/
theorem runRemove_eq {i : BundleID} (hclosed : s.session.saved = none)
    (h : ∃ r ∈ s.database.bundles, r.toRowKey = i.rowKey) : s.runRemove i =
      { strike [i.rowKey] s with
        deletionList := OrderedSet.erase id BundleID.lt i s.deletionList
        nextExpiration := (strikeTables [i.rowKey] s.database).expireNextTimestamp.getD 0 } := by
  have hfiles : s.files.removeAll ((s.filenames i.rowKey).map columnText) =
      s.files.removeAll (struckFiles [i.rowKey] s.database) := by
    refine Directory.removeAll_congr fun name => ?_
    simp [filenames, struckFiles]
  have hsession : s.session.update (fun db => db.bundleDelete i.rowKey) =
      .closed (strikeTables [i.rowKey] s.database) := by
    rw [← bundleDelete_eq h]
    exact congrArg (Session.mk _) hclosed
  rw [runRemove, strike, ← hfiles, ← hsession, ← bundleDelete_eq h]
  rfl

theorem strikeTables_nil (db : Database) : strikeTables [] db = db := by
  rw [strikeTables, List.filter_eq_self.2 (by simp), List.filter_eq_self.2 (by simp)]

theorem strike_nil (hclosed : s.session.saved = none) : strike [] s = s := by
  have hsession : s.session = .closed s.database := congrArg (Session.mk _) hclosed
  have hfiles : s.files.removeAll (struckFiles [] s.database) = s.files := by
    rw [Directory.removeAll, List.filter_eq_self.2 (by simp [struckFiles])]
  rw [strike, strikeTables_nil, hfiles, ← hsession]

theorem strike_cons (k : RowKey) (ks : List RowKey) (s : SQLiteBundleStorage) :
    strike (k :: ks) s = strike ks (strike [k] s) := by
  have hfiles : (s.files.removeAll (struckFiles [k] s.database)).removeAll
      (struckFiles ks (strikeTables [k] s.database)) =
        s.files.removeAll (struckFiles (k :: ks) s.database) := by
    rw [Directory.removeAll_removeAll]
    refine Directory.removeAll_congr fun name => ?_
    simp only [struckFiles, strikeTables, List.mem_append, List.mem_map, List.mem_filter,
      decide_eq_true_eq, List.mem_cons, List.not_mem_nil, or_false]
    constructor
    · rintro (⟨b, ⟨hb, hk⟩, hname⟩ | ⟨b, ⟨⟨hb, -⟩, hks⟩, hname⟩)
      · exact ⟨b, ⟨hb, .inl hk⟩, hname⟩
      · exact ⟨b, ⟨hb, .inr hks⟩, hname⟩
    · rintro ⟨b, ⟨hb, hk⟩, hname⟩
      by_cases heq : b.toRowKey = k
      · exact .inl ⟨b, ⟨hb, heq⟩, hname⟩
      · exact .inr ⟨b, ⟨⟨hb, heq⟩, hk.resolve_left heq⟩, hname⟩
  rw [strike, strikeTables_cons, ← hfiles]
  rfl

/-- The removals that are queued, and that are marked. -/
structure Queued (s : SQLiteBundleStorage) (is : List BundleID) : Prop where
  closed : s.session.saved = none
  tasks : s.tasks = is.map Task.remove
  rows : ∀ i ∈ is, ∃ r ∈ s.database.bundles, r.toRowKey = i.rowKey
  separate : Separate is
  nodup : is.Nodup
  marked : OrderedSet.Holds id BundleID.rank s.deletionList is
  next : s.nextExpiration = s.nextExpiryTime

/-- **One task.** -/
theorem Queued.runTask {i : BundleID} {is : List BundleID} (h : s.Queued (i :: is)) :
    ∃ marked, s.runTask.2 = { strike [i.rowKey] s with
        deletionList := marked
        nextExpiration := (strikeTables [i.rowKey] s.database).expireNextTimestamp.getD 0
        tasks := is.map Task.remove } ∧ s.runTask.2.Queued is := by
  have hrow := h.rows i List.mem_cons_self
  have hranked : ∀ j ∈ is, OrderedSet.Ranked BundleID.lt BundleID.rank j i := by
    intro j hj
    refine ranked_of_separate h.separate (List.mem_cons_of_mem i hj) List.mem_cons_self ?_
    rintro rfl
    exact (List.nodup_cons.1 h.nodup).1 hj
  have hrun : s.runTask.2 = ({ s with tasks := is.map Task.remove }).runRemove i := by
    rw [SQLiteBundleStorage.runTask, h.tasks]
    rfl
  have heq := runRemove_eq (s := { s with tasks := is.map Task.remove }) (i := i) h.closed hrow
  refine ⟨OrderedSet.erase id BundleID.lt i s.deletionList, hrun.trans heq, ?_⟩
  rw [hrun, heq]
  refine ⟨rfl, rfl, fun j hj => ?_, ?_, (List.nodup_cons.1 h.nodup).2,
    h.marked.erase (BundleID.equivalent_self i) hranked, rfl⟩
  · obtain ⟨r, hr, hkey⟩ := h.rows j (List.mem_cons_of_mem i hj)
    refine ⟨r, List.mem_filter.2 ⟨hr, ?_⟩, hkey⟩
    have hne : j ≠ i := by
      rintro rfl
      exact (List.nodup_cons.1 h.nodup).1 hj
    have happart := (h.separate j (List.mem_cons_of_mem i hj) i List.mem_cons_self).resolve_left hne
    rw [decide_eq_true_eq, hkey, List.mem_singleton]
    exact happart.rowKey_ne
  · exact fun a ha b hb => h.separate a (List.mem_cons_of_mem i ha) b (List.mem_cons_of_mem i hb)

/-- **Any number of the tasks.** -/
theorem Queued.work {is : List BundleID} (h : s.Queued is) {n : ℕ} (hn : n ≤ is.length) :
    ∃ marked, s.work n = { strike ((is.take n).map BundleID.rowKey) s with
        deletionList := marked
        nextExpiration := (strikeTables ((is.take n).map BundleID.rowKey)
          s.database).expireNextTimestamp.getD 0
        tasks := (is.drop n).map Task.remove } ∧ (s.work n).Queued (is.drop n) := by
  induction n generalizing s is with
  | zero =>
      have hnext : (strikeTables [] s.database).expireNextTimestamp.getD 0 = s.nextExpiration := by
        rw [strikeTables_nil, h.next]
        rfl
      refine ⟨s.deletionList, ?_, h⟩
      rw [List.take_zero, List.map_nil, strike_nil h.closed, List.drop_zero, ← h.tasks, hnext]
      rfl
  | succ n ih =>
      cases is with
      | nil => exact absurd hn (Nat.not_succ_le_zero n)
      | cons i is =>
          obtain ⟨marked₁, hrun, hqueued⟩ := h.runTask
          obtain ⟨marked, hwork, hqueued'⟩ := ih hqueued (Nat.le_of_succ_le_succ hn)
          have hsucc : s.work (n + 1) = s.runTask.2.work n := by
            rw [SQLiteBundleStorage.work, Function.iterate_succ_apply, SQLiteBundleStorage.work]
          rw [hsucc]
          refine ⟨marked, ?_, hqueued'⟩
          have hcons := strike_cons i.rowKey ((is.take n).map BundleID.rowKey) s
          have htables := strikeTables_cons i.rowKey ((is.take n).map BundleID.rowKey) s.database
          rw [hwork, hrun, List.take_succ_cons, List.map_cons, hcons, htables]
          rfl

/-! ### Recoveries -/

/-- **The storage comes up**, and queues the damaged bundles that have a row. -/
theorem exists_componentUp (hclosed : s.session.saved = none) (hmarked : s.deletionList = [])
    (htasks : s.tasks = []) (hsep : Separate (s.damagedIds basename)) :
    ∃ is t, componentUp basename s = .ok t ∧ t.Queued is ∧
      (∀ i, i ∈ is ↔ i ∈ s.damagedIds basename ∧ ∃ r ∈ s.database.bundles,
        r.toRowKey = i.rowKey) ∧
      t.database = s.database ∧ t.files = s.files.removeAll (s.strays basename) := by
  obtain ⟨t, ht, hnodup, hmem⟩ := exists_holds_foldl (t := []) (by rwa [List.append_nil])
    List.nodup_nil (OrderedSet.holds_nil : OrderedSet.Holds id BundleID.rank [] [])
  generalize hids : (s.damagedIds basename).foldl (fun ids i => OrderedSet.insert id BundleID.lt i
    ids) [] = ids at ht
  have hscan : scanBlocks s.database.blocks (blockFiles basename s.files) [] =
      (s.strays basename, ids) := by
    rw [scanBlocks_eq, ← hids]
    rfl
  have hids (i : BundleID) : i ∈ ids ↔ i ∈ s.damagedIds basename := by
    rw [ht.perm.mem_iff, hmem]
    simp
  have hsep' : Separate (ids ++ []) := by
    rw [List.append_nil]
    exact fun i hi j hj => hsep i ((hids i).1 hi) j ((hids j).1 hj)
  obtain ⟨marked, hok, hholds⟩ := exists_removeDamaged (s := s) hsep'
    (by rwa [List.append_nil, ht.perm.nodup_iff]) (by rw [hmarked]; exact OrderedSet.holds_nil)
  rw [List.append_nil] at hsep' hholds
  have hmem (i : BundleID) : i ∈ s.present ids ↔ i ∈ s.damagedIds basename ∧
      ∃ r ∈ s.database.bundles, r.toRowKey = i.rowKey := by
    rw [present, List.mem_filter, hids, Database.bundleGetId, List.find?_isSome]
    simp
  have hup : componentUp basename s = .ok { s with
      deletionList := marked
      tasks := s.tasks ++ (s.present ids).map Task.remove
      files := s.files.removeAll (s.strays basename)
      nextExpiration := s.nextExpiryTime } := by
    rw [componentUp, checkBundles, hscan]
    simp only [hok]
    rfl
  refine ⟨s.present ids, _, hup, ⟨hclosed, ?_, fun i hi => ((hmem i).1 hi).2, ?_, ?_, hholds, rfl⟩,
    hmem, rfl, rfl⟩
  · rw [htasks, List.nil_append]
  · exact fun i hi j hj => hsep i ((hmem i).1 hi).1 j ((hmem j).1 hj).1
  · exact (ht.perm.nodup_iff.2 hnodup).filter _

/-- What a doomed bundle is, in terms of the damaged identifiers. -/
theorem doomed_iff {k : RowKey} : s.Doomed basename k ↔
    ∃ i, (i ∈ s.damagedIds basename ∧ ∃ r ∈ s.database.bundles, r.toRowKey = i.rowKey) ∧
      i.rowKey = k := by
  constructor
  · rintro ⟨⟨i, hi, rfl⟩, hrow⟩
    exact ⟨i, ⟨hi, hrow⟩, rfl⟩
  · rintro ⟨i, ⟨hi, hrow⟩, rfl⟩
    exact ⟨⟨i, hi, rfl⟩, hrow⟩

theorem strikeTables_doomed {ks : List RowKey} (h : ∀ k, k ∈ ks ↔ s.Doomed basename k) :
    strikeTables ks s.database = s.recoveredTables basename :=
  congrArg₂ Database.mk
    (List.filter_congr fun r _ => decide_eq_decide.2 (not_congr (h r.toRowKey)))
    (List.filter_congr fun b _ => decide_eq_decide.2 (not_congr (h b.toRowKey)))

theorem mem_struckFiles {ks : List RowKey} {db : Database} {path : Bytes} :
    path ∈ struckFiles ks db ↔ ∃ b ∈ db.blocks, b.toRowKey ∈ ks ∧ columnText b.filename = path := by
  simp [struckFiles, and_assoc]

/-- A stray is a file that is found, and that no row names. -/
theorem mem_strays {path : Bytes} (hpath : path ∈ s.files.map Prod.fst) :
    path ∈ s.strays basename ↔
      ¬ (isBlockFile basename path = true → ∃ b ∈ s.database.blocks,
        columnText b.filename = path) := by
  rw [strays, blockFiles, List.mem_filter, List.mem_filter, decide_eq_true_eq]
  push Not
  simp [hpath]

/-- The files that a recovery keeps. -/
theorem removeAll_doomed {ks : List RowKey} (h : ∀ k, k ∈ ks ↔ s.Doomed basename k) :
    (s.files.removeAll (s.strays basename)).removeAll (struckFiles ks s.database) =
      s.files.filter fun f => decide (s.Keeps basename f.1) := by
  rw [Directory.removeAll_removeAll, Directory.removeAll]
  refine List.filter_congr fun f hf => decide_eq_decide.2 ?_
  rw [List.mem_append, mem_strays (List.mem_map_of_mem hf), mem_struckFiles, not_or, not_not, Keeps]
  refine and_congr_right fun _ => ?_
  constructor
  · exact fun hnone b hb hdoomed hname => hnone ⟨b, hb, (h b.toRowKey).2 hdoomed, hname⟩
  · rintro hall ⟨b, hb, hk, hname⟩
    exact hall b hb ((h b.toRowKey).1 hk) hname

/-- **A recovery completes, and leaves exactly what no damaged bundle owns**: without the bundles
one of whose blocks has lost its file, without their files, and without the stray ones. -/
theorem recover_eq (hsep : Separate (s.restart.damagedIds basename)) :
    recover basename s = .ok (recovered basename s.restart) := by
  obtain ⟨is, t, hup, hqueued, hmem, hdatabase, hfiles⟩ :=
    exists_componentUp (Session.rollback_saved s.session) rfl rfl hsep
  have hks (k : RowKey) : k ∈ is.map BundleID.rowKey ↔ s.restart.Doomed basename k := by
    rw [List.mem_map, doomed_iff]
    exact exists_congr fun i => and_congr_left' (hmem i)
  obtain ⟨marked, hwork, hdone⟩ := hqueued.work le_rfl
  have hlength : t.tasks.length = is.length := by rw [hqueued.tasks, List.length_map]
  have hmarked : (t.work is.length).deletionList = [] := by
    have hperm := hdone.marked.perm
    rw [List.drop_length] at hperm
    exact hperm.eq_nil
  rw [recover, hup]
  refine congrArg Except.ok ?_
  rw [hlength]
  rw [hwork] at hmarked ⊢
  change marked = [] at hmarked
  rw [hmarked, List.take_length, List.drop_length, strike, recovered, hdatabase,
    strikeTables_doomed hks, hfiles, removeAll_doomed hks]
  rfl

/-! ### Recoveries that are cut off -/

/-- **A recovery is cut off**: while `check_bundles` removes files, or after some tasks, while the
next one removes files. -/
inductive Interrupted (basename : Bytes → Bytes) (s : SQLiteBundleStorage) :
    SQLiteBundleStorage → Prop
  | checking {paths : List Bytes} (hpaths : ∀ path ∈ paths, path ∈
      (scanBlocks s.restart.database.blocks (blockFiles basename s.restart.files) []).1) :
      Interrupted basename s { s.restart with files := s.restart.files.removeAll paths }
  | working {t : SQLiteBundleStorage} {n : ℕ} {names : List Bytes}
      (hup : componentUp basename s.restart = .ok t) (hn : n ≤ t.tasks.length)
      (hnames : ∀ name ∈ names, ∃ i, (t.work n).tasks.head? = some (.remove i) ∧
        name ∈ (t.work n).filenames i.rowKey) :
      Interrupted basename s ((t.work n).removeFiles names)

/-- The rows of the blocks name their bundles and files properly. -/
structure WellNamed (basename : Bytes → Bytes) (s : SQLiteBundleStorage) : Prop where
  readable : ∀ b ∈ s.database.blocks, b.toRowKey.Readable
  names : (s.database.blocks.map fun b => columnText b.filename).Nodup
  separate : Separate (s.damagedIds basename)

theorem damaged_eq_filter {bs : List BlockRow} {names : List Bytes}
    (h : (bs.map fun b => columnText b.filename).Nodup) :
    damaged names bs = bs.filter fun b => decide (columnText b.filename ∉ names) := by
  induction bs generalizing names with
  | nil => rfl
  | cons b bs ih =>
      rw [List.map_cons, List.nodup_cons] at h
      rw [damaged]
      split_ifs with hmem
      · rw [ih h.2, List.filter_cons_of_neg (by simpa using hmem)]
        refine List.filter_congr fun b' hb' => decide_eq_decide.2 (not_congr ?_)
        have hne : columnText b'.filename ≠ columnText b.filename := by
          intro heq
          exact h.1 (heq ▸ List.mem_map_of_mem hb')
        simp [hne]
      · rw [ih h.2, List.filter_cons_of_pos (by simpa using hmem)]

/-- The damaged identifiers, if the rows name different files. -/
theorem WellNamed.mem_damagedIds (h : s.WellNamed basename) {i : BundleID} :
    i ∈ s.damagedIds basename ↔ ∃ b ∈ s.database.blocks,
      columnText b.filename ∉ blockFiles basename s.files ∧ b.toRowKey.bundleID = i := by
  rw [damagedIds, damaged_eq_filter h.names]
  simp [and_assoc]

/-- A bundle is doomed if a file of it is missing. -/
theorem WellNamed.doomed_iff_missing (h : s.WellNamed basename) {k : RowKey} :
    s.Doomed basename k ↔ (∃ b ∈ s.database.blocks, b.toRowKey = k ∧
      columnText b.filename ∉ blockFiles basename s.files) ∧
        ∃ r ∈ s.database.bundles, r.toRowKey = k := by
  refine and_congr_left fun _ => ?_
  constructor
  · rintro ⟨i, hi, rfl⟩
    obtain ⟨b, hb, hmissing, rfl⟩ := h.mem_damagedIds.1 hi
    exact ⟨b, hb, (RowKey.rowKey_bundleID (h.readable b hb)).symm, hmissing⟩
  · rintro ⟨b, hb, rfl, hmissing⟩
    exact ⟨b.toRowKey.bundleID, h.mem_damagedIds.2 ⟨b, hb, hmissing, rfl⟩,
      RowKey.rowKey_bundleID (h.readable b hb)⟩

/-- What a recovery that is cut off has done: some doomed bundles are gone with all their files, and
so are some other files that are not kept. -/
structure Between (basename : Bytes → Bytes) (s s' : SQLiteBundleStorage) (ks : List RowKey)
    (paths : List Bytes) : Prop where
  database : s'.database = strikeTables ks s.database
  files : s'.files = s.files.removeAll paths
  doomed : ∀ k ∈ ks, s.Doomed basename k
  dropped : ∀ path ∈ paths, ¬ s.Keeps basename path
  struck : ∀ path ∈ struckFiles ks s.database, path ∈ paths

section Between

variable {ks : List RowKey} {paths : List Bytes} (h : Between basename s s' ks paths)

include h

theorem Between.mem_blocks {b : BlockRow} :
    b ∈ s'.database.blocks ↔ b ∈ s.database.blocks ∧ b.toRowKey ∉ ks := by
  rw [h.database, strikeTables, List.mem_filter, decide_eq_true_eq]

theorem Between.mem_bundles {r : BundleRow} :
    r ∈ s'.database.bundles ↔ r ∈ s.database.bundles ∧ r.toRowKey ∉ ks := by
  rw [h.database, strikeTables, List.mem_filter, decide_eq_true_eq]

theorem Between.mem_blockFiles {path : Bytes} : path ∈ blockFiles basename s'.files ↔
    path ∈ blockFiles basename s.files ∧ path ∉ paths := by
  simp only [blockFiles, h.files, Directory.removeAll, List.mem_filter, List.mem_map,
    decide_eq_true_eq]
  constructor
  · rintro ⟨⟨f, ⟨hf, hnot⟩, rfl⟩, hblock⟩
    exact ⟨⟨⟨f, hf, rfl⟩, hblock⟩, hnot⟩
  · rintro ⟨⟨⟨f, hf, rfl⟩, hblock⟩, hnot⟩
    exact ⟨⟨f, ⟨hf, hnot⟩, rfl⟩, hblock⟩

/-- A block that is left, and whose file is missing now, belongs to a bundle that was doomed before
or has lost its file before. -/
theorem Between.doomed_or_missing (hwell : s.WellNamed basename) {b : BlockRow}
    (hb : b ∈ s.database.blocks) (hmissing : columnText b.filename ∉ blockFiles basename s'.files) :
    s.Doomed basename b.toRowKey ∨ columnText b.filename ∉ blockFiles basename s.files := by
  by_cases hfound : columnText b.filename ∈ blockFiles basename s.files
  · left
    have hpath : columnText b.filename ∈ paths := by
      by_contra hnot
      exact hmissing (h.mem_blockFiles.2 ⟨hfound, hnot⟩)
    have hkeeps := h.dropped _ hpath
    rw [Keeps, not_and] at hkeeps
    have hnamed := hkeeps fun _ => ⟨b, hb, rfl⟩
    push Not at hnamed
    obtain ⟨b', hb', hdoomed, hname⟩ := hnamed
    rwa [List.inj_on_of_nodup_map hwell.names hb' hb hname] at hdoomed
  · exact .inr hfound

theorem Between.wellNamed (hwell : s.WellNamed basename) : s'.WellNamed basename := by
  have hsublist : s'.database.blocks.Sublist s.database.blocks := by
    rw [h.database]
    exact List.filter_sublist
  have hnames := hwell.names.sublist (hsublist.map fun b => columnText b.filename)
  have hids : ∀ i ∈ s'.damagedIds basename, i ∈ s.damagedIds basename := by
    intro i hi
    rw [damagedIds, damaged_eq_filter hnames, List.mem_map] at hi
    obtain ⟨b, hmem, rfl⟩ := hi
    rw [List.mem_filter, decide_eq_true_eq] at hmem
    have hb := (h.mem_blocks.1 hmem.1).1
    rcases h.doomed_or_missing hwell hb hmem.2 with hdoomed | hmissing
    · obtain ⟨⟨j, hj, hkey⟩, -⟩ := hdoomed
      obtain ⟨b', hb', hmissing, rfl⟩ := hwell.mem_damagedIds.1 hj
      rw [RowKey.rowKey_bundleID (hwell.readable b' hb')] at hkey
      exact hwell.mem_damagedIds.2 ⟨b', hb', hmissing, congrArg RowKey.bundleID hkey⟩
    · exact hwell.mem_damagedIds.2 ⟨b, hb, hmissing, rfl⟩
  exact ⟨fun b hb => hwell.readable b (h.mem_blocks.1 hb).1, hnames,
    fun i hi j hj => hwell.separate i (hids i hi) j (hids j hj)⟩

/-- **What is still doomed**: what was doomed and is not gone yet. -/
theorem Between.doomed_iff (hwell : s.WellNamed basename) {k : RowKey} :
    s'.Doomed basename k ↔ s.Doomed basename k ∧ k ∉ ks := by
  rw [(h.wellNamed hwell).doomed_iff_missing]
  constructor
  · rintro ⟨⟨b, hb, rfl, hmissing⟩, r, hr, hkey⟩
    obtain ⟨hb, hks⟩ := h.mem_blocks.1 hb
    refine ⟨?_, hks⟩
    rcases h.doomed_or_missing hwell hb hmissing with hdoomed | hmissing
    · exact hdoomed
    · exact hwell.doomed_iff_missing.2
        ⟨⟨b, hb, rfl, hmissing⟩, r, (h.mem_bundles.1 hr).1, hkey⟩
  · rintro ⟨hdoomed, hks⟩
    obtain ⟨⟨b, hb, rfl, hmissing⟩, r, hr, hkey⟩ := hwell.doomed_iff_missing.1 hdoomed
    refine ⟨⟨b, h.mem_blocks.2 ⟨hb, hks⟩, rfl, fun hfound => ?_⟩, r, ?_, hkey⟩
    · exact hmissing (h.mem_blockFiles.1 hfound).1
    · exact h.mem_bundles.2 ⟨hr, by rwa [hkey]⟩

theorem Between.recoveredTables_eq (hwell : s.WellNamed basename) :
    s'.recoveredTables basename = s.recoveredTables basename := by
  have hkey (k : RowKey) : ¬ s'.Doomed basename k ∧ k ∉ ks ↔ ¬ s.Doomed basename k := by
    rw [h.doomed_iff hwell]
    have hdoomed := h.doomed k
    tauto
  rw [recoveredTables, recoveredTables, h.database, strikeTables, List.filter_filter,
    List.filter_filter]
  refine congrArg₂ Database.mk (List.filter_congr fun r _ => ?_) (List.filter_congr fun b _ => ?_)
  · rw [← Bool.decide_and, decide_eq_decide]
    exact hkey r.toRowKey
  · rw [← Bool.decide_and, decide_eq_decide]
    exact hkey b.toRowKey

theorem Between.keeps_iff (hwell : s.WellNamed basename) {path : Bytes} :
    path ∉ paths ∧ s'.Keeps basename path ↔ s.Keeps basename path := by
  constructor
  · rintro ⟨hpath, hnamed, hspared⟩
    refine ⟨fun hblock => ?_, fun b hb hdoomed hname => ?_⟩
    · obtain ⟨b, hb, hname⟩ := hnamed hblock
      exact ⟨b, (h.mem_blocks.1 hb).1, hname⟩
    · by_cases hks : b.toRowKey ∈ ks
      · exact hpath (h.struck path (mem_struckFiles.2 ⟨b, hb, hks, hname⟩))
      · exact hspared b (h.mem_blocks.2 ⟨hb, hks⟩) ((h.doomed_iff hwell).2 ⟨hdoomed, hks⟩) hname
  · intro hkeeps
    refine ⟨fun hpath => h.dropped path hpath hkeeps, fun hblock => ?_, fun b hb hdoomed => ?_⟩
    · obtain ⟨b, hb, hname⟩ := hkeeps.1 hblock
      exact ⟨b, h.mem_blocks.2 ⟨hb, fun hks => hkeeps.2 b hb (h.doomed _ hks) hname⟩, hname⟩
    · exact hkeeps.2 b (h.mem_blocks.1 hb).1 ((h.doomed_iff hwell).1 hdoomed).1

/-- **What has been done changes nothing of what a recovery leaves.** -/
theorem Between.recovered_eq (hwell : s.WellNamed basename) :
    recovered basename s' = recovered basename s := by
  have hfiles : (s'.files.filter fun f => decide (s'.Keeps basename f.1)) =
      s.files.filter fun f => decide (s.Keeps basename f.1) := by
    rw [h.files, Directory.removeAll, List.filter_filter]
    refine List.filter_congr fun f _ => ?_
    rw [← Bool.decide_and, decide_eq_decide, and_comm]
    exact h.keeps_iff hwell
  rw [recovered, recovered, h.recoveredTables_eq hwell, hfiles]

end Between

theorem restart_of_closed (h : s.session.saved = none) : s.restart.database = s.database := by
  rw [restart, database, Session.rollback, h]
  rfl

/-- What names a file of a doomed bundle does not keep it. -/
theorem not_keeps_of_doomed {b : BlockRow} (hb : b ∈ s.database.blocks)
    (hdoomed : s.Doomed basename b.toRowKey) : ¬ s.Keeps basename (columnText b.filename) :=
  fun hkeeps => hkeeps.2 b hb hdoomed rfl

theorem not_keeps_of_mem_strays {path : Bytes} (h : path ∈ s.strays basename) :
    ¬ s.Keeps basename path := by
  have hfound := (List.mem_filter.1 (List.mem_filter.1 h).1).1
  exact fun hkeeps => (mem_strays hfound).1 h hkeeps.1

/-- **A recovery that is cut off** has done a part of its work. -/
theorem Interrupted.exists_between (hsep : Separate (s.restart.damagedIds basename))
    (h : Interrupted basename s s') :
    ∃ ks paths, Between basename s.restart s'.restart ks paths := by
  have hclosed : s.restart.session.saved = none := Session.rollback_saved s.session
  cases h with
  | checking hpaths =>
      rename_i paths
      rw [scanBlocks_eq] at hpaths
      refine ⟨[], paths, ?_, rfl, fun k hk => absurd hk List.not_mem_nil,
        fun path hpath => not_keeps_of_mem_strays (hpaths path hpath), fun path hpath => ?_⟩
      · rw [strikeTables_nil]
        exact restart_of_closed hclosed
      · obtain ⟨b, -, hk, -⟩ := mem_struckFiles.1 hpath
        exact absurd hk List.not_mem_nil
  | working hup hn hnames =>
      rename_i t n names
      obtain ⟨is, t', hup', hqueued, hmem, hdatabase, hfiles⟩ :=
        exists_componentUp hclosed rfl rfl hsep
      obtain rfl : t' = t := Except.ok.inj (hup'.symm.trans hup)
      rw [hqueued.tasks, List.length_map] at hn
      obtain ⟨marked, hwork, hrest⟩ := hqueued.work hn
      have hdoomed : ∀ i ∈ is, s.restart.Doomed basename i.rowKey := fun i hi =>
        doomed_iff.2 ⟨i, (hmem i).1 hi, rfl⟩
      have hdatabase' : (t'.work n).database =
          strikeTables ((is.take n).map BundleID.rowKey) s.restart.database := by
        rw [hwork, ← hdatabase]
        rfl
      have hks : ∀ k ∈ (is.take n).map BundleID.rowKey, s.restart.Doomed basename k := by
        intro k hk
        obtain ⟨i, hi, rfl⟩ := List.mem_map.1 hk
        exact hdoomed i (List.mem_of_mem_take hi)
      refine ⟨(is.take n).map BundleID.rowKey, s.restart.strays basename ++
        struckFiles ((is.take n).map BundleID.rowKey) s.restart.database ++ names.map columnText,
        ?_, ?_, hks, fun path hpath => ?_, fun path hpath => ?_⟩
      · rw [← hdatabase']
        exact restart_of_closed hrest.closed
      · have hfiles' : (t'.work n).files = t'.files.removeAll
            (struckFiles ((is.take n).map BundleID.rowKey) s.restart.database) := by
          rw [hwork, ← hdatabase]
          rfl
        rw [← Directory.removeAll_removeAll, ← Directory.removeAll_removeAll, ← hfiles, ← hfiles']
        rfl
      · rcases List.mem_append.1 hpath with hpath | hpath
        · rcases List.mem_append.1 hpath with hpath | hpath
          · exact not_keeps_of_mem_strays hpath
          · obtain ⟨b, hb, hk, rfl⟩ := mem_struckFiles.1 hpath
            exact not_keeps_of_doomed hb (hks b.toRowKey hk)
        · obtain ⟨name, hname, rfl⟩ := List.mem_map.1 hpath
          obtain ⟨i, hhead, hfile⟩ := hnames name hname
          rw [hrest.tasks, List.head?_map, Option.map_eq_some_iff] at hhead
          obtain ⟨j, hhead, htask⟩ := hhead
          obtain rfl : j = i := Task.remove.inj htask
          have hi := List.mem_of_mem_drop (List.mem_of_mem_head? hhead)
          obtain ⟨b, hb, rfl⟩ := List.mem_map.1 hfile
          rw [Database.blockGetId, Table.mem_orderBy, List.mem_filter, decide_eq_true_eq,
            hdatabase', strikeTables, List.mem_filter] at hb
          refine not_keeps_of_doomed hb.1.1 ?_
          rw [hb.2]
          exact hdoomed j hi
      · exact List.mem_append_left _ (List.mem_append_right _ hpath)

/-- **A recovery may be cut off any number of times**: the recovery that is completed in the end
leaves what the first one would have left. -/
theorem recover_interrupted (hwell : s.restart.WellNamed basename)
    (h : Relation.ReflTransGen (Interrupted basename) s s') :
    recover basename s' = .ok (recovered basename s.restart) := by
  suffices hs : s'.restart.WellNamed basename ∧
      recovered basename s'.restart = recovered basename s.restart by
    rw [recover_eq hs.1.separate, hs.2]
  induction h with
  | refl => exact ⟨hwell, rfl⟩
  | tail _ hstep ih =>
      obtain ⟨hwell', heq⟩ := ih
      obtain ⟨ks, paths, hbetween⟩ := hstep.exists_between hwell'.separate
      exact ⟨hbetween.wellNamed hwell', (hbetween.recovered_eq hwell').trans heq⟩

/-- The last part of a path. -/
def sampleBasename (path : Bytes) : Bytes := (path.reverse.takeWhile fun b => b != 0x2f).reverse

/-- A storage that has lost the file of its bundle `1`, and has a file of no bundle. -/
def sampleLost : SQLiteBundleStorage :=
  let s := (create.store (Clock.showing 100) sampleNode sampleEnv sampleWhole).2
  let env : StoreEnv :=
    ⟨none, fun n => ⟨.ok (ascii ['b', 'x'] ++ Decimal.numeral n), .foreign, none, none⟩⟩
  let s := (s.store (Clock.showing 100) sampleNode env { sampleWhole with sequencenumber := 2 }).2
  { s with files := (s.files.remove (ascii ['b', '1'])).put (ascii ['b', 'y']) [0x79] }

theorem recover_interrupted_sample :
    let s := { sampleLost.restart with
      files := sampleLost.restart.files.removeAll [ascii ['b', 'y']] }
    recover sampleBasename s = .ok (recovered sampleBasename sampleLost.restart) ∧
      sampleLost.count = 2 ∧ (recovered sampleBasename sampleLost.restart).count = 1 :=
  ⟨recover_interrupted ⟨by decide +kernel, by decide +kernel, by decide +kernel⟩
    (.single (.checking (by decide +kernel))), by decide +kernel, by decide +kernel⟩

/-! ### The tables and the files -/

/-- The rows of the blocks and the block files belong together. -/
structure Matched (basename : Bytes → Bytes) (s : SQLiteBundleStorage) : Prop where
  files : ∀ path ∈ blockFiles basename s.files,
    ∃ b ∈ s.database.blocks, columnText b.filename = path
  rows : ∀ b ∈ s.database.blocks, columnText b.filename ∈ blockFiles basename s.files

theorem mem_blocks_recovered {b : BlockRow} : b ∈ (recovered basename s).database.blocks ↔
    b ∈ s.database.blocks ∧ ¬ s.Doomed basename b.toRowKey := by
  have hblocks : (recovered basename s).database.blocks =
    s.database.blocks.filter fun b => decide (¬ s.Doomed basename b.toRowKey) := rfl
  rw [hblocks, List.mem_filter, decide_eq_true_eq]

theorem mem_blockFiles_recovered {path : Bytes} :
    path ∈ blockFiles basename (recovered basename s).files ↔
      path ∈ blockFiles basename s.files ∧ s.Keeps basename path := by
  have hfiles : (recovered basename s).files =
    s.files.filter fun f => decide (s.Keeps basename f.1) := rfl
  simp only [blockFiles, hfiles, List.mem_filter, List.mem_map, decide_eq_true_eq]
  constructor
  · rintro ⟨⟨f, ⟨hf, hkeeps⟩, rfl⟩, hblock⟩
    exact ⟨⟨⟨f, hf, rfl⟩, hblock⟩, hkeeps⟩
  · rintro ⟨⟨⟨f, hf, rfl⟩, hblock⟩, hkeeps⟩
    exact ⟨⟨f, ⟨hf, hkeeps⟩, rfl⟩, hblock⟩

/-- A file that a row with no doomed bundle names is kept, if the rows name different files. -/
theorem WellNamed.keeps (h : s.WellNamed basename) {b : BlockRow} (hb : b ∈ s.database.blocks)
    (hspared : ¬ s.Doomed basename b.toRowKey) : s.Keeps basename (columnText b.filename) := by
  refine ⟨fun _ => ⟨b, hb, rfl⟩, fun b' hb' hdoomed hname => hspared ?_⟩
  rwa [List.inj_on_of_nodup_map h.names hb' hb hname] at hdoomed

theorem WellNamed.matched_recovered_iff (h : s.WellNamed basename) :
    (recovered basename s).Matched basename ↔ ∀ b ∈ s.database.blocks,
      columnText b.filename ∉ blockFiles basename s.files →
        ∃ r ∈ s.database.bundles, r.toRowKey = b.toRowKey := by
  constructor
  · intro hmatched b hb hmissing
    by_contra hnone
    have hspared : ¬ s.Doomed basename b.toRowKey := fun hdoomed => hnone hdoomed.2
    have hfound := hmatched.rows b (mem_blocks_recovered.2 ⟨hb, hspared⟩)
    exact hmissing (mem_blockFiles_recovered.1 hfound).1
  · intro howned
    refine ⟨fun path hpath => ?_, fun b hb => ?_⟩
    · obtain ⟨hfound, hkeeps⟩ := mem_blockFiles_recovered.1 hpath
      obtain ⟨b, hb, hname⟩ := hkeeps.1 (List.mem_filter.1 hfound).2
      exact ⟨b, mem_blocks_recovered.2 ⟨hb, fun hdoomed => hkeeps.2 b hb hdoomed hname⟩, hname⟩
    · obtain ⟨hb, hspared⟩ := mem_blocks_recovered.1 hb
      refine mem_blockFiles_recovered.2 ⟨?_, h.keeps hb hspared⟩
      by_contra hmissing
      exact hspared (h.doomed_iff_missing.2 ⟨⟨b, hb, rfl, hmissing⟩, howned b hb hmissing⟩)

/-- **When a recovery mends the storage**: exactly if no row without its file lacks its bundle. -/
theorem recover_matched_iff (h : s.restart.WellNamed basename) :
    (∃ t, recover basename s = .ok t ∧ t.Matched basename) ↔
      ∀ b ∈ s.restart.database.blocks,
        columnText b.filename ∉ blockFiles basename s.restart.files →
          ∃ r ∈ s.restart.database.bundles, r.toRowKey = b.toRowKey := by
  rw [← h.matched_recovered_iff]
  constructor
  · rintro ⟨t, hok, hmatched⟩
    rwa [← Except.ok.inj ((recover_eq h.separate).symm.trans hok)] at hmatched
  · exact fun hmatched => ⟨_, recover_eq h.separate, hmatched⟩

theorem recover_matched_iff_sample :
    (∃ t, recover sampleBasename sampleLost = .ok t ∧ t.Matched sampleBasename) ↔
      ∀ b ∈ sampleLost.restart.database.blocks,
        columnText b.filename ∉ blockFiles sampleBasename sampleLost.restart.files →
          ∃ r ∈ sampleLost.restart.database.bundles, r.toRowKey = b.toRowKey :=
  recover_matched_iff ⟨by decide +kernel, by decide +kernel, by decide +kernel⟩

end SQLiteBundleStorage

end IbrDtn
