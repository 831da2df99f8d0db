import IbrDtn.Core.SQLiteExpiry
import IbrDtn.Core.SQLiteRecovery

/-!
# What the storage in a database does not lose

The threads of `SQLiteBundleStorage` meet between any two statements, a transaction may be rolled
back, and the process may end at any moment and be followed by another one.  This file shows that
none of this loses a bundle: what has been committed stays in the tables, and its block files keep
their contents, as long as nobody asks to remove the bundle and no tick finds it expired.

## Main definitions

* `SQLiteBundleStorage.Retains`, `SQLiteBundleStorage.Advances` : what is kept of the bundles of a
  key.
* `SQLiteBundleStorage.Secure` : the rows of these bundles have their files.
* `SQLiteBundleStorage.System.Cut` : what a process leaves that ends at any moment.
* `SQLiteBundleStorage.System.Life` : the steps of the threads, and processes that end and are
  followed by another one.
* `SQLiteBundleStorage.System.Spares` : a step asks for nothing that would remove the bundles.

## Main results

* `SQLiteBundleStorage.System.Safe.advances` : one step.
* `SQLiteBundleStorage.System.durable_run` : any number of them.
-/

namespace IbrDtn

namespace SQLiteBundleStorage

variable {basename : Bytes → Bytes} {k : RowKey} {s s' : SQLiteBundleStorage}

/-! ### What is kept -/

/-- **The rows of a key are kept**, but for the custodians. -/
structure Retains (k : RowKey) (db db' : Database) : Prop where
  bundles : ∀ r ∈ db.bundles, r.toRowKey = k → ∃ custodian, { r with custodian } ∈ db'.bundles
  blocks : ∀ b ∈ db.blocks, b.toRowKey = k → b ∈ db'.blocks

/-- The rows of a key expire when others did before. -/
def Inherits (k : RowKey) (db db' : Database) : Prop :=
  ∀ r ∈ db'.bundles, r.toRowKey = k → ∃ r' ∈ db.bundles, r'.toRowKey = k ∧
    r'.expiretime = r.expiretime

/-- The rows of the blocks name different block files, and texts of sources that stay. -/
structure Tidy (basename : Bytes → Bytes) (db : Database) : Prop where
  readable : ∀ b ∈ db.blocks, b.toRowKey.Readable
  names : (db.blocks.map fun b => columnText b.filename).Nodup
  blockFile : ∀ b ∈ db.blocks, isBlockFile basename (columnText b.filename) = true

/-- **The rows of a key have their files**, and a rollback loses none of them. -/
structure Secure (basename : Bytes → Bytes) (k : RowKey) (s : SQLiteBundleStorage) : Prop where
  tidy : Tidy basename s.database
  saved : ∀ db, s.session.saved = some db → Tidy basename db ∧ Retains k db s.database
  files : ∀ b ∈ s.database.blocks, b.toRowKey = k → s.files.Has (columnText b.filename)

/-- **What is committed for a key stays committed**, and its files keep their contents. -/
structure Advances (k : RowKey) (s s' : SQLiteBundleStorage) : Prop where
  retains : Retains k s.restart.database s'.restart.database
  files : ∀ b ∈ s.restart.database.blocks, b.toRowKey = k →
    s'.files.content? (columnText b.filename) = s.files.content? (columnText b.filename)

theorem Retains.refl (k : RowKey) (db : Database) : Retains k db db :=
  ⟨fun r hr _ => ⟨r.custodian, hr⟩, fun _ hb _ => hb⟩

theorem Retains.trans {db₁ db₂ db₃ : Database} (h : Retains k db₁ db₂) (h' : Retains k db₂ db₃) :
    Retains k db₁ db₃ := by
  refine ⟨fun r hr hk => ?_, fun b hb hk => h'.blocks b (h.blocks b hb hk) hk⟩
  obtain ⟨custodian, hr'⟩ := h.bundles r hr hk
  obtain ⟨custodian', hr''⟩ := h'.bundles { r with custodian } hr' hk
  exact ⟨custodian', hr''⟩

theorem Inherits.refl (k : RowKey) (db : Database) : Inherits k db db :=
  fun r hr hk => ⟨r, hr, hk, rfl⟩

theorem Advances.refl (k : RowKey) (s : SQLiteBundleStorage) : Advances k s s :=
  ⟨.refl k _, fun _ _ _ => rfl⟩

theorem Advances.trans {s₁ s₂ s₃ : SQLiteBundleStorage} (h : Advances k s₁ s₂)
    (h' : Advances k s₂ s₃) : Advances k s₁ s₃ :=
  ⟨h.retains.trans h'.retains, fun b hb hk =>
    (h'.files b (h.retains.blocks b hb hk) hk).trans (h.files b hb hk)⟩

theorem database_restart (s : SQLiteBundleStorage) :
    s.restart.database = s.session.saved.getD s.database := by
  rw [restart, database, Session.rollback]
  cases s.session.saved <;> rfl

theorem Secure.tidy_restart (h : Secure basename k s) : Tidy basename s.restart.database := by
  rw [database_restart]
  cases hsaved : s.session.saved with
  | none => exact h.tidy
  | some db => exact (h.saved db hsaved).1

theorem Secure.retains_restart (h : Secure basename k s) :
    Retains k s.restart.database s.database := by
  rw [database_restart]
  cases hsaved : s.session.saved with
  | none => exact .refl k s.database
  | some db => exact (h.saved db hsaved).2

theorem Tidy.sublist {db db' : Database} (h : Tidy basename db)
    (hsublist : db'.blocks.Sublist db.blocks) : Tidy basename db' :=
  ⟨fun b hb => h.readable b (hsublist.mem hb), h.names.sublist (hsublist.map _),
    fun b hb => h.blockFile b (hsublist.mem hb)⟩

theorem Tidy.append {db : Database} (h : Tidy basename db) {row : BlockRow}
    (hkey : row.toRowKey.Readable) (hblock : isBlockFile basename (columnText row.filename) = true)
    (hnew : ∀ b ∈ db.blocks, columnText b.filename ≠ columnText row.filename) :
    Tidy basename { db with blocks := db.blocks ++ [row] } := by
  refine ⟨fun b hb => ?_, ?_, fun b hb => ?_⟩
  · rcases List.mem_append.1 hb with hb | hb
    · exact h.readable b hb
    · obtain rfl := List.mem_singleton.1 hb
      exact hkey
  · rw [List.map_append, List.nodup_append]
    refine ⟨h.names, List.nodup_singleton _, fun name hname name' hname' => ?_⟩
    obtain ⟨b, hb, rfl⟩ := List.mem_map.1 hname
    obtain rfl := List.mem_singleton.1 hname'
    exact hnew b hb
  · rcases List.mem_append.1 hb with hb | hb
    · exact h.blockFile b hb
    · obtain rfl := List.mem_singleton.1 hb
      exact hblock

/-! ### Operations -/

/-- Nothing but the session and the files matters. -/
theorem Secure.of_eq (h : Secure basename k s) (hsession : s'.session = s.session)
    (hfiles : s'.files = s.files) : Secure basename k s' ∧ Advances k s s' := by
  have hdatabase : s'.database = s.database := congrArg Session.current hsession
  have hrestart : s'.restart.database = s.restart.database := by
    rw [database_restart, database_restart, hsession, hdatabase]
  refine ⟨⟨?_, ?_, ?_⟩, ?_, fun b _ _ => by rw [hfiles]⟩
  · rw [hdatabase]
    exact h.tidy
  · rw [hdatabase, hsession]
    exact h.saved
  · rw [hdatabase, hfiles]
    exact h.files
  · rw [hrestart]
    exact .refl k _

/-- Other files may change. -/
theorem Secure.withFiles (h : Secure basename k s) {files : Directory Bytes Bytes}
    (hcontent : ∀ b ∈ s.database.blocks, b.toRowKey = k →
      files.content? (columnText b.filename) = s.files.content? (columnText b.filename)) :
    Secure basename k { s with files } ∧ Advances k s { s with files } := by
  refine ⟨⟨h.tidy, h.saved, fun b hb hk => ?_⟩, .refl k _, fun b hb hk => ?_⟩
  · have hhas := h.files b hb hk
    rw [Directory.Has] at hhas ⊢
    rwa [hcontent b hb hk]
  · exact hcontent b (h.retains_restart.blocks b hb hk) hk

theorem Secure.begin (h : Secure basename k s) :
    Secure basename k { s with session := s.session.begin } ∧
      Advances k s { s with session := s.session.begin } := by
  cases hsaved : s.session.saved with
  | some db =>
      have hbegin : s.session.begin = s.session := by rw [Session.begin, hsaved]
      exact h.of_eq hbegin rfl
  | none =>
      rw [Session.begin_of_closed hsaved]
      have hrestart : s.restart.database = s.database := by
        rw [database_restart, hsaved]
        rfl
      refine ⟨⟨h.tidy, fun db hdb => ?_, h.files⟩, ?_, fun _ _ _ => rfl⟩
      · obtain rfl : s.database = db := Option.some.inj hdb
        exact ⟨h.tidy, .refl k s.database⟩
      · rw [hrestart, database_restart]
        exact .refl k s.database

theorem Secure.commit (h : Secure basename k s) :
    Secure basename k { s with session := s.session.commit } ∧
      Advances k s { s with session := s.session.commit } := by
  refine ⟨⟨h.tidy, fun db hdb => ?_, h.files⟩, ?_, fun _ _ _ => rfl⟩
  · cases hdb
  · rw [database_restart { s with session := s.session.commit }]
    exact h.retains_restart

theorem Secure.rollback (h : Secure basename k s) :
    Secure basename k { s with session := s.session.rollback } ∧
      Advances k s { s with session := s.session.rollback } := by
  have hdatabase : database { s with session := s.session.rollback } = s.restart.database := rfl
  have hsaved : s.session.rollback.saved = none := Session.rollback_saved s.session
  refine ⟨⟨?_, fun db hdb => ?_, ?_⟩, ?_, fun _ _ _ => rfl⟩
  · rw [hdatabase]
    exact h.tidy_restart
  · rw [hsaved] at hdb
    cases hdb
  · rw [hdatabase]
    exact fun b hb hk => h.files b (h.retains_restart.blocks b hb hk) hk
  · rw [database_restart { s with session := s.session.rollback }, hsaved, hdatabase]
    exact .refl k _

/-- A rollback brings back no bundle that is due earlier. -/
theorem Secure.inherits_restart (h : Secure basename k s) :
    Inherits k s.database s.restart.database := by
  intro r hr hk
  obtain ⟨custodian, hr'⟩ := h.retains_restart.bundles r hr hk
  exact ⟨_, hr', hk, rfl⟩

/-- **A statement that keeps the rows of the key.** -/
theorem Secure.execute (h : Secure basename k s) {f : Database → Database}
    (htidy : Tidy basename (f s.database)) (hretains : Retains k s.database (f s.database))
    (hfiles : ∀ b ∈ (f s.database).blocks, b.toRowKey = k → s.files.Has (columnText b.filename)) :
    Secure basename k (s.execute f) ∧ Advances k s (s.execute f) := by
  refine ⟨⟨htidy, fun db hdb => ?_, hfiles⟩, ?_, fun _ _ _ => rfl⟩
  · obtain ⟨hdbtidy, hdbretains⟩ := h.saved db hdb
    exact ⟨hdbtidy, hdbretains.trans hretains⟩
  · rw [database_restart, database_restart (s.execute f)]
    have hsaved : (s.execute f).session.saved = s.session.saved := rfl
    rw [hsaved]
    cases s.session.saved with
    | none => exact hretains
    | some db => exact .refl k db

/-! ### Statements -/

/-- **Bundles of other keys are deleted.** -/
theorem Secure.delete (h : Secure basename k s) {p : BundleRow → Bool}
    (hp : ∀ r ∈ s.database.bundles, r.toRowKey = k → p r = false) :
    (Secure basename k (s.execute fun db => db.delete p) ∧
      Advances k s (s.execute fun db => db.delete p)) ∧
        Inherits k s.database (s.execute fun db => db.delete p).database := by
  have hretains : Retains k s.database (s.database.delete p) := by
    refine ⟨fun r hr hk => ⟨r.custodian, Database.mem_bundles_delete.2 ⟨hr, hp r hr hk⟩⟩,
      fun b hb hk => Database.mem_blocks_delete.2 ⟨hb, fun r hr hdeleted heq => ?_⟩⟩
    rw [hp r hr (heq.trans hk)] at hdeleted
    exact Bool.false_ne_true hdeleted
  have hsublist : (s.database.delete p).blocks.Sublist s.database.blocks := List.filter_sublist
  refine ⟨h.execute (h.tidy.sublist hsublist) hretains fun b hb hk =>
    h.files b (hsublist.mem hb) hk, fun r hr hk => ?_⟩
  exact ⟨r, (Database.mem_bundles_delete.1 hr).1, hk, rfl⟩

theorem Secure.updateCustodian (h : Secure basename k s) (c : Clock) (node : LocalNode)
    (b : Bundle) :
    (Secure basename k (s.updateCustodian c node b) ∧
      Advances k s (s.updateCustodian c node b)) ∧
        Inherits k s.database (s.updateCustodian c node b).database := by
  rw [SQLiteBundleStorage.updateCustodian]
  split
  · next custodian _ _ =>
      refine ⟨h.execute (h.tidy.sublist (.refl _)) ⟨fun r hr hk => ?_, fun b hb _ => hb⟩ h.files,
        fun r hr hk => ?_⟩
      · by_cases hkey : r.toRowKey = b.toBundleID.rowKey
        · exact ⟨custodian.getString, Database.mem_bundles_updateCustodian.2
            ⟨r, hr, if_pos hkey⟩⟩
        · exact ⟨r.custodian, Database.mem_bundles_updateCustodian.2 ⟨r, hr, if_neg hkey⟩⟩
      · obtain ⟨t, ht, rfl⟩ := Database.mem_bundles_updateCustodian.1 hr
        split_ifs at hk ⊢
        · exact ⟨t, ht, hk, rfl⟩
        · exact ⟨t, ht, hk, rfl⟩
  · exact ⟨⟨h, .refl k s⟩, .refl k s.database⟩

/-! ### Storing -/

/-- The names of the temporary files are new block files. -/
def BlockEnv.Fresh (basename : Bytes → Bytes) (env : BlockEnv) (db : Database) : Prop :=
  ∀ path, env.Names path → columnText path = path ∧ isBlockFile basename path = true ∧
    ∀ b ∈ db.blocks, columnText b.filename ≠ path

/-- Only the temporary files are changed. -/
theorem content?_storeFile {block : Block} {env : BlockEnv} {files : Directory Bytes Bytes}
    {path : Bytes} (h : ¬ env.Names path) :
    (storeFile block env files).2.content? path = files.content? path := by
  have hserialize {tmpfile : Bytes} {files : Directory Bytes Bytes} (hne : path ≠ tmpfile) :
      (serializeBlock block env.broken tmpfile files).2.content? path = files.content? path := by
    obtain ⟨e, bytes, heq⟩ | ⟨bytes, heq⟩ :=
      serializeBlock_cases block env.broken tmpfile files
    · rw [heq, Directory.content?_put, if_neg hne]
    · rw [heq, Directory.content?_put, if_neg hne]
  rw [storeFile]
  split
  · rfl
  · next tmpfile htmpfile =>
      have hne : path ≠ tmpfile := by
        rintro rfl
        exact h (.inl htmpfile)
      split
      · rw [Directory.content?_put, if_neg hne]
      · next blob tmpfile' hbody haccess =>
          have hne' : path ≠ tmpfile' := by
            rintro rfl
            exact h (.inr haccess)
          rw [hserialize hne', Directory.content?_remove, if_neg hne]
      · exact hserialize hne

/-- **A turn of the loop over the blocks**, whatever fails. -/
theorem Secure.storeBlock (h : Secure basename k s) {k' : RowKey} (hk' : k'.Readable) (number : ℕ)
    (block : Block) {env : BlockEnv} (hfresh : env.Fresh basename s.database) :
    (Secure basename k (storeBlock k' number block env s).2 ∧
      Advances k s (storeBlock k' number block env s).2) ∧
        Inherits k s.database (storeBlock k' number block env s).2.database := by
  have hcontent : ∀ b ∈ s.database.blocks, b.toRowKey = k →
      (storeFile block env s.files).2.content? (columnText b.filename) =
        s.files.content? (columnText b.filename) := fun b hb _ =>
    content?_storeFile fun hname => (hfresh _ hname).2.2 b hb rfl
  have hfiles := h.withFiles hcontent
  rw [SQLiteBundleStorage.storeBlock]
  rcases hfile : storeFile block env s.files with ⟨_ | filename, files⟩
  · rw [hfile] at hfiles
    exact ⟨hfiles, .refl k s.database⟩
  · rw [hfile] at hfiles
    dsimp only
    split
    · have hrollback := hfiles.1.rollback
      exact ⟨⟨hrollback.1, hfiles.2.trans hrollback.2⟩, hfiles.1.inherits_restart⟩
    · exact ⟨hfiles, .refl k s.database⟩
    · split
      · exact ⟨hfiles, .refl k s.database⟩
      · next db hdb =>
          obtain ⟨rfl, -⟩ := Database.blockStore_eq_some_iff.1 hdb
          obtain ⟨hname, hhas⟩ := storeFile_ok hfile
          obtain ⟨htext, hblock, hnew⟩ := hfresh filename hname
          have htidy : Tidy basename { s.database with
              blocks := s.database.blocks ++ [⟨k', block.blocktype, filename, number⟩] } :=
            h.tidy.append hk' (by rwa [htext]) (by rwa [htext])
          have hexecute := hfiles.1.execute (f := fun db =>
            { db with blocks := db.blocks ++ [⟨k', block.blocktype, filename, number⟩] }) htidy
            ⟨fun r hr _ => ⟨r.custodian, hr⟩, fun b hb _ => List.mem_append_left _ hb⟩
            fun b hb hk => by
              rcases List.mem_append.1 hb with hb | hb
              · exact hfiles.1.files b hb hk
              · obtain rfl := List.mem_singleton.1 hb
                rwa [htext]
          exact ⟨⟨hexecute.1, hfiles.2.trans hexecute.2⟩, .refl k s.database⟩

/-- The blocks of the call that come next go to new files. -/
def StoreCall.Fresh (basename : Bytes → Bytes) (call : StoreCall) (db : Database) : Prop :=
  ∀ number block rest, call.stage = .blocks number (block :: rest) →
    (call.env.block number).Fresh basename db

/-- What a call of `store` binds for its bundle. -/
def StoreCall.row (call : StoreCall) : BundleRow := .ofBundle call.clock call.bundle

/-- A step of a call changes neither its bundle nor the tasks. -/
theorem storeStep_frame (call : StoreCall) (s : SQLiteBundleStorage) :
    (∀ call', (storeStep call s).1 = some call' →
      call'.row = call.row ∧ call'.bundle = call.bundle) ∧
        (storeStep call s).2.tasks = s.tasks := by
  have hnext {stage : StoreStage} : ∀ call', some { call with stage } = some call' →
      call'.row = call.row ∧ call'.bundle = call.bundle := fun call' h => by
    obtain rfl := Option.some.inj h
    exact ⟨rfl, rfl⟩
  have hlast : ∀ call' : StoreCall, none = some call' →
      call'.row = call.row ∧ call'.bundle = call.bundle := fun call' h => by cases h
  rw [storeStep]
  dsimp only
  cases call.stage with
  | begin => exact ⟨hnext, rfl⟩
  | row =>
      dsimp only
      split
      · exact ⟨hnext, rfl⟩
      · split
        · exact ⟨hnext, rfl⟩
        · exact ⟨hnext, rfl⟩
  | rollback => exact ⟨hlast, rfl⟩
  | blocks number rest =>
      cases rest with
      | nil => exact ⟨hnext, rfl⟩
      | cons block rest =>
          have htasks : (storeBlock call.bundle.toBundleID.rowKey number block
              (call.env.block number) s).2.tasks = s.tasks := by
            rw [storeBlock]
            split
            · rfl
            · split
              · rfl
              · rfl
              · split <;> rfl
          dsimp only
          split
          · next hblock =>
              rw [hblock] at htasks
              exact ⟨hlast, htasks⟩
          · next hblock =>
              rw [hblock] at htasks
              exact ⟨hnext, htasks⟩
  | commit inserted => exact ⟨hnext, rfl⟩
  | time inserted =>
      refine ⟨hnext, ?_⟩
      rw [newExpireTime_eq]
  | custodian =>
      refine ⟨hlast, ?_⟩
      rw [updateCustodian_eq]
      rfl

/-- **A step of a call of `store`**: it inserts the row of its bundle, or no bundle. -/
theorem Secure.storeStep (h : Secure basename k s) {call : StoreCall}
    (hkey : call.bundle.toBundleID.rowKey.Readable) (hfresh : call.Fresh basename s.database) :
    (Secure basename k (storeStep call s).2 ∧ Advances k s (storeStep call s).2) ∧
      ∀ r ∈ (storeStep call s).2.database.bundles, r.toRowKey = k → r = call.row ∨
        ∃ r' ∈ s.database.bundles, r'.toRowKey = k ∧ r'.expiretime = r.expiretime := by
  have hinherits {s' : SQLiteBundleStorage}
      (h : (Secure basename k s' ∧ Advances k s s') ∧ Inherits k s.database s'.database) :
      (Secure basename k s' ∧ Advances k s s') ∧
        ∀ r ∈ s'.database.bundles, r.toRowKey = k → r = call.row ∨
          ∃ r' ∈ s.database.bundles, r'.toRowKey = k ∧ r'.expiretime = r.expiretime :=
    ⟨h.1, fun r hr hk => .inr (h.2 r hr hk)⟩
  rw [SQLiteBundleStorage.storeStep]
  dsimp only
  cases hstage : call.stage with
  | begin =>
      refine hinherits ⟨h.begin, ?_⟩
      have hbegin : database { s with session := s.session.begin } = s.database :=
        Session.begin_current _
      rw [hbegin]
      exact .refl k s.database
  | row =>
      dsimp only
      split
      · exact hinherits ⟨⟨h, .refl k s⟩, .refl k s.database⟩
      · split
        · exact hinherits ⟨⟨h, .refl k s⟩, .refl k s.database⟩
        · next db hdb =>
            obtain ⟨rfl, -⟩ := Database.bundleStore_eq_some_iff.1 hdb
            refine ⟨h.execute (f := fun db => { db with bundles := db.bundles ++ [call.row] })
              (h.tidy.sublist (.refl _))
              ⟨fun r hr _ => ⟨r.custodian, List.mem_append_left _ hr⟩, fun b hb _ => hb⟩ h.files,
              fun r hr hk => ?_⟩
            rcases List.mem_append.1 hr with hr | hr
            · exact .inr ⟨r, hr, hk, rfl⟩
            · exact .inl (List.mem_singleton.1 hr)
  | rollback => exact hinherits ⟨h.rollback, h.inherits_restart⟩
  | blocks number rest =>
      cases rest with
      | nil => exact hinherits ⟨⟨h, .refl k s⟩, .refl k s.database⟩
      | cons block rest =>
          have hblock := h.storeBlock hkey number block (hfresh number block rest hstage)
          dsimp only
          split
          · next heq =>
              rw [heq] at hblock
              exact hinherits hblock
          · next heq =>
              rw [heq] at hblock
              exact hinherits hblock
  | commit inserted => exact hinherits ⟨h.commit, .refl k s.database⟩
  | time inserted =>
      rw [newExpireTime_eq]
      exact hinherits ⟨h.of_eq rfl rfl, .refl k s.database⟩
  | custodian => exact hinherits (h.updateCustodian call.clock call.node call.bundle)

/-! ### The worker -/

/-- The files of other bundles are removed. -/
theorem Secure.removeFiles (h : Secure basename k s) {names : List Bytes}
    (hnames : ∀ name ∈ names, ∃ b ∈ s.database.blocks, b.filename = name ∧ b.toRowKey ≠ k) :
    Secure basename k (s.removeFiles names) ∧ Advances k s (s.removeFiles names) := by
  refine h.withFiles fun b hb hk => ?_
  rw [Directory.content?_removeAll, if_neg]
  intro hmem
  obtain ⟨name, hname, heq⟩ := List.mem_map.1 hmem
  obtain ⟨b', hb', rfl, hk'⟩ := hnames name hname
  rw [List.inj_on_of_nodup_map h.tidy.names hb' hb heq] at hk'
  exact hk' hk

theorem exists_of_mem_filenames {i : BundleID} (hi : i.rowKey ≠ k) {name : Bytes}
    (hname : name ∈ s.filenames i.rowKey) :
    ∃ b ∈ s.database.blocks, b.filename = name ∧ b.toRowKey ≠ k := by
  obtain ⟨b, hb, rfl⟩ := List.mem_map.1 hname
  obtain ⟨hb, hkey⟩ := Database.mem_blockGetId.1 hb
  exact ⟨b, hb, rfl, by rwa [hkey]⟩

theorem exists_of_mem_expireBundleFilenames {t : UInt64}
    (ht : ∀ r ∈ s.database.bundles, r.toRowKey = k → r.expired t = false) {name : Bytes}
    (hname : name ∈ s.database.expireBundleFilenames t) :
    ∃ b ∈ s.database.blocks, b.filename = name ∧ b.toRowKey ≠ k := by
  obtain ⟨r, hr, hexpired, b, hb, hkey, rfl⟩ := Database.mem_expireBundleFilenames.1 hname
  refine ⟨b, hb, rfl, fun hk => ?_⟩
  rw [ht r hr (hkey.trans hk)] at hexpired
  exact Bool.false_ne_true hexpired

/-- **A step of the worker** that removes and expires no bundle of the key. -/
theorem Secure.workerStep (h : Secure basename k s) {w : WorkerStage}
    (hremoval : ∀ i, w.removal? = some i → i.rowKey ≠ k)
    (htick : ∀ t, w.tick? = some t → ∀ r ∈ s.database.bundles, r.toRowKey = k →
      r.expired t = false) :
    (Secure basename k (workerStep w s).2 ∧ Advances k s (workerStep w s).2) ∧
      Inherits k s.database (workerStep w s).2.database := by
  have hsame {s' : SQLiteBundleStorage} (hsession : s'.session = s.session)
      (hfiles : s'.files = s.files) :
      (Secure basename k s' ∧ Advances k s s') ∧ Inherits k s.database s'.database := by
    have hdatabase : s'.database = s.database := congrArg Session.current hsession
    refine ⟨h.of_eq hsession hfiles, ?_⟩
    rw [hdatabase]
    exact .refl k s.database
  cases w with
  | idle =>
      rw [SQLiteBundleStorage.workerStep]
      split
      · exact hsame rfl rfl
      · exact hsame rfl rfl
      · exact hsame rfl rfl
  | removeFiles i => exact ⟨h.removeFiles fun name hname =>
      exists_of_mem_filenames (hremoval i rfl) hname, .refl k s.database⟩
  | removeRows i =>
      refine h.delete fun r hr hk => ?_
      rw [decide_eq_false_iff_not, hk]
      exact (hremoval i rfl).symm
  | expireCheck timestamp =>
      rw [SQLiteBundleStorage.workerStep]
      split_ifs
      · exact hsame rfl rfl
      · exact hsame rfl rfl
  | expireFiles timestamp => exact ⟨h.removeFiles fun name hname =>
      exists_of_mem_expireBundleFilenames (htick timestamp rfl) hname, .refl k s.database⟩
  | expireEvents timestamp => exact hsame rfl rfl
  | expireRows timestamp events => exact h.delete (htick timestamp rfl)
  | selectTime removed => exact hsame rfl rfl
  | writeTime time removed => exact hsame rfl rfl
  | removeMark i => exact hsame rfl rfl

/-! ### A new process -/

theorem Secure.restart (h : Secure basename k s) :
    Secure basename k s.restart ∧ Advances k s s.restart := by
  obtain ⟨hsecure, hadvances⟩ := h.rollback
  have hsame : Secure basename k s.restart ∧
      Advances k { s with session := s.session.rollback } s.restart := hsecure.of_eq rfl rfl
  obtain ⟨hsecure', hadvances'⟩ := hsame
  exact ⟨hsecure', hadvances.trans hadvances'⟩

/-- Stray files are none of a bundle. -/
theorem Secure.withoutStrays (h : Secure basename k s) {paths : List Bytes}
    (hpaths : ∀ path ∈ paths, path ∈ s.strays basename) :
    Secure basename k { s with files := s.files.removeAll paths } ∧
      Advances k s { s with files := s.files.removeAll paths } := by
  refine h.withFiles fun b hb _ => ?_
  rw [Directory.content?_removeAll, if_neg]
  intro hmem
  have hunnamed := of_decide_eq_true (List.mem_filter.1 (hpaths _ hmem)).2
  exact hunnamed b hb rfl

/-- A bundle that has its files is not damaged. -/
theorem Secure.rowKey_ne (h : Secure basename k s) (hsep : Separate (s.damagedIds basename))
    {i : BundleID} (hi : i ∈ s.damagedIds basename) : i.rowKey ≠ k := by
  rintro rfl
  have hwell : s.WellNamed basename := ⟨h.tidy.readable, h.tidy.names, hsep⟩
  obtain ⟨b, hb, hmissing, rfl⟩ := hwell.mem_damagedIds.1 hi
  have hhas := h.files b hb (RowKey.rowKey_bundleID (h.tidy.readable b hb)).symm
  exact hmissing (List.mem_filter.2 ⟨Directory.has_iff_mem.1 hhas, h.tidy.blockFile b hb⟩)

/-! ### The life of a storage -/

namespace System

/-- The worker is removing the file of this name. -/
def Removing (y : System) (name : Bytes) : Prop :=
  (∃ i, y.worker = .removeFiles i ∧ name ∈ y.storage.filenames i.rowKey) ∨
    ∃ t, y.worker = .expireFiles t ∧ name ∈ y.storage.database.expireBundleFilenames t

/-- The call of `store` is writing to this path. -/
def Writing (y : System) (path : Bytes) : Prop :=
  ∃ call number block rest, y.call = some call ∧ call.stage = .blocks number (block :: rest) ∧
    (call.env.block number).Names path

/-- The files when both threads have done a part of a step. -/
inductive Torn (y : System) : Directory Bytes Bytes → Prop
  | none : Torn y y.storage.files
  | removed {files : Directory Bytes Bytes} {name : Bytes} (h : Torn y files)
      (hname : y.Removing name) : Torn y (files.remove (columnText name))
  | written {files : Directory Bytes Bytes} {path : Bytes} (content : Bytes) (h : Torn y files)
      (hpath : y.Writing path) : Torn y (files.put path content)

/-- **What a process leaves that ends at any moment**, and what later ones leave that end while they
remove stray files. -/
inductive Cut (basename : Bytes → Bytes) (y : System) : SQLiteBundleStorage → Prop
  | torn {files : Directory Bytes Bytes} (h : y.Torn files) :
      Cut basename y { y.storage with files }
  | checking {s : SQLiteBundleStorage} {paths : List Bytes} (h : Cut basename y s)
      (hpaths : ∀ path ∈ paths, path ∈
        (scanBlocks s.restart.database.blocks (blockFiles basename s.restart.files) []).1) :
      Cut basename y { s.restart with files := s.restart.files.removeAll paths }

/-- What happens to the storage: a step of a thread, or the process ends and another one begins. -/
inductive Event where
  | thread (a : Label)
  | crash (s : SQLiteBundleStorage)

/-- **The life of a storage.** In a new process the worker has the removals before it that
`componentUp` has queued. -/
def Life (basename : Bytes → Bytes) (y : System) : Event → System → Prop
  | .thread a, y' => y.step a = some y'
  | .crash s, y' => y.Cut basename s ∧ ∃ t, componentUp basename s.restart = .ok t ∧
      y' = ⟨t, none, [], .idle⟩

/-- The expiry at a tick has been asked for, and is not done yet. -/
def Ticks (y : System) (t : UInt64) : Prop :=
  .expire t ∈ y.storage.tasks ∨ y.worker.tick? = some t

/-- The call in progress, if there is one, goes on with new files. -/
def Fresh (basename : Bytes → Bytes) (y : System) : Prop :=
  ∀ call, y.call = some call → call.Fresh basename y.storage.database

/-- **The bundles of a key are spared**: their removal is not asked for, and at no tick they are
due. The names of new files and the identifiers of damaged bundles are told apart. -/
def Spares (basename : Bytes → Bytes) (k : RowKey) (y : System) : Event → Prop
  | .thread (.store c _ _ b) => b.toBundleID.rowKey.Readable ∧
      (b.toBundleID.rowKey = k → ∀ t, y.Ticks t → (BundleRow.ofBundle c b).expired t = false)
  | .thread .storing => y.Fresh basename
  | .thread (.remove i) => i.rowKey ≠ k
  | .thread (.tick t) =>
      (∀ r ∈ y.storage.database.bundles, r.toRowKey = k → r.expired t = false) ∧
        ∀ call, y.call = some call → call.bundle.toBundleID.rowKey = k →
          call.row.expired t = false
  | .thread _ => True
  | .crash s => y.Fresh basename ∧ Separate (s.restart.damagedIds basename)

/-- **The bundles of a key are safe**: their rows have their files, and nothing that has been asked
for removes them. -/
structure Safe (basename : Bytes → Bytes) (k : RowKey) (y : System) : Prop where
  secure : Secure basename k y.storage
  removals : ∀ i, y.Removes i → i.rowKey ≠ k
  ticks : ∀ t, y.Ticks t → ∀ r ∈ y.storage.database.bundles, r.toRowKey = k →
    r.expired t = false
  call : ∀ call, y.call = some call → call.bundle.toBundleID.rowKey.Readable ∧
    (call.bundle.toBundleID.rowKey = k → ∀ t, y.Ticks t → call.row.expired t = false)

variable {y y' : System}

/-- Nothing new is asked for. -/
theorem Safe.of_step (h : y.Safe basename k) (hsecure : Secure basename k y'.storage)
    (hinherits : Inherits k y.storage.database y'.storage.database)
    (hremoves : ∀ i, y'.Removes i → y.Removes i ∨ i.rowKey ≠ k)
    (hticks : ∀ t, y'.Ticks t → y.Ticks t) (hcall : y'.call = y.call) : y'.Safe basename k := by
  refine ⟨hsecure, fun i hi => (hremoves i hi).elim (h.removals i) id, fun t ht r hr hk => ?_,
    fun call heq => ?_⟩
  · obtain ⟨r', hr', hk', htime⟩ := hinherits r hr hk
    rw [← BundleRow.expired_congr htime]
    exact h.ticks t (hticks t ht) r' hr' hk'
  · obtain ⟨hkey, hdue⟩ := h.call call (hcall ▸ heq)
    exact ⟨hkey, fun hk t ht => hdue hk t (hticks t ht)⟩

/-! #### Steps of the threads -/

theorem Safe.storing (h : y.Safe basename k) {call : StoreCall} (hcall : y.call = some call)
    (hfresh : call.Fresh basename y.storage.database) :
    Safe basename k { y with
      call := (storeStep call y.storage).1, storage := (storeStep call y.storage).2 } ∧
        Advances k y.storage (storeStep call y.storage).2 := by
  obtain ⟨hkey, hdue⟩ := h.call call hcall
  obtain ⟨⟨hsecure, hadvances⟩, hrows⟩ := h.secure.storeStep hkey hfresh
  obtain ⟨hnext, htasks⟩ := storeStep_frame call y.storage
  have hticks (t : UInt64) (ht : Ticks { y with
      call := (storeStep call y.storage).1, storage := (storeStep call y.storage).2 } t) :
      y.Ticks t := by
    rw [Ticks, htasks] at ht
    exact ht
  refine ⟨⟨hsecure, fun i hi => ?_, fun t ht r hr hk => ?_, fun call' hcall' => ?_⟩, hadvances⟩
  · rw [Removes, htasks] at hi
    exact h.removals i hi
  · rcases hrows r hr hk with rfl | ⟨r', hr', hk', htime⟩
    · exact hdue hk t (hticks t ht)
    · rw [← BundleRow.expired_congr htime]
      exact h.ticks t (hticks t ht) r' hr' hk'
  · obtain ⟨hrow, hbundle⟩ := hnext call' hcall'
    rw [hbundle, hrow]
    exact ⟨hkey, fun hk t ht => hdue hk t (hticks t ht)⟩

theorem workerStep_asks (w : WorkerStage) (s : SQLiteBundleStorage) :
    (∀ i, .remove i ∈ (workerStep w s).2.tasks ∨ (workerStep w s).1.removal? = some i →
      .remove i ∈ s.tasks ∨ w.removal? = some i) ∧
    ∀ t, .expire t ∈ (workerStep w s).2.tasks ∨ (workerStep w s).1.tick? = some t →
      .expire t ∈ s.tasks ∨ w.tick? = some t := by
  cases w with
  | idle =>
      rw [workerStep]
      cases htasks : s.tasks with
      | nil => simp [htasks, WorkerStage.removal?, WorkerStage.tick?]
      | cons task tasks =>
          cases task with
          | remove i =>
              simp only [WorkerStage.removal?, WorkerStage.tick?, List.mem_cons]
              refine ⟨fun j hj => ?_, fun t ht => ?_⟩
              · rcases hj with hj | hj
                · exact .inl (.inr hj)
                · rw [Option.some.inj hj]
                  exact .inl (.inl rfl)
              · rcases ht with ht | ht
                · exact .inl (.inr ht)
                · cases ht
          | expire timestamp =>
              simp only [WorkerStage.removal?, WorkerStage.tick?, List.mem_cons]
              refine ⟨fun j hj => ?_, fun t ht => ?_⟩
              · rcases hj with hj | hj
                · exact .inl (.inr hj)
                · cases hj
              · rcases ht with ht | ht
                · exact .inl (.inr ht)
                · rw [Option.some.inj ht]
                  exact .inl (.inl rfl)
  | expireCheck timestamp =>
      rw [workerStep]
      split_ifs
      · exact ⟨fun i hi => hi, fun t ht => .inl (ht.resolve_right (by simp [WorkerStage.tick?]))⟩
      · exact ⟨fun i hi => hi, fun t ht => ht⟩
  | removeRows i => exact ⟨fun j hj => .inl (hj.resolve_right (by simp [workerStep,
      WorkerStage.removal?])), fun t ht => ht⟩
  | expireRows timestamp events => exact ⟨fun j hj => hj, fun t ht =>
      .inl (ht.resolve_right (by simp [workerStep, WorkerStage.tick?]))⟩
  | removeFiles i => exact ⟨fun j hj => hj, fun t ht => ht⟩
  | expireFiles timestamp => exact ⟨fun j hj => hj, fun t ht => ht⟩
  | expireEvents timestamp => exact ⟨fun j hj => hj, fun t ht => ht⟩
  | selectTime removed => exact ⟨fun j hj => hj, fun t ht => ht⟩
  | writeTime time removed =>
      cases removed with
      | none => exact ⟨fun j hj => hj, fun t ht => ht⟩
      | some i => exact ⟨fun j hj => hj, fun t ht => ht⟩
  | removeMark i => exact ⟨fun j hj => hj, fun t ht => ht⟩

theorem Safe.working (h : y.Safe basename k) :
    Safe basename k { y with
      worker := (workerStep y.worker y.storage).1
      storage := (workerStep y.worker y.storage).2 } ∧
        Advances k y.storage (workerStep y.worker y.storage).2 := by
  obtain ⟨⟨hsecure, hadvances⟩, hinherits⟩ := h.secure.workerStep
    (fun i hi => h.removals i (.inr (.inr hi))) (fun t ht => h.ticks t (.inr ht))
  obtain ⟨hremoves, hticks⟩ := workerStep_asks y.worker y.storage
  refine ⟨h.of_step hsecure hinherits (fun i hi => .inl ?_) (fun t ht => hticks t ht) rfl,
    hadvances⟩
  rcases hi with hi | hi | hi
  · exact (hremoves i (.inl hi)).imp_right .inr
  · exact .inr (.inl hi)
  · exact (hremoves i (.inr hi)).imp_right .inr

/-! #### The end of a process -/

theorem Torn.content? (h : y.Safe basename k) (hfresh : y.Fresh basename)
    {files : Directory Bytes Bytes} (htorn : y.Torn files) {b : BlockRow}
    (hb : b ∈ y.storage.database.blocks) (hk : b.toRowKey = k) :
    files.content? (columnText b.filename) = y.storage.files.content? (columnText b.filename) := by
  induction htorn with
  | none => rfl
  | removed _ hname ih =>
      rename_i name _
      have hother : ∃ b' ∈ y.storage.database.blocks, b'.filename = name ∧ b'.toRowKey ≠ k := by
        rcases hname with ⟨i, hworker, hname⟩ | ⟨t, hworker, hname⟩
        · refine exists_of_mem_filenames (h.removals i (.inr (.inr ?_))) hname
          rw [hworker]
          rfl
        · refine exists_of_mem_expireBundleFilenames (h.ticks t (.inr ?_)) hname
          rw [hworker]
          rfl
      obtain ⟨b', hb', rfl, hk'⟩ := hother
      rw [Directory.content?_remove, if_neg, ih]
      intro heq
      rw [List.inj_on_of_nodup_map h.secure.tidy.names hb' hb heq.symm] at hk'
      exact hk' hk
  | written content _ hpath ih =>
      obtain ⟨call, number, block, rest, hcall, hstage, hname⟩ := hpath
      have hne := (hfresh call hcall number block rest hstage _ hname).2.2 b hb
      rw [Directory.content?_put, if_neg hne, ih]

theorem Cut.advances (h : y.Safe basename k) (hfresh : y.Fresh basename)
    (hcut : y.Cut basename s) : Secure basename k s ∧ Advances k y.storage s := by
  induction hcut with
  | torn htorn => exact h.secure.withFiles fun b hb hk => htorn.content? h hfresh hb hk
  | checking _ hpaths ih =>
      obtain ⟨hsecure, hadvances⟩ := ih
      obtain ⟨hsecure', hadvances'⟩ := hsecure.restart
      rw [scanBlocks_eq] at hpaths
      obtain ⟨hsecure'', hadvances''⟩ := hsecure'.withoutStrays hpaths
      exact ⟨hsecure'', (hadvances.trans hadvances').trans hadvances''⟩

/-- **A new process** queues the removal of no bundle that has its files. -/
theorem safe_componentUp (h : Secure basename k s)
    (hsep : Separate (s.restart.damagedIds basename)) {t : SQLiteBundleStorage}
    (hup : componentUp basename s.restart = .ok t) :
    Safe basename k ⟨t, none, [], .idle⟩ ∧ Advances k s t := by
  obtain ⟨hsecure, hadvances⟩ := h.restart
  have hclosed : s.restart.session.saved = none := Session.rollback_saved s.session
  obtain ⟨is, t', hup', hqueued, hmem, hdatabase, hfiles⟩ := exists_componentUp hclosed rfl rfl hsep
  obtain rfl : t' = t := Except.ok.inj (hup'.symm.trans hup)
  obtain ⟨hsecure', hadvances'⟩ := hsecure.withoutStrays fun path hpath => hpath
  have hsession : t'.session = s.restart.session :=
    congrArg₂ Session.mk hdatabase (hqueued.closed.trans hclosed.symm)
  obtain ⟨hsecure'', hadvances''⟩ := hsecure'.of_eq hsession hfiles
  refine ⟨⟨hsecure'', fun i hi => ?_, fun t ht => ?_, fun call hcall => by cases hcall⟩,
    (hadvances.trans hadvances').trans hadvances''⟩
  · rcases hi with hi | hi | hi
    · rw [hqueued.tasks, List.mem_map] at hi
      obtain ⟨j, hj, htask⟩ := hi
      obtain rfl := Task.remove.inj htask
      exact hsecure.rowKey_ne hsep ((hmem j).1 hj).1
    · exact absurd hi List.not_mem_nil
    · cases hi
  · rcases ht with ht | ht
    · rw [hqueued.tasks, List.mem_map] at ht
      obtain ⟨j, -, htask⟩ := ht
      cases htask
    · cases ht

/-- **One step keeps what is committed**, be it of a thread or the end of the process. -/
theorem Safe.advances (h : y.Safe basename k) {e : Event} (hspares : y.Spares basename k e)
    (hstep : y.Life basename e y') : y'.Safe basename k ∧ Advances k y.storage y'.storage := by
  cases e with
  | crash s =>
      obtain ⟨hcut, t, hup, rfl⟩ := hstep
      obtain ⟨hsecure, hadvances⟩ := hcut.advances h hspares.1
      obtain ⟨hsafe, hadvances'⟩ := safe_componentUp hsecure hspares.2 hup
      exact ⟨hsafe, hadvances.trans hadvances'⟩
  | thread a =>
      rw [Life] at hstep
      cases a with
      | store c node env b =>
          rw [step] at hstep
          split at hstep
          · obtain rfl := Option.some.inj hstep
            refine ⟨⟨h.secure, h.removals, h.ticks, fun call hcall => ?_⟩, .refl k y.storage⟩
            obtain rfl := Option.some.inj hcall
            exact hspares
          · cases hstep
      | storing =>
          rw [step, Option.map_eq_some_iff] at hstep
          obtain ⟨call, hcall, rfl⟩ := hstep
          exact h.storing hcall (hspares call hcall)
      | remove i =>
          obtain rfl := Option.some.inj hstep
          have hsame : Secure basename k (y.storage.addDeletion i) ∧
              Advances k y.storage (y.storage.addDeletion i) := h.secure.of_eq rfl rfl
          obtain ⟨hsecure, hadvances⟩ := hsame
          refine ⟨h.of_step hsecure (.refl k _) (fun j hj => ?_) (fun t ht => ht) rfl, hadvances⟩
          rcases hj with hj | hj | hj
          · exact .inl (.inl hj)
          · rcases List.mem_cons.1 hj with rfl | hj
            · exact .inr hspares
            · exact .inl (.inr (.inl hj))
          · exact .inl (.inr (.inr hj))
      | removing i =>
          rw [step] at hstep
          split_ifs at hstep with hi
          obtain rfl := Option.some.inj hstep
          have hsame : Secure basename k { y.storage with
                tasks := y.storage.tasks ++ [.remove i] } ∧
              Advances k y.storage { y.storage with tasks := y.storage.tasks ++ [.remove i] } :=
            h.secure.of_eq rfl rfl
          obtain ⟨hsecure, hadvances⟩ := hsame
          refine ⟨h.of_step hsecure (.refl k _) (fun j hj => .inl ?_) (fun t ht => ?_) rfl,
            hadvances⟩
          · rcases hj with hj | hj | hj
            · rcases List.mem_append.1 hj with hj | hj
              · exact .inl hj
              · rw [Task.remove.inj (List.mem_singleton.1 hj)]
                exact .inr (.inl hi)
            · exact .inr (.inl (List.mem_of_mem_erase hj))
            · exact .inr (.inr hj)
          · rcases ht with ht | ht
            · rcases List.mem_append.1 ht with ht | ht
              · exact .inl ht
              · cases List.mem_singleton.1 ht
            · exact .inr ht
      | tick timestamp =>
          obtain rfl := Option.some.inj hstep
          have hsame : Secure basename k (y.storage.tick timestamp) ∧
              Advances k y.storage (y.storage.tick timestamp) := h.secure.of_eq rfl rfl
          obtain ⟨hsecure, hadvances⟩ := hsame
          have hticks (t : UInt64) (ht : Ticks { y with storage := y.storage.tick timestamp } t) :
              y.Ticks t ∨ t = timestamp := by
            rcases ht with ht | ht
            · rcases List.mem_append.1 ht with ht | ht
              · exact .inl (.inl ht)
              · exact .inr (Task.expire.inj (List.mem_singleton.1 ht))
            · exact .inl (.inr ht)
          refine ⟨⟨hsecure, fun i hi => h.removals i ?_, fun t ht r hr hk => ?_,
            fun call hcall => ⟨(h.call call hcall).1, fun hk t ht => ?_⟩⟩, hadvances⟩
          · rcases hi with hi | hi
            · rcases List.mem_append.1 hi with hi | hi
              · exact .inl hi
              · cases List.mem_singleton.1 hi
            · exact .inr hi
          · rcases hticks t ht with ht | rfl
            · exact h.ticks t ht r hr hk
            · exact hspares.1 r hr hk
          · rcases hticks t ht with ht | rfl
            · exact (h.call call hcall).2 hk t ht
            · exact hspares.2 call hcall hk
      | work =>
          obtain rfl := Option.some.inj hstep
          exact h.working

/-- **The storage loses no bundle.** Whatever its threads do, and however often the process ends at
any moment, what is committed for a key stays committed, and its block files keep their contents:
unless the removal of the bundle is asked for, or it is due at a tick. -/
theorem durable_run {es : List Event} {y₀ : System} (h₀ : y₀.Safe basename k)
    (h : Transition.Run (Life basename) (Spares basename k) y₀ es y) :
    Advances k y₀.storage y.storage ∧
      ∀ b ∈ y₀.storage.restart.database.blocks, b.toRowKey = k →
        y.storage.files.Has (columnText b.filename) := by
  have hinvariant : y.Safe basename k ∧ Advances k y₀.storage y.storage :=
    h.invariant (I := fun y => y.Safe basename k ∧ Advances k y₀.storage y.storage)
      ⟨h₀, .refl k y₀.storage⟩ fun s e s' hs hmeets hstep => by
        obtain ⟨hsafe, hadvances⟩ := hs.1.advances hmeets hstep
        exact ⟨hsafe, hs.2.trans hadvances⟩
  obtain ⟨hsafe, hadvances⟩ := hinvariant
  refine ⟨hadvances, fun b hb hk => ?_⟩
  have hmem := hsafe.secure.retains_restart.blocks b (hadvances.retains.blocks b hb hk) hk
  exact hsafe.secure.files b hmem hk

/-- A storage with a bundle, and nobody uses it. -/
def sampleStored : System :=
  ⟨(SQLiteBundleStorage.create.store (Clock.showing 100) sampleNode sampleEnv sampleWhole).2, none,
    [], .idle⟩

theorem safe_sampleStored :
    sampleStored.Safe sampleBasename sampleWhole.toBundleID.rowKey := by
  have hsaved : sampleStored.storage.session.saved = none := by decide +kernel
  have htasks : sampleStored.storage.tasks = [] := by decide +kernel
  refine ⟨⟨⟨by decide +kernel, by decide +kernel, by decide +kernel⟩, fun db hdb => ?_,
    by decide +kernel⟩, fun i hi => ?_, fun t ht => ?_, fun call hcall => by cases hcall⟩
  · rw [hsaved] at hdb
    cases hdb
  · rcases hi with hi | hi | hi
    · rw [htasks] at hi
      exact absurd hi List.not_mem_nil
    · exact absurd hi List.not_mem_nil
    · cases hi
  · rcases ht with ht | ht
    · rw [htasks] at ht
      exact absurd ht List.not_mem_nil
    · cases ht

/-- Another bundle is being stored, and the process ends. -/
theorem durable_run_sample : ∃ y : System,
    Advances sampleWhole.toBundleID.rowKey sampleStored.storage y.storage ∧
      ∀ b ∈ sampleStored.storage.restart.database.blocks,
        b.toRowKey = sampleWhole.toBundleID.rowKey →
          y.storage.files.Has (columnText b.filename) := by
  let call : StoreCall := ⟨Clock.showing 100, sampleNode, sampleEnv,
    { sampleWhole with sequencenumber := 2 }, .begin⟩
  let y : System := ⟨{ sampleStored.storage with session := sampleStored.storage.session.begin },
    some { call with stage := .row }, [], .idle⟩
  have hsep : Separate (y.storage.restart.damagedIds sampleBasename) := by decide +kernel
  obtain ⟨is, t, hup, -⟩ :=
    exists_componentUp (Session.rollback_saved y.storage.session) rfl rfl hsep
  have hbegin : { sampleStored with call := some call }.Fresh sampleBasename := by
    intro call' hcall number block rest hstage
    obtain rfl := Option.some.inj hcall
    cases hstage
  have hrow : y.Fresh sampleBasename := by
    intro call' hcall number block rest hstage
    obtain rfl := Option.some.inj hcall
    cases hstage
  have hkey : call.bundle.toBundleID.rowKey ≠ sampleWhole.toBundleID.rowKey := by decide +kernel
  have hstored : (BundleID.rowKey call.bundle.toBundleID).Readable := by decide +kernel
  have hrun : Transition.Run (Life sampleBasename)
      (Spares sampleBasename sampleWhole.toBundleID.rowKey) sampleStored
      [.thread (.store call.clock call.node call.env call.bundle), .thread .storing,
        .crash y.storage] ⟨t, none, [], .idle⟩ := by
    have hcall : sampleStored.Life sampleBasename
        (.thread (.store call.clock call.node call.env call.bundle))
        { sampleStored with call := some call } := rfl
    have hstep : Life sampleBasename { sampleStored with call := some call } (.thread .storing) y :=
      rfl
    exact ((Transition.Run.nil.snoc ⟨hstored, fun hk => absurd hk hkey⟩ hcall).snoc hbegin
      hstep).snoc ⟨hrow, hsep⟩ ⟨.torn .none, t, hup, rfl⟩
  exact ⟨_, durable_run safe_sampleStored hrun⟩

end System

end SQLiteBundleStorage

end IbrDtn
