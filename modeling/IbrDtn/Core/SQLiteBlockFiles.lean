import IbrDtn.Core.SQLiteBundleStorage

/-!
# The block files of the storage in a database

`SQLiteBundleStorage::store_blocks` and `get_blocks` are the loops over the blocks of a bundle: one
writes a file and a row for each, the other reads the files back in the order of the rows.  This
file says what they do when nothing fails.

## Main definitions

* `SQLiteBundleStorage.StoreEnv.Works` : nothing fails while a bundle is stored.
* `SQLiteBundleStorage.fileContent` : what is in the file of a block.
* `SQLiteBundleStorage.GetEnv.Healthy`, `SQLiteBundleStorage.Loadable` : nothing fails while a block
  is loaded.

## Main results

* `SQLiteBundleStorage.storeBlocks_works` : the rows and files that the first loop adds.
* `SQLiteBundleStorage.getBlocks_loadable` : the second loop reads every file.
-/

namespace IbrDtn

namespace SQLiteBundleStorage

/-! ### Writing -/

/-- **Nothing fails while a bundle is stored**: there is a temporary file for every block, whose name
has no NUL byte and is neither that of a block in the table nor that of a file for another block. -/
structure StoreEnv.Works (env : ℕ → BlockEnv) (db : Database) : Prop where
  tmpfile : ∀ n, ∃ path, (env n).tmpfile = .ok path
  unbroken : ∀ n, (env n).broken = none
  faultless : ∀ n, (env n).fault = none
  text : ∀ n path, (env n).Names path → columnText path = path
  fresh : ∀ n path, (env n).Names path → ∀ r ∈ db.blocks, columnText r.filename ≠ path
  distinct : ∀ m n path, (env m).Names path → (env n).Names path → m = n

/-- Nothing fails while a block is stored for a bundle with the given key: the name of its temporary file
is none in the table, and a fragment has no block yet. -/
structure BlockEnv.Works (env : BlockEnv) (k : RowKey) (db : Database) : Prop where
  tmpfile : ∃ path, env.tmpfile = .ok path
  unbroken : env.broken = none
  faultless : env.fault = none
  fresh : ∀ path, env.Names path → ∀ r ∈ db.blocks, columnText r.filename ≠ path
  key : k.fragmentoffset = none ∨ ∀ r ∈ db.blocks, r.toRowKey ≠ k

/-- What is in the file of a block: the bytes of a BLOB that was linked, or a serialization. -/
def fileContent (block : Block) (env : BlockEnv) : Bytes :=
  match block.body, env.access with
  | .payload blob, .linked => blob
  | _, _ => SeparateSerializer.writeBlock block

/-- The name of the file of a block: that of the temporary file, or of another one if a hard-link is
refused. -/
def BlockEnv.path (env : BlockEnv) (block : Block) : Bytes :=
  match env.tmpfile, block.body, env.access with
  | .ok _, .payload _, .refused (.ok path) => path
  | .ok path, _, _ => path
  | .error _, _, _ => []

/-- The file of a block is written, and no other file changes. -/
theorem storeFile_works (block : Block) {env : BlockEnv} (htmpfile : ∃ path, env.tmpfile = .ok path)
    (hunbroken : env.broken = none) (files : Directory Bytes Bytes) :
    ∃ files', storeFile block env files = (.ok (env.path block), files') ∧
      env.Names (env.path block) ∧
      files'.content? (env.path block) = some (fileContent block env) ∧
        ∀ p, ¬ env.Names p → files'.content? p = files.content? p := by
  obtain ⟨tmpfile, htmpfile⟩ := htmpfile
  have hput (path : Bytes) (hpath : env.Names path) (bytes : Bytes)
      (hbytes : fileContent block env = bytes) {files₀ : Directory Bytes Bytes}
      (hfiles : ∀ p, ¬ env.Names p → files₀.content? p = files.content? p) :
      env.Names path ∧ (files₀.put path bytes).content? path = some (fileContent block env) ∧
        ∀ p, ¬ env.Names p → (files₀.put path bytes).content? p = files.content? p := by
    refine ⟨hpath, by rw [Directory.content?_put, if_pos rfl, hbytes], fun p hp => ?_⟩
    have hne : p ≠ path := fun heq => hp (heq.symm ▸ hpath)
    rw [Directory.content?_put, if_neg hne, hfiles p hp]
  rw [storeFile, BlockEnv.path, htmpfile]
  dsimp only
  split
  · next blob hbody haccess =>
      rw [hbody, haccess]
      refine ⟨_, rfl, hput tmpfile (.inl htmpfile) blob ?_ fun _ _ => rfl⟩
      rw [fileContent, hbody, haccess]
  · next blob path' hbody haccess =>
      rw [hunbroken, hbody, haccess]
      refine ⟨_, rfl, hput path' (.inr haccess) _ ?_ fun p hp => ?_⟩
      · rw [fileContent, hbody, haccess]
      · have hne : p ≠ tmpfile := fun heq => hp (heq.symm ▸ .inl htmpfile)
        rw [Directory.content?_remove, if_neg hne]
  · next hlinked hrefused =>
      rw [hunbroken]
      have hpath : (match (Except.ok tmpfile : Except Exn Bytes), block.body, env.access with
          | .ok _, .payload _, .refused (.ok path) => path
          | .ok path, _, _ => path
          | .error _, _, _ => []) = tmpfile := by
        split
        · next hbody haccess => exact absurd haccess (hrefused _ _ hbody)
        · next heq _ => exact (Except.ok.inj heq).symm
        · next heq => simp at heq
      rw [hpath]
      refine ⟨_, rfl, hput tmpfile (.inl htmpfile) _ ?_ fun _ _ => rfl⟩
      rw [fileContent]
      split
      · next hbody haccess => exact absurd haccess (hlinked _ hbody)
      · rfl

/-- A row for a block, and the file for it. -/
structure Written (k : RowKey) (number : ℕ) (block : Block) (env : BlockEnv)
    (files : Directory Bytes Bytes) (row : BlockRow) : Prop where
  key : row.toRowKey = k
  blocktype : row.blocktype = block.blocktype
  ordernumber : row.ordernumber = number
  filename : row.filename = env.path block
  named : env.Names row.filename
  content : files.content? row.filename = some (fileContent block env)

/-- The storage with other blocks and files. -/
def withBlocks (s : SQLiteBundleStorage) (blocks : List BlockRow) (files : Directory Bytes Bytes) :
    SQLiteBundleStorage :=
  { s with files, session := { s.session with current := { s.database with blocks } } }

/-- One turn of the loop adds a row and a file. -/
theorem storeBlock_works {k : RowKey} (number : ℕ) (block : Block) {env : BlockEnv}
    (s : SQLiteBundleStorage) (htmpfile : ∃ path, env.tmpfile = .ok path)
    (hunbroken : env.broken = none) (hfault : env.fault = none)
    (hkey : k.fragmentoffset = none ∨ ∀ r ∈ s.database.blocks, r.toRowKey ≠ k) :
    ∃ row files', storeBlock k number block env s =
        (.ok (), s.withBlocks (s.database.blocks ++ [row]) files') ∧
      Written k number block env files' row ∧
        ∀ p, ¬ env.Names p → files'.content? p = s.files.content? p := by
  obtain ⟨files', hfile, hname, hcontent, hother⟩ :=
    storeFile_works block htmpfile hunbroken s.files
  let row : BlockRow := ⟨k, block.blocktype, env.path block, number⟩
  have hrow : s.database.blockStore row =
      some { s.database with blocks := s.database.blocks ++ [row] } :=
    Database.blockStore_eq_some_iff.2 ⟨rfl, hkey⟩
  refine ⟨row, files', ?_, ⟨rfl, rfl, rfl, rfl, hname, hcontent⟩, hother⟩
  rw [storeBlock, hfile]
  dsimp only
  rw [hfault]
  dsimp only
  rw [show s.database.blockStore ⟨k, block.blocktype, env.path block, number⟩ = _ from hrow]
  rfl

/-- **The rows and files that the loop over the blocks adds.** The blocks are counted on, and of a
fragment there is only one. -/
theorem storeBlocks_works {k : RowKey} {env : ℕ → BlockEnv} {db : Database}
    (henv : StoreEnv.Works env db) {blocks : List Block} (number : ℕ) (s : SQLiteBundleStorage)
    (hkey : k.fragmentoffset = none ∨
      blocks.length ≤ 1 ∧ ∀ r ∈ s.database.blocks, r.toRowKey ≠ k) :
    ∃ rows files', storeBlocks k env number blocks s =
        (.ok (), s.withBlocks (s.database.blocks ++ rows) files') ∧
      rows.length = blocks.length ∧
      (∀ i (h : i < rows.length) (h' : i < blocks.length),
        Written k (number + i) blocks[i] (env (number + i)) files' rows[i]) ∧
      ∀ p, (∀ i < blocks.length, ¬ (env (number + i)).Names p) →
        files'.content? p = s.files.content? p := by
  induction blocks generalizing number s with
  | nil =>
      refine ⟨[], s.files, ?_, rfl, fun i h => absurd h (Nat.not_lt_zero i), fun _ _ => rfl⟩
      rw [List.append_nil]
      rfl
  | cons block blocks ih =>
      obtain ⟨row, files₁, hblock, hrow, hother⟩ := storeBlock_works number block s
        (henv.tmpfile number) (henv.unbroken number)
        (henv.faultless number) (hkey.imp_right And.right)
      have hrest : k.fragmentoffset = none ∨ blocks.length ≤ 1 ∧
          ∀ r ∈ (s.withBlocks (s.database.blocks ++ [row]) files₁).database.blocks,
            r.toRowKey ≠ k ∨ blocks = [] := by
        refine hkey.imp_right fun ⟨hlength, _⟩ => ?_
        have hnil : blocks = [] := by
          rw [List.length_cons] at hlength
          exact List.length_eq_zero_iff.1 (by omega)
        exact ⟨by simp [hnil], fun r _ => .inr hnil⟩
      have hdistinct (i : ℕ) (p : Bytes) (hp : (env number).Names p) :
          ¬ (env (number + 1 + i)).Names p := fun hp' => by
        have := henv.distinct _ _ p hp hp'
        omega
      by_cases hnil : blocks = []
      · subst hnil
        refine ⟨[row], files₁, ?_, rfl, fun i h _ => ?_, fun p hp => ?_⟩
        · rw [storeBlocks, hblock]
          rfl
        · obtain rfl : i = 0 := Nat.lt_one_iff.1 h
          exact hrow
        · exact hother p (hp 0 Nat.zero_lt_one)
      · obtain ⟨rows, files', hblocks, hlength, hrows, hfiles⟩ :=
          ih (number + 1) (s.withBlocks (s.database.blocks ++ [row]) files₁)
            (hrest.imp_right fun ⟨hlength, h⟩ => ⟨hlength, fun r hr => (h r hr).resolve_right hnil⟩)
        refine ⟨row :: rows, files', ?_, by rw [List.length_cons, hlength, List.length_cons],
          fun i h h' => ?_, fun p hp => ?_⟩
        · rw [storeBlocks, hblock]
          dsimp only
          rw [hblocks, List.append_cons s.database.blocks row rows]
          rfl
        · cases i with
          | zero =>
              refine ⟨hrow.key, hrow.blocktype, hrow.ordernumber, hrow.filename, hrow.named, ?_⟩
              refine (hfiles _ fun i _ => hdistinct i _ hrow.named).trans hrow.content
          | succ i =>
              have hwritten := hrows i (Nat.lt_of_succ_lt_succ h) (Nat.lt_of_succ_lt_succ h')
              rw [Nat.add_right_comm, Nat.add_assoc] at hwritten
              exact hwritten
        · refine (hfiles p fun i hi => ?_).trans (hother p (hp 0 (Nat.zero_lt_succ _)))
          have hnot := hp (i + 1) (Nat.succ_lt_succ hi)
          rwa [Nat.add_comm i 1, ← Nat.add_assoc] at hnot

/-- The rows and files for the blocks of a bundle, behind those that are there. -/
structure WrittenAll (b : Bundle) (env : ℕ → BlockEnv) (files files' : Directory Bytes Bytes)
    (rows : List BlockRow) : Prop where
  length_eq : rows.length = b.blocks.length
  written : ∀ i (h : i < rows.length) (h' : i < b.blocks.length),
    Written b.toBundleID.rowKey (1 + i) b.blocks[i] (env (1 + i)) files' rows[i]
  other : ∀ p, (∀ n, ¬ (env n).Names p) → files'.content? p = files.content? p

theorem WrittenAll.exists_written {b : Bundle} {env : ℕ → BlockEnv}
    {files files' : Directory Bytes Bytes} {rows : List BlockRow}
    (h : WrittenAll b env files files' rows) {row : BlockRow} (hrow : row ∈ rows) :
    ∃ n, ∃ block ∈ b.blocks, Written b.toBundleID.rowKey n block (env n) files' row := by
  obtain ⟨i, hi, rfl⟩ := List.getElem_of_mem hrow
  have hi' : i < b.blocks.length := h.length_eq ▸ hi
  exact ⟨1 + i, b.blocks[i], List.getElem_mem hi', h.written i hi hi'⟩

/-- Only a fragment has an offset in its key. -/
theorem fragmentoffset_rowKey (b : Bundle) : b.toBundleID.rowKey.fragmentoffset =
    if b.get PrimaryBlock.fragment then some b.fragmentoffset else none := rfl

/-- The storage in a transaction that has changed the tables. -/
def inTransaction (s : SQLiteBundleStorage) (db : Database) : SQLiteBundleStorage :=
  { s with session := { s.session.begin with current := db } }

/-- `store`, if the statement for the row of the bundle does not fail but for a constraint. -/
theorem store_eq (s : SQLiteBundleStorage) (c : Clock) (node : LocalNode) {env : StoreEnv}
    (b : Bundle) (hrow : env.rowError = none) : s.store c node env b =
      match s.database.bundleStore (.ofBundle c b) with
      | none => (.ok (), (s.inTransaction s.database).finishStore c node b)
      | some db =>
          match storeBlocks b.toBundleID.rowKey env.block 1 b.blocks (s.inTransaction db) with
          | (.error e, s) => (.error e, s)
          | (.ok _, s) => (.ok (), s.finishStore c node b) := by
  have hcurrent : s.inTransaction s.database = { s with session := s.session.begin } := by
    refine congrArg (fun session => ({ s with session } : SQLiteBundleStorage)) ?_
    exact congrArg (fun db => (⟨db, s.session.begin.saved⟩ : Session Database))
      (Session.begin_current s.session).symm
  rw [store, hrow, hcurrent]
  dsimp only
  rw [show database { s with session := s.session.begin } = s.database from
    Session.begin_current s.session]
  rfl

/-- **A bundle whose key is free is stored**, a fragment if it has one block. -/
theorem store_new {s : SQLiteBundleStorage} (c : Clock) (node : LocalNode) {env : StoreEnv}
    {b : Bundle} (hrow : env.rowError = none) (henv : StoreEnv.Works env.block s.database)
    (hfragment : b.get PrimaryBlock.fragment = true → b.blocks.length ≤ 1 ∧
      (∀ r ∈ s.database.bundles, r.toRowKey ≠ b.toBundleID.rowKey) ∧
        ∀ r ∈ s.database.blocks, r.toRowKey ≠ b.toBundleID.rowKey) :
    ∃ (rows : List BlockRow) (files' : Directory Bytes Bytes),
      s.store c node env b = (.ok (), { s with
        session := .closed {
          bundles := (s.database.bundles ++ [BundleRow.ofBundle c b]).map fun r =>
            { r with custodian := custodianFor c node b r }
          blocks := s.database.blocks ++ rows }
        files := files'
        nextExpiration := earlier s.nextExpiration b.storedExpiry }) ∧
      WrittenAll b env.block s.files files' rows := by
  let db : Database := { s.database with bundles := s.database.bundles ++ [.ofBundle c b] }
  have hbundle : s.database.bundleStore (.ofBundle c b) = some db := by
    refine Database.bundleStore_eq_some_iff.2 ⟨rfl, ?_⟩
    cases hget : b.get PrimaryBlock.fragment with
    | false => exact .inl ((fragmentoffset_rowKey b).trans (by rw [hget]; rfl))
    | true => exact .inr (hfragment hget).2.1
  have hkey : b.toBundleID.rowKey.fragmentoffset = none ∨
      b.blocks.length ≤ 1 ∧
        ∀ r ∈ (s.inTransaction db).database.blocks, r.toRowKey ≠ b.toBundleID.rowKey := by
    cases hget : b.get PrimaryBlock.fragment with
    | false => exact .inl ((fragmentoffset_rowKey b).trans (by rw [hget]; rfl))
    | true => exact .inr ⟨(hfragment hget).1, (hfragment hget).2.2⟩
  obtain ⟨rows, files', hblocks, hlength, hwritten, hother⟩ :=
    storeBlocks_works henv 1 (s.inTransaction db) hkey
  refine ⟨rows, files', ?_, hlength, hwritten, fun p hp => hother p fun i _ => hp _⟩
  rw [store_eq s c node b hrow, hbundle]
  dsimp only
  rw [hblocks]
  dsimp only
  rw [finishStore_eq]
  rfl

/-- A fragment whose key is taken is not stored, but changes the next expiry time, and custody is
accepted. -/
theorem store_taken {s : SQLiteBundleStorage} (c : Clock) (node : LocalNode) {env : StoreEnv}
    {b : Bundle} (hrow : env.rowError = none) (hfragment : b.get PrimaryBlock.fragment = true)
    (htaken : ∃ r ∈ s.database.bundles, r.toRowKey = b.toBundleID.rowKey) :
    s.store c node env b = (.ok (), { s with
      session := .closed { s.database with
        bundles := s.database.bundles.map fun r => { r with custodian := custodianFor c node b r } }
      nextExpiration := earlier s.nextExpiration b.storedExpiry }) := by
  have hbundle : s.database.bundleStore (.ofBundle c b) = none := by
    refine Database.bundleStore_eq_none_iff.2 ⟨?_, htaken⟩
    exact (fragmentoffset_rowKey b).trans_ne (by rw [if_pos hfragment]; exact Option.some_ne_none _)
  rw [store_eq s c node b hrow, hbundle]
  dsimp only
  rw [finishStore_eq]
  rfl

/-! ### What a store that returns has done -/

/-- A block that is stored has a row, whose key was free if it is that of a fragment. -/
theorem of_storeBlock_ok {k : RowKey} {number : ℕ} {block : Block} {env : BlockEnv}
    {s s' : SQLiteBundleStorage} (h : storeBlock k number block env s = (.ok (), s')) :
    s'.database.bundles = s.database.bundles ∧ (∃ r ∈ s'.database.blocks, r.toRowKey = k) ∧
      (k.fragmentoffset = none ∨ ∀ r ∈ s.database.blocks, r.toRowKey ≠ k) := by
  rw [storeBlock] at h
  split at h
  · simp at h
  · split at h
    · simp at h
    · simp at h
    · split at h
      · simp at h
      · next db hdb =>
          simp only [Prod.mk.injEq, true_and] at h
          obtain ⟨rfl, hkey⟩ := Database.blockStore_eq_some_iff.1 hdb
          subst h
          exact ⟨rfl, ⟨_, List.mem_append_right _ List.mem_cons_self, rfl⟩, hkey⟩

/-- **The blocks of a fragment are stored only if there is at most one**, and the rows of bundles stay. -/
theorem of_storeBlocks_ok {k : RowKey} {env : ℕ → BlockEnv} {blocks : List Block} {number : ℕ}
    {s s' : SQLiteBundleStorage} (h : storeBlocks k env number blocks s = (.ok (), s')) :
    s'.database.bundles = s.database.bundles ∧
      (k.fragmentoffset = none ∨ blocks.length ≤ 1 ∧
        (blocks ≠ [] → ∀ r ∈ s.database.blocks, r.toRowKey ≠ k)) := by
  induction blocks generalizing number s with
  | nil =>
      obtain rfl : s = s' := (Prod.mk.inj h).2
      exact ⟨rfl, .inr ⟨Nat.zero_le 1, fun hne => absurd rfl hne⟩⟩
  | cons block blocks ih =>
      rw [storeBlocks] at h
      split at h
      · simp at h
      · next u s₁ hblock =>
          obtain ⟨hbundles, ⟨r, hr, hrkey⟩, hkey⟩ := of_storeBlock_ok hblock
          obtain ⟨hbundles', hrest⟩ := ih h
          refine ⟨hbundles'.trans hbundles, ?_⟩
          rcases hrest with hnone | ⟨-, hfree⟩
          · exact .inl hnone
          · refine hkey.imp_right fun hkey => ⟨?_, fun _ => hkey⟩
            have hnil : blocks = [] := by
              by_contra hne
              exact hfree hne r hr hrkey
            rw [hnil]
            exact Nat.le_refl 1

/-- **What a store that returns has done**: a bundle that is no fragment has another row, and a fragment
whose key was free has at most one block. -/
theorem of_store_ok {s : SQLiteBundleStorage} {c : Clock} {node : LocalNode} {env : StoreEnv}
    {b : Bundle} (hrow : env.rowError = none) (h : (s.store c node env b).1 = .ok ()) :
    (b.get PrimaryBlock.fragment = false → (s.store c node env b).2.count = s.count + 1) ∧
      (b.get PrimaryBlock.fragment = true →
        (∀ r ∈ s.database.bundles, r.toRowKey ≠ b.toBundleID.rowKey) → b.blocks.length ≤ 1) := by
  rw [store_eq s c node b hrow] at h ⊢
  cases hdb : s.database.bundleStore (.ofBundle c b) with
  | none =>
      obtain ⟨hoffset, r, hr, hkey⟩ := Database.bundleStore_eq_none_iff.1 hdb
      refine ⟨fun hget => absurd ?_ hoffset, fun _ hfree => absurd hkey (hfree r hr)⟩
      exact (fragmentoffset_rowKey b).trans (by rw [hget]; rfl)
  | some db =>
      rw [hdb] at h
      dsimp only at h ⊢
      rcases hblocks : storeBlocks b.toBundleID.rowKey env.block 1 b.blocks (s.inTransaction db)
        with ⟨_ | _, s'⟩
      · rw [hblocks] at h
        simp at h
      · obtain ⟨hbundles, hkey⟩ := of_storeBlocks_ok hblocks
        refine ⟨fun _ => ?_, fun hget _ => ?_⟩
        · dsimp only
          rw [finishStore_eq, count, count, Database.countEntries, Database.countEntries]
          change (List.map _ s'.database.bundles).length = _
          rw [List.length_map, hbundles, (Database.bundleStore_eq_some_iff.1 hdb).1]
          exact List.length_append
        · refine (hkey.resolve_left ?_).1
          rw [fragmentoffset_rowKey, if_pos hget]
          exact Option.some_ne_none _

/-! ### Reading -/

/-- **Nothing fails while a bundle is loaded**: hard-links are made, BLOBs copy what they are to copy,
and the validator accepts every block. -/
structure GetEnv.Healthy (env : GetEnv) : Prop where
  link : ∀ path, env.link path = .ok true
  blob : env.deserializer.blob.CopiesExactly
  validator : ∀ b size, env.deserializer.validator.block b size = .ok ()

/-- The file of a row is there, and can be read if it is no payload, which is only linked. -/
def Loadable (files : Directory Bytes Bytes) (row : BlockRow) : Prop :=
  ∃ block : Block, block.Separable ∧ row.blocktype = block.blocktype ∧
    ∃ bytes, files.content? (columnText row.filename) = some bytes ∧
      (block.blocktype ≠ Block.payloadType → bytes = SeparateSerializer.writeBlock block)

theorem Loadable.of_content {files files' : Directory Bytes Bytes} {row : BlockRow}
    (h : Loadable files row) (hcontent : files'.content? (columnText row.filename) =
      files.content? (columnText row.filename)) : Loadable files' row := by
  obtain ⟨block, hblock, htype, bytes, hbytes, hwritten⟩ := h
  exact ⟨block, hblock, htype, bytes, hcontent.trans hbytes, hwritten⟩

/-- Only the BLOB of a payload block is linked. -/
theorem fileContent_of_ne {block : Block} (hblock : block.Separable)
    (htype : block.blocktype ≠ Block.payloadType) (env : BlockEnv) :
    fileContent block env = SeparateSerializer.writeBlock block := by
  rw [fileContent]
  split
  · next blob hbody _ =>
      have hpayload := hblock.hasType
      rw [hbody] at hpayload
      exact absurd (hpayload.eq_of_classType rfl) htype
  · rfl

/-- The row and the file of a block that was written can be loaded. -/
theorem Written.loadable {k : RowKey} {number : ℕ} {block : Block} {env : BlockEnv}
    {files : Directory Bytes Bytes} {row : BlockRow} (h : Written k number block env files row)
    (hblock : block.Separable) (htext : columnText row.filename = row.filename) :
    Loadable files row :=
  ⟨block, hblock, h.blocktype, _, by rw [htext, h.content],
    fun htype => fileContent_of_ne hblock htype env⟩

/-- Linking the file of a payload appends a block. -/
theorem pushBack_eq_append (bundle : Bundle) (block : Block) :
    bundle.pushBack block = bundle.append (block.set Block.lastBlock true) := by
  rw [Bundle.pushBack, Bundle.append, BlockList.pushBack, BlockList.unmarkBack]
  cases bundle.blocks.getLast? with
  | none => rfl
  | some last => exact congrArg (fun bs => ({ bundle with blocks := bs } : Bundle)) (by simp)

theorem append_setBack (bundle : Bundle) (x y : Block) :
    (bundle.append x).setBack y = bundle.append y := by
  rw [Bundle.setBack, Bundle.append, List.dropLast_concat, Bundle.append]

theorem length_append (bundle : Bundle) (x : Block) :
    (bundle.append x).blocks.length = bundle.blocks.length + 1 := by
  rw [Bundle.append, List.length_append, BlockList.unmarkBack]
  cases hlast : bundle.blocks.getLast? with
  | none =>
      rw [List.getLast?_eq_none_iff.1 hlast]
      rfl
  | some last =>
      obtain ⟨bs, hbs⟩ := List.getLast?_eq_some_iff.1 hlast
      rw [hbs]
      simp

/-- One turn of the loop over the rows appends a block. -/
theorem getBlock_loadable {env : GetEnv} (henv : env.Healthy) {files : Directory Bytes Bytes}
    {row : BlockRow} (hrow : Loadable files row) (bundle : Bundle) :
    ∃ x, getBlock env files row bundle = .ok (bundle.append x) := by
  obtain ⟨block, hblock, htype, bytes, hbytes, hwritten⟩ := hrow
  rw [getBlock]
  dsimp only
  by_cases hpayload : row.blocktype = Block.payloadType
  · rw [if_pos hpayload, henv.link, hbytes]
    dsimp only
    rw [pushBack_eq_append]
    exact ⟨_, rfl⟩
  · rw [htype] at hpayload
    obtain rfl := hwritten hpayload
    obtain ⟨body', hload, -⟩ :=
      SeparateDeserializer.loads_readBlock henv.blob henv.validator hblock hpayload bundle
    have hrun := hload [] env.stale
    rw [List.append_nil] at hrun
    rw [if_neg (htype ▸ hpayload), openFile, hbytes]
    dsimp only
    rw [hrun]
    dsimp only
    split
    · rw [append_setBack]
      exact ⟨_, rfl⟩
    · exact ⟨_, rfl⟩

/-- **The loop over the rows reads every file**, and appends one block for each. -/
theorem getBlocks_loadable {env : GetEnv} (henv : env.Healthy) {files : Directory Bytes Bytes}
    (rows : List BlockRow) (hrows : ∀ row ∈ rows, Loadable files row) (bundle : Bundle) :
    ∃ bundle', getBlocks env files rows bundle = .ok bundle' ∧
      bundle'.toPrimaryBlock = bundle.toPrimaryBlock ∧
      bundle'.blocks.length = bundle.blocks.length + rows.length := by
  induction rows generalizing bundle with
  | nil => exact ⟨bundle, rfl, rfl, rfl⟩
  | cons row rows ih =>
      obtain ⟨x, hx⟩ := getBlock_loadable henv (hrows row List.mem_cons_self) bundle
      obtain ⟨bundle', hblocks, hprimary, hlength⟩ :=
        ih (fun r hr => hrows r (List.mem_cons_of_mem _ hr)) (bundle.append x)
      refine ⟨bundle', ?_, hprimary, ?_⟩
      · rw [getBlocks, hx]
        exact hblocks
      · rw [hlength, length_append, List.length_cons]
        omega

end SQLiteBundleStorage

end IbrDtn
