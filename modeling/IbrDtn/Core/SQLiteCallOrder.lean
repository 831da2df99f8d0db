import IbrDtn.Core.SQLiteExpiry
import IbrDtn.Core.SQLiteTables

/-!
# The order of calls on the storage in a database

A removal marks an identifier at once, and deletes the rows and files of its key when the worker
comes to its task.  Meanwhile a bundle of the same key may have been stored, which the task deletes
as well, and the mark hides every bundle whose identifier the order of `BundleID` does not tell
from it.  A store and a task of the worker take place statement by statement, with other threads in
between.  In the runs without such stores and removals, a bundle can be fetched from the end of the
call that stores it up to the removal or the tick that ends it.

## Main definitions

* `SQLiteBundleStorage.Entry`, `SQLiteBundleStorage.System.record` : the ledger of the calls.
* `SQLiteBundleStorage.System.CallsKept` : what is in the ledger can be fetched.
* `SQLiteBundleStorage.System.Ordered` : the steps that keep the order of the calls.
* `SQLiteBundleStorage.System.Agrees` : what all these steps keep.

## Main results

* `SQLiteBundleStorage.System.Agrees.storing`, `SQLiteBundleStorage.System.Agrees.work` : a step of
  a call and of the worker.
* `SQLiteBundleStorage.System.callsKept_run` : what is in the ledger can be fetched behind every run
  of such steps, and when nothing is in progress nothing else.
-/

namespace IbrDtn

namespace SQLiteBundleStorage

/-- The tick whose task has found that something is due, and not yet deleted the rows. -/
def WorkerStage.expiring? : WorkerStage → Option UInt64
  | .expireFiles timestamp | .expireEvents timestamp | .expireRows timestamp _ => some timestamp
  | _ => none

/-- The bundle of the call has a row. -/
def StoreStage.placed : StoreStage → Bool
  | .begin | .row | .rollback => false
  | .blocks .. | .commit _ | .time _ | .custodian => true

/-- The blocks that are not stored yet. -/
def StoreStage.rest : StoreStage → List Block
  | .blocks _ rest => rest
  | _ => []

/-- The key of a fragment that is stored is taken. -/
def Taken (s : SQLiteBundleStorage) (b : Bundle) : Prop :=
  b.get PrimaryBlock.fragment = true ∧
    ∃ r ∈ s.database.bundles, r.toRowKey = b.toBundleID.rowKey

/-! ### The ledger -/

/-- An entry of the ledger: the identifier of a bundle, and the time at which it expires. -/
structure Entry where
  id : BundleID
  expiry : UInt64
deriving DecidableEq

/-- What is entered when the call returns. -/
def StoreCall.entry (call : StoreCall) : Entry :=
  ⟨call.bundle.toBundleID, call.bundle.storedExpiry⟩

namespace System

/-- The ledger behind a step: what is stored is entered when the call returns, what is removed is
struck out when the call begins, and what expires when the task of the tick begins. -/
def record (y : System) (l : List Entry) : Label → List Entry
  | .storing =>
      match y.call with
      | some call =>
          match call.stage with
          | .custodian => call.entry :: l
          | _ => l
      | none => l
  | .remove i => l.filter fun e => decide (e.id.rowKey ≠ i.rowKey)
  | .work =>
      match y.worker with
      | .expireCheck timestamp => l.filter fun e => decide (timestamp < e.expiry)
      | _ => l
  | .store .. | .removing _ | .tick _ => l

/-- The state behind a step of the call in progress. -/
abbrev calling (y : System) (call : Option StoreCall) (s : SQLiteBundleStorage) : System :=
  { y with call, storage := s }

/-- The state behind a step of the worker. -/
abbrev working (y : System) (w : WorkerStage) (s : SQLiteBundleStorage) : System :=
  { y with worker := w, storage := s }

/-- The state behind the first part of a removal. -/
abbrev marking (y : System) (i : BundleID) : System :=
  { y with storage := y.storage.addDeletion i, removing := i :: y.removing }

/-- No task is queued or at work, and no removal is between its two locked sections. -/
def Drained (y : System) : Prop := y.storage.tasks = [] ∧ y.removing = [] ∧ y.worker = .idle

instance (y : System) : Decidable y.Drained := inferInstanceAs (Decidable (_ ∧ _ ∧ _))

/-- **The storage keeps the order of calls**: what is in the ledger can be fetched, and without
tasks nothing else, but the bundle of a call of `store` that has not returned. -/
def CallsKept (y : System) (l : List Entry) : Prop :=
  ∀ env : GetEnv, env.Healthy →
    (∀ e ∈ l, ∃ b, y.storage.get env e.id = .ok b) ∧
      (y.Drained → ∀ i b, y.storage.get env i = .ok b →
        (∃ e ∈ l, e.id.rowKey = i.rowKey) ∨
          ∃ call, y.call = some call ∧ call.entry.id.rowKey = i.rowKey)

/-! ### The steps that keep the order -/

/-- The steps of a store that keep the order. A row is inserted, or found, only if no removal of its
key is under way, the rows with its key expire at the same time, and no task is about to expire it;
and if it is inserted, the bundle can be loaded again. Block files have names without NUL bytes.
When the call returns, no mark is equivalent to the identifier. -/
def StoreOrdered (y : System) (call : StoreCall) : Prop :=
  match call.stage with
  | .row => call.env.rowError = none →
      (∀ i, y.Removes i → i.rowKey ≠ call.entry.id.rowKey) ∧
        (∀ r ∈ y.storage.database.bundles, r.toRowKey = call.entry.id.rowKey →
          r.expiretime = call.entry.expiry) ∧
        (∀ t, y.worker.expiring? = some t → t < call.entry.expiry) ∧
        (¬ y.storage.Taken call.bundle → Storable call.bundle)
  | .blocks number (_ :: _) =>
      ∀ path, (call.env.block number).Names path → columnText path = path
  | .custodian => ∀ m ∈ y.storage.deletionList, call.entry.id.Comparable m
  | _ => True

/-- The steps that keep the order. A removal does not mark an identifier that is equivalent to that
of another bundle in the ledger, nor one with the key of a store in progress that has its row; and
no task of a tick finds such a row due. -/
def Ordered (y : System) (l : List Entry) : Label → Prop
  | .storing => ∀ call, y.call = some call → y.StoreOrdered call
  | .remove i =>
      (∀ e ∈ l, e.id.rowKey = i.rowKey ∨ e.id.Comparable i) ∧
        ∀ call, y.call = some call → call.stage.placed = true →
          i.rowKey ≠ call.entry.id.rowKey
  | .work => ∀ t, y.worker = .expireCheck t → ∀ call, y.call = some call →
      call.stage.placed = true → t < call.entry.expiry
  | .store .. | .removing _ | .tick _ => True

/-! ### What these steps keep -/

/-- The bundle of an entry has rows, which expire at its time; no removal of its key is under way,
and no task is about to expire it. -/
structure Keeps (y : System) (e : Entry) : Prop where
  row : ∃ r ∈ y.storage.database.bundles, r.toRowKey = e.id.rowKey
  expiry : ∀ r ∈ y.storage.database.bundles, r.toRowKey = e.id.rowKey → r.expiretime = e.expiry
  kept : ∀ i, y.Removes i → i.rowKey ≠ e.id.rowKey
  later : ∀ t, y.worker.expiring? = some t → t < e.expiry

/-- The rows of the blocks are there. -/
def HasBlock (y : System) (e : Entry) : Prop :=
  ∃ b ∈ y.storage.database.blocks, b.toRowKey = e.id.rowKey

/-- The bundle of a call has a row, and blocks that are stored or yet to be stored. -/
structure Progresses (y : System) (call : StoreCall) : Prop extends y.Keeps call.entry where
  separable : ∀ block ∈ call.stage.rest, block.Separable
  block : call.stage.rest ≠ [] ∨ y.HasBlock call.entry

/-- The file of a block has been removed, and its row will be. -/
def Cleared (y : System) (b : BlockRow) : Prop :=
  (∃ i, y.worker = .removeRows i ∧ i.rowKey = b.toRowKey) ∨
    ∃ t, y.worker.clearing? = some t ∧
      ∃ r ∈ y.storage.database.bundles, r.expired t = true ∧ r.toRowKey = b.toRowKey

/-- A bundle with this key is in the ledger, or the call in progress stores one. -/
def Claims (y : System) (l : List Entry) (k : RowKey) : Prop :=
  (∃ e ∈ l, e.id.rowKey = k) ∨
    ∃ call, y.call = some call ∧ call.stage.placed = true ∧ call.entry.id.rowKey = k

/-- The row will be deleted by a task. -/
def Doomed (y : System) (r : BundleRow) : Prop :=
  (∃ i, y.Removes i ∧ i.rowKey = r.toRowKey) ∨
    ∃ t, y.worker.expiring? = some t ∧ r.expired t = true

/-- **The tables agree with the ledger**: every block belongs to a bundle and has a file of its own,
the bundles of the ledger and of the call in progress are there, and every other row will be
deleted. -/
structure Agrees (y : System) (l : List Entry) : Prop where
  timely : y.Timely
  owned : ∀ b ∈ y.storage.database.blocks, ∃ r ∈ y.storage.database.bundles,
    r.toRowKey = b.toRowKey
  loadable : ∀ b ∈ y.storage.database.blocks, y.Cleared b ∨ Loadable y.storage.files b
  names : y.storage.database.blocks.Pairwise fun a b =>
    columnText a.filename ≠ columnText b.filename
  entries : ∀ e ∈ l, y.Keeps e ∧ y.HasBlock e
  visible : ∀ e ∈ l, ∀ m ∈ y.storage.deletionList, e.id.Comparable m
  call : ∀ call, y.call = some call → call.stage.placed = true → y.Progresses call
  rows : ∀ r ∈ y.storage.database.bundles, y.Claims l r.toRowKey ∨ y.Doomed r

theorem agrees_create : create.Agrees [] where
  timely := timely_create
  owned _ h := absurd h List.not_mem_nil
  loadable _ h := absurd h List.not_mem_nil
  names := .nil
  entries _ h := absurd h List.not_mem_nil
  visible _ h := absurd h List.not_mem_nil
  call _ h := absurd h (by simp [create])
  rows _ h := absurd h List.not_mem_nil

variable {y y' : System} {l l' : List Entry} {e : Entry} {t : UInt64} {r : BundleRow}

/-- The tick whose task has removed files is about to expire what is due. -/
theorem WorkerStage.expiring?_of_clearing? {w : WorkerStage} (h : w.clearing? = some t) :
    w.expiring? = some t := by
  cases w <;> simp_all [WorkerStage.clearing?, WorkerStage.expiring?]

theorem WorkerStage.tick?_of_expiring? {w : WorkerStage} (h : w.expiring? = some t) :
    w.tick? = some t := by
  cases w <;> simp_all [WorkerStage.tick?, WorkerStage.expiring?]

/-- A row is due exactly if its time has come. -/
theorem Timely.expired_iff (h : y.Timely) (ht : y.worker.tick? = some t)
    (hr : r ∈ y.storage.database.bundles) : r.expired t = true ↔ r.expiretime ≤ t :=
  BundleRow.expired_iff (h.ticks t (.inr ht)) (h.regular r hr)

/-- No row of a bundle that is kept is due. -/
theorem Keeps.expired_eq_false (h : y.Keeps e) (htimely : y.Timely)
    (ht : y.worker.expiring? = some t) (hr : r ∈ y.storage.database.bundles)
    (hkey : r.toRowKey = e.id.rowKey) : r.expired t = false := by
  rw [← Bool.not_eq_true, htimely.expired_iff (WorkerStage.tick?_of_expiring? ht) hr,
    h.expiry r hr hkey, UInt64.not_le]
  exact h.later t ht

/-- The files of a bundle that is kept have not been removed. -/
theorem Keeps.not_cleared (h : y.Keeps e) (htimely : y.Timely) {b : BlockRow}
    (hb : b.toRowKey = e.id.rowKey) : ¬ y.Cleared b := by
  rintro (⟨i, hw, hkey⟩ | ⟨t, ht, r, hr, hdue, hkey⟩)
  · refine h.kept i (.inr (.inr ?_)) (hkey.trans hb)
    rw [hw]
    rfl
  · have hfalse := h.expired_eq_false htimely (WorkerStage.expiring?_of_clearing? ht) hr
      (hkey.trans hb)
    rw [hdue] at hfalse
    exact Bool.noConfusion hfalse

/-- A row that will be deleted is none of a bundle that is kept. -/
theorem Keeps.not_doomed (h : y.Keeps e) (htimely : y.Timely)
    (hr : r ∈ y.storage.database.bundles) (hkey : r.toRowKey = e.id.rowKey) : ¬ y.Doomed r := by
  rintro (⟨i, hi, hikey⟩ | ⟨t, ht, hdue⟩)
  · exact h.kept i hi (hikey.trans hkey)
  · have hfalse := h.expired_eq_false htimely ht hr hkey
    rw [hdue] at hfalse
    exact Bool.noConfusion hfalse

/-- A call without a row claims nothing. -/
theorem Claims.mem_of_not_placed {k : RowKey} (h : y.Claims l k) {call : StoreCall}
    (hcall : y.call = some call) (hplaced : call.stage.placed = false) :
    ∃ e ∈ l, e.id.rowKey = k := by
  refine h.resolve_right ?_
  rintro ⟨c, hc, hc', -⟩
  obtain rfl := Option.some.inj (hcall.symm.trans hc)
  rw [hplaced] at hc'
  exact Bool.noConfusion hc'

/-- **Tables that agree with the ledger keep the order of calls.** -/
theorem Agrees.callsKept (h : y.Agrees l) : y.CallsKept l := by
  refine fun env henv => ⟨fun e he => ?_, fun hdrained i b hget => ?_⟩
  · obtain ⟨hkeeps, hblock⟩ := h.entries e he
    obtain ⟨b, hb, -⟩ := exists_get henv hkeeps.row hblock (fun b hb hkey =>
      (h.loadable b hb).resolve_left (hkeeps.not_cleared h.timely hkey)) (h.visible e he)
    exact ⟨b, hb⟩
  · obtain ⟨htasks, hremoving, hworker⟩ := hdrained
    obtain ⟨r, hr, hkey⟩ := exists_row_of_get hget
    rcases h.rows r hr with (⟨e, he, hekey⟩ | ⟨call, hcall, -, hckey⟩) | hdoomed
    · exact .inl ⟨e, he, hekey.trans hkey⟩
    · exact .inr ⟨call, hcall, hckey.trans hkey⟩
    · rcases hdoomed with ⟨j, hj | hj | hj, -⟩ | ⟨t, ht, -⟩
      · rw [htasks] at hj
        exact absurd hj List.not_mem_nil
      · rw [hremoving] at hj
        exact absurd hj List.not_mem_nil
      · rw [hworker] at hj
        exact absurd hj (by simp [WorkerStage.removal?])
      · rw [hworker] at ht
        exact absurd ht (by simp [WorkerStage.expiring?])

/-! ### Steps that change nothing but custodians and marks -/

/-- The step changes nothing in the tables but custodians, and no files; and what is about to be
deleted stays the same. -/
structure Resembles (y y' : System) : Prop where
  hold : ∀ r ∈ y.storage.database.bundles, ∃ r' ∈ y'.storage.database.bundles,
    r'.toRowKey = r.toRowKey ∧ r'.expiretime = r.expiretime
  hnew : ∀ r' ∈ y'.storage.database.bundles, ∃ r ∈ y.storage.database.bundles,
    r.toRowKey = r'.toRowKey ∧ r.expiretime = r'.expiretime
  blocks : y'.storage.database.blocks = y.storage.database.blocks
  files : y'.storage.files = y.storage.files
  removes : ∀ i, y'.Removes i ↔ y.Removes i
  expiring : y'.worker.expiring? = y.worker.expiring?
  clearing : y'.worker.clearing? = y.worker.clearing?
  removeRows : ∀ i, y'.worker = .removeRows i ↔ y.worker = .removeRows i

namespace Resembles

/-- Neither the tables nor the files change. -/
theorem of_eq (hdatabase : y'.storage.database = y.storage.database)
    (hfiles : y'.storage.files = y.storage.files) (hremoves : ∀ i, y'.Removes i ↔ y.Removes i)
    (hexpiring : y'.worker.expiring? = y.worker.expiring?)
    (hclearing : y'.worker.clearing? = y.worker.clearing?)
    (hremoveRows : ∀ i, y'.worker = .removeRows i ↔ y.worker = .removeRows i) :
    y.Resembles y' where
  hold r hr := ⟨r, hdatabase ▸ hr, rfl, rfl⟩
  hnew r hr := ⟨r, hdatabase ▸ hr, rfl, rfl⟩
  blocks := by rw [hdatabase]
  files := hfiles
  removes := hremoves
  expiring := hexpiring
  clearing := hclearing
  removeRows := hremoveRows

/-- The call in progress goes on, and changes neither the tables nor the files. -/
theorem of_call (call : Option StoreCall) {s : SQLiteBundleStorage}
    (hdatabase : s.database = y.storage.database) (hfiles : s.files = y.storage.files)
    (htasks : s.tasks = y.storage.tasks) : y.Resembles (y.calling call s) :=
  of_eq hdatabase hfiles (fun i => by rw [Removes, Removes, htasks]) rfl rfl fun _ => Iff.rfl

theorem keeps (h : y.Resembles y') (he : y.Keeps e) : y'.Keeps e where
  row := by
    obtain ⟨r, hr, hkey⟩ := he.row
    obtain ⟨r', hr', hkey', -⟩ := h.hold r hr
    exact ⟨r', hr', hkey'.trans hkey⟩
  expiry r' hr' hkey' := by
    obtain ⟨r, hr, hkey, htime⟩ := h.hnew r' hr'
    exact htime.symm.trans (he.expiry r hr (hkey.trans hkey'))
  kept i hi := he.kept i ((h.removes i).1 hi)
  later t ht := he.later t (h.expiring ▸ ht)

theorem hasBlock (h : y.Resembles y') : y'.HasBlock e ↔ y.HasBlock e := by
  rw [HasBlock, HasBlock, h.blocks]

theorem cleared (h : y.Resembles y') {b : BlockRow} (hb : y.Cleared b) : y'.Cleared b := by
  rcases hb with ⟨i, hw, hkey⟩ | ⟨t, ht, r, hr, hdue, hkey⟩
  · exact .inl ⟨i, (h.removeRows i).2 hw, hkey⟩
  · obtain ⟨r', hr', hkey', htime⟩ := h.hold r hr
    exact .inr ⟨t, h.clearing ▸ ht, r', hr', (BundleRow.expired_congr htime t).trans hdue,
      hkey'.trans hkey⟩

theorem doomed (h : y.Resembles y') {r r' : BundleRow} (hkey : r.toRowKey = r'.toRowKey)
    (htime : r.expiretime = r'.expiretime) (hr : y.Doomed r) : y'.Doomed r' := by
  rcases hr with ⟨i, hi, hikey⟩ | ⟨t, ht, hdue⟩
  · exact .inl ⟨i, (h.removes i).2 hi, hikey.trans hkey⟩
  · exact .inr ⟨t, h.expiring ▸ ht, (BundleRow.expired_congr htime.symm t).trans hdue⟩

end Resembles

namespace Agrees

/-- A step that changes nothing but custodians and marks. -/
theorem of_resembles (h : y.Agrees l) (hsame : y.Resembles y') (htimely : y'.Timely)
    (hentries : ∀ e ∈ l', y.Keeps e ∧ y.HasBlock e)
    (hvisible : ∀ e ∈ l', ∀ m ∈ y'.storage.deletionList, e.id.Comparable m)
    (hcall : ∀ call, y'.call = some call → call.stage.placed = true → y.Progresses call)
    (hclaims : ∀ r ∈ y.storage.database.bundles, y.Claims l r.toRowKey →
      y'.Claims l' r.toRowKey) : y'.Agrees l' where
  timely := htimely
  owned b hb := by
    obtain ⟨r, hr, hkey⟩ := h.owned b (hsame.blocks ▸ hb)
    obtain ⟨r', hr', hkey', -⟩ := hsame.hold r hr
    exact ⟨r', hr', hkey'.trans hkey⟩
  loadable b hb := by
    rw [hsame.files]
    exact (h.loadable b (hsame.blocks ▸ hb)).imp_left hsame.cleared
  names := hsame.blocks ▸ h.names
  entries e he := ⟨hsame.keeps (hentries e he).1, hsame.hasBlock.2 (hentries e he).2⟩
  visible := hvisible
  call call hc hplaced := by
    have hprogresses := hcall call hc hplaced
    exact ⟨hsame.keeps hprogresses.toKeeps, hprogresses.separable,
      hprogresses.block.imp_right hsame.hasBlock.2⟩
  rows r' hr' := by
    obtain ⟨r, hr, hkey, htime⟩ := hsame.hnew r' hr'
    exact (h.rows r hr).imp (fun hclaims' => hkey ▸ hclaims r hr hclaims')
      (hsame.doomed hkey htime)

/-- A step that changes neither the ledger nor how far the call in progress has come, and adds no
marks. -/
theorem of_same (h : y.Agrees l) (hsame : y.Resembles y') (htimely : y'.Timely)
    (hmarks : ∀ m ∈ y'.storage.deletionList, m ∈ y.storage.deletionList)
    (hcall : y'.call = y.call) : y'.Agrees l :=
  h.of_resembles hsame htimely h.entries (fun e he m hm => h.visible e he m (hmarks m hm))
    (fun call hc => h.call call (hcall ▸ hc))
    fun _ _ hclaims => hclaims.imp_right fun ⟨call, hc, hplaced⟩ => ⟨call, hcall ▸ hc, hplaced⟩

/-- A step of the call in progress that changes neither the ledger nor what the call claims. -/
theorem of_call (h : y.Agrees l) {call call' : StoreCall} (hcall : y.call = some call)
    {s : SQLiteBundleStorage} (hdatabase : s.database = y.storage.database)
    (hfiles : s.files = y.storage.files) (htasks : s.tasks = y.storage.tasks)
    (hmarks : s.deletionList = y.storage.deletionList)
    (htimely : Timely (y.calling (some call') s))
    (hentry : call'.entry = call.entry) (hplaced : call'.stage.placed = call.stage.placed)
    (hrest : call'.stage.rest = call.stage.rest ∨ call'.stage.placed = false) :
    Agrees (y.calling (some call') s) l := by
  refine h.of_resembles (.of_call _ hdatabase hfiles htasks) htimely h.entries
    (fun e he m hm => h.visible e he m (hmarks ▸ hm)) (fun c hc hc' => ?_) fun _ _ hclaims => ?_
  · obtain rfl := Option.some.inj hc
    have hprogresses := h.call call hcall (hplaced ▸ hc')
    rcases hrest with hrest | hrest
    · exact ⟨hentry ▸ hprogresses.toKeeps, hrest ▸ hprogresses.separable,
        hrest ▸ hentry ▸ hprogresses.block⟩
    · rw [hrest] at hc'
      exact Bool.noConfusion hc'
  · refine hclaims.imp_right ?_
    rintro ⟨c, hc, hc', hkey⟩
    obtain rfl := Option.some.inj (hcall.symm.trans hc)
    exact ⟨call', rfl, hplaced ▸ hc', hentry ▸ hkey⟩

/-! ### Steps of a store -/

/-- A row is inserted. -/
theorem insert (h : y.Agrees l) {call : StoreCall} {db : Database} (hcall : y.call = some call)
    (hstage : call.stage.placed = false)
    (hdb : y.storage.database.bundleStore (.ofBundle call.clock call.bundle) = some db)
    (hkept : ∀ i, y.Removes i → i.rowKey ≠ call.entry.id.rowKey)
    (hexpiry : ∀ r ∈ y.storage.database.bundles, r.toRowKey = call.entry.id.rowKey →
      r.expiretime = call.entry.expiry)
    (hlater : ∀ t, y.worker.expiring? = some t → t < call.entry.expiry)
    (hstorable : Storable call.bundle)
    (htimely : Timely (y.calling (some { call with stage := .blocks 1 call.bundle.blocks })
      { y.storage with session := { y.storage.session with current := db } })) :
    Agrees (y.calling (some { call with stage := .blocks 1 call.bundle.blocks })
      { y.storage with session := { y.storage.session with current := db } }) l := by
  obtain ⟨rfl, -⟩ := Database.bundleStore_eq_some_iff.1 hdb
  have hold {r : BundleRow} (hr : r ∈ y.storage.database.bundles) :
      r ∈ y.storage.database.bundles ++ [BundleRow.ofBundle call.clock call.bundle] :=
    List.mem_append_left _ hr
  have hnew {r : BundleRow} (hr : r ∈ y.storage.database.bundles ++
      [BundleRow.ofBundle call.clock call.bundle]) :
      r ∈ y.storage.database.bundles ∨ r = .ofBundle call.clock call.bundle := by
    simpa using hr
  refine ⟨htimely, fun b hb => ?_, fun b hb => ?_, h.names, fun e he => ?_, h.visible,
    fun c hc _ => ?_, fun r hr => ?_⟩
  · obtain ⟨r, hr, hkey⟩ := h.owned b hb
    exact ⟨r, hold hr, hkey⟩
  · refine (h.loadable b hb).imp_left fun hcleared => hcleared.imp_right ?_
    rintro ⟨t, ht, r, hr, hdue⟩
    exact ⟨t, ht, r, hold hr, hdue⟩
  · obtain ⟨hkeeps, hblock⟩ := h.entries e he
    obtain ⟨r, hr, hkey⟩ := hkeeps.row
    refine ⟨⟨⟨r, hold hr, hkey⟩, fun r' hr' hkey' => ?_, hkeeps.kept, hkeeps.later⟩, hblock⟩
    rcases hnew hr' with hr' | rfl
    · exact hkeeps.expiry r' hr' hkey'
    · exact (hexpiry r hr (hkey.trans hkey'.symm)).symm.trans (hkeeps.expiry r hr hkey)
  · obtain rfl := Option.some.inj hc
    refine ⟨⟨⟨_, List.mem_append_right _ List.mem_cons_self, rfl⟩, fun r hr hkey => ?_, hkept,
      hlater⟩, hstorable.separable, .inl hstorable.blocks_ne⟩
    rcases hnew hr with hr | rfl
    · exact hexpiry r hr hkey
    · rfl
  · rcases hnew hr with hr | rfl
    · exact (h.rows r hr).imp_left fun hclaims => .inl (hclaims.mem_of_not_placed hcall hstage)
    · exact .inl (.inr ⟨_, rfl, rfl, rfl⟩)

/-- The key of the bundle is taken: nothing is inserted, and the call claims what is there. -/
theorem taken (h : y.Agrees l) {call : StoreCall} (hcall : y.call = some call)
    (hstage : call.stage.placed = false)
    (hrow : ∃ r ∈ y.storage.database.bundles, r.toRowKey = call.entry.id.rowKey)
    (hkept : ∀ i, y.Removes i → i.rowKey ≠ call.entry.id.rowKey)
    (hexpiry : ∀ r ∈ y.storage.database.bundles, r.toRowKey = call.entry.id.rowKey →
      r.expiretime = call.entry.expiry)
    (hlater : ∀ t, y.worker.expiring? = some t → t < call.entry.expiry)
    (htimely : Timely (y.calling (some { call with stage := .commit false }) y.storage)) :
    Agrees (y.calling (some { call with stage := .commit false }) y.storage) l := by
  have hkeeps : y.Keeps call.entry := ⟨hrow, hexpiry, hkept, hlater⟩
  obtain ⟨r, hr, hkey⟩ := hrow
  -- The row is that of a bundle in the ledger, which has blocks.
  have hblock : y.HasBlock call.entry := by
    have hclaims := (h.rows r hr).resolve_right (hkeeps.not_doomed h.timely hr hkey)
    obtain ⟨e, he, hekey⟩ := hclaims.mem_of_not_placed hcall hstage
    obtain ⟨b, hb, hbkey⟩ := (h.entries e he).2
    exact ⟨b, hb, hbkey.trans (hekey.trans hkey)⟩
  refine h.of_resembles (.of_call _ rfl rfl rfl) htimely h.entries h.visible (fun c hc _ => ?_)
    fun r' _ hclaims => .inl (hclaims.mem_of_not_placed hcall hstage)
  obtain rfl := Option.some.inj hc
  exact ⟨hkeeps, fun _ hb => absurd hb List.not_mem_nil, .inr hblock⟩

/-- The row of a block is inserted, and its file written. -/
theorem insertBlock (h : y.Agrees l) {call : StoreCall} {number : ℕ} {block : Block}
    {rest : List Block} (hcall : y.call = some call)
    (hstage : call.stage = .blocks number (block :: rest))
    (hworks : BlockEnv.Works (call.env.block number) call.bundle.toBundleID.rowKey
      y.storage.database)
    (htext : ∀ path, (call.env.block number).Names path → columnText path = path)
    {s' : SQLiteBundleStorage}
    (hstore : storeBlock call.bundle.toBundleID.rowKey number block (call.env.block number)
      y.storage = (.ok (), s'))
    (htimely : Timely (y.calling (some { call with stage := .blocks (number + 1) rest }) s')) :
    Agrees (y.calling (some { call with stage := .blocks (number + 1) rest }) s') l := by
  obtain ⟨row, files', hblock, hrow, hother⟩ := storeBlock_works number block y.storage
    hworks.tmpfile hworks.unbroken hworks.faultless hworks.key
  obtain rfl : y.storage.withBlocks (y.storage.database.blocks ++ [row]) files' = s' :=
    (Prod.mk.inj (hblock.symm.trans hstore)).2
  have hprogresses := h.call call hcall (by rw [hstage]; rfl)
  have hrowtext : columnText row.filename = row.filename := htext _ hrow.named
  have hfresh {b : BlockRow} (hb : b ∈ y.storage.database.blocks) :
      ¬ (call.env.block number).Names (columnText b.filename) := fun hname =>
    hworks.fresh _ hname b hb rfl
  refine ⟨htimely, fun b hb => ?_, fun b hb => ?_, ?_, fun e he => ?_, h.visible,
    fun c hc _ => ?_, fun r hr => ?_⟩
  · rcases List.mem_append.1 hb with hb | hb
    · exact h.owned b hb
    · obtain ⟨r, hr, hkey⟩ := hprogresses.row
      rw [List.mem_singleton.1 hb]
      exact ⟨r, hr, hkey.trans hrow.key.symm⟩
  · rcases List.mem_append.1 hb with hb | hb
    · exact (h.loadable b hb).imp_right fun hloadable =>
        hloadable.of_content (hother _ (hfresh hb))
    · rw [List.mem_singleton.1 hb]
      refine .inr (hrow.loadable (hprogresses.separable block ?_) hrowtext)
      rw [hstage]
      exact List.mem_cons_self
  · refine List.pairwise_append.2 ⟨h.names, List.pairwise_singleton _ _, fun b hb b' hb' heq => ?_⟩
    rw [List.mem_singleton.1 hb', hrowtext] at heq
    exact hworks.fresh _ hrow.named b hb heq
  · obtain ⟨hkeeps, b, hb, hkey⟩ := h.entries e he
    exact ⟨⟨hkeeps.row, hkeeps.expiry, hkeeps.kept, hkeeps.later⟩,
      b, List.mem_append_left _ hb, hkey⟩
  · obtain rfl := Option.some.inj hc
    refine ⟨⟨hprogresses.row, hprogresses.expiry, hprogresses.kept, hprogresses.later⟩,
      fun x hx => hprogresses.separable x ?_,
      .inr ⟨row, List.mem_append_right _ List.mem_cons_self, hrow.key⟩⟩
    rw [hstage]
    exact List.mem_cons_of_mem _ hx
  · refine (h.rows r hr).imp_left fun hclaims => hclaims.imp_right ?_
    rintro ⟨c, hc, -, hkey⟩
    obtain rfl := Option.some.inj (hcall.symm.trans hc)
    exact ⟨_, rfl, rfl, hkey⟩

/-- The call returns, and its bundle is entered. -/
theorem finish (h : y.Agrees l) {call : StoreCall} (hcall : y.call = some call)
    (hstage : call.stage = .custodian)
    (hmarks : ∀ m ∈ y.storage.deletionList, call.entry.id.Comparable m)
    (htimely : Timely
      (y.calling none (updateCustodian call.clock call.node call.bundle y.storage))) :
    Agrees (y.calling none (updateCustodian call.clock call.node call.bundle y.storage))
      (call.entry :: l) := by
  have hprogresses := h.call call hcall (by rw [hstage]; rfl)
  have hblock : y.HasBlock call.entry := hprogresses.block.resolve_left (by simp [hstage,
    StoreStage.rest])
  rw [updateCustodian_eq] at htimely ⊢
  have hsame : y.Resembles (y.calling none (y.storage.execute fun db => { db with
      bundles := db.bundles.map fun r =>
        { r with custodian := custodianFor call.clock call.node call.bundle r } })) := by
    refine ⟨fun r hr => ⟨_, List.mem_map_of_mem hr, rfl, rfl⟩, fun r' hr' => ?_, rfl, rfl,
      fun _ => Iff.rfl, rfl, rfl, fun _ => Iff.rfl⟩
    obtain ⟨r, hr, rfl⟩ := List.mem_map.1 hr'
    exact ⟨r, hr, rfl, rfl⟩
  refine h.of_resembles hsame htimely (fun e he => ?_) (fun e he m hm => ?_)
    (fun c hc => absurd hc (by simp)) fun r _ hclaims => .inl ?_
  · rcases List.mem_cons.1 he with rfl | he
    · exact ⟨hprogresses.toKeeps, hblock⟩
    · exact h.entries e he
  · rcases List.mem_cons.1 he with rfl | he
    · exact hmarks m hm
    · exact h.visible e he m hm
  · rcases hclaims with ⟨e, he, hkey⟩ | ⟨c, hc, -, hkey⟩
    · exact ⟨e, List.mem_cons_of_mem _ he, hkey⟩
    · obtain rfl := Option.some.inj (hcall.symm.trans hc)
      exact ⟨_, List.mem_cons_self, hkey⟩

/-- **A step of a store keeps the agreement.** -/
theorem storing (h : y.Agrees l) {call : StoreCall} (hcall : y.call = some call)
    (hmeets : y.StoreMeets call) (hordered : y.StoreOrdered call)
    (htimely : Timely (y.calling (storeStep call y.storage).1 (storeStep call y.storage).2)) :
    Agrees (y.calling (storeStep call y.storage).1 (storeStep call y.storage).2)
      (y.record l .storing) := by
  rw [storeStep] at htimely ⊢
  rw [StoreMeets] at hmeets
  rw [StoreOrdered] at hordered
  rw [record, hcall]
  dsimp only at htimely ⊢
  cases hstage : call.stage with
  | begin =>
      rw [hstage] at htimely
      exact h.of_call hcall (Session.begin_current _) rfl rfl rfl htimely rfl
        (by rw [hstage]; rfl) (.inr rfl)
  | row =>
      rw [hstage] at hordered htimely
      have hplaced : call.stage.placed = false := by rw [hstage]; rfl
      cases herror : call.env.rowError with
      | some message =>
          rw [herror] at htimely
          exact h.of_call hcall rfl rfl rfl rfl htimely rfl (by rw [hstage]; rfl) (.inr rfl)
      | none =>
          obtain ⟨hkept, hexpiry, hlater, hstorable⟩ := hordered herror
          rw [herror] at htimely
          dsimp only at htimely ⊢
          cases hdb : y.storage.database.bundleStore (.ofBundle call.clock call.bundle) with
          | none =>
              rw [hdb] at htimely
              exact h.taken hcall hplaced (Database.bundleStore_eq_none_iff.1 hdb).2 hkept hexpiry
                hlater htimely
          | some db =>
              rw [hdb] at htimely
              refine h.insert hcall hplaced hdb hkept hexpiry hlater (hstorable fun htaken => ?_)
                htimely
              have hnone : y.storage.database.bundleStore (.ofBundle call.clock call.bundle) =
                  none := by
                refine Database.bundleStore_eq_none_iff.2 ⟨?_, htaken.2⟩
                exact (fragmentoffset_rowKey call.bundle).trans_ne
                  (by rw [if_pos htaken.1]; exact Option.some_ne_none _)
              rw [hnone] at hdb
              exact absurd hdb (by simp)
  | rollback =>
      rw [hstage] at hmeets htimely
      have hdatabase : y.storage.session.rollback.current = y.storage.database := by
        rw [Session.rollback]
        cases hsaved : y.storage.session.saved with
        | none => rfl
        | some db => exact hmeets db hsaved
      exact h.of_resembles (.of_call _ hdatabase rfl rfl) htimely h.entries h.visible
        (fun c hc => absurd hc (by simp)) fun r _ hclaims =>
          .inl (hclaims.mem_of_not_placed hcall (by rw [hstage]; rfl))
  | blocks number rest =>
      rw [hstage] at hmeets hordered htimely
      cases rest with
      | nil =>
          exact h.of_call hcall rfl rfl rfl rfl htimely rfl (by rw [hstage]; rfl)
            (.inl (by rw [hstage]; rfl))
      | cons block rest =>
          obtain ⟨row, files', hblock, -⟩ := storeBlock_works number block y.storage
            hmeets.1.tmpfile hmeets.1.unbroken hmeets.1.faultless hmeets.1.key
          dsimp only at htimely ⊢
          rw [hblock] at htimely ⊢
          exact h.insertBlock hcall hstage hmeets.1 hordered hblock htimely
  | commit inserted =>
      rw [hstage] at htimely
      exact h.of_call hcall rfl rfl rfl rfl htimely rfl (by rw [hstage]; rfl)
        (.inl (by rw [hstage]; rfl))
  | time inserted =>
      rw [hstage] at htimely
      have hsame : newExpireTime call.bundle.storedExpiry y.storage = { y.storage with
          nextExpiration := earlier y.storage.nextExpiration call.bundle.storedExpiry } :=
        newExpireTime_eq _ _
      exact h.of_call hcall (by rw [hsame]; rfl) (by rw [hsame]) (by rw [hsame]) (by rw [hsame])
        htimely rfl (by rw [hstage]; rfl) (.inl (by rw [hstage]; rfl))
  | custodian =>
      rw [hstage] at hordered htimely
      exact h.finish hcall hstage hordered htimely

/-! ### Removals and ticks -/

/-- A removal marks an identifier, and strikes out the entries with its key. -/
theorem remove (h : y.Agrees l) {i : BundleID} (hordered : y.Ordered l (.remove i))
    (htimely : (y.marking i).Timely) :
    (y.marking i).Agrees (l.filter fun e => decide (e.id.rowKey ≠ i.rowKey)) := by
  obtain ⟨hcomparable, hapart⟩ := hordered
  have hremoves {j : BundleID} (hj : (y.marking i).Removes j) : j = i ∨ y.Removes j := by
    rcases hj with hj | hj | hj
    · exact .inr (.inl hj)
    · exact (List.mem_cons.1 hj).imp_right fun hj => .inr (.inl hj)
    · exact .inr (.inr (.inr hj))
  have hkeeps {e : Entry} (he : y.Keeps e) (hne : i.rowKey ≠ e.id.rowKey) :
      (y.marking i).Keeps e := by
    refine ⟨he.row, he.expiry, fun j hj => ?_, he.later⟩
    rcases hremoves hj with rfl | hj
    · exact hne
    · exact he.kept j hj
  refine ⟨htimely, h.owned, h.loadable, h.names, fun e he => ?_, fun e he m hm => ?_,
    fun call hc hplaced => ?_, fun r hr => ?_⟩
  · obtain ⟨hmem, hne⟩ := List.mem_filter.1 he
    exact ⟨hkeeps (h.entries e hmem).1 (of_decide_eq_true hne).symm, (h.entries e hmem).2⟩
  · obtain ⟨hmem, hne⟩ := List.mem_filter.1 he
    rcases OrderedSet.mem_of_mem_insert hm with rfl | hm
    · exact (hcomparable e hmem).resolve_left (of_decide_eq_true hne)
    · exact h.visible e hmem m hm
  · have hprogresses := h.call call hc hplaced
    exact ⟨hkeeps hprogresses.toKeeps (hapart call hc hplaced), hprogresses.separable,
      hprogresses.block⟩
  · by_cases hkey : i.rowKey = r.toRowKey
    · exact .inr (.inl ⟨i, .inr (.inl List.mem_cons_self), hkey⟩)
    · refine (h.rows r hr).imp (fun hclaims => hclaims.imp_left ?_) fun hdoomed =>
        hdoomed.imp_left ?_
      · rintro ⟨e, he, hekey⟩
        exact ⟨e, List.mem_filter.2 ⟨he, decide_eq_true fun heq => hkey (heq ▸ hekey)⟩, hekey⟩
      · rintro ⟨j, hj, hjkey⟩
        exact ⟨j, hj.imp_right (Or.imp_left (List.mem_cons_of_mem i)), hjkey⟩

/-- The task of a removal is queued. -/
theorem removing (h : y.Agrees l) {i : BundleID} (hi : i ∈ y.removing)
    (htimely : Timely { y with
      removing := y.removing.erase i
      storage := { y.storage with tasks := y.storage.tasks ++ [.remove i] } }) :
    Agrees { y with
      removing := y.removing.erase i
      storage := { y.storage with tasks := y.storage.tasks ++ [.remove i] } } l := by
  refine h.of_same (.of_eq rfl rfl (fun j => ?_) rfl rfl fun _ => Iff.rfl) htimely
    (fun m hm => hm) rfl
  change (.remove j ∈ y.storage.tasks ++ [.remove i] ∨ j ∈ y.removing.erase i ∨ _) ↔ _
  constructor
  · rintro (hj | hj | hj)
    · rcases List.mem_append.1 hj with hj | hj
      · exact .inl hj
      · obtain rfl : j = i := by simpa using hj
        exact .inr (.inl hi)
    · exact .inr (.inl (List.mem_of_mem_erase hj))
    · exact .inr (.inr hj)
  · rintro (hj | hj | hj)
    · exact .inl (List.mem_append_left _ hj)
    · by_cases hji : j = i
      · exact .inl (List.mem_append_right _ (by simp [hji]))
      · exact .inr (.inl ((List.mem_erase_of_ne hji).2 hj))
    · exact .inr (.inr hj)

/-- A tick of the clock is reported. -/
theorem tick (h : y.Agrees l) (timestamp : UInt64)
    (htimely : Timely { y with storage := y.storage.tick timestamp }) :
    Agrees { y with storage := y.storage.tick timestamp } l := by
  refine h.of_same (.of_eq rfl rfl (fun j => ?_) rfl rfl fun _ => Iff.rfl) htimely
    (fun m hm => hm) rfl
  rw [Removes, Removes]
  simp [SQLiteBundleStorage.tick]

/-! ### Steps of the worker -/

/-- Files are removed, whose rows will be deleted. -/
theorem removeFiles (h : y.Agrees l) {w : WorkerStage} {names : List Bytes}
    (hcleared : ∀ b, ¬ y.Cleared b)
    (hexpiring : w.expiring? = y.worker.expiring?) (hremoving : w.removal? = y.worker.removal?)
    (hnames : ∀ name ∈ names, ∃ b ∈ y.storage.database.blocks, b.filename = name ∧
      Cleared { y with worker := w } b)
    (htimely : Timely (y.working w (y.storage.removeFiles names))) :
    Agrees (y.working w (y.storage.removeFiles names)) l := by
  have hremoves (i : BundleID) :
      Removes (y.working w (y.storage.removeFiles names)) i ↔ y.Removes i := by
    rw [Removes, Removes]
    dsimp only
    rw [hremoving]
    rfl
  have hkeeps {e : Entry} (he : y.Keeps e) :
      Keeps (y.working w (y.storage.removeFiles names)) e :=
    ⟨he.row, he.expiry, fun i hi => he.kept i ((hremoves i).1 hi),
      fun t ht => he.later t (hexpiring ▸ ht)⟩
  refine ⟨htimely, h.owned, fun b hb => ?_, h.names,
    fun e he => ⟨hkeeps (h.entries e he).1, (h.entries e he).2⟩, h.visible,
    fun call hc hplaced => ?_, fun r hr => ?_⟩
  · by_cases hdue : Cleared { y with worker := w } b
    · exact .inl hdue
    · refine .inr (((h.loadable b hb).resolve_left (hcleared b)).of_content ?_)
      change Directory.content? _ (Directory.removeAll (names.map columnText) y.storage.files) = _
      rw [Directory.content?_removeAll, if_neg]
      intro hmem
      obtain ⟨name, hname, htext⟩ := List.mem_map.1 hmem
      obtain ⟨b', hb', rfl, hdue'⟩ := hnames name hname
      have hne : b' ≠ b := by
        rintro rfl
        exact hdue hdue'
      have hsymm : Std.Symm fun a b : BlockRow => columnText a.filename ≠ columnText b.filename :=
        ⟨fun _ _ h => h.symm⟩
      exact h.names.forall hb' hb hne htext
  · have hprogresses := h.call call hc hplaced
    exact ⟨hkeeps hprogresses.toKeeps, hprogresses.separable, hprogresses.block⟩
  · refine (h.rows r hr).imp_right ?_
    rintro (⟨i, hi, hkey⟩ | ⟨t, ht, hdue⟩)
    · exact .inl ⟨i, (hremoves i).2 hi, hkey⟩
    · exact .inr ⟨t, hexpiring ▸ ht, hdue⟩

/-- Rows are deleted, and with them those of their blocks. -/
theorem delete (h : y.Agrees l) {w : WorkerStage} {p : BundleRow → Bool}
    (hexpiring : w.expiring? = none) (hremoving : w.removal? = none)
    (hdone : ∀ r ∈ y.storage.database.bundles, p r = true ↔
      (∃ i, y.worker.removal? = some i ∧ i.rowKey = r.toRowKey) ∨
        ∃ t, y.worker.expiring? = some t ∧ r.expired t = true)
    (htimely : Timely (y.working w (y.storage.execute (Database.delete p)))) :
    Agrees (y.working w (y.storage.execute (Database.delete p))) l := by
  have hdoomed {r : BundleRow} (hr : r ∈ y.storage.database.bundles) (hp : p r = true) :
      y.Doomed r := ((hdone r hr).1 hp).imp_left fun ⟨i, hi, hkey⟩ => ⟨i, .inr (.inr hi), hkey⟩
  have hremoves {i : BundleID}
      (hi : Removes (y.working w (y.storage.execute (Database.delete p))) i) :
      .remove i ∈ y.storage.tasks ∨ i ∈ y.removing := by
    rcases hi with hi | hi | hi
    · exact .inl hi
    · exact .inr hi
    · exact absurd (hremoving.symm.trans hi) (by simp)
  have hspared {e : Entry} (he : y.Keeps e) {r : BundleRow} (hr : r ∈ y.storage.database.bundles)
      (hkey : r.toRowKey = e.id.rowKey) : p r = false :=
    Bool.eq_false_iff.2 fun hp => he.not_doomed h.timely hr hkey (hdoomed hr hp)
  have hkeeps {e : Entry} (he : y.Keeps e) :
      Keeps (y.working w (y.storage.execute (Database.delete p))) e := by
    refine ⟨?_, fun r hr => he.expiry r (Database.mem_bundles_delete.1 hr).1, fun i hi => ?_,
      fun t ht => absurd (hexpiring.symm.trans ht) (by simp)⟩
    · obtain ⟨r, hr, hkey⟩ := he.row
      exact ⟨r, Database.mem_bundles_delete.2 ⟨hr, hspared he hr hkey⟩, hkey⟩
    · rcases hremoves hi with hi | hi
      · exact he.kept i (.inl hi)
      · exact he.kept i (.inr (.inl hi))
  have hblocks {e : Entry} (he : y.Keeps e) (hb : y.HasBlock e) :
      HasBlock (y.working w (y.storage.execute (Database.delete p))) e := by
    obtain ⟨b, hb, hkey⟩ := hb
    refine ⟨b, Database.mem_blocks_delete.2 ⟨hb, fun r hr hp heq => ?_⟩, hkey⟩
    have hfalse := hspared he hr (heq.trans hkey)
    rw [hp] at hfalse
    exact Bool.noConfusion hfalse
  refine ⟨htimely, fun b hb => ?_, fun b hb => ?_, h.names.sublist List.filter_sublist,
    fun e he => ⟨hkeeps (h.entries e he).1, hblocks (h.entries e he).1 (h.entries e he).2⟩,
    h.visible, fun call hc hplaced => ?_, fun r hr => ?_⟩
  · obtain ⟨hb, hspare⟩ := Database.mem_blocks_delete.1 hb
    obtain ⟨r, hr, hkey⟩ := h.owned b hb
    refine ⟨r, Database.mem_bundles_delete.2 ⟨hr, ?_⟩, hkey⟩
    exact Bool.eq_false_iff.2 fun hp => hspare r hr hp hkey
  · obtain ⟨hb, hspare⟩ := Database.mem_blocks_delete.1 hb
    refine .inr ((h.loadable b hb).resolve_left ?_)
    -- The rows whose files are gone are deleted now.
    rintro (⟨i, hw, hkey⟩ | ⟨t, ht, r, hr, hdue, hkey⟩)
    · obtain ⟨r, hr, hrkey⟩ := h.owned b hb
      refine hspare r hr ((hdone r hr).2 (.inl ⟨i, ?_, hkey.trans hrkey.symm⟩)) hrkey
      rw [hw]
      rfl
    · have hexpires := WorkerStage.expiring?_of_clearing? ht
      exact hspare r hr ((hdone r hr).2 (.inr ⟨t, hexpires, hdue⟩)) hkey
  · have hprogresses := h.call call hc hplaced
    exact ⟨hkeeps hprogresses.toKeeps, hprogresses.separable,
      hprogresses.block.imp_right (hblocks hprogresses.toKeeps)⟩
  · obtain ⟨hr, hp⟩ := Database.mem_bundles_delete.1 hr
    refine (h.rows r hr).imp_right fun hdoomed => .inl ?_
    rcases hdoomed with ⟨i, hi | hi | hi, hkey⟩ | hdue
    · exact ⟨i, .inl hi, hkey⟩
    · exact ⟨i, .inr (.inl hi), hkey⟩
    · rw [(hdone r hr).2 (.inl ⟨i, hi, hkey⟩)] at hp
      exact Bool.noConfusion hp
    · rw [(hdone r hr).2 (.inr hdue)] at hp
      exact Bool.noConfusion hp

/-- The task of a tick begins: what has expired is struck out, and if it is to be deleted, no task
was at work before. -/
theorem expireCheck (h : y.Agrees l) {timestamp : UInt64} {w : WorkerStage}
    (hworker : y.worker = .expireCheck timestamp) (hmeets : y.Meets .work)
    (hordered : y.Ordered l .work) (hstep : workerStep y.worker y.storage = (w, y.storage))
    (hnext : w = .idle ∨ w = .expireFiles timestamp)
    (htimely : Timely { y with worker := w }) :
    Agrees { y with worker := w } (l.filter fun e => decide (timestamp < e.expiry)) := by
  have hnone : y.worker.expiring? = none ∧ y.worker.removal? = none ∧
      y.worker.clearing? = none := by
    rw [hworker]
    exact ⟨rfl, rfl, rfl⟩
  have hremoving : w.removal? = none := by rcases hnext with rfl | rfl <;> rfl
  have hlater {t : UInt64} (ht : w.expiring? = some t) : t = timestamp := by
    rcases hnext with rfl | rfl
    · exact absurd ht (by simp [WorkerStage.expiring?])
    · exact (Option.some.inj ht).symm
  have hremoves (i : BundleID) : Removes { y with worker := w } i ↔ y.Removes i := by
    rw [Removes, Removes]
    dsimp only
    rw [hremoving, hnone.2.1]
  have hkeeps {e : Entry} (he : y.Keeps e) (hlt : timestamp < e.expiry) :
      Keeps { y with worker := w } e :=
    ⟨he.row, he.expiry, fun i hi => he.kept i ((hremoves i).1 hi), fun t ht => hlater ht ▸ hlt⟩
  refine ⟨htimely, h.owned, fun b hb => ?_, h.names, fun e he => ?_, fun e he => ?_,
    fun call hc hplaced => ?_, fun r hr => ?_⟩
  · refine .inr ((h.loadable b hb).resolve_left ?_)
    rintro (⟨i, hw, -⟩ | ⟨t, ht, -⟩)
    · rw [hworker] at hw
      cases hw
    · exact absurd (hnone.2.2.symm.trans ht) (by simp)
  · obtain ⟨hmem, hlt⟩ := List.mem_filter.1 he
    exact ⟨hkeeps (h.entries e hmem).1 (of_decide_eq_true hlt), (h.entries e hmem).2⟩
  · exact h.visible e (List.mem_filter.1 he).1
  · have hprogresses := h.call call hc hplaced
    exact ⟨hkeeps hprogresses.toKeeps (hordered timestamp hworker call hc hplaced),
      hprogresses.separable, hprogresses.block⟩
  · rcases h.rows r hr with (⟨e, he, hkey⟩ | hcall) | ⟨i, hi, hkey⟩ | ⟨t, ht, -⟩
    · by_cases hlt : timestamp < e.expiry
      · exact .inl (.inl ⟨e, List.mem_filter.2 ⟨he, decide_eq_true hlt⟩, hkey⟩)
      · have hdue : r.expiretime ≤ timestamp := by
          rw [(h.entries e he).1.expiry r hr hkey.symm]
          exact UInt64.not_lt.1 hlt
        rcases hnext with rfl | rfl
        · -- The task does nothing only if nothing is due.
          have hidle : (workerStep y.worker y.storage).1 = .idle := by rw [hstep]
          have hnot := (h.timely.expiresAll hmeets).check timestamp hworker hidle r hr
          exact absurd hdue (UInt64.not_le.2 hnot)
        · refine .inr (.inr ⟨timestamp, rfl, ?_⟩)
          exact (h.timely.expired_iff (by rw [hworker]; rfl) hr).2 hdue
    · exact .inl (.inr hcall)
    · exact .inr (.inl ⟨i, (hremoves i).2 hi, hkey⟩)
    · exact absurd (hnone.1.symm.trans ht) (by simp)

/-- A step of the worker that changes neither the tables nor the files, nor what is about to be
deleted. -/
theorem of_worker (h : y.Agrees l) {w w' : WorkerStage} {s : SQLiteBundleStorage}
    (hw : y.worker = w) (hdatabase : s.database = y.storage.database)
    (hfiles : s.files = y.storage.files)
    (hremoves : ∀ i, (.remove i ∈ s.tasks ∨ w'.removal? = some i) ↔
      (.remove i ∈ y.storage.tasks ∨ w.removal? = some i))
    (hexpiring : w'.expiring? = w.expiring?) (hclearing : w'.clearing? = w.clearing?)
    (hremoveRows : ∀ i, w' = .removeRows i ↔ w = .removeRows i)
    (hmarks : ∀ m ∈ s.deletionList, m ∈ y.storage.deletionList)
    (htimely : Timely (y.working w' s)) : Agrees (y.working w' s) l := by
  subst hw
  exact h.of_same (.of_eq hdatabase hfiles (fun i => or_left_comm.trans
    ((or_congr_right (hremoves i)).trans or_left_comm)) hexpiring hclearing hremoveRows) htimely
      hmarks rfl

/-- **A step of the worker keeps the agreement.** -/
theorem work (h : y.Agrees l) (hmeets : y.Meets .work) (hordered : y.Ordered l .work)
    (htimely : Timely
      (y.working (workerStep y.worker y.storage).1 (workerStep y.worker y.storage).2)) :
    Agrees (y.working (workerStep y.worker y.storage).1 (workerStep y.worker y.storage).2)
      (y.record l .work) := by
  have hkept {m : BundleID} (hm : m ∈ y.storage.deletionList) : m ∈ y.storage.deletionList := hm
  rw [record]
  cases hw : y.worker with
  | idle =>
      rw [hw, workerStep] at htimely
      rw [workerStep]
      cases htasks : y.storage.tasks with
      | nil =>
          rw [htasks] at htimely
          exact h.of_worker hw rfl rfl (fun _ => Iff.rfl) rfl rfl (fun _ => Iff.rfl)
            (fun _ => hkept) htimely
      | cons task tasks =>
          rw [htasks] at htimely
          cases task with
          | remove i =>
              refine h.of_worker hw rfl rfl (fun j => ?_) rfl rfl (fun j => by simp)
                (fun _ => hkept) htimely
              rw [htasks]
              simp [WorkerStage.removal?, eq_comm, or_comm]
          | expire timestamp =>
              refine h.of_worker hw rfl rfl (fun j => ?_) rfl rfl (fun j => by simp)
                (fun _ => hkept) htimely
              rw [htasks]
              simp [WorkerStage.removal?]
  | removeFiles i =>
      rw [hw] at htimely
      refine h.removeFiles (fun b => ?_) (by rw [hw]; rfl) (by rw [hw]; rfl) (fun name hname => ?_)
        htimely
      · rintro (⟨j, hj, -⟩ | ⟨t, ht, -⟩)
        · rw [hw] at hj
          cases hj
        · rw [hw] at ht
          exact absurd ht (by simp [WorkerStage.clearing?])
      · obtain ⟨b, hb, rfl⟩ := List.mem_map.1 hname
        obtain ⟨hb, hkey⟩ := Database.mem_blockGetId.1 hb
        exact ⟨b, hb, rfl, .inl ⟨i, rfl, hkey.symm⟩⟩
  | removeRows i =>
      rw [hw] at htimely
      refine h.delete rfl rfl (fun r _ => ?_) htimely
      rw [hw]
      simp only [decide_eq_true_eq, WorkerStage.removal?, WorkerStage.expiring?,
        Option.some.injEq, exists_eq_left', reduceCtorEq, false_and, exists_false, or_false]
      exact eq_comm
  | expireCheck timestamp =>
      rw [hw] at htimely
      dsimp only
      by_cases hskip : y.storage.skipsExpiry timestamp = true
      · have hstep : workerStep (.expireCheck timestamp) y.storage = (.idle, y.storage) :=
          if_pos hskip
        rw [hstep] at htimely ⊢
        exact h.expireCheck hw hmeets hordered (hw ▸ hstep) (.inl rfl) htimely
      · have hstep : workerStep (.expireCheck timestamp) y.storage =
            (.expireFiles timestamp, y.storage) := if_neg hskip
        rw [hstep] at htimely ⊢
        exact h.expireCheck hw hmeets hordered (hw ▸ hstep) (.inr rfl) htimely
  | expireFiles timestamp =>
      rw [hw] at htimely
      refine h.removeFiles (fun b => ?_) (by rw [hw]; rfl) (by rw [hw]; rfl) (fun name hname => ?_)
        htimely
      · rintro (⟨j, hj, -⟩ | ⟨t, ht, -⟩)
        · rw [hw] at hj
          cases hj
        · rw [hw] at ht
          exact absurd ht (by simp [WorkerStage.clearing?])
      · obtain ⟨r, hr, hdue, b, hb, hkey, rfl⟩ := Database.mem_expireBundleFilenames.1 hname
        exact ⟨b, hb, rfl, .inr ⟨timestamp, rfl, r, hr, hdue, hkey⟩⟩
  | expireEvents timestamp =>
      rw [hw] at htimely
      exact h.of_worker hw rfl rfl (fun _ => Iff.rfl) rfl rfl (fun _ => by simp [workerStep])
        (fun _ => hkept) htimely
  | expireRows timestamp events =>
      rw [hw] at htimely
      refine h.delete rfl rfl (fun r _ => ?_) htimely
      rw [hw]
      simp [WorkerStage.removal?, WorkerStage.expiring?]
  | selectTime removed =>
      rw [hw] at htimely
      exact h.of_worker hw rfl rfl (fun _ => Iff.rfl) rfl rfl (fun _ => by simp [workerStep])
        (fun _ => hkept) htimely
  | writeTime time removed =>
      rw [hw] at htimely
      cases removed <;> exact h.of_worker hw rfl rfl (fun _ => Iff.rfl) rfl rfl
        (fun _ => by simp [workerStep]) (fun _ => hkept) htimely
  | removeMark i =>
      rw [hw] at htimely
      exact h.of_worker hw rfl rfl (fun _ => Iff.rfl) rfl rfl (fun _ => by simp [workerStep])
        (fun m hm => OrderedSet.mem_of_mem_erase hm) htimely

/-- **A step that keeps the order keeps the agreement.** -/
theorem step (h : y.Agrees l) {a : Label} (hmeets : y.Meets a) (hordered : y.Ordered l a)
    (hstep : Step y a y') : y'.Agrees (y.record l a) := by
  have htimely := h.timely.step hmeets hstep
  rw [Step] at hstep
  cases a with
  | store c node env b =>
      cases hcall : y.call with
      | some call => simp [System.step, hcall] at hstep
      | none =>
          simp only [System.step, hcall, Option.some.injEq] at hstep
          subst hstep
          refine h.of_resembles (.of_call _ rfl rfl rfl) htimely h.entries h.visible
            (fun call hc hplaced => ?_) fun r _ hclaims => .inl (hclaims.resolve_right ?_)
          · obtain rfl := Option.some.inj hc
            exact absurd hplaced (by simp [StoreStage.placed])
          · rintro ⟨call, hc, -⟩
            exact absurd (hcall.symm.trans hc) (by simp)
  | storing =>
      cases hcall : y.call with
      | none => simp [System.step, hcall] at hstep
      | some call =>
          simp only [System.step, hcall, Option.map_some, Option.some.injEq] at hstep
          subst hstep
          exact h.storing hcall (hmeets call hcall) (hordered call hcall) htimely
  | remove i =>
      simp only [System.step, Option.some.injEq] at hstep
      subst hstep
      exact h.remove hordered htimely
  | removing i =>
      simp only [System.step, Option.ite_none_right_eq_some, Option.some.injEq] at hstep
      obtain ⟨hi, rfl⟩ := hstep
      exact h.removing hi htimely
  | tick timestamp =>
      simp only [System.step, Option.some.injEq] at hstep
      subst hstep
      exact h.tick timestamp htimely
  | work =>
      simp only [System.step, Option.some.injEq] at hstep
      subst hstep
      exact h.work hmeets hordered htimely

end Agrees

/-! ### Runs -/

/-- A step beside the ledger. -/
def stepRecorded (p : System × List Entry) (a : Label) : Option (System × List Entry) :=
  (p.1.step a).map fun y => (y, p.1.record p.2 a)

/-- The steps that neither come between those of the worker nor break the order of the calls. -/
def Orderly (p : System × List Entry) (a : Label) : Prop := p.1.Meets a ∧ p.1.Ordered p.2 a

/-- A run from a new storage, whose steps meet a condition. -/
abbrev RunRecorded (M : System × List Entry → Label → Prop) :
    List Label → System × List Entry → Prop :=
  Transition.Run (fun p a p' => stepRecorded p a = some p') M (create, [])

/-- **Behind every run of orderly steps, the storage keeps the order of calls.** -/
theorem callsKept_run {labels : List Label} {y : System} {l : List Entry}
    (h : RunRecorded Orderly labels (y, l)) : y.CallsKept l := by
  refine Agrees.callsKept <| h.invariant (I := fun p => p.1.Agrees p.2) agrees_create
    fun p a p' hp hmeets hstep => ?_
  obtain ⟨y', hy', rfl⟩ := Option.map_eq_some_iff.1 hstep
  exact hp.step hmeets.1 hmeets.2 hy'

/-- An orderly run goes on with a step of the call in progress. -/
theorem orderly_storing {labels : List Label} {y : System} {l : List Entry} {call : StoreCall}
    (h : RunRecorded Orderly labels (y, l)) (hcall : y.call = some call)
    (hmeets : y.StoreMeets call) (hordered : y.StoreOrdered call) :
    RunRecorded Orderly (labels ++ [.storing])
      (y.calling (storeStep call y.storage).1 (storeStep call y.storage).2,
        y.record l .storing) := by
  have hsame {call' : StoreCall} (hcall' : y.call = some call') : call = call' :=
    Option.some.inj (hcall.symm.trans hcall')
  refine h.snoc ⟨fun call' hcall' => hsame hcall' ▸ hmeets, fun call' hcall' =>
    hsame hcall' ▸ hordered⟩ ?_
  rw [stepRecorded, System.step, hcall]
  rfl

/-- An orderly run goes on with a step of the worker, if no store is in progress or no task. -/
theorem orderly_work {labels : List Label} {y : System} {l : List Entry}
    (h : RunRecorded Orderly labels (y, l)) (hidle : y.call = none ∨ y.worker = .idle) :
    RunRecorded Orderly (labels ++ [.work])
      (y.working (workerStep y.worker y.storage).1 (workerStep y.worker y.storage).2,
        y.record l .work) := by
  have hcall {t : UInt64} (ht : y.worker = .expireCheck t) : y.call = none :=
    hidle.resolve_right fun h => by rw [h] at ht; cases ht
  refine h.snoc ⟨fun t ht _ ttl hpending => ?_, fun t ht call hc => ?_⟩ rfl
  · rw [pending, hcall ht] at hpending
    exact absurd hpending (by simp)
  · exact absurd ((hcall ht).symm.trans hc) (by simp)

/-- Nothing fails while a block of a bundle that is no fragment goes to a file with a new name. -/
theorem sampleBlock_works {name : Bytes} {k : RowKey} {db : Database}
    (hk : k.fragmentoffset = none) (hfresh : ∀ r ∈ db.blocks, columnText r.filename ≠ name) :
    BlockEnv.Works ⟨.ok name, .foreign, none, none⟩ k db := by
  refine ⟨⟨_, rfl⟩, rfl, rfl, fun path hname r hr => ?_, .inl hk⟩
  obtain rfl : name = path :=
    hname.elim (fun h => Except.ok.inj h) fun h => absurd h (by simp)
  exact hfresh r hr

/-- The name of the file of a block stays as it is. -/
theorem sampleBlock_text {name : Bytes} (htext : columnText name = name) {path : Bytes}
    (hname : BlockEnv.Names ⟨.ok name, .foreign, none, none⟩ path) : columnText path = path := by
  obtain rfl : name = path :=
    hname.elim (fun h => Except.ok.inj h) fun h => absurd h (by simp)
  exact htext

/-- Another bundle from the same node. -/
def sampleNext : Bundle := { sampleWhole with sequencenumber := 2 }

/-- Its block goes to a file of its own. -/
def sampleNextEnv : StoreEnv :=
  { sampleEnv with block n := ⟨.ok (ascii ['c'] ++ Decimal.numeral n), .foreign, none, none⟩ }

theorem sampleNext_storable : Storable sampleNext :=
  ⟨sampleWhole_storable.blocks_ne, sampleWhole_storable.separable, sampleWhole_storable.fragment⟩

/-- **Two bundles are stored, and the second one is removed**; a task of a tick begins while it is
stored. -/
theorem callsKept_run_sample :
    ∃ labels y, RunRecorded Orderly labels
        (y, [⟨sampleWhole.toBundleID, sampleWhole.storedExpiry⟩]) ∧
      y.Drained ∧ y.CallsKept [⟨sampleWhole.toBundleID, sampleWhole.storedExpiry⟩] := by
  have hremoves {y : System} (hremoving : y.removing = []) (htasks : y.storage.tasks = [])
      (hworker : y.worker.removal? = none) {i : BundleID} : ¬ y.Removes i := by
    rw [Removes, hremoving, htasks, hworker]
    simp
  -- the first store, which nothing interrupts
  have hcalled : RunRecorded Orderly
      [.store (Clock.showing 100) sampleNode sampleEnv sampleWhole] _ :=
    Transition.Run.nil.snoc ⟨show Regular sampleWhole.storedExpiry by decide, trivial⟩ rfl
  have hrow := orderly_storing (orderly_storing hcalled rfl trivial trivial) rfl
    (fun _ => ⟨nofun, nofun⟩) fun _ => ⟨fun _ hi => absurd hi (hremoves rfl rfl rfl),
      fun _ hr => absurd hr List.not_mem_nil, nofun, fun _ => sampleWhole_storable⟩
  have hblock := orderly_storing hrow rfl
    ⟨sampleBlock_works rfl fun _ hr => absurd hr List.not_mem_nil, nofun⟩
    fun _ => sampleBlock_text (by decide +kernel)
  have htime := orderly_storing (orderly_storing (orderly_storing hblock rfl trivial trivial) rfl
    trivial trivial) rfl nofun trivial
  have hstored := orderly_storing htime rfl trivial fun _ hm => absurd hm List.not_mem_nil
  -- the second store, while a tick is reported
  have hcalled := hstored.snoc
    (i := Label.store (Clock.showing 100) sampleNode sampleNextEnv sampleNext)
    ⟨show Regular sampleNext.storedExpiry by decide, trivial⟩ rfl
  have hbegun := orderly_storing hcalled rfl trivial trivial
  have htick := hbegun.snoc (i := Label.tick 200) ⟨show (200 : UInt64).toNat < 2 ^ 63 by decide,
    trivial⟩ rfl
  have hticked := orderly_work htick (.inr rfl)
  have hrow := orderly_storing hticked rfl
    (fun _ => ⟨nofun, nofun⟩) fun _ => ⟨fun _ hi => absurd hi (hremoves rfl rfl rfl),
      by decide +kernel, nofun, fun _ => sampleNext_storable⟩
  have hblock := orderly_storing hrow rfl
    ⟨sampleBlock_works rfl (by decide +kernel), nofun⟩
    fun _ => sampleBlock_text (by decide +kernel)
  have htime := orderly_storing (orderly_storing (orderly_storing hblock rfl trivial trivial) rfl
    trivial trivial) rfl nofun trivial
  have hstored := orderly_storing htime rfl trivial fun _ hm => absurd hm List.not_mem_nil
  have hchecked := orderly_work hstored (.inl rfl)
  -- the removal
  have hmarked := hchecked.snoc (i := Label.remove sampleNext.toBundleID)
    ⟨trivial, by decide +kernel, nofun⟩ rfl
  have hqueued := hmarked.snoc (i := Label.removing sampleNext.toBundleID) ⟨trivial, trivial⟩ rfl
  have hfiles := orderly_work (orderly_work hqueued (.inl rfl)) (.inl rfl)
  have hrows := orderly_work (orderly_work hfiles (.inl rfl)) (.inl rfl)
  have hrun := orderly_work (orderly_work hrows (.inl rfl)) (.inl rfl)
  have hkept {labels : List Label} {y : System} {l l' : List Entry}
      (h : RunRecorded Orderly labels (y, l)) (hl : l = l') (hdrained : y.Drained) :
      ∃ labels y, RunRecorded Orderly labels (y, l') ∧ y.Drained ∧ y.CallsKept l' :=
    hl ▸ ⟨labels, y, h, hdrained, callsKept_run h⟩
  exact hkept hrun (by decide +kernel) (by decide +kernel)

/-- A fragment of the bundle, with one block. -/
def samplePart : Bundle :=
  { sampleWhole with procflags := PrimaryBlock.fragment, fragmentoffset := 3, appdatalength := 9 }

/-- A storage that cannot fetch what is in the ledger does not keep the order of calls. -/
theorem not_callsKept_of_get {y : System} {l : List Entry} {e : Entry} (he : e ∈ l)
    (hget : (y.storage.get sampleGetEnv e.id).toBool = false) : ¬ y.CallsKept l := by
  intro h
  obtain ⟨b, hb⟩ := (h sampleGetEnv sampleGetEnv_healthy).1 e he
  rw [hb] at hget
  exact Bool.noConfusion hget

/-- Neither does one without tasks that fetches what is not in the ledger. -/
theorem not_callsKept_of_get_gone {y : System} {l : List Entry} {i : BundleID}
    (hdrained : y.Drained) (hcall : y.call.isNone = true)
    (hgone : ∀ e ∈ l, e.id.rowKey ≠ i.rowKey)
    (hget : (y.storage.get sampleGetEnv i).toBool = true) : ¬ y.CallsKept l := by
  intro h
  cases hb : y.storage.get sampleGetEnv i with
  | error err =>
      rw [hb] at hget
      exact Bool.noConfusion hget
  | ok b =>
      rcases (h sampleGetEnv sampleGetEnv_healthy).2 hdrained i b hb with
        ⟨e, he, hkey⟩ | ⟨call, hc, -⟩
      · exact hgone e he hkey
      · rw [hc] at hcall
        exact Bool.noConfusion hcall

/-- A run reaches a state with a property in which the order of calls is not kept. -/
def Breaks (P : System → List Entry → Prop) : Prop :=
  ∃ labels y l, RunRecorded (fun _ _ => True) labels (y, l) ∧ P y l ∧ ¬ y.CallsKept l

/-- A new storage behind some steps, and the ledger. -/
def sampleRun (labels : List Label) : Option (System × List Entry) :=
  labels.foldlM stepRecorded (create, [])

/-- **A bundle that is stored again while its removal is queued is lost.** -/
theorem not_callsKept_storedAgain :
    Breaks fun y _ => y.Drained := by
  have hrun : (sampleRun (sampleStore 'b' sampleWhole ++ [.remove sampleWhole.toBundleID] ++
      sampleStore 'c' sampleWhole ++ .removing sampleWhole.toBundleID ::
        List.replicate 6 .work)).any (fun p => decide (p.1.Drained ∧ p.2 =
          [⟨sampleWhole.toBundleID, sampleWhole.storedExpiry⟩] ∧
            (p.1.storage.get sampleGetEnv sampleWhole.toBundleID).toBool = false)) = true := by
    decide +kernel
  obtain ⟨⟨y, l⟩, hy, hlost⟩ := (Option.any_eq_true _ _).1 hrun
  obtain ⟨hdrained, rfl, hget⟩ := of_decide_eq_true hlost
  exact ⟨_, y, _, Transition.run_of_foldlM hy, hdrained,
    not_callsKept_of_get List.mem_cons_self hget⟩

/-- **The removal of a fragment hides the whole bundle.** -/
theorem not_callsKept_fragment :
    Breaks fun y l => y.call = none ∧
      l = [⟨sampleWhole.toBundleID, sampleWhole.storedExpiry⟩] := by
  have hrun : (sampleRun (sampleStore 'b' sampleWhole ++ sampleStore 'c' samplePart ++
      [.remove samplePart.toBundleID])).any (fun p => decide (p.1.call.isNone = true ∧ p.2 =
        [⟨sampleWhole.toBundleID, sampleWhole.storedExpiry⟩] ∧
          (p.1.storage.get sampleGetEnv sampleWhole.toBundleID).toBool = false)) = true := by
    decide +kernel
  obtain ⟨⟨y, l⟩, hy, hhidden⟩ := (Option.any_eq_true _ _).1 hrun
  obtain ⟨hcall, rfl, hget⟩ := of_decide_eq_true hhidden
  exact ⟨_, y, _, Transition.run_of_foldlM hy, ⟨Option.isNone_iff_eq_none.1 hcall, rfl⟩,
    not_callsKept_of_get List.mem_cons_self hget⟩

/-- **A bundle that is stored between the selection of the next expiry time and the write outlives
its expiry.** -/
theorem not_callsKept_outlived :
    Breaks fun y l => y.Drained ∧ l = [] := by
  have hrun : (sampleRun (sampleRemoval sampleWhole.toBundleID ++ sampleStore 'b' sampleWhole ++
      [.work, .work, .tick 4000, .work, .work])).any (fun p => decide (p.1.Drained ∧
        p.1.call.isNone = true ∧ p.2 = [] ∧
          (p.1.storage.get sampleGetEnv sampleWhole.toBundleID).toBool = true)) = true := by
    decide +kernel
  obtain ⟨⟨y, l⟩, hy, hlate⟩ := (Option.any_eq_true _ _).1 hrun
  obtain ⟨hdrained, hcall, rfl, hget⟩ := of_decide_eq_true hlate
  exact ⟨_, y, _, Transition.run_of_foldlM hy, ⟨hdrained, rfl⟩,
    not_callsKept_of_get_gone hdrained hcall (fun _ h => absurd h List.not_mem_nil) hget⟩

/-- **The order of calls is not kept** by a store while a removal is queued, a removal of a
fragment, and a store inside a task. -/
theorem not_callsKept_sample :
    (Breaks fun y _ => y.Drained) ∧
    (Breaks fun y l => y.call = none ∧
      l = [⟨sampleWhole.toBundleID, sampleWhole.storedExpiry⟩]) ∧
    Breaks fun y l => y.Drained ∧ l = [] :=
  ⟨not_callsKept_storedAgain, not_callsKept_fragment, not_callsKept_outlived⟩

end System

end SQLiteBundleStorage

end IbrDtn
