import IbrDtn.Core.SQLiteBlockFiles

/-!
# The steps of the calls and of the worker

A call of `SQLiteBundleStorage::store` and the tasks of the worker run in different threads, which
meet between any two statements and locked sections.  This file splits the calls and the tasks into
these steps.  A lock is held over the whole of `store`, so at most one of these calls is in
progress, and there is one worker.

## Main definitions

* `SQLiteBundleStorage.StoreCall`, `SQLiteBundleStorage.storeStep` : a call of `store`, and its steps.
* `SQLiteBundleStorage.WorkerStage`, `SQLiteBundleStorage.workerStep` : the steps of the worker.
* `SQLiteBundleStorage.System`, `SQLiteBundleStorage.Label` : all threads, and what may happen next.

## Main results

* `SQLiteBundleStorage.exists_iterate_storeStep` : the steps of a call that nothing interrupts are
  `store`.
* `SQLiteBundleStorage.exists_iterate_workerStep` : the steps of the worker that nothing interrupts
  are a task.
-/

namespace IbrDtn

namespace SQLiteBundleStorage

/-! ### Storing -/

/-- What comes next in a call of `store`. -/
inductive StoreStage where
  | begin
  | row
  | rollback
  | blocks (number : ℕ) (rest : List Block)
  | commit (inserted : Bool)
  | time (inserted : Bool)
  | custodian

/-- A call of `store` in progress. -/
structure StoreCall where
  clock : Clock
  node : LocalNode
  env : StoreEnv
  bundle : Bundle
  stage : StoreStage

/-- The next step of a call of `store`, which may be the last. -/
def storeStep (call : StoreCall) (s : SQLiteBundleStorage) :
    Option StoreCall × SQLiteBundleStorage :=
  let b := call.bundle
  match call.stage with
  | .begin => (some { call with stage := .row }, { s with session := s.session.begin })
  | .row =>
      match call.env.rowError with
      | some _ => (some { call with stage := .rollback }, s)
      | none =>
          match s.database.bundleStore (.ofBundle call.clock b) with
          | none => (some { call with stage := .commit false }, s)
          | some db =>
              (some { call with stage := .blocks 1 b.blocks },
                { s with session := { s.session with current := db } })
  | .rollback => (none, { s with session := s.session.rollback })
  | .blocks _ [] => (some { call with stage := .commit true }, s)
  | .blocks number (block :: rest) =>
      match storeBlock b.toBundleID.rowKey number block (call.env.block number) s with
      | (.error _, s) => (none, s)
      | (.ok _, s) => (some { call with stage := .blocks (number + 1) rest }, s)
  | .commit inserted =>
      (some { call with stage := .time inserted }, { s with session := s.session.commit })
  | .time _ => (some { call with stage := .custodian }, newExpireTime b.storedExpiry s)
  | .custodian => (none, updateCustodian call.clock call.node b s)

/-- The bundle has a row, and the next expiry time does not regard it yet. -/
def StoreCall.pending (call : StoreCall) : Option UInt64 :=
  match call.stage with
  | .blocks .. | .commit true | .time true => some call.bundle.storedExpiry
  | _ => none

/-! ### The worker -/

/-- What comes next in the task of the worker. The next expiry time is selected and then written,
behind a removal and behind a tick; behind a removal, the mark of its identifier is taken away. -/
inductive WorkerStage where
  | idle
  | removeFiles (id : BundleID)
  | removeRows (id : BundleID)
  | expireCheck (timestamp : UInt64)
  | expireFiles (timestamp : UInt64)
  | expireEvents (timestamp : UInt64)
  | expireRows (timestamp : UInt64) (events : List BundleID)
  | selectTime (removed : Option BundleID)
  | writeTime (time : UInt64) (removed : Option BundleID)
  | removeMark (id : BundleID)
deriving DecidableEq

/-- The next step of the worker. -/
def workerStep (w : WorkerStage) (s : SQLiteBundleStorage) : WorkerStage × SQLiteBundleStorage :=
  match w with
  | .idle =>
      match s.tasks with
      | [] => (.idle, s)
      | .remove i :: tasks => (.removeFiles i, { s with tasks })
      | .expire timestamp :: tasks => (.expireCheck timestamp, { s with tasks })
  | .removeFiles i => (.removeRows i, s.removeFiles (s.filenames i.rowKey))
  | .removeRows i => (.selectTime (some i), s.execute fun db => db.bundleDelete i.rowKey)
  | .expireCheck timestamp =>
      if s.skipsExpiry timestamp then (.idle, s) else (.expireFiles timestamp, s)
  | .expireFiles timestamp =>
      (.expireEvents timestamp, s.removeFiles (s.database.expireBundleFilenames timestamp))
  | .expireEvents timestamp => (.expireRows timestamp (s.database.expireBundles timestamp), s)
  | .expireRows timestamp _ =>
      (.selectTime none, s.execute fun db => db.expireBundleDelete timestamp)
  | .selectTime removed => (.writeTime s.nextExpiryTime removed, s)
  | .writeTime time removed =>
      (match removed with | some i => .removeMark i | none => .idle,
        { s with nextExpiration := time })
  | .removeMark i => (.idle, s.removeDeletion i)

/-! ### All threads -/

/-- The storage, the call of `store` in progress, the calls of `remove` between their two locked
sections, and the worker. -/
structure System where
  storage : SQLiteBundleStorage
  call : Option StoreCall
  removing : List BundleID
  worker : WorkerStage

/-- What may happen next: a call begins or goes on, the clock ticks, or the worker goes on. -/
inductive Label where
  | store (c : Clock) (node : LocalNode) (env : StoreEnv) (b : Bundle)
  | storing
  | remove (i : BundleID)
  | removing (i : BundleID)
  | tick (timestamp : UInt64)
  | work

namespace System

/-- A new storage, and nobody uses it. -/
def create : System := ⟨SQLiteBundleStorage.create, none, [], .idle⟩

/-- A step of one thread. -/
def step (y : System) : Label → Option System
  | .store c node env b =>
      match y.call with
      | none => some { y with call := some ⟨c, node, env, b, .begin⟩ }
      | some _ => none
  | .storing =>
      y.call.map fun call =>
        { y with call := (storeStep call y.storage).1, storage := (storeStep call y.storage).2 }
  | .remove i => some { y with storage := y.storage.addDeletion i, removing := i :: y.removing }
  | .removing i =>
      if i ∈ y.removing then
        some { y with
          removing := y.removing.erase i
          storage := { y.storage with tasks := y.storage.tasks ++ [.remove i] } }
      else none
  | .tick timestamp => some { y with storage := y.storage.tick timestamp }
  | .work =>
      some { y with
        worker := (workerStep y.worker y.storage).1
        storage := (workerStep y.worker y.storage).2 }

/-- The expiry time of the row that is not regarded yet. -/
def pending (y : System) : Option UInt64 := y.call.bind StoreCall.pending

end System

/-! ### Undisturbed calls and tasks -/

/-- A step of a call, if it has not returned. -/
def callStep (x : Option StoreCall × SQLiteBundleStorage) : Option StoreCall × SQLiteBundleStorage :=
  match x.1 with
  | none => x
  | some call => storeStep call x.2

/-- **The loop over the blocks**, and the end of the call. -/
theorem exists_iterate_blocks (call : StoreCall) (number : ℕ) (rest : List Block)
    (s : SQLiteBundleStorage) :
    ∃ n, callStep^[n] (some { call with stage := .blocks number rest }, s) =
      match storeBlocks call.bundle.toBundleID.rowKey call.env.block number rest s with
      | (.error _, s) => (none, s)
      | (.ok _, s) => (none, s.finishStore call.clock call.node call.bundle) := by
  induction rest generalizing number s with
  | nil => exact ⟨4, rfl⟩
  | cons block rest ih =>
      rw [storeBlocks]
      rcases hblock : storeBlock call.bundle.toBundleID.rowKey number block
        (call.env.block number) s with ⟨r, s'⟩
      have hstep : callStep (some { call with stage := .blocks number (block :: rest) }, s) =
          match storeBlock call.bundle.toBundleID.rowKey number block (call.env.block number) s with
          | (.error _, s) => (none, s)
          | (.ok _, s) => (some { call with stage := .blocks (number + 1) rest }, s) := rfl
      rw [hblock] at hstep
      cases r with
      | error e => exact ⟨1, hstep⟩
      | ok u =>
          obtain ⟨n, hn⟩ := ih (number + 1) s'
          refine ⟨n + 1, ?_⟩
          rw [Function.iterate_succ_apply, hstep]
          exact hn

/-- **The steps of a call that nothing interrupts are `store`.** -/
theorem exists_iterate_storeStep (s : SQLiteBundleStorage) (c : Clock) (node : LocalNode)
    (env : StoreEnv) (b : Bundle) :
    ∃ n, callStep^[n] (some ⟨c, node, env, b, .begin⟩, s) = (none, (s.store c node env b).2) := by
  have hrow : callStep^[2] (some ⟨c, node, env, b, .begin⟩, s) =
      storeStep ⟨c, node, env, b, .row⟩ { s with session := s.session.begin } := rfl
  rw [store]
  dsimp only
  cases herror : env.rowError with
  | some message =>
      refine ⟨3, ?_⟩
      rw [Function.iterate_succ_apply', hrow, storeStep]
      dsimp only
      rw [herror]
      rfl
  | none =>
      dsimp only
      cases hdb : database { s with session := s.session.begin } |>.bundleStore (.ofBundle c b) with
      | none =>
          refine ⟨3 + 2, ?_⟩
          rw [Function.iterate_add_apply, hrow, storeStep]
          dsimp only
          rw [herror]
          dsimp only
          rw [hdb]
          rfl
      | some db =>
          obtain ⟨n, hn⟩ := exists_iterate_blocks ⟨c, node, env, b, .row⟩ 1 b.blocks
            { s with session := { s.session.begin with current := db } }
          refine ⟨n + 2, ?_⟩
          rw [Function.iterate_add_apply, hrow, storeStep]
          dsimp only
          rw [herror]
          dsimp only
          rw [hdb]
          refine hn.trans ?_
          dsimp only
          generalize storeBlocks _ _ _ _ _ = x
          rcases x with ⟨_ | _, _⟩
          · rfl
          · rfl

/-- **The steps of the worker that nothing interrupts are a task.** -/
theorem exists_iterate_workerStep (s : SQLiteBundleStorage) :
    ∃ n, (fun x => workerStep x.1 x.2)^[n] (.idle, s) = (.idle, s.runTask.2) := by
  cases htasks : s.tasks with
  | nil =>
      refine ⟨0, ?_⟩
      rw [runTask, htasks]
      rfl
  | cons t tasks =>
      rw [runTask, htasks]
      cases t with
      | remove i =>
          have hstart : workerStep .idle s = (.removeFiles i, { s with tasks }) := by
            rw [workerStep, htasks]
          refine ⟨5 + 1, ?_⟩
          rw [Function.iterate_add_apply, Function.iterate_one, hstart]
          rfl
      | expire timestamp =>
          have hstart : workerStep .idle s = (.expireCheck timestamp, { s with tasks }) := by
            rw [workerStep, htasks]
          have hcheck : (fun x => workerStep x.1 x.2)^[1 + 1] (.idle, s) =
              if skipsExpiry { s with tasks } timestamp then (.idle, { s with tasks })
              else (.expireFiles timestamp, { s with tasks }) := by
            rw [Function.iterate_add_apply, Function.iterate_one, hstart]
            rfl
          dsimp only
          rw [runExpire]
          split_ifs with hskip
          · refine ⟨1 + 1, ?_⟩
            rw [hcheck, if_pos hskip]
          · refine ⟨5 + (1 + 1), ?_⟩
            rw [Function.iterate_add_apply, hcheck, if_neg hskip]
            rfl

end SQLiteBundleStorage

end IbrDtn
