import IbrDtn.Core.SQLiteInterleaving
import IbrDtn.Core.SQLiteTransactions
import IbrDtn.Library.Transition

/-!
# Expiry between the steps of other threads

The worker selects the next expiry time in one step and writes it in another, and expires bundles by
three statements.  A store in between is lost for the timer, or its files and events are.  In the
runs in which no store comes between, the timer covers every bundle, and a tick expires all that is
due.

## Main definitions

* `SQLiteBundleStorage.System.TimerCovers`, `SQLiteBundleStorage.System.ExpiresAll` : what the timer
  and the tasks of ticks are for.
* `SQLiteBundleStorage.System.Meets` : the steps that do not come between.
* `SQLiteBundleStorage.System.Timely` : what all these steps keep.

## Main results

* `SQLiteBundleStorage.System.Timely.storing`, `SQLiteBundleStorage.System.Timely.work` : a step of a
  call and of the worker.
* `SQLiteBundleStorage.System.expires_run` : the timer and the tasks, behind every run of such steps.
-/

namespace IbrDtn

namespace SQLiteBundleStorage

/-- The tick whose task is at work. -/
def WorkerStage.tick? : WorkerStage → Option UInt64
  | .expireCheck timestamp | .expireFiles timestamp | .expireEvents timestamp
  | .expireRows timestamp _ => some timestamp
  | _ => none

/-- The tick whose task has removed block files, and not yet the rows. -/
def WorkerStage.clearing? : WorkerStage → Option UInt64
  | .expireEvents timestamp | .expireRows timestamp _ => some timestamp
  | _ => none

/-- `update_expire_time` is in progress. -/
def WorkerStage.updating : WorkerStage → Bool
  | .selectTime _ | .writeTime .. => true
  | _ => false

/-- The bundle that a task removes, until its row is deleted. -/
def WorkerStage.removal? : WorkerStage → Option BundleID
  | .removeFiles i | .removeRows i => some i
  | _ => none

/-- A row is due at its time, whatever else is in it. -/
theorem BundleRow.expired_congr {r r' : BundleRow} (h : r'.expiretime = r.expiretime) (t : UInt64) :
    r'.expired t = r.expired t := by
  rw [BundleRow.expired, BundleRow.expired, h]

/-- The block files of the bundles that have expired are gone. -/
def Cleared (s : SQLiteBundleStorage) (timestamp : UInt64) : Prop :=
  ∀ r ∈ s.database.bundles, r.expired timestamp = true →
    ∀ b ∈ s.database.blocks, b.toRowKey = r.toRowKey → ¬ s.files.Has (columnText b.filename)

namespace System

/-- The removal of a bundle has been asked for, and its rows are not deleted yet. -/
def Removes (y : System) (i : BundleID) : Prop :=
  .remove i ∈ y.storage.tasks ∨ i ∈ y.removing ∨ y.worker.removal? = some i

/-- **The timer covers every bundle**, whenever neither a store nor `update_expire_time` is in
progress: it is zero only without bundles, and not later than the time at which one expires. -/
def TimerCovers (y : System) : Prop :=
  y.call = none → y.worker.updating = false →
    (y.storage.nextExpiration = 0 → y.storage.database.bundles = []) ∧
      ∀ r ∈ y.storage.database.bundles, y.storage.nextExpiration ≤ r.expiretime

/-- **The task of a tick expires all that is due**: if it does nothing, nothing is due; and when it
has deleted rows, none is due any more, the events are those of the rows, one for each, and their
block rows and block files are gone. -/
structure ExpiresAll (y : System) : Prop where
  check : ∀ t, y.worker = .expireCheck t → (workerStep y.worker y.storage).1 = .idle →
    ∀ r ∈ y.storage.database.bundles, t < r.expiretime
  due : ∀ t events, y.worker = .expireRows t events →
    ∀ r ∈ (workerStep y.worker y.storage).2.database.bundles, t < r.expiretime
  events : ∀ t events, y.worker = .expireRows t events →
    events = (y.storage.database.bundles.filter fun r => decide (r.expiretime ≤ t)).map
      BundleRow.bundleID
  blocks : ∀ t events, y.worker = .expireRows t events →
    ∀ r ∈ y.storage.database.bundles,
      r ∉ (workerStep y.worker y.storage).2.database.bundles →
        (∀ b ∈ (workerStep y.worker y.storage).2.database.blocks, b.toRowKey ≠ r.toRowKey) ∧
          ∀ b ∈ y.storage.database.blocks, b.toRowKey = r.toRowKey →
            ¬ (workerStep y.worker y.storage).2.files.Has (columnText b.filename)

/-- The steps of a store that do not come between those of the worker. A row is not inserted between
the statements of a task for which it is due, unless its block files are not looked for yet, and nor
are the rows of its blocks. A transaction is not rolled back when the worker has changed the tables
in it. No exception leaves the loop over the blocks. The next expiry time is not brought up to date
between its selection and a write that is later. -/
def StoreMeets (y : System) (call : StoreCall) : Prop :=
  match call.stage with
  | .row => call.env.rowError = none →
      (∀ t events, y.worker = .expireRows t events → t < call.bundle.storedExpiry) ∧
        ∀ t, y.worker = .expireEvents t → t < call.bundle.storedExpiry ∨
          ∀ b ∈ y.storage.database.blocks, b.toRowKey ≠ call.bundle.toBundleID.rowKey
  | .rollback => ∀ db, y.storage.session.saved = some db → db = y.storage.database
  | .blocks number (_ :: _) =>
      BlockEnv.Works (call.env.block number) call.bundle.toBundleID.rowKey y.storage.database ∧
        ∀ t, y.worker.clearing? = some t → ∀ r ∈ y.storage.database.bundles,
          r.expired t = true → r.toRowKey ≠ call.bundle.toBundleID.rowKey
  | .time true => ∀ time removed, y.worker = .writeTime time removed →
      time ≠ 0 ∧ time ≤ call.bundle.storedExpiry
  | _ => True

/-- The steps of the runs in which nothing is missed: times are regular, the steps of a store do not
come between those of the worker, and a tick is not skipped because a store in progress has a row
that is due but has not brought the next expiry time up to date. -/
def Meets (y : System) : Label → Prop
  | .store _ _ _ b => Regular b.storedExpiry
  | .storing => ∀ call, y.call = some call → y.StoreMeets call
  | .tick timestamp => timestamp.toNat < 2 ^ 63
  | .work => ∀ t, y.worker = .expireCheck t → y.storage.skipsExpiry t = true →
      ∀ ttl, y.pending = some ttl → t < ttl
  | .remove _ | .removing _ => True

/-- A label is a step of the system. -/
def Step (y : System) (a : Label) (y' : System) : Prop := y.step a = some y'

/-- **Everything is timely**: times are regular; the next expiry time, and the one that is to be
written, cover all rows but that of the store in progress; and between the statements of a task for
a tick the files of what is due are gone, and the events are those of the rows. -/
structure Timely (y : System) : Prop where
  regular : ∀ r ∈ y.storage.database.bundles, Regular r.expiretime
  call : ∀ call, y.call = some call → Regular call.bundle.storedExpiry
  ticks : ∀ t, .expire t ∈ y.storage.tasks ∨ y.worker.tick? = some t → t.toNat < 2 ^ 63
  next : ∀ r ∈ y.storage.database.bundles,
    Covered y.storage.nextExpiration r ∨ y.pending = some r.expiretime
  write : ∀ time removed, y.worker = .writeTime time removed →
    ∀ r ∈ y.storage.database.bundles, Covered time r ∨ y.pending = some r.expiretime
  files : ∀ t, y.worker.clearing? = some t → y.storage.Cleared t
  events : ∀ t events, y.worker = .expireRows t events →
    events = y.storage.database.expireBundles t

theorem timely_create : create.Timely :=
  ⟨fun _ h => absurd h List.not_mem_nil, fun _ h => absurd h (by simp [create]),
    fun _ h => absurd h (by simp [create, SQLiteBundleStorage.create, WorkerStage.tick?]),
    fun _ h => absurd h List.not_mem_nil, fun _ _ h => absurd h (by simp [create]),
    fun _ h => absurd h (by simp [create, WorkerStage.clearing?]),
    fun _ _ h => absurd h (by simp [create])⟩

namespace Timely

variable {y : System}

section Same

variable {y' : System} (h : y.Timely) (hfiles : y'.storage.files = y.storage.files)
  (hnext : y'.storage.nextExpiration = y.storage.nextExpiration) (hworker : y'.worker = y.worker)
  (hpending : y'.pending = y.pending)
  (hcall : ∀ call, y'.call = some call → Regular call.bundle.storedExpiry)
  (htasks : ∀ t, .expire t ∈ y'.storage.tasks → .expire t ∈ y.storage.tasks ∨ t.toNat < 2 ^ 63)

include h hfiles hnext hworker hpending hcall htasks

/-- A step that changes nothing in the tables but custodians, and neither files nor the timer. -/
theorem of_custodians (custodian : BundleRow → Bytes)
    (hdatabase : y'.storage.database = { y.storage.database with
      bundles := y.storage.database.bundles.map fun r => { r with custodian := custodian r } }) :
    y'.Timely := by
  have hbundles {r : BundleRow} (hr : r ∈ y'.storage.database.bundles) :
      ∃ t ∈ y.storage.database.bundles, { t with custodian := custodian t } = r := by
    rw [hdatabase] at hr
    exact List.mem_map.1 hr
  have hblocks : y'.storage.database.blocks = y.storage.database.blocks := by rw [hdatabase]
  refine ⟨fun r hr => ?_, hcall, fun t ht => ?_, fun r hr => ?_, fun time removed hw r hr => ?_,
    fun t ht r hr hdue => ?_, fun t events hw => ?_⟩
  · obtain ⟨t, hmem, rfl⟩ := hbundles hr
    exact h.regular t hmem
  · rcases ht with ht | ht
    · exact (htasks t ht).elim (fun ht => h.ticks t (.inl ht)) id
    · exact h.ticks t (.inr (hworker ▸ ht))
  · obtain ⟨t, hmem, rfl⟩ := hbundles hr
    rw [hnext, hpending]
    exact h.next t hmem
  · obtain ⟨t, hmem, rfl⟩ := hbundles hr
    rw [hpending]
    exact h.write time removed (hworker ▸ hw) t hmem
  · obtain ⟨r, hmem, rfl⟩ := hbundles hr
    rw [hblocks, hfiles]
    exact h.files t (hworker ▸ ht) r hmem hdue
  · rw [h.events t events (hworker ▸ hw), hdatabase, Database.expireBundles,
      Database.expireBundles, List.filter_map, List.map_map]
    rfl

/-- A step that changes neither tables nor files nor the timer. -/
theorem of_eq (hdatabase : y'.storage.database = y.storage.database) : y'.Timely := by
  refine h.of_custodians hfiles hnext hworker hpending hcall htasks BundleRow.custodian ?_
  rw [List.map_id', hdatabase]

end Same

/-! #### Steps of a store -/

/-- A row is inserted. -/
theorem insert (h : y.Timely) {call : StoreCall} {db : Database} (hpending : y.pending = none)
    (hregular : Regular call.bundle.storedExpiry)
    (hdb : y.storage.database.bundleStore (.ofBundle call.clock call.bundle) = some db)
    (hrows : ∀ t events, y.worker = .expireRows t events → t < call.bundle.storedExpiry)
    (hevents : ∀ t, y.worker = .expireEvents t → t < call.bundle.storedExpiry ∨
      ∀ b ∈ y.storage.database.blocks, b.toRowKey ≠ call.bundle.toBundleID.rowKey) :
    Timely { y with
      storage := { y.storage with session := { y.storage.session with current := db } }
      call := some { call with stage := .blocks 1 call.bundle.blocks } } := by
  obtain ⟨rfl, -⟩ := Database.bundleStore_eq_some_iff.1 hdb
  have hkept {r : BundleRow} (hr : r ∈ y.storage.database.bundles ++
      [BundleRow.ofBundle call.clock call.bundle]) :
      r ∈ y.storage.database.bundles ∨ r = .ofBundle call.clock call.bundle := by
    simpa using hr
  have hlater {t : UInt64} (ht : y.worker.tick? = some t) (hlt : t < call.bundle.storedExpiry) :
      (BundleRow.ofBundle call.clock call.bundle).expired t = false := by
    rw [← Bool.not_eq_true, BundleRow.expired_iff (h.ticks t (.inr ht)) hregular, UInt64.not_le]
    exact hlt
  refine ⟨fun r hr => ?_, fun c hc => ?_, h.ticks, fun r hr => ?_, fun time removed hw r hr => ?_,
    fun t ht r hr hdue b hb hkey => ?_, fun t events hw => ?_⟩
  · rcases hkept hr with hr | rfl
    · exact h.regular r hr
    · exact hregular
  · obtain rfl := Option.some.inj hc
    exact hregular
  · rcases hkept hr with hr | rfl
    · refine .inl ((h.next r hr).resolve_right ?_)
      simp [hpending]
    · exact .inr rfl
  · rcases hkept hr with hr | rfl
    · refine .inl ((h.write time removed hw r hr).resolve_right ?_)
      simp [hpending]
    · exact .inr rfl
  · rcases hkept hr with hr | rfl
    · exact h.files t ht r hr hdue b hb hkey
    · have ht : y.worker.clearing? = some t := ht
      cases hw : y.worker with
      | expireEvents t' =>
          obtain rfl : t' = t := by simpa [hw, WorkerStage.clearing?] using ht
          rcases hevents _ hw with hlt | hfree
          · rw [hlater (by rw [hw, WorkerStage.tick?]) hlt] at hdue
            exact absurd hdue Bool.false_ne_true
          · exact absurd hkey (hfree b hb)
      | expireRows t' events =>
          obtain rfl : t' = t := by simpa [hw, WorkerStage.clearing?] using ht
          rw [hlater (by rw [hw, WorkerStage.tick?]) (hrows _ _ hw)] at hdue
          exact absurd hdue Bool.false_ne_true
      | _ => simp [hw, WorkerStage.clearing?] at ht
  · have hw : y.worker = .expireRows t events := hw
    have hnot := hlater (by rw [hw, WorkerStage.tick?]) (hrows t events hw)
    rw [h.events t events hw, Database.expireBundles, Database.expireBundles]
    change _ = ((y.storage.database.bundles ++
      [BundleRow.ofBundle call.clock call.bundle]).filter _).map _
    rw [List.filter_append, List.filter_singleton, hnot]
    simp

/-- The rows of blocks are inserted, and their files written. -/
theorem insertBlock (h : y.Timely) {call : StoreCall} {number : ℕ} {block : Block}
    {rest : List Block} (hcall : y.call = some call) (hstage : call.stage = .blocks number (block :: rest))
    (hworks : BlockEnv.Works (call.env.block number) call.bundle.toBundleID.rowKey
      y.storage.database)
    (hdue : ∀ t, y.worker.clearing? = some t → ∀ r ∈ y.storage.database.bundles,
      r.expired t = true → r.toRowKey ≠ call.bundle.toBundleID.rowKey) :
    ∃ s', storeBlock call.bundle.toBundleID.rowKey number block (call.env.block number) y.storage =
        (.ok (), s') ∧
      Timely { y with
        storage := s'
        call := some { call with stage := .blocks (number + 1) rest } } := by
  obtain ⟨row, files', hblock, hrow, hother⟩ := storeBlock_works number block y.storage
    hworks.tmpfile hworks.unbroken hworks.faultless hworks.key
  have hpending : y.pending = some call.bundle.storedExpiry := by
    rw [pending, hcall, Option.bind_some, StoreCall.pending, hstage]
  refine ⟨_, hblock, h.regular, fun c hc => ?_, h.ticks, fun r hr => ?_, fun time removed hw r hr => ?_,
    fun t ht r hr hr' b hb hkey => ?_, h.events⟩
  · obtain rfl := Option.some.inj hc
    exact h.call call hcall
  · exact (h.next r hr).imp_right fun hr' => by rw [hpending] at hr'; exact hr'
  · exact (h.write time removed hw r hr).imp_right fun hr' => by rw [hpending] at hr'; exact hr'
  · rcases List.mem_append.1 hb with hb | hb
    · have hold := h.files t ht r hr hr' b hb hkey
      have hname : ¬ (call.env.block number).Names (columnText b.filename) := fun hname =>
        hworks.fresh _ hname b hb rfl
      rw [Directory.Has, ← hother _ hname] at hold
      exact hold
    · rw [List.mem_singleton.1 hb, hrow.key] at hkey
      exact absurd hkey.symm (hdue t ht r hr hr')

/-- The next expiry time is brought up to date. -/
theorem time (h : y.Timely) {call : StoreCall} {inserted : Bool} (hcall : y.call = some call)
    (hstage : call.stage = .time inserted)
    (hlate : inserted = true → ∀ time removed, y.worker = .writeTime time removed →
      time ≠ 0 ∧ time ≤ call.bundle.storedExpiry) :
    Timely { y with
      storage := newExpireTime call.bundle.storedExpiry y.storage
      call := some { call with stage := .custodian } } := by
  have hregular := h.call call hcall
  have hpending {r : BundleRow} (hr : y.pending = some r.expiretime) :
      inserted = true ∧ r.expiretime = call.bundle.storedExpiry := by
    rw [pending, hcall, Option.bind_some, StoreCall.pending, hstage] at hr
    cases inserted with
    | true => exact ⟨rfl, (Option.some.inj hr).symm⟩
    | false => simp at hr
  rw [newExpireTime_eq]
  refine ⟨h.regular, fun c hc => ?_, h.ticks, fun r hr => .inl ?_,
    fun time removed hw r hr => .inl ?_, h.files, h.events⟩
  · obtain rfl := Option.some.inj hc
    exact hregular
  · rcases h.next r hr with hcovered | hr'
    · exact hcovered.earlier hregular.1
    · exact covered_earlier hregular.1 (hpending hr').2 _
  · rcases h.write time removed hw r hr with hcovered | hr'
    · exact hcovered
    · obtain ⟨hinserted, htime⟩ := hpending hr'
      rw [Covered, htime]
      exact hlate hinserted time removed hw

/-- **A step of a store keeps everything timely.** -/
theorem storing (h : y.Timely) {call : StoreCall} (hcall : y.call = some call)
    (hmeets : y.StoreMeets call) :
    Timely { y with
      call := (storeStep call y.storage).1, storage := (storeStep call y.storage).2 } := by
  have hregular := h.call call hcall
  have hpending : y.pending = call.pending := by rw [pending, hcall, Option.bind_some]
  have hnext {stage : StoreStage} : ∀ c, some { call with stage } = some c →
      Regular c.bundle.storedExpiry := fun c hc => by
    obtain rfl := Option.some.inj hc
    exact hregular
  have hkept {t : UInt64} (ht : .expire t ∈ y.storage.tasks) :
      .expire t ∈ y.storage.tasks ∨ t.toNat < 2 ^ 63 := .inl ht
  rw [storeStep]
  rw [StoreMeets] at hmeets
  dsimp only
  cases hstage : call.stage with
  | begin =>
      refine h.of_eq rfl rfl rfl ?_ hnext (fun t => hkept) (Session.begin_current _)
      rw [hpending, StoreCall.pending, hstage]
      rfl
  | row =>
      rw [hstage] at hmeets
      have hnone : y.pending = none := by rw [hpending, StoreCall.pending, hstage]
      cases herror : call.env.rowError with
      | some message =>
          refine h.of_eq rfl rfl rfl ?_ hnext (fun t => hkept) rfl
          rw [hnone]
          rfl
      | none =>
          dsimp only
          cases hdb : y.storage.database.bundleStore (.ofBundle call.clock call.bundle) with
          | none =>
              refine h.of_eq rfl rfl rfl ?_ hnext (fun t => hkept) rfl
              rw [hnone]
              rfl
          | some db =>
              obtain ⟨hrows, hevents⟩ := hmeets herror
              exact h.insert hnone hregular hdb hrows hevents
  | rollback =>
      rw [hstage] at hmeets
      refine h.of_eq rfl rfl rfl ?_ (fun c hc => absurd hc (by simp)) (fun t => hkept) ?_
      · rw [hpending, StoreCall.pending, hstage]
        rfl
      · change y.storage.session.rollback.current = _
        rw [Session.rollback]
        cases hsaved : y.storage.session.saved with
        | none => rfl
        | some db => exact hmeets db hsaved
  | blocks number rest =>
      rw [hstage] at hmeets
      cases rest with
      | nil =>
          refine h.of_eq rfl rfl rfl ?_ hnext (fun t => hkept) rfl
          rw [hpending, StoreCall.pending, hstage]
          rfl
      | cons block rest =>
          obtain ⟨s', hblock, hs'⟩ := h.insertBlock hcall hstage hmeets.1 hmeets.2
          dsimp only
          rw [hblock]
          exact hs'
  | commit inserted =>
      refine h.of_eq rfl rfl rfl ?_ hnext (fun t => hkept) rfl
      rw [hpending, StoreCall.pending, hstage]
      cases inserted <;> rfl
  | time inserted =>
      rw [hstage] at hmeets
      refine h.time hcall hstage fun hinserted => ?_
      subst hinserted
      exact hmeets
  | custodian =>
      have hnone : y.pending = none := by rw [hpending, StoreCall.pending, hstage]
      dsimp only
      rw [updateCustodian_eq]
      exact h.of_custodians rfl rfl rfl (by rw [hnone]; rfl) (fun c hc => absurd hc (by simp))
        (fun t => hkept) (custodianFor call.clock call.node call.bundle) rfl

/-! #### Steps of the worker -/

/-- A step of the worker that deletes at most rows, and is not between the statements of a task for
a tick, nor before a write of the next expiry time. -/
theorem of_worker (h : y.Timely) {w : WorkerStage} {s : SQLiteBundleStorage}
    (hbundles : ∀ r ∈ s.database.bundles, r ∈ y.storage.database.bundles)
    (hnext : s.nextExpiration = y.storage.nextExpiration)
    (hticks : ∀ t, .expire t ∈ s.tasks ∨ w.tick? = some t →
      .expire t ∈ y.storage.tasks ∨ y.worker.tick? = some t)
    (hclearing : w.clearing? = none) (hwrite : ∀ time removed, w ≠ .writeTime time removed) :
    Timely { y with worker := w, storage := s } := by
  refine ⟨fun r hr => h.regular r (hbundles r hr), h.call, fun t ht => h.ticks t (hticks t ht),
    fun r hr => ?_, fun time removed hw => absurd hw (hwrite time removed), fun t ht => ?_,
    fun t events hw => ?_⟩
  · change Covered s.nextExpiration r ∨ _
    rw [hnext]
    exact h.next r (hbundles r hr)
  · exact absurd (hclearing.symm.trans ht) (by simp)
  · rw [show w = _ from hw, WorkerStage.clearing?] at hclearing
    exact absurd hclearing (by simp)

/-- **A step of the worker keeps everything timely.** -/
theorem work (h : y.Timely) : Timely { y with
    worker := (workerStep y.worker y.storage).1, storage := (workerStep y.worker y.storage).2 } := by
  have hdeleted {p : BundleRow → Bool} : ∀ r ∈ (y.storage.database.delete p).bundles,
      r ∈ y.storage.database.bundles := fun r hr => (Database.mem_bundles_delete.1 hr).1
  cases hw : y.worker with
  | idle =>
      rw [workerStep]
      cases htasks : y.storage.tasks with
      | nil =>
          refine h.of_worker (fun _ hr => hr) rfl (fun t ht => .inl (ht.resolve_right ?_)) rfl
            (by simp)
          simp [WorkerStage.tick?]
      | cons task tasks =>
          cases task with
          | remove i =>
              refine h.of_worker (fun _ hr => hr) rfl (fun t ht => .inl ?_) rfl (by simp)
              rw [htasks]
              exact List.mem_cons_of_mem _ (ht.resolve_right (by simp [WorkerStage.tick?]))
          | expire timestamp =>
              refine h.of_worker (fun _ hr => hr) rfl (fun t ht => .inl ?_) rfl (by simp)
              rw [htasks]
              rcases ht with ht | ht
              · exact List.mem_cons_of_mem _ ht
              · obtain rfl : timestamp = t := by simpa [WorkerStage.tick?] using ht
                exact List.mem_cons_self
  | removeFiles i =>
      exact h.of_worker (fun _ hr => hr) rfl
        (fun t ht => .inl (ht.resolve_right (by simp [workerStep, WorkerStage.tick?]))) rfl
        (by simp [workerStep])
  | removeRows i =>
      exact h.of_worker hdeleted rfl
        (fun t ht => .inl (ht.resolve_right (by simp [workerStep, WorkerStage.tick?]))) rfl
        (by simp [workerStep])
  | expireCheck timestamp =>
      rw [workerStep]
      split_ifs
      · exact h.of_worker (fun _ hr => hr) rfl
          (fun t ht => .inl (ht.resolve_right (by simp [WorkerStage.tick?]))) rfl (by simp)
      · refine h.of_worker (fun _ hr => hr) rfl (fun t ht => ht.imp_right fun ht => ?_) rfl (by simp)
        rw [hw]
        exact ht
  | expireFiles timestamp =>
      refine ⟨h.regular, h.call, fun t ht => h.ticks t (ht.imp_right fun ht => ?_), h.next,
        fun _ _ hw => absurd hw (by simp [workerStep]), fun t ht r hr hdue b hb hkey => ?_,
        fun _ _ hw => absurd hw (by simp [workerStep])⟩
      · rw [hw]
        exact ht
      · obtain rfl : timestamp = t := by simpa [workerStep, WorkerStage.clearing?] using ht
        change ¬ (y.storage.files.removeAll ((y.storage.database.expireBundleFilenames timestamp).map
          columnText)).Has (columnText b.filename)
        rw [Directory.has_removeAll, not_and_or, not_not]
        exact .inl (List.mem_map_of_mem (Database.mem_expireBundleFilenames.2
          ⟨r, hr, hdue, b, hb, hkey.symm, rfl⟩))
  | expireEvents timestamp =>
      refine ⟨h.regular, h.call, fun t ht => h.ticks t (ht.imp_right fun ht => ?_), h.next,
        fun _ _ hw => absurd hw (by simp [workerStep]), fun t ht => h.files t ?_,
        fun t events hevents => ?_⟩
      · rw [hw]
        exact ht
      · rw [hw]
        exact ht
      · obtain ⟨rfl, rfl⟩ : timestamp = t ∧ y.storage.database.expireBundles timestamp = events := by
          simpa [workerStep] using hevents
        rfl
  | expireRows timestamp events =>
      exact h.of_worker hdeleted rfl
        (fun t ht => .inl (ht.resolve_right (by simp [workerStep, WorkerStage.tick?]))) rfl
        (by simp [workerStep])
  | selectTime removed =>
      refine ⟨h.regular, h.call,
        fun t ht => h.ticks t (.inl (ht.resolve_right (by simp [workerStep, WorkerStage.tick?]))),
        h.next, fun time _ hwrite r hr => .inl ?_,
        fun _ ht => absurd ht (by simp [workerStep, WorkerStage.clearing?]),
        fun _ _ hw => absurd hw (by simp [workerStep])⟩
      obtain ⟨rfl, -⟩ : y.storage.nextExpiryTime = time ∧ _ := by simpa [workerStep] using hwrite
      exact covered_nextExpiryTime h.regular hr
  | writeTime time removed =>
      have hstage : (workerStep (.writeTime time removed) y.storage).1.tick? = none ∧
          (workerStep (.writeTime time removed) y.storage).1.clearing? = none ∧
            ∀ t removed', (workerStep (.writeTime time removed) y.storage).1 ≠
              .writeTime t removed' := by
        cases removed <;> simp [workerStep, WorkerStage.tick?, WorkerStage.clearing?]
      refine ⟨h.regular, h.call, fun t ht => h.ticks t (.inl (ht.resolve_right ?_)),
        h.write time removed hw, fun t removed' hw' => absurd hw' (hstage.2.2 t removed'),
        fun t ht => absurd (hstage.2.1.symm.trans ht) (by simp), fun t events hw' => ?_⟩
      · simp [hstage.1]
      · have hclearing := hstage.2.1
        rw [show (workerStep (.writeTime time removed) y.storage).1 = _ from hw'] at hclearing
        exact absurd hclearing (by simp [WorkerStage.clearing?])
  | removeMark i =>
      exact h.of_worker (fun _ hr => hr) rfl
        (fun t ht => .inl (ht.resolve_right (by simp [workerStep, WorkerStage.tick?]))) rfl
        (by simp [workerStep])

/-- **Every step that meets the conditions keeps everything timely.** -/
theorem step (h : y.Timely) {a : Label} {y' : System} (hmeets : y.Meets a)
    (hstep : Step y a y') : y'.Timely := by
  rw [Step] at hstep
  have hkept {t : UInt64} (ht : .expire t ∈ y.storage.tasks) :
      .expire t ∈ y.storage.tasks ∨ t.toNat < 2 ^ 63 := .inl ht
  cases a with
  | store c node env b =>
      cases hcall : y.call with
      | some call => simp [System.step, hcall] at hstep
      | none =>
          simp only [System.step, hcall, Option.some.injEq] at hstep
          subst hstep
          refine h.of_eq rfl rfl rfl ?_ (fun call hc => ?_) (fun t => hkept) rfl
          · rw [pending, pending, hcall]
            rfl
          · obtain rfl := Option.some.inj hc
            exact hmeets
  | storing =>
      cases hcall : y.call with
      | none => simp [System.step, hcall] at hstep
      | some call =>
          simp only [System.step, hcall, Option.map_some, Option.some.injEq] at hstep
          subst hstep
          exact h.storing hcall (hmeets call hcall)
  | remove i =>
      simp only [System.step, Option.some.injEq] at hstep
      subst hstep
      exact h.of_eq rfl rfl rfl rfl h.call (fun t => hkept) rfl
  | removing i =>
      simp only [System.step, Option.ite_none_right_eq_some, Option.some.injEq] at hstep
      obtain ⟨-, rfl⟩ := hstep
      refine h.of_eq rfl rfl rfl rfl h.call (fun t ht => .inl ?_) rfl
      simpa using ht
  | tick timestamp =>
      simp only [System.step, Option.some.injEq] at hstep
      subst hstep
      refine h.of_eq rfl rfl rfl rfl h.call (fun t ht => ?_) rfl
      rcases List.mem_append.1 ht with ht | ht
      · exact .inl ht
      · obtain rfl : t = timestamp := by simpa using ht
        exact .inr hmeets
  | work =>
      simp only [System.step, Option.some.injEq] at hstep
      subst hstep
      exact h.work

/-- The timer covers every bundle. -/
theorem timerCovers (h : y.Timely) : y.TimerCovers := by
  intro hcall _
  have hcovered {r : BundleRow} (hr : r ∈ y.storage.database.bundles) :
      Covered y.storage.nextExpiration r :=
    (h.next r hr).resolve_right (by simp [pending, hcall])
  refine ⟨fun hzero => ?_, fun r hr => (hcovered hr).2⟩
  exact List.eq_nil_iff_forall_not_mem.2 fun r hr => (hcovered hr).1 hzero

/-- The task of a tick expires all that is due. -/
theorem expiresAll (h : y.Timely) (hmeets : y.Meets .work) : y.ExpiresAll := by
  have hdue {t : UInt64} {events : List BundleID} (hw : y.worker = .expireRows t events)
      {r : BundleRow} (hr : r ∈ y.storage.database.bundles) :
      r.expired t = true ↔ r.expiretime ≤ t :=
    BundleRow.expired_iff (h.ticks t (.inr (by rw [hw]; rfl))) (h.regular r hr)
  refine ⟨fun t hw hidle r hr => ?_, fun t events hw r hr => ?_, fun t events hw => ?_,
    fun t events hw r hr hdeleted => ?_⟩
  · have hskip : y.storage.skipsExpiry t = true := by
      rw [hw, workerStep] at hidle
      by_contra hskip
      simp [hskip] at hidle
    rcases h.next r hr with ⟨hne, hle⟩ | hpending
    · rcases Bool.or_eq_true_iff.1 hskip with hlt | hzero
      · exact UInt64.lt_of_lt_of_le (of_decide_eq_true hlt) hle
      · exact absurd (eq_of_beq hzero) hne
    · exact hmeets t hw hskip _ hpending
  · rw [hw] at hr
    obtain ⟨hr, hkept⟩ := Database.mem_bundles_delete.1 hr
    rw [← UInt64.not_le, ← hdue hw hr, Bool.not_eq_true]
    exact hkept
  · rw [h.events t events hw, Database.expireBundles]
    refine congrArg (List.map _) (List.filter_congr fun r hr => ?_)
    rw [Bool.eq_iff_iff, hdue hw hr, decide_eq_true_eq]
  · rw [hw] at hdeleted ⊢
    have hr' : r.expired t = true := by
      by_contra hkept
      exact hdeleted (Database.mem_bundles_delete.2 ⟨hr, Bool.eq_false_iff.2 hkept⟩)
    refine ⟨fun b hb hkey => ?_, fun b hb hkey => ?_⟩
    · exact (Database.mem_blocks_delete.1 hb).2 r hr hr' hkey.symm
    · exact h.files t (by rw [hw]; rfl) r hr hr' b hb hkey

end Timely

/-- **Behind every run of steps that do not come between, the timer covers every bundle, and the
task of a tick expires all that is due.** -/
theorem expires_run {labels : List Label} {y : System}
    (h : Transition.Run Step Meets create labels y) :
    y.TimerCovers ∧ (y.Meets .work → y.ExpiresAll) := by
  have htimely : y.Timely := h.invariant timely_create fun _ _ _ hy hmeets hstep =>
    hy.step hmeets hstep
  exact ⟨htimely.timerCovers, htimely.expiresAll⟩

/-- A run of steps goes on with a step of the store in progress. -/
theorem run_storing {labels : List Label} {y : System} {call : StoreCall}
    (h : Transition.Run Step Meets create labels y) (hcall : y.call = some call)
    (hmeets : y.StoreMeets call) :
    Transition.Run Step Meets create (labels ++ [.storing]) { y with
      call := (storeStep call y.storage).1, storage := (storeStep call y.storage).2 } := by
  refine h.snoc (fun call' hcall' => ?_) ?_
  · obtain rfl := Option.some.inj (hcall.symm.trans hcall')
    exact hmeets
  · rw [Step, System.step, hcall]
    rfl

/-- All steps of a store, with temporary files whose names begin with `first`. -/
def sampleStore (first : Char) (b : Bundle) : List Label :=
  .store (Clock.showing 100) sampleNode
    { sampleEnv with block n := ⟨.ok (ascii [first] ++ Decimal.numeral n), .foreign, none, none⟩ } b ::
      List.replicate 7 .storing

/-- A new storage behind some steps. -/
def sampleSystem (labels : List Label) : Option System := labels.foldlM step create

/-- A run of steps goes on with a step of the worker, if no store is in progress. -/
theorem run_work {labels : List Label} {y : System}
    (h : Transition.Run Step Meets create labels y) (hcall : y.call = none) :
    Transition.Run Step Meets create (labels ++ [.work]) { y with
      worker := (workerStep y.worker y.storage).1, storage := (workerStep y.worker y.storage).2 } := by
  refine h.snoc (fun t _ _ ttl hpending => ?_) rfl
  rw [pending, hcall] at hpending
  exact absurd hpending (by simp)

/-- A run of steps goes on with a tick. -/
theorem run_tick {labels : List Label} {y : System}
    (h : Transition.Run Step Meets create labels y) (timestamp : UInt64)
    (htime : timestamp.toNat < 2 ^ 63) :
    Transition.Run Step Meets create (labels ++ [.tick timestamp])
      { y with storage := y.storage.tick timestamp } :=
  h.snoc htime rfl

theorem expires_run_sample :
    ∃ y, sampleSystem (sampleStore 'b' sampleWhole ++ .tick 4000 :: List.replicate 4 .work) = some y ∧
      y.storage.count = 1 ∧ y.worker = .expireRows 4000 [sampleWhole.toBundleID] ∧
        y.TimerCovers ∧ (y.Meets .work → y.ExpiresAll) := by
  have hworks {db : Database} (hdb : db.blocks = []) :
      BlockEnv.Works (sampleEnv.block 1) sampleWhole.toBundleID.rowKey db := by
    refine ⟨⟨_, rfl⟩, rfl, rfl, fun _ _ _ hr => ?_, .inl rfl⟩
    rw [hdb] at hr
    exact absurd hr List.not_mem_nil
  have hcalled : Transition.Run Step Meets create
      [.store (Clock.showing 100) sampleNode sampleEnv sampleWhole] _ :=
    Transition.Run.nil.snoc (show Regular sampleWhole.storedExpiry by decide) rfl
  have hrow := run_storing (run_storing hcalled rfl trivial) rfl fun _ => ⟨nofun, nofun⟩
  have hblocks := run_storing (run_storing hrow rfl ⟨hworks rfl, nofun⟩) rfl trivial
  have hdone := run_storing (run_storing (run_storing hblocks rfl trivial) rfl nofun) rfl trivial
  have htick := run_tick hdone 4000 (by decide)
  have hexpired := run_work (run_work (run_work (run_work htick rfl) rfl) rfl) rfl
  exact ⟨_, rfl, by decide +kernel, by decide +kernel, expires_run hexpired⟩

/-- The first steps of a removal, up to the selection of the next expiry time. -/
def sampleRemoval (i : BundleID) : List Label :=
  [.remove i, .removing i, .work, .work, .work, .work]

/-- **A store between the selection of the next expiry time and the write is lost for the timer**,
which is zero although a bundle is stored. -/
theorem not_timerCovers_sample :
    ∃ labels y, Transition.Run Step (fun _ _ => True) create labels y ∧ ¬ y.TimerCovers := by
  have hrun : (sampleSystem (sampleRemoval sampleWhole.toBundleID ++ sampleStore 'b' sampleWhole ++
      [.work, .work])).any (fun y => decide (y.call.isNone = true ∧ y.worker.updating = false ∧
        y.storage.nextExpiration = 0 ∧ y.storage.database.bundles ≠ [])) = true := by
    decide +kernel
  obtain ⟨y, hy, hbad⟩ := (Option.any_eq_true _ _).1 hrun
  obtain ⟨hcall, hworker, hzero, hne⟩ := of_decide_eq_true hbad
  exact ⟨_, y, Transition.run_of_foldlM hy, fun h =>
    hne ((h (Option.isNone_iff_eq_none.1 hcall) hworker).1 hzero)⟩

/-- **A store of a bundle that is due, between the first two statements of a task, leaves its block
file** when the rows are deleted. -/
theorem not_expiresAll_sample :
    ∃ labels y, Transition.Run Step (fun _ _ => True) create labels y ∧ ¬ y.ExpiresAll := by
  have hrun : (sampleSystem (sampleStore 'b' sampleWhole ++ [.tick 4000, .work, .work, .work] ++
      sampleStore 'c' { sampleWhole with sequencenumber := 2 } ++ [.work])).any
        (fun y => decide (y.worker.clearing? = some 4000 ∧ ∃ r ∈ y.storage.database.bundles,
          r ∉ (workerStep y.worker y.storage).2.database.bundles ∧
            ∃ b ∈ y.storage.database.blocks, b.toRowKey = r.toRowKey ∧
              (workerStep y.worker y.storage).2.files.Has (columnText b.filename))) = true := by
    decide +kernel
  obtain ⟨y, hy, hbad⟩ := (Option.any_eq_true _ _).1 hrun
  obtain ⟨hclearing, r, hr, hdeleted, b, hb, hkey, hhas⟩ := of_decide_eq_true hbad
  refine ⟨_, y, Transition.run_of_foldlM hy, fun h => ?_⟩
  cases hw : y.worker with
  | expireRows t events => exact (h.blocks t events hw r hr hdeleted).2 b hb hkey hhas
  | expireEvents t =>
      rw [hw, workerStep] at hdeleted
      exact hdeleted hr
  | _ => simp [hw, WorkerStage.clearing?] at hclearing

/-- **Other steps come between**: neither does the timer cover every bundle behind every run, nor
does the task of a tick expire all that is due. -/
theorem not_expires_sample :
    (∃ labels y, Transition.Run Step (fun _ _ => True) create labels y ∧ ¬ y.TimerCovers) ∧
      ∃ labels y, Transition.Run Step (fun _ _ => True) create labels y ∧ ¬ y.ExpiresAll :=
  ⟨not_timerCovers_sample, not_expiresAll_sample⟩

end System

end SQLiteBundleStorage

end IbrDtn
