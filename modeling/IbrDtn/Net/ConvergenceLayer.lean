import IbrDtn.Data.BundleList
import IbrDtn.Data.Deserializer
import IbrDtn.Data.Eid
import IbrDtn.Data.RoundTrip

/-!
# Jobs of the convergence layers for files, UDP and HTTP

This file models what `net/UDPConvergenceLayer.cpp`, `net/HTTPConvergenceLayer.cpp` and
`net/FileConvergenceLayer.cpp` do with one job, and the handlers of `BundleCore::transferTo` for what
leaves `queue()`.  A job is the transfer of a bundle to a neighbor, and a neighbor has only a few
slots for transfers, so that each job has to end in one event.

## Main definitions

* `TransferEvent` : the events that end a transfer.
* `UDPConvergenceLayer.queue`, `HTTPConvergenceLayer.queue`, `FileConvergenceLayer.store` : the jobs.
* `BundleCore.transferTo` : the events for an exception that leaves `queue()`.
* `ConvergenceLayer.Settles` : a job ends in one event, which says what became of the bundle.

## Main results

* `ConvergenceLayer.settles` : the jobs of all three layers, outside of the branches that raise no
  event or do not look at the outcome.
-/

namespace IbrDtn

/-- The exceptions that the calls of a layer throw, by the handlers that take them. -/
inductive Failure where
  | noBundleFound
  | neighborNotAvailable
  | connectionNotAvailable
  /-- Another `ibrcommon::Exception`. -/
  | exception
  /-- A `std::exception` that is none. -/
  | standard
deriving DecidableEq, Repr

/-- `TransferAbortedEvent::AbortReason`. -/
inductive AbortReason where
  | undefined
  | connectionDown
  | refused
  | retryLimitReached
  | bundleDeleted
deriving DecidableEq, Repr

/-- `TransferCompletedEvent`, `TransferAbortedEvent` and `RequeueBundleEvent`, with the peer and the
identifier of the bundle. -/
inductive TransferEvent where
  | completed (peer : EID) (bundle : BundleID)
  | aborted (peer : EID) (bundle : BundleID) (reason : AbortReason)
  | requeued (peer : EID) (bundle : BundleID)
deriving DecidableEq, Repr

namespace TransferEvent

/-- `getPeer`. -/
def peer : TransferEvent → EID
  | completed peer _ | aborted peer _ _ | requeued peer _ => peer

/-- The identifier of the bundle. -/
def bundle : TransferEvent → BundleID
  | completed _ bundle | aborted _ bundle _ | requeued _ bundle => bundle

end TransferEvent

namespace ConvergenceLayer

/-- `class ConvergenceLayer::Job`. -/
structure Job where
  bundle : BundleID
  destination : EID
deriving DecidableEq, Repr

/-- What the layers use of `class Node`: the EID, and the URIs of the protocols for UDP and files. -/
structure Node where
  eid : EID
  udp : List Bytes
  file : List Bytes
deriving DecidableEq, Repr

/-- What `queue()` leaves behind: the events, what was passed to the network, and the exception that
leaves it. -/
structure Queued where
  events : List TransferEvent
  sent : Option Bytes
  thrown : Option Failure
deriving DecidableEq, Repr

/-- `catch (const NoBundleFoundException&)` of `queue()`. -/
def Queued.catching (node : Node) (job : Job) (q : Queued) : Queued :=
  if q.thrown = some .noBundleFound then
    { q with
      events := q.events ++ [.aborted node.eid job.bundle .bundleDeleted], thrown := none }
  else q

/-- The bytes that a new serializer writes for a bundle. -/
def encoding (b : Bundle) : Bytes := (DefaultSerializer.create.writeBundle b).1

end ConvergenceLayer

open ConvergenceLayer

/-- The handlers of `BundleCore::transferTo`: the events of a job. -/
def BundleCore.transferTo (job : Job) (q : Queued) : List TransferEvent :=
  q.events ++
    match q.thrown with
    | none => []
    | some .neighborNotAvailable => [.aborted job.destination job.bundle .connectionDown]
    | some .standard => []
    | some _ => [.requeued job.destination job.bundle]

/-! ### UDP -/

namespace UDPConvergenceLayer

/-- What the layer meets: the limit for messages, the clock, `storage.get(job._bundle)`, whether a
payload can be read while it is serialized, and what `send` to a URI returns. -/
structure Env where
  maxmsgsize : UInt32
  clock : Clock
  get : Except Failure Bundle
  serialize : Except Failure Unit
  send : Bytes → Bytes → Except Failure ℤ

/-- `UDPConvergenceLayer::queue`. -/
def queue (env : Env) (node : Node) (job : Job) : Queued :=
  match node.udp with
  | [] => ⟨[.aborted node.eid job.bundle .undefined], none, none⟩
  | uri :: _ =>
      Queued.catching node job <|
        match env.get with
        | .error e => ⟨[], none, some e⟩
        | .ok bundle =>
            -- The size is an `unsigned int`.
            if env.maxmsgsize < (bundle.lengthAt env.clock).toUInt32 then ⟨[], none, some .exception⟩
            else
              match env.serialize with
              | .error e => ⟨[], none, some e⟩
              | .ok () =>
                  match env.send uri (encoding bundle) with
                  | .error e => ⟨[], none, some e⟩
                  | .ok ret =>
                      if ret = -1 then ⟨[.requeued job.destination job.bundle], none, none⟩
                      else
                        ⟨[.completed job.destination bundle.toBundleID],
                          some ((encoding bundle).take ret.toNat), none⟩

end UDPConvergenceLayer

/-! ### HTTP -/

namespace HTTPConvergenceLayer

/-- `HTTPConvergenceLayer_callback_read`: the bytes for a buffer, and the bytes that remain. -/
def callbackRead (size : ℕ) (rest : Bytes) : Bytes × Bytes := (rest.take size, rest.drop size)

/-- The bytes that calls with the given buffers deliver. -/
def uploaded : List ℕ → Bytes → Bytes
  | [], _ => []
  | size :: sizes, rest => (callbackRead size rest).1 ++ uploaded sizes (callbackRead size rest).2

/-- What `curl_easy_perform` does: the sizes of the buffers that it passes to the callback, its
result, and the code of the reply. -/
structure Transfer where
  sizes : List ℕ
  res : ℤ
  httpCode : ℤ

/-- What the layer meets: `storage.get(job._bundle)`, whether a payload can be read while it is
serialized, and the transfer of a file of the given length, if `curl_easy_init` gives a handle. -/
structure Env where
  get : Except Failure Bundle
  serialize : Except Failure Unit
  perform : ℕ → Option Transfer

/-- `CURL_CONN_OK` and `HTTP_OK`. -/
def curlConnOk : ℤ := 0
def httpOk : ℤ := 200

/-- `HTTPConvergenceLayer::queue`. -/
def queue (env : Env) (node : Node) (job : Job) : Queued :=
  Queued.catching node job <|
    match env.get with
    | .error e => ⟨[], none, some e⟩
    | .ok bundle =>
        match env.serialize with
        | .error e => ⟨[], none, some e⟩
        | .ok () =>
            match env.perform (encoding bundle).length with
            | none => ⟨[], none, none⟩
            | some t =>
                if t.res = curlConnOk ∧ t.httpCode = httpOk then
                  ⟨[.completed job.destination bundle.toBundleID],
                    some (uploaded t.sizes (encoding bundle)), none⟩
                else ⟨[], some (uploaded t.sizes (encoding bundle)), none⟩

end HTTPConvergenceLayer

/-- `DefaultDeserializer::operator>>(MetaBundle&)` of a new deserializer. -/
def DefaultDeserializer.readMeta (env : DeserializerEnv) (clock : Clock) : Parser Exn MetaBundle := do
  let (pb, _) ← readPrimary env create (PrimaryBlock.create 0 0)
  pure
    { pb.toBundleID with
      lifetime := pb.lifetime, destination := pb.destination, reportto := pb.reportto,
      custodian := pb.custodian, appdatalength := pb.appdatalength, procflags := pb.procflags,
      expiretime := clock.expireTime pb.timestamp pb.lifetime, hopcount := 0 }

/-! ### Files -/

namespace FileConvergenceLayer

/-- A file in the folder of a node. A file that cannot be opened has no content. -/
structure File where
  isSystem : Bool
  content : Bytes
deriving DecidableEq, Repr

/-- What the layer meets: `BundleCore::local`, the clock, the folder, whether it can be listed, the
two calls `storage.get(job._bundle)` for a bundle of the routing and for one that is written, what
`replyHandshake` and the creation of the file do, and the bytes that are in the file after the
bundle was serialized into it. -/
structure Env where
  localEID : EID
  clock : Clock
  deserializer : DeserializerEnv
  files : List File
  getFiles : Bytes → Except Failure Unit
  getRouting : Except Failure Bundle
  get : Except Failure Bundle
  replyHandshake : Bundle → List MetaBundle → Except Failure Unit
  temporaryFile : Except Failure Unit
  write : Bytes → Except Failure Bytes

/-- What a job leaves behind: the events, `_blacklist`, the folder, and the exception that is not
handled yet. -/
structure Handled where
  events : List TransferEvent
  blacklist : BundleList
  files : List File
  thrown : Option Failure

/-- `"file://"`. -/
def filePrefix : Bytes := ascii ['f', 'i', 'l', 'e', ':', '/', '/']

/-- `FileConvergenceLayer::getPath`. -/
def getPath (node : Node) : Except Failure Bytes :=
  match node.file with
  | [] => .error .exception
  | uri :: _ => if uri.take 7 ≠ filePrefix then .error .exception else .ok (uri.drop 7)

/-- `FileConvergenceLayer::scan`: the bundles in the folder, and the files that are left there. -/
def scan (env : Env) : List File → List MetaBundle × List File
  | [] => ([], [])
  | f :: fs =>
      let (metas, files) := scan env fs
      if f.isSystem then (metas, f :: files)
      else
        match ((DefaultDeserializer.readMeta env.deserializer env.clock).run
            (.ofBytes f.content)).1 with
        | .error _ => (metas, files)
        | .ok m => if m.expiretime < env.clock.time then (metas, files) else (m :: metas, f :: files)

/-- `"/routing"`. -/
def routing : Bytes := ascii ['/', 'r', 'o', 'u', 't', 'i', 'n', 'g']

/-- The part of the job for a bundle of the routing, if it does not go on with the other part. -/
def storeRouting (env : Env) (blacklist : BundleList) (node : Node) (job : Job)
    (metas : List MetaBundle) (files : List File) : Option Handled :=
  if job.bundle.source = env.localEID.append routing then
    match env.getRouting with
    | .error e => some ⟨[], blacklist, files, some e⟩
    | .ok bundle =>
        if bundle.destination = node.eid.append routing then
          let m := MetaBundle.ofBundle env.clock bundle
          if (OrderedSet.find? MetaBundle.toBundleID BundleID.lt m.toBundleID
              blacklist.metas).isSome then
            some ⟨[.aborted node.eid job.bundle .refused], blacklist, files, none⟩
          else
            match env.replyHandshake bundle metas with
            | .error e => some ⟨[], blacklist.add m, files, some e⟩
            | .ok () =>
                some ⟨[.completed node.eid bundle.toBundleID], blacklist.add m, files, none⟩
        else none
  else none

/-- The other part: an event for each bundle in the folder that has the identifier, and the file.  The
`continue` behind the event is one of the loop over these bundles. -/
def storeFile (env : Env) (blacklist : BundleList) (node : Node) (job : Job)
    (metas : List MetaBundle) (files : List File) : Handled :=
  let refused := (metas.filter fun m => m.toBundleID.eq job.bundle).map fun _ =>
    TransferEvent.aborted node.eid job.bundle .refused
  match env.temporaryFile with
  | .error e => ⟨refused, blacklist, files, some e⟩
  | .ok () =>
      -- The file is removed when an `ibrcommon::Exception` is thrown.
      let failed (e : Failure) : Handled :=
        ⟨refused, blacklist, if e = .standard then files ++ [⟨false, []⟩] else files, some e⟩
      match env.get with
      | .error e => failed e
      | .ok bundle =>
          match env.write (encoding bundle) with
          | .error e => failed e
          | .ok content =>
              ⟨refused ++ [.completed node.eid bundle.toBundleID], blacklist,
                files ++ [⟨false, content⟩], none⟩

/-- The handlers around both parts. What they do not take is taken by the one for `std::exception`
behind them, which logs it. -/
def Handled.handle (node : Node) (job : Job) (h : Handled) : Handled :=
  match h.thrown with
  | none | some .standard => h
  | some .noBundleFound =>
      { h with
        events := h.events ++ [.aborted node.eid job.bundle .bundleDeleted], thrown := none }
  | some _ => { h with events := h.events ++ [.requeued node.eid job.bundle], thrown := none }

/-- The branch `TASK_STORE` of `FileConvergenceLayer::componentRun`. What `getPath` and `scan` throw is
taken by the handler for `std::exception`. -/
def store (env : Env) (blacklist : BundleList) (node : Node) (job : Job) : Handled :=
  match getPath node with
  | .error e => ⟨[], blacklist, env.files, some e⟩
  | .ok path =>
      match env.getFiles path with
      | .error e => ⟨[], blacklist, env.files, some e⟩
      | .ok () =>
          let (metas, files) := scan env env.files
          Handled.handle node job
            ((storeRouting env blacklist node job metas files).getD
              (storeFile env blacklist node job metas files))

end FileConvergenceLayer

/-! ### One outcome for each job -/

/-- The transfer is over, and the bundle is with the peer. -/
def TransferEvent.isCompleted : TransferEvent → Bool
  | completed _ _ => true
  | _ => false

/-- The transfer is over, and the bundle is not with the peer. -/
def TransferEvent.isAborted : TransferEvent → Bool
  | aborted _ _ _ => true
  | _ => false

/-- The job ends in one event for its bundle and its node; a transfer is completed only if the bundle
is `complete`, and aborted only if it is `untouched`. -/
def ConvergenceLayer.Settles (job : Job) (events : List TransferEvent)
    (complete untouched : Prop) : Prop :=
  ∃ e, events = [e] ∧ e.peer = job.destination ∧ e.bundle = job.bundle ∧
    (e.isCompleted = true → complete) ∧ (e.isAborted = true → untouched)

namespace ConvergenceLayer

variable {job : Job} {peer : EID} (hpeer : job.destination = peer)

include hpeer

theorem settles_aborted (reason : AbortReason) (complete : Prop) {untouched : Prop}
    (h : untouched) : Settles job [.aborted peer job.bundle reason] complete untouched :=
  ⟨_, rfl, hpeer.symm, rfl, nofun, fun _ => h⟩

theorem settles_requeued (complete untouched : Prop) :
    Settles job [.requeued peer job.bundle] complete untouched :=
  ⟨_, rfl, hpeer.symm, rfl, nofun, nofun⟩

theorem settles_completed {bundle : BundleID} (hbundle : bundle = job.bundle) {complete : Prop}
    (h : complete) (untouched : Prop) :
    Settles job [.completed peer bundle] complete untouched :=
  ⟨_, rfl, hpeer.symm, hbundle, fun _ => h, nofun⟩

end ConvergenceLayer

/-- An exception that leaves `queue()` is handled. -/
theorem BundleCore.settles_transferTo (job : Job) {q : Queued} (hevents : q.events = [])
    {e : Failure} (hthrown : q.thrown = some e) (he : e ≠ .standard) (complete : Prop) :
    Settles job (transferTo job q) complete True := by
  rw [transferTo, hevents, hthrown]
  cases e with
  | standard => exact absurd rfl he
  | neighborNotAvailable => exact settles_aborted rfl _ _ trivial
  | noBundleFound | connectionNotAvailable | exception => exact settles_requeued rfl _ _

/-- The exceptions inside of `queue()` are handled there or by `transferTo`. -/
theorem BundleCore.settles_catching {node : Node} {job : Job} (hnode : job.destination = node.eid)
    {e : Failure} (he : e ≠ .standard) (complete : Prop) :
    Settles job (transferTo job (Queued.catching node job ⟨[], none, some e⟩)) complete True := by
  rw [Queued.catching]
  split_ifs
  · exact settles_aborted hnode _ _ trivial
  · exact settles_transferTo job rfl rfl he complete

namespace UDPConvergenceLayer

/-- The storage gives the bundle that was asked for, a message is sent as a whole or not at all, and
no exception escapes the handlers of `transferTo`. -/
structure Env.Regular (env : Env) (job : Job) : Prop where
  identifies : ∀ b, env.get = .ok b → b.toBundleID = job.bundle
  send : ∀ uri data ret, env.send uri data = .ok ret → ret = -1 ∨ ret = data.length
  get_ne : env.get ≠ .error .standard
  serialize_ne : env.serialize ≠ .error .standard
  send_ne : ∀ uri data, env.send uri data ≠ .error .standard

/-- A job of the layer for UDP ends in one event. -/
theorem settles_queue {env : Env} {node : Node} {job : Job} (hnode : job.destination = node.eid)
    (h : env.Regular job) : Settles job (BundleCore.transferTo job (queue env node job))
      (∃ b, env.get = .ok b ∧ (queue env node job).sent = some (encoding b)) True := by
  rw [queue]
  cases node.udp with
  | nil => exact settles_aborted hnode _ _ trivial
  | cons uri uris =>
      dsimp only
      cases hget : env.get with
      | error e =>
          exact BundleCore.settles_catching hnode (fun he => h.get_ne (he ▸ hget)) _
      | ok bundle =>
          dsimp only
          split_ifs with hsize
          · exact BundleCore.settles_catching hnode (by decide) _
          cases hserialize : env.serialize with
          | error e =>
              exact BundleCore.settles_catching hnode (fun he => h.serialize_ne (he ▸ hserialize)) _
          | ok _ =>
              dsimp only
              cases hsend : env.send uri (encoding bundle) with
              | error e =>
                  exact BundleCore.settles_catching hnode (fun he => h.send_ne _ _ (he ▸ hsend)) _
              | ok ret =>
                  dsimp only
                  split_ifs with hret
                  · exact settles_requeued rfl _ _
                  · have hlength := (h.send _ _ _ hsend).resolve_left hret
                    refine settles_completed rfl (h.identifies _ hget) ⟨bundle, rfl, ?_⟩ _
                    rw [hlength, Int.toNat_natCast, List.take_length]
                    rfl

end UDPConvergenceLayer

namespace HTTPConvergenceLayer

theorem uploaded_eq (sizes : List ℕ) (data : Bytes) : uploaded sizes data = data.take sizes.sum := by
  induction sizes generalizing data with
  | nil => rfl
  | cons size sizes ih => rw [uploaded, callbackRead, ih, List.sum_cons, List.take_add]

/-- The storage gives the bundle that was asked for; the library has a handle, and the server accepts
the file, of which all bytes were asked for; and no exception escapes the handlers of
`transferTo`. -/
structure Env.Regular (env : Env) (job : Job) : Prop where
  identifies : ∀ b, env.get = .ok b → b.toBundleID = job.bundle
  perform : ∀ length, ∃ t, env.perform length = some t ∧ t.res = curlConnOk ∧ t.httpCode = httpOk
  sizes : ∀ length t, env.perform length = some t → t.res = curlConnOk → length ≤ t.sizes.sum
  get_ne : env.get ≠ .error .standard
  serialize_ne : env.serialize ≠ .error .standard

/-- A job of the layer for HTTP ends in one event. -/
theorem settles_queue {env : Env} {node : Node} {job : Job} (hnode : job.destination = node.eid)
    (h : env.Regular job) : Settles job (BundleCore.transferTo job (queue env node job))
      (∃ b, env.get = .ok b ∧ (queue env node job).sent = some (encoding b)) True := by
  rw [queue]
  cases hget : env.get with
  | error e => exact BundleCore.settles_catching hnode (fun he => h.get_ne (he ▸ hget)) _
  | ok bundle =>
      dsimp only
      cases hserialize : env.serialize with
      | error e =>
          exact BundleCore.settles_catching hnode (fun he => h.serialize_ne (he ▸ hserialize)) _
      | ok _ =>
          dsimp only
          obtain ⟨t, hperform, hres, hcode⟩ := h.perform (encoding bundle).length
          have hsum := h.sizes _ t hperform hres
          rw [hperform]
          dsimp only
          rw [if_pos ⟨hres, hcode⟩]
          refine settles_completed rfl (h.identifies _ hget) ⟨bundle, rfl, ?_⟩ _
          rw [uploaded_eq, List.take_of_length_le hsum]
          rfl

end HTTPConvergenceLayer

namespace FileConvergenceLayer

/-- The bundle is one of the node's own routing for the routing of the other node, which the layer
answers in the place of that node. -/
def IsRequest (env : Env) (node : Node) (job : Job) : Prop :=
  job.bundle.source = env.localEID.append routing ∧
    ∃ b, env.getRouting = .ok b ∧ b.destination = node.eid.append routing

/-- The storage gives the bundle that was asked for; the folder is known and can be listed, and no
bundle in it has the identifier, unless the layer answers the bundle itself; the stream takes
all bytes; and only an `ibrcommon::Exception` is thrown. -/
structure Env.Regular (env : Env) (node : Node) (job : Job) : Prop where
  identifies : ∀ b, env.get = .ok b ∨ env.getRouting = .ok b → b.toBundleID = job.bundle
  path : ∃ path, getPath node = .ok path ∧ env.getFiles path = .ok ()
  absent : ¬ IsRequest env node job → ∀ m ∈ (scan env env.files).1, m.toBundleID.eq job.bundle = false
  write : ∀ data content, env.write data = .ok content → content = data
  getRouting_ne : env.getRouting ≠ .error .standard
  get_ne : env.get ≠ .error .standard
  replyHandshake_ne : ∀ b metas, env.replyHandshake b metas ≠ .error .standard
  temporaryFile_ne : env.temporaryFile ≠ .error .standard
  write_ne : ∀ data, env.write data ≠ .error .standard

/-- The folder is left with fewer files at most. -/
theorem sublist_scan (env : Env) (files : List File) : (scan env files).2.Sublist files := by
  induction files with
  | nil => exact List.Sublist.slnil
  | cons f fs ih =>
      rw [scan]
      dsimp only
      split_ifs
      · exact ih.cons_cons f
      split
      · exact ih.cons f
      split_ifs
      · exact ih.cons f
      · exact ih.cons_cons f

/-- What a job is to leave behind: the bundle is in the folder or was answered, or the folder has
nothing new. -/
def Settled (env : Env) (node : Node) (job : Job) (h : Handled) : Prop :=
  Settles job h.events
    (IsRequest env node job ∨ ∃ b, env.get = .ok b ∧ ⟨false, encoding b⟩ ∈ h.files)
    (h.files.Sublist env.files)

section

variable {env : Env} {node : Node} {job : Job} (hnode : job.destination = node.eid)
  {blacklist : BundleList} {files : List File} (hfiles : files.Sublist env.files)

include hnode hfiles

/-- An exception in front of all events is handled. -/
theorem settled_handle {e : Failure} (he : e ≠ .standard) :
    Settled env node job (Handled.handle node job ⟨[], blacklist, files, some e⟩) := by
  cases e with
  | standard => exact absurd rfl he
  | noBundleFound => exact settles_aborted hnode _ _ hfiles
  | neighborNotAvailable | connectionNotAvailable | exception =>
      exact settles_requeued hnode _ _

/-- A bundle of the routing that is not written. -/
theorem settled_storeRouting (h : env.Regular node job) (metas : List MetaBundle) {r : Handled}
    (hr : storeRouting env blacklist node job metas files = some r) :
    Settled env node job (r.handle node job) := by
  rw [storeRouting] at hr
  split_ifs at hr with hsource
  cases hget : env.getRouting with
  | error e =>
      rw [hget] at hr
      obtain rfl := Option.some.inj hr
      exact settled_handle hnode hfiles fun he => h.getRouting_ne (he ▸ hget)
  | ok bundle =>
      rw [hget] at hr
      dsimp only at hr
      split_ifs at hr with hdestination hlisted
      · obtain rfl := Option.some.inj hr
        exact settles_aborted hnode _ _ hfiles
      cases hreply : env.replyHandshake bundle metas with
      | error e =>
          rw [hreply] at hr
          obtain rfl := Option.some.inj hr
          exact settled_handle hnode hfiles fun he => h.replyHandshake_ne _ _ (he ▸ hreply)
      | ok _ =>
          rw [hreply] at hr
          obtain rfl := Option.some.inj hr
          exact settles_completed hnode (h.identifies _ (.inr hget))
            (.inl ⟨hsource, bundle, hget, hdestination⟩) _

/-- A bundle that is written. -/
theorem settled_storeFile (h : env.Regular node job) {metas : List MetaBundle}
    (hmetas : ∀ m ∈ metas, m.toBundleID.eq job.bundle = false) :
    Settled env node job
      (Handled.handle node job (storeFile env blacklist node job metas files)) := by
  have hrefused : (metas.filter fun m => m.toBundleID.eq job.bundle) = [] :=
    List.filter_eq_nil_iff.2 fun m hm => Bool.eq_false_iff.1 (hmetas m hm)
  rw [storeFile, hrefused, List.map_nil]
  dsimp only
  cases htemporary : env.temporaryFile with
  | error e =>
      exact settled_handle hnode hfiles fun he => h.temporaryFile_ne (he ▸ htemporary)
  | ok _ =>
      dsimp only
      cases hget : env.get with
      | error e =>
          have he : e ≠ .standard := fun he => h.get_ne (he ▸ hget)
          dsimp only
          rw [if_neg he]
          exact settled_handle hnode hfiles he
      | ok bundle =>
          dsimp only
          cases hwrite : env.write (encoding bundle) with
          | error e =>
              have he : e ≠ .standard := fun he => h.write_ne _ (he ▸ hwrite)
              dsimp only
              rw [if_neg he]
              exact settled_handle hnode hfiles he
          | ok content =>
              obtain rfl := h.write _ _ hwrite
              exact settles_completed hnode (h.identifies _ (.inl hget))
                (.inr ⟨bundle, hget, List.mem_append_right _ List.mem_cons_self⟩) _

omit hfiles

/-- A job of the layer for files ends in one event. -/
theorem settled_store (h : env.Regular node job) :
    Settled env node job (store env blacklist node job) := by
  obtain ⟨path, hpath, hlisted⟩ := h.path
  have hfiles := sublist_scan env env.files
  rw [store, hpath]
  dsimp only
  rw [hlisted]
  dsimp only
  cases hrouting : storeRouting env blacklist node job (scan env env.files).1
      (scan env env.files).2 with
  | some r => exact settled_storeRouting hnode hfiles h _ hrouting
  | none =>
      refine settled_storeFile hnode hfiles h (h.absent fun hrequest => ?_)
      obtain ⟨hsource, bundle, hget, hdestination⟩ := hrequest
      rw [storeRouting, if_pos hsource, hget] at hrouting
      dsimp only at hrouting
      rw [if_pos hdestination] at hrouting
      split_ifs at hrouting
      cases hreply : env.replyHandshake bundle (scan env env.files).1 <;>
        rw [hreply] at hrouting <;> cases hrouting

end

end FileConvergenceLayer

namespace ConvergenceLayer

/-- **A job ends in one event for its bundle and its node**, which says what became of the bundle, for
each of the three layers. -/
theorem settles {node : Node} {job : Job} (hnode : job.destination = node.eid) :
    (∀ (env : FileConvergenceLayer.Env) (blacklist : BundleList), env.Regular node job →
      FileConvergenceLayer.Settled env node job
        (FileConvergenceLayer.store env blacklist node job)) ∧
    (∀ env : UDPConvergenceLayer.Env, env.Regular job →
      Settles job (BundleCore.transferTo job (UDPConvergenceLayer.queue env node job))
        (∃ b, env.get = .ok b ∧ (UDPConvergenceLayer.queue env node job).sent = some (encoding b))
        True) ∧
    ∀ env : HTTPConvergenceLayer.Env, env.Regular job →
      Settles job (BundleCore.transferTo job (HTTPConvergenceLayer.queue env node job))
        (∃ b, env.get = .ok b ∧ (HTTPConvergenceLayer.queue env node job).sent = some (encoding b))
        True :=
  ⟨fun _ _ h => FileConvergenceLayer.settled_store hnode h,
    fun _ h => UDPConvergenceLayer.settles_queue hnode h,
    fun _ h => HTTPConvergenceLayer.settles_queue hnode h⟩

/-- The node `dtn://a`, with an address and a folder. -/
def sampleNode : Node :=
  ⟨Bundle.sampleEID, [ascii ['i', 'p']], [FileConvergenceLayer.filePrefix ++ ascii ['/', 'x']]⟩

/-- A bundle for `dtn://a`. -/
def sampleBundle : Bundle := Bundle.sample [Bundle.samplePayload Block.lastBlock []]

def sampleJob : Job := ⟨sampleBundle.toBundleID, Bundle.sampleEID⟩

/-- An empty folder that takes all bytes. -/
def sampleFolder (routing : Except Failure Bundle) : FileConvergenceLayer.Env where
  localEID := Bundle.sampleEID
  clock := Clock.showing 8
  deserializer := .default BLOB.exact ⟨0, 0⟩
  files := []
  getFiles _ := .ok ()
  getRouting := routing
  get := .ok sampleBundle
  replyHandshake _ _ := .ok ()
  temporaryFile := .ok ()
  write data := .ok data

/-- A network that takes every message. -/
def sampleNetwork : UDPConvergenceLayer.Env where
  maxmsgsize := 1280
  clock := Clock.showing 8
  get := .ok sampleBundle
  serialize := .ok ()
  send _ data := .ok data.length

/-- A server that accepts every file. -/
def sampleServer : HTTPConvergenceLayer.Env where
  get := .ok sampleBundle
  serialize := .ok ()
  perform length := some ⟨[length], HTTPConvergenceLayer.curlConnOk, HTTPConvergenceLayer.httpOk⟩

/-- A network that is down. -/
def brokenNetwork : UDPConvergenceLayer.Env := { sampleNetwork with send _ _ := .ok (-1) }

/-- A storage that has lost the bundle. -/
def missingServer : HTTPConvergenceLayer.Env := { sampleServer with get := .error .noBundleFound }

/-- A bundle is written, sent and uploaded; it is requeued if the network is down, and aborted if it is
not in the storage any more. -/
theorem settles_sample :
    FileConvergenceLayer.Settled (sampleFolder (.ok sampleBundle)) sampleNode sampleJob
      (FileConvergenceLayer.store (sampleFolder (.ok sampleBundle)) BundleList.empty sampleNode
        sampleJob) ∧
    Settles sampleJob
      (BundleCore.transferTo sampleJob (UDPConvergenceLayer.queue sampleNetwork sampleNode sampleJob))
      (∃ b, sampleNetwork.get = .ok b ∧
        (UDPConvergenceLayer.queue sampleNetwork sampleNode sampleJob).sent = some (encoding b))
      True ∧
    Settles sampleJob
      (BundleCore.transferTo sampleJob (HTTPConvergenceLayer.queue sampleServer sampleNode sampleJob))
      (∃ b, sampleServer.get = .ok b ∧
        (HTTPConvergenceLayer.queue sampleServer sampleNode sampleJob).sent = some (encoding b))
      True ∧
    (BundleCore.transferTo sampleJob (UDPConvergenceLayer.queue brokenNetwork sampleNode sampleJob) =
        [.requeued Bundle.sampleEID sampleJob.bundle] ∧
      Settles sampleJob
        (BundleCore.transferTo sampleJob
          (UDPConvergenceLayer.queue brokenNetwork sampleNode sampleJob))
        (∃ b, brokenNetwork.get = .ok b ∧
          (UDPConvergenceLayer.queue brokenNetwork sampleNode sampleJob).sent = some (encoding b))
        True) ∧
    (BundleCore.transferTo sampleJob (HTTPConvergenceLayer.queue missingServer sampleNode sampleJob) =
        [.aborted Bundle.sampleEID sampleJob.bundle .bundleDeleted] ∧
      Settles sampleJob
        (BundleCore.transferTo sampleJob
          (HTTPConvergenceLayer.queue missingServer sampleNode sampleJob))
        (∃ b, missingServer.get = .ok b ∧
          (HTTPConvergenceLayer.queue missingServer sampleNode sampleJob).sent = some (encoding b))
        True) := by
  obtain ⟨hfile, hudp, hhttp⟩ := @settles sampleNode sampleJob rfl
  refine ⟨hfile _ _ ?_, hudp _ ?_, hhttp _ ?_, ⟨by decide, hudp _ ?_⟩, ⟨by decide, hhttp _ ?_⟩⟩
  · refine ⟨fun b hb => ?_, ⟨ascii ['/', 'x'], by decide, rfl⟩, fun _ => nofun,
      fun _ _ h => (Except.ok.inj h).symm, nofun, nofun, nofun, nofun, nofun⟩
    rcases hb with hb | hb <;> exact Except.ok.inj hb ▸ rfl
  · exact ⟨fun b hb => Except.ok.inj hb ▸ rfl, fun _ _ _ h => .inr (Except.ok.inj h).symm, nofun,
      nofun, nofun⟩
  · refine ⟨fun b hb => Except.ok.inj hb ▸ rfl, fun length => ⟨_, rfl, rfl, rfl⟩,
      fun length t ht _ => ?_, nofun, nofun⟩
    obtain rfl := Option.some.inj ht
    exact (List.sum_singleton).ge
  · exact ⟨fun b hb => Except.ok.inj hb ▸ rfl, fun _ _ _ h => .inl (Except.ok.inj h).symm, nofun,
      nofun, nofun⟩
  · refine ⟨nofun, fun length => ⟨_, rfl, rfl, rfl⟩, fun length t ht _ => ?_, nofun, nofun⟩
    obtain rfl := Option.some.inj ht
    exact (List.sum_singleton).ge

/-- A bundle of the node's own routing for the routing of `dtn://a`. -/
def sampleRequest : Bundle :=
  { sampleBundle with
    source := Bundle.sampleEID.append FileConvergenceLayer.routing
    destination := Bundle.sampleEID.append FileConvergenceLayer.routing }

/-- **A request for the routing of the node is completed and not written**: the layer answers it in
the place of the node. -/
theorem not_written_request :
    (FileConvergenceLayer.store (sampleFolder (.ok sampleRequest)) BundleList.empty sampleNode
      ⟨sampleRequest.toBundleID, Bundle.sampleEID⟩).events =
        [.completed Bundle.sampleEID sampleRequest.toBundleID] ∧
    (FileConvergenceLayer.store (sampleFolder (.ok sampleRequest)) BundleList.empty sampleNode
      ⟨sampleRequest.toBundleID, Bundle.sampleEID⟩).files = [] :=
  ⟨by decide, by decide⟩

end ConvergenceLayer

end IbrDtn
