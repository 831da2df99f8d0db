import IbrDtn.Library.Selection
import IbrDtn.Routing.BaseRouter

/-!
# The routing extensions

This file models the worker loops of the routing extensions that forward bundles:
`NeighborRoutingExtension.cpp`, `StaticRoutingExtension.cpp`, `flooding/FloodRoutingExtension.cpp`
and `epidemic/EpidemicRoutingExtension.cpp`, all in `daemon/src/routing`.  A loop takes one task
after the other.  Most tasks search the storage for bundles that a filter accepts, at most ten of
them, and pass these to `transferTo`.  The filters take the EIDs of bundles apart, which throws for
an EID without host part; the four loops differ in what they catch.  Regular expressions of
static routes are a parameter; the storage is the list of its bundles, in the order in which it
offers them to a filter.

## Main definitions

* `NeighborRoutingExtension.shouldAdd`, `StaticRoutingExtension.shouldAdd`,
  `FloodRoutingExtension.shouldAdd`, `EpidemicRoutingExtension.shouldAdd` : the filters.
* `RoutingTask`, `runTask` : one turn of a worker loop.

## Main results

* `accepted_of_mem_passed` : a search passes on only bundles that its filter accepts.
-/

namespace IbrDtn

open Selection (select)

variable {F : Type} [BloomFilter F]

/-- A function of the class `EID`, called by a filter. -/
def ofEID {α : Type} (r : Except Exn α) : Except NeighborDatabase.Exn α := r.mapError .other

/-- `_blacklist.find(dest) != _blacklist.end()`, for a blacklist of one EID. -/
def blacklisted (eid dest : EID) : Bool := (OrderedSet.find? id EID.lt dest [eid]).isSome

/-- `class StaticRoutingExtension::StaticRoute`: the next hop, and the regular expression, which may
be invalid. -/
structure StaticRoute where
  dest : EID
  invalid : Bool
  regexec : Bytes → Bool

/-- `StaticRoute::match`. -/
def StaticRoute.match (r : StaticRoute) (eid : EID) : Bool :=
  if r.invalid then false else r.regexec eid.getString

/-- What surrounds the extensions: `BundleCore::local`, the static routes, and the EIDs of
`BundleCore::getNeighbors`. -/
structure TaskEnv where
  localEID : EID
  routes : List StaticRoute
  neighbors : List EID

/-- The tasks of the extensions. -/
inductive RoutingTask where
  | searchNextBundle (eid : EID)
  | processBundle (bundle : MetaBundle) (origin : EID)
  | transferCompleted (peer : EID) (bundle : MetaBundle)

/-- What one turn of a worker loop does: the calls of `transferTo` with the EID that the neighbor's
entry is found for, the bundles that these handed over to the EID in the entry, the neighbor
database, the tasks that are queued, the neighbors that a handshake is requested for, and whether
the loop goes on. -/
structure TaskOutcome (F : Type) where
  passed : List (EID × MetaBundle)
  handed : List (EID × MetaBundle)
  neighborDatabase : NeighborDatabase F
  queued : List RoutingTask
  requested : List EID
  running : Bool

/-- A turn that does nothing. -/
def TaskOutcome.idle (db : NeighborDatabase F) : TaskOutcome F := ⟨[], [], db, [], [], true⟩

/-! ### The filters -/

/-- `BundleFilter::shouldAdd` of the neighbor routing. -/
def NeighborRoutingExtension.shouldAdd (destination : EID) (m : MetaBundle) :
    Except NeighborDatabase.Exn Bool := do
  let own ← ofEID destination.getNode
  let node ← ofEID m.destination.getNode
  pure (decide (own = node))

/-- `BundleFilter::shouldAdd` of the static routing, for the given routes. -/
def StaticRoutingExtension.shouldAdd (routes : List StaticRoute) (eid : EID) (e : NeighborEntry F)
    (m : MetaBundle) : Except NeighborDatabase.Exn Bool := do
  let dest ← ofEID m.destination.getNode
  if blacklisted eid dest then pure false
  else do
    if ← e.has m.toBundleID false then pure false
    else pure (routes.any fun r => r.match m.destination)

/-- The bundle is for this node: `meta.destination.getNode() == BundleCore::local`, and the
destination is a singleton. -/
def isLocal (localEID node : EID) (m : MetaBundle) : Bool :=
  decide (node = localEID) && m.get PrimaryBlock.destinationIsSingleton

/-- The bundle must not be forwarded to a node that it is not for. -/
def isLastHop (m : MetaBundle) : Bool :=
  decide (m.hopcount ≤ 1) && m.get PrimaryBlock.destinationIsSingleton

/-- `BundleFilter::shouldAdd` of the flooding. -/
def FloodRoutingExtension.shouldAdd (localEID eid : EID) (e : NeighborEntry F) (m : MetaBundle) :
    Except NeighborDatabase.Exn Bool :=
  if m.hopcount = 0 then .ok false
  else do
    let dest ← ofEID m.destination.getNode
    if isLocal localEID dest m || isLastHop m || blacklisted eid dest then pure false
    else do
      let known ← e.has m.toBundleID false
      pure !known

/-- The application part of routing control messages. -/
def routingApplication : Bytes := ascii ['/', 'r', 'o', 'u', 't', 'i', 'n', 'g']

/-- `BundleFilter::shouldAdd` of the epidemic routing. -/
def EpidemicRoutingExtension.shouldAdd (localEID eid : EID) (e : NeighborEntry F)
    (m : MetaBundle) : Except NeighborDatabase.Exn Bool :=
  if m.hopcount = 0 then .ok false
  else do
    let application ← ofEID m.source.getApplication
    if application = routingApplication then pure false
    else do
      let dest ← ofEID m.destination.getNode
      if isLocal localEID dest m || isLastHop m || blacklisted eid dest then pure false
      else do
        let known ← e.has m.toBundleID true
        pure !known

/-! ### Tasks -/

/-- The number of bundles that a search selects: `BundleFilter::limit` of all four extensions. -/
def searchLimit : ℕ := 10

/-- A search for bundles for a neighbor that has the entry `e`. Of the exceptions of a filter, the
one for a missing Bloom filter requests a handshake; the others drop the task, and end a loop that
does not survive them. -/
def searchFor (db : NeighborDatabase F) (stored : List MetaBundle) (survives : Bool) (eid : EID)
    (e : NeighborEntry F) (shouldAdd : MetaBundle → Except NeighborDatabase.Exn Bool) :
    TaskOutcome F :=
  match select shouldAdd searchLimit stored with
  | .error (.bloomfilterNotAvailable _) => { TaskOutcome.idle db with requested := [eid] }
  | .error _ => { TaskOutcome.idle db with running := survives }
  | .ok found =>
      let t := transferAll e found
      { TaskOutcome.idle db with
        passed := t.passed.map fun m => (eid, m)
        handed := t.handed.map fun m => (e.eid, m)
        neighborDatabase := db.put eid t.entry }

/-- A `SearchNextBundleTask` of the neighbor routing. It asks for the entry of the neighbor only
when it has found a bundle. -/
def NeighborRoutingExtension.search (db : NeighborDatabase F) (stored : List MetaBundle)
    (eid : EID) : TaskOutcome F :=
  match db.find? eid with
  | some e => searchFor db stored false eid e (shouldAdd eid)
  | none =>
      match select (shouldAdd eid) searchLimit stored with
      | .error _ => { TaskOutcome.idle db with running := false }
      | .ok found =>
          { TaskOutcome.idle db with
            passed := (found.take 1).map fun m => (eid, m) }

/-- The routes over the given neighbor. -/
def StaticRoutingExtension.routesOver (env : TaskEnv) (eid : EID) : List StaticRoute :=
  env.routes.filter fun r => decide (r.dest = eid)

/-- A `SearchNextBundleTask` of the static routing. -/
def StaticRoutingExtension.search (env : TaskEnv) (db : NeighborDatabase F)
    (stored : List MetaBundle) (eid : EID) : TaskOutcome F :=
  if (routesOver env eid).isEmpty then .idle db
  else
    match db.find? eid with
    | some e => searchFor db stored false eid e (shouldAdd (routesOver env eid) eid e)
    | none => .idle db

/-- A bundle is passed to `transferTo` for the next hop of a route. -/
def StaticRoutingExtension.forward (m : MetaBundle) (o : TaskOutcome F) (route : StaticRoute) :
    TaskOutcome F :=
  if route.match m.destination then
    match o.neighborDatabase.find? route.dest with
    | none => o
    | some e =>
        let t := transferAll e [m]
        { o with
          passed := o.passed ++ t.passed.map fun m => (route.dest, m)
          handed := o.handed ++ t.handed.map fun m => (e.eid, m)
          neighborDatabase := o.neighborDatabase.put route.dest t.entry }
  else o

/-- A `ProcessBundleTask` of the static routing. -/
def StaticRoutingExtension.process (env : TaskEnv) (db : NeighborDatabase F) (m : MetaBundle) :
    TaskOutcome F :=
  env.routes.foldl (forward m) (.idle db)

/-- A `SearchNextBundleTask` of the flooding. -/
def FloodRoutingExtension.search (env : TaskEnv) (db : NeighborDatabase F)
    (stored : List MetaBundle) (eid : EID) : TaskOutcome F :=
  match db.find? eid with
  | some e => searchFor db stored true eid e (shouldAdd env.localEID eid e)
  | none => .idle db

/-- A `SearchNextBundleTask` of the epidemic routing. -/
def EpidemicRoutingExtension.search (env : TaskEnv) (db : NeighborDatabase F)
    (stored : List MetaBundle) (eid : EID) : TaskOutcome F :=
  match db.find? eid with
  | some e => searchFor db stored true eid e (shouldAdd env.localEID eid e)
  | none => .idle db

/-- New bundles trigger a recheck for all neighbors. -/
def recheck (env : TaskEnv) (db : NeighborDatabase F) : TaskOutcome F :=
  { TaskOutcome.idle db with queued := env.neighbors.map .searchNextBundle }

/-- One turn of the worker loop of an extension. Tasks that the extension does not have do
nothing. -/
def runTask (env : TaskEnv) (db : NeighborDatabase F) (stored : List MetaBundle) :
    Extension → RoutingTask → TaskOutcome F
  | .neighbor, .searchNextBundle eid => NeighborRoutingExtension.search db stored eid
  | .neighbor, .processBundle _ _ => recheck env db
  | .static, .searchNextBundle eid => StaticRoutingExtension.search env db stored eid
  | .static, .processBundle m _ => StaticRoutingExtension.process env db m
  | .flood, .searchNextBundle eid => FloodRoutingExtension.search env db stored eid
  | .flood, .processBundle _ _ => recheck env db
  | .epidemic, .searchNextBundle eid => EpidemicRoutingExtension.search env db stored eid
  | .epidemic, .transferCompleted peer _ =>
      { TaskOutcome.idle db with queued := [.searchNextBundle peer] }
  | _, _ => .idle db

/-! ### What a search passes on -/

variable {db : NeighborDatabase F} {stored : List MetaBundle} {b : Bool} {eid : EID}
  {e : NeighborEntry F} {f : MetaBundle → Except NeighborDatabase.Exn Bool}

omit [BloomFilter F] in
theorem searchFor_ok {found : List MetaBundle} (h : select f searchLimit stored = .ok found) :
    searchFor db stored b eid e f =
      { TaskOutcome.idle db with
        passed := (transferAll e found).passed.map fun m => (eid, m)
        handed := (transferAll e found).handed.map fun m => (e.eid, m)
        neighborDatabase := db.put eid (transferAll e found).entry } := by
  rw [searchFor, h]

omit [BloomFilter F] in
theorem searchFor_unavailable {host : EID}
    (h : select f searchLimit stored = .error (.bloomfilterNotAvailable host)) :
    searchFor db stored b eid e f = { TaskOutcome.idle db with requested := [eid] } := by
  rw [searchFor, h]

omit [BloomFilter F] in
theorem searchFor_other {x : Exn} (h : select f searchLimit stored = .error (.other x)) :
    searchFor db stored b eid e f = { TaskOutcome.idle db with running := b } := by
  rw [searchFor, h]

omit [BloomFilter F] in
/-- **A search passes on only bundles that its filter accepts.** -/
theorem accepted_of_mem_passed {x : EID × MetaBundle}
    (hx : x ∈ (searchFor db stored b eid e f).passed) :
    x.1 = eid ∧ x.2 ∈ stored ∧ f x.2 = .ok true := by
  cases h : select f searchLimit stored with
  | error err =>
      have hpassed : (searchFor db stored b eid e f).passed = [] := by
        rw [searchFor, h]
        cases err <;> rfl
      rw [hpassed] at hx
      exact absurd hx List.not_mem_nil
  | ok found =>
      rw [searchFor_ok h] at hx
      obtain ⟨m, hm, rfl⟩ := List.mem_map.1 hx
      have hfound := (prefix_passed_transferAll e found).subset hm
      exact ⟨rfl, Selection.accepts_of_mem_select h m hfound⟩

/-! ### The searches of the extensions -/

namespace Extension

/-- The filter of the searches of an extension. -/
def filter (env : TaskEnv) (eid : EID) (e : NeighborEntry F) :
    Extension → MetaBundle → Except NeighborDatabase.Exn Bool
  | .neighbor => NeighborRoutingExtension.shouldAdd eid
  | .static => StaticRoutingExtension.shouldAdd (StaticRoutingExtension.routesOver env eid) eid e
  | .flood => FloodRoutingExtension.shouldAdd env.localEID eid e
  | .epidemic => EpidemicRoutingExtension.shouldAdd env.localEID eid e
  | .nodeHandshake | .retransmission => fun _ => .ok false

/-- The extension searches for bundles for the given neighbor. -/
def Searches (env : TaskEnv) (eid : EID) : Extension → Prop
  | .neighbor | .flood | .epidemic => True
  | .static => (StaticRoutingExtension.routesOver env eid).isEmpty = false
  | .nodeHandshake | .retransmission => False

/-- The loop of the extension survives an exception of its filter. -/
def survives : Extension → Bool
  | .flood | .epidemic => true
  | _ => false

variable {env : TaskEnv} {x : Extension}

theorem runTask_search (hentry : db.find? eid = some e) (hx : x.Searches env eid) :
    runTask env db stored x (.searchNextBundle eid) =
      searchFor db stored x.survives eid e (x.filter env eid e) := by
  cases x with
  | neighbor => rw [runTask, NeighborRoutingExtension.search, hentry]; rfl
  | static =>
      have hroutes : (StaticRoutingExtension.routesOver env eid).isEmpty = false := hx
      rw [runTask, StaticRoutingExtension.search, hroutes, hentry]
      rfl
  | flood => rw [runTask, FloodRoutingExtension.search, hentry]; rfl
  | epidemic => rw [runTask, EpidemicRoutingExtension.search, hentry]; rfl
  | nodeHandshake => exact hx.elim
  | retransmission => exact hx.elim

theorem runTask_of_not_searches (hx : ¬ x.Searches env eid) :
    runTask env db stored x (.searchNextBundle eid) = .idle db := by
  cases x with
  | neighbor => exact absurd trivial hx
  | static =>
      have hroutes : (StaticRoutingExtension.routesOver env eid).isEmpty = true := by
        cases h : (StaticRoutingExtension.routesOver env eid).isEmpty with
        | true => rfl
        | false => exact absurd h hx
      rw [runTask, StaticRoutingExtension.search, if_pos hroutes]
  | flood => exact absurd trivial hx
  | epidemic => exact absurd trivial hx
  | nodeHandshake => rfl
  | retransmission => rfl

end Extension

end IbrDtn
