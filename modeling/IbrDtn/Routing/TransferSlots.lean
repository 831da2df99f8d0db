import IbrDtn.Routing.MalformedAddresses
import IbrDtn.Routing.RetransmissionExtension
import IbrDtn.Routing.TransferRecords

/-!
# Transfer slots

A routing extension takes a transfer slot of a neighbor, and hands the bundle to the connection
manager.  The slot is given back where the router handles the `TransferCompletedEvent` or the
`TransferAbortedEvent` about the bundle.  On the way there, the transfer is a job of a convergence
layer, an event that is not handled yet, or a retransmission that is scheduled.  This file follows
the transfers through these places, and through every interleaving of what the extensions, the
layers and the workers do.

## Main definitions

* `ConnectionManager.queue`, `DatagramConvergenceLayer.queue` : the way of a job to its layer.
* `TransferSlots`, `TransferSlots.step` : the places of a transfer, and what happens there.
* `TransferSlots.outstanding` : the transfers that are under way.
* `TransferSlots.Faithful` : the steps after which no transfer is lost.

## Main results

* `TransferSlots.Balanced.step` : such steps keep one slot for every transfer that is under way.
* `TransferSlots.released_run` : when nothing is under way, no neighbor has a bundle in transit.
-/

namespace IbrDtn

open Transition (Run)
open ConvergenceLayer (Job)

/-! ### Bundles in transit -/

namespace NeighborDatabase

variable {F : Type} {db db' : NeighborDatabase F} {eid : EID} {e : NeighborEntry F}

/-- The bundles in transit to a neighbor. -/
def transit (db : NeighborDatabase F) (eid : EID) : List BundleID :=
  ((db.find? eid).map NeighborEntry.transitBundles).getD []

theorem transit_of_find? (h : db.find? eid = some e) : db.transit eid = e.transitBundles := by
  rw [transit, h]
  rfl

theorem transit_congr {eid' : EID} (heq : eid.getString = eid'.getString) :
    db.transit eid = db.transit eid' := by
  rw [transit, find?_congr db heq, transit]

theorem find?_put_cases (eid' : EID) : (db.put eid e).find? eid' =
    if eid'.getString = eid.getString then some e else db.find? eid' := by
  split_ifs with heq
  · rw [find?_congr _ heq, find?_put]
  · exact find?_put_of_ne db e heq

theorem transit_put (eid' : EID) : (db.put eid e).transit eid' =
    if eid'.getString = eid.getString then e.transitBundles else db.transit eid' := by
  rw [transit, find?_put_cases]
  split_ifs <;> rfl

/-- The entries have the EIDs they are found for, and their bundles in transit are in order. -/
structure InOrder (db : NeighborDatabase F) : Prop where
  named : ∀ eid e, db.find? eid = some e → e.eid.getString = eid.getString
  sorted : ∀ eid, (db.transit eid).Pairwise fun i j => i.lt j = true

theorem InOrder.put (h : db.InOrder) (hname : e.eid.getString = eid.getString)
    (hsorted : e.transitBundles.Pairwise fun i j => i.lt j = true) : (db.put eid e).InOrder := by
  refine ⟨fun eid' e' he' => ?_, fun eid' => ?_⟩
  · rw [find?_put_cases] at he'
    split_ifs at he' with heq
    · obtain rfl := Option.some.inj he'
      exact hname.trans heq.symm
    · exact h.named eid' e' he'
  · rw [transit_put]
    split_ifs
    · exact hsorted
    · exact h.sorted eid'

/-- The bundles in transit are still the same. -/
structure Keeps (db db' : NeighborDatabase F) : Prop where
  inOrder : db.InOrder → db'.InOrder
  transit_eq : ∀ eid, db'.transit eid = db.transit eid

theorem Keeps.refl (db : NeighborDatabase F) : db.Keeps db := ⟨id, fun _ => rfl⟩

theorem keeps_put (h : db.find? eid = some e) {e' : NeighborEntry F} (heid : e'.eid = e.eid)
    (htransit : e'.transitBundles = e.transitBundles) : db.Keeps (db.put eid e') := by
  refine ⟨fun hdb => hdb.put ?_ ?_, fun eid' => ?_⟩
  · rw [heid]
    exact hdb.named eid e h
  · rw [htransit, ← transit_of_find? h]
    exact hdb.sorted eid
  · rw [transit_put]
    split_ifs with heq
    · rw [htransit, transit_congr heq, transit_of_find? h]
    · rfl

theorem keeps_modify {f : NeighborEntry F → NeighborEntry F} (heid : ∀ e, (f e).eid = e.eid)
    (htransit : ∀ e, (f e).transitBundles = e.transitBundles) (h : db.modify eid f = .ok db') :
    db.Keeps db' := by
  rw [modify] at h
  cases hfind : db.find? eid with
  | none =>
      rw [get_of_find?_eq_none hfind] at h
      cases h
  | some e =>
      rw [get_of_find? hfind] at h
      obtain rfl := Except.ok.inj h
      exact keeps_put hfind (heid e) (htransit e)

/-- An entry with one bundle more in transit. -/
theorem count_transit_put {e₁ e₂ : NeighborEntry F} {i : BundleID}
    (h : e₁.transitBundles.Perm (i :: e₂.transitBundles)) (eid' : EID) (j : BundleID) :
    ((db.put eid e₁).transit eid').count j = ((db.put eid e₂).transit eid').count j +
      if (eid'.getString, j) = (eid.getString, i) then 1 else 0 := by
  rw [transit_put, transit_put]
  by_cases heq : eid'.getString = eid.getString
  · rw [if_pos heq, if_pos heq, h.count_eq, List.count_cons, heq]
    refine congrArg (_ + ·) (if_congr ?_ rfl rfl)
    rw [beq_iff_eq, Prod.mk_inj, eq_comm]
    exact (and_iff_right rfl).symm
  · rw [if_neg heq, if_neg heq, if_neg fun h => heq (congrArg Prod.fst h), Nat.add_zero]

variable [BloomFilter F]

theorem keeps_create (eid : EID) : db.Keeps (db.create eid) := by
  rw [create]
  cases h : db.find? eid with
  | some e => exact .refl db
  | none =>
      refine ⟨fun hdb => hdb.put rfl .nil, fun eid' => ?_⟩
      dsimp only
      rw [transit_put]
      split_ifs with heq
      · rw [transit_congr heq, transit, h]
        rfl
      · rfl

theorem keeps_addBundle (neighbor : EID) (m : MetaBundle) :
    db.Keeps (db.addBundle neighbor m) := by
  rw [addBundle]
  cases h : db.modify neighbor (NeighborEntry.add m) with
  | error => exact .refl db
  | ok db' => exact keeps_modify (f := NeighborEntry.add m) (fun _ => rfl) (fun _ => rfl) h

theorem find?_expire (c : Clock) (timestamp : UInt64) (eid : EID) :
    (db.expire c timestamp).find? eid = (db.find? eid).map fun e => e.expire c timestamp := by
  rw [find?, expire, OrderedSet.find?_map_snd, find?, Option.map_map, Option.map_map]
  rfl

theorem keeps_expire (c : Clock) (timestamp : UInt64) : db.Keeps (db.expire c timestamp) := by
  have hentry (e : NeighborEntry F) : (e.expire c timestamp).eid = e.eid ∧
      (e.expire c timestamp).transitBundles = e.transitBundles := by
    rw [NeighborEntry.expire]
    split_ifs <;> exact ⟨rfl, rfl⟩
  have htransit (eid : EID) : (db.expire c timestamp).transit eid = db.transit eid := by
    rw [transit, find?_expire, Option.map_map]
    rw [transit]
    cases db.find? eid with
    | none => rfl
    | some e => exact (hentry e).2
  refine ⟨fun h => ⟨fun eid e' he' => ?_, fun eid => ?_⟩, htransit⟩
  · rw [find?_expire] at he'
    obtain ⟨e, he, rfl⟩ := Option.map_eq_some_iff.1 he'
    rw [(hentry e).1]
    exact h.named eid e he
  · rw [htransit]
    exact h.sorted eid

/-! ### Taking a slot and giving it back -/

/-- The place of a transfer in the lists of the transfers. -/
abbrev Pair : Type := Bytes × BundleID

/-- **One bundle more is in transit.** -/
structure Takes (db db' : NeighborDatabase F) (p : Pair) : Prop where
  inOrder : db'.InOrder
  count_eq : ∀ (eid : EID) (i : BundleID), (db'.transit eid).count i =
    (db.transit eid).count i + if (eid.getString, i) = p then 1 else 0

omit [BloomFilter F] in
theorem takes_acquireTransfer (h : db.InOrder) (he : db.find? eid = some e) {e' : NeighborEntry F}
    {i : BundleID} (hacquire : e.acquireTransfer i = .ok e') :
    db.Takes (db.put eid e') (eid.getString, i) := by
  have hsorted := h.sorted eid
  rw [transit_of_find? he] at hsorted
  rw [NeighborEntry.acquireTransfer] at hacquire
  split_ifs at hacquire with htransit hslot
  obtain rfl := Except.ok.inj hacquire
  have hnone : OrderedSet.find? id BundleID.lt i e.transitBundles = none := by
    rw [NeighborEntry.inTransit, Bool.not_eq_true, Option.isSome_eq_false_iff,
      Option.isNone_iff_eq_none] at htransit
    exact htransit
  have htrans : ∀ i j k : BundleID, i.lt j = true → j.lt k = true → i.lt k = true :=
    fun _ _ _ => BundleID.lt_trans
  have hinsert : (OrderedSet.insert id BundleID.lt i e.transitBundles).Pairwise
      fun i j => i.lt j = true := OrderedSet.pairwise_insert htrans i hsorted
  refine ⟨h.put (h.named eid e he) hinsert, fun eid' j => ?_⟩
  rw [← (keeps_put he rfl rfl).transit_eq eid']
  exact count_transit_put (OrderedSet.perm_insert
    (OrderedSet.comparable_of_find?_eq_none htrans hsorted hnone)) eid' j

omit [BloomFilter F] in
theorem takes_releaseTransfer (h : db.InOrder) {i : BundleID} (hi : i ∈ db.transit eid) :
    ∃ db', db.modify eid (NeighborEntry.releaseTransfer i) = .ok db' ∧ db'.InOrder ∧
      db'.Takes db (eid.getString, i) := by
  cases he : db.find? eid with
  | none =>
      rw [transit, he] at hi
      cases hi
  | some e =>
      have hsorted := h.sorted eid
      rw [transit_of_find? he] at hi hsorted
      have hperm : e.transitBundles.Perm (i :: (e.releaseTransfer i).transitBundles) :=
        OrderedSet.perm_erase hsorted hi (BundleID.lt_self i)
      have horder : (db.put eid (e.releaseTransfer i)).InOrder :=
        h.put (h.named eid e he) (hsorted.sublist (OrderedSet.sublist_erase i e.transitBundles))
      refine ⟨db.put eid (e.releaseTransfer i), ?_, horder, h, fun eid' j => ?_⟩
      · rw [modify, get_of_find? he]
        rfl
      · rw [← (keeps_put he rfl rfl).transit_eq eid']
        exact count_transit_put hperm eid' j

end NeighborDatabase

/-! ### The way of a job -/

/-- `Node::Protocol`. -/
inductive Protocol where
  | unsupported
  | undefined
  | udpip
  | tcpip
  | lowpan
  | bluetooth
  | http
  | file
  | dgramUDP
  | dgramEthernet
  | dgramLowpan
deriving DecidableEq, Repr

/-- What the connection manager uses of `class Node`: the EID, and the protocols and values of the
URIs. -/
structure Node where
  eid : EID
  uris : List (Protocol × Bytes)

namespace Node

/-- `Node::has`. -/
def has (n : Node) (p : Protocol) : Bool := n.uris.any fun u => u.1 == p

/-- `Node::get`. -/
def get (n : Node) (p : Protocol) : List (Protocol × Bytes) := n.uris.filter fun u => u.1 == p

/-- A node that has a protocol has a URI for it. -/
theorem get_ne_nil {n : Node} {p : Protocol} (h : n.has p = true) : n.get p ≠ [] := by
  obtain ⟨u, hu, hp⟩ := List.any_eq_true.1 h
  exact List.ne_nil_of_mem (List.mem_filter.2 ⟨hu, hp⟩)

end Node

/-- What `queue()` of a layer does with a job: it puts it to its jobs, or it comes to an end with
the given events or an exception. -/
inductive Answer where
  | accepted
  | returned (q : ConvergenceLayer.Queued)

/-- The event tells the end of the transfer. -/
def TransferEvent.IsAbout (e : TransferEvent) (job : Job) : Prop :=
  e.peer = job.destination ∧ e.bundle = job.bundle

instance (e : TransferEvent) (job : Job) : Decidable (e.IsAbout job) :=
  inferInstanceAs (Decidable (_ ∧ _))

/-- **The layer accepts the job, completes, refuses or fails it**: one event about it is raised, by
the layer or by the handlers of `BundleCore::transferTo`. -/
def Answer.Settles (a : Answer) (job : Job) : Prop :=
  match a with
  | .accepted => True
  | .returned q => q.thrown ≠ some .standard ∧
      ∃ e : TransferEvent, e.IsAbout job ∧ BundleCore.transferTo job q = [e]

/-- A convergence layer: `getDiscoveryProtocol()` and `queue()`. -/
structure Layer where
  protocol : Protocol
  queue : Node → Job → Answer

/-- `class ConnectionManager`: the nodes and the convergence layers. -/
structure ConnectionManager where
  nodes : List Node
  layers : List Layer

/-- `DatagramConvergenceLayer::queue`: without a URI it returns. `conn` gets the job for the
connection to an address, which is created if there is none. -/
def DatagramConvergenceLayer.queue (protocol : Protocol) (conn : Bytes → Job → Answer) (node : Node)
    (job : Job) : Answer :=
  match node.get protocol with
  | [] => .returned ⟨[], none, none⟩
  | uri :: _ => conn uri.2 job

namespace ConnectionManager

/-- `ConnectionManager::queue`. -/
def queue (m : ConnectionManager) (job : Job) : Answer :=
  match m.nodes.find? fun n => decide (n.eid = job.destination) with
  | none => .returned ⟨[], none, some .neighborNotAvailable⟩
  | some n =>
      match m.layers.find? fun l => n.has l.protocol with
      | none => .returned ⟨[], none, some .connectionNotAvailable⟩
      | some l => l.queue n job

/-- The exception that leaves `BundleCore::transferTo`. -/
def escapes (m : ConnectionManager) (job : Job) : Bool :=
  match m.queue job with
  | .accepted => false
  | .returned q => decide (q.thrown = some .standard)

/-- The layers settle the jobs for the nodes that have their protocol. -/
def Settles (m : ConnectionManager) : Prop :=
  ∀ l ∈ m.layers, ∀ (n : Node) (job : Job), n.has l.protocol = true → n.eid = job.destination →
    (l.queue n job).Settles job

/-- **Every job is settled**, if the layers settle theirs. -/
theorem Settles.queue {m : ConnectionManager} (h : m.Settles) (job : Job) :
    (m.queue job).Settles job := by
  rw [ConnectionManager.queue]
  split
  · exact ⟨nofun, .aborted job.destination job.bundle .connectionDown, ⟨rfl, rfl⟩, rfl⟩
  · rename_i n hn
    split
    · exact ⟨nofun, .requeued job.destination job.bundle, ⟨rfl, rfl⟩, rfl⟩
    · rename_i l hl
      have heid := List.find?_some hn
      have hhas := List.find?_some hl
      exact h l (List.mem_of_find?_eq_some hl) n job hhas (of_decide_eq_true heid)

theorem Settles.escapes {m : ConnectionManager} (h : m.Settles) (job : Job) :
    m.escapes job = false := by
  have hqueue := h.queue job
  rw [ConnectionManager.escapes]
  cases hm : m.queue job with
  | accepted => rfl
  | returned q =>
      rw [hm] at hqueue
      exact decide_eq_false hqueue.1

end ConnectionManager

/-- **The silent return is not reached**: the connection manager asks for the protocol first. -/
theorem DatagramConvergenceLayer.settles_queue {protocol : Protocol} {conn : Bytes → Job → Answer}
    (h : ∀ uri job, (conn uri job).Settles job) {node : Node} (hnode : node.has protocol = true)
    (job : Job) : (queue protocol conn node job).Settles job := by
  rw [queue]
  cases hget : node.get protocol with
  | nil => exact absurd hget (Node.get_ne_nil hnode)
  | cons uri uris => exact h uri.2 job

/-! ### The places of a transfer -/

open NeighborDatabase (Pair)

/-- The pair of a job, of an event and of a retransmission. -/
def ConvergenceLayer.Job.place (job : Job) : Pair := (job.destination.getString, job.bundle)

def TransferEvent.place (e : TransferEvent) : Pair := (e.peer.getString, e.bundle)

def RetransmissionData.place (a : RetransmissionData) : Pair :=
  (a.destination.getString, a.bundleID)

/-- It is a `RequeueBundleEvent`. -/
def TransferEvent.isRequeued : TransferEvent → Bool
  | requeued _ _ => true
  | _ => false

/-- The router and the retransmission extension, the jobs that are queued or in progress in the
convergence layers, and the events: those that the router has not handled yet, and those that it
has handled, but the extension has not. -/
structure TransferSlots (σ F : Type) where
  router : BaseRouter σ F
  retransmission : RetransmissionExtension
  jobs : List Job
  pending : List TransferEvent
  handled : List TransferEvent

/-- What happens. -/
inductive SlotAction where
  /-- The router handles an event that is not about a transfer. -/
  | event (env : RouterEnv) (e : RouterEvent)
  /-- An extension calls `transferTo`. -/
  | transferTo (m : ConnectionManager) (peer : EID) (bundle : BundleID)
  /-- A layer has come to the end of a job, and has raised some events. -/
  | settle (job : Job) (es : List TransferEvent)
  /-- The router handles an event. One that is completed carries the meta data of the bundle. -/
  | handle (env : RouterEnv) (e : TransferEvent) (m : MetaBundle)
  /-- The retransmission extension is notified of an event. -/
  | notify (now : UInt64) (e : TransferEvent)
  | tick (m : ConnectionManager) (timestamp : UInt64)
  | expire (bundle : BundleID)

/-- The event is about a transfer. -/
def RouterEvent.isTransfer : RouterEvent → Bool
  | transferCompleted _ _ | transferAborted _ _ _ => true
  | _ => false

namespace TransferEvent

/-- What the router does with the event. -/
def handle {σ F : Type} [Storage σ] [BloomFilter F] (env : RouterEnv) (r : BaseRouter σ F)
    (m : MetaBundle) : TransferEvent → RouterOutcome σ F
  | completed peer _ => r.raiseEvent env (.transferCompleted peer m)
  | aborted peer bundle reason => r.raiseEvent env (.transferAborted peer bundle reason)
  | requeued _ _ => ⟨r, [], none⟩

/-- The event as the extension is notified of it. -/
def toEvent (now : UInt64) : TransferEvent → RetransmissionExtension.Event
  | completed peer bundle => .transferCompleted peer bundle
  | aborted peer bundle _ => .transferAborted peer bundle
  | requeued peer bundle => .requeue now peer bundle

/-- The meta data are those of the bundle of the event. -/
def Carries (m : MetaBundle) : TransferEvent → Prop
  | completed _ bundle => m.toBundleID = bundle
  | _ => True

instance (m : MetaBundle) : (e : TransferEvent) → Decidable (e.Carries m)
  | completed _ _ => inferInstanceAs (Decidable (_ = _))
  | aborted _ _ _ => inferInstanceAs (Decidable True)
  | requeued _ _ => inferInstanceAs (Decidable True)

end TransferEvent

/-- The event that an effect of the extension raises. -/
def RetransmissionExtension.Effect.event? : RetransmissionExtension.Effect → Option TransferEvent
  | .transferTo _ _ => none
  | .transferAborted peer id reason => some (.aborted peer id reason)

namespace TransferSlots

variable {σ F : Type} [Storage σ] [BloomFilter F]

/-- The neighbor database. -/
abbrev database (s : TransferSlots σ F) : NeighborDatabase F := s.router.neighborDatabase

/-- The database has changed. -/
def setDatabase (db : NeighborDatabase F) (s : TransferSlots σ F) : TransferSlots σ F :=
  { s with router := { s.router with neighborDatabase := db } }

/-- `BundleCore::transferTo`. -/
def submit (m : ConnectionManager) (job : Job) (s : TransferSlots σ F) : TransferSlots σ F :=
  match m.queue job with
  | .accepted => { s with jobs := s.jobs ++ [job] }
  | .returned q => { s with pending := s.pending ++ BundleCore.transferTo job q }

/-- `BaseRouter::Extension::transferTo`. -/
def transferTo (m : ConnectionManager) (peer : EID) (bundle : BundleID) (s : TransferSlots σ F) :
    TransferSlots σ F :=
  match s.database.find? peer with
  | none => s
  | some e =>
      match e.acquireTransfer bundle with
      | .error _ => s
      | .ok e' =>
          (s.setDatabase (s.database.put peer e')).submit m ⟨bundle, e'.eid⟩

/-- The retransmission extension is notified of an event, and raises its events. -/
def inform (e : RetransmissionExtension.Event) (s : TransferSlots σ F) : TransferSlots σ F :=
  let (retransmission, effects) := s.retransmission.notify e
  { s with retransmission, pending := s.pending ++ effects.filterMap (·.event?) }

/-- A `TimeEvent` for the retransmission extension: the first element is removed after the call of
`BundleCore::transferTo`. -/
def tick (m : ConnectionManager) (timestamp : UInt64) (s : TransferSlots σ F) :
    TransferSlots σ F :=
  match s.retransmission.notify (.time timestamp) with
  | (retransmission, [.transferTo destination bundle]) =>
      if m.escapes ⟨bundle, destination⟩ then s.submit m ⟨bundle, destination⟩
      else { s.submit m ⟨bundle, destination⟩ with retransmission }
  | (retransmission, _) => { s with retransmission }

/-- What happens in the places of a transfer. -/
def step (s : TransferSlots σ F) : SlotAction → Option (TransferSlots σ F)
  | .event env e =>
      if e.isTransfer then none else some { s with router := (s.router.raiseEvent env e).router }
  | .transferTo m peer bundle => some (s.transferTo m peer bundle)
  | .settle job es =>
      if job ∈ s.jobs then some { s with jobs := s.jobs.erase job, pending := s.pending ++ es }
      else none
  | .handle env e m =>
      if e ∈ s.pending ∧ e.Carries m then
        let o := e.handle env s.router m
        some
          { s with
            router := o.router, pending := s.pending.erase e
            handled := if o.escapes.isSome then s.handled else s.handled ++ [e] }
      else none
  | .notify now e =>
      if e ∈ s.handled then some ({ s with handled := s.handled.erase e }.inform (e.toEvent now))
      else none
  | .tick m timestamp => some (s.tick m timestamp)
  | .expire bundle => some (s.inform (.bundleExpired bundle))

/-- The transfers that are under way. -/
def outstanding (s : TransferSlots σ F) : List Pair :=
  s.jobs.map ConvergenceLayer.Job.place ++ s.pending.map TransferEvent.place ++
    (s.handled.filter TransferEvent.isRequeued).map TransferEvent.place ++
      s.retransmission.queue.map RetransmissionData.place

/-- No job is queued or in progress, no event is pending, and no retransmission is scheduled. -/
def Idle (s : TransferSlots σ F) : Prop :=
  s.jobs = [] ∧ s.pending = [] ∧ s.handled = [] ∧ s.retransmission.queue = []

instance (s : TransferSlots σ F) : Decidable s.Idle :=
  inferInstanceAs (Decidable (_ ∧ _ ∧ _ ∧ _))

/-- **The steps after which no transfer is lost**: the layers settle the jobs that they do not accept,
and raise one event at the end of the others; a completed transfer is one of a peer and of a bundle
whose EIDs have host parts; and what the extension finds for a requeued bundle is about the same
bundle and the same peer. -/
def Faithful (s : TransferSlots σ F) : SlotAction → Prop
  | .transferTo m _ _ | .tick m _ => m.Settles
  | .settle job es => ∃ e : TransferEvent, e.IsAbout job ∧ es = [e]
  | .handle _ (.completed peer _) m => peer.HasHost ∧ m.destination.HasHost
  | .notify _ (.requeued peer bundle) =>
      ∀ a, s.retransmission.find? bundle = some a → a.pair = (bundle, peer)
  | _ => True

/-- **One slot for every transfer that is under way.** -/
structure Balanced (s : TransferSlots σ F) : Prop where
  inOrder : s.database.InOrder
  count_eq : ∀ (eid : EID) (i : BundleID),
    s.outstanding.count (eid.getString, i) = (s.database.transit eid).count i

variable {s s' : TransferSlots σ F}

omit [Storage σ] [BloomFilter F] in
/-- A transfer goes to another place. -/
theorem Balanced.of_perm (h : s.Balanced) (hdatabase : s.database.Keeps s'.database)
    (hperm : s'.outstanding.Perm s.outstanding) : s'.Balanced where
  inOrder := hdatabase.inOrder h.inOrder
  count_eq eid i := by rw [hperm.count_eq, h.count_eq, hdatabase.transit_eq]

omit [Storage σ] [BloomFilter F] in
/-- A transfer begins. -/
theorem Balanced.of_takes (h : s.Balanced) {p : Pair} (hdatabase : s.database.Takes s'.database p)
    (hperm : s'.outstanding.Perm (p :: s.outstanding)) : s'.Balanced where
  inOrder := hdatabase.inOrder
  count_eq eid i := by
    rw [hperm.count_eq, List.count_cons, h.count_eq, hdatabase.count_eq]
    exact congrArg (_ + ·) (if_congr (by rw [beq_iff_eq, eq_comm]) rfl rfl)

omit [Storage σ] [BloomFilter F] in
/-- A transfer ends. -/
theorem Balanced.of_gives (h : s.Balanced) {p : Pair} (horder : s'.database.InOrder)
    (hdatabase : s'.database.Takes s.database p)
    (hperm : s.outstanding.Perm (p :: s'.outstanding)) : s'.Balanced where
  inOrder := horder
  count_eq eid i := by
    have hcount := h.count_eq eid i
    rw [hperm.count_eq, List.count_cons, hdatabase.count_eq] at hcount
    have hif : (if (p == (eid.getString, i)) = true then 1 else 0) =
        if (eid.getString, i) = p then 1 else 0 := if_congr (by rw [beq_iff_eq, eq_comm]) rfl rfl
    rw [hif] at hcount
    exact Nat.add_right_cancel hcount

/-! ### What the steps do with the transfers -/

omit [Storage σ] [BloomFilter F] in
/-- A job that is settled is under way. -/
theorem outstanding_submit {m : ConnectionManager} (h : m.Settles) (job : Job) :
    (s.submit m job).outstanding.Perm (job.place :: s.outstanding) ∧
      (s.submit m job).router = s.router ∧
      (s.submit m job).retransmission = s.retransmission := by
  have hsettles := h.queue job
  rw [submit]
  cases hq : m.queue job with
  | accepted =>
      refine ⟨?_, rfl, rfl⟩
      simp only [outstanding, List.map_append, List.append_assoc, List.map_cons, List.map_nil,
        List.cons_append, List.nil_append]
      exact List.perm_middle
  | returned q =>
      rw [hq] at hsettles
      obtain ⟨-, e, ⟨hpeer, hbundle⟩, hevents⟩ := hsettles
      have hplace : e.place = job.place := by
        rw [TransferEvent.place, hpeer, hbundle, ConvergenceLayer.Job.place]
      refine ⟨?_, rfl, rfl⟩
      simp only [outstanding, hevents, List.map_append, List.append_assoc, List.map_cons,
        List.map_nil, List.cons_append, List.nil_append, hplace]
      rw [← List.append_assoc, ← List.append_assoc]
      exact List.perm_middle

omit [Storage σ] [BloomFilter F] in
theorem Balanced.transferTo (h : s.Balanced) {m : ConnectionManager} (hm : m.Settles) (peer : EID)
    (bundle : BundleID) : (s.transferTo m peer bundle).Balanced := by
  rw [TransferSlots.transferTo]
  cases he : s.database.find? peer with
  | none => exact h
  | some e =>
      cases hacquire : e.acquireTransfer bundle with
      | error => simpa only [hacquire] using h
      | ok e' =>
          simp only [hacquire]
          have heid : e'.eid = e.eid := by
            rw [NeighborEntry.acquireTransfer] at hacquire
            split_ifs at hacquire
            obtain rfl := Except.ok.inj hacquire
            rfl
          have hplace : ConvergenceLayer.Job.place ⟨bundle, e'.eid⟩ = (peer.getString, bundle) := by
            rw [ConvergenceLayer.Job.place, heid, h.inOrder.named peer e he]
          obtain ⟨hperm, hrouter, -⟩ := outstanding_submit
            (s := s.setDatabase (s.database.put peer e')) hm ⟨bundle, e'.eid⟩
          refine h.of_takes ?_ hperm
          rw [hplace, database, database, hrouter]
          exact NeighborDatabase.takes_acquireTransfer h.inOrder he hacquire

/-- An event that is not about a transfer keeps the bundles in transit. -/
theorem keeps_raiseEvent (env : RouterEnv) (r : BaseRouter σ F) {e : RouterEvent}
    (h : e.isTransfer = false) :
    r.neighborDatabase.Keeps (r.raiseEvent env e).router.neighborDatabase := by
  have hstore (r : BaseRouter σ F) (peer : EID) (b b' : Bundle) :
      (r.storeBundle env.clock peer b b').router.neighborDatabase = r.neighborDatabase := by
    rw [BaseRouter.storeBundle]
    split <;> rfl
  cases e with
  | nodeAvailable eid => exact NeighborDatabase.keeps_create eid
  | nodeUnavailable eid =>
      rw [BaseRouter.raiseEvent, BaseRouter.raiseNode, if_neg Bool.false_ne_true]
      cases hreset : r.neighborDatabase.reset env.clock eid with
      | error => exact .refl _
      | ok db =>
          exact NeighborDatabase.keeps_modify (f := NeighborEntry.reset env.clock) (fun _ => rfl)
            (fun _ => rfl) hreset
  | transferCompleted | transferAborted => cases h
  | bundleReceived peer b fromlocal =>
      rw [BaseRouter.raiseEvent, BaseRouter.raiseBundleReceived]
      split_ifs
      · exact .refl _
      · rw [hstore]
        exact .refl _
      · exact .refl _
      · split
        · exact .refl _
        · exact .refl _
        · dsimp only
          rw [hstore]
          exact NeighborDatabase.keeps_addBundle peer _
  | bundleGenerated b =>
      rw [BaseRouter.raiseEvent, BaseRouter.raiseBundleGenerated]
      split <;> exact .refl _
  | time timestamp => exact NeighborDatabase.keeps_expire env.clock timestamp

omit [Storage σ] [BloomFilter F] in
/-- An event that is pending is under way. -/
theorem outstanding_erase_pending {e : TransferEvent} (he : e ∈ s.pending) :
    s.outstanding.Perm
      (e.place :: ({ s with pending := s.pending.erase e } : TransferSlots σ F).outstanding) := by
  refine List.perm_iff_count.2 fun p => ?_
  have hcount := ((List.perm_cons_erase he).map TransferEvent.place).count_eq p
  simp only [outstanding, List.count_append, List.count_cons, List.map_cons] at hcount ⊢
  omega

omit [Storage σ] [BloomFilter F] in
/-- The bundle of an event that is pending is in transit. -/
theorem Balanced.mem_transit (h : s.Balanced) {e : TransferEvent} (he : e ∈ s.pending) :
    e.bundle ∈ s.database.transit e.peer := by
  have hmem : e.place ∈ s.outstanding :=
    (outstanding_erase_pending he).mem_iff.2 List.mem_cons_self
  rw [← List.count_pos_iff] at hmem ⊢
  exact (h.count_eq e.peer e.bundle) ▸ hmem

/-- What the router does with an event about a transfer: it gives back the slot, or it leaves the
event to the extension. -/
structure Handles (s : TransferSlots σ F) (e : TransferEvent) (o : RouterOutcome σ F) : Prop where
  gives : e.isRequeued = false → o.router.neighborDatabase.InOrder ∧
    o.router.neighborDatabase.Takes s.database e.place
  keeps : e.isRequeued = true → s.database.Keeps o.router.neighborDatabase ∧ o.escapes = none

omit [Storage σ] [BloomFilter F] in
theorem takes_of_keeps {db db' db'' : NeighborDatabase F} {p : Pair} (h : db.Takes db'' p)
    (hkeeps : db.Keeps db') : db'.Takes db'' p where
  inOrder := h.inOrder
  count_eq eid i := by rw [h.count_eq, hkeeps.transit_eq]

/-- **The router gives back the slot of a transfer that is over.** -/
theorem Balanced.handles (h : s.Balanced) {e : TransferEvent} (he : e ∈ s.pending)
    {env : RouterEnv} {m : MetaBundle} (hcarries : e.Carries m)
    (hfaithful : s.Faithful (.handle env e m)) : s.Handles e (e.handle env s.router m) := by
  obtain ⟨db, hrelease, horder, htakes⟩ :=
    NeighborDatabase.takes_releaseTransfer h.inOrder (h.mem_transit he)
  cases e with
  | completed peer bundle =>
      obtain rfl : m.toBundleID = bundle := hcarries
      obtain ⟨peerNode, hpeerNode⟩ := EID.exists_getNode hfaithful.1
      obtain ⟨node, hnode⟩ := EID.exists_getNode hfaithful.2
      obtain ⟨b, hdelivers⟩ : ∃ b, BaseRouter.delivers peer m = .ok b := by
        rw [BaseRouter.delivers, hpeerNode, hnode]
        exact ⟨_, rfl⟩
      have hdb : (if b = true then s.router.addPurgedBundle m else s.router).neighborDatabase =
          s.router.neighborDatabase := by
        split_ifs <;> rfl
      have hout : (TransferEvent.handle env s.router m
          (.completed peer m.toBundleID)).router.neighborDatabase = db.addBundle peer m := by
        rw [TransferEvent.handle, BaseRouter.raiseEvent, BaseRouter.raiseTransferCompleted,
          hdelivers]
        dsimp only
        rw [hdb, show s.router.neighborDatabase.modify peer
          (NeighborEntry.releaseTransfer m.toBundleID) = .ok db from hrelease]
      have hkeeps : db.Keeps (db.addBundle peer m) := NeighborDatabase.keeps_addBundle peer m
      refine ⟨fun _ => ?_, by rintro ⟨⟩⟩
      rw [hout]
      exact ⟨hkeeps.inOrder horder, takes_of_keeps htakes hkeeps⟩
  | aborted peer bundle reason =>
      have hout : db.Keeps (TransferEvent.handle env s.router m
          (.aborted peer bundle reason)).router.neighborDatabase := by
        rw [TransferEvent.handle, BaseRouter.raiseEvent, BaseRouter.raiseTransferAborted,
          show s.router.neighborDatabase.modify peer (NeighborEntry.releaseTransfer bundle) =
            .ok db from hrelease]
        dsimp only
        split_ifs
        · split
          · exact .refl db
          · exact NeighborDatabase.keeps_addBundle peer _
        · exact .refl db
      exact ⟨fun _ => ⟨hout.inOrder horder, takes_of_keeps htakes hout⟩, by rintro ⟨⟩⟩
  | requeued peer bundle => exact ⟨by rintro ⟨⟩, fun _ => ⟨.refl _, rfl⟩⟩

omit [Storage σ] [BloomFilter F] in
theorem Balanced.handle (h : s.Balanced) {e : TransferEvent} (he : e ∈ s.pending)
    {o : RouterOutcome σ F} (ho : s.Handles e o) :
    ({ s with
      router := o.router, pending := s.pending.erase e
      handled := if o.escapes.isSome then s.handled else s.handled ++ [e] } :
        TransferSlots σ F).Balanced := by
  have hpending := outstanding_erase_pending he
  cases hrequeued : e.isRequeued with
  | false =>
      obtain ⟨horder, htakes⟩ := ho.gives hrequeued
      refine h.of_gives horder htakes (hpending.trans (.of_eq (congrArg (e.place :: ·) ?_)))
      have hfilter : (s.handled ++ [e]).filter TransferEvent.isRequeued =
          s.handled.filter TransferEvent.isRequeued := by
        rw [List.filter_append, List.filter_singleton, hrequeued]
        exact List.append_nil _
      rw [outstanding, outstanding]
      split_ifs
      · rfl
      · rw [hfilter]
  | true =>
      obtain ⟨hkeeps, hescapes⟩ := ho.keeps hrequeued
      refine h.of_perm hkeeps (List.perm_iff_count.2 fun p => ?_)
      have hcount := hpending.count_eq p
      rw [hescapes]
      simp only [outstanding, List.count_append, List.count_cons, List.filter_append,
        List.filter_singleton, hrequeued, List.map_append, List.map_cons, List.map_nil,
        List.count_nil, Option.isSome_none, Bool.false_eq_true, if_false, cond_true] at hcount ⊢
      omega

omit [Storage σ] [BloomFilter F] in
/-- A layer has come to the end of a job, and has raised an event about it. -/
theorem Balanced.settle (h : s.Balanced) {job : Job} (hjob : job ∈ s.jobs) {e : TransferEvent}
    (he : e.IsAbout job) : ({ s with
      jobs := s.jobs.erase job, pending := s.pending ++ [e] } : TransferSlots σ F).Balanced := by
  have hplace : e.place = job.place := by
    rw [TransferEvent.place, he.1, he.2, ConvergenceLayer.Job.place]
  refine h.of_perm (.refl _) (List.perm_iff_count.2 fun p => ?_)
  have hcount := ((List.perm_cons_erase hjob).map ConvergenceLayer.Job.place).count_eq p
  simp only [outstanding, List.count_append, List.count_cons, List.map_append, List.map_cons,
    List.map_nil, List.count_nil, hplace] at hcount ⊢
  omega

omit [Storage σ] [BloomFilter F] in
/-- What the extension schedules and reports is under way. -/
theorem perm_inform {e : RetransmissionExtension.Event} {ps : List Pair}
    (h : ((s.retransmission.notify e).1.queue.map RetransmissionData.place ++
      ((s.retransmission.notify e).2.filterMap (·.event?)).map TransferEvent.place).Perm
        (ps ++ s.retransmission.queue.map RetransmissionData.place)) :
    (s.inform e).outstanding.Perm (ps ++ s.outstanding) := by
  refine List.perm_iff_count.2 fun p => ?_
  have hcount := h.count_eq p
  simp only [outstanding, inform, List.count_append, List.map_append] at hcount ⊢
  omega

/-- **A retransmission is scheduled or reported**, if the extension finds what was requeued. -/
theorem perm_notify {x : RetransmissionExtension} (now : UInt64) {e : TransferEvent}
    (h : ∀ peer bundle, e = .requeued peer bundle → ∀ a, x.find? bundle = some a →
      a.pair = (bundle, peer)) :
    ((x.notify (e.toEvent now)).1.queue.map RetransmissionData.place ++
      ((x.notify (e.toEvent now)).2.filterMap (·.event?)).map TransferEvent.place).Perm
        (([e].filter TransferEvent.isRequeued).map TransferEvent.place ++
          x.queue.map RetransmissionData.place) := by
  cases e with
  | completed | aborted => exact .of_eq (List.append_nil _)
  | requeued peer bundle =>
      have hpush (y : RetransmissionExtension) (a : RetransmissionData)
          (ha : a.place = (peer.getString, bundle)) :
          ((y.push a).queue.map RetransmissionData.place).Perm
            ((peer.getString, bundle) :: y.queue.map RetransmissionData.place) := by
        rw [RetransmissionExtension.push, List.map_append, List.map_singleton, ha]
        exact List.perm_append_comm
      rw [TransferEvent.toEvent, RetransmissionExtension.notify]
      cases hfind : x.find? bundle with
      | none =>
          rw [List.filterMap_nil, List.map_nil, List.append_nil]
          exact hpush x (.create now bundle peer) rfl
      | some a =>
          dsimp only
          split_ifs
          · rw [List.filterMap_nil, List.map_nil, List.append_nil]
            refine hpush (x.erase bundle) (a.increment now) ?_
            obtain ⟨hid, hdest⟩ := Prod.mk.inj (h peer bundle rfl a hfind)
            rw [RetransmissionData.place, RetransmissionData.increment, hid, hdest]
          · exact List.perm_append_comm

omit [Storage σ] [BloomFilter F] in
theorem Balanced.notify (h : s.Balanced) (now : UInt64) {e : TransferEvent} (he : e ∈ s.handled)
    (hfaithful : s.Faithful (.notify now e)) :
    (({ s with handled := s.handled.erase e } : TransferSlots σ F).inform
      (e.toEvent now)).Balanced := by
  refine h.of_perm (.refl _) ((perm_inform (perm_notify now ?_)).trans ?_)
  · rintro peer bundle rfl
    exact hfaithful
  · refine List.perm_iff_count.2 fun p => ?_
    have hcount := (((List.perm_cons_erase he).filter TransferEvent.isRequeued).map
      TransferEvent.place).count_eq p
    rw [← List.singleton_append, List.filter_append] at hcount
    simp only [outstanding, List.count_append, List.map_append] at hcount ⊢
    omega

omit [Storage σ] [BloomFilter F] in
theorem Balanced.expire (h : s.Balanced) (bundle : BundleID) :
    (s.inform (.bundleExpired bundle)).Balanced := by
  have hevents (queue : List RetransmissionData) : ((queue.map fun a =>
      RetransmissionExtension.Effect.transferAborted a.destination a.bundleID
        .bundleDeleted).filterMap (·.event?)).map TransferEvent.place =
          queue.map RetransmissionData.place := by
    rw [List.filterMap_map, List.map_filterMap]
    exact congrFun (List.filterMap_eq_map' (f := RetransmissionData.place)) queue
  have hperm : (s.inform (.bundleExpired bundle)).outstanding.Perm ([] ++ s.outstanding) := by
    refine perm_inform ?_
    rw [RetransmissionExtension.notify, RetransmissionExtension.rotate_queue]
    dsimp only
    rw [hevents, List.nil_append, ← List.map_append]
    refine List.Perm.map _ (List.perm_append_comm.trans ?_)
    exact List.filter_append_perm _ _
  exact h.of_perm (.refl _) hperm

omit [Storage σ] [BloomFilter F] in
/-- The transfer that is scheduled first is taken up again. -/
theorem Balanced.tick (h : s.Balanced) {m : ConnectionManager} (hm : m.Settles)
    (timestamp : UInt64) : (s.tick m timestamp).Balanced := by
  rw [TransferSlots.tick, RetransmissionExtension.notify]
  cases hqueue : s.retransmission.queue with
  | nil => exact h
  | cons a queue =>
      dsimp only
      split_ifs with hdue
      · obtain ⟨hperm, hrouter, hextension⟩ := outstanding_submit (s := s) hm
          ⟨a.bundleID, a.destination⟩
        dsimp only
        rw [hm.escapes, if_neg Bool.false_ne_true]
        refine h.of_perm ?_ (List.perm_iff_count.2 fun p => ?_)
        · change s.database.Keeps (s.submit m ⟨a.bundleID, a.destination⟩).database
          rw [database, database, hrouter]
          exact .refl _
        · have hcount := hperm.count_eq p
          have hplace : ConvergenceLayer.Job.place ⟨a.bundleID, a.destination⟩ = a.place := rfl
          simp only [outstanding, hextension, hqueue, List.count_append, List.count_cons,
            List.map_cons, hplace] at hcount ⊢
          omega
      · exact h

/-! ### Runs -/

/-- **No step loses a transfer.** -/
theorem Balanced.step (h : s.Balanced) {a : SlotAction} (hfaithful : s.Faithful a)
    (hstep : s.step a = some s') : s'.Balanced := by
  cases a with
  | event env e =>
      rw [TransferSlots.step] at hstep
      split_ifs at hstep with htransfer
      obtain rfl := Option.some.inj hstep
      exact h.of_perm (keeps_raiseEvent env s.router (Bool.eq_false_iff.2 htransfer)) (.refl _)
  | transferTo m peer bundle =>
      obtain rfl := Option.some.inj hstep
      exact h.transferTo hfaithful peer bundle
  | settle job es =>
      rw [TransferSlots.step] at hstep
      split_ifs at hstep with hjob
      obtain rfl := Option.some.inj hstep
      obtain ⟨e, he, rfl⟩ := hfaithful
      exact h.settle hjob he
  | handle env e m =>
      rw [TransferSlots.step] at hstep
      split_ifs at hstep with he
      obtain rfl := Option.some.inj hstep
      exact h.handle he.1 (h.handles he.1 he.2 hfaithful)
  | notify now e =>
      rw [TransferSlots.step] at hstep
      split_ifs at hstep with he
      obtain rfl := Option.some.inj hstep
      exact h.notify now he hfaithful
  | tick m timestamp =>
      obtain rfl := Option.some.inj hstep
      exact h.tick hfaithful timestamp
  | expire bundle =>
      obtain rfl := Option.some.inj hstep
      exact h.expire bundle

/-- A node that has just been started. -/
def start (storage : σ) (extensions : List Extension) : TransferSlots σ F :=
  ⟨.create storage extensions, ⟨[], []⟩, [], [], []⟩

omit [Storage σ] in
theorem balanced_start (storage : σ) (extensions : List Extension) :
    (start storage extensions : TransferSlots σ F).Balanced where
  inOrder := ⟨fun _ _ => nofun, fun _ => .nil⟩
  count_eq _ _ := rfl

/-- **No slot is lost** as long as the steps are faithful: when nothing is under way, no neighbor
has a bundle in transit; and a bundle is in transit to a neighbor, and under way to it, at most
once. -/
theorem released_run {storage : σ} {extensions : List Extension} {as : List SlotAction}
    {s : TransferSlots σ F}
    (hrun : Run (fun s a s' => s.step a = some s') Faithful (start storage extensions) as s) :
    (s.Idle → ∀ eid e, s.database.find? eid = some e → e.transitBundles = []) ∧
      ∀ (eid : EID) (i : BundleID), (s.database.transit eid).count i ≤ 1 ∧
        s.outstanding.count (eid.getString, i) ≤ 1 := by
  have h : s.Balanced := hrun.invariant (balanced_start storage extensions)
    fun _ _ _ h hfaithful hstep => h.step hfaithful hstep
  refine ⟨fun ⟨hjobs, hpending, hhandled, hqueue⟩ eid e he => ?_, fun eid i => ?_⟩
  · rw [← NeighborDatabase.transit_of_find? he]
    refine List.eq_nil_iff_forall_not_mem.2 fun i hi => ?_
    have hnone : s.outstanding = [] := by
      rw [outstanding, hjobs, hpending, hhandled, hqueue]
      rfl
    have hcount := h.count_eq eid i
    rw [hnone, List.count_nil] at hcount
    exact List.count_eq_zero.1 hcount.symm hi
  · have hnodup : (s.database.transit eid).Nodup :=
      (h.inOrder.sorted eid).imp fun {i j} hlt heq => by
        rw [heq, BundleID.lt_self] at hlt
        cases hlt
    rw [h.count_eq]
    exact ⟨List.nodup_iff_count_le_one.1 hnodup i, List.nodup_iff_count_le_one.1 hnodup i⟩

/-! ### Slots that are lost -/

/-- The nodes `dtn://b` and `dtn://c`. -/
def sampleB : EID := ⟨EID.defaultScheme, ascii ['/', '/', 'b']⟩
def sampleC : EID := ⟨EID.defaultScheme, ascii ['/', '/', 'c']⟩

/-- Both are neighbors, and the layer for datagrams accepts their jobs. -/
def sampleManager : ConnectionManager where
  nodes := [⟨sampleB, [(.dgramUDP, [])]⟩, ⟨sampleC, [(.dgramUDP, [])]⟩]
  layers := [⟨.dgramUDP, DatagramConvergenceLayer.queue .dgramUDP fun _ _ => .accepted⟩]

theorem settles_sampleManager : sampleManager.Settles := by
  intro l hl n job hhas _
  obtain rfl := List.mem_singleton.1 hl
  have haccepted : ∀ (uri : Bytes) (job : Job), Answer.accepted.Settles job := fun _ _ => trivial
  exact DatagramConvergenceLayer.settles_queue haccepted hhas job

/-- A bundle to the given endpoint. -/
def sampleMeta (destination : EID) : MetaBundle :=
  .ofBundle (.showing 0) { Bundle.create 1 1 with destination }

def sampleID : BundleID := (sampleMeta sampleB).toBundleID

/-- Security checks that find nothing. -/
def sampleEnv : RouterEnv := ⟨.showing 0, EID.none, .ok⟩

/-- The transfer is completed, and the event is handled. -/
def complete (peer : EID) (m : MetaBundle) : List SlotAction :=
  [.settle ⟨m.toBundleID, peer⟩ [.completed peer m.toBundleID],
    .handle sampleEnv (.completed peer m.toBundleID) m, .notify 0 (.completed peer m.toBundleID)]

/-- The transfer is interrupted, and scheduled again. -/
def requeue (peer : EID) : List SlotAction :=
  [.settle ⟨sampleID, peer⟩ [.requeued peer sampleID],
    .handle sampleEnv (.requeued peer sampleID) (sampleMeta sampleB),
    .notify 0 (.requeued peer sampleID)]

/-- The neighbor appears, and the bundle is transferred to it. -/
def transfer (peer : EID) : List SlotAction :=
  [.event sampleEnv (.nodeAvailable peer), .transferTo sampleManager peer sampleID]

/-- A node that has just been started. -/
def sampleStart : TransferSlots MemoryBundleStorage CellFilter :=
  start (.create 0) RoutingExtension.defaultRouting.extensions

/-- The node behind these steps. -/
def after (as : List SlotAction) : Option (TransferSlots MemoryBundleStorage CellFilter) :=
  as.foldlM step sampleStart

/-- The bundle is transferred to a neighbor, requeued, taken up again, and transferred. -/
def sampleActions : List SlotAction :=
  transfer sampleB ++ requeue sampleB ++ [.tick sampleManager 9] ++
    complete sampleB (sampleMeta sampleB)

theorem released_run_sample : ∃ s,
    Run (fun s a s' => s.step a = some s') Faithful sampleStart sampleActions s ∧ s.Idle ∧
      ∀ eid e, s.database.find? eid = some e → e.transitBundles = [] := by
  have hidle : (after sampleActions).any fun s => decide s.Idle := by decide +kernel
  obtain ⟨s, hafter, hidle⟩ := (Option.any_eq_true _ _).1 hidle
  have hidle : s.Idle := of_decide_eq_true hidle
  have hrun : Run (fun s a s' => s.step a = some s') Faithful sampleStart sampleActions s := by
    obtain rfl := Option.some.inj ((show after sampleActions = some _ from rfl).symm.trans hafter)
    refine .snoc (.snoc (.snoc (.snoc (.snoc (.snoc (.snoc (.snoc (.snoc .nil trivial rfl)
      settles_sampleManager rfl) ⟨_, ⟨rfl, rfl⟩, rfl⟩ rfl) trivial rfl) nofun rfl)
      settles_sampleManager rfl) ⟨_, ⟨rfl, rfl⟩, rfl⟩ rfl) ⟨by decide, by decide⟩ rfl) trivial rfl
  exact ⟨s, hrun, hidle, (released_run hrun).1 hidle⟩

/-- **Slots are lost**: a layer ends a job without an event, or with two; the handler for the
completed transfer of a bundle to `dtn:` throws; and when a bundle is requeued for two neighbors,
both retransmissions go to the first of them. -/
theorem not_released_run :
    (after (transfer sampleB ++ [.settle ⟨sampleID, sampleB⟩ []])).map
      (fun s => (decide s.Idle, s.database.transit sampleB)) = some (true, [sampleID]) ∧
    (after (transfer sampleB ++
      [.settle ⟨sampleID, sampleB⟩ [.requeued sampleB sampleID, .requeued sampleB sampleID]])).map
      (fun s => s.outstanding.count (sampleB.getString, sampleID)) = some 2 ∧
    (after (transfer sampleB ++ (complete sampleB (sampleMeta ⟨EID.defaultScheme, []⟩)).take 2)).map
      (fun s => (decide s.Idle, s.database.transit sampleB)) = some (true, [sampleID]) ∧
    (after (transfer sampleB ++ transfer sampleC ++ requeue sampleB ++ requeue sampleC ++
      [.tick sampleManager 9, .tick sampleManager 9])).map
      (fun s => (s.outstanding.count (sampleB.getString, sampleID),
        s.database.transit sampleC)) = some (2, [sampleID]) ∧
    (after (transfer sampleB ++ transfer sampleC ++ requeue sampleB ++ requeue sampleC ++
      [.tick sampleManager 9, .tick sampleManager 9] ++ complete sampleB (sampleMeta sampleB) ++
        complete sampleB (sampleMeta sampleB))).map
      (fun s => (decide s.Idle, s.database.transit sampleC)) = some (true, [sampleID]) := by
  refine ⟨?_, ?_, ?_, ?_, ?_⟩ <;> decide +kernel

end TransferSlots

end IbrDtn
