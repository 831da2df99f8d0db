import IbrDtn.Data.Eid
import IbrDtn.Library.Contributions

/-!
# The neighbors of a node

This file models `net/ConnectionManager.cpp` as it keeps the list of the neighbors, and what it uses
of `core/Node.cpp`.  Discovered services, static connections and connections that come up contribute
URIs and attributes to the node of an EID, static connections and connections that go down withdraw
theirs, and at every tick of the clock the contributions expire whose time has come.

## Main definitions

* `Core.Node` : a node with its URIs and attributes, each set in the order of its comparator.
* `ConnectionManager.run` : the neighbors and the announcements behind a sequence of actions.
* `ConnectionManager.Remains` : a contribution that is left behind a sequence of actions.
* `ConnectionManager.Alternating` : announcements that alternate.

## Main results

* `ConnectionManager.announces_run` : the announcements of every node alternate, and a node is held
  between them, until a tick at which none of its contributions is left.
-/

namespace IbrDtn

namespace Core

/-! ### Nodes -/

/-- `Node::Protocol`. -/
inductive Protocol where
  | unsupported
  | undefined
  | tcpip
  | udpip
  | lowpan
  | bluetooth
  | http
  | file
  | dgramUDP
  | dgramLowpan
  | dgramEthernet
deriving DecidableEq, Repr

/-- The numbers of the protocols. -/
def Protocol.value : Protocol → ℤ
  | .unsupported => -1
  | .undefined => 0
  | .tcpip => 1
  | .udpip => 2
  | .lowpan => 3
  | .bluetooth => 4
  | .http => 5
  | .file => 6
  | .dgramUDP => 7
  | .dgramLowpan => 8
  | .dgramEthernet => 9

/-- `Node::Type`. -/
inductive NodeType where
  | unavailable
  | connected
  | discovered
  | static
deriving DecidableEq, Repr

/-- The numbers of the types. -/
def NodeType.value : NodeType → ℤ
  | .unavailable => 0
  | .connected => 1
  | .discovered => 2
  | .static => 3

theorem Protocol.value_injective : Function.Injective Protocol.value := by
  intro p q
  cases p <;> cases q <;> simp [Protocol.value]

theorem NodeType.value_injective : Function.Injective NodeType.value := by
  intro t u
  cases t <;> cases u <;> simp [NodeType.value]

/-- `class Node::URI`, without its expiry time. -/
structure URI where
  type : NodeType
  protocol : Protocol
  value : Bytes
deriving DecidableEq, Repr

/-- `class Node::Attribute`, without its value and its expiry time. -/
structure Attribute where
  type : NodeType
  name : Bytes
deriving DecidableEq, Repr

/-- `operator<(const std::string&, const std::string&)`. -/
def stringLt (s t : Bytes) : Bool := decide (s.map UInt8.toNat < t.map UInt8.toNat)

/-- `Node::URI::operator<`. -/
def URI.lt (u other : URI) : Bool :=
  if u.protocol.value < other.protocol.value then true
  else if u.protocol ≠ other.protocol then false
  else if u.type.value < other.type.value then true
  else if u.type ≠ other.type then false
  else stringLt u.value other.value

/-- `Node::Attribute::operator<`. -/
def Attribute.lt (a other : Attribute) : Bool :=
  if stringLt a.name other.name then true
  else if a.name ≠ other.name then false
  else decide (a.type.value < other.type.value)

/-- The place of a URI in the order. -/
def URI.rank (u : URI) : ℤ ×ₗ ℤ ×ₗ List ℕ :=
  toLex (u.protocol.value, toLex (u.type.value, u.value.map UInt8.toNat))

/-- The place of an attribute in the order. -/
def Attribute.rank (a : Attribute) : List ℕ ×ₗ ℤ := toLex (a.name.map UInt8.toNat, a.type.value)

theorem map_toNat_injective : Function.Injective (List.map UInt8.toNat) :=
  List.map_injective_iff.2 fun _ _ => UInt8.toNat_inj.1

/-- **The comparator of URIs tells them apart.** -/
theorem URI.total : OrderedSet.Total URI.lt URI.rank := by
  refine OrderedSet.Ordered.total (fun u v => ?_) fun u v h => ?_
  · rw [URI.lt, URI.rank, URI.rank, Prod.Lex.toLex_lt_toLex, Prod.Lex.toLex_lt_toLex]
    by_cases hprotocol : u.protocol = v.protocol
    · by_cases htype : u.type = v.type
      · simp [hprotocol, htype, stringLt]
      · have hne := NodeType.value_injective.ne htype
        simp [hprotocol, htype, hne]
    · have hne := Protocol.value_injective.ne hprotocol
      simp [hprotocol, hne]
  · simp only [URI.rank, EmbeddingLike.apply_eq_iff_eq, Prod.mk.injEq] at h
    obtain ⟨hprotocol, htype, hvalue⟩ := h
    cases u
    cases v
    simp_all [Protocol.value_injective.eq_iff, NodeType.value_injective.eq_iff,
      map_toNat_injective.eq_iff]

/-- **The comparator of attributes tells them apart.** -/
theorem Attribute.total : OrderedSet.Total Attribute.lt Attribute.rank := by
  refine OrderedSet.Ordered.total (fun a b => ?_) fun a b h => ?_
  · rw [Attribute.lt, Attribute.rank, Attribute.rank, Prod.Lex.toLex_lt_toLex]
    by_cases hname : a.name = b.name
    · simp [hname, stringLt]
    · have hne := map_toNat_injective.ne hname
      simp [hname, stringLt, hne]
  · simp only [Attribute.rank, EmbeddingLike.apply_eq_iff_eq, Prod.mk.injEq] at h
    obtain ⟨hname, htype⟩ := h
    cases a
    cases b
    simp_all [NodeType.value_injective.eq_iff, map_toNat_injective.eq_iff]

/-- What `class Node` keeps of a neighbor: its URIs with their expiry times, and its attributes with
their values and expiry times. -/
structure Node where
  eid : EID
  uriList : List (URI × UInt64)
  attrList : List (Attribute × Bytes × UInt64)
  sorted_uriList : OrderedSet.Sorted URI.rank uriList
  sorted_attrList : OrderedSet.Sorted Attribute.rank attrList

/-- The contribution has expired at the time `ct`. -/
def gone (ct expire : UInt64) : Bool := decide (expire > 0) && decide (expire < ct)

namespace Node

/-- `Node::operator+=`. -/
def add (n other : Node) : Node where
  eid := n.eid
  uriList := OrderedSet.merge URI.lt n.uriList other.uriList
  attrList := OrderedSet.merge Attribute.lt n.attrList other.attrList
  sorted_uriList := URI.total.sorted_merge n.sorted_uriList other.uriList
  sorted_attrList := Attribute.total.sorted_merge n.sorted_attrList other.attrList

/-- `Node::operator-=`. -/
def sub (n other : Node) : Node where
  eid := n.eid
  uriList := OrderedSet.subtract URI.lt n.uriList other.uriList
  attrList := OrderedSet.subtract Attribute.lt n.attrList other.attrList
  sorted_uriList := OrderedSet.sorted_subtract n.sorted_uriList other.uriList
  sorted_attrList := OrderedSet.sorted_subtract n.sorted_attrList other.attrList

/-- What `Node::expire` leaves of the node at the time `ct`. -/
def expire (ct : UInt64) (n : Node) : Node where
  eid := n.eid
  uriList := OrderedSet.purge (gone ct) n.uriList
  attrList := OrderedSet.purge (fun a => gone ct a.2) n.attrList
  sorted_uriList := OrderedSet.sorted_purge _ n.sorted_uriList
  sorted_attrList := OrderedSet.sorted_purge _ n.sorted_attrList

/-- What `Node::expire` answers: all URIs and attributes are gone. -/
def isGone (n : Node) : Bool := n.attrList.isEmpty && n.uriList.isEmpty

/-- The expiry time of a URI or an attribute of the node. -/
def expiry (n : Node) : URI ⊕ Attribute → Option UInt64
  | .inl u => OrderedSet.value URI.lt u n.uriList
  | .inr a => (OrderedSet.value Attribute.lt a n.attrList).map Prod.snd

/-- **The latest contribution decides.** -/
theorem expiry_add (n other : Node) (k : URI ⊕ Attribute) :
    (n.add other).expiry k = (other.expiry k).or (n.expiry k) := by
  cases k with
  | inl u => exact URI.total.value_merge n.sorted_uriList other.sorted_uriList u
  | inr a =>
      rw [expiry, add, Attribute.total.value_merge n.sorted_attrList other.sorted_attrList a,
        Option.map_or]
      rfl

/-- What is withdrawn is left no more, and the rest stays. -/
theorem expiry_sub (n other : Node) (k : URI ⊕ Attribute) :
    (n.sub other).expiry k = if (other.expiry k).isSome then none else n.expiry k := by
  cases k with
  | inl u => exact URI.total.value_subtract n.sorted_uriList other.sorted_uriList u
  | inr a =>
      rw [expiry, sub, Attribute.total.value_subtract n.sorted_attrList other.sorted_attrList a,
        expiry, Option.isSome_map, expiry]
      split_ifs <;> rfl

/-- What expires is left no more, and the rest stays. -/
theorem expiry_expire (ct : UInt64) (n : Node) (k : URI ⊕ Attribute) :
    (n.expire ct).expiry k = (n.expiry k).filter fun e => !gone ct e := by
  cases k with
  | inl u => exact URI.total.value_purge _ n.sorted_uriList u
  | inr a =>
      rw [expiry, expire, Attribute.total.value_purge _ n.sorted_attrList a, expiry,
        Option.filter_map]
      rfl

theorem isGone_iff (n : Node) : n.isGone = true ↔ ∀ k, n.expiry k = none := by
  rw [isGone, Bool.and_eq_true, List.isEmpty_iff, List.isEmpty_iff,
    URI.total.eq_nil_iff n.sorted_uriList, Attribute.total.eq_nil_iff n.sorted_attrList]
  constructor
  · rintro ⟨hattr, huri⟩ k
    cases k with
    | inl u => exact huri u
    | inr a => rw [expiry, hattr a, Option.map_none]
  · intro h
    exact ⟨fun a => Option.map_eq_none_iff.1 (h (.inr a)), fun u => h (.inl u)⟩

end Node

end Core

namespace ConnectionManager

open IbrDtn.Core (Node URI Attribute gone)

/-! ### The list of the neighbors -/

/-- `EventNodeAction`, as the connection manager raises it. -/
inductive EventNodeAction where
  | nodeAvailable
  | nodeUnavailable
deriving DecidableEq, Repr

/-- `class NodeEvent`. -/
structure NodeEvent where
  node : Node
  action : EventNodeAction

/-- The list `_nodes`, and the events that were raised. -/
structure State where
  nodes : List Node
  raised : List NodeEvent

/-- The nodes with a change of the one that `getNode` finds, if it finds one. -/
def withNode (eid : EID) (f : Node → Node) : List Node → Option (List Node)
  | [] => none
  | n :: ns => if n.eid = eid then some (f n :: ns) else (withNode eid f ns).map (n :: ·)

/-- What contributions have in common: they are added to the node of their EID, which is announced
if it is new. -/
def contribute (s : State) (n : Node) : State :=
  match withNode n.eid (fun db => db.add n) s.nodes with
  | some nodes => { s with nodes }
  | none => ⟨s.nodes ++ [n], s.raised ++ [⟨n, .nodeAvailable⟩]⟩

/-- What withdrawals have in common: they are taken from the node of their EID, if there is one. -/
def withdraw (s : State) (n : Node) : State :=
  match withNode n.eid (fun db => db.sub n) s.nodes with
  | some nodes => { s with nodes }
  | none => s

/-- `ConnectionManager::discovered`. -/
def discovered (localEid : EID) (s : State) (n : Node) : State :=
  -- ignore messages of ourself
  if n.eid = localEid then s else contribute s n

/-- `ConnectionManager::addConnection`. -/
def addConnection (s : State) (n : Node) : State := contribute s n

/-- `ConnectionManager::removeConnection`. -/
def removeConnection (s : State) (n : Node) : State := withdraw s n

/-- `ConnectionManager::raiseEvent` for `CONNECTION_UP`, whose peer is the EID of its node. -/
def connectionUp (s : State) (n : Node) : State := contribute s n

/-- `ConnectionManager::raiseEvent` for `CONNECTION_DOWN`. -/
def connectionDown (s : State) (n : Node) : State := withdraw s n

/-- The loop of `check_unavailable`: the nodes that stay and the events. Every node looks at the
clock on its own. -/
def expireNodes (getTime : EID → UInt64) : List Node → List Node × List NodeEvent
  | [] => ([], [])
  | n :: ns =>
      let n := n.expire (getTime n.eid)
      let (nodes, raised) := expireNodes getTime ns
      if n.isGone then (nodes, ⟨n, .nodeUnavailable⟩ :: raised) else (n :: nodes, raised)

/-- `ConnectionManager::check_unavailable`. -/
def checkUnavailable (getTime : EID → UInt64) (s : State) : State :=
  ⟨(expireNodes getTime s.nodes).1, s.raised ++ (expireNodes getTime s.nodes).2⟩

/-- What the connection manager is told. A tick of the clock comes with the times that the nodes
read from it. -/
inductive Action where
  | discovered (n : Node)
  | addConnection (n : Node)
  | removeConnection (n : Node)
  | connectionUp (n : Node)
  | connectionDown (n : Node)
  | tick (getTime : EID → UInt64)

/-- The connection manager is told something. -/
def step (localEid : EID) (s : State) : Action → State
  | .discovered n => ConnectionManager.discovered localEid s n
  | .addConnection n => ConnectionManager.addConnection s n
  | .removeConnection n => ConnectionManager.removeConnection s n
  | .connectionUp n => ConnectionManager.connectionUp s n
  | .connectionDown n => ConnectionManager.connectionDown s n
  | .tick getTime => checkUnavailable getTime s

/-- A new connection manager is told one thing after another. -/
def run (localEid : EID) (actions : List Action) : State :=
  actions.foldl (step localEid) ⟨[], []⟩

/-- The node of the EID is held. -/
def State.holds (s : State) (eid : EID) : Bool := s.nodes.any fun n => decide (n.eid = eid)

/-- The announcements about the EID. -/
def State.announced (s : State) (eid : EID) : List EventNodeAction :=
  (s.raised.filter fun e => decide (e.node.eid = eid)).map NodeEvent.action

/-! ### What the neighbors should be -/

/-- The announcements about a node alternate and start with one that it is available; the flag says
whether the node is available behind them. -/
inductive Alternating : Bool → List EventNodeAction → Prop where
  | nil : Alternating false []
  | available {events : List EventNodeAction} (h : Alternating false events) :
      Alternating true (events ++ [.nodeAvailable])
  | unavailable {events : List EventNodeAction} (h : Alternating true events) :
      Alternating false (events ++ [.nodeUnavailable])

/-- What is announced about a node when it comes or goes; the flags say whether it was held and
whether it is. -/
def turn : Bool → Bool → List EventNodeAction
  | false, true => [.nodeAvailable]
  | true, false => [.nodeUnavailable]
  | false, false | true, true => []

/-- The node that an action contributes. -/
def Action.contribution (localEid : EID) : Action → Option Node
  | .discovered n => if n.eid = localEid then none else some n
  | .addConnection n | .connectionUp n => some n
  | .removeConnection _ | .connectionDown _ | .tick _ => none

/-- The node that an action withdraws. -/
def Action.withdrawal : Action → Option Node
  | .removeConnection n | .connectionDown n => some n
  | .discovered _ | .addConnection _ | .connectionUp _ | .tick _ => none

/-- The expiry time with which the action contributes the URI or attribute to the node of the
EID. -/
def Action.gives (localEid eid : EID) (k : URI ⊕ Attribute) (a : Action) : Option UInt64 :=
  (a.contribution localEid).bind fun n => if n.eid = eid then n.expiry k else none

/-- The action withdraws the URI or attribute from the node of the EID. -/
def Action.takes (eid : EID) (k : URI ⊕ Attribute) (a : Action) : Bool :=
  a.withdrawal.any fun n => decide (n.eid = eid) && (n.expiry k).isSome

/-- The action is a tick at which a contribution to the node of the EID expires. -/
def Action.ends (eid : EID) (expire : UInt64) : Action → Bool
  | .tick getTime => gone (getTime eid) expire
  | _ => false

/-- A contribution is left behind the actions: it was not replaced by a later one, nor withdrawn,
nor did it expire at a tick. -/
def Remains (localEid : EID) (actions : List Action) (eid : EID) (k : URI ⊕ Attribute)
    (expire : UInt64) : Prop :=
  ∃ before a after, actions = before ++ a :: after ∧ a.gives localEid eid k = some expire ∧
    ∀ b ∈ after, b.gives localEid eid k = none ∧ b.takes eid k = false ∧
      b.ends eid expire = false

/-- What is expected of the connection manager behind the actions. -/
structure Announces (localEid : EID) (actions : List Action) : Prop where
  unique : ((run localEid actions).nodes.map Node.eid).Nodup
  alternating : ∀ eid, Alternating ((run localEid actions).holds eid)
    ((run localEid actions).announced eid)
  remains : ∀ n ∈ (run localEid actions).nodes, ∀ k expire,
    n.expiry k = some expire ↔ Remains localEid actions n.eid k expire
  leaves : ∀ eid getTime, (run localEid actions).holds eid = true →
    ((run localEid (actions ++ [.tick getTime])).holds eid = false ↔
      ∀ k expire, ¬ Remains localEid (actions ++ [.tick getTime]) eid k expire)
  stays : ∀ eid a, (run localEid actions).holds eid = true →
    (∀ getTime, a ≠ .tick getTime) → (run localEid (actions ++ [a])).holds eid = true
  appears : ∀ eid a, (run localEid actions).holds eid = false →
    ((run localEid (actions ++ [a])).holds eid = true ↔
      ∃ n, a.contribution localEid = some n ∧ n.eid = eid)
  announces : ∀ eid a, (run localEid (actions ++ [a])).announced eid =
    (run localEid actions).announced eid ++
      turn ((run localEid actions).holds eid) ((run localEid (actions ++ [a])).holds eid)

/-! ### The operations on the list -/

section List

variable {eid : EID} {f : Node → Node} {ns : List Node}

theorem withNode_eq_none_iff : withNode eid f ns = none ↔ ∀ n ∈ ns, n.eid ≠ eid := by
  induction ns with
  | nil => exact iff_of_true rfl fun _ h => absurd h List.not_mem_nil
  | cons n ns ih =>
      rw [withNode, List.forall_mem_cons, ← ih]
      split_ifs with hn
      · exact iff_of_false nofun fun h => h.1 hn
      · rw [Option.map_eq_none_iff]
        exact (and_iff_right hn).symm

theorem withNode_append {l r : List Node} {n : Node} (hn : n.eid = eid)
    (hl : ∀ m ∈ l, m.eid ≠ eid) : withNode eid f (l ++ n :: r) = some (l ++ f n :: r) := by
  induction l with
  | nil => rw [List.nil_append, withNode, if_pos hn, List.nil_append]
  | cons m l ih =>
      rw [List.cons_append, withNode, if_neg (hl m List.mem_cons_self),
        ih fun m' hm' => hl m' (List.mem_cons_of_mem m hm'), Option.map_some, List.cons_append]

/-- A change that keeps the EID of a node keeps all of them. -/
theorem map_eid_withNode {ns' : List Node} (hf : ∀ n, (f n).eid = n.eid)
    (h : withNode eid f ns = some ns') : ns'.map Node.eid = ns.map Node.eid := by
  induction ns generalizing ns' with
  | nil => cases h
  | cons n ns ih =>
      rw [withNode] at h
      split_ifs at h
      · rw [← Option.some.inj h, List.map_cons, List.map_cons, hf]
      · obtain ⟨ms, hms, rfl⟩ := Option.map_eq_some_iff.1 h
        rw [List.map_cons, List.map_cons, ih hms]

/-- A node is the only one of its EID, or there is none. -/
theorem exists_of_unique (hunique : (ns.map Node.eid).Nodup) (eid : EID) :
    (∀ n ∈ ns, n.eid ≠ eid) ∨ ∃ l n r, ns = l ++ n :: r ∧ n.eid = eid ∧
      (∀ m ∈ l, m.eid ≠ eid) ∧ ∀ m ∈ r, m.eid ≠ eid := by
  by_cases h : ∀ n ∈ ns, n.eid ≠ eid
  · exact .inl h
  · push Not at h
    obtain ⟨n, hn, rfl⟩ := h
    obtain ⟨l, r, rfl⟩ := List.append_of_mem hn
    rw [List.map_append, List.map_cons, List.nodup_append] at hunique
    obtain ⟨-, hright, hne⟩ := hunique
    refine .inr ⟨l, n, r, rfl, rfl, fun m hm => ?_, fun m hm heq => ?_⟩
    · exact hne _ (List.mem_map_of_mem hm) _ List.mem_cons_self
    · exact (List.nodup_cons.1 hright).1 (heq ▸ List.mem_map_of_mem hm)

/-- What happens to the nodes of an EID happens to the only one. -/
theorem filter_eid_map {e : Node → Node} (he : ∀ n, (e n).eid = n.eid) (p : Node → Bool)
    {l r : List Node} {n : Node} (hl : ∀ m ∈ l, m.eid ≠ n.eid) (hr : ∀ m ∈ r, m.eid ≠ n.eid) :
    (((l ++ n :: r).map e).filter p).filter (fun m => decide (m.eid = n.eid)) =
      if p (e n) = true then [e n] else [] := by
  have hnone (ms : List Node) (hms : ∀ m ∈ ms, m.eid ≠ n.eid) :
      ((ms.map e).filter p).filter (fun m => decide (m.eid = n.eid)) = [] := by
    rw [List.filter_eq_nil_iff]
    intro m hm
    obtain ⟨m', hm', rfl⟩ := List.mem_map.1 (List.mem_of_mem_filter hm)
    rw [he, decide_eq_true_iff]
    exact hms m' hm'
  rw [List.map_append, List.map_cons, List.filter_append, List.filter_append, hnone l hl,
    List.nil_append, List.filter_cons]
  split_ifs with hp
  · rw [List.filter_cons, he, if_pos (decide_eq_true rfl), hnone r hr]
  · exact hnone r hr

/-- **The loop of `check_unavailable`** keeps the nodes that are not gone, and announces the others.
-/
theorem expireNodes_eq (getTime : EID → UInt64) (ns : List Node) :
    expireNodes getTime ns =
      ((ns.map fun n => n.expire (getTime n.eid)).filter fun n => !n.isGone,
        ((ns.map fun n => n.expire (getTime n.eid)).filter Node.isGone).map
          fun n => ⟨n, .nodeUnavailable⟩) := by
  induction ns with
  | nil => rfl
  | cons n ns ih =>
      rw [expireNodes, ih, List.map_cons]
      cases h : (n.expire (getTime n.eid)).isGone <;> simp [h]

end List

section State

variable {s : State} {eid : EID}

theorem holds_eq_false_iff : s.holds eid = false ↔ ∀ n ∈ s.nodes, n.eid ≠ eid := by
  simp [State.holds]

theorem holds_iff_filter :
    s.holds eid = !(s.nodes.filter fun n => decide (n.eid = eid)).isEmpty := by
  rw [State.holds, Bool.eq_iff_iff]
  simp

theorem holds_of_mem {n : Node} (hn : n ∈ s.nodes) : s.holds n.eid = true :=
  List.any_eq_true.2 ⟨n, hn, decide_eq_true rfl⟩

theorem holds_eq_of_eids {s' : State} (h : s'.nodes.map Node.eid = s.nodes.map Node.eid) :
    s'.holds eid = s.holds eid := by
  have hany (s : State) : s.holds eid = (s.nodes.map Node.eid).any fun e => decide (e = eid) := by
    rw [State.holds, List.any_map]
    rfl
  rw [hany, hany, h]

end State

/-! ### What one action announces -/

/-- The announcements alternate behind one more turn. -/
theorem Alternating.turn {held : Bool} {events : List EventNodeAction} (h : Alternating held events)
    (held' : Bool) : Alternating held' (events ++ turn held held') := by
  cases held <;> cases held'
  · rwa [ConnectionManager.turn, List.append_nil]
  · exact h.available
  · exact h.unavailable
  · rwa [ConnectionManager.turn, List.append_nil]

section Announcements

variable (s : State) (n : Node) (eid : EID)

/-- A node is held behind a contribution if it was, or if it is the one of the contribution. -/
theorem holds_contribute :
    (contribute s n).holds eid = (s.holds eid || decide (n.eid = eid)) := by
  rw [contribute]
  cases hnodes : withNode n.eid (fun db => db.add n) s.nodes with
  | some nodes =>
      have heids := map_eid_withNode (f := fun db => db.add n) (fun _ => rfl) hnodes
      rw [holds_eq_of_eids heids]
      by_cases heid : n.eid = eid
      · have hheld : s.holds n.eid = true := by
          by_contra hnot
          rw [Bool.not_eq_true, holds_eq_false_iff, ← withNode_eq_none_iff, hnodes] at hnot
          cases hnot
        rw [← heid, hheld, Bool.true_or]
      · rw [decide_eq_false heid, Bool.or_false]
  | none => simp [State.holds]

/-- A withdrawal removes no node. -/
theorem holds_withdraw : (withdraw s n).holds eid = s.holds eid := by
  rw [withdraw]
  split
  · next nodes hnodes =>
      exact holds_eq_of_eids (map_eid_withNode (f := fun db => db.sub n) (fun _ => rfl) hnodes)
  · rfl

/-- **A contribution announces its node if that is new.** -/
theorem announced_contribute : (contribute s n).announced eid =
    s.announced eid ++ turn (s.holds eid) ((contribute s n).holds eid) := by
  rw [holds_contribute, contribute]
  cases hnodes : withNode n.eid (fun db => db.add n) s.nodes with
  | some nodes =>
      have hturn : turn (s.holds eid) (s.holds eid || decide (n.eid = eid)) = [] := by
        by_cases heid : n.eid = eid
        · have hheld : s.holds n.eid = true := by
            by_contra hnot
            rw [Bool.not_eq_true, holds_eq_false_iff, ← withNode_eq_none_iff, hnodes] at hnot
            cases hnot
          rw [← heid, hheld]
          rfl
        · rw [decide_eq_false heid, Bool.or_false]
          cases s.holds eid <;> rfl
      rw [hturn, List.append_nil]
      rfl
  | none =>
      have hnone := holds_eq_false_iff.2 (withNode_eq_none_iff.1 hnodes)
      by_cases heid : n.eid = eid
      · rw [← heid, hnone]
        simp [State.announced, turn]
      · rw [decide_eq_false heid, Bool.or_false]
        cases s.holds eid <;> simp [State.announced, turn, heid]

/-- A withdrawal announces nothing. -/
theorem announced_withdraw : (withdraw s n).announced eid =
    s.announced eid ++ turn (s.holds eid) ((withdraw s n).holds eid) := by
  have hturn : turn (s.holds eid) (s.holds eid) = [] := by
    cases s.holds eid <;> rfl
  rw [holds_withdraw, hturn, List.append_nil, withdraw]
  split <;> rfl

variable {s}

/-- **A tick announces the nodes of which nothing is left.** -/
theorem announced_checkUnavailable (hunique : (s.nodes.map Node.eid).Nodup)
    (getTime : EID → UInt64) : (checkUnavailable getTime s).announced eid =
      s.announced eid ++ turn (s.holds eid) ((checkUnavailable getTime s).holds eid) := by
  have hannounced : (checkUnavailable getTime s).announced eid = s.announced eid ++
      (((s.nodes.map fun n => n.expire (getTime n.eid)).filter Node.isGone).filter
        fun n => decide (n.eid = eid)).map fun _ => .nodeUnavailable := by
    rw [State.announced, checkUnavailable, expireNodes_eq, List.filter_append, List.map_append,
      List.filter_map, List.map_map]
    rfl
  have hholds : (checkUnavailable getTime s).holds eid =
      !(((s.nodes.map fun n => n.expire (getTime n.eid)).filter fun n => !n.isGone).filter
        fun n => decide (n.eid = eid)).isEmpty := by
    rw [holds_iff_filter, checkUnavailable, expireNodes_eq]
  rcases exists_of_unique hunique eid with hnone | ⟨xs, n, ys, hnodes, rfl, hxs, hys⟩
  · have hempty (p : Node → Bool) :
        ((s.nodes.map fun n => n.expire (getTime n.eid)).filter p).filter
          (fun n => decide (n.eid = eid)) = [] := by
      rw [List.filter_eq_nil_iff]
      intro m hm
      obtain ⟨n, hn, rfl⟩ := List.mem_map.1 (List.mem_of_mem_filter hm)
      rw [decide_eq_true_iff]
      exact hnone n hn
    rw [hannounced, hholds, hempty, hempty, holds_eq_false_iff.2 hnone]
    rfl
  · have hmem : n ∈ s.nodes := hnodes ▸ List.mem_append_right _ List.mem_cons_self
    have hsame (n : Node) : (n.expire (getTime n.eid)).eid = n.eid := rfl
    rw [hannounced, hholds, holds_of_mem hmem, hnodes, filter_eid_map hsame _ hxs hys,
      filter_eid_map hsame _ hxs hys]
    cases (n.expire (getTime n.eid)).isGone <;> rfl

end Announcements

/-! ### What one action keeps -/

/-- The list agrees with what is left for every EID and key, and with the announcements. -/
structure Tracks (l : EID → URI ⊕ Attribute → Option UInt64) (s : State) : Prop where
  unique : (s.nodes.map Node.eid).Nodup
  alternating : ∀ eid, Alternating (s.holds eid) (s.announced eid)
  expiry : ∀ n ∈ s.nodes, ∀ k, n.expiry k = l n.eid k
  absent : ∀ eid, s.holds eid = false → ∀ k, l eid k = none

section Step

variable {l : EID → URI ⊕ Attribute → Option UInt64} {s : State} (h : Tracks l s)

include h

/-- A change of a node that keeps its EID keeps the list, up to what is left of the node. -/
theorem Tracks.replace {l' : EID → URI ⊕ Attribute → Option UInt64} {f : Node → Node} {n : Node}
    {xs ys : List Node} (hnodes : s.nodes = xs ++ n :: ys) (hf : (f n).eid = n.eid)
    (hxs : ∀ m ∈ xs, m.eid ≠ n.eid) (hys : ∀ m ∈ ys, m.eid ≠ n.eid)
    (hl : ∀ eid ≠ n.eid, ∀ k, l' eid k = l eid k) (hn : ∀ k, (f n).expiry k = l' n.eid k) :
    Tracks l' { s with nodes := xs ++ f n :: ys } := by
  have heids : (xs ++ f n :: ys).map Node.eid = s.nodes.map Node.eid := by
    rw [hnodes, List.map_append, List.map_cons, List.map_append, List.map_cons, hf]
  have hholds (eid : EID) :
      State.holds { s with nodes := xs ++ f n :: ys } eid = s.holds eid := holds_eq_of_eids heids
  refine ⟨heids ▸ h.unique, fun eid => hholds eid ▸ h.alternating eid, fun m hm k => ?_,
    fun eid heid k => ?_⟩
  · have hother (m : Node) (hne : m.eid ≠ n.eid) (hmem : m ∈ s.nodes) :
        m.expiry k = l' m.eid k := by
      rw [hl m.eid hne, h.expiry m hmem]
    rcases List.mem_append.1 hm with hm | hm
    · exact hother m (hxs m hm) (hnodes ▸ List.mem_append_left _ hm)
    · rcases List.mem_cons.1 hm with rfl | hm
      · rw [hn, hf]
      · exact hother m (hys m hm) (hnodes ▸ List.mem_append_right _ (List.mem_cons_of_mem n hm))
  · rw [hholds] at heid
    have hne : eid ≠ n.eid := by
      rintro rfl
      have hmem : n ∈ s.nodes := hnodes ▸ List.mem_append_right _ List.mem_cons_self
      rw [holds_of_mem hmem] at heid
      cases heid
    rw [hl eid hne, h.absent eid heid]

/-- **A contribution is added to what is left**, and announces its node if that is new. -/
theorem Tracks.contribute (n : Node) :
    Tracks (fun eid k => if n.eid = eid then (n.expiry k).or (l eid k) else l eid k)
      (contribute s n) := by
  rcases exists_of_unique h.unique n.eid with hnone | ⟨xs, db, ys, hnodes, hdb, hxs, hys⟩
  · have habsent := holds_eq_false_iff.2 hnone
    have halternating (eid : EID) :=
      (h.alternating eid).turn ((ConnectionManager.contribute s n).holds eid)
    simp only [← announced_contribute] at halternating
    rw [ConnectionManager.contribute, withNode_eq_none_iff.2 hnone] at halternating ⊢
    refine ⟨?_, halternating, fun m hm k => ?_, fun eid heid k => ?_⟩
    · rw [List.map_append, List.map_singleton, List.nodup_append]
      refine ⟨h.unique, List.nodup_singleton _, fun e he e' he' => ?_⟩
      obtain ⟨m, hm, rfl⟩ := List.mem_map.1 he
      rw [List.mem_singleton.1 he']
      exact hnone m hm
    · rcases List.mem_append.1 hm with hm | hm
      · rw [if_neg (hnone m hm).symm]
        exact h.expiry m hm k
      · rw [List.mem_singleton.1 hm, if_pos rfl, h.absent n.eid habsent, Option.or_none]
    · have hold := holds_eq_false_iff.1 heid
      have hne : n.eid ≠ eid := hold n (List.mem_append_right _ List.mem_cons_self)
      rw [if_neg hne]
      exact h.absent eid (holds_eq_false_iff.2 fun m hm => hold m (List.mem_append_left _ hm)) k
  · rw [ConnectionManager.contribute, hnodes, withNode_append hdb hxs]
    rw [← hdb] at hxs hys
    refine h.replace (f := fun db => db.add n) hnodes rfl hxs hys (fun eid hne k => ?_) fun k => ?_
    · rw [if_neg fun heq => hne (heq.symm.trans hdb.symm)]
    · have hmem : db ∈ s.nodes := hnodes ▸ List.mem_append_right _ List.mem_cons_self
      rw [if_pos hdb.symm, Node.expiry_add, h.expiry db hmem]

/-- **A withdrawal is taken from what is left**, and announces nothing. -/
theorem Tracks.withdraw (n : Node) :
    Tracks (fun eid k => if n.eid = eid ∧ (n.expiry k).isSome then none else l eid k)
      (withdraw s n) := by
  rcases exists_of_unique h.unique n.eid with hnone | ⟨xs, db, ys, hnodes, hdb, hxs, hys⟩
  · rw [ConnectionManager.withdraw, withNode_eq_none_iff.2 hnone]
    refine ⟨h.unique, h.alternating, fun m hm k => ?_, fun eid heid k => ?_⟩
    · rw [if_neg fun heq => hnone m hm heq.1.symm]
      exact h.expiry m hm k
    · split_ifs
      · rfl
      · exact h.absent eid heid k
  · rw [ConnectionManager.withdraw, hnodes, withNode_append hdb hxs]
    rw [← hdb] at hxs hys
    refine h.replace (f := fun db => db.sub n) hnodes rfl hxs hys (fun eid hne k => ?_) fun k => ?_
    · rw [if_neg fun heq => hne (heq.1.symm.trans hdb.symm)]
    · have hmem : db ∈ s.nodes := hnodes ▸ List.mem_append_right _ List.mem_cons_self
      rw [Node.expiry_sub, h.expiry db hmem]
      simp only [hdb, true_and]

/-- **A tick takes what has expired**, and announces the nodes of which nothing is left. -/
theorem Tracks.tick (getTime : EID → UInt64) :
    Tracks (fun eid k => (l eid k).filter fun e => !gone (getTime eid) e)
      (checkUnavailable getTime s) := by
  have hexpiry (n : Node) (hn : n ∈ s.nodes) (k : URI ⊕ Attribute) :
      (n.expire (getTime n.eid)).expiry k =
        (l n.eid k).filter fun e => !gone (getTime n.eid) e := by
    rw [Node.expiry_expire, h.expiry n hn]
  have hmem (m : Node) (hm : m ∈ (checkUnavailable getTime s).nodes) :
      ∃ n ∈ s.nodes, m = n.expire (getTime n.eid) := by
    rw [checkUnavailable, expireNodes_eq] at hm
    obtain ⟨n, hn, rfl⟩ := List.mem_map.1 (List.mem_of_mem_filter hm)
    exact ⟨n, hn, rfl⟩
  refine ⟨?_, fun eid => ?_, fun m hm k => ?_, fun eid heid k => ?_⟩
  · rw [checkUnavailable, expireNodes_eq]
    refine h.unique.sublist ?_
    have heids : (s.nodes.map fun n => n.expire (getTime n.eid)).map Node.eid =
        s.nodes.map Node.eid := by
      rw [List.map_map]
      rfl
    rw [← heids]
    exact List.filter_sublist.map _
  · rw [announced_checkUnavailable eid h.unique]
    exact (h.alternating eid).turn _
  · obtain ⟨n, hn, rfl⟩ := hmem m hm
    exact hexpiry n hn k
  · by_cases hheld : s.holds eid = false
    · rw [h.absent eid hheld k, Option.filter_none]
    · rw [Bool.not_eq_false, State.holds, List.any_eq_true] at hheld
      obtain ⟨n, hn, hneid⟩ := hheld
      obtain rfl := of_decide_eq_true hneid
      have hnot := holds_eq_false_iff.1 heid (n.expire (getTime n.eid))
      rw [checkUnavailable, expireNodes_eq] at hnot
      have hgone : (n.expire (getTime n.eid)).isGone = true := by
        by_contra hgone
        rw [Bool.not_eq_true] at hgone
        exact hnot (List.mem_filter.2 ⟨List.mem_map_of_mem hn, by rw [hgone]; rfl⟩) rfl
      rw [← hexpiry n hn]
      exact (Node.isGone_iff _).1 hgone k

end Step

/-! ### What is left behind a sequence of actions -/

/-- The expiry time of what is left, if anything. -/
def left (localEid : EID) (actions : List Action) (eid : EID) (k : URI ⊕ Attribute) :
    Option UInt64 :=
  actions.foldl (fun e a => (a.gives localEid eid k).or
    (if a.takes eid k then none else e.filter fun e => !a.ends eid e)) none

section History

variable {localEid eid : EID} {k : URI ⊕ Attribute} {actions : List Action}

theorem left_concat (a : Action) : left localEid (actions ++ [a]) eid k =
    (a.gives localEid eid k).or (if a.takes eid k then none else
      (left localEid actions eid k).filter fun e => !a.ends eid e) := by
  rw [left, List.foldl_append]
  rfl

/-- A contribution is left behind one more action if that makes it, or lets it be. -/
theorem remains_concat {a : Action} {e : UInt64} : Remains localEid (actions ++ [a]) eid k e ↔
    a.gives localEid eid k = some e ∨ a.gives localEid eid k = none ∧ a.takes eid k = false ∧
      a.ends eid e = false ∧ Remains localEid actions eid k e := by
  constructor
  · rintro ⟨before, b, after, hactions, hgives, hafter⟩
    rcases List.eq_nil_or_concat after with rfl | ⟨after, c, rfl⟩
    · obtain ⟨-, hlast⟩ := List.append_inj' hactions rfl
      obtain rfl : a = b := List.singleton_inj.1 hlast
      exact .inl hgives
    · rw [List.concat_eq_append, ← List.cons_append, ← List.append_assoc] at hactions
      rw [List.concat_eq_append] at hafter
      obtain ⟨heq, hlast⟩ := List.append_inj' hactions rfl
      obtain rfl : a = c := List.singleton_inj.1 hlast
      obtain ⟨hnone, htakes, hends⟩ := hafter a (List.mem_append_right _ List.mem_cons_self)
      exact .inr ⟨hnone, htakes, hends, before, b, after, heq, hgives,
        fun c hc => hafter c (List.mem_append_left _ hc)⟩
  · rintro (hgives | ⟨hnone, htakes, hends, before, b, after, rfl, hgives, hafter⟩)
    · exact ⟨actions, a, [], rfl, hgives, fun _ h => absurd h List.not_mem_nil⟩
    · refine ⟨before, b, after ++ [a], by simp, hgives, fun c hc => ?_⟩
      rcases List.mem_append.1 hc with hc | hc
      · exact hafter c hc
      · rw [List.mem_singleton.1 hc]
        exact ⟨hnone, htakes, hends⟩

/-- **What is left is the latest contribution**, unless it was withdrawn or has expired. -/
theorem left_eq_some_iff {e : UInt64} :
    left localEid actions eid k = some e ↔ Remains localEid actions eid k e := by
  induction actions using List.reverseRecOn with
  | nil =>
      refine iff_of_false (by rintro ⟨⟩) ?_
      rintro ⟨before, a, after, h, -⟩
      cases before <;> cases h
  | append_singleton actions a ih =>
      rw [left_concat, remains_concat, Option.or_eq_some_iff]
      refine or_congr_right (and_congr_right fun _ => ?_)
      cases a.takes eid k with
      | true => simp
      | false => simp [Option.filter_eq_some_iff, ih, and_comm]

end History

/-! ### Runs -/

section Runs

variable {localEid : EID} {actions : List Action}

theorem run_concat (a : Action) :
    run localEid (actions ++ [a]) = step localEid (run localEid actions) a := by
  rw [run, List.foldl_append]
  rfl

/-- Nothing is filtered out if nothing ends. -/
theorem filter_ends {a : Action} (hends : ∀ eid e, a.ends eid e = false) (eid : EID)
    (o : Option UInt64) : (o.filter fun e => !a.ends eid e) = o := by
  cases o with
  | none => rfl
  | some e => simp [hends]

/-- An action that only contributes. -/
theorem left_concat_contribution {a : Action} {n : Node}
    (hcontribution : a.contribution localEid = some n) (hwithdrawal : a.withdrawal = none)
    (hends : ∀ eid e, a.ends eid e = false) :
    left localEid (actions ++ [a]) = fun eid k => if n.eid = eid then
      (n.expiry k).or (left localEid actions eid k) else left localEid actions eid k := by
  funext eid k
  rw [left_concat, Action.gives, Action.takes, hcontribution, hwithdrawal, filter_ends hends]
  by_cases h : n.eid = eid
  · simp [h]
  · simp [h]

/-- An action that only withdraws. -/
theorem left_concat_withdrawal {a : Action} {n : Node}
    (hcontribution : a.contribution localEid = none) (hwithdrawal : a.withdrawal = some n)
    (hends : ∀ eid e, a.ends eid e = false) :
    left localEid (actions ++ [a]) = fun eid k => if n.eid = eid ∧ (n.expiry k).isSome then none
      else left localEid actions eid k := by
  funext eid k
  rw [left_concat, Action.gives, Action.takes, hcontribution, hwithdrawal, filter_ends hends]
  simp

/-- **The list tracks what is left**, whatever the connection manager is told. -/
theorem tracks_run (localEid : EID) (actions : List Action) :
    Tracks (left localEid actions) (run localEid actions) := by
  induction actions using List.reverseRecOn with
  | nil => exact ⟨List.nodup_nil, fun _ => .nil, fun _ h => absurd h List.not_mem_nil,
      fun _ _ _ => rfl⟩
  | append_singleton actions a ih =>
      rw [run_concat]
      cases a with
      | discovered n =>
          by_cases hlocal : n.eid = localEid
          · have hleft : left localEid (actions ++ [.discovered n]) = left localEid actions := by
              funext eid k
              rw [left_concat, Action.gives, Action.takes, Action.contribution, if_pos hlocal,
                filter_ends fun _ _ => rfl]
              rfl
            rw [step, discovered, if_pos hlocal, hleft]
            exact ih
          · have hcontribution : (Action.discovered n).contribution localEid = some n :=
              if_neg hlocal
            rw [step, discovered, if_neg hlocal,
              left_concat_contribution hcontribution rfl fun _ _ => rfl]
            exact ih.contribute n
      | addConnection n =>
          rw [left_concat_contribution rfl rfl fun _ _ => rfl]
          exact ih.contribute n
      | removeConnection n =>
          rw [left_concat_withdrawal rfl rfl fun _ _ => rfl]
          exact ih.withdraw n
      | connectionUp n =>
          rw [left_concat_contribution rfl rfl fun _ _ => rfl]
          exact ih.contribute n
      | connectionDown n =>
          rw [left_concat_withdrawal rfl rfl fun _ _ => rfl]
          exact ih.withdraw n
      | tick getTime =>
          have hleft : left localEid (actions ++ [.tick getTime]) = fun eid k =>
              (left localEid actions eid k).filter fun e => !gone (getTime eid) e := by
            funext eid k
            rw [left_concat]
            rfl
          rw [hleft]
          exact ih.tick getTime

/-- Behind a tick, a node is held only as long as something is left of it. -/
theorem exists_expiry_of_holds {getTime : EID → UInt64} {s : State} {eid : EID}
    (h : (checkUnavailable getTime s).holds eid = true) :
    ∃ n ∈ (checkUnavailable getTime s).nodes, n.eid = eid ∧ ∃ k e, n.expiry k = some e := by
  rw [State.holds, List.any_eq_true] at h
  obtain ⟨n, hn, heid⟩ := h
  refine ⟨n, hn, of_decide_eq_true heid, ?_⟩
  rw [checkUnavailable, expireNodes_eq] at hn
  have hstays : n.isGone = false := by simpa using (List.mem_filter.1 hn).2
  by_contra hnone
  push Not at hnone
  rw [(Node.isGone_iff n).2 fun k => Option.eq_none_iff_forall_ne_some.2 (hnone k)] at hstays
  cases hstays

/-- **Only contributions bring a node into the list**, and only ticks remove it. -/
theorem holds_step {s : State} {eid : EID} {a : Action} (ha : ∀ getTime, a ≠ .tick getTime) :
    (step localEid s a).holds eid =
      (s.holds eid || (a.contribution localEid).any fun n => decide (n.eid = eid)) := by
  cases a with
  | discovered n =>
      rw [step, discovered, Action.contribution]
      split_ifs
      · exact (Bool.or_false _).symm
      · exact holds_contribute s n eid
  | addConnection n => exact holds_contribute s n eid
  | removeConnection n => exact (holds_withdraw s n eid).trans (Bool.or_false _).symm
  | connectionUp n => exact holds_contribute s n eid
  | connectionDown n => exact (holds_withdraw s n eid).trans (Bool.or_false _).symm
  | tick getTime => exact absurd rfl (ha getTime)

/-- Nothing is held behind a tick that was not held before. -/
theorem holds_checkUnavailable {s : State} {eid : EID} (h : s.holds eid = false)
    (getTime : EID → UInt64) : (checkUnavailable getTime s).holds eid = false := by
  rw [holds_eq_false_iff] at h ⊢
  intro m hm
  rw [checkUnavailable, expireNodes_eq] at hm
  obtain ⟨n, hn, rfl⟩ := List.mem_map.1 (List.mem_of_mem_filter hm)
  exact h n hn

/-- **Every action announces the turns of the nodes.** -/
theorem announced_step {s : State} (hunique : (s.nodes.map Node.eid).Nodup) (eid : EID)
    (a : Action) : (step localEid s a).announced eid =
      s.announced eid ++ turn (s.holds eid) ((step localEid s a).holds eid) := by
  cases a with
  | discovered n =>
      rw [step, discovered]
      split_ifs
      · cases s.holds eid <;> exact (List.append_nil _).symm
      · exact announced_contribute s n eid
  | addConnection n => exact announced_contribute s n eid
  | removeConnection n => exact announced_withdraw s n eid
  | connectionUp n => exact announced_contribute s n eid
  | connectionDown n => exact announced_withdraw s n eid
  | tick getTime => exact announced_checkUnavailable eid hunique getTime

/-- **Announcements alternate**: whatever the connection manager is told, there is one node for an
EID, its announcements alternate, it is held between them, and it is left at the first tick at which
none of its contributions remains. A node comes into the list, and is announced, exactly when
something is contributed to it. -/
theorem announces_run (localEid : EID) (actions : List Action) : Announces localEid actions := by
  have h := tracks_run localEid actions
  refine ⟨h.unique, h.alternating, fun n hn k e => ?_, fun eid getTime _ => ?_,
    fun eid a ha hne => ?_, fun eid a hnot => ?_, fun eid a => ?_⟩
  · rw [h.expiry n hn, left_eq_some_iff]
  · have h' := tracks_run localEid (actions ++ [.tick getTime])
    constructor
    · intro hleft k e hremains
      rw [← left_eq_some_iff, h'.absent eid hleft] at hremains
      cases hremains
    · intro hnone
      by_contra hheld
      rw [Bool.not_eq_false, run_concat] at hheld
      obtain ⟨n, hn, rfl, k, e, hk⟩ := exists_expiry_of_holds hheld
      have hrun : run localEid (actions ++ [.tick getTime]) =
          checkUnavailable getTime (run localEid actions) := run_concat _
      rw [← hrun] at hn
      rw [h'.expiry n hn, left_eq_some_iff] at hk
      exact hnone k e hk
  · rw [run_concat, holds_step hne, ha, Bool.true_or]
  · rw [run_concat]
    by_cases htick : ∃ getTime, a = .tick getTime
    · obtain ⟨getTime, rfl⟩ := htick
      have hstays : (step localEid (run localEid actions) (.tick getTime)).holds eid = false :=
        holds_checkUnavailable hnot getTime
      rw [hstays]
      exact iff_of_false nofun fun ⟨n, hn, _⟩ => Option.some_ne_none n hn.symm
    · rw [holds_step fun getTime heq => htick ⟨getTime, heq⟩, hnot, Bool.false_or,
        Option.any_eq_true]
      simp only [decide_eq_true_iff]
  · rw [run_concat]
    exact announced_step h.unique eid a

end Runs

/-- The EID `dtn://a`. -/
def sampleEid : EID := ⟨EID.defaultScheme, ascii ['/', '/', 'a']⟩

/-- A node with one URI, which expires at the given time. -/
def sampleNode (type : Core.NodeType) (expire : UInt64) : Node where
  eid := sampleEid
  uriList := [(⟨type, .tcpip, []⟩, expire)]
  attrList := []
  sorted_uriList := List.pairwise_singleton _ _
  sorted_attrList := .nil

/-- A connection to a discovered node comes up, the discovery expires, and the connection goes
down. -/
def sampleActions : List Action :=
  [.discovered (sampleNode .discovered 5), .connectionUp (sampleNode .connected 0),
    .tick fun _ => 6, .connectionDown (sampleNode .connected 0), .tick fun _ => 7]

theorem announces_run_sample :
    (sampleActions.inits.map fun actions => (run ⟨[], []⟩ actions).holds sampleEid) =
        [false, true, true, true, true, false] ∧
      (run ⟨[], []⟩ sampleActions).announced sampleEid = [.nodeAvailable, .nodeUnavailable] ∧
        Announces ⟨[], []⟩ sampleActions :=
  ⟨by decide +kernel, by decide +kernel, announces_run _ _⟩

end ConnectionManager

end IbrDtn
