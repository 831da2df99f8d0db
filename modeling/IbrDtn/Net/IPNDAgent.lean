import IbrDtn.Net.BeaconGrammar

/-!
# Discovery

This file models how beacons of neighbours become events: the receive loop of
`daemon/src/net/IPNDAgent.cpp` and `DiscoveryAgent::received` of
`daemon/src/net/DiscoveryAgent.cpp`, with the containers of `daemon/src/core/Node.cpp`.  Before a
datagram is decoded, the announcement gets a service for the address of the sender.  It stays there
unless the beacon has a list of services, also one that is empty.

What is decoded depends on the memory of the process where the datagram is too short.  So the
question is for which datagrams the agent does the right thing whatever the memory holds, and
whatever room there is for services beyond one for every byte.

## Main definitions

* `DiscoveryAgent.received` : the node of an announcement.
* `IPNDAgent.componentRun` : the receive loop.
* `IPNDAgent.Handles` : a beacon becomes its node, a part of one nothing, and the loop goes on.
* `IPNDAgent.Sound` : the condition.

## Main results

* `DiscoveryAgent.lists_iff` : which services a node has an entry for.
* `IPNDAgent.discovers_iff` : which datagrams are handled.
-/

namespace IbrDtn

/-! ### Nodes -/

namespace DiscoveryAgent

/-- The values of `Node::Protocol` for services. -/
inductive Protocol where
  | connTcpip
  | connUdpip
  | connLowpan
deriving DecidableEq, Repr

/-- `class Node::URI`, of a discovered node. -/
structure URI where
  protocol : Protocol
  value : Bytes
  expire : UInt64
deriving DecidableEq, Repr

/-- `class Node::Attribute`, of a discovered node. -/
structure Attribute where
  name : Bytes
  value : Bytes
  expire : UInt64
deriving DecidableEq, Repr

/-- What is added to a node. -/
inductive Entry where
  | uri (u : URI)
  | attribute (a : Attribute)
deriving DecidableEq, Repr

/-- `operator==`: a URI has a protocol and a value, and an attribute has a name. -/
def Entry.same : Entry → Entry → Bool
  | .uri u, .uri v => u.protocol = v.protocol ∧ u.value = v.value
  | .attribute a, .attribute b => a.name = b.name
  | _, _ => false

/-- `class Node`, with a list for both of the sets. -/
structure Node where
  eid : EID
  entries : List Entry
deriving DecidableEq, Repr

/-- `Node::add`: what is the same makes room. -/
def Node.add (n : Node) (e : Entry) : Node :=
  { n with entries := n.entries.filter (fun x => !x.same e) ++ [e] }

/-- What is added for a service, with the given time of expiry. -/
def entry (expire : UInt64) (s : DiscoveryService) : Entry :=
  if s.name = ascii ['t', 'c', 'p', 'c', 'l'] then .uri ⟨.connTcpip, s.parameters, expire⟩
  else if s.name = ascii ['u', 'd', 'p', 'c', 'l'] then .uri ⟨.connUdpip, s.parameters, expire⟩
  else if s.name = ascii ['l', 'o', 'w', 'p', 'a', 'n', 'c', 'l'] then
    .uri ⟨.connLowpan, s.parameters, expire⟩
  else .attribute ⟨s.name, s.parameters, expire⟩

/-- The names of services that become URIs. -/
def uriNames : List Bytes :=
  [ascii ['t', 'c', 'p', 'c', 'l'], ascii ['u', 'd', 'p', 'c', 'l'],
    ascii ['l', 'o', 'w', 'p', 'a', 'n', 'c', 'l']]

/-- `(to == 0) ? 0 : Clock::getTime() + to`. -/
def expire (now toValue : UInt64) : UInt64 := if toValue = 0 then 0 else now + toValue

/-- The node of an announcement. -/
def node (expire : UInt64) (eid : EID) (services : List DiscoveryService) : Node :=
  services.foldl (fun n s => n.add (entry expire s)) ⟨eid, []⟩

end DiscoveryAgent

/-- `class DiscoveryAgent`: its configuration, the number of the next announcement, and the time of
the last one. -/
structure DiscoveryAgent where
  timeout : UInt64
  announce : Bool
  sn : UInt16
  lastAnnounceSent : UInt64
deriving DecidableEq, Repr

/-- What `DiscoveryAgent::received` does: the node of the event, the number of the announcement that
is sent for a reply, and the agent behind it. -/
structure DiscoveryAgent.Received where
  node : DiscoveryAgent.Node
  reply : Option UInt16
  agent : DiscoveryAgent
deriving DecidableEq, Repr

/-- `DiscoveryAgent::received`. -/
def DiscoveryAgent.received (agent : DiscoveryAgent) (now : UInt64)
    (announcement : DiscoveryAnnouncement) (timeout : UInt64) : DiscoveryAgent.Received :=
  let toValue := if timeout = 0 then agent.timeout else timeout
  let n := node (expire now toValue) announcement.canonicalEid announcement.services
  if !agent.announce && agent.lastAnnounceSent != now then
    ⟨n, some agent.sn, { agent with sn := agent.sn + 1, lastAnnounceSent := now }⟩
  else ⟨n, none, agent⟩

namespace DiscoveryAgent

/-- Two services of one name that becomes an attribute have the same parameters. -/
def Consistent (ss : List DiscoveryService) : Prop :=
  ∀ s ∈ ss, ∀ t ∈ ss, s.name = t.name → s.name ∉ uriNames → s.parameters = t.parameters

instance (ss : List DiscoveryService) : Decidable (Consistent ss) :=
  inferInstanceAs (Decidable (∀ s ∈ ss, ∀ t ∈ ss, _))

/-- The node has one entry for each of the services, with its name and parameters, and no other. -/
def Node.Lists (n : Node) (expire : UInt64) (ss : List DiscoveryService) : Prop :=
  n.entries.Nodup ∧ ∀ e, e ∈ n.entries ↔ ∃ s ∈ ss, entry expire s = e

theorem Entry.same_comm (e f : Entry) : e.same f = f.same e := by
  cases e <;> cases f <;> simp only [Entry.same, eq_comm]

theorem Entry.same_self (e : Entry) : e.same e = true := by
  cases e <;> simp [Entry.same]

theorem mem_add {n : Node} {e f : Entry} :
    f ∈ (n.add e).entries ↔ f = e ∨ f ∈ n.entries ∧ f.same e = false := by
  rw [Node.add, List.mem_append, List.mem_filter, List.mem_singleton, or_comm, Bool.not_eq_true']

theorem nodup_add {n : Node} (h : n.entries.Nodup) (e : Entry) : (n.add e).entries.Nodup := by
  refine List.Nodup.append (h.filter _) (List.nodup_singleton e) ?_
  intro f hf he
  obtain rfl := List.mem_singleton.1 he
  have hsame := (List.mem_filter.1 hf).2
  rw [f.same_self] at hsame
  cases hsame

variable {x : UInt64} {eid : EID} {ss : List DiscoveryService}

theorem node_concat (ss : List DiscoveryService) (s : DiscoveryService) :
    node x eid (ss ++ [s]) = (node x eid ss).add (entry x s) := by
  rw [node, List.foldl_append]
  rfl

@[simp] theorem eid_node (ss : List DiscoveryService) : (node x eid ss).eid = eid := by
  induction ss using List.reverseRecOn with
  | nil => rfl
  | append_singleton ss s ih =>
      rw [node_concat]
      exact ih

theorem nodup_node (ss : List DiscoveryService) : (node x eid ss).entries.Nodup := by
  induction ss using List.reverseRecOn with
  | nil => exact List.nodup_nil
  | append_singleton ss s ih =>
      rw [node_concat]
      exact nodup_add ih _

/-- A set has no two entries that are the same. -/
theorem eq_of_same {e f : Entry} (he : e ∈ (node x eid ss).entries)
    (hf : f ∈ (node x eid ss).entries) (h : e.same f = true) : e = f := by
  induction ss using List.reverseRecOn with
  | nil => exact absurd he List.not_mem_nil
  | append_singleton ss s ih =>
      rw [node_concat, mem_add] at he hf
      rcases he with rfl | ⟨he, he'⟩
      · rcases hf with rfl | ⟨-, hf'⟩
        · rfl
        · rw [Entry.same_comm] at h
          exact absurd (hf'.symm.trans h) Bool.false_ne_true
      · rcases hf with rfl | ⟨hf, -⟩
        · exact absurd (he'.symm.trans h) Bool.false_ne_true
        · exact ih he hf

/-- Services of which the later one takes the place of the other. -/
theorem same_entry_iff {s t : DiscoveryService} : (entry x s).same (entry x t) = true ↔
    s.name = t.name ∧ (s.name ∈ uriNames → s.parameters = t.parameters) := by
  by_cases hname : s.name = t.name
  · simp only [entry, ← hname, uriNames]
    split_ifs <;> simp_all [Entry.same]
  · rw [iff_false_intro (fun h : _ ∧ _ => hname h.1), iff_false]
    simp only [entry]
    split_ifs <;> simp_all [Entry.same]

theorem entry_inj {s t : DiscoveryService} (hname : s.name = t.name) :
    entry x s = entry x t ↔ s.parameters = t.parameters := by
  simp only [entry, hname]
  split_ifs <;> simp

/-- **Which services a node has an entry for.** -/
theorem lists_iff (x : UInt64) (eid : EID) (ss : List DiscoveryService) :
    (node x eid ss).Lists x ss ↔ Consistent ss := by
  constructor
  · rintro ⟨-, hmem⟩ s hs t ht hname huri
    have hsame : (entry x s).same (entry x t) = true :=
      same_entry_iff.2 ⟨hname, fun h => absurd h huri⟩
    exact (entry_inj hname).1 (eq_of_same ((hmem _).2 ⟨s, hs, rfl⟩) ((hmem _).2 ⟨t, ht, rfl⟩) hsame)
  · refine fun h => ⟨nodup_node ss, fun e => ?_⟩
    induction ss using List.reverseRecOn with
    | nil => simp [node]
    | append_singleton ss s ih =>
        have hss : Consistent ss := fun s hs t ht =>
          h s (List.mem_append_left _ hs) t (List.mem_append_left _ ht)
        rw [node_concat, mem_add, ih hss]
        constructor
        · rintro (rfl | ⟨⟨t, ht, rfl⟩, -⟩)
          · exact ⟨s, List.mem_append_right _ (List.mem_singleton_self s), rfl⟩
          · exact ⟨t, List.mem_append_left _ ht, rfl⟩
        · rintro ⟨t, ht, rfl⟩
          rcases List.mem_append.1 ht with ht | ht
          · cases hsame : (entry x t).same (entry x s) with
            | false => exact .inr ⟨⟨t, ht, rfl⟩, rfl⟩
            | true =>
                obtain ⟨hname, huri⟩ := same_entry_iff.1 hsame
                refine .inl ((entry_inj hname).2 ?_)
                by_cases hmem : t.name ∈ uriNames
                · exact huri hmem
                · exact h t (List.mem_append_left _ ht) s
                    (List.mem_append_right _ (List.mem_singleton_self s)) hname hmem
          · obtain rfl := List.mem_singleton.1 ht
            exact .inl rfl

end DiscoveryAgent

/-! ### The receive loop -/

/-- The thread of the agent. Beside the array for a datagram, its stack has room for another one of
the same size. -/
structure IPNDAgent.Thread where
  stack : ℕ
  le_stack : 1500 ≤ stack

/-- `class IPNDAgent`, with the version of its configuration. -/
structure IPNDAgent extends DiscoveryAgent where
  configured : Int32
deriving DecidableEq, Repr

/-- A datagram, and what is found when it is received: the clock, and the memory that is read into
without being initialised. -/
structure IPNDAgent.Datagram where
  sender : Bytes
  data : Bytes
  now : UInt64
  stale : Bytes
deriving DecidableEq, Repr

namespace IPNDAgent

/-- `_version` of the constructor. -/
def version (agent : IPNDAgent) : UInt8 :=
  if agent.configured = 2 then DiscoveryAnnouncement.discoVersion01
  else if agent.configured = 1 then DiscoveryAnnouncement.discoVersion00
  else if agent.configured = 0 then DiscoveryAnnouncement.dtndIpdiscovery
  else DiscoveryAnnouncement.discoVersion01

/-- `recvfrom(*iter, data, 1500, sender)`. -/
def recvfrom (datagram : Bytes) : Bytes := datagram.take 1500

/-- The service for the address of the sender. -/
def fallback (sender : Bytes) : DiscoveryService :=
  ⟨ascii ['t', 'c', 'p', 'c', 'l'],
    ascii ['i', 'p', '='] ++ sender ++
      ascii [';', 'p', 'o', 'r', 't', '=', '4', '5', '5', '6', ';']⟩

/-- The announcement in front of the decoding. -/
def announcement (agent : IPNDAgent) (sender : Bytes) : DiscoveryAnnouncement :=
  let announce : DiscoveryAnnouncement := ⟨agent.version, 0, EID.none, []⟩
  if announce.services = [] then
    { announce with services := announce.services ++ [fallback sender] }
  else announce

/-- The loop over the sockets, for a datagram: the agent behind it, the nodes of the events, and the
replies; or the exception that leaves the loop. -/
def handle (r : Resources) (agent : IPNDAgent) (d : Datagram) :
    Except Exn (IPNDAgent × List DiscoveryAgent.Node × List UInt16) :=
  match ((agent.announcement d.sender).read r).run ⟨recvfrom d.data, false, false, d.stale⟩ with
  | (.ok announce, _) =>
      let received := agent.received d.now announce 0
      .ok ({ agent with toDiscoveryAgent := received.agent }, [received.node],
        received.reply.toList)
  | (.error e, _) => if catches e then .ok (agent, [], []) else .error e

/-- `IPNDAgent::componentRun`, for the datagrams that arrive: the nodes of the events, and the
exception that ends it. -/
def componentRun (r : Resources) : IPNDAgent → List Datagram → List DiscoveryAgent.Node × Option Exn
  | _, [] => ([], none)
  | agent, d :: ds =>
      match handle r agent d with
      | .ok (agent', nodes, _) =>
          let (more, thrown) := componentRun r agent' ds
          (nodes ++ more, thrown)
      | .error e => ([], some e)

end IPNDAgent


/-! ### What the agent should do -/

namespace Announced

/-- The beacons of the versions that an agent understands: it takes the version from the first byte,
unless it is configured for the other daemon. -/
def Spelled (b : Announced) (version : UInt8) (bs : Bytes) : Prop :=
  if version = DiscoveryAnnouncement.dtndIpdiscovery then Ipdiscovery bs b
  else
    match bs with
    | [] => False
    | c :: rest =>
        if c = DiscoveryAnnouncement.discoVersion00 then version00.spelled rest b
        else if c = DiscoveryAnnouncement.discoVersion01 then version01.spelled rest b
        else if c = DiscoveryAnnouncement.dtndIpdiscovery then Ipdiscovery rest b
        else False

/-- The bytes are a proper beginning of a beacon. -/
def Begins (version : UInt8) (bs : Bytes) : Prop :=
  ∃ ext b, ext ≠ [] ∧ Spelled b version (bs ++ ext)

/-- The reader finds a whole beacon in the bytes, or a reason to turn them down. -/
def Found (stack : ℕ) (version : UInt8) (bs : Bytes) : Prop :=
  if version = DiscoveryAnnouncement.dtndIpdiscovery then Terminates stack bs
  else
    match bs with
    | [] => True
    | c :: rest =>
        if c = DiscoveryAnnouncement.discoVersion00 then version00.Decides rest
        else if c = DiscoveryAnnouncement.discoVersion01 then version01.Decides rest
        else if c = DiscoveryAnnouncement.dtndIpdiscovery then Terminates stack rest
        else True

/-- The services that a node should have: those that are announced, or the one for the address of
the sender if there are none. -/
def shown (b : Announced) (sender : Bytes) : List DiscoveryService :=
  if b.services.getD [] = [] then [IPNDAgent.fallback sender] else b.services.getD []

end Announced

namespace IPNDAgent

variable (t : Thread) (agent : IPNDAgent) (sender data : Bytes)

/-- The datagrams with these bytes, whatever the clock and the memory are, in a process with room
for as many services as there are bytes. -/
structure Receives (d : Datagram) (r : Resources) : Prop where
  sender_eq : d.sender = sender
  data_eq : d.data = data
  stack_eq : r.stack = t.stack
  le_heap : (recvfrom data).length ≤ r.heap

/-- **A beacon becomes the right node, or nothing**: the loop goes on behind the datagram; a whole
beacon raises one event, with the announced EID and the services; and a part of a beacon that is
received raises none. -/
structure Handles : Prop where
  goesOn (d : Datagram) (r : Resources) (h : Receives t sender data d r) :
    ∃ agent' nodes, ∀ ds, componentRun r agent (d :: ds) =
      (nodes ++ (componentRun r agent' ds).1, (componentRun r agent' ds).2)
  whole (d : Datagram) (r : Resources) (h : Receives t sender data d r) (b : Announced)
    (hb : b.Spelled agent.version data) : ∃ agent' node replies,
      handle r agent d = .ok (agent', [node], replies) ∧ node.eid = b.eid ∧
        node.Lists (DiscoveryAgent.expire d.now agent.timeout) (b.shown sender)
  part (d : Datagram) (r : Resources) (h : Receives t sender data d r)
    (hb : Announced.Begins agent.version (recvfrom data)) :
      ∃ agent' replies, handle r agent d = .ok (agent', [], replies)

/-- The condition. What is received is not the beginning of a beacon, unless there are no bytes that
would show the version. The reader finds a whole beacon or a reason to turn it down. And a list of
services that is announced has at least one, and no two attributes of one name that differ. -/
structure Sound : Prop where
  part (h : Announced.Begins agent.version (recvfrom data)) :
    recvfrom data = [] ∧ agent.version ≠ DiscoveryAnnouncement.dtndIpdiscovery
  found : Announced.Found t.stack agent.version (recvfrom data)
  services (b : Announced) (h : b.Spelled agent.version data) :
    b.services ≠ some [] ∧ DiscoveryAgent.Consistent (b.services.getD [])

end IPNDAgent

/-! ### What is decoded -/

namespace Announced

open DiscoveryAnnouncement IPNDAgent

variable {r : Resources} {a : DiscoveryAnnouncement}

theorem read_of_ipdiscovery (ha : a.version = dtndIpdiscovery) :
    read r a = readIpdiscovery r a := by
  rw [DiscoveryAnnouncement.read, if_pos ha]
  rfl

theorem run_read_nil (ha : a.version ≠ dtndIpdiscovery) (st : Bytes) :
    ((read r a).run ⟨[], false, false, st⟩).1 = .error (.invalidProtocol
      "The received data does not match the discovery protocol.") := by
  rw [DiscoveryAnnouncement.read, if_neg ha]
  rfl

/-- The first byte selects the version. -/
theorem run_read_cons (ha : a.version ≠ dtndIpdiscovery) (c : UInt8) (rest st : Bytes) :
    (read r a).run ⟨c :: rest, false, false, st⟩ =
      (if c = discoVersion00 then readVersion00 r a
        else if c = discoVersion01 then readVersion01 r a
        else if c = dtndIpdiscovery then readIpdiscovery r a
        else throw (.invalidProtocol
          "The received data does not match the discovery protocol.")).run
        ⟨rest, false, false, st⟩ := by
  rw [DiscoveryAnnouncement.read, if_neg ha]
  exact Parser.run_bind_ok rfl

theorem begins_of_ipdiscovery {bs : Bytes} :
    Begins dtndIpdiscovery bs ↔ ∃ ext b, ext ≠ [] ∧ Ipdiscovery (bs ++ ext) b := by
  simp only [Begins, Spelled, if_true]

theorem found_of_ipdiscovery {stack : ℕ} {bs : Bytes} :
    Found stack dtndIpdiscovery bs ↔ Terminates stack bs := Iff.of_eq (if_pos rfl)

theorem spelled_of_ipdiscovery {b : Announced} {bs : Bytes} :
    b.Spelled dtndIpdiscovery bs ↔ Ipdiscovery bs b := Iff.of_eq (if_pos rfl)

theorem begins_cons {version : UInt8} (hv : version ≠ dtndIpdiscovery) (c : UInt8) (rest : Bytes) :
    Begins version (c :: rest) ↔
      if c = discoVersion00 then version00.Continues rest
      else if c = discoVersion01 then version01.Continues rest
      else if c = dtndIpdiscovery then ∃ ext b, ext ≠ [] ∧ Ipdiscovery (rest ++ ext) b
      else False := by
  simp only [Begins, Spelled, if_neg hv, List.cons_append]
  split_ifs
  · exact Iff.rfl
  · exact Iff.rfl
  · exact Iff.rfl
  · exact ⟨fun ⟨_, _, _, h⟩ => h, False.elim⟩

theorem found_cons {stack : ℕ} {version : UInt8} (hv : version ≠ dtndIpdiscovery) (c : UInt8)
    (rest : Bytes) : Found stack version (c :: rest) ↔
      if c = discoVersion00 then version00.Decides rest
      else if c = discoVersion01 then version01.Decides rest
      else if c = dtndIpdiscovery then Terminates stack rest
      else True := by
  rw [Found, if_neg hv]

/-- **The bytes that do no harm** to the reader. -/
theorem orderly_read_iff (ha : a.canonicalEid = EID.none) {bs : Bytes}
    (hstack : bs.length ≤ r.stack) (hheap : bs.length ≤ r.heap) (hlen : bs.length < 2 ^ 32) :
    ((read r a).Orderly (fun e => catches e = true) bs ∧
      (Begins a.version bs → (read r a).Silent (fun e => catches e = true) bs)) ↔
      (Begins a.version bs → bs = [] ∧ a.version ≠ dtndIpdiscovery) ∧
        Found r.stack a.version bs := by
  have hexcl (e : Exn) (he : catches e = false) : ¬ catches e = true := by
    rw [he]
    exact Bool.false_ne_true
  by_cases hv : a.version = dtndIpdiscovery
  · rw [read_of_ipdiscovery hv, hv, begins_of_ipdiscovery, orderly_readIpdiscovery_iff,
      found_of_ipdiscovery]
    exact and_congr_left fun _ => ⟨fun h h' => absurd h' h, fun h h' => (h h').2 rfl⟩
  · cases bs with
    | nil =>
        refine iff_of_true ⟨fun st e he => ?_, fun _ st => ⟨_, run_read_nil hv st, rfl⟩⟩
          ⟨fun _ => ⟨rfl, hv⟩, ?_⟩
        · rw [run_read_nil hv st] at he
          cases he
          rfl
        · unfold Found
          rw [if_neg hv]
          trivial
    | cons c rest =>
        have hlt : rest.length < (c :: rest).length := Nat.lt_succ_self _
        have hrun (st : Bytes) := congrArg Prod.fst (run_read_cons (r := r) hv c rest st)
        rw [Parser.orderly_congr hrun, Parser.silent_congr hrun, begins_cons hv, found_cons hv]
        have hnil (P : Prop) : (P → c :: rest = [] ∧ a.version ≠ dtndIpdiscovery) ↔ ¬ P :=
          ⟨fun h h' => absurd (h h').1 (List.cons_ne_nil c rest), fun h h' => absurd h' h⟩
        rw [hnil]
        split_ifs
        · have hobeys := obeys_readVersion00 (a := a) (n := rest.length) (by omega : _ ≤ r.stack)
            (by omega)
          have hiff := hobeys.orderly_iff hexcl le_rfl
          rwa [Grammar.continues_map, Grammar.decides_map] at hiff
        · have hobeys := obeys_readVersion01 (n := rest.length) ha (by omega : _ ≤ r.stack)
            (by omega) (by omega)
          have hiff := hobeys.orderly_iff hexcl le_rfl
          rwa [Grammar.continues_map, Grammar.decides_map] at hiff
        · exact orderly_readIpdiscovery_iff
        · refine iff_of_true ⟨fun st e he => ?_, fun h => h.elim⟩ ⟨id, trivial⟩
          cases he
          rfl

/-- **A whole beacon is decoded** if its reader finds what it needs. -/
theorem exists_run_read (ha : a.canonicalEid = EID.none) {bs : Bytes} {b : Announced}
    (hb : b.Spelled a.version bs) (hfound : Found r.stack a.version bs)
    (hstack : bs.length ≤ r.stack) (hheap : bs.length ≤ r.heap) (hlen : bs.length < 2 ^ 32)
    (st : Bytes) : ∃ a' s', (read r a).run ⟨bs, false, false, st⟩ = (.ok a', s') ∧
      a'.canonicalEid = b.eid ∧ a'.services = b.services.getD a.services := by
  have hip {bs : Bytes} (h : Ipdiscovery bs b) (hterminates : Terminates r.stack bs) :
      ∃ a' s', (readIpdiscovery r a).run ⟨bs, false, false, st⟩ = (.ok a', s') ∧
        a'.canonicalEid = b.eid ∧ a'.services = b.services.getD a.services := by
    obtain ⟨cs, s', hrun⟩ := run_readIpdiscovery_of_terminates (a := a) hterminates st
    refine ⟨_, s', hrun, h.takeWhile_eq hterminates cs, ?_⟩
    obtain ⟨_, _, -, -, -, -, rfl⟩ := h
    rfl
  have hreads {p : Parser Exn DiscoveryAnnouncement} {g : Grammar Announced} {rest : Bytes}
      (hobeys : Obeys p (fill a <$> g) rest.length) (h : g.spelled rest b) :
      ∃ a' s', p.run ⟨rest, false, false, st⟩ = (.ok a', s') ∧
        a'.canonicalEid = b.eid ∧ a'.services = b.services.getD a.services := by
    have hrun := hobeys.reads (Grammar.spelled_map.2 ⟨b, h, rfl⟩) le_rfl [] st
    rw [List.append_nil] at hrun
    exact ⟨_, _, hrun, rfl, rfl⟩
  by_cases hv : a.version = dtndIpdiscovery
  · rw [read_of_ipdiscovery hv]
    rw [hv] at hb hfound
    exact hip (spelled_of_ipdiscovery.1 hb) (found_of_ipdiscovery.1 hfound)
  · cases bs with
    | nil =>
        unfold Spelled at hb
        rw [if_neg hv] at hb
        exact hb.elim
    | cons c rest =>
        have hlt : rest.length < (c :: rest).length := Nat.lt_succ_self _
        rw [run_read_cons hv]
        rw [Spelled, if_neg hv] at hb
        rw [found_cons hv] at hfound
        split_ifs at hb hfound ⊢
        · exact hreads (obeys_readVersion00 (by omega) (by omega)) hb
        · exact hreads (obeys_readVersion01 ha (by omega) (by omega) (by omega)) hb
        · exact hip hb hfound

end Announced

/-! ### Which datagrams are handled -/

namespace IPNDAgent

variable {t : Thread} {agent : IPNDAgent} {sender data : Bytes} {r : Resources} {d : Datagram}

theorem length_recvfrom_le (data : Bytes) : (recvfrom data).length ≤ 1500 :=
  List.length_take_le _ _

/-- The loop goes on if nothing is thrown that it does not catch. -/
theorem goesOn_iff : (∃ agent' nodes, ∀ ds, componentRun r agent (d :: ds) =
      (nodes ++ (componentRun r agent' ds).1, (componentRun r agent' ds).2)) ↔
    ∀ e, (((agent.announcement d.sender).read r).run
      ⟨recvfrom d.data, false, false, d.stale⟩).1 = .error e → catches e = true := by
  rcases hrun : ((agent.announcement d.sender).read r).run
    ⟨recvfrom d.data, false, false, d.stale⟩ with ⟨e | a, s'⟩
  · cases hcatches : catches e with
    | true =>
        refine iff_of_true ⟨agent, [], fun ds => ?_⟩ fun e' he => ?_
        · simp only [componentRun, handle, hrun, hcatches, if_true]
        · rw [← Except.error.inj he, hcatches]
    | false =>
        refine iff_of_false ?_ fun h => ?_
        · rintro ⟨agent', nodes, h⟩
          have hnil := congrArg Prod.snd (h [])
          simp [componentRun, handle, hrun, hcatches] at hnil
        · exact Bool.false_ne_true (hcatches.symm.trans (h e rfl))
  · refine iff_of_true ⟨{ agent with toDiscoveryAgent := (agent.received d.now a 0).agent },
      [(agent.received d.now a 0).node], fun ds => ?_⟩ fun e he => by cases he
    simp only [componentRun, handle, hrun]

/-- No event is raised if something is thrown that the loop catches. -/
theorem handle_eq_nil_iff : (∃ agent' replies, handle r agent d = .ok (agent', [], replies)) ↔
    ∃ e, (((agent.announcement d.sender).read r).run
      ⟨recvfrom d.data, false, false, d.stale⟩).1 = .error e ∧ catches e = true := by
  rcases hrun : ((agent.announcement d.sender).read r).run
    ⟨recvfrom d.data, false, false, d.stale⟩ with ⟨e | a, s'⟩
  · cases hcatches : catches e <;> simp [handle, hrun, hcatches]
  · simp [handle, hrun]

/-- An announcement that is decoded raises one event. -/
theorem handle_of_run {a : DiscoveryAnnouncement} {s' : InStream}
    (h : ((agent.announcement d.sender).read r).run ⟨recvfrom d.data, false, false, d.stale⟩ =
      (.ok a, s')) : ∃ agent' replies, handle r agent d = .ok (agent',
        [DiscoveryAgent.node (DiscoveryAgent.expire d.now agent.timeout) a.canonicalEid a.services],
        replies) := by
  have hnode : (agent.received d.now a 0).node =
      DiscoveryAgent.node (DiscoveryAgent.expire d.now agent.timeout) a.canonicalEid
        a.services := by
    rw [DiscoveryAgent.received, if_pos rfl]
    split_ifs <;> rfl
  refine ⟨{ agent with toDiscoveryAgent := (agent.received d.now a 0).agent },
    (agent.received d.now a 0).reply.toList, ?_⟩
  simp only [handle, h, hnode]

theorem consistent_singleton (s : DiscoveryService) : DiscoveryAgent.Consistent [s] := by
  intro u hu v hv _ _
  rw [List.mem_singleton.1 hu, List.mem_singleton.1 hv]

/-- The services of the announcement are those that should be shown. -/
theorem lists_shown_iff (x : UInt64) (b : Announced) (sender : Bytes) :
    (DiscoveryAgent.node x b.eid (b.services.getD [fallback sender])).Lists x (b.shown sender) ↔
      b.services ≠ some [] ∧ DiscoveryAgent.Consistent (b.services.getD []) := by
  rcases hservices : b.services with _ | _ | ⟨s, ss⟩
  · rw [Announced.shown, hservices, Option.getD_none, Option.getD_none, if_pos rfl,
      DiscoveryAgent.lists_iff]
    exact iff_of_true (consistent_singleton _) ⟨by simp, fun s hs => absurd hs List.not_mem_nil⟩
  · rw [Announced.shown, hservices, Option.getD_some, Option.getD_some, if_pos rfl]
    refine iff_of_false ?_ fun h => h.1 rfl
    rintro ⟨-, hmem⟩
    exact absurd ((hmem _).2 ⟨_, List.mem_singleton_self _, rfl⟩) List.not_mem_nil
  · rw [Announced.shown, hservices, Option.getD_some, Option.getD_some,
      if_neg (List.cons_ne_nil s ss), DiscoveryAgent.lists_iff, and_iff_right]
    intro h
    cases Option.some.inj h

/-- A datagram that is longer than the array is cut. -/
theorem recvfrom_eq_of_spelled {b : Announced} (hb : b.Spelled agent.version data)
    (h : Announced.Begins agent.version (recvfrom data) →
      recvfrom data = [] ∧ agent.version ≠ DiscoveryAnnouncement.dtndIpdiscovery) :
    recvfrom data = data := by
  refine List.take_of_length_le (Nat.le_of_not_lt fun hlt => ?_)
  have hnil := (h ⟨data.drop 1500, b, ?_, ?_⟩).1
  · have hlength := congrArg List.length hnil
    rw [recvfrom, List.length_take, List.length_nil] at hlength
    omega
  · intro hdrop
    have hlength := congrArg List.length hdrop
    rw [List.length_drop, List.length_nil] at hlength
    omega
  · rw [recvfrom, List.take_append_drop]
    exact hb

/-- **A beacon becomes the right node, or nothing**, exactly under the condition. -/
theorem discovers_iff (t : Thread) (agent : IPNDAgent) (sender data : Bytes) :
    Handles t agent sender data ↔ Sound t agent data := by
  have hlen := length_recvfrom_le data
  have hstack := t.le_stack
  have hlt : (recvfrom data).length < 2 ^ 32 := by omega
  have horderly (r : Resources) (hr : r.stack = t.stack) (hheap : (recvfrom data).length ≤ r.heap) :
      (((agent.announcement sender).read r).Orderly (fun e => catches e = true) (recvfrom data) ∧
        (Announced.Begins agent.version (recvfrom data) →
          ((agent.announcement sender).read r).Silent (fun e => catches e = true)
            (recvfrom data))) ↔
      (Announced.Begins agent.version (recvfrom data) →
        recvfrom data = [] ∧ agent.version ≠ DiscoveryAnnouncement.dtndIpdiscovery) ∧
          Announced.Found t.stack agent.version (recvfrom data) := by
    rw [← hr] at hstack ⊢
    exact Announced.orderly_read_iff rfl (hlen.trans hstack) hheap hlt
  constructor
  · intro h
    obtain ⟨r, hr, hheap⟩ : ∃ r : Resources, r.stack = t.stack ∧ (recvfrom data).length ≤ r.heap :=
      ⟨⟨t.stack, _⟩, rfl, le_rfl⟩
    have hreceives (st : Bytes) : Receives t sender data ⟨sender, data, 0, st⟩ r :=
      ⟨rfl, rfl, hr, hheap⟩
    have hgoes (st : Bytes) := (goesOn_iff (d := ⟨sender, data, 0, st⟩)).1
      (h.goesOn _ _ (hreceives st))
    have hsilent (hbegins : Announced.Begins agent.version (recvfrom data)) (st : Bytes) :=
      (handle_eq_nil_iff (d := ⟨sender, data, 0, st⟩)).1 (h.part _ _ (hreceives st) hbegins)
    obtain ⟨hpart, hfound⟩ := (horderly r hr hheap).1 ⟨hgoes, hsilent⟩
    refine ⟨hpart, hfound, fun b hb => ?_⟩
    have hdata := recvfrom_eq_of_spelled hb hpart
    obtain ⟨agent', node, replies, hhandle, heid, hlists⟩ := h.whole _ _ (hreceives []) b hb
    rw [← hdata] at hb
    obtain ⟨a, s', hrun, haeid, hservices⟩ := Announced.exists_run_read
      (r := r) (a := agent.announcement sender) rfl hb (hr ▸ hfound) (hr ▸ hlen.trans hstack) hheap
      hlt []
    obtain ⟨agent'', replies', hhandle'⟩ := handle_of_run (d := ⟨sender, data, 0, []⟩) hrun
    obtain ⟨-, hnodes⟩ := Prod.mk.inj (Except.ok.inj (hhandle.symm.trans hhandle'))
    obtain rfl := List.singleton_inj.1 (Prod.mk.inj hnodes).1
    rw [haeid, hservices] at hlists
    exact (lists_shown_iff _ b sender).1 hlists
  · intro h
    have hsound (r : Resources) (hr : r.stack = t.stack)
        (hheap : (recvfrom data).length ≤ r.heap) := (horderly r hr hheap).2 ⟨h.part, h.found⟩
    constructor
    · rintro d r ⟨rfl, rfl, hr, hheap⟩
      exact goesOn_iff.2 ((hsound r hr hheap).1 d.stale)
    · rintro d r ⟨rfl, rfl, hr, hheap⟩ b hb
      have hdata := recvfrom_eq_of_spelled hb h.part
      have hfound : Announced.Found r.stack agent.version (recvfrom d.data) := by
        rw [hr]
        exact h.found
      have hfits : (recvfrom d.data).length ≤ r.stack := by
        rw [hr]
        exact hlen.trans hstack
      have hspelled : b.Spelled agent.version (recvfrom d.data) := by
        rw [hdata]
        exact hb
      obtain ⟨a, s', hrun, haeid, hservices⟩ := Announced.exists_run_read
        (r := r) (a := agent.announcement d.sender) rfl hspelled hfound hfits hheap
        hlt d.stale
      obtain ⟨agent', replies, hhandle⟩ := handle_of_run hrun
      refine ⟨agent', _, replies, hhandle, (DiscoveryAgent.eid_node _).trans haeid, ?_⟩
      rw [haeid, hservices]
      exact (lists_shown_iff _ b d.sender).2 (h.services b hb)
    · rintro d r ⟨rfl, rfl, hr, hheap⟩ hbegins
      exact handle_eq_nil_iff.2 ((hsound r hr hheap).2 hbegins d.stale)

end IPNDAgent

end IbrDtn
