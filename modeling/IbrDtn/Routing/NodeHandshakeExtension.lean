import IbrDtn.Routing.BaseRouter
import IbrDtn.Routing.NodeHandshake

/-!
# Handshakes between neighbors

This file models what `daemon/src/routing/NodeHandshakeExtension.cpp` puts into a request and into a
response, and what it makes of a response.  A node that is asked for its summary vector and its
purge vector answers with both.  Both items are written under one identifier, so that only the
second one is left when they are read; it is then taken for the summary vector, and nothing is
purged.

## Main definitions

* `NodeHandshakeExtension.responseHandshake` : the items of a response.
* `NodeHandshakeExtension.processHandshake` : the neighbor database and the storage behind one.
* `NodeHandshakeExtension.CarriesBoth` : both vectors reach the requester, and do their work.

## Main results

* `NodeHandshakeExtension.processHandshake_answer` : what the requester makes of the response.
* `NodeHandshakeExtension.carriesBoth_iff` : when both vectors do their work.
-/

namespace IbrDtn

open NodeHandshake

variable {σ τ F : Type} [Storage σ] [BloomFilter F]

namespace NodeHandshakeExtension

/-- `NodeHandshakeExtension::responseHandshake`: the purge vector is put into an item of the class of
the summary vector. -/
def responseHandshake (r : BaseRouter τ F) (request answer : NodeHandshake F) : NodeHandshake F :=
  let answer :=
    if request.hasRequest BloomFilterSummaryVector.identifier then
      answer.addItem (.bloomFilterSummaryVector r.getSummaryVector)
    else answer
  if request.hasRequest BloomFilterPurgeVector.identifier then
    answer.addItem (.bloomFilterSummaryVector r.getPurgedBundles)
  else answer

/-- The filter of the received summary vector is entered for the node of its sender. -/
def updateNeighbor (c : Clock) (source : EID) (v : SummaryVector F) (lifetime : UInt64)
    (r : BaseRouter σ F) : BaseRouter σ F :=
  match source.getNode with
  | .error _ => r
  | .ok node =>
      match r.neighborDatabase.modify node (NeighborEntry.update c v.bf lifetime) with
      | .error _ => r
      | .ok db => { r with neighborDatabase := db }

/-- The loop that removes the bundles of a purge vector from the storage, until the storage throws.
The calls of `remove` read `freed 0`, `freed 1` and so on in memory that they have freed. -/
def purge (c : Clock) (contains : Bytes → Bool) (freed : ℕ → MetaBundle) (r : BaseRouter σ F) :
    BaseRouter σ F :=
  match _h : Storage.remove r.storage c contains (freed 0) with
  | .error _ => r
  | .ok (m, storage) =>
      purge c contains (fun n => freed (n + 1)) (({ r with storage }).addPurgedBundle m)
termination_by Storage.size r.storage
decreasing_by exact Storage.size_remove _h

/-- `NodeHandshakeExtension::processHandshake(const EID&, NodeHandshake&)`. -/
def processHandshake (c : Clock) (freed : ℕ → MetaBundle) (source : EID) (r : BaseRouter σ F)
    (answer : NodeHandshake F) : BaseRouter σ F × NodeHandshake F :=
  let (bfsv, answer) := answer.get .bloomFilterSummaryVector
  let r :=
    match bfsv with
    | .ok v => updateNeighbor c source v answer.lifetime r
    | .error _ => r
  let (bfpv, answer) := answer.get .bloomFilterPurgeVector
  let r :=
    match bfpv with
    | .ok v => purge c (BloomFilter.contains v.bf) freed r
    | .error _ => r
  (r, answer)

/-! ### Both vectors -/

/-- A request for both vectors. -/
def requestBoth : NodeHandshake F :=
  (ofType handshakeRequest).addRequest BloomFilterSummaryVector.identifier
    |>.addRequest BloomFilterPurgeVector.identifier

/-- The response of a node that is asked for both vectors. -/
def answerBoth (b : BaseRouter τ F) : NodeHandshake F :=
  responseHandshake b requestBoth (ofType handshakeResponse)

/-- The response as it is read back from its encoding. -/
def transported (blob : BLOB) (stale : Bytes) (hs : NodeHandshake F) :
    Except Exn (NodeHandshake F) :=
  ((read blob stale).run ⟨hs.write, false, false, stale⟩).1

/-- **Both vectors reach the requester `a`**: the neighbor `source` has an entry with an available
filter that answers as the summary vector of `b`, and the bundles that stay in the storage are those
that the purge vector of `b` does not contain. -/
def CarriesBoth (c : Clock) (freed : ℕ → MetaBundle) (blob : BLOB) (stale : Bytes)
    (b : BaseRouter τ F) (source : EID) (a : BaseRouter σ F) : Prop :=
  ∃ answer, transported blob stale (answerBoth b) = .ok answer ∧
    (∃ node e, source.getNode = .ok node ∧
      (processHandshake c freed source a answer).1.neighborDatabase.find? node = some e ∧
        e.filterState = .available ∧
          ∀ k, BloomFilter.contains e.filter k = BloomFilter.contains b.getSummaryVector.bf k) ∧
    ∀ m, m ∈ Storage.stored (processHandshake c freed source a answer).1.storage ↔
      m ∈ Storage.stored a.storage ∧ b.getPurgedBundles.contains m.toBundleID = false

/-- The only raw item of a response is the last one that was written. -/
def lastItem (v : SummaryVector F) (stale : Bytes) : NodeHandshake F where
  type := handshakeResponse
  lifetime := 60
  requests := []
  items := []
  rawItems := [(1, ⟨v.write, false, false, stale⟩)]

omit [Storage σ] [BloomFilter F] in
theorem storage_updateNeighbor (c : Clock) (source : EID) (v : SummaryVector F)
    (lifetime : UInt64) (r : BaseRouter σ F) :
    (updateNeighbor c source v lifetime r).storage = r.storage := by
  rw [updateNeighbor]
  split
  · rfl
  · split
    · rfl
    · rfl

omit [Storage σ] [BloomFilter F] in
/-- The entry of a neighbor behind an update. -/
theorem find?_updateNeighbor {c : Clock} {source node : EID} (hnode : source.getNode = .ok node)
    (v : SummaryVector F) (lifetime : UInt64) (r : BaseRouter σ F) :
    (updateNeighbor c source v lifetime r).neighborDatabase.find? node =
      (r.neighborDatabase.find? node).map (NeighborEntry.update c v.bf lifetime) := by
  rw [updateNeighbor, hnode]
  dsimp only
  rw [NeighborDatabase.modify]
  cases h : r.neighborDatabase.find? node with
  | none =>
      rw [NeighborDatabase.get_of_find?_eq_none h]
      exact h
  | some e =>
      rw [NeighborDatabase.get_of_find? h]
      exact NeighborDatabase.find?_put _ _ _

variable [LawfulBloomFilter F]

/-- **Of two items with one identifier only the second is left behind the encoding.** -/
theorem transported_answerBoth {blob : BLOB} (hblob : blob.CopiesExactly) (stale : Bytes)
    (b : BaseRouter τ F) :
    transported blob stale (answerBoth b) = .ok (lastItem b.getPurgedBundles stale) := by
  have hread := reads_response (answerBoth b) rfl (show 2 < 2 ^ 64 by omega) hblob stale
    [] stale
  rw [List.append_nil] at hread
  rw [transported, hread]
  rfl

/-- **What is left is taken for the summary vector, and stands in the way of a purge vector.** -/
theorem processHandshake_lastItem (c : Clock) (freed : ℕ → MetaBundle) (source : EID)
    (v : SummaryVector F) (stale : Bytes) (r : BaseRouter σ F) :
    (processHandshake c freed source r (lastItem v stale)).1 =
      updateNeighbor c source v.received 60 r := by
  have hfirst := get_raw .bloomFilterSummaryVector (lastItem v stale) v stale rfl rfl
  rw [processHandshake, hfirst]
  dsimp only
  have hsecond (raw : List (UInt64 × InStream)) :
      get .bloomFilterPurgeVector (⟨handshakeResponse, 60, [],
        [.bloomFilterSummaryVector v.received], raw⟩ : NodeHandshake F) = (.error .badCast, _) :=
    get_badCast (T := .bloomFilterPurgeVector) rfl rfl
  rw [show (lastItem v stale).items ++ [ItemClass.bloomFilterSummaryVector.ofVector v.received] =
    [.bloomFilterSummaryVector v.received] from rfl, lastItem, hsecond]

/-- **Both vectors reach the requester exactly when it has an entry for the sender's node, both
vectors answer alike, and none of its bundles is contained in the purge vector.** -/
theorem carriesBoth_iff {blob : BLOB} (hblob : blob.CopiesExactly) (c : Clock)
    (freed : ℕ → MetaBundle) (stale : Bytes) (b : BaseRouter τ F) (source : EID)
    (a : BaseRouter σ F) :
    CarriesBoth c freed blob stale b source a ↔
      (∃ node, source.getNode = .ok node ∧ (a.neighborDatabase.find? node).isSome) ∧
        (∀ k, BloomFilter.contains b.getPurgedBundles.bf k =
          BloomFilter.contains b.getSummaryVector.bf k) ∧
          ∀ m ∈ Storage.stored a.storage,
            b.getPurgedBundles.contains m.toBundleID = false := by
  have hcontains (k : Bytes) : BloomFilter.contains b.getPurgedBundles.received.bf k =
      BloomFilter.contains b.getPurgedBundles.bf k := b.getPurgedBundles.contains_received k
  have hstored (m : MetaBundle) :
      (m ∈ Storage.stored (updateNeighbor c source b.getPurgedBundles.received 60 a).storage ↔
        m ∈ Storage.stored a.storage ∧ b.getPurgedBundles.contains m.toBundleID = false) ↔
      (m ∈ Storage.stored a.storage → b.getPurgedBundles.contains m.toBundleID = false) := by
    rw [storage_updateNeighbor, iff_self_and]
  constructor
  · rintro ⟨answer, hanswer, ⟨node, e, hnode, hfind, -, hfilter⟩, hremoved⟩
    obtain rfl := Except.ok.inj (hanswer.symm.trans (transported_answerBoth hblob stale b))
    rw [processHandshake_lastItem, find?_updateNeighbor hnode] at hfind
    obtain ⟨e₀, he₀, rfl⟩ := Option.map_eq_some_iff.1 hfind
    refine ⟨⟨node, hnode, Option.isSome_of_eq_some he₀⟩, fun k => ?_, fun m => ?_⟩
    · rw [← hcontains]
      exact hfilter k
    · rw [processHandshake_lastItem] at hremoved
      exact (hstored m).1 (hremoved m)
  · rintro ⟨⟨node, hnode, hentry⟩, hsame, hkept⟩
    obtain ⟨e, he⟩ := Option.isSome_iff_exists.1 hentry
    refine ⟨_, transported_answerBoth hblob stale b, ?_, ?_⟩
    · rw [processHandshake_lastItem]
      refine ⟨node, NeighborEntry.update c b.getPurgedBundles.received.bf 60 e, hnode, ?_, rfl,
        fun k => (hcontains k).trans (hsame k)⟩
      rw [find?_updateNeighbor hnode, he]
      rfl
    · rw [processHandshake_lastItem]
      exact fun m => (hstored m).2 (hkept m)

/-! ### Two nodes -/

/-- The handshake endpoint of the node `dtn://b`. -/
def sampleSource : EID :=
  ⟨EID.defaultScheme, ascii ['/', '/', 'b', '/', 'r', 'o', 'u', 't', 'i', 'n', 'g']⟩

/-- The node `dtn://b`. -/
def sampleNode : EID := ⟨EID.defaultScheme, ascii ['/', '/', 'b']⟩

/-- A bundle from `dtn://b/routing` to `dtn:none`. -/
def sampleStored : Bundle := { Bundle.create 1 1 with source := sampleSource }

/-- A requester that stores the bundle, and has an entry for `dtn://b`. -/
def sampleRequester : BaseRouter MemoryBundleStorage CellFilter where
  knownBundles := .create
  purgedBundles := .create
  storage := (MemoryBundleStorage.create 0).insert (.showing 0) sampleStored
  extensions := RoutingExtension.defaultRouting.extensions
  neighborDatabase := ⟨[(sampleNode, .create sampleNode)]⟩

/-- A node that knows nothing, and purged the given bundles. -/
def sampleResponder (purged : List MetaBundle) : BaseRouter MemoryBundleStorage CellFilter where
  knownBundles := .create
  purgedBundles := purged.foldl BundleSummary.add .create
  storage := .create 0
  extensions := RoutingExtension.defaultRouting.extensions
  neighborDatabase := ⟨[]⟩

/-- The meta data of a bundle from `dtn://b/routing` with the given sequence number. -/
def sampleMeta (sequencenumber : UInt64) : MetaBundle :=
  .ofBundle (.showing 0) { sampleStored with sequencenumber }

/-- A node that knows one bundle and purged another one, whose text marks the same cells. -/
def sampleTwins : BaseRouter MemoryBundleStorage CellFilter :=
  { sampleResponder [sampleMeta 1276] with knownBundles := BundleSummary.create.add (sampleMeta 1179) }

theorem carriesBoth_iff_sample :
    sampleTwins.getSummaryVector.ids ≠ sampleTwins.getPurgedBundles.ids ∧
      CarriesBoth (.showing 0) (fun _ => sampleMeta 0) BLOB.exact [] sampleTwins sampleSource
        sampleRequester := by
  refine ⟨by decide +kernel, (carriesBoth_iff BLOB.exact_copiesExactly _ _ _ _ _ _).2
    ⟨⟨sampleNode, ?_, ?_⟩, ?_, ?_⟩⟩
  · exact (show sampleSource.getNode = .ok sampleNode by decide)
  · rfl
  · have hcells : sampleTwins.getPurgedBundles.bf = sampleTwins.getSummaryVector.bf := by
      decide +kernel
    exact fun k => congrArg (BloomFilter.contains · k) hcells
  · decide +kernel

/-- The stored bundle is in the purge vector of the other node, and stays in the storage. -/
theorem not_carriesBoth_sample :
    ¬ CarriesBoth (.showing 0) (fun _ => sampleMeta 0) BLOB.exact []
      (sampleResponder [.ofBundle (.showing 0) sampleStored]) sampleSource sampleRequester := by
  rintro ⟨answer, hanswer, -, hremoved⟩
  obtain rfl := Except.ok.inj
    (hanswer.symm.trans (transported_answerBoth BLOB.exact_copiesExactly [] _))
  have hkept := hremoved (.ofBundle (.showing 0) sampleStored)
  rw [processHandshake_lastItem, storage_updateNeighbor] at hkept
  have hstored : MetaBundle.ofBundle (.showing 0) sampleStored ∈
      Storage.stored sampleRequester.storage := List.mem_cons_self
  have hcontained := (hkept.1 hstored).2
  exact absurd ((LawfulBloomFilter.contains_insert _ _).symm.trans hcontained) (by decide)

end NodeHandshakeExtension

end IbrDtn
