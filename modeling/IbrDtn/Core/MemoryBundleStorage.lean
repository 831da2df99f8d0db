import IbrDtn.Core.BundleStorage
import IbrDtn.Library.Transition

/-!
# The storage in memory

This file models `daemon/src/core/MemoryBundleStorage.cpp`.  The storage keeps its bundles in a set,
their meta data in a bundle list and a priority index, the lengths that were charged for them in
a map, and the sum of these lengths.

A bundle that is stored again is charged twice, and one that is removed by its identifier leaves
its length behind.  In the runs without such steps all containers describe the bundles that a
ledger of the calls says are stored.

## Main definitions

* `MemoryBundleStorage` : the members of the storage.
* `MemoryBundleStorage.step` : its operations.
* `MemoryBundleStorage.Record`, `MemoryBundleStorage.record` : the ledger.
* `MemoryBundleStorage.Accounted` : the storage agrees with a ledger.
* `MemoryBundleStorage.Sound` : the steps that keep the agreement.

## Main results

* `MemoryBundleStorage.accounted_step` : what one step keeps.
* `MemoryBundleStorage.accounted_run` : the storage agrees with the ledger behind every run of
  sound steps.
-/

namespace IbrDtn

open OrderedSet (Holds)

/-- `class MemoryBundleStorage`. -/
structure MemoryBundleStorage where
  list : BundleList
  bundles : List Bundle
  priorityIndex : List MetaBundle
  bundleLengths : List (BundleID × UInt64)
  maxsize : UInt64
  currentsize : UInt64
deriving DecidableEq

namespace MemoryBundleStorage

/-- `MemoryBundleStorage::MemoryBundleStorage`. -/
def create (maxsize : UInt64) : MemoryBundleStorage := ⟨.empty, [], [], [], maxsize, 0⟩

/-! ### Operations -/

/-- `_bundle_lengths[bundle]`. -/
def recordedLength (s : MemoryBundleStorage) (b : Bundle) : UInt64 :=
  match OrderedSet.find? Prod.fst BundleID.lt b.toBundleID s.bundleLengths with
  | some x => x.2
  | none => 0

/-- The bundle does not fit any more. -/
def exceeds (s : MemoryBundleStorage) (c : Clock) (b : Bundle) : Bool :=
  decide (s.maxsize > 0) && decide (s.currentsize + b.lengthAt c > s.maxsize)

/-- `MemoryBundleStorage::store`, of a bundle that fits. -/
def insert (s : MemoryBundleStorage) (c : Clock) (b : Bundle) : MemoryBundleStorage :=
  let size := b.lengthAt c
  let s := { s with
    currentsize := s.currentsize + size
    bundleLengths := OrderedSet.assign BundleID.lt b.toBundleID size s.bundleLengths }
  match OrderedSet.find? Bundle.toPrimaryBlock PrimaryBlock.lt b.toPrimaryBlock s.bundles with
  | none =>
      { s with
        bundles := OrderedSet.insert Bundle.toPrimaryBlock PrimaryBlock.lt b s.bundles
        list := s.list.add (.ofBundle c b)
        priorityIndex :=
          OrderedSet.insert id MetaBundle.priorityLt (.ofBundle c b) s.priorityIndex }
  | some _ => s

/-- What `remove` by a filter and `eventBundleExpired` do with `b`, the first bundle that satisfies
`p`. -/
def discard (s : MemoryBundleStorage) (c : Clock) (p : Bundle → Bool) (b : Bundle) :
    MemoryBundleStorage :=
  { s with
    priorityIndex := OrderedSet.erase id MetaBundle.priorityLt (.ofBundle c b) s.priorityIndex
    currentsize := s.currentsize - s.recordedLength b
    bundleLengths := OrderedSet.erase Prod.fst BundleID.lt b.toBundleID s.bundleLengths
    bundles := s.bundles.eraseP p }

/-- What `remove` by an identifier does with `b`, the first bundle that satisfies `p`: the length
is predicted again, and the length that was recorded stays. -/
def discardById (s : MemoryBundleStorage) (c : Clock) (p : Bundle → Bool) (b : Bundle) :
    MemoryBundleStorage :=
  { s with
    priorityIndex := OrderedSet.erase id MetaBundle.priorityLt (.ofBundle c b) s.priorityIndex
    list := s.list.remove (.ofBundle c b)
    currentsize := s.currentsize - b.lengthAt c
    bundles := s.bundles.eraseP p }

/-- `MemoryBundleStorage::eventBundleExpired`. -/
def eventBundleExpired (s : MemoryBundleStorage) (c : Clock) (e : ExpiringBundle) :
    MemoryBundleStorage :=
  let p := fun b : Bundle => e.bundle.toBundleID.eq b.toBundleID
  match s.bundles.find? p with
  | some b => s.discard c p b
  | none => s

/-- What the expiry loop of the bundle list calls. -/
def expiryEvent (c : Clock) (_ : BundleList) (e : ExpiringBundle) (s : MemoryBundleStorage) :
    MemoryBundleStorage :=
  s.eventBundleExpired c e

/-- The calls of a storage. A Bloom filter is what it says to contain; a tick of the clock has a
time. `remove` by a filter makes the meta data that it returns of the bundle in a node that it has
erased, and `freed` is what is read there. -/
inductive Call where
  | store (b : Bundle)
  | removeById (id : BundleID)
  | removeByFilter (contains : Bytes → Bool) (freed : MetaBundle)
  | expire (timestamp : UInt64)
  | clear

/-- The operations of the storage: the outcome, with the meta data that `remove` by a filter
returns, and the storage that the call leaves. -/
def step (s : MemoryBundleStorage) (c : Clock) :
    Call → Except BundleStorage.Exn (Option MetaBundle) × MemoryBundleStorage
  | .store b => if s.exceeds c b then (.error .storageSizeExeeded, s) else (.ok none, s.insert c b)
  | .removeById id =>
      let p := fun b : Bundle => id.eq b.toBundleID
      match s.bundles.find? p with
      | some b => (.ok none, s.discardById c p b)
      | none => (.error .noBundleFound, s)
  | .removeByFilter contains freed =>
      let p := fun b : Bundle => contains b.toString
      match s.bundles.find? p with
      | some b =>
          (.ok (some freed), { s.discard c p b with list := s.list.remove (.ofBundle c b) })
      | none => (.error .noBundleFound, s)
  | .expire timestamp =>
      let (list, s) := s.list.expire c timestamp (expiryEvent c) s
      (.ok none, { s with list })
  | .clear =>
      (.ok none, { s with
        bundles := [], priorityIndex := [], list := s.list.clear, bundleLengths := []
        currentsize := 0 })

/-! ### The ledger -/

/-- An entry of the ledger: a bundle, and the moment at which it was stored. -/
structure Record where
  bundle : Bundle
  clock : Clock

namespace Record

/-- The identifier of the bundle. -/
def id (r : Record) : BundleID := r.bundle.toBundleID

/-- The meta data that was made when the bundle was stored. -/
def metaBundle (r : Record) : MetaBundle := .ofBundle r.clock r.bundle

/-- The length of the bundle when it was stored. -/
def length (r : Record) : UInt64 := r.bundle.lengthAt r.clock

/-- The bundle was seen not to expire before the given time when it was stored. -/
def lasts (timestamp : UInt64) (r : Record) : Bool := decide (timestamp ≤ r.metaBundle.expiretime)

end Record

/-- The ledger behind a call of a storage with the given outcome: what is stored is entered, and what
is removed or expires is struck out. -/
def record (s : MemoryBundleStorage) (c : Clock) (call : Call)
    (outcome : Except BundleStorage.Exn (Option MetaBundle)) (l : List Record) : List Record :=
  match outcome, call with
  | .error _, _ => l
  | .ok _, .store b => ⟨b, c⟩ :: l
  | .ok _, .removeById id => l.filter fun r => !id.eq r.id
  | .ok _, .removeByFilter contains _ =>
      let removed := s.bundles.find? fun b => contains b.toString
      l.filter fun r => decide (removed.map (fun b => b.toBundleID) ≠ some r.id)
  | .ok _, .expire timestamp =>
      if c.hasQuality then l.filter (Record.lasts timestamp) else l
  | .ok _, .clear => []

/-- **The storage keeps the bundles of the ledger**: the set of bundles, the bundle list with its expiry
list and the priority index describe them, each once. -/
structure Tracked (s : MemoryBundleStorage) (l : List Record) : Prop where
  apart : l.Pairwise fun r t => r.id.Apart t.id
  bundles : Holds Bundle.toPrimaryBlock (fun p => p.toBundleID.rank) s.bundles
    (l.map Record.bundle)
  list : s.list.Lists (l.map Record.metaBundle)
  priorityIndex : Holds id MetaBundle.priorityRank s.priorityIndex (l.map Record.metaBundle)

theorem tracked_create (maxsize : UInt64) : (create maxsize).Tracked [] :=
  ⟨.nil, OrderedSet.holds_nil, BundleList.lists_empty, OrderedSet.holds_nil⟩

/-- **The storage agrees with the ledger**: the set of bundles, the bundle list with its expiry list,
the priority index and the map of lengths describe the bundles of the ledger, each once, and the
size is the sum of their lengths. -/
structure Accounted (s : MemoryBundleStorage) (l : List Record) : Prop where
  apart : l.Pairwise fun r t => r.id.Apart t.id
  bundles : Holds Bundle.toPrimaryBlock (fun p => p.toBundleID.rank) s.bundles
    (l.map Record.bundle)
  list : s.list.Lists (l.map Record.metaBundle)
  priorityIndex : Holds id MetaBundle.priorityRank s.priorityIndex (l.map Record.metaBundle)
  bundleLengths : Holds Prod.fst BundleID.rank s.bundleLengths
    (l.map fun r => (r.id, r.length))
  currentsize : s.currentsize.toNat = (l.map fun r => r.length.toNat).sum

theorem accounted_create (maxsize : UInt64) : (create maxsize).Accounted [] :=
  ⟨.nil, OrderedSet.holds_nil, BundleList.lists_empty, OrderedSet.holds_nil, OrderedSet.holds_nil,
    rfl⟩

/-! ### Sound steps -/

/-- The calls that keep the agreement. A bundle is stored only if it is apart from the stored ones
and the sum of the lengths has 64 bits; no bundle is removed by its identifier; and a bundle that
is removed by a filter is still seen to expire at the time at which it was seen to when it was
stored. -/
def Sound (s : MemoryBundleStorage) (c : Clock) : Call → Prop
  | .store b => s.exceeds c b = false →
      (∀ b' ∈ s.bundles, b'.toBundleID.Apart b.toBundleID) ∧
        s.currentsize.toNat + (b.lengthAt c).toNat < 2 ^ 64
  | .removeById id => ∀ b ∈ s.bundles, id.eq b.toBundleID = false
  | .removeByFilter contains _ => ∀ b, s.bundles.find? (fun b => contains b.toString) = some b →
      ∀ e ∈ s.list.expiring, e.bundle.toBundleID = b.toBundleID →
        e.expiretime = c.getExpireTime b
  | .expire _ | .clear => True

namespace Tracked

variable {s : MemoryBundleStorage} {l t : List Record} {r : Record} {c : Clock}

theorem of_perm (h : s.Tracked l) (hperm : l.Perm t) : s.Tracked t where
  apart := h.apart.perm hperm fun h => h.symm
  bundles := h.bundles.of_perm (hperm.map _)
  list := h.list.of_perm (hperm.map _)
  priorityIndex := h.priorityIndex.of_perm (hperm.map _)

/-- The entry of a stored bundle. -/
theorem exists_perm (h : s.Tracked l) {b : Bundle} (hb : b ∈ s.bundles) :
    ∃ r t, r.bundle = b ∧ l.Perm (r :: t) := by
  obtain ⟨r, hr, rfl⟩ := List.mem_map.1 (h.bundles.perm.mem_iff.1 hb)
  obtain ⟨l₁, l₂, rfl⟩ := List.append_of_mem hr
  exact ⟨r, l₁ ++ l₂, rfl, List.perm_middle⟩

/-- The other entries are apart from the first. -/
theorem apart_of_mem (h : s.Tracked (r :: t)) : ∀ u ∈ t, u.id.Apart r.id :=
  fun u hu => ((List.pairwise_cons.1 h.apart).1 u hu).symm

/-- Striking out the first entry by its identifier. -/
theorem filter_ne (h : s.Tracked (r :: t)) :
    (r :: t).filter (fun u => decide (some r.id ≠ some u.id)) = t := by
  rw [List.filter_cons_of_neg (by simp), List.filter_eq_self]
  intro u hu
  simpa using (h.apart_of_mem u hu).ne.symm

/-- **A bundle that is apart from the stored ones is inserted.** -/
theorem insert (h : s.Tracked l) {b : Bundle}
    (hb : ∀ b' ∈ s.bundles, b'.toBundleID.Apart b.toBundleID) :
    (s.insert c b).Tracked (⟨b, c⟩ :: l) := by
  have happart : ∀ u ∈ l, u.id.Apart b.toBundleID := fun u hu =>
    hb u.bundle (h.bundles.perm.mem_iff.2 (List.mem_map_of_mem hu))
  have hranked : ∀ b' ∈ l.map Record.bundle, OrderedSet.Ranked PrimaryBlock.lt
      (fun p => p.toBundleID.rank) b'.toPrimaryBlock b.toPrimaryBlock := by
    intro b' hb'
    obtain ⟨u, hu, rfl⟩ := List.mem_map.1 hb'
    exact PrimaryBlock.ranked_of_apart (happart u hu)
  have hnew := h.bundles.find?_eq_none hranked
  rw [MemoryBundleStorage.insert]
  simp only [hnew]
  refine ⟨?_, h.bundles.insert hranked, ?_, ?_⟩
  · exact List.pairwise_cons.2 ⟨fun u hu => (happart u hu).symm, h.apart⟩
  · refine h.list.add fun m hm => ?_
    obtain ⟨u, hu, rfl⟩ := List.mem_map.1 hm
    exact happart u hu
  · refine h.priorityIndex.insert fun m hm => ?_
    obtain ⟨u, hu, rfl⟩ := List.mem_map.1 hm
    exact MetaBundle.ranked_priority (happart u hu)

/-- The bundle list without a bundle that is still seen to expire at the time at which it was seen to
when it was stored. -/
theorem lists_remove (h : s.Tracked (r :: t)) (htime : r.metaBundle.expiretime = c.getExpireTime r.bundle) :
    (s.list.remove (.ofBundle c r.bundle)).Lists (t.map Record.metaBundle) := by
  refine h.list.remove (fun m hm => ?_) rfl htime
  obtain ⟨u, hu, rfl⟩ := List.mem_map.1 hm
  exact h.apart_of_mem u hu

/-- **A bundle is taken off** the set of bundles, the bundle list and the index. -/
theorem erased (h : s.Tracked (r :: t)) {p : Bundle → Bool}
    (hfind : s.bundles.find? p = some r.bundle) {s' : MemoryBundleStorage}
    (hbundles : s'.bundles = s.bundles.eraseP p) (hlist : s'.list.Lists (t.map Record.metaBundle))
    (hindex : s'.priorityIndex =
      OrderedSet.erase id MetaBundle.priorityLt (.ofBundle c r.bundle) s.priorityIndex) :
    s'.Tracked t := by
  refine ⟨(List.pairwise_cons.1 h.apart).2, hbundles ▸ h.bundles.eraseP hfind, hlist, ?_⟩
  rw [hindex]
  refine h.priorityIndex.erase (MetaBundle.equivalent_priority rfl rfl) fun m hm => ?_
  obtain ⟨u, hu, rfl⟩ := List.mem_map.1 hm
  exact MetaBundle.ranked_priority (h.apart_of_mem u hu)

/-- The bundle of an entry is the one that its meta data finds. -/
theorem find?_bundle (h : s.Tracked (r :: t)) :
    s.bundles.find? (fun b => r.id.eq b.toBundleID) = some r.bundle := by
  obtain ⟨l₁, l₂, hs⟩ := List.append_of_mem
    (h.bundles.perm.mem_iff.2 (List.mem_cons_self : r.bundle ∈ r.bundle :: t.map Record.bundle))
  refine List.find?_eq_some_iff_append.2 ⟨BundleID.eq_refl _, l₁, l₂, hs, fun b hb => ?_⟩
  have hperm : (l₁ ++ l₂).Perm (t.map Record.bundle) := by
    have hperm := h.bundles.perm
    rw [hs] at hperm
    exact (List.perm_middle.symm.trans hperm).cons_inv
  obtain ⟨u, hu, rfl⟩ := List.mem_map.1 (hperm.mem_iff.1 (List.mem_append_left l₂ hb))
  have hne : r.id.eq u.bundle.toBundleID = false := (h.apart_of_mem u hu).symm.eq_false
  rw [hne]
  rfl

end Tracked

/-- **The expiry loop strikes out the bundles whose time is over.** The list is in the order of the
times, so the loop may end at the first bundle whose time is not. What the storage keeps when a
bundle is discarded, it keeps in the loop. -/
theorem expireLoop_keeps {I : MemoryBundleStorage → List Record → Prop} {c : Clock}
    (htracked : ∀ s l, I s l → s.Tracked l) (hperm : ∀ s l t, I s l → l.Perm t → I s t)
    (hdiscard : ∀ s r t p list, I s (r :: t) → s.bundles.find? p = some r.bundle →
      BundleList.Lists list (t.map Record.metaBundle) →
        I { s.discard c p r.bundle with list := list } t)
    {s : MemoryBundleStorage} {l : List Record} {list : BundleList} {es : List ExpiringBundle}
    (h : I { s with list := list } l) (hes : list.expiring = es) (timestamp : UInt64) :
    I { (BundleList.expireLoop timestamp (expiryEvent c) es list s).2 with
      list := (BundleList.expireLoop timestamp (expiryEvent c) es list s).1 }
      (l.filter (Record.lasts timestamp)) := by
  have hexpiring := (htracked _ _ h).list.expiring
  rw [show ({ s with list := list } : MemoryBundleStorage).list.expiring = es from hes] at hexpiring
  induction es generalizing list s l with
  | nil =>
      have hl : l = [] := List.map_eq_nil_iff.1 (List.map_eq_nil_iff.1 hexpiring.perm.nil_eq.symm)
      subst hl
      exact h
  | cons e es ih =>
      have hsorted := List.pairwise_cons.1 hexpiring.sorted
      obtain ⟨m, hm, rfl⟩ := List.mem_map.1 (hexpiring.perm.mem_iff.1 List.mem_cons_self)
      obtain ⟨r, hr, rfl⟩ := List.mem_map.1 hm
      rw [BundleList.expireLoop]
      split_ifs with htime
      · have hall : l.filter (Record.lasts timestamp) = l := by
          refine List.filter_eq_self.2 fun u hu => decide_eq_true ?_
          have hmem := hexpiring.perm.mem_iff.2
            (List.mem_map_of_mem (f := ExpiringBundle.ofMeta) (List.mem_map_of_mem hu))
          rcases List.mem_cons.1 hmem with heq | hmem
          · exact le_of_le_of_eq htime (congrArg ExpiringBundle.expiretime heq).symm
          · exact UInt64.le_trans htime (ExpiringBundle.expiretime_le (hsorted.1 _ hmem))
        rw [hall]
        exact h
      · obtain ⟨l₁, l₂, rfl⟩ := List.append_of_mem hr
        have hmiddle : (l₁ ++ r :: l₂).Perm (r :: (l₁ ++ l₂)) := List.perm_middle
        have hI := hperm _ _ _ h hmiddle
        have hr := htracked _ _ hI
        have hfind : s.bundles.find? (fun b => r.id.eq b.toBundleID) = some r.bundle :=
          hr.find?_bundle
        have hevent : expiryEvent c list (.ofMeta r.metaBundle) s =
            s.discard c (fun b => r.id.eq b.toBundleID) r.bundle := by
          rw [expiryEvent, eventBundleExpired]
          exact hfind ▸ rfl
        have hes' : Holds id ExpiringBundle.rank es
            (((l₁ ++ l₂).map Record.metaBundle).map ExpiringBundle.ofMeta) :=
          ⟨(hexpiring.perm.trans ((hmiddle.map _).map _)).cons_inv, hsorted.2⟩
        have hlist := hr.list.erase_metas fun m hm => by
          obtain ⟨u, hu, rfl⟩ := List.mem_map.1 hm
          exact hr.apart_of_mem u hu
        let list' : BundleList := { list with
          metas := OrderedSet.erase MetaBundle.toBundleID BundleID.lt r.id list.metas
          expiring := es }
        have hdiscarded : I { s.discard c (fun b => r.id.eq b.toBundleID) r.bundle with
            list := list' } (l₁ ++ l₂) :=
          hdiscard { s with list := list } _ _ _ _ hI hfind ⟨hlist, hes'⟩
        rw [hevent]
        refine hperm _ _ _ (ih hdiscarded rfl hes') ?_
        have hfilter := hmiddle.filter (Record.lasts timestamp)
        have hnot : ¬ r.lasts timestamp = true := fun hle => htime (of_decide_eq_true hle)
        rw [List.filter_cons_of_neg hnot] at hfilter
        exact hfilter.symm

/-- **A tick of the clock strikes out the bundles whose time is over.** -/
theorem Tracked.expire {s : MemoryBundleStorage} {l : List Record} (h : s.Tracked l) {c : Clock}
    (hquality : c.hasQuality = true) (timestamp : UInt64) :
    (s.step c (.expire timestamp)).2.Tracked (l.filter (Record.lasts timestamp)) ∧
      (s.step c (.expire timestamp)).2.maxsize = s.maxsize := by
  have hloop := expireLoop_keeps (I := fun s' l => s'.Tracked l ∧ s'.maxsize = s.maxsize) (c := c)
    (fun _ _ h => h.1) (fun _ _ _ h hperm => ⟨h.1.of_perm hperm, h.2⟩)
    (fun _ _ _ _ _ h hfind hlist => ⟨h.1.erased hfind rfl hlist rfl, h.2⟩) (s := s) (l := l)
    ⟨h, rfl⟩ (rfl : s.list.expiring = _) timestamp
  rw [step, BundleList.expire, hquality, if_pos rfl]
  refine ⟨?_, hloop.2⟩
  dsimp only
  split_ifs
  · exact ⟨hloop.1.apart, hloop.1.bundles, ⟨hloop.1.list.metas, hloop.1.list.expiring⟩,
      hloop.1.priorityIndex⟩
  · exact hloop.1

/-- The limit of the size stays when a bundle is inserted. -/
theorem maxsize_insert (s : MemoryBundleStorage) (c : Clock) (b : Bundle) :
    (s.insert c b).maxsize = s.maxsize := by
  rw [insert]
  dsimp only
  split <;> rfl

namespace Accounted

variable {s : MemoryBundleStorage} {l t : List Record} {r : Record} {c : Clock}

theorem tracked (h : s.Accounted l) : s.Tracked l := ⟨h.apart, h.bundles, h.list, h.priorityIndex⟩

theorem of_perm (h : s.Accounted l) (hperm : l.Perm t) : s.Accounted t :=
  have htracked := h.tracked.of_perm hperm
  ⟨htracked.apart, htracked.bundles, htracked.list, htracked.priorityIndex,
    h.bundleLengths.of_perm (hperm.map _), h.currentsize.trans (hperm.map _).sum_eq⟩

/-- **A bundle that fits and is apart from the stored ones is stored.** -/
theorem insert (h : s.Accounted l) {b : Bundle}
    (hb : ∀ b' ∈ s.bundles, b'.toBundleID.Apart b.toBundleID)
    (hsize : s.currentsize.toNat + (b.lengthAt c).toNat < 2 ^ 64) :
    (s.insert c b).Accounted (⟨b, c⟩ :: l) := by
  have htracked := h.tracked.insert (c := c) hb
  have hlengths : (s.insert c b).bundleLengths =
      OrderedSet.assign BundleID.lt b.toBundleID (b.lengthAt c) s.bundleLengths := by
    rw [MemoryBundleStorage.insert]
    dsimp only
    split <;> rfl
  have hcurrentsize : (s.insert c b).currentsize = s.currentsize + b.lengthAt c := by
    rw [MemoryBundleStorage.insert]
    dsimp only
    split <;> rfl
  refine ⟨htracked.apart, htracked.bundles, htracked.list, htracked.priorityIndex, ?_, ?_⟩
  · rw [hlengths]
    refine h.bundleLengths.assign _ fun x hx => ?_
    obtain ⟨u, hu, rfl⟩ := List.mem_map.1 hx
    exact BundleID.ranked_of_apart
      (hb u.bundle (h.bundles.perm.mem_iff.2 (List.mem_map_of_mem hu)))
  · rw [hcurrentsize, UInt64.toNat_add, Nat.mod_eq_of_lt hsize, h.currentsize, List.map_cons,
      List.sum_cons, Nat.add_comm]
    rfl

/-- The length that was recorded for a bundle. -/
theorem recordedLength_eq (h : s.Accounted (r :: t)) : s.recordedLength r.bundle = r.length := by
  have hfind := h.bundleLengths.find?_eq_some (BundleID.equivalent_self r.id) fun x hx => by
    obtain ⟨u, hu, rfl⟩ := List.mem_map.1 hx
    exact BundleID.ranked_of_apart (h.tracked.apart_of_mem u hu)
  rw [recordedLength]
  change (match OrderedSet.find? Prod.fst BundleID.lt r.id s.bundleLengths with
    | some x => x.2
    | none => 0) = r.length
  rw [hfind]

/-- **A bundle is discarded**, and taken off the bundle list. -/
theorem discard (h : s.Accounted (r :: t)) {p : Bundle → Bool}
    (hfind : s.bundles.find? p = some r.bundle) {list : BundleList}
    (hlist : list.Lists (t.map Record.metaBundle)) :
    { s.discard c p r.bundle with list := list }.Accounted t := by
  have htracked : { s.discard c p r.bundle with list := list }.Tracked t :=
    h.tracked.erased (c := c) hfind rfl hlist rfl
  refine ⟨htracked.apart, htracked.bundles, htracked.list, htracked.priorityIndex, ?_, ?_⟩
  · refine h.bundleLengths.erase (BundleID.equivalent_self r.id) fun x hx => ?_
    obtain ⟨u, hu, rfl⟩ := List.mem_map.1 hx
    exact BundleID.ranked_of_apart (h.tracked.apart_of_mem u hu)
  · have hsum := h.currentsize
    rw [List.map_cons, List.sum_cons] at hsum
    have hle : r.length ≤ s.currentsize := by
      rw [UInt64.le_iff_toNat_le]
      omega
    change (s.currentsize - s.recordedLength r.bundle).toNat = _
    rw [h.recordedLength_eq, UInt64.toNat_sub_of_le _ _ hle, hsum, Nat.add_sub_cancel_left]

/-- The expiry loop keeps the agreement. -/
theorem expireLoop {list : BundleList} {es : List ExpiringBundle}
    (h : { s with list := list }.Accounted l) (hes : list.expiring = es) (timestamp : UInt64) :
    { (BundleList.expireLoop timestamp (expiryEvent c) es list s).2 with
      list := (BundleList.expireLoop timestamp (expiryEvent c) es list s).1 }.Accounted
      (l.filter (Record.lasts timestamp)) :=
  expireLoop_keeps (I := Accounted) (fun _ _ h => h.tracked) (fun _ _ _ h => h.of_perm)
    (fun _ _ _ _ _ h hfind hlist => h.discard hfind hlist) h hes timestamp

/-- There are as many lengths as bundles, and the size is their sum. -/
theorem lengths_eq (h : s.Accounted l) :
    s.bundleLengths.length = s.bundles.length ∧
      s.currentsize.toNat = (s.bundleLengths.map fun x => x.2.toNat).sum := by
  have hlengths := h.bundleLengths.perm
  constructor
  · rw [hlengths.length_eq, h.bundles.perm.length_eq, List.length_map, List.length_map]
  · rw [(hlengths.map fun x => x.2.toNat).sum_eq, List.map_map, h.currentsize]
    rfl

end Accounted

/-- A bundle list whose version was counted is still accounted. -/
theorem Accounted.with_version {s : MemoryBundleStorage} {l : List Record} {list : BundleList}
    (h : { s with list := list }.Accounted l) (version : UInt64) :
    { s with list := { list with version := version } }.Accounted l :=
  ⟨h.apart, h.bundles, ⟨h.list.metas, h.list.expiring⟩, h.priorityIndex, h.bundleLengths,
    h.currentsize⟩

/-- **A sound step keeps the agreement with the ledger.** -/
theorem accounted_step {s : MemoryBundleStorage} {l : List Record} (h : s.Accounted l) {c : Clock}
    {call : Call} (hsound : s.Sound c call) :
    (s.step c call).2.Accounted (s.record c call (s.step c call).1 l) := by
  cases call with
  | store b =>
      rw [step]
      cases hexceeds : s.exceeds c b with
      | true => exact h
      | false => exact h.insert (hsound hexceeds).1 (hsound hexceeds).2
  | removeById id =>
      have hnone : s.bundles.find? (fun b => id.eq b.toBundleID) = none := by
        rw [List.find?_eq_none]
        intro b hb
        rw [hsound b hb]
        exact Bool.false_ne_true
      rw [step]
      simp only [hnone]
      exact h
  | removeByFilter contains freed =>
      rw [step]
      cases hfind : s.bundles.find? fun b => contains b.toString with
      | none =>
          exact h
      | some b =>
          obtain ⟨r, t, rfl, hperm⟩ := h.tracked.exists_perm (List.mem_of_find?_eq_some hfind)
          have hr := h.of_perm hperm
          have htime : r.metaBundle.expiretime = c.getExpireTime r.bundle :=
            hsound _ hfind (.ofMeta r.metaBundle)
              (hr.list.expiring.perm.mem_iff.2 List.mem_cons_self) rfl
          simp only [record, hfind, Option.map_some]
          refine (hr.discard (c := c) hfind (hr.tracked.lists_remove htime)).of_perm ?_
          have hfilter := hperm.filter fun u => decide (some r.id ≠ some u.id)
          rw [hr.tracked.filter_ne] at hfilter
          exact hfilter.symm
  | expire timestamp =>
      rw [step, BundleList.expire]
      cases hquality : c.hasQuality with
      | false => simpa [record, hquality] using h
      | true =>
          have hloop := h.expireLoop (c := c) rfl timestamp
          simp only [record, hquality, if_true]
          split_ifs
          · exact hloop.with_version _
          · exact hloop
  | clear =>
      exact ⟨.nil, OrderedSet.holds_nil, BundleList.lists_clear _, OrderedSet.holds_nil,
        OrderedSet.holds_nil, rfl⟩

/-- A step of the storage beside its ledger. -/
def Step (s : MemoryBundleStorage × List Record) (i : Clock × Call)
    (s' : MemoryBundleStorage × List Record) : Prop :=
  s' = ((s.1.step i.1 i.2).2, s.1.record i.1 i.2 (s.1.step i.1 i.2).1 s.2)

/-- The sound steps of the storage. -/
def Meets (s : MemoryBundleStorage × List Record) (i : Clock × Call) : Prop := s.1.Sound i.1 i.2

/-- **Behind every run of sound steps the storage agrees with the ledger**, and its size is zero when
it is empty. -/
theorem accounted_run {maxsize : UInt64} {calls : List (Clock × Call)} {s : MemoryBundleStorage}
    {l : List Record} (h : Transition.Run Step Meets (create maxsize, []) calls (s, l)) :
    s.Accounted l ∧ (s.bundles = [] → s.currentsize = 0) := by
  have hinv : s.Accounted l :=
    h.invariant (I := fun p => p.1.Accounted p.2) (accounted_create maxsize)
      fun p i p' hp hmeets hstep => by
        rw [show p' = _ from hstep]
        exact accounted_step hp hmeets
  refine ⟨hinv, fun hempty => ?_⟩
  have hl : l = [] := by
    have hperm := hinv.bundles.perm
    rw [hempty] at hperm
    exact List.map_eq_nil_iff.1 hperm.nil_eq.symm
  have hsize := hinv.currentsize
  rw [hl] at hsize
  exact UInt64.toNat_inj.1 hsize

/-- A bundle with a payload. -/
def sampleBundle : Bundle :=
  (Bundle.create 7 1).pushBack { Block.newPayload with body := .payload [0x68, 0x69] }

/-- A new storage after some calls, all at one moment. -/
def after (calls : List Call) : MemoryBundleStorage :=
  calls.foldl (fun s call => (s.step (Clock.showing 100) call).2) (create 0)

theorem accounted_run_sample :
    let s := (create 0).step (Clock.showing 100) (.store sampleBundle)
    let s' := s.2.step (Clock.showing 200) (.expire 200)
    s'.2.Accounted (s.2.record (Clock.showing 200) (.expire 200) s'.1
        ((create 0).record (Clock.showing 100) (.store sampleBundle) s.1 [])) ∧
      (s'.2.bundles = [] → s'.2.currentsize = 0) := by
  have hmeets : Meets (create 0, []) (Clock.showing 100, .store sampleBundle) := fun _ =>
    ⟨fun b hb => absurd hb List.not_mem_nil,
      (Nat.zero_add _).trans_lt (UInt64.toNat_lt (sampleBundle.lengthAt (Clock.showing 100)))⟩
  have hstored : Transition.Run Step Meets (create 0, []) _ _ := Transition.Run.nil.snoc hmeets rfl
  have hticked : Meets (((create 0).step (Clock.showing 100) (.store sampleBundle)).2,
      (create 0).record (Clock.showing 100) (.store sampleBundle)
        ((create 0).step (Clock.showing 100) (.store sampleBundle)).1 [])
      (Clock.showing 200, .expire 200) := trivial
  exact accounted_run (hstored.snoc hticked rfl)

/-- **Storing a bundle again, or removing one by its identifier, breaks the agreement**: the size is
not the sum of the recorded lengths any more, and a length is left behind. -/
theorem not_accounted_after :
    (¬ ∃ l, (after [.store sampleBundle, .store sampleBundle]).Accounted l) ∧
      ¬ ∃ l, (after [.store sampleBundle, .removeById sampleBundle.toBundleID]).Accounted l := by
  refine ⟨fun ⟨l, h⟩ => ?_, fun ⟨l, h⟩ => ?_⟩
  · refine absurd h.lengths_eq.2 ?_
    decide +kernel
  · refine absurd h.lengths_eq.1 ?_
    decide +kernel

end MemoryBundleStorage

end IbrDtn
