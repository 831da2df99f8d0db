import IbrDtn.Data.BundleID
import IbrDtn.Utils.Clock
import Mathlib

/-!
# Meta data and lists of bundles

This file models `ibrdtn/data/MetaBundle.cpp` and `ibrdtn/data/BundleList.cpp`.  A storage keeps
meta data of its bundles in a list that is ordered by identifiers, and in one that is ordered by
the time at which they expire.  The third order is that of the priority index of the storages.

## Main definitions

* `MetaBundle` : what the storages and the routing know about a bundle.
* `BundleList` : the list, with `add`, `remove`, `clear` and `expire`.
* `BundleList.expired` : what an expiry leaves.
* `MetaBundle.priorityLt` : the order of the priority index.

## Main results

* `ExpiringBundle.ranked`, `MetaBundle.ranked_priority` : the orders on identifiers that are
  apart.
* `BundleList.Lists.add`, `BundleList.Lists.remove`, `BundleList.Lists.expire` : the operations on a
  list whose bundles are apart.
-/

namespace IbrDtn

open OrderedSet (Ranked Equivalent Holds)

/-- `class MetaBundle`. -/
structure MetaBundle extends BundleID where
  lifetime : UInt64
  destination : EID
  reportto : EID
  custodian : EID
  appdatalength : UInt64
  procflags : UInt64
  expiretime : UInt64
  hopcount : UInt64
deriving DecidableEq, Repr

namespace MetaBundle

/-- `MetaBundle::MetaBundle(const Bundle&)`. -/
def ofBundle (c : Clock) (b : Bundle) : MetaBundle where
  toBundleID := b.toBundleID
  lifetime := b.lifetime
  destination := b.destination
  reportto := b.reportto
  custodian := b.custodian
  appdatalength := b.appdatalength
  procflags := b.procflags
  expiretime := c.getExpireTime b
  hopcount :=
    match b.getBlock Block.newScopeControlHopLimit.blocktype Body.scopeControlHopLimit? with
    | some block => block.getHopsToLive
    | none => UInt64.ofNat (2 ^ 64 - 1)

/-- `MetaBundle::get`. -/
def get (m : MetaBundle) (flag : UInt64) : Bool := FlagWord.has m.procflags flag

/-- `MetaBundle::getPriority`. -/
def getPriority (m : MetaBundle) : ℤ :=
  if m.get PrimaryBlock.priorityBit1 then 0
  else if m.get PrimaryBlock.priorityBit2 then 1
  else -1

/-- `CMP_BUNDLE_PRIORITY` of the storages. -/
def priorityLt (l r : MetaBundle) : Bool :=
  if l.getPriority = r.getPriority then r.toBundleID.gt l.toBundleID
  else decide (l.getPriority > r.getPriority)

end MetaBundle

/-- `class BundleList::ExpiringBundle`. -/
structure ExpiringBundle where
  bundle : MetaBundle
  expiretime : UInt64
deriving DecidableEq, Repr

namespace ExpiringBundle

/-- `ExpiringBundle::ExpiringBundle(const MetaBundle&)`. -/
def ofMeta (m : MetaBundle) : ExpiringBundle := ⟨m, m.expiretime⟩

/-- `ExpiringBundle::operator<`. -/
def lt (a b : ExpiringBundle) : Bool :=
  if a.expiretime < b.expiretime then true
  else if a.expiretime ≠ b.expiretime then false
  else a.bundle.toBundleID.lt b.bundle.toBundleID

/-- The order of the expiry list. -/
def rank (a : ExpiringBundle) : ℕ ×ₗ BundleID.Rank :=
  toLex (a.expiretime.toNat, a.bundle.toBundleID.rank)

theorem ranked {a b : ExpiringBundle} (h : a.bundle.toBundleID.Apart b.bundle.toBundleID) :
    Ranked lt rank a b := by
  have hlt {a b : ExpiringBundle} (h : a.bundle.toBundleID.Apart b.bundle.toBundleID) :
      a.lt b = true ↔ a.rank < b.rank := by
    rw [rank, rank, Prod.Lex.toLex_lt_toLex, ← UInt64.lt_iff_toNat_lt, UInt64.toNat_inj,
      ← (BundleID.ranked_of_apart h).lt_iff, lt]
    split_ifs <;> simp_all
  exact ⟨hlt h, hlt h.symm, fun heq => h.rank_ne (congrArg (fun r => (ofLex r).2) heq)⟩

theorem expiretime_le {a b : ExpiringBundle} (h : a.rank < b.rank) :
    a.expiretime ≤ b.expiretime := by
  rw [rank, rank, Prod.Lex.toLex_lt_toLex] at h
  rw [UInt64.le_iff_toNat_le]
  rcases h with h | h
  · exact h.le
  · exact h.1.le

theorem equivalent {a b : ExpiringBundle} (hid : a.bundle.toBundleID = b.bundle.toBundleID)
    (htime : a.expiretime = b.expiretime) : Equivalent lt rank a b := by
  refine ⟨?_, ?_, ?_⟩
  · simp [lt, htime, hid, BundleID.lt_self]
  · simp [lt, htime, hid, BundleID.lt_self]
  · rw [rank, rank, hid, htime]

end ExpiringBundle

namespace MetaBundle

/-- The order of the priority index: higher priorities come first. -/
def priorityRank (m : MetaBundle) : ℤ ×ₗ BundleID.Rank :=
  toLex (-m.getPriority, m.toBundleID.rank)

theorem ranked_priority {l r : MetaBundle} (h : l.toBundleID.Apart r.toBundleID) :
    Ranked priorityLt priorityRank l r := by
  have hlt {l r : MetaBundle} (h : l.toBundleID.Apart r.toBundleID) :
      l.priorityLt r = true ↔ l.priorityRank < r.priorityRank := by
    have hgt : r.toBundleID.gt l.toBundleID = true ↔ l.toBundleID.rank < r.toBundleID.rank := by
      have hranked := BundleID.ranked_of_apart h
      rw [BundleID.gt, h.symm.eq_false, Bool.or_false, Bool.not_eq_true', ← hranked.lt_iff]
      rcases hranked.lt_or_gt with hlt | ⟨hlt, hgt⟩
      · refine iff_of_true (Bool.eq_false_iff.2 fun hgt => ?_) hlt
        exact lt_asymm (hranked.lt_iff.1 hlt) (hranked.gt_iff.1 hgt)
      · simp [hlt, hgt]
    rw [priorityRank, priorityRank, Prod.Lex.toLex_lt_toLex, ← hgt, priorityLt, neg_lt_neg_iff,
      neg_inj]
    split_ifs with heq
    · simp [heq]
    · simp [heq]
  exact ⟨hlt h, hlt h.symm, fun heq => h.rank_ne (congrArg (fun r => (ofLex r).2) heq)⟩

theorem equivalent_priority {l r : MetaBundle} (hid : l.toBundleID = r.toBundleID)
    (hprio : l.getPriority = r.getPriority) : Equivalent priorityLt priorityRank l r := by
  refine ⟨?_, ?_, ?_⟩
  · rw [priorityLt, if_pos hprio, BundleID.gt, hid, BundleID.eq_refl, Bool.or_true, Bool.not_true]
  · rw [priorityLt, if_pos hprio.symm, BundleID.gt, hid, BundleID.eq_refl, Bool.or_true,
      Bool.not_true]
  · rw [priorityRank, priorityRank, hprio, hid]

end MetaBundle

/-- `class BundleList`: the set it is derived from, `_bundles` and `_version`. -/
structure BundleList where
  metas : List MetaBundle
  expiring : List ExpiringBundle
  version : UInt64
deriving DecidableEq, Repr

namespace BundleList

/-- `BundleList::BundleList`. -/
def empty : BundleList := ⟨[], [], 0⟩

/-- `BundleList::add`. -/
def add (l : BundleList) (m : MetaBundle) : BundleList where
  metas := OrderedSet.insert MetaBundle.toBundleID BundleID.lt m l.metas
  expiring := OrderedSet.insert id ExpiringBundle.lt (.ofMeta m) l.expiring
  version := l.version + 1

/-- `BundleList::remove`. -/
def remove (l : BundleList) (m : MetaBundle) : BundleList where
  metas := OrderedSet.erase MetaBundle.toBundleID BundleID.lt m.toBundleID l.metas
  expiring := OrderedSet.erase id ExpiringBundle.lt (.ofMeta m) l.expiring
  version := l.version + 1

/-- `BundleList::contains`, which compares with `BundleID::operator==`. -/
def contains (l : BundleList) (i : BundleID) : Bool := l.metas.any fun m => m.toBundleID.eq i

/-- `BundleList::clear`. -/
def clear (l : BundleList) : BundleList := ⟨[], [], l.version + 1⟩

/-- The loop of `BundleList::expire` over the expiry list, with what `eventBundleExpired` does to the
state of the storage. -/
def expireLoop {σ : Type} (timestamp : UInt64) (event : BundleList → ExpiringBundle → σ → σ) :
    List ExpiringBundle → BundleList → σ → BundleList × σ
  | [], l, s => (l, s)
  | b :: bs, l, s =>
      if b.expiretime ≥ timestamp then (l, s)
      else
        expireLoop timestamp event bs
          { l with
            metas := OrderedSet.erase MetaBundle.toBundleID BundleID.lt b.bundle.toBundleID l.metas
            expiring := bs }
          (event l b s)

/-- `BundleList::expire`. -/
def expire {σ : Type} (c : Clock) (timestamp : UInt64)
    (event : BundleList → ExpiringBundle → σ → σ) (l : BundleList) (s : σ) : BundleList × σ :=
  if c.hasQuality then
    let (l', s) := expireLoop timestamp event l.expiring l s
    (if l'.expiring.length < l.expiring.length then { l' with version := l'.version + 1 } else l', s)
  else (l, s)

/-! ### What an expiry leaves -/

/-- What expires does not depend on what an expiry does elsewhere. -/
theorem fst_expireLoop {σ τ : Type} (timestamp : UInt64)
    (event : BundleList → ExpiringBundle → σ → σ) (event' : BundleList → ExpiringBundle → τ → τ)
    (es : List ExpiringBundle) (l : BundleList) (s : σ) (t : τ) :
    (expireLoop timestamp event es l s).1 = (expireLoop timestamp event' es l t).1 := by
  induction es generalizing l s t with
  | nil => rfl
  | cons e es ih =>
      rw [expireLoop, expireLoop]
      split_ifs
      · rfl
      · exact ih _ _ _

theorem fst_expire {σ τ : Type} (c : Clock) (timestamp : UInt64)
    (f : BundleList → ExpiringBundle → σ → σ) (g : BundleList → ExpiringBundle → τ → τ)
    (l : BundleList) (s : σ) (t : τ) :
    (l.expire c timestamp f s).1 = (l.expire c timestamp g t).1 := by
  rw [expire, expire]
  split_ifs
  · have hloop := fst_expireLoop timestamp f g l.expiring l s t
    dsimp only
    rw [hloop]
  · rfl

/-- The list that is left. -/
def expired (c : Clock) (timestamp : UInt64) (l : BundleList) : BundleList :=
  (l.expire c timestamp (fun _ _ s => s) ()).1

theorem metas_expireLoop_subset {σ : Type} (timestamp : UInt64)
    (event : BundleList → ExpiringBundle → σ → σ) (es : List ExpiringBundle) (l : BundleList)
    (s : σ) : (expireLoop timestamp event es l s).1.metas ⊆ l.metas := by
  induction es generalizing l s with
  | nil => exact List.Subset.refl _
  | cons e es ih =>
      rw [expireLoop]
      split_ifs
      · exact List.Subset.refl _
      · exact fun m hm => OrderedSet.mem_of_mem_erase (ih _ _ hm)

theorem metas_expired_subset (c : Clock) (timestamp : UInt64) (l : BundleList) :
    (l.expired c timestamp).metas ⊆ l.metas := by
  have hloop := metas_expireLoop_subset timestamp (fun _ _ s => s) l.expiring l ()
  rw [expired, expire]
  split_ifs
  · dsimp only
    split_ifs <;> exact hloop
  · exact List.Subset.refl _

/-! ### Lists of bundles that are apart -/

/-- The list consists of the given bundles. -/
structure Lists (l : BundleList) (ms : List MetaBundle) : Prop where
  metas : Holds MetaBundle.toBundleID BundleID.rank l.metas ms
  expiring : Holds id ExpiringBundle.rank l.expiring (ms.map .ofMeta)

theorem lists_empty : empty.Lists [] := ⟨OrderedSet.holds_nil, OrderedSet.holds_nil⟩

theorem Lists.of_perm {l : BundleList} {ms ns : List MetaBundle} (h : l.Lists ms)
    (hperm : ms.Perm ns) : l.Lists ns :=
  ⟨h.metas.of_perm hperm, h.expiring.of_perm (hperm.map _)⟩

theorem lists_clear (l : BundleList) : l.clear.Lists [] :=
  ⟨OrderedSet.holds_nil, OrderedSet.holds_nil⟩

variable {l : BundleList} {m : MetaBundle} {ms : List MetaBundle}

/-- **A bundle that is apart from the others is added.** -/
theorem Lists.add (h : l.Lists ms) (hm : ∀ n ∈ ms, n.toBundleID.Apart m.toBundleID) :
    (l.add m).Lists (m :: ms) := by
  refine ⟨h.metas.insert fun n hn => BundleID.ranked_of_apart (hm n hn), ?_⟩
  refine h.expiring.insert fun b hb => ?_
  obtain ⟨n, hn, rfl⟩ := List.mem_map.1 hb
  exact ExpiringBundle.ranked (hm n hn)

/-- A bundle is removed from the set of the list. -/
theorem Lists.erase_metas (h : l.Lists (m :: ms)) (hm : ∀ n ∈ ms, n.toBundleID.Apart m.toBundleID) :
    Holds MetaBundle.toBundleID BundleID.rank
      (OrderedSet.erase MetaBundle.toBundleID BundleID.lt m.toBundleID l.metas) ms :=
  h.metas.erase (BundleID.equivalent_self _) fun n hn => BundleID.ranked_of_apart (hm n hn)

/-- **A bundle is removed**, if it is still seen to expire at the time it was seen to when it was
added. -/
theorem Lists.remove (h : l.Lists (m :: ms)) (hm : ∀ n ∈ ms, n.toBundleID.Apart m.toBundleID)
    {m' : MetaBundle} (hid : m.toBundleID = m'.toBundleID) (htime : m.expiretime = m'.expiretime) :
    (l.remove m').Lists ms := by
  refine ⟨?_, ?_⟩
  · rw [BundleList.remove, ← hid]
    exact h.erase_metas hm
  · refine h.expiring.erase (ExpiringBundle.equivalent hid htime) fun b hb => ?_
    obtain ⟨n, hn, rfl⟩ := List.mem_map.1 hb
    exact ExpiringBundle.ranked (hid ▸ hm n hn)

/-- The loop over the expiry list removes only what has expired. -/
theorem Lists.expireLoop {σ : Type} (timestamp : UInt64)
    (event : BundleList → ExpiringBundle → σ → σ) {es : List ExpiringBundle} (h : l.Lists ms)
    (hes : l.expiring = es) (hms : ms.Pairwise fun m n => m.toBundleID.Apart n.toBundleID) (s : σ) :
    ∃ ns, (BundleList.expireLoop timestamp event es l s).1.Lists ns ∧ ns ⊆ ms ∧
      ∀ m ∈ ms, m ∈ ns ∨ m.expiretime < timestamp := by
  induction es generalizing l ms s with
  | nil => exact ⟨ms, h, List.Subset.refl ms, fun _ hm => .inl hm⟩
  | cons b bs ih =>
      rw [BundleList.expireLoop]
      split_ifs with htime
      · exact ⟨ms, h, List.Subset.refl ms, fun _ hm => .inl hm⟩
      · -- The first entry is that of a bundle of the list.
        have hb : b ∈ ms.map .ofMeta := by
          refine h.expiring.perm.mem_iff.1 ?_
          rw [hes]
          exact List.mem_cons_self
        obtain ⟨m, hm, rfl⟩ := List.mem_map.1 hb
        have hperm := List.perm_cons_erase hm
        have hothers := (hperm.pairwise_iff fun h => h.symm).1 hms
        rw [List.pairwise_cons] at hothers
        have hlists := h.of_perm hperm
        have hexpiring : Holds id ExpiringBundle.rank bs ((ms.erase m).map .ofMeta) := by
          have hall := hlists.expiring
          rw [hes] at hall
          exact ⟨hall.perm.cons_inv, (List.pairwise_cons.1 hall.sorted).2⟩
        have hmetas := hlists.erase_metas fun n hn => (hothers.1 n hn).symm
        obtain ⟨ns, hns, hsub, hkept⟩ := ih (l := { l with
          metas := OrderedSet.erase MetaBundle.toBundleID BundleID.lt m.toBundleID l.metas
          expiring := bs }) ⟨hmetas, hexpiring⟩ rfl hothers.2 (event l (.ofMeta m) s)
        refine ⟨ns, hns, fun n hn => List.mem_of_mem_erase (hsub hn), fun n hn => ?_⟩
        rcases List.mem_cons.1 (hperm.mem_iff.1 hn) with rfl | hn
        · exact .inr (UInt64.not_le.1 htime)
        · exact hkept n hn

/-- **A list expires only what has expired.** -/
theorem Lists.expire {σ : Type} (c : Clock) (timestamp : UInt64)
    (event : BundleList → ExpiringBundle → σ → σ) (h : l.Lists ms)
    (hms : ms.Pairwise fun m n => m.toBundleID.Apart n.toBundleID) (s : σ) :
    ∃ ns, (BundleList.expire c timestamp event l s).1.Lists ns ∧ ns ⊆ ms ∧
      ∀ m ∈ ms, m ∈ ns ∨ m.expiretime < timestamp := by
  rw [BundleList.expire]
  split_ifs with hquality
  · obtain ⟨ns, hns, hrest⟩ := h.expireLoop timestamp event rfl hms s
    refine ⟨ns, ?_, hrest⟩
    dsimp only
    split_ifs
    · exact ⟨hns.metas, hns.expiring⟩
    · exact hns
  · exact ⟨ms, h, List.Subset.refl ms, fun _ hm => .inl hm⟩

end BundleList

end IbrDtn
