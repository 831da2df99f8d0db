import IbrDtn.Core.SimpleBundleStorage
import IbrDtn.Core.StorageAgreement

/-!
# Queries of the storages

`get(BundleFilterCallback&)` of `MemoryBundleStorage.cpp` and `SimpleBundleStorage.cpp` walks through
the priority index, a set beside the one of the bundles that has an order of its own.  This file
says what queries answer if both sets hold the same bundles, and for which runs of the storages they
do.

The storage in memory adds a bundle to the index only if it was new to the set of bundles, and takes
the same bundle out of both.  The other storage adds a bundle to both sets whatever they hold, and
lets `BundleID::operator==` find what has expired.  Its set of bundles takes a fragment with a
larger offset for the whole bundle, and a bundle for itself if it comes with another priority, and
the index does not.

## Main definitions

* `BundleFilter.Answers`, `BundleFilter.visit` : an answer, and queries one after the other.
* `Queries` : what is asked of the queries of a storage.
* `SimpleBundleStorage.Agrees` : the condition on the steps.

## Main results

* `queries_of_holds` : a sorted index of the stored bundles answers all queries.
* `MemoryBundleStorage.exists_keeps_step`, `SimpleBundleStorage.Consistent.step` : what a step keeps.
* `queries_run` : the queries behind every run.
-/

namespace IbrDtn

open MemoryBundleStorage (Record)
open OrderedSet (Holds Ranked)
open Selection (select accepts)
open Transition (Run)

/-- `SimpleBundleStorage::get(BundleFilterCallback&)`. -/
def SimpleBundleStorage.getFilter {ε : Type} (s : SimpleBundleStorage) (f : BundleFilter ε) :
    Except ε (List MetaBundle) :=
  select f.shouldAdd (if 0 < f.limit then f.limit else s.priorityIndex.length) s.priorityIndex

namespace BundleFilter

variable {ε : Type}

/-- **What is asked of an answer**: it consists of different stored bundles that the filter accepts,
at most as many as the limit says, those of higher priority first. An accepted bundle is missing
only if the limit is reached by bundles of at least its priority. -/
structure Answers (f : BundleFilter ε) (stored l : List MetaBundle) : Prop where
  distinct : l.Pairwise fun m n => m.toBundleID ≠ n.toBundleID
  accepted : ∀ m ∈ l, m ∈ stored ∧ f.shouldAdd m = .ok true
  limited : 0 < f.limit → l.length ≤ f.limit
  ordered : l.Pairwise fun m n => n.getPriority ≤ m.getPriority
  complete : ∀ m ∈ stored, f.shouldAdd m = .ok true → m ∉ l →
    0 < f.limit ∧ l.length = f.limit ∧ ∀ n ∈ l, m.getPriority ≤ n.getPriority

/-- The filter that rejects what was returned before. -/
def without (f : BundleFilter ε) (seen : List MetaBundle) : BundleFilter ε :=
  { f with shouldAdd := fun m => if m ∈ seen then .ok false else f.shouldAdd m }

/-- Queries one after the other, each without what was returned before, and all that they return. -/
def visit (query : BundleFilter ε → Except ε (List MetaBundle)) (f : BundleFilter ε) :
    ℕ → List MetaBundle → Except ε (List MetaBundle)
  | 0, seen => .ok seen
  | k + 1, seen =>
      match query (f.without seen) with
      | .error e => .error e
      | .ok l => visit query f k (seen ++ l)

end BundleFilter

/-- **What is asked of the queries of a storage**: each one answers, or throws what the filter
throws for a stored bundle; and as many queries as there are bundles, each without what was returned
before, visit all that the filter accepts. -/
structure Queries (stored : List MetaBundle)
    (query : (ε : Type) → BundleFilter ε → Except ε (List MetaBundle)) : Prop where
  answers : ∀ {ε : Type} (f : BundleFilter ε) (l), query ε f = .ok l → f.Answers stored l
  throws : ∀ {ε : Type} (f : BundleFilter ε) (e), query ε f = .error e →
    ∃ m ∈ stored, f.shouldAdd m = .error e
  visits : ∀ {ε : Type} (f : BundleFilter ε) (k), stored.length ≤ k → ∀ l,
    f.visit (query ε) k [] = .ok l → l.Perm (stored.filter (accepts f.shouldAdd))
  visit_throws : ∀ {ε : Type} (f : BundleFilter ε) (k e), f.visit (query ε) k [] = .error e →
    ∃ m ∈ stored, f.shouldAdd m = .error e

/-! ### Queries of an index -/

section Index

variable {ε : Type} {index stored : List MetaBundle}

/-- What both storages answer. -/
abbrev queryIndex (index : List MetaBundle) (ε : Type) (f : BundleFilter ε) :
    Except ε (List MetaBundle) :=
  select f.shouldAdd (if 0 < f.limit then f.limit else index.length) index

theorem accepts_iff {f : MetaBundle → Except ε Bool} {m : MetaBundle} :
    accepts f m = true ↔ f m = .ok true := by
  rw [accepts]
  cases f m <;> simp

/-- **An index in the order of the priorities answers.** -/
theorem answers_of_holds (h : Holds id MetaBundle.priorityRank index stored)
    (hid : stored.Pairwise fun m n => m.toBundleID ≠ n.toBundleID) {f : BundleFilter ε}
    {l : List MetaBundle} (hl : queryIndex index ε f = .ok l) : f.Answers stored l := by
  have htake := Selection.eq_take_of_select hl
  have hprio : index.Pairwise fun m n => n.getPriority ≤ m.getPriority :=
    h.sorted.imp fun hlt => by
      rcases (Prod.Lex.toLex_lt_toLex).1 hlt with hlt | hlt
      · exact (neg_lt_neg_iff.1 hlt).le
      · exact (neg_inj.1 hlt.1).ge
  have hsub : l.Sublist (index.filter (accepts f.shouldAdd)) :=
    htake ▸ List.take_sublist _ _
  have hindex := (List.perm_comm.1 h.perm).pairwise hid fun hne => hne.symm
  refine ⟨hindex.sublist (hsub.trans List.filter_sublist), fun m hm => ?_, fun hlimit => ?_,
    hprio.sublist (hsub.trans List.filter_sublist), fun m hm haccepts hmissing => ?_⟩
  · obtain ⟨hm, haccepts⟩ := Selection.accepts_of_mem_select hl m hm
    exact ⟨h.perm.mem_iff.1 hm, haccepts⟩
  · rw [htake, if_pos hlimit]
    exact List.length_take_le _ _
  · have hm : m ∈ index.filter (accepts f.shouldAdd) :=
      List.mem_filter.2 ⟨h.perm.mem_iff.2 hm, accepts_iff.2 haccepts⟩
    have hsplit := List.take_append_drop (if 0 < f.limit then f.limit else index.length)
      (index.filter (accepts f.shouldAdd))
    rw [← htake] at hsplit
    rw [← hsplit] at hm
    have hdrop := (List.mem_append.1 hm).resolve_left hmissing
    have hlt := List.length_pos_of_mem hdrop
    rw [List.length_drop] at hlt
    have hle := (List.filter_sublist (p := accepts f.shouldAdd) (l := index)).length_le
    have hlimit : 0 < f.limit := by
      by_contra hnot
      rw [if_neg hnot] at hlt
      omega
    rw [if_pos hlimit] at hlt htake
    refine ⟨hlimit, ?_, fun n hn => ?_⟩
    · rw [htake, List.length_take]
      omega
    · have hall : (index.filter (accepts f.shouldAdd)).Pairwise
          fun m n => n.getPriority ≤ m.getPriority := hprio.sublist List.filter_sublist
      rw [← hsplit] at hall
      exact (List.pairwise_append.1 hall).2.2 n hn m hdrop

/-- What is left for the next query. -/
theorem filter_without (hnodup : index.Nodup) (f : BundleFilter ε) (j : ℕ) :
    index.filter (accepts (f.without ((index.filter (accepts f.shouldAdd)).take j)).shouldAdd) =
      (index.filter (accepts f.shouldAdd)).drop j := by
  have hsplit := List.take_append_drop j (index.filter (accepts f.shouldAdd))
  have hdisjoint := hnodup.filter (accepts f.shouldAdd)
  rw [← hsplit, List.nodup_append] at hdisjoint
  generalize (index.filter (accepts f.shouldAdd)).take j = seen at hsplit hdisjoint ⊢
  generalize (index.filter (accepts f.shouldAdd)).drop j = rest at hsplit hdisjoint ⊢
  have haccepts : accepts (f.without seen).shouldAdd =
      fun m => decide (m ∉ seen) && accepts f.shouldAdd m := by
    funext m
    by_cases hm : m ∈ seen <;> simp [accepts, BundleFilter.without, hm]
  have hseen : seen.filter (fun m => decide (m ∉ seen)) = [] :=
    List.filter_eq_nil_iff.2 fun m hm hnot => of_decide_eq_true hnot hm
  have hrest : rest.filter (fun m => decide (m ∉ seen)) = rest :=
    List.filter_eq_self.2 fun m hm => decide_eq_true fun hin => hdisjoint.2.2 m hin m hm rfl
  rw [haccepts, ← List.filter_filter, ← hsplit, List.filter_append, hseen, List.nil_append, hrest]

/-- **Queries one after the other** visit what the filter accepts, in the order of the index. -/
theorem eq_take_of_visit (hnodup : index.Nodup) {f : BundleFilter ε} (k : ℕ) {j : ℕ}
    {l : List MetaBundle}
    (h : f.visit (queryIndex index ε) k ((index.filter (accepts f.shouldAdd)).take j) = .ok l) :
    l = (index.filter (accepts f.shouldAdd)).take
      (j + k * if 0 < f.limit then f.limit else index.length) := by
  induction k generalizing j with
  | zero =>
      rw [Nat.zero_mul, Nat.add_zero]
      exact (Except.ok.inj h).symm
  | succ k ih =>
      rw [BundleFilter.visit] at h
      split at h
      · cases h
      · rename_i l' hl'
        have htake := Selection.eq_take_of_select hl'
        rw [filter_without hnodup] at htake
        rw [htake, ← List.take_add] at h
        rw [ih h, Nat.succ_mul, Nat.add_assoc, Nat.add_comm (k * _)]
        rfl

theorem throws_of_queryIndex {f : BundleFilter ε} {e : ε} (h : queryIndex index ε f = .error e) :
    ∃ m ∈ index, f.shouldAdd m = .error e := by
  obtain ⟨l₁, m, l₂, hindex, -, -, hm⟩ := Selection.select_eq_error_iff.1 h
  exact ⟨m, hindex ▸ List.mem_append_right l₁ List.mem_cons_self, hm⟩

theorem throws_of_visit {f : BundleFilter ε} {k : ℕ} {seen : List MetaBundle} {e : ε}
    (h : f.visit (queryIndex index ε) k seen = .error e) :
    ∃ m ∈ index, f.shouldAdd m = .error e := by
  induction k generalizing seen with
  | zero => cases h
  | succ k ih =>
      rw [BundleFilter.visit] at h
      split at h
      · rename_i e' he'
        obtain rfl := Except.error.inj h
        obtain ⟨m, hm, hthrows⟩ := throws_of_queryIndex he'
        refine ⟨m, hm, ?_⟩
        dsimp only [BundleFilter.without] at hthrows
        split_ifs at hthrows
        exact hthrows
      · exact ih h

/-- **An index in the order of the priorities that holds the stored bundles answers all queries.**
-/
theorem queries_of_holds (h : Holds id MetaBundle.priorityRank index stored)
    (hid : stored.Pairwise fun m n => m.toBundleID ≠ n.toBundleID) :
    Queries stored (queryIndex index) where
  answers _ _ hl := answers_of_holds h hid hl
  throws _ _ he := by
    obtain ⟨m, hm, hthrows⟩ := throws_of_queryIndex he
    exact ⟨m, h.perm.mem_iff.1 hm, hthrows⟩
  visits f k hk l hl := by
    have hnodup : index.Nodup := h.sorted.imp fun hlt heq => (heq ▸ hlt).false
    have htake := eq_take_of_visit hnodup k (j := 0) (by rw [List.take_zero]; exact hl)
    have hle := (List.filter_sublist (p := accepts f.shouldAdd) (l := index)).length_le
    have hlength := h.perm.length_eq
    rw [htake, List.take_of_length_le]
    · exact h.perm.filter _
    · rw [Nat.zero_add]
      rcases Nat.eq_zero_or_pos index.length with hzero | hpos
      · omega
      · refine hle.trans (hlength.le.trans (hk.trans (Nat.le_mul_of_pos_right k ?_)))
        split_ifs <;> assumption
  visit_throws _ _ _ he := by
    obtain ⟨m, hm, hthrows⟩ := throws_of_visit he
    exact ⟨m, h.perm.mem_iff.1 hm, hthrows⟩

end Index

/-! ### The storage in memory -/

/-- What the order of the set of bundles compares is told apart. -/
theorem PrimaryBlock.separate_of_lt {p q : PrimaryBlock} (h : p.lt q = true) :
    p.toBundleID.Separate q.toBundleID := by
  intro hsource
  rcases (BundleID.ltWith_iff _ _ _).1 h with hlt | ⟨heq, hrest⟩
  · rw [BundleID.eid_lt_irrefl hsource] at hlt
    cases hlt
  · refine ⟨heq, fun htime hseq => ?_⟩
    rcases hrest with hlt | ⟨-, hlt | ⟨-, hlast⟩⟩
    · exact absurd (htime ▸ hlt) (UInt64.lt_irrefl _)
    · exact absurd (hseq ▸ hlt) (UInt64.lt_irrefl _)
    · rw [Bool.and_eq_true, decide_eq_true_eq] at hlast
      exact .inl hlast

namespace MemoryBundleStorage

variable {s : MemoryBundleStorage} {l : List Record}

/-- **Storing keeps both sets the same**, whether or not the bundle is new. -/
theorem Keeps.exists_insert (h : s.Keeps l) (c : Clock) (b : Bundle) :
    ∃ l', (s.insert c b).Keeps l' := by
  cases hfind :
      OrderedSet.find? Bundle.toPrimaryBlock PrimaryBlock.lt b.toPrimaryBlock s.bundles with
  | some b' =>
      rw [MemoryBundleStorage.insert]
      simp only [hfind]
      exact ⟨l, h.separate, h.bundles, h.priorityIndex⟩
  | none =>
      have hrecords : (l.map Record.bundle).Pairwise
          fun b b' => b.toBundleID.Separate b'.toBundleID := List.pairwise_map.2 h.separate
      have hseparate := hrecords.perm h.bundles.perm.symm fun hne => hne.symm
      have hsorted : s.bundles.Pairwise fun b b' => b.toPrimaryBlock.lt b'.toPrimaryBlock = true :=
        (h.bundles.sorted.and hseparate).imp fun hboth =>
          (PrimaryBlock.ranked_of_separate hboth.2).lt_iff.2 hboth.1
      have htrans (p q r : PrimaryBlock) (hpq : p.lt q = true) (hqr : q.lt r = true) :
          p.lt r = true := PrimaryBlock.lt_trans hpq hqr
      have hnew := OrderedSet.comparable_of_find?_eq_none htrans hsorted hfind
      refine ⟨_, h.insert fun b' hb' => ?_⟩
      rcases hnew b' hb' with hlt | hlt
      · exact PrimaryBlock.separate_of_lt hlt
      · exact (PrimaryBlock.separate_of_lt hlt).symm

/-- A bundle that is found is taken out of both sets. -/
theorem Keeps.exists_erased (h : s.Keeps l) {c : Clock} {p : Bundle → Bool} {b : Bundle}
    (hfind : s.bundles.find? p = some b) {s' : MemoryBundleStorage}
    (hbundles : s'.bundles = s.bundles.eraseP p)
    (hindex : s'.priorityIndex =
      OrderedSet.erase id MetaBundle.priorityLt (.ofBundle c b) s.priorityIndex) :
    ∃ l', s'.Keeps l' := by
  obtain ⟨r, t, rfl, hperm⟩ := h.exists_perm (List.mem_of_find?_eq_some hfind)
  exact ⟨t, (h.of_perm hperm).erased hfind hbundles hindex⟩

theorem Keeps.exists_expireLoop (h : s.Keeps l) (c : Clock) (timestamp : UInt64)
    (es : List ExpiringBundle) (list : BundleList) :
    ∃ l', (BundleList.expireLoop timestamp (expiryEvent c) es list s).2.Keeps l' := by
  induction es generalizing s l list with
  | nil => exact ⟨l, h⟩
  | cons e es ih =>
      rw [BundleList.expireLoop]
      split_ifs
      · exact ⟨l, h⟩
      · cases hfind : s.bundles.find? fun b => e.bundle.toBundleID.eq b.toBundleID with
        | none =>
            rw [expiryEvent, eventBundleExpired]
            simp only [hfind]
            exact ih h _
        | some b =>
            rw [expiryEvent, eventBundleExpired]
            simp only [hfind]
            obtain ⟨l', h'⟩ : ∃ l', (s.discard c
                (fun b => e.bundle.toBundleID.eq b.toBundleID) b).Keeps l' :=
              h.exists_erased hfind rfl rfl
            exact ih h' _

/-- **Every call keeps the set of bundles and the priority index the same.** -/
theorem exists_keeps_step (h : s.Keeps l) (c : Clock) (call : Call) :
    ∃ l', (s.step c call).2.Keeps l' := by
  cases call with
  | store b =>
      rw [step]
      split_ifs
      · exact ⟨l, h⟩
      · exact h.exists_insert c b
  | removeById id =>
      rw [step]
      split
      · exact h.exists_erased ‹_› rfl rfl
      · exact ⟨l, h⟩
  | removeByFilter contains freed =>
      rw [step]
      split
      · exact h.exists_erased ‹_› rfl rfl
      · exact ⟨l, h⟩
  | expire timestamp =>
      rw [step, BundleList.expire]
      split_ifs
      · obtain ⟨l', h'⟩ := h.exists_expireLoop c timestamp s.list.expiring s.list
        exact ⟨l', h'.separate, h'.bundles, h'.priorityIndex⟩
      · exact ⟨l, h.separate, h.bundles, h.priorityIndex⟩
  | clear => exact ⟨[], keeps_nil rfl rfl⟩

end MemoryBundleStorage

/-! ### The storage on disk -/

namespace MetaBundle

variable {l m n : MetaBundle}

/-- One of the bundles comes before the other in the priority index. -/
def Prior (m n : MetaBundle) : Prop := m.priorityLt n = true ∨ n.priorityLt m = true

theorem priorityLt_of_eq (h : m.getPriority = n.getPriority) :
    m.priorityLt n = true ↔ ¬ n.toBundleID.lt m.toBundleID = true ∧
      ¬ n.toBundleID.eq m.toBundleID = true := by
  rw [priorityLt, if_pos h, BundleID.gt, Bool.not_eq_true', Bool.or_eq_false_iff,
    Bool.not_eq_true, Bool.not_eq_true]

theorem priorityLt_of_ne (h : m.getPriority ≠ n.getPriority) :
    m.priorityLt n = true ↔ n.getPriority < m.getPriority := by
  rw [priorityLt, if_neg h, decide_eq_true_eq, gt_iff_lt]

theorem le_of_priorityLt (h : m.priorityLt n = true) : n.getPriority ≤ m.getPriority := by
  by_cases heq : m.getPriority = n.getPriority
  · exact heq.ge
  · exact ((priorityLt_of_ne heq).1 h).le

/-- **The order of the index agrees with the ranks** on bundles that both orders compare. -/
theorem ranked_priority_of_prior (h : m.toBundleID.Comparable n.toBundleID) (hprior : m.Prior n) :
    Ranked priorityLt priorityRank m n := by
  have hlt {m n : MetaBundle} (h : m.toBundleID.Comparable n.toBundleID) (hprior : m.Prior n) :
      m.priorityLt n = true ↔ m.priorityRank < n.priorityRank := by
    rw [priorityRank, priorityRank, Prod.Lex.toLex_lt_toLex, neg_lt_neg_iff, neg_inj]
    by_cases heq : m.getPriority = n.getPriority
    · rw [heq, lt_self_iff_false, false_or, and_iff_right rfl]
      constructor
      · intro hmn
        exact BundleID.rank_lt_of_lt (h.resolve_right ((priorityLt_of_eq heq).1 hmn).1)
      · intro hrank
        refine hprior.resolve_right fun hnm => ?_
        have hnot := ((priorityLt_of_eq heq.symm).1 hnm).1
        exact hnot ((BundleID.ranked_of_comparable h).lt_iff.2 hrank)
    · rw [priorityLt_of_ne heq, or_iff_left fun hand => heq hand.1]
  refine ⟨hlt h hprior, hlt h.symm hprior.symm, fun heq => ?_⟩
  exact (BundleID.ranked_of_comparable h).ne (congrArg (fun r => (ofLex r).2) heq)

/-- A bundle that comes before one of the index is compared with those behind it. -/
theorem prior_of_between (hl : l.toBundleID.Comparable m.toBundleID)
    (hn : l.toBundleID.Comparable n.toBundleID) (hlm : l.priorityLt m = true)
    (hmn : m.priorityLt n = true) : l.Prior n := by
  by_cases hprio : l.getPriority = n.getPriority
  · have hle := le_of_priorityLt hlm
    have hle' := le_of_priorityLt hmn
    obtain ⟨hml, -⟩ := (priorityLt_of_eq (by omega)).1 hlm
    obtain ⟨hnm, heq⟩ := (priorityLt_of_eq (by omega)).1 hmn
    have hlm : l.toBundleID.lt m.toBundleID = true := hl.resolve_right hml
    refine .inl ((priorityLt_of_eq hprio).2
      ⟨fun hnl => hnm (BundleID.lt_trans hnl hlm), fun h => ?_⟩)
    obtain ⟨htime, hseq, hsource, hoffset⟩ := (BundleID.eq_iff _ _).1 h
    -- Then both differ at most in the offset, and one without a mark is compared as the other.
    cases hfragment : n.toBundleID.fragment with
    | true =>
        have hsame : l.toBundleID.lt n.toBundleID = false := by
          rw [Bool.eq_false_iff, Ne, BundleID.lt_iff, hsource, htime, hseq, hoffset hfragment]
          simp [BundleID.eid_lt_irrefl]
        rcases hn with hln | hnl
        · rw [hsame] at hln
          cases hln
        · exact hnm (BundleID.lt_trans hnl hlm)
    | false =>
        rw [BundleID.lt_iff, hsource, htime, hseq] at hlm
        rcases hlm with hlt | ⟨hsource', hlt | ⟨htime', hlt | ⟨hseq', -⟩⟩⟩
        · exact hnm ((BundleID.lt_iff _ _).2 (.inl hlt))
        · exact hnm ((BundleID.lt_iff _ _).2 (.inr ⟨hsource', .inl hlt⟩))
        · exact hnm ((BundleID.lt_iff _ _).2 (.inr ⟨hsource', .inr ⟨htime', .inl hlt⟩⟩))
        · refine heq ((BundleID.eq_iff _ _).2
            ⟨htime'.symm, hseq'.symm, hsource'.symm, fun hnot => ?_⟩)
          rw [hfragment] at hnot
          cases hnot
  · rcases lt_or_gt_of_ne hprio with hlt | hlt
    · exact .inr ((priorityLt_of_ne (Ne.symm hprio)).2 hlt)
    · exact .inl ((priorityLt_of_ne hprio).2 hlt)

end MetaBundle

namespace SimpleBundleStorage

/-- The set of bundles and the priority index hold the same bundles, and each of their orders
compares all of them. -/
structure Consistent (metas index : List MetaBundle) : Prop where
  sorted : metas.Pairwise fun m n => m.toBundleID.lt n.toBundleID = true
  prior : metas.Pairwise MetaBundle.Prior
  index : Holds id MetaBundle.priorityRank index metas

namespace Consistent

variable {metas metas' index : List MetaBundle} {m : MetaBundle}

theorem nil : Consistent [] [] := ⟨.nil, .nil, OrderedSet.holds_nil⟩

theorem ranked (h : Consistent metas index) :
    metas.Pairwise (Ranked MetaBundle.priorityLt MetaBundle.priorityRank) :=
  (h.sorted.and h.prior).imp fun hboth =>
    MetaBundle.ranked_priority_of_prior (.inl hboth.1) hboth.2

/-- **A bundle is listed** if both sets take it for new, or both for one that they hold. -/
theorem add (h : Consistent metas index)
    (hboth : (OrderedSet.find? MetaBundle.toBundleID BundleID.lt m.toBundleID metas).isSome =
      (OrderedSet.find? id MetaBundle.priorityLt m index).isSome) :
    Consistent (OrderedSet.insert MetaBundle.toBundleID BundleID.lt m metas)
      (OrderedSet.insert id MetaBundle.priorityLt m index) := by
  have htrans (i j k : BundleID) (hij : i.lt j = true) (hjk : j.lt k = true) : i.lt k = true :=
    BundleID.lt_trans hij hjk
  cases hindex : (OrderedSet.find? id MetaBundle.priorityLt m index).isSome with
  | true =>
      have hheld : (OrderedSet.find? id MetaBundle.priorityLt (id m) index).isSome = true := hindex
      rw [OrderedSet.insert_of_isSome_find? (hboth.trans hindex),
        OrderedSet.insert_of_isSome_find? hheld]
      exact h
  | false =>
      have hnew := OrderedSet.comparable_of_find?_eq_none htrans h.sorted
        (Option.isSome_eq_false_iff.1 (hboth.trans hindex) |> Option.isNone_iff_eq_none.1)
      have hpriority : index.Pairwise fun m n => m.priorityLt n = true :=
        ((h.ranked.perm h.index.perm.symm fun hr => hr.symm).and h.index.sorted).imp fun hr =>
          hr.1.lt_iff.2 hr.2
      have hprior := OrderedSet.comparable_of_between hpriority (fun x hx y hy hmx hxy =>
        Or.symm (MetaBundle.prior_of_between (hnew x (h.index.perm.mem_iff.1 hx)).symm
          (hnew y (h.index.perm.mem_iff.1 hy)).symm hmx hxy))
        (Option.isNone_iff_eq_none.1 (Option.isSome_eq_false_iff.1 hindex))
      replace hprior : ∀ n ∈ metas, m.Prior n := fun n hn =>
        (hprior n (h.index.perm.mem_iff.2 hn)).symm
      have hperm := OrderedSet.perm_insert hnew
      refine ⟨OrderedSet.pairwise_insert htrans m h.sorted, ?_, ?_⟩
      · exact (List.pairwise_cons.2 ⟨hprior, h.prior⟩).perm hperm.symm fun hp => hp.symm
      · exact (h.index.insert fun n hn => MetaBundle.ranked_priority_of_prior (hnew n hn)
          (hprior n hn).symm).of_perm hperm.symm

/-- **A listed bundle is taken out of both sets.** -/
theorem erase (h : Consistent metas index) (hperm : metas.Perm (m :: metas'))
    (hsub : metas'.Sublist metas) :
    Consistent metas' (OrderedSet.erase id MetaBundle.priorityLt m index) := by
  have hranked := (List.pairwise_cons.1 (h.ranked.perm hperm fun hr => hr.symm)).1
  exact ⟨h.sorted.sublist hsub, h.prior.sublist hsub, (h.index.of_perm hperm).erase
    (MetaBundle.equivalent_priority rfl rfl) fun n hn => (hranked n hn).symm⟩

end Consistent

/-! ### The condition on the steps -/

/-- Both sets take the bundle for a new one, or both take it for one that they hold. -/
def TakesSame (s : SimpleBundleStorage) (m : MetaBundle) : Prop :=
  (OrderedSet.find? MetaBundle.toBundleID BundleID.lt m.toBundleID s.list.metas).isSome =
    (OrderedSet.find? id MetaBundle.priorityLt m s.priorityIndex).isSome

instance (s : SimpleBundleStorage) (m : MetaBundle) : Decidable (s.TakesSame m) :=
  inferInstanceAs (Decidable (_ = _))

/-- For every entry that has expired, the bundle that `BundleID::operator==` finds is the only one
that the order of the list does not tell from the entry. -/
def FindsSame (timestamp : UInt64) : List ExpiringBundle → List MetaBundle → Prop
  | [], _ => True
  | e :: es, metas => e.expiretime < timestamp →
      (metas.find? fun m => m.toBundleID.eq e.bundle.toBundleID).toList =
          metas.filter (fun m => !(m.toBundleID.lt e.bundle.toBundleID ||
            e.bundle.toBundleID.lt m.toBundleID)) ∧
        FindsSame timestamp es
          (OrderedSet.erase MetaBundle.toBundleID BundleID.lt e.bundle.toBundleID metas)

/-- **The condition on the steps.** A bundle that is stored or restored is new to both sets or to
none, and the two comparisons of a tick find the same bundles. -/
def Agrees (s : SimpleBundleStorage) : Action → Prop
  | .restore c _ found => s.TakesSame (.ofBundle c found.bundle)
  | .store node c b => s.exceeds c b = false → s.TakesSame (.ofBundle c (withCustody node c b))
  | .expire c timestamp => c.hasQuality = true → FindsSame timestamp s.list.expiring s.list.metas
  | .handOver _ | .get _ _ _ | .removeById _ | .removeByFilter _ | .clear | .work _
  | .callback _ _ => True

variable {s : SimpleBundleStorage}

theorem Consistent.discard (h : Consistent s.list.metas s.priorityIndex) {m : MetaBundle}
    (hm : m ∈ s.list.metas) :
    Consistent (s.discard m).list.metas (s.discard m).priorityIndex :=
  h.erase (OrderedSet.perm_erase h.sorted hm m.toBundleID.lt_self) (OrderedSet.sublist_erase _ _)

theorem Consistent.removeById (h : Consistent s.list.metas s.priorityIndex) (i : BundleID) :
    Consistent (s.removeById i).list.metas (s.removeById i).priorityIndex := by
  rw [SimpleBundleStorage.removeById]
  split
  · exact h.discard (List.mem_of_find?_eq_some ‹_›)
  · exact h

/-- **A tick takes the expired bundles out of both sets.** -/
theorem Consistent.expireLoop {timestamp : UInt64} {es : List ExpiringBundle} {list : BundleList}
    (h : Consistent list.metas s.priorityIndex) (hes : FindsSame timestamp es list.metas) :
    Consistent (BundleList.expireLoop timestamp eventBundleExpired es list s).1.metas
      (BundleList.expireLoop timestamp eventBundleExpired es list s).2.priorityIndex := by
  induction es generalizing list s with
  | nil => exact h
  | cons e es ih =>
      rw [BundleList.expireLoop]
      split_ifs with htime
      · exact h
      · obtain ⟨hsame, hes⟩ := hes (UInt64.not_le.1 htime)
        refine ih ?_ hes
        rw [eventBundleExpired]
        have hsorted : list.metas.Pairwise fun x y =>
            x.toBundleID.lt (MetaBundle.toBundleID y) = true := h.sorted
        have hids : ∀ i j k : BundleID, i.lt j = true → j.lt k = true → i.lt k = true :=
          fun _ _ _ => BundleID.lt_trans
        have hperm := (OrderedSet.perm_erase_append hids hsorted
          e.bundle.toBundleID).symm
        rw [← hsame] at hperm
        cases hfind : list.metas.find? fun m => m.toBundleID.eq e.bundle.toBundleID with
        | none =>
            rw [hfind, Option.toList_none, List.append_nil] at hperm
            rw [(OrderedSet.sublist_erase _ _).eq_of_length hperm.symm.length_eq]
            exact h
        | some m =>
            rw [hfind, Option.toList_some] at hperm
            exact h.erase (hperm.trans List.perm_append_comm) (OrderedSet.sublist_erase _ _)

/-- The worker and its callbacks leave both sets alone. -/
theorem callback_sets (s : SimpleBundleStorage) (c : Clock) (fresh : Bundle) :
    (s.callback c fresh).list = s.list ∧ (s.callback c fresh).priorityIndex = s.priorityIndex := by
  rw [callback]
  split
  · exact ⟨rfl, rfl⟩
  · exact ⟨rfl, rfl⟩
  · rw [eventDataStorageRemoved]
    split <;> exact ⟨rfl, rfl⟩
  · exact ⟨rfl, rfl⟩

theorem handOver_sets (s : SimpleBundleStorage) (index : ℕ) :
    (s.handOver index).list = s.list ∧ (s.handOver index).priorityIndex = s.priorityIndex := by
  rw [handOver]
  split <;> exact ⟨rfl, rfl⟩

/-- **A step that meets the condition keeps both sets the same.** -/
theorem Consistent.step (h : Consistent s.list.metas s.priorityIndex) {a : Action}
    (ha : s.Agrees a) : Consistent (s.step a).list.metas (s.step a).priorityIndex := by
  cases a with
  | restore c hash found => exact h.add ha
  | store node c b =>
      rw [SimpleBundleStorage.step]
      split_ifs with hexceeds
      · exact h
      · exact h.add (ha (Bool.eq_false_iff.2 hexceeds))
  | handOver index =>
      obtain ⟨hlist, hindex⟩ := s.handOver_sets index
      rw [SimpleBundleStorage.step, hlist, hindex]
      exact h
  | get env age id =>
      rw [SimpleBundleStorage.step]
      split
      · exact h.removeById id
      · exact h
  | removeById id => exact h.removeById id
  | removeByFilter contains =>
      rw [SimpleBundleStorage.step]
      split
      · exact h.discard (List.mem_of_find?_eq_some ‹_›)
      · exact h
  | clear => exact .nil
  | expire c timestamp =>
      rw [SimpleBundleStorage.step, BundleList.expire]
      split_ifs with hquality
      · have hloop := h.expireLoop (ha hquality)
        dsimp only
        split_ifs <;> exact hloop
      · exact h
  | work fails => exact h
  | callback c fresh =>
      obtain ⟨hlist, hindex⟩ := s.callback_sets c fresh
      rw [SimpleBundleStorage.step, hlist, hindex]
      exact h

end SimpleBundleStorage

/-! ### Queries behind a run -/

/-- **The queries of both storages respect priority and limit** behind every run of the storage in
memory, and behind every run of the other one whose steps meet the condition. -/
theorem queries_run (maxsize : UInt64) :
    (∀ calls s, Run (fun s (i : Clock × MemoryBundleStorage.Call) s' =>
        s' = (s.step i.1 i.2).2) (fun _ _ => True) (MemoryBundleStorage.create maxsize) calls s →
      ∃ l : List Record, s.bundles.Perm (l.map Record.bundle) ∧
        Queries (l.map Record.metaBundle) fun _ f => s.getFilter f) ∧
      ∀ actions s, Run (fun s a s' => s' = s.step a) SimpleBundleStorage.Agrees
          (SimpleBundleStorage.create maxsize) actions s →
        Queries s.list.metas fun _ f => s.getFilter f := by
  refine ⟨fun calls s hrun => ?_, fun actions s hrun => ?_⟩
  · obtain ⟨l, hl⟩ := hrun.invariant (I := fun s => ∃ l, s.Keeps l)
      ⟨[], MemoryBundleStorage.keeps_nil rfl rfl⟩ fun s i s' ⟨l, hl⟩ _ hstep => by
        rw [hstep]
        exact MemoryBundleStorage.exists_keeps_step hl i.1 i.2
    refine ⟨l, hl.bundles.perm, queries_of_holds hl.priorityIndex ?_⟩
    exact List.pairwise_map.2 (hl.separate.imp fun hne => hne.ne)
  · have h := hrun.invariant
      (I := fun s => SimpleBundleStorage.Consistent s.list.metas s.priorityIndex)
      .nil fun s a s' hs hmeets hstep => by
        rw [hstep]
        exact hs.step hmeets
    refine queries_of_holds h.index (h.sorted.imp fun hlt heq => ?_)
    rw [heq, BundleID.lt_self] at hlt
    cases hlt

namespace SimpleBundleStorage

/-- A fragment of the sample, behind its beginning. -/
def laterFragment : Bundle :=
  { sampleBundle sampleEID with
    procflags := PrimaryBlock.fragment, fragmentoffset := 5, appdatalength := 7 }

/-- The sample with another priority. -/
def normalBundle : Bundle :=
  { sampleBundle sampleEID with procflags := PrimaryBlock.priorityBit1 }

/-- A new storage after two bundles are stored. -/
def twice (b b' : Bundle) : SimpleBundleStorage :=
  ((create 0).step (.store sampleNode (Clock.showing 100) b)).step
    (.store sampleNode (Clock.showing 100) b')

theorem run_twice (meets : SimpleBundleStorage → Action → Prop) (b b' : Bundle)
    (h : meets (create 0) (.store sampleNode (Clock.showing 100) b))
    (h' : meets ((create 0).step (.store sampleNode (Clock.showing 100) b))
      (.store sampleNode (Clock.showing 100) b')) :
    ∃ actions, Run (fun s a s' => s' = s.step a) meets (create 0) actions (twice b b') :=
  ⟨_, (Run.nil.snoc h rfl).snoc h' rfl⟩

/-- The filter that accepts all bundles. -/
def everything : BundleFilter Unit := ⟨0, fun _ => .ok true, none⟩

/-- Two bundles of different endpoints, with different priorities. -/
theorem queries_run_sample :
    Queries (twice (sampleBundle .none) normalBundle).list.metas
      fun _ f => (twice (sampleBundle .none) normalBundle).getFilter f := by
  obtain ⟨actions, hrun⟩ := run_twice Agrees (sampleBundle .none) normalBundle
    (fun _ => by decide +kernel) (fun _ => by decide +kernel)
  exact (queries_run 0).2 actions _ hrun

/-- **A fragment is returned that the list takes for the whole bundle** and that is not found by its
identifier, and a bundle twice that was stored with two priorities. -/
theorem not_queries_run :
    (∃ s, (∃ actions, Run (fun s a s' => s' = s.step a) (fun _ _ => True) (create 0) actions s) ∧
        s.getFilter everything = .ok s.priorityIndex ∧
        laterFragment.toBundleID ∈ s.priorityIndex.map MetaBundle.toBundleID ∧
        s.get (.default BLOB.exact ⟨0, 0⟩) 0 laterFragment.toBundleID = .error .noBundleFound ∧
        ¬ Queries s.list.metas fun _ f => s.getFilter f) ∧
      ∃ s, (∃ actions, Run (fun s a s' => s' = s.step a) (fun _ _ => True) (create 0) actions s) ∧
        s.getFilter everything = .ok s.priorityIndex ∧
        ¬ (s.priorityIndex.map MetaBundle.toBundleID).Nodup ∧
        ¬ Queries s.list.metas fun _ f => s.getFilter f := by
  have hnot {s : SimpleBundleStorage} (hall : s.getFilter everything = .ok s.priorityIndex)
      (hmissing : ¬ ∀ m ∈ s.priorityIndex, m ∈ s.list.metas) :
      ¬ Queries s.list.metas fun _ f => s.getFilter f := fun h =>
    hmissing fun m hm => ((h.answers everything _ hall).accepted m hm).1
  have hall : (twice (sampleBundle sampleEID) laterFragment).getFilter everything =
      .ok (twice (sampleBundle sampleEID) laterFragment).priorityIndex := by decide +kernel
  have hall' : (twice (sampleBundle sampleEID) normalBundle).getFilter everything =
      .ok (twice (sampleBundle sampleEID) normalBundle).priorityIndex := by decide +kernel
  refine ⟨⟨_, run_twice _ _ _ trivial trivial, hall, ?_, ?_, hnot hall ?_⟩,
    ⟨_, run_twice _ _ _ trivial trivial, hall', ?_, hnot hall' ?_⟩⟩ <;> decide +kernel

end SimpleBundleStorage

end IbrDtn
