import IbrDtn.Data.BundleList
import IbrDtn.Library.Transition

/-!
# The expiry index of a list of bundles

A list of bundles keeps its bundles in two sets, one ordered by identifiers and one by the times at
which they expire.  This file shows for which calls the two stay in step, and what a list expires
then: a bundle that is known to expire at another time than the one that is listed is added to one
set only, or removed from one only.

## Main definitions

* `BundleList.Op` : the calls.
* `BundleList.InStep` : the sets have the same bundles, each once.
* `BundleList.Agrees` : the calls with a bundle that expires when the listed one does.

## Main results

* `BundleList.InStep.perform` : such a call keeps the sets in step.
* `BundleList.InStep.expire` : a list whose sets are in step expires what has expired, in order.
* `BundleList.indexed_run` : behind every run of such calls, the sets are in step, and expire what
  has expired.
-/

namespace IbrDtn

namespace ExpiringBundle

theorem lt_iff (a b : ExpiringBundle) : a.lt b = true ↔ a.expiretime < b.expiretime ∨
    a.expiretime = b.expiretime ∧ a.bundle.toBundleID.lt b.bundle.toBundleID = true := by
  rw [lt]
  split_ifs with hlt hne
  · simp [hlt]
  · simp [hlt, hne]
  · simp [not_not.1 hne]

/-- **`ExpiringBundle::operator<` is transitive.** -/
theorem lt_trans {a b c : ExpiringBundle} (hab : a.lt b = true) (hbc : b.lt c = true) :
    a.lt c = true := by
  rw [lt_iff] at hab hbc ⊢
  rcases hab with hab | ⟨hab, hab'⟩
  · rcases hbc with hbc | ⟨hbc, -⟩
    · exact .inl (UInt64.lt_trans hab hbc)
    · exact .inl (hbc ▸ hab)
  · rcases hbc with hbc | ⟨hbc, hbc'⟩
    · exact .inl (hab ▸ hbc)
    · exact .inr ⟨hab.trans hbc, BundleID.lt_trans hab' hbc'⟩

/-- Bundles are comparable in the index if they expire at different times, or are in the list. -/
theorem comparable_iff (m n : MetaBundle) :
    (ofMeta m).lt (ofMeta n) = true ∨ (ofMeta n).lt (ofMeta m) = true ↔
      m.toBundleID.Comparable n.toBundleID ∨ m.expiretime ≠ n.expiretime := by
  rw [lt_iff, lt_iff]
  change (m.expiretime < n.expiretime ∨ m.expiretime = n.expiretime ∧ m.toBundleID.lt n.toBundleID)
    ∨ (n.expiretime < m.expiretime ∨ n.expiretime = m.expiretime ∧ n.toBundleID.lt m.toBundleID) ↔ _
  by_cases heq : m.expiretime = n.expiretime
  · simp [heq, BundleID.Comparable]
  · have hlt : m.expiretime < n.expiretime ∨ n.expiretime < m.expiretime := by
      rw [UInt64.lt_iff_toNat_lt, UInt64.lt_iff_toNat_lt]
      exact lt_or_gt_of_ne (mt UInt64.toNat_inj.1 heq)
    rcases hlt with hlt | hlt <;> simp [heq, hlt]

end ExpiringBundle

namespace BundleList

/-! ### Sets in step -/

/-- The sets are in their orders, and have the same bundles, each once. -/
structure InStep (l : BundleList) : Prop where
  metas : l.metas.Pairwise fun m n => m.toBundleID.lt n.toBundleID = true
  expiring : l.expiring.Pairwise fun a b => a.lt b = true
  same : l.expiring.Perm (l.metas.map ExpiringBundle.ofMeta)

variable {l : BundleList} {m : MetaBundle}

theorem inStep_empty : empty.InStep := ⟨.nil, .nil, .nil⟩

section InStep

variable (h : l.InStep)

include h

/-- What is in the index is in the list. -/
theorem InStep.mem_expiring {b : ExpiringBundle} :
    b ∈ l.expiring ↔ ∃ n ∈ l.metas, ExpiringBundle.ofMeta n = b := by
  rw [h.same.mem_iff, List.mem_map]

/-- The index is in its order. -/
theorem InStep.sorted : l.expiring.Pairwise fun a b => (id a).lt (id b) = true := h.expiring

/-- A bundle that is comparable to those of the list is comparable to those of the index. -/
theorem InStep.comparable (hall : ∀ n ∈ l.metas, n.toBundleID.Comparable m.toBundleID) :
    ∀ b ∈ l.expiring,
      (id b).lt (.ofMeta m) = true ∨ (ExpiringBundle.ofMeta m).lt (id b) = true := by
  intro b hb
  obtain ⟨n, hn, rfl⟩ := h.mem_expiring.1 hb
  exact (ExpiringBundle.comparable_iff n m).2 (.inl (hall n hn))

/-- A bundle is added to both sets, or to none, if a listed bundle that is not told from it expires
when it does. -/
theorem InStep.add (hm : (∃ n ∈ l.metas, ¬ n.toBundleID.Comparable m.toBundleID) →
    ∃ n ∈ l.metas, ¬ n.toBundleID.Comparable m.toBundleID ∧ n.expiretime = m.expiretime) :
    (l.add m).InStep := by
  have hids : ∀ a b c : BundleID, a.lt b = true → b.lt c = true → a.lt c = true :=
    fun _ _ _ => BundleID.lt_trans
  have htrans : ∀ a b c : ExpiringBundle, a.lt b = true → b.lt c = true → a.lt c = true :=
    fun _ _ _ => ExpiringBundle.lt_trans
  refine ⟨OrderedSet.pairwise_insert hids m h.metas,
    OrderedSet.pairwise_insert htrans (ExpiringBundle.ofMeta m) h.sorted, ?_⟩
  rw [BundleList.add]
  by_cases hknown : ∃ n ∈ l.metas, ¬ n.toBundleID.Comparable m.toBundleID
  · obtain ⟨n, hn, hnot, htime⟩ := hm hknown
    have hnot' := mt (ExpiringBundle.comparable_iff n m).1 (not_or.2 ⟨hnot, not_not.2 htime⟩)
    rw [BundleID.Comparable, not_or, Bool.not_eq_true, Bool.not_eq_true] at hnot
    rw [not_or, Bool.not_eq_true, Bool.not_eq_true] at hnot'
    have hindex : OrderedSet.insert id ExpiringBundle.lt (.ofMeta m) l.expiring = l.expiring :=
      OrderedSet.insert_eq_self htrans h.sorted ⟨.ofMeta n, h.mem_expiring.2 ⟨n, hn, rfl⟩, hnot'⟩
    dsimp only
    rw [OrderedSet.insert_eq_self hids h.metas ⟨n, hn, hnot⟩, hindex]
    exact h.same
  · have hall : ∀ n ∈ l.metas, n.toBundleID.Comparable m.toBundleID := by
      simpa using hknown
    refine List.Perm.trans (OrderedSet.perm_insert (h.comparable hall)) ?_
    refine (h.same.cons _).trans (List.Perm.symm ?_)
    exact List.Perm.map _ (OrderedSet.perm_insert hall)

/-- A bundle is removed from both sets, or from none, if the listed bundles that are not told from
it expire when it does. -/
theorem InStep.remove (hm : ∀ n ∈ l.metas, ¬ n.toBundleID.Comparable m.toBundleID →
    n.expiretime = m.expiretime) : (l.remove m).InStep := by
  refine ⟨h.metas.sublist (OrderedSet.sublist_erase _ _),
    h.expiring.sublist (OrderedSet.sublist_erase _ _), ?_⟩
  rw [BundleList.remove]
  dsimp only
  have hids : ∀ a b c : BundleID, a.lt b = true → b.lt c = true → a.lt c = true :=
    fun _ _ _ => BundleID.lt_trans
  have htrans : ∀ a b c : ExpiringBundle, a.lt b = true → b.lt c = true → a.lt c = true :=
    fun _ _ _ => ExpiringBundle.lt_trans
  rw [OrderedSet.erase_eq_filter hids h.metas, OrderedSet.erase_eq_filter htrans h.sorted]
  have hindex := h.same.filter fun b => (id b).lt (.ofMeta m) || (ExpiringBundle.ofMeta m).lt (id b)
  rw [List.filter_map] at hindex
  -- What the index keeps is what the list keeps, as the others expire when the removed one does.
  have hkept : l.metas.filter (fun n => n.toBundleID.lt m.toBundleID ||
        m.toBundleID.lt n.toBundleID) =
      l.metas.filter ((fun b => (id b).lt (.ofMeta m) || (ExpiringBundle.ofMeta m).lt (id b)) ∘
        ExpiringBundle.ofMeta) := by
    refine List.filter_congr fun n hn => ?_
    rw [Bool.eq_iff_iff, Function.comp_apply, Bool.or_eq_true, Bool.or_eq_true, id_eq,
      ExpiringBundle.comparable_iff]
    refine ⟨.inl, fun hother => ?_⟩
    by_contra hnot
    exact (hother.resolve_left hnot) (hm n hn hnot)
  rw [hkept]
  exact hindex

/-- A listed bundle is erased from the list. -/
theorem InStep.perm_erase {n : MetaBundle} (hn : n ∈ l.metas) : l.metas.Perm
    (n :: OrderedSet.erase MetaBundle.toBundleID BundleID.lt n.toBundleID l.metas) :=
  OrderedSet.perm_erase h.metas hn (BundleID.lt_self _)

/-- What is left of a list is in its order. -/
theorem InStep.filter_erase {n : MetaBundle} (hn : n ∈ l.metas) {p : MetaBundle → Bool}
    (hp : p n = false) :
    (OrderedSet.erase MetaBundle.toBundleID BundleID.lt n.toBundleID l.metas).filter p =
      l.metas.filter p := by
  refine List.Perm.eq_of_pairwise (fun x y _ _ hlt hgt => ?_)
    ((h.metas.sublist (OrderedSet.sublist_erase _ _)).filter p) (h.metas.filter p) ?_
  · have hself := BundleID.lt_trans hlt hgt
    rw [BundleID.lt_self] at hself
    cases hself
  · have hperm := (h.perm_erase hn).filter p
    rw [List.filter_cons_of_neg (Bool.eq_false_iff.1 hp)] at hperm
    exact hperm.symm

/-- What is behind a bundle in the index does not expire before it. -/
theorem InStep.le_of_cons {b : ExpiringBundle} {bs : List ExpiringBundle}
    (hl : l.expiring = b :: bs) : ∀ x ∈ bs, b.expiretime ≤ x.expiretime := by
  intro x hx
  have hsorted := h.expiring
  rw [hl] at hsorted
  rcases (ExpiringBundle.lt_iff b x).1 ((List.pairwise_cons.1 hsorted).1 x hx) with hlt | ⟨heq, -⟩
  · exact UInt64.le_of_lt hlt
  · exact UInt64.le_of_eq heq

omit h in
/-- The loop raises what has expired, in order, and leaves the rest. -/
theorem InStep.expireLoop {timestamp : UInt64} {es : List ExpiringBundle}
    (log : List ExpiringBundle) (h : l.InStep) (hes : l.expiring = es) :
    ∃ l', BundleList.expireLoop timestamp (fun _ b log => log ++ [b]) es l log =
        (l', log ++ es.filter fun b => decide (b.expiretime < timestamp)) ∧
      l'.metas = (l.metas.filter fun m => decide (timestamp ≤ m.expiretime)) ∧ l'.InStep := by
  induction es generalizing l log with
  | nil =>
      have hnil : l.metas = [] := by
        have hsame := h.same
        rw [hes] at hsame
        exact List.map_eq_nil_iff.1 (List.nil_perm.1 hsame)
      refine ⟨l, by rw [List.filter_nil, List.append_nil]; rfl, ?_, h⟩
      rw [hnil, List.filter_nil]
  | cons b bs ih =>
      obtain ⟨n, hn, rfl⟩ := h.mem_expiring.1 (hes ▸ List.mem_cons_self)
      rw [BundleList.expireLoop]
      split_ifs with htime
      · -- What is behind the first bundle has not expired either.
        have hle : ∀ x ∈ ExpiringBundle.ofMeta n :: bs, timestamp ≤ x.expiretime := by
          intro x hx
          rcases List.mem_cons.1 hx with rfl | hx
          · exact htime
          · exact UInt64.le_trans htime (h.le_of_cons hes x hx)
        refine ⟨l, ?_, ?_, h⟩
        · rw [List.filter_eq_nil_iff.2 fun x hx => by simpa using hle x hx, List.append_nil]
        · refine (List.filter_eq_self.2 fun m hm => decide_eq_true ?_).symm
          exact hle (.ofMeta m) (hes ▸ h.mem_expiring.2 ⟨m, hm, rfl⟩)
      · have hlt : (ExpiringBundle.ofMeta n).expiretime < timestamp := UInt64.not_le.1 htime
        have hnext : InStep { l with
            metas := OrderedSet.erase MetaBundle.toBundleID BundleID.lt n.toBundleID l.metas
            expiring := bs } := by
          refine ⟨h.metas.sublist (OrderedSet.sublist_erase _ _), ?_, ?_⟩
          · have hsorted := h.expiring
            rw [hes] at hsorted
            exact (List.pairwise_cons.1 hsorted).2
          · have hsame := h.same
            rw [hes] at hsame
            exact List.Perm.cons_inv (hsame.trans ((h.perm_erase hn).map ExpiringBundle.ofMeta))
        obtain ⟨l', hloop, hmetas, hl'⟩ := ih (log ++ [.ofMeta n]) hnext rfl
        refine ⟨l', ?_, ?_, hl'⟩
        · have hfilter : (ExpiringBundle.ofMeta n :: bs).filter
                (fun b => decide (b.expiretime < timestamp)) =
              ExpiringBundle.ofMeta n :: bs.filter fun b => decide (b.expiretime < timestamp) :=
            List.filter_cons_of_pos (decide_eq_true hlt)
          rw [hfilter, List.append_cons log _ (bs.filter _)]
          exact hloop
        · rw [hmetas]
          exact h.filter_erase hn (decide_eq_false (UInt64.not_le.2 hlt))

/-- **A list whose sets are in step expires what has expired, in order, and keeps the rest.** -/
theorem InStep.expire {c : Clock} (hc : c.hasQuality = true) (timestamp : UInt64) :
    ∃ l', l.expire c timestamp (fun _ b log => log ++ [b]) [] =
        (l', l.expiring.filter fun b => decide (b.expiretime < timestamp)) ∧
      l'.metas = (l.metas.filter fun m => decide (timestamp ≤ m.expiretime)) ∧ l'.InStep := by
  obtain ⟨l', hloop, hmetas, hl'⟩ := InStep.expireLoop [] h rfl
  rw [BundleList.expire, if_pos hc, hloop]
  dsimp only
  split_ifs
  · exact ⟨_, rfl, hmetas, hl'.metas, hl'.expiring, hl'.same⟩
  · exact ⟨l', rfl, hmetas, hl'⟩

end InStep

/-! ### Runs -/

/-- The calls of a list. -/
inductive Op where
  | add (m : MetaBundle)
  | remove (m : MetaBundle)
  | clear
  | expire (c : Clock) (timestamp : UInt64)

/-- The list behind a call, and the bundles for which it raised `eventBundleExpired`. -/
def perform (l : BundleList) : Op → BundleList × List ExpiringBundle
  | .add m => (l.add m, [])
  | .remove m => (l.remove m, [])
  | .clear => (l.clear, [])
  | .expire c timestamp => l.expire c timestamp (fun _ b log => log ++ [b]) []

/-- **The expiry index is in step**: both sets have the same bundles, each once; and with a valid
clock `expire` raises the event once for every listed bundle that expires before the given time, in
the order of these times, removes these bundles, and leaves the others listed. -/
structure Indexed (l : BundleList) : Prop where
  nodup : l.metas.Nodup ∧ l.expiring.Nodup
  same : l.expiring.Perm (l.metas.map ExpiringBundle.ofMeta)
  expire : ∀ (c : Clock) timestamp, c.hasQuality = true →
    ∃ l' log, l.perform (.expire c timestamp) = (l', log) ∧
      log.Perm ((l.metas.filter fun m => decide (m.expiretime < timestamp)).map .ofMeta) ∧
      (log.Pairwise fun a b => a.expiretime ≤ b.expiretime) ∧
      l'.metas = (l.metas.filter fun m => decide (timestamp ≤ m.expiretime)) ∧
      l'.expiring.Perm (l'.metas.map ExpiringBundle.ofMeta)

/-- **The calls with a bundle that expires when the listed one does**: of the listed bundles that
`operator<` does not tell from an added one, one expires when it does, if there are any; and those
that it does not tell from a removed one all do. -/
def Agrees (l : BundleList) : Op → Prop
  | .add m => (∃ n ∈ l.metas, ¬ n.toBundleID.Comparable m.toBundleID) →
      ∃ n ∈ l.metas, ¬ n.toBundleID.Comparable m.toBundleID ∧ n.expiretime = m.expiretime
  | .remove m => ∀ n ∈ l.metas, ¬ n.toBundleID.Comparable m.toBundleID →
      n.expiretime = m.expiretime
  | _ => True

theorem InStep.indexed (h : l.InStep) : l.Indexed := by
  refine ⟨⟨h.metas.imp ?_, h.expiring.imp ?_⟩, h.same, fun c timestamp hc => ?_⟩
  · rintro m n hlt rfl
    rw [BundleID.lt_self] at hlt
    cases hlt
  · rintro a b hlt rfl
    rcases (ExpiringBundle.lt_iff _ _).1 hlt with hlt | ⟨-, hlt⟩
    · exact UInt64.lt_irrefl _ hlt
    · rw [BundleID.lt_self] at hlt
      cases hlt
  · obtain ⟨l', heq, hmetas, hl'⟩ := h.expire hc timestamp
    refine ⟨l', _, heq, ?_, ?_, hmetas, hl'.same⟩
    · have hfilter := h.same.filter fun b => decide (b.expiretime < timestamp)
      rw [List.filter_map] at hfilter
      exact hfilter
    · refine (h.expiring.filter _).imp fun {a b} hlt => ?_
      rcases (ExpiringBundle.lt_iff a b).1 hlt with hlt | ⟨heq, -⟩
      · exact UInt64.le_of_lt hlt
      · exact UInt64.le_of_eq heq

/-- **Such a call keeps the sets in step.** -/
theorem InStep.perform (h : l.InStep) {o : Op} (ho : l.Agrees o) : (l.perform o).1.InStep := by
  cases o with
  | add m => exact h.add ho
  | remove m => exact h.remove ho
  | clear => exact ⟨.nil, .nil, .nil⟩
  | expire c timestamp =>
      rw [BundleList.perform]
      rcases hc : c.hasQuality with _ | _
      · rw [BundleList.expire, hc]
        exact h
      · obtain ⟨l', heq, -, hl'⟩ := h.expire hc timestamp
        rw [heq]
        exact hl'

/-- **The index stays in step**, behind every run of calls with bundles that expire when the listed
ones do. -/
theorem indexed_run {ops : List Op} {l : BundleList}
    (h : Transition.Run (fun l o l' => (l.perform o).1 = l') Agrees empty ops l) : l.Indexed :=
  (h.invariant inStep_empty fun _ _ _ hl ho hstep => hstep ▸ hl.perform ho).indexed

/-- The list behind some calls. -/
def after (ops : List Op) : BundleList := ops.foldl (fun l o => (l.perform o).1) empty

/-- A bundle that expires at the given time. -/
def expiringAt (expiretime : UInt64) : MetaBundle where
  source := .none
  timestamp := 1
  sequencenumber := 0
  fragment := false
  offset := 0
  lifetime := 3600
  destination := .none
  reportto := .none
  custodian := .none
  appdatalength := 0
  procflags := 0
  expiretime := expiretime
  hopcount := 0

theorem indexed_run_sample :
    (after [.add (expiringAt 3601), .add (expiringAt 3601)]).metas.length = 1 ∧
      (after [.add (expiringAt 3601), .add (expiringAt 3601)]).Indexed := by
  refine ⟨by decide, indexed_run (.snoc (.snoc .nil ?_ rfl) ?_ rfl)⟩
  · rintro ⟨n, hn, -⟩
    cases hn
  · rintro ⟨n, hn, hnot⟩
    exact ⟨n, hn, hnot, by rw [List.mem_singleton.1 hn]⟩

/-- **A bundle that is added or removed through meta data with another expire time is in one of the
sets only.** -/
theorem not_indexed_after : ¬ (after [.add (expiringAt 3601), .add (expiringAt 9)]).Indexed ∧
    ¬ (after [.add (expiringAt 3601), .remove (expiringAt 9)]).Indexed := by
  constructor
  · intro h
    exact absurd h.same.length_eq (by decide)
  · intro h
    exact absurd h.same.length_eq (by decide)

end BundleList

end IbrDtn
