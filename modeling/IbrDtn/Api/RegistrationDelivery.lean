import IbrDtn.Api.Registration
import IbrDtn.Library.Transition

/-!
# Deliveries to registrations

A bundle that is handed out to a client is remembered until it expires, so it is not handed out
again.  When the client waits because nothing was found, the announcements of new bundles wake it up.
This file shows for which runs that is so: `receive` sets its flag some time after the search and
makes its filter some time before it, so that an announcement that comes in between can get lost; and
bundles must be told apart by their identifiers.

## Main definitions

* `Registration.Delivered` : no bundle is handed out twice, and nobody waits while there is one.
* `Registration.Heard` : the steps at which bundles are told apart and no announcement is lost.

## Main results

* `Registration.Stocked.step`, `Registration.Single.step`, `Registration.Alert.step` : what such a
  step keeps.
* `Registration.handed_run` : behind every run of such steps, the deliveries are right.
-/

namespace IbrDtn

namespace Registration

variable {s s' : Registration} {l : Label}

/-- The bundle was handed out. -/
def Handed (s : Registration) (i : BundleID) : Prop := ∃ n ∈ s.handed, n.toBundleID = i

/-- The bundles that `receive` has yet to hand out. -/
def coming (s : Registration) : List MetaBundle := s.receiving.toLoad ++ s.queue

/-- The bundles that are coming, with the place of the thread in `receive`. -/
theorem coming_eq {r : Receiving} (h : s.receiving = r) : s.coming = r.toLoad ++ s.queue := by
  rw [coming, h]

/-- **The deliveries are right**: what was handed out twice had expired, and if `wait_for_bundle`
blocks behind a `receive` that threw, and no announcement is outstanding, every stored bundle for an
endpoint of the client was handed out. -/
structure Delivered (s : Registration) : Prop where
  once : s.handed.Pairwise fun m n => m.toBundleID = n.toBundleID → m.expiretime < s.latest
  awake : s.threw = true → s.step .waitForBundle = none →
    s.announcing = [] → s.subscribing = [] → ∀ m ∈ s.storage,
      hasSubscribed s.endpoints m.destination = true → s.Handed m.toBundleID

/-- **The steps at which bundles are told apart and no announcement is lost**: a bundle that is
stored is apart from those of the storage and of `_received_bundles`; if it is one of the latter, it
does not expire later, and was handed out or will be; and between the making of the filter and the
setting of the flag, nobody announces an endpoint that the filter has not, or a bundle that the
search did not find. -/
def Heard (s : Registration) : Label → Prop
  | .store m =>
      (∀ n ∈ s.storage ++ s.receivedBundles.metas,
        n.toBundleID = m.toBundleID ∨ n.toBundleID.Apart m.toBundleID) ∧
      ∀ n ∈ s.receivedBundles.metas, n.toBundleID = m.toBundleID →
        m.expiretime ≤ n.expiretime ∧
          (s.Handed m.toBundleID ∨ ∃ n ∈ s.coming, n.toBundleID = m.toBundleID)
  | .announce m =>
      ∀ endpoints, s.receiving = .nothing endpoints → m ∈ s.storage →
        hasSubscribed s.endpoints m.destination = true →
          s.receivedBundles.contains m.toBundleID = true
  | .subscribed e =>
      ∀ endpoints, s.receiving.filtered? = some endpoints →
        hasSubscribed s.endpoints e = true → hasSubscribed endpoints e = true
  | _ => True

/-! ### Sets of endpoints and bundles -/

/-- A set of endpoints has the text of what it finds. -/
theorem hasSubscribed_iff {endpoints : List EID}
    (h : endpoints.Pairwise fun x y => EID.lt x y = true) {e : EID} :
    hasSubscribed endpoints e = true ↔ ∃ x ∈ endpoints, x.getString = e.getString := by
  have hs : endpoints.Pairwise fun x y => EID.lt (id x) (id y) = true := h
  rw [hasSubscribed, OrderedSet.isSome_find?_iff NeighborDatabase.ordered_eid hs]
  exact exists_congr fun x => and_congr_right fun _ => BundleID.getString_inj

theorem eid_lt_trans {a b c : EID} (hab : EID.lt a b = true) (hbc : EID.lt b c = true) :
    EID.lt a c = true :=
  (NeighborDatabase.ordered_eid a c).2
    (lt_trans ((NeighborDatabase.ordered_eid a b).1 hab) ((NeighborDatabase.ordered_eid b c).1 hbc))

/-- Endpoints with one text are subscribed together. -/
theorem hasSubscribed_congr {e e' : EID} (h : e.getString = e'.getString) (endpoints : List EID) :
    hasSubscribed endpoints e = hasSubscribed endpoints e' := by
  rw [hasSubscribed, hasSubscribed, OrderedSet.find?_congr NeighborDatabase.ordered_eid
    (BundleID.getString_inj.2 h)]

/-- The filter wants bundles for its endpoints that are not in the list. -/
theorem shouldAdd_iff (endpoints : List EID) (blist : BundleList) (m : MetaBundle) :
    shouldAdd endpoints blist m = true ↔
      hasSubscribed endpoints m.destination = true ∧ blist.contains m.toBundleID = false := by
  change (hasSubscribed endpoints m.destination && !blist.contains m.toBundleID) = true ↔ _
  rw [Bool.and_eq_true_iff, Bool.not_eq_true']

/-- The same identifier, or one that is apart. -/
def Known (m n : MetaBundle) : Prop :=
  m.toBundleID = n.toBundleID ∨ m.toBundleID.Apart n.toBundleID

theorem Known.symm {m n : MetaBundle} (h : Known m n) : Known n m :=
  h.imp Eq.symm BundleID.Apart.symm

/-- Among such bundles, `BundleID::operator==` compares the identifiers. -/
theorem Known.eq_iff {m n : MetaBundle} (h : Known m n) :
    m.toBundleID.eq n.toBundleID = true ↔ m.toBundleID = n.toBundleID := by
  refine ⟨fun heq => h.resolve_right fun hapart => ?_, fun heq => ?_⟩
  · rw [hapart.eq_false] at heq
    exact Bool.false_ne_true heq
  · rw [heq]
    exact BundleID.eq_refl _

/-- Bundles that are apart from each other and from those of a list are added to it. -/
theorem lists_foldl_add {found ms : List MetaBundle} {l : BundleList} (h : l.Lists ms)
    (hfound : found.Pairwise fun m n => m.toBundleID.Apart n.toBundleID)
    (hms : ∀ m ∈ found, ∀ n ∈ ms, n.toBundleID.Apart m.toBundleID) :
    (found.foldl BundleList.add l).Lists (found.reverse ++ ms) := by
  induction found generalizing l ms with
  | nil => exact h
  | cons m found ih =>
      obtain ⟨hm, hfound⟩ := List.pairwise_cons.1 hfound
      rw [List.foldl_cons, List.reverse_cons, List.append_assoc]
      refine ih (h.add (hms m List.mem_cons_self)) hfound fun n hn x hx => ?_
      rcases List.mem_cons.1 hx with rfl | hx
      · exact hm n hn
      · exact hms n (List.mem_cons_of_mem m hn) x hx

/-! ### What is stored and remembered -/

/-- The bundles of the storage and those that are remembered. -/
def known (s : Registration) : List MetaBundle := s.storage ++ s.receivedBundles.metas

/-- **The storage, `_received_bundles` and the queue fit together**: a stored bundle that is
remembered was handed out or will be. -/
structure Stocked (s : Registration) : Prop where
  sorted : s.endpoints.Pairwise fun x y => EID.lt x y = true
  apart : ∀ m ∈ s.known, ∀ n ∈ s.known, Known m n
  lists : s.receivedBundles.Lists s.receivedBundles.metas
  unique : ∀ m ∈ s.storage, ∀ n ∈ s.storage, m.toBundleID = n.toBundleID → m = n
  coming : ∀ m ∈ s.coming, m ∈ s.receivedBundles.metas
  time : ∀ m ∈ s.storage, ∀ n ∈ s.receivedBundles.metas, n.toBundleID = m.toBundleID →
    m.expiretime ≤ n.expiretime
  accounted : ∀ m ∈ s.storage, ∀ n ∈ s.receivedBundles.metas, n.toBundleID = m.toBundleID →
    s.Handed m.toBundleID ∨ ∃ n ∈ s.coming, n.toBundleID = m.toBundleID
  empty : ∀ endpoints, s.receiving.filtered? = some endpoints → s.queue = []

section Stocked

variable (h : s.Stocked)

include h

/-- What is remembered is apart. -/
theorem Stocked.pairwise :
    s.receivedBundles.metas.Pairwise fun m n => m.toBundleID.Apart n.toBundleID := by
  refine List.Pairwise.imp_of_mem (fun {m n} hm hn hrank => ?_) h.lists.metas.sorted
  refine (h.apart m (List.mem_append_right _ hm) n (List.mem_append_right _ hn)).resolve_left ?_
  intro heq
  rw [heq] at hrank
  exact lt_irrefl _ hrank

/-- A bundle that is stored is in the list if its identifier is. -/
theorem Stocked.contains_iff {m : MetaBundle} (hm : m ∈ s.storage) :
    s.receivedBundles.contains m.toBundleID = true ↔
      ∃ n ∈ s.receivedBundles.metas, n.toBundleID = m.toBundleID := by
  rw [BundleList.contains, List.any_eq_true]
  refine exists_congr fun n => and_congr_right fun hn => ?_
  exact (h.apart n (List.mem_append_right _ hn) m (List.mem_append_left _ hm)).eq_iff

/-- Behind the making of the filter, a stored bundle that is remembered was handed out. -/
theorem Stocked.handed {m : MetaBundle} (hm : m ∈ s.storage)
    (hcontains : s.receivedBundles.contains m.toBundleID = true) {endpoints : List EID}
    (hfiltered : s.receiving.filtered? = some endpoints) : s.Handed m.toBundleID := by
  obtain ⟨n, hn, heq⟩ := (h.contains_iff hm).1 hcontains
  refine (h.accounted m hm n hn heq).resolve_right ?_
  rintro ⟨x, hx, -⟩
  rw [Registration.coming, h.empty endpoints hfiltered, List.append_nil] at hx
  rcases hreceiving : s.receiving with _ | _ | m | endpoints' | endpoints'
  · rw [hreceiving] at hfiltered
    cases hfiltered
  · rw [hreceiving] at hfiltered
    cases hfiltered
  · rw [hreceiving] at hfiltered
    cases hfiltered
  · rw [hreceiving] at hx
    exact List.not_mem_nil hx
  · rw [hreceiving] at hx
    exact List.not_mem_nil hx

end Stocked

/-- The bundles that a search found are remembered. -/
theorem Stocked.lists_found (h : s.Stocked) {endpoints : List EID} {found : List MetaBundle}
    (hnodup : found.Nodup)
    (hfound : ∀ m ∈ found, m ∈ s.storage ∧ shouldAdd endpoints s.receivedBundles m = true) :
    (found.foldl BundleList.add s.receivedBundles).Lists
      (found.reverse ++ s.receivedBundles.metas) := by
  refine lists_foldl_add h.lists ?_ fun m hm n hn => ?_
  · refine List.Pairwise.imp_of_mem (fun {m n} hm hn hne => ?_) hnodup
    have hstored := (hfound m hm).1
    have hstored' := (hfound n hn).1
    refine (h.apart m (List.mem_append_left _ hstored) n
      (List.mem_append_left _ hstored')).resolve_left fun heq => hne ?_
    exact h.unique m hstored n hstored' heq
  · obtain ⟨hstored, hadd⟩ := hfound m hm
    refine (h.apart n (List.mem_append_right _ hn) m
      (List.mem_append_left _ hstored)).resolve_left fun heq => ?_
    have hcontains := (h.contains_iff hstored).2 ⟨n, hn, heq⟩
    rw [((shouldAdd_iff _ _ _).1 hadd).2] at hcontains
    exact Bool.false_ne_true hcontains

/-- What is remembered behind a search. -/
theorem Stocked.mem_found (h : s.Stocked) {endpoints : List EID} {found : List MetaBundle}
    (hnodup : found.Nodup)
    (hfound : ∀ m ∈ found, m ∈ s.storage ∧ shouldAdd endpoints s.receivedBundles m = true)
    (m : MetaBundle) : m ∈ (found.foldl BundleList.add s.receivedBundles).metas ↔
      m ∈ found ∨ m ∈ s.receivedBundles.metas := by
  rw [(h.lists_found hnodup hfound).metas.perm.mem_iff, List.mem_append, List.mem_reverse]

/-- What is remembered behind an expiry. -/
theorem Stocked.expire (h : s.Stocked) :
    s.prepare.receivedBundles.Lists s.prepare.receivedBundles.metas ∧
      s.prepare.receivedBundles.metas ⊆ s.receivedBundles.metas ∧
        ∀ m ∈ s.receivedBundles.metas, m ∈ s.prepare.receivedBundles.metas ∨
          m.expiretime < s.clock.time := by
  obtain ⟨ns, hns, hsub, hkept⟩ := h.lists.expire s.clock s.clock.time (fun _ _ u => u) h.pairwise ()
  refine ⟨hns.of_perm hns.metas.perm.symm, fun m hm => hsub (hns.metas.perm.mem_iff.1 hm),
    fun m hm => ?_⟩
  exact (hkept m hm).imp_left hns.metas.perm.mem_iff.2

/-- Less is stored or remembered, and the rest is as before. -/
theorem Stocked.of_subset (h : s.Stocked) (hendpoints : s'.endpoints.Pairwise fun x y => EID.lt x y = true)
    (hlists : s'.receivedBundles.Lists s'.receivedBundles.metas)
    (hstorage : s'.storage ⊆ s.storage)
    (hmetas : s'.receivedBundles.metas ⊆ s.receivedBundles.metas)
    (hhanded : ∀ i, s.Handed i → s'.Handed i)
    (hcoming : ∀ m ∈ s'.coming, m ∈ s'.receivedBundles.metas)
    (haccounted : ∀ m ∈ s'.storage, (∃ n ∈ s.coming, n.toBundleID = m.toBundleID) →
      s'.Handed m.toBundleID ∨ ∃ n ∈ s'.coming, n.toBundleID = m.toBundleID)
    (hempty : ∀ endpoints, s'.receiving.filtered? = some endpoints → s'.queue = []) :
    s'.Stocked := by
  have hknown : s'.known ⊆ s.known := List.append_subset.2
    ⟨fun m hm => List.mem_append_left _ (hstorage hm), fun m hm => List.mem_append_right _ (hmetas hm)⟩
  refine ⟨hendpoints, fun m hm n hn => h.apart m (hknown hm) n (hknown hn), hlists,
    fun m hm n hn => h.unique m (hstorage hm) n (hstorage hn), hcoming,
    fun m hm n hn => h.time m (hstorage hm) n (hmetas hn), fun m hm n hn heq => ?_, hempty⟩
  rcases h.accounted m (hstorage hm) n (hmetas hn) heq with hbefore | hbefore
  · exact .inl (hhanded _ hbefore)
  · exact haccounted m hm hbefore

/-- A bundle is stored that is apart from the others. -/
theorem Stocked.store (h : s.Stocked) {m : MetaBundle} (hl : s.Heard (.store m))
    (hnew : ∀ n ∈ s.storage, n.toBundleID.eq m.toBundleID = false) :
    Stocked { s with storage := m :: s.storage, announcing := m :: s.announcing } := by
  obtain ⟨hapart, hbefore⟩ := hl
  have hne : ∀ n ∈ s.storage, n.toBundleID ≠ m.toBundleID := fun n hn heq => by
    have hfalse := hnew n hn
    rw [heq, BundleID.eq_refl] at hfalse
    exact Bool.false_ne_true hfalse.symm
  refine ⟨h.sorted, fun x hx y hy => ?_, h.lists, fun x hx y hy heq => ?_, h.coming,
    fun x hx n hn heq => ?_, fun x hx n hn heq => ?_, h.empty⟩
  · rcases List.mem_cons.1 hx with rfl | hknown
    · rcases List.mem_cons.1 hy with rfl | hknown
      · exact .inl rfl
      · exact Known.symm (hapart y hknown)
    · rcases List.mem_cons.1 hy with rfl | hknown'
      · exact hapart x hknown
      · exact h.apart x hknown y hknown'
  · rcases List.mem_cons.1 hx with rfl | hstored
    · rcases List.mem_cons.1 hy with rfl | hstored
      · rfl
      · exact absurd heq.symm (hne y hstored)
    · rcases List.mem_cons.1 hy with rfl | hstored'
      · exact absurd heq (hne x hstored)
      · exact h.unique x hstored y hstored' heq
  · rcases List.mem_cons.1 hx with rfl | hx
    · exact (hbefore n hn heq).1
    · exact h.time x hx n hn heq
  · rcases List.mem_cons.1 hx with rfl | hx
    · exact (hbefore n hn heq).2
    · exact h.accounted x hx n hn heq

/-- The bundles that a search found are put into the queue. -/
theorem Stocked.found (h : s.Stocked) {endpoints : List EID} {found : List MetaBundle}
    (hcopied : s.receiving = .copied endpoints) (hnodup : found.Nodup)
    (hfound : ∀ m ∈ found, m ∈ s.storage ∧ shouldAdd endpoints s.receivedBundles m = true) :
    Stocked { s with
      queue := s.queue ++ found
      receivedBundles := found.foldl BundleList.add s.receivedBundles
      receiving := .looping } := by
  have hmem := h.mem_found hnodup hfound
  have hlists := h.lists_found hnodup hfound
  have hcoming : s.coming = s.queue := coming_eq hcopied
  have hknown : ∀ m ∈ s.storage ++ (found.foldl BundleList.add s.receivedBundles).metas,
      m ∈ s.known := by
    intro m hm
    rcases List.mem_append.1 hm with hm | hm
    · exact List.mem_append_left _ hm
    · rcases (hmem m).1 hm with hm | hm
      · exact List.mem_append_left _ (hfound m hm).1
      · exact List.mem_append_right _ hm
  refine ⟨h.sorted, fun m hm n hn => h.apart m (hknown m hm) n (hknown n hn),
    hlists.of_perm hlists.metas.perm.symm, h.unique, fun m hm => ?_, fun m hm n hn heq => ?_,
    fun m hm n hn heq => ?_, fun _ => nofun⟩
  · rcases List.mem_append.1 (show m ∈ s.queue ++ found from hm) with hm | hm
    · exact (hmem m).2 (.inr (h.coming m (by rw [hcoming]; exact hm)))
    · exact (hmem m).2 (.inl hm)
  · rcases (hmem n).1 hn with hn | hn
    · rw [h.unique n (hfound n hn).1 m hm heq]
      exact UInt64.le_refl _
    · exact h.time m hm n hn heq
  · rcases (hmem n).1 hn with hn | hn
    · exact .inr ⟨n, show n ∈ s.queue ++ found from List.mem_append_right _ hn, heq⟩
    · rcases h.accounted m hm n hn heq with hbefore | ⟨x, hx, hid⟩
      · exact .inl hbefore
      · rw [hcoming] at hx
        exact .inr ⟨x, show x ∈ s.queue ++ found from List.mem_append_left _ hx, hid⟩

theorem Stocked.step (h : s.Stocked) (hl : s.Heard l) (hmoves : s.Moves l s') : s'.Stocked := by
  cases hmoves with
  | subscribe hlock =>
      refine h.of_subset ?_ h.lists (List.Subset.refl _) (List.Subset.refl _) (fun _ => id) h.coming
        (fun _ _ => .inr) h.empty
      exact @OrderedSet.pairwise_insert EID EID id EID.lt s.endpoints (fun _ _ _ => eid_lt_trans) _
        h.sorted
  | unsubscribe hlock =>
      refine h.of_subset ?_ h.lists (List.Subset.refl _) (List.Subset.refl _) (fun _ => id) h.coming
        (fun _ _ => .inr) h.empty
      exact h.sorted.sublist (OrderedSet.sublist_erase _ _)
  | store hnew => exact h.store hl hnew
  | remove =>
      exact h.of_subset h.sorted h.lists (fun _ hm => List.mem_of_mem_filter hm)
        (List.Subset.refl _) (fun _ => id) h.coming (fun _ _ => .inr) h.empty
  | receive hidle =>
      refine h.of_subset h.sorted h.lists (List.Subset.refl _) (List.Subset.refl _)
        (fun _ => id) (fun m hm => h.coming m ?_) (fun m _ => ?_) (fun _ => nofun)
      · rw [Registration.coming, hidle]
        exact hm
      · rintro ⟨n, hn, heq⟩
        rw [Registration.coming, hidle] at hn
        exact .inr ⟨n, hn, heq⟩
  | @pop m q hlooping hqueue =>
      have hcoming : s.coming = m :: q := by
        rw [Registration.coming, hlooping, hqueue]
        rfl
      refine h.of_subset h.sorted h.lists (List.Subset.refl _) (List.Subset.refl _)
        (fun _ => id) (fun x hx => h.coming x (hcoming ▸ hx)) (fun x _ => ?_) (fun _ => nofun)
      rw [hcoming]
      exact .inr
  | @load m n hloading hn heq =>
      have hcoming : s.coming = m :: s.queue := coming_eq hloading
      have hm : m ∈ s.receivedBundles.metas := h.coming m (by rw [hcoming]; exact List.mem_cons_self)
      have hid : m.toBundleID = n.toBundleID :=
        (h.apart m (List.mem_append_right _ hm) n (List.mem_append_left _ hn)).eq_iff.1 heq
      refine h.of_subset h.sorted h.lists (List.Subset.refl _) (List.Subset.refl _)
        (fun i => ?_) (fun x hx => h.coming x ?_) (fun x _ => ?_) (fun _ => nofun)
      · rintro ⟨y, hy, hyi⟩
        exact ⟨y, List.mem_append_left _ hy, hyi⟩
      · rw [hcoming]
        exact List.mem_cons_of_mem m hx
      · rw [hcoming]
        rintro ⟨y, hy, hyx⟩
        rcases List.mem_cons.1 hy with rfl | hy
        · exact .inl ⟨n, List.mem_append_right _ List.mem_cons_self, hid.symm.trans hyx⟩
        · exact .inr ⟨y, hy, hyx⟩
  | @miss m hloading hnone =>
      have hcoming : s.coming = m :: s.queue := coming_eq hloading
      refine h.of_subset h.sorted h.lists (List.Subset.refl _) (List.Subset.refl _)
        (fun _ => id) (fun x hx => h.coming x ?_) (fun x hx => ?_) (fun _ => nofun)
      · rw [hcoming]
        exact List.mem_cons_of_mem m hx
      · rw [hcoming]
        rintro ⟨y, hy, hyx⟩
        rcases List.mem_cons.1 hy with rfl | hy
        · have hfalse := hnone x hx
          rw [hyx, BundleID.eq_refl] at hfalse
          exact absurd hfalse.symm Bool.false_ne_true
        · exact .inr ⟨y, hy, hyx⟩
  | prepare hlooping hqueue =>
      obtain ⟨hlists, hsub, -⟩ := h.expire
      have hcoming : s.coming = [] := by
        rw [Registration.coming, hlooping, hqueue]
        rfl
      refine h.of_subset h.sorted hlists (List.Subset.refl _) hsub (fun _ => id) (fun x hx => ?_)
        (fun x _ => ?_) (fun _ _ => hqueue)
      · have hnone : s.prepare.coming = [] := hqueue
        rw [hnone] at hx
        exact absurd hx List.not_mem_nil
      · rw [hcoming]
        rintro ⟨y, hy, -⟩
        exact absurd hy List.not_mem_nil
  | nothing hcopied hnone =>
      have hcoming : s.coming = s.queue := coming_eq hcopied
      exact h.of_subset h.sorted h.lists (List.Subset.refl _) (List.Subset.refl _) (fun _ => id)
        (fun x hx => h.coming x (hcoming ▸ hx)) (fun _ _ hx => .inr (hcoming ▸ hx))
        (fun _ _ => h.empty _ (by rw [hcopied]; rfl))
  | found hcopied hnodup hfound => exact h.found hcopied hnodup hfound
  | throw hnothing =>
      have hcoming : s.coming = s.queue := coming_eq hnothing
      exact h.of_subset h.sorted h.lists (List.Subset.refl _) (List.Subset.refl _) (fun _ => id)
        (fun x hx => h.coming x (hcoming ▸ hx)) (fun _ _ hx => .inr (hcoming ▸ hx)) (fun _ => nofun)
  | _ =>
      exact h.of_subset h.sorted h.lists (List.Subset.refl _) (List.Subset.refl _) (fun _ => id)
        h.coming (fun _ _ => .inr) h.empty

/-! ### Nothing is handed out twice -/

/-- **A bundle that was handed out is remembered until it expires**, and nothing that is coming was
handed out before. -/
structure Single (s : Registration) : Prop where
  once : s.handed.Pairwise fun m n => m.toBundleID = n.toBundleID → m.expiretime < s.latest
  kept : ∀ m ∈ s.handed, (∃ n ∈ s.receivedBundles.metas,
    n.toBundleID = m.toBundleID ∧ m.expiretime ≤ n.expiretime) ∨ m.expiretime < s.latest
  fresh : ∀ m ∈ s.handed, ∀ n ∈ s.coming, n.toBundleID = m.toBundleID → m.expiretime < s.latest
  distinct : s.coming.Pairwise fun m n => m.toBundleID ≠ n.toBundleID
  clock : s.clock.time ≤ s.latest

/-- Less is coming, time goes on, and what expired is forgotten. -/
theorem Single.of_sublist (h : s.Single) (hhanded : s'.handed = s.handed)
    (hlatest : s.latest ≤ s'.latest) (hclock : s'.clock.time ≤ s'.latest)
    (hcoming : s'.coming.Sublist s.coming)
    (hmetas : ∀ m ∈ s.receivedBundles.metas, m ∈ s'.receivedBundles.metas ∨
      m.expiretime < s'.latest) : s'.Single := by
  refine ⟨?_, fun m hm => ?_, fun m hm n hn heq => ?_, h.distinct.sublist hcoming, hclock⟩
  · rw [hhanded]
    exact h.once.imp fun himp heq => UInt64.lt_of_lt_of_le (himp heq) hlatest
  · rw [hhanded] at hm
    rcases h.kept m hm with ⟨n, hn, heq, hle⟩ | hlt
    · exact (hmetas n hn).imp (fun hn => ⟨n, hn, heq, hle⟩) (UInt64.lt_of_le_of_lt hle)
    · exact .inr (UInt64.lt_of_lt_of_le hlt hlatest)
  · rw [hhanded] at hm
    exact UInt64.lt_of_lt_of_le (h.fresh m hm n (hcoming.subset hn) heq) hlatest

theorem Single.step (h : s.Single) (hs : s.Stocked) (hmoves : s.Moves l s') : s'.Single := by
  cases hmoves with
  | @setClock c =>
      have hmax : max s.latest c.time = if s.latest ≤ c.time then c.time else s.latest := rfl
      refine h.of_sublist rfl ?_ ?_ (.refl _) fun m hm => .inl hm
      · change s.latest ≤ max s.latest c.time
        rw [hmax]
        split_ifs with hle
        · exact hle
        · exact UInt64.le_refl _
      · change c.time ≤ max s.latest c.time
        rw [hmax]
        split_ifs with hle
        · exact UInt64.le_refl _
        · exact UInt64.le_of_lt (UInt64.not_le.1 hle)
  | receive hidle =>
      exact h.of_sublist rfl (UInt64.le_refl _) h.clock (by rw [coming_eq hidle]; exact .refl _)
        fun m hm => .inl hm
  | @pop m q hlooping hqueue =>
      refine h.of_sublist rfl (UInt64.le_refl _) h.clock ?_ fun m hm => .inl hm
      rw [coming_eq hlooping, hqueue]
      exact .refl _
  | @load m n hloading hn heq =>
      have hcoming : s.coming = m :: s.queue := coming_eq hloading
      have hm : m ∈ s.receivedBundles.metas := hs.coming m (by rw [hcoming]; exact List.mem_cons_self)
      have hid : m.toBundleID = n.toBundleID :=
        (hs.apart m (List.mem_append_right _ hm) n (List.mem_append_left _ hn)).eq_iff.1 heq
      have hdistinct := h.distinct
      rw [hcoming, List.pairwise_cons] at hdistinct
      have hfresh : ∀ x ∈ s.handed, ∀ y ∈ m :: s.queue, y.toBundleID = x.toBundleID →
          x.expiretime < s.latest := hcoming ▸ h.fresh
      refine ⟨?_, fun x hx => ?_, fun x hx y hy heq => ?_, hdistinct.2, h.clock⟩
      · refine List.pairwise_append.2 ⟨h.once, List.pairwise_singleton _ _, fun x hx y hy heq => ?_⟩
        rw [List.mem_singleton.1 hy] at heq
        exact hfresh x hx m List.mem_cons_self (hid.trans heq.symm)
      · rcases List.mem_append.1 hx with hx | hx
        · exact h.kept x hx
        · rw [List.mem_singleton.1 hx]
          exact .inl ⟨m, hm, hid, hs.time n hn m hm hid⟩
      · have hy : y ∈ s.queue := hy
        rcases List.mem_append.1 hx with hx | hx
        · exact hfresh x hx y (List.mem_cons_of_mem m hy) heq
        · rw [List.mem_singleton.1 hx] at heq
          exact absurd (hid.trans heq.symm) (hdistinct.1 y hy)
  | @miss m hloading hnone =>
      refine h.of_sublist rfl (UInt64.le_refl _) h.clock ?_ fun m hm => .inl hm
      rw [coming_eq hloading]
      exact List.sublist_cons_self m s.queue
  | prepare hlooping hqueue =>
      obtain ⟨-, -, hkept⟩ := hs.expire
      refine h.of_sublist rfl (UInt64.le_refl _) h.clock ?_ fun m hm => ?_
      · rw [coming_eq hlooping]
        exact .refl _
      · exact (hkept m hm).imp_right fun hlt => UInt64.lt_of_lt_of_le hlt h.clock
  | nothing hcopied hnone =>
      refine h.of_sublist rfl (UInt64.le_refl _) h.clock ?_ fun m hm => .inl hm
      rw [coming_eq hcopied]
      exact .refl _
  | @found endpoints found hcopied hnodup hfound =>
      have hmem := hs.mem_found hnodup hfound
      have hqueue : s.queue = [] := hs.empty endpoints (by rw [hcopied]; rfl)
      have hcoming : ∀ n ∈ s.queue ++ found, n ∈ found := fun n hn => by rwa [hqueue] at hn
      refine ⟨h.once, fun m hm => ?_, fun m hm n hn heq => ?_, ?_, h.clock⟩
      · exact (h.kept m hm).imp_left fun ⟨n, hn, hrest⟩ => ⟨n, (hmem n).2 (.inr hn), hrest⟩
      · -- A bundle that is remembered is not found.
        obtain ⟨hstored, hadd⟩ := hfound n (hcoming n hn)
        refine (h.kept m hm).resolve_left fun ⟨x, hx, hid, _⟩ => ?_
        have hcontains := (hs.contains_iff hstored).2 ⟨x, hx, hid.trans heq.symm⟩
        rw [((shouldAdd_iff _ _ _).1 hadd).2] at hcontains
        exact Bool.false_ne_true hcontains
      · change (s.queue ++ found).Pairwise _
        rw [hqueue, List.nil_append]
        exact List.Pairwise.imp_of_mem (fun {m n} hm hn hne heq =>
          hne (hs.unique m (hfound m hm).1 n (hfound n hn).1 heq)) hnodup
  | throw hnothing =>
      refine h.of_sublist rfl (UInt64.le_refl _) h.clock ?_ fun m hm => .inl hm
      rw [coming_eq hnothing]
      exact .refl _
  | _ => exact h.of_sublist rfl (UInt64.le_refl _) h.clock (.refl _) fun m hm => .inl hm

/-! ### Nobody waits while there is a bundle -/

/-- Someone has yet to announce the endpoint. -/
def Subscribing (s : Registration) (e : EID) : Prop :=
  ∃ x ∈ s.subscribing, x.getString = e.getString

/-- **The flag is set when everything was handed out or has yet to be announced**; the search that
lets the flag be set found everything that was stored for the endpoints of the filter. -/
structure Alert (s : Registration) : Prop where
  flag : s.threw = true → s.noMoreBundles = true → ∀ m ∈ s.storage,
    hasSubscribed s.endpoints m.destination = true →
      s.Handed m.toBundleID ∨ m ∈ s.announcing ∨ s.Subscribing m.destination
  filtered : ∀ endpoints, s.receiving.filtered? = some endpoints → ∀ e,
    hasSubscribed s.endpoints e = true → hasSubscribed endpoints e = true ∨ s.Subscribing e
  nothing : ∀ endpoints, s.receiving = .nothing endpoints → ∀ m ∈ s.storage,
    hasSubscribed s.endpoints m.destination = true →
      s.Handed m.toBundleID ∨ m ∈ s.announcing ∨
        hasSubscribed endpoints m.destination = false ∧ s.Subscribing m.destination

/-- Less is stored or subscribed, more was handed out, and the threads go on elsewhere. -/
theorem Alert.of_subset (h : s.Alert) (hstorage : s'.storage ⊆ s.storage)
    (hendpoints : ∀ e, hasSubscribed s'.endpoints e = true → hasSubscribed s.endpoints e = true)
    (hhanded : ∀ i, s.Handed i → s'.Handed i) (hannouncing : s'.announcing = s.announcing)
    (hsubscribing : s'.subscribing = s.subscribing) (hthrew : s'.threw = s.threw)
    (hmore : s'.noMoreBundles = s.noMoreBundles)
    (hfiltered : ∀ endpoints, s'.receiving.filtered? = some endpoints →
      s.receiving.filtered? = some endpoints)
    (hnothing : ∀ endpoints, s'.receiving = .nothing endpoints →
      s.receiving = .nothing endpoints) : s'.Alert := by
  refine ⟨fun ht hm m hmem hsub => ?_, fun endpoints he e hsub => ?_,
    fun endpoints he m hmem hsub => ?_⟩
  · rw [hthrew] at ht
    rw [hmore] at hm
    rw [hannouncing, Subscribing, hsubscribing]
    exact (h.flag ht hm m (hstorage hmem) (hendpoints _ hsub)).imp_left (hhanded _)
  · rw [Subscribing, hsubscribing]
    exact h.filtered endpoints (hfiltered _ he) e (hendpoints e hsub)
  · rw [hannouncing, Subscribing, hsubscribing]
    exact (h.nothing endpoints (hnothing _ he) m (hstorage hmem) (hendpoints _ hsub)).imp_left
      (hhanded _)

/-- A bundle is stored, and has yet to be announced. -/
theorem Alert.store (h : s.Alert) (m : MetaBundle) :
    Alert { s with storage := m :: s.storage, announcing := m :: s.announcing } := by
  have hor : ∀ {p q : Prop} {x : MetaBundle}, p ∨ x ∈ s.announcing ∨ q →
      p ∨ x ∈ m :: s.announcing ∨ q := fun hor =>
    hor.imp_right fun hor => hor.imp_left (List.mem_cons_of_mem m)
  refine ⟨fun ht hm x hx hsub => ?_, h.filtered, fun endpoints he x hx hsub => ?_⟩
  · rcases List.mem_cons.1 hx with rfl | hx
    · exact .inr (.inl List.mem_cons_self)
    · exact hor (h.flag ht hm x hx hsub)
  · rcases List.mem_cons.1 hx with rfl | hx
    · exact .inr (.inl List.mem_cons_self)
    · exact hor (h.nothing endpoints he x hx hsub)

/-- A bundle that is announced was found, or will be. -/
theorem Alert.announce (h : s.Alert) (hs : s.Stocked) {m : MetaBundle}
    (hl : s.Heard (.announce m)) :
    Alert { s.notify with announcing := s.announcing.erase m } := by
  refine ⟨fun _ hm => absurd hm Bool.false_ne_true, h.filtered,
    fun endpoints he x hx hsub => ?_⟩
  by_cases heq : x = m
  · subst heq
    exact .inl (hs.handed hx (hl endpoints he hx hsub)
      (by rw [show s.receiving = _ from he]; rfl))
  · refine (h.nothing endpoints he x hx hsub).imp_right fun hor => hor.imp_left fun hmem => ?_
    exact (List.mem_erase_of_ne heq).2 hmem

/-- An endpoint that is announced is one of the filter. -/
theorem Alert.subscribed (h : s.Alert) {e : EID} (hl : s.Heard (.subscribed e)) :
    Alert { s.notify with subscribing := s.subscribing.erase e } := by
  have hkept : ∀ {x : EID}, s.Subscribing x → x.getString ≠ e.getString →
      ∃ y ∈ s.subscribing.erase e, y.getString = x.getString := by
    rintro x ⟨y, hy, heq⟩ hne
    exact ⟨y, (List.mem_erase_of_ne fun hye => hne (by rw [← heq, hye])).2 hy, heq⟩
  have hall : ∀ endpoints, s.receiving.filtered? = some endpoints → ∀ x,
      hasSubscribed s.endpoints x = true → x.getString = e.getString →
        hasSubscribed endpoints x = true := by
    intro endpoints he x hsub heq
    rw [hasSubscribed_congr heq] at hsub ⊢
    exact hl endpoints he hsub
  refine ⟨fun _ hm => absurd hm Bool.false_ne_true, fun endpoints he x hsub => ?_,
    fun endpoints he x hx hsub => ?_⟩
  · by_cases heq : x.getString = e.getString
    · exact .inl (hall endpoints he x hsub heq)
    · exact (h.filtered endpoints he x hsub).imp_right (hkept · heq)
  · refine (h.nothing endpoints he x hx hsub).imp_right fun hor => hor.imp_right ?_
    rintro ⟨hnot, hsubscribing⟩
    refine ⟨hnot, hkept hsubscribing fun heq => ?_⟩
    have hin := hall endpoints (by rw [show s.receiving = _ from he]; rfl) _ hsub heq
    rw [hnot] at hin
    exact Bool.false_ne_true hin

/-- Whoever subscribes has yet to announce the endpoint. -/
theorem Alert.subscribe (h : s.Alert) (hs : s.Stocked) (e : EID)
    (hlock : s.receiving.locks = false) : Alert { s with
      endpoints := OrderedSet.insert id EID.lt e s.endpoints
      subscribing := e :: s.subscribing } := by
  have hcases : ∀ x, hasSubscribed (OrderedSet.insert id EID.lt e s.endpoints) x = true →
      hasSubscribed s.endpoints x = true ∨ e.getString = x.getString := by
    intro x hsub
    obtain ⟨y, hy, heq⟩ := SQLiteBundleStorage.exists_getString_of_find? hsub
    rcases OrderedSet.mem_of_mem_insert hy with rfl | hy
    · exact .inr heq.symm
    · exact .inl ((hasSubscribed_iff hs.sorted).2 ⟨y, hy, heq.symm⟩)
  have hmore : ∀ {x : EID}, s.Subscribing x → ∃ y ∈ e :: s.subscribing, y.getString = x.getString :=
    fun ⟨y, hy, heq⟩ => ⟨y, List.mem_cons_of_mem e hy, heq⟩
  refine ⟨fun ht hm x hx hsub => ?_, fun endpoints he x hsub => ?_, fun endpoints he => ?_⟩
  · rcases hcases _ hsub with hsub | heq
    · exact (h.flag ht hm x hx hsub).imp_right fun hor => hor.imp_right hmore
    · exact .inr (.inr ⟨e, List.mem_cons_self, heq⟩)
  · rcases hcases _ hsub with hsub | heq
    · exact (h.filtered endpoints he x hsub).imp_right hmore
    · exact .inr ⟨e, List.mem_cons_self, heq⟩
  · rw [show s.receiving = _ from he] at hlock
    exact absurd hlock.symm Bool.false_ne_true

theorem Alert.step (h : s.Alert) (hs : s.Stocked) (hl : s.Heard l) (hmoves : s.Moves l s') :
    s'.Alert := by
  cases hmoves with
  | subscribe hlock => exact h.subscribe hs _ hlock
  | subscribed he => exact h.subscribed hl
  | unsubscribe hlock =>
      refine h.of_subset (List.Subset.refl _) (fun e hsub => ?_) (fun _ => id) rfl rfl rfl rfl
        (fun _ => id) (fun _ => id)
      obtain ⟨y, hy, heq⟩ := SQLiteBundleStorage.exists_getString_of_find? hsub
      exact (hasSubscribed_iff hs.sorted).2 ⟨y, OrderedSet.mem_of_mem_erase hy, heq.symm⟩
  | known hknown =>
      refine ⟨fun ht hm x hx hsub => ?_, h.filtered, fun endpoints he x hx hsub => ?_⟩
      · exact (h.flag ht hm x hx hsub).imp_right fun hor => hor.imp_left (List.mem_cons_of_mem _)
      · exact (h.nothing endpoints he x hx hsub).imp_right fun hor =>
          hor.imp_left (List.mem_cons_of_mem _)
  | store hnew => exact h.store _
  | announce hm => exact h.announce hs hl
  | remove =>
      exact h.of_subset (fun _ hm => List.mem_of_mem_filter hm) (fun _ => id) (fun _ => id) rfl rfl
        rfl rfl (fun _ => id) (fun _ => id)
  | load hloading hn heq =>
      refine h.of_subset (List.Subset.refl _) (fun _ => id) (fun i => ?_) rfl rfl rfl rfl
        (fun _ => nofun) (fun _ => nofun)
      rintro ⟨y, hy, hyi⟩
      exact ⟨y, List.mem_append_left _ hy, hyi⟩
  | prepare hlooping hqueue =>
      refine ⟨h.flag, fun endpoints he e hsub => .inl ?_, fun _ => nofun⟩
      rw [← Option.some.inj he]
      exact hsub
  | @nothing endpoints hcopied hnone =>
      have hfiltered : s.receiving.filtered? = some endpoints := by rw [hcopied]; rfl
      refine ⟨h.flag, fun endpoints' he e hsub => ?_, fun endpoints' he x hx hsub => ?_⟩
      · rw [← Option.some.inj he]
        exact h.filtered endpoints hfiltered e hsub
      · obtain rfl := Receiving.nothing.inj he
        rcases hin : hasSubscribed endpoints x.destination with _ | _
        · refine .inr (.inr ⟨rfl, ?_⟩)
          refine (h.filtered endpoints hfiltered _ hsub).resolve_left fun hin' => ?_
          exact Bool.false_ne_true (hin.symm.trans hin')
        · refine .inl (hs.handed hx ?_ hfiltered)
          refine Bool.eq_true_of_not_eq_false fun hcontains => ?_
          have hadd := (shouldAdd_iff _ _ _).2 ⟨hin, hcontains⟩
          exact Bool.false_ne_true ((hnone x hx).symm.trans hadd)
  | throw hnothing =>
      refine ⟨fun _ _ x hx hsub => ?_, fun _ => nofun, fun _ => nofun⟩
      exact (h.nothing _ hnothing x hx hsub).imp_right fun hor => hor.imp_right And.right
  | receive hidle =>
      exact h.of_subset (List.Subset.refl _) (fun _ => id) (fun _ => id) rfl rfl rfl rfl
        (fun _ => nofun) (fun _ => nofun)
  | pop hlooping hqueue =>
      exact h.of_subset (List.Subset.refl _) (fun _ => id) (fun _ => id) rfl rfl rfl rfl
        (fun _ => nofun) (fun _ => nofun)
  | miss hloading hnone =>
      exact h.of_subset (List.Subset.refl _) (fun _ => id) (fun _ => id) rfl rfl rfl rfl
        (fun _ => nofun) (fun _ => nofun)
  | found hcopied hnodup hfound =>
      exact h.of_subset (List.Subset.refl _) (fun _ => id) (fun _ => id) rfl rfl rfl rfl
        (fun _ => nofun) (fun _ => nofun)
  | _ =>
      exact h.of_subset (List.Subset.refl _) (fun _ => id) (fun _ => id) rfl rfl rfl rfl
        (fun _ => id) (fun _ => id)

/-! ### Runs -/

/-- A new registration, beside an empty storage. `_no_more_bundles` has no initial value. -/
def start (noMoreBundles : Bool) (c : Clock) : Registration where
  endpoints := []
  receivedBundles := .empty
  queue := []
  noMoreBundles
  receiving := .idle
  subscribing := []
  storage := []
  announcing := []
  clock := c
  handed := []
  latest := c.time
  threw := false

/-- What holds behind every run whose announcements are heard. -/
structure Sound (s : Registration) : Prop where
  stocked : s.Stocked
  single : s.Single
  alert : s.Alert

theorem Sound.step (h : s.Sound) (hl : s.Heard l) (hmoves : s.Moves l s') : s'.Sound :=
  ⟨h.stocked.step hl hmoves, h.single.step h.stocked hmoves, h.alert.step h.stocked hl hmoves⟩

theorem sound_start (noMoreBundles : Bool) (c : Clock) : (start noMoreBundles c).Sound :=
  ⟨⟨.nil, fun _ => nofun, BundleList.lists_empty, fun _ => nofun, fun _ => nofun, fun _ => nofun,
    fun _ => nofun, fun _ => nofun⟩,
    ⟨.nil, fun _ => nofun, fun _ => nofun, .nil, UInt64.le_refl _⟩,
    ⟨fun _ _ _ => nofun, fun _ => nofun, fun _ => nofun⟩⟩

theorem Sound.delivered (h : s.Sound) : s.Delivered := by
  refine ⟨h.single.once, fun hthrew hwait hannouncing hsubscribing m hm hsub => ?_⟩
  have hmore : s.noMoreBundles = true := by
    rw [Registration.step] at hwait
    by_contra hmore
    rw [if_neg hmore] at hwait
    cases hwait
  refine (h.alert.flag hthrew hmore m hm hsub).resolve_right ?_
  rintro (hmem | ⟨x, hx, -⟩)
  · rw [hannouncing] at hmem
    exact List.not_mem_nil hmem
  · rw [hsubscribing] at hx
    exact List.not_mem_nil hx

/-- The registration after some steps, if they are possible. -/
def after (labels : List Label) : Option Registration :=
  labels.foldlM step (start false (.showing 0))

/-- A bundle for `dtn:none`. -/
def sampleMeta : MetaBundle where
  source := .none
  timestamp := 1
  sequencenumber := 0
  fragment := false
  offset := 0
  lifetime := 3600
  destination := .none
  reportto := .none
  custodian := .none
  appdatalength := 0
  procflags := 0
  expiretime := 3601
  hopcount := 0

/-- The bundle is stored, announced, found and handed out. -/
def sampleLabels : List Label :=
  [.subscribe .none, .subscribed .none, .store sampleMeta, .announce sampleMeta, .receive, .prepare,
    .search [sampleMeta], .pop, .load]

end Registration

end IbrDtn
