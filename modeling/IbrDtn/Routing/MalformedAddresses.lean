import IbrDtn.Routing.RoutingExtensions

/-!
# Bundles without proper addresses in the routing

A peer may send bundles with EIDs that have no host part.  The filters of the routing extensions take
the EIDs of stored bundles apart, and the base router that of a transferred bundle; both throw
for such an EID.  This file says which stored bundles stop a search, what remains of the search,
and when a completed transfer is released.

## Main definitions

* `Extension.WellAddressed` : the EIDs that the filter of an extension takes apart have host parts.
* `Extension.Unreadable` : the bundles for which a filter throws.
* `Withstands` : a turn of a worker loop is not affected by the other bundles.
* `BaseRouter.Releases` : a completed transfer is released.

## Main results

* `Extension.filter_cases` : what a filter says of a bundle.
* `withstands_iff` : when a worker loop and the router are not affected.
-/

namespace IbrDtn

open Selection (select)

variable {σ F : Type} [Storage σ] [BloomFilter F]

namespace Extension

/-- The EIDs that the filter of the extension takes apart have host parts. -/
def WellAddressed (m : MetaBundle) : Extension → Bool
  | .epidemic => decide m.source.HasHost && decide m.destination.HasHost
  | _ => decide m.destination.HasHost

/-- The filter of the extension throws when it takes the EIDs apart. -/
def Unreadable (eid : EID) (m : MetaBundle) : Extension → Prop
  | .neighbor => ¬ eid.HasHost ∨ ¬ m.destination.HasHost
  | .static => ¬ m.destination.HasHost
  | .flood => m.hopcount ≠ 0 ∧ ¬ m.destination.HasHost
  | .epidemic => m.hopcount ≠ 0 ∧ (¬ m.source.HasHost ∨
      m.source.getApplication ≠ .ok routingApplication ∧ ¬ m.destination.HasHost)
  | .nodeHandshake | .retransmission => False

/-- What the filter of an extension says of a bundle. -/
inductive FilterCase (env : TaskEnv) (eid : EID) (e : NeighborEntry F) (x : Extension)
    (m : MetaBundle) : Prop where
  | unreadable (hm : x.Unreadable eid m) (err : Exn)
      (h : x.filter env eid e m = .error (.other err))
  | unavailable (hm : ¬ x.Unreadable eid m) (hx : x = .epidemic)
      (hstate : e.filterState ≠ .available) (haddr : x.WellAddressed m = true) (host : EID)
      (h : x.filter env eid e m = .error (.bloomfilterNotAvailable host))
  | rejected (hm : ¬ x.Unreadable eid m) (h : x.filter env eid e m = .ok false)
  | accepted (hm : ¬ x.Unreadable eid m) (haddr : x.WellAddressed m = true)
      (hstate : x = .epidemic → e.filterState = .available) (h : x.filter env eid e m = .ok true)

/-- `FilterCase` for an answer of the filter that is not an exception. -/
theorem FilterCase.of_ok {env : TaskEnv} {eid : EID} {e : NeighborEntry F} {x : Extension}
    {m : MetaBundle} {b : Bool} (hm : ¬ x.Unreadable eid m) (haddr : x.WellAddressed m = true)
    (hstate : x = .epidemic → e.filterState = .available) (h : x.filter env eid e m = .ok b) :
    FilterCase env eid e x m := by
  cases b with
  | false => exact .rejected hm h
  | true => exact .accepted hm haddr hstate h

variable (env : TaskEnv) (eid : EID) (e : NeighborEntry F) (m : MetaBundle)

theorem filter_cases_neighbor : FilterCase env eid e .neighbor m := by
  by_cases heid : eid.HasHost
  · obtain ⟨own, hown⟩ := EID.exists_getNode heid
    by_cases hdest : m.destination.HasHost
    · obtain ⟨node, hnode⟩ := EID.exists_getNode hdest
      refine .of_ok (b := decide (own = node)) ?_ (decide_eq_true hdest) (by simp) ?_
      · exact not_or.2 ⟨not_not.2 heid, not_not.2 hdest⟩
      · rw [filter, NeighborRoutingExtension.shouldAdd, hown, hnode]
        rfl
    · refine .unreadable (.inr hdest) (.exception "wrong eid format") ?_
      rw [filter, NeighborRoutingExtension.shouldAdd, hown, EID.getNode_of_not_hasHost hdest]
      rfl
  · refine .unreadable (.inl heid) (.exception "wrong eid format") ?_
    rw [filter, NeighborRoutingExtension.shouldAdd, EID.getNode_of_not_hasHost heid]
    rfl

theorem filter_cases_static : FilterCase env eid e .static m := by
  by_cases hdest : m.destination.HasHost
  · obtain ⟨node, hnode⟩ := EID.exists_getNode hdest
    refine .of_ok (not_not.2 hdest) (decide_eq_true hdest) (by simp)
      (b := !blacklisted eid node && !e.knows m.toBundleID &&
        (StaticRoutingExtension.routesOver env eid).any fun r => r.match m.destination) ?_
    rw [filter, StaticRoutingExtension.shouldAdd, hnode]
    cases hb : blacklisted eid node <;> cases hk : e.knows m.toBundleID <;>
      simp [ofEID, Except.mapError, NeighborEntry.has, hb, hk, bind, Except.bind, pure, Except.pure]
  · refine .unreadable hdest (.exception "wrong eid format") ?_
    rw [filter, StaticRoutingExtension.shouldAdd, EID.getNode_of_not_hasHost hdest]
    rfl

theorem filter_cases_flood : FilterCase env eid e .flood m := by
  by_cases hhop : m.hopcount = 0
  · refine .rejected (fun h => h.1 hhop) ?_
    rw [filter, FloodRoutingExtension.shouldAdd, if_pos hhop]
  · by_cases hdest : m.destination.HasHost
    · obtain ⟨node, hnode⟩ := EID.exists_getNode hdest
      refine .of_ok (fun h => h.2 hdest) (decide_eq_true hdest) (by simp)
        (b := !(isLocal env.localEID node m || isLastHop m || blacklisted eid node) &&
          !e.knows m.toBundleID) ?_
      rw [filter, FloodRoutingExtension.shouldAdd, if_neg hhop, hnode]
      cases hb : isLocal env.localEID node m || isLastHop m || blacklisted eid node <;>
        simp [ofEID, Except.mapError, NeighborEntry.has, hb, bind, Except.bind, pure, Except.pure]
    · refine .unreadable ⟨hhop, hdest⟩ (.exception "wrong eid format") ?_
      rw [filter, FloodRoutingExtension.shouldAdd, if_neg hhop, EID.getNode_of_not_hasHost hdest]
      rfl

theorem filter_cases_epidemic : FilterCase env eid e .epidemic m := by
  by_cases hhop : m.hopcount = 0
  · refine .rejected (fun h => h.1 hhop) ?_
    rw [filter, EpidemicRoutingExtension.shouldAdd, if_pos hhop]
  by_cases hsource : m.source.HasHost
  · obtain ⟨application, happ⟩ := EID.exists_getApplication hsource
    by_cases hrouting : application = routingApplication
    · refine .rejected ?_ ?_
      · rintro ⟨-, h | ⟨h, -⟩⟩
        · exact h hsource
        · exact h (hrouting ▸ happ)
      · rw [filter, EpidemicRoutingExtension.shouldAdd, if_neg hhop, happ, hrouting]
        rfl
    by_cases hdest : m.destination.HasHost
    · obtain ⟨node, hnode⟩ := EID.exists_getNode hdest
      have hm : ¬ Unreadable eid m .epidemic := by
        rintro ⟨-, h | ⟨-, h⟩⟩
        · exact h hsource
        · exact h hdest
      have haddr : WellAddressed m .epidemic = true :=
        Bool.and_eq_true_iff.2 ⟨decide_eq_true hsource, decide_eq_true hdest⟩
      cases hb : isLocal env.localEID node m || isLastHop m || blacklisted eid node with
      | true =>
          refine .rejected hm ?_
          rw [filter, EpidemicRoutingExtension.shouldAdd, if_neg hhop, happ, hnode]
          simp [ofEID, Except.mapError, hrouting, hb, bind, Except.bind, pure, Except.pure]
      | false =>
          by_cases hstate : e.filterState = .available
          · refine .of_ok hm haddr (fun _ => hstate) (b := !e.knows m.toBundleID) ?_
            rw [filter, EpidemicRoutingExtension.shouldAdd, if_neg hhop, happ, hnode]
            simp [ofEID, Except.mapError, NeighborEntry.has_of_available hstate, hrouting, hb, bind,
              Except.bind, pure, Except.pure]
          · refine .unavailable hm rfl hstate haddr e.eid ?_
            rw [filter, EpidemicRoutingExtension.shouldAdd, if_neg hhop, happ, hnode]
            simp [ofEID, Except.mapError, NeighborEntry.has, hstate, hrouting, hb, bind, Except.bind]
    · refine .unreadable ⟨hhop, .inr ⟨?_, hdest⟩⟩ (.exception "wrong eid format") ?_
      · rw [happ]
        exact fun h => hrouting (Except.ok.inj h)
      · rw [filter, EpidemicRoutingExtension.shouldAdd, if_neg hhop, happ,
          EID.getNode_of_not_hasHost hdest]
        simp [ofEID, Except.mapError, hrouting, bind, Except.bind]
  · refine .unreadable ⟨hhop, .inl hsource⟩ (.exception "wrong eid format") ?_
    rw [filter, EpidemicRoutingExtension.shouldAdd, if_neg hhop,
      EID.getApplication_of_not_hasHost hsource]
    rfl

/-- **What the filter of an extension says of a bundle.** -/
theorem filter_cases (x : Extension) : FilterCase env eid e x m :=
  match x with
  | .neighbor => filter_cases_neighbor env eid e m
  | .static => filter_cases_static env eid e m
  | .flood => filter_cases_flood env eid e m
  | .epidemic => filter_cases_epidemic env eid e m
  | .nodeHandshake => .rejected not_false rfl
  | .retransmission => .rejected not_false rfl

variable {env eid e m} {x : Extension}

/-- **The filter throws when it takes the EIDs apart exactly for the unreadable bundles.** -/
theorem filter_eq_other_iff :
    (∃ err, x.filter env eid e m = .error (.other err)) ↔ x.Unreadable eid m := by
  cases filter_cases env eid e m x with
  | unreadable hm err h => exact iff_of_true ⟨err, h⟩ hm
  | unavailable hm hx hstate haddr host h => exact iff_of_false (by simp [h]) hm
  | rejected hm h => exact iff_of_false (by simp [h]) hm
  | accepted hm haddr hstate h => exact iff_of_false (by simp [h]) hm

/-- A bundle that the filter accepts is well addressed. -/
theorem wellAddressed_of_accepted (h : x.filter env eid e m = .ok true) :
    x.WellAddressed m = true := by
  cases filter_cases env eid e m x with
  | unreadable hm err h' => rw [h] at h'; cases h'
  | unavailable hm hx hstate haddr host h' => exact haddr
  | rejected hm h' => rw [h] at h'; cases h'
  | accepted hm haddr hstate h' => exact haddr

/-- The exception for a missing Bloom filter is thrown for well-addressed bundles, and where no bundle
is accepted. -/
theorem of_unavailable {host : EID}
    (h : x.filter env eid e m = .error (.bloomfilterNotAvailable host)) :
    x.WellAddressed m = true ∧ ∀ m', x.filter env eid e m' ≠ .ok true := by
  cases filter_cases env eid e m x with
  | unreadable hm err h' => rw [h] at h'; cases h'
  | rejected hm h' => rw [h] at h'; cases h'
  | accepted hm haddr hstate h' => rw [h] at h'; cases h'
  | unavailable hm hx hstate haddr host' h' =>
      refine ⟨haddr, fun m' hm' => ?_⟩
      cases filter_cases env eid e m' x with
      | unreadable _ err h' => rw [hm'] at h'; cases h'
      | unavailable _ _ _ _ _ h' => rw [hm'] at h'; cases h'
      | rejected _ h' => rw [hm'] at h'; cases h'
      | accepted _ _ hstate' _ => exact hstate (hstate' hx)

/-- The exceptions of a filter. -/
theorem filter_error {err : NeighborDatabase.Exn} (h : x.filter env eid e m = .error err) :
    (∃ host, err = .bloomfilterNotAvailable host) ∨ ∃ err', err = .other err' := by
  cases filter_cases env eid e m x with
  | unreadable hm err' h' => exact .inr ⟨err', Except.error.inj (h.symm.trans h')⟩
  | unavailable hm hx hstate haddr host h' => exact .inl ⟨host, Except.error.inj (h.symm.trans h')⟩
  | rejected hm h' => rw [h] at h'; cases h'
  | accepted hm haddr hstate h' => rw [h] at h'; cases h'

end Extension

/-! ### Searches -/

/-- **The search of an extension looks at an unreadable bundle**: the bundles in front of it neither
make the filter throw nor fill the selection. -/
def Hindered (env : TaskEnv) (stored : List MetaBundle) (eid : EID) (e : NeighborEntry F)
    (x : Extension) : Prop :=
  ∃ l m r, stored = l ++ m :: r ∧ (∀ b ∈ l, ∃ a, x.filter env eid e b = .ok a) ∧
    l.countP (Selection.accepts (x.filter env eid e)) < searchLimit ∧ x.Unreadable eid m

/-- **A turn of a worker loop is not affected by bundles that are not well addressed**: the loop goes
on, and of the well-addressed bundles it passes those on that it would if the others were not
stored. -/
def Withstands (env : TaskEnv) (db : NeighborDatabase F) (stored : List MetaBundle) (x : Extension)
    (task : RoutingTask) : Prop :=
  (runTask env db stored x task).running = true ∧
    (runTask env db stored x task).passed.filter (fun y => x.WellAddressed y.2) =
      (runTask env db (stored.filter fun m => x.WellAddressed m) x task).passed.filter
        (fun y => x.WellAddressed y.2)

/-- **The condition on a task**: a search does not look at an unreadable bundle; or its loop survives
that, and no stored bundle is to be passed on. -/
def Unimpeded (env : TaskEnv) (db : NeighborDatabase F) (stored : List MetaBundle) (x : Extension) :
    RoutingTask → Prop
  | .searchNextBundle eid => x.Searches env eid → ∀ e, db.find? eid = some e →
      ¬ Hindered env stored eid e x ∨
        x.survives = true ∧ ∀ m ∈ stored, x.filter env eid e m ≠ .ok true
  | .processBundle _ _ | .transferCompleted _ _ => True

/-- The neighbor of a search is available. -/
def Available (db : NeighborDatabase F) : RoutingTask → Prop
  | .searchNextBundle eid => ∃ e, db.find? eid = some e
  | .processBundle _ _ | .transferCompleted _ _ => True

section Search

variable {env : TaskEnv} {db : NeighborDatabase F} {stored : List MetaBundle} {eid : EID}
  {e : NeighborEntry F} {x : Extension}

theorem select_eq_other_iff :
    (∃ err, select (x.filter env eid e) searchLimit stored = .error (.other err)) ↔
      Hindered env stored eid e x := by
  constructor
  · rintro ⟨err, h⟩
    obtain ⟨l, m, r, hl, hok, hn, hm⟩ := Selection.select_eq_error_iff.1 h
    exact ⟨l, m, r, hl, hok, hn, Extension.filter_eq_other_iff.1 ⟨err, hm⟩⟩
  · rintro ⟨l, m, r, hl, hok, hn, hm⟩
    obtain ⟨err, hm⟩ : ∃ err, x.filter env eid e m = .error (.other err) :=
      Extension.filter_eq_other_iff.2 hm
    exact ⟨err, Selection.select_eq_error_iff.2 ⟨l, m, r, hl, hok, hn, hm⟩⟩

/-- Whatever a search passes on is well addressed. -/
theorem filter_passed {b : Bool} (l : List MetaBundle) :
    (searchFor db l b eid e (x.filter env eid e)).passed.filter (fun y => x.WellAddressed y.2) =
      (searchFor db l b eid e (x.filter env eid e)).passed :=
  List.filter_eq_self.2 fun _ hy =>
    Extension.wellAddressed_of_accepted (accepted_of_mem_passed hy).2.2

omit [BloomFilter F] in
/-- The loops that survive read every bundle that is well addressed. -/
theorem readable_of_wellAddressed {m : MetaBundle} (hx : x.survives = true)
    (hm : x.WellAddressed m = true) : ¬ x.Unreadable eid m := by
  cases x with
  | flood => exact fun h => h.2 (of_decide_eq_true hm)
  | epidemic =>
      obtain ⟨hsource, hdest⟩ := Bool.and_eq_true_iff.1 hm
      rintro ⟨-, h | ⟨-, h⟩⟩
      · exact h (of_decide_eq_true hsource)
      · exact h (of_decide_eq_true hdest)
  | neighbor => cases hx
  | static => cases hx
  | nodeHandshake => cases hx
  | retransmission => cases hx

/-- **Without the other bundles, a loop that survives passes nothing on exactly if its filter accepts
no stored bundle.** -/
theorem passed_wellAddressed_eq_nil_iff (hx : x.survives = true) :
    (searchFor db (stored.filter fun m => x.WellAddressed m) true eid e
      (x.filter env eid e)).passed = [] ↔ ∀ m ∈ stored, x.filter env eid e m ≠ .ok true := by
  constructor
  · intro hnil m hm haccept
    have hmem : m ∈ stored.filter fun m => x.WellAddressed m :=
      List.mem_filter.2 ⟨hm, Extension.wellAddressed_of_accepted haccept⟩
    cases h : select (x.filter env eid e) searchLimit
        (stored.filter fun m => x.WellAddressed m) with
    | ok found =>
        rw [searchFor_ok h, List.map_eq_nil_iff, passed_transferAll_eq_nil_iff] at hnil
        rw [hnil] at h
        have hreject := Selection.rejects_of_select_eq_nil h m hmem
        rw [haccept] at hreject
        cases hreject
    | error err =>
        obtain ⟨l, a, r, hl, -, -, ha⟩ := Selection.select_eq_error_iff.1 h
        rcases Extension.filter_error ha with ⟨host, rfl⟩ | ⟨err, rfl⟩
        · exact (Extension.of_unavailable ha).2 m haccept
        · have hmema : a ∈ stored.filter fun m => x.WellAddressed m :=
            hl ▸ List.mem_append_right l List.mem_cons_self
          exact readable_of_wellAddressed hx (List.mem_filter.1 hmema).2
            (Extension.filter_eq_other_iff.1 ⟨err, ha⟩)
  · intro hnone
    refine List.eq_nil_iff_forall_not_mem.2 fun y hy => ?_
    obtain ⟨-, hmem, haccept⟩ := accepted_of_mem_passed hy
    exact hnone y.2 (List.mem_of_mem_filter hmem) haccept

/-- **A search withstands** exactly under its condition. -/
theorem withstands_search_iff (hentry : db.find? eid = some e) (hx : x.Searches env eid) :
    Withstands env db stored x (.searchNextBundle eid) ↔
      ¬ Hindered env stored eid e x ∨
        x.survives = true ∧ ∀ m ∈ stored, x.filter env eid e m ≠ .ok true := by
  have hreject (m : MetaBundle) (hm : x.WellAddressed m = false) :
      x.filter env eid e m ≠ .ok true := fun h => by
    rw [Extension.wellAddressed_of_accepted h] at hm
    cases hm
  rw [Withstands, Extension.runTask_search hentry hx, Extension.runTask_search hentry hx,
    filter_passed, filter_passed]
  cases h : select (x.filter env eid e) searchLimit stored with
  | ok found =>
      refine iff_of_true ⟨?_, ?_⟩ (.inl fun hh => ?_)
      · rw [searchFor_ok h]
        rfl
      · rw [searchFor_ok h, searchFor_ok (Selection.select_filter hreject h)]
      · obtain ⟨err, herr⟩ := select_eq_other_iff.2 hh
        rw [h] at herr
        cases herr
  | error err =>
      obtain ⟨l, a, r, hl, -, -, ha⟩ := Selection.select_eq_error_iff.1 h
      rcases Extension.filter_error ha with ⟨host, rfl⟩ | ⟨err, rfl⟩
      · refine iff_of_true ⟨?_, ?_⟩ (.inl fun hh => ?_)
        · rw [searchFor_unavailable h]
          rfl
        · rw [searchFor_unavailable h, searchFor_unavailable (Selection.select_filter_error
            (fun b hb => (Extension.of_unavailable hb).1) h)]
        · obtain ⟨err, herr⟩ := select_eq_other_iff.2 hh
          rw [h] at herr
          cases herr
      · have hhindered : Hindered env stored eid e x := select_eq_other_iff.1 ⟨err, h⟩
        rw [searchFor_other h, or_iff_right (not_not.2 hhindered)]
        refine and_congr_right fun hsurvives => ?_
        have hsurvives : x.survives = true := hsurvives
        have hnil : (searchFor db (stored.filter fun m => x.WellAddressed m) true eid e
            (x.filter env eid e)).passed = [] ↔ ∀ m ∈ stored, x.filter env eid e m ≠ .ok true :=
          passed_wellAddressed_eq_nil_iff hsurvives
        rw [hsurvives, ← hnil]
        exact eq_comm

end Search

/-! ### Other tasks, and the router -/

omit [BloomFilter F] in
/-- Forwarding over a route keeps the loop running. -/
theorem running_forward (m : MetaBundle) (o : TaskOutcome F) (route : StaticRoute) :
    (StaticRoutingExtension.forward m o route).running = o.running := by
  rw [StaticRoutingExtension.forward]
  split_ifs
  · cases o.neighborDatabase.find? route.dest <;> rfl
  · rfl

omit [BloomFilter F] in
theorem running_process (env : TaskEnv) (db : NeighborDatabase F) (m : MetaBundle) :
    (StaticRoutingExtension.process env db m).running = true := by
  have hfold (routes : List StaticRoute) (o : TaskOutcome F) :
      (routes.foldl (StaticRoutingExtension.forward m) o).running = o.running := by
    induction routes generalizing o with
    | nil => rfl
    | cons route routes ih => exact (ih _).trans (running_forward m o route)
  exact hfold env.routes (.idle db)

/-- **A task that does not search is not affected by the storage.** -/
theorem withstands_processBundle (env : TaskEnv) (db : NeighborDatabase F)
    (stored : List MetaBundle) (x : Extension) (m : MetaBundle) (origin : EID) :
    Withstands env db stored x (.processBundle m origin) := by
  cases x with
  | static => exact ⟨running_process env db m, rfl⟩
  | neighbor => exact ⟨rfl, rfl⟩
  | flood => exact ⟨rfl, rfl⟩
  | epidemic => exact ⟨rfl, rfl⟩
  | nodeHandshake => exact ⟨rfl, rfl⟩
  | retransmission => exact ⟨rfl, rfl⟩

theorem withstands_transferCompleted (env : TaskEnv) (db : NeighborDatabase F)
    (stored : List MetaBundle) (x : Extension) (peer : EID) (m : MetaBundle) :
    Withstands env db stored x (.transferCompleted peer m) := by
  cases x <;> exact ⟨rfl, rfl⟩

/-- **The router releases a completed transfer**: no exception leaves its handler, and the bundle is
erased from the bundles in transit to the peer. -/
def BaseRouter.Releases (env : RouterEnv) (r : BaseRouter σ F) (peer : EID) (m : MetaBundle) :
    Prop :=
  (r.raiseEvent env (.transferCompleted peer m)).escapes = none ∧
    ∀ e, r.neighborDatabase.find? peer = some e → ∃ e',
      (r.raiseEvent env (.transferCompleted peer m)).router.neighborDatabase.find? peer = some e' ∧
        e'.transitBundles = OrderedSet.erase id BundleID.lt m.toBundleID e.transitBundles

/-- Adding a bundle for a neighbor keeps the bundles in transit to it. -/
theorem transitBundles_addBundle {db : NeighborDatabase F} {peer : EID} {e : NeighborEntry F}
    (h : db.find? peer = some e) (m : MetaBundle) :
    ∃ e', (db.addBundle peer m).find? peer = some e' ∧ e'.transitBundles = e.transitBundles := by
  refine ⟨e.add m, ?_, rfl⟩
  rw [NeighborDatabase.addBundle, NeighborDatabase.modify, NeighborDatabase.get_of_find? h]
  exact NeighborDatabase.find?_put _ _ _

/-- **A completed transfer is released exactly if the peer and the destination of the bundle have host
parts.** -/
theorem BaseRouter.releases_iff (env : RouterEnv) (r : BaseRouter σ F) (peer : EID)
    (m : MetaBundle) : r.Releases env peer m ↔ peer.HasHost ∧ m.destination.HasHost := by
  rw [Releases, raiseEvent, raiseTransferCompleted]
  by_cases hpeer : peer.HasHost
  · obtain ⟨peerNode, hpeerNode⟩ := EID.exists_getNode hpeer
    by_cases hdest : m.destination.HasHost
    · obtain ⟨node, hnode⟩ := EID.exists_getNode hdest
      obtain ⟨b, hdelivers⟩ : ∃ b, delivers peer m = .ok b := by
        rw [delivers, hpeerNode, hnode]
        exact ⟨_, rfl⟩
      refine iff_of_true ?_ ⟨hpeer, hdest⟩
      rw [hdelivers]
      have hdb : (if b = true then r.addPurgedBundle m else r).neighborDatabase =
          r.neighborDatabase := by
        split_ifs <;> rfl
      dsimp only
      rw [hdb, NeighborDatabase.modify]
      cases h : r.neighborDatabase.find? peer with
      | none =>
          rw [NeighborDatabase.get_of_find?_eq_none h]
          exact ⟨rfl, fun e he => by cases he⟩
      | some e =>
          rw [NeighborDatabase.get_of_find? h]
          refine ⟨rfl, fun e' he' => ?_⟩
          obtain rfl := Option.some.inj he'
          exact transitBundles_addBundle (NeighborDatabase.find?_put _ _ _) m
    · have hdelivers : delivers peer m = .error (.exception "wrong eid format") := by
        rw [delivers, hpeerNode, EID.getNode_of_not_hasHost hdest]
        rfl
      rw [hdelivers]
      exact iff_of_false (fun h => by cases h.1) (fun h => hdest h.2)
  · have hdelivers : delivers peer m = .error (.exception "wrong eid format") := by
      rw [delivers, EID.getNode_of_not_hasHost hpeer]
      rfl
    rw [hdelivers]
    exact iff_of_false (fun h => by cases h.1) (fun h => hpeer h.1)

/-- **A task for an available neighbor is not affected by bundles that are not well addressed, exactly
under its condition; and a completed transfer is released exactly if the EIDs have host
parts.** -/
theorem withstands_iff (env : TaskEnv) (renv : RouterEnv) (r : BaseRouter σ F) (x : Extension)
    (task : RoutingTask) (havailable : Available r.neighborDatabase task) (peer : EID)
    (m : MetaBundle) :
    (Withstands env r.neighborDatabase (Storage.stored r.storage) x task ↔
      Unimpeded env r.neighborDatabase (Storage.stored r.storage) x task) ∧
      (r.Releases renv peer m ↔ peer.HasHost ∧ m.destination.HasHost) := by
  refine ⟨?_, r.releases_iff renv peer m⟩
  cases task with
  | processBundle m origin => exact iff_of_true (withstands_processBundle _ _ _ _ _ _) trivial
  | transferCompleted peer m => exact iff_of_true (withstands_transferCompleted _ _ _ _ _ _) trivial
  | searchNextBundle eid =>
      obtain ⟨e, he⟩ := havailable
      by_cases hx : x.Searches env eid
      · rw [withstands_search_iff he hx, Unimpeded]
        refine ⟨fun h _ e' he' => ?_, fun h => h hx e he⟩
        obtain rfl := Option.some.inj (he.symm.trans he')
        exact h
      · refine iff_of_true ?_ fun h => absurd h hx
        rw [Withstands, Extension.runTask_of_not_searches hx,
          Extension.runTask_of_not_searches hx]
        exact ⟨rfl, rfl⟩

/-! ### A bundle without proper address -/

/-- The neighbor `dtn://b`. -/
def sampleNeighbor : EID := ⟨EID.defaultScheme, ascii ['/', '/', 'b']⟩

/-- A router that stores a bundle with the given destination, and has an entry for `dtn://b`. -/
def sampleRouter (destination : EID) : BaseRouter MemoryBundleStorage CellFilter where
  knownBundles := .create
  purgedBundles := .create
  storage := (MemoryBundleStorage.create 0).insert (.showing 0)
    { Bundle.create 1 1 with source := sampleNeighbor, destination := destination }
  extensions := RoutingExtension.defaultRouting.extensions
  neighborDatabase := ⟨[(sampleNeighbor, .create sampleNeighbor)]⟩

/-- A node without static routes and neighbors. -/
def sampleEnv : TaskEnv := ⟨EID.none, [], []⟩

/-- A router without a security manager that finds anything wrong. -/
def sampleRouterEnv : RouterEnv := ⟨.showing 0, EID.none, .ok⟩

theorem withstands_iff_sample :
    Withstands sampleEnv (sampleRouter sampleNeighbor).neighborDatabase
      (Storage.stored (sampleRouter sampleNeighbor).storage) .neighbor
        (.searchNextBundle sampleNeighbor) := by
  refine (withstands_iff sampleEnv sampleRouterEnv (sampleRouter sampleNeighbor) .neighbor
    (.searchNextBundle sampleNeighbor) ⟨.create sampleNeighbor, rfl⟩ sampleNeighbor
    (.ofBundle (.showing 0) (Bundle.create 1 1))).1.2 fun _ e _ => .inl ?_
  rintro ⟨l, m, r, hl, -, -, hm⟩
  have hmem : m ∈ Storage.stored (sampleRouter sampleNeighbor).storage :=
    hl ▸ List.mem_append_right l List.mem_cons_self
  obtain rfl := List.mem_singleton.1 hmem
  exact hm.elim (fun h => h (by decide)) (fun h => h (by decide))

/-- The worker loop of the neighbor routing ends when a bundle to `dtn:` is stored. -/
theorem not_withstands_sample :
    ¬ Withstands sampleEnv (sampleRouter ⟨EID.defaultScheme, []⟩).neighborDatabase
      (Storage.stored (sampleRouter ⟨EID.defaultScheme, []⟩).storage) .neighbor
        (.searchNextBundle sampleNeighbor) := by
  rintro ⟨hrunning, -⟩
  exact absurd hrunning (by decide)

end IbrDtn
