import IbrDtn.Library.Transition
import IbrDtn.Data.ExpiryIndex
import IbrDtn.Routing.BaseRouter

/-!
# Suppressing duplicates

The workers of the event switch handle the events about received bundles side by side.  Whether a
bundle is known, is one locked section of `BaseRouter::raiseEvent`; storing it, making it known, and
raising the event for the routing extensions are others.  This file splits the handler into these
sections, and follows the workers through every interleaving.  Beside the router, the states have a
history: the bundles that were made known and have not expired, and what became of each event.

## Main definitions

* `EventWorkers`, `EventWorkers.step` : the workers, and what one of them does next.
* `EventWorkers.Separate` : the steps at which identifiers do not meet.
* `EventWorkers.Routed` : a bundle was stored and queued in a run.

## Main results

* `EventWorkers.does_raiseBundleReceived` : a worker that is not interrupted does what the handler
  of the router does.
* `EventWorkers.exact_run` : new bundles are stored and queued, and no bundle is queued twice while
  it is known.
-/

namespace IbrDtn

open Transition (Run)

/-! ### What expires -/

/-- **A summary loses what has expired**, and its list stays in step. -/
theorem BundleSummary.expire_list {F : Type} [BloomFilter F] {s : BundleSummary F}
    (h : s.list.InStep) (c : Clock) (timestamp : UInt64) :
    (s.expire c timestamp).list.InStep ∧ (s.expire c timestamp).list.metas =
      if c.hasQuality then s.list.metas.filter fun m => decide (timestamp ≤ m.expiretime)
      else s.list.metas := by
  have hlist : (s.expire c timestamp).list =
      (s.list.expire c timestamp (fun _ b log => log ++ [b]) []).1 :=
    BundleList.fst_expire c timestamp _ _ s.list s.vector []
  rw [hlist]
  cases hc : c.hasQuality with
  | false =>
      rw [BundleList.expire, hc, if_neg Bool.false_ne_true, if_neg Bool.false_ne_true]
      exact ⟨h, rfl⟩
  | true =>
      obtain ⟨l, hexpire, hmetas, hl⟩ := h.expire hc timestamp
      rw [hexpire, if_pos rfl]
      exact ⟨hl, hmetas⟩

/-! ### Workers -/

/-- How far a worker has come with a `BundleReceivedEvent`. -/
inductive Progress where
  | taken
  | unknown
  | verified (bundle : Bundle)
  | stored (bundle : Bundle)
  | known (bundle : Bundle)
deriving DecidableEq

/-- The sections that are left. -/
def Progress.left : Progress → ℕ
  | .taken => 5
  | .unknown => 4
  | .verified _ => 3
  | .stored _ => 2
  | .known _ => 1

/-- A `BundleReceivedEvent` in the hands of a worker. `isNew` tells whether no bundle with the
identifier was known when the worker began to handle it. -/
structure Reception where
  peer : EID
  bundle : Bundle
  fromlocal : Bool
  progress : Progress
  isNew : Bool
deriving DecidableEq

/-- What became of an event: the bundle that was stored for it, and whether it was queued. -/
structure HandledReception where
  bundle : Bundle
  fromlocal : Bool
  isNew : Bool
  stored : Option Bundle
  queued : Bool
deriving DecidableEq

/-- The router and its workers. The bundles in `known` were made known and have not expired. -/
structure EventWorkers (σ F W : Type) where
  router : BaseRouter σ F
  receptions : W → Option Reception
  known : List MetaBundle
  handled : List HandledReception

/-- What happens: a worker takes an event from the queue, or comes to the next locked section, or a
`TimeEvent` expires one of the lists. -/
inductive WorkerAction (W : Type) where
  | take (w : W) (peer : EID) (bundle : Bundle) (fromlocal : Bool)
  | advance (w : W) (c : Clock)
  | expireKnown (c : Clock) (timestamp : UInt64)
  | expirePurged (c : Clock) (timestamp : UInt64)
  | expireNeighbors (c : Clock) (timestamp : UInt64)

/-- The bundle that is to be stored: the checks modify a bundle from a peer. -/
def accepted (verify : Bundle → Except BaseRouter.Exn Bundle) (fromlocal : Bool) (b : Bundle) :
    Except BaseRouter.Exn Bundle :=
  if fromlocal then .ok b else verify b

namespace Reception

/-- The worker has passed the question whether the bundle is known. -/
def Passed (r : Reception) : Prop := r.progress ≠ .taken

/-- The worker has passed this question, and has not made the bundle known yet. -/
def Pending (r : Reception) : Prop := r.Passed ∧ ∀ b, r.progress ≠ .known b

/-- The worker has stored the bundle. -/
def HasStored (r : Reception) (b : Bundle) : Prop :=
  r.progress = .stored b ∨ r.progress = .known b

/-- The worker has what the checks have left of the bundle. -/
def Sound (verify : Bundle → Except BaseRouter.Exn Bundle) (r : Reception) : Prop :=
  match r.progress with
  | .taken => True
  | .unknown => r.fromlocal = false
  | .verified b | .stored b | .known b => accepted verify r.fromlocal r.bundle = .ok b

end Reception

/-- What became of an event about a new bundle. A bundle for the null endpoint, or one that does not
pass the checks, is dropped. -/
def HandledReception.Exact (verify : Bundle → Except BaseRouter.Exn Bundle)
    (h : HandledReception) : Prop :=
  h.isNew = true → h.bundle.destination ≠ EID.null →
    ∀ b, accepted verify h.fromlocal h.bundle = .ok b → h.stored = some b ∧ h.queued = true

namespace EventWorkers

variable {σ F W : Type} [Storage σ] [BloomFilter F] [DecidableEq W]

/-- The worker goes on with the event. -/
def resume (s : EventWorkers σ F W) (w : W) (r : Reception) : EventWorkers σ F W :=
  { s with receptions := Function.update s.receptions w (some r) }

/-- The worker has handled the event. -/
def finish (s : EventWorkers σ F W) (w : W) (h : HandledReception) : EventWorkers σ F W :=
  { s with receptions := Function.update s.receptions w none, handled := s.handled ++ [h] }

/-- No bundle with the identifier is known. -/
def isNew (s : EventWorkers σ F W) (i : BundleID) : Bool :=
  decide (i ∉ s.known.map MetaBundle.toBundleID)

/-- The worker comes to the next section of the handler. -/
def advance (verify : Bundle → Except BaseRouter.Exn Bundle) (s : EventWorkers σ F W) (w : W)
    (c : Clock) (r : Reception) : EventWorkers σ F W :=
  match r.progress with
  | .taken =>
      let isNew := s.isNew r.bundle.toBundleID
      if r.bundle.destination = EID.null then
        s.finish w ⟨r.bundle, r.fromlocal, isNew, none, false⟩
      else if r.fromlocal then s.resume w { r with progress := .verified r.bundle, isNew }
      else if s.router.isKnown r.bundle.toBundleID then
        s.finish w ⟨r.bundle, r.fromlocal, isNew, none, false⟩
      else s.resume w { r with progress := .unknown, isNew }
  | .unknown =>
      match verify r.bundle with
      | .error _ => s.finish w ⟨r.bundle, r.fromlocal, r.isNew, none, false⟩
      | .ok bundle =>
          let db := s.router.neighborDatabase.addBundle r.peer (.ofBundle c r.bundle)
          { s with router := { s.router with neighborDatabase := db } }.resume w
            { r with progress := .verified bundle }
  | .verified bundle =>
      match Storage.store s.router.storage c bundle with
      | .error _ => s.finish w ⟨r.bundle, r.fromlocal, r.isNew, none, false⟩
      | .ok storage =>
          { s with router := { s.router with storage } }.resume w
            { r with progress := .stored bundle }
  | .stored bundle =>
      let m := MetaBundle.ofBundle c r.bundle
      { s with router := s.router.setKnown m, known := m :: s.known }.resume w
        { r with progress := .known bundle }
  | .known bundle => s.finish w ⟨r.bundle, r.fromlocal, r.isNew, some bundle, true⟩

/-- What the workers and the clock do. -/
def step (verify : Bundle → Except BaseRouter.Exn Bundle) (s : EventWorkers σ F W) :
    WorkerAction W → Option (EventWorkers σ F W)
  | .take w peer bundle fromlocal =>
      match s.receptions w with
      | none => some (s.resume w ⟨peer, bundle, fromlocal, .taken, false⟩)
      | some _ => none
  | .advance w c => (s.receptions w).map (s.advance verify w c)
  | .expireKnown c timestamp => some
      { s with
        router := { s.router with knownBundles := s.router.knownBundles.expire c timestamp }
        known :=
          if c.hasQuality then s.known.filter fun m => decide (timestamp ≤ m.expiretime)
          else s.known }
  | .expirePurged c timestamp => some
      { s with
        router := { s.router with purgedBundles := s.router.purgedBundles.expire c timestamp } }
  | .expireNeighbors c timestamp => some
      { s with
        router :=
          { s.router with neighborDatabase := s.router.neighborDatabase.expire c timestamp } }

/-- The identifier of the bundle for which the action raises a `QueueBundleEvent`. -/
def queues (s : EventWorkers σ F W) : WorkerAction W → Option BundleID
  | .advance w _ =>
      match s.receptions w with
      | some ⟨_, bundle, _, .known _, _⟩ => some bundle.toBundleID
      | _ => none
  | _ => none

/-- Every known bundle has the identifier, or one that all comparisons tell apart from it. -/
def Tells (s : EventWorkers σ F W) (i : BundleID) : Prop :=
  ∀ n ∈ s.known, n.toBundleID = i ∨ n.toBundleID.Apart i

/-- Some worker has passed the question whether the bundle is known. -/
def Busy (s : EventWorkers σ F W) (i : BundleID) : Prop :=
  ∃ w r, s.receptions w = some r ∧ r.Passed ∧ r.bundle.toBundleID = i

/-- **The actions at which identifiers do not meet.** When `isKnown` is asked about a bundle that is
not known, no other worker has passed this question for the same identifier. The known bundles can
be told from it, as they can when the bundle is made known. A bundle of this node is not known yet.
The storage stores what it is given. -/
def Separate (s : EventWorkers σ F W) : WorkerAction W → Prop
  | .advance w c =>
      ∀ r, s.receptions w = some r →
        (r.progress = .taken → s.Tells r.bundle.toBundleID ∧
          (s.isNew r.bundle.toBundleID = true → ¬ s.Busy r.bundle.toBundleID) ∧
            (r.fromlocal = true → s.isNew r.bundle.toBundleID = true)) ∧
        (∀ b, r.progress = .verified b →
          ∃ storage, Storage.store s.router.storage c b = .ok storage) ∧
        ∀ b, r.progress = .stored b → s.Tells r.bundle.toBundleID
  | _ => True

/-! ### The invariant -/

/-- What holds between the actions. -/
structure Inv (verify : Bundle → Except BaseRouter.Exn Bundle) (s : EventWorkers σ F W) : Prop where
  inStep : s.router.knownBundles.list.InStep
  consistent : s.router.knownBundles.Consistent
  perm : s.router.knownBundles.list.metas.Perm s.known
  pending : ∀ w r, s.receptions w = some r → r.Pending →
    r.bundle.toBundleID ∉ s.known.map MetaBundle.toBundleID
  unique : ∀ w r w' r', s.receptions w = some r → s.receptions w' = some r' →
    r.Passed → r'.Passed → r.bundle.toBundleID = r'.bundle.toBundleID → w = w'
  sound : ∀ w r, s.receptions w = some r → r.Sound verify
  handled : ∀ h ∈ s.handled, h.Exact verify

variable {verify : Bundle → Except BaseRouter.Exn Bundle} {s s' : EventWorkers σ F W} {w : W}

omit [Storage σ] [BloomFilter F] in
theorem receptions_resume (r : Reception) (w' : W) : (s.resume w r).receptions w' =
    if w' = w then some r else s.receptions w' :=
  Function.update_apply ..

omit [Storage σ] [BloomFilter F] in
theorem receptions_finish (h : HandledReception) (w' : W) : (s.finish w h).receptions w' =
    if w' = w then none else s.receptions w' :=
  Function.update_apply ..

omit [Storage σ] in
/-- A worker goes on, and the known bundles stay as they are. -/
theorem Inv.resume (h : Inv verify s) {r : Reception}
    (hpending : r.Pending → r.bundle.toBundleID ∉ s.known.map MetaBundle.toBundleID)
    (hunique : r.Passed → ∀ w' r', s.receptions w' = some r' → r'.Passed →
      r'.bundle.toBundleID = r.bundle.toBundleID → w' = w)
    (hsound : r.Sound verify) : Inv verify (s.resume w r) := by
  refine ⟨h.inStep, h.consistent, h.perm, fun w₁ r₁ h₁ hp => ?_,
    fun w₁ r₁ w₂ r₂ h₁ h₂ hp₁ hp₂ hid => ?_, fun w₁ r₁ h₁ => ?_, h.handled⟩
  · rw [receptions_resume] at h₁
    split_ifs at h₁
    · obtain rfl := Option.some.inj h₁
      exact hpending hp
    · exact h.pending w₁ r₁ h₁ hp
  · rw [receptions_resume] at h₁ h₂
    split_ifs at h₁ h₂ with hw₁ hw₂ hw₂
    · rw [hw₁, hw₂]
    · obtain rfl := Option.some.inj h₁
      exact hw₁.trans (hunique hp₁ w₂ r₂ h₂ hp₂ hid.symm).symm
    · obtain rfl := Option.some.inj h₂
      exact (hunique hp₂ w₁ r₁ h₁ hp₁ hid).trans hw₂.symm
    · exact h.unique w₁ r₁ w₂ r₂ h₁ h₂ hp₁ hp₂ hid
  · rw [receptions_resume] at h₁
    split_ifs at h₁
    · obtain rfl := Option.some.inj h₁
      exact hsound
    · exact h.sound w₁ r₁ h₁

omit [Storage σ] in
/-- A worker that has passed the question goes on before the bundle is made known. -/
theorem Inv.resume_of_pending (h : Inv verify s) {r : Reception} (hr : s.receptions w = some r)
    (hp : r.Pending) {p : Progress} (hsound : ({ r with progress := p } : Reception).Sound verify) :
    Inv verify (s.resume w { r with progress := p }) :=
  h.resume (fun _ => h.pending w r hr hp)
    (fun _ w' r' hr' hp' hid => h.unique w' r' w r hr' hr hp' hp.1 hid) hsound

omit [Storage σ] in
/-- A worker has handled an event. -/
theorem Inv.finish (h : Inv verify s) {o : HandledReception} (ho : o.Exact verify) :
    Inv verify (s.finish w o) := by
  have hold {w' : W} {r : Reception} (hr : (s.finish w o).receptions w' = some r) :
      s.receptions w' = some r := by
    rw [receptions_finish] at hr
    split_ifs at hr
    exact hr
  refine ⟨h.inStep, h.consistent, h.perm, fun w' r hr => h.pending w' r (hold hr),
    fun w₁ r₁ w₂ r₂ h₁ h₂ => h.unique w₁ r₁ w₂ r₂ (hold h₁) (hold h₂),
    fun w' r hr => h.sound w' r (hold hr), fun o' ho' => ?_⟩
  rcases List.mem_append.1 ho' with ho' | ho'
  · exact h.handled o' ho'
  · rw [List.mem_singleton.1 ho']
    exact ho

omit [Storage σ] [DecidableEq W] in
/-- **The router knows what was made known and has not expired.** -/
theorem Inv.isKnown_iff (h : Inv verify s) {i : BundleID} (hi : s.Tells i) :
    s.router.isKnown i = true ↔ i ∈ s.known.map MetaBundle.toBundleID := by
  constructor
  · intro hknown
    obtain ⟨m, hm, heq⟩ := List.any_eq_true.1 (Bool.and_eq_true_iff.1 hknown).2
    have hmem := h.perm.mem_iff.1 hm
    rcases hi m hmem with hid | hapart
    · exact List.mem_map.2 ⟨m, hmem, hid⟩
    · rw [hapart.eq_false] at heq
      exact absurd heq Bool.false_ne_true
  · intro hmem
    obtain ⟨m, hm, rfl⟩ := List.mem_map.1 hmem
    exact h.consistent.contains_of_mem (h.perm.mem_iff.2 hm)

section Steps

variable [LawfulBloomFilter F]

omit [Storage σ] in
/-- The bundle of a worker is made known. -/
theorem Inv.setKnown (h : Inv verify s) {r : Reception} (hr : s.receptions w = some r)
    {b : Bundle} (hprogress : r.progress = .stored b) (htells : s.Tells r.bundle.toBundleID)
    (c : Clock) :
    Inv verify (({ s with
      router := s.router.setKnown (.ofBundle c r.bundle)
      known := .ofBundle c r.bundle :: s.known } : EventWorkers σ F W).resume w
        { r with progress := .known b }) := by
  have hpassed : r.Passed := by
    rw [Reception.Passed, hprogress]
    exact nofun
  have hnew : r.bundle.toBundleID ∉ s.known.map MetaBundle.toBundleID :=
    h.pending w r hr ⟨hpassed, by rw [hprogress]; exact fun _ => nofun⟩
  have hapart : ∀ n ∈ s.known, n.toBundleID.Apart r.bundle.toBundleID := fun n hn =>
    (htells n hn).resolve_left fun hid => hnew (List.mem_map.2 ⟨n, hn, hid⟩)
  have hcomparable : ∀ n ∈ s.router.knownBundles.list.metas,
      n.toBundleID.Comparable (MetaBundle.ofBundle c r.bundle).toBundleID := fun n hn =>
    BundleID.comparable_of_apart (hapart n (h.perm.mem_iff.1 hn))
  -- Only the bundle itself is not pending any more, and no other worker has its identifier.
  have hother {w' : W} {r' : Reception} (hr' : s.receptions w' = some r') (hp : r'.Passed)
      (hid : r'.bundle.toBundleID = r.bundle.toBundleID) : w' = w :=
    h.unique w' r' w r hr' hr hp hpassed hid
  refine ⟨h.inStep.add fun hnot => ?_, h.consistent.add _,
    (OrderedSet.perm_insert hcomparable).trans (h.perm.cons _), fun w' r' hr' hp => ?_,
    fun w₁ r₁ w₂ r₂ h₁ h₂ hp₁ hp₂ hid => ?_, fun w' r' hr' => ?_, h.handled⟩
  · obtain ⟨n, hn, hnot⟩ := hnot
    exact absurd (hcomparable n hn) hnot
  · rw [receptions_resume] at hr'
    split_ifs at hr' with hw
    · obtain rfl := Option.some.inj hr'
      exact absurd rfl (hp.2 b)
    · change _ ∉ (MetaBundle.ofBundle c r.bundle :: s.known).map MetaBundle.toBundleID
      rw [List.map_cons, List.mem_cons, not_or]
      exact ⟨fun hid => hw (hother hr' hp.1 hid), h.pending w' r' hr' hp⟩
  · have hold {w' : W} {r' : Reception}
        (hr' : (s.resume w { r with progress := .known b }).receptions w' = some r')
        (hp : r'.Passed) : ∃ r'', s.receptions w' = some r'' ∧ r''.Passed ∧
          r''.bundle.toBundleID = r'.bundle.toBundleID := by
      rw [receptions_resume] at hr'
      split_ifs at hr' with hw
      · obtain rfl := Option.some.inj hr'
        exact ⟨r, hw ▸ hr, hpassed, rfl⟩
      · exact ⟨r', hr', hp, rfl⟩
    obtain ⟨r₁', h₁', hp₁', hid₁⟩ := hold h₁ hp₁
    obtain ⟨r₂', h₂', hp₂', hid₂⟩ := hold h₂ hp₂
    exact h.unique w₁ r₁' w₂ r₂' h₁' h₂' hp₁' hp₂' (hid₁.trans (hid.trans hid₂.symm))
  · rw [receptions_resume] at hr'
    split_ifs at hr' with hw
    · obtain rfl := Option.some.inj hr'
      have hsound := h.sound w r hr
      rw [Reception.Sound, hprogress] at hsound
      exact hsound
    · exact h.sound w' r' hr'

/-- **What a worker does keeps the invariant.** -/
theorem Inv.advance (h : Inv verify s) {r : Reception} (hr : s.receptions w = some r) {c : Clock}
    (hseparate : s.Separate (.advance w c)) : Inv verify (s.advance verify w c r) := by
  obtain ⟨htaken, hstore, hstored⟩ := hseparate r hr
  have hsound := h.sound w r hr
  rw [Reception.Sound] at hsound
  rw [EventWorkers.advance]
  have hpending {p : Progress} (hp : r.progress = p) (htaken : p ≠ .taken)
      (hknown : ∀ b, p ≠ .known b) : r.Pending := by
    rw [Reception.Pending, Reception.Passed, hp]
    exact ⟨htaken, hknown⟩
  cases hprogress : r.progress with
  | taken =>
      obtain ⟨htells, hbusy, hlocal⟩ := htaken hprogress
      have hresume {p : Progress} {isNew : Bool}
          (hnew : r.bundle.toBundleID ∉ s.known.map MetaBundle.toBundleID)
          (hsound : ({ r with progress := p, isNew } : Reception).Sound verify) :
          Inv verify (s.resume w { r with progress := p, isNew }) :=
        h.resume (fun _ => hnew)
          (fun _ w' r' hr' hp hid => absurd ⟨w', r', hr', hp, hid⟩ (hbusy (decide_eq_true hnew)))
          hsound
      dsimp only
      split_ifs with hnull hfrom hknown
      · exact h.finish fun _ hnot => absurd hnull hnot
      · refine hresume (of_decide_eq_true (hlocal hfrom)) ?_
        rw [Reception.Sound]
        exact if_pos hfrom
      · exact h.finish fun hnew => absurd ((h.isKnown_iff htells).1 hknown) (of_decide_eq_true hnew)
      · exact hresume (fun hmem => hknown ((h.isKnown_iff htells).2 hmem))
          (Bool.eq_false_iff.2 hfrom)
  | unknown =>
      rw [hprogress] at hsound
      cases hverify : verify r.bundle with
      | error e =>
          refine h.finish fun _ _ b hb => ?_
          rw [accepted, hsound, if_neg Bool.false_ne_true, hverify] at hb
          cases hb
      | ok bundle =>
          have hdb : Inv verify { s with router := { s.router with
              neighborDatabase := s.router.neighborDatabase.addBundle r.peer
                (.ofBundle c r.bundle) } } :=
            ⟨h.inStep, h.consistent, h.perm, h.pending, h.unique, h.sound, h.handled⟩
          refine hdb.resume_of_pending hr (hpending hprogress nofun nofun) ?_
          rw [Reception.Sound, accepted, hsound, if_neg Bool.false_ne_true, hverify]
  | verified bundle =>
      rw [hprogress] at hsound
      obtain ⟨storage, hok⟩ := hstore bundle hprogress
      simp only [hok]
      have hstorage : Inv verify { s with router := { s.router with storage } } :=
        ⟨h.inStep, h.consistent, h.perm, h.pending, h.unique, h.sound, h.handled⟩
      exact hstorage.resume_of_pending hr (hpending hprogress nofun nofun) hsound
  | stored bundle => exact h.setKnown hr hprogress (hstored bundle hprogress) c
  | known bundle =>
      rw [hprogress] at hsound
      refine h.finish fun _ _ b hb => ⟨?_, rfl⟩
      rw [Except.ok.inj (hb.symm.trans hsound)]

/-- **Every action keeps the invariant.** -/
theorem Inv.step (h : Inv verify s) {a : WorkerAction W} (hseparate : s.Separate a)
    (hstep : s.step verify a = some s') : Inv verify s' := by
  cases a with
  | take w peer bundle fromlocal =>
      rw [EventWorkers.step] at hstep
      split at hstep
      · obtain rfl := Option.some.inj hstep
        exact h.resume (fun hp => absurd rfl hp.1) (fun hp => absurd rfl hp) trivial
      · cases hstep
  | advance w c =>
      obtain ⟨r, hr, rfl⟩ := Option.map_eq_some_iff.1 hstep
      exact h.advance hr hseparate
  | expireKnown c timestamp =>
      obtain rfl := Option.some.inj hstep
      obtain ⟨hin, hmetas⟩ := BundleSummary.expire_list h.inStep c timestamp
      refine ⟨hin, h.consistent.expire c timestamp, ?_, fun w r hr hp => ?_, h.unique, h.sound,
        h.handled⟩
      · change List.Perm (s.router.knownBundles.expire c timestamp).list.metas _
        rw [hmetas]
        split_ifs
        · exact h.perm.filter _
        · exact h.perm
      · intro hmem
        refine h.pending w r hr hp ?_
        dsimp only at hmem
        split_ifs at hmem
        · exact List.map_subset _ (List.filter_subset_self _) hmem
        · exact hmem
  | expirePurged c timestamp =>
      obtain rfl := Option.some.inj hstep
      exact ⟨h.inStep, h.consistent, h.perm, h.pending, h.unique, h.sound, h.handled⟩
  | expireNeighbors c timestamp =>
      obtain rfl := Option.some.inj hstep
      exact ⟨h.inStep, h.consistent, h.perm, h.pending, h.unique, h.sound, h.handled⟩

/-! ### Queueing twice -/

omit [Storage σ] [BloomFilter F] [LawfulBloomFilter F] in
theorem busy_of_resume {r : Reception} {i : BundleID} (h : (s.resume w r).Busy i) :
    s.Busy i ∨ r.Passed ∧ r.bundle.toBundleID = i := by
  obtain ⟨w', r', hr', hp, hid⟩ := h
  rw [receptions_resume] at hr'
  split_ifs at hr'
  · obtain rfl := Option.some.inj hr'
    exact .inr ⟨hp, hid⟩
  · exact .inl ⟨w', r', hr', hp, hid⟩

omit [Storage σ] [BloomFilter F] [LawfulBloomFilter F] in
theorem busy_of_finish {o : HandledReception} {i : BundleID} (h : (s.finish w o).Busy i) :
    s.Busy i := by
  obtain ⟨w', r', hr', hp, hid⟩ := h
  rw [receptions_finish] at hr'
  split_ifs at hr'
  exact ⟨w', r', hr', hp, hid⟩

omit [LawfulBloomFilter F] in
/-- A worker comes to pass the question only if the bundle is not known. -/
theorem Inv.isNew_of_busy (h : Inv verify s) {a : WorkerAction W} (hseparate : s.Separate a)
    (hstep : s.step verify a = some s') {i : BundleID} (hnot : ¬ s.Busy i) (hbusy : s'.Busy i) :
    s.isNew i = true := by
  cases a with
  | take w peer bundle fromlocal =>
      rw [EventWorkers.step] at hstep
      split at hstep
      · obtain rfl := Option.some.inj hstep
        rcases busy_of_resume hbusy with hold | ⟨hp, -⟩
        · exact absurd hold hnot
        · exact absurd rfl hp
      · cases hstep
  | advance w c =>
      obtain ⟨r, hr, rfl⟩ := Option.map_eq_some_iff.1 hstep
      have hpassed (hp : r.progress ≠ .taken) : r.bundle.toBundleID ≠ i := fun hid =>
        hnot ⟨w, r, hr, hp, hid⟩
      rw [EventWorkers.advance] at hbusy
      split at hbusy
      · rename_i hprogress
        obtain ⟨htells, -, hlocal⟩ := (hseparate r hr).1 hprogress
        dsimp only at hbusy
        split_ifs at hbusy with hnull hfrom hknown
        · exact absurd (busy_of_finish hbusy) hnot
        · obtain ⟨-, rfl⟩ := (busy_of_resume hbusy).resolve_left hnot
          exact hlocal hfrom
        · exact absurd (busy_of_finish hbusy) hnot
        · obtain ⟨-, rfl⟩ := (busy_of_resume hbusy).resolve_left hnot
          exact decide_eq_true fun hmem => hknown ((h.isKnown_iff htells).2 hmem)
      · rename_i hprogress
        split at hbusy
        · exact absurd (busy_of_finish hbusy) hnot
        · exact absurd ((busy_of_resume hbusy).resolve_left hnot).2
            (hpassed (by rw [hprogress]; exact nofun))
      · rename_i b hprogress
        split at hbusy
        · exact absurd (busy_of_finish hbusy) hnot
        · exact absurd ((busy_of_resume hbusy).resolve_left hnot).2
            (hpassed (by rw [hprogress]; exact nofun))
      · rename_i b hprogress
        exact absurd ((busy_of_resume hbusy).resolve_left hnot).2
          (hpassed (by rw [hprogress]; exact nofun))
      · exact absurd (busy_of_finish hbusy) hnot
  | expireKnown | expirePurged | expireNeighbors =>
      obtain rfl := Option.some.inj hstep
      exact absurd hbusy hnot

omit [Storage σ] [BloomFilter F] [LawfulBloomFilter F] [DecidableEq W] in
theorem exists_of_queues {a : WorkerAction W} {i : BundleID} (h : s.queues a = some i) :
    ∃ w c r b, a = .advance w c ∧ s.receptions w = some r ∧ r.progress = .known b ∧
      r.bundle.toBundleID = i := by
  cases a with
  | advance w c =>
      rw [queues] at h
      split at h
      · rename_i _ _ bundle _ b _ hr
        exact ⟨w, c, _, b, rfl, hr, rfl, Option.some.inj h⟩
      · cases h
  | take | expireKnown | expirePurged | expireNeighbors => cases h

/-- The runs whose identifiers do not meet. -/
abbrev SeparateRun (verify : Bundle → Except BaseRouter.Exn Bundle) (s : EventWorkers σ F W)
    (as : List (WorkerAction W)) (s' : EventWorkers σ F W) : Prop :=
  Run (fun s a s' => s.step verify a = some s') Separate s as s'

theorem Inv.run {as : List (WorkerAction W)} (h : Inv verify s)
    (hrun : SeparateRun verify s as s') : Inv verify s' :=
  hrun.invariant h fun _ _ _ h => h.step

/-- **A worker passes the question on the way only where the bundle is not known.** -/
theorem Inv.exists_isNew_of_run {as : List (WorkerAction W)} (h : Inv verify s)
    (hrun : SeparateRun verify s as s') {i : BundleID} (hnot : ¬ s.Busy i) (hbusy : s'.Busy i) :
    ∃ bs cs t, as = bs ++ cs ∧ SeparateRun verify s bs t ∧ SeparateRun verify t cs s' ∧
      t.isNew i = true := by
  induction hrun with
  | nil => exact absurd hbusy hnot
  | @snoc as s₁ s₂ a hrun hmeets hstep ih =>
      by_cases hbefore : s₁.Busy i
      · obtain ⟨bs, cs, t, rfl, hbs, hcs, hnew⟩ := ih hbefore
        exact ⟨bs, cs ++ [a], t, List.append_assoc .., hbs, hcs.snoc hmeets hstep, hnew⟩
      · exact ⟨as, [a], s₁, rfl, hrun, Run.nil.snoc (i := a) hmeets hstep,
          (h.run hrun).isNew_of_busy hmeets hstep hbefore hbusy⟩

/-- **A bundle is queued again only if it was not known in between.** -/
theorem Inv.isNew_between (h : Inv verify s) {a b : WorkerAction W} {as : List (WorkerAction W)}
    {s₁ s₂ : EventWorkers σ F W} {i : BundleID} (hqueues : s.queues a = some i)
    (hseparate : s.Separate a) (hstep : s.step verify a = some s₁)
    (hrun : SeparateRun verify s₁ as s₂) (hagain : s₂.queues b = some i) :
    ∃ bs cs t, as = bs ++ cs ∧ SeparateRun verify s₁ bs t ∧ SeparateRun verify t cs s₂ ∧
      t.isNew i = true := by
  refine (h.step hseparate hstep).exists_isNew_of_run hrun ?_ ?_
  · obtain ⟨w, c, r, bundle, rfl, hr, hprogress, hid⟩ := exists_of_queues hqueues
    have hpassed : r.Passed := by
      rw [Reception.Passed, hprogress]
      exact nofun
    rw [EventWorkers.step, hr, Option.map_some, EventWorkers.advance, hprogress] at hstep
    obtain rfl := Option.some.inj hstep
    rintro ⟨w', r', hr', hp, hid'⟩
    rw [receptions_finish] at hr'
    split_ifs at hr' with hw
    exact hw (h.unique w' r' w r hr' hr hp hpassed (hid'.trans hid.symm))
  · obtain ⟨w, c, r, bundle, -, hr, hprogress, hid⟩ := exists_of_queues hagain
    exact ⟨w, r, hr, by rw [Reception.Passed, hprogress]; exact nofun, hid⟩

end Steps

/-! ### What was stored and queued -/

/-- **The storage has taken the bundle**: in the run, the worker came to the storage with an event
about `b₀`, and the storage stored what the checks had left of it. -/
def StoredBy (verify : Bundle → Except BaseRouter.Exn Bundle) (s₀ : EventWorkers σ F W)
    (as : List (WorkerAction W)) (w : W) (b₀ b : Bundle) (s : EventWorkers σ F W) : Prop :=
  ∃ bs c cs t t' r, as = bs ++ .advance w c :: cs ∧ SeparateRun verify s₀ bs t ∧
    (t.receptions w = some r ∧ r.bundle = b₀) ∧ t.step verify (.advance w c) = some t' ∧
      Storage.store t.router.storage c b = .ok t'.router.storage ∧ SeparateRun verify t' cs s

/-- **The bundle of the event was stored and queued**: in the run, the worker that stored it raised a
`QueueBundleEvent` later, and has handled the event by that. -/
def Routed (verify : Bundle → Except BaseRouter.Exn Bundle) (s₀ : EventWorkers σ F W)
    (as : List (WorkerAction W)) (h : HandledReception) (b : Bundle) : Prop :=
  ∃ bs w c cs u u', as = bs ++ .advance w c :: cs ∧ StoredBy verify s₀ bs w h.bundle b u ∧
    u.queues (.advance w c) = some h.bundle.toBundleID ∧
      u.step verify (.advance w c) = some u' ∧ u'.handled = u.handled ++ [h]

theorem StoredBy.snoc {s₀ : EventWorkers σ F W} {as : List (WorkerAction W)} {b₀ b : Bundle}
    (h : StoredBy verify s₀ as w b₀ b s) {a : WorkerAction W} (hseparate : s.Separate a)
    (hstep : s.step verify a = some s') : StoredBy verify s₀ (as ++ [a]) w b₀ b s' := by
  obtain ⟨bs, c, cs, t, t', r, rfl, hbs, hr, ht, hstore, hcs⟩ := h
  exact ⟨bs, c, cs ++ [a], t, t', r, by rw [List.append_assoc, List.cons_append], hbs, hr, ht,
    hstore, hcs.snoc hseparate hstep⟩

theorem Routed.snoc {s₀ : EventWorkers σ F W} {as : List (WorkerAction W)} {h : HandledReception}
    {b : Bundle} (hrouted : Routed verify s₀ as h b) (a : WorkerAction W) :
    Routed verify s₀ (as ++ [a]) h b := by
  obtain ⟨bs, w, c, cs, u, u', rfl, hrest⟩ := hrouted
  exact ⟨bs, w, c, cs ++ [a], u, u', by rw [List.append_assoc, List.cons_append], hrest⟩

/-- **A worker has stored a bundle** since before, or the storage takes it now. -/
theorem hasStored_of_step {a : WorkerAction W} (hstep : s.step verify a = some s') {r : Reception}
    (hr : s'.receptions w = some r) {b : Bundle} (hb : r.HasStored b) :
    (∃ r₀, s.receptions w = some r₀ ∧ r₀.bundle = r.bundle ∧ r₀.HasStored b) ∨
      ∃ c r₀, a = .advance w c ∧ s.receptions w = some r₀ ∧ r₀.bundle = r.bundle ∧
        Storage.store s.router.storage c b = .ok s'.router.storage := by
  have hother {t : EventWorkers σ F W} {w' : W} {q : Reception} (ht : t.receptions = s.receptions)
      (hq : (t.resume w' q).receptions w = some r) : w = w' ∧ q = r ∨ s.receptions w = some r := by
    rw [receptions_resume] at hq
    split_ifs at hq with hw
    · exact .inl ⟨hw, Option.some.inj hq⟩
    · exact .inr (ht ▸ hq)
  have hfinish {w' : W} {h : HandledReception} (hq : (s.finish w' h).receptions w = some r) :
      s.receptions w = some r := by
    rw [receptions_finish] at hq
    split_ifs at hq
    exact hq
  cases a with
  | take w' peer bundle fromlocal =>
      rw [EventWorkers.step] at hstep
      split at hstep
      · obtain rfl := Option.some.inj hstep
        rcases hother rfl hr with ⟨-, rfl⟩ | hr
        · rcases hb with hb | hb <;> cases hb
        · exact .inl ⟨r, hr, rfl, hb⟩
      · cases hstep
  | advance w' c =>
      obtain ⟨q, hq, rfl⟩ := Option.map_eq_some_iff.1 hstep
      rw [EventWorkers.advance] at hr
      split at hr
      · dsimp only at hr
        split_ifs at hr
        · exact .inl ⟨r, hfinish hr, rfl, hb⟩
        · rcases hother rfl hr with ⟨-, rfl⟩ | hr
          · rcases hb with hb | hb <;> cases hb
          · exact .inl ⟨r, hr, rfl, hb⟩
        · exact .inl ⟨r, hfinish hr, rfl, hb⟩
        · rcases hother rfl hr with ⟨-, rfl⟩ | hr
          · rcases hb with hb | hb <;> cases hb
          · exact .inl ⟨r, hr, rfl, hb⟩
      · split at hr
        · exact .inl ⟨r, hfinish hr, rfl, hb⟩
        · rcases hother rfl hr with ⟨-, rfl⟩ | hr
          · rcases hb with hb | hb <;> cases hb
          · exact .inl ⟨r, hr, rfl, hb⟩
      · rename_i bundle hprogress
        split at hr
        · exact .inl ⟨r, hfinish hr, rfl, hb⟩
        · rename_i storage hstore
          rcases hother rfl hr with ⟨rfl, rfl⟩ | hr
          · obtain rfl : bundle = b := by
              rcases hb with hb | hb
              · exact Progress.stored.inj hb
              · cases hb
            refine .inr ⟨c, q, rfl, hq, rfl, ?_⟩
            simp only [EventWorkers.advance, hprogress, hstore]
            rfl
          · exact .inl ⟨r, hr, rfl, hb⟩
      · rename_i bundle hprogress
        rcases hother rfl hr with ⟨rfl, rfl⟩ | hr
        · obtain rfl : bundle = b := by
            rcases hb with hb | hb
            · cases hb
            · exact Progress.known.inj hb
          exact .inl ⟨q, hq, rfl, .inl hprogress⟩
        · exact .inl ⟨r, hr, rfl, hb⟩
      · exact .inl ⟨r, hfinish hr, rfl, hb⟩
  | expireKnown | expirePurged | expireNeighbors =>
      obtain rfl := Option.some.inj hstep
      exact .inl ⟨r, hr, rfl, hb⟩

/-- **An event about a bundle that was stored** is handled since before, or its worker queues the
bundle now. -/
theorem handled_of_step {a : WorkerAction W} (hstep : s.step verify a = some s')
    {h : HandledReception} (hh : h ∈ s'.handled) {b : Bundle} (hb : h.stored = some b) :
    h ∈ s.handled ∨ ∃ w c r, a = .advance w c ∧ s.receptions w = some r ∧ r.bundle = h.bundle ∧
      r.progress = .known b ∧ s'.handled = s.handled ++ [h] := by
  have hfinish {w : W} {o : HandledReception} (hh : h ∈ (s.finish w o).handled) :
      h ∈ s.handled ∨ h = o := by
    rcases List.mem_append.1 hh with hh | hh
    · exact .inl hh
    · exact .inr (List.mem_singleton.1 hh)
  have hdropped {w : W} {o : HandledReception} (ho : o.stored = none)
      (hh : h ∈ (s.finish w o).handled) : h ∈ s.handled := by
    refine (hfinish hh).resolve_right ?_
    rintro rfl
    exact Option.some_ne_none b (hb.symm.trans ho)
  cases a with
  | take w peer bundle fromlocal =>
      rw [EventWorkers.step] at hstep
      split at hstep
      · obtain rfl := Option.some.inj hstep
        exact .inl hh
      · cases hstep
  | advance w c =>
      obtain ⟨q, hq, rfl⟩ := Option.map_eq_some_iff.1 hstep
      rw [EventWorkers.advance] at hh
      split at hh
      · dsimp only at hh
        split_ifs at hh
        · exact .inl (hdropped rfl hh)
        · exact .inl hh
        · exact .inl (hdropped rfl hh)
        · exact .inl hh
      · split at hh
        · exact .inl (hdropped rfl hh)
        · exact .inl hh
      · split at hh
        · exact .inl (hdropped rfl hh)
        · exact .inl hh
      · exact .inl hh
      · rename_i bundle hprogress
        rcases hfinish hh with hh | rfl
        · exact .inl hh
        · obtain rfl := Option.some.inj hb
          refine .inr ⟨w, c, q, rfl, hq, rfl, hprogress, ?_⟩
          rw [EventWorkers.advance, hprogress]
          rfl
  | expireKnown | expirePurged | expireNeighbors =>
      obtain rfl := Option.some.inj hstep
      exact .inl hh

/-- **What the workers say to have stored, the storage has taken.** -/
theorem stored_of_run {s₀ : EventWorkers σ F W} (hnone : ∀ w, s₀.receptions w = none)
    (hhandled : s₀.handled = []) {as : List (WorkerAction W)} (hrun : SeparateRun verify s₀ as s) :
    (∀ w r b, s.receptions w = some r → r.HasStored b → StoredBy verify s₀ as w r.bundle b s) ∧
      ∀ h ∈ s.handled, ∀ b, h.stored = some b → Routed verify s₀ as h b := by
  induction hrun with
  | nil =>
      refine ⟨fun w r b hr => absurd (hr.symm.trans (hnone w)) (Option.some_ne_none r), ?_⟩
      rw [hhandled]
      exact fun h hh => absurd hh List.not_mem_nil
  | @snoc as s s' a hrun hseparate hstep ih =>
      obtain ⟨hworkers, hpast⟩ := ih
      refine ⟨fun w r b hr hb => ?_, fun h hh b hb => ?_⟩
      · rcases hasStored_of_step hstep hr hb with ⟨r₀, hr₀, hid, hb₀⟩ | ⟨c, r₀, rfl, hr₀, hid, hstore⟩
        · exact hid ▸ (hworkers w r₀ b hr₀ hb₀).snoc hseparate hstep
        · exact ⟨as, c, [], s, s', r₀, rfl, hrun, ⟨hr₀, hid⟩, hstep, hstore, .nil⟩
      · rcases handled_of_step hstep hh hb with hh | ⟨w, c, r, rfl, hr, hbundle, hprogress, hnew⟩
        · exact (hpast h hh b hb).snoc a
        · refine ⟨as, w, c, [], s, s', rfl, ?_, ?_, hstep, hnew⟩
          · exact hbundle ▸ hworkers w r b hr (.inr hprogress)
          · rw [queues, hr]
            obtain ⟨peer, bundle, fromlocal, progress, isNew⟩ := r
            obtain rfl : progress = .known b := hprogress
            obtain rfl : bundle = h.bundle := hbundle
            rfl

/-! ### Workers come to an end -/

/-- **A worker always comes to the next section**, until it has handled the event. -/
theorem exists_advance {r : Reception} (hr : s.receptions w = some r) (c : Clock) :
    ∃ s', s.step verify (.advance w c) = some s' ∧
      ∀ r', s'.receptions w = some r' → r'.progress.left < r.progress.left := by
  refine ⟨s.advance verify w c r, by rw [step, hr, Option.map_some], fun r' hr' => ?_⟩
  have hfinish {s : EventWorkers σ F W} {h : HandledReception}
      (hr' : (s.finish w h).receptions w = some r') : r'.progress.left < r.progress.left := by
    rw [receptions_finish, if_pos rfl] at hr'
    cases hr'
  have hresume {s : EventWorkers σ F W} {q : Reception}
      (hr' : (s.resume w q).receptions w = some r') : q = r' := by
    rw [receptions_resume, if_pos rfl] at hr'
    exact Option.some.inj hr'
  rw [advance] at hr'
  split at hr'
  · rename_i hprogress
    dsimp only at hr'
    split_ifs at hr'
    · exact hfinish hr'
    · rw [← hresume hr', hprogress]
      exact Nat.lt_add_of_pos_right (k := 2) Nat.two_pos
    · exact hfinish hr'
    · rw [← hresume hr', hprogress]
      exact Nat.lt_succ_self 4
  · rename_i hprogress
    split at hr'
    · exact hfinish hr'
    · rw [← hresume hr', hprogress]
      exact Nat.lt_succ_self 3
  · rename_i hprogress
    split at hr'
    · exact hfinish hr'
    · rw [← hresume hr', hprogress]
      exact Nat.lt_succ_self 2
  · rename_i hprogress
    rw [← hresume hr', hprogress]
    exact Nat.lt_succ_self 1
  · exact hfinish hr'

/-- With `k` more sections, the worker has done with the router what the handler does. -/
def Does (verify : Bundle → Except BaseRouter.Exn Bundle) (w : W) (c : Clock)
    (s : EventWorkers σ F W) (o : RouterOutcome σ F) : Prop :=
  ∃ k s' h, (List.replicate k (WorkerAction.advance w c)).foldlM (step verify) s = some s' ∧
    s'.router = o.router ∧ s'.handled = s.handled ++ [h] ∧ (h.queued = true ↔ o.queued ≠ [])

theorem Does.of_resume {c : Clock} {r : Reception} (hr : s.receptions w = some r)
    {t : EventWorkers σ F W} {q : Reception} (hadvance : s.advance verify w c r = t.resume w q)
    (hhandled : t.handled = s.handled) {o : RouterOutcome σ F}
    (h : Does verify w c (t.resume w q) o) : Does verify w c s o := by
  obtain ⟨k, s', h, hfold, hrouter, hs', hqueued⟩ := h
  refine ⟨k + 1, s', h, ?_, hrouter, hs'.trans ?_, hqueued⟩
  · rw [List.replicate_succ, List.foldlM_cons, step, hr, Option.map_some, hadvance]
    exact hfold
  · exact congrArg (· ++ [h]) hhandled

theorem Does.of_finish {c : Clock} {r : Reception} (hr : s.receptions w = some r)
    {h : HandledReception} (hadvance : s.advance verify w c r = s.finish w h)
    {o : RouterOutcome σ F} (hrouter : s.router = o.router)
    (hqueued : h.queued = true ↔ o.queued ≠ []) : Does verify w c s o := by
  refine ⟨1, s.finish w h, h, ?_, hrouter, rfl, hqueued⟩
  rw [List.replicate_one, List.foldlM_cons, step, hr, Option.map_some, hadvance]
  rfl

omit [Storage σ] [BloomFilter F] in
theorem resume_self (r : Reception) : (s.resume w r).receptions w = some r := by
  rw [receptions_resume, if_pos rfl]

theorem does_setKnown {r : Reception} (hr : s.receptions w = some r) {b : Bundle}
    (hprogress : r.progress = .stored b) (c : Clock) :
    Does verify w c s ⟨s.router.setKnown (.ofBundle c r.bundle), [(.ofBundle c r.bundle, r.peer)],
      none⟩ := by
  have hadvance : s.advance verify w c r = ({ s with
      router := s.router.setKnown (.ofBundle c r.bundle)
      known := .ofBundle c r.bundle :: s.known } : EventWorkers σ F W).resume w
        { r with progress := .known b } := by
    rw [advance, hprogress]
  exact .of_resume hr hadvance rfl <| .of_finish (resume_self _) rfl rfl <|
    iff_of_true rfl (List.cons_ne_nil _ _)

/-- A bundle that was checked is stored, known and queued, unless the storage refuses it. -/
theorem does_storeBundle {r : Reception} (hr : s.receptions w = some r) {b : Bundle}
    (hprogress : r.progress = .verified b) (c : Clock) :
    Does verify w c s (s.router.storeBundle c r.peer b r.bundle) := by
  cases hstore : Storage.store s.router.storage c b with
  | error e =>
      have hout : (s.router.storeBundle c r.peer b r.bundle).router = s.router ∧
          (s.router.storeBundle c r.peer b r.bundle).queued = [] := by
        rw [BaseRouter.storeBundle, hstore]
        split
        · exact ⟨rfl, rfl⟩
        · exact ⟨rfl, rfl⟩
        · exact ⟨rfl, rfl⟩
        · contradiction
      refine .of_finish (h := ⟨r.bundle, r.fromlocal, r.isNew, none, false⟩) hr ?_ hout.1.symm ?_
      · rw [advance, hprogress]
        simp only [hstore]
      · rw [hout.2]
        exact iff_of_false Bool.false_ne_true (absurd rfl)
  | ok storage =>
      have hadvance : s.advance verify w c r =
          ({ s with router := { s.router with storage } } : EventWorkers σ F W).resume w
            { r with progress := .stored b } := by
        rw [advance, hprogress]
        simp only [hstore]
      rw [BaseRouter.storeBundle, hstore]
      exact .of_resume hr hadvance rfl (does_setKnown (resume_self _) rfl c)

/-- **A worker that is not interrupted** does what `raiseBundleReceived` does. -/
theorem does_raiseBundleReceived {r : Reception} (hr : s.receptions w = some r)
    (hprogress : r.progress = .taken) (c : Clock) (localEID : EID) : Does verify w c s
      (s.router.raiseBundleReceived ⟨c, localEID, verify⟩ r.peer r.bundle r.fromlocal) := by
  have hnothing {o : RouterOutcome σ F} {h : HandledReception} (hh : h.queued = false)
      (ho : o.queued = []) : h.queued = true ↔ o.queued ≠ [] := by
    rw [hh, ho]
    exact iff_of_false Bool.false_ne_true (absurd rfl)
  have hadvance := advance.eq_def verify s w c r
  rw [hprogress] at hadvance
  rw [BaseRouter.raiseBundleReceived]
  dsimp only at hadvance
  split_ifs with hnull hfrom hknown
  · exact .of_finish hr (hadvance.trans (if_pos hnull)) rfl (hnothing rfl rfl)
  · rw [if_neg hnull, if_pos hfrom] at hadvance
    exact .of_resume hr hadvance rfl (does_storeBundle (resume_self _) rfl c)
  · rw [if_neg hnull, if_neg hfrom, if_pos hknown] at hadvance
    exact .of_finish hr hadvance rfl (hnothing rfl rfl)
  · rw [if_neg hnull, if_neg hfrom, if_neg hknown] at hadvance
    refine .of_resume hr hadvance rfl ?_
    have hunknown := advance.eq_def verify (s.resume w { r with
      progress := .unknown, isNew := s.isNew r.bundle.toBundleID }) w c { r with
      progress := .unknown, isNew := s.isNew r.bundle.toBundleID }
    cases hverify : verify r.bundle with
    | error e =>
        simp only [hverify] at hunknown
        refine .of_finish (resume_self _) hunknown ?_ (hnothing rfl ?_) <;>
          cases e <;> simp only [hverify, EventWorkers.resume]
    | ok bundle =>
        simp only [hverify] at hunknown ⊢
        exact .of_resume (resume_self _) hunknown rfl (does_storeBundle (resume_self _) rfl c)

section Run

variable [LawfulBloomFilter F]

/-- The workers, when none of them has an event. -/
def start (r : BaseRouter σ F) : EventWorkers σ F W :=
  ⟨r, fun _ => none, r.knownBundles.list.metas, []⟩

omit [Storage σ] [DecidableEq W] [LawfulBloomFilter F] in
theorem inv_start {r : BaseRouter σ F} (hin : r.knownBundles.list.InStep)
    (hconsistent : r.knownBundles.Consistent) : Inv verify (start r : EventWorkers σ F W) := by
  have hnone {w : W} {q : Reception} : (start r : EventWorkers σ F W).receptions w ≠ some q :=
    (Option.some_ne_none q).symm
  exact ⟨hin, hconsistent, .refl _, fun _ _ h => absurd h hnone, fun _ _ _ _ h => absurd h hnone,
    fun _ _ h => absurd h hnone, fun _ h => absurd h List.not_mem_nil⟩

/-- **Duplicates are suppressed exactly** as long as identifiers do not meet. For a new bundle for a
real endpoint that passes the checks, the storage has taken it and it was queued; a bundle is queued
again only if it was not known in between; and no worker is stuck. -/
theorem exact_run {r : BaseRouter σ F} (hin : r.knownBundles.list.InStep)
    (hconsistent : r.knownBundles.Consistent) {as : List (WorkerAction W)}
    {s : EventWorkers σ F W} (hrun : SeparateRun verify (start r) as s) :
    (∀ h ∈ s.handled, h.isNew = true → h.bundle.destination ≠ EID.null →
      ∀ b, accepted verify h.fromlocal h.bundle = .ok b → Routed verify (start r) as h b) ∧
    (∀ a s₁ bs s₂ b i, s.queues a = some i → s.Separate a → s.step verify a = some s₁ →
      SeparateRun verify s₁ bs s₂ → s₂.queues b = some i →
        ∃ cs ds t, bs = cs ++ ds ∧ SeparateRun verify s₁ cs t ∧ SeparateRun verify t ds s₂ ∧
          t.isNew i = true) ∧
    ∀ w r c, s.receptions w = some r → ∃ s', s.step verify (.advance w c) = some s' ∧
      ∀ r', s'.receptions w = some r' → r'.progress.left < r.progress.left := by
  have h := (inv_start hin hconsistent).run hrun
  have hstored := (stored_of_run (fun _ => rfl) rfl hrun).2
  exact ⟨fun o ho hnew hdestination b hb => hstored o ho b (h.handled o ho hnew hdestination b hb).1,
    fun _ _ _ _ _ _ hq hseparate hstep hrun hagain =>
      h.isNew_between hq hseparate hstep hrun hagain,
    fun _ _ c hr => exists_advance hr c⟩

end Run

/-! ### Two workers meet -/

/-- A router that knows nothing. -/
def sampleRouter : BaseRouter MemoryBundleStorage CellFilter where
  knownBundles := .create
  purgedBundles := .create
  storage := .create 0
  extensions := RoutingExtension.defaultRouting.extensions
  neighborDatabase := ⟨[]⟩

/-- The node `dtn://b`. -/
def samplePeer : EID := ⟨EID.defaultScheme, ascii ['/', '/', 'b']⟩

/-- A bundle to `dtn:none`. -/
def sampleBundle : Bundle := Bundle.create 1 1

/-- A worker takes an event, and comes to `k` sections of the handler. -/
def handle {W : Type} (w : W) (b : Bundle) (k : ℕ) : List (WorkerAction W) :=
  .take w samplePeer b false :: List.replicate k (.advance w (.showing 0))

/-- What the workers have done, when all checks pass. -/
def after {W : Type} [DecidableEq W] (as : List (WorkerAction W)) :
    Option (EventWorkers MemoryBundleStorage CellFilter W) :=
  as.foldlM (step .ok) (start sampleRouter)

/-- The only worker, which is not disturbed. -/
theorem separate_of_receptions {s : EventWorkers MemoryBundleStorage CellFilter Unit}
    {r : Reception} (hr : s.receptions () = some r) (hlocal : r.fromlocal = false)
    (hknown : (∀ b, r.progress ≠ .known b) → s.known = [])
    (hstore : ∀ b, r.progress = .verified b →
      (Storage.store s.router.storage (.showing 0) b).toBool = true) :
    s.Separate (.advance () (.showing 0)) := by
  intro r' hr'
  obtain rfl := Option.some.inj (hr.symm.trans hr')
  refine ⟨fun htaken => ⟨?_, fun _ => ?_, fun h => ?_⟩, fun b hb => ?_, fun b hb => ?_⟩
  · rw [Tells, hknown (by rw [htaken]; exact fun _ => nofun)]
    exact fun n hn => absurd hn List.not_mem_nil
  · rintro ⟨w, r', hr', hp, -⟩
    obtain rfl := Option.some.inj (hr.symm.trans hr')
    exact hp htaken
  · exact absurd (hlocal.symm.trans h) Bool.false_ne_true
  · have hok := hstore b hb
    cases hresult : Storage.store s.router.storage (.showing 0) b with
    | ok storage => exact ⟨storage, rfl⟩
    | error e =>
        rw [hresult] at hok
        exact absurd hok Bool.false_ne_true
  · rw [Tells, hknown (by rw [hb]; exact fun _ => nofun)]
    exact fun n hn => absurd hn List.not_mem_nil

/-- The only worker comes to the next section. -/
theorem separateRun_advance {as : List (WorkerAction Unit)}
    {s : EventWorkers MemoryBundleStorage CellFilter Unit}
    (hrun : SeparateRun .ok (start sampleRouter) as s) {r : Reception}
    (hr : s.receptions () = some r) (hlocal : r.fromlocal = false)
    (hknown : (∀ b, r.progress ≠ .known b) → s.known = [])
    (hstore : ∀ b, r.progress = .verified b →
      (Storage.store s.router.storage (.showing 0) b).toBool = true) :
    SeparateRun .ok (start sampleRouter) (as ++ [.advance () (.showing 0)])
      (s.advance .ok () (.showing 0) r) :=
  hrun.snoc (separate_of_receptions hr hlocal hknown hstore) (congrArg (Option.map _) hr)

/-- The event about the bundle. -/
def sampleReception (progress : Progress) (isNew : Bool) : Reception :=
  ⟨samplePeer, sampleBundle, false, progress, isNew⟩

theorem exact_run_sample : ∃ s h, s.handled = [h] ∧
    SeparateRun .ok (start sampleRouter) (handle () sampleBundle 5) s ∧
      Routed .ok (start sampleRouter) (handle () sampleBundle 5) h sampleBundle := by
  have htaken : SeparateRun .ok (start sampleRouter : EventWorkers _ _ Unit)
      [.take () samplePeer sampleBundle false]
      ((start sampleRouter).resume () (sampleReception .taken false)) :=
    Run.nil.snoc (i := WorkerAction.take ..) trivial rfl
  have hasked := separateRun_advance htaken (r := sampleReception .taken false) rfl rfl
    (fun _ => rfl) nofun
  have hverified := separateRun_advance hasked (r := sampleReception .unknown true)
    (by decide +kernel) rfl (fun _ => by decide +kernel) nofun
  have hstored := separateRun_advance hverified
    (r := sampleReception (.verified sampleBundle) true) (by decide +kernel) rfl
    (fun _ => by decide +kernel) fun b hb => by
      obtain rfl := Progress.verified.inj hb
      decide +kernel
  have hknown := separateRun_advance hstored (r := sampleReception (.stored sampleBundle) true)
    (by decide +kernel) rfl (fun _ => by decide +kernel) nofun
  have hqueued := separateRun_advance hknown (r := sampleReception (.known sampleBundle) true)
    (by decide +kernel) rfl (fun h => absurd rfl (h _)) nofun
  refine ⟨_, ⟨sampleBundle, false, true, some sampleBundle, true⟩, by decide +kernel, hqueued, ?_⟩
  exact (exact_run BundleList.inStep_empty BundleSummary.consistent_create hqueued).1 _
    (by decide +kernel) rfl (by decide) _ rfl

/-- Two workers have taken the same bundle, and both have asked whether it is known before one of
them made it known. -/
def race : List (WorkerAction Bool) :=
  handle true sampleBundle 1 ++ handle false sampleBundle 1 ++
    List.replicate 3 (.advance true (.showing 0)) ++ List.replicate 3 (.advance false (.showing 0))

/-- A fragment of the bundle. -/
def sampleFragment : Bundle :=
  { sampleBundle with procflags := PrimaryBlock.fragment, fragmentoffset := 10 }

/-- One worker has made the bundle known when its entry expires, and another one takes the same bundle
before the first one is done. -/
def overtaken : List (WorkerAction Bool) :=
  handle true sampleBundle 4 ++ [.expireKnown (.showing 0) 9999] ++ handle false sampleBundle 4

/-- **A bundle to the null endpoint is dropped; a bundle that two workers have is queued by both**
while it is known, also when it had expired before the second one took it; and a bundle is queued
again and again after one of its fragments. -/
theorem not_exact_run :
    (after (handle () { sampleBundle with destination := EID.null } 1)).map (fun s =>
      s.handled.map fun h => (h.isNew, h.fromlocal, h.stored.isSome, h.queued)) =
        some [(true, false, false, false)] ∧
    (after race).map (fun s => (s.queues (.advance true (.showing 0)),
      s.isNew sampleBundle.toBundleID)) = some (some sampleBundle.toBundleID, false) ∧
    (after (race ++ [.advance true (.showing 0)])).map (fun s =>
      (s.queues (.advance false (.showing 0)), s.isNew sampleBundle.toBundleID)) =
        some (some sampleBundle.toBundleID, false) ∧
    (after overtaken).map (fun s => (s.queues (.advance true (.showing 0)),
      s.queues (.advance false (.showing 0)), s.isNew sampleBundle.toBundleID)) =
        some (some sampleBundle.toBundleID, some sampleBundle.toBundleID, false) ∧
    (after (handle () sampleFragment 5 ++ handle () sampleBundle 5 ++
      handle () sampleBundle 5)).map (fun s => s.handled.map fun h => (h.isNew, h.queued)) =
        some [(true, true), (true, true), (false, true)] := by
  refine ⟨?_, ?_, ?_, ?_, ?_⟩ <;> decide +kernel

end EventWorkers

end IbrDtn
