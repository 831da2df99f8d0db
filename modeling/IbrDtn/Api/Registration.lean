import IbrDtn.Core.SQLiteFilters

/-!
# Registrations

This file models `daemon/src/api/Registration.cpp`: a client subscribes to endpoints, receives
bundles, and waits when there is none.  Bundles are stored and announced meanwhile.  The parts of
`receive`, and the two of `subscribe`, are under different locks, so that other threads come in
between them.  `receive` makes its filter with a copy of the endpoints, searches the storage, and
sets a flag if nothing was found; announcements clear the flag.

## Main definitions

* `Registration` : the members of a registration, the storage, and where the threads are.
* `Registration.step` : the steps of the threads.
* `Registration.Moves` : the same as a relation, for case distinctions.

## Main results

* `Registration.moves_of_step` : what a step does.
-/

namespace IbrDtn

namespace Registration

/-- Where the thread in `receive` is: nowhere; in front of the queue; with a bundle from the queue;
behind the construction of the filter, with the endpoints of the filter; and behind a search that
found nothing. -/
inductive Receiving where
  | idle
  | looping
  | loading (m : MetaBundle)
  | copied (endpoints : List EID)
  | nothing (endpoints : List EID)
deriving DecidableEq

/-- The thread holds `_endpoints_lock`. -/
def Receiving.locks : Receiving → Bool
  | .nothing _ => true
  | _ => false

/-- The bundle that is on its way to the client. -/
def Receiving.toLoad : Receiving → List MetaBundle
  | .loading m => [m]
  | _ => []

/-- The endpoints of the filter. -/
def Receiving.filtered? : Receiving → Option (List EID)
  | .copied endpoints | .nothing endpoints => some endpoints
  | _ => none

end Registration

open Registration in
/-- `class Registration`: `_endpoints`, `_received_bundles`, `_queue` and `_no_more_bundles`; the
thread in `receive` and those in `subscribe` that have yet to notify; the storage, the bundles that
have yet to be announced, and the clock. What was handed out, the latest time of the clock, and
whether `receive` threw are written down. -/
structure Registration where
  endpoints : List EID
  receivedBundles : BundleList
  queue : List MetaBundle
  noMoreBundles : Bool
  receiving : Receiving
  subscribing : List EID
  storage : List MetaBundle
  announcing : List MetaBundle
  clock : Clock
  handed : List MetaBundle
  latest : UInt64
  threw : Bool

namespace Registration

/-- `Registration::hasSubscribed`, for a set of endpoints. -/
def hasSubscribed (endpoints : List EID) (e : EID) : Bool :=
  (OrderedSet.find? id EID.lt e endpoints).isSome

/-- The filter of `underflow` accepts a bundle. -/
def shouldAdd (endpoints : List EID) (blist : BundleList) (m : MetaBundle) : Bool :=
  Selection.accepts (bundleFilter endpoints blist).shouldAdd m

/-- What a storage answers to the filter: bundles that the filter accepts, each once, and all of
them unless the limit is reached. -/
def Answers (storage : List MetaBundle) (endpoints : List EID) (blist : BundleList)
    (found : List MetaBundle) : Prop :=
  found.Nodup ∧ (∀ m ∈ found, m ∈ storage ∧ shouldAdd endpoints blist m = true) ∧
    found.length ≤ (bundleFilter endpoints blist).limit ∧
      (found.length < (bundleFilter endpoints blist).limit →
        ∀ m ∈ storage, shouldAdd endpoints blist m = true → m ∈ found)

instance (storage : List MetaBundle) (endpoints : List EID) (blist : BundleList)
    (found : List MetaBundle) : Decidable (Answers storage endpoints blist found) :=
  inferInstanceAs (Decidable (_ ∧ _ ∧ _ ∧ _))

/-- The steps of the threads. A search comes with the answer of the storage. -/
inductive Label where
  | subscribe (e : EID)
  | subscribed (e : EID)
  | unsubscribe (e : EID)
  | store (m : MetaBundle)
  | announce (m : MetaBundle)
  | remove (i : BundleID)
  | setClock (c : Clock)
  | receive
  | pop
  | load
  | prepare
  | search (found : List MetaBundle)
  | throw
  | waitForBundle

/-- `notify(NOTIFY_BUNDLE_AVAILABLE)`. -/
def notify (s : Registration) : Registration := { s with noMoreBundles := false }

/-- The storage keeps one bundle of an identifier. -/
def store (s : Registration) (m : MetaBundle) : Registration :=
  { s with
    storage := if s.storage.any fun n => n.toBundleID.eq m.toBundleID then s.storage
      else m :: s.storage
    announcing := m :: s.announcing }

/-- `storage.get(b)` in `receive`: without the bundle, `receive` goes on. -/
def load (s : Registration) (m : MetaBundle) : Registration :=
  match s.storage.find? fun n => m.toBundleID.eq n.toBundleID with
  | some n => { s with receiving := .idle, handed := s.handed ++ [n] }
  | none => { s with receiving := .looping }

/-- The part of `underflow` in front of the search. -/
def prepare (s : Registration) : Registration :=
  { s with
    receivedBundles := (s.receivedBundles.expire s.clock s.clock.time (fun _ _ u => u) ()).1
    receiving := .copied s.endpoints }

/-- The part of `underflow` behind the search. -/
def searched (s : Registration) (endpoints : List EID) (found : List MetaBundle) : Registration :=
  if found.isEmpty then { s with receiving := .nothing endpoints }
  else { s with
    queue := s.queue ++ found
    receivedBundles := found.foldl BundleList.add s.receivedBundles
    receiving := .looping }

/-- The steps, and nothing if the thread is elsewhere or has to wait. -/
def step (s : Registration) : Label → Option Registration
  | .subscribe e =>
      if s.receiving.locks then none
      else some { s with
        endpoints := OrderedSet.insert id EID.lt e s.endpoints
        subscribing := e :: s.subscribing }
  | .subscribed e =>
      if e ∈ s.subscribing then some { s.notify with subscribing := s.subscribing.erase e }
      else none
  | .unsubscribe e =>
      if s.receiving.locks then none
      else some { s with endpoints := OrderedSet.erase id EID.lt e s.endpoints }
  | .store m => some (s.store m)
  | .announce m =>
      if m ∈ s.announcing then some { s.notify with announcing := s.announcing.erase m } else none
  | .remove i => some { s with storage := s.storage.filter fun m => !m.toBundleID.eq i }
  | .setClock c => some { s with clock := c, latest := max s.latest c.time }
  | .receive => if s.receiving = .idle then some { s with receiving := .looping } else none
  | .pop =>
      match s.receiving, s.queue with
      | .looping, m :: q => some { s with receiving := .loading m, queue := q }
      | _, _ => none
  | .load =>
      match s.receiving with
      | .loading m => some (s.load m)
      | _ => none
  | .prepare =>
      match s.receiving, s.queue with
      | .looping, [] => some s.prepare
      | _, _ => none
  | .search found =>
      match s.receiving with
      | .copied endpoints =>
          if Answers s.storage endpoints s.receivedBundles found then
            some (s.searched endpoints found)
          else none
      | _ => none
  | .throw =>
      match s.receiving with
      | .nothing _ => some { s with receiving := .idle, noMoreBundles := true, threw := true }
      | _ => none
  | .waitForBundle => if s.noMoreBundles then none else some s

/-! ### What a step does -/

/-- A step, with what it needs. -/
inductive Moves (s : Registration) : Label → Registration → Prop where
  | subscribe {e} (hlock : s.receiving.locks = false) : Moves s (.subscribe e) { s with
      endpoints := OrderedSet.insert id EID.lt e s.endpoints
      subscribing := e :: s.subscribing }
  | subscribed {e} (he : e ∈ s.subscribing) : Moves s (.subscribed e)
      { s.notify with subscribing := s.subscribing.erase e }
  | unsubscribe {e} (hlock : s.receiving.locks = false) : Moves s (.unsubscribe e)
      { s with endpoints := OrderedSet.erase id EID.lt e s.endpoints }
  | known {m} (hknown : s.storage.any (fun n => n.toBundleID.eq m.toBundleID) = true) :
      Moves s (.store m) { s with announcing := m :: s.announcing }
  | store {m} (hnew : ∀ n ∈ s.storage, n.toBundleID.eq m.toBundleID = false) :
      Moves s (.store m) { s with storage := m :: s.storage, announcing := m :: s.announcing }
  | announce {m} (hm : m ∈ s.announcing) : Moves s (.announce m)
      { s.notify with announcing := s.announcing.erase m }
  | remove {i} : Moves s (.remove i)
      { s with storage := s.storage.filter fun m => !m.toBundleID.eq i }
  | setClock {c} : Moves s (.setClock c) { s with clock := c, latest := max s.latest c.time }
  | receive (hidle : s.receiving = .idle) : Moves s .receive { s with receiving := .looping }
  | pop {m q} (hlooping : s.receiving = .looping) (hqueue : s.queue = m :: q) :
      Moves s .pop { s with receiving := .loading m, queue := q }
  | load {m n} (hloading : s.receiving = .loading m) (hn : n ∈ s.storage)
      (heq : m.toBundleID.eq n.toBundleID = true) :
      Moves s .load { s with receiving := .idle, handed := s.handed ++ [n] }
  | miss {m} (hloading : s.receiving = .loading m)
      (hnone : ∀ n ∈ s.storage, m.toBundleID.eq n.toBundleID = false) :
      Moves s .load { s with receiving := .looping }
  | prepare (hlooping : s.receiving = .looping) (hqueue : s.queue = []) :
      Moves s .prepare s.prepare
  | nothing {endpoints} (hcopied : s.receiving = .copied endpoints)
      (hnone : ∀ m ∈ s.storage, shouldAdd endpoints s.receivedBundles m = false) :
      Moves s (.search []) { s with receiving := .nothing endpoints }
  | found {endpoints found} (hcopied : s.receiving = .copied endpoints) (hnodup : found.Nodup)
      (hfound : ∀ m ∈ found, m ∈ s.storage ∧ shouldAdd endpoints s.receivedBundles m = true) :
      Moves s (.search found) { s with
        queue := s.queue ++ found
        receivedBundles := found.foldl BundleList.add s.receivedBundles
        receiving := .looping }
  | throw {endpoints} (hnothing : s.receiving = .nothing endpoints) :
      Moves s .throw { s with receiving := .idle, noMoreBundles := true, threw := true }
  | waitForBundle : Moves s .waitForBundle s

variable {s s' : Registration} {l : Label}

/-- The steps of the thread in `receive`. -/
theorem moves_of_step_receive (h : s.step l = some s')
    (hl : l = .receive ∨ l = .pop ∨ l = .load ∨ l = .prepare ∨ (∃ found, l = .search found) ∨
      l = .throw) : s.Moves l s' := by
  rcases hl with rfl | rfl | rfl | rfl | ⟨found, rfl⟩ | rfl
  · rw [step] at h
    split_ifs at h with hidle
    rw [← Option.some.inj h]
    exact .receive hidle
  · rw [step] at h
    split at h
    next m q hreceiving hqueue =>
      rw [← Option.some.inj h]
      exact .pop hreceiving hqueue
    · cases h
  · rw [step] at h
    split at h
    next m hreceiving =>
      rw [← Option.some.inj h, load]
      rcases hfind : s.storage.find? fun n => m.toBundleID.eq n.toBundleID with _ | n
      · simp only [hfind]
        exact .miss hreceiving fun n hn => Bool.eq_false_iff.2 (List.find?_eq_none.1 hfind n hn)
      · simp only [hfind]
        have heq := List.find?_some (p := fun n : MetaBundle => m.toBundleID.eq n.toBundleID) hfind
        exact .load hreceiving (List.mem_of_find?_eq_some hfind) heq
    · cases h
  · rw [step] at h
    split at h
    next hreceiving hqueue =>
      rw [← Option.some.inj h]
      exact .prepare hreceiving hqueue
    · cases h
  · rw [step] at h
    split at h
    next endpoints hreceiving =>
      split_ifs at h with hanswers
      obtain ⟨hnodup, hfound, -, hall⟩ := hanswers
      rw [← Option.some.inj h, searched]
      cases found with
      | nil =>
          refine .nothing hreceiving fun m hm => Bool.eq_false_iff.2 fun hadd => ?_
          exact List.not_mem_nil (hall (Nat.zero_lt_succ 9) m hm hadd)
      | cons m found => exact .found hreceiving hnodup hfound
    · cases h
  · rw [step] at h
    split at h
    next endpoints hreceiving =>
      rw [← Option.some.inj h]
      exact .throw hreceiving
    · cases h

/-- **What a step does.** -/
theorem moves_of_step (h : s.step l = some s') : s.Moves l s' := by
  cases l with
  | subscribe e =>
      rw [step] at h
      split_ifs at h with hlock
      rw [← Option.some.inj h]
      exact .subscribe (Bool.eq_false_iff.2 hlock)
  | subscribed e =>
      rw [step] at h
      split_ifs at h with he
      rw [← Option.some.inj h]
      exact .subscribed he
  | unsubscribe e =>
      rw [step] at h
      split_ifs at h with hlock
      rw [← Option.some.inj h]
      exact .unsubscribe (Bool.eq_false_iff.2 hlock)
  | store m =>
      rw [step, store] at h
      rw [← Option.some.inj h]
      split_ifs with hknown
      · exact .known hknown
      · exact .store fun n hn => Bool.eq_false_iff.2 fun heq =>
          hknown (List.any_eq_true.2 ⟨n, hn, heq⟩)
  | announce m =>
      rw [step] at h
      split_ifs at h with hm
      rw [← Option.some.inj h]
      exact .announce hm
  | remove i => exact Option.some.inj h ▸ .remove
  | setClock c => exact Option.some.inj h ▸ .setClock
  | waitForBundle =>
      rw [step] at h
      split_ifs at h with hmore
      exact Option.some.inj h ▸ .waitForBundle
  | receive => exact moves_of_step_receive h (.inl rfl)
  | pop => exact moves_of_step_receive h (.inr (.inl rfl))
  | load => exact moves_of_step_receive h (.inr (.inr (.inl rfl)))
  | prepare => exact moves_of_step_receive h (.inr (.inr (.inr (.inl rfl))))
  | search found => exact moves_of_step_receive h (.inr (.inr (.inr (.inr (.inl ⟨_, rfl⟩)))))
  | throw => exact moves_of_step_receive h (.inr (.inr (.inr (.inr (.inr rfl)))))

end Registration

end IbrDtn
