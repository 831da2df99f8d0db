import Mathlib

/-!
# The event switch

This file models `daemon/src/core/EventSwitch.cpp` and `daemon/src/core/Event.cpp`, while the switch is
running.  An event that is raised becomes one task for each receiver of its name, and workers take
the tasks from three queues.  Whoever unregisters a receiver pauses the switch and removes the
tasks of the receiver from one of the queues.

A step of a thread is what it does between two points at which others can come in: the section
under `_receiverlock`, `_queue_cond` or `_active_cond`.  A worker that takes a task holds
`_queue_cond` until it has `_active_cond`; these are two steps.

## Main definitions

* `EventSwitch` : the members of the switch, its events, and where its threads are.
* `EventSwitch.step` : the steps of the threads.
* `EventSwitch.Moves` : the same as a relation, for case distinctions.

## Main results

* `EventSwitch.moves_of_step` : what a step does.
-/

namespace IbrDtn

namespace EventSwitch

/-- `class EventSwitch::Task`. -/
structure Task (R : Type) where
  receiver : R
  event : ℕ
deriving DecidableEq

/-- `class Event`, and the receivers that were registered for its name when it was raised. -/
structure EventObject (N R : Type) where
  name : N
  prio : ℤ
  autoDelete : Bool
  refCount : ℕ
  processed : Bool
  deleted : Bool
  receivers : List R

/-- The queues. -/
inductive Lane where
  | prio
  | normal
  | low
deriving DecidableEq

/-- The queue for the events of a priority. -/
def laneOf (prio : ℤ) : Lane :=
  if prio > 0 then .prio else if prio < 0 then .low else .normal

/-- Where a worker is in `process`: in front of it; with a task, and still with `_queue_cond`; in
the call of `raiseEvent`; behind the task; and in the loop that waits while the switch is paused. -/
inductive Worker (R : Type) where
  | idle
  | taken (t : Task R)
  | running (t : Task R)
  | finished
  | waiting
deriving DecidableEq

/-- The task of a worker. -/
def Worker.task? {R : Type} : Worker R → Option (Task R)
  | .taken t | .running t => some t
  | _ => none

/-- The worker holds `_queue_cond`. -/
def Worker.locks {R : Type} : Worker R → Bool
  | .taken _ => true
  | _ => false

/-- The worker is counted by `_active_worker`. -/
def Worker.active {R : Type} : Worker R → Bool
  | .running _ | .finished => true
  | _ => false

/-- Where a thread is in `unregister`: behind the removal from the list, in the loop of `pause`,
behind `pause`, and behind the removal of the tasks. -/
inductive Phase where
  | removed
  | pausing
  | paused
  | swept
deriving DecidableEq

/-- A thread in `unregister`. -/
structure Unregistration (R : Type) where
  receiver : R
  phase : Phase
deriving DecidableEq

end EventSwitch

open EventSwitch in
/-- `class EventSwitch`: its members, the events so far, the raiser that holds `_receiverlock` with
the receivers that have yet to get a task, the threads in `process` and in `unregister`, and the
events whose raisers are blocked. The tasks that were taken from the queues and those that were
passed to their receivers are written down. -/
structure EventSwitch (N R : Type) where
  list : N → Option (List R)
  events : ℕ → EventObject N R
  nextEvent : ℕ
  raising : Option (ℕ × List R)
  queue : Lane → List (EventSwitch.Task R)
  workers : List (Worker R)
  activeWorker : ℕ
  pause : Bool
  unregistering : List (Unregistration R)
  blocked : List ℕ
  taken : List (EventSwitch.Task R)
  passed : List (EventSwitch.Task R)

namespace EventSwitch

variable {N R : Type} [DecidableEq N] [DecidableEq R]

/-- The receivers of a name; without an entry, `getReceivers` throws and the event has none. -/
def getReceivers (s : EventSwitch N R) (name : N) : List R := (s.list name).getD []

/-- A worker holds `_queue_cond`. -/
def locked (s : EventSwitch N R) : Bool := s.workers.any Worker.locks

/-- The task that the next worker takes. -/
def nextTask (s : EventSwitch N R) : Option (Lane × Task R × List (Task R)) :=
  match s.queue .prio, s.queue .normal, s.queue .low with
  | t :: ts, _, _ => some (.prio, t, ts)
  | [], t :: ts, _ => some (.normal, t, ts)
  | [], [], t :: ts => some (.low, t, ts)
  | [], [], [] => none

/-- `Event::decrement_ref_count`, and the destructor of a task. -/
def EventObject.decrement (o : EventObject N R) : EventObject N R :=
  let processed := decide (o.refCount - 1 = 0)
  { o with
    refCount := o.refCount - 1
    processed
    deleted := o.deleted || (o.autoDelete && processed) }

/-- The steps of the threads. A worker and a thread in `unregister` are named by their places. -/
inductive Label (N R : Type) where
  | register (name : N) (receiver : R)
  | raise (name : N) (prio : ℤ) (block : Bool)
  | push
  | raised
  | released (event : ℕ)
  | take (w : ℕ)
  | count (w : ℕ)
  | returned (w : ℕ)
  | finish (w : ℕ)
  | resume (w : ℕ)
  | unregister (name : N) (receiver : R)
  | setPause (u : ℕ)
  | drained (u : ℕ)
  | sweep (u : ℕ)
  | unpause (u : ℕ)

/-- An event is created and raised, and the raiser has `_receiverlock`. -/
def beginRaise (s : EventSwitch N R) (name : N) (prio : ℤ) (block : Bool) : EventSwitch N R :=
  let receivers := s.getReceivers name
  { s with
    events := Function.update s.events s.nextEvent
      ⟨name, prio, !block, receivers.length, false, false, receivers⟩
    nextEvent := s.nextEvent + 1
    raising := some (s.nextEvent, receivers) }

/-- A task is put into its queue. -/
def pushTask (s : EventSwitch N R) (e : ℕ) (r : R) (rs : List R) : EventSwitch N R :=
  let lane := laneOf (s.events e).prio
  { s with
    queue := Function.update s.queue lane (s.queue lane ++ [⟨r, e⟩])
    raising := some (e, rs) }

/-- A worker goes on. -/
def setWorker (s : EventSwitch N R) (w : ℕ) (worker : Worker R) : EventSwitch N R :=
  { s with workers := s.workers.set w worker }

/-- A thread in `unregister` goes on. -/
def setPhase (s : EventSwitch N R) (u : ℕ) (receiver : R) (phase : Phase) : EventSwitch N R :=
  { s with unregistering := s.unregistering.set u ⟨receiver, phase⟩ }

/-- The steps, and nothing if the thread is elsewhere or has to wait. -/
def step (s : EventSwitch N R) : Label N R → Option (EventSwitch N R)
  | .register name r =>
      if s.raising.isSome then none
      else some { s with list := Function.update s.list name (some (s.getReceivers name ++ [r])) }
  | .raise name prio block => if s.raising.isSome then none else some (s.beginRaise name prio block)
  | .push =>
      match s.raising with
      | some (e, r :: rs) => if s.locked then none else some (s.pushTask e r rs)
      | _ => none
  | .raised =>
      match s.raising with
      | some (e, []) => some { s with
          raising := none
          blocked := if (s.events e).autoDelete then s.blocked else e :: s.blocked }
      | _ => none
  | .released e =>
      if e ∈ s.blocked ∧ (s.events e).processed = true then
        some { s with
          blocked := s.blocked.erase e
          events := Function.update s.events e { s.events e with deleted := true } }
      else none
  | .take w =>
      match s.workers[w]?, s.nextTask with
      | some .idle, some (lane, t, ts) =>
          if s.locked then none
          else some { s.setWorker w (.taken t) with
            queue := Function.update s.queue lane ts
            taken := s.taken ++ [t] }
      | _, _ => none
  | .count w =>
      match s.workers[w]? with
      | some (.taken t) => some { s.setWorker w (.running t) with
          activeWorker := s.activeWorker + 1
          passed := s.passed ++ [t] }
      | _ => none
  | .returned w =>
      match s.workers[w]? with
      | some (.running t) => some { s.setWorker w .finished with
          events := Function.update s.events t.event (s.events t.event).decrement }
      | _ => none
  | .finish w =>
      match s.workers[w]? with
      | some .finished => some { s.setWorker w .waiting with activeWorker := s.activeWorker - 1 }
      | _ => none
  | .resume w =>
      match s.workers[w]? with
      | some .waiting => if s.pause then none else some (s.setWorker w .idle)
      | _ => none
  | .unregister name r =>
      if s.raising.isSome then none
      else some { s with
        list := Function.update s.list name (some ((s.getReceivers name).erase r))
        unregistering := s.unregistering ++ [⟨r, .removed⟩] }
  | .setPause u =>
      match s.unregistering[u]? with
      | some ⟨r, .removed⟩ => some { s.setPhase u r .pausing with pause := true }
      | _ => none
  | .drained u =>
      match s.unregistering[u]? with
      | some ⟨r, .pausing⟩ => if s.activeWorker = 0 then some (s.setPhase u r .paused) else none
      | _ => none
  | .sweep u =>
      match s.unregistering[u]? with
      | some ⟨r, .paused⟩ =>
          if s.locked then none
          else some { s.setPhase u r .swept with
            queue := Function.update s.queue .normal
              ((s.queue .normal).filter fun t => decide (t.receiver ≠ r)) }
      | _ => none
  | .unpause u =>
      match s.unregistering[u]? with
      | some ⟨_, .swept⟩ => some { s with
          pause := false
          unregistering := s.unregistering.eraseIdx u }
      | _ => none

/-! ### What a step does -/

/-- A step, with the lists of threads taken apart at the thread that makes it. -/
inductive Moves (s : EventSwitch N R) : Label N R → EventSwitch N R → Prop where
  | register {name r} (hlock : s.raising = none) : Moves s (.register name r)
      { s with list := Function.update s.list name (some (s.getReceivers name ++ [r])) }
  | raise {name prio block} (hlock : s.raising = none) :
      Moves s (.raise name prio block) (s.beginRaise name prio block)
  | push {e r rs} (hraising : s.raising = some (e, r :: rs)) (hlock : s.locked = false) :
      Moves s .push (s.pushTask e r rs)
  | raised {e} (hraising : s.raising = some (e, [])) : Moves s .raised { s with
      raising := none
      blocked := if (s.events e).autoDelete then s.blocked else e :: s.blocked }
  | released {e} (hblocked : e ∈ s.blocked) (hprocessed : (s.events e).processed = true) :
      Moves s (.released e) { s with
        blocked := s.blocked.erase e
        events := Function.update s.events e { s.events e with deleted := true } }
  | take {l₁ l₂ lane t ts} (hworkers : s.workers = l₁ ++ .idle :: l₂)
      (hqueue : s.queue lane = t :: ts) (hnext : s.nextTask = some (lane, t, ts))
      (hlock : s.locked = false) :
      Moves s (.take l₁.length) { s with
        workers := l₁ ++ .taken t :: l₂
        queue := Function.update s.queue lane ts
        taken := s.taken ++ [t] }
  | count {l₁ l₂ t} (hworkers : s.workers = l₁ ++ .taken t :: l₂) :
      Moves s (.count l₁.length) { s with
        workers := l₁ ++ .running t :: l₂
        activeWorker := s.activeWorker + 1
        passed := s.passed ++ [t] }
  | returned {l₁ l₂ t} (hworkers : s.workers = l₁ ++ .running t :: l₂) :
      Moves s (.returned l₁.length) { s with
        workers := l₁ ++ .finished :: l₂
        events := Function.update s.events t.event (s.events t.event).decrement }
  | finish {l₁ l₂} (hworkers : s.workers = l₁ ++ .finished :: l₂) :
      Moves s (.finish l₁.length) { s with
        workers := l₁ ++ .waiting :: l₂
        activeWorker := s.activeWorker - 1 }
  | resume {l₁ l₂} (hworkers : s.workers = l₁ ++ .waiting :: l₂) (hpause : s.pause = false) :
      Moves s (.resume l₁.length) { s with workers := l₁ ++ .idle :: l₂ }
  | unregister {name r} (hlock : s.raising = none) : Moves s (.unregister name r) { s with
      list := Function.update s.list name (some ((s.getReceivers name).erase r))
      unregistering := s.unregistering ++ [⟨r, .removed⟩] }
  | setPause {l₁ l₂ r} (hunregistering : s.unregistering = l₁ ++ ⟨r, .removed⟩ :: l₂) :
      Moves s (.setPause l₁.length) { s with
        unregistering := l₁ ++ ⟨r, .pausing⟩ :: l₂
        pause := true }
  | drained {l₁ l₂ r} (hunregistering : s.unregistering = l₁ ++ ⟨r, .pausing⟩ :: l₂)
      (hactive : s.activeWorker = 0) :
      Moves s (.drained l₁.length) { s with unregistering := l₁ ++ ⟨r, .paused⟩ :: l₂ }
  | sweep {l₁ l₂ r} (hunregistering : s.unregistering = l₁ ++ ⟨r, .paused⟩ :: l₂)
      (hlock : s.locked = false) :
      Moves s (.sweep l₁.length) { s with
        unregistering := l₁ ++ ⟨r, .swept⟩ :: l₂
        queue := Function.update s.queue .normal
          ((s.queue .normal).filter fun t => decide (t.receiver ≠ r)) }
  | unpause {l₁ l₂ r} (hunregistering : s.unregistering = l₁ ++ ⟨r, .swept⟩ :: l₂) :
      Moves s (.unpause l₁.length) { s with pause := false, unregistering := l₁ ++ l₂ }

omit [DecidableEq N] [DecidableEq R] in
/-- A list, taken apart at one of its places. -/
theorem exists_append_of_getElem? {α : Type} {l : List α} {i : ℕ} {a : α} (h : l[i]? = some a) :
    ∃ l₁ l₂, l = l₁ ++ a :: l₂ ∧ i = l₁.length := by
  obtain ⟨hlt, rfl⟩ := List.getElem?_eq_some_iff.1 h
  refine ⟨l.take i, l.drop (i + 1), ?_, ?_⟩
  · rw [← List.drop_eq_getElem_cons hlt, List.take_append_drop]
  · rw [List.length_take, Nat.min_eq_left (Nat.le_of_lt hlt)]

omit [DecidableEq N] [DecidableEq R] in
/-- The queue of the next task. -/
theorem queue_of_nextTask {s : EventSwitch N R} {lane : Lane} {t : Task R} {ts : List (Task R)}
    (h : s.nextTask = some (lane, t, ts)) : s.queue lane = t :: ts := by
  rw [nextTask] at h
  rcases hprio : s.queue .prio with _ | ⟨a, as⟩
  · rcases hnormal : s.queue .normal with _ | ⟨b, bs⟩
    · rcases hlow : s.queue .low with _ | ⟨c, cs⟩
      · simp [hprio, hnormal, hlow] at h
      · simp only [hprio, hnormal, hlow, Option.some.injEq, Prod.mk.injEq] at h
        obtain ⟨rfl, rfl, rfl⟩ := h
        exact hlow
    · simp only [hprio, hnormal, Option.some.injEq, Prod.mk.injEq] at h
      obtain ⟨rfl, rfl, rfl⟩ := h
      exact hnormal
  · simp only [hprio, Option.some.injEq, Prod.mk.injEq] at h
    obtain ⟨rfl, rfl, rfl⟩ := h
    exact hprio

/-- The steps of the threads that raise events and change the list of receivers. -/
theorem moves_of_step_list {s s' : EventSwitch N R} {l : Label N R} (h : s.step l = some s')
    (hl : (∃ name r, l = .register name r) ∨ (∃ name prio block, l = .raise name prio block) ∨
      l = .push ∨ l = .raised ∨ (∃ e, l = .released e) ∨ ∃ name r, l = .unregister name r) :
    s.Moves l s' := by
  rcases hl with ⟨name, r, rfl⟩ | ⟨name, prio, block, rfl⟩ | rfl | rfl | ⟨e, rfl⟩ | ⟨name, r, rfl⟩
  · rw [step] at h
    split_ifs at h with hlock
    rw [← Option.some.inj h]
    exact .register (Option.not_isSome_iff_eq_none.1 hlock)
  · rw [step] at h
    split_ifs at h with hlock
    rw [← Option.some.inj h]
    exact .raise (Option.not_isSome_iff_eq_none.1 hlock)
  · rw [step] at h
    rcases hraising : s.raising with _ | ⟨e, _ | ⟨r, rs⟩⟩
    · simp [hraising] at h
    · simp [hraising] at h
    · simp only [hraising] at h
      split_ifs at h with hlock
      rw [← Option.some.inj h]
      exact .push hraising (Bool.eq_false_iff.2 hlock)
  · rw [step] at h
    rcases hraising : s.raising with _ | ⟨e, _ | ⟨r, rs⟩⟩
    · simp [hraising] at h
    · simp only [hraising] at h
      rw [← Option.some.inj h]
      exact .raised hraising
    · simp [hraising] at h
  · rw [step] at h
    split_ifs at h with hready
    rw [← Option.some.inj h]
    exact .released hready.1 hready.2
  · rw [step] at h
    split_ifs at h with hlock
    rw [← Option.some.inj h]
    exact .unregister (Option.not_isSome_iff_eq_none.1 hlock)

/-- The steps of the workers. -/
theorem moves_of_step_worker {s s' : EventSwitch N R} {l : Label N R} {w : ℕ}
    (h : s.step l = some s')
    (hl : l = .take w ∨ l = .count w ∨ l = .returned w ∨ l = .finish w ∨ l = .resume w) :
    s.Moves l s' := by
  rcases hw : s.workers[w]? with _ | worker
  · rcases hl with rfl | rfl | rfl | rfl | rfl <;> simp [step, hw] at h
  obtain ⟨l₁, l₂, hworkers, rfl⟩ := exists_append_of_getElem? hw
  have hset (worker' : Worker R) : s.workers.set l₁.length worker' = l₁ ++ worker' :: l₂ := by
    rw [hworkers, List.set_append_right _ _ (Nat.le_refl _), Nat.sub_self, List.set_cons_zero]
  rcases hl with rfl | rfl | rfl | rfl | rfl
  · cases worker with
    | idle =>
        rcases hnext : s.nextTask with _ | ⟨lane, t, ts⟩
        · simp [step, hw, hnext] at h
        · simp only [step, hw, hnext] at h
          split_ifs at h with hlock
          rw [← Option.some.inj h, setWorker, hset]
          exact .take hworkers (queue_of_nextTask hnext) hnext (Bool.eq_false_iff.2 hlock)
    | _ => simp [step, hw] at h
  · cases worker with
    | taken t =>
        simp only [step, hw] at h
        rw [← Option.some.inj h, setWorker, hset]
        exact .count hworkers
    | _ => simp [step, hw] at h
  · cases worker with
    | running t =>
        simp only [step, hw] at h
        rw [← Option.some.inj h, setWorker, hset]
        exact .returned hworkers
    | _ => simp [step, hw] at h
  · cases worker with
    | finished =>
        simp only [step, hw] at h
        rw [← Option.some.inj h, setWorker, hset]
        exact .finish hworkers
    | _ => simp [step, hw] at h
  · cases worker with
    | waiting =>
        simp only [step, hw] at h
        split_ifs at h with hpause
        rw [← Option.some.inj h, setWorker, hset]
        exact .resume hworkers (Bool.eq_false_iff.2 hpause)
    | _ => simp [step, hw] at h

/-- The steps of the threads that unregister. -/
theorem moves_of_step_unregistration {s s' : EventSwitch N R} {l : Label N R} {u : ℕ}
    (h : s.step l = some s')
    (hl : l = .setPause u ∨ l = .drained u ∨ l = .sweep u ∨ l = .unpause u) : s.Moves l s' := by
  rcases hu : s.unregistering[u]? with _ | ⟨r, phase⟩
  · rcases hl with rfl | rfl | rfl | rfl <;> simp [step, hu] at h
  obtain ⟨l₁, l₂, hunregistering, rfl⟩ := exists_append_of_getElem? hu
  have hset (phase' : Phase) :
      s.unregistering.set l₁.length ⟨r, phase'⟩ = l₁ ++ ⟨r, phase'⟩ :: l₂ := by
    rw [hunregistering, List.set_append_right _ _ (Nat.le_refl _), Nat.sub_self,
      List.set_cons_zero]
  rcases hl with rfl | rfl | rfl | rfl
  · cases phase with
    | removed =>
        simp only [step, hu] at h
        rw [← Option.some.inj h, setPhase, hset]
        exact .setPause hunregistering
    | _ => simp [step, hu] at h
  · cases phase with
    | pausing =>
        simp only [step, hu] at h
        split_ifs at h with hactive
        rw [← Option.some.inj h, setPhase, hset]
        exact .drained hunregistering hactive
    | _ => simp [step, hu] at h
  · cases phase with
    | paused =>
        simp only [step, hu] at h
        split_ifs at h with hlock
        rw [← Option.some.inj h, setPhase, hset]
        exact .sweep hunregistering (Bool.eq_false_iff.2 hlock)
    | _ => simp [step, hu] at h
  · cases phase with
    | swept =>
        simp only [step, hu] at h
        have herase : s.unregistering.eraseIdx l₁.length = l₁ ++ l₂ := by
          rw [hunregistering, List.eraseIdx_append_of_length_le (Nat.le_refl _), Nat.sub_self,
            List.eraseIdx_zero, List.tail_cons]
        rw [← Option.some.inj h, herase]
        exact .unpause hunregistering
    | _ => simp [step, hu] at h

/-- **What a step does.** -/
theorem moves_of_step {s s' : EventSwitch N R} {l : Label N R} (h : s.step l = some s') :
    s.Moves l s' := by
  cases l with
  | register name r => exact moves_of_step_list h (.inl ⟨name, r, rfl⟩)
  | raise name prio block => exact moves_of_step_list h (.inr (.inl ⟨name, prio, block, rfl⟩))
  | push => exact moves_of_step_list h (.inr (.inr (.inl rfl)))
  | raised => exact moves_of_step_list h (.inr (.inr (.inr (.inl rfl))))
  | released e => exact moves_of_step_list h (.inr (.inr (.inr (.inr (.inl ⟨e, rfl⟩)))))
  | unregister name r => exact moves_of_step_list h (.inr (.inr (.inr (.inr (.inr ⟨name, r, rfl⟩)))))
  | take w => exact moves_of_step_worker h (.inl rfl)
  | count w => exact moves_of_step_worker h (.inr (.inl rfl))
  | returned w => exact moves_of_step_worker h (.inr (.inr (.inl rfl)))
  | finish w => exact moves_of_step_worker h (.inr (.inr (.inr (.inl rfl))))
  | resume w => exact moves_of_step_worker h (.inr (.inr (.inr (.inr rfl))))
  | setPause u => exact moves_of_step_unregistration h (.inl rfl)
  | drained u => exact moves_of_step_unregistration h (.inr (.inl rfl))
  | sweep u => exact moves_of_step_unregistration h (.inr (.inr (.inl rfl)))
  | unpause u => exact moves_of_step_unregistration h (.inr (.inr (.inr rfl)))

end EventSwitch

end IbrDtn
