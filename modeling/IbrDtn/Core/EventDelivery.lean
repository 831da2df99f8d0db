import Mathlib
import IbrDtn.Core.EventReceivers

/-!
# Delivery and release of events

An event gets one task for each receiver of its name, and counts the tasks.  The last one to be
deleted deletes the event, or wakes up the raiser, who deletes it.  This file shows in which runs
every receiver gets its event and every event is released: there must be a receiver when an event is
raised, and no task may be removed from its queue, since it is removed without being deleted.

## Main definitions

* `EventSwitch.references`, `EventSwitch.outstanding` : the tasks that refer to an event, and those
  that have yet to be passed to their receivers.
* `EventSwitch.Served` : the steps at which no event is lost.
* `EventSwitch.Internal` : the steps that bring nothing new.

## Main results

* `EventSwitch.Moves.work_lt` : the work that is left gets less with every such step.
* `EventSwitch.Stuck.quiet` : the threads get stuck only when nothing is left.
* `EventSwitch.delivered_run` : behind every run of served steps, events are passed, ordered, counted
  and released as they should be, and the threads finish all of them.
-/

namespace IbrDtn

open Function (update update_eq_self update_of_ne update_self)

namespace EventSwitch

variable {N R : Type} [DecidableEq N] [DecidableEq R] {s s' : EventSwitch N R} {l : Label N R}

/-! ### Tasks -/

/-- The tasks in the queues. -/
def queued (queue : Lane → List (Task R)) : List (Task R) :=
  queue .prio ++ (queue .normal ++ queue .low)

/-- The tasks that the raiser has yet to make. -/
def pendingTasks (s : EventSwitch N R) : List (Task R) :=
  match s.raising with
  | some (e, rs) => rs.map fun r => ⟨r, e⟩
  | none => []

/-- The task that a worker has yet to pass to its receiver. -/
def Worker.toPass? : Worker R → Option (Task R)
  | .taken t => some t
  | _ => none

/-- The tasks that refer to their events, those to come among them. -/
def references (s : EventSwitch N R) : List (Task R) :=
  s.pendingTasks ++ (queued s.queue ++ s.workers.filterMap Worker.task?)

/-- The tasks that have yet to be passed to their receivers, those to come among them. -/
def outstanding (s : EventSwitch N R) : List (Task R) :=
  s.pendingTasks ++ (queued s.queue ++ s.workers.filterMap Worker.toPass?)

/-- **The steps at which no event is lost**: an event that is raised has a receiver, and a receiver
has no tasks in the queue that are removed from it. -/
def Served (s : EventSwitch N R) : Label N R → Prop
  | .raise name _ _ => s.getReceivers name ≠ []
  | .sweep u => ∀ v, s.unregistering[u]? = some v → ∀ t ∈ s.queue .normal, t.receiver ≠ v.receiver
  | _ => True

omit [DecidableEq N] [DecidableEq R] in
/-- The queues, with one of them replaced. -/
theorem exists_perm_queued (queue : Lane → List (Task R)) (lane : Lane) :
    ∃ others, ∀ ts, (queued (update queue lane ts)).Perm (ts ++ others) := by
  cases lane with
  | prio => exact ⟨queue .normal ++ queue .low, fun ts => .refl _⟩
  | normal =>
      refine ⟨queue .prio ++ queue .low, fun ts => ?_⟩
      change (queue .prio ++ (ts ++ queue .low)).Perm _
      rw [← List.append_assoc, ← List.append_assoc]
      exact List.perm_append_comm.append_right _
  | low =>
      refine ⟨queue .prio ++ queue .normal, fun ts => ?_⟩
      change (queue .prio ++ (queue .normal ++ ts)).Perm _
      rw [← List.append_assoc]
      exact List.perm_append_comm

omit [DecidableEq N] [DecidableEq R] in
theorem perm_queued_push (queue : Lane → List (Task R)) (lane : Lane) (t : Task R) :
    (queued (update queue lane (queue lane ++ [t]))).Perm (t :: queued queue) := by
  obtain ⟨others, hothers⟩ := exists_perm_queued queue lane
  have hself := hothers (queue lane)
  rw [update_eq_self] at hself
  refine (hothers _).trans (.trans ?_ (hself.cons t).symm)
  rw [List.append_assoc]
  exact List.perm_middle

omit [DecidableEq N] [DecidableEq R] in
theorem perm_queued_take {queue : Lane → List (Task R)} {lane : Lane} {t : Task R}
    {ts : List (Task R)} (h : queue lane = t :: ts) :
    (queued queue).Perm (t :: queued (update queue lane ts)) := by
  obtain ⟨others, hothers⟩ := exists_perm_queued queue lane
  have hself := hothers (queue lane)
  rw [update_eq_self, h] at hself
  exact hself.trans ((hothers ts).cons t).symm

omit [DecidableEq N] in
/-- Where no task of the receiver is, none is removed. -/
theorem Served.sweep_eq {l₁ l₂ : List (Unregistration R)} {r : R}
    (h : s.Served (.sweep l₁.length)) (hu : s.unregistering = l₁ ++ ⟨r, .paused⟩ :: l₂) :
    update s.queue .normal ((s.queue .normal).filter fun t => decide (t.receiver ≠ r)) =
      s.queue := by
  have hnone := h ⟨r, .paused⟩ (by rw [hu]; simp)
  rw [List.filter_eq_self.2 fun t ht => decide_eq_true (hnone t ht), update_eq_self]

omit [DecidableEq R] in
/-- Tasks and workers, with one of the workers replaced. -/
theorem perm_filterMap_move {f : Worker R → Option (Task R)} (l₁ l₂ : List (Worker R))
    (w : Worker R) :
    ((l₁ ++ w :: l₂).filterMap f).Perm ((f w).toList ++ (l₁ ++ l₂).filterMap f) := by
  rw [List.filterMap_append, List.filterMap_cons, List.filterMap_append]
  cases f w with
  | none => exact .refl _
  | some t => exact List.perm_middle

omit [DecidableEq R] in
/-- A worker goes on with the same task, or with none as before. -/
theorem perm_filterMap_of_eq {f : Worker R → Option (Task R)} {l₁ l₂ : List (Worker R)}
    {w w' : Worker R} (hf : f w' = f w) :
    ((l₁ ++ w' :: l₂).filterMap f).Perm ((l₁ ++ w :: l₂).filterMap f) := by
  refine (perm_filterMap_move l₁ l₂ w').trans ?_
  rw [hf]
  exact (perm_filterMap_move l₁ l₂ w).symm

section Perm

variable {l₁ l₂ : List (Worker R)} {t : Task R} {lane : Lane} {ts : List (Task R)}

omit [DecidableEq R] in
/-- The raiser makes a task. -/
theorem perm_push {others : List (Task R)} (queue : Lane → List (Task R)) (pending : List (Task R)) :
    (pending ++ (queued (update queue lane (queue lane ++ [t])) ++ others)).Perm
      (t :: pending ++ (queued queue ++ others)) := by
  refine (((perm_queued_push queue lane t).append_right others).append_left pending).trans ?_
  exact List.perm_middle

omit [DecidableEq R] in
/-- A worker takes a task. -/
theorem perm_take {f : Worker R → Option (Task R)} {queue : Lane → List (Task R)}
    (hlane : queue lane = t :: ts) (hidle : f .idle = none) (htaken : f (.taken t) = some t) :
    (queued (update queue lane ts) ++ (l₁ ++ .taken t :: l₂).filterMap f).Perm
      (queued queue ++ (l₁ ++ .idle :: l₂).filterMap f) := by
  have hworkers := perm_filterMap_move (f := f) l₁ l₂ (.taken t)
  have hidle' := perm_filterMap_move (f := f) l₁ l₂ .idle
  rw [htaken] at hworkers
  rw [hidle] at hidle'
  refine (hworkers.append_left _).trans (.trans ?_ ((perm_queued_take hlane).append
    hidle').symm)
  exact List.perm_middle

end Perm

/-- **The tasks that refer to events** stay the same, apart from those of a new event and one that
is deleted. -/
theorem Moves.perm_references (h : s.Moves l s') (hl : s.Served l) :
    s'.references.Perm s.references ∧ (∀ w, l ≠ .returned w) ∨
      (∃ name prio block, l = .raise name prio block ∧ s.raising = none ∧
        s' = s.beginRaise name prio block) ∨
        ∃ t, s.references.Perm (t :: s'.references) ∧
          s'.events = update s.events t.event (s.events t.event).decrement ∧
            ∃ w, l = .returned w := by
  cases h with
  | register hlock => exact .inl ⟨.refl _, fun _ => nofun⟩
  | raise hlock => exact .inr (.inl ⟨_, _, _, rfl, hlock, rfl⟩)
  | @push e r rs hraising hlock =>
      refine .inl ⟨?_, fun _ => nofun⟩
      rw [references, references, pendingTasks, pendingTasks, hraising]
      exact perm_push s.queue _
  | raised hraising =>
      refine .inl ⟨?_, fun _ => nofun⟩
      rw [references, references, pendingTasks, pendingTasks, hraising]
      exact .refl _
  | released hblocked hprocessed => exact .inl ⟨.refl _, fun _ => nofun⟩
  | take hworkers hlane hnext hlock =>
      refine .inl ⟨?_, fun _ => nofun⟩
      refine List.Perm.append_left _ ?_
      rw [hworkers]
      exact perm_take hlane rfl rfl
  | count hworkers =>
      refine .inl ⟨?_, fun _ => nofun⟩
      refine List.Perm.append_left _ (List.Perm.append_left _ ?_)
      rw [hworkers]
      exact perm_filterMap_of_eq rfl
  | @returned l₁ l₂ t hworkers =>
      refine .inr (.inr ⟨t, ?_, rfl, _, rfl⟩)
      rw [references, hworkers, references]
      have hrunning := perm_filterMap_move (f := Worker.task?) l₁ l₂ (.running t)
      have hfinished := perm_filterMap_move (f := Worker.task?) l₁ l₂ .finished
      have hmove : ((l₁ ++ .running t :: l₂).filterMap Worker.task?).Perm
          (t :: (l₁ ++ .finished :: l₂).filterMap Worker.task?) :=
        hrunning.trans (hfinished.symm.cons t)
      refine (((hmove.append_left _).trans List.perm_middle).append_left _).trans ?_
      exact List.perm_middle
  | finish hworkers =>
      refine .inl ⟨?_, fun _ => nofun⟩
      refine List.Perm.append_left _ (List.Perm.append_left _ ?_)
      rw [hworkers]
      exact perm_filterMap_of_eq rfl
  | resume hworkers hpause =>
      refine .inl ⟨?_, fun _ => nofun⟩
      refine List.Perm.append_left _ (List.Perm.append_left _ ?_)
      rw [hworkers]
      exact perm_filterMap_of_eq rfl
  | sweep hunregistering hlock =>
      refine .inl ⟨?_, fun _ => nofun⟩
      rw [hl.sweep_eq hunregistering]
      exact .refl _
  | _ => exact .inl ⟨.refl _, fun _ => nofun⟩

/-- **The tasks that were passed or have yet to be** stay the same, apart from those of a new event.
-/
theorem Moves.perm_outstanding (h : s.Moves l s') (hl : s.Served l) :
    (s'.passed ++ s'.outstanding).Perm (s.passed ++ s.outstanding) ∨
      ∃ name prio block, s.raising = none ∧ s' = s.beginRaise name prio block := by
  cases h with
  | raise hlock => exact .inr ⟨_, _, _, hlock, rfl⟩
  | @push e r rs hraising hlock =>
      refine .inl (List.Perm.append_left _ ?_)
      rw [outstanding, outstanding, pendingTasks, pendingTasks, hraising]
      exact perm_push s.queue _
  | raised hraising =>
      refine .inl (List.Perm.append_left _ ?_)
      rw [outstanding, outstanding, pendingTasks, pendingTasks, hraising]
      exact .refl _
  | take hworkers hlane hnext hlock =>
      refine .inl (List.Perm.append_left _ ?_)
      refine List.Perm.append_left _ ?_
      rw [hworkers]
      exact perm_take hlane rfl rfl
  | @count l₁ l₂ t hworkers =>
      refine .inl ?_
      have htaken := perm_filterMap_move (f := Worker.toPass?) l₁ l₂ (.taken t)
      have hrunning := perm_filterMap_move (f := Worker.toPass?) l₁ l₂ (.running t)
      have hmove : ((l₁ ++ .taken t :: l₂).filterMap Worker.toPass?).Perm
          (t :: (l₁ ++ .running t :: l₂).filterMap Worker.toPass?) :=
        htaken.trans (hrunning.symm.cons t)
      have hperm : s.outstanding.Perm (t :: (s.pendingTasks ++ (queued s.queue ++
          (l₁ ++ .running t :: l₂).filterMap Worker.toPass?))) := by
        rw [outstanding, hworkers]
        exact (((hmove.append_left _).trans List.perm_middle).append_left _).trans List.perm_middle
      change (s.passed ++ [t] ++ (s.pendingTasks ++ (queued s.queue ++
        (l₁ ++ .running t :: l₂).filterMap Worker.toPass?))).Perm _
      rw [List.append_assoc]
      exact (hperm.append_left _).symm
  | returned hworkers =>
      refine .inl (List.Perm.append_left _ (List.Perm.append_left _ (List.Perm.append_left _ ?_)))
      rw [hworkers]
      exact perm_filterMap_of_eq rfl
  | finish hworkers =>
      refine .inl (List.Perm.append_left _ (List.Perm.append_left _ (List.Perm.append_left _ ?_)))
      rw [hworkers]
      exact perm_filterMap_of_eq rfl
  | resume hworkers hpause =>
      refine .inl (List.Perm.append_left _ (List.Perm.append_left _ (List.Perm.append_left _ ?_)))
      rw [hworkers]
      exact perm_filterMap_of_eq rfl
  | sweep hunregistering hlock =>
      rw [hl.sweep_eq hunregistering]
      exact .inl (.refl _)
  | _ => exact .inl (.refl _)

/-! ### Events -/

/-- What an event is does not change. -/
theorem Moves.event_of_lt (h : s.Moves l s') {e : ℕ} (he : e < s.nextEvent) :
    (s'.events e).prio = (s.events e).prio ∧ (s'.events e).receivers = (s.events e).receivers ∧
      (s'.events e).autoDelete = (s.events e).autoDelete := by
  cases h with
  | @raise name prio block hlock =>
      have heq : (s.beginRaise name prio block).events e = s.events e :=
        update_of_ne (Nat.ne_of_lt he) _ _
      rw [heq]
      exact ⟨rfl, rfl, rfl⟩
  | @released e' hblocked hprocessed =>
      by_cases heq : e = e'
      · subst heq
        simp only [update_self, and_self]
      · simp only [update_of_ne heq, and_self]
  | @returned l₁ l₂ t hworkers =>
      by_cases heq : e = t.event
      · subst heq
        simp only [update_self, EventObject.decrement, and_self]
      · simp only [update_of_ne heq, and_self]
  | _ => exact ⟨rfl, rfl, rfl⟩

/-- Apart from `raiseEvent`, no step makes an event. -/
theorem Moves.nextEvent (h : s.Moves l s') : s'.nextEvent = s.nextEvent ∨
    ∃ name prio block, s.raising = none ∧ s' = s.beginRaise name prio block := by
  cases h with
  | raise hlock => exact .inr ⟨_, _, _, hlock, rfl⟩
  | _ => exact .inl rfl

/-! ### Events are passed to their receivers -/

/-- The tasks belong to events that were raised, and **each event was passed to its receivers or has
yet to be**, as often as they were registered. -/
structure Passing (s : EventSwitch N R) : Prop where
  below : ∀ t ∈ s.passed ++ s.outstanding, t.event < s.nextEvent
  passed : ∀ e < s.nextEvent, ∀ r,
    (s.passed ++ s.outstanding).count ⟨r, e⟩ = (s.events e).receivers.count r

omit [DecidableEq N] [DecidableEq R] in
/-- The tasks of a new event. -/
theorem outstanding_beginRaise (name : N) (prio : ℤ) (block : Bool) (hlock : s.raising = none) :
    (s.beginRaise name prio block).outstanding =
      ((s.getReceivers name).map fun r => ⟨r, s.nextEvent⟩) ++ s.outstanding := by
  rw [outstanding, outstanding, pendingTasks, pendingTasks, hlock]
  rfl

omit [DecidableEq N] [DecidableEq R] in
/-- The tasks of a new event. -/
theorem references_beginRaise (name : N) (prio : ℤ) (block : Bool) (hlock : s.raising = none) :
    (s.beginRaise name prio block).references =
      ((s.getReceivers name).map fun r => ⟨r, s.nextEvent⟩) ++ s.references := by
  rw [references, references, pendingTasks, pendingTasks, hlock]
  rfl

theorem Passing.step (h : s.Passing) (hl : s.Served l) (hmoves : s.Moves l s') : s'.Passing := by
  rcases hmoves.nextEvent with hnext | ⟨name, prio, block, hlock, rfl⟩
  · rcases hmoves.perm_outstanding hl with hperm | ⟨name, prio, block, -, rfl⟩
    · refine ⟨fun t ht => ?_, fun e he r => ?_⟩
      · rw [hnext]
        exact h.below t (hperm.mem_iff.1 ht)
      · rw [hnext] at he
        rw [hperm.count_eq, (hmoves.event_of_lt he).2.1]
        exact h.passed e he r
    · exact absurd hnext (Nat.succ_ne_self _)
  · -- The tasks of the new event are those to come.
    have hperm : (s.passed ++ (s.beginRaise name prio block).outstanding).Perm
        (((s.getReceivers name).map fun r => ⟨r, s.nextEvent⟩) ++ (s.passed ++ s.outstanding)) := by
      rw [outstanding_beginRaise name prio block hlock, ← List.append_assoc, ← List.append_assoc]
      exact List.perm_append_comm.append_right _
    refine ⟨fun t ht => ?_, fun e he r => ?_⟩
    · rcases List.mem_append.1 (hperm.mem_iff.1 ht) with ht | ht
      · obtain ⟨r, -, rfl⟩ := List.mem_map.1 ht
        exact Nat.lt_succ_self _
      · exact Nat.lt_succ_of_lt (h.below t ht)
    · refine (hperm.count_eq _).trans ?_
      rw [List.count_append]
      rcases Nat.lt_succ_iff_lt_or_eq.1 he with hlt | rfl
      · rw [(hmoves.event_of_lt hlt).2.1, h.passed e hlt r, List.count_eq_zero_of_not_mem,
          Nat.zero_add]
        intro hmem
        obtain ⟨r', -, heq⟩ := List.mem_map.1 hmem
        exact Nat.ne_of_gt hlt (congrArg Task.event heq)
      · have hinjective : Function.Injective fun r : R => (⟨r, s.nextEvent⟩ : Task R) :=
          fun _ _ heq => congrArg Task.receiver heq
        have hnone : (s.passed ++ s.outstanding).count ⟨r, s.nextEvent⟩ = 0 :=
          List.count_eq_zero_of_not_mem fun hmem => Nat.lt_irrefl _ (h.below _ hmem)
        rw [hnone, Nat.add_zero]
        refine (List.count_map_of_injective _ _ hinjective r).trans ?_
        change _ = ((update s.events s.nextEvent _) s.nextEvent).receivers.count r
        rw [update_self]

/-! ### Events are taken in order -/

/-- The tasks that came into a queue. -/
def laneTasks (s : EventSwitch N R) (lane : Lane) : List (Task R) :=
  s.taken.filter (fun t => decide (laneOf (s.events t.event).prio = lane)) ++ s.queue lane

/-- The tasks came into the queues of their priorities, and **in the order in which their events
were raised**. -/
structure Ordered (s : EventSwitch N R) : Prop where
  raising : ∀ e rs, s.raising = some (e, rs) → s.nextEvent = e + 1
  below : ∀ lane, ∀ t ∈ s.laneTasks lane, t.event < s.nextEvent
  prio : ∀ lane, ∀ t ∈ s.laneTasks lane, laneOf (s.events t.event).prio = lane
  order : ∀ lane, (s.laneTasks lane).Pairwise fun t t' => t.event ≤ t'.event

omit [DecidableEq N] [DecidableEq R] in
/-- A task that was taken came into the queue of its priority. -/
theorem mem_laneTasks_of_mem_taken {t : Task R} (ht : t ∈ s.taken) :
    t ∈ s.laneTasks (laneOf (s.events t.event).prio) :=
  List.mem_append_left _ (List.mem_filter.2 ⟨ht, decide_eq_true rfl⟩)

/-- **The tasks that came into a queue** stay the same, but for one that comes in. -/
theorem Ordered.laneTasks_eq (h : s.Ordered) (hl : s.Served l) (hmoves : s.Moves l s') (lane : Lane) :
    s'.laneTasks lane = s.laneTasks lane ∨ ∃ t rs, s.raising = some (t.event, rs) ∧
      laneOf (s.events t.event).prio = lane ∧ s'.laneTasks lane = s.laneTasks lane ++ [t] := by
  -- The events of the tasks that were taken are the same as before.
  have hsame : s'.taken = s.taken → s'.laneTasks lane =
      s.taken.filter (fun t => decide (laneOf (s.events t.event).prio = lane)) ++ s'.queue lane := by
    intro heq
    rw [laneTasks, heq]
    refine congrArg (· ++ s'.queue lane) (List.filter_congr fun t ht => ?_)
    rw [(hmoves.event_of_lt (h.below _ t (mem_laneTasks_of_mem_taken ht))).1]
  cases hmoves with
  | @push e r rs hraising hlock =>
      rw [hsame rfl, laneTasks]
      change _ ++ update s.queue (laneOf (s.events e).prio) _ lane = _ ∨ _
      by_cases heq : laneOf (s.events e).prio = lane
      · refine .inr ⟨⟨r, e⟩, _, hraising, heq, ?_⟩
        change _ ++ update s.queue (laneOf (s.events e).prio) _ lane = _
        rw [heq, update_self, ← List.append_assoc]
      · rw [update_of_ne (Ne.symm heq)]
        exact .inl rfl
  | @take l₁ l₂ lane' t ts hworkers hlane hnext hlock =>
      left
      have hprio : laneOf (s.events t.event).prio = lane' :=
        h.prio lane' t (List.mem_append_right _ (by rw [hlane]; exact List.mem_cons_self))
      change (s.taken ++ [t]).filter (fun t => decide (laneOf (s.events t.event).prio = lane)) ++
        update s.queue lane' ts lane = _
      rw [List.filter_append, laneTasks]
      by_cases heq : lane = lane'
      · subst heq
        rw [update_self, hlane, List.filter_singleton, decide_eq_true hprio,
          List.append_assoc]
        rfl
      · have hne : decide (laneOf (s.events t.event).prio = lane) = false :=
          decide_eq_false fun hlane' => heq (hlane'.symm.trans hprio)
        rw [update_of_ne heq, List.filter_singleton, hne]
        exact congrArg (· ++ s.queue lane) (List.append_nil _)
  | sweep hunregistering hlock =>
      left
      rw [hsame rfl, hl.sweep_eq hunregistering, laneTasks]
  | _ => exact .inl (hsame rfl)

theorem Ordered.step (h : s.Ordered) (hl : s.Served l) (hmoves : s.Moves l s') : s'.Ordered := by
  have hnext : s.nextEvent ≤ s'.nextEvent := by
    rcases hmoves.nextEvent with heq | ⟨name, prio, block, -, rfl⟩
    · exact Nat.le_of_eq heq.symm
    · exact Nat.le_succ _
  have hmem : ∀ lane, ∀ t ∈ s'.laneTasks lane,
      t.event < s.nextEvent ∧ laneOf (s.events t.event).prio = lane := by
    intro lane t ht
    rcases h.laneTasks_eq hl hmoves lane with heq | ⟨t', rs, hraising, hprio, heq⟩
    · rw [heq] at ht
      exact ⟨h.below lane t ht, h.prio lane t ht⟩
    · rw [heq] at ht
      rcases List.mem_append.1 ht with ht | ht
      · exact ⟨h.below lane t ht, h.prio lane t ht⟩
      · rw [List.mem_singleton.1 ht]
        exact ⟨by rw [h.raising _ _ hraising]; exact Nat.lt_succ_self _, hprio⟩
  refine ⟨?_, fun lane t ht => Nat.lt_of_lt_of_le (hmem lane t ht).1 hnext, fun lane t ht => ?_,
    fun lane => ?_⟩
  · cases hmoves with
    | raise hlock =>
        rintro e rs hraising
        exact congrArg (· + 1) (Prod.mk.inj (Option.some.inj hraising)).1
    | push hbefore hlock =>
        rintro e rs hraising
        obtain ⟨rfl, rfl⟩ := Prod.mk.inj (Option.some.inj hraising)
        exact h.raising _ _ hbefore
    | raised hbefore => exact fun _ _ => nofun
    | _ => exact h.raising
  · obtain ⟨hlt, hprio⟩ := hmem lane t ht
    rw [(hmoves.event_of_lt hlt).1]
    exact hprio
  · rcases h.laneTasks_eq hl hmoves lane with heq | ⟨t, rs, hraising, -, heq⟩
    · rw [heq]
      exact h.order lane
    · rw [heq]
      refine List.pairwise_append.2 ⟨h.order lane, List.pairwise_singleton _ t, fun t₁ ht₁ t₂ ht₂ => ?_⟩
      rw [List.mem_singleton.1 ht₂]
      have hlt := h.below lane t₁ ht₁
      rw [h.raising _ _ hraising] at hlt
      exact Nat.le_of_lt_succ hlt

/-! ### Events count their tasks -/

/-- **An event counts the tasks that refer to it**, and is deleted with the last of them, or by the
raiser that waits for it. -/
structure Counted (s : EventSwitch N R) (e : ℕ) : Prop where
  refCount : (s.events e).refCount = s.references.countP fun t => decide (t.event = e)
  processed : (s.events e).processed = true ↔ (s.events e).refCount = 0
  released : (s.events e).deleted = true → (s.events e).refCount = 0
  deleted_auto : (s.events e).autoDelete = true →
    ((s.events e).deleted = true ↔ (s.events e).refCount = 0)
  deleted_block : (s.events e).autoDelete = false →
    ((s.events e).deleted = true ↔ e ∉ s.blocked ∧ ∀ rs, s.raising ≠ some (e, rs))

/-- Every event is counted, and the raisers that are blocked have events of their own. -/
structure Counting (s : EventSwitch N R) : Prop where
  below : ∀ t ∈ s.references, t.event < s.nextEvent
  counted : ∀ e < s.nextEvent, s.Counted e
  nodup : s.blocked.Nodup
  blocked : ∀ e ∈ s.blocked, e < s.nextEvent ∧ (s.events e).autoDelete = false ∧
    ∀ rs, s.raising ≠ some (e, rs)
  raising : ∀ e rs, s.raising = some (e, rs) → e < s.nextEvent

omit [DecidableEq N] [DecidableEq R] in
/-- An event stays counted when nothing changes for it. -/
theorem Counted.of_eq {e : ℕ} (h : s.Counted e) (hevent : s'.events e = s.events e)
    (hcount : (s'.references.countP fun t => decide (t.event = e)) =
      s.references.countP fun t => decide (t.event = e))
    (hwaits : (e ∉ s'.blocked ∧ ∀ rs, s'.raising ≠ some (e, rs)) ↔
      e ∉ s.blocked ∧ ∀ rs, s.raising ≠ some (e, rs)) : s'.Counted e := by
  refine ⟨?_, ?_, ?_, ?_, ?_⟩
  · rw [hevent, hcount]
    exact h.refCount
  · rw [hevent]
    exact h.processed
  · rw [hevent]
    exact h.released
  · rw [hevent]
    exact h.deleted_auto
  · rw [hevent, hwaits]
    exact h.deleted_block

omit [DecidableEq N] [DecidableEq R] in
/-- A new event is counted. -/
theorem Counting.raise (h : s.Counting) (hlock : s.raising = none) {name : N} (prio : ℤ)
    (block : Bool) (hname : s.getReceivers name ≠ []) : (s.beginRaise name prio block).Counting := by
  have hreferences := references_beginRaise name prio block hlock
  have hold : ∀ e, e ≠ s.nextEvent → (s.beginRaise name prio block).events e = s.events e :=
    fun e he => update_of_ne he _ _
  have hwaits : ∀ e, e ≠ s.nextEvent → ∀ rs, (s.beginRaise name prio block).raising ≠ some (e, rs) :=
    fun e he rs heq => he (Prod.mk.inj (Option.some.inj heq)).1.symm
  refine ⟨fun t ht => ?_, fun e he => ?_, h.nodup, fun e he => ?_, fun e rs hraising => ?_⟩
  · rw [hreferences] at ht
    rcases List.mem_append.1 ht with ht | ht
    · obtain ⟨r, -, rfl⟩ := List.mem_map.1 ht
      exact Nat.lt_succ_self _
    · exact Nat.lt_succ_of_lt (h.below t ht)
  · rcases Nat.lt_succ_iff_lt_or_eq.1 he with hlt | rfl
    · have hne := Nat.ne_of_lt hlt
      refine (h.counted e hlt).of_eq (hold e hne) ?_ ?_
      · rw [hreferences, List.countP_append, List.countP_eq_zero.2, Nat.zero_add]
        intro t ht heq
        obtain ⟨r, -, rfl⟩ := List.mem_map.1 ht
        exact hne (of_decide_eq_true heq).symm
      · refine and_congr_right fun _ => iff_of_true (hwaits e hne) ?_
        rw [hlock]
        exact fun _ => nofun
    · -- The new event counts the tasks to come; there are some.
      have hnew : (s.beginRaise name prio block).events s.nextEvent =
          ⟨name, prio, !block, (s.getReceivers name).length, false, false, s.getReceivers name⟩ :=
        update_self _ _ _
      have hpos : (s.getReceivers name).length ≠ 0 := mt List.length_eq_zero_iff.1 hname
      refine ⟨?_, ?_, ?_, ?_, ?_⟩
      · have hnone : (s.references.countP fun t => decide (t.event = s.nextEvent)) = 0 :=
          List.countP_eq_zero.2 fun t ht heq =>
            Nat.ne_of_lt (h.below t ht) (of_decide_eq_true heq)
        rw [hnew, hreferences, List.countP_append, hnone, Nat.add_zero, List.countP_map]
        exact (List.countP_eq_length.2 fun r _ => decide_eq_true rfl).symm
      · rw [hnew]
        exact iff_of_false Bool.false_ne_true hpos
      · rw [hnew]
        exact fun hdeleted => absurd hdeleted Bool.false_ne_true
      · rw [hnew]
        exact fun _ => iff_of_false Bool.false_ne_true hpos
      · rw [hnew]
        exact fun _ => iff_of_false Bool.false_ne_true fun hwaits => hwaits.2 _ rfl
  · obtain ⟨hlt, hauto, -⟩ := h.blocked e he
    rw [hold e (Nat.ne_of_lt hlt)]
    exact ⟨Nat.lt_succ_of_lt hlt, hauto, hwaits e (Nat.ne_of_lt hlt)⟩
  · obtain ⟨rfl, -⟩ := Prod.mk.inj (Option.some.inj hraising)
    exact Nat.lt_succ_self _

omit [DecidableEq N] [DecidableEq R] in
/-- The events stay counted when tasks only move. -/
theorem Counting.of_perm (h : s.Counting) (hnext : s'.nextEvent = s.nextEvent)
    (hevents : s'.events = s.events) (hperm : s'.references.Perm s.references)
    (hblocked : s'.blocked = s.blocked)
    (hraising : ∀ e, (∃ rs, s'.raising = some (e, rs)) ↔ ∃ rs, s.raising = some (e, rs)) :
    s'.Counting := by
  have hwaits : ∀ e, (∀ rs, s'.raising ≠ some (e, rs)) ↔ ∀ rs, s.raising ≠ some (e, rs) := fun e => by
    rw [← not_exists, ← not_exists, hraising]
  refine ⟨fun t ht => ?_, fun e he => ?_, ?_, fun e he => ?_, fun e rs hrs => ?_⟩
  · rw [hnext]
    exact h.below t (hperm.mem_iff.1 ht)
  · rw [hnext] at he
    refine (h.counted e he).of_eq (congrFun hevents e) (hperm.countP_eq _) ?_
    rw [hblocked, hwaits]
  · rw [hblocked]
    exact h.nodup
  · rw [hblocked] at he
    rw [hnext, hevents, hwaits]
    exact h.blocked e he
  · obtain ⟨rs', hrs'⟩ := (hraising e).1 ⟨rs, hrs⟩
    rw [hnext]
    exact h.raising e rs' hrs'

omit [DecidableEq N] [DecidableEq R] in
/-- A blocking raiser waits, once its event is raised. -/
theorem Counting.raised (h : s.Counting) {e : ℕ} (hraising : s.raising = some (e, [])) :
    Counting { s with
      raising := none
      blocked := if (s.events e).autoDelete then s.blocked else e :: s.blocked } := by
  have hreferences : s.references = references { s with
      raising := none
      blocked := if (s.events e).autoDelete then s.blocked else e :: s.blocked } := by
    rw [references, references, pendingTasks, pendingTasks, hraising]
    rfl
  have he : e < s.nextEvent := h.raising e [] hraising
  have hnot : e ∉ s.blocked := fun hmem => (h.blocked e hmem).2.2 [] hraising
  have hmem : ∀ e' ∈ if (s.events e).autoDelete then s.blocked else e :: s.blocked,
      e' ∈ s.blocked ∨ e' = e ∧ (s.events e).autoDelete = false := by
    intro e' he'
    split_ifs at he' with hauto
    · exact .inl he'
    · rcases List.mem_cons.1 he' with rfl | he'
      · exact .inr ⟨rfl, Bool.eq_false_iff.2 hauto⟩
      · exact .inl he'
  refine ⟨fun t ht => h.below t (hreferences ▸ ht), fun e' he' => ?_, ?_, fun e' he' => ?_,
    fun _ _ => nofun⟩
  · have hold := h.counted e' he'
    refine ⟨?_, hold.processed, hold.released, hold.deleted_auto, fun hauto => ?_⟩
    · rw [← hreferences]
      exact hold.refCount
    · refine (hold.deleted_block hauto).trans ?_
      by_cases heq : e' = e
      · subst heq
        refine iff_of_false (fun hwaits => hwaits.2 [] hraising) fun hwaits => hwaits.1 ?_
        rw [hauto]
        exact List.mem_cons_self
      · have hother : ∀ rs, s.raising ≠ some (e', rs) := fun rs hrs =>
          heq (Prod.mk.inj (Option.some.inj (hrs.symm.trans hraising))).1
        have hiff : (e' ∈ if (s.events e).autoDelete then s.blocked else e :: s.blocked) ↔
            e' ∈ s.blocked := by
          refine ⟨fun hmem' => (hmem e' hmem').resolve_right fun hr => heq hr.1, fun hmem' => ?_⟩
          split_ifs
          · exact hmem'
          · exact List.mem_cons_of_mem e hmem'
        exact and_congr (not_congr hiff.symm) (iff_of_true hother fun _ => nofun)
  · change (if (s.events e).autoDelete then s.blocked else e :: s.blocked).Nodup
    split_ifs
    · exact h.nodup
    · exact List.nodup_cons.2 ⟨hnot, h.nodup⟩
  · rcases hmem e' he' with hbefore | ⟨rfl, hauto⟩
    · obtain ⟨hlt, hauto, -⟩ := h.blocked e' hbefore
      exact ⟨hlt, hauto, fun _ => nofun⟩
    · exact ⟨he, hauto, fun _ => nofun⟩

omit [DecidableEq N] [DecidableEq R] in
/-- A blocking raiser deletes its event. -/
theorem Counting.released (h : s.Counting) {e : ℕ} (hmem : e ∈ s.blocked)
    (hprocessed : (s.events e).processed = true) (hreferences : s'.references = s.references)
    (hnext : s'.nextEvent = s.nextEvent) (hraising : s'.raising = s.raising)
    (hblocked : s'.blocked = s.blocked.erase e)
    (hevents : s'.events = update s.events e { s.events e with deleted := true }) :
    s'.Counting := by
  obtain ⟨he, hauto, hwaits⟩ := h.blocked e hmem
  have hother : ∀ e', e' ≠ e → s'.events e' = s.events e' := fun e' hne => by
    rw [hevents, update_of_ne hne]
  refine ⟨fun t ht => ?_, fun e' he' => ?_, ?_, fun e' he' => ?_, ?_⟩
  · rw [hreferences] at ht
    rw [hnext]
    exact h.below t ht
  · rw [hnext] at he'
    by_cases heq : e' = e
    · subst heq
      have hold := h.counted e' he'
      have hevent : s'.events e' = { s.events e' with deleted := true } := by
        rw [hevents, update_self]
      refine ⟨?_, ?_, ?_, ?_, ?_⟩
      · rw [hevent, hreferences]
        exact hold.refCount
      · rw [hevent]
        exact hold.processed
      · rw [hevent]
        exact fun _ => hold.processed.1 hprocessed
      · rw [hevent]
        exact fun hauto' => absurd (hauto.symm.trans hauto') Bool.false_ne_true
      · rw [hevent, hblocked, hraising]
        exact fun _ => iff_of_true rfl ⟨h.nodup.not_mem_erase, hwaits⟩
    · refine (h.counted e' he').of_eq (hother e' heq) (by rw [hreferences]) ?_
      rw [hblocked, hraising, List.mem_erase_of_ne heq]
  · rw [hblocked]
    exact h.nodup.erase e
  · rw [hblocked] at he'
    obtain ⟨hne, hbefore⟩ := h.nodup.mem_erase_iff.1 he'
    rw [hnext, hraising, hother e' hne]
    exact h.blocked e' hbefore
  · rw [hraising, hnext]
    exact h.raising

omit [DecidableEq N] [DecidableEq R] in
/-- An event that counts a task less is deleted if it was the last one, and nobody waits for it. -/
theorem Counted.decrement {t : Task R} (h : s.Counted t.event)
    (hevent : s'.events t.event = (s.events t.event).decrement)
    (hcount : (s.references.countP fun t' => decide (t'.event = t.event)) =
      (s'.references.countP fun t' => decide (t'.event = t.event)) + 1)
    (hblocked : s'.blocked = s.blocked) (hraising : s'.raising = s.raising) :
    s'.Counted t.event := by
  have hrefCount := h.refCount.trans hcount
  -- There was a task, so the event was not deleted.
  have hdeleted : (s.events t.event).deleted = false := by
    refine Bool.eq_false_iff.2 fun hdeleted => Nat.succ_ne_zero _ (hrefCount.symm.trans ?_)
    exact h.released hdeleted
  have hiff : s'.events t.event = { s.events t.event with
      refCount := (s.events t.event).refCount - 1
      processed := decide ((s.events t.event).refCount - 1 = 0)
      deleted := (s.events t.event).autoDelete && decide ((s.events t.event).refCount - 1 = 0) } := by
    rw [hevent, EventObject.decrement, hdeleted, Bool.false_or]
  refine ⟨?_, ?_, ?_, ?_, ?_⟩
  · rw [hiff]
    exact congrArg (· - 1) hrefCount
  · rw [hiff]
    exact decide_eq_true_iff
  · rw [hiff]
    exact fun hand => of_decide_eq_true (Bool.and_eq_true_iff.1 hand).2
  · rw [hiff]
    intro hauto
    change ((s.events t.event).autoDelete && _) = true ↔ _
    rw [show (s.events t.event).autoDelete = true from hauto, Bool.true_and]
    exact decide_eq_true_iff
  · rw [hiff, hblocked, hraising]
    intro hauto
    change ((s.events t.event).autoDelete && _) = true ↔ _
    rw [show (s.events t.event).autoDelete = false from hauto, Bool.false_and, ← hdeleted]
    exact h.deleted_block hauto

omit [DecidableEq N] [DecidableEq R] in
/-- A task is deleted. -/
theorem Counting.deleted (h : s.Counting) {t : Task R}
    (hperm : s.references.Perm (t :: s'.references)) (hnext : s'.nextEvent = s.nextEvent)
    (hevents : s'.events = update s.events t.event (s.events t.event).decrement)
    (hblocked : s'.blocked = s.blocked) (hraising : s'.raising = s.raising) : s'.Counting := by
  have hother : ∀ e, e ≠ t.event → s'.events e = s.events e := fun e hne => by
    rw [hevents, update_of_ne hne]
  have hauto : ∀ e, (s'.events e).autoDelete = (s.events e).autoDelete := fun e => by
    by_cases heq : e = t.event
    · subst heq
      rw [hevents, update_self]
      rfl
    · rw [hother e heq]
  refine ⟨fun t' ht' => ?_, fun e he => ?_, hblocked ▸ h.nodup, fun e he => ?_, ?_⟩
  · rw [hnext]
    exact h.below t' (hperm.mem_iff.2 (List.mem_cons_of_mem t ht'))
  · rw [hnext] at he
    have hcount := hperm.countP_eq fun t => decide (t.event = e)
    rw [List.countP_cons] at hcount
    by_cases heq : e = t.event
    · subst heq
      rw [if_pos (decide_eq_true rfl)] at hcount
      refine (h.counted _ he).decrement ?_ hcount hblocked hraising
      rw [hevents, update_self]
    · rw [if_neg (mt of_decide_eq_true (Ne.symm heq)), Nat.add_zero] at hcount
      refine (h.counted e he).of_eq (hother e heq) hcount.symm ?_
      rw [hblocked, hraising]
  · rw [hblocked] at he
    rw [hnext, hraising, hauto]
    exact h.blocked e he
  · rw [hraising, hnext]
    exact h.raising

theorem Counting.step (h : s.Counting) (hl : s.Served l) (hmoves : s.Moves l s') :
    s'.Counting := by
  rcases hmoves.perm_references hl with ⟨hperm, hreturned⟩ |
    ⟨name, prio, block, rfl, hlock, rfl⟩ | ⟨t, hperm, hevents, w, rfl⟩
  · cases hmoves with
    | raise hlock => exact h.raise hlock _ _ hl
    | push hraising hlock =>
        refine h.of_perm rfl rfl hperm rfl fun e => ?_
        rw [hraising]
        constructor
        · rintro ⟨rs, hrs⟩
          exact ⟨_, congrArg (fun e => some (e, _)) (Prod.mk.inj (Option.some.inj hrs)).1⟩
        · rintro ⟨rs, hrs⟩
          exact ⟨_, congrArg (fun e => some (e, _)) (Prod.mk.inj (Option.some.inj hrs)).1⟩
    | raised hraising => exact h.raised hraising
    | released hblocked hprocessed => exact h.released hblocked hprocessed rfl rfl rfl rfl rfl
    | returned hworkers => exact absurd rfl (hreturned _)
    | _ => exact h.of_perm rfl rfl hperm rfl fun _ => Iff.rfl
  · exact h.raise hlock prio block hl
  · cases hmoves with
    | returned hworkers => exact h.deleted hperm rfl hevents rfl rfl

/-! ### The threads finish -/

/-- The steps that bring nothing new: no receiver is registered or unregistered, and no event
raised. -/
def Internal : Label N R → Prop
  | .register _ _ | .raise _ _ _ | .unregister _ _ => False
  | _ => True

/-- The steps that a worker has in front of it. -/
def Worker.work : Worker R → ℕ
  | .idle => 0
  | .waiting => 1
  | .finished => 2
  | .running _ => 3
  | .taken _ => 4

/-- The steps that `unregister` has in front of it. -/
def Phase.work : Phase → ℕ
  | .swept => 1
  | .paused => 2
  | .pausing => 3
  | .removed => 4

/-- The steps that all threads have in front of them. -/
def work (s : EventSwitch N R) : ℕ :=
  6 * s.pendingTasks.length + (if s.raising.isSome then 2 else 0) + 5 * (queued s.queue).length +
    (s.workers.map Worker.work).sum + (s.unregistering.map fun u => u.phase.work).sum +
      s.blocked.length

omit [DecidableEq N] [DecidableEq R] in
/-- A sum, with one of its summands replaced. -/
theorem sum_map_middle {α : Type} (l₁ l₂ : List α) (a : α) (f : α → ℕ) :
    ((l₁ ++ a :: l₂).map f).sum = f a + ((l₁ ++ l₂).map f).sum := by
  rw [(List.perm_middle.map f).sum_nat, List.map_cons, List.sum_cons]

/-- **Every step that brings nothing new leaves less to do.** -/
theorem Moves.work_lt (h : s.Moves l s') (hl : Internal l) : s'.work < s.work := by
  cases h with
  | @push e r rs hraising hlock =>
      have hqueue := (perm_queued_push s.queue (laneOf (s.events e).prio) ⟨r, e⟩).length_eq
      rw [List.length_cons] at hqueue
      have hpending : s.pendingTasks.length = rs.length + 1 := by
        rw [pendingTasks, hraising, List.length_map, List.length_cons]
      have hpending' : (s.pushTask e r rs).pendingTasks.length = rs.length := by
        rw [pendingTasks, pushTask, List.length_map]
      rw [work, work, hpending, hpending', hraising]
      change _ + 5 * (queued (update _ _ _)).length + (s.workers.map _).sum +
        (s.unregistering.map _).sum + s.blocked.length < _
      rw [hqueue]
      simp only [pushTask, Option.isSome_some, if_true]
      omega
  | @raised e hraising =>
      have hpending : s.pendingTasks.length = 0 := by
        rw [pendingTasks, hraising]
        rfl
      have hblocked : (if (s.events e).autoDelete then s.blocked else e :: s.blocked).length ≤
          s.blocked.length + 1 := by
        split_ifs
        · exact Nat.le_succ _
        · exact Nat.le_refl _
      rw [work, work, hpending, hraising]
      simp only [pendingTasks, List.length_nil, Option.isSome_none, Option.isSome_some, if_true,
        Bool.false_eq_true, if_false]
      omega
  | @released e hblocked hprocessed =>
      have hlength := List.length_erase_of_mem hblocked
      have hpos := List.length_pos_of_mem hblocked
      rw [work, work]
      simp only [pendingTasks, hlength]
      omega
  | @take l₁ l₂ lane t ts hworkers hlane hnext hlock =>
      have hqueue := (perm_queued_take hlane).length_eq
      rw [List.length_cons] at hqueue
      rw [work, work, hworkers, hqueue]
      simp only [pendingTasks, sum_map_middle, Worker.work]
      omega
  | @count l₁ l₂ t hworkers =>
      rw [work, work, hworkers]
      simp only [pendingTasks, sum_map_middle, Worker.work]
      omega
  | @returned l₁ l₂ t hworkers =>
      rw [work, work, hworkers]
      simp only [pendingTasks, sum_map_middle, Worker.work]
      omega
  | @finish l₁ l₂ hworkers =>
      rw [work, work, hworkers]
      simp only [pendingTasks, sum_map_middle, Worker.work]
      omega
  | @resume l₁ l₂ hworkers hpause =>
      rw [work, work, hworkers]
      simp only [pendingTasks, sum_map_middle, Worker.work]
      omega
  | @setPause l₁ l₂ r hunregistering =>
      rw [work, work, hunregistering]
      simp only [pendingTasks, sum_map_middle, Phase.work]
      omega
  | @drained l₁ l₂ r hunregistering hactive =>
      rw [work, work, hunregistering]
      simp only [pendingTasks, sum_map_middle, Phase.work]
      omega
  | @sweep l₁ l₂ r hunregistering hlock =>
      have hqueue : (queued (update s.queue .normal
          ((s.queue .normal).filter fun t => decide (t.receiver ≠ r)))).length ≤
            (queued s.queue).length := by
        have hfilter := List.length_filter_le (fun t : Task R => decide (t.receiver ≠ r))
          (s.queue .normal)
        obtain ⟨others, hothers⟩ := exists_perm_queued s.queue .normal
        have hself := hothers (s.queue .normal)
        rw [update_eq_self] at hself
        rw [(hothers _).length_eq, hself.length_eq, List.length_append, List.length_append]
        exact Nat.add_le_add_right hfilter _
      rw [work, work, hunregistering]
      simp only [pendingTasks, sum_map_middle, Phase.work]
      omega
  | @unpause l₁ l₂ r hunregistering =>
      rw [work, work, hunregistering]
      simp only [pendingTasks, sum_map_middle, Phase.work]
      omega
  | _ => exact absurd hl not_false

/-- What the threads that wait rely on: `_active_worker` counts the workers, and the switch is
paused by someone. -/
structure Waiting (s : EventSwitch N R) : Prop where
  active : s.activeWorker = s.workers.countP Worker.active
  pause : s.pause = true → ∃ u ∈ s.unregistering, u.phase ≠ .removed

theorem Waiting.step (h : s.Waiting) (hmoves : s.Moves l s') : s'.Waiting := by
  refine ⟨hmoves.active h.active, fun hpause => ?_⟩
  cases hmoves with
  | unregister hlock =>
      obtain ⟨u, hu, hphase⟩ := h.pause hpause
      exact ⟨u, List.mem_append_left _ hu, hphase⟩
  | setPause hunregistering => exact ⟨_, List.mem_append_right _ List.mem_cons_self, nofun⟩
  | drained hunregistering hactive => exact ⟨_, List.mem_append_right _ List.mem_cons_self, nofun⟩
  | sweep hunregistering hlock => exact ⟨_, List.mem_append_right _ List.mem_cons_self, nofun⟩
  | unpause hunregistering => exact absurd hpause Bool.false_ne_true
  | _ => exact h.pause hpause

/-- No thread can make a step, unless something new comes. -/
def Stuck (s : EventSwitch N R) : Prop := ∀ l, Internal l → s.step l = none

/-- A worker of a switch that is stuck looks for a task, or waits for the end of a pause. -/
theorem Stuck.worker (h : s.Stuck) {w : Worker R} (hw : w ∈ s.workers) :
    w = .idle ∨ w = .waiting := by
  obtain ⟨i, hi⟩ := List.getElem?_of_mem hw
  cases w with
  | idle => exact .inl rfl
  | taken t =>
      have hstep := h (.count i) trivial
      rw [step, hi] at hstep
      cases hstep
  | running t =>
      have hstep := h (.returned i) trivial
      rw [step, hi] at hstep
      cases hstep
  | finished =>
      have hstep := h (.finish i) trivial
      rw [step, hi] at hstep
      cases hstep
  | waiting => exact .inr rfl

theorem Stuck.locked (h : s.Stuck) : s.locked = false := by
  refine List.any_eq_false.2 fun w hw => ?_
  rcases h.worker hw with rfl | rfl
  · exact Bool.false_ne_true
  · exact Bool.false_ne_true

/-- The threads that unregister a receiver are not held up. -/
theorem Stuck.unregistering (h : s.Stuck) (hs : s.Waiting) : s.unregistering = [] := by
  refine List.eq_nil_iff_forall_not_mem.2 fun u hu => ?_
  obtain ⟨i, hi⟩ := List.getElem?_of_mem hu
  obtain ⟨r, phase⟩ := u
  cases phase with
  | removed =>
      have hstep := h (.setPause i) trivial
      rw [step, hi] at hstep
      cases hstep
  | pausing =>
      have hactive : s.activeWorker = 0 := by
        refine hs.active.trans (List.countP_eq_zero.2 fun w hw => ?_)
        rcases h.worker hw with rfl | rfl
        · exact Bool.false_ne_true
        · exact Bool.false_ne_true
      have hstep := h (.drained i) trivial
      rw [step, hi] at hstep
      simp only [hactive, if_true, reduceCtorEq] at hstep
  | paused =>
      have hstep := h (.sweep i) trivial
      rw [step, hi] at hstep
      simp only [h.locked, Bool.false_eq_true, if_false, reduceCtorEq] at hstep
  | swept =>
      have hstep := h (.unpause i) trivial
      rw [step, hi] at hstep
      cases hstep

/-- The workers are not held up. -/
theorem Stuck.idle (h : s.Stuck) (hs : s.Waiting) {w : Worker R} (hw : w ∈ s.workers) :
    w = .idle := by
  refine (h.worker hw).resolve_right ?_
  rintro rfl
  obtain ⟨i, hi⟩ := List.getElem?_of_mem hw
  have hpause : s.pause = false := by
    refine Bool.eq_false_iff.2 fun hpause => ?_
    obtain ⟨u, hu, -⟩ := hs.pause hpause
    rw [h.unregistering hs] at hu
    exact List.not_mem_nil hu
  have hstep := h (.resume i) trivial
  rw [step, hi] at hstep
  simp only [hpause, Bool.false_eq_true, if_false, reduceCtorEq] at hstep

/-- No task is left in the queues. -/
theorem Stuck.queued (h : s.Stuck) (hs : s.Waiting) (hworkers : s.workers ≠ []) :
    queued s.queue = [] := by
  obtain ⟨w, hw⟩ := List.exists_mem_of_ne_nil _ hworkers
  obtain ⟨i, hi⟩ := List.getElem?_of_mem hw
  rw [h.idle hs hw] at hi
  have hstep := h (.take i) trivial
  rw [step, hi] at hstep
  have hnext : s.nextTask = none := by
    rcases hnext : s.nextTask with _ | ⟨lane, t, ts⟩
    · rfl
    · simp only [hnext, h.locked, Bool.false_eq_true, if_false, reduceCtorEq] at hstep
  rw [nextTask] at hnext
  rcases hprio : s.queue .prio with _ | ⟨t, ts⟩
  · rcases hnormal : s.queue .normal with _ | ⟨t, ts⟩
    · rcases hlow : s.queue .low with _ | ⟨t, ts⟩
      · rw [EventSwitch.queued, hprio, hnormal, hlow]
        rfl
      · simp only [hprio, hnormal, hlow, reduceCtorEq] at hnext
    · simp only [hprio, hnormal, reduceCtorEq] at hnext
  · simp only [hprio, reduceCtorEq] at hnext

/-- The raiser is not held up. -/
theorem Stuck.raising (h : s.Stuck) : s.raising = none := by
  rcases hraising : s.raising with _ | ⟨e, _ | ⟨r, rs⟩⟩
  · rfl
  · have hstep := h .raised trivial
    rw [step, hraising] at hstep
    cases hstep
  · have hstep := h .push trivial
    rw [step, hraising] at hstep
    simp only [h.locked, Bool.false_eq_true, if_false, reduceCtorEq] at hstep

/-- **When the threads have nothing left to do**, no task refers to an event, all tasks were passed
to their receivers, all events are deleted, and nobody is blocked. -/
theorem Stuck.quiet (h : s.Stuck) (hs : s.Waiting) (hcounting : s.Counting)
    (hworkers : s.workers ≠ []) :
    s.references = [] ∧ s.outstanding = [] ∧ s.blocked = [] ∧
      ∀ e < s.nextEvent, (s.events e).deleted = true := by
  have hidle : ∀ f : Worker R → Option (Task R), f .idle = none → s.workers.filterMap f = [] := by
    refine fun f hf => List.filterMap_eq_nil_iff.2 fun w hw => ?_
    rw [h.idle hs hw, hf]
  have hreferences : s.references = [] := by
    rw [references, pendingTasks, h.raising, h.queued hs hworkers, hidle _ rfl]
    rfl
  have houtstanding : s.outstanding = [] := by
    rw [outstanding, pendingTasks, h.raising, h.queued hs hworkers, hidle _ rfl]
    rfl
  have hrefCount : ∀ e < s.nextEvent, (s.events e).refCount = 0 := fun e he => by
    rw [(hcounting.counted e he).refCount, hreferences]
    rfl
  have hblocked : s.blocked = [] := by
    refine List.eq_nil_iff_forall_not_mem.2 fun e hmem => ?_
    have he := (hcounting.blocked e hmem).1
    have hstep := h (.released e) trivial
    rw [step, if_pos ⟨hmem, (hcounting.counted e he).processed.2 (hrefCount e he)⟩] at hstep
    cases hstep
  refine ⟨hreferences, houtstanding, hblocked, fun e he => ?_⟩
  have hcounted := hcounting.counted e he
  rcases hauto : (s.events e).autoDelete with _ | _
  · refine (hcounted.deleted_block hauto).2 ⟨?_, ?_⟩
    · rw [hblocked]
      exact List.not_mem_nil
    · rw [h.raising]
      rintro _ ⟨⟩
  · exact (hcounted.deleted_auto hauto).2 (hrefCount e he)

/-! ### Runs -/

/-- **The events are delivered and released as they should be**: each of them was passed, or has yet
to be, to every receiver that was registered for its name, as often as it was registered; the tasks
with one priority were taken in the order in which their events were raised; no event is deleted
that a task refers to; and an event that no task refers to is deleted, by the last task or by its
raiser, who goes on. -/
structure Delivered (s : EventSwitch N R) : Prop where
  passed : ∀ e < s.nextEvent, ∀ r,
    (s.passed ++ s.outstanding).count ⟨r, e⟩ = (s.events e).receivers.count r
  order : ∀ prio, (s.taken.filter fun t => decide ((s.events t.event).prio = prio)).Pairwise
    fun t t' => t.event ≤ t'.event
  referred : ∀ t ∈ s.references, (s.events t.event).deleted = false
  deleted : ∀ e < s.nextEvent, (s.events e).autoDelete = true →
    (∀ t ∈ s.references, t.event ≠ e) → (s.events e).deleted = true
  released : ∀ e < s.nextEvent, (s.events e).autoDelete = false →
    (∀ t ∈ s.references, t.event ≠ e) →
      (s.events e).deleted = true ∨ s.raising = some (e, []) ∨ (s.step (.released e)).isSome = true

/-- What holds behind every run of served steps. -/
structure Sound (s : EventSwitch N R) : Prop where
  passing : s.Passing
  ordered : s.Ordered
  counting : s.Counting
  waiting : s.Waiting

theorem Sound.step (h : s.Sound) (hl : s.Served l) (hmoves : s.Moves l s') : s'.Sound :=
  ⟨h.passing.step hl hmoves, h.ordered.step hl hmoves, h.counting.step hl hmoves,
    h.waiting.step hmoves⟩

omit [DecidableEq N] in
theorem sound_start [Inhabited N] (n : ℕ) : (start n : EventSwitch N R).Sound := by
  have hidle : ∀ f : Worker R → Option (Task R), f .idle = none →
      (start n : EventSwitch N R).workers.filterMap f = [] := by
    refine fun f hf => List.filterMap_eq_nil_iff.2 fun w hw => ?_
    rw [List.eq_of_mem_replicate hw, hf]
  have hreferences : (start n : EventSwitch N R).references = [] := by
    rw [references, hidle _ rfl]
    rfl
  have houtstanding : (start n : EventSwitch N R).outstanding = [] := by
    rw [outstanding, hidle _ rfl]
    rfl
  refine ⟨⟨fun t ht => ?_, fun _ => nofun⟩, ⟨fun _ _ => nofun, fun _ _ => nofun, fun _ _ => nofun,
    fun _ => .nil⟩, ⟨fun t ht => ?_, fun _ => nofun, .nil, fun _ => nofun, fun _ _ => nofun⟩,
    (safe_start (R := R) n).active, nofun⟩
  · rw [houtstanding] at ht
    exact absurd ht List.not_mem_nil
  · rw [hreferences] at ht
    exact absurd ht List.not_mem_nil

theorem Sound.delivered (h : s.Sound) : s.Delivered := by
  have hzero : ∀ e < s.nextEvent, (∀ t ∈ s.references, t.event ≠ e) → (s.events e).refCount = 0 := by
    intro e he hnone
    rw [(h.counting.counted e he).refCount]
    exact List.countP_eq_zero.2 fun t ht heq => hnone t ht (of_decide_eq_true heq)
  refine ⟨h.passing.passed, fun prio => ?_, fun t ht => ?_, fun e he hauto hnone => ?_,
    fun e he hauto hnone => ?_⟩
  · refine (h.ordered.order (laneOf prio)).sublist ?_
    refine (List.monotone_filter_right s.taken fun t ht => ?_).trans (List.sublist_append_left _ _)
    rw [of_decide_eq_true ht]
    exact decide_eq_true rfl
  · have hcounted := h.counting.counted t.event (h.counting.below t ht)
    refine Bool.eq_false_iff.2 fun hdeleted => ?_
    have hcount := hcounted.refCount.symm.trans (hcounted.released hdeleted)
    exact List.countP_eq_zero.1 hcount t ht (decide_eq_true rfl)
  · exact ((h.counting.counted e he).deleted_auto hauto).2 (hzero e he hnone)
  · have hcounted := h.counting.counted e he
    by_cases hraising : s.raising = some (e, [])
    · exact .inr (.inl hraising)
    · by_cases hblocked : e ∈ s.blocked
      · refine .inr (.inr ?_)
        rw [EventSwitch.step, if_pos ⟨hblocked, hcounted.processed.2 (hzero e he hnone)⟩]
        rfl
      · refine .inl ((hcounted.deleted_block hauto).2 ⟨hblocked, fun rs hrs => ?_⟩)
        cases rs with
        | nil => exact hraising hrs
        | cons r rs =>
            -- The raiser has a task of the event to make.
            refine hnone ⟨r, e⟩ (List.mem_append_left _ ?_) rfl
            rw [pendingTasks, hrs]
            exact List.mem_cons_self

/-- The workers stay. -/
theorem Moves.length_workers (h : s.Moves l s') : s'.workers.length = s.workers.length := by
  cases h with
  | take hworkers hlane hnext hlock => simp only [hworkers, List.length_append, List.length_cons]
  | count hworkers => simp only [hworkers, List.length_append, List.length_cons]
  | returned hworkers => simp only [hworkers, List.length_append, List.length_cons]
  | finish hworkers => simp only [hworkers, List.length_append, List.length_cons]
  | resume hworkers hpause => simp only [hworkers, List.length_append, List.length_cons]
  | _ => rfl

/-- **Every event is delivered and released exactly once.** Behind every run of served steps, the
events are delivered and released as they should be. From there the threads can only make as many
steps as there is work; and when none of them can make a step, no task is left, each event was
passed to all its receivers and is deleted, and nobody is blocked. -/
theorem delivered_run [Inhabited N] {n : ℕ} {labels : List (Label N R)} {s : EventSwitch N R}
    (h : Transition.Run (fun s l s' => s.step l = some s') Served (start n) labels s) :
    s.Delivered ∧ ∀ later s', Transition.Run (fun s l s' => s.step l = some s')
        (fun s l => s.Served l ∧ Internal l) s later s' →
      s'.Delivered ∧ later.length + s'.work ≤ s.work ∧
        (n ≠ 0 → s'.Stuck → s'.references = [] ∧ s'.blocked = [] ∧ ∀ e < s'.nextEvent,
          (s'.events e).deleted = true ∧
            ∀ r, s'.passed.count ⟨r, e⟩ = (s'.events e).receivers.count r) := by
  have hsound : s.Sound := h.invariant (sound_start n) fun _ _ _ hs hl hstep =>
    hs.step hl (moves_of_step hstep)
  have hlength : s.workers.length = n := by
    refine h.invariant (I := fun s => s.workers.length = n) List.length_replicate ?_
    exact fun _ _ _ hs _ hstep => (moves_of_step hstep).length_workers.trans hs
  refine ⟨hsound.delivered, fun later s' hrun => ?_⟩
  have hlater : s'.Sound ∧ s'.workers.length = n ∧ later.length + s'.work ≤ s.work := by
    induction hrun with
    | nil => exact ⟨hsound, hlength, Nat.le_of_eq (Nat.zero_add _)⟩
    | snoc _ hl hstep ih =>
        obtain ⟨hs, hworkers, hwork⟩ := ih
        have hmoves := moves_of_step hstep
        refine ⟨hs.step hl.1 hmoves, hmoves.length_workers.trans hworkers, ?_⟩
        have hless := hmoves.work_lt hl.2
        rw [List.length_append, List.length_singleton]
        omega
  obtain ⟨hs', hworkers, hwork⟩ := hlater
  refine ⟨hs'.delivered, hwork, fun hn hstuck => ?_⟩
  have hne : s'.workers ≠ [] := fun hnil => hn (by rw [← hworkers, hnil]; rfl)
  obtain ⟨hreferences, houtstanding, hblocked, hdeleted⟩ :=
    hstuck.quiet hs'.waiting hs'.counting hne
  refine ⟨hreferences, hblocked, fun e he => ⟨hdeleted e he, fun r => ?_⟩⟩
  have hpassed := hs'.passing.passed e he r
  rwa [houtstanding, List.append_nil] at hpassed

/-- A receiver is registered, and a worker passes it an event. -/
def deliveredLabels : List (Label ℕ ℕ) :=
  [.register 0 7, .raise 0 0 true, .push, .raised, .take 0, .count 0, .returned 0, .released 0]

theorem delivered_run_sample : ∃ s, after 1 deliveredLabels = some s ∧ s.Delivered ∧
    ∀ later s', Transition.Run (fun s l s' => s.step l = some s')
        (fun s l => s.Served l ∧ Internal l) s later s' →
      s'.Delivered ∧ later.length + s'.work ≤ s.work ∧
        ((1 : ℕ) ≠ 0 → s'.Stuck → s'.references = [] ∧ s'.blocked = [] ∧ ∀ e < s'.nextEvent,
          (s'.events e).deleted = true ∧
            ∀ r, s'.passed.count ⟨r, e⟩ = (s'.events e).receivers.count r) := by
  have hrun : ∃ s, after 1 deliveredLabels = some s ∧
      Transition.Run (fun s l s' => s.step l = some s') Served (start 1) deliveredLabels s := by
    refine ⟨_, rfl, ?_⟩
    refine .snoc (.snoc (.snoc (.snoc (.snoc (.snoc (.snoc (.snoc .nil trivial rfl) ?_ rfl) trivial
      rfl) trivial rfl) trivial rfl) trivial rfl) trivial rfl) trivial rfl
    exact List.cons_ne_nil 7 []
  obtain ⟨s, hafter, hrun⟩ := hrun
  exact ⟨s, hafter, delivered_run hrun⟩

/-- **An event without receivers is never released**, and its raiser waits; **and a task that is
removed from its queue keeps its event**, which the receiver does not get although it is still
registered for its name. -/
theorem not_delivered_after :
    (∃ s, after 1 [.raise 0 0 true, .raised] = some s ∧ s.blocked = [0] ∧ ¬ s.Delivered) ∧
    ∃ s, after 1 [.register 0 7, .raise 0 0 false, .push, .raised, .unregister 1 7, .setPause 0,
        .drained 0, .sweep 0, .unpause 0] = some s ∧
      (∀ r, r ∈ s.getReceivers 0 ↔ r = 7) ∧ ¬ s.Delivered := by
  refine ⟨⟨_, rfl, rfl, fun h => ?_⟩, ⟨_, rfl, fun r => List.mem_singleton, fun h => ?_⟩⟩
  · rcases h.released 0 Nat.zero_lt_one rfl nofun with hdeleted | hraising | hstep
    · exact Bool.false_ne_true hdeleted
    · cases hraising
    · exact Bool.false_ne_true hstep
  · exact Bool.false_ne_true (h.deleted 0 Nat.zero_lt_one rfl nofun)

end EventSwitch

end IbrDtn
