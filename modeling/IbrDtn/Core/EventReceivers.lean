import IbrDtn.Core.EventSwitch
import IbrDtn.Library.Transition

/-!
# Receivers that are unregistered

A thread that unregisters a receiver removes it from the list, waits in `pause` until no worker is
counted, removes the tasks of the receiver from the queue for normal events, and lets the workers go
on.  This file shows in which runs nobody has a task of the receiver behind that: a worker must not
take one between `pause` and the removal, nor be on its way from `_queue_cond` to `_active_cond` with
one when `pause` ends, and there must be none in the queues for other priorities.

## Main definitions

* `EventSwitch.Registered`, `EventSwitch.Clear` : who is registered, and who has no tasks.
* `EventSwitch.Quiet` : the steps at which no task of a receiver slips through.

## Main results

* `EventSwitch.Forgotten.step` : a receiver without tasks gets none unless it is registered again.
* `EventSwitch.clear_run` : behind every run of quiet steps a receiver that is unregistered has no
  tasks.
-/

namespace IbrDtn

namespace EventSwitch

variable {N R : Type} [DecidableEq N] [DecidableEq R] {s s' : EventSwitch N R} {l : Label N R} {r : R}

/-- A receiver is registered for some name. -/
def Registered (s : EventSwitch N R) (r : R) : Prop := ∃ name, r ∈ s.getReceivers name

/-- No worker has a task of the receiver. -/
def Unheld (s : EventSwitch N R) (r : R) : Prop :=
  ∀ w ∈ s.workers, ∀ t, w.task? = some t → t.receiver ≠ r

/-- **No queued task refers to a receiver, and no worker has such a task or executes it.** -/
def Clear (s : EventSwitch N R) (r : R) : Prop :=
  (∀ lane, ∀ t ∈ s.queue lane, t.receiver ≠ r) ∧ s.Unheld r

/-- A receiver is registered for no name, and its tasks were removed by everyone who unregisters it.
-/
def Gone (s : EventSwitch N R) (r : R) : Prop :=
  ¬ s.Registered r ∧ ∀ u ∈ s.unregistering, u.receiver = r → u.phase = .swept

/-- A receiver is registered for no name, and everyone who unregisters it is behind `pause`, one
with the tasks yet to be removed. -/
def Leaving (s : EventSwitch N R) (r : R) : Prop :=
  ¬ s.Registered r ∧ (∃ u ∈ s.unregistering, u.receiver = r ∧ u.phase = .paused) ∧
    ∀ u ∈ s.unregistering, u.receiver = r → u.phase = .paused ∨ u.phase = .swept

/-- **The steps at which no task of a receiver slips through.** -/
def Quiet (s : EventSwitch N R) : Label N R → Prop
  | .drained u => ∀ v, s.unregistering[u]? = some v → ¬ s.Registered v.receiver →
      ∀ t, .taken t ∈ s.workers → t.receiver ≠ v.receiver
  | .take _ => ∀ lane t ts, s.nextTask = some (lane, t, ts) → ¬ s.Leaving t.receiver
  | .sweep u => ∀ v, s.unregistering[u]? = some v → ¬ s.Registered v.receiver →
      (∀ x ∈ s.unregistering.eraseIdx u, x.receiver = v.receiver → x.phase = .swept) →
        ∀ t ∈ s.queue .prio ++ s.queue .low, t.receiver ≠ v.receiver
  | _ => True

/-! ### Who is registered -/

omit [DecidableEq R] in
theorem getReceivers_update (s : EventSwitch N R) (name name' : N) (rs : List R) :
    getReceivers { s with list := Function.update s.list name (some rs) } name' =
      if name' = name then rs else s.getReceivers name' := by
  change (Function.update s.list name (some rs) name').getD [] = _
  rw [Function.update_apply]
  split_ifs <;> rfl

omit [DecidableEq R] in
theorem Registered.register (h : s.Registered r) (name : N) (r' : R) :
    Registered { s with list := Function.update s.list name (some (s.getReceivers name ++ [r'])) } r := by
  obtain ⟨name', hr⟩ := h
  refine ⟨name', ?_⟩
  rw [getReceivers_update]
  split_ifs with heq
  · exact List.mem_append_left _ (heq ▸ hr)
  · exact hr

/-- The others stay registered. -/
theorem Registered.unregister (h : s.Registered r) (name : N) {r' : R} (hne : r ≠ r') :
    Registered { s with
      list := Function.update s.list name (some ((s.getReceivers name).erase r')) } r := by
  obtain ⟨name', hr⟩ := h
  refine ⟨name', ?_⟩
  rw [getReceivers_update]
  split_ifs with heq
  · exact (List.mem_erase_of_ne hne).2 (heq ▸ hr)
  · exact hr

/-- Who is registered now was registered before, or is registered now. -/
theorem Moves.registered_of_registered (h : s.Moves l s') (hl : ∀ name, l ≠ .register name r)
    (hr : s'.Registered r) : s.Registered r := by
  cases h with
  | @register name r' hlock =>
      obtain ⟨name', hr⟩ := hr
      rw [getReceivers_update] at hr
      split_ifs at hr with heq
      · rcases List.mem_append.1 hr with hr | hr
        · exact ⟨name, hr⟩
        · exact absurd (congrArg _ (List.mem_singleton.1 hr).symm) (hl name)
      · exact ⟨name', hr⟩
  | @unregister name r' hlock =>
      obtain ⟨name', hr⟩ := hr
      change r ∈ getReceivers { s with list := Function.update s.list name _ } name' at hr
      rw [getReceivers_update] at hr
      split_ifs at hr with heq
      · exact ⟨name, List.mem_of_mem_erase hr⟩
      · exact ⟨name', hr⟩
  | _ => exact hr

/-! ### Receivers without tasks -/

/-- A receiver is registered for no name, the raiser has no task for it, and there is none. -/
structure Forgotten (s : EventSwitch N R) (r : R) : Prop where
  registered : ¬ s.Registered r
  raising : ∀ e rs, s.raising = some (e, rs) → r ∉ rs
  clear : s.Clear r

omit [DecidableEq N] [DecidableEq R] in
/-- Nobody gets a task of the receiver if a worker moves on to another task, or to none. -/
theorem Unheld.of_move {l₁ l₂ : List (Worker R)} {w w' : Worker R}
    (h : s.Unheld r) (hworkers : s.workers = l₁ ++ w :: l₂)
    (hw : ∀ t, w'.task? = some t → t.receiver ≠ r) :
    ∀ x ∈ l₁ ++ w' :: l₂, ∀ t, x.task? = some t → t.receiver ≠ r := by
  intro x hx t ht
  rcases List.mem_append.1 hx with hx | hx
  · exact h x (hworkers ▸ List.mem_append_left _ hx) t ht
  · rcases List.mem_cons.1 hx with rfl | hx
    · exact hw t ht
    · exact h x (hworkers ▸ List.mem_append_right _ (List.mem_cons_of_mem w hx)) t ht

omit [DecidableEq N] [DecidableEq R] in
theorem Unheld.of_workers {l₁ l₂ : List (Worker R)} {w : Worker R} (h : s.Unheld r)
    (hworkers : s.workers = l₁ ++ w :: l₂) {t : Task R} (ht : w.task? = some t) : t.receiver ≠ r :=
  h w (hworkers ▸ List.mem_append_right _ List.mem_cons_self) t ht

/-- No worker gets a task of the receiver, unless it takes one. -/
theorem Moves.unheld (h : s.Moves l s') (hs : s.Unheld r)
    (hnext : ∀ w lane t ts, l = .take w → s.nextTask = some (lane, t, ts) → t.receiver ≠ r) :
    s'.Unheld r := by
  cases h with
  | take hworkers hlane htask hlock =>
      refine hs.of_move hworkers fun t' heq => ?_
      rw [← Option.some.inj heq]
      exact hnext _ _ _ _ rfl htask
  | count hworkers => exact hs.of_move hworkers fun t' heq => hs.of_workers hworkers heq
  | returned hworkers => exact hs.of_move hworkers fun _ => nofun
  | finish hworkers => exact hs.of_move hworkers fun _ => nofun
  | resume hworkers hpause => exact hs.of_move hworkers fun _ => nofun
  | _ => exact hs

/-- A task comes into a queue from the raiser. -/
theorem Moves.mem_queue (h : s.Moves l s') {lane : Lane} {t : Task R} (ht : t ∈ s'.queue lane) :
    t ∈ s.queue lane ∨ ∃ e rs, s.raising = some (e, t.receiver :: rs) := by
  cases h with
  | push hraising hlock =>
      change t ∈ Function.update s.queue _ _ lane at ht
      rw [Function.update_apply] at ht
      split_ifs at ht with heq
      · rcases List.mem_append.1 ht with ht | ht
        · exact .inl (heq ▸ ht)
        · rw [List.mem_singleton.1 ht]
          exact .inr ⟨_, _, hraising⟩
      · exact .inl ht
  | @take _ _ lane' t' ts hworkers hlane hnext hlock =>
      change t ∈ Function.update s.queue lane' ts lane at ht
      rw [Function.update_apply] at ht
      split_ifs at ht with heq
      · rw [heq, hlane]
        exact .inl (List.mem_cons_of_mem t' ht)
      · exact .inl ht
  | sweep hunregistering hlock =>
      change t ∈ Function.update s.queue .normal _ lane at ht
      rw [Function.update_apply] at ht
      split_ifs at ht with heq
      · exact .inl (heq ▸ List.mem_of_mem_filter ht)
      · exact .inl ht
  | _ => exact .inl ht

/-- The raiser has tasks for registered receivers. -/
theorem Moves.mem_raising (h : s.Moves l s') {e : ℕ} {rs : List R}
    (hraising : s'.raising = some (e, rs)) (hr : r ∈ rs) :
    (∃ rs, s.raising = some (e, rs) ∧ r ∈ rs) ∨ s'.Registered r := by
  cases h with
  | @raise name prio block hlock =>
      obtain ⟨-, rfl⟩ := Prod.mk.inj (Option.some.inj hraising)
      exact .inr ⟨name, hr⟩
  | @push e' r' rs' hbefore hlock =>
      obtain ⟨rfl, rfl⟩ := Prod.mk.inj (Option.some.inj hraising)
      exact .inl ⟨_, hbefore, List.mem_cons_of_mem r' hr⟩
  | raised hbefore => exact absurd hraising nofun
  | _ => exact .inl ⟨rs, hraising, hr⟩

/-- **A receiver without tasks gets none, unless it is registered again.** -/
theorem Forgotten.step (h : s.Forgotten r) (hmoves : s.Moves l s')
    (hl : ∀ name, l ≠ .register name r) : s'.Forgotten r := by
  have hregistered : ¬ s'.Registered r := mt (hmoves.registered_of_registered hl) h.registered
  refine ⟨hregistered, fun e rs hraising hr => ?_, fun lane t ht heq => ?_,
    hmoves.unheld h.clear.2 fun w lane t ts _ hnext => ?_⟩
  · rcases hmoves.mem_raising hraising hr with ⟨rs', hbefore, hr⟩ | hr
    · exact h.raising e rs' hbefore hr
    · exact hregistered hr
  · rcases hmoves.mem_queue ht with ht | ⟨e, rs, hraising⟩
    · exact h.clear.1 lane t ht heq
    · exact h.raising e _ hraising (heq ▸ List.mem_cons_self)
  · exact h.clear.1 lane t (queue_of_nextTask hnext ▸ List.mem_cons_self)

/-! ### The invariant -/

/-- **What holds of the receivers that are unregistered**: the raiser has no task for them, the
workers are counted, no worker has a task of a receiver when everyone who unregisters it is behind
`pause`, and there are no tasks of a receiver that is gone. -/
structure Safe (s : EventSwitch N R) : Prop where
  raising : ∀ e rs, s.raising = some (e, rs) → ∀ r ∈ rs, s.Registered r
  active : s.activeWorker = s.workers.countP Worker.active
  leaving : ∀ r, s.Leaving r → s.Unheld r
  gone : ∀ r, s.Gone r → s.Clear r

omit [DecidableEq N] [DecidableEq R] in
/-- The workers are counted when one of them moves on. -/
theorem countP_move (l₁ l₂ : List (Worker R)) (w w' : Worker R) (p : Worker R → Bool) :
    (l₁ ++ w' :: l₂).countP p + (if p w then 1 else 0) =
      (l₁ ++ w :: l₂).countP p + if p w' then 1 else 0 := by
  simp only [List.countP_append, List.countP_cons]
  omega

omit [DecidableEq N] [DecidableEq R] in
theorem Safe.forgotten (h : s.Safe) (hgone : s.Gone r) : s.Forgotten r :=
  ⟨hgone.1, fun e rs heq hr => hgone.1 (h.raising e rs heq r hr), h.gone r hgone⟩

/-- Who was registered is registered now, or is being unregistered. -/
theorem Moves.registered_of (h : s.Moves l s') (hl : ∀ name, l ≠ .unregister name r)
    (hr : s.Registered r) : s'.Registered r := by
  cases h with
  | @register name r' hlock => exact hr.register name r'
  | @unregister name r' hlock =>
      exact hr.unregister name fun heq => hl name (heq ▸ rfl)
  | _ => exact hr

/-- A receiver that is being registered is registered. -/
theorem Moves.registered_of_register {name : N} (h : s.Moves (.register name r) s') :
    s'.Registered r := by
  cases h with
  | register hlock =>
      refine ⟨name, ?_⟩
      rw [getReceivers_update, if_pos rfl]
      exact List.mem_append_right _ (List.mem_singleton.2 rfl)

/-- A thread that unregisters a receiver comes into the list of these threads. -/
theorem Moves.mem_of_unregister {name : N} (h : s.Moves (.unregister name r) s') :
    ⟨r, .removed⟩ ∈ s'.unregistering := by
  cases h with
  | unregister hlock => exact List.mem_append_right _ (List.mem_singleton.2 rfl)

omit [DecidableEq R] in
/-- What holds of all threads, apart from one of them. -/
theorem forall_mem_middle {l₁ l₂ : List (Unregistration R)} {u : Unregistration R}
    {p : Unregistration R → Prop} :
    (∀ x ∈ l₁ ++ u :: l₂, p x) ↔ p u ∧ ∀ x ∈ l₁ ++ l₂, p x := by
  rw [← List.forall_mem_cons]
  exact forall_congr' fun x => by rw [List.perm_middle.mem_iff]

/-- A receiver is gone since before, or its tasks are being removed. -/
theorem Moves.gone_of_gone (h : s.Moves l s') (hgone : s'.Gone r) :
    (s.Gone r ∧ ∀ name, l ≠ .register name r) ∨ ∃ l₁ l₂, l = .sweep l₁.length ∧
      s.unregistering = l₁ ++ ⟨r, .paused⟩ :: l₂ ∧
        ∀ x ∈ l₁ ++ l₂, x.receiver = r → x.phase = .swept := by
  obtain ⟨hregistered, hswept⟩ := hgone
  have hunregister : ∀ name, l ≠ .unregister name r := by
    rintro name rfl
    exact Phase.noConfusion (hswept _ h.mem_of_unregister rfl)
  have hregister : ∀ name, l ≠ .register name r := by
    rintro name rfl
    exact hregistered h.registered_of_register
  have hbefore : ¬ s.Registered r := mt (h.registered_of hunregister) hregistered
  cases h with
  | unregister hlock =>
      exact .inl ⟨⟨hbefore, fun u hu => hswept u (List.mem_append_left _ hu)⟩, hregister⟩
  | setPause hunregistering =>
      obtain ⟨hu, hothers⟩ := forall_mem_middle.1 hswept
      refine .inl ⟨⟨hbefore, ?_⟩, hregister⟩
      rw [hunregistering]
      exact forall_mem_middle.2 ⟨fun heq => Phase.noConfusion (hu heq), hothers⟩
  | drained hunregistering hactive =>
      obtain ⟨hu, hothers⟩ := forall_mem_middle.1 hswept
      refine .inl ⟨⟨hbefore, ?_⟩, hregister⟩
      rw [hunregistering]
      exact forall_mem_middle.2 ⟨fun heq => Phase.noConfusion (hu heq), hothers⟩
  | @sweep l₁ l₂ r' hunregistering hlock =>
      obtain ⟨-, hothers⟩ := forall_mem_middle.1 hswept
      by_cases heq : r' = r
      · subst heq
        exact .inr ⟨l₁, l₂, rfl, hunregistering, hothers⟩
      · refine .inl ⟨⟨hbefore, ?_⟩, hregister⟩
        rw [hunregistering]
        exact forall_mem_middle.2 ⟨fun heq' => absurd heq' heq, hothers⟩
  | unpause hunregistering =>
      refine .inl ⟨⟨hbefore, ?_⟩, hregister⟩
      rw [hunregistering]
      exact forall_mem_middle.2 ⟨fun _ => rfl, hswept⟩
  | _ => exact .inl ⟨⟨hbefore, hswept⟩, hregister⟩

/-- Everyone who unregisters a receiver is behind `pause` since before, or the last one gets there.
-/
theorem Moves.leaving_of_leaving (h : s.Moves l s') (hleaving : s'.Leaving r) :
    s.Leaving r ∨ ∃ l₁ l₂, l = .drained l₁.length ∧
      s.unregistering = l₁ ++ ⟨r, .pausing⟩ :: l₂ ∧ s.activeWorker = 0 ∧ ¬ s.Registered r := by
  obtain ⟨hregistered, ⟨v, hv, hvr, hpaused⟩, hbehind⟩ := hleaving
  have hunregister : ∀ name, l ≠ .unregister name r := by
    rintro name rfl
    rcases hbehind _ h.mem_of_unregister rfl with hphase | hphase
    · exact Phase.noConfusion hphase
    · exact Phase.noConfusion hphase
  have hbefore : ¬ s.Registered r := mt (h.registered_of hunregister) hregistered
  cases h with
  | @unregister name r' hlock =>
      have hne : r' ≠ r := fun heq => hunregister name (heq ▸ rfl)
      refine .inl ⟨hbefore, ⟨v, ?_, hvr, hpaused⟩, fun u hu => hbehind u (List.mem_append_left _ hu)⟩
      rcases List.mem_append.1 hv with hv | hv
      · exact hv
      · rw [List.mem_singleton.1 hv] at hvr
        exact absurd hvr hne
  | @setPause l₁ l₂ r' hunregistering =>
      obtain ⟨hu, hothers⟩ := forall_mem_middle.1 hbehind
      have hne : r' ≠ r := fun heq => by
        rcases hu heq with hphase | hphase
        · exact Phase.noConfusion hphase
        · exact Phase.noConfusion hphase
      refine .inl ⟨hbefore, ⟨v, ?_, hvr, hpaused⟩, ?_⟩
      · rw [hunregistering, List.perm_middle.mem_iff]
        rcases List.mem_cons.1 (List.perm_middle.mem_iff.1 hv) with rfl | hv
        · exact absurd hvr hne
        · exact List.mem_cons_of_mem _ hv
      · rw [hunregistering]
        exact forall_mem_middle.2 ⟨fun heq => absurd heq hne, hothers⟩
  | @drained l₁ l₂ r' hunregistering hactive =>
      by_cases heq : r' = r
      · subst heq
        exact .inr ⟨l₁, l₂, rfl, hunregistering, hactive, hbefore⟩
      · obtain ⟨-, hothers⟩ := forall_mem_middle.1 hbehind
        refine .inl ⟨hbefore, ⟨v, ?_, hvr, hpaused⟩, ?_⟩
        · rw [hunregistering, List.perm_middle.mem_iff]
          rcases List.mem_cons.1 (List.perm_middle.mem_iff.1 hv) with rfl | hv
          · exact absurd hvr heq
          · exact List.mem_cons_of_mem _ hv
        · rw [hunregistering]
          exact forall_mem_middle.2 ⟨fun heq' => absurd heq' heq, hothers⟩
  | @sweep l₁ l₂ r' hunregistering hlock =>
      obtain ⟨-, hothers⟩ := forall_mem_middle.1 hbehind
      refine .inl ⟨hbefore, ?_, ?_⟩
      · refine ⟨v, ?_, hvr, hpaused⟩
        rw [hunregistering, List.perm_middle.mem_iff]
        rcases List.mem_cons.1 (List.perm_middle.mem_iff.1 hv) with rfl | hv
        · exact Phase.noConfusion hpaused
        · exact List.mem_cons_of_mem _ hv
      · rw [hunregistering]
        exact forall_mem_middle.2 ⟨fun _ => .inl rfl, hothers⟩
  | @unpause l₁ l₂ r' hunregistering =>
      refine .inl ⟨hbefore, ⟨v, ?_, hvr, hpaused⟩, ?_⟩
      · rw [hunregistering, List.perm_middle.mem_iff]
        exact List.mem_cons_of_mem _ hv
      · rw [hunregistering]
        exact forall_mem_middle.2 ⟨fun _ => .inr rfl, hbehind⟩
  | _ => exact .inl ⟨hbefore, ⟨v, hv, hvr, hpaused⟩, hbehind⟩

/-- The workers that are counted. -/
theorem Moves.active (h : s.Moves l s') (hs : s.activeWorker = s.workers.countP Worker.active) :
    s'.activeWorker = s'.workers.countP Worker.active := by
  cases h with
  | @take l₁ l₂ lane t ts hworkers hlane hnext hlock =>
      have hmove := countP_move l₁ l₂ .idle (.taken t) Worker.active
      rw [← hworkers] at hmove
      exact hs.trans hmove.symm
  | @count l₁ l₂ t hworkers =>
      have hmove := countP_move l₁ l₂ (.taken t) (.running t) Worker.active
      rw [← hworkers] at hmove
      exact (congrArg (· + 1) hs).trans hmove.symm
  | @returned l₁ l₂ t hworkers =>
      have hmove := countP_move l₁ l₂ (.running t) .finished Worker.active
      rw [← hworkers] at hmove
      exact hs.trans (Nat.add_right_cancel hmove).symm
  | @finish l₁ l₂ hworkers =>
      have hmove := countP_move l₁ l₂ .finished .waiting Worker.active
      rw [← hworkers] at hmove
      exact (congrArg (· - 1) hs).trans (Nat.sub_eq_of_eq_add hmove.symm)
  | @resume l₁ l₂ hworkers hpause =>
      have hmove := countP_move l₁ l₂ .waiting .idle Worker.active
      rw [← hworkers] at hmove
      exact hs.trans hmove.symm
  | _ => exact hs

/-- What the removal of the tasks leaves. -/
theorem Moves.of_sweep (h : s.Moves l s') {l₁ l₂ : List (Unregistration R)}
    (hl : l = .sweep l₁.length) (hu : s.unregistering = l₁ ++ ⟨r, .paused⟩ :: l₂) :
    s'.workers = s.workers ∧ s'.queue = Function.update s.queue .normal
      ((s.queue .normal).filter fun t => decide (t.receiver ≠ r)) := by
  cases h with
  | @sweep k₁ k₂ r' hunregistering hlock =>
      have hlength : k₁.length = l₁.length := Label.sweep.inj hl
      have hr : r' = r := by
        have hcons := (List.append_inj (hunregistering.symm.trans hu) hlength).2
        exact congrArg Unregistration.receiver (List.cons.inj hcons).1
      exact ⟨rfl, by rw [hr]⟩
  | _ => cases hl

/-- **A quiet step keeps what holds of the receivers that are unregistered.** -/
theorem Safe.step (h : s.Safe) (hl : s.Quiet l) (hmoves : s.Moves l s') : s'.Safe := by
  refine ⟨fun e rs hraising r hr => ?_, hmoves.active h.active, fun r hleaving => ?_,
    fun r hgone => ?_⟩
  · rcases hmoves.mem_raising hraising hr with ⟨rs', hbefore, hr⟩ | hr
    · refine hmoves.registered_of ?_ (h.raising e rs' hbefore r hr)
      rintro name rfl
      cases hmoves with
      | unregister hlock => exact Option.some_ne_none _ (hbefore.symm.trans hlock)
    · exact hr
  · rcases hmoves.leaving_of_leaving hleaving with hbefore | ⟨l₁, l₂, rfl, hu, hactive, hr⟩
    · refine hmoves.unheld (h.leaving r hbefore) fun w lane t ts hlabel hnext heq => ?_
      subst hlabel
      exact hl lane t ts hnext (heq ▸ hbefore)
    · -- `pause` ends: no worker is counted, and none is on its way with a task of the receiver.
      have hnone : ∀ w ∈ s.workers, ¬ w.active = true :=
        List.countP_eq_zero.1 (h.active.symm.trans hactive)
      have hunheld : s.Unheld r := by
        intro w hw t ht
        cases w with
        | taken t' =>
            rw [← Option.some.inj ht]
            exact hl ⟨r, .pausing⟩ (by rw [hu]; simp) hr t' hw
        | running t' => exact absurd rfl (hnone _ hw)
        | _ => cases ht
      exact hmoves.unheld hunheld nofun
  · rcases hmoves.gone_of_gone hgone with ⟨hbefore, hregister⟩ | ⟨l₁, l₂, rfl, hu, hothers⟩
    · exact ((h.forgotten hbefore).step hmoves hregister).clear
    · -- The last one removes the tasks; what `pause` found is still true.
      have hr : ¬ s.Registered r := fun hr =>
        hgone.1 (hmoves.registered_of (fun _ => nofun) hr)
      have hleaving : s.Leaving r := by
        refine ⟨hr, ⟨⟨r, .paused⟩, by rw [hu]; simp, rfl, rfl⟩, ?_⟩
        rw [hu]
        exact forall_mem_middle.2 ⟨fun _ => .inl rfl, fun x hx heq => .inr (hothers x hx heq)⟩
      obtain ⟨hworkers, hqueue⟩ := hmoves.of_sweep rfl hu
      have herased : s.unregistering.eraseIdx l₁.length = l₁ ++ l₂ := by
        rw [hu, List.eraseIdx_append_of_length_le (Nat.le_refl _), Nat.sub_self,
          List.eraseIdx_zero, List.tail_cons]
      have hclear := hl ⟨r, .paused⟩ (by rw [hu]; simp) hr (by rw [herased]; exact hothers)
      refine ⟨fun lane t ht => ?_, fun w hw => h.leaving r hleaving w (hworkers ▸ hw)⟩
      rw [hqueue, Function.update_apply] at ht
      split_ifs at ht with heq
      · exact of_decide_eq_true (List.mem_filter.1 ht).2
      · cases lane with
        | prio => exact hclear t (List.mem_append_left _ ht)
        | normal => exact absurd rfl heq
        | low => exact hclear t (List.mem_append_right _ ht)

/-! ### Runs -/

/-- A new switch, with its workers. -/
def start [Inhabited N] (n : ℕ) : EventSwitch N R where
  list _ := none
  events _ := ⟨default, 0, true, 0, false, false, []⟩
  nextEvent := 0
  raising := none
  queue _ := []
  workers := List.replicate n .idle
  activeWorker := 0
  pause := false
  unregistering := []
  blocked := []
  taken := []
  passed := []

omit [DecidableEq N] [DecidableEq R] in
theorem safe_start [Inhabited N] (n : ℕ) : (start n : EventSwitch N R).Safe := by
  have hworkers : ∀ w ∈ (start n : EventSwitch N R).workers, w = .idle := fun w hw =>
    List.eq_of_mem_replicate hw
  refine ⟨fun _ _ => nofun, ?_, fun r _ w hw => ?_, fun r _ => ⟨fun _ _ => nofun, fun w hw => ?_⟩⟩
  · refine (List.countP_eq_zero.2 fun w hw => ?_).symm
    rw [hworkers w hw]
    exact Bool.false_ne_true
  · rw [hworkers w hw]
    exact fun _ => nofun
  · rw [hworkers w hw]
    exact fun _ => nofun

/-- **A receiver that is unregistered is not called.** Behind every run of quiet steps, a receiver
that is registered for no name, and that nobody is unregistering, has no tasks: none is queued, and
no worker has one or executes it. Nor will there be one, whatever happens, until the receiver is
registered again. -/
theorem clear_run [Inhabited N] {n : ℕ} {labels : List (Label N R)} {s : EventSwitch N R}
    (h : Transition.Run (fun s l s' => s.step l = some s') Quiet (start n) labels s) {r : R}
    (hr : ¬ s.Registered r) (hreturned : ∀ u ∈ s.unregistering, u.receiver ≠ r) :
    s.Clear r ∧ ∀ later s', Transition.Run (fun s l s' => s.step l = some s')
      (fun _ l => ∀ name, l ≠ .register name r) s later s' → s'.Clear r := by
  have hsafe : s.Safe := h.invariant (safe_start n) fun _ _ _ hs hl hstep =>
    hs.step hl (moves_of_step hstep)
  have hgone : s.Gone r := ⟨hr, fun u hu heq => absurd heq (hreturned u hu)⟩
  have hforgotten := hsafe.forgotten hgone
  refine ⟨hforgotten.clear, fun later s' hrun => ?_⟩
  exact (hrun.invariant (I := (Forgotten · r)) hforgotten fun _ _ _ hs hl hstep =>
    hs.step (moves_of_step hstep) hl).clear

/-- The switch after some steps, if they are possible. -/
def after (n : ℕ) (labels : List (Label ℕ ℕ)) : Option (EventSwitch ℕ ℕ) :=
  labels.foldlM step (start n)

/-- The only receiver was put into the list and taken out of it. -/
theorem not_registered_of_update {s : EventSwitch ℕ ℕ} {rs : Option (List ℕ)}
    (hlist : s.list = Function.update (Function.update (fun _ => none) 0 rs) 0 (some [])) (r : ℕ) :
    ¬ s.Registered r := by
  rintro ⟨name, hr⟩
  rw [getReceivers, hlist, Function.update_idem, Function.update_apply] at hr
  split_ifs at hr
  · exact List.not_mem_nil hr
  · exact List.not_mem_nil hr

/-- A receiver is registered, one of two events is delivered to it, and it is unregistered while the
task for the other one is queued. -/
def sampleLabels : List (Label ℕ ℕ) :=
  [.register 0 7, .raise 0 0 false, .push, .raised, .raise 0 0 false, .push, .raised, .take 0,
    .count 0, .returned 0, .finish 0, .unregister 0 7, .setPause 0, .drained 0, .sweep 0, .unpause 0]

theorem clear_run_sample : ∃ s, after 1 sampleLabels = some s ∧ s.Clear 7 ∧
    ∀ later s', Transition.Run (fun s l s' => s.step l = some s')
      (fun _ l => ∀ name : ℕ, l ≠ .register name 7) s later s' → s'.Clear 7 := by
  have hrun : ∃ s, after 1 sampleLabels = some s ∧
      Transition.Run (fun s l s' => s.step l = some s') Quiet (start 1) sampleLabels s ∧
        ¬ s.Registered 7 ∧ s.unregistering = [] := by
    refine ⟨_, rfl, ?_, not_registered_of_update rfl 7, rfl⟩
    refine .snoc (.snoc (.snoc (.snoc (.snoc (.snoc (.snoc (.snoc (.snoc (.snoc (.snoc (.snoc
      (.snoc (.snoc (.snoc (.snoc .nil trivial rfl) trivial rfl) trivial rfl) trivial rfl)
      trivial rfl) trivial rfl) trivial rfl) ?_ rfl) trivial rfl) trivial rfl) trivial rfl)
      trivial rfl) trivial rfl) ?_ rfl) ?_ rfl) trivial rfl
    · -- The receiver of the task that is taken is registered.
      intro lane t ts hnext hleaving
      have ht : 7 = t.receiver := congrArg (fun x => x.2.1.receiver) (Option.some.inj hnext)
      exact hleaving.1 ⟨0, ht ▸ List.mem_singleton.2 rfl⟩
    · exact fun _ _ _ _ ht => absurd (List.mem_singleton.1 ht) nofun
    · exact fun _ _ _ _ _ ht => absurd ht List.not_mem_nil
  obtain ⟨s, hafter, hrun, hr, hunregistering⟩ := hrun
  refine ⟨s, hafter, clear_run hrun hr ?_⟩
  rw [hunregistering]
  exact fun _ hu => absurd hu List.not_mem_nil

/-- **A worker calls a receiver that is unregistered**, as it took a task behind the end of `pause`;
**and a task of a receiver that is unregistered stays queued**, as the event has a priority. -/
theorem not_clear_after :
    (∃ s, after 1 [.register 0 7, .raise 0 0 false, .push, .raised, .unregister 0 7, .setPause 0,
        .drained 0, .take 0, .count 0, .sweep 0, .unpause 0] = some s ∧
      ¬ s.Registered 7 ∧ s.unregistering = [] ∧ ¬ s.Unheld 7) ∧
    ∃ s, after 1 [.register 0 7, .raise 0 1 false, .push, .raised, .unregister 0 7, .setPause 0,
        .drained 0, .sweep 0, .unpause 0] = some s ∧
      ¬ s.Registered 7 ∧ s.unregistering = [] ∧ ¬ s.Clear 7 := by
  refine ⟨⟨_, rfl, not_registered_of_update rfl 7, rfl, fun h => ?_⟩,
    ⟨_, rfl, not_registered_of_update rfl 7, rfl, fun h => ?_⟩⟩
  · exact h (.running ⟨7, 0⟩) (List.mem_singleton.2 rfl) _ rfl rfl
  · exact h.1 .prio ⟨7, 0⟩ (List.mem_singleton.2 rfl) rfl

end EventSwitch

end IbrDtn
