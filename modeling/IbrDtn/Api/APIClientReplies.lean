import IbrDtn.Api.APIClientLines
import IbrDtn.Library.Transition

/-!
# Replies of the client

The lines that arrive in order become the results of the commands in order.  This file shows for
which runs the replies and the notifications reach the threads that they are for.

## Main definitions

* `APIClient.Served` : every command obtains its reply, and nobody waits in vain.

## Main results

* `APIClient.Replied.step` : what a step keeps.
* `APIClient.served_run` : behind every run of orderly steps, the replies reached their requesters.
-/

namespace IbrDtn

namespace APIClient

variable {plain : List Line → Bool} {s s' : APIClient} {l : Label}

/-- **The replies reach their requesters**: the command with number `i` obtains reply `i`, with its
body; `wait` returns the notifications in the order of their arrival; no line of a body is taken for
something else; and a thread that waits has nothing in its queue, while the other one reads. -/
structure Served (s : APIClient) : Prop where
  replies : ∀ (i : ℕ) r x, s.replies[i]? = some r → s.results[i]? = some x → x = some r
  waited : s.waited <+: s.notifications
  statuses : (∀ l ∈ s.statusQueue, l.kind = .status) ∧
    ∀ r, some r ∈ s.results → r.status.kind = .status
  notified : ∀ l ∈ s.waited ++ s.notifyQueue, l.kind = .notification
  awake : s.commander.sleeps = true → s.statusQueue = [] ∧ s.waiter.reads = true
  awakeWait : s.waiter.sleeps = true → s.notifyQueue = [] ∧ s.commander.reads = true

/-! ### Results -/

/-- **The results are the replies.** -/
structure Replied (s : APIClient) : Prop where
  replies : ∀ (i : ℕ) r x, s.replies[i]? = some r → s.results[i]? = some x → x = some r
  statuses : ∀ r, some r ∈ s.results → r.status.kind = .status

/-- A command ends with its reply, if there is one. -/
theorem Replied.finish (h : s.Replied) {x : Option Reply}
    (hx : ∀ r, s.reply? = some r → x = some r) (hstatus : ∀ r, x = some r → r.status.kind = .status)
    (p : Phase) :
    Replied { s with commander := p, results := s.results ++ [x] } := by
  refine ⟨fun i r y hr hy => ?_, fun r hr => ?_⟩
  · change (s.results ++ [x])[i]? = some y at hy
    rcases Nat.lt_trichotomy i s.results.length with hlt | rfl | hlt
    · rw [List.getElem?_append_left hlt] at hy
      exact h.replies i r y hr hy
    · rw [List.getElem?_append_right (Nat.le_refl _), Nat.sub_self] at hy
      rw [← Option.some.inj hy]
      exact hx r hr
    · rw [List.getElem?_eq_none_iff.2 (by simpa using hlt)] at hy
      cases hy
  · rcases List.mem_append.1 hr with hr | hr
    · exact h.statuses r hr
    · exact hstatus r (List.mem_singleton.1 hr).symm

theorem Replied.returned (h : s.Replied) (hc : s.Conserved) (ha : Answering plain s) {l : Line}
    (hgot : s.commander = .got l) (hl : l.isNotification = false) : (s.returned l).Replied := by
  rw [APIClient.returned]
  split_ifs with hhas
  · exact ⟨h.replies, h.statuses⟩
  · refine h.finish (hc.eq_of_no_body ha hgot hl (Bool.eq_false_iff.2 hhas)) ?_ _
    rintro _ ⟨⟩
    exact (hc.got l (.inl hgot)).status hl

theorem Replied.step (h : s.Replied) (hc : s.Conserved) (ha : Answering plain s)
    (hx : s.Exclusive) (hmoves : s.Moves plain l s') : s'.Replied := by
  cases hmoves with
  | @answer r c cs hrequests hopen =>
      refine ⟨fun i r' x hr hx => ?_, h.statuses⟩
      obtain ⟨hlt, -⟩ := List.getElem?_eq_some_iff.1 hx
      rw [List.getElem?_append_left (hlt.trans_le (ha.ahead hopen))] at hr
      exact h.replies i r' x hr hx
  | @take l ls hlooks hqueue =>
      have ha' : Answering plain { s with statusQueue := ls } :=
        ⟨ha.count, ha.ahead, ha.last, ha.current, ha.eof⟩
      exact Replied.returned (s := { s with statusQueue := ls, commander := .got l })
        ⟨h.replies, h.statuses⟩ (hc.take hlooks hqueue)
        (ha'.goOn (Phase.pending_of_looks hlooks) rfl) rfl
        (hc.queue_not_notification (hqueue ▸ List.mem_cons_self))
  | throw hreading heof =>
      have hf := h.finish (x := none) (fun r hr => ?_) (fun _ => nofun) .idle
      · exact ⟨hf.replies, hf.statuses⟩
      · rw [hc.none_of_eof ha hx hreading heof] at hr
        cases hr
  | keep hgot hnote =>
      refine Replied.returned (s := { s.signal with getBusy := false }) ⟨h.replies, h.statuses⟩
        (hc.signal false) (ha.signal false) ?_ hnote
      simpa [APIClient.signal] using hgot
  | finish hbody hover =>
      have hreply := hc.reply_body ha hbody hover
      refine h.finish (fun r hr => hreply.symm.trans hr) ?_ _
      rintro _ ⟨⟩
      exact (ha.current _ hreply).1
  | _ => exact ⟨h.replies, h.statuses⟩

/-! ### Runs -/

/-- A client behind `connect`, where nobody is in a call. -/
def start : APIClient where
  stream := []
  eof := false
  getBusy := false
  statusQueue := []
  notifyQueue := []
  commander := .idle
  current := .simple
  waiter := .idle
  requests := []
  closed := false
  replies := []
  notifications := []
  results := []
  waited := []
  threw := false

/-- What holds behind every run of such steps. -/
structure Sound (plain : List Line → Bool) (s : APIClient) : Prop where
  exclusive : s.Exclusive
  answering : Answering plain s
  conserved : s.Conserved
  replied : s.Replied

theorem Sound.step (h : Sound plain s) (hl : s.Orderly l) (hmoves : s.Moves plain l s') :
    Sound plain s' :=
  ⟨h.exclusive.step hl hmoves, h.answering.step h.conserved hmoves,
    h.conserved.step h.answering h.exclusive hl hmoves,
    h.replied.step h.conserved h.answering h.exclusive hmoves⟩

theorem sound_start : Sound plain start :=
  ⟨⟨fun _ => rfl, nofun, nofun, nofun, nofun, nofun, nofun⟩,
    ⟨rfl, fun _ => Nat.le_refl 0, fun _ => nofun, fun _ => nofun, nofun⟩,
    ⟨⟨0, rfl, fun h0 => absurd rfl h0⟩, rfl, fun _ _ => nofun, fun _ => nofun, .nil,
      fun _ hgot => hgot.elim nofun nofun, fun _ => nofun, fun _ => nofun⟩,
    ⟨fun _ _ _ => nofun, fun _ => nofun⟩⟩

theorem Sound.served (h : Sound plain s) : s.Served :=
  ⟨h.replied.replies, ⟨s.notes, h.conserved.notes⟩,
    ⟨fun l hl => (h.conserved.queue l hl).2, h.replied.statuses⟩, h.conserved.notified,
    h.exclusive.awake, h.exclusive.awakeWait⟩

/-- **The replies reach their requesters**, behind every run whose steps leave bodies alone, and
nobody waiting without a reader. -/
theorem served_run {labels : List Label} {s : APIClient}
    (h : Transition.Run (fun s l s' => s.step plain l = some s') Orderly start labels s) :
    s.Served :=
  (h.invariant (I := Sound plain) sound_start fun _ _ _ hs hl hstep =>
    hs.step hl (moves_of_step hstep)).served

/-- The client after some steps, if they are possible; a bundle is one line. -/
def after (labels : List Label) : Option APIClient :=
  labels.foldlM (step fun ls => !ls.isEmpty) start

/-- A status line. -/
def sampleStatus : Line := ⟨.status, 200, [50, 48, 48]⟩

/-- A notification. -/
def sampleNotification : Line := ⟨.notification, 602, [54, 48, 50]⟩

/-- A reply with a body: an endpoint and an empty line. -/
def sampleReply : Reply := ⟨sampleStatus, [⟨.body, 0, [100, 116, 110]⟩, ⟨.body, 0, []⟩]⟩

/-- The thread that issues commands reads a notification in front of its reply, for which the other
one waits. -/
def sampleLabels : List Label :=
  [.issue .subscriptions, .look, .wait, .lookWait, .notification sampleNotification,
    .answer sampleReply, .read, .keep, .read, .keep, .readBody, .readBody, .readBody, .lookWait]

theorem served_run_sample : ∃ s, after sampleLabels = some s ∧ s.results = [some sampleReply] ∧
    s.waited = [sampleNotification] ∧ s.Served := by
  have hrun : ∃ s, after sampleLabels = some s ∧ s.results = [some sampleReply] ∧
      s.waited = [sampleNotification] ∧ Transition.Run
        (fun s l s' => s.step (fun ls => !ls.isEmpty) l = some s') Orderly start sampleLabels s := by
    refine ⟨_, rfl, rfl, rfl, ?_⟩
    refine .snoc (.snoc (.snoc (.snoc (.snoc (.snoc (.snoc (.snoc (.snoc (.snoc (.snoc (.snoc (.snoc
      (.snoc .nil trivial rfl) nofun rfl) trivial rfl) nofun rfl) trivial rfl) trivial rfl) nofun
      rfl) trivial rfl) nofun rfl) trivial rfl) trivial rfl) trivial rfl) trivial rfl) nofun rfl
  obtain ⟨s, hafter, hresults, hwaited, hrun⟩ := hrun
  exact ⟨s, hafter, hresults, hwaited, served_run hrun⟩

/-- **A body is taken for a status**, as the thread in `wait` reads the stream when the reply comes;
**and a thread waits while nobody reads the stream**, as a read has thrown. -/
theorem not_served_after :
    (∃ s, after [.wait, .lookWait, .issue .subscriptions, .look, .answer sampleReply, .readWait,
        .keepWait, .readWait, .keepWait, .look] = some s ∧ ¬ s.Served) ∧
    ∃ s, after [.wait, .lookWait, .close, .readWait, .keepWait, .readWait, .issue .simple, .look,
        .issue .simple, .look] = some s ∧ ¬ s.Served := by
  refine ⟨⟨_, rfl, fun h => ?_⟩, ⟨_, rfl, fun h => ?_⟩⟩
  · have hkind := h.statuses.1 _ List.mem_cons_self
    cases hkind
  · have hreads := (h.awake rfl).2
    cases hreads

end APIClient

end IbrDtn
