import IbrDtn.Library.Transition
import IbrDtn.Net.ConvergenceLayer

/-!
# The teardown of a TCP connection

This file models how bundles pass through `daemon/src/net/TCPConnection.cpp`.  A bundle waits in the
queue of the sender, is the current transfer while the sender reads and sends it, and is in the sent
queue from the beginning of the transmission until it is acknowledged or refused.  The connection
thread handles acknowledgements and refusals; when the connection goes down, it leaves the list of
the convergence layer and empties both queues, while the sender may still be at work.

## Main definitions

* `TCPConnection`, `TCPConnection.step` : the connection, and what its threads do.
* `TCPConnection.Orderly` : the steps that do not leave a bundle in two places or in none.

## Main results

* `TCPConnection.Accounted.step` : such steps keep an account of all bundles.
* `TCPConnection.returned_run` : behind the teardown, every bundle was returned once.
-/

namespace IbrDtn

open Transition (Run)

/-- `BundleID::BundleID()`. -/
def BundleID.unset : BundleID := ⟨EID.none, 0, 0, false, 0⟩

namespace TCPConnection

/-- How far the connection thread has come: it receives, has left `run()`, has left the list of the
layer, empties the sent queue, and is done. -/
inductive Receiver where
  | running
  | closing
  | removed
  | draining
  | done
deriving DecidableEq, Repr

/-- How far the sender has come, with `_current_transfer`: it has the bundle from its queue, has put
it into the sent queue, or was left by an exception, behind which `finally` is called. -/
inductive Sender where
  | notStarted
  | idle
  | reading (bundle : BundleID)
  | sending (bundle : BundleID)
  | failed (bundle : BundleID)
  | finished
deriving DecidableEq, Repr

/-- The current transfer, as far as `finally` returns it: an unset one is none. -/
def Sender.held : Sender → List BundleID
  | .reading b => [b]
  | .failed b => if b.eq .unset then [] else [b]
  | _ => []

/-- The sender transmits a bundle. -/
def Sender.isSending : Sender → Bool
  | .sending _ => true
  | _ => false

end TCPConnection

/-- `class TCPConnection`, with the events that it has raised, and the bundles that were queued. -/
structure TCPConnection where
  node : EID
  receiver : TCPConnection.Receiver
  sender : TCPConnection.Sender
  queue : List BundleID
  sentqueue : List BundleID
  events : List TransferEvent
  queued : List BundleID
deriving DecidableEq

namespace TCPConnection

/-- What happens. The layer queues bundles; the connection thread gets the header of the peer,
starts the sender, handles acknowledgements and refusals, and goes down; the sender sends. -/
inductive Action where
  | queue (bundle : BundleID)
  | eventConnectionUp (localeid : EID)
  | startSender
  | eventBundleForwarded
  | eventBundleRefused
  | down
  | connectionDown
  | clearQueue
  | clearSentqueue
  | take
  /-- `storage.get` returns a bundle with the given identifier, which goes to the sent queue. -/
  | found (stored : BundleID)
  | noBundleFound
  | readFails
  | sent
  | sendFails
  | unblocked
  | senderFinally
deriving DecidableEq

/-- A new connection. -/
def create (node : EID) : TCPConnection := ⟨node, .running, .notStarted, [], [], [], []⟩

/-- `eventBundleForwarded` and `eventBundleRefused`: the first bundle of the sent queue is over. -/
def acknowledge (event : BundleID → TransferEvent) (s : TCPConnection) : TCPConnection :=
  match s.sentqueue with
  | b :: sentqueue => { s with sentqueue, events := s.events ++ [event b] }
  | [] => s

/-- What the threads do. -/
def step (s : TCPConnection) : Action → Option TCPConnection
  | .queue b =>
      if s.receiver = .running ∨ s.receiver = .closing then
        some { s with queue := s.queue ++ [b], queued := s.queued ++ [b] }
      else none
  | .eventConnectionUp localeid =>
      if s.receiver = .running then some { s with node := localeid } else none
  | .startSender =>
      if s.receiver = .running ∧ s.sender = .notStarted then some { s with sender := .idle }
      else none
  | .eventBundleForwarded =>
      -- Without acknowledgements, the sender calls it behind the last segment of a bundle.
      if s.receiver = .running ∨ s.sender.isSending then
        some (s.acknowledge fun b => .completed s.node b)
      else none
  | .eventBundleRefused =>
      if s.receiver = .running then some (s.acknowledge fun b => .aborted s.node b .refused)
      else none
  | .down => if s.receiver = .running then some { s with receiver := .closing } else none
  | .connectionDown => if s.receiver = .closing then some { s with receiver := .removed } else none
  | .clearQueue =>
      match s.receiver, s.queue with
      | .removed, b :: queue => some { s with queue, events := s.events ++ [.requeued s.node b] }
      | .removed, [] => some { s with receiver := .draining }
      | _, _ => none
  | .clearSentqueue =>
      match s.receiver, s.sentqueue with
      | .draining, b :: sentqueue =>
          some { s with sentqueue, events := s.events ++ [.requeued s.node b] }
      | .draining, [] => some { s with receiver := .done }
      | _, _ => none
  | .take =>
      match s.sender, s.queue with
      | .idle, b :: queue => some { s with sender := .reading b, queue }
      | _, _ => none
  | .found stored =>
      match s.sender with
      | .reading b => some { s with sender := .sending b, sentqueue := s.sentqueue ++ [stored] }
      | _ => none
  | .noBundleFound =>
      match s.sender with
      | .reading b =>
          some
            { s with sender := .idle, events := s.events ++ [.aborted s.node b .bundleDeleted] }
      | _ => none
  | .readFails =>
      match s.sender with
      | .reading b => some { s with sender := .failed b }
      | _ => none
  | .sent =>
      match s.sender with
      | .sending _ => some { s with sender := .idle }
      | _ => none
  | .sendFails =>
      match s.sender with
      | .sending b => some { s with sender := .failed b }
      | _ => none
  -- The queue was aborted, or the stream is not good any more: no transfer is set.
  | .unblocked => if s.sender = .idle then some { s with sender := .finished } else none
  | .senderFinally =>
      match s.sender with
      | .failed b =>
          some
            { s with
              sender := .finished
              events := if b.eq .unset then s.events else s.events ++ [.requeued s.node b] }
      | _ => none

/-- Both threads have come to their ends. -/
def TornDown (s : TCPConnection) : Prop :=
  s.receiver = .done ∧ (s.sender = .notStarted ∨ s.sender = .finished)

instance (s : TCPConnection) : Decidable s.TornDown := inferInstanceAs (Decidable (_ ∧ _))

/-- **The steps that do not leave a bundle in two places or in none**: the storage returns the
bundle that was asked for; no bundle is put into the sent queue when the connection thread is done
with it; no exception stops the transmission of a bundle that is in the sent queue, and none stops
the sender before it if the current transfer counts as unset. -/
def Orderly (s : TCPConnection) : Action → Prop
  | .found stored => ∀ b, s.sender = .reading b → stored = b ∧ s.receiver ≠ .done
  | .readFails => ∀ b, s.sender = .reading b → b.eq .unset = false
  | .sendFails => ∀ b, s.sender = .sending b → b.eq .unset = true
  | _ => True

/-! ### The account -/

/-- **Every bundle that was queued is in one place, or was returned.** -/
structure Accounted (s : TCPConnection) : Prop where
  count_eq : ∀ b, (s.events.map TransferEvent.bundle).count b + s.queue.count b +
    s.sentqueue.count b + s.sender.held.count b = s.queued.count b
  queue_eq_nil : s.receiver = .draining ∨ s.receiver = .done → s.queue = []
  sentqueue_eq_nil : s.receiver = .done → s.sentqueue = []

variable {s s' : TCPConnection}

theorem accounted_create (node : EID) : (create node).Accounted :=
  ⟨fun _ => rfl, fun _ => rfl, fun _ => rfl⟩

/-- A bundle of the sent queue is acknowledged or refused. -/
theorem Accounted.acknowledge (h : s.Accounted) {event : BundleID → TransferEvent}
    (hevent : ∀ b, (event b).bundle = b) : (s.acknowledge event).Accounted := by
  rw [TCPConnection.acknowledge]
  cases hsent : s.sentqueue with
  | nil => exact h
  | cons b sentqueue =>
      refine ⟨fun c => ?_, h.queue_eq_nil, fun hdone => ?_⟩
      · have hcount := h.count_eq c
        rw [hsent, List.count_cons] at hcount
        simp only [List.map_append, List.map_cons, List.map_nil, List.count_append,
          List.count_singleton, hevent]
        omega
      · rw [h.sentqueue_eq_nil hdone] at hsent
        cases hsent

/-- The connection thread and the layer keep the account. -/
theorem Accounted.of_receiver (h : s.Accounted) {r : Receiver}
    (hqueue : r = .draining ∨ r = .done → s.queue = [])
    (hsentqueue : r = .done → s.sentqueue = []) :
    ({ s with receiver := r } : TCPConnection).Accounted :=
  ⟨h.count_eq, hqueue, hsentqueue⟩

/-- The sender goes on with what it holds. -/
theorem Accounted.of_sender (h : s.Accounted) {t : Sender} (ht : t.held = s.sender.held) :
    ({ s with sender := t } : TCPConnection).Accounted :=
  ⟨fun b => by rw [← h.count_eq, ht], h.queue_eq_nil, h.sentqueue_eq_nil⟩

/-- A bundle is queued. -/
theorem Accounted.queue (h : s.Accounted) {b : BundleID}
    (hstep : s.step (.queue b) = some s') : s'.Accounted := by
  rw [TCPConnection.step] at hstep
  split_ifs at hstep with hlisted
  obtain rfl := Option.some.inj hstep
  refine ⟨fun c => ?_, fun hr => ?_, h.sentqueue_eq_nil⟩
  · have hcount := h.count_eq c
    simp only [List.count_append]
    omega
  · rcases hlisted with hlisted | hlisted <;> rw [hlisted] at hr <;> rcases hr with hr | hr <;>
      cases hr

/-- The connection thread returns a bundle of the queue, or is done with it. -/
theorem Accounted.clearQueue (h : s.Accounted)
    (hstep : s.step .clearQueue = some s') : s'.Accounted := by
  rw [TCPConnection.step] at hstep
  split at hstep
  · rename_i b queue hreceiver hqueue
    obtain rfl := Option.some.inj hstep
    refine ⟨fun c => ?_, fun hr => ?_, h.sentqueue_eq_nil⟩
    · have hcount := h.count_eq c
      rw [hqueue, List.count_cons] at hcount
      simp only [List.map_append, List.map_cons, List.map_nil, List.count_append,
        List.count_singleton, TransferEvent.bundle]
      omega
    · rw [h.queue_eq_nil hr] at hqueue
      cases hqueue
  · rename_i hreceiver hqueue
    obtain rfl := Option.some.inj hstep
    exact h.of_receiver (fun _ => hqueue) nofun
  · cases hstep

/-- The connection thread returns a bundle of the sent queue, or is done with it. -/
theorem Accounted.clearSentqueue (h : s.Accounted)
    (hstep : s.step .clearSentqueue = some s') : s'.Accounted := by
  rw [TCPConnection.step] at hstep
  split at hstep
  · rename_i b sentqueue hreceiver hsent
    obtain rfl := Option.some.inj hstep
    refine ⟨fun c => ?_, h.queue_eq_nil, fun hr => ?_⟩
    · have hcount := h.count_eq c
      rw [hsent, List.count_cons] at hcount
      simp only [List.map_append, List.map_cons, List.map_nil, List.count_append,
        List.count_singleton, TransferEvent.bundle]
      omega
    · rw [h.sentqueue_eq_nil hr] at hsent
      cases hsent
  · rename_i hreceiver hsent
    obtain rfl := Option.some.inj hstep
    exact h.of_receiver (fun _ => h.queue_eq_nil (.inl hreceiver)) fun _ => hsent
  · cases hstep

/-- The sender takes a bundle out of the queue. -/
theorem Accounted.take (h : s.Accounted)
    (hstep : s.step .take = some s') : s'.Accounted := by
  rw [TCPConnection.step] at hstep
  split at hstep
  · rename_i b queue hsender hqueue
    obtain rfl := Option.some.inj hstep
    refine ⟨fun c => ?_, fun hr => ?_, h.sentqueue_eq_nil⟩
    · have hcount := h.count_eq c
      rw [hqueue, hsender, List.count_cons] at hcount
      simp only [Sender.held, List.count_singleton, List.count_nil] at hcount ⊢
      omega
    · rw [h.queue_eq_nil hr] at hqueue
      cases hqueue
  · cases hstep

/-- The storage has the bundle, which is put into the sent queue. -/
theorem Accounted.found (h : s.Accounted) {stored : BundleID} (horderly : s.Orderly (.found stored))
    (hstep : s.step (.found stored) = some s') : s'.Accounted := by
  rw [TCPConnection.step] at hstep
  split at hstep
  · rename_i b hsender
    obtain rfl := Option.some.inj hstep
    obtain ⟨rfl, hdone⟩ := horderly b hsender
    refine ⟨fun c => ?_, h.queue_eq_nil, fun hr => absurd hr hdone⟩
    have hcount := h.count_eq c
    rw [hsender] at hcount
    simp only [Sender.held, List.count_append, List.count_nil] at hcount ⊢
    omega
  · cases hstep

/-- The storage does not have the bundle any more. -/
theorem Accounted.noBundleFound (h : s.Accounted)
    (hstep : s.step .noBundleFound = some s') : s'.Accounted := by
  rw [TCPConnection.step] at hstep
  split at hstep
  · rename_i b hsender
    obtain rfl := Option.some.inj hstep
    refine ⟨fun c => ?_, h.queue_eq_nil, h.sentqueue_eq_nil⟩
    have hcount := h.count_eq c
    rw [hsender] at hcount
    simp only [Sender.held, List.map_append, List.map_cons, List.map_nil, List.count_append,
      List.count_nil, TransferEvent.bundle] at hcount ⊢
    omega
  · cases hstep

/-- The sender ends behind an exception. -/
theorem Accounted.senderFinally (h : s.Accounted)
    (hstep : s.step .senderFinally = some s') : s'.Accounted := by
  rw [TCPConnection.step] at hstep
  split at hstep
  · rename_i b hsender
    obtain rfl := Option.some.inj hstep
    refine ⟨fun c => ?_, h.queue_eq_nil, h.sentqueue_eq_nil⟩
    have hcount := h.count_eq c
    rw [hsender, Sender.held] at hcount
    split_ifs at hcount ⊢ with hunset
    · exact hcount
    · simp only [Sender.held, List.map_append, List.map_cons, List.map_nil, List.count_append,
        List.count_nil, TransferEvent.bundle] at hcount ⊢
      omega
  · cases hstep

/-- **An orderly step keeps the account.** -/
theorem Accounted.step (h : s.Accounted) {a : Action} (horderly : s.Orderly a)
    (hstep : s.step a = some s') : s'.Accounted := by
  cases a with
  | queue b => exact h.queue hstep
  | eventConnectionUp localeid =>
      rw [TCPConnection.step] at hstep
      split_ifs at hstep
      obtain rfl := Option.some.inj hstep
      exact ⟨h.count_eq, h.queue_eq_nil, h.sentqueue_eq_nil⟩
  | startSender =>
      rw [TCPConnection.step] at hstep
      split_ifs at hstep with hstart
      obtain rfl := Option.some.inj hstep
      exact h.of_sender (by rw [hstart.2]; rfl)
  | eventBundleForwarded =>
      rw [TCPConnection.step] at hstep
      split_ifs at hstep
      obtain rfl := Option.some.inj hstep
      exact h.acknowledge fun _ => rfl
  | eventBundleRefused =>
      rw [TCPConnection.step] at hstep
      split_ifs at hstep
      obtain rfl := Option.some.inj hstep
      exact h.acknowledge fun _ => rfl
  | down =>
      rw [TCPConnection.step] at hstep
      split_ifs at hstep
      obtain rfl := Option.some.inj hstep
      exact h.of_receiver (by simp) nofun
  | connectionDown =>
      rw [TCPConnection.step] at hstep
      split_ifs at hstep
      obtain rfl := Option.some.inj hstep
      exact h.of_receiver (by simp) nofun
  | clearQueue => exact h.clearQueue hstep
  | clearSentqueue => exact h.clearSentqueue hstep
  | take => exact h.take hstep
  | found stored => exact h.found horderly hstep
  | noBundleFound => exact h.noBundleFound hstep
  | readFails =>
      rw [TCPConnection.step] at hstep
      split at hstep
      · rename_i b hsender
        obtain rfl := Option.some.inj hstep
        refine h.of_sender ?_
        simp only [hsender, Sender.held, horderly b hsender]
        rfl
      · cases hstep
  | sent =>
      rw [TCPConnection.step] at hstep
      split at hstep
      · rename_i b hsender
        obtain rfl := Option.some.inj hstep
        exact h.of_sender (by rw [hsender]; rfl)
      · cases hstep
  | sendFails =>
      rw [TCPConnection.step] at hstep
      split at hstep
      · rename_i b hsender
        obtain rfl := Option.some.inj hstep
        refine h.of_sender ?_
        simp only [hsender, Sender.held, horderly b hsender]
        rfl
      · cases hstep
  | unblocked =>
      rw [TCPConnection.step] at hstep
      split_ifs at hstep with hsender
      obtain rfl := Option.some.inj hstep
      exact h.of_sender (by rw [hsender]; rfl)
  | senderFinally => exact h.senderFinally hstep

/-- **Every bundle is returned once**: in every run of orderly steps, there are at most as many
events about a bundle as it was queued, and behind the teardown exactly as many, and both queues are
empty. -/
theorem returned_run {node : EID} {as : List Action} {s : TCPConnection}
    (hrun : Run (fun s a s' => s.step a = some s') Orderly (create node) as s) :
    (∀ b, (s.events.map TransferEvent.bundle).count b ≤ s.queued.count b) ∧
      (s.TornDown → (∀ b, (s.events.map TransferEvent.bundle).count b = s.queued.count b) ∧
        s.queue = [] ∧ s.sentqueue = []) := by
  have h : s.Accounted := hrun.invariant (accounted_create node)
    fun _ _ _ h horderly hstep => h.step horderly hstep
  refine ⟨fun b => ?_, fun ⟨hdone, hsender⟩ => ?_⟩
  · have hcount := h.count_eq b
    omega
  · have hqueue := h.queue_eq_nil (.inr hdone)
    have hsentqueue := h.sentqueue_eq_nil hdone
    refine ⟨fun b => ?_, hqueue, hsentqueue⟩
    have hheld : s.sender.held = [] := by
      rcases hsender with hsender | hsender <;> rw [hsender] <;> rfl
    have hcount := h.count_eq b
    rwa [hqueue, hsentqueue, hheld] at hcount

/-- A bundle is sent and acknowledged before the connection goes down. -/
theorem returned_run_sample :
    ∃ s : TCPConnection, s.TornDown ∧ s.queued = [⟨EID.none, 7, 0, false, 0⟩] ∧
      ∀ b, (s.events.map TransferEvent.bundle).count b = s.queued.count b := by
  let b : BundleID := ⟨EID.none, 7, 0, false, 0⟩
  have hup : Run (fun s a s' => s.step a = some s') Orderly (create EID.none)
      [.queue b, .startSender, .take, .found b, .sent, .eventBundleForwarded] _ :=
    (((((Run.nil.snoc (i := Action.queue b) trivial rfl).snoc
      (i := Action.startSender) trivial rfl).snoc (i := Action.take) trivial rfl).snoc
      (i := Action.found b) (by rintro _ ⟨⟩; exact ⟨rfl, nofun⟩) rfl).snoc
      (i := Action.sent) trivial rfl).snoc (i := Action.eventBundleForwarded) trivial rfl
  have hrun := ((((hup.snoc (i := Action.down) trivial rfl).snoc
    (i := Action.unblocked) trivial rfl).snoc (i := Action.connectionDown) trivial rfl).snoc
    (i := Action.clearQueue) trivial rfl).snoc (i := Action.clearSentqueue) trivial rfl
  exact ⟨_, by decide, rfl, ((returned_run hrun).2 (by decide)).1⟩

/-- An exception in the transmission: `finally` returns the current transfer, and the connection
thread returns it once more with the sent queue.  Besides, a sender that gets its bundle from the
storage behind the teardown leaves it in the sent queue. -/
theorem not_returned_run :
    (([.queue ⟨EID.none, 7, 0, false, 0⟩, .startSender, .take, .found ⟨EID.none, 7, 0, false, 0⟩,
        .sendFails, .senderFinally, .down, .connectionDown, .clearQueue, .clearSentqueue,
        .clearSentqueue] : List Action).foldlM step (create EID.none)).any (fun s =>
          s.TornDown ∧ s.queued = [⟨EID.none, 7, 0, false, 0⟩] ∧
          s.events = [.requeued EID.none ⟨EID.none, 7, 0, false, 0⟩,
            .requeued EID.none ⟨EID.none, 7, 0, false, 0⟩]) ∧
    (([.queue ⟨EID.none, 7, 0, false, 0⟩, .startSender, .take, .down, .connectionDown, .clearQueue,
        .clearSentqueue, .found ⟨EID.none, 7, 0, false, 0⟩, .sendFails, .senderFinally] :
          List Action).foldlM step (create EID.none)).any (fun s =>
            s.TornDown ∧ s.sentqueue = [⟨EID.none, 7, 0, false, 0⟩]) := by
  decide +kernel

end TCPConnection

end IbrDtn
