import IbrDtn.Routing.BaseRouter
import IbrDtn.Library.Transition

/-!
# The retransmission extension

This file models `daemon/src/routing/RetransmissionExtension.cpp`.  A bundle that could not be sent to a
peer is queued and sent again when its time has come, at most one at every tick of the clock.  The
attempts are counted in a set, whose order is that of the bundle identifiers: it does not look at
the peer.  The queue is not searched when a transfer is completed or aborted, and compares
identifiers with `BundleID::operator==` when a bundle expires.

## Main definitions

* `RetransmissionExtension`, `RetransmissionExtension.notify` : the extension and its events.
* `RetransmissionExtension.Ledger` : the attempts and the scheduled retransmissions of every pair of
  a bundle and a peer.
* `RetransmissionExtension.Ledger.accept` : what an extension may do.
* `RetransmissionExtension.Orderly` : the events on which the extension keeps to it.

## Main results

* `RetransmissionExtension.Agrees.step` : such an event keeps the extension in line with the ledger.
* `RetransmissionExtension.accepted_run` : behind every run of such events everything was accepted,
  and what is scheduled is sent as the run goes on.
-/

namespace IbrDtn

open OrderedSet (Holds)

/-- `class RetransmissionExtension::RetransmissionData`, with the identifier that it is derived
from. -/
structure RetransmissionData where
  bundleID : BundleID
  destination : EID
  timestamp : UInt64
  count : ℕ
deriving DecidableEq

namespace RetransmissionData

/-- The default of `retry`, which is never given. -/
def retry : ℕ := 2

/-- `RetransmissionData::operator++`, at the given time. -/
def increment (now : UInt64) (a : RetransmissionData) : RetransmissionData :=
  { a with count := a.count + 1, timestamp := now + UInt64.ofNat (retry ^ a.count) }

/-- `RetransmissionData::RetransmissionData`. -/
def create (now : UInt64) (id : BundleID) (destination : EID) : RetransmissionData :=
  increment now ⟨id, destination, 0, 0⟩

/-- The bundle and the peer. -/
def pair (a : RetransmissionData) : BundleID × EID := (a.bundleID, a.destination)

end RetransmissionData

/-- `class RetransmissionExtension`. -/
structure RetransmissionExtension where
  queue : List RetransmissionData
  set : List RetransmissionData
deriving DecidableEq

namespace RetransmissionExtension

/-- The events that the extension is notified of, a `RequeueBundleEvent` with the time on the clock.
-/
inductive Event where
  | time (timestamp : UInt64)
  | transferCompleted (peer : EID) (id : BundleID)
  | transferAborted (peer : EID) (id : BundleID)
  | requeue (now : UInt64) (peer : EID) (id : BundleID)
  | bundleExpired (id : BundleID)

/-- What the extension does: it calls `BundleCore::transferTo`, or raises a `TransferAbortedEvent`.
-/
inductive Effect where
  | transferTo (destination : EID) (id : BundleID)
  | transferAborted (peer : EID) (id : BundleID) (reason : AbortReason)
deriving DecidableEq

/-- `_set.find(data)`. -/
def find? (x : RetransmissionExtension) (id : BundleID) : Option RetransmissionData :=
  OrderedSet.find? RetransmissionData.bundleID BundleID.lt id x.set

/-- `_set.erase(data)`. -/
def erase (x : RetransmissionExtension) (id : BundleID) : RetransmissionExtension :=
  { x with set := OrderedSet.erase RetransmissionData.bundleID BundleID.lt id x.set }

/-- `_set.insert(data)` and `_queue.push(data)`. -/
def push (x : RetransmissionExtension) (a : RetransmissionData) : RetransmissionExtension where
  queue := x.queue ++ [a]
  set := OrderedSet.insert RetransmissionData.bundleID BundleID.lt a x.set

/-- The loop over the queue for a bundle that expired: the elements are taken from the front, and
those of other bundles are put back at the end. -/
def rotate (id : BundleID) : ℕ → List RetransmissionData → List RetransmissionData × List Effect
  | 0, queue => (queue, [])
  | _ + 1, [] => ([], [])
  | n + 1, a :: queue =>
      if a.bundleID.eq id then
        let (queue, effects) := rotate id n queue
        (queue, .transferAborted a.destination a.bundleID .bundleDeleted :: effects)
      else rotate id n (queue ++ [a])

/-- `RetransmissionExtension::notify`. -/
def notify (x : RetransmissionExtension) : Event → RetransmissionExtension × List Effect
  | .time timestamp =>
      match x.queue with
      | [] => (x, [])
      | a :: queue =>
          if a.timestamp ≤ timestamp then
            ({ x with queue }, [.transferTo a.destination a.bundleID])
          else (x, [])
  | .transferCompleted _ id => (x.erase id, [])
  | .transferAborted _ id => (x.erase id, [])
  | .requeue now peer id =>
      match x.find? id with
      | some a =>
          let a := a.increment now
          if a.count ≤ 8 then ((x.erase id).push a, [])
          else (x.erase id, [.transferAborted peer id .retryLimitReached])
      | none => (x.push (.create now id peer), [])
  | .bundleExpired id =>
      let (queue, effects) := rotate id x.queue.length x.queue
      ({ x with queue }, effects)

/-! ### The ledger -/

/-- A scheduled retransmission. -/
structure Scheduled where
  id : BundleID
  destination : EID
  timestamp : UInt64
deriving DecidableEq

/-- What is known about the pairs of a bundle and a peer: how often in a row each was requeued, and
the retransmissions that are scheduled. -/
structure Ledger where
  attempts : BundleID × EID → ℕ
  pending : List Scheduled

namespace Ledger

/-- The pair is closed: it starts anew, and nothing of it is scheduled. -/
def close (l : Ledger) (peer : EID) (id : BundleID) : Ledger where
  attempts := Function.update l.attempts (id, peer) 0
  pending := l.pending.filter fun p => decide ¬ (p.id = id ∧ p.destination = peer)

/-- **What an extension may do with an event**: the ledger behind it, or nothing if it may not. A
requeue schedules a retransmission of its pair, and the ninth one in a row reports that the pair
is aborted. A bundle is sent to a peer only when a retransmission of this pair is due. What is
scheduled for a bundle that expires is reported. -/
def accept (l : Ledger) : Event → List Effect → Option Ledger
  | .requeue now peer id, effects =>
      let n := l.attempts (id, peer)
      if n < 8 then
        if effects = [] then
          some ⟨Function.update l.attempts (id, peer) (n + 1),
            l.pending ++ [⟨id, peer, now + UInt64.ofNat (2 ^ n)⟩]⟩
        else none
      else if effects = [.transferAborted peer id .retryLimitReached] then
        some { l with attempts := Function.update l.attempts (id, peer) 0 }
      else none
  | .transferCompleted peer id, effects => if effects = [] then some (l.close peer id) else none
  | .transferAborted peer id, effects => if effects = [] then some (l.close peer id) else none
  | .bundleExpired id, effects =>
      if effects = (l.pending.filter fun p => decide (p.id = id)).map fun p =>
          .transferAborted p.destination p.id .bundleDeleted then
        some { l with pending := l.pending.filter fun p => decide (p.id ≠ id) }
      else none
  | .time _, [] => some l
  | .time timestamp, [.transferTo peer id] =>
      match l.pending.find? fun p => decide (p.id = id ∧ p.destination = peer ∧
          p.timestamp ≤ timestamp) with
      | some p => some { l with pending := l.pending.erase p }
      | none => none
  | .time _, _ => none

end Ledger

/-- An extension whose effects are compared with the ledger and collected. -/
structure Watched where
  extension : RetransmissionExtension
  ledger : Option Ledger
  effects : List Effect

namespace Watched

/-- A new extension. -/
def start : Watched := ⟨⟨[], []⟩, some ⟨fun _ => 0, []⟩, []⟩

/-- An event. -/
def step (s : Watched) (e : Event) : Watched :=
  let (extension, effects) := s.extension.notify e
  ⟨extension, s.ledger.bind fun l => l.accept e effects, s.effects ++ effects⟩

end Watched

/-! ### The events on which the extension keeps to the ledger -/

/-- Every element of the set is of this pair, or has an identifier that the order tells apart. -/
def TellsApart (x : RetransmissionExtension) (peer : EID) (id : BundleID) : Prop :=
  ∀ a ∈ x.set, a.pair = (id, peer) ∨ a.bundleID.Comparable id

instance (x : RetransmissionExtension) (peer : EID) (id : BundleID) :
    Decidable (x.TellsApart peer id) :=
  inferInstanceAs (Decidable (∀ a ∈ x.set, _ ∨ _))

/-- **The events on which the extension keeps to the ledger**: the set tells the pair apart; when a
pair is completed or aborted, the queue has none of its retransmissions; and when a bundle expires,
`BundleID::operator==` takes no other bundle of the queue for it. -/
def Orderly (x : RetransmissionExtension) : Event → Prop
  | .time _ => True
  | .transferCompleted peer id | .transferAborted peer id =>
      x.TellsApart peer id ∧ ∀ a ∈ x.queue, a.pair ≠ (id, peer)
  | .requeue _ peer id => x.TellsApart peer id
  | .bundleExpired id => ∀ a ∈ x.queue, a.bundleID.eq id = true → a.bundleID = id

instance (x : RetransmissionExtension) (e : Event) : Decidable (x.Orderly e) :=
  match e with
  | .time _ => inferInstanceAs (Decidable True)
  | .transferCompleted _ _ => inferInstanceAs (Decidable (_ ∧ ∀ a ∈ x.queue, _ ≠ _))
  | .transferAborted _ _ => inferInstanceAs (Decidable (_ ∧ ∀ a ∈ x.queue, _ ≠ _))
  | .requeue _ peer id => inferInstanceAs (Decidable (x.TellsApart peer id))
  | .bundleExpired _ => inferInstanceAs (Decidable (∀ a ∈ x.queue, _ → _))

/-! ### The set -/

/-- The set counts the attempts of the pairs. -/
structure Counts (set : List RetransmissionData) (attempts : BundleID × EID → ℕ) : Prop where
  holds : Holds RetransmissionData.bundleID BundleID.rank set set
  counted : ∀ a ∈ set, attempts a.pair = a.count
  uncounted : ∀ p, (∀ a ∈ set, a.pair ≠ p) → attempts p = 0

section Counts

variable {x : RetransmissionExtension} {attempts : BundleID × EID → ℕ} {peer : EID} {id : BundleID}

/-- What is left when the pair is taken out of the set. -/
structure Without (x : RetransmissionExtension) (peer : EID) (id : BundleID)
    (t : List RetransmissionData) : Prop where
  holds : Holds RetransmissionData.bundleID BundleID.rank (x.erase id).set t
  apart : ∀ a ∈ t, a.bundleID.Comparable id
  mem : ∀ a ∈ t, a ∈ x.set
  rest : ∀ a ∈ x.set, a ∈ t ∨ a.pair = (id, peer)

theorem Without.pair_ne {t : List RetransmissionData} (h : Without x peer id t)
    {a : RetransmissionData} (ha : a ∈ t) : a.pair ≠ (id, peer) := fun heq => by
  have hid : a.bundleID = id := congrArg Prod.fst heq
  rcases hid ▸ h.apart a ha with hlt | hlt
  · exact Bool.noConfusion (hlt.symm.trans (BundleID.lt_self _))
  · exact Bool.noConfusion (hlt.symm.trans (BundleID.lt_self _))

/-- **The set finds the pair, or it has no element of this pair.** -/
theorem Counts.without (h : Counts x.set attempts) (hx : x.TellsApart peer id) :
    ∃ t, Without x peer id t ∧
      (x.find? id = none ∧ attempts (id, peer) = 0 ∧ x.erase id = x ∨
        ∃ a, x.find? id = some a ∧ a.pair = (id, peer) ∧ attempts (id, peer) = a.count) := by
  by_cases hmem : ∃ a ∈ x.set, a.pair = (id, peer)
  · obtain ⟨a, ha, hpair⟩ := hmem
    have hid : a.bundleID = id := congrArg Prod.fst hpair
    obtain ⟨l, r, hset⟩ := List.append_of_mem ha
    have hperm : x.set.Perm (a :: (l ++ r)) := hset ▸ List.perm_middle
    have hholds := h.holds.of_perm hperm
    have hne : ∀ b ∈ l ++ r, b.pair ≠ (id, peer) := by
      intro b hb heq
      have hbid : b.bundleID = id := congrArg Prod.fst heq
      have hrank : b.bundleID.rank = a.bundleID.rank := by rw [hbid, hid]
      have hsorted := h.holds.sorted
      rw [hset, List.pairwise_append, List.pairwise_cons] at hsorted
      rcases List.mem_append.1 hb with hb | hb
      · exact (hsorted.2.2 b hb a List.mem_cons_self).ne hrank
      · exact (hsorted.2.1.1 b hb).ne' hrank
    have hapart : ∀ b ∈ l ++ r, b.bundleID.Comparable id := fun b hb =>
      (hx b (hperm.mem_iff.2 (List.mem_cons_of_mem a hb))).resolve_left (hne b hb)
    have hranked := fun b hb => BundleID.ranked_of_comparable (hapart b hb)
    have hself : OrderedSet.Equivalent BundleID.lt BundleID.rank a.bundleID id :=
      hid ▸ BundleID.equivalent_self _
    refine ⟨l ++ r, ⟨hholds.erase hself hranked, hapart, fun b hb =>
      hperm.mem_iff.2 (List.mem_cons_of_mem a hb), fun b hb => ?_⟩,
      .inr ⟨a, hholds.find?_eq_some hself hranked, hpair, hpair ▸ h.counted a ha⟩⟩
    rcases List.mem_cons.1 (hperm.mem_iff.1 hb) with rfl | hb
    · exact .inr hpair
    · exact .inl hb
  · have hne : ∀ a ∈ x.set, a.pair ≠ (id, peer) := fun a ha hpair => hmem ⟨a, ha, hpair⟩
    have hapart : ∀ a ∈ x.set, a.bundleID.Comparable id := fun a ha =>
      (hx a ha).resolve_left (hne a ha)
    have hranked := fun a ha => BundleID.ranked_of_comparable (hapart a ha)
    have herase : x.erase id = x := by rw [erase, h.holds.erase_eq_self hranked]
    exact ⟨x.set, ⟨herase.symm ▸ h.holds, hapart, fun a ha => ha, fun a ha => .inl ha⟩,
      .inl ⟨h.holds.find?_eq_none hranked, h.uncounted _ hne, herase⟩⟩

/-- The pair is taken out of the set. -/
theorem Without.counts {t : List RetransmissionData} (h : Without x peer id t)
    (hcounts : Counts x.set attempts) :
    Counts (x.erase id).set (Function.update attempts (id, peer) 0) := by
  refine ⟨⟨.refl _, h.holds.sorted⟩, fun a ha => ?_, fun p hp => ?_⟩
  · have ha := h.holds.perm.mem_iff.1 ha
    rw [Function.update_of_ne (h.pair_ne ha)]
    exact hcounts.counted a (h.mem a ha)
  · by_cases hpair : p = (id, peer)
    · rw [hpair, Function.update_self]
    · rw [Function.update_of_ne hpair]
      refine hcounts.uncounted p fun a ha => ?_
      rcases h.rest a ha with hat | heq
      · exact hp a (h.holds.perm.mem_iff.2 hat)
      · exact heq ▸ Ne.symm hpair

/-- The pair is put into the set again. -/
theorem Without.counts_push {t : List RetransmissionData} (h : Without x peer id t)
    (hcounts : Counts x.set attempts) {a : RetransmissionData} (hpair : a.pair = (id, peer)) :
    Counts ((x.erase id).push a).set (Function.update attempts (id, peer) a.count) := by
  have hid : a.bundleID = id := congrArg Prod.fst hpair
  have hholds := h.holds.insert (a := a) fun b hb =>
    BundleID.ranked_of_comparable (hid ▸ h.apart b hb)
  refine ⟨⟨.refl _, hholds.sorted⟩, fun b hb => ?_, fun p hp => ?_⟩
  · rcases List.mem_cons.1 (hholds.perm.mem_iff.1 hb) with rfl | hb
    · rw [hpair, Function.update_self]
    · rw [Function.update_of_ne (h.pair_ne hb)]
      exact hcounts.counted b (h.mem b hb)
  · have hne : p ≠ (id, peer) := fun heq =>
      hp a (hholds.perm.mem_iff.2 List.mem_cons_self) (hpair.trans heq.symm)
    rw [Function.update_of_ne hne]
    refine hcounts.uncounted p fun b hb => ?_
    rcases h.rest b hb with hbt | heq
    · exact hp b (hholds.perm.mem_iff.2 (List.mem_cons_of_mem a hbt))
    · exact heq ▸ hne.symm

end Counts

/-! ### The queue -/

/-- The loop sorts out the elements that are equal to the bundle. -/
theorem rotate_append (id : BundleID) (front back : List RetransmissionData) :
    rotate id front.length (front ++ back) =
      (back ++ front.filter fun a => !a.bundleID.eq id,
        (front.filter fun a => a.bundleID.eq id).map fun a =>
          .transferAborted a.destination a.bundleID .bundleDeleted) := by
  induction front generalizing back with
  | nil => simp [rotate]
  | cons a front ih =>
      rw [List.length_cons, List.cons_append, rotate]
      by_cases heq : a.bundleID.eq id = true
      · rw [if_pos heq, ih]
        simp [heq]
      · rw [if_neg heq, List.append_assoc, ih]
        simp [heq]

theorem rotate_queue (id : BundleID) (queue : List RetransmissionData) :
    rotate id queue.length queue =
      (queue.filter fun a => !a.bundleID.eq id,
        (queue.filter fun a => a.bundleID.eq id).map fun a =>
          .transferAborted a.destination a.bundleID .bundleDeleted) := by
  have h := rotate_append id queue []
  rwa [List.append_nil, List.nil_append] at h

/-- What is scheduled by an element of the queue. -/
def scheduled (a : RetransmissionData) : Scheduled := ⟨a.bundleID, a.destination, a.timestamp⟩

/-- **The extension is in line with the ledger.** -/
structure Agrees (x : RetransmissionExtension) (l : Ledger) : Prop where
  pending : x.queue.map scheduled = l.pending
  counts : Counts x.set l.attempts

theorem agrees_start : (⟨[], []⟩ : RetransmissionExtension).Agrees ⟨fun _ => 0, []⟩ :=
  ⟨rfl, OrderedSet.holds_nil, fun _ ha => absurd ha List.not_mem_nil, fun _ _ => rfl⟩

namespace Agrees

variable {x : RetransmissionExtension} {l : Ledger} (h : x.Agrees l) {peer : EID} {id : BundleID}

include h

/-- A tick of the clock. -/
theorem time (timestamp : UInt64) : ∃ l', l.accept (.time timestamp)
    (x.notify (.time timestamp)).2 = some l' ∧ (x.notify (.time timestamp)).1.Agrees l' := by
  rw [notify]
  have hpending := h.pending
  rcases hqueue : x.queue with _ | ⟨a, queue⟩
  · exact ⟨l, rfl, h⟩
  · rw [hqueue, List.map_cons] at hpending
    dsimp only
    by_cases hdue : a.timestamp ≤ timestamp
    · rw [if_pos hdue]
      have hfind : l.pending.find? (fun p => decide (p.id = a.bundleID ∧
          p.destination = a.destination ∧ p.timestamp ≤ timestamp)) = some (scheduled a) := by
        rw [← hpending]
        exact List.find?_cons_of_pos (decide_eq_true ⟨rfl, rfl, hdue⟩)
      refine ⟨{ l with pending := l.pending.erase (scheduled a) }, ?_, ?_, h.counts⟩
      · rw [Ledger.accept, hfind]
      · rw [← hpending, List.erase_cons_head]
    · rw [if_neg hdue]
      exact ⟨l, rfl, h⟩

/-- A pair is completed or aborted, and nothing of it is in the queue. -/
theorem close (hx : x.TellsApart peer id) (hqueue : ∀ a ∈ x.queue, a.pair ≠ (id, peer)) :
    (x.erase id).Agrees (l.close peer id) := by
  obtain ⟨t, ht, -⟩ := h.counts.without hx
  refine ⟨?_, ht.counts h.counts⟩
  change x.queue.map scheduled = l.pending.filter _
  rw [← h.pending, List.filter_eq_self.2]
  intro p hp
  obtain ⟨a, ha, rfl⟩ := List.mem_map.1 hp
  exact decide_eq_true fun heq => hqueue a ha (Prod.ext heq.1 heq.2)

/-- A pair is requeued. -/
theorem requeue (hx : x.TellsApart peer id) (now : UInt64) :
    ∃ l', l.accept (.requeue now peer id) (x.notify (.requeue now peer id)).2 = some l' ∧
      (x.notify (.requeue now peer id)).1.Agrees l' := by
  obtain ⟨t, ht, hfind⟩ := h.counts.without hx
  rcases hfind with ⟨hfind, hattempts, herase⟩ | ⟨a, hfind, hpair, hattempts⟩
  · have hcounts := ht.counts_push h.counts (a := .create now id peer) rfl
    have hnotify : x.notify (.requeue now peer id) = (x.push (.create now id peer), []) := by
      rw [notify, hfind]
    rw [herase] at hcounts
    rw [hnotify, Ledger.accept, hattempts]
    refine ⟨_, rfl, ?_, hcounts⟩
    rw [← h.pending]
    exact List.map_append
  · have hcounts := ht.counts_push h.counts (a := a.increment now) hpair
    by_cases hcount : a.count < 8
    · have hnotify : x.notify (.requeue now peer id) =
          ((x.erase id).push (a.increment now), []) := by
        rw [notify, hfind]
        exact if_pos hcount
      rw [hnotify, Ledger.accept, hattempts, if_pos hcount]
      refine ⟨_, rfl, ?_, hcounts⟩
      have hscheduled : scheduled (a.increment now) =
          ⟨id, peer, now + UInt64.ofNat (2 ^ a.count)⟩ := by
        obtain ⟨rfl, rfl⟩ := Prod.mk.inj hpair
        rfl
      rw [← h.pending, ← hscheduled]
      exact List.map_append
    · have hnotify : x.notify (.requeue now peer id) =
          (x.erase id, [.transferAborted peer id .retryLimitReached]) := by
        rw [notify, hfind]
        exact if_neg hcount
      rw [hnotify, Ledger.accept, hattempts, if_neg hcount, if_pos rfl]
      exact ⟨_, rfl, h.pending, ht.counts h.counts⟩

/-- A bundle expires. -/
theorem bundleExpired (hx : ∀ a ∈ x.queue, a.bundleID.eq id = true → a.bundleID = id) :
    ∃ l', l.accept (.bundleExpired id) (x.notify (.bundleExpired id)).2 = some l' ∧
      (x.notify (.bundleExpired id)).1.Agrees l' := by
  have heq : ∀ a ∈ x.queue, a.bundleID.eq id = decide ((scheduled a).id = id) := by
    intro a ha
    rw [Bool.eq_iff_iff, decide_eq_true_iff]
    exact ⟨hx a ha, fun heq => (congrArg _ heq.symm).trans (BundleID.eq_refl _)⟩
  rw [notify, rotate_queue, Ledger.accept, if_pos]
  · refine ⟨_, rfl, ?_, h.counts⟩
    rw [← h.pending, List.filter_map]
    refine congrArg _ (List.filter_congr fun a ha => ?_)
    rw [heq a ha, ← decide_not]
    rfl
  · rw [← h.pending, List.filter_map, List.map_map]
    exact congrArg _ (List.filter_congr heq)

/-- **An orderly event keeps the extension in line with the ledger**, which accepts what it does. -/
theorem step {e : Event} (hx : x.Orderly e) :
    ∃ l', l.accept e (x.notify e).2 = some l' ∧ (x.notify e).1.Agrees l' := by
  cases e with
  | time timestamp => exact h.time timestamp
  | transferCompleted peer id => exact ⟨_, rfl, h.close hx.1 hx.2⟩
  | transferAborted peer id => exact ⟨_, rfl, h.close hx.1 hx.2⟩
  | requeue now peer id => exact h.requeue hx now
  | bundleExpired id => exact h.bundleExpired hx

end Agrees

/-! ### Runs -/

namespace Watched

/-- The extension is in line with what the ledger accepted. -/
def Sound (s : Watched) : Prop := ∃ l, s.ledger = some l ∧ s.extension.Agrees l

/-- A run of orderly events. -/
abbrev OrderlyRun (s : Watched) (events : List Event) (s' : Watched) : Prop :=
  Transition.Run (fun s e s' => s' = s.step e) (fun s e => s.extension.Orderly e) s events s'

theorem Sound.step {s : Watched} (h : s.Sound) {e : Event} (he : s.extension.Orderly e) :
    (s.step e).Sound := by
  obtain ⟨l, hl, hagrees⟩ := h
  obtain ⟨l', haccept, hagrees'⟩ := hagrees.step he
  exact ⟨l', by rw [Watched.step, hl]; exact haccept, hagrees'⟩

theorem Sound.run {s s' : Watched} (h : s.Sound) {events : List Event}
    (hrun : s.OrderlyRun events s') : s'.Sound :=
  hrun.invariant h fun _ _ _ hs he hstep => hstep ▸ hs.step he

/-- The pair of a scheduled retransmission is completed or aborted, or its bundle expires. -/
def Ends (p : Scheduled) : Event → Prop
  | .transferCompleted peer id | .transferAborted peer id => p.id = id ∧ p.destination = peer
  | .bundleExpired id => p.id = id
  | _ => False

/-- A tick at the given time or later. -/
def late (time : UInt64) : Event → Bool
  | .time timestamp => decide (time ≤ timestamp)
  | _ => false

/-- A retransmission was sent, or it waits in the queue: those in front of it are due at the given
time as it is, and together with the late ticks that were, they are not more than at the start. -/
def Waits (p : Scheduled) (time : UInt64) (n ticks : ℕ) (s : Watched) (effects : List Effect) :
    Prop :=
  .transferTo p.destination p.id ∈ effects ∨
    ∃ front a back, s.extension.queue = front ++ a :: back ∧ scheduled a = p ∧
      (∀ b ∈ front ++ [a], b.timestamp ≤ time) ∧ front.length + ticks ≤ n

/-- A requeue puts a retransmission behind the others, if it schedules one. -/
theorem exists_queue_requeue (x : RetransmissionExtension) (now : UInt64) (peer : EID)
    (id : BundleID) : ∃ more, (x.notify (.requeue now peer id)).1.queue = x.queue ++ more := by
  rw [notify]
  split
  · dsimp only
    split_ifs
    · exact ⟨_, rfl⟩
    · exact ⟨[], (List.append_nil _).symm⟩
  · exact ⟨_, rfl⟩

variable {p : Scheduled} {time : UInt64} {n ticks : ℕ} {s : Watched} {effects : List Effect}

/-- At a late tick one retransmission less is in front of the one that waits, or it is sent. -/
theorem Waits.tick (h : s.Waits p time n ticks effects) (timestamp : UInt64) :
    (s.step (.time timestamp)).Waits p time n (ticks + if late time (.time timestamp) then 1 else 0)
      (effects ++ (s.extension.notify (.time timestamp)).2) := by
  rcases h with h | ⟨front, a, back, hqueue, hp, hdue, hn⟩
  · exact .inl (List.mem_append_left _ h)
  have hlate : ∀ b ∈ front ++ [a], ¬ b.timestamp ≤ timestamp →
      late time (.time timestamp) = false := fun b hb hnot =>
    decide_eq_false fun hle => hnot (UInt64.le_trans (hdue b hb) hle)
  cases front with
  | nil =>
      by_cases hle : a.timestamp ≤ timestamp
      · refine .inl (List.mem_append_right _ ?_)
        rw [notify, hqueue]
        dsimp only [List.nil_append]
        rw [if_pos hle, ← hp]
        exact List.mem_singleton.2 rfl
      · refine .inr ⟨[], a, back, ?_, hp, hdue, ?_⟩
        · rw [Watched.step, notify, hqueue]
          dsimp only [List.nil_append]
          rw [if_neg hle]
          exact hqueue
        · rw [hlate a (List.mem_singleton.2 rfl) hle]
          exact hn
  | cons b front =>
      by_cases hle : b.timestamp ≤ timestamp
      · refine .inr ⟨front, a, back, ?_, hp, fun c hc => hdue c (List.mem_cons_of_mem b hc), ?_⟩
        · rw [Watched.step, notify, hqueue]
          dsimp only [List.cons_append]
          rw [if_pos hle]
        · rw [List.length_cons] at hn
          split_ifs <;> omega
      · refine .inr ⟨b :: front, a, back, ?_, hp, hdue, ?_⟩
        · rw [Watched.step, notify, hqueue]
          dsimp only [List.cons_append]
          rw [if_neg hle]
          exact hqueue
        · rw [hlate b List.mem_cons_self hle]
          exact hn

/-- **An event does not let a retransmission wait longer.** -/
theorem Waits.step (h : s.Waits p time n ticks effects) {e : Event} (he : s.extension.Orderly e)
    (hends : ¬ Ends p e) :
    (s.step e).Waits p time n (ticks + if late time e then 1 else 0)
      (effects ++ (s.extension.notify e).2) := by
  cases e with
  | time timestamp => exact h.tick timestamp
  | transferCompleted peer id => exact h.imp (List.mem_append_left _) fun h => h
  | transferAborted peer id => exact h.imp (List.mem_append_left _) fun h => h
  | requeue now peer id =>
      refine h.imp (List.mem_append_left _) fun ⟨front, a, back, hqueue, hrest⟩ => ?_
      obtain ⟨more, hmore⟩ := exists_queue_requeue s.extension now peer id
      refine ⟨front, a, back ++ more, hmore.trans ?_, hrest⟩
      rw [hqueue, List.append_assoc, List.cons_append]
  | bundleExpired id =>
      refine h.imp (List.mem_append_left _) fun ⟨front, a, back, hqueue, hp, hdue, hn⟩ => ?_
      have ha : a ∈ s.extension.queue := hqueue ▸ List.mem_append_right _ List.mem_cons_self
      have hkept : (!a.bundleID.eq id) = true := by
        rw [Bool.not_eq_true', Bool.eq_false_iff]
        exact fun heq => hends (hp ▸ he a ha heq)
      refine ⟨front.filter fun a => !a.bundleID.eq id, a, back.filter fun a => !a.bundleID.eq id,
        ?_, hp, fun b hb => hdue b ?_, ?_⟩
      · rw [Watched.step, notify, rotate_queue, hqueue]
        dsimp only
        rw [List.filter_append]
        exact congrArg _ (List.filter_cons_of_pos hkept)
      · rcases List.mem_append.1 hb with hb | hb
        · exact List.mem_append_left _ (List.mem_of_mem_filter hb)
        · exact List.mem_append_right _ hb
      · exact (Nat.add_le_add_right (List.length_filter_le _ _) _).trans hn

/-- **Behind every run of orderly events the ledger has accepted everything**: each requeue
scheduled one retransmission of its pair, or reported the ninth one in a row; nothing was sent that
was not due for its pair; and what is scheduled is sent in every run that goes on with more late
ticks than retransmissions are in front, unless the pair is completed or aborted or the bundle
expires. -/
theorem accepted_run {events : List Event} (h : start.OrderlyRun events s) :
    ∃ l, s.ledger = some l ∧ ∀ later s', s.OrderlyRun later s' → ∀ front p back time,
      l.pending = front ++ p :: back → (∀ q ∈ front ++ [p], q.timestamp ≤ time) →
        (∀ e ∈ later, ¬ Ends p e) → front.length < later.countP (late time) →
          ∃ effects, s'.effects = s.effects ++ effects ∧
            .transferTo p.destination p.id ∈ effects := by
  obtain ⟨l, hl, hagrees⟩ := Sound.run ⟨_, rfl, agrees_start⟩ h
  refine ⟨l, hl, fun later s' hrun front p back time hpending hdue hends hticks => ?_⟩
  have hwaits : ∀ later s', s.OrderlyRun later s' → (∀ e ∈ later, ¬ Ends p e) →
      ∃ effects, s'.effects = s.effects ++ effects ∧
        s'.Waits p time front.length (later.countP (late time)) effects := by
    intro later s' hrun
    induction hrun with
    | nil =>
        intro _
        refine ⟨[], (List.append_nil _).symm, .inr ?_⟩
        rw [← hagrees.pending] at hpending
        obtain ⟨front', rest, hqueue, rfl, hrest⟩ := List.map_eq_append_iff.1 hpending
        obtain ⟨a, back', rfl, rfl, rfl⟩ := List.map_eq_cons_iff.1 hrest
        refine ⟨front', a, back', hqueue, rfl, fun b hb => ?_, by simp⟩
        refine hdue (scheduled b) ?_
        rw [← List.map_singleton, ← List.map_append]
        exact List.mem_map_of_mem hb
    | @snoc _ s₁ _ e _ horderly hstep ih =>
        intro hends
        obtain ⟨effects, heffects, hwaits⟩ := ih fun e he =>
          hends e (List.mem_append_left _ he)
        have hnext := hwaits.step horderly (hends _ (List.mem_append_right _ List.mem_cons_self))
        rw [hstep]
        refine ⟨effects ++ (s₁.extension.notify e).2, ?_, ?_⟩
        · exact (congrArg (· ++ _) heffects).trans (List.append_assoc _ _ _)
        · rw [List.countP_append, List.countP_singleton]
          exact hnext
  obtain ⟨effects, heffects, hsent | ⟨_, _, _, -, -, -, hn⟩⟩ := hwaits later s' hrun hends
  · exact ⟨effects, heffects, hsent⟩
  · omega

/-- A bundle. -/
def sampleID : BundleID := ⟨.none, 7, 1, false, 0⟩

/-- A peer. -/
def samplePeer (n : UInt8) : EID := ⟨EID.defaultScheme, [0x2f, 0x2f, n]⟩

/-- The events one after the other. -/
def after (events : List Event) : Watched := events.foldl step start

/-- Another bundle. -/
def secondID : BundleID := { sampleID with sequencenumber := 2 }

/-- Two bundles are requeued for different peers, the first is sent again, and its transfer ends. -/
def sampleEvents : List Event :=
  [.requeue 100 (samplePeer 0x61) sampleID, .requeue 100 (samplePeer 0x62) secondID, .time 200,
    .transferCompleted (samplePeer 0x61) sampleID]

theorem accepted_run_sample :
    (after sampleEvents).effects = [.transferTo (samplePeer 0x61) sampleID] ∧
      ∃ l, (after sampleEvents).ledger = some l ∧
        l.pending = [⟨secondID, samplePeer 0x62, 101⟩] ∧
          ∀ later s', (after sampleEvents).OrderlyRun later s' → ∀ front p back time,
            l.pending = front ++ p :: back → (∀ q ∈ front ++ [p], q.timestamp ≤ time) →
              (∀ e ∈ later, ¬ Ends p e) → front.length < later.countP (late time) →
                ∃ effects, s'.effects = (after sampleEvents).effects ++ effects ∧
                  .transferTo p.destination p.id ∈ effects := by
  have hfirst : start.OrderlyRun [.requeue 100 (samplePeer 0x61) sampleID] _ :=
    Transition.Run.nil.snoc (by decide) rfl
  have hsecond : start.OrderlyRun [.requeue 100 (samplePeer 0x61) sampleID,
      .requeue 100 (samplePeer 0x62) secondID] _ := hfirst.snoc (by decide) rfl
  have htime : start.OrderlyRun [.requeue 100 (samplePeer 0x61) sampleID,
      .requeue 100 (samplePeer 0x62) secondID, .time 200] _ := hsecond.snoc trivial rfl
  have hrun : start.OrderlyRun sampleEvents (after sampleEvents) := htime.snoc (by decide) rfl
  obtain ⟨l, hl, hlater⟩ := accepted_run hrun
  have hpending : (after sampleEvents).ledger.map Ledger.pending =
      some [⟨secondID, samplePeer 0x62, 101⟩] := by
    decide +kernel
  rw [hl] at hpending
  exact ⟨by decide +kernel, l, hl, Option.some.inj hpending, hlater⟩

/-- **A requeue for a second peer schedules a retransmission to the first one, and a retransmission
is sent behind the completion of its transfer.** -/
theorem not_accepted_after :
    (after [.requeue 100 (samplePeer 0x61) sampleID, .requeue 100 (samplePeer 0x62) sampleID,
        .time 200, .time 200]).ledger.isNone = true ∧
      (after [.requeue 100 (samplePeer 0x61) sampleID,
        .transferCompleted (samplePeer 0x61) sampleID, .time 200]).ledger.isNone = true := by
  decide +kernel

end Watched

end RetransmissionExtension

end IbrDtn
