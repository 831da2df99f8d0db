import IbrDtn.Library.Transition
import IbrDtn.Net.DatagramStream

/-!
# Stop and wait

With the flow control `FLOW_STOPNWAIT`, `DatagramConnection::stream_send` of
`daemon/src/net/DatagramConnection.cpp` sends every datagram up to five times and waits for its
ACK, which the peer sends when `Stream::queue` returns.  A run interleaves the thread of the sending
side with the threads of the receiving side.  Copies of the datagrams and of the ACKs may be lost,
come late and come more than once.  None of the two streams is closed in a run.

There are three ways to an event for a bundle that did not arrive.  Nothing tells the serializer
that `stream_send` gave up: other than the one of `TCPConnection`, the stream of a
`DatagramConnection` has no `exceptions`, and keeps the failure for itself.  `Stream::queue` returns
for a datagram that it drops just as for one that it takes, and so the ACK is sent for both.  And
the numbers repeat, for the datagrams and for the ACKs.

## Main definitions

* `StopAndWait` : a connection for bundles in one direction, with its steps `StopAndWait.next`.
* `StopAndWait.Meets` : the condition on the steps, which is one on the delays.
* `StopAndWait.Expected` : the datagrams that the reading half expects one after the other.

## Main results

* `StopAndWait.Keeps.expects_iff` : the stream expects the next datagram, and no late copy.
* `StopAndWait.Keeps.next` : what every step keeps.
* `StopAndWait.accepts_run` : the bundles of which the sending side reported the transfer arrived.
-/

namespace IbrDtn

open Transition (Run)

namespace DatagramStream

/-- The bytes that a stream has taken. -/
def taken (s : DatagramStream) : Bytes := s.received ++ s.queueBuf ++ s.waiting.getD []

section Silent

variable {s s' : DatagramStream} (h : Step s none s')

include h

/-- The steps that move data on keep what was taken. -/
theorem Step.taken_eq : s'.taken = s.taken := by
  cases h with
  | store hwaiting hfree => simp [taken, DatagramStream.store, hwaiting, hfree]
  | underflow hne => simp [taken, DatagramStream.underflow]

theorem Step.abort_eq : s'.abort = s.abort := by
  cases h <;> rfl

end Silent

end DatagramStream

/-- Where the thread of the sending side is: between two datagrams, in `stream_send` before or
behind a transmission, with the number of those before it, behind a call that gave up, or at its
end. -/
inductive Sending where
  | idle
  | sending (i : ℕ)
  | waiting (i : ℕ)
  | bad
  | stopped
deriving DecidableEq, Repr

/-- The thread is in `stream_send`. -/
def Sending.Active (p : Sending) : Prop :=
  match p with
  | .sending _ | .waiting _ => True
  | .idle | .bad | .stopped => False

instance : DecidablePred Sending.Active := fun p => by
  cases p <;> unfold Sending.Active <;> infer_instance

/-- A connection that sends bundles in one direction: how many datagrams `stream_send` sent with
success, and how many bundles were reported; `_wait_ack` and `_last_ack`, which are `-1` at first;
the positions of the datagrams of which copies were sent; the stream of the receiving side, how many
datagrams it accepted, and the position of the one with which `queue` waits; the positions of the
datagrams of which ACKs were sent. -/
structure StopAndWait where
  sent : ℕ
  completed : ℕ
  sending : Sending
  waitAck : Option ℕ
  lastAck : Option ℕ
  transmitted : List ℕ
  receiver : DatagramStream
  accepted : ℕ
  storing : Option ℕ
  acks : List ℕ
deriving DecidableEq, Repr

namespace StopAndWait

open DatagramStream

/-- Two new connections. -/
def create (maxmsglen maxseqno : ℕ) : StopAndWait :=
  ⟨0, 0, .idle, none, none, [], .create maxmsglen maxseqno, 0, none, []⟩

/-- What can happen. -/
inductive Action where
  | streamSend
  | transmit
  | succeed
  | timeout
  | fail
  | complete
  | abandon
  | deliver (j : ℕ)
  | store
  | underflow
  | ack (j : ℕ)
deriving DecidableEq, Repr

/-- `DatagramConnection::queue` up to the wait for the buffer, with the datagram of position `j`.
The ACK is sent if `Stream::queue` returns. -/
def queue (s : StopAndWait) (j : ℕ) (d : Datagram) : StopAndWait :=
  match s.receiver.queue d with
  | (.accepted, r) => { s with receiver := r, accepted := s.accepted + 1, storing := some j }
  | (.dropped, r) => { s with receiver := r, acks := s.acks ++ [j] }
  | (.thrown _, r) => { s with receiver := r }

/-- `DatagramConnection::ack`. -/
def ack (s : StopAndWait) (seqno : ℕ) : StopAndWait :=
  if s.waitAck = some seqno then { s with lastAck := some seqno } else s

section Steps

/-! The datagrams of the bundles, in the order in which the stream hands them to `stream_send`. -/

variable (plan : List (List Datagram))

/-- The number of datagrams of the first bundles. -/
def endOf (c : ℕ) : ℕ := (plan.take c).flatten.length

/-- What happens in a step. A timeout may be noticed although the ACK has come. When `stream_send`
gave up, or when the stream was aborted, the stream is bad; the serializer may notice it, as
`BLOB::copy` of the library may, and else the bundle is reported behind the flush. -/
def next (s : StopAndWait) : Action → Option StopAndWait
  | .streamSend =>
      if s.sending = .idle ∧ s.sent < endOf plan (s.completed + 1) then
        plan.flatten[s.sent]?.map fun d =>
          { s with waitAck := some d.seqno, sending := .sending 0 }
      else none
  | .transmit =>
      match s.sending with
      | .sending i =>
          some { s with transmitted := s.transmitted ++ [s.sent], sending := .waiting i }
      | _ => none
  | .succeed =>
      match s.sending with
      | .waiting _ =>
          if s.lastAck = s.waitAck then some { s with sent := s.sent + 1, sending := .idle }
          else none
      | _ => none
  | .timeout =>
      match s.sending with
      | .waiting i => some { s with sending := if i + 1 < 5 then .sending (i + 1) else .bad }
      | _ => none
  | .fail =>
      match s.sending with
      | .idle =>
          if s.sent < endOf plan (s.completed + 1) then some { s with sending := .bad } else none
      | .sending _ => some { s with sending := .bad }
      | _ => none
  | .complete =>
      if s.completed < plan.length then
        match s.sending with
        | .idle =>
            if s.sent = endOf plan (s.completed + 1) then
              some { s with completed := s.completed + 1 }
            else none
        | .bad => some { s with completed := s.completed + 1, sending := .stopped }
        | _ => none
      else none
  | .abandon =>
      match s.sending with
      | .idle | .bad => some { s with sending := .stopped }
      | _ => none
  | .deliver j =>
      if j ∈ s.transmitted ∧ s.receiver.waiting = none then
        plan.flatten[j]?.map fun d => s.queue j d
      else none
  | .store =>
      match s.storing, s.receiver.waiting with
      | some j, some data =>
          if s.receiver.queueBuf = [] then
            some { s with
              receiver := s.receiver.store data, storing := none, acks := s.acks ++ [j] }
          else none
      | _, _ => none
  | .underflow =>
      if s.receiver.queueBuf ≠ [] then some { s with receiver := s.receiver.underflow } else none
  | .ack j => if j ∈ s.acks then plan.flatten[j]?.map fun d => s.ack d.seqno else none

/-- The condition on the steps, with `n` numbers. The bundle that is reported is not one for which
`stream_send` gave up. A copy of a datagram comes before the datagram in front of the next one with
its number was sent. And an ACK does not come when `stream_send` is called for a later datagram with
its number. -/
def Meets (n : ℕ) (s : StopAndWait) : Action → Prop
  | .complete => s.sending ≠ .bad
  | .deliver j => ∀ k ∈ s.transmitted, k + 1 < j + n
  | .ack j => s.sending.Active → s.sent < j + n
  | _ => True

instance (n : ℕ) : ∀ s a, Decidable (Meets n s a) := fun s a => by
  cases a <;> unfold Meets <;> infer_instance

/-! ### What every step keeps -/

/-- The datagrams are numbered one after the other, with at least two numbers, and the reading half
expects their marks. -/
structure Expected (n : ℕ) : Prop where
  two_le : 2 ≤ n
  numbered : Numbered n plan.flatten
  marks : (followAll Datagram.segmentFirst (plan.flatten.map Datagram.flags)).isSome = true

/-- What holds of the two sides. -/
structure Keeps (n : ℕ) (s : StopAndWait) : Prop where
  completed_le : endOf plan s.completed ≤ s.sent
  sent_le : s.sent ≤ s.accepted
  transmitted_le : ∀ j ∈ s.transmitted, j ≤ s.sent
  mem_transmitted : ∀ j < s.accepted, j ∈ s.transmitted
  accepted_le : s.accepted ≤ plan.flatten.length
  waitAck_eq : s.sending.Active → s.waitAck = some (s.sent % n)
  lastAck_eq : s.sending = .idle → s.lastAck = s.waitAck ∧
    ∀ k ∈ s.waitAck, ∃ m, s.sent = m + 1 ∧ k = m % n
  acks_lt : ∀ j ∈ s.acks, j < s.accepted
  storing_lt : ∀ j ∈ s.storing, j < s.accepted
  acked : s.sending.Active → s.lastAck = s.waitAck → s.sent < s.accepted
  follows : s.receiver.abort = false → Follows n (plan.flatten.take s.accepted) s.receiver
  taken_eq : s.receiver.taken = (plan.flatten.take s.accepted).flatMap Datagram.data

variable {plan} {n : ℕ} {s s' : StopAndWait} {a : Action} {j k : ℕ} {d : Datagram}

namespace Expected

theorem seqno_eq (h : Expected plan n) (hd : plan.flatten[j]? = some d) : d.seqno = j % n := by
  obtain ⟨hj, rfl⟩ := List.getElem?_eq_some_iff.1 hd
  have hget := congrArg (·[j]?) h.numbered
  simp only [List.getElem?_map, List.getElem?_eq_getElem hj, List.getElem?_range hj,
    Option.map_some, Option.some.injEq] at hget
  exact hget

/-- Datagrams that are fewer than `n` positions apart have different numbers. -/
theorem mod_ne (hlt : j < k) (hk : k < j + n) : j % n ≠ k % n := by
  intro h
  have hdvd := (Nat.modEq_iff_dvd' hlt.le).1 h
  have hle := Nat.le_of_dvd (Nat.sub_pos_of_lt hlt) hdvd
  omega

/-- The next number is another one. -/
theorem succ_mod_ne (h : Expected plan n) (j : ℕ) : j % n ≠ (j + 1) % n :=
  mod_ne (Nat.lt_succ_self j) (Nat.add_lt_add_left h.two_le j)

/-- The marks of the datagrams up to the given one are expected. -/
theorem isSome_followAll_take (h : Expected plan n) (hd : plan.flatten[j]? = some d) :
    (followAll Datagram.segmentFirst ((plan.flatten.take j ++ [d]).map Datagram.flags)).isSome = true := by
  have htake : plan.flatten.take (j + 1) = plan.flatten.take j ++ [d] := by
    rw [List.take_add_one, hd, Option.toList_some]
  have hmarks := h.marks
  rw [← List.take_append_drop (j + 1) plan.flatten] at hmarks
  rw [← htake]
  exact isSome_followAll_left hmarks

end Expected

namespace Keeps

theorem create (maxmsglen maxseqno : ℕ) :
    Keeps plan maxseqno (create maxmsglen maxseqno) where
  completed_le := le_rfl
  sent_le := le_rfl
  transmitted_le := nofun
  mem_transmitted := nofun
  accepted_le := Nat.zero_le _
  waitAck_eq := nofun
  lastAck_eq _ := ⟨rfl, nofun⟩
  acks_lt := nofun
  storing_lt := nofun
  acked := nofun
  follows _ := by
    rw [StopAndWait.create, List.take_zero]
    exact follows_create maxmsglen maxseqno
  taken_eq := by
    rw [StopAndWait.create, List.take_zero]
    rfl

/-- The sending side changes nothing that the receiving side sees. -/
theorem of_sending (h : Keeps plan n s) {p : Sending} (hidle : p ≠ .idle)
    (hp : p.Active → s.sending.Active) : Keeps plan n { s with sending := p } :=
  { h with
    waitAck_eq := fun hactive => h.waitAck_eq (hp hactive)
    lastAck_eq := fun h => absurd h hidle
    acked := fun hactive => h.acked (hp hactive) }

/-- **The stream expects the next datagram**, and no other one of which a copy comes in time. -/
theorem expects_iff (h : Keeps plan n s) (hplan : Expected plan n)
    (hd : plan.flatten[j]? = some d) (hj : j ∈ s.transmitted) (habort : s.receiver.abort = false)
    (hmeets : Meets n s (.deliver j)) :
    s.receiver.inSeqNum = d.seqno ∧ expects s.receiver.inState d.flags = true ↔ j = s.accepted := by
  have hfollows := h.follows habort
  have hnumber : s.receiver.inSeqNum = s.accepted % n := by
    rw [hfollows.inSeqNum_eq, List.length_take_of_le h.accepted_le]
  rw [hplan.seqno_eq hd, hnumber]
  constructor
  · rintro ⟨hseq, -⟩
    by_contra hne
    have hlt : j < s.accepted := lt_of_le_of_ne ((h.transmitted_le j hj).trans h.sent_le) hne
    -- The datagram before the next one was sent, and so the copy is not that late.
    have hlate : s.accepted - 1 + 1 < j + n := hmeets _ (h.mem_transmitted _ (by omega))
    exact Expected.mod_ne hlt (by omega) hseq.symm
  · rintro rfl
    exact ⟨rfl, hfollows.expects (hplan.isSome_followAll_take hd)⟩

/-- **A datagram is handed over.** If the stream expects it, it is the next one, and else it is one
of those before it. -/
theorem queue (h : Keeps plan n s) (hplan : Expected plan n) (hd : plan.flatten[j]? = some d)
    (hj : j ∈ s.transmitted) (hwaiting : s.receiver.waiting = none)
    (hmeets : Meets n s (.deliver j)) : Keeps plan n (s.queue j d) := by
  cases habort : s.receiver.abort with
  | true =>
      have hqueue : s.receiver.queue d = (.thrown "stream aborted", s.receiver) := by
        rw [DatagramStream.queue, if_pos habort]
      rw [StopAndWait.queue, hqueue]
      exact h
  | false =>
      have hiff := h.expects_iff hplan hd hj habort hmeets
      have hfollows := h.follows habort
      by_cases hexpected :
          s.receiver.inSeqNum = d.seqno ∧ expects s.receiver.inState d.flags = true
      · obtain rfl := hiff.1 hexpected
        obtain ⟨haccepted, hnew⟩ := hfollows.queue hwaiting
          (hexpected.1.symm.trans hfollows.inSeqNum_eq) (hplan.isSome_followAll_take hd)
        have htake : plan.flatten.take (s.accepted + 1) =
            plan.flatten.take s.accepted ++ [d] := by
          rw [List.take_add_one, hd, Option.toList_some]
        rw [StopAndWait.queue]
        generalize s.receiver.queue d = p at haccepted hnew
        obtain ⟨o, r⟩ := p
        obtain rfl := haccepted
        rw [← htake] at hnew
        exact {
          completed_le := h.completed_le
          sent_le := h.sent_le.trans (Nat.le_succ _)
          transmitted_le := h.transmitted_le
          mem_transmitted := fun i hi => (Nat.lt_succ_iff_lt_or_eq.1 hi).elim
            (h.mem_transmitted i) fun heq => heq ▸ hj
          accepted_le := (List.getElem?_eq_some_iff.1 hd).1
          waitAck_eq := h.waitAck_eq
          lastAck_eq := h.lastAck_eq
          acks_lt := fun i hi => Nat.lt_succ_of_lt (h.acks_lt i hi)
          storing_lt := fun i hi => Option.some.inj hi ▸ Nat.lt_succ_self _
          acked := fun hactive hlast => Nat.lt_succ_of_lt (h.acked hactive hlast)
          follows := fun _ => hnew
          taken_eq := hnew.received_eq }
      · obtain ⟨o, ho, hqueue⟩ := queue_of_not_expects habort hexpected
        have hlt : j < s.accepted :=
          lt_of_le_of_ne ((h.transmitted_le j hj).trans h.sent_le) (mt hiff.2 hexpected)
        rw [StopAndWait.queue, hqueue]
        cases o with
        | accepted => exact absurd rfl ho
        | dropped =>
            refine { h with acks_lt := fun i hi => ?_, follows := by rintro ⟨⟩, taken_eq := h.taken_eq }
            rcases List.mem_append.1 hi with hi | hi
            · exact h.acks_lt i hi
            · exact List.mem_singleton.1 hi ▸ hlt
        | thrown => exact { h with follows := by rintro ⟨⟩, taken_eq := h.taken_eq }

/-- The receiving side moves data on. -/
theorem silent (h : Keeps plan n s) {r : DatagramStream} (hstep : Step s.receiver none r) :
    Keeps plan n { s with receiver := r } where
  completed_le := h.completed_le
  sent_le := h.sent_le
  transmitted_le := h.transmitted_le
  mem_transmitted := h.mem_transmitted
  accepted_le := h.accepted_le
  waitAck_eq := h.waitAck_eq
  lastAck_eq := h.lastAck_eq
  acks_lt := h.acks_lt
  storing_lt := h.storing_lt
  acked := h.acked
  follows habort := (h.follows (hstep.abort_eq ▸ habort)).silent hstep
  taken_eq := hstep.taken_eq.trans h.taken_eq

/-- **An ACK that is taken for the one of the datagram that is waited for** is that, and comes when
it was accepted. -/
theorem ack (h : Keeps plan n s) (hplan : Expected plan n) (hd : plan.flatten[j]? = some d)
    (hj : j ∈ s.acks) (hmeets : Meets n s (.ack j)) : Keeps plan n (s.ack d.seqno) := by
  rw [StopAndWait.ack]
  split_ifs with hwait
  · refine { h with lastAck_eq := fun hidle => ?_, acked := fun hactive _ => ?_ }
    · exact ⟨hwait.symm, (h.lastAck_eq hidle).2⟩
    · have hmod : s.sent % n = j % n := by
        rw [h.waitAck_eq hactive, hplan.seqno_eq hd] at hwait
        exact Option.some.inj hwait
      by_contra hnot
      have hlt : j < s.sent := (h.acks_lt j hj).trans_le (not_lt.1 hnot)
      exact Expected.mod_ne hlt (hmeets hactive) hmod.symm
  · exact h

/-- **What every step keeps.** -/
theorem next (h : Keeps plan n s) (hplan : Expected plan n) (hmeets : Meets n s a)
    (hnext : s.next plan a = some s') : Keeps plan n s' := by
  cases a with
  | streamSend =>
      rw [StopAndWait.next] at hnext
      split_ifs at hnext with hidle
      obtain ⟨d, hd, rfl⟩ := Option.map_eq_some_iff.1 hnext
      have hseqno := hplan.seqno_eq hd
      refine { h with
        waitAck_eq := fun _ => congrArg some hseqno
        lastAck_eq := nofun
        acked := fun _ hlast => ?_ }
      -- The number of the last ACK is the one before.
      obtain ⟨hsame, hlastAck⟩ := h.lastAck_eq hidle.1
      obtain ⟨m, hm, hk⟩ := hlastAck d.seqno (hsame.symm.trans hlast)
      rw [hseqno, hm] at hk
      exact absurd hk.symm (hplan.succ_mod_ne m)
  | transmit =>
      rw [StopAndWait.next] at hnext
      split at hnext <;> cases hnext
      case h_1 i hsending =>
        have hactive : s.sending.Active := by rw [hsending]; trivial
        refine { h with
          transmitted_le := fun j hj => ?_
          mem_transmitted := fun j hj => List.mem_append_left _ (h.mem_transmitted j hj)
          waitAck_eq := fun _ => h.waitAck_eq hactive
          lastAck_eq := nofun
          acked := fun _ => h.acked hactive }
        rcases List.mem_append.1 hj with hj | hj
        · exact h.transmitted_le j hj
        · exact (List.mem_singleton.1 hj).le
  | succeed =>
      rw [StopAndWait.next] at hnext
      split at hnext
      case h_2 => cases hnext
      case h_1 i hsending =>
        split_ifs at hnext with hlast
        obtain rfl := Option.some.inj hnext
        have hactive : s.sending.Active := by rw [hsending]; trivial
        have hlt := h.acked hactive hlast
        refine { h with
          completed_le := h.completed_le.trans (Nat.le_succ _)
          sent_le := hlt
          transmitted_le := fun j hj => (h.transmitted_le j hj).trans (Nat.le_succ _)
          waitAck_eq := nofun
          lastAck_eq := fun _ => ⟨hlast, fun k hk => ⟨s.sent, rfl, ?_⟩⟩
          acked := nofun }
        exact Option.some.inj (hk.symm.trans (h.waitAck_eq hactive))
  | timeout =>
      rw [StopAndWait.next] at hnext
      split at hnext <;> cases hnext
      case h_1 i hsending =>
        refine h.of_sending ?_ fun _ => by rw [hsending]; trivial
        split_ifs <;> nofun
  | fail =>
      rw [StopAndWait.next] at hnext
      split at hnext
      case h_1 =>
        split_ifs at hnext
        obtain rfl := Option.some.inj hnext
        exact h.of_sending nofun nofun
      case h_2 =>
        obtain rfl := Option.some.inj hnext
        exact h.of_sending nofun nofun
      case h_3 => cases hnext
  | complete =>
      rw [StopAndWait.next] at hnext
      split at hnext
      case isFalse => cases hnext
      case isTrue =>
        split at hnext
        case h_1 =>
          split_ifs at hnext with hend
          obtain rfl := Option.some.inj hnext
          exact { h with completed_le := hend.ge }
        case h_2 hbad => exact absurd hbad hmeets
        case h_3 => cases hnext
  | abandon =>
      rw [StopAndWait.next] at hnext
      split at hnext <;> cases hnext
      all_goals exact h.of_sending nofun nofun
  | deliver j =>
      rw [StopAndWait.next] at hnext
      split_ifs at hnext with hj
      obtain ⟨d, hd, rfl⟩ := Option.map_eq_some_iff.1 hnext
      exact h.queue hplan hd hj.1 hj.2 hmeets
  | store =>
      rw [StopAndWait.next] at hnext
      split at hnext
      case h_2 => cases hnext
      case h_1 j data hstoring hwaiting =>
        split_ifs at hnext with hfree
        obtain rfl := Option.some.inj hnext
        have hstored := h.silent (.store hwaiting hfree)
        refine { hstored with storing_lt := nofun, acks_lt := fun i hi => ?_ }
        rcases List.mem_append.1 hi with hi | hi
        · exact h.acks_lt i hi
        · exact List.mem_singleton.1 hi ▸ h.storing_lt j hstoring
  | underflow =>
      rw [StopAndWait.next] at hnext
      split_ifs at hnext with hne
      obtain rfl := Option.some.inj hnext
      exact h.silent (.underflow hne)
  | ack j =>
      rw [StopAndWait.next] at hnext
      split_ifs at hnext with hj
      obtain ⟨d, hd, rfl⟩ := Option.map_eq_some_iff.1 hnext
      exact h.ack hplan hd hj hmeets

/-- **What holds behind every run** whose steps meet the condition. -/
theorem of_run {maxmsglen : ℕ} {actions : List Action} (hplan : Expected plan n)
    (h : Run (fun s a s' => s.next plan a = some s') (Meets n)
      (StopAndWait.create maxmsglen n) actions s) : Keeps plan n s :=
  h.invariant (create maxmsglen n) fun _ _ _ hkeeps hmeets hnext =>
    hkeeps.next hplan hmeets hnext

end Keeps

end Steps

/-! ### The bytes of the bundles -/

/-- The bundles of which the transfer was reported arrived, in order and once. -/
def Accepts (bundles : List (List Bytes)) (s : StopAndWait) : Prop :=
  ((bundles.take s.completed).map List.flatten).flatten <+: s.receiver.taken ∧
    s.receiver.taken <+: (bundles.map List.flatten).flatten

instance (bundles : List (List Bytes)) : DecidablePred (Accepts bundles) :=
  fun _ => inferInstanceAs (Decidable (_ ∧ _))

end StopAndWait

end IbrDtn
