import IbrDtn.Streams.StreamOutgoing

/-!
# Acknowledgements and refusals between two peers

Each peer derives its support of acknowledgements and refusals from the contact header of the other
one.  This file shows what the answers of one peer and the events of the other one have to do with
each other, behind every run of the steps of both.

## Main definitions

* `StreamPeer.InStep` : what holds of a sender and its receiver.
* `StreamLink.Negotiated` : the condition on the steps for the flags that were requested.

## Main results

* `StreamLink.Keeps.step`, `StreamLink.keeps_run` : every step keeps it, in both directions.
* `StreamLink.answers_run` : every segment is answered once, and every bundle gets one event.
* `StreamLink.queues_run` : what is in the queues is answered.
-/

namespace IbrDtn

open Transition (Run)

namespace StreamPeer

/-! ### What holds of both sides -/

/-- The segment behind the queue. -/
def SendState.queue : SendState → Option StreamDataSegment
  | .queued seg _ => some seg
  | .idle | .marked _ _ | .decided _ _ => none

/-- The data segments among the messages. -/
def dataOf (ms : List (StreamDataSegment × Bytes)) : List StreamDataSegment :=
  (ms.map Prod.fst).filter fun seg => seg.type == .dataSegment

/-- The answers among the messages. -/
def answersOf (ms : List (StreamDataSegment × Bytes)) : List StreamDataSegment :=
  (ms.map Prod.fst).filter fun seg => seg.type != .dataSegment

theorem dataOf_append (ms ms' : List (StreamDataSegment × Bytes)) :
    dataOf (ms ++ ms') = dataOf ms ++ dataOf ms' := by
  rw [dataOf, List.map_append, List.filter_append]
  rfl

theorem answersOf_append (ms ms' : List (StreamDataSegment × Bytes)) :
    answersOf (ms ++ ms') = answersOf ms ++ answersOf ms' := by
  rw [answersOf, List.map_append, List.filter_append]
  rfl

/-- The messages are answers. -/
def AllAnswers (ms : List (StreamDataSegment × Bytes)) : Prop :=
  ∀ m ∈ ms, m.1.type = .ackSegment ∨ m.1.type = .refuseBundle

theorem dataOf_of_allAnswers {ms : List (StreamDataSegment × Bytes)} (h : AllAnswers ms) :
    dataOf ms = [] := by
  rw [dataOf, List.filter_eq_nil_iff]
  intro seg hseg
  obtain ⟨m, hm, rfl⟩ := List.mem_map.1 hseg
  rcases h m hm with htype | htype <;> simp [htype]

/-- **The receiver is in step with the sender.** Every segment of the queue was answered, is read,
is on its way or is not written yet; the answers that were not taken are on their way back. The
segments of the bundles that the reader rejected are refused, and the other ones acknowledged.
Behind the refusal of a segment, the rest of its bundle is refused. Refusals are sent only if both
sides support them. -/
structure InStep (nacks : Bool) (o : Outgoing) (flow : List StreamDataSegment) (i : Incoming)
    (answers : List StreamDataSegment) : Prop where
  queued : o.entries.map Prod.fst = o.buffer.sent.map Prod.fst ++ o.sending.queue.toList
  sent : o.buffer.sent.map Prod.fst =
    i.answered.map Prod.fst ++ ((i.transfer.map Prod.fst).toList ++ flow)
  answered : ∃ waiting, i.answered = o.concluded ++ waiting ∧ waiting.map Prod.snd = answers
  kind : ∀ c ∈ i.answered, c.2.type = .ackSegment ∨ c.2.type = .refuseBundle
  handled : i.answered.map (fun c => (c.1, refuses c.2)) = i.handled
  chain : i.answered.IsChain fun x y =>
    refuses x.2 = true → y.1.isBegin = false → refuses y.2 = true
  rejecting : ∀ c ∈ i.answered.getLast?, refuses c.2 = true →
    i.rejecting = true ∨ ∃ x ∈ i.transfer, x.1.isBegin = true
  nacks : i.rejecting = true ∨ (∃ c ∈ i.answered, refuses c.2 = true) → nacks = true

namespace InStep

variable {nacks ack nack : Bool} {o o' : Outgoing} {flow answers : List StreamDataSegment}
  {i i' : Incoming} {seg a : StreamDataSegment} {data : Bytes}
  {ms : List (StreamDataSegment × Bytes)}

/-- Two new halves. -/
theorem create (bufferSize : ℕ) (ackSupport nackSupport : Bool) :
    InStep nacks ⟨.create bufferSize ackSupport nackSupport, .idle, .idle, [], []⟩ []
      ⟨false, none, 0, [], []⟩ [] where
  queued := rfl
  sent := rfl
  answered := ⟨[], rfl, rfl⟩
  kind := nofun
  handled := rfl
  chain := .nil
  rejecting := nofun
  nacks h := h.elim (absurd · Bool.false_ne_true) fun ⟨_, hc, _⟩ => absurd hc List.not_mem_nil

/-- The sending half changes nothing that the receiver sees. -/
theorem of_outgoing (h : InStep nacks o flow i answers) (hentries : o'.entries = o.entries)
    (hsent : o'.buffer.sent = o.buffer.sent) (hqueue : o'.sending.queue = o.sending.queue)
    (hconcluded : o'.concluded = o.concluded) : InStep nacks o' flow i answers where
  queued := by rw [hentries, hsent, hqueue, h.queued]
  sent := by rw [hsent, h.sent]
  answered := by rw [hconcluded]; exact h.answered
  kind := h.kind
  handled := h.handled
  chain := h.chain
  rejecting := h.rejecting
  nacks := h.nacks

theorem mark (h : InStep nacks o flow i answers) {isEnd : Bool}
    (hmark : o.mark data isEnd = some o') : InStep nacks o' flow i answers := by
  rw [Outgoing.mark, StreamBuffer.mark_eq] at hmark
  split_ifs at hmark with hidle
  obtain rfl := Option.some.inj hmark
  exact h.of_outgoing rfl rfl (by rw [hidle.1]; rfl) rfl

theorem decide (h : InStep nacks o flow i answers) (hdecide : o.decide = some o') :
    InStep nacks o' flow i answers := by
  rw [Outgoing.decide] at hdecide
  split at hdecide
  case h_2 => cases hdecide
  case h_1 seg data hsending =>
    obtain rfl := Option.some.inj hdecide
    refine h.of_outgoing rfl rfl ?_ rfl
    rw [hsending]
    cases o.buffer.skip <;> rfl

theorem push (h : InStep nacks o flow i answers) (hack : o.buffer.ackSupport = true)
    (hpush : o.push = some o') : InStep nacks o' flow i answers := by
  rw [Outgoing.push] at hpush
  split at hpush
  case h_2 => cases hpush
  case h_1 seg data hsending =>
    obtain rfl := Option.some.inj hpush
    have hbuffer : (o.buffer.push seg).sent = o.buffer.sent := by
      rw [StreamBuffer.push, if_pos hack]
    have hqueued := h.queued
    rw [hsending] at hqueued
    refine ⟨?_, ?_, h.answered, h.kind, h.handled, h.chain, h.rejecting, h.nacks⟩
    · rw [Outgoing.entries_push hack, List.map_append, hqueued, hbuffer, List.append_assoc]
      rfl
    · rw [hbuffer]
      exact h.sent

theorem write (h : InStep nacks o flow i answers) {m : StreamDataSegment × Bytes}
    (hwrite : o.write = some (o', m)) : InStep nacks o' (flow ++ [m.1]) i answers := by
  rw [Outgoing.write] at hwrite
  split at hwrite
  case h_2 => cases hwrite
  case h_1 seg data hsending =>
    cases hwrite
    have hqueued := h.queued
    rw [hsending] at hqueued
    refine ⟨?_, ?_, h.answered, h.kind, h.handled, h.chain, h.rejecting, h.nacks⟩
    · rw [List.map_append]
      exact hqueued.trans (List.append_nil _).symm
    · rw [List.map_append, h.sent, List.append_assoc, List.append_assoc]
      rfl

theorem check (h : InStep nacks o flow i answers) (hcheck : o.check = some o') :
    InStep nacks o' flow i answers := by
  rw [Outgoing.check] at hcheck
  split at hcheck
  case h_2 => cases hcheck
  case h_1 =>
    obtain rfl := Option.some.inj hcheck
    exact h.of_outgoing rfl rfl rfl rfl

theorem setSkip (h : InStep nacks o flow i answers) (hskip : o.setSkip = some o') :
    InStep nacks o' flow i answers := by
  rw [Outgoing.setSkip] at hskip
  split at hskip
  case h_2 => cases hskip
  case h_1 =>
    obtain rfl := Option.some.inj hskip
    exact h.of_outgoing rfl rfl rfl rfl

/-! #### The receiving half -/

/-- **A segment is answered**: it is refused exactly if the reader has rejected its bundle. -/
theorem concat (h : InStep nacks o flow i answers) {reply : StreamDataSegment}
    {flow' : List StreamDataSegment} (hanswered : i'.answered = i.answered ++ [(seg, reply)])
    (hhandled : i'.handled = i.handled ++ [(seg, i.rejecting)])
    (htransfer : i'.transfer = none) (hrejecting : i'.rejecting = i.rejecting)
    (hflow : (i.transfer.map Prod.fst).toList ++ flow = seg :: flow')
    (hkind : reply.type = .ackSegment ∨ reply.type = .refuseBundle)
    (hrefuses : refuses reply = i.rejecting)
    (hread : refuses reply = false → ∃ remain, i.transfer = some (seg, remain)) :
    InStep nacks o flow' i' (answers ++ [reply]) := by
  obtain ⟨waiting, hwaiting, hanswers⟩ := h.answered
  refine ⟨h.queued, ?_, ⟨waiting ++ [(seg, reply)], ?_, ?_⟩, ?_, ?_, ?_, ?_, ?_⟩
  · rw [h.sent, hflow, hanswered, htransfer, List.map_append, List.append_assoc]
    rfl
  · rw [hanswered, hwaiting, List.append_assoc]
  · rw [List.map_append, hanswers]
    rfl
  · rw [hanswered]
    intro c hc
    rcases List.mem_append.1 hc with hc | hc
    · exact h.kind c hc
    · obtain rfl := List.mem_singleton.1 hc
      exact hkind
  · rw [hanswered, hhandled, List.map_append, h.handled, List.map_singleton, hrefuses]
  · rw [hanswered]
    refine List.isChain_append.2 ⟨h.chain, .singleton _, ?_⟩
    rintro c hc _ ⟨⟩ hrefused hbegin
    by_contra hnot
    obtain ⟨remain, hremain⟩ := hread (Bool.eq_false_iff.2 hnot)
    rcases h.rejecting c hc hrefused with hreject | ⟨x, hx, hbegin'⟩
    · exact hnot (hrefuses.trans hreject)
    · rw [hremain] at hx
      obtain rfl := Option.some.inj hx
      exact Bool.false_ne_true (hbegin.symm.trans hbegin')
  · rw [hanswered]
    intro c hc hrefused
    rw [List.getLast?_concat] at hc
    obtain rfl := Option.some.inj hc
    exact .inl (hrejecting.trans (hrefuses.symm.trans hrefused))
  · rw [hanswered, hrejecting]
    rintro (hreject | ⟨c, hc, hrefused⟩)
    · exact h.nacks (.inl hreject)
    · rcases List.mem_append.1 hc with hc | hc
      · exact h.nacks (.inr ⟨c, hc, hrefused⟩)
      · obtain rfl := List.mem_singleton.1 hc
        exact h.nacks (.inl (hrefuses.symm.trans hrefused))

/-- **A data segment is received.** -/
theorem receive (h : InStep nacks o (seg :: flow) i answers) (hnack : nacks = true → nack = true)
    (htransfer : i.transfer = none) :
    AllAnswers (i.receive nack seg).2 ∧
      InStep nacks o flow (i.receive nack seg).1 (answers ++ answersOf (i.receive nack seg).2) := by
  rw [Incoming.receive]
  cases hbegin : seg.isBegin with
  | true =>
      refine ⟨nofun, h.queued, ?_, ?_, h.kind, h.handled, h.chain,
        fun c hc _ => .inr ⟨_, rfl, hbegin⟩, ?_⟩
      · rw [h.sent, htransfer]
        rfl
      · obtain ⟨waiting, hwaiting, hanswers⟩ := h.answered
        exact ⟨waiting, hwaiting, hanswers.trans (List.append_nil _).symm⟩
      · rintro (hreject | hrefused)
        · exact absurd hreject Bool.false_ne_true
        · exact h.nacks (.inr hrefused)
  | false =>
      cases hrejecting : i.rejecting with
      | true =>
          have hsupported := hnack (h.nacks (.inl hrejecting))
          simp only [Bool.false_eq_true, if_false, if_true, Incoming.answer, hsupported]
          refine ⟨fun m hm => ?_,
            h.concat rfl (by rw [hrejecting]) htransfer hrejecting.symm ?_ (.inr rfl) ?_ nofun⟩
          · obtain rfl := List.mem_singleton.1 hm
            exact .inr rfl
          · rw [htransfer]
            rfl
          · rw [hrejecting]
            rfl
      | false =>
          simp only [Bool.false_eq_true, if_false]
          refine ⟨nofun, h.queued, ?_, ?_, h.kind, h.handled, h.chain,
            fun c hc hrefused => ?_, ?_⟩
          · rw [h.sent, htransfer]
            rfl
          · obtain ⟨waiting, hwaiting, hanswers⟩ := h.answered
            exact ⟨waiting, hwaiting, hanswers.trans (List.append_nil _).symm⟩
          · rcases h.rejecting c hc hrefused with hreject | ⟨x, hx, -⟩
            · exact absurd (hrejecting.symm.trans hreject) Bool.false_ne_true
            · rw [htransfer] at hx
              cases hx
          · rintro (hreject | hrefused)
            · exact absurd hreject Bool.false_ne_true
            · exact h.nacks (.inr hrefused)

theorem read (h : InStep nacks o flow i answers) {n : ℕ} (hread : i.read n = some i') :
    InStep nacks o flow i' answers := by
  rw [Incoming.read] at hread
  split at hread
  case h_2 => cases hread
  case h_1 seg remain htransfer =>
    split_ifs at hread with hpiece
    obtain rfl := Option.some.inj hread
    refine ⟨h.queued, ?_, h.answered, h.kind, h.handled, h.chain, fun c hc hrefused => ?_,
      h.nacks⟩
    · rw [h.sent, htransfer]
      rfl
    · refine (h.rejecting c hc hrefused).imp_right ?_
      rw [htransfer]
      rintro ⟨_, ⟨⟩, hbegin⟩
      exact ⟨_, rfl, hbegin⟩

/-- **A segment is finished**, and acknowledged or refused. -/
theorem finish (h : InStep nacks o flow i answers) (hnack : nacks = true → nack = true)
    {x : Incoming × List (StreamDataSegment × Bytes)} (hfinish : i.finish true nack = some x) :
    AllAnswers x.2 ∧ InStep nacks o flow x.1 (answers ++ answersOf x.2) := by
  rw [Incoming.finish] at hfinish
  split at hfinish
  case h_2 => cases hfinish
  case h_1 seg remain htransfer =>
    have hflow : (i.transfer.map Prod.fst).toList ++ flow = seg :: flow := by
      rw [htransfer]
      rfl
    split_ifs at hfinish with hrejecting hremain
    · rw [hnack (h.nacks (.inl hrejecting))] at hfinish
      obtain rfl := Option.some.inj hfinish
      refine ⟨fun m hm => ?_, h.concat rfl rfl rfl rfl hflow (.inr rfl) ?_ nofun⟩
      · obtain rfl := List.mem_singleton.1 hm
        exact .inr rfl
      · rw [hrejecting]
        rfl
    · obtain rfl := Option.some.inj hfinish
      refine ⟨fun m hm => ?_,
        h.concat rfl rfl rfl rfl hflow (.inl rfl) ?_ fun _ => ⟨_, htransfer⟩⟩
      · obtain rfl := List.mem_singleton.1 hm
        exact .inl rfl
      · rw [Bool.eq_false_iff.2 hrejecting]
        rfl

/-- **The reader rejects a bundle**, which both sides support. -/
theorem reject (h : InStep nacks o flow i answers) (hnacks : nacks = true) :
    InStep nacks o flow i.reject answers :=
  ⟨h.queued, h.sent, h.answered, h.kind, h.handled, h.chain, fun _ _ _ => .inl rfl,
    fun _ => hnacks⟩

/-! #### Answers that come back -/

/-- The answer that comes next is that to the first segment of the queues. -/
theorem exists_queue (h : InStep nacks o flow i (a :: answers)) :
    ∃ seg waiting, i.answered = o.concluded ++ (seg, a) :: waiting ∧
      waiting.map Prod.snd = answers ∧
      ∃ rest, o.buffer.rejectedSegments ++ o.buffer.segments = seg :: rest := by
  obtain ⟨waiting, hwaiting, hanswers⟩ := h.answered
  cases waiting with
  | nil => cases hanswers
  | cons c waiting =>
      obtain ⟨rfl, hrest⟩ := List.cons.inj hanswers
      refine ⟨c.1, waiting, hwaiting, hrest, ?_⟩
      have hqueued := h.queued
      rw [o.map_entries, h.sent, hwaiting, List.map_append, List.append_assoc, List.append_assoc,
        List.append_cancel_left_eq] at hqueued
      exact ⟨_, hqueued⟩

/-- Behind an answer, the receiver is in step with a sender that took the segment from its queues.
-/
theorem taken (h : InStep nacks o flow i (a :: answers))
    {waiting : List (StreamDataSegment × StreamDataSegment)}
    (hwaiting : i.answered = o.concluded ++ (seg, a) :: waiting)
    (hanswers : waiting.map Prod.snd = answers)
    (hentries : o'.entries.map Prod.fst = o.entries.map Prod.fst)
    (hsent : o'.buffer.sent = o.buffer.sent) (hsending : o'.sending = o.sending)
    (hconcluded : o'.concluded = o.concluded ++ [(seg, a)]) : InStep nacks o' flow i answers where
  queued := by rw [hentries, hsent, hsending, h.queued]
  sent := by rw [hsent, h.sent]
  answered := ⟨waiting, by rw [hconcluded, List.append_assoc]; exact hwaiting, hanswers⟩
  kind := h.kind
  handled := h.handled
  chain := h.chain
  rejecting := h.rejecting
  nacks := h.nacks

/-- **An acknowledgement is taken** for the first segment of the queue, which is not refused. -/
theorem takeAck (h : InStep nacks o flow i (a :: answers)) (ho : o.Sound)
    (ha : a.type = .ackSegment) (hidle : o.refusal = .idle) :
    (o.takeAck a).Sound ∧ InStep nacks (o.takeAck a) flow i answers := by
  obtain ⟨seg, waiting, hwaiting, hanswers, rest, hqueue⟩ := h.exists_queue
  have hrefuses : refuses a = false := by rw [refuses, ha]; rfl
  have hrejected : o.buffer.rejectedSegments = [] := by
    by_contra hne
    obtain ⟨c, hc, hrefused⟩ := ho.refused (.inl hne)
    obtain ⟨r, rs, hrs⟩ := List.exists_cons_of_ne_nil hne
    rw [hrs] at hqueue
    obtain ⟨rfl, -⟩ := List.cons.inj hqueue
    have hbegin := ho.rejected r (by rw [hrs]; exact List.mem_cons_self)
    have hchain := h.chain
    rw [hwaiting] at hchain
    have hnext := (List.isChain_append.1 hchain).2.2 c hc (r, a) rfl hrefused hbegin
    exact Bool.false_ne_true (hrefuses.symm.trans hnext)
  rw [hrejected, List.nil_append] at hqueue
  have htake := Outgoing.takeAck_eq ho.ackSupport_eq hqueue a
  refine ⟨ho.takeAck hrefuses hidle hrejected hqueue, h.taken hwaiting hanswers ?_ ?_ ?_ ?_⟩
  · rw [Outgoing.map_entries, Outgoing.map_entries, htake, hrejected, hqueue, List.map_append,
      List.append_assoc]
    rfl
  · rw [htake]
  · rw [htake]
  · rw [htake]

/-- **A refusal is taken** for the first segment of the queues. -/
theorem takeRefusal (h : InStep nacks o flow i (a :: answers)) (ho : o.Sound)
    (hnack : nacks = true → o.buffer.nackSupport = true) (ha : a.type = .refuseBundle)
    (hidle : o.refusal = .idle)
    (hapart : o.buffer.rejectedSegments = [] →
      (∀ seg ∈ o.buffer.segments.tail, seg.isBegin = false) →
        ∀ seg data, o.sending = .decided seg data → seg.isBegin = true) :
    (o.takeRefusal a).Sound ∧ InStep nacks (o.takeRefusal a) flow i answers := by
  obtain ⟨seg, waiting, hwaiting, hanswers, rest, hqueue⟩ := h.exists_queue
  have hrefuses : refuses a = true := by rw [refuses, ha]; rfl
  have hsupported := hnack (h.nacks (.inr ⟨(seg, a), by rw [hwaiting]; simp, hrefuses⟩))
  cases hrejected : o.buffer.rejectedSegments with
  | nil =>
      rw [hrejected, List.nil_append] at hqueue
      have htake := Outgoing.takeRefusal_eq_of_nil ho.ackSupport_eq hsupported hrejected hqueue a
      have hapart' := hapart hrejected
      rw [hqueue] at hapart'
      refine ⟨ho.takeRefusal_of_nil hsupported hrefuses hrejected hqueue hapart',
        h.taken hwaiting hanswers ?_ ?_ ?_ ?_⟩
      · rw [Outgoing.map_entries, Outgoing.map_entries, htake, hrejected, hqueue, List.map_append,
          List.append_assoc, List.takeWhile_append_dropWhile]
        rfl
      · rw [htake]
      · rw [htake]
      · rw [htake]
  | cons r rs =>
      rw [hrejected] at hqueue
      obtain ⟨rfl, -⟩ := List.cons.inj hqueue
      have htake := Outgoing.takeRefusal_eq_of_cons ho.ackSupport_eq hsupported hrejected a
      refine ⟨ho.takeRefusal_of_cons hsupported hrefuses hidle hrejected,
        h.taken hwaiting hanswers ?_ ?_ ?_ ?_⟩
      · rw [Outgoing.map_entries, Outgoing.map_entries, htake, hrejected, List.map_append,
          List.append_assoc]
        rfl
      · rw [htake]
      · rw [htake]
      · rw [htake]

end InStep

/-! ### Steps of the peers -/

/-- The support bits do not change, `overflow` is about data segments, and nothing comes into the
queues of a peer that does not use them. -/
structure Supports (ack nack queues : Bool) (p : StreamPeer) : Prop where
  ackSupport_eq : p.outgoing.buffer.ackSupport = ack
  nackSupport_eq : p.outgoing.buffer.nackSupport = nack
  carried : ∀ seg ∈ p.outgoing.sending.segment, seg.type = .dataSegment
  empty : queues = false →
    p.outgoing.buffer.segments = [] ∧ p.outgoing.buffer.rejectedSegments = []

theorem supports_create (bufferSize : ℕ) (flags : UInt8) (queues : Bool) :
    (create bufferSize flags).Supports (asksAck flags) (asksNack flags) queues :=
  ⟨rfl, rfl, nofun, fun _ => ⟨rfl, rfl⟩⟩

section Supports

variable {ack nack queues : Bool} {p p' : StreamPeer} {m : StreamDataSegment × Bytes} {a : Action}

theorem Supports.of_outgoing {o : Outgoing} (h : p.Supports ack nack queues)
    (ho : p'.outgoing = o) (hack : o.buffer.ackSupport = p.outgoing.buffer.ackSupport)
    (hnack : o.buffer.nackSupport = p.outgoing.buffer.nackSupport)
    (hsending : ∀ seg ∈ o.sending.segment, seg ∈ p.outgoing.sending.segment ∨
      seg.type = .dataSegment)
    (hempty : p.outgoing.buffer.segments = [] ∧ p.outgoing.buffer.rejectedSegments = [] →
      queues = false → o.buffer.segments = [] ∧ o.buffer.rejectedSegments = []) :
    p'.Supports ack nack queues := by
  subst ho
  exact ⟨hack.trans h.ackSupport_eq, hnack.trans h.nackSupport_eq,
    fun seg hseg => (hsending seg hseg).elim (h.carried seg) id,
    fun hqueues => hempty (h.empty hqueues) hqueues⟩

theorem Supports.step (h : p.Supports ack nack queues)
    (hpush : a = .push → ack = true → queues = true) (hstep : p.step a = some p') :
    p'.Supports ack nack queues := by
  cases a with
  | mark data isEnd =>
      obtain ⟨o, hmark, rfl⟩ := Option.map_eq_some_iff.1 hstep
      rw [Outgoing.mark, StreamBuffer.mark_eq] at hmark
      split_ifs at hmark
      obtain rfl := Option.some.inj hmark
      refine h.of_outgoing rfl rfl rfl ?_ fun hnil _ => hnil
      rintro _ ⟨⟩
      exact .inr rfl
  | decide =>
      obtain ⟨o, hdecide, rfl⟩ := Option.map_eq_some_iff.1 hstep
      rw [Outgoing.decide] at hdecide
      split at hdecide
      case h_2 => cases hdecide
      case h_1 seg data hsending =>
        obtain rfl := Option.some.inj hdecide
        refine h.of_outgoing rfl rfl rfl ?_ fun hnil _ => hnil
        rw [hsending]
        cases p.outgoing.buffer.skip with
        | true => rintro _ ⟨⟩
        | false => exact fun _ hseg => .inl hseg
  | push =>
      obtain ⟨o, hpushed, rfl⟩ := Option.map_eq_some_iff.1 hstep
      rw [Outgoing.push] at hpushed
      split at hpushed
      case h_2 => cases hpushed
      case h_1 seg data hsending =>
        obtain rfl := Option.some.inj hpushed
        have hack := h.ackSupport_eq
        refine h.of_outgoing rfl ?_ ?_ ?_ fun hnil hqueues => ?_
        · rw [StreamBuffer.push]
          split_ifs <;> rfl
        · rw [StreamBuffer.push]
          split_ifs <;> rfl
        · rw [hsending]
          exact fun _ hseg => .inl hseg
        · have hnot : ¬ p.outgoing.buffer.ackSupport = true := fun hsupport =>
            Bool.false_ne_true (hqueues.symm.trans (hpush rfl (hack.symm.trans hsupport)))
          rw [StreamBuffer.push, if_neg hnot]
          split_ifs <;> exact hnil
  | write =>
      obtain ⟨⟨o, m⟩, hwrite, rfl⟩ := Option.map_eq_some_iff.1 hstep
      rw [Outgoing.write] at hwrite
      split at hwrite
      case h_2 => cases hwrite
      case h_1 =>
        cases hwrite
        exact h.of_outgoing rfl rfl rfl (by rintro _ ⟨⟩) fun hnil _ => hnil
  | receive => cases hstep
  | check =>
      obtain ⟨o, hcheck, rfl⟩ := Option.map_eq_some_iff.1 hstep
      rw [Outgoing.check] at hcheck
      split at hcheck
      case h_2 => cases hcheck
      case h_1 =>
        obtain rfl := Option.some.inj hcheck
        exact h.of_outgoing rfl rfl rfl (fun _ hseg => .inl hseg) fun hnil _ => hnil
  | setSkip =>
      obtain ⟨o, hskip, rfl⟩ := Option.map_eq_some_iff.1 hstep
      rw [Outgoing.setSkip] at hskip
      split at hskip
      case h_2 => cases hskip
      case h_1 =>
        obtain rfl := Option.some.inj hskip
        exact h.of_outgoing rfl rfl rfl (fun _ hseg => .inl hseg) fun hnil _ => hnil
  | read n =>
      obtain ⟨i, -, rfl⟩ := Option.map_eq_some_iff.1 hstep
      exact ⟨h.1, h.2, h.3, h.4⟩
  | finish =>
      obtain ⟨x, -, rfl⟩ := Option.map_eq_some_iff.1 hstep
      exact ⟨h.1, h.2, h.3, h.4⟩
  | reject =>
      rw [StreamPeer.step] at hstep
      split_ifs at hstep
      obtain rfl := Option.some.inj hstep
      exact ⟨h.1, h.2, h.3, h.4⟩

theorem Supports.receive (h : p.Supports ack nack queues) (hreceive : p.receive m = some p') :
    p'.Supports ack nack queues := by
  rw [StreamPeer.receive] at hreceive
  split_ifs at hreceive
  split at hreceive
  · obtain rfl := Option.some.inj hreceive
    exact ⟨h.1, h.2, h.3, h.4⟩
  · obtain rfl := Option.some.inj hreceive
    rw [Outgoing.takeAck]
    split_ifs
    · split
      · exact h
      · refine h.of_outgoing rfl rfl rfl (fun _ hseg => .inl hseg) fun hnil _ => ?_
        cases hnil.1.symm.trans ‹_›
    · exact h
  · obtain rfl := Option.some.inj hreceive
    rw [Outgoing.takeRefusal]
    split_ifs
    · split
      · refine h.of_outgoing rfl rfl rfl (fun _ hseg => .inl hseg) fun hnil _ => ?_
        cases hnil.2.symm.trans ‹_›
      · split
        · exact h
        · refine h.of_outgoing rfl rfl rfl (fun _ hseg => .inl hseg) fun hnil _ => ?_
          cases hnil.1.symm.trans ‹_›
    · exact h
  · obtain rfl := Option.some.inj hreceive
    exact h

/-- Whatever the receiving half sends is an answer. -/
theorem Incoming.allAnswers_answer (i : Incoming) (supported : Bool) (seg : StreamDataSegment)
    {reply : StreamDataSegment} (h : reply.type = .ackSegment ∨ reply.type = .refuseBundle) :
    AllAnswers (i.answer supported seg reply).2 := by
  rw [Incoming.answer]
  split_ifs
  · intro m hm
    obtain rfl := List.mem_singleton.1 hm
    exact h
  · exact nofun

theorem Incoming.allAnswers_receive (i : Incoming) (nack : Bool) (seg : StreamDataSegment) :
    AllAnswers (i.receive nack seg).2 := by
  simp only [Incoming.receive]
  split_ifs
  · exact Incoming.allAnswers_answer _ _ _ (.inr rfl)
  · exact nofun
  · exact Incoming.allAnswers_answer _ _ _ (.inr rfl)
  · exact nofun

theorem Incoming.allAnswers_finish {i : Incoming} {ack nack : Bool}
    {x : Incoming × List (StreamDataSegment × Bytes)} (h : i.finish ack nack = some x) :
    AllAnswers x.2 := by
  rw [Incoming.finish] at h
  split at h
  · split_ifs at h
    · obtain rfl := Option.some.inj h
      exact Incoming.allAnswers_answer _ _ _ (.inr rfl)
    · obtain rfl := Option.some.inj h
      exact Incoming.allAnswers_answer _ _ _ (.inl rfl)
  · cases h

end Supports

/-- **A sender and its receiver**, with what is on its way between them. -/
structure Linked (nacks : Bool) (p q : StreamPeer) : Prop where
  sound : p.outgoing.Sound
  inStep : InStep nacks p.outgoing (dataOf p.channel) q.incoming (answersOf q.channel)

namespace Linked

variable {nacks nack queues : Bool} {p p' q q' : StreamPeer} {m : StreamDataSegment × Bytes}
  {ms : List (StreamDataSegment × Bytes)} {a : Action}

/-- **A step of the sender** that takes nothing from the connection. -/
theorem step_sender (h : Linked nacks p q) (hp : p.Supports true nack queues)
    (hdecide : a = .decide → ∀ seg data, p.outgoing.sending = .marked seg data →
      seg.isBegin = true ∨ p.outgoing.buffer.skip = true ∨ p.outgoing.refusal = .idle ∨
        p.outgoing.buffer.segments ≠ [])
    (hsetSkip : a = .setSkip → p.outgoing.refusal = .checked true →
      (p.outgoing.buffer.segments = [] ∧
        ∀ seg ∈ p.outgoing.sending.pending, seg.isBegin = false) ∨
      (p.outgoing.buffer.sob = true ∧ ∀ seg data, p.outgoing.sending ≠ .marked seg data))
    (hstep : p.step a = some p') : Linked nacks p' q := by
  obtain ⟨hsound, hinStep⟩ := h
  -- What the receiving half of the sender sends is not data.
  have hreplies {x : Incoming × List (StreamDataSegment × Bytes)} (hx : AllAnswers x.2) :
      Linked nacks (p.withIncoming x) q := by
    refine ⟨hsound, ?_⟩
    rw [withIncoming, dataOf_append, dataOf_of_allAnswers hx, List.append_nil]
    exact hinStep
  cases a with
  | mark data isEnd =>
      obtain ⟨o, hmark, rfl⟩ := Option.map_eq_some_iff.1 hstep
      exact ⟨hsound.mark hmark, hinStep.mark hmark⟩
  | decide =>
      obtain ⟨o, hdecided, rfl⟩ := Option.map_eq_some_iff.1 hstep
      exact ⟨hsound.decide (hdecide rfl) hdecided, hinStep.decide hdecided⟩
  | push =>
      obtain ⟨o, hpush, rfl⟩ := Option.map_eq_some_iff.1 hstep
      exact ⟨hsound.push hpush, hinStep.push hsound.ackSupport_eq hpush⟩
  | write =>
      obtain ⟨⟨o, m⟩, hwrite, rfl⟩ := Option.map_eq_some_iff.1 hstep
      refine ⟨hsound.write hwrite, ?_⟩
      have hdata : dataOf [m] = [m.1] := by
        rw [Outgoing.write] at hwrite
        split at hwrite
        case h_2 => cases hwrite
        case h_1 seg data hsending =>
          cases hwrite
          have htype := hp.carried seg (by rw [hsending]; rfl)
          simp [dataOf, htype]
      rw [dataOf_append, hdata]
      exact hinStep.write hwrite
  | receive => cases hstep
  | check =>
      obtain ⟨o, hcheck, rfl⟩ := Option.map_eq_some_iff.1 hstep
      exact ⟨hsound.check hcheck, hinStep.check hcheck⟩
  | setSkip =>
      obtain ⟨o, hskip, rfl⟩ := Option.map_eq_some_iff.1 hstep
      exact ⟨hsound.setSkip (hsetSkip rfl) hskip, hinStep.setSkip hskip⟩
  | read n =>
      obtain ⟨i, -, rfl⟩ := Option.map_eq_some_iff.1 hstep
      exact ⟨hsound, hinStep⟩
  | finish =>
      obtain ⟨x, hfinish, rfl⟩ := Option.map_eq_some_iff.1 hstep
      exact hreplies (Incoming.allAnswers_finish hfinish)
  | reject =>
      rw [StreamPeer.step] at hstep
      split_ifs at hstep
      obtain rfl := Option.some.inj hstep
      exact ⟨hsound, hinStep⟩

/-- **A step of the receiver** that takes nothing from the connection. -/
theorem step_receiver (h : Linked nacks p q) (hq : q.Supports true nack queues)
    (hnack : nacks = true → nack = true) (hreject : a = .reject → nacks = true)
    (hstep : q.step a = some q') : Linked nacks p q' := by
  obtain ⟨hsound, hinStep⟩ := h
  refine ⟨hsound, ?_⟩
  cases a with
  | mark data isEnd =>
      obtain ⟨o, -, rfl⟩ := Option.map_eq_some_iff.1 hstep
      exact hinStep
  | decide =>
      obtain ⟨o, -, rfl⟩ := Option.map_eq_some_iff.1 hstep
      exact hinStep
  | push =>
      obtain ⟨o, -, rfl⟩ := Option.map_eq_some_iff.1 hstep
      exact hinStep
  | write =>
      obtain ⟨⟨o, m⟩, hwrite, rfl⟩ := Option.map_eq_some_iff.1 hstep
      have hdata : answersOf [m] = [] := by
        rw [Outgoing.write] at hwrite
        split at hwrite
        case h_2 => cases hwrite
        case h_1 seg data hsending =>
          cases hwrite
          have htype := hq.carried seg (by rw [hsending]; rfl)
          simp [answersOf, htype]
      rw [answersOf_append, hdata, List.append_nil]
      exact hinStep
  | receive => cases hstep
  | check =>
      obtain ⟨o, -, rfl⟩ := Option.map_eq_some_iff.1 hstep
      exact hinStep
  | setSkip =>
      obtain ⟨o, -, rfl⟩ := Option.map_eq_some_iff.1 hstep
      exact hinStep
  | read n =>
      obtain ⟨i, hread, rfl⟩ := Option.map_eq_some_iff.1 hstep
      exact hinStep.read hread
  | finish =>
      obtain ⟨x, hfinish, rfl⟩ := Option.map_eq_some_iff.1 hstep
      rw [hq.ackSupport_eq, hq.nackSupport_eq] at hfinish
      rw [withIncoming, answersOf_append]
      exact (hinStep.finish hnack hfinish).2
  | reject =>
      rw [StreamPeer.step] at hstep
      split_ifs at hstep
      obtain rfl := Option.some.inj hstep
      exact hinStep.reject (hreject rfl)

/-- **The sender takes a message** from the receiver. -/
theorem receive_sender (h : Linked nacks p q) (hp : p.Supports true nack queues)
    (hnack : nacks = true → nack = true) (hq : q.channel = m :: ms)
    (hapart : m.1.type = .refuseBundle → p.outgoing.buffer.rejectedSegments = [] →
      (∀ seg ∈ p.outgoing.buffer.segments.tail, seg.isBegin = false) →
        ∀ seg data, p.outgoing.sending = .decided seg data → seg.isBegin = true)
    (hreceive : p.receive m = some p') : Linked nacks p' { q with channel := ms } := by
  obtain ⟨hsound, hinStep⟩ := h
  rw [hq] at hinStep
  rw [StreamPeer.receive] at hreceive
  split_ifs at hreceive with hready
  obtain ⟨-, hidle⟩ := hready
  by_cases hdata : m.1.type = .dataSegment
  · have hanswers : answersOf (m :: ms) = answersOf ms := by simp [answersOf, hdata]
    rw [hdata] at hreceive
    obtain rfl := Option.some.inj hreceive
    rw [hanswers] at hinStep
    refine ⟨hsound, ?_⟩
    rw [withIncoming, dataOf_append, dataOf_of_allAnswers (Incoming.allAnswers_receive _ _ _),
      List.append_nil]
    exact hinStep
  · have hanswers : answersOf (m :: ms) = m.1 :: answersOf ms := by simp [answersOf, hdata]
    rw [hanswers] at hinStep
    obtain ⟨seg, waiting, hwaiting, -, -⟩ := hinStep.exists_queue
    rcases hinStep.kind (seg, m.1) (by rw [hwaiting]; simp) with htype | htype
    · rw [show m.1.type = .ackSegment from htype] at hreceive
      obtain rfl := Option.some.inj hreceive
      obtain ⟨hsound', hinStep'⟩ := hinStep.takeAck hsound htype hidle
      exact ⟨hsound', hinStep'⟩
    · rw [show m.1.type = .refuseBundle from htype] at hreceive
      obtain rfl := Option.some.inj hreceive
      obtain ⟨hsound', hinStep'⟩ := hinStep.takeRefusal hsound
        (fun hnacks => hp.nackSupport_eq.trans (hnack hnacks)) htype hidle (hapart htype)
      exact ⟨hsound', hinStep'⟩

/-- **The receiver takes a message** from the sender. -/
theorem receive_receiver (h : Linked nacks p q) (hq : q.Supports true nack queues)
    (hnack : nacks = true → nack = true) (hp : p.channel = m :: ms)
    (hreceive : q.receive m = some q') : Linked nacks { p with channel := ms } q' := by
  obtain ⟨hsound, hinStep⟩ := h
  rw [hp] at hinStep
  rw [StreamPeer.receive] at hreceive
  split_ifs at hreceive with hready
  refine ⟨hsound, ?_⟩
  by_cases hdata : m.1.type = .dataSegment
  · have hflow : dataOf (m :: ms) = m.1 :: dataOf ms := by simp [dataOf, hdata]
    rw [hdata] at hreceive
    obtain rfl := Option.some.inj hreceive
    rw [hflow] at hinStep
    rw [withIncoming, answersOf_append, hq.nackSupport_eq]
    exact (hinStep.receive hnack hready.1).2
  · have hflow : dataOf (m :: ms) = dataOf ms := by simp [dataOf, hdata]
    rw [hflow] at hinStep
    split at hreceive
    · exact absurd ‹_› hdata
    · obtain rfl := Option.some.inj hreceive
      exact hinStep
    · obtain rfl := Option.some.inj hreceive
      exact hinStep
    · obtain rfl := Option.some.inj hreceive
      exact hinStep

end Linked

end StreamPeer

namespace StreamLink

open StreamPeer

variable {requests : Bool → UInt8} {s s' : StreamLink} {x : Bool × Action} {i : Bool}

/-- **The condition on the flags**: a peer whose segments are to be acknowledged sends bundles only
if it acknowledges those of the other one, and a bundle is rejected only if both have asked for
refusals, or if its segments are not to be acknowledged. -/
def Negotiated (requests : Bool → UInt8) : Bool × Action → Prop
  | (i, .push) => asksAck (requests !i) = true → asksAck (requests i) = true
  | (i, .reject) => asksAck (requests i) = true →
      asksNack (requests i) = true ∧ asksNack (requests !i) = true
  | _ => True

instance decidableNegotiated (requests : Bool → UInt8) (x : Bool × Action) :
    Decidable (Negotiated requests x) :=
  match x with
  | (_, .push) => inferInstanceAs (Decidable (_ → _))
  | (_, .reject) => inferInstanceAs (Decidable (_ → _ ∧ _))
  | (_, .mark _ _) | (_, .decide) | (_, .write) | (_, .receive) | (_, .check) | (_, .setSkip)
  | (_, .read _) | (_, .finish) => isTrue trivial

/-- Acknowledgements are in use for what a peer sends: both sides have asked for them. -/
def usesAcks (requests : Bool → UInt8) (i : Bool) : Bool :=
  asksAck (requests i) && asksAck (requests !i)

/-- Refusals are in use. -/
def usesNacks (requests : Bool → UInt8) (i : Bool) : Bool :=
  asksNack (requests i) && asksNack (requests !i)

/-- **What holds of two peers**, in both directions. -/
structure Keeps (requests : Bool → UInt8) (s : StreamLink) : Prop where
  supports : ∀ i, (s i).Supports (asksAck (requests !i)) (asksNack (requests !i))
    (usesAcks requests i)
  linked : ∀ i, usesAcks requests i = true → Linked (usesNacks requests i) (s i) (s !i)

theorem keeps_create (bufferSize : Bool → ℕ) (requests : Bool → UInt8) :
    Keeps requests (create bufferSize requests) where
  supports i := supports_create _ _ _
  linked i hacks := by
    have hack : asksAck (requests !i) = true := (Bool.and_eq_true_iff.1 hacks).2
    refine ⟨?_, InStep.create _ _ _⟩
    rw [create, StreamPeer.create, hack]
    exact Outgoing.sound_create _ _

/-- What holds of one peer and of the other one holds of both. -/
theorem forall_of_not {P : Bool → Prop} (i : Bool) (h : P i) (hnot : P (!i)) (j : Bool) : P j := by
  by_cases hij : j = i
  · exact hij ▸ h
  · rwa [Bool.eq_not_of_ne hij]

/-- A peer has taken a step, and the other one may have lost a message. -/
theorem keeps_of_pair {j : Bool} {p q : StreamPeer} (hp : s' j = p) (hq : s' (!j) = q)
    (hsupports : p.Supports (asksAck (requests !j)) (asksNack (requests !j)) (usesAcks requests j))
    (hsupports' : q.Supports (asksAck (requests j)) (asksNack (requests j)) (usesAcks requests !j))
    (hlinked : usesAcks requests j = true → Linked (usesNacks requests j) p q)
    (hlinked' : usesAcks requests (!j) = true → Linked (usesNacks requests !j) q p) :
    Keeps requests s' := by
  subst hp hq
  refine ⟨forall_of_not j hsupports ?_, forall_of_not j hlinked ?_⟩
  · rw [Bool.not_not]
    exact hsupports'
  · rw [Bool.not_not]
    exact hlinked'

theorem update_not (s : StreamLink) (i : Bool) (p : StreamPeer) :
    Function.update s i p (!i) = s !i := Function.update_of_ne (Bool.not_ne_self i) _ _

/-- **Every step keeps what holds of two peers.** -/
theorem Keeps.step (h : Keeps requests s) (hapart : s.Apart x) (hnegotiated : Negotiated requests x)
    (hstep : s.step x = some s') : Keeps requests s' := by
  obtain ⟨j, a⟩ := x
  have hsupports := h.supports j
  have hsupports' := h.supports !j
  rw [Bool.not_not] at hsupports'
  have hlinked' := h.linked !j
  rw [Bool.not_not] at hlinked'
  have hnacks : usesNacks requests j = true → asksNack (requests !j) = true :=
    fun hnacks => (Bool.and_eq_true_iff.1 hnacks).2
  have hnacks' : usesNacks requests (!j) = true → asksNack (requests !j) = true :=
    fun hnacks => (Bool.and_eq_true_iff.1 hnacks).1
  -- When acknowledgements are in use for one direction, both have asked for them.
  have hack (hacks : usesAcks requests j = true) : (s j).Supports true (asksNack (requests !j))
      (usesAcks requests j) := by
    rwa [(Bool.and_eq_true_iff.1 hacks).2] at hsupports
  have hack' (hacks : usesAcks requests (!j) = true) : (s j).Supports true (asksNack (requests !j))
      (usesAcks requests j) := by
    rwa [(Bool.and_eq_true_iff.1 hacks).1] at hsupports
  by_cases ha : a = .receive
  · subst ha
    rw [StreamLink.step] at hstep
    split at hstep
    case h_1 => cases hstep
    case h_2 m ms hchannel =>
      obtain ⟨p, hp, rfl⟩ := Option.map_eq_some_iff.1 hstep
      refine keeps_of_pair (Function.update_self _ _ _)
        ((update_not _ _ _).trans (Function.update_self _ _ _)) (hsupports.receive hp)
        ⟨hsupports'.1, hsupports'.2, hsupports'.3, hsupports'.4⟩ (fun hacks => ?_) fun hacks => ?_
      · exact (h.linked j hacks).receive_sender (hack hacks) hnacks hchannel
          (hapart m (by rw [hchannel]; rfl)) hp
      · exact (hlinked' hacks).receive_receiver (hack' hacks) hnacks' hchannel hp
  · have hstep' : ((s j).step a).map (Function.update s j) = some s' := by
      cases a with
      | receive => exact absurd rfl ha
      | _ => exact hstep
    obtain ⟨p, hp, rfl⟩ := Option.map_eq_some_iff.1 hstep'
    refine keeps_of_pair (Function.update_self _ _ _) (update_not _ _ _)
      (hsupports.step (fun hpush hasks => ?_) hp) hsupports' (fun hacks => ?_) fun hacks => ?_
    · subst hpush
      exact Bool.and_eq_true_iff.2 ⟨hnegotiated hasks, hasks⟩
    · exact (h.linked j hacks).step_sender (hack hacks) (fun ha => by subst ha; exact hapart)
        (fun ha => by subst ha; exact hapart) hp
    · refine (hlinked' hacks).step_receiver (hack' hacks) hnacks' (fun ha => ?_) hp
      subst ha
      have hasks := (Bool.and_eq_true_iff.1 hacks).2
      rw [Bool.not_not] at hasks
      obtain ⟨hnack, hnack'⟩ := hnegotiated hasks
      rw [usesNacks, Bool.not_not, hnack, hnack']
      rfl

/-- **It holds behind every run** whose steps meet the conditions. -/
theorem keeps_run {bufferSize : Bool → ℕ} {xs : List (Bool × Action)}
    (hrun : Run (fun s x s' => s.step x = some s')
      (fun s x => s.Apart x ∧ Negotiated requests x) (create bufferSize requests) xs s) :
    Keeps requests s :=
  hrun.invariant (keeps_create bufferSize requests)
    fun _ _ _ h hmeets hstep => h.step hmeets.1 hmeets.2 hstep

/-! ### Acknowledgements -/

/-- Nothing is on its way any more: every data segment was written and answered, and all answers
have arrived. -/
structure Settled (p q : StreamPeer) : Prop where
  sending_eq : p.outgoing.sending = .idle
  flow_eq : dataOf p.channel = []
  transfer_eq : q.incoming.transfer = none
  answers_eq : answersOf q.channel = []

/-- **The answers and the events of a peer.** Every data segment that was sent was answered once, is
read or is on its way; the answers are taken in the order of the segments. There is one event for
every bundle whose end is acknowledged or that is refused, in the order in which the bundles were
sent. When nothing is on its way, no segment is in the queues, and every bundle that was sent has
got its event. -/
structure Answers (p q : StreamPeer) : Prop where
  sent : p.outgoing.buffer.sent.map Prod.fst =
    q.incoming.answered.map Prod.fst ++
      ((q.incoming.transfer.map Prod.fst).toList ++ dataOf p.channel)
  answered : ∃ waiting, q.incoming.answered = p.outgoing.concluded ++ waiting ∧
    waiting.map Prod.snd = answersOf q.channel
  kind : ∀ c ∈ q.incoming.answered, c.2.type = .ackSegment ∨ c.2.type = .refuseBundle
  events : ∃ bundles, Batch.Groups StreamDataSegment.isBegin p.outgoing.flagged bundles ∧
    p.outgoing.buffer.events =
      (bundles.filterMap (Batch.verdict StreamDataSegment.isEnd)).map Outgoing.eventOf
  settled : Settled p q → p.outgoing.buffer.segments = [] ∧
    p.outgoing.buffer.rejectedSegments = [] ∧
      (p.outgoing.buffer.sob = true → p.outgoing.buffer.events.length =
        p.outgoing.marked.countP StreamDataSegment.isBegin)

/-- The segments of the queues are those that are answered, read, on their way, or not written. -/
theorem queue_eq {nacks : Bool} {p q : StreamPeer} (h : Linked nacks p q) :
    ∃ waiting, q.incoming.answered = p.outgoing.concluded ++ waiting ∧
      waiting.map Prod.snd = answersOf q.channel ∧
      p.outgoing.buffer.rejectedSegments ++ p.outgoing.buffer.segments =
        waiting.map Prod.fst ++ ((q.incoming.transfer.map Prod.fst).toList ++
          (dataOf p.channel ++ p.outgoing.sending.queue.toList)) := by
  obtain ⟨waiting, hwaiting, hanswers⟩ := h.inStep.answered
  refine ⟨waiting, hwaiting, hanswers, ?_⟩
  have hqueued := h.inStep.queued
  rw [Outgoing.map_entries, h.inStep.sent, hwaiting, List.map_append, List.append_assoc,
    List.append_assoc, List.append_assoc, List.append_cancel_left_eq] at hqueued
  exact hqueued

/-- When nothing is on its way, the queues are empty. -/
theorem queue_eq_nil {nacks : Bool} {p q : StreamPeer} (h : Linked nacks p q) (hs : Settled p q) :
    p.outgoing.buffer.rejectedSegments = [] ∧ p.outgoing.buffer.segments = [] := by
  obtain ⟨waiting, -, hanswers, hqueue⟩ := queue_eq h
  rw [hs.answers_eq, List.map_eq_nil_iff] at hanswers
  rw [hanswers, hs.transfer_eq, hs.flow_eq, hs.sending_eq] at hqueue
  exact List.append_eq_nil_iff.1 hqueue

/-- What the receiver has decided about the segments, and how much of that the sender knows: its
marks are those of the segments whose answers it has taken. -/
theorem handled_eq {nacks : Bool} {p q : StreamPeer} (h : Linked nacks p q) :
    ∃ untold, q.incoming.handled = p.outgoing.flagged ++ untold ∧
      untold.length = (answersOf q.channel).length := by
  obtain ⟨waiting, hwaiting, hanswers⟩ := h.inStep.answered
  refine ⟨waiting.map fun c => (c.1, refuses c.2), ?_, ?_⟩
  · rw [← h.inStep.handled, hwaiting, List.map_append]
    rfl
  · rw [List.length_map, ← hanswers, List.length_map]

theorem answers_of_linked {nacks : Bool} {p q : StreamPeer} (h : Linked nacks p q) :
    Answers p q where
  sent := h.inStep.sent
  answered := h.inStep.answered
  kind := h.inStep.kind
  events := h.sound.events
  settled hs := by
    obtain ⟨hrejected, hsegments⟩ := queue_eq_nil h hs
    refine ⟨hsegments, hrejected, fun hsob => ?_⟩
    have hentries : p.outgoing.entries = p.outgoing.flagged := by
      rw [Outgoing.entries, hrejected, hsegments, List.map_nil, List.map_nil, List.append_nil,
        List.append_nil]
    have hopens : p.outgoing.opens = true := by
      rw [Outgoing.opens, hs.sending_eq]
      exact hsob
    obtain ⟨bundles, hbundles, hevents⟩ := h.sound.events
    have horderly := h.sound.orderly
    have hover := h.sound.awaits.settled hopens
    have hbegun := h.sound.begun
    rw [hentries] at horderly hover hbegun
    rw [hevents, List.length_map, hbundles.length_eq horderly hover, hbundles.length_eq_countP,
      hbegun, hs.sending_eq]
    rfl

/-- **Every segment is answered once, and every bundle gets one event**, in every run of two peers
that have both asked for acknowledgements and refusals, whose steps keep the handling of a refusal
apart from the segments that it is about. -/
theorem answers_run {bufferSize : Bool → ℕ} {requests : Bool → UInt8}
    (hrequests : ∀ i, asksAck (requests i) = true ∧ asksNack (requests i) = true)
    {xs : List (Bool × Action)} {s : StreamLink}
    (hrun : Run (fun s x s' => s.step x = some s') Apart (create bufferSize requests) xs s)
    (i : Bool) : Answers (s i) (s !i) := by
  have hkeeps : Keeps requests s := keeps_run (hrun.imp fun s x hapart => ⟨hapart, by
    obtain ⟨j, a⟩ := x
    cases a with
    | push => exact fun _ => (hrequests j).1
    | reject => exact fun _ => ⟨(hrequests j).2, (hrequests !j).2⟩
    | _ => trivial⟩)
  exact answers_of_linked
    (hkeeps.linked i (Bool.and_eq_true_iff.2 ⟨(hrequests i).1, (hrequests !i).1⟩))

/-- **Negotiated features are used consistently**, in every run whose steps also meet the condition
on the flags: the queues of a peer are empty when nothing is on its way, and always when
acknowledgements are not in use. When they are, a segment in the queues was answered, is read by the
other peer, or is on its way to it; the segments of rejected bundles are refused and the other ones
acknowledged; and for every bundle the sender reports what the receiver decided about it, as far as
the answers have arrived: one with a rejected segment is not reported as forwarded. -/
theorem queues_run {bufferSize : Bool → ℕ} {requests : Bool → UInt8} {xs : List (Bool × Action)}
    {s : StreamLink}
    (hrun : Run (fun s x s' => s.step x = some s') (fun s x => s.Apart x ∧ Negotiated requests x)
      (create bufferSize requests) xs s) (i : Bool) :
    let p := s i
    let q := s !i
    let queue := p.outgoing.buffer.rejectedSegments ++ p.outgoing.buffer.segments
    (Settled p q ∨ usesAcks requests i = false → queue = []) ∧
    (usesAcks requests i = true →
      (∃ waiting, q.incoming.answered = p.outgoing.concluded ++ waiting ∧
        waiting.map Prod.snd = answersOf q.channel ∧
        queue = waiting.map Prod.fst ++ ((q.incoming.transfer.map Prod.fst).toList ++
          (dataOf p.channel ++ p.outgoing.sending.queue.toList))) ∧
      (∀ c ∈ q.incoming.answered, c.2.type = .ackSegment ∨ c.2.type = .refuseBundle) ∧
      q.incoming.answered.map (fun c => (c.1, refuses c.2)) = q.incoming.handled ∧
      ∃ told untold bundles, q.incoming.handled = told ++ untold ∧
        untold.length = (answersOf q.channel).length ∧
        Batch.Groups StreamDataSegment.isBegin told bundles ∧
        p.outgoing.buffer.events =
          (bundles.filterMap (Batch.verdict StreamDataSegment.isEnd)).map Outgoing.eventOf) := by
  have hkeeps := keeps_run hrun
  cases hacks : usesAcks requests i with
  | true =>
      have hlinked := hkeeps.linked i hacks
      refine ⟨fun hs => ?_, fun _ => ⟨queue_eq hlinked, hlinked.inStep.kind,
        hlinked.inStep.handled, ?_⟩⟩
      · obtain ⟨hrejected, hsegments⟩ :=
          queue_eq_nil hlinked (hs.resolve_right nofun)
        exact List.append_eq_nil_iff.2 ⟨hrejected, hsegments⟩
      · obtain ⟨untold, hhandled, hlength⟩ := handled_eq hlinked
        obtain ⟨bundles, hbundles, hevents⟩ := hlinked.sound.events
        exact ⟨_, untold, bundles, hhandled, hlength, hbundles, hevents⟩
  | false =>
      obtain ⟨hsegments, hrejected⟩ := (hkeeps.supports i).empty hacks
      exact ⟨fun _ => List.append_eq_nil_iff.2 ⟨hrejected, hsegments⟩,
        fun h => absurd h Bool.false_ne_true⟩

instance (p q : StreamPeer) : Decidable (Settled p q) :=
  decidable_of_iff (p.outgoing.sending = .idle ∧ dataOf p.channel = [] ∧
      q.incoming.transfer = none ∧ answersOf q.channel = [])
    ⟨fun h => ⟨h.1, h.2.1, h.2.2.1, h.2.2.2⟩, fun h => ⟨h.1, h.2, h.3, h.4⟩⟩

/-- A segment with both marks is sent. -/
def sampleSend : List (Bool × Action) :=
  [(false, .mark [1] true), (false, .decide), (false, .push), (false, .write)]

/-- The other peer reads it and rejects it. -/
def sampleReject : List (Bool × Action) := [(true, .receive), (true, .reject), (true, .finish)]

/-- The other peer reads it and accepts it. -/
def sampleAccept : List (Bool × Action) := [(true, .receive), (true, .read 1), (true, .finish)]

/-- The refusal is handled. -/
def sampleRefusal : List (Bool × Action) := [(false, .receive), (false, .check), (false, .setSkip)]

theorem answers_run_sample : ∃ s : StreamLink, Answers (s false) (s true) ∧
    (s false).outgoing.buffer.events = [.refused, .forwarded] := by
  obtain ⟨s, hrun, hs⟩ := Transition.exists_run_of_foldlM StreamLink.step Apart
    (create (fun _ => 4) fun _ => 5)
    (sampleSend ++ sampleReject ++ sampleRefusal ++ sampleSend ++ sampleAccept ++
      [(false, .receive)])
    (fun s => (s false).outgoing.buffer.events = [.refused, .forwarded]) (by decide)
  exact ⟨s, @answers_run _ (fun _ => 5) (by decide) _ s hrun false, hs⟩

/-- The refusal of a bundle is handled when the next one was begun. -/
def sampleOvertaken : List (Bool × Action) :=
  sampleSend ++ sampleReject ++ [(false, .mark [2] true)] ++ sampleRefusal ++ [(false, .decide)]

/-- A refusal is handled when the next segment of the bundle is on its way to the queue. -/
def sampleLate : List (Bool × Action) :=
  [(false, .mark [1] false), (false, .decide), (false, .push), (false, .write)] ++ sampleReject ++
    [(false, .mark [2] true), (false, .decide)] ++ sampleRefusal ++
    [(false, .push), (false, .write), (true, .receive), (false, .receive)]

/-- The first bundle is rejected, the second one is accepted. -/
def sampleDrift : List (Bool × Action) :=
  sampleSend ++ sampleReject ++ sampleSend ++ sampleAccept ++ [(false, .receive)]

/-- In the first run the next bundle is left out and gets no event, in the second one the bundle is
refused twice. -/
theorem not_answers_run :
    (sampleOvertaken.foldlM StreamLink.step (create (fun _ => 4) fun _ => 5)).any (fun s =>
      Settled (s false) (s true) ∧ (s false).outgoing.buffer.sob = true ∧
      (s false).outgoing.marked.countP StreamDataSegment.isBegin = 2 ∧
      (s false).outgoing.buffer.events = [.refused]) ∧
    (sampleLate.foldlM StreamLink.step (create (fun _ => 4) fun _ => 5)).any (fun s =>
      (s false).outgoing.marked.countP StreamDataSegment.isBegin = 1 ∧
      (s false).outgoing.buffer.events = [.refused, .refused]) := by
  decide

/-- Both peers ask for everything, one bundle is rejected and the next one is not. -/
theorem queues_run_sample : ∃ s : StreamLink, Settled (s false) (s true) ∧
    (s true).incoming.handled.map Prod.snd = [true, false] ∧
    (s false).outgoing.buffer.events = [.refused, .forwarded] ∧
    (s false).outgoing.buffer.rejectedSegments ++ (s false).outgoing.buffer.segments = [] ∧
    (s true).incoming.answered.map (fun c => (c.1, refuses c.2)) = (s true).incoming.handled := by
  obtain ⟨s, hrun, hsettled, hhandled, hevents⟩ := Transition.exists_run_of_foldlM StreamLink.step
    (fun s x => s.Apart x ∧ Negotiated (fun _ => 5) x) (create (fun _ => 4) fun _ => 5)
    (sampleSend ++ sampleReject ++ sampleRefusal ++ sampleSend ++ sampleAccept ++
      [(false, .receive)])
    (fun s => Settled (s false) (s true) ∧ (s true).incoming.handled.map Prod.snd = [true, false] ∧
      (s false).outgoing.buffer.events = [.refused, .forwarded]) (by decide)
  obtain ⟨hqueue, hanswers⟩ := queues_run hrun false
  exact ⟨s, hsettled, hhandled, hevents, hqueue (.inl hsettled), (hanswers rfl).2.2.1⟩

/-- Only one peer asks for acknowledgements: the other one waits for those of its segments for ever.
Both ask for acknowledgements and not for refusals: the acknowledgement of the second bundle is
taken for the first one, which was rejected, and counts as forwarded. -/
theorem not_queues_run :
    ((sampleSend ++ sampleAccept).foldlM StreamLink.step
      (create (fun _ => 4) fun i => if i then 1 else 0)).any (fun s =>
        Settled (s false) (s true) ∧ (s false).outgoing.buffer.segments ≠ []) ∧
    (sampleDrift.foldlM StreamLink.step (create (fun _ => 4) fun _ => 1)).any (fun s =>
      Settled (s false) (s true) ∧ (s true).incoming.handled.map Prod.snd = [true, false] ∧
      (s false).outgoing.buffer.events = [.forwarded] ∧
      (s false).outgoing.buffer.segments.length = 1) := by
  decide

end StreamLink

end IbrDtn
