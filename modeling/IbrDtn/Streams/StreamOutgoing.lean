import IbrDtn.Library.Batch
import IbrDtn.Streams.StreamPeer

/-!
# The sending half of a connection

The sending half of a stream buffer keeps the segments that were not answered in a queue, and those
of a refused bundle in a second one.  This file states what holds of both queues, the state bits and
the events in every order of the steps of the two threads, as long as a refusal is handled apart
from the segments that it is about.

## Main definitions

* `StreamPeer.Outgoing.entries` : all segments that came into the queue.
* `StreamPeer.Outgoing.Sound` : what holds of the sending half.

## Main results

* `StreamPeer.Outgoing.Sound.decide`, `StreamPeer.Outgoing.Sound.push` : the steps of the writer.
* `StreamPeer.Outgoing.Sound.takeAck`, `StreamPeer.Outgoing.Sound.takeRefusal_of_nil` : the steps of
  the reader.
-/

namespace IbrDtn

open StreamDataSegment (isBegin)

/-! ### What holds of the sending half -/

namespace StreamPeer

/-- An answer that refuses a segment. -/
def refuses (seg : StreamDataSegment) : Bool := seg.type == .refuseBundle

namespace Outgoing

variable {o o' : Outgoing} {seg a : StreamDataSegment} {data : Bytes}

/-- The segments that left the queues, each with a flag that says whether it was refused. -/
def flagged (o : Outgoing) : List (StreamDataSegment × Bool) :=
  o.concluded.map fun c => (c.1, refuses c.2)

/-- All segments that came into the queue, with those that are refused, or known to be. -/
def entries (o : Outgoing) : List (StreamDataSegment × Bool) :=
  o.flagged ++ (o.buffer.rejectedSegments.map (fun seg => (seg, true)) ++
    o.buffer.segments.map fun seg => (seg, false))

/-- The next segment that comes into the queue begins a bundle. -/
def opens (o : Outgoing) : Bool := o.sending.pending.elim o.buffer.sob isBegin

/-- The event for a verdict. -/
def eventOf (refused : Bool) : BundleEvent := if refused then .refused else .forwarded

/-- The last batch that came into the queue is refused, as far as the sender knows. -/
abbrev LastRefused (o : Outgoing) : Prop := Batch.LastRefused o.entries

/-- **The sending half is sound.** The segments in the queues are in batches, and those of a refused
bundle are in the second queue. `STREAM_SKIP` is set when the rest of a bundle is to be left out,
and only then or between two bundles. Every bundle that was begun has come into the queue, and there
was one event for every bundle with a verdict. -/
structure Sound (o : Outgoing) : Prop where
  ackSupport_eq : o.buffer.ackSupport = true
  orderly : Batch.Orderly isBegin StreamDataSegment.isEnd o.entries
  awaits : Batch.Awaits StreamDataSegment.isEnd o.entries o.opens
  refused : o.buffer.rejectedSegments ≠ [] ∨ o.refusal ≠ .idle →
    ∃ c ∈ o.concluded.getLast?, refuses c.2 = true
  rejected : ∀ seg ∈ o.buffer.rejectedSegments, seg.isBegin = false
  carried : ∀ seg ∈ o.sending.segment, seg.type = .dataSegment ∧ o.buffer.sob = seg.isEnd
  marked_skip : ∀ seg data, o.sending = .marked seg data → seg.isBegin = true →
    o.buffer.skip = false
  skips : o.buffer.skip = true →
    (o.buffer.sob = true ∧ ∀ seg data, o.sending ≠ .marked seg data) ∨
      (o.LastRefused ∧ ∀ seg ∈ o.sending.pending, seg.isBegin = false)
  skipped : o.opens = false → o.LastRefused →
    o.buffer.skip = true ∨ o.refusal = .refused ∨ o.refusal = .checked true
  decided : ∀ seg data, o.sending = .decided seg data → seg.isBegin = false → ¬ o.LastRefused
  checked : o.refusal = .checked false → o.buffer.segments ≠ []
  begun : o.marked.countP isBegin =
    (o.entries.map Prod.fst).countP isBegin +
      o.sending.pending.toList.countP isBegin
  events : ∃ gs, Batch.Groups isBegin o.flagged gs ∧
    o.buffer.events = (gs.filterMap (Batch.verdict StreamDataSegment.isEnd)).map eventOf

/-- A new sending half. -/
theorem sound_create (bufferSize : ℕ) (nackSupport : Bool) :
    Sound ⟨.create bufferSize true nackSupport, .idle, .idle, [], []⟩ where
  ackSupport_eq := rfl
  orderly := Batch.orderly_nil
  awaits := Batch.awaits_nil
  refused h := h.elim (absurd rfl) (absurd rfl)
  rejected := nofun
  carried := nofun
  marked_skip := nofun
  skips := nofun
  skipped := nofun
  decided := nofun
  checked := nofun
  begun := rfl
  events := ⟨[], .nil, rfl⟩

/-- Behind a segment that is not refused, nothing is known to be. -/
theorem not_lastRefused (h : o.buffer.segments ≠ []) : ¬ o.LastRefused := by
  obtain ⟨segments, seg, hsegments⟩ := (List.eq_nil_or_concat o.buffer.segments).resolve_left h
  rw [LastRefused, entries, hsegments, List.concat_eq_append, List.map_append, ← List.append_assoc,
    ← List.append_assoc]
  exact fun hlast => Bool.false_ne_true (Batch.lastRefused_concat.1 hlast)

/-- **A segment is marked.** -/
theorem Sound.mark (h : o.Sound) {isEnd : Bool} (hmark : o.mark data isEnd = some o') :
    o'.Sound := by
  rw [Outgoing.mark, StreamBuffer.mark_eq] at hmark
  split_ifs at hmark with hidle
  obtain rfl := Option.some.inj hmark
  obtain ⟨hsending, -⟩ := hidle
  have hopens : o.opens = o.buffer.sob := by rw [opens, hsending]; rfl
  have hbegin : (StreamDataSegment.data (UInt64.ofNat data.length) o.buffer.sob isEnd).isBegin =
      o.buffer.sob := StreamDataSegment.isBegin_data _ _ _
  have hend : (StreamDataSegment.data (UInt64.ofNat data.length) o.buffer.sob isEnd).isEnd =
      isEnd := StreamDataSegment.isEnd_data _ _ _
  generalize hseg : StreamDataSegment.data (UInt64.ofNat data.length) o.buffer.sob isEnd = seg
    at hbegin hend
  have htype : seg.type = .dataSegment := by rw [← hseg]; rfl
  exact {
    ackSupport_eq := h.ackSupport_eq
    orderly := h.orderly
    awaits := by
      change Batch.Awaits _ o.entries seg.isBegin
      rw [hbegin, ← hopens]
      exact h.awaits
    refused := h.refused
    rejected := h.rejected
    carried := by
      rintro _ ⟨⟩
      exact ⟨htype, hend.symm⟩
    marked_skip := by
      rintro _ _ ⟨⟩ hmarked
      rw [hbegin] at hmarked
      change (o.buffer.skip && !o.buffer.sob) = false
      rw [hmarked, Bool.not_true, Bool.and_false]
    skips := by
      intro hskip
      obtain ⟨hskip, hsob⟩ := Bool.and_eq_true_iff.1 (show (o.buffer.skip && !o.buffer.sob) = true
        from hskip)
      rw [Bool.not_eq_true'] at hsob
      refine .inr ⟨?_, ?_⟩
      · rcases h.skips hskip with ⟨hsob', -⟩ | ⟨hlast, -⟩
        · exact absurd (hsob.symm.trans hsob') Bool.false_ne_true
        · exact hlast
      · rintro _ ⟨⟩
        rw [hbegin]
        exact hsob
    skipped := by
      intro hopens' hlast
      have hsob : o.buffer.sob = false := hbegin.symm.trans hopens'
      refine (h.skipped (hopens.trans hsob) hlast).imp_left fun hskip => ?_
      change (o.buffer.skip && !o.buffer.sob) = true
      rw [hskip, hsob]
      rfl
    decided := by rintro _ _ ⟨⟩
    checked := h.checked
    begun := by
      have hbegun := h.begun
      rw [hsending] at hbegun
      rw [List.countP_append, hbegun]
      rfl
    events := h.events }

/-- **`STREAM_SKIP` is tested**, and the segment of a refused bundle is left out. -/
theorem Sound.decide (h : o.Sound)
    (hapart : ∀ seg data, o.sending = .marked seg data →
      seg.isBegin = true ∨ o.buffer.skip = true ∨ o.refusal = .idle ∨ o.buffer.segments ≠ [])
    (hdecide : o.decide = some o') : o'.Sound := by
  rw [Outgoing.decide] at hdecide
  split at hdecide
  case h_2 => cases hdecide
  case h_1 seg data hsending =>
    obtain rfl := Option.some.inj hdecide
    have hopens : o.opens = seg.isBegin := by rw [opens, hsending]; rfl
    have hbegun := h.begun
    rw [hsending] at hbegun
    obtain ⟨htype, hsob⟩ := h.carried seg (by rw [hsending]; rfl)
    cases hskip : o.buffer.skip with
    | true =>
        -- Only a segment that does not begin a bundle comes here.
        have hnot : seg.isBegin = false := by
          refine Bool.eq_false_iff.2 fun hbegin => ?_
          exact Bool.false_ne_true ((h.marked_skip seg data hsending hbegin).symm.trans hskip)
        have hlast : o.LastRefused := by
          rcases h.skips hskip with ⟨-, hmarked⟩ | ⟨hlast, -⟩
          · exact absurd hsending (hmarked seg data)
          · exact hlast
        exact {
          ackSupport_eq := h.ackSupport_eq
          orderly := h.orderly
          awaits := by
            obtain ⟨e, he, hrefused⟩ := hlast
            refine ⟨fun f hf hends => ?_, fun _ f hf => ?_, fun hnil => ?_⟩
            · exact absurd ((h.awaits.opens_of_ends f hf hends).symm.trans (hopens.trans hnot))
                Bool.noConfusion
            · obtain rfl := Option.some.inj ((Option.mem_def.1 he).symm.trans hf)
              exact .inr hrefused
            · exact absurd ((h.awaits.nil hnil).symm.trans (hopens.trans hnot)) Bool.noConfusion
          refused := h.refused
          rejected := h.rejected
          carried := by rintro _ ⟨⟩
          marked_skip := by rintro _ _ ⟨⟩
          skips := fun _ => .inr ⟨hlast, by rintro _ ⟨⟩⟩
          skipped := fun _ _ => .inl hskip
          decided := by rintro _ _ ⟨⟩
          checked := h.checked
          begun := by
            rw [hbegun]
            simp [SendState.pending, hnot]
            rfl
          events := h.events }
    | false =>
        exact {
          ackSupport_eq := h.ackSupport_eq
          orderly := h.orderly
          awaits := by
            change Batch.Awaits _ o.entries seg.isBegin
            rw [← hopens]
            exact h.awaits
          refused := h.refused
          rejected := h.rejected
          carried := by
            rintro _ ⟨⟩
            exact ⟨htype, hsob⟩
          marked_skip := by rintro _ _ ⟨⟩
          skips := fun hskip' => absurd (hskip.symm.trans hskip') Bool.false_ne_true
          skipped := fun hopens' hlast => h.skipped (hopens.trans hopens') hlast
          decided := by
            rintro _ _ ⟨⟩ hnot hlast
            rcases hapart seg data hsending with hbegin | hskip' | hidle | hne
            · exact Bool.false_ne_true (hnot.symm.trans hbegin)
            · exact Bool.false_ne_true (hskip.symm.trans hskip')
            · rcases h.skipped (hopens.trans hnot) hlast with hskip' | hrefused | hchecked
              · exact Bool.false_ne_true (hskip.symm.trans hskip')
              · cases hidle.symm.trans hrefused
              · cases hidle.symm.trans hchecked
            · exact not_lastRefused hne hlast
          checked := h.checked
          begun := hbegun
          events := h.events }

theorem entries_push (hack : o.buffer.ackSupport = true) (s : SendState) :
    entries { o with buffer := o.buffer.push seg, sending := s } = o.entries ++ [(seg, false)] := by
  simp only [entries, flagged, StreamBuffer.push, if_pos hack, List.map_append, List.map_cons,
    List.map_nil, List.append_assoc]

/-- **A segment comes into the queue.** -/
theorem Sound.push (h : o.Sound) (hpush : o.push = some o') : o'.Sound := by
  rw [Outgoing.push] at hpush
  split at hpush
  case h_2 => cases hpush
  case h_1 seg data hsending =>
    obtain rfl := Option.some.inj hpush
    have hopens : o.opens = seg.isBegin := by rw [opens, hsending]; rfl
    have hentries := @entries_push o seg h.ackSupport_eq (.queued seg data)
    have hbuffer : o.buffer.push seg =
        { o.buffer with segments := o.buffer.segments ++ [seg] } := if_pos h.ackSupport_eq
    obtain ⟨htype, hsob⟩ := h.carried seg (by rw [hsending]; rfl)
    have hnot : ¬ Batch.LastRefused (o.entries ++ [(seg, false)]) :=
      fun hlast => Bool.false_ne_true (Batch.lastRefused_concat.1 hlast)
    refine ⟨?_, ?_, ?_, ?_, ?_, ?_, ?_, ?_, ?_, ?_, ?_, ?_, ?_⟩
    · rw [hbuffer]
      exact h.ackSupport_eq
    · rw [hentries]
      refine h.orderly.concat ?_ (h.decided seg data hsending)
      rw [← hopens]
      exact h.awaits
    · rw [hentries]
      have hsob' : opens { o with buffer := o.buffer.push seg, sending := .queued seg data } =
          seg.isEnd := by
        rw [opens, hbuffer]
        exact hsob
      rw [hsob']
      exact Batch.awaits_concat
    · rw [hbuffer]
      exact h.refused
    · rw [hbuffer]
      exact h.rejected
    · rintro _ ⟨⟩
      rw [hbuffer]
      exact ⟨htype, hsob⟩
    · rintro _ _ ⟨⟩
    · rw [hbuffer]
      intro hskip
      rcases h.skips hskip with ⟨hsob', -⟩ | ⟨hlast, hpending⟩
      · exact .inl ⟨hsob', by rintro _ _ ⟨⟩⟩
      · exact absurd hlast (h.decided seg data hsending (hpending seg (by rw [hsending]; rfl)))
    · rw [LastRefused, hentries]
      exact fun _ hlast => absurd hlast hnot
    · rintro _ _ ⟨⟩
    · rw [hbuffer]
      exact fun _ => List.append_ne_nil_of_right_ne_nil _ (List.cons_ne_nil _ _)
    · have hbegun := h.begun
      rw [hsending] at hbegun
      rw [hentries, List.map_append, List.countP_append, hbegun]
      rfl
    · rw [hbuffer]
      exact h.events

/-- **A segment is written.** -/
theorem Sound.write (h : o.Sound) {m : StreamDataSegment × Bytes}
    (hwrite : o.write = some (o', m)) : o'.Sound := by
  rw [Outgoing.write] at hwrite
  split at hwrite
  case h_2 => cases hwrite
  case h_1 seg data hsending =>
    cases hwrite
    have hopens : o.opens = o.buffer.sob := by rw [opens, hsending]; rfl
    have hbegun := h.begun
    rw [hsending] at hbegun
    exact {
      ackSupport_eq := h.ackSupport_eq
      orderly := h.orderly
      awaits := by
        change Batch.Awaits _ o.entries o.buffer.sob
        rw [← hopens]
        exact h.awaits
      refused := h.refused
      rejected := h.rejected
      carried := by rintro _ ⟨⟩
      marked_skip := by rintro _ _ ⟨⟩
      skips := fun hskip => (h.skips hskip).imp (fun hsob => ⟨hsob.1, by rintro _ _ ⟨⟩⟩)
        fun hlast => ⟨hlast.1, by rintro _ ⟨⟩⟩
      skipped := fun hopens' hlast => h.skipped (hopens.trans hopens') hlast
      decided := by rintro _ _ ⟨⟩
      checked := h.checked
      begun := hbegun
      events := h.events }

/-- What one more answer adds to the events. -/
theorem Sound.exists_groups (h : o.Sound) {e : StreamDataSegment × Bool}
    (horderly : Batch.Orderly isBegin StreamDataSegment.isEnd
      (o.flagged ++ [e])) :
    ∃ gs, Batch.Groups isBegin (o.flagged ++ [e]) gs ∧
      (gs.filterMap (Batch.verdict StreamDataSegment.isEnd)).map eventOf =
        o.buffer.events ++ (Batch.added isBegin StreamDataSegment.isEnd
          o.flagged e).map eventOf := by
  obtain ⟨gs, hgroups, hevents⟩ := h.events
  obtain ⟨gs', hgroups', hverdicts⟩ := hgroups.exists_concat horderly
  exact ⟨gs', hgroups', by rw [hverdicts, List.map_append, hevents]⟩

/-- An answer is taken that does not change what is known to be refused. -/
theorem Sound.of_entries (h : o.Sound) (hentries : o'.entries = o.entries)
    (hidle : o.refusal = .idle)
    (hthreads : o'.sending = o.sending ∧ o'.refusal = o.refusal ∧ o'.marked = o.marked)
    (hbits : o'.buffer.ackSupport = o.buffer.ackSupport ∧ o'.buffer.skip = o.buffer.skip ∧
      o'.buffer.sob = o.buffer.sob)
    (hrefused : o'.buffer.rejectedSegments ≠ [] → ∃ c ∈ o'.concluded.getLast?, refuses c.2 = true)
    (hrejected : ∀ seg ∈ o'.buffer.rejectedSegments, seg.isBegin = false)
    (hevents : ∃ gs, Batch.Groups isBegin o'.flagged gs ∧
      o'.buffer.events = (gs.filterMap (Batch.verdict StreamDataSegment.isEnd)).map eventOf) :
    o'.Sound := by
  obtain ⟨hsending, hrefusal, hmarked⟩ := hthreads
  obtain ⟨hack, hskip, hsob⟩ := hbits
  have hopens : o'.opens = o.opens := by rw [opens, opens, hsending, hsob]
  have hlast : o'.LastRefused = o.LastRefused := by rw [LastRefused, LastRefused, hentries]
  exact {
    ackSupport_eq := hack.trans h.ackSupport_eq
    orderly := by
      rw [hentries]
      exact h.orderly
    awaits := by
      rw [hentries, hopens]
      exact h.awaits
    refused := by
      rw [hrefusal]
      exact fun hor => hrefused (hor.resolve_right fun hne => hne hidle)
    rejected := hrejected
    carried := by
      rw [hsending, hsob]
      exact h.carried
    marked_skip := by
      rw [hsending, hskip]
      exact h.marked_skip
    skips := by
      rw [hsending, hskip, hsob, hlast]
      exact h.skips
    skipped := by
      rw [hopens, hskip, hlast, hrefusal]
      exact h.skipped
    decided := by
      rw [hsending, hlast]
      exact h.decided
    checked := by
      rw [hrefusal, hidle]
      exact nofun
    begun := by
      rw [hmarked, hentries, hsending]
      exact h.begun
    events := hevents }

section Answers

variable {qs : StreamDataSegment} {rest : List StreamDataSegment}

theorem takeAck_eq (hack : o.buffer.ackSupport = true) (hsegments : o.buffer.segments = qs :: rest)
    (a : StreamDataSegment) :
    o.takeAck a = { o with
      buffer := { o.buffer with
        segments := rest
        events := if qs.isEnd then o.buffer.events ++ [.forwarded] else o.buffer.events }
      concluded := o.concluded ++ [(qs, a)] } := by
  rw [Outgoing.takeAck, if_pos hack, hsegments]

theorem takeRefusal_eq_of_cons (hack : o.buffer.ackSupport = true)
    (hnack : o.buffer.nackSupport = true) (hrejected : o.buffer.rejectedSegments = qs :: rest)
    (a : StreamDataSegment) :
    o.takeRefusal a = { o with
      buffer := { o.buffer with rejectedSegments := rest }
      concluded := o.concluded ++ [(qs, a)] } := by
  rw [Outgoing.takeRefusal, if_pos (by rw [hack, hnack]; rfl), hrejected]

theorem takeRefusal_eq_of_nil (hack : o.buffer.ackSupport = true)
    (hnack : o.buffer.nackSupport = true) (hrejected : o.buffer.rejectedSegments = [])
    (hsegments : o.buffer.segments = qs :: rest) (a : StreamDataSegment) :
    o.takeRefusal a = { o with
      buffer := { o.buffer with
        rejectedSegments := rest.takeWhile fun seg => !seg.isBegin
        segments := rest.dropWhile fun seg => !seg.isBegin
        events := o.buffer.events ++ [.refused] }
      refusal := .refused
      concluded := o.concluded ++ [(qs, a)] } := by
  rw [Outgoing.takeRefusal, if_pos (by rw [hack, hnack]; rfl), hrejected, hsegments]

/-- A segment leaves the queues with its answer. -/
theorem flagged_concat (h : o'.concluded = o.concluded ++ [(qs, a)]) :
    o'.flagged = o.flagged ++ [(qs, refuses a)] := by
  rw [flagged, h, List.map_append]
  rfl

/-- The segments that left the queues are in order. -/
theorem orderly_flagged
    (h : Batch.Orderly isBegin StreamDataSegment.isEnd o.entries) :
    Batch.Orderly isBegin StreamDataSegment.isEnd o.flagged := h.of_append

/-- The segments of the queues are those that did not leave them. -/
theorem map_entries (o : Outgoing) : o.entries.map Prod.fst =
    o.concluded.map Prod.fst ++ (o.buffer.rejectedSegments ++ o.buffer.segments) := by
  simp only [entries, flagged, List.map_append, List.map_map]
  congr 1
  exact congrArg₂ _ (List.map_id _) (List.map_id _)

/-- **An acknowledgement is taken** for a segment that is not refused. -/
theorem Sound.takeAck (h : o.Sound) (ha : refuses a = false) (hidle : o.refusal = .idle)
    (hrejected : o.buffer.rejectedSegments = []) (hsegments : o.buffer.segments = qs :: rest) :
    (o.takeAck a).Sound := by
  have htake := takeAck_eq h.ackSupport_eq hsegments a
  have hflagged : (o.takeAck a).flagged = o.flagged ++ [(qs, false)] := by
    rw [← ha, htake]
    exact flagged_concat rfl
  have hentries : (o.takeAck a).entries = o.entries := by
    rw [entries, entries, hflagged, htake, hrejected, hsegments, List.append_assoc]
    rfl
  have horderly := orderly_flagged (o := o.takeAck a) (by rw [hentries]; exact h.orderly)
  rw [hflagged] at horderly
  obtain ⟨gs, hgroups, hevents⟩ := h.exists_groups horderly
  refine h.of_entries hentries hidle ?_ ?_ ?_ ?_ ⟨gs, hflagged ▸ hgroups, ?_⟩
  · rw [htake]
    exact ⟨rfl, rfl, rfl⟩
  · rw [htake]
    exact ⟨rfl, rfl, rfl⟩
  · rw [htake]
    exact fun hne => absurd hrejected hne
  · rw [htake]
    exact h.rejected
  · rw [hevents, htake, Batch.added]
    cases qs.isEnd with
    | true => rfl
    | false => exact (List.append_nil _).symm

/-- **The refusal of a segment is taken** that belongs to a refused bundle. -/
theorem Sound.takeRefusal_of_cons (h : o.Sound) (hnack : o.buffer.nackSupport = true)
    (ha : refuses a = true) (hidle : o.refusal = .idle)
    (hrejected : o.buffer.rejectedSegments = qs :: rest) : (o.takeRefusal a).Sound := by
  have htake := takeRefusal_eq_of_cons h.ackSupport_eq hnack hrejected a
  have hflagged : (o.takeRefusal a).flagged = o.flagged ++ [(qs, true)] := by
    rw [← ha, htake]
    exact flagged_concat rfl
  have hentries : (o.takeRefusal a).entries = o.entries := by
    rw [entries, entries, hflagged, htake, hrejected, List.append_assoc]
    rfl
  have horderly := orderly_flagged (o := o.takeRefusal a) (by rw [hentries]; exact h.orderly)
  rw [hflagged] at horderly
  have hany : o.flagged.getLast?.any Prod.snd = true := by
    obtain ⟨c, hc, hrefuses⟩ := h.refused (.inl (by rw [hrejected]; exact List.cons_ne_nil _ _))
    rw [flagged, List.getLast?_map, Option.mem_def.1 hc]
    exact hrefuses
  obtain ⟨gs, hgroups, hevents⟩ := h.exists_groups horderly
  refine h.of_entries hentries hidle ?_ ?_ ?_ ?_ ⟨gs, hflagged ▸ hgroups, ?_⟩
  · rw [htake]
    exact ⟨rfl, rfl, rfl⟩
  · rw [htake]
    exact ⟨rfl, rfl, rfl⟩
  · rw [htake]
    exact fun _ => ⟨(qs, a), List.getLast?_concat, ha⟩
  · rw [htake]
    exact fun seg hseg => h.rejected seg (by rw [hrejected]; exact List.mem_cons_of_mem _ hseg)
  · have hbegin := h.rejected qs (by rw [hrejected]; exact List.mem_cons_self)
    rw [hevents, htake, Batch.added, if_pos ⟨hbegin, hany⟩]
    exact (List.append_nil _).symm

/-- **The first refusal of a bundle is taken**: its segments in the queue are refused too. -/
theorem Sound.takeRefusal_of_nil (h : o.Sound) (hnack : o.buffer.nackSupport = true)
    (ha : refuses a = true) (hrejected : o.buffer.rejectedSegments = [])
    (hsegments : o.buffer.segments = qs :: rest)
    (hapart : (∀ seg ∈ rest, seg.isBegin = false) →
      ∀ seg data, o.sending = .decided seg data → seg.isBegin = true) :
    (o.takeRefusal a).Sound := by
  have htake := takeRefusal_eq_of_nil h.ackSupport_eq hnack hrejected hsegments a
  have hflagged : (o.takeRefusal a).flagged = o.flagged ++ [(qs, true)] := by
    rw [← ha, htake]
    exact flagged_concat rfl
  have htaken : ∀ seg ∈ rest.takeWhile fun seg => !seg.isBegin, seg.isBegin = false :=
    fun seg hseg => by simpa using List.mem_takeWhile_imp hseg
  have hentries : (o.takeRefusal a).entries = o.flagged ++ (qs, true) ::
      ((rest.takeWhile fun seg => !seg.isBegin).map (fun seg => (seg, true)) ++
        (rest.dropWhile fun seg => !seg.isBegin).map fun seg => (seg, false)) := by
    rw [entries, hflagged, htake, List.append_assoc]
    rfl
  have hold : o.entries = o.flagged ++ (qs, false) ::
      ((rest.takeWhile fun seg => !seg.isBegin) ++
        rest.dropWhile fun seg => !seg.isBegin).map fun seg => (seg, false) := by
    rw [entries, hrejected, hsegments, List.takeWhile_append_dropWhile]
    rfl
  have hfst : (o.takeRefusal a).entries.map Prod.fst = o.entries.map Prod.fst := by
    rw [hentries, hold]
    simp only [List.map_append, List.map_cons, List.map_map]
    rfl
  have hnot : ¬ o.LastRefused := not_lastRefused (by rw [hsegments]; exact List.cons_ne_nil _ _)
  have horderly : Batch.Orderly isBegin StreamDataSegment.isEnd
      (o.takeRefusal a).entries := by
    rw [hentries]
    refine Batch.Orderly.refuse (hold ▸ h.orderly) htaken fun seg hseg => ?_
    have hhead := List.head?_dropWhile_not (fun seg : StreamDataSegment => !seg.isBegin) rest
    rw [Option.mem_def.1 hseg] at hhead
    simpa using hhead
  have horderly' := orderly_flagged horderly
  rw [hflagged] at horderly'
  obtain ⟨gs, hgroups, hevents⟩ := h.exists_groups horderly'
  have hfirst : ¬ (qs.isBegin = false ∧ o.flagged.getLast?.any Prod.snd = true) := by
    rintro ⟨hbegin, hany⟩
    cases hlast : o.flagged.getLast? with
    | none =>
        rw [hlast] at hany
        cases hany
    | some e =>
        rw [hlast] at hany
        have hnext := (hold ▸ h.orderly).next hlast
        exact Bool.false_ne_true (hnext.refused hany hbegin)
  refine ⟨?_, horderly, ?_, ?_, ?_, ?_, ?_, ?_, ?_, ?_, ?_, ?_, ⟨gs, hflagged ▸ hgroups, ?_⟩⟩
  · rw [htake]
    exact h.ackSupport_eq
  · have hawaits := h.awaits.of_fst hnot hfst
    rw [htake] at hawaits ⊢
    exact hawaits
  · rw [htake]
    exact fun _ => ⟨(qs, a), List.getLast?_concat, ha⟩
  · rw [htake]
    exact htaken
  · rw [htake]
    exact h.carried
  · rw [htake]
    exact h.marked_skip
  · intro hskip
    rw [htake] at hskip ⊢
    exact .inl ((h.skips hskip).resolve_right fun hlast => hnot hlast.1)
  · intro _ _
    rw [htake]
    exact .inr (.inl rfl)
  · intro seg data hdecided hbegin hlast
    refine Bool.false_ne_true (hbegin.symm.trans (hapart (fun seg' hseg' => ?_) seg data ?_))
    · by_contra hne
      refine not_lastRefused (fun hnil => ?_) hlast
      rw [htake] at hnil
      have hdrop := List.dropWhile_eq_nil_iff.1 hnil seg' hseg'
      exact hne (by simpa using hdrop)
    · rw [htake] at hdecided
      exact hdecided
  · rw [htake]
    exact nofun
  · rw [hfst, htake]
    exact h.begun
  · rw [hevents, htake, Batch.added, if_neg hfirst]
    rfl

end Answers

/-- **The queue is tested** behind a refusal. -/
theorem Sound.check (h : o.Sound) (hcheck : o.check = some o') : o'.Sound := by
  rw [Outgoing.check] at hcheck
  split at hcheck
  case h_2 => cases hcheck
  case h_1 hrefusal =>
    obtain rfl := Option.some.inj hcheck
    exact {
      ackSupport_eq := h.ackSupport_eq
      orderly := h.orderly
      awaits := h.awaits
      refused := fun _ => h.refused (.inr (by rw [hrefusal]; rintro ⟨⟩))
      rejected := h.rejected
      carried := h.carried
      marked_skip := h.marked_skip
      skips := h.skips
      skipped := by
        intro _ hlast
        refine .inr (.inr ?_)
        have hempty : o.buffer.segments = [] := by
          by_contra hne
          exact not_lastRefused hne hlast
        change RefusalState.checked o.buffer.segments.isEmpty = _
        rw [hempty]
        rfl
      decided := h.decided
      checked := by
        intro hchecked hnil
        have hempty := RefusalState.checked.inj hchecked
        rw [show o.buffer.segments = [] from hnil] at hempty
        cases hempty
      begun := h.begun
      events := h.events }

/-- Behind a refusal that left the queue empty, the last segment is refused. -/
theorem Sound.lastRefused (h : o.Sound) (hrefusal : o.refusal ≠ .idle)
    (hempty : o.buffer.segments = []) : o.LastRefused := by
  rw [LastRefused, entries, hempty, List.map_nil, List.append_nil]
  rcases List.eq_nil_or_concat o.buffer.rejectedSegments with hnil | ⟨segs, seg, hconcat⟩
  · obtain ⟨c, hc, hrefuses⟩ := h.refused (.inr hrefusal)
    refine ⟨(c.1, refuses c.2), ?_, hrefuses⟩
    rw [hnil, List.map_nil, List.append_nil, flagged, List.getLast?_map, Option.mem_def.1 hc]
    rfl
  · rw [hconcat, List.concat_eq_append, List.map_append, ← List.append_assoc]
    exact Batch.lastRefused_concat.2 rfl

/-- **`STREAM_SKIP` is set**, if no other bundle was begun. -/
theorem Sound.setSkip (h : o.Sound)
    (hapart : o.refusal = .checked true →
      (o.buffer.segments = [] ∧ ∀ seg ∈ o.sending.pending, seg.isBegin = false) ∨
        (o.buffer.sob = true ∧ ∀ seg data, o.sending ≠ .marked seg data))
    (hskip : o.setSkip = some o') : o'.Sound := by
  rw [Outgoing.setSkip] at hskip
  split at hskip
  case h_2 => cases hskip
  case h_1 empty hrefusal =>
    obtain rfl := Option.some.inj hskip
    have hlast := h.lastRefused (by rw [hrefusal]; rintro ⟨⟩)
    exact {
      ackSupport_eq := h.ackSupport_eq
      orderly := h.orderly
      awaits := h.awaits
      refused := fun _ => h.refused (.inr (by rw [hrefusal]; rintro ⟨⟩))
      rejected := h.rejected
      carried := h.carried
      marked_skip := by
        intro seg data hsending hbegin
        have hskip := h.marked_skip seg data hsending hbegin
        change (empty || o.buffer.skip) = false
        rw [hskip, Bool.or_false]
        refine Bool.eq_false_iff.2 fun hempty => ?_
        rcases hapart (by rw [hrefusal, hempty]) with ⟨-, hpending⟩ | ⟨-, hmarked⟩
        · have hsending' : o.sending = .marked seg data := hsending
          refine Bool.false_ne_true ((hpending seg ?_).symm.trans hbegin)
          rw [hsending']
          rfl
        · exact hmarked seg data hsending
      skips := by
        intro hskip
        rcases Bool.or_eq_true_iff.1 (show (empty || o.buffer.skip) = true from hskip) with
          hempty | hskip'
        · rcases hapart (by rw [hrefusal, hempty]) with ⟨hnil, hpending⟩ | hsob
          · exact .inr ⟨hlast hnil, hpending⟩
          · exact .inl hsob
        · exact h.skips hskip'
      skipped := by
        intro hopens hlast'
        refine .inl ?_
        change (empty || o.buffer.skip) = true
        rcases h.skipped hopens hlast' with hskip' | hrefused | hchecked
        · rw [hskip', Bool.or_true]
        · cases hrefusal.symm.trans hrefused
        · rw [RefusalState.checked.inj (hrefusal.symm.trans hchecked), Bool.true_or]
      decided := h.decided
      checked := by rintro ⟨⟩
      begun := h.begun
      events := h.events }

end Outgoing

end StreamPeer

end IbrDtn
