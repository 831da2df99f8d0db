import IbrDtn.Api.APIClient
import Mathlib

/-!
# Lines of the client

Two threads share the stream, and each may read what is for the other.  This file shows for which
steps every line stays in its place: the lines of a body have no number that tells them apart, so
that the thread in `wait` must not read on while a body is next; and a read that throws leaves
`_get_busy` set, so that nobody reads the stream from then on.

## Main definitions

* `APIClient.Orderly` : the steps that leave bodies alone, and nobody waiting without a reader.
* `APIClient.Exclusive` : one thread reads, and whoever waits has a reader.
* `APIClient.Answering` : the server answers the command that is not over.
* `APIClient.Conserved` : the lines of the reply are in their places.

## Main results

* `APIClient.Exclusive.step`, `APIClient.Answering.step`, `APIClient.Conserved.step` : what such a
  step keeps.
-/

namespace IbrDtn

namespace APIClient

variable {plain : List Line → Bool} {s s' : APIClient} {l : Label}

/-- **The steps that leave bodies alone, and nobody waiting without a reader**: `wait` does not read
a line of a body; when a read throws, the other thread does not wait; and after that, a thread looks
at its queue only if something is there. -/
def Orderly (s : APIClient) : Label → Prop
  | .read => s.eof = true → s.waiter.sleeps = false
  | .readWait =>
      (∀ l ∈ s.stream.head?, l.kind ≠ .body) ∧ (s.eof = true → s.commander.sleeps = false)
  | .look => s.threw = true → s.statusQueue ≠ []
  | .lookWait => s.threw = true → s.notifyQueue ≠ []
  | _ => True

/-! ### Where the threads are -/

/-- A thread that looks at its queue does not read. -/
theorem Phase.reads_of_looks {p : Phase} (h : p.looks = true) : p.reads = false := by
  cases p <;> first | rfl | cases h

/-- A thread that looks at its queue was woken up. -/
theorem Phase.sleeps_of_looks {p : Phase} (h : p.looks = true) : p.sleeps = false := by
  rcases p with _ | _ | (_ | _) | _ | _ | _ <;> first | rfl | cases h

@[simp] theorem Phase.reads_wake (p : Phase) : p.wake.reads = p.reads := by cases p <;> rfl

@[simp] theorem Phase.sleeps_wake (p : Phase) : p.wake.sleeps = false := by
  cases p <;> rfl

/-- Behind its status, a command does not read as others wait for, and does not wait. -/
theorem returned_commander (s : APIClient) (l : Line) :
    (s.returned l).commander.reads = false ∧ (s.returned l).commander.sleeps = false := by
  rw [returned]
  split_ifs <;> exact ⟨rfl, rfl⟩

/-- **One thread reads, unless a read has thrown**: it has nothing in its queue, and whoever waits
has a reader and nothing in its queue. -/
structure Exclusive (s : APIClient) : Prop where
  busy : s.threw = false → s.getBusy = (s.commander.reads || s.waiter.reads)
  threw : s.threw = true → s.getBusy = true ∧ s.commander.reads = false ∧ s.waiter.reads = false
  one : s.commander.reads = true → s.waiter.reads = false
  status : s.commander.reads = true → s.statusQueue = []
  notify : s.waiter.reads = true → s.notifyQueue = []
  awake : s.commander.sleeps = true → s.statusQueue = [] ∧ s.waiter.reads = true
  awakeWait : s.waiter.sleeps = true → s.notifyQueue = [] ∧ s.commander.reads = true

section Exclusive

variable (h : s.Exclusive)

include h

/-- A command that looks at its queue. -/
theorem Exclusive.look (hl : s.Orderly .look) (hmoves : s.Moves plain .look s') :
    s'.Exclusive := by
  obtain ⟨hbusy, hthrew, hone, hstatus, hnotify, hawake, hawakeWait⟩ := h
  cases hmoves with
  | @take l ls hlooks hqueue =>
      -- A command that looks at its queue was not the reader, so nobody waits for it.
      have hreads := Phase.reads_of_looks hlooks
      have hreturned := returned_commander { s with statusQueue := ls } l
      constructor <;> grind [returned]
  | sleep hlooks hqueue hset =>
      -- `_get_busy` is set by the other thread, as no read has thrown.
      have hreads := Phase.reads_of_looks hlooks
      have hnot : s.threw = false := Bool.eq_false_iff.2 fun ht => hl ht hqueue
      constructor <;> grind [Phase.reads, Phase.sleeps]
  | lead hlooks hqueue hset =>
      have hreads := Phase.reads_of_looks hlooks
      have hsleeps := Phase.sleeps_of_looks hlooks
      constructor <;> grind [Phase.reads, Phase.sleeps]

/-- `wait` looks at its queue. -/
theorem Exclusive.lookWait (hl : s.Orderly .lookWait) (hmoves : s.Moves plain .lookWait s') :
    s'.Exclusive := by
  obtain ⟨hbusy, hthrew, hone, hstatus, hnotify, hawake, hawakeWait⟩ := h
  cases hmoves with
  | takeWait hlooks hqueue =>
      have hreads := Phase.reads_of_looks hlooks
      constructor <;> grind [Phase.reads, Phase.sleeps]
  | sleepWait hlooks hqueue hset =>
      have hreads := Phase.reads_of_looks hlooks
      have hnot : s.threw = false := Bool.eq_false_iff.2 fun ht => hl ht hqueue
      constructor <;> grind [Phase.reads, Phase.sleeps]
  | leadWait hlooks hqueue hset =>
      have hreads := Phase.reads_of_looks hlooks
      have hsleeps := Phase.sleeps_of_looks hlooks
      constructor <;> grind [Phase.reads, Phase.sleeps]

/-- A command reads a line. -/
theorem Exclusive.read (hl : s.Orderly .read) (hmoves : s.Moves plain .read s') :
    s'.Exclusive := by
  obtain ⟨hbusy, hthrew, hone, hstatus, hnotify, hawake, hawakeWait⟩ := h
  cases hmoves with
  | throw hreading heof =>
      have hasleep : s.waiter.sleeps = false := hl heof
      constructor <;> grind [Phase.reads, Phase.sleeps]
  | read hreading | readEnd hreading =>
      constructor <;> grind [Phase.reads, Phase.sleeps]

/-- `wait` reads a line. -/
theorem Exclusive.readWait (hl : s.Orderly .readWait) (hmoves : s.Moves plain .readWait s') :
    s'.Exclusive := by
  obtain ⟨hbusy, hthrew, hone, hstatus, hnotify, hawake, hawakeWait⟩ := h
  cases hmoves with
  | throwWait hreading heof =>
      have hasleep : s.commander.sleeps = false := hl.2 heof
      constructor <;> grind [Phase.reads, Phase.sleeps]
  | readWait hreading | readWaitEnd hreading =>
      constructor <;> grind [Phase.reads, Phase.sleeps]

/-- A command keeps the line it has read, or puts it in the other queue. -/
theorem Exclusive.keep (hmoves : s.Moves plain .keep s') : s'.Exclusive := by
  obtain ⟨hbusy, hthrew, hone, hstatus, hnotify, hawake, hawakeWait⟩ := h
  cases hmoves with
  | @keep l hgot =>
      -- Everybody is woken up.
      have hreturned := returned_commander { s.signal with getBusy := false } l
      constructor <;> grind [returned, signal, Phase.reads_wake, Phase.sleeps_wake, Phase.reads]
  | keepNotification hgot =>
      constructor <;> grind [signal, Phase.reads_wake, Phase.sleeps_wake, Phase.reads, Phase.sleeps]

/-- `wait` keeps the line it has read, or puts it in the other queue. -/
theorem Exclusive.keepWait (hmoves : s.Moves plain .keepWait s') : s'.Exclusive := by
  obtain ⟨hbusy, hthrew, hone, hstatus, hnotify, hawake, hawakeWait⟩ := h
  cases hmoves with
  | keepWait hgot | keepStatus hgot =>
      constructor <;> grind [signal, Phase.reads_wake, Phase.sleeps_wake, Phase.reads, Phase.sleeps]

/-- A step that changes neither the queues nor who reads and who waits. -/
theorem Exclusive.congr (hbusy : s'.getBusy = s.getBusy) (hthrew : s'.threw = s.threw)
    (hstatus : s'.statusQueue = s.statusQueue) (hnotify : s'.notifyQueue = s.notifyQueue)
    (hreads : s'.commander.reads = s.commander.reads) (hreads' : s'.waiter.reads = s.waiter.reads)
    (hsleeps : s'.commander.sleeps = s.commander.sleeps)
    (hsleeps' : s'.waiter.sleeps = s.waiter.sleeps) : s'.Exclusive := by
  refine ⟨?_, ?_, ?_, ?_, ?_, ?_, ?_⟩
  · rw [hthrew, hbusy, hreads, hreads']
    exact h.busy
  · rw [hthrew, hbusy, hreads, hreads']
    exact h.threw
  · rw [hreads, hreads']
    exact h.one
  · rw [hreads, hstatus]
    exact h.status
  · rw [hreads', hnotify]
    exact h.notify
  · rw [hsleeps, hstatus, hreads']
    exact h.awake
  · rw [hsleeps', hnotify, hreads]
    exact h.awakeWait

theorem Exclusive.step (hl : s.Orderly l) (hmoves : s.Moves plain l s') : s'.Exclusive := by
  cases l with
  | look => exact h.look hl hmoves
  | lookWait => exact h.lookWait hl hmoves
  | read => exact h.read hl hmoves
  | readWait => exact h.readWait hl hmoves
  | keep => exact h.keep hmoves
  | keepWait => exact h.keepWait hmoves
  | answer | notification | close =>
      cases hmoves
      exact h.congr rfl rfl rfl rfl rfl rfl rfl rfl
  | issue =>
      cases hmoves with
      | issue hidle =>
          exact h.congr rfl rfl rfl rfl (by rw [hidle]; rfl) rfl (by rw [hidle]; rfl) rfl
  | readBody =>
      cases hmoves with
      | finish hbody | readBody hbody | readBodyEnd hbody =>
          exact h.congr rfl rfl rfl rfl (by rw [hbody]; rfl) rfl (by rw [hbody]; rfl) rfl
  | wait =>
      cases hmoves with
      | wait hidle =>
          exact h.congr rfl rfl rfl rfl rfl (by rw [hidle]; rfl) rfl (by rw [hidle]; rfl)

end Exclusive

/-! ### Commands and replies -/

/-- A command is issued that is not over. -/
def Phase.pending : Phase → ℕ
  | .idle => 0
  | _ => 1

theorem Phase.pending_of_looks {p : Phase} (h : p.looks = true) : p.pending = 1 := by
  cases p <;> first | rfl | cases h

@[simp] theorem Phase.pending_wake (p : Phase) : p.wake.pending = p.pending := by cases p <;> rfl

/-- The reply to the command, or to the next one if there is none, when it was sent. -/
def reply? (s : APIClient) : Option Reply := s.replies[s.results.length]?

/-- **The server answers in order**: at most one command is not over, and it is the last one that
the server has yet to answer, or the last one that it answered. -/
structure Answering (plain : List Line → Bool) (s : APIClient) : Prop where
  count : s.requests.length + s.replies.length = s.results.length + s.commander.pending
  ahead : s.closed = false → s.results.length ≤ s.replies.length
  last : ∀ c ∈ s.requests.getLast?, c = s.current
  current : ∀ r, s.reply? = some r → r.Answers plain s.current
  eof : s.eof = true → s.closed = true ∧ s.stream = []

section Answering

variable (h : Answering plain s)

include h

/-- There is no reply to the command behind the current one. -/
theorem Answering.none_behind : s.replies[s.results.length + 1]? = none := by
  have hcount := h.count
  have hle : s.commander.pending ≤ 1 := by cases s.commander <;> simp [Phase.pending]
  rw [List.getElem?_eq_none_iff]
  omega

/-- Between the commands, there is no reply. -/
theorem Answering.none_of_idle (hidle : s.commander = .idle) : s.reply? = none := by
  have hcount := h.count
  rw [hidle, Phase.pending] at hcount
  rw [reply?, List.getElem?_eq_none_iff]
  omega

/-- The server is asked at most once before it answers. -/
theorem Answering.requests_eq {c : Command} {cs : List Command} (hrequests : s.requests = c :: cs)
    (hopen : s.closed = false) :
    c = s.current ∧ cs = [] ∧ s.replies.length = s.results.length ∧ s.commander.pending = 1 := by
  have hcount := h.count
  have hahead := h.ahead hopen
  have hle : s.commander.pending ≤ 1 := by cases s.commander <;> simp [Phase.pending]
  rw [hrequests, List.length_cons] at hcount
  have hcs : cs = [] := List.eq_nil_of_length_eq_zero (by omega)
  refine ⟨h.last c ?_, hcs, by omega, by omega⟩
  rw [hrequests, hcs]
  rfl

/-- A command ends: with a reply, if the connection is open. -/
theorem Answering.finish (hpending : s.commander.pending = 1)
    (hreply : s.closed = false → s.reply?.isSome) (x : Option Reply) :
    Answering plain { s with commander := .idle, results := s.results ++ [x] } := by
  have hlength : (s.results ++ [x]).length = s.results.length + 1 := List.length_append
  refine ⟨?_, fun hopen => ?_, h.last, fun r hr => ?_, h.eof⟩
  · have hcount := h.count
    rw [hpending] at hcount
    change _ = (s.results ++ [x]).length + 0
    rw [hlength]
    exact hcount
  · obtain ⟨r, hr⟩ := Option.isSome_iff_exists.1 (hreply hopen)
    obtain ⟨hlt, -⟩ := List.getElem?_eq_some_iff.1 hr
    change (s.results ++ [x]).length ≤ _
    rw [hlength]
    exact hlt
  · change s.replies[(s.results ++ [x]).length]? = some r at hr
    rw [hlength, h.none_behind] at hr
    cases hr

/-- The thread goes on with its command. -/
theorem Answering.goOn (hpending : s.commander.pending = 1) {p : Phase} (hp : p.pending = 1) :
    Answering plain { s with commander := p } := by
  refine ⟨?_, h.ahead, h.last, h.current, h.eof⟩
  change _ = s.results.length + p.pending
  rw [hp, ← hpending]
  exact h.count

theorem Answering.signal (b : Bool) : Answering plain { s.signal with getBusy := b } := by
  refine ⟨?_, h.ahead, h.last, h.current, h.eof⟩
  change _ = s.results.length + s.commander.wake.pending
  rw [Phase.pending_wake]
  exact h.count

/-- A status line ends the command, or is followed by the body. -/
theorem Answering.returned (hpending : s.commander.pending = 1)
    (hreply : s.closed = false → s.reply?.isSome) (l : Line) :
    Answering plain (s.returned l) := by
  rw [APIClient.returned]
  split_ifs
  · exact h.goOn hpending rfl
  · exact h.finish hpending hreply _

end Answering

/-! ### Lines -/

/-- The line belongs to a reply. -/
def Line.ofReply (l : Line) : Bool := decide (l.kind ≠ .notification)

/-- The client tells what the line is. -/
structure Line.Clear (l : Line) : Prop where
  kind : l.kind ≠ .body
  notification : l.isNotification = true ↔ l.kind = .notification

theorem Line.clear_empty : Line.empty.Clear := ⟨nofun, ⟨nofun, nofun⟩⟩

theorem Line.Clear.status {l : Line} (h : l.Clear) (hl : l.isNotification = false) :
    l.kind = .status := by
  have hnot : l.kind ≠ .notification := fun hk => by
    rw [h.notification.2 hk] at hl
    cases hl
  rcases hk : l.kind with _ | _ | _
  · rfl
  · exact absurd hk h.kind
  · exact absurd hk hnot

/-- The line that the thread has read. -/
def Phase.line : Phase → List Line
  | .got l => [l]
  | _ => []

/-- The line that the thread has read, or those of the reply. -/
def Phase.lines : Phase → List Line
  | .got l => [l]
  | .body l ls => l :: ls
  | _ => []

@[simp] theorem Phase.line_idle : Phase.idle.line = [] := rfl

@[simp] theorem Phase.line_reading : Phase.reading.line = [] := rfl

@[simp] theorem Phase.line_got (l : Line) : (Phase.got l).line = [l] := rfl

@[simp] theorem Phase.line_body (l : Line) (ls : List Line) : (Phase.body l ls).line = [] := rfl

@[simp] theorem Phase.lines_reading : Phase.reading.lines = [] := rfl

@[simp] theorem Phase.lines_got (l : Line) : (Phase.got l).lines = [l] := rfl

@[simp] theorem Phase.lines_body (l : Line) (ls : List Line) :
    (Phase.body l ls).lines = l :: ls := rfl

theorem Phase.line_of_not_reads {p : Phase} (h : p.reads = false) : p.line = [] := by
  cases p <;> first | rfl | cases h

theorem Phase.lines_of_looks {p : Phase} (h : p.looks = true) : p.lines = [] := by
  cases p <;> first | rfl | cases h

@[simp] theorem Phase.line_wake (p : Phase) : p.wake.line = p.line := by cases p <;> rfl

@[simp] theorem Phase.lines_wake (p : Phase) : p.wake.lines = p.lines := by cases p <;> rfl

@[simp] theorem Phase.wake_eq_got {p : Phase} {l : Line} : p.wake = .got l ↔ p = .got l := by
  cases p <;> simp [Phase.wake]

@[simp] theorem Phase.wake_eq_body {p : Phase} {l : Line} {ls : List Line} :
    p.wake = .body l ls ↔ p = .body l ls := by
  cases p <;> simp [Phase.wake]

/-- The lines of the reply to the current command, if it was sent. -/
def owed (s : APIClient) : List Line := s.reply?.elim [] Reply.lines

/-- The lines of replies that have not become results, in the order of their arrival. -/
def replyLines (s : APIClient) : List Line :=
  (s.commander.lines ++ s.statusQueue ++ s.waiter.line ++ s.stream).filter Line.ofReply

/-- The notifications that `wait` has not returned, in the order of their arrival. -/
def notes (s : APIClient) : List Line :=
  (s.waiter.line ++ s.notifyQueue ++ s.commander.line ++ s.stream).filter (!Line.ofReply ·)

/-- **Nothing is lost**: the lines of the reply to the current command are in the hands of the
thread that issued it, in the queue, in the hands of the other thread, and in the stream, in this
order, with empty lines behind them once the stream has ended; and the lines of a body are together.
-/
structure Conserved (s : APIClient) : Prop where
  replies : ∃ n, s.replyLines = s.owed ++ List.replicate n Line.empty ∧ (n ≠ 0 → s.eof = true)
  notes : s.waited ++ s.notes = s.notifications
  body : ∀ l ls, s.commander = .body l ls →
    s.current.hasBody l.code = true ∧ l :: ls <+: s.owed
  stream : ∀ l ∈ s.stream, l.kind = .body ∨ l.Clear
  together : s.stream.IsChain fun a b => b.kind = .body → a.kind ≠ .notification
  got : ∀ l, s.commander = .got l ∨ s.waiter = .got l → l.Clear
  queue : ∀ l ∈ s.statusQueue, l.Clear ∧ l.kind = .status
  notified : ∀ l ∈ s.waited ++ s.notifyQueue, l.kind = .notification

/-- Every line of a reply is one. -/
theorem Reply.Answers.ofReply {r : Reply} {c : Command} (h : r.Answers plain c) :
    ∀ l ∈ r.lines, l.ofReply = true := by
  obtain ⟨hstatus, -, hbody, -⟩ := h
  intro l hl
  rw [Line.ofReply, decide_eq_true_iff]
  rcases List.mem_cons.1 hl with rfl | hl
  · rw [hstatus]
    exact nofun
  · rw [hbody l hl]
    exact nofun

/-- A notification is not the predecessor of a line of a body, if the bodies are together. -/
theorem together_head {a b : Line} {ls rest : List Line}
    (h : (a :: ls).IsChain fun a b => b.kind = .body → a.kind ≠ .notification)
    (ha : a.kind = .notification) (hfilter : ls.filter Line.ofReply = b :: rest) :
    b.kind ≠ .body := by
  induction ls generalizing a with
  | nil => cases hfilter
  | cons c ls ih =>
      obtain ⟨hac, hls⟩ := List.isChain_cons_cons.1 h
      rcases hc : c.ofReply with _ | _
      · rw [List.filter_cons_of_neg (Bool.eq_false_iff.1 hc)] at hfilter
        exact ih hls (by simpa [Line.ofReply] using hc) hfilter
      · rw [List.filter_cons_of_pos hc] at hfilter
        obtain ⟨rfl, -⟩ := List.cons.inj hfilter
        exact fun hb => hac hb ha

/-- In front of the next line of a body, there is no line of another kind that is one of a reply. -/
theorem filter_of_append {xs ys rest : List Line} {b : Line} (hxs : ∀ x ∈ xs, x.kind ≠ .body)
    (hfilter : (xs ++ ys).filter Line.ofReply = b :: rest) (hb : b.kind = .body) :
    xs.filter Line.ofReply = [] ∧ ys.filter Line.ofReply = b :: rest := by
  rw [List.filter_append] at hfilter
  rcases hx : xs.filter Line.ofReply with _ | ⟨x, xs'⟩
  · rw [hx, List.nil_append] at hfilter
    exact ⟨rfl, hfilter⟩
  · rw [hx] at hfilter
    obtain ⟨rfl, -⟩ := List.cons.inj hfilter
    have hmem : x ∈ xs.filter Line.ofReply := by
      rw [hx]
      exact List.mem_cons_self
    exact absurd hb (hxs x (List.mem_of_mem_filter hmem))

section Conserved

variable {l : Line} (h : s.Conserved)

include h

/-- The next line of a reply is the status that the command waits for; or the stream has ended. -/
theorem Conserved.front {rest : List Line} (hlines : s.replyLines = l :: rest) :
    (∃ r n, s.reply? = some r ∧ l = r.status ∧ rest = r.body ++ List.replicate n Line.empty ∧
      (n ≠ 0 → s.eof = true)) ∨
    s.reply? = none ∧ l = .empty ∧ s.eof = true ∧ ∃ n, rest = List.replicate n Line.empty := by
  obtain ⟨n, hreplies, heof⟩ := h.replies
  rw [hlines, owed] at hreplies
  rcases hreply : s.reply? with _ | r
  · rw [hreply, Option.elim_none, List.nil_append] at hreplies
    cases n with
    | zero => cases hreplies
    | succ n =>
        obtain ⟨rfl, hrest⟩ := List.cons.inj hreplies
        exact .inr ⟨rfl, rfl, heof (Nat.succ_ne_zero n), n, hrest⟩
  · rw [hreply] at hreplies
    obtain ⟨hstatus, hrest⟩ := List.cons.inj hreplies
    exact .inl ⟨r, n, rfl, hstatus, hrest, heof⟩

/-- What a command has read is a part of its reply. -/
theorem Conserved.body_prefix {ls : List Line} (hbody : s.commander = .body l ls) :
    ∃ r, s.reply? = some r ∧ l = r.status ∧ ls <+: r.body := by
  obtain ⟨-, hpart⟩ := h.body l ls hbody
  rcases hreply : s.reply? with _ | r
  · rw [owed, hreply] at hpart
    exact absurd (List.prefix_nil.1 hpart) (List.cons_ne_nil l ls)
  · rw [owed, hreply] at hpart
    exact ⟨r, rfl, List.cons_prefix_cons.1 hpart⟩

/-- A command that has read its whole body has read no more. -/
theorem Conserved.whole_body (ha : Answering plain s) {ls : List Line}
    (hbody : s.commander = .body l ls) (hover : s.current.complete plain ls = true) :
    s.reply? = some ⟨l, ls⟩ := by
  obtain ⟨r, hreply, rfl, hpart⟩ := h.body_prefix hbody
  obtain ⟨-, -, -, hanswer⟩ := ha.current r hreply
  rw [if_pos (h.body _ ls hbody).1] at hanswer
  rw [hreply]
  rcases hpart.length_le.lt_or_eq with hlt | hlength
  · have hmore := hanswer.2 _ hlt
    rw [← List.prefix_iff_eq_take.1 hpart, hover] at hmore
    cases hmore
  · rw [hpart.eq_of_length hlength]

/-- What a command has read and what is left make up its reply. -/
theorem Conserved.rest_body (ha : Answering plain s) {ls : List Line}
    (hbody : s.commander = .body l ls) : ∃ r more n, s.reply? = some r ∧ l = r.status ∧
      ls ++ more = r.body ∧ (s.statusQueue ++ s.waiter.line ++ s.stream).filter Line.ofReply =
        more ++ List.replicate n Line.empty ∧ (n ≠ 0 → s.eof = true) := by
  obtain ⟨r, hreply, rfl, more, hwhole⟩ := h.body_prefix hbody
  obtain ⟨n, hreplies, heof⟩ := h.replies
  have hread : (r.status :: ls).filter Line.ofReply = r.status :: ls := by
    refine List.filter_eq_self.2 fun x hx => (ha.current r hreply).ofReply x ?_
    rw [Reply.lines, ← hwhole, ← List.cons_append]
    exact List.mem_append_left _ hx
  have howed : s.owed = (r.status :: ls) ++ more := by
    rw [owed, hreply, List.cons_append, hwhole]
    rfl
  have hsplit : s.replyLines =
      (r.status :: ls) ++ (s.statusQueue ++ s.waiter.line ++ s.stream).filter Line.ofReply := by
    rw [← hread, ← List.filter_append, replyLines, hbody, Phase.lines, ← List.append_assoc,
      ← List.append_assoc]
  rw [hsplit, howed, List.append_assoc _ more] at hreplies
  exact ⟨r, more, n, hreply, rfl, hwhole, List.append_cancel_left hreplies, heof⟩

/-- The lines that the client has read for others are none of a body. -/
theorem Conserved.not_body : ∀ x ∈ s.statusQueue ++ s.waiter.line, x.kind ≠ .body := by
  intro x hx
  rcases List.mem_append.1 hx with hx | hx
  · rw [(h.queue x hx).2]
    exact nofun
  · rcases hwaiter : s.waiter with _ | _ | _ | _ | y | _
    case got =>
      rw [hwaiter] at hx
      rw [List.mem_singleton.1 hx]
      exact (h.got y (.inr hwaiter)).kind
    all_goals
      rw [hwaiter] at hx
      cases hx

/-- A command that has not read its whole body finds the next line of it in the stream. -/
theorem Conserved.next_body (ha : Answering plain s) {ls : List Line}
    (hbody : s.commander = .body l ls) (hmore : s.current.complete plain ls = false) :
    (s.statusQueue ++ s.waiter.line).filter Line.ofReply = [] ∧
      ∃ l' ls', s.stream = l' :: ls' ∧ l'.kind = .body ∧ l :: (ls ++ [l']) <+: s.owed := by
  obtain ⟨r, more, n, hreply, rfl, hwhole, hrest, -⟩ := h.rest_body ha hbody
  obtain ⟨-, -, hkinds, hanswer⟩ := ha.current r hreply
  rw [if_pos (h.body _ ls hbody).1] at hanswer
  cases more with
  | nil =>
      rw [List.append_nil] at hwhole
      rw [hwhole, hanswer.1] at hmore
      cases hmore
  | cons b bs =>
      have hb : b.kind = .body :=
        hkinds b (hwhole ▸ List.mem_append_right ls List.mem_cons_self)
      obtain ⟨hnil, hstream⟩ := filter_of_append h.not_body hrest hb
      refine ⟨hnil, ?_⟩
      rcases hs : s.stream with _ | ⟨l', ls'⟩
      · rw [hs] at hstream
        cases hstream
      · rw [hs] at hstream
        rcases hl' : l'.ofReply with _ | _
        · rw [List.filter_cons_of_neg (Bool.eq_false_iff.1 hl')] at hstream
          have hkind : l'.kind = .notification := by simpa [Line.ofReply] using hl'
          exact absurd hb (together_head (hs ▸ h.together) hkind hstream)
        · rw [List.filter_cons_of_pos hl'] at hstream
          obtain ⟨rfl, -⟩ := List.cons.inj hstream
          refine ⟨l', ls', rfl, hb, bs, ?_⟩
          rw [owed, hreply, Option.elim_some, Reply.lines, ← hwhole]
          simp

/-- A command leaves the loop over the body with the whole body. -/
theorem Conserved.reply_body (ha : Answering plain s) {ls : List Line}
    (hbody : s.commander = .body l ls) (hover : s.current.complete plain ls = true ∨ s.eof = true) :
    s.reply? = some ⟨l, ls⟩ := by
  rcases hcomplete : s.current.complete plain ls with _ | _
  · obtain ⟨-, b, rest, hstream, -⟩ := h.next_body ha hbody hcomplete
    have heof := hover.resolve_left (Bool.eq_false_iff.1 hcomplete)
    rw [(ha.eof heof).2] at hstream
    cases hstream
  · exact h.whole_body ha hbody hcomplete

/-- Behind the whole body, there are only empty lines. -/
theorem Conserved.rest_of_whole (ha : Answering plain s) {ls : List Line}
    (hreply : s.reply? = some ⟨l, ls⟩) (hbody : s.commander = .body l ls) :
    ∃ n, (s.statusQueue ++ s.waiter.line ++ s.stream).filter Line.ofReply =
      List.replicate n Line.empty ∧ (n ≠ 0 → s.eof = true) := by
  obtain ⟨r, more, n, hreply', -, hwhole, hrest, heof⟩ := h.rest_body ha hbody
  obtain rfl := Option.some.inj (hreply.symm.trans hreply')
  rw [List.append_right_eq_self.1 hwhole, List.nil_append] at hrest
  exact ⟨n, hrest, heof⟩

/-- The queue for status lines has no notifications. -/
theorem Conserved.queue_not_notification (hl : l ∈ s.statusQueue) : l.isNotification = false := by
  obtain ⟨hclear, hkind⟩ := h.queue l hl
  refine Bool.eq_false_iff.2 fun hnote => ?_
  rw [hclear.notification.1 hnote] at hkind
  cases hkind

/-- When a command reads on behind the end of the stream, there is no reply to it. -/
theorem Conserved.none_of_eof (ha : Answering plain s) (hx : s.Exclusive)
    (hreading : s.commander = .reading) (heof : s.eof = true) : s.reply? = none := by
  have hreads : s.commander.reads = true := by rw [hreading]; rfl
  obtain ⟨n, hreplies, -⟩ := h.replies
  rw [replyLines, hreading, hx.status hreads, Phase.line_of_not_reads (hx.one hreads),
    (ha.eof heof).2, owed] at hreplies
  rcases hreply : s.reply? with _ | r
  · rfl
  · rw [hreply] at hreplies
    cases hreplies

/-- What the thread takes from the queue is as good as what it reads itself. -/
theorem Conserved.take {ls : List Line} (hlooks : s.commander.looks = true)
    (hqueue : s.statusQueue = l :: ls) :
    Conserved { s with statusQueue := ls, commander := .got l } := by
  have hlines := Phase.lines_of_looks hlooks
  have hline := Phase.line_of_not_reads (Phase.reads_of_looks hlooks)
  obtain ⟨hclear, hkind⟩ := h.queue l (hqueue ▸ List.mem_cons_self)
  refine ⟨?_, ?_, fun _ _ => nofun, h.stream, h.together, ?_, fun x hx => h.queue x ?_, h.notified⟩
  · obtain ⟨n, hreplies, heof⟩ := h.replies
    refine ⟨n, ?_, heof⟩
    change _ = s.owed ++ _
    rw [← hreplies, replyLines, replyLines, hlines, hqueue]
    rfl
  · rw [← h.notes, APIClient.notes, APIClient.notes, hline]
    simp [Line.ofReply, hkind]
  · rintro x (hx | hx)
    · cases hx
      exact hclear
    · exact h.got x (.inr hx)
  · rw [hqueue]
    exact List.mem_cons_of_mem l hx

/-- A command is over when nothing but empty lines is left of its reply. -/
theorem Conserved.finish (ha : Answering plain s)
    (hrest : ∃ n, (s.statusQueue ++ s.waiter.line ++ s.stream).filter Line.ofReply =
      List.replicate n Line.empty ∧ (n ≠ 0 → s.eof = true))
    (hline : ∀ y ∈ s.commander.line, y.ofReply = true) (x : Option Reply) :
    Conserved { s with commander := .idle, results := s.results ++ [x] } := by
  refine ⟨?_, ?_, fun _ _ => nofun, h.stream, h.together, ?_, h.queue, h.notified⟩
  · obtain ⟨n, hrest, heof⟩ := hrest
    refine ⟨n, ?_, heof⟩
    rw [owed, reply?, List.length_append, List.length_singleton, ha.none_behind]
    exact hrest
  · have hnone : s.commander.line.filter (!Line.ofReply ·) = [] :=
      List.filter_eq_nil_iff.2 fun y hy => by simp [hline y hy]
    rw [← h.notes, APIClient.notes, APIClient.notes]
    simp [hnone]
  · rintro y (hy | hy)
    · cases hy
    · exact h.got y (.inr hy)

section Got

variable (ha : Answering plain s) (hgot : s.commander = .got l) (hl : l.isNotification = false)

include hgot hl

/-- The line that ends the loop of `__get_return` is the first one of those that are left. -/
theorem Conserved.replyLines_got : s.replyLines =
    l :: (s.statusQueue ++ s.waiter.line ++ s.stream).filter Line.ofReply := by
  have hkind : l.ofReply = true := by
    rw [Line.ofReply, (h.got l (.inl hgot)).status hl]
    rfl
  rw [replyLines, hgot, Phase.lines, List.append_assoc, List.append_assoc, List.singleton_append,
    List.filter_cons_of_pos hkind, List.append_assoc]

/-- There is a reply for a status line, unless the stream has ended. -/
theorem Conserved.reply_got (ha : Answering plain s) (hopen : s.closed = false) :
    s.reply?.isSome := by
  rcases h.front (h.replyLines_got hgot hl) with ⟨r, n, hreply, -⟩ | ⟨-, -, heof, -⟩
  · rw [hreply]
    rfl
  · rw [(ha.eof heof).1] at hopen
    cases hopen

include ha

/-- A status line without a body is the reply. -/
theorem Conserved.eq_of_no_body (hno : s.current.hasBody l.code = false) :
    ∀ r, s.reply? = some r → some ⟨l, []⟩ = some r := by
  intro r hr
  rcases h.front (h.replyLines_got hgot hl) with ⟨r', n, hreply, rfl, -⟩ | ⟨hnone, -⟩
  · obtain rfl := Option.some.inj (hreply.symm.trans hr)
    obtain ⟨-, -, -, hanswer⟩ := ha.current r' hr
    rw [if_neg (Bool.eq_false_iff.1 hno)] at hanswer
    rw [← hanswer]
  · rw [hnone] at hr
    cases hr

theorem Conserved.returned : (s.returned l).Conserved := by
  have hlines := h.replyLines_got hgot hl
  have hkind : l.ofReply = true := by
    rw [Line.ofReply, (h.got l (.inl hgot)).status hl]
    rfl
  rw [APIClient.returned]
  split_ifs with hhas
  · refine ⟨?_, ?_, ?_, h.stream, h.together, ?_, h.queue, h.notified⟩
    · obtain ⟨n, hreplies, heof⟩ := h.replies
      refine ⟨n, ?_, heof⟩
      change _ = s.owed ++ _
      rw [← hreplies, replyLines, replyLines, hgot]
      rfl
    · rw [← h.notes, APIClient.notes, APIClient.notes, hgot]
      simp [hkind]
    · rintro _ _ ⟨⟩
      refine ⟨hhas, ?_⟩
      rcases h.front hlines with ⟨r, n, hreply, rfl, -⟩ | ⟨-, rfl, -⟩
      · change _ <+: s.owed
        rw [owed, hreply]
        exact ⟨r.body, rfl⟩
      · exact absurd hhas (by cases s.current <;> decide)
    · rintro y (hy | hy)
      · cases hy
      · exact h.got y (.inr hy)
  · refine h.finish ha ?_ ?_ _
    · rcases h.front hlines with ⟨r, n, hreply, rfl, hrest, heof⟩ | ⟨-, -, heof, n, hrest⟩
      · have heq := h.eq_of_no_body ha hgot hl (Bool.eq_false_iff.2 hhas) r hreply
        rw [← Option.some.inj heq] at hrest
        exact ⟨n, hrest, heof⟩
      · exact ⟨n, hrest, fun _ => heof⟩
    · rw [hgot]
      exact fun y hy => List.mem_singleton.1 hy ▸ hkind

end Got

/-- Everybody is woken up. -/
theorem Conserved.signal (b : Bool) : Conserved { s.signal with getBusy := b } := by
  obtain ⟨hreplies, hnotes, hbody, hstream, htogether, hgot, hqueue, hnotified⟩ := h
  refine ⟨?_, ?_, ?_, hstream, htogether, ?_, hqueue, hnotified⟩
  · simpa [replyLines, owed, reply?, APIClient.signal] using hreplies
  · simpa [APIClient.notes, APIClient.signal] using hnotes
  · simpa [owed, reply?, APIClient.signal] using hbody
  · simpa [APIClient.signal] using hgot

/-- The server answers the command. -/
theorem Conserved.answer (ha : Answering plain s) {r : Reply} {c : Command} {cs : List Command}
    (hrequests : s.requests = c :: cs) (hopen : s.closed = false) (hr : r.Answers plain c) :
    Conserved { s with
      requests := cs
      stream := s.stream ++ r.lines
      replies := s.replies ++ [r] } := by
  obtain ⟨-, -, hlength, -⟩ := ha.requests_eq hrequests hopen
  have hnone : s.owed = [] := by
    rw [owed, reply?, List.getElem?_eq_none_iff.2 hlength.le]
    rfl
  have howed : (s.replies ++ [r])[s.results.length]? = some r := by
    rw [← hlength, List.getElem?_append_right (Nat.le_refl _), Nat.sub_self]
    rfl
  have hofReply := hr.ofReply
  have hlines : r.lines.filter Line.ofReply = r.lines := List.filter_eq_self.2 hofReply
  have hnotes : r.lines.filter (!Line.ofReply ·) = [] :=
    List.filter_eq_nil_iff.2 fun x hx => by simp [hofReply x hx]
  obtain ⟨hstatus, hnot, hkinds, -⟩ := hr
  refine ⟨?_, ?_, fun l ls hbody => ?_, fun x hx => ?_, ?_, h.got, h.queue, h.notified⟩
  · obtain ⟨n, hreplies, heof⟩ := h.replies
    have hn : n = 0 := by
      by_contra hn
      rw [(ha.eof (heof hn)).1] at hopen
      cases hopen
    refine ⟨0, ?_, fun h0 => absurd rfl h0⟩
    rw [hn, hnone, replyLines] at hreplies
    rw [owed, reply?, howed, replyLines, ← List.append_assoc, List.filter_append, hreplies,
      hlines]
    simp
  · rw [← h.notes, APIClient.notes, APIClient.notes, ← List.append_assoc _ _ r.lines,
      List.filter_append _ r.lines, hnotes, List.append_nil]
  · have hpart := (h.body l ls hbody).2
    rw [hnone] at hpart
    exact absurd (List.prefix_nil.1 hpart) (List.cons_ne_nil l ls)
  · rcases List.mem_append.1 hx with hx | hx
    · exact h.stream x hx
    · rcases List.mem_cons.1 hx with rfl | hx
      · refine .inr ⟨?_, ?_⟩
        · rw [hstatus]
          exact nofun
        · rw [hnot, hstatus]
          exact ⟨nofun, nofun⟩
      · exact .inl (hkinds x hx)
  · refine h.together.append ?_ fun x hx y hy hbody => ?_
    · exact List.isChain_iff_getElem.2 fun i hi _ =>
        of_decide_eq_true (hofReply _ (List.getElem_mem _))
    · obtain rfl := Option.some.inj hy
      rw [hstatus] at hbody
      cases hbody

/-- The server sends a notification. -/
theorem Conserved.notification (hkind : l.kind = .notification) (hl : l.isNotification = true) :
    Conserved { s with
      stream := s.stream ++ [l]
      notifications := s.notifications ++ [l] } := by
  have hnot : l.ofReply = false := by simp [Line.ofReply, hkind]
  refine ⟨?_, ?_, h.body, fun x hx => ?_, ?_, h.got, h.queue, h.notified⟩
  · obtain ⟨n, hreplies, heof⟩ := h.replies
    refine ⟨n, ?_, heof⟩
    change _ = s.owed ++ _
    rw [← hreplies, replyLines, replyLines]
    simp [hnot]
  · rw [← h.notes, APIClient.notes, APIClient.notes]
    simp [hnot]
  · rcases List.mem_append.1 hx with hx | hx
    · exact h.stream x hx
    · rw [List.mem_singleton.1 hx]
      refine .inr ⟨?_, ?_⟩
      · rw [hkind]
        exact nofun
      · rw [hl, hkind]
        exact ⟨fun _ => rfl, fun _ => rfl⟩
  · refine h.together.append (List.isChain_singleton l) fun x hx y hy hbody => ?_
    obtain rfl := Option.some.inj hy
    rw [hkind] at hbody
    cases hbody

/-- The thread goes on with nothing in its hands, as before. -/
theorem Conserved.commander {p : Phase} (hlines : s.commander.lines = []) (hp : p.lines = []) :
    Conserved { s with commander := p } := by
  have hline : ∀ {p : Phase}, p.lines = [] → p.line = [] ∧ (∀ l, p ≠ .got l) ∧
      ∀ l ls, p ≠ .body l ls := by
    intro p hp
    cases p with
    | got l => cases hp
    | body l ls => cases hp
    | _ => exact ⟨rfl, fun _ => nofun, fun _ _ => nofun⟩
  refine ⟨?_, ?_, fun l ls hb => absurd hb ((hline hp).2.2 l ls), h.stream, h.together,
    fun x hx => ?_, h.queue, h.notified⟩
  · have hreplies := h.replies
    rw [replyLines, hlines] at hreplies
    rw [replyLines]
    simp only [hp]
    exact hreplies
  · rw [← h.notes, APIClient.notes, APIClient.notes, (hline hlines).1]
    simp only [(hline hp).1]
  · exact h.got x (hx.imp_left fun hx => absurd hx ((hline hp).2.1 x))

/-- The thread in `wait` goes on with nothing in its hands, as before. -/
theorem Conserved.waiter {p : Phase} (hreads : s.waiter.line = []) (hp : p.line = []) :
    Conserved { s with waiter := p } := by
  refine ⟨?_, ?_, h.body, h.stream, h.together, fun x hx => ?_, h.queue, h.notified⟩
  · have hreplies := h.replies
    rw [replyLines, hreads] at hreplies
    rw [replyLines]
    simp only [hp]
    exact hreplies
  · rw [← h.notes, APIClient.notes, APIClient.notes, hreads]
    simp only [hp]
  · refine h.got x (hx.imp_right fun hx => ?_)
    change p = _ at hx
    rw [hx] at hp
    cases hp

/-- The thread that issues commands reads a line. -/
theorem Conserved.read {ls : List Line} (hreading : s.commander = .reading)
    (hqueue : s.statusQueue = []) (hline : s.waiter.line = []) (hstream : s.stream = l :: ls)
    (heof : s.eof = false) (ha : Answering plain s) :
    Conserved { s with stream := ls, commander := .got l } := by
  have hlines : s.stream.filter Line.ofReply = s.replyLines := by
    rw [replyLines, hreading, hqueue, hline]
    rfl
  have hclear : l.Clear := by
    refine (h.stream l (hstream ▸ List.mem_cons_self)).resolve_left fun hbody => ?_
    rw [hstream, List.filter_cons_of_pos (by simp [Line.ofReply, hbody])] at hlines
    rcases h.front hlines.symm with ⟨r, n, hreply, rfl, -⟩ | ⟨-, -, heof', -⟩
    · rw [(ha.current r hreply).1] at hbody
      cases hbody
    · rw [heof] at heof'
      cases heof'
  refine ⟨?_, ?_, fun _ _ => nofun, fun x hx => ?_, ?_, ?_, h.queue, h.notified⟩
  · obtain ⟨n, hreplies, heof⟩ := h.replies
    refine ⟨n, ?_, heof⟩
    change _ = s.owed ++ _
    rw [← hreplies, replyLines, replyLines, hreading, hqueue, hline, hstream]
    rfl
  · rw [← h.notes, APIClient.notes, APIClient.notes, hreading, hstream]
    simp
  · exact h.stream x (hstream ▸ List.mem_cons_of_mem l hx)
  · exact (hstream ▸ h.together : (l :: ls).IsChain _).of_cons
  · rintro x (hx | hx)
    · cases hx
      exact hclear
    · exact h.got x (.inr hx)

/-- The thread that issues commands finds the end of the stream. -/
theorem Conserved.readEnd (hreading : s.commander = .reading) (hqueue : s.statusQueue = [])
    (hline : s.waiter.line = []) (hstream : s.stream = []) :
    Conserved { s with eof := true, commander := .got .empty } := by
  refine ⟨?_, ?_, fun _ _ => nofun, h.stream, h.together, ?_, h.queue, h.notified⟩
  · obtain ⟨n, hreplies, -⟩ := h.replies
    refine ⟨n + 1, ?_, fun _ => rfl⟩
    change _ = s.owed ++ _
    rw [List.replicate_succ', ← List.append_assoc, ← hreplies, replyLines, replyLines, hreading,
      hqueue, hline, hstream]
    rfl
  · rw [← h.notes, APIClient.notes, APIClient.notes, hreading, hstream]
    simp [show Line.empty.ofReply = true from rfl]
  · rintro x (hx | hx)
    · cases hx
      exact Line.clear_empty
    · exact h.got x (.inr hx)

/-- The thread in `wait` reads a line. -/
theorem Conserved.readWait {ls : List Line} (hreading : s.waiter = .reading)
    (hqueue : s.notifyQueue = []) (hline : s.commander.line = []) (hstream : s.stream = l :: ls)
    (hbody : l.kind ≠ .body) :
    Conserved { s with stream := ls, waiter := .got l } := by
  refine ⟨?_, ?_, h.body, fun x hx => ?_, ?_, ?_, h.queue, h.notified⟩
  · obtain ⟨n, hreplies, heof⟩ := h.replies
    refine ⟨n, ?_, heof⟩
    change _ = s.owed ++ _
    rw [← hreplies, replyLines, replyLines, hreading, hstream]
    simp
  · rw [← h.notes, APIClient.notes, APIClient.notes, hreading, hstream, hqueue, hline]
    rfl
  · exact h.stream x (hstream ▸ List.mem_cons_of_mem l hx)
  · exact (hstream ▸ h.together : (l :: ls).IsChain _).of_cons
  · rintro x (hx | hx)
    · exact h.got x (.inl hx)
    · cases hx
      exact (h.stream l (hstream ▸ List.mem_cons_self)).resolve_left hbody

/-- The thread in `wait` finds the end of the stream. -/
theorem Conserved.readWaitEnd (hreading : s.waiter = .reading) (hstream : s.stream = []) :
    Conserved { s with eof := true, waiter := .got .empty } := by
  refine ⟨?_, ?_, h.body, h.stream, h.together, ?_, h.queue, h.notified⟩
  · obtain ⟨n, hreplies, -⟩ := h.replies
    refine ⟨n + 1, ?_, fun _ => rfl⟩
    change _ = s.owed ++ _
    rw [List.replicate_succ', ← List.append_assoc, ← hreplies, replyLines, replyLines, hreading,
      hstream]
    simp [show Line.empty.ofReply = true from rfl]
  · rw [← h.notes, APIClient.notes, APIClient.notes, hreading, hstream]
    simp [show Line.empty.ofReply = true from rfl]
  · rintro x (hx | hx)
    · exact h.got x (.inl hx)
    · cases hx
      exact Line.clear_empty

/-- The thread that issues commands reads a line of the body. -/
theorem Conserved.readBody (ha : Answering plain s) {ls ls' : List Line} {l' : Line}
    (hbody : s.commander = .body l ls) (hmore : s.current.complete plain ls = false)
    (hstream : s.stream = l' :: ls') :
    Conserved { s with stream := ls', commander := .body l (ls ++ [l']) } := by
  obtain ⟨hnil, b, rest, hstream', hkind, hpart⟩ := h.next_body ha hbody hmore
  obtain ⟨rfl, rfl⟩ := List.cons.inj (hstream.symm.trans hstream')
  have hofReply : l'.ofReply = true := by simp [Line.ofReply, hkind]
  refine ⟨?_, ?_, ?_, fun x hx => ?_, ?_, fun x hx => ?_, h.queue, h.notified⟩
  · obtain ⟨n, hreplies, heof⟩ := h.replies
    refine ⟨n, ?_, heof⟩
    change _ = s.owed ++ _
    rw [← hreplies, replyLines, replyLines, hbody, hstream, List.append_assoc _ s.statusQueue,
      List.append_assoc _ s.statusQueue, List.filter_append, List.filter_append, hnil,
      List.filter_append, List.filter_append, hnil]
    simp [List.filter_cons, hofReply]
    split_ifs <;> simp
  · rw [← h.notes, APIClient.notes, APIClient.notes, hbody, hstream]
    simp [hofReply]
  · rintro _ _ ⟨⟩
    exact ⟨(h.body l ls hbody).1, hpart⟩
  · exact h.stream x (hstream ▸ List.mem_cons_of_mem l' hx)
  · exact (hstream ▸ h.together : (l' :: ls').IsChain _).of_cons
  · rcases hx with hx | hx
    · cases hx
    · exact h.got x (.inr hx)

/-- The thread that issues commands queues a notification. -/
theorem Conserved.keepNotification (hgot : s.commander = .got l) (hl : l.isNotification = true) :
    Conserved { s.signal with notifyQueue := s.notifyQueue ++ [l], commander := .reading } := by
  have hs := h.signal s.getBusy
  have hkind : l.kind = .notification := (h.got l (.inl hgot)).notification.1 hl
  have hnot : l.ofReply = false := by simp [Line.ofReply, hkind]
  refine ⟨?_, ?_, fun _ _ => nofun, hs.stream, hs.together, ?_, hs.queue, fun x hx => ?_⟩
  · obtain ⟨n, hreplies, heof⟩ := h.replies
    refine ⟨n, ?_, heof⟩
    change _ = s.owed ++ _
    rw [← hreplies, replyLines, replyLines, hgot]
    simp [APIClient.signal, hnot]
  · change _ = s.notifications
    rw [← h.notes, APIClient.notes, APIClient.notes, hgot]
    simp [APIClient.signal, hnot]
  · rintro x (hx | hx)
    · cases hx
    · exact hs.got x (.inr hx)
  · rw [← List.append_assoc] at hx
    rcases List.mem_append.1 hx with hx | hx
    · exact h.notified x hx
    · rw [List.mem_singleton.1 hx]
      exact hkind

/-- The thread in `wait` returns a notification. -/
theorem Conserved.keepWait (hgot : s.waiter = .got l) (hl : l.isNotification = true)
    (hqueue : s.notifyQueue = []) :
    Conserved { s.signal with getBusy := false, waiter := .idle, waited := s.waited ++ [l] } := by
  have hs := h.signal false
  have hkind : l.kind = .notification := (h.got l (.inr hgot)).notification.1 hl
  have hnot : l.ofReply = false := by simp [Line.ofReply, hkind]
  refine ⟨?_, ?_, hs.body, hs.stream, hs.together, ?_, hs.queue, fun x hx => ?_⟩
  · obtain ⟨n, hreplies, heof⟩ := h.replies
    refine ⟨n, ?_, heof⟩
    change _ = s.owed ++ _
    rw [← hreplies, replyLines, replyLines, hgot]
    simp [APIClient.signal, hnot]
  · change _ = s.notifications
    rw [← h.notes, APIClient.notes, APIClient.notes, hgot]
    simp [APIClient.signal, hnot]
  · rintro x (hx | hx)
    · exact hs.got x (.inl hx)
    · cases hx
  · change x ∈ s.waited ++ [l] ++ s.notifyQueue at hx
    rw [hqueue, List.append_nil] at hx
    rcases List.mem_append.1 hx with hx | hx
    · exact h.notified x (List.mem_append_left _ hx)
    · rw [List.mem_singleton.1 hx]
      exact hkind

/-- The thread in `wait` queues a status line. -/
theorem Conserved.keepStatus (hgot : s.waiter = .got l) (hl : l.isNotification = false) :
    Conserved { s.signal with statusQueue := s.statusQueue ++ [l], waiter := .reading } := by
  have hs := h.signal s.getBusy
  have hclear := h.got l (.inr hgot)
  have hkind := hclear.status hl
  have hofReply : l.ofReply = true := by simp [Line.ofReply, hkind]
  refine ⟨?_, ?_, hs.body, hs.stream, hs.together, ?_, fun x hx => ?_, hs.notified⟩
  · obtain ⟨n, hreplies, heof⟩ := h.replies
    refine ⟨n, ?_, heof⟩
    change _ = s.owed ++ _
    rw [← hreplies, replyLines, replyLines, hgot]
    simp [APIClient.signal]
  · change _ = s.notifications
    rw [← h.notes, APIClient.notes, APIClient.notes, hgot]
    simp [APIClient.signal, hofReply]
  · rintro x (hx | hx)
    · exact hs.got x (.inl hx)
    · cases hx
  · rcases List.mem_append.1 hx with hx | hx
    · exact h.queue x hx
    · rw [List.mem_singleton.1 hx]
      exact ⟨hclear, hkind⟩

/-- The thread in `wait` takes a notification from the queue. -/
theorem Conserved.takeWait {ls : List Line} (hlooks : s.waiter.looks = true)
    (hqueue : s.notifyQueue = l :: ls) :
    Conserved { s with notifyQueue := ls, waiter := .idle, waited := s.waited ++ [l] } := by
  have hline := Phase.line_of_not_reads (Phase.reads_of_looks hlooks)
  have hkind : l.kind = .notification :=
    h.notified l (List.mem_append_right _ (hqueue ▸ List.mem_cons_self))
  have hnot : l.ofReply = false := by simp [Line.ofReply, hkind]
  refine ⟨?_, ?_, h.body, h.stream, h.together, ?_, h.queue, fun x hx => ?_⟩
  · obtain ⟨n, hreplies, heof⟩ := h.replies
    refine ⟨n, ?_, heof⟩
    change _ = s.owed ++ _
    rw [← hreplies, replyLines, replyLines, hline]
    rfl
  · rw [← h.notes, APIClient.notes, APIClient.notes, hline, hqueue]
    simp [hnot]
  · rintro x (hx | hx)
    · exact h.got x (.inl hx)
    · cases hx
  · refine h.notified x ?_
    rw [hqueue]
    simpa using hx

end Conserved

theorem Conserved.step (h : s.Conserved) (ha : Answering plain s) (hx : s.Exclusive)
    (hl : s.Orderly l) (hmoves : s.Moves plain l s') : s'.Conserved := by
  have hidleLine : ∀ {p : Phase}, p.reads = false → p.line = [] := Phase.line_of_not_reads
  cases hmoves with
  | answer hrequests hopen hr => exact h.answer ha hrequests hopen hr
  | notification hopen hkind hnote => exact h.notification hkind hnote
  | close =>
      exact ⟨h.replies, h.notes, h.body, h.stream, h.together, h.got, h.queue, h.notified⟩
  | issue hidle =>
      have hc := h.commander (p := .looking) (by rw [hidle]; rfl) rfl
      exact ⟨hc.replies, hc.notes, fun _ _ => nofun, hc.stream, hc.together, hc.got, hc.queue,
        hc.notified⟩
  | @take l ls hlooks hqueue =>
      have hpending := Phase.pending_of_looks hlooks
      have ha' : Answering plain { s with statusQueue := ls } :=
        ⟨ha.count, ha.ahead, ha.last, ha.current, ha.eof⟩
      exact (h.take hlooks hqueue).returned (ha'.goOn hpending rfl) rfl
        (h.queue_not_notification (hqueue ▸ List.mem_cons_self))
  | sleep hlooks => exact h.commander (Phase.lines_of_looks hlooks) rfl
  | lead hlooks =>
      have hc := h.commander (p := .reading) (Phase.lines_of_looks hlooks) rfl
      exact ⟨hc.replies, hc.notes, hc.body, hc.stream, hc.together, hc.got, hc.queue, hc.notified⟩
  | throw hreading heof =>
      have hreads : s.commander.reads = true := by rw [hreading]; rfl
      have hf := h.finish ha (x := none) ?_ (by rw [hreading]; exact fun _ => nofun)
      · exact ⟨hf.replies, hf.notes, hf.body, hf.stream, hf.together, hf.got, hf.queue,
          hf.notified⟩
      · refine ⟨0, ?_, fun h0 => absurd rfl h0⟩
        rw [hx.status hreads, hidleLine (hx.one hreads), (ha.eof heof).2]
        rfl
  | read hreading heof hstream =>
      have hreads : s.commander.reads = true := by rw [hreading]; rfl
      exact h.read hreading (hx.status hreads) (hidleLine (hx.one hreads)) hstream heof ha
  | readEnd hreading hstream hclosed =>
      have hreads : s.commander.reads = true := by rw [hreading]; rfl
      exact h.readEnd hreading (hx.status hreads) (hidleLine (hx.one hreads)) hstream
  | keepNotification hgot hnote => exact h.keepNotification hgot hnote
  | keep hgot hnote =>
      refine (h.signal false).returned (ha.signal false) ?_ hnote
      simpa [APIClient.signal] using hgot
  | finish hbody hover =>
      exact h.finish ha (h.rest_of_whole ha (h.reply_body ha hbody hover) hbody)
        (by rw [hbody]; exact fun _ => nofun) _
  | readBody hbody hmore heof hstream => exact h.readBody ha hbody hmore hstream
  | readBodyEnd hbody hmore hstream =>
      obtain ⟨-, b, rest, hstream', -⟩ := h.next_body ha hbody hmore
      rw [hstream] at hstream'
      cases hstream'
  | wait hidle => exact h.waiter (by rw [hidle]; rfl) rfl
  | takeWait hlooks hqueue => exact h.takeWait hlooks hqueue
  | sleepWait hlooks => exact h.waiter (hidleLine (Phase.reads_of_looks hlooks)) rfl
  | leadWait hlooks =>
      have hw := h.waiter (p := .reading) (hidleLine (Phase.reads_of_looks hlooks)) rfl
      exact ⟨hw.replies, hw.notes, hw.body, hw.stream, hw.together, hw.got, hw.queue, hw.notified⟩
  | throwWait hreading =>
      have hw := h.waiter (p := .idle) (by rw [hreading]; rfl) rfl
      exact ⟨hw.replies, hw.notes, hw.body, hw.stream, hw.together, hw.got, hw.queue, hw.notified⟩
  | readWait hreading heof hstream =>
      have hreads : s.waiter.reads = true := by rw [hreading]; rfl
      have hnot : s.commander.reads = false := Bool.eq_false_iff.2 fun hc =>
        Bool.eq_false_iff.1 (hx.one hc) hreads
      refine h.readWait hreading (hx.notify hreads) (hidleLine hnot) hstream (hl.1 _ ?_)
      rw [hstream]
      rfl
  | readWaitEnd hreading hstream => exact h.readWaitEnd hreading hstream
  | keepWait hgot hnote => exact h.keepWait hgot hnote (hx.notify (by rw [hgot]; rfl))
  | keepStatus hgot hnote => exact h.keepStatus hgot hnote

theorem Answering.step (ha : Answering plain s) (h : s.Conserved)
    (hmoves : s.Moves plain l s') : Answering plain s' := by
  cases hmoves with
  | @answer r c cs hrequests hopen hr =>
      obtain ⟨rfl, rfl, hlength, hpending⟩ := ha.requests_eq hrequests hopen
      refine ⟨?_, fun _ => ?_, fun _ => nofun, fun r' hr' => ?_, fun heof => ?_⟩
      · change 0 + (s.replies ++ [r]).length = s.results.length + s.commander.pending
        rw [List.length_append, List.length_singleton, hpending, hlength, Nat.zero_add]
      · change s.results.length ≤ (s.replies ++ [r]).length
        rw [List.length_append, hlength]
        exact Nat.le_add_right _ _
      · change (s.replies ++ [r])[s.results.length]? = some r' at hr'
        rw [← hlength, List.getElem?_append_right (Nat.le_refl _), Nat.sub_self] at hr'
        obtain rfl := Option.some.inj hr'
        exact hr
      · rw [(ha.eof heof).1] at hopen
        cases hopen
  | notification hopen =>
      refine ⟨ha.count, ha.ahead, ha.last, ha.current, fun heof => ?_⟩
      rw [(ha.eof heof).1] at hopen
      cases hopen
  | close => exact ⟨ha.count, nofun, ha.last, ha.current, fun heof => ⟨rfl, (ha.eof heof).2⟩⟩
  | @issue c hidle =>
      refine ⟨?_, ha.ahead, fun c' hc' => ?_, fun r hr => ?_, ha.eof⟩
      · have hcount := ha.count
        rw [hidle, Phase.pending] at hcount
        change (s.requests ++ [c]).length + s.replies.length = s.results.length + 1
        rw [List.length_append, List.length_singleton]
        omega
      · rw [List.getLast?_append_of_ne_nil _ (List.cons_ne_nil c [])] at hc'
        exact (Option.some.inj hc').symm
      · change s.reply? = some r at hr
        rw [ha.none_of_idle hidle] at hr
        cases hr
  | @take l ls hlooks hqueue =>
      have hpending := Phase.pending_of_looks hlooks
      have ha' : Answering plain { s with statusQueue := ls } :=
        ⟨ha.count, ha.ahead, ha.last, ha.current, ha.eof⟩
      exact ha'.returned hpending (fun hopen => (h.take hlooks hqueue).reply_got rfl
        (h.queue_not_notification (hqueue ▸ List.mem_cons_self)) (ha'.goOn hpending rfl) hopen) l
  | sleep hlooks => exact ha.goOn (Phase.pending_of_looks hlooks) rfl
  | lead hlooks =>
      have hg := ha.goOn (Phase.pending_of_looks hlooks) (p := .reading) rfl
      exact ⟨hg.count, hg.ahead, hg.last, hg.current, hg.eof⟩
  | throw hreading heof =>
      have hf := ha.finish (by rw [hreading]; rfl) (fun hopen => ?_) none
      · exact ⟨hf.count, hf.ahead, hf.last, hf.current, hf.eof⟩
      · rw [(ha.eof heof).1] at hopen
        cases hopen
  | @read l ls hreading heof hstream =>
      have hg := ha.goOn (by rw [hreading]; rfl) (p := .got l) rfl
      refine ⟨hg.count, hg.ahead, hg.last, hg.current, fun heof' => ?_⟩
      rw [heof] at heof'
      cases heof'
  | readEnd hreading hstream hclosed =>
      have hg := ha.goOn (by rw [hreading]; rfl) (p := .got .empty) rfl
      exact ⟨hg.count, hg.ahead, hg.last, hg.current, fun _ => ⟨hclosed, hstream⟩⟩
  | keepNotification hgot =>
      have hg := ha.goOn (by rw [hgot]; rfl) (p := .reading) rfl
      exact ⟨hg.count, hg.ahead, hg.last, hg.current, hg.eof⟩
  | keep hgot hnote =>
      refine (ha.signal false).returned ?_ (fun hopen => h.reply_got hgot hnote ha hopen) _
      change s.commander.wake.pending = 1
      rw [hgot]
      rfl
  | finish hbody hover =>
      refine ha.finish (by rw [hbody]; rfl) (fun _ => ?_) _
      rw [h.reply_body ha hbody hover]
      rfl
  | @readBody l ls l' ls' hbody hmore heof =>
      have hg := ha.goOn (by rw [hbody]; rfl) (p := .body l (ls ++ [l'])) rfl
      refine ⟨hg.count, hg.ahead, hg.last, hg.current, fun heof' => ?_⟩
      rw [heof] at heof'
      cases heof'
  | @readBodyEnd l ls hbody hmore hstream hclosed =>
      have hg := ha.goOn (by rw [hbody]; rfl) (p := .body l (ls ++ [.empty])) rfl
      exact ⟨hg.count, hg.ahead, hg.last, hg.current, fun _ => ⟨hclosed, hstream⟩⟩
  | readWait hreading heof =>
      refine ⟨ha.count, ha.ahead, ha.last, ha.current, fun heof' => ?_⟩
      rw [heof] at heof'
      cases heof'
  | readWaitEnd hreading hstream hclosed =>
      exact ⟨ha.count, ha.ahead, ha.last, ha.current, fun _ => ⟨hclosed, hstream⟩⟩
  | keepWait | keepStatus =>
      have hg := ha.signal false
      exact ⟨hg.count, hg.ahead, hg.last, hg.current, hg.eof⟩
  | wait | takeWait | sleepWait | leadWait | throwWait =>
      exact ⟨ha.count, ha.ahead, ha.last, ha.current, ha.eof⟩

end APIClient

end IbrDtn
