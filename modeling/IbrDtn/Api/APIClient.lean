import IbrDtn.Data.Eid

/-!
# The client of the API

This file models `ibrdtn/api/APIClient.cpp`: one thread issues commands and one calls `wait`.  The
server answers the commands in order, with a status line that may be followed by a body, and sends
notifications between the replies.  Whichever thread needs a line first reads the stream, and puts
what is for the other thread into a queue.

A line is what `getline` gives, with the number that is read from it.  What ends the body of
`bundle get plain` is a parameter: it is what `PlainDeserializer` reads.

## Main definitions

* `APIClient` : the members of the client, the stream, the server, and where the threads are.
* `APIClient.step` : the steps of the threads and of the server.
* `APIClient.Moves` : the same as a relation, for case distinctions.

## Main results

* `APIClient.moves_of_step` : what a step does.
-/

namespace IbrDtn

namespace APIClient

/-- What the server means by a line. -/
inductive Kind where
  | status
  | body
  | notification
deriving DecidableEq

/-- A line, and the number at its beginning, zero if there is none. -/
structure Line where
  kind : Kind
  code : ℤ
  text : Bytes
deriving DecidableEq

/-- The client takes the line for a notification. -/
def Line.isNotification (l : Line) : Bool := decide (l.code ≥ 600 ∧ l.code < 700)

/-- What `getline` gives at the end of the stream. -/
def Line.empty : Line := ⟨.status, 0, []⟩

/-- The commands: those with a reply of one line, `registration list`, and `bundle get plain`. -/
inductive Command where
  | simple
  | subscriptions
  | get
deriving DecidableEq

/-- A reply: the status line and the body. -/
structure Reply where
  status : Line
  body : List Line
deriving DecidableEq

/-- The lines of a reply. -/
def Reply.lines (r : Reply) : List Line := r.status :: r.body

/-- The command reads a body behind the status: `getSubscriptions` and `register_get` do for
`API_STATUS_OK`. -/
def Command.hasBody (c : Command) (code : ℤ) : Bool := decide (c ≠ .simple) && code == 200

/-- The command has read its body: `getSubscriptions` reads up to an empty line. -/
def Command.complete (plain : List Line → Bool) : Command → List Line → Bool
  | .simple, _ => true
  | .subscriptions, ls => ls.getLast?.any fun l => l.text.isEmpty
  | .get, ls => plain ls

/-- The server may answer the command so. -/
def Reply.Answers (plain : List Line → Bool) (c : Command) (r : Reply) : Prop :=
  r.status.kind = .status ∧ r.status.isNotification = false ∧ (∀ l ∈ r.body, l.kind = .body) ∧
    if c.hasBody r.status.code then
      c.complete plain r.body = true ∧
        ∀ k < r.body.length, c.complete plain (r.body.take k) = false
    else r.body = []

instance (plain : List Line → Bool) (c : Command) (r : Reply) : Decidable (r.Answers plain c) :=
  inferInstanceAs (Decidable (_ ∧ _ ∧ _ ∧ if c.hasBody r.status.code then _ ∧ _ else _))

/-- Where a thread is: not in a call; in front of the queues; in `_queue_cond.wait()`, which it
leaves when it is woken up; in front of `getline`; behind it, with a line; and in the loop over a
body, with the status line and the lines that were read. -/
inductive Phase where
  | idle
  | looking
  | waiting (woken : Bool)
  | reading
  | got (l : Line)
  | body (status : Line) (lines : List Line)
deriving DecidableEq

/-- The thread can look at its queue. -/
def Phase.looks : Phase → Bool
  | .looking | .waiting true => true
  | _ => false

/-- The thread waits, and nobody has woken it up. -/
def Phase.sleeps : Phase → Bool
  | .waiting false => true
  | _ => false

/-- The thread reads the stream, with `_get_busy` set. -/
def Phase.reads : Phase → Bool
  | .reading | .got _ => true
  | _ => false

/-- `_queue_cond.signal(true)`. -/
def Phase.wake : Phase → Phase
  | .waiting _ => .waiting true
  | p => p

end APIClient

open APIClient in
/-- `class APIClient`: the stream and its flag for the end, `_get_busy`, the queues, the thread that
issues commands with its current command, and the one that waits; the server with the commands
that it has yet to answer, and whether it has closed the connection. What the server sent, what the
commands and the calls of `wait` obtained, and whether a read threw are written down. -/
structure APIClient where
  stream : List Line
  eof : Bool
  getBusy : Bool
  statusQueue : List Line
  notifyQueue : List Line
  commander : Phase
  current : Command
  waiter : Phase
  requests : List Command
  closed : Bool
  replies : List Reply
  notifications : List Line
  results : List (Option Reply)
  waited : List Line
  threw : Bool

namespace APIClient

/-- The steps of the server and of the threads. -/
inductive Label where
  | answer (r : Reply)
  | notification (l : Line)
  | close
  | issue (c : Command)
  | look
  | read
  | keep
  | readBody
  | wait
  | lookWait
  | readWait
  | keepWait

/-- Both threads are woken up. -/
def signal (s : APIClient) : APIClient :=
  { s with commander := s.commander.wake, waiter := s.waiter.wake }

/-- `__get_return` returns: the command goes on with the body, or is over. -/
def returned (s : APIClient) (l : Line) : APIClient :=
  if s.current.hasBody l.code then { s with commander := .body l [] }
  else { s with commander := .idle, results := s.results ++ [some ⟨l, []⟩] }

/-- `getline` in `__get_message`: the line, and the stream behind it. -/
def getline (s : APIClient) : Option (Line × APIClient) :=
  match s.stream with
  | l :: ls => some (l, { s with stream := ls })
  | [] => if s.closed then some (.empty, { s with eof := true }) else none

/-- The steps, and nothing if the thread is elsewhere or has to wait. -/
def step (plain : List Line → Bool) (s : APIClient) : Label → Option APIClient
  | .answer r =>
      match s.requests with
      | c :: cs =>
          if s.closed = false ∧ r.Answers plain c then some { s with
            requests := cs
            stream := s.stream ++ r.lines
            replies := s.replies ++ [r] }
          else none
      | [] => none
  | .notification l =>
      if s.closed = false ∧ l.kind = .notification ∧ l.isNotification = true then some { s with
        stream := s.stream ++ [l]
        notifications := s.notifications ++ [l] }
      else none
  | .close => some { s with closed := true }
  | .issue c =>
      if s.commander = .idle then some { s with
        commander := .looking
        current := c
        requests := s.requests ++ [c] }
      else none
  | .look =>
      if s.commander.looks then
        match s.statusQueue with
        | l :: ls => some ({ s with statusQueue := ls }.returned l)
        | [] =>
            if s.getBusy then some { s with commander := .waiting false }
            else some { s with getBusy := true, commander := .reading }
      else none
  | .read =>
      if s.commander = .reading then
        if s.eof then some { s with
          commander := .idle
          results := s.results ++ [none]
          threw := true }
        else s.getline.map fun (l, s) => { s with commander := .got l }
      else none
  | .keep =>
      match s.commander with
      | .got l =>
          if l.isNotification then some { s.signal with
            notifyQueue := s.notifyQueue ++ [l]
            commander := .reading }
          else some ({ s.signal with getBusy := false }.returned l)
      | _ => none
  | .readBody =>
      match s.commander with
      | .body l ls =>
          if s.current.complete plain ls || s.eof then some { s with
            commander := .idle
            results := s.results ++ [some ⟨l, ls⟩] }
          else s.getline.map fun (l', s) => { s with commander := .body l (ls ++ [l']) }
      | _ => none
  | .wait => if s.waiter = .idle then some { s with waiter := .looking } else none
  | .lookWait =>
      if s.waiter.looks then
        match s.notifyQueue with
        | l :: ls => some { s with
            notifyQueue := ls
            waiter := .idle
            waited := s.waited ++ [l] }
        | [] =>
            if s.getBusy then some { s with waiter := .waiting false }
            else some { s with getBusy := true, waiter := .reading }
      else none
  | .readWait =>
      if s.waiter = .reading then
        if s.eof then some { s with waiter := .idle, threw := true }
        else s.getline.map fun (l, s) => { s with waiter := .got l }
      else none
  | .keepWait =>
      match s.waiter with
      | .got l =>
          if l.isNotification then some { s.signal with
            getBusy := false
            waiter := .idle
            waited := s.waited ++ [l] }
          else some { s.signal with
            statusQueue := s.statusQueue ++ [l]
            waiter := .reading }
      | _ => none

/-- What the step does. -/
inductive Moves (plain : List Line → Bool) (s : APIClient) : Label → APIClient → Prop where
  | answer {r c cs} (hrequests : s.requests = c :: cs) (hopen : s.closed = false)
      (hr : r.Answers plain c) : Moves plain s (.answer r) { s with
        requests := cs
        stream := s.stream ++ r.lines
        replies := s.replies ++ [r] }
  | notification {l} (hopen : s.closed = false) (hkind : l.kind = .notification)
      (hl : l.isNotification = true) : Moves plain s (.notification l) { s with
        stream := s.stream ++ [l]
        notifications := s.notifications ++ [l] }
  | close : Moves plain s .close { s with closed := true }
  | issue {c} (hidle : s.commander = .idle) : Moves plain s (.issue c) { s with
      commander := .looking
      current := c
      requests := s.requests ++ [c] }
  | take {l ls} (hlooks : s.commander.looks = true) (hqueue : s.statusQueue = l :: ls) :
      Moves plain s .look ({ s with statusQueue := ls }.returned l)
  | sleep (hlooks : s.commander.looks = true) (hqueue : s.statusQueue = [])
      (hbusy : s.getBusy = true) : Moves plain s .look { s with commander := .waiting false }
  | lead (hlooks : s.commander.looks = true) (hqueue : s.statusQueue = [])
      (hbusy : s.getBusy = false) :
      Moves plain s .look { s with getBusy := true, commander := .reading }
  | throw (hreading : s.commander = .reading) (heof : s.eof = true) : Moves plain s .read { s with
      commander := .idle
      results := s.results ++ [none]
      threw := true }
  | read {l ls} (hreading : s.commander = .reading) (heof : s.eof = false)
      (hstream : s.stream = l :: ls) :
      Moves plain s .read { s with stream := ls, commander := .got l }
  | readEnd (hreading : s.commander = .reading) (hstream : s.stream = [])
      (hclosed : s.closed = true) :
      Moves plain s .read { s with eof := true, commander := .got .empty }
  | keepNotification {l} (hgot : s.commander = .got l) (hl : l.isNotification = true) :
      Moves plain s .keep { s.signal with
        notifyQueue := s.notifyQueue ++ [l]
        commander := .reading }
  | keep {l} (hgot : s.commander = .got l) (hl : l.isNotification = false) :
      Moves plain s .keep ({ s.signal with getBusy := false }.returned l)
  | finish {l ls} (hbody : s.commander = .body l ls)
      (hover : s.current.complete plain ls = true ∨ s.eof = true) :
      Moves plain s .readBody { s with
        commander := .idle
        results := s.results ++ [some ⟨l, ls⟩] }
  | readBody {l ls l' ls'} (hbody : s.commander = .body l ls)
      (hmore : s.current.complete plain ls = false) (heof : s.eof = false)
      (hstream : s.stream = l' :: ls') :
      Moves plain s .readBody { s with stream := ls', commander := .body l (ls ++ [l']) }
  | readBodyEnd {l ls} (hbody : s.commander = .body l ls)
      (hmore : s.current.complete plain ls = false) (hstream : s.stream = [])
      (hclosed : s.closed = true) :
      Moves plain s .readBody { s with eof := true, commander := .body l (ls ++ [.empty]) }
  | wait (hidle : s.waiter = .idle) : Moves plain s .wait { s with waiter := .looking }
  | takeWait {l ls} (hlooks : s.waiter.looks = true) (hqueue : s.notifyQueue = l :: ls) :
      Moves plain s .lookWait { s with
        notifyQueue := ls
        waiter := .idle
        waited := s.waited ++ [l] }
  | sleepWait (hlooks : s.waiter.looks = true) (hqueue : s.notifyQueue = [])
      (hbusy : s.getBusy = true) : Moves plain s .lookWait { s with waiter := .waiting false }
  | leadWait (hlooks : s.waiter.looks = true) (hqueue : s.notifyQueue = [])
      (hbusy : s.getBusy = false) :
      Moves plain s .lookWait { s with getBusy := true, waiter := .reading }
  | throwWait (hreading : s.waiter = .reading) (heof : s.eof = true) :
      Moves plain s .readWait { s with waiter := .idle, threw := true }
  | readWait {l ls} (hreading : s.waiter = .reading) (heof : s.eof = false)
      (hstream : s.stream = l :: ls) :
      Moves plain s .readWait { s with stream := ls, waiter := .got l }
  | readWaitEnd (hreading : s.waiter = .reading) (hstream : s.stream = [])
      (hclosed : s.closed = true) :
      Moves plain s .readWait { s with eof := true, waiter := .got .empty }
  | keepWait {l} (hgot : s.waiter = .got l) (hl : l.isNotification = true) :
      Moves plain s .keepWait { s.signal with
        getBusy := false
        waiter := .idle
        waited := s.waited ++ [l] }
  | keepStatus {l} (hgot : s.waiter = .got l) (hl : l.isNotification = false) :
      Moves plain s .keepWait { s.signal with
        statusQueue := s.statusQueue ++ [l]
        waiter := .reading }

variable {plain : List Line → Bool} {s s' : APIClient} {l : Label}

/-- `getline` gives the next line, or an empty one at the end of the stream. -/
theorem getline_cases {x : Line × APIClient} (h : s.getline = some x) :
    (∃ l ls, s.stream = l :: ls ∧ x = (l, { s with stream := ls })) ∨
      s.stream = [] ∧ s.closed = true ∧ x = (.empty, { s with eof := true }) := by
  rw [getline] at h
  rcases hstream : s.stream with _ | ⟨l, ls⟩
  · simp only [hstream] at h
    split_ifs at h with hclosed
    exact .inr ⟨rfl, hclosed, (Option.some.inj h).symm⟩
  · simp only [hstream] at h
    exact .inl ⟨l, ls, rfl, (Option.some.inj h).symm⟩

/-- The steps of the thread that issues commands. -/
theorem moves_of_step_commander (h : s.step plain l = some s')
    (hl : l = .look ∨ l = .read ∨ l = .keep ∨ l = .readBody) : s.Moves plain l s' := by
  rcases hl with rfl | rfl | rfl | rfl
  · by_cases hlooks : s.commander.looks = true
    · rw [step, if_pos hlooks] at h
      split at h
      next l ls hqueue => exact Option.some.inj h ▸ .take hlooks hqueue
      next hqueue =>
        split_ifs at h with hbusy
        · exact Option.some.inj h ▸ .sleep hlooks hqueue hbusy
        · exact Option.some.inj h ▸ .lead hlooks hqueue (Bool.eq_false_iff.2 hbusy)
    · rw [step, if_neg hlooks] at h
      cases h
  · rw [step] at h
    split_ifs at h with hreading heof
    · exact Option.some.inj h ▸ .throw hreading heof
    · obtain ⟨x, hx, rfl⟩ := Option.map_eq_some_iff.1 h
      rcases getline_cases hx with ⟨l, ls, hstream, rfl⟩ | ⟨hstream, hclosed, rfl⟩
      · exact .read hreading (Bool.eq_false_iff.2 heof) hstream
      · exact .readEnd hreading hstream hclosed
  · rw [step] at h
    rcases hgot : s.commander with _ | _ | _ | _ | l | _
    case got =>
      simp only [hgot] at h
      split_ifs at h with hl
      · exact Option.some.inj h ▸ .keepNotification hgot hl
      · exact Option.some.inj h ▸ .keep hgot (Bool.eq_false_iff.2 hl)
    all_goals simp [hgot] at h
  · rw [step] at h
    rcases hbody : s.commander with _ | _ | _ | _ | _ | ⟨l, ls⟩
    case body =>
      simp only [hbody] at h
      split_ifs at h with hover
      · exact Option.some.inj h ▸ .finish hbody (Bool.or_eq_true_iff.1 hover)
      · obtain ⟨hmore, heof⟩ := Bool.or_eq_false_iff.1 (Bool.eq_false_iff.2 hover)
        obtain ⟨x, hx, rfl⟩ := Option.map_eq_some_iff.1 h
        rcases getline_cases hx with ⟨l', ls', hstream, rfl⟩ | ⟨hstream, hclosed, rfl⟩
        · exact .readBody hbody hmore heof hstream
        · exact .readBodyEnd hbody hmore hstream hclosed
    all_goals simp [hbody] at h

/-- The steps of the thread that calls `wait`. -/
theorem moves_of_step_waiter (h : s.step plain l = some s')
    (hl : l = .wait ∨ l = .lookWait ∨ l = .readWait ∨ l = .keepWait) : s.Moves plain l s' := by
  rcases hl with rfl | rfl | rfl | rfl
  · rw [step] at h
    split_ifs at h with hidle
    exact Option.some.inj h ▸ .wait hidle
  · by_cases hlooks : s.waiter.looks = true
    · rw [step, if_pos hlooks] at h
      split at h
      next l ls hqueue => exact Option.some.inj h ▸ .takeWait hlooks hqueue
      next hqueue =>
        split_ifs at h with hbusy
        · exact Option.some.inj h ▸ .sleepWait hlooks hqueue hbusy
        · exact Option.some.inj h ▸ .leadWait hlooks hqueue (Bool.eq_false_iff.2 hbusy)
    · rw [step, if_neg hlooks] at h
      cases h
  · rw [step] at h
    split_ifs at h with hreading heof
    · exact Option.some.inj h ▸ .throwWait hreading heof
    · obtain ⟨x, hx, rfl⟩ := Option.map_eq_some_iff.1 h
      rcases getline_cases hx with ⟨l, ls, hstream, rfl⟩ | ⟨hstream, hclosed, rfl⟩
      · exact .readWait hreading (Bool.eq_false_iff.2 heof) hstream
      · exact .readWaitEnd hreading hstream hclosed
  · rw [step] at h
    rcases hgot : s.waiter with _ | _ | _ | _ | l | _
    case got =>
      simp only [hgot] at h
      split_ifs at h with hl
      · exact Option.some.inj h ▸ .keepWait hgot hl
      · exact Option.some.inj h ▸ .keepStatus hgot (Bool.eq_false_iff.2 hl)
    all_goals simp [hgot] at h

/-- **What a step does.** -/
theorem moves_of_step (h : s.step plain l = some s') : s.Moves plain l s' := by
  cases l with
  | answer r =>
      rw [step] at h
      rcases hrequests : s.requests with _ | ⟨c, cs⟩
      · simp [hrequests] at h
      · simp only [hrequests] at h
        split_ifs at h with hanswers
        exact Option.some.inj h ▸ .answer hrequests hanswers.1 hanswers.2
  | notification l =>
      rw [step] at h
      split_ifs at h with hl
      exact Option.some.inj h ▸ .notification hl.1 hl.2.1 hl.2.2
  | close => exact Option.some.inj h ▸ .close
  | issue c =>
      rw [step] at h
      split_ifs at h with hidle
      exact Option.some.inj h ▸ .issue hidle
  | look => exact moves_of_step_commander h (.inl rfl)
  | read => exact moves_of_step_commander h (.inr (.inl rfl))
  | keep => exact moves_of_step_commander h (.inr (.inr (.inl rfl)))
  | readBody => exact moves_of_step_commander h (.inr (.inr (.inr rfl)))
  | wait => exact moves_of_step_waiter h (.inl rfl)
  | lookWait => exact moves_of_step_waiter h (.inr (.inl rfl))
  | readWait => exact moves_of_step_waiter h (.inr (.inr (.inl rfl)))
  | keepWait => exact moves_of_step_waiter h (.inr (.inr (.inr rfl)))

end APIClient

end IbrDtn
