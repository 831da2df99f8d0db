import Mathlib

/-!
# Input streams and the programs that read them

This file models the reading side of a buffered input stream with an end-of-file and a
failure bit, and the programs that read it.  A read that finds too few bytes sets both bits,
and every later read then delivers nothing: the memory that the program passed for the result
keeps whatever it held.  The bytes that memory held are the stream's `stale` bytes, so that a
program which goes on after a failed read is still a function of its stream.

A reading program is a `Parser`: it may throw, and the stream keeps its position when it does.
The relation `Reads p bs a` says that `p` consumes exactly the bytes `bs`, whatever follows
them, and returns `a`.  It composes along `bind`, which is what round trips of
concatenated encodings need.

A `Loader` reads a stream into an object.  When it throws, the object keeps what was assigned
before, which matters where the exception is caught and the object is used.

## Main definitions

* `InStream` : the unread bytes, the two state bits and the stale memory.
* `Parser` : programs that read an `InStream` and may throw.
* `Parser.Reads`, `Parser.Throws` : what a program does on a given prefix of a good stream.
* `Loader`, `Loader.Loads` : the same for programs that read into an object.

## Main results

* `Parser.Reads.bind`, `Parser.Throws.bind`, `Parser.Throws.tryCatch` : the composition rules.
* `Loader.Loads.bind`, `Loader.Loads.within` : the rules for loaders and for loaders of a part.
* `Parser.Yields.bind`, `Loader.Preserves.bind` : what holds of whatever is returned, and of the
  object in any case.
-/

/-- The reading side of a stream: the bytes not read yet, the two state bits, and the contents
of the memory that failing reads leave untouched. -/
structure InStream where
  rest : List UInt8
  eof : Bool
  fail : Bool
  stale : List UInt8
deriving DecidableEq, Repr

namespace InStream

/-- The stream at the start of `bs`. -/
def ofBytes (bs : List UInt8) : InStream := ⟨bs, false, false, []⟩

/-- Neither state bit is set. -/
def good (s : InStream) : Bool := !s.eof && !s.fail

/-- Both state bits set: what a read beyond the last byte leaves. -/
def exhaust (s : InStream) : InStream := { s with rest := [], eof := true, fail := true }

/-- The next byte of uninitialised memory. -/
def popStale (s : InStream) : UInt8 × InStream :=
  match s.stale with
  | [] => (0, s)
  | b :: st => (b, { s with stale := st })

/-- The next `n` bytes of uninitialised memory. -/
def popStales : Nat → InStream → List UInt8 × InStream
  | 0, s => ([], s)
  | n + 1, s =>
      let (b, s) := s.popStale
      let (bs, s) := popStales n s
      (b :: bs, s)

end InStream

/-- A program that reads an `InStream` and may throw an `ε`. The stream survives the throw. -/
abbrev Parser (ε : Type) := ExceptT ε (StateM InStream)

namespace Parser

variable {ε α β : Type}

/-- The outcome of a program on a stream and the stream it leaves. -/
def run (p : Parser ε α) (s : InStream) : Except ε α × InStream :=
  (ExceptT.run p).run s

/-- The program with the given outcomes. -/
def ofRun (f : InStream → Except ε α × InStream) : Parser ε α :=
  ExceptT.mk fun s => f s

@[simp] theorem run_ofRun (f : InStream → Except ε α × InStream) (s : InStream) :
    run (ofRun f) s = f s := rfl

@[simp] theorem run_pure (a : α) (s : InStream) :
    run (pure a : Parser ε α) s = (.ok a, s) := rfl

@[simp] theorem run_throw (e : ε) (s : InStream) :
    run (throw e : Parser ε α) s = (.error e, s) := rfl

theorem run_bind (p : Parser ε α) (f : α → Parser ε β) (s : InStream) :
    run (p >>= f) s =
      match run p s with
      | (.ok a, s') => run (f a) s'
      | (.error e, s') => (.error e, s') := by
  change (match run p s with
    | (r, s') => StateT.run (ExceptT.bindCont f r) s') = _
  rcases run p s with ⟨_ | _, _⟩ <;> rfl

theorem run_tryCatch (p : Parser ε α) (h : ε → Parser ε α) (s : InStream) :
    run (MonadExcept.tryCatch p h) s =
      match run p s with
      | (.ok a, s') => (.ok a, s')
      | (.error e, s') => run (h e) s' := by
  change (match run p s with
    | (r, s') => StateT.run (m := Id) (match r with
        | Except.ok a => pure (Except.ok a)
        | Except.error e => ExceptT.run (h e)) s') = _
  rcases run p s with ⟨_ | _, _⟩ <;> rfl

theorem run_bind_ok {p : Parser ε α} {f : α → Parser ε β} {s s' : InStream} {a : α}
    (h : run p s = (.ok a, s')) : run (p >>= f) s = run (f a) s' := by
  rw [run_bind, h]

theorem run_bind_error {p : Parser ε α} {f : α → Parser ε β} {s s' : InStream} {e : ε}
    (h : run p s = (.error e, s')) : run (p >>= f) s = (.error e, s') := by
  rw [run_bind, h]

/-! ### Unformatted reads -/

/-- The outcome of a failed one-byte read: the memory keeps its byte `old`, or the stale byte
it holds if it was never written. -/
def keep (old : Option UInt8) (s : InStream) : Except ε UInt8 × InStream :=
  match old with
  | some b => (.ok b, s)
  | none => (.ok s.popStale.1, s.popStale.2)

/-- Extract one byte into memory that holds `old`. -/
def getByte (old : Option UInt8) : Parser ε UInt8 :=
  ofRun fun s =>
    if s.good then
      match s.rest with
      | b :: r => (.ok b, { s with rest := r })
      | [] => keep old s.exhaust
    else
      keep old { s with fail := true }

/-- Read `n` bytes into uninitialised memory. -/
def readBytes (n : Nat) : Parser ε (List UInt8) :=
  ofRun fun s =>
    if s.good then
      if n ≤ s.rest.length then
        (.ok (s.rest.take n), { s with rest := s.rest.drop n })
      else
        let (bs, t) := s.exhaust.popStales (n - s.rest.length)
        (.ok (s.rest ++ bs), t)
    else
      let (bs, s) := { s with fail := true : InStream }.popStales n
      (.ok bs, s)

/-- Look at the next byte without extracting it. -/
def peekByte : Parser ε (Option UInt8) :=
  ofRun fun s =>
    if s.good then
      match s.rest with
      | b :: _ => (.ok (some b), s)
      | [] => (.ok none, { s with eof := true })
    else
      (.ok none, { s with fail := true })

/-- The end-of-file bit. -/
def atEof : Parser ε Bool :=
  ofRun fun s => (.ok s.eof, s)

/-- The number of bytes that were not read yet. -/
def remaining : Parser ε Nat :=
  ofRun fun s => (.ok s.rest.length, s)

/-! ### Formatted extraction of a character -/

/-- The white space that formatted extraction skips. -/
def isSpace (b : UInt8) : Bool :=
  b == 0x20 || (0x09 ≤ b && b ≤ 0x0d)

/-- Skip white space, then extract one byte into memory that holds `old`. -/
def extractByte (old : Option UInt8) : Parser ε UInt8 :=
  ofRun fun s =>
    if s.good then
      match s.rest.dropWhile isSpace with
      | b :: r => (.ok b, { s with rest := r })
      | [] => keep old s.exhaust
    else
      keep old { s with fail := true }

/-! ### Programs on a prefix of a good stream -/

/-- On every good stream that starts with `bs`, the program `p` returns `a` and has consumed
exactly `bs`. -/
def Reads (p : Parser ε α) (bs : List UInt8) (a : α) : Prop :=
  ∀ r st, run p ⟨bs ++ r, false, false, st⟩ = (.ok a, ⟨r, false, false, st⟩)

/-- On every good stream that starts with `bs`, the program `p` throws `e` and has consumed
exactly `bs`. -/
def Throws (p : Parser ε α) (bs : List UInt8) (e : ε) : Prop :=
  ∀ r st, run p ⟨bs ++ r, false, false, st⟩ = (.error e, ⟨r, false, false, st⟩)

theorem Reads.ofBytes {p : Parser ε α} {bs : List UInt8} {a : α} (h : Reads p bs a)
    (r : List UInt8) : run p (.ofBytes (bs ++ r)) = (.ok a, .ofBytes r) :=
  h r []

/-- A parser reads one value from given bytes. -/
theorem Reads.unique {p : Parser ε α} {bs : List UInt8} {a b : α} (ha : Reads p bs a)
    (hb : Reads p bs b) : a = b :=
  Except.ok.inj (congrArg Prod.fst ((ha [] []).symm.trans (hb [] [])))

theorem reads_pure (a : α) : Reads (pure a : Parser ε α) [] a :=
  fun _ _ => rfl

theorem throws_throw (e : ε) : Throws (throw e : Parser ε α) [] e :=
  fun _ _ => rfl

theorem Reads.bind {p : Parser ε α} {f : α → Parser ε β} {bs cs : List UInt8} {a : α} {b : β}
    (hp : Reads p bs a) (hf : Reads (f a) cs b) : Reads (p >>= f) (bs ++ cs) b := by
  intro r st
  rw [List.append_assoc, run_bind_ok (hp _ _)]
  exact hf r st

/-- `Reads.bind` for a first program that consumes one byte. -/
theorem Reads.bind_cons {p : Parser ε α} {f : α → Parser ε β} {c : UInt8} {cs : List UInt8} {a : α}
    {b : β} (hp : Reads p [c] a) (hf : Reads (f a) cs b) : Reads (p >>= f) (c :: cs) b :=
  hp.bind hf

/-- `Reads.bind` for a second program that consumes nothing. -/
theorem Reads.then_nil {p : Parser ε α} {f : α → Parser ε β} {bs : List UInt8} {a : α} {b : β}
    (hp : Reads p bs a) (hf : Reads (f a) [] b) : Reads (p >>= f) bs b := by
  intro r st
  rw [run_bind_ok (hp r st)]
  exact hf r st

theorem Reads.bind_pure {p : Parser ε α} {f : α → β} {bs : List UInt8} {a : α}
    (hp : Reads p bs a) : Reads (p >>= fun x => pure (f x)) bs (f a) :=
  hp.then_nil (reads_pure _)

theorem Reads.bind_throws {p : Parser ε α} {f : α → Parser ε β} {bs cs : List UInt8} {a : α}
    {e : ε} (hp : Reads p bs a) (hf : Throws (f a) cs e) : Throws (p >>= f) (bs ++ cs) e := by
  intro r st
  rw [List.append_assoc, run_bind_ok (hp _ _)]
  exact hf r st

/-- `Reads.bind_throws` for a second program that consumes nothing. -/
theorem Reads.then_throws {p : Parser ε α} {f : α → Parser ε β} {bs : List UInt8} {a : α}
    {e : ε} (hp : Reads p bs a) (hf : Throws (f a) [] e) : Throws (p >>= f) bs e := by
  intro r st
  rw [run_bind_ok (hp r st)]
  exact hf r st

theorem Throws.bind {p : Parser ε α} {bs : List UInt8} {e : ε} (hp : Throws p bs e)
    (f : α → Parser ε β) : Throws (p >>= f) bs e :=
  fun r st => run_bind_error (hp r st)

/-- What is read first does not matter for the rest. -/
theorem Reads.bind_iff {p : Parser ε α} {f : α → Parser ε β} {bs cs : List UInt8} {a : α} {b : β}
    (hp : p.Reads bs a) : (p >>= f).Reads (bs ++ cs) b ↔ (f a).Reads cs b := by
  refine ⟨fun h r st => ?_, fun h => hp.bind h⟩
  have hrun := h r st
  rw [List.append_assoc, run_bind_ok (hp (cs ++ r) st)] at hrun
  exact hrun

theorem Reads.bind_cons_iff {p : Parser ε α} {f : α → Parser ε β} {c : UInt8} {cs : List UInt8}
    {a : α} {b : β} (hp : p.Reads [c] a) : (p >>= f).Reads (c :: cs) b ↔ (f a).Reads cs b :=
  hp.bind_iff

theorem Throws.not_reads {p : Parser ε α} {f : α → Parser ε β} {bs cs : List UInt8} {e : ε} {b : β}
    (hp : p.Throws bs e) : ¬ (p >>= f).Reads (bs ++ cs) b := by
  intro h
  have hrun := h [] []
  rw [List.append_assoc, run_bind_error (hp (cs ++ []) [])] at hrun
  cases hrun

theorem reads_pure_iff {a a' : α} : (pure a : Parser ε α).Reads [] a' ↔ a = a' :=
  ⟨fun h => Except.ok.inj (congrArg Prod.fst (h [] [])), fun h => h ▸ reads_pure a⟩

/-- Nothing is left over. -/
theorem eq_nil_of_reads_pure {a a' : α} {bs : List UInt8} (h : (pure a : Parser ε α).Reads bs a') :
    bs = [] := by
  have hrest := congrArg (fun s => s.2.rest) (h [] [])
  exact (List.append_eq_nil_iff.1 hrest).1

/-- What is read last is part of what is returned. -/
theorem reads_bind_pure_iff {p : Parser ε α} {f : α → β} {g : β → α} (hg : ∀ a, g (f a) = a)
    {bs : List UInt8} {b : β} : (p >>= fun a => pure (f a)).Reads bs b ↔
      p.Reads bs (g b) ∧ f (g b) = b := by
  constructor
  · intro h
    have hall (r st : List UInt8) : p.run ⟨bs ++ r, false, false, st⟩ =
        (.ok (g b), ⟨r, false, false, st⟩) ∧ f (g b) = b := by
      have hrun := h r st
      rw [run_bind] at hrun
      rcases hp : p.run ⟨bs ++ r, false, false, st⟩ with ⟨e | a, s⟩
      · rw [hp] at hrun
        cases hrun
      · rw [hp] at hrun
        obtain ⟨ha, rfl⟩ := Prod.mk.inj hrun
        obtain rfl : f a = b := Except.ok.inj ha
        rw [hg]
        exact ⟨rfl, rfl⟩
    exact ⟨fun r st => (hall r st).1, (hall [] []).2⟩
  · rintro ⟨hp, hb⟩
    have h := hp.bind (f := fun a => pure (f a)) (reads_pure (f (g b)))
    rwa [List.append_nil, hb] at h

theorem Reads.tryCatch {p : Parser ε α} {bs : List UInt8} {a : α} (hp : Reads p bs a)
    (h : ε → Parser ε α) : Reads (MonadExcept.tryCatch p h) bs a := by
  intro r st
  rw [run_tryCatch, hp r st]

theorem Throws.tryCatch {p : Parser ε α} {h : ε → Parser ε α} {bs cs : List UInt8} {e : ε}
    {a : α} (hp : Throws p bs e) (hh : Reads (h e) cs a) :
    Reads (MonadExcept.tryCatch p h) (bs ++ cs) a := by
  intro r st
  rw [run_tryCatch, List.append_assoc, hp (cs ++ r) st]
  exact hh r st

theorem reads_getByte (old : Option UInt8) (b : UInt8) :
    Reads (getByte old : Parser ε UInt8) [b] b :=
  fun _ _ => rfl

theorem reads_extractByte (old : Option UInt8) {b : UInt8} (h : isSpace b = false) :
    Reads (extractByte old : Parser ε UInt8) [b] b := by
  intro r st
  simp [extractByte, InStream.good, h]

theorem reads_readBytes (bs : List UInt8) :
    Reads (readBytes bs.length : Parser ε (List UInt8)) bs bs := by
  intro r st
  simp [readBytes, InStream.good]

theorem reads_atEof : Reads (atEof : Parser ε Bool) [] false :=
  fun _ _ => rfl

/-! ### What a program returns -/

/-- Whatever the program returns, on any stream, satisfies `Q`. -/
def Ensures (p : Parser ε α) (Q : α → Prop) : Prop :=
  ∀ s a, (run p s).1 = .ok a → Q a

/-- Whatever the program returns, on a good stream that starts with `bs`, satisfies `Q`. -/
def Yields (p : Parser ε α) (bs : List UInt8) (Q : α → Prop) : Prop :=
  ∀ r st a, (run p ⟨bs ++ r, false, false, st⟩).1 = .ok a → Q a

theorem ensures_pure {a : α} {Q : α → Prop} (h : Q a) : Ensures (pure a : Parser ε α) Q := by
  intro s b hb
  rw [run_pure] at hb
  exact Except.ok.inj hb ▸ h

theorem Ensures.bind {p : Parser ε α} {f : α → Parser ε β} {P : α → Prop} {Q : β → Prop}
    (hp : Ensures p P) (hf : ∀ a, P a → Ensures (f a) Q) : Ensures (p >>= f) Q := by
  intro s b hb
  rw [run_bind] at hb
  rcases hrun : run p s with ⟨e | a, s'⟩
  · simp [hrun] at hb
  · rw [hrun] at hb
    exact hf a (hp s a (by rw [hrun])) s' b hb

theorem ensures_true (p : Parser ε α) : Ensures p fun _ => True := fun _ _ _ => trivial

/-- What is returned at the end does not depend on what was read before. -/
theorem Ensures.of_bind {p : Parser ε α} {f : α → Parser ε β} {Q : β → Prop}
    (hf : ∀ a, Ensures (f a) Q) : Ensures (p >>= f) Q :=
  (ensures_true p).bind fun a _ => hf a

theorem Reads.yields_bind {p : Parser ε α} {f : α → Parser ε β} {bs cs : List UInt8} {a : α}
    {Q : β → Prop} (hp : Reads p bs a) (hf : Yields (f a) cs Q) : Yields (p >>= f) (bs ++ cs) Q := by
  intro r st b hb
  rw [List.append_assoc, run_bind_ok (hp _ _)] at hb
  exact hf r st b hb

theorem Reads.yields_bind_cons {p : Parser ε α} {f : α → Parser ε β} {c : UInt8}
    {cs : List UInt8} {a : α} {Q : β → Prop} (hp : Reads p [c] a) (hf : Yields (f a) cs Q) :
    Yields (p >>= f) (c :: cs) Q :=
  hp.yields_bind hf

theorem Ensures.yields {p : Parser ε α} {Q : α → Prop} (h : Ensures p Q) (bs : List UInt8) :
    Yields p bs Q :=
  fun _ _ => h _

theorem Yields.bind {p : Parser ε α} {f : α → Parser ε β} {bs : List UInt8} {P : α → Prop}
    {Q : β → Prop} (hp : Yields p bs P) (hf : ∀ a, P a → Ensures (f a) Q) :
    Yields (p >>= f) bs Q := by
  intro r st b hb
  rw [run_bind] at hb
  rcases hrun : run p ⟨bs ++ r, false, false, st⟩ with ⟨e | a, s'⟩
  · simp [hrun] at hb
  · rw [hrun] at hb
    exact hf a (hp r st a (by rw [hrun])) s' b hb

/-- Where a byte is no white space, no white space is extracted. -/
theorem yields_extractByte (old : Option UInt8) {bs : List UInt8}
    (h : ∃ c ∈ bs, isSpace c = false) :
    Yields (extractByte old : Parser ε UInt8) bs fun a => isSpace a = false := by
  intro r st a ha
  obtain ⟨c, hc, hspace⟩ := h
  have hgood : InStream.good ⟨bs ++ r, false, false, st⟩ = true := rfl
  rw [extractByte, run_ofRun, if_pos hgood] at ha
  dsimp only at ha
  cases hdrop : (bs ++ r).dropWhile isSpace with
  | nil =>
      have hall := List.dropWhile_eq_nil_iff.1 hdrop c (List.mem_append_left r hc)
      exact absurd (hspace.symm.trans hall) Bool.false_ne_true
  | cons b rest =>
      rw [hdrop] at ha
      obtain rfl : b = a := Except.ok.inj ha
      have hhead := List.head_dropWhile_not isSpace (hdrop ▸ List.cons_ne_nil b rest)
      simpa [hdrop] using hhead

end Parser

/-! ### Reading into an object -/

/-- A program that reads an `InStream` into an object of type `σ` and may throw an `ε`. The object
and the stream survive the throw. -/
abbrev Loader (ε σ : Type) := ExceptT ε (StateM (σ × InStream))

namespace Loader

variable {ε σ τ α β : Type}

/-- The outcome of a loader, the object and the stream it leaves. -/
def run (p : Loader ε σ α) (s : σ × InStream) : Except ε α × (σ × InStream) :=
  (ExceptT.run p).run s

/-- The loader with the given outcomes. -/
def ofRun (f : σ × InStream → Except ε α × (σ × InStream)) : Loader ε σ α :=
  ExceptT.mk fun s => f s

/-- A program that does not touch the object. -/
def ofParser (p : Parser ε α) : Loader ε σ α :=
  ofRun fun s => ((p.run s.2).1, (s.1, (p.run s.2).2))

/-- The object. -/
def object : Loader ε σ σ :=
  ofRun fun s => (.ok s.1, s)

/-- An assignment to the object. -/
def update (f : σ → σ) : Loader ε σ Unit :=
  ofRun fun s => (.ok (), (f s.1, s.2))

/-- A loader of a part that has the value `part` before, and is put back into the object when the
loader returns or throws. -/
def within (part : τ) (put : τ → σ → σ) (p : Loader ε τ α) : Loader ε σ α :=
  ofRun fun s =>
    let (r, (t, is)) := p.run (part, s.2)
    (r, (put t s.1, is))

@[simp] theorem run_ofRun (f : σ × InStream → Except ε α × (σ × InStream)) (s : σ × InStream) :
    run (ofRun f) s = f s := rfl

@[simp] theorem run_pure (a : α) (s : σ × InStream) :
    run (pure a : Loader ε σ α) s = (.ok a, s) := rfl

@[simp] theorem run_throw (e : ε) (s : σ × InStream) :
    run (throw e : Loader ε σ α) s = (.error e, s) := rfl

@[simp] theorem run_object (s : σ × InStream) :
    run (object : Loader ε σ σ) s = (.ok s.1, s) := rfl

@[simp] theorem run_update (f : σ → σ) (s : σ × InStream) :
    run (update f : Loader ε σ Unit) s = (.ok (), (f s.1, s.2)) := rfl

theorem run_bind (p : Loader ε σ α) (f : α → Loader ε σ β) (s : σ × InStream) :
    run (p >>= f) s =
      match run p s with
      | (.ok a, s') => run (f a) s'
      | (.error e, s') => (.error e, s') := by
  change (match run p s with
    | (r, s') => StateT.run (ExceptT.bindCont f r) s') = _
  rcases run p s with ⟨_ | _, _⟩ <;> rfl

theorem run_tryCatch (p : Loader ε σ α) (h : ε → Loader ε σ α) (s : σ × InStream) :
    run (MonadExcept.tryCatch p h) s =
      match run p s with
      | (.ok a, s') => (.ok a, s')
      | (.error e, s') => run (h e) s' := by
  change (match run p s with
    | (r, s') => StateT.run (m := Id) (match r with
        | Except.ok a => pure (Except.ok a)
        | Except.error e => ExceptT.run (h e)) s') = _
  rcases run p s with ⟨_ | _, _⟩ <;> rfl

theorem run_bind_ok {p : Loader ε σ α} {f : α → Loader ε σ β} {s s' : σ × InStream} {a : α}
    (h : run p s = (.ok a, s')) : run (p >>= f) s = run (f a) s' := by
  rw [run_bind, h]

/-- On every good stream that starts with `bs`, the loader turns the object `o` into `o'`, returns
`a` and has consumed exactly `bs`. -/
def Loads (p : Loader ε σ α) (bs : List UInt8) (o o' : σ) (a : α) : Prop :=
  ∀ r st, run p (o, ⟨bs ++ r, false, false, st⟩) = (.ok a, (o', ⟨r, false, false, st⟩))

theorem loads_pure (a : α) (o : σ) : Loads (pure a : Loader ε σ α) [] o o a :=
  fun _ _ => rfl

theorem loads_object (o : σ) : Loads (object : Loader ε σ σ) [] o o o :=
  fun _ _ => rfl

theorem loads_update (f : σ → σ) (o : σ) : Loads (update f : Loader ε σ Unit) [] o (f o) () :=
  fun _ _ => rfl

theorem loads_ofParser {p : Parser ε α} {bs : List UInt8} {a : α} (hp : p.Reads bs a) (o : σ) :
    Loads (ofParser p) bs o o a := by
  intro r st
  rw [ofParser, run_ofRun]
  simp only [hp r st]

theorem Loads.bind {p : Loader ε σ α} {f : α → Loader ε σ β} {bs cs : List UInt8} {o o' o'' : σ}
    {a : α} {b : β} (hp : Loads p bs o o' a) (hf : Loads (f a) cs o' o'' b) :
    Loads (p >>= f) (bs ++ cs) o o'' b := by
  intro r st
  rw [List.append_assoc, run_bind_ok (hp _ _)]
  exact hf r st

/-- `Loads.bind` for a first loader that consumes nothing. -/
theorem Loads.bind_nil {p : Loader ε σ α} {f : α → Loader ε σ β} {bs : List UInt8}
    {o o' o'' : σ} {a : α} {b : β} (hp : Loads p [] o o' a) (hf : Loads (f a) bs o' o'' b) :
    Loads (p >>= f) bs o o'' b :=
  hp.bind hf

/-- `Loads.bind` for a first loader that consumes one byte. -/
theorem Loads.bind_cons {p : Loader ε σ α} {f : α → Loader ε σ β} {c : UInt8} {cs : List UInt8}
    {o o' o'' : σ} {a : α} {b : β} (hp : Loads p [c] o o' a) (hf : Loads (f a) cs o' o'' b) :
    Loads (p >>= f) (c :: cs) o o'' b :=
  hp.bind hf

/-- `Loads.bind` for a second loader that consumes nothing. -/
theorem Loads.then_nil {p : Loader ε σ α} {f : α → Loader ε σ β} {bs : List UInt8}
    {o o' o'' : σ} {a : α} {b : β} (hp : Loads p bs o o' a) (hf : Loads (f a) [] o' o'' b) :
    Loads (p >>= f) bs o o'' b := by
  intro r st
  rw [run_bind_ok (hp r st)]
  exact hf r st

theorem Loads.within {p : Loader ε τ α} {bs : List UInt8} {t t' : τ} {a : α}
    (hp : Loads p bs t t' a) (put : τ → σ → σ) (o : σ) :
    Loads (Loader.within t put p) bs o (put t' o) a := by
  intro r st
  rw [Loader.within, run_ofRun]
  simp only [hp r st]

theorem Loads.tryCatch {p : Loader ε σ α} {bs : List UInt8} {o o' : σ} {a : α}
    (hp : Loads p bs o o' a) (h : ε → Loader ε σ α) :
    Loads (MonadExcept.tryCatch p h) bs o o' a := by
  intro r st
  rw [run_tryCatch, hp r st]

/-- Looking ahead consumes nothing: what follows the peek still reads the byte it saw. -/
theorem Loads.peek {f : Option UInt8 → Loader ε σ α} {b : UInt8} {bs : List UInt8} {o o' : σ}
    {a : α} (hf : Loads (f (some b)) (b :: bs) o o' a) :
    Loads (ofParser Parser.peekByte >>= f) (b :: bs) o o' a := by
  intro r st
  have hpeek : run (ofParser Parser.peekByte : Loader ε σ (Option UInt8))
      (o, ⟨b :: (bs ++ r), false, false, st⟩) =
      (.ok (some b), (o, ⟨b :: (bs ++ r), false, false, st⟩)) := rfl
  rw [List.cons_append, run_bind_ok hpeek]
  exact hf r st

/-! ### Parts of the object that a loader leaves alone -/

/-- The loader leaves the part `f` of the object alone, whether it returns or throws. -/
def Keeps (p : Loader ε σ α) (f : σ → τ) : Prop :=
  ∀ s, f (run p s).2.1 = f s.1

theorem keeps_pure (a : α) (f : σ → τ) : Keeps (pure a : Loader ε σ α) f :=
  fun _ => rfl

theorem keeps_object (f : σ → τ) : Keeps (object : Loader ε σ σ) f :=
  fun _ => rfl

theorem keeps_update {g : σ → σ} {f : σ → τ} (h : ∀ o, f (g o) = f o) :
    Keeps (update g : Loader ε σ Unit) f :=
  fun s => h s.1

theorem keeps_within (put : β → σ → σ) {f : σ → τ} (h : ∀ t o, f (put t o) = f o) (part : β)
    (p : Loader ε β α) : Keeps (within part put p) f :=
  fun _ => h _ _

theorem Keeps.bind {p : Loader ε σ α} {q : α → Loader ε σ β} {f : σ → τ} (hp : Keeps p f)
    (hq : ∀ a, Keeps (q a) f) : Keeps (p >>= q) f := by
  intro s
  rw [run_bind]
  have hkept := hp s
  rcases hrun : run p s with ⟨e | a, s'⟩
  · rw [hrun] at hkept
    exact hkept
  · rw [hrun] at hkept
    exact (hq a s').trans hkept

/-- On every good stream that starts with `bs`, the loader leaves an object that satisfies `Q`,
whether it returns or throws. -/
def Leaves (p : Loader ε σ α) (bs : List UInt8) (o : σ) (Q : σ → Prop) : Prop :=
  ∀ r st, Q (run p (o, ⟨bs ++ r, false, false, st⟩)).2.1

theorem Loads.leaves_bind {p : Loader ε σ α} {f : α → Loader ε σ β} {bs cs : List UInt8}
    {o o' : σ} {a : α} {Q : σ → Prop} (hp : Loads p bs o o' a) (hf : Leaves (f a) cs o' Q) :
    Leaves (p >>= f) (bs ++ cs) o Q := by
  intro r st
  rw [List.append_assoc, run_bind_ok (hp _ _)]
  exact hf r st

theorem Loads.leaves_bind_nil {p : Loader ε σ α} {f : α → Loader ε σ β} {bs : List UInt8}
    {o o' : σ} {a : α} {Q : σ → Prop} (hp : Loads p [] o o' a) (hf : Leaves (f a) bs o' Q) :
    Leaves (p >>= f) bs o Q :=
  hp.leaves_bind hf

theorem Loads.leaves_bind_cons {p : Loader ε σ α} {f : α → Loader ε σ β} {c : UInt8}
    {cs : List UInt8} {o o' : σ} {a : α} {Q : σ → Prop} (hp : Loads p [c] o o' a)
    (hf : Leaves (f a) cs o' Q) : Leaves (p >>= f) (c :: cs) o Q :=
  hp.leaves_bind hf

theorem leaves_ofExcept_bind {x : Except ε α} {f : α → Loader ε σ β} {bs : List UInt8} {o : σ}
    {Q : σ → Prop} (ho : Q o) (hf : ∀ a, Leaves (f a) bs o Q) :
    Leaves (MonadExcept.ofExcept x >>= f) bs o Q := by
  cases x with
  | error e => exact fun _ _ => ho
  | ok a => exact hf a

theorem Keeps.leaves_within {p : Loader ε τ α} {f : τ → β} {part : τ} {put : τ → σ → σ} {o : σ}
    {Q : σ → Prop} (hp : Keeps p f) (hput : ∀ t, f t = f part → Q (put t o)) (bs : List UInt8) :
    Leaves (within part put p) bs o Q :=
  fun _ _ => hput _ (hp _)

/-! ### Invariants of the object -/

/-- The loader keeps the property `I` of the object, whether it returns or throws. -/
def Preserves (p : Loader ε σ α) (I : σ → Prop) : Prop :=
  ∀ s, I s.1 → I (run p s).2.1

variable {I : σ → Prop}

theorem preserves_pure (a : α) : Preserves (pure a : Loader ε σ α) I := fun _ h => h

theorem preserves_throw (e : ε) : Preserves (throw e : Loader ε σ α) I := fun _ h => h

theorem preserves_ofParser (p : Parser ε α) : Preserves (ofParser p : Loader ε σ α) I :=
  fun _ h => h

theorem preserves_ofExcept (x : Except ε α) :
    Preserves (MonadExcept.ofExcept x : Loader ε σ α) I := by
  cases x with
  | error e => exact preserves_throw e
  | ok a => exact preserves_pure a

theorem preserves_update {g : σ → σ} (h : ∀ o, I o → I (g o)) :
    Preserves (update g : Loader ε σ Unit) I :=
  fun s hs => h s.1 hs

theorem Preserves.bind {p : Loader ε σ α} {q : α → Loader ε σ β} (hp : Preserves p I)
    (hq : ∀ a, Preserves (q a) I) : Preserves (p >>= q) I := by
  intro s hs
  rw [run_bind]
  have hkept := hp s hs
  rcases hrun : run p s with ⟨e | a, s'⟩
  · rw [hrun] at hkept
    exact hkept
  · rw [hrun] at hkept
    exact hq a s' hkept

/-- The object that a program looks at has the property. -/
theorem preserves_object_bind {q : σ → Loader ε σ β} (hq : ∀ o, I o → Preserves (q o) I) :
    Preserves (object >>= q) I := by
  intro s hs
  have hobject : run (object : Loader ε σ σ) s = (.ok s.1, s) := rfl
  rw [run_bind_ok hobject]
  exact hq s.1 hs s hs

theorem Preserves.tryCatch {p : Loader ε σ α} {h : ε → Loader ε σ α} (hp : Preserves p I)
    (hh : ∀ e, Preserves (h e) I) : Preserves (MonadExcept.tryCatch p h) I := by
  intro s hs
  rw [run_tryCatch]
  have hkept := hp s hs
  rcases hrun : run p s with ⟨e | a, s'⟩
  · rw [hrun] at hkept
    exact hh e s' hkept
  · rw [hrun] at hkept
    exact hkept

theorem Preserves.within {p : Loader ε τ α} {J : τ → Prop} (hp : Preserves p J) {part : τ}
    (hpart : J part) {put : τ → σ → σ} (hput : ∀ t o, J t → I o → I (put t o)) :
    Preserves (Loader.within part put p) I :=
  fun s hs => hput _ s.1 (hp (part, s.2) hpart) hs

end Loader
