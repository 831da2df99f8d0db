import IbrDtn.Library.InStream

/-!
# The language of a reading program

A program that reads a stream without a look at its state sees the bytes of the stream and, behind
the last one, what the memory held that it reads into.  This file states what such a program accepts
as a relation between what it finds, what it returns and what it leaves.  The relation of a program
is composed from those of its reads, so that a format can be written down next to the program.

## Main definitions

* `Tape` : the bytes that were not read yet, and the stale bytes.
* `Tape.Starts` : the bytes that reads into uninitialised memory deliver.
* `Parser.Recognises` : the program returns a value exactly if a relation holds.
* `Parser.Admits` : the program returns exactly if what it finds has a property.

## Main results

* `Parser.Recognises.bind`, `Parser.Recognises.bind_admits` : the composition rules.
* `Parser.recognises_readBytes`, `Parser.recognises_getByte` : the reads.
-/

/-- What a reading program finds: the bytes that were not read yet, and the stale bytes behind. -/
abbrev Tape := List UInt8 × List UInt8

/-- A relation between what a program finds, what it returns and what it leaves. -/
abbrev Format (α : Type) := Tape → α → Tape → Prop

/-- Several in a row. -/
inductive Format.Many {α : Type} (F : Format α) : Format (List α) where
  | nil (m : Tape) : Many F m [] m
  | cons {m m' m'' : Tape} {a : α} {as : List α} (h : F m a m') (hs : Many F m' as m'') :
      Many F m (a :: as) m''

theorem Format.many_cons {α : Type} {F : Format α} {m m'' : Tape} {a : α} {as : List α} :
    F.Many m (a :: as) m'' ↔ ∃ m', F m a m' ∧ F.Many m' as m'' := by
  constructor
  · rintro (_ | ⟨h, hs⟩)
    exact ⟨_, h, hs⟩
  · rintro ⟨m', h, hs⟩
    exact .cons h hs

theorem Format.many_nil {α : Type} {F : Format α} {m m' : Tape} : F.Many m [] m' ↔ m' = m := by
  constructor
  · rintro ⟨⟩
    rfl
  · rintro rfl
    exact .nil _

namespace Tape

/-- Reads into uninitialised memory deliver the given bytes: those of the stream, then the stale
ones, then zeros. -/
inductive Starts : Format (List UInt8) where
  | nil (m : Tape) : Starts m [] m
  | unread {b : UInt8} {r st bs : List UInt8} {m : Tape} (h : Starts (r, st) bs m) :
      Starts (b :: r, st) (b :: bs) m
  | stale {b : UInt8} {st bs : List UInt8} {m : Tape} (h : Starts ([], st) bs m) :
      Starts ([], b :: st) (b :: bs) m
  | zero {bs : List UInt8} {m : Tape} (h : Starts ([], []) bs m) : Starts ([], []) (0 :: bs) m

/-- A read into memory that holds `old`. -/
def get (old : UInt8) : Tape → UInt8 × Tape
  | ([], st) => (old, ([], st))
  | (b :: r, st) => (b, (r, st))

/-- The next byte for uninitialised memory. -/
def next : Tape → UInt8 × Tape
  | (b :: r, st) => (b, (r, st))
  | ([], b :: st) => (b, ([], st))
  | ([], []) => (0, ([], []))

@[simp] theorem starts_nil {m m' : Tape} : Starts m [] m' ↔ m' = m := by
  constructor
  · rintro ⟨⟩
    rfl
  · rintro rfl
    exact .nil _

theorem starts_cons {m m' : Tape} {b : UInt8} {bs : List UInt8} :
    Starts m (b :: bs) m' ↔ m.next.1 = b ∧ Starts m.next.2 bs m' := by
  constructor
  · rintro (_ | h | h | h) <;> exact ⟨rfl, h⟩
  · rintro ⟨rfl, h⟩
    match m, h with
    | (_ :: _, _), h => exact .unread h
    | ([], _ :: _), h => exact .stale h
    | ([], []), h => exact .zero h

/-- As many bytes of one tape are the same. -/
theorem Starts.unique {m m' m'' : Tape} {bs cs : List UInt8} (h : Starts m bs m')
    (h' : Starts m cs m'') (hlen : bs.length = cs.length) : bs = cs ∧ m' = m'' := by
  induction bs generalizing m cs with
  | nil =>
      obtain rfl := List.length_eq_zero_iff.1 hlen.symm
      exact ⟨rfl, (starts_nil.1 h).trans (starts_nil.1 h').symm⟩
  | cons b bs ih =>
      obtain ⟨c, cs, rfl⟩ := List.exists_cons_of_length_eq_add_one hlen.symm
      obtain ⟨hb, hbs⟩ := starts_cons.1 h
      obtain ⟨hc, hcs⟩ := starts_cons.1 h'
      obtain ⟨rfl, hm⟩ := ih hbs hcs (Nat.succ.inj hlen)
      exact ⟨by rw [← hb, ← hc], hm⟩

/-- The bytes of the stream come before the stale ones. -/
theorem starts_append (r : List UInt8) {st bs : List UInt8} {m : Tape}
    (h : Starts ([], st) bs m) : Starts (r, st) (r ++ bs) m := by
  induction r with
  | nil => exact h
  | cons b r ih => exact .unread ih

/-- What was found in front of bytes that are left. -/
theorem Starts.eq_append {m m' : Tape} {bs : List UInt8} (h : m.Starts bs m') (hne : m'.1 ≠ []) :
    m.1 = bs ++ m'.1 := by
  induction h with
  | nil m => rfl
  | unread _ ih => exact congrArg _ (ih hne)
  | stale _ ih =>
      have heq := ih hne
      exact absurd (List.append_eq_nil_iff.1 heq.symm).2 hne
  | zero _ ih =>
      have heq := ih hne
      exact absurd (List.append_eq_nil_iff.1 heq.symm).2 hne

/-- What follows the bytes of the stream itself. -/
theorem starts_unread (bs r st : List UInt8) : Starts (bs ++ r, st) bs (r, st) := by
  induction bs with
  | nil => exact .nil _
  | cons b bs ih => exact .unread ih

theorem Starts.append {m m' m'' : Tape} {bs cs : List UInt8} (h : m.Starts bs m')
    (h' : m'.Starts cs m'') : m.Starts (bs ++ cs) m'' := by
  induction h with
  | nil m => exact h'
  | unread _ ih => exact .unread (ih h')
  | stale _ ih => exact .stale (ih h')
  | zero _ ih => exact .zero (ih h')

theorem Starts.split {m m' : Tape} {bs : List UInt8} (h : m.Starts bs m') (k : ℕ) :
    ∃ m₁, m.Starts (bs.take k) m₁ ∧ m₁.Starts (bs.drop k) m' := by
  induction bs generalizing m k with
  | nil => exact ⟨m, by rw [List.take_nil]; exact .nil m, by rw [List.drop_nil]; exact h⟩
  | cons b bs ih =>
      cases k with
      | zero => exact ⟨m, .nil m, h⟩
      | succ k =>
          obtain ⟨hb, hbs⟩ := starts_cons.1 h
          obtain ⟨m₁, htake, hdrop⟩ := ih hbs k
          exact ⟨m₁, starts_cons.2 ⟨hb, htake⟩, hdrop⟩

/-- The stale bytes, where nothing is left of the stream. -/
theorem starts_stale (bs st : List UInt8) : Starts ([], bs ++ st) bs ([], st) := by
  induction bs with
  | nil => exact .nil _
  | cons b bs ih => exact .stale ih

/-- There is always something for uninitialised memory. -/
theorem exists_starts (n : ℕ) (m : Tape) : ∃ bs m', bs.length = n ∧ m.Starts bs m' := by
  induction n generalizing m with
  | zero => exact ⟨[], m, rfl, .nil m⟩
  | succ n ih =>
      obtain ⟨bs, m', hlen, hstarts⟩ := ih m.next.2
      exact ⟨m.next.1 :: bs, m', congrArg (· + 1) hlen, starts_cons.2 ⟨rfl, hstarts⟩⟩

/-- As many bytes of the stream as there are come first. -/
theorem exists_starts_take (n : ℕ) (r st : List UInt8) :
    ∃ cs m', (r.take n ++ cs).length = n ∧ Starts (r, st) (r.take n ++ cs) m' := by
  rcases Nat.le_or_ge n r.length with hn | hn
  · refine ⟨[], (r.drop n, st), ?_, ?_⟩
    · rw [List.append_nil, List.length_take_of_le hn]
    · have hstarts := starts_unread (r.take n) (r.drop n) st
      rwa [List.take_append_drop, ← List.append_nil (r.take n)] at hstarts
  · obtain ⟨cs, m', hlen, hstarts⟩ := exists_starts (n - r.length) ([], st)
    refine ⟨cs, m', ?_, ?_⟩
    · rw [List.take_of_length_le hn, List.length_append, hlen]
      omega
    · rw [List.take_of_length_le hn]
      exact starts_append r hstarts

end Tape

namespace InStream

/-- The unread bytes and the stale ones. -/
def tape (s : InStream) : Tape := (s.rest, s.stale)

/-- The stream is good, or nothing is left of it. -/
def Settled (s : InStream) : Prop := s.good = true ∨ s.rest = []

theorem settled_exhaust (s : InStream) : s.exhaust.Settled := Or.inr rfl

theorem settled_popStale {s : InStream} (h : s.rest = []) : s.popStale.2.Settled := by
  rcases s with ⟨rest, eof, fail, _ | ⟨b, st⟩⟩ <;> exact Or.inr h

theorem tape_popStale {s : InStream} (h : s.rest = []) :
    s.tape.next = (s.popStale.1, s.popStale.2.tape) := by
  rcases s with ⟨rest, eof, fail, _ | ⟨b, st⟩⟩ <;> obtain rfl : rest = [] := h <;> rfl

theorem rest_popStale (s : InStream) : s.popStale.2.rest = s.rest := by
  rcases s with ⟨rest, eof, fail, _ | ⟨b, st⟩⟩ <;> rfl

/-- A stream of which nothing is left delivers the stale bytes. -/
theorem starts_popStales {s : InStream} (h : s.rest = []) (n : ℕ) :
    (s.popStales n).1.length = n ∧ (s.popStales n).2.rest = [] ∧
      s.tape.Starts (s.popStales n).1 (s.popStales n).2.tape := by
  induction n generalizing s with
  | zero => exact ⟨rfl, h, .nil _⟩
  | succ n ih =>
      obtain ⟨hlength, hrest, hstarts⟩ := ih ((rest_popStale s).trans h)
      refine ⟨congrArg (· + 1) hlength, hrest, Tape.starts_cons.2 ?_⟩
      rw [tape_popStale h]
      exact ⟨rfl, hstarts⟩

end InStream

namespace Parser

variable {ε α β : Type}

/-- On a stream that is good, or of which nothing is left, the program returns a value exactly if
the relation holds between what it finds, the value and what it leaves. -/
structure Recognises (p : Parser ε α) (F : Format α) : Prop where
  settled {s s' : InStream} {a : α} (hs : s.Settled) (h : p.run s = (.ok a, s')) : s'.Settled
  sound {s s' : InStream} {a : α} (hs : s.Settled) (h : p.run s = (.ok a, s')) :
    F s.tape a s'.tape
  complete {s : InStream} {a : α} {m : Tape} (hs : s.Settled) (h : F s.tape a m) :
    ∃ s', p.run s = (.ok a, s') ∧ s'.tape = m

variable {p : Parser ε α} {f : α → Parser ε β} {F : Format α} {G : α → Format β}

theorem Recognises.congr {F' : Format α} (hp : Recognises p F)
    (h : ∀ m a m', F m a m' ↔ F' m a m') : Recognises p F' where
  settled := hp.settled
  sound hs hrun := (h _ _ _).1 (hp.sound hs hrun)
  complete hs hF := hp.complete hs ((h _ _ _).2 hF)

/-- A program that always returns, and does one thing to the tape. -/
theorem recognises_of_run {g : Tape → α × Tape}
    (h : ∀ s : InStream, s.Settled → ∃ s' : InStream, p.run s = (.ok (g s.tape).1, s') ∧
      s'.Settled ∧ s'.tape = (g s.tape).2) :
    Recognises p fun m a m' => g m = (a, m') where
  settled hs hrun := by
    obtain ⟨t, ht, hsettled, -⟩ := h _ hs
    obtain ⟨-, rfl⟩ := Prod.mk.inj (ht.symm.trans hrun)
    exact hsettled
  sound hs hrun := by
    obtain ⟨t, ht, -, htape⟩ := h _ hs
    obtain ⟨ha, rfl⟩ := Prod.mk.inj (ht.symm.trans hrun)
    exact Prod.ext (Except.ok.inj ha) htape.symm
  complete hs hg := by
    obtain ⟨t, ht, -, htape⟩ := h _ hs
    rw [hg] at ht htape
    exact ⟨t, ht, htape⟩

theorem recognises_pure (a : α) :
    Recognises (pure a : Parser ε α) fun m b m' => b = a ∧ m' = m where
  settled hs h := by
    obtain ⟨-, rfl⟩ := Prod.mk.inj h
    exact hs
  sound _ h := by
    obtain ⟨ha, rfl⟩ := Prod.mk.inj h
    exact ⟨(Except.ok.inj ha).symm, rfl⟩
  complete _ h := by
    obtain ⟨rfl, rfl⟩ := h
    exact ⟨_, rfl, rfl⟩

theorem recognises_throw (e : ε) : Recognises (throw e : Parser ε α) fun _ _ _ => False where
  settled _ h := by cases h
  sound _ h := by cases h
  complete _ h := h.elim

/-- **The language of a program is composed from those of its parts.** -/
theorem Recognises.bind (hp : Recognises p F) (hf : ∀ a, Recognises (f a) (G a)) :
    Recognises (p >>= f) fun m b m'' => ∃ a m', F m a m' ∧ G a m' b m'' where
  settled {s s''} b hs h := by
    rw [run_bind] at h
    rcases hrun : p.run s with ⟨e | a, s'⟩
    · rw [hrun] at h
      cases h
    · rw [hrun] at h
      exact (hf a).settled (hp.settled hs hrun) h
  sound {s s''} b hs h := by
    rw [run_bind] at h
    rcases hrun : p.run s with ⟨e | a, s'⟩
    · rw [hrun] at h
      cases h
    · rw [hrun] at h
      exact ⟨a, s'.tape, hp.sound hs hrun, (hf a).sound (hp.settled hs hrun) h⟩
  complete {s} b m'' hs h := by
    obtain ⟨a, m', hF, hG⟩ := h
    obtain ⟨s', hrun, rfl⟩ := hp.complete hs hF
    obtain ⟨s'', hrun', htape⟩ := (hf a).complete (hp.settled hs hrun) hG
    exact ⟨s'', by rw [run_bind_ok hrun, hrun'], htape⟩

/-- A program behind a condition. -/
theorem recognises_ite {c : Prop} [Decidable c] {q : Parser ε α} {F' : Format α}
    (hp : c → Recognises p F) (hq : ¬ c → Recognises q F') :
    Recognises (if c then p else q) fun m a m' => if c then F m a m' else F' m a m' := by
  split_ifs with h
  · exact hp h
  · exact hq h

/-- The stream that a good one with a byte less is. -/
theorem settled_of_good {s : InStream} (hgood : s.good = true) (r : List UInt8) :
    InStream.Settled { s with rest := r } := Or.inl hgood

/-- **A read of a byte into uninitialised memory.** -/
theorem recognises_getByte :
    Recognises (getByte none : Parser ε UInt8) fun m b m' => m.next = (b, m') := by
  refine recognises_of_run fun s hs => ?_
  rw [getByte, run_ofRun]
  by_cases hgood : s.good = true
  · rw [if_pos hgood]
    rcases hrest : s.rest with _ | ⟨b, r⟩
    · have htape : s.exhaust.tape = s.tape := Prod.ext hrest.symm rfl
      have hnext := InStream.tape_popStale (s := s.exhaust) rfl
      rw [← htape, hnext]
      exact ⟨_, rfl, InStream.settled_popStale rfl, rfl⟩
    · have hnext : s.tape.next = (b, (r, s.stale)) := by rw [InStream.tape, hrest]; rfl
      rw [hnext]
      exact ⟨_, rfl, settled_of_good hgood r, rfl⟩
  · have hrest : s.rest = [] := hs.resolve_left hgood
    have hnext := InStream.tape_popStale (s := { s with fail := true }) hrest
    have htape : InStream.tape { s with fail := true } = s.tape := rfl
    rw [if_neg hgood, ← htape, hnext]
    exact ⟨_, rfl, InStream.settled_popStale hrest, rfl⟩

/-- A read of a byte into memory that holds `old`. -/
theorem recognises_getByte_some (old : UInt8) :
    Recognises (getByte (some old) : Parser ε UInt8) fun m b m' => m.get old = (b, m') := by
  refine recognises_of_run fun s hs => ?_
  rw [getByte, run_ofRun]
  rcases hrest : s.rest with _ | ⟨b, r⟩
  · have hget : s.tape.get old = (old, s.tape) := by rw [InStream.tape, hrest]; rfl
    rw [hget]
    split_ifs
    · exact ⟨_, rfl, InStream.settled_exhaust s, Prod.ext hrest.symm rfl⟩
    · exact ⟨_, rfl, Or.inr rfl, Prod.ext hrest.symm rfl⟩
  · have hgood : s.good = true := hs.resolve_right (by rw [hrest]; exact List.cons_ne_nil b r)
    have hget : s.tape.get old = (b, (r, s.stale)) := by rw [InStream.tape, hrest]; rfl
    rw [hget, if_pos hgood]
    exact ⟨_, rfl, settled_of_good hgood r, rfl⟩

/-- What `readBytes` delivers. -/
theorem starts_run_readBytes (n : ℕ) {s : InStream} (hs : s.Settled) :
    ∃ bs s', (readBytes n : Parser ε (List UInt8)).run s = (.ok bs, s') ∧ s'.Settled ∧
      bs.length = n ∧ s.tape.Starts bs s'.tape := by
  rw [readBytes, run_ofRun]
  by_cases hgood : s.good = true
  · rw [if_pos hgood]
    by_cases hle : n ≤ s.rest.length
    · rw [if_pos hle]
      refine ⟨_, _, rfl, settled_of_good hgood _, List.length_take_of_le hle, ?_⟩
      have hstarts := Tape.starts_unread (s.rest.take n) (s.rest.drop n) s.stale
      rwa [List.take_append_drop] at hstarts
    · obtain ⟨hlength, hrest, hstarts⟩ := InStream.starts_popStales (s := s.exhaust) rfl
        (n - s.rest.length)
      rw [if_neg hle]
      refine ⟨_, _, rfl, Or.inr hrest, ?_, ?_⟩
      · rw [List.length_append, hlength]
        omega
      · exact Tape.starts_append s.rest hstarts
  · have hnil : s.rest = [] := hs.resolve_left hgood
    obtain ⟨hlength, hrest, hstarts⟩ := InStream.starts_popStales
      (s := { s with fail := true }) hnil n
    rw [if_neg hgood]
    exact ⟨_, _, rfl, Or.inr hrest, hlength, hstarts⟩

/-- **A read of bytes into uninitialised memory.** -/
theorem recognises_readBytes (n : ℕ) :
    Recognises (readBytes n : Parser ε (List UInt8)) fun m bs m' =>
      bs.length = n ∧ m.Starts bs m' where
  settled {s s'} bs hs h := by
    obtain ⟨cs, t, hrun, hsettled, -⟩ := starts_run_readBytes (ε := ε) n hs
    obtain ⟨-, rfl⟩ := Prod.mk.inj (hrun.symm.trans h)
    exact hsettled
  sound {s s'} bs hs h := by
    obtain ⟨cs, t, hrun, -, hstarts⟩ := starts_run_readBytes (ε := ε) n hs
    obtain ⟨hbs, rfl⟩ := Prod.mk.inj (hrun.symm.trans h)
    obtain rfl := Except.ok.inj hbs
    exact hstarts
  complete {s} bs m hs h := by
    obtain ⟨cs, t, hrun, -, hlength, hstarts⟩ := starts_run_readBytes (ε := ε) n hs
    obtain ⟨rfl, rfl⟩ := h.2.unique hstarts (h.1.trans hlength.symm)
    exact ⟨t, hrun, rfl⟩

/-! ### What a program admits -/

/-- On a stream that is good, or of which nothing is left, the program returns exactly if what it
finds has the property. -/
def Admits (p : Parser ε α) (Q : Tape → Prop) : Prop :=
  ∀ s : InStream, s.Settled → ((∃ a s', p.run s = (.ok a, s')) ↔ Q s.tape)

variable {Q : α → Tape → Prop}

theorem Admits.congr {P P' : Tape → Prop} (hp : Admits p P) (h : ∀ m, P m ↔ P' m) : Admits p P' :=
  fun s hs => (hp s hs).trans (h s.tape)

theorem admits_pure (a : α) : Admits (pure a : Parser ε α) fun _ => True :=
  fun s _ => iff_of_true ⟨a, s, rfl⟩ trivial

theorem admits_throw (e : ε) : Admits (throw e : Parser ε α) fun _ => False :=
  fun _ _ => iff_of_false (fun ⟨_, _, h⟩ => by cases h) id

/-- A program behind one with a known language. -/
theorem Recognises.bind_admits (hp : Recognises p F) (hf : ∀ a, Admits (f a) (Q a)) :
    Admits (p >>= f) fun m => ∃ a m', F m a m' ∧ Q a m' := by
  refine fun s hs => ⟨?_, ?_⟩
  · rintro ⟨b, s'', h⟩
    rw [run_bind] at h
    rcases hrun : p.run s with ⟨e | a, s'⟩
    · rw [hrun] at h
      cases h
    · rw [hrun] at h
      exact ⟨a, s'.tape, hp.sound hs hrun, (hf a s' (hp.settled hs hrun)).1 ⟨b, s'', h⟩⟩
  · rintro ⟨a, m, hF, hQ⟩
    obtain ⟨s', hrun, rfl⟩ := hp.complete hs hF
    obtain ⟨b, s'', h⟩ := (hf a s' (hp.settled hs hrun)).2 hQ
    exact ⟨b, s'', by rw [run_bind_ok hrun, h]⟩

/-- A program behind a read of a byte into memory that holds `old`. -/
theorem admits_getByte_bind (old : UInt8) {f : UInt8 → Parser ε β} {Q : UInt8 → Tape → Prop}
    (hf : ∀ b, Admits (f b) (Q b)) :
    Admits (getByte (some old) >>= f) fun m => Q (m.get old).1 (m.get old).2 := by
  refine ((recognises_getByte_some old).bind_admits hf).congr fun m => ?_
  constructor
  · rintro ⟨b, m', hget, hQ⟩
    rwa [hget]
  · exact fun hQ => ⟨_, _, rfl, hQ⟩

theorem admits_ite {c : Prop} [Decidable c] {q : Parser ε α} {P P' : Tape → Prop}
    (hp : c → Admits p P) (hq : ¬ c → Admits q P') :
    Admits (if c then p else q) fun m => if c then P m else P' m := by
  split_ifs with h
  · exact hp h
  · exact hq h

end Parser
