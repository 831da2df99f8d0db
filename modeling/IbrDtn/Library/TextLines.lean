import IbrDtn.Library.InStream
import Mathlib

/-!
# Texts that are read line by line

Reading a line of an `InStream` in the manner of `getline`, and headers: lines that are assigned to
an object one after the other, up to the first empty one.  A line may end with a carriage return in
front of the end of the line, which is not part of it.

A `Loader` that throws still leaves its object, and a caller that catches the exception goes on with
both.  `Loader.Fails` is what `Loader.Loads` is for a loader that returns.

## Main definitions

* `TextLines.getline`, `TextLines.stripReturn` : reading a line.
* `TextLines.readHeader` : reading lines into an object.
* `Loader.Fails` : what a loader that throws has read, and the object that it leaves.

## Main results

* `TextLines.loads_readHeader` : a header is read back as its lines are assigned.
* `Loader.Fails.tryCatch` : an exception is handled behind what was read.
-/

namespace Loader

variable {ε ε' σ τ α β : Type}

/-! ### Exceptions -/

/-- On every good stream that starts with `bs`, the loader turns the object `o` into `o'`, throws
`e` and has consumed exactly `bs`. -/
def Fails (p : Loader ε σ α) (bs : List UInt8) (o o' : σ) (e : ε) : Prop :=
  ∀ r st, run p (o, ⟨bs ++ r, false, false, st⟩) = (.error e, (o', ⟨r, false, false, st⟩))

theorem fails_throw (e : ε) (o : σ) : Fails (throw e : Loader ε σ α) [] o o e :=
  fun _ _ => rfl

theorem Loads.bind_fails {p : Loader ε σ α} {f : α → Loader ε σ β} {bs cs : List UInt8}
    {o o' o'' : σ} {a : α} {e : ε} (hp : Loads p bs o o' a) (hf : Fails (f a) cs o' o'' e) :
    Fails (p >>= f) (bs ++ cs) o o'' e := by
  intro r st
  rw [List.append_assoc, run_bind_ok (hp _ _)]
  exact hf r st

/-- `Loads.bind_fails` for a second loader that consumes nothing. -/
theorem Loads.then_fails {p : Loader ε σ α} {f : α → Loader ε σ β} {bs : List UInt8}
    {o o' o'' : σ} {a : α} {e : ε} (hp : Loads p bs o o' a) (hf : Fails (f a) [] o' o'' e) :
    Fails (p >>= f) bs o o'' e := by
  intro r st
  rw [run_bind_ok (hp r st)]
  exact hf r st

/-- `Loads.bind_fails` for a first loader that consumes nothing. -/
theorem Loads.bind_nil_fails {p : Loader ε σ α} {f : α → Loader ε σ β} {bs : List UInt8}
    {o o' o'' : σ} {a : α} {e : ε} (hp : Loads p [] o o' a) (hf : Fails (f a) bs o' o'' e) :
    Fails (p >>= f) bs o o'' e :=
  hp.bind_fails hf

theorem Fails.bind {p : Loader ε σ α} {f : α → Loader ε σ β} {bs : List UInt8} {o o' : σ} {e : ε}
    (hp : Fails p bs o o' e) : Fails (p >>= f) bs o o' e := by
  intro r st
  rw [run_bind, hp r st]

/-- **An exception is handled** behind what was read, on the object that was left. -/
theorem Fails.tryCatch {p : Loader ε σ α} {h : ε → Loader ε σ α} {bs cs : List UInt8}
    {o o' o'' : σ} {e : ε} {a : α} (hp : Fails p bs o o' e) (hh : Loads (h e) cs o' o'' a) :
    Loads (MonadExcept.tryCatch p h) (bs ++ cs) o o'' a := by
  intro r st
  rw [run_tryCatch, List.append_assoc, hp _ _]
  exact hh r st

/-- The handler of an exception throws. -/
theorem Fails.tryCatch_fails {p : Loader ε σ α} {h : ε → Loader ε σ α} {bs cs : List UInt8}
    {o o' o'' : σ} {e e' : ε} (hp : Fails p bs o o' e) (hh : Fails (h e) cs o' o'' e') :
    Fails (MonadExcept.tryCatch p h) (bs ++ cs) o o'' e' := by
  intro r st
  rw [run_tryCatch, List.append_assoc, hp _ _]
  exact hh r st

/-- An exception is handled without reading on. -/
theorem Fails.tryCatch_nil {p : Loader ε σ α} {h : ε → Loader ε σ α} {bs : List UInt8}
    {o o' o'' : σ} {e : ε} {a : α} (hp : Fails p bs o o' e) (hh : Loads (h e) [] o' o'' a) :
    Loads (MonadExcept.tryCatch p h) bs o o'' a := by
  rw [← List.append_nil bs]
  exact hp.tryCatch hh

/-- An exception is thrown again. -/
theorem Fails.rethrow {p : Loader ε σ α} {h : ε → Loader ε σ α} {bs : List UInt8} {o o' : σ}
    {e : ε} (hp : Fails p bs o o' e) (hh : h e = throw e) :
    Fails (MonadExcept.tryCatch p h) bs o o' e := by
  rw [← List.append_nil bs]
  exact hp.tryCatch_fails (hh ▸ fails_throw e o')

/-! ### Assignments that may throw -/

/-- An assignment to the object that may throw, and then leaves it. -/
def assign (f : σ → Except ε σ) : Loader ε σ Unit :=
  ofRun fun s =>
    match f s.1 with
    | .ok o => (.ok (), (o, s.2))
    | .error e => (.error e, s)

theorem loads_assign {f : σ → Except ε σ} {o o' : σ} (h : f o = .ok o') :
    Loads (assign f) [] o o' () := by
  intro r st
  rw [assign, run_ofRun]
  simp only [h, List.nil_append]

/-- The loader with its exceptions translated. -/
def mapError (g : ε → ε') (p : Loader ε σ α) : Loader ε' σ α :=
  ofRun fun s => ((p.run s).1.mapError g, (p.run s).2)

theorem Loads.mapError {p : Loader ε σ α} {bs : List UInt8} {o o' : σ} {a : α}
    (h : Loads p bs o o' a) (g : ε → ε') : Loads (Loader.mapError g p) bs o o' a := by
  intro r st
  rw [Loader.mapError, run_ofRun, h r st]
  rfl

/-- A loader that reads from bytes that were read before; the memory that failing reads deliver is
that of the stream. -/
def onBytes (bs : List UInt8) (p : Loader ε σ α) : Loader ε σ α :=
  ofRun fun s =>
    let (r, (o, is)) := p.run (s.1, ⟨bs, false, false, s.2.stale⟩)
    (r, (o, { s.2 with stale := is.stale }))

theorem Loads.onBytes {p : Loader ε σ α} {bs : List UInt8} {o o' : σ} {a : α}
    (h : Loads p bs o o' a) : Loads (Loader.onBytes bs p) [] o o' a := by
  intro r st
  have hrun := h [] st
  rw [List.append_nil] at hrun
  rw [Loader.onBytes, run_ofRun]
  simp only [hrun, List.nil_append]

end Loader

namespace TextLines

open Loader (Loads loads_ofParser)

variable {ε σ : Type}

/-! ### Lines -/

/-- The end of a line. -/
def newline : UInt8 := 0x0a

/-- A line and its end. -/
def line (data : List UInt8) : List UInt8 := data ++ [newline]

/-- A line without a carriage return at its end. -/
def stripReturn (data : List UInt8) : List UInt8 :=
  if data.getLast? = some 0x0d then data.dropLast else data

/-- `getline`: what is in front of the end of the line, or of the stream. A stream that is not good
delivers nothing. -/
def getline : Parser ε (List UInt8) :=
  Parser.ofRun fun s =>
    if s.good then
      match s.rest.dropWhile (· ≠ newline) with
      | _ :: r => (.ok (s.rest.takeWhile (· ≠ newline)), { s with rest := r })
      | [] => (.ok s.rest, if s.rest = [] then s.exhaust else { s with rest := [], eof := true })
    else (.ok [], { s with fail := true })

/-- Neither bit of the stream is set. -/
def isGood : Parser ε Bool := Parser.ofRun fun s => (.ok s.good, s)

theorem reads_isGood : (isGood : Parser ε Bool).Reads [] true := fun _ _ => rfl

/-- **A line is read** with its end. -/
theorem reads_getline {data : List UInt8} (h : newline ∉ data) :
    (getline : Parser ε (List UInt8)).Reads (line data) data := by
  have hall : ∀ b ∈ data, decide (b ≠ newline) = true :=
    fun b hb => decide_eq_true (ne_of_mem_of_not_mem hb h)
  intro r st
  have hdrop : (line data ++ r).dropWhile (· ≠ newline) = newline :: r := by
    rw [line, List.append_assoc, List.dropWhile_append_of_pos hall]
    rfl
  have htake : (line data ++ r).takeWhile (· ≠ newline) = data := by
    rw [line, List.append_assoc, List.takeWhile_append_of_pos hall]
    simp
  have hgood : (⟨line data ++ r, false, false, st⟩ : InStream).good = true := rfl
  rw [getline, Parser.run_ofRun, if_pos hgood]
  simp only [hdrop, htake]

/-- An empty line is its end. -/
theorem reads_getline_empty : (getline : Parser ε (List UInt8)).Reads [newline] [] :=
  reads_getline List.not_mem_nil

theorem stripReturn_eq_self {data : List UInt8} (h : data.getLast? ≠ some 0x0d) :
    stripReturn data = data := if_neg h

/-! ### Headers -/

/-- The turns of the loop over the lines of a header. Each takes a byte or sets a bit of the stream,
so that they are bounded by the length of the stream. -/
def headerLoop (f : List UInt8 → σ → Except ε σ) : ℕ → Loader ε σ Unit
  | 0 => pure ()
  | rounds + 1 => do
      if ← Loader.ofParser isGood then
        let data := stripReturn (← Loader.ofParser getline)
        if data = [] then pure ()
        else
          Loader.assign (f data)
          headerLoop f rounds
      else pure ()

/-- Lines are read into the object by `f`, while the stream is good, up to the first empty one. -/
def readHeader (f : List UInt8 → σ → Except ε σ) : Loader ε σ Unit := do
  let remaining ← Loader.ofParser Parser.remaining
  headerLoop f (remaining + 2)

/-- The lines of a header, and the empty one behind it. -/
def header (lines : List (List UInt8)) : List UInt8 := lines.flatMap line ++ [newline]

/-- What a header can have as a line: it has one end, and there is something in front of it. -/
def IsLine (data : List UInt8) : Prop := newline ∉ data ∧ stripReturn data ≠ []

instance : DecidablePred IsLine := fun _ => inferInstanceAs (Decidable (_ ∧ _))

variable {f : List UInt8 → σ → Except ε σ}

/-- **The loop assigns the lines** in their order. -/
theorem loads_headerLoop {lines : List (List UInt8)} (hlines : ∀ data ∈ lines, IsLine data)
    {o o' : σ} (h : lines.foldlM (fun o data => f (stripReturn data) o) o = .ok o') {rounds : ℕ}
    (hrounds : lines.length < rounds) :
    (headerLoop f rounds).Loads (header lines) o o' () := by
  induction lines generalizing o rounds with
  | nil =>
      obtain ⟨rounds, rfl⟩ : ∃ k, rounds = k + 1 := ⟨rounds - 1, by simp at hrounds; omega⟩
      obtain rfl : o = o' := Except.ok.inj h
      rw [headerLoop]
      refine (loads_ofParser reads_isGood _).bind_nil ?_
      rw [if_pos rfl]
      exact (loads_ofParser reads_getline_empty _).then_nil (Loader.loads_pure () _)
  | cons data lines ih =>
      obtain ⟨hend, hne⟩ := hlines data List.mem_cons_self
      rw [List.length_cons] at hrounds
      obtain ⟨rounds, rfl⟩ : ∃ k, rounds = k + 1 := ⟨rounds - 1, by omega⟩
      rw [List.foldlM_cons] at h
      cases hf : f (stripReturn data) o with
      | error e => rw [hf] at h; cases h
      | ok o₁ =>
          rw [hf] at h
          rw [headerLoop, header, List.flatMap_cons, List.append_assoc]
          refine (loads_ofParser reads_isGood _).bind_nil ?_
          rw [if_pos rfl]
          refine (loads_ofParser (reads_getline hend) _).bind ?_
          rw [if_neg hne]
          exact (Loader.loads_assign hf).bind_nil
            (ih (fun d hd => hlines d (List.mem_cons_of_mem _ hd)) h (by omega))

theorem length_lt_header (lines : List (List UInt8)) : lines.length < (header lines).length := by
  have hle : lines.length ≤ (lines.flatMap line).length := by
    induction lines with
    | nil => exact le_rfl
    | cons data lines ih =>
        rw [List.length_cons, List.flatMap_cons, List.length_append, line, List.length_append,
          List.length_singleton]
        omega
  rw [header, List.length_append, List.length_singleton]
  omega

/-- **A header is read back** as its lines are assigned. -/
theorem loads_readHeader {lines : List (List UInt8)} (hlines : ∀ data ∈ lines, IsLine data)
    {o o' : σ} (h : lines.foldlM (fun o data => f (stripReturn data) o) o = .ok o') :
    (readHeader f).Loads (header lines) o o' () := by
  intro r st
  have hlt : lines.length < (header lines ++ r).length + 2 := by
    have := length_lt_header lines
    rw [List.length_append]
    omega
  have hrun : Loader.run (Loader.ofParser Parser.remaining : Loader ε σ ℕ)
      (o, ⟨header lines ++ r, false, false, st⟩) =
        (.ok (header lines ++ r).length, (o, ⟨header lines ++ r, false, false, st⟩)) := rfl
  rw [readHeader, Loader.run_bind_ok hrun]
  exact loads_headerLoop hlines h hlt r st

end TextLines
