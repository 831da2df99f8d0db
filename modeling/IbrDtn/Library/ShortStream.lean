import IbrDtn.Library.InStream

/-!
# Programs on streams that end early

A program that does not check the state of its stream goes on when the stream has ended: every read
delivers what the memory held before.  This file states what such a program may do on a stream that
is too short: for some contents of the stale memory it does not throw, or fails in a way that is no
exception.  Both are closed under the combinators, so that they are found for a program from its
reads.

## Main definitions

* `Loader.Sinks` : some stale memory makes the program fail without an exception.
* `Loader.Slips` : some stale memory makes it do that, or return with its stream at the end.
* `Loader.Lax` : it slips on every stream that has ended.
* `Loader.Cuts` : it slips on every proper prefix of given bytes.

## Main results

* `Loader.Cuts.bind`, `Loader.Lax.bind` : the composition rules.
-/

namespace InStream

/-- The stream with other stale memory. -/
def withStale (s : InStream) (st : List UInt8) : InStream := { s with stale := st }

theorem good_withStale (s : InStream) (st : List UInt8) : (s.withStale st).good = s.good := rfl

/-- A good stream that holds `bs`. -/
def short (bs : List UInt8) : InStream := ⟨bs, false, false, []⟩

end InStream

namespace Loader

variable {ε σ τ α β : Type}

/-! ### Parsers as loaders -/

theorem ofParser_pure (a : α) : (ofParser (pure a) : Loader ε σ α) = pure a := rfl

theorem ofParser_bind (p : Parser ε α) (f : α → Parser ε β) :
    (ofParser (p >>= f) : Loader ε σ β) = ofParser p >>= fun a => ofParser (f a) := by
  funext s
  change ((((p >>= f).run s.2).1, (s.1, ((p >>= f).run s.2).2)) : Except ε β × (σ × InStream)) =
    (ofParser p >>= fun a => ofParser (f a) : Loader ε σ β).run s
  rw [Parser.run_bind, run_bind, ofParser, run_ofRun]
  rcases p.run s.2 with ⟨_ | _, _⟩ <;> rfl

theorem ofParser_tryCatch (p : Parser ε α) (h : ε → Parser ε α) :
    (ofParser (MonadExcept.tryCatch p h) : Loader ε σ α) =
      MonadExcept.tryCatch (ofParser p) fun e => ofParser (h e) := by
  funext s
  change ((((MonadExcept.tryCatch p h : Parser ε α).run s.2).1,
      (s.1, ((MonadExcept.tryCatch p h : Parser ε α).run s.2).2)) : Except ε α × (σ × InStream)) =
    (MonadExcept.tryCatch (ofParser p) fun e => ofParser (h e) : Loader ε σ α).run s
  rw [Parser.run_tryCatch, run_tryCatch, ofParser, run_ofRun]
  rcases p.run s.2 with ⟨_ | _, _⟩ <;> rfl

/-! ### Slipping -/

/-- For some stale memory the loader fails with an error of the kind `undef`, whatever stale memory
follows. -/
def Sinks (undef : ε → Prop) (p : Loader ε σ α) (o : σ) (s : InStream) : Prop :=
  ∃ st, ∀ st', ∃ e, (run p (o, s.withStale (st ++ st'))).1 = .error e ∧ undef e

/-- For some stale memory the loader returns with its stream at the end, or fails with an error of
the kind `undef`, whatever stale memory follows. -/
inductive Slips (undef : ε → Prop) (p : Loader ε σ α) (o : σ) (s : InStream) : Prop where
  | returns (st : List UInt8) (a : α) (o' : σ) (s' : InStream) (heof : s'.eof = true)
      (h : ∀ st', run p (o, s.withStale (st ++ st')) = (.ok a, (o', s'.withStale st')))
  | sinks (h : Sinks undef p o s)

/-- The loader slips on every stream that has ended. -/
def Lax (undef : ε → Prop) (p : Loader ε σ α) : Prop :=
  ∀ o s, s.eof = true → Slips undef p o s

/-- The loader sinks on every stream that has ended. -/
def SinksAtEnd (undef : ε → Prop) (p : Loader ε σ α) : Prop :=
  ∀ o s, s.eof = true → Sinks undef p o s

/-- The loader slips on every good stream with a proper prefix of `bs`. -/
def Cuts (undef : ε → Prop) (p : Loader ε σ α) (bs : List UInt8) (o : σ) : Prop :=
  ∀ k < bs.length, Slips undef p o (.short (bs.take k))

/-- The loader sinks on every good stream with a proper prefix of `bs`. -/
def CutsSink (undef : ε → Prop) (p : Loader ε σ α) (bs : List UInt8) (o : σ) : Prop :=
  ∀ k < bs.length, Sinks undef p o (.short (bs.take k))

variable {undef : ε → Prop}

theorem SinksAtEnd.lax {p : Loader ε σ α} (h : SinksAtEnd undef p) : Lax undef p :=
  fun o s heof => .sinks (h o s heof)

theorem CutsSink.cuts {p : Loader ε σ α} {bs : List UInt8} {o : σ} (h : CutsSink undef p bs o) :
    Cuts undef p bs o :=
  fun k hk => .sinks (h k hk)

theorem Sinks.mono {undef' : ε → Prop} {p : Loader ε σ α} {o : σ} {s : InStream}
    (h : Sinks undef p o s) (hundef : ∀ e, undef e → undef' e) : Sinks undef' p o s := by
  obtain ⟨st, h⟩ := h
  refine ⟨st, fun st' => ?_⟩
  obtain ⟨e, he, hu⟩ := h st'
  exact ⟨e, he, hundef e hu⟩

theorem SinksAtEnd.mono {undef' : ε → Prop} {p : Loader ε σ α} (h : SinksAtEnd undef p)
    (hundef : ∀ e, undef e → undef' e) : SinksAtEnd undef' p :=
  fun o s heof => (h o s heof).mono hundef

theorem Sinks.bind {p : Loader ε σ α} {o : σ} {s : InStream} (h : Sinks undef p o s)
    (f : α → Loader ε σ β) : Sinks undef (p >>= f) o s := by
  obtain ⟨st, h⟩ := h
  refine ⟨st, fun st' => ?_⟩
  obtain ⟨e, he, hundef⟩ := h st'
  refine ⟨e, ?_, hundef⟩
  rw [run_bind]
  rcases hrun : run p (o, s.withStale (st ++ st')) with ⟨e' | a, s'⟩
  · rw [hrun] at he
    exact congrArg Except.error (Except.error.inj he)
  · rw [hrun] at he
    exact absurd he (by simp)

/-- Whatever the first loader returns on the short stream, the second one slips on what it leaves. -/
theorem Slips.bind {p : Loader ε σ α} {f : α → Loader ε σ β} {o : σ} {s : InStream}
    (hp : Slips undef p o s) (hf : ∀ a o' s', s'.eof = true → Slips undef (f a) o' s') :
    Slips undef (p >>= f) o s := by
  cases hp with
  | sinks h => exact .sinks (h.bind f)
  | returns st a o' s' heof h =>
      have hrun (st' : List UInt8) : run (p >>= f) (o, s.withStale (st ++ st')) =
          run (f a) (o', s'.withStale st') := run_bind_ok (h st')
      cases hf a o' s' heof with
      | sinks hsinks =>
          obtain ⟨st₁, hsinks⟩ := hsinks
          refine .sinks ⟨st ++ st₁, fun st' => ?_⟩
          rw [List.append_assoc, hrun]
          exact hsinks st'
      | returns st₁ b o'' s'' heof' h' =>
          refine .returns (st ++ st₁) b o'' s'' heof' fun st' => ?_
          rw [List.append_assoc, hrun]
          exact h' st'

/-- A loader that returns from the short stream, in front of one that fails at its end. -/
theorem Slips.bind_sinks {p : Loader ε σ α} {f : α → Loader ε σ β} {o : σ} {s : InStream}
    (hp : Slips undef p o s) (hf : ∀ a, SinksAtEnd undef (f a)) : Sinks undef (p >>= f) o s := by
  cases hp with
  | sinks h => exact h.bind f
  | returns st a o' s' heof h =>
      obtain ⟨st₁, hsinks⟩ := hf a o' s' heof
      refine ⟨st ++ st₁, fun st' => ?_⟩
      rw [List.append_assoc, run_bind_ok (h _)]
      exact hsinks st'

/-- Two loaders that do the same on two streams, whatever their stale memory is. -/
theorem Sinks.of_run {p q : Loader ε σ α} {o o' : σ} {s s' : InStream}
    (hrun : ∀ st, run p (o, s.withStale st) = run q (o', s'.withStale st))
    (hq : Sinks undef q o' s') : Sinks undef p o s := by
  obtain ⟨st, h⟩ := hq
  refine ⟨st, fun st' => ?_⟩
  rw [hrun]
  exact h st'

theorem Slips.of_run {p q : Loader ε σ α} {o o' : σ} {s s' : InStream}
    (hrun : ∀ st, run p (o, s.withStale st) = run q (o', s'.withStale st))
    (hq : Slips undef q o' s') : Slips undef p o s := by
  cases hq with
  | sinks h => exact .sinks (h.of_run hrun)
  | returns st b o'' s'' heof h =>
      refine .returns st b o'' s'' heof fun st' => ?_
      rw [hrun]
      exact h st'

theorem Loads.slips_bind {p : Loader ε σ α} {f : α → Loader ε σ β} {bs r : List UInt8} {o o' : σ}
    {a : α} (hp : Loads p bs o o' a) (hf : Slips undef (f a) o' (.short r)) :
    Slips undef (p >>= f) o (.short (bs ++ r)) := by
  refine hf.of_run fun st => ?_
  have hrun : run p (o, (InStream.short (bs ++ r)).withStale st) =
      (.ok a, (o', (InStream.short r).withStale st)) := hp r st
  exact run_bind_ok hrun

theorem Loads.sinks_bind {p : Loader ε σ α} {f : α → Loader ε σ β} {bs r : List UInt8} {o o' : σ}
    {a : α} (hp : Loads p bs o o' a) (hf : Sinks undef (f a) o' (.short r)) :
    Sinks undef (p >>= f) o (.short (bs ++ r)) := by
  refine hf.of_run fun st => ?_
  have hrun : run p (o, (InStream.short (bs ++ r)).withStale st) =
      (.ok a, (o', (InStream.short r).withStale st)) := hp r st
  exact run_bind_ok hrun

/-! ### Composition -/

theorem Lax.bind {p : Loader ε σ α} {f : α → Loader ε σ β} (hp : Lax undef p)
    (hf : ∀ a, Lax undef (f a)) : Lax undef (p >>= f) :=
  fun o s heof => (hp o s heof).bind fun a o' s' heof' => hf a o' s' heof'

theorem SinksAtEnd.bind {p : Loader ε σ α} (hp : SinksAtEnd undef p) (f : α → Loader ε σ β) :
    SinksAtEnd undef (p >>= f) :=
  fun o s heof => (hp o s heof).bind f

theorem Lax.bind_sinks {p : Loader ε σ α} {f : α → Loader ε σ β} (hp : Lax undef p)
    (hf : ∀ a, SinksAtEnd undef (f a)) : SinksAtEnd undef (p >>= f) :=
  fun o s heof => (hp o s heof).bind_sinks hf

/-- The bytes that end within the first of two parts, or within the second. -/
theorem cut_append {P : List UInt8 → Prop} {bs cs : List UInt8}
    (hfirst : ∀ k < bs.length, P (bs.take k)) (hsecond : ∀ k < cs.length, P (bs ++ cs.take k)) :
    ∀ k < (bs ++ cs).length, P ((bs ++ cs).take k) := by
  intro k hk
  by_cases h : k < bs.length
  · rw [List.take_append_of_le_length h.le]
    exact hfirst k h
  · obtain ⟨i, rfl⟩ := Nat.exists_eq_add_of_le (Nat.le_of_not_lt h)
    rw [List.take_length_add_append]
    refine hsecond i ?_
    rw [List.length_append] at hk
    omega

theorem Cuts.bind {p : Loader ε σ α} {f : α → Loader ε σ β} {bs cs : List UInt8} {o o' : σ} {a : α}
    (hload : Loads p bs o o' a) (hp : Cuts undef p bs o) (hlax : ∀ a, Lax undef (f a))
    (hf : Cuts undef (f a) cs o') : Cuts undef (p >>= f) (bs ++ cs) o :=
  cut_append (P := fun bs => Slips undef (p >>= f) o (.short bs))
    (fun k hk => (hp k hk).bind fun a o' s' heof => hlax a o' s' heof)
    fun k hk => hload.slips_bind (hf k hk)

/-- `Cuts.bind` for a first loader that never returns from a short stream. -/
theorem CutsSink.bind {p : Loader ε σ α} {f : α → Loader ε σ β} {bs cs : List UInt8} {o o' : σ}
    {a : α} (hp : CutsSink undef p bs o) (hload : Loads p bs o o' a)
    (hf : Cuts undef (f a) cs o') : Cuts undef (p >>= f) (bs ++ cs) o :=
  cut_append (P := fun bs => Slips undef (p >>= f) o (.short bs))
    (fun k hk => .sinks ((hp k hk).bind f)) fun k hk => hload.slips_bind (hf k hk)

theorem CutsSink.bind_sink {p : Loader ε σ α} {f : α → Loader ε σ β} {bs cs : List UInt8}
    {o o' : σ} {a : α} (hp : CutsSink undef p bs o) (hload : Loads p bs o o' a)
    (hf : CutsSink undef (f a) cs o') : CutsSink undef (p >>= f) (bs ++ cs) o :=
  cut_append (P := fun bs => Sinks undef (p >>= f) o (.short bs))
    (fun k hk => (hp k hk).bind f) fun k hk => hload.sinks_bind (hf k hk)

/-- `Cuts.bind` for a second loader that never returns from a stream that has ended. -/
theorem Cuts.bind_sinks {p : Loader ε σ α} {f : α → Loader ε σ β} {bs cs : List UInt8} {o o' : σ}
    {a : α} (hload : Loads p bs o o' a) (hp : Cuts undef p bs o)
    (hend : ∀ a, SinksAtEnd undef (f a)) (hf : CutsSink undef (f a) cs o') :
    CutsSink undef (p >>= f) (bs ++ cs) o :=
  cut_append (P := fun bs => Sinks undef (p >>= f) o (.short bs))
    (fun k hk => (hp k hk).bind_sinks hend) fun k hk => hload.sinks_bind (hf k hk)

/-- `CutsSink.bind` for parsers. -/
theorem CutsSink.parser_bind {p : Parser ε α} {f : α → Parser ε β} {bs cs : List UInt8} {o : σ}
    {a : α} (hp : CutsSink undef (ofParser p) bs o) (hread : p.Reads bs a)
    (hf : Cuts undef (ofParser (f a)) cs o) : Cuts undef (ofParser (p >>= f)) (bs ++ cs) o := by
  rw [ofParser_bind]
  exact hp.bind (loads_ofParser hread o) hf

theorem Lax.parser_bind {p : Parser ε α} {f : α → Parser ε β}
    (hp : Lax undef (ofParser p : Loader ε σ α))
    (hf : ∀ a, Lax undef (ofParser (f a) : Loader ε σ β)) :
    Lax undef (ofParser (p >>= f) : Loader ε σ β) := by
  rw [ofParser_bind]
  exact hp.bind hf

/-- `Cuts.bind` for a first loader that consumes nothing. -/
theorem Cuts.bind_nil {p : Loader ε σ α} {f : α → Loader ε σ β} {bs : List UInt8} {o o' : σ}
    {a : α} (hload : Loads p [] o o' a) (hf : Cuts undef (f a) bs o') :
    Cuts undef (p >>= f) bs o :=
  fun k hk => hload.slips_bind (hf k hk)

theorem CutsSink.bind_nil {p : Loader ε σ α} {f : α → Loader ε σ β} {bs : List UInt8} {o o' : σ}
    {a : α} (hload : Loads p [] o o' a) (hf : CutsSink undef (f a) bs o') :
    CutsSink undef (p >>= f) bs o :=
  fun k hk => hload.sinks_bind (hf k hk)

/-- `Cuts.bind` for a second loader that consumes nothing. -/
theorem Cuts.then_nil {p : Loader ε σ α} {f : α → Loader ε σ β} {bs : List UInt8} {o : σ}
    (hp : Cuts undef p bs o) (hlax : ∀ a, Lax undef (f a)) : Cuts undef (p >>= f) bs o :=
  fun k hk => (hp k hk).bind fun a o' s' heof => hlax a o' s' heof

theorem CutsSink.then {p : Loader ε σ α} {bs : List UInt8} {o : σ} (hp : CutsSink undef p bs o)
    (f : α → Loader ε σ β) : CutsSink undef (p >>= f) bs o :=
  fun k hk => (hp k hk).bind f

theorem cuts_nil (p : Loader ε σ α) (o : σ) : Cuts undef p [] o :=
  fun _ hk => absurd hk (Nat.not_lt_zero _)

theorem cutsSink_nil (p : Loader ε σ α) (o : σ) : CutsSink undef p [] o :=
  fun _ hk => absurd hk (Nat.not_lt_zero _)

/-! ### Primitives -/

theorem lax_pure (a : α) : Lax undef (pure a : Loader ε σ α) :=
  fun o s heof => .returns [] a o s heof fun _ => rfl

theorem lax_object : Lax undef (object : Loader ε σ σ) :=
  fun o s heof => .returns [] o o s heof fun _ => rfl

theorem lax_update (f : σ → σ) : Lax undef (update f : Loader ε σ Unit) :=
  fun o s heof => .returns [] () (f o) s heof fun _ => rfl

theorem good_of_eof {s : InStream} (heof : s.eof = true) (st : List UInt8) :
    (s.withStale st).good = false := by
  simp [InStream.good, InStream.withStale, heof]

/-- A one-byte read from a stream that has ended shows what the memory held. -/
theorem lax_getByte (old : Option UInt8) :
    Lax undef (ofParser (Parser.getByte old) : Loader ε σ UInt8) := by
  intro o s heof
  have hrun (st : List UInt8) : run (ofParser (Parser.getByte old) : Loader ε σ UInt8)
      (o, s.withStale st) =
      ((Parser.keep old { s.withStale st with fail := true }).1,
        (o, (Parser.keep (ε := ε) old { s.withStale st with fail := true }).2)) := by
    rw [ofParser, run_ofRun, Parser.getByte, Parser.run_ofRun, good_of_eof heof,
      if_neg Bool.false_ne_true]
  cases old with
  | some b =>
      exact .returns [] b o { s with fail := true } heof fun st' => hrun st'
  | none =>
      exact .returns [0] 0 o { s with fail := true } heof fun st' => hrun (0 :: st')

/-- The read of a byte that is missing. -/
theorem cuts_getByte (old : Option UInt8) (b : UInt8) (o : σ) :
    Cuts undef (ofParser (Parser.getByte old) : Loader ε σ UInt8) [b] o := by
  intro k hk
  obtain rfl : k = 0 := Nat.lt_one_iff.1 hk
  cases old with
  | some c => exact .returns [] c o ⟨[], true, true, []⟩ rfl fun st' => rfl
  | none => exact .returns [0] 0 o ⟨[], true, true, []⟩ rfl fun st' => rfl

theorem popStales_replicate (s : InStream) (n : ℕ) (st : List UInt8) :
    (s.withStale (List.replicate n 0 ++ st)).popStales n =
      (List.replicate n 0, s.withStale st) := by
  induction n with
  | zero => rfl
  | succ n ih =>
      have hpop : (s.withStale (List.replicate (n + 1) 0 ++ st)).popStale =
          (0, s.withStale (List.replicate n 0 ++ st)) := rfl
      rw [InStream.popStales, hpop]
      dsimp only
      rw [ih]
      rfl

theorem lax_readBytes (n : ℕ) :
    Lax undef (ofParser (Parser.readBytes n) : Loader ε σ (List UInt8)) := by
  intro o s heof
  refine .returns (List.replicate n 0) (List.replicate n 0) o { s with fail := true } heof
    fun st' => ?_
  have hpop := popStales_replicate { s with fail := true } n st'
  rw [ofParser, run_ofRun, Parser.readBytes, Parser.run_ofRun, good_of_eof heof,
    if_neg Bool.false_ne_true]
  rw [show { s.withStale (List.replicate n 0 ++ st') with fail := true } =
    InStream.withStale { s with fail := true } (List.replicate n 0 ++ st') from rfl, hpop]

/-- A read of bytes never throws. -/
theorem exists_run_readBytes (n : ℕ) (s : InStream) :
    ∃ bs s', Parser.run (Parser.readBytes n : Parser ε (List UInt8)) s = (.ok bs, s') := by
  rw [Parser.readBytes, Parser.run_ofRun]
  split_ifs <;> exact ⟨_, _, rfl⟩

/-- A read of more bytes than there are. -/
theorem run_readBytes_short {bs : List UInt8} {n : ℕ} (h : bs.length < n) (st : List UInt8) :
    Parser.run (Parser.readBytes n : Parser ε (List UInt8)) ⟨bs, false, false, st⟩ =
      (.ok (bs ++ (InStream.popStales (n - bs.length) ⟨[], true, true, st⟩).1),
        (InStream.popStales (n - bs.length) ⟨[], true, true, st⟩).2) := by
  rw [Parser.readBytes, Parser.run_ofRun]
  dsimp only
  rw [if_pos (show InStream.good ⟨bs, false, false, st⟩ = true from rfl), if_neg (Nat.not_le.2 h)]
  rfl

theorem cuts_readBytes (bs : List UInt8) (o : σ) :
    Cuts undef (ofParser (Parser.readBytes bs.length) : Loader ε σ (List UInt8)) bs o := by
  intro k hk
  have hlength : (bs.take k).length = k := List.length_take_of_le hk.le
  let zeros : List UInt8 := List.replicate (bs.length - k) 0
  refine .returns zeros (bs.take k ++ zeros) o ⟨[], true, true, []⟩ rfl fun st' => ?_
  have hpop := popStales_replicate ⟨[], true, true, []⟩ (bs.length - k) st'
  rw [InStream.withStale] at hpop
  rw [ofParser, run_ofRun, InStream.short, InStream.withStale]
  dsimp only
  rw [run_readBytes_short (hlength.trans_lt hk), hlength, hpop]

theorem Slips.within {p : Loader ε τ α} {part : τ} {s : InStream} (hp : Slips undef p part s)
    (put : τ → σ → σ) (o : σ) : Slips undef (Loader.within part put p) o s := by
  cases hp with
  | returns st a t s' heof h =>
      refine .returns st a (put t o) s' heof fun st' => ?_
      rw [Loader.within, run_ofRun]
      dsimp only
      rw [h st']
  | sinks h =>
      obtain ⟨st, h⟩ := h
      exact .sinks ⟨st, fun st' => h st'⟩

theorem Lax.within {p : Loader ε τ α} (hp : Lax undef p) (part : τ) (put : τ → σ → σ) :
    Lax undef (Loader.within part put p) :=
  fun o s heof => (hp part s heof).within put o

theorem Cuts.within {p : Loader ε τ α} {bs : List UInt8} {part : τ} (hp : Cuts undef p bs part)
    (put : τ → σ → σ) (o : σ) : Cuts undef (Loader.within part put p) bs o :=
  fun k hk => (hp k hk).within put o

theorem Sinks.within {p : Loader ε τ α} {part : τ} {s : InStream} (hp : Sinks undef p part s)
    (put : τ → σ → σ) (o : σ) : Sinks undef (Loader.within part put p) o s := by
  obtain ⟨st, h⟩ := hp
  exact ⟨st, fun st' => h st'⟩

/-- A handler that does not take the errors of the kind `undef`. -/
theorem Sinks.tryCatch {p : Loader ε σ α} {h : ε → Loader ε σ α} {o : σ} {s : InStream}
    (hp : Sinks undef p o s) (hh : ∀ e, undef e → h e = throw e) :
    Sinks undef (MonadExcept.tryCatch p h) o s := by
  obtain ⟨st, hsinks⟩ := hp
  refine ⟨st, fun st' => ?_⟩
  obtain ⟨e, he, hundef⟩ := hsinks st'
  refine ⟨e, ?_, hundef⟩
  rw [run_tryCatch]
  rcases hrun : run p (o, s.withStale (st ++ st')) with ⟨e' | a, s'⟩
  · rw [hrun] at he
    obtain rfl : e' = e := Except.error.inj he
    dsimp only
    rw [hh e' hundef, run_throw]
  · rw [hrun] at he
    exact absurd he (by simp)

theorem Slips.tryCatch {p : Loader ε σ α} {h : ε → Loader ε σ α} {o : σ} {s : InStream}
    (hp : Slips undef p o s) (hh : ∀ e, undef e → h e = throw e) :
    Slips undef (MonadExcept.tryCatch p h) o s := by
  cases hp with
  | sinks hsinks => exact .sinks (hsinks.tryCatch hh)
  | returns st a o' s' heof hrun =>
      refine .returns st a o' s' heof fun st' => ?_
      rw [run_tryCatch, hrun st']

theorem Cuts.tryCatch {p : Loader ε σ α} {h : ε → Loader ε σ α} {bs : List UInt8} {o : σ}
    (hp : Cuts undef p bs o) (hh : ∀ e, undef e → h e = throw e) :
    Cuts undef (MonadExcept.tryCatch p h) bs o :=
  fun k hk => (hp k hk).tryCatch hh

end Loader
