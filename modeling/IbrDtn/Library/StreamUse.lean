import IbrDtn.Library.InStream

/-!
# Programs that only read their stream

The programs of an input stream advance it, and meet its end.  They never put bytes back, and
never clear a state bit.  A property of streams that survives these changes is `Closed`, and a
program under which every closed property survives is `ReadOnly`.  Being read-only is closed under
the combinators, so that it is found by instance search for a program that is built from them.

## Main definitions

* `InStream.Closed` : the properties of streams that reading does not end.
* `Parser.ReadOnly`, `Loader.ReadOnly` : the programs that keep all of them.
* `Loader.Consumes` : the programs that consume a byte if there is one.

## Main results

* `InStream.closed_eof`, `InStream.closed_within` : a stream that has ended stays so, and the
  bytes that are left never become more.
-/

namespace InStream

/-- The properties of streams that reading does not end: not by the bytes that it consumes, by the
bits that it sets, or by the stale memory that it shows. -/
structure Closed (J : InStream → Prop) : Prop where
  advance : ∀ {s r}, J s → s.good = true → r <:+ s.rest → J { s with rest := r }
  exhaust : ∀ {s}, J s → s.good = true → J s.exhaust
  reach : ∀ {s}, J s → s.good = true → s.rest = [] → J { s with eof := true }
  refuse : ∀ {s}, J s → s.good = false → J { s with fail := true }
  stale : ∀ {s}, J s → ∀ st, J { s with stale := st }

theorem good_iff (s : InStream) : s.good = true ↔ s.eof = false ∧ s.fail = false := by
  simp [good]

/-- A stream that has met its end stays at its end. -/
theorem closed_eof : Closed fun s => s.eof = true :=
  ⟨fun h _ _ => h, fun _ _ => rfl, fun _ _ _ => rfl, fun h _ => h, fun h _ => h⟩

/-- The bytes that are left never become more, and a stream fails only at its end. -/
theorem closed_within (n : ℕ) :
    Closed fun s => s.rest.length ≤ n ∧ (s.fail = true → s.eof = true) where
  advance := fun h _ hr => ⟨hr.length_le.trans h.1, h.2⟩
  exhaust := fun _ _ => ⟨Nat.zero_le n, fun _ => rfl⟩
  reach := fun h _ _ => ⟨h.1, fun _ => rfl⟩
  refuse := by
    intro s h hbad
    refine ⟨h.1, fun _ => ?_⟩
    by_contra heof
    have hgood := (good_iff s).2 ⟨Bool.eq_false_iff.2 heof, Bool.eq_false_iff.2 (mt h.2 heof)⟩
    exact Bool.false_ne_true (hbad.symm.trans hgood)
  stale := fun h _ => h

variable {J : InStream → Prop}

theorem Closed.popStale (hJ : Closed J) {s : InStream} (h : J s) : J s.popStale.2 := by
  rw [InStream.popStale]
  split
  · exact h
  · exact hJ.stale h _

theorem Closed.popStales (hJ : Closed J) {s : InStream} (h : J s) (n : ℕ) :
    J (s.popStales n).2 := by
  induction n generalizing s with
  | zero => exact h
  | succ n ih => exact ih (hJ.popStale h)

end InStream

open InStream (Closed)

/-! ### Parsers -/

namespace Parser

variable {ε α β : Type}

/-- The program keeps every closed property of its stream, whether it returns or throws. -/
class ReadOnly (p : Parser ε α) : Prop where
  keeps : ∀ {J : InStream → Prop}, Closed J → ∀ s, J s → J (run p s).2

instance (a : α) : ReadOnly (pure a : Parser ε α) := ⟨fun _ _ h => h⟩

instance (e : ε) : ReadOnly (throw e : Parser ε α) := ⟨fun _ _ h => h⟩

theorem ReadOnly.bind {p : Parser ε α} {f : α → Parser ε β} (hp : ReadOnly p)
    (hf : ∀ a, ReadOnly (f a)) : ReadOnly (p >>= f) := by
  refine ⟨fun hJ s h => ?_⟩
  rw [run_bind]
  have hkept := hp.keeps hJ s h
  rcases hrun : run p s with ⟨e | a, s'⟩
  · rw [hrun] at hkept
    exact hkept
  · rw [hrun] at hkept
    exact (hf a).keeps hJ s' hkept

instance (p : Parser ε α) (f : α → Parser ε β) [hp : ReadOnly p] [hf : ∀ a, ReadOnly (f a)] :
    ReadOnly (p >>= f) :=
  hp.bind hf

instance (p : Parser ε α) (h : ε → Parser ε α) [hp : ReadOnly p] [hh : ∀ e, ReadOnly (h e)] :
    ReadOnly (MonadExcept.tryCatch p h) := by
  refine ⟨fun hJ s hs => ?_⟩
  rw [run_tryCatch]
  have hkept := hp.keeps hJ s hs
  rcases hrun : run p s with ⟨e | a, s'⟩
  · rw [hrun] at hkept
    exact (hh e).keeps hJ s' hkept
  · rw [hrun] at hkept
    exact hkept

instance (c : Prop) [Decidable c] (p q : Parser ε α) [ReadOnly p] [ReadOnly q] :
    ReadOnly (if c then p else q) := by
  split <;> infer_instance

instance (x : Except ε α) : ReadOnly (MonadExcept.ofExcept x : Parser ε α) := by
  cases x with
  | error e => exact inferInstanceAs (ReadOnly (throw e))
  | ok a => exact inferInstanceAs (ReadOnly (pure a))

theorem keep_keeps {J : InStream → Prop} (hJ : Closed J) (old : Option UInt8) {s : InStream}
    (h : J s) : J (keep old s : Except ε UInt8 × InStream).2 := by
  cases old with
  | none => exact hJ.popStale h
  | some b => exact h

instance (old : Option UInt8) : ReadOnly (getByte old : Parser ε UInt8) := by
  refine ⟨fun hJ s h => ?_⟩
  rw [getByte, run_ofRun]
  split
  · rename_i hgood
    split
    · rename_i b r hrest
      exact hJ.advance h hgood (hrest ▸ List.suffix_cons b r)
    · exact keep_keeps hJ old (hJ.exhaust h hgood)
  · rename_i hbad
    exact keep_keeps hJ old (hJ.refuse h (Bool.eq_false_iff.2 hbad))

instance (old : Option UInt8) : ReadOnly (extractByte old : Parser ε UInt8) := by
  refine ⟨fun hJ s h => ?_⟩
  rw [extractByte, run_ofRun]
  split
  · rename_i hgood
    split
    · rename_i b r hrest
      exact hJ.advance h hgood
        ((hrest ▸ List.suffix_cons b r : r <:+ _).trans (List.dropWhile_suffix isSpace))
    · exact keep_keeps hJ old (hJ.exhaust h hgood)
  · rename_i hbad
    exact keep_keeps hJ old (hJ.refuse h (Bool.eq_false_iff.2 hbad))

instance (n : ℕ) : ReadOnly (readBytes n : Parser ε (List UInt8)) := by
  refine ⟨fun hJ s h => ?_⟩
  rw [readBytes, run_ofRun]
  split
  · rename_i hgood
    split
    · exact hJ.advance h hgood (List.drop_suffix n s.rest)
    · exact hJ.popStales (hJ.exhaust h hgood) _
  · rename_i hbad
    exact hJ.popStales (hJ.refuse h (Bool.eq_false_iff.2 hbad)) n

instance : ReadOnly (remaining : Parser ε ℕ) := ⟨fun _ _ h => h⟩

end Parser

/-! ### Loaders -/

namespace Loader

variable {ε σ τ α β : Type}

/-- The program keeps every closed property of its stream, whether it returns or throws. -/
class ReadOnly (p : Loader ε σ α) : Prop where
  keeps : ∀ {J : InStream → Prop}, Closed J → ∀ s, J s.2 → J (run p s).2.2

instance (a : α) : ReadOnly (pure a : Loader ε σ α) := ⟨fun _ _ h => h⟩

instance (e : ε) : ReadOnly (throw e : Loader ε σ α) := ⟨fun _ _ h => h⟩

instance : ReadOnly (object : Loader ε σ σ) := ⟨fun _ _ h => h⟩

instance (f : σ → σ) : ReadOnly (update f : Loader ε σ Unit) := ⟨fun _ _ h => h⟩

instance (p : Parser ε α) [hp : p.ReadOnly] : ReadOnly (ofParser p : Loader ε σ α) :=
  ⟨fun hJ s h => hp.keeps hJ s.2 h⟩

instance (part : τ) (put : τ → σ → σ) (p : Loader ε τ α) [hp : ReadOnly p] :
    ReadOnly (within part put p) :=
  ⟨fun hJ s h => hp.keeps hJ (part, s.2) h⟩

theorem ReadOnly.bind {p : Loader ε σ α} {f : α → Loader ε σ β} (hp : ReadOnly p)
    (hf : ∀ a, ReadOnly (f a)) : ReadOnly (p >>= f) := by
  refine ⟨fun hJ s h => ?_⟩
  rw [run_bind]
  have hkept := hp.keeps hJ s h
  rcases hrun : run p s with ⟨e | a, s'⟩
  · rw [hrun] at hkept
    exact hkept
  · rw [hrun] at hkept
    exact (hf a).keeps hJ s' hkept

instance (p : Loader ε σ α) (f : α → Loader ε σ β) [hp : ReadOnly p] [hf : ∀ a, ReadOnly (f a)] :
    ReadOnly (p >>= f) :=
  hp.bind hf

instance (p : Loader ε σ α) (h : ε → Loader ε σ α) [hp : ReadOnly p] [hh : ∀ e, ReadOnly (h e)] :
    ReadOnly (MonadExcept.tryCatch p h) := by
  refine ⟨fun hJ s hs => ?_⟩
  rw [run_tryCatch]
  have hkept := hp.keeps hJ s hs
  rcases hrun : run p s with ⟨e | a, s'⟩
  · rw [hrun] at hkept
    exact (hh e).keeps hJ s' hkept
  · rw [hrun] at hkept
    exact hkept

instance (c : Prop) [Decidable c] (p q : Loader ε σ α) [ReadOnly p] [ReadOnly q] :
    ReadOnly (if c then p else q) := by
  split <;> infer_instance

instance (x : Except ε α) : ReadOnly (MonadExcept.ofExcept x : Loader ε σ α) := by
  cases x with
  | error e => exact inferInstanceAs (ReadOnly (throw e))
  | ok a => exact inferInstanceAs (ReadOnly (pure a))

/-! ### Programs that consume a byte -/

/-- On a good stream with a byte, the program keeps every closed property of the stream behind
that byte, whether it returns or throws. -/
structure Consumes (p : Loader ε σ α) : Prop where
  keeps : ∀ {J : InStream → Prop}, Closed J → ∀ o b r st, J ⟨r, false, false, st⟩ →
    J (run p (o, ⟨b :: r, false, false, st⟩)).2.2

theorem consumes_getByte (old : Option UInt8) :
    Consumes (ofParser (Parser.getByte old) : Loader ε σ UInt8) :=
  ⟨fun _ _ _ _ _ h => h⟩

theorem Consumes.bind {p : Loader ε σ α} {f : α → Loader ε σ β} (hp : Consumes p)
    (hf : ∀ a, ReadOnly (f a)) : Consumes (p >>= f) := by
  refine ⟨fun hJ o b r st h => ?_⟩
  rw [run_bind]
  have hkept := hp.keeps hJ o b r st h
  rcases hrun : run p (o, ⟨b :: r, false, false, st⟩) with ⟨e | a, s'⟩
  · rw [hrun] at hkept
    exact hkept
  · rw [hrun] at hkept
    exact (hf a).keeps hJ s' hkept

theorem consumes_object_bind {f : σ → Loader ε σ β} (hf : ∀ o, Consumes (f o)) :
    Consumes (object >>= f) := by
  refine ⟨fun hJ o b r st h => ?_⟩
  rw [run_bind_ok (run_object _)]
  exact (hf o).keeps hJ o b r st h

theorem consumes_update_bind {g : σ → σ} {f : Unit → Loader ε σ β} (hf : Consumes (f ())) :
    Consumes (update g >>= f) := by
  refine ⟨fun hJ o b r st h => ?_⟩
  rw [run_bind_ok (run_update _ _)]
  exact hf.keeps hJ (g o) b r st h

theorem Consumes.within {p : Loader ε τ α} (hp : Consumes p) (part : τ) (put : τ → σ → σ) :
    Consumes (Loader.within part put p) :=
  ⟨fun hJ _ b r st h => hp.keeps hJ part b r st h⟩

theorem Consumes.tryCatch {p : Loader ε σ α} {h : ε → Loader ε σ α} (hp : Consumes p)
    (hh : ∀ e, ReadOnly (h e)) : Consumes (MonadExcept.tryCatch p h) := by
  refine ⟨fun hJ o b r st hs => ?_⟩
  rw [run_tryCatch]
  have hkept := hp.keeps hJ o b r st hs
  rcases hrun : run p (o, ⟨b :: r, false, false, st⟩) with ⟨e | a, s'⟩
  · rw [hrun] at hkept
    exact (hh e).keeps hJ s' hkept
  · rw [hrun] at hkept
    exact hkept

theorem consumes_throw_tryCatch {e : ε} {h : ε → Loader ε σ α} (hh : Consumes (h e)) :
    Consumes (MonadExcept.tryCatch (throw e) h) := by
  refine ⟨fun hJ o b r st hs => ?_⟩
  rw [run_tryCatch, run_throw]
  exact hh.keeps hJ o b r st hs

end Loader
