import IbrDtn.Library.ShortStream

/-!
# Grammars of programs that read short streams

A grammar says which bytes spell a value, and which bytes a reader turns down.  Grammars are a
monad, so that one can be written down next to the program that reads by it.

A program that does not check the state of its stream obeys a grammar if it reads what is spelled,
turns down what is refused, and slips on bytes that end too early.  Where neither of these is found,
some stale memory makes it fail without an exception, or the bytes are the beginning of spelled
ones.

## Main definitions

* `Grammar` : the bytes that spell a value, and those that are refused.
* `Grammar.repeatWhile` : parts one behind the other, as long as a condition holds.
* `Grammar.Obeys` : what a program does with bytes up to a given length.

## Main results

* `Grammar.Obeys.bind` : the composition rule.
* `Grammar.Obeys.orderly_iff` : the bytes on which a program never misbehaves.
-/

/-- The bytes that spell a value, and those that are refused. -/
@[ext]
structure Grammar (α : Type) where
  spelled : List UInt8 → α → Prop
  refused : List UInt8 → Prop

namespace Parser

variable {ε α : Type}

/-- Whatever the memory holds, the program returns or throws what is caught. -/
def Orderly (caught : ε → Prop) (p : Parser ε α) (bs : List UInt8) : Prop :=
  ∀ st e, (p.run ⟨bs, false, false, st⟩).1 = .error e → caught e

/-- Whatever the memory holds, the program throws what is caught. -/
def Silent (caught : ε → Prop) (p : Parser ε α) (bs : List UInt8) : Prop :=
  ∀ st, ∃ e, (p.run ⟨bs, false, false, st⟩).1 = .error e ∧ caught e

variable {caught : ε → Prop} {bs cs : List UInt8}

theorem orderly_congr {p q : Parser ε α}
    (h : ∀ st, (p.run ⟨bs, false, false, st⟩).1 = (q.run ⟨cs, false, false, st⟩).1) :
    p.Orderly caught bs ↔ q.Orderly caught cs := by
  simp only [Orderly, h]

theorem silent_congr {p q : Parser ε α}
    (h : ∀ st, (p.run ⟨bs, false, false, st⟩).1 = (q.run ⟨cs, false, false, st⟩).1) :
    p.Silent caught bs ↔ q.Silent caught cs := by
  simp only [Silent, h]

end Parser

namespace Grammar

variable {α β γ σ ε : Type}

/-- A value without bytes. -/
protected def pure (a : α) : Grammar α where
  spelled bs b := bs = [] ∧ b = a
  refused _ := False

/-- One part behind the other. -/
protected def bind (g : Grammar α) (k : α → Grammar β) : Grammar β where
  spelled bs b := ∃ bs₁ a bs₂, g.spelled bs₁ a ∧ (k a).spelled bs₂ b ∧ bs = bs₁ ++ bs₂
  refused bs := g.refused bs ∨
    ∃ bs₁ a bs₂, g.spelled bs₁ a ∧ (k a).refused bs₂ ∧ bs = bs₁ ++ bs₂

instance : Monad Grammar where
  pure := Grammar.pure
  bind := Grammar.bind

theorem id_map_eq (g : Grammar α) : id <$> g = g := by
  ext bs
  · constructor
    · rintro ⟨bs₁, b, bs₂, hb, ⟨rfl, rfl⟩, rfl⟩
      rwa [List.append_nil]
    · intro h
      exact ⟨bs, _, [], h, ⟨rfl, rfl⟩, (List.append_nil bs).symm⟩
  · constructor
    · rintro (h | ⟨_, _, _, _, h, _⟩)
      · exact h
      · exact h.elim
    · exact .inl

theorem pure_bind_eq (a : α) (k : α → Grammar β) : pure a >>= k = k a := by
  ext bs
  · constructor
    · rintro ⟨_, _, bs₂, ⟨rfl, rfl⟩, h, rfl⟩
      exact h
    · intro h
      exact ⟨[], a, bs, ⟨rfl, rfl⟩, h, rfl⟩
  · constructor
    · rintro (h | ⟨_, _, bs₂, ⟨rfl, rfl⟩, h, rfl⟩)
      · exact h.elim
      · exact h
    · intro h
      exact .inr ⟨[], a, bs, ⟨rfl, rfl⟩, h, rfl⟩

theorem bind_assoc_eq (g : Grammar α) (k : α → Grammar β) (l : β → Grammar γ) :
    g >>= k >>= l = g >>= fun a => k a >>= l := by
  ext bs
  · constructor
    · rintro ⟨_, b, bs₃, ⟨bs₁, a, bs₂, h₁, h₂, rfl⟩, h₃, rfl⟩
      exact ⟨bs₁, a, bs₂ ++ bs₃, h₁, ⟨bs₂, b, bs₃, h₂, h₃, rfl⟩, List.append_assoc _ _ _⟩
    · rintro ⟨bs₁, a, _, h₁, ⟨bs₂, b, bs₃, h₂, h₃, rfl⟩, rfl⟩
      exact ⟨bs₁ ++ bs₂, b, bs₃, ⟨bs₁, a, bs₂, h₁, h₂, rfl⟩, h₃,
        (List.append_assoc _ _ _).symm⟩
  · constructor
    · rintro ((h | ⟨bs₁, a, bs₂, h₁, h₂, rfl⟩) | ⟨_, b, bs₃, ⟨bs₁, a, bs₂, h₁, h₂, rfl⟩, h₃, rfl⟩)
      · exact .inl h
      · exact .inr ⟨bs₁, a, bs₂, h₁, .inl h₂, rfl⟩
      · exact .inr ⟨bs₁, a, bs₂ ++ bs₃, h₁, .inr ⟨bs₂, b, bs₃, h₂, h₃, rfl⟩,
          List.append_assoc _ _ _⟩
    · rintro (h | ⟨bs₁, a, _, h₁, h₂ | ⟨bs₂, b, bs₃, h₂, h₃, rfl⟩, rfl⟩)
      · exact .inl (.inl h)
      · exact .inl (.inr ⟨bs₁, a, _, h₁, h₂, rfl⟩)
      · exact .inr ⟨bs₁ ++ bs₂, b, bs₃, ⟨bs₁, a, bs₂, h₁, h₂, rfl⟩, h₃,
          (List.append_assoc _ _ _).symm⟩

instance : LawfulMonad Grammar :=
  LawfulMonad.mk' Grammar id_map_eq pure_bind_eq bind_assoc_eq

/-! ### Parts -/

/-- One byte. -/
def byte : Grammar UInt8 where
  spelled bs b := bs = [b]
  refused _ := False

/-- The given number of bytes. -/
def bytes (n : ℕ) : Grammar (List UInt8) where
  spelled bs cs := bs = cs ∧ cs.length = n
  refused _ := False

section RepeatWhile

variable (g : Grammar α) (again : σ → Bool) (step : σ → α → σ)

/-- Values one behind the other, as long as `again` holds of a variable that every value steps. -/
inductive Repeats : σ → List UInt8 → List α → Prop where
  | done {x : σ} (h : again x = false) : Repeats x [] []
  | more {x : σ} {a : α} {as : List α} {bs bs' : List UInt8} (h : again x = true)
      (ha : g.spelled bs a) (has : Repeats (step x a) bs' as) : Repeats x (bs ++ bs') (a :: as)

/-- The same, up to one that is refused. -/
inductive Breaks : σ → List UInt8 → Prop where
  | here {x : σ} {bs : List UInt8} (h : again x = true) (hbs : g.refused bs) : Breaks x bs
  | later {x : σ} {a : α} {bs bs' : List UInt8} (h : again x = true) (ha : g.spelled bs a)
      (hbs : Breaks (step x a) bs') : Breaks x (bs ++ bs')

/-- The grammar of a loop. -/
def repeatWhile (x : σ) : Grammar (List α) where
  spelled := Repeats g again step x
  refused := Breaks g again step x

variable {g again step}

theorem repeatWhile_of_false {x : σ} (h : again x = false) :
    g.repeatWhile again step x = pure [] := by
  ext bs as
  · constructor
    · rintro (_ | ⟨h', -, -⟩)
      · exact ⟨rfl, rfl⟩
      · exact absurd (h.symm.trans h') Bool.false_ne_true
    · rintro ⟨rfl, rfl⟩
      exact .done h
  · constructor
    · rintro (⟨h', -⟩ | ⟨h', -, -⟩) <;> exact absurd (h.symm.trans h') Bool.false_ne_true
    · exact False.elim

theorem repeatWhile_of_true {x : σ} (h : again x = true) :
    g.repeatWhile again step x =
      g >>= fun a => g.repeatWhile again step (step x a) >>= fun as => pure (a :: as) := by
  ext bs as
  · constructor
    · rintro (h' | ⟨-, ha, has⟩)
      · exact absurd (h'.symm.trans h) Bool.false_ne_true
      · exact ⟨_, _, _, ha, ⟨_, _, [], has, ⟨rfl, rfl⟩, (List.append_nil _).symm⟩, rfl⟩
    · rintro ⟨bs₁, a, _, ha, ⟨bs₂, as, _, has, ⟨rfl, rfl⟩, rfl⟩, rfl⟩
      rw [List.append_nil]
      exact .more h ha has
  · constructor
    · rintro (⟨-, hbs⟩ | ⟨-, ha, hbs⟩)
      · exact .inl hbs
      · exact .inr ⟨_, _, _, ha, .inl hbs, rfl⟩
    · rintro (hbs | ⟨bs₁, a, bs₂, ha, hbs | ⟨_, _, _, _, hbs, _⟩, rfl⟩)
      · exact .here h hbs
      · exact .later h ha hbs
      · exact hbs.elim

end RepeatWhile

/-! ### Programs -/

open Loader (ofParser ofParser_bind ofParser_pure Lax Slips Sinks loads_ofParser)

/-- What a program does with up to `n` bytes: it reads those that are spelled and turns down those
that are refused, in the way of `caught`; it slips on the beginnings of spelled ones; and there are
no other bytes that it can be trusted with. -/
structure Obeys (undef caught : ε → Prop) (p : Parser ε α) (g : Grammar α) (n : ℕ) : Prop where
  lax : Lax undef (ofParser p : Loader ε Unit α)
  productive : ∃ bs a, g.spelled bs a
  reads {bs : List UInt8} {a : α} (h : g.spelled bs a) (hlen : bs.length ≤ n) : p.Reads bs a
  refuses {bs : List UInt8} (h : g.refused bs) (hlen : bs.length ≤ n) :
    ∃ e, caught e ∧ p.Throws bs e
  cuts {bs ext : List UInt8} {a : α} (h : g.spelled (bs ++ ext) a) (hne : ext ≠ [])
    (hlen : bs.length ≤ n) : Slips undef (ofParser p : Loader ε Unit α) () (.short bs)
  total (bs : List UInt8) (hlen : bs.length ≤ n) :
    (∃ bs' a rest, g.spelled bs' a ∧ bs = bs' ++ rest) ∨
      (∃ bs' rest, g.refused bs' ∧ bs = bs' ++ rest) ∨
      Sinks undef (ofParser p : Loader ε Unit α) () (.short bs) ∨
      ∃ ext a, ext ≠ [] ∧ g.spelled (bs ++ ext) a

variable {undef caught : ε → Prop} {p : Parser ε α} {g : Grammar α} {n m : ℕ}

theorem obeys_pure (a : α) (n : ℕ) :
    Obeys undef caught (pure a : Parser ε α) (pure a) n where
  lax := Loader.lax_pure a
  productive := ⟨[], a, rfl, rfl⟩
  reads := by
    rintro bs b ⟨rfl, rfl⟩ -
    exact Parser.reads_pure b
  refuses h := h.elim
  cuts h hne := absurd (List.append_eq_nil_iff.1 h.1).2 hne
  total bs _ := .inl ⟨[], a, bs, ⟨rfl, rfl⟩, rfl⟩

/-- A program that fails where everything that is spelled or refused is too long. -/
theorem obeys_throw {e : ε} (he : undef e) (hproductive : ∃ bs a, g.spelled bs a)
    (hspelled : ∀ bs a, g.spelled bs a → n < bs.length)
    (hrefused : ∀ bs, g.refused bs → n < bs.length) :
    Obeys undef caught (throw e : Parser ε α) g n := by
  have hsinks (o : Unit) (s : InStream) :
      Sinks undef (ofParser (throw e) : Loader ε Unit α) o s := ⟨[], fun st' => ⟨e, rfl, he⟩⟩
  exact {
    lax := fun o s _ => .sinks (hsinks o s)
    productive := hproductive
    reads := fun h hlen => absurd hlen (Nat.not_le.2 (hspelled _ _ h))
    refuses := fun h hlen => absurd hlen (Nat.not_le.2 (hrefused _ h))
    cuts := fun _ _ _ => .sinks (hsinks () _)
    total := fun _ _ => .inr (.inr (.inl (hsinks () _))) }

/-- **The composition rule.** What the second program reads is shorter by what the first one
does. -/
theorem Obeys.bind_of_le {f : α → Parser ε β} {k : α → Grammar β}
    (hp : Obeys undef caught p g n) (hf : ∀ a, Obeys undef caught (f a) (k a) m)
    (hle : ∀ bs a, g.spelled bs a → n ≤ bs.length + m) :
    Obeys undef caught (p >>= f) (g >>= k) n where
  lax := hp.lax.parser_bind fun a => (hf a).lax
  productive := by
    obtain ⟨bs₁, a, h₁⟩ := hp.productive
    obtain ⟨bs₂, b, h₂⟩ := (hf a).productive
    exact ⟨_, b, bs₁, a, bs₂, h₁, h₂, rfl⟩
  reads := by
    rintro bs b ⟨bs₁, a, bs₂, h₁, h₂, rfl⟩ hlen
    have hn := hle bs₁ a h₁
    rw [List.length_append] at hlen
    exact (hp.reads h₁ (by omega)).bind ((hf a).reads h₂ (by omega))
  refuses := by
    rintro bs (h | ⟨bs₁, a, bs₂, h₁, h₂, rfl⟩) hlen
    · obtain ⟨e, he, hthrows⟩ := hp.refuses h hlen
      exact ⟨e, he, hthrows.bind f⟩
    · have hn := hle bs₁ a h₁
      rw [List.length_append] at hlen
      obtain ⟨e, he, hthrows⟩ := (hf a).refuses h₂ (by omega)
      exact ⟨e, he, (hp.reads h₁ (by omega)).bind_throws hthrows⟩
  cuts := by
    rintro bs ext b ⟨bs₁, a, bs₂, h₁, h₂, heq⟩ hne hlen
    rw [ofParser_bind]
    rcases List.append_eq_append_iff.1 heq with ⟨cs, rfl, rfl⟩ | ⟨cs, rfl, rfl⟩
    · by_cases hcs : cs = []
      · subst hcs
        rw [List.append_nil] at h₁
        have hn := hle bs a h₁
        have hload := loads_ofParser (σ := Unit) (hp.reads h₁ hlen) ()
        have hcut : Slips undef (ofParser (f a)) () (.short []) :=
          (hf a).cuts h₂ hne (Nat.zero_le m)
        have hslips := hload.slips_bind (f := fun a => ofParser (f a)) hcut
        rwa [List.append_nil] at hslips
      · exact (hp.cuts h₁ hcs hlen).bind fun a o' s' heof => (hf a).lax o' s' heof
    · have hn := hle bs₁ a h₁
      rw [List.length_append] at hlen
      have hload := loads_ofParser (σ := Unit) (hp.reads h₁ (by omega)) ()
      exact hload.slips_bind ((hf a).cuts h₂ hne (by omega))
  total := by
    intro bs hlen
    rw [ofParser_bind]
    rcases hp.total bs hlen with
      ⟨bs₁, a, rest, h₁, rfl⟩ | ⟨bs₁, rest, h₁, rfl⟩ | h | ⟨ext, a, hne, h₁⟩
    · have hn := hle bs₁ a h₁
      rw [List.length_append] at hlen
      have hload := loads_ofParser (σ := Unit) (hp.reads h₁ (by omega)) ()
      rcases (hf a).total rest (by omega) with
        ⟨bs₂, b, rest, h₂, rfl⟩ | ⟨bs₂, rest, h₂, rfl⟩ | h | ⟨ext, b, hne, h₂⟩
      · exact .inl ⟨bs₁ ++ bs₂, b, rest, ⟨bs₁, a, bs₂, h₁, h₂, rfl⟩, (List.append_assoc _ _ _).symm⟩
      · exact .inr (.inl ⟨bs₁ ++ bs₂, rest, .inr ⟨bs₁, a, bs₂, h₁, h₂, rfl⟩,
          (List.append_assoc _ _ _).symm⟩)
      · exact .inr (.inr (.inl (hload.sinks_bind h)))
      · exact .inr (.inr (.inr ⟨ext, b, hne, bs₁, a, rest ++ ext, h₁, h₂, List.append_assoc _ _ _⟩))
    · exact .inr (.inl ⟨bs₁, rest, .inl h₁, rfl⟩)
    · exact .inr (.inr (.inl (h.bind _)))
    · obtain ⟨bs₂, b, h₂⟩ := (hf a).productive
      exact .inr (.inr (.inr ⟨ext ++ bs₂, b, fun hnil => hne (List.append_eq_nil_iff.1 hnil).1,
        bs ++ ext, a, bs₂, h₁, h₂, (List.append_assoc _ _ _).symm⟩))

/-- **The composition rule**, for bytes up to one length. -/
theorem Obeys.bind {f : α → Parser ε β} {k : α → Grammar β} (hp : Obeys undef caught p g n)
    (hf : ∀ a, Obeys undef caught (f a) (k a) n) : Obeys undef caught (p >>= f) (g >>= k) n :=
  hp.bind_of_le hf fun _ _ _ => Nat.le_add_left _ _

theorem obeys_getByte (old : Option UInt8) (n : ℕ) :
    Obeys undef caught (Parser.getByte old : Parser ε UInt8) byte n where
  lax := Loader.lax_getByte old
  productive := ⟨[0], 0, rfl⟩
  reads := by
    rintro bs b rfl -
    exact Parser.reads_getByte old b
  refuses h := h.elim
  cuts {bs ext b} h hne _ := by
    obtain rfl : bs = [] := by
      cases bs with
      | nil => rfl
      | cons c bs =>
          have htail := congrArg List.tail h
          exact absurd (List.append_eq_nil_iff.1 htail).2 hne
    exact Loader.cuts_getByte old b () 0 Nat.one_pos
  total bs _ := by
    cases bs with
    | nil => exact .inr (.inr (.inr ⟨[0], 0, List.cons_ne_nil _ _, rfl⟩))
    | cons b rest => exact .inl ⟨[b], b, rest, rfl, rfl⟩

theorem obeys_readBytes (k n : ℕ) :
    Obeys undef caught (Parser.readBytes k : Parser ε (List UInt8)) (bytes k) n where
  lax := Loader.lax_readBytes k
  productive := ⟨List.replicate k 0, _, rfl, List.length_replicate⟩
  reads := by
    rintro bs cs ⟨rfl, rfl⟩ -
    exact Parser.reads_readBytes bs
  refuses h := h.elim
  cuts := by
    rintro bs ext cs ⟨rfl, rfl⟩ hne -
    have hlt : bs.length < (bs ++ ext).length := by
      rw [List.length_append]
      exact Nat.lt_add_of_pos_right (List.length_pos_iff.2 hne)
    have hslips : Slips undef (ofParser (Parser.readBytes (bs ++ ext).length) : Loader ε Unit _) ()
        (.short ((bs ++ ext).take bs.length)) := Loader.cuts_readBytes (bs ++ ext) () bs.length hlt
    rwa [List.take_left] at hslips
  total bs _ := by
    by_cases hk : k ≤ bs.length
    · exact .inl ⟨bs.take k, _, bs.drop k, ⟨rfl, List.length_take_of_le hk⟩,
        (List.take_append_drop k bs).symm⟩
    · refine .inr (.inr (.inr ⟨List.replicate (k - bs.length) 0, _, ?_, rfl, ?_⟩))
      · rw [ne_eq, List.replicate_eq_nil_iff]
        omega
      · rw [List.length_append, List.length_replicate]
        omega

/-- Bytes are needed for a value, and to be refused. -/
structure Consumes (g : Grammar α) : Prop where
  spelled (bs : List UInt8) (a : α) (h : g.spelled bs a) : bs ≠ []
  refused (bs : List UInt8) (h : g.refused bs) : bs ≠ []

theorem Consumes.bind (hg : g.Consumes) (k : α → Grammar β) : (g >>= k).Consumes where
  spelled := by
    rintro bs b ⟨bs₁, a, bs₂, h₁, -, rfl⟩
    exact List.append_ne_nil_of_left_ne_nil (hg.spelled bs₁ a h₁) bs₂
  refused := by
    rintro bs (h | ⟨bs₁, a, bs₂, h₁, -, rfl⟩)
    · exact hg.refused bs h
    · exact List.append_ne_nil_of_left_ne_nil (hg.spelled bs₁ a h₁) bs₂

/-- A program that needs bytes, in front of none. -/
theorem obeys_zero (hlax : Lax undef (ofParser p : Loader ε Unit α))
    (hproductive : ∃ bs a, g.spelled bs a)
    (hsinks : Sinks undef (ofParser p : Loader ε Unit α) () (.short [])) (hg : g.Consumes) :
    Obeys undef caught p g 0 where
  lax := hlax
  productive := hproductive
  reads h hlen := absurd (List.length_eq_zero_iff.1 (Nat.le_zero.1 hlen)) (hg.spelled _ _ h)
  refuses h hlen := absurd (List.length_eq_zero_iff.1 (Nat.le_zero.1 hlen)) (hg.refused _ h)
  cuts _ _ hlen := by
    obtain rfl := List.length_eq_zero_iff.1 (Nat.le_zero.1 hlen)
    exact .sinks hsinks
  total bs hlen := by
    obtain rfl := List.length_eq_zero_iff.1 (Nat.le_zero.1 hlen)
    exact .inr (.inr (.inl hsinks))

/-! ### Which bytes do no harm -/

/-- The bytes are the beginning of spelled ones. -/
def Continues (g : Grammar α) (bs : List UInt8) : Prop :=
  ∃ ext a, ext ≠ [] ∧ g.spelled (bs ++ ext) a

/-- A value is spelled at the start of the bytes, or they are refused. -/
def Decides (g : Grammar α) (bs : List UInt8) : Prop :=
  ∃ bs' rest, ((∃ a, g.spelled bs' a) ∨ g.refused bs') ∧ bs = bs' ++ rest

/-- **The bytes that do no harm**: the program returns or throws what is caught, whatever the memory
holds, and it is silent about what is only a beginning. -/
theorem Obeys.orderly_iff (hp : Obeys undef caught p g n) (hexcl : ∀ e, undef e → ¬ caught e)
    {bs : List UInt8} (hlen : bs.length ≤ n) :
    (p.Orderly caught bs ∧ (g.Continues bs → p.Silent caught bs)) ↔
      ¬ g.Continues bs ∧ g.Decides bs := by
  have hnot (hsinks : Sinks undef (ofParser p : Loader ε Unit α) () (.short bs)) :
      ¬ p.Orderly caught bs := by
    obtain ⟨st, h⟩ := hsinks
    obtain ⟨e, he, hundef⟩ := h []
    exact fun horderly => hexcl e hundef (horderly _ e he)
  constructor
  · rintro ⟨horderly, hsilent⟩
    have hno : ¬ g.Continues bs := by
      intro hcontinues
      obtain ⟨ext, a, hne, h⟩ := hcontinues
      rcases hp.cuts h hne hlen with ⟨st, b, o', s', -, hrun⟩ | hsinks
      · obtain ⟨e, he, -⟩ := hsilent ⟨ext, a, hne, h⟩ (st ++ [])
        have hok := congrArg Prod.fst (hrun [])
        exact absurd (he.symm.trans hok) (by simp)
      · exact hnot hsinks horderly
    refine ⟨hno, ?_⟩
    rcases hp.total bs hlen with ⟨bs', a, rest, h, rfl⟩ | ⟨bs', rest, h, rfl⟩ | hsinks | hcontinues
    · exact ⟨bs', rest, .inl ⟨a, h⟩, rfl⟩
    · exact ⟨bs', rest, .inr h, rfl⟩
    · exact absurd horderly (hnot hsinks)
    · exact absurd hcontinues hno
  · rintro ⟨hno, bs', rest, hdecides, rfl⟩
    refine ⟨fun st e he => ?_, fun hcontinues => absurd hcontinues hno⟩
    rw [List.length_append] at hlen
    rcases hdecides with ⟨a, h⟩ | h
    · have hok := congrArg Prod.fst (hp.reads h (by omega) rest st)
      exact absurd (he.symm.trans hok) (by simp)
    · obtain ⟨e', he', hthrows⟩ := hp.refuses h (by omega)
      have herror := congrArg Prod.fst (hthrows rest st)
      exact Except.error.inj (herror.symm.trans he) ▸ he'

theorem spelled_map {f : α → β} {bs : List UInt8} {b : β} :
    (f <$> g).spelled bs b ↔ ∃ a, g.spelled bs a ∧ b = f a := by
  rw [← bind_pure_comp]
  constructor
  · rintro ⟨bs₁, a, _, h, ⟨rfl, rfl⟩, rfl⟩
    rw [List.append_nil]
    exact ⟨a, h, rfl⟩
  · rintro ⟨a, h, rfl⟩
    exact ⟨bs, a, [], h, ⟨rfl, rfl⟩, (List.append_nil bs).symm⟩

theorem refused_map {f : α → β} {bs : List UInt8} : (f <$> g).refused bs ↔ g.refused bs := by
  rw [← bind_pure_comp]
  constructor
  · rintro (h | ⟨_, _, _, _, h, _⟩)
    · exact h
    · exact h.elim
  · exact .inl

theorem continues_map {f : α → β} {bs : List UInt8} :
    (f <$> g).Continues bs ↔ g.Continues bs := by
  simp only [Continues, spelled_map]
  constructor
  · rintro ⟨ext, _, hne, a, h, rfl⟩
    exact ⟨ext, a, hne, h⟩
  · rintro ⟨ext, a, hne, h⟩
    exact ⟨ext, f a, hne, a, h, rfl⟩

theorem decides_map {f : α → β} {bs : List UInt8} : (f <$> g).Decides bs ↔ g.Decides bs := by
  simp only [Decides, spelled_map, refused_map]
  have hvalue (bs' : List UInt8) : (∃ b a, g.spelled bs' a ∧ b = f a) ↔ ∃ a, g.spelled bs' a :=
    ⟨fun ⟨_, a, h, _⟩ => ⟨a, h⟩, fun ⟨a, h⟩ => ⟨f a, a, h, rfl⟩⟩
  simp only [hvalue]

end Grammar
