import IbrDtn.Library.InStream

/-!
# Programs that keep to their frame

A program that reads one frame of a stream of frames may throw, but if it returns, it has to leave
the stream at the start of the next frame.  This is a partial form of `Loader.Loads`: neither the
object nor the result is given, and a program may look at the stale memory of the stream.

## Main definitions

* `Loader.Frames` : the programs that have consumed exactly a given frame when they return.

## Main results

* `Loader.Frames.bind` : frames that follow each other.
* `Loader.leaves_of_keeps` : what a loader keeps of an object is what it leaves.
-/

namespace Loader

variable {ε σ τ α β : Type}

/-- If the loader returns, on a good stream that starts with `bs`, it has consumed exactly `bs`, and
the object and the result satisfy `Q`. -/
def Frames (p : Loader ε σ α) (bs : List UInt8) (o : σ) (Q : σ → α → Prop) : Prop :=
  ∀ r st a o' s', run p (o, ⟨bs ++ r, false, false, st⟩) = (.ok a, (o', s')) →
    (∃ st', s' = ⟨r, false, false, st'⟩) ∧ Q o' a

theorem Loads.frames {p : Loader ε σ α} {bs : List UInt8} {o o' : σ} {a : α} {Q : σ → α → Prop}
    (hp : Loads p bs o o' a) (h : Q o' a) : Frames p bs o Q := by
  intro r st b o₁ s₁ hrun
  rw [hp r st] at hrun
  obtain ⟨ha, ho⟩ := Prod.mk.inj hrun
  obtain ⟨rfl, rfl⟩ := Prod.mk.inj ho
  exact ⟨⟨st, rfl⟩, Except.ok.inj ha ▸ h⟩

theorem Frames.imp {p : Loader ε σ α} {bs : List UInt8} {o : σ} {P Q : σ → α → Prop}
    (hp : Frames p bs o P) (h : ∀ o' a, P o' a → Q o' a) : Frames p bs o Q := by
  intro r st a o' s' hrun
  obtain ⟨hs, hP⟩ := hp r st a o' s' hrun
  exact ⟨hs, h o' a hP⟩

theorem Frames.bind {p : Loader ε σ α} {f : α → Loader ε σ β} {bs cs : List UInt8} {o : σ}
    {P : σ → α → Prop} {Q : σ → β → Prop} (hp : Frames p bs o P)
    (hf : ∀ o' a, P o' a → Frames (f a) cs o' Q) : Frames (p >>= f) (bs ++ cs) o Q := by
  intro r st b o₂ s₂ hrun
  rw [List.append_assoc, run_bind] at hrun
  rcases h : run p (o, ⟨bs ++ (cs ++ r), false, false, st⟩) with ⟨e | a, o₁, s₁⟩
  · rw [h] at hrun
    exact absurd (Prod.mk.inj hrun).1 (by simp)
  · obtain ⟨⟨st', rfl⟩, hP⟩ := hp (cs ++ r) st a o₁ s₁ h
    rw [h] at hrun
    exact hf o₁ a hP r st' b o₂ s₂ hrun

/-- `Frames.bind` for a second loader that consumes nothing. -/
theorem Frames.then_nil {p : Loader ε σ α} {f : α → Loader ε σ β} {bs : List UInt8} {o : σ}
    {P : σ → α → Prop} {Q : σ → β → Prop} (hp : Frames p bs o P)
    (hf : ∀ o' a, P o' a → Frames (f a) [] o' Q) : Frames (p >>= f) bs o Q := by
  rw [← List.append_nil bs]
  exact hp.bind hf

theorem Loads.frames_bind {p : Loader ε σ α} {f : α → Loader ε σ β} {bs cs : List UInt8}
    {o o' : σ} {a : α} {Q : σ → β → Prop} (hp : Loads p bs o o' a) (hf : Frames (f a) cs o' Q) :
    Frames (p >>= f) (bs ++ cs) o Q :=
  (hp.frames (Q := fun o₁ b => o₁ = o' ∧ b = a) ⟨rfl, rfl⟩).bind fun _ _ h => h.1 ▸ h.2 ▸ hf

/-- `Loads.frames_bind` for a first loader that consumes nothing. -/
theorem Loads.frames_bind_nil {p : Loader ε σ α} {f : α → Loader ε σ β} {bs : List UInt8}
    {o o' : σ} {a : α} {Q : σ → β → Prop} (hp : Loads p [] o o' a) (hf : Frames (f a) bs o' Q) :
    Frames (p >>= f) bs o Q :=
  hp.frames_bind hf

/-- `Loads.frames_bind` for a second loader that consumes nothing. -/
theorem Loads.frames_then_nil {p : Loader ε σ α} {f : α → Loader ε σ β} {bs : List UInt8}
    {o o' : σ} {a : α} {Q : σ → β → Prop} (hp : Loads p bs o o' a) (hf : Frames (f a) [] o' Q) :
    Frames (p >>= f) bs o Q :=
  (hp.frames (Q := fun o₁ b => o₁ = o' ∧ b = a) ⟨rfl, rfl⟩).then_nil fun _ _ h => h.1 ▸ h.2 ▸ hf

/-- A look ahead in front of a program that keeps to its frame. -/
theorem Frames.peek {f : Option UInt8 → Loader ε σ α} {b : UInt8} {bs : List UInt8} {o : σ}
    {Q : σ → α → Prop} (hf : Frames (f (some b)) (b :: bs) o Q) :
    Frames (ofParser Parser.peekByte >>= f) (b :: bs) o Q := by
  intro r st a o' s' hrun
  have hpeek : run (ofParser Parser.peekByte : Loader ε σ (Option UInt8))
      (o, ⟨b :: (bs ++ r), false, false, st⟩) =
      (.ok (some b), (o, ⟨b :: (bs ++ r), false, false, st⟩)) := rfl
  rw [List.cons_append, run_bind_ok hpeek] at hrun
  exact hf r st a o' s' hrun

/-! ### What is kept to the end -/

theorem keeps_throw (e : ε) (f : σ → τ) : Keeps (throw e : Loader ε σ α) f :=
  fun _ => rfl

theorem keeps_ofParser (p : Parser ε α) (f : σ → τ) : Keeps (ofParser p) f :=
  fun _ => rfl

/-- The part `f` of an object that comes from a larger object is kept. -/
theorem keeps_object_bind {q : σ → Loader ε σ β} {f : σ → τ}
    (hq : ∀ o, ∀ is, f (run (q o) (o, is)).2.1 = f o) : Keeps (object >>= q) f := by
  rintro ⟨o, is⟩
  rw [run_bind_ok (run_object _)]
  exact hq o is

/-- What a loader keeps is what it leaves. -/
theorem leaves_of_keeps {p : Loader ε σ α} {f : σ → τ} {o : σ} {Q : σ → Prop} (hp : Keeps p f)
    (h : ∀ o', f o' = f o → Q o') (bs : List UInt8) : Leaves p bs o Q :=
  fun _ _ => h _ (hp _)

/-! ### Programs that returned -/

/-- A program that returned did so in both of its parts. -/
theorem exists_of_run_bind {p : Loader ε σ α} {f : α → Loader ε σ β} {s s' : σ × InStream} {b : β}
    (h : run (p >>= f) s = (.ok b, s')) :
    ∃ a t, run p s = (.ok a, t) ∧ run (f a) t = (.ok b, s') := by
  rw [run_bind] at h
  rcases hrun : run p s with ⟨e | a, t⟩
  · rw [hrun] at h
    cases h
  · rw [hrun] at h
    exact ⟨a, t, rfl, h⟩

theorem run_ofExcept (x : Except ε α) (s : σ × InStream) :
    run (MonadExcept.ofExcept x : Loader ε σ α) s = (x, s) := by
  cases x <;> rfl

theorem run_within (part : τ) (put : τ → σ → σ) (p : Loader ε τ α) (s : σ × InStream) :
    run (within part put p) s =
      ((run p (part, s.2)).1, (put (run p (part, s.2)).2.1 s.1, (run p (part, s.2)).2.2)) := rfl

theorem run_map (f : α → β) (p : Loader ε σ α) (s : σ × InStream) :
    run (f <$> p) s = ((run p s).1.map f, (run p s).2) := by
  rw [← bind_pure_comp, run_bind]
  rcases run p s with ⟨e | a, t⟩ <;> rfl

/-- A loader of a part that returned did so for the part. -/
theorem exists_of_run_within {part : τ} {put : τ → σ → σ} {p : Loader ε τ α} {o o' : σ}
    {s s' : InStream} {a : α} (h : run (within part put p) (o, s) = (.ok a, (o', s'))) :
    ∃ t, run p (part, s) = (.ok a, (t, s')) ∧ o' = put t o := by
  rw [run_within] at h
  obtain ⟨hok, hrest⟩ := Prod.mk.inj h
  obtain ⟨ho, hs⟩ := Prod.mk.inj hrest
  exact ⟨_, Prod.ext hok (Prod.ext rfl hs), ho.symm⟩

end Loader
