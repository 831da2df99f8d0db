/-!
# Runs of a transition system

A transition system steps from one state to another, with a label that says what happened.  This
file collects the induction over its runs: what a step keeps holds in every state that a run
reaches.  The runs are those whose steps all meet a condition on the label and on the state
before the step; the condition that always holds gives all runs.

## Main definitions

* `Transition.Run` : the runs whose steps meet a condition.

## Main results

* `Transition.Run.invariant` : what every such step keeps holds behind every such run.
* `Transition.run_of_foldlM` : a run of a system that computes its steps.
-/

namespace Transition

variable {σ ι : Type}

/-- A run from `s₀` with steps that all meet the condition, and the labels of its steps. -/
inductive Run (step : σ → ι → σ → Prop) (meets : σ → ι → Prop) (s₀ : σ) : List ι → σ → Prop where
  | nil : Run step meets s₀ [] s₀
  | snoc {is : List ι} {s s' : σ} {i : ι} (h : Run step meets s₀ is s) (hmeets : meets s i)
      (hstep : step s i s') : Run step meets s₀ (is ++ [i]) s'

variable {step : σ → ι → σ → Prop} {meets meets' : σ → ι → Prop} {s₀ s s' : σ} {is js : List ι}

/-- **What every step keeps holds behind every run.** -/
theorem Run.invariant {I : σ → Prop} (h : Run step meets s₀ is s) (h₀ : I s₀)
    (hstep : ∀ s i s', I s → meets s i → step s i s' → I s') : I s := by
  induction h with
  | nil => exact h₀
  | snoc _ hmeets hs ih => exact hstep _ _ _ ih hmeets hs

/-- A weaker condition allows more runs. -/
theorem Run.imp (h : Run step meets s₀ is s) (himp : ∀ s i, meets s i → meets' s i) :
    Run step meets' s₀ is s := by
  induction h with
  | nil => exact .nil
  | snoc _ hmeets hs ih => exact ih.snoc (himp _ _ hmeets) hs

/-- A run is continued by another one. -/
theorem Run.append (h : Run step meets s₀ is s) (h' : Run step meets s js s') :
    Run step meets s₀ (is ++ js) s' := by
  induction h' with
  | nil => rwa [List.append_nil]
  | snoc _ hmeets hs ih =>
      rw [← List.append_assoc]
      exact ih.snoc hmeets hs

/-- **A system that computes its steps can take them one by one.** -/
theorem run_of_foldlM {next : σ → ι → Option σ} {is : List ι} {s₀ s : σ}
    (h : is.foldlM next s₀ = some s) :
    Run (fun s i s' => next s i = some s') (fun _ _ => True) s₀ is s := by
  induction is generalizing s₀ with
  | nil =>
      obtain rfl := Option.some.inj h
      exact .nil
  | cons i is ih =>
      obtain ⟨s₁, h₁, h⟩ := Option.bind_eq_some_iff.1 h
      exact (Run.nil.snoc (i := i) trivial h₁).append (ih h)

/-- **A run is computed and its steps are checked**, with what it reaches. -/
theorem exists_run_of_foldlM (next : σ → ι → Option σ) (meets : σ → ι → Prop)
    [∀ s i, Decidable (meets s i)] (s₀ : σ) (is : List ι) (P : σ → Prop) [DecidablePred P]
    (h : (is.foldlM (fun s i => if meets s i then next s i else none) s₀).any fun s => P s) :
    ∃ s, Run (fun s i s' => next s i = some s') meets s₀ is s ∧ P s := by
  obtain ⟨s, hs, hP⟩ := (Option.any_eq_true _ _).1 h
  refine ⟨s, ?_, of_decide_eq_true hP⟩
  clear h hP
  induction is generalizing s₀ with
  | nil =>
      obtain rfl := Option.some.inj hs
      exact .nil
  | cons i is ih =>
      obtain ⟨s₁, h₁, hs⟩ := Option.bind_eq_some_iff.1 hs
      dsimp only at h₁
      split at h₁
      · exact (Run.nil.snoc (i := i) ‹_› h₁).append (ih s₁ hs)
      · cases h₁

end Transition
