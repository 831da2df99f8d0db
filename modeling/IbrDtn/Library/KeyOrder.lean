import Mathlib

/-!
# Orders of keys

An ordered container is given a comparison of its keys, and takes two keys for the same if neither is
less than the other.  A program that also compares keys for equality expects both to agree.  This
file says what is expected of the two, on the keys of a given set.

## Main definitions

* `KeyOrder` : what is expected.

## Main results

* `KeyOrder.of_rank` : comparisons that agree with a rank in a linear order.
-/

/-- **A comparison and an equality on which containers of the given keys can rely**: a strict weak
order, an equivalence relation, and keys are equal exactly if neither is less than the other. -/
structure KeyOrder {κ : Type} (lt eq : κ → κ → Bool) (S : Set κ) : Prop where
  irrefl : ∀ a ∈ S, lt a a = false
  asymm : ∀ a ∈ S, ∀ b ∈ S, lt a b = true → lt b a = false
  trans : ∀ a ∈ S, ∀ b ∈ S, ∀ c ∈ S, lt a b = true → lt b c = true → lt a c = true
  incomparable_trans : ∀ a ∈ S, ∀ b ∈ S, ∀ c ∈ S, lt a b = false → lt b a = false →
    lt b c = false → lt c b = false → lt a c = false ∧ lt c a = false
  eq_refl : ∀ a ∈ S, eq a a = true
  eq_symm : ∀ a ∈ S, ∀ b ∈ S, eq a b = true → eq b a = true
  eq_trans : ∀ a ∈ S, ∀ b ∈ S, ∀ c ∈ S, eq a b = true → eq b c = true → eq a c = true
  eq_iff : ∀ a ∈ S, ∀ b ∈ S, eq a b = true ↔ lt a b = false ∧ lt b a = false

namespace KeyOrder

variable {κ ρ : Type} [LinearOrder ρ] {lt eq : κ → κ → Bool} {S : Set κ}

/-- **Comparisons that agree with a rank** can be relied on. -/
theorem of_rank (rank : κ → ρ) (hlt : ∀ a ∈ S, ∀ b ∈ S, lt a b = true ↔ rank a < rank b)
    (heq : ∀ a ∈ S, ∀ b ∈ S, eq a b = true ↔ rank a = rank b) : KeyOrder lt eq S := by
  have hnot : ∀ a ∈ S, ∀ b ∈ S, lt a b = false ↔ rank b ≤ rank a := fun a ha b hb => by
    rw [← not_lt, ← hlt a ha b hb, Bool.not_eq_true]
  refine ⟨fun a ha => ?_, fun a ha b hb h => ?_, fun a ha b hb c hc h h' => ?_,
    fun a ha b hb c hc h₁ h₂ h₃ h₄ => ?_, fun a ha => ?_, fun a ha b hb h => ?_,
    fun a ha b hb c hc h h' => ?_, fun a ha b hb => ?_⟩
  · exact (hnot a ha a ha).2 le_rfl
  · exact (hnot b hb a ha).2 ((hlt a ha b hb).1 h).le
  · exact (hlt a ha c hc).2 (((hlt a ha b hb).1 h).trans ((hlt b hb c hc).1 h'))
  · have hab := le_antisymm ((hnot b hb a ha).1 h₂) ((hnot a ha b hb).1 h₁)
    have hbc := le_antisymm ((hnot c hc b hb).1 h₄) ((hnot b hb c hc).1 h₃)
    have hac : rank a = rank c := hab.trans hbc
    exact ⟨(hnot a ha c hc).2 hac.ge, (hnot c hc a ha).2 hac.le⟩
  · exact (heq a ha a ha).2 rfl
  · exact (heq b hb a ha).2 ((heq a ha b hb).1 h).symm
  · exact (heq a ha c hc).2 (((heq a ha b hb).1 h).trans ((heq b hb c hc).1 h'))
  · rw [heq a ha b hb, hnot a ha b hb, hnot b hb a ha, and_comm, le_antisymm_iff]

end KeyOrder
