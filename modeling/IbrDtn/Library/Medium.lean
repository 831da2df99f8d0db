import Mathlib

/-!
# Media

A medium keeps characters by their positions, and grows when one is put behind its end: what stands
between the old end and the new one is up to the medium.  This file computes what a medium keeps
when characters are put one behind the other.

## Main definitions

* `Medium` : putting a character at a position.
* `Medium.Lawful` : a character is where it was put, and the others stay.
* `Medium.putAll` : characters one behind the other.
* `Medium.filled` : media that fill gaps.

## Main results

* `Medium.Lawful.length_putAll` : how far a medium grows.
* `Medium.Lawful.getElem?_putAll_of_lt`, `Medium.Lawful.getElem?_putAll_of_not_mem` : what it keeps.
-/

/-- What a medium keeps when a character is put at a position. -/
structure Medium (α : Type) where
  put : List α → ℕ → α → List α

namespace Medium

variable {α : Type} {m : Medium α} {cs : List α}

/-- A character is where it was put, and those at other positions stay. -/
structure Lawful (m : Medium α) : Prop where
  length_put : ∀ cs i x, (m.put cs i x).length = max cs.length (i + 1)
  getElem?_put_self : ∀ cs i x, (m.put cs i x)[i]? = some x
  getElem?_put_of_ne : ∀ cs i x j, j ≠ i → j < cs.length → (m.put cs i x)[j]? = cs[j]?

/-- Characters are put one behind the other. -/
def putAll (m : Medium α) (cs : List α) (i : ℕ) : List α → List α
  | [] => cs
  | x :: xs => putAll m (m.put cs i x) (i + 1) xs

section Lawful

variable (hm : m.Lawful)

include hm

/-- **A medium grows up to the last character.** -/
theorem Lawful.length_putAll (cs : List α) (i : ℕ) {xs : List α} (hxs : xs ≠ []) :
    (m.putAll cs i xs).length = max cs.length (i + xs.length) := by
  induction xs generalizing cs i with
  | nil => exact absurd rfl hxs
  | cons x xs ih =>
      rcases List.eq_nil_or_concat xs with rfl | ⟨ys, y, rfl⟩
      · exact hm.length_put cs i x
      · rw [putAll, ih _ _ (by simp), hm.length_put, List.length_cons]
        omega

/-- **What stands outside of the characters stays.** -/
theorem Lawful.getElem?_putAll_of_not_mem (i : ℕ) (xs : List α) {j : ℕ}
    (hj : j < i ∨ i + xs.length ≤ j) (hc : j < cs.length) : (m.putAll cs i xs)[j]? = cs[j]? := by
  induction xs generalizing cs i with
  | nil => rfl
  | cons x xs ih =>
      rw [List.length_cons] at hj
      have hc' : j < (m.put cs i x).length := by
        rw [hm.length_put]
        exact lt_max_of_lt_left hc
      rw [putAll, ih (i + 1) (by omega) hc', hm.getElem?_put_of_ne cs i x j (by omega) hc]

/-- **The characters are where they were put.** -/
theorem Lawful.getElem?_putAll_of_lt (cs : List α) (i : ℕ) {xs : List α} {k : ℕ}
    (hk : k < xs.length) : (m.putAll cs i xs)[i + k]? = xs[k]? := by
  induction xs generalizing cs i k with
  | nil => exact absurd hk (Nat.not_lt_zero k)
  | cons x xs ih =>
      cases k with
      | zero =>
          have hc : i < (m.put cs i x).length := by
            rw [hm.length_put]
            exact lt_max_of_lt_right (Nat.lt_succ_self i)
          rw [Nat.add_zero, putAll,
            hm.getElem?_putAll_of_not_mem (i + 1) xs (.inl i.lt_succ_self) hc, hm.getElem?_put_self]
          rfl
      | succ k =>
          rw [putAll, List.getElem?_cons_succ,
            ← ih (m.put cs i x) (i + 1) (Nat.lt_of_succ_lt_succ hk)]
          congr 1
          omega

end Lawful

/-- The medium that fills gaps with a character, as files do. -/
def filled (filler : α) : Medium α where
  put cs i x :=
    if i < cs.length then cs.set i x else cs ++ List.replicate (i - cs.length) filler ++ [x]

theorem put_filled (filler : α) (cs : List α) (i : ℕ) (x : α) : (filled filler).put cs i x =
    if i < cs.length then cs.set i x else cs ++ List.replicate (i - cs.length) filler ++ [x] := rfl

theorem lawful_filled (filler : α) : (filled filler).Lawful := by
  refine ⟨fun cs i x => ?_, fun cs i x => ?_, fun cs i x j hne hj => ?_⟩
  · rw [put_filled]
    split_ifs with hi
    · rw [List.length_set]
      omega
    · simp only [List.length_append, List.length_replicate, List.length_singleton]
      omega
  · rw [put_filled]
    split_ifs with hi
    · exact List.getElem?_set_self hi
    · have hlen : (cs ++ List.replicate (i - cs.length) filler).length = i := by
        rw [List.length_append, List.length_replicate]
        omega
      rw [List.getElem?_append_right hlen.le, hlen, Nat.sub_self]
      rfl
  · rw [put_filled]
    split_ifs with hi
    · exact List.getElem?_set_ne hne.symm
    · rw [List.append_assoc, List.getElem?_append_left hj]

end Medium
