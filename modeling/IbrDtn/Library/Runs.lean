import Mathlib

/-!
# The runs of a list between separators

Splitting a list at every separator gives an empty part between two separators that follow each
other, and at an end of the list with a separator.  This file collects the maximal runs without a
separator, which are the parts that are not empty, and what is left of the list behind the first of
them.

## Main definitions

* `List.runs` : the runs, in their order.
* `List.behindRuns` : the list behind some of its runs, from the next run on.

## Main results

* `List.runs_eq_cons` : the first run, and the runs of the rest.
-/

namespace List

variable {α : Type} (p : α → Bool)

/-- The maximal parts of a list without an element that satisfies `p`. -/
def runs (l : List α) : List (List α) := (l.splitOnP p).filter fun w => !w.isEmpty

/-- The list behind its first `m` runs, from the next run on. -/
def behindRuns : ℕ → List α → List α
  | 0, l => l.dropWhile p
  | m + 1, l => behindRuns m ((l.dropWhile p).dropWhile fun x => !p x)

variable {p}

@[simp] theorem runs_nil : runs p ([] : List α) = [] := rfl

theorem runs_cons_of_pos {x : α} (h : p x = true) (l : List α) : runs p (x :: l) = runs p l := by
  rw [runs, splitOnP_cons_eq_if_modifyHead, if_pos h, filter_cons_of_neg (by simp)]
  rfl

/-- Separators in front do not matter. -/
theorem runs_dropWhile (l : List α) : runs p (l.dropWhile p) = runs p l := by
  induction l with
  | nil => rfl
  | cons x l ih =>
      rw [dropWhile_cons]
      split_ifs with h
      · rw [ih, runs_cons_of_pos h]
      · rfl

theorem runs_of_forall {w : List α} (hne : w ≠ []) (h : ∀ x ∈ w, p x = false) :
    runs p w = [w] := by
  rw [runs, splitOnP_eq_singleton h, filter_cons_of_pos (by simpa using hne)]
  rfl

/-- **The first run of a list that starts with one**, and the runs of the rest. -/
theorem runs_of_head {x : α} {l : List α} (h : p x = false) :
    runs p (x :: l) = (x :: l).takeWhile (fun x => !p x) ::
      runs p ((x :: l).dropWhile fun x => !p x) := by
  have hword : ∀ y ∈ (x :: l).takeWhile (fun x => !p x), p y = false := fun y hy => by
    simpa using mem_takeWhile_imp hy
  have hne : (x :: l).takeWhile (fun x => !p x) ≠ [] := by
    rw [takeWhile_cons, h]
    exact cons_ne_nil _ _
  have hwhole := takeWhile_append_dropWhile (p := fun x => !p x) (l := x :: l)
  have hrest := head?_dropWhile_not (fun x => !p x) (x :: l)
  generalize (x :: l).takeWhile (fun x => !p x) = word at *
  generalize (x :: l).dropWhile (fun x => !p x) = rest at *
  rw [← hwhole]
  cases rest with
  | nil => rw [append_nil, runs_of_forall hne hword, runs_nil]
  | cons s rest =>
      have hs : p s = true := by simpa using hrest
      rw [runs, splitOnP_append_cons_of_forall_mem hword s hs, filter_cons_of_pos
        (by simpa using hne), runs_cons_of_pos hs, runs]

theorem runs_eq_nil_iff {l : List α} : runs p l = [] ↔ l.dropWhile p = [] := by
  rw [← runs_dropWhile]
  have hhead := head?_dropWhile_not p l
  cases hl : l.dropWhile p with
  | nil => simp
  | cons x l' =>
      rw [hl] at hhead
      have hx : p x = false := by simpa using hhead
      rw [runs_of_head hx]
      simp

/-- **The first run, and the runs of the rest.** -/
theorem runs_eq_cons {l : List α} (h : l.dropWhile p ≠ []) :
    runs p l = (l.dropWhile p).takeWhile (fun x => !p x) ::
      runs p ((l.dropWhile p).dropWhile fun x => !p x) := by
  rw [← runs_dropWhile]
  have hhead := head?_dropWhile_not p l
  cases hl : l.dropWhile p with
  | nil => exact absurd hl h
  | cons x l' =>
      rw [hl] at hhead
      exact runs_of_head (by simpa using hhead)

theorem behindRuns_dropWhile (m : ℕ) (l : List α) :
    behindRuns p m (l.dropWhile p) = behindRuns p m l := by
  cases m with
  | zero => exact dropWhile_idempotent _ _
  | succ m => rw [behindRuns, behindRuns, dropWhile_idempotent]

/-- A list that starts with a run is longer than what is behind the run. -/
theorem length_dropWhile_not_lt {l : List α} (hne : l ≠ []) (hstart : l.dropWhile p = l) :
    (l.dropWhile fun x => !p x).length < l.length := by
  cases l with
  | nil => exact absurd rfl hne
  | cons x l =>
      have hx : p x = false := by
        have hhead := head?_dropWhile_not p (x :: l)
        rw [hstart] at hhead
        simpa using hhead
      rw [dropWhile_cons, hx]
      exact Nat.lt_succ_of_le (dropWhile_sublist _).length_le

/-- **The runs are not empty and have no separators**, and their elements are those of the list. -/
theorem mem_runs {l w : List α} (h : w ∈ runs p l) :
    w ≠ [] ∧ ∀ x ∈ w, p x = false ∧ x ∈ l := by
  induction hn : l.length using Nat.strong_induction_on generalizing l with
  | _ n ih =>
      subst hn
      by_cases hnil : l.dropWhile p = []
      · rw [runs_eq_nil_iff.2 hnil] at h
        exact absurd h not_mem_nil
      · rw [runs_eq_cons hnil] at h
        have hsub := (dropWhile_sublist p (l := l))
        rcases mem_cons.1 h with rfl | h
        · refine ⟨fun hword => ?_, fun x hx => ?_⟩
          · have hlt := length_dropWhile_not_lt hnil (dropWhile_idempotent p l)
            have hwhole := congrArg length (takeWhile_append_dropWhile (p := fun x => !p x)
              (l := l.dropWhile p))
            rw [hword, nil_append] at hwhole
            omega
          · exact ⟨by simpa using mem_takeWhile_imp hx,
              hsub.mem (List.IsPrefix.mem hx ( takeWhile_prefix _))⟩
        · have hlt := length_dropWhile_not_lt hnil (dropWhile_idempotent p l)
          obtain ⟨hne, hmem⟩ := ih _ (hlt.trans_le hsub.length_le) h rfl
          exact ⟨hne, fun x hx => ⟨(hmem x hx).1,
            hsub.mem ((dropWhile_sublist _).mem (hmem x hx).2)⟩⟩

/-- A run in front of a separator. -/
theorem runs_cons_append {w : List α} {s : α} (hne : w ≠ []) (h : ∀ x ∈ w, p x = false)
    (hs : p s = true) (l : List α) : runs p (w ++ s :: l) = w :: runs p l := by
  rw [runs, splitOnP_append_cons_of_forall_mem h s hs, filter_cons_of_pos (by simpa using hne)]
  rfl

end List
