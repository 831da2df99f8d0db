import Mathlib

/-!
# Selecting the first elements that a filter accepts

A filter that may throw is asked for one element of a list after the other, until it has accepted
the given number of them.  This file says which elements are selected, and on which one the
selection fails.

## Main definitions

* `Selection.select` : the selection.

## Main results

* `Selection.select_eq_error_iff` : the element on which a selection fails.
* `Selection.select_filter`, `Selection.select_filter_error` : elements that are never accepted may as
  well be missing.
* `Selection.eq_take_of_select` : what is selected.
* `Selection.select_append` : selecting page by page.
-/

namespace Selection

variable {α ε : Type}

/-- The first elements that the filter accepts, up to the given number. An exception of the filter
ends the selection. -/
def select (shouldAdd : α → Except ε Bool) : ℕ → List α → Except ε (List α)
  | 0, _ => .ok []
  | _ + 1, [] => .ok []
  | n + 1, a :: l =>
      match shouldAdd a with
      | .error e => .error e
      | .ok false => select shouldAdd (n + 1) l
      | .ok true =>
          match select shouldAdd n l with
          | .error e => .error e
          | .ok s => .ok (a :: s)

/-- The filter accepts the element. -/
def accepts (shouldAdd : α → Except ε Bool) (a : α) : Bool :=
  match shouldAdd a with
  | .ok b => b
  | .error _ => false

variable {f : α → Except ε Bool}

theorem select_zero (l : List α) : select f 0 l = .ok [] := by
  cases l <;> rfl

theorem select_nil (n : ℕ) : select f n [] = .ok [] := by
  cases n <;> rfl

theorem select_cons_error {a : α} {e : ε} (h : f a = .error e) (n : ℕ) (l : List α) :
    select f (n + 1) (a :: l) = .error e := by
  rw [select, h]

theorem select_cons_false {a : α} (h : f a = .ok false) (n : ℕ) (l : List α) :
    select f (n + 1) (a :: l) = select f (n + 1) l := by
  rw [select, h]

theorem select_cons_true {a : α} (h : f a = .ok true) (n : ℕ) (l : List α) :
    select f (n + 1) (a :: l) = (select f n l).map (a :: ·) := by
  rw [select, h]
  cases select f n l <;> rfl

/-- The induction over a selection: what the filter says of the first element decides how it goes
on. -/
theorem select_induction {P : ℕ → List α → Prop} (zero : ∀ l, P 0 l) (nil : ∀ n, P n [])
    (error : ∀ n a l e, f a = .error e → P (n + 1) (a :: l))
    (reject : ∀ n a l, f a = .ok false → P (n + 1) l → P (n + 1) (a :: l))
    (accept : ∀ n a l, f a = .ok true → P n l → P (n + 1) (a :: l)) (n : ℕ) (l : List α) :
    P n l := by
  induction l generalizing n with
  | nil => exact nil n
  | cons a l ih =>
      cases n with
      | zero => exact zero _
      | succ n =>
          cases h : f a with
          | error e => exact error n a l e h
          | ok b =>
              cases b with
              | false => exact reject n a l h (ih _)
              | true => exact accept n a l h (ih _)

/-- Only elements that the filter accepts are selected. -/
theorem accepts_of_mem_select {n : ℕ} {l s : List α} (h : select f n l = .ok s) :
    ∀ a ∈ s, a ∈ l ∧ f a = .ok true := by
  revert s
  induction n, l using select_induction (f := f) with
  | zero l =>
      intro s h a ha
      obtain rfl : [] = s := Except.ok.inj ((select_zero l).symm.trans h)
      exact absurd ha List.not_mem_nil
  | nil n =>
      intro s h a ha
      obtain rfl : [] = s := Except.ok.inj ((select_nil n).symm.trans h)
      exact absurd ha List.not_mem_nil
  | error n a l e ha => intro s h; rw [select_cons_error ha] at h; cases h
  | reject n a l ha ih =>
      intro s h b hb
      rw [select_cons_false ha] at h
      exact (ih h b hb).imp_left (List.mem_cons_of_mem a)
  | accept n a l ha ih =>
      intro s h b hb
      rw [select_cons_true ha] at h
      cases hs : select f n l with
      | error e => rw [hs] at h; cases h
      | ok t =>
          rw [hs] at h
          obtain rfl : a :: t = s := Except.ok.inj h
          rcases List.mem_cons.1 hb with rfl | hb
          · exact ⟨List.mem_cons_self, ha⟩
          · exact (ih hs b hb).imp_left (List.mem_cons_of_mem a)

/-- If nothing is selected, the filter rejects everything. -/
theorem rejects_of_select_eq_nil {n : ℕ} {l : List α} (h : select f (n + 1) l = .ok []) :
    ∀ a ∈ l, f a = .ok false := by
  induction l with
  | nil => exact fun a ha => absurd ha List.not_mem_nil
  | cons a l ih =>
      cases ha : f a with
      | error e => rw [select_cons_error ha] at h; cases h
      | ok b =>
          cases b with
          | false =>
              rw [select_cons_false ha] at h
              exact List.forall_mem_cons.2 ⟨ha, ih h⟩
          | true =>
              rw [select_cons_true ha] at h
              cases hs : select f n l with
              | error e => rw [hs] at h; cases h
              | ok s => rw [hs] at h; cases h

/-- **A selection fails on the first element for which the filter throws**, if fewer elements than
requested are accepted before it. -/
theorem select_eq_error_iff {n : ℕ} {l : List α} {e : ε} :
    select f n l = .error e ↔ ∃ l₁ a l₂, l = l₁ ++ a :: l₂ ∧ (∀ b ∈ l₁, ∃ x, f b = .ok x) ∧
      l₁.countP (accepts f) < n ∧ f a = .error e := by
  induction n, l using select_induction (f := f) with
  | zero l =>
      refine ⟨fun h => (by rw [select_zero] at h; cases h), ?_⟩
      rintro ⟨l₁, a, l₂, -, -, hn, -⟩
      omega
  | nil n =>
      refine ⟨fun h => (by rw [select_nil] at h; cases h), ?_⟩
      rintro ⟨l₁, a, l₂, h, -⟩
      simp at h
  | error n a l e' ha =>
      rw [select_cons_error ha]
      constructor
      · rintro h
        cases h
        exact ⟨[], a, l, rfl, by simp, by simp, ha⟩
      · rintro ⟨l₁, b, l₂, hl, hok, -, hb⟩
        cases l₁ with
        | nil =>
            obtain ⟨rfl, -⟩ := List.cons.inj hl
            exact congrArg _ (Except.error.inj (ha.symm.trans hb))
        | cons c l₁ =>
            obtain ⟨rfl, -⟩ := List.cons.inj hl
            obtain ⟨x, hx⟩ := hok a List.mem_cons_self
            rw [ha] at hx
            cases hx
  | reject n a l ha ih =>
      rw [select_cons_false ha, ih]
      constructor
      · rintro ⟨l₁, b, l₂, rfl, hok, hn, hb⟩
        refine ⟨a :: l₁, b, l₂, rfl, List.forall_mem_cons.2 ⟨⟨false, ha⟩, hok⟩, ?_, hb⟩
        rwa [List.countP_cons_of_neg (by simp [accepts, ha])]
      · rintro ⟨l₁, b, l₂, hl, hok, hn, hb⟩
        cases l₁ with
        | nil =>
            obtain ⟨rfl, -⟩ := List.cons.inj hl
            rw [ha] at hb
            cases hb
        | cons c l₁ =>
            obtain ⟨rfl, rfl⟩ := List.cons.inj hl
            rw [List.countP_cons_of_neg (by simp [accepts, ha])] at hn
            exact ⟨l₁, b, l₂, rfl, (List.forall_mem_cons.1 hok).2, hn, hb⟩
  | accept n a l ha ih =>
      have hmap : (select f n l).map (a :: ·) = .error e ↔ select f n l = .error e := by
        cases select f n l with
        | error e' =>
            exact ⟨fun h => congrArg _ (Except.error.inj h), fun h => congrArg _ (Except.error.inj h)⟩
        | ok s => simp [Except.map]
      rw [select_cons_true ha, hmap, ih]
      constructor
      · rintro ⟨l₁, b, l₂, rfl, hok, hn, hb⟩
        refine ⟨a :: l₁, b, l₂, rfl, List.forall_mem_cons.2 ⟨⟨true, ha⟩, hok⟩, ?_, hb⟩
        rw [List.countP_cons_of_pos (by simp [accepts, ha])]
        omega
      · rintro ⟨l₁, b, l₂, hl, hok, hn, hb⟩
        cases l₁ with
        | nil =>
            obtain ⟨rfl, -⟩ := List.cons.inj hl
            rw [ha] at hb
            cases hb
        | cons c l₁ =>
            obtain ⟨rfl, rfl⟩ := List.cons.inj hl
            rw [List.countP_cons_of_pos (by simp [accepts, ha])] at hn
            exact ⟨l₁, b, l₂, rfl, (List.forall_mem_cons.1 hok).2, by omega, hb⟩

/-- **Elements that are never accepted may as well be missing**, if the selection does not fail. -/
theorem select_filter {p : α → Bool} (hp : ∀ a, p a = false → f a ≠ .ok true) {n : ℕ}
    {l s : List α} (h : select f n l = .ok s) : select f n (l.filter p) = .ok s := by
  revert s
  induction n, l using select_induction (f := f) with
  | zero l => intro s h; rwa [select_zero] at h ⊢
  | nil n => intro s h; exact h
  | error n a l e ha => intro s h; rw [select_cons_error ha] at h; cases h
  | reject n a l ha ih =>
      intro s h
      rw [select_cons_false ha] at h
      cases hpa : p a with
      | false => rw [List.filter_cons_of_neg (by simp [hpa])]; exact ih h
      | true =>
          rw [List.filter_cons_of_pos hpa, select_cons_false ha]
          exact ih h
  | accept n a l ha ih =>
      intro s h
      have hpa : p a = true := by
        cases hpa : p a with
        | false => exact absurd ha (hp a hpa)
        | true => rfl
      rw [select_cons_true ha] at h
      rw [List.filter_cons_of_pos hpa, select_cons_true ha]
      cases hs : select f n l with
      | error e => rw [hs] at h; cases h
      | ok t =>
          rw [hs] at h
          rw [ih hs]
          exact h

/-- **They may as well be missing if the selection fails on an element that stays.** -/
theorem select_filter_error {p : α → Bool} {n : ℕ} {l : List α} {e : ε}
    (he : ∀ a, f a = .error e → p a = true) (h : select f n l = .error e) :
    select f n (l.filter p) = .error e := by
  obtain ⟨l₁, a, l₂, rfl, hok, hn, ha⟩ := select_eq_error_iff.1 h
  refine select_eq_error_iff.2 ⟨l₁.filter p, a, l₂.filter p, ?_, ?_, ?_, ha⟩
  · rw [List.filter_append, List.filter_cons_of_pos (he a ha)]
  · exact fun b hb => hok b (List.mem_of_mem_filter hb)
  · exact Nat.lt_of_le_of_lt List.filter_sublist.countP_le hn

/-- **What is selected** are the first elements that the filter accepts. -/
theorem eq_take_of_select {n : ℕ} {l s : List α} (h : select f n l = .ok s) :
    s = (l.filter (accepts f)).take n := by
  revert s
  induction n, l using select_induction (f := f) with
  | zero l =>
      intro s h
      rw [List.take_zero]
      exact Except.ok.inj (h.symm.trans (select_zero l))
  | nil n =>
      intro s h
      rw [List.filter_nil, List.take_nil]
      exact Except.ok.inj (h.symm.trans (select_nil n))
  | error n a l e ha =>
      intro s h
      rw [select_cons_error ha] at h
      cases h
  | reject n a l ha ih =>
      intro s h
      rw [select_cons_false ha] at h
      rw [List.filter_cons_of_neg (by simp [accepts, ha])]
      exact ih h
  | accept n a l ha ih =>
      intro s h
      rw [select_cons_true ha] at h
      rw [List.filter_cons_of_pos (by simp [accepts, ha]), List.take_succ_cons]
      cases hs : select f n l with
      | error e => rw [hs] at h; cases h
      | ok t =>
          rw [hs] at h
          rw [← ih hs]
          exact (Except.ok.inj h).symm

/-- Selecting from two lists one after the other. -/
theorem select_append (n : ℕ) (l₁ l₂ : List α) : select f n (l₁ ++ l₂) =
    match select f n l₁ with
    | .error e => .error e
    | .ok s => (select f (n - s.length) l₂).map (s ++ ·) := by
  have hid (r : Except ε (List α)) : r.map (fun s => ([] : List α) ++ s) = r := by
    cases r <;> rfl
  induction n, l₁ using select_induction (f := f) with
  | zero l => simp [select_zero, Except.map]
  | nil n =>
      rw [List.nil_append, select_nil]
      exact (hid _).symm
  | error n a l e ha => rw [List.cons_append, select_cons_error ha, select_cons_error ha]
  | reject n a l ha ih => rw [List.cons_append, select_cons_false ha, select_cons_false ha, ih]
  | accept n a l ha ih =>
      rw [List.cons_append, select_cons_true ha, select_cons_true ha, ih]
      cases select f n l with
      | error e => rfl
      | ok s =>
          simp only [Except.map, List.length_cons, Nat.add_sub_add_right]
          cases select f (n - s.length) l₂ <;> rfl

/-- **A selection in which the filter does not throw** ends with what the filter accepts. -/
theorem select_eq_ok {n : ℕ} {l : List α} (h : ∀ a ∈ l, ∃ b, f a = .ok b) :
    select f n l = .ok ((l.filter (accepts f)).take n) := by
  cases hs : select f n l with
  | ok s => rw [eq_take_of_select hs]
  | error e =>
      obtain ⟨l₁, a, l₂, rfl, -, -, ha⟩ := select_eq_error_iff.1 hs
      obtain ⟨b, hb⟩ := h a (List.mem_append_right _ List.mem_cons_self)
      rw [ha] at hb
      cases hb

end Selection
