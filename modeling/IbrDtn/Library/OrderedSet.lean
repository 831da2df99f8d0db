import Mathlib

/-!
# Sets and maps under a comparator

Ordered containers keep their elements in the order of a comparator `lt`, and take two keys of
which neither is less than the other for the same key.  The containers are lists here, and their
operations look for a key from the front.  The comparators of real programs are not always
strict weak orders; then only the elements that are in a container together matter.  Two keys are
`Ranked` when the comparator agrees with the order of their ranks, and these differ.

## Main definitions

* `OrderedSet.insert`, `OrderedSet.find?`, `OrderedSet.erase` : sets, whose elements have keys.
* `OrderedSet.assign` : maps, as sets of pairs.
* `OrderedSet.Holds` : the elements of a container, in the order of their ranks.
* `OrderedSet.Ordered` : a comparator that agrees with the ranks on all keys.
* `OrderedSet.Total` : a comparator that tells all keys apart.

## Main results

* `OrderedSet.Holds.insert`, `OrderedSet.Holds.erase`, `OrderedSet.Holds.assign` : the operations on
  a container whose keys are ranked among each other.
* `OrderedSet.Total.mem_assign`, `OrderedSet.Total.mem_erase`,
  `OrderedSet.Total.find?_eq_some_iff` : the operations on a map, as its entries show them.
-/

namespace OrderedSet

variable {α β κ ρ : Type} (key : α → κ) (lt : κ → κ → Bool)

/-- The element with a key that is equivalent to the given one. -/
def find? (k : κ) : List α → Option α
  | [] => none
  | x :: s => if lt (key x) k then find? k s else if lt k (key x) then none else some x

/-- An element is added, unless one with an equivalent key is there. -/
def insert (a : α) : List α → List α
  | [] => [a]
  | x :: s =>
      if lt (key x) (key a) then x :: insert a s
      else if lt (key a) (key x) then a :: x :: s
      else x :: s

/-- The elements with equivalent keys are removed, which stand next to each other. -/
def erase (k : κ) : List α → List α
  | [] => []
  | x :: s =>
      if lt (key x) k then x :: erase k s
      else if lt k (key x) then x :: s
      else erase k s

/-- A key is given a value. An equivalent key that is there stays. -/
def assign (k : κ) (v : β) : List (κ × β) → List (κ × β)
  | [] => [(k, v)]
  | x :: s =>
      if lt x.1 k then x :: assign k v s
      else if lt k x.1 then (k, v) :: x :: s
      else (x.1, v) :: s

variable [LinearOrder ρ] (rank : κ → ρ)

/-- The comparator decides between two keys as the order of their ranks does. -/
structure Ranked (k l : κ) : Prop where
  lt_iff : lt k l = true ↔ rank k < rank l
  gt_iff : lt l k = true ↔ rank l < rank k
  ne : rank k ≠ rank l

/-- The comparator takes two keys of one rank for the same. -/
structure Equivalent (k l : κ) : Prop where
  not_lt : lt k l = false
  not_gt : lt l k = false
  eq : rank k = rank l

/-- A container: its elements in the order of their ranks. -/
structure Holds (s t : List α) : Prop where
  perm : s.Perm t
  sorted : s.Pairwise fun x y => rank (key x) < rank (key y)

variable {key lt rank}

theorem Ranked.symm {k l : κ} (h : Ranked lt rank k l) : Ranked lt rank l k :=
  ⟨h.gt_iff, h.lt_iff, h.ne.symm⟩

theorem Ranked.lt_or_gt {k l : κ} (h : Ranked lt rank k l) :
    lt k l = true ∨ lt k l = false ∧ lt l k = true := by
  rcases lt_or_gt_of_ne h.ne with hlt | hgt
  · exact .inl (h.lt_iff.2 hlt)
  · exact .inr ⟨Bool.eq_false_iff.2 fun hlt => lt_asymm (h.lt_iff.1 hlt) hgt, h.gt_iff.2 hgt⟩

theorem mem_of_find?_eq_some {k : κ} {s : List α} {a : α} (h : find? key lt k s = some a) :
    a ∈ s := by
  induction s with
  | nil => cases h
  | cons x s ih =>
      rw [find?] at h
      split_ifs at h
      · exact List.mem_cons_of_mem x (ih h)
      · rw [Option.some.inj h]
        exact List.mem_cons_self

/-- What is found is not added again. -/
theorem insert_of_isSome_find? {a : α} {s : List α} (h : (find? key lt (key a) s).isSome = true) :
    insert key lt a s = s := by
  induction s with
  | nil => cases h
  | cons x s ih =>
      rw [find?] at h
      rw [insert]
      split_ifs at h ⊢ with hlt hgt
      · rw [ih h]
      · cases h
      · rfl

/-- A change of the values does not change what is found. -/
theorem find?_map_snd (f : β → β) (k : κ) (s : List (κ × β)) :
    find? Prod.fst lt k (s.map fun x => (x.1, f x.2)) =
      (find? Prod.fst lt k s).map fun x => (x.1, f x.2) := by
  induction s with
  | nil => rfl
  | cons x s ih =>
      rw [List.map_cons, find?, find?]
      split_ifs
      · exact ih
      · rfl
      · rfl

/-- Nothing is found for a key that is less or greater than every other one. -/
theorem find?_eq_none_of_comparable {k : κ} {s : List α}
    (h : ∀ x ∈ s, lt (key x) k = true ∨ lt k (key x) = true) : find? key lt k s = none := by
  induction s with
  | nil => rfl
  | cons x s ih =>
      rw [find?]
      split_ifs with hless hgreater
      · exact ih fun y hy => h y (List.mem_cons_of_mem _ hy)
      · rfl
      · rcases h x List.mem_cons_self with hx | hx
        · exact absurd hx hless
        · exact absurd hx hgreater

theorem mem_of_mem_erase {k : κ} {s : List α} {a : α} (h : a ∈ erase key lt k s) : a ∈ s := by
  induction s with
  | nil => exact h
  | cons x s ih =>
      rw [erase] at h
      split_ifs at h
      · rcases List.mem_cons.1 h with rfl | h
        · exact List.mem_cons_self
        · exact List.mem_cons_of_mem x (ih h)
      · exact h
      · exact List.mem_cons_of_mem x (ih h)

/-- Adding an element adds its key. -/
theorem map_insert (a : α) (s : List α) :
    (insert key lt a s).map key = insert id lt (key a) (s.map key) := by
  induction s with
  | nil => rfl
  | cons x s ih =>
      rw [insert, List.map_cons, insert, id_eq, id_eq]
      split_ifs
      · rw [List.map_cons, ih]
      · rfl
      · rfl

/-- Removing elements removes their keys. -/
theorem map_erase (k : κ) (s : List α) :
    (erase key lt k s).map key = erase id lt k (s.map key) := by
  induction s with
  | nil => rfl
  | cons x s ih =>
      rw [erase, List.map_cons, erase, id_eq]
      split_ifs
      · rw [List.map_cons, ih]
      · rfl
      · exact ih

/-- Nothing is removed behind the elements that are less if all others are greater. -/
theorem erase_of_comparable {k : κ} {s : List α}
    (h : ∀ x ∈ s, lt (key x) k = true ∨ lt k (key x) = true) : erase key lt k s = s := by
  induction s with
  | nil => rfl
  | cons x s ih =>
      rw [List.forall_mem_cons] at h
      rw [erase]
      split_ifs with hlt hgt
      · rw [ih h.2]
      · rfl
      · exact absurd h.1 (not_or.2 ⟨hlt, hgt⟩)

/-- Nothing but the new element is added. -/
theorem mem_of_mem_insert {a b : α} {s : List α} (h : b ∈ insert key lt a s) : b = a ∨ b ∈ s := by
  induction s with
  | nil => exact .inl (List.mem_singleton.1 h)
  | cons x s ih =>
      rw [insert] at h
      split_ifs at h
      · rcases List.mem_cons.1 h with rfl | h
        · exact .inr List.mem_cons_self
        · exact (ih h).imp_right (List.mem_cons_of_mem x)
      · exact List.mem_cons.1 h
      · exact .inr h

/-- The elements stay when one is added. -/
theorem mem_insert_of_mem {a b : α} {s : List α} (h : b ∈ s) : b ∈ insert key lt a s := by
  induction s with
  | nil => exact absurd h List.not_mem_nil
  | cons x s ih =>
      rw [insert]
      split_ifs
      · rcases List.mem_cons.1 h with rfl | h
        · exact List.mem_cons_self
        · exact List.mem_cons_of_mem x (ih h)
      · exact List.mem_cons_of_mem a h
      · exact h

/-- An element is added, or one that the comparison takes for the same is there. -/
theorem mem_insert_self_or (a : α) (s : List α) : a ∈ insert key lt a s ∨
    ∃ x ∈ s, lt (key x) (key a) = false ∧ lt (key a) (key x) = false := by
  induction s with
  | nil => exact .inl List.mem_cons_self
  | cons x s ih =>
      rw [insert]
      split_ifs with hlt hgt
      · rcases ih with hmem | ⟨y, hy, hrest⟩
        · exact .inl (List.mem_cons_of_mem x hmem)
        · exact .inr ⟨y, List.mem_cons_of_mem x hy, hrest⟩
      · exact .inl List.mem_cons_self
      · exact .inr ⟨x, List.mem_cons_self, Bool.eq_false_iff.2 hlt, Bool.eq_false_iff.2 hgt⟩

/-- An assignment keeps the values of the other keys. -/
theorem mem_of_mem_assign {k : κ} {v : β} {x : κ × β} {s : List (κ × β)}
    (h : x ∈ assign lt k v s) : x ∈ s ∨ x.2 = v := by
  induction s with
  | nil => exact .inr (congrArg Prod.snd (List.mem_singleton.1 h))
  | cons y s ih =>
      rw [assign] at h
      split_ifs at h
      · rcases List.mem_cons.1 h with rfl | h
        · exact .inl List.mem_cons_self
        · exact (ih h).imp_left (List.mem_cons_of_mem y)
      · rcases List.mem_cons.1 h with rfl | h
        · exact .inr rfl
        · exact .inl h
      · rcases List.mem_cons.1 h with rfl | h
        · exact .inr rfl
        · exact .inl (List.mem_cons_of_mem y h)

/-- The value that was assigned is found. -/
theorem find?_assign_self {k : κ} (hk : lt k k = false) (v : β) (s : List (κ × β)) :
    ∃ l, find? Prod.fst lt k (assign lt k v s) = some (l, v) := by
  induction s with
  | nil => exact ⟨k, by rw [assign, find?, hk]; rfl⟩
  | cons y s ih =>
      rw [assign]
      split_ifs with hlt hgt
      · rw [find?, if_pos hlt]
        exact ih
      · exact ⟨k, by rw [find?, hk]; rfl⟩
      · exact ⟨y.1, by rw [find?, if_neg hlt, if_neg hgt]⟩

theorem holds_nil : Holds key rank [] [] := ⟨.nil, .nil⟩

section Container

variable {s t : List α} (h : Holds key rank s t)

include h

/-- No element has an equivalent key. -/
theorem Holds.find?_eq_none {k : κ} (hk : ∀ x ∈ t, Ranked lt rank (key x) k) :
    find? key lt k s = none := by
  have hs : ∀ x ∈ s, Ranked lt rank (key x) k := fun x hx => hk x (h.perm.mem_iff.1 hx)
  clear h hk
  induction s with
  | nil => rfl
  | cons x s ih =>
      rw [List.forall_mem_cons] at hs
      rw [find?]
      rcases hs.1.lt_or_gt with hlt | ⟨hlt, hgt⟩
      · rw [if_pos hlt]
        exact ih hs.2
      · rw [hlt, if_neg Bool.false_ne_true, if_pos hgt]

/-- Nothing is removed if no element has an equivalent key. -/
theorem Holds.erase_eq_self {k : κ} (hk : ∀ x ∈ t, Ranked lt rank (key x) k) :
    erase key lt k s = s :=
  erase_of_comparable fun x hx => (hk x (h.perm.mem_iff.1 hx)).lt_or_gt.imp_right And.right

/-- **A new element is added.** -/
theorem Holds.insert {a : α} (ha : ∀ x ∈ t, Ranked lt rank (key x) (key a)) :
    Holds key rank (insert key lt a s) (a :: t) := by
  have hs : ∀ x ∈ s, Ranked lt rank (key x) (key a) := fun x hx => ha x (h.perm.mem_iff.1 hx)
  suffices Holds key rank (OrderedSet.insert key lt a s) (a :: s) from
    ⟨this.perm.trans (h.perm.cons a), this.sorted⟩
  have hsorted := h.sorted
  clear h ha
  induction s with
  | nil => exact ⟨.refl _, List.pairwise_singleton _ _⟩
  | cons x s ih =>
      rw [List.forall_mem_cons] at hs
      rw [List.pairwise_cons] at hsorted
      rw [OrderedSet.insert]
      rcases hs.1.lt_or_gt with hlt | ⟨hlt, hgt⟩
      · have hin := ih hs.2 hsorted.2
        rw [if_pos hlt]
        refine ⟨(hin.perm.cons x).trans (.swap a x s), List.pairwise_cons.2 ⟨fun y hy => ?_,
          hin.sorted⟩⟩
        rcases List.mem_cons.1 (hin.perm.mem_iff.1 hy) with rfl | hy
        · exact hs.1.lt_iff.1 hlt
        · exact hsorted.1 y hy
      · rw [hlt, if_neg Bool.false_ne_true, if_pos hgt]
        have hax : rank (key a) < rank (key x) := hs.1.gt_iff.1 hgt
        refine ⟨.refl _, List.pairwise_cons.2 ⟨fun y hy => ?_, List.pairwise_cons.2 hsorted⟩⟩
        rcases List.mem_cons.1 hy with rfl | hy
        · exact hax
        · exact lt_trans hax (hsorted.1 y hy)

end Container

section Member

variable {s t : List α} {a : α} (h : Holds key rank s (a :: t)) {k : κ}
  (hk : Equivalent lt rank (key a) k) (ht : ∀ x ∈ t, Ranked lt rank (key x) k)

include h hk ht

/-- The elements in front of the one with an equivalent key are less. -/
theorem Holds.exists_append :
    ∃ l r, s = l ++ a :: r ∧ (l ++ r).Perm t ∧ ∀ x ∈ l, lt (key x) k = true := by
  obtain ⟨l, r, rfl⟩ := List.append_of_mem (h.perm.mem_iff.2 List.mem_cons_self)
  have hperm : (l ++ r).Perm t := (List.perm_middle.symm.trans h.perm).cons_inv
  refine ⟨l, r, rfl, hperm, fun x hx => ?_⟩
  have hranked := ht x (hperm.mem_iff.1 (List.mem_append_left r hx))
  have hlt := (List.pairwise_append.1 h.sorted).2.2 x hx a List.mem_cons_self
  exact hranked.lt_iff.2 (hk.eq ▸ hlt)

/-- The element with an equivalent key is found. -/
theorem Holds.find?_eq_some : find? key lt k s = some a := by
  obtain ⟨l, r, rfl, -, hl⟩ := h.exists_append hk ht
  clear h
  induction l with
  | nil => rw [List.nil_append, find?, hk.not_lt, hk.not_gt]; rfl
  | cons x l ih =>
      rw [List.forall_mem_cons] at hl
      rw [List.cons_append, find?, if_pos hl.1]
      exact ih hl.2

/-- An element with an equivalent key is not added. -/
theorem Holds.insert_eq {b : α} (hb : key b = k) : OrderedSet.insert key lt b s = s := by
  obtain ⟨l, r, rfl, -, hl⟩ := h.exists_append hk ht
  clear h
  induction l with
  | nil => rw [List.nil_append, OrderedSet.insert, hb, hk.not_lt, hk.not_gt]; rfl
  | cons x l ih =>
      rw [List.forall_mem_cons] at hl
      rw [List.cons_append, OrderedSet.insert, hb, if_pos hl.1, ih hl.2]

/-- The element with an equivalent key is taken out of the container. -/
theorem Holds.exists_erase :
    ∃ l r, s = l ++ a :: r ∧ (l ++ r).Perm t ∧ OrderedSet.erase key lt k s = l ++ r := by
  obtain ⟨l, r, rfl, hperm, hl⟩ := h.exists_append hk ht
  have hr : OrderedSet.erase key lt k r = r := erase_of_comparable fun x hx =>
    (ht x (hperm.mem_iff.1 (List.mem_append_right l hx))).lt_or_gt.imp_right And.right
  refine ⟨l, r, rfl, hperm, ?_⟩
  clear h hperm
  induction l with
  | nil => rw [List.nil_append, OrderedSet.erase, hk.not_lt, hk.not_gt]; exact hr
  | cons x l ih =>
      rw [List.forall_mem_cons] at hl
      rw [List.cons_append, OrderedSet.erase, if_pos hl.1, ih hl.2]
      rfl

/-- **The element with an equivalent key is removed.** -/
theorem Holds.erase : Holds key rank (erase key lt k s) t := by
  obtain ⟨l, r, rfl, hperm, herase⟩ := h.exists_erase hk ht
  rw [herase]
  exact ⟨hperm, h.sorted.sublist ((List.sublist_cons_self a r).append_left l)⟩

/-- What is left is what has a property that only the removed element does not have. -/
theorem Holds.erase_eq_filter {p : α → Bool} (ha : p a = false) (hp : ∀ x ∈ t, p x = true) :
    OrderedSet.erase key lt k s = s.filter p := by
  obtain ⟨l, r, rfl, hperm, herase⟩ := h.exists_erase hk ht
  have hall : ∀ x ∈ l ++ r, p x = true := fun x hx => hp x (hperm.mem_iff.1 hx)
  rw [herase, List.filter_append, List.filter_cons_of_neg (by rw [ha]; exact Bool.false_ne_true),
    ← List.filter_append, List.filter_eq_self.2 hall]

end Member

/-- The first element with a property is removed through an iterator. -/
theorem Holds.eraseP {s t : List α} {a : α} (h : Holds key rank s (a :: t)) {p : α → Bool}
    (hfind : s.find? p = some a) : Holds key rank (s.eraseP p) t := by
  obtain ⟨hpa, l, r, rfl, hl⟩ := List.find?_eq_some_iff_append.1 hfind
  have herase : (l ++ a :: r).eraseP p = l ++ r := by
    have hnot : ∀ x ∈ l, ¬ p x = true := fun x hx => by simpa using hl x hx
    rw [List.eraseP_append_right _ hnot, List.eraseP_cons_of_pos hpa]
  rw [herase]
  exact ⟨(List.perm_middle.symm.trans h.perm).cons_inv,
    h.sorted.sublist ((List.sublist_cons_self a r).append_left l)⟩

/-- The order of the description does not matter. -/
theorem Holds.of_perm {s t t' : List α} (h : Holds key rank s t) (ht : t.Perm t') :
    Holds key rank s t' :=
  ⟨h.perm.trans ht, h.sorted⟩

/-- **A new key is given a value** by adding a pair. -/
theorem Holds.assign {s t : List (κ × β)} (h : Holds Prod.fst rank s t) {k : κ} (v : β)
    (hk : ∀ x ∈ t, Ranked lt rank x.1 k) : Holds Prod.fst rank (assign lt k v s) ((k, v) :: t) := by
  have hassign : OrderedSet.assign lt k v s = OrderedSet.insert Prod.fst lt (k, v) s := by
    have hs : ∀ x ∈ s, Ranked lt rank x.1 k := fun x hx => hk x (h.perm.mem_iff.1 hx)
    clear h hk
    induction s with
    | nil => rfl
    | cons x s ih =>
        rw [List.forall_mem_cons] at hs
        rw [OrderedSet.assign, OrderedSet.insert]
        rcases hs.1.lt_or_gt with hlt | ⟨hlt, hgt⟩
        · rw [if_pos hlt, if_pos hlt, ih hs.2]
        · simp only [hlt, hgt, Bool.false_eq_true, if_false, if_true]
  rw [hassign]
  exact h.insert hk

/-! ### Maps under a comparator that agrees with the ranks everywhere -/

/-- The comparator decides between all keys as the order of their ranks does. -/
def Ordered (lt : κ → κ → Bool) (rank : κ → ρ) : Prop := ∀ k l, lt k l = true ↔ rank k < rank l

section Ordered

variable (h : Ordered lt rank)

include h

theorem Ordered.eq_false_iff (k l : κ) : lt k l = false ↔ rank l ≤ rank k := by
  rw [← not_lt, ← h k l, Bool.not_eq_true]

/-- Keys of one rank find the same. -/
theorem find?_congr {k k' : κ} (hrank : rank k = rank k') (s : List α) :
    find? key lt k s = find? key lt k' s := by
  have hlt (x : α) : lt (key x) k = lt (key x) k' := by
    rw [Bool.eq_iff_iff, h, h, hrank]
  have hgt (x : α) : lt k (key x) = lt k' (key x) := by
    rw [Bool.eq_iff_iff, h, h, hrank]
  induction s with
  | nil => rfl
  | cons x s ih => rw [find?, find?, ih, hlt, hgt]

/-- **What is found in a container** that is in order. -/
theorem isSome_find?_iff {s : List α} (hs : s.Pairwise fun x y => lt (key x) (key y) = true)
    {k : κ} : (find? key lt k s).isSome = true ↔ ∃ x ∈ s, rank (key x) = rank k := by
  induction s with
  | nil => exact iff_of_false Bool.false_ne_true fun ⟨_, hx, _⟩ => List.not_mem_nil hx
  | cons x s ih =>
      obtain ⟨hx, hs⟩ := List.pairwise_cons.1 hs
      rw [find?]
      split_ifs with hlt hgt
      · rw [ih hs]
        refine ⟨fun ⟨y, hy, heq⟩ => ⟨y, List.mem_cons_of_mem x hy, heq⟩, fun ⟨y, hy, heq⟩ => ?_⟩
        rcases List.mem_cons.1 hy with rfl | hy
        · exact absurd heq (ne_of_lt ((h _ _).1 hlt))
        · exact ⟨y, hy, heq⟩
      · refine iff_of_false Bool.false_ne_true fun ⟨y, hy, heq⟩ => ?_
        rcases List.mem_cons.1 hy with rfl | hy
        · exact ne_of_gt ((h _ _).1 hgt) heq
        · exact lt_asymm ((h _ _).1 hgt) (heq ▸ (h _ _).1 (hx y hy))
      · refine iff_of_true rfl ⟨x, List.mem_cons_self, le_antisymm ?_ ?_⟩
        · exact (h.eq_false_iff _ _).1 (Bool.eq_false_iff.2 hgt)
        · exact (h.eq_false_iff _ _).1 (Bool.eq_false_iff.2 hlt)

/-- **An assignment to one key does not change what another one finds.** -/
theorem find?_assign_of_ne {k k' : κ} (hrank : rank k' ≠ rank k) (v : β) (s : List (κ × β)) :
    find? Prod.fst lt k' (assign lt k v s) = find? Prod.fst lt k' s := by
  induction s with
  | nil =>
      change (if lt k k' then none else if lt k' k then none else some (k, v)) = none
      rcases lt_or_gt_of_ne hrank with hlt | hgt
      · rw [(h.eq_false_iff k k').2 (le_of_lt hlt), (h k' k).2 hlt]
        rfl
      · rw [if_pos ((h k k').2 hgt)]
  | cons x s ih =>
      rw [assign]
      split_ifs with hxk hkx
      · rw [find?, find?, ih]
      · have hkx : rank k < rank x.1 := (h _ _).1 hkx
        rcases lt_or_gt_of_ne hrank with hlt | hgt
        · have hx := lt_trans hlt hkx
          rw [find?, find?, (h.eq_false_iff k k').2 (le_of_lt hlt), (h k' k).2 hlt,
            (h.eq_false_iff x.1 k').2 (le_of_lt hx), (h k' x.1).2 hx]
          rfl
        · rw [find?, if_pos ((h k k').2 hgt)]
      · have heq : rank x.1 = rank k := le_antisymm
          (not_lt.1 fun hlt => hkx ((h _ _).2 hlt)) (not_lt.1 fun hlt => hxk ((h _ _).2 hlt))
        rw [find?, find?]
        rcases lt_or_gt_of_ne hrank with hlt | hgt
        · rw [(h.eq_false_iff x.1 k').2 (heq ▸ le_of_lt hlt), (h k' x.1).2 (heq ▸ hlt)]
          rfl
        · rw [if_pos ((h x.1 k').2 (heq ▸ hgt)), if_pos ((h x.1 k').2 (heq ▸ hgt))]

end Ordered

/-! ### Maps under a comparator that tells all keys apart -/

/-- The comparator tells all keys apart. -/
structure Total (lt : κ → κ → Bool) (rank : κ → ρ) : Prop where
  ranked : ∀ {k l}, k ≠ l → Ranked lt rank k l
  self : ∀ k, Equivalent lt rank k k

/-- The keys of a map are in the order of their ranks. -/
def Sorted (rank : κ → ρ) (s : List (κ × β)) : Prop := s.Pairwise fun x y => rank x.1 < rank y.1

section Sorted

variable {x y : κ × β} {s : List (κ × β)} (hs : Sorted rank (x :: s))

include hs

theorem Sorted.key_ne_head (hy : y ∈ s) : y.1 ≠ x.1 := fun heq => by
  have hlt := (List.pairwise_cons.1 hs).1 y hy
  rw [heq] at hlt
  exact lt_irrefl _ hlt

theorem Sorted.key_ne_of_lt {k : κ} (hk : rank k < rank x.1) (hy : y ∈ x :: s) : y.1 ≠ k := by
  rintro rfl
  rcases List.mem_cons.1 hy with rfl | hy
  · exact lt_irrefl _ hk
  · exact lt_asymm hk ((List.pairwise_cons.1 hs).1 y hy)

end Sorted

namespace Total

variable (h : Total lt rank) {s : List (κ × β)}

include h

/-- The comparison with the first key of a map. -/
theorem cases_lt (k l : κ) : k = l ∧ lt k l = false ∧ lt l k = false ∨
    k ≠ l ∧ rank k < rank l ∧ lt k l = true ∨
      k ≠ l ∧ rank l < rank k ∧ lt k l = false ∧ lt l k = true := by
  by_cases heq : k = l
  · subst heq
    exact .inl ⟨rfl, (h.self k).not_lt, (h.self k).not_lt⟩
  · rcases (h.ranked heq).lt_or_gt with hlt | ⟨hlt, hgt⟩
    · exact .inr (.inl ⟨heq, (h.ranked heq).lt_iff.1 hlt, hlt⟩)
    · exact .inr (.inr ⟨heq, (h.ranked heq).gt_iff.1 hgt, hlt, hgt⟩)

/-- **The entries behind an assignment.** -/
theorem mem_assign (hs : Sorted rank s) {k : κ} {v : β} {y : κ × β} :
    y ∈ assign lt k v s ↔ y = (k, v) ∨ y.1 ≠ k ∧ y ∈ s := by
  induction s with
  | nil => simp [assign]
  | cons x s ih =>
      have ih := ih (List.pairwise_cons.1 hs).2
      rw [assign]
      rcases h.cases_lt x.1 k with ⟨rfl, hlt, hgt⟩ | ⟨hne, -, hlt⟩ | ⟨hne, hrank, hlt, hgt⟩
      · rw [hlt]
        simp only [Bool.false_eq_true, if_false, List.mem_cons]
        have hrest : y ∈ s → y.1 ≠ x.1 := hs.key_ne_head
        have hfirst : y.1 ≠ x.1 → y ≠ x := fun hne heq => hne (congrArg Prod.fst heq)
        grind
      · rw [if_pos hlt, List.mem_cons, ih, List.mem_cons]
        have hfirst : y = x → y.1 ≠ k := fun heq => heq ▸ hne
        grind
      · rw [hlt, if_neg Bool.false_ne_true, if_pos hgt, List.mem_cons]
        have hall : y ∈ x :: s → y.1 ≠ k := hs.key_ne_of_lt hrank
        grind

/-- **The entries behind an erasure.** -/
theorem mem_erase (hs : Sorted rank s) {k : κ} {y : κ × β} :
    y ∈ erase Prod.fst lt k s ↔ y.1 ≠ k ∧ y ∈ s := by
  induction s with
  | nil => simp [erase]
  | cons x s ih =>
      have ih := ih (List.pairwise_cons.1 hs).2
      rw [erase]
      rcases h.cases_lt x.1 k with ⟨rfl, hlt, hgt⟩ | ⟨hne, -, hlt⟩ | ⟨hne, hrank, hlt, hgt⟩
      · rw [hlt, if_neg Bool.false_ne_true, if_neg Bool.false_ne_true, ih, List.mem_cons]
        have hfirst : y.1 ≠ x.1 → y ≠ x := fun hne heq => hne (congrArg Prod.fst heq)
        grind
      · rw [if_pos hlt, List.mem_cons, ih, List.mem_cons]
        have hfirst : y = x → y.1 ≠ k := fun heq => heq ▸ hne
        grind
      · rw [hlt, if_neg Bool.false_ne_true, if_pos hgt]
        have hall : y ∈ x :: s → y.1 ≠ k := hs.key_ne_of_lt hrank
        grind

theorem sorted_assign (hs : Sorted rank s) (k : κ) (v : β) : Sorted rank (assign lt k v s) := by
  induction s with
  | nil => exact List.pairwise_singleton _ _
  | cons x s ih =>
      obtain ⟨hx, hrest⟩ := List.pairwise_cons.1 hs
      rw [assign]
      rcases h.cases_lt x.1 k with ⟨rfl, hlt, hgt⟩ | ⟨hne, hrank, hlt⟩ | ⟨hne, hrank, hlt, hgt⟩
      · rw [hlt]
        exact List.pairwise_cons.2 ⟨hx, hrest⟩
      · rw [if_pos hlt]
        refine List.pairwise_cons.2 ⟨fun y hy => ?_, ih hrest⟩
        rcases (h.mem_assign hrest).1 hy with rfl | ⟨-, hy⟩
        · exact hrank
        · exact hx y hy
      · rw [hlt, if_neg Bool.false_ne_true, if_pos hgt]
        refine List.pairwise_cons.2 ⟨fun y hy => ?_, hs⟩
        rcases List.mem_cons.1 hy with rfl | hy
        · exact hrank
        · exact lt_trans hrank (hx y hy)

omit h in
theorem sorted_erase (hs : Sorted rank s) (k : κ) : Sorted rank (erase Prod.fst lt k s) := by
  induction s with
  | nil => exact .nil
  | cons x s ih =>
      obtain ⟨hx, hrest⟩ := List.pairwise_cons.1 hs
      rw [erase]
      split_ifs
      · refine List.pairwise_cons.2 ⟨fun y hy => hx y ?_, ih hrest⟩
        exact mem_of_mem_erase hy
      · exact hs
      · exact ih hrest

/-- **The entry that is found.** -/
theorem find?_eq_some_iff (hs : Sorted rank s) {k : κ} {y : κ × β} :
    find? Prod.fst lt k s = some y ↔ y.1 = k ∧ y ∈ s := by
  induction s with
  | nil => simp [find?]
  | cons x s ih =>
      have ih := ih (List.pairwise_cons.1 hs).2
      rw [find?]
      rcases h.cases_lt x.1 k with ⟨rfl, hlt, hgt⟩ | ⟨hne, -, hlt⟩ | ⟨hne, hrank, hlt, hgt⟩
      · rw [hlt]
        simp only [Bool.false_eq_true, if_false, Option.some.injEq, List.mem_cons]
        have hrest : y ∈ s → y.1 ≠ x.1 := hs.key_ne_head
        have hfirst : x = y → y.1 = x.1 := fun heq => congrArg Prod.fst heq.symm
        have hsymm : x = y ↔ y = x := eq_comm
        grind
      · rw [if_pos hlt, ih, List.mem_cons]
        have hfirst : y = x → y.1 ≠ k := fun heq => heq ▸ hne
        grind
      · rw [hlt, if_neg Bool.false_ne_true, if_pos hgt]
        have hall : y ∈ x :: s → y.1 ≠ k := hs.key_ne_of_lt hrank
        simp only [reduceCtorEq, false_iff]
        grind

end Total

/-! ### Comparisons that are transitive only -/

section Transitive

variable {s : List α} (htrans : ∀ k l m, lt k l = true → lt l m = true → lt k m = true)

theorem sublist_erase (k : κ) (s : List α) : (erase key lt k s).Sublist s := by
  induction s with
  | nil => exact .refl _
  | cons x s ih =>
      rw [erase]
      split_ifs
      · exact ih.cons_cons x
      · exact .refl _
      · exact ih.cons x

include htrans in
/-- **Every container is in the order of its comparison**: an element is added in front of one that
is greater. -/
theorem pairwise_insert (a : α) (hs : s.Pairwise fun x y => lt (key x) (key y) = true) :
    (insert key lt a s).Pairwise fun x y => lt (key x) (key y) = true := by
  induction s with
  | nil => exact List.pairwise_singleton _ _
  | cons x s ih =>
      rw [insert]
      obtain ⟨hx, hs'⟩ := List.pairwise_cons.1 hs
      split_ifs with hlt hgt
      · refine List.pairwise_cons.2 ⟨fun y hy => ?_, ih hs'⟩
        rcases mem_of_mem_insert hy with rfl | hy
        · exact hlt
        · exact hx y hy
      · refine List.pairwise_cons.2 ⟨fun y hy => ?_, hs⟩
        rcases List.mem_cons.1 hy with rfl | hy
        · exact hgt
        · exact htrans _ _ _ hgt (hx y hy)
      · exact hs

/-- In a container that is in order, an element is erased by its key. -/
theorem perm_erase (hs : s.Pairwise fun x y => lt (key x) (key y) = true) {a : α} (ha : a ∈ s)
    (hself : lt (key a) (key a) = false) : s.Perm (a :: erase key lt (key a) s) := by
  induction s with
  | nil => exact absurd ha List.not_mem_nil
  | cons x s ih =>
      obtain ⟨hx, hs'⟩ := List.pairwise_cons.1 hs
      rcases List.mem_cons.1 ha with rfl | ha
      · rw [erase, hself, if_neg Bool.false_ne_true, if_neg Bool.false_ne_true,
          erase_of_comparable fun y hy => .inr (hx y hy)]
      · rw [erase, if_pos (hx a ha)]
        exact ((ih hs' ha).cons x).trans (.swap a x _)

/-- **An element is added if it is comparable to all others.** -/
theorem perm_insert {a : α} (ha : ∀ x ∈ s, lt (key x) (key a) = true ∨ lt (key a) (key x) = true) :
    (insert key lt a s).Perm (a :: s) := by
  induction s with
  | nil => exact .refl _
  | cons x s ih =>
      rw [insert]
      split_ifs with hlt hgt
      · exact ((ih fun y hy => ha y (List.mem_cons_of_mem x hy)).cons x).trans (.swap a x s)
      · exact .refl _
      · exact absurd (ha x List.mem_cons_self) (not_or.2 ⟨hlt, hgt⟩)

include htrans in
/-- **An element is not added if one is there that it is not comparable to.** -/
theorem insert_eq_self (hs : s.Pairwise fun x y => lt (key x) (key y) = true) {a : α}
    (ha : ∃ x ∈ s, lt (key x) (key a) = false ∧ lt (key a) (key x) = false) :
    insert key lt a s = s := by
  induction s with
  | nil =>
      obtain ⟨x, hx, -⟩ := ha
      exact absurd hx List.not_mem_nil
  | cons x s ih =>
      obtain ⟨hx, hs'⟩ := List.pairwise_cons.1 hs
      obtain ⟨y, hy, hlt, hgt⟩ := ha
      rw [insert]
      split_ifs with hxa hax
      · rcases List.mem_cons.1 hy with rfl | hy
        · rw [hlt] at hxa
          cases hxa
        · rw [ih hs' ⟨y, hy, hlt, hgt⟩]
      · rcases List.mem_cons.1 hy with rfl | hy
        · rw [hgt] at hax
          cases hax
        · rw [htrans _ _ _ hax (hx y hy)] at hgt
          cases hgt
      · rfl

/-- **A key that finds nothing is compared to all elements**, if it is to those behind one that it
is less than. -/
theorem comparable_of_between {k : κ} {s : List α}
    (hs : s.Pairwise fun x y => lt (key x) (key y) = true)
    (hbetween : ∀ x ∈ s, ∀ y ∈ s, lt k (key x) = true → lt (key x) (key y) = true →
      lt (key y) k = true ∨ lt k (key y) = true) (h : find? key lt k s = none) :
    ∀ x ∈ s, lt (key x) k = true ∨ lt k (key x) = true := by
  induction s with
  | nil => exact fun _ => nofun
  | cons x s ih =>
      obtain ⟨hx, hs'⟩ := List.pairwise_cons.1 hs
      rw [find?] at h
      split_ifs at h with hlt hgt
      · exact List.forall_mem_cons.2 ⟨.inl hlt, ih hs' (fun x hx y hy => hbetween x
          (List.mem_cons_of_mem _ hx) y (List.mem_cons_of_mem _ hy)) h⟩
      · exact List.forall_mem_cons.2 ⟨.inr hgt, fun y hy =>
          hbetween x List.mem_cons_self y (List.mem_cons_of_mem x hy) hgt (hx y hy)⟩

include htrans in
/-- A key that finds nothing can be compared to all elements. -/
theorem comparable_of_find?_eq_none (hs : s.Pairwise fun x y => lt (key x) (key y) = true) {k : κ}
    (h : find? key lt k s = none) : ∀ x ∈ s, lt (key x) k = true ∨ lt k (key x) = true :=
  comparable_of_between hs (fun _ _ _ _ hkx hxy => .inr (htrans _ _ _ hkx hxy)) h

include htrans in
/-- **A key erases the elements that it is not comparable to.** -/
theorem erase_eq_filter (hs : s.Pairwise fun x y => lt (key x) (key y) = true) (k : κ) :
    erase key lt k s = s.filter fun x => lt (key x) k || lt k (key x) := by
  induction s with
  | nil => rfl
  | cons x s ih =>
      obtain ⟨hx, hs'⟩ := List.pairwise_cons.1 hs
      rw [erase]
      split_ifs with hlt hgt
      · rw [List.filter_cons_of_pos (by rw [hlt]; rfl), ih hs']
      · refine (List.filter_eq_self.2 fun y hy => ?_).symm
        rw [Bool.or_eq_true]
        rcases List.mem_cons.1 hy with rfl | hy
        · exact .inr hgt
        · exact .inr (htrans _ _ _ hgt (hx y hy))
      · rw [List.filter_cons_of_neg (by rw [Bool.or_eq_true]; exact not_or.2 ⟨hlt, hgt⟩), ih hs']

include htrans in
/-- What is left and what is erased. -/
theorem perm_erase_append (hs : s.Pairwise fun x y => lt (key x) (key y) = true) (k : κ) :
    (erase key lt k s ++ s.filter fun x => !(lt (key x) k || lt k (key x))).Perm s := by
  rw [erase_eq_filter htrans hs]
  exact List.filter_append_perm _ s

end Transitive

end OrderedSet
