import IbrDtn.Library.OrderedSet

/-!
# Contributions under keys

An ordered set may hold one contribution for each key: a new contribution is put in the place of the
one that has its key.  Such sets are merged into each other, subtracted from each other, and purged
of the contributions whose time has come.

## Main definitions

* `OrderedSet.value` : the contribution for a key.
* `OrderedSet.put`, `OrderedSet.merge`, `OrderedSet.subtract`, `OrderedSet.purge` : the operations.

## Main results

* `OrderedSet.Total.value_merge`, `OrderedSet.Total.value_subtract`,
  `OrderedSet.Total.value_purge` : the contributions behind the operations, key by key.
-/

namespace OrderedSet

variable {κ β ρ : Type} (lt : κ → κ → Bool)

/-- The contribution for a key. -/
def value (k : κ) (s : List (κ × β)) : Option β := (find? Prod.fst lt k s).map Prod.snd

/-- A contribution in the place of the one with its key. -/
def put (x : κ × β) (s : List (κ × β)) : List (κ × β) :=
  insert Prod.fst lt x (erase Prod.fst lt x.1 s)

/-- Every contribution of `o` is put into `s`. -/
def merge (s o : List (κ × β)) : List (κ × β) := o.foldl (fun s x => put lt x s) s

/-- The contribution for every key of `o` is erased from `s`. -/
def subtract (s o : List (κ × β)) : List (κ × β) :=
  o.foldl (fun s x => erase Prod.fst lt x.1 s) s

/-- The contributions whose time has not come. -/
def purge (gone : β → Bool) (s : List (κ × β)) : List (κ × β) := s.filter fun x => !gone x.2

variable {lt} [LinearOrder ρ] {rank : κ → ρ} (h : Total lt rank) {s o : List (κ × β)}

/-- A comparator tells all keys apart if it agrees with ranks that do. -/
theorem Ordered.total (horder : Ordered lt rank) (hrank : Function.Injective rank) :
    Total lt rank where
  ranked hne := ⟨horder _ _, horder _ _, hrank.ne hne⟩
  self _ := ⟨(horder.eq_false_iff _ _).2 le_rfl, (horder.eq_false_iff _ _).2 le_rfl, rfl⟩

theorem sorted_purge (gone : β → Bool) (hs : Sorted rank s) : Sorted rank (purge gone s) :=
  List.Pairwise.sublist List.filter_sublist hs

theorem sorted_subtract (hs : Sorted rank s) (o : List (κ × β)) :
    Sorted rank (subtract lt s o) := by
  induction o generalizing s with
  | nil => exact hs
  | cons x o ih => exact ih (Total.sorted_erase hs x.1)

namespace Total

include h

theorem value_eq_some_iff (hs : Sorted rank s) {k : κ} {v : β} :
    value lt k s = some v ↔ (k, v) ∈ s := by
  rw [value, Option.map_eq_some_iff]
  constructor
  · rintro ⟨x, hx, rfl⟩
    obtain ⟨rfl, hmem⟩ := (h.find?_eq_some_iff hs).1 hx
    exact hmem
  · intro hmem
    exact ⟨(k, v), (h.find?_eq_some_iff hs).2 ⟨rfl, hmem⟩, rfl⟩

/-- A set is empty exactly if there is no contribution for any key. -/
theorem eq_nil_iff (hs : Sorted rank s) : s = [] ↔ ∀ k, value lt k s = none := by
  constructor
  · rintro rfl k
    rfl
  · intro hnone
    rw [List.eq_nil_iff_forall_not_mem]
    intro x hx
    have hsome := (h.value_eq_some_iff hs).2 hx
    rw [hnone x.1] at hsome
    cases hsome

/-- The contribution that is put replaces the one with its key. -/
theorem put_eq_assign (hs : Sorted rank s) (x : κ × β) : put lt x s = assign lt x.1 x.2 s := by
  rw [put]
  induction s with
  | nil => rfl
  | cons y s ih =>
      obtain ⟨hy, hrest⟩ := List.pairwise_cons.1 hs
      rw [erase, assign]
      rcases h.cases_lt y.1 x.1 with ⟨heq, hlt, hgt⟩ | ⟨-, -, hlt⟩ | ⟨-, -, hlt, hgt⟩
      · rw [hlt, hgt]
        simp only [Bool.false_eq_true, if_false]
        have hbehind : ∀ z ∈ s, lt z.1 x.1 = false ∧ lt x.1 z.1 = true := by
          intro z hz
          have hrank := hy z hz
          rw [heq] at hrank
          have hranked : Ranked lt rank x.1 z.1 :=
            h.ranked fun hxz => lt_irrefl _ (hxz ▸ hrank)
          exact ⟨Bool.eq_false_iff.2 fun hgt => lt_asymm hrank (hranked.gt_iff.1 hgt),
            hranked.lt_iff.2 hrank⟩
        rw [erase_of_comparable fun z hz => .inr (hbehind z hz).2]
        cases s with
        | nil => rw [insert, heq]
        | cons z s =>
            obtain ⟨hlt, hgt⟩ := hbehind z List.mem_cons_self
            rw [insert, hlt, if_neg Bool.false_ne_true, if_pos hgt, heq]
      · rw [if_pos hlt, if_pos hlt, insert, if_pos hlt, ih hrest]
      · rw [hlt, if_neg Bool.false_ne_true, if_pos hgt, if_neg Bool.false_ne_true, if_pos hgt,
          insert, hlt, if_neg Bool.false_ne_true, if_pos hgt]

theorem sorted_put (hs : Sorted rank s) (x : κ × β) : Sorted rank (put lt x s) := by
  rw [h.put_eq_assign hs]
  exact h.sorted_assign hs x.1 x.2

theorem sorted_merge (hs : Sorted rank s) (o : List (κ × β)) : Sorted rank (merge lt s o) := by
  induction o generalizing s with
  | nil => exact hs
  | cons x o ih => exact ih (h.sorted_put hs x)

/-- There is no contribution for the key of the first element behind it. -/
theorem value_tail {x : κ × β} (hs : Sorted rank (x :: s)) : value lt x.1 s = none := by
  rw [Option.eq_none_iff_forall_ne_some]
  intro v hv
  exact hs.key_ne_head ((h.value_eq_some_iff (List.pairwise_cons.1 hs).2).1 hv) rfl

section Decidable

variable [DecidableEq κ]

theorem value_put (hs : Sorted rank s) (x : κ × β) (k : κ) :
    value lt k (put lt x s) = if k = x.1 then some x.2 else value lt k s := by
  refine Option.ext fun v => ?_
  rw [h.value_eq_some_iff (h.sorted_put hs x), h.put_eq_assign hs, h.mem_assign hs]
  split_ifs with hk
  · subst hk
    simp [Prod.ext_iff, eq_comm]
  · rw [h.value_eq_some_iff hs]
    simp [Prod.ext_iff, hk]

theorem value_erase (hs : Sorted rank s) (k k' : κ) :
    value lt k (erase Prod.fst lt k' s) = if k = k' then none else value lt k s := by
  refine Option.ext fun v => ?_
  rw [h.value_eq_some_iff (sorted_erase hs k'), h.mem_erase hs]
  split_ifs with hk
  · simp [hk]
  · rw [h.value_eq_some_iff hs]
    simp [hk]

theorem value_cons {x : κ × β} (hs : Sorted rank (x :: s)) (k : κ) :
    value lt k (x :: s) = if k = x.1 then some x.2 else value lt k s := by
  refine Option.ext fun v => ?_
  rw [h.value_eq_some_iff hs, List.mem_cons]
  split_ifs with hk
  · subst hk
    have hnot : (x.1, v) ∉ s := fun hmem => hs.key_ne_head hmem rfl
    simp [Prod.ext_iff, hnot, eq_comm]
  · rw [h.value_eq_some_iff (List.pairwise_cons.1 hs).2]
    simp [Prod.ext_iff, hk]

/-- **The contributions behind a merge**: those that were merged, and the others as before. -/
theorem value_merge (hs : Sorted rank s) (ho : Sorted rank o) (k : κ) :
    value lt k (merge lt s o) = (value lt k o).or (value lt k s) := by
  induction o generalizing s with
  | nil => rfl
  | cons x o ih =>
      have hrest := (List.pairwise_cons.1 ho).2
      change value lt k (merge lt (put lt x s) o) = _
      rw [ih (h.sorted_put hs x) hrest, h.value_put hs, h.value_cons ho]
      split_ifs with hk
      · rw [hk, h.value_tail ho]
        rfl
      · rfl

/-- **The contributions behind a subtraction**: those for other keys. -/
theorem value_subtract (hs : Sorted rank s) (ho : Sorted rank o) (k : κ) :
    value lt k (subtract lt s o) = if (value lt k o).isSome then none else value lt k s := by
  induction o generalizing s with
  | nil => rfl
  | cons x o ih =>
      have hrest := (List.pairwise_cons.1 ho).2
      change value lt k (subtract lt (erase Prod.fst lt x.1 s) o) = _
      rw [ih (sorted_erase hs x.1) hrest, h.value_erase hs, h.value_cons ho]
      split_ifs <;> simp_all

omit [DecidableEq κ] in
/-- **The contributions behind a purge**: those whose time has not come. -/
theorem value_purge (gone : β → Bool) (hs : Sorted rank s) (k : κ) :
    value lt k (purge gone s) = (value lt k s).filter fun v => !gone v := by
  refine Option.ext fun v => ?_
  rw [h.value_eq_some_iff (sorted_purge gone hs), purge, List.mem_filter,
    Option.filter_eq_some_iff, h.value_eq_some_iff hs]

end Decidable

end Total

end OrderedSet
