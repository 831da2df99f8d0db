import IbrDtn.Core.SQLiteBundleStorage
import IbrDtn.Library.Selection

/-!
# Queries of the storage in a database

This file models `SQLiteBundleStorage::get(BundleFilterCallback&)`.  A filter may come with a condition
in SQL; otherwise the generic statement is used, which has no column for the hop count.  The rows
are collected page by page, and each is offered to the filter unless a mark hides it.  Rows of the
same priority come in any order, but in the same one for every page.

## Main definitions

* `BundleFilter` : `BundleFilterCallback`, with the condition of `SQLBundleQuery` if it is one.
* `SQLiteBundleStorage.Returns` : the rows that the query returns.
* `SQLiteBundleStorage.getFilter` : the two loops.

## Main results

* `SQLiteBundleStorage.getFilter_eq` : the loops end, and select what the filter accepts.
-/

namespace IbrDtn

open Selection (select select_append select_zero select_nil)

/-- `class BundleFilterCallback`. A filter that is a `SQLBundleQuery` has a condition on rows. -/
structure BundleFilter (ε : Type) where
  limit : ℕ
  shouldAdd : MetaBundle → Except ε Bool
  getWhere : Option (BundleRow → Bool)

namespace SQLiteBundleStorage

variable {ε : Type} (s : SQLiteBundleStorage) (c : Clock) (f : BundleFilter ε)

/-- The rows that the query of a filter returns, in some order of descending priority. -/
structure Returns (f : BundleFilter ε) (db : Database) (rows : List BundleRow) : Prop where
  perm : rows.Perm (db.bundles.filter fun row => (f.getWhere.map (· row)).getD true)
  sorted : rows.Pairwise fun a b => b.priority ≤ a.priority

/-- The rows of a query, those of the same priority in the order of the table. -/
def query (f : BundleFilter ε) (db : Database) : List BundleRow :=
  Table.orderBy (fun row => -row.priority)
    (db.bundles.filter fun row => (f.getWhere.map (· row)).getD true)

theorem returns_query (f : BundleFilter ε) (db : Database) : Returns f db (query f db) :=
  ⟨Table.perm_orderBy, Table.pairwise_orderBy.imp fun h => neg_le_neg_iff.1 h⟩

/-- What is read from a row. -/
def readMeta (row : BundleRow) : MetaBundle := row.metaBundle c f.getWhere.isSome

/-- The filter decides on a row that no mark hides. -/
def offer (row : BundleRow) : Except ε Bool :=
  let m := readMeta c f row
  if s.containsDeletion m.toBundleID then .ok false else f.shouldAdd m

/-- The loop over the rows of a page. -/
def collect : List BundleRow → List MetaBundle → Except ε (List MetaBundle)
  | [], ret => .ok ret
  | row :: rows, ret =>
      match s.offer c f row with
      | .error e => .error e
      | .ok added =>
          let ret := if added then ret ++ [readMeta c f row] else ret
          if rows.isEmpty then .ok ret
          else if 0 < f.limit ∧ f.limit ≤ ret.length then .ok ret
          else collect rows ret

/-- The page at the given offset. Without a limit, the generic statement is asked for ten rows, and
any other one for all. -/
def page (offset : ℕ) (rows : List BundleRow) : List BundleRow :=
  if 0 < f.limit then (rows.drop offset).take f.limit
  else if f.getWhere.isNone then (rows.drop offset).take 10
  else rows

/-- The loop over the pages, with a bound on their number. -/
def getPages (rows : List BundleRow) :
    ℕ → ℕ → List MetaBundle → Option (Except ε (List MetaBundle))
  | 0, _, _ => none
  | n + 1, offset, ret =>
      if (page f offset rows).isEmpty then some (.ok ret)
      else
        match s.collect c f (page f offset rows) ret with
        | .error e => some (.error e)
        | .ok ret =>
            if 0 < f.limit then
              if f.limit ≤ ret.length then some (.ok ret)
              else getPages rows n (offset + f.limit) ret
            else if f.getWhere.isNone then getPages rows n (offset + 10) ret
            else some (.ok ret)

/-- `SQLiteBundleStorage::get(BundleFilterCallback&)`, for the rows that its query returns. Each page
but the last has a row. -/
def getFilter (rows : List BundleRow) : Option (Except ε (List MetaBundle)) :=
  s.getPages c f rows (rows.length + 1) 0 []

variable {s c f} {rows : List BundleRow}

/-- The elements that may still be added. -/
def Budget (f : BundleFilter ε) (n : ℕ) (ret : List MetaBundle) (rows : List BundleRow) : Prop :=
  if 0 < f.limit then 0 < n ∧ n + ret.length = f.limit else rows.length ≤ n

/-- **The loop over a page selects from its rows.** -/
theorem collect_eq {n : ℕ} {ret : List MetaBundle} (hn : Budget f n ret rows) :
    s.collect c f rows ret =
      (select (s.offer c f) n rows).map fun t => ret ++ t.map (readMeta c f) := by
  induction rows generalizing n ret with
  | nil =>
      rw [select_nil, collect]
      simp [Except.map]
  | cons row rows ih =>
      have hpos : 0 < n := by
        rw [Budget] at hn
        split_ifs at hn
        · exact hn.1
        · exact Nat.lt_of_lt_of_le (Nat.zero_lt_succ _) hn
      obtain ⟨n, rfl⟩ := Nat.exists_eq_succ_of_ne_zero hpos.ne'
      rw [collect, select]
      cases hoffer : s.offer c f row with
      | error e => rfl
      | ok added =>
          cases added with
          | false =>
              have hn' : Budget f (n + 1) ret rows := by
                rw [Budget] at hn ⊢
                split_ifs at hn ⊢
                · exact hn
                · exact Nat.le_of_succ_le hn
              have hnot : ¬ (0 < f.limit ∧ f.limit ≤ ret.length) := by
                rintro ⟨hlimit, hle⟩
                rw [Budget, if_pos hlimit] at hn
                omega
              cases rows with
              | nil => simp [select_nil, Except.map]
              | cons row' rows => simp [hnot, ih hn']
          | true =>
              simp only [if_true]
              cases rows with
              | nil => simp [select_nil, Except.map]
              | cons row' rows =>
                  rw [if_neg (by simp)]
                  by_cases hfull : 0 < f.limit ∧ f.limit ≤ (ret ++ [readMeta c f row]).length
                  · have hzero : n = 0 := by
                      rw [Budget, if_pos hfull.1] at hn
                      have := hfull.2
                      rw [List.length_append, List.length_singleton] at this
                      omega
                    rw [if_pos hfull, hzero, select_zero]
                    rfl
                  · have hn' : Budget f n (ret ++ [readMeta c f row]) (row' :: rows) := by
                      rw [List.length_append, List.length_singleton] at hfull
                      rw [Budget] at hn ⊢
                      rw [List.length_append, List.length_singleton]
                      split_ifs at hn ⊢ with hlimit
                      · have := mt (And.intro hlimit) hfull
                        omega
                      · exact Nat.le_of_succ_le_succ hn
                    rw [if_neg hfull, ih hn']
                    cases select (s.offer c f) n (row' :: rows) with
                    | error e => rfl
                    | ok t => simp [Except.map]

/-- A page and the rows behind it are the rows from its offset on. -/
theorem page_append {offset : ℕ}
    (hoffset : 0 < f.limit ∨ f.getWhere.isNone = true ∨ offset = 0) :
    rows.drop offset = page f offset rows ++ rows.drop (offset +
      if 0 < f.limit then f.limit else if f.getWhere.isNone then 10 else rows.length) := by
  rw [page, ← List.drop_drop]
  by_cases hlimit : 0 < f.limit
  · rw [if_pos hlimit, if_pos hlimit, List.take_append_drop]
  · rw [if_neg hlimit, if_neg hlimit]
    by_cases hnone : f.getWhere.isNone = true
    · rw [if_pos hnone, if_pos hnone, List.take_append_drop]
    · obtain rfl := (hoffset.resolve_left hlimit).resolve_left hnone
      rw [if_neg hnone, if_neg hnone, List.drop_zero, List.drop_length, List.append_nil]

/-- **The loop over the pages selects from all rows.** -/
theorem getPages_eq {fuel offset n : ℕ} {ret : List MetaBundle} (hpos : 0 < fuel)
    (hfuel : rows.length < fuel + offset) (hn : Budget f n ret (rows.drop offset))
    (hoffset : 0 < f.limit ∨ f.getWhere.isNone = true ∨ offset = 0) :
    s.getPages c f rows fuel offset ret =
      some ((select (s.offer c f) n (rows.drop offset)).map fun t => ret ++ t.map (readMeta c f)) := by
  induction fuel generalizing offset n ret with
  | zero => exact absurd hpos (Nat.lt_irrefl 0)
  | succ fuel ih =>
      have hsplit : rows.drop offset = page f offset rows ++ _ := page_append hoffset
      rw [getPages]
      by_cases hempty : (page f offset rows).isEmpty = true
      · have hdrop : rows.drop offset = [] := by
          have hlength := congrArg List.length hsplit
          rw [List.isEmpty_iff.1 hempty, List.nil_append, List.length_drop, List.length_drop]
            at hlength
          refine List.drop_eq_nil_of_le ?_
          split_ifs at hlength <;> omega
        rw [if_pos hempty, hdrop, select_nil]
        simp [Except.map]
      · have hlt : offset < rows.length := by
          by_contra hle
          rw [List.drop_eq_nil_of_le (Nat.le_of_not_lt hle)] at hsplit
          exact hempty (List.isEmpty_iff.2 (List.append_eq_nil_iff.1 hsplit.symm).1)
        have hbudget : Budget f n ret (page f offset rows) := by
          rw [Budget] at hn ⊢
          split_ifs at hn ⊢
          · exact hn
          · rw [hsplit, List.length_append] at hn
            omega
        rw [if_neg hempty, collect_eq hbudget, hsplit, select_append]
        cases hselect : select (s.offer c f) n (page f offset rows) with
        | error e => rfl
        | ok t =>
            have hmap (r : Except ε (List BundleRow)) : ((r.map (t ++ ·)).map fun t =>
                ret ++ t.map (readMeta c f)) =
                r.map fun u => ret ++ t.map (readMeta c f) ++ u.map (readMeta c f) := by
              cases r <;> simp [Except.map]
            dsimp only
            rw [hmap]
            simp only [Except.map]
            by_cases hlimit : 0 < f.limit
            · rw [if_pos hlimit, if_pos hlimit]
              rw [Budget, if_pos hlimit] at hn
              by_cases hfull : f.limit ≤ (ret ++ t.map (readMeta c f)).length
              · have hzero : n - t.length = 0 := by
                  rw [List.length_append, List.length_map] at hfull
                  omega
                rw [if_pos hfull, hzero, select_zero]
                simp
              · rw [if_neg hfull]
                rw [List.length_append, List.length_map] at hfull
                refine ih (by omega) (by omega) ?_ (.inl hlimit)
                rw [Budget, if_pos hlimit, List.length_append, List.length_map]
                omega
            · rw [if_neg hlimit, if_neg hlimit]
              by_cases hnone : f.getWhere.isNone = true
              · rw [if_pos hnone, if_pos hnone]
                refine ih (by omega) (by omega) ?_ (.inr (.inl hnone))
                have hle : t.length ≤ (page f offset rows).length := by
                  rw [Selection.eq_take_of_select hselect]
                  exact (List.length_take_le' _ _).trans (List.length_filter_le _ _)
                rw [Budget, if_neg hlimit] at hn ⊢
                rw [hsplit, List.length_append, if_neg hlimit, if_pos hnone] at hn
                omega
              · rw [if_neg hnone, if_neg hnone, List.drop_eq_nil_of_le (Nat.le_add_left _ _),
                  select_nil]
                simp

/-- **The query ends, and its result is what the filter selects** from the rows: up to the limit if there
is one, and from the first row to the last. -/
theorem getFilter_eq : s.getFilter c f rows =
    some ((select (s.offer c f) (if 0 < f.limit then f.limit else rows.length) rows).map
      (List.map (readMeta c f))) := by
  have hn : Budget f (if 0 < f.limit then f.limit else rows.length) [] (rows.drop 0) := by
    rw [Budget]
    split_ifs with hlimit
    · exact ⟨hlimit, rfl⟩
    · exact Nat.le_refl _
  rw [getFilter, getPages_eq (Nat.succ_pos _) (Nat.lt_succ_self _) hn (.inr (.inr rfl))]
  rfl

end SQLiteBundleStorage

end IbrDtn
