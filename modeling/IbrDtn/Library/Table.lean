import Mathlib

/-!
# Tables of a database

This file models tables of rows as an SQL database keeps them: a unique index in which rows without a
value never conflict, a trigger that deletes the rows of another table with those they refer to,
queries in an order, and sessions in which a transaction may be open.

## Main definitions

* `Table.insert?` : the insertion of a row that a unique index permits.
* `Table.cascade` : what a trigger leaves of a table when rows of another one are deleted.
* `Table.orderBy` : the rows in the order of a column; equal ones stay in the order of the table.
* `Session` : a database with the contents to which a rollback returns.

## Main results

* `Table.mem_cascade` : the rows that a trigger leaves.
* `Table.pairwise_orderBy`, `Table.le_of_head?_orderBy` : the order of a query, and its first row.
-/

namespace Table

variable {α β κ : Type}

/-- The rows with a new one, if no row has its value of the index. -/
def insert? [DecidableEq κ] (key : α → Option κ) (row : α) (rows : List α) : Option (List α) :=
  if (key row).isSome && rows.any (fun r => decide (key r = key row)) then none
  else some (rows ++ [row])

section Insert

variable [DecidableEq κ] {key : α → Option κ} {row : α} {rows rows' : List α}

/-- A row that is inserted comes last, and no other row has its value. -/
theorem insert?_eq_some_iff : insert? key row rows = some rows' ↔
    rows' = rows ++ [row] ∧ (key row = none ∨ ∀ r ∈ rows, key r ≠ key row) := by
  rw [insert?]
  by_cases hnone : key row = none
  · simp [hnone, eq_comm]
  · have hsome : (key row).isSome = true := Option.isSome_iff_ne_none.2 hnone
    by_cases hany : ∃ r ∈ rows, key r = key row
    · have hif : rows.any (fun r => decide (key r = key row)) = true := by simpa using hany
      rw [hsome, hif, Bool.and_self, if_pos rfl]
      obtain ⟨r, hr, heq⟩ := hany
      refine ⟨fun h => absurd h (by simp), fun ⟨_, h⟩ => ?_⟩
      exact absurd heq (h.resolve_left hnone r hr)
    · have hif : rows.any (fun r => decide (key r = key row)) = false := by simpa using hany
      push Not at hany
      rw [hsome, hif, Bool.and_false, if_neg Bool.false_ne_true, Option.some.injEq]
      exact ⟨fun h => ⟨h.symm, .inr hany⟩, fun h => h.1.symm⟩

end Insert

/-- What a trigger leaves of the rows when `deleted` are deleted to which they may refer. -/
def cascade [DecidableEq κ] (ref : β → κ) (key : α → κ) (deleted : List α) (rows : List β) :
    List β :=
  rows.filter fun r => !deleted.any fun d => decide (key d = ref r)

/-- **A row stays exactly if it refers to none of the deleted rows.** -/
theorem mem_cascade [DecidableEq κ] {ref : β → κ} {key : α → κ} {deleted : List α} {rows : List β}
    {r : β} : r ∈ cascade ref key deleted rows ↔ r ∈ rows ∧ ∀ d ∈ deleted, key d ≠ ref r := by
  simp [cascade]

/-- The rows in the order of a column. -/
def orderBy {ρ : Type} [LE ρ] [DecidableLE ρ] (f : α → ρ) (rows : List α) : List α :=
  rows.insertionSort fun a b => f a ≤ f b

section Order

variable {ρ : Type} [LinearOrder ρ] {f : α → ρ} {rows : List α} {a b : α}

theorem perm_orderBy : (orderBy f rows).Perm rows := List.perm_insertionSort _ _

@[simp] theorem mem_orderBy : a ∈ orderBy f rows ↔ a ∈ rows := perm_orderBy.mem_iff

/-- **The rows of a query are in its order.** -/
theorem pairwise_orderBy : (orderBy f rows).Pairwise fun a b => f a ≤ f b := by
  have htotal : Std.Total fun a b : α => f a ≤ f b := ⟨fun a b => le_total (f a) (f b)⟩
  have htrans : IsTrans α fun a b : α => f a ≤ f b := ⟨fun _ _ _ => le_trans⟩
  exact List.pairwise_insertionSort _ rows

/-- Rows that are in the order of the query stay in the order of the table. -/
theorem orderBy_eq_self (h : rows.Pairwise fun a b => f a ≤ f b) : orderBy f rows = rows :=
  h.insertionSort_eq

/-- **The first row of a query is the least.** -/
theorem le_of_head?_orderBy (h : (orderBy f rows).head? = some a) (hb : b ∈ rows) : f a ≤ f b := by
  obtain ⟨rest, hrest⟩ := List.head?_eq_some_iff.1 h
  have hpairwise : (orderBy f rows).Pairwise fun a b => f a ≤ f b := pairwise_orderBy
  have hmem : b ∈ orderBy f rows := mem_orderBy.2 hb
  rw [hrest] at hpairwise hmem
  rcases List.mem_cons.1 hmem with rfl | hmem
  · exact le_rfl
  · exact (List.pairwise_cons.1 hpairwise).1 b hmem

end Order

end Table

/-- A session: the contents of the database, and those to which a rollback returns if a transaction
is open. -/
structure Session (σ : Type) where
  current : σ
  saved : Option σ
deriving DecidableEq

namespace Session

variable {σ : Type}

/-- No transaction is open. -/
def closed (current : σ) : Session σ := ⟨current, none⟩

/-- `BEGIN TRANSACTION`, which fails if a transaction is open. -/
def begin (s : Session σ) : Session σ :=
  match s.saved with
  | none => { s with saved := some s.current }
  | some _ => s

/-- `END TRANSACTION`, which fails if no transaction is open. -/
def commit (s : Session σ) : Session σ := { s with saved := none }

/-- `ROLLBACK TRANSACTION`, which fails if no transaction is open. -/
def rollback (s : Session σ) : Session σ :=
  match s.saved with
  | none => s
  | some d => closed d

/-- The contents after a statement. -/
def update (f : σ → σ) (s : Session σ) : Session σ := { s with current := f s.current }

@[simp] theorem begin_current (s : Session σ) : s.begin.current = s.current := by
  rw [begin]
  split <;> rfl

@[simp] theorem rollback_saved (s : Session σ) : s.rollback.saved = none := by
  rw [rollback]
  split <;> simp_all [closed]

theorem begin_of_closed {s : Session σ} (h : s.saved = none) :
    s.begin = ⟨s.current, some s.current⟩ := by
  rw [begin, h]

theorem begin_saved_ne_none (s : Session σ) : s.begin.saved ≠ none := by
  rw [begin]
  split <;> simp_all

/-- **A rollback undoes what was done since no transaction was open.** -/
theorem rollback_update_begin {s : Session σ} (h : s.saved = none) (f : σ → σ) :
    (s.begin.update f).rollback = s := by
  rw [begin_of_closed h, update, rollback]
  cases s
  simp_all [closed]

end Session
