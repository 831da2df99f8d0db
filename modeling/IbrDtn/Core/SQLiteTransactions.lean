import IbrDtn.Core.SQLiteBundleStorage

/-!
# Stores that throw in a transaction

`SQLiteBundleStorage::store` writes the row of a bundle and the rows and files of its blocks in one
transaction.  It rolls the transaction back if the statement for the bundle fails, but an exception
from the loop over the blocks leaves it as it is.  The unique index of the blocks permits only one
block of a fragment, so every fragment with a second block gets there.

## Main definitions

* `SQLiteBundleStorage.AllOrNothing` : a call that throws leaves no trace.
* `SQLiteBundleStorage.StoreEnv.Fresh` : temporary files have new names.

## Main results

* `SQLiteBundleStorage.storeBlocks_error` : an exception of the loop leaves the transaction open, or
  a file behind.
* `SQLiteBundleStorage.allOrNothing_iff` : the stores that leave no trace.
-/

namespace IbrDtn

namespace SQLiteBundleStorage

/-- **A call leaves no trace**: no transaction is open, the tables and the block files are the same as
before, and so is everything else that later calls see. -/
structure AllOrNothing (s s' : SQLiteBundleStorage) : Prop where
  closed : s'.session.saved = none
  database : s'.database = s.database
  files : s'.files = s.files
  later : s' = s

/-- Temporary files have names that no file has. -/
def StoreEnv.Fresh (env : StoreEnv) (files : Directory Bytes Bytes) : Prop :=
  ∀ n path, (env.block n).Names path → ¬ files.Has path

variable {k : RowKey} {block : Block} {env : BlockEnv} {number : ℕ}

theorem serializeBlock_cases (block : Block) (broken : Option (ℕ × Exn)) (path : Bytes)
    (files : Directory Bytes Bytes) :
    (∃ e bytes, serializeBlock block broken path files = (.error e, files.put path bytes)) ∨
      ∃ bytes, serializeBlock block broken path files = (.ok path, files.put path bytes) := by
  cases broken with
  | none => exact .inr ⟨_, rfl⟩
  | some x => exact .inl ⟨_, _, rfl⟩

/-- The file for a block that was made has the name of a temporary file. -/
theorem storeFile_ok {files files' : Directory Bytes Bytes} {path : Bytes}
    (h : storeFile block env files = (.ok path, files')) : env.Names path ∧ files'.Has path := by
  have hserialize {broken : Option (ℕ × Exn)} {tmpfile : Bytes} {files₀ : Directory Bytes Bytes}
      (hname : env.Names tmpfile)
      (h : serializeBlock block broken tmpfile files₀ = (.ok path, files')) :
      env.Names path ∧ files'.Has path := by
    obtain ⟨e, bytes, heq⟩ | ⟨bytes, heq⟩ :=
      serializeBlock_cases block broken tmpfile files₀
    · simp [heq] at h
    · simp only [heq, Prod.mk.injEq, Except.ok.injEq] at h
      obtain ⟨rfl, rfl⟩ := h
      exact ⟨hname, Directory.has_put.2 (.inl rfl)⟩
  rw [storeFile] at h
  split at h
  · simp at h
  · next tmpfile htmpfile =>
      split at h
      · simp only [Prod.mk.injEq, Except.ok.injEq] at h
        obtain ⟨rfl, rfl⟩ := h
        exact ⟨.inl htmpfile, Directory.has_put.2 (.inl rfl)⟩
      · next haccess => exact hserialize (.inr haccess) h
      · exact hserialize (.inl htmpfile) h

/-- A block that is stored leaves the transaction as it is. -/
theorem storeBlock_ok {s s' : SQLiteBundleStorage}
    (h : storeBlock k number block env s = (.ok (), s')) : s'.session.saved = s.session.saved := by
  rw [storeBlock] at h
  split at h
  · simp at h
  · split at h
    · simp at h
    · simp at h
    · split at h
      · simp at h
      · simp only [Prod.mk.injEq, true_and] at h
        rw [← h]

/-- An exception leaves the transaction as it is, or a file behind. -/
theorem storeBlock_error {s s' : SQLiteBundleStorage} {e : Exn}
    (h : storeBlock k number block env s = (.error e, s')) :
    s'.session.saved = s.session.saved ∨ ∃ path, env.Names path ∧ s'.files.Has path := by
  rw [storeBlock] at h
  split at h
  · simp only [Prod.mk.injEq] at h
    rw [← h.2]
    exact .inl rfl
  · next path files hfile =>
      obtain ⟨hname, hhas⟩ := storeFile_ok hfile
      split at h
      · simp only [Prod.mk.injEq] at h
        rw [← h.2]
        exact .inr ⟨path, hname, hhas⟩
      · simp only [Prod.mk.injEq] at h
        rw [← h.2]
        exact .inl rfl
      · split at h
        · simp only [Prod.mk.injEq] at h
          rw [← h.2]
          exact .inl rfl
        · simp at h

/-- **An exception of the loop over the blocks leaves the transaction open, or a file behind.** -/
theorem storeBlocks_error {env : ℕ → BlockEnv} {blocks : List Block} {s s' : SQLiteBundleStorage}
    {e : Exn} (h : storeBlocks k env number blocks s = (.error e, s')) :
    s'.session.saved = s.session.saved ∨ ∃ n path, (env n).Names path ∧ s'.files.Has path := by
  induction blocks generalizing number s with
  | nil => simp [storeBlocks] at h
  | cons block blocks ih =>
      rw [storeBlocks] at h
      split at h
      · next e' s₁ hblock =>
          simp only [Prod.mk.injEq] at h
          rw [← h.2]
          refine (storeBlock_error hblock).imp_right ?_
          rintro ⟨path, hpath⟩
          exact ⟨number, path, hpath⟩
      · next u s₁ hblock =>
          rw [← storeBlock_ok hblock]
          exact ih h

/-- **The stores that leave no trace**, of those that throw: the statement for the bundle failed, and
no transaction had been left open by an earlier call. -/
theorem allOrNothing_iff {s : SQLiteBundleStorage} {c : Clock} {node : LocalNode} {env : StoreEnv}
    {b : Bundle} {e : Exn} (hfresh : env.Fresh s.files)
    (hthrows : (s.store c node env b).1 = .error e) :
    AllOrNothing s (s.store c node env b).2 ↔
      env.rowError.isSome = true ∧ s.session.saved = none := by
  rw [store] at hthrows ⊢
  dsimp only at hthrows ⊢
  cases hrow : env.rowError with
  | some message =>
      simp only [Option.isSome_some, true_and]
      constructor
      · intro h
        have hsession := congrArg session h.later
        rw [← hsession]
        exact h.closed
      · intro hclosed
        have hsession : s.session.begin.rollback = s.session :=
          Session.rollback_update_begin hclosed id
        have hlater : { s with session := s.session.begin.rollback } = s := by rw [hsession]
        exact ⟨Session.rollback_saved _, by rw [hlater], rfl, hlater⟩
  | none =>
      simp only [hrow] at hthrows ⊢
      refine ⟨fun h => ?_, fun h => absurd h.1 (by simp)⟩
      split at hthrows
      · simp at hthrows
      · next db hdb =>
          simp only [hdb] at h
          split at hthrows
          · next e' s' hblocks =>
              simp only [hblocks] at h
              rcases storeBlocks_error hblocks with hsaved | ⟨n, path, hname, hhas⟩
              · exact absurd (hsaved.symm.trans h.closed) (Session.begin_saved_ne_none _)
              · rw [h.files] at hhas
                exact absurd hhas (hfresh n path hname)
          · simp at hthrows

/-- Blocks go to files `b1`, `b2` and so on, and nothing fails. -/
def sampleEnv : StoreEnv where
  rowError := none
  block n := ⟨.ok (ascii ['b'] ++ Decimal.numeral n), .foreign, none, none⟩

/-- A node. -/
def sampleNode : LocalNode := ⟨⟨ascii ['d', 't', 'n'], ascii ['/', '/', 'n']⟩, 100, 0, ⟨100, 0⟩⟩

/-- A bundle with a payload. -/
def sampleWhole : Bundle :=
  (Bundle.create 7 1).pushBack { Block.newPayload with body := .payload [0x68, 0x69] }

/-- A fragment with a payload and an age block. -/
def sampleFragment : Bundle :=
  let b := ((Bundle.create 7 1).pushBack { Block.newPayload with body := .payload [0x68] }).pushBack
    Block.newAge
  { b with procflags := PrimaryBlock.fragment, fragmentoffset := 3, appdatalength := 9 }

theorem allOrNothing_iff_sample :
    let env := { sampleEnv with rowError := some "13 database or disk is full" }
    AllOrNothing create (create.store (Clock.showing 100) sampleNode env sampleFragment).2 ↔
      env.rowError.isSome = true ∧ create.session.saved = none :=
  allOrNothing_iff (fun _ _ _ h => absurd h Bool.false_ne_true) rfl

/-- **A fragment with two blocks is not stored, and not undone either.** -/
theorem not_allOrNothing_sample :
    let s := create.store (Clock.showing 100) sampleNode sampleEnv sampleFragment
    s.1 = .error blockError ∧ s.2.session.saved ≠ none ∧ s.2.count = 1 ∧
      ¬ AllOrNothing create s.2 := by
  have hopen : (create.store (Clock.showing 100) sampleNode sampleEnv
      sampleFragment).2.session.saved ≠ none := by decide +kernel
  refine ⟨by decide +kernel, hopen, by decide +kernel, fun h => hopen h.closed⟩

end SQLiteBundleStorage

end IbrDtn
