import IbrDtn.Data.BundleID
import IbrDtn.Data.Serializer

/-!
# Files of bundles

This file models `daemon/src/core/DataStorage.cpp`.  Calls put tasks into a queue, and a worker takes
them one after the other: it writes or removes a file, and then calls back.  A file operation
either does what it is meant to do or throws and changes nothing.  A container whose bytes are
fewer than predicted throws when they have been written, so its file is there.  The name of a
file is made from the text form of an identifier.

## Main definitions

* `DataStorage.hash` : the name of a file.
* `DataStorage` : the queue, the files, and the task of which the file operation is done.
* `DataStorage.work` : the file operation of the next task.

## Main results

* `DataStorage.hash_injective` : different texts give different names.
-/

namespace IbrDtn

/-- A container for a bundle. The length that was predicted for the bundle is not a member of the
source's class; no operation looks at it. -/
structure Container where
  bundle : Bundle
  charged : UInt64
deriving DecidableEq

/-- What `BundleContainer::serialize` writes. -/
def Container.bytes (container : Container) : Bytes :=
  (DefaultSerializer.create.writeBundle container.bundle).1

/-- The check of `BundleContainer::serialize` behind the writing: the length that is predicted once
more, as a number of 32 bits, is not above the position in the file. -/
def Container.complete (container : Container) : Bool :=
  decide (DefaultSerializer.create.getLength container.bundle % 2 ^ 32 ≤ container.bytes.length)

/-- The tasks of the worker. -/
inductive Task where
  | store (hash : Bytes) (container : Container)
  | remove (hash : Bytes)
deriving DecidableEq

/-- The container that a task writes. -/
def Task.container? : Task → Option (Bytes × Container)
  | .store hash container => some (hash, container)
  | .remove _ => none

/-- The name of the file that a task removes. -/
def Task.removed? : Task → Option Bytes
  | .store _ _ => none
  | .remove hash => some hash

/-- How the file operation of a task ended: it was done, it threw and changed nothing, or the check
behind the writing threw. -/
inductive FileOutcome where
  | done
  | failed
  | incomplete
deriving DecidableEq, Repr

/-- `class DataStorage`: `_tasks`, the files by their names, and the task that the worker holds
while it calls back. -/
structure DataStorage where
  tasks : List Task
  files : List (Bytes × Container)
  current : Option (Task × FileOutcome)
deriving DecidableEq

namespace DataStorage

/-- A data storage on an empty folder. -/
def empty : DataStorage := ⟨[], [], none⟩

/-! ### Names of files -/

/-- A hexadecimal digit. -/
def hexDigit (d : ℕ) : UInt8 := UInt8.ofNat (if d < 10 then 0x30 + d else 0x57 + d)

/-- `std::hex << std::setw(2) << std::setfill('0') << (int)c`: a signed character above 127 is
printed as a negative number of 32 bits. -/
def hexOf (c : UInt8) : Bytes :=
  (if c.toNat < 0x80 then [] else ascii ['f', 'f', 'f', 'f', 'f', 'f']) ++
    [hexDigit (c.toNat / 16), hexDigit (c.toNat % 16)]

/-- `DataStorage::Hash::hash`. -/
def hash (value : Bytes) : Bytes := value.flatMap hexOf

theorem hexDigit_inj : ∀ m < 16, ∀ n < 16, hexDigit m = hexDigit n → m = n := by decide

theorem hexDigit_ne : ∀ m < 8, hexDigit m ≠ 0x66 := by decide

/-- A printed character can be read off a text. -/
theorem hexOf_append_inj {c d : UInt8} {r t : Bytes} (h : hexOf c ++ r = hexOf d ++ t) :
    c = d ∧ r = t := by
  have hc := c.toNat_lt
  have hd := d.toNat_lt
  have hdigits {r t : Bytes} (h : hexDigit (c.toNat / 16) :: hexDigit (c.toNat % 16) :: r =
      hexDigit (d.toNat / 16) :: hexDigit (d.toNat % 16) :: t) : c = d ∧ r = t := by
    obtain ⟨hhigh, h⟩ := List.cons.inj h
    obtain ⟨hlow, h⟩ := List.cons.inj h
    have hhigh := hexDigit_inj _ (by omega) _ (by omega) hhigh
    have hlow := hexDigit_inj _ (by omega) _ (by omega) hlow
    exact ⟨UInt8.toNat_inj.1 (by omega), h⟩
  rw [hexOf, hexOf] at h
  split_ifs at h with hclt hdlt hdlt
  · exact hdigits h
  · exact absurd (List.cons.inj h).1 (hexDigit_ne _ (by omega))
  · exact absurd (List.cons.inj h).1.symm (hexDigit_ne _ (by omega))
  · rw [List.append_assoc, List.append_assoc] at h
    exact hdigits (List.append_cancel_left h)

/-- **Different texts give different names.** -/
theorem hash_injective : Function.Injective hash := by
  intro a b h
  induction a generalizing b with
  | nil =>
      cases b with
      | nil => rfl
      | cons d b =>
          rw [hash, hash, List.flatMap_cons, hexOf] at h
          split_ifs at h <;> simp at h
  | cons c a ih =>
      cases b with
      | nil =>
          rw [hash, hash, List.flatMap_cons, hexOf] at h
          split_ifs at h <;> simp at h
      | cons d b =>
          rw [hash, hash, List.flatMap_cons, List.flatMap_cons] at h
          obtain ⟨rfl, hrest⟩ := hexOf_append_inj h
          rw [ih hrest]

/-- `DataStorage::Hash::operator<`. -/
def hashLt (a b : Bytes) : Bool := decide (a.map UInt8.toNat < b.map UInt8.toNat)

/-- The order of names. -/
def hashRank (a : Bytes) : List ℕ := a.map UInt8.toNat

theorem ranked_of_ne {a b : Bytes} (h : a ≠ b) : OrderedSet.Ranked hashLt hashRank a b := by
  refine ⟨decide_eq_true_iff, decide_eq_true_iff, fun heq => h ?_⟩
  exact (List.map_inj_right fun _ _ => UInt8.toNat_inj.1).1 heq

theorem equivalent_self (a : Bytes) : OrderedSet.Equivalent hashLt hashRank a a :=
  ⟨decide_eq_false (lt_irrefl _), decide_eq_false (lt_irrefl _), rfl⟩

theorem total_hash : OrderedSet.Total hashLt hashRank := ⟨ranked_of_ne, equivalent_self⟩

/-! ### Tasks -/

/-- `DataStorage::store` and `DataStorage::remove`. -/
def push (d : DataStorage) (task : Task) : DataStorage := { d with tasks := d.tasks ++ [task] }

/-- The worker takes the next task from the queue, and does its file operation, which fails if
`fails` says so. What is written may be shorter than predicted, and the file that is to be
removed may not exist. -/
def work (d : DataStorage) (fails : Bool) : DataStorage :=
  match d.current, d.tasks with
  | none, .store hash container :: tasks =>
      if fails then { d with tasks, current := some (.store hash container, .failed) }
      else { d with
        tasks
        current := some (.store hash container, if container.complete then .done else .incomplete)
        files := OrderedSet.assign hashLt hash container d.files }
  | none, .remove hash :: tasks =>
      if fails ∨ OrderedSet.find? Prod.fst hashLt hash d.files = none then
        { d with tasks, current := some (.remove hash, .failed) }
      else { d with
        tasks, current := some (.remove hash, .done)
        files := OrderedSet.erase Prod.fst hashLt hash d.files }
  | _, _ => d

/-- A container that is not shorter than predicted is written completely. -/
theorem work_ne_incomplete {d : DataStorage} (hcurrent : d.current = none)
    (hcomplete : ∀ x ∈ d.tasks.filterMap Task.container?, x.2.complete = true) (fails : Bool)
    (task : Task) : (d.work fails).current ≠ some (task, .incomplete) := by
  rw [work, hcurrent]
  cases htasks : d.tasks with
  | nil => simp [hcurrent]
  | cons head tasks =>
      rw [htasks] at hcomplete
      cases head with
      | store hash container =>
          have hhead : container.complete = true :=
            hcomplete (hash, container) List.mem_cons_self
          cases fails <;> simp [hhead]
      | remove hash =>
          dsimp only
          split_ifs <;> simp

/-- Nothing is queued, and no callback is outstanding. -/
def Idle (d : DataStorage) : Prop := d.tasks = [] ∧ d.current = none

instance (d : DataStorage) : Decidable d.Idle := inferInstanceAs (Decidable (_ ∧ _))

end DataStorage

end IbrDtn
