import Mathlib

/-!
# Directories

This file models a directory of files.  A path names at most one file; writing a file replaces what
the path named before.

## Main definitions

* `Directory` : paths with the contents of their files.
* `Directory.content?`, `Directory.put`, `Directory.removeAll` : the operations.

## Main results

* `Directory.content?_put`, `Directory.content?_removeAll` : what the operations leave of a file.
-/

/-- The files of a directory, by their paths. -/
abbrev Directory (π β : Type) := List (π × β)

namespace Directory

variable {π β : Type} [DecidableEq π]

/-- The content of a file. -/
def content? (path : π) (d : Directory π β) : Option β :=
  (d.find? fun f => decide (f.1 = path)).map Prod.snd

/-- The directory without the files of the given paths. -/
def removeAll (paths : List π) (d : Directory π β) : Directory π β :=
  d.filter fun f => decide (f.1 ∉ paths)

/-- The directory without a file. -/
def remove (path : π) (d : Directory π β) : Directory π β := d.removeAll [path]

/-- The directory with a file that holds `content`. -/
def put (path : π) (content : β) (d : Directory π β) : Directory π β :=
  d.remove path ++ [(path, content)]

/-- There is a file of that path. -/
def Has (d : Directory π β) (path : π) : Prop := (d.content? path).isSome = true

instance (d : Directory π β) (path : π) : Decidable (d.Has path) :=
  inferInstanceAs (Decidable (_ = true))

variable {d : Directory π β} {path path' : π} {paths : List π} {content : β}

/-- **A file stays unless it is removed.** -/
@[simp] theorem content?_removeAll : (d.removeAll paths).content? path =
    if path ∈ paths then none else d.content? path := by
  rw [content?, content?, removeAll, List.find?_filter]
  split_ifs with hmem
  · rw [Option.map_eq_none_iff, List.find?_eq_none]
    intro f hf heq
    have heq : f.1 ∉ paths ∧ f.1 = path := by simpa using heq
    exact heq.1 (heq.2 ▸ hmem)
  · refine congrArg (fun p => (d.find? p).map Prod.snd) ?_
    funext f
    by_cases heq : f.1 = path
    · simp [heq, hmem]
    · simp [heq]

@[simp] theorem content?_remove : (d.remove path').content? path =
    if path = path' then none else d.content? path := by
  rw [remove, content?_removeAll]
  simp

/-- **Writing a file changes no other one.** -/
@[simp] theorem content?_put : (d.put path' content).content? path =
    if path = path' then some content else d.content? path := by
  have hremove : (d.remove path').content? path =
    if path = path' then none else d.content? path := content?_remove
  rw [content?] at hremove
  rw [put, content?, List.find?_append, Option.map_or, hremove]
  split_ifs with heq
  · simp [heq]
  · simp [Ne.symm heq]

/-- The order in which files are removed does not matter. -/
theorem removeAll_congr {paths' : List π} (h : ∀ path, path ∈ paths ↔ path ∈ paths') :
    d.removeAll paths = d.removeAll paths' := by
  rw [removeAll, removeAll]
  exact List.filter_congr fun f _ => decide_eq_decide.2 (not_congr (h f.1))

theorem removeAll_removeAll (d : Directory π β) (paths paths' : List π) :
    (d.removeAll paths).removeAll paths' = d.removeAll (paths ++ paths') := by
  rw [removeAll, removeAll, removeAll, List.filter_filter]
  refine List.filter_congr fun f _ => ?_
  simp [Bool.and_comm]

theorem has_put : (d.put path' content).Has path ↔ path = path' ∨ d.Has path := by
  rw [Has, content?_put, Has]
  split_ifs with heq <;> simp [heq]

theorem has_removeAll : (d.removeAll paths).Has path ↔ path ∉ paths ∧ d.Has path := by
  rw [Has, content?_removeAll, Has]
  split_ifs with hmem <;> simp [hmem]

theorem has_iff_mem : d.Has path ↔ path ∈ d.map Prod.fst := by
  rw [Has, content?, Option.isSome_map, List.find?_isSome]
  simp

end Directory
