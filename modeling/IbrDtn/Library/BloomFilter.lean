import Mathlib

/-!
# Bloom filters

A Bloom filter answers whether a text was put into it, and may answer yes for others.  The filters
of one program have one set of hash functions, so the table is all that tells two of them apart:
a filter whose table was loaded from another one answers as the other one does.

## Main definitions

* `BloomFilter` : the operations.
* `SoundBloomFilter`, `LawfulBloomFilter` : what a program may rely on.
* `BloomFilter.Tracks` : what a filter is to the texts that were put into it.
* `CellFilter` : filters with two hash functions on a table of cells.
* `TextSet` : filters without false positives, which remember the texts.

## Main results

* `BloomFilter.tracks_contains` : a filter contains what was put into it.
* `CellFilter.lawful`, `TextSet.sound` : these filters keep the laws.
-/

/-- The operations of a Bloom filter on texts of bytes: the filter of the default constructor, a new
filter of the given number of bits, and the operations of the class. -/
class BloomFilter (F : Type) where
  default : F
  create : ℕ → F
  insert : F → List UInt8 → F
  contains : F → List UInt8 → Bool
  table : F → List UInt8
  load : F → List UInt8 → F
  clear : F → F

open BloomFilter (insert contains table load)

/-- What a program may rely on: a filter has no false negatives, a loaded table makes a filter answer
as the one that the table comes from, and a table fits into the memory. -/
class LawfulBloomFilter (F : Type) [BloomFilter F] : Prop where
  contains_insert : ∀ (f : F) k, contains (insert f k) k = true
  contains_insert_of_contains : ∀ (f : F) {k} l, contains f k = true →
    contains (insert f l) k = true
  contains_load_table : ∀ (f g : F) k, contains (load g (table f)) k = contains f k
  length_table_lt : ∀ f : F, (table f).length < 2 ^ 63

/-- What a program may rely on as long as it exchanges no tables: a filter has no false
negatives. -/
class SoundBloomFilter (F : Type) [BloomFilter F] : Prop where
  contains_insert : ∀ (f : F) k, contains (insert f k) k = true
  contains_insert_of_contains : ∀ (f : F) {k} l, contains f k = true →
    contains (insert f l) k = true

instance (priority := low) LawfulBloomFilter.sound {F : Type} [BloomFilter F]
    [LawfulBloomFilter F] : SoundBloomFilter F where
  contains_insert := LawfulBloomFilter.contains_insert
  contains_insert_of_contains := LawfulBloomFilter.contains_insert_of_contains

/-- New and cleared filters contain nothing. -/
class ClearedBloomFilter (F : Type) [BloomFilter F] : Prop where
  contains_create : ∀ n k, contains (BloomFilter.create n : F) k = false
  contains_clear : ∀ (f : F) k, contains (BloomFilter.clear f) k = false

/-! ### The texts that were put into a filter -/

namespace BloomFilter

/-- A relation between a filter and the texts that were put into it since it was empty, the latest
first. -/
structure Tracks {F : Type} [BloomFilter F] (R : F → List (List UInt8) → Prop) : Prop where
  create : ∀ n, R (BloomFilter.create n) []
  insert : ∀ {f ks} k, R f ks → R (BloomFilter.insert f k) (k :: ks)
  clear : ∀ f, R (BloomFilter.clear f) []

variable {F : Type} [BloomFilter F]

/-- Texts are put into a filter one after the other. -/
theorem Tracks.foldl {R : F → List (List UInt8) → Prop} (h : Tracks R) (more : List (List UInt8))
    {f : F} {ks : List (List UInt8)} (hf : R f ks) :
    R (more.foldl BloomFilter.insert f) (more.reverse ++ ks) := by
  induction more generalizing f ks with
  | nil => exact hf
  | cons k more ih =>
      rw [List.foldl_cons, List.reverse_cons, List.append_assoc]
      exact ih (h.insert k hf)

/-- **A filter contains what was put into it.** -/
theorem tracks_contains [SoundBloomFilter F] :
    Tracks fun (f : F) ks => ∀ k ∈ ks, contains f k = true where
  create _ _ hk := absurd hk List.not_mem_nil
  insert k hf := List.forall_mem_cons.2 ⟨SoundBloomFilter.contains_insert _ k,
    fun l hl => SoundBloomFilter.contains_insert_of_contains _ k (hf l hl)⟩
  clear _ _ hk := absurd hk List.not_mem_nil

end BloomFilter

/-! ### Filters on a table of cells -/

/-- A table of 1024 cells, of one byte each. -/
structure CellFilter where
  cells : List UInt8
  length_eq : cells.length = 1024
deriving DecidableEq

namespace CellFilter

/-- The table in which no cell is marked. -/
def blank : CellFilter := ⟨List.replicate 1024 0, List.length_replicate⟩

/-- A cell is marked. -/
def mark (f : CellFilter) (i : ℕ) : CellFilter :=
  ⟨f.cells.set i 1, (List.length_set).trans f.length_eq⟩

/-- The cell is marked. -/
def marked (f : CellFilter) (i : ℕ) : Bool := f.cells[i]? == some 1

/-- The cell that the hash function with the given factor chooses. -/
def place (factor : ℕ) (k : List UInt8) : ℕ :=
  k.foldl (fun h b => (h * factor + b.toNat) % 1024) factor

instance : BloomFilter CellFilter where
  default := blank
  create _ := blank
  insert f k := (f.mark (place 31 k)).mark (place 257 k)
  contains f k := f.marked (place 31 k) && f.marked (place 257 k)
  table := cells
  load f t := if h : t.length = 1024 then ⟨t, h⟩ else f
  clear _ := blank

theorem place_lt {factor : ℕ} (h : factor < 1024) (k : List UInt8) : place factor k < 1024 := by
  rw [place]
  rcases List.eq_nil_or_concat k with rfl | ⟨l, b, rfl⟩
  · exact h
  · rw [List.concat_eq_append, List.foldl_append]
    exact Nat.mod_lt _ (by omega)

theorem marked_mark (f : CellFilter) {i : ℕ} (hi : i < 1024) : (f.mark i).marked i = true := by
  rw [marked, mark, List.getElem?_set_self (by rw [f.length_eq]; exact hi)]
  rfl

theorem marked_mark_of_marked (f : CellFilter) {i : ℕ} (j : ℕ) (h : f.marked i = true) :
    (f.mark j).marked i = true := by
  by_cases hij : j = i
  · subst hij
    rw [marked, beq_iff_eq] at h
    exact f.marked_mark (f.length_eq ▸ (List.getElem?_eq_some_iff.1 h).1)
  · rwa [marked, mark, List.getElem?_set_ne hij]

/-- **Filters on a table of cells keep the laws.** -/
instance lawful : LawfulBloomFilter CellFilter where
  contains_insert f k := by
    have hfirst := f.marked_mark (place_lt (show 31 < 1024 by omega) k)
    exact Bool.and_eq_true_iff.2 ⟨(f.mark _).marked_mark_of_marked _ hfirst,
      (f.mark _).marked_mark (place_lt (by omega) k)⟩
  contains_insert_of_contains f k l h := by
    obtain ⟨h₁, h₂⟩ := Bool.and_eq_true_iff.1 h
    exact Bool.and_eq_true_iff.2 ⟨(f.mark _).marked_mark_of_marked _ (f.marked_mark_of_marked _ h₁),
      (f.mark _).marked_mark_of_marked _ (f.marked_mark_of_marked _ h₂)⟩
  contains_load_table f g k := by
    have hload : load g (table f) = f := dif_pos f.length_eq
    rw [hload]
  length_table_lt f := by
    have hlength : (table f).length = 1024 := f.length_eq
    omega

end CellFilter

/-! ### Filters that remember the texts -/

/-- The texts that were put into the filter, the latest first. -/
structure TextSet where
  texts : List (List UInt8)
deriving DecidableEq

namespace TextSet

/-- Tables are not exchanged. -/
instance : BloomFilter TextSet where
  default := ⟨[]⟩
  create _ := ⟨[]⟩
  insert f k := ⟨k :: f.texts⟩
  contains f k := decide (k ∈ f.texts)
  table _ := []
  load f _ := f
  clear _ := ⟨[]⟩

instance sound : SoundBloomFilter TextSet where
  contains_insert _ _ := decide_eq_true List.mem_cons_self
  contains_insert_of_contains _ _ _ h :=
    decide_eq_true (List.mem_cons_of_mem _ (of_decide_eq_true h))

instance cleared : ClearedBloomFilter TextSet where
  contains_create _ _ := decide_eq_false List.not_mem_nil
  contains_clear _ _ := decide_eq_false List.not_mem_nil

theorem tracks_texts : BloomFilter.Tracks fun (f : TextSet) ks => f.texts = ks where
  create _ := rfl
  insert k hf := congrArg (k :: ·) hf
  clear _ := rfl

end TextSet
