import Mathlib

/-!
# Buffers in memory

A buffer of a program that does not check its accesses is the start of a region of memory: a store
or a load beyond its end reaches whatever lies behind it.  The region remembers whether all stores
were within the buffer, so that a program can be shown to stay in it.

## Main definitions

* `Region` : the cells from the start of a buffer on, with the size of the buffer.
* `Region.store`, `Region.load` : the accesses.

## Main results

* `Region.load_store` : a load finds what was stored at its place.
* `Region.load_store_of_le`, `Region.load_store_of_ge` : a load next to a store does not see it.
-/

/-- The memory from the start of a buffer on. -/
structure Region where
  size : ℕ
  cell : ℕ → UInt8
  inside : Bool

namespace Region

/-- A new buffer, in memory with the given contents. -/
def alloc (size : ℕ) (cell : ℕ → UInt8) : Region := ⟨size, cell, true⟩

/-- Bytes are copied to a place of the region. -/
def store (r : Region) (offset : ℕ) (bs : List UInt8) : Region where
  size := r.size
  cell i := if offset ≤ i then (bs[i - offset]?).getD (r.cell i) else r.cell i
  inside := r.inside && decide (offset + bs.length ≤ r.size)

/-- The bytes at a place of the region. -/
def load (r : Region) (offset count : ℕ) : List UInt8 :=
  (List.range count).map fun i => r.cell (offset + i)

variable (r : Region) (offset : ℕ) (bs : List UInt8)

@[simp] theorem size_alloc (size : ℕ) (cell : ℕ → UInt8) : (alloc size cell).size = size := rfl

@[simp] theorem inside_alloc (size : ℕ) (cell : ℕ → UInt8) : (alloc size cell).inside = true := rfl

@[simp] theorem size_store : (r.store offset bs).size = r.size := rfl

@[simp] theorem inside_store : (r.store offset bs).inside = true ↔
    r.inside = true ∧ offset + bs.length ≤ r.size := by
  rw [store, Bool.and_eq_true, decide_eq_true_eq]

@[simp] theorem length_load (count : ℕ) : (r.load offset count).length = count := by
  rw [load, List.length_map, List.length_range]

theorem getElem_load {count i : ℕ} (h : i < (r.load offset count).length) :
    (r.load offset count)[i] = r.cell (offset + i) := by
  simp only [load, List.getElem_map, List.getElem_range]

theorem cell_store_of_lt {i : ℕ} (h : i < offset) : (r.store offset bs).cell i = r.cell i :=
  if_neg (by omega)

theorem cell_store_of_ge {i : ℕ} (h : offset + bs.length ≤ i) :
    (r.store offset bs).cell i = r.cell i := by
  rw [store]
  dsimp only
  rw [if_pos (by omega), List.getElem?_eq_none (by omega), Option.getD_none]

theorem cell_store_add {i : ℕ} (h : i < bs.length) :
    (r.store offset bs).cell (offset + i) = bs[i] := by
  rw [store]
  dsimp only
  rw [if_pos (by omega), Nat.add_sub_cancel_left, List.getElem?_eq_getElem h, Option.getD_some]

/-- **A load finds what was stored at its place.** -/
theorem load_store : (r.store offset bs).load offset bs.length = bs := by
  refine List.ext_getElem (by simp) fun i hi hi' => ?_
  rw [getElem_load, cell_store_add r offset bs hi']

/-- A load within a store finds its part of it. -/
theorem load_store_append (cs : List UInt8) :
    (r.store offset (bs ++ cs)).load (offset + bs.length) cs.length = cs := by
  refine List.ext_getElem (by simp) fun i hi hi' => ?_
  rw [getElem_load, Nat.add_assoc,
    cell_store_add r offset _ (by rw [List.length_append]; omega),
    List.getElem_append_right (by omega)]
  simp only [Nat.add_sub_cancel_left]

/-- A load within a store at the start finds its part of it. -/
theorem load_store_slice {place count : ℕ} (h : place + count ≤ bs.length) :
    (r.store 0 bs).load place count = (bs.drop place).take count := by
  refine List.ext_getElem (by simp; omega) fun i hi hi' => ?_
  have hlt : place + i < bs.length := by
    rw [length_load] at hi
    omega
  have hcell := cell_store_add r 0 bs hlt
  rw [Nat.zero_add] at hcell
  rw [getElem_load, hcell, List.getElem_take, List.getElem_drop]

theorem load_congr {r r' : Region} {offset count : ℕ}
    (h : ∀ i < count, r.cell (offset + i) = r'.cell (offset + i)) :
    r.load offset count = r'.load offset count :=
  List.map_congr_left fun i hi => h i (List.mem_range.1 hi)

/-- A load in front of a store does not see it. -/
theorem load_store_of_le {place count : ℕ} (h : place + count ≤ offset) :
    (r.store offset bs).load place count = r.load place count :=
  load_congr fun _ _ => r.cell_store_of_lt offset bs (by omega)

/-- A load behind a store does not see it. -/
theorem load_store_of_ge {place count : ℕ} (h : offset + bs.length ≤ place) :
    (r.store offset bs).load place count = r.load place count :=
  load_congr fun _ _ => r.cell_store_of_ge offset bs (by omega)

theorem load_add (m n : ℕ) : r.load offset (m + n) = r.load offset m ++ r.load (offset + m) n := by
  simp only [load, List.range_add, List.map_append, List.map_map, Function.comp_def,
    Nat.add_assoc]

/-- A load that goes on behind a store finds what was there before. -/
theorem load_store_add (k : ℕ) :
    (r.store offset bs).load offset (bs.length + k) = bs ++ r.load (offset + bs.length) k := by
  rw [load_add, load_store, load_store_of_ge r offset bs le_rfl]

end Region
