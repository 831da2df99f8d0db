import IbrDtn.Data.SharedBlocks

/-!
# Inserting blocks through the API

This file models `PlainDeserializer::BlockInserter` of `ibrdtn/api/PlainSerializer.h` and
`PlainSerializer.cpp`, by which the handlers of the API put a block into a bundle.  A position in the
middle is turned into a block of the bundle, and the new one is inserted in front of that.

The variable for this block is called `prev_block`, and the block is the one in front of the
position; but the list can only insert in front of a block.  The new block ends one place too early.

## Main definitions

* `BlockInserter.insert` : the operation, for both of its variants.
* `BlockInserter.Inserts` : what is asked of it.

## Main results

* `BlockInserter.inserts_iff` : for which bundles and positions it does that.
-/

namespace IbrDtn

namespace BlockInserter

open BundleMemory

/-- `enum POSITION`. -/
inductive Position where
  | front
  | middle
  | atEnd
deriving DecidableEq, Repr

/-- `BlockInserter::insert`, on a bundle. The variants differ in how the block is made: by a
factory, or by the constructor of a class. `getBlock(_pos-1)` throws behind the end of the list. -/
def insert (m : BundleMemory) (i : ℕ) (alignment : Position) (pos : ℤ) (block : NewBlock) :
    BundleMemory :=
  match alignment with
  | .front => m.pushFront i block.block
  | .atEnd => m.pushBack i block.block
  | .middle =>
      if pos ≤ 0 then m.pushFront i block.block
      else match (m.refs i)[(pos - 1).toNat]? with
        | some prevBlock => m.insert i block.block prevBlock
        | none => m.pushBack i block.block

/-- The index that is asked for, in a bundle of `n` blocks. -/
def index (alignment : Position) (pos : ℤ) (n : ℕ) : ℕ :=
  match alignment with
  | .front => 0
  | .atEnd => n
  | .middle => (min (max pos 0) n).toNat

/-- **What is asked of the operation**: the new block is at the index, the other ones keep their
order, and the flag of the last block is on exactly the final one. -/
def Inserts (m : BundleMemory) (i : ℕ) (alignment : Position) (pos : ℤ) (block : NewBlock) : Prop :=
  (insert m i alignment pos block).refs i =
      (m.refs i).insertIdx (index alignment pos (m.refs i).length) m.next ∧
    BlockList.Marked ((insert m i alignment pos block).value i).blocks

/-- The condition on the bundle and the position: the block is put in front of a bundle with the
flag in its place, or behind one with no flag in front of the final block. -/
def InOrder (m : BundleMemory) (i : ℕ) (alignment : Position) (pos : ℤ) : Prop :=
  match alignment with
  | .front => BlockList.Marked (m.value i).blocks
  | .atEnd => ∀ c ∈ (m.value i).blocks.dropLast, c.get Block.lastBlock = false
  | .middle =>
      if pos ≤ 0 then BlockList.Marked (m.value i).blocks
      else (m.refs i).length < pos ∧
        ∀ c ∈ (m.value i).blocks.dropLast, c.get Block.lastBlock = false

/-! ### The three operations of the list -/

/-- In a list without repetition, a reference is inserted at the place of another one. -/
theorem insertBefore_getElem (p : ℕ) {qs : List ℕ} (hqs : qs.Nodup) {k : ℕ} (hk : k < qs.length) :
    insertBefore p qs[k] qs = qs.insertIdx k p := by
  induction qs generalizing k with
  | nil => exact absurd hk (Nat.not_lt_zero k)
  | cons q qs ih =>
      obtain ⟨hq, hqs⟩ := List.nodup_cons.1 hqs
      cases k with
      | zero => rw [List.getElem_cons_zero, insertBefore, if_pos rfl, List.insertIdx_zero]
      | succ k =>
          have hk' : k < qs.length := Nat.lt_of_succ_lt_succ hk
          have hne : q ≠ qs[k] := (ne_of_mem_of_not_mem (List.getElem_mem hk') hq).symm
          rw [List.getElem_cons_succ, insertBefore, if_neg hne, ih hqs hk',
            List.insertIdx_succ_cons]

/-- A new reference cannot be at two places. -/
theorem insertIdx_ne_succ {p : ℕ} {qs : List ℕ} (hp : p ∉ qs) {k : ℕ} (hk : k < qs.length) :
    qs.insertIdx k p ≠ qs.insertIdx (k + 1) p := by
  intro heq
  have hlen : (qs.insertIdx k p).length = qs.length + 1 :=
    List.length_insertIdx_of_le_length hk.le p
  have hlen' : (qs.insertIdx (k + 1) p).length = qs.length + 1 :=
    List.length_insertIdx_of_le_length hk p
  have hlt : k < (qs.insertIdx k p).length := by omega
  have hlt' : k < (qs.insertIdx (k + 1) p).length := by omega
  have hget : (qs.insertIdx k p)[k] = (qs.insertIdx (k + 1) p)[k] := by
    simp only [heq]
  rw [List.getElem_insertIdx_self, List.getElem_insertIdx_of_lt (Nat.lt_succ_self k)] at hget
  exact hp (hget ▸ List.getElem_mem hk)

theorem marked_pushFront_iff {blocks : List Block} {block : Block}
    (hblock : block.get Block.lastBlock = false) :
    BlockList.Marked (BlockList.pushFront blocks block) ↔ BlockList.Marked blocks := by
  cases blocks with
  | nil => exact iff_of_true (BlockList.get_set_last block true) trivial
  | cons b blocks => exact and_iff_right hblock

theorem marked_pushBack_iff (blocks : List Block) (block : Block) :
    BlockList.Marked (BlockList.pushBack blocks block) ↔
      ∀ c ∈ blocks.dropLast, c.get Block.lastBlock = false := by
  rcases List.eq_nil_or_concat blocks with rfl | ⟨bs, last, rfl⟩
  · exact iff_of_true (BlockList.get_set_last block true) nofun
  · rw [List.concat_eq_append, BlockList.pushBack_append_singleton, List.append_cons,
      BlockList.marked_append_singleton, List.dropLast_concat]
    refine ⟨fun h c hc => h.1 c (List.mem_append_left _ hc),
      fun h => ⟨fun c hc => ?_, BlockList.get_set_last block true⟩⟩
    rcases List.mem_append.1 hc with hc | hc
    · exact h c hc
    · rw [List.mem_singleton.1 hc]
      exact BlockList.get_set_last last false

/-! ### Where the block ends -/

section Inserts

variable {m : BundleMemory} {i : ℕ} (h : m.Distinct i) (block : NewBlock)

include h

theorem marked_value_pushFront_iff :
    BlockList.Marked ((m.pushFront i block.block).value i).blocks ↔
      BlockList.Marked (m.value i).blocks := by
  rw [h.value_pushFront]
  exact marked_pushFront_iff block.unmarked

theorem marked_value_pushBack_iff :
    BlockList.Marked ((m.pushBack i block.block).value i).blocks ↔
      ∀ c ∈ (m.value i).blocks.dropLast, c.get Block.lastBlock = false := by
  rw [h.value_pushBack]
  exact marked_pushBack_iff _ _

/-- **The block is inserted as it is asked for** exactly in front of all blocks or behind all of
them, in a bundle whose flags allow it; a position between two blocks is missed by one. -/
theorem inserts_iff (alignment : Position) (pos : ℤ) :
    Inserts m i alignment pos block ↔ InOrder m i alignment pos := by
  have hfront : (m.pushFront i block.block).refs i = (m.refs i).insertIdx 0 m.next := by
    rw [refs_pushFront, List.insertIdx_zero]
  have hback : (m.pushBack i block.block).refs i =
      (m.refs i).insertIdx (m.refs i).length m.next := by
    rw [refs_pushBack, List.insertIdx_length_self]
  cases alignment with
  | front => exact (and_iff_right hfront).trans (marked_value_pushFront_iff h block)
  | atEnd => exact (and_iff_right hback).trans (marked_value_pushBack_iff h block)
  | middle =>
      rw [Inserts, InOrder, insert, index]
      by_cases hpos : pos ≤ 0
      · have hzero : (min (max pos 0) ((m.refs i).length : ℤ)).toNat = 0 := by omega
        rw [if_pos hpos, if_pos hpos, hzero, and_iff_right hfront]
        exact marked_value_pushFront_iff h block
      · obtain ⟨k, rfl⟩ : ∃ k : ℕ, pos = k + 1 := ⟨(pos - 1).toNat, by omega⟩
        have hk : ((k : ℤ) + 1 - 1).toNat = k := by omega
        rw [if_neg hpos, if_neg hpos, hk]
        by_cases hlt : k < (m.refs i).length
        · have hindex : (min (max ((k : ℤ) + 1) 0) ((m.refs i).length : ℤ)).toNat = k + 1 := by
            omega
          rw [List.getElem?_eq_getElem hlt, hindex]
          dsimp only
          refine iff_of_false (fun hinserts => ?_) fun hn => by omega
          have hrefs : (m.insert i block.block (m.refs i)[k]).refs i =
              insertBefore m.next (m.refs i)[k] (m.refs i) := refs_setRefs_self _
          rw [hrefs, insertBefore_getElem m.next h.nodup hlt] at hinserts
          exact insertIdx_ne_succ h.next_not_mem hlt hinserts.1
        · have hindex : (min (max ((k : ℤ) + 1) 0) ((m.refs i).length : ℤ)).toNat =
              (m.refs i).length := by omega
          rw [List.getElem?_eq_none (not_lt.1 hlt), hindex]
          dsimp only
          rw [and_iff_right hback, marked_value_pushBack_iff h block, and_iff_right (by omega)]

end Inserts

/-- A bundle with an age block and a payload block. -/
def sampleMemory : BundleMemory :=
  after [.construct 0 0 1, .pushBack 0 samplePayload]

/-- A new block that the factories do not know. -/
def sampleBlock : NewBlock := ⟨Block.newExtension, by decide⟩

theorem distinct_sampleMemory : sampleMemory.Distinct 0 := by
  refine ⟨?_, ?_⟩ <;> decide

/-- A position behind all blocks. -/
theorem inserts_iff_sample : Inserts sampleMemory 0 .middle 3 sampleBlock :=
  (inserts_iff distinct_sampleMemory sampleBlock .middle 3).2 (by
    refine ⟨?_, ?_⟩ <;> decide +kernel)

/-- **A block for the second place is put at the first one**, and one for the end in front of the
final block. -/
theorem not_inserts_sample :
    (insert sampleMemory 0 .middle 1 sampleBlock).refs 0 = [2, 0, 1] ∧
      (insert sampleMemory 0 .middle 2 sampleBlock).refs 0 = [0, 2, 1] ∧
      ¬ Inserts sampleMemory 0 .middle 1 sampleBlock ∧
      ¬ Inserts sampleMemory 0 .middle 2 sampleBlock := by
  have h₁ : (insert sampleMemory 0 .middle 1 sampleBlock).refs 0 = [2, 0, 1] := by decide
  have h₂ : (insert sampleMemory 0 .middle 2 sampleBlock).refs 0 = [0, 2, 1] := by decide
  refine ⟨h₁, h₂, fun h => ?_, fun h => ?_⟩
  · exact absurd (h₁.symm.trans h.1) (by decide)
  · exact absurd (h₂.symm.trans h.1) (by decide)

end BlockInserter

end IbrDtn
