import IbrDtn.Utils.Clock

/-!
# Replacing blocks

Blocks are replaced in two steps: the new block is inserted in front of the old one, and the old
one is removed, which marks the final block as the last one.  This file models
`Bundle::BlockList::insert` and shows what such a replacement leaves.

## Main definitions

* `BlockList.insert` : the missing operation of the list.
* `Bundle.place` : where `Bundle::getBlock<T>` finds a block.

## Main results

* `BlockList.remove_insert` : a replacement.
* `Bundle.place_eq_some_iff` : what stands in front of the block that is found.
-/

namespace IbrDtn

namespace BlockList

variable {xs ys : List Block} {a b : Block}

/-- `Bundle::BlockList::insert`, in front of the block at the given place. -/
def insert (blocks : List Block) (index : ℕ) (block : Block) : List Block :=
  if index < blocks.length then blocks.insertIdx index block else blocks

theorem insert_append (xs : List Block) (a b : Block) (ys : List Block) :
    insert (xs ++ a :: ys) xs.length b = xs ++ b :: a :: ys := by
  rw [insert, if_pos (by simp)]
  induction xs with
  | nil => rfl
  | cons x xs ih =>
      rw [List.cons_append, List.length_cons, List.insertIdx_succ_cons, ih, List.cons_append]

theorem remove_append (xs : List Block) (a : Block) (ys : List Block) :
    remove (xs ++ a :: ys) xs.length = markBack (xs ++ ys) := by
  rw [remove, if_pos (by simp), List.eraseIdx_append_of_length_le le_rfl, Nat.sub_self,
    List.eraseIdx_zero, List.tail_cons]

@[simp] theorem markBack_singleton (a : Block) : markBack [a] = [a.set Block.lastBlock true] := rfl

/-- Only the final block is marked. -/
theorem markBack_append (xs : List Block) (hys : ys ≠ []) :
    markBack (xs ++ ys) = xs ++ markBack ys := by
  obtain ⟨zs, z, rfl⟩ := (List.eq_nil_or_concat ys).resolve_left hys
  rw [List.concat_eq_append, ← List.append_assoc, markBack, markBack, List.getLast?_concat,
    List.getLast?_concat, List.dropLast_concat, List.dropLast_concat]
  exact List.append_assoc xs zs _

theorem markBack_cons (a : Block) (hys : ys ≠ []) : markBack (a :: ys) = a :: markBack ys :=
  markBack_append [a] hys

@[simp] theorem markBack_eq_nil_iff : markBack xs = [] ↔ xs = [] := by
  rcases List.eq_nil_or_concat xs with rfl | ⟨ys, y, rfl⟩
  · exact Iff.rfl
  · rw [List.concat_eq_append, markBack, List.getLast?_concat]
    simp

/-- **A block is replaced**: the new one is inserted in front of the old one, which is removed. -/
theorem remove_insert (xs : List Block) (a b : Block) (ys : List Block) :
    remove (insert (xs ++ a :: ys) xs.length b) (xs.length + 1) = xs ++ markBack (b :: ys) := by
  have hremove := remove_append (xs ++ [b]) a ys
  rw [List.length_append, List.length_singleton, List.append_assoc, List.append_assoc,
    List.singleton_append, List.singleton_append] at hremove
  rw [insert_append, hremove, markBack_append xs (List.cons_ne_nil b ys)]

end BlockList

namespace Block

/-- Marking a block twice is marking it once. -/
@[simp] theorem set_set_last (b : Block) :
    (b.set lastBlock true).set lastBlock true = b.set lastBlock true := by
  rw [set, set, FlagWord.assign, FlagWord.assign]
  simp [UInt64.or_assoc]

theorem set_last_eq_self_iff (b : Block) :
    b.set lastBlock true = b ↔ b.get lastBlock = true := by
  constructor
  · intro h
    rw [← h]
    exact BlockList.get_set_last b true
  · intro h
    rw [set]
    congr 1
    exact FlagWord.or_eq_self (FlagWord.and_eq_of_has ⟨3, by decide, by decide⟩ h)

end Block

namespace BlockList

@[simp] theorem markBack_markBack (xs : List Block) : markBack (markBack xs) = markBack xs := by
  rcases List.eq_nil_or_concat xs with rfl | ⟨ys, y, rfl⟩
  · rfl
  · rw [List.concat_eq_append, markBack_append ys (List.cons_ne_nil y []), markBack_singleton,
      markBack_append ys (List.cons_ne_nil _ []), markBack_singleton, Block.set_set_last]

/-- Marking changes nothing if the final block is marked. -/
theorem markBack_eq_self_iff :
    markBack xs = xs ↔ ∀ c ∈ xs.getLast?, c.get Block.lastBlock = true := by
  rcases List.eq_nil_or_concat xs with rfl | ⟨ys, y, rfl⟩
  · exact iff_of_true rfl fun c hc => nomatch hc
  · rw [List.concat_eq_append, markBack_append ys (List.cons_ne_nil y []), markBack_singleton,
      List.getLast?_concat]
    simp only [List.append_cancel_left_eq, List.cons.injEq, and_true, Option.mem_def,
      Option.some.injEq, forall_eq']
    exact Block.set_last_eq_self_iff y

/-- Marking a list that begins with a block does not depend on the mark that it had before. -/
theorem exists_markBack_cons (a : Block) (ys : List Block) : ∃ a' ys',
    markBack (a :: ys) = a' :: ys' ∧ a'.blocktype = a.blocktype ∧ a'.body = a.body ∧
      ∀ b, markBack (b :: ys') = markBack (b :: ys) := by
  by_cases hys : ys = []
  · subst hys
    exact ⟨a.set Block.lastBlock true, [], rfl, rfl, rfl, fun b => rfl⟩
  · have hmark : markBack ys ≠ [] := mt markBack_eq_nil_iff.1 hys
    refine ⟨a, markBack ys, markBack_cons a hys, rfl, rfl, fun b => ?_⟩
    rw [markBack_cons b hmark, markBack_cons b hys, markBack_markBack]

end BlockList

/-- The BLOB of a payload block. -/
def Body.payload? : Body → Option Bytes
  | .payload blob => some blob
  | _ => none

theorem Body.payload?_eq_some_iff {body : Body} {blob : Bytes} :
    body.payload? = some blob ↔ body = .payload blob := by
  cases body <;> simp [payload?]

/-- `PayloadBlock::PayloadBlock(ibrcommon::BLOB::Reference)`. -/
def Block.ofPayload (ref : Bytes) : Block := { newPayload with body := .payload ref }

namespace Bundle

/-- `Bundle::getBlock<PayloadBlock>`, and the BLOB of the block. -/
def getPayload (b : Bundle) : Option Bytes := b.getBlock Block.payloadType Body.payload?

/-- `Bundle::insert`, in front of the block at the given place. -/
def insert (b : Bundle) (index : ℕ) (block : Block) : Bundle :=
  { b with blocks := BlockList.insert b.blocks index block }

/-- The place of the block that `Bundle::getBlock<T>` finds, and its members. -/
def place {α : Type} (b : Bundle) (type : UInt8) (cast : Body → Option α) : Option (ℕ × α) :=
  (b.blocks.findIdx? fun block => block.blocktype == type).bind fun index =>
    (b.blocks[index]?).bind fun block => (cast block.body).map (Prod.mk index)

/-- **A block is found behind blocks of other types.** -/
theorem place_eq_some_iff {α : Type} {b : Bundle} {type : UInt8} {cast : Body → Option α}
    {index : ℕ} {x : α} : b.place type cast = some (index, x) ↔ ∃ xs a ys,
      b.blocks = xs ++ a :: ys ∧ xs.length = index ∧ (∀ c ∈ xs, c.blocktype ≠ type) ∧
      a.blocktype = type ∧ cast a.body = some x := by
  rw [place]
  constructor
  · intro h
    obtain ⟨i, hi, h⟩ := Option.bind_eq_some_iff.1 h
    obtain ⟨a, ha, h⟩ := Option.bind_eq_some_iff.1 h
    obtain ⟨y, hcast, heq⟩ := Option.map_eq_some_iff.1 h
    obtain ⟨rfl, rfl⟩ := Prod.mk.inj heq
    obtain ⟨hlt, hfound, hbefore⟩ := List.findIdx?_eq_some_iff_getElem.1 hi
    obtain ⟨_, rfl⟩ := List.getElem?_eq_some_iff.1 ha
    refine ⟨b.blocks.take i, b.blocks[i], b.blocks.drop (i + 1), ?_, ?_, fun c hc => ?_,
      by simpa using hfound, hcast⟩
    · rw [List.getElem_cons_drop, List.take_append_drop]
    · rw [List.length_take, min_eq_left hlt.le]
    · obtain ⟨j, hj, rfl⟩ := List.mem_take_iff_getElem.1 hc
      simpa using hbefore j (by omega)
  · rintro ⟨xs, a, ys, hblocks, rfl, hxs, htype, hcast⟩
    have hfind : (b.blocks.findIdx? fun block => block.blocktype == type) = some xs.length := by
      rw [hblocks, List.findIdx?_append,
        List.findIdx?_eq_none_iff.2 fun c hc => by simpa using hxs c hc]
      simp [List.findIdx?_cons, htype]
    rw [hfind, hblocks]
    simp [hcast]

end Bundle

end IbrDtn
