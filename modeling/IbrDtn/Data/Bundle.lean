import IbrDtn.Data.Block

/-!
# Bundles

This file models `ibrdtn/data/PrimaryBlock.cpp` and `ibrdtn/data/Bundle.cpp`: a bundle is a
primary block and a list of blocks.  The operations of the list keep the last-block flag on the
final block.

## Main definitions

* `PrimaryBlock`, `Bundle` : the data types.
* `BlockList.pushBack`, `BlockList.pushFront`, `BlockList.remove` : the list operations.
* `BlockList.Marked` : the last-block flag is on exactly the final block.

## Main results

* `BlockList.marked_pushBack`, `BlockList.marked_pushFront`, `BlockList.marked_remove` : the list
  operations keep the mark.
-/

namespace IbrDtn

/-- `class PrimaryBlock`. -/
structure PrimaryBlock where
  procflags : UInt64
  timestamp : UInt64
  sequencenumber : UInt64
  lifetime : UInt64
  fragmentoffset : UInt64
  appdatalength : UInt64
  source : EID
  destination : EID
  reportto : EID
  custodian : EID
deriving DecidableEq, Repr

namespace PrimaryBlock

/-- `BUNDLE_VERSION`. -/
def bundleVersion : UInt8 := 0x06

/-- The bits of `PrimaryBlock::FLAGS` that this development uses. -/
def fragment : UInt64 := 0x01
def appdataIsAdmrecord : UInt64 := 0x02
def custodyRequested : UInt64 := 0x08
def destinationIsSingleton : UInt64 := 0x10
def priorityBit1 : UInt64 := 0x80
def priorityBit2 : UInt64 := 0x100

/-- `PrimaryBlock::get`. -/
def get (p : PrimaryBlock) (flag : UInt64) : Bool := FlagWord.has p.procflags flag

/-- `PrimaryBlock::set`. -/
def set (p : PrimaryBlock) (flag : UInt64) (value : Bool) : PrimaryBlock :=
  { p with procflags := FlagWord.assign p.procflags flag value }

/-- `PrimaryBlock::PrimaryBlock()`, which takes its timestamp and sequence number from the clock
and the counter of the process. -/
def create (timestamp sequencenumber : UInt64) : PrimaryBlock :=
  ⟨0, timestamp, sequencenumber, 3600, 0, 0, EID.none, EID.none, EID.none, EID.none⟩

end PrimaryBlock

/-! ### Lists of blocks -/

namespace BlockList

/-- `Bundle::BlockList::push_back`: the new block is marked as the last one, and the block before
it is not any more. -/
def pushBack (blocks : List Block) (block : Block) : List Block :=
  let block := block.set Block.lastBlock true
  match blocks.getLast? with
  | none => [block]
  | some last => blocks.dropLast ++ [last.set Block.lastBlock false, block]

/-- `Bundle::BlockList::push_front`: only the first block of a list is marked. -/
def pushFront (blocks : List Block) (block : Block) : List Block :=
  if blocks.isEmpty then [block.set Block.lastBlock true] else block :: blocks

/-- The list with its final block marked as the last one. -/
def markBack (blocks : List Block) : List Block :=
  match blocks.getLast? with
  | none => []
  | some last => blocks.dropLast ++ [last.set Block.lastBlock true]

/-- `Bundle::BlockList::remove`, of the block at the given place. -/
def remove (blocks : List Block) (index : ℕ) : List Block :=
  if index < blocks.length then markBack (blocks.eraseIdx index) else blocks

theorem remove_back (bs : List Block) (last : Block) :
    remove (bs ++ [last]) ((bs ++ [last]).length - 1) = markBack bs := by
  have herase : (bs ++ [last]).eraseIdx ((bs ++ [last]).length - 1) = bs := by
    rw [List.length_append, List.length_singleton, Nat.add_sub_cancel,
      List.eraseIdx_append_of_length_le le_rfl, Nat.sub_self, List.eraseIdx_cons_zero,
      List.append_nil]
  rw [remove, if_pos (by simp), herase]

/-- The last-block flag is on exactly the final block. -/
def Marked : List Block → Prop
  | [] => True
  | [b] => b.get Block.lastBlock = true
  | b :: c :: bs => b.get Block.lastBlock = false ∧ Marked (c :: bs)

theorem get_set_last (b : Block) (value : Bool) :
    (b.set Block.lastBlock value).get Block.lastBlock = value :=
  FlagWord.has_assign_self (by decide) value

theorem marked_append_singleton {bs : List Block} {b : Block} :
    Marked (bs ++ [b]) ↔
      (∀ c ∈ bs, c.get Block.lastBlock = false) ∧ b.get Block.lastBlock = true := by
  induction bs with
  | nil => simp [Marked]
  | cons c bs ih =>
      cases bs with
      | nil => simp [Marked]
      | cons d bs =>
          rw [List.cons_append, List.cons_append, Marked, ← List.cons_append, ih]
          simp only [List.forall_mem_cons]
          tauto

theorem pushBack_append_singleton (bs : List Block) (last block : Block) :
    pushBack (bs ++ [last]) block =
      bs ++ [last.set Block.lastBlock false, block.set Block.lastBlock true] := by
  rw [pushBack, List.getLast?_concat, List.dropLast_concat]

/-- The list with its final block not marked as the last one any more. -/
def unmarkBack (blocks : List Block) : List Block :=
  match blocks.getLast? with
  | none => []
  | some last => blocks.dropLast ++ [last.set Block.lastBlock false]

theorem pushBack_eq (blocks : List Block) (block : Block) :
    pushBack blocks block = unmarkBack blocks ++ [block.set Block.lastBlock true] := by
  rw [pushBack, unmarkBack]
  cases blocks.getLast? with
  | none => rfl
  | some last => simp

theorem unmarkBack_append_singleton (bs : List Block) (last : Block) :
    unmarkBack (bs ++ [last]) = bs ++ [last.set Block.lastBlock false] := by
  rw [unmarkBack, List.getLast?_concat, List.dropLast_concat]

theorem unmarkBack_cons (c : Block) (blocks : List Block) : unmarkBack (c :: blocks) =
    (if blocks.isEmpty then c.set Block.lastBlock false else c) :: unmarkBack blocks := by
  cases blocks with
  | nil => rfl
  | cons d blocks =>
      rw [unmarkBack, List.getLast?_cons_cons, unmarkBack]
      cases hlast : (d :: blocks).getLast? with
      | none => exact absurd hlast (by simp)
      | some last => rfl

/-- Behind a block that is not marked, the list stays as it is. -/
theorem unmarkBack_append_of_unmarked {last : Block} (h : last.get Block.lastBlock = false)
    (bs : List Block) : unmarkBack (bs ++ [last]) = bs ++ [last] := by
  rw [unmarkBack_append_singleton, Block.set, FlagWord.assign_false_of_not_has h]

theorem unmarkBack_of_unmarked {bs : List Block}
    (h : ∀ c ∈ bs, c.get Block.lastBlock = false) : unmarkBack bs = bs := by
  rcases List.eq_nil_or_concat bs with rfl | ⟨bs, last, rfl⟩
  · rfl
  · rw [List.concat_eq_append] at h ⊢
    exact unmarkBack_append_of_unmarked (h last (by simp)) bs

/-- A mark that is set and taken away again. -/
theorem unmarkBack_markBack (bs : List Block) : unmarkBack (markBack bs) = unmarkBack bs := by
  rcases List.eq_nil_or_concat bs with rfl | ⟨bs, last, rfl⟩
  · rfl
  · have hflags : FlagWord.assign (FlagWord.assign last.procflags Block.lastBlock true)
        Block.lastBlock false = FlagWord.assign last.procflags Block.lastBlock false :=
      FlagWord.assign_and_not _ _ true
    rw [List.concat_eq_append, markBack, List.getLast?_concat, List.dropLast_concat,
      unmarkBack_append_singleton, unmarkBack_append_singleton, Block.set, Block.set, hflags]
    rfl

theorem unmarkBack_unmarkBack (bs : List Block) : unmarkBack (unmarkBack bs) = unmarkBack bs := by
  rcases List.eq_nil_or_concat bs with rfl | ⟨bs, last, rfl⟩
  · rfl
  · rw [List.concat_eq_append, unmarkBack_append_singleton]
    exact unmarkBack_append_of_unmarked (get_set_last last false) bs

/-- Behind blocks that are not marked, appending only adds the new block. -/
theorem pushBack_of_unmarked {bs : List Block} (h : ∀ c ∈ bs, c.get Block.lastBlock = false)
    (block : Block) : pushBack bs block = bs ++ [block.set Block.lastBlock true] := by
  rw [pushBack_eq, unmarkBack_of_unmarked h]

/-- **Appending a block keeps the mark.** -/
theorem marked_pushBack {bs : List Block} (h : Marked bs) (block : Block) :
    Marked (pushBack bs block) := by
  rcases List.eq_nil_or_concat bs with rfl | ⟨bs, last, rfl⟩
  · exact get_set_last block true
  · rw [List.concat_eq_append] at h ⊢
    rw [pushBack_append_singleton, List.append_cons, marked_append_singleton]
    refine ⟨fun c hc => ?_, get_set_last block true⟩
    rcases List.mem_append.1 hc with hc | hc
    · exact (marked_append_singleton.1 h).1 c hc
    · rw [List.mem_singleton.1 hc]
      exact get_set_last last false

/-- **Prepending a block that is not marked keeps the mark.** -/
theorem marked_pushFront {bs : List Block} (h : Marked bs) {block : Block}
    (hb : block.get Block.lastBlock = false) : Marked (pushFront bs block) := by
  cases bs with
  | nil => exact get_set_last block true
  | cons b bs => exact ⟨hb, h⟩

theorem marked_markBack {bs : List Block}
    (h : ∀ c ∈ bs.dropLast, c.get Block.lastBlock = false) : Marked (markBack bs) := by
  rcases List.eq_nil_or_concat bs with rfl | ⟨bs, last, rfl⟩
  · trivial
  · rw [List.concat_eq_append, List.dropLast_concat] at h
    rw [List.concat_eq_append, markBack, List.getLast?_concat, List.dropLast_concat,
      marked_append_singleton]
    exact ⟨h, get_set_last last true⟩

/-- **Removing a block keeps the mark.** -/
theorem marked_remove {bs : List Block} (h : Marked bs) (index : ℕ) :
    Marked (remove bs index) := by
  rw [remove]
  split_ifs with hlt
  · refine marked_markBack fun c hc => ?_
    rcases List.eq_nil_or_concat bs with rfl | ⟨bs, last, rfl⟩
    · exact absurd hlt (Nat.not_lt_zero _)
    · rw [List.concat_eq_append] at h hc hlt
      refine (marked_append_singleton.1 h).1 c ?_
      rw [List.length_append, List.length_singleton] at hlt
      rcases Nat.lt_or_ge index bs.length with hin | hout
      · rw [List.eraseIdx_append_of_lt_length hin, List.dropLast_concat] at hc
        exact List.mem_of_mem_eraseIdx hc
      · rw [List.eraseIdx_append_of_length_le hout, show index - bs.length = 0 by omega,
          List.eraseIdx_zero, List.tail_cons, List.append_nil] at hc
        exact List.mem_of_mem_dropLast hc
  · exact h

end BlockList

/-- `class Bundle`. -/
structure Bundle extends PrimaryBlock where
  blocks : List Block
deriving DecidableEq

namespace Bundle

/-- `Bundle::Bundle()`: a bundle without timestamp starts with an age block. -/
def create (timestamp sequencenumber : UInt64) : Bundle :=
  { PrimaryBlock.create timestamp sequencenumber with
    blocks := if timestamp = 0 then BlockList.pushFront [] Block.newAge else [] }

/-- `Bundle::push_back`. -/
def pushBack (b : Bundle) (block : Block) : Bundle :=
  { b with blocks := BlockList.pushBack b.blocks block }

/-- `Bundle::push_front`. -/
def pushFront (b : Bundle) (block : Block) : Bundle :=
  { b with blocks := BlockList.pushFront b.blocks block }

/-- `Bundle::remove`, of the block at the given place. -/
def remove (b : Bundle) (index : ℕ) : Bundle :=
  { b with blocks := BlockList.remove b.blocks index }

/-- `Bundle::clearBlocks`. -/
def clearBlocks (b : Bundle) : Bundle := { b with blocks := [] }

/-- The bundle with the object that the last block refers to replaced. -/
def setBack (b : Bundle) (block : Block) : Bundle :=
  { b with blocks := b.blocks.dropLast ++ [block] }

/-- The EIDs of the primary block in the order of the header. -/
def headerEIDs (p : PrimaryBlock) : List EID := [p.destination, p.source, p.reportto, p.custodian]

/-- All EIDs of a bundle: those of the primary block, and those of its blocks in order. -/
def allEIDs (b : Bundle) : List EID :=
  headerEIDs b.toPrimaryBlock ++ b.blocks.flatMap fun block => block.eids

end Bundle

end IbrDtn
