import IbrDtn.Data.Bundle
import IbrDtn.Library.Transition
import Mathlib

/-!
# Bundles that share their blocks

This file models `Bundle::BlockList` of `ibrdtn/data/Bundle.cpp` with its pointers.  A list has
references to block objects; a copy of a bundle has references to the same objects, and the
operations of the list set the last-block flag in the objects.  What the objects of a bundle look
like is the bundle of `IbrDtn.Data.Bundle`, whose operations work on blocks instead of references.

## Main definitions

* `BundleMemory` : the block objects, and the bundles with their references.
* `BundleMemory.value` : a bundle as it looks.
* `BundleMemory.Unshared` : the operations that set no flag in an object of another bundle.

## Main results

* `BundleMemory.Sound.value_pushBack`, `BundleMemory.Sound.value_remove` : the operations work on
  what a bundle looks like as those of `Bundle` do.
* `BundleMemory.marked_run` : behind every run of such operations the marks are right, and the next
  operation keeps them exactly if it is one of these.
-/

namespace IbrDtn

/-- A new block object: it is not marked as the last one. -/
structure NewBlock where
  block : Block
  unmarked : block.get Block.lastBlock = false

/-- A bundle object: the members of the primary block, and the references of its list of blocks. -/
structure BundleObject where
  primary : PrimaryBlock
  references : List ℕ

/-- The block objects, of which those from `next` on are yet to be made, and the bundle objects. -/
structure BundleMemory where
  heap : ℕ → Block
  next : ℕ
  bundles : ℕ → BundleObject

namespace BundleMemory

variable {m : BundleMemory} {i j : ℕ}

/-- The references of a bundle. -/
def refs (m : BundleMemory) (i : ℕ) : List ℕ := (m.bundles i).references

/-- **What a bundle looks like.** -/
def value (m : BundleMemory) (i : ℕ) : Bundle :=
  { (m.bundles i).primary with blocks := (m.refs i).map m.heap }

/-! ### Operations -/

/-- A list of references is given to a bundle. -/
def setRefs (m : BundleMemory) (i : ℕ) (references : List ℕ) : BundleMemory :=
  { m with bundles := Function.update m.bundles i { m.bundles i with references } }

/-- The last-block flag of an object is set. -/
def mark (m : BundleMemory) (p : ℕ) (value : Bool) : BundleMemory :=
  { m with heap := Function.update m.heap p ((m.heap p).set Block.lastBlock value) }

/-- An object is made, at the address `m.next`. -/
def allocate (m : BundleMemory) (block : Block) : BundleMemory :=
  { m with heap := Function.update m.heap m.next block, next := m.next + 1 }

/-- `Bundle::BlockList::push_front`. -/
def pushFront (m : BundleMemory) (i : ℕ) (block : Block) : BundleMemory :=
  let p := m.next
  let m := m.allocate block
  let m := if (m.refs i).isEmpty then m.mark p true else m
  m.setRefs i (p :: m.refs i)

/-- `Bundle::BlockList::push_back`. -/
def pushBack (m : BundleMemory) (i : ℕ) (block : Block) : BundleMemory :=
  let p := m.next
  let m := (m.allocate block).mark p true
  let m :=
    match (m.refs i).getLast? with
    | some last => m.mark last false
    | none => m
  m.setRefs i (m.refs i ++ [p])

/-- The loop of `Bundle::BlockList::insert`: nothing is inserted if the block is not found. -/
def insertBefore (p before : ℕ) : List ℕ → List ℕ
  | [] => []
  | q :: qs => if q = before then p :: q :: qs else q :: insertBefore p before qs

/-- `Bundle::BlockList::insert`. -/
def insert (m : BundleMemory) (i : ℕ) (block : Block) (before : ℕ) : BundleMemory :=
  let p := m.next
  let m := m.allocate block
  m.setRefs i (insertBefore p before (m.refs i))

/-- `Bundle::BlockList::remove`. -/
def remove (m : BundleMemory) (i : ℕ) (block : ℕ) : BundleMemory :=
  if block ∈ m.refs i then
    let m := m.setRefs i ((m.refs i).erase block)
    match (m.refs i).getLast? with
    | some last => m.mark last true
    | none => m
  else m

/-- The operations on the bundle objects. -/
inductive Op where
  | construct (target : ℕ) (timestamp sequencenumber : UInt64)
  | copy (target source : ℕ)
  | assign (target source : ℕ)
  | pushFront (target : ℕ) (block : NewBlock)
  | pushBack (target : ℕ) (block : NewBlock)
  | insert (target : ℕ) (block : NewBlock) (before : ℕ)
  | remove (target : ℕ) (block : ℕ)
  | clearBlocks (target : ℕ)

/-- The bundle that an operation is called on. -/
def Op.target : Op → ℕ
  | .construct i _ _ | .copy i _ | .assign i _ | .pushFront i _ | .pushBack i _ | .insert i _ _
  | .remove i _ | .clearBlocks i => i

/-- An operation. `BlockList::operator=` clears the list before it copies the other one, which is
the same one if a bundle is assigned to itself. -/
def step (m : BundleMemory) : Op → BundleMemory
  | .construct i timestamp sequencenumber =>
      let m := { m with
        bundles := Function.update m.bundles i ⟨.create timestamp sequencenumber, []⟩ }
      if timestamp = 0 then m.pushFront i Block.newAge else m
  | .copy i j => { m with bundles := Function.update m.bundles i (m.bundles j) }
  | .assign i j =>
      if i = j then m.setRefs i []
      else { m with bundles := Function.update m.bundles i (m.bundles j) }
  | .pushFront i block => m.pushFront i block.block
  | .pushBack i block => m.pushBack i block.block
  | .insert i block before => m.insert i block.block before
  | .remove i block => m.remove i block
  | .clearBlocks i => m.setRefs i []

/-- No bundles, and no blocks. -/
def start : BundleMemory := ⟨fun _ => Block.newExtension, 0, fun _ => ⟨.create 0 0, []⟩⟩

/-- **The operations that set no flag in an object of another bundle**: a block is put behind one
that the bundle does not share, and the last block is removed from behind such a one. -/
def Unshared (m : BundleMemory) : Op → Prop
  | .pushBack i _ => ∀ p, (m.refs i).getLast? = some p → ∀ j ≠ i, p ∉ m.refs j
  | .remove i block => (m.refs i).getLast? = some block →
      ∀ p, (m.refs i).dropLast.getLast? = some p → ∀ j ≠ i, p ∉ m.refs j
  | _ => True

/-! ### What operations do to the references and the objects -/

section Frame

variable (m) {p q : ℕ} {ps : List ℕ} {flag : Bool} {block : Block}

@[simp] theorem refs_setRefs_self : (m.setRefs i ps).refs i = ps := by simp [refs, setRefs]

theorem bundles_setRefs_of_ne (hij : j ≠ i) : (m.setRefs i ps).bundles j = m.bundles j :=
  Function.update_of_ne hij _ _

theorem refs_setRefs_of_ne (hij : j ≠ i) : (m.setRefs i ps).refs j = m.refs j := by
  rw [refs, bundles_setRefs_of_ne m hij, refs]

@[simp] theorem primary_setRefs : ((m.setRefs i ps).bundles i).primary = (m.bundles i).primary := by
  simp [setRefs]

@[simp] theorem heap_setRefs : (m.setRefs i ps).heap = m.heap := rfl

@[simp] theorem next_setRefs : (m.setRefs i ps).next = m.next := rfl

@[simp] theorem bundles_mark : (m.mark p flag).bundles = m.bundles := rfl

@[simp] theorem refs_mark : (m.mark p flag).refs = m.refs := rfl

@[simp] theorem next_mark : (m.mark p flag).next = m.next := rfl

@[simp] theorem heap_mark_self :
    (m.mark p flag).heap p = (m.heap p).set Block.lastBlock flag :=
  Function.update_self _ _ _

theorem heap_mark_of_ne (hqp : q ≠ p) : (m.mark p flag).heap q = m.heap q :=
  Function.update_of_ne hqp _ _

@[simp] theorem bundles_allocate : (m.allocate block).bundles = m.bundles := rfl

@[simp] theorem refs_allocate : (m.allocate block).refs = m.refs := rfl

@[simp] theorem next_allocate : (m.allocate block).next = m.next + 1 := rfl

@[simp] theorem heap_allocate_next : (m.allocate block).heap m.next = block :=
  Function.update_self _ _ _

theorem heap_allocate_of_ne (hq : q ≠ m.next) : (m.allocate block).heap q = m.heap q :=
  Function.update_of_ne hq _ _

end Frame

/-! Each operation, by the list of references that it works on. -/

theorem pushFront_of_nil (hrefs : m.refs i = []) (block : Block) :
    m.pushFront i block = ((m.allocate block).mark m.next true).setRefs i [m.next] := by
  simp [pushFront, hrefs]

theorem pushFront_of_ne_nil (hrefs : m.refs i ≠ []) (block : Block) :
    m.pushFront i block = (m.allocate block).setRefs i (m.next :: m.refs i) := by
  simp [pushFront, hrefs]

theorem pushBack_of_nil (hrefs : m.refs i = []) (block : Block) :
    m.pushBack i block = ((m.allocate block).mark m.next true).setRefs i [m.next] := by
  simp [pushBack, hrefs]

theorem pushBack_of_append {qs : List ℕ} {last : ℕ} (hrefs : m.refs i = qs ++ [last])
    (block : Block) : m.pushBack i block =
      (((m.allocate block).mark m.next true).mark last false).setRefs i
        (qs ++ [last, m.next]) := by
  simp [pushBack, hrefs]

theorem refs_pushFront (block : Block) : (m.pushFront i block).refs i = m.next :: m.refs i := by
  by_cases hnil : m.refs i = []
  · rw [pushFront_of_nil hnil, refs_setRefs_self, hnil]
  · rw [pushFront_of_ne_nil hnil, refs_setRefs_self]

theorem refs_pushBack (block : Block) : (m.pushBack i block).refs i = m.refs i ++ [m.next] := by
  rw [pushBack, refs_setRefs_self]
  split <;> rfl

theorem remove_of_not_mem {block : ℕ} (hblock : block ∉ m.refs i) : m.remove i block = m :=
  if_neg hblock

theorem remove_of_erase_nil {block : ℕ} (hblock : block ∈ m.refs i)
    (herase : (m.refs i).erase block = []) : m.remove i block = m.setRefs i [] := by
  simp [remove, hblock, herase]

theorem remove_of_erase_append {block : ℕ} (hblock : block ∈ m.refs i) {qs : List ℕ} {last : ℕ}
    (herase : (m.refs i).erase block = qs ++ [last]) :
    m.remove i block = (m.setRefs i (qs ++ [last])).mark last true := by
  simp [remove, hblock, herase]

/-- In a list of different references, the flag is on exactly the last object. -/
theorem marked_iff {h : ℕ → Block} {ps : List ℕ} (hps : ps.Nodup) :
    BlockList.Marked (ps.map h) ↔
      ∀ p ∈ ps, ((h p).get Block.lastBlock = true ↔ ps.getLast? = some p) := by
  rcases List.eq_nil_or_concat ps with rfl | ⟨qs, last, rfl⟩
  · exact iff_of_true trivial fun _ hp => absurd hp List.not_mem_nil
  · rw [List.concat_eq_append] at hps ⊢
    have hlast : ∀ q ∈ qs, q ≠ last := fun q hq heq =>
      (List.nodup_append.1 hps).2.2 q hq last List.mem_cons_self heq
    rw [List.map_append, List.map_singleton, BlockList.marked_append_singleton,
      List.getLast?_concat]
    constructor
    · rintro ⟨hqs, hflag⟩ p hp
      rcases List.mem_append.1 hp with hp | hp
      · have hfalse := hqs (h p) (List.mem_map_of_mem hp)
        exact iff_of_false (Bool.eq_false_iff.1 hfalse) fun heq =>
          hlast p hp (Option.some.inj heq).symm
      · rw [List.mem_singleton.1 hp]
        exact iff_of_true hflag rfl
    · intro hall
      refine ⟨fun c hc => ?_, (hall last (by simp)).2 rfl⟩
      obtain ⟨q, hq, rfl⟩ := List.mem_map.1 hc
      refine Bool.eq_false_iff.2 fun hflag => hlast q hq ?_
      exact (Option.some.inj ((hall q (List.mem_append_left _ hq)).1 hflag)).symm

/-- A block that is marked stays as it is when it is marked. -/
theorem set_lastBlock_of_get {b : Block} (hb : b.get Block.lastBlock = true) :
    b.set Block.lastBlock true = b := by
  have hflag : FlagWord.IsFlag Block.lastBlock := ⟨3, by decide, by decide⟩
  rw [Block.set, FlagWord.assign, if_pos rfl, FlagWord.or_eq_self (FlagWord.and_eq_of_has hflag hb)]

instance decidableMarked : DecidablePred BlockList.Marked := fun bs =>
  match bs with
  | [] => inferInstanceAs (Decidable True)
  | [b] => inferInstanceAs (Decidable (b.get Block.lastBlock = true))
  | b :: c :: bs =>
      have := decidableMarked (c :: bs)
      inferInstanceAs (Decidable (b.get Block.lastBlock = false ∧ BlockList.Marked (c :: bs)))

/-! #### Inserted references -/

section InsertBefore

variable {p before : ℕ} {qs : List ℕ}

theorem mem_insertBefore {q : ℕ} (hq : q ∈ insertBefore p before qs) : q = p ∨ q ∈ qs := by
  induction qs with
  | nil => exact .inr hq
  | cons r qs ih =>
      rw [insertBefore] at hq
      split_ifs at hq
      · exact List.mem_cons.1 hq
      · rcases List.mem_cons.1 hq with rfl | hq
        · exact .inr List.mem_cons_self
        · exact (ih hq).imp_right (List.mem_cons_of_mem r)

theorem nodup_insertBefore (hp : p ∉ qs) (hqs : qs.Nodup) : (insertBefore p before qs).Nodup := by
  induction qs with
  | nil => exact hqs
  | cons r qs ih =>
      rw [insertBefore]
      obtain ⟨hr, hqs'⟩ := List.nodup_cons.1 hqs
      split_ifs
      · exact List.nodup_cons.2 ⟨hp, hqs⟩
      · refine List.nodup_cons.2 ⟨fun hmem => ?_, ih (List.not_mem_of_not_mem_cons hp) hqs'⟩
        rcases mem_insertBefore hmem with rfl | hmem
        · exact hp List.mem_cons_self
        · exact hr hmem

/-- Nothing is inserted behind the last reference. -/
theorem getLast?_insertBefore : (insertBefore p before qs).getLast? = qs.getLast? := by
  induction qs with
  | nil => rfl
  | cons r qs ih =>
      rw [insertBefore]
      split_ifs
      · rfl
      · rw [List.getLast?_cons, List.getLast?_cons, ih]

end InsertBefore

/-! ### The invariant -/

/-- **The references of every bundle are different and refer to objects, and its last-block flag is
right.** -/
structure Sound (m : BundleMemory) : Prop where
  allocated : ∀ i, ∀ p ∈ m.refs i, p < m.next
  nodup : ∀ i, (m.refs i).Nodup
  marked : ∀ i, BlockList.Marked (m.value i).blocks

theorem sound_start : start.Sound :=
  ⟨fun _ _ hp => absurd hp List.not_mem_nil, fun _ => .nil, fun _ => trivial⟩

/-- A bundle whose references are kept looks as it did, if the objects that it refers to do. -/
theorem value_congr {m' : BundleMemory} (hbundles : m'.bundles j = m.bundles j)
    (hheap : ∀ p ∈ m.refs j, m'.heap p = m.heap p) : m'.value j = m.value j := by
  rw [value, value, refs, hbundles]
  exact congrArg _ (List.map_congr_left hheap)

/-- The references of a bundle are different and refer to objects, whatever their flags are. -/
structure Distinct (m : BundleMemory) (i : ℕ) : Prop where
  allocated : ∀ p ∈ m.refs i, p < m.next
  nodup : (m.refs i).Nodup

namespace Distinct

variable (h : m.Distinct i)

include h

theorem next_not_mem : m.next ∉ m.refs i := fun hp => lt_irrefl _ (h.allocated _ hp)

theorem ne_next {p : ℕ} (hp : p ∈ m.refs i) : p ≠ m.next := (h.allocated p hp).ne

/-- The objects in front of the last one are others. -/
theorem ne_last {qs : List ℕ} {last p : ℕ} (hrefs : m.refs i = qs ++ [last]) (hp : p ∈ qs) :
    p ≠ last := by
  have hnodup := h.nodup
  rw [hrefs, List.nodup_append] at hnodup
  exact hnodup.2.2 p hp last List.mem_cons_self

/-- A block is put in front of what the bundle looks like. -/
theorem value_pushFront (block : Block) :
    (m.pushFront i block).value i = (m.value i).pushFront block := by
  by_cases hrefs : m.refs i = []
  · rw [pushFront_of_nil hrefs, Bundle.pushFront]
    simp [value, hrefs, BlockList.pushFront]
  · have hrest : (m.refs i).map (m.allocate block).heap = (m.refs i).map m.heap :=
      List.map_congr_left fun p hp => heap_allocate_of_ne m (h.ne_next hp)
    rw [pushFront_of_ne_nil hrefs, Bundle.pushFront]
    simp [value, hrest, BlockList.pushFront, hrefs]

/-- A block is put behind what the bundle looks like. -/
theorem value_pushBack (block : Block) :
    (m.pushBack i block).value i = (m.value i).pushBack block := by
  rcases List.eq_nil_or_concat (m.refs i) with hrefs | ⟨qs, last, hrefs⟩
  · rw [pushBack_of_nil hrefs, Bundle.pushBack]
    simp [value, hrefs, BlockList.pushBack]
  · rw [List.concat_eq_append] at hrefs
    have hlast : last ≠ m.next := h.ne_next (by simp [hrefs])
    have hrest : qs.map (((m.allocate block).mark m.next true).mark last false).heap =
        qs.map m.heap := by
      refine List.map_congr_left fun p hp => ?_
      have hnext : p ≠ m.next := h.ne_next (by simp [hrefs, hp])
      rw [heap_mark_of_ne _ (h.ne_last hrefs hp), heap_mark_of_ne _ hnext,
        heap_allocate_of_ne m hnext]
    rw [pushBack_of_append hrefs, Bundle.pushBack]
    simp [value, hrefs, hrest, BlockList.pushBack_append_singleton, heap_mark_of_ne _ hlast,
      heap_mark_of_ne _ hlast.symm, heap_allocate_of_ne m hlast]

end Distinct

namespace Sound

variable (h : m.Sound)

include h

theorem distinct (i : ℕ) : m.Distinct i := ⟨h.allocated i, h.nodup i⟩

theorem next_not_mem (i : ℕ) : m.next ∉ m.refs i := (h.distinct i).next_not_mem

theorem ne_next {p : ℕ} (hp : p ∈ m.refs i) : p ≠ m.next := (h.distinct i).ne_next hp

theorem flag_iff {p : ℕ} (hp : p ∈ m.refs i) :
    (m.heap p).get Block.lastBlock = true ↔ (m.refs i).getLast? = some p :=
  (marked_iff (h.nodup i)).1 (h.marked i) p hp

/-- The objects in front of the last one are others. -/
theorem ne_last {qs : List ℕ} {last p : ℕ} (hrefs : m.refs i = qs ++ [last]) (hp : p ∈ qs) :
    p ≠ last := (h.distinct i).ne_last hrefs hp

/-! #### What a bundle looks like behind an operation -/

/-- **A block is put in front of what a bundle looks like.** -/
theorem value_pushFront (i : ℕ) (block : Block) :
    (m.pushFront i block).value i = (m.value i).pushFront block :=
  (h.distinct i).value_pushFront block

/-- **A block is put behind what a bundle looks like.** -/
theorem value_pushBack (i : ℕ) (block : Block) :
    (m.pushBack i block).value i = (m.value i).pushBack block :=
  (h.distinct i).value_pushBack block

/-- **A block is removed from what a bundle looks like.** -/
theorem value_remove (i block : ℕ) :
    (m.remove i block).value i = (m.value i).remove ((m.refs i).idxOf block) := by
  by_cases hblock : block ∈ m.refs i
  · have hindex : (m.refs i).idxOf block < (m.refs i).length := List.idxOf_lt_length_of_mem hblock
    have herased : ((m.refs i).map m.heap).eraseIdx ((m.refs i).idxOf block) =
        ((m.refs i).erase block).map m.heap := by
      rw [List.eraseIdx_map, ← List.erase_eq_eraseIdx_of_idxOf rfl]
    rw [Bundle.remove, value, value, BlockList.remove, if_pos (by simpa using hindex)]
    rcases List.eq_nil_or_concat ((m.refs i).erase block) with herase | ⟨qs, last, herase⟩
    · rw [remove_of_erase_nil hblock herase]
      simp [herased, herase, BlockList.markBack]
    · rw [List.concat_eq_append] at herase
      have hrest : qs.map (((m.setRefs i (qs ++ [last])).mark last true).heap) =
          qs.map m.heap := by
        refine List.map_congr_left fun p hp => heap_mark_of_ne _ ?_
        have hnodup := (h.nodup i).erase block
        rw [herase, List.nodup_append] at hnodup
        exact hnodup.2.2 p hp last List.mem_cons_self
      rw [remove_of_erase_append hblock herase]
      simp [herased, herase, BlockList.markBack, hrest]
  · rw [remove_of_not_mem hblock, Bundle.remove, BlockList.remove, if_neg]
    simp [value, List.idxOf_eq_length hblock]

/-! #### What the other bundles look like -/

theorem value_pushFront_of_ne (hij : j ≠ i) (block : Block) :
    (m.pushFront i block).value j = m.value j := by
  by_cases hrefs : m.refs i = []
  · rw [pushFront_of_nil hrefs]
    refine value_congr (bundles_setRefs_of_ne _ hij) fun p hp => ?_
    rw [heap_setRefs, heap_mark_of_ne _ (h.ne_next hp), heap_allocate_of_ne m (h.ne_next hp)]
  · rw [pushFront_of_ne_nil hrefs]
    exact value_congr (bundles_setRefs_of_ne _ hij) fun p hp => heap_allocate_of_ne m (h.ne_next hp)

theorem value_pushBack_of_ne (hij : j ≠ i)
    (hlast : ∀ p, (m.refs i).getLast? = some p → p ∉ m.refs j) (block : Block) :
    (m.pushBack i block).value j = m.value j := by
  rcases List.eq_nil_or_concat (m.refs i) with hrefs | ⟨qs, last, hrefs⟩
  · rw [pushBack_of_nil hrefs]
    refine value_congr (bundles_setRefs_of_ne _ hij) fun p hp => ?_
    rw [heap_setRefs, heap_mark_of_ne _ (h.ne_next hp), heap_allocate_of_ne m (h.ne_next hp)]
  · rw [List.concat_eq_append] at hrefs
    have hnot : last ∉ m.refs j := hlast last (by rw [hrefs, List.getLast?_concat])
    rw [pushBack_of_append hrefs]
    refine value_congr (bundles_setRefs_of_ne _ hij) fun p hp => ?_
    rw [heap_setRefs, heap_mark_of_ne _ (ne_of_mem_of_not_mem hp hnot),
      heap_mark_of_ne _ (h.ne_next hp), heap_allocate_of_ne m (h.ne_next hp)]

/-- The references in front of the last one. -/
theorem dropLast_append {qs : List ℕ} {last : ℕ} (hrefs : m.refs i = qs ++ [last]) :
    (m.refs i).erase last = qs := by
  have hnot : last ∉ qs := fun hmem => h.ne_last hrefs hmem rfl
  rw [hrefs, List.erase_append_right _ hnot, List.erase_cons_head, List.append_nil]

omit h in
/-- Behind the removal of another block, the last one is the last one still. -/
theorem getLast?_erase {block : ℕ} (hblock : block ∈ m.refs i)
    (hne : (m.refs i).getLast? ≠ some block) :
    ((m.refs i).erase block).getLast? = (m.refs i).getLast? := by
  rcases List.eq_nil_or_concat (m.refs i) with hrefs | ⟨qs, last, hrefs⟩
  · rw [hrefs] at hblock
    exact absurd hblock List.not_mem_nil
  · rw [List.concat_eq_append] at hrefs
    rw [hrefs, List.getLast?_concat] at hne
    have hmem : block ∈ qs := by
      rw [hrefs] at hblock
      rcases List.mem_append.1 hblock with hq | hlast
      · exact hq
      · exact absurd (congrArg some (List.mem_singleton.1 hlast).symm) hne
    rw [hrefs, List.erase_append_left _ hmem, List.getLast?_concat, List.getLast?_concat]

theorem value_remove_of_ne (hij : j ≠ i) {block : ℕ}
    (hlast : (m.refs i).getLast? = some block →
      ∀ p, (m.refs i).dropLast.getLast? = some p → p ∉ m.refs j) :
    (m.remove i block).value j = m.value j := by
  by_cases hblock : block ∈ m.refs i
  · rcases List.eq_nil_or_concat ((m.refs i).erase block) with herase | ⟨qs, last, herase⟩
    · rw [remove_of_erase_nil hblock herase]
      exact value_congr (bundles_setRefs_of_ne _ hij) fun _ _ => rfl
    · rw [List.concat_eq_append] at herase
      rw [remove_of_erase_append hblock herase]
      refine value_congr (bundles_setRefs_of_ne _ hij) fun p hp => ?_
      by_cases hp' : p = last
      · -- The block in front of the removed one is shared, so it is marked as the last one already.
        subst hp'
        have hmarked : (m.refs i).getLast? = some p := by
          by_cases heq : (m.refs i).getLast? = some block
          · obtain ⟨rs, hrefs⟩ := List.getLast?_eq_some_iff.1 heq
            rw [h.dropLast_append hrefs] at herase
            refine absurd hp (hlast heq p ?_)
            rw [hrefs, List.dropLast_concat, herase, List.getLast?_concat]
          · rw [← getLast?_erase hblock heq, herase, List.getLast?_concat]
        have hflag := (h.flag_iff (List.mem_of_getLast? hmarked)).2 hmarked
        rw [heap_mark_self, heap_setRefs, set_lastBlock_of_get hflag]
      · rw [heap_mark_of_ne _ hp', heap_setRefs]
  · rw [remove_of_not_mem hblock]

theorem value_insert_of_ne (hij : j ≠ i) (block : Block) (before : ℕ) :
    (m.insert i block before).value j = m.value j :=
  value_congr (bundles_setRefs_of_ne _ hij) fun _ hp => heap_allocate_of_ne m (h.ne_next hp)

/-! #### Operations keep the invariant -/

/-- It is enough to look at the bundle that an operation is called on. -/
theorem of_target {m' : BundleMemory} (i : ℕ) (hnext : m.next ≤ m'.next)
    (hbundles : ∀ j ≠ i, m'.bundles j = m.bundles j)
    (hvalue : ∀ j ≠ i, m'.value j = m.value j) (hallocated : ∀ p ∈ m'.refs i, p < m'.next)
    (hnodup : (m'.refs i).Nodup) (hmarked : BlockList.Marked (m'.value i).blocks) : m'.Sound := by
  have hrefs : ∀ j ≠ i, m'.refs j = m.refs j := fun j hij =>
    congrArg BundleObject.references (hbundles j hij)
  refine ⟨fun j => ?_, fun j => ?_, fun j => ?_⟩
  · by_cases hij : j = i
    · exact hij ▸ hallocated
    · rw [hrefs j hij]
      exact fun p hp => (h.allocated j p hp).trans_le hnext
  · by_cases hij : j = i
    · exact hij ▸ hnodup
    · rw [hrefs j hij]
      exact h.nodup j
  · by_cases hij : j = i
    · exact hij ▸ hmarked
    · rw [hvalue j hij]
      exact h.marked j

/-- A bundle is given the references of another one, or none. -/
theorem share (i : ℕ) (object : BundleObject)
    (hobject : object.references = [] ∨ ∃ j, object.references = m.refs j) :
    Sound { m with bundles := Function.update m.bundles i object } := by
  have hself : (Function.update m.bundles i object) i = object := Function.update_self _ _ _
  have hrefs : refs { m with bundles := Function.update m.bundles i object } i =
      object.references := congrArg BundleObject.references hself
  have hne : ∀ j ≠ i, (Function.update m.bundles i object) j = m.bundles j := fun j hij =>
    Function.update_of_ne hij _ _
  refine h.of_target i le_rfl hne (fun j hij => value_congr (hne j hij) fun _ _ => rfl) ?_ ?_ ?_
  · rw [hrefs]
    rcases hobject with hnil | ⟨j, hj⟩
    · rw [hnil]
      exact fun _ hp => absurd hp List.not_mem_nil
    · rw [hj]
      exact h.allocated j
  · rw [hrefs]
    rcases hobject with hnil | ⟨j, hj⟩
    · rw [hnil]
      exact .nil
    · rw [hj]
      exact h.nodup j
  · rw [value, hrefs]
    rcases hobject with hnil | ⟨j, hj⟩
    · rw [hnil]
      trivial
    · rw [hj]
      exact h.marked j

theorem pushFront (i : ℕ) (block : NewBlock) : (m.pushFront i block.block).Sound := by
  have hrefs := refs_pushFront (m := m) (i := i) block.block
  have hnext : (m.pushFront i block.block).next = m.next + 1 := by
    by_cases hnil : m.refs i = []
    · rw [pushFront_of_nil hnil]; rfl
    · rw [pushFront_of_ne_nil hnil]; rfl
  refine h.of_target i (by omega) (fun j hij => ?_)
    (fun j hij => h.value_pushFront_of_ne hij _) (fun p hp => ?_) ?_ ?_
  · by_cases hnil : m.refs i = []
    · rw [pushFront_of_nil hnil, bundles_setRefs_of_ne _ hij]; rfl
    · rw [pushFront_of_ne_nil hnil, bundles_setRefs_of_ne _ hij]; rfl
  · rw [hrefs] at hp
    rw [hnext]
    rcases List.mem_cons.1 hp with rfl | hp
    · exact Nat.lt_succ_self _
    · exact (h.allocated i p hp).trans (Nat.lt_succ_self _)
  · rw [hrefs]
    exact List.nodup_cons.2 ⟨h.next_not_mem i, h.nodup i⟩
  · rw [h.value_pushFront]
    exact BlockList.marked_pushFront (h.marked i) block.unmarked

theorem pushBack (i : ℕ) (block : Block)
    (hlast : ∀ p, (m.refs i).getLast? = some p → ∀ j ≠ i, p ∉ m.refs j) :
    (m.pushBack i block).Sound := by
  have hrefs := refs_pushBack (m := m) (i := i) block
  have hnext : (m.pushBack i block).next = m.next + 1 := by
    rw [BundleMemory.pushBack]
    split <;> rfl
  refine h.of_target i (by omega) (fun j hij => ?_)
    (fun j hij => h.value_pushBack_of_ne hij (fun p hp => hlast p hp j hij) _) (fun p hp => ?_) ?_ ?_
  · rw [BundleMemory.pushBack, bundles_setRefs_of_ne _ hij]
    split <;> rfl
  · rw [hrefs] at hp
    rw [hnext]
    rcases List.mem_append.1 hp with hp | hp
    · exact (h.allocated i p hp).trans (Nat.lt_succ_self _)
    · rw [List.mem_singleton.1 hp]
      exact Nat.lt_succ_self _
  · rw [hrefs, ← List.concat_eq_append]
    exact (h.nodup i).concat (h.next_not_mem i)
  · rw [h.value_pushBack]
    exact BlockList.marked_pushBack (h.marked i) block

theorem insert (i : ℕ) (block : NewBlock) (before : ℕ) :
    (m.insert i block.block before).Sound := by
  have hrefs : (m.insert i block.block before).refs i = insertBefore m.next before (m.refs i) :=
    refs_setRefs_self _
  have hnodup : (insertBefore m.next before (m.refs i)).Nodup :=
    nodup_insertBefore (h.next_not_mem i) (h.nodup i)
  refine h.of_target i (Nat.le_succ _) (fun j hij => bundles_setRefs_of_ne _ hij)
    (fun j hij => h.value_insert_of_ne hij _ _) (fun p hp => ?_) (hrefs ▸ hnodup) ?_
  · rcases mem_insertBefore (hrefs ▸ hp) with rfl | hp
    · exact Nat.lt_succ_self _
    · exact (h.allocated i p hp).trans (Nat.lt_succ_self _)
  · change BlockList.Marked (((m.insert i block.block before).refs i).map _)
    rw [hrefs, marked_iff hnodup]
    intro p hp
    rw [getLast?_insertBefore]
    rcases mem_insertBefore hp with rfl | hp
    · refine iff_of_false ?_ fun hlast => h.next_not_mem i (List.mem_of_getLast? hlast)
      have hheap : (m.insert i block.block before).heap m.next = block.block :=
        heap_allocate_next m
      rw [hheap, block.unmarked]
      exact Bool.false_ne_true
    · have hheap : (m.insert i block.block before).heap p = m.heap p :=
        heap_allocate_of_ne m (h.ne_next hp)
      rw [hheap]
      exact h.flag_iff hp

theorem remove (i block : ℕ) (hlast : (m.refs i).getLast? = some block →
    ∀ p, (m.refs i).dropLast.getLast? = some p → ∀ j ≠ i, p ∉ m.refs j) :
    (m.remove i block).Sound := by
  by_cases hblock : block ∈ m.refs i
  · have hrefs : (m.remove i block).refs i = (m.refs i).erase block := by
      rw [BundleMemory.remove, if_pos hblock]
      dsimp only
      split <;> exact refs_setRefs_self m
    have hnext : (m.remove i block).next = m.next := by
      rw [BundleMemory.remove, if_pos hblock]
      dsimp only
      split <;> rfl
    refine h.of_target i hnext.ge (fun j hij => ?_)
      (fun j hij => h.value_remove_of_ne hij fun heq p hp => hlast heq p hp j hij)
      (fun p hp => ?_) ?_ ?_
    · rw [BundleMemory.remove, if_pos hblock]
      dsimp only
      split <;> exact bundles_setRefs_of_ne m hij
    · rw [hnext]
      exact h.allocated i p (List.mem_of_mem_erase (hrefs ▸ hp))
    · rw [hrefs]
      exact (h.nodup i).erase block
    · rw [h.value_remove]
      exact BlockList.marked_remove (h.marked i) _
  · rw [remove_of_not_mem hblock]
    exact h

/-- **An operation that sets no flag in an object of another bundle keeps the invariant.** -/
theorem step {op : Op} (hop : m.Unshared op) : (m.step op).Sound := by
  cases op with
  | construct i timestamp sequencenumber =>
      have hnew := h.share i ⟨.create timestamp sequencenumber, []⟩ (.inl rfl)
      rw [BundleMemory.step]
      split_ifs
      · exact hnew.pushFront i ⟨Block.newAge, by decide⟩
      · exact hnew
  | copy i j => exact h.share i _ (.inr ⟨j, rfl⟩)
  | assign i j =>
      rw [BundleMemory.step]
      split_ifs
      · exact h.share i _ (.inl rfl)
      · exact h.share i _ (.inr ⟨j, rfl⟩)
  | pushFront i block => exact h.pushFront i block
  | pushBack i block => exact h.pushBack i block.block hop
  | insert i block before => exact h.insert i block before
  | remove i block => exact h.remove i block hop
  | clearBlocks i => exact h.share i _ (.inl rfl)

/-- **Such an operation does not change what another bundle looks like.** -/
theorem value_step_of_ne {op : Op} (hop : m.Unshared op) (hj : j ≠ op.target) :
    (m.step op).value j = m.value j := by
  have hshare (i : ℕ) (object : BundleObject) (hij : j ≠ i) :
      value { m with bundles := Function.update m.bundles i object } j = m.value j :=
    value_congr (Function.update_of_ne hij _ _) fun _ _ => rfl
  cases op with
  | construct i timestamp sequencenumber =>
      have hnew := h.share i ⟨.create timestamp sequencenumber, []⟩ (.inl rfl)
      rw [BundleMemory.step]
      split_ifs
      · exact (hnew.value_pushFront_of_ne hj _).trans (hshare i _ hj)
      · exact hshare i _ hj
  | copy i k => exact hshare i _ hj
  | assign i k =>
      rw [BundleMemory.step]
      split_ifs
      · exact hshare i _ hj
      · exact hshare i _ hj
  | pushFront i block => exact h.value_pushFront_of_ne hj _
  | pushBack i block => exact h.value_pushBack_of_ne hj (fun p hp => hop p hp j hj) _
  | insert i block before => exact h.value_insert_of_ne hj _ _
  | remove i block => exact h.value_remove_of_ne hj fun heq p hp => hop heq p hp j hj
  | clearBlocks i => exact hshare i _ hj

/-- **The other operations break the marks.** -/
theorem unshared_of_marked {op : Op} (hmarked : ∀ j, BlockList.Marked ((m.step op).value j).blocks) :
    m.Unshared op := by
  have hflag (j : ℕ) (hrefs : (m.step op).refs j = m.refs j) {p : ℕ} (hp : p ∈ m.refs j) :
      ((m.step op).heap p).get Block.lastBlock = true ↔ (m.refs j).getLast? = some p := by
    have hj := hmarked j
    rw [value, hrefs] at hj
    exact (marked_iff (h.nodup j)).1 hj p hp
  cases op with
  | pushBack i block =>
      intro p hp j hij hmem
      obtain ⟨qs, hrefs⟩ := List.getLast?_eq_some_iff.1 hp
      have hkept : (m.pushBack i block.block).refs j = m.refs j := by
        rw [pushBack_of_append hrefs, refs_setRefs_of_ne _ hij]
        rfl
      have hunset : ((m.pushBack i block.block).heap p).get Block.lastBlock = false := by
        rw [pushBack_of_append hrefs, heap_setRefs, heap_mark_self]
        exact BlockList.get_set_last _ false
      have hset := (h.flag_iff (List.mem_of_getLast? hp)).2 hp
      exact Bool.false_ne_true (hunset.symm.trans ((hflag j hkept hmem).2 ((h.flag_iff hmem).1 hset)))
  | remove i block =>
      intro hblock p hp j hij hmem
      obtain ⟨qs, hrefs⟩ := List.getLast?_eq_some_iff.1 hblock
      have herase := h.dropLast_append hrefs
      rw [hrefs, List.dropLast_concat] at hp
      obtain ⟨rs, rfl⟩ := List.getLast?_eq_some_iff.1 hp
      have hin : block ∈ m.refs i := List.mem_of_getLast? hblock
      have hkept : (m.remove i block).refs j = m.refs j := by
        rw [remove_of_erase_append hin herase, refs_mark, refs_setRefs_of_ne _ hij]
      have hset : ((m.remove i block).heap p).get Block.lastBlock = true := by
        rw [remove_of_erase_append hin herase, heap_mark_self]
        exact BlockList.get_set_last _ true
      have hp' : p ∈ m.refs i := by rw [hrefs]; simp
      have hlast := (h.flag_iff hp').1 ((h.flag_iff hmem).2 ((hflag j hkept hmem).1 hset))
      refine h.ne_last hrefs (p := p) (by simp) ?_
      exact Option.some.inj (hlast.symm.trans hblock)
  | _ => trivial

end Sound

/-! ### Runs -/

/-- **Behind every run of operations that set no flag in an object of another bundle, the last-block
flag of every bundle is on exactly its final block.** The next operation keeps this exactly if it
is such an operation, and then it does not change what any other bundle looks like. -/
theorem marked_run {ops : List Op}
    (h : Transition.Run (fun m op m' => m' = m.step op) Unshared start ops m) :
    (∀ i, BlockList.Marked (m.value i).blocks) ∧
      ∀ op, ((∀ i, BlockList.Marked ((m.step op).value i).blocks) ↔ m.Unshared op) ∧
        (m.Unshared op → ∀ j ≠ op.target, (m.step op).value j = m.value j) := by
  have hsound : m.Sound := h.invariant sound_start fun _ _ _ hm hop hstep => hstep ▸ hm.step hop
  exact ⟨hsound.marked, fun op => ⟨⟨hsound.unshared_of_marked, fun hop => (hsound.step hop).marked⟩,
    fun hop j hj => hsound.value_step_of_ne hop hj⟩⟩

/-- The memory behind some operations. -/
def after (ops : List Op) : BundleMemory := ops.foldl step start

/-- An operation changes the references of its bundle only. -/
theorem refs_step_of_ne {op : Op} (hj : j ≠ op.target) : (m.step op).refs j = m.refs j := by
  have hshare (object : BundleObject) :
      refs { m with bundles := Function.update m.bundles op.target object } j = m.refs j :=
    congrArg BundleObject.references (Function.update_of_ne hj _ _)
  cases op with
  | construct i timestamp sequencenumber =>
      change j ≠ i at hj
      rw [step]
      split_ifs
      · rw [BundleMemory.pushFront, refs_setRefs_of_ne _ hj]
        split_ifs <;> exact hshare _
      · exact hshare _
  | copy i k => exact hshare _
  | assign i k =>
      rw [step]
      split_ifs
      · exact refs_setRefs_of_ne m hj
      · exact hshare _
  | pushFront i block =>
      change j ≠ i at hj
      rw [step, BundleMemory.pushFront, refs_setRefs_of_ne _ hj]
      split_ifs <;> rfl
  | pushBack i block =>
      change j ≠ i at hj
      rw [step, BundleMemory.pushBack, refs_setRefs_of_ne _ hj]
      split <;> rfl
  | insert i block before => exact refs_setRefs_of_ne _ hj
  | remove i block =>
      rw [step, BundleMemory.remove]
      split_ifs
      · dsimp only
        split <;> exact refs_setRefs_of_ne m hj
      · rfl
  | clearBlocks i => exact refs_setRefs_of_ne m hj

/-- Bundles that no operation was called on have no references. -/
theorem refs_after_of_forall_ne {ops : List Op} (hj : ∀ op ∈ ops, j ≠ op.target) :
    (after ops).refs j = [] := by
  induction ops using List.reverseRecOn with
  | nil => rfl
  | append_singleton ops op ih =>
      rw [after, List.foldl_append]
      refine (refs_step_of_ne (hj op (by simp))).trans (ih fun op' hop => ?_)
      exact hj op' (List.mem_append_left _ hop)

/-- An object of one bundle alone, among those that operations were called on. -/
theorem not_mem_refs_after {ops : List Op} {p n : ℕ} (hops : ∀ op ∈ ops, op.target < n)
    (hp : ∀ j < n, j ≠ i → p ∉ (after ops).refs j) : ∀ j ≠ i, p ∉ (after ops).refs j := by
  intro j hj
  by_cases hjn : j < n
  · exact hp j hjn hj
  · have hne : ∀ op ∈ ops, j ≠ op.target := fun op hop heq => hjn (heq.trans_lt (hops op hop))
    rw [refs_after_of_forall_ne hne]
    exact List.not_mem_nil

/-- A new payload block. -/
def samplePayload : NewBlock := ⟨Block.newPayload, by decide⟩

/-- A bundle with a payload block is copied, and the copy gets blocks in front of it; another bundle,
with an age block, gets a payload block and loses it again. -/
def sampleOps : List Op :=
  [.construct 0 1 1, .pushBack 0 samplePayload, .copy 1 0, .pushFront 1 samplePayload,
    .insert 1 samplePayload 0, .construct 2 0 2, .pushBack 2 samplePayload, .remove 2 4]

theorem marked_run_sample :
    let m := after sampleOps
    (m.refs 0 = [0] ∧ m.refs 1 = [1, 2, 0] ∧ m.refs 2 = [3]) ∧
      (∀ i, BlockList.Marked (m.value i).blocks) ∧
        ∀ op, ((∀ i, BlockList.Marked ((m.step op).value i).blocks) ↔ m.Unshared op) ∧
          (m.Unshared op → ∀ j ≠ op.target, (m.step op).value j = m.value j) := by
  have hrun : Transition.Run (fun m op m' => m' = m.step op) Unshared start sampleOps
      (after sampleOps) := by
    refine .snoc (.snoc (.snoc (.snoc (.snoc (.snoc (.snoc (.snoc .nil trivial rfl) ?_ rfl)
      trivial rfl) trivial rfl) trivial rfl) trivial rfl) ?_ rfl) ?_ rfl
    · exact fun p hp => (Option.some_ne_none p hp.symm).elim
    · intro p hp
      obtain rfl : 3 = p := Option.some.inj hp
      change ∀ j ≠ 2, 3 ∉ (after (sampleOps.take 6)).refs j
      exact not_mem_refs_after (n := 3) (by decide) (by decide +kernel)
    · intro _ p hp
      obtain rfl : 3 = p := Option.some.inj hp
      change ∀ j ≠ 2, 3 ∉ (after (sampleOps.take 7)).refs j
      exact not_mem_refs_after (n := 3) (by decide) (by decide +kernel)
  exact ⟨by decide +kernel, marked_run hrun⟩

/-- **Appending to a bundle takes the mark off the final block of its copy, and removing the final
block of a bundle marks a block in the middle of its copy.** -/
theorem not_marked_after :
    ¬ BlockList.Marked
        ((after [.construct 0 0 1, .copy 1 0, .pushBack 0 samplePayload]).value 1).blocks ∧
      ¬ BlockList.Marked ((after [.construct 0 0 1, .pushBack 0 samplePayload, .copy 1 0,
        .remove 0 1]).value 1).blocks := by
  decide +kernel

end BundleMemory

end IbrDtn
