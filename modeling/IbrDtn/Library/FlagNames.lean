import IbrDtn.Library.FlagWord

/-!
# Words of flags as lists of names

A text form of a word of flags: the names of the flags that are set.  A table gives the flags that
have a name; reading the names sets their flags in a word that there is already.

## Main definitions

* `FlagWord.names`, `FlagWord.setNamed` : from a word to names, and from a name into a word.
* `FlagWord.tableMask` : the flags that have a name.

## Main results

* `FlagWord.foldl_setNamed_names` : the names of a word set its flags that have one.
* `FlagWord.eq_merge_iff` : when a word is what its names, and flags from elsewhere, make of another
  one.
-/

namespace FlagWord

variable {α : Type} [DecidableEq α]

/-- The names of the flags that are set, in the order of the table. -/
def names (table : List (UInt64 × α)) (word : UInt64) : List α :=
  (table.filter fun f => has word f.1).map Prod.snd

/-- The word with the flag of the name set, if there is one. -/
def setNamed (table : List (UInt64 × α)) (word : UInt64) (name : α) : UInt64 :=
  match table.find? fun f => f.2 = name with
  | some f => word ||| f.1
  | none => word

/-- The flags of the table. -/
def tableMask (table : List (UInt64 × α)) : UInt64 :=
  table.foldr (fun f mask => f.1 ||| mask) 0

theorem find?_eq_some_of_nodup {table : List (UInt64 × α)} (hnodup : (table.map Prod.snd).Nodup)
    {f : UInt64 × α} (hf : f ∈ table) : (table.find? fun g => g.2 = f.2) = some f := by
  induction table with
  | nil => exact absurd hf List.not_mem_nil
  | cons g table ih =>
      rw [List.map_cons, List.nodup_cons] at hnodup
      rcases List.mem_cons.1 hf with rfl | hf
      · exact List.find?_cons_of_pos (by simp)
      · have hne : g.2 ≠ f.2 := fun heq => hnodup.1 (heq ▸ List.mem_map_of_mem hf)
        rw [List.find?_cons_of_neg (by simpa using hne), ih hnodup.2 hf]

omit [DecidableEq α] in
/-- The flags of a table that are set are those of the word. -/
theorem foldl_or_filter {table : List (UInt64 × α)} (hflags : ∀ f ∈ table, IsFlag f.1)
    (word start : UInt64) :
    (table.filter fun f => has word f.1).foldl (fun w f => w ||| f.1) start =
      start ||| (word &&& tableMask table) := by
  induction table generalizing start with
  | nil => simp [tableMask]
  | cons f table ih =>
      have hrest := ih fun g hg => hflags g (List.mem_cons_of_mem _ hg)
      have hmask : word &&& tableMask (f :: table) =
          (word &&& f.1) ||| (word &&& tableMask table) := by
        refine ext_getElem fun i hi => ?_
        rw [tableMask, List.foldr_cons, ← tableMask]
        simp only [UInt64.toBitVec_and, UInt64.toBitVec_or, BitVec.getElem_and, BitVec.getElem_or,
          Bool.and_or_distrib_left]
      cases hf : has word f.1 with
      | true =>
          rw [List.filter_cons_of_pos (by simpa using hf), List.foldl_cons, hrest, hmask,
            and_eq_of_has (hflags f List.mem_cons_self) hf, UInt64.or_assoc]
      | false =>
          have hzero : word &&& f.1 = 0 := by simpa [has] using hf
          rw [List.filter_cons_of_neg (by simp [hf]), hrest, hmask, hzero, UInt64.zero_or]

/-- **The names of a word set its flags that have one.** -/
theorem foldl_setNamed_names {table : List (UInt64 × α)} (hflags : ∀ f ∈ table, IsFlag f.1)
    (hnodup : (table.map Prod.snd).Nodup) (word start : UInt64) :
    (names table word).foldl (setNamed table) start = start ||| (word &&& tableMask table) := by
  rw [names, List.foldl_map, ← foldl_or_filter hflags]
  refine List.foldl_ext _ _ _ fun w f hf => ?_
  rw [setNamed, find?_eq_some_of_nodup hnodup (List.mem_filter.1 hf).1]

theorem eq_iff_getElem {a b : UInt64} :
    a = b ↔ ∀ i (hi : i < 64), a.toBitVec[i] = b.toBitVec[i] :=
  ⟨fun h _ _ => by rw [h], ext_getElem⟩

/-- One bit of `eq_merge_iff`. -/
theorem merge_bit : ∀ {word own other mask free : Bool}, (own && mask) = own →
    (free && mask) = free → (own && free) = false → (other && mask) = false →
    (((own || word && mask || other) && !free) = (word && !free) ↔
      (word && !mask) = other ∧ (word && own) = own) := by
  decide

/-- **A word is what its flags of `mask` make of `own`, together with `other`** outside the mask, up
to the flags of `free`: it has the flags of `own`, and outside the mask those of `other`. -/
theorem eq_merge_iff {word own other mask free : UInt64} (hown : own &&& mask = own)
    (hfree : free &&& mask = free) (hdisjoint : own &&& free = 0) (hother : other &&& mask = 0) :
    (own ||| (word &&& mask) ||| other) &&& ~~~free = word &&& ~~~free ↔
      word &&& ~~~mask = other ∧ word &&& own = own := by
  rw [eq_iff_getElem] at hown hfree hdisjoint hother
  rw [eq_iff_getElem, eq_iff_getElem, eq_iff_getElem, ← forall₂_and]
  refine forall₂_congr fun i hi => ?_
  have hzero : (0 : UInt64).toBitVec[i] = false := by simp
  have hown := hown i hi
  have hfree := hfree i hi
  have hdisjoint := hdisjoint i hi
  have hother := hother i hi
  simp only [UInt64.toBitVec_and, UInt64.toBitVec_or, UInt64.toBitVec_not, BitVec.getElem_and,
    BitVec.getElem_or, BitVec.getElem_not, hzero] at hown hfree hdisjoint hother ⊢
  exact merge_bit hown hfree hdisjoint hother

end FlagWord
