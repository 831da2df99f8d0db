import Mathlib

/-!
# Words of flags

A 64-bit word whose bits are flags, tested and assigned with masks.  The lemmas say what an
assignment does to the flags of the same mask and of a disjoint one.

## Main definitions

* `FlagWord.has`, `FlagWord.assign` : testing and assigning the flags of a mask.

## Main results

* `FlagWord.has_assign_self`, `FlagWord.has_assign_of_disjoint` : the assigned flag has the
  assigned value, and the flags of disjoint masks keep theirs.
* `FlagWord.assign_and_not` : outside the mask nothing changes.
-/

namespace FlagWord

/-- Some flag of the mask is set. -/
def has (word mask : UInt64) : Bool := word &&& mask != 0

/-- Set or unset the flags of the mask. -/
def assign (word mask : UInt64) (value : Bool) : UInt64 :=
  if value then word ||| mask else word &&& ~~~mask

/-- Two words are equal if they agree in every bit. -/
theorem ext_getElem {x y : UInt64}
    (h : ∀ (i : ℕ) (hi : i < 64), x.toBitVec[i] = y.toBitVec[i]) : x = y := by
  rw [← UInt64.toBitVec_inj]
  ext i hi
  exact h i hi

theorem or_and_of_disjoint {x f g : UInt64} (h : f &&& g = 0) : (x ||| f) &&& g = x &&& g := by
  refine ext_getElem fun i hi => ?_
  have hbit : (f.toBitVec[i] && g.toBitVec[i]) = false := by
    have := congrArg (fun w : UInt64 => w.toBitVec[i]) h
    simpa using this
  simp only [UInt64.toBitVec_and, UInt64.toBitVec_or, BitVec.getElem_and, BitVec.getElem_or]
  rw [Bool.and_or_distrib_right, hbit, Bool.or_false]

theorem and_not_and_of_disjoint {x f g : UInt64} (h : f &&& g = 0) :
    (x &&& ~~~f) &&& g = x &&& g := by
  refine ext_getElem fun i hi => ?_
  have hbit : (f.toBitVec[i] && g.toBitVec[i]) = false := by
    have := congrArg (fun w : UInt64 => w.toBitVec[i]) h
    simpa using this
  simp only [UInt64.toBitVec_and, UInt64.toBitVec_not, BitVec.getElem_and, BitVec.getElem_not]
  revert hbit
  cases x.toBitVec[i] <;> cases f.toBitVec[i] <;> cases g.toBitVec[i] <;> decide

theorem or_and_self (x f : UInt64) : (x ||| f) &&& f = f := by
  refine ext_getElem fun i hi => ?_
  simp only [UInt64.toBitVec_and, UInt64.toBitVec_or, BitVec.getElem_and, BitVec.getElem_or]
  cases x.toBitVec[i] <;> cases f.toBitVec[i] <;> rfl

theorem and_not_and_self (x f : UInt64) : (x &&& ~~~f) &&& f = 0 := by
  refine ext_getElem fun i hi => ?_
  simp only [UInt64.toBitVec_and, UInt64.toBitVec_not, BitVec.getElem_and, BitVec.getElem_not]
  cases x.toBitVec[i] <;> cases f.toBitVec[i] <;> simp

theorem or_and_not_self (x f : UInt64) : (x ||| f) &&& ~~~f = x &&& ~~~f := by
  refine ext_getElem fun i hi => ?_
  simp only [UInt64.toBitVec_and, UInt64.toBitVec_or, UInt64.toBitVec_not, BitVec.getElem_and,
    BitVec.getElem_or, BitVec.getElem_not]
  cases x.toBitVec[i] <;> cases f.toBitVec[i] <;> rfl

/-- A word that holds every flag of a mask is not changed by setting them. -/
theorem or_eq_self {x f : UInt64} (h : x &&& f = f) : x ||| f = x := by
  refine ext_getElem fun i hi => ?_
  have hbit : (x.toBitVec[i] && f.toBitVec[i]) = f.toBitVec[i] := by
    have := congrArg (fun w : UInt64 => w.toBitVec[i]) h
    simpa only [UInt64.toBitVec_and, BitVec.getElem_and] using this
  simp only [UInt64.toBitVec_or, BitVec.getElem_or]
  revert hbit
  cases x.toBitVec[i] <;> cases f.toBitVec[i] <;> decide

/-- A mask that lets everything through but flags that are added back. -/
theorem and_not_or_of_and_eq {x m f : UInt64} (h : m &&& f = f) : x &&& (~~~f ||| m) = x := by
  refine ext_getElem fun i hi => ?_
  have hbit : (m.toBitVec[i] && f.toBitVec[i]) = f.toBitVec[i] := by
    have := congrArg (fun w : UInt64 => w.toBitVec[i]) h
    simpa only [UInt64.toBitVec_and, BitVec.getElem_and] using this
  simp only [UInt64.toBitVec_and, UInt64.toBitVec_or, UInt64.toBitVec_not, BitVec.getElem_and,
    BitVec.getElem_or, BitVec.getElem_not]
  revert hbit
  cases x.toBitVec[i] <;> cases f.toBitVec[i] <;> cases m.toBitVec[i] <;> decide

/-- **The assigned flag has the assigned value.** -/
theorem has_assign_self {word mask : UInt64} (h : mask ≠ 0) (value : Bool) :
    has (assign word mask value) mask = value := by
  cases value with
  | false =>
      rw [has, assign, if_neg Bool.false_ne_true, and_not_and_self]
      rfl
  | true =>
      rw [has, assign, if_pos rfl, or_and_self]
      exact bne_iff_ne.2 h

/-- **Flags of a disjoint mask keep their value.** -/
theorem has_assign_of_disjoint {word mask other : UInt64} (h : mask &&& other = 0)
    (value : Bool) : has (assign word mask value) other = has word other := by
  cases value with
  | false => rw [has, assign, if_neg Bool.false_ne_true, and_not_and_of_disjoint h, has]
  | true => rw [has, assign, if_pos rfl, or_and_of_disjoint h, has]

/-- Unsetting flags that are not set changes nothing. -/
theorem assign_false_of_not_has {word mask : UInt64} (h : has word mask = false) :
    assign word mask false = word := by
  have hzero : word &&& mask = 0 := by simpa [has] using h
  rw [assign, if_neg Bool.false_ne_true]
  refine ext_getElem fun i hi => ?_
  have hbit : (word.toBitVec[i] && mask.toBitVec[i]) = false := by
    have := congrArg (fun w : UInt64 => w.toBitVec[i]) hzero
    simpa using this
  simp only [UInt64.toBitVec_and, UInt64.toBitVec_not, BitVec.getElem_and, BitVec.getElem_not]
  revert hbit
  cases word.toBitVec[i] <;> cases mask.toBitVec[i] <;> decide

/-- The mask is a single flag. -/
def IsFlag (mask : UInt64) : Prop := ∃ k < 64, mask.toBitVec = BitVec.twoPow 64 k

/-- A single flag that is set is the whole mask. -/
theorem and_eq_of_has {word mask : UInt64} (hm : IsFlag mask) (h : has word mask = true) :
    word &&& mask = mask := by
  obtain ⟨k, hk, hmask⟩ := hm
  have hbit (i : ℕ) (hi : i < 64) : mask.toBitVec[i] = decide (i = k) := by
    simp only [hmask, BitVec.getElem_twoPow]
  have hset : word.toBitVec[k] = true := by
    by_contra hne
    rw [Bool.not_eq_true] at hne
    have hzero : word &&& mask = 0 := by
      refine ext_getElem fun i hi => ?_
      simp only [UInt64.toBitVec_and, BitVec.getElem_and, hbit i hi, UInt64.toBitVec_zero,
        BitVec.getElem_zero]
      by_cases hik : i = k
      · subst hik
        simp [hne]
      · simp [hik]
    rw [has, hzero] at h
    exact absurd h (by decide)
  refine ext_getElem fun i hi => ?_
  simp only [UInt64.toBitVec_and, BitVec.getElem_and, hbit i hi]
  by_cases hik : i = k
  · subst hik
    simp [hset]
  · simp [hik]

/-- Dropping flags of a disjoint mask does not change the test. -/
theorem has_and_not_of_disjoint {word mask other : UInt64} (h : mask &&& other = 0) :
    has (word &&& ~~~mask) other = has word other := by
  rw [has, and_not_and_of_disjoint h, has]

/-- Outside the mask an assignment changes nothing. -/
theorem assign_and_not (word mask : UInt64) (value : Bool) :
    assign word mask value &&& ~~~mask = word &&& ~~~mask := by
  cases value with
  | false => rw [assign, if_neg Bool.false_ne_true, UInt64.and_assoc, UInt64.and_self]
  | true => rw [assign, if_pos rfl, or_and_not_self]

/-- A mask that is added to keeps its flags. -/
theorem or_and_of_and_eq {a m f : UInt64} (h : a &&& f = f) : (a ||| m) &&& f = f := by
  refine ext_getElem fun i hi => ?_
  have hbit : (a.toBitVec[i] && f.toBitVec[i]) = f.toBitVec[i] := by
    have := congrArg (fun w : UInt64 => w.toBitVec[i]) h
    simpa only [UInt64.toBitVec_and, BitVec.getElem_and] using this
  simp only [UInt64.toBitVec_and, UInt64.toBitVec_or, BitVec.getElem_and, BitVec.getElem_or]
  revert hbit
  cases a.toBitVec[i] <;> cases f.toBitVec[i] <;> cases m.toBitVec[i] <;> decide

/-- Assigning the value that a single flag has changes nothing. -/
theorem assign_of_has {word mask : UInt64} (hm : IsFlag mask) {value : Bool}
    (h : has word mask = value) : assign word mask value = word := by
  cases value with
  | false => exact assign_false_of_not_has h
  | true => exact or_eq_self (and_eq_of_has hm h)

/-- The last assignment of a mask counts. -/
theorem assign_and_not_assign (word mask : UInt64) (value : Bool) :
    assign (word &&& ~~~mask) mask value = assign word mask value := by
  refine ext_getElem fun i hi => ?_
  cases value <;>
    simp only [assign, Bool.false_eq_true, if_true, if_false, UInt64.toBitVec_and,
      UInt64.toBitVec_or, UInt64.toBitVec_not, BitVec.getElem_and, BitVec.getElem_or,
      BitVec.getElem_not] <;>
    cases word.toBitVec[i] <;> cases mask.toBitVec[i] <;> rfl

/-- Assignments of disjoint masks commute. -/
theorem assign_comm (word : UInt64) {mask other : UInt64} (h : mask &&& other = 0)
    (value value' : Bool) : assign (assign word mask value) other value' =
      assign (assign word other value') mask value := by
  refine ext_getElem fun i hi => ?_
  have hbit : (mask.toBitVec[i] && other.toBitVec[i]) = false := by
    have := congrArg (fun w : UInt64 => w.toBitVec[i]) h
    simpa using this
  cases value <;> cases value' <;>
    simp only [assign, Bool.false_eq_true, if_true, if_false, UInt64.toBitVec_and,
      UInt64.toBitVec_or, UInt64.toBitVec_not, BitVec.getElem_and, BitVec.getElem_or,
      BitVec.getElem_not] <;>
    revert hbit <;>
    cases word.toBitVec[i] <;> cases mask.toBitVec[i] <;> cases other.toBitVec[i] <;> decide

end FlagWord
