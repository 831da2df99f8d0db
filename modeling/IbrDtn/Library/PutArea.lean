import Mathlib

/-!
# Put areas

A stream buffer collects characters in a put area and hands them on in segments: the character
that finds no room is added to the area, which then overflows as one segment.  A final flush hands
on what is left.  This file computes the segments of a message, whatever pieces it is written in.

## Main definitions

* `PutArea` : the characters in the area and the segments that overflowed.
* `PutArea.write` : writing characters one after the other.
* `PutArea.Parts.Framed` : marks on exactly the first and exactly the last of the segments.

## Main results

* `PutArea.filled_write` : segments are full, and with the rest they make up what was written.
* `PutArea.Filled.pending_eq_nil_iff` : nothing is left for the flush exactly when the size of the
  area divides the length of the message.
-/

/-- The characters in a put area and the segments that overflowed from it. -/
structure PutArea (α : Type) where
  pending : List α
  segments : List (List α)

namespace PutArea

variable {α β : Type}

/-- The area before anything is written. -/
def empty : PutArea α := ⟨[], []⟩

/-- A character is written. The area of a buffer of `size` characters has room for one less. -/
def put (size : ℕ) (a : PutArea α) (c : α) : PutArea α :=
  if a.pending.length + 1 < size then ⟨a.pending ++ [c], a.segments⟩
  else ⟨[], a.segments ++ [a.pending ++ [c]]⟩

/-- Characters are written one after the other. -/
def write (size : ℕ) (a : PutArea α) (cs : List α) : PutArea α := cs.foldl (put size) a

@[simp] theorem write_nil (size : ℕ) (a : PutArea α) : write size a [] = a := rfl

theorem write_append (size : ℕ) (a : PutArea α) (cs ds : List α) :
    write size a (cs ++ ds) = write size (write size a cs) ds :=
  List.foldl_append

theorem write_concat (size : ℕ) (a : PutArea α) (cs : List α) (c : α) :
    write size a (cs ++ [c]) = put size (write size a cs) c :=
  write_append size a cs [c]

/-- The area holds what is left of a message whose full segments overflowed. -/
structure Filled (size : ℕ) (a : PutArea α) (cs : List α) : Prop where
  flatten_eq : a.segments.flatten ++ a.pending = cs
  length_eq : ∀ s ∈ a.segments, s.length = size
  pending_lt : a.pending.length < size

/-- **Every segment that overflows is full**, and nothing is lost. -/
theorem filled_write {size : ℕ} (hsize : 0 < size) (cs : List α) :
    Filled size (write size empty cs) cs := by
  induction cs using List.reverseRecOn with
  | nil => exact ⟨rfl, by simp [empty], hsize⟩
  | append_singleton cs c ih =>
      rw [write_concat, put]
      split_ifs with hroom
      · exact ⟨by rw [← List.append_assoc, ih.flatten_eq], ih.length_eq, by simpa using hroom⟩
      · refine ⟨?_, fun s hs => ?_, hsize⟩
        · rw [List.flatten_append, List.flatten_singleton, List.append_nil, ← List.append_assoc,
            ih.flatten_eq]
        · rcases List.mem_append.1 hs with hs | hs
          · exact ih.length_eq s hs
          · have hlt := ih.pending_lt
            rw [List.mem_singleton.1 hs, List.length_append, List.length_singleton]
            omega

namespace Filled

variable {size : ℕ} {a : PutArea α} {cs : List α}

theorem length_eq_mul_add (h : Filled size a cs) :
    cs.length = a.segments.length * size + a.pending.length := by
  have hsum : (a.segments.map List.length).sum = a.segments.length * size := by
    rw [List.map_congr_left h.length_eq, List.map_const', List.sum_replicate, smul_eq_mul]
  rw [← h.flatten_eq, List.length_append, List.length_flatten, hsum]

/-- **Nothing is left exactly when the size divides the length of the message.** -/
theorem pending_eq_nil_iff (h : Filled size a cs) : a.pending = [] ↔ size ∣ cs.length := by
  rw [h.length_eq_mul_add, Nat.dvd_add_right (Dvd.intro_left _ rfl)]
  constructor
  · intro hnil
    rw [hnil]
    exact Dvd.intro 0 (Nat.mul_zero size)
  · intro hdvd
    exact List.eq_nil_of_length_eq_zero (Nat.eq_zero_of_dvd_of_lt hdvd h.pending_lt)

end Filled

/-! ### Marks -/

/-- A kind of segments that carry two marks and data. -/
structure Parts (α β : Type) where
  part : Bool → Bool → List α → β
  start : β → Bool
  final : β → Bool
  data : β → List α
  start_part : ∀ s f cs, start (part s f cs) = s
  final_part : ∀ s f cs, final (part s f cs) = f
  data_part : ∀ s f cs, data (part s f cs) = cs

namespace Parts

variable (P : Parts α β)

/-- The parts of a message carry the mark `start` on exactly the first and the mark `final` on exactly
the last of them, and their data makes up the message. -/
def Framed (parts : List β) (message : List α) : Prop :=
  parts ≠ [] ∧
    (∀ (i : ℕ) (hi : i < parts.length),
      (P.start parts[i] = true ↔ i = 0) ∧ (P.final parts[i] = true ↔ i + 1 = parts.length)) ∧
    parts.flatMap P.data = message

/-- The parts for the segments that overflow: only the first may carry a mark. -/
def opened (first : Bool) (segments : List (List α)) : List β :=
  segments.mapIdx fun i s => P.part (first && i == 0) false s

theorem opened_concat (first : Bool) (segments : List (List α)) (s : List α) :
    P.opened first (segments ++ [s]) =
      P.opened first segments ++ [P.part (first && segments.isEmpty) false s] := by
  rw [opened, List.mapIdx_concat, opened]
  cases segments <;> rfl

theorem flatMap_opened (first : Bool) (segments : List (List α)) :
    (P.opened first segments).flatMap P.data = segments.flatten := by
  induction segments using List.reverseRecOn with
  | nil => rfl
  | append_singleton segments s ih =>
      rw [opened_concat, List.flatMap_append, ih, List.flatten_append, List.flatMap_singleton,
        List.flatten_singleton, P.data_part]

/-- **The parts of a message of which something was left for the flush are framed.** -/
theorem framed_of_flush (segments : List (List α)) (rest : List α) :
    P.Framed (P.opened true segments ++ [P.part segments.isEmpty true rest])
      (segments.flatten ++ rest) := by
  have hlen : (P.opened true segments).length = segments.length := by
    rw [opened, List.length_mapIdx]
  refine ⟨by simp, fun i hi => ?_, ?_⟩
  · rw [List.length_append, List.length_singleton, hlen] at hi
    rcases Nat.lt_or_ge i segments.length with hlt | hge
    · rw [List.getElem_append_left (by omega)]
      simp only [opened, List.getElem_mapIdx, P.start_part, P.final_part, List.length_append,
        List.length_mapIdx, List.length_singleton]
      exact ⟨by simp, by simp; omega⟩
    · obtain rfl : i = segments.length := by omega
      rw [List.getElem_append_right (by omega)]
      simp only [List.getElem_singleton, P.start_part, P.final_part, List.length_append, hlen,
        List.length_singleton, List.isEmpty_iff, List.length_eq_zero_iff, and_self]
  · rw [List.flatMap_append, flatMap_opened, List.flatMap_singleton, P.data_part]

/-- **The parts of a message of which nothing was left for the flush are not framed**, since none of
them is marked as the last. -/
theorem not_framed_opened (first : Bool) (segments : List (List α)) (message : List α) :
    ¬ P.Framed (P.opened first segments) message := by
  rintro ⟨hne, hmarks, -⟩
  have hpos : 0 < (P.opened first segments).length := List.length_pos_of_ne_nil hne
  have hlast := (hmarks _ (Nat.sub_lt hpos Nat.one_pos)).2.2 (Nat.sub_add_cancel hpos)
  simp only [opened, List.getElem_mapIdx, P.final_part] at hlast
  exact Bool.false_ne_true hlast

end Parts

end PutArea
