import IbrDtn.Data.Bundle
import IbrDtn.Library.OrderedSet
import Mathlib

/-!
# Bundle identifiers

This file models `ibrdtn/data/BundleID.cpp`, and the comparators of `PrimaryBlock.cpp` and
`EID.cpp`.  Bundles and their identifiers are kept in ordered containers, under two comparators
that treat fragments differently: one looks at the fragment flag of its left side, the other at
that of its right side.  Both are orders on identifiers that are `Apart`, and they agree there.

## Main definitions

* `BundleID` : source, timestamp, sequence number and the place of a fragment.
* `BundleID.lt`, `BundleID.eq`, `PrimaryBlock.lt` : the comparators.
* `BundleID.toString` : the text form, from which names of files are made.
* `BundleID.Apart` : identifiers that all comparators tell apart.

## Main results

* `BundleID.ranked_of_apart`, `PrimaryBlock.ranked_of_apart` : the comparators agree with the order
  of the ranks.
* `BundleID.ranked_of_comparable` : one comparator, on identifiers that it tells apart.
* `BundleID.Comparable.toString_ne` : the text forms of these differ as well.
-/

namespace IbrDtn

/-- `EID::operator<`: the texts are compared byte by byte. -/
def EID.lt (a b : EID) : Bool :=
  decide (a.getString.map UInt8.toNat < b.getString.map UInt8.toNat)

/-- `class BundleID`. -/
structure BundleID where
  source : EID
  timestamp : UInt64
  sequencenumber : UInt64
  fragment : Bool
  offset : UInt64
deriving DecidableEq, Repr

/-- `BundleID::BundleID(const Bundle&)`. -/
def PrimaryBlock.toBundleID (p : PrimaryBlock) : BundleID :=
  ⟨p.source, p.timestamp, p.sequencenumber, p.get PrimaryBlock.fragment, p.fragmentoffset⟩

namespace BundleID

/-! ### Comparators -/

/-- The comparison of source, timestamp and sequence number, and then by `last`. -/
def ltWith (a b : BundleID) (last : Bool) : Bool :=
  if a.source.lt b.source then true
  else if a.source ≠ b.source then false
  else if a.timestamp < b.timestamp then true
  else if a.timestamp ≠ b.timestamp then false
  else if a.sequencenumber < b.sequencenumber then true
  else if a.sequencenumber ≠ b.sequencenumber then false
  else last

/-- `BundleID::operator<`, which looks at the offsets only if the left side is a fragment. -/
def lt (a b : BundleID) : Bool := a.ltWith b (a.fragment && decide (a.offset < b.offset))

/-- `BundleID::operator==`, which looks at the offsets only if the left side is a fragment. -/
def eq (a b : BundleID) : Bool :=
  if b.timestamp ≠ a.timestamp then false
  else if b.sequencenumber ≠ a.sequencenumber then false
  else if b.source ≠ a.source then false
  else !a.fragment || b.offset == a.offset

/-- `BundleID::operator>`. -/
def gt (a b : BundleID) : Bool := !(a.lt b || a.eq b)

/-- `BundleID::toString`. -/
def toString (a : BundleID) : Bytes :=
  ascii ['['] ++ (Decimal.numeral a.timestamp.toNat ++ (ascii ['.'] ++
    (Decimal.numeral a.sequencenumber.toNat ++
      (optional a.fragment (ascii ['.'] ++ Decimal.numeral a.offset.toNat) ++
        (ascii [']', ' '] ++ a.source.getString)))))

end BundleID

/-- `PrimaryBlock::operator<`, which looks at the offsets only if the right side is a fragment. -/
def PrimaryBlock.lt (p q : PrimaryBlock) : Bool :=
  p.toBundleID.ltWith q.toBundleID
    (q.get PrimaryBlock.fragment && decide (p.fragmentoffset < q.fragmentoffset))

/-- `PrimaryBlock::toString`. -/
def PrimaryBlock.toString (p : PrimaryBlock) : Bytes :=
  p.toBundleID.toString ++ (ascii [' ', '-', '>', ' '] ++ p.destination.getString)

namespace BundleID

/-! ### Identifiers that are told apart -/

/-- Identifiers of different bundles, in the eyes of all comparators: the texts of the sources
differ, or the sources are the same and the timestamps, the sequence numbers, or the offsets of
two fragments differ. -/
def Apart (a b : BundleID) : Prop :=
  a.source.getString = b.source.getString →
    a.source = b.source ∧ (a.timestamp = b.timestamp → a.sequencenumber = b.sequencenumber →
      a.fragment = true ∧ b.fragment = true ∧ a.offset ≠ b.offset)

instance (a b : BundleID) : Decidable (Apart a b) := inferInstanceAs (Decidable (_ → _))

/-- The order in which identifiers are kept. -/
abbrev Rank := List ℕ ×ₗ ℕ ×ₗ ℕ ×ₗ ℕ

/-- The rank of an identifier. -/
def rank (a : BundleID) : Rank :=
  toLex (a.source.getString.map UInt8.toNat,
    toLex (a.timestamp.toNat, toLex (a.sequencenumber.toNat, a.offset.toNat)))

theorem Apart.symm {a b : BundleID} (h : Apart a b) : Apart b a := by
  intro hsource
  obtain ⟨hsource, hrest⟩ := h hsource.symm
  refine ⟨hsource.symm, fun htime hseq => ?_⟩
  obtain ⟨ha, hb, hne⟩ := hrest htime.symm hseq.symm
  exact ⟨hb, ha, hne.symm⟩

theorem Apart.ne {a b : BundleID} (h : Apart a b) : a ≠ b := by
  rintro rfl
  exact ((h rfl).2 rfl rfl).2.2 rfl

theorem getString_inj {a b : EID} :
    a.getString.map UInt8.toNat = b.getString.map UInt8.toNat ↔ a.getString = b.getString :=
  List.map_inj_right fun _ _ => UInt8.toNat_inj.1

theorem rank_lt_iff (a b : BundleID) : a.rank < b.rank ↔
    a.source.lt b.source = true ∨ a.source.getString = b.source.getString ∧
      (a.timestamp < b.timestamp ∨ a.timestamp = b.timestamp ∧
        (a.sequencenumber < b.sequencenumber ∨ a.sequencenumber = b.sequencenumber ∧
          a.offset < b.offset)) := by
  simp only [rank, Prod.Lex.toLex_lt_toLex, getString_inj, UInt64.toNat_inj, EID.lt,
    decide_eq_true_eq, UInt64.lt_iff_toNat_lt]

theorem rank_eq_iff (a b : BundleID) : a.rank = b.rank ↔
    a.source.getString = b.source.getString ∧ a.timestamp = b.timestamp ∧
      a.sequencenumber = b.sequencenumber ∧ a.offset = b.offset := by
  simp only [rank, EmbeddingLike.apply_eq_iff_eq, Prod.mk.injEq, getString_inj, UInt64.toNat_inj]

theorem Apart.rank_ne {a b : BundleID} (h : Apart a b) : a.rank ≠ b.rank := by
  rw [Ne, rank_eq_iff]
  rintro ⟨hsource, htime, hseq, hoffset⟩
  exact ((h hsource).2 htime hseq).2.2 hoffset

theorem eid_lt_irrefl {a b : EID} (h : a.getString = b.getString) : a.lt b = false := by
  rw [EID.lt, h]
  exact decide_eq_false (lt_irrefl _)

/-- Source, timestamp and sequence number, and then a place among what has the same. -/
def rankBy {γ : Type} (a : BundleID) (place : γ) : List ℕ ×ₗ ℕ ×ₗ ℕ ×ₗ γ :=
  toLex (a.source.getString.map UInt8.toNat,
    toLex (a.timestamp.toNat, toLex (a.sequencenumber.toNat, place)))

theorem rankBy_eq_iff {γ : Type} (a b : BundleID) (x y : γ) : a.rankBy x = b.rankBy y ↔
    a.source.getString = b.source.getString ∧ a.timestamp = b.timestamp ∧
      a.sequencenumber = b.sequencenumber ∧ x = y := by
  simp only [rankBy, EmbeddingLike.apply_eq_iff_eq, Prod.mk.injEq, getString_inj, UInt64.toNat_inj]

/-- **A comparison agrees with the order of the ranks**, if its last step decides by the places. -/
theorem ltWith_iff_rankBy {γ : Type} [LinearOrder γ] {a b : BundleID} {x y : γ}
    (hsource : a.source.getString = b.source.getString → a.source = b.source) {last : Bool}
    (hlast : a.source = b.source → a.timestamp = b.timestamp →
      a.sequencenumber = b.sequencenumber → (last = true ↔ x < y)) :
    a.ltWith b last = true ↔ a.rankBy x < b.rankBy y := by
  have hrank : a.rankBy x < b.rankBy y ↔
      a.source.lt b.source = true ∨ a.source.getString = b.source.getString ∧
        (a.timestamp < b.timestamp ∨ a.timestamp = b.timestamp ∧
          (a.sequencenumber < b.sequencenumber ∨ a.sequencenumber = b.sequencenumber ∧ x < y)) := by
    simp only [rankBy, Prod.Lex.toLex_lt_toLex, getString_inj, UInt64.toNat_inj, EID.lt,
      decide_eq_true_eq, UInt64.lt_iff_toNat_lt]
  rw [hrank, ltWith]
  by_cases hstring : a.source.getString = b.source.getString
  · have heq := hsource hstring
    rw [if_neg (by rw [eid_lt_irrefl hstring]; exact Bool.false_ne_true), if_neg (not_not.2 heq)]
    by_cases htime : a.timestamp = b.timestamp
    · by_cases hseq : a.sequencenumber = b.sequencenumber
      · simp [htime, hseq, hlast heq htime hseq, hstring, eid_lt_irrefl hstring]
      · simp [htime, hseq, hstring, eid_lt_irrefl hstring]
    · simp [htime, hstring, eid_lt_irrefl hstring]
  · have hne : a.source ≠ b.source := mt (congrArg EID.getString) hstring
    simp [hne, hstring]

/-- A comparison that decides by the offsets agrees with the order of the ranks. -/
theorem ltWith_iff_rank {a b : BundleID}
    (hsource : a.source.getString = b.source.getString → a.source = b.source) {last : Bool}
    (hlast : a.source = b.source → a.timestamp = b.timestamp →
      a.sequencenumber = b.sequencenumber → (last = true ↔ a.offset < b.offset)) :
    a.ltWith b last = true ↔ a.rank < b.rank :=
  ltWith_iff_rankBy hsource fun hsource htime hseq =>
    (hlast hsource htime hseq).trans UInt64.lt_iff_toNat_lt

/-- Identifiers that are apart are compared by their ranks, if offsets decide between fragments. -/
theorem Apart.ltWith_iff {a b : BundleID} (h : Apart a b) {last : Bool}
    (hlast : a.fragment = true → b.fragment = true → (last = true ↔ a.offset < b.offset)) :
    a.ltWith b last = true ↔ a.rank < b.rank :=
  ltWith_iff_rank (fun hstring => (h hstring).1) fun hsource htime hseq => by
    obtain ⟨ha, hb, -⟩ := (h (congrArg EID.getString hsource)).2 htime hseq
    exact hlast ha hb

/-- **`BundleID::operator<` agrees with the order of the ranks.** -/
theorem ranked_of_apart {a b : BundleID} (h : Apart a b) : OrderedSet.Ranked lt rank a b :=
  ⟨h.ltWith_iff fun ha _ => by simp [ha], h.symm.ltWith_iff fun hb _ => by simp [hb], h.rank_ne⟩

/-- One of the identifiers is less than the other for `BundleID::operator<`. -/
def Comparable (a b : BundleID) : Prop := a.lt b = true ∨ b.lt a = true

instance (a b : BundleID) : Decidable (Comparable a b) := inferInstanceAs (Decidable (_ ∨ _))

theorem Comparable.symm {a b : BundleID} (h : Comparable a b) : Comparable b a := Or.symm h

/-- What `BundleID::operator<` says, the ranks say as well. -/
theorem rank_lt_of_lt {a b : BundleID} (h : a.lt b = true) : a.rank < b.rank := by
  rw [rank_lt_iff]
  by_cases hsource : a.source.lt b.source = true
  · exact .inl hsource
  · simp only [lt, ltWith, hsource, ite_eq_left_iff] at h
    split_ifs at h with hne htime hne' hseq hne'' <;> simp_all

/-- **On comparable identifiers `BundleID::operator<` agrees with the order of the ranks.** -/
theorem ranked_of_comparable {a b : BundleID} (h : Comparable a b) :
    OrderedSet.Ranked lt rank a b := by
  have hlt {a b : BundleID} (h : Comparable a b) : a.lt b = true ↔ a.rank < b.rank := by
    refine ⟨rank_lt_of_lt, fun hrank => ?_⟩
    rcases h with h | h
    · exact h
    · exact absurd (rank_lt_of_lt h) (lt_asymm hrank)
  refine ⟨hlt h, hlt h.symm, ?_⟩
  rcases h with h | h
  · exact (rank_lt_of_lt h).ne
  · exact (rank_lt_of_lt h).ne'

/-- Of two identifiers that are apart, one is less than the other. -/
theorem comparable_of_apart {a b : BundleID} (h : Apart a b) : Comparable a b :=
  (ranked_of_apart h).lt_or_gt.imp id And.right

theorem eq_iff (a b : BundleID) : a.eq b = true ↔ b.timestamp = a.timestamp ∧
    b.sequencenumber = a.sequencenumber ∧ b.source = a.source ∧
      (a.fragment = true → b.offset = a.offset) := by
  rw [eq]
  cases a.fragment <;> split_ifs <;> simp_all

theorem eq_refl (a : BundleID) : a.eq a = true := (eq_iff a a).2 ⟨rfl, rfl, rfl, fun _ => rfl⟩

theorem lt_self (a : BundleID) : a.lt a = false := by
  simp [lt, ltWith, eid_lt_irrefl]

/-- What it means to be less, whatever decides at last. -/
theorem ltWith_iff (a b : BundleID) (last : Bool) : a.ltWith b last = true ↔
    a.source.lt b.source = true ∨ a.source = b.source ∧
      (a.timestamp < b.timestamp ∨ a.timestamp = b.timestamp ∧
        (a.sequencenumber < b.sequencenumber ∨ a.sequencenumber = b.sequencenumber ∧
          last = true)) := by
  rw [ltWith]
  by_cases hsource : a.source.lt b.source = true
  · simp [hsource]
  · by_cases heq : a.source = b.source
    · by_cases htime : a.timestamp = b.timestamp
      · by_cases hseq : a.sequencenumber = b.sequencenumber
        · simp [heq, htime, hseq, eid_lt_irrefl]
        · simp [heq, htime, hseq, eid_lt_irrefl]
      · simp [heq, htime, eid_lt_irrefl]
    · simp [hsource, heq]

/-- A comparison is transitive if what decides at last is. -/
theorem ltWith_trans {a b c : BundleID} {x y z : Bool} (hlast : x = true → y = true → z = true)
    (hab : a.ltWith b x = true) (hbc : b.ltWith c y = true) : a.ltWith c z = true := by
  have heid {a b c : EID} (hab : a.lt b = true) (hbc : b.lt c = true) : a.lt c = true :=
    decide_eq_true (List.lt_trans (of_decide_eq_true hab) (of_decide_eq_true hbc))
  rw [ltWith_iff] at hab hbc ⊢
  rcases hab with hab | ⟨hab, hab'⟩
  · rcases hbc with hbc | ⟨hbc, -⟩
    · exact .inl (heid hab hbc)
    · exact .inl (hbc ▸ hab)
  · rcases hbc with hbc | ⟨hbc, hbc'⟩
    · exact .inl (hab ▸ hbc)
    · refine .inr ⟨hab.trans hbc, ?_⟩
      rcases hab' with hab | ⟨hab, hab'⟩
      · rcases hbc' with hbc | ⟨hbc, -⟩
        · exact .inl (UInt64.lt_trans hab hbc)
        · exact .inl (hbc ▸ hab)
      · rcases hbc' with hbc | ⟨hbc, hbc'⟩
        · exact .inl (hab ▸ hbc)
        · refine .inr ⟨hab.trans hbc, ?_⟩
          rcases hab' with hab | ⟨hab, hx⟩
          · rcases hbc' with hbc | ⟨hbc, -⟩
            · exact .inl (UInt64.lt_trans hab hbc)
            · exact .inl (hbc ▸ hab)
          · rcases hbc' with hbc | ⟨hbc, hy⟩
            · exact .inl (hab ▸ hbc)
            · exact .inr ⟨hab.trans hbc, hlast hx hy⟩

/-- What it means to be less for `BundleID::operator<`. -/
theorem lt_iff (a b : BundleID) : a.lt b = true ↔
    a.source.lt b.source = true ∨ a.source = b.source ∧
      (a.timestamp < b.timestamp ∨ a.timestamp = b.timestamp ∧
        (a.sequencenumber < b.sequencenumber ∨ a.sequencenumber = b.sequencenumber ∧
          a.fragment = true ∧ a.offset < b.offset)) := by
  rw [lt, ltWith_iff, Bool.and_eq_true, decide_eq_true_eq]

/-- **`BundleID::operator<` is transitive.** -/
theorem lt_trans {a b c : BundleID} (hab : a.lt b = true) (hbc : b.lt c = true) :
    a.lt c = true :=
  ltWith_trans (fun hx hy => by
    rw [Bool.and_eq_true, decide_eq_true_eq] at hx hy ⊢
    exact ⟨hx.1, UInt64.lt_trans hx.2 hy.2⟩) hab hbc

theorem equivalent_self (a : BundleID) : OrderedSet.Equivalent lt rank a a :=
  ⟨a.lt_self, a.lt_self, rfl⟩

/-- Identifiers that are apart are not equal for `BundleID::operator==`. -/
theorem Apart.eq_false {a b : BundleID} (h : Apart a b) : a.eq b = false := by
  rw [Bool.eq_false_iff, Ne, eq_iff]
  rintro ⟨htime, hseq, hsource, hoffset⟩
  obtain ⟨ha, -, hne⟩ := (h (congrArg EID.getString hsource).symm).2 htime.symm hseq.symm
  exact hne (hoffset ha).symm

/-- The text form byte by byte. -/
theorem toString_eq (a : BundleID) :
    a.toString = 0x5b :: (Decimal.numeral a.timestamp.toNat ++
      0x2e :: (Decimal.numeral a.sequencenumber.toNat ++
        if a.fragment = true then
          0x2e :: (Decimal.numeral a.offset.toNat ++ 0x5d :: 0x20 :: a.source.getString)
        else 0x5d :: 0x20 :: a.source.getString)) := by
  cases ha : a.fragment <;> simp [toString, ascii, optional, ha]

/-- The text form shows everything but the offset of a bundle that is no fragment. -/
theorem toString_inj {a b : BundleID} (h : a.toString = b.toString) :
    a.timestamp = b.timestamp ∧ a.sequencenumber = b.sequencenumber ∧
      a.fragment = b.fragment ∧ (a.fragment = true → a.offset = b.offset) ∧
      a.source.getString = b.source.getString := by
  rw [toString_eq, toString_eq] at h
  obtain ⟨htime, -, h⟩ :=
    Decimal.numeral_append_inj (by decide) (by decide) (List.cons.inj h).2
  rw [UInt64.toNat_inj] at htime
  cases ha : a.fragment <;> cases hb : b.fragment <;>
    simp only [ha, hb, Bool.false_eq_true, if_true, if_false] at h <;>
    obtain ⟨hseq, hsep, h⟩ := Decimal.numeral_append_inj (by decide) (by decide) h
  · exact ⟨htime, UInt64.toNat_inj.1 hseq, rfl, by simp, (List.cons.inj h).2⟩
  · exact absurd hsep (by decide)
  · exact absurd hsep (by decide)
  · obtain ⟨hoffset, -, h⟩ := Decimal.numeral_append_inj (by decide) (by decide) h
    exact ⟨htime, UInt64.toNat_inj.1 hseq, rfl, fun _ => UInt64.toNat_inj.1 hoffset,
      (List.cons.inj h).2⟩

/-- **The text forms of comparable identifiers differ.** -/
theorem Comparable.toString_ne {a b : BundleID} (h : Comparable a b) :
    a.toString ≠ b.toString := by
  have hnot {a b : BundleID} (htext : a.toString = b.toString) : a.lt b = false := by
    obtain ⟨htime, hseq, -, hoffset, hsource⟩ := toString_inj htext
    by_cases heid : a.source = b.source
    · have hle : a.fragment = true → b.offset ≤ a.offset := by
        intro ha
        rw [hoffset ha]
        exact UInt64.le_refl _
      simpa [lt, ltWith, htime, hseq, heid] using And.intro (eid_lt_irrefl rfl) hle
    · simp [lt, ltWith, eid_lt_irrefl hsource, heid]
  intro htext
  rcases h with h | h
  · rw [hnot htext] at h
    exact Bool.false_ne_true h
  · rw [hnot htext.symm] at h
    exact Bool.false_ne_true h

end BundleID

/-- **`PrimaryBlock::operator<` is transitive.** -/
theorem PrimaryBlock.lt_trans {p q r : PrimaryBlock} (hpq : p.lt q = true) (hqr : q.lt r = true) :
    p.lt r = true :=
  BundleID.ltWith_trans (fun hx hy => by
    rw [Bool.and_eq_true, decide_eq_true_eq] at hx hy ⊢
    exact ⟨hy.1, UInt64.lt_trans hx.2 hy.2⟩) hpq hqr

/-- **`PrimaryBlock::operator<` agrees with the order of the ranks**, too. -/
theorem PrimaryBlock.ranked_of_apart {p q : PrimaryBlock}
    (h : p.toBundleID.Apart q.toBundleID) :
    OrderedSet.Ranked PrimaryBlock.lt (fun p => p.toBundleID.rank) p q := by
  refine ⟨h.ltWith_iff fun _ hq => ?_, h.symm.ltWith_iff fun _ hp => ?_, h.rank_ne⟩
  · simp only [PrimaryBlock.toBundleID] at hq ⊢
    simp [hq]
  · simp only [PrimaryBlock.toBundleID] at hp ⊢
    simp [hp]

end IbrDtn
