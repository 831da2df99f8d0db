import IbrDtn.Data.BundleID
import IbrDtn.Library.KeyOrder
import Mathlib

/-!
# The orders of bundles and of bundle identifiers

Bundles, meta data and bundle identifiers are keys of sets and maps.  `BundleID` and `PrimaryBlock`
have an order and an equality of their own, which look at the fragment flag of one side, of the
other side, or of both.  This file says on which sets of keys they can be relied on, and on which
sets of bundles those of the identifiers agree with those of the bundles.

## Main definitions

* `PrimaryBlock.eq` : `PrimaryBlock::operator==`.
* `KeyOrders` : the orders can be relied on, and agree.
* `BundleID.Settled`, `PrimaryBlock.Settled` : two keys on which they do.

## Main results

* `BundleID.keyOrder_iff` : the sets of identifiers on which the order can be relied on.
* `keyOrders_iff` : the sets of bundles and identifiers on which all is as it should be.
-/

namespace IbrDtn

/-- `PrimaryBlock::operator==`, which is that of bundles as well. -/
def PrimaryBlock.eq (p q : PrimaryBlock) : Bool :=
  if q.timestamp ≠ p.timestamp then false
  else if q.sequencenumber ≠ p.sequencenumber then false
  else if q.source ≠ p.source then false
  else if q.get PrimaryBlock.fragment then
    if !p.get PrimaryBlock.fragment then false
    else if q.fragmentoffset ≠ p.fragmentoffset then false
    else if q.appdatalength ≠ p.appdatalength then false
    else true
  else if p.get PrimaryBlock.fragment then false
  else true

/-- **The orders that sets and maps use can be relied on**, for the given bundles and the given
identifiers, and those of the identifiers of the bundles agree with those of the bundles. -/
structure KeyOrders (bundles : Set PrimaryBlock) (ids : Set BundleID) : Prop where
  bundleID : KeyOrder BundleID.lt BundleID.eq ids
  primaryBlock : KeyOrder PrimaryBlock.lt PrimaryBlock.eq bundles
  agree : ∀ p ∈ bundles, ∀ q ∈ bundles, p.toBundleID.lt q.toBundleID = p.lt q ∧
    p.toBundleID.eq q.toBundleID = p.eq q

/-! ### The keys on which the orders can be relied on -/

/-- Sources with the same text are the same; and a fragment of the same bundle as something that is
none has the same offset. -/
def BundleID.Settled (a b : BundleID) : Prop :=
  a.source.getString = b.source.getString → a.source = b.source ∧
    (a.timestamp = b.timestamp → a.sequencenumber = b.sequencenumber →
      a.fragment ≠ b.fragment → a.offset = b.offset)

/-- Sources with the same text are the same; and a bundle has no fragments beside it, and of two
fragments with the same offset both announce the same length. -/
def PrimaryBlock.Settled (p q : PrimaryBlock) : Prop :=
  p.source.getString = q.source.getString → p.source = q.source ∧
    (p.timestamp = q.timestamp → p.sequencenumber = q.sequencenumber →
      p.get PrimaryBlock.fragment = q.get PrimaryBlock.fragment ∧
        (p.get PrimaryBlock.fragment = true → p.fragmentoffset = q.fragmentoffset →
          p.appdatalength = q.appdatalength))

/-- A fragment announces its length, and where it belongs; a bundle that is no fragment has neither.
-/
theorem PrimaryBlock.eq_iff (p q : PrimaryBlock) : p.eq q = true ↔
    q.timestamp = p.timestamp ∧ q.sequencenumber = p.sequencenumber ∧ q.source = p.source ∧
      p.get PrimaryBlock.fragment = q.get PrimaryBlock.fragment ∧
        (p.get PrimaryBlock.fragment = true → p.fragmentoffset = q.fragmentoffset ∧
          p.appdatalength = q.appdatalength) := by
  rw [PrimaryBlock.eq]
  cases p.get PrimaryBlock.fragment <;> cases q.get PrimaryBlock.fragment <;>
    split_ifs <;> simp_all [eq_comm]

/-! ### Identifiers -/

namespace BundleID

variable {ids : Set BundleID}

variable {a b : BundleID}

/-- Different sources with the same text are not compared further. -/
theorem ltWith_of_source_ne (hstring : a.source.getString = b.source.getString)
    (hne : a.source ≠ b.source) (last : Bool) : a.ltWith b last = false := by
  rw [ltWith, eid_lt_irrefl hstring, if_neg Bool.false_ne_true, if_pos hne]

/-- The last step of a comparison counts for the same source, timestamp and sequence number only. -/
theorem ltWith_congr {x y : Bool} (h : a.source = b.source → a.timestamp = b.timestamp →
    a.sequencenumber = b.sequencenumber → x = y) : a.ltWith b x = a.ltWith b y := by
  rw [ltWith, ltWith]
  split_ifs with _ hsource _ htime _ hseq
  · rfl
  · rfl
  · rfl
  · rfl
  · rfl
  · rfl
  · exact h (not_not.1 hsource) (not_not.1 htime) (not_not.1 hseq)

theorem ltWith_of_same (hsource : a.source = b.source) (htime : a.timestamp = b.timestamp)
    (hseq : a.sequencenumber = b.sequencenumber) (last : Bool) : a.ltWith b last = last := by
  simp [ltWith, htime, hseq, hsource, eid_lt_irrefl]

/-- **The identifiers on which the order can be relied on** are settled pairwise. -/
theorem settled_of_keyOrder (h : KeyOrder lt eq ids) : ∀ a ∈ ids, ∀ b ∈ ids, a.Settled b := by
  intro a ha b hb hstring
  have hsource : a.source = b.source := by
    by_contra hne
    have heq := (h.eq_iff a ha b hb).2 ⟨ltWith_of_source_ne hstring hne _,
      ltWith_of_source_ne hstring.symm (Ne.symm hne) _⟩
    exact hne ((eq_iff a b).1 heq).2.2.1.symm
  refine ⟨hsource, fun htime hseq hflag => ?_⟩
  -- The identifier of the bundle that is no fragment is equal to the other one, and so the other
  -- way round, where the offsets are compared.
  cases hfragment : a.fragment with
  | false =>
      have hb' : b.fragment = true := by simpa [hfragment] using hflag.symm
      have heq : a.eq b = true := (eq_iff a b).2
        ⟨htime.symm, hseq.symm, hsource.symm, fun h => by simp [hfragment] at h⟩
      exact ((eq_iff b a).1 (h.eq_symm a ha b hb heq)).2.2.2 hb'
  | true =>
      have hb' : b.fragment = false := by simpa [hfragment] using hflag.symm
      have heq : b.eq a = true := (eq_iff b a).2
        ⟨htime, hseq, hsource, fun h => by simp [hb'] at h⟩
      exact (((eq_iff a b).1 (h.eq_symm b hb a ha heq)).2.2.2 hfragment).symm

/-- The identifiers of the set that have the source, timestamp and sequence number of another one
include a fragment. -/
def Splits (ids : Set BundleID) (a : BundleID) : Prop :=
  ∃ b ∈ ids, b.fragment = true ∧ b.source = a.source ∧ b.timestamp = a.timestamp ∧
    b.sequencenumber = a.sequencenumber

/-- **Identifiers that are settled pairwise have ranks**: offsets decide where there is a fragment.
-/
theorem keyOrder_of_settled (h : ∀ a ∈ ids, ∀ b ∈ ids, a.Settled b) : KeyOrder lt eq ids := by
  classical
  let place (a : BundleID) : ℕ := if Splits ids a then a.offset.toNat else 0
  have hsplits {a b : BundleID} (hsource : a.source = b.source) (htime : a.timestamp = b.timestamp)
      (hseq : a.sequencenumber = b.sequencenumber) : Splits ids a ↔ Splits ids b := by
    rw [Splits, Splits, hsource, htime, hseq]
  -- Offsets may be compared although the left side is no fragment: then they are the same.
  have hlast : ∀ a ∈ ids, ∀ b ∈ ids, a.source = b.source → a.timestamp = b.timestamp →
      a.sequencenumber = b.sequencenumber →
        ((a.fragment = true ∧ a.offset < b.offset ↔ place a < place b) ∧
          ((a.fragment = true → b.offset = a.offset) ↔ place a = place b)) := by
    intro a ha b hb hsource htime hseq
    by_cases hsplit : Splits ids a
    · have hplaces : place a = a.offset.toNat ∧ place b = b.offset.toNat :=
        ⟨if_pos hsplit, if_pos ((hsplits hsource htime hseq).1 hsplit)⟩
      rw [hplaces.1, hplaces.2, UInt64.toNat_inj, ← UInt64.lt_iff_toNat_lt]
      cases hfragment : a.fragment with
      | true => simp [eq_comm]
      | false =>
          obtain ⟨x, hx, hxfragment, hxsource, hxtime, hxseq⟩ := hsplit
          have hxa := ((h x hx a ha (congrArg EID.getString hxsource)).2 hxtime hxseq) (by
            rw [hxfragment, hfragment]
            exact Bool.noConfusion)
          have hab : a.offset = b.offset := by
            cases hb' : b.fragment with
            | true =>
                refine (h a ha b hb (congrArg EID.getString hsource)).2 htime hseq ?_
                rw [hfragment, hb']
                exact Bool.noConfusion
            | false =>
                refine hxa.symm.trans ((h x hx b hb
                  (congrArg EID.getString (hxsource.trans hsource))).2 (hxtime.trans htime)
                  (hxseq.trans hseq) ?_)
                rw [hxfragment, hb']
                exact Bool.noConfusion
          simp [hab]
    · have hplaces : place a = 0 ∧ place b = 0 :=
        ⟨if_neg hsplit, if_neg fun hb => hsplit ((hsplits hsource htime hseq).2 hb)⟩
      have hfragment : a.fragment = false := Bool.eq_false_iff.2 fun hfragment =>
        hsplit ⟨a, ha, hfragment, rfl, rfl, rfl⟩
      simp [hplaces.1, hplaces.2, hfragment]
  refine KeyOrder.of_rank (fun a => a.rankBy (place a)) (fun a ha b hb => ?_)
    fun a ha b hb => ?_
  · refine ltWith_iff_rankBy (fun hstring => (h a ha b hb hstring).1) fun hsource htime hseq => ?_
    rw [Bool.and_eq_true, decide_eq_true_iff]
    exact (hlast a ha b hb hsource htime hseq).1
  · rw [eq_iff, rankBy_eq_iff]
    constructor
    · rintro ⟨htime, hseq, hsource, hoffset⟩
      exact ⟨congrArg EID.getString hsource.symm, htime.symm, hseq.symm,
        (hlast a ha b hb hsource.symm htime.symm hseq.symm).2.1 hoffset⟩
    · rintro ⟨hstring, htime, hseq, hplace⟩
      have hsource := (h a ha b hb hstring).1
      exact ⟨htime.symm, hseq.symm, hsource.symm,
        (hlast a ha b hb hsource htime hseq).2.2 hplace⟩

end BundleID

/-! ### Bundles -/

variable {bundles : Set PrimaryBlock} {ids : Set BundleID}

/-- **The order of bundles that are settled pairwise can be relied on.** -/
theorem PrimaryBlock.keyOrder_of_settled (h : ∀ p ∈ bundles, ∀ q ∈ bundles, p.Settled q) :
    KeyOrder PrimaryBlock.lt PrimaryBlock.eq bundles := by
  let place (p : PrimaryBlock) : ℕ :=
    if p.get PrimaryBlock.fragment = true then p.fragmentoffset.toNat else 0
  refine KeyOrder.of_rank (fun p => p.toBundleID.rankBy (place p))
    (fun p hp q hq => ?_) fun p hp q hq => ?_
  · refine BundleID.ltWith_iff_rankBy (fun hstring => (h p hp q hq hstring).1)
      fun hsource htime hseq => ?_
    have hflags := ((h p hp q hq (congrArg EID.getString hsource)).2 htime hseq).1
    simp only [place, hflags]
    cases q.get PrimaryBlock.fragment <;> simp [UInt64.lt_iff_toNat_lt]
  · rw [PrimaryBlock.eq_iff, BundleID.rankBy_eq_iff]
    constructor
    · rintro ⟨htime, hseq, hsource, hflags, hrest⟩
      refine ⟨congrArg EID.getString hsource.symm, htime.symm, hseq.symm, ?_⟩
      simp only [place, ← hflags]
      split_ifs with hfragment
      · exact congrArg UInt64.toNat (hrest hfragment).1
      · rfl
    · rintro ⟨hstring, htime, hseq, hplace⟩
      obtain ⟨hsource, hrest⟩ := h p hp q hq hstring
      obtain ⟨hflags, hlength⟩ := hrest htime hseq
      refine ⟨htime.symm, hseq.symm, hsource.symm, hflags, fun hfragment => ?_⟩
      simp only [place, ← hflags, hfragment, if_true] at hplace
      have hoffset := UInt64.toNat_inj.1 hplace
      exact ⟨hoffset, hlength hfragment hoffset⟩

/-- The bundles whose order can be relied on, and whose identifiers are ordered alike. -/
theorem PrimaryBlock.settled_of_keyOrders (h : KeyOrders bundles ids) :
    ∀ p ∈ bundles, ∀ q ∈ bundles, p.Settled q := by
  intro p hp q hq hstring
  have hsource : p.source = q.source := by
    by_contra hne
    have heq := (h.primaryBlock.eq_iff p hp q hq).2 ⟨BundleID.ltWith_of_source_ne hstring hne _,
      BundleID.ltWith_of_source_ne hstring.symm (Ne.symm hne) _⟩
    exact hne ((PrimaryBlock.eq_iff p q).1 heq).2.2.1.symm
  refine ⟨hsource, fun htime hseq => ?_⟩
  have hoffset (hflags : p.get PrimaryBlock.fragment = true → p.fragmentoffset = q.fragmentoffset) :
      p.eq q = true := by
    rw [← (h.agree p hp q hq).2]
    exact (BundleID.eq_iff _ _).2 ⟨htime.symm, hseq.symm, hsource.symm, fun hp => (hflags hp).symm⟩
  have hlt := (h.agree p hp q hq).1
  have hgt := (h.agree q hq p hp).1
  rw [BundleID.lt, PrimaryBlock.lt, BundleID.ltWith_of_same hsource htime hseq,
    BundleID.ltWith_of_same hsource htime hseq] at hlt
  rw [BundleID.lt, PrimaryBlock.lt, BundleID.ltWith_of_same hsource.symm htime.symm hseq.symm,
    BundleID.ltWith_of_same hsource.symm htime.symm hseq.symm] at hgt
  -- Of a fragment and a bundle that is none, neither order looks at the offsets on the other side.
  have hflags : p.get PrimaryBlock.fragment = q.get PrimaryBlock.fragment := by
    by_contra hne
    simp only [PrimaryBlock.toBundleID] at hlt hgt
    have hless : ¬ p.fragmentoffset < q.fragmentoffset := fun hless =>
      hne (by simpa [hless] using hlt)
    have hgreater : ¬ q.fragmentoffset < p.fragmentoffset := fun hgreater =>
      hne (by simpa [hgreater] using hgt.symm)
    have heq : p.fragmentoffset = q.fragmentoffset :=
      UInt64.le_antisymm (UInt64.not_lt.1 hgreater) (UInt64.not_lt.1 hless)
    exact hne ((PrimaryBlock.eq_iff p q).1 (hoffset fun _ => heq)).2.2.2.1
  refine ⟨hflags, fun hfragment heq => ?_⟩
  exact (((PrimaryBlock.eq_iff p q).1 (hoffset fun _ => heq)).2.2.2.2 hfragment).2

/-- **The orders can be relied on, and agree, exactly for bundles and identifiers that are settled
pairwise.** -/
theorem keyOrders_iff : KeyOrders bundles ids ↔
    (∀ p ∈ bundles, ∀ q ∈ bundles, p.Settled q) ∧ ∀ a ∈ ids, ∀ b ∈ ids, a.Settled b := by
  refine ⟨fun h => ⟨PrimaryBlock.settled_of_keyOrders h, BundleID.settled_of_keyOrder h.bundleID⟩,
    fun ⟨hbundles, hids⟩ => ⟨BundleID.keyOrder_of_settled hids,
      PrimaryBlock.keyOrder_of_settled hbundles, fun p hp q hq => ⟨?_, ?_⟩⟩⟩
  · refine BundleID.ltWith_congr fun hsource htime hseq => ?_
    have hflags : p.get PrimaryBlock.fragment = q.get PrimaryBlock.fragment :=
      ((hbundles p hp q hq (congrArg EID.getString hsource)).2 htime hseq).1
    exact congrArg (· && decide (p.fragmentoffset < q.fragmentoffset)) hflags
  · rw [Bool.eq_iff_iff, BundleID.eq_iff, PrimaryBlock.eq_iff]
    refine and_congr_right fun htime => and_congr_right fun hseq => and_congr_right fun hsource => ?_
    obtain ⟨hflags, hlength⟩ :=
      (hbundles p hp q hq (congrArg EID.getString hsource.symm)).2 htime.symm hseq.symm
    constructor
    · intro hoffset
      refine ⟨hflags, fun hfragment => ?_⟩
      have heq := (hoffset hfragment).symm
      exact ⟨heq, hlength hfragment heq⟩
    · rintro ⟨-, hrest⟩ hfragment
      exact (hrest hfragment).1.symm

namespace KeyOrders

/-- A bundle of three bytes. -/
def sampleWhole : PrimaryBlock := PrimaryBlock.create 7 1

/-- Its last two bytes. -/
def samplePart : PrimaryBlock :=
  { sampleWhole with procflags := PrimaryBlock.fragment, fragmentoffset := 1, appdatalength := 3 }

/-- **The orders cannot be relied on for all values**: a bundle is equal to its fragment, but the
fragment is not equal to the bundle. -/
theorem not_keyOrders : ¬ KeyOrders Set.univ Set.univ := by
  intro h
  have hsymm := h.bundleID.eq_symm sampleWhole.toBundleID trivial samplePart.toBundleID trivial
  exact absurd (hsymm (by decide)) (by decide)

end KeyOrders

end IbrDtn
