import IbrDtn.Data.BundleID
import IbrDtn.Library.KeyOrder

/-!
# The text form of endpoint identifiers

The text of an EID joins its scheme and its scheme specific part by a colon.  Custody signals,
status reports, databases and beacons keep the text, and `EID::operator<` of `ibrdtn/data/EID.cpp`
compares it.  An EID that was made from a text, or from two numbers, is read back from its text.

`EID(scheme, ssp)`, by which `Dictionary::get` makes the EIDs of a received bundle, checks neither
part: its comment leaves the illegal characters to be done.  A colon in the scheme moves the joint;
and a part of nothing but blanks, which `Utils::trim` leaves alone, is lost at the end of the text.

## Main definitions

* `EID.Readable` : the EID is read back from its text.
* `EID.Joins` : the condition on a scheme and a scheme specific part.

## Main results

* `EID.readable_iff` : which EIDs are read back.
* `EID.names_iff` : the EIDs of the three constructors, and their order.
-/

namespace IbrDtn

namespace Utils

/-- The string consists of blanks, and is not empty. -/
def OnlyBlanks (str : Bytes) : Prop := str ≠ [] ∧ str.all isBlank = true

instance : DecidablePred OnlyBlanks := fun _ => inferInstanceAs (Decidable (_ ∧ _))

theorem trim_of_all {str : Bytes} (h : str.all isBlank = true) : trim str = str := by
  rw [trim, ltrim, if_pos h, rtrim, if_pos h]

/-- What is no blank stays. -/
theorem mem_trim {str : Bytes} {b : UInt8} (hb : b ∈ str) (hblank : isBlank b = false) :
    b ∈ trim str := by
  cases h : str.all isBlank with
  | true => rwa [trim_of_all h]
  | false =>
      have hwhole := List.takeWhile_append_dropWhile (p := isBlank) (l := str)
      have hnot {p : Bytes} (hp : ∀ c ∈ p, isBlank c = true) : b ∉ p := fun hmem =>
        Bool.false_ne_true (hblank.symm.trans (hp b hmem))
      rw [trim_of_not_all h]
      rw [← hwhole] at hb
      have hdrop := (List.mem_append.1 hb).resolve_left
        (hnot fun c hc => List.mem_takeWhile_imp hc)
      rw [← List.rdropWhile_append_rtakeWhile (p := isBlank) (l := str.dropWhile isBlank)] at hdrop
      exact (List.mem_append.1 hdrop).resolve_right
        (hnot fun c hc => List.mem_rtakeWhile_imp hc)

/-- **A string that is trimmed already** neither starts nor ends with a blank, unless it has nothing
but blanks. -/
theorem ends_of_trim_eq {str : Bytes} (hall : str.all isBlank = false) (h : trim str = str) :
    (∀ b, str.head? = some b → isBlank b = false) ∧
      ∀ b, str.getLast? = some b → isBlank b = false := by
  rw [trim_of_not_all hall] at h
  have hprefix := List.rdropWhile_prefix isBlank (l := str.dropWhile isBlank)
  have hsub := List.dropWhile_sublist isBlank (l := str)
  have hdrop : str.dropWhile isBlank = str := by
    refine hsub.eq_of_length_le ?_
    calc str.length
      _ = ((str.dropWhile isBlank).rdropWhile isBlank).length := congrArg List.length h.symm
      _ ≤ (str.dropWhile isBlank).length := hprefix.length_le
  rw [hdrop] at h
  refine ⟨fun b hb => ?_, fun b hb => ?_⟩
  · have hnot := List.head?_dropWhile_not isBlank str
    rw [hdrop, hb] at hnot
    exact hnot
  · have hne : str ≠ [] := by
      rintro rfl
      cases hb
    have hlast := List.rdropWhile_eq_self_iff.1 h hne
    obtain rfl := Option.some.inj ((List.getLast?_eq_some_getLast hne).symm.trans hb)
    exact Bool.eq_false_iff.2 hlast

/-- A trimmed string starts with a blank only if it consists of blanks. -/
theorem head_trim_iff (str : Bytes) :
    (∀ b, (trim str).head? = some b → isBlank b = false) ↔ ¬ OnlyBlanks str := by
  cases hall : str.all isBlank with
  | true =>
      rw [trim_of_all hall]
      cases str with
      | nil => exact iff_of_true nofun fun h => h.1 rfl
      | cons b str =>
          have hb : isBlank b = true := (Bool.and_eq_true _ _ ▸ hall).1
          refine iff_of_false (fun h => ?_) (not_not.2 ⟨List.cons_ne_nil _ _, hall⟩)
          exact Bool.false_ne_true ((h b rfl).symm.trans hb)
  | false =>
      refine iff_of_true ?_ fun h => Bool.false_ne_true (hall.symm.trans h.2)
      by_cases hblank : (trim str).all isBlank = true
      · rw [List.all_eq_false] at hall
        obtain ⟨b, hb, hnot⟩ := hall
        have hmem := mem_trim hb (Bool.eq_false_iff.2 hnot)
        exact absurd (List.all_eq_true.1 hblank b hmem) hnot
      · exact (ends_of_trim_eq (Bool.eq_false_iff.2 hblank) (trim_trim str)).1

theorem last_trim_iff (str : Bytes) :
    (∀ b, (trim str).getLast? = some b → isBlank b = false) ↔ ¬ OnlyBlanks str := by
  cases hall : str.all isBlank with
  | true =>
      rw [trim_of_all hall]
      by_cases hne : str = []
      · subst hne
        exact iff_of_true nofun fun h => h.1 rfl
      · refine iff_of_false (fun h => ?_) (not_not.2 ⟨hne, hall⟩)
        have hlast := List.all_eq_true.1 hall _ (List.getLast_mem hne)
        exact Bool.false_ne_true ((h _ (List.getLast?_eq_some_getLast hne)).symm.trans hlast)
  | false =>
      refine iff_of_true ?_ fun h => Bool.false_ne_true (hall.symm.trans h.2)
      by_cases hblank : (trim str).all isBlank = true
      · rw [List.all_eq_false] at hall
        obtain ⟨b, hb, hnot⟩ := hall
        have hmem := mem_trim hb (Bool.eq_false_iff.2 hnot)
        exact absurd (List.all_eq_true.1 hblank b hmem) hnot
      · exact (ends_of_trim_eq (Bool.eq_false_iff.2 hblank) (trim_trim str)).2

end Utils

namespace EID

/-- The EID is read back from its text. -/
def Readable (e : EID) : Prop := ofString e.getString = e

instance : DecidablePred Readable := fun _ => inferInstanceAs (Decidable (_ = _))

/-- The scheme has no colon, and no part consists of blanks. -/
def Joins (scheme ssp : Bytes) : Prop :=
  (0x3a : UInt8) ∉ scheme ∧ ¬ Utils.OnlyBlanks scheme ∧ ¬ Utils.OnlyBlanks ssp

instance (scheme ssp : Bytes) : Decidable (Joins scheme ssp) :=
  inferInstanceAs (Decidable (_ ∧ _ ∧ _))

theorem all_isBlank_getString (e : EID) : e.getString.all Utils.isBlank = false := by
  rw [getString, List.all_append, List.all_cons]
  exact Bool.and_false _

theorem notMem_scheme_ofString (value : Bytes) : (0x3a : UInt8) ∉ (ofString value).scheme := by
  rw [ofString]
  split
  · decide
  · exact fun h => absurd (List.mem_takeWhile_imp h) (by decide)

/-- **Which EIDs are read back from their texts**: the scheme has no colon and does not start with a
blank, and the scheme specific part does not end with one. -/
theorem readable_iff (e : EID) : e.Readable ↔ (0x3a : UInt8) ∉ e.scheme ∧
    (∀ b, e.scheme.head? = some b → Utils.isBlank b = false) ∧
      ∀ b, e.ssp.getLast? = some b → Utils.isBlank b = false := by
  have hends : ((∀ b, e.getString.head? = some b → Utils.isBlank b = false) ∧
      ∀ b, e.getString.getLast? = some b → Utils.isBlank b = false) ↔
      (∀ b, e.scheme.head? = some b → Utils.isBlank b = false) ∧
        ∀ b, e.ssp.getLast? = some b → Utils.isBlank b = false := by
    rw [getString]
    refine and_congr ?_ ?_
    · cases e.scheme with
      | nil =>
          refine iff_of_true (fun b hb => ?_) nofun
          obtain rfl := Option.some.inj hb
          rfl
      | cons c scheme => exact Iff.rfl
    · rw [List.getLast?_append, List.getLast?_cons]
      cases e.ssp.getLast? with
      | none =>
          refine iff_of_true (fun b hb => ?_) nofun
          obtain rfl := Option.some.inj hb
          rfl
      | some c => exact Iff.rfl
  rw [← hends]
  constructor
  · intro h
    refine ⟨h ▸ notMem_scheme_ofString _, ?_⟩
    rcases getString_ofString e.getString with htext | hnone
    · rw [show ofString e.getString = e from h] at htext
      exact Utils.ends_of_trim_eq e.all_isBlank_getString htext.symm
    · rw [show e = none from h.symm.trans hnone]
      refine ⟨fun b hb => ?_, fun b hb => ?_⟩
      · obtain rfl := Option.some.inj hb
        rfl
      · obtain rfl := Option.some.inj hb
        rfl
  · rintro ⟨hcolon, hhead, hlast⟩
    have hother : ∀ b ∈ e.scheme, decide (b ≠ 0x3a) = true := fun b hb =>
      decide_eq_true (ne_of_mem_of_not_mem hb hcolon)
    have htake : e.getString.takeWhile (fun b => decide (b ≠ 0x3a)) = e.scheme := by
      rw [getString, List.takeWhile_append_of_pos hother, List.takeWhile_cons_of_neg (by simp),
        List.append_nil]
    have hdrop : e.getString.dropWhile (fun b => decide (b ≠ 0x3a)) = 0x3a :: e.ssp := by
      rw [getString, List.dropWhile_append_of_pos hother, List.dropWhile_cons_of_neg (by simp)]
    rw [Readable, ofString, Utils.trim_eq_self hhead hlast, hdrop, htake]

/-- An EID of two strings. -/
theorem readable_ofParts_iff (scheme ssp : Bytes) :
    (ofParts scheme ssp).Readable ↔ Joins scheme ssp := by
  rw [readable_iff, Joins]
  refine and_congr (not_congr ⟨Utils.mem_of_mem_trim, fun h => Utils.mem_trim h rfl⟩)
    (and_congr (Utils.head_trim_iff scheme) (Utils.last_trim_iff ssp))

/-- An EID of two numbers. -/
theorem readable_ofNumbers (node application : UInt64) : (ofNumbers node application).Readable := by
  rw [ofNumbers]
  split_ifs
  · decide
  · have hcolon : (0x3a : UInt8) ∉ cbheScheme := by decide
    refine (readable_iff _).2 ⟨hcolon, fun b hb => ?_, fun b hb => ?_⟩
    · obtain rfl := Option.some.inj hb
      rfl
    · have hnum := Decimal.isNumeral_numeral application.toNat
      have hlast : (Decimal.numeral node.toNat ++
          dot :: Decimal.numeral application.toNat).getLast? =
            (Decimal.numeral application.toNat).getLast? := by
        rw [List.getLast?_append, List.getLast?_cons, List.getLast?_eq_some_getLast hnum.ne_nil]
        rfl
      rw [hlast] at hb
      have hdigit := hnum.digits b (List.mem_of_getLast? hb)
      have hspace := Decimal.isSpace_of_isDigit hdigit
      rw [Bool.eq_false_iff] at hspace ⊢
      refine fun hblank => hspace ?_
      rw [Utils.isBlank, Bool.or_eq_true, beq_iff_eq, beq_iff_eq] at hblank
      rcases hblank with rfl | rfl <;> decide

/-- **EIDs that are read back from their texts are equal exactly if the texts are**, and
`EID::operator<` is an order of them. -/
theorem keyOrder_readable :
    (∀ e e' : EID, e.Readable → e'.Readable → (e = e' ↔ e.getString = e'.getString)) ∧
      KeyOrder EID.lt (fun e e' => decide (e = e')) {e | e.Readable} := by
  have heq : ∀ e e' : EID, e.Readable → e'.Readable → (e = e' ↔ e.getString = e'.getString) := by
    refine fun e e' he he' => ⟨congrArg getString, fun h => ?_⟩
    rw [← show ofString e.getString = e from he, h]
    exact he'
  refine ⟨heq, KeyOrder.of_rank (fun e : EID => e.getString.map UInt8.toNat)
    (fun e _ e' _ => decide_eq_true_iff) fun e he e' he' => ?_⟩
  rw [decide_eq_true_iff, heq e e' he he', BundleID.getString_inj]

/-- **EIDs from texts and from numbers are read back from their texts; those from two strings
exactly if the strings can be joined.** On all that are read back, equality is equality of the
texts, and `EID::operator<` is a strict order that agrees with it. -/
theorem names_iff (value scheme ssp : Bytes) (node application : UInt64) :
    (ofString value).Readable ∧
      (ofNumbers node application).Readable ∧
      ((ofParts scheme ssp).Readable ↔ Joins scheme ssp) ∧
      (∀ e e' : EID, e.Readable → e'.Readable → (e = e' ↔ e.getString = e'.getString)) ∧
      KeyOrder EID.lt (fun e e' => decide (e = e')) {e | e.Readable} :=
  ⟨ofString_getString_ofString value, readable_ofNumbers node application,
    readable_ofParts_iff scheme ssp, keyOrder_readable⟩

/-- **Two EIDs with the same text**, and one that is read back as another one. -/
theorem not_names :
    (¬ (ofParts (ascii ['a', ':', 'b']) (ascii ['c'])).Readable ∧
        ofParts (ascii ['a', ':', 'b']) (ascii ['c']) ≠
          ofParts (ascii ['a']) (ascii ['b', ':', 'c']) ∧
        (ofParts (ascii ['a', ':', 'b']) (ascii ['c'])).getString =
          (ofParts (ascii ['a']) (ascii ['b', ':', 'c'])).getString) ∧
      ofString (ofParts (ascii [' ']) (ascii ['c'])).getString = ⟨[], ascii ['c']⟩ := by
  decide

end EID

end IbrDtn
