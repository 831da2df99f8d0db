import IbrDtn.Data.Sdnv
import IbrDtn.Library.Decimal
import Mathlib

/-!
# Endpoint identifiers

This file models `ibrdtn/data/EID.cpp` and the trimming functions of `ibrdtn/utils/Utils.cpp`.
An EID is a scheme and a scheme specific part.  The constructors from two strings and from one
string trim blanks; the constructor from two numbers prints them as `ipn:node.application`, with
node zero standing for `dtn:none`.  `getCompressed` goes the other way by formatted extraction.

## Main definitions

* `EID` : endpoint identifiers, with one definition for each of the three constructors.
* `EID.HasHost` : EIDs with a host part.
* `EID.isCompressable`, `EID.getCompressed` : the compressed form.
* `EID.IsCanonical` : `dtn:none` and `ipn:node.application` in printed decimal numerals.

## Main results

* `EID.exists_getNode`, `EID.getNode_of_not_hasHost` : which EIDs have a node.
* `EID.trimmed_eq_self` : EIDs without blanks around their parts survive the constructor.
* `EID.decompressed_eq_iff` : the compressed form names the EID it was computed from
  exactly when the EID is canonical.
-/

namespace IbrDtn

/-! ### Trimming -/

namespace Utils

/-- The bytes that `find_first_not_of(" \t")` passes over. -/
def isBlank (b : UInt8) : Bool := b == 0x20 || b == 0x09

/-- `Utils::ltrim`: a string of blanks is left alone. -/
def ltrim (str : Bytes) : Bytes :=
  if str.all isBlank then str else str.dropWhile isBlank

/-- `Utils::rtrim`: a string of blanks is left alone. -/
def rtrim (str : Bytes) : Bytes :=
  if str.all isBlank then str else str.rdropWhile isBlank

/-- `Utils::trim`. -/
def trim (str : Bytes) : Bytes := rtrim (ltrim str)

theorem ltrim_eq_self {str : Bytes} (h : ∀ b, str.head? = some b → isBlank b = false) :
    ltrim str = str := by
  rw [ltrim]
  split_ifs with hall
  · rfl
  · cases str with
    | nil => rfl
    | cons b str => rw [List.dropWhile_cons, h b rfl]; rfl

theorem rtrim_eq_self {str : Bytes} (h : ∀ b, str.getLast? = some b → isBlank b = false) :
    rtrim str = str := by
  rw [rtrim]
  split_ifs with hall
  · rfl
  · rw [List.rdropWhile_eq_self_iff]
    intro hne
    rw [h _ (List.getLast?_eq_some_getLast hne)]
    exact Bool.false_ne_true

theorem trim_eq_self {str : Bytes} (hhead : ∀ b, str.head? = some b → isBlank b = false)
    (hlast : ∀ b, str.getLast? = some b → isBlank b = false) : trim str = str := by
  rw [trim, ltrim_eq_self hhead, rtrim_eq_self hlast]

/-- A string with something but blanks does not end in blanks when it is trimmed. -/
theorem trim_of_not_all {str : Bytes} (h : str.all isBlank = false) :
    trim str = (str.dropWhile isBlank).rdropWhile isBlank := by
  have hne : str.dropWhile isBlank ≠ [] := by
    rw [Ne, List.dropWhile_eq_nil_iff, ← List.all_eq_true, h]
    exact Bool.false_ne_true
  have hall : ¬ (str.dropWhile isBlank).all isBlank = true := by
    rw [List.all_eq_true]
    intro hblank
    have hhead := List.head_dropWhile_not isBlank hne
    rw [hblank _ (List.head_mem hne)] at hhead
    exact Bool.noConfusion hhead
  rw [trim, ltrim, if_neg (by rw [h]; exact Bool.false_ne_true), rtrim, if_neg hall]

/-- What was trimmed has no blanks to trim. -/
theorem trim_trim (str : Bytes) : trim (trim str) = trim str := by
  cases h : str.all isBlank with
  | true =>
      have hself : trim str = str := by
        rw [trim, ltrim, if_pos h, rtrim, if_pos h]
      rw [hself, hself]
  | false =>
      rw [trim_of_not_all h]
      by_cases hne : (str.dropWhile isBlank).rdropWhile isBlank = []
      · rw [hne]
        rfl
      · refine trim_eq_self (fun b hb => ?_) fun b hb => ?_
        · obtain ⟨rest, hrest⟩ := List.rdropWhile_prefix isBlank (l := str.dropWhile isBlank)
          have hnot := List.head?_dropWhile_not isBlank str
          rw [← hrest, List.head?_append, hb] at hnot
          exact hnot
        · obtain rfl := Option.some.inj ((List.getLast?_eq_some_getLast hne).symm.trans hb)
          exact Bool.eq_false_iff.2 (List.rdropWhile_last_not isBlank _ hne)

theorem mem_of_mem_trim {str : Bytes} {b : UInt8} (hb : b ∈ trim str) : b ∈ str := by
  cases h : str.all isBlank with
  | true => rwa [trim, ltrim, if_pos h, rtrim, if_pos h] at hb
  | false =>
      rw [trim_of_not_all h] at hb
      exact (List.dropWhile_sublist isBlank).mem ((List.rdropWhile_prefix isBlank _).mem hb)

end Utils

/-! ### The data type and its constructors -/

/-- An endpoint identifier: the members `_scheme` and `_ssp`. -/
structure EID where
  scheme : Bytes
  ssp : Bytes
deriving DecidableEq, Repr

namespace EID

/-- `EID::DEFAULT_SCHEME`. -/
def defaultScheme : Bytes := ascii ['d', 't', 'n']

/-- `EID::CBHE_SCHEME`. -/
def cbheScheme : Bytes := ascii ['i', 'p', 'n']

/-- The scheme specific part of the null endpoint. -/
def noneSsp : Bytes := ascii ['n', 'o', 'n', 'e']

/-- `EID::EID()`: the null endpoint `dtn:none`. -/
def none : EID := ⟨defaultScheme, noneSsp⟩

/-- `EID::EID(std::string scheme, std::string ssp)`. -/
def ofParts (scheme ssp : Bytes) : EID := ⟨Utils.trim scheme, Utils.trim ssp⟩

/-- `EID::EID(std::string value)`: the scheme is everything before the first colon. A text
without colon gives `dtn:none`. -/
def ofString (value : Bytes) : EID :=
  let value := Utils.trim value
  match value.dropWhile (· ≠ 0x3a) with
  | [] => none
  | _ :: ssp => ⟨value.takeWhile (· ≠ 0x3a), ssp⟩

/-- The separator of node and application number. -/
def dot : UInt8 := 0x2e

/-- The separator in the scheme specific part of other schemes. -/
def slash : UInt8 := 0x2f

/-- `EID::EID(size_t node, size_t application)`. -/
def ofNumbers (node application : UInt64) : EID :=
  if node = 0 then none
  else ⟨cbheScheme, Decimal.numeral node.toNat ++ dot :: Decimal.numeral application.toNat⟩

/-! ### Accessors -/

/-- `EID::getString`. -/
def getString (e : EID) : Bytes := e.scheme ++ 0x3a :: e.ssp

/-- `EID::getHost`. -/
def getHost (e : EID) : Except Exn Bytes :=
  if e.scheme = cbheScheme then .ok (e.ssp.takeWhile (· ≠ dot))
  else
    match e.ssp.dropWhile (· = slash) with
    | [] => .error (.exception "wrong eid format")
    | name => .ok (e.ssp.takeWhile (· = slash) ++ name.takeWhile (· ≠ slash))

/-- `EID::getNode`. -/
def getNode (e : EID) : Except Exn EID := do
  let host ← e.getHost
  pure (ofString (e.scheme ++ 0x3a :: host))

/-- `EID::operator+`. -/
def append (e : EID) (suffix : Bytes) : EID := ofString (e.getString ++ suffix)

/-- `EID::getApplication`: empty when there is no application part. -/
def getApplication (e : EID) : Except Exn Bytes :=
  if e.scheme = cbheScheme then .ok (e.ssp.dropWhile (· ≠ dot)).tail
  else
    match e.ssp.dropWhile (· = slash) with
    | [] => .error (.exception "wrong eid format")
    | name => .ok (name.dropWhile (· ≠ slash))

/-- `EID::hasApplication`. -/
def hasApplication (e : EID) : Except Exn Bool :=
  if e.scheme = cbheScheme then .ok (e.ssp.contains dot)
  else
    match e.ssp.dropWhile (· = slash) with
    | [] => .error (.exception "wrong eid format")
    | name => .ok (name.contains slash)

/-- The text of an EID that was made from a text. -/
theorem getString_ofString (value : Bytes) : (ofString value).getString = Utils.trim value ∨
    ofString value = none := by
  rw [ofString]
  cases hcolon : (Utils.trim value).dropWhile (· ≠ 0x3a) with
  | nil => exact .inr rfl
  | cons b ssp =>
      have hb : b = 0x3a := by
        have hnot := List.head?_dropWhile_not (fun b : UInt8 => decide (b ≠ 0x3a)) (Utils.trim value)
        rw [hcolon] at hnot
        simpa using hnot
      subst hb
      have hwhole := List.takeWhile_append_dropWhile (p := fun b : UInt8 => decide (b ≠ 0x3a))
        (l := Utils.trim value)
      rw [hcolon] at hwhole
      exact .inl hwhole

/-- **The text of an EID that was made from a text denotes it.** -/
theorem ofString_getString_ofString (value : Bytes) :
    ofString (ofString value).getString = ofString value := by
  rcases getString_ofString value with h | h
  · rw [h, ofString, Utils.trim_trim]
    rfl
  · rw [h]
    decide

/-- The EID has a host part: it is of the scheme `ipn`, or not only slashes. -/
def HasHost (e : EID) : Prop := e.scheme = cbheScheme ∨ ∃ b ∈ e.ssp, b ≠ slash

instance (e : EID) : Decidable e.HasHost := inferInstanceAs (Decidable (_ ∨ _))

theorem dropWhile_slash_eq_nil_iff (e : EID) :
    e.ssp.dropWhile (· = slash) = [] ↔ ∀ b ∈ e.ssp, b = slash := by
  rw [List.dropWhile_eq_nil_iff]
  simp only [decide_eq_true_eq]

/-- **An EID without host part cannot be taken apart.** -/
theorem getNode_of_not_hasHost {e : EID} (h : ¬ e.HasHost) :
    e.getNode = .error (.exception "wrong eid format") := by
  rw [HasHost, not_or, not_exists] at h
  have hslash : e.ssp.dropWhile (· = slash) = [] :=
    e.dropWhile_slash_eq_nil_iff.2 fun b hb => by simpa [hb] using h.2 b
  rw [getNode, getHost, if_neg h.1, hslash]
  rfl

theorem getApplication_of_not_hasHost {e : EID} (h : ¬ e.HasHost) :
    e.getApplication = .error (.exception "wrong eid format") := by
  rw [HasHost, not_or, not_exists] at h
  have hslash : e.ssp.dropWhile (· = slash) = [] :=
    e.dropWhile_slash_eq_nil_iff.2 fun b hb => by simpa [hb] using h.2 b
  rw [getApplication, if_neg h.1, hslash]

theorem exists_getNode {e : EID} (h : e.HasHost) : ∃ node, e.getNode = .ok node := by
  rw [getNode, getHost]
  by_cases hs : e.scheme = cbheScheme
  · rw [if_pos hs]
    exact ⟨_, rfl⟩
  · obtain ⟨b, hb, hne⟩ := h.resolve_left hs
    rw [if_neg hs]
    cases hname : e.ssp.dropWhile (· = slash) with
    | nil => exact absurd (e.dropWhile_slash_eq_nil_iff.1 hname b hb) hne
    | cons c name => exact ⟨_, rfl⟩

theorem exists_getApplication {e : EID} (h : e.HasHost) :
    ∃ application, e.getApplication = .ok application := by
  rw [getApplication]
  by_cases hs : e.scheme = cbheScheme
  · rw [if_pos hs]
    exact ⟨_, rfl⟩
  · obtain ⟨b, hb, hne⟩ := h.resolve_left hs
    rw [if_neg hs]
    cases hname : e.ssp.dropWhile (· = slash) with
    | nil => exact absurd (e.dropWhile_slash_eq_nil_iff.1 hname b hb) hne
    | cons c name => exact ⟨_, rfl⟩

/-- `EID::isCompressable`. -/
def isCompressable (e : EID) : Bool :=
  (e.scheme == defaultScheme && e.ssp == noneSsp) || e.scheme == cbheScheme

/-- `std::stringstream ss(text); ss >> number` for a `size_t` that holds zero. -/
def extractNumber (text : Bytes) : UInt64 := UInt64.ofNat (Decimal.extract 64 text)

/-- `EID::getCompressed`. -/
def getCompressed (e : EID) : Except Exn (UInt64 × UInt64) :=
  if e.isCompressable then do
    let node := extractNumber (← e.getHost)
    if ← e.hasApplication then do
      let app := extractNumber (← e.getApplication)
      pure (node, app)
    else pure (node, 0)
  else pure (0, 0)

/-! ### EIDs that survive the constructor from two strings -/

/-- The EID with the blanks around its parts removed. -/
def trimmed (e : EID) : EID := ofParts e.scheme e.ssp

/-- No part starts or ends with a blank. -/
def Unblanked (e : EID) : Prop :=
  (∀ b, e.scheme.head? = some b ∨ e.scheme.getLast? = some b → Utils.isBlank b = false) ∧
    ∀ b, e.ssp.head? = some b ∨ e.ssp.getLast? = some b → Utils.isBlank b = false

theorem trimmed_eq_self {e : EID} (h : e.Unblanked) : e.trimmed = e := by
  rw [trimmed, ofParts, Utils.trim_eq_self (fun b hb => h.1 b (Or.inl hb))
    (fun b hb => h.1 b (Or.inr hb)), Utils.trim_eq_self (fun b hb => h.2 b (Or.inl hb))
    (fun b hb => h.2 b (Or.inr hb))]

/-! ### The compressed form -/

/-- The EIDs that `EID(node, application)` builds: `dtn:none`, and `ipn:node.application` with
both numbers printed in decimal and below `2 ^ 64`, and the node number not zero. -/
def IsCanonical (e : EID) : Prop :=
  e = none ∨
    (e.scheme = cbheScheme ∧ e.ssp.contains dot = true ∧
      Decimal.IsNumeral (e.ssp.takeWhile (· ≠ dot)) ∧
      Decimal.IsNumeral (e.ssp.dropWhile (· ≠ dot)).tail ∧
      Decimal.value (e.ssp.takeWhile (· ≠ dot)) ≠ 0 ∧
      Decimal.value (e.ssp.takeWhile (· ≠ dot)) < 2 ^ 64 ∧
      Decimal.value (e.ssp.dropWhile (· ≠ dot)).tail < 2 ^ 64)

instance (e : EID) : Decidable e.IsCanonical :=
  inferInstanceAs (Decidable (_ ∨ _))

theorem dot_notMem_numeral (n : ℕ) : dot ∉ Decimal.numeral n := fun h =>
  absurd ((Decimal.isNumeral_numeral n).digits dot h) (by decide)

theorem takeWhile_dot {host : Bytes} (h : dot ∉ host) (r : Bytes) :
    (host ++ dot :: r).takeWhile (· ≠ dot) = host := by
  rw [List.takeWhile_append_of_pos (fun b hb => decide_eq_true (ne_of_mem_of_not_mem hb h))]
  simp

theorem dropWhile_dot {host : Bytes} (h : dot ∉ host) (r : Bytes) :
    (host ++ dot :: r).dropWhile (· ≠ dot) = dot :: r := by
  rw [List.dropWhile_append_of_pos (fun b hb => decide_eq_true (ne_of_mem_of_not_mem hb h))]
  simp

theorem takeWhile_append_dot {ssp : Bytes} (h : ssp.contains dot = true) :
    ssp.takeWhile (· ≠ dot) ++ dot :: (ssp.dropWhile (· ≠ dot)).tail = ssp := by
  have hmem : dot ∈ ssp := List.contains_iff_mem.1 h
  obtain ⟨host, r, rfl, hhost⟩ := List.eq_append_cons_of_mem hmem
  rw [takeWhile_dot hhost, dropWhile_dot hhost, List.tail_cons]

theorem extractNumber_numeral (n : UInt64) : extractNumber (Decimal.numeral n.toNat) = n := by
  rw [extractNumber, Decimal.extract_numeral n.toNat_lt, UInt64.ofNat_toNat]

theorem isCompressable_iff (e : EID) :
    e.isCompressable = true ↔ e = none ∨ e.scheme = cbheScheme := by
  rw [isCompressable, none]
  cases e
  simp

theorem getCompressed_none : none.getCompressed = .ok (0, 0) := by decide

/-- The compressed form of an `ipn` EID: the numbers at the start of its two parts. -/
theorem getCompressed_of_cbhe {e : EID} (h : e.scheme = cbheScheme) :
    e.getCompressed = .ok (extractNumber (e.ssp.takeWhile (· ≠ dot)),
      if e.ssp.contains dot then extractNumber (e.ssp.dropWhile (· ≠ dot)).tail else 0) := by
  have hc : e.isCompressable = true := (isCompressable_iff e).2 (Or.inr h)
  rw [getCompressed, if_pos hc, getHost, hasApplication, getApplication, if_pos h, if_pos h,
    if_pos h]
  cases e.ssp.contains dot <;> rfl

theorem ofNumbers_zero (application : UInt64) : ofNumbers 0 application = none := if_pos rfl

theorem isCanonical_ofNumbers (node application : UInt64) :
    (ofNumbers node application).IsCanonical := by
  rw [ofNumbers]
  split_ifs with h
  · exact Or.inl rfl
  · refine Or.inr ⟨rfl, by simp, ?_⟩
    rw [takeWhile_dot (dot_notMem_numeral _), dropWhile_dot (dot_notMem_numeral _), List.tail_cons,
      Decimal.value_numeral, Decimal.value_numeral]
    refine ⟨Decimal.isNumeral_numeral _, Decimal.isNumeral_numeral _, ?_, node.toNat_lt,
      application.toNat_lt⟩
    rw [ne_eq, ← UInt64.toNat_zero, UInt64.toNat_inj]
    exact h

theorem toNat_ofNat_of_lt {n : ℕ} (h : n < 2 ^ 64) : (UInt64.ofNat n).toNat = n := by
  rw [UInt64.toNat_ofNat', Nat.mod_eq_of_lt h]

/-- The canonical EIDs are exactly those that the constructor from two numbers builds. -/
theorem isCanonical_iff_exists (e : EID) :
    e.IsCanonical ↔ ∃ node application, ofNumbers node application = e := by
  constructor
  · rintro (rfl | ⟨hs, hdot, hhost, happ, hne, hlt, hlt'⟩)
    · exact ⟨0, 0, ofNumbers_zero 0⟩
    · refine ⟨UInt64.ofNat (Decimal.value (e.ssp.takeWhile (· ≠ dot))),
        UInt64.ofNat (Decimal.value (e.ssp.dropWhile (· ≠ dot)).tail), ?_⟩
      have hnode : UInt64.ofNat (Decimal.value (e.ssp.takeWhile (· ≠ dot))) ≠ 0 := by
        rw [ne_eq, ← UInt64.toNat_inj, toNat_ofNat_of_lt hlt]
        exact hne
      rw [ofNumbers, if_neg hnode, toNat_ofNat_of_lt hlt, toNat_ofNat_of_lt hlt',
        Decimal.numeral_value hhost, Decimal.numeral_value happ, takeWhile_append_dot hdot, ← hs]
  · rintro ⟨node, application, rfl⟩
    exact isCanonical_ofNumbers node application

/-- `getCompressed` recovers the numbers, unless they stand for `dtn:none`. -/
theorem getCompressed_ofNumbers {node application : UInt64} (h : node ≠ 0) :
    (ofNumbers node application).getCompressed = .ok (node, application) := by
  rw [ofNumbers, if_neg h, getCompressed_of_cbhe rfl]
  simp only [takeWhile_dot (dot_notMem_numeral _), dropWhile_dot (dot_notMem_numeral _),
    List.tail_cons, extractNumber_numeral]
  simp

/-- `EID::getCompressed`, which throws for no EID (`getCompressed_eq`). -/
def compressed (e : EID) : UInt64 × UInt64 :=
  match e.getCompressed with
  | .ok ref => ref
  | .error _ => (0, 0)

/-- What the compressed form of an EID is read back as. -/
def decompressed (e : EID) : EID := ofNumbers e.compressed.1 e.compressed.2

/-- **The compressed form names the EID it was computed from exactly when the EID is
canonical.** -/
theorem decompressed_eq_iff (e : EID) : e.decompressed = e ↔ e.IsCanonical := by
  constructor
  · intro h
    rw [isCanonical_iff_exists]
    exact ⟨_, _, h⟩
  · rw [isCanonical_iff_exists]
    rintro ⟨node, application, rfl⟩
    by_cases hn : node = 0
    · subst hn
      rw [ofNumbers_zero, decompressed, compressed, getCompressed_none]
      rfl
    · rw [decompressed, compressed, getCompressed_ofNumbers hn]

end EID

end IbrDtn
