import IbrDtn.Library.InStream
import Mathlib

/-!
# Decimal numerals in byte strings

Printing a natural number as a decimal numeral, and extracting an unsigned number of a given
width from the start of a text in the manner of formatted stream extraction: white space and a
sign are skipped, the digits up to the first other byte are taken, a text without digits gives
zero, and a number that does not fit gives the largest one.

## Main definitions

* `Decimal.numeral`, `Decimal.value` : from numbers to digits and back.
* `Decimal.IsNumeral` : the digit strings that are printed: no leading zero.
* `Decimal.extract` : formatted extraction of an unsigned number.

## Main results

* `Decimal.extract_numeral` : extraction inverts printing for the numbers that fit.
* `Decimal.numeral_append_inj` : a numeral before another byte can be read off a text.
-/

namespace Decimal

/-- The byte is one of `'0'` to `'9'`. -/
def isDigit (b : UInt8) : Bool := 0x30 ≤ b && b ≤ 0x39

/-- The number that a digit stands for. -/
def digitValue (b : UInt8) : ℕ := b.toNat - 0x30

/-- The digit that stands for a number below ten. -/
def digitByte (d : ℕ) : UInt8 := UInt8.ofNat (0x30 + d)

/-- The decimal numeral of `n`. -/
def numeral (n : ℕ) : List UInt8 :=
  if n = 0 then [0x30] else ((Nat.digits 10 n).map digitByte).reverse

/-- The number that a string of digits stands for. -/
def value (bs : List UInt8) : ℕ :=
  bs.foldl (fun acc b => acc * 10 + digitValue b) 0

/-- A nonempty string of digits without leading zeros. -/
structure IsNumeral (bs : List UInt8) : Prop where
  ne_nil : bs ≠ []
  digits : ∀ b ∈ bs, isDigit b = true
  canonical : bs.head? = some 0x30 → bs = [0x30]

/-- An unsigned number of `width` bits, extracted from the start of a text. -/
def extract (width : ℕ) (text : List UInt8) : ℕ :=
  let text := text.dropWhile Parser.isSpace
  let negative := text.head? = some 0x2d
  let text := if negative ∨ text.head? = some 0x2b then text.tail else text
  let n := value (text.takeWhile isDigit)
  if 2 ^ width ≤ n then 2 ^ width - 1
  else if negative then (2 ^ width - n) % 2 ^ width
  else n

/-- The numeral of a number with a sign, which is only printed for the negative ones. -/
def signedNumeral (n : ℤ) : List UInt8 :=
  if n < 0 then 0x2d :: numeral n.natAbs else numeral n.natAbs

/-- A number with a sign, of `width` bits and one for the sign, extracted from the start of a text:
what does not fit gives the nearest one. -/
def extractSigned (width : ℕ) (text : List UInt8) : ℤ :=
  let text := text.dropWhile Parser.isSpace
  let negative := text.head? = some 0x2d
  let text := if negative ∨ text.head? = some 0x2b then text.tail else text
  let n := value (text.takeWhile isDigit)
  if negative then -(min n (2 ^ width) : ℕ) else (min n (2 ^ width - 1) : ℕ)

/-! ### Digits -/

theorem isDigit_iff (b : UInt8) : isDigit b = true ↔ 0x30 ≤ b.toNat ∧ b.toNat ≤ 0x39 := by
  simp only [isDigit, Bool.and_eq_true, decide_eq_true_eq, UInt8.le_iff_toNat_le]
  rfl

theorem toNat_digitByte {d : ℕ} (h : d < 10) : (digitByte d).toNat = 0x30 + d := by
  rw [digitByte, UInt8.toNat_ofNat']
  omega

theorem isDigit_digitByte {d : ℕ} (h : d < 10) : isDigit (digitByte d) = true := by
  rw [isDigit_iff, toNat_digitByte h]
  omega

theorem digitValue_digitByte {d : ℕ} (h : d < 10) : digitValue (digitByte d) = d := by
  rw [digitValue, toNat_digitByte h]
  omega

theorem digitByte_digitValue {b : UInt8} (h : isDigit b = true) : digitByte (digitValue b) = b := by
  rw [isDigit_iff] at h
  rw [← UInt8.toNat_inj, toNat_digitByte (by rw [digitValue]; omega), digitValue]
  omega

theorem digitValue_lt {b : UInt8} (h : isDigit b = true) : digitValue b < 10 := by
  rw [isDigit_iff] at h
  rw [digitValue]
  omega

/-! ### Printing and reading back -/

theorem value_eq_ofDigits (bs : List UInt8) :
    value bs = Nat.ofDigits 10 (bs.map digitValue).reverse := by
  induction bs using List.reverseRecOn with
  | nil => rfl
  | append_singleton bs b ih =>
      rw [value, List.foldl_append, List.foldl_cons, List.foldl_nil, ← value, ih,
        List.map_append, List.map_singleton, List.reverse_append, List.reverse_singleton,
        List.singleton_append, Nat.ofDigits_cons]
      omega

theorem map_digitValue_digits (n : ℕ) :
    ((Nat.digits 10 n).map digitByte).map digitValue = Nat.digits 10 n := by
  rw [List.map_map]
  conv_rhs => rw [← List.map_id (Nat.digits 10 n)]
  exact List.map_congr_left fun d hd =>
    digitValue_digitByte (Nat.digits_lt_base (by decide) hd)

/-- **Reading a printed number gives it back.** -/
@[simp] theorem value_numeral (n : ℕ) : value (numeral n) = n := by
  rw [numeral]
  split_ifs with h
  · subst h
    rfl
  · rw [value_eq_ofDigits, List.map_reverse, List.reverse_reverse, map_digitValue_digits,
      Nat.ofDigits_digits]

theorem numeral_injective : Function.Injective numeral :=
  Function.LeftInverse.injective value_numeral

theorem numeral_of_ne_zero {n : ℕ} (h : n ≠ 0) :
    numeral n = ((Nat.digits 10 n).map digitByte).reverse :=
  if_neg h

theorem head_numeral {n : ℕ} (h : n ≠ 0) : (numeral n).head? ≠ some 0x30 := by
  have hne : Nat.digits 10 n ≠ [] := Nat.digits_ne_nil_iff_ne_zero.2 h
  have hlast := Nat.getLast_digit_ne_zero 10 h
  rw [numeral_of_ne_zero h, List.head?_reverse, List.getLast?_map,
    List.getLast?_eq_some_getLast hne, Option.map_some]
  intro heq
  have hd := congrArg UInt8.toNat (Option.some.inj heq)
  rw [toNat_digitByte (Nat.digits_lt_base (by decide) (List.getLast_mem hne))] at hd
  change 0x30 + _ = 0x30 at hd
  omega

theorem isNumeral_numeral (n : ℕ) : IsNumeral (numeral n) := by
  by_cases h : n = 0
  · subst h
    refine ⟨List.cons_ne_nil _ _, fun b hb => ?_, fun _ => rfl⟩
    rw [List.mem_singleton.1 hb]
    rfl
  · refine ⟨?_, ?_, fun hz => absurd hz (head_numeral h)⟩
    · rw [numeral_of_ne_zero h, ne_eq, List.reverse_eq_nil_iff, List.map_eq_nil_iff]
      exact Nat.digits_ne_nil_iff_ne_zero.2 h
    · intro b hb
      rw [numeral_of_ne_zero h, List.mem_reverse, List.mem_map] at hb
      obtain ⟨d, hd, rfl⟩ := hb
      exact isDigit_digitByte (Nat.digits_lt_base (by decide) hd)

/-- The digits of a numeral for a positive number, least significant first, are its digits. -/
theorem digits_value {bs : List UInt8} (hd : ∀ b ∈ bs, isDigit b = true)
    (hz : bs.head? ≠ some 0x30) : Nat.digits 10 (value bs) = (bs.map digitValue).reverse := by
  rw [value_eq_ofDigits]
  refine Nat.digits_ofDigits 10 (by decide) _ ?_ ?_
  · intro d hmem
    rw [List.mem_reverse, List.mem_map] at hmem
    obtain ⟨b, hb, rfl⟩ := hmem
    exact digitValue_lt (hd b hb)
  · intro hne
    rw [List.getLast_reverse]
    cases bs with
    | nil => exact absurd rfl hne
    | cons b bs =>
        intro hzero
        refine hz ?_
        have hval : digitValue b = 0 := hzero
        rw [List.head?_cons, ← digitByte_digitValue (hd b List.mem_cons_self), hval]
        rfl

/-- **Printing the value of a numeral gives it back.** -/
theorem numeral_value {bs : List UInt8} (h : IsNumeral bs) : numeral (value bs) = bs := by
  by_cases hz : bs.head? = some 0x30
  · rw [h.canonical hz]
    rfl
  · have hdigits := digits_value h.digits hz
    have hne : value bs ≠ 0 := by
      intro h0
      rw [h0, Nat.digits_zero] at hdigits
      exact h.ne_nil (by simpa using hdigits.symm)
    rw [numeral_of_ne_zero hne, hdigits, List.map_reverse, List.reverse_reverse, List.map_map]
    conv_rhs => rw [← List.map_id bs]
    exact List.map_congr_left fun b hb => digitByte_digitValue (h.digits b hb)

instance (bs : List UInt8) : Decidable (IsNumeral bs) :=
  decidable_of_iff
    (bs ≠ [] ∧ (∀ b ∈ bs, isDigit b = true) ∧ (bs.head? = some 0x30 → bs = [0x30]))
    ⟨fun ⟨h₁, h₂, h₃⟩ => ⟨h₁, h₂, h₃⟩, fun ⟨h₁, h₂, h₃⟩ => ⟨h₁, h₂, h₃⟩⟩

/-! ### Extraction -/

theorem isSpace_of_isDigit {b : UInt8} (h : isDigit b = true) : Parser.isSpace b = false := by
  rw [isDigit_iff] at h
  rw [Bool.eq_false_iff]
  intro hs
  simp only [Parser.isSpace, Bool.or_eq_true, beq_iff_eq, Bool.and_eq_true, decide_eq_true_eq,
    UInt8.le_iff_toNat_le, ← UInt8.toNat_inj] at hs
  change b.toNat = 32 ∨ 9 ≤ b.toNat ∧ b.toNat ≤ 13 at hs
  omega

theorem takeWhile_isDigit_of_forall {bs : List UInt8} (h : ∀ b ∈ bs, isDigit b = true) :
    bs.takeWhile isDigit = bs := by
  rw [List.takeWhile_eq_self_iff]
  exact h

/-- Extraction takes the value of a text that starts with a digit from the digits it starts
with. -/
theorem extract_of_isDigit (width : ℕ) {b : UInt8} (text : List UInt8) (h : isDigit b = true) :
    extract width (b :: text) =
      if 2 ^ width ≤ value ((b :: text).takeWhile isDigit) then 2 ^ width - 1
      else value ((b :: text).takeWhile isDigit) := by
  have hb := (isDigit_iff b).1 h
  have hneg : (b :: text).head? ≠ some 0x2d := by
    rintro ⟨⟩
    exact absurd hb (by decide)
  have hpos : (b :: text).head? ≠ some 0x2b := by
    rintro ⟨⟩
    exact absurd hb (by decide)
  have hdrop : (b :: text).dropWhile Parser.isSpace = b :: text := by
    rw [List.dropWhile_cons, isSpace_of_isDigit h]
    rfl
  simp only [extract, hdrop, hneg, hpos, or_self, if_false]

/-- **Extraction inverts printing** for the numbers that fit the width. -/
theorem extract_numeral {width n : ℕ} (h : n < 2 ^ width) : extract width (numeral n) = n := by
  have hnum := isNumeral_numeral n
  have htake : (numeral n).takeWhile isDigit = numeral n :=
    takeWhile_isDigit_of_forall hnum.digits
  obtain ⟨b, bs, hbs⟩ := List.exists_cons_of_ne_nil hnum.ne_nil
  have hb : isDigit b = true := hnum.digits b (by rw [hbs]; exact List.mem_cons_self)
  rw [hbs, extract_of_isDigit width bs hb, ← hbs, htake, value_numeral, if_neg (by omega)]

/-- **Extraction with a sign inverts printing** for the numbers that fit the width. -/
theorem extractSigned_signedNumeral {width : ℕ} {n : ℤ} (hlow : -2 ^ width ≤ n)
    (hhigh : n < 2 ^ width) : extractSigned width (signedNumeral n) = n := by
  have hnum := isNumeral_numeral n.natAbs
  have htake : (numeral n.natAbs).takeWhile isDigit = numeral n.natAbs :=
    takeWhile_isDigit_of_forall hnum.digits
  have hcast : ((2 ^ width : ℕ) : ℤ) = 2 ^ width := by push_cast; rfl
  rw [signedNumeral]
  split_ifs with hn
  · have hdrop : (0x2d :: numeral n.natAbs).dropWhile Parser.isSpace =
        0x2d :: numeral n.natAbs := rfl
    have hmin : min n.natAbs (2 ^ width) = n.natAbs := min_eq_left (by omega)
    simp only [extractSigned, hdrop, List.head?_cons, true_or, if_true, List.tail_cons, htake,
      value_numeral, hmin]
    omega
  · obtain ⟨b, bs, hbs⟩ := List.exists_cons_of_ne_nil hnum.ne_nil
    have hb : isDigit b = true := hnum.digits b (by rw [hbs]; exact List.mem_cons_self)
    have hb' := (isDigit_iff b).1 hb
    have hneg : (numeral n.natAbs).head? ≠ some 0x2d := by
      rw [hbs]
      rintro ⟨⟩
      exact absurd hb' (by decide)
    have hpos : (numeral n.natAbs).head? ≠ some 0x2b := by
      rw [hbs]
      rintro ⟨⟩
      exact absurd hb' (by decide)
    have hdrop : (numeral n.natAbs).dropWhile Parser.isSpace = numeral n.natAbs := by
      rw [hbs, List.dropWhile_cons, isSpace_of_isDigit hb]
      rfl
    have hmin : min n.natAbs (2 ^ width - 1) = n.natAbs := min_eq_left (by omega)
    simp only [extractSigned, hdrop, hneg, hpos, or_self, if_false, htake, value_numeral, hmin]
    omega

/-- A numeral before another byte can be read off the text. -/
theorem numeral_append_inj {m n : ℕ} {c d : UInt8} {r t : List UInt8} (hc : isDigit c = false)
    (hd : isDigit d = false) (h : numeral m ++ c :: r = numeral n ++ d :: t) :
    m = n ∧ c = d ∧ r = t := by
  have htake (k : ℕ) {b : UInt8} (u : List UInt8) (hb : isDigit b = false) :
      (numeral k ++ b :: u).takeWhile isDigit = numeral k := by
    have hnot : ¬ isDigit b = true := by rw [hb]; exact Bool.false_ne_true
    rw [List.takeWhile_append_of_pos (isNumeral_numeral k).digits,
      List.takeWhile_cons_of_neg hnot, List.append_nil]
  have hnum : numeral m = numeral n := by rw [← htake m r hc, h, htake n t hd]
  rw [hnum] at h
  exact ⟨numeral_injective hnum, List.cons.inj (List.append_cancel_left h)⟩

end Decimal
