import IbrDtn.Library.InStream
import Mathlib

/-!
# Prefix codes

An encoding is prefix free if what it writes in front of anything determines the value and what
follows.  Numbers of a fixed width, byte strings behind their length and lists in front of a
terminator are written with such encodings.  Some encodings leave a part of the value out: they
determine the image of the value under a function.

## Main definitions

* `Determines` : the encoding determines the images of the values that satisfy a condition.
* `PrefixFree` : the encoding determines these values.
* `bigEndian` : numbers of a fixed width.

## Main results

* `Parser.prefixFree` : what a program reads back from every stream is written prefix free.
* `prefixFree_of_length`, `prefixFree_bigEndian`, `PrefixFree.framed` : encodings that are.
* `PrefixFree.terminated` : a list in front of a terminator that is no item.
* `Determines.map_eq_of_flatMap_eq` : a list up to the end.
-/

variable {α γ δ : Type} {β : Type}

/-- The images under `v` of the values that satisfy `P` are determined by their encoding in front
of anything, and so is what follows. -/
def Determines (P : α → Prop) (enc : α → List β) (v : α → δ) : Prop :=
  ∀ ⦃a a' : α⦄ ⦃r r' : List β⦄, P a → P a' → enc a ++ r = enc a' ++ r' → v a = v a' ∧ r = r'

/-- The values that satisfy `P` are determined by their encoding in front of anything, and so is
what follows. -/
def PrefixFree (P : α → Prop) (enc : α → List β) : Prop :=
  ∀ ⦃a a' : α⦄ ⦃r r' : List β⦄, P a → P a' → enc a ++ r = enc a' ++ r' → a = a' ∧ r = r'

theorem PrefixFree.determines {P : α → Prop} {enc : α → List β} (h : PrefixFree P enc)
    (v : α → δ) : Determines P enc v := by
  intro a a' r r' ha ha' heq
  obtain ⟨rfl, hr⟩ := h ha ha' heq
  exact ⟨rfl, hr⟩

/-- Items that are never empty are determined one by one, up to the end. -/
theorem Determines.map_eq_of_flatMap_eq {P : α → Prop} {enc : α → List β} {v : α → δ}
    (h : Determines P enc v) (hne : ∀ a, P a → enc a ≠ []) {as as' : List α}
    (has : ∀ a ∈ as, P a) (has' : ∀ a ∈ as', P a) (heq : as.flatMap enc = as'.flatMap enc) :
    as.map v = as'.map v := by
  induction as generalizing as' with
  | nil =>
      cases as' with
      | nil => rfl
      | cons a' as' =>
          rw [List.flatMap_nil, List.flatMap_cons] at heq
          exact absurd (List.append_eq_nil_iff.1 heq.symm).1 (hne a' (has' a' List.mem_cons_self))
  | cons a as ih =>
      cases as' with
      | nil =>
          rw [List.flatMap_nil, List.flatMap_cons] at heq
          exact absurd (List.append_eq_nil_iff.1 heq).1 (hne a (has a List.mem_cons_self))
      | cons a' as' =>
          rw [List.flatMap_cons, List.flatMap_cons] at heq
          obtain ⟨hv, hrest⟩ := h (has a List.mem_cons_self) (has' a' List.mem_cons_self) heq
          have htail := ih (fun x hx => has x (List.mem_cons_of_mem a hx))
            (fun x hx => has' x (List.mem_cons_of_mem a' hx)) hrest
          rw [List.map_cons, List.map_cons, hv, htail]

/-- What a program reads back in front of anything is determined. -/
theorem Parser.prefixFree {ε : Type} {P : α → Prop} {enc : α → List UInt8} {p : Parser ε α}
    (h : ∀ a, P a → p.Reads (enc a) a) : PrefixFree P enc := by
  intro a a' r r' ha ha' heq
  have hrun := h a ha r []
  rw [heq, h a' ha' r' []] at hrun
  obtain ⟨hok, hstream⟩ := Prod.mk.inj hrun
  exact ⟨(Except.ok.inj hok).symm, (congrArg InStream.rest hstream).symm⟩

/-- Encodings of one length are prefix free if they are injective. -/
theorem prefixFree_of_length {P : α → Prop} {enc : α → List β} {width : ℕ}
    (hlen : ∀ a, (enc a).length = width) (hinj : ∀ a a', P a → P a' → enc a = enc a' → a = a') :
    PrefixFree P enc := by
  intro a a' r r' ha ha' h
  obtain ⟨henc, hr⟩ := List.append_inj h ((hlen a).trans (hlen a').symm)
  exact ⟨hinj a a' ha ha' henc, hr⟩

namespace PrefixFree

/-- A code may be used for what a function gives that determines its argument. -/
theorem comp {P : α → Prop} {enc : α → List β} (h : PrefixFree P enc) {Q : γ → Prop}
    {f : γ → α} (hf : ∀ c, Q c → P (f c)) (hinj : ∀ c c', Q c → Q c' → f c = f c' → c = c') :
    PrefixFree Q fun c => enc (f c) := by
  intro c c' r r' hc hc' heq
  obtain ⟨hfc, hr⟩ := h (hf c hc) (hf c' hc') heq
  exact ⟨hinj c c' hc hc' hfc, hr⟩

/-- A list behind its length. -/
theorem framed {P : ℕ → Prop} {enc : ℕ → List β} (h : PrefixFree P enc) :
    PrefixFree (fun bs : List β => P bs.length) fun bs => enc bs.length ++ bs := by
  intro bs bs' r r' hbs hbs' heq
  rw [List.append_assoc, List.append_assoc] at heq
  obtain ⟨hlen, htail⟩ := h hbs hbs' heq
  exact List.append_inj htail hlen

/-- **Lists of items in front of a terminator**, which is never the beginning of an item. -/
theorem terminated {P : α → Prop} {item : α → List β} (hitem : PrefixFree P item)
    {Q : γ → Prop} {stop : γ → List β} (hstop : PrefixFree Q stop)
    (hne : ∀ a c r r', P a → Q c → item a ++ r ≠ stop c ++ r') {as as' : List α}
    (has : ∀ a ∈ as, P a) (has' : ∀ a ∈ as', P a) {c c' : γ} (hc : Q c) (hc' : Q c')
    {r r' : List β} (h : as.flatMap item ++ (stop c ++ r) = as'.flatMap item ++ (stop c' ++ r')) :
    as = as' ∧ c = c' ∧ r = r' := by
  induction as generalizing as' with
  | nil =>
      cases as' with
      | nil => exact ⟨rfl, hstop hc hc' h⟩
      | cons a' as' =>
          rw [List.flatMap_cons, List.append_assoc] at h
          exact absurd h.symm (hne a' c _ r (has' a' List.mem_cons_self) hc)
  | cons a as ih =>
      cases as' with
      | nil =>
          rw [List.flatMap_cons, List.append_assoc] at h
          exact absurd h (hne a c' _ r' (has a List.mem_cons_self) hc')
      | cons a' as' =>
          rw [List.flatMap_cons, List.flatMap_cons, List.append_assoc, List.append_assoc] at h
          obtain ⟨rfl, htail⟩ := hitem (has a List.mem_cons_self) (has' a' List.mem_cons_self) h
          obtain ⟨rfl, hrest⟩ := ih (fun x hx => has x (List.mem_cons_of_mem a hx))
            (fun x hx => has' x (List.mem_cons_of_mem a hx)) htail
          exact ⟨rfl, hrest⟩

end PrefixFree

/-! ### Numbers of a fixed width -/

/-- The lowest `width` bytes of a number, the highest one first. -/
def bigEndian : ℕ → ℕ → List UInt8
  | 0, _ => []
  | width + 1, n => UInt8.ofNat (n / 256 ^ width) :: bigEndian width n

@[simp] theorem length_bigEndian (width n : ℕ) : (bigEndian width n).length = width := by
  induction width with
  | zero => rfl
  | succ width ih => rw [bigEndian, List.length_cons, ih]

/-- The bytes determine the number up to multiples of what they can hold. -/
theorem mod_eq_of_bigEndian_eq {width n m : ℕ} (h : bigEndian width n = bigEndian width m) :
    n % 256 ^ width = m % 256 ^ width := by
  induction width with
  | zero => rw [pow_zero, Nat.mod_one, Nat.mod_one]
  | succ width ih =>
      obtain ⟨hhead, htail⟩ := List.cons.inj h
      have hdigit : n / 256 ^ width % 256 = m / 256 ^ width % 256 := by
        have := congrArg UInt8.toNat hhead
        simpa using this
      rw [Nat.mod_pow_succ, Nat.mod_pow_succ, ih htail, hdigit]

/-- Numbers that fit the width are determined. -/
theorem prefixFree_bigEndian (width : ℕ) :
    PrefixFree (fun n => n < 256 ^ width) (bigEndian width) := by
  refine prefixFree_of_length (length_bigEndian width) fun n m hn hm h => ?_
  have hmod := mod_eq_of_bigEndian_eq h
  rwa [Nat.mod_eq_of_lt hn, Nat.mod_eq_of_lt hm] at hmod

/-- The higher bytes come first. -/
theorem bigEndian_add (high low n : ℕ) :
    bigEndian (high + low) n = bigEndian high (n / 256 ^ low) ++ bigEndian low n := by
  induction high with
  | zero => rw [Nat.zero_add, bigEndian, List.nil_append]
  | succ high ih =>
      rw [Nat.add_right_comm, bigEndian, ih, bigEndian, List.cons_append, Nat.div_div_eq_div_mul,
        ← pow_add, Nat.add_comm low high]
