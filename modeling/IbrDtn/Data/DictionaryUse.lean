import IbrDtn.Data.Dictionary

/-!
# Dictionaries in use

This file proves what the references of a dictionary are good for.  A dictionary that EIDs are added
to holds every string once, and a reference to an EID leads back to it whatever is added later, and
in every dictionary that is read from what it writes.

Looking up an EID, copying a dictionary and writing it move the read position of its string stream,
and a lookup that finds nothing leaves the stream failed.  The operations that are meant to read a
dictionary only therefore leave traces: they answer as a fresh dictionary with the same bytes
exactly if the operations before left none.

## Main definitions

* `Dictionary.Reading`, `Dictionary.perform` : the reading operations and their answers.
* `Dictionary.fresh` : a dictionary with the same bytes that was not read yet.
* `Dictionary.Untraced` : the operations that find no trace of others.

## Main results

* `Dictionary.resolves_addAll` : the references of a dictionary that EIDs were added to.
* `Dictionary.traceless_iff` : which sequences of reading operations leave no trace.
-/

namespace IbrDtn

namespace Dictionary

/-! ### Strings that are stored once -/

variable {d : Dictionary} {entries : List Bytes}

/-- The dictionary holds the given strings, each of them once. -/
structure ListsOnce (d : Dictionary) (entries : List Bytes) : Prop extends d.Lists entries where
  nodup : entries.Nodup

theorem listsOnce_empty : empty.ListsOnce [] := ⟨lists_empty, List.nodup_nil⟩

theorem ListsOnce.addString (h : d.ListsOnce entries) {value : Bytes} (hv : (0 : UInt8) ∉ value) :
    ∃ more, (d.addString value).ListsOnce (entries ++ more) ∧ value ∈ entries ++ more := by
  have hlists := h.toLists.addString hv
  by_cases hmem : value ∈ entries
  · rw [if_pos hmem] at hlists
    exact ⟨[], by rw [List.append_nil]; exact ⟨hlists, h.nodup⟩,
      List.mem_append_left _ hmem⟩
  · rw [if_neg hmem] at hlists
    refine ⟨[value], ⟨hlists, ?_⟩, List.mem_append_right _ List.mem_cons_self⟩
    rw [List.nodup_append]
    refine ⟨h.nodup, List.nodup_singleton value, fun s hs t ht => ?_⟩
    rw [List.mem_singleton.1 ht]
    exact fun heq => hmem (heq ▸ hs)

theorem ListsOnce.add (h : d.ListsOnce entries) {eid : EID} (hs : (0 : UInt8) ∉ eid.scheme)
    (hp : (0 : UInt8) ∉ eid.ssp) :
    ∃ more, (d.add eid).ListsOnce (entries ++ more) ∧ Holds (entries ++ more) eid := by
  obtain ⟨more, hscheme, hmem⟩ := h.addString hs
  obtain ⟨more', hssp, hmem'⟩ := hscheme.addString hp
  rw [List.append_assoc] at hssp hmem'
  refine ⟨more ++ more', hssp, ?_, hmem'⟩
  rw [← List.append_assoc]
  exact List.mem_append_left _ hmem

/-- **Adding EIDs keeps the strings that are there**, stores every new one once, and holds all of
the EIDs. -/
theorem ListsOnce.addAll (h : d.ListsOnce entries) (eids : List EID)
    (hnul : ∀ e ∈ eids, (0 : UInt8) ∉ e.scheme ∧ (0 : UInt8) ∉ e.ssp) :
    ∃ more, (d.addAll eids).ListsOnce (entries ++ more) ∧
      ∀ e ∈ eids, Holds (entries ++ more) e := by
  induction eids generalizing d entries with
  | nil => exact ⟨[], by rwa [List.append_nil], by simp⟩
  | cons e eids ih =>
      obtain ⟨hs, hp⟩ := hnul e List.mem_cons_self
      obtain ⟨more, hadd, hold⟩ := h.add hs hp
      obtain ⟨more', hall, hholds⟩ := ih hadd fun e' he' => hnul e' (List.mem_cons_of_mem _ he')
      rw [List.append_assoc] at hall hholds
      refine ⟨more ++ more', hall, fun e' he' => ?_⟩
      rcases List.mem_cons.1 he' with rfl | he'
      · rw [← List.append_assoc]
        exact ⟨List.mem_append_left _ hold.1, List.mem_append_left _ hold.2⟩
      · exact hholds e' he'

/-- The offset of a string: the length of the strings before it. -/
theorem ListsOnce.get_eq (h : d.ListsOnce entries) {value : Bytes} (hmem : value ∈ entries) :
    d.get value = UInt64.ofNat (table (entries.takeWhile (· ≠ value))).length := by
  have hle := length_le_length_table entries
  have hpos : 0 < entries.length := List.length_pos_of_mem hmem
  obtain ⟨pre, post, heq, hloc⟩ := locate_of_mem h.nulFree hmem ((table entries).length + 1)
    ((table entries).length + 1) 0 (by omega) (by omega)
  have hnodup := h.nodup
  rw [heq, List.nodup_append] at hnodup
  have hpre : entries.takeWhile (· ≠ value) = pre := by
    rw [heq, List.takeWhile_append_of_pos fun s hs =>
      decide_eq_true (hnodup.2.2 s hs value List.mem_cons_self)]
    simp
  rw [get, h.bytes_eq, if_neg (by omega), hloc, Nat.zero_add, hpre]

/-- **References stay as they are** when strings are added. -/
theorem ListsOnce.get_of_append {d' : Dictionary} {more : List Bytes} (h : d.ListsOnce entries)
    (h' : d'.ListsOnce (entries ++ more)) {value : Bytes} (hmem : value ∈ entries) :
    d'.get value = d.get value := by
  have hne : (entries.takeWhile (· ≠ value)).length ≠ entries.length := by
    intro hlen
    have hself := (List.takeWhile_prefix _).eq_of_length hlen
    have hvalue := List.takeWhile_eq_self_iff.1 hself value hmem
    simp at hvalue
  rw [h.get_eq hmem, h'.get_eq (List.mem_append_left _ hmem), List.takeWhile_append, if_neg hne]

theorem good_addString (h : d.good = true) (value : Bytes) : (d.addString value).good = true := by
  rw [Dictionary.addString]
  split_ifs
  · exact h
  · rw [append, if_pos h]
    exact h

/-- Adding EIDs does not fail. -/
theorem good_addAll (h : d.good = true) (eids : List EID) : (d.addAll eids).good = true := by
  induction eids generalizing d with
  | nil => exact h
  | cons e eids ih => exact ih (good_addString (good_addString h _) _)

/-- **The references of a dictionary that EIDs were added to**: whatever is added later, the
reference to an EID stays the same and leads back to it, in this dictionary and in every one that
is read from what it writes; every string is stored once; and the bytes behind the length are as
many as it says. -/
theorem resolves_addAll (eids more : List EID)
    (hname : ∀ e ∈ eids ++ more, Nameable e ∧ e.Unblanked)
    (hsize : ((eids ++ more).map sizeOf).sum < 2 ^ 64) (others : List EID) :
    let d := empty.addAll eids
    let d' := d.addAll more
    (∀ e ∈ eids, d'.getRef e = d.getRef e ∧
      (d.getEID (d.getRef e).1 (d.getRef e).2).1 = e ∧
      (d'.getEID (d.getRef e).1 (d.getRef e).2).1 = e ∧
      ∃ d'', (read (empty.addAll others)).Reads d'.write.1 d'' ∧
        (d''.getEID (d.getRef e).1 (d.getRef e).2).1 = e) ∧
    (∃ entries, d'.bytes = table entries ∧ (∀ s ∈ entries, (0 : UInt8) ∉ s) ∧ entries.Nodup) ∧
    ∃ bs, d'.write.1 = SDNV.write d'.getSize ++ bs ∧ d'.getSize.toNat = bs.length := by
  intro d d'
  have hnul : ∀ e ∈ eids ++ more, (0 : UInt8) ∉ e.scheme ∧ (0 : UInt8) ∉ e.ssp :=
    fun e he => ⟨(hname e he).1.scheme_nulFree, (hname e he).1.ssp_nulFree⟩
  obtain ⟨entries, hd, hold⟩ := listsOnce_empty.addAll eids
    fun e he => hnul e (List.mem_append_left _ he)
  obtain ⟨entries', hd', -⟩ := hd.addAll more
    fun e he => hnul e (List.mem_append_right _ he)
  rw [List.nil_append] at hd hd' hold
  have hlen' : d'.bytes.length < 2 ^ 64 := by
    have hall : d' = empty.addAll (eids ++ more) := (List.foldl_append ..).symm
    rw [hall]
    exact ((length_addAll_le _ _).trans_eq (Nat.zero_add _)).trans_lt hsize
  have hlen : d.bytes.length < 2 ^ 64 := by
    refine lt_of_le_of_lt ?_ hlen'
    rw [hd.bytes_eq, hd'.bytes_eq, table_append, List.length_append]
    exact Nat.le_add_right _ _
  have hpos : d'.gpos = 0 := (gpos_addAll _ _).trans (gpos_addAll _ _)
  have hsize' : d'.getSize.toNat = d'.bytes.length := EID.toNat_ofNat_of_lt hlen'
  refine ⟨fun e he => ?_, ⟨_, hd'.bytes_eq, hd'.nulFree, hd'.nodup⟩, d'.bytes, ?_, hsize'⟩
  · obtain ⟨hnameable, hblank⟩ := hname e (List.mem_append_left _ he)
    have hself : e.trimmed = e := EID.trimmed_eq_self hblank
    have hholds := hold e he
    have hholds' : Holds (entries ++ entries') e :=
      ⟨List.mem_append_left _ hholds.1, List.mem_append_left _ hholds.2⟩
    have href : d'.getRef e = d.getRef e := by
      rw [getRef, getRef, hd.get_of_append hd' hholds.1, hd.get_of_append hd' hholds.2]
    obtain ⟨_, hget, -⟩ := hd.toLists.getEID_getRef hlen hholds hnameable
    obtain ⟨_, hget', -⟩ := hd'.toLists.getEID_getRef hlen' hholds' hnameable
    refine ⟨href, ?_, ?_, ⟨d'.bytes, 0, false, false⟩, ?_, ?_⟩
    · rw [hget, hself]
    · rw [← href, hget', hself]
    · refine reads_read hpos hlen' ?_ (good_addAll rfl others)
      rw [hd'.bytes_eq]
      intro hnil
      have hle := length_le_length_table (entries ++ entries')
      rw [hnil] at hle
      have hmem := List.length_pos_of_mem hholds'.1
      exact absurd hle (not_le.2 hmem)
    · have hread : (⟨d'.bytes, 0, false, false⟩ : Dictionary).Lists (entries ++ entries') :=
        ⟨hd'.bytes_eq, hd'.nulFree, rfl, rfl⟩
      obtain ⟨_, hget'', -⟩ := hread.getEID_getRef hlen' hholds' hnameable
      have href' : (⟨d'.bytes, 0, false, false⟩ : Dictionary).getRef e = d'.getRef e := rfl
      rw [← href, ← href', hget'', hself]
  · rw [write, hpos, List.drop_zero]

/-- Two EIDs with one scheme, of which the second is added later. -/
theorem resolves_addAll_sample :
    let d := empty.addAll [⟨EID.defaultScheme, ascii ['/', '/', 'a']⟩]
    let d' := d.addAll [⟨EID.defaultScheme, ascii ['/', '/', 'b']⟩]
    let ref := d.getRef ⟨EID.defaultScheme, ascii ['/', '/', 'a']⟩
    (d'.getEID ref.1 ref.2).1 = ⟨EID.defaultScheme, ascii ['/', '/', 'a']⟩ := by
  have hname : ∀ e ∈ [⟨EID.defaultScheme, ascii ['/', '/', 'a']⟩] ++
      [(⟨EID.defaultScheme, ascii ['/', '/', 'b']⟩ : EID)], Nameable e ∧ e.Unblanked := by
    intro e he
    simp only [List.singleton_append, List.mem_cons, List.not_mem_nil, or_false] at he
    rcases he with rfl | rfl
    all_goals
      refine ⟨by decide, fun b hb => ?_, fun b hb => ?_⟩ <;>
        simp only [EID.defaultScheme, ascii, List.map_cons, List.map_nil, List.head?_cons,
          List.getLast?_cons_cons, List.getLast?_singleton, Option.some.injEq] at hb <;>
        rcases hb with rfl | rfl <;> rfl
  exact ((resolves_addAll _ _ hname (by decide) []).1 _ List.mem_cons_self).2.2.1

/-! ### Reading without traces -/

/-- The operations that are meant to read a dictionary only. -/
inductive Reading where
  | getEID (scheme ssp : UInt64)
  | getRef (eid : EID)
  | contains (value : Bytes)
  | getSize
  | copy
  | assign (target : Dictionary)
  | write

/-- What an operation answers: a copy is answered by the copy, an assignment by its target. -/
inductive Answer where
  | eid (eid : EID)
  | ref (ref : UInt64 × UInt64)
  | found (found : Bool)
  | size (size : UInt64)
  | dictionary (copy : Dictionary)
  | written (bytes : Bytes)
deriving DecidableEq

/-- `Dictionary::operator=` on `target`, with the dictionary that is assigned to it. The insertion
of a string buffer does nothing if the stream of the target has failed. -/
def assign (target d : Dictionary) : Dictionary × Dictionary :=
  let target := target.clear
  if target.good then
    let bs := d.bytes.drop d.gpos
    ({ target with bytes := bs, fail := decide (bs = []) },
      { d with gpos := max d.gpos d.bytes.length })
  else ({ target with fail := true }, d)

/-- An operation: its answer, and what it makes of the dictionary. -/
def perform (d : Dictionary) : Reading → Answer × Dictionary
  | .getEID scheme ssp => (.eid (d.getEID scheme ssp).1, (d.getEID scheme ssp).2)
  | .getRef eid => (.ref (d.getRef eid), d)
  | .contains value => (.found (d.contains value), d)
  | .getSize => (.size d.getSize, d)
  | .copy => (.dictionary d.copy.1, d.copy.2)
  | .assign target => (.dictionary (target.assign d).1, (target.assign d).2)
  | .write => (.written d.write.1, d.write.2)

/-- The answers of one operation after the other. -/
def performs (d : Dictionary) : List Reading → List Answer
  | [] => []
  | r :: rs => (d.perform r).1 :: performs (d.perform r).2 rs

/-- A dictionary with the same bytes that was not read yet. -/
def fresh (d : Dictionary) : Dictionary := ⟨d.bytes, 0, false, false⟩

/-- An answer is no dictionary, or one that resolves every reference as `d` does. -/
def Answer.ResolvesAs (d : Dictionary) : Answer → Prop
  | .dictionary c => ∀ scheme ssp, (c.getEID scheme ssp).1 = (d.getEID scheme ssp).1
  | _ => True

/-- **No operation leaves a trace**: every one answers as if it were the first one on a fresh
dictionary, and copies resolve every reference like the original. -/
def Traceless (d : Dictionary) (rs : List Reading) : Prop :=
  d.performs rs = rs.map (fun r => (d.fresh.perform r).1) ∧
    ∀ a ∈ d.performs rs, a.ResolvesAs d.fresh

/-- The string that is extracted at an offset of a stream that has not failed. -/
def part (bs : Bytes) (pos : UInt64) : Bytes :=
  if pos.toNat ≤ bs.length then ((bs.drop pos.toNat).take 1023).takeWhile (· ≠ 0) else []

/-- The read position does not matter: it is at the start, or there is nothing to read. -/
def Rewound (d : Dictionary) : Prop := d.gpos = 0 ∨ d.bytes = []

/-- The operation finds no trace: a lookup, of a failed extraction before it, if there is a string
at its first offset; a copy, an assignment and a writing, of a moved read position. An assignment
also finds the state of the stream of its target, which does not matter if there are no
strings. -/
def Untraced (d : Dictionary) : Reading → Prop
  | .getEID scheme _ => d.fail = false ∨ part d.bytes scheme = []
  | .getRef _ | .contains _ | .getSize => True
  | .copy | .write => d.Rewound
  | .assign target =>
      if target.good then d.Rewound else ∀ pos, part d.bytes pos = []

/-- All operations find no trace. -/
def AllUntraced (d : Dictionary) : List Reading → Prop
  | [] => True
  | r :: rs => d.Untraced r ∧ AllUntraced (d.perform r).2 rs

/-! ### What an operation answers -/

/-- What is extracted at an offset, and the state of the stream behind it. -/
theorem getBuffer_seekg_eq (d : Dictionary) (pos : UInt64) :
    (d.seekg pos).getBuffer.1 = (if d.fail then [] else part d.bytes pos) ∧
      (d.seekg pos).getBuffer.2.bytes = d.bytes ∧
      (d.seekg pos).getBuffer.2.fail = (d.fail || decide (part d.bytes pos = [])) := by
  obtain ⟨bytes, gpos, eof, fail⟩ := d
  cases fail with
  | true => exact ⟨rfl, rfl, rfl⟩
  | false =>
      by_cases hpos : pos.toNat ≤ bytes.length
      · have hseek : (⟨bytes, gpos, eof, false⟩ : Dictionary).seekg pos =
            ⟨bytes, pos.toNat, false, false⟩ := by
          simp only [seekg, Bool.false_eq_true, if_false, if_pos hpos]
        simp only [hseek, part, if_pos hpos]
        exact ⟨rfl, rfl, rfl⟩
      · have hseek : (⟨bytes, gpos, eof, false⟩ : Dictionary).seekg pos =
            ⟨bytes, gpos, false, true⟩ := by
          simp only [seekg, Bool.false_eq_true, if_false, if_neg hpos]
        simp only [hseek, part, if_neg hpos]
        exact ⟨rfl, rfl, rfl⟩

/-- **What a lookup answers**: it fails for good where no string is extracted. -/
theorem getEID_fst (d : Dictionary) (scheme ssp : UInt64) :
    (d.getEID scheme ssp).1 =
      if d.fail ∨ part d.bytes scheme = [] then EID.ofParts [] []
      else EID.ofParts (part d.bytes scheme) (part d.bytes ssp) := by
  obtain ⟨hfirst, hbytes, hfail⟩ := getBuffer_seekg_eq d scheme
  obtain ⟨hsecond, -, -⟩ := getBuffer_seekg_eq (d.seekg scheme).getBuffer.2 ssp
  have hget : (d.getEID scheme ssp).1 = EID.ofParts (d.seekg scheme).getBuffer.1
      ((d.seekg scheme).getBuffer.2.seekg ssp).getBuffer.1 := rfl
  rw [hget, hfirst, hsecond, hbytes, hfail]
  cases d.fail with
  | true => simp
  | false =>
      by_cases hpart : part d.bytes scheme = []
      · simp [hpart]
      · simp [hpart]

theorem getEID_snd_bytes (d : Dictionary) (scheme ssp : UInt64) :
    (d.getEID scheme ssp).2.bytes = d.bytes :=
  (getBuffer_seekg_eq _ ssp).2.1.trans (getBuffer_seekg_eq d scheme).2.1

/-- No operation changes the bytes. -/
theorem bytes_perform (d : Dictionary) (r : Reading) : (d.perform r).2.bytes = d.bytes := by
  cases r with
  | getEID scheme ssp => exact getEID_snd_bytes d scheme ssp
  | getRef eid => rfl
  | contains value => rfl
  | getSize => rfl
  | copy => rfl
  | assign target =>
      rw [perform, assign]
      dsimp only
      split_ifs <;> rfl
  | write => rfl

theorem fresh_perform (d : Dictionary) (r : Reading) : (d.perform r).2.fresh = d.fresh := by
  rw [fresh, fresh, bytes_perform]

/-- Only the empty string is trimmed to the empty string. -/
theorem trim_eq_nil_iff {str : Bytes} : Utils.trim str = [] ↔ str = [] := by
  refine ⟨fun h => ?_, fun h => by rw [h]; rfl⟩
  by_contra hne
  have hall : str.all Utils.isBlank = false := by
    by_contra hall
    rw [Bool.not_eq_false] at hall
    rw [Utils.trim, Utils.ltrim, if_pos hall, Utils.rtrim, if_pos hall] at h
    exact hne h
  rw [Utils.trim_of_not_all hall] at h
  have hblank : (str.dropWhile Utils.isBlank).all Utils.isBlank = true := by
    rw [List.all_eq_true]
    exact List.rdropWhile_eq_nil_iff.1 h
  have hdrop : str.dropWhile Utils.isBlank ≠ [] := by
    rw [Ne, List.dropWhile_eq_nil_iff, ← List.all_eq_true, hall]
    exact Bool.false_ne_true
  have hhead := List.head_dropWhile_not Utils.isBlank hdrop
  rw [List.all_eq_true.1 hblank _ (List.head_mem hdrop)] at hhead
  cases hhead

/-- A lookup that finds something does not answer as one that finds nothing. -/
theorem ofParts_ne {scheme : Bytes} (h : scheme ≠ []) (ssp : Bytes) :
    EID.ofParts scheme ssp ≠ EID.ofParts [] [] :=
  fun heq => h (trim_eq_nil_iff.1 (congrArg EID.scheme heq))

theorem drop_eq_self_iff (d : Dictionary) : d.bytes.drop d.gpos = d.bytes ↔ d.Rewound := by
  rw [Rewound]
  constructor
  · intro h
    have hlen := congrArg List.length h
    rw [List.length_drop] at hlen
    rw [← List.length_eq_zero_iff]
    omega
  · rintro (h | h)
    · rw [h, List.drop_zero]
    · rw [h, List.drop_nil]

theorem copy_fresh (d : Dictionary) :
    d.fresh.copy.1 = ⟨d.bytes, 0, false, decide (d.bytes = [])⟩ := rfl

/-- **A copy is one of a fresh dictionary** exactly if the read position does not matter. -/
theorem copy_eq_iff (d : Dictionary) : d.copy.1 = d.fresh.copy.1 ↔ d.Rewound := by
  rw [← drop_eq_self_iff, copy_fresh, copy]
  exact ⟨congrArg Dictionary.bytes, fun h => by rw [h]⟩

/-- A copy of a fresh dictionary resolves what the original resolves. -/
theorem resolvesAs_copy (d : Dictionary) :
    (Answer.dictionary d.fresh.copy.1).ResolvesAs d.fresh := by
  intro scheme ssp
  rw [copy_fresh, getEID_fst, getEID_fst]
  simp only [fresh]
  by_cases hnil : d.bytes = []
  · have hpart : part d.bytes scheme = [] := by
      rw [part, hnil, List.drop_nil]
      split_ifs <;> rfl
    simp [hpart]
  · simp [hnil]

/-- A target whose stream has not failed is assigned a copy. -/
theorem assign_of_good {target : Dictionary} (h : target.good = true) (d : Dictionary) :
    target.assign d = d.copy := by
  obtain ⟨bytes, gpos, eof, fail⟩ := target
  obtain ⟨rfl, rfl⟩ : eof = false ∧ fail = false := by simpa [Dictionary.good] using h
  rfl

/-- **The operations that answer as on a fresh dictionary** are those that find no trace. -/
theorem untraced_iff (d : Dictionary) (r : Reading) :
    ((d.perform r).1 = (d.fresh.perform r).1 ∧ (d.perform r).1.ResolvesAs d.fresh) ↔
      d.Untraced r := by
  cases r with
  | getEID scheme ssp =>
      have hfresh := getEID_fst d.fresh scheme ssp
      have hget := getEID_fst d scheme ssp
      simp only [perform, Answer.eid.injEq, Answer.ResolvesAs, and_true, Untraced, hget, hfresh]
      simp only [fresh, Bool.false_eq_true, false_or]
      cases d.fail with
      | false => simp
      | true =>
          by_cases hpart : part d.bytes scheme = []
          · simp [hpart]
          · simp [hpart, (ofParts_ne hpart _).symm]
  | getRef eid => exact iff_of_true ⟨rfl, trivial⟩ trivial
  | contains value => exact iff_of_true ⟨rfl, trivial⟩ trivial
  | getSize => exact iff_of_true ⟨rfl, trivial⟩ trivial
  | copy =>
      simp only [perform, Answer.dictionary.injEq, copy_eq_iff, Untraced]
      refine ⟨And.left, fun h => ⟨h, ?_⟩⟩
      rw [(copy_eq_iff d).2 h]
      exact resolvesAs_copy d
  | assign target =>
      rw [Untraced]
      split_ifs with hgood
      · simp only [perform, assign_of_good hgood, Answer.dictionary.injEq, copy_eq_iff]
        refine ⟨And.left, fun h => ⟨h, ?_⟩⟩
        rw [(copy_eq_iff d).2 h]
        exact resolvesAs_copy d
      · -- Nothing is inserted into the target, so it resolves nothing.
        have hclear : ¬ target.clear.good = true := hgood
        have hassign (d : Dictionary) :
            (target.assign d).1 = { target.clear with fail := true } := by
          simp only [assign, if_neg hclear]
        simp only [perform, hassign, true_and, Answer.ResolvesAs, getEID_fst, true_or, if_true]
        simp only [fresh, Bool.false_eq_true, false_or]
        constructor
        · intro h pos
          by_contra hpart
          have heq := h pos pos
          rw [if_neg hpart] at heq
          exact ofParts_ne hpart _ heq.symm
        · intro h scheme ssp
          rw [if_pos (h scheme)]
  | write =>
      have hwrite : d.write.1 = SDNV.write d.getSize ++ d.bytes.drop d.gpos := rfl
      have hfresh : d.fresh.write.1 = SDNV.write d.getSize ++ d.bytes := rfl
      simp only [perform, Answer.written.injEq, hwrite, hfresh, Answer.ResolvesAs, and_true,
        Untraced, List.append_right_inj, drop_eq_self_iff]

/-- **The sequences of reading operations that leave no trace** are those in which every operation
finds none. -/
theorem traceless_iff (d : Dictionary) (rs : List Reading) :
    d.Traceless rs ↔ d.AllUntraced rs := by
  induction rs generalizing d with
  | nil => exact iff_of_true ⟨rfl, by simp [performs]⟩ trivial
  | cons r rs ih =>
      have ih := ih (d.perform r).2
      rw [Traceless, fresh_perform] at ih
      rw [AllUntraced, ← untraced_iff, ← ih, Traceless, performs, List.map_cons, List.cons.injEq,
        List.forall_mem_cons]
      tauto

/-- A dictionary that was read before it is written, and one in which a lookup failed before the
next one. -/
theorem not_traceless :
    ¬ Traceless ⟨ascii ['d', 't', 'n'] ++ 0 :: ascii ['/', '/', 'a'] ++ [0], 0, false, false⟩
        [.getEID 0 4, .write] ∧
      ¬ Traceless ⟨ascii ['d', 't', 'n'] ++ 0 :: ascii ['/', '/', 'a'] ++ [0], 0, false, false⟩
        [.getEID 9 0, .getEID 0 4] :=
  ⟨fun h => absurd h.1 (by decide), fun h => absurd h.1 (by decide)⟩

end Dictionary

end IbrDtn
