import IbrDtn.Data.Eid

/-!
# Dictionaries

This file models `ibrdtn/data/Dictionary.cpp`: the string table of a bundle header, held in a
`std::stringstream`.  Every string is followed by a NUL byte, and EIDs are named by the offsets
of their two parts.  The read position and the state bits of the string stream are part of the
model, since `get` seeks and extracts, and an extraction of nothing sets the failure bit for good.

## Main definitions

* `Dictionary` : the bytes of the table with the read position and the state bits.
* `Dictionary.add`, `Dictionary.getRef`, `Dictionary.getEID` : building the table and naming
  EIDs in it.
* `Dictionary.write`, `Dictionary.read` : the stream operators.
* `Dictionary.Lists` : the abstract view, a list of NUL-free strings.

## Main results

* `Dictionary.Lists.add` : adding keeps the view, and appends the string if it is new.
* `Dictionary.reads_read` : reading inverts writing.
* `Dictionary.Lists.getEID_getRef` : the offsets of an EID lead back to it.
-/

namespace IbrDtn

/-- `class Dictionary`: the contents of `_bytestream`, its read position and its state bits. -/
structure Dictionary where
  bytes : Bytes
  gpos : ℕ
  eof : Bool
  fail : Bool
deriving DecidableEq, Repr

namespace Dictionary

/-- `Dictionary::Dictionary()`. -/
def empty : Dictionary := ⟨[], 0, false, false⟩

/-- `_bytestream.good()`. -/
def good (d : Dictionary) : Bool := !d.eof && !d.fail

/-- `_bytestream.str("")`: the state bits stay as they are. -/
def clear (d : Dictionary) : Dictionary := { d with bytes := [], gpos := 0 }

/-- An insertion into `_bytestream`. -/
def append (d : Dictionary) (bs : Bytes) : Dictionary :=
  if d.good then { d with bytes := d.bytes ++ bs } else { d with fail := true }

/-- `Dictionary::getSize`. -/
def getSize (d : Dictionary) : UInt64 := UInt64.ofNat d.bytes.length

/-- `std::string::npos`. -/
def npos : UInt64 := 0xffffffffffffffff

/-- The common loop of `Dictionary::get` and `Dictionary::exists`: the offset of the first string
equal to `value` at a position before `byteend`, where `rest` are the bytes from `bytepos` on. -/
def locate (value : Bytes) (byteend : ℕ) : ℕ → ℕ → Bytes → Option ℕ
  | 0, _, _ => none
  | fuel + 1, bytepos, rest =>
      if bytepos < byteend then
        let dictstr := rest.takeWhile (· ≠ 0)
        if dictstr = value then some bytepos
        else locate value byteend fuel (bytepos + (dictstr.length + 1))
          (rest.drop (dictstr.length + 1))
      else none

/-- `Dictionary::get(const std::string)`: the offset of a string, or `npos`. The loop goes one
byte further than that of `exists`, to the NUL that ends `c_str()`. -/
def get (d : Dictionary) (value : Bytes) : UInt64 :=
  if d.bytes.length = 0 then npos
  else
    match locate value (d.bytes.length + 1) (d.bytes.length + 1) 0 d.bytes with
    | some pos => UInt64.ofNat pos
    | none => npos

/-- `Dictionary::exists`. -/
def contains (d : Dictionary) (value : Bytes) : Bool :=
  if d.bytes.length = 0 then false
  else (locate value d.bytes.length d.bytes.length 0 d.bytes).isSome

/-- `Dictionary::add(const std::string)`. -/
def addString (d : Dictionary) (value : Bytes) : Dictionary :=
  if d.contains value then d else d.append (value ++ [0])

/-- `Dictionary::add(const EID&)`. -/
def add (d : Dictionary) (eid : EID) : Dictionary :=
  (d.addString eid.scheme).addString eid.ssp

/-- `Dictionary::add(const list<EID>&)`. -/
def addAll (d : Dictionary) (eids : List EID) : Dictionary :=
  eids.foldl add d

/-- `Dictionary::getRef`. -/
def getRef (d : Dictionary) (eid : EID) : UInt64 × UInt64 :=
  (d.get eid.scheme, d.get eid.ssp)

/-- `_bytestream.seekg(pos)`. -/
def seekg (d : Dictionary) (pos : UInt64) : Dictionary :=
  let d := { d with eof := false }
  if d.fail then d
  else if pos.toNat ≤ d.bytes.length then { d with gpos := pos.toNat }
  else { d with fail := true }

/-- `_bytestream.get(buffer, 1024, '\0')`: at most 1023 bytes up to the next NUL. -/
def getBuffer (d : Dictionary) : Bytes × Dictionary :=
  if d.good then
    let rest := d.bytes.drop d.gpos
    let buffer := (rest.take 1023).takeWhile (· ≠ 0)
    (buffer, { d with
      gpos := d.gpos + buffer.length
      eof := decide (rest.length = buffer.length ∧ buffer.length < 1023)
      fail := decide (buffer = []) })
  else ([], { d with fail := true })

/-- `Dictionary::get(size_t scheme, size_t ssp)`. -/
def getEID (d : Dictionary) (scheme ssp : UInt64) : EID × Dictionary :=
  let (schemeStr, d) := (d.seekg scheme).getBuffer
  let (sspStr, d) := (d.seekg ssp).getBuffer
  (EID.ofParts schemeStr sspStr, d)

/-- `Dictionary::Dictionary(const Dictionary&)`: the bytes from the read position on are copied,
and the read position of the original moves to its end. Copying nothing fails the copy. -/
def copy (d : Dictionary) : Dictionary × Dictionary :=
  let bs := d.bytes.drop d.gpos
  (⟨bs, 0, false, decide (bs = [])⟩, { d with gpos := max d.gpos d.bytes.length })

/-- `operator<<(std::ostream&, const Dictionary&)`: the size, then the bytes from the read
position on, which moves to the end. -/
def write (d : Dictionary) : Bytes × Dictionary :=
  (SDNV.write d.getSize ++ d.bytes.drop d.gpos, { d with gpos := max d.gpos d.bytes.length })

/-- `operator>>(std::istream&, Dictionary&)`. -/
def read (d : Dictionary) : Parser Exn Dictionary := do
  let length ← SDNV.read
  if length.toNat ≤ 0 then throw (.invalidData "Dictionary size is zero!")
  let d := d.clear
  let data ← Parser.readBytes length.toNat
  pure (d.append data)

/-! ### The strings of a dictionary -/

/-- The bytes of a table of strings. -/
def table (entries : List Bytes) : Bytes :=
  entries.flatMap fun s => s ++ [0]

@[simp] theorem table_nil : table [] = [] := rfl

@[simp] theorem table_cons (s : Bytes) (entries : List Bytes) :
    table (s :: entries) = s ++ 0 :: table entries := by
  simp [table]

@[simp] theorem table_append (xs ys : List Bytes) : table (xs ++ ys) = table xs ++ table ys := by
  simp [table]

/-- The number of bytes that the strings of an EID take up at most. -/
def sizeOf (eid : EID) : ℕ := eid.scheme.length + eid.ssp.length + 2

theorem length_addString_le (d : Dictionary) (value : Bytes) :
    (d.addString value).bytes.length ≤ d.bytes.length + (value.length + 1) := by
  rw [addString, append]
  split_ifs
  · omega
  · simp only [List.length_append, List.length_singleton, le_refl]
  · exact Nat.le_add_right _ _

theorem length_add_le (d : Dictionary) (eid : EID) :
    (d.add eid).bytes.length ≤ d.bytes.length + sizeOf eid := by
  have hscheme := length_addString_le d eid.scheme
  have hssp := length_addString_le (d.addString eid.scheme) eid.ssp
  rw [add, sizeOf]
  omega

theorem length_addAll_le (d : Dictionary) (eids : List EID) :
    (d.addAll eids).bytes.length ≤ d.bytes.length + (eids.map sizeOf).sum := by
  induction eids generalizing d with
  | nil => exact le_rfl
  | cons e eids ih =>
      have hadd := length_add_le d e
      have htail := ih (d.add e)
      rw [List.map_cons, List.sum_cons]
      exact htail.trans (by omega)

theorem length_le_length_table (entries : List Bytes) :
    entries.length ≤ (table entries).length := by
  induction entries with
  | nil => exact le_rfl
  | cons s entries ih =>
      rw [table_cons, List.length_cons, List.length_append, List.length_cons]
      omega

/-- The dictionary is in a good state and holds the given NUL-free strings, each followed by a
NUL byte, with the read position at `gpos`. -/
structure Lists (d : Dictionary) (entries : List Bytes) : Prop where
  bytes_eq : d.bytes = table entries
  nulFree : ∀ s ∈ entries, (0 : UInt8) ∉ s
  eof_eq : d.eof = false
  fail_eq : d.fail = false

theorem Lists.good {d : Dictionary} {entries : List Bytes} (h : d.Lists entries) :
    d.good = true := by
  rw [Dictionary.good, h.eof_eq, h.fail_eq]
  rfl

theorem lists_empty : empty.Lists [] :=
  ⟨rfl, by simp, rfl, rfl⟩

theorem takeWhile_nul {s : Bytes} (h : (0 : UInt8) ∉ s) (r : Bytes) :
    (s ++ 0 :: r).takeWhile (· ≠ 0) = s := by
  rw [List.takeWhile_append_of_pos (fun b hb => decide_eq_true (ne_of_mem_of_not_mem hb h))]
  simp

theorem takeWhile_nulFree {s : Bytes} (h : (0 : UInt8) ∉ s) : s.takeWhile (· ≠ 0) = s := by
  rw [List.takeWhile_eq_self_iff]
  exact fun b hb => decide_eq_true (ne_of_mem_of_not_mem hb h)

/-- One turn of the loop on a table of NUL-free strings. -/
theorem locate_cons {s : Bytes} (hs : (0 : UInt8) ∉ s) (value : Bytes) {byteend fuel pos : ℕ}
    (hpos : pos < byteend) (r : Bytes) :
    locate value byteend (fuel + 1) pos (s ++ 0 :: r) =
      if s = value then some pos else locate value byteend fuel (pos + (s.length + 1)) r := by
  rw [locate, if_pos hpos]
  simp only [takeWhile_nul hs]
  have hdrop : (s ++ 0 :: r).drop (s.length + 1) = r := by
    rw [List.drop_append]
    simp
  rw [hdrop]

/-- The loop finds the first occurrence of a string in a table that lies before `byteend`. -/
theorem locate_of_mem {value : Bytes} {entries : List Bytes}
    (hnul : ∀ s ∈ entries, (0 : UInt8) ∉ s) (hmem : value ∈ entries) (byteend fuel pos : ℕ)
    (hend : pos + (table entries).length ≤ byteend) (hfuel : entries.length ≤ fuel) :
    ∃ pre post, entries = pre ++ value :: post ∧
      locate value byteend fuel pos (table entries) = some (pos + (table pre).length) := by
  induction entries generalizing fuel pos with
  | nil => exact absurd hmem List.not_mem_nil
  | cons s entries ih =>
      rw [table_cons, List.length_append, List.length_cons] at hend
      obtain ⟨fuel, rfl⟩ : ∃ k, fuel = k + 1 := ⟨fuel - 1, by simp at hfuel; omega⟩
      rw [table_cons, locate_cons (hnul s List.mem_cons_self) value (by omega)]
      by_cases hs : s = value
      · subst hs
        exact ⟨[], entries, rfl, by simp⟩
      · have hmem' : value ∈ entries := by
          rcases List.mem_cons.1 hmem with h | h
          · exact absurd h.symm hs
          · exact h
        obtain ⟨pre, post, heq, hloc⟩ := ih (fun t ht => hnul t (List.mem_cons_of_mem _ ht)) hmem'
          fuel (pos + (s.length + 1)) (by omega) (by simpa using hfuel)
        refine ⟨s :: pre, post, by rw [heq, List.cons_append], ?_⟩
        rw [if_neg hs, hloc, table_cons, List.length_append, List.length_cons]
        congr 1
        omega

/-- The loop finds nothing else. -/
theorem locate_of_notMem {value : Bytes} {entries : List Bytes}
    (hnul : ∀ s ∈ entries, (0 : UInt8) ∉ s) (hmem : value ∉ entries) (fuel pos : ℕ) :
    locate value (pos + (table entries).length) fuel pos (table entries) = none := by
  induction entries generalizing fuel pos with
  | nil => cases fuel <;> simp [locate]
  | cons s entries ih =>
      cases fuel with
      | zero => rfl
      | succ fuel =>
          have hs : s ≠ value := fun h => hmem (h ▸ List.mem_cons_self)
          have hlen : (table (s :: entries)).length = s.length + 1 + (table entries).length := by
            rw [table_cons, List.length_append, List.length_cons]
            omega
          rw [hlen, table_cons, locate_cons (hnul s List.mem_cons_self) value (by omega),
            if_neg hs, ← Nat.add_assoc]
          exact ih (fun t ht => hnul t (List.mem_cons_of_mem _ ht))
            (fun h => hmem (List.mem_cons_of_mem _ h)) fuel _

theorem Lists.contains_iff {d : Dictionary} {entries : List Bytes} (h : d.Lists entries)
    (value : Bytes) : d.contains value = true ↔ value ∈ entries := by
  have hlen := length_le_length_table entries
  rw [Dictionary.contains, h.bytes_eq]
  by_cases hmem : value ∈ entries
  · have hpos : 0 < entries.length := List.length_pos_of_mem hmem
    obtain ⟨pre, post, -, hloc⟩ := locate_of_mem h.nulFree hmem (table entries).length
      (table entries).length 0 (by omega) hlen
    rw [if_neg (by omega), hloc]
    simpa using hmem
  · have hloc := locate_of_notMem h.nulFree hmem (table entries).length 0
    rw [Nat.zero_add] at hloc
    rw [hloc]
    simp [hmem]

/-- **Adding a string keeps the table**, and appends the string if it is new. -/
theorem Lists.addString {d : Dictionary} {entries : List Bytes} (h : d.Lists entries)
    {value : Bytes} (hv : (0 : UInt8) ∉ value) :
    (d.addString value).Lists (if value ∈ entries then entries else entries ++ [value]) := by
  rw [Dictionary.addString]
  by_cases hmem : value ∈ entries
  · rw [if_pos ((h.contains_iff value).2 hmem), if_pos hmem]
    exact h
  · rw [if_neg (mt (h.contains_iff value).1 hmem), if_neg hmem, append, if_pos h.good]
    refine ⟨?_, ?_, h.eof_eq, h.fail_eq⟩
    · rw [h.bytes_eq, table_append, table_cons, table_nil]
    · intro s hs
      rcases List.mem_append.1 hs with hs | hs
      · exact h.nulFree s hs
      · rw [List.mem_singleton.1 hs]
        exact hv

theorem gpos_addString (d : Dictionary) (value : Bytes) : (d.addString value).gpos = d.gpos := by
  rw [Dictionary.addString, append]
  split_ifs <;> rfl

/-! ### The EIDs of a dictionary -/

/-- Both parts of the EID are strings of the table. -/
def Holds (entries : List Bytes) (eid : EID) : Prop :=
  eid.scheme ∈ entries ∧ eid.ssp ∈ entries

/-- The EIDs that a dictionary can name: nonempty NUL-free parts that fit the buffer of `get` and
that the constructor from two strings leaves alone. -/
structure Nameable (eid : EID) : Prop where
  scheme_ne : eid.scheme ≠ []
  ssp_ne : eid.ssp ≠ []
  scheme_nulFree : (0 : UInt8) ∉ eid.scheme
  ssp_nulFree : (0 : UInt8) ∉ eid.ssp
  scheme_lt : eid.scheme.length < 1024
  ssp_lt : eid.ssp.length < 1024

theorem nameable_iff (eid : EID) :
    Nameable eid ↔ eid.scheme ≠ [] ∧ eid.ssp ≠ [] ∧ (0 : UInt8) ∉ eid.scheme ∧
      (0 : UInt8) ∉ eid.ssp ∧ eid.scheme.length < 1024 ∧ eid.ssp.length < 1024 :=
  ⟨fun ⟨h₁, h₂, h₃, h₄, h₅, h₆⟩ => ⟨h₁, h₂, h₃, h₄, h₅, h₆⟩,
    fun ⟨h₁, h₂, h₃, h₄, h₅, h₆⟩ => ⟨h₁, h₂, h₃, h₄, h₅, h₆⟩⟩

instance (eid : EID) : Decidable (Nameable eid) := decidable_of_iff _ (nameable_iff eid).symm

/-- The table `d` after it was extended keeps every EID and holds the new one. -/
theorem Lists.add {d : Dictionary} {entries : List Bytes} (h : d.Lists entries) {eid : EID}
    (hs : (0 : UInt8) ∉ eid.scheme) (hp : (0 : UInt8) ∉ eid.ssp) :
    ∃ entries', (d.add eid).Lists entries' ∧ Holds entries' eid ∧ entries ⊆ entries' := by
  have h₁ := h.addString hs
  have h₂ := h₁.addString hp
  refine ⟨_, h₂, ⟨?_, ?_⟩, fun x hx => ?_⟩
  · grind
  · grind
  · grind

theorem gpos_add (d : Dictionary) (eid : EID) : (d.add eid).gpos = d.gpos := by
  rw [Dictionary.add, gpos_addString, gpos_addString]

theorem Lists.addAll {d : Dictionary} {entries : List Bytes} (h : d.Lists entries)
    {eids : List EID} (hs : ∀ e ∈ eids, (0 : UInt8) ∉ e.scheme ∧ (0 : UInt8) ∉ e.ssp) :
    ∃ entries', (d.addAll eids).Lists entries' ∧ (∀ e ∈ eids, Holds entries' e) ∧
      entries ⊆ entries' := by
  induction eids generalizing d entries with
  | nil => exact ⟨entries, h, by simp, List.Subset.refl _⟩
  | cons e eids ih =>
      obtain ⟨hes, hep⟩ := hs e List.mem_cons_self
      obtain ⟨entries₁, h₁, hold₁, hsub₁⟩ := h.add hes hep
      obtain ⟨entries₂, h₂, hold₂, hsub₂⟩ := ih h₁ fun e' he' => hs e' (List.mem_cons_of_mem _ he')
      refine ⟨entries₂, h₂, fun e' he' => ?_, List.Subset.trans hsub₁ hsub₂⟩
      rcases List.mem_cons.1 he' with rfl | he'
      · exact ⟨hsub₂ hold₁.1, hsub₂ hold₁.2⟩
      · exact hold₂ e' he'

theorem gpos_addAll (d : Dictionary) (eids : List EID) : (d.addAll eids).gpos = d.gpos := by
  induction eids generalizing d with
  | nil => rfl
  | cons e eids ih => exact (ih (d.add e)).trans (gpos_add d e)

/-- The offset of a string of the table: the bytes there are the string and its NUL. -/
theorem Lists.get_of_mem {d : Dictionary} {entries : List Bytes} (h : d.Lists entries)
    (hlen : d.bytes.length < 2 ^ 64) {value : Bytes} (hmem : value ∈ entries) :
    ∃ r, d.bytes.drop (d.get value).toNat = value ++ 0 :: r ∧
      (d.get value).toNat ≤ d.bytes.length := by
  have hle := length_le_length_table entries
  have hpos : 0 < entries.length := List.length_pos_of_mem hmem
  obtain ⟨pre, post, heq, hloc⟩ := locate_of_mem h.nulFree hmem ((table entries).length + 1)
    ((table entries).length + 1) 0 (by omega) (by omega)
  rw [Nat.zero_add] at hloc
  have hbytes : table entries = table pre ++ (value ++ 0 :: table post) := by
    rw [heq, table_append, table_cons]
  have hpre : (table pre).length ≤ (table entries).length := by
    rw [hbytes, List.length_append]
    omega
  have hget : d.get value = UInt64.ofNat (table pre).length := by
    rw [get, h.bytes_eq, if_neg (by omega), hloc]
  rw [h.bytes_eq] at hlen
  rw [hget, EID.toNat_ofNat_of_lt (by omega), h.bytes_eq]
  refine ⟨table post, ?_, hpre⟩
  rw [hbytes, List.drop_left]

/-- Extraction at the offset of a string of the table. -/
theorem Lists.getBuffer_seekg {d : Dictionary} {entries : List Bytes} (h : d.Lists entries)
    (hlen : d.bytes.length < 2 ^ 64) {value : Bytes} (hmem : value ∈ entries) (hne : value ≠ [])
    (hlt : value.length < 1024) :
    ∃ d', (d.seekg (d.get value)).getBuffer = (value, d') ∧ d'.Lists entries ∧
      d'.bytes = d.bytes := by
  obtain ⟨r, hdrop, hle⟩ := h.get_of_mem hlen hmem
  have hseek : d.seekg (d.get value) = { d with gpos := (d.get value).toNat } := by
    simp only [seekg, h.fail_eq, h.eof_eq, if_pos hle]
    rfl
  have hbuf : ((value ++ 0 :: r).take 1023).takeWhile (· ≠ 0) = value := by
    have hsplit : (value ++ 0 :: r).take 1023 = value ++ (0 :: r).take (1023 - value.length) := by
      rw [List.take_append, List.take_of_length_le (by omega)]
    rw [hsplit]
    cases 1023 - value.length with
    | zero =>
        rw [List.take_zero, List.append_nil]
        exact takeWhile_nulFree (h.nulFree value hmem)
    | succ n => exact takeWhile_nul (h.nulFree value hmem) _
  refine ⟨{ d with
    gpos := (d.get value).toNat + value.length
    eof := false
    fail := false }, ?_, ⟨h.bytes_eq, h.nulFree, rfl, rfl⟩, rfl⟩
  rw [hseek, getBuffer, if_pos (by exact h.good)]
  simp only [hdrop, hbuf]
  simp [hne]

/-- **The offsets of an EID lead back to it**, up to the trimming of the constructor. -/
theorem Lists.getEID_getRef {d : Dictionary} {entries : List Bytes} (h : d.Lists entries)
    (hlen : d.bytes.length < 2 ^ 64) {eid : EID} (hold : Holds entries eid)
    (hname : Nameable eid) :
    ∃ d', d.getEID (d.getRef eid).1 (d.getRef eid).2 = (eid.trimmed, d') ∧
      d'.Lists entries ∧ d'.bytes = d.bytes := by
  obtain ⟨d₁, hget₁, h₁, hb₁⟩ := h.getBuffer_seekg hlen hold.1 hname.scheme_ne hname.scheme_lt
  have href : d.get eid.ssp = d₁.get eid.ssp := by
    rw [get, get, hb₁]
  obtain ⟨d₂, hget₂, h₂, hb₂⟩ := h₁.getBuffer_seekg (hb₁ ▸ hlen) hold.2 hname.ssp_ne hname.ssp_lt
  refine ⟨d₂, ?_, h₂, hb₂.trans hb₁⟩
  simp only [getEID, getRef, hget₁, href, hget₂, EID.trimmed]

/-! ### The stream operators -/

/-- **Reading inverts writing**: a dictionary that was just built is read back with the same
strings. -/
theorem reads_read {d : Dictionary} (hpos : d.gpos = 0) (hlen : d.bytes.length < 2 ^ 64)
    (hne : d.bytes ≠ []) {d₀ : Dictionary} (h₀ : d₀.good = true) :
    (read d₀).Reads d.write.1 ⟨d.bytes, 0, false, false⟩ := by
  have hsize : d.getSize.toNat = d.bytes.length := EID.toNat_ofNat_of_lt hlen
  have hlen0 : ¬ d.bytes.length ≤ 0 := by
    rw [Nat.le_zero, List.length_eq_zero_iff]
    exact hne
  have hgood : d₀.eof = false ∧ d₀.fail = false := by
    simpa [Dictionary.good] using h₀
  rw [write, hpos, List.drop_zero]
  refine (SDNV.reads_read d.getSize).bind ?_
  rw [hsize, if_neg hlen0]
  have happ : d₀.clear.append d.bytes = ⟨d.bytes, 0, false, false⟩ := by
    simp [Dictionary.append, Dictionary.clear, Dictionary.good, hgood]
  rw [← happ]
  exact (Parser.reads_readBytes d.bytes).bind_pure

/-- A dictionary of size zero is refused. -/
theorem throws_read (d : Dictionary) :
    (read d).Throws (SDNV.write 0) (.invalidData "Dictionary size is zero!") := by
  refine (SDNV.reads_read 0).then_throws ?_
  exact (Parser.throws_throw _).bind _

end Dictionary

end IbrDtn
