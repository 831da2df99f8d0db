import IbrDtn.Net.DatagramService
import IbrDtn.Utils.Tokenize

/-!
# The addresses of services

This file models `Node::URI::decode` of `daemon/src/core/Node.cpp` and the functions `encode` and
`decode` of `daemon/src/net/UDPDatagramService.cpp` and `LOWPANDatagramService.cpp`.  A string of
parameters `key=value;` is taken apart with `Utils::tokenize`, which leaves empty parts out.  The
parts of a parameter are then taken by their positions: the first one of every parameter, and the
second one behind a key that is looked for.

## Main definitions

* `ServiceParameters.decode` : the loop over the parameters, for the keys that are looked for.
* `Node.URI.decode`, `UDPDatagramService.decode`, `LOWPANDatagramService.decode`.
* `ServiceParameters.Regular` : the parts that are looked for are there.
* `ServiceParameters.Plain` : the addresses that survive as a value.

## Main results

* `ServiceParameters.decode_eq_ok_iff` : the strings that are taken apart without harm.
* `ServiceParameters.inverts_iff` : the same for the three functions, and what `encode` and `decode`
  give back.
-/

namespace IbrDtn

open Utils (tokenize tokens tokenize_none)

namespace ServiceParameters

/-- `p[i]` of a vector, which is not checked. -/
def part (p : List Bytes) (i : ℕ) : Except Exn Bytes :=
  match p[i]? with
  | some t => .ok t
  | none => .error (.undefined "an element behind a vector")

/-- `tokenize(token, data)`. -/
def split (token data : Bytes) : Except Exn (List Bytes) :=
  match tokenize token data none with
  | .ok l => .ok l
  | .error (.outOfRange what) => .error (.exception what)

variable {σ : Type}

/-- A key that is looked for, and what its value does. -/
abbrev Key (σ : Type) := Bytes × (Bytes → σ → σ)

/-- `if (p[0].compare(key) == 0) { ... p[1] ... }`. -/
def compare (p : List Bytes) (s : σ) (key : Key σ) : Except Exn σ := do
  let name ← part p 0
  if name = key.1 then do
    let value ← part p 1
    pure (key.2 value s)
  else pure s

/-- The body of the loop, for a parameter. -/
def decodeParameter (keys : List (Key σ)) (s : σ) (param : Bytes) : Except Exn σ := do
  let p ← split (ascii ['=']) param
  keys.foldlM (compare p) s

/-- The loop over the parameters of a string. -/
def decode (keys : List (Key σ)) (data : Bytes) (s : σ) : Except Exn σ := do
  let parameters ← split (ascii [';']) data
  parameters.foldlM (decodeParameter keys) s

/-- The keys `ip` and `port`, for an address and a port. -/
def ipKeys : List (Key (Bytes × UInt32)) :=
  [(ascii ['i', 'p'], fun value s => (value, s.2)),
    (ascii ['p', 'o', 'r', 't'], fun value s => (s.1, UInt32.ofNat (Decimal.extract 32 value)))]

/-- The keys `addr` and `pan`, for a short address and the number of a network. -/
def lowpanKeys : List (Key (UInt16 × Int32)) :=
  [(ascii ['a', 'd', 'd', 'r'], fun value s => (UInt16.ofNat (Decimal.extract 16 value), s.2)),
    (ascii ['p', 'a', 'n'], fun value s => (s.1, Int32.ofInt (Decimal.extractSigned 31 value)))]

end ServiceParameters

open ServiceParameters

/-- `Node::URI::decode` of the value, with what the address and the port held. -/
def Node.URI.decode (value : Bytes) (s : Bytes × UInt32) : Except Exn (Bytes × UInt32) :=
  ServiceParameters.decode ipKeys value s

/-- `UDPDatagramService::decode`. -/
def UDPDatagramService.decode (identifier : Bytes) (s : Bytes × UInt32) :
    Except Exn (Bytes × UInt32) :=
  ServiceParameters.decode ipKeys identifier s

/-- `LOWPANDatagramService::decode`. -/
def LOWPANDatagramService.decode (identifier : Bytes) (s : UInt16 × Int32) :
    Except Exn (UInt16 × Int32) :=
  ServiceParameters.decode lowpanKeys identifier s

/-- `LOWPANDatagramService::encode`, also for a negative number of a network. -/
def LOWPANDatagramService.encodeInt (addr : UInt16) (panid : Int32) : Bytes :=
  ascii ['a', 'd', 'd', 'r', '='] ++ (Decimal.numeral addr.toNat ++
    (ascii [';', 'p', 'a', 'n', '='] ++ (Decimal.signedNumeral panid.toInt ++ ascii [';'])))

namespace ServiceParameters

/-! ### Which strings are taken apart -/

theorem split_eq (token data : Bytes) : split token data = .ok (tokens token data) := by
  rw [split, tokenize_none]

/-- The parts of a parameter that are looked for are there. -/
def Regular (keys : List Bytes) (data : Bytes) : Prop :=
  ∀ param ∈ tokens (ascii [';']) data,
    tokens (ascii ['=']) param ≠ [] ∧
      ((tokens (ascii ['=']) param).head?.any keys.contains = true →
        2 ≤ (tokens (ascii ['=']) param).length)

instance (keys : List Bytes) : DecidablePred (Regular keys) :=
  fun _ => inferInstanceAs (Decidable (∀ _ ∈ _, _))

variable {σ : Type} {keys : List (Key σ)}

theorem compare_nil (s : σ) (key : Key σ) :
    compare [] s key = .error (.undefined "an element behind a vector") := rfl

/-- A parameter that consists of its key has no value. -/
theorem foldlM_compare_singleton (name : Bytes) (s : σ) (keys : List (Key σ)) :
    (∃ r, keys.foldlM (compare [name]) s = .ok r) ↔ name ∉ keys.map Prod.fst := by
  induction keys generalizing s with
  | nil => exact iff_of_true ⟨s, rfl⟩ List.not_mem_nil
  | cons key keys ih =>
      rw [List.foldlM_cons, List.map_cons, List.mem_cons, not_or]
      by_cases h : name = key.1
      · have hcompare : compare [name] s key =
            .error (.undefined "an element behind a vector") := by
          rw [compare]
          change (if name = key.1 then _ else _) = _
          rw [if_pos h]
          rfl
        rw [hcompare]
        exact iff_of_false (fun ⟨r, hr⟩ => nomatch hr) fun hnot => hnot.1 h
      · have hcompare : compare [name] s key = .ok s := by
          rw [compare]
          change (if name = key.1 then _ else _) = _
          rw [if_neg h]
          rfl
        rw [hcompare, and_iff_right h]
        exact ih s

theorem exists_foldlM_compare (name value : Bytes) (rest : List Bytes) (s : σ)
    (keys : List (Key σ)) :
    ∃ r, keys.foldlM (compare (name :: value :: rest)) s = .ok r := by
  induction keys generalizing s with
  | nil => exact ⟨s, rfl⟩
  | cons key keys ih =>
      have hcompare : ∃ s', compare (name :: value :: rest) s key = .ok s' := by
        by_cases h : name = key.1
        · exact ⟨key.2 value s, by rw [compare]; exact if_pos h⟩
        · exact ⟨s, by rw [compare]; exact if_neg h⟩
      obtain ⟨s', hs'⟩ := hcompare
      rw [List.foldlM_cons, hs']
      exact ih s'

/-- **A parameter is decoded** if it has a first part, and a second one behind a key. -/
theorem exists_decodeParameter_iff (hkeys : keys ≠ []) (s : σ) (param : Bytes) :
    (∃ r, decodeParameter keys s param = .ok r) ↔
      tokens (ascii ['=']) param ≠ [] ∧
        ((tokens (ascii ['=']) param).head?.any (keys.map Prod.fst).contains = true →
          2 ≤ (tokens (ascii ['=']) param).length) := by
  rw [decodeParameter, split_eq]
  change (∃ r, keys.foldlM (compare (tokens (ascii ['=']) param)) s = .ok r) ↔ _
  cases tokens (ascii ['=']) param with
  | nil =>
      obtain ⟨key, keys, rfl⟩ := List.exists_cons_of_ne_nil hkeys
      rw [List.foldlM_cons, compare_nil]
      exact iff_of_false (fun ⟨r, hr⟩ => nomatch hr) fun h => h.1 rfl
  | cons name p =>
      cases p with
      | nil =>
          rw [foldlM_compare_singleton]
          simp
      | cons value p =>
          exact iff_of_true (exists_foldlM_compare name value p s keys)
            ⟨List.cons_ne_nil _ _, by simp⟩

/-- **A string is decoded** exactly when the parts that are looked for are there. -/
theorem decode_eq_ok_iff (hkeys : keys ≠ []) (data : Bytes) (s : σ) :
    (∃ r, decode keys data s = .ok r) ↔ Regular (keys.map Prod.fst) data := by
  rw [decode, split_eq, Regular]
  change (∃ r, (tokens (ascii [';']) data).foldlM (decodeParameter keys) s = .ok r) ↔ _
  generalize tokens (ascii [';']) data = params
  induction params generalizing s with
  | nil => exact iff_of_true ⟨s, rfl⟩ nofun
  | cons param params ih =>
      rw [List.foldlM_cons, List.forall_mem_cons, ← exists_decodeParameter_iff hkeys s param]
      cases hparam : decodeParameter keys s param with
      | error e =>
          exact iff_of_false (fun ⟨r, hr⟩ => nomatch hr) fun ⟨⟨r, hr⟩, _⟩ => nomatch hr
      | ok s' => exact (ih s').trans (and_iff_right ⟨s', rfl⟩).symm

/-! ### Encoding and decoding -/

/-- The value survives: it is not empty, and has no separator. -/
def Plain (value : Bytes) : Prop := value ≠ [] ∧ ∀ b ∈ value, b ≠ 0x3b ∧ b ≠ 0x3d

instance : DecidablePred Plain := fun _ => inferInstanceAs (Decidable (_ ∧ ∀ _ ∈ _, _))

theorem isDelimiter_semicolon (b : UInt8) :
    Utils.isDelimiter (ascii [';']) b = true ↔ b = 0x3b := by
  change [(0x3b : UInt8)].contains b = true ↔ b = 0x3b
  simp

theorem isDelimiter_equals (b : UInt8) : Utils.isDelimiter (ascii ['=']) b = true ↔ b = 0x3d := by
  change [(0x3d : UInt8)].contains b = true ↔ b = 0x3d
  simp

/-- The values of a parameter survive. -/
theorem plain_of_mem_tokens {param value : Bytes} (hparam : ∀ b ∈ param, b ≠ 0x3b)
    (h : value ∈ tokens (ascii ['=']) param) : Plain value := by
  obtain ⟨hne, hmem⟩ := List.mem_runs h
  refine ⟨hne, fun b hb => ⟨hparam b (hmem b hb).2, fun heq => ?_⟩⟩
  exact Bool.false_ne_true ((hmem b hb).1.symm.trans ((isDelimiter_equals b).2 heq))

theorem tokens_semicolon {w : Bytes} (hne : w ≠ []) (h : ∀ b ∈ w, b ≠ 0x3b) (rest : Bytes) :
    tokens (ascii [';']) (w ++ 0x3b :: rest) = w :: tokens (ascii [';']) rest :=
  List.runs_cons_append hne
    (fun b hb => Bool.eq_false_iff.2 (mt (isDelimiter_semicolon b).1 (h b hb))) rfl rest

/-- The bytes of a text that is written down are looked at one by one. -/
theorem plain_of_all {value : Bytes}
    (h : (!value.isEmpty && value.all fun b => b != 0x3b && b != 0x3d) = true) : Plain value := by
  simpa [Plain] using h

/-- The parts of a parameter with a key in front. -/
theorem tokens_equals {key : Bytes} (h : Plain key) (rest : Bytes) :
    tokens (ascii ['=']) (key ++ 0x3d :: rest) = key :: tokens (ascii ['=']) rest :=
  List.runs_cons_append h.1
    (fun b hb => Bool.eq_false_iff.2 (mt (isDelimiter_equals b).1 (h.2 b hb).2)) rfl rest

theorem tokens_plain {value : Bytes} (h : Plain value) : tokens (ascii ['=']) value = [value] :=
  List.runs_of_forall h.1
    fun b hb => Bool.eq_false_iff.2 (mt (isDelimiter_equals b).1 (h.2 b hb).2)

theorem plain_numeral (n : ℕ) : Plain (Decimal.numeral n) := by
  have hnum := Decimal.isNumeral_numeral n
  refine ⟨hnum.ne_nil, fun b hb => ?_⟩
  have hdigit := hnum.digits b hb
  constructor <;> rintro rfl <;> exact absurd hdigit (by decide)

theorem plain_signedNumeral (n : ℤ) : Plain (Decimal.signedNumeral n) := by
  rw [Decimal.signedNumeral]
  split_ifs
  · refine ⟨List.cons_ne_nil _ _, List.forall_mem_cons.2 ⟨by decide, (plain_numeral _).2⟩⟩
  · exact plain_numeral _

/-- **Two parameters with values that survive** are decoded one after the other. -/
theorem decode_two (k₁ k₂ : Key σ) {v₁ v₂ : Bytes} (hk : k₁.1 ≠ k₂.1) (hk₁ : Plain k₁.1)
    (hk₂ : Plain k₂.1) (hv₁ : Plain v₁) (hv₂ : Plain v₂) (s : σ) :
    decode [k₁, k₂] ((k₁.1 ++ 0x3d :: v₁) ++ 0x3b :: ((k₂.1 ++ 0x3d :: v₂) ++ [0x3b])) s =
      .ok (k₂.2 v₂ (k₁.2 v₁ s)) := by
  have hparam {k v : Bytes} (hk : Plain k) (hv : Plain v) :
      k ++ 0x3d :: v ≠ [] ∧ ∀ b ∈ k ++ 0x3d :: v, b ≠ 0x3b := by
    refine ⟨by simp, fun b hb => ?_⟩
    rcases List.mem_append.1 hb with hb | hb
    · exact (hk.2 b hb).1
    · rcases List.mem_cons.1 hb with rfl | hb
      · decide
      · exact (hv.2 b hb).1
  obtain ⟨hne₁, hmem₁⟩ := hparam hk₁ hv₁
  obtain ⟨hne₂, hmem₂⟩ := hparam hk₂ hv₂
  have hfirst : decodeParameter [k₁, k₂] s (k₁.1 ++ 0x3d :: v₁) = .ok (k₁.2 v₁ s) := by
    rw [decodeParameter, split_eq, tokens_equals hk₁, tokens_plain hv₁]
    change [k₁, k₂].foldlM (compare [k₁.1, v₁]) s = _
    have h₁ : compare [k₁.1, v₁] s k₁ = .ok (k₁.2 v₁ s) := if_pos rfl
    have h₂ : compare [k₁.1, v₁] (k₁.2 v₁ s) k₂ = .ok (k₁.2 v₁ s) := if_neg hk
    rw [List.foldlM_cons, h₁]
    change [k₂].foldlM (compare [k₁.1, v₁]) (k₁.2 v₁ s) = _
    rw [List.foldlM_cons, h₂]
    rfl
  have hsecond (s : σ) : decodeParameter [k₁, k₂] s (k₂.1 ++ 0x3d :: v₂) = .ok (k₂.2 v₂ s) := by
    rw [decodeParameter, split_eq, tokens_equals hk₂, tokens_plain hv₂]
    change [k₁, k₂].foldlM (compare [k₂.1, v₂]) s = _
    have h₁ : compare [k₂.1, v₂] s k₁ = .ok s := if_neg hk.symm
    have h₂ : compare [k₂.1, v₂] s k₂ = .ok (k₂.2 v₂ s) := if_pos rfl
    rw [List.foldlM_cons, h₁]
    change [k₂].foldlM (compare [k₂.1, v₂]) s = _
    rw [List.foldlM_cons, h₂]
    rfl
  rw [decode, split_eq, tokens_semicolon hne₁ hmem₁, tokens_semicolon hne₂ hmem₂]
  change [k₁.1 ++ 0x3d :: v₁, k₂.1 ++ 0x3d :: v₂].foldlM (decodeParameter [k₁, k₂]) s = _
  rw [List.foldlM_cons, hfirst]
  change [k₂.1 ++ 0x3d :: v₂].foldlM (decodeParameter [k₁, k₂]) (k₁.2 v₁ s) = _
  rw [List.foldlM_cons, hsecond]
  rfl

/-- What the steps of a fold keep holds behind it. -/
theorem foldlM_keeps {α : Type} {f : σ → α → Except Exn σ} {I : σ → Prop} {l : List α}
    (hf : ∀ a ∈ l, ∀ s s', I s → f s a = .ok s' → I s') {s s' : σ} (hs : I s)
    (h : l.foldlM f s = .ok s') : I s' := by
  induction l generalizing s with
  | nil =>
      obtain rfl := Except.ok.inj h
      exact hs
  | cons a l ih =>
      rw [List.foldlM_cons] at h
      cases ha : f s a with
      | error e =>
          rw [ha] at h
          cases h
      | ok s₁ =>
          rw [ha] at h
          exact ih (fun b hb => hf b (List.mem_cons_of_mem _ hb))
            (hf a List.mem_cons_self s s₁ hs ha) h

theorem compare_eq_ok {p : List Bytes} {s s' : σ} {key : Key σ} (h : compare p s key = .ok s') :
    s' = s ∨ ∃ value ∈ p, s' = key.2 value s := by
  cases p with
  | nil => cases h
  | cons name p =>
      by_cases hname : name = key.1
      · cases p with
        | nil =>
            rw [compare] at h
            change (if name = key.1 then _ else _) = _ at h
            rw [if_pos hname] at h
            cases h
        | cons value p =>
            have hcompare : compare (name :: value :: p) s key = .ok (key.2 value s) :=
              if_pos hname
            refine Or.inr ⟨value, by simp, ?_⟩
            exact (Except.ok.inj (hcompare.symm.trans h)).symm
      · have hcompare : compare (name :: p) s key = .ok s := if_neg hname
        exact Or.inl (Except.ok.inj (hcompare.symm.trans h)).symm

/-- Every address that a parameter assigns survives. -/
theorem plain_decodeParameter {param : Bytes} (hparam : ∀ b ∈ param, b ≠ 0x3b)
    {s s' : Bytes × UInt32} (hs : Plain s.1) (h : decodeParameter ipKeys s param = .ok s') :
    Plain s'.1 := by
  rw [decodeParameter, split_eq] at h
  refine foldlM_keeps (I := fun s : Bytes × UInt32 => Plain s.1)
    (fun key hkey s s' hs hcompare => ?_)
    hs h
  rcases compare_eq_ok hcompare with rfl | ⟨value, hvalue, rfl⟩
  · exact hs
  · rcases List.mem_cons.1 hkey with rfl | hkey
    · exact plain_of_mem_tokens hparam hvalue
    · obtain rfl := List.mem_singleton.1 hkey
      exact hs

/-- A parameter with an address in front assigns one that survives. -/
theorem plain_decodeParameter_ip {value : Bytes} (hvalue : ∀ b ∈ value, b ≠ 0x3b)
    {s s' : Bytes × UInt32}
    (h : decodeParameter ipKeys s (ascii ['i', 'p'] ++ 0x3d :: value) = .ok s') :
    Plain s'.1 := by
  rw [decodeParameter, split_eq, tokens_equals (plain_of_all rfl)] at h
  change ipKeys.foldlM (compare (ascii ['i', 'p'] :: tokens (ascii ['=']) value)) s = .ok s' at h
  cases hp : tokens (ascii ['=']) value with
  | nil =>
      rw [hp] at h
      cases h
  | cons address p =>
      rw [hp] at h
      obtain rfl := Except.ok.inj h
      exact plain_of_mem_tokens hvalue (by rw [hp]; exact List.mem_cons_self)

/-- **Every address that is decoded from an encoded one survives.** -/
theorem plain_decode_encode {address : Bytes} {port : ℕ} {s s' : Bytes × UInt32}
    (h : decode ipKeys (UDPDatagramService.encode address port) s = .ok s') : Plain s'.1 := by
  have hhead : Utils.isDelimiter (ascii [';']) 0x69 = false := rfl
  rw [decode, split_eq, UDPDatagramService.encode] at h
  generalize hrest : address ++ (ascii [';', 'p', 'o', 'r', 't', '='] ++
    (Decimal.numeral port ++ ascii [';'])) = rest at h
  have htokens : tokens (ascii [';']) (ascii ['i', 'p', '='] ++ rest) =
      (ascii ['i', 'p'] ++ 0x3d :: rest.takeWhile fun b => !Utils.isDelimiter (ascii [';']) b) ::
        tokens (ascii [';']) (rest.dropWhile fun b => !Utils.isDelimiter (ascii [';']) b) :=
    List.runs_of_head hhead
  rw [htokens] at h
  change List.foldlM (decodeParameter ipKeys) s (_ :: _) = .ok s' at h
  rw [List.foldlM_cons] at h
  have hvalue : ∀ b ∈ rest.takeWhile fun b => !Utils.isDelimiter (ascii [';']) b, b ≠ 0x3b := by
    rintro b hb rfl
    exact absurd (List.mem_takeWhile_imp hb) (by decide)
  cases hfirst : decodeParameter ipKeys s (ascii ['i', 'p'] ++ 0x3d ::
      rest.takeWhile fun b => !Utils.isDelimiter (ascii [';']) b) with
  | error e =>
      rw [hfirst] at h
      cases h
  | ok s₁ =>
      rw [hfirst] at h
      refine foldlM_keeps (I := fun s : Bytes × UInt32 => Plain s.1)
        (fun param hparam s s' hs hdecode => plain_decodeParameter (fun b hb heq => ?_) hs hdecode)
        (plain_decodeParameter_ip hvalue hfirst) h
      exact Bool.false_ne_true
        (((List.mem_runs hparam).2 b hb).1.symm.trans ((isDelimiter_semicolon b).2 heq))

/-- **An address and a port are given back** exactly when the address survives. -/
theorem decode_encode_ip_iff (address : Bytes) (port : UInt32) (s : Bytes × UInt32) :
    decode ipKeys (UDPDatagramService.encode address port.toNat) s = .ok (address, port) ↔
      Plain address := by
  refine ⟨fun h => plain_decode_encode h, fun h => ?_⟩
  have htwo := decode_two (ascii ['i', 'p'], fun value s => (value, s.2))
    (ascii ['p', 'o', 'r', 't'], fun value s =>
      (s.1, UInt32.ofNat (Decimal.extract 32 value))) (by decide) (plain_of_all rfl)
    (plain_of_all rfl) h (plain_numeral port.toNat) s
  have hport : UInt32.ofNat (Decimal.extract 32 (Decimal.numeral port.toNat)) = port := by
    rw [Decimal.extract_numeral port.toNat_lt, UInt32.ofNat_toNat]
  exact htwo.trans (congrArg Except.ok (Prod.ext rfl hport))

/-- **A short address and the number of a network are given back.** -/
theorem decode_encode_lowpan (addr : UInt16) (panid : Int32) (s : UInt16 × Int32) :
    decode lowpanKeys (LOWPANDatagramService.encodeInt addr panid) s = .ok (addr, panid) := by
  have htwo := decode_two
    (ascii ['a', 'd', 'd', 'r'], fun value (s : UInt16 × Int32) =>
      (UInt16.ofNat (Decimal.extract 16 value), s.2))
    (ascii ['p', 'a', 'n'], fun value s =>
      (s.1, Int32.ofInt (Decimal.extractSigned 31 value))) (by decide) (plain_of_all rfl)
    (plain_of_all rfl) (plain_numeral addr.toNat) (plain_signedNumeral panid.toInt) s
  have haddr : UInt16.ofNat (Decimal.extract 16 (Decimal.numeral addr.toNat)) = addr := by
    rw [Decimal.extract_numeral addr.toNat_lt, UInt16.ofNat_toNat]
  have hpanid :
      Int32.ofInt (Decimal.extractSigned 31 (Decimal.signedNumeral panid.toInt)) = panid := by
    rw [Decimal.extractSigned_signedNumeral panid.le_toInt panid.toInt_lt, Int32.ofInt_toInt]
  exact htwo.trans (congrArg Except.ok (Prod.ext haddr hpanid))

/-- **What the functions access and give back.** A string is taken apart without harm exactly when
every parameter has a first part, and a second one if the first is a key that is looked for. What
was encoded is given back exactly when the address is not empty and has no separator; short
addresses always are. -/
theorem inverts_iff (data : Bytes) :
    (∀ s, (∃ r, Node.URI.decode data s = .ok r) ↔
        Regular [ascii ['i', 'p'], ascii ['p', 'o', 'r', 't']] data) ∧
      (∀ s, (∃ r, UDPDatagramService.decode data s = .ok r) ↔
        Regular [ascii ['i', 'p'], ascii ['p', 'o', 'r', 't']] data) ∧
      (∀ s, (∃ r, LOWPANDatagramService.decode data s = .ok r) ↔
        Regular [ascii ['a', 'd', 'd', 'r'], ascii ['p', 'a', 'n']] data) ∧
      (∀ address (port : UInt32) s,
        Node.URI.decode (UDPDatagramService.encode address port.toNat) s = .ok (address, port) ↔
          Plain address) ∧
      (∀ address (port : UInt32) s,
        UDPDatagramService.decode (UDPDatagramService.encode address port.toNat) s =
          .ok (address, port) ↔ Plain address) ∧
      ∀ addr panid s, LOWPANDatagramService.decode (LOWPANDatagramService.encodeInt addr panid) s =
        .ok (addr, panid) :=
  ⟨decode_eq_ok_iff (List.cons_ne_nil _ _) data, decode_eq_ok_iff (List.cons_ne_nil _ _) data,
    decode_eq_ok_iff (List.cons_ne_nil _ _) data,
    decode_encode_ip_iff, decode_encode_ip_iff, decode_encode_lowpan⟩

/-- **A parameter without a value, and one without a key**, are read behind the end of a vector; an
address with a separator is not given back. -/
theorem not_inverts :
    UDPDatagramService.decode (ascii ['i', 'p', '=', ';']) ([], 0) =
        .error (.undefined "an element behind a vector") ∧
      Node.URI.decode (ascii ['=']) ([], 0) = .error (.undefined "an element behind a vector") ∧
      LOWPANDatagramService.decode (ascii ['p', 'a', 'n']) (0, 0) =
        .error (.undefined "an element behind a vector") ∧
      UDPDatagramService.decode (UDPDatagramService.encode (ascii ['a', '=', 'b']) 80) ([], 0) =
        .ok (ascii ['a'], 80) := by
  decide

end ServiceParameters

end IbrDtn
