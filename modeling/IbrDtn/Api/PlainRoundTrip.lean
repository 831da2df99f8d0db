import IbrDtn.Api.PlainSerializer
import IbrDtn.Data.EidText
import IbrDtn.Data.RoundTrip
import IbrDtn.Library.Base64

/-!
# Bundles that are read back from plain text

The text of a bundle is not read back as it was written in six cases.  An EID is another one than
its text denotes.  The fragment fields of a bundle that is no fragment are not written, and the
object that is read into has others.  A type without a factory is lost, as the plain extension block
that takes the payload keeps its own type.  A flag that the class of a block sets itself is on
afterwards, whether it was written or not.  Flags without a name are not written, and the one that
announces EIDs follows from them.  And a block of a known type that asks to be discarded is given up
behind its payload: it stays in the bundle, but if it is the last one, the reader looks for another.

## Main definitions

* `Bundle.Writable` : the bundles whose text has the lines that the serializer means.
* `Bundle.SurvivesText` : a bundle is read back.
* `Bundle.Kept` : the condition for that.

## Main results

* `PlainDeserializer.loads_readTurn` : a block is read, and what the loop makes of it.
* `PlainDeserializer.ofPlainText_of_ends`, `PlainDeserializer.ofPlainText_of_not_ends` : what is
  read from the text of a bundle.
* `Bundle.survivesText_iff` : which bundles are read back.
-/

namespace IbrDtn

open PlainSerializer (blockLines flagsText primaryLines)
open Block (addEID blockContainsEids discardIfNotProcessed lastBlock receiver withMark)
open Loader (Loads Fails loads_object loads_update loads_ofParser)
open TextLines (IsLine getline header line newline stripReturn)

/-! ### Lines -/

namespace PlainText

/-- A key ends where the colon is. -/
def IsKey (key : Bytes) : Prop := key ≠ [] ∧ (0x3a : UInt8) ∉ key ∧ newline ∉ key

instance : DecidablePred IsKey := fun _ => inferInstanceAs (Decidable (_ ∧ _))

/-- A value ends where the line does. -/
def IsValue (value : Bytes) : Prop := newline ∉ value ∧ value.getLast? ≠ some 0x0d

instance : DecidablePred IsValue := fun _ => inferInstanceAs (Decidable (_ ∧ _))

variable {key value : Bytes}

theorem stripReturn_field (hvalue : IsValue value) :
    stripReturn (field key value) = field key value := by
  refine TextLines.stripReturn_eq_self ?_
  rw [field, List.getLast?_append, List.getLast?_cons, List.getLast?_cons]
  cases h : value.getLast? with
  | none => simp
  | some b => simpa [h] using hvalue.2

theorem isLine_field (hkey : IsKey key) (hvalue : IsValue value) : IsLine (field key value) := by
  refine ⟨?_, ?_⟩
  · rw [field, List.mem_append, not_or]
    exact ⟨hkey.2.2, by simpa [newline] using hvalue.1⟩
  · rw [stripReturn_field hvalue, field]
    simp

/-- **A line is taken apart** at its first colon. -/
theorem splitHeader_field (hkey : IsKey key) :
    PlainDeserializer.splitHeader (field key value) = .ok [key, 0x20 :: value] := by
  have hcolon : Utils.isDelimiter [0x3a] 0x3a = true := rfl
  have hblank : Utils.isDelimiter [0x3a] 0x20 = false := rfl
  have hword : ∀ b ∈ key, Utils.isDelimiter [0x3a] b = false := fun b hb => by
    simpa [Utils.isDelimiter] using ne_of_mem_of_not_mem hb hkey.2.1
  have htokens : Utils.tokens [0x3a] (field key value) =
      key :: Utils.tokens [0x3a] (0x20 :: value) := List.runs_cons_append hkey.1 hword hcolon _
  have hrest : Utils.tokens [0x3a] (0x20 :: value) ≠ [] := by
    rw [Utils.tokens, List.runs_of_head hblank]
    exact List.cons_ne_nil _ _
  have hlen : 2 ≤ (Utils.tokens [0x3a] (field key value)).length := by
    rw [htokens, List.length_cons]
    exact Nat.succ_le_succ (List.length_pos_of_ne_nil hrest)
  have hstart : (field key value).dropWhile (Utils.isDelimiter [0x3a]) = field key value := by
    obtain ⟨b, bs, rfl⟩ := List.exists_cons_of_ne_nil hkey.1
    rw [field, List.cons_append, List.dropWhile_cons, hword b List.mem_cons_self]
    rfl
  have hbehind : Utils.behindTokens [0x3a] 1 (field key value) = 0x20 :: value := by
    have hdrop : (field key value).dropWhile (fun b => !Utils.isDelimiter [0x3a] b) =
        0x3a :: 0x20 :: value := by
      rw [field, List.dropWhile_append_of_pos fun b hb => by rw [hword b hb]; rfl]
      rfl
    rw [Utils.behindTokens, List.behindRuns, hstart, hdrop]
    rfl
  rw [PlainDeserializer.splitHeader, Utils.tokenize_some le_rfl, if_neg (by omega),
    if_neg (by omega), htokens, hbehind]
  rfl

theorem isValue_numeral (n : ℕ) : IsValue (Decimal.numeral n) := by
  have hdigits := (Decimal.isNumeral_numeral n).digits
  refine ⟨fun h => absurd (hdigits _ h) (by decide), fun h => ?_⟩
  exact absurd (hdigits _ (List.mem_of_getLast? h)) (by decide)

theorem parseNumber_numeral {n : ℕ} (h : n < 2 ^ 64) :
    parseNumber (0x20 :: Decimal.numeral n) = UInt64.ofNat n := by
  have hblank : Decimal.extract 64 (0x20 :: Decimal.numeral n) =
      Decimal.extract 64 (Decimal.numeral n) := rfl
  rw [parseNumber, hblank, Decimal.extract_numeral h]

@[simp] theorem parseNumber_number (n : UInt64) : parseNumber (0x20 :: number n) = n := by
  rw [number, parseNumber_numeral n.toNat_lt, UInt64.ofNat_toNat]

theorem isValue_signedNumeral (n : ℤ) : IsValue (Decimal.signedNumeral n) := by
  rw [Decimal.signedNumeral]
  split_ifs
  · refine ⟨fun h => ?_, ?_⟩
    · rcases List.mem_cons.1 h with h | h
      · exact absurd h (by decide)
      · exact (isValue_numeral _).1 h
    · obtain ⟨b, bs, hbs⟩ := List.exists_cons_of_ne_nil (Decimal.isNumeral_numeral n.natAbs).ne_nil
      have hlast := (isValue_numeral n.natAbs).2
      rw [hbs] at hlast ⊢
      rwa [List.getLast?_cons_cons]
  · exact isValue_numeral _

/-- The type of a block is read back, with its sign. -/
theorem extractSigned_typeNumber (t : UInt8) :
    Decimal.extractSigned 31 (0x20 :: Decimal.signedNumeral (typeNumber t)) = typeNumber t := by
  have hblank : Decimal.extractSigned 31 (0x20 :: Decimal.signedNumeral (typeNumber t)) =
      Decimal.extractSigned 31 (Decimal.signedNumeral (typeNumber t)) := rfl
  have hlow := t.toInt8.le_toInt
  have hhigh := t.toInt8.toInt_lt
  rw [hblank]
  exact Decimal.extractSigned_signedNumeral (by rw [typeNumber]; omega) (by rw [typeNumber]; omega)

@[simp] theorem numberType_typeNumber (t : UInt8) : numberType (typeNumber t) = t := by
  rw [numberType, typeNumber, Int8.ofInt_toInt, UInt8.toUInt8_toInt8]

theorem typeNumber_eq_iff (t u : UInt8) : typeNumber t = typeNumber u ↔ t = u := by
  refine ⟨fun h => ?_, fun h => h ▸ rfl⟩
  rw [← numberType_typeNumber t, h, numberType_typeNumber]

/-- The text of an EID is a value. -/
def OnLine (e : EID) : Prop := IsValue e.getString

instance : DecidablePred OnLine := fun _ => inferInstanceAs (Decidable (IsValue _))

/-- The EID that is made of the text of an EID. -/
def reparsed (e : EID) : EID := EID.ofString e.getString

@[simp] theorem ofString_getString (e : EID) : EID.ofString (0x20 :: e.getString) = reparsed e := by
  have hall : (0x20 :: e.getString).all Utils.isBlank = false := by
    rw [List.all_cons, e.all_isBlank_getString]
    rfl
  have htrim : Utils.trim (0x20 :: e.getString) = Utils.trim e.getString := by
    rw [Utils.trim_of_not_all hall, Utils.trim_of_not_all e.all_isBlank_getString]
    rfl
  rw [EID.ofString, htrim]
  rfl

end PlainText

open PlainText

namespace PlainDeserializer

/-! ### The primary block -/

/-- The keys and values of the header of a bundle. -/
def primaryFields (b : Bundle) : List (Bytes × Bytes) :=
  [(processingFlags, number b.procflags), (timestamp, number b.timestamp),
    (sequencenumber, number b.sequencenumber), (source, b.source.getString),
    (destination, b.destination.getString), (reportto, b.reportto.getString),
    (custodian, b.custodian.getString), (lifetime, number b.lifetime)] ++
  (if b.get PrimaryBlock.fragment then
    [(fragmentOffset, number b.fragmentoffset),
      (applicationDataLength, number b.appdatalength)]
  else []) ++ [(blocks, Decimal.numeral b.blocks.length)]

theorem primaryLines_eq (b : Bundle) :
    primaryLines b.toPrimaryBlock ++
        [field blocks (Decimal.numeral b.blocks.length)] =
      (primaryFields b).map fun f => field f.1 f.2 := by
  rw [primaryLines, primaryFields]
  split_ifs <;> rfl

theorem assignPrimary_field {key value : Bytes} (hkey : IsKey key) (p : PrimaryBlock) :
    assignPrimary (field key value) p = .ok (assignField key (0x20 :: value) p) := by
  rw [assignPrimary, splitHeader_field hkey]
  rfl

/-- Lines that have a key and a value are assigned one after the other. -/
theorem foldlM_assignPrimary {fields : List (Bytes × Bytes)}
    (h : ∀ f ∈ fields, IsKey f.1 ∧ IsValue f.2) (p : PrimaryBlock) :
    (fields.map fun f => field f.1 f.2).foldlM
        (fun p data => assignPrimary (stripReturn data) p) p =
      .ok (fields.foldl (fun p f => assignField f.1 (0x20 :: f.2) p) p) := by
  induction fields generalizing p with
  | nil => rfl
  | cons f fields ih =>
      obtain ⟨hkey, hvalue⟩ := h f List.mem_cons_self
      rw [List.map_cons, List.foldlM_cons, stripReturn_field hvalue, assignPrimary_field hkey]
      exact ih (fun g hg => h g (List.mem_cons_of_mem _ hg)) _

theorem forall_primaryFields {b : Bundle}
    (h : ∀ e ∈ Bundle.headerEIDs b.toPrimaryBlock, OnLine e) :
    ∀ f ∈ primaryFields b, IsKey f.1 ∧ IsValue f.2 := by
  have hsource : OnLine b.source := h _ (by simp [Bundle.headerEIDs])
  have hdestination : OnLine b.destination := h _ (by simp [Bundle.headerEIDs])
  have hreportto : OnLine b.reportto := h _ (by simp [Bundle.headerEIDs])
  have hcustodian : OnLine b.custodian := h _ (by simp [Bundle.headerEIDs])
  have hnumber (n : UInt64) : IsValue (number n) := isValue_numeral _
  intro f hf
  rw [primaryFields, List.mem_append, List.mem_append] at hf
  rcases hf with (hf | hf) | hf
  · simp only [List.mem_cons, List.not_mem_nil, or_false] at hf
    rcases hf with rfl | rfl | rfl | rfl | rfl | rfl | rfl | rfl
    all_goals
      refine ⟨by dsimp only; decide, ?_⟩
      first
        | exact hnumber _
        | assumption
  · split_ifs at hf
    · simp only [List.mem_cons, List.not_mem_nil, or_false] at hf
      rcases hf with rfl | rfl <;> exact ⟨by dsimp only; decide, hnumber _⟩
    · exact absurd hf List.not_mem_nil
  · obtain rfl := List.mem_singleton.1 hf
    exact ⟨by dsimp only; decide, isValue_numeral _⟩

theorem foldl_assignField_header (p : PrimaryBlock) (flags time seq life s d r c : Bytes) :
    [(processingFlags, flags), (timestamp, time), (sequencenumber, seq), (source, s),
      (destination, d), (reportto, r), (custodian, c), (lifetime, life)].foldl
        (fun p f => assignField f.1 (0x20 :: f.2) p) p =
      { p with
        procflags := parseNumber (0x20 :: flags), timestamp := parseNumber (0x20 :: time)
        sequencenumber := parseNumber (0x20 :: seq), lifetime := parseNumber (0x20 :: life)
        source := EID.ofString (0x20 :: s), destination := EID.ofString (0x20 :: d)
        reportto := EID.ofString (0x20 :: r), custodian := EID.ofString (0x20 :: c) } := rfl

theorem foldl_assignField_fragment (p : PrimaryBlock) (offset data : Bytes) :
    [(fragmentOffset, offset), (applicationDataLength, data)].foldl
        (fun p f => assignField f.1 (0x20 :: f.2) p) p =
      { p with
        fragmentoffset := parseNumber (0x20 :: offset)
        appdatalength := parseNumber (0x20 :: data) } := rfl

/-- The members that the header of a bundle assigns. -/
theorem foldl_assignField (b : Bundle) (p : PrimaryBlock) :
    (primaryFields b).foldl (fun p f => assignField f.1 (0x20 :: f.2) p) p =
      DefaultDeserializer.receivedPrimary reparsed b.toPrimaryBlock p := by
  rw [primaryFields, List.foldl_append, List.foldl_append, foldl_assignField_header,
    DefaultDeserializer.receivedPrimary]
  simp only [parseNumber_number, ofString_getString]
  split_ifs with hfragment
  · rw [foldl_assignField_fragment]
    simp only [parseNumber_number]
    rfl
  · rfl

/-- **The header of a bundle is read back.** -/
theorem loads_readHeader_primary {b : Bundle}
    (h : ∀ e ∈ Bundle.headerEIDs b.toPrimaryBlock, OnLine e) (p : PrimaryBlock) :
    (TextLines.readHeader assignPrimary).Loads
      (header (primaryLines b.toPrimaryBlock ++
        [field blocks (Decimal.numeral b.blocks.length)])) p
      (DefaultDeserializer.receivedPrimary reparsed b.toPrimaryBlock p) () := by
  have hfields := forall_primaryFields h
  rw [primaryLines_eq]
  refine TextLines.loads_readHeader (fun data hdata => ?_) ?_
  · obtain ⟨f, hf, rfl⟩ := List.mem_map.1 hdata
    exact isLine_field (hfields f hf).1 (hfields f hf).2
  · rw [foldlM_assignPrimary hfields, foldl_assignField]

/-! ### The header of a block -/

section Header

variable (c : Block)

/-- The keys and values of the header of a block, behind the line with its type. -/
def blockFields : List (Bytes × Bytes) :=
  (if flagsText c = [] then []
  else [(flags, (flagsText c).tail)]) ++
    (c.announced.map fun e => (eid, e.getString)) ++
    [(length, Decimal.numeral c.body.getLength)]

theorem flagsText_eq_cons (h : flagsText c ≠ []) :
    flagsText c = 0x20 :: (flagsText c).tail := by
  rw [flagsText] at h ⊢
  cases hnames : FlagWord.names blockFlags c.procflags with
  | nil => rw [hnames] at h; exact absurd rfl h
  | cons name names => rfl

theorem blockLines_eq :
    blockLines c =
      field block (Decimal.signedNumeral (typeNumber c.blocktype)) ::
        (blockFields c).map fun f => field f.1 f.2 := by
  have hflags : (if flagsText c = [] then []
      else [flags ++ 0x3a :: flagsText c]) =
      (if flagsText c = [] then []
        else [(flags, (flagsText c).tail)]).map fun f => field f.1 f.2 := by
    split_ifs with h
    · rfl
    · rw [flagsText_eq_cons c h]
      rfl
  have heids : (if c.get blockContainsEids then c.eids.map fun e => field eid e.getString
      else []) = (c.announced.map fun e => (eid, e.getString)).map fun f => field f.1 f.2 := by
    rw [Block.announced, List.map_map]
    split_ifs <;> rfl
  rw [blockLines, blockFields, hflags, heids, List.map_append, List.map_append]
  rfl

/-- The names have no white space. -/
theorem forall_blockFlags : ∀ f ∈ blockFlags, f.2 ≠ [] ∧
    ∀ b ∈ f.2, b ≠ newline ∧ b ≠ 0x0d ∧ b ≠ 0x20 := by decide +kernel

theorem isFlag_blockFlags : ∀ f ∈ blockFlags, FlagWord.IsFlag f.1 := by
  simp only [blockFlags, List.forall_mem_cons]
  exact ⟨⟨3, by decide, by decide⟩, ⟨0, by decide, by decide⟩, ⟨1, by decide, by decide⟩,
    ⟨2, by decide, by decide⟩, ⟨4, by decide, by decide⟩, ⟨5, by decide, by decide⟩, nofun⟩

theorem nodup_blockFlags : (blockFlags.map Prod.snd).Nodup := by decide +kernel

theorem mem_flagsText {b : UInt8} (hb : b ∈ flagsText c) :
    b ≠ newline ∧ b ≠ 0x0d := by
  obtain ⟨name, hname, hb⟩ := List.mem_flatMap.1 hb
  obtain ⟨f, hf, rfl⟩ := List.mem_map.1 hname
  rcases List.mem_cons.1 hb with rfl | hb
  · decide
  · have hne := (forall_blockFlags f (List.mem_filter.1 hf).1).2 b hb
    exact ⟨hne.1, hne.2.1⟩

theorem forall_blockFields (h : ∀ e ∈ c.eids, OnLine e) :
    ∀ f ∈ blockFields c, IsKey f.1 ∧ IsValue f.2 := by
  intro f hf
  rw [blockFields, List.mem_append, List.mem_append] at hf
  rcases hf with (hf | hf) | hf
  · split_ifs at hf with hempty
    · exact absurd hf List.not_mem_nil
    · obtain rfl := List.mem_singleton.1 hf
      have hmem {b : UInt8} (hb : b ∈ (flagsText c).tail) :=
        mem_flagsText c (List.mem_of_mem_tail hb)
      exact ⟨by dsimp only; decide, fun hb => (hmem hb).1 rfl,
        fun hb => (hmem (List.mem_of_getLast? hb)).2 rfl⟩
  · obtain ⟨e, he, rfl⟩ := List.mem_map.1 hf
    have heids : e ∈ c.eids := by
      rw [Block.announced] at he
      split_ifs at he
      · exact he
      · exact absurd he List.not_mem_nil
    exact ⟨by dsimp only; decide, h e heids⟩
  · obtain rfl := List.mem_singleton.1 hf
    exact ⟨by dsimp only; decide, isValue_numeral _⟩

/-- Words behind one separator each are the runs. -/
theorem runs_flatMap_cons {α : Type} {p : α → Bool} {s : α} (hs : p s = true) {ws : List (List α)}
    (h : ∀ w ∈ ws, w ≠ [] ∧ ∀ x ∈ w, p x = false) :
    List.runs p (ws.flatMap fun w => s :: w) = ws := by
  induction ws with
  | nil => rfl
  | cons w ws ih =>
      obtain ⟨hne, hw⟩ := h w List.mem_cons_self
      have hrest := ih fun v hv => h v (List.mem_cons_of_mem _ hv)
      rw [List.flatMap_cons, List.cons_append, List.runs_cons_of_pos hs]
      cases ws with
      | nil => rw [List.flatMap_nil, List.append_nil, List.runs_of_forall hne hw]
      | cons v ws =>
          rw [List.flatMap_cons, List.cons_append, List.runs_cons_of_pos hs] at hrest
          rw [List.flatMap_cons, List.cons_append, List.runs_cons_append hne hw hs, hrest]

/-- **The names are read off the text** that they make. -/
theorem tokenize_flagsText :
    Utils.tokenize [0x20] (flagsText c) none =
      .ok (FlagWord.names blockFlags c.procflags) := by
  rw [Utils.tokenize_none, Utils.tokens, flagsText,
    runs_flatMap_cons (s := 0x20) rfl]
  intro name hname
  obtain ⟨f, hf, rfl⟩ := List.mem_map.1 hname
  obtain ⟨hne, hchars⟩ := forall_blockFlags f (List.mem_filter.1 hf).1
  exact ⟨hne, fun b hb => by simpa [Utils.isDelimiter] using (hchars b hb).2.2⟩

theorem foldl_setFlag (names : List Bytes) (b : Block) :
    names.foldl setFlag b =
      { b with procflags := names.foldl (FlagWord.setNamed blockFlags) b.procflags } := by
  induction names generalizing b with
  | nil => rfl
  | cons name names ih => exact ih _

theorem foldl_addEID (es : List EID) (b : Block) :
    es.foldl addEID b =
      { b with
        procflags := b.procflags ||| if es = [] then 0 else blockContainsEids
        eids := b.eids ++ es } := by
  induction es generalizing b with
  | nil => simp
  | cons e es ih =>
      rw [List.foldl_cons, ih, if_neg (List.cons_ne_nil e es)]
      have hflags : (b.addEID e).procflags = b.procflags ||| blockContainsEids := rfl
      have heids : (b.addEID e).eids = b.eids ++ [e] := rfl
      rw [hflags, heids, List.append_assoc, UInt64.or_assoc]
      split_ifs
      · rw [UInt64.or_zero]
        rfl
      · rw [UInt64.or_self]
        rfl

/-- What the header of `c` makes of a block. -/
def headed (n : Block) : Block :=
  { n with
    procflags := n.procflags ||| (c.procflags &&& FlagWord.tableMask blockFlags) |||
      if c.announced = [] then 0 else blockContainsEids
    eids := n.eids ++ c.announced.map reparsed }

theorem assignBlock_field {key value : Bytes} (hkey : IsKey key) (o : Block × UInt64) :
    assignBlock (field key value) o = assignBlockField key (0x20 :: value) o := by
  rw [assignBlock, splitHeader_field hkey]
  rfl

theorem foldlM_assignBlock {fields : List (Bytes × Bytes)}
    (h : ∀ f ∈ fields, IsKey f.1 ∧ IsValue f.2) (o : Block × UInt64) :
    (fields.map fun f => field f.1 f.2).foldlM (fun o data => assignBlock (stripReturn data) o) o =
      fields.foldlM (fun o f => assignBlockField f.1 (0x20 :: f.2) o) o := by
  rw [List.foldlM_map]
  induction fields generalizing o with
  | nil => rfl
  | cons f fields ih =>
      obtain ⟨hkey, hvalue⟩ := h f List.mem_cons_self
      rw [List.foldlM_cons, List.foldlM_cons, stripReturn_field hvalue, assignBlock_field hkey]
      exact bind_congr fun o' => ih (fun g hg => h g (List.mem_cons_of_mem _ hg)) o'

theorem foldlM_eids (es : List EID) (o : Block × UInt64) :
    (es.map fun e => (eid, e.getString)).foldlM
        (fun o f => assignBlockField f.1 (0x20 :: f.2) o) o =
      .ok ((es.map reparsed).foldl addEID o.1, o.2) := by
  induction es generalizing o with
  | nil => rfl
  | cons e es ih =>
      have hstep : assignBlockField eid (0x20 :: e.getString) o =
          .ok (o.1.addEID (reparsed e), o.2) := by
        rw [← ofString_getString]
        rfl
      rw [List.map_cons, List.foldlM_cons, hstep]
      exact ih _

/-- The flags that the first line sets. -/
theorem foldlM_flags (n : Block) :
    (if flagsText c = [] then []
      else [(flags, (flagsText c).tail)]).foldlM
        (fun o f => assignBlockField f.1 (0x20 :: f.2) o) (n, (0 : UInt64)) =
      .ok ({ n with procflags :=
        n.procflags ||| (c.procflags &&& FlagWord.tableMask blockFlags) }, 0) := by
  rw [← FlagWord.foldl_setNamed_names isFlag_blockFlags nodup_blockFlags, ← foldl_setFlag]
  have hstep : assignBlockField flags (flagsText c) (n, 0) =
      .ok ((FlagWord.names blockFlags c.procflags).foldl setFlag n, 0) := by
    rw [assignBlockField, if_pos rfl, tokenize_flagsText]
  split_ifs with h
  · cases hnames : FlagWord.names blockFlags c.procflags with
    | nil => rfl
    | cons name names =>
        rw [flagsText, hnames] at h
        exact absurd h (List.cons_ne_nil _ _)
  · rw [List.foldlM_cons, ← flagsText_eq_cons c h, hstep]
    rfl

theorem foldlM_blockFields (hlen : c.body.getLength < 2 ^ 64) (n : Block) :
    (blockFields c).foldlM (fun o f => assignBlockField f.1 (0x20 :: f.2) o) (n, 0) =
      .ok (headed c n, UInt64.ofNat c.body.getLength) := by
  have hlength (o : Block × UInt64) :
      assignBlockField length (0x20 :: Decimal.numeral c.body.getLength) o =
        .ok (o.1, UInt64.ofNat c.body.getLength) := by
    rw [← parseNumber_numeral hlen]
    rfl
  have hrest (o : Block × UInt64) :
      ((c.announced.map fun e => (eid, e.getString)) ++
        [(length, Decimal.numeral c.body.getLength)]).foldlM
          (fun o f => assignBlockField f.1 (0x20 :: f.2) o) o =
        .ok ((c.announced.map reparsed).foldl addEID o.1,
          UInt64.ofNat c.body.getLength) := by
    rw [List.foldlM_append, foldlM_eids]
    exact congrArg (fun x => x >>= pure) (hlength _)
  have heids : (c.announced.map reparsed = []) = (c.announced = []) := by rw [List.map_eq_nil_iff]
  rw [blockFields, List.append_assoc, List.foldlM_append, foldlM_flags]
  refine (hrest _).trans ?_
  rw [foldl_addEID]
  simp only [heids]
  rfl

/-- **The header of a block is read back**, with the announced length. -/
theorem loads_readHeader_block {c : Block} (heids : ∀ e ∈ c.eids, OnLine e)
    (hlen : c.body.getLength < 2 ^ 64) (n : Block) :
    (TextLines.readHeader assignBlock).Loads
      (header ((blockFields c).map fun f => field f.1 f.2)) (n, 0)
      (headed c n, UInt64.ofNat c.body.getLength) () := by
  have hfields := forall_blockFields c heids
  refine TextLines.loads_readHeader (fun data hdata => ?_) ?_
  · obtain ⟨f, hf, rfl⟩ := List.mem_map.1 hdata
    exact isLine_field (hfields f hf).1 (hfields f hf).2
  · rw [foldlM_assignBlock hfields, foldlM_blockFields c hlen]

end Header

end PlainDeserializer

/-! ### Blocks -/

/-- The blocks whose text has the lines that the serializer means: the type fits the class, the
texts of the EIDs stay on their lines, a security block carries the EIDs that its flags promise, and
the payload has the announced length. -/
structure Block.Writable (c : Block) : Prop where
  hasType : c.body.HasType c.blocktype
  security : c.body.SecurityFits c.announced
  eids : ∀ e ∈ c.eids, OnLine e
  length : c.body.serialize.length = c.body.getLength
  payload_lt : c.body.getLength < 2 ^ 64

/-- The class that the reader chooses sets at most the flag for fragments, and has no EIDs. -/
theorem Block.receiver_cases (t : UInt8) :
    ((receiver t).procflags = 0 ∨
      (receiver t).procflags = Block.replicateInEveryFragment) ∧
    (receiver t).eids = [] := by
  rw [receiver]
  cases hf : Factory.get t with
  | none =>
      dsimp only
      split_ifs <;> exact ⟨.inl rfl, rfl⟩
  | some n =>
      refine ⟨?_, Factory.eids_of_get hf⟩
      have hmem := List.mem_of_find?_eq_some hf
      simp only [List.mem_cons, List.not_mem_nil, or_false] at hmem
      rcases hmem with rfl | rfl | rfl | rfl | rfl | rfl | rfl | rfl
      all_goals first
        | exact .inl rfl
        | exact .inr rfl

/-- What a block is read as: the type is that of the class that the reader chooses, and the flags
that this class sets stay on. -/
def Block.plain (c : Block) : Block :=
  let n := receiver c.blocktype
  withMark n.body.forwardedMark
    { PlainDeserializer.headed c n with body := c.body.received (c.announced.map reparsed) }

/-- A block of another type than the payload that asks to be discarded. -/
def Block.Discards (c : Block) : Prop :=
  c.blocktype ≠ Block.payloadType ∧ c.get discardIfNotProcessed = true

instance (c : Block) : Decidable c.Discards := inferInstanceAs (Decidable (_ ∧ _))

namespace PlainDeserializer

section Blocks

variable {env : PlainEnv} (hbase64 : env.base64.Restores) (hblob : env.blob.CopiesExactly)

theorem loads_emptyLine {σ : Type} (o : σ) : emptyLine.Loads [newline] o o () :=
  (loads_ofParser TextLines.reads_getline_empty o).then_nil (Loader.loads_pure () o)

/-- The text of a block behind the line with its type, with the end of the text of a bundle or the
line that separates it from the next block. -/
def bodyText (base64 : Base64Streams) (c : Block) : Bytes :=
  header ((blockFields c).map fun f => field f.1 f.2) ++
    (base64.encode c.body.serialize ++ ([newline] ++ [newline]))

include hbase64 hblob

/-- **A block is read** into a new block of the class that the reader chooses for its type. -/
theorem loads_readBlock {c n : Block} (hc : c.Writable) (hn : n.eids = [])
    (hbody : n.body = (receiver c.blocktype).body) :
    (readBlock env).Loads (bodyText env.base64 c) n
      (withMark n.body.forwardedMark
        { headed c n with body := c.body.received (c.announced.map reparsed) }) () := by
  have hheader := (loads_readHeader_block hc.eids hc.payload_lt n).then_nil
    (f := fun _ => Loader.object >>= fun o => pure o.2)
    ((loads_object _).bind_nil (Loader.loads_pure (headed c n, UInt64.ofNat c.body.getLength).2 _))
  have hdecode : (decode env (σ := Block) (UInt64.ofNat c.body.getLength)).Loads
      (env.base64.encode c.body.serialize) (headed c n) (headed c n) c.body.serialize := by
    rw [decode, EID.toNat_ofNat_of_lt hc.payload_lt, ← hc.length]
    exact (loads_ofParser (hbase64 _) _).mapError _
  have heids : (headed c n).eids = c.announced.map reparsed := by
    rw [headed, hn]
    rfl
  have hload := Body.loads_deserialize hblob hc.hasType
    (Block.securityFits_map (b := { c with eids := c.announced }) hc.security reparsed)
    (hc.length.trans_lt hc.payload_lt)
  rw [← heids, ← hbody] at hload
  rw [← heids]
  have hdeserialize : (Block.deserialize env.blob (UInt64.ofNat c.body.getLength)).Loads
      c.body.serialize (headed c n) (withMark n.body.forwardedMark
        { headed c n with body := c.body.received (headed c n).eids }) () := by
    have hwithin := hload.within (fun body (b : Block) => { b with body }) (headed c n)
    refine (loads_object _).bind_nil (hwithin.then_nil ?_)
    have hsame : (headed c n).body = n.body := rfl
    rw [hsame]
    cases n.body.forwardedMark with
    | none => exact Loader.loads_pure () _
    | some value => exact loads_update _ _
  refine (loads_object _).bind_nil ?_
  refine (hheader.within _ n).bind ?_
  refine hdecode.bind ?_
  refine ((hdeserialize.mapError _).onBytes).bind_nil ?_
  exact (loads_emptyLine _).bind (loads_emptyLine _)

omit hbase64 hblob in
/-- The text that the loop over the blocks reads for a block. -/
def blockText (base64 : Base64Streams) (c : Block) : Bytes :=
  line (field block (Decimal.signedNumeral (typeNumber c.blocktype))) ++ bodyText base64 c

omit hbase64 hblob in
theorem writeBlock_append (base64 : Base64Streams) (c : Block) :
    PlainSerializer.writeBlock base64 false c ++ [newline] = blockText base64 c := by
  rw [PlainSerializer.writeBlock, blockLines_eq, blockText, bodyText, header, if_neg (by decide)]
  simp [line]

omit hbase64 hblob in
/-- **The text of a bundle**: its header, and the texts of its blocks. -/
theorem writeBundle_eq (base64 : Base64Streams) (b : Bundle) :
    PlainSerializer.writeBundle base64 false b =
      header (primaryLines b.toPrimaryBlock ++
        [field blocks (Decimal.numeral b.blocks.length)]) ++
      b.blocks.flatMap (blockText base64) := by
  have hblocks (cs : List Block) :
      (cs.flatMap fun c => newline :: PlainSerializer.writeBlock base64 false c) ++ [newline] =
        [newline] ++ cs.flatMap (blockText base64) := by
    induction cs with
    | nil => rfl
    | cons c cs ih =>
        rw [List.flatMap_cons, List.flatMap_cons, List.append_assoc, ih, ← writeBlock_append]
        simp
  rw [PlainSerializer.writeBundle, List.append_assoc, hblocks, header, List.flatMap_append]
  simp

omit hbase64 hblob in
theorem inserted_receiver (t : UInt8) : inserted (receiver t) = receiver t := by
  have hlast : (receiver t).get lastBlock = false := by
    rcases (Block.receiver_cases t).1 with h | h <;> rw [Block.get, h] <;> decide
  generalize receiver t = n at hlast ⊢
  have hclear := FlagWord.assign_false_of_not_has hlast
  rw [FlagWord.assign, if_neg Bool.false_ne_true] at hclear
  have hflags : FlagWord.assign (FlagWord.assign n.procflags lastBlock true) lastBlock
      false = n.procflags := by
    rw [FlagWord.assign, FlagWord.assign, if_neg Bool.false_ne_true, if_pos rfl,
      FlagWord.or_and_not_self, hclear]
  rw [inserted, Block.set, Block.set]
  dsimp only
  rw [hflags]

omit hbase64 hblob in
/-- A flag with a name that no class sets is read as it was written. -/
theorem get_plain (c : Block) {flag : UInt64}
    (hname : FlagWord.tableMask blockFlags &&& flag = flag)
    (hmark : Block.forwardedWithoutProcessed &&& flag = 0)
    (hown : Block.replicateInEveryFragment &&& flag = 0)
    (heids : blockContainsEids &&& flag = 0) : c.plain.get flag = c.get flag := by
  have hreceiver : (receiver c.blocktype).procflags &&& flag = 0 := by
    rcases (Block.receiver_cases c.blocktype).1 with h | h
    · rw [h, UInt64.zero_and]
    · rw [h, hown]
  have hcontains : (if c.announced = [] then 0 else blockContainsEids) &&& flag = 0 := by
    split_ifs
    · exact UInt64.zero_and
    · exact heids
  rw [Block.plain, Block.get_withMark _ _ hmark]
  change FlagWord.has ((receiver c.blocktype).procflags |||
    (c.procflags &&& FlagWord.tableMask blockFlags) ||| _) flag = FlagWord.has c.procflags flag
  rw [FlagWord.has, FlagWord.or_and_of_disjoint hcontains, UInt64.or_comm,
    FlagWord.or_and_of_disjoint hreceiver, UInt64.and_assoc, hname, FlagWord.has]

omit hbase64 hblob in
theorem get_lastBlock_plain (c : Block) : c.plain.get lastBlock = c.get lastBlock :=
  get_plain c (by decide) (by decide) (by decide) (by decide)

/-- **A block is inserted and read**, behind blocks that are not marked as the last. -/
theorem loads_insertAndRead {c : Block} (hc : c.Writable) {bundle : Bundle}
    (hmark : ∀ d ∈ bundle.blocks, d.get lastBlock = false) :
    (insertAndRead env (receiver c.blocktype)).Loads (bodyText env.base64 c) bundle
      { bundle with blocks := bundle.blocks ++ [c.plain] } c.plain := by
  have hread : (readBlock env).Loads (bodyText env.base64 c) (receiver c.blocktype) c.plain
      () := loads_readBlock hbase64 hblob hc (Block.receiver_cases c.blocktype).2 rfl
  have hsame := inserted_receiver c.blocktype
  generalize receiver c.blocktype = n at hread hsame ⊢
  generalize c.plain = b at hread ⊢
  have hback : ((bundle.pushBack n).setBack n).setBack b =
      { bundle with blocks := bundle.blocks ++ [b] } := by
    simp only [Bundle.setBack, Bundle.pushBack, BlockList.pushBack_of_unmarked hmark,
      List.dropLast_concat]
  rw [insertAndRead, hsame, ← hback]
  have hobject : (do readBlock env; Loader.object : Loader PlainExn Block Block).Loads
      (bodyText env.base64 c) n b b := hread.then_nil (loads_object b)
  have hwithin := hobject.within (fun b (bundle : Bundle) => bundle.setBack b)
    ((bundle.pushBack n).setBack n)
  exact (loads_update _ bundle).bind_nil hwithin

omit hbase64 hblob in
/-- The type of a block is read off the line with it. -/
theorem loads_readType (c : Block) (bundle : Bundle) :
    readType.Loads (line (field block (Decimal.signedNumeral (typeNumber c.blocktype)))) bundle
      bundle (typeNumber c.blocktype) := by
  have hkey : IsKey block := by decide
  have hvalue := isValue_signedNumeral (typeNumber c.blocktype)
  obtain ⟨hend, hne⟩ := isLine_field hkey hvalue
  refine (loads_ofParser (TextLines.reads_getline hend) _).then_nil ?_
  rw [if_neg hne, stripReturn_field hvalue, splitHeader_field hkey]
  refine (Loader.loads_pure _ bundle).bind_nil ?_
  dsimp only
  rw [if_pos rfl, extractSigned_typeNumber]
  exact Loader.loads_pure _ _

/-- **A block is inserted and read**, and given up if it asks to be discarded. -/
theorem insertProcessable_bodyText {c : Block} (hc : c.Writable) {bundle : Bundle}
    (hmark : ∀ d ∈ bundle.blocks, d.get lastBlock = false) :
    (c.get discardIfNotProcessed = false →
      (insertProcessable env (receiver c.blocktype)).Loads (bodyText env.base64 c) bundle
        { bundle with blocks := bundle.blocks ++ [c.plain] } c.plain) ∧
    (c.get discardIfNotProcessed = true →
      (insertProcessable env (receiver c.blocktype)).Fails (bodyText env.base64 c) bundle
        { bundle with blocks := bundle.blocks ++ [c.plain] } .blockNotProcessable) := by
  have hinsert := loads_insertAndRead hbase64 hblob hc hmark
  have hdiscard : c.plain.get discardIfNotProcessed = c.get discardIfNotProcessed :=
    get_plain c (by decide) (by decide) (by decide) (by decide)
  refine ⟨fun h => hinsert.then_nil ?_, fun h => hinsert.then_fails ?_⟩
  · rw [hdiscard, h]
    exact Loader.loads_pure _ _
  · rw [hdiscard, h]
    exact Loader.fails_throw _ _

/-- **The next block is read**, and given up if it is not the payload and asks for that. -/
theorem readNext_blockText {c : Block} (hc : c.Writable) {bundle : Bundle}
    (hmark : ∀ d ∈ bundle.blocks, d.get lastBlock = false) :
    (¬ c.Discards → (readNext env false).Loads (blockText env.base64 c) bundle
      { bundle with blocks := bundle.blocks ++ [c.plain] } c.plain) ∧
    (c.Discards → (readNext env false).Fails (blockText env.base64 c) bundle
      { bundle with blocks := bundle.blocks ++ [c.plain] } .blockNotProcessable) := by
  have htype := loads_readType c bundle
  have hzero : typeNumber c.blocktype ≠ 0 := fun h =>
    hc.hasType.ne_zero ((typeNumber_eq_iff _ 0).1 h)
  have hone : typeNumber c.blocktype = 1 ↔ c.blocktype = Block.payloadType :=
    typeNumber_eq_iff _ 1
  obtain ⟨hkept, hgiven⟩ := insertProcessable_bodyText hbase64 hblob hc hmark
  by_cases hp : c.blocktype = Block.payloadType
  · refine ⟨fun _ => htype.bind ?_, fun h => absurd hp h.1⟩
    have hinsert := loads_insertAndRead hbase64 hblob hc hmark
    rw [if_neg hzero, if_pos (hone.2 hp), if_neg Bool.false_ne_true]
    rwa [hp] at hinsert
  · have hdiscards : c.Discards ↔ c.get discardIfNotProcessed = true := and_iff_right hp
    rw [hdiscards, Bool.not_eq_true]
    cases hf : Factory.get c.blocktype with
    | some n =>
        have hn : receiver c.blocktype = n := by rw [receiver, hf]
        rw [hn] at hkept hgiven
        refine ⟨fun h => htype.bind ?_, fun h => htype.bind_fails ?_⟩
        · rw [if_neg hzero, if_neg (mt hone.1 hp), numberType_typeNumber, hf]
          exact (hkept h).tryCatch _
        · rw [if_neg hzero, if_neg (mt hone.1 hp), numberType_typeNumber, hf]
          exact (hgiven h).rethrow (if_pos rfl)
    | none =>
        have hn : receiver c.blocktype = Block.newExtension := by
          rw [receiver, hf]
          exact if_neg hp
        rw [hn] at hkept hgiven
        have hmissing := Loader.fails_throw (α := Block)
          (PlainExn.exception (.exception "Factory not available")) bundle
        refine ⟨fun h => htype.bind ?_, fun h => htype.bind_fails ?_⟩
        · rw [if_neg hzero, if_neg (mt hone.1 hp), numberType_typeNumber, hf]
          exact hmissing.tryCatch (hkept h)
        · rw [if_neg hzero, if_neg (mt hone.1 hp), numberType_typeNumber, hf]
          exact hmissing.tryCatch_fails (hgiven h)

/-- **A turn of the loop** reads a block into the bundle, and asks for another one unless this is
the last. A block that was given up is not seen to be the last. -/
theorem loads_readTurn {c : Block} (hc : c.Writable) {bundle : Bundle}
    (hmark : ∀ d ∈ bundle.blocks, d.get lastBlock = false)
    (hadm : bundle.get PrimaryBlock.appdataIsAdmrecord = false) :
    (readTurn env).Loads (blockText env.base64 c) bundle
      { bundle with blocks := bundle.blocks ++ [c.plain] }
      (!decide c.Discards && c.get lastBlock) := by
  obtain ⟨hread, hgiven⟩ := readNext_blockText hbase64 hblob hc hmark
  by_cases h : c.Discards
  · have hturn := (loads_object bundle).bind_nil_fails (f := fun bundle : Bundle =>
      readNext env (bundle.get PrimaryBlock.appdataIsAdmrecord) >>= fun block =>
        pure (block.get lastBlock)) (by rw [hadm]; exact (hgiven h).bind)
    rw [decide_eq_true h]
    exact hturn.tryCatch_nil (Loader.loads_pure _ _)
  · rw [decide_eq_false h, ← get_lastBlock_plain]
    refine Loads.tryCatch ((loads_object bundle).bind_nil ?_) _
    rw [hadm]
    exact (hread h).then_nil (Loader.loads_pure _ _)

/-! ### The loop over the blocks -/

omit hbase64 hblob in
/-- The loop goes on where the stream is not at its end. -/
theorem run_readBlocks_succ (rounds : ℕ) (bundle : Bundle) (bs st : Bytes) :
    (readBlocks env (rounds + 1)).run (bundle, ⟨bs, false, false, st⟩) =
      (do if ← readTurn env then pure () else readBlocks env rounds :
        Loader PlainExn Bundle Unit).run (bundle, ⟨bs, false, false, st⟩) := by
  have heof : (Loader.ofParser Parser.atEof : Loader PlainExn Bundle Bool).run
      (bundle, ⟨bs, false, false, st⟩) = (.ok false, (bundle, ⟨bs, false, false, st⟩)) :=
    loads_ofParser Parser.reads_atEof bundle bs st
  rw [readBlocks, Loader.run_bind_ok heof, if_neg Bool.false_ne_true]

/-- **Turns that ask for another block** leave the loop where the next block starts. -/
theorem run_readBlocks_append {cs : List Block} (hcs : ∀ c ∈ cs, c.Writable)
    (hmore : ∀ c ∈ cs, c.Discards ∨ c.get lastBlock = false)
    (hinner : ∀ c ∈ cs.dropLast, c.get lastBlock = false) {bundle : Bundle}
    (hmark : ∀ d ∈ bundle.blocks, d.get lastBlock = false)
    (hadm : bundle.get PrimaryBlock.appdataIsAdmrecord = false) (rounds : ℕ) (r st : Bytes) :
    (readBlocks env (rounds + cs.length)).run
        (bundle, ⟨cs.flatMap (blockText env.base64) ++ r, false, false, st⟩) =
      (readBlocks env rounds).run
        ({ bundle with blocks := bundle.blocks ++ cs.map Block.plain }, ⟨r, false, false, st⟩) := by
  induction cs generalizing bundle with
  | nil => simp
  | cons c cs ih =>
      have hc := hcs c List.mem_cons_self
      have hturn := loads_readTurn hbase64 hblob hc hmark hadm
      have hfalse : (!decide c.Discards && c.get lastBlock) = false := by
        rcases hmore c List.mem_cons_self with h | h
        · rw [decide_eq_true h]
          rfl
        · rw [h, Bool.and_false]
      rw [hfalse] at hturn
      have hround : (readBlocks env (rounds + cs.length + 1)).run (bundle,
            ⟨blockText env.base64 c ++ (cs.flatMap (blockText env.base64) ++ r),
              false, false, st⟩) =
          (readBlocks env (rounds + cs.length)).run
            ({ bundle with blocks := bundle.blocks ++ [c.plain] },
              ⟨cs.flatMap (blockText env.base64) ++ r, false, false, st⟩) := by
        rw [run_readBlocks_succ, Loader.run_bind_ok (hturn _ st), if_neg Bool.false_ne_true]
      rw [List.length_cons, ← Nat.add_assoc, List.flatMap_cons, List.append_assoc, hround]
      cases cs with
      | nil => simp
      | cons d cs =>
          have hunmarked : ∀ e ∈ bundle.blocks ++ [c.plain], e.get lastBlock = false := by
            intro e he
            rcases List.mem_append.1 he with he | he
            · exact hmark e he
            · rw [List.mem_singleton.1 he, get_lastBlock_plain]
              exact hinner c List.mem_cons_self
          have htail := @ih (fun e he => hcs e (List.mem_cons_of_mem _ he))
            (fun e he => hmore e (List.mem_cons_of_mem _ he))
            (fun e he => hinner e (List.mem_cons_of_mem _ he))
            { bundle with blocks := bundle.blocks ++ [c.plain] } hunmarked hadm
          rw [htail]
          dsimp only
          rw [List.append_assoc, List.singleton_append, ← List.map_cons]

omit hbase64 hblob in
/-- Where the text ends, there is no other block. -/
theorem run_readBlocks_nil (bundle : Bundle) (rounds : ℕ) (st : Bytes) :
    (readBlocks env (rounds + 1)).run (bundle, ⟨[], false, false, st⟩) =
      (.error (.exception (.invalidData "block header is missing")),
        (bundle, ⟨[], true, true, st⟩)) := rfl

end Blocks

end PlainDeserializer

/-! ### Bundles -/

namespace Bundle

/-- The bundles whose text has the lines that the serializer means: the last-block flag is on
exactly the final block, the texts of the EIDs stay on their lines, and the blocks are written. The
payload is no administrative record. -/
structure Writable (b : Bundle) : Prop where
  marked : BlockList.Marked b.blocks
  header : ∀ e ∈ headerEIDs b.toPrimaryBlock, OnLine e
  blocks : ∀ c ∈ b.blocks, c.Writable
  noRecord : b.get PrimaryBlock.appdataIsAdmrecord = false

/-- The loop over the blocks ends with the final block: there is one, and it is not given up. -/
def Ends (b : Bundle) : Prop := ∃ c, b.blocks.getLast? = some c ∧ ¬ c.Discards

/-- The header of a bundle as it is read into the bundle `obj`, before the blocks. -/
def plainHeader (b obj : Bundle) : Bundle :=
  { DefaultDeserializer.receivedPrimary reparsed b.toPrimaryBlock obj.toPrimaryBlock with
    blocks := [] }

/-- What a bundle is read as from its text, into the bundle `obj`. -/
def plain (b obj : Bundle) : Bundle := { b.plainHeader obj with blocks := b.blocks.map Block.plain }

/-- The bundle that is read from the text of a bundle into the bundle `obj`. -/
def ofPlainText (env : PlainEnv) (b obj : Bundle) : Except PlainExn Bundle :=
  match (PlainDeserializer.readBundle env).run
    (obj, InStream.ofBytes (PlainSerializer.writeBundle env.base64 false b)) with
  | (.ok _, (n, _)) => .ok n
  | (.error e, _) => .error e

end Bundle

namespace PlainDeserializer

section Bundles

variable {env : PlainEnv} (hbase64 : env.base64.Restores) (hblob : env.blob.CopiesExactly)
  {b : Bundle}

/-- The header of a bundle is read, and the loop starts with as many rounds as there are bytes. -/
theorem run_readBundle (h : ∀ e ∈ Bundle.headerEIDs b.toPrimaryBlock, OnLine e) (obj : Bundle) :
    (readBundle env).run
        (obj, InStream.ofBytes (PlainSerializer.writeBundle env.base64 false b)) =
      (readBlocks env ((b.blocks.flatMap (blockText env.base64)).length + 2)).run
        (b.plainHeader obj, ⟨b.blocks.flatMap (blockText env.base64), false, false, []⟩) := by
  have hheader := (loads_readHeader_primary h obj.clearBlocks.toPrimaryBlock).within
    (fun (p : PrimaryBlock) (bundle : Bundle) => { p with blocks := bundle.blocks })
    obj.clearBlocks (b.blocks.flatMap (blockText env.base64)) []
  have hclear (s : InStream) : (Loader.update Bundle.clearBlocks : Loader PlainExn Bundle Unit).run
      (obj, s) = (.ok (), (obj.clearBlocks, s)) := rfl
  have hobject (s : InStream) : (Loader.object : Loader PlainExn Bundle Bundle).run
      (obj.clearBlocks, s) = (.ok obj.clearBlocks, (obj.clearBlocks, s)) := rfl
  rw [readBundle, InStream.ofBytes, writeBundle_eq, Loader.run_bind_ok (hclear _),
    Loader.run_bind_ok (hobject _), Loader.run_bind_ok hheader]
  rfl

theorem length_le_flatMap_blockText (base64 : Base64Streams) (cs : List Block) :
    cs.length ≤ (cs.flatMap (blockText base64)).length := by
  induction cs with
  | nil => exact le_rfl
  | cons c cs ih =>
      have hpos : 0 < (blockText base64 c).length := by
        rw [blockText, line]
        simp
      rw [List.length_cons, List.flatMap_cons, List.length_append]
      omega

/-- The loop has more rounds than there are blocks. -/
theorem exists_rounds (base64 : Base64Streams) (cs : List Block) :
    ∃ k, (cs.flatMap (blockText base64)).length + 2 = k + 1 + cs.length := by
  have hlen := length_le_flatMap_blockText base64 cs
  exact ⟨(cs.flatMap (blockText base64)).length + 1 - cs.length, by omega⟩

include hbase64 hblob

/-- The turns for blocks that all ask for another one. -/
theorem run_readBlocks_header (hb : b.Writable) (obj : Bundle) {cs : List Block}
    (hcs : ∀ c ∈ cs, c.Writable) (hmore : ∀ c ∈ cs, c.Discards ∨ c.get lastBlock = false)
    (hinner : ∀ c ∈ cs.dropLast, c.get lastBlock = false) (rounds : ℕ) (r : Bytes) :
    (readBlocks env (rounds + cs.length)).run
        (b.plainHeader obj, ⟨cs.flatMap (blockText env.base64) ++ r, false, false, []⟩) =
      (readBlocks env rounds).run
        ({ b.plainHeader obj with blocks := cs.map Block.plain }, ⟨r, false, false, []⟩) :=
  @run_readBlocks_append env hbase64 hblob cs hcs hmore hinner (b.plainHeader obj)
    (fun _ h => absurd h List.not_mem_nil) hb.noRecord rounds r []

/-- **If the loop ends with the final block**, the bundle is read. -/
theorem ofPlainText_of_ends (hb : b.Writable) (obj : Bundle) (h : b.Ends) :
    b.ofPlainText env obj = .ok (b.plain obj) := by
  obtain ⟨c, hlast, hkept⟩ := h
  -- The turns in front of the final block ask for another one, and that of the final block ends.
  obtain ⟨cs, hblocks⟩ := List.getLast?_eq_some_iff.1 hlast
  have hwritable : ∀ d ∈ cs ++ [c], d.Writable := hblocks ▸ hb.blocks
  have hmarked : BlockList.Marked (cs ++ [c]) := hblocks ▸ hb.marked
  obtain ⟨hunmarked, hmark⟩ := BlockList.marked_append_singleton.1 hmarked
  obtain ⟨k, hk⟩ := exists_rounds env.base64 (cs ++ [c])
  have hrounds : ((cs ++ [c]).flatMap (blockText env.base64)).length + 2 =
      k + 1 + 1 + cs.length := by
    rw [hk, List.length_append, List.length_singleton]
    omega
  have hturns := run_readBlocks_header hbase64 hblob hb obj
    (fun d hd => hwritable d (List.mem_append_left _ hd)) (fun d hd => .inr (hunmarked d hd))
    (fun d hd => hunmarked d (List.mem_of_mem_dropLast hd)) (k + 1 + 1) (blockText env.base64 c)
  have hfinal := @loads_readTurn env hbase64 hblob c (hwritable c (by simp))
    { b.plainHeader obj with blocks := cs.map Block.plain } (fun d hd => by
      obtain ⟨e, he, rfl⟩ := List.mem_map.1 hd
      exact (get_lastBlock_plain e).trans (hunmarked e he))
    hb.noRecord [] []
  rw [decide_eq_false hkept, hmark, List.append_nil] at hfinal
  have hrun := @run_readBundle env b hb.header obj
  rw [hblocks, hrounds, List.flatMap_append, List.flatMap_singleton, hturns, run_readBlocks_succ,
    Loader.run_bind_ok hfinal] at hrun
  rw [Bundle.ofPlainText, hrun, Bundle.plain, hblocks, List.map_append, List.map_singleton]
  rfl

/-- **If the loop does not end with the final block**, it looks for another one in vain. -/
theorem ofPlainText_of_not_ends (hb : b.Writable) (obj : Bundle) (h : ¬ b.Ends) :
    b.ofPlainText env obj = .error (.exception (.invalidData "block header is missing")) := by
  have hmarks : (∀ c ∈ b.blocks.dropLast, c.get lastBlock = false) ∧
      ∀ c ∈ b.blocks, c.Discards ∨ c.get lastBlock = false := by
    have hmarked := hb.marked
    rcases List.eq_nil_or_concat b.blocks with hnil | ⟨cs, d, hblocks⟩
    · rw [hnil]
      exact ⟨fun c hc => absurd hc List.not_mem_nil, fun c hc => absurd hc List.not_mem_nil⟩
    · rw [List.concat_eq_append] at hblocks
      rw [hblocks] at hmarked
      obtain ⟨hunmarked, -⟩ := BlockList.marked_append_singleton.1 hmarked
      have hdiscards : d.Discards :=
        not_not.1 fun hkept => h ⟨d, by rw [hblocks, List.getLast?_concat], hkept⟩
      rw [hblocks, List.dropLast_concat]
      refine ⟨hunmarked, fun c hc => ?_⟩
      rcases List.mem_append.1 hc with hc | hc
      · exact .inr (hunmarked c hc)
      · exact .inl (List.mem_singleton.1 hc ▸ hdiscards)
  obtain ⟨k, hk⟩ := exists_rounds env.base64 b.blocks
  have hturns := run_readBlocks_header hbase64 hblob hb obj hb.blocks hmarks.2 hmarks.1 (k + 1) []
  rw [List.append_nil] at hturns
  have hrun := @run_readBundle env b hb.header obj
  rw [hk, hturns, run_readBlocks_nil] at hrun
  rw [Bundle.ofPlainText, hrun]

end Bundles

end PlainDeserializer

/-! ### What is read back -/

/-- The blocks that are read as they were written: the reader knows the type; the flags are those
with a name, those that the class sets, and the one that announces EIDs if there are any; and the
EIDs are those that their texts denote. -/
structure Block.Kept (c : Block) : Prop where
  known : c.body.classType ≠ none
  flags : c.procflags &&& ~~~FlagWord.tableMask blockFlags =
    if c.eids = [] then 0 else blockContainsEids
  own : c.procflags &&& (receiver c.blocktype).procflags =
    (receiver c.blocktype).procflags
  eids : ∀ e ∈ c.eids, e.Readable

theorem Block.receiver_blocktype_iff {t : UInt8} {body : Body} (h : body.HasType t) :
    (receiver t).blocktype = t ↔ body.classType ≠ none := by
  have hzero := h.ne_zero
  rw [receiver]
  cases hf : Factory.get t with
  | some n =>
      refine iff_of_true (by simpa using List.find?_some hf) fun hnone => ?_
      rcases h with h | ⟨-, hget, -⟩
      · exact absurd (hnone.symm.trans h) (by simp)
      · exact absurd (hf.symm.trans hget) (by simp)
  | none =>
      dsimp only
      split_ifs with hp
      · refine iff_of_true hp.symm fun hnone => ?_
        rcases h with h | ⟨-, -, hne, -⟩
        · exact absurd (hnone.symm.trans h) (by simp)
        · exact hne hp
      · exact iff_of_false (fun h => hzero h.symm) (not_not.2 (h.classType_eq_none hf hp))

/-- The EIDs of a block and the flag that announces them. -/
theorem Block.announced_iff (c : Block) :
    (c.procflags &&& ~~~FlagWord.tableMask blockFlags =
        (if c.announced = [] then 0 else blockContainsEids) ∧
      c.announced.map reparsed = c.eids) ↔
    (c.procflags &&& ~~~FlagWord.tableMask blockFlags =
        (if c.eids = [] then 0 else blockContainsEids) ∧ ∀ e ∈ c.eids, e.Readable) := by
  have hannounced : c.announced = c.eids ∨ c.announced = [] := by
    rw [Block.announced]
    split_ifs
    · exact .inl rfl
    · exact .inr rfl
  have hreadable : c.eids.map reparsed = c.eids ↔ ∀ e ∈ c.eids, e.Readable := by
    conv_lhs => rhs; rw [← List.map_id c.eids]
    exact List.map_inj_left
  constructor
  · rintro ⟨hflags, heids⟩
    rcases hannounced with h | h
    · rw [h] at hflags heids
      exact ⟨hflags, hreadable.1 heids⟩
    · rw [h] at hflags heids
      rw [← heids]
      exact ⟨hflags, fun e he => absurd he List.not_mem_nil⟩
  · rintro ⟨hflags, heids⟩
    have hsame : c.announced = c.eids := by
      rcases hannounced with h | h
      · exact h
      · by_contra hne
        have hnil : c.eids ≠ [] := fun hnil => hne (h.trans hnil.symm)
        rw [if_neg hnil] at hflags
        have hget : c.get blockContainsEids = true := by
          have hmask : ~~~FlagWord.tableMask blockFlags &&& blockContainsEids =
            blockContainsEids := by decide
          rw [Block.get, FlagWord.has, ← hmask, ← UInt64.and_assoc, hflags]
          decide
        exact hne (by rw [Block.announced, if_pos hget])
    rw [hsame]
    exact ⟨hflags, hreadable.2 heids⟩

/-- **Which blocks are read as they were written.** -/
theorem Block.view_plain_iff {c : Block} (hc : c.Writable) : c.plain.view = c.view ↔ c.Kept := by
  have hflags : c.plain.procflags &&& ~~~Block.forwardedWithoutProcessed =
      ((receiver c.blocktype).procflags |||
        (c.procflags &&& FlagWord.tableMask blockFlags) |||
          if c.announced = [] then 0 else blockContainsEids) &&&
        ~~~Block.forwardedWithoutProcessed := Block.procflags_withMark _ _
  have heids : c.plain.eids = c.announced.map reparsed := by
    rw [Block.plain, Block.eids_withMark, PlainDeserializer.headed,
      (Block.receiver_cases c.blocktype).2]
    rfl
  have htype : c.plain.blocktype = (receiver c.blocktype).blocktype :=
    Block.blocktype_withMark _ _
  have hpayload : c.plain.body.serialize = c.body.serialize := by
    rw [Block.plain, Block.body_withMark, Body.serialize_received]
  have hmerge : ((receiver c.blocktype).procflags |||
      (c.procflags &&& FlagWord.tableMask blockFlags) |||
        if c.announced = [] then 0 else blockContainsEids) &&&
      ~~~Block.forwardedWithoutProcessed = c.procflags &&& ~~~Block.forwardedWithoutProcessed ↔
      c.procflags &&& ~~~FlagWord.tableMask blockFlags =
        (if c.announced = [] then 0 else blockContainsEids) ∧
      c.procflags &&& (receiver c.blocktype).procflags =
        (receiver c.blocktype).procflags := by
    refine FlagWord.eq_merge_iff ?_ (by decide) ?_ ?_
    · rcases (Block.receiver_cases c.blocktype).1 with h | h <;> rw [h] <;> decide
    · rcases (Block.receiver_cases c.blocktype).1 with h | h <;> rw [h] <;> decide
    · split_ifs <;> decide
  rw [Block.view, Block.view, Block.View.mk.injEq, hflags, heids, htype, hpayload, hmerge,
    Block.receiver_blocktype_iff hc.hasType]
  have hannounced := Block.announced_iff c
  constructor
  · rintro ⟨hknown, ⟨houtside, hown⟩, hread, -⟩
    obtain ⟨hcontains, hreadable⟩ := hannounced.1 ⟨houtside, hread⟩
    exact ⟨hknown, hcontains, hown, hreadable⟩
  · rintro ⟨hknown, hcontains, hown, hreadable⟩
    obtain ⟨houtside, hread⟩ := hannounced.2 ⟨hcontains, hreadable⟩
    exact ⟨hknown, ⟨houtside, hown⟩, hread, rfl⟩

/-- A primary block is read as it was written if its EIDs are those that their texts denote, and the
fragment fields of one that is no fragment are there before. -/
theorem receivedPrimary_eq_iff (p obj : PrimaryBlock) :
    DefaultDeserializer.receivedPrimary reparsed p obj = p ↔
      (∀ e ∈ Bundle.headerEIDs p, e.Readable) ∧
        (p.get PrimaryBlock.fragment = false →
          obj.fragmentoffset = p.fragmentoffset ∧ obj.appdatalength = p.appdatalength) := by
  rcases p with ⟨procflags, time, seq, life, offset, data, s, d, r, c⟩
  simp only [DefaultDeserializer.receivedPrimary, PrimaryBlock.mk.injEq, Bundle.headerEIDs,
    List.forall_mem_cons, List.not_mem_nil, IsEmpty.forall_iff, implies_true, and_true, true_and]
  cases hf : PrimaryBlock.get ⟨procflags, time, seq, life, offset, data, s, d, r, c⟩
    PrimaryBlock.fragment with
  | false =>
      simp only [Bool.false_eq_true, if_false, forall_const]
      constructor
      · rintro ⟨ho, hd, h1, h2, h3, h4⟩
        exact ⟨⟨h2, h1, h3, h4⟩, ho, hd⟩
      · rintro ⟨⟨h2, h1, h3, h4⟩, ho, hd⟩
        exact ⟨ho, hd, h1, h2, h3, h4⟩
  | true =>
      simp only [if_true, true_and, Bool.true_eq_false, IsEmpty.forall_iff, and_true]
      constructor
      · rintro ⟨h1, h2, h3, h4⟩
        exact ⟨h2, h1, h3, h4⟩
      · rintro ⟨h2, h1, h3, h4⟩
        exact ⟨h1, h2, h3, h4⟩

namespace Bundle

/-- **A bundle is read back** from its text: the primary block is the same, and the blocks have the
same types, flags, EIDs and payloads. -/
def SurvivesText (env : PlainEnv) (b obj : Bundle) : Prop :=
  ∃ n, b.ofPlainText env obj = .ok n ∧ n.toPrimaryBlock = b.toPrimaryBlock ∧
    n.blocks.map Block.view = b.blocks.map Block.view

/-- The condition for that, when the text is read into the bundle `obj`. -/
structure Kept (b obj : Bundle) : Prop where
  ends : b.Ends
  header : ∀ e ∈ headerEIDs b.toPrimaryBlock, e.Readable
  fragment : b.get PrimaryBlock.fragment = false →
    obj.fragmentoffset = b.fragmentoffset ∧ obj.appdatalength = b.appdatalength
  blocks : ∀ c ∈ b.blocks, c.Kept

/-- **Which bundles are read back from their texts**: those with a final block that is not given up,
whose EIDs are those that their texts denote, and whose blocks have types and flags that the text
keeps. -/
theorem survivesText_iff {env : PlainEnv} (hbase64 : env.base64.Restores)
    (hblob : env.blob.CopiesExactly) {b : Bundle} (hb : b.Writable) (obj : Bundle) :
    b.SurvivesText env obj ↔ b.Kept obj := by
  have hok := PlainDeserializer.ofPlainText_of_ends hbase64 hblob hb obj
  have hprimary := receivedPrimary_eq_iff b.toPrimaryBlock obj.toPrimaryBlock
  have hviews : (b.plain obj).blocks.map Block.view = b.blocks.map Block.view ↔
      ∀ c ∈ b.blocks, c.Kept := by
    rw [plain, List.map_map, List.map_inj_left]
    exact forall₂_congr fun c hc => Block.view_plain_iff (hb.blocks c hc)
  constructor
  · rintro ⟨n, hn, hsame, hblocks⟩
    have hends : b.Ends := by
      by_contra hnot
      rw [PlainDeserializer.ofPlainText_of_not_ends hbase64 hblob hb obj hnot] at hn
      cases hn
    rw [hok hends] at hn
    obtain rfl := Except.ok.inj hn
    obtain ⟨heids, hfragment⟩ := hprimary.1 hsame
    exact ⟨hends, heids, hfragment, hviews.1 hblocks⟩
  · rintro ⟨hends, heids, hfragment, hkept⟩
    exact ⟨_, hok hends, hprimary.2 ⟨heids, hfragment⟩, hviews.2 hkept⟩

/-- The streams for Base64, without the line breaks of longer texts. -/
def samplePlainEnv : PlainEnv := ⟨⟨Base64.encode, Base64.decode⟩, BLOB.exact, ⟨0, 0⟩⟩

/-- A bundle with an age block and a payload for `dtn://a`. -/
def sampleAged : Bundle :=
  sample [⟨10, Block.replicateInEveryFragment, [], .age ⟨5, 0, 0⟩⟩,
    samplePayload (lastBlock ||| blockContainsEids) [sampleEID]]

theorem survivesText_iff_sample : sampleAged.SurvivesText samplePlainEnv (create 0 0) := by
  have hmarked : BlockList.Marked sampleAged.blocks := ⟨by decide, rfl⟩
  refine (survivesText_iff (fun bs => Base64.reads_decode bs) BLOB.exact_copiesExactly
    ⟨hmarked, by decide, fun c hc => ?_, rfl⟩ _).2
      ⟨⟨_, rfl, by decide⟩, by decide, fun _ => ⟨rfl, rfl⟩, fun c hc => ?_⟩
  · rcases List.mem_pair.1 hc with rfl | rfl
    · exact ⟨by decide, fun s hs => (by cases hs), by decide, by decide, by decide⟩
    · exact ⟨by decide, fun s hs => (by cases hs), by decide, by decide, by decide⟩
  · rcases List.mem_pair.1 hc with rfl | rfl
    · exact ⟨by decide, by decide, by decide, by decide⟩
    · exact ⟨by decide, by decide, by decide, by decide⟩

end Bundle

end IbrDtn
