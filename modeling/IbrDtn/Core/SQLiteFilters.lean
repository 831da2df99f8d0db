import IbrDtn.Core.SQLiteQuery
import IbrDtn.Core.SQLiteTransactions
import IbrDtn.Routing.RoutingExtensions

/-!
# Filters with conditions in SQL

The filter of the neighbor routing and that of a registration are written twice, as a function on meta
data and as a condition in SQL: `NeighborRoutingExtension.cpp` compares the nodes of EIDs, or asks
for the text of a node with a path behind it, and `api/Registration.cpp` compares texts.  This file
says for which contents of the storage the queries of all filters answer what the functions say.

## Main definitions

* `SQL.like` : the operator `LIKE`.
* `NeighborRoutingExtension.bundleFilter`, `Registration.bundleFilter` : the filters.
* `SQLiteBundleStorage.Answers`, `SQLiteBundleStorage.Answered` : the answer to a query is right.
* `SQLiteBundleStorage.Tabular`, `SQLiteBundleStorage.Plain` : the bundles and contents for which it is.

## Main results

* `SQLiteBundleStorage.metaBundle_of_tabular`, `SQLiteBundleStorage.tabular_of_metaBundle` : the
  bundles whose meta data is in their columns.
* `SQLiteBundleStorage.answered_iff` : the contents for which every query is answered.
-/

namespace IbrDtn

open Selection (select accepts)

/-! ### Patterns -/

namespace SQL

/-- The characters of a text in UTF-8. -/
def characters (text : Bytes) : List Bytes :=
  text.splitBy fun a b => decide (0x80 ≤ a) && decide (b &&& 0xc0 = 0x80)

/-- Upper case letters of ASCII are lower case letters for `LIKE`. -/
def foldCase (character : Bytes) : Bytes :=
  character.map fun b => if 0x41 ≤ b ∧ b ≤ 0x5a then b + 0x20 else b

/-- A pattern of characters: `%` stands for any characters, and `_` for one. -/
def likeCharacters : List Bytes → List Bytes → Bool
  | [], text => text.isEmpty
  | p :: pattern, text =>
      if p = ascii ['%'] then text.tails.any (likeCharacters pattern)
      else
        match text with
        | [] => false
        | t :: text =>
            (decide (p = ascii ['_']) || decide (foldCase p = foldCase t)) &&
              likeCharacters pattern text

/-- `text LIKE pattern`. -/
def like (pattern text : Bytes) : Bool := likeCharacters (characters pattern) (characters text)

end SQL

/-! ### Filters -/

/-- What the filter of the neighbor routing binds for a node. -/
def NeighborRoutingExtension.pattern (node : EID) : Bytes := node.getString ++ ascii ['/', '%']

/-- `BundleFilter` of the neighbor routing, for a neighbor with the given node. -/
def NeighborRoutingExtension.bundleFilter (destination node : EID) :
    BundleFilter NeighborDatabase.Exn where
  limit := 10
  shouldAdd := shouldAdd destination
  getWhere := some fun row => SQL.like (pattern node) row.destination

/-- `BundleFilter` of a registration. -/
def Registration.bundleFilter (endpoints : List EID) (blist : BundleList) :
    BundleFilter NeighborDatabase.Exn where
  limit := 10
  shouldAdd m := .ok ((OrderedSet.find? id EID.lt m.destination endpoints).isSome &&
    !blist.contains m.toBundleID)
  getWhere := some fun row => endpoints.any fun e => decide (row.destination = e.getString)

namespace SQLiteBundleStorage

/-- The filters: a callback, that of the neighbor routing, and that of a registration. -/
inductive Asked : BundleFilter NeighborDatabase.Exn → Prop
  | callback (limit : ℕ) (shouldAdd : MetaBundle → Except NeighborDatabase.Exn Bool) :
      Asked ⟨limit, shouldAdd, none⟩
  | neighbor {destination node : EID} (h : destination.getNode = .ok node) :
      Asked (NeighborRoutingExtension.bundleFilter destination node)
  | registration (endpoints : List EID) (blist : BundleList) :
      Asked (Registration.bundleFilter endpoints blist)

/-- The bundle is not marked for deletion. -/
def Live (s : SQLiteBundleStorage) (b : Bundle) : Prop := b.toBundleID ∉ s.deletionList

instance (s : SQLiteBundleStorage) (b : Bundle) : Decidable (s.Live b) :=
  inferInstanceAs (Decidable (¬ _))

/-- **The answer to a query is right**: it is the meta data of different bundles that are not marked and
that the filter accepts, in the order of their priorities, at most as many as the limit says, and
if a bundle is missing the limit is reached. -/
structure Answers (s : SQLiteBundleStorage) (c : Clock) (bundles : List Bundle)
    (f : BundleFilter NeighborDatabase.Exn) (ret : List MetaBundle) : Prop where
  accepted : ∀ m ∈ ret, f.shouldAdd m = .ok true ∧ ∃ b ∈ bundles, s.Live b ∧ m = .ofBundle c b
  distinct : (ret.map MetaBundle.toBundleID).Nodup
  sorted : ret.Pairwise fun a b => b.getPriority ≤ a.getPriority
  limit : 0 < f.limit → ret.length ≤ f.limit
  complete : ∀ b ∈ bundles, s.Live b → f.shouldAdd (.ofBundle c b) = .ok true →
    MetaBundle.ofBundle c b ∈ ret ∨ 0 < f.limit ∧ ret.length = f.limit

/-- A query is answered, if its filter throws for no bundle that is not marked. -/
def Answered (s : SQLiteBundleStorage) (c : Clock) (bundles : List Bundle)
    (f : BundleFilter NeighborDatabase.Exn) (rows : List BundleRow) : Prop :=
  (∀ b ∈ bundles, s.Live b → ∃ added, f.shouldAdd (.ofBundle c b) = .ok added) →
    ∃ ret, s.getFilter c f rows = some (.ok ret) ∧ s.Answers c bundles f ret

/-- **The meta data of a bundle is in its columns**: it is no fragment and has no limit of hops, its EIDs
are denoted by their texts, its flags survive a column of 32 bits, and no age block changes the
time at which it expires. -/
structure Tabular (c : Clock) (b : Bundle) : Prop where
  fragment : b.get PrimaryBlock.fragment = false
  offset : b.fragmentoffset = 0
  appdatalength : b.appdatalength = 0
  source : columnEID b.source.getString = b.source
  destination : columnEID b.destination.getString = b.destination
  reportto : columnEID b.reportto.getString = b.reportto
  custodian : columnEID b.custodian.getString = b.custodian
  procflags : ofColumnInt b.procflags.toUInt32 = b.procflags
  expiretime : c.getExpireTime b = c.expireTime b.timestamp b.lifetime
  hopcount : ∀ block, b.getBlock Block.newScopeControlHopLimit.blocktype
    Body.scopeControlHopLimit? = some block → block.getHopsToLive = UInt64.ofNat (2 ^ 64 - 1)

/-- The destination is of the given node. -/
def isFor (node : EID) (b : Bundle) : Bool :=
  match b.destination.getNode with
  | .ok n => decide (n = node)
  | .error _ => false

/-- The text of the destination has a path behind that of the given node. -/
def hasPath (node : EID) (b : Bundle) : Bool :=
  SQL.like (NeighborRoutingExtension.pattern node) b.destination.getString

/-- **The contents that can be read**: the meta data of the bundles that are not marked is in their columns,
the marks hide exactly the marked bundles, and the others are different bundles. -/
structure Legible (s : SQLiteBundleStorage) (c : Clock) (bundles : List Bundle) : Prop where
  tabular : ∀ b ∈ bundles, s.Live b → Tabular c b
  hidden : ∀ b ∈ bundles,
    s.containsDeletion ((BundleRow.ofBundle c b).metaBundle c false).toBundleID = true ↔ ¬ s.Live b
  distinct : ((bundles.filter fun b => decide (s.Live b)).map fun b => b.toBundleID).Nodup

/-- **The contents for which the queries are right**: they can be read, and if all destinations have host
parts, those of a node have paths, or ten of them do. -/
structure Plain (s : SQLiteBundleStorage) (c : Clock) (bundles : List Bundle) : Prop
    extends Legible s c bundles where
  path : (∀ b ∈ bundles, s.Live b → b.destination.HasHost) → ∀ node,
    (∀ b ∈ bundles, s.Live b → isFor node b = true → hasPath node b = true) ∨
      10 ≤ bundles.countP fun b => decide (s.Live b) && isFor node b && hasPath node b

/-! ### Columns -/

section Columns

variable {c : Clock} {b : Bundle}

/-- **The meta data is read from the columns.** -/
theorem metaBundle_of_tabular (h : Tabular c b) (hasHopcount : Bool) :
    (BundleRow.ofBundle c b).metaBundle c hasHopcount = .ofBundle c b := by
  have hfragment : FlagWord.has (ofColumnInt b.procflags.toUInt32) PrimaryBlock.fragment = false := by
    rw [h.procflags]
    exact h.fragment
  have hhopcount : (if hasHopcount then (BundleRow.ofBundle c b).hopcount.getD
      (UInt64.ofNat (2 ^ 64 - 1)) else UInt64.ofNat (2 ^ 64 - 1)) =
      (MetaBundle.ofBundle c b).hopcount := by
    rw [BundleRow.ofBundle, MetaBundle.ofBundle]
    dsimp only
    cases hblock : b.getBlock Block.newScopeControlHopLimit.blocktype
      Body.scopeControlHopLimit? with
    | none => simp
    | some block => simp [h.hopcount block hblock]
  rw [BundleRow.metaBundle, hhopcount]
  change MetaBundle.mk ⟨columnEID b.source.getString, b.timestamp, b.sequencenumber, false,
      if FlagWord.has (ofColumnInt b.procflags.toUInt32) PrimaryBlock.fragment = true then _ else 0⟩
    b.lifetime (columnEID b.destination.getString) (columnEID b.reportto.getString)
    (columnEID b.custodian.getString)
    (if FlagWord.has (ofColumnInt b.procflags.toUInt32) PrimaryBlock.fragment = true then _ else 0)
    (ofColumnInt b.procflags.toUInt32) (c.expireTime b.timestamp b.lifetime) _ = _
  have hmeta : MetaBundle.ofBundle c b =
      ⟨⟨b.source, b.timestamp, b.sequencenumber, b.get PrimaryBlock.fragment, b.fragmentoffset⟩,
        b.lifetime, b.destination, b.reportto, b.custodian, b.appdatalength, b.procflags,
        c.getExpireTime b, (MetaBundle.ofBundle c b).hopcount⟩ := rfl
  rw [hfragment, h.source, h.destination, h.reportto, h.custodian, h.procflags, ← h.expiretime,
    if_neg Bool.false_ne_true, if_neg Bool.false_ne_true, hmeta, h.fragment, h.offset,
    h.appdatalength]

/-- **The bundles whose meta data is read from some row.** -/
theorem tabular_of_metaBundle {row : BundleRow} (h : row.metaBundle c false = .ofBundle c b) :
    Tabular c b := by
  have hid : (row.metaBundle c false).toBundleID = b.toBundleID := congrArg MetaBundle.toBundleID h
  have hfragment : b.get PrimaryBlock.fragment = false := (congrArg BundleID.fragment hid).symm
  have hflags : ofColumnInt row.procflags = b.procflags := congrArg MetaBundle.procflags h
  have hflag : FlagWord.has (ofColumnInt row.procflags) PrimaryBlock.fragment = false := by
    rw [hflags]
    exact hfragment
  refine ⟨hfragment, ?_, ?_, ?_, ?_, ?_, ?_, ?_, ?_, fun block hblock => ?_⟩
  · have hoffset : (row.metaBundle c false).offset = b.fragmentoffset := congrArg BundleID.offset hid
    rw [← hoffset, BundleRow.metaBundle]
    exact if_neg (by rw [hflag]; exact Bool.false_ne_true)
  · have hlength : (row.metaBundle c false).appdatalength = b.appdatalength :=
      congrArg MetaBundle.appdatalength h
    rw [← hlength, BundleRow.metaBundle]
    exact if_neg (by rw [hflag]; exact Bool.false_ne_true)
  · rw [show b.source = columnEID row.source from (congrArg BundleID.source hid).symm]
    exact columnEID_getString_columnEID _
  · rw [show b.destination = columnEID row.destination from (congrArg MetaBundle.destination h).symm]
    exact columnEID_getString_columnEID _
  · rw [show b.reportto = columnEID row.reportto from (congrArg MetaBundle.reportto h).symm]
    exact columnEID_getString_columnEID _
  · rw [show b.custodian = columnEID row.custodian from (congrArg MetaBundle.custodian h).symm]
    exact columnEID_getString_columnEID _
  · rw [← hflags]
    exact ofColumnInt_toUInt32 _
  · have htime : c.expireTime row.timestamp row.lifetime = c.getExpireTime b :=
      congrArg MetaBundle.expiretime h
    rw [← htime, show row.timestamp = b.timestamp from congrArg BundleID.timestamp hid,
      show row.lifetime = b.lifetime from congrArg MetaBundle.lifetime h]
  · have hhops : UInt64.ofNat (2 ^ 64 - 1) = (MetaBundle.ofBundle c b).hopcount :=
      congrArg MetaBundle.hopcount h
    rw [MetaBundle.ofBundle, hblock] at hhops
    exact hhops.symm

end Columns

/-! ### Answers -/

section Answers

variable {s : SQLiteBundleStorage} {c : Clock} {bundles : List Bundle}
  {f : BundleFilter NeighborDatabase.Exn} {rows : List BundleRow}

/-- The condition of a filter holds for the row of a bundle. -/
def admits (f : BundleFilter NeighborDatabase.Exn) (row : BundleRow) : Bool :=
  (f.getWhere.map (· row)).getD true

/-- The row of a bundle has its meta data and is hidden exactly if the bundle is marked. -/
theorem Legible.offer_eq (h : s.Legible c bundles) {b : Bundle} (hb : b ∈ bundles) :
    (s.Live b → readMeta c f (.ofBundle c b) = .ofBundle c b) ∧
      s.offer c f (.ofBundle c b) =
        if s.Live b then f.shouldAdd (.ofBundle c b) else .ok false := by
  have hmeta (hlive : s.Live b) : readMeta c f (.ofBundle c b) = .ofBundle c b :=
    metaBundle_of_tabular (h.tabular b hb hlive) _
  refine ⟨hmeta, ?_⟩
  have hhidden : s.containsDeletion (readMeta c f (.ofBundle c b)).toBundleID = true ↔ ¬ s.Live b :=
    h.hidden b hb
  rw [offer]
  by_cases hlive : s.Live b
  · rw [if_pos hlive, if_neg fun hdeleted => hhidden.1 hdeleted hlive, hmeta hlive]
  · rw [if_neg hlive, if_pos (hhidden.2 hlive)]

/-- The rows that a filter accepts are those of bundles that are not marked. -/
theorem Legible.accepts_iff (h : s.Legible c bundles) {b : Bundle} (hb : b ∈ bundles) :
    accepts (s.offer c f) (.ofBundle c b) = true ↔
      s.Live b ∧ f.shouldAdd (.ofBundle c b) = .ok true := by
  rw [accepts, (h.offer_eq hb).2]
  by_cases hlive : s.Live b
  · rw [if_pos hlive]
    cases f.shouldAdd (.ofBundle c b) <;> simp [hlive]
  · simp [hlive]

variable (hbundles : s.database.bundles = bundles.map (BundleRow.ofBundle c))
  (hrows : Returns f s.database rows)

include hbundles hrows

/-- The rows of a query are those of bundles that the condition of its filter admits. -/
theorem mem_rows {row : BundleRow} : row ∈ rows ↔
    ∃ b ∈ bundles, BundleRow.ofBundle c b = row ∧ admits f row = true := by
  rw [hrows.perm.mem_iff, List.mem_filter, hbundles, List.mem_map]
  exact ⟨fun ⟨⟨b, hb, heq⟩, hwhere⟩ => ⟨b, hb, heq, hwhere⟩,
    fun ⟨b, hb, heq, hwhere⟩ => ⟨⟨b, hb, heq⟩, hwhere⟩⟩

/-- How many rows a filter accepts. -/
theorem countP_rows (p : BundleRow → Bool) : rows.countP p =
    bundles.countP fun b => p (.ofBundle c b) && admits f (.ofBundle c b) := by
  rw [hrows.perm.countP_eq, List.countP_filter, hbundles, List.countP_map]
  rfl

/-- What a filter accepts of the rows are different bundles. -/
theorem Legible.nodup (h : s.Legible c bundles) :
    ((rows.filter (accepts (s.offer c f))).map fun row => (readMeta c f row).toBundleID).Nodup := by
  let p (b : Bundle) : Bool := accepts (s.offer c f) (.ofBundle c b) && admits f (.ofBundle c b)
  have hlive {b : Bundle} (hb : b ∈ bundles) (hp : p b = true) : s.Live b :=
    ((h.accepts_iff hb).1 (Bool.and_eq_true_iff.1 hp).1).1
  have hperm : (rows.filter (accepts (s.offer c f))).Perm
      ((bundles.filter p).map (BundleRow.ofBundle c)) := by
    refine (hrows.perm.filter _).trans (.of_eq ?_)
    rw [List.filter_filter, hbundles, List.filter_map]
    rfl
  have hid : ((bundles.filter p).map (BundleRow.ofBundle c)).map
      (fun row => (readMeta c f row).toBundleID) = (bundles.filter p).map fun b => b.toBundleID := by
    rw [List.map_map]
    refine List.map_congr_left fun b hb => ?_
    obtain ⟨hmem, hp⟩ := List.mem_filter.1 hb
    exact congrArg MetaBundle.toBundleID ((h.offer_eq hmem).1 (hlive hmem hp))
  have hsublist : (bundles.filter p).Sublist (bundles.filter fun b => decide (s.Live b)) := by
    have heq : bundles.filter p = (bundles.filter fun b => decide (s.Live b)).filter p := by
      rw [List.filter_filter]
      refine List.filter_congr fun b hb => ?_
      cases hp : p b with
      | false => rfl
      | true => exact (decide_eq_true (hlive hb hp)).symm
    rw [heq]
    exact List.filter_sublist
  rw [(hperm.map _).nodup_iff, hid]
  exact h.distinct.sublist (hsublist.map _)

/-- **The queries are answered** if the bundles that their filters accept are admitted by the conditions, or
as many as the limit says. -/
theorem Legible.answered (h : s.Legible c bundles)
    (hadmits : (∀ b ∈ bundles, s.Live b → ∃ added, f.shouldAdd (.ofBundle c b) = .ok added) →
      (∀ b ∈ bundles, s.Live b → f.shouldAdd (.ofBundle c b) = .ok true →
        admits f (.ofBundle c b) = true) ∨
      0 < f.limit ∧ f.limit ≤ bundles.countP fun b =>
        decide (s.Live b) && accepts f.shouldAdd (.ofBundle c b) && admits f (.ofBundle c b)) :
    s.Answered c bundles f rows := by
  intro hanswers
  have hmem {row : BundleRow} (hrow : row ∈ rows) : ∃ b ∈ bundles, BundleRow.ofBundle c b = row :=
    let ⟨b, hb, heq, _⟩ := (mem_rows hbundles hrows).1 hrow
    ⟨b, hb, heq⟩
  have hok : ∀ row ∈ rows, ∃ added, s.offer c f row = .ok added := by
    intro row hrow
    obtain ⟨b, hb, rfl⟩ := hmem hrow
    rw [(h.offer_eq hb).2]
    split_ifs with hlive
    · exact hanswers b hb hlive
    · exact ⟨false, rfl⟩
  let ret := ((rows.filter (accepts (s.offer c f))).take
    (if 0 < f.limit then f.limit else rows.length)).map (readMeta c f)
  have hget : s.getFilter c f rows = some (.ok ret) := by
    rw [getFilter_eq, Selection.select_eq_ok hok]
    rfl
  have hret {m : MetaBundle} (hm : m ∈ ret) : ∃ b ∈ bundles, s.Live b ∧
      f.shouldAdd (.ofBundle c b) = .ok true ∧ readMeta c f (.ofBundle c b) = m ∧
        m = .ofBundle c b := by
    obtain ⟨row, hrow, rfl⟩ := List.mem_map.1 hm
    obtain ⟨hrow, hadd⟩ := List.mem_filter.1 (List.mem_of_mem_take hrow)
    obtain ⟨b, hb, rfl⟩ := hmem hrow
    obtain ⟨hlive, hadd⟩ := (h.accepts_iff hb).1 hadd
    exact ⟨b, hb, hlive, hadd, rfl, (h.offer_eq hb).1 hlive⟩
  refine ⟨ret, hget, fun m hm => ?_, ?_, ?_, fun hlimit => ?_, fun b hb hlive hadd => ?_⟩
  · obtain ⟨b, hb, hlive, hadd, -, rfl⟩ := hret hm
    exact ⟨hadd, b, hb, hlive, rfl⟩
  · rw [List.map_map]
    exact (h.nodup hbundles hrows).sublist ((List.take_sublist _ _).map _)
  · refine List.pairwise_map.2 (((hrows.sorted.filter _).sublist
      (List.take_sublist _ _)).imp_of_mem fun {x y} hx hy hle => ?_)
    have hpriority {row : BundleRow} (hrow : row ∈ (rows.filter (accepts (s.offer c f))).take
        (if 0 < f.limit then f.limit else rows.length)) :
        (readMeta c f row).getPriority = row.priority := by
      obtain ⟨hrow, hadd⟩ := List.mem_filter.1 (List.mem_of_mem_take hrow)
      obtain ⟨b, hb, rfl⟩ := hmem hrow
      rw [(h.offer_eq hb).1 ((h.accepts_iff hb).1 hadd).1]
      rfl
    rw [hpriority hx, hpriority hy]
    exact hle
  · rw [List.length_map, if_pos hlimit]
    exact List.length_take_le _ _
  · have hcount : (rows.filter (accepts (s.offer c f))).length = bundles.countP fun b =>
        decide (s.Live b) && accepts f.shouldAdd (.ofBundle c b) && admits f (.ofBundle c b) := by
      rw [← List.countP_eq_length_filter, countP_rows hbundles hrows]
      refine List.countP_congr fun b hb => ?_
      rw [Bool.and_eq_true_iff, Bool.and_eq_true_iff, Bool.and_eq_true_iff, h.accepts_iff hb,
        decide_eq_true_eq, accepts]
      cases f.shouldAdd (.ofBundle c b) <;> simp
    by_cases hcut : 0 < f.limit ∧ f.limit ≤ (rows.filter (accepts (s.offer c f))).length
    · refine .inr ⟨hcut.1, ?_⟩
      rw [List.length_map, if_pos hcut.1, List.length_take, Nat.min_eq_left hcut.2]
    · have hadmitted : admits f (.ofBundle c b) = true := by
        rcases hadmits hanswers with hall | ⟨hlimit, hle⟩
        · exact hall b hb hlive hadd
        · exact absurd ⟨hlimit, hcount ▸ hle⟩ hcut
      have hrow : BundleRow.ofBundle c b ∈ rows.filter (accepts (s.offer c f)) :=
        List.mem_filter.2 ⟨(mem_rows hbundles hrows).2 ⟨b, hb, rfl, hadmitted⟩,
          (h.accepts_iff hb).2 ⟨hlive, hadd⟩⟩
      refine .inl (List.mem_map.2 ⟨_, ?_, (h.offer_eq hb).1 hlive⟩)
      rw [List.take_of_length_le]
      · exact hrow
      · split_ifs with hlimit
        · exact Nat.le_of_not_le fun hle => hcut ⟨hlimit, hle⟩
        · exact List.length_filter_le _ _

end Answers

/-- The filter of the neighbor routing throws for a destination without host part, and accepts those of
the node. -/
theorem shouldAdd_neighbor {destination node : EID} (h : destination.getNode = .ok node) (c : Clock)
    (b : Bundle) :
    ((∃ added, NeighborRoutingExtension.shouldAdd destination (.ofBundle c b) = .ok added) ↔
        b.destination.HasHost) ∧
      (NeighborRoutingExtension.shouldAdd destination (.ofBundle c b) = .ok true ↔
        isFor node b = true) := by
  rw [NeighborRoutingExtension.shouldAdd, h, isFor,
    show (MetaBundle.ofBundle c b).destination = b.destination from rfl]
  by_cases hhost : b.destination.HasHost
  · obtain ⟨n, hn⟩ := EID.exists_getNode hhost
    rw [hn]
    refine ⟨iff_of_true ⟨_, rfl⟩ hhost, ?_⟩
    simp [ofEID, Except.mapError, bind, Except.bind, pure, Except.pure, eq_comm]
  · rw [EID.getNode_of_not_hasHost hhost]
    refine ⟨iff_of_false ?_ hhost, ?_⟩
    · rintro ⟨added, hadded⟩
      cases hadded
    · simp [ofEID, Except.mapError, bind, Except.bind]

/-- The set of endpoints has the text of what it finds. -/
theorem exists_getString_of_find? {e : EID} {endpoints : List EID}
    (h : (OrderedSet.find? id EID.lt e endpoints).isSome = true) :
    ∃ e' ∈ endpoints, e.getString = e'.getString := by
  by_contra hnone
  have hcompared : ∀ x ∈ endpoints, EID.lt x e = true ∨ EID.lt e x = true := by
    intro x hx
    have hne : x.getString.map UInt8.toNat ≠ e.getString.map UInt8.toNat := fun heq =>
      hnone ⟨x, hx, (BundleID.getString_inj.1 heq).symm⟩
    exact (lt_or_gt_of_ne hne).imp decide_eq_true decide_eq_true
  have hfind : OrderedSet.find? id EID.lt e endpoints = none :=
    OrderedSet.find?_eq_none_of_comparable hcompared
  rw [hfind] at h
  exact Bool.noConfusion h

section Necessary

variable {s : SQLiteBundleStorage} {c : Clock} {bundles : List Bundle}
  {query : BundleFilter NeighborDatabase.Exn → List BundleRow}
  (hbundles : s.database.bundles = bundles.map (BundleRow.ofBundle c))
  (hquery : ∀ f, Returns f s.database (query f))
  (h : ∀ f, Asked f → s.Answered c bundles f (query f))

/-- The filter that accepts everything. -/
def everything : BundleFilter NeighborDatabase.Exn := ⟨0, fun _ => .ok true, none⟩

/-- No mark hides the row. -/
def shows (s : SQLiteBundleStorage) (c : Clock) (row : BundleRow) : Bool :=
  !s.containsDeletion (row.metaBundle c false).toBundleID

include h

/-- **The answer to the query for everything** is what is read from the rows that no mark hides. -/
theorem answers_everything : s.Answers c bundles everything
    (((query everything).filter (s.shows c)).map (BundleRow.metaBundle c false)) := by
  have hoffer (row : BundleRow) : s.offer c everything row = .ok (s.shows c row) := by
    rw [offer, shows]
    change (if s.containsDeletion (row.metaBundle c false).toBundleID = true then _ else _) = _
    cases s.containsDeletion (row.metaBundle c false).toBundleID <;> rfl
  have haccepts : accepts (s.offer c everything) = s.shows c := by
    funext row
    rw [accepts, hoffer]
  obtain ⟨ret, hget, hanswers⟩ := h everything (.callback _ _) fun _ _ _ => ⟨true, rfl⟩
  have hselect : select (s.offer c everything) (query everything).length (query everything) =
      .ok ((query everything).filter (s.shows c)) := by
    rw [Selection.select_eq_ok fun row _ => ⟨_, hoffer row⟩, haccepts,
      List.take_of_length_le (List.length_filter_le _ _)]
  rw [getFilter_eq, if_neg (show ¬ 0 < everything.limit from Nat.lt_irrefl 0), hselect] at hget
  rw [← Except.ok.inj (Option.some.inj hget)] at hanswers
  exact hanswers

include hbundles hquery

/-- **If the queries are right, the contents can be read.** -/
theorem legible_of_answered : s.Legible c bundles := by
  have hanswers := answers_everything h
  have hperm : (query everything).Perm (bundles.map (BundleRow.ofBundle c)) := by
    refine (hquery everything).perm.trans (.of_eq ?_)
    rw [hbundles]
    exact List.filter_eq_self.2 fun _ _ => rfl
  have hfound {b : Bundle} (hb : b ∈ bundles) (hlive : s.Live b) :
      ∃ row, s.shows c row = true ∧ row.metaBundle c false = .ofBundle c b := by
    have hmem := (hanswers.complete b hb hlive rfl).resolve_right fun hcut =>
      absurd hcut.1 (Nat.lt_irrefl 0)
    obtain ⟨row, hrow, heq⟩ := List.mem_map.1 hmem
    exact ⟨row, (List.mem_filter.1 hrow).2, heq⟩
  have htabular : ∀ b ∈ bundles, s.Live b → Tabular c b := fun b hb hlive => by
    obtain ⟨row, -, heq⟩ := hfound hb hlive
    exact tabular_of_metaBundle heq
  have hlive : ∀ b ∈ bundles, s.Live b → s.shows c (.ofBundle c b) = true := fun b hb hlive => by
    obtain ⟨row, hshows, heq⟩ := hfound hb hlive
    rw [shows, heq] at hshows
    rw [shows, metaBundle_of_tabular (htabular b hb hlive) false]
    exact hshows
  have hnodup : (((bundles.filter fun b => s.shows c (.ofBundle c b))).map fun b =>
      ((BundleRow.ofBundle c b).metaBundle c false).toBundleID).Nodup := by
    have hdistinct := hanswers.distinct
    rw [List.map_map, ((hperm.filter _).map _).nodup_iff, List.filter_map, List.map_map] at hdistinct
    exact hdistinct
  have hshows : ∀ b ∈ bundles, s.shows c (.ofBundle c b) = true → s.Live b := fun b hb hshows => by
    have hmem : (BundleRow.ofBundle c b).metaBundle c false ∈
        ((query everything).filter (s.shows c)).map (BundleRow.metaBundle c false) :=
      List.mem_map.2 ⟨_, List.mem_filter.2 ⟨hperm.mem_iff.2 (List.mem_map_of_mem hb), hshows⟩, rfl⟩
    obtain ⟨-, b', hb', hlive', heq⟩ := hanswers.accepted _ hmem
    have hsame : b = b' := by
      refine List.inj_on_of_nodup_map hnodup (List.mem_filter.2 ⟨hb, hshows⟩)
        (List.mem_filter.2 ⟨hb', hlive b' hb' hlive'⟩) ?_
      rw [heq, metaBundle_of_tabular (htabular b' hb' hlive') false]
    rw [hsame]
    exact hlive'
  refine ⟨htabular, fun b hb => ?_, ?_⟩
  · rw [← not_iff_not, not_not, Bool.not_eq_true, ← Bool.not_eq_true']
    exact ⟨hshows b hb, hlive b hb⟩
  · rw [List.filter_congr fun b hb => (show s.shows c (.ofBundle c b) = decide (s.Live b) by
      rw [Bool.eq_iff_iff, decide_eq_true_eq]
      exact ⟨hshows b hb, hlive b hb⟩)] at hnodup
    refine (List.map_congr_left fun b hb => ?_) ▸ hnodup
    obtain ⟨hmem, hb⟩ := List.mem_filter.1 hb
    rw [metaBundle_of_tabular (htabular b hmem (of_decide_eq_true hb)) false]
    rfl

/-- **If the queries are right, the destinations of a node have paths**, or the limit hides those that have
none. -/
theorem path_of_answered (hhost : ∀ b ∈ bundles, s.Live b → b.destination.HasHost) (node : EID) :
    (∀ b ∈ bundles, s.Live b → isFor node b = true → hasPath node b = true) ∨
      10 ≤ bundles.countP fun b => decide (s.Live b) && isFor node b && hasPath node b := by
  have hlegible := legible_of_answered hbundles hquery h
  refine or_iff_not_imp_left.2 fun hnot => ?_
  push Not at hnot
  obtain ⟨b, hb, hlive, hfor, hpath⟩ := hnot
  have hnode : b.destination.getNode = .ok node := by
    rw [isFor] at hfor
    split at hfor
    · next n hn => rw [hn, of_decide_eq_true hfor]
    · cases hfor
  let f := NeighborRoutingExtension.bundleFilter b.destination node
  obtain ⟨ret, hget, hanswers⟩ := h f (.neighbor hnode) fun b' hb' hlive' =>
    (shouldAdd_neighbor hnode c b').1.2 (hhost b' hb' hlive')
  rw [getFilter_eq, if_pos (show 0 < f.limit from Nat.succ_pos 9)] at hget
  cases hselect : select (s.offer c f) f.limit (query f) with
  | error e =>
      rw [hselect] at hget
      cases hget
  | ok t =>
      rw [hselect] at hget
      obtain rfl : t.map (readMeta c f) = ret := Except.ok.inj (Option.some.inj hget)
      have hadd := (shouldAdd_neighbor hnode c b).2.2 hfor
      rcases hanswers.complete b hb hlive hadd with hmem | ⟨-, hfull⟩
      · obtain ⟨row, hrow, heq⟩ := List.mem_map.1 hmem
        obtain ⟨hrow, haccepted⟩ := Selection.accepts_of_mem_select hselect row hrow
        obtain ⟨b', hb', rfl, hadmits⟩ := (mem_rows hbundles (hquery f)).1 hrow
        have hlive' : s.Live b' := ((hlegible.accepts_iff hb').1 (by rw [accepts, haccepted])).1
        rw [(hlegible.offer_eq hb').1 hlive'] at heq
        have hsame : b'.destination = b.destination := congrArg MetaBundle.destination heq
        refine absurd ?_ hpath
        rw [hasPath, ← hsame]
        exact hadmits
      · rw [List.length_map, Selection.eq_take_of_select hselect] at hfull
        have hten : 10 ≤ ((query f).filter (accepts (s.offer c f))).length :=
          hfull.symm.le.trans (List.length_take_le' _ _)
        rw [← List.countP_eq_length_filter, countP_rows hbundles (hquery f)] at hten
        refine hten.trans (List.countP_mono_left fun b' hb' hall => ?_)
        obtain ⟨haccepted, hadmits⟩ := Bool.and_eq_true_iff.1 hall
        obtain ⟨hlive', hadd'⟩ := (hlegible.accepts_iff hb').1 haccepted
        rw [Bool.and_eq_true_iff, Bool.and_eq_true_iff]
        exact ⟨⟨decide_eq_true hlive', (shouldAdd_neighbor hnode c b').2.1 hadd'⟩, hadmits⟩

end Necessary

/-- **The queries are right for exactly the plain contents.** -/
theorem answered_iff {s : SQLiteBundleStorage} {c : Clock} {bundles : List Bundle}
    {query : BundleFilter NeighborDatabase.Exn → List BundleRow}
    (hbundles : s.database.bundles = bundles.map (BundleRow.ofBundle c))
    (hquery : ∀ f, Returns f s.database (query f)) :
    (∀ f, Asked f → s.Answered c bundles f (query f)) ↔ s.Plain c bundles := by
  constructor
  · exact fun h => ⟨legible_of_answered hbundles hquery h, path_of_answered hbundles hquery h⟩
  · intro h f hf
    refine h.answered hbundles (hquery f) fun hanswers => ?_
    cases hf with
    | callback limit shouldAdd => exact .inl fun _ _ _ _ => rfl
    | @neighbor destination node hnode =>
        have hhost : ∀ b ∈ bundles, s.Live b → b.destination.HasHost := fun b hb hlive =>
          (shouldAdd_neighbor hnode c b).1.1 (hanswers b hb hlive)
        refine (h.path hhost node).imp (fun hall b hb hlive hadd => ?_) fun hten => ?_
        · exact hall b hb hlive ((shouldAdd_neighbor hnode c b).2.1 hadd)
        · refine ⟨Nat.succ_pos 9, hten.trans (List.countP_mono_left fun b hb hall => ?_)⟩
          rw [Bool.and_eq_true_iff, Bool.and_eq_true_iff] at hall ⊢
          refine ⟨⟨hall.1.1, ?_⟩, hall.2⟩
          have hadd := (shouldAdd_neighbor hnode c b).2.2 hall.1.2
          rw [accepts, NeighborRoutingExtension.bundleFilter]
          dsimp only
          rw [hadd]
    | registration endpoints blist =>
        refine .inl fun b hb hlive hadd => ?_
        have hfind := (Bool.and_eq_true_iff.1 (Except.ok.inj hadd)).1
        obtain ⟨e, he, htext⟩ := exists_getString_of_find? hfind
        exact List.any_eq_true.2 ⟨e, he, decide_eq_true htext⟩

/-- A storage with one bundle. -/
def sampleWith (b : Bundle) : SQLiteBundleStorage :=
  { create with session := .closed ⟨[.ofBundle (Clock.showing 100) b], []⟩ }

/-- The neighbor `dtn://b`. -/
def sampleHost : EID := ⟨EID.defaultScheme, ascii ['/', '/', 'b']⟩

/-- The filter for this neighbor. -/
def sampleNeighbor : BundleFilter NeighborDatabase.Exn :=
  NeighborRoutingExtension.bundleFilter sampleHost sampleHost

/-- A bundle for an application of this neighbor. -/
def sampleForPath : Bundle :=
  { sampleWhole with destination := ⟨EID.defaultScheme, ascii ['/', '/', 'b', '/', 'x']⟩ }

theorem plain_sampleForPath :
    (sampleWith sampleForPath).Plain (Clock.showing 100) [sampleForPath] where
  tabular b hb _ := by
    obtain rfl := List.mem_singleton.1 hb
    have hhops : sampleForPath.getBlock Block.newScopeControlHopLimit.blocktype
        Body.scopeControlHopLimit? = none := by
      decide +kernel
    refine ⟨rfl, rfl, rfl, ?_, ?_, ?_, ?_, ?_, ?_, fun block hblock => ?_⟩
    iterate 6 decide +kernel
    rw [hhops] at hblock
    exact absurd hblock (by simp)
  hidden b hb := by
    obtain rfl := List.mem_singleton.1 hb
    decide +kernel
  distinct := by decide +kernel
  path _ node := by
    refine .inl fun b hb _ hnode => ?_
    obtain rfl := List.mem_singleton.1 hb
    have hgetNode : sampleForPath.destination.getNode = .ok sampleHost := rfl
    rw [isFor, hgetNode] at hnode
    obtain rfl : sampleHost = node := of_decide_eq_true hnode
    decide +kernel

theorem answered_iff_sample :
    (query sampleNeighbor (sampleWith sampleForPath).database).length = 1 ∧
      ∀ f, Asked f → (sampleWith sampleForPath).Answered (Clock.showing 100) [sampleForPath] f
        (query f (sampleWith sampleForPath).database) :=
  ⟨by decide +kernel, (answered_iff rfl fun f => returns_query f _).2 plain_sampleForPath⟩

/-- A bundle that may be forwarded three times. -/
def sampleHops : Bundle :=
  sampleWhole.pushBack { Block.newScopeControlHopLimit with body := .scopeControlHopLimit ⟨0, 3⟩ }

/-- A bundle for this neighbor, but for none of its applications. -/
def sampleForHost : Bundle := { sampleWhole with destination := sampleHost }

/-- The answer is not the meta data of the bundle. -/
theorem not_answers_of_ne {b : Bundle} {f : BundleFilter NeighborDatabase.Exn} {m : MetaBundle}
    (hget : ((sampleWith b).getFilter (Clock.showing 100) f
      (query f (sampleWith b).database)).bind Except.toOption = some [m])
    (hne : m ≠ .ofBundle (Clock.showing 100) b) {ret : List MetaBundle}
    (hret : (sampleWith b).getFilter (Clock.showing 100) f (query f (sampleWith b).database) =
      some (.ok ret)) : ¬ (sampleWith b).Answers (Clock.showing 100) [b] f ret := by
  rw [hret] at hget
  obtain rfl : ret = [m] := Option.some.inj hget
  intro h
  obtain ⟨-, b', hb', -, heq⟩ := h.accepted m List.mem_cons_self
  rw [List.mem_singleton.1 hb'] at heq
  exact hne heq

/-- **A fragment comes back as a whole bundle, a bundle without its number of hops, and a bundle for a
neighbor is not found** if its destination has no path. -/
theorem not_answered_sample :
    ¬ (sampleWith sampleFragment).Answered (Clock.showing 100) [sampleFragment] everything
        (query everything (sampleWith sampleFragment).database) ∧
      ¬ (sampleWith sampleHops).Answered (Clock.showing 100) [sampleHops] everything
        (query everything (sampleWith sampleHops).database) ∧
      sampleHost.getNode = .ok sampleHost ∧
        ¬ (sampleWith sampleForHost).Answered (Clock.showing 100) [sampleForHost] sampleNeighbor
          (query sampleNeighbor (sampleWith sampleForHost).database) := by
  have hnode : sampleHost.getNode = .ok sampleHost := rfl
  refine ⟨fun h => ?_, fun h => ?_, hnode, fun h => ?_⟩
  · obtain ⟨ret, hret, hanswers⟩ := h fun _ _ _ => ⟨true, rfl⟩
    exact not_answers_of_ne (m := (BundleRow.ofBundle (Clock.showing 100) sampleFragment).metaBundle
      (Clock.showing 100) false) (by decide +kernel) (by decide +kernel) hret hanswers
  · obtain ⟨ret, hret, hanswers⟩ := h fun _ _ _ => ⟨true, rfl⟩
    exact not_answers_of_ne (m := (BundleRow.ofBundle (Clock.showing 100) sampleHops).metaBundle
      (Clock.showing 100) false) (by decide +kernel) (by decide +kernel) hret hanswers
  · have hfor : isFor sampleHost sampleForHost = true := by decide +kernel
    have hshould := shouldAdd_neighbor hnode (Clock.showing 100) sampleForHost
    obtain ⟨ret, hret, hanswers⟩ := h fun b hb _ => by
      rw [List.mem_singleton.1 hb]
      exact ⟨true, hshould.2.2 hfor⟩
    have hnone : ((sampleWith sampleForHost).getFilter (Clock.showing 100) sampleNeighbor
        (query sampleNeighbor (sampleWith sampleForHost).database)).bind Except.toOption = some [] := by
      decide +kernel
    rw [hret] at hnone
    obtain rfl : ret = [] := Option.some.inj hnone
    rcases hanswers.complete sampleForHost List.mem_cons_self (by decide) (hshould.2.2 hfor) with h | h
    · exact absurd h List.not_mem_nil
    · exact absurd h.2 (by decide)

end SQLiteBundleStorage

end IbrDtn
