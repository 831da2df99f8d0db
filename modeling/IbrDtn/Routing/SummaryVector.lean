import IbrDtn.Data.BundleList
import IbrDtn.Library.BloomFilter

/-!
# Summary vectors

This file models `daemon/src/routing/SummaryVector.cpp` and `daemon/src/routing/BundleSummary.cpp`.
A summary vector is a Bloom filter of the texts of bundle identifiers, with the identifiers
themselves.  Only the table of the filter is written to a stream.  A bundle summary is a bundle
list with a summary vector that follows it.  It asks the vector first, whose texts tell a fragment
from its bundle, which the comparison of identifiers does not.

## Main definitions

* `SummaryVector`, `SummaryVector.write`, `SummaryVector.read` : the vector and its encoding.
* `BundleSummary` : the list, with its vector.
* `BundleSummary.Consistent` : the vector follows the list.
* `BundleSummary.run`, `BundleSummary.listOf` : the summary and the list behind a sequence of
  operations.
* `BundleSummary.Lingers` : a text is in the filter from a bundle that was there before.

## Main results

* `SummaryVector.reads_read` : what is read back answers as the vector that was written.
* `BundleSummary.Consistent.contains_of_mem` : the vector hides no bundle of the list.
* `BundleSummary.agrees_run_iff` : when a summary answers as its list, behind any operations.
-/

namespace IbrDtn

variable {F : Type} [BloomFilter F]

/-- `class SummaryVector`. -/
structure SummaryVector (F : Type) where
  bf : F
  ids : List BundleID
deriving DecidableEq

namespace SummaryVector

/-- `SummaryVector::SummaryVector()`. -/
def create : SummaryVector F := ⟨BloomFilter.create 8192, []⟩

/-- `SummaryVector::contains`. -/
def contains (v : SummaryVector F) (i : BundleID) : Bool := BloomFilter.contains v.bf i.toString

/-- `SummaryVector::add`. -/
def add (v : SummaryVector F) (i : BundleID) : SummaryVector F where
  bf := BloomFilter.insert v.bf i.toString
  ids := OrderedSet.insert id BundleID.lt i v.ids

/-- `SummaryVector::remove`: the filter keeps what was put into it. -/
def remove (v : SummaryVector F) (i : BundleID) : SummaryVector F :=
  { v with ids := OrderedSet.erase id BundleID.lt i v.ids }

/-- `SummaryVector::commit`: the filter is built again from the identifiers. -/
def commit (v : SummaryVector F) : SummaryVector F :=
  { v with
    bf := v.ids.foldl (fun f i => BloomFilter.insert f i.toString) (BloomFilter.clear v.bf) }

/-- `SummaryVector::clear`. -/
def clear (v : SummaryVector F) : SummaryVector F := ⟨BloomFilter.clear v.bf, []⟩

/-- `_bf.size()`. -/
def size (v : SummaryVector F) : UInt64 := UInt64.ofNat (BloomFilter.table v.bf).length

/-- `SummaryVector::getLength`. -/
def getLength (v : SummaryVector F) : UInt64 := UInt64.ofNat (SDNV.getLength v.size) + v.size

/-- `operator<<(std::ostream&, const SummaryVector&)`. -/
def write (v : SummaryVector F) : Bytes := SDNV.write v.size ++ BloomFilter.table v.bf

/-- `operator>>(std::istream&, SummaryVector&)`. -/
def read (v : SummaryVector F) : Parser Exn (SummaryVector F) := do
  let count ← SDNV.read
  let buffer ← Parser.readBytes count.toNat
  pure { v.clear with bf := BloomFilter.load v.clear.bf buffer }

/-- The vector that is read back, into a new one. -/
def received (v : SummaryVector F) : SummaryVector F :=
  ⟨BloomFilter.load (create : SummaryVector F).clear.bf (BloomFilter.table v.bf), []⟩

section Lawful

variable [LawfulBloomFilter F] (v : SummaryVector F)

theorem toNat_size : v.size.toNat = (BloomFilter.table v.bf).length :=
  EID.toNat_ofNat_of_lt (lt_trans (LawfulBloomFilter.length_table_lt v.bf) (by omega))

/-- **The announced length is the length that is written.** -/
theorem toNat_getLength : v.getLength.toNat = v.write.length := by
  have htable := LawfulBloomFilter.length_table_lt v.bf
  have hle : SDNV.getLength v.size ≤ 10 := SDNV.getLength_le v.size
  rw [getLength, UInt64.toNat_add, toNat_size, write, List.length_append, SDNV.length_write,
    EID.toNat_ofNat_of_lt (by omega), Nat.mod_eq_of_lt (by omega)]

theorem reads_read : (create : SummaryVector F).read.Reads v.write v.received := by
  refine (SDNV.reads_read v.size).bind (Parser.Reads.then_nil ?_ (Parser.reads_pure _))
  rw [v.toNat_size]
  exact Parser.reads_readBytes _

/-- **What is read back answers as the vector that was written.** -/
theorem contains_received (k : Bytes) :
    BloomFilter.contains v.received.bf k = BloomFilter.contains v.bf k :=
  LawfulBloomFilter.contains_load_table _ _ _

end Lawful

end SummaryVector

/-! ### Bundle summaries -/

/-- `class BundleSummary`: the bundle list that it is derived from, and its vector. -/
structure BundleSummary (F : Type) where
  list : BundleList
  vector : SummaryVector F
deriving DecidableEq

namespace BundleSummary

/-- `BundleSummary::BundleSummary`. -/
def create : BundleSummary F := ⟨.empty, .create⟩

/-- `BundleSummary::add`. -/
def add (s : BundleSummary F) (m : MetaBundle) : BundleSummary F where
  list := s.list.add m
  vector := s.vector.add m.toBundleID

/-- `BundleSummary::remove`. -/
def remove (s : BundleSummary F) (m : MetaBundle) : BundleSummary F where
  list := s.list.remove m
  vector := s.vector.remove m.toBundleID

/-- `BundleSummary::eventBundleExpired`. -/
def eventBundleExpired (_ : BundleList) (e : ExpiringBundle) (v : SummaryVector F) :
    SummaryVector F :=
  v.remove e.bundle.toBundleID

/-- `BundleList::expire`, which calls `BundleSummary::eventCommitExpired` if a bundle expired. -/
def expire (c : Clock) (timestamp : UInt64) (s : BundleSummary F) : BundleSummary F :=
  let (list, vector) := s.list.expire c timestamp eventBundleExpired s.vector
  ⟨list, if list.expiring.length < s.list.expiring.length then vector.commit else vector⟩

/-- `BundleSummary::contains`: the vector is asked first. -/
def contains (s : BundleSummary F) (i : BundleID) : Bool :=
  s.vector.contains i && s.list.metas.any fun m => m.toBundleID.eq i

/-- **The vector follows the list**: it has the identifiers of the list, and its filter contains
their texts. -/
structure Consistent (s : BundleSummary F) : Prop where
  ids_eq : s.vector.ids = s.list.metas.map MetaBundle.toBundleID
  contains : ∀ i ∈ s.vector.ids, s.vector.contains i = true

theorem consistent_create : (create : BundleSummary F).Consistent :=
  ⟨rfl, fun _ h => absurd h List.not_mem_nil⟩

variable {s : BundleSummary F}

theorem Consistent.contains_of_mem (h : s.Consistent) {m : MetaBundle} (hm : m ∈ s.list.metas) :
    s.contains m.toBundleID = true := by
  have hmem : m.toBundleID ∈ s.vector.ids := by
    rw [h.ids_eq]
    exact List.mem_map_of_mem hm
  rw [BundleSummary.contains, h.contains _ hmem, Bool.true_and, List.any_eq_true]
  exact ⟨m, hm, BundleID.eq_refl _⟩

omit [BloomFilter F] in
/-- The loop takes the identifiers of expired bundles out of the list and out of the vector, and
leaves the filter alone. -/
theorem vector_expireLoop (timestamp : UInt64) (es : List ExpiringBundle) {l : BundleList}
    {v : SummaryVector F} (h : v.ids = l.metas.map MetaBundle.toBundleID) :
    (BundleList.expireLoop timestamp eventBundleExpired es l v).2.bf = v.bf ∧
      (BundleList.expireLoop timestamp eventBundleExpired es l v).2.ids =
        (BundleList.expireLoop timestamp eventBundleExpired es l v).1.metas.map
          MetaBundle.toBundleID ∧
      (BundleList.expireLoop timestamp eventBundleExpired es l v).2.ids ⊆ v.ids := by
  induction es generalizing l v with
  | nil => exact ⟨rfl, h, List.Subset.refl _⟩
  | cons e es ih =>
      rw [BundleList.expireLoop]
      split_ifs
      · exact ⟨rfl, h, List.Subset.refl _⟩
      · obtain ⟨hbf, hids, hsub⟩ := ih (l := { l with
          metas := OrderedSet.erase MetaBundle.toBundleID BundleID.lt e.bundle.toBundleID l.metas
          expiring := es }) (v := eventBundleExpired l e v)
          ((congrArg _ h).trans (OrderedSet.map_erase _ _).symm)
        exact ⟨hbf, hids, fun i hi => OrderedSet.mem_of_mem_erase (hsub hi)⟩

/-- The vector follows a list from which a bundle expires. -/
theorem Consistent.expireLoop (timestamp : UInt64) (es : List ExpiringBundle) {l : BundleList}
    {v : SummaryVector F} (h : (⟨l, v⟩ : BundleSummary F).Consistent) :
    (⟨(BundleList.expireLoop timestamp eventBundleExpired es l v).1,
      (BundleList.expireLoop timestamp eventBundleExpired es l v).2⟩ :
        BundleSummary F).Consistent := by
  obtain ⟨hbf, hids, hsub⟩ := vector_expireLoop timestamp es h.ids_eq
  refine ⟨hids, fun i hi => ?_⟩
  rw [SummaryVector.contains, hbf]
  exact h.contains i (hsub hi)

variable [SoundBloomFilter F]

/-- The filter contains what is put into it one after the other. -/
theorem contains_foldl_insert {i : BundleID} {ids : List BundleID} (f : F)
    (h : i ∈ ids ∨ BloomFilter.contains f i.toString = true) :
    BloomFilter.contains (ids.foldl (fun f i => BloomFilter.insert f i.toString) f) i.toString =
      true := by
  induction ids generalizing f with
  | nil => exact h.resolve_left List.not_mem_nil
  | cons j ids ih =>
      refine ih _ ?_
      rcases h with h | h
      · rcases List.mem_cons.1 h with rfl | h
        · exact .inr (SoundBloomFilter.contains_insert _ _)
        · exact .inl h
      · exact .inr (SoundBloomFilter.contains_insert_of_contains _ _ h)

theorem Consistent.commit {l : BundleList} {v : SummaryVector F}
    (h : (⟨l, v⟩ : BundleSummary F).Consistent) :
    (⟨l, v.commit⟩ : BundleSummary F).Consistent :=
  ⟨h.ids_eq, fun _ hi => contains_foldl_insert _ (.inl hi)⟩

theorem Consistent.add (h : s.Consistent) (m : MetaBundle) : (s.add m).Consistent := by
  refine ⟨?_, fun i hi => ?_⟩
  · exact (congrArg _ h.ids_eq).trans (OrderedSet.map_insert _ _).symm
  · rcases OrderedSet.mem_of_mem_insert hi with rfl | hi
    · exact SoundBloomFilter.contains_insert _ _
    · exact SoundBloomFilter.contains_insert_of_contains _ _ (h.contains i hi)

theorem Consistent.expire (h : s.Consistent) (c : Clock) (timestamp : UInt64) :
    (s.expire c timestamp).Consistent := by
  have hkeep : ∀ (l : BundleList) (v : SummaryVector F) (p : Prop) [Decidable p],
      (⟨l, v⟩ : BundleSummary F).Consistent →
        (⟨l, if p then v.commit else v⟩ : BundleSummary F).Consistent := by
    intro l v p _ hv
    split_ifs
    · exact hv.commit
    · exact hv
  rw [BundleSummary.expire, BundleList.expire]
  by_cases hq : c.hasQuality = true
  · rw [if_pos hq]
    refine hkeep _ _ _ ?_
    have hloop := h.expireLoop timestamp s.list.expiring
    exact ⟨hloop.ids_eq.trans (by dsimp only; split_ifs <;> rfl), hloop.contains⟩
  · rw [if_neg hq]
    exact hkeep _ _ _ h

end BundleSummary

/-! ### The answers of a summary and of its list -/

namespace BundleSummary

/-- `BundleSummary::clear`. -/
def clear (s : BundleSummary F) : BundleSummary F := ⟨s.list.clear, s.vector.clear⟩

/-- The operations that change a bundle summary. -/
inductive Op where
  | add (m : MetaBundle)
  | remove (m : MetaBundle)
  | clear
  | expire (c : Clock) (timestamp : UInt64)

/-- The summary behind an operation. -/
def apply (s : BundleSummary F) : Op → BundleSummary F
  | .add m => s.add m
  | .remove m => s.remove m
  | .clear => s.clear
  | .expire c timestamp => s.expire c timestamp

/-- The summary behind a sequence of operations on a new one. -/
def run (ops : List Op) : BundleSummary F := ops.foldl apply create

/-- The list behind an operation. -/
def Op.onList (l : BundleList) : Op → BundleList
  | .add m => l.add m
  | .remove m => l.remove m
  | .clear => l.clear
  | .expire c timestamp => l.expired c timestamp

/-- The list behind a sequence of operations on a new one. -/
def listOf (ops : List Op) : BundleList := ops.foldl Op.onList .empty

/-- The operation leaves in the filter what is there: it is no `clear`, and no tick at which a bundle
expires. -/
def Op.Spares (l : BundleList) : Op → Prop
  | .clear => False
  | .expire c timestamp => ¬ (l.expired c timestamp).expiring.length < l.expiring.length
  | .add _ | .remove _ => True

/-- **A text lingers in the filter**: a bundle with it was in the list or was added, and since then
the filter was spared. -/
inductive Lingers (text : Bytes) : List Op → Prop where
  | listed {ops : List Op} {m : MetaBundle} : m ∈ (listOf ops).metas →
      m.toBundleID.toString = text → Lingers text ops
  | added (ops : List Op) {m : MetaBundle} : m.toBundleID.toString = text →
      Lingers text (ops ++ [.add m])
  | spared {ops : List Op} {op : Op} : Lingers text ops → op.Spares (listOf ops) →
      Lingers text (ops ++ [op])

/-- A list, and the texts that were put into the filter since it was empty, the latest first. -/
structure Record where
  list : BundleList
  texts : List Bytes

namespace Record

/-- The texts of the bundles of a list, the last one first. -/
def textsOf (l : BundleList) : List Bytes :=
  (l.metas.map fun m => m.toBundleID.toString).reverse

/-- The record behind an operation. An expiry that takes a bundle out of the list builds the filter
again. -/
def apply (r : Record) : Op → Record
  | .add m => ⟨r.list.add m, m.toBundleID.toString :: r.texts⟩
  | .remove m => ⟨r.list.remove m, r.texts⟩
  | .clear => ⟨r.list.clear, []⟩
  | .expire c timestamp =>
      ⟨r.list.expired c timestamp,
        if (r.list.expired c timestamp).expiring.length < r.list.expiring.length then
          textsOf (r.list.expired c timestamp)
        else r.texts⟩

/-- The record behind a sequence of operations. -/
def run (ops : List Op) : Record := ops.foldl apply ⟨.empty, []⟩

/-- The texts of the bundles of the list are among those of the record. -/
def Covers (r : Record) : Prop := ∀ m ∈ r.list.metas, m.toBundleID.toString ∈ r.texts

theorem Covers.apply {r : Record} (h : r.Covers) (op : Op) : (r.apply op).Covers := by
  intro m hm
  cases op with
  | add n =>
      rcases OrderedSet.mem_of_mem_insert hm with rfl | hm
      · exact List.mem_cons_self
      · exact List.mem_cons_of_mem _ (h m hm)
  | remove n => exact h m (OrderedSet.mem_of_mem_erase hm)
  | clear => exact absurd hm List.not_mem_nil
  | expire c timestamp =>
      rw [Record.apply]
      dsimp only
      split_ifs
      · exact List.mem_reverse.2 (List.mem_map_of_mem hm)
      · exact h m (BundleList.metas_expired_subset c timestamp _ hm)

theorem covers_run (ops : List Op) : (run ops).Covers := by
  have hrun (ops : List Op) {r : Record} (h : r.Covers) : (ops.foldl Record.apply r).Covers := by
    induction ops generalizing r with
    | nil => exact h
    | cons op ops ih => exact ih (h.apply op)
  exact hrun ops fun m hm => absurd hm List.not_mem_nil

theorem list_apply (r : Record) (op : Op) : (r.apply op).list = op.onList r.list := by
  cases op <;> rfl

theorem run_concat (ops : List Op) (op : Op) : run (ops ++ [op]) = (run ops).apply op := by
  rw [run, List.foldl_append]
  rfl

theorem list_run (ops : List Op) : (run ops).list = listOf ops := by
  induction ops using List.reverseRecOn with
  | nil => rfl
  | append_singleton ops op ih =>
      rw [run_concat, list_apply, ih, listOf, listOf, List.foldl_append]
      rfl

/-- An operation that spares the filter keeps the texts. -/
theorem mem_texts_apply {r : Record} {op : Op} (hop : op.Spares r.list) {text : Bytes}
    (h : text ∈ r.texts) : text ∈ (r.apply op).texts := by
  cases op with
  | add m => exact List.mem_cons_of_mem _ h
  | remove m => exact h
  | clear => exact absurd hop id
  | expire c timestamp =>
      rw [Record.apply]
      dsimp only
      rwa [if_neg hop]

/-- **The texts of a record are those that linger.** -/
theorem mem_texts_run_iff (ops : List Op) (text : Bytes) :
    text ∈ (run ops).texts ↔ Lingers text ops := by
  constructor
  · induction ops using List.reverseRecOn with
    | nil => exact fun h => absurd h List.not_mem_nil
    | append_singleton ops op ih =>
        rw [run_concat]
        intro h
        cases op with
        | add m =>
            rcases List.mem_cons.1 h with h | h
            · exact .added ops h.symm
            · exact .spared (ih h) trivial
        | remove m => exact .spared (ih h) trivial
        | clear => exact absurd h List.not_mem_nil
        | expire c timestamp =>
            have hlist := list_run (ops ++ [.expire c timestamp])
            rw [run_concat] at hlist
            rw [Record.apply] at h hlist
            dsimp only at h hlist
            split_ifs at h with hexpired
            · obtain ⟨m, hm, rfl⟩ := List.mem_map.1 (List.mem_reverse.1 h)
              exact .listed (hlist ▸ hm) rfl
            · exact .spared (ih h) (by rwa [Op.Spares, ← list_run])
  · intro h
    induction h with
    | @listed ops m hm heq => exact heq ▸ covers_run ops m (list_run ops ▸ hm)
    | @added ops m heq =>
        rw [run_concat]
        exact List.mem_cons.2 (.inl heq.symm)
    | spared _ hspares ih =>
        rw [run_concat]
        exact mem_texts_apply (list_run _ ▸ hspares) ih

end Record

/-- A summary is as its record says: the list is the same, the vector has the identifiers of the
list, and the filter stands in the relation `R` to the texts. -/
structure Follows (R : F → List Bytes → Prop) (s : BundleSummary F) (r : Record) : Prop where
  list_eq : s.list = r.list
  ids_eq : s.vector.ids = r.list.metas.map MetaBundle.toBundleID
  filter : R s.vector.bf r.texts

omit [BloomFilter F] in
/-- An expiry takes the identifiers out of the list and out of the vector, and leaves the filter
alone. -/
theorem vector_expire (c : Clock) (timestamp : UInt64) {l : BundleList} {v : SummaryVector F}
    (h : v.ids = l.metas.map MetaBundle.toBundleID) :
    (l.expire c timestamp eventBundleExpired v).2.bf = v.bf ∧
      (l.expire c timestamp eventBundleExpired v).2.ids =
        (l.expire c timestamp eventBundleExpired v).1.metas.map MetaBundle.toBundleID := by
  obtain ⟨hbf, hids, -⟩ := vector_expireLoop timestamp l.expiring h
  rw [BundleList.expire]
  split_ifs
  · refine ⟨hbf, hids.trans ?_⟩
    dsimp only
    split_ifs <;> rfl
  · exact ⟨rfl, h⟩

section Follows

variable {R : F → List Bytes → Prop} (hR : BloomFilter.Tracks R) {s : BundleSummary F} {r : Record}

include hR

/-- A filter that is built again follows the identifiers. -/
theorem filter_commit (v : SummaryVector F) :
    R v.commit.bf (v.ids.map BundleID.toString).reverse := by
  have hfold := hR.foldl (v.ids.map BundleID.toString) (hR.clear v.bf)
  rwa [List.foldl_map, List.append_nil] at hfold

theorem Follows.expire (h : Follows R s r) (c : Clock) (timestamp : UInt64) :
    Follows R (s.expire c timestamp) (r.apply (.expire c timestamp)) := by
  obtain ⟨l, v⟩ := s
  obtain ⟨l', texts⟩ := r
  obtain ⟨rfl, hids, hfilter⟩ := h
  change v.ids = l.metas.map MetaBundle.toBundleID at hids
  change R v.bf texts at hfilter
  have hlist : (l.expire c timestamp eventBundleExpired v).1 = l.expired c timestamp :=
    BundleList.fst_expire c timestamp _ _ l v ()
  obtain ⟨hbf, hids'⟩ := vector_expire c timestamp hids
  rw [BundleSummary.expire, Record.apply]
  dsimp only
  rw [hlist] at hids' ⊢
  split_ifs
  · refine ⟨rfl, hids', ?_⟩
    have hcommit := filter_commit hR (l.expire c timestamp eventBundleExpired v).2
    rwa [hids', List.map_map] at hcommit
  · refine ⟨rfl, hids', ?_⟩
    dsimp only
    rwa [hbf]

/-- **An operation keeps a summary as its record says.** -/
theorem Follows.apply (h : Follows R s r) (op : Op) :
    Follows R (s.apply op) (r.apply op) := by
  obtain ⟨hlist, hids, hfilter⟩ := h
  cases op with
  | add m =>
      exact ⟨congrArg (BundleList.add · m) hlist,
        (congrArg _ hids).trans (OrderedSet.map_insert _ _).symm, hR.insert _ hfilter⟩
  | remove m =>
      exact ⟨congrArg (BundleList.remove · m) hlist,
        (congrArg _ hids).trans (OrderedSet.map_erase _ _).symm, hfilter⟩
  | clear => exact ⟨congrArg BundleList.clear hlist, rfl, hR.clear _⟩
  | expire c timestamp => exact Follows.expire hR ⟨hlist, hids, hfilter⟩ c timestamp

theorem follows_run (ops : List Op) : Follows R (run ops) (Record.run ops) := by
  have hrun (ops : List Op) {s : BundleSummary F} {r : Record} (h : Follows R s r) :
      Follows R (ops.foldl BundleSummary.apply s) (ops.foldl Record.apply r) := by
    induction ops generalizing s r with
    | nil => exact h
    | cons op ops ih => exact ih (h.apply hR op)
  exact hrun ops ⟨rfl, rfl, hR.create _⟩

end Follows

/-- The summary answers for an identifier as its list does, and the vector contains the bundles of
the list. -/
def Agrees (s : BundleSummary F) (i : BundleID) : Prop :=
  s.contains i = s.list.contains i ∧ ∀ m ∈ s.list.metas, s.vector.contains m.toBundleID = true

/-- Identifiers that are equal with the same fragment flag have the same text. -/
theorem toString_eq_of_eq {i j : BundleID} (h : i.eq j = true) (hflag : i.fragment = j.fragment) :
    i.toString = j.toString := by
  obtain ⟨htime, hseq, hsource, hoffset⟩ := (BundleID.eq_iff i j).1 h
  rw [BundleID.toString, BundleID.toString, htime, hseq, hsource, ← hflag]
  cases hf : i.fragment with
  | false => rfl
  | true => rw [hoffset hf]

/-- The text of an identifier was put into the filter, if the list has it: the bundles that the list
takes for the one have its fragment flag, or the text lingers. -/
theorem mem_texts_of_contains_iff (ops : List Op) (i : BundleID) :
    ((Record.run ops).list.contains i = true → i.toString ∈ (Record.run ops).texts) ↔
      ∀ m ∈ (listOf ops).metas, m.toBundleID.eq i = true →
        m.fragment = i.fragment ∨ Lingers i.toString ops := by
  rw [Record.mem_texts_run_iff, Record.list_run, BundleList.contains, List.any_eq_true]
  constructor
  · exact fun h m hm heq => .inr (h ⟨m, hm, heq⟩)
  · rintro h ⟨m, hm, heq⟩
    rcases h m hm heq with hflag | hlingers
    · exact .listed hm (toString_eq_of_eq heq hflag)
    · exact hlingers

/-- **A summary answers as its list, with every filter that has no false negatives, exactly if** all
bundles that the list takes for the one with the identifier have its fragment flag, or the text of
the identifier lingers in the filter. -/
theorem agrees_run_iff (ops : List Op) (i : BundleID) :
    (∀ (F : Type) [BloomFilter F] [SoundBloomFilter F] [ClearedBloomFilter F],
        (run ops : BundleSummary F).Agrees i) ↔
      ∀ m ∈ (listOf ops).metas, m.toBundleID.eq i = true →
        m.fragment = i.fragment ∨ Lingers i.toString ops := by
  rw [← mem_texts_of_contains_iff]
  constructor
  · intro h hlist
    -- the filter that answers yes for nothing else
    obtain ⟨hagrees, -⟩ := h TextSet
    obtain ⟨hlist', -, htexts⟩ := follows_run TextSet.tracks_texts ops
    rw [hlist', hlist, BundleSummary.contains, Bool.and_eq_true] at hagrees
    exact htexts ▸ of_decide_eq_true hagrees.1
  · intro h F _ _ _
    obtain ⟨hlist, -, hfilter⟩ := follows_run (F := F) BloomFilter.tracks_contains ops
    refine ⟨?_, fun m hm => hfilter _ (Record.covers_run ops m (hlist ▸ hm))⟩
    rw [BundleSummary.contains, ← BundleList.contains, hlist]
    cases hcontains : (Record.run ops).list.contains i with
    | false => exact Bool.and_false _
    | true => exact Bool.and_eq_true_iff.2 ⟨hfilter _ (h hcontains), rfl⟩

/-- A bundle that is no fragment. -/
def whole : MetaBundle :=
  ⟨⟨EID.none, 1, 2, false, 0⟩, 3600, EID.none, EID.none, EID.none, 4, 0, 100, 0⟩

/-- **The identifier of a fragment of a bundle that is in the list** is one of the list, but is
not found in the vector. -/
theorem not_agrees_run : ¬ ∀ (F : Type) [BloomFilter F] [SoundBloomFilter F] [ClearedBloomFilter F],
    (run [.add whole] : BundleSummary F).Agrees { whole.toBundleID with fragment := true } :=
  fun h => absurd (h TextSet).1 (by decide)

end BundleSummary

end IbrDtn
