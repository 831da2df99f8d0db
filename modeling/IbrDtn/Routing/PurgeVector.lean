import IbrDtn.Core.SimpleBundleStorage
import IbrDtn.Routing.BaseRouter

/-!
# Removing the bundles of a purge vector

A purge vector is a summary vector of bundles that are to be removed.  The storage is asked to
remove a bundle that the Bloom filter of the vector contains, until it throws.  The filter contains
the texts of bundle identifiers.  `SimpleBundleStorage` asks it for the text of an identifier, and
`MemoryBundleStorage` for the text of a bundle, which has the destination behind it.  What
`MemoryBundleStorage` returns is made of the bundle in a node that has been erased.

## Main definitions

* `SimpleBundleStorage.removeByFilter` : the call, as `MemoryBundleStorage.removeByFilter`.
* `Purge.purge` : the loop.
* `Purge.Purged` : the loop removes what the vector names.

## Main results

* `SimpleBundleStorage.sorted_foldl` : the bundle list is in the order of its comparison.
* `Purge.RemovesFirst.purges_iff` : a storage that removes the first bundle that the filter wants.
* `Purge.RemovesFirst.purged_iff_idle` : one that returns something else.
* `Purge.purged_iff` : both storages.
-/

namespace IbrDtn

namespace SimpleBundleStorage

/-- `SimpleBundleStorage::remove(const BloomFilter&)`, with its outcome. -/
def removeByFilter (s : SimpleBundleStorage) (contains : Bytes → Bool) :
    Except BundleStorage.Exn (MetaBundle × SimpleBundleStorage) :=
  match s.list.metas.find? fun m => contains m.toBundleID.toString with
  | some m => .ok (m, s.discard m)
  | none => .error .noBundleFound

/-! ### The order of the bundle list -/

/-- The bundle list is in the order of its comparison. -/
def Sorted (s : SimpleBundleStorage) : Prop :=
  s.list.metas.Pairwise fun m n => m.toBundleID.lt n.toBundleID = true

variable {s : SimpleBundleStorage}

theorem Sorted.add (h : s.Sorted) (m : MetaBundle) :
    (s.list.add m).metas.Pairwise fun m n => m.toBundleID.lt n.toBundleID = true := by
  have htrans : ∀ i j k : BundleID, i.lt j = true → j.lt k = true → i.lt k = true :=
    fun _ _ _ => BundleID.lt_trans
  exact OrderedSet.pairwise_insert htrans m h

theorem Sorted.discard (h : s.Sorted) (m : MetaBundle) : (s.discard m).Sorted :=
  List.Pairwise.sublist (OrderedSet.sublist_erase _ _) h

theorem Sorted.removeById (h : s.Sorted) (id : BundleID) : (s.removeById id).Sorted := by
  rw [SimpleBundleStorage.removeById]
  split
  · exact h.discard _
  · exact h

/-- The loop over the bundles that expire takes entries out of the list. -/
theorem sublist_expireLoop {σ : Type} (timestamp : UInt64)
    (event : BundleList → ExpiringBundle → σ → σ) (es : List ExpiringBundle) (l : BundleList)
    (s : σ) : (BundleList.expireLoop timestamp event es l s).1.metas.Sublist l.metas := by
  induction es generalizing l s with
  | nil => exact .refl _
  | cons e es ih =>
      rw [BundleList.expireLoop]
      split_ifs
      · exact .refl _
      · exact (ih _ _).trans (OrderedSet.sublist_erase _ _)

theorem Sorted.expire (h : s.Sorted) (c : Clock) (timestamp : UInt64) :
    (s.step (.expire c timestamp)).Sorted := by
  have hloop := sublist_expireLoop timestamp eventBundleExpired s.list.expiring s.list s
  rw [step, BundleList.expire]
  by_cases hquality : c.hasQuality = true
  · rw [if_pos hquality]
    dsimp only
    split_ifs
    · exact List.Pairwise.sublist hloop h
    · exact List.Pairwise.sublist hloop h
  · rw [if_neg hquality]
    exact h

/-- The callbacks of the worker do not look at the bundle list. -/
theorem list_callback (s : SimpleBundleStorage) (c : Clock) (fresh : Bundle) :
    (s.callback c fresh).list = s.list := by
  rw [callback]
  split
  · rfl
  · rfl
  · rw [eventDataStorageRemoved]
    split <;> rfl
  · rfl

/-- **Every step keeps the bundle list in order.** -/
theorem Sorted.step (h : s.Sorted) (a : Action) : (s.step a).Sorted := by
  cases a with
  | restore c hash found => exact h.add _
  | store node c b =>
      rw [SimpleBundleStorage.step]
      split_ifs
      · exact h
      · exact h.add _
  | handOver index =>
      rw [SimpleBundleStorage.step, handOver]
      split
      · exact h
      · exact h
  | get env age id =>
      rw [SimpleBundleStorage.step]
      split
      · exact h.removeById id
      · exact h
  | removeById id => exact h.removeById id
  | removeByFilter contains =>
      rw [SimpleBundleStorage.step]
      split
      · exact h.discard _
      · exact h
  | clear => exact .nil
  | expire c timestamp => exact h.expire c timestamp
  | work fails => exact h
  | callback c fresh =>
      rw [Sorted, SimpleBundleStorage.step, list_callback]
      exact h

/-- **The bundle list of every storage is in order.** -/
theorem sorted_foldl (maxsize : UInt64) (actions : List Action) :
    (actions.foldl step (create maxsize)).Sorted :=
  List.foldlRecOn actions _ .nil fun _ h a _ => h.step a

end SimpleBundleStorage

namespace Purge

/-- What became of the loop: the meta data that was returned, the storage, and whether the storage
has thrown. -/
structure Outcome (σ : Type) where
  returned : List MetaBundle
  storage : σ
  thrown : Bool

/-- `remove` is called at the given moments, until it throws. -/
def purge {σ ε ι : Type} (remove : σ → ι → Except ε (MetaBundle × σ)) : List ι → σ → Outcome σ
  | [], s => ⟨[], s, false⟩
  | i :: is, s =>
      match remove s i with
      | .error _ => ⟨[], s, true⟩
      | .ok (m, s) =>
          let rest := purge remove is s
          { rest with returned := m :: rest.returned }

/-- **The loop removes what it is to remove**, from a storage with the given entries: it ends;
behind it no entry has one of the identifiers; and what it returned is the meta data of each entry
that is gone, as it is seen at some moment. -/
structure Purged {σ ε α ι : Type} (remove : σ → ι → Except ε (MetaBundle × σ))
    (entries : σ → List α) (idOf : α → BundleID) (metaOf : ι → α → MetaBundle)
    (ids : List BundleID) (s : σ) : Prop where
  ends : ∀ is : List ι, (entries s).length < is.length → (purge remove is s).thrown = true
  removed : ∀ is, (purge remove is s).thrown = true →
    ∀ a ∈ entries (purge remove is s).storage, idOf a ∉ ids
  returned : ∀ is, ∃ gone : List (ι × α),
    (purge remove is s).returned = gone.map (fun x => metaOf x.1 x.2) ∧
      (entries s).Perm (gone.map Prod.snd ++ entries (purge remove is s).storage)

/-! ### Storages that remove the first entry that a filter wants -/

section Loop

variable {σ ε α ι : Type} {remove : σ → ι → Except ε (MetaBundle × σ)} {entries : σ → List α}
  {metaOf : ι → α → MetaBundle} {wanted : α → Bool} {I : σ → Prop}

/-- A call removes the first entry that is wanted, from every storage with the invariant. -/
structure RemovesFirst (remove : σ → ι → Except ε (MetaBundle × σ)) (entries : σ → List α)
    (metaOf : ι → α → MetaBundle) (wanted : α → Bool) (I : σ → Prop) : Prop where
  none : ∀ s i, I s → (entries s).find? wanted = none → ∃ e, remove s i = .error e
  some : ∀ s i a, I s → (entries s).find? wanted = some a →
    ∃ s', remove s i = .ok (metaOf i a, s') ∧ I s' ∧ (entries s).Perm (a :: entries s')

variable (h : RemovesFirst remove entries metaOf wanted I)

include h

/-- The entries that are gone were wanted, and their meta data was returned. -/
theorem RemovesFirst.exists_gone {s : σ} (hs : I s) (is : List ι) :
    ∃ gone : List (ι × α),
      (purge remove is s).returned = gone.map (fun x => metaOf x.1 x.2) ∧
        (entries s).Perm (gone.map Prod.snd ++ entries (purge remove is s).storage) ∧
          ∀ x ∈ gone, wanted x.2 = true := by
  induction is generalizing s with
  | nil => exact ⟨[], rfl, .refl _, fun _ hx => absurd hx List.not_mem_nil⟩
  | cons i is ih =>
      rw [purge]
      rcases hfind : (entries s).find? wanted with _ | a
      · obtain ⟨e, he⟩ := h.none s i hs hfind
        rw [he]
        exact ⟨[], rfl, .refl _, fun _ hx => absurd hx List.not_mem_nil⟩
      · obtain ⟨s', hremove, hs', hperm⟩ := h.some s i a hs hfind
        obtain ⟨gone, hreturned, hgone, hwanted⟩ := ih hs'
        rw [hremove]
        refine ⟨(i, a) :: gone, congrArg _ hreturned, hperm.trans (hgone.cons a), fun x hx => ?_⟩
        rcases List.mem_cons.1 hx with rfl | hx
        · exact List.find?_some hfind
        · exact hwanted x hx

/-- When the storage has thrown, nothing is left that is wanted. -/
theorem RemovesFirst.wanted_eq_false {s : σ} (hs : I s) {is : List ι}
    (hthrown : (purge remove is s).thrown = true) :
    ∀ a ∈ entries (purge remove is s).storage, wanted a = false := by
  induction is generalizing s with
  | nil => exact Bool.noConfusion hthrown
  | cons i is ih =>
      rw [purge] at hthrown ⊢
      rcases hfind : (entries s).find? wanted with _ | a
      · obtain ⟨e, he⟩ := h.none s i hs hfind
        rw [he]
        exact fun a ha => Bool.eq_false_iff.2 (List.find?_eq_none.1 hfind a ha)
      · obtain ⟨s', hremove, hs', -⟩ := h.some s i a hs hfind
        rw [hremove] at hthrown ⊢
        exact ih hs' hthrown

/-- **The loop ends**: every call that does not throw takes an entry. -/
theorem RemovesFirst.thrown_eq_true {s : σ} (hs : I s) {is : List ι}
    (hlength : (entries s).length < is.length) : (purge remove is s).thrown = true := by
  induction is generalizing s with
  | nil => exact absurd hlength (Nat.not_lt_zero _)
  | cons i is ih =>
      rw [purge]
      rcases hfind : (entries s).find? wanted with _ | a
      · obtain ⟨e, he⟩ := h.none s i hs hfind
        rw [he]
      · obtain ⟨s', hremove, hs', hperm⟩ := h.some s i a hs hfind
        have hcons := hperm.length_eq
        rw [hremove]
        refine ih hs' ?_
        rw [List.length_cons] at hcons hlength
        omega

/-- **The loop removes what it is to remove exactly if the filter wants all of it.** -/
theorem RemovesFirst.purges_iff {s : σ} (hs : I s) (i : ι) (idOf : α → BundleID)
    (ids : List BundleID) :
    Purged remove entries idOf metaOf ids s ↔
      ∀ a ∈ entries s, idOf a ∈ ids → wanted a = true := by
  constructor
  · intro hpurged a ha hid
    let is := List.replicate ((entries s).length + 1) i
    have hlength : (entries s).length < is.length :=
      (Nat.lt_succ_self _).trans_eq List.length_replicate.symm
    obtain ⟨gone, -, hperm, hwanted⟩ := h.exists_gone hs is
    rcases List.mem_append.1 (hperm.mem_iff.1 ha) with hgone | hleft
    · obtain ⟨x, hx, rfl⟩ := List.mem_map.1 hgone
      exact hwanted x hx
    · exact absurd hid (hpurged.removed is (hpurged.ends is hlength) a hleft)
  · intro hwanted
    refine ⟨fun is hlength => h.thrown_eq_true hs hlength, fun is hthrown a ha hid => ?_, fun is => ?_⟩
    · obtain ⟨gone, -, hperm, -⟩ := h.exists_gone hs is
      have hmem := hperm.mem_iff.2 (List.mem_append_right _ ha)
      exact Bool.false_ne_true ((h.wanted_eq_false hs hthrown a ha).symm.trans (hwanted a hmem hid))
    · obtain ⟨gone, hreturned, hperm, -⟩ := h.exists_gone hs is
      exact ⟨gone, hreturned, hperm⟩

/-- The entries are left as they are if none is wanted. -/
theorem RemovesFirst.entries_purge {s : σ} (hs : I s) (is : List ι)
    (hwanted : ∀ a ∈ entries s, wanted a = false) :
    (purge remove is s).returned = [] ∧ entries (purge remove is s).storage = entries s := by
  cases is with
  | nil => exact ⟨rfl, rfl⟩
  | cons i is =>
      obtain ⟨e, he⟩ := h.none s i hs
        (List.find?_eq_none.2 fun a ha => Bool.eq_false_iff.1 (hwanted a ha))
      rw [purge, he]
      exact ⟨rfl, rfl⟩

/-- **A loop that returns something else than the meta data of the entry that is gone removes what it
is to remove exactly if there is nothing to do.** -/
theorem RemovesFirst.purged_iff_idle {s : σ} (hs : I s) {idOf : α → BundleID} {ids : List BundleID}
    {own : ι → α → MetaBundle} (i : ι)
    (hother : ∀ a ∈ entries s, ∃ j, ∀ k, ∀ b ∈ entries s, metaOf j a ≠ own k b) :
    Purged remove entries idOf own ids s ↔
      (∀ a ∈ entries s, wanted a = false) ∧ ∀ a ∈ entries s, idOf a ∉ ids := by
  constructor
  · intro hpurged
    have hwanted : ∀ a ∈ entries s, wanted a = false := by
      rcases hfind : (entries s).find? wanted with _ | a
      · exact fun a ha => Bool.eq_false_iff.2 (List.find?_eq_none.1 hfind a ha)
      · obtain ⟨j, hj⟩ := hother a (List.mem_of_find?_eq_some hfind)
        obtain ⟨s', hremove, -, -⟩ := h.some s j a hs hfind
        obtain ⟨gone, hreturned, hperm⟩ := hpurged.returned [j]
        have hmem : metaOf j a ∈ gone.map fun x => own x.1 x.2 := by
          rw [← hreturned, purge, hremove]
          exact List.mem_cons_self
        obtain ⟨x, hx, hown⟩ := List.mem_map.1 hmem
        have hmem := hperm.mem_iff.2 (List.mem_append_left _ (List.mem_map_of_mem hx))
        exact absurd hown.symm (hj x.1 x.2 hmem)
    refine ⟨hwanted, fun a ha => ?_⟩
    have hthrown := hpurged.ends (List.replicate ((entries s).length + 1) i)
      ((Nat.lt_succ_self _).trans_eq List.length_replicate.symm)
    refine hpurged.removed _ hthrown a ?_
    rw [(h.entries_purge hs _ hwanted).2]
    exact ha
  · rintro ⟨hwanted, hids⟩
    refine ⟨fun is hlength => h.thrown_eq_true hs hlength, fun is _ a ha => ?_, fun is => ?_⟩
    · rw [(h.entries_purge hs is hwanted).2] at ha
      exact hids a ha
    · refine ⟨[], (h.entries_purge hs is hwanted).1, ?_⟩
      rw [(h.entries_purge hs is hwanted).2]
      exact .refl _

end Loop

/-! ### The storages -/

/-- A call of `MemoryBundleStorage::remove` at a moment of the clock, which reads the given meta data
in the node that it has erased. -/
def removeMemory (contains : Bytes → Bool) (s : MemoryBundleStorage) (i : Clock × MetaBundle) :
    Except BaseRouter.Exn (MetaBundle × MemoryBundleStorage) :=
  s.removeByFilter i.1 contains i.2

/-- `MemoryBundleStorage` asks the filter for the texts of bundles, and returns what it reads in the
erased node. -/
theorem removesFirst_memory (contains : Bytes → Bool) :
    RemovesFirst (removeMemory contains) MemoryBundleStorage.bundles (fun i _ => i.2)
      (fun b => contains b.toString) fun _ => True where
  none s i _ hfind := by
    refine ⟨.storage .noBundleFound, ?_⟩
    simp only [removeMemory, MemoryBundleStorage.removeByFilter, MemoryBundleStorage.step, hfind]
  some s i b _ hfind := by
    obtain ⟨hb, l, r, hbundles, hl⟩ := List.find?_eq_some_iff_append.1 hfind
    refine ⟨{ s.discard i.1 (fun b => contains b.toString) b with
      list := s.list.remove (.ofBundle i.1 b) }, ?_, trivial, ?_⟩
    · simp only [removeMemory, MemoryBundleStorage.removeByFilter, MemoryBundleStorage.step, hfind]
    have herase : (l ++ b :: r).eraseP (fun b => contains b.toString) = l ++ r := by
      have hnot : ∀ x ∈ l, ¬ contains x.toString = true := fun x hx => by simpa using hl x hx
      rw [List.eraseP_append_right _ hnot, List.eraseP_cons_of_pos (p := fun b : Bundle => contains b.toString) hb]
    change s.bundles.Perm (b :: s.bundles.eraseP fun b => contains b.toString)
    rw [hbundles, herase]
    exact List.perm_middle

/-- `SimpleBundleStorage` asks the filter for the texts of identifiers. -/
theorem removesFirst_simple (contains : Bytes → Bool) :
    RemovesFirst (fun (s : SimpleBundleStorage) (_ : Clock) => s.removeByFilter contains)
      (fun s => s.list.metas) (fun _ m => m) (fun m => contains m.toBundleID.toString)
      SimpleBundleStorage.Sorted where
  none s c _ hfind := by
    refine ⟨.noBundleFound, ?_⟩
    simp only [SimpleBundleStorage.removeByFilter, hfind]
  some s c m hs hfind := by
    refine ⟨s.discard m, by simp only [SimpleBundleStorage.removeByFilter, hfind], hs.discard m, ?_⟩
    exact OrderedSet.perm_erase hs (List.mem_of_find?_eq_some hfind) m.toBundleID.lt_self

variable {F : Type} [BloomFilter F]

/-- The purge vector of some bundles. -/
def vectorOf (ids : List BundleID) : SummaryVector F := ids.foldl SummaryVector.add .create

/-- What the filter of a vector says to contain. -/
def filterOf (v : SummaryVector F) : Bytes → Bool := BloomFilter.contains v.bf

/-- The filter of the vector contains the texts of its identifiers. -/
theorem filterOf_vectorOf [LawfulBloomFilter F] {ids : List BundleID} {i : BundleID} (hi : i ∈ ids) :
    filterOf (vectorOf ids : SummaryVector F) i.toString = true := by
  have hbf : ∀ v : SummaryVector F, (ids.foldl SummaryVector.add v).bf =
      ids.foldl (fun f i => BloomFilter.insert f i.toString) v.bf := by
    clear hi
    induction ids with
    | nil => exact fun _ => rfl
    | cons j ids ih => exact fun v => ih (v.add j)
  rw [filterOf, vectorOf, hbf]
  exact BundleSummary.contains_foldl_insert _ (.inl hi)

/-- What is read in a node need not be the meta data of a stored bundle: the source may be longer than
every other one. -/
theorem exists_freed (bundles : List Bundle) :
    ∃ freed : MetaBundle, ∀ c, ∀ b ∈ bundles, freed ≠ .ofBundle c b := by
  let longest := (bundles.map fun b => b.source.ssp.length).sum
  let other : EID := ⟨EID.defaultScheme, List.replicate (longest + 1) 0⟩
  refine ⟨.ofBundle (.showing 0) { Bundle.create 0 0 with source := other }, fun c b hb heq => ?_⟩
  have hsource : other = b.source := congrArg (fun m : MetaBundle => m.source) heq
  have hle : b.source.ssp.length ≤ longest :=
    List.single_le_sum (fun _ _ => Nat.zero_le _) _ (List.mem_map_of_mem hb)
  rw [← hsource] at hle
  have hlength : other.ssp.length = longest + 1 := List.length_replicate
  omega

/-- **Both storages remove what a purge vector names, and return its meta data, exactly if the storage
in memory has nothing to do**: it holds no bundle that the vector names, and none whose text the
filter contains by chance. -/
theorem purged_iff [LawfulBloomFilter F] (ids : List BundleID) (s : MemoryBundleStorage)
    (maxsize : UInt64) (actions : List SimpleBundleStorage.Action) :
    let contains := filterOf (vectorOf ids : SummaryVector F)
    Purged (removeMemory contains) MemoryBundleStorage.bundles (fun b => b.toBundleID)
        (fun i b => .ofBundle i.1 b) ids s ∧
      Purged (fun (s : SimpleBundleStorage) (_ : Clock) => s.removeByFilter contains)
        (fun s => s.list.metas) MetaBundle.toBundleID (fun _ m => m) ids
        (actions.foldl SimpleBundleStorage.step (.create maxsize)) ↔
      (∀ b ∈ s.bundles, contains b.toString = false) ∧ ∀ b ∈ s.bundles, b.toBundleID ∉ ids := by
  intro contains
  obtain ⟨freed, hfreed⟩ := exists_freed s.bundles
  have hmemory : Purged (removeMemory contains) MemoryBundleStorage.bundles (fun b => b.toBundleID)
      (fun i b => .ofBundle i.1 b) ids s ↔
        (∀ b ∈ s.bundles, contains b.toString = false) ∧ ∀ b ∈ s.bundles, b.toBundleID ∉ ids :=
    (removesFirst_memory contains).purged_iff_idle trivial (.showing 0, freed)
      fun _ _ => ⟨(.showing 0, freed), fun i b hb => hfreed i.1 b hb⟩
  have hsimple := (removesFirst_simple contains).purges_iff
    (SimpleBundleStorage.sorted_foldl maxsize actions) (.showing 0) MetaBundle.toBundleID ids
  rw [hmemory, hsimple]
  exact and_iff_left fun _ _ hid => filterOf_vectorOf hid

/-- A storage in memory with one bundle. -/
def sampleMemory : MemoryBundleStorage :=
  ((MemoryBundleStorage.create 0).step (Clock.showing 100)
    (.store (SimpleBundleStorage.sampleBundle SimpleBundleStorage.sampleEID))).2

/-- The meta data of the bundle. -/
def sampleMeta : MetaBundle :=
  .ofBundle (Clock.showing 100) (SimpleBundleStorage.sampleBundle SimpleBundleStorage.sampleEID)

/-- The identifier of the next bundle. -/
def sampleNext : BundleID :=
  { sampleMeta.toBundleID with sequencenumber := 2 }

theorem purged_iff_sample :
    let contains := filterOf (vectorOf [sampleNext] : SummaryVector CellFilter)
    Purged (removeMemory contains) MemoryBundleStorage.bundles (fun b => b.toBundleID)
        (fun i b => .ofBundle i.1 b) [sampleNext] sampleMemory ∧
      Purged (fun (s : SimpleBundleStorage) (_ : Clock) => s.removeByFilter contains)
        (fun s => s.list.metas) MetaBundle.toBundleID (fun _ m => m) [sampleNext]
        ([].foldl SimpleBundleStorage.step (.create 0)) :=
  (purged_iff [sampleNext] sampleMemory 0 []).2 (by decide +kernel)

/-- **A purge vector with the identifier of a stored bundle does not remove the bundle from the
storage in memory.** -/
theorem not_purged_memory :
    let contains := filterOf (vectorOf [sampleMeta.toBundleID] : SummaryVector CellFilter)
    ¬ Purged (removeMemory contains) MemoryBundleStorage.bundles (fun b => b.toBundleID)
      (fun i b => .ofBundle i.1 b) [sampleMeta.toBundleID] sampleMemory := by
  intro contains hpurged
  let i : Clock × MetaBundle := (Clock.showing 100, sampleMeta)
  have hleft : ∃ b ∈ (purge (removeMemory contains) [i, i] sampleMemory).storage.bundles,
      b.toBundleID ∈ [sampleMeta.toBundleID] := by
    decide +kernel
  obtain ⟨b, hb, hid⟩ := hleft
  refine hpurged.removed _ (hpurged.ends [i, i] ?_) b hb hid
  decide +kernel

end Purge

end IbrDtn
