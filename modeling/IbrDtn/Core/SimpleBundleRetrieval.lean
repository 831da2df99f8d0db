import IbrDtn.Core.SimpleBundleStorage
import IbrDtn.Data.UncompressedHeader

/-!
# Bundles that are listed on disk

What the storage on disk lists is looked up by its identifier: in memory while the container is on
its way to the file, and in the file afterwards.  The container holds the bundle as it came, and
the callback of a container takes the bundle of the same name out of the memory, whichever call
put it there.

In the runs in which no bundle is stored while a task for its name is outstanding, and in which
the node does not become the custodian of a bundle, what is listed can be fetched, and is the
bundle that was stored last.

## Main definitions

* `SimpleBundleStorage.lastStored` : the bundles that were stored last.
* `SimpleBundleStorage.Orderly` : the steps of such runs.
* `SimpleBundleStorage.Retrievable` : where the bundle behind a listed identifier is.

## Main results

* `SimpleBundleStorage.retrievable_step` : what one step keeps.
* `SimpleBundleStorage.fetched_run` : listed bundles are fetched behind every orderly run.
-/

namespace IbrDtn

open OrderedSet (Holds Ranked Sorted)

/-- The bundles have the same primary block and blocks of the same views. -/
def Bundle.Agrees (n b : Bundle) : Prop :=
  n.toPrimaryBlock = b.toPrimaryBlock ∧ n.blocks.map Block.view = b.blocks.map Block.view

instance (n b : Bundle) : Decidable (n.Agrees b) := inferInstanceAs (Decidable (_ ∧ _))

/-- A bundle that can be written to a file and read again, whatever the time is. -/
def Bundle.Persists (blob : BLOB) (b : Bundle) : Prop :=
  ∀ now charged, ∃ n, (⟨b, charged⟩ : Container).load (.default blob now) = .ok n ∧ n.Agrees b

/-- **Bundles with a dictionary that survive the round trip persist**: no EID has blanks around its
parts, and a bundle that is no fragment has no fragment fields. -/
theorem Bundle.persists {blob : BLOB} (hblob : blob.CopiesExactly) {b : Bundle}
    (hform : DefaultSerializer.isCompressable b = false)
    (hname : ∀ e ∈ b.allEIDs, Dictionary.Nameable e ∧ e.trimmed = e)
    (hsize : (b.allEIDs.map Dictionary.sizeOf).sum < 2 ^ 64) (hb : b.Serializable)
    (hfields : b.get PrimaryBlock.fragment = false → b.fragmentoffset = 0 ∧ b.appdatalength = 0) :
    b.Persists blob := by
  intro now charged
  obtain ⟨n, d, hreads, hprimary, hviews⟩ := DefaultDeserializer.reads_writeBundle
    (s := DefaultSerializer.create) rfl hform (fun e he => (hname e he).1)
    hsize hb (d := DefaultDeserializer.create) rfl hblob now
  have hheader : ∀ e ∈ Bundle.headerEIDs b.toPrimaryBlock, e.trimmed = e := fun e he =>
    (hname e (List.mem_append_left _ he)).2
  simp only [Bundle.headerEIDs, List.forall_mem_cons] at hheader
  obtain ⟨hdestination, hsource, hreportto, hcustodian, -⟩ := hheader
  have hblocks : ∀ c ∈ b.blocks, (c.mapEIDs EID.trimmed).view = c.view := fun c hc => by
    have heids : c.eids.map EID.trimmed = c.eids :=
      (List.map_congr_left fun e he => (hname e (List.mem_append_right _
        (List.mem_flatMap_of_mem hc he))).2).trans (List.map_id _)
    rw [Block.mapEIDs, heids]
  refine ⟨n, ?_, ?_, hviews.trans (List.map_congr_left hblocks)⟩
  · have hrun := hreads.ofBytes []
    rw [List.append_nil] at hrun
    rw [Container.load, Container.bytes]
    dsimp only
    rw [hrun]
  · rw [hprimary, DefaultDeserializer.receivedPrimary, hdestination, hsource, hreportto,
      hcustodian]
    cases hfragment : b.get PrimaryBlock.fragment with
    | true => rfl
    | false =>
        obtain ⟨hoffset, hlength⟩ := hfields hfragment
        exact congrArg₂ (fun offset length =>
          ({ b.toPrimaryBlock with fragmentoffset := offset, appdatalength := length } :
            PrimaryBlock)) hoffset.symm hlength.symm

namespace SimpleBundleStorage

/-! ### Orderly steps -/

/-- The names for which a container or a removal is outstanding. -/
def awaited (s : SimpleBundleStorage) : List Bytes :=
  s.outstanding.map Prod.fst ++ s.datastore.tasks.filterMap Task.removed?

/-- The steps of callers that store, remove and get bundles, and of a worker on a healthy disk. A
bundle is stored only if no task for its name is outstanding, it is apart from every other bundle
that is listed, it keeps its priority, the node does not replace its custodian, and it can be
written and read again. -/
def Orderly (blob : BLOB) (s : SimpleBundleStorage) : Action → Prop
  | .store node c b => s.exceeds c b = false →
      b.toBundleID.fileName ∉ s.awaited ∧
        (∀ m ∈ s.list.metas, m.toBundleID.Apart b.toBundleID ∨ m.toBundleID = b.toBundleID ∧
          m.getPriority = (MetaBundle.ofBundle c b).getPriority) ∧
        withCustody node c b = b ∧ b.Persists blob
  | .work fails => fails = false
  | .handOver _ | .get _ _ _ | .removeById _ | .removeByFilter _ | .callback _ _ => True
  | .restore _ _ _ | .clear | .expire _ _ => False

/-- The bundles that were stored last, with the custodian that accepted custody. -/
def lastStored (s : SimpleBundleStorage) (last : BundleID → Option Bundle) :
    Action → BundleID → Option Bundle
  | .store node c b =>
      if s.exceeds c b then last
      else Function.update last b.toBundleID (some (withCustody node c b))
  | _ => last

/-- The bundle behind a listed identifier: its file is not about to be removed, and it is in memory
with its container on the way to the file, or in the file. -/
structure Kept (blob : BLOB) (s : SimpleBundleStorage) (last : BundleID → Option Bundle)
    (id : BundleID) (container : Container) : Prop where
  not_removed : id.fileName ∉ s.datastore.tasks.filterMap Task.removed?
  last : last id = some container.bundle
  persists : container.bundle.Persists blob
  located : (id.fileName, container) ∈ s.outstanding ∨
    id.fileName ∉ s.outstanding.map Prod.fst ∧ (id.fileName, container) ∈ s.datastore.files

/-- **What is listed can be fetched**: `live` are the listed bundles. -/
structure Retrievable (blob : BLOB) (s : SimpleBundleStorage) (last : BundleID → Option Bundle)
    (live : List MetaBundle) : Prop where
  apart : live.Pairwise fun m n => m.toBundleID.Apart n.toBundleID
  metas : Holds MetaBundle.toBundleID BundleID.rank s.list.metas live
  priorityIndex : Holds id MetaBundle.priorityRank s.priorityIndex live
  sorted_pending : Sorted DataStorage.hashRank s.pendingBundles
  sorted_files : Sorted DataStorage.hashRank s.datastore.files
  nodup : (s.outstanding.map Prod.fst).Nodup
  pending : ∀ x, x ∈ s.pendingBundles ↔
    ∃ container, (x.1, container) ∈ s.outstanding ∧ container.bundle = x.2
  written : ∀ hash container outcome,
    s.datastore.current = some (.store hash container, outcome) →
      outcome ≠ .failed ∧ (hash, container) ∈ s.datastore.files
  kept : ∀ m ∈ live, ∃ container, s.Kept blob last m.toBundleID container

namespace Retrievable

variable {blob : BLOB} {s : SimpleBundleStorage} {last : BundleID → Option Bundle}
  {live : List MetaBundle} {m : MetaBundle}

/-- A listed bundle is fetched. -/
theorem fetch (h : s.Retrievable blob last live) (hm : m ∈ live) :
    ∃ b, last m.toBundleID = some b ∧ ∀ now age, ∃ n, n.Agrees b ∧
      (s.fetch (.default blob now) age m = .ok n ∨
        s.fetch (.default blob now) age m = .ok (n.addSeconds age)) := by
  obtain ⟨container, hkept⟩ := h.kept m hm
  refine ⟨container.bundle, hkept.last, fun now age => ?_⟩
  rw [SimpleBundleStorage.fetch]
  rcases hkept.located with hout | ⟨hout, hfile⟩
  · have hfind := (DataStorage.total_hash.find?_eq_some_iff h.sorted_pending).2
      ⟨rfl, (h.pending (m.toBundleID.fileName, container.bundle)).2 ⟨container, hout, rfl⟩⟩
    rw [hfind]
    exact ⟨container.bundle, ⟨rfl, rfl⟩, .inl rfl⟩
  · have hnone : OrderedSet.find? Prod.fst DataStorage.hashLt m.toBundleID.fileName
        s.pendingBundles = none := by
      rw [Option.eq_none_iff_forall_ne_some]
      intro x hx
      obtain ⟨hname, hx⟩ := (DataStorage.total_hash.find?_eq_some_iff h.sorted_pending).1 hx
      obtain ⟨other, hother, -⟩ := (h.pending x).1 hx
      exact hout (hname ▸ List.mem_map_of_mem hother)
    have hfind := (DataStorage.total_hash.find?_eq_some_iff h.sorted_files).2 ⟨rfl, hfile⟩
    obtain ⟨n, hload, hagrees⟩ := hkept.persists now container.charged
    rw [hnone]
    dsimp only
    rw [hfind]
    dsimp only
    rw [hload]
    exact ⟨n, hagrees, .inr rfl⟩

/-- The bundle that an identifier finds in the list. -/
theorem get (h : s.Retrievable blob last live) (hm : m ∈ live) (env : DeserializerEnv)
    (age : UInt64) : s.get env age m.toBundleID = s.fetch env age m := by
  obtain ⟨l, r, hs⟩ := List.append_of_mem (h.metas.perm.mem_iff.2 hm)
  have hapart : s.list.metas.Pairwise fun m n => m.toBundleID.Apart n.toBundleID :=
    h.apart.perm h.metas.perm.symm fun h => h.symm
  rw [hs] at hapart
  have hfind : s.list.metas.find? (fun n => m.toBundleID.eq n.toBundleID) = some m := by
    refine List.find?_eq_some_iff_append.2 ⟨BundleID.eq_refl _, l, r, hs, fun n hn => ?_⟩
    have hn := (List.pairwise_append.1 hapart).2.2 n hn m List.mem_cons_self
    rw [hn.symm.eq_false]
    rfl
  rw [SimpleBundleStorage.get, hfind]

/-! ### Steps -/

/-- A bundle is taken off the list, and its file will be removed. -/
theorem discard (h : s.Retrievable blob last live) (hm : m ∈ s.list.metas) :
    ∃ live', (s.discard m).Retrievable blob last live' := by
  obtain ⟨l, r, rfl⟩ := List.append_of_mem (h.metas.perm.mem_iff.1 hm)
  have hperm : (l ++ m :: r).Perm (m :: (l ++ r)) := List.perm_middle
  have hapart := h.apart.perm hperm fun h => h.symm
  obtain ⟨hm, hrest⟩ := List.pairwise_cons.1 hapart
  have houtstanding := outstanding_removes s (show [Task.remove m.toBundleID.fileName].filterMap
    Task.container? = [] from rfl)
  refine ⟨l ++ r, hrest, ?_, ?_, h.sorted_pending, h.sorted_files, ?_, ?_, h.written, ?_⟩
  · exact (h.metas.of_perm hperm).erase (BundleID.equivalent_self _) fun n hn =>
      BundleID.ranked_of_apart (hm n hn).symm
  · exact (h.priorityIndex.of_perm hperm).erase (MetaBundle.equivalent_priority rfl rfl)
      fun n hn => MetaBundle.ranked_priority (hm n hn).symm
  · exact houtstanding ▸ h.nodup
  · exact fun x => houtstanding ▸ h.pending x
  · intro n hn
    obtain ⟨container, hkept⟩ := h.kept n (hperm.mem_iff.2 (List.mem_cons_of_mem m hn))
    refine ⟨container, ?_, hkept.last, hkept.persists, houtstanding ▸ hkept.located⟩
    change n.toBundleID.fileName ∉ (s.datastore.tasks ++ [Task.remove _]).filterMap Task.removed?
    rw [List.filterMap_append]
    refine fun hmem => (List.mem_append.1 hmem).elim hkept.not_removed fun hmem => ?_
    have hne := (BundleID.comparable_of_apart (hm n hn)).fileName_ne
    exact hne (List.mem_singleton.1 hmem).symm

theorem removeById (h : s.Retrievable blob last live) (id : BundleID) :
    ∃ live', (s.removeById id).Retrievable blob last live' := by
  rw [SimpleBundleStorage.removeById]
  split
  · exact h.discard (List.mem_of_find?_eq_some ‹_›)
  · exact ⟨live, h⟩

/-- A container is handed over to the worker. -/
theorem handOver (h : s.Retrievable blob last live) (index : ℕ) :
    (s.handOver index).Retrievable blob last live := by
  have houtstanding := outstanding_handOver s index
  rw [SimpleBundleStorage.handOver] at houtstanding ⊢
  split at houtstanding
  case h_2 => exact h
  case h_1 x hx =>
    refine ⟨h.apart, h.metas, h.priorityIndex, h.sorted_pending, h.sorted_files,
      (houtstanding.map _).nodup_iff.2 h.nodup, fun x => ?_, h.written, fun m hm => ?_⟩
    · rw [h.pending]
      simp only [houtstanding.mem_iff]
    · obtain ⟨container, hkept⟩ := h.kept m hm
      refine ⟨container, ?_, hkept.last, hkept.persists, ?_⟩
      · change _ ∉ (s.datastore.tasks ++ [Task.store x.1 x.2]).filterMap Task.removed?
        have hnone : [Task.store x.1 x.2].filterMap Task.removed? = [] := rfl
        rw [List.filterMap_append, hnone, List.append_nil]
        exact hkept.not_removed
      · rw [houtstanding.mem_iff, (houtstanding.map _).mem_iff]
        exact hkept.located

/-- **The worker does the file operation of the next task.** -/
theorem work (h : s.Retrievable blob last live) :
    { s with datastore := s.datastore.work false }.Retrievable blob last live := by
  rw [DataStorage.work]
  cases hcurrent : s.datastore.current with
  | some x => exact h
  | none =>
      cases htasks : s.datastore.tasks with
      | nil => exact h
      | cons task tasks =>
          have hout := fun (outcome : FileOutcome) files =>
            show SimpleBundleStorage.outstanding { s with
              datastore := ⟨tasks, files, some (task, outcome)⟩ } = s.outstanding
            from outstanding_work hcurrent htasks files
          have htail {name : Bytes} (hname : name ∉ s.datastore.tasks.filterMap Task.removed?) :
              name ∉ tasks.filterMap Task.removed? := by
            rw [htasks] at hname
            exact fun hmem => hname ((List.sublist_cons_self task tasks).filterMap _ |>.subset hmem)
          cases task with
          | store hash container =>
              have hmem : (hash, container) ∈ s.outstanding := by
                rw [outstanding, hcurrent, htasks]
                exact List.mem_append_right _ List.mem_cons_self
              have hfiles : ∀ y, y ∈ OrderedSet.assign DataStorage.hashLt hash container
                  s.datastore.files ↔ y = (hash, container) ∨ y.1 ≠ hash ∧ y ∈ s.datastore.files :=
                fun y => DataStorage.total_hash.mem_assign h.sorted_files
              dsimp only
              rw [if_neg Bool.false_ne_true]
              refine ⟨h.apart, h.metas, h.priorityIndex, h.sorted_pending,
                DataStorage.total_hash.sorted_assign h.sorted_files _ _, ?_, ?_, ?_, ?_⟩
              · rw [hout]
                exact h.nodup
              · intro x
                rw [hout]
                exact h.pending x
              · rintro _ _ _ ⟨⟩
                refine ⟨?_, (hfiles _).2 (.inl rfl)⟩
                split_ifs <;> decide
              · intro m hm
                obtain ⟨other, hkept⟩ := h.kept m hm
                refine ⟨other, htail hkept.not_removed, hkept.last, hkept.persists, ?_⟩
                rw [hout]
                refine hkept.located.imp_right fun hfound => ⟨hfound.1, (hfiles _).2 ?_⟩
                have hne : m.toBundleID.fileName ≠ hash := fun heq =>
                  hfound.1 (heq ▸ List.mem_map_of_mem hmem)
                exact .inr ⟨hne, hfound.2⟩
          | remove hash =>
              have hne {m : MetaBundle} {container : Container}
                  (hkept : s.Kept blob last m.toBundleID container) :
                  m.toBundleID.fileName ≠ hash := by
                rintro rfl
                refine hkept.not_removed ?_
                rw [htasks]
                exact List.mem_cons_self
              dsimp only
              by_cases hnone : OrderedSet.find? Prod.fst DataStorage.hashLt hash
                  s.datastore.files = none
              · rw [if_pos (.inr hnone)]
                refine ⟨h.apart, h.metas, h.priorityIndex, h.sorted_pending, h.sorted_files, ?_, ?_,
                  by rintro _ _ _ ⟨⟩, fun m hm => ?_⟩
                · exact hout _ _ ▸ h.nodup
                · exact fun x => hout _ _ ▸ h.pending x
                · obtain ⟨container, hkept⟩ := h.kept m hm
                  exact ⟨container, htail hkept.not_removed, hkept.last, hkept.persists,
                    hout _ _ ▸ hkept.located⟩
              · rw [if_neg (not_or.2 ⟨Bool.false_ne_true, hnone⟩)]
                refine ⟨h.apart, h.metas, h.priorityIndex, h.sorted_pending,
                  OrderedSet.Total.sorted_erase h.sorted_files _, ?_, ?_, by rintro _ _ _ ⟨⟩,
                  fun m hm => ?_⟩
                · exact hout _ _ ▸ h.nodup
                · exact fun x => hout _ _ ▸ h.pending x
                · obtain ⟨container, hkept⟩ := h.kept m hm
                  refine ⟨container, htail hkept.not_removed, hkept.last, hkept.persists, ?_⟩
                  rw [hout]
                  refine hkept.located.imp_right fun hfound => ⟨hfound.1, ?_⟩
                  exact (DataStorage.total_hash.mem_erase h.sorted_files).2 ⟨hne hkept, hfound.2⟩

/-- The bundle of the current task leaves the memory; its container is in the file. -/
theorem erasePending (h : s.Retrievable blob last live) {hash : Bytes} {container : Container}
    {outcome : FileOutcome}
    (hcurrent : s.datastore.current = some (.store hash container, outcome)) :
    SimpleBundleStorage.Retrievable blob
      ({ s with datastore := { s.datastore with current := none } }.erasePending hash) last
      live := by
  have hperm := outstanding_stored hcurrent
  have hfile := (h.written _ _ _ hcurrent).2
  have hnodup : (hash :: (SimpleBundleStorage.outstanding
      { s with datastore := { s.datastore with current := none } }).map Prod.fst).Nodup :=
    (hperm.map Prod.fst).nodup_iff.1 h.nodup
  obtain ⟨hnot, hrest⟩ := List.nodup_cons.1 hnodup
  refine ⟨h.apart, h.metas, h.priorityIndex, OrderedSet.Total.sorted_erase h.sorted_pending _,
    h.sorted_files, hrest, fun x => ?_, fun _ _ _ => nofun, fun m hm => ?_⟩
  · change x ∈ OrderedSet.erase Prod.fst DataStorage.hashLt hash s.pendingBundles ↔ _
    rw [DataStorage.total_hash.mem_erase h.sorted_pending, h.pending]
    constructor
    · rintro ⟨hne, other, hother, hx⟩
      refine ⟨other, ?_, hx⟩
      exact (List.mem_cons.1 (hperm.mem_iff.1 hother)).resolve_left
        fun heq => hne (congrArg Prod.fst heq)
    · rintro ⟨other, hother, hx⟩
      refine ⟨fun heq => hnot (heq ▸ List.mem_map_of_mem hother), other, ?_, hx⟩
      exact hperm.mem_iff.2 (List.mem_cons_of_mem _ hother)
  · obtain ⟨other, hkept⟩ := h.kept m hm
    refine ⟨other, hkept.not_removed, hkept.last, hkept.persists, ?_⟩
    rcases hkept.located with hout | ⟨hout, hother⟩
    · rcases List.mem_cons.1 (hperm.mem_iff.1 hout) with heq | hout
      · obtain ⟨hname, rfl⟩ := Prod.mk.inj heq
        exact .inr ⟨hname ▸ hnot, hname ▸ hfile⟩
      · exact .inl hout
    · rw [(hperm.map Prod.fst).mem_iff] at hout
      exact .inr ⟨fun hmem => hout (List.mem_cons_of_mem _ hmem), hother⟩

/-- The account of lengths does not matter. -/
theorem congr (h : s.Retrievable blob last live) {s' : SimpleBundleStorage}
    (hlist : s'.list = s.list) (hpriority : s'.priorityIndex = s.priorityIndex)
    (hpending : s'.pendingBundles = s.pendingBundles) (hstoring : s'.storing = s.storing)
    (hdatastore : s'.datastore = s.datastore) : s'.Retrievable blob last live := by
  have hout : s'.outstanding = s.outstanding := by
    rw [outstanding, hstoring, hdatastore]
    rfl
  refine ⟨h.apart, hlist ▸ h.metas, hpriority ▸ h.priorityIndex, hpending ▸ h.sorted_pending,
    hdatastore ▸ h.sorted_files, hout ▸ h.nodup, ?_, hdatastore ▸ h.written, fun m hm => ?_⟩
  · rw [hpending, hout]
    exact h.pending
  · obtain ⟨container, hkept⟩ := h.kept m hm
    refine ⟨container, ?_, hkept.last, hkept.persists, ?_⟩
    · rw [hdatastore]
      exact hkept.not_removed
    · rw [hout, hdatastore]
      exact hkept.located

/-- **The worker calls back.** -/
theorem callback (h : s.Retrievable blob last live) (c : Clock) (fresh : Bundle) :
    (s.callback c fresh).Retrievable blob last live := by
  have hidle : (s.datastore.current.toList.map Prod.fst).filterMap Task.container? = [] →
      SimpleBundleStorage.Retrievable blob
        { s with datastore := { s.datastore with current := none } } last live := by
    intro hcontainer
    have hout := outstanding_current hcontainer
    refine ⟨h.apart, h.metas, h.priorityIndex, h.sorted_pending, h.sorted_files, hout ▸ h.nodup,
      hout ▸ h.pending, fun _ _ _ => nofun, fun m hm => ?_⟩
    obtain ⟨container, hkept⟩ := h.kept m hm
    exact ⟨container, hkept.not_removed, hkept.last, hkept.persists, hout ▸ hkept.located⟩
  rw [SimpleBundleStorage.callback]
  rcases hcurrent : s.datastore.current with _ | ⟨⟨hash, container⟩ | hash, outcome⟩
  · exact hidle (by rw [hcurrent]; rfl)
  · have herased := h.erasePending hcurrent
    cases outcome with
    | done => exact herased.congr rfl rfl rfl rfl rfl
    | failed => exact herased.congr rfl rfl rfl rfl rfl
    | incomplete => exact herased.congr rfl rfl rfl rfl rfl
  · have hidle := hidle (by rw [hcurrent]; rfl)
    cases outcome with
    | done =>
        dsimp only
        rw [eventDataStorageRemoved]
        split
        · exact hidle.congr rfl rfl rfl rfl rfl
        · exact hidle
    | failed => exact hidle
    | incomplete => exact hidle

/-- A bundle is listed: an entry of the same identifier and priority stays as it is. -/
theorem list_add (h : s.Retrievable blob last live) {n : MetaBundle}
    (hn : ∀ m ∈ s.list.metas, m.toBundleID.Apart n.toBundleID ∨ m.toBundleID = n.toBundleID ∧
      m.getPriority = n.getPriority) :
    ∃ live' : List MetaBundle, live'.Pairwise (fun m n => m.toBundleID.Apart n.toBundleID) ∧
      Holds MetaBundle.toBundleID BundleID.rank (s.list.add n).metas live' ∧
      Holds id MetaBundle.priorityRank
        (OrderedSet.insert id MetaBundle.priorityLt n s.priorityIndex) live' ∧
      ∀ m ∈ live', m.toBundleID = n.toBundleID ∨ m ∈ live ∧ m.toBundleID.Apart n.toBundleID := by
  replace hn := fun m hm => hn m (h.metas.perm.mem_iff.2 hm)
  by_cases hex : ∃ m ∈ live, m.toBundleID = n.toBundleID
  · obtain ⟨m, hm, hid⟩ := hex
    obtain ⟨l, r, rfl⟩ := List.append_of_mem hm
    have hperm : (l ++ m :: r).Perm (m :: (l ++ r)) := List.perm_middle
    have hapart := (List.pairwise_cons.1 (h.apart.perm hperm fun h => h.symm)).1
    have hprio : m.getPriority = n.getPriority := by
      refine ((hn m hm).resolve_left fun hne => ?_).2
      exact hne.ne hid
    have hmetas := (h.metas.of_perm hperm).insert_eq (b := n)
      (BundleID.equivalent_self m.toBundleID)
      (fun u hu => BundleID.ranked_of_apart (hapart u hu).symm) hid.symm
    have hindex := (h.priorityIndex.of_perm hperm).insert_eq (b := n) (k := n)
      (MetaBundle.equivalent_priority hid hprio)
      (fun u hu => MetaBundle.ranked_priority (hid ▸ (hapart u hu).symm)) rfl
    refine ⟨l ++ m :: r, h.apart, ?_, hindex.symm ▸ h.priorityIndex, fun u hu => ?_⟩
    · rw [BundleList.add, hmetas]
      exact h.metas
    · rcases List.mem_cons.1 (hperm.mem_iff.1 hu) with rfl | hu'
      · exact .inl hid
      · exact .inr ⟨hu, hid ▸ (hapart u hu').symm⟩
  · have hapart : ∀ m ∈ live, m.toBundleID.Apart n.toBundleID := fun m hm =>
      (hn m hm).resolve_right fun heq => hex ⟨m, hm, heq.1⟩
    refine ⟨n :: live, List.pairwise_cons.2 ⟨fun m hm => (hapart m hm).symm, h.apart⟩,
      h.metas.insert fun m hm => BundleID.ranked_of_apart (hapart m hm),
      h.priorityIndex.insert fun m hm => MetaBundle.ranked_priority (hapart m hm),
      fun m hm => ?_⟩
    rcases List.mem_cons.1 hm with rfl | hm
    · exact .inl rfl
    · exact .inr ⟨hm, hapart m hm⟩

/-- **A bundle is stored** while no task for its name is outstanding. -/
theorem insert (h : s.Retrievable blob last live) {node : LocalNode} {c : Clock} {b : Bundle}
    (hname : b.toBundleID.fileName ∉ s.awaited)
    (hlisted : ∀ m ∈ s.list.metas, m.toBundleID.Apart b.toBundleID ∨
      m.toBundleID = b.toBundleID ∧ m.getPriority = (MetaBundle.ofBundle c b).getPriority)
    (hcustody : withCustody node c b = b) (hpersists : b.Persists blob) :
    ∃ live', (s.insert node c b).Retrievable blob
      (Function.update last b.toBundleID (some b)) live' := by
  obtain ⟨live', hapart, hmetas, hindex, hcases⟩ := h.list_add (n := .ofBundle c b) hlisted
  have hperm := outstanding_insert s node c b
  rw [awaited, List.mem_append, not_or] at hname
  have hnodup : (b.toBundleID.fileName :: s.outstanding.map Prod.fst).Nodup :=
    List.nodup_cons.2 ⟨hname.1, h.nodup⟩
  have hpending : ∀ y, y ∈ (s.insert node c b).pendingBundles ↔
      y = (b.toBundleID.fileName, b) ∨ y.1 ≠ b.toBundleID.fileName ∧ y ∈ s.pendingBundles := by
    intro y
    rw [SimpleBundleStorage.insert, hcustody]
    exact DataStorage.total_hash.mem_assign h.sorted_pending
  refine ⟨live', hapart, ?_, ?_, ?_, h.sorted_files, (hperm.map _).nodup_iff.2 hnodup,
    fun x => ?_, h.written, fun m hm => ?_⟩
  · rw [SimpleBundleStorage.insert, hcustody]
    exact hmetas
  · rw [SimpleBundleStorage.insert, hcustody]
    exact hindex
  · exact DataStorage.total_hash.sorted_assign h.sorted_pending _ _
  · rw [hpending, h.pending]
    constructor
    · rintro (rfl | ⟨-, other, hother, hx⟩)
      · exact ⟨_, hperm.mem_iff.2 List.mem_cons_self, rfl⟩
      · exact ⟨other, hperm.mem_iff.2 (List.mem_cons_of_mem _ hother), hx⟩
    · rintro ⟨other, hother, hx⟩
      rcases List.mem_cons.1 (hperm.mem_iff.1 hother) with heq | hother
      · obtain ⟨hfst, rfl⟩ := Prod.mk.inj heq
        exact .inl (Prod.ext hfst hx.symm)
      · refine .inr ⟨fun heq => hname.1 (heq ▸ List.mem_map_of_mem hother), other, hother, hx⟩
  · rcases hcases m hm with hid | ⟨hm, hne⟩
    · have hid : m.toBundleID = b.toBundleID := hid
      refine ⟨⟨b, b.lengthAt c⟩, ?_, ?_, hpersists, .inl ?_⟩
      · exact hid ▸ hname.2
      · rw [hid, Function.update_self]
      · rw [hid]
        exact hperm.mem_iff.2 List.mem_cons_self
    · have hne : m.toBundleID.Apart b.toBundleID := hne
      obtain ⟨container, hkept⟩ := h.kept m hm
      have hfile := (BundleID.comparable_of_apart hne).fileName_ne
      refine ⟨container, hkept.not_removed, ?_, hkept.persists, ?_⟩
      · rw [Function.update_of_ne hne.ne]
        exact hkept.last
      · refine hkept.located.imp (fun hout => hperm.mem_iff.2 (List.mem_cons_of_mem _ hout))
          fun ⟨hout, hmem⟩ => ⟨fun hin => ?_, hmem⟩
        rcases List.mem_cons.1 ((hperm.map Prod.fst).mem_iff.1 hin) with heq | hin
        · exact hfile heq
        · exact hout hin

end Retrievable

/-- **An orderly step keeps what is listed within reach.** -/
theorem retrievable_step {blob : BLOB} {s : SimpleBundleStorage} {last : BundleID → Option Bundle}
    {live : List MetaBundle} (h : s.Retrievable blob last live) {a : Action}
    (ha : s.Orderly blob a) :
    ∃ live', (s.step a).Retrievable blob (s.lastStored last a) live' := by
  cases a with
  | restore c hash found => exact ha.elim
  | store node c b =>
      rw [step, lastStored]
      split_ifs with hexceeds
      · exact ⟨live, h⟩
      · obtain ⟨hname, hlisted, hcustody, hpersists⟩ := ha (Bool.eq_false_iff.2 hexceeds)
        rw [hcustody]
        exact h.insert hname hlisted hcustody hpersists
  | handOver index => exact ⟨live, h.handOver index⟩
  | get env age id =>
      rw [step]
      split
      · exact h.removeById id
      · exact ⟨live, h⟩
  | removeById id => exact h.removeById id
  | removeByFilter contains =>
      rw [step]
      split
      · exact h.discard (List.mem_of_find?_eq_some ‹_›)
      · exact ⟨live, h⟩
  | clear => exact ha.elim
  | expire c timestamp => exact ha.elim
  | work fails =>
      rw [show fails = false from ha]
      exact ⟨live, h.work⟩
  | callback c fresh => exact ⟨live, h.callback c fresh⟩

theorem retrievable_create (blob : BLOB) (maxsize : UInt64) :
    (create maxsize).Retrievable blob (fun _ => none) [] where
  apart := .nil
  metas := OrderedSet.holds_nil
  priorityIndex := OrderedSet.holds_nil
  sorted_pending := .nil
  sorted_files := .nil
  nodup := .nil
  pending := fun x => by simp [create, outstanding, DataStorage.empty]
  written := fun _ _ _ => nofun
  kept := fun _ h => absurd h List.not_mem_nil

/-- A step of the storage beside the bundles that were stored last. -/
def Step (s : SimpleBundleStorage × (BundleID → Option Bundle)) (a : Action)
    (s' : SimpleBundleStorage × (BundleID → Option Bundle)) : Prop :=
  s' = (s.1.step a, s.1.lastStored s.2 a)

/-- **Listed bundles are fetched behind every orderly run.** The list and the priority index hold the
same bundles. Each of them is what `get` answers for its identifier: the bundle that was stored
last, as it is or as it is read from its file, where it has become older by the age of the file. -/
theorem fetched_run {blob : BLOB} {maxsize : UInt64} {actions : List Action}
    {s : SimpleBundleStorage} {last : BundleID → Option Bundle}
    (h : Transition.Run Step (fun s => s.1.Orderly blob) (create maxsize, fun _ => none) actions
      (s, last)) :
    s.list.metas.Perm s.priorityIndex ∧
      ∀ m ∈ s.priorityIndex, ∃ b, last m.toBundleID = some b ∧ ∀ now age, ∃ n, n.Agrees b ∧
        (s.get (.default blob now) age m.toBundleID = .ok n ∨
          s.get (.default blob now) age m.toBundleID = .ok (n.addSeconds age)) := by
  obtain ⟨live, hs⟩ := h.invariant (I := fun s => ∃ live, s.1.Retrievable blob s.2 live)
    ⟨[], retrievable_create blob maxsize⟩ fun s a s' ⟨_, hs⟩ hmeets hstep => by
      rw [hstep]
      exact retrievable_step hs hmeets
  refine ⟨hs.metas.perm.trans hs.priorityIndex.perm.symm, fun m hm => ?_⟩
  have hm := hs.priorityIndex.perm.mem_iff.1 hm
  obtain ⟨b, hlast, hfetch⟩ := hs.fetch hm
  refine ⟨b, hlast, fun now age => ?_⟩
  rw [hs.get hm]
  exact hfetch now age

/-! ### A bundle that is stored again, and one whose custody is accepted -/

/-- A node with a name. -/
def custodian : LocalNode := ⟨⟨EID.defaultScheme, ascii ['/', '/', 'b']⟩, 0, 0, ⟨0, 0⟩⟩

/-- A bundle whose previous custodian asks for the transfer of custody. -/
def custodyBundle : Bundle :=
  { sampleBundle sampleEID with
    procflags := PrimaryBlock.custodyRequested, custodian := sampleEID }

/-- The custodian of the bundle that is fetched for the sample. -/
def fetchedCustodian (s : SimpleBundleStorage) : Option EID :=
  match s.get (.default BLOB.exact ⟨0, 0⟩) 0 (sampleBundle sampleEID).toBundleID with
  | .ok b => some b.custodian
  | .error _ => none

theorem serializable_sampleBundle : (sampleBundle sampleEID).Serializable := by
  refine ⟨by decide, rfl, fun c hc => ?_, by decide⟩
  have hc : c = ⟨Block.payloadType, Block.lastBlock, [], .payload [0x68, 0x69]⟩ :=
    List.mem_singleton.1 hc
  subst hc
  exact ⟨by decide, fun _ h => absurd h (by simp [Body.security?]), by decide, by decide,
    by decide, by decide⟩

theorem fetched_run_sample :
    let s := after (storeSample sampleEID ++ runTask)
    (s.pendingBundles = [] ∧ s.priorityIndex.length = 1) ∧
      s.list.metas.Perm s.priorityIndex ∧
        ∀ m ∈ s.priorityIndex, ∃ b,
          (create 0).lastStored (fun _ => none) (.store sampleNode (Clock.showing 100)
            (sampleBundle sampleEID)) m.toBundleID = some b ∧
          ∀ now age, ∃ n, n.Agrees b ∧
            (s.get (.default BLOB.exact now) age m.toBundleID = .ok n ∨
              s.get (.default BLOB.exact now) age m.toBundleID = .ok (n.addSeconds age)) := by
  have hpersists : (sampleBundle sampleEID).Persists BLOB.exact :=
    Bundle.persists BLOB.exact_copiesExactly (by decide) (by decide +kernel) (by decide)
      serializable_sampleBundle fun _ => ⟨rfl, rfl⟩
  have horderly : (create 0).Orderly BLOB.exact
      (.store sampleNode (Clock.showing 100) (sampleBundle sampleEID)) := fun _ =>
    ⟨List.not_mem_nil, fun _ h => absurd h List.not_mem_nil, by decide +kernel, hpersists⟩
  have hhandOver : ∀ s : SimpleBundleStorage × (BundleID → Option Bundle),
      s.1.Orderly BLOB.exact (.handOver 0) := fun _ => trivial
  have hwork : ∀ s : SimpleBundleStorage × (BundleID → Option Bundle),
      s.1.Orderly BLOB.exact (.work false) := fun _ => rfl
  have hcallback : ∀ s : SimpleBundleStorage × (BundleID → Option Bundle),
      s.1.Orderly BLOB.exact (.callback (Clock.showing 100) (Bundle.create 0 0)) :=
    fun _ => trivial
  have hstored : Transition.Run Step (fun s => s.1.Orderly BLOB.exact) (create 0, fun _ => none)
      [.store sampleNode (Clock.showing 100) (sampleBundle sampleEID)] _ :=
    Transition.Run.nil.snoc horderly rfl
  exact ⟨by decide +kernel, fetched_run (((hstored.snoc (hhandOver _) rfl).snoc (hwork _) rfl).snoc
    (hcallback _) rfl)⟩

/-- **A bundle that is stored again while tasks for its name are outstanding is lost, and so is the
custodian**: the sample is listed and cannot be fetched, when it was removed and stored again
before the worker ran and three tasks later; the custodian that was set is forgotten as soon as
the file is written. -/
theorem not_fetched_after :
    let again := after (storeSample sampleEID ++
      [.removeById (sampleBundle sampleEID).toBundleID] ++ storeSample sampleEID ++ runTask ++
        runTask)
    let store := [Action.store custodian (Clock.showing 100) custodyBundle, .handOver 0]
    (again.priorityIndex.length = 1 ∧ again.fetchedCustodian = none) ∧
      (after store).fetchedCustodian = some custodian.eid ∧
        (after (store ++ runTask)).fetchedCustodian = some sampleEID := by
  decide +kernel

end SimpleBundleStorage

end IbrDtn
