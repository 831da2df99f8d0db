import IbrDtn.Core.SimpleBundleStorage

/-!
# Stores that fail

`SimpleBundleStorage::store` enters a bundle in the bundle list, the priority index, and the maps of
pending bundles and of lengths, before the worker writes its file.  When the file cannot be
written, `eventDataStorageStoreFailed` takes back the entries in the two maps and the length, but
not those in the list and in the index.  This file shows that these are the only ones that stay,
in all runs of sound steps.

## Main definitions

* `SimpleBundleStorage.entries`, `SimpleBundleStorage.others` : what the containers of a storage hold
  for an identifier, and for all others.
* `SimpleBundleStorage.Undone` : a store was taken back.
* `SimpleBundleStorage.SameListing` : the bundle list and the index have the entries for an
  identifier that they had before.

## Main results

* `SimpleBundleStorage.undone_iff` : a failed store is taken back exactly if what it listed has
  been removed by others.
-/

namespace IbrDtn

namespace SimpleBundleStorage

/-- What the containers of a storage hold: the bundle list with its expiry list, the priority index,
and the maps of pending bundles, of stored bundles, and of lengths. -/
structure Entries where
  metas : List MetaBundle
  expiring : List ExpiringBundle
  priorityIndex : List MetaBundle
  pendingBundles : List (Bytes × Bundle)
  storedBundles : List (MetaBundle × Bytes)
  bundleSize : List (MetaBundle × UInt64)
deriving DecidableEq

/-- The entries for the identifiers with a property, and for names of files with another one. -/
def entriesWith (s : SimpleBundleStorage) (p : BundleID → Bool) (q : Bytes → Bool) : Entries where
  metas := s.list.metas.filter fun m => p m.toBundleID
  expiring := s.list.expiring.filter fun e => p e.bundle.toBundleID
  priorityIndex := s.priorityIndex.filter fun m => p m.toBundleID
  pendingBundles := s.pendingBundles.filter fun x => q x.1
  storedBundles := s.storedBundles.filter fun x => p x.1.toBundleID
  bundleSize := s.bundleSize.filter fun x => p x.1.toBundleID

/-- The entries for an identifier. -/
def entries (s : SimpleBundleStorage) (i : BundleID) : Entries :=
  s.entriesWith (fun j => decide (j = i)) fun h => decide (h = i.fileName)

/-- The entries for all other identifiers. -/
def others (s : SimpleBundleStorage) (i : BundleID) : Entries :=
  s.entriesWith (fun j => decide (j ≠ i)) fun h => decide (h ≠ i.fileName)

/-- **A store was taken back**, by a step from `s` to `s'`: the bundle has the entries that it had in
`s₀`, the other bundles keep theirs, and the length is taken off. -/
structure Undone (s₀ s s' : SimpleBundleStorage) (i : BundleID) (charged : UInt64) : Prop where
  own : s'.entries i = s₀.entries i
  rest : s'.others i = s.others i
  currentsize : s'.currentsize + charged = s.currentsize

/-- The bundle list, the expiry list and the priority index have the entries for the identifier that
they had in `s₀`. -/
def SameListing (s₀ s : SimpleBundleStorage) (i : BundleID) : Prop :=
  (s.entries i).metas = (s₀.entries i).metas ∧
    (s.entries i).expiring = (s₀.entries i).expiring ∧
      (s.entries i).priorityIndex = (s₀.entries i).priorityIndex

/-- Nothing is charged for an identifier that can be told from those of all charges. -/
theorem Accounted.entries_eq_nil {s : SimpleBundleStorage} {waiting kept : List Charge}
    (h : s.Accounted waiting kept) {i : BundleID}
    (hi : ∀ u ∈ waiting ++ kept, u.id.Comparable i) :
    (s.entries i).pendingBundles = [] ∧ (s.entries i).storedBundles = [] ∧
      (s.entries i).bundleSize = [] := by
  have hne (u : Charge) (hu : u ∈ waiting ++ kept) : u.id ≠ i := by
    rintro rfl
    exact (hi u hu).fileName_ne rfl
  refine ⟨?_, ?_, ?_⟩
  · refine List.filter_eq_nil_iff.2 fun x hx hdec => ?_
    obtain ⟨u, hu, rfl⟩ := List.mem_map.1 (h.located.pendingBundles.perm.mem_iff.1 hx)
    exact (hi u (List.mem_append_left _ hu)).fileName_ne (of_decide_eq_true hdec)
  · refine List.filter_eq_nil_iff.2 fun x hx hdec => ?_
    obtain ⟨u, hu, rfl⟩ := List.mem_map.1 (h.storedBundles.perm.mem_iff.1 hx)
    exact hne u (List.mem_append_right _ hu) (u.storedAs_id.symm.trans (of_decide_eq_true hdec))
  · refine List.filter_eq_nil_iff.2 fun x hx hdec => ?_
    obtain ⟨u, hu, rfl⟩ := List.mem_map.1 (h.bundleSize.perm.mem_iff.1 hx)
    exact hne u hu (u.chargedAs_id.symm.trans (of_decide_eq_true hdec))

/-- **What the callback of a failed store does**: the bundle leaves the maps of pending bundles and of
lengths, and its length is taken off. -/
theorem Accounted.callback_failed {s : SimpleBundleStorage} {waiting kept : List Charge}
    (h : s.Accounted waiting kept) {hash : Bytes} {container : Container}
    (hcurrent : s.datastore.current = some (.store hash container, .failed)) (c : Clock)
    (fresh : Bundle) {i : BundleID} (hi : container.bundle.toBundleID = i) :
    ((s.callback c fresh).list = s.list ∧ (s.callback c fresh).priorityIndex = s.priorityIndex ∧
        (s.callback c fresh).storedBundles = s.storedBundles ∧ (s.entries i).storedBundles = []) ∧
      (s.callback c fresh).pendingBundles =
          s.pendingBundles.filter (fun x => decide (x.1 ≠ i.fileName)) ∧
        (s.callback c fresh).bundleSize =
            s.bundleSize.filter (fun x => decide (x.1.toBundleID ≠ i)) ∧
          (s.callback c fresh).currentsize + container.charged = s.currentsize := by
  have hlocated := h.located
  rw [hcurrent] at hlocated
  obtain ⟨r, t, rfl, rfl, hperm, hpending, -⟩ := hlocated.erasePending hcurrent fresh
  have hcharged := h.toCharged.of_perm (hperm.append_right kept)
  have hcomparable := hcharged.comparable_of_mem
  obtain rfl : r.id = i := hi
  have hlocated := h.located.of_perm hperm (.refl _)
  have hcallback : s.callback c fresh = SimpleBundleStorage.erasePending
      (SimpleBundleStorage.release { s with datastore := { s.datastore with current := none } }
        (.ofBundle c r.kept)) r.hash := by
    have hbundle : pendingBundle { s with datastore := { s.datastore with current := none } } fresh
      r.hash = r.kept := hpending
    rw [SimpleBundleStorage.callback, hcurrent]
    dsimp only
    rw [eventDataStorageStoreFailed, hbundle]
  have hkept : (MetaBundle.ofBundle c r.kept).toBundleID = r.id := r.kept_id
  rw [hcallback]
  refine ⟨⟨rfl, rfl, rfl, ?_⟩, ?_, ?_, ?_⟩
  · refine List.filter_eq_nil_iff.2 fun x hx hdec => ?_
    obtain ⟨u, hu, rfl⟩ := List.mem_map.1 (h.storedBundles.perm.mem_iff.1 hx)
    have hid : u.id = r.id := u.storedAs_id.symm.trans (of_decide_eq_true hdec)
    exact (hcomparable u (List.mem_append_right t hu)).fileName_ne (congrArg _ hid)
  · refine hlocated.pendingBundles.erase_eq_filter (DataStorage.equivalent_self r.hash)
      (ranked_hash fun u hu => hcomparable u (List.mem_append_left kept hu)) ?_ fun x hx => ?_
    · exact decide_eq_false (not_not.2 rfl)
    · obtain ⟨u, hu, rfl⟩ := List.mem_map.1 hx
      exact decide_eq_true (hcomparable u (List.mem_append_left kept hu)).fileName_ne
  · refine hcharged.bundleSize.erase_eq_filter
      (MetaBundle.equivalent_of_id (r.chargedAs_id.trans hkept.symm))
      (Charged.ranked_chargedAs (hkept ▸ hcomparable)) ?_ fun x hx => ?_
    · exact decide_eq_false (not_not.2 r.chargedAs_id)
    · obtain ⟨u, hu, rfl⟩ := List.mem_map.1 hx
      refine decide_eq_true fun heq => (hcomparable u hu).fileName_ne (congrArg _ ?_)
      exact u.chargedAs_id.symm.trans heq
  · have hsize : s.sizeOf (.ofBundle c r.kept) = r.container.charged := hcharged.sizeOf_eq hkept
    change s.currentsize - s.sizeOf (.ofBundle c r.kept) + r.container.charged = s.currentsize
    rw [hsize, UInt64.sub_add_cancel]

/-- Of the entries that are no others, none is left. -/
theorem filter_filter_ne {α β : Type} [DecidableEq β] (f : α → β) (b : β) (l : List α) :
    (l.filter fun x => decide (f x ≠ b)).filter (fun x => decide (f x = b)) = [] ∧
      (l.filter fun x => decide (f x ≠ b)).filter (fun x => decide (f x ≠ b)) =
        l.filter fun x => decide (f x ≠ b) := by
  refine ⟨List.filter_eq_nil_iff.2 fun x hx hdec => ?_, List.filter_eq_self.2 fun x hx => ?_⟩
  · exact of_decide_eq_true (List.mem_filter.1 hx).2 (of_decide_eq_true hdec)
  · exact (List.mem_filter.1 hx).2

/-- **A failed store is taken back exactly if what it listed is not there any more**: in every run of
sound steps in which a bundle is stored and its file cannot be written, the callback leaves the
entries of the bundle as they were before it was stored, and those of all other bundles as they
are, just if the bundle list and the priority index have the entries for the bundle that they
had before. -/
theorem undone_iff {maxsize : UInt64} {before behind : List Action} {s₀ s : SimpleBundleStorage}
    {node : LocalNode} {c : Clock} {b : Bundle}
    (h₀ : Transition.Run (fun s a s' => s' = s.step a) Sound (create maxsize) before s₀)
    (hfits : s₀.exceeds c b = false) (hsound : s₀.Sound (.store node c b))
    (h : Transition.Run (fun s a s' => s' = s.step a) Sound (s₀.step (.store node c b)) behind s)
    {hash : Bytes} {container : Container}
    (hcurrent : s.datastore.current = some (.store hash container, .failed))
    (hid : container.bundle.toBundleID = b.toBundleID) (c' : Clock) (fresh : Bundle) :
    Undone s₀ s (s.callback c' fresh) b.toBundleID container.charged ↔
      SameListing s₀ s b.toBundleID := by
  obtain ⟨waiting₀, kept₀, hs₀⟩ := charged_run h₀
  obtain ⟨waiting, kept, hs⟩ := charged_run ((h₀.snoc hsound rfl).append h)
  obtain ⟨hpending₀, hstored₀, hsize₀⟩ :=
    hs₀.entries_eq_nil (hs₀.toCharged.comparable_of_bundleSize (hsound hfits).1)
  obtain ⟨⟨hlist, hindex, hstored, hnone⟩, hpending, hsize, hcurrentsize⟩ :=
    hs.callback_failed hcurrent c' fresh hid
  constructor
  · intro hundone
    have hown := hundone.own
    refine ⟨?_, ?_, ?_⟩
    · rw [← hown, entries, entries, entriesWith, entriesWith, hlist]
    · rw [← hown, entries, entries, entriesWith, entriesWith, hlist]
    · rw [← hown, entries, entries, entriesWith, entriesWith, hindex]
  · rintro ⟨hmetas, hexpiring, hpriority⟩
    refine ⟨?_, ?_, hcurrentsize⟩
    · rw [entries, entries, entriesWith, entriesWith, Entries.mk.injEq, hlist, hindex, hstored,
        hpending, hsize]
      refine ⟨hmetas, hexpiring, hpriority, ?_, hnone.trans hstored₀.symm, ?_⟩
      · exact (filter_filter_ne Prod.fst _ _).1.trans hpending₀.symm
      · exact (filter_filter_ne (fun x : MetaBundle × UInt64 => x.1.toBundleID) _ _).1.trans
          hsize₀.symm
    · rw [others, others, entriesWith, entriesWith, hlist, hindex, hstored, hpending, hsize,
        (filter_filter_ne Prod.fst _ _).2,
        (filter_filter_ne (fun x : MetaBundle × UInt64 => x.1.toBundleID) _ _).2]

/-- The steps in which the sample is stored and its file cannot be written, with other steps between
the two. -/
def failSample (between : List Action) : List Action := [.handOver 0] ++ between ++ [.work true]

/-- A storage in which the sample was just stored. -/
def sampleStored : SimpleBundleStorage :=
  (create 0).step (.store sampleNode (Clock.showing 100) (sampleBundle sampleEID))

/-- The storage of the sample is a sound step. -/
theorem sound_sample :
    (create 0).Sound (.store sampleNode (Clock.showing 100) (sampleBundle sampleEID)) := fun _ =>
  ⟨fun _ hx => absurd hx List.not_mem_nil, by decide +kernel, (Nat.zero_add _).trans_lt
    (UInt64.toNat_lt ((sampleBundle sampleEID).lengthAt (Clock.showing 100)))⟩

theorem undone_iff_sample :
    let s := (failSample [.removeById (sampleBundle sampleEID).toBundleID]).foldl step sampleStored
    Undone (create 0) s (s.callback (Clock.showing 100) (Bundle.create 0 0))
      (sampleBundle sampleEID).toBundleID
      ((sampleBundle sampleEID).lengthAt (Clock.showing 100)) := by
  intro s
  have hrun : Transition.Run (fun s a s' => s' = s.step a) Sound sampleStored
      (failSample [.removeById (sampleBundle sampleEID).toBundleID]) s :=
    ((Transition.Run.nil.snoc trivial rfl).snoc trivial rfl).snoc trivial rfl
  have hcurrent : s.datastore.current =
      some (.store (sampleBundle sampleEID).toBundleID.fileName
        ⟨sampleBundle sampleEID, (sampleBundle sampleEID).lengthAt (Clock.showing 100)⟩,
        .failed) := by decide +kernel
  refine (undone_iff Transition.Run.nil rfl sound_sample hrun hcurrent rfl _ _).2 ⟨?_, ?_, ?_⟩
  · decide +kernel
  · decide +kernel
  · decide +kernel

/-- **A bundle whose file could not be written stays listed**, and its entries are not what they were
before it was stored. -/
theorem not_undone_sample :
    let s := (failSample []).foldl step sampleStored
    Transition.Run (fun s a s' => s' = s.step a) Sound (create 0)
        (.store sampleNode (Clock.showing 100) (sampleBundle sampleEID) :: failSample []) s ∧
      ¬ Undone (create 0) s (s.callback (Clock.showing 100) (Bundle.create 0 0))
        (sampleBundle sampleEID).toBundleID
        ((sampleBundle sampleEID).lengthAt (Clock.showing 100)) := by
  intro s
  have hstored : Transition.Run (fun s a s' => s' = s.step a) Sound (create 0)
      [.store sampleNode (Clock.showing 100) (sampleBundle sampleEID)] sampleStored :=
    Transition.Run.nil.snoc sound_sample rfl
  have hfailed : Transition.Run (fun s a s' => s' = s.step a) Sound sampleStored (failSample []) s :=
    (Transition.Run.nil.snoc trivial rfl).snoc trivial rfl
  exact ⟨hstored.append hfailed, fun h => absurd h.own (by decide +kernel)⟩

end SimpleBundleStorage

end IbrDtn
