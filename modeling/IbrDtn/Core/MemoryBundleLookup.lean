import IbrDtn.Core.MemoryBundleStorage

/-!
# Lookup by identifiers in the storage in memory

`MemoryBundleStorage::store` asks the order of `PrimaryBlock` whether a bundle is new, while `get` and
`remove` compare identifiers with `BundleID::operator==`.  The order takes a fragment for the whole
bundle if its offset is not larger, and the equality takes all fragments for the whole bundle.
This file shows for which runs of the storage the identifiers of the stored bundles nevertheless
find exactly these bundles.

## Main definitions

* `BundleID.Separate` : identifiers that the order of the set of bundles tells apart.
* `MemoryBundleStorage.get` : a bundle is looked up.
* `MemoryBundleStorage.remember` : the identifiers of the bundles that were stored, and neither
  removed nor expired nor cleared.
* `MemoryBundleStorage.LooksUp` : the lookup of an identifier is exact.
* `MemoryBundleStorage.Told` : the calls that keep the lookup exact.

## Main results

* `MemoryBundleStorage.looksUp_run` : behind every run of such calls the lookup of all these
  identifiers is exact.
-/

namespace IbrDtn

open OrderedSet (Holds Ranked)

namespace BundleID

/-- The texts of the sources differ, or the sources are the same and the timestamps or the sequence
numbers differ, or the one with the larger offset is a fragment. -/
def Separate (a b : BundleID) : Prop :=
  a.source.getString = b.source.getString →
    a.source = b.source ∧ (a.timestamp = b.timestamp → a.sequencenumber = b.sequencenumber →
      b.fragment = true ∧ a.offset < b.offset ∨ a.fragment = true ∧ b.offset < a.offset)

instance (a b : BundleID) : Decidable (Separate a b) := inferInstanceAs (Decidable (_ → _))

variable {a b : BundleID}

theorem Separate.symm (h : Separate a b) : Separate b a := by
  intro hsource
  obtain ⟨hsource, hrest⟩ := h hsource.symm
  exact ⟨hsource.symm, fun htime hseq => (hrest htime.symm hseq.symm).symm⟩

theorem Separate.rank_ne (h : Separate a b) : a.rank ≠ b.rank := by
  rw [Ne, rank_eq_iff]
  rintro ⟨hsource, htime, hseq, hoffset⟩
  rcases (h hsource).2 htime hseq with ⟨-, hlt⟩ | ⟨-, hlt⟩
  · exact absurd (hoffset ▸ hlt) (UInt64.lt_irrefl _)
  · exact absurd (hoffset ▸ hlt) (UInt64.lt_irrefl _)

theorem Separate.ne (h : Separate a b) : a ≠ b := fun heq => h.rank_ne (congrArg rank heq)

/-- **The equality takes another bundle for this one only if that one comes behind it.** -/
theorem Separate.rank_lt_of_eq (h : Separate a b) (heq : a.eq b = true) : a.rank < b.rank := by
  obtain ⟨htime, hseq, hsource, hoffset⟩ := (eq_iff a b).1 heq
  have hstring : a.source.getString = b.source.getString := congrArg EID.getString hsource.symm
  rcases (h hstring).2 htime.symm hseq.symm with ⟨-, hlt⟩ | ⟨ha, hlt⟩
  · exact (rank_lt_iff a b).2 (.inr ⟨hstring, .inr ⟨htime.symm, .inr ⟨hseq.symm, hlt⟩⟩⟩)
  · exact absurd (hoffset ha ▸ hlt) (UInt64.lt_irrefl _)

/-- `BundleID::operator>` agrees with the order of the ranks. -/
theorem Separate.gt_iff (h : Separate a b) : b.gt a = true ↔ a.rank < b.rank := by
  rw [gt, Bool.not_eq_true', Bool.or_eq_false_iff]
  constructor
  · rintro ⟨hlt, heq⟩
    rcases lt_or_gt_of_ne h.rank_ne with hrank | hrank
    · exact hrank
    · have hiff : b.lt a = true ↔ b.rank < a.rank := by
        refine ltWith_iff_rank (fun hs => (h.symm hs).1) fun hsource htime hseq => ?_
        rcases (h.symm (congrArg EID.getString hsource)).2 htime hseq with ⟨ha, hlt'⟩ | ⟨hb, hlt'⟩
        · cases hb : b.fragment with
          | true => simp
          | false =>
              have hnot : b.eq a = true :=
                (eq_iff b a).2 ⟨htime.symm, hseq.symm, hsource.symm, fun hb' => by
                  rw [hb] at hb'
                  cases hb'⟩
              rw [heq] at hnot
              cases hnot
        · simp [hb]
      rw [hlt] at hiff
      exact absurd (hiff.2 hrank) Bool.false_ne_true
  · intro hrank
    refine ⟨Bool.eq_false_iff.2 fun hlt => lt_asymm hrank (rank_lt_of_lt hlt), ?_⟩
    exact Bool.eq_false_iff.2 fun heq => lt_asymm hrank (h.symm.rank_lt_of_eq heq)

end BundleID

/-- **The order of the set of bundles agrees with the ranks.** -/
theorem PrimaryBlock.ranked_of_separate {p q : PrimaryBlock}
    (h : p.toBundleID.Separate q.toBundleID) :
    Ranked PrimaryBlock.lt (fun p => p.toBundleID.rank) p q := by
  have hlt {p q : PrimaryBlock} (h : p.toBundleID.Separate q.toBundleID) :
      p.lt q = true ↔ p.toBundleID.rank < q.toBundleID.rank := by
    refine BundleID.ltWith_iff_rank (fun hs => (h hs).1) fun hsource htime hseq => ?_
    rcases (h (congrArg EID.getString hsource)).2 htime hseq with ⟨hq, hoffset⟩ | ⟨hp, hoffset⟩
    · have hq : q.get PrimaryBlock.fragment = true := hq
      have hoffset : p.fragmentoffset < q.fragmentoffset := hoffset
      simp [hq, hoffset, toBundleID]
    · have hoffset : q.fragmentoffset < p.fragmentoffset := hoffset
      have hnot : ¬ p.fragmentoffset < q.fragmentoffset := UInt64.lt_asymm hoffset
      simp [hnot, toBundleID]
  exact ⟨hlt h, hlt h.symm, h.rank_ne⟩

/-- **The order of the priority index agrees with the ranks.** -/
theorem MetaBundle.ranked_priority_of_separate {l r : MetaBundle}
    (h : l.toBundleID.Separate r.toBundleID) : Ranked priorityLt priorityRank l r := by
  have hlt {l r : MetaBundle} (h : l.toBundleID.Separate r.toBundleID) :
      l.priorityLt r = true ↔ l.priorityRank < r.priorityRank := by
    rw [priorityRank, priorityRank, Prod.Lex.toLex_lt_toLex, ← h.gt_iff, priorityLt, neg_lt_neg_iff,
      neg_inj]
    split_ifs with heq
    · simp [heq]
    · simp [heq]
  exact ⟨hlt h, hlt h.symm, fun heq => h.rank_ne (congrArg (fun r => (ofLex r).2) heq)⟩

namespace MemoryBundleStorage

/-- `MemoryBundleStorage::get`. -/
def get (s : MemoryBundleStorage) (i : BundleID) : Except BundleStorage.Exn Bundle :=
  match s.bundles.find? fun b => i.eq b.toBundleID with
  | some b => .ok b
  | none => .error .noBundleFound

/-- The entries of the expiry list that a tick at the given time reports as expired. -/
def due (s : MemoryBundleStorage) (timestamp : UInt64) : List ExpiringBundle :=
  s.list.expiring.takeWhile fun e => decide (e.expiretime < timestamp)

/-- **A tick reports the bundles whose time is over**, since the expiry list is in the order of the
times. -/
theorem Tracked.due_perm {s : MemoryBundleStorage} {l : List Record} (h : s.Tracked l)
    (timestamp : UInt64) : ((s.due timestamp).map fun e => e.bundle.toBundleID).Perm
      ((l.filter fun r => !r.lasts timestamp).map Record.id) := by
  have htake {es : List ExpiringBundle} (hes : es.Pairwise fun a b => a.rank < b.rank) :
      es.takeWhile (fun e => decide (e.expiretime < timestamp)) =
        es.filter fun e => decide (e.expiretime < timestamp) := by
    induction es with
    | nil => rfl
    | cons e es ih =>
        obtain ⟨hle, hes⟩ := List.pairwise_cons.1 hes
        by_cases he : e.expiretime < timestamp
        · rw [List.takeWhile_cons_of_pos (by simpa using he),
            List.filter_cons_of_pos (by simpa using he), ih hes]
        · rw [List.takeWhile_cons_of_neg (by simpa using he),
            List.filter_cons_of_neg (by simpa using he), eq_comm, List.filter_eq_nil_iff]
          intro e' he' hlt
          refine he (UInt64.lt_of_le_of_lt (ExpiringBundle.expiretime_le (hle e' he')) ?_)
          exact of_decide_eq_true hlt
  rw [due, htake h.list.expiring.sorted]
  refine ((h.list.expiring.perm.filter _).map _).trans (List.Perm.of_eq ?_)
  rw [List.map_map, List.filter_map, List.map_map]
  refine congrArg (List.map Record.id) (List.filter_congr fun r _ => ?_)
  rw [Record.lasts, ← decide_not]
  exact decide_eq_decide.2 UInt64.not_le.symm

/-- The identifiers of the bundles that were stored without an exception, and neither removed, nor
reported as expired, nor cleared, behind a call. -/
def remember (s : MemoryBundleStorage) (c : Clock) (call : Call) (l : List BundleID) :
    List BundleID :=
  match (s.step c call).1, call with
  | .error _, _ => l
  | .ok _, .store b => b.toBundleID :: l
  | .ok _, .removeById id => l.filter fun i => decide (i ≠ id)
  | .ok _, .removeByFilter contains _ =>
      let removed := s.bundles.find? fun b => contains b.toString
      l.filter fun i => decide (removed.map (fun b => b.toBundleID) ≠ some i)
  | .ok _, .expire timestamp =>
      if c.hasQuality then
        l.filter fun i => decide (i ∉ (s.due timestamp).map fun e => e.bundle.toBundleID)
      else l
  | .ok _, .clear => []

/-- **The lookup of an identifier is exact**: a bundle with this identifier is stored, and is in the
priority index; `get` returns it; and `remove` removes it and no other. -/
structure LooksUp (s : MemoryBundleStorage) (i : BundleID) : Prop where
  present : i ∈ s.bundles.map fun b => b.toBundleID
  indexed : i ∈ s.priorityIndex.map MetaBundle.toBundleID
  got : ∃ b, s.get i = .ok b ∧ b.toBundleID = i
  removed : ∀ c, (s.step c (.removeById i)).1 = .ok none ∧
    (s.step c (.removeById i)).2.bundles = s.bundles.filter fun b => decide (b.toBundleID ≠ i)

/-- **The calls that keep the lookup exact.** A bundle is stored only if every stored bundle has its
identifier or is told apart from it. An identifier that is equal to that of a stored bundle, for
`BundleID::operator==`, is removed only if it is that of a stored bundle; and so it is for the
identifiers that a tick reports, which are different ones. -/
def Told (s : MemoryBundleStorage) (c : Clock) : Call → Prop
  | .store b => s.exceeds c b = false →
      ∀ b' ∈ s.bundles, b'.toBundleID = b.toBundleID ∨ b'.toBundleID.Separate b.toBundleID
  | .removeById id =>
      (∃ b ∈ s.bundles, id.eq b.toBundleID = true) → ∃ b ∈ s.bundles, b.toBundleID = id
  | .expire timestamp => c.hasQuality = true →
      ((s.due timestamp).map fun e => e.bundle.toBundleID).Nodup ∧
        ∀ e ∈ s.due timestamp, (∃ b ∈ s.bundles, e.bundle.toBundleID.eq b.toBundleID = true) →
          ∃ b ∈ s.bundles, b.toBundleID = e.bundle.toBundleID
  | .removeByFilter _ _ | .clear => True

/-! ### The invariant -/

/-- The set of bundles and the priority index describe the given bundles, which are told apart. -/
structure Keeps (s : MemoryBundleStorage) (l : List Record) : Prop where
  separate : l.Pairwise fun r t => r.id.Separate t.id
  bundles : Holds Bundle.toPrimaryBlock (fun p => p.toBundleID.rank) s.bundles (l.map Record.bundle)
  priorityIndex : Holds id MetaBundle.priorityRank s.priorityIndex (l.map Record.metaBundle)

theorem keeps_nil {s : MemoryBundleStorage} (hbundles : s.bundles = [])
    (hindex : s.priorityIndex = []) : s.Keeps [] := by
  refine ⟨.nil, ?_, ?_⟩
  · rw [hbundles]
    exact OrderedSet.holds_nil
  · rw [hindex]
    exact OrderedSet.holds_nil

namespace Keeps

variable {s : MemoryBundleStorage} {l t : List Record} {r : Record} {c : Clock}

theorem of_perm (h : s.Keeps l) (hperm : l.Perm t) : s.Keeps t where
  separate := h.separate.perm hperm fun h => h.symm
  bundles := h.bundles.of_perm (hperm.map _)
  priorityIndex := h.priorityIndex.of_perm (hperm.map _)

/-- The description of a stored bundle. -/
theorem exists_perm (h : s.Keeps l) {b : Bundle} (hb : b ∈ s.bundles) :
    ∃ r t, r.bundle = b ∧ l.Perm (r :: t) := by
  obtain ⟨r, hr, rfl⟩ := List.mem_map.1 (h.bundles.perm.mem_iff.1 hb)
  obtain ⟨l₁, l₂, rfl⟩ := List.append_of_mem hr
  exact ⟨r, l₁ ++ l₂, rfl, List.perm_middle⟩

theorem separate_of_mem (h : s.Keeps (r :: t)) : ∀ u ∈ t, u.id.Separate r.id :=
  fun u hu => ((List.pairwise_cons.1 h.separate).1 u hu).symm

/-- **A stored bundle is the first one that its identifier finds.** -/
theorem find?_bundle (h : s.Keeps (r :: t)) :
    s.bundles.find? (fun b => r.id.eq b.toBundleID) = some r.bundle := by
  obtain ⟨l₁, l₂, hs⟩ := List.append_of_mem
    (h.bundles.perm.mem_iff.2 (List.mem_cons_self : r.bundle ∈ r.bundle :: t.map Record.bundle))
  have hsorted := h.bundles.sorted
  rw [hs] at hsorted
  refine List.find?_eq_some_iff_append.2 ⟨BundleID.eq_refl _, l₁, l₂, hs, fun b hb => ?_⟩
  have hperm : (l₁ ++ l₂).Perm (t.map Record.bundle) := by
    have hperm := h.bundles.perm
    rw [hs] at hperm
    exact (List.perm_middle.symm.trans hperm).cons_inv
  obtain ⟨u, hu, rfl⟩ := List.mem_map.1 (hperm.mem_iff.1 (List.mem_append_left l₂ hb))
  have hlt : u.id.rank < r.id.rank :=
    (List.pairwise_append.1 hsorted).2.2 u.bundle hb r.bundle List.mem_cons_self
  have hne : r.id.eq u.id = false := Bool.eq_false_iff.2 fun heq =>
    lt_asymm hlt ((h.separate_of_mem u hu).symm.rank_lt_of_eq heq)
  have hne : r.id.eq u.bundle.toBundleID = false := hne
  rw [hne]
  rfl

/-- **The first bundle that was found is removed** from the set of bundles and the index. -/
theorem erased (h : s.Keeps (r :: t)) {p : Bundle → Bool} (hfind : s.bundles.find? p = some r.bundle)
    {s' : MemoryBundleStorage} (hbundles : s'.bundles = s.bundles.eraseP p)
    (hindex : s'.priorityIndex =
      OrderedSet.erase id MetaBundle.priorityLt (.ofBundle c r.bundle) s.priorityIndex) :
    s'.Keeps t := by
  refine ⟨(List.pairwise_cons.1 h.separate).2, ?_, ?_⟩
  · rw [hbundles]
    exact h.bundles.eraseP hfind
  · rw [hindex]
    refine h.priorityIndex.erase (MetaBundle.equivalent_priority rfl rfl) fun m hm => ?_
    obtain ⟨u, hu, rfl⟩ := List.mem_map.1 hm
    exact MetaBundle.ranked_priority_of_separate (h.separate_of_mem u hu)

/-- What is left of the set of bundles. -/
theorem eraseP_eq_filter (h : s.Keeps (r :: t)) {p : Bundle → Bool}
    (hfind : s.bundles.find? p = some r.bundle) :
    s.bundles.eraseP p = s.bundles.filter fun b => decide (b.toBundleID ≠ r.id) := by
  obtain ⟨hp, l₁, l₂, hs, hl⟩ := List.find?_eq_some_iff_append.1 hfind
  have hperm : (l₁ ++ l₂).Perm (t.map Record.bundle) := by
    have hperm := h.bundles.perm
    rw [hs] at hperm
    exact (List.perm_middle.symm.trans hperm).cons_inv
  have hother : ∀ b ∈ l₁ ++ l₂, decide (b.toBundleID ≠ r.id) = true := fun b hb => by
    obtain ⟨u, hu, rfl⟩ := List.mem_map.1 (hperm.mem_iff.1 hb)
    exact decide_eq_true (h.separate_of_mem u hu).ne
  have hnot : ∀ b ∈ l₁, ¬ p b = true := fun b hb => by simpa using hl b hb
  rw [hs, List.eraseP_append_right _ hnot, List.eraseP_cons_of_pos hp, List.filter_append,
    List.filter_cons_of_neg (by simp [Record.id]), ← List.filter_append,
    List.filter_eq_self.2 hother]

/-- **The lookup of the identifier of a stored bundle is exact.** -/
theorem looksUp (h : s.Keeps l) {i : BundleID} (hi : i ∈ s.bundles.map fun b => b.toBundleID) :
    s.LooksUp i := by
  obtain ⟨b, hb, rfl⟩ := List.mem_map.1 hi
  obtain ⟨r, t, rfl, hperm⟩ := h.exists_perm hb
  have hr := h.of_perm hperm
  have hfind : s.bundles.find? (fun b => r.bundle.toBundleID.eq b.toBundleID) = some r.bundle :=
    hr.find?_bundle
  refine ⟨hi, ?_, ⟨r.bundle, ?_, rfl⟩, fun c => ?_⟩
  · exact List.mem_map.2 ⟨r.metaBundle, hr.priorityIndex.perm.mem_iff.2 List.mem_cons_self, rfl⟩
  · rw [get, hfind]
  · rw [step]
    simp only [hfind]
    exact ⟨trivial, hr.eraseP_eq_filter hfind⟩

/-- A bundle that has the identifier of a stored one is not inserted. -/
theorem bundles_insert_of_mem (h : s.Keeps l) {b : Bundle}
    (hb : ∃ b' ∈ s.bundles, b'.toBundleID = b.toBundleID) :
    (s.insert c b).bundles = s.bundles ∧ (s.insert c b).priorityIndex = s.priorityIndex := by
  obtain ⟨b', hb', hid⟩ := hb
  obtain ⟨r, t, rfl, hperm⟩ := h.exists_perm hb'
  have hr := h.of_perm hperm
  have hself (p q : PrimaryBlock) (heq : p.toBundleID = q.toBundleID) : p.lt q = false := by
    have hoffset : p.fragmentoffset = q.fragmentoffset := congrArg BundleID.offset heq
    rw [PrimaryBlock.lt, heq, hoffset]
    simp [BundleID.ltWith, BundleID.eid_lt_irrefl]
  have hequivalent : OrderedSet.Equivalent PrimaryBlock.lt (fun p => p.toBundleID.rank)
      r.bundle.toPrimaryBlock b.toPrimaryBlock :=
    ⟨hself _ _ hid, hself _ _ hid.symm, congrArg BundleID.rank hid⟩
  have hfind := hr.bundles.find?_eq_some hequivalent fun b' hb' => by
    obtain ⟨u, hu, rfl⟩ := List.mem_map.1 hb'
    refine PrimaryBlock.ranked_of_separate ?_
    rw [← hid]
    exact hr.separate_of_mem u hu
  rw [MemoryBundleStorage.insert]
  simp only [hfind]
  exact ⟨trivial, trivial⟩

/-- **A bundle that is told apart from the stored ones is inserted.** -/
theorem insert (h : s.Keeps l) {b : Bundle}
    (hb : ∀ b' ∈ s.bundles, b'.toBundleID.Separate b.toBundleID) :
    (s.insert c b).Keeps (⟨b, c⟩ :: l) := by
  have hseparate : ∀ u ∈ l, u.id.Separate b.toBundleID := fun u hu =>
    hb u.bundle (h.bundles.perm.mem_iff.2 (List.mem_map_of_mem hu))
  have hranked : ∀ b' ∈ l.map Record.bundle, Ranked PrimaryBlock.lt
      (fun p => p.toBundleID.rank) b'.toPrimaryBlock b.toPrimaryBlock := by
    intro b' hb'
    obtain ⟨u, hu, rfl⟩ := List.mem_map.1 hb'
    exact PrimaryBlock.ranked_of_separate (hseparate u hu)
  have hnew := h.bundles.find?_eq_none hranked
  rw [MemoryBundleStorage.insert]
  simp only [hnew]
  refine ⟨?_, h.bundles.insert hranked, ?_⟩
  · exact List.pairwise_cons.2 ⟨fun u hu => (hseparate u hu).symm, h.separate⟩
  · refine h.priorityIndex.insert fun m hm => ?_
    obtain ⟨u, hu, rfl⟩ := List.mem_map.1 hm
    exact MetaBundle.ranked_priority_of_separate (hseparate u hu)

/-- **The expiry loop removes only bundles that it reports.** -/
theorem expireLoop (h : s.Keeps l) {es : List ExpiringBundle} {timestamp : UInt64}
    {due : List ExpiringBundle} (hes : due = es.takeWhile fun e => decide (e.expiretime < timestamp))
    (hnodup : (due.map fun e => e.bundle.toBundleID).Nodup)
    (hstored : ∀ e ∈ due, (∃ b ∈ s.bundles, e.bundle.toBundleID.eq b.toBundleID = true) →
      ∃ b ∈ s.bundles, b.toBundleID = e.bundle.toBundleID) (list : BundleList) :
    (∃ l', (BundleList.expireLoop timestamp (expiryEvent c) es list s).2.Keeps l') ∧
      ∀ b ∈ s.bundles, b.toBundleID ∉ (due.map fun e => e.bundle.toBundleID) →
        b ∈ (BundleList.expireLoop timestamp (expiryEvent c) es list s).2.bundles := by
  induction es generalizing s l due list with
  | nil => exact ⟨⟨l, h⟩, fun b hb _ => hb⟩
  | cons e es ih =>
      by_cases htime : e.expiretime < timestamp
      · simp only [List.takeWhile_cons, htime, decide_true, if_true] at hes
        subst hes
        rw [BundleList.expireLoop, if_neg (UInt64.not_le.2 htime)]
        rw [List.map_cons, List.nodup_cons] at hnodup
        rw [List.forall_mem_cons] at hstored
        cases hfind : s.bundles.find? fun b => e.bundle.toBundleID.eq b.toBundleID with
        | none =>
            have hevent : expiryEvent c list e s = s := by
              rw [expiryEvent, eventBundleExpired]
              simp only [hfind]
            rw [hevent]
            obtain ⟨hkeeps, hrest⟩ := ih h rfl hnodup.2 hstored.2 _
            refine ⟨hkeeps, fun b hb hnot => hrest b hb fun hmem => hnot ?_⟩
            exact List.mem_cons_of_mem _ hmem
        | some b =>
            obtain ⟨b', hb', hid⟩ := hstored.1 ⟨b, List.mem_of_find?_eq_some hfind,
              List.find?_some (p := fun b : Bundle => e.bundle.toBundleID.eq b.toBundleID) hfind⟩
            obtain ⟨r, t, rfl, hperm⟩ := h.exists_perm hb'
            have hr := h.of_perm hperm
            have hid : r.id = e.bundle.toBundleID := hid
            have hfind := hr.find?_bundle
            have hevent : expiryEvent c list e s =
                s.discard c (fun b => r.id.eq b.toBundleID) r.bundle := by
              rw [expiryEvent, eventBundleExpired, ← hid]
              simp only [hfind]
            have hbundles := hr.eraseP_eq_filter hfind
            have hleft : ∀ b ∈ s.bundles, b.toBundleID ≠ r.id →
                b ∈ (s.discard c (fun b => r.id.eq b.toBundleID) r.bundle).bundles := by
              intro b hb hne
              change b ∈ s.bundles.eraseP _
              rw [hbundles]
              exact List.mem_filter.2 ⟨hb, decide_eq_true hne⟩
            have hdiscard : (s.discard c (fun b => r.id.eq b.toBundleID) r.bundle).Keeps t :=
              hr.erased hfind rfl rfl
            rw [hevent]
            obtain ⟨hkeeps, hrest⟩ := ih hdiscard rfl hnodup.2 (fun e' he' hex => by
              obtain ⟨b, hb, heq⟩ := hex
              have hb : b ∈ s.bundles.eraseP fun b => r.id.eq b.toBundleID := hb
              obtain ⟨b, hb, hbid⟩ := hstored.2 e' he' ⟨b, List.mem_of_mem_eraseP hb, heq⟩
              refine ⟨b, hleft b hb fun hr => hnodup.1 ?_, hbid⟩
              rw [← hid, ← hr, hbid]
              exact List.mem_map.2 ⟨e', he', rfl⟩) _
            refine ⟨hkeeps, fun b hb hnot => hrest b (hleft b hb fun hbid => hnot ?_) fun hmem =>
              hnot (List.mem_cons_of_mem _ hmem)⟩
            rw [hbid, hid]
            exact List.mem_cons_self
      · rw [BundleList.expireLoop, if_pos (UInt64.not_lt.1 htime)]
        exact ⟨⟨l, h⟩, fun b hb _ => hb⟩

end Keeps

/-- **A call that meets the condition keeps the identifiers that are remembered in the storage.** -/
theorem keeps_step {s : MemoryBundleStorage} {l : List Record} (h : s.Keeps l) {ids : List BundleID}
    (hids : ∀ i ∈ ids, i ∈ s.bundles.map fun b => b.toBundleID) {c : Clock} {call : Call}
    (htold : s.Told c call) :
    (∃ l', (s.step c call).2.Keeps l') ∧
      ∀ i ∈ s.remember c call ids, i ∈ (s.step c call).2.bundles.map fun b => b.toBundleID := by
  cases call with
  | store b =>
      cases hexceeds : s.exceeds c b with
      | true =>
          simp only [remember, step, hexceeds, if_true]
          exact ⟨⟨l, h⟩, hids⟩
      | false =>
          simp only [remember, step, hexceeds, Bool.false_eq_true, if_false]
          by_cases hmem : ∃ b' ∈ s.bundles, b'.toBundleID = b.toBundleID
          · obtain ⟨hbundles, hindex⟩ := h.bundles_insert_of_mem (c := c) hmem
            refine ⟨⟨l, h.separate, hbundles ▸ h.bundles, hindex ▸ h.priorityIndex⟩, ?_⟩
            rw [hbundles]
            obtain ⟨b', hb', hid⟩ := hmem
            exact List.forall_mem_cons.2 ⟨List.mem_map.2 ⟨b', hb', hid⟩, hids⟩
          · have hnew := h.insert (c := c) fun b' hb' =>
              (htold hexceeds b' hb').resolve_left fun heq => hmem ⟨b', hb', heq⟩
            have hmembers (b' : Bundle) : b' ∈ (s.insert c b).bundles ↔ b' = b ∨ b' ∈ s.bundles := by
              rw [hnew.bundles.perm.mem_iff, List.map_cons, List.mem_cons, ← h.bundles.perm.mem_iff]
            refine ⟨⟨_, hnew⟩, List.forall_mem_cons.2 ⟨?_, fun i hi => ?_⟩⟩
            · exact List.mem_map.2 ⟨b, (hmembers b).2 (.inl rfl), rfl⟩
            · obtain ⟨b', hb', rfl⟩ := List.mem_map.1 (hids i hi)
              exact List.mem_map.2 ⟨b', (hmembers b').2 (.inr hb'), rfl⟩
  | removeById id =>
      simp only [remember, step]
      cases hfind : s.bundles.find? fun b => id.eq b.toBundleID with
      | none => exact ⟨⟨l, h⟩, hids⟩
      | some b =>
          dsimp only
          obtain ⟨b', hb', hid⟩ := htold ⟨b, List.mem_of_find?_eq_some hfind,
            List.find?_some (p := fun b : Bundle => id.eq b.toBundleID) hfind⟩
          obtain ⟨r, t, rfl, hperm⟩ := h.exists_perm hb'
          obtain rfl : r.id = id := hid
          have hr := h.of_perm hperm
          obtain rfl := Option.some.inj (hr.find?_bundle.symm.trans hfind)
          refine ⟨⟨t, hr.erased hfind rfl rfl⟩, fun i hi => ?_⟩
          obtain ⟨hi, hne⟩ := List.mem_filter.1 hi
          obtain ⟨b, hb, rfl⟩ := List.mem_map.1 (hids i hi)
          change b.toBundleID ∈ (s.bundles.eraseP _).map _
          rw [hr.eraseP_eq_filter hfind]
          exact List.mem_map.2 ⟨b, List.mem_filter.2 ⟨hb, hne⟩, rfl⟩
  | removeByFilter contains freed =>
      simp only [remember, step]
      cases hfind : s.bundles.find? fun b => contains b.toString with
      | none => exact ⟨⟨l, h⟩, hids⟩
      | some b =>
          obtain ⟨r, t, rfl, hperm⟩ := h.exists_perm (List.mem_of_find?_eq_some hfind)
          have hr := h.of_perm hperm
          refine ⟨⟨t, hr.erased hfind rfl rfl⟩, fun i hi => ?_⟩
          obtain ⟨hi, hne⟩ := List.mem_filter.1 hi
          rw [hfind] at hne
          obtain ⟨b, hb, rfl⟩ := List.mem_map.1 (hids i hi)
          change b.toBundleID ∈ (s.bundles.eraseP _).map _
          rw [hr.eraseP_eq_filter hfind]
          have hne : r.id ≠ b.toBundleID := fun heq => of_decide_eq_true hne (congrArg some heq)
          exact List.mem_map.2 ⟨b, List.mem_filter.2 ⟨hb, decide_eq_true hne.symm⟩, rfl⟩
  | expire timestamp =>
      simp only [remember, step, BundleList.expire]
      cases hquality : c.hasQuality with
      | false => exact ⟨⟨l, h⟩, hids⟩
      | true =>
          simp only [if_true]
          obtain ⟨hnodup, hstored⟩ := htold hquality
          obtain ⟨⟨l', hkeeps⟩, hrest⟩ := h.expireLoop (c := c) rfl hnodup hstored s.list
          refine ⟨⟨l', hkeeps.separate, hkeeps.bundles, hkeeps.priorityIndex⟩, fun i hi => ?_⟩
          obtain ⟨hi, hnot⟩ := List.mem_filter.1 hi
          obtain ⟨b, hb, rfl⟩ := List.mem_map.1 (hids i hi)
          exact List.mem_map.2 ⟨b, hrest b hb (of_decide_eq_true hnot), rfl⟩
  | clear => exact ⟨⟨[], keeps_nil rfl rfl⟩, fun i hi => absurd hi List.not_mem_nil⟩

/-- A step of the storage, beside the identifiers that are remembered. -/
def RememberStep (s : MemoryBundleStorage × List BundleID) (i : Clock × Call)
    (s' : MemoryBundleStorage × List BundleID) : Prop :=
  s' = ((s.1.step i.1 i.2).2, s.1.remember i.1 i.2 s.2)

/-- **Behind every run of calls that meet the condition the lookup is exact** for every bundle that
was stored without an exception, and neither removed nor expired nor cleared. -/
theorem looksUp_run {maxsize : UInt64} {calls : List (Clock × Call)} {s : MemoryBundleStorage}
    {ids : List BundleID} (h : Transition.Run RememberStep (fun s i => s.1.Told i.1 i.2)
      (create maxsize, []) calls (s, ids)) : ∀ i ∈ ids, s.LooksUp i := by
  have hinv : (∃ l, s.Keeps l) ∧ ∀ i ∈ ids, i ∈ s.bundles.map fun b => b.toBundleID :=
    h.invariant (I := fun p => (∃ l, p.1.Keeps l) ∧
      ∀ i ∈ p.2, i ∈ p.1.bundles.map fun b => b.toBundleID)
      ⟨⟨[], keeps_nil rfl rfl⟩, fun i hi => absurd hi List.not_mem_nil⟩
      fun p i p' hp htold hstep => by
        obtain ⟨⟨l, hl⟩, hids⟩ := hp
        rw [show p' = _ from hstep]
        exact keeps_step hl hids htold
  obtain ⟨⟨l, hl⟩, hids⟩ := hinv
  exact fun i hi => hl.looksUp (hids i hi)

/-- A fragment of the bundle, at its beginning. -/
def sampleFragment : Bundle :=
  { sampleBundle with procflags := PrimaryBlock.fragment, appdatalength := 4 }

/-- The calls of a run, all at one moment. -/
def sampleRun (calls : List Call) : MemoryBundleStorage × List BundleID :=
  calls.foldl (fun s call => ((s.1.step (Clock.showing 100) call).2,
    s.1.remember (Clock.showing 100) call s.2)) (create 0, [])

theorem looksUp_run_sample : (sampleRun [.store sampleBundle]).1.LooksUp sampleBundle.toBundleID := by
  have hrun : Transition.Run RememberStep (fun s i => s.1.Told i.1 i.2) (create 0, [])
      [(Clock.showing 100, .store sampleBundle)] (sampleRun [.store sampleBundle]) :=
    Transition.Run.nil.snoc (fun _ b hb => absurd hb List.not_mem_nil) rfl
  exact looksUp_run hrun _ List.mem_cons_self

/-- The whole bundle is taken for the fragment at its beginning when it is stored, and a fragment for
the whole bundle when that is removed. -/
theorem not_looksUp_after :
    ∃ calls s ids, Transition.Run RememberStep (fun _ _ => True) (create 0, []) calls (s, ids) ∧
      ∃ i ∈ ids, ¬ s.LooksUp i := by
  refine ⟨_, _, _, (Transition.Run.nil.snoc (i := (Clock.showing 100, .store sampleFragment))
    trivial rfl).snoc (i := (Clock.showing 100, .store sampleBundle)) trivial rfl,
    sampleBundle.toBundleID, List.mem_cons_self, fun h => ?_⟩
  exact absurd h.present (by decide +kernel)

end MemoryBundleStorage

end IbrDtn
