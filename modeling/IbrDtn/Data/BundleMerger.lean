import IbrDtn.Library.Medium
import IbrDtn.Data.BlockReplacement

/-!
# Merging fragments

This file models `ibrdtn/data/BundleMerger.cpp`.  A container puts the payloads of fragments into a
BLOB, each at its offset.  The loop that copies a payload looks for the end of the stream behind a
character that it has read, and so puts one more character than there are: that one was not read,
and is whatever stood in `buf`.

The BLOBs belong to the library `ibrcommon`, which is not part of the repository: what a BLOB keeps
when a character is put at a position is the parameter `Medium`.

## Main definitions

* `BundleMerger.Container` : the container, with its constructor and `operator<<`.
* `BundleMerger.Container.Fragment` : the fragments of a payload.
* `BundleMerger.Container.Reassembles` : they give the payload, and foreign ones are refused.

## Main results

* `BundleMerger.Container.getElem?_feedAll` : which characters of the payload are right.
* `BundleMerger.Container.length_feedAll` : there is one more of them than of the payload's.
* `BundleMerger.Container.reassembles_iff` : the payload comes back only if nothing is fed.
-/

namespace IbrDtn

namespace BundleMerger

/-- `class BundleMerger::Container`: the primary block of `_bundle`, whose only block refers to
`_blob`, and the content of `_blob`. -/
structure Container where
  primary : PrimaryBlock
  blob : Bytes
deriving DecidableEq

namespace Container

/-- `BundleMerger::Container::Container`. -/
def create (b : Bundle) (ref : Bytes) : Except Exn Container :=
  if !b.get PrimaryBlock.fragment then .error (.exception "This bundle is not a fragment!")
  else .ok ⟨b.set PrimaryBlock.fragment false, ref⟩

/-- `BundleMerger::Container::getBundle`. -/
def getBundle (c : Container) : Bundle :=
  Bundle.pushBack { c.primary with blocks := [] } { Block.newPayload with body := .payload c.blob }

/-- The characters that the loop of `operator<<` puts: those that `get` reads, and `buf` as it is
behind the first `get` that fails, since only that one sets the flag that the loop looks at. -/
def copied (buf : UInt8) : Bytes → Bytes
  | [] => [buf]
  | x :: xs => x :: copied buf xs

/-- The fragment belongs to another bundle. -/
def Foreign (c : Container) (obj : Bundle) : Prop :=
  c.primary.timestamp ≠ obj.timestamp ∨ c.primary.sequencenumber ≠ obj.sequencenumber ∨
    c.primary.source ≠ obj.source

instance (c : Container) (obj : Bundle) : Decidable (c.Foreign obj) :=
  inferInstanceAs (Decidable (_ ∨ _ ∨ _))

/-- `operator<<`. The variable `buf` is not initialized. -/
def feed (m : Medium UInt8) (c : Container) (obj : Bundle) (buf : UInt8) :
    Except Exn Unit × Container :=
  if c.Foreign obj then
    (.error (.exception "This fragment does not belongs to the others."), c)
  else
    match obj.getPayload with
    | none => (.error (.exception "No block found with this Block ID."), c)
    | some blob =>
        (.ok (), { c with blob := m.putAll c.blob obj.fragmentoffset.toNat (copied buf blob) })

/-- Fragments are fed one after the other, up to the first exception. -/
def feedAll (m : Medium UInt8) (c : Container) : List (Bundle × UInt8) → Except Exn Unit × Container
  | [] => (.ok (), c)
  | x :: xs =>
      match c.feed m x.1 x.2 with
      | (.ok (), c) => feedAll m c xs
      | (.error e, c) => (.error e, c)

/-! ### Fragments -/

/-- The bundle is a fragment of the payload: its characters are those of the payload at its
offset. -/
structure Fragment (c : Container) (payload : Bytes) (obj : Bundle) (data : Bytes) : Prop where
  belongs : ¬ c.Foreign obj
  getPayload : obj.getPayload = some data
  le : obj.fragmentoffset.toNat + data.length ≤ payload.length
  eq : data = (payload.drop obj.fragmentoffset.toNat).take data.length

/-- The bundle has the character at the position. -/
def Covers (obj : Bundle) (i : ℕ) : Prop :=
  ∃ data ∈ obj.getPayload,
    obj.fragmentoffset.toNat ≤ i ∧ i < obj.fragmentoffset.toNat + data.length

/-- The bundle ends in front of the position. -/
def EndsAt (obj : Bundle) (i : ℕ) : Prop :=
  ∃ data ∈ obj.getPayload, obj.fragmentoffset.toNat + data.length = i

/-- **The fragments give the payload, and a fragment of another bundle is refused** and leaves the
container as it is. -/
structure Reassembles (m : Medium UInt8) (c : Container) (payload : Bytes)
    (fs : List (Bundle × UInt8)) : Prop where
  ok : (c.feedAll m fs).1 = .ok ()
  whole : (c.feedAll m fs).2.getBundle.getPayload = some payload
  refuses : ∀ obj buf, (c.feedAll m fs).2.Foreign obj →
    ∃ e, (c.feedAll m fs).2.feed m obj buf = (.error e, (c.feedAll m fs).2)

variable {m : Medium UInt8} {c : Container} {payload data : Bytes} {obj : Bundle}
  {fs : List (Bundle × UInt8)}

@[simp] theorem getPayload_getBundle (c : Container) : c.getBundle.getPayload = some c.blob := rfl

@[simp] theorem length_copied (buf : UInt8) (xs : Bytes) :
    (copied buf xs).length = xs.length + 1 := by
  induction xs with
  | nil => rfl
  | cons x xs ih => rw [copied, List.length_cons, ih, List.length_cons]

theorem getElem?_copied (buf : UInt8) {xs : Bytes} {k : ℕ} (hk : k < xs.length) :
    (copied buf xs)[k]? = xs[k]? := by
  induction xs generalizing k with
  | nil => exact absurd hk (Nat.not_lt_zero k)
  | cons x xs ih =>
      cases k with
      | zero => rfl
      | succ k => exact ih (Nat.lt_of_succ_lt_succ hk)

theorem copied_ne_nil (buf : UInt8) (xs : Bytes) : copied buf xs ≠ [] :=
  List.ne_nil_of_length_pos (by rw [length_copied]; exact Nat.succ_pos _)

/-- A character of a fragment is the payload's. -/
theorem Fragment.getElem? (h : c.Fragment payload obj data) {k : ℕ} (hk : k < data.length) :
    data[k]? = payload[obj.fragmentoffset.toNat + k]? := by
  rw [h.eq, List.getElem?_take_of_lt hk, List.getElem?_drop]

/-- What feeding a fragment does. -/
theorem Fragment.feed (h : c.Fragment payload obj data) (buf : UInt8) : c.feed m obj buf =
    (.ok (), { c with blob := m.putAll c.blob obj.fragmentoffset.toNat (copied buf data) }) := by
  rw [Container.feed, if_neg h.belongs, h.getPayload]

theorem refuses (m : Medium UInt8) (h : c.Foreign obj) (buf : UInt8) :
    ∃ e, c.feed m obj buf = (.error e, c) := by
  rw [Container.feed, if_pos h]
  exact ⟨_, rfl⟩

/-! ### What a container has -/

/-- The container behind fragments: it is as long as the furthest of them and one more, and the
characters in front of which no fragment ends are the payload's. -/
structure Merged (c : Container) (payload : Bytes) (fs : List (Bundle × UInt8)) : Prop where
  le : c.blob.length ≤ payload.length + 1
  lt : ∀ x ∈ fs, ∀ data ∈ x.1.getPayload, x.1.fragmentoffset.toNat + data.length < c.blob.length
  eq : ∀ i, (∃ x ∈ fs, Covers x.1 i) → (∀ x ∈ fs, ¬ EndsAt x.1 i) → c.blob[i]? = payload[i]?

theorem merged_nil (primary : PrimaryBlock) (payload : Bytes) :
    Merged ⟨primary, []⟩ payload [] := by
  refine ⟨Nat.zero_le _, fun _ hx => absurd hx List.not_mem_nil, fun i hi => ?_⟩
  obtain ⟨x, hx, -⟩ := hi
  exact absurd hx List.not_mem_nil

/-- **A fragment is merged**, whatever was merged before. -/
theorem Merged.feed (hm : m.Lawful) (h : c.Merged payload fs) (hobj : c.Fragment payload obj data)
    (buf : UInt8) : Merged
      { c with blob := m.putAll c.blob obj.fragmentoffset.toNat (copied buf data) } payload
      (fs ++ [(obj, buf)]) := by
  have hlen := hm.length_putAll c.blob obj.fragmentoffset.toNat (copied_ne_nil buf data)
  rw [length_copied] at hlen
  have hle := h.le
  have hobj' := hobj.le
  refine ⟨?_, fun x hx data' hdata' => ?_, fun i hi hends => ?_⟩
  · dsimp only
    omega
  · dsimp only
    rcases List.mem_append.1 hx with hx | hx
    · have hlt := h.lt x hx data' hdata'
      omega
    · obtain rfl := List.mem_singleton.1 hx
      obtain rfl := Option.some.inj (hobj.getPayload.symm.trans hdata')
      dsimp only
      omega
  · dsimp only
    have hlast : obj.fragmentoffset.toNat + data.length ≠ i := fun heq =>
      hends (obj, buf) (by simp) ⟨data, hobj.getPayload, heq⟩
    by_cases hin : obj.fragmentoffset.toNat ≤ i ∧ i < obj.fragmentoffset.toNat + data.length
    · -- The fragment has the character, and puts it.
      obtain ⟨k, rfl⟩ := Nat.exists_eq_add_of_le hin.1
      have hk : k < data.length := by omega
      rw [hm.getElem?_putAll_of_lt c.blob _ (by rw [length_copied]; omega), getElem?_copied buf hk,
        hobj.getElem? hk]
    · -- The fragment does not reach the character, which was there before.
      obtain ⟨x, hx, data', hdata', hle', hlt'⟩ := hi
      have hx' : x ∈ fs := by
        refine (List.mem_append.1 hx).resolve_right fun hx => hin ?_
        obtain rfl := List.mem_singleton.1 hx
        obtain rfl := Option.some.inj (hobj.getPayload.symm.trans hdata')
        exact ⟨hle', hlt'⟩
      have hc : i < c.blob.length := lt_trans hlt' (h.lt x hx' data' hdata')
      rw [hm.getElem?_putAll_of_not_mem _ _ (by rw [length_copied]; omega) hc]
      exact h.eq i ⟨x, hx', data', hdata', hle', hlt'⟩ fun y hy =>
        hends y (List.mem_append_left _ hy)

/-- **Fragments are merged in any order.** -/
theorem Merged.feedAll (hm : m.Lawful) {fed : List (Bundle × UInt8)} (h : c.Merged payload fed)
    (hfs : ∀ x ∈ fs, ∃ data, c.Fragment payload x.1 data) :
    ∃ blob, c.feedAll m fs = (.ok (), { c with blob }) ∧
      Merged { c with blob } payload (fed ++ fs) := by
  induction fs generalizing c fed with
  | nil => exact ⟨c.blob, rfl, by rwa [List.append_nil]⟩
  | cons x xs ih =>
      obtain ⟨data, hx⟩ := hfs x List.mem_cons_self
      obtain ⟨blob, hfeed, hmerged⟩ := ih (h.feed hm hx x.2) fun y hy => by
        obtain ⟨data', hy'⟩ := hfs y (List.mem_cons_of_mem x hy)
        exact ⟨data', hy'.belongs, hy'.getPayload, hy'.le, hy'.eq⟩
      refine ⟨blob, ?_, by rwa [List.append_assoc] at hmerged⟩
      rw [Container.feedAll, hx.feed]
      exact hfeed

section Law

variable {b : Bundle} (hm : m.Lawful) (hc : create b [] = .ok c)
  (hfs : ∀ x ∈ fs, ∃ data, c.Fragment payload x.1 data)

include hm hc hfs

theorem exists_merged : ∃ blob, c.feedAll m fs = (.ok (), { c with blob }) ∧
    Merged { c with blob } payload fs := by
  rw [create] at hc
  split_ifs at hc
  obtain rfl := Except.ok.inj hc
  exact (merged_nil _ payload).feedAll hm hfs

variable (hcover : ∀ i < payload.length, ∃ x ∈ fs, Covers x.1 i)

include hcover

/-- **The result is longer than the payload by one character.** -/
theorem length_feedAll (hne : fs ≠ []) : (c.feedAll m fs).2.blob.length = payload.length + 1 := by
  obtain ⟨blob, heq, h⟩ := exists_merged hm hc hfs
  rw [heq]
  refine le_antisymm h.le ?_
  rcases Nat.eq_zero_or_pos payload.length with hzero | hpos
  · obtain ⟨x, hx⟩ := List.exists_mem_of_ne_nil fs hne
    obtain ⟨data, hdata⟩ := hfs x hx
    have hlt := Nat.lt_of_le_of_lt (Nat.zero_le _) (h.lt x hx data hdata.getPayload)
    rw [hzero]
    exact hlt
  · obtain ⟨x, hx, data, hdata, -, hlt⟩ := hcover (payload.length - 1) (by omega)
    have hlt' : _ < blob.length := h.lt x hx data hdata
    change payload.length + 1 ≤ blob.length
    omega

/-- **The fragments of a payload give the payload only if there are none of them.** -/
theorem reassembles_iff : c.Reassembles m payload fs ↔ fs = [] := by
  constructor
  · intro h
    by_contra hne
    have hlen := length_feedAll hm hc hfs hcover hne
    have hwhole := h.whole
    rw [getPayload_getBundle] at hwhole
    rw [Option.some.inj hwhole] at hlen
    omega
  · rintro rfl
    have hnil : payload = [] := by
      by_contra hne
      obtain ⟨x, hx, -⟩ := hcover 0 (List.length_pos_of_ne_nil hne)
      exact List.not_mem_nil hx
    rw [create] at hc
    split_ifs at hc
    obtain rfl := Except.ok.inj hc
    exact ⟨rfl, hnil ▸ rfl, fun obj buf hforeign => refuses m hforeign buf⟩

end Law

/-- A fragment of a bundle of `dtn:none`. -/
def fragmentAt (fragmentoffset : UInt64) (data : Bytes) : Bundle :=
  { PrimaryBlock.create 1 0 with
    procflags := PrimaryBlock.fragment
    fragmentoffset := fragmentoffset
    blocks := [{ Block.newPayload with procflags := Block.lastBlock, body := .payload data }] }

theorem reassembles_iff_sample : ∃ c, create (fragmentAt 0 [1, 2]) [] = .ok c ∧
    ¬ c.Reassembles (.filled 0) [1, 2] [(fragmentAt 0 [1, 2], 2)] := by
  refine ⟨_, rfl, fun h => ?_⟩
  have hfragment : ∀ x ∈ [(fragmentAt 0 [1, 2], (2 : UInt8))], ∃ data,
      Fragment ⟨(fragmentAt 0 [1, 2]).set PrimaryBlock.fragment false, []⟩ [1, 2] x.1 data := by
    intro x hx
    obtain rfl := List.mem_singleton.1 hx
    exact ⟨[1, 2], by decide, rfl, le_rfl, rfl⟩
  have hcover : ∀ i < ([1, 2] : Bytes).length, ∃ x ∈ [(fragmentAt 0 [1, 2], (2 : UInt8))],
      Covers x.1 i :=
    fun i hi => ⟨_, List.mem_cons_self, [1, 2], rfl, Nat.zero_le i, Nat.lt_add_left 0 hi⟩
  have hnil := (reassembles_iff (b := fragmentAt 0 [1, 2]) (Medium.lawful_filled 0) rfl hfragment
    hcover).1 h
  cases hnil

/-- **A fragment with all characters gives one more, and one that ends where another begins changes
its first character**, if it is fed behind it. -/
theorem not_reassembles_sample :
    (∃ c, create (fragmentAt 0 [1, 2]) [] = .ok c ∧
      ¬ c.Reassembles (.filled 0) [1, 2] [(fragmentAt 0 [1, 2], 2)]) ∧
    ∃ c, create (fragmentAt 0 [1, 2]) [] = .ok c ∧
      (c.feedAll (.filled 0) [(fragmentAt 2 [3, 4], 4), (fragmentAt 0 [1, 2], 2)]).2.blob =
        [1, 2, 2, 4, 4] := by
  refine ⟨⟨_, rfl, fun h => ?_⟩, _, rfl, rfl⟩
  exact absurd h.whole (by decide)

end Container

end BundleMerger

end IbrDtn
