import IbrDtn.Library.Transition
import IbrDtn.Security.PayloadIntegrityBlock

/-!
# Signatures on the way

A signed bundle travels: nodes put blocks in front of it and behind it, remove and replace blocks,
let others sign, and send the bundle to each other.  A signature also covers the integrity blocks
behind it.  So removing one of them, which is what the node does that verified it, spoils the
signatures in front of it, and spares those behind.

## Main definitions

* `PayloadIntegrityBlock.Step` : what happens to a bundle on its way.
* `PayloadIntegrityBlock.Permits` : the changes that leave alone what is signed.
* `PayloadIntegrityBlock.Holds` : the invariant.

## Main results

* `PayloadIntegrityBlock.Holds.step` : what one change keeps.
* `PayloadIntegrityBlock.verifies_after_iff` : which signatures verify behind a run.
* `PayloadIntegrityBlock.strip_spares_iff` : which ones verify behind a block that is stripped.
-/

namespace IbrDtn

open BundleAuthenticationBlock (namedSource sampleKey)
open MutualSerializer (primaryLength primaryMask)

namespace PayloadIntegrityBlock

variable {rsa : Rsa} {named : EID} {signature : Bytes} {b : Bundle}

/-! ### Runs -/

/-- A bundle on its way, with the place of a block, and the blocks that were removed from behind
it. -/
structure Travel where
  bundle : Bundle
  place : ℕ
  removed : List Block

/-- What happens to a bundle on its way: another signature, a block in front or behind, a block
that is removed or replaced, another custodian, other flags, and a transport. -/
inductive Change where
  | sign (key : SecurityKey) (destination : EID)
  | pushFront (c : Block)
  | pushBack (c : Block)
  | remove (index : ℕ)
  | replace (index : ℕ) (c : Block)
  | custodian (eid : EID)
  | procflags (flags : UInt64)
  | transport

/-- The bundle is written by a serializer and read by a deserializer that accepts everything. -/
def Reaches (b b' : Bundle) : Prop :=
  ∃ (s : DefaultSerializer) (d d' : DefaultDeserializer) (env : DeserializerEnv) (obj : Bundle),
    s.dictionary.good = true ∧ d.dictionary.good = true ∧ env.validator = Validator.accept ∧
      env.blob.CopiesExactly ∧
      (DefaultDeserializer.readBundle env d obj).Reads (s.writeBundle b).1 (b', d')

/-- The steps. -/
inductive Step (rsa : Rsa) : Travel → Change → Travel → Prop where
  | sign {t : Travel} {key : SecurityKey} {destination : EID} {b : Bundle}
      (h : PayloadIntegrityBlock.sign rsa t.bundle key destination = .ok b) :
      Step rsa t (.sign key destination) ⟨b, t.place + 1, t.removed⟩
  | pushFront (t : Travel) (c : Block) :
      Step rsa t (.pushFront c) ⟨t.bundle.pushFront c, t.place + 1, t.removed⟩
  | pushBack (t : Travel) (c : Block) :
      Step rsa t (.pushBack c) ⟨t.bundle.pushBack c, t.place, t.removed⟩
  | removeBefore {t : Travel} {index : ℕ} (h : index < t.place) :
      Step rsa t (.remove index) ⟨t.bundle.remove index, t.place - 1, t.removed⟩
  | removeBehind {t : Travel} {index : ℕ} {c : Block} (h : t.place ≤ index)
      (hc : t.bundle.blocks[index]? = some c) :
      Step rsa t (.remove index) ⟨t.bundle.remove index, t.place, t.removed ++ [c]⟩
  | replace (t : Travel) (index : ℕ) (c : Block) : Step rsa t (.replace index c)
      ⟨{ t.bundle with blocks := t.bundle.blocks.set index c }, t.place, t.removed⟩
  | custodian (t : Travel) (eid : EID) : Step rsa t (.custodian eid)
      ⟨{ t.bundle with custodian := eid }, t.place, t.removed⟩
  | procflags (t : Travel) (flags : UInt64) : Step rsa t (.procflags flags)
      ⟨{ t.bundle with procflags := flags }, t.place, t.removed⟩
  | transport {t : Travel} {b : Bundle} (h : Reaches t.bundle b) :
      Step rsa t .transport ⟨b, t.place, t.removed⟩

/-- The transport keeps what is signed: three EIDs of the header, and the covered blocks from the
one with the signature on. -/
structure Conveys (t : Travel) : Prop where
  transportable : t.bundle.Transportable
  destination : t.bundle.Keeps t.bundle.destination
  source : t.bundle.Keeps t.bundle.source
  reportto : t.bundle.Keeps t.bundle.reportto
  blocks : ∀ c ∈ t.bundle.blocks.drop t.place, MutualSerializer.covered c = true →
    c.Unaltered t.bundle.resolved

/-- **The changes that leave alone what is signed**, up to the blocks that are removed. -/
def Permits (t : Travel) : Change → Prop
  | .pushBack c => MutualSerializer.covered c = false
  | .remove index => index ≠ t.place
  | .replace index c => index < t.place ∨ t.place < index ∧
      MutualSerializer.covered c = false ∧
        ∀ d ∈ t.bundle.blocks[index]?, MutualSerializer.covered d = false
  | .procflags flags =>
      flags &&& primaryMask =
        t.bundle.procflags &&& primaryMask
  | .transport => Conveys t
  | _ => True

/-- The form from the block on. -/
def Travel.form (t : Travel) : Bytes := MutualSerializer.writeBundle (some t.place) t.bundle

/-- The forms of the blocks from the block on. -/
def Travel.forms (t : Travel) : List Bytes :=
  (t.bundle.blocks.map MutualSerializer.writeBlock).drop t.place

/-- What holds on the way: the block has its signature, and the form is the one that was signed,
unless a covered block was removed; it is shorter then. -/
structure Holds (named : EID) (signature : Bytes) (b₁ : Bundle) (t : Travel) : Prop where
  block : ∃ c, t.bundle.blocks[t.place]? = some c ∧ Signed named signature c
  source : t.bundle.source = b₁.source
  primary : MutualSerializer.writePrimary t.bundle.toPrimaryBlock =
    MutualSerializer.writePrimary b₁.toPrimaryBlock
  forms_eq : (∀ c ∈ t.removed, MutualSerializer.covered c = false) →
    t.forms.flatten = (b₁.blocks.map MutualSerializer.writeBlock).flatten
  forms_lt : (∃ c ∈ t.removed, MutualSerializer.covered c = true) →
    t.forms.flatten.length < (b₁.blocks.map MutualSerializer.writeBlock).flatten.length

theorem Travel.form_eq (t : Travel) : t.form =
    MutualSerializer.writePrimary t.bundle.toPrimaryBlock ++ t.forms.flatten :=
  MutualSerializer.writeBundle_eq_flatten _ _

variable {b₁ : Bundle} {t t' : Travel}

/-- A change that keeps the signature, the header and the form. -/
theorem Holds.of_forms (h : Holds named signature b₁ t)
    (hblock : ∃ c, t'.bundle.blocks[t'.place]? = some c ∧ Signed named signature c)
    (hsource : t'.bundle.source = t.bundle.source)
    (hprimary : MutualSerializer.writePrimary t'.bundle.toPrimaryBlock =
      MutualSerializer.writePrimary t.bundle.toPrimaryBlock)
    (hforms : t'.forms.flatten = t.forms.flatten) (hremoved : t'.removed = t.removed) :
    Holds named signature b₁ t' where
  block := hblock
  source := hsource.trans h.source
  primary := hprimary.trans h.primary
  forms_eq hnone := hforms.trans (h.forms_eq (hremoved ▸ hnone))
  forms_lt hsome := by
    rw [hforms]
    exact h.forms_lt (hremoved ▸ hsome)

/-- The block is still there, but for the mark of the last block. -/
theorem exists_getElem?_set_last {xs : List Block} {last : Block} {i : ℕ}
    (h : ∃ c, (xs ++ [last])[i]? = some c ∧ Signed named signature c) (value : Bool)
    (rest : List Block) : ∃ c, (xs ++ last.set Block.lastBlock value :: rest)[i]? = some c ∧
      Signed named signature c := by
  obtain ⟨c, hget, hc⟩ := h
  rcases Nat.lt_or_ge i xs.length with hlt | hge
  · rw [List.getElem?_append_left hlt] at hget ⊢
    exact ⟨c, hget, hc⟩
  · rw [List.getElem?_append_right hge] at hget ⊢
    rcases hi : i - xs.length with _ | k
    · rw [hi] at hget
      obtain rfl : last = c := Option.some.inj hget
      exact ⟨_, rfl, hc.set _ _⟩
    · rw [hi] at hget
      cases hget

theorem exists_getElem?_markBack {cs : List Block} {i : ℕ}
    (h : ∃ c, cs[i]? = some c ∧ Signed named signature c) :
    ∃ c, (BlockList.markBack cs)[i]? = some c ∧ Signed named signature c := by
  rcases List.eq_nil_or_concat cs with rfl | ⟨xs, last, rfl⟩
  · exact h
  · rw [List.concat_eq_append] at h ⊢
    rw [BlockList.markBack_append xs (List.cons_ne_nil last []), BlockList.markBack_singleton]
    exact exists_getElem?_set_last h true []

theorem exists_getElem?_pushBack {cs : List Block} {i : ℕ}
    (h : ∃ c, cs[i]? = some c ∧ Signed named signature c) (d : Block) :
    ∃ c, (BlockList.pushBack cs d)[i]? = some c ∧ Signed named signature c := by
  rcases List.eq_nil_or_concat cs with rfl | ⟨xs, last, rfl⟩
  · obtain ⟨c, hget, -⟩ := h
    cases hget
  · rw [List.concat_eq_append] at h ⊢
    rw [BlockList.pushBack_append_singleton]
    exact exists_getElem?_set_last h false _

theorem place_lt (h : Holds named signature b₁ t) : t.place < t.bundle.blocks.length := by
  obtain ⟨c, hget, -⟩ := h.block
  exact (List.getElem?_eq_some_iff.1 hget).1

/-- A block in front changes nothing. -/
theorem Holds.cons (h : Holds named signature b₁ t) (c : Block) : Holds named signature b₁
    ⟨{ t.bundle with blocks := c :: t.bundle.blocks }, t.place + 1, t.removed⟩ :=
  h.of_forms h.block rfl rfl rfl rfl

theorem Holds.pushFront (h : Holds named signature b₁ t) (c : Block) : Holds named signature b₁
    ⟨t.bundle.pushFront c, t.place + 1, t.removed⟩ := by
  have hpush : t.bundle.pushFront c = { t.bundle with blocks := c :: t.bundle.blocks } := by
    have hne : t.bundle.blocks.isEmpty = false := by
      rw [List.isEmpty_eq_false_iff]
      exact List.ne_nil_of_length_pos (Nat.zero_lt_of_lt (place_lt h))
    rw [Bundle.pushFront, BlockList.pushFront, hne, if_neg Bool.false_ne_true]
  rw [hpush]
  exact h.cons c

/-- A block behind that is not covered changes nothing. -/
theorem Holds.pushBack (h : Holds named signature b₁ t) {c : Block}
    (hc : MutualSerializer.covered c = false) : Holds named signature b₁
      ⟨t.bundle.pushBack c, t.place, t.removed⟩ := by
  refine h.of_forms (exists_getElem?_pushBack h.block c) rfl rfl ?_ rfl
  have hlt := place_lt h
  rw [Travel.forms, Travel.forms, Bundle.pushBack,
    BlockList.map_pushBack MutualSerializer.writeBlock_set_lastBlock,
    MutualSerializer.writeBlock_eq_nil_iff.2 hc, List.drop_append_of_le_length, List.flatten_append]
  · simp
  · rw [List.length_map]
    exact hlt.le

theorem drop_eraseIdx_of_lt {α : Type} (xs : List α) {i n : ℕ} (h : i < n) :
    (xs.eraseIdx i).drop (n - 1) = xs.drop n := by
  obtain ⟨n, rfl⟩ := Nat.exists_eq_add_one_of_ne_zero (Nat.ne_zero_of_lt h)
  rw [Nat.add_sub_cancel]
  induction xs generalizing i n with
  | nil => simp
  | cons x xs ih =>
      cases i with
      | zero => rfl
      | succ i =>
          obtain ⟨n, rfl⟩ := Nat.exists_eq_add_one_of_ne_zero (show n ≠ 0 by omega)
          rw [List.eraseIdx_cons_succ, List.drop_succ_cons, List.drop_succ_cons]
          exact ih n (by omega)

theorem drop_eraseIdx_of_le {α : Type} (xs : List α) {i n : ℕ} (h : n ≤ i) :
    (xs.eraseIdx i).drop n = (xs.drop n).eraseIdx (i - n) := by
  induction xs generalizing i n with
  | nil => simp
  | cons x xs ih =>
      cases n with
      | zero => rfl
      | succ n =>
          obtain ⟨i, rfl⟩ := Nat.exists_eq_add_one_of_ne_zero (show i ≠ 0 by omega)
          rw [List.eraseIdx_cons_succ, List.drop_succ_cons, List.drop_succ_cons,
            ih (by omega), Nat.add_sub_add_right]

/-- A block in front that is removed changes nothing. -/
theorem Holds.removeBefore (h : Holds named signature b₁ t) {index : ℕ} (hindex : index < t.place) :
    Holds named signature b₁ ⟨t.bundle.remove index, t.place - 1, t.removed⟩ := by
  have hlt := place_lt h
  refine h.of_forms ?_ rfl rfl ?_ rfl
  · rw [Bundle.remove, BlockList.remove, if_pos (hindex.trans hlt)]
    refine exists_getElem?_markBack ?_
    obtain ⟨c, hget, hc⟩ := h.block
    refine ⟨c, ?_, hc⟩
    dsimp only
    rw [List.getElem?_eraseIdx_of_ge (by omega), Nat.sub_add_cancel (by omega)]
    exact hget
  · rw [Travel.forms, Travel.forms, Bundle.remove,
      BlockList.map_remove MutualSerializer.writeBlock_set_lastBlock (hindex.trans hlt),
      drop_eraseIdx_of_lt _ hindex]

theorem flatten_eraseIdx {α : Type} {xs : List (List α)} {i : ℕ} {x : List α}
    (h : xs[i]? = some x) : (x = [] → (xs.eraseIdx i).flatten = xs.flatten) ∧
      (xs.eraseIdx i).flatten.length + x.length = xs.flatten.length := by
  induction xs generalizing i with
  | nil => cases h
  | cons y ys ih =>
      cases i with
      | zero =>
          obtain rfl := Option.some.inj h
          refine ⟨?_, ?_⟩
          · rintro rfl
            rfl
          · simp [Nat.add_comm]
      | succ i =>
          obtain ⟨heq, hlen⟩ := ih h
          refine ⟨fun hx => ?_, ?_⟩
          · rw [List.eraseIdx_cons_succ, List.flatten_cons, List.flatten_cons, heq hx]
          · rw [List.eraseIdx_cons_succ, List.flatten_cons, List.flatten_cons, List.length_append,
              List.length_append, ← hlen, Nat.add_assoc]

/-- **A block behind that is removed** changes the form exactly if it is covered. -/
theorem Holds.removeBehind (h : Holds named signature b₁ t) {index : ℕ} {c : Block}
    (hindex : t.place < index) (hc : t.bundle.blocks[index]? = some c) :
    Holds named signature b₁ ⟨t.bundle.remove index, t.place, t.removed ++ [c]⟩ := by
  have hlt : index < t.bundle.blocks.length := (List.getElem?_eq_some_iff.1 hc).1
  have hforms : Travel.forms ⟨t.bundle.remove index, t.place, t.removed ++ [c]⟩ =
      t.forms.eraseIdx (index - t.place) := by
    rw [Travel.forms, Travel.forms, Bundle.remove,
      BlockList.map_remove MutualSerializer.writeBlock_set_lastBlock hlt,
      drop_eraseIdx_of_le _ hindex.le]
  have hget : t.forms[index - t.place]? = some (MutualSerializer.writeBlock c) := by
    rw [Travel.forms, List.getElem?_drop, Nat.add_sub_cancel' hindex.le, List.getElem?_map, hc]
    rfl
  obtain ⟨heq, hlen⟩ := flatten_eraseIdx hget
  refine ⟨?_, h.source, h.primary, fun hnone => ?_, ?_⟩
  · rw [Bundle.remove, BlockList.remove, if_pos hlt]
    refine exists_getElem?_markBack ?_
    obtain ⟨d, hd, hsigned⟩ := h.block
    refine ⟨d, ?_, hsigned⟩
    rw [List.getElem?_eraseIdx_of_lt hindex]
    exact hd
  · have hcovered := hnone c (List.mem_append_right _ (List.mem_singleton_self c))
    rw [hforms, heq (MutualSerializer.writeBlock_eq_nil_iff.2 hcovered)]
    exact h.forms_eq fun d hd => hnone d (List.mem_append_left _ hd)
  · rintro ⟨d, hd, hcovered⟩
    rw [hforms]
    by_cases hnone : ∀ d ∈ t.removed, MutualSerializer.covered d = false
    · rw [← h.forms_eq hnone, ← hlen]
      rcases List.mem_append.1 hd with hd | hd
      · exact absurd (hcovered.symm.trans (hnone d hd)) (by simp)
      · obtain rfl := List.mem_singleton.1 hd
        have hne : MutualSerializer.writeBlock d ≠ [] := fun hnil =>
          absurd (hcovered.symm.trans (MutualSerializer.writeBlock_eq_nil_iff.1 hnil)) (by simp)
        exact Nat.lt_add_of_pos_right (List.length_pos_iff.2 hne)
    · have hsome : ∃ d ∈ t.removed, MutualSerializer.covered d = true := by
        by_contra hno
        refine hnone fun d hd => Bool.eq_false_iff.2 fun htrue => hno ⟨d, hd, htrue⟩
      exact Nat.lt_of_le_of_lt (by omega) (h.forms_lt hsome)

/-- A block that is replaced is in front, or not covered. -/
theorem Holds.replace (h : Holds named signature b₁ t) {index : ℕ} {c : Block}
    (hpermits : Permits t (.replace index c)) : Holds named signature b₁
      ⟨{ t.bundle with blocks := t.bundle.blocks.set index c }, t.place, t.removed⟩ := by
  have hne : index ≠ t.place := by
    rcases hpermits with hlt | ⟨hlt, -⟩ <;> omega
  refine h.of_forms ?_ rfl rfl ?_ rfl
  · rw [List.getElem?_set_ne hne]
    exact h.block
  · rw [Travel.forms, Travel.forms, List.map_set]
    rcases hpermits with hlt | ⟨hlt, hc, hold⟩
    · rw [List.drop_set_of_lt hlt]
    · rcases hget : t.bundle.blocks[index]? with _ | d
      · have hlength : (t.bundle.blocks.map MutualSerializer.writeBlock).length ≤ index := by
          rw [List.length_map]
          exact List.getElem?_eq_none_iff.1 hget
        rw [List.set_eq_of_length_le hlength]
      · have hnil (e : Block) (he : MutualSerializer.covered e = false) :=
          MutualSerializer.writeBlock_eq_nil_iff.2 he
        have hsame : (t.bundle.blocks.map MutualSerializer.writeBlock)[index]? = some [] := by
          rw [List.getElem?_map, hget, Option.map_some, hnil d (hold d hget)]
        obtain ⟨hlength, hvalue⟩ := List.getElem?_eq_some_iff.1 hsame
        rw [hnil c hc, ← hvalue, List.set_getElem_self]

/-- **A transport** that keeps what is signed. -/
theorem Holds.transport (h : Holds named signature b₁ t) (hconveys : Conveys t) {b : Bundle}
    (hreaches : Reaches t.bundle b) :
    Holds named signature b₁ ⟨b, t.place, t.removed⟩ := by
  obtain ⟨s, d, d', env, obj, hs, hd, henv, hblob, hread⟩ := hreaches
  obtain ⟨d₁, -, hread'⟩ := hconveys.transportable.reads_transported obj hs hd henv hblob
  obtain ⟨rfl, -⟩ := Prod.mk.inj (hread.unique hread')
  have hserializable := hconveys.transportable.serializable.blocks
  have hdestination := (t.bundle.resolved_eq_self_iff _).2 hconveys.destination
  have hsource := (t.bundle.resolved_eq_self_iff _).2 hconveys.source
  have hreportto := (t.bundle.resolved_eq_self_iff _).2 hconveys.reportto
  refine h.of_forms ?_ hsource ?_ ?_ rfl
  · obtain ⟨c, hget, hc⟩ := h.block
    have hmem : c ∈ t.bundle.blocks.drop t.place := by
      refine List.mem_of_getElem? (i := 0) ?_
      rw [List.getElem?_drop]
      exact hget
    refine ⟨c.transported t.bundle.resolved, ?_, hc.transported
      (hserializable c (List.mem_of_getElem? hget)) (hconveys.blocks c hmem hc.covered)⟩
    rw [Bundle.transported, List.getElem?_map, hget]
    rfl
  · rw [Bundle.transported, MutualSerializer.writePrimary, MutualSerializer.writePrimary,
      primaryLength, primaryLength,
      DefaultDeserializer.receivedPrimary]
    dsimp only
    rw [hdestination, hsource, hreportto]
  · rw [Travel.forms, Travel.forms, Bundle.transported, ← List.map_drop, ← List.map_drop,
      ← List.map_drop, List.map_map]
    refine congrArg List.flatten (List.map_congr_left fun c hc => ?_)
    exact MutualSerializer.writeBlock_transported (hserializable c (List.mem_of_mem_drop hc))
      (hconveys.blocks c hc)

/-- **What one change keeps.** -/
theorem Holds.step (h : Holds named signature b₁ t) {change : Change} (hpermits : Permits t change)
    (hstep : Step rsa t change t') : Holds named signature b₁ t' := by
  cases hstep with
  | sign hsign =>
      obtain ⟨source, c, -, -, rfl⟩ := sign_spec hsign
      exact h.cons _
  | pushFront c => exact h.pushFront c
  | pushBack c => exact h.pushBack hpermits
  | removeBefore hindex => exact h.removeBefore hindex
  | removeBehind hindex hc => exact h.removeBehind (lt_of_le_of_ne hindex (Ne.symm hpermits)) hc
  | replace index c => exact h.replace hpermits
  | custodian eid => exact h.of_forms h.block rfl rfl rfl rfl
  | procflags flags =>
      refine h.of_forms h.block rfl ?_ rfl rfl
      rw [MutualSerializer.writePrimary, MutualSerializer.writePrimary]
      dsimp only
      rw [show flags &&& primaryMask = _ from hpermits]
      rfl
  | transport hreaches => exact h.transport hpermits hreaches

/-- A signature, and what holds of it behind a run. -/
theorem exists_holds {own other : Bytes} (hpair : rsa.Pair own other) {reference destination : EID}
    (hsign : sign rsa b ⟨reference, own⟩ destination = .ok b₁) {changes : List Change}
    (hrun : Transition.Run (Step rsa) Permits ⟨b₁, 0, []⟩ changes t) :
    ∃ source signature, b₁.source.getNode = .ok source ∧
      rsa.sign own (MutualSerializer.writeBundle (some 0) b₁) = some signature ∧
      Holds (namedSource ⟨reference, own⟩ source) signature b₁ t := by
  obtain ⟨source, c, hsource, hc, rfl⟩ := sign_spec hsign
  obtain ⟨signature, hsignature⟩ := Option.isSome_iff_exists.1 (hpair.signs
    (MutualSerializer.writeBundle (some 0) { b with blocks := c :: b.blocks }))
  have hhash : calcHash rsa { b with blocks := c :: b.blocks } ⟨reference, own⟩ = signature := by
    rw [calcHash, hsignature, Option.getD_some]
  rw [hhash] at hrun ⊢
  refine ⟨source, signature, hsource, ?_, ?_⟩
  · rw [← hsignature, MutualSerializer.writeBundle_eq_flatten,
      MutualSerializer.writeBundle_eq_flatten, List.map_cons, List.map_cons,
      hc.writeBlock_setHash hpair.size_pos signature]
  · exact hrun.invariant ⟨⟨_, rfl, hc.signed signature⟩, rfl, rfl, fun _ => rfl,
      fun ⟨_, hmem, _⟩ => absurd hmem List.not_mem_nil⟩ fun _ _ _ h hmeets hstep =>
        h.step hmeets hstep

/-- The signature verifies if its key belongs to a node, and no covered block is missing behind
it. -/
theorem Holds.verifies_iff {own other : Bytes} (hpair : rsa.Pair own other) {reference source : EID}
    (hsource : b₁.source.getNode = .ok source)
    (hsignature : rsa.sign own (MutualSerializer.writeBundle (some 0) b₁) = some signature)
    (h : Holds (namedSource ⟨reference, own⟩ source) signature b₁ t) :
    (∃ s, (t.place, s) ∈ getBlocks t.bundle.blocks ∧
      verifyBlock rsa t.bundle ⟨reference, other⟩ t.place s = .ok ()) ↔
      BundleAuthenticationBlock.Owned ⟨reference, own⟩ b₁.toPrimaryBlock ∧
        ∀ c ∈ t.removed, MutualSerializer.covered c = false := by
  have hform : MutualSerializer.writeBundle (some t.place) t.bundle =
      MutualSerializer.writeBundle (some 0) b₁ ↔
        ∀ c ∈ t.removed, MutualSerializer.covered c = false := by
    rw [show MutualSerializer.writeBundle (some t.place) t.bundle = _ from t.form_eq, h.primary,
      MutualSerializer.writeBundle_eq_flatten, List.append_cancel_left_eq, List.drop_zero]
    constructor
    · intro heq d hd
      by_contra hcovered
      have hlt := h.forms_lt ⟨d, hd, Bool.eq_true_of_not_eq_false hcovered⟩
      rw [heq] at hlt
      exact lt_irrefl _ hlt
    · exact h.forms_eq
  obtain ⟨d, hd, -, s, size, hbody, hnames, hid, -, hget⟩ := h.block
  have hverify := verifyBlock_iff hpair (b := t.bundle) (p := b₁.toPrimaryBlock) h.source
    hsource hnames.source hid hget hsignature t.place
  rw [hform] at hverify
  rw [← hverify]
  constructor
  · rintro ⟨s', hmem, hok⟩
    obtain ⟨d', size', hd', hbody'⟩ := mem_getBlocks.1 hmem
    obtain rfl := Option.some.inj (hd.symm.trans hd')
    obtain ⟨rfl, -⟩ := Body.payloadIntegrity.inj (hbody.symm.trans hbody')
    exact hok
  · exact fun hok => ⟨s, mem_getBlocks.2 ⟨d, size, hd, hbody⟩, hok⟩

/-! ### A bundle on its way -/

/-- A signature that is what was signed, in place of one of OpenSSL, with the size that it has for the
bundle below. -/
def sampleRsa : Rsa where
  present _ := true
  size _ := 132
  sign _ data := some data
  verification _ data signature := if data = signature then 1 else 0

theorem sampleRsa_pair (own other : Bytes) : sampleRsa.Pair own other where
  present := rfl
  size_pos := Nat.succ_pos _
  signs _ := rfl
  verification data data' signature h := by
    obtain rfl := Option.some.inj h
    change 0 < (if data' = data then 1 else 0 : Int) ↔ data' = data
    split_ifs with heq <;> simp [heq]

/-- The bundle, signed with the key, or as it is. -/
def signedSample (b : Bundle) (key : SecurityKey) : Bundle :=
  match sign sampleRsa b key EID.none with
  | .ok b₁ => b₁
  | .error _ => b

/-- A bundle with a payload. -/
def plainSample : Bundle := .sample [Bundle.samplePayload Block.lastBlock []]

/-- A key of another node. -/
def otherKey : SecurityKey := ⟨⟨EID.defaultScheme, ascii ['/', '/', 'b']⟩, []⟩

theorem sign_plainSample : sign sampleRsa plainSample sampleKey EID.none =
    .ok (signedSample plainSample sampleKey) := by
  decide +kernel

/-- **Which signatures verify behind a run**: those of a key that belongs to a node, if no covered
block was removed from behind them. -/
theorem verifies_after_iff {own other : Bytes} (hpair : rsa.Pair own other)
    {reference destination : EID} (hsign : sign rsa b ⟨reference, own⟩ destination = .ok b₁)
    {changes : List Change} (hrun : Transition.Run (Step rsa) Permits ⟨b₁, 0, []⟩ changes t) :
    (∃ s, (t.place, s) ∈ getBlocks t.bundle.blocks ∧
      verifyBlock rsa t.bundle ⟨reference, other⟩ t.place s = .ok ()) ↔
      BundleAuthenticationBlock.Owned ⟨reference, own⟩ b₁.toPrimaryBlock ∧
        ∀ c ∈ t.removed, MutualSerializer.covered c = false := by
  obtain ⟨source, signature, hsource, hsignature, hholds⟩ := exists_holds hpair hsign hrun
  exact hholds.verifies_iff hpair hsource hsignature

/-- The signed bundle with blocks in front and at the end. -/
def passedSample : Bundle :=
  ((signedSample plainSample sampleKey).pushFront
    Block.newAge).pushBack Block.newScopeControlHopLimit

theorem run_passedSample : Transition.Run (Step sampleRsa) Permits
    ⟨signedSample plainSample sampleKey, 0, []⟩
    [.pushFront Block.newAge, .pushBack Block.newScopeControlHopLimit] ⟨passedSample, 1, []⟩ := by
  have hfirst : Transition.Run (Step sampleRsa) Permits
      ⟨signedSample plainSample sampleKey, 0, []⟩
      [.pushFront Block.newAge] ⟨(signedSample plainSample
        sampleKey).pushFront Block.newAge, 1, []⟩ :=
    .snoc .nil trivial (.pushFront _ _)
  have hbehind : MutualSerializer.covered Block.newScopeControlHopLimit = false := rfl
  exact .snoc hfirst hbehind (.pushBack _ _)

theorem owned_sampleKey (p : PrimaryBlock) :
    BundleAuthenticationBlock.Owned sampleKey p :=
  ⟨by decide, fun h => absurd h (by decide)⟩

theorem transportable_passedSample : passedSample.Transportable where
  serializable := by
    have hne : passedSample.blocks ≠ [] := by decide +kernel
    have hlast : ∀ hne, (passedSample.blocks.getLast hne).get Block.lastBlock = true := by
      decide +kernel
    have hmarked := @BlockList.marked_append_singleton passedSample.blocks.dropLast
      (passedSample.blocks.getLast hne)
    rw [List.dropLast_append_getLast] at hmarked
    refine ⟨hne, hmarked.2 ⟨by decide +kernel, hlast hne⟩, fun c hc => ?_, by decide +kernel⟩
    have hsecurity : ∀ c ∈ passedSample.blocks, ∀ s ∈ c.body.security?,
        SecurityBlock.EidsPresent s.ciphersuiteFlags c.eids ∧ s.Fits := by
      decide +kernel
    have hrest : ∀ c ∈ passedSample.blocks, c.body.HasType c.blocktype ∧
        (c.eids ≠ [] → c.get Block.blockContainsEids = true) ∧ c.eids.length < 2 ^ 32 ∧
          c.body.serialize.length < 2 ^ 64 ∧
            (c.body.classType = none → c.get Block.discardIfNotProcessed = false) := by
      decide +kernel
    obtain ⟨htype, hcontains, heids, hpayload, hdiscard⟩ := hrest c hc
    exact ⟨htype, hsecurity c hc, hcontains, heids, hpayload, hdiscard⟩
  nameable := by decide +kernel
  size_lt := by decide +kernel

/-- The size of a signature is the length of the signature that the block has. -/
def Body.sized (body : Body) : Bool :=
  match body with
  | .payloadIntegrity s size => size == s.securityResult.getLength
  | _ => true

/-- The transport keeps what is signed. -/
theorem conveys_passedSample : Conveys ⟨passedSample, 1, []⟩ where
  transportable := transportable_passedSample
  destination := by decide +kernel
  source := by decide +kernel
  reportto := by decide +kernel
  blocks := by
    have hparts : ∀ c ∈ passedSample.blocks.drop 1, MutualSerializer.covered c = true →
        (∀ e ∈ c.eids, passedSample.resolved e = e) ∧
          ∀ value ∈ (Block.receiver c.blocktype).body.forwardedMark,
            c.get Block.forwardedWithoutProcessed = value := by
      decide +kernel
    have hsize : ∀ c ∈ passedSample.blocks.drop 1, Body.sized c.body = true := by
      decide +kernel
    intro c hc hcovered
    obtain ⟨heids, hmark⟩ := hparts c hc hcovered
    refine ⟨heids, hmark, fun s size hbody _ => .inr ?_⟩
    have hc := hsize c hc
    rw [hbody] at hc
    exact eq_of_beq (show (size == s.securityResult.getLength) = true from hc)

/-- The bundle behind a transport. -/
def arrivedSample : Bundle := passedSample.transported (.create 0 0)

theorem run_arrivedSample : Transition.Run (Step sampleRsa) Permits
    ⟨signedSample plainSample sampleKey, 0, []⟩
    [.pushFront Block.newAge, .pushBack Block.newScopeControlHopLimit, .transport]
    ⟨arrivedSample, 1, []⟩ := by
  obtain ⟨d, -, hread⟩ := @Bundle.Transportable.reads_transported _ transportable_passedSample
    (.create 0 0) .create rfl .create rfl (.default BLOB.exact ⟨0, 0⟩) rfl BLOB.exact_copiesExactly
  have hreaches : Reaches passedSample arrivedSample :=
    ⟨_, _, d, _, _, rfl, rfl, rfl, BLOB.exact_copiesExactly, hread⟩
  exact .snoc run_passedSample conveys_passedSample (.transport hreaches)

/-- **A signature that verifies** behind blocks in front and at the end, and a transport. -/
theorem verifies_after_iff_sample : ∃ s, (1, s) ∈ getBlocks arrivedSample.blocks ∧
    verifyBlock sampleRsa arrivedSample sampleKey 1 s = .ok () :=
  (verifies_after_iff (sampleRsa_pair [] []) sign_plainSample run_arrivedSample).2
    ⟨owned_sampleKey _, fun _ h => absurd h List.not_mem_nil⟩

/-! ### Stripping -/

/-- The first block that verifies. -/
def firstValid (rsa : Rsa) (b : Bundle) (key : SecurityKey) : Option (ℕ × SecurityBlock) :=
  (getBlocks b.blocks).find? fun c => (verifyBlock rsa b key c.1 c.2).isOk

theorem stripLoop_eq (b : Bundle) (key : SecurityKey) (before : List ℕ)
    (cs : List (ℕ × SecurityBlock)) : stripLoop rsa b key false before cs =
      match cs.find? fun c => (verifyBlock rsa b key c.1 c.2).isOk with
      | some c => b.remove c.1
      | none => b := by
  induction cs generalizing before with
  | nil => rfl
  | cons c cs ih =>
      rw [stripLoop, List.find?_cons]
      cases verifyBlock rsa b key c.1 c.2 with
      | ok _ => rfl
      | error _ => exact ih _

/-- What happens to a bundle does not depend on what was removed before. -/
theorem Step.cons_removed {change : Change} (h : Step rsa t change t') (c : Block) :
    Step rsa { t with removed := c :: t.removed } change
      { t' with removed := c :: t'.removed } := by
  cases h with
  | sign h => exact .sign h
  | pushFront d => exact .pushFront _ d
  | pushBack d => exact .pushBack _ d
  | removeBefore h => exact .removeBefore h
  | removeBehind h hd => exact .removeBehind h hd
  | replace index d => exact .replace _ index d
  | custodian eid => exact .custodian _ eid
  | procflags flags => exact .procflags _ flags
  | transport h => exact .transport h

theorem Permits.cons_removed {change : Change} (h : Permits t change) (c : Block) :
    Permits { t with removed := c :: t.removed } change := by
  cases change with
  | transport => exact ⟨h.transportable, h.destination, h.source, h.reportto, h.blocks⟩
  | _ => exact h

/-- The order in which blocks were removed does not matter. -/
theorem Holds.of_mem_iff (h : Holds named signature b₁ t) {removed : List Block}
    (hmem : ∀ c, c ∈ removed ↔ c ∈ t.removed) :
    Holds named signature b₁ { t with removed } where
  block := h.block
  source := h.source
  primary := h.primary
  forms_eq hnone := h.forms_eq fun c hc => hnone c ((hmem c).2 hc)
  forms_lt := fun ⟨c, hc, hcovered⟩ => h.forms_lt ⟨c, (hmem c).1 hc, hcovered⟩

/-- **Stripping a valid block** leaves alone the signatures behind it, and no signature in front of
it verifies any more, whatever happens later. -/
theorem strip_spares_iff {own other : Bytes} (hpair : rsa.Pair own other)
    {reference destination : EID} (hsign : sign rsa b ⟨reference, own⟩ destination = .ok b₁)
    {changes : List Change} (hrun : Transition.Run (Step rsa) Permits ⟨b₁, 0, []⟩ changes t)
    {key : SecurityKey} {i : ℕ} {s₀ : SecurityBlock}
    (hvalid : firstValid rsa t.bundle key = some (i, s₀)) (hne : i ≠ t.place)
    (htypes : ∀ c ∈ t.bundle.blocks, c.body.HasType c.blocktype) {later : List Change}
    (hlater : Transition.Run (Step rsa) Permits ⟨strip rsa t.bundle key false,
      if i < t.place then t.place - 1 else t.place, t.removed⟩ later t') :
    (∃ s, (t'.place, s) ∈ getBlocks t'.bundle.blocks ∧
      verifyBlock rsa t'.bundle ⟨reference, other⟩ t'.place s = .ok ()) ↔
      i < t.place ∧ BundleAuthenticationBlock.Owned ⟨reference, own⟩ b₁.toPrimaryBlock ∧
        ∀ c ∈ t'.removed, MutualSerializer.covered c = false := by
  obtain ⟨source, signature, hsource, hsignature, hholds⟩ := exists_holds hpair hsign hrun
  have hstrip : strip rsa t.bundle key false = t.bundle.remove i := by
    rw [firstValid] at hvalid
    rw [strip, stripLoop_eq, hvalid]
  obtain ⟨c, size, hget, hbody⟩ := mem_getBlocks.1 (List.mem_of_find?_eq_some hvalid)
  rw [hstrip] at hlater
  rcases Nat.lt_or_gt_of_ne hne with hlt | hgt
  · rw [if_pos hlt] at hlater
    rw [and_iff_right hlt]
    have hend := hlater.invariant (hholds.removeBefore hlt) fun _ _ _ h hmeets hstep =>
      h.step hmeets hstep
    exact hend.verifies_iff hpair hsource hsignature
  · -- The block that is stripped is one of those that were removed from behind the signature.
    rw [if_neg hgt.not_gt] at hlater
    have hmem (d : Block) : d ∈ c :: t.removed ↔ d ∈ t.removed ++ [c] := by
      rw [List.mem_append, List.mem_singleton, List.mem_cons, or_comm]
    have hstripped := (hholds.removeBehind hgt hget).of_mem_iff hmem
    have hend := hlater.invariant (I := fun t => Holds _ signature b₁
      { t with removed := c :: t.removed }) hstripped fun _ _ _ h hmeets hstep =>
        h.step (hmeets.cons_removed c) (hstep.cons_removed c)
    refine (hend.verifies_iff hpair hsource hsignature).trans
      (iff_of_false ?_ fun h => absurd h.1 hgt.not_gt)
    rintro ⟨-, hnone⟩
    have htype : c.blocktype = 3 :=
      (htypes c (List.mem_of_getElem? hget)).eq_of_classType (by rw [hbody]; rfl)
    have hcovered := hnone c List.mem_cons_self
    rw [MutualSerializer.covered, htype] at hcovered
    exact absurd hcovered (by decide)

/-- A bundle that is signed by two nodes. -/
def twiceSample : Bundle :=
  signedSample (signedSample plainSample sampleKey) otherKey

theorem sign_twiceSample : sign sampleRsa
    (signedSample plainSample sampleKey) otherKey EID.none =
      .ok twiceSample := by
  decide +kernel

theorem run_twiceSample : Transition.Run (Step sampleRsa) Permits
    ⟨signedSample plainSample sampleKey, 0, []⟩
    [.sign otherKey EID.none] ⟨twiceSample, 1, []⟩ :=
  .snoc .nil trivial (.sign sign_twiceSample)

/-- **A signature that is spared**: the one in front of it is stripped, and then another block is put
there. -/
theorem strip_spares_iff_sample : ∃ s,
    (1, s) ∈ getBlocks ((strip sampleRsa twiceSample otherKey false).pushFront Block.newAge).blocks ∧
      verifyBlock sampleRsa ((strip sampleRsa twiceSample otherKey false).pushFront Block.newAge)
        sampleKey 1 s = .ok () := by
  obtain ⟨⟨i, s₀⟩, hvalid, hzero⟩ : ∃ c, firstValid sampleRsa twiceSample otherKey = some c ∧
      c.1 = 0 := by
    have hmap : (firstValid sampleRsa twiceSample otherKey).map Prod.fst = some 0 := by
      decide +kernel
    exact Option.map_eq_some_iff.1 hmap
  obtain rfl : i = 0 := hzero
  have hlater (b : Bundle) : Transition.Run (Step sampleRsa) Permits ⟨b, 0, []⟩
      [.pushFront Block.newAge] ⟨b.pushFront Block.newAge, 1, []⟩ :=
    .snoc .nil (show Permits ⟨b, 0, []⟩ (.pushFront Block.newAge) from trivial)
      (.pushFront ⟨b, 0, []⟩ Block.newAge)
  have hspared := strip_spares_iff (sampleRsa_pair [] []) sign_plainSample run_twiceSample hvalid
    (by decide) (by decide +kernel) (hlater (strip sampleRsa twiceSample otherKey false))
  exact hspared.2 ⟨by decide, owned_sampleKey _, fun _ h => absurd h List.not_mem_nil⟩

end PayloadIntegrityBlock

end IbrDtn
