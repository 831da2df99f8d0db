import IbrDtn.Data.DictionaryUse
import IbrDtn.Data.PredictedLengths
import IbrDtn.Data.BlockReplacement
import IbrDtn.Library.PrefixCode

/-!
# Bundles in bundles

This file models `encapsule` and `decapsule` of `ibrdtn/utils/Utils.cpp`.  The payload of a capsule
is the number of the bundles, a table of offsets, and the bundles one after the other.  One
serializer writes all of them, and one deserializer reads them into one object.

## Main definitions

* `Utils.encapsule`, `Utils.decapsule` : the two functions.
* `Utils.Encapsulates` : the bundles come back, the table is right, and the capsule lives long
  enough.

## Main results

* `Utils.encapsulates_iff` : for which capsules and bundles that is so.
-/

namespace IbrDtn

namespace Utils

/-! ### The two functions -/

/-- `count` turns of the loop that writes the offsets. The iterator of the next turn is the end of
the list if there are no more bundles. -/
def writeOffsets : ℕ → DefaultSerializer → List Bundle → Except Exn (Bytes × DefaultSerializer)
  | 0, s, _ => .ok ([], s)
  | _ + 1, _, [] => .error (.undefined "dereference of the end of a list")
  | count + 1, s, b :: bundles => do
      let (offsets, s') ← writeOffsets count (s.rebuildDictionary b) bundles
      pure (SDNV.write (UInt64.ofNat (s.getLength b)) ++ offsets, s')

/-- The loop that writes the bundles. -/
def writeBundles : DefaultSerializer → List Bundle → Bytes × DefaultSerializer
  | s, [] => ([], s)
  | s, b :: bundles =>
      let (bytes, s) := s.writeBundle b
      let (rest, s) := writeBundles s bundles
      (bytes ++ rest, s)

/-- `Utils::encapsule(ref, bundles)`: what is written into an empty container. -/
def encapsuleRef (bundles : List Bundle) : Except Exn Bytes := do
  let elements := UInt64.ofNat bundles.length
  let (offsets, s) ← writeOffsets (elements - 1).toNat DefaultSerializer.create bundles
  pure (SDNV.write elements ++ (offsets ++ (writeBundles s bundles).1))

/-- The capsule with the bytes in the cleared container of its payload block, or in a new payload
block. -/
def fill (capsule : Bundle) (ref : Bytes) : Bundle :=
  match capsule.place Block.payloadType Body.payload? with
  | some (index, _) =>
      { capsule with
        blocks := capsule.blocks.modify index fun c => { c with body := .payload ref } }
  | none => capsule.pushBack (Block.ofPayload ref)

/-- One turn of the loop over the expiration times. -/
def later (clock : Clock) (expTime : UInt64) (b : Bundle) : UInt64 :=
  let expt := clock.getExpireTime b
  if expt > expTime then expt else expTime

/-- The time at which the last one of the bundles expires. -/
def latest (clock : Clock) (bundles : List Bundle) : UInt64 := bundles.foldl (later clock) 0

/-- `Utils::encapsule(capsule, bundles)`. -/
def encapsule (clock : Clock) (capsule : Bundle) (bundles : List Bundle) : Except Exn Bundle := do
  let ref ← encapsuleRef bundles
  let capsule := fill capsule ref
  let custody := bundles.any fun b => b.get PrimaryBlock.custodyRequested
  pure { capsule with
    toPrimaryBlock :=
      { capsule.toPrimaryBlock.set PrimaryBlock.custodyRequested custody with
        lifetime := latest clock bundles - capsule.timestamp } }

/-- `count` turns of the loop that reads the offsets. -/
def readOffsets : ℕ → Parser Exn Unit
  | 0 => pure ()
  | count + 1 => do
      let _ ← SDNV.read
      readOffsets count

/-- `count` turns of the loop that reads the bundles, each into the object of the one before. -/
def readBundles (env : DeserializerEnv) :
    ℕ → DefaultDeserializer → Bundle → InStream → Except Exn Unit × List Bundle
  | 0, _, _, _ => (.ok (), [])
  | count + 1, d, b, s =>
      match (DefaultDeserializer.readBundle env d b).run s with
      | (.ok (b, d), s) =>
          let (r, bundles) := readBundles env count d b s
          (r, b :: bundles)
      | (.error e, _) => (.error e, [])

/-- The number of the bundles, and the offsets behind it. -/
def readTable : Parser Exn UInt64 := do
  let nob ← SDNV.read
  readOffsets (nob - 1).toNat
  pure nob

/-- `Utils::decapsule`: how it ends, and the list behind it. The bundles are read into an object
that is created with the given timestamp and sequence number. -/
def decapsule (env : DeserializerEnv) (timestamp sequencenumber : UInt64) (capsule : Bundle)
    (bundles : List Bundle) : Except Exn Unit × List Bundle :=
  match capsule.getPayload with
  | none => (.ok (), bundles)
  | some ref =>
      match readTable.run (InStream.ofBytes ref) with
      | (.error e, _) => (.error e, bundles)
      | (.ok nob, s) =>
          let (r, appended) := readBundles env nob.toNat DefaultDeserializer.create
            (Bundle.create timestamp sequencenumber) s
          let r := match r with
            | .ok () => .ok ()
            | .error e => if e.isInvalidData then .ok () else .error e
          (r, bundles ++ appended)

end Utils

/-! ### What a round trip leaves as it is -/

/-- The members as they are written: the stop watch of an age block is added to its age, and starts
again. -/
def Body.atWriting : Body → Body
  | .age b => .age ⟨b.age + b.elapsedAtSerialize, 0, 0⟩
  | body => body

/-- The block with the members that are written. -/
def Block.atWriting (c : Block) : Block := { c with body := c.body.atWriting }

namespace Bundle

/-- The bundle with the members that are written. -/
def atWriting (b : Bundle) : Bundle := { b with blocks := b.blocks.map Block.atWriting }

/-- The transport changes none of the EIDs and blocks of the bundle. -/
structure Intact (b : Bundle) : Prop where
  eids : ∀ e ∈ b.allEIDs, b.resolved e = e
  marks : ∀ c ∈ b.blocks, ∀ value ∈ (Block.receiver c.blocktype).body.forwardedMark,
    c.get Block.forwardedWithoutProcessed = value
  bodies : ∀ c ∈ b.blocks, c.body.received c.eids = c.body.atWriting

/-- The fragment fields of a bundle that is no fragment are those of the object that it is read
into. -/
def FragmentFields (b : Bundle) (obj : PrimaryBlock) : Prop :=
  b.get PrimaryBlock.fragment = false →
    b.fragmentoffset = obj.fragmentoffset ∧ b.appdatalength = obj.appdatalength

end Bundle

theorem Block.Serializable.transported_eq_iff {c : Block} (hc : c.Serializable) (f : EID → EID) :
    c.transported f = c.atWriting ↔ (∀ e ∈ c.eids, f e = e) ∧
      (∀ value ∈ (receiver c.blocktype).body.forwardedMark,
        c.get forwardedWithoutProcessed = value) ∧
      c.body.received c.eids = c.body.atWriting := by
  have heids : c.eids.map f = c.eids ↔ ∀ e ∈ c.eids, f e = e := by
    simpa using List.map_inj_left (l := c.eids) (f := f) (g := id)
  have hcopied : (c.transported f).eids = c.eids.map f ∧
      (c.transported f).body = c.body.received (c.eids.map f) := by
    rw [transported, hc.sendable.announced_eq, eids_withMark, body_withMark]
    exact ⟨rfl, rfl⟩
  rw [← procflags_transported_iff f c, ← heids]
  constructor
  · intro h
    rw [h] at hcopied ⊢
    have hfixed : c.eids.map f = c.eids := hcopied.1.symm
    rw [hfixed] at hcopied
    exact ⟨hfixed, rfl, hcopied.2.symm⟩
  · rintro ⟨hfixed, hflags, hbody⟩
    rw [hfixed, hbody] at hcopied
    exact Block.ext (blocktype_withMark _ _) hflags hcopied.1 hcopied.2

namespace Bundle

/-- **A bundle is read back as it was written exactly if** the transport changes nothing, and it is
a fragment or has the fragment fields of the object. -/
theorem Transportable.transported_eq_iff {b : Bundle} (hb : b.Transportable) (obj : Bundle) :
    b.transported obj = b.atWriting ↔ b.Intact ∧ b.FragmentFields obj.toPrimaryBlock := by
  have hblocks : b.blocks.map (Block.transported b.resolved) = b.blocks.map Block.atWriting ↔
      ∀ c ∈ b.blocks, (∀ e ∈ c.eids, b.resolved e = e) ∧
        (∀ value ∈ (Block.receiver c.blocktype).body.forwardedMark,
          c.get Block.forwardedWithoutProcessed = value) ∧
        c.body.received c.eids = c.body.atWriting := by
    rw [List.map_inj_left]
    exact forall₂_congr fun c hc =>
      (hb.serializable.blocks c hc).transported_eq_iff b.resolved
  constructor
  · intro h
    have hparts := hblocks.1 (congrArg Bundle.blocks h)
    have hfield {α : Type} (f : PrimaryBlock → α) :
        f (DefaultDeserializer.receivedPrimary b.resolved b.toPrimaryBlock obj.toPrimaryBlock) =
          f b.toPrimaryBlock :=
      congrArg (fun n : Bundle => f n.toPrimaryBlock) h
    refine ⟨⟨fun e he => ?_, fun c hc => (hparts c hc).2.1, fun c hc => (hparts c hc).2.2⟩,
      fun hfragment => ?_⟩
    · rcases List.mem_append.1 he with he | he
      · simp only [headerEIDs, List.mem_cons, List.not_mem_nil, or_false] at he
        rcases he with rfl | rfl | rfl | rfl
        · exact hfield PrimaryBlock.destination
        · exact hfield PrimaryBlock.source
        · exact hfield PrimaryBlock.reportto
        · exact hfield PrimaryBlock.custodian
      · obtain ⟨c, hc, hmem⟩ := List.mem_flatMap.1 he
        exact (hparts c hc).1 e hmem
    · have hoffset := hfield PrimaryBlock.fragmentoffset
      have happdata := hfield PrimaryBlock.appdatalength
      simp only [DefaultDeserializer.receivedPrimary, hfragment, Bool.false_eq_true,
        if_false] at hoffset happdata
      exact ⟨hoffset.symm, happdata.symm⟩
  · rintro ⟨hintact, hfields⟩
    have hheader (e : EID) (he : e ∈ headerEIDs b.toPrimaryBlock) : b.resolved e = e :=
      hintact.eids e (List.mem_append_left _ he)
    have hparts := hblocks.2 fun c hc => ⟨fun e he => hintact.eids e
      (List.mem_append_right _ (List.mem_flatMap.2 ⟨c, hc, he⟩)), hintact.marks c hc,
      hintact.bodies c hc⟩
    simp only [headerEIDs, List.forall_mem_cons] at hheader
    obtain ⟨hdestination, hsource, hreportto, hcustodian, -⟩ := hheader
    rw [transported, hparts, DefaultDeserializer.receivedPrimary, hdestination, hsource, hreportto,
      hcustodian, atWriting]
    cases hfragment : b.get PrimaryBlock.fragment with
    | true => rfl
    | false =>
        simp only [Bool.false_eq_true, if_false]
        rw [← (hfields hfragment).1, ← (hfields hfragment).2]

end Bundle

/-! ### One serializer for all bundles -/

namespace Dictionary

theorem clear_of_good {d : Dictionary} (h : d.good = true) : d.clear = empty := by
  simp only [good, Bool.and_eq_true, Bool.not_eq_true'] at h
  rw [clear, h.1, h.2, empty]

end Dictionary

namespace DefaultSerializer

variable {s : DefaultSerializer}

/-- A dictionary that is rebuilt does not depend on what it was before. -/
theorem rebuildDictionary_of_good (hs : s.dictionary.good = true) (b : Bundle) :
    (s.rebuildDictionary b).dictionary = (create.rebuildDictionary b).dictionary := by
  rw [rebuildDictionary_dictionary, rebuildDictionary_dictionary, Dictionary.clear_of_good hs]
  rfl

theorem good_rebuildDictionary (hs : s.dictionary.good = true) (b : Bundle) :
    (s.rebuildDictionary b).dictionary.good = true := by
  rw [rebuildDictionary_of_good hs, rebuildDictionary_dictionary]
  exact Dictionary.good_addAll rfl b.allEIDs

theorem serializer_of_good (hs : s.dictionary.good = true) (b : Bundle) :
    Bundle.serializer s b = Bundle.serializer create b := by
  have hdictionary := rebuildDictionary_of_good hs b
  rw [Bundle.serializer, Bundle.serializer]
  cases hrebuilt : s.rebuildDictionary b with
  | mk dictionary compressable =>
      rw [hrebuilt] at hdictionary
      rw [hdictionary]

/-- **What is written does not depend on the bundles before.** -/
theorem writeBundle_of_good (hs : s.dictionary.good = true) (b : Bundle) :
    s.writeBundle b = create.writeBundle b := by
  have h := serializer_of_good hs b
  simp only [Bundle.serializer] at h
  simp only [writeBundle, h]

theorem good_writeBundle (b : Bundle) : (create.writeBundle b).2.dictionary.good = true := by
  have hgood := good_rebuildDictionary (s := create) rfl b
  have hsame : (create.writeBundle b).2 = (Bundle.serializer create b).writeDictionary.2 := rfl
  rw [hsame, writeDictionary]
  split_ifs
  · exact hgood
  · exact hgood

theorem getLength_of_good (hs : s.dictionary.good = true) (hform : s.compressable = false)
    (b : Bundle) : s.getLength b = create.getLength b := by
  have hsame : s.rebuildDictionary b = create.rebuildDictionary b := by
    have hdictionary := rebuildDictionary_of_good hs b
    have hcompressable : (s.rebuildDictionary b).compressable = false := hform
    cases hrebuilt : s.rebuildDictionary b with
    | mk dictionary compressable =>
        rw [hrebuilt] at hdictionary hcompressable
        cases hcreate : create.rebuildDictionary b with
        | mk dictionary' compressable' =>
            have hcompressable' : (create.rebuildDictionary b).compressable = false := rfl
            rw [hcreate] at hdictionary hcompressable'
            exact congr (congrArg mk hdictionary) (hcompressable.trans hcompressable'.symm)
  rw [getLength, getLength, hsame]

end DefaultSerializer

namespace Utils

open DefaultSerializer (create)

variable {s : DefaultSerializer}

/-- **The table holds the predicted lengths.** -/
theorem writeOffsets_eq (hs : s.dictionary.good = true) (hform : s.compressable = false)
    {count : ℕ} {bundles : List Bundle} (hcount : count ≤ bundles.length) :
    ∃ s', s'.dictionary.good = true ∧ writeOffsets count s bundles =
      .ok ((bundles.take count).flatMap fun b => SDNV.write (UInt64.ofNat (create.getLength b)),
        s') := by
  induction count generalizing s bundles with
  | zero => exact ⟨s, hs, rfl⟩
  | succ count ih =>
      cases bundles with
      | nil => exact absurd hcount (Nat.not_succ_le_zero count)
      | cons b bundles =>
          obtain ⟨s', hs', h⟩ := ih (DefaultSerializer.good_rebuildDictionary hs b)
            (show (s.rebuildDictionary b).compressable = false from hform)
            (Nat.le_of_succ_le_succ hcount)
          refine ⟨s', hs', ?_⟩
          rw [writeOffsets, h, DefaultSerializer.getLength_of_good hs hform, List.take_succ_cons,
            List.flatMap_cons]
          rfl

theorem writeBundles_eq (hs : s.dictionary.good = true) (bundles : List Bundle) :
    (writeBundles s bundles).1 = bundles.flatMap fun b => (create.writeBundle b).1 := by
  induction bundles generalizing s with
  | nil => rfl
  | cons b bundles ih =>
      rw [writeBundles, List.flatMap_cons, DefaultSerializer.writeBundle_of_good hs]
      have htail := ih (DefaultSerializer.good_writeBundle b)
      exact congrArg ((create.writeBundle b).1 ++ ·) htail

/-- The loops over the offsets take one turn less than there are bundles, if there are any. -/
theorem toNat_turns {bundles : List Bundle} (hne : bundles ≠ []) (hlen : bundles.length < 2 ^ 64) :
    (UInt64.ofNat bundles.length - 1).toNat = bundles.length - 1 := by
  have hpos := List.length_pos_iff.2 hne
  have hnat : (UInt64.ofNat bundles.length).toNat = bundles.length := EID.toNat_ofNat_of_lt hlen
  have hle : 1 ≤ UInt64.ofNat bundles.length := by
    rw [UInt64.le_iff_toNat_le, hnat]
    exact hpos
  rw [UInt64.toNat_sub_of_le _ _ hle, hnat]
  rfl

/-- The payload of a capsule. -/
theorem encapsuleRef_eq {bundles : List Bundle} (hne : bundles ≠ [])
    (hlen : bundles.length < 2 ^ 64) :
    encapsuleRef bundles = .ok (SDNV.write (UInt64.ofNat bundles.length) ++
      ((bundles.dropLast.flatMap fun b => SDNV.write (UInt64.ofNat (create.getLength b))) ++
        bundles.flatMap fun b => (create.writeBundle b).1)) := by
  obtain ⟨s, hs, hoffsets⟩ := writeOffsets_eq (s := create) rfl rfl
    (Nat.sub_le bundles.length 1)
  rw [encapsuleRef, toNat_turns hne hlen, hoffsets, List.dropLast_eq_take]
  exact congrArg (fun bytes => Except.ok (_ ++ (_ ++ bytes))) (writeBundles_eq hs bundles)

/-- **No list that is empty is encapsulated**: the number of offsets wraps around. -/
theorem encapsuleRef_nil :
    encapsuleRef [] = .error (.undefined "dereference of the end of a list") := rfl

/-! ### The payload of a capsule -/

/-- What `getBlock` looks at. -/
theorem getBlock_eq {α : Type} (b : Bundle) (type : UInt8) (cast : Body → Option α) :
    b.getBlock type cast =
      ((b.blocks.map fun c => (c.blocktype, c.body)).find? fun p => p.1 == type).bind fun p =>
        cast p.2 := by
  rw [Bundle.getBlock, List.find?_map, Option.bind_map]
  rfl

theorem map_pushBack (blocks : List Block) (c : Block) :
    (BlockList.pushBack blocks c).map (fun c => (c.blocktype, c.body)) =
      blocks.map (fun c => (c.blocktype, c.body)) ++ [(c.blocktype, c.body)] := by
  rcases List.eq_nil_or_concat blocks with rfl | ⟨front, last, rfl⟩
  · rfl
  · rw [List.concat_eq_append, BlockList.pushBack_append_singleton, List.map_append,
      List.map_append, List.append_assoc]
    rfl

/-- The first block of the type of a payload block is one, if there is any. -/
def HasRoom (capsule : Bundle) : Prop :=
  ∀ c ∈ capsule.blocks.find? fun c => c.blocktype == Block.payloadType,
    c.body.payload?.isSome = true

instance (capsule : Bundle) : Decidable (HasRoom capsule) :=
  inferInstanceAs (Decidable (∀ c ∈ _, _))

theorem modify_append_cons (xs : List Block) (a : Block) (ys : List Block) (f : Block → Block) :
    (xs ++ a :: ys).modify xs.length f = xs ++ f a :: ys := by
  induction xs with
  | nil => rfl
  | cons x xs ih =>
      rw [List.cons_append, List.length_cons, List.modify_succ_cons, ih, List.cons_append]

/-- The bytes replace those of a payload block behind blocks of other types, or they are in a new
block. -/
theorem fill_eq (capsule : Bundle) (ref : Bytes) :
    (∃ xs a ys blob, capsule.blocks = xs ++ a :: ys ∧ (∀ c ∈ xs, c.blocktype ≠ Block.payloadType) ∧
      a.blocktype = Block.payloadType ∧ a.body = .payload blob ∧
      fill capsule ref =
        { capsule with blocks := xs ++ { a with body := .payload ref } :: ys }) ∨
    (capsule.place Block.payloadType Body.payload? = none ∧
      fill capsule ref = capsule.pushBack (Block.ofPayload ref)) := by
  cases hplace : capsule.place Block.payloadType Body.payload? with
  | none =>
      refine Or.inr ⟨rfl, ?_⟩
      rw [fill, hplace]
  | some found =>
      obtain ⟨index, blob⟩ := found
      obtain ⟨xs, a, ys, hblocks, rfl, hxs, htype, hcast⟩ := Bundle.place_eq_some_iff.1 hplace
      refine Or.inl ⟨xs, a, ys, blob, hblocks, hxs, htype, Body.payload?_eq_some_iff.1 hcast, ?_⟩
      rw [fill, hplace]
      simp only [hblocks, modify_append_cons]

/-- A block is found behind blocks of other types. -/
theorem find?_append_cons {xs ys : List Block} {a : Block} {type : UInt8}
    (hxs : ∀ c ∈ xs, c.blocktype ≠ type) (ha : a.blocktype = type) :
    (xs ++ a :: ys).find? (fun c => c.blocktype == type) = some a := by
  rw [List.find?_append, List.find?_eq_none.2 fun c hc => by simpa using hxs c hc, Option.none_or,
    List.find?_cons_of_pos (by simpa using ha)]

/-- **The bytes are found in the capsule exactly if** it has room for them. -/
theorem getPayload_fill (capsule : Bundle) (ref : Bytes) :
    (fill capsule ref).getPayload = if HasRoom capsule then some ref else none := by
  rcases fill_eq capsule ref with ⟨xs, a, ys, blob, hblocks, hxs, htype, hbody, hfill⟩ |
    ⟨hplace, hfill⟩
  · have hroom : HasRoom capsule := by
      rw [HasRoom, hblocks, find?_append_cons hxs htype]
      intro c hc
      obtain rfl := Option.some.inj hc
      rw [hbody]
      rfl
    have hfind : (xs ++ { a with body := .payload ref } :: ys).find?
        (fun c => c.blocktype == Block.payloadType) = some { a with body := .payload ref } :=
      find?_append_cons hxs htype
    rw [if_pos hroom, hfill, Bundle.getPayload, Bundle.getBlock, hfind]
    rfl
  · rw [hfill, Bundle.getPayload, getBlock_eq, Bundle.pushBack, map_pushBack, List.find?_append,
      List.find?_map]
    cases hfind : capsule.blocks.find? fun c => c.blocktype == Block.payloadType with
    | none =>
        have hroom : HasRoom capsule := by
          rw [HasRoom, hfind]
          intro c hc
          exact absurd hc (by simp)
        have hcomp : capsule.blocks.find? ((fun p : UInt8 × Body => p.1 == Block.payloadType) ∘
            fun c => (c.blocktype, c.body)) = none := hfind
        rw [if_pos hroom, hcomp]
        rfl
    | some c =>
        have hcomp : capsule.blocks.find? ((fun p : UInt8 × Body => p.1 == Block.payloadType) ∘
            fun c => (c.blocktype, c.body)) = some c := hfind
        have hnone : c.body.payload? = none := by
          obtain ⟨htype, xs, ys, hblocks, hxs⟩ := List.find?_eq_some_iff_append.1 hfind
          cases hcast : c.body.payload? with
          | none => rfl
          | some blob =>
              have hsome := Bundle.place_eq_some_iff.2 ⟨xs, c, ys, hblocks, rfl,
                fun c' hc' => by simpa using hxs c' hc', by simpa using htype, hcast⟩
              rw [hplace] at hsome
              exact absurd hsome (by simp)
        have hroom : ¬ HasRoom capsule := by
          intro h
          have := h c hfind
          rw [hnone] at this
          exact absurd this (by simp)
        rw [if_neg hroom, hcomp]
        exact hnone

/-- The payload is no age block. -/
theorem getBlock_fill_age (capsule : Bundle) (ref : Bytes) :
    (fill capsule ref).getBlock Block.newAge.blocktype Body.age? =
      capsule.getBlock Block.newAge.blocktype Body.age? := by
  rw [getBlock_eq, getBlock_eq]
  congr 1
  rcases fill_eq capsule ref with ⟨xs, a, ys, blob, hblocks, hxs, htype, hbody, hfill⟩ |
    ⟨hplace, hfill⟩
  · have hother : (a.blocktype == Block.newAge.blocktype) = false := by
      rw [htype]
      rfl
    rw [hfill, hblocks]
    simp only [List.map_append, List.map_cons, List.find?_append, List.find?_cons, hother]
  · rw [hfill, Bundle.pushBack, map_pushBack, List.find?_append]
    exact Option.or_none

/-! ### The lifetime of a capsule -/

theorem le_later (clock : Clock) (expTime : UInt64) (b : Bundle) :
    expTime ≤ later clock expTime b ∧ clock.getExpireTime b ≤ later clock expTime b := by
  rw [later]
  split_ifs with h
  · exact ⟨UInt64.le_of_lt h, UInt64.le_refl _⟩
  · exact ⟨UInt64.le_refl _, UInt64.not_lt.1 h⟩

theorem le_foldl_later (clock : Clock) (bundles : List Bundle) (expTime : UInt64) :
    expTime ≤ bundles.foldl (later clock) expTime ∧
      ∀ b ∈ bundles, clock.getExpireTime b ≤ bundles.foldl (later clock) expTime := by
  induction bundles generalizing expTime with
  | nil => exact ⟨UInt64.le_refl _, fun b hb => absurd hb List.not_mem_nil⟩
  | cons b bundles ih =>
      obtain ⟨hstart, hbundles⟩ := ih (later clock expTime b)
      obtain ⟨hle, hexpt⟩ := le_later clock expTime b
      refine ⟨UInt64.le_trans hle hstart, fun b' hb' => ?_⟩
      rcases List.mem_cons.1 hb' with rfl | hb'
      · exact UInt64.le_trans hexpt hstart
      · exact hbundles b' hb'

theorem foldl_later_mem (clock : Clock) (bundles : List Bundle) (expTime : UInt64) :
    bundles.foldl (later clock) expTime = expTime ∨
      ∃ b ∈ bundles, bundles.foldl (later clock) expTime = clock.getExpireTime b := by
  induction bundles generalizing expTime with
  | nil => exact Or.inl rfl
  | cons b bundles ih =>
      rw [List.foldl_cons]
      rcases ih (later clock expTime b) with h | ⟨b', hb', h⟩
      · rw [h, later]
        split_ifs
        · exact Or.inr ⟨b, List.mem_cons_self, rfl⟩
        · exact Or.inl rfl
      · exact Or.inr ⟨b', List.mem_cons_of_mem b hb', h⟩

/-- No bundle expires after a time exactly if the last one does not. -/
theorem latest_le_iff {clock : Clock} {bundles : List Bundle} {t : UInt64} :
    latest clock bundles ≤ t ↔ ∀ b ∈ bundles, clock.getExpireTime b ≤ t := by
  constructor
  · exact fun h b hb => UInt64.le_trans ((le_foldl_later clock bundles 0).2 b hb) h
  · intro h
    rw [latest]
    rcases foldl_later_mem clock bundles 0 with h' | ⟨b, hb, h'⟩
    · rw [h']
      exact UInt64.zero_le
    · rw [h']
      exact h b hb

/-- How much later than its timestamp and lifetime together the capsule expires. -/
def surplus (clock : Clock) (capsule : Bundle) (lifetime : UInt64) : UInt64 :=
  match capsule.getBlock Block.newAge.blocktype Body.age? with
  | some age =>
      if capsule.timestamp = 0 ∨ clock.badclock = true then
        clock.time - clock.getSeconds age - capsule.timestamp
      else if clock.hasQuality then clock.sigma lifetime else 0
  | none => if clock.hasQuality then clock.sigma lifetime else 0

theorem getExpireTime_eq (clock : Clock) (capsule : Bundle) :
    clock.getExpireTime capsule =
      capsule.timestamp + capsule.lifetime + surplus clock capsule capsule.lifetime := by
  have hplain : clock.expireTime capsule.timestamp capsule.lifetime =
      capsule.timestamp + capsule.lifetime +
        if clock.hasQuality then clock.sigma capsule.lifetime else 0 := by
    rw [Clock.expireTime]
    split_ifs
    · rfl
    · exact (UInt64.add_zero _).symm
  rw [Clock.getExpireTime, surplus]
  cases capsule.getBlock Block.newAge.blocktype Body.age? with
  | none => simp only [hplain, ite_self]
  | some age =>
      by_cases hage : capsule.timestamp = 0 ∨ clock.badclock = true
      · simp only [if_pos hage]
        grind
      · simp only [if_neg hage, hplain]

/-- Adding does not wrap around exactly if the sum is not smaller. -/
theorem le_add_iff (t d : UInt64) : t ≤ t + d ↔ t.toNat + d.toNat < 2 ^ 64 := by
  have := t.toNat_lt
  have := d.toNat_lt
  rw [UInt64.le_iff_toNat_le, UInt64.toNat_add]
  omega

/-! ### The table of offsets -/

end Utils

namespace DefaultSerializer

/-- What the prediction leaves out of the blocks, the length fields and the payload that is longer
than announced, is what it adds to the primary block: a length field that also counts the version
and the flags, and the dictionary of a bundle that is written without it. -/
def Compensates (b : Bundle) : Prop :=
  let predicted := create.rebuildDictionary b
  let written := Bundle.serializer create b
  predicted.blockLength b.toPrimaryBlock +
      SDNV.getLength (UInt64.ofNat
        (1 + SDNV.getLength b.procflags + predicted.blockLength b.toPrimaryBlock)) +
      (b.blocks.map fun c => predicted.announcedLength c + c.body.getLength).sum =
    written.blockLength b.toPrimaryBlock +
      SDNV.getLength (UInt64.ofNat (written.blockLength b.toPrimaryBlock)) +
      (b.blocks.map fun c => written.announcedLength c +
        SDNV.getLength (UInt64.ofNat c.body.getLength) + c.body.serialize.length).sum

instance (b : Bundle) : Decidable (Compensates b) := inferInstanceAs (Decidable (_ = _))

/-- **The predicted length of a bundle is right exactly if** the errors compensate each other. -/
theorem getLength_eq_iff {b : Bundle} (hlen : (b.allEIDs.map Dictionary.sizeOf).sum < 2 ^ 64) :
    create.getLength b = (create.writeBundle b).1.length ↔ Compensates b := by
  have hdictionary : (Bundle.serializer create b).dictionary.bytes.length < 2 ^ 64 :=
    (length_rebuildDictionary_le create b).trans_lt hlen
  have hwritten := length_writePrimary (gpos_serializer b) hdictionary b.toPrimaryBlock
  -- The type, the flags and the number of the EIDs are counted as they are written.
  let common (c : Block) : ℕ := 1 + SDNV.getLength c.procflags +
    if c.get Block.blockContainsEids then SDNV.getLength (UInt64.ofNat c.eids.length) else 0
  have hsize : (b.blocks.map (create.rebuildDictionary b).blockSize).sum =
      (b.blocks.map common).sum + (b.blocks.map fun c =>
        (create.rebuildDictionary b).announcedLength c + c.body.getLength).sum := by
    rw [← List.sum_map_add]
    refine congrArg List.sum (List.map_congr_left fun c _ => ?_)
    have hsame : { create.rebuildDictionary b with compressable := false } =
        create.rebuildDictionary b := rfl
    simp only [blockSize, announcedLength, common, hsame]
    split_ifs <;> omega
  have hblocks :
      (b.blocks.map fun c => ((Bundle.serializer create b).writeBlock c).length).sum =
        (b.blocks.map common).sum + (b.blocks.map fun c =>
          (Bundle.serializer create b).announcedLength c +
            SDNV.getLength (UInt64.ofNat c.body.getLength) + c.body.serialize.length).sum := by
    rw [← List.sum_map_add]
    refine congrArg List.sum (List.map_congr_left fun c _ => ?_)
    rw [length_writeBlock]
    simp only [common]
    omega
  have hpredicted : create.getLength b =
      (create.rebuildDictionary b).primaryLength b.toPrimaryBlock +
        (b.blocks.map (create.rebuildDictionary b).blockSize).sum := rfl
  rw [hpredicted, length_writeBundle, hwritten, hsize, hblocks, primaryLength, Compensates]
  omega

end DefaultSerializer

namespace Utils

open DefaultSerializer (create)

/-! ### The bundles of a capsule -/

/-- What is appended to the list, when the bundles are read one after the other. -/
def received : Bundle → List Bundle → List Bundle
  | _, [] => []
  | obj, b :: bundles => b.transported obj :: received (b.transported obj) bundles

/-- Every bundle that is no fragment has the fragment fields of the bundle before, and the first one
those of the object. -/
def Inherits : PrimaryBlock → List Bundle → Prop
  | _, [] => True
  | obj, b :: bundles => b.FragmentFields obj ∧ Inherits b.toPrimaryBlock bundles

/-- **The bundles are read one after the other.** -/
theorem readBundles_eq {env : DeserializerEnv} (henv : env.validator = Validator.accept)
    (hblob : env.blob.CopiesExactly) {bundles : List Bundle}
    (hbundles : ∀ b ∈ bundles, b.Transportable) {d : DefaultDeserializer}
    (hd : d.dictionary.good = true) (obj : Bundle) (st : List UInt8) :
    readBundles env bundles.length d obj
        ⟨bundles.flatMap fun b => (create.writeBundle b).1, false, false, st⟩ =
      (.ok (), received obj bundles) := by
  induction bundles generalizing d obj with
  | nil => rfl
  | cons b bundles ih =>
      obtain ⟨d', hd', hread⟩ := (hbundles b List.mem_cons_self).reads_transported obj
        (s := create) rfl hd henv hblob
      rw [List.length_cons, readBundles, List.flatMap_cons, hread]
      dsimp only
      rw [ih (fun b' hb' => hbundles b' (List.mem_cons_of_mem b hb')) hd', received]

/-- **The bundles come back exactly if** the transport changes none of them and no field is taken
from another one. -/
theorem received_eq_iff {bundles : List Bundle} (hbundles : ∀ b ∈ bundles, b.Transportable)
    (obj : Bundle) : received obj bundles = bundles.map Bundle.atWriting ↔
      (∀ b ∈ bundles, b.Intact) ∧ Inherits obj.toPrimaryBlock bundles := by
  induction bundles generalizing obj with
  | nil => exact iff_of_true rfl ⟨fun b hb => absurd hb List.not_mem_nil, trivial⟩
  | cons b bundles ih =>
      have hhead := (hbundles b List.mem_cons_self).transported_eq_iff obj
      have htail := ih (fun b' hb' => hbundles b' (List.mem_cons_of_mem b hb'))
      rw [received, List.map_cons, List.cons.injEq, Inherits, List.forall_mem_cons]
      constructor
      · rintro ⟨hb, hrest⟩
        rw [hb] at hrest
        obtain ⟨hintact, hfields⟩ := hhead.1 hb
        obtain ⟨hintacts, hinherits⟩ := (htail b.atWriting).1 hrest
        exact ⟨⟨hintact, hintacts⟩, hfields, hinherits⟩
      · rintro ⟨⟨hintact, hintacts⟩, hfields, hinherits⟩
        have hb := hhead.2 ⟨hintact, hfields⟩
        refine ⟨hb, ?_⟩
        rw [hb]
        exact (htail b.atWriting).2 ⟨hintacts, hinherits⟩

theorem reads_readOffsets (offsets : List UInt64) :
    (readOffsets offsets.length).Reads (offsets.flatMap SDNV.write) () := by
  induction offsets with
  | nil => exact Parser.reads_pure ()
  | cons offset offsets ih => exact (SDNV.reads_read offset).bind ih

/-- **What is found in a payload** with a table of the right length. -/
theorem decapsule_eq {env : DeserializerEnv} (henv : env.validator = Validator.accept)
    (hblob : env.blob.CopiesExactly) {bundles : List Bundle}
    (hbundles : ∀ b ∈ bundles, b.Transportable) (hne : bundles ≠ [])
    (hlen : bundles.length < 2 ^ 64) {offsets : List UInt64}
    (hoffsets : offsets.length = bundles.length - 1) {capsule : Bundle}
    (hpayload : capsule.getPayload = some (SDNV.write (UInt64.ofNat bundles.length) ++
      (offsets.flatMap SDNV.write ++ bundles.flatMap fun b => (create.writeBundle b).1)))
    (timestamp sequencenumber : UInt64) (before : List Bundle) :
    decapsule env timestamp sequencenumber capsule before =
      (.ok (), before ++ received (Bundle.create timestamp sequencenumber) bundles) := by
  have htable : readTable.Reads
      (SDNV.write (UInt64.ofNat bundles.length) ++ offsets.flatMap SDNV.write)
      (UInt64.ofNat bundles.length) := by
    refine (SDNV.reads_read _).bind ?_
    rw [toNat_turns hne hlen, ← hoffsets]
    exact (reads_readOffsets offsets).then_nil (Parser.reads_pure _)
  have hrun := htable (bundles.flatMap fun b => (create.writeBundle b).1) []
  rw [List.append_assoc] at hrun
  have hcount : (UInt64.ofNat bundles.length).toNat = bundles.length := EID.toNat_ofNat_of_lt hlen
  have hread := readBundles_eq henv hblob hbundles (d := DefaultDeserializer.create) rfl
    (Bundle.create timestamp sequencenumber) []
  rw [decapsule, hpayload]
  simp only [InStream.ofBytes, hrun, hcount, hread]

/-! ### The round trip -/

/-- The bundles of the capsule come back in order, as they were written, the table in front of them
holds the lengths of all but the last one, and none of them expires after the capsule. -/
structure Carries (clock : Clock) (env : DeserializerEnv) (timestamp sequencenumber : UInt64)
    (capsule : Bundle) (bundles : List Bundle) : Prop where
  back : ∀ before, decapsule env timestamp sequencenumber capsule before =
    (.ok (), before ++ bundles.map Bundle.atWriting)
  table : ∃ offsets : List UInt64,
    offsets.map UInt64.toNat =
      bundles.dropLast.map (fun b => (create.writeBundle b).1.length) ∧
    capsule.getPayload = some (SDNV.write (UInt64.ofNat bundles.length) ++
      (offsets.flatMap SDNV.write ++ bundles.flatMap fun b => (create.writeBundle b).1))
  expiry : ∀ b ∈ bundles, clock.getExpireTime b ≤ clock.getExpireTime capsule

/-- The round trip of the bundles through the capsule. -/
def Encapsulates (clock : Clock) (env : DeserializerEnv) (timestamp sequencenumber : UInt64)
    (capsule : Bundle) (bundles : List Bundle) : Prop :=
  ∃ filled, encapsule clock capsule bundles = .ok filled ∧
    Carries clock env timestamp sequencenumber filled bundles

/-- The capsule and the bundles for which the round trip is right. -/
structure Encapsulable (clock : Clock) (obj : PrimaryBlock) (capsule : Bundle)
    (bundles : List Bundle) : Prop where
  nonempty : bundles ≠ []
  room : HasRoom capsule
  lengths : ∀ b ∈ bundles.dropLast, DefaultSerializer.Compensates b
  intact : ∀ b ∈ bundles, b.Intact
  inherits : Inherits obj bundles
  lifetime : (latest clock bundles).toNat +
    (surplus clock capsule (latest clock bundles - capsule.timestamp)).toNat < 2 ^ 64

/-- The capsule that `encapsule` leaves. -/
def filled (clock : Clock) (capsule : Bundle) (bundles : List Bundle) (ref : Bytes) : Bundle :=
  { fill capsule ref with
    toPrimaryBlock :=
      { (fill capsule ref).toPrimaryBlock.set PrimaryBlock.custodyRequested
          (bundles.any fun b => b.get PrimaryBlock.custodyRequested) with
        lifetime := latest clock bundles - (fill capsule ref).timestamp } }

theorem timestamp_fill (capsule : Bundle) (ref : Bytes) :
    (fill capsule ref).timestamp = capsule.timestamp := by
  rcases fill_eq capsule ref with ⟨xs, a, ys, blob, -, -, -, -, hfill⟩ | ⟨-, hfill⟩
  · rw [hfill]
  · rw [hfill]
    rfl

/-- **The capsule lives long enough exactly if** its expiration time does not wrap around. -/
theorem expiry_iff (clock : Clock) (capsule : Bundle) (bundles : List Bundle) (ref : Bytes) :
    (∀ b ∈ bundles, clock.getExpireTime b ≤
        clock.getExpireTime (filled clock capsule bundles ref)) ↔
      (latest clock bundles).toNat +
        (surplus clock capsule (latest clock bundles - capsule.timestamp)).toNat < 2 ^ 64 := by
  have hage : (filled clock capsule bundles ref).getBlock Block.newAge.blocktype Body.age? =
      capsule.getBlock Block.newAge.blocktype Body.age? := getBlock_fill_age capsule ref
  have htimestamp : (filled clock capsule bundles ref).timestamp = capsule.timestamp :=
    timestamp_fill capsule ref
  have hlifetime : (filled clock capsule bundles ref).lifetime =
      latest clock bundles - capsule.timestamp := by
    rw [← timestamp_fill capsule ref]
    rfl
  have hsum : capsule.timestamp + (latest clock bundles - capsule.timestamp) =
      latest clock bundles := by grind
  rw [← latest_le_iff, ← le_add_iff, getExpireTime_eq, htimestamp, hlifetime, hsum, surplus,
    surplus, hage, htimestamp]

/-- **The table is right exactly if** the lengths of all bundles but the last one are predicted. -/
theorem table_iff {bundles : List Bundle} (hbundles : ∀ b ∈ bundles, b.Transportable)
    (hsizes : ∀ b ∈ bundles, create.getLength b < 2 ^ 64 ∧
      (create.writeBundle b).1.length < 2 ^ 64) {capsule : Bundle}
    (hpayload : capsule.getPayload = some (SDNV.write (UInt64.ofNat bundles.length) ++
      ((bundles.dropLast.flatMap fun b => SDNV.write (UInt64.ofNat (create.getLength b))) ++
        bundles.flatMap fun b => (create.writeBundle b).1))) :
    (∃ offsets : List UInt64,
      offsets.map UInt64.toNat =
        bundles.dropLast.map (fun b => (create.writeBundle b).1.length) ∧
      capsule.getPayload = some (SDNV.write (UInt64.ofNat bundles.length) ++
        (offsets.flatMap SDNV.write ++ bundles.flatMap fun b => (create.writeBundle b).1))) ↔
      ∀ b ∈ bundles.dropLast, DefaultSerializer.Compensates b := by
  have hpredicted : (bundles.dropLast.map fun b => UInt64.ofNat (create.getLength b)).map
      UInt64.toNat = bundles.dropLast.map create.getLength := by
    rw [List.map_map]
    exact List.map_congr_left fun b hb =>
      EID.toNat_ofNat_of_lt (hsizes b (List.mem_of_mem_dropLast hb)).1
  have hwritten : (bundles.dropLast.flatMap fun b =>
      SDNV.write (UInt64.ofNat (create.getLength b))) =
      (bundles.dropLast.map fun b => UInt64.ofNat (create.getLength b)).flatMap SDNV.write :=
    (List.flatMap_map ..).symm
  have hlengths : bundles.dropLast.map create.getLength =
      bundles.dropLast.map (fun b => (create.writeBundle b).1.length) ↔
      ∀ b ∈ bundles.dropLast, DefaultSerializer.Compensates b := by
    rw [List.map_inj_left]
    exact forall₂_congr fun b hb =>
      DefaultSerializer.getLength_eq_iff (hbundles b (List.mem_of_mem_dropLast hb)).size_lt
  rw [← hlengths, hpayload, hwritten]
  constructor
  · rintro ⟨offsets, hmap, heq⟩
    have htable := List.append_cancel_right (List.append_cancel_left (Option.some.inj heq))
    have hsame := (PrefixFree.determines (P := fun _ : UInt64 => True)
      (Parser.prefixFree fun v _ => SDNV.reads_read v) id).map_eq_of_flatMap_eq
      (fun v _ hnil => absurd (congrArg List.length hnil) (by
        rw [SDNV.length_write]
        exact (SDNV.getLength_pos v).ne')) (fun _ _ => trivial) (fun _ _ => trivial) htable
    rw [List.map_id, List.map_id] at hsame
    rw [← hpredicted, hsame, hmap]
  · intro h
    exact ⟨_, hpredicted.trans h, rfl⟩

/-- **The round trip of bundles through a capsule is right exactly if** the list is not empty, the
capsule has room for the payload, the lengths of all bundles but the last one are predicted, the
transport changes no bundle, none takes the fragment fields of another one, and the expiration time
of the capsule does not wrap around. -/
theorem encapsulates_iff (clock : Clock) {env : DeserializerEnv}
    (henv : env.validator = Validator.accept) (hblob : env.blob.CopiesExactly)
    (timestamp sequencenumber : UInt64) (capsule : Bundle) {bundles : List Bundle}
    (hbundles : ∀ b ∈ bundles, b.Transportable) (hlen : bundles.length < 2 ^ 64)
    (hsizes : ∀ b ∈ bundles, create.getLength b < 2 ^ 64 ∧
      (create.writeBundle b).1.length < 2 ^ 64) :
    Encapsulates clock env timestamp sequencenumber capsule bundles ↔
      Encapsulable clock (PrimaryBlock.create timestamp sequencenumber) capsule bundles := by
  by_cases hne : bundles = []
  · subst hne
    refine iff_of_false ?_ fun h => h.nonempty rfl
    rintro ⟨f, hf, -⟩
    rw [encapsule, encapsuleRef_nil] at hf
    exact nomatch hf
  obtain ⟨ref, href⟩ : ∃ ref, ref = SDNV.write (UInt64.ofNat bundles.length) ++
      ((bundles.dropLast.flatMap fun b => SDNV.write (UInt64.ofNat (create.getLength b))) ++
        bundles.flatMap fun b => (create.writeBundle b).1) := ⟨_, rfl⟩
  have hencapsule : encapsule clock capsule bundles = .ok (filled clock capsule bundles ref) := by
    rw [encapsule, encapsuleRef_eq hne hlen, ← href]
    rfl
  have hexpiry := expiry_iff clock capsule bundles ref
  have hpayload : (filled clock capsule bundles ref).getPayload =
      if HasRoom capsule then some ref else none := getPayload_fill capsule ref
  by_cases hroom : HasRoom capsule
  · rw [if_pos hroom] at hpayload
    have hpayload := hpayload.trans (congrArg some href)
    have htable := table_iff hbundles hsizes hpayload
    have hlast : (bundles.dropLast.flatMap fun b =>
        SDNV.write (UInt64.ofNat (create.getLength b))) =
        (bundles.dropLast.map fun b => UInt64.ofNat (create.getLength b)).flatMap SDNV.write :=
      (List.flatMap_map ..).symm
    rw [hlast] at hpayload
    have hback := decapsule_eq henv hblob hbundles hne hlen
      (by rw [List.length_map, List.length_dropLast]) hpayload timestamp sequencenumber
    have hreceived := received_eq_iff hbundles (Bundle.create timestamp sequencenumber)
    constructor
    · rintro ⟨f, hf, hcarries⟩
      obtain rfl := Except.ok.inj (hencapsule.symm.trans hf)
      have hsame : received (Bundle.create timestamp sequencenumber) bundles =
          bundles.map Bundle.atWriting := by
        have happended := hcarries.back []
        rw [hback] at happended
        exact (Prod.mk.inj happended).2
      obtain ⟨hintact, hinherits⟩ := hreceived.1 hsame
      exact ⟨hne, hroom, htable.1 hcarries.table, hintact, hinherits,
        hexpiry.1 hcarries.expiry⟩
    · intro h
      refine ⟨_, hencapsule, fun before => ?_, htable.2 h.lengths, hexpiry.2 h.lifetime⟩
      rw [hback, hreceived.2 ⟨h.intact, h.inherits⟩]
  · rw [if_neg hroom] at hpayload
    refine iff_of_false ?_ fun h => hroom h.room
    rintro ⟨f, hf, hcarries⟩
    obtain rfl := Except.ok.inj (hencapsule.symm.trans hf)
    obtain ⟨offsets, -, hsome⟩ := hcarries.table
    rw [hpayload] at hsome
    exact nomatch hsome

/-- A bundle with two bytes in its payload, from the node of the given name. -/
def sampleFrom (ssp : Bytes) : Bundle :=
  { Bundle.sample [Bundle.samplePayload Block.lastBlock []] with
    source := ⟨EID.defaultScheme, ssp⟩ }

/-- A name with which the length field of the primary block would be longer, if it also counted the
version and the flags. -/
def carryingName : Bytes := List.replicate 103 0x61

theorem transportable_sampleFrom {ssp : Bytes} (h : Dictionary.Nameable ⟨EID.defaultScheme, ssp⟩) :
    (sampleFrom ssp).Transportable where
  serializable := by
    refine ⟨List.cons_ne_nil _ _, rfl, fun c hc => ?_,
      show FlagWord.has 0 PrimaryBlock.appdataIsAdmrecord = false by decide⟩
    obtain rfl := List.mem_singleton.1 hc
    exact ⟨by decide, fun _ h => absurd h (by simp [Bundle.samplePayload, Body.security?]),
      by decide, by decide, by decide, by decide⟩
  nameable := by
    have hnone : Dictionary.Nameable EID.none := by decide
    intro _ e he
    simp only [Bundle.allEIDs, Bundle.headerEIDs, sampleFrom, Bundle.sample, List.flatMap_cons,
      Bundle.samplePayload, List.flatMap_nil, List.append_nil, List.mem_cons, List.not_mem_nil,
      or_false] at he
    rcases he with rfl | rfl | rfl | rfl
    · exact hnone
    · exact h
    · exact hnone
    · exact hnone
  size_lt := by
    have hlen := h.ssp_lt
    simp only [Bundle.allEIDs, Bundle.headerEIDs, sampleFrom, Bundle.sample, PrimaryBlock.create,
      Bundle.samplePayload, List.flatMap_cons, List.flatMap_nil, List.append_nil, List.map_cons,
      List.map_nil, List.sum_cons, List.sum_nil, Dictionary.sizeOf, EID.none, EID.noneSsp,
      EID.defaultScheme, ascii, List.length_cons, List.length_nil] at hlen ⊢
    omega

theorem encapsulates_iff_sample :
    Encapsulates (Clock.showing 10) (.default BLOB.exact ⟨0, 0⟩) 0 0 (Bundle.sample [])
      [sampleFrom carryingName, sampleFrom [0x61]] := by
  have hbundles : ∀ b ∈ [sampleFrom carryingName, sampleFrom [0x61]], b.Transportable := by
    intro b hb
    simp only [List.mem_cons, List.not_mem_nil, or_false] at hb
    rcases hb with rfl | rfl
    · exact transportable_sampleFrom (by decide)
    · exact transportable_sampleFrom (by decide)
  refine (encapsulates_iff _ rfl BLOB.exact_copiesExactly 0 0 _ hbundles (by decide)
    (by decide +kernel)).2 ⟨by decide, by decide, by decide +kernel, ?_, ?_, by decide +kernel⟩
  · intro b hb
    simp only [List.mem_cons, List.not_mem_nil, or_false] at hb
    rcases hb with rfl | rfl
    · exact ⟨by decide +kernel, by decide, by decide⟩
    · exact ⟨by decide, by decide, by decide⟩
  · exact ⟨fun _ => ⟨rfl, rfl⟩, fun _ => ⟨rfl, rfl⟩, trivial⟩

/-- **No bundles are not encapsulated**: the offset of the first one is written all the same. -/
theorem not_encapsulates_nil :
    ¬ Encapsulates (Clock.showing 10) (.default BLOB.exact ⟨0, 0⟩) 0 0 (Bundle.sample []) [] := by
  rintro ⟨f, hf, -⟩
  rw [encapsule, encapsuleRef_nil] at hf
  exact nomatch hf

end Utils

end IbrDtn
