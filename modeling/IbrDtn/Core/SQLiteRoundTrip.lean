import IbrDtn.Core.SQLiteTables

/-!
# A bundle through the storage in a database

A bundle that is stored and loaded again passes through typed columns and through one file for each
block.  A payload block that was not linked is written with its header and linked when it is loaded,
texts are parsed again, and a bundle that is no fragment gets another row whenever it is stored.
This file says which bundles come back as they were.

## Main definitions

* `SQLiteBundleStorage.RoundTrip` : a bundle is stored some times, and comes back once.
* `SQLiteBundleStorage.KeptInFile`, `SQLiteBundleStorage.Kept` : the blocks and bundles that come
  back.

## Main results

* `SQLiteBundleStorage.getBlocks_written` : what the blocks of a bundle are when they are loaded.
* `SQLiteBundleStorage.roundTrip_iff` : the bundles that come back.
-/

namespace IbrDtn

open Block (lastBlock newAge payloadType)

/-- What is compared of a block: its type, flags, EIDs and payload bytes. -/
def Block.content (b : Block) : UInt8 × UInt64 × List EID × Bytes :=
  (b.blocktype, b.procflags, b.eids, b.body.serialize)

/-- What is compared of a primary block. Offset and length belong to fragments only. -/
def PrimaryBlock.fields (p : PrimaryBlock) :
    (EID × EID × EID × EID) × UInt64 × UInt64 × UInt64 × UInt64 × Option (UInt64 × UInt64) :=
  ((p.source, p.destination, p.reportto, p.custodian), p.procflags, p.timestamp,
    p.sequencenumber, p.lifetime,
    if p.get PrimaryBlock.fragment then some (p.fragmentoffset, p.appdatalength) else none)

/-- The bundle with blocks behind its own, one after another. -/
def Bundle.appendAll (b : Bundle) (blocks : List Block) : Bundle := blocks.foldl Bundle.append b

namespace SQLiteBundleStorage

/-! ### Appending -/

theorem appendAll_concat (b : Bundle) (xs : List Block) (x : Block) :
    b.appendAll (xs ++ [x]) = (b.appendAll xs).append x := by
  rw [Bundle.appendAll, List.foldl_append]
  rfl

theorem toPrimaryBlock_appendAll (b : Bundle) (xs : List Block) :
    (b.appendAll xs).toPrimaryBlock = b.toPrimaryBlock := by
  induction xs generalizing b with
  | nil => rfl
  | cons x xs ih => exact ih (b.append x)

/-- Every block but the last one loses the mark of the last block. -/
theorem blocks_appendAll {b : Bundle} (hb : b.blocks = []) (xs : List Block) (x : Block) :
    (b.appendAll (xs ++ [x])).blocks =
      xs.map (fun y => y.set lastBlock false) ++ [x] := by
  induction xs using List.reverseRecOn generalizing x with
  | nil =>
      rw [List.nil_append, List.map_nil]
      change BlockList.unmarkBack b.blocks ++ [x] = _
      rw [hb]
      rfl
  | append_singleton xs y ih =>
      rw [appendAll_concat]
      change BlockList.unmarkBack (b.appendAll (xs ++ [y])).blocks ++ [x] = _
      rw [ih, BlockList.unmarkBack, List.getLast?_concat]
      dsimp only
      rw [List.dropLast_concat, List.map_append]
      rfl

/-- The types of the blocks stay. -/
theorem types_appendAll (b : Bundle) (xs : List Block) :
    (b.appendAll xs).blocks.map Block.blocktype =
      b.blocks.map Block.blocktype ++ xs.map Block.blocktype := by
  have hunmark (bs : List Block) :
      (BlockList.unmarkBack bs).map Block.blocktype = bs.map Block.blocktype := by
    rcases List.eq_nil_or_concat bs with rfl | ⟨bs, last, rfl⟩
    · rfl
    · rw [BlockList.unmarkBack, List.concat_eq_append, List.getLast?_concat]
      dsimp only
      rw [List.dropLast_concat, List.map_append, List.map_append]
      rfl
  induction xs generalizing b with
  | nil => simp [Bundle.appendAll]
  | cons x xs ih =>
      refine (ih (b.append x)).trans ?_
      rw [Bundle.append, List.map_append, hunmark]
      simp

/-! ### Loading -/

/-- Nothing but hard-links fails while a bundle is loaded. -/
structure GetEnv.Reads (env : GetEnv) : Prop where
  link : ∀ path, ∃ linked, env.link path = .ok linked
  blob : env.deserializer.blob.CopiesExactly
  validator : ∀ b size, env.deserializer.validator.block b size = .ok ()

/-- The block is taken into a bundle that is loaded, as every block but a payload whose file cannot be
linked. -/
def GetEnv.Takes (env : GetEnv) (p : Block × BlockEnv) : Prop :=
  p.1.blocktype = payloadType → env.link (p.2.path p.1) = .ok true

/-- The payload bytes of a block come back: a payload is linked when it is stored, and an age block has not
become older by the time between the last change of its file and the last access to it. -/
def PayloadKept (env : GetEnv) (p : Block × BlockEnv) : Prop :=
  if p.1.blocktype = payloadType then
    (∃ blob, p.1.body = .payload blob) ∧ p.2.access = .linked
  else
    p.1.blocktype = newAge.blocktype → env.age (p.2.path p.1) * 1000000 = 0

/-- **What a block is when it is loaded.** -/
structure Restored (env : GetEnv) (p : Block × BlockEnv) (x : Block) : Prop where
  blocktype : x.blocktype = p.1.blocktype
  procflags : x.procflags =
    if p.1.blocktype = payloadType then lastBlock else p.1.markedFlags
  eids : x.eids = if p.1.blocktype = payloadType then [] else p.1.textEIDs
  payload : x.body.serialize = p.1.body.serialize ↔ PayloadKept env p

/-- Only the age block is of the class of the age blocks. -/
theorem classType_receiver {type : UInt8} :
    (Block.receiver type).body.classType = some 10 ↔ type = newAge.blocktype := by
  constructor
  · intro h
    rw [Block.receiver] at h
    cases hf : Factory.get type with
    | some n =>
        rw [hf] at h
        dsimp only at h
        have htype : n.blocktype = type := eq_of_beq (List.find?_some hf :)
        have hmem := List.mem_of_find?_eq_some hf
        simp only [List.mem_cons, List.not_mem_nil, or_false] at hmem
        rcases hmem with rfl | rfl | rfl | rfl | rfl | rfl | rfl | rfl
        · exact htype.symm
        all_goals exact absurd h (by decide)
    | none =>
        rw [hf] at h
        dsimp only at h
        split_ifs at h
        · exact absurd h (by decide)
        · exact absurd h (by decide)
  · rintro rfl
    rfl

/-- An age block that has become older has other payload bytes. -/
theorem serialize_addSeconds (a : AgeBlock) (seconds : UInt64) :
    (Body.age (a.addSeconds seconds)).serialize = (Body.age a).serialize ↔
      seconds * 1000000 = 0 := by
  rw [Body.serialize, Body.serialize, AgeBlock.addSeconds]
  dsimp only
  constructor
  · intro h
    have heq := (SDNV.reads_read _).unique (h ▸ SDNV.reads_read _)
    rw [UInt64.add_assoc, UInt64.add_comm (seconds * 1000000), ← UInt64.add_assoc] at heq
    exact UInt64.add_eq_left.1 heq.symm
  · intro h
    rw [h, UInt64.add_zero]

/-- **One turn of the loop over the rows** appends what is in the file, or leaves the block out. -/
theorem getBlock_written {env : GetEnv} (henv : env.Reads) {k : RowKey} {number : ℕ} {block : Block}
    {store : BlockEnv} {files : Directory Bytes Bytes} {row : BlockRow}
    (hrow : Written k number block store files row) (hblock : block.Separable)
    (htext : columnText row.filename = row.filename) (bundle : Bundle) :
    (env.Takes (block, store) → ∃ x, getBlock env files row bundle = .ok (bundle.append x) ∧
        Restored env (block, store) x) ∧
      (¬ env.Takes (block, store) → getBlock env files row bundle = .ok bundle) := by
  have hcontent := hrow.content
  rw [getBlock, htext, hrow.blocktype, hrow.filename]
  rw [hrow.filename] at hcontent
  dsimp only
  by_cases hpayload : block.blocktype = payloadType
  · rw [if_pos hpayload, hcontent]
    refine ⟨fun htakes => ?_, fun htakes => ?_⟩
    · rw [htakes hpayload]
      dsimp only
      rw [pushBack_eq_append]
      refine ⟨_, rfl, hpayload.symm, ?_, ?_, ?_⟩
      · rw [if_pos hpayload]
        exact (show FlagWord.assign 0 lastBlock true = lastBlock by decide)
      · rw [if_pos hpayload]
        rfl
      · rw [PayloadKept, if_pos hpayload]
        change fileContent block store = block.body.serialize ↔ _
        rw [fileContent]
        split
        · next blob hbody haccess => simp [hbody, haccess, Body.serialize]
        · next hother =>
            constructor
            · intro heq
              have hlt := SeparateSerializer.length_lt_writeBlock block
              rw [heq] at hlt
              exact absurd hlt (Nat.lt_irrefl _)
            · rintro ⟨⟨blob, hbody⟩, haccess⟩
              exact absurd haccess (hother blob hbody)
    · obtain ⟨linked, hlinked⟩ := henv.link (store.path block)
      have hfalse : linked = false := by
        rw [← Bool.not_eq_true]
        rintro rfl
        exact htakes fun _ => hlinked
      rw [hlinked, hfalse]
  · rw [fileContent_of_ne hblock hpayload] at hcontent
    refine ⟨fun _ => ?_, fun htakes => absurd (fun h => absurd h hpayload) htakes⟩
    obtain ⟨body', hload, hserialize, hclass⟩ :=
      SeparateDeserializer.loads_readBlock henv.blob henv.validator hblock hpayload bundle
    have hrun := hload [] env.stale
    rw [List.append_nil] at hrun
    rw [if_neg hpayload, openFile, hcontent]
    dsimp only
    rw [hrun]
    dsimp only
    have hage : body'.classType = some 10 ↔ block.blocktype = newAge.blocktype := by
      rw [hclass, classType_receiver]
    split
    · next a =>
        rw [append_setBack]
        refine ⟨_, rfl, rfl, (if_neg hpayload).symm, (if_neg hpayload).symm, ?_⟩
        have htype : block.blocktype = newAge.blocktype := hage.1 rfl
        rw [PayloadKept, if_neg hpayload, ← hserialize]
        exact (serialize_addSeconds a _).trans ⟨fun h _ => h, fun h => h htype⟩
    · next hbody =>
        refine ⟨_, rfl, rfl, (if_neg hpayload).symm, (if_neg hpayload).symm, ?_⟩
        rw [PayloadKept, if_neg hpayload]
        refine ⟨fun _ htype => ?_, fun _ => hserialize⟩
        have hclass' := hage.2 htype
        cases body' with
        | age a => exact absurd rfl (hbody a)
        | extension => exact absurd hclass' (by simp [Body.classType])
        | _ => exact absurd hclass' (by simp [Body.classType, payloadType])

open scoped Classical in
/-- **The loop over the rows** appends what is taken of the blocks, in their order. -/
theorem getBlocks_written {env : GetEnv} (henv : env.Reads) {k : RowKey}
    {files : Directory Bytes Bytes} {pairs : List (Block × BlockEnv)} {rows : List BlockRow}
    (hrows : List.Forall₂ (fun p row => (∃ number, Written k number p.1 p.2 files row) ∧
      columnText row.filename = row.filename) pairs rows)
    (hpairs : ∀ p ∈ pairs, p.1.Separable) (bundle : Bundle) :
    ∃ xs, getBlocks env files rows bundle = .ok (bundle.appendAll xs) ∧
      List.Forall₂ (Restored env) (pairs.filter fun p => decide (env.Takes p)) xs := by
  induction hrows generalizing bundle with
  | nil => exact ⟨[], rfl, .nil⟩
  | @cons p row pairs rows hrow _ ih =>
      obtain ⟨⟨number, hwritten⟩, htext⟩ := hrow
      obtain ⟨htaken, hleft⟩ := getBlock_written henv hwritten (hpairs p List.mem_cons_self) htext
        bundle
      have hrest : ∀ q ∈ pairs, q.1.Separable := fun q hq => hpairs q (List.mem_cons_of_mem _ hq)
      rw [getBlocks]
      by_cases htakes : env.Takes p
      · obtain ⟨x, hx, hrestored⟩ := htaken htakes
        obtain ⟨xs, hxs, hall⟩ := ih hrest (bundle.append x)
        refine ⟨x :: xs, ?_, ?_⟩
        · rw [hx]
          exact hxs
        · rw [List.filter_cons_of_pos (by simpa using htakes)]
          exact .cons hrestored hall
      · obtain ⟨xs, hxs, hall⟩ := ih hrest bundle
        refine ⟨xs, ?_, ?_⟩
        · rw [hleft htakes]
          exact hxs
        · rw [List.filter_cons_of_neg (by simpa using htakes)]
          exact hall

/-! ### Comparing blocks -/

/-- **A block is kept in its file**: a payload block if it is linked both ways, carries no EIDs and no flag
but that of the last block, and every other one if its EIDs are denoted by their texts, its flags
are those that the reader leaves, and it does not become older. -/
def KeptInFile (env : GetEnv) (last : Bool) (p : Block × BlockEnv) : Prop :=
  if p.1.blocktype = payloadType then
    ((∃ blob, p.1.body = .payload blob) ∧ p.2.access = .linked) ∧ p.1.eids = [] ∧
      p.1.procflags = (if last then lastBlock else 0) ∧ env.link (p.2.path p.1) = .ok true
  else
    (p.1.blocktype = newAge.blocktype → env.age (p.2.path p.1) * 1000000 = 0) ∧
      p.1.textEIDs = p.1.eids ∧
        (if last then p.1.markedFlags
          else FlagWord.assign p.1.markedFlags lastBlock false) = p.1.procflags

theorem KeptInFile.takes {env : GetEnv} {last : Bool} {p : Block × BlockEnv}
    (h : KeptInFile env last p) : env.Takes p := by
  intro hpayload
  rw [KeptInFile, if_pos hpayload] at h
  exact h.2.2.2

/-- A block that is loaded is as it was exactly if it is kept in its file. -/
theorem Restored.content_iff {env : GetEnv} {p : Block × BlockEnv} {x : Block}
    (h : Restored env p x) (htakes : env.Takes p) (last : Bool) :
    (if last then x else x.set lastBlock false).content = p.1.content ↔
      KeptInFile env last p := by
  have hcontent : (if last then x else x.set lastBlock false).content =
      (x.blocktype, if last then x.procflags else FlagWord.assign x.procflags lastBlock false,
        x.eids, x.body.serialize) := by
    cases last <;> rfl
  rw [hcontent, Block.content, Prod.mk.injEq, Prod.mk.injEq, Prod.mk.injEq, h.payload, h.blocktype,
    h.procflags, h.eids, PayloadKept, KeptInFile]
  by_cases hpayload : p.1.blocktype = payloadType
  · have hflags : (if last then lastBlock
        else FlagWord.assign lastBlock lastBlock false) =
        (if last then lastBlock else 0) := by
      cases last
      · decide
      · rfl
    simp only [if_pos hpayload, hflags]
    exact ⟨fun ⟨_, hprocflags, heids, hbody⟩ =>
        ⟨hbody, heids.symm, hprocflags.symm, htakes hpayload⟩,
      fun ⟨hbody, heids, hprocflags, _⟩ => ⟨trivial, hprocflags.symm, heids.symm, hbody⟩⟩
  · simp only [if_neg hpayload]
    exact ⟨fun ⟨_, hprocflags, heids, hage⟩ => ⟨hage, heids, hprocflags⟩,
      fun ⟨hage, heids, hprocflags⟩ => ⟨trivial, hprocflags, heids, hage⟩⟩

/-- The types of several blocks. -/
theorem types_of_forall₂ {env : GetEnv} {pairs : List (Block × BlockEnv)} {xs : List Block}
    (h : List.Forall₂ (Restored env) pairs xs) :
    xs.map Block.blocktype = pairs.map fun p => p.1.blocktype := by
  induction h with
  | nil => rfl
  | cons hrestored _ ih => rw [List.map_cons, List.map_cons, hrestored.blocktype, ih]

/-- Several blocks, none of them the last one. -/
theorem contents_iff_of_forall₂ {env : GetEnv} {pairs : List (Block × BlockEnv)} {xs : List Block}
    (h : List.Forall₂ (Restored env) pairs xs) (htakes : ∀ p ∈ pairs, env.Takes p) :
    (xs.map fun x => (x.set lastBlock false).content) = pairs.map (fun p => p.1.content) ↔
      ∀ p ∈ pairs, KeptInFile env false p := by
  induction h with
  | nil => simp
  | @cons p x pairs xs hrestored _ ih =>
      rw [List.map_cons, List.map_cons, List.cons.injEq, List.forall_mem_cons,
        ih fun q hq => htakes q (List.mem_cons_of_mem _ hq)]
      exact and_congr_left' (hrestored.content_iff (htakes p List.mem_cons_self) false)

open scoped Classical in
/-- The blocks that are taken are all blocks, and nothing is in front of them, if the types agree. -/
theorem takes_of_types {env : GetEnv} {pairs : List (Block × BlockEnv)} {types : List UInt8}
    (htypes : types = [] ∨ types = [newAge.blocktype])
    (h : types ++ (pairs.filter fun p => decide (env.Takes p)).map (fun p => p.1.blocktype) =
      pairs.map fun p => p.1.blocktype) : types = [] ∧ ∀ p ∈ pairs, env.Takes p := by
  have hperm := (List.filter_append_perm (fun p => decide (env.Takes p)) pairs).map
    fun p => p.1.blocktype
  rw [← h, List.map_append] at hperm
  have hleft := (List.perm_append_left_iff _).1 (hperm.trans List.perm_append_comm)
  have hpayload {p : Block × BlockEnv} (hp : p ∈ pairs) (htakes : ¬ env.Takes p) :
      p.1.blocktype = payloadType ∧ p.1.blocktype ∈ types := by
    refine ⟨?_, hleft.mem_iff.1 (List.mem_map.2 ⟨p, List.mem_filter.2 ⟨hp, ?_⟩, rfl⟩)⟩
    · by_contra hne
      exact htakes fun h => absurd h hne
    · simpa using htakes
  have hall : ∀ p ∈ pairs, env.Takes p := by
    intro p hp
    by_contra htakes
    obtain ⟨htype, hmem⟩ := hpayload hp htakes
    rcases htypes with rfl | rfl
    · exact absurd hmem List.not_mem_nil
    · rw [htype] at hmem
      exact absurd hmem (by decide)
  have hnil : (pairs.filter fun p => !decide (env.Takes p)) = [] := by
    rw [List.filter_eq_nil_iff]
    intro p hp
    simpa using hall p hp
  rw [hnil, List.map_nil] at hleft
  exact ⟨hleft.nil_eq.symm, hall⟩

open scoped Classical in
/-- **The blocks that come back are the same** exactly if nothing is in front of them and each was kept in
its file. -/
theorem contents_iff {env : GetEnv} {pairs : List (Block × BlockEnv)} {xs : List Block}
    (h : List.Forall₂ (Restored env) (pairs.filter fun p => decide (env.Takes p)) xs)
    {bundle : Bundle} (hbundle : bundle.blocks.map Block.blocktype = [] ∨
      bundle.blocks.map Block.blocktype = [newAge.blocktype]) (hne : pairs ≠ []) :
    (bundle.appendAll xs).blocks.map Block.content = pairs.map (fun p => p.1.content) ↔
      bundle.blocks = [] ∧ (∀ p ∈ pairs.dropLast, KeptInFile env false p) ∧
        ∀ p ∈ pairs.getLast?, KeptInFile env true p := by
  obtain ⟨ps, p, rfl⟩ : ∃ ps p, pairs = ps ++ [p] :=
    ⟨_, _, (List.dropLast_append_getLast hne).symm⟩
  have hblocks (hnil : bundle.blocks = []) (htakes : ∀ q ∈ ps ++ [p], env.Takes q) :
      (bundle.appendAll xs).blocks.map Block.content = (ps ++ [p]).map (fun p => p.1.content) ↔
        (∀ q ∈ ps, KeptInFile env false q) ∧ KeptInFile env true p := by
    rw [List.filter_eq_self.2 fun q hq => decide_eq_true (htakes q hq)] at h
    have hlength := h.length_eq
    rw [List.length_append, List.length_singleton] at hlength
    obtain ⟨ys, y, rfl⟩ : ∃ ys y, xs = ys ++ [y] := by
      have hne' : xs ≠ [] := by
        rintro rfl
        simp at hlength
      exact ⟨_, _, (List.dropLast_append_getLast hne').symm⟩
    rw [List.length_append, List.length_singleton, Nat.add_right_cancel_iff] at hlength
    have hys := List.forall₂_take_append _ _ _ h
    have hy := List.forall₂_drop_append _ _ _ h
    rw [← hlength, List.take_left] at hys
    rw [← hlength, List.drop_left, List.forall₂_cons] at hy
    have hp : y.content = p.1.content ↔ KeptInFile env true p :=
      hy.1.content_iff (htakes p (List.mem_append_right _ List.mem_cons_self)) true
    rw [blocks_appendAll hnil, List.map_append, List.map_append, List.map_map,
      List.append_eq_append_iff_of_size_eq_left (by simp [hlength])]
    refine and_congr (contents_iff_of_forall₂ hys fun q hq => htakes q (List.mem_append_left _ hq)) ?_
    simp [hp]
  have hlast : (∀ q ∈ (ps ++ [p]).dropLast, KeptInFile env false q) ∧
      (∀ q ∈ (ps ++ [p]).getLast?, KeptInFile env true q) ↔
        (∀ q ∈ ps, KeptInFile env false q) ∧ KeptInFile env true p := by
    simp
  rw [hlast]
  constructor
  · intro heq
    have htypes : bundle.blocks.map Block.blocktype ++
        ((ps ++ [p]).filter fun p => decide (env.Takes p)).map (fun p => p.1.blocktype) =
          (ps ++ [p]).map fun p => p.1.blocktype := by
      have hmap := congrArg (List.map Prod.fst) heq
      rw [List.map_map, List.map_map] at hmap
      rw [← types_of_forall₂ h, ← types_appendAll]
      exact hmap
    obtain ⟨hnil, htakes⟩ := takes_of_types hbundle htypes
    have hnil := List.map_eq_nil_iff.1 hnil
    exact ⟨hnil, (hblocks hnil htakes).1 heq⟩
  · rintro ⟨hnil, hps, hp⟩
    refine (hblocks hnil fun q hq => ?_).2 ⟨hps, hp⟩
    rcases List.mem_append.1 hq with hq | hq
    · exact (hps q hq).takes
    · rw [List.mem_singleton.1 hq]
      exact hp.takes

/-! ### Storing several times -/

/-- What happens around a call of `store`. -/
structure Attempt where
  clock : Clock
  node : LocalNode
  env : StoreEnv

/-- A bundle is stored several times, up to an exception. -/
def storeAll (b : Bundle) : List Attempt → SQLiteBundleStorage → Except Exn Unit × SQLiteBundleStorage
  | [], s => (.ok (), s)
  | a :: attempts, s =>
      match s.store a.clock a.node a.env b with
      | (.error e, s) => (.error e, s)
      | (.ok _, s) => storeAll b attempts s

/-- The custodian of a bundle behind an attempt. -/
def custodianBehind (b : Bundle) (text : Bytes) (a : Attempt) : Bytes :=
  match BundleStorage.acceptCustody a.node (.ofBundle a.clock b) with
  | .ok (custodian, _) => custodian.getString
  | .error _ => text

/-- **A bundle is stored some times, and comes back once**: no attempt throws, what is loaded has the same
primary block and the same blocks, and there is one bundle more. -/
structure RoundTrip (s : SQLiteBundleStorage) (attempts : List Attempt) (env : GetEnv) (b : Bundle) :
    Prop where
  stored : (storeAll b attempts s).1 = .ok ()
  loaded : ∃ b', (storeAll b attempts s).2.get env b.toBundleID = .ok b' ∧
    b'.toPrimaryBlock.fields = b.toPrimaryBlock.fields ∧
      b'.blocks.map Block.content = b.blocks.map Block.content
  count : (storeAll b attempts s).2.count = s.count + 1

/-- The blocks of a bundle, with what happens to them while they are stored. -/
def withEnvs (b : Bundle) (env : ℕ → BlockEnv) : List (Block × BlockEnv) :=
  b.blocks.mapIdx fun i block => (block, env (1 + i))

/-- **A bundle is kept by the storage**: it is stored once unless it is a fragment, has blocks, a fragment
only one, and the clock is set when it is loaded; the texts of its EIDs denote them, no other
custodian is entered, its flags survive a column of 32 bits, and each of its blocks is kept in its
file. -/
structure Kept (a : Attempt) (attempts : List Attempt) (env : GetEnv) (b : Bundle) : Prop where
  once : attempts = [] ∨ b.get PrimaryBlock.fragment = true
  blocks_ne : b.blocks ≠ []
  fragment : b.get PrimaryBlock.fragment = true → b.blocks.length ≤ 1
  clock : env.created.timestamp ≠ 0
  source : columnEID b.source.getString = b.source
  destination : columnEID b.destination.getString = b.destination
  reportto : columnEID b.reportto.getString = b.reportto
  custodian : columnEID ((a :: attempts).foldl (custodianBehind b) b.custodian.getString) =
    b.custodian
  procflags : ofColumnInt b.procflags.toUInt32 = b.procflags
  blocks : ∀ p ∈ (withEnvs b a.env.block).dropLast, KeptInFile env false p
  last : ∀ p ∈ (withEnvs b a.env.block).getLast?, KeptInFile env true p

/-- The bundle is not in the storage, nor hidden by a mark. -/
structure Absent (s : SQLiteBundleStorage) (b : Bundle) : Prop where
  bundles : ∀ r ∈ s.database.bundles, r.toRowKey ≠ b.toBundleID.rowKey
  blocks : ∀ r ∈ s.database.blocks, r.toRowKey ≠ b.toBundleID.rowKey
  unmarked : s.containsDeletion b.toBundleID = false

/-- **The storage holds a bundle** with a custodian, behind what it held before. -/
structure Holds (s₀ : SQLiteBundleStorage) (b : Bundle) (rows : List BlockRow)
    (files : Directory Bytes Bytes) (custodian : Bytes) (s : SQLiteBundleStorage) : Prop where
  bundles : ∃ olds c, s.database.bundles = olds ++ [{ BundleRow.ofBundle c b with custodian }] ∧
    olds.length = s₀.database.bundles.length ∧ ∀ r ∈ olds, r.toRowKey ≠ b.toBundleID.rowKey
  blocks : s.database.blocks = s₀.database.blocks ++ rows
  files : s.files = files
  marks : s.deletionList = s₀.deletionList

section Holds

variable {s s₀ : SQLiteBundleStorage} {b : Bundle} {rows : List BlockRow}
  {files : Directory Bytes Bytes} {custodian : Bytes}

/-- The custodians of the rows behind a store. -/
theorem map_custodianFor (a : Attempt) {olds : List BundleRow} (c : Clock) (text : Bytes)
    (holds : ∀ r ∈ olds, r.toRowKey ≠ b.toBundleID.rowKey) :
    ∃ olds' : List BundleRow, (olds ++ [{ BundleRow.ofBundle c b with custodian := text }]).map
        (fun r : BundleRow => { r with custodian := custodianFor a.clock a.node b r }) =
      olds' ++ [{ BundleRow.ofBundle c b with custodian := custodianBehind b text a }] ∧
      olds'.length = olds.length ∧ ∀ r ∈ olds', r.toRowKey ≠ b.toBundleID.rowKey := by
  have hcustodian : custodianFor a.clock a.node b { BundleRow.ofBundle c b with custodian := text } =
      custodianBehind b text a := by
    rw [custodianFor, custodianBehind]
    cases BundleStorage.acceptCustody a.node (.ofBundle a.clock b) with
    | ok accepted => exact if_pos rfl
    | error e => rfl
  refine ⟨olds.map fun r => { r with custodian := custodianFor a.clock a.node b r }, ?_, ?_, ?_⟩
  · rw [List.map_append, List.map_singleton, hcustodian]
  · exact List.length_map _
  · intro r hr
    obtain ⟨t, ht, rfl⟩ := List.mem_map.1 hr
    exact holds t ht

/-- A bundle that is absent is stored. -/
theorem exists_holds (a : Attempt) (hrow : a.env.rowError = none)
    (henv : StoreEnv.Works a.env.block s.database) (habsent : s.Absent b)
    (hfragment : b.get PrimaryBlock.fragment = true → b.blocks.length ≤ 1) :
    ∃ rows files s', s.store a.clock a.node a.env b = (.ok (), s') ∧
      WrittenAll b a.env.block s.files files rows ∧
        Holds s b rows files (custodianBehind b b.custodian.getString a) s' := by
  obtain ⟨rows, files, hstore, hrows⟩ := store_new a.clock a.node hrow henv
    fun h => ⟨hfragment h, habsent.bundles, habsent.blocks⟩
  obtain ⟨olds, hmap, hlength, holds⟩ := map_custodianFor a a.clock b.custodian.getString
    habsent.bundles
  exact ⟨rows, files, _, hstore, hrows, ⟨olds, a.clock, hmap, hlength, holds⟩, rfl, rfl, rfl⟩

/-- A fragment that is held is not stored again. -/
theorem Holds.taken (h : Holds s₀ b rows files custodian s) (a : Attempt)
    (hrow : a.env.rowError = none) (hfragment : b.get PrimaryBlock.fragment = true) :
    ∃ s', s.store a.clock a.node a.env b = (.ok (), s') ∧
      Holds s₀ b rows files (custodianBehind b custodian a) s' := by
  obtain ⟨olds, c, hbundles, hlength, holds⟩ := h.bundles
  have hstore := store_taken a.clock a.node hrow hfragment
    ⟨{ BundleRow.ofBundle c b with custodian }, by rw [hbundles]; simp, rfl⟩
  obtain ⟨olds', hmap, hlength', holds'⟩ := map_custodianFor a c custodian holds
  refine ⟨_, hstore, ⟨olds', c, ?_, hlength'.trans hlength, holds'⟩, h.blocks, h.files, h.marks⟩
  rw [← hmap, ← hbundles]
  rfl

/-- A fragment that is held stays so. -/
theorem Holds.storeAll (h : Holds s₀ b rows files custodian s) {attempts : List Attempt}
    (hrows : ∀ a ∈ attempts, a.env.rowError = none) (hfragment : attempts = [] ∨
      b.get PrimaryBlock.fragment = true) :
    ∃ s', SQLiteBundleStorage.storeAll b attempts s = (.ok (), s') ∧
      Holds s₀ b rows files (attempts.foldl (custodianBehind b) custodian) s' := by
  induction attempts generalizing s custodian with
  | nil => exact ⟨s, rfl, h⟩
  | cons a attempts ih =>
      have hfragment := hfragment.resolve_left (List.cons_ne_nil _ _)
      obtain ⟨s', hstore, hheld⟩ := h.taken a (hrows a List.mem_cons_self) hfragment
      obtain ⟨s'', hall, hheld'⟩ := ih hheld (fun a ha => hrows a (List.mem_cons_of_mem _ ha))
        (.inr hfragment)
      refine ⟨s'', ?_, hheld'⟩
      rw [SQLiteBundleStorage.storeAll, hstore]
      exact hall

theorem Holds.count (h : Holds s₀ b rows files custodian s) : s.count = s₀.count + 1 := by
  obtain ⟨olds, c, hbundles, hlength, -⟩ := h.bundles
  rw [SQLiteBundleStorage.count, Database.countEntries, hbundles, List.length_append, hlength]
  rfl

/-- The blocks of the bundle are read in their order. -/
theorem Holds.blockGetId (h : Holds s₀ b rows files custodian s) (habsent : s₀.Absent b)
    {env : ℕ → BlockEnv} {files₀ : Directory Bytes Bytes} (hrows : WrittenAll b env files₀ files rows) :
    s.database.blockGetId b.toBundleID.rowKey = rows := by
  have hold : s₀.database.blocks.filter
      (fun r => decide (r.toRowKey = b.toBundleID.rowKey)) = [] := by
    rw [List.filter_eq_nil_iff]
    intro r hr
    simpa using habsent.blocks r hr
  have hnew : rows.filter (fun r => decide (r.toRowKey = b.toBundleID.rowKey)) = rows := by
    rw [List.filter_eq_self]
    intro r hr
    obtain ⟨n, block, -, hwritten⟩ := hrows.exists_written hr
    exact decide_eq_true hwritten.key
  rw [Database.blockGetId, h.blocks, List.filter_append, hold, hnew, List.nil_append]
  refine Table.orderBy_eq_self (List.pairwise_iff_getElem.2 fun i j hi hj hlt => ?_)
  rw [(hrows.written i hi (hrows.length_eq ▸ hi)).ordernumber,
    (hrows.written j hj (hrows.length_eq ▸ hj)).ordernumber]
  exact Nat.add_le_add_left (Nat.le_of_lt hlt) 1

/-- The row of the bundle is found. -/
theorem Holds.bundleGetId (h : Holds s₀ b rows files custodian s) : ∃ c,
    s.database.bundleGetId b.toBundleID.rowKey = some { BundleRow.ofBundle c b with custodian } := by
  obtain ⟨olds, c, hbundles, -, holds⟩ := h.bundles
  refine ⟨c, ?_⟩
  have hold : olds.find? (fun r => decide (r.toRowKey = b.toBundleID.rowKey)) = none := by
    rw [List.find?_eq_none]
    intro r hr
    simpa using holds r hr
  rw [Database.bundleGetId, hbundles, List.find?_append, hold, Option.none_or]
  exact List.find?_cons_of_pos (decide_eq_true rfl)

end Holds

/-! ### Loading what is held -/

/-- Without an exception, a bundle that is no fragment has a row for every time it was stored. -/
theorem count_of_storeAll {b : Bundle} {attempts : List Attempt} {s : SQLiteBundleStorage}
    (hwhole : b.get PrimaryBlock.fragment = false)
    (hrows : ∀ a ∈ attempts, a.env.rowError = none) (h : (storeAll b attempts s).1 = .ok ()) :
    (storeAll b attempts s).2.count = s.count + attempts.length := by
  induction attempts generalizing s with
  | nil => rfl
  | cons a attempts ih =>
      have hcount (hstore : (s.store a.clock a.node a.env b).1 = .ok ()) :
          (s.store a.clock a.node a.env b).2.count = s.count + 1 :=
        (of_store_ok (hrows a List.mem_cons_self) hstore).1 hwhole
      rw [storeAll] at h ⊢
      rcases hstore : s.store a.clock a.node a.env b with ⟨_ | u, s'⟩
      · rw [hstore] at h
        simp at h
      · rw [hstore] at h hcount
        dsimp only at h ⊢
        rw [ih (fun a ha => hrows a (List.mem_cons_of_mem _ ha)) h, hcount rfl, List.length_cons,
          Nat.add_assoc, Nat.add_comm 1]

/-- The primary block of a row is that of the bundle exactly if its columns can be read back. -/
theorem fields_primaryBlock (c : Clock) (b : Bundle) (custodian : Bytes) (obj : PrimaryBlock) :
    (BundleRow.primaryBlock obj { BundleRow.ofBundle c b with custodian }).fields =
        b.toPrimaryBlock.fields ↔
      (columnEID b.source.getString = b.source ∧ columnEID b.destination.getString = b.destination ∧
        columnEID b.reportto.getString = b.reportto ∧ columnEID custodian = b.custodian) ∧
          ofColumnInt b.procflags.toUInt32 = b.procflags := by
  rw [PrimaryBlock.fields, PrimaryBlock.fields]
  simp only [Prod.mk.injEq]
  refine and_congr_right fun _ => ⟨fun h => h.1, fun h => ⟨h, rfl, rfl, rfl, ?_⟩⟩
  have hfragment : FlagWord.has (ofColumnInt (BundleRow.ofBundle c b).procflags)
      PrimaryBlock.fragment = FlagWord.has b.procflags PrimaryBlock.fragment :=
    congrArg (FlagWord.has · PrimaryBlock.fragment) h
  simp only [BundleRow.primaryBlock, PrimaryBlock.get, hfragment]
  by_cases hget : FlagWord.has b.procflags PrimaryBlock.fragment = true
  · have hoffset : (BundleRow.ofBundle c b).fragmentoffset = some b.fragmentoffset :=
      (fragmentoffset_rowKey b).trans (if_pos hget)
    have hlength : (BundleRow.ofBundle c b).appdatalength = some b.appdatalength := if_pos hget
    rw [if_pos hget, if_pos hget, if_pos hget, hoffset, hlength]
    exact (if_pos hget).symm
  · rw [if_neg hget]
    exact (if_neg hget).symm

/-- A new bundle has no blocks, or an age block if the clock is not set. -/
theorem types_newBundle (created : PrimaryBlock) (row : BundleRow) :
    (newBundle created row).blocks.map Block.blocktype =
      if created.timestamp = 0 then [newAge.blocktype] else [] := by
  rw [newBundle, Bundle.create]
  dsimp only
  split_ifs <;> rfl

theorem blocks_newBundle_eq_nil_iff {created : PrimaryBlock} {row : BundleRow} :
    (newBundle created row).blocks = [] ↔ created.timestamp ≠ 0 := by
  rw [← List.map_eq_nil_iff (f := Block.blocktype), types_newBundle]
  split_ifs with h <;> simp [h]

/-- Each block that was written, with its row. -/
theorem WrittenAll.forall₂ {b : Bundle} {env : ℕ → BlockEnv} {files files' : Directory Bytes Bytes}
    {rows : List BlockRow} (h : WrittenAll b env files files' rows) {db : Database}
    (henv : StoreEnv.Works env db) : List.Forall₂ (fun p row =>
      (∃ number, Written b.toBundleID.rowKey number p.1 p.2 files' row) ∧
        columnText row.filename = row.filename) (withEnvs b env) rows := by
  rw [List.forall₂_iff_get]
  refine ⟨by rw [withEnvs, List.length_mapIdx, h.length_eq], fun i hi hi' => ?_⟩
  have hwritten := h.written i hi' (h.length_eq ▸ hi')
  rw [List.get_eq_getElem, List.get_eq_getElem]
  simp only [withEnvs, List.getElem_mapIdx]
  exact ⟨⟨_, hwritten⟩, henv.text _ _ hwritten.named⟩

theorem map_content_withEnvs (b : Bundle) (env : ℕ → BlockEnv) :
    (withEnvs b env).map (fun p => p.1.content) = b.blocks.map Block.content := by
  refine List.ext_getElem (by simp [withEnvs]) fun i hi hi' => ?_
  simp [withEnvs]

/-- What is loaded of a bundle that is held. -/
theorem Holds.get {s₀ s : SQLiteBundleStorage} {b : Bundle} {rows : List BlockRow}
    {files₀ files : Directory Bytes Bytes} {custodian : Bytes}
    (h : Holds s₀ b rows files custodian s) (habsent : s₀.Absent b) {envs : ℕ → BlockEnv}
    (hrows : WrittenAll b envs files₀ files rows) {env : GetEnv} {xs : List Block} {c : Clock}
    (hc : s.database.bundleGetId b.toBundleID.rowKey =
      some { BundleRow.ofBundle c b with custodian })
    (hxs : getBlocks env files rows (newBundle env.created { BundleRow.ofBundle c b with custodian })
      = .ok ((newBundle env.created { BundleRow.ofBundle c b with custodian }).appendAll xs)) :
    s.get env b.toBundleID =
      if ((newBundle env.created { BundleRow.ofBundle c b with custodian }).appendAll xs).blocks = []
      then .error noBundleFound
      else .ok ((newBundle env.created { BundleRow.ofBundle c b with custodian }).appendAll xs) := by
  have hhidden : s.containsDeletion b.toBundleID = false := by
    rw [containsDeletion, h.marks]
    exact habsent.unmarked
  rw [SQLiteBundleStorage.get, hhidden, if_neg Bool.false_ne_true, hc, h.blockGetId habsent hrows,
    h.files]
  dsimp only
  rw [hxs]
  simp only [List.isEmpty_iff]

/-- **What is loaded of a bundle that is held is the bundle**, if nothing is lost in columns and files. -/
theorem Holds.loaded_iff {s₀ s : SQLiteBundleStorage} {b : Bundle} {rows : List BlockRow}
    {files₀ files : Directory Bytes Bytes} {custodian : Bytes}
    (h : Holds s₀ b rows files custodian s) (habsent : s₀.Absent b) {envs : ℕ → BlockEnv}
    (hrows : WrittenAll b envs files₀ files rows) (henvs : StoreEnv.Works envs s₀.database)
    {env : GetEnv} (henv : env.Reads) (hblocks : ∀ block ∈ b.blocks, block.Separable) :
    (∃ b', s.get env b.toBundleID = .ok b' ∧ b'.toPrimaryBlock.fields = b.toPrimaryBlock.fields ∧
        b'.blocks.map Block.content = b.blocks.map Block.content) ↔
      b.blocks ≠ [] ∧ env.created.timestamp ≠ 0 ∧
        ((columnEID b.source.getString = b.source ∧
          columnEID b.destination.getString = b.destination ∧
          columnEID b.reportto.getString = b.reportto ∧ columnEID custodian = b.custodian) ∧
            ofColumnInt b.procflags.toUInt32 = b.procflags) ∧
        (∀ p ∈ (withEnvs b envs).dropLast, KeptInFile env false p) ∧
          ∀ p ∈ (withEnvs b envs).getLast?, KeptInFile env true p := by
  obtain ⟨c, hc⟩ := h.bundleGetId
  let row : BundleRow := { BundleRow.ofBundle c b with custodian }
  have hseparable : ∀ p ∈ withEnvs b envs, p.1.Separable := by
    intro p hp
    obtain ⟨i, hi, rfl⟩ := List.mem_mapIdx.1 hp
    exact hblocks _ (List.getElem_mem hi)
  obtain ⟨xs, hxs, hall⟩ :=
    getBlocks_written henv (hrows.forall₂ henvs) hseparable (newBundle env.created row)
  have hget := h.get habsent hrows hc hxs
  have hprimary : ((newBundle env.created row).appendAll xs).toPrimaryBlock =
      row.primaryBlock env.created := toPrimaryBlock_appendAll _ _
  have hfields := fields_primaryBlock c b custodian env.created
  have hcontents (hne : b.blocks ≠ []) :
      ((newBundle env.created row).appendAll xs).blocks.map Block.content =
          b.blocks.map Block.content ↔
        (newBundle env.created row).blocks = [] ∧
          (∀ p ∈ (withEnvs b envs).dropLast, KeptInFile env false p) ∧
            ∀ p ∈ (withEnvs b envs).getLast?, KeptInFile env true p := by
    rw [← map_content_withEnvs b envs]
    refine contents_iff hall ?_ fun hnil => hne (List.mapIdx_eq_nil_iff.1 hnil)
    rw [types_newBundle]
    split_ifs
    · exact .inr rfl
    · exact .inl rfl
  constructor
  · rintro ⟨b', hb', hsame, hcontent⟩
    rw [hget] at hb'
    split_ifs at hb' with hnil
    obtain rfl := Except.ok.inj hb'
    rw [hprimary] at hsame
    have hne : b.blocks ≠ [] := by
      intro heq
      rw [heq, List.map_nil, List.map_eq_nil_iff] at hcontent
      exact hnil hcontent
    obtain ⟨hclock, hkept⟩ := (hcontents hne).1 hcontent
    exact ⟨hne, blocks_newBundle_eq_nil_iff.1 hclock, hfields.1 hsame, hkept⟩
  · rintro ⟨hne, hclock, hcolumns, hkept⟩
    have hcontent := (hcontents hne).2 ⟨blocks_newBundle_eq_nil_iff.2 hclock, hkept⟩
    refine ⟨_, ?_, (congrArg PrimaryBlock.fields hprimary).trans (hfields.2 hcolumns), hcontent⟩
    rw [hget, if_neg]
    intro hnil
    rw [hnil] at hcontent
    exact hne (List.map_eq_nil_iff.1 hcontent.symm)

/-- **The bundles that come back** are those that are kept, if nothing but hard-links fails. -/
theorem roundTrip_iff {s : SQLiteBundleStorage} {a : Attempt} {attempts : List Attempt} {env : GetEnv}
    {b : Bundle} (habsent : s.Absent b) (hblocks : ∀ block ∈ b.blocks, block.Separable)
    (hrows : ∀ x ∈ a :: attempts, x.env.rowError = none)
    (henvs : StoreEnv.Works a.env.block s.database) (henv : env.Reads) :
    RoundTrip s (a :: attempts) env b ↔ Kept a attempts env b := by
  have hrow := hrows a List.mem_cons_self
  have hrest : ∀ x ∈ attempts, x.env.rowError = none := fun x hx =>
    hrows x (List.mem_cons_of_mem _ hx)
  by_cases honce : attempts = [] ∨ b.get PrimaryBlock.fragment = true
  · by_cases hfragment : b.get PrimaryBlock.fragment = true → b.blocks.length ≤ 1
    · obtain ⟨rows, files, s₁, hstore, hwritten, hheld⟩ := exists_holds a hrow henvs habsent hfragment
      obtain ⟨s₂, hall, hheld'⟩ := hheld.storeAll hrest honce
      have hstoreAll : storeAll b (a :: attempts) s = (.ok (), s₂) := by
        rw [storeAll, hstore]
        exact hall
      have hloaded := hheld'.loaded_iff habsent hwritten henvs henv hblocks
      constructor
      · intro h
        have hback := h.loaded
        rw [hstoreAll] at hback
        obtain ⟨hne, hclock, ⟨⟨hsource, hdestination, hreportto, hcustodian⟩, hflags⟩, hinit,
          hlast⟩ := hloaded.1 hback
        exact ⟨honce, hne, hfragment, hclock, hsource, hdestination, hreportto, hcustodian, hflags,
          hinit, hlast⟩
      · intro h
        refine ⟨by rw [hstoreAll], ?_, by rw [hstoreAll]; exact hheld'.count⟩
        rw [hstoreAll]
        exact hloaded.2 ⟨h.blocks_ne, h.clock,
          ⟨⟨h.source, h.destination, h.reportto, h.custodian⟩, h.procflags⟩, h.blocks, h.last⟩
    · -- The second block of a fragment is refused by the index.
      refine ⟨fun h => absurd (fun hget => ?_) hfragment, fun h => absurd h.fragment hfragment⟩
      have hstored := h.stored
      rw [storeAll] at hstored
      rcases hstore : s.store a.clock a.node a.env b with ⟨_ | u, s'⟩
      · rw [hstore] at hstored
        simp at hstored
      · exact (of_store_ok hrow (congrArg Prod.fst hstore)).2 hget habsent.bundles
  · -- Each further call has stored another row.
    refine ⟨fun h => ?_, fun h => absurd h.once honce⟩
    rw [not_or, Bool.not_eq_true] at honce
    have hcount := count_of_storeAll honce.2 hrows h.stored
    rw [h.count, List.length_cons, Nat.add_left_cancel_iff] at hcount
    exact absurd (List.length_eq_zero_iff.1 (Nat.succ.inj hcount).symm) honce.1

/-- A bundle is stored, with its payload in a file to which a hard-link is made. -/
def sampleLinked : Attempt :=
  ⟨Clock.showing 100, sampleNode,
    ⟨none, fun n => ⟨.ok (ascii ['b'] ++ Decimal.numeral n), .linked, none, none⟩⟩⟩

theorem roundTrip_iff_sample :
    RoundTrip create [sampleLinked] sampleGetEnv sampleWhole ∧ sampleWhole.blocks.length = 1 := by
  refine ⟨(roundTrip_iff ⟨fun _ h => absurd h List.not_mem_nil, fun _ h => absurd h List.not_mem_nil,
    rfl⟩ sampleWhole_storable.separable (fun x hx => ?_) (works_sample fun _ h => by simp at h)
    ⟨fun _ => ⟨true, rfl⟩, BLOB.exact_copiesExactly, fun _ _ => rfl⟩).2 ?_, rfl⟩
  · rw [List.mem_singleton.1 hx]
    rfl
  · refine ⟨.inl rfl, by decide, fun h => absurd h (by decide), by decide, by decide +kernel,
      by decide +kernel, by decide +kernel, by decide +kernel, by decide, ?_, ?_⟩
    · exact fun p hp => absurd hp List.not_mem_nil
    · intro p hp
      obtain rfl := Option.some.inj hp
      exact (if_pos rfl).mpr ⟨⟨⟨_, rfl⟩, rfl⟩, rfl, by decide, rfl⟩

/-- A bundle that is loaded with other blocks has not come back. -/
theorem not_roundTrip_of_get {attempts : List Attempt} {b : Bundle}
    (h : ((storeAll b attempts create).2.get sampleGetEnv b.toBundleID).toOption.map
      (fun b' => b'.blocks.map Block.content) ≠ some (b.blocks.map Block.content)) :
    ¬ RoundTrip create attempts sampleGetEnv b := by
  intro hround
  obtain ⟨b', hget, -, hblocks⟩ := hround.loaded
  rw [hget] at h
  exact h (congrArg some hblocks)

/-- **A payload from a file of another storage comes back with the bytes of its header**, a bundle that is
stored twice is there twice, and a fragment with two blocks cannot be stored. -/
theorem not_roundTrip_sample :
    ¬ RoundTrip create [⟨Clock.showing 100, sampleNode, sampleEnv⟩] sampleGetEnv sampleWhole ∧
      ¬ RoundTrip create [sampleLinked, sampleLinked] sampleGetEnv sampleWhole ∧
        ¬ RoundTrip create [sampleLinked] sampleGetEnv sampleFragment := by
  refine ⟨not_roundTrip_of_get (by decide +kernel), fun h => ?_, fun h => ?_⟩
  · have hcount : (storeAll sampleWhole [sampleLinked, sampleLinked] create).2.count = 2 := by
      decide +kernel
    rw [h.count] at hcount
    exact absurd hcount (by decide)
  · have hthrows : (storeAll sampleFragment [sampleLinked] create).1.toBool = false := by
      decide +kernel
    rw [h.stored] at hthrows
    exact Bool.noConfusion hthrows

end SQLiteBundleStorage

end IbrDtn
