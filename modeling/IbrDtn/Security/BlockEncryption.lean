import IbrDtn.Data.CompressedHeader
import IbrDtn.Data.BlockReplacement
import IbrDtn.Security.SecurityKey

/-!
# Encrypted blocks

This file models `SecurityBlock::encryptBlock`, which replaces a block by a security block with its
ciphertext, and `SecurityBlock::decryptBlock` of `ibrdtn/security/SecurityBlock.cpp`, which replaces
the security block by what it decrypts.  The block is written with a dictionary of the bundle and
read without any, so that its EIDs come back as empty ones.

`ibrcommon::AES128Stream` belongs to the library `ibrcommon`, which is not part of the repository:
it is the parameter `AES128Stream`.

## Main definitions

* `AES128Stream` : the parameter, and what is assumed of it.
* `Bundle.encryptBlock`, `Bundle.decryptBlock` : the two functions.
* `Block.Restorable` : the blocks that come back as they were.

## Main results

* `Bundle.encryptBlock_eq`, `Bundle.decryptBlock_eq` : what the two functions leave.
* `Bundle.encryption_law` : which blocks are restored, and that a bad tag is refused.
-/

namespace IbrDtn

namespace SecurityBlock

/-- The members of `SecurityBlock::TLV_TYPES` that are used here. -/
def initializationVector : UInt8 := 1
def encapsulatedBlock : UInt8 := 10

/-- How many EIDs the ciphersuite flags promise. -/
def skip (b : SecurityBlock) : ℕ :=
  (if has b.ciphersuiteFlags containsSecurityDestination then 1 else 0) +
    if has b.ciphersuiteFlags containsSecuritySource then 1 else 0

end SecurityBlock

/-! ### The cipher -/

/-- The parameter for `ibrcommon::AES128Stream` with a key, a salt and an initialization vector: the
ciphertext and the tag of a plaintext, the plaintext of a ciphertext, and whether a tag is the one
of a ciphertext. -/
structure AES128Stream where
  tagLen : ℕ
  encrypt : Bytes → UInt32 → Bytes → Bytes → Bytes
  getTag : Bytes → UInt32 → Bytes → Bytes → Bytes
  decrypt : Bytes → UInt32 → Bytes → Bytes → Bytes
  verify : Bytes → UInt32 → Bytes → Bytes → Bytes → Bool

/-- The stream decrypts what it encrypted, and verifies its tags. -/
structure AES128Stream.Lawful (aes : AES128Stream) : Prop where
  length_getTag : ∀ key salt iv bs, (aes.getTag key salt iv bs).length = aes.tagLen
  decrypt_encrypt : ∀ key salt iv bs, aes.decrypt key salt iv (aes.encrypt key salt iv bs) = bs
  verify_getTag : ∀ key salt iv bs,
    aes.verify key salt iv (aes.encrypt key salt iv bs) (aes.getTag key salt iv bs) = true

/-- `memcpy` of the data into an array, up to the length of the array. -/
def fillArray (array data : Bytes) : Bytes := data.take array.length ++ array.drop data.length

theorem fillArray_of_length_eq {array data : Bytes} (h : data.length = array.length) :
    fillArray array data = data := by
  rw [fillArray, ← h, List.take_length, h, List.drop_length, List.append_nil]

/-! ### The blocks -/

namespace Block

/-- `SecurityBlock::copyEID(from, to, skip)`. -/
def copyEID (src dst : Block) (skip : ℕ) : Block := (src.eids.drop skip).foldl addEID dst

theorem foldl_addEID (b : Block) (eids : List EID) (hne : eids ≠ []) :
    eids.foldl addEID b = { b with
      eids := b.eids ++ eids
      procflags := b.procflags ||| blockContainsEids } := by
  induction eids generalizing b with
  | nil => exact absurd rfl hne
  | cons e eids ih =>
      rw [List.foldl_cons]
      by_cases heids : eids = []
      · subst heids
        rfl
      · rw [ih _ heids, addEID, FlagWord.assign, if_pos rfl]
        simp [UInt64.or_assoc]

@[simp] theorem body_copyEID (src dst : Block) (skip : ℕ) :
    (src.copyEID dst skip).body = dst.body := by
  rw [copyEID]
  by_cases h : src.eids.drop skip = []
  · rw [h, List.foldl_nil]
  · rw [foldl_addEID _ _ h]

end Block

/-! ### The two functions -/

/-- `Dictionary::Dictionary(const Bundle&)`. -/
def Dictionary.ofBundle (b : Bundle) : Dictionary :=
  let d := (((Dictionary.empty.add b.destination).add b.source).add b.reportto).add b.custodian
  b.blocks.foldl (fun d block => d.addAll block.eids) d

/-- The ciphertext and the initialization vector are set. -/
def SecurityBlock.enclose (data iv : Bytes) (b : SecurityBlock) : SecurityBlock :=
  { b with
    securityResult := b.securityResult.set encapsulatedBlock data
    ciphersuiteParams := b.ciphersuiteParams.set initializationVector iv
    ciphersuiteFlags :=
      b.ciphersuiteFlags ||| containsSecurityResult ||| containsCiphersuiteParams }

namespace Bundle

section Functions

variable (aes : AES128Stream) (env : DeserializerEnv)

/-- `SecurityBlock::encryptBlock<T>`, of the block at the given place, where `n` is what the
constructor of `T` gives and `iv` is the initialization vector that the stream creates. -/
def encryptBlock (n : Block) (b : Bundle) (index : ℕ) (salt : UInt32) (key iv : Bytes) : Bundle :=
  match b.blocks[index]? with
  | none => b
  | some block =>
      let b := b.insert index (block.copyEID n 0)
      let plaintext := DefaultSerializer.writeBlock ⟨(Dictionary.ofBundle b).copy.1, false⟩ block
      let data := aes.encrypt key salt iv plaintext ++ aes.getTag key salt iv plaintext
      (b.modify index (Block.mapSecurity (SecurityBlock.enclose data iv))).remove (index + 1)

/-- Insert a new block in front of the one that `behind` blocks begin with, and read into it. -/
def insertAndRead (behind : ℕ) (n : Block) : Loader Exn (DefaultDeserializer × Bundle) Unit := do
  let (d, b) ← Loader.object
  let index := b.blocks.length - behind
  Loader.update fun o => (o.1, o.2.insert index n)
  Loader.within (d, n) (fun p o => (p.1, o.2.modify index fun _ => p.2))
    (DefaultDeserializer.readBlock env)

/-- `plaintext_block.getEIDList().clear()`, which clears a copy of the list, and
`copyEID(plaintext_block, plaintext_block, skip)`. -/
def copyEIDs (behind skip : ℕ) : Loader Exn (DefaultDeserializer × Bundle) Unit :=
  Loader.update fun o =>
    (o.1, o.2.modify (o.2.blocks.length - behind - 1) fun c => c.copyEID c skip)

/-- The part of `decryptBlock` that reads the plaintext. -/
def restoreBlock (behind skip : ℕ) : Loader Exn (DefaultDeserializer × Bundle) Unit := do
  let blockType := (← Loader.ofParser Parser.peekByte).getD 0xff
  if blockType = Block.payloadType then insertAndRead env behind Block.newPayload
  else
    MonadExcept.tryCatch
      (match Factory.get blockType with
      | none => throw (.exception "Factory not available")
      | some n => do
          insertAndRead env behind n
          copyEIDs behind skip)
      fun e =>
        if e.isException then do
          insertAndRead env behind Block.newExtension
          copyEIDs behind skip
        else throw e

/-- `SecurityBlock::decryptBlock`, of the security block at the given place. The array for the
initialization vector has the content `array` before it is filled. -/
def decryptBlock (b : Bundle) (index : ℕ) (salt : UInt32) (key array : Bytes) :
    Except Exn Unit × Bundle :=
  match (b.blocks[index]?).bind fun block => block.body.security? with
  | none => (.error (.undefined "no security block"), b)
  | some block =>
      match block.ciphersuiteParams.get? SecurityBlock.initializationVector,
          block.securityResult.get? SecurityBlock.encapsulatedBlock with
      | some iv, some data =>
          let iv := fillArray array iv
          let size := data.length - aes.tagLen
          if data.length < aes.tagLen then
            (.error (.undefined "the tag begins in front of the data"), b)
          else if !aes.verify key salt iv (data.take size) (data.drop size) then
            (.error (.exception "decryption of block failed - tag is bad"), b)
          else
            let behind := b.blocks.length - index
            match (restoreBlock env behind block.skip).run ((DefaultDeserializer.create, b),
                InStream.ofBytes (aes.decrypt key salt iv (data.take size))) with
            | (.ok _, (o, _)) => (.ok (), o.2.remove (o.2.blocks.length - behind))
            | (.error e, (o, _)) => (.error e, o.2)
      | _, _ => (.error (.exception "element not found"), b)

end Functions

end Bundle

/-! ### What is restored -/

namespace Block

/-- The blocks that can be written and read: the type fits the class, where plain extension blocks
may have the type zero as well, security blocks announce the EIDs that their flags promise, and
there are fewer EIDs than the counter of the reader has values. -/
structure Sealable (c : Block) : Prop where
  hasType : c.body.HasType c.blocktype ∨ (c.body.classType = none ∧ c.blocktype = 0)
  security : c.body.SecurityFits c.announced
  eids_lt : c.eids.length < 2 ^ 32
  payload_lt : c.body.serialize.length < 2 ^ 64

/-- The EID that a reference is resolved to without a dictionary. -/
def emptyEID : EID := EID.ofParts [] []

/-- What a block that was written is read as, in the class that its type selects and without a
dictionary. -/
def reread (c : Block) (body : Body) : Block :=
  withMark (receiver c.blocktype).body.forwardedMark
    { c with
      procflags := c.procflags &&& ~~~lastBlock
      eids := c.announced.map fun _ => emptyEID
      body := body }

/-- The block that `decryptBlock` leaves. -/
def restored (c : Block) (body : Body) (skip : ℕ) : Block :=
  if c.blocktype = payloadType then c.reread body
  else (c.reread body).copyEID (c.reread body) skip

/-- The same type, flags, EIDs and payload. -/
structure Same (c c' : Block) : Prop where
  blocktype : c'.blocktype = c.blocktype
  procflags : c'.procflags = c.procflags
  eids : c'.eids = c.eids
  payload : c'.body.serialize = c.body.serialize

theorem Sealable.exists_body {c : Block} (h : c.Sealable) {blob : BLOB}
    (hblob : blob.CopiesExactly) (f : EID → EID) : ∃ body',
    (Body.deserialize blob (c.announced.map f) (UInt64.ofNat c.body.getLength)).Loads
      c.body.serialize (receiver c.blocktype).body body' () ∧
      body'.serialize = c.body.serialize := by
  have hfits : c.body.SecurityFits (c.announced.map f) :=
    securityFits_map (b := { c with eids := c.announced }) h.security f
  rcases h.hasType with htype | ⟨hclass, htype⟩
  · exact ⟨_, Body.loads_deserialize hblob htype hfits h.payload_lt,
      Body.serialize_received _ _⟩
  · -- The reader of a block of type zero is that of every type without factory.
    have htype' : c.body.HasType 200 := .inr ⟨hclass, by decide, by decide, by decide⟩
    rw [htype, show receiver 0 = receiver 200 from by decide]
    exact ⟨_, Body.loads_deserialize hblob htype' hfits h.payload_lt,
      Body.serialize_received _ _⟩

end Block

namespace Bundle

theorem modify_append (xs : List Block) (a : Block) (ys : List Block) (f : Block → Block) :
    (xs ++ a :: ys).modify xs.length f = xs ++ f a :: ys := by
  induction xs with
  | nil => rfl
  | cons x xs ih => rw [List.cons_append, List.length_cons, List.modify_succ_cons, ih,
      List.cons_append]

open Loader (loads_object loads_update loads_ofParser)

/-- The deserializer has no dictionary. -/
structure Undirected (d : DefaultDeserializer) : Prop where
  compressed : d.compressed = false
  bytes : d.dictionary.bytes = []

theorem bytes_seekg (d : Dictionary) (pos : UInt64) : (d.seekg pos).bytes = d.bytes := by
  rw [Dictionary.seekg]
  split_ifs <;> rfl

theorem getBuffer_of_bytes_eq_nil {d : Dictionary} (h : d.bytes = []) :
    d.getBuffer.1 = [] ∧ d.getBuffer.2.bytes = [] := by
  rw [Dictionary.getBuffer]
  split_ifs
  · simp [h]
  · exact ⟨rfl, h⟩

/-- Without a dictionary every reference is resolved to the empty EID. -/
theorem resolves_undirected (s : DefaultSerializer) :
    Resolves s Undirected (fun _ => True) fun _ => Block.emptyEID := by
  have hlookup {d : DefaultDeserializer} (hd : Undirected d) (scheme ssp : UInt64) :
      (d.lookupEID scheme ssp).1 = Block.emptyEID ∧ Undirected (d.lookupEID scheme ssp).2 := by
    rw [DefaultDeserializer.lookupEID, hd.compressed, if_neg Bool.false_ne_true,
      Dictionary.getEID]
    obtain ⟨hfst, hbytes⟩ := getBuffer_of_bytes_eq_nil (d := d.dictionary.seekg scheme)
      ((bytes_seekg _ _).trans hd.bytes)
    obtain ⟨hfst', hbytes'⟩ := getBuffer_of_bytes_eq_nil
      (d := (d.dictionary.seekg scheme).getBuffer.2.seekg ssp) ((bytes_seekg _ _).trans hbytes)
    dsimp only
    rw [hfst, hfst']
    exact ⟨rfl, rfl, hbytes'⟩
  exact ⟨fun hd _ => (hlookup hd _ _).1, fun hd _ => (hlookup hd _ _).2⟩

/-- New blocks are not marked as the last one. -/
theorem mask_receiver (type : UInt8) :
    ~~~Block.lastBlock ||| (Block.receiver type).procflags = ~~~Block.lastBlock := by
  rw [Block.receiver]
  cases h : Factory.get type with
  | some n =>
      have hmem := List.mem_of_find?_eq_some h
      simp only [List.mem_cons, List.not_mem_nil, or_false] at hmem
      dsimp only
      rcases hmem with rfl | rfl | rfl | rfl | rfl | rfl | rfl | rfl <;> decide
  | none =>
      dsimp only
      split_ifs <;> decide

section Restore

variable {c : Block} (hc : c.Sealable) {env : DeserializerEnv} {body : Body}
  (hblock : ∀ b size, env.validator.block b size = .ok ())
  (hbody : (Body.deserialize env.blob (c.announced.map fun _ => Block.emptyEID)
    (UInt64.ofNat c.body.getLength)).Loads c.body.serialize
      (Block.receiver c.blocktype).body body ()) (s : DefaultSerializer)
  {b : Bundle} {xs ys : List Block} (hblocks : b.blocks = xs ++ ys)
  {d : DefaultDeserializer} (hd : Undirected d)

include hc hblock hbody hblocks hd

/-- The block is inserted and read. -/
theorem loads_insertAndRead (hne : ys ≠ []) :
    ∃ d', (insertAndRead env ys.length (Block.receiver c.blocktype)).Loads (s.writeBlock c) (d, b)
      (d', { b with blocks := xs ++ c.reread body :: ys }) () := by
  obtain ⟨y, ys, rfl⟩ := List.exists_cons_of_ne_nil hne
  have hindex : b.blocks.length - (y :: ys).length = xs.length := by
    rw [hblocks, List.length_append, Nat.add_sub_cancel]
  obtain ⟨d', -, hload⟩ := DefaultDeserializer.loads_readBlock_exact (resolves_undirected s) hblock
    (fun _ _ => trivial) hc.eids_lt (Block.eids_receiver c.blocktype) hbody hd
  rw [mask_receiver] at hload
  refine ⟨d', (loads_object _).bind_nil ((loads_update _ _).bind_nil ?_)⟩
  dsimp only
  rw [hindex]
  have hwithin := hload.within (fun p (o : DefaultDeserializer × Bundle) =>
    (p.1, o.2.modify xs.length fun _ => p.2)) (d, b.insert xs.length (Block.receiver c.blocktype))
  have hblocks' : (b.insert xs.length (Block.receiver c.blocktype)).modify xs.length
      (fun _ => c.reread body) = { b with blocks := xs ++ c.reread body :: y :: ys } := by
    rw [insert, hblocks, BlockList.insert_append, modify, modify_append]
  rw [← hblocks']
  exact hwithin

/-- **The plaintext is restored**: in front of `ys` stands what the block is read as. -/
theorem loads_restoreBlock (hne : ys ≠ []) (skip : ℕ) :
    ∃ d', (restoreBlock env ys.length skip).Loads (s.writeBlock c) (d, b)
      (d', { b with blocks := xs ++ c.restored body skip :: ys }) () := by
  obtain ⟨d', hread⟩ := loads_insertAndRead hc hblock hbody s hblocks hd hne
  refine ⟨d', Loader.Loads.peek ?_⟩
  simp only [Option.getD_some]
  by_cases hp : c.blocktype = Block.payloadType
  · rw [if_pos hp, Block.restored, if_pos hp]
    rwa [hp] at hread
  · rw [if_neg hp, Block.restored, if_neg hp]
    have hcopy : (copyEIDs ys.length skip).Loads []
        (d', { b with blocks := xs ++ c.reread body :: ys })
        (d', { b with blocks :=
          xs ++ (c.reread body).copyEID (c.reread body) skip :: ys }) () := by
      have hindex : (xs ++ c.reread body :: ys).length - ys.length - 1 = xs.length := by
        rw [List.length_append, List.length_cons]
        omega
      have hupdate : (copyEIDs ys.length skip).Loads []
          (d', { b with blocks := xs ++ c.reread body :: ys }) (d', _) () := loads_update _ _
      dsimp only at hupdate
      rwa [hindex, modify, modify_append] at hupdate
    cases hf : Factory.get c.blocktype with
    | some n =>
        have hn : Block.receiver c.blocktype = n := by rw [Block.receiver, hf]
        rw [hn] at hread
        exact (hread.then_nil hcopy).tryCatch _
    | none =>
        have hn : Block.receiver c.blocktype = Block.newExtension := by
          rw [Block.receiver, hf, if_neg hp]
        rw [hn] at hread
        refine DefaultDeserializer.loads_tryCatch_throw _ ?_
        simp only [Exn.isException, if_true]
        exact hread.then_nil hcopy

end Restore

/-! ### What the two functions leave -/

section Functions

variable (aes : AES128Stream) {xs ys : List Block} {c : Block}

/-- The security block that replaces `c`, up to the mark of the last block. -/
def enclosing (n : Block) (b : Bundle) (index : ℕ) (salt : UInt32) (key iv : Bytes) (c : Block) :
    Block :=
  let plaintext := DefaultSerializer.writeBlock
    ⟨(Dictionary.ofBundle (b.insert index (c.copyEID n 0))).copy.1, false⟩ c
  (c.copyEID n 0).mapSecurity
    (SecurityBlock.enclose
      (aes.encrypt key salt iv plaintext ++ aes.getTag key salt iv plaintext) iv)

/-- **A block is encrypted**: a security block takes its place. -/
theorem encryptBlock_eq (n : Block) {b : Bundle} (hblocks : b.blocks = xs ++ c :: ys)
    (salt : UInt32) (key iv : Bytes) : b.encryptBlock aes n xs.length salt key iv =
      { b with blocks :=
        xs ++ BlockList.markBack (enclosing aes n b xs.length salt key iv c :: ys) } := by
  have hget : b.blocks[xs.length]? = some c := by rw [hblocks]; simp
  have hremove (e : Block) : BlockList.remove (xs ++ e :: c :: ys) (xs.length + 1) =
      xs ++ BlockList.markBack (e :: ys) := by
    rw [← BlockList.insert_append xs c e ys, BlockList.remove_insert]
  rw [encryptBlock, hget]
  simp only [insert, modify, remove, hblocks, BlockList.insert_append, modify_append, hremove,
    enclosing]

/-- The security block has the ciphertext, and only the EIDs of the encrypted block. -/
theorem security?_enclosing {n : Block} {sb : SecurityBlock} (hn : n.body.security? = some sb)
    (b : Bundle) (index : ℕ) (salt : UInt32) (key iv : Bytes) (c : Block) :
    ∃ s : DefaultSerializer,
      (enclosing aes n b index salt key iv c).body.security? = some (sb.enclose
        (aes.encrypt key salt iv (s.writeBlock c) ++
          aes.getTag key salt iv (s.writeBlock c)) iv) := by
  refine ⟨⟨(Dictionary.ofBundle (b.insert index (c.copyEID n 0))).copy.1, false⟩, ?_⟩
  rw [enclosing, Block.security?_mapSecurity, Block.body_copyEID, hn]
  rfl

variable {aes}

/-- **A block is decrypted**: what is restored takes the place of the security block. -/
theorem decryptBlock_eq (haes : aes.Lawful) (hc : c.Sealable) {env : DeserializerEnv}
    (hblob : env.blob.CopiesExactly) (hblock : ∀ b size, env.validator.block b size = .ok ())
    {b : Bundle} {e : Block} (hblocks : b.blocks = xs ++ e :: ys) {sb : SecurityBlock}
    (he : e.body.security? = some sb) {iv array : Bytes} (hiv : iv.length = array.length)
    (hparam : sb.ciphersuiteParams.get? SecurityBlock.initializationVector = some iv)
    {salt : UInt32} {key : Bytes} {s : DefaultSerializer}
    (hresult : sb.securityResult.get? SecurityBlock.encapsulatedBlock =
      some (aes.encrypt key salt iv (s.writeBlock c) ++ aes.getTag key salt iv (s.writeBlock c))) :
    ∃ body : Body, body.serialize = c.body.serialize ∧
      b.decryptBlock aes env xs.length salt key array = (.ok (),
        { b with blocks := xs ++ BlockList.markBack (c.restored body sb.skip :: ys) }) := by
  obtain ⟨body, hbody, hserialize⟩ := hc.exists_body hblob fun _ => Block.emptyEID
  obtain ⟨d', hload⟩ := loads_restoreBlock hc hblock hbody s hblocks
    (d := DefaultDeserializer.create) ⟨rfl, rfl⟩ (List.cons_ne_nil e ys) sb.skip
  refine ⟨body, hserialize, ?_⟩
  have hget : (b.blocks[xs.length]?).bind (fun block => block.body.security?) = some sb := by
    rw [hblocks]
    simp [he]
  have hrun := hload [] []
  rw [List.append_nil] at hrun
  have hbehind : b.blocks.length - xs.length = (e :: ys).length := by
    rw [hblocks, List.length_append, Nat.add_sub_cancel_left]
  have hplace : (xs ++ c.restored body sb.skip :: e :: ys).length - (e :: ys).length =
      xs.length + 1 := by
    rw [List.length_append, List.length_cons]
    omega
  have hlen := haes.length_getTag key salt iv (s.writeBlock c)
  have hsize : (aes.encrypt key salt iv (s.writeBlock c) ++
      aes.getTag key salt iv (s.writeBlock c)).length - aes.tagLen =
      (aes.encrypt key salt iv (s.writeBlock c)).length := by
    rw [List.length_append, hlen, Nat.add_sub_cancel]
  have hlt : ¬ (aes.encrypt key salt iv (s.writeBlock c) ++
      aes.getTag key salt iv (s.writeBlock c)).length < aes.tagLen := by
    rw [List.length_append, hlen]
    omega
  have hremove := BlockList.remove_append (xs ++ [c.restored body sb.skip]) e ys
  rw [List.length_append, List.length_singleton, List.append_assoc, List.append_assoc,
    List.singleton_append, List.singleton_append,
    BlockList.markBack_append xs (List.cons_ne_nil _ ys)] at hremove
  rw [decryptBlock, hget]
  simp only [hparam, hresult, fillArray_of_length_eq hiv, if_neg hlt, hsize, List.take_left,
    List.drop_left, haes.verify_getTag, Bool.not_true, Bool.false_eq_true, if_false,
    haes.decrypt_encrypt, hbehind]
  rw [InStream.ofBytes, hrun]
  simp only [remove, hplace, hremove]

end Functions

end Bundle

/-! ### Which blocks are restored -/

namespace Block

/-- The block has what `decryptBlock` gives, in front of the blocks `ys`. -/
structure Restorable (c : Block) (ys : List Block) (skip : ℕ) : Prop where
  eids : c.eids = [] ∨ (c.get blockContainsEids = true ∧ (∀ e ∈ c.eids, e = emptyEID) ∧
    (c.blocktype = payloadType ∨ c.eids.length ≤ skip))
  mark : ∀ value ∈ (receiver c.blocktype).body.forwardedMark,
    c.get forwardedWithoutProcessed = value
  last : c.get lastBlock = true ↔ ys = []
  final : ∀ z ∈ ys.getLast?, z.get lastBlock = true

theorem isFlag_lastBlock : FlagWord.IsFlag lastBlock := ⟨3, by decide, by decide⟩

theorem isFlag_forwardedWithoutProcessed : FlagWord.IsFlag forwardedWithoutProcessed :=
  ⟨5, by decide, by decide⟩

@[simp] theorem blocktype_reread (c : Block) (body : Body) :
    (c.reread body).blocktype = c.blocktype := by
  rw [reread, blocktype_withMark]

@[simp] theorem body_reread (c : Block) (body : Body) : (c.reread body).body = body := by
  rw [reread, body_withMark]

theorem eids_reread (c : Block) (body : Body) :
    (c.reread body).eids = List.replicate c.announced.length emptyEID := by
  rw [← List.map_const', reread, eids_withMark]

/-- A block that was read is not marked as the last one. -/
theorem last_reread (c : Block) (body : Body) : (c.reread body).get lastBlock = false := by
  rw [reread, get_withMark _ _ (by decide), get, FlagWord.has, FlagWord.and_not_and_self]
  rfl

/-- A block that was read with EIDs says so. -/
theorem contains_reread {c : Block} (body : Body) (h : c.announced ≠ []) :
    (c.reread body).get blockContainsEids = true := by
  rw [reread, get_withMark _ _ (by decide), get, FlagWord.has_and_not_of_disjoint (by decide)]
  by_contra hc
  rw [announced, get, if_neg hc] at h
  exact h rfl

/-- The flags of a block that was read and marked are those that were written if the mark and the
flag that the class sets are. -/
theorem set_reread_eq_iff (c : Block) (body : Body) (isLast : Bool) :
    ((c.reread body).set lastBlock isLast).procflags = c.procflags ↔
      (∀ value ∈ (receiver c.blocktype).body.forwardedMark,
        c.get forwardedWithoutProcessed = value) ∧ c.get lastBlock = isLast := by
  have hset (word : UInt64) : FlagWord.assign word lastBlock isLast = word →
      FlagWord.has word lastBlock = isLast := fun h => by
    rw [← h]
    exact FlagWord.has_assign_self (by decide) isLast
  rw [set, reread]
  cases (receiver c.blocktype).body.forwardedMark with
  | none =>
      simp only [withMark, Option.mem_def, reduceCtorEq, false_implies, implies_true, true_and,
        FlagWord.assign_and_not_assign]
      exact ⟨hset _, FlagWord.assign_of_has isFlag_lastBlock⟩
  | some value =>
      simp only [withMark, set, Option.mem_def, Option.some.injEq, forall_eq']
      rw [FlagWord.assign_comm _ (by decide), FlagWord.assign_and_not_assign]
      constructor
      · intro h
        rw [get, get]
        refine ⟨?_, ?_⟩
        · rw [← h]
          exact FlagWord.has_assign_self (by decide) value
        · rw [← h, FlagWord.has_assign_of_disjoint (by decide)]
          exact FlagWord.has_assign_self (by decide) isLast
      · rintro ⟨hmark, hlast⟩
        rw [FlagWord.assign_of_has isFlag_lastBlock hlast,
          FlagWord.assign_of_has isFlag_forwardedWithoutProcessed hmark]

/-- What is restored is the block that was read, with EIDs in addition. -/
theorem restored_eq (c : Block) (body : Body) (skip : ℕ) : c.restored body skip =
    { c.reread body with eids := List.replicate (c.announced.length +
      if c.blocktype = payloadType then 0 else c.announced.length - skip) emptyEID } := by
  rw [restored]
  split_ifs with hp
  · rw [Nat.add_zero, ← eids_reread c body]
  · rw [copyEID, List.replicate_add, ← eids_reread c body, eids_reread, List.drop_replicate]
    by_cases hdrop : c.announced.length - skip = 0
    · rw [hdrop, List.replicate_zero, List.foldl_nil, List.append_nil, ← eids_reread c body]
    · have hne : List.replicate (c.announced.length - skip) emptyEID ≠ [] := by simpa using hdrop
      have hannounced : c.announced ≠ [] := by
        rintro h
        simp [h] at hdrop
      have hcontains := FlagWord.and_eq_of_has ⟨6, by decide, by decide⟩
        (contains_reread body hannounced)
      rw [foldl_addEID _ _ hne, FlagWord.or_eq_self hcontains, eids_reread]

/-- The EIDs that are restored are those of the block if there are none, or if all are empty and
none is copied. -/
theorem eids_restored_eq_iff (c : Block) (body : Body) (skip : ℕ) :
    (c.restored body skip).eids = c.eids ↔ c.eids = [] ∨ (c.get blockContainsEids = true ∧
      (∀ e ∈ c.eids, e = emptyEID) ∧ (c.blocktype = payloadType ∨ c.eids.length ≤ skip)) := by
  rw [restored_eq]
  dsimp only
  rw [eq_comm, List.eq_replicate_iff, announced]
  cases hc : c.get blockContainsEids with
  | false =>
      simp only [Bool.false_eq_true, if_false, List.length_nil, Nat.zero_sub, ite_self,
        Nat.add_zero, List.length_eq_zero_iff, false_and, or_false]
      exact ⟨And.left, fun h => ⟨h, by simp [h]⟩⟩
  | true =>
      simp only [if_true, true_and]
      constructor
      · rintro ⟨hlen, hempty⟩
        by_cases hnil : c.eids = []
        · exact .inl hnil
        · refine .inr ⟨hempty, ?_⟩
          have hpos := List.length_pos_of_ne_nil hnil
          split_ifs at hlen with hp
          · exact .inl hp
          · exact .inr (by omega)
      · rintro (hnil | ⟨hempty, hskip⟩)
        · simp [hnil]
        · refine ⟨?_, hempty⟩
          split_ifs with hp
          · rfl
          · have := hskip.resolve_left hp
            omega

/-- **What stands where a block was is the same block**, and what stands behind it is the same,
exactly if the block is restorable. -/
theorem same_restored_iff (c : Block) {body : Body} (hbody : body.serialize = c.body.serialize)
    (ys : List Block) (skip : ℕ) :
    (∃ c', BlockList.markBack (c.restored body skip :: ys) = c' :: ys ∧ c.Same c') ↔
      c.Restorable ys skip := by
  have hset : ∀ isLast : Bool, c.Same ((c.restored body skip).set lastBlock isLast) ↔
      ((∀ value ∈ (receiver c.blocktype).body.forwardedMark,
        c.get forwardedWithoutProcessed = value) ∧ c.get lastBlock = isLast) ∧
      (c.restored body skip).eids = c.eids := by
    intro isLast
    have hflags : ((c.restored body skip).set lastBlock isLast).procflags =
        ((c.reread body).set lastBlock isLast).procflags := by rw [restored_eq]; rfl
    rw [← set_reread_eq_iff c body, ← hflags]
    refine ⟨fun h => ⟨h.procflags, h.eids⟩, fun h => ⟨?_, h.1, h.2, ?_⟩⟩
    · rw [restored_eq]
      exact blocktype_reread c body
    · rw [restored_eq]
      exact (congrArg Body.serialize (body_reread c body)).trans hbody
  have hunset : (c.restored body skip).set lastBlock false = c.restored body skip := by
    have hlast : (c.restored body skip).get lastBlock = false := by
      rw [restored_eq]
      exact last_reread c body
    rw [set, FlagWord.assign_false_of_not_has hlast]
  by_cases hys : ys = []
  · subst hys
    rw [BlockList.markBack_singleton]
    simp only [List.cons.injEq, and_true, exists_eq_left', hset, eids_restored_eq_iff]
    exact ⟨fun h => ⟨h.2, h.1.1, by simp [h.1.2], by simp⟩,
      fun h => ⟨⟨h.mark, h.last.2 rfl⟩, h.eids⟩⟩
  · rw [BlockList.markBack_cons _ hys]
    have hsame := hset false
    rw [hunset, eids_restored_eq_iff] at hsame
    constructor
    · rintro ⟨c', heq, h⟩
      obtain ⟨rfl, hmark⟩ := List.cons.inj heq
      obtain ⟨⟨hforwarded, hlast⟩, heids⟩ := hsame.1 h
      exact ⟨heids, hforwarded, by simp [hlast, hys], BlockList.markBack_eq_self_iff.1 hmark⟩
    · intro h
      have hlast : c.get lastBlock = false := by
        rw [← Bool.not_eq_true]
        exact mt h.last.1 hys
      exact ⟨_, by rw [BlockList.markBack_eq_self_iff.2 h.final],
        hsame.2 ⟨⟨h.mark, hlast⟩, h.eids⟩⟩

end Block

namespace Bundle

/-- The two bundles differ at most in the block at the place, which has the same type, flags, EIDs
and payload in both. -/
def RestoredAt (b b' : Bundle) (index : ℕ) : Prop :=
  b'.toPrimaryBlock = b.toPrimaryBlock ∧ ∃ xs c c' ys, xs.length = index ∧
    b.blocks = xs ++ c :: ys ∧ b'.blocks = xs ++ c' :: ys ∧ c.Same c'

/-- What the callers of `encryptBlock` do with the security block keeps the ciphertext and the
initialization vector, and leaves flags that promise `skip` EIDs. -/
def KeepsCiphertext (change : Block → Block) (skip : ℕ) : Prop :=
  ∀ e sb, e.body.security? = some sb → sb.skip = 0 → ∃ sb', (change e).body.security? = some sb' ∧
    sb'.securityResult.get? SecurityBlock.encapsulatedBlock =
      sb.securityResult.get? SecurityBlock.encapsulatedBlock ∧
    sb'.ciphersuiteParams.get? SecurityBlock.initializationVector =
      sb.ciphersuiteParams.get? SecurityBlock.initializationVector ∧ sb'.skip = skip

section Law

variable {aes : AES128Stream} {env : DeserializerEnv} {n : Block} {b : Bundle} {xs ys : List Block}
  {c : Block} {change : Block → Block} {skip : ℕ} {salt : UInt32} {key iv array : Bytes}

/-- The block at the place is encrypted, the security block is changed by the caller, and it is
decrypted: the bundle is restored. -/
def Restores (aes : AES128Stream) (env : DeserializerEnv) (n : Block) (b : Bundle) (index : ℕ)
    (change : Block → Block) (salt : UInt32) (key iv array : Bytes) : Prop :=
  ∃ b', ((b.encryptBlock aes n index salt key iv).modify index change).decryptBlock aes env index
    salt key array = (.ok (), b') ∧ b.RestoredAt b' index

/-- The tag of the security block is not that of its ciphertext. -/
def BadTag (aes : AES128Stream) (sb : SecurityBlock) (salt : UInt32) (key array : Bytes) : Prop :=
  ∃ iv data, sb.ciphersuiteParams.get? SecurityBlock.initializationVector = some iv ∧
    sb.securityResult.get? SecurityBlock.encapsulatedBlock = some data ∧
    aes.tagLen ≤ data.length ∧
    aes.verify key salt (fillArray array iv) (data.take (data.length - aes.tagLen))
      (data.drop (data.length - aes.tagLen)) = false

/-- **A block with a bad tag is refused**, and the bundle stays as it is. -/
theorem decryptBlock_of_badTag {index : ℕ} {sb : SecurityBlock}
    (hsb : ((b.blocks[index]?).bind fun block => block.body.security?) = some sb)
    (h : BadTag aes sb salt key array) : b.decryptBlock aes env index salt key array =
      (.error (.exception "decryption of block failed - tag is bad"), b) := by
  obtain ⟨iv, data, hiv, hdata, hlen, hverify⟩ := h
  rw [decryptBlock, hsb]
  simp only [hiv, hdata, if_neg (not_lt.2 hlen), hverify, Bool.not_false, if_true]

theorem skip_create (id : UInt64) : (SecurityBlock.create id).skip = 0 :=
  (by decide : (SecurityBlock.create 0).skip = 0)

theorem skip_enclose (data iv : Bytes) (sb : SecurityBlock) :
    (sb.enclose data iv).skip = sb.skip := by
  have h {flag : UInt64} (hresult : SecurityBlock.containsSecurityResult &&& flag = 0)
      (hparams : SecurityBlock.containsCiphersuiteParams &&& flag = 0) :
      SecurityBlock.has (sb.enclose data iv).ciphersuiteFlags flag =
        SecurityBlock.has sb.ciphersuiteFlags flag := by
    rw [SecurityBlock.has, SecurityBlock.enclose, FlagWord.has, FlagWord.or_and_of_disjoint hparams,
      FlagWord.or_and_of_disjoint hresult]
    rfl
  rw [SecurityBlock.skip, h (by decide) (by decide), h (by decide) (by decide), SecurityBlock.skip]

/-- **Encrypting and decrypting a block restores the bundle** exactly if the block is restorable. -/
theorem restores_iff (haes : aes.Lawful) (hblob : env.blob.CopiesExactly)
    (hblock : ∀ b size, env.validator.block b size = .ok ()) (hc : c.Sealable)
    (hblocks : b.blocks = xs ++ c :: ys) {id : UInt64}
    (hn : n.body.security? = some (SecurityBlock.create id))
    (hchange : KeepsCiphertext change skip) (hiv : iv.length = array.length) :
    Restores aes env n b xs.length change salt key iv array ↔ c.Restorable ys skip := by
  obtain ⟨s, he⟩ := security?_enclosing aes hn b xs.length salt key iv c
  obtain ⟨e', ys', hmark, -, hbody, hagain⟩ :=
    BlockList.exists_markBack_cons (enclosing aes n b xs.length salt key iv c) ys
  rw [← hbody] at he
  obtain ⟨sb', hsb', hresult, hparam, hskip⟩ :=
    hchange e' _ he ((skip_enclose _ _ _).trans (skip_create id))
  simp only [SecurityBlock.enclose, TLVList.get?_set_self] at hresult hparam
  have hencrypted : ((b.encryptBlock aes n xs.length salt key iv).modify xs.length change) =
      { b with blocks := xs ++ change e' :: ys' } := by
    rw [encryptBlock_eq aes n hblocks, hmark, modify, modify_append]
  obtain ⟨body, hserialize, hdecrypt⟩ := decryptBlock_eq haes hc hblob hblock
    (b := { b with blocks := xs ++ change e' :: ys' }) rfl hsb' hiv hparam hresult
  rw [hagain, hskip] at hdecrypt
  rw [Restores, hencrypted, hdecrypt, ← Block.same_restored_iff c hserialize ys skip]
  simp only [Prod.mk.injEq, true_and, exists_eq_left']
  constructor
  · rintro ⟨-, xs', c₁, c', ys₁, hlen, heq, heq', hsame⟩
    rw [hblocks] at heq
    obtain ⟨rfl, htail⟩ := List.append_inj heq hlen.symm
    obtain ⟨rfl, rfl⟩ := List.cons.inj htail
    exact ⟨c', List.append_cancel_left heq', hsame⟩
  · rintro ⟨c', heq, hsame⟩
    exact ⟨rfl, xs, c, c', ys, rfl, hblocks, by rw [heq], hsame⟩

/-- **The law of encrypted blocks**: a bundle is restored exactly if the block is restorable, and
a block with a bad tag is refused. -/
theorem encryption_law (haes : aes.Lawful) {blob : BLOB} (hblob : blob.CopiesExactly)
    (now : DTNTime) (hc : c.Sealable) (hblocks : b.blocks = xs ++ c :: ys) {id : UInt64}
    (hn : n.body.security? = some (SecurityBlock.create id))
    (hchange : KeepsCiphertext change skip) (hiv : iv.length = array.length) :
    (Restores aes (.default blob now) n b xs.length change salt key iv array ↔
        c.Restorable ys skip) ∧
      ∀ (b' : Bundle) (index : ℕ) (sb : SecurityBlock),
        ((b'.blocks[index]?).bind fun block => block.body.security?) = some sb →
        BadTag aes sb salt key array →
        ∃ e, b'.decryptBlock aes (.default blob now) index salt key array = (.error e, b') :=
  ⟨restores_iff haes hblob (fun _ _ => rfl) hc hblocks hn hchange hiv,
    fun _ _ _ hsb hbad => ⟨_, decryptBlock_of_badTag hsb hbad⟩⟩

end Law

end Bundle

/-- A stream that adds one to each byte, with the sum of the bytes as tag. -/
def AES128Stream.sample : AES128Stream where
  tagLen := 16
  encrypt _ _ _ bs := bs.map (· + 1)
  getTag _ _ _ bs := List.replicate 16 bs.sum
  decrypt _ _ _ bs := bs.map (· - 1)
  verify _ _ _ bs tag := tag == List.replicate 16 (bs.map (· - 1)).sum

theorem AES128Stream.lawful_sample : AES128Stream.sample.Lawful := by
  have hcancel (bs : Bytes) : (bs.map (· + 1)).map (· - 1) = bs := by
    rw [List.map_map]
    exact (List.map_congr_left fun b _ => UInt8.add_sub_cancel b 1).trans (List.map_id bs)
  exact ⟨fun _ _ _ _ => List.length_replicate, fun _ _ _ => hcancel,
    fun _ _ _ bs => by simp only [AES128Stream.sample, hcancel, beq_self_eq_true]⟩

namespace Bundle

/-- The array for an initialization vector. -/
def sampleArray : Bytes := List.replicate 8 0

theorem encryption_law_sample :
    Restores AES128Stream.sample (.default BLOB.exact ⟨0, 0⟩) Block.newPayloadConfidential
      (sample [samplePayload Block.lastBlock []]) 0 id 7 [1] [1, 2, 3, 4, 5, 6, 7, 8]
      sampleArray := by
  have hn : Block.newPayloadConfidential.body.security? = some (SecurityBlock.create 3) := rfl
  have hkeeps : KeepsCiphertext id 0 := fun e sb he hsb => ⟨sb, he, rfl, rfl, hsb⟩
  have hblocks : (sample [samplePayload Block.lastBlock []]).blocks =
    [] ++ samplePayload Block.lastBlock [] :: [] := rfl
  refine (encryption_law AES128Stream.lawful_sample BLOB.exact_copiesExactly ⟨0, 0⟩
    ⟨.inl (by decide), fun _ h => ?_, by decide, by decide⟩ hblocks hn hkeeps (by decide)).1.2
    ⟨.inl rfl, by decide, by decide, by simp⟩
  exact absurd h (by simp [samplePayload, Body.security?])

/-- What is left of the blocks of a bundle after one of them was encrypted and decrypted. -/
def recrypted (b : Bundle) (index : ℕ) : List (UInt8 × UInt64 × List EID × Bytes) :=
  let b' := (b.encryptBlock AES128Stream.sample Block.newPayloadConfidential index 7 [1]
    [1, 2, 3, 4, 5, 6, 7, 8]).decryptBlock AES128Stream.sample (.default BLOB.exact ⟨0, 0⟩) index 7
    [1] sampleArray
  b'.2.blocks.map fun c => (c.blocktype, c.procflags, c.eids, c.body.serialize)

/-- **A payload with an EID, a hop limit with an EID and a block of an unknown type are not
restored.** -/
theorem not_restores_sample :
    [samplePayload (Block.lastBlock ||| Block.blockContainsEids) [sampleEID],
      ⟨199, Block.lastBlock ||| Block.blockContainsEids, [sampleEID],
        .scopeControlHopLimit ⟨1, 2⟩⟩,
      ⟨200, Block.lastBlock, [], .extension [1]⟩].Forall fun c =>
    ¬ Restores AES128Stream.sample (.default BLOB.exact ⟨0, 0⟩) Block.newPayloadConfidential
      (sample [c]) 0 id 7 [1] [1, 2, 3, 4, 5, 6, 7, 8] sampleArray := by
  have hne {c : Block} (h : recrypted (sample [c]) 0 ≠
      [(c.blocktype, c.procflags, c.eids, c.body.serialize)]) :
      ¬ Restores AES128Stream.sample (.default BLOB.exact ⟨0, 0⟩) Block.newPayloadConfidential
        (sample [c]) 0 id 7 [1] [1, 2, 3, 4, 5, 6, 7, 8] sampleArray := by
    rintro ⟨b', hb', -, xs, c₁, c', ys, hlen, hblocks, hblocks', hsame⟩
    refine h ?_
    obtain rfl := List.eq_nil_of_length_eq_zero hlen
    obtain ⟨rfl, rfl⟩ := List.cons.inj hblocks
    have hid : ((sample [c]).encryptBlock AES128Stream.sample Block.newPayloadConfidential 0 7 [1]
        [1, 2, 3, 4, 5, 6, 7, 8]).modify 0 id = (sample [c]).encryptBlock AES128Stream.sample
        Block.newPayloadConfidential 0 7 [1] [1, 2, 3, 4, 5, 6, 7, 8] := by
      rw [modify, List.modify_id]
    rw [hid] at hb'
    rw [recrypted, hb']
    simp only [hblocks', List.nil_append, List.map_cons, List.map_nil, hsame.blocktype,
      hsame.procflags, hsame.eids, hsame.payload]
  exact ⟨hne (by decide +kernel), hne (by decide +kernel), hne (by decide +kernel)⟩

end Bundle

end IbrDtn
