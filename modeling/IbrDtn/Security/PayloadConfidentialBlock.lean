import IbrDtn.Data.Compression
import IbrDtn.Data.SharedBlocks
import IbrDtn.Security.BlockEncryption

/-!
# Payload confidential blocks

This file models `PayloadConfidentialBlock::decrypt` of
`ibrdtn/security/PayloadConfidentialBlock.cpp` and `SecurityBlock::decryptBlock`, on bundle objects
and their references to blocks.  The first confidentiality block decrypts the payload in place.  If
it has a correlator, then each one behind it is replaced by what it encloses.  At the end the
integrity blocks and the confidentiality blocks that were met are removed.

The RSA functions of OpenSSL are the parameter `RSA`, the streams of `ibrcommon` are the parameter
`AES128Stream`.

## Main definitions

* `PayloadConfidentialBlock.decrypt` : the operation, with the memory that it leaves.
* `PayloadConfidentialBlock.Gone` : which references it takes away.

## Main results

* `BundleMemory.Leaves` : what an operation leaves of the references of a bundle.
* `PayloadConfidentialBlock.leaves_decrypt` : which references `decrypt` takes away.
-/

namespace IbrDtn

/-! ### What an operation leaves of a bundle -/

namespace Body

/-- `dynamic_cast<const PayloadConfidentialBlock&>`. -/
def payloadConfidential? : Body → Option SecurityBlock
  | .payloadConfidential b => some b
  | _ => none

/-- `dynamic_cast<const PayloadIntegrityBlock&>`. -/
def payloadIntegrity? : Body → Option SecurityBlock
  | .payloadIntegrity b _ => some b
  | _ => none

end Body

namespace BundleMemory

/-- **What is left of the objects and the references of a bundle**: the references that are gone are
the given ones, and no security block of class `PayloadConfidentialBlock` or `PayloadIntegrityBlock`
is changed. -/
structure Leaves (m m' : BundleMemory) (i : ℕ) (gone : ℕ → Prop) : Prop where
  distinct : m'.Distinct i
  next : m.next ≤ m'.next
  confidential : ∀ q < m.next,
    (m'.heap q).body.payloadConfidential? = (m.heap q).body.payloadConfidential?
  integrity : ∀ q < m.next, (m'.heap q).body.payloadIntegrity? = (m.heap q).body.payloadIntegrity?
  mem : ∀ q < m.next, q ∈ m'.refs i ↔ q ∈ m.refs i ∧ ¬ gone q

variable {m m' m'' : BundleMemory} {i : ℕ} {gone gone' : ℕ → Prop}

/-- Nothing is done. -/
theorem Distinct.leaves (h : m.Distinct i) : m.Leaves m i fun _ => False :=
  ⟨h, le_rfl, fun _ _ => rfl, fun _ _ => rfl, fun _ _ => (and_iff_left not_false).symm⟩

namespace Leaves

theorem trans (h : m.Leaves m' i gone) (h' : m'.Leaves m'' i gone') :
    m.Leaves m'' i fun q => gone q ∨ gone' q where
  distinct := h'.distinct
  next := h.next.trans h'.next
  confidential q hq := (h'.confidential q (hq.trans_le h.next)).trans (h.confidential q hq)
  integrity q hq := (h'.integrity q (hq.trans_le h.next)).trans (h.integrity q hq)
  mem q hq := by
    rw [h'.mem q (hq.trans_le h.next), h.mem q hq, not_or, and_assoc]

theorem congr (h : m.Leaves m' i gone) (heq : ∀ q ∈ m.refs i, gone q ↔ gone' q) :
    m.Leaves m' i gone' :=
  { h with
    mem := fun q hq => (h.mem q hq).trans (and_congr_right fun hmem => not_congr (heq q hmem)) }

end Leaves

/-! #### The operations -/

/-- An object is given other members. -/
def write (m : BundleMemory) (p : ℕ) (body : Body) : BundleMemory :=
  { m with heap := Function.update m.heap p { m.heap p with body := body } }

/-- Blocks are put in front of a block, one behind the other. -/
def insertAll (m : BundleMemory) (i : ℕ) (blocks : List Block) (before : ℕ) : BundleMemory :=
  blocks.foldl (fun m block => m.insert i block before) m

/-- `Bundle::getBlock<T>`: the first block of the type, which has to be one of the class. -/
def getBlock {α : Type} (m : BundleMemory) (i : ℕ) (type : UInt8) (cast : Body → Option α) :
    Option (ℕ × α) :=
  ((m.refs i).find? fun p => (m.heap p).blocktype == type).bind fun p =>
    (cast (m.heap p).body).map (Prod.mk p)

theorem getBlock_eq_some {α : Type} {m : BundleMemory} {i : ℕ} {type : UInt8}
    {cast : Body → Option α} {x : ℕ × α} (h : m.getBlock i type cast = some x) :
    x.1 ∈ m.refs i ∧ (m.heap x.1).blocktype = type ∧ cast (m.heap x.1).body = some x.2 := by
  obtain ⟨p, hp, hcast⟩ := Option.bind_eq_some_iff.1 h
  obtain ⟨y, hy, rfl⟩ := Option.map_eq_some_iff.1 hcast
  exact ⟨List.mem_of_find?_eq_some hp, beq_iff_eq.1 (List.find?_some hp :), hy⟩

theorem heap_write_self (m : BundleMemory) (p : ℕ) (body : Body) :
    (m.write p body).heap p = { m.heap p with body := body } :=
  Function.update_self _ _ _

theorem heap_write_of_ne (m : BundleMemory) {p q : ℕ} (hqp : q ≠ p) (body : Body) :
    (m.write p body).heap q = m.heap q :=
  Function.update_of_ne hqp _ _

/-- The references of the list are kept. -/
theorem mem_insertBefore_of_mem {p before q : ℕ} {qs : List ℕ} (hq : q ∈ qs) :
    q ∈ insertBefore p before qs := by
  induction qs with
  | nil => exact hq
  | cons r qs ih =>
      rw [insertBefore]
      split_ifs
      · exact List.mem_cons_of_mem p hq
      · exact List.mem_cons.2 ((List.mem_cons.1 hq).imp_right ih)

theorem body_set (b : Block) (flag : UInt64) (value : Bool) :
    (b.set flag value).body = b.body := rfl

theorem body_mark (m : BundleMemory) (p q : ℕ) (flag : Bool) :
    ((m.mark p flag).heap q).body = (m.heap q).body := by
  by_cases hqp : q = p
  · rw [hqp, heap_mark_self, body_set]
  · rw [heap_mark_of_ne _ hqp]

/-- The members of a removed block and of the others stay as they are. -/
theorem body_remove (m : BundleMemory) (i p q : ℕ) :
    ((m.remove i p).heap q).body = (m.heap q).body := by
  rw [remove]
  split_ifs
  · dsimp only
    split
    · exact body_mark _ _ _ _
    · rfl
  · rfl

theorem next_remove (m : BundleMemory) (i p : ℕ) : (m.remove i p).next = m.next := by
  rw [remove]
  split_ifs
  · dsimp only
    split <;> rfl
  · rfl

theorem refs_remove (m : BundleMemory) (i p : ℕ) : (m.remove i p).refs i = (m.refs i).erase p := by
  rw [remove]
  split_ifs with hp
  · dsimp only
    split <;> exact refs_setRefs_self m
  · exact (List.erase_of_not_mem hp).symm

namespace Distinct

/-- A block is removed. -/
theorem leaves_remove (h : m.Distinct i) (p : ℕ) : m.Leaves (m.remove i p) i (· = p) where
  distinct := by
    refine ⟨fun q hq => ?_, ?_⟩
    · rw [next_remove]
      exact h.allocated q (List.mem_of_mem_erase (refs_remove m i p ▸ hq))
    · rw [refs_remove]
      exact h.nodup.erase p
  next := (next_remove m i p).ge
  confidential q _ := congrArg Body.payloadConfidential? (body_remove m i p q)
  integrity q _ := congrArg Body.payloadIntegrity? (body_remove m i p q)
  mem q _ := by rw [refs_remove, h.nodup.mem_erase_iff, and_comm]

/-- A block is put in front of another one. -/
theorem leaves_insert (h : m.Distinct i) (block : Block) (before : ℕ) :
    m.Leaves (m.insert i block before) i fun _ => False where
  distinct := by
    have hrefs : (m.insert i block before).refs i = insertBefore m.next before (m.refs i) :=
      refs_setRefs_self _
    refine ⟨fun q hq => ?_, hrefs ▸ nodup_insertBefore h.next_not_mem h.nodup⟩
    rcases mem_insertBefore (hrefs ▸ hq) with rfl | hq
    · exact Nat.lt_succ_self _
    · exact (h.allocated q hq).trans (Nat.lt_succ_self _)
  next := Nat.le_succ _
  confidential q hq :=
    congrArg (fun c : Block => c.body.payloadConfidential?) (heap_allocate_of_ne m hq.ne)
  integrity q hq :=
    congrArg (fun c : Block => c.body.payloadIntegrity?) (heap_allocate_of_ne m hq.ne)
  mem q hq := by
    have hrefs : (m.insert i block before).refs i = insertBefore m.next before (m.refs i) :=
      refs_setRefs_self _
    rw [hrefs, and_iff_left not_false]
    exact ⟨fun hmem => (mem_insertBefore hmem).resolve_left hq.ne, mem_insertBefore_of_mem⟩

theorem leaves_insertAll (h : m.Distinct i) (blocks : List Block) (before : ℕ) :
    m.Leaves (m.insertAll i blocks before) i fun _ => False := by
  induction blocks generalizing m with
  | nil => exact h.leaves
  | cons block blocks ih =>
      have hinsert := h.leaves_insert block before
      exact (hinsert.trans (ih hinsert.distinct)).congr fun _ _ => or_self_iff

/-- Blocks are removed. -/
theorem leaves_removeAll (h : m.Distinct i) (ps : List ℕ) :
    m.Leaves (ps.foldl (fun m p => m.remove i p) m) i (· ∈ ps) := by
  induction ps generalizing m with
  | nil => exact h.leaves.congr fun q _ => iff_of_false id List.not_mem_nil
  | cons p ps ih =>
      have hremove := h.leaves_remove p
      exact (hremove.trans (ih hremove.distinct)).congr fun q _ => List.mem_cons.symm

/-- A block of another class is written. -/
theorem leaves_write (h : m.Distinct i) {p : ℕ} {body : Body}
    (hc : body.payloadConfidential? = (m.heap p).body.payloadConfidential?)
    (hi : body.payloadIntegrity? = (m.heap p).body.payloadIntegrity?) :
    m.Leaves (m.write p body) i fun _ => False where
  distinct := ⟨h.allocated, h.nodup⟩
  next := le_rfl
  confidential q _ := by
    by_cases hqp : q = p
    · rw [hqp, heap_write_self, hc]
    · rw [heap_write_of_ne m hqp]
  integrity q _ := by
    by_cases hqp : q = p
    · rw [hqp, heap_write_self, hi]
    · rw [heap_write_of_ne m hqp]
  mem q _ := (and_iff_left not_false).symm

end Distinct

end BundleMemory

/-! ### Decryption -/

/-- The parameter for the RSA functions of OpenSSL: what a private key makes of a text. -/
structure RSA where
  privateDecrypt : Bytes → Bytes → Option Bytes

namespace SecurityBlock

/-- The members of `SecurityBlock::TLV_TYPES` that are used here. -/
def keyInformation : UInt8 := 3
def salt : UInt8 := 7
def integrityCheckValue : UInt8 := 8

/-- `PCB_RSA_AES128_PAYLOAD_PIB_PCB` among `SecurityBlock::CIPHERSUITE_IDS`. -/
def pcbRsaAes128PayloadPibPcb : UInt64 := 3

/-- `SecurityBlock::TLVList::get`. -/
def element (l : TLVList) (type : UInt8) : Except Exn Bytes :=
  match l.get? type with
  | some value => .ok value
  | none => .error (.exception "element not found")

/-- `SecurityBlock::getSalt`. -/
def getSalt (params : TLVList) : Except Exn UInt32 := do
  let nsalt ← element params salt
  pure (UInt32.ofNat
    ((fillArray (List.replicate 4 0) nsalt).foldl (fun n b => n * 256 + b.toNat) 0))

/-- `SecurityBlock::getKey`, where `array` is what the array for the key is filled from if the
decrypted text is too short. -/
def getKey (rsa : RSA) (params : TLVList) (array : Bytes) (key : SecurityKey) :
    Except Exn (Option Bytes) := do
  let information ← element params keyInformation
  pure ((rsa.privateDecrypt key.data information).map (fillArray array))

/-- The first part of `SecurityBlock::decryptBlock`: the plaintext of what a block encloses. The
array for the initialization vector has the content `array` before it is filled. -/
def plaintext (aes : AES128Stream) (b : SecurityBlock) (salt : UInt32) (key array : Bytes) :
    Except Exn Bytes := do
  let iv ← element b.ciphersuiteParams initializationVector
  let data ← element b.securityResult encapsulatedBlock
  let size := data.length - aes.tagLen
  if data.length < aes.tagLen then
    throw (.undefined "the tag begins in front of the data")
  else if !aes.verify key salt (fillArray array iv) (data.take size) (data.drop size) then
    throw (.exception "decryption of block failed - tag is bad")
  else pure (aes.decrypt key salt (fillArray array iv) (data.take size))

section Blocks

variable (env : DeserializerEnv)

/-- A new block is read. -/
def readNew (n : Block) : Loader Exn (DefaultDeserializer × List Block) Unit := do
  let (d, _) ← Loader.object
  Loader.within (d, n) (fun p o => (p.1, o.2 ++ [p.2])) (DefaultDeserializer.readBlock env)

/-- `plaintext_block.getEIDList().clear()`, which clears a copy of the list, and
`copyEID(plaintext_block, plaintext_block, skip)`. -/
def copyEIDs (skip : ℕ) : Loader Exn (DefaultDeserializer × List Block) Unit :=
  Loader.update fun o => (o.1, o.2.modify (o.2.length - 1) fun c => c.copyEID c skip)

/-- The second part of `SecurityBlock::decryptBlock`: the blocks that are put in front of the one
that encloses them, as they are when the plaintext was read. -/
def readBlocks (skip : ℕ) : Loader Exn (DefaultDeserializer × List Block) Unit := do
  let blockType := (← Loader.ofParser Parser.peekByte).getD 0xff
  if blockType = Block.payloadType then readNew env Block.newPayload
  else
    MonadExcept.tryCatch
      (match Factory.get blockType with
      | none => throw (.exception "Factory not available")
      | some n => do
          readNew env n
          copyEIDs skip)
      fun e =>
        if e.isException then do
          readNew env Block.newExtension
          copyEIDs skip
        else throw e

/-- Whether reading a plaintext throws, and the blocks that are made. -/
def plainBlocks (skip : ℕ) (text : Bytes) : Except Exn Unit × List Block :=
  let (r, (o, _)) := (readBlocks env skip).run
    ((DefaultDeserializer.create, []), InStream.ofBytes text)
  (r, o.2)

end Blocks

end SecurityBlock

namespace PayloadConfidentialBlock

open SecurityBlock

/-- `PayloadConfidentialBlock::BLOCK_TYPE`. -/
def blockType : UInt8 := 4

/-- What the arrays for a key, an initialization vector and a tag hold before they are filled. -/
structure Arrays where
  key : Bytes
  iv : Bytes
  tag : Bytes

section Functions

variable (aes : AES128Stream) (rsa : RSA) (env : DeserializerEnv) (arrays : ℕ → Arrays)

/-- `SecurityBlock::decryptBlock`, of a reference to a block with the given members. -/
def decryptBlock (m : BundleMemory) (i p : ℕ) (b : SecurityBlock) (salt : UInt32) (key : Bytes) :
    Except Exn Unit × BundleMemory :=
  match b.plaintext aes salt key (arrays p).iv with
  | .error e => (.error e, m)
  | .ok text =>
      match plainBlocks env b.skip text with
      | (.ok _, blocks) => (.ok (), (m.insertAll i blocks p).remove i p)
      | (.error e, blocks) => (.error e, m.insertAll i blocks p)

/-- `PayloadConfidentialBlock::decryptPayload`, which decrypts in place with the vector and the tag
of the first confidentiality block, and says whether the tag is right. -/
def decryptPayload (m : BundleMemory) (i p : ℕ) (key : Bytes) (salt : UInt32) :
    Except Exn Bool × BundleMemory :=
  match m.getBlock i blockType Body.payloadConfidential?, m.getBlock i Block.payloadType
      Body.payload? with
  | some (_, b), some (q, blob) =>
      match element b.ciphersuiteParams initializationVector,
          element b.securityResult integrityCheckValue with
      | .ok iv, .ok tag =>
          let iv := fillArray (arrays p).iv iv
          (.ok (aes.verify key salt iv blob (fillArray (arrays p).tag tag)),
            m.write q (.payload (aes.decrypt key salt iv blob)))
      | _, _ => (.error (.exception "element not found"), m)
  | _, _ => (.error CompressedPayloadBlock.noSuchBlockFound, m)

/-- The first confidentiality block of the loop: it has to be for the key, and gives the key for the
payload and the blocks behind it. A payload that was decrypted with a bad tag is decrypted again. -/
def decryptFirst (m : BundleMemory) (i p : ℕ) (b : SecurityBlock) (longKey : SecurityKey)
    (salt : UInt32) : Except Exn Bytes × BundleMemory :=
  match b.isSecurityDestination (m.bundles i).primary longKey.reference with
  | .error e => (.error e, m)
  | .ok isDestination =>
      if !(isDestination && b.ciphersuiteId == pcbRsaAes128PayloadPibPcb) then
        (.error (.exception "unable to decrypt the first PCB"), m)
      else
        match getKey rsa b.ciphersuiteParams (arrays p).key longKey with
        | .error e => (.error e, m)
        | .ok none =>
            (.error (.exception "decrypt failed - could not get symmetric key decrypted"), m)
        | .ok (some key) =>
            match decryptPayload aes arrays m i p key salt with
            | (.error e, m) => (.error e, m)
            | (.ok true, m) => (.ok key, m)
            | (.ok false, m) =>
                match decryptPayload aes arrays m i p key salt with
                | (.error e, m) => (.error e, m)
                | (.ok _, m) =>
                    (.error (.exception "decrypt reversed - tag verfication failed"), m)

/-- The loop of `decrypt` behind a first block with a correlator, and the references that are to be
removed. A block that cannot be decrypted is tried a second time. -/
def decryptRelated (i : ℕ) (key : Bytes) : List ℕ → BundleMemory → List ℕ →
    Except Exn (List ℕ) × BundleMemory
  | [], m, erasure => (.ok erasure, m)
  | p :: ps, m, erasure =>
      let erasure := if (m.heap p).body.payloadIntegrity?.isSome then erasure ++ [p] else erasure
      match (m.heap p).body.payloadConfidential? with
      | none => decryptRelated i key ps m erasure
      | some b =>
          match getSalt b.ciphersuiteParams with
          | .error e => (.error e, m)
          | .ok salt =>
              match decryptBlock aes env arrays m i p b salt key with
              | (.ok _, m) => decryptRelated i key ps m (erasure ++ [p])
              | (.error e, m) =>
                  if e.isException then
                    match decryptBlock aes env arrays m i p b salt key with
                    | (.error e, m) => (.error e, m)
                    | (.ok _, m) => (.error (.exception
                        "decrypt of correlated block reversed, tag verfication failed"), m)
                  else (.error e, m)

/-- The loop of `decrypt` up to the first confidentiality block. -/
def decryptLoop (i : ℕ) (longKey : SecurityKey) : List ℕ → BundleMemory → List ℕ →
    Except Exn (List ℕ) × BundleMemory
  | [], m, erasure => (.ok erasure, m)
  | p :: ps, m, erasure =>
      let erasure := if (m.heap p).body.payloadIntegrity?.isSome then erasure ++ [p] else erasure
      match (m.heap p).body.payloadConfidential? with
      | none => decryptLoop i longKey ps m erasure
      | some b =>
          match getSalt b.ciphersuiteParams with
          | .error e => (.error e, m)
          | .ok salt =>
              match decryptFirst aes rsa arrays m i p b longKey salt with
              | (.error e, m) => (.error e, m)
              | (.ok key, m) =>
                  if has b.ciphersuiteFlags containsCorrelator then
                    decryptRelated aes env arrays i key ps m (erasure ++ [p])
                  else (.ok (erasure ++ [p]), m)

/-- The end of `decrypt`: all blocks in the erasure list are removed. -/
def deleteAll (i : ℕ) : Except Exn (List ℕ) × BundleMemory → Except Exn Unit × BundleMemory
  | (.error e, m) => (.error e, m)
  | (.ok erasure, m) => (.ok (), erasure.foldl (fun m p => m.remove i p) m)

/-- `PayloadConfidentialBlock::decrypt`. -/
def decrypt (m : BundleMemory) (i : ℕ) (longKey : SecurityKey) : Except Exn Unit × BundleMemory :=
  deleteAll i (decryptLoop aes rsa env arrays i longKey (m.refs i) m [])

end Functions

/-! ### What is decrypted -/

section Conditions

variable (aes : AES128Stream) (rsa : RSA) (env : DeserializerEnv) (arrays : ℕ → Arrays)
  (m : BundleMemory) (i : ℕ)

/-- What `decryptBlock` does with the members of a block: it returns or throws. -/
def opens (key : Bytes) (p : ℕ) (b : SecurityBlock) : Except Exn Unit := do
  let salt ← getSalt b.ciphersuiteParams
  let text ← b.plaintext aes salt key (arrays p).iv
  (plainBlocks env b.skip text).1

/-- What is thrown at a confidentiality block behind the first one. -/
def failure (key : Bytes) (p : ℕ) : Option Exn :=
  match (m.heap p).body.payloadConfidential? with
  | none => none
  | some b =>
      match opens aes env arrays key p b with
      | .ok _ => none
      | .error e => some e

/-- What the first confidentiality block gives or throws. -/
def opensFirst (longKey : SecurityKey) (p : ℕ) (b : SecurityBlock) : Except Exn Bytes := do
  let salt ← getSalt b.ciphersuiteParams
  (decryptFirst aes rsa arrays m i p b longKey salt).1

/-- The reference is one of a confidentiality block. -/
def IsConfidential (p : ℕ) : Prop := (m.heap p).body.payloadConfidential?.isSome

/-- The reference is one of an integrity block. -/
def IsIntegrity (p : ℕ) : Prop := (m.heap p).body.payloadIntegrity?.isSome

instance (p : ℕ) : Decidable (IsConfidential m p) := inferInstanceAs (Decidable (_ = true))

instance (p : ℕ) : Decidable (IsIntegrity m p) := inferInstanceAs (Decidable (_ = true))

/-- What `decrypt` does with the references: it returns or throws. -/
def outcome (longKey : SecurityKey) : List ℕ → Except Exn Unit
  | [] => .ok ()
  | p :: ps =>
      match (m.heap p).body.payloadConfidential? with
      | none => outcome longKey ps
      | some b =>
          match opensFirst aes rsa arrays m i longKey p b with
          | .error e => .error e
          | .ok key =>
              if has b.ciphersuiteFlags containsCorrelator then
                match ps.findSome? (failure aes env arrays m key) with
                | none => .ok ()
                | some e => .error e
              else .ok ()

/-- **The references that `decrypt` takes away.** The integrity blocks that were met go when it
returns, with the first confidentiality block. With a correlator it goes on: each one behind that is
decrypted goes, and all the integrity blocks when the last one is. -/
def Gone (longKey : SecurityKey) (q : ℕ) : List ℕ → Prop
  | [] => False
  | p :: ps =>
      match (m.heap p).body.payloadConfidential? with
      | none => Gone longKey q ps ∨
          (q = p ∧ IsIntegrity m p ∧ outcome aes rsa env arrays m i longKey ps = .ok ())
      | some b =>
          match opensFirst aes rsa arrays m i longKey p b with
          | .error _ => False
          | .ok key =>
              if has b.ciphersuiteFlags containsCorrelator then
                (q = p ∨ q ∈ ps ∧ (IsConfidential m q ∨ IsIntegrity m q)) ∧
                    ps.findSome? (failure aes env arrays m key) = none ∨
                  q ∈ ps.takeWhile (fun p => (failure aes env arrays m key p).isNone) ∧
                    IsConfidential m q
              else q = p

end Conditions

section Results

variable (aes : AES128Stream) (rsa : RSA) (env : DeserializerEnv) (arrays : ℕ → Arrays)
  {m m' : BundleMemory} {i : ℕ} (p : ℕ) (b : SecurityBlock) (salt : UInt32) (key : Bytes)
  (longKey : SecurityKey)

/-- What a call throws does not depend on the bundle. -/
theorem decryptBlock_fst : (decryptBlock aes env arrays m i p b salt key).1 = (do
    let text ← b.plaintext aes salt key (arrays p).iv
    (plainBlocks env b.skip text).1) := by
  rw [decryptBlock]
  cases htext : b.plaintext aes salt key (arrays p).iv with
  | error e => rfl
  | ok text => rcases hblocks : plainBlocks env b.skip text with ⟨_ | _, blocks⟩ <;>
      simp [hblocks, bind, Except.bind]

/-- The reference is taken away if the block is decrypted. -/
theorem leaves_decryptBlock (h : m.Distinct i) :
    m.Leaves (decryptBlock aes env arrays m i p b salt key).2 i fun q =>
      (decryptBlock aes env arrays m i p b salt key).1 = .ok () ∧ q = p := by
  have hfail {e : Exn} (q : ℕ) : False ↔ (Except.error e : Except Exn Unit) = .ok () ∧ q = p :=
    iff_of_false id fun ⟨hok, _⟩ => by cases hok
  rw [decryptBlock]
  cases htext : b.plaintext aes salt key (arrays p).iv with
  | error e => exact h.leaves.congr fun q _ => hfail q
  | ok text =>
      have hinsert := h.leaves_insertAll (plainBlocks env b.skip text).2 p
      rcases hblocks : plainBlocks env b.skip text with ⟨e | ⟨⟩, blocks⟩
      · rw [hblocks] at hinsert
        simp only [hblocks]
        exact hinsert.congr fun q _ => hfail q
      · rw [hblocks] at hinsert
        simp only [hblocks]
        have hremove := hinsert.distinct.leaves_remove p
        exact (hinsert.trans hremove).congr fun q _ => by rw [false_or, and_iff_right trivial]

/-- The payload is written, and no reference is taken away. -/
theorem leaves_decryptPayload (h : m.Distinct i) :
    m.Leaves (decryptPayload aes arrays m i p key salt).2 i fun _ => False := by
  rw [decryptPayload]
  cases hfirst : m.getBlock i blockType Body.payloadConfidential? with
  | none => exact h.leaves
  | some x =>
      cases hpayload : m.getBlock i Block.payloadType Body.payload? with
      | none => exact h.leaves
      | some y =>
          have hbody := (BundleMemory.getBlock_eq_some hpayload).2.2
          dsimp only
          split
          · cases hcast : (m.heap y.1).body <;> rw [hcast] at hbody <;> cases hbody
            refine h.leaves_write ?_ ?_ <;> rw [hcast] <;> rfl
          · exact h.leaves

theorem leaves_decryptFirst (h : m.Distinct i) :
    m.Leaves (decryptFirst aes rsa arrays m i p b longKey salt).2 i fun _ => False := by
  rw [decryptFirst]
  cases b.isSecurityDestination (m.bundles i).primary longKey.reference with
  | error e => exact h.leaves
  | ok isDestination =>
      dsimp only
      split_ifs
      · exact h.leaves
      · cases getKey rsa b.ciphersuiteParams (arrays p).key longKey with
        | error e => exact h.leaves
        | ok key? =>
            cases key? with
            | none => exact h.leaves
            | some key =>
                have hpayload := leaves_decryptPayload aes arrays p salt key h
                dsimp only
                rcases hrun : decryptPayload aes arrays m i p key salt with ⟨e | _ | _, m'⟩
                · rw [hrun] at hpayload
                  exact hpayload
                · rw [hrun] at hpayload
                  have hagain := leaves_decryptPayload aes arrays p salt key hpayload.distinct
                  have hboth := (hpayload.trans hagain).congr fun _ _ => or_self_iff
                  dsimp only at hboth ⊢
                  rcases hrun' : decryptPayload aes arrays m' i p key salt with ⟨e | _, m''⟩ <;>
                  · rw [hrun'] at hboth
                    exact hboth
                · rw [hrun] at hpayload
                  exact hpayload

/-! #### The loops -/

/-- The members of the blocks are those that they have in another memory. -/
structure Alike (m m' : BundleMemory) (p : ℕ) : Prop where
  confidential : (m'.heap p).body.payloadConfidential? = (m.heap p).body.payloadConfidential?
  integrity : (m'.heap p).body.payloadIntegrity? = (m.heap p).body.payloadIntegrity?

theorem Alike.trans {m'' : BundleMemory} {p : ℕ} (h : Alike m m' p) (h' : Alike m' m'' p) :
    Alike m m'' p :=
  ⟨h'.confidential.trans h.confidential, h'.integrity.trans h.integrity⟩

theorem alike_of_leaves {gone : ℕ → Prop} {p : ℕ} (h : m.Leaves m' i gone) (hp : p < m.next) :
    Alike m m' p :=
  ⟨h.confidential p hp, h.integrity p hp⟩

/-- What the loop behind the first confidentiality block returns, and which references it takes
away. The members of the blocks are those that they have in `m₀`. -/
theorem decryptRelated_spec {m₀ : BundleMemory} {ps : List ℕ} (h : m.Distinct i)
    (hps : ∀ p ∈ ps, p < m.next) (hm₀ : ∀ p ∈ ps, Alike m₀ m p) (erasure : List ℕ) :
    (decryptRelated aes env arrays i key ps m erasure).1 =
        (match ps.findSome? (failure aes env arrays m₀ key) with
        | some e => .error e
        | none => .ok (erasure ++ ps.filter fun p => IsConfidential m₀ p ∨ IsIntegrity m₀ p)) ∧
      m.Leaves (decryptRelated aes env arrays i key ps m erasure).2 i fun q =>
        q ∈ ps.takeWhile (fun p => (failure aes env arrays m₀ key p).isNone) ∧
          IsConfidential m₀ q := by
  induction ps generalizing m erasure with
  | nil => exact ⟨by simp [decryptRelated], h.leaves.congr fun q _ => by simp⟩
  | cons p ps ih =>
      obtain ⟨hp, hps⟩ := List.forall_mem_cons.1 hps
      obtain ⟨hp₀, hm₀⟩ := List.forall_mem_cons.1 hm₀
      rw [decryptRelated, hp₀.confidential, hp₀.integrity]
      cases hb : (m₀.heap p).body.payloadConfidential? with
      | none =>
          have hfailure : failure aes env arrays m₀ key p = none := by rw [failure, hb]
          have hnot : ¬ IsConfidential m₀ p := by simp [IsConfidential, hb]
          obtain ⟨hfst, hleaves⟩ := ih h hps hm₀ (if (m₀.heap p).body.payloadIntegrity?.isSome then
            erasure ++ [p] else erasure)
          refine ⟨hfst.trans ?_, hleaves.congr fun q _ => ?_⟩
          · rw [List.findSome?_cons, hfailure]
            cases ps.findSome? (failure aes env arrays m₀ key) with
            | some e => rfl
            | none =>
                by_cases hi : IsIntegrity m₀ p
                · simp [hnot, hi, show (m₀.heap p).body.payloadIntegrity?.isSome = true from hi]
                · simp [hnot, hi, show ¬ (m₀.heap p).body.payloadIntegrity?.isSome = true from hi]
          · rw [List.takeWhile_cons, hfailure]
            simp only [Option.isNone_none, if_true, List.mem_cons]
            refine and_congr_left fun hq => (or_iff_right ?_).symm
            rintro rfl
            exact hnot hq
      | some b =>
          have hconf : IsConfidential m₀ p := by simp [IsConfidential, hb]
          have hint : (m₀.heap p).body.payloadIntegrity? = none := by
            cases hbody : (m₀.heap p).body <;> rw [hbody] at hb <;> first | rfl | cases hb
          simp only [hint, Option.isSome_none, Bool.false_eq_true, if_false]
          cases hsalt : getSalt b.ciphersuiteParams with
          | error e =>
              have hfailure : failure aes env arrays m₀ key p = some e := by
                simp [failure, hb, opens, hsalt, bind, Except.bind]
              exact ⟨by simp [hfailure], h.leaves.congr fun q _ => by simp [hfailure]⟩
          | ok salt =>
              have hopens (m : BundleMemory) : opens aes env arrays key p b =
                  (decryptBlock aes env arrays m i p b salt key).1 := by
                rw [decryptBlock_fst, opens, hsalt]
                rfl
              have hleaves := leaves_decryptBlock aes env arrays p b salt key h
              have hopen := hopens m
              dsimp only
              rcases hrun : decryptBlock aes env arrays m i p b salt key with ⟨e | ⟨⟩, m₁⟩
              · -- The block stays, and so it does at the second try.
                rw [hrun] at hleaves hopen
                have hfailure : failure aes env arrays m₀ key p = some e := by
                  simp [failure, hb, hopen]
                have hkept : m.Leaves m₁ i fun _ => False := hleaves.congr fun q _ =>
                  iff_of_false (fun hok => by cases hok.1) id
                have hagain := leaves_decryptBlock aes env arrays p b salt key hkept.distinct
                have hopen' := (hopens m₁).symm.trans hopen
                dsimp only at hkept hagain hopen'
                simp only [List.findSome?_cons, hfailure, List.takeWhile_cons, Option.isNone_some]
                by_cases he : e.isException
                · rw [if_pos he]
                  rcases hrun' : decryptBlock aes env arrays m₁ i p b salt key with ⟨e' | ⟨⟩, m₂⟩
                  · rw [hrun'] at hagain hopen'
                    obtain rfl : e' = e := Except.error.inj hopen'
                    refine ⟨rfl, (hkept.trans hagain).congr fun q _ => ?_⟩
                    simp
                  · rw [hrun'] at hopen'
                    cases hopen'
                · rw [if_neg he]
                  exact ⟨rfl, hkept.congr fun q _ => by simp⟩
              · -- The block is replaced, and the loop goes on.
                rw [hrun] at hleaves hopen
                have hfailure : failure aes env arrays m₀ key p = none := by
                  simp [failure, hb, hopen]
                have htaken : m.Leaves m₁ i (· = p) :=
                  hleaves.congr fun q _ => and_iff_right rfl
                obtain ⟨hfst, hrest⟩ := ih htaken.distinct
                  (fun q hq => (hps q hq).trans_le htaken.next)
                  (fun q hq => (hm₀ q hq).trans (alike_of_leaves htaken (hps q hq)))
                  (erasure ++ [p])
                refine ⟨hfst.trans ?_, (htaken.trans hrest).congr fun q _ => ?_⟩
                · rw [List.findSome?_cons, hfailure]
                  cases ps.findSome? (failure aes env arrays m₀ key) with
                  | some e => rfl
                  | none => simp [hconf]
                · rw [List.takeWhile_cons, hfailure]
                  simp only [Option.isNone_none, if_true, List.mem_cons, or_and_right]
                  refine or_congr_left ⟨fun heq => ⟨heq, heq ▸ hconf⟩, And.left⟩

/-- What the loop of `decrypt` and the removals behind it return and take away. -/
theorem decryptLoop_spec {ps : List ℕ} (h : m.Distinct i) (hps : ∀ p ∈ ps, p < m.next)
    (erasure : List ℕ) :
    (deleteAll i (decryptLoop aes rsa env arrays i longKey ps m erasure)).1 =
        outcome aes rsa env arrays m i longKey ps ∧
      m.Leaves (deleteAll i (decryptLoop aes rsa env arrays i longKey ps m erasure)).2 i fun q =>
        Gone aes rsa env arrays m i longKey q ps ∨
          q ∈ erasure ∧ outcome aes rsa env arrays m i longKey ps = .ok () := by
  induction ps generalizing erasure with
  | nil =>
      refine ⟨rfl, (h.leaves_removeAll erasure).congr fun q _ => ?_⟩
      simp [Gone, outcome]
  | cons p ps ih =>
      obtain ⟨hp, hps⟩ := List.forall_mem_cons.1 hps
      simp only [decryptLoop, Gone, outcome]
      cases hb : (m.heap p).body.payloadConfidential? with
      | none =>
          obtain ⟨hfst, hleaves⟩ := ih hps (if (m.heap p).body.payloadIntegrity?.isSome then
            erasure ++ [p] else erasure)
          refine ⟨hfst, hleaves.congr fun q _ => ?_⟩
          by_cases hi : IsIntegrity m p
          · simp only [show (m.heap p).body.payloadIntegrity?.isSome = true from hi, if_true,
              List.mem_append, List.mem_singleton, hi, true_and]
            tauto
          · simp only [show ¬ (m.heap p).body.payloadIntegrity?.isSome = true from hi, hi,
              false_and, and_false, or_false]
            tauto
      | some b =>
          have hint : (m.heap p).body.payloadIntegrity? = none := by
            cases hbody : (m.heap p).body <;> rw [hbody] at hb <;> first | rfl | cases hb
          simp only [hint, Option.isSome_none, Bool.false_eq_true, if_false, opensFirst]
          cases hsalt : getSalt b.ciphersuiteParams with
          | error e => exact ⟨rfl, h.leaves.congr fun q _ => by simp [bind, Except.bind]⟩
          | ok salt =>
              have hfirst := leaves_decryptFirst aes rsa arrays p b salt longKey h
              rw [show (do let salt ← Except.ok salt
                           (decryptFirst aes rsa arrays m i p b longKey salt).1) =
                (decryptFirst aes rsa arrays m i p b longKey salt).1 from rfl]
              dsimp only
              rcases hrun : decryptFirst aes rsa arrays m i p b longKey salt with ⟨e | key, m₁⟩
              · rw [hrun] at hfirst
                exact ⟨rfl, hfirst.congr fun q _ => by simp⟩
              · rw [hrun] at hfirst
                dsimp only at hfirst ⊢
                split_ifs with hcorrelator
                · -- The blocks behind are decrypted with the same key.
                  obtain ⟨hfst, hrelated⟩ := decryptRelated_spec aes env arrays key
                    hfirst.distinct (fun q hq => (hps q hq).trans_le hfirst.next)
                    (fun q hq => alike_of_leaves hfirst (hps q hq)) (erasure ++ [p])
                  have hboth := (hfirst.trans hrelated)
                  rcases hloop : decryptRelated aes env arrays i key ps m₁ (erasure ++ [p]) with
                    ⟨r, m₂⟩
                  rw [hloop] at hfst hboth
                  dsimp only at hfst hboth
                  subst hfst
                  cases hfailure : ps.findSome? (failure aes env arrays m key) with
                  | some e => exact ⟨rfl, hboth.congr fun q _ => by simp⟩
                  | none =>
                      refine ⟨rfl, (hboth.trans (hboth.distinct.leaves_removeAll _)).congr
                        fun q _ => ?_⟩
                      simp only [List.mem_append, List.mem_singleton, List.mem_filter,
                        decide_eq_true_eq, false_or, and_true]
                      tauto
                · -- The loop ends.
                  refine ⟨rfl, (hfirst.trans (hfirst.distinct.leaves_removeAll _)).congr
                    fun q _ => ?_⟩
                  simp only [List.mem_append, List.mem_singleton, false_or, and_true]
                  tauto

/-- **What `decrypt` returns, and which references it takes away.** -/
theorem decrypt_spec (h : m.Distinct i) :
    (decrypt aes rsa env arrays m i longKey).1 =
        outcome aes rsa env arrays m i longKey (m.refs i) ∧
      m.Leaves (decrypt aes rsa env arrays m i longKey).2 i fun q =>
        Gone aes rsa env arrays m i longKey q (m.refs i) := by
  obtain ⟨hfst, hleaves⟩ := decryptLoop_spec aes rsa env arrays longKey h h.allocated []
  exact ⟨hfst, hleaves.congr fun q _ => by simp⟩

end Results

end PayloadConfidentialBlock

end IbrDtn
