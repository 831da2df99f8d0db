import IbrDtn.Routing.BaseRouter
import IbrDtn.Security.SecurityKeyManager
import IbrDtn.Security.SignedTravel

/-!
# The security manager

This file models `verify`, `verifyBAB` and `verifyPIB` of `daemon/src/security/SecurityManager.cpp`,
and `BundleAuthenticationBlock::strip`.  A router has each bundle from a peer checked before it is
stored.  The first authentication block that has a key decides whether the bundle is refused.  The
integrity blocks are never a reason to refuse it: they decide about a flag, and a block for this
node sets it whether there is a valid signature or not.

A security source without a name for its key file makes `SecurityKeyManager::get` throw an
exception that it does not declare, which ends the program.

## Main definitions

* `SecurityManager.verify` : the checks.
* `SecurityManager.Verifies` : an integrity block is taken as verified.
* `SecurityManager.Refuses`, `SecurityManager.Halts` : how the checks fail.
* `SecurityManager.Checked` : what the checks make of a bundle.

## Main results

* `PayloadIntegrityBlock.verify_congr` : what a verification sees of a bundle.
* `SecurityManager.verify_error_iff` : when the checks fail, and how.
* `SecurityManager.checked_of_verify` : what they make of a bundle otherwise.
-/

namespace IbrDtn


/-- The flags of `PrimaryBlock::FLAGS` for a bundle whose signature or authentication was
checked. -/
def PrimaryBlock.dtnsecStatusVerified : UInt64 := 0x10000000
def PrimaryBlock.dtnsecStatusAuthenticated : UInt64 := 0x40000000

/-- `set` of a bundle. -/
def Bundle.setStatus (b : Bundle) (flag : UInt64) : Bundle :=
  { b with toPrimaryBlock := b.toPrimaryBlock.set flag true }

/-- `ex.what()`. -/
def Exn.what : Exn → String
  | .exception what | .ioException what | .missingObject what | .invalidData what
  | .invalidProtocol what | .serializationFailed what | .rejected what | .undefined what
  | .diverges what => what

namespace BundleAuthenticationBlock

/-- The members of a block of the class. -/
def members? (c : Block) : Option SecurityBlock :=
  match c.body with
  | .bundleAuthentication s => some s
  | _ => none

/-- The loop of `strip` over a list of blocks, of which the next one is the first that is left in
the bundle. -/
def stripLoop : ℕ → Bundle → Bundle
  | 0, b => b
  | n + 1, b => stripLoop n (b.remove (b.blocks.findIdx fun c => (members? c).isSome))

/-- `BundleAuthenticationBlock::strip(bundle)`. -/
def strip (b : Bundle) : Bundle := stripLoop (getBlocks b.blocks).length b

end BundleAuthenticationBlock

/-! ### Blocks without their mark -/

namespace BlockList

/-- The lists differ in the marks of the last block. -/
def Alike (xs ys : List Block) : Prop :=
  xs.map (fun c => c.set Block.lastBlock false) = ys.map fun c => c.set Block.lastBlock false

variable {xs ys zs : List Block}

theorem Alike.trans (h : Alike xs ys) (h' : Alike ys zs) : Alike xs zs := Eq.trans h h'

theorem alike_markBack (xs : List Block) : Alike (markBack xs) xs := by
  refine map_markBack (fun c value => ?_) xs
  cases value with
  | true =>
      rw [Block.set, Block.set, Block.set, FlagWord.assign, FlagWord.assign, FlagWord.assign]
      simp [FlagWord.or_and_not_self]
  | false =>
      rw [Block.set, Block.set, FlagWord.assign, FlagWord.assign]
      simp [UInt64.and_assoc]

/-- What does not depend on the mark is the same for both lists. -/
theorem Alike.map {α : Type} (h : Alike xs ys) {g : Block → α}
    (hg : ∀ c value, g (c.set Block.lastBlock value) = g c) : xs.map g = ys.map g := by
  have hself (zs : List Block) :
      zs.map g = (zs.map fun c => c.set Block.lastBlock false).map g := by
    rw [List.map_map]
    exact List.map_congr_left fun c _ => (hg c false).symm
  rw [hself xs, hself ys, h]

theorem Alike.filterMap {α : Type} (h : Alike xs ys) {g : Block → Option α}
    (hg : ∀ c value, g (c.set Block.lastBlock value) = g c) :
    xs.filterMap g = ys.filterMap g := by
  have hself (zs : List Block) : zs.filterMap g = (zs.map g).reduceOption := by
    rw [List.reduceOption, List.filterMap_map]
    rfl
  rw [hself, hself, h.map hg]

theorem Alike.filter (h : Alike xs ys) {p : Block → Bool}
    (hp : ∀ c value, p (c.set Block.lastBlock value) = p c) :
    Alike (xs.filter p) (ys.filter p) := by
  have hself (zs : List Block) : (zs.filter p).map (fun c => c.set Block.lastBlock false) =
      (zs.map fun c => c.set Block.lastBlock false).filter p := by
    rw [List.filter_map]
    refine congrArg _ (List.filter_congr fun c _ => ?_)
    exact (hp c false).symm
  rw [Alike, hself, hself, h]

end BlockList

namespace BundleAuthenticationBlock

theorem getBlocks_eq (cs : List Block) : getBlocks cs = cs.filterMap members? := rfl

theorem members?_set_last (c : Block) (value : Bool) :
    members? (c.set Block.lastBlock value) = members? c := rfl

theorem stripLoop_primary (n : ℕ) (b : Bundle) :
    (stripLoop n b).toPrimaryBlock = b.toPrimaryBlock := by
  induction n generalizing b with
  | zero => rfl
  | succ n ih => exact ih _

/-- **What is left**: the blocks of other classes, in their order. -/
theorem alike_stripLoop {n : ℕ} {b : Bundle} (h : (getBlocks b.blocks).length = n) :
    BlockList.Alike (stripLoop n b).blocks
      (b.blocks.filter fun c => (members? c).isNone) := by
  induction n generalizing b with
  | zero =>
      rw [stripLoop, List.filter_eq_self.2]
      · rfl
      · intro c hc
        rw [getBlocks_eq, List.length_eq_zero_iff, List.filterMap_eq_nil_iff] at h
        rw [h c hc]
        rfl
  | succ n ih =>
      rw [getBlocks_eq] at h
      obtain ⟨s, rest, hcons⟩ := List.exists_cons_of_length_eq_add_one h
      obtain ⟨xs, c, ys, hblocks, hxs, hc, -⟩ := List.filterMap_eq_cons_iff.1 hcons
      have hindex : b.blocks.findIdx (fun c => (members? c).isSome) = xs.length := by
        rw [hblocks, List.findIdx_append, List.findIdx_eq_length.2, if_neg (lt_irrefl _),
          List.findIdx_cons, hc]
        · exact Nat.zero_add _
        · intro x hx
          rw [hxs x hx]
          rfl
      have hremove : (b.remove xs.length).blocks = BlockList.markBack (xs ++ ys) := by
        rw [Bundle.remove, hblocks, BlockList.remove_append]
      have halike := BlockList.alike_markBack (xs ++ ys)
      rw [stripLoop, hindex]
      refine (ih ?_).trans ?_
      · rw [hremove, getBlocks_eq, halike.filterMap members?_set_last, List.filterMap_append]
        rw [hblocks, List.filterMap_append, List.filterMap_cons_some hc] at h
        simp only [List.length_append, List.length_cons] at h ⊢
        omega
      · have hfilter : b.blocks.filter (fun c => (members? c).isNone) =
            (xs ++ ys).filter fun c => (members? c).isNone := by
          rw [hblocks, List.filter_append, List.filter_append,
            List.filter_cons_of_neg (by simp [hc])]
        rw [hremove, hfilter]
        refine halike.filter fun c value => ?_
        rw [members?_set_last]

theorem alike_strip (b : Bundle) :
    BlockList.Alike (strip b).blocks (b.blocks.filter fun c => (members? c).isNone) :=
  alike_stripLoop rfl

theorem strip_primary (b : Bundle) : (strip b).toPrimaryBlock = b.toPrimaryBlock :=
  stripLoop_primary _ b

end BundleAuthenticationBlock

namespace PayloadIntegrityBlock

/-- The members of a block of the class. -/
def members? (c : Block) : Option SecurityBlock :=
  match c.body with
  | .payloadIntegrity s _ => some s
  | _ => none

/-- What a verification sees of a block: the members of an integrity block, and its form. -/
def trace (c : Block) : Option SecurityBlock × Bytes :=
  (members? c, MutualSerializer.writeBlock c)

/-- The members of the integrity blocks with the forms of the blocks from them on. -/
def signedParts : List (Option SecurityBlock × Bytes) → List (SecurityBlock × Bytes)
  | [] => []
  | t :: ts =>
      t.1.toList.map (fun s => (s, t.2 ++ (ts.map Prod.snd).flatten)) ++ signedParts ts

/-- `verify` of one block, with the data that was signed. -/
def verifyData (rsa : Rsa) (p : PrimaryBlock) (key : SecurityKey) (sb : SecurityBlock)
    (data : Bytes) : Except Exn Unit := do
  if !(← sb.isSecuritySource p key.reference) then
    throw (.exception "key not match the security source")
  if sb.ciphersuiteId ≠ pibRsaSha256 then
    throw (.exception "can not verify the PIB because of an invalid algorithm")
  if !rsa.present key.data then throw (.exception "verification error")
  match sb.securityResult.get? SecurityBlock.integritySignature with
  | none => throw (.exception "element not found")
  | some signature =>
      let ret := rsa.verification key.data data signature
      if ret = 0 then throw (.exception "verification failed")
      else if ret < 0 then throw (.exception "verification error")
      else pure ()

theorem verifyBlock_eq (rsa : Rsa) (b : Bundle) (key : SecurityKey) (i : ℕ) (s : SecurityBlock) :
    verifyBlock rsa b key i s =
      verifyData rsa b.toPrimaryBlock key s (MutualSerializer.writeBundle (some i) b) := rfl

theorem getBlocks_eq (cs : List Block) : getBlocks cs =
    cs.zipIdx.filterMap fun x => (members? x.1).map fun s => (x.2, s) := by
  refine List.filterMap_congr fun x _ => ?_
  rw [members?]
  cases x.1.body <;> rfl

theorem getBlocks_cons (c : Block) (cs : List Block) : getBlocks (c :: cs) =
    (members? c).toList.map (fun s => (0, s)) ++
      (getBlocks cs).map fun x => (x.1 + 1, x.2) := by
  have htail : ((cs.zipIdx 1).filterMap fun x => (members? x.1).map fun s => (x.2, s)) =
      (getBlocks cs).map fun x => (x.1 + 1, x.2) := by
    rw [getBlocks_eq, List.zipIdx_succ, List.filterMap_map, List.map_filterMap]
    refine List.filterMap_congr fun x _ => ?_
    rw [Option.map_map]
    rfl
  rw [getBlocks_eq, List.zipIdx_cons, List.filterMap_cons, htail]
  cases members? c <;> rfl

/-- The blocks of a bundle with what a verification of them compares. -/
theorem map_getBlocks (cs : List Block) :
    (getBlocks cs).map (fun x => (x.2, ((cs.map MutualSerializer.writeBlock).drop x.1).flatten)) =
      signedParts (cs.map trace) := by
  induction cs with
  | nil => rfl
  | cons c cs ih =>
      rw [getBlocks_cons, List.map_append, List.map_map, List.map_map, List.map_cons,
        List.map_cons, signedParts, ← ih, List.map_map]
      refine congrArg₂ _ ?_ rfl
      exact List.map_congr_left fun s _ => rfl

/-- Blocks that are neither integrity blocks nor part of the form do not matter. -/
theorem signedParts_filter {cs : List Block} {p : Block → Bool}
    (h : ∀ c ∈ cs, p c = false → trace c = (none, [])) :
    signedParts ((cs.filter p).map trace) = signedParts (cs.map trace) ∧
      (((cs.filter p).map trace).map Prod.snd).flatten = ((cs.map trace).map Prod.snd).flatten := by
  induction cs with
  | nil => exact ⟨rfl, rfl⟩
  | cons c cs ih =>
      obtain ⟨hc, hcs⟩ := List.forall_mem_cons.1 h
      obtain ⟨hparts, hforms⟩ := ih hcs
      cases hp : p c with
      | true =>
          rw [List.filter_cons_of_pos hp]
          simp only [List.map_cons, signedParts, List.flatten_cons, hparts, hforms, and_self]
      | false =>
          rw [List.filter_cons_of_neg (Bool.eq_false_iff.1 hp), hparts, hforms]
          simp only [List.map_cons, signedParts, List.flatten_cons, hc hp, Option.toList_none,
            List.map_nil, List.nil_append, and_self]

/-- What `verify` of a bundle depends on. -/
theorem verify_eq (rsa : Rsa) (b : Bundle) (key : SecurityKey) : verify rsa b key =
    (signedParts (b.blocks.map trace)).forM fun x =>
      verifyData rsa b.toPrimaryBlock key x.1
        (MutualSerializer.writePrimary b.toPrimaryBlock ++ x.2) := by
  rw [verify, ← map_getBlocks]
  generalize getBlocks b.blocks = xs
  induction xs with
  | nil => rfl
  | cons x xs ih =>
      have hx : verifyBlock rsa b key x.1 x.2 = verifyData rsa b.toPrimaryBlock key x.2
          (MutualSerializer.writePrimary b.toPrimaryBlock ++
            ((b.blocks.map MutualSerializer.writeBlock).drop x.1).flatten) := by
        rw [verifyBlock_eq, MutualSerializer.writeBundle_eq_flatten]
      exact congrArg₂ (fun (r r' : Except Exn Unit) => r >>= fun _ => r') hx ih

/-- **A verification sees** the source, the form of the header, and the parts that are signed. -/
theorem verify_congr {b b' : Bundle} (hsource : b'.source = b.source)
    (hprimary : MutualSerializer.writePrimary b'.toPrimaryBlock =
      MutualSerializer.writePrimary b.toPrimaryBlock)
    (hparts : signedParts (b'.blocks.map trace) = signedParts (b.blocks.map trace)) (rsa : Rsa)
    (key : SecurityKey) : verify rsa b' key = verify rsa b key := by
  rw [verify_eq, verify_eq, hparts, hprimary]
  refine congrArg _ (funext fun x => ?_)
  rw [verifyData, BundleAuthenticationBlock.isSecuritySource_congr hsource, verifyData]

theorem get_strip (rsa : Rsa) (b : Bundle) (key : SecurityKey) (flag : UInt64) :
    (strip rsa b key false).get flag = b.get flag := by
  rw [strip, stripLoop_eq]
  split <;> rfl

theorem members_getBlocks (cs : List Block) :
    (getBlocks cs).map Prod.snd = (signedParts (cs.map trace)).map Prod.fst := by
  rw [← map_getBlocks, List.map_map]
  rfl

end PayloadIntegrityBlock

/-! ### The checks -/

/-- What `SecurityManager` uses: the keys, `BundleCore::local`, and the libraries. -/
structure SecurityManager where
  keys : SecurityKeyManager
  localEID : EID
  hmac : Bytes → Bytes → Bytes
  rsa : Rsa

namespace SecurityManager

section Functions

variable (m : SecurityManager)

/-- The loop of `SecurityManager::verifyBAB`. The source of a block is looked up outside of the
`try` block. -/
def verifyBABLoop (b : Bundle) : List SecurityBlock → Except BaseRouter.Exn Bundle
  | [] => .ok b
  | bab :: babs =>
      match bab.getSecuritySource b.toPrimaryBlock with
      | .error _ => .error (.other .unexpected)
      | .ok node =>
          match m.keys.get node .keyShared with
          | .error e => .error (.other e)
          | .ok none => verifyBABLoop b babs
          | .ok (some key) =>
              match BundleAuthenticationBlock.verify m.hmac b key with
              | .error e => .error (.verificationFailed e.what)
              | .ok _ => .ok ((BundleAuthenticationBlock.strip b).setStatus
                  PrimaryBlock.dtnsecStatusAuthenticated)

/-- `SecurityManager::verifyBAB`. -/
def verifyBAB (b : Bundle) : Except BaseRouter.Exn Bundle :=
  verifyBABLoop m b (BundleAuthenticationBlock.getBlocks b.blocks)

/-- The loop of `SecurityManager::verifyPIB`. What is thrown in it is caught again, so a block that
is not verified is passed over. -/
def verifyPIBLoop (b : Bundle) : List SecurityBlock → Except BaseRouter.Exn Bundle
  | [] => .ok b
  | pib :: pibs =>
      match pib.getSecuritySource b.toPrimaryBlock with
      | .error _ => verifyPIBLoop b pibs
      | .ok source =>
          match m.keys.get source .keyPublic with
          | .error e => .error (.other e)
          | .ok none => verifyPIBLoop b pibs
          | .ok (some key) =>
              match pib.isSecurityDestination b.toPrimaryBlock m.localEID with
              | .error _ => verifyPIBLoop b pibs
              | .ok true => .ok ((PayloadIntegrityBlock.strip m.rsa b key false).setStatus
                  PrimaryBlock.dtnsecStatusVerified)
              | .ok false =>
                  match PayloadIntegrityBlock.verify m.rsa b key with
                  | .error _ => verifyPIBLoop b pibs
                  | .ok () => verifyPIBLoop (b.setStatus PrimaryBlock.dtnsecStatusVerified) pibs

/-- `SecurityManager::verifyPIB`. -/
def verifyPIB (b : Bundle) : Except BaseRouter.Exn Bundle :=
  verifyPIBLoop m b ((PayloadIntegrityBlock.getBlocks b.blocks).map Prod.snd)

/-- `SecurityManager::verify`. -/
def verify (b : Bundle) : Except BaseRouter.Exn Bundle := do
  verifyPIB m (← verifyBAB m b)

end Functions

/-! ### What a check leaves alone -/

/-- A block that is neither an authentication nor an integrity block. -/
def other (c : Block) : Bool :=
  (BundleAuthenticationBlock.members? c).isNone && (PayloadIntegrityBlock.members? c).isNone

/-- The bundles differ in the two flags, in authentication and integrity blocks, and in the mark of
the last block. -/
structure Passes (b b' : Bundle) : Prop where
  header : { b'.toPrimaryBlock with procflags := b.procflags } = b.toPrimaryBlock
  flags (flag : UInt64) (ha : PrimaryBlock.dtnsecStatusAuthenticated &&& flag = 0)
    (hv : PrimaryBlock.dtnsecStatusVerified &&& flag = 0) : b'.get flag = b.get flag
  others : BlockList.Alike (b'.blocks.filter other) (b.blocks.filter other)

variable {m : SecurityManager} {b b' b'' : Bundle}

theorem Passes.refl (b : Bundle) : Passes b b where
  header := rfl
  flags _ _ _ := rfl
  others := rfl

theorem Passes.trans (h : Passes b b') (h' : Passes b' b'') : Passes b b'' where
  header := by
    rw [← h.header, ← h'.header]
  flags flag ha hv := (h'.flags flag ha hv).trans (h.flags flag ha hv)
  others := h'.others.trans h.others

theorem Passes.of_blocks {blocks : List Block}
    (h : BlockList.Alike (blocks.filter other) (b.blocks.filter other)) :
    Passes b { b with blocks := blocks } where
  header := rfl
  flags _ _ _ := rfl
  others := h

theorem Passes.setStatus (b : Bundle) {flag : UInt64}
    (h : flag = PrimaryBlock.dtnsecStatusAuthenticated ∨ flag = PrimaryBlock.dtnsecStatusVerified) :
    Passes b (b.setStatus flag) where
  header := rfl
  flags other ha hv := by
    refine FlagWord.has_assign_of_disjoint ?_ true
    rcases h with rfl | rfl
    · exact ha
    · exact hv
  others := rfl

theorem other_set_last (c : Block) (value : Bool) :
    other (c.set Block.lastBlock value) = other c := rfl

theorem Passes.stripBAB (b : Bundle) : Passes b (BundleAuthenticationBlock.strip b) := by
  have hblocks : BundleAuthenticationBlock.strip b =
      { b with blocks := (BundleAuthenticationBlock.strip b).blocks } := by
    rw [← BundleAuthenticationBlock.strip_primary b]
  rw [hblocks]
  refine .of_blocks ?_
  have halike := (BundleAuthenticationBlock.alike_strip b).filter other_set_last
  rw [List.filter_filter] at halike
  refine halike.trans (congrArg _ (List.filter_congr fun c _ => ?_))
  rw [other]
  cases (BundleAuthenticationBlock.members? c).isNone <;> simp

theorem Passes.stripPIB (b : Bundle) (rsa : Rsa) (key : SecurityKey) :
    Passes b (PayloadIntegrityBlock.strip rsa b key false) := by
  rw [PayloadIntegrityBlock.strip, PayloadIntegrityBlock.stripLoop_eq]
  cases hfind : (PayloadIntegrityBlock.getBlocks b.blocks).find? fun c =>
      (PayloadIntegrityBlock.verifyBlock rsa b key c.1 c.2).isOk with
  | none => exact .refl b
  | some x =>
      obtain ⟨c, size, hget, hbody⟩ :=
        PayloadIntegrityBlock.mem_getBlocks.1 (List.mem_of_find?_eq_some hfind)
      obtain ⟨hlt, rfl⟩ := List.getElem?_eq_some_iff.1 hget
      refine .of_blocks ?_
      rw [BlockList.remove, if_pos hlt]
      refine ((BlockList.alike_markBack _).filter other_set_last).trans (congrArg _ ?_)
      have hnot : other b.blocks[x.1] = false := by
        rw [other, BundleAuthenticationBlock.members?, PayloadIntegrityBlock.members?, hbody]
        rfl
      rw [List.eraseIdx_eq_take_drop_succ, List.filter_append]
      nth_rewrite 3 [← List.take_append_drop x.1 b.blocks]
      rw [List.filter_append, List.drop_eq_getElem_cons hlt,
        List.filter_cons_of_neg (Bool.eq_false_iff.1 hnot)]

/-! ### The blocks that decide -/

/-- The key of the security source of a block. -/
def keyOf (m : SecurityManager) (p : PrimaryBlock) (type : SecurityKey.KeyType)
    (s : SecurityBlock) : Except Exn (Option SecurityKey) := do
  let source ← s.getSecuritySource p
  m.keys.get source type

/-- The key is found. -/
def Finds (m : SecurityManager) (p : PrimaryBlock) (type : SecurityKey.KeyType)
    (s : SecurityBlock) (key : SecurityKey) : Prop :=
  keyOf m p type s = .ok (some key)

/-- The security source has no name for its file. -/
def Nameless (p : PrimaryBlock) (s : SecurityBlock) : Prop :=
  ∃ source, s.getSecuritySource p = .ok source ∧
    ∀ text, SecurityKeyManager.owner source ≠ .ok text

/-- This node is to check the block, and has the key. -/
def Stops (m : SecurityManager) (p : PrimaryBlock) (s : SecurityBlock) : Prop :=
  (∃ key, Finds m p .keyPublic s key) ∧ s.isSecurityDestination p m.localEID = .ok true

/-- The block is taken as verified: it is for this node, or all integrity blocks verify under its
key. -/
def Verifies (m : SecurityManager) (b : Bundle) (s : SecurityBlock) : Prop :=
  ∃ key, Finds m b.toPrimaryBlock .keyPublic s key ∧
    (s.isSecurityDestination b.toPrimaryBlock m.localEID = .ok true ∨
      s.isSecurityDestination b.toPrimaryBlock m.localEID = .ok false ∧
        PayloadIntegrityBlock.verify m.rsa b key = .ok ())

/-- What a check of the integrity blocks depends on. -/
structure SameChecks (b b' : Bundle) : Prop where
  source : b'.source = b.source
  destination : b'.destination = b.destination
  primary : MutualSerializer.writePrimary b'.toPrimaryBlock =
    MutualSerializer.writePrimary b.toPrimaryBlock
  parts : PayloadIntegrityBlock.signedParts (b'.blocks.map PayloadIntegrityBlock.trace) =
    PayloadIntegrityBlock.signedParts (b.blocks.map PayloadIntegrityBlock.trace)

variable {p p' : PrimaryBlock} {s : SecurityBlock} {type : SecurityKey.KeyType}

theorem finds_iff {key : SecurityKey} : Finds m p type s key ↔
    ∃ source, s.getSecuritySource p = .ok source ∧ m.keys.get source type = .ok (some key) := by
  rw [Finds, keyOf]
  cases s.getSecuritySource p with
  | error e => simp [bind, Except.bind]
  | ok source => simp [bind, Except.bind]

theorem keyOf_congr (h : p'.source = p.source) : keyOf m p' type s = keyOf m p type s := by
  unfold keyOf SecurityBlock.getSecuritySource
  rw [h]

theorem finds_congr (h : p'.source = p.source) (key : SecurityKey) :
    Finds m p' type s key ↔ Finds m p type s key := by
  rw [Finds, keyOf_congr h, Finds]

theorem nameless_congr (h : p'.source = p.source) : Nameless p' s ↔ Nameless p s := by
  rw [Nameless, SecurityBlock.getSecuritySource, h]
  rfl

theorem isSecurityDestination_congr (h : p'.destination = p.destination) (eid : EID) :
    s.isSecurityDestination p' eid = s.isSecurityDestination p eid := by
  rw [SecurityBlock.isSecurityDestination, SecurityBlock.getSecurityDestination, h]
  rfl

theorem SameChecks.stops_iff (h : SameChecks b b') :
    Stops m b'.toPrimaryBlock s ↔ Stops m b.toPrimaryBlock s := by
  rw [Stops, isSecurityDestination_congr h.destination]
  simp only [finds_congr h.source]
  rfl

theorem SameChecks.verifies_iff (h : SameChecks b b') : Verifies m b' s ↔ Verifies m b s := by
  rw [Verifies, isSecurityDestination_congr h.destination]
  simp only [finds_congr h.source, PayloadIntegrityBlock.verify_congr h.source h.primary h.parts]
  rfl

theorem SameChecks.setStatus (b : Bundle) {flag : UInt64}
    (h : flag &&& MutualSerializer.primaryMask = 0) : SameChecks b (b.setStatus flag) where
  source := rfl
  destination := rfl
  primary := by
    have hflags : FlagWord.assign b.procflags flag true &&& MutualSerializer.primaryMask =
        b.procflags &&& MutualSerializer.primaryMask := FlagWord.or_and_of_disjoint h
    rw [MutualSerializer.writePrimary, MutualSerializer.writePrimary]
    simp only [Bundle.setStatus, PrimaryBlock.set, hflags, MutualSerializer.primaryLength]
  parts := rfl

theorem SameChecks.trans (h : SameChecks b b') (h' : SameChecks b' b'') : SameChecks b b'' where
  source := h'.source.trans h.source
  destination := h'.destination.trans h.destination
  primary := h'.primary.trans h.primary
  parts := h'.parts.trans h.parts

theorem SameChecks.stripBAB (htypes : ∀ c ∈ b.blocks, c.body.HasType c.blocktype) :
    SameChecks b (BundleAuthenticationBlock.strip b) := by
  have hprimary := BundleAuthenticationBlock.strip_primary b
  refine ⟨congrArg PrimaryBlock.source hprimary, congrArg PrimaryBlock.destination hprimary,
    congrArg MutualSerializer.writePrimary hprimary, ?_⟩
  have halike := (BundleAuthenticationBlock.alike_strip b).map
    (g := PayloadIntegrityBlock.trace) fun c value => by
      rw [PayloadIntegrityBlock.trace, MutualSerializer.writeBlock_set_lastBlock]
      rfl
  rw [halike]
  refine (PayloadIntegrityBlock.signedParts_filter fun c hc hmembers => ?_).1
  rw [BundleAuthenticationBlock.members?] at hmembers
  have hbody : ∃ s, c.body = .bundleAuthentication s := by
    cases hbody : c.body <;> rw [hbody] at hmembers <;> simp_all
  obtain ⟨s, hbody⟩ := hbody
  have htype : c.blocktype = 2 := (htypes c hc).eq_of_classType (by rw [hbody]; rfl)
  have hcovered : MutualSerializer.covered c = false := by
    rw [MutualSerializer.covered, htype]
    rfl
  rw [PayloadIntegrityBlock.trace, PayloadIntegrityBlock.members?, hbody,
    MutualSerializer.writeBlock_eq_nil_iff.2 hcovered]

/-! ### The loops -/

theorem get_cases (m : SecurityManager) (source : EID) (type : SecurityKey.KeyType) :
    m.keys.get source type = .error .unexpected ∧
        (∀ text, SecurityKeyManager.owner source ≠ .ok text) ∨
      ∃ key, m.keys.get source type = .ok key ∧
        ∃ text, SecurityKeyManager.owner source = .ok text := by
  cases hget : m.keys.get source type with
  | error e =>
      obtain ⟨hnone, rfl⟩ := SecurityKeyManager.get_eq_error_iff.1 hget
      exact .inl ⟨rfl, hnone⟩
  | ok key =>
      refine .inr ⟨key, rfl, ?_⟩
      by_contra hnone
      have hunnamed := not_exists.1 hnone
      rw [SecurityKeyManager.get_eq_error_iff.2 ⟨hunnamed, rfl⟩] at hget
      cases hget

/-- What the loop over the authentication blocks does at the first block that does not lack a
key. -/
def decideBAB (m : SecurityManager) (b : Bundle) (s : SecurityBlock) :
    Except BaseRouter.Exn Bundle :=
  match keyOf m b.toPrimaryBlock .keyShared s with
  | .error _ => .error (.other .unexpected)
  | .ok none => .ok b
  | .ok (some key) =>
      match BundleAuthenticationBlock.verify m.hmac b key with
      | .error e => .error (.verificationFailed e.what)
      | .ok _ => .ok ((BundleAuthenticationBlock.strip b).setStatus
          PrimaryBlock.dtnsecStatusAuthenticated)

/-- **The first authentication block that does not lack a key** decides. -/
theorem verifyBABLoop_eq (m : SecurityManager) (b : Bundle) (babs : List SecurityBlock) :
    verifyBABLoop m b babs =
      (babs.find? fun s => decide (keyOf m b.toPrimaryBlock .keyShared s ≠ .ok none)).elim (.ok b)
        (decideBAB m b) := by
  induction babs with
  | nil => rfl
  | cons s babs ih =>
      by_cases hlacks : keyOf m b.toPrimaryBlock .keyShared s = .ok none
      · rw [List.find?_cons_of_neg (by simpa using hlacks), ← ih]
        rw [keyOf] at hlacks
        obtain ⟨source, hsource, hget⟩ := Except.exists_ok_of_bind hlacks
        rw [verifyBABLoop, hsource]
        dsimp only
        rw [hget]
      · rw [List.find?_cons_of_pos (by simpa using hlacks), Option.elim_some, verifyBABLoop,
          decideBAB]
        cases hsource : s.getSecuritySource b.toPrimaryBlock with
        | error e =>
            rw [keyOf, hsource]
            rfl
        | ok source =>
            have hkey : keyOf m b.toPrimaryBlock .keyShared s = m.keys.get source .keyShared := by
              rw [keyOf, hsource]
              rfl
            rw [hkey] at hlacks ⊢
            cases hget : m.keys.get source .keyShared with
            | error e =>
                obtain ⟨-, rfl⟩ := SecurityKeyManager.get_eq_error_iff.1 hget
                dsimp only
                rw [hget]
            | ok key? =>
                cases key? with
                | none => exact absurd hget hlacks
                | some key =>
                    dsimp only
                    rw [hget]

theorem get_setStatus (b : Bundle) {flag flag' : UInt64} (h : flag &&& flag' = 0) :
    (b.setStatus flag).get flag' = b.get flag' := FlagWord.has_assign_of_disjoint h true

theorem get_setStatus_self (b : Bundle) {flag : UInt64} (h : flag ≠ 0) :
    (b.setStatus flag).get flag = true := FlagWord.has_assign_self h true

/-- The loop over the integrity blocks goes on behind a block. -/
structure Continues (m : SecurityManager) (b : Bundle) (s : SecurityBlock) (b' : Bundle) :
    Prop where
  same : SameChecks b b'
  passes : Passes b b'
  authenticated : b'.get PrimaryBlock.dtnsecStatusAuthenticated =
    b.get PrimaryBlock.dtnsecStatusAuthenticated
  verified : b'.get PrimaryBlock.dtnsecStatusVerified = true ↔
    b.get PrimaryBlock.dtnsecStatusVerified = true ∨ Verifies m b s
  loop (pibs : List SecurityBlock) : verifyPIBLoop m b (s :: pibs) = verifyPIBLoop m b' pibs

theorem Continues.of_not_verifies (h : ¬ Verifies m b s)
    (hloop : ∀ pibs, verifyPIBLoop m b (s :: pibs) = verifyPIBLoop m b pibs) :
    Continues m b s b where
  same := ⟨rfl, rfl, rfl, rfl⟩
  passes := .refl b
  authenticated := rfl
  verified := (or_iff_left h).symm
  loop := hloop

/-- **A block that neither ends the loop nor the program** is passed over, with the flag set if it
is verified. -/
theorem exists_continues (h : ¬ Stops m b.toPrimaryBlock s)
    (hname : ¬ Nameless b.toPrimaryBlock s) : ∃ b', Continues m b s b' := by
  cases hsource : s.getSecuritySource b.toPrimaryBlock with
  | error e =>
      refine ⟨b, .of_not_verifies ?_ fun pibs => ?_⟩
      · rintro ⟨key, hkey, -⟩
        obtain ⟨source, hok, -⟩ := finds_iff.1 hkey
        rw [hsource] at hok
        cases hok
      · rw [verifyPIBLoop, hsource]
  | ok source =>
      rcases get_cases m source .keyPublic with ⟨-, hnone⟩ | ⟨key?, hget, -⟩
      · exact absurd ⟨source, hsource, hnone⟩ hname
      have hfinds (key : SecurityKey) :
          Finds m b.toPrimaryBlock .keyPublic s key ↔ key? = some key := by
        rw [finds_iff]
        constructor
        · rintro ⟨source', hok, hget'⟩
          obtain rfl := Except.ok.inj (hsource.symm.trans hok)
          exact Except.ok.inj (hget.symm.trans hget')
        · rintro rfl
          exact ⟨source, hsource, hget⟩
      cases key? with
      | none =>
          refine ⟨b, .of_not_verifies ?_ fun pibs => ?_⟩
          · rintro ⟨key, hkey, -⟩
            cases (hfinds key).1 hkey
          · rw [verifyPIBLoop, hsource]
            dsimp only
            rw [hget]
      | some key =>
          have hkey := (hfinds key).2 rfl
          cases hdestination : s.isSecurityDestination b.toPrimaryBlock m.localEID with
          | error e =>
              refine ⟨b, .of_not_verifies ?_ fun pibs => ?_⟩
              · rintro ⟨key', -, hcases⟩
                rw [hdestination] at hcases
                rcases hcases with hcases | ⟨hcases, -⟩ <;> cases hcases
              · rw [verifyPIBLoop, hsource]
                dsimp only
                rw [hget]
                dsimp only
                rw [hdestination]
          | ok here =>
              cases here with
              | true => exact absurd ⟨⟨key, hkey⟩, hdestination⟩ h
              | false =>
                  cases hverify : PayloadIntegrityBlock.verify m.rsa b key with
                  | error e =>
                      refine ⟨b, .of_not_verifies ?_ fun pibs => ?_⟩
                      · rintro ⟨key', hkey', hcases⟩
                        obtain rfl := Option.some.inj ((hfinds key').1 hkey')
                        rw [hdestination, hverify] at hcases
                        rcases hcases with hcases | ⟨-, hcases⟩ <;> cases hcases
                      · rw [verifyPIBLoop, hsource]
                        dsimp only
                        rw [hget]
                        dsimp only
                        rw [hdestination]
                        dsimp only
                        rw [hverify]
                  | ok _ =>
                      refine ⟨b.setStatus PrimaryBlock.dtnsecStatusVerified,
                        .setStatus b (by decide), .setStatus b (.inr rfl),
                        get_setStatus b (by decide), ?_, fun pibs => ?_⟩
                      · exact iff_of_true (get_setStatus_self b (by decide))
                          (.inr ⟨key, hkey, .inr ⟨hdestination, hverify⟩⟩)
                      · rw [verifyPIBLoop, hsource]
                        dsimp only
                        rw [hget]
                        dsimp only
                        rw [hdestination]
                        dsimp only
                        rw [hverify]

theorem verifyPIBLoop_of_nameless (h : Nameless b.toPrimaryBlock s) (pibs : List SecurityBlock) :
    verifyPIBLoop m b (s :: pibs) = .error (.other .unexpected) := by
  obtain ⟨source, hsource, hnone⟩ := h
  rw [verifyPIBLoop, hsource]
  dsimp only
  rw [SecurityKeyManager.get_eq_error_iff.2 ⟨hnone, rfl⟩]

theorem verifyPIBLoop_of_stops {key : SecurityKey}
    (hkey : Finds m b.toPrimaryBlock .keyPublic s key)
    (hdestination : s.isSecurityDestination b.toPrimaryBlock m.localEID = .ok true)
    (pibs : List SecurityBlock) : verifyPIBLoop m b (s :: pibs) =
      .ok ((PayloadIntegrityBlock.strip m.rsa b key false).setStatus
        PrimaryBlock.dtnsecStatusVerified) := by
  obtain ⟨source, hsource, hget⟩ := finds_iff.1 hkey
  rw [verifyPIBLoop, hsource]
  dsimp only
  rw [hget]
  dsimp only
  rw [hdestination]

/-- **What the loop over the integrity blocks makes of a bundle.** -/
theorem verifyPIBLoop_ok {pibs : List SecurityBlock} (h : verifyPIBLoop m b pibs = .ok b') :
    Passes b b' ∧ b'.get PrimaryBlock.dtnsecStatusAuthenticated =
        b.get PrimaryBlock.dtnsecStatusAuthenticated ∧
      (b'.get PrimaryBlock.dtnsecStatusVerified = true ↔
        b.get PrimaryBlock.dtnsecStatusVerified = true ∨ ∃ s ∈ pibs, Verifies m b s) := by
  induction pibs generalizing b with
  | nil =>
      obtain rfl := Except.ok.inj h
      refine ⟨.refl b, rfl, (or_iff_left ?_).symm⟩
      rintro ⟨s, hs, -⟩
      exact absurd hs List.not_mem_nil
  | cons s pibs ih =>
      by_cases hname : Nameless b.toPrimaryBlock s
      · rw [verifyPIBLoop_of_nameless hname] at h
        cases h
      by_cases hstops : Stops m b.toPrimaryBlock s
      · obtain ⟨⟨key, hkey⟩, hdestination⟩ := hstops
        rw [verifyPIBLoop_of_stops hkey hdestination] at h
        obtain rfl := Except.ok.inj h
        have hstrip := Passes.stripPIB b m.rsa key
        refine ⟨hstrip.trans (.setStatus _ (.inr rfl)), ?_, ?_⟩
        · rw [get_setStatus _ (by decide), PayloadIntegrityBlock.get_strip]
        · exact iff_of_true (get_setStatus_self _ (by decide))
            (.inr ⟨s, List.mem_cons_self, key, hkey, .inl hdestination⟩)
      · obtain ⟨b₁, hb₁⟩ := exists_continues hstops hname
        rw [hb₁.loop] at h
        obtain ⟨hpasses, hauthenticated, hverified⟩ := ih h
        refine ⟨hb₁.passes.trans hpasses, hauthenticated.trans hb₁.authenticated, ?_⟩
        rw [hverified, hb₁.verified, or_assoc]
        simp only [hb₁.same.verifies_iff, List.mem_cons, exists_eq_or_imp]

/-- **When the loop over the integrity blocks ends the program**: it comes to a block whose source
has no name. -/
theorem verifyPIBLoop_error_iff {pibs : List SecurityBlock} {e : BaseRouter.Exn} :
    verifyPIBLoop m b pibs = .error e ↔ e = .other .unexpected ∧
      ∃ pre s post, pibs = pre ++ s :: post ∧ (∀ t ∈ pre, ¬ Stops m b.toPrimaryBlock t) ∧
        Nameless b.toPrimaryBlock s := by
  induction pibs generalizing b with
  | nil =>
      refine iff_of_false (fun h => by cases h) ?_
      rintro ⟨-, pre, s, post, h, -⟩
      exact absurd h.symm (by simp)
  | cons s pibs ih =>
      by_cases hname : Nameless b.toPrimaryBlock s
      · rw [verifyPIBLoop_of_nameless hname]
        constructor
        · intro h
          exact ⟨(Except.error.inj h).symm, [], s, pibs, rfl,
            fun t ht => absurd ht List.not_mem_nil, hname⟩
        · rintro ⟨rfl, -⟩
          rfl
      by_cases hstops : Stops m b.toPrimaryBlock s
      · obtain ⟨⟨key, hkey⟩, hdestination⟩ := hstops
        rw [verifyPIBLoop_of_stops hkey hdestination]
        refine iff_of_false (fun h => by cases h) ?_
        rintro ⟨-, pre, t, post, hsplit, hpre, ht⟩
        cases pre with
        | nil =>
            obtain ⟨rfl, -⟩ := List.cons.inj hsplit
            exact hname ht
        | cons u pre =>
            obtain ⟨rfl, -⟩ := List.cons.inj hsplit
            exact hpre s List.mem_cons_self ⟨⟨key, hkey⟩, hdestination⟩
      · obtain ⟨b₁, hb₁⟩ := exists_continues hstops hname
        rw [hb₁.loop, ih]
        simp only [hb₁.same.stops_iff, nameless_congr hb₁.same.source]
        refine and_congr_right fun _ => ?_
        constructor
        · rintro ⟨pre, t, post, rfl, hpre, ht⟩
          exact ⟨s :: pre, t, post, rfl, List.forall_mem_cons.2 ⟨hstops, hpre⟩, ht⟩
        · rintro ⟨pre, t, post, hsplit, hpre, ht⟩
          cases pre with
          | nil =>
              obtain ⟨rfl, -⟩ := List.cons.inj hsplit
              exact absurd ht hname
          | cons u pre =>
              obtain ⟨rfl, rfl⟩ := List.cons.inj hsplit
              exact ⟨pre, t, post, rfl, (List.forall_mem_cons.1 hpre).2, ht⟩

/-! ### The checks of a bundle -/

/-- The authentication block that decides. -/
def decidingBAB (m : SecurityManager) (b : Bundle) : Option SecurityBlock :=
  (BundleAuthenticationBlock.getBlocks b.blocks).find? fun s =>
    decide (keyOf m b.toPrimaryBlock .keyShared s ≠ .ok none)

/-- The members of the integrity blocks. -/
def integrityBlocks (b : Bundle) : List SecurityBlock :=
  (PayloadIntegrityBlock.getBlocks b.blocks).map Prod.snd

/-- The authentication fails with an exception: the block that decides has a key, and the bundle is
not verified under it. -/
def Refuses (m : SecurityManager) (b : Bundle) (e : Exn) : Prop :=
  ∃ s key, decidingBAB m b = some s ∧ Finds m b.toPrimaryBlock .keyShared s key ∧
    BundleAuthenticationBlock.verify m.hmac b key = .error e

/-- The source of the block that decides has no name. -/
def Blocked (m : SecurityManager) (b : Bundle) : Prop :=
  ∃ s, decidingBAB m b = some s ∧ ∀ source text,
    s.getSecuritySource b.toPrimaryBlock = .ok source → SecurityKeyManager.owner source ≠ .ok text

/-- The checks end the program: the source of the authentication block that decides has no name, or
the loop over the integrity blocks comes to one whose source has none. -/
def Halts (m : SecurityManager) (b : Bundle) : Prop :=
  Blocked m b ∨
    (∀ e, ¬ Refuses m b e) ∧ ∃ pre s post, integrityBlocks b = pre ++ s :: post ∧
      (∀ t ∈ pre, ¬ Stops m b.toPrimaryBlock t) ∧ Nameless b.toPrimaryBlock s

/-- What the checks make of a bundle. -/
structure Checked (m : SecurityManager) (b b' : Bundle) : Prop where
  authenticated : b'.get PrimaryBlock.dtnsecStatusAuthenticated = true ↔
    b.get PrimaryBlock.dtnsecStatusAuthenticated = true ∨ ∃ s key correlator,
      decidingBAB m b = some s ∧ Finds m b.toPrimaryBlock .keyShared s key ∧
        BundleAuthenticationBlock.verify m.hmac b key = .ok correlator
  verified : b'.get PrimaryBlock.dtnsecStatusVerified = true ↔
    b.get PrimaryBlock.dtnsecStatusVerified = true ∨ ∃ s ∈ integrityBlocks b, Verifies m b s
  passes : Passes b b'

theorem keyOf_of_decidingBAB (h : decidingBAB m b = some s) :
    keyOf m b.toPrimaryBlock .keyShared s ≠ .ok none := by
  have hpos := List.find?_some h
  exact of_decide_eq_true hpos

theorem verifyBAB_eq (m : SecurityManager) (b : Bundle) :
    verifyBAB m b = (decidingBAB m b).elim (.ok b) (decideBAB m b) :=
  verifyBABLoop_eq m b _

/-- The source of a block whose key cannot be looked up has no name. -/
theorem keyOf_eq_error_iff : (∃ e, keyOf m p type s = .error e) ↔ ∀ source text,
    s.getSecuritySource p = .ok source → SecurityKeyManager.owner source ≠ .ok text := by
  rw [keyOf]
  cases hsource : s.getSecuritySource p with
  | error e => simp [bind, Except.bind]
  | ok source =>
      change (∃ e, m.keys.get source type = .error e) ↔ _
      simp only [SecurityKeyManager.get_eq_error_iff, exists_and_left, exists_eq, and_true,
        Except.ok.injEq]
      exact ⟨fun h source' text heq => heq ▸ h text, fun h text => h source text rfl⟩

theorem integrityBlocks_congr (h : SameChecks b b') : integrityBlocks b' = integrityBlocks b := by
  rw [integrityBlocks, PayloadIntegrityBlock.members_getBlocks, h.parts,
    ← PayloadIntegrityBlock.members_getBlocks, integrityBlocks]

/-- How the check of the authentication ends. -/
inductive BABOutcome (m : SecurityManager) (b : Bundle) : Except BaseRouter.Exn Bundle → Prop where
  | passedOver (h : decidingBAB m b = none) : BABOutcome m b (.ok b)
  | unnamed {s : SecurityBlock} {e : Exn} (h : decidingBAB m b = some s)
      (hkey : keyOf m b.toPrimaryBlock .keyShared s = .error e) :
      BABOutcome m b (.error (.other .unexpected))
  | refused {s : SecurityBlock} {key : SecurityKey} {e : Exn} (h : decidingBAB m b = some s)
      (hkey : Finds m b.toPrimaryBlock .keyShared s key)
      (hverify : BundleAuthenticationBlock.verify m.hmac b key = .error e) :
      BABOutcome m b (.error (.verificationFailed e.what))
  | authenticated {s : SecurityBlock} {key : SecurityKey} {correlator : UInt64}
      (h : decidingBAB m b = some s) (hkey : Finds m b.toPrimaryBlock .keyShared s key)
      (hverify : BundleAuthenticationBlock.verify m.hmac b key = .ok correlator) :
      BABOutcome m b (.ok ((BundleAuthenticationBlock.strip b).setStatus
        PrimaryBlock.dtnsecStatusAuthenticated))

theorem babOutcome (m : SecurityManager) (b : Bundle) : BABOutcome m b (verifyBAB m b) := by
  rw [verifyBAB_eq]
  cases hdeciding : decidingBAB m b with
  | none => exact .passedOver hdeciding
  | some s =>
      rw [Option.elim_some, decideBAB]
      cases hkey : keyOf m b.toPrimaryBlock .keyShared s with
      | error e => exact .unnamed hdeciding hkey
      | ok key? =>
          cases key? with
          | none => exact absurd hkey (keyOf_of_decidingBAB hdeciding)
          | some key =>
              dsimp only
              cases hverify : BundleAuthenticationBlock.verify m.hmac b key with
              | error e => exact .refused hdeciding hkey hverify
              | ok correlator => exact .authenticated hdeciding hkey hverify

/-- Behind an authentication that does not fail, the integrity blocks decide. -/
theorem verify_error_iff_of_ok {b₁ : Bundle} (hbab : verifyBAB m b = .ok b₁)
    (hsame : SameChecks b b₁) (e : BaseRouter.Exn) : m.verify b = .error e ↔
      e = .other .unexpected ∧ ∃ pre s post, integrityBlocks b = pre ++ s :: post ∧
        (∀ t ∈ pre, ¬ Stops m b.toPrimaryBlock t) ∧ Nameless b.toPrimaryBlock s := by
  have hverify : m.verify b = verifyPIBLoop m b₁ (integrityBlocks b) := by
    rw [verify, hbab, ← integrityBlocks_congr hsame]
    rfl
  rw [hverify, verifyPIBLoop_error_iff]
  simp only [hsame.stops_iff, nameless_congr hsame.source]

theorem blocked_iff {s : SecurityBlock} (h : decidingBAB m b = some s) :
    Blocked m b ↔ ∃ e, keyOf m b.toPrimaryBlock .keyShared s = .error e := by
  rw [Blocked, keyOf_eq_error_iff]
  constructor
  · rintro ⟨t, ht, hnone⟩
    obtain rfl := Option.some.inj (h.symm.trans ht)
    exact hnone
  · exact fun hnone => ⟨s, h, hnone⟩

theorem refuses_iff {key : SecurityKey} (h : decidingBAB m b = some s)
    (hkey : Finds m b.toPrimaryBlock .keyShared s key) (e : Exn) :
    Refuses m b e ↔ BundleAuthenticationBlock.verify m.hmac b key = .error e := by
  constructor
  · rintro ⟨t, key', ht, hkey', hverify⟩
    obtain rfl := Option.some.inj (h.symm.trans ht)
    obtain rfl := Option.some.inj (Except.ok.inj (hkey.symm.trans hkey'))
    exact hverify
  · exact fun hverify => ⟨s, key, h, hkey, hverify⟩

/-- **When the checks of a bundle fail**, and how. -/
theorem verify_error_iff (m : SecurityManager) {b : Bundle}
    (htypes : ∀ c ∈ b.blocks, c.body.HasType c.blocktype) (e : BaseRouter.Exn) :
    m.verify b = .error e ↔ (∃ e', Refuses m b e' ∧ e = .verificationFailed e'.what) ∨
      e = .other .unexpected ∧ Halts m b := by
  have houtcome := babOutcome m b
  generalize hbab : verifyBAB m b = r at houtcome
  cases houtcome with
  | passedOver h =>
      have hrefuses (e' : Exn) : ¬ Refuses m b e' := by
        rintro ⟨s, -, hs, -⟩
        rw [h] at hs
        cases hs
      have hblocked : ¬ Blocked m b := by
        rintro ⟨s, hs, -⟩
        rw [h] at hs
        cases hs
      have hnone : ¬ ∃ e', Refuses m b e' ∧ e = .verificationFailed e'.what := by
        rintro ⟨e', he', -⟩
        exact hrefuses e' he'
      rw [verify_error_iff_of_ok hbab ⟨rfl, rfl, rfl, rfl⟩, or_iff_right hnone, Halts,
        or_iff_right hblocked, and_iff_right hrefuses]
  | @unnamed s e₀ h hkey =>
      have hrefuses (e' : Exn) : ¬ Refuses m b e' := by
        rintro ⟨t, key, ht, hfinds, -⟩
        obtain rfl := Option.some.inj (h.symm.trans ht)
        rw [Finds, hkey] at hfinds
        cases hfinds
      have hnone : ¬ ∃ e', Refuses m b e' ∧ e = .verificationFailed e'.what := by
        rintro ⟨e', he', -⟩
        exact hrefuses e' he'
      have hhalts : Halts m b := .inl ((blocked_iff h).2 ⟨e₀, hkey⟩)
      rw [verify, hbab, or_iff_right hnone, and_iff_left hhalts]
      exact ⟨fun heq => (Except.error.inj heq).symm, fun heq => heq ▸ rfl⟩
  | @refused s key e₀ h hkey hverify =>
      have hhalts : ¬ Halts m b := by
        rintro (hblocked | ⟨hno, -⟩)
        · obtain ⟨e', he'⟩ := (blocked_iff h).1 hblocked
          rw [hkey] at he'
          cases he'
        · exact hno e₀ ((refuses_iff h hkey e₀).2 hverify)
      rw [verify, hbab, or_iff_left fun hright => hhalts hright.2]
      simp only [refuses_iff h hkey, hverify, Except.error.injEq]
      constructor
      · intro heq
        exact ⟨e₀, rfl, (Except.error.inj heq).symm⟩
      · rintro ⟨e', rfl, rfl⟩
        rfl
  | @authenticated s key correlator h hkey hverify =>
      have hrefuses (e' : Exn) : ¬ Refuses m b e' := by
        rw [refuses_iff h hkey, hverify]
        intro heq
        cases heq
      have hblocked : ¬ Blocked m b := by
        rw [blocked_iff h, hkey]
        rintro ⟨e', he'⟩
        cases he'
      have hnone : ¬ ∃ e', Refuses m b e' ∧ e = .verificationFailed e'.what := by
        rintro ⟨e', he', -⟩
        exact hrefuses e' he'
      have hmask : PrimaryBlock.dtnsecStatusAuthenticated &&& MutualSerializer.primaryMask = 0 := by
        decide
      have hsame := (SameChecks.stripBAB htypes).trans
        (SameChecks.setStatus (BundleAuthenticationBlock.strip b) hmask)
      rw [verify_error_iff_of_ok hbab hsame, or_iff_right hnone, Halts, or_iff_right hblocked,
        and_iff_right hrefuses]

/-- A node `dtn://b` that has the public key of `dtn://a`. -/
def sample : SecurityManager where
  keys :=
    { path := fun name =>
        if name = SecurityKeyManager.hexText Bundle.sampleEID.getString ++
          SecurityKeyManager.pemSuffix then some [] else none
      babDefaultKey := none }
  localEID := PayloadIntegrityBlock.otherKey.reference
  hmac := BundleAuthenticationBlock.sampleHash
  rsa := PayloadIntegrityBlock.sampleRsa

/-- The members of an integrity block whose security source is `dtn://`. -/
def slashes : SecurityBlock :=
  { SecurityBlock.create PayloadIntegrityBlock.pibRsaSha256 with
    securitySource := ⟨EID.defaultScheme, ascii ['/', '/']⟩ }

/-- A bundle with this block. -/
def slashesSample : Bundle := .sample [⟨3, Block.lastBlock, [], .payloadIntegrity slashes 0⟩]

/-- **A bundle that ends the program.** -/
theorem verify_error_iff_sample : sample.verify slashesSample = .error (.other .unexpected) := by
  refine (verify_error_iff sample (by decide) _).2 (.inr ⟨rfl, .inr ⟨?_, ?_⟩⟩)
  · rintro e ⟨s, key, hs, -⟩
    cases hs
  · refine ⟨[], slashes, [], rfl, fun t ht => absurd ht List.not_mem_nil, slashes.securitySource,
      rfl, fun text => ?_⟩
    rw [show SecurityKeyManager.owner slashes.securitySource =
      .error (.exception "wrong eid format") from rfl]
    exact fun h => by cases h

/-- **What the checks make of a bundle.** -/
theorem checked_of_verify (htypes : ∀ c ∈ b.blocks, c.body.HasType c.blocktype)
    (h : m.verify b = .ok b') : Checked m b b' := by
  obtain ⟨b₁, hbab, hpib⟩ := Except.exists_ok_of_bind h
  have houtcome := babOutcome m b
  rw [hbab] at houtcome
  generalize hr : (.ok b₁ : Except BaseRouter.Exn Bundle) = r at houtcome
  cases houtcome with
  | passedOver hnone =>
      obtain rfl := Except.ok.inj hr
      obtain ⟨hpasses, hauthenticated, hverified⟩ := verifyPIBLoop_ok hpib
      refine ⟨?_, hverified, hpasses⟩
      rw [hauthenticated, hnone]
      refine (or_iff_left ?_).symm
      rintro ⟨s, key, correlator, hs, -⟩
      cases hs
  | unnamed => cases hr
  | refused => cases hr
  | authenticated hs hkey hverify =>
      obtain rfl := Except.ok.inj hr
      have hmask : PrimaryBlock.dtnsecStatusAuthenticated &&& MutualSerializer.primaryMask = 0 := by
        decide
      have hsame := (SameChecks.stripBAB htypes).trans
        (SameChecks.setStatus (BundleAuthenticationBlock.strip b) hmask)
      obtain ⟨hpasses, hauthenticated, hverified⟩ := verifyPIBLoop_ok hpib
      refine ⟨?_, ?_, ((Passes.stripBAB b).trans (.setStatus _ (.inl rfl))).trans hpasses⟩
      · rw [hauthenticated]
        exact iff_of_true (get_setStatus_self _ (by decide)) (.inr ⟨_, _, _, hs, hkey, hverify⟩)
      · have hget : ((BundleAuthenticationBlock.strip b).setStatus
            PrimaryBlock.dtnsecStatusAuthenticated).get PrimaryBlock.dtnsecStatusVerified =
              b.get PrimaryBlock.dtnsecStatusVerified := by
          rw [get_setStatus _ (by decide), PrimaryBlock.get,
            BundleAuthenticationBlock.strip_primary, PrimaryBlock.get]
        rw [hverified, hget]
        change (_ ∨ ∃ s ∈ integrityBlocks _, _) ↔ _
        rw [integrityBlocks_congr hsame]
        simp only [hsame.verifies_iff]

end SecurityManager

end IbrDtn
