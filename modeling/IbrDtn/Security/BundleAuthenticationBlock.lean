import IbrDtn.Security.StrictSerializer
import IbrDtn.Security.SecurityKey

/-!
# Bundle authentication blocks

This file models `ibrdtn/security/BundleAuthenticationBlock.cpp`.  A bundle is authenticated by a
pair of blocks with one correlator, in front of its blocks and behind them: the first one says whose
key is used, the second one holds the hash of the strict form.  The hash function of the library
`ibrcommon` is the parameter `hmac`.

## Main definitions

* `BundleAuthenticationBlock.auth`, `BundleAuthenticationBlock.verify` : the operations.
* `BundleAuthenticationBlock.compared` : the blocks that a verification compares with the hash.
* `BundleAuthenticationBlock.Verifiable` : what a verification depends on besides the hash.

## Main results

* `BundleAuthenticationBlock.auth_eq` : what an authentication makes of a bundle.
* `BundleAuthenticationBlock.verifyLoop_eq` : the block that decides a verification.
* `BundleAuthenticationBlock.survives_iff` : the authentications that survive a transport.
-/

namespace IbrDtn

open Block (blockContainsEids discardIfNotProcessed ext lastBlock newBundleAuthentication
  payloadType)
open SecurityBlock (containsCorrelator containsSecurityResult containsSecuritySource
  getSecuritySource integritySignature isSecuritySource readDestination readSource
  receivedDestination receivedSource receivedWith)

namespace BundleAuthenticationBlock

/-- `BAB_HMAC` among `SecurityBlock::CIPHERSUITE_IDS`. -/
def babHmac : UInt64 := 1

/-- `bundle.getBlocks<BundleAuthenticationBlock>()`. -/
def getBlocks (blocks : List Block) : List SecurityBlock :=
  blocks.filterMap fun c =>
    match c.body with
    | .bundleAuthentication s => some s
    | _ => none

/-- What `auth` does to the block in front before it has a correlator. -/
def begin (key : SecurityKey) (source : EID) (c : Block) : Block :=
  let c := c.set discardIfNotProcessed true
  if key.reference != source then c.setSecuritySource key.reference else c

/-- What it does to this block afterwards. -/
def correlate (correlator : UInt64) (c : Block) : Block :=
  c.mapSecurity fun s => { s.setCorrelator correlator with ciphersuiteId := babHmac }

/-- What it does to the block behind. -/
def finish (correlator : UInt64) (c : Block) : Block :=
  (c.set discardIfNotProcessed true).mapSecurity fun s =>
    let s := s.setCorrelator correlator
    { s with ciphersuiteFlags := s.ciphersuiteFlags ||| containsSecurityResult }

/-- The hash is set in the block behind. -/
def setHash (hash : Bytes) (c : Block) : Block :=
  c.mapSecurity fun s =>
    { s with securityResult := s.securityResult.set integritySignature hash }

section Functions

variable (hmac : Bytes → Bytes → Bytes)

/-- `BundleAuthenticationBlock::calcMAC`, without a correlator. -/
def calcMAC (b : Bundle) (key : SecurityKey) : Bytes :=
  hmac key.data (StrictSerializer.writeBundle b)

/-- `BundleAuthenticationBlock::auth`. There is no result if the numbers of `random` are used up
before one of them is new. -/
def auth (random : List UInt64) (key : SecurityKey) (b : Bundle) :
    Except Exn (Option Bundle) := do
  let b := b.pushFront newBundleAuthentication
  let source ← b.source.getNode
  let b := b.modify 0 (begin key source)
  match b.createCorrelatorValue random with
  | none => pure none
  | some correlator =>
      let b := b.modify 0 (correlate correlator)
      let b := b.pushBack newBundleAuthentication
      let last := b.blocks.length - 1
      let b := b.modify last (finish correlator)
      let hash := calcMAC hmac b key
      pure (some (b.modify last (setHash hash)))

/-- The loop of `BundleAuthenticationBlock::verify` over the blocks, with the set of correlators
that it remembers. -/
def verifyLoop (mac : Bytes) (key : SecurityKey) (b : PrimaryBlock) :
    List SecurityBlock → List UInt64 → Except Exn UInt64
  | [], _ => .error (.exception "verification failed")
  | bab :: babs, correlators =>
      if SecurityBlock.has bab.ciphersuiteFlags containsSecurityResult then
        if bab.correlator ∉ correlators then verifyLoop mac key b babs correlators
        else
          match bab.securityResult.get? integritySignature with
          | none => .error (.exception "element not found")
          | some result =>
              if mac = result then .ok bab.correlator
              else verifyLoop mac key b babs correlators
      else if SecurityBlock.has bab.ciphersuiteFlags containsCorrelator then
        if bab.ciphersuiteId ≠ babHmac then verifyLoop mac key b babs correlators
        else do
          if ← bab.isSecuritySource b key.reference then
            verifyLoop mac key b babs (bab.correlator :: correlators)
          else verifyLoop mac key b babs correlators
      else verifyLoop mac key b babs correlators

/-- `BundleAuthenticationBlock::verify`, with the correlator of the verified blocks. -/
def verify (b : Bundle) (key : SecurityKey) : Except Exn UInt64 :=
  verifyLoop (calcMAC hmac b key) key b.toPrimaryBlock (getBlocks b.blocks) []

end Functions

/-! ### The loop -/

/-- The loop remembers the correlator of the block. -/
def remembered (key : SecurityKey) (b : PrimaryBlock) (s : SecurityBlock) : Bool :=
  SecurityBlock.has s.ciphersuiteFlags containsCorrelator &&
    s.ciphersuiteId == babHmac && s.isSecuritySource b key.reference matches .ok true

/-- The blocks that the loop compares with the hash, if it comes to them, beginning with the given
correlators: those with a result whose correlator was remembered. -/
def compared (key : SecurityKey) (b : PrimaryBlock) :
    List UInt64 → List SecurityBlock → List SecurityBlock
  | _, [] => []
  | correlators, s :: babs =>
      if SecurityBlock.has s.ciphersuiteFlags containsSecurityResult then
        if s.correlator ∈ correlators then s :: compared key b correlators babs
        else compared key b correlators babs
      else if remembered key b s then compared key b (s.correlator :: correlators) babs
      else compared key b correlators babs

/-- The loop does not go on behind the block: it has the hash as signature, or none. -/
def decides (mac : Bytes) (s : SecurityBlock) : Bool :=
  match s.securityResult.get? integritySignature with
  | some result => mac == result
  | none => true

/-- What the loop returns at the block that decides. -/
def decision (s : SecurityBlock) : Except Exn UInt64 :=
  match s.securityResult.get? integritySignature with
  | some _ => .ok s.correlator
  | none => .error (.exception "element not found")

variable {mac : Bytes} {key : SecurityKey} {p : PrimaryBlock} {s : SecurityBlock}
  {babs : List SecurityBlock} {correlators : List UInt64}

/-- **The first block that decides among those that are compared** is the result of the loop. -/
theorem verifyLoop_eq (hsource : ∀ t : SecurityBlock, ∃ r,
      t.isSecuritySource p key.reference = .ok r) :
    verifyLoop mac key p babs correlators =
      match (compared key p correlators babs).find? (decides mac) with
      | some s => decision s
      | none => .error (.exception "verification failed") := by
  induction babs generalizing correlators with
  | nil => rfl
  | cons s babs ih =>
      rw [verifyLoop, compared]
      by_cases hresult :
          SecurityBlock.has s.ciphersuiteFlags containsSecurityResult = true
      · rw [if_pos hresult, if_pos hresult]
        by_cases hknown : s.correlator ∈ correlators
        · rw [if_neg (not_not.2 hknown), if_pos hknown, List.find?_cons]
          cases hget : s.securityResult.get? integritySignature with
          | none => simp only [decides, decision, hget]
          | some result =>
              by_cases heq : mac = result
              · simp only [decides, decision, hget, heq, beq_self_eq_true, if_true]
              · simp only [decides, hget, beq_eq_false_iff_ne.2 heq, heq, if_false, ih]
        · rw [if_pos hknown, if_neg hknown, ih]
      · rw [if_neg hresult, if_neg hresult]
        by_cases hcorrelator :
            SecurityBlock.has s.ciphersuiteFlags containsCorrelator = true
        · rw [if_pos hcorrelator]
          by_cases hid : s.ciphersuiteId = babHmac
          · obtain ⟨r, hr⟩ := hsource s
            rw [if_neg (not_not.2 hid), hr]
            simp only [remembered, hcorrelator, hid, hr, beq_self_eq_true, Bool.true_and]
            cases r with
            | true => exact ih
            | false => exact ih
          · rw [if_pos hid, if_neg, ih]
            simp [remembered, hid]
        · rw [if_neg hcorrelator, if_neg, ih]
          simp [remembered, hcorrelator]

/-- Only the correlators of the blocks matter. -/
theorem compared_congr {correlators' : List UInt64}
    (h : ∀ t ∈ babs, (t.correlator ∈ correlators ↔ t.correlator ∈ correlators')) :
    compared key p correlators babs = compared key p correlators' babs := by
  induction babs generalizing correlators correlators' with
  | nil => rfl
  | cons s babs ih =>
      rw [List.forall_mem_cons] at h
      have hnext : compared key p (s.correlator :: correlators) babs =
          compared key p (s.correlator :: correlators') babs := by
        refine ih fun t ht => ?_
        rw [List.mem_cons, List.mem_cons, h.2 t ht]
      simp only [compared, h.1, ih h.2, hnext]

/-- A block with a result behind others is compared if its correlator, which they do not have, was
remembered before. -/
theorem compared_concat
    (hs : SecurityBlock.has s.ciphersuiteFlags containsSecurityResult = true)
    (h : ∀ t ∈ babs, t.correlator ≠ s.correlator) :
    compared key p correlators (babs ++ [s]) =
      compared key p correlators babs ++ if s.correlator ∈ correlators then [s] else [] := by
  induction babs generalizing correlators with
  | nil => simp only [List.nil_append, compared, if_pos hs]
  | cons t babs ih =>
      rw [List.forall_mem_cons] at h
      simp only [List.cons_append, compared, ih h.2, List.mem_cons, or_iff_right h.1.symm]
      split_ifs <;> rfl

/-! ### The blocks of an authentication -/

/-- The EID that the block in front names: none if the source of the bundle has the key. -/
def namedSource (key : SecurityKey) (source : EID) : EID :=
  if key.reference = source then EID.none else key.reference

/-- The members of the block in front. -/
def frontMembers (named : EID) (correlator : UInt64) : SecurityBlock :=
  { SecurityBlock.create babHmac with
    ciphersuiteFlags := if named = EID.none then containsCorrelator
      else containsSecuritySource ||| containsCorrelator
    correlator
    securitySource := named }

/-- The block in front. -/
def front (named : EID) (correlator : UInt64) : Block where
  blocktype := 2
  procflags := if named = EID.none then discardIfNotProcessed
    else discardIfNotProcessed ||| blockContainsEids
  eids := if named = EID.none then [] else [named]
  body := .bundleAuthentication (frontMembers named correlator)

/-- The members of the block behind. -/
def backMembers (correlator : UInt64) (securityResult : TLVList) : SecurityBlock :=
  { SecurityBlock.create babHmac with
    ciphersuiteFlags := containsCorrelator ||| containsSecurityResult
    correlator
    securityResult }

/-- The block behind. -/
def back (correlator : UInt64) (securityResult : TLVList) : Block where
  blocktype := 2
  procflags := lastBlock ||| discardIfNotProcessed
  eids := []
  body := .bundleAuthentication (backMembers correlator securityResult)

theorem modify_concat (xs : List Block) (c : Block) (f : Block → Block) :
    (xs ++ [c]).modify ((xs ++ [c]).length - 1) f = xs ++ [f c] := by
  rw [List.length_append, List.length_singleton, Nat.add_sub_cancel]
  induction xs with
  | nil => rfl
  | cons x xs ih =>
      rw [List.cons_append, List.length_cons, List.modify_succ_cons, ih, List.cons_append]

/-- A new block with the references of its members, and with the given flags. -/
theorem storeSecurityReferences_new (flags : UInt64) (source : EID) :
    Block.setSecuritySource source { newBundleAuthentication with procflags := flags } =
      if source = EID.none then
        { newBundleAuthentication with
          procflags := FlagWord.assign flags blockContainsEids false }
      else
        { newBundleAuthentication with
          procflags := FlagWord.assign flags blockContainsEids true
          eids := [source]
          body := .bundleAuthentication { SecurityBlock.create babHmac with
            ciphersuiteFlags := containsSecuritySource
            securitySource := source } } := by
  split_ifs with hnone
  · rw [hnone]
    refine ext rfl rfl rfl (congrArg Body.bundleAuthentication ?_)
    refine congrArg (fun flags => { SecurityBlock.create babHmac with
      ciphersuiteFlags := flags }) ?_
    exact (by decide : FlagWord.assign (FlagWord.assign 0 containsSecuritySource
      false) SecurityBlock.containsSecurityDestination false = 0)
  · have hbne : (source != EID.none) = true := by simpa using hnone
    simp only [Block.setSecuritySource, newBundleAuthentication, Body.security?,
      Block.storeSecurityReferences, hnone, hbne, if_false]
    refine ext rfl rfl rfl (congrArg Body.bundleAuthentication ?_)
    refine congrArg (fun flags => { SecurityBlock.create babHmac with
      ciphersuiteFlags := flags, securitySource := source }) ?_
    exact (by decide : FlagWord.assign (FlagWord.assign 0 containsSecuritySource true)
      SecurityBlock.containsSecurityDestination false = containsSecuritySource)

/-- The flags of the block in front, in a list of blocks that is empty or not. -/
theorem front_procflags (isEmpty contains : Bool) :
    (let flags := if isEmpty then FlagWord.assign 0 lastBlock true else 0
      let flags := FlagWord.assign (FlagWord.assign flags discardIfNotProcessed true)
        blockContainsEids contains
      if isEmpty then FlagWord.assign flags lastBlock false else flags) =
      if contains then discardIfNotProcessed ||| blockContainsEids
      else discardIfNotProcessed := by
  revert isEmpty contains
  decide

/-- The new block that is put in front of a list of blocks that is empty or not. -/
def newFront (isEmpty : Bool) : Block :=
  if isEmpty then newBundleAuthentication.set lastBlock true
  else newBundleAuthentication

/-- The block that `auth` puts in front. -/
theorem front_eq (key : SecurityKey) (source : EID) (correlator : UInt64) (isEmpty : Bool) :
    (let c := correlate correlator (begin key source (newFront isEmpty))
      if isEmpty then c.set lastBlock false else c) =
      front (namedSource key source) correlator := by
  rw [namedSource, begin]
  by_cases href : key.reference = source
  · simp only [href, bne_self_eq_false, if_true, Bool.false_eq_true, if_false]
    cases isEmpty with
    | false => rfl
    | true => exact ext rfl (front_procflags true false) rfl rfl
  · have hne : (key.reference != source) = true := by simpa using href
    have hnew (flags : UInt64) := storeSecurityReferences_new flags key.reference
    have hfirst : (newFront isEmpty).set discardIfNotProcessed true =
        { newBundleAuthentication with
          procflags := FlagWord.assign
            (if isEmpty then FlagWord.assign 0 lastBlock true else 0)
            discardIfNotProcessed true } := by
      cases isEmpty <;> rfl
    simp only [hne, href, if_true, if_false]
    rw [hfirst, hnew]
    by_cases hnone : key.reference = EID.none
    · rw [if_pos hnone, hnone]
      cases isEmpty with
      | false => exact ext rfl (front_procflags false false) rfl rfl
      | true => exact ext rfl (front_procflags true false) rfl rfl
    · rw [if_neg hnone]
      simp only [front, frontMembers, hnone, if_false]
      cases isEmpty with
      | false => exact ext rfl (front_procflags false true) rfl rfl
      | true => exact ext rfl (front_procflags true true) rfl rfl

theorem exists_begin (key : SecurityKey) (source : EID) (isEmpty : Bool) :
    ∃ s, (begin key source (newFront isEmpty)).body.security? = some s ∧ s.correlator = 0 := by
  have hbody : (newFront isEmpty).body = .bundleAuthentication (.create babHmac) := by
    cases isEmpty <;> rfl
  rw [begin]
  split_ifs
  · simp only [Block.setSecuritySource, Block.set, hbody, Body.security?,
      Block.storeSecurityReferences, Block.mapSecurity, Option.some.injEq, exists_eq_left']
    rfl
  · simp only [Block.set, hbody, Body.security?, Option.some.injEq, exists_eq_left']
    rfl

/-- The bundle between the two blocks. -/
def framed (b : Bundle) (named : EID) (correlator : UInt64) (securityResult : TLVList) : Bundle :=
  { b with
    blocks := front named correlator ::
      (BlockList.unmarkBack b.blocks ++ [back correlator securityResult]) }

theorem pushFront_eq (b : Bundle) : b.pushFront newBundleAuthentication =
    { b with blocks := newFront b.blocks.isEmpty :: b.blocks } := by
  rw [Bundle.pushFront, BlockList.pushFront]
  cases b.blocks <;> rfl

/-- The blocks of a bundle with a block in front, and with a new one behind. -/
theorem modify_pushBack {b p : Bundle} {c : Block} (correlator : UInt64)
    (hp : p = Bundle.pushBack { b with blocks := c :: b.blocks } newBundleAuthentication) :
    p.modify (p.blocks.length - 1) (finish correlator) =
      { b with
        blocks := (if b.blocks.isEmpty then c.set lastBlock false else c) ::
          (BlockList.unmarkBack b.blocks ++ [back correlator TLVList.empty]) } := by
  have hback : finish correlator (newBundleAuthentication.set lastBlock true) =
      back correlator TLVList.empty := rfl
  simp only [hp, Bundle.pushBack, BlockList.pushBack_eq, Bundle.modify, modify_concat,
    BlockList.unmarkBack_cons, hback]
  rfl

theorem setHash_framed (b : Bundle) (named : EID) (correlator : UInt64) (hash : Bytes) :
    (framed b named correlator TLVList.empty).modify
        ((framed b named correlator TLVList.empty).blocks.length - 1) (setHash hash) =
      framed b named correlator (TLVList.empty.set integritySignature hash) := by
  rw [framed, ← List.cons_append, Bundle.modify, modify_concat]
  rfl

/-- **What `auth` makes of a bundle**: blocks with a correlator that no other block has, in front of
the blocks and behind them, the last one with the hash. -/
theorem auth_eq {hmac : Bytes → Bytes → Bytes} {random : List UInt64} {b a : Bundle}
    (h : auth hmac random key b = .ok (some a)) :
    ∃ source correlator, b.source.getNode = .ok source ∧ correlator ≠ 0 ∧
      (∀ c ∈ b.blocks, ∀ s, c.body.security? = some s → s.correlator ≠ correlator) ∧
      a = framed b (namedSource key source) correlator
        (TLVList.empty.set integritySignature
          (calcMAC hmac (framed b (namedSource key source) correlator TLVList.empty) key)) := by
  rw [auth, pushFront_eq] at h
  cases hsource : b.source.getNode with
  | error e =>
      simp only [hsource] at h
      exact absurd h (by simp [bind, Except.bind])
  | ok source =>
      simp only [hsource, bind, Except.bind] at h
      split at h
      · exact absurd h (by simp [pure, Except.pure])
      · next correlator hcorrelator =>
        have hne {c : Block} (hc : c ∈ begin key source (newFront b.blocks.isEmpty) :: b.blocks)
            {s : SecurityBlock} (hs : c.body.security? = some s) : s.correlator ≠ correlator :=
          Bundle.correlator_ne_of_createCorrelatorValue hcorrelator hc hs
        refine ⟨source, correlator, rfl, ?_, fun c hc s hs => ?_, ?_⟩
        · obtain ⟨s, hs, hzero⟩ := exists_begin key source b.blocks.isEmpty
          exact (hzero ▸ hne List.mem_cons_self hs).symm
        · exact hne (List.mem_cons_of_mem _ hc) hs
        · have hfront := front_eq key source correlator b.blocks.isEmpty
          have hframed := @modify_pushBack b _
            (correlate correlator (begin key source (newFront b.blocks.isEmpty))) correlator rfl
          simp only at hfront
          rw [hfront] at hframed
          simp only [pure, Except.pure, Except.ok.injEq, Option.some.injEq] at h
          rw [← setHash_framed, framed, ← hframed, ← h]
          simp only [Bundle.modify, List.length_modify, List.modify_zero_cons]

/-! ### The received blocks -/

/-- The members of a bundle authentication block, as a node that reads it has them. -/
def receivedMembers (c : Block) : Option SecurityBlock :=
  match c.body with
  | .bundleAuthentication s => some (s.receivedWith c.eids)
  | _ => none

/-- The bundle authentication blocks among the blocks, as a node that reads them has them. -/
def received (blocks : List Block) : List SecurityBlock := blocks.filterMap receivedMembers

/-- A block that is no bundle authentication block has no members of one. -/
theorem receivedMembers_eq_none {c : Block} (h : c.body.classType = some payloadType) :
    receivedMembers c = none := by
  rw [receivedMembers]
  cases hbody : c.body with
  | bundleAuthentication s =>
      rw [hbody] at h
      exact absurd (Option.some.inj h) (by decide)
  | _ => rfl

theorem getBlocks_eq_nil {n : Block} (h : n.body.classType = some payloadType) :
    getBlocks [n] = [] := by
  rw [getBlocks]
  cases hbody : n.body with
  | bundleAuthentication s =>
      rw [hbody] at h
      exact absurd (Option.some.inj h) (by decide)
  | _ => simp [hbody]

/-- The members of a block that is read back. -/
theorem getBlocks_singleton_restores {f : EID → EID} {c n : Block} (hc : c.Sendable)
    (h : c.Unaltered f) (hn : c.Restores f n) : getBlocks [n] = received [c] := by
  obtain ⟨body, rfl, hbody⟩ := hn
  rcases hbody with rfl | ⟨htype, hclass, -⟩
  · have heids : c.announced.map f = c.eids := by
      rw [hc.announced_eq]
      exact (List.map_congr_left h.eids).trans (List.map_id c.eids)
    simp only [getBlocks, received, List.filterMap_cons, List.filterMap_nil, receivedMembers,
      Block.body_transported, heids]
    cases c.body <;> rfl
  · have hnone := receivedMembers_eq_none
      (Block.HasType.classType_payloadType (htype ▸ hc.hasType))
    rw [getBlocks_eq_nil hclass, received, List.filterMap_cons, hnone]
    rfl

theorem getBlocks_restores {f : EID → EID} {cs ns : List Block} (hcs : ∀ c ∈ cs, c.Sendable)
    (h : ∀ c ∈ cs, c.Unaltered f) (hns : List.Forall₂ (Block.Restores f) cs ns) :
    getBlocks ns = received cs := by
  induction hns with
  | nil => rfl
  | @cons c n cs ns hn _ ih =>
      obtain ⟨hc, hcs⟩ := List.forall_mem_cons.1 hcs
      obtain ⟨hunaltered, h⟩ := List.forall_mem_cons.1 h
      have hfirst := getBlocks_singleton_restores hc hunaltered hn
      change List.filterMap _ ([n] ++ ns) = List.filterMap _ ([c] ++ cs)
      rw [List.filterMap_append, List.filterMap_append]
      exact congrArg₂ (· ++ ·) hfirst (ih hcs h)

theorem received_unmarkBack (blocks : List Block) :
    received (BlockList.unmarkBack blocks) = received blocks := by
  rcases List.eq_nil_or_concat blocks with rfl | ⟨blocks, last, rfl⟩
  · rfl
  · rw [List.concat_eq_append, BlockList.unmarkBack_append_singleton, received,
      List.filterMap_append, received, List.filterMap_append]
    rfl

theorem correlator_received {blocks : List Block} {correlator : UInt64} (hzero : correlator ≠ 0)
    (hne : ∀ c ∈ blocks, ∀ s, c.body.security? = some s → s.correlator ≠ correlator)
    {t : SecurityBlock} (ht : t ∈ received blocks) : t.correlator ≠ correlator := by
  obtain ⟨c, hc, ht⟩ := List.mem_filterMap.1 ht
  rw [receivedMembers] at ht
  split at ht
  · next s hbody =>
      obtain rfl := Option.some.inj ht
      rw [receivedWith, SecurityBlock.received]
      dsimp only
      split_ifs
      · exact hne c hc s (by rw [hbody]; rfl)
      · exact hzero.symm
  · exact absurd ht (by simp)

/-! ### Verification after a transport -/

/-- The key belongs to the node that the block in front names. -/
def Owned (key : SecurityKey) (b : PrimaryBlock) : Prop :=
  key.reference.getNode = .ok key.reference ∧
    (key.reference = EID.none → b.source.getNode = .ok EID.none)

/-- **What the verification depends on besides the strict form**: the key belongs to a node, unless
a block of an earlier authentication decides; this one has a signature, then. -/
def Verifiable (mac : Bytes) (key : SecurityKey) (b : Bundle) : Prop :=
  match (compared key b.toPrimaryBlock [] (received b.blocks)).find? (decides mac) with
  | some s => (s.securityResult.get? integritySignature).isSome
  | none => Owned key b.toPrimaryBlock

theorem isSecuritySource_congr {q : PrimaryBlock} (h : q.source = p.source) (s : SecurityBlock)
    (eid : EID) : s.isSecuritySource q eid = s.isSecuritySource p eid := by
  rw [isSecuritySource, getSecuritySource, h]
  rfl

theorem remembered_congr {q : PrimaryBlock} (h : q.source = p.source) (s : SecurityBlock) :
    remembered key q s = remembered key p s := by
  rw [remembered, remembered, isSecuritySource_congr h]

theorem compared_primary {q : PrimaryBlock} (h : q.source = p.source) :
    compared key q correlators babs = compared key p correlators babs := by
  induction babs generalizing correlators with
  | nil => rfl
  | cons s babs ih => simp only [compared, remembered_congr h, ih]

theorem hasCorrelator_frontMembers (named : EID) (correlator : UInt64) :
    SecurityBlock.has (frontMembers named correlator).ciphersuiteFlags
      containsCorrelator = true := by
  rw [frontMembers]
  split_ifs
  · exact (by decide : SecurityBlock.has containsCorrelator
      containsCorrelator = true)
  · exact (by decide : SecurityBlock.has (containsSecuritySource |||
      containsCorrelator) containsCorrelator = true)

theorem noResult_frontMembers (named : EID) (correlator : UInt64) :
    SecurityBlock.has (frontMembers named correlator).ciphersuiteFlags
      containsSecurityResult = false := by
  rw [frontMembers]
  split_ifs
  · exact (by decide : SecurityBlock.has containsCorrelator
      containsSecurityResult = false)
  · exact (by decide : SecurityBlock.has (containsSecuritySource |||
      containsCorrelator) containsSecurityResult = false)

/-- The block in front is read back. -/
theorem receivedWith_front (named : EID) (correlator : UInt64) :
    (frontMembers named correlator).receivedWith (front named correlator).eids =
      frontMembers named correlator := by
  rw [frontMembers, front]
  split_ifs with hnamed
  · rw [hnamed]
    simp +decide only [receivedWith, SecurityBlock.received,
      receivedSource, receivedDestination, readSource,
      readDestination]
    rfl
  · simp +decide only [receivedWith, SecurityBlock.received,
      receivedSource, receivedDestination, readSource,
      readDestination]
    rfl

/-- The block behind is read back. -/
theorem receivedWith_back (correlator : UInt64) (securityResult : TLVList) :
    (backMembers correlator securityResult).receivedWith (back correlator securityResult).eids =
      backMembers correlator securityResult := by
  simp +decide only [backMembers, receivedWith, SecurityBlock.received,
    receivedSource, receivedDestination, readSource,
    readDestination]
  rfl

/-- The block in front has the given source, or that of the bundle. -/
theorem getSecuritySource_frontMembers {source : EID}
    (hsource : p.source.getNode = .ok source) (correlator : UInt64) :
    (frontMembers (namedSource key source) correlator).getSecuritySource p =
      .ok (if key.reference = EID.none then source else key.reference) := by
  rw [getSecuritySource, hsource, frontMembers, namedSource]
  by_cases href : key.reference = source
  · rw [if_pos href, if_pos rfl, href, ite_self]
  · rw [if_neg href]
    split_ifs <;> rfl

/-- The block in front is remembered exactly if the key belongs to the node that it names. -/
theorem remembered_frontMembers {source : EID}
    (hsource : p.source.getNode = .ok source) (correlator : UInt64) :
    remembered key p (frontMembers (namedSource key source) correlator) = true ↔ Owned key p := by
  have hid (named : EID) : (frontMembers named correlator).ciphersuiteId = babHmac := rfl
  have hnone : EID.none.getNode = .ok EID.none := by decide
  have hmatch (r : Bool) : ((.ok r : Except Exn Bool) matches .ok true) = true ↔ r = true := by
    cases r <;> simp
  rw [remembered, hasCorrelator_frontMembers, hid, Owned, isSecuritySource,
    getSecuritySource_frontMembers hsource, hsource, beq_self_eq_true, Bool.true_and]
  by_cases href : key.reference = EID.none
  · rw [href, hnone]
    simp only [bind, Except.bind, pure, Except.pure, if_true, true_and, forall_const,
      Except.ok.injEq]
    exact (hmatch _).trans beq_iff_eq
  · cases hnode : key.reference.getNode with
    | error e => simp [bind, Except.bind]
    | ok node =>
        simp only [bind, Except.bind, pure, Except.pure, href, if_false, false_implies, and_true,
          Except.ok.injEq]
        exact (hmatch _).trans (beq_iff_eq.trans eq_comm)

/-- Nothing is compared where nothing is remembered. -/
theorem compared_eq_nil (h : ∀ t, remembered key p t = false) : compared key p [] babs = [] := by
  induction babs with
  | nil => rfl
  | cons s babs ih => simp [compared, h, ih]

/-- What the loop compares are the blocks between those of the authentication, and the last one if
the first one is remembered. -/
theorem compared_framed {named : EID} {correlator : UInt64}
    (hne : ∀ t ∈ babs, t.correlator ≠ correlator) (securityResult : TLVList) :
    compared key p [] (frontMembers named correlator ::
      (babs ++ [backMembers correlator securityResult])) =
      compared key p [] babs ++
        if remembered key p (frontMembers named correlator) then
          [backMembers correlator securityResult]
        else [] := by
  have hback : SecurityBlock.has (backMembers correlator securityResult).ciphersuiteFlags
      containsSecurityResult = true :=
    (by decide : SecurityBlock.has (containsCorrelator |||
      containsSecurityResult) containsSecurityResult = true)
  have hnew : compared key p [correlator] babs = compared key p [] babs :=
    compared_congr fun t ht => by simp [hne t ht]
  rw [compared, noResult_frontMembers, if_neg Bool.false_ne_true]
  by_cases h : remembered key p (frontMembers named correlator) = true
  · rw [if_pos h, if_pos h, compared_concat hback hne]
    exact congrArg₂ (· ++ ·) hnew (if_pos List.mem_cons_self)
  · rw [if_neg h, if_neg h, compared_concat hback hne, if_neg List.not_mem_nil]

/-- The loop over the blocks of an authentication, with others between them. -/
theorem exists_verifyLoop_iff {source : EID} (hsource : p.source.getNode = .ok source)
    {correlator : UInt64} (hne : ∀ t ∈ babs, t.correlator ≠ correlator) :
    (∃ corr, verifyLoop mac key p (frontMembers (namedSource key source) correlator ::
      (babs ++ [backMembers correlator (TLVList.empty.set integritySignature mac)]))
      [] = .ok corr) ↔
      match (compared key p [] babs).find? (decides mac) with
      | some s => (s.securityResult.get? integritySignature).isSome
      | none => Owned key p := by
  have hget : (TLVList.empty.set integritySignature mac).get?
      integritySignature = some mac := by
    rw [TLVList.get?_set, if_pos rfl]
  have hgetSource (t : SecurityBlock) : ∃ e, t.getSecuritySource p = .ok e := by
    rw [getSecuritySource, hsource]
    split_ifs <;> exact ⟨_, rfl⟩
  cases hnode : key.reference.getNode with
  | error e =>
      have hisSource (t : SecurityBlock) : t.isSecuritySource p key.reference = .error e := by
        obtain ⟨e', he⟩ := hgetSource t
        rw [isSecuritySource, he, hnode]
        rfl
      have hloop (babs : List SecurityBlock) : verifyLoop mac key p
          (frontMembers (namedSource key source) correlator :: babs) [] = .error e := by
        have hid : ¬ (frontMembers (namedSource key source) correlator).ciphersuiteId ≠ babHmac :=
          not_not.2 rfl
        rw [verifyLoop, noResult_frontMembers, if_neg Bool.false_ne_true,
          hasCorrelator_frontMembers, if_pos rfl, if_neg hid, hisSource]
        rfl
      have hnot (t : SecurityBlock) : remembered key p t = false := by
        rw [remembered, hisSource, Bool.and_false]
      rw [hloop, compared_eq_nil hnot]
      exact iff_of_false (fun ⟨_, h⟩ => by simp at h) fun h => by simpa [hnode] using h.1
  | ok node =>
      have hisSource (t : SecurityBlock) : ∃ r, t.isSecuritySource p key.reference = .ok r := by
        obtain ⟨e, he⟩ := hgetSource t
        rw [isSecuritySource, he, hnode]
        exact ⟨_, rfl⟩
      rw [verifyLoop_eq hisSource, compared_framed hne, List.find?_append]
      cases hfind : (compared key p [] babs).find? (decides mac) with
      | some s =>
          simp only [Option.some_or, decision]
          cases s.securityResult.get? integritySignature <;> simp
      | none =>
          rw [Option.none_or, ← remembered_frontMembers hsource correlator]
          by_cases h : remembered key p (frontMembers (namedSource key source) correlator) = true
          · rw [if_pos h]
            simp only [List.find?_cons, decides, decision, backMembers, hget, beq_self_eq_true]
            exact iff_of_true ⟨_, rfl⟩ h
          · rw [if_neg h]
            exact iff_of_false (fun ⟨_, h⟩ => by simp at h) h

/-- The strict form says nothing about the result in the block behind but its size. -/
theorem writeBundle_framed (b : Bundle) (named : EID) (correlator : UInt64)
    (securityResult : TLVList) :
    StrictSerializer.writeBundle (framed b named correlator securityResult) =
      StrictSerializer.writeBundle (framed b named correlator TLVList.empty) := by
  have heids : (framed b named correlator securityResult).allEIDs =
      (framed b named correlator TLVList.empty).allEIDs := by
    simp only [framed, Bundle.allEIDs, List.flatMap_cons, List.flatMap_append, List.flatMap_nil,
      back]
  rw [StrictSerializer.writeBundle_eq, StrictSerializer.writeBundle_eq,
    StrictSerializer.base_congr heids, framed, framed]
  simp only [List.flatMap_cons, List.flatMap_append, List.flatMap_nil]
  rfl

/-- The blocks that a verification after the transport looks at. -/
theorem getBlocks_framed_restores {b : Bundle} {named : EID} {correlator : UInt64}
    {securityResult : TLVList} {f : EID → EID}
    (hsendable : ∀ c ∈ (framed b named correlator securityResult).blocks, c.Sendable)
    (h : ∀ c ∈ (framed b named correlator securityResult).blocks, c.Unaltered f) {ns : List Block}
    (hns : List.Forall₂ (Block.Restores f) (framed b named correlator securityResult).blocks ns) :
    getBlocks ns = frontMembers named correlator ::
      (received b.blocks ++ [backMembers correlator securityResult]) := by
  rw [getBlocks_restores hsendable h hns, framed, received, List.filterMap_cons,
    List.filterMap_append, ← received, received_unmarkBack]
  have hfront : receivedMembers (front named correlator) = some (frontMembers named correlator) :=
    congrArg some (receivedWith_front named correlator)
  have hback : receivedMembers (back correlator securityResult) =
      some (backMembers correlator securityResult) :=
    congrArg some (receivedWith_back correlator securityResult)
  rw [hfront, List.filterMap_cons, hback]
  rfl

/-- **The verification of a bundle that was left as it is** and kept its blocks. -/
theorem verify_restores_iff {hmac : Bytes → Bytes → Bytes} {random : List UInt64}
    {b a n : Bundle} {q : PrimaryBlock} (hauth : auth hmac random key b = .ok (some a))
    (ha : a.Sendable) (hunaltered : a.Unaltered)
    (hprimary : n.toPrimaryBlock =
      DefaultDeserializer.receivedPrimary a.resolved a.toPrimaryBlock q)
    (hblocks : List.Forall₂ (Block.Restores a.resolved) a.blocks n.blocks) :
    (∃ correlator, verify hmac n key = .ok correlator) ↔
      Verifiable (calcMAC hmac a key) key b := by
  have hsame : n.source = a.source :=
    (congrArg PrimaryBlock.source hprimary).trans
      (hunaltered.header a.source (by simp [Bundle.headerEIDs]))
  have hstrict : calcMAC hmac n key = calcMAC hmac a key := by
    rw [calcMAC, StrictSerializer.writeBundle_restores ha hunaltered hprimary hblocks, calcMAC]
  obtain ⟨source, correlator, hsource, hzero, hne, heq⟩ := auth_eq hauth
  have hhash : calcMAC hmac (framed b (namedSource key source) correlator TLVList.empty) key =
      calcMAC hmac a key := by
    rw [heq]
    exact congrArg (hmac key.data) (writeBundle_framed b _ correlator _).symm
  rw [verify, hstrict, Verifiable]
  rw [hhash] at heq
  generalize calcMAC hmac a key = mac at heq ⊢
  subst heq
  rw [getBlocks_framed_restores ha.blocks hunaltered.blocks hblocks,
    exists_verifyLoop_iff (hsame ▸ hsource) fun t ht => correlator_received hzero hne ht,
    compared_primary hsame, Owned, hsame]
  rfl

/-- **The authentications that survive a transport**: nothing is altered, every block is kept, and
what the verification depends on besides the hash is there. -/
theorem survives_iff {hmac : Bytes → Bytes → Bytes} {random : List UInt64} {b a obj : Bundle}
    (hauth : auth hmac random key b = .ok (some a)) (ha : a.Sendable)
    (haddressed : a.Addressed) {s : DefaultSerializer} (hs : s.dictionary.good = true)
    {d : DefaultDeserializer} (hd : d.dictionary.good = true) {env : DeserializerEnv}
    (henv : env.validator = Validator.accept) (hblob : env.blob.CopiesExactly) :
    (∃ n d', (DefaultDeserializer.readBundle env d obj).Reads (s.writeBundle a).1 (n, d') ∧
      StrictSerializer.writeBundle n = StrictSerializer.writeBundle a ∧
      ∃ correlator, verify hmac n key = .ok correlator) ↔
      a.Unaltered ∧ a.KeepsBlocks ∧ Verifiable (calcMAC hmac a key) key b := by
  have hlt (c : Block) (hc : c ∈ a.blocks) (htype : c.blocktype = payloadType) :
      c.body.serialize.length < 2 ^ 63 :=
    (StrictSerializer.length_serialize_le hc (Block.HasType.classType_payloadType
      (htype ▸ (ha.blocks c hc).hasType))).trans_lt haddressed.strict_lt
  have hread (hkeeps : a.KeepsBlocks) : ∃ n d',
      (DefaultDeserializer.readBundle env d obj).Reads (s.writeBundle a).1 (n, d') ∧
        n.toPrimaryBlock =
          DefaultDeserializer.receivedPrimary a.resolved a.toPrimaryBlock obj.toPrimaryBlock ∧
        List.Forall₂ (Block.Restores a.resolved) a.blocks n.blocks :=
    ha.reads_restores hkeeps hlt hs hd henv hblob
  constructor
  · rintro ⟨n, d', hn, hstrict, hverified⟩
    obtain ⟨source, correlator, -, -, -, heq⟩ := auth_eq hauth
    have hends := congrArg Bundle.blocks heq
    rw [framed, ← List.cons_append] at hends
    have hkept (securityResult : TLVList) : ¬ (back correlator securityResult).AsksDiscard :=
      fun h => absurd h.1 (by simp [back, Body.classType])
    obtain ⟨hprimary, nss, hbecomes, hblocks⟩ := ha.exists_becomes hends (hkept _)
      (show (2 : UInt8) ≠ payloadType by decide) hs hd henv hblob (hn [] [])
    obtain ⟨hunaltered, hkeeps⟩ := StrictSerializer.keepsBlocks_of_writeBundle_eq ha haddressed
      hprimary hbecomes hblocks hstrict
    obtain ⟨n', d₁, hn', hprimary, hrestores⟩ := hread hkeeps
    obtain ⟨rfl, -⟩ := Prod.mk.inj (hn.unique hn')
    exact ⟨hunaltered, hkeeps,
      (verify_restores_iff hauth ha hunaltered hprimary hrestores).1 hverified⟩
  · rintro ⟨hunaltered, hkeeps, hverifiable⟩
    obtain ⟨n, d₁, hn, hprimary, hrestores⟩ := hread hkeeps
    exact ⟨n, d₁, hn, StrictSerializer.writeBundle_restores ha hunaltered hprimary hrestores,
      (verify_restores_iff hauth ha hunaltered hprimary hrestores).2 hverifiable⟩

/-! ### Samples -/

/-- A bundle with one block, of a type without a class. -/
def unknownSample (procflags : UInt64) : Bundle := .sample [⟨200, procflags, [], .extension [0x68]⟩]

/-- An administrative bundle with the given record in front of a block of a type without a class,
which is marked as forwarded without being processed. -/
def recordSample (record : Bytes) : Bundle :=
  { Bundle.sample [⟨payloadType, 0, [], .payload record⟩,
      ⟨200, 0x28, [], .extension [0x68]⟩] with
    procflags := PrimaryBlock.appdataIsAdmrecord }

/-- A key of the source of the samples. -/
def sampleKey : SecurityKey := ⟨Bundle.sampleEID, []⟩

/-- The sum of the bytes, in place of a hash. -/
def sampleHash (_ data : Bytes) : Bytes := [data.sum]

/-- The strict form of a sample with authentication blocks, and that of the bundle that is read. -/
def sampleForms (b : Bundle) : Option (Bytes × Option Bytes) :=
  (auth sampleHash [5] sampleKey b).toOption.join.map fun a =>
    (StrictSerializer.writeBundle a, ((DefaultDeserializer.readBundle (.default BLOB.exact ⟨0, 0⟩)
      DefaultDeserializer.create (Bundle.create 0 0)).run
        ⟨(DefaultSerializer.create.writeBundle a).1, false, false, []⟩).1.toOption.map fun x =>
          StrictSerializer.writeBundle x.1)

/-- A bundle that is written and read again has the same strict form, and its authentication
verifies. -/
def Rereads (a : Bundle) : Prop :=
  ∃ n d', (DefaultDeserializer.readBundle (.default BLOB.exact ⟨0, 0⟩)
      DefaultDeserializer.create (Bundle.create 0 0)).Reads
      (DefaultSerializer.create.writeBundle a).1 (n, d') ∧
    StrictSerializer.writeBundle n = StrictSerializer.writeBundle a ∧
    ∃ correlator, verify sampleHash n sampleKey = .ok correlator

/-- The authentication of a bundle does not survive. -/
def Perishes (b : Bundle) : Prop :=
  ∃ a, auth sampleHash [5] sampleKey b = .ok (some a) ∧ ¬ Rereads a

/-- A bundle whose forms differ does not survive. -/
theorem perishes_of_sampleForms {b : Bundle}
    (h : (sampleForms b).any (fun x => decide (x.2 ≠ some x.1)) = true) : Perishes b := by
  obtain ⟨⟨form, read⟩, hforms, hne⟩ := (Option.any_eq_true _ _).1 h
  obtain ⟨a, ha, hform⟩ := Option.map_eq_some_iff.1 hforms
  obtain ⟨rfl, rfl⟩ := Prod.mk.inj hform
  refine ⟨a, ?_, ?_⟩
  · cases hauth : auth sampleHash [5] sampleKey b with
    | error e =>
        rw [hauth] at ha
        exact absurd ha (by simp [Except.toOption])
    | ok a' =>
        rw [hauth] at ha
        exact congrArg Except.ok ha
  · rintro ⟨n, d', hn, hstrict, -⟩
    have hrun := hn [] []
    rw [List.append_nil] at hrun
    rw [hrun] at hne
    exact of_decide_eq_true hne (congrArg some hstrict)

/-- The bundle with a status report behind its authentication. -/
def authenticatedSample : Bundle :=
  framed (recordSample (StatusReportBlock.create ⟨0, 0⟩).serialize) EID.none 5
    (TLVList.empty.set integritySignature [197])

theorem auth_recordSample : auth sampleHash [5] sampleKey
    (recordSample (StatusReportBlock.create ⟨0, 0⟩).serialize) =
      .ok (some authenticatedSample) := by
  decide +kernel

/-- The blocks of the sample. -/
theorem mem_blocks_authenticatedSample {c : Block} (hc : c ∈ authenticatedSample.blocks) :
    c = front EID.none 5 ∨
      c = ⟨payloadType, 0, [], .payload (StatusReportBlock.create ⟨0, 0⟩).serialize⟩ ∨
      c = ⟨200, 0x20, [], .extension [0x68]⟩ ∨
      c = back 5 (TLVList.empty.set integritySignature [197]) := by
  have hblocks : authenticatedSample.blocks = [front EID.none 5,
      ⟨payloadType, 0, [], .payload (StatusReportBlock.create ⟨0, 0⟩).serialize⟩,
      ⟨200, 0x20, [], .extension [0x68]⟩,
      back 5 (TLVList.empty.set integritySignature [197])] := rfl
  simpa [hblocks] using hc

theorem allEIDs_authenticatedSample :
    authenticatedSample.allEIDs = [EID.none, Bundle.sampleEID, EID.none, EID.none] := rfl

theorem sendable_authenticatedSample : authenticatedSample.Sendable where
  nonempty := by simp [authenticatedSample, framed]
  marked := ⟨by decide, by decide, by decide,
    (by decide : (back 5 TLVList.empty).get lastBlock = true)⟩
  blocks := by
    intro c hc
    rcases mem_blocks_authenticatedSample hc with rfl | rfl | rfl | rfl
    · refine ⟨by decide, fun s hs => ?_, by decide, by decide, by decide⟩
      obtain rfl := Option.some.inj hs
      exact ⟨⟨by decide, by decide⟩, fun h => absurd h (by decide), fun h => absurd h (by decide)⟩
    · exact ⟨by decide, fun _ h => absurd h (by simp [Body.security?]), by decide, by decide,
        by decide⟩
    · exact ⟨by decide, fun _ h => absurd h (by simp [Body.security?]), by decide, by decide,
        by decide⟩
    · refine ⟨.inl rfl, fun s hs => ?_, fun h => absurd rfl h, by decide, by decide⟩
      obtain rfl := Option.some.inj hs
      exact ⟨⟨by decide, by decide⟩, fun h => absurd h (by decide), fun _ => ⟨by decide, by decide⟩⟩
  nameable := by
    rw [allEIDs_authenticatedSample]
    exact fun _ => by decide
  size_lt := by
    rw [allEIDs_authenticatedSample]
    decide

theorem addressed_authenticatedSample : authenticatedSample.Addressed where
  nulFree := by
    intro e he
    simp only [allEIDs_authenticatedSample, List.mem_cons, List.not_mem_nil, or_false] at he
    rcases he with rfl | rfl | rfl | rfl <;> exact ⟨by decide, by decide⟩
  resolved_size_lt := by decide
  sizes := by
    intro c hc
    rcases mem_blocks_authenticatedSample hc with rfl | rfl | rfl | rfl
    · refine ⟨fun _ _ h => absurd h (by simp [front]), fun s hs => ?_⟩
      obtain rfl := Option.some.inj hs
      exact ⟨by decide, by decide⟩
    · exact ⟨fun _ _ h => absurd h (by simp), fun s hs => absurd hs (by simp [Body.security?])⟩
    · exact ⟨fun _ _ h => absurd h (by simp), fun s hs => absurd hs (by simp [Body.security?])⟩
    · refine ⟨fun _ _ h => absurd h (by simp [back]), fun s hs => ?_⟩
      obtain rfl := Option.some.inj hs
      exact ⟨by decide, by decide⟩
  strict_lt := by decide +kernel

/-- The transport alters nothing of the sample. -/
theorem unaltered_authenticatedSample : authenticatedSample.Unaltered where
  header := by decide
  blocks := by
    intro c hc
    rcases mem_blocks_authenticatedSample hc with rfl | rfl | rfl | rfl
    · exact ⟨by decide, by decide, fun _ _ h => absurd h (by simp [front])⟩
    · exact ⟨by decide, by decide, fun _ _ h => absurd h (by simp)⟩
    · exact ⟨by decide, by decide, fun _ _ h => absurd h (by simp)⟩
    · exact ⟨by decide, by decide, fun _ _ h => absurd h (by simp [back])⟩

/-- All blocks of the sample are kept, the record among them. -/
theorem keepsBlocks_authenticatedSample : authenticatedSample.KeepsBlocks where
  kept := by decide +kernel
  records := by
    intro c hc hrecord
    have hreport : (StatusReportBlock.create ⟨0, 0⟩).Legible :=
      ⟨by decide, by decide, by decide, by decide⟩
    rcases mem_blocks_authenticatedSample hc with rfl | rfl | rfl | rfl
    · exact absurd hrecord.2 (by decide)
    · exact ⟨rfl, .inl ⟨_, hreport, by decide, rfl⟩⟩
    · exact absurd hrecord.2 (by decide)
    · exact absurd hrecord.2 (by decide)

/-- **An authentication that survives**: the record is a status report, and the block of an unknown
type is marked, as the reader marks it. -/
theorem survives_iff_sample : Rereads authenticatedSample :=
  (survives_iff auth_recordSample sendable_authenticatedSample addressed_authenticatedSample rfl rfl
    rfl BLOB.exact_copiesExactly).2
      ⟨unaltered_authenticatedSample, keepsBlocks_authenticatedSample,
        ⟨by decide, fun h => absurd h (by decide)⟩⟩

/-- **Authentications that do not survive**: of a block of an unknown type that is not marked, one
that asks to be discarded, a custody signal, and a record of an unknown type. -/
theorem not_survives_sample :
    Perishes (unknownSample 0x08) ∧ Perishes (unknownSample 0x38) ∧
      Perishes (recordSample (CustodySignalBlock.create ⟨0, 0⟩).serialize) ∧
      Perishes (recordSample [0x30]) :=
  ⟨perishes_of_sampleForms (by decide +kernel), perishes_of_sampleForms (by decide +kernel),
    perishes_of_sampleForms (by decide +kernel), perishes_of_sampleForms (by decide +kernel)⟩

end BundleAuthenticationBlock

end IbrDtn
