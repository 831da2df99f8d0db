import IbrDtn.Data.RoundTrip

/-!
# Security keys and security references

This file models the functions of `ibrdtn/security/SecurityBlock.cpp` for the references of a
security block: its source and its destination, which default to the nodes of the source and the
destination of the bundle, and its correlator.  A key belongs to an EID, and is used by the blocks
that have the node of that EID as their source or destination.

## Main definitions

* `SecurityKey` : a key.
* `Block.setSecuritySource`, `Block.setSecurityDestination` : the references of a block.
* `SecurityBlock.isSecuritySource`, `SecurityBlock.isSecurityDestination` : whose key is used.
* `Bundle.createCorrelatorValue` : a correlator that no block has.
-/

namespace IbrDtn

/-- `class SecurityKey`: the EID that the key belongs to, and the contents of its file. -/
structure SecurityKey where
  reference : EID
  data : Bytes
deriving DecidableEq

namespace SecurityBlock

/-- The type of a signature among `SecurityBlock::TLV_TYPES`. -/
def integritySignature : UInt8 := 5

/-- `SecurityBlock::setCorrelator`. -/
def setCorrelator (corr : UInt64) (b : SecurityBlock) : SecurityBlock :=
  { b with
    correlator := corr
    ciphersuiteFlags := b.ciphersuiteFlags ||| containsCorrelator }

/-- `SecurityBlock::getSecuritySource(const Bundle&)`. -/
def getSecuritySource (b : SecurityBlock) (bundle : PrimaryBlock) : Except Exn EID :=
  if b.securitySource = EID.none then bundle.source.getNode else .ok b.securitySource

/-- `SecurityBlock::getSecurityDestination(const Bundle&)`. -/
def getSecurityDestination (b : SecurityBlock) (bundle : PrimaryBlock) : Except Exn EID :=
  if b.securityDestination = EID.none then bundle.destination.getNode
  else .ok b.securityDestination

/-- `SecurityBlock::isSecuritySource`. -/
def isSecuritySource (b : SecurityBlock) (bundle : PrimaryBlock) (eid : EID) : Except Exn Bool := do
  let source ← b.getSecuritySource bundle
  let node ← eid.getNode
  pure (source == node)

/-- `SecurityBlock::isSecurityDestination`. -/
def isSecurityDestination (b : SecurityBlock) (bundle : PrimaryBlock) (eid : EID) :
    Except Exn Bool := do
  let destination ← b.getSecurityDestination bundle
  let node ← eid.getNode
  pure (destination == node)

end SecurityBlock

namespace Block

/-- `SecurityBlock::store_security_references`, in a block with the given members. -/
def storeSecurityReferences (c : Block) (b : SecurityBlock) : Block :=
  let source := if b.securitySource = EID.none then [] else [b.securitySource]
  let destination := if b.securityDestination = EID.none then [] else [b.securityDestination]
  let c := c.mapSecurity fun _ =>
    { b with
      ciphersuiteFlags := FlagWord.assign
        (FlagWord.assign b.ciphersuiteFlags SecurityBlock.containsSecuritySource
          (b.securitySource != EID.none))
        SecurityBlock.containsSecurityDestination (b.securityDestination != EID.none) }
  { c with eids := source ++ destination }.set blockContainsEids
    (!(source ++ destination).isEmpty)

/-- `SecurityBlock::setSecuritySource`. -/
def setSecuritySource (source : EID) (c : Block) : Block :=
  match c.body.security? with
  | some b => c.storeSecurityReferences { b with securitySource := source }
  | none => c

/-- `SecurityBlock::setSecurityDestination`. -/
def setSecurityDestination (destination : EID) (c : Block) : Block :=
  match c.body.security? with
  | some b => c.storeSecurityReferences { b with securityDestination := destination }
  | none => c

end Block

namespace Bundle

/-- The bundle with the object that the list refers to at a place changed. -/
def modify (b : Bundle) (index : ℕ) (f : Block → Block) : Bundle :=
  { b with blocks := b.blocks.modify index f }

/-- `SecurityBlock::isCorrelatorPresent`. -/
def isCorrelatorPresent (b : Bundle) (correlator : UInt64) : Bool :=
  b.blocks.any fun c =>
    match c.body.security? with
    | some s => s.correlator == correlator
    | none => false

/-- `SecurityBlock::createCorrelatorValue`, which draws from `random` until it finds a number that
is not present. -/
def createCorrelatorValue (random : List UInt64) (b : Bundle) : Option UInt64 :=
  random.find? fun corr => !b.isCorrelatorPresent corr

/-- A new correlator is not that of a block. -/
theorem correlator_ne_of_createCorrelatorValue {random : List UInt64} {b : Bundle} {corr : UInt64}
    (h : b.createCorrelatorValue random = some corr) {c : Block} (hc : c ∈ b.blocks)
    {s : SecurityBlock} (hs : c.body.security? = some s) : s.correlator ≠ corr := by
  have hnot := List.find?_some h
  rw [Bool.not_eq_true', isCorrelatorPresent, List.any_eq_false] at hnot
  have := hnot c hc
  rw [hs] at this
  simpa using this

end Bundle

end IbrDtn
