import IbrDtn.Data.Block
import IbrDtn.Routing.SummaryVector

/-!
# Handshake messages

This file models `daemon/src/routing/NodeHandshake.cpp` and the template `NodeHandshake::get` of
`NodeHandshake.h`.  A request is a set of identifiers; a response is a list of items, each written
with its identifier and its length.  A response that is read keeps the bytes of every item in a map
by the identifiers, and an item is made from them when it is asked for by its class.  The two
classes of items have the same identifier.

## Main definitions

* `NodeHandshakeItem`, `ItemClass` : items, and the classes that they are asked for by.
* `NodeHandshake`, `NodeHandshake.write`, `NodeHandshake.read` : the messages.
* `NodeHandshake.get` : the item of a class.

## Main results

* `NodeHandshake.reads_response` : what is read back.
* `NodeHandshake.get_raw`, `NodeHandshake.get_badCast` : the two ways in which an item is found.
-/

namespace IbrDtn

variable {F : Type} [BloomFilter F]

/-- `BloomFilterSummaryVector::identifier`. -/
def BloomFilterSummaryVector.identifier : UInt64 := 1

/-- `BloomFilterPurgeVector::identifier`. -/
def BloomFilterPurgeVector.identifier : UInt64 := 1

/-- `class NodeHandshakeItem`, and the two classes below it. -/
inductive NodeHandshakeItem (F : Type) where
  | bloomFilterSummaryVector (vector : SummaryVector F)
  | bloomFilterPurgeVector (vector : SummaryVector F)

namespace NodeHandshakeItem

/-- The member of both classes. -/
def getVector : NodeHandshakeItem F → SummaryVector F
  | .bloomFilterSummaryVector v => v
  | .bloomFilterPurgeVector v => v

/-- `NodeHandshakeItem::getIdentifier`. -/
def getIdentifier : NodeHandshakeItem F → UInt64
  | .bloomFilterSummaryVector _ => BloomFilterSummaryVector.identifier
  | .bloomFilterPurgeVector _ => BloomFilterPurgeVector.identifier

/-- `NodeHandshakeItem::getLength`. -/
def getLength (i : NodeHandshakeItem F) : UInt64 := i.getVector.getLength

/-- `NodeHandshakeItem::serialize`. -/
def serialize (i : NodeHandshakeItem F) : Bytes := i.getVector.write

/-- An item in a response: its identifier, its length and its bytes. -/
def write (i : NodeHandshakeItem F) : Bytes :=
  SDNV.write i.getIdentifier ++ (SDNV.write i.getLength ++ i.serialize)

end NodeHandshakeItem

/-- A class `T` of items as the template argument of `get`: `T::identifier`, the object that
`T::deserialize` makes of a vector, and `dynamic_cast<T&>`. -/
structure ItemClass (F : Type) where
  identifier : UInt64
  ofVector : SummaryVector F → NodeHandshakeItem F
  cast : NodeHandshakeItem F → Option (SummaryVector F)

/-- `class BloomFilterSummaryVector`. -/
def ItemClass.bloomFilterSummaryVector : ItemClass F where
  identifier := BloomFilterSummaryVector.identifier
  ofVector := .bloomFilterSummaryVector
  cast
    | .bloomFilterSummaryVector v => some v
    | .bloomFilterPurgeVector _ => none

/-- `class BloomFilterPurgeVector`. -/
def ItemClass.bloomFilterPurgeVector : ItemClass F where
  identifier := BloomFilterPurgeVector.identifier
  ofVector := .bloomFilterPurgeVector
  cast
    | .bloomFilterSummaryVector _ => none
    | .bloomFilterPurgeVector v => some v

/-- `class NodeHandshake`. The raw items are the streams in the map `_raw_items`. -/
structure NodeHandshake (F : Type) where
  type : UInt64
  lifetime : UInt64
  requests : List UInt64
  items : List (NodeHandshakeItem F)
  rawItems : List (UInt64 × InStream)

namespace NodeHandshake

/-- `NodeHandshake::MESSAGE_TYPE`. -/
def handshakeInvalid : UInt64 := 0
def handshakeRequest : UInt64 := 1
def handshakeResponse : UInt64 := 2

/-- `NodeHandshake::NodeHandshake()`. Only the lifetime of a response is ever looked at. -/
def create : NodeHandshake F := ⟨handshakeInvalid, 0, [], [], []⟩

/-- `NodeHandshake::NodeHandshake(MESSAGE_TYPE, size_t)`, with the default for the lifetime. -/
def ofType (type : UInt64) : NodeHandshake F := ⟨type, 60, [], [], []⟩

/-- `std::less<size_t>`. -/
def idLt (a b : UInt64) : Bool := decide (a < b)

/-- `NodeHandshake::addRequest`. -/
def addRequest (identifier : UInt64) (hs : NodeHandshake F) : NodeHandshake F :=
  { hs with requests := OrderedSet.insert id idLt identifier hs.requests }

/-- `NodeHandshake::hasRequest`. -/
def hasRequest (hs : NodeHandshake F) (identifier : UInt64) : Bool :=
  (OrderedSet.find? id idLt identifier hs.requests).isSome

/-- `NodeHandshake::addItem`. -/
def addItem (item : NodeHandshakeItem F) (hs : NodeHandshake F) : NodeHandshake F :=
  { hs with items := hs.items ++ [item] }

/-- `NodeHandshake::getItem`. -/
def getItem (hs : NodeHandshake F) (identifier : UInt64) : Option (NodeHandshakeItem F) :=
  hs.items.find? fun item => item.getIdentifier == identifier

/-! ### Encoding -/

/-- `operator<<(std::ostream&, const NodeHandshake&)`. -/
def write (hs : NodeHandshake F) : Bytes :=
  SDNV.write hs.type ++
    if hs.type = handshakeRequest then
      SDNV.write (UInt64.ofNat hs.requests.length) ++ hs.requests.flatMap SDNV.write
    else if hs.type = handshakeResponse then
      SDNV.write hs.lifetime ++
        (SDNV.write (UInt64.ofNat hs.items.length) ++ hs.items.flatMap NodeHandshakeItem.write)
    else []

/-- The loop over the announced number of identifiers. -/
def readRequests : ℕ → List UInt64 → Parser Exn (List UInt64)
  | 0, rs => pure rs
  | n + 1, rs => do
      let req ← SDNV.read
      readRequests n (OrderedSet.insert id idLt req rs)

/-- The loop over the announced number of items. An item with the identifier of an earlier one
takes its place. -/
def readItems (blob : BLOB) (stale : Bytes) :
    ℕ → List (UInt64 × InStream) → Parser Exn (List (UInt64 × InStream))
  | 0, raw => pure raw
  | n + 1, raw => do
      let id ← SDNV.read
      let len ← SDNV.read
      let data ← blob.copy len.toNat
      readItems blob stale n (OrderedSet.assign idLt id ⟨data, false, false, stale⟩ raw)

/-- `operator>>(std::istream&, NodeHandshake&)`, into a new object. -/
def read (blob : BLOB) (stale : Bytes) : Parser Exn (NodeHandshake F) := do
  let type ← SDNV.read
  if type = handshakeRequest then do
    let numberOfItems ← SDNV.read
    let requests ← readRequests numberOfItems.toNat []
    pure { create with type, requests }
  else if type = handshakeResponse then do
    let lifetime ← SDNV.read
    let numberOfItems ← SDNV.read
    let rawItems ← readItems blob stale numberOfItems.toNat []
    pure { create with type, lifetime, rawItems }
  else pure { create with type }

/-- What `get` throws. -/
inductive GetError where
  | notAvailable
  | failed (e : Exn)
  | badCast
deriving DecidableEq, Repr

/-- `NodeHandshake::get<T>`: the item, or the exception, and the message with what was made of its
raw item. -/
def get (T : ItemClass F) (hs : NodeHandshake F) :
    Except GetError (SummaryVector F) × NodeHandshake F :=
  match hs.getItem T.identifier with
  | some item =>
      match T.cast item with
      | some v => (.ok v, hs)
      | none => (.error .badCast, hs)
  | none =>
      match OrderedSet.find? Prod.fst idLt T.identifier hs.rawItems with
      | none => (.error .notAvailable, hs)
      | some raw =>
          match (SummaryVector.create : SummaryVector F).read.run raw.2 with
          | (.ok v, _) =>
              (.ok v, { hs with
                items := hs.items ++ [T.ofVector v]
                rawItems := OrderedSet.erase Prod.fst idLt T.identifier hs.rawItems })
          | (.error e, is) =>
              (.error (.failed e), { hs with
                rawItems := OrderedSet.assign idLt T.identifier is hs.rawItems })

/-! ### What is read back -/

/-- The raw item that an item becomes. -/
def raw (stale : Bytes) (i : NodeHandshakeItem F) : UInt64 × InStream :=
  (i.getIdentifier, ⟨i.serialize, false, false, stale⟩)

section Lawful

variable [LawfulBloomFilter F]

theorem reads_readItems {blob : BLOB} (hblob : blob.CopiesExactly) (stale : Bytes)
    (items : List (NodeHandshakeItem F)) (raws : List (UInt64 × InStream)) :
    (readItems blob stale items.length raws).Reads (items.flatMap NodeHandshakeItem.write)
      (items.foldl (fun raws i => OrderedSet.assign idLt (raw stale i).1 (raw stale i).2 raws)
        raws) := by
  induction items generalizing raws with
  | nil => exact Parser.reads_pure _
  | cons i items ih =>
      rw [List.flatMap_cons, NodeHandshakeItem.write, List.append_assoc, List.append_assoc]
      refine (SDNV.reads_read i.getIdentifier).bind ((SDNV.reads_read i.getLength).bind ?_)
      have hlen : i.getLength.toNat = i.serialize.length := i.getVector.toNat_getLength
      rw [hlen]
      exact (hblob.copy i.serialize).bind (ih _)

/-- **A response is read back as the raw items of its items**, of which those with one identifier
overwrite each other. -/
theorem reads_response (hs : NodeHandshake F) (htype : hs.type = handshakeResponse)
    (hlen : hs.items.length < 2 ^ 64) {blob : BLOB} (hblob : blob.CopiesExactly) (stale : Bytes) :
    (read blob stale : Parser Exn (NodeHandshake F)).Reads hs.write
      { create with
        type := handshakeResponse
        lifetime := hs.lifetime
        rawItems := hs.items.foldl
          (fun raws i => OrderedSet.assign idLt (raw stale i).1 (raw stale i).2 raws) [] } := by
  rw [write, htype, if_neg (by decide), if_pos rfl]
  refine (SDNV.reads_read handshakeResponse).bind ?_
  rw [if_neg (by decide), if_pos rfl]
  refine (SDNV.reads_read _).bind ((SDNV.reads_read _).bind ?_)
  rw [EID.toNat_ofNat_of_lt hlen]
  exact (reads_readItems hblob stale _ _).bind_pure

/-- **An item is made of the raw item with the identifier of the class.** -/
theorem get_raw (T : ItemClass F) (hs : NodeHandshake F) (v : SummaryVector F) (stale : Bytes)
    (hitem : hs.getItem T.identifier = none)
    (hraw : OrderedSet.find? Prod.fst idLt T.identifier hs.rawItems =
      some (T.identifier, ⟨v.write, false, false, stale⟩)) :
    hs.get T = (.ok v.received, { hs with
      items := hs.items ++ [T.ofVector v.received]
      rawItems := OrderedSet.erase Prod.fst idLt T.identifier hs.rawItems }) := by
  have hread := v.reads_read [] stale
  rw [List.append_nil] at hread
  rw [get, hitem]
  dsimp only
  rw [hraw]
  dsimp only
  rw [hread]

end Lawful

/-- **An item with the identifier of the class that is of another class** stands in the way. -/
theorem get_badCast {T : ItemClass F} {hs : NodeHandshake F} {item : NodeHandshakeItem F}
    (hitem : hs.getItem T.identifier = some item) (hcast : T.cast item = none) :
    hs.get T = (.error .badCast, hs) := by
  rw [get, hitem]
  dsimp only
  rw [hcast]

end NodeHandshake

end IbrDtn
