import IbrDtn.Data.Serializer

/-!
# The clock of a node

This file models `Clock::getExpireTime` of `ibrdtn/utils/Clock.cpp` and what depends on the time in
`ibrdtn/data/AgeBlock.cpp`.  The operating system's time and the stop watch in an age block are
parameters: a `Clock` is what they say at one moment.

## Main definitions

* `Clock` : the clock at one moment.
* `Clock.getExpireTime` : the time at which a bundle expires, as seen from that moment.
* `Bundle.lengthAt` : the predicted length of a bundle at that moment.
-/

namespace IbrDtn

/-- The member of an age block. -/
def Body.age? : Body → Option AgeBlock
  | .age b => some b
  | _ => none

/-- The members of a scope control hop limit block. -/
def Body.scopeControlHopLimit? : Body → Option ScopeControlHopLimitBlock
  | .scopeControlHopLimit b => some b
  | _ => none

/-- `Bundle::getBlock<T>`: the first block of the type of the class `T` must be one of that
class. -/
def Bundle.getBlock {α : Type} (b : Bundle) (type : UInt8) (cast : Body → Option α) : Option α :=
  (b.blocks.find? fun block => block.blocktype == type).bind fun block => cast block.body

/-- `ScopeControlHopLimitBlock::getHopsToLive`. -/
def ScopeControlHopLimitBlock.getHopsToLive (b : ScopeControlHopLimitBlock) : UInt64 :=
  if b.limit < b.count then 0 else b.limit - b.count

/-- What the clock says at one moment: `Clock::getTime()`, whether `Clock::quality` is above zero,
the floating point product of a lifetime with `1 - quality`, `Clock::badclock`, and the microseconds
that the stop watch of an age block measured. -/
structure Clock where
  time : UInt64
  hasQuality : Bool
  sigma : UInt64 → UInt64
  badclock : Bool
  elapsed : AgeBlock → UInt64

namespace Clock

/-- `AgeBlock::getSeconds`. -/
def getSeconds (c : Clock) (b : AgeBlock) : UInt64 := (b.age + c.elapsed b) / 1000000

/-- `Clock::__getExpireTime`. -/
def expireTime (c : Clock) (timestamp lifetime : UInt64) : UInt64 :=
  if c.hasQuality then timestamp + lifetime + c.sigma lifetime else timestamp + lifetime

/-- `Clock::getExpireTime(const Bundle&)`: without a timestamp, the age decides. -/
def getExpireTime (c : Clock) (b : Bundle) : UInt64 :=
  if b.timestamp = 0 ∨ c.badclock = true then
    match b.getBlock Block.newAge.blocktype Body.age? with
    | some age => c.time + (b.lifetime - c.getSeconds age)
    | none => c.expireTime b.timestamp b.lifetime
  else c.expireTime b.timestamp b.lifetime

/-- `Clock::isExpired(const Bundle&)`: without an age block, only a clock that is in order says so.
-/
def isExpired (c : Clock) (b : Bundle) : Bool :=
  match b.getBlock Block.newAge.blocktype Body.age? with
  | some age => decide (b.lifetime < c.getSeconds age)
  | none =>
      if c.hasQuality = false ∨ c.badclock = true then false
      else decide (c.time > b.timestamp + b.lifetime + c.sigma b.lifetime)

/-- A clock that shows the given time, and is in order. -/
def showing (time : UInt64) : Clock := ⟨time, true, fun _ => 0, false, fun _ => 0⟩

end Clock

/-- `AgeBlock::addSeconds`. -/
def AgeBlock.addSeconds (value : UInt64) (b : AgeBlock) : AgeBlock :=
  { b with age := b.age + value * 1000000 }

/-- `getBlock<AgeBlock>().addSeconds(value)`, on the blocks of a bundle that may have no age block.
-/
def BlockList.addSeconds (value : UInt64) : List Block → List Block
  | [] => []
  | b :: bs =>
      if b.blocktype == Block.newAge.blocktype then
        match b.body with
        | .age age => { b with body := .age (age.addSeconds value) } :: bs
        | _ => b :: bs
      else b :: addSeconds value bs

/-- The bundle has become older by the given seconds. -/
def Bundle.addSeconds (value : UInt64) (b : Bundle) : Bundle :=
  { b with blocks := BlockList.addSeconds value b.blocks }

/-- The block as the prediction of its length sees it: an age block has become older. -/
def Block.measured (c : Clock) (b : Block) : Block :=
  match b.body with
  | .age age => { b with body := .age { age with elapsedAtLength := c.elapsed age } }
  | _ => b

/-- `DefaultSerializer::getLength(bundle)` of a new serializer. -/
def Bundle.lengthAt (c : Clock) (b : Bundle) : UInt64 :=
  UInt64.ofNat (DefaultSerializer.create.getLength
    { b with blocks := b.blocks.map (Block.measured c) })

end IbrDtn
