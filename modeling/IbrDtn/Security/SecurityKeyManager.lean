import IbrDtn.Security.SecurityKey

/-!
# The security key manager

This file models `daemon/src/security/SecurityKeyManager.cpp`.  The keys are files of a directory,
whose names are the texts of the nodes in hexadecimal digits.  A character is signed, so one from
`0x80` on is written as a negative `int`, with eight digits.

An exception that a function does not declare ends the program: the call never returns.

## Main definitions

* `SecurityKeyManager.hash` : the digits.
* `SecurityKeyManager.get` : the key of a node.

## Main results

* `SecurityKeyManager.get_eq_error_iff` : a call ends the program exactly if the node has no name.
-/

namespace IbrDtn

/-- `SecurityKey::KeyType`. -/
inductive SecurityKey.KeyType where
  | keyUnspec
  | keyShared
  | keyPrivate
  | keyPublic
deriving DecidableEq, Repr

/-- `class SecurityKeyManager`: the contents of the files in its directory, and of the file of
`Configuration::Security::getBABDefaultKey`. -/
structure SecurityKeyManager where
  path : Bytes → Option Bytes
  babDefaultKey : Option Bytes

/-- What becomes of an exception that a function does not declare. -/
def Exn.unexpected : Exn := .diverges "std::unexpected"

namespace SecurityKeyManager

/-- A digit of `std::hex`. -/
def hexDigit (n : UInt8) : UInt8 := if n < 10 then 0x30 + n else 0x57 + n

/-- A character as an `int` in `std::hex`, with a width of two. -/
def hexByte (c : UInt8) : Bytes :=
  (if c < 0x80 then [] else ascii ['f', 'f', 'f', 'f', 'f', 'f']) ++
    [hexDigit (c / 16), hexDigit (c % 16)]

/-- The characters of a text. -/
def hexText (value : Bytes) : Bytes := value.flatMap hexByte

/-- `SecurityKeyManager::hash`. -/
def hash (eid : EID) : Except Exn Bytes := do
  let node ← eid.getNode
  pure (hexText node.getString)

/-- The names of the key files. -/
def macSuffix : Bytes := ascii ['.', 'm', 'a', 'c']
def pemSuffix : Bytes := ascii ['.', 'p', 'e', 'm']

/-- The part of `get` behind the name of the file. -/
def read (m : SecurityKeyManager) (node : EID) (digits : Bytes) :
    SecurityKey.KeyType → Option SecurityKey
  | .keyShared =>
      match m.path (digits ++ macSuffix) with
      | some data => some ⟨node, data⟩
      | none => m.babDefaultKey.map (SecurityKey.mk node)
  | .keyUnspec | .keyPublic | .keyPrivate =>
      (m.path (digits ++ pemSuffix)).map (SecurityKey.mk node)

/-- `SecurityKeyManager::get`, which declares the exception for a key that is not found and no
other one. -/
def get (m : SecurityKeyManager) (ref : EID) (type : SecurityKey.KeyType) :
    Except Exn (Option SecurityKey) :=
  match ref.getNode with
  | .error _ => .error .unexpected
  | .ok node =>
      match hash node with
      | .error _ => .error .unexpected
      | .ok digits => .ok (m.read node digits type)

/-! ### Keys -/

/-- The text that names the file of a key. -/
def owner (ref : EID) : Except Exn Bytes := do
  let node ← ref.getNode
  let node ← node.getNode
  pure node.getString

/-- A node without a name of its file ends the program. -/
theorem get_eq_error_iff {m : SecurityKeyManager} {ref : EID} {type : SecurityKey.KeyType}
    {e : Exn} : m.get ref type = .error e ↔ (∀ text, owner ref ≠ .ok text) ∧ e = .unexpected := by
  rw [get, owner]
  cases ref.getNode with
  | error e' => simp [bind, Except.bind, eq_comm]
  | ok node =>
      unfold hash
      cases hnode : node.getNode <;>
        simp [bind, Except.bind, pure, Except.pure, hnode, eq_comm]

end SecurityKeyManager

end IbrDtn
