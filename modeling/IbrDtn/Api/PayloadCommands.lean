import IbrDtn.Data.BlockReplacement
import IbrDtn.Data.Transport

/-!
# The payload commands of the extended API

This file models the payload commands of `ExtendedApiHandler::run`, which transmit and edit the data
of a block of the bundle in the register of a client.  The data goes through a temporary BLOB, whose
stream has a position for reading and one for writing.

The block is a reference, which is first bound to the payload block.  A reference cannot be bound
again: to select another block by its index assigns the type, the flags and the EIDs of that block
to the payload block.

## Main definitions

* `ExtendedApiHandler.payload` : the payload commands.
* `ExtendedApiHandler.WorksOn` : what is asked of them.
* `ExtendedApiHandler.Fits` : for which blocks and numbers they do it.

## Main results

* `ExtendedApiHandler.worksOn_iff` : the commands do what is asked of them exactly on these.
-/

namespace IbrDtn

/-! ### The stream of a BLOB -/

/-- `ibrcommon::BLOB::iostream`, as a string stream. -/
structure BlobStream where
  content : Bytes
  getPos : ℕ
  putPos : ℕ
deriving DecidableEq, Repr

namespace BlobStream

/-- The stream of `ibrcommon::BLOB::create()`. -/
def create : BlobStream := ⟨[], 0, 0⟩

/-- Bytes are written at the put position. -/
def write (bs : Bytes) (s : BlobStream) : BlobStream :=
  { s with
    content := s.content.take s.putPos ++ bs ++ s.content.drop (s.putPos + bs.length)
    putPos := s.putPos + bs.length }

/-- `seekp`, from the start. -/
def seekp (pos : ℕ) (s : BlobStream) : BlobStream := { s with putPos := pos }

/-- `ignore`. -/
def ignore (n : ℕ) (s : BlobStream) : BlobStream :=
  { s with getPos := min (s.getPos + n) s.content.length }

/-- What `ibrcommon::BLOB::copy` reads of the given length. -/
def copied (length : ℕ) (s : BlobStream) : Bytes := (s.content.drop s.getPos).take length

end BlobStream

namespace ExtendedApiHandler

/-! ### Commands -/

/-- The payload commands with their parameters. The input is what the client sends behind the
command, or the exception that reading it throws. -/
inductive PayloadCommand where
  | get (parameters : Option (Int32 × Option Int32))
  | put (offset : Option Int32) (input : Except Exn Bytes)
  | append (input : Except Exn Bytes)
  | clear
  | length

/-- The answers to a payload command. The answer to `get` has the announced length and the bytes
that follow, and may be followed by a failure. -/
inductive Reply where
  | badRequest
  | get (length : ℕ) (bytes : Bytes)
  | getFailed (length : ℕ) (bytes : Bytes)
  | successful
  | failed
  | length (length : ℕ)
deriving DecidableEq, Repr

/-- The parameter `payload_offset`: none and negative ones are zero. -/
def payloadOffset (parameter : Option Int32) : ℕ := (parameter.getD 0).toInt.toNat

/-- The length that `PlainSerializer::serialize` announces and copies. A negative limit is a number
without sign that is greater than every size. -/
def serializedLength (size : ℕ) (limit : ℤ) : ℕ :=
  if limit < size ∧ 0 < limit then limit.toNat else size

/-- The length that the command `get` passes to the serializer. The sum of the two parameters must
be an `int`, and so is the difference that the size is clipped to. -/
def getLength (size offset : ℕ) (length : Int32) : Except Exn ℤ :=
  if length ≤ 0 then .ok (((size : ℤ) - offset).bmod (2 ^ 32))
  else if 2 ^ 31 ≤ length.toInt + offset then .error (.undefined "the overflow of an integer")
  else if length.toInt + offset > size then .ok (((size : ℤ) - offset).bmod (2 ^ 32))
  else .ok length.toInt

/-- The command `get` on a block with the given data. -/
def get (data : Bytes) (parameters : Option (Int32 × Option Int32)) : Except Exn Reply := do
  let offset := payloadOffset (parameters.map Prod.fst)
  let stream := BlobStream.create.write data
  let length ← getLength data.length offset ((parameters.bind Prod.snd).getD 0)
  let stream := stream.ignore offset
  let len := serializedLength data.length length
  if (stream.copied len).length < len then pure (.getFailed len (stream.copied len))
  else pure (.get len (stream.copied len))

/-- The data of a block behind the command `put`. -/
def put (data : Bytes) (offset : Option Int32) (input : Bytes) : Bytes :=
  let stream := BlobStream.create.write data
  let stream :=
    if payloadOffset offset < data.length then stream.seekp (payloadOffset offset) else stream
  let stream := stream.write input
  stream.copied stream.content.length

/-- The data of a block behind the command `append`. -/
def append (data input : Bytes) : Bytes :=
  let stream := (BlobStream.create.write data).write input
  stream.copied stream.content.length

/-- `PayloadBlock::deserialize`, from a stream with exactly the given data. -/
def deserialize (data : Bytes) (b : Block) : Block :=
  { b with body := .payload data }.set Block.forwardedWithoutProcessed false

/-- A command on the payload block with the given data: its answer, and the block behind it. -/
def execute (b : Block) (data : Bytes) : PayloadCommand → Except Exn (Reply × Block)
  | .get parameters => do pure (← get data parameters, b)
  | .put offset (.ok input) => .ok (.successful, deserialize (put data offset input) b)
  | .append (.ok input) => .ok (.successful, deserialize (append data input) b)
  | .put _ (.error _) | .append (.error _) => .ok (.failed, b)
  | .clear => .ok (.successful, deserialize [] b)
  | .length => .ok (.length data.length, b)

/-- `Block::operator=`, which the classes of blocks do not override for a reference to `Block`. -/
def assign (b other : Block) : Block :=
  { b with blocktype := other.blocktype, procflags := other.procflags, eids := other.eids }

/-- The payload commands of `run`, on the bundle in the register: the answer, and the bundle behind
the command. A command without its word is a bad request. -/
def payload (bundle : Bundle) (blockOffset : Option Int32) (command : Option PayloadCommand) :
    Except Exn (Reply × Bundle) :=
  match bundle.place Block.payloadType Body.payload?, command with
  | none, _ | _, none => .ok (.badRequest, bundle)
  | some (index, data), some command =>
      match blockOffset with
      | none => do
          let b := bundle.blocks.getD index Block.newPayload
          let (reply, b) ← execute b data command
          pure (reply, { bundle with blocks := bundle.blocks.set index b })
      | some blockOffset =>
          if blockOffset < 0 ∨ (bundle.blocks.length : ℤ) ≤ blockOffset.toInt then
            .ok (.badRequest, bundle)
          else do
            -- `b = _bundle_reg.getBlock(block_offset)` assigns to the payload block
            let b := assign (bundle.blocks.getD index Block.newPayload)
              (bundle.blocks.getD blockOffset.toInt.toNat Block.newPayload)
            let (reply, b) ← execute b data command
            pure (reply, { bundle with blocks := bundle.blocks.set index b })

/-! ### What is asked of the commands -/

/-- The bytes from the offset to the offset plus the length, clipped to the end. -/
def clip (offset : ℕ) (length : Option ℕ) (data : Bytes) : Bytes :=
  match length with
  | some length => (data.drop offset).take length
  | none => data.drop offset

/-- The data with other bytes from the offset on, or behind its end. -/
def overwrite (offset : ℕ) (input data : Bytes) : Bytes :=
  data.take offset ++ input ++ data.drop (offset + input.length)

/-- The bytes that the command `get` is asked for. -/
def requested (parameters : Option (Int32 × Option Int32)) (data : Bytes) : Bytes :=
  clip (payloadOffset (parameters.map Prod.fst))
    ((parameters.bind Prod.snd).map fun length => length.toInt.toNat) data

namespace PayloadCommand

/-- What the command makes of the data of the selected block. -/
def edit : PayloadCommand → Bytes → Bytes
  | .put offset (.ok input), data => overwrite (payloadOffset offset) input data
  | .append (.ok input), data => data ++ input
  | .clear, _ => []
  | _, data => data

/-- The answer to the command on the data of the selected block. -/
def reply : PayloadCommand → Bytes → Reply
  | .get parameters, data => .get (requested parameters data).length (requested parameters data)
  | .put _ (.ok _), _ | .append (.ok _), _ | .clear, _ => .successful
  | .put _ (.error _), _ | .append (.error _), _ => .failed
  | .length, data => .length data.length

/-- The command reads data into the block. -/
def writes : PayloadCommand → Bool
  | .put _ (.ok _) | .append (.ok _) | .clear => true
  | _ => false

end PayloadCommand

/-- The block that a command selects: the payload block, or the one with the given index. -/
def selected (bundle : Bundle) : Option Int32 → Option ℕ
  | none => (bundle.place Block.payloadType Body.payload?).map Prod.fst
  | some blockOffset =>
      if 0 ≤ blockOffset ∧ blockOffset.toInt < bundle.blocks.length then
        some blockOffset.toInt.toNat
      else none

/-- **What is asked of the commands**: the answer is about the data of the selected block, this is
edited, and everything else stays as it was. A command that selects no block is refused, as is one
without its word. -/
def WorksOn (bundle : Bundle) (blockOffset : Option Int32) (command : Option PayloadCommand) :
    Prop :=
  ∃ reply bundle', payload bundle blockOffset command = .ok (reply, bundle') ∧
    bundle'.toPrimaryBlock = bundle.toPrimaryBlock ∧
    match selected bundle blockOffset, command with
    | some index, some command =>
        (∀ j ≠ index, bundle'.blocks[j]? = bundle.blocks[j]?) ∧
        ∀ c ∈ bundle.blocks[index]?, reply = command.reply c.body.serialize ∧
          ∃ c' ∈ bundle'.blocks[index]?, c'.body.serialize = command.edit c.body.serialize
    | _, _ => reply = .badRequest ∧ bundle'.blocks = bundle.blocks

/-! ### For which blocks and numbers they do it -/

/-- The command `get` on one block transmits what is requested of another one: the offset is in the
data or the data is empty, a length is positive, and the numbers are those of an `int`. -/
def Transmits (parameters : Option (Int32 × Option Int32)) (data other : Bytes) : Prop :=
  let offset := payloadOffset (parameters.map Prod.fst)
  let rest := data.length - offset
  (data = [] ∨ offset < data.length) ∧
    match parameters.bind Prod.snd with
    | some length =>
        if length ≤ 0 then data = []
        else length.toInt + offset < 2 ^ 31 ∧
          (data.drop offset).take length.toInt.toNat = (other.drop offset).take length.toInt.toNat
    | none =>
        if rest < 2 ^ 31 then data.drop offset = other.drop offset
        else if (rest : ℤ).bmod (2 ^ 32) ≤ 0 then offset = 0 ∧ data = other
        else (data.drop offset).take (rest % 2 ^ 32) = other.drop offset

/-- The answer of the command on one block is what is asked about another one. -/
def PayloadCommand.Answers (data other : Bytes) : PayloadCommand → Prop
  | .get parameters => Transmits parameters data other
  | .length => data.length = other.length
  | _ => True

/-- The assignment of another block and the command leave the payload block as it was. -/
structure Spares (b c : Block) (data : Bytes) (command : PayloadCommand) : Prop where
  blocktype : c.blocktype = b.blocktype
  procflags : (if command.writes then
    FlagWord.assign c.procflags Block.forwardedWithoutProcessed false else c.procflags) =
      b.procflags
  eids : c.eids = b.eids
  data : command.edit data = data

/-- **The condition on the bundle and the command**: the selected block is the payload block, and
the numbers of the command fit its data; or another block is selected of which the payload block
cannot be told apart, and nothing is to be edited. -/
def Fits (bundle : Bundle) (blockOffset : Option Int32) (command : Option PayloadCommand) : Prop :=
  match selected bundle blockOffset, command with
  | some index, some command =>
      ∃ p data, bundle.place Block.payloadType Body.payload? = some (p, data) ∧
        ∀ b ∈ bundle.blocks[p]?, ∀ c ∈ bundle.blocks[index]?,
          command.Answers data c.body.serialize ∧
          (index ≠ p → Spares b c data command ∧
            command.edit c.body.serialize = c.body.serialize)
  | _, _ => True

/-! ### The operations on the data -/

theorem write_create (data : Bytes) : BlobStream.create.write data = ⟨data, 0, data.length⟩ := by
  simp [BlobStream.write, BlobStream.create]

theorem drop_append_length (data input : Bytes) :
    data.drop (data.length + input.length) = [] :=
  List.drop_eq_nil_of_le (Nat.le_add_right _ _)

/-- **Data is overwritten from the offset on**, or behind its end. -/
theorem put_eq (data : Bytes) (offset : Option Int32) (input : Bytes) :
    put data offset input = overwrite (payloadOffset offset) input data := by
  rw [put, write_create]
  split_ifs with h
  · simp [BlobStream.seekp, BlobStream.write, BlobStream.copied, overwrite]
  · have htake : data.take (payloadOffset offset) = data :=
      List.take_of_length_le (Nat.not_lt.1 h)
    have hdrop : data.drop (payloadOffset offset + input.length) = [] :=
      List.drop_eq_nil_of_le (by omega)
    simp [BlobStream.write, BlobStream.copied, overwrite, htake, hdrop, drop_append_length]

theorem append_eq (data input : Bytes) : append data input = data ++ input := by
  rw [append, write_create]
  simp [BlobStream.write, BlobStream.copied, drop_append_length]

theorem payloadOffset_lt (parameter : Option Int32) : payloadOffset parameter < 2 ^ 31 := by
  rw [payloadOffset]
  have h := (parameter.getD 0).toInt_lt
  omega

/-! ### The range of `get` -/

/-- The difference that is clipped to, where it is an `int`. -/
theorem bmod_sub {size offset : ℕ} (hoffset : offset < 2 ^ 31) (hrest : size - offset < 2 ^ 31) :
    ((size : ℤ) - offset).bmod (2 ^ 32) = (size : ℤ) - offset := by
  rw [Int.bmod_eq_of_le] <;> push_cast <;> omega

/-- The length that is copied up to the end, for an offset behind the data. -/
theorem serializedLength_behind {size offset : ℕ} (hoffset : offset < 2 ^ 31)
    (h : size ≤ offset) : serializedLength size (((size : ℤ) - offset).bmod (2 ^ 32)) = size := by
  rw [bmod_sub hoffset (by omega), serializedLength, if_neg (by omega)]

/-- The length that is copied up to the end, where it is an `int`. -/
theorem serializedLength_rest {size offset : ℕ} (hoffset : offset < 2 ^ 31) (h : offset < size)
    (hrest : size - offset < 2 ^ 31) :
    serializedLength size (((size : ℤ) - offset).bmod (2 ^ 32)) = size - offset := by
  rw [bmod_sub hoffset hrest, serializedLength]
  split_ifs <;> omega

/-- The length that is copied up to the end, where it is greater than every `int`. -/
theorem serializedLength_large {size offset : ℕ} (h : 2 ^ 31 ≤ size - offset) :
    serializedLength size (((size : ℤ) - offset).bmod (2 ^ 32)) =
      if (((size - offset : ℕ) : ℤ)).bmod (2 ^ 32) ≤ 0 then size
      else (size - offset) % 2 ^ 32 := by
  have hsub : (size : ℤ) - offset = ((size - offset : ℕ) : ℤ) := by omega
  have hmod := Int.bmod_def ((size - offset : ℕ) : ℤ) (2 ^ 32)
  rw [hsub, serializedLength]
  generalize (((size - offset : ℕ) : ℤ)).bmod (2 ^ 32) = t at *
  push_cast at hmod
  split_ifs at * <;> omega

/-- The reply to `get` for a limit. -/
def transmit (data : Bytes) (offset : ℕ) (limit : ℤ) : Reply :=
  let stream := (BlobStream.create.write data).ignore offset
  let len := serializedLength data.length limit
  if (stream.copied len).length < len then .getFailed len (stream.copied len)
  else .get len (stream.copied len)

theorem copied_ignore (data : Bytes) (offset len : ℕ) :
    ((BlobStream.create.write data).ignore offset).copied len =
      (data.drop offset).take len := by
  rw [write_create, BlobStream.ignore, BlobStream.copied, Nat.zero_add]
  congr 1
  rcases Nat.le_total offset data.length with h | h
  · rw [min_eq_left h]
  · rw [min_eq_right h, List.drop_length, List.drop_eq_nil_of_le h]

/-- **Bytes are transmitted** if there are as many as announced. -/
theorem transmit_eq_iff {data bytes : Bytes} {offset : ℕ} {limit : ℤ} :
    transmit data offset limit = .get bytes.length bytes ↔
      serializedLength data.length limit ≤ data.length - offset ∧
        (data.drop offset).take (serializedLength data.length limit) = bytes := by
  simp only [transmit, copied_ignore]
  generalize serializedLength data.length limit = len
  have hlen : ((data.drop offset).take len).length = min len (data.length - offset) := by
    rw [List.length_take, List.length_drop]
  split_ifs with h
  · exact iff_of_false nofun fun ⟨hle, _⟩ => by omega
  · rw [Reply.get.injEq]
    constructor
    · rintro ⟨-, hbytes⟩
      exact ⟨by omega, hbytes⟩
    · rintro ⟨hle, rfl⟩
      exact ⟨by omega, rfl⟩

/-- What is transmitted up to the end is what another block has there. -/
theorem transmit_rest_iff {data bytes : Bytes} {offset : ℕ} (hoffset : offset < 2 ^ 31) :
    transmit data offset (((data.length : ℤ) - offset).bmod (2 ^ 32)) = .get bytes.length bytes ↔
      (data = [] ∨ offset < data.length) ∧
        if data.length - offset < 2 ^ 31 then data.drop offset = bytes
        else if (((data.length - offset : ℕ) : ℤ)).bmod (2 ^ 32) ≤ 0 then offset = 0 ∧ data = bytes
        else (data.drop offset).take ((data.length - offset) % 2 ^ 32) = bytes := by
  rw [transmit_eq_iff]
  rcases Nat.lt_or_ge offset data.length with h | h
  · rw [or_iff_right_of_imp fun _ => h, and_iff_right h]
    split_ifs with hrest hmod
    · rw [serializedLength_rest hoffset h hrest, and_iff_right le_rfl,
        List.take_of_length_le (by rw [List.length_drop])]
    · rw [serializedLength_large (Nat.not_lt.1 hrest), if_pos hmod]
      constructor
      · rintro ⟨hle, hbytes⟩
        obtain rfl : offset = 0 := by omega
        rw [List.drop_zero, List.take_length] at hbytes
        exact ⟨rfl, hbytes⟩
      · rintro ⟨rfl, rfl⟩
        exact ⟨le_rfl, by rw [List.drop_zero, List.take_length]⟩
    · rw [serializedLength_large (Nat.not_lt.1 hrest), if_neg hmod]
      exact and_iff_right (Nat.mod_le _ _)
  · rw [serializedLength_behind hoffset h, List.drop_eq_nil_of_le h,
      if_pos (by omega), List.take_nil]
    constructor
    · rintro ⟨hle, hbytes⟩
      exact ⟨.inl (List.eq_nil_of_length_eq_zero (by omega)), hbytes⟩
    · rintro ⟨hempty, hbytes⟩
      rcases hempty with rfl | hlt
      · exact ⟨Nat.zero_le _, hbytes⟩
      · omega

/-- Nothing is transmitted up to the end exactly if there is nothing. -/
theorem transmit_rest_nil_iff {data : Bytes} {offset : ℕ} (hoffset : offset < 2 ^ 31) :
    transmit data offset (((data.length : ℤ) - offset).bmod (2 ^ 32)) =
        .get ([] : Bytes).length [] ↔
      (data = [] ∨ offset < data.length) ∧ data = [] := by
  rw [transmit_rest_iff hoffset]
  refine and_congr_right fun h => ?_
  rcases h with rfl | h
  · simp
  · have hne : data ≠ [] := by
      rintro rfl
      exact absurd h (Nat.not_lt_zero _)
    have hmod := Int.bmod_def ((data.length - offset : ℕ) : ℤ) (2 ^ 32)
    push_cast at hmod
    rw [iff_false_right hne]
    split_ifs with hrest hle
    · rw [List.drop_eq_nil_iff]
      omega
    · exact fun h => hne h.2
    · rw [List.take_eq_nil_iff, List.drop_eq_nil_iff]
      push_cast at hle
      omega

/-- **The command `get` transmits what is requested of another block** in the range that the numbers
describe. -/
theorem get_eq_iff {data other : Bytes} {parameters : Option (Int32 × Option Int32)} :
    get data parameters =
        .ok (.get (requested parameters other).length (requested parameters other)) ↔
      Transmits parameters data other := by
  have hoffset := payloadOffset_lt (parameters.map Prod.fst)
  have hget (limit : Except Exn ℤ)
      (hlimit : getLength data.length (payloadOffset (parameters.map Prod.fst))
        ((parameters.bind Prod.snd).getD 0) = limit) :
      get data parameters =
        limit.map (transmit data (payloadOffset (parameters.map Prod.fst))) := by
    rw [get, hlimit]
    cases limit with
    | error e => rfl
    | ok limit =>
        simp only [Except.map, transmit]
        change (if _ then _ else _ : Except Exn Reply) = _
        split_ifs <;> rfl
  rw [Transmits, requested]
  generalize payloadOffset (parameters.map Prod.fst) = offset at *
  cases hlength : parameters.bind Prod.snd with
  | none =>
      rw [hlength] at hget
      rw [hget (.ok (((data.length : ℤ) - offset).bmod (2 ^ 32))) rfl, Except.map,
        Except.ok.injEq, transmit_rest_iff hoffset]
      have hwhole : offset = 0 ∧ data = other.drop offset ↔ offset = 0 ∧ data = other :=
        and_congr_right fun h => by rw [h, List.drop_zero]
      simp only [Option.map_none, clip, hwhole]
  | some length =>
      have hclip : clip offset ((some length).map fun length => length.toInt.toNat) other =
          (other.drop offset).take length.toInt.toNat := rfl
      rw [hlength, Option.getD_some] at hget
      rw [hclip]
      have hsign : length ≤ 0 ↔ length.toInt ≤ 0 := by
        rw [Int32.le_iff_toInt_le, Int32.toInt_zero]
      by_cases hle : length ≤ 0
      · have hzero : length.toInt.toNat = 0 := Int.toNat_of_nonpos (hsign.1 hle)
        have hlimit : getLength data.length offset length =
            .ok (((data.length : ℤ) - offset).bmod (2 ^ 32)) := by
          rw [getLength, if_pos hle]
        simp only [if_pos hle, hzero, List.take_zero]
        rw [hget _ hlimit, Except.map, Except.ok.injEq, transmit_rest_nil_iff hoffset]
      · simp only [if_neg hle]
        have hpos : 0 < length.toInt := not_le.1 (mt hsign.2 hle)
        by_cases hover : 2 ^ 31 ≤ length.toInt + offset
        · have hlimit : getLength data.length offset length =
              .error (.undefined "the overflow of an integer") := by
            rw [getLength, if_neg hle, if_pos hover]
          rw [hget _ hlimit]
          exact iff_of_false (by rintro ⟨⟩) fun h => absurd h.2.1 (not_lt.2 hover)
        · rw [and_iff_right (not_le.1 hover)]
          by_cases hend : length.toInt + offset > data.length
          · have hlimit : getLength data.length offset length =
                .ok (((data.length : ℤ) - offset).bmod (2 ^ 32)) := by
              rw [getLength, if_neg hle, if_neg hover, if_pos hend]
            have htake : (data.drop offset).take length.toInt.toNat = data.drop offset :=
              List.take_of_length_le (by rw [List.length_drop]; omega)
            rw [hget _ hlimit, Except.map, Except.ok.injEq, transmit_rest_iff hoffset,
              if_pos (by omega), htake]
          · have hlimit : getLength data.length offset length = .ok length.toInt := by
              rw [getLength, if_neg hle, if_neg hover, if_neg hend]
            have hlen : serializedLength data.length length.toInt = length.toInt.toNat := by
              rw [serializedLength]
              split_ifs <;> omega
            rw [hget _ hlimit, Except.map, Except.ok.injEq, transmit_eq_iff, hlen,
              and_iff_right (show data = [] ∨ offset < data.length from .inr (by omega)),
              and_iff_right (by omega)]

/-! ### The command on a bundle -/

/-- The answer of a command on the data of the payload block. -/
def answer (data : Bytes) : PayloadCommand → Except Exn Reply
  | .get parameters => get data parameters
  | command => .ok (command.reply data)

/-- The payload block behind the command. -/
def PayloadCommand.after (data : Bytes) (command : PayloadCommand) (b : Block) : Block :=
  if command.writes then deserialize (command.edit data) b else b

theorem execute_eq (b : Block) (data : Bytes) (command : PayloadCommand) :
    execute b data command = (answer data command).map fun reply =>
      (reply, command.after data b) := by
  cases command with
  | get parameters =>
      rw [execute, answer]
      cases get data parameters <;> rfl
  | put offset input =>
      cases input with
      | error e => rfl
      | ok input =>
          rw [execute, put_eq]
          rfl
  | append input =>
      cases input with
      | error e => rfl
      | ok input =>
          rw [execute, append_eq]
          rfl
  | clear => rfl
  | length => rfl

/-- **The answer on one block is right for another one** exactly if the command says so. -/
theorem answer_eq_iff {data other : Bytes} {command : PayloadCommand} :
    answer data command = .ok (command.reply other) ↔ command.Answers data other := by
  cases command with
  | get parameters => exact get_eq_iff
  | put offset input => cases input <;> exact iff_of_true rfl trivial
  | append input => cases input <;> exact iff_of_true rfl trivial
  | clear => exact iff_of_true rfl trivial
  | length =>
      change Except.ok (Reply.length data.length) = .ok (.length other.length) ↔ _
      rw [Except.ok.injEq, Reply.length.injEq]
      rfl

/-- What does not read data into the block does not edit it. -/
theorem edit_of_not_writes {command : PayloadCommand} (h : command.writes = false)
    (data : Bytes) : command.edit data = data := by
  cases command with
  | get parameters => rfl
  | put offset input =>
      cases input with
      | error e => rfl
      | ok input => cases h
  | append input =>
      cases input with
      | error e => rfl
      | ok input => cases h
  | clear => cases h
  | length => rfl

/-- The payload block is spared exactly if it is the same behind the command. -/
theorem spares_iff {b c : Block} {data : Bytes} (hb : b.body = .payload data)
    {command : PayloadCommand} :
    Spares b c data command ↔ command.after data (assign b c) = b := by
  rw [PayloadCommand.after]
  cases hwrites : command.writes with
  | false =>
      have hflags : (if command.writes then
          FlagWord.assign c.procflags Block.forwardedWithoutProcessed false else c.procflags) =
          c.procflags := by rw [hwrites]; rfl
      constructor
      · intro h
        exact Block.ext h.blocktype (hflags.symm.trans h.procflags) h.eids rfl
      · intro h
        change assign b c = b at h
        have hblocktype : (assign b c).blocktype = b.blocktype := congrArg Block.blocktype h
        have hprocflags : (assign b c).procflags = b.procflags := congrArg Block.procflags h
        have heids : (assign b c).eids = b.eids := congrArg Block.eids h
        exact ⟨hblocktype, hflags.trans hprocflags, heids, edit_of_not_writes hwrites data⟩
  | true =>
      have hflags : (if command.writes then
          FlagWord.assign c.procflags Block.forwardedWithoutProcessed false else c.procflags) =
          FlagWord.assign c.procflags Block.forwardedWithoutProcessed false := by rw [hwrites]; rfl
      constructor
      · intro h
        exact Block.ext h.blocktype (hflags.symm.trans h.procflags) h.eids
          ((congrArg Body.payload h.data).trans hb.symm)
      · intro h
        change deserialize (command.edit data) (assign b c) = b at h
        have hblocktype : (deserialize (command.edit data) (assign b c)).blocktype =
          b.blocktype := congrArg Block.blocktype h
        have heids : (deserialize (command.edit data) (assign b c)).eids = b.eids :=
          congrArg Block.eids h
        exact ⟨hblocktype, hflags.trans (congrArg Block.procflags h), heids,
          Body.payload.inj ((congrArg Block.body h).trans hb)⟩

/-- The data of the payload block behind the command. -/
theorem serialize_after {b : Block} {data : Bytes} (hb : b.body = .payload data)
    (command : PayloadCommand) :
    (command.after data b).body.serialize = command.edit data := by
  rw [PayloadCommand.after]
  split_ifs with hwrites
  · rfl
  · rw [hb, edit_of_not_writes (Bool.eq_false_iff.2 hwrites)]
    rfl

/-- A command that selects a block works on the payload block behind the assignment. -/
theorem payload_of_selected {bundle : Bundle} {blockOffset : Option Int32} {index p : ℕ}
    {data : Bytes} {b c : Block} {command : PayloadCommand}
    (hplace : bundle.place Block.payloadType Body.payload? = some (p, data))
    (hselected : selected bundle blockOffset = some index) (hb : bundle.blocks[p]? = some b)
    (hc : bundle.blocks[index]? = some c) :
    payload bundle blockOffset (some command) = (answer data command).map fun reply =>
      (reply, { bundle with blocks := bundle.blocks.set p (command.after data (assign b c)) }) := by
  have hrun (b : Block) : (do
      let (reply, b) ← execute b data command
      pure (reply, { bundle with blocks := bundle.blocks.set p b }) :
        Except Exn (Reply × Bundle)) = (answer data command).map fun reply =>
      (reply, { bundle with blocks := bundle.blocks.set p (command.after data b) }) := by
    rw [execute_eq]
    cases answer data command <;> rfl
  have hgetb : bundle.blocks.getD p Block.newPayload = b := by
    rw [List.getD_eq_getElem?_getD, hb, Option.getD_some]
  rw [payload.eq_def, hplace]
  cases blockOffset with
  | none =>
      rw [selected, hplace] at hselected
      obtain rfl : p = index := Option.some.inj hselected
      obtain rfl : b = c := Option.some.inj (hb.symm.trans hc)
      simp only [hgetb]
      exact hrun b
  | some blockOffset =>
      rw [selected] at hselected
      split_ifs at hselected with hin
      have hout : ¬ (blockOffset < 0 ∨ (bundle.blocks.length : ℤ) ≤ blockOffset.toInt) := by
        rintro (h | h)
        · exact Int32.not_lt.2 hin.1 h
        · exact absurd hin.2 (not_lt.2 h)
      have hgetc : bundle.blocks.getD blockOffset.toInt.toNat Block.newPayload = c := by
        rw [Option.some.inj hselected, List.getD_eq_getElem?_getD, hc, Option.getD_some]
      simp only [if_neg hout, hgetb, hgetc]
      exact hrun (assign b c)

/-- A command that selects no block, or has no word, is refused. -/
theorem payload_of_none {bundle : Bundle} {blockOffset : Option Int32}
    {command : Option PayloadCommand}
    (h : bundle.place Block.payloadType Body.payload? = none ∨
      selected bundle blockOffset = none ∨ command = none) :
    payload bundle blockOffset command = .ok (.badRequest, bundle) := by
  rw [payload.eq_def]
  cases hplace : bundle.place Block.payloadType Body.payload? with
  | none => rfl
  | some found =>
      cases command with
      | none => rfl
      | some command =>
          rw [hplace] at h
          have hnone : selected bundle blockOffset = none := by simpa using h
          cases blockOffset with
          | none =>
              rw [selected, hplace] at hnone
              cases hnone
          | some blockOffset =>
              rw [selected] at hnone
              split_ifs at hnone with hin
              have hout : blockOffset < 0 ∨ (bundle.blocks.length : ℤ) ≤ blockOffset.toInt := by
                by_contra hnot
                push Not at hnot
                exact hin ⟨Int32.not_lt.1 hnot.1, hnot.2⟩
              simp only [if_pos hout]

/-- A selected block is one of the bundle. -/
theorem selected_lt {bundle : Bundle} {blockOffset : Option Int32} {index : ℕ}
    (h : selected bundle blockOffset = some index) : index < bundle.blocks.length := by
  cases blockOffset with
  | none =>
      obtain ⟨⟨p, data⟩, hplace, rfl⟩ := Option.map_eq_some_iff.1 h
      obtain ⟨xs, a, ys, hblocks, rfl, -⟩ := Bundle.place_eq_some_iff.1 hplace
      rw [hblocks, List.length_append, List.length_cons]
      exact Nat.lt_add_of_pos_right (Nat.succ_pos _)
  | some blockOffset =>
      rw [selected] at h
      split_ifs at h with hin
      have hnonneg := Int32.le_iff_toInt_le.1 hin.1
      rw [Int32.toInt_zero] at hnonneg
      have heq := Option.some.inj h
      omega

/-- The commands on a bundle with a payload block, for a block that is selected. -/
theorem worksOn_selected_iff {bundle : Bundle} {blockOffset : Option Int32} {index p : ℕ}
    {data : Bytes} {b c : Block} {command : PayloadCommand}
    (hplace : bundle.place Block.payloadType Body.payload? = some (p, data))
    (hselected : selected bundle blockOffset = some index) (hb : bundle.blocks[p]? = some b)
    (hc : bundle.blocks[index]? = some c) (hbody : b.body = .payload data) :
    WorksOn bundle blockOffset (some command) ↔ Fits bundle blockOffset (some command) := by
  rw [WorksOn, Fits.eq_def, hselected, payload_of_selected hplace hselected hb hc]
  have hp : p < bundle.blocks.length := (List.getElem?_eq_some_iff.1 hb).1
  constructor
  · rintro ⟨reply, bundle', heq, -, hothers, hreply⟩
    cases hanswer : answer data command with
    | error e =>
        rw [hanswer] at heq
        cases heq
    | ok r =>
        rw [hanswer, Except.map, Except.ok.injEq, Prod.mk.injEq] at heq
        obtain ⟨rfl, rfl⟩ := heq
        obtain ⟨hright, c', hc', hdata⟩ := hreply c hc
        refine ⟨p, data, hplace, fun b' hb' c₁ hc₁ => ?_⟩
        obtain rfl : b = b' := Option.some.inj (hb.symm.trans hb')
        obtain rfl : c = c₁ := Option.some.inj (hc.symm.trans hc₁)
        refine ⟨answer_eq_iff.1 (hanswer.trans (congrArg Except.ok hright)), fun hne => ⟨?_, ?_⟩⟩
        · have hsame := hothers p hne.symm
          rw [List.getElem?_set_self hp, hb] at hsame
          exact (spares_iff hbody).2 (Option.some.inj hsame)
        · rw [Option.mem_def, List.getElem?_set_ne hne.symm, hc] at hc'
          rw [← Option.some.inj hc'] at hdata
          exact hdata.symm
  · rintro ⟨p', data', hplace', hall⟩
    rw [hplace, Option.some.injEq, Prod.mk.injEq] at hplace'
    obtain ⟨rfl, rfl⟩ := hplace'
    obtain ⟨hanswers, hspares⟩ := hall b hb c hc
    refine ⟨command.reply c.body.serialize,
      { bundle with blocks := bundle.blocks.set p (command.after data (assign b c)) },
      by rw [answer_eq_iff.2 hanswers]; rfl, rfl, fun j hj => ?_, fun c' hc' => ?_⟩
    · change (bundle.blocks.set p (command.after data (assign b c)))[j]? = bundle.blocks[j]?
      by_cases hjp : p = j
      · subst hjp
        rw [List.getElem?_set_self hp, hb, (spares_iff hbody).1 (hspares hj.symm).1]
      · exact List.getElem?_set_ne hjp
    · obtain rfl : c = c' := Option.some.inj (hc.symm.trans hc')
      refine ⟨rfl, ?_⟩
      by_cases hindex : index = p
      · subst hindex
        obtain rfl : b = c := Option.some.inj (hb.symm.trans hc)
        refine ⟨_, List.getElem?_set_self hp, ?_⟩
        rw [show assign b b = b from rfl, serialize_after hbody, hbody]
        rfl
      · refine ⟨c, ?_, (hspares hindex).2.symm⟩
        rw [Option.mem_def, List.getElem?_set_ne (Ne.symm hindex), hc]

/-- Without a payload block every command is refused, also one that selects a block. -/
theorem not_worksOn_of_place {bundle : Bundle} {blockOffset : Option Int32} {index : ℕ}
    {command : PayloadCommand} (hplace : bundle.place Block.payloadType Body.payload? = none)
    (hselected : selected bundle blockOffset = some index) :
    ¬ WorksOn bundle blockOffset (some command) := by
  rw [WorksOn, hselected]
  rintro ⟨reply, bundle', heq, -, -, hreply⟩
  rw [payload_of_none (.inl hplace), Except.ok.injEq, Prod.mk.injEq] at heq
  have hbad := heq.1.trans (hreply _ (List.getElem?_eq_getElem (selected_lt hselected))).1
  cases command with
  | put offset input => cases input <;> cases hbad
  | append input => cases input <;> cases hbad
  | _ => cases hbad

/-- **The payload commands work on the selected block exactly if** the bundle has a payload block,
the selected block is this one or cannot be told apart from it, and the numbers fit the data. -/
theorem worksOn_iff (bundle : Bundle) (blockOffset : Option Int32)
    (command : Option PayloadCommand) :
    WorksOn bundle blockOffset command ↔ Fits bundle blockOffset command := by
  cases hselected : selected bundle blockOffset with
  | none =>
      rw [WorksOn, Fits.eq_def, hselected]
      exact iff_of_true ⟨_, _, payload_of_none (.inr (.inl hselected)), rfl, rfl, rfl⟩ trivial
  | some index =>
      cases command with
      | none =>
          rw [WorksOn, Fits.eq_def, hselected]
          exact iff_of_true ⟨_, _, payload_of_none (.inr (.inr rfl)), rfl, rfl, rfl⟩ trivial
      | some command =>
          rcases hplace : bundle.place Block.payloadType Body.payload? with _ | ⟨p, data⟩
          · refine iff_of_false (not_worksOn_of_place hplace hselected) ?_
            rw [Fits.eq_def, hselected]
            rintro ⟨p, data, hsome, -⟩
            cases hplace.symm.trans hsome
          · have hc := List.getElem?_eq_getElem (selected_lt hselected)
            obtain ⟨xs, b, ys, hblocks, rfl, -, -, hcast⟩ := Bundle.place_eq_some_iff.1 hplace
            have hb : bundle.blocks[xs.length]? = some b := by
              rw [hblocks, List.getElem?_append_right le_rfl, Nat.sub_self,
                List.getElem?_cons_zero]
            exact worksOn_selected_iff hplace hselected hb hc (Body.payload?_eq_some_iff.1 hcast)

/-- A new bundle with one byte of payload and a hop limit behind it. -/
def sampleRegister : Bundle :=
  { PrimaryBlock.create 7 1 with
    blocks := [⟨Block.payloadType, 0, [], .payload [0x61]⟩, Block.newScopeControlHopLimit] }

/-- **The payload block is emptied and takes the type of the block that was selected**; and `get`
behind the end announces the whole payload, of which nothing follows. -/
theorem not_worksOn :
    ¬ WorksOn sampleRegister (some 1) (some .clear) ∧
      ¬ WorksOn sampleRegister none (some (.get (some (1, none)))) := by
  constructor
  · rintro ⟨reply, bundle', heq, -, hothers, -⟩
    have hrun : payload sampleRegister (some 1) (some .clear) = .ok (.successful,
        { sampleRegister with
          blocks := [⟨199, Block.replicateInEveryFragment, [], .payload []⟩,
            Block.newScopeControlHopLimit] }) := by decide +kernel
    rw [hrun, Except.ok.injEq, Prod.mk.injEq] at heq
    have hfirst := hothers 0 Nat.zero_ne_one
    rw [← heq.2] at hfirst
    exact absurd hfirst (by decide)
  · rintro ⟨reply, bundle', heq, -, -, hreply⟩
    have hrun : payload sampleRegister none (some (.get (some (1, none)))) =
        .ok (.getFailed 1 [], sampleRegister) := by decide +kernel
    rw [hrun, Except.ok.injEq, Prod.mk.injEq] at heq
    exact absurd (heq.1.trans (hreply _ rfl).1) (by decide)

end ExtendedApiHandler

end IbrDtn
