import IbrDtn.Data.Sdnv

/-!
# Segments of the stream protocol

This file models `ibrdtn/streams/StreamDataSegment.cpp`: the messages that two connected stream
buffers exchange.  A message starts with one byte for its type and its flags.  The reason of a
shutdown is sent as a character, and a character is signed when it becomes a number again.

## Main definitions

* `SegmentType`, `ShutdownReason`, `StreamDataSegment` : the data types.
* `StreamDataSegment.write`, `StreamDataSegment.read` : the stream operators.
* `StreamDataSegment.Representable` : the messages that have a form on the wire.

## Main results

* `StreamDataSegment.reads_read` : these messages are read back, into any object.
* `StreamDataSegment.ensures_read` : whatever is read is one of them.
-/

namespace IbrDtn

/-- `StreamDataSegment::SegmentType`, with the codes that no message has. -/
inductive SegmentType where
  | dataSegment | ackSegment | refuseBundle | keepalive | shutdown
  | other (code : UInt8)
deriving DecidableEq, Repr

namespace SegmentType

/-- The number of a type in the header. -/
def code : SegmentType → UInt8
  | dataSegment => 1
  | ackSegment => 2
  | refuseBundle => 3
  | keepalive => 4
  | shutdown => 5
  | other code => code

/-- The type of a number in the header. -/
def ofCode (code : UInt8) : SegmentType :=
  if code = 1 then dataSegment
  else if code = 2 then ackSegment
  else if code = 3 then refuseBundle
  else if code = 4 then keepalive
  else if code = 5 then shutdown
  else other code

end SegmentType

/-- `StreamDataSegment::ShutdownReason`, an enumeration that is stored as an unsigned number, with
the numbers that stand for no reason. -/
inductive ShutdownReason where
  | none | idleTimeout | versionMissmatch | busy
  | other (number : UInt32)
deriving DecidableEq, Repr

namespace ShutdownReason

/-- The number that is stored for a reason. -/
def number : ShutdownReason → UInt32
  | none => 0xff
  | idleTimeout => 0x00
  | versionMissmatch => 0x01
  | busy => 0x02
  | other number => number

/-- The reason of a stored number. -/
def ofNumber (number : UInt32) : ShutdownReason :=
  if number = 0xff then none
  else if number = 0x00 then idleTimeout
  else if number = 0x01 then versionMissmatch
  else if number = 0x02 then busy
  else other number

/-- `(char)seg._reason`. -/
def toChar (reason : ShutdownReason) : UInt8 := reason.number.toUInt8

/-- `ShutdownReason(reason)`, of a signed character. -/
def ofChar (c : UInt8) : ShutdownReason :=
  ofNumber (if c.toNat < 0x80 then c.toUInt32 else c.toUInt32 ||| 0xffffff00)

theorem number_ofNumber (number : UInt32) : (ofNumber number).number = number := by
  rw [ofNumber]
  split_ifs with h₁ h₂ h₃ h₄
  · exact h₁.symm
  · exact h₂.symm
  · exact h₃.symm
  · exact h₄.symm
  · rfl

/-- A reason that a character denotes has this character. -/
theorem toChar_ofChar (c : UInt8) : (ofChar c).toChar = c := by
  have hmod : (c.toNat ||| 0xffffff00) % 2 ^ 8 = c.toNat := by
    rw [Nat.or_mod_two_pow, Nat.mod_eq_of_lt c.toNat_lt]
    exact Nat.or_zero _
  rw [toChar, ofChar, number_ofNumber, ← UInt8.toNat_inj]
  split_ifs
  · rw [UInt32.toNat_toUInt8, UInt8.toNat_toUInt32, Nat.mod_eq_of_lt c.toNat_lt]
  · rw [UInt32.toNat_toUInt8, UInt32.toNat_or, UInt8.toNat_toUInt32]
    exact hmod

end ShutdownReason

/-- `class StreamDataSegment`. -/
structure StreamDataSegment where
  value : UInt64
  type : SegmentType
  reason : ShutdownReason
  flags : UInt8
deriving DecidableEq, Repr

namespace StreamDataSegment

/-- The bits of `StreamDataSegment::SegmentMark`. -/
def markBegin : UInt8 := 0x02
def markEnd : UInt8 := 0x01

/-- `StreamDataSegment::StreamDataSegment(SegmentType, size_t)`. -/
def ofType (type : SegmentType) (size : UInt64) : StreamDataSegment :=
  ⟨size, type, .idleTimeout, 0⟩

/-- `StreamDataSegment::StreamDataSegment(ShutdownReason, size_t)`. -/
def ofReason (reason : ShutdownReason) (reconnect : UInt64) : StreamDataSegment :=
  ⟨reconnect, .shutdown, reason, 3⟩

/-- `seg._flags & MSG_MARK_BEGINN`. -/
def isBegin (seg : StreamDataSegment) : Bool := seg.flags &&& markBegin != 0

/-- `seg._flags & MSG_MARK_END`. -/
def isEnd (seg : StreamDataSegment) : Bool := seg.flags &&& markEnd != 0

/-- The flags of a data segment. -/
def marks (isBegin isEnd : Bool) : UInt8 :=
  (if isBegin then markBegin else 0) ||| (if isEnd then markEnd else 0)

/-- A data segment with its marks. -/
def data (size : UInt64) (isBegin isEnd : Bool) : StreamDataSegment :=
  { ofType .dataSegment size with flags := marks isBegin isEnd }

theorem marks_and_markBegin : ∀ s e : Bool, (marks s e &&& markBegin != 0) = s := by decide

theorem marks_and_markEnd : ∀ s e : Bool, (marks s e &&& markEnd != 0) = e := by decide

@[simp] theorem isBegin_data (size : UInt64) (s e : Bool) : (data size s e).isBegin = s :=
  marks_and_markBegin s e

@[simp] theorem isEnd_data (size : UInt64) (s e : Bool) : (data size s e).isEnd = e :=
  marks_and_markEnd s e

/-! ### The stream operators -/

/-- The header byte. -/
def header (seg : StreamDataSegment) : UInt8 := seg.flags + ((seg.type.code &&& 0x0f) <<< 4)

/-- What follows the header. -/
def writeBody (seg : StreamDataSegment) : Bytes :=
  match seg.type with
  | .dataSegment | .ackSegment => SDNV.write seg.value
  | .shutdown => seg.reason.toChar :: SDNV.write seg.value
  | .refuseBundle | .keepalive | .other _ => []

/-- `operator<<(std::ostream&, const StreamDataSegment&)`. -/
def write (seg : StreamDataSegment) : Bytes := seg.header :: seg.writeBody

/-- What follows the header, read into a segment whose type and flags were read. -/
def readBody (seg : StreamDataSegment) : Parser Exn StreamDataSegment :=
  match seg.type with
  | .dataSegment | .ackSegment => do
      let value ← SDNV.read
      pure { seg with value }
  | .shutdown => do
      let reason ← Parser.getByte none
      let value ← SDNV.read
      pure { seg with reason := ShutdownReason.ofChar reason, value }
  | .refuseBundle | .keepalive | .other _ => pure seg

/-- `operator>>(std::istream&, StreamDataSegment&)`, into `seg`. -/
def read (seg : StreamDataSegment) : Parser Exn StreamDataSegment := do
  let header ← Parser.getByte (some 0)
  readBody { seg with
    type := SegmentType.ofCode ((header &&& 0xf0) >>> 4)
    flags := header &&& 0x0f }

/-! ### Reading inverts writing -/

/-- The messages that have a form on the wire: the flags fit their half of the header, as the type
does, and a character denotes the reason of a shutdown. -/
structure Representable (seg : StreamDataSegment) : Prop where
  flags_lt : seg.flags.toNat < 16
  type_eq : SegmentType.ofCode (seg.type.code &&& 0x0f) = seg.type
  reason_eq : seg.type = .shutdown → ShutdownReason.ofChar seg.reason.toChar = seg.reason

/-- The type and the fields that it carries are those of `seg`. -/
structure Restores (seg seg' : StreamDataSegment) : Prop where
  type_eq : seg'.type = seg.type
  flags_eq : seg'.flags = seg.flags
  value_eq : seg.type = .dataSegment ∨ seg.type = .ackSegment ∨ seg.type = .shutdown →
    seg'.value = seg.value
  reason_eq : seg.type = .shutdown → seg'.reason = seg.reason

/-- The types of the protocol fit their half of the header. -/
theorem ofCode_code_and {type : SegmentType} (h : ∀ code, type ≠ .other code) :
    SegmentType.ofCode (type.code &&& 0x0f) = type := by
  cases type with
  | dataSegment | ackSegment | refuseBundle | keepalive | shutdown => decide
  | other code => exact absurd rfl (h code)

theorem ofCode_code_and_ofCode : ∀ code : Fin 16,
    SegmentType.ofCode ((SegmentType.ofCode (UInt8.ofNat code)).code &&& 0x0f) =
      SegmentType.ofCode (UInt8.ofNat code) := by
  decide

theorem header_halves : ∀ flags code : Fin 16,
    (UInt8.ofNat flags + (UInt8.ofNat code <<< 4)) &&& 0x0f = UInt8.ofNat flags ∧
      ((UInt8.ofNat flags + (UInt8.ofNat code <<< 4)) &&& 0xf0) >>> 4 = UInt8.ofNat code := by
  decide

theorem and_lt (b : UInt8) : (b &&& 0x0f).toNat < 16 := by
  rw [UInt8.toNat_and]
  exact Nat.lt_succ_of_le Nat.and_le_right

theorem shiftRight_lt (b : UInt8) : ((b &&& 0xf0) >>> 4).toNat < 16 := by
  have hlt := (b &&& 0xf0).toNat_lt
  rw [UInt8.toNat_shiftRight, Nat.shiftRight_eq_div_pow]
  change (b &&& 0xf0).toNat / 2 ^ 4 < 16
  omega

/-- The halves of the header byte are the flags and the type. -/
theorem header_eq {seg : StreamDataSegment} (h : seg.Representable) :
    seg.header &&& 0x0f = seg.flags ∧
      SegmentType.ofCode ((seg.header &&& 0xf0) >>> 4) = seg.type := by
  obtain ⟨hflags, hcode⟩ := header_halves ⟨seg.flags.toNat, h.flags_lt⟩
    ⟨(seg.type.code &&& 0x0f).toNat, and_lt _⟩
  simp only [UInt8.ofNat_toNat] at hflags hcode
  exact ⟨hflags, by rw [header, hcode, h.type_eq]⟩

/-- **A message is read back**, whatever object it is read into. -/
theorem reads_read {seg : StreamDataSegment} (h : seg.Representable) (old : StreamDataSegment) :
    ∃ seg', (read old).Reads seg.write seg' ∧ seg.Restores seg' := by
  obtain ⟨hflags, htype⟩ := header_eq h
  have hread {seg' : StreamDataSegment}
      (hbody : (readBody { old with type := seg.type, flags := seg.flags }).Reads seg.writeBody
        seg') : (read old).Reads seg.write seg' := by
    refine (Parser.reads_getByte _ seg.header).bind_cons ?_
    rw [hflags, htype]
    exact hbody
  have hreason := h.reason_eq
  clear h hflags htype
  obtain ⟨value, type, reason, flags⟩ := seg
  cases type with
  | dataSegment =>
      exact ⟨_, hread (SDNV.reads_read value).bind_pure, rfl, rfl, fun _ => rfl,
        fun h => by simp at h⟩
  | ackSegment =>
      exact ⟨_, hread (SDNV.reads_read value).bind_pure, rfl, rfl, fun _ => rfl,
        fun h => by simp at h⟩
  | shutdown =>
      refine ⟨_, hread ((Parser.reads_getByte none reason.toChar).bind_cons
        (SDNV.reads_read value).bind_pure), rfl, rfl, fun _ => rfl, fun _ => hreason rfl⟩
  | refuseBundle =>
      exact ⟨_, hread (Parser.reads_pure _), rfl, rfl, fun h => by simp at h, fun h => by simp at h⟩
  | keepalive =>
      exact ⟨_, hread (Parser.reads_pure _), rfl, rfl, fun h => by simp at h, fun h => by simp at h⟩
  | other code =>
      exact ⟨_, hread (Parser.reads_pure _), rfl, rfl, fun h => by simp at h, fun h => by simp at h⟩

/-- What follows the header leaves type and flags alone, and a character is the reason. -/
theorem ensures_readBody (seg : StreamDataSegment) : (readBody seg).Ensures fun seg' =>
    seg'.type = seg.type ∧ seg'.flags = seg.flags ∧
      (seg.type = .shutdown → ∃ c, seg'.reason = ShutdownReason.ofChar c) := by
  obtain ⟨value, type, reason, flags⟩ := seg
  cases type with
  | dataSegment | ackSegment =>
      exact (Parser.ensures_true _).bind fun _ _ =>
        Parser.ensures_pure ⟨rfl, rfl, fun h => by simp at h⟩
  | shutdown =>
      exact (Parser.ensures_true _).bind fun c _ => (Parser.ensures_true _).bind fun _ _ =>
        Parser.ensures_pure ⟨rfl, rfl, fun _ => ⟨c, rfl⟩⟩
  | refuseBundle | keepalive | other code =>
      exact Parser.ensures_pure ⟨rfl, rfl, fun h => by simp at h⟩

/-- **Whatever is read has a form on the wire.** -/
theorem ensures_read (old : StreamDataSegment) : (read old).Ensures Representable := by
  refine (Parser.ensures_true _).bind fun b _ => ?_
  intro is seg' hrun
  obtain ⟨htype, hflags, hreason⟩ := ensures_readBody _ is seg' hrun
  refine ⟨?_, ?_, fun hshutdown => ?_⟩
  · rw [hflags]
    exact and_lt b
  · have hcode := ofCode_code_and_ofCode ⟨((b &&& 0xf0) >>> 4).toNat, shiftRight_lt b⟩
    rw [UInt8.ofNat_toNat] at hcode
    rw [htype]
    exact hcode
  · obtain ⟨c, hc⟩ := hreason (htype.symm.trans hshutdown)
    rw [hc, ShutdownReason.toChar_ofChar]

/-- Only what has a form on the wire is restored. -/
theorem Restores.representable {seg seg' : StreamDataSegment} (h : seg.Restores seg')
    (h' : seg'.Representable) : seg.Representable := by
  refine ⟨h.flags_eq ▸ h'.flags_lt, h.type_eq ▸ h'.type_eq, fun hshutdown => ?_⟩
  rw [← h.reason_eq hshutdown]
  exact h'.reason_eq (h.type_eq.trans hshutdown)

end StreamDataSegment

end IbrDtn
