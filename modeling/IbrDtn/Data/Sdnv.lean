import IbrDtn.Library.InStream

/-!
# Self-delimiting numeric values

This file models `ibrdtn/data/SDNV.cpp` and the exceptions of `ibrdtn/data/Exceptions.h`.
An SDNV holds a 64-bit value in groups of seven bits, most significant group first; the high
bit of every byte but the last is set.  The reader collects the bytes in a buffer of
`SDNV.maxLength` bytes before it decodes them.  It does not check that they fit, so a
longer run of continuation bytes writes beyond the buffer: the outcome `Exn.undefined`.

## Main definitions

* `Exn` : the exceptions that the data classes throw.
* `SDNV.encode`, `SDNV.decode` : the conversions between values and byte buffers.
* `SDNV.write`, `SDNV.read` : the stream operators.

## Main results

* `SDNV.decode_encode` : decoding inverts encoding.
* `SDNV.reads_read` : reading inverts writing, whatever follows in the stream.
* `SDNV.length_write` : the predicted length is the number of bytes written.
-/

namespace IbrDtn

/-- Byte strings: the contents of a `std::string` or of a stream. -/
abbrev Bytes := List UInt8

/-- The byte string of an ASCII text. -/
def ascii (text : List Char) : Bytes :=
  text.map fun c => UInt8.ofNat c.toNat

/-- The exceptions of `ibrdtn/data/Exceptions.h` and of the classes below them, and the runs
that the source leaves undefined or that never return. -/
inductive Exn where
  | exception (what : String)
  | ioException (what : String)
  | missingObject (what : String)
  | invalidData (what : String)
  | invalidProtocol (what : String)
  | serializationFailed (what : String)
  | rejected (what : String)
  | undefined (what : String)
  | diverges (what : String)
deriving DecidableEq, Repr

/-- `catch (const dtn::InvalidDataException&)` takes the exception. -/
def Exn.isInvalidData : Exn → Bool
  | .invalidData _ | .invalidProtocol _ | .serializationFailed _ | .rejected _ => true
  | _ => false

/-- `catch (const ibrcommon::Exception&)` takes the exception. -/
def Exn.isException : Exn → Bool
  | .undefined _ | .diverges _ => false
  | _ => true

/-- `try p catch (const C&) h` for the class `C` of the exceptions that satisfy `c`. -/
def catching {α : Type} (c : Exn → Bool) (p h : Parser Exn α) : Parser Exn α :=
  MonadExcept.tryCatch p fun e => if c e then h else throw e

theorem reads_catching {α : Type} {c : Exn → Bool} {p : Parser Exn α} {bs : Bytes} {a : α}
    (hp : p.Reads bs a) (h : Parser Exn α) : (catching c p h).Reads bs a :=
  hp.tryCatch _

theorem throws_catching {α : Type} {c : Exn → Bool} {p h : Parser Exn α} {bs cs : Bytes}
    {e : Exn} {a : α} (hp : p.Throws bs e) (hc : c e = true) (hh : h.Reads cs a) :
    (catching c p h).Reads (bs ++ cs) a := by
  refine hp.tryCatch ?_
  rw [if_pos hc]
  exact hh

namespace SDNV

/-- `SDNV::MAX_LENGTH`. -/
def maxLength : Nat := 10

/-! ### Encoding -/

/-- The number of seven-bit groups of a value: the first loop of `SDNV::encode`, which runs at
most `fuel` times. -/
def groupCount : Nat → UInt64 → Nat
  | 0, _ => 0
  | fuel + 1, val =>
      let tmp := val >>> 7
      if tmp != 0 then groupCount fuel tmp + 1 else 1

/-- The second loop of `SDNV::encode`: the groups of `val` are put in front of the bytes
`bp`, and every group after the first one gets the high bit. -/
def fillBackwards : Nat → UInt8 → UInt64 → Bytes → Bytes
  | 0, _, _, bp => bp
  | fuel + 1, highBit, val, bp =>
      let bp := (highBit ||| (val &&& 0x7f).toUInt8) :: bp
      let val := val >>> 7
      if val != 0 then fillBackwards fuel 0x80 val bp else bp

/-- `SDNV::encode(u_int64_t, u_char*, size_t)`: the bytes of the value, or `none` for the
result `-1` when the buffer of `len` bytes is too small. -/
def encode (val : UInt64) (len : Nat) : Option Bytes :=
  if len < groupCount maxLength val then none
  else some (fillBackwards maxLength 0 val [])

/-- `SDNV::encoding_len`: the length of the encoding in a buffer of 16 bytes. -/
def getLength (val : UInt64) : Nat :=
  match encode val 16 with
  | some bs => bs.length
  | none => 0

/-- `operator<<(std::ostream&, const SDNV&)`: a buffer of zeros of the predicted length, the
encoding in it, and the buffer written to the stream. -/
def write (val : UInt64) : Bytes :=
  (encode val (getLength val)).getD (List.replicate (getLength val) 0)

/-! ### Decoding -/

/-- The loop of `SDNV::decode`: shift in the groups until a byte without high bit. The result
is the value so far and the number of bytes used, or no number if the buffer is too short. -/
def decodeLoop : Bytes → UInt64 → Nat → UInt64 × Option Nat
  | [], val, _ => (val, none)
  | b :: bs, val, valLen =>
      let val := (val <<< 7) ||| (b &&& 0x7f).toUInt64
      if b &&& 0x80 = 0 then (val, some (valLen + 1)) else decodeLoop bs val (valLen + 1)

/-- `SDNV::decode(const u_char*, size_t, u_int64_t*)`: the value it stores, and the exception
for values beyond 64 bits. -/
def decode (bp : Bytes) : Except Exn UInt64 :=
  match decodeLoop bp 0 0 with
  | (val, none) => .ok val
  | (val, some valLen) =>
      if valLen > maxLength ∨ (valLen = maxLength ∧ bp.head? ≠ some 0x81) then
        .error (.invalidData "ERROR(SDNV): overflow value in sdnv")
      else .ok val

/-- The bytes up to the first one without high bit, read one by one into a buffer with `room`
bytes left. -/
def readBuffer : Nat → Parser Exn Bytes
  | 0 => throw (.undefined "write beyond the buffer of an SDNV")
  | room + 1 => do
      let b ← Parser.getByte none
      if b &&& 0x80 = 0 then pure [b]
      else do
        let bs ← readBuffer room
        pure (b :: bs)

/-- `operator>>(std::istream&, SDNV&)` into a variable that is dropped when it throws. -/
def read : Parser Exn UInt64 := do
  let sdnv ← readBuffer maxLength
  match decode sdnv with
  | .ok val => pure val
  | .error e => throw e

/-- `operator>>(std::istream&, SDNV&)` into a member. A value beyond 64 bits is stored modulo
`2 ^ 64` before the exception. -/
def load : Loader Exn UInt64 Unit := do
  let sdnv ← Loader.ofParser (readBuffer maxLength)
  Loader.update fun _ => (decodeLoop sdnv 0 0).1
  match decode sdnv with
  | .ok _ => pure ()
  | .error e => throw e

/-! ### The groups of a value -/

theorem toNat_shiftRight_seven (val : UInt64) : (val >>> 7).toNat = val.toNat / 128 := by
  rw [UInt64.toNat_shiftRight]
  exact Nat.shiftRight_eq_div_pow _ 7

theorem toNat_and_low (val : UInt64) : (val &&& 0x7f).toNat = val.toNat % 128 := by
  rw [UInt64.toNat_and]
  exact Nat.and_two_pow_sub_one_eq_mod _ 7

theorem shiftRight_ne_zero (val : UInt64) : val >>> 7 ≠ 0 ↔ 128 ≤ val.toNat := by
  rw [ne_eq, ← UInt64.toNat_inj, toNat_shiftRight_seven, UInt64.toNat_zero]
  omega

theorem toNat_low (val : UInt64) : (val &&& 0x7f).toUInt8.toNat = val.toNat % 128 := by
  rw [UInt64.toNat_toUInt8, toNat_and_low]
  omega

/-- The low bits of a byte written by `fillBackwards` are the group it holds. -/
theorem low_or {h : UInt8} (hh : h = 0 ∨ h = 0x80) (val : UInt64) :
    ((h ||| (val &&& 0x7f).toUInt8) &&& 0x7f).toUInt64 = val &&& 0x7f := by
  rw [← UInt64.toNat_inj, UInt8.toNat_toUInt64, UInt8.toNat_and, UInt8.toNat_or, toNat_low,
    toNat_and_low]
  change (h.toNat ||| val.toNat % 128) &&& (2 ^ 7 - 1) = _
  rw [Nat.and_two_pow_sub_one_eq_mod, Nat.or_mod_two_pow]
  have hzero : h.toNat % 2 ^ 7 = 0 := by
    rcases hh with rfl | rfl <;> rfl
  rw [hzero, Nat.zero_or]
  exact Nat.mod_mod _ _

theorem high_or_zero (val : UInt64) : (0 ||| (val &&& 0x7f).toUInt8) &&& 0x80 = 0 := by
  rw [← UInt8.toNat_inj, UInt8.toNat_and, UInt8.toNat_or, toNat_low]
  have h : ∀ n < 128, ((0 : UInt8).toNat ||| n) &&& (0x80 : UInt8).toNat = 0 := by decide
  exact h _ (Nat.mod_lt _ (by decide))

theorem high_or_high (val : UInt64) : (0x80 ||| (val &&& 0x7f).toUInt8) &&& 0x80 ≠ 0 := by
  rw [ne_eq, ← UInt8.toNat_inj, UInt8.toNat_and, UInt8.toNat_or, toNat_low]
  have h : ∀ n < 128, ((0x80 : UInt8).toNat ||| n) &&& (0x80 : UInt8).toNat ≠ 0 := by decide
  exact h _ (Nat.mod_lt _ (by decide))

/-- Shifting a group in is multiplication and addition modulo `2 ^ 64`. -/
theorem shiftLeft_or (val low : UInt64) (h : low.toNat < 128) :
    (val <<< 7) ||| low = val * 128 + low := by
  rw [← UInt64.toNat_inj, UInt64.toNat_or, UInt64.toNat_shiftLeft, UInt64.toNat_add,
    UInt64.toNat_mul]
  change (val.toNat <<< 7 % 2 ^ 64) ||| low.toNat = (val.toNat * 128 % 2 ^ 64 + low.toNat) % 2 ^ 64
  rw [Nat.shiftLeft_eq]
  have hmul : val.toNat * 2 ^ 7 % 2 ^ 64 = 2 ^ 7 * (val.toNat % 2 ^ 57) := by omega
  rw [hmul, ← Nat.two_pow_add_eq_or_of_lt h]
  omega

/-- A value is its last group and the groups before it. -/
theorem shiftRight_mul_add (val : UInt64) : (val >>> 7) * 128 + (val &&& 0x7f) = val := by
  rw [← UInt64.toNat_inj, UInt64.toNat_add, UInt64.toNat_mul, toNat_shiftRight_seven,
    toNat_and_low]
  have := val.toNat_lt
  change (val.toNat / 128 * 128 % 2 ^ 64 + val.toNat % 128) % 2 ^ 64 = val.toNat
  omega

/-- One step of the decoder on a byte that `fillBackwards` wrote. -/
theorem decodeLoop_cons {h : UInt8} (hh : h = 0 ∨ h = 0x80) (a v : UInt64) (bs : Bytes) (m : Nat) :
    decodeLoop ((h ||| (v &&& 0x7f).toUInt8) :: bs) a m =
      if h = 0 then (a * 128 + (v &&& 0x7f), some (m + 1))
      else decodeLoop bs (a * 128 + (v &&& 0x7f)) (m + 1) := by
  have hlow : (v &&& 0x7f).toNat < 128 := by
    rw [toNat_and_low]
    exact Nat.mod_lt _ (by decide)
  rw [decodeLoop, low_or hh, shiftLeft_or _ _ hlow]
  rcases hh with rfl | rfl
  · rw [if_pos (high_or_zero v), if_pos rfl]
  · rw [if_neg (high_or_high v), if_neg (by decide)]

theorem groupCount_succ_of_lt {val : UInt64} (fuel : Nat) (h : val.toNat < 128) :
    groupCount (fuel + 1) val = 1 := by
  have hz : ¬ val >>> 7 ≠ 0 := by
    rw [shiftRight_ne_zero]
    omega
  simp only [groupCount, bne_iff_ne]
  rw [if_neg hz]

theorem groupCount_succ_of_le {val : UInt64} (fuel : Nat) (h : 128 ≤ val.toNat) :
    groupCount (fuel + 1) val = groupCount fuel (val >>> 7) + 1 := by
  simp only [groupCount, bne_iff_ne]
  rw [if_pos ((shiftRight_ne_zero val).2 h)]

theorem fillBackwards_succ_of_lt {val : UInt64} (fuel : Nat) (hi : UInt8) (bp : Bytes)
    (h : val.toNat < 128) :
    fillBackwards (fuel + 1) hi val bp = (hi ||| (val &&& 0x7f).toUInt8) :: bp := by
  have hz : ¬ val >>> 7 ≠ 0 := by
    rw [shiftRight_ne_zero]
    omega
  simp only [fillBackwards, bne_iff_ne]
  rw [if_neg hz]

theorem fillBackwards_succ_of_le {val : UInt64} (fuel : Nat) (hi : UInt8) (bp : Bytes)
    (h : 128 ≤ val.toNat) :
    fillBackwards (fuel + 1) hi val bp =
      fillBackwards fuel 0x80 (val >>> 7) ((hi ||| (val &&& 0x7f).toUInt8) :: bp) := by
  simp only [fillBackwards, bne_iff_ne]
  rw [if_pos ((shiftRight_ne_zero val).2 h)]

theorem and_low_of_lt {val : UInt64} (h : val.toNat < 128) : val &&& 0x7f = val := by
  rw [← UInt64.toNat_inj, toNat_and_low]
  omega

theorem shiftRight_lt {val : UInt64} {fuel : Nat} (h : val.toNat < 128 ^ (fuel + 1)) :
    (val >>> 7).toNat < 128 ^ fuel := by
  rw [toNat_shiftRight_seven]
  rw [pow_succ] at h
  omega

/-- `fillBackwards` fills as many bytes as `groupCount` counts. -/
theorem length_fillBackwards (fuel : Nat) (hi : UInt8) (val : UInt64) (bp : Bytes) :
    (fillBackwards fuel hi val bp).length = groupCount fuel val + bp.length := by
  induction fuel generalizing hi val bp with
  | zero => simp [fillBackwards, groupCount]
  | succ fuel ih =>
      rcases Nat.lt_or_ge val.toNat 128 with h | h
      · rw [fillBackwards_succ_of_lt fuel hi bp h, groupCount_succ_of_lt fuel h,
          List.length_cons]
        omega
      · rw [fillBackwards_succ_of_le fuel hi bp h, groupCount_succ_of_le fuel h, ih,
          List.length_cons]
        omega

theorem groupCount_le (fuel : Nat) (val : UInt64) : groupCount fuel val ≤ fuel := by
  induction fuel generalizing val with
  | zero => exact le_rfl
  | succ fuel ih =>
      rcases Nat.lt_or_ge val.toNat 128 with h | h
      · rw [groupCount_succ_of_lt fuel h]
        omega
      · rw [groupCount_succ_of_le fuel h]
        exact Nat.succ_le_succ (ih _)

theorem groupCount_pos (fuel : Nat) (val : UInt64) : 0 < groupCount (fuel + 1) val := by
  rcases Nat.lt_or_ge val.toNat 128 with h | h
  · rw [groupCount_succ_of_lt fuel h]
    exact Nat.one_pos
  · rw [groupCount_succ_of_le fuel h]
    exact Nat.succ_pos _

/-- The most significant group that the second loop writes. -/
theorem head_fillBackwards {val : UInt64} {fuel : Nat} (hlo : 128 ^ fuel ≤ val.toNat)
    (hhi : val.toNat < 2 * 128 ^ fuel) (bp : Bytes) :
    (fillBackwards (fuel + 1) 0x80 val bp).head? = some 0x81 := by
  induction fuel generalizing val bp with
  | zero =>
      have hone : val = 1 := by
        rw [← UInt64.toNat_inj]
        change val.toNat = 1
        simp only [pow_zero] at hlo hhi
        omega
      subst hone
      rfl
  | succ fuel ih =>
      have hpow : 1 ≤ 128 ^ fuel := Nat.one_le_pow _ _ (by decide)
      rw [pow_succ] at hlo hhi
      rw [fillBackwards_succ_of_le _ _ _ (by omega)]
      refine ih ?_ ?_ _
      · rw [toNat_shiftRight_seven]
        omega
      · rw [toNat_shiftRight_seven]
        omega

theorem le_of_groupCount_eq {val : UInt64} {fuel : Nat}
    (h : groupCount (fuel + 1) val = fuel + 1) : fuel = 0 ∨ 128 ^ fuel ≤ val.toNat := by
  induction fuel generalizing val with
  | zero => exact Or.inl rfl
  | succ fuel ih =>
      refine Or.inr ?_
      rcases Nat.lt_or_ge val.toNat 128 with hlt | hge
      · rw [groupCount_succ_of_lt _ hlt] at h
        omega
      · rw [groupCount_succ_of_le _ hge] at h
        rcases ih (Nat.succ.inj h) with rfl | hle
        · simpa using hge
        · rw [toNat_shiftRight_seven] at hle
          rw [pow_succ]
          omega

/-! ### Decoding inverts encoding -/

/-- Decoding the groups in front of `bp` shifts the whole value in. -/
theorem decodeLoop_fillBackwards {fuel : Nat} {val : UInt64} (h : val.toNat < 128 ^ fuel)
    (bp : Bytes) (m : Nat) :
    decodeLoop (fillBackwards fuel 0x80 val bp) 0 m =
      decodeLoop bp val (m + groupCount fuel val) := by
  induction fuel generalizing val bp m with
  | zero =>
      have hz : val = 0 := by
        rw [← UInt64.toNat_inj]
        change val.toNat = 0
        simpa using h
      subst hz
      rfl
  | succ fuel ih =>
      rcases Nat.lt_or_ge val.toNat 128 with hlt | hge
      · rw [fillBackwards_succ_of_lt _ _ _ hlt, groupCount_succ_of_lt _ hlt,
          decodeLoop_cons (Or.inr rfl), if_neg (by decide), and_low_of_lt hlt,
          UInt64.zero_mul, UInt64.zero_add]
      · rw [fillBackwards_succ_of_le _ _ _ hge, groupCount_succ_of_le _ hge,
          ih (shiftRight_lt h), decodeLoop_cons (Or.inr rfl), if_neg (by decide),
          shiftRight_mul_add, Nat.add_assoc]

theorem toNat_lt_pow_maxLength (val : UInt64) : val.toNat < 128 ^ maxLength :=
  lt_trans val.toNat_lt (by decide)

/-- The bytes of the encoding of a value. -/
def bytes (val : UInt64) : Bytes :=
  fillBackwards maxLength 0 val []

theorem decodeLoop_bytes (val : UInt64) :
    decodeLoop (bytes val) 0 0 = (val, some (groupCount maxLength val)) := by
  rcases Nat.lt_or_ge val.toNat 128 with hlt | hge
  · rw [bytes, maxLength, fillBackwards_succ_of_lt _ _ _ hlt, groupCount_succ_of_lt _ hlt,
      decodeLoop_cons (Or.inl rfl), if_pos rfl, and_low_of_lt hlt]
    simp
  · rw [bytes, maxLength, fillBackwards_succ_of_le _ _ _ hge, groupCount_succ_of_le _ hge,
      decodeLoop_fillBackwards (shiftRight_lt (toNat_lt_pow_maxLength val)),
      decodeLoop_cons (Or.inl rfl), if_pos rfl]
    simp [shiftRight_mul_add val]

/-- A value that needs all ten groups starts with the byte `0x81`. -/
theorem head_bytes {val : UInt64} (h : groupCount maxLength val = maxLength) :
    (bytes val).head? = some 0x81 := by
  rcases le_of_groupCount_eq h with hz | hle
  · exact absurd hz (by decide)
  · have hlt := val.toNat_lt
    have hge : 128 ≤ val.toNat := le_trans (by decide) hle
    rw [bytes, maxLength, fillBackwards_succ_of_le _ _ _ hge]
    refine head_fillBackwards ?_ ?_ _
    · rw [toNat_shiftRight_seven]
      omega
    · rw [toNat_shiftRight_seven]
      omega

theorem encode_eq_bytes {val : UInt64} {len : Nat} (h : groupCount maxLength val ≤ len) :
    encode val len = some (bytes val) := by
  rw [encode, if_neg (by omega)]
  rfl

@[simp] theorem length_bytes (val : UInt64) : (bytes val).length = groupCount maxLength val := by
  rw [bytes, length_fillBackwards, List.length_nil, Nat.add_zero]

theorem getLength_eq (val : UInt64) : getLength val = groupCount maxLength val := by
  have hle : groupCount maxLength val ≤ 16 := le_trans (groupCount_le _ _) (by decide)
  rw [getLength, encode_eq_bytes hle]
  exact length_bytes val

theorem write_eq_bytes (val : UInt64) : write val = bytes val := by
  rw [write, encode_eq_bytes (getLength_eq val).ge]
  rfl

/-- **The predicted length of an SDNV is the number of bytes written.** -/
@[simp] theorem length_write (val : UInt64) : (write val).length = getLength val := by
  rw [write_eq_bytes, length_bytes, getLength_eq]

theorem getLength_pos (val : UInt64) : 0 < getLength val := by
  rw [getLength_eq]
  exact groupCount_pos _ _

theorem getLength_le (val : UInt64) : getLength val ≤ maxLength := by
  rw [getLength_eq]
  exact groupCount_le _ _

/-- **Decoding inverts encoding**, for every buffer that is large enough. -/
theorem decode_encode {val : UInt64} {len : Nat} {bs : Bytes} (h : encode val len = some bs) :
    decode bs = .ok val := by
  have hbs : bs = bytes val := by
    rw [encode] at h
    split_ifs at h
    exact (Option.some.inj h).symm
  subst hbs
  have hle := groupCount_le maxLength val
  rw [decode, decodeLoop_bytes]
  refine if_neg ?_
  rintro (hgt | ⟨heq, hne⟩)
  · omega
  · exact hne (head_bytes heq)

/-! ### Reading inverts writing -/

/-- Every byte but the last one has its high bit set. -/
def Terminated : Bytes → Prop
  | [] => False
  | [b] => b &&& 0x80 = 0
  | b :: c :: bs => b &&& 0x80 ≠ 0 ∧ Terminated (c :: bs)

theorem Terminated.cons {b : UInt8} {bs : Bytes} (hb : b &&& 0x80 ≠ 0) (h : Terminated bs) :
    Terminated (b :: bs) := by
  cases bs with
  | nil => exact h.elim
  | cons c bs => exact ⟨hb, h⟩

theorem terminated_fillBackwards (fuel : Nat) (val : UInt64) {bp : Bytes} (h : Terminated bp) :
    Terminated (fillBackwards fuel 0x80 val bp) := by
  induction fuel generalizing val bp with
  | zero => exact h
  | succ fuel ih =>
      have hcons := Terminated.cons (high_or_high val) h
      rcases Nat.lt_or_ge val.toNat 128 with hlt | hge
      · rw [fillBackwards_succ_of_lt _ _ _ hlt]
        exact hcons
      · rw [fillBackwards_succ_of_le _ _ _ hge]
        exact ih _ hcons

theorem terminated_bytes (val : UInt64) : Terminated (bytes val) := by
  rcases Nat.lt_or_ge val.toNat 128 with hlt | hge
  · rw [bytes, maxLength, fillBackwards_succ_of_lt _ _ _ hlt]
    exact high_or_zero val
  · rw [bytes, maxLength, fillBackwards_succ_of_le _ _ _ hge]
    exact terminated_fillBackwards _ _ (high_or_zero val)

theorem reads_readBuffer {bs : Bytes} (h : Terminated bs) {room : Nat} (hlen : bs.length ≤ room) :
    (readBuffer room).Reads bs bs := by
  induction bs generalizing room with
  | nil => exact h.elim
  | cons b bs ih =>
      obtain ⟨room, rfl⟩ : ∃ k, room = k + 1 := ⟨room - 1, by simp at hlen; omega⟩
      rw [readBuffer]
      refine (Parser.reads_getByte none b).bind_cons ?_
      cases bs with
      | nil =>
          rw [if_pos (show b &&& 0x80 = 0 from h)]
          exact Parser.reads_pure _
      | cons c bs =>
          rw [if_neg h.1]
          exact (ih h.2 (by simpa using hlen)).bind_pure

theorem decode_bytes (val : UInt64) : decode (bytes val) = .ok val :=
  decode_encode (encode_eq_bytes (groupCount_le maxLength val))

theorem reads_readBuffer_bytes (val : UInt64) :
    (readBuffer maxLength).Reads (bytes val) (bytes val) := by
  refine reads_readBuffer (terminated_bytes val) ?_
  rw [length_bytes]
  exact groupCount_le _ _

/-- **Reading inverts writing**: `>>` consumes exactly the bytes that `<<` wrote. -/
theorem reads_read (val : UInt64) : read.Reads (write val) val := by
  rw [write_eq_bytes]
  refine (reads_readBuffer_bytes val).then_nil ?_
  rw [decode_bytes]
  exact Parser.reads_pure val

/-- The same for a member, whatever it held before. -/
theorem loads_load (val old : UInt64) : load.Loads (write val) old val () := by
  rw [write_eq_bytes]
  refine (Loader.loads_ofParser (reads_readBuffer_bytes val) old).then_nil ?_
  refine (Loader.loads_update _ old).bind_nil ?_
  rw [decode_bytes, decodeLoop_bytes]
  exact Loader.loads_pure () val

end SDNV

end IbrDtn
