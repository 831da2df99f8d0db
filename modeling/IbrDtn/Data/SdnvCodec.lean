import IbrDtn.Data.Sdnv
import Mathlib

/-!
# The codec of self-delimiting numeric values

This file models the buffers of `ibrdtn/data/SDNV.cpp`: `encode` fills a buffer from behind, and
`decode` also returns how many bytes it used.  Encoding writes the least number of groups, and
decoding takes no byte behind them.  The reader of a stream collects its bytes without a look at
the state of the stream or at the size of its buffer: what it yields is the number on the stream
exactly if one of the first ten bytes ends it.

## Main definitions

* `SDNV.encodeTo`, `SDNV.decodeFrom` : the conversions, with the buffer and the result.
* `SDNV.number` : the number that groups of seven bits stand for.
* `SDNV.ReadsNumber` : the reader yields the number on the stream, or throws.

## Main results

* `SDNV.encodeTo_decodeFrom` : the law of the codec.
* `SDNV.readsNumber_iff` : the streams from which numbers are read.
-/

namespace IbrDtn

namespace SDNV

/-! ### Buffers -/

/-- The second loop of `SDNV::encode` on the buffer: the groups of `val` are written in front of the
place `bp`. The result is the place of the first one. -/
def fillBuffer : ℕ → UInt8 → UInt64 → ℕ → Bytes → ℕ × Bytes
  | 0, _, _, bp, buf => (bp, buf)
  | fuel + 1, highBit, val, bp, buf =>
      let bp := bp - 1
      let buf := buf.set bp (highBit ||| (val &&& 0x7f).toUInt8)
      let val := val >>> 7
      if val != 0 then fillBuffer fuel 0x80 val bp buf else (bp, buf)

/-- `SDNV::encode(u_int64_t, u_char*, size_t)` into the buffer `buf`: the number of bytes that were
written, or `none` for the result `-1`, and the buffer. -/
def encodeTo (val : UInt64) (buf : Bytes) : Except Exn (Option ℕ × Bytes) :=
  let valLen := groupCount maxLength val
  if ¬ valLen > 0 then .error (.invalidData "ERROR(SDNV): !(val_len > 0)")
  else if ¬ valLen ≤ maxLength then
    .error (.invalidData "ERROR(SDNV): !(val_len <= MAX_LENGTH)")
  else if buf.length < valLen then .ok (none, buf)
  else
    let (bp, buf) := fillBuffer maxLength 0 val valLen buf
    if bp ≠ 0 then .error (.invalidData "ERROR(SDNV): !(bp == start)")
    else .ok (some valLen, buf)

/-- `SDNV::decode(const u_char*, size_t, u_int64_t*)`: the number of bytes used, or `none` for the
result `-1`, and the value that is stored. -/
def decodeFrom (bp : Bytes) : Except Exn (Option ℕ × UInt64) :=
  match decodeLoop bp 0 0 with
  | (val, none) => .ok (none, val)
  | (val, some valLen) =>
      if valLen > maxLength ∨ (valLen = maxLength ∧ bp.head? ≠ some 0x81) then
        .error (.invalidData "ERROR(SDNV): overflow value in sdnv")
      else .ok (some valLen, val)

/-! ### Encoding into a buffer -/

theorem fillBackwards_append (fuel : ℕ) (hi : UInt8) (val : UInt64) (bp bs : Bytes) :
    fillBackwards fuel hi val (bp ++ bs) = fillBackwards fuel hi val bp ++ bs := by
  induction fuel generalizing hi val bp with
  | zero => rfl
  | succ fuel ih =>
      rw [fillBackwards, fillBackwards]
      split_ifs
      · exact ih 0x80 (val >>> 7) (_ :: bp)
      · rfl

/-- The loop writes its groups in front of `bp`, and nothing else. -/
theorem fillBuffer_eq {fuel bp : ℕ} {val : UInt64} {buf : Bytes} (hle : groupCount fuel val ≤ bp)
    (hbp : bp ≤ buf.length) (hi : UInt8) :
    fillBuffer fuel hi val bp buf = (bp - groupCount fuel val,
      buf.take (bp - groupCount fuel val) ++ fillBackwards fuel hi val (buf.drop bp)) := by
  induction fuel generalizing hi val bp buf with
  | zero => rw [fillBuffer, fillBackwards, groupCount, Nat.sub_zero, List.take_append_drop]
  | succ fuel ih =>
      have hpos := groupCount_pos fuel val
      have hset (b : UInt8) : buf.set (bp - 1) b = buf.take (bp - 1) ++ b :: buf.drop bp := by
        rw [List.set_eq_take_append_cons_drop, if_pos (by omega),
          Nat.sub_add_cancel (hpos.trans_le hle)]
      have hdrop (b : UInt8) : (buf.set (bp - 1) b).drop (bp - 1) = b :: buf.drop bp := by
        rw [hset, List.drop_append_of_le_length (by rw [List.length_take]; omega),
          List.drop_eq_nil_of_le (by rw [List.length_take]; omega), List.nil_append]
      rcases Nat.lt_or_ge val.toNat 128 with h | h
      · have hz : ¬ val >>> 7 ≠ 0 := by
          rw [shiftRight_ne_zero]
          omega
        rw [groupCount_succ_of_lt fuel h, fillBackwards_succ_of_lt fuel hi _ h]
        simp only [fillBuffer, bne_iff_ne, if_neg hz, hset]
      · rw [groupCount_succ_of_le fuel h] at hle ⊢
        rw [fillBackwards_succ_of_le fuel hi _ h, ← hdrop]
        simp only [fillBuffer, bne_iff_ne, if_pos ((shiftRight_ne_zero val).2 h)]
        rw [ih (by omega) (by rw [List.length_set]; omega)]
        have hsub : bp - 1 - groupCount fuel (val >>> 7) =
            bp - (groupCount fuel (val >>> 7) + 1) := by omega
        rw [hsub, List.take_set_of_le (by omega)]

/-- **What `encode` does to a buffer**: it writes the bytes of the value to its front, or nothing if
they do not fit. -/
theorem encodeTo_eq (val : UInt64) (buf : Bytes) :
    encodeTo val buf = .ok (if buf.length < getLength val then (none, buf)
      else (some (getLength val), bytes val ++ buf.drop (getLength val))) := by
  have hpos : groupCount maxLength val > 0 := groupCount_pos _ val
  rw [getLength_eq]
  simp only [encodeTo]
  rw [if_neg (not_not.2 hpos), if_neg (not_not.2 (groupCount_le _ _))]
  split_ifs with hlen hbp
  · rfl
  · rw [fillBuffer_eq le_rfl (Nat.le_of_not_lt hlen), Nat.sub_self] at hbp
    exact absurd rfl hbp
  · rw [fillBuffer_eq le_rfl (Nat.le_of_not_lt hlen), Nat.sub_self, List.take_zero, List.nil_append]
    rw [← List.nil_append (List.drop _ buf), fillBackwards_append, List.nil_append]
    rfl

/-! ### The number of groups -/

/-- The value has no more groups than are counted. -/
theorem lt_pow_groupCount {fuel : ℕ} {val : UInt64} (h : val.toNat < 128 ^ fuel) :
    val.toNat < 128 ^ groupCount fuel val := by
  induction fuel generalizing val with
  | zero => exact h
  | succ fuel ih =>
      rcases Nat.lt_or_ge val.toNat 128 with hlt | hge
      · rw [groupCount_succ_of_lt fuel hlt]
        exact hlt
      · have hshift := ih (shiftRight_lt h)
        rw [toNat_shiftRight_seven] at hshift
        rw [groupCount_succ_of_le fuel hge, pow_succ]
        omega

/-- The value has as many groups as are counted. -/
theorem groupCount_le_of_lt_pow {fuel n : ℕ} {val : UInt64} (hn : 0 < n)
    (h : val.toNat < 128 ^ n) : groupCount fuel val ≤ n := by
  induction fuel generalizing val n with
  | zero => exact Nat.zero_le n
  | succ fuel ih =>
      rcases Nat.lt_or_ge val.toNat 128 with hlt | hge
      · rw [groupCount_succ_of_lt fuel hlt]
        exact hn
      · obtain ⟨n, rfl⟩ := Nat.exists_eq_succ_of_ne_zero hn.ne'
        rw [groupCount_succ_of_le fuel hge]
        have hn' : 0 < n := by
          refine Nat.pos_of_ne_zero fun hzero => ?_
          rw [hzero] at h
          exact absurd h (not_lt.2 hge)
        exact Nat.succ_le_succ (ih hn' (shiftRight_lt h))

/-- **The encoding is as short as possible.** -/
theorem isLeast_getLength (val : UInt64) :
    IsLeast {n | 0 < n ∧ val.toNat < 128 ^ n} (getLength val) := by
  refine ⟨⟨getLength_pos val, ?_⟩, fun n hn => ?_⟩
  · rw [getLength_eq]
    exact lt_pow_groupCount (toNat_lt_pow_maxLength val)
  · rw [getLength_eq]
    exact groupCount_le_of_lt_pow hn.1 hn.2

/-! ### Decoding what was encoded -/

/-- The loop does not look behind the byte at which it ends. -/
theorem decodeLoop_append {bs : Bytes} {a val : UInt64} {m n : ℕ}
    (h : decodeLoop bs a m = (val, some n)) (rest : Bytes) :
    decodeLoop (bs ++ rest) a m = (val, some n) := by
  induction bs generalizing a m with
  | nil => cases h
  | cons b bs ih =>
      rw [decodeLoop] at h
      rw [List.cons_append, decodeLoop]
      split_ifs at h ⊢
      · exact h
      · exact ih h

theorem decodeFrom_bytes_append (val : UInt64) (rest : Bytes) :
    decodeFrom (bytes val ++ rest) = .ok (some (getLength val), val) := by
  have hhead : (bytes val ++ rest).head? = (bytes val).head? := by
    refine List.head?_append_of_ne_nil _ fun hnil => ?_
    have hlen := length_bytes val
    rw [hnil] at hlen
    exact (groupCount_pos _ val).ne hlen
  have hle := groupCount_le maxLength val
  rw [decodeFrom, decodeLoop_append (decodeLoop_bytes val), getLength_eq]
  refine if_neg ?_
  rintro (hgt | ⟨heq, hne⟩)
  · exact absurd hgt (not_lt.2 hle)
  · exact hne (hhead.trans (head_bytes heq))

theorem bytes_injective : Function.Injective bytes := by
  intro val val' h
  have hdecode := decode_bytes val
  rw [h, decode_bytes] at hdecode
  exact (Except.ok.inj hdecode).symm

/-- **The law of the codec**, for every value: `encode` writes exactly the predicted number of
bytes, the least number of groups that represent the value, to every buffer that they fit, and
nothing to a shorter one; every byte but the last has its high bit set; `decode` takes the value
and their number from them, whatever follows; and no other value has the same bytes. -/
theorem encodeTo_decodeFrom (val : UInt64) :
    ∃ bs : Bytes, bs.length = getLength val ∧ Terminated bs ∧
      IsLeast {n | 0 < n ∧ val.toNat < 128 ^ n} (getLength val) ∧
      (∀ buf, encodeTo val buf = .ok (if buf.length < getLength val then (none, buf)
        else (some (getLength val), bs ++ buf.drop (getLength val)))) ∧
      (∀ rest, decodeFrom (bs ++ rest) = .ok (some (getLength val), val)) ∧
      ∀ val' buf, getLength val ≤ buf.length → encodeTo val' buf = encodeTo val buf →
        val' = val := by
  refine ⟨bytes val, (length_bytes val).trans (getLength_eq val).symm, terminated_bytes val,
    isLeast_getLength val, encodeTo_eq val, decodeFrom_bytes_append val, fun val' buf hlen h => ?_⟩
  rw [encodeTo_eq, encodeTo_eq, if_neg (not_lt.2 hlen)] at h
  have h := Except.ok.inj h
  split_ifs at h
  · cases h
  · obtain ⟨hlength, hbytes⟩ := Prod.mk.inj h
    rw [Option.some.inj hlength] at hbytes
    exact bytes_injective (List.append_cancel_right hbytes)

/-! ### Reading from any stream -/

/-- The number that groups of seven bits stand for, the most significant one first. -/
def number (bs : Bytes) : ℕ := bs.foldl (fun n b => n * 128 + b.toNat % 128) 0

/-- The outcome of the reader on a stream: the number of the bytes that it took, which end with the
first one without high bit, or the exception for invalid data. -/
def ReadsNumber (s : InStream) : Prop :=
  match read.run s with
  | (.ok val, s') => ∃ bs, s.rest = bs ++ s'.rest ∧ Terminated bs ∧ val.toNat = number bs
  | (.error e, _) => e.isInvalidData = true

theorem toNat_and_low_byte (b : UInt8) : (b &&& 0x7f).toUInt64.toNat = b.toNat % 128 := by
  rw [UInt8.toNat_toUInt64, UInt8.toNat_and]
  exact Nat.and_two_pow_sub_one_eq_mod _ 7

/-- **The loop computes the number modulo `2 ^ 64`.** -/
theorem decodeLoop_of_terminated {bs : Bytes} (h : Terminated bs) {a : UInt64} {n : ℕ}
    (ha : a.toNat = n % 2 ^ 64) (m : ℕ) :
    ∃ val, decodeLoop bs a m = (val, some (m + bs.length)) ∧
      val.toNat = bs.foldl (fun n b => n * 128 + b.toNat % 128) n % 2 ^ 64 := by
  induction bs generalizing a n m with
  | nil => exact h.elim
  | cons b bs ih =>
      have hlow : (b &&& 0x7f).toUInt64.toNat < 128 := by
        rw [toNat_and_low_byte]
        exact Nat.mod_lt _ (by decide)
      have hstep : ((a <<< 7) ||| (b &&& 0x7f).toUInt64).toNat =
          (n * 128 + b.toNat % 128) % 2 ^ 64 := by
        rw [shiftLeft_or _ _ hlow, UInt64.toNat_add, UInt64.toNat_mul, toNat_and_low_byte, ha]
        change (n % 2 ^ 64 * 128 % 2 ^ 64 + b.toNat % 128) % 2 ^ 64 = _
        omega
      rw [decodeLoop]
      cases bs with
      | nil => exact ⟨_, if_pos h, hstep⟩
      | cons b' bs =>
          obtain ⟨val, hloop, hval⟩ := ih h.2 hstep (m + 1)
          have hlen : m + 1 + (b' :: bs).length = m + (b :: b' :: bs).length := by
            simp only [List.length_cons]
            omega
          refine ⟨val, ?_, hval⟩
          rw [if_neg h.1, hloop, hlen]

theorem foldl_lt (bs : Bytes) (n : ℕ) :
    bs.foldl (fun n b => n * 128 + b.toNat % 128) n < (n + 1) * 128 ^ bs.length := by
  induction bs generalizing n with
  | nil => simp
  | cons b bs ih =>
      refine (ih _).trans_le ?_
      rw [List.length_cons, pow_succ', ← mul_assoc]
      refine Nat.mul_le_mul_right _ ?_
      change n * 128 + b.toNat % 128 + 1 ≤ (n + 1) * 128
      omega

/-- **What passes the check for an overflow has 64 bits.** -/
theorem number_lt {bs : Bytes}
    (h : ¬ (bs.length > maxLength ∨ (bs.length = maxLength ∧ bs.head? ≠ some 0x81))) :
    number bs < 2 ^ 64 := by
  obtain ⟨hle, hhead⟩ := not_or.1 h
  rw [not_lt, maxLength] at hle
  have hlt := foldl_lt bs 0
  rcases Nat.lt_or_ge bs.length 10 with hlen | hlen
  · calc number bs < (0 + 1) * 128 ^ bs.length := hlt
      _ ≤ 128 ^ 9 := by
        rw [Nat.zero_add, Nat.one_mul]
        exact Nat.pow_le_pow_right (by decide) (by omega)
      _ < 2 ^ 64 := by decide
  · have hlen : bs.length = maxLength := le_antisymm hle hlen
    cases bs with
    | nil => cases hlen
    | cons b bs =>
        obtain rfl : b = 0x81 := by simpa [hlen] using hhead
        have hlt := foldl_lt bs 1
        rw [show bs.length = 9 from Nat.succ.inj hlen] at hlt
        exact hlt

/-- Bytes among which one ends the number start with a terminated sequence. -/
theorem exists_terminated {bs : Bytes} {room : ℕ}
    (h : ∃ i < room, ∃ b ∈ bs[i]?, b &&& 0x80 = 0) :
    ∃ p r, bs = p ++ r ∧ Terminated p ∧ p.length ≤ room := by
  induction bs generalizing room with
  | nil => simp at h
  | cons b bs ih =>
      obtain ⟨i, hi, c, hc, hlow⟩ := h
      by_cases hb : b &&& 0x80 = 0
      · exact ⟨[b], bs, rfl, hb, by simp only [List.length_singleton]; omega⟩
      · cases i with
        | zero =>
            obtain rfl : b = c := by simpa using hc
            exact absurd hlow hb
        | succ i =>
            obtain ⟨p, r, rfl, hp, hlen⟩ := @ih (room - 1)
              ⟨i, by omega, c, by simpa using hc, hlow⟩
            exact ⟨b :: p, r, rfl, hp.cons hb, by rw [List.length_cons]; omega⟩

/-- **A number that ends within the buffer is read exactly**, or refused. -/
theorem readsNumber_of_exists {s : InStream} (hgood : s.good = true)
    (h : ∃ i < maxLength, ∃ b ∈ s.rest[i]?, b &&& 0x80 = 0) : ReadsNumber s := by
  obtain ⟨p, r, hrest, hp, hlen⟩ := exists_terminated h
  obtain ⟨rest, eof, fail, stale⟩ := s
  obtain ⟨rfl, rfl⟩ : eof = false ∧ fail = false := by simpa [InStream.good] using hgood
  obtain rfl : rest = p ++ r := hrest
  obtain ⟨val, hloop, hval⟩ := decodeLoop_of_terminated hp (show (0 : UInt64).toNat = 0 % 2 ^ 64
    from rfl) 0
  have hbuffer := reads_readBuffer hp hlen r stale
  rw [Nat.zero_add] at hloop
  rw [ReadsNumber, read, Parser.run_bind_ok hbuffer, decode, hloop]
  dsimp only
  split_ifs with hover
  · rfl
  · refine ⟨p, rfl, hp, ?_⟩
    rw [hval]
    exact Nat.mod_eq_of_lt (number_lt hover)

/-- Bytes with the high bit fill the buffer, from the stream or from the memory. -/
theorem run_readBuffer_of_forall (room : ℕ) {s : InStream}
    (h : s.good = true → ∀ i < room, ∀ b ∈ s.rest[i]?, b &&& 0x80 ≠ 0) (st : Bytes) :
    ((readBuffer room).run { s with stale := List.replicate room 0x80 ++ st }).1 =
      .error (.undefined "write beyond the buffer of an SDNV") := by
  induction room generalizing s st with
  | zero => rfl
  | succ room ih =>
      have hget : ∃ b, b &&& 0x80 ≠ 0 ∧ ∃ s' : InStream, ∃ st',
          (s'.good = true → ∀ i < room, ∀ b ∈ s'.rest[i]?, b &&& 0x80 ≠ 0) ∧
          (Parser.getByte none : Parser Exn UInt8).run
            { s with stale := List.replicate (room + 1) 0x80 ++ st } =
              (.ok b, { s' with stale := List.replicate room 0x80 ++ st' }) := by
        obtain ⟨rest, eof, fail, stale⟩ := s
        cases hgood : InStream.good ⟨rest, eof, fail, stale⟩ with
        | true =>
            obtain ⟨rfl, rfl⟩ : eof = false ∧ fail = false := by simpa [InStream.good] using hgood
            cases rest with
            | nil => exact ⟨0x80, by decide, ⟨[], true, true, []⟩, st, by rintro ⟨⟩, rfl⟩
            | cons b rest =>
                refine ⟨b, h rfl 0 (Nat.succ_pos room) b rfl, ⟨rest, false, false, []⟩, 0x80 :: st,
                  fun _ i hi c hc => h rfl (i + 1) (Nat.succ_lt_succ hi) c hc, ?_⟩
                rw [List.append_cons, ← List.replicate_succ']
                rfl
        | false =>
            refine ⟨0x80, by decide, ⟨rest, eof, true, []⟩, st, fun h => ?_, ?_⟩
            · simp [InStream.good] at h
            · have hgood' : InStream.good
                  ⟨rest, eof, fail, List.replicate (room + 1) 0x80 ++ st⟩ = false := hgood
              rw [Parser.getByte, Parser.run_ofRun, if_neg (by rw [hgood']; decide)]
              rfl
      obtain ⟨b, hb, s', st', hs', hget⟩ := hget
      rw [readBuffer, Parser.run_bind_ok hget, if_neg hb, Parser.run_bind]
      rcases hrun : (readBuffer room).run { s' with stale := List.replicate room 0x80 ++ st' } with
        ⟨e | bs, t⟩
      · have he := ih hs' st'
        rw [hrun] at he
        exact he
      · have he := ih hs' st'
        rw [hrun] at he
        cases he

/-- **The streams from which numbers are read**, whatever the buffer held before: good ones on which
one of the next ten bytes ends the number. On every other stream the reader may leave its buffer,
or take the number from what the buffer held. -/
theorem readsNumber_iff (s : InStream) :
    (∀ stale, ReadsNumber { s with stale }) ↔
      s.good = true ∧ ∃ i < maxLength, ∃ b ∈ s.rest[i]?, b &&& 0x80 = 0 := by
  refine ⟨fun h => ?_, fun ⟨hgood, h⟩ stale => readsNumber_of_exists (s := { s with stale })
    hgood h⟩
  by_contra hends
  have hover := run_readBuffer_of_forall maxLength (s := s) (fun hgood i hi b hb hlow =>
    hends ⟨hgood, i, hi, b, hb, hlow⟩) []
  have hreads := h (List.replicate maxLength 0x80 ++ [])
  rw [ReadsNumber, read, Parser.run_bind] at hreads
  rcases hrun : (readBuffer maxLength).run
    { s with stale := List.replicate maxLength 0x80 ++ [] } with ⟨e | bs, t⟩
  · rw [hrun] at hover hreads
    obtain rfl : e = _ := Except.error.inj hover
    cases hreads
  · rw [hrun] at hover
    cases hover

/-- Eleven bytes with the high bit are written to the ten bytes of the buffer; and behind a stream
with one such byte, the number ends in what the buffer held. -/
theorem not_readsNumber :
    ¬ ReadsNumber (InStream.ofBytes (List.replicate 11 0x80)) ∧
      ¬ ReadsNumber ⟨[0x81], false, false, [0x01]⟩ := by
  refine ⟨fun h => ?_, fun h => ?_⟩
  · cases h
  · obtain ⟨bs, hrest, hbs, -⟩ := h
    have hbytes : [0x81] = bs ++ [] := hrest
    rw [List.append_nil] at hbytes
    rw [← hbytes] at hbs
    exact absurd (show (0x81 : UInt8) &&& 0x80 = 0 from hbs) (by decide)

end SDNV

end IbrDtn
