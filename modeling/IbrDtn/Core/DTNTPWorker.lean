import Mathlib

/-!
# Synchronising the clock with a neighbour

This file models the response branch of `DTNTPWorker::callbackBundleReceived`, which computes the
offset of the local clock from the times in a response and from the ages of its two age blocks.
Times are pairs of seconds and microseconds, that the macros of `sys/time.h` add and subtract with
at most one carry or borrow.

## Main definitions

* `Timeval`, `Timeval.timeradd`, `Timeval.timersub` : times.
* `DTNTPWorker.offset` : the offset that the response branch passes to `sync`.
* `DTNTPWorker.IsExact` : the offset is normalised, and what it should be up to a microsecond.
* `DTNTPWorker.InRange` : the times and ages for which it is.

## Main results

* `DTNTPWorker.isExact_iff` : the offset is exact only in this range.
-/

namespace IbrDtn

/-! ### Times -/

/-- `struct timeval`. -/
structure Timeval where
  sec : Int64
  usec : Int64
deriving DecidableEq, Repr

namespace Timeval

/-- `timerclear`. -/
def timerclear : Timeval := ⟨0, 0⟩

/-- `timeradd`. -/
def timeradd (a b : Timeval) : Timeval :=
  let sec := a.sec + b.sec
  let usec := a.usec + b.usec
  if usec ≥ 1000000 then ⟨sec + 1, usec - 1000000⟩ else ⟨sec, usec⟩

/-- `timersub`. -/
def timersub (a b : Timeval) : Timeval :=
  let sec := a.sec - b.sec
  let usec := a.usec - b.usec
  if usec < 0 then ⟨sec - 1, usec + 1000000⟩ else ⟨sec, usec⟩

/-- The number of microseconds that a time stands for. -/
def micros (t : Timeval) : ℤ := t.sec.toInt * 1000000 + t.usec.toInt

/-- The microseconds of the time are less than a second. -/
def Normalised (t : Timeval) : Prop := 0 ≤ t.usec ∧ t.usec ≤ 999999

instance (t : Timeval) : Decidable t.Normalised := inferInstanceAs (Decidable (_ ∧ _))

end Timeval

namespace DTNTPWorker

/-- What `callbackBundleReceived` computes from the local time, the two timestamps of a response,
and the microseconds of its two age blocks. -/
def offset (tvLocal originTimestamp peerTimestamp : Timeval) (peerAge originAge : UInt64) :
    Timeval :=
  let tvAge : Timeval := { Timeval.timerclear with usec := originAge.toInt64 }
  let rtt := tvLocal.timersub originTimestamp
  let propDelay := rtt.timersub tvAge
  -- seconds and microseconds are halved one by one, as the division of integers rounds
  let propDelay : Timeval := ⟨propDelay.sec / 2, propDelay.usec / 2⟩
  let syncDelay : Timeval :=
    { Timeval.timerclear with usec := (peerAge + propDelay.usec.toUInt64).toInt64 }
  let peerTimestamp := peerTimestamp.timeradd syncDelay
  tvLocal.timersub peerTimestamp

end DTNTPWorker

namespace DTNTPWorker

/-- The offset that the response branch should compute: the local time less the time that the peer
shows by now, to whose timestamp come the age of the response and half of the delay. -/
def expected (tvLocal originTimestamp peerTimestamp : Timeval) (peerAge originAge : UInt64) : ℚ :=
  tvLocal.micros - (peerTimestamp.micros + peerAge.toNat +
    (tvLocal.micros - originTimestamp.micros - originAge.toNat) / 2)

/-- The offset is what it should be, up to one microsecond, and normalised. -/
def IsExact (tvLocal originTimestamp peerTimestamp : Timeval) (peerAge originAge : UInt64) : Prop :=
  |(offset tvLocal originTimestamp peerTimestamp peerAge originAge).micros -
    expected tvLocal originTimestamp peerTimestamp peerAge originAge| ≤ 1 ∧
  (offset tvLocal originTimestamp peerTimestamp peerAge originAge).Normalised

/-- The delay of the way, without the time for which the nodes held the bundle. -/
def delay (tvLocal originTimestamp : Timeval) (originAge : UInt64) : ℤ :=
  tvLocal.micros - originTimestamp.micros - originAge.toNat

/-- The round trip takes less than two seconds and the delay less than one, one carry is enough for
the age of the response and half of the delay, and the offset fits the type of the seconds. -/
structure InRange (tvLocal originTimestamp peerTimestamp : Timeval) (peerAge originAge : UInt64) :
    Prop where
  rtt_lt : tvLocal.micros - originTimestamp.micros < 2000000
  delay_lt : delay tvLocal originTimestamp originAge < 1000000
  carries : peerTimestamp.usec.toInt + peerAge.toNat + delay tvLocal originTimestamp originAge / 2 ≤
    tvLocal.usec.toInt + 2000000
  le_offset : -2 ^ 63 * 1000000 ≤ tvLocal.micros - peerTimestamp.micros - peerAge.toNat -
    delay tvLocal originTimestamp originAge / 2
  offset_lt : tvLocal.micros - peerTimestamp.micros - peerAge.toNat -
    delay tvLocal originTimestamp originAge / 2 < 2 ^ 63 * 1000000

end DTNTPWorker

/-! ### Machine integers -/

namespace Timeval

/-- Sums are taken modulo `2^64`. -/
theorem exists_toInt_add (x y : Int64) :
    ∃ k : ℤ, (x + y).toInt = x.toInt + y.toInt + k * 2 ^ 64 := by
  refine ⟨-(x.toInt + y.toInt).bdiv (2 ^ 64), ?_⟩
  have h := Int.bmod_add_bdiv (x.toInt + y.toInt) (2 ^ 64)
  rw [Int64.toInt_add]
  push_cast at h ⊢
  linarith

/-- Differences are taken modulo `2^64`. -/
theorem exists_toInt_sub (x y : Int64) :
    ∃ k : ℤ, (x - y).toInt = x.toInt - y.toInt + k * 2 ^ 64 := by
  refine ⟨-(x.toInt - y.toInt).bdiv (2 ^ 64), ?_⟩
  have h := Int.bmod_add_bdiv (x.toInt - y.toInt) (2 ^ 64)
  rw [Int64.toInt_sub]
  push_cast at h ⊢
  linarith

/-- A number without a sign is taken modulo `2^64`. -/
theorem exists_toInt_toInt64 (x : UInt64) :
    ∃ k : ℤ, x.toInt64.toInt = x.toNat + k * 2 ^ 64 := by
  refine ⟨-(x.toNat : ℤ).bdiv (2 ^ 64), ?_⟩
  have h := Int.bmod_add_bdiv (x.toNat : ℤ) (2 ^ 64)
  have hx : x.toInt64.toInt = (x.toNat : ℤ).bmod (2 ^ 64) := BitVec.toInt_eq_toNat_bmod _
  rw [hx]
  push_cast at h ⊢
  linarith

/-- A number that is halved loses at most one half, and not its sign. -/
theorem exists_toInt_half (x : Int64) : ∃ e : ℤ, 2 * (x / 2).toInt = x.toInt - e ∧
    (0 ≤ x.toInt → 0 ≤ e ∧ e ≤ 1) ∧ (x.toInt < 0 → -1 ≤ e ∧ e ≤ 0) := by
  have htwo : (2 : Int64).toInt = 2 := by decide
  have hdiv : (x / 2).toInt = x.toInt.tdiv 2 := by
    rw [Int64.toInt_div_of_ne_right x 2 (by decide), htwo]
  refine ⟨x.toInt.tmod 2, ?_, fun h => ?_, fun h => ?_⟩
  · have hmod := Int.mul_tdiv_add_tmod x.toInt 2
    rw [hdiv]
    omega
  · have hnonneg := Int.tmod_nonneg 2 h
    have hlt := Int.tmod_lt_of_pos x.toInt (show (0 : ℤ) < 2 by decide)
    omega
  · have hnonneg := Int.tmod_nonneg 2 (Int.neg_nonneg_of_nonpos h.le)
    have hlt := Int.lt_tmod_of_pos x.toInt (show (0 : ℤ) < 2 by decide)
    rw [Int.neg_tmod] at hnonneg
    omega

/-- A number in the range is what it is modulo `2^64`. -/
theorem eq_of_range {v w j : ℤ} (h : v = w + j * 2 ^ 64) (hv : -2 ^ 63 ≤ v) (hv' : v < 2 ^ 63)
    (hw : -2 ^ 63 ≤ w) (hw' : w < 2 ^ 63) : v = w := by
  omega

/-- **What `timersub` computes**: the microseconds modulo `2^64`, with one borrow if they are
negative, and the seconds modulo `2^64`. -/
theorem exists_timersub (a b : Timeval) : ∃ i j u : ℤ,
    u = a.usec.toInt - b.usec.toInt + j * 2 ^ 64 ∧ -2 ^ 63 ≤ u ∧ u < 2 ^ 63 ∧
    (u < 0 ∧ (a.timersub b).usec.toInt = u + 1000000 ∧
        (a.timersub b).sec.toInt = a.sec.toInt - b.sec.toInt - 1 + i * 2 ^ 64 ∨
      0 ≤ u ∧ (a.timersub b).usec.toInt = u ∧
        (a.timersub b).sec.toInt = a.sec.toInt - b.sec.toInt + i * 2 ^ 64) := by
  obtain ⟨i, hi⟩ := exists_toInt_sub a.sec b.sec
  obtain ⟨j, hj⟩ := exists_toInt_sub a.usec b.usec
  have hle := (a.usec - b.usec).le_toInt
  have hlt := (a.usec - b.usec).toInt_lt
  by_cases hneg : a.usec - b.usec < 0
  · obtain ⟨i', hi'⟩ := exists_toInt_sub (a.sec - b.sec) 1
    obtain ⟨j', hj'⟩ := exists_toInt_add (a.usec - b.usec) 1000000
    have hzero := Int64.lt_iff_toInt_lt.1 hneg
    have hle' := (a.usec - b.usec + 1000000).le_toInt
    have hlt' := (a.usec - b.usec + 1000000).toInt_lt
    have hone : (1 : Int64).toInt = 1 := by decide
    have hmillion : (1000000 : Int64).toInt = 1000000 := by decide
    rw [hone] at hi'
    rw [hmillion] at hj'
    rw [Int64.toInt_zero] at hzero
    refine ⟨i + i', j, _, hj, hle, hlt, .inl ⟨hzero, ?_, ?_⟩⟩
    · rw [timersub, if_pos hneg]
      exact eq_of_range hj' hle' hlt' (by linarith) (by linarith)
    · rw [timersub, if_pos hneg]
      exact hi'.trans (by linarith)
  · have hzero := Int64.not_lt.1 hneg
    rw [Int64.le_iff_toInt_le, Int64.toInt_zero] at hzero
    refine ⟨i, j, _, hj, hle, hlt, .inr ⟨hzero, ?_, ?_⟩⟩
    · rw [timersub, if_neg hneg]
    · rw [timersub, if_neg hneg]
      exact hi

/-- **What `timeradd` computes**: the microseconds modulo `2^64`, with one carry if they make a
second, and the seconds modulo `2^64`. -/
theorem exists_timeradd (a b : Timeval) : ∃ i j u : ℤ,
    u = a.usec.toInt + b.usec.toInt + j * 2 ^ 64 ∧ -2 ^ 63 ≤ u ∧ u < 2 ^ 63 ∧
    (1000000 ≤ u ∧ (a.timeradd b).usec.toInt = u - 1000000 ∧
        (a.timeradd b).sec.toInt = a.sec.toInt + b.sec.toInt + 1 + i * 2 ^ 64 ∨
      u < 1000000 ∧ (a.timeradd b).usec.toInt = u ∧
        (a.timeradd b).sec.toInt = a.sec.toInt + b.sec.toInt + i * 2 ^ 64) := by
  obtain ⟨i, hi⟩ := exists_toInt_add a.sec b.sec
  obtain ⟨j, hj⟩ := exists_toInt_add a.usec b.usec
  have hle := (a.usec + b.usec).le_toInt
  have hlt := (a.usec + b.usec).toInt_lt
  have hmillion : (1000000 : Int64).toInt = 1000000 := by decide
  by_cases hcarry : a.usec + b.usec ≥ 1000000
  · obtain ⟨i', hi'⟩ := exists_toInt_add (a.sec + b.sec) 1
    obtain ⟨j', hj'⟩ := exists_toInt_sub (a.usec + b.usec) 1000000
    have hge := Int64.le_iff_toInt_le.1 hcarry
    have hle' := (a.usec + b.usec - 1000000).le_toInt
    have hlt' := (a.usec + b.usec - 1000000).toInt_lt
    have hone : (1 : Int64).toInt = 1 := by decide
    rw [hone] at hi'
    rw [hmillion] at hj' hge
    refine ⟨i + i', j, _, hj, hle, hlt, .inl ⟨hge, ?_, ?_⟩⟩
    · rw [timeradd, if_pos hcarry]
      exact eq_of_range hj' hle' hlt' (by linarith) (by linarith)
    · rw [timeradd, if_pos hcarry]
      exact hi'.trans (by linarith)
  · have hlt' := Int64.not_le.1 hcarry
    rw [Int64.lt_iff_toInt_lt, hmillion] at hlt'
    refine ⟨i, j, _, hj, hle, hlt, .inr ⟨hlt', ?_, ?_⟩⟩
    · rw [timeradd, if_neg hcarry]
    · rw [timeradd, if_neg hcarry]
      exact hi

end Timeval

namespace DTNTPWorker

/-! ### The offset -/

variable {tvLocal originTimestamp peerTimestamp : Timeval} {peerAge originAge : UInt64}

/-- The half of the microseconds of the propagation delay. -/
def halfDelay (tvLocal originTimestamp : Timeval) (originAge : UInt64) : Int64 :=
  ((tvLocal.timersub originTimestamp).timersub
    { Timeval.timerclear with usec := originAge.toInt64 }).usec / 2

/-- **The microseconds of the delay that are halved**: those of the round trip less the whole age,
with one borrow at most. -/
theorem exists_halfDelay (hlocal : tvLocal.Normalised) (horigin : originTimestamp.Normalised)
    (originAge : UInt64) : ∃ r u b k e : ℤ,
    tvLocal.micros - originTimestamp.micros = r * 1000000 + u ∧ 0 ≤ u ∧ u < 1000000 ∧
    (b = 0 ∧ 0 ≤ u - originAge.toNat + k * 2 ^ 64 ∨ b = 1 ∧ u - originAge.toNat + k * 2 ^ 64 < 0) ∧
    -2 ^ 63 ≤ u - originAge.toNat + k * 2 ^ 64 ∧ u - originAge.toNat + k * 2 ^ 64 < 2 ^ 63 ∧
    2 * (halfDelay tvLocal originTimestamp originAge).toInt =
      u - originAge.toNat + k * 2 ^ 64 + b * 1000000 - e ∧ -1 ≤ e ∧ e ≤ 1 ∧
    (0 ≤ u - originAge.toNat + k * 2 ^ 64 + b * 1000000 → 0 ≤ e) := by
  obtain ⟨hl₀, hl₁⟩ := hlocal
  obtain ⟨ho₀, ho₁⟩ := horigin
  have hmax : (999999 : Int64).toInt = 999999 := by decide
  rw [Int64.le_iff_toInt_le, Int64.toInt_zero] at hl₀ ho₀
  rw [Int64.le_iff_toInt_le, hmax] at hl₁ ho₁
  obtain ⟨_, j, u₀, hu₀, hle₀, hlt₀, hrtt⟩ := tvLocal.exists_timersub originTimestamp
  obtain ⟨_, j', u₁, hu₁, hle₁, hlt₁, hdelay⟩ :=
    (tvLocal.timersub originTimestamp).exists_timersub
      { Timeval.timerclear with usec := originAge.toInt64 }
  obtain ⟨k, hk⟩ := Timeval.exists_toInt_toInt64 originAge
  obtain ⟨e, he, hpos, hneg⟩ := Timeval.exists_toInt_half
    ((tvLocal.timersub originTimestamp).timersub
      { Timeval.timerclear with usec := originAge.toInt64 }).usec
  have hj : j = 0 := by omega
  have hclear : ({ Timeval.timerclear with usec := originAge.toInt64 } : Timeval).usec =
    originAge.toInt64 := rfl
  rw [hclear] at hu₁
  rw [halfDelay, Timeval.micros, Timeval.micros]
  generalize (tvLocal.timersub originTimestamp).timersub
    { Timeval.timerclear with usec := originAge.toInt64 } = prop at *
  generalize tvLocal.timersub originTimestamp = rtt at *
  rcases hrtt with ⟨hn, hrtt, -⟩ | ⟨hn, hrtt, -⟩
  · refine ⟨tvLocal.sec.toInt - originTimestamp.sec.toInt - 1, rtt.usec.toInt,
      if u₁ < 0 then 1 else 0, j' - k, e, ?_⟩
    rcases hdelay with ⟨hm, hdelay, -⟩ | ⟨hm, hdelay, -⟩
    · rw [if_pos hm]
      omega
    · rw [if_neg hm.not_gt]
      omega
  · refine ⟨tvLocal.sec.toInt - originTimestamp.sec.toInt, rtt.usec.toInt,
      if u₁ < 0 then 1 else 0, j' - k, e, ?_⟩
    rcases hdelay with ⟨hm, hdelay, -⟩ | ⟨hm, hdelay, -⟩
    · rw [if_pos hm]
      omega
    · rw [if_neg hm.not_gt]
      omega

/-- **The offset in terms of the half of the delay**: the carries of the addition and of the
subtraction, and what is lost modulo `2^64`. -/
theorem exists_offset (hlocal : tvLocal.Normalised) (hpeer : peerTimestamp.Normalised)
    (originTimestamp : Timeval) (peerAge originAge : UInt64) : ∃ c i j : ℤ, 0 ≤ c ∧ c ≤ 2 ∧
    (offset tvLocal originTimestamp peerTimestamp peerAge originAge).sec.toInt =
      tvLocal.sec.toInt - peerTimestamp.sec.toInt - c + i * 2 ^ 64 ∧
    (offset tvLocal originTimestamp peerTimestamp peerAge originAge).usec.toInt =
      tvLocal.usec.toInt - peerTimestamp.usec.toInt - peerAge.toNat -
        (halfDelay tvLocal originTimestamp originAge).toInt + c * 1000000 + j * 2 ^ 64 ∧
    (0 ≤ (halfDelay tvLocal originTimestamp originAge).toInt →
      (halfDelay tvLocal originTimestamp originAge).toInt < 1000000 →
      peerTimestamp.usec.toInt + peerAge.toNat +
        (halfDelay tvLocal originTimestamp originAge).toInt ≤ tvLocal.usec.toInt + 2000000 →
      (offset tvLocal originTimestamp peerTimestamp peerAge originAge).Normalised ∧ j = 0) := by
  obtain ⟨hl₀, hl₁⟩ := hlocal
  obtain ⟨hp₀, hp₁⟩ := hpeer
  have hmax : (999999 : Int64).toInt = 999999 := by decide
  rw [Int64.le_iff_toInt_le, Int64.toInt_zero] at hl₀ hp₀
  rw [Int64.le_iff_toInt_le, hmax] at hl₁ hp₁
  have hoffset : offset tvLocal originTimestamp peerTimestamp peerAge originAge =
      tvLocal.timersub (peerTimestamp.timeradd { Timeval.timerclear with
        usec := (peerAge + (halfDelay tvLocal originTimestamp originAge).toUInt64).toInt64 }) := by
    rw [offset, halfDelay]
  have hsync : (peerAge + (halfDelay tvLocal originTimestamp originAge).toUInt64).toInt64 =
      peerAge.toInt64 + halfDelay tvLocal originTimestamp originAge := UInt64.toInt64_add _ _
  rw [hoffset, hsync]
  generalize halfDelay tvLocal originTimestamp originAge = half
  obtain ⟨k, hk⟩ := Timeval.exists_toInt_toInt64 peerAge
  obtain ⟨k', hk'⟩ := Timeval.exists_toInt_add peerAge.toInt64 half
  have hage := peerAge.toNat_lt
  have hhle := half.le_toInt
  have hhlt := half.toInt_lt
  obtain ⟨i₀, j₀, u₀, hu₀, hle₀, hlt₀, hadd⟩ := peerTimestamp.exists_timeradd
    { Timeval.timerclear with usec := peerAge.toInt64 + half }
  have hclear : ({ Timeval.timerclear with usec := peerAge.toInt64 + half } : Timeval).sec.toInt =
      0 := Int64.toInt_zero
  rw [hclear] at hadd
  change u₀ = peerTimestamp.usec.toInt + (peerAge.toInt64 + half).toInt + j₀ * 2 ^ 64 at hu₀
  generalize (peerTimestamp.timeradd { Timeval.timerclear with usec := peerAge.toInt64 + half }) =
    peer at *
  obtain ⟨i₁, j₁, u₁, hu₁, hle₁, hlt₁, hsub⟩ := tvLocal.exists_timersub peer
  rw [Timeval.Normalised, Int64.le_iff_toInt_le, Int64.le_iff_toInt_le, Int64.toInt_zero, hmax]
  generalize tvLocal.timersub peer = result at *
  rcases hadd with ⟨hc, hadd, hsec⟩ | ⟨hc, hadd, hsec⟩
  · rcases hsub with ⟨hd, hsub, hsec'⟩ | ⟨hd, hsub, hsec'⟩
    · refine ⟨2, i₁ - i₀, j₁ - j₀ - k - k', ?_⟩
      omega
    · refine ⟨1, i₁ - i₀, j₁ - j₀ - k - k', ?_⟩
      omega
  · rcases hsub with ⟨hd, hsub, hsec'⟩ | ⟨hd, hsub, hsec'⟩
    · refine ⟨1, i₁ - i₀, j₁ - j₀ - k - k', ?_⟩
      omega
    · refine ⟨0, i₁ - i₀, j₁ - j₀ - k - k', ?_⟩
      omega

/-- Exactness in whole numbers. -/
theorem isExact_iff_two_mul : IsExact tvLocal originTimestamp peerTimestamp peerAge originAge ↔
    |2 * (offset tvLocal originTimestamp peerTimestamp peerAge originAge).micros -
      (2 * (tvLocal.micros - peerTimestamp.micros - peerAge.toNat) -
        delay tvLocal originTimestamp originAge)| ≤ 2 ∧
    (offset tvLocal originTimestamp peerTimestamp peerAge originAge).Normalised := by
  rw [IsExact]
  refine and_congr_left' ?_
  have hdouble : ((2 * (offset tvLocal originTimestamp peerTimestamp peerAge originAge).micros -
      (2 * (tvLocal.micros - peerTimestamp.micros - peerAge.toNat) -
        delay tvLocal originTimestamp originAge) : ℤ) : ℚ) =
      2 * ((offset tvLocal originTimestamp peerTimestamp peerAge originAge).micros -
        expected tvLocal originTimestamp peerTimestamp peerAge originAge) := by
    rw [expected, delay]
    push_cast
    ring
  rw [← Int.cast_le (R := ℚ), Int.cast_abs, hdouble, abs_mul]
  norm_num

/-- The error of a second is not made up for by what is lost modulo `2^64`. -/
theorem eq_zero_of_abs_le {z m e : ℤ} (he : |e| ≤ 1) (hm : |m| ≤ 8)
    (h : |z * 1000000 + m * 2 ^ 64 + e| ≤ 2) : m = 0 ∧ z = 0 := by
  have hfactor : z * 1000000 + m * 2 ^ 64 = 64 * (15625 * z + 2 ^ 58 * m) := by ring
  rw [hfactor] at h
  rw [abs_le] at he hm h
  have hsum : 15625 * z + 2 ^ 58 * m = 0 := by
    generalize 15625 * z + 2 ^ 58 * m = t at h
    omega
  have hdvd : (15625 : ℤ) ∣ 2 ^ 58 * m := ⟨-z, by linarith⟩
  have hzero : m = 0 := by
    obtain ⟨w, rfl⟩ := IsCoprime.dvd_of_dvd_mul_left (by norm_num) hdvd
    omega
  subst hzero
  omega

/-- **The offset is exact only for the times and ages that are in range**: round trips of less than
two seconds, delays of less than one second, and responses that are not older than one carry makes
up for. -/
theorem isExact_iff (hlocal : tvLocal.Normalised) (horigin : originTimestamp.Normalised)
    (hpeer : peerTimestamp.Normalised)
    (hage : (originAge.toNat : ℤ) ≤ tvLocal.micros - originTimestamp.micros) :
    IsExact tvLocal originTimestamp peerTimestamp peerAge originAge ↔
      InRange tvLocal originTimestamp peerTimestamp peerAge originAge := by
  obtain ⟨r, u, b, k, e, hr, hu₀, hu₁, hb, hle, hlt, hhalf, he₀, he₁, he⟩ :=
    exists_halfDelay hlocal horigin originAge
  obtain ⟨c, i, j, hc₀, hc₁, hsec, husec, hcarry⟩ :=
    exists_offset hlocal hpeer originTimestamp peerAge originAge
  rw [isExact_iff_two_mul]
  have horiginAge := originAge.toNat_lt
  have hpeerAge := peerAge.toNat_lt
  have hdelay : delay tvLocal originTimestamp originAge = r * 1000000 + u - originAge.toNat := by
    rw [delay, hr]
  generalize halfDelay tvLocal originTimestamp originAge = half at *
  generalize offset tvLocal originTimestamp peerTimestamp peerAge originAge = o at *
  have hmicros : o.micros = tvLocal.micros - peerTimestamp.micros - peerAge.toNat - half.toInt +
      i * 2 ^ 64 * 1000000 + j * 2 ^ 64 := by
    rw [Timeval.micros, Timeval.micros, Timeval.micros, hsec, husec]
    ring
  have herror : 2 * o.micros - (2 * (tvLocal.micros - peerTimestamp.micros - peerAge.toNat) -
      delay tvLocal originTimestamp originAge) =
      (r - b + i * 2 ^ 65) * 1000000 + (2 * j - k) * 2 ^ 64 + e := by
    rw [hmicros, hdelay]
    linarith
  rw [herror]
  have hlocalSec := tvLocal.sec.toInt_lt
  have horiginSec := originTimestamp.sec.le_toInt
  obtain ⟨hl₀, hl₁⟩ := hlocal
  obtain ⟨ho₀, ho₁⟩ := horigin
  obtain ⟨hp₀, hp₁⟩ := hpeer
  have hmax : (999999 : Int64).toInt = 999999 := by decide
  rw [Int64.le_iff_toInt_le, Int64.toInt_zero] at hl₀ ho₀ hp₀
  rw [Int64.le_iff_toInt_le, hmax] at hl₁ ho₁ hp₁
  have hsec₀ := o.sec.le_toInt
  have hsec₁ := o.sec.toInt_lt
  constructor
  · rintro ⟨habs, hnormal⟩
    obtain ⟨hn₀, hn₁⟩ := hnormal
    rw [Int64.le_iff_toInt_le, Int64.toInt_zero] at hn₀
    rw [Int64.le_iff_toInt_le, hmax] at hn₁
    have hk : 0 ≤ k ∧ k ≤ 1 := by omega
    have hj : |2 * j - k| ≤ 8 := by
      rw [abs_le]
      omega
    obtain ⟨hm, hz⟩ := eq_zero_of_abs_le (abs_le.2 ⟨he₀, he₁⟩) hj habs
    obtain ⟨rfl, rfl⟩ : k = 0 ∧ j = 0 := by omega
    have hr₀ : 0 ≤ r := by omega
    have hr₁ : r ≤ 2 ^ 64 := by
      rw [Timeval.micros, Timeval.micros] at hr
      omega
    obtain ⟨rfl, rfl⟩ : i = 0 ∧ r = b := by omega
    refine ⟨by omega, by omega, by omega, ?_, ?_⟩
    · rw [Timeval.micros, Timeval.micros]
      omega
    · rw [Timeval.micros, Timeval.micros]
      omega
  · rintro ⟨hrtt, hshort, hcarries, hfits₀, hfits₁⟩
    have hk : k = 0 := by omega
    have hrb : r = b := by omega
    subst hk hrb
    have he' := he (by omega)
    obtain ⟨hnormal, rfl⟩ := hcarry (by omega) (by omega) (by omega)
    have hn₀ := hnormal.1
    have hn₁ := hnormal.2
    rw [Int64.le_iff_toInt_le, Int64.toInt_zero] at hn₀
    rw [Int64.le_iff_toInt_le, hmax] at hn₁
    have hi : i = 0 := by
      rw [Timeval.micros, Timeval.micros] at hfits₀ hfits₁
      omega
    subst hi
    refine ⟨?_, hnormal⟩
    rw [abs_le]
    omega

/-- A response after half a second is exact. -/
theorem isExact_iff_prompt :
    IsExact ⟨10, 500000⟩ ⟨10, 0⟩ ⟨9, 0⟩ 100 200 ↔ InRange ⟨10, 500000⟩ ⟨10, 0⟩ ⟨9, 0⟩ 100 200 :=
  isExact_iff (by decide) (by decide) (by decide) (by decide)

/-- A round trip of three seconds without any age: the seconds of its half are left out. -/
theorem not_isExact_slow :
    Timeval.Normalised ⟨100, 0⟩ ∧ Timeval.Normalised ⟨97, 0⟩ ∧
      ((0 : UInt64).toNat : ℤ) ≤ Timeval.micros ⟨100, 0⟩ - Timeval.micros ⟨97, 0⟩ ∧
      offset ⟨100, 0⟩ ⟨97, 0⟩ ⟨100, 0⟩ 0 0 = ⟨0, 0⟩ ∧
      ¬ IsExact ⟨100, 0⟩ ⟨97, 0⟩ ⟨100, 0⟩ 0 0 := by
  refine ⟨by decide, by decide, by decide, by decide, ?_⟩
  rw [isExact_iff_two_mul, abs_le]
  decide

end DTNTPWorker

end IbrDtn
