import IbrDtn.Utils.Clock

/-!
# Two notions of expiry

`Clock::isExpired`, which the validation of a received bundle asks, and `Clock::getExpireTime`, by
which the storages delete bundles, are two functions of `ibrdtn/utils/Clock.cpp`.  This file compares
them for a clock of quality one.

The first one looks at the age of every bundle with an age block, and the second one only at that of
a bundle without a timestamp.  The lifetime comes from the peer, and is added to the timestamp, or
lessened by the age, in 64 bits.

## Main definitions

* `Clock.exact` : a clock of quality one.
* `Clock.Agrees` : what is asked of the two functions.
* `Clock.InOrder` : the condition on a bundle and the clock.

## Main results

* `Clock.agrees_iff` : the two functions agree exactly under the condition.
-/

namespace IbrDtn

/-- `Bundle::getBlock<AgeBlock>`. -/
def Bundle.ageBlock (b : Bundle) : Option AgeBlock :=
  b.getBlock Block.newAge.blocktype Body.age?

/-- The bundle with another lifetime. -/
def Bundle.withLifetime (b : Bundle) (lifetime : UInt64) : Bundle := { b with lifetime }

@[simp] theorem Bundle.lifetime_withLifetime (b : Bundle) (lifetime : UInt64) :
    (b.withLifetime lifetime).lifetime = lifetime := rfl

@[simp] theorem Bundle.timestamp_withLifetime (b : Bundle) (lifetime : UInt64) :
    (b.withLifetime lifetime).timestamp = b.timestamp := rfl

@[simp] theorem Bundle.ageBlock_withLifetime (b : Bundle) (lifetime : UInt64) :
    (b.withLifetime lifetime).ageBlock = b.ageBlock := rfl

namespace Clock

/-- A clock of quality one, by which no lifetime is stretched. -/
def exact (time : UInt64) (badclock : Bool) (elapsed : AgeBlock → UInt64) : Clock :=
  ⟨time, true, fun _ => 0, badclock, elapsed⟩

/-- The time at which the bundle expires, in whole numbers. -/
def expires (c : Clock) (b : Bundle) : ℤ :=
  match b.ageBlock with
  | some age =>
      if b.timestamp = 0 ∨ c.badclock = true then
        c.time.toNat + b.lifetime.toNat - (c.getSeconds age).toNat
      else b.timestamp.toNat + b.lifetime.toNat
  | none => b.timestamp.toNat + b.lifetime.toNat

/-- What is asked of the two functions, for a bundle and a shorter lifetime: the bundle is expired
exactly if the time at which it expires has passed; this time does not wrap around; and the bundle
with the shorter lifetime does not expire later. -/
structure Agrees (c : Clock) (b : Bundle) (shorter : UInt64) : Prop where
  isExpired_iff : c.isExpired b = true ↔ c.getExpireTime b < c.time
  toNat_eq : ((c.getExpireTime b).toNat : ℤ) = c.expires b
  isExpired_shorter : c.isExpired b = true → c.isExpired (b.withLifetime shorter) = true
  shorter_le : c.getExpireTime (b.withLifetime shorter) ≤ c.getExpireTime b

/-- The condition. Where the age decides, it is not above the time and the shorter lifetime, and the
rest of the lifetime is in the range. Else the end of the lifetime is in the range; with an age
block, the age is above the lifetime exactly if this end has passed, and with a bad clock it has
not. -/
def InOrder (c : Clock) (b : Bundle) (shorter : UInt64) : Prop :=
  match b.ageBlock with
  | some age =>
      if b.timestamp = 0 ∨ c.badclock = true then
        (c.getSeconds age).toNat ≤ c.time.toNat + shorter.toNat ∧
          c.time.toNat + b.lifetime.toNat < 2 ^ 64 + (c.getSeconds age).toNat
      else
        b.timestamp.toNat + b.lifetime.toNat < 2 ^ 64 ∧
          (b.lifetime < c.getSeconds age ↔ b.timestamp.toNat + b.lifetime.toNat < c.time.toNat)
  | none =>
      b.timestamp.toNat + b.lifetime.toNat < 2 ^ 64 ∧
        (c.badclock = true → c.time.toNat ≤ b.timestamp.toNat + b.lifetime.toNat)

variable (time : UInt64) (badclock : Bool) (elapsed : AgeBlock → UInt64) (b : Bundle)

/-! ### The two functions -/

theorem expireTime_exact (timestamp lifetime : UInt64) :
    (exact time badclock elapsed).expireTime timestamp lifetime = timestamp + lifetime :=
  UInt64.add_zero _

theorem getExpireTime_of_age {age : AgeBlock} (hage : b.ageBlock = some age)
    (h : b.timestamp = 0 ∨ badclock = true) :
    (exact time badclock elapsed).getExpireTime b =
      time + (b.lifetime - (exact time badclock elapsed).getSeconds age) := by
  rw [getExpireTime]
  change (if b.timestamp = 0 ∨ badclock = true then _ else _) = _
  rw [if_pos h, ← Bundle.ageBlock, hage]
  rfl

theorem getExpireTime_of_timestamp
    (h : b.ageBlock = none ∨ ¬ (b.timestamp = 0 ∨ badclock = true)) :
    (exact time badclock elapsed).getExpireTime b = b.timestamp + b.lifetime := by
  rw [getExpireTime]
  split_ifs with hage
  · rw [← Bundle.ageBlock, h.resolve_right (not_not.2 hage)]
    exact expireTime_exact _ _ _ _ _
  · exact expireTime_exact _ _ _ _ _

theorem isExpired_of_age {age : AgeBlock} (hage : b.ageBlock = some age) :
    (exact time badclock elapsed).isExpired b = true ↔
      b.lifetime < (exact time badclock elapsed).getSeconds age := by
  rw [isExpired, ← Bundle.ageBlock, hage]
  exact decide_eq_true_iff

theorem isExpired_of_none (hage : b.ageBlock = none) :
    (exact time badclock elapsed).isExpired b = true ↔
      badclock = false ∧ b.timestamp + b.lifetime < time := by
  rw [isExpired, ← Bundle.ageBlock, hage]
  cases badclock <;> simp [exact]

/-! ### Where they agree -/

variable {b} {shorter : UInt64}

/-- Where the age decides. -/
theorem agrees_of_age_iff (h : shorter ≤ b.lifetime) {age : AgeBlock}
    (hage : b.ageBlock = some age) (hdecides : b.timestamp = 0 ∨ badclock = true) :
    Agrees (exact time badclock elapsed) b shorter ↔
      ((exact time badclock elapsed).getSeconds age).toNat ≤ time.toNat + shorter.toNat ∧
        time.toNat + b.lifetime.toNat <
          2 ^ 64 + ((exact time badclock elapsed).getSeconds age).toNat := by
  have hexpire := getExpireTime_of_age time badclock elapsed b hage hdecides
  have hage' : (b.withLifetime shorter).ageBlock = some age := hage
  have hshorter := getExpireTime_of_age time badclock elapsed (b.withLifetime shorter) hage' hdecides
  have hexpired := isExpired_of_age time badclock elapsed b hage
  have hexpired' := isExpired_of_age time badclock elapsed (b.withLifetime shorter) hage'
  have hexpires : (exact time badclock elapsed).expires b =
      time.toNat + b.lifetime.toNat -
        ((exact time badclock elapsed).getSeconds age).toNat := by
    rw [expires, hage]
    exact if_pos hdecides
  generalize (exact time badclock elapsed).getSeconds age = seconds at *
  have hlt := time.toNat_lt
  have hlt' := b.lifetime.toNat_lt
  have hlt'' := seconds.toNat_lt
  rw [UInt64.le_iff_toNat_le] at h
  have hnat : ((exact time badclock elapsed).getExpireTime b).toNat =
      (time.toNat + (2 ^ 64 - seconds.toNat + b.lifetime.toNat) % 2 ^ 64) % 2 ^ 64 := by
    rw [hexpire, UInt64.toNat_add, UInt64.toNat_sub]
  have hnat' : ((exact time badclock elapsed).getExpireTime (b.withLifetime shorter)).toNat =
      (time.toNat + (2 ^ 64 - seconds.toNat + shorter.toNat) % 2 ^ 64) % 2 ^ 64 := by
    rw [hshorter, UInt64.toNat_add, UInt64.toNat_sub, Bundle.lifetime_withLifetime]
  rw [UInt64.lt_iff_toNat_lt] at hexpired hexpired'
  rw [Bundle.lifetime_withLifetime] at hexpired'
  constructor
  · rintro ⟨-, heq, -, hle⟩
    rw [hexpires, hnat] at heq
    rw [UInt64.le_iff_toNat_le, hnat, hnat'] at hle
    omega
  · rintro ⟨hlow, hhigh⟩
    refine ⟨?_, ?_, ?_, ?_⟩
    · rw [hexpired, UInt64.lt_iff_toNat_lt, hnat]
      change _ ↔ _ < time.toNat
      omega
    · rw [hexpires, hnat]
      omega
    · rw [hexpired, hexpired']
      omega
    · rw [UInt64.le_iff_toNat_le, hnat, hnat']
      omega

/-- Where the timestamp decides when the bundle expires. -/
theorem agrees_of_timestamp_iff (h : shorter ≤ b.lifetime)
    (hstamp : b.ageBlock = none ∨ ¬ (b.timestamp = 0 ∨ badclock = true)) :
    Agrees (exact time badclock elapsed) b shorter ↔
      b.timestamp.toNat + b.lifetime.toNat < 2 ^ 64 ∧
        ((exact time badclock elapsed).isExpired b = true ↔
          b.timestamp.toNat + b.lifetime.toNat < time.toNat) := by
  have hexpire := getExpireTime_of_timestamp time badclock elapsed b hstamp
  have hshorter := getExpireTime_of_timestamp time badclock elapsed (b.withLifetime shorter) hstamp
  have hexpires : (exact time badclock elapsed).expires b =
      b.timestamp.toNat + b.lifetime.toNat := by
    rw [expires]
    cases hage : b.ageBlock with
    | none => rfl
    | some age => exact if_neg (hstamp.resolve_left (by rw [hage]; exact Option.some_ne_none _))
  have hlt := b.timestamp.toNat_lt
  have hlt' := b.lifetime.toNat_lt
  have hnat : ((exact time badclock elapsed).getExpireTime b).toNat =
      (b.timestamp.toNat + b.lifetime.toNat) % 2 ^ 64 := by
    rw [hexpire, UInt64.toNat_add]
  have hnat' : ((exact time badclock elapsed).getExpireTime (b.withLifetime shorter)).toNat =
      (b.timestamp.toNat + shorter.toNat) % 2 ^ 64 := by
    rw [hshorter, UInt64.toNat_add]
    rfl
  have hle := UInt64.le_iff_toNat_le.1 h
  constructor
  · rintro ⟨hiff, heq, -, -⟩
    rw [hexpires, hnat] at heq
    have hfits : b.timestamp.toNat + b.lifetime.toNat < 2 ^ 64 := by omega
    refine ⟨hfits, ?_⟩
    rw [hiff, UInt64.lt_iff_toNat_lt, hnat, Nat.mod_eq_of_lt hfits]
    rfl
  · rintro ⟨hfits, hiff⟩
    refine ⟨?_, ?_, fun hexpired => ?_, ?_⟩
    · rw [hiff, UInt64.lt_iff_toNat_lt, hnat, Nat.mod_eq_of_lt hfits]
      rfl
    · rw [hexpires, hnat, Nat.mod_eq_of_lt hfits]
      rfl
    · cases hage : b.ageBlock with
      | some age =>
          rw [isExpired_of_age _ _ _ _ hage] at hexpired
          rw [isExpired_of_age _ _ _ _ ((b.ageBlock_withLifetime shorter).trans hage)]
          exact UInt64.lt_of_le_of_lt h hexpired
      | none =>
          obtain ⟨hclock, hpassed⟩ := (isExpired_of_none _ _ _ _ hage).1 hexpired
          rw [isExpired_of_none _ _ _ _ ((b.ageBlock_withLifetime shorter).trans hage)]
          refine ⟨hclock, ?_⟩
          rw [UInt64.lt_iff_toNat_lt, UInt64.toNat_add] at hpassed ⊢
          rw [Nat.mod_eq_of_lt hfits] at hpassed
          rw [Bundle.timestamp_withLifetime, Bundle.lifetime_withLifetime,
            Nat.mod_eq_of_lt (by omega)]
          omega
    · rw [UInt64.le_iff_toNat_le, hnat, hnat', Nat.mod_eq_of_lt hfits, Nat.mod_eq_of_lt (by omega)]
      omega

/-- **The two functions agree exactly under the condition**, for every bundle, every time, and a
clock that may be bad. -/
theorem agrees_iff (h : shorter ≤ b.lifetime) :
    Agrees (exact time badclock elapsed) b shorter ↔
      InOrder (exact time badclock elapsed) b shorter := by
  rw [InOrder]
  cases hage : b.ageBlock with
  | some age =>
      dsimp only
      by_cases hdecides : b.timestamp = 0 ∨ badclock = true
      · rw [agrees_of_age_iff time badclock elapsed h hage hdecides]
        exact (if_pos hdecides).to_iff.symm
      · rw [agrees_of_timestamp_iff time badclock elapsed h (Or.inr hdecides),
          isExpired_of_age _ _ _ _ hage]
        exact (if_neg hdecides).to_iff.symm
  | none =>
      rw [agrees_of_timestamp_iff time badclock elapsed h (Or.inl hage)]
      refine and_congr_right fun hfits => ?_
      rw [isExpired_of_none _ _ _ _ hage, UInt64.lt_iff_toNat_lt, UInt64.toNat_add,
        Nat.mod_eq_of_lt hfits]
      change _ ↔ (badclock = true → time.toNat ≤ _)
      cases badclock <;> simp

/-- A bundle with the given timestamp and lifetime, and with an age block if seconds are given. -/
def sample (timestamp lifetime : UInt64) (seconds : Option UInt64) : Bundle :=
  { Bundle.create timestamp 1 with
    lifetime := lifetime
    blocks := seconds.toList.map fun seconds =>
      { Block.newAge with body := .age ⟨seconds * 1000000, 0, 0⟩ } }

theorem agrees_iff_sample :
    Agrees (exact 105 false fun _ => 0) (sample 100 10 (some 3)) 4 :=
  (agrees_iff 105 false (fun _ => 0) (by decide)).2 <| by
    have h : 100 + 10 < 2 ^ 64 ∧ ((10 : UInt64) < 3 ↔ 100 + 10 < 105) := by decide
    exact h

/-- **The two functions disagree** about a bundle with a timestamp and a higher age; the time at
which a bundle with a long lifetime expires wraps around, before the one of the bundle with a
shorter lifetime. -/
theorem not_agrees_sample :
    ((exact 105 false fun _ => 0).isExpired (sample 100 10 (some 20)) = true ∧
        ¬ (exact 105 false fun _ => 0).getExpireTime (sample 100 10 (some 20)) < 105) ∧
      ((exact 105 false fun _ => 0).getExpireTime (sample 100 0xffffffffffffffff none) = 99 ∧
        (exact 105 false fun _ => 0).getExpireTime (sample 100 10 none) = 110) ∧
      (exact 105 false fun _ => 0).getExpireTime (sample 0 10 (some 200)) = 0xffffffffffffffab := by
  refine ⟨⟨?_, ?_⟩, ⟨?_, ?_⟩, ?_⟩ <;> decide

end Clock

end IbrDtn
