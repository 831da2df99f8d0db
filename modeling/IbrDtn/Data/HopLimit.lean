import IbrDtn.Utils.Clock

/-!
# The hops of a bundle

This file models `ibrdtn/data/ScopeControlHopLimitBlock.cpp` and what the convergence layers do with
the block: each of them increments the block of a bundle that it received, and the next node reads
what was written for the block.  The count and the limit are those that the sender chose.

## Main definitions

* `ScopeControlHopLimitBlock.run` : the block behind a number of passages.
* `ScopeControlHopLimitBlock.Advances` : the hops left to live only move towards zero.

## Main results

* `ScopeControlHopLimitBlock.advances_iff` : they do exactly as long as the count stays below the
  end of its range.
-/

namespace IbrDtn

namespace ScopeControlHopLimitBlock

/-- `ScopeControlHopLimitBlock::increment`. -/
def increment (hops : UInt64) (b : ScopeControlHopLimitBlock) : ScopeControlHopLimitBlock :=
  { b with count := b.count + hops }

/-- `ScopeControlHopLimitBlock::serialize`. -/
def serialize (b : ScopeControlHopLimitBlock) : Bytes := SDNV.write b.count ++ SDNV.write b.limit

/-- What happens to the block on its way: a node that received the bundle increments it, and the
bundle is written and read by the next node. The bytes are those behind the block. -/
inductive Passage where
  | increment (hops : UInt64)
  | transmit (rest : Bytes)
deriving DecidableEq, Repr

/-- What the next node reads into a new block. -/
def reread (b : ScopeControlHopLimitBlock) (rest : Bytes) : Option ScopeControlHopLimitBlock :=
  match ScopeControlHopLimitBlock.deserialize.run
      (⟨0, 0⟩, InStream.ofBytes (b.serialize ++ rest)) with
  | (.ok (), (read, _)) => some read
  | (.error _, _) => none

/-- The block behind one passage. -/
def next (b : ScopeControlHopLimitBlock) : Passage → Option ScopeControlHopLimitBlock
  | .increment hops => some (b.increment hops)
  | .transmit rest => b.reread rest

/-- The block behind all of its passages. -/
def run (b : ScopeControlHopLimitBlock) (passages : List Passage) :
    Option ScopeControlHopLimitBlock :=
  passages.foldlM next b

/-- The hops that a passage adds to the count. -/
def Passage.hops : Passage → ℕ
  | .increment hops => hops.toNat
  | .transmit _ => 0

/-- No passage fails, and between any two points of the way the hops left to live do not increase,
the count does not fall, and a block that has reached its limit stays exhausted. -/
def Advances (b : ScopeControlHopLimitBlock) (passages : List Passage) : Prop :=
  (b.run passages).isSome ∧
  ∀ before between after, passages = before ++ between ++ after →
    ∀ s t, b.run before = some s → s.run between = some t →
      t.getHopsToLive ≤ s.getHopsToLive ∧ s.count ≤ t.count ∧
        (s.limit ≤ s.count → t.getHopsToLive = 0)

/-! ### One passage -/

/-- The hops left to live are the difference, where there is one. -/
theorem toNat_getHopsToLive (b : ScopeControlHopLimitBlock) :
    b.getHopsToLive.toNat = b.limit.toNat - b.count.toNat := by
  rw [getHopsToLive]
  split_ifs with h
  · have hlt := UInt64.lt_iff_toNat_lt.1 h
    exact (Nat.sub_eq_zero_of_le hlt.le).symm
  · exact UInt64.toNat_sub_of_le _ _ (UInt64.not_lt.1 h)

/-- **The next node reads what was written.** -/
theorem reread_eq (b : ScopeControlHopLimitBlock) (rest : Bytes) : b.reread rest = some b := by
  have hload := Body.loads_scopeControlHopLimit b ⟨0, 0⟩ rest []
  rw [reread, InStream.ofBytes, serialize, hload]

/-- A passage fails nowhere, leaves the limit alone, and adds its hops modulo `2^64`. -/
theorem exists_next (b : ScopeControlHopLimitBlock) (p : Passage) :
    ∃ b', b.next p = some b' ∧ b'.limit = b.limit ∧
      b'.count.toNat = (b.count.toNat + p.hops) % 2 ^ 64 := by
  cases p with
  | increment hops => exact ⟨_, rfl, rfl, UInt64.toNat_add _ _⟩
  | transmit rest =>
      exact ⟨b, b.reread_eq rest, rfl, (Nat.mod_eq_of_lt b.count.toNat_lt).symm⟩

/-! ### A whole way -/

/-- **The count behind a way is the sum of what was added**, modulo `2^64`, and the limit stays. -/
theorem exists_run (b : ScopeControlHopLimitBlock) (passages : List Passage) :
    ∃ b', b.run passages = some b' ∧ b'.limit = b.limit ∧
      b'.count.toNat = (b.count.toNat + (passages.map Passage.hops).sum) % 2 ^ 64 := by
  induction passages generalizing b with
  | nil => exact ⟨b, rfl, rfl, (Nat.mod_eq_of_lt b.count.toNat_lt).symm⟩
  | cons p ps ih =>
      obtain ⟨b₁, hnext, hlimit₁, hcount₁⟩ := b.exists_next p
      obtain ⟨b₂, hrun, hlimit₂, hcount₂⟩ := ih b₁
      refine ⟨b₂, ?_, hlimit₂.trans hlimit₁, ?_⟩
      · rw [run, List.foldlM_cons, hnext]
        exact hrun
      · rw [hcount₂, hcount₁, List.map_cons, List.sum_cons, Nat.mod_add_mod, Nat.add_assoc]

/-- A number that has outgrown its range on the way did so at one of the passages. -/
theorem exists_crossing {start bound : ℕ} (hstart : start < bound) (ps : List Passage)
    (h : bound ≤ start + (ps.map Passage.hops).sum) :
    ∃ before p after, ps = before ++ p :: after ∧
      start + (before.map Passage.hops).sum < bound ∧
      bound ≤ start + (before.map Passage.hops).sum + p.hops := by
  induction ps generalizing start with
  | nil => exact absurd h (by simpa using hstart)
  | cons p ps ih =>
      by_cases hp : bound ≤ start + p.hops
      · exact ⟨[], p, ps, rfl, by simpa using hstart, by simpa using hp⟩
      · rw [List.map_cons, List.sum_cons, ← Nat.add_assoc] at h
        obtain ⟨before, q, after, rfl, hbelow, habove⟩ := ih (Nat.not_le.1 hp) h
        refine ⟨p :: before, q, after, rfl, ?_, ?_⟩
        · rw [List.map_cons, List.sum_cons, ← Nat.add_assoc]
          exact hbelow
        · rw [List.map_cons, List.sum_cons, ← Nat.add_assoc]
          exact habove

/-- **The hops left to live only move towards zero exactly if the count and all the hops that are
added to it stay below `2^64`.** -/
theorem advances_iff (b : ScopeControlHopLimitBlock) (passages : List Passage) :
    b.Advances passages ↔ b.count.toNat + (passages.map Passage.hops).sum < 2 ^ 64 := by
  constructor
  · rintro ⟨-, hsteps⟩
    by_contra hge
    obtain ⟨before, p, after, rfl, hbelow, habove⟩ :=
      exists_crossing b.count.toNat_lt passages (Nat.not_lt.1 hge)
    obtain ⟨s, hs, -, hcount⟩ := b.exists_run before
    obtain ⟨t, ht, -, hcount'⟩ := s.exists_run [p]
    have hle := UInt64.le_iff_toNat_le.1
      (hsteps before [p] after (by rw [List.append_assoc]; rfl) s t hs ht).2.1
    have hp : p.hops < 2 ^ 64 := by
      cases p with
      | increment hops => exact hops.toNat_lt
      | transmit rest => exact Nat.two_pow_pos 64
    rw [Nat.mod_eq_of_lt hbelow] at hcount
    rw [List.map_singleton, List.sum_singleton, hcount] at hcount'
    omega
  · intro hlt
    obtain ⟨b', hrun, -, -⟩ := b.exists_run passages
    refine ⟨by rw [hrun]; rfl, ?_⟩
    rintro before between after rfl s t hs ht
    rw [List.map_append, List.map_append, List.sum_append, List.sum_append] at hlt
    obtain ⟨s', hs', hlimit, hcount⟩ := b.exists_run before
    obtain rfl : s' = s := Option.some.inj (hs'.symm.trans hs)
    obtain ⟨t', ht', hlimit', hcount'⟩ := s'.exists_run between
    obtain rfl : t' = t := Option.some.inj (ht'.symm.trans ht)
    rw [Nat.mod_eq_of_lt (by omega)] at hcount
    rw [Nat.mod_eq_of_lt (by omega)] at hcount'
    refine ⟨?_, ?_, fun hexhausted => ?_⟩
    · rw [UInt64.le_iff_toNat_le, toNat_getHopsToLive, toNat_getHopsToLive, hlimit']
      omega
    · rw [UInt64.le_iff_toNat_le]
      omega
    · have hle := UInt64.le_iff_toNat_le.1 hexhausted
      refine UInt64.toNat_inj.1 ?_
      rw [toNat_getHopsToLive, hlimit', UInt64.toNat_zero]
      omega

/-- A block whose count is the greatest number starts anew with the next increment. -/
theorem not_advances :
    ¬ Advances ⟨0xFFFFFFFFFFFFFFFF, 5⟩ [.increment 1] ∧
      getHopsToLive ⟨0xFFFFFFFFFFFFFFFF, 5⟩ = 0 ∧
      getHopsToLive (increment 1 ⟨0xFFFFFFFFFFFFFFFF, 5⟩) = 5 := by
  refine ⟨fun h => ?_, by decide, by decide⟩
  have hleft := (h.2 [] [.increment 1] [] rfl ⟨0xFFFFFFFFFFFFFFFF, 5⟩ ⟨0, 5⟩ rfl (by decide)).1
  exact absurd hleft (by decide)

end ScopeControlHopLimitBlock

end IbrDtn
