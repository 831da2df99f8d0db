import Mathlib

/-!
# Coders of streams

A coder takes a stream piece by piece, and gives another one as far as there is room for it: one
call takes some of the characters that are offered, and returns at most as many as there is room
for.  This file calls a coder until it leaves room, and shows that it has taken everything then.

## Main definitions

* `StreamCoder` : a coder with its calls.
* `StreamCoder.Follows` : the calls do what the documentation of a coder says.
* `StreamCoder.drain` : calls until there is room left.
* `StreamCoder.buffered` : the coder that collects what it takes.

## Main results

* `StreamCoder.Follows.drain` : everything that was offered is taken, if there is enough fuel.
* `StreamCoder.follows_buffered` : the coder that collects what it takes does as documented.
-/

/-- What a call may return beside characters. -/
inductive StreamCoder.Status where
  | ok
  | streamEnd
  | needDict
  | streamError
  | dataError
  | memError
  | bufError
deriving DecidableEq

/-- A coder with states `σ`: the first state, if there is memory for one, and what a call with some
characters, room for some, and the mark of the last ones does: the next state, how many characters
it takes, and what it returns. -/
structure StreamCoder (α σ : Type) where
  init : Option σ
  call : σ → List α → ℕ → Bool → σ × ℕ × List α × StreamCoder.Status

namespace StreamCoder

variable {α σ ε : Type}

/-- The calls that are permitted behind others: once characters were marked as the last ones, these
are the ones that are left, and all further calls have the mark. Here `whole` is the stream, if
its end was marked. -/
def Permitted (whole : Option (List α)) (y xs : List α) (last : Bool) : Prop :=
  whole = none ∨ whole = some (y ++ xs) ∧ last = true

/-- The stream, if its end is marked. -/
def marked (last : Bool) (whole : List α) : Option (List α) := if last then some whole else none

/-- **What the documentation says of a coder**, of which `rel whole s y x` is to say that it has
taken `y` and given `x` in the state `s`, and `ends last y x status` that a permitted call which
leaves room returns `status`, when it has taken `y` and given `x` and the last characters were
marked or not. It takes what continues to something allowed; it leaves characters only if there is
no room left; it never reports an error; and what it gives is bounded. -/
structure Follows (c : StreamCoder α σ) (allowed : List α → Prop)
    (rel : Option (List α) → σ → List α → List α → Prop)
    (ends : Bool → List α → List α → Status → Prop) : Prop where
  init : ∃ s, c.init = some s ∧ rel none s [] []
  bounded : ∀ y, allowed y → ∃ n, ∀ whole s y' x, y' <+: y → rel whole s y' x → x.length ≤ n
  call : ∀ whole s y x xs room last, rel whole s y x → allowed (y ++ xs) → 0 < room →
    Permitted whole y xs last →
    ∃ s' out status, ∃ k ≤ xs.length, c.call s xs room last = (s', k, out, status) ∧
      rel (marked last (y ++ xs)) s' (y ++ xs.take k) (x ++ out) ∧
      out.length ≤ room ∧ (status = .ok ∨ status = .streamEnd ∨ status = .bufError) ∧
      (out.length < room → k = xs.length ∧ ends last (y ++ xs) (x ++ out) status)

/-- Calls with room for `room` characters each, until one leaves room: the next state, the
characters that are left, what was given and what the last call returned. After each call, `check`
looks at what it returned and at what was given so far. -/
def drain (c : StreamCoder α σ) (room : ℕ) (check : Status → List α → Except ε Unit) (diverges : ε)
    (last : Bool) : ℕ → σ → List α → List α → Except ε (σ × List α × List α × Status)
  | 0, _, _, _ => .error diverges
  | fuel + 1, s, xs, os =>
      let (s, taken, out, status) := c.call s xs room last
      match check status (os ++ out) with
      | .error e => .error e
      | .ok () =>
          if out.length = room then
            drain c room check diverges last fuel s (xs.drop taken) (os ++ out)
          else .ok (s, xs.drop taken, os ++ out, status)

theorem Follows.imp {c : StreamCoder α σ} {allowed : List α → Prop}
    {rel : Option (List α) → σ → List α → List α → Prop}
    {ends ends' : Bool → List α → List α → Status → Prop} (h : c.Follows allowed rel ends)
    (himp : ∀ last y x status, allowed y → ends last y x status → ends' last y x status) :
    c.Follows allowed rel ends' := by
  refine ⟨h.init, h.bounded, fun whole s y x xs room last hs hallowed hroom hpermitted => ?_⟩
  obtain ⟨s', out, status, k, hk, hcall, hs', hle, hstatus, hends⟩ :=
    h.call whole s y x xs room last hs hallowed hroom hpermitted
  exact ⟨s', out, status, k, hk, hcall, hs', hle, hstatus, fun hlt =>
    ⟨(hends hlt).1, himp _ _ _ _ hallowed (hends hlt).2⟩⟩

section Follows

variable {c : StreamCoder α σ} {allowed : List α → Prop}
  {rel : Option (List α) → σ → List α → List α → Prop}
  {ends : Bool → List α → List α → Status → Prop} (h : c.Follows allowed rel ends) {room : ℕ}
  (hroom : 0 < room) {check : Status → List α → Except ε Unit}
  (hcheck : ∀ status os, status = .ok ∨ status = .streamEnd ∨ status = .bufError →
    check status os = .ok ()) (diverges : ε)

include h hroom hcheck

/-- **Everything that was offered is taken**, and what the last call returned is what the
documentation says. -/
theorem Follows.drain (last : Bool) (xs : List α) {whole : Option (List α)} {s : σ} {y x : List α}
    (hs : rel whole s y x) (hallowed : allowed (y ++ xs)) (hpermitted : Permitted whole y xs last)
    (os : List α) : ∃ n s' out status,
      (∀ fuel ≥ n, c.drain room check diverges last fuel s xs os =
        .ok (s', [], os ++ out, status)) ∧
      rel (marked last (y ++ xs)) s' (y ++ xs) (x ++ out) ∧
      ends last (y ++ xs) (x ++ out) status := by
  obtain ⟨bound, hbound⟩ := h.bounded (y ++ xs) hallowed
  -- The induction is on how much the coder may still give.
  obtain ⟨m, hm⟩ : ∃ m, bound - x.length < m := ⟨_, Nat.lt_succ_self _⟩
  induction m generalizing whole s y x xs os with
  | zero => exact absurd hm (Nat.not_lt_zero _)
  | succ m ih =>
      obtain ⟨s', out, status, k, hk, hcall, hs', hle, hstatus, hends⟩ :=
        h.call whole s y x xs room last hs hallowed hroom hpermitted
      have hstep (fuel : ℕ) : c.drain room check diverges last (fuel + 1) s xs os =
          if out.length = room then
            c.drain room check diverges last fuel s' (xs.drop k) (os ++ out)
          else .ok (s', xs.drop k, os ++ out, status) := by
        rw [StreamCoder.drain, hcall]
        dsimp only
        rw [hcheck status (os ++ out) hstatus]
      have hsplit : y ++ xs.take k ++ xs.drop k = y ++ xs := by
        rw [List.append_assoc, List.take_append_drop]
      by_cases hfull : out.length = room
      · have hlen : (x ++ out).length ≤ bound := hbound _ s' _ _ ⟨xs.drop k, hsplit⟩ hs'
        rw [List.length_append] at hlen
        have hpermitted' : Permitted (marked last (y ++ xs)) (y ++ xs.take k) (xs.drop k) last := by
          rw [Permitted, hsplit]
          cases last with
          | false => exact .inl rfl
          | true => exact .inr ⟨rfl, rfl⟩
        obtain ⟨n, s'', out', status', hrun, hs'', hends'⟩ := ih (xs.drop k) hs' (hsplit ▸ hallowed)
          hpermitted' (os ++ out) (hsplit ▸ hbound) (by rw [List.length_append]; omega)
        refine ⟨n + 1, s'', out ++ out', status', fun fuel hfuel => ?_, ?_, ?_⟩
        · obtain ⟨fuel, rfl⟩ := Nat.exists_eq_add_of_le' (Nat.le_trans (Nat.succ_pos n) hfuel)
          rw [hstep, if_pos hfull, hrun fuel (Nat.le_of_succ_le_succ hfuel), List.append_assoc]
        · rw [hsplit, List.append_assoc] at hs''
          exact hs''
        · rw [hsplit, List.append_assoc] at hends'
          exact hends'
      · obtain ⟨rfl, hends'⟩ := hends (lt_of_le_of_ne hle hfull)
        rw [List.take_length] at hs'
        refine ⟨1, s', out, status, fun fuel hfuel => ?_, hs', hends'⟩
        obtain ⟨fuel, rfl⟩ := Nat.exists_eq_add_of_le' hfuel
        rw [hstep, if_neg hfull, List.drop_length]

end Follows

/-! ### Coders that collect what they take -/

/-- The coder that collects what it takes, and gives `output last y` once that is known for the
collected `y`. Its states are what it has collected, and how much it has given. -/
def buffered (output : Bool → List α → Option (List α)) : StreamCoder α (List α × ℕ) where
  init := some ([], 0)
  call s xs room last :=
    match output last (s.1 ++ xs) with
    | none => ((s.1 ++ xs, s.2), xs.length, [], .ok)
    | some o =>
        ((s.1 ++ xs, s.2 + ((o.drop s.2).take room).length), xs.length, (o.drop s.2).take room,
          if o.length < s.2 + room then .streamEnd else .ok)

/-- **Such a coder does what its documentation says**, if the known output does not change. -/
theorem follows_buffered (output : Bool → List α → Option (List α)) {allowed : List α → Prop}
    (hbounded : ∀ y, allowed y →
      ∃ n, ∀ last y' o, y' <+: y → output last y' = some o → o.length ≤ n)
    (hkeeps : ∀ last y xs o last', allowed (y ++ xs) → output last y = some o →
      (last = true → xs = [] ∧ last' = true) → output last' (y ++ xs) = some o) :
    (buffered output).Follows allowed
      (fun whole s y x => s = (y, x.length) ∧ (∀ t, whole = some t → t = y) ∧
        (x = [] ∨ ∃ o, output whole.isSome y = some o ∧ x <+: o))
      fun last y x status => (∀ o, output last y = some o → status = .streamEnd ∧ x = o) ∧
        (output last y = none → status = .ok) := by
  refine ⟨⟨_, rfl, ⟨rfl, by simp, .inl rfl⟩⟩, fun y hy => ?_, ?_⟩
  · obtain ⟨n, hn⟩ := hbounded y hy
    refine ⟨n, fun whole s y' x hy' hx => ?_⟩
    rcases hx.2.2 with rfl | ⟨o, ho, hle⟩
    · exact Nat.zero_le n
    · exact hle.length_le.trans (hn _ y' o hy' ho)
  · rintro whole s y x xs room last ⟨rfl, hwhole, hx⟩ hallowed hroom hpermitted
    have hmarked : ∀ t, marked last (y ++ xs) = some t → t = y ++ xs.take xs.length := by
      intro t ht
      rw [List.take_length]
      cases last with
      | false => exact nomatch ht
      | true => exact (Option.some.inj ht).symm
    have hsome : (marked last (y ++ xs)).isSome = last := by
      cases last <;> rfl
    -- What was known before is known still.
    have hsame : ∀ o, output whole.isSome y = some o → output last (y ++ xs) = some o := by
      refine fun o ho => hkeeps _ y xs o last hallowed ho fun hmark => ?_
      rcases hpermitted with rfl | ⟨rfl, hlast⟩
      · cases hmark
      · exact ⟨List.append_right_eq_self.1 (hwhole _ rfl), hlast⟩
    have hkept : ∀ o, output last (y ++ xs) = some o → x <+: o := by
      intro o ho
      rcases hx with rfl | ⟨o', ho', hle⟩
      · exact List.nil_prefix
      · rwa [Option.some.inj ((hsame o' ho').symm.trans ho)] at hle
    rcases hout : output last (y ++ xs) with _ | o
    · have hnil : x = [] := by
        refine hx.resolve_right ?_
        rintro ⟨o, ho, -⟩
        exact nomatch (hsame o ho).symm.trans hout
      refine ⟨(y ++ xs, x.length), [], .ok, xs.length, le_rfl,
        by rw [buffered]; dsimp only; rw [hout], ?_,
        Nat.zero_le _, .inl rfl, fun _ => ⟨rfl, fun o ho => (nomatch ho), fun _ => rfl⟩⟩
      rw [List.take_length] at hmarked ⊢
      exact ⟨by rw [List.append_nil], hmarked, .inl (by rw [hnil, List.append_nil])⟩
    · obtain ⟨rest, rfl⟩ := hkept o hout
      refine ⟨(y ++ xs, x.length + (rest.take room).length), rest.take room,
        if rest.length < room then .streamEnd else .ok, xs.length, le_rfl,
        ?_, ?_, ?_, ?_, ?_⟩
      · rw [buffered]
        dsimp only
        rw [hout]
        simp only [List.drop_left, List.length_append, Nat.add_lt_add_iff_left]
      · rw [List.take_length] at hmarked ⊢
        refine ⟨by rw [List.length_append], hmarked, .inr ⟨_, hsome ▸ hout, ?_⟩⟩
        exact (List.prefix_append_right_inj x).2 (List.take_prefix room rest)
      · exact List.length_take_le room rest
      · split_ifs
        · exact .inr (.inl rfl)
        · exact .inl rfl
      · intro hlt
        rw [List.length_take] at hlt
        have hshort : rest.length < room := by omega
        refine ⟨rfl, fun o ho => ?_, fun hnone => nomatch hnone⟩
        rw [if_pos hshort, List.take_of_length_le hshort.le]
        exact ⟨rfl, Option.some.inj ho⟩

end StreamCoder
