import IbrDtn.Data.Sdnv
import IbrDtn.Library.Runs

/-!
# Taking strings apart

This file models `Utils::tokenize` of `ibrdtn/utils/Utils.cpp`.  Two positions move through the
string: the start of a token and its end, each of which may be `std::string::npos`.  With a maximum,
the search stops behind as many tokens, and the rest of the string is the last one.

The rest is taken without a look at where it starts.  Nothing starts there when the string has as
many tokens as the maximum, and `substr` throws: a header line without a value is such a string for
the parsers that look for one separator.

## Main definitions

* `Utils.findFirstOf`, `Utils.findFirstNotOf`, `Utils.substr` : the members of `std::string`.
* `Utils.tokenize`.
* `Utils.Limits` : what a maximum asks for.

## Main results

* `Utils.tokenize_none`, `Utils.tokenize_some` : the tokens, without and with a maximum.
* `Utils.limits_iff` : for which strings a maximum does what it asks for.
-/

namespace IbrDtn

namespace Utils

/-- `std::out_of_range`. -/
inductive OutOfRange where
  | outOfRange (what : String)
deriving DecidableEq, Repr

/-- The first position from the given one on whose byte satisfies `p`; there is none from
`std::string::npos` on. -/
def findFirst (p : UInt8 → Bool) (data : Bytes) : Option ℕ → Option ℕ
  | none => none
  | some pos =>
      let pos := pos + (data.drop pos).findIdx p
      if pos < data.length then some pos else none

/-- `data.find_first_of(token, pos)`. -/
def findFirstOf (token data : Bytes) (pos : Option ℕ) : Option ℕ :=
  findFirst token.contains data pos

/-- `data.find_first_not_of(token, pos)`. -/
def findFirstNotOf (token data : Bytes) (pos : Option ℕ) : Option ℕ :=
  findFirst (fun b => !token.contains b) data pos

/-- `data.substr(pos, n)`, where a count that comes from `std::string::npos` is none. -/
def substr (data : Bytes) (pos n : Option ℕ) : Except OutOfRange Bytes :=
  match pos with
  | none => .error (.outOfRange "basic_string::substr")
  | some pos =>
      if data.length < pos then .error (.outOfRange "basic_string::substr")
      else .ok (n.elim (data.drop pos) (data.drop pos).take)

/-- The loop of `tokenize`, with the tokens that were found so far. It moves on in every round. -/
def tokenizeLoop (token data : Bytes) (max : Option ℕ) :
    ℕ → Option ℕ → Option ℕ → List Bytes → Except OutOfRange (List Bytes)
  | 0, _, _, l => .ok l
  | rounds + 1, lastPos, pos, l =>
      if pos ≠ none ∨ lastPos ≠ none then do
        let value ← substr data lastPos (pos.map (· - lastPos.getD 0))
        let l := l ++ [value]
        let lastPos := findFirstNotOf token data pos
        let pos := findFirstOf token data lastPos
        if max.any (· ≤ l.length) then do
          let rest ← substr data lastPos (some (data.length - lastPos.getD 0))
          pure (l ++ [rest])
        else tokenizeLoop token data max rounds lastPos pos l
      else pure l

/-- `Utils::tokenize`, where the maximum `std::string::npos` is none. -/
def tokenize (token data : Bytes) (max : Option ℕ) : Except OutOfRange (List Bytes) :=
  let lastPos := findFirstNotOf token data (some 0)
  let pos := findFirstOf token data lastPos
  tokenizeLoop token data max (data.length + 1) lastPos pos []

/-! ### Positions and what is behind them -/

/-- A byte of the delimiter set. -/
def isDelimiter (token : Bytes) (b : UInt8) : Bool := token.contains b

/-- What is behind a position: nothing behind `std::string::npos`. -/
def Denotes (data : Bytes) (pos : Option ℕ) (s : Bytes) : Prop :=
  match pos with
  | none => s = []
  | some i => i < data.length ∧ data.drop i = s

variable {token data s : Bytes} {lastPos pos : Option ℕ}

theorem Denotes.findFirst (h : Denotes data pos s) (p : UInt8 → Bool) :
    Denotes data (findFirst p data pos) (s.dropWhile fun b => !p b) := by
  cases pos with
  | none =>
      obtain rfl : s = [] := h
      rfl
  | some i =>
      obtain ⟨hi, rfl⟩ := h
      have hdrop : data.drop (i + (data.drop i).findIdx p) =
          (data.drop i).dropWhile fun b => !p b := by
        rw [List.dropWhile_eq_drop_findIdx_not, List.drop_drop]
        simp
      rw [Utils.findFirst]
      split_ifs with hlt
      · exact ⟨hlt, hdrop⟩
      · rw [Denotes, ← hdrop, List.drop_eq_nil_iff]
        exact not_lt.1 hlt

/-- The part between two positions. -/
theorem Denotes.substr (h : Denotes data lastPos s) (hne : s ≠ []) {p : UInt8 → Bool}
    (hend : Denotes data pos (s.dropWhile p)) :
    Utils.substr data lastPos (pos.map (· - lastPos.getD 0)) = .ok (s.takeWhile p) := by
  cases lastPos with
  | none => exact absurd h hne
  | some i =>
      obtain ⟨hi, rfl⟩ := h
      have hwhole := List.takeWhile_append_dropWhile (p := p) (l := data.drop i)
      rw [Utils.substr, if_neg hi.le.not_gt]
      cases pos with
      | none =>
          rw [show (data.drop i).dropWhile p = [] from hend, List.append_nil] at hwhole
          rw [hwhole]
          rfl
      | some j =>
          obtain ⟨hj, hrest⟩ := hend
          have hlen := congrArg List.length hwhole
          rw [List.length_append, ← hrest, List.length_drop, List.length_drop] at hlen
          have htake : ((data.drop i).takeWhile p).length = j - i := by omega
          have hword := @List.take_left _ ((data.drop i).takeWhile p) ((data.drop i).dropWhile p)
          rw [hwhole] at hword
          rw [Option.map_some, Option.getD_some, ← htake]
          exact congrArg Except.ok hword

/-- The rest from a position on. -/
theorem Denotes.substr_rest (h : Denotes data lastPos s) :
    Utils.substr data lastPos (some (data.length - lastPos.getD 0)) =
      if s = [] then .error (.outOfRange "basic_string::substr") else .ok s := by
  cases lastPos with
  | none =>
      obtain rfl : s = [] := h
      rfl
  | some i =>
      obtain ⟨hi, rfl⟩ := h
      rw [Utils.substr, if_neg hi.le.not_gt, if_neg (by rw [List.drop_eq_nil_iff]; exact hi.not_ge),
        Option.getD_some, ← List.length_drop]
      exact congrArg Except.ok List.take_length

/-! ### The tokens -/

/-- **A round of the loop** takes a token and moves on to the next one. -/
theorem tokenizeLoop_round (max : Option ℕ) (rounds : ℕ) (l : List Bytes)
    (h : Denotes data lastPos s) (hne : s ≠ [])
    (hend : Denotes data pos (s.dropWhile fun b => !isDelimiter token b)) :
    ∃ lastPos' pos',
      Denotes data lastPos' ((s.dropWhile fun b => !isDelimiter token b).dropWhile
        (isDelimiter token)) ∧
      Denotes data pos' (((s.dropWhile fun b => !isDelimiter token b).dropWhile
        (isDelimiter token)).dropWhile fun b => !isDelimiter token b) ∧
      tokenizeLoop token data max (rounds + 1) lastPos pos l =
        let l' := l ++ [s.takeWhile fun b => !isDelimiter token b]
        if max.any (· ≤ l'.length) then do
          let rest ← Utils.substr data lastPos' (some (data.length - lastPos'.getD 0))
          pure (l' ++ [rest])
        else tokenizeLoop token data max rounds lastPos' pos' l' := by
  have hlast : Denotes data (findFirstNotOf token data pos)
      ((s.dropWhile fun b => !isDelimiter token b).dropWhile (isDelimiter token)) := by
    have hnext := hend.findFirst fun b => !token.contains b
    simp only [Bool.not_not] at hnext
    exact hnext
  refine ⟨_, _, hlast, hlast.findFirst token.contains, ?_⟩
  have hsome : pos ≠ none ∨ lastPos ≠ none := by
    refine Or.inr fun hnone => hne ?_
    subst hnone
    exact h
  rw [tokenizeLoop, if_pos hsome, h.substr hne hend]
  rfl

theorem tokenizeLoop_end (max : Option ℕ) (rounds : ℕ) (l : List Bytes)
    (h : Denotes data lastPos []) (hend : Denotes data pos []) :
    tokenizeLoop token data max rounds lastPos pos l = .ok l := by
  have hnone {pos : Option ℕ} (h : Denotes data pos []) : pos = none := by
    cases pos with
    | none => rfl
    | some i => exact absurd h.2 (by rw [List.drop_eq_nil_iff]; exact h.1.not_ge)
  obtain rfl := hnone h
  obtain rfl := hnone hend
  cases rounds with
  | zero => rfl
  | succ rounds =>
      rw [tokenizeLoop, if_neg (by simp)]
      rfl

/-- The tokens of a string: its runs without delimiters. -/
def tokens (token data : Bytes) : List Bytes := List.runs (isDelimiter token) data

/-- The string behind some of its tokens, from the next one on. -/
def behindTokens (token : Bytes) (m : ℕ) (data : Bytes) : Bytes :=
  List.behindRuns (isDelimiter token) m data

/-- **Without a maximum**, the loop collects all tokens. -/
theorem tokenizeLoop_none (rounds : ℕ) (l : List Bytes) (h : Denotes data lastPos s)
    (hend : Denotes data pos (s.dropWhile fun b => !isDelimiter token b))
    (hstart : s.dropWhile (isDelimiter token) = s) (hrounds : s.length ≤ rounds) :
    tokenizeLoop token data none rounds lastPos pos l = .ok (l ++ tokens token s) := by
  induction rounds generalizing s lastPos pos l with
  | zero =>
      obtain rfl := List.length_eq_zero_iff.1 (Nat.le_zero.1 hrounds)
      rw [tokenizeLoop_end none 0 l h hend]
      simp [tokens]
  | succ rounds ih =>
      by_cases hne : s = []
      · subst hne
        rw [tokenizeLoop_end none _ l h hend]
        simp [tokens]
      · obtain ⟨lastPos', pos', hlast, hpos, hround⟩ := tokenizeLoop_round none rounds l h hne hend
        have hshorter := List.length_dropWhile_not_lt hne hstart
        have hle := (List.dropWhile_sublist (isDelimiter token)
          (l := s.dropWhile fun b => !isDelimiter token b)).length_le
        rw [hround]
        dsimp only
        rw [Option.any_none, if_neg Bool.false_ne_true,
          ih _ hlast hpos (List.dropWhile_idempotent _ _) (by omega), tokens, tokens,
          List.runs_eq_cons (l := s) (by rwa [hstart]), hstart, List.runs_dropWhile]
        simp

/-- The number of tokens a maximum leaves room for is above zero: the loop collects that many
tokens, and then the rest. -/
theorem tokenizeLoop_some {m k : ℕ} (rounds : ℕ) (l : List Bytes) (h : Denotes data lastPos s)
    (hend : Denotes data pos (s.dropWhile fun b => !isDelimiter token b))
    (hstart : s.dropWhile (isDelimiter token) = s) (hrounds : s.length ≤ rounds)
    (hk : l.length + (k + 1) = m) :
    tokenizeLoop token data (some m) rounds lastPos pos l =
      if (tokens token s).length = k + 1 then .error (.outOfRange "basic_string::substr")
      else .ok (l ++ ((tokens token s).take (k + 1) ++
        if (tokens token s).length ≤ k + 1 then [] else [behindTokens token (k + 1) s])) := by
  induction rounds generalizing s lastPos pos l k with
  | zero =>
      obtain rfl := List.length_eq_zero_iff.1 (Nat.le_zero.1 hrounds)
      rw [tokenizeLoop_end _ 0 l h hend]
      simp [tokens]
  | succ rounds ih =>
      by_cases hne : s = []
      · subst hne
        rw [tokenizeLoop_end _ _ l h hend]
        simp [tokens]
      · obtain ⟨lastPos', pos', hlast, hpos, hround⟩ :=
          tokenizeLoop_round (some m) rounds l h hne hend
        have hshorter := List.length_dropWhile_not_lt hne hstart
        have hle := (List.dropWhile_sublist (isDelimiter token)
          (l := s.dropWhile fun b => !isDelimiter token b)).length_le
        have htokens : tokens token s = (s.takeWhile fun b => !isDelimiter token b) ::
            tokens token ((s.dropWhile fun b => !isDelimiter token b).dropWhile
              (isDelimiter token)) := by
          rw [tokens, tokens, List.runs_eq_cons (l := s) (by rwa [hstart]), hstart,
            List.runs_dropWhile]
        have hbehind : behindTokens token (k + 1) s = behindTokens token k
            ((s.dropWhile fun b => !isDelimiter token b).dropWhile (isDelimiter token)) := by
          rw [behindTokens, behindTokens, List.behindRuns, hstart, List.behindRuns_dropWhile]
        rw [hround]
        generalize hs' : (s.dropWhile fun b => !isDelimiter token b).dropWhile
          (isDelimiter token) = s' at *
        generalize s.takeWhile (fun b => !isDelimiter token b) = value at *
        cases k with
        | zero =>
            have hmax : (some m).any (· ≤ (l ++ [value]).length) = true := by simp; omega
            dsimp only
            rw [if_pos hmax, hlast.substr_rest, htokens]
            have hnil : s' = [] ↔ tokens token s' = [] := by
              rw [tokens, List.runs_eq_nil_iff, ← hs', List.dropWhile_idempotent]
            by_cases hs : s' = []
            · rw [if_pos hs, if_pos (by simp [hnil.1 hs])]
              rfl
            · have hlen : 0 < (tokens token s').length :=
                List.length_pos_of_ne_nil (mt hnil.2 hs)
              have hrest : behindTokens token 0 s' = s' := by
                rw [behindTokens, List.behindRuns, ← hs', List.dropWhile_idempotent]
              rw [if_neg hs, if_neg (by rw [List.length_cons]; omega),
                if_neg (by rw [List.length_cons]; omega), hbehind, hrest]
              simp
        | succ k =>
            have hmax : ¬ (some m).any (· ≤ (l ++ [value]).length) = true := by simp; omega
            dsimp only
            rw [if_neg hmax, ih (k := k) _ hlast hpos (by rw [← hs', List.dropWhile_idempotent])
              (by omega) (by simp; omega), htokens, hbehind]
            simp

theorem denotes_start (token data : Bytes) :
    Denotes data (findFirstNotOf token data (some 0)) (data.dropWhile (isDelimiter token)) := by
  cases data with
  | nil => rfl
  | cons b data =>
      have h : Denotes (b :: data) (some 0) (b :: data) := ⟨Nat.succ_pos _, rfl⟩
      have hstart := h.findFirst fun b => !token.contains b
      simp only [Bool.not_not] at hstart
      exact hstart

/-- **Without a maximum**, a string is taken apart into its tokens. -/
theorem tokenize_none (token data : Bytes) :
    tokenize token data none = .ok (tokens token data) := by
  have hstart := denotes_start token data
  have hend : Denotes data (findFirstOf token data (findFirstNotOf token data (some 0))) _ :=
    hstart.findFirst token.contains
  have hle := (List.dropWhile_sublist (isDelimiter token) (l := data)).length_le
  rw [tokenize, tokenizeLoop_none _ [] hstart hend (List.dropWhile_idempotent _ _) (by omega),
    tokens, List.runs_dropWhile]
  rfl

/-- **With a maximum**, as many tokens and the rest of the string are found; the rest is missing
when there are exactly as many tokens. -/
theorem tokenize_some {m : ℕ} (hm : 1 ≤ m) (token data : Bytes) :
    tokenize token data (some m) =
      if (tokens token data).length = m then .error (.outOfRange "basic_string::substr")
      else .ok ((tokens token data).take m ++
        if (tokens token data).length ≤ m then [] else [behindTokens token m data]) := by
  obtain ⟨k, rfl⟩ := Nat.exists_eq_add_of_le' hm
  have hstart := denotes_start token data
  have hend : Denotes data (findFirstOf token data (findFirstNotOf token data (some 0))) _ :=
    hstart.findFirst token.contains
  have hle := (List.dropWhile_sublist (isDelimiter token) (l := data)).length_le
  rw [tokenize, tokenizeLoop_some _ [] hstart hend (List.dropWhile_idempotent _ _) (by omega)
    (Nat.zero_add _), tokens, tokens,
    behindTokens, behindTokens, List.runs_dropWhile, List.behindRuns_dropWhile, List.nil_append]

/-- What a maximum asks for: the call returns; there is at most one string more than the maximum;
the first ones are the first tokens, and if there are more tokens, then the last one is the rest of
the string, from the next token on. -/
def Limits (token data : Bytes) (m : ℕ) : Prop :=
  ∃ l, tokenize token data (some m) = .ok l ∧ l.length ≤ m + 1 ∧
    l.take m = (tokens token data).take m ∧
    l.drop m = if (tokens token data).length ≤ m then [] else [behindTokens token m data]

/-- **A maximum does what it asks for exactly when the string does not have exactly as many
tokens.** -/
theorem limits_iff {m : ℕ} (hm : 1 ≤ m) (token data : Bytes) :
    Limits token data m ↔ (tokens token data).length ≠ m := by
  rw [Limits, tokenize_some hm]
  by_cases h : (tokens token data).length = m
  · rw [if_pos h]
    exact iff_of_false (fun ⟨l, hl, _⟩ => nomatch hl) (not_not.2 h)
  · rw [if_neg h]
    refine iff_of_true ⟨_, rfl, ?_, ?_, ?_⟩ h
    · rw [List.length_append, List.length_take]
      split_ifs <;> simp
    · split_ifs with hle
      · rw [List.append_nil, List.take_take, min_self]
      · exact List.take_left' (by rw [List.length_take]; omega)
    · split_ifs with hle
      · rw [List.append_nil, List.drop_take, Nat.sub_self, List.take_zero]
      · exact List.drop_left' (by rw [List.length_take]; omega)

/-- A line of a header with more than one separator. -/
theorem limits_iff_sample :
    Limits (ascii [':']) (ascii ['S', ':', ' ', 'd', 't', 'n', ':', 'n', 'o', 'n', 'e']) 1 :=
  (limits_iff le_rfl _ _).2 (by decide)

/-- **A line of a header without a value** ends in an exception. -/
theorem not_limits_empty :
    tokenize (ascii [':']) (ascii ['S', 'o', 'u', 'r', 'c', 'e', ':']) (some 1) =
        .error (.outOfRange "basic_string::substr") ∧
      ¬ Limits (ascii [':']) (ascii ['S', 'o', 'u', 'r', 'c', 'e', ':']) 1 := by
  have h : tokenize (ascii [':']) (ascii ['S', 'o', 'u', 'r', 'c', 'e', ':']) (some 1) =
      .error (.outOfRange "basic_string::substr") := by decide
  exact ⟨h, fun ⟨l, hl, _⟩ => nomatch h.symm.trans hl⟩

end Utils

end IbrDtn
