import Mathlib

/-!
# Batches of items that are accepted or refused

Items are sent in batches: the first item of a batch begins it, and the last one ends it.  The other
side accepts or refuses every item.  When an item is refused, so are all items behind it up to the
next one that begins a batch, and the sender may leave out the rest of the batch.  Here an item
comes with a flag that says that it is refused.

## Main definitions

* `Batch.Orderly` : the items of such a sequence, with their flags.
* `Batch.Groups` : the batches of a sequence.
* `Batch.verdict` : what becomes of a batch, as soon as that is certain.

## Main results

* `Batch.Orderly.concat`, `Batch.Orderly.refuse` : an item is added, and a batch is refused.
* `Batch.Groups.exists_concat` : what one more item adds to the verdicts.
* `Batch.Groups.length_eq` : when every batch has one.
-/

namespace Batch

variable {α : Type} {begins ends : α → Bool} {es fs : List (α × Bool)} {xs ys : List α} {x : α}
  {opens flag : Bool}

/-- What may follow an item: behind the end of a batch, another one begins; behind a refused item,
the batch goes on with refused ones; a batch begins behind the end of another one, or when the rest
of that was refused. -/
structure Next (begins ends : α → Bool) (e f : α × Bool) : Prop where
  begins_of_ends : ends e.1 = true → begins f.1 = true
  refused : e.2 = true → begins f.1 = false → f.2 = true
  settled : begins f.1 = true → ends e.1 = true ∨ e.2 = true

/-- Items that follow each other, the first of which begins a batch. -/
structure Orderly (begins ends : α → Bool) (es : List (α × Bool)) : Prop where
  chain : es.IsChain (Next begins ends)
  head : ∀ e ∈ es.head?, begins e.1 = true

/-- The last item is refused. -/
def LastRefused (es : List (α × Bool)) : Prop := ∃ e ∈ es.getLast?, e.2 = true

/-- Whether the next item begins a batch: it does so behind the end of a batch, and only there or
behind a refused item. -/
structure Awaits (ends : α → Bool) (es : List (α × Bool)) (opens : Bool) : Prop where
  opens_of_ends : ∀ e ∈ es.getLast?, ends e.1 = true → opens = true
  settled : opens = true → ∀ e ∈ es.getLast?, ends e.1 = true ∨ e.2 = true
  nil : es = [] → opens = true

theorem orderly_nil : Orderly begins ends ([] : List (α × Bool)) := ⟨.nil, nofun⟩

theorem awaits_nil : Awaits ends ([] : List (α × Bool)) true := ⟨nofun, nofun, fun _ => rfl⟩

theorem lastRefused_concat {e : α × Bool} : LastRefused (es ++ [e]) ↔ e.2 = true := by
  rw [LastRefused, List.getLast?_concat]
  exact ⟨fun ⟨_, heq, he⟩ => Option.some.inj heq ▸ he, fun he => ⟨e, rfl, he⟩⟩

theorem Orderly.of_append (h : Orderly begins ends (es ++ fs)) : Orderly begins ends es := by
  refine ⟨h.chain.left_of_append, fun e he => h.head e ?_⟩
  rw [List.head?_append, Option.mem_def.1 he]
  rfl

/-- What follows an item in the middle of a sequence. -/
theorem Orderly.next {e f : α × Bool} (h : Orderly begins ends (es ++ f :: fs))
    (he : e ∈ es.getLast?) : Next begins ends e f :=
  (List.isChain_append.1 h.chain).2.2 e he f rfl

/-- **An item is added**, unless it belongs to a batch that is refused. -/
theorem Orderly.concat (h : Orderly begins ends es) (hawaits : Awaits ends es (begins x))
    (hlast : begins x = false → ¬ LastRefused es) : Orderly begins ends (es ++ [(x, false)]) := by
  refine ⟨List.isChain_append.2 ⟨h.chain, .singleton _, ?_⟩, fun e he => ?_⟩
  · rintro e he _ ⟨⟩
    exact ⟨hawaits.opens_of_ends e he, fun hrefused hx => absurd ⟨e, he, hrefused⟩ (hlast hx),
      fun hx => hawaits.settled hx e he⟩
  · cases es with
    | nil =>
        obtain rfl := Option.some.inj he
        exact hawaits.nil rfl
    | cons f fs => exact h.head e he

/-- Behind an item that is not refused, a batch begins exactly if the item ends one. -/
theorem awaits_concat : Awaits ends (es ++ [(x, false)]) (ends x) := by
  refine ⟨fun e he hends => ?_, fun hends e he => ?_, fun hnil => ?_⟩
  · rw [List.getLast?_concat] at he
    obtain rfl := Option.some.inj he
    exact hends
  · rw [List.getLast?_concat] at he
    obtain rfl := Option.some.inj he
    exact .inl hends
  · exact absurd hnil (List.append_ne_nil_of_right_ne_nil _ (List.cons_ne_nil _ _))

/-- Whether a batch begins does not change when items are refused behind one that was not. -/
theorem Awaits.of_fst (h : Awaits ends es opens) (hlast : ¬ LastRefused es)
    (hfst : fs.map Prod.fst = es.map Prod.fst) : Awaits ends fs opens := by
  have hsame (f : α × Bool) (hf : f ∈ fs.getLast?) : ∃ e ∈ es.getLast?, e.1 = f.1 := by
    have hmap : f.1 ∈ (fs.map Prod.fst).getLast? := by
      rw [List.getLast?_map, Option.mem_def.1 hf]
      rfl
    rw [hfst, List.getLast?_map, Option.mem_def, Option.map_eq_some_iff] at hmap
    exact hmap
  refine ⟨fun f hf hends => ?_, fun hopens f hf => ?_, fun hnil => h.nil ?_⟩
  · obtain ⟨e, he, heq⟩ := hsame f hf
    exact h.opens_of_ends e he (heq ▸ hends)
  · obtain ⟨e, he, heq⟩ := hsame f hf
    exact .inl (heq ▸ (h.settled hopens e he).resolve_right fun hrefused => hlast ⟨e, he, hrefused⟩)
  · rw [hnil] at hfst
    exact List.map_eq_nil_iff.1 hfst.symm

/-- The items of a batch that is refused as far as it was sent. -/
theorem isChain_refused (h : (xs.map fun x => (x, false)).IsChain (Next begins ends))
    (hxs : ∀ x ∈ xs, begins x = false) :
    (xs.map fun x => (x, true)).IsChain (Next begins ends) := by
  rw [List.isChain_map] at h ⊢
  refine h.imp_of_mem_imp fun x y _ hy hnext =>
    ⟨hnext.begins_of_ends, fun _ _ => rfl, fun hbegins => ?_⟩
  rw [hxs y hy] at hbegins
  cases hbegins

/-- **An item is refused, with the rest of its batch.** -/
theorem Orderly.refuse {zs : List α}
    (h : Orderly begins ends (es ++ (x, false) :: (ys ++ zs).map fun y => (y, false)))
    (hys : ∀ y ∈ ys, begins y = false) (hzs : ∀ z ∈ zs.head?, begins z = true) :
    Orderly begins ends
      (es ++ (x, true) :: (ys.map (fun y => (y, true)) ++ zs.map fun z => (z, false))) := by
  obtain ⟨hchain, hhead⟩ := h
  rw [List.map_append] at hchain
  obtain ⟨hes, hrest, hjoin⟩ := List.isChain_append.1 hchain
  obtain ⟨hfirst, hrest⟩ := List.isChain_cons.1 hrest
  obtain ⟨hbatch, hbehind, hborder⟩ := List.isChain_append.1 hrest
  have hborder' : ∀ e : α × Bool, e.2 = true → ∀ f ∈ (zs.map fun z => (z, false)).head?,
      Next begins ends e f := by
    intro e he f hf
    rw [List.head?_map, Option.mem_def, Option.map_eq_some_iff] at hf
    obtain ⟨z, hz, rfl⟩ := hf
    have hbegins := hzs z hz
    exact ⟨fun _ => hbegins, fun _ hnot => absurd (hnot.symm.trans hbegins) Bool.false_ne_true,
      fun _ => .inr he⟩
  refine ⟨List.isChain_append.2 ⟨hes, List.isChain_cons.2 ⟨fun f hf => ?_, List.isChain_append.2
    ⟨isChain_refused hbatch hys, hbehind, fun e he => ?_⟩⟩, fun e he f hf => ?_⟩, fun e he => ?_⟩
  · cases ys with
    | nil => exact hborder' (x, true) rfl f hf
    | cons y ys =>
        obtain rfl := Option.some.inj hf
        have hnext := hfirst (y, false) rfl
        exact ⟨hnext.begins_of_ends, fun _ _ => rfl, fun hbegins => .inr rfl⟩
  · refine hborder' e ?_
    rw [List.getLast?_map, Option.mem_def, Option.map_eq_some_iff] at he
    obtain ⟨y, -, rfl⟩ := he
    rfl
  · obtain rfl := Option.some.inj hf
    have hnext := hjoin e he (x, false) rfl
    exact ⟨hnext.begins_of_ends, fun _ _ => rfl, hnext.settled⟩
  · cases es with
    | nil =>
        obtain rfl := Option.some.inj he
        exact hhead (x, false) rfl
    | cons f fs => exact hhead e he

/-! ### Batches -/

/-- **The batches of a sequence**: an item that begins a batch starts a new one, and any other one
belongs to the last one. -/
inductive Groups (begins : α → Bool) : List (α × Bool) → List (List (α × Bool)) → Prop where
  | nil : Groups begins [] []
  | start {es : List (α × Bool)} {gs : List (List (α × Bool))} {e : α × Bool}
      (h : Groups begins es gs) (he : begins e.1 = true) : Groups begins (es ++ [e]) (gs ++ [[e]])
  | more {es : List (α × Bool)} {gs : List (List (α × Bool))} {g : List (α × Bool)} {e : α × Bool}
      (h : Groups begins es (gs ++ [g])) (he : begins e.1 = false) :
      Groups begins (es ++ [e]) (gs ++ [g ++ [e]])

/-- **What becomes of a batch**: it is refused as soon as an item is; otherwise it is accepted when
its end is. -/
def verdict (ends : α → Bool) (g : List (α × Bool)) : Option Bool :=
  if g.any Prod.snd then some true
  else if g.getLast?.any fun e => ends e.1 then some false
  else none

/-- The verdicts that one more item adds. -/
def added (begins ends : α → Bool) (es : List (α × Bool)) : α × Bool → List Bool
  | (x, true) => if begins x = false ∧ es.getLast?.any Prod.snd then [] else [true]
  | (x, false) => if ends x then [false] else []

theorem Groups.nil_iff {gs : List (List (α × Bool))} (h : Groups begins es gs) :
    es = [] ↔ gs = [] := by
  cases h with
  | nil => exact iff_of_true rfl rfl
  | start h he => simp
  | more h he => simp

/-- In an orderly sequence, the last batch is refused exactly if its last item is. -/
theorem Groups.last {gs : List (List (α × Bool))} {g : List (α × Bool)}
    (h : Groups begins es (gs ++ [g])) (horderly : Orderly begins ends es) :
    g.getLast? = es.getLast? ∧ g.any Prod.snd = es.getLast?.any Prod.snd := by
  generalize hgs : gs ++ [g] = gs' at h
  induction h generalizing gs g with
  | nil => exact absurd hgs (List.append_ne_nil_of_right_ne_nil _ (List.cons_ne_nil _ _))
  | start h he ih =>
      obtain ⟨-, hg⟩ := List.append_inj' hgs rfl
      obtain rfl := List.head_eq_of_cons_eq hg
      rw [List.getLast?_concat]
      exact ⟨rfl, by simp⟩
  | @more es gs₀ g₀ e h he ih =>
      obtain ⟨-, hg⟩ := List.append_inj' hgs rfl
      obtain rfl := List.head_eq_of_cons_eq hg
      obtain ⟨hlast, hany⟩ := ih horderly.of_append rfl
      rw [List.getLast?_concat, List.getLast?_concat]
      refine ⟨rfl, ?_⟩
      rw [List.any_append, hany]
      cases hes : es.getLast? with
      | none => simp
      | some f =>
          have hnext := horderly.next (f := e) hes
          cases hf : f.2 with
          | true =>
              have htrue := hnext.refused hf he
              simp [htrue]
          | false => simp [hf]

/-- **One more item adds to the verdicts** what the sender of an orderly sequence can tell from the
item before it. -/
theorem Groups.exists_concat {gs : List (List (α × Bool))} {e : α × Bool} (h : Groups begins es gs)
    (horderly : Orderly begins ends (es ++ [e])) :
    ∃ gs', Groups begins (es ++ [e]) gs' ∧
      gs'.filterMap (verdict ends) = gs.filterMap (verdict ends) ++ added begins ends es e := by
  obtain ⟨x, refused⟩ := e
  cases hbegins : begins x with
  | true =>
      refine ⟨_, h.start hbegins, ?_⟩
      rw [List.filterMap_append]
      congr 1
      cases refused with
      | true => simp [verdict, added, hbegins]
      | false =>
          cases hends : ends x with
          | true => simp [verdict, added, hends]
          | false => simp [verdict, added, hends]
  | false =>
      rcases List.eq_nil_or_concat gs with rfl | ⟨gs, g, rfl⟩
      · obtain rfl := h.nil_iff.2 rfl
        exact absurd (horderly.head _ rfl) (by rw [hbegins]; exact Bool.false_ne_true)
      · rw [List.concat_eq_append] at h ⊢
        obtain ⟨hlast, hany⟩ := h.last horderly.of_append
        refine ⟨_, h.more hbegins, ?_⟩
        rw [List.filterMap_append, List.filterMap_append, List.append_assoc]
        congr 1
        cases hes : es.getLast? with
        | none =>
            rw [hes] at hlast hany
            cases refused with
            | true => simp [verdict, added, hlast, hany, hbegins, hes]
            | false =>
                cases hends : ends x with
                | true => simp [verdict, added, hlast, hany, hends]
                | false => simp [verdict, added, hlast, hany, hends]
        | some f =>
            have hnext := horderly.next hes
            have hends' : ends f.1 = false := by
              refine Bool.eq_false_iff.2 fun hends => ?_
              exact absurd ((hnext.begins_of_ends hends).symm.trans hbegins) Bool.noConfusion
            rw [hes] at hlast hany
            cases hf : f.2 with
            | true =>
                obtain rfl : refused = true := hnext.refused hf hbegins
                simp [verdict, added, hany, hbegins, hes, hf]
            | false =>
                cases refused with
                | true => simp [verdict, added, hlast, hany, hbegins, hes, hf, hends']
                | false =>
                    cases hends : ends x with
                    | true => simp [verdict, added, hlast, hany, hf, hends, hends']
                    | false => simp [verdict, added, hlast, hany, hf, hends, hends']

/-- The last batch has its verdict if another one may begin behind it. -/
theorem Groups.isSome_last {gs : List (List (α × Bool))} {g : List (α × Bool)}
    (h : Groups begins es (gs ++ [g])) (horderly : Orderly begins ends es)
    (hover : ∀ e ∈ es.getLast?, ends e.1 = true ∨ e.2 = true) : (verdict ends g).isSome := by
  obtain ⟨hlast, hany⟩ := h.last horderly
  rw [verdict, hany, hlast]
  cases hes : es.getLast? with
  | none =>
      have hnil := h.nil_iff.1 (List.getLast?_eq_none_iff.1 hes)
      exact absurd hnil (List.append_ne_nil_of_right_ne_nil _ (List.cons_ne_nil _ _))
  | some e =>
      cases hrefused : e.2 with
      | true => simp [hrefused]
      | false =>
          have hends := (hover e hes).resolve_right (by rw [hrefused]; exact Bool.false_ne_true)
          simp [hrefused, hends]

/-- **Every batch but the last has a verdict.** -/
theorem Groups.isSome_dropLast {gs : List (List (α × Bool))} (h : Groups begins es gs)
    (horderly : Orderly begins ends es) : ∀ g ∈ gs.dropLast, (verdict ends g).isSome := by
  induction h with
  | nil => exact nofun
  | @start es gs e h he ih =>
      rw [List.dropLast_concat]
      intro g hg
      rcases List.eq_nil_or_concat gs with rfl | ⟨gs, g', rfl⟩
      · cases hg
      · rw [List.concat_eq_append] at h ih hg
        rcases List.mem_append.1 hg with hg | hg
        · exact ih horderly.of_append g (by rwa [List.dropLast_concat])
        · obtain rfl := List.mem_singleton.1 hg
          exact h.isSome_last horderly.of_append fun f hf => (horderly.next hf).settled he
  | more h he ih =>
      rw [List.dropLast_concat] at ih ⊢
      exact ih horderly.of_append

/-- **Every batch has a verdict** if another one may begin behind the last one. -/
theorem Groups.length_eq {gs : List (List (α × Bool))} (h : Groups begins es gs)
    (horderly : Orderly begins ends es)
    (hover : ∀ e ∈ es.getLast?, ends e.1 = true ∨ e.2 = true) :
    (gs.filterMap (verdict ends)).length = gs.length := by
  rw [List.length_filterMap_eq_countP, List.countP_eq_length]
  intro g hg
  rcases List.eq_nil_or_concat gs with rfl | ⟨gs, g', rfl⟩
  · cases hg
  · rw [List.concat_eq_append] at h hg
    rcases List.mem_append.1 hg with hg | hg
    · exact h.isSome_dropLast horderly g (by rwa [List.dropLast_concat])
    · obtain rfl := List.mem_singleton.1 hg
      exact h.isSome_last horderly hover

/-- There are as many batches as items that begin one. -/
theorem Groups.length_eq_countP {gs : List (List (α × Bool))} (h : Groups begins es gs) :
    gs.length = (es.map Prod.fst).countP begins := by
  induction h with
  | nil => rfl
  | start h he ih => simp [ih, he]
  | more h he ih =>
      rw [List.length_append] at ih ⊢
      simpa [he] using ih

end Batch
