import Preflight.Balance
import Preflight.Proofs.Location

/-!
This module contains which bracket the check of the brackets complains about: the first one that
closes nothing, or else the earliest one that stays open.
-/

namespace Preflight

namespace Balance

def depth (family : Family) (tokens : List Token) : Int :=
  tokens.countP (Bracket.ofToken? · = some (.opens family))
    - tokens.countP (Bracket.ofToken? · = some (.closes family))

def ClosesNothing (front : List Token) (token : Token) (_back : List Token) : Prop :=
  ∃ family, Bracket.ofToken? token = some (.closes family) ∧ depth family front = 0

/--
An opening bracket after which there are always more brackets of its family open than before it.
-/
def StaysOpen (front : List Token) (token : Token) (back : List Token) : Prop :=
  ∃ family, Bracket.ofToken? token = some (.opens family) ∧
    ∀ middle, middle <+: back → depth family front < depth family (front ++ token :: middle)

structure IsFirst (p : List Token → Token → List Token → Prop) (front : List Token) (token : Token)
    (back : List Token) : Prop where
  holds : p front token back
  first : ∀ front' token' back', front ++ token :: back = front' ++ token' :: back' →
    p front' token' back' → front.length ≤ front'.length

/--
The first bracket that closes nothing, or the first one that stays open if there is none that closes
nothing.
-/
def IsOdd (front : List Token) (token : Token) (back : List Token) : Prop :=
  IsFirst ClosesNothing front token back ∨
    (∀ front' token' back', front ++ token :: back = front' ++ token' :: back' →
      ¬ ClosesNothing front' token' back') ∧
    IsFirst StaysOpen front token back

def IsIncreasing (tokens : List Token) : Prop :=
  tokens.Pairwise fun a b => (Bracket.ofToken? a).isSome → (Bracket.ofToken? b).isSome →
    a.source.isBefore b.source = true

theorem depth_append (family : Family) (front back : List Token) :
    depth family (front ++ back) = depth family front + depth family back := by
  unfold depth
  rw [List.countP_append, List.countP_append]
  omega

section token

variable {token : Token} {family other : Family}

theorem depth_concat_of_none (h : Bracket.ofToken? token = none) (done : List Token) :
    depth family (done ++ [token]) = depth family done := by
  rw [depth_append]
  simp [depth, h]

theorem depth_concat_of_opens (h : Bracket.ofToken? token = some (.opens other))
    (done : List Token) :
    depth family (done ++ [token]) = depth family done + if family = other then 1 else 0 := by
  rw [depth_append]
  by_cases hfamily : family = other
  · simp [depth, h, hfamily]
  · simp [depth, h, hfamily, Ne.symm hfamily]

theorem depth_concat_of_closes (h : Bracket.ofToken? token = some (.closes other))
    (done : List Token) :
    depth family (done ++ [token]) = depth family done - if family = other then 1 else 0 := by
  rw [depth_append]
  by_cases hfamily : family = other
  · simp [depth, h, hfamily]
    rfl
  · simp [depth, h, hfamily, Ne.symm hfamily]

end token

def toggle (quote : Option Token) (token : Token) : Option Token :=
  if token.kind = .quote then
    match quote with
    | none => some token
    | some opening => if opening.text = token.text then none else some opening
  else quote

def openQuote (tokens : List Token) : Option Token := tokens.foldl toggle none

theorem openQuote_concat (done : List Token) (token : Token) :
    openQuote (done ++ [token]) = toggle (openQuote done) token := by
  simp [openQuote]

theorem concat_eq_append_cons {done front back : List Token} {token token' : Token}
    (h : done ++ [token] = front ++ token' :: back) :
    (done = front ∧ token = token') ∨ ∃ back', done = front ++ token' :: back' := by
  obtain rfl | ⟨back', last, rfl⟩ := List.eq_nil_or_concat back
  · obtain ⟨rfl, hlast⟩ := List.append_inj' h rfl
    exact .inl ⟨rfl, (List.cons.inj hlast).1⟩
  · rw [List.concat_eq_append, ← List.cons_append, ← List.append_assoc] at h
    exact .inr ⟨back', (List.append_inj' h rfl).1⟩

structure Tracks (done : List Token) (state : State) : Prop where
  not_closesNothing : ∀ front token back, done = front ++ token :: back →
    ¬ ClosesNothing front token back
  nonneg : ∀ family front, front <+: done → 0 ≤ depth family front
  length : ∀ family, ((state.brackets family).length : Int) = depth family done
  outermost : ∀ family source, (state.brackets family).getLast? = some source →
    ∃ front token back, done = front ++ token :: back ∧ token.source = source ∧
      Bracket.ofToken? token = some (.opens family) ∧ depth family front = 0 ∧
      ∀ middle, middle <+: back → 0 < depth family (front ++ token :: middle)
  quote : state.quote = openQuote done

theorem tracks_empty : Tracks [] State.empty := by
  constructor
  case not_closesNothing => simp
  case nonneg =>
    intro family front hfront
    rw [List.prefix_nil.1 hfront]
    exact Int.le_refl 0
  case length => exact fun family => rfl
  case outermost =>
    intro family source h
    contradiction
  case quote => rfl

section step

variable {done : List Token} {state state' : State} {token : Token}

theorem Tracks.concat (h : Tracks done state) (hcloses : ¬ ClosesNothing done token [])
    (hlength : ∀ family,
      ((state'.brackets family).length : Int) = depth family (done ++ [token]))
    (hlast : ∀ family source, (state'.brackets family).getLast? = some source →
      (state.brackets family).getLast? = some source ∨
        (state.brackets family = [] ∧ token.source = source ∧
          Bracket.ofToken? token = some (.opens family)))
    (hquote : state'.quote = toggle state.quote token) : Tracks (done ++ [token]) state' := by
  have hpos : ∀ family source, (state'.brackets family).getLast? = some source →
      0 < depth family (done ++ [token]) := by
    intro family source hsource
    have hne : state'.brackets family ≠ [] := by
      intro hnil
      rw [hnil] at hsource
      contradiction
    rw [← hlength family]
    exact Int.natCast_pos.2 (List.length_pos_iff.2 hne)
  constructor
  case not_closesNothing =>
    intro front token' back hsplit
    obtain ⟨rfl, rfl⟩ | ⟨back', hback'⟩ := concat_eq_append_cons hsplit
    · exact hcloses
    · exact h.not_closesNothing front token' back' hback'
  case nonneg =>
    intro family front hfront
    obtain rfl | hfront := List.prefix_concat_iff.1 hfront
    · rw [← hlength family]
      exact Int.natCast_nonneg _
    · exact h.nonneg family front hfront
  case length => exact hlength
  case outermost =>
    intro family source hsource
    obtain hold | ⟨hnil, hnew, hopens⟩ := hlast family source hsource
    · obtain ⟨front, opener, back, rfl, hopener, hopens, hzero, hstays⟩ :=
        h.outermost family source hold
      -- It is still open after the new token, or there would be no outermost bracket now.
      refine ⟨front, opener, back ++ [token], by simp, hopener, hopens, hzero, ?_⟩
      intro middle hmiddle
      obtain rfl | hmiddle := List.prefix_concat_iff.1 hmiddle
      · have := hpos family source hsource
        rwa [List.append_assoc, List.cons_append] at this
      · exact hstays middle hmiddle
    · refine ⟨done, token, [], rfl, hnew, hopens, ?_, ?_⟩
      · rw [← h.length family, hnil]
        rfl
      · intro middle hmiddle
        rw [List.prefix_nil.1 hmiddle]
        exact hpos family source hsource
  case quote => rw [hquote, h.quote, openQuote_concat]

theorem kind_eq_bracket_of_ofToken? {bracket : Bracket}
    (h : Bracket.ofToken? token = some bracket) : token.kind = .bracket := by
  unfold Bracket.ofToken? at h
  split at h
  · assumption
  · contradiction

theorem toggle_of_ofToken? {bracket : Bracket} (h : Bracket.ofToken? token = some bracket)
    (quote : Option Token) : toggle quote token = quote := by
  unfold toggle
  rw [if_neg]
  rw [kind_eq_bracket_of_ofToken? h]
  decide

namespace State

variable (state token)

theorem quote_toggleQuote (h : token.kind = .quote) :
    (state.toggleQuote token).quote = toggle state.quote token := by
  unfold toggleQuote toggle
  rw [if_pos h]
  split
  · simp_all
  · split <;> simp_all

theorem brackets_toggleQuote : (state.toggleQuote token).brackets = state.brackets := by
  unfold toggleQuote
  split
  · rfl
  · split <;> rfl

theorem step_cases :
    (Bracket.ofToken? token = none ∧
        ∃ state', state.step token = .ok state' ∧ state'.brackets = state.brackets ∧
          state'.quote = toggle state.quote token) ∨
      (∃ family, Bracket.ofToken? token = some (.opens family) ∧
        state.step token =
          .ok (state.withBrackets family (token.source :: state.brackets family))) ∨
      (∃ family source outer, Bracket.ofToken? token = some (.closes family) ∧
        state.brackets family = source :: outer ∧
        state.step token = .ok (state.withBrackets family outer)) ∨
      (∃ family, Bracket.ofToken? token = some (.closes family) ∧ state.brackets family = [] ∧
        state.step token = .error ⟨.extraCloser family.closer, token.source, 1⟩) := by
  by_cases hquote : token.kind = .quote
  · have hnone : Bracket.ofToken? token = none := by
      cases hbracket : Bracket.ofToken? token with
      | none => rfl
      | some bracket =>
        rw [kind_eq_bracket_of_ofToken? hbracket] at hquote
        contradiction
    refine .inl ⟨hnone, state.toggleQuote token, ?_, brackets_toggleQuote state token,
      quote_toggleQuote state token hquote⟩
    simp [step, hquote]
  · cases hbracket : Bracket.ofToken? token with
    | none =>
      refine .inl ⟨rfl, state, ?_, rfl, (if_neg hquote).symm⟩
      simp [step, hbracket]
    | some bracket =>
      cases bracket with
      | opens family => exact .inr (.inl ⟨family, rfl, by simp [step, hbracket]⟩)
      | closes family =>
        cases hfamily : state.brackets family with
        | nil => exact .inr (.inr (.inr ⟨family, rfl, hfamily, by simp [step, hbracket, hfamily]⟩))
        | cons source outer =>
          exact .inr (.inr (.inl
            ⟨family, source, outer, rfl, hfamily, by simp [step, hbracket, hfamily]⟩))

end State

@[simp]
theorem State.brackets_withBrackets (state : State) (family other : Family)
    (locations : List Location) :
    (state.withBrackets family locations).brackets other =
      if other = family then locations else state.brackets other := rfl

namespace Tracks

theorem concat_of_none (h : Tracks done state) (hnone : Bracket.ofToken? token = none)
    (hbrackets : state'.brackets = state.brackets)
    (hquote : state'.quote = toggle state.quote token) : Tracks (done ++ [token]) state' := by
  apply h.concat
  case hcloses =>
    rintro ⟨family, hcloses, -⟩
    rw [hnone] at hcloses
    contradiction
  case hlength =>
    intro family
    rw [hbrackets, depth_concat_of_none hnone, h.length]
  case hlast =>
    intro family source hsource
    rw [hbrackets] at hsource
    exact .inl hsource
  case hquote => exact hquote

theorem concat_of_opens (h : Tracks done state) {family : Family}
    (hopens : Bracket.ofToken? token = some (.opens family)) :
    Tracks (done ++ [token])
      (state.withBrackets family (token.source :: state.brackets family)) := by
  apply h.concat
  case hcloses =>
    rintro ⟨other, hcloses, -⟩
    rw [hopens] at hcloses
    cases hcloses
  case hlength =>
    intro other
    rw [depth_concat_of_opens hopens, State.brackets_withBrackets, ← h.length]
    split <;> simp_all
  case hlast =>
    intro other source hsource
    rw [State.brackets_withBrackets] at hsource
    split at hsource
    case isTrue hother =>
      subst hother
      cases hbrackets : state.brackets other with
      | nil =>
        rw [hbrackets] at hsource
        exact .inr ⟨rfl, Option.some.inj hsource, hopens⟩
      | cons inner rest =>
        rw [hbrackets, List.getLast?_cons_cons] at hsource
        exact .inl hsource
    case isFalse => exact .inl hsource
  case hquote => exact (toggle_of_ofToken? hopens state.quote).symm

theorem concat_of_closes (h : Tracks done state) {family : Family} {source : Location}
    {outer : List Location} (hcloses : Bracket.ofToken? token = some (.closes family))
    (hfamily : state.brackets family = source :: outer) :
    Tracks (done ++ [token]) (state.withBrackets family outer) := by
  apply h.concat
  case hcloses =>
    rintro ⟨other, hother, hzero⟩
    rw [hcloses] at hother
    cases hother
    rw [← h.length, hfamily, List.length_cons] at hzero
    omega
  case hlength =>
    intro other
    rw [depth_concat_of_closes hcloses, State.brackets_withBrackets, ← h.length]
    split <;> simp_all
  case hlast =>
    intro other source' hsource
    rw [State.brackets_withBrackets] at hsource
    split at hsource
    case isTrue hother =>
      subst hother
      rw [hfamily]
      cases outer with
      | nil => contradiction
      | cons inner rest => exact .inl (by rwa [List.getLast?_cons_cons])
    case isFalse => exact .inl hsource
  case hquote => exact (toggle_of_ofToken? hcloses state.quote).symm

theorem step (h : Tracks done state) (token : Token) :
    (∃ state', state.step token = .ok state' ∧ Tracks (done ++ [token]) state') ∨
      ∃ family, Bracket.ofToken? token = some (.closes family) ∧ depth family done = 0 ∧
        state.step token = .error ⟨.extraCloser family.closer, token.source, 1⟩ := by
  obtain ⟨hnone, state', hstep, hbrackets, hquote⟩ | ⟨family, hopens, hstep⟩ |
    ⟨family, source, outer, hcloses, hfamily, hstep⟩ | ⟨family, hcloses, hfamily, hstep⟩ :=
    state.step_cases token
  · exact .inl ⟨state', hstep, h.concat_of_none hnone hbrackets hquote⟩
  · exact .inl ⟨_, hstep, h.concat_of_opens hopens⟩
  · exact .inl ⟨_, hstep, h.concat_of_closes hcloses hfamily⟩
  · refine .inr ⟨family, hcloses, ?_, hstep⟩
    rw [← h.length, hfamily]
    rfl

end Tracks

end step

theorem Tracks.foldlM_step (tokens : List Token) : ∀ {done : List Token} {state : State},
    Tracks done state →
    (∃ state', tokens.foldlM State.step state = .ok state' ∧ Tracks (done ++ tokens) state') ∨
      ∃ front token back family passed, tokens = front ++ token :: back ∧
        Tracks (done ++ front) passed ∧ Bracket.ofToken? token = some (.closes family) ∧
        depth family (done ++ front) = 0 ∧
        tokens.foldlM State.step state =
          .error ⟨.extraCloser family.closer, token.source, 1⟩ := by
  induction tokens with
  | nil =>
    intro done state h
    exact .inl ⟨state, rfl, by rwa [List.append_nil]⟩
  | cons token rest ih =>
    intro done state h
    obtain ⟨next, hstep, hnext⟩ | ⟨family, hcloses, hzero, hstep⟩ := h.step token
    · have hrun : (token :: rest).foldlM State.step state = rest.foldlM State.step next := by
        rw [List.foldlM_cons, hstep]
        rfl
      rw [hrun]
      obtain ⟨state', hok, htracks⟩ | ⟨front, last, back, family, passed, rfl, htracks, hlast⟩ :=
        ih hnext
      · exact .inl ⟨state', hok, by rwa [List.append_assoc] at htracks⟩
      · rw [List.append_assoc] at htracks hlast
        exact .inr ⟨token :: front, last, back, family, passed, rfl, htracks, hlast⟩
    · refine .inr ⟨[], token, rest, family, state, rfl, by rwa [List.append_nil], hcloses,
        by rwa [List.append_nil], ?_⟩
      rw [List.foldlM_cons, hstep]
      rfl

namespace State

theorem earlier_eq (a b : Location × Family) : earlier a b = a ∨ earlier a b = b := by
  unfold earlier
  split
  · exact .inr rfl
  · exact .inl rfl

theorem not_isBefore_earlier (a b : Location × Family) :
    a.1.isBefore (earlier a b).1 = false ∧ b.1.isBefore (earlier a b).1 = false := by
  unfold earlier
  split
  case isTrue h =>
    refine ⟨?_, Location.not_isBefore_self b.1⟩
    rw [Bool.eq_false_iff, ne_eq, Location.isBefore_iff]
    simp only [Bool.or_eq_true, Bool.and_eq_true, beq_iff_eq, Location.isBefore_iff] at h
    obtain h | ⟨h, -⟩ := h
    · omega
    · rw [h]
      omega
  case isFalse h =>
    rw [Bool.or_eq_true, not_or, Bool.not_eq_true] at h
    exact ⟨Location.not_isBefore_self a.1, h.1⟩

theorem foldl_earlier (others : List (Location × Family)) : ∀ first : Location × Family,
    others.foldl earlier first ∈ first :: others ∧
      ∀ bracket ∈ first :: others, bracket.1.isBefore (others.foldl earlier first).1 = false := by
  induction others with
  | nil =>
    intro first
    exact ⟨List.mem_singleton_self first,
      List.forall_mem_singleton.2 (Location.not_isBefore_self first.1)⟩
  | cons other others ih =>
    intro first
    obtain ⟨hmem, hearliest⟩ := ih (earlier first other)
    obtain ⟨hfirst, hother⟩ := not_isBefore_earlier first other
    have hhead := hearliest _ List.mem_cons_self
    rw [List.foldl_cons]
    refine ⟨?_, ?_⟩
    · obtain hmem | hmem := List.mem_cons.1 hmem
      · rw [hmem]
        obtain heq | heq := earlier_eq first other
        · rw [heq]
          exact List.mem_cons_self
        · rw [heq]
          exact List.mem_cons_of_mem _ List.mem_cons_self
      · exact List.mem_cons_of_mem _ (List.mem_cons_of_mem _ hmem)
    · intro bracket hbracket
      obtain rfl | hbracket := List.mem_cons.1 hbracket
      · exact Location.not_isBefore_trans hfirst hhead
      · obtain rfl | hbracket := List.mem_cons.1 hbracket
        · exact Location.not_isBefore_trans hother hhead
        · exact hearliest bracket (List.mem_cons_of_mem _ hbracket)

theorem finish_of_outermost_eq_nil {state : State} (h : state.outermost = []) :
    state.finish = match state.quote with
      | some quote => .error ⟨.unclosedQuote quote.text, quote.source, 1⟩
      | none => .ok () := by
  unfold finish
  split
  · simp_all
  · cases state.quote <;> rfl

theorem finish_of_outermost_eq_cons {state : State} {first : Location × Family}
    {others : List (Location × Family)} (h : state.outermost = first :: others) :
    state.finish =
      .error ⟨.unclosedBracket (others.foldl earlier first).2.opener
        (others.foldl earlier first).2.closer, (others.foldl earlier first).1, 1⟩ := by
  unfold finish
  split
  · simp_all
  · simp_all

theorem mem_outermost {state : State} {source : Location} {family : Family} :
    (source, family) ∈ state.outermost ↔ (state.brackets family).getLast? = some source := by
  unfold outermost
  rw [List.mem_filterMap]
  constructor
  · rintro ⟨other, -, hother⟩
    obtain ⟨source', hsource', heq⟩ := Option.map_eq_some_iff.1 hother
    cases heq
    exact hsource'
  · intro h
    exact ⟨family, by cases family <;> decide, by rw [h]; rfl⟩

end State

section finish

variable {tokens : List Token} {state : State}

theorem append_cons_eq_of_length_lt {front front' back back' : List Token} {token token' : Token}
    (h : front ++ token :: back = front' ++ token' :: back')
    (hlength : front.length < front'.length) :
    ∃ middle, front' = front ++ token :: middle ∧ back = middle ++ token' :: back' := by
  obtain ⟨rest, rfl, hrest⟩ | ⟨rest, rfl, hrest⟩ := List.append_eq_append_iff.1 h
  · cases rest with
    | nil => simp at hlength
    | cons head middle =>
      obtain ⟨rfl, hback⟩ := List.cons.inj hrest
      exact ⟨middle, rfl, hback⟩
  · rw [List.length_append] at hlength
    omega

theorem Tracks.isFirst_closesNothing {front back : List Token} {token : Token} {passed : State}
    (h : Tracks front passed) {family : Family}
    (hcloses : Bracket.ofToken? token = some (.closes family)) (hzero : depth family front = 0) :
    IsFirst ClosesNothing front token back := by
  refine ⟨⟨family, hcloses, hzero⟩, ?_⟩
  intro front' token' back' hsplit hnothing
  refine Nat.not_lt.1 fun hlt => ?_
  obtain ⟨middle, hfront, -⟩ := append_cons_eq_of_length_lt hsplit.symm hlt
  exact h.not_closesNothing front' token' middle hfront hnothing

theorem Tracks.isFirst_staysOpen (h : Tracks tokens state) (hincreasing : IsIncreasing tokens)
    {source : Location} {family : Family}
    (houtermost : (state.brackets family).getLast? = some source)
    (hearliest : ∀ other source', (state.brackets other).getLast? = some source' →
      source'.isBefore source = false) :
    ∃ front token back, tokens = front ++ token :: back ∧ token.source = source ∧
      Bracket.ofToken? token = some (.opens family) ∧ IsFirst StaysOpen front token back := by
  obtain ⟨front, token, back, rfl, rfl, hopens, hzero, hstays⟩ :=
    h.outermost family source houtermost
  refine ⟨front, token, back, rfl, rfl, hopens, ⟨family, hopens, ?_⟩, ?_⟩
  · rwa [hzero]
  · rintro front' token' back' hsplit ⟨other, hopens', hstays'⟩
    refine Nat.not_lt.1 fun hlt => ?_
    -- Something of the other family is open at the end, as `token'` stays open.
    have hfinal : 0 < depth other (front ++ token :: back) := by
      have hnonneg := h.nonneg other front' (hsplit ▸ List.prefix_append _ _)
      have hlast := hstays' back' (List.prefix_refl back')
      rw [hsplit]
      omega
    have hne : state.brackets other ≠ [] := by
      intro hnil
      rw [← h.length, hnil] at hfinal
      contradiction
    obtain ⟨front'', outer, back'', hsplit', hsource, hopens'', hzero'', -⟩ :=
      h.outermost other _ (List.getLast?_eq_some_getLast hne)
    -- Its outermost one is not after `token'`, hence before `token`.
    have hle : front''.length ≤ front'.length := by
      refine Nat.not_lt.1 fun hlt' => ?_
      obtain ⟨middle, rfl, hback'⟩ :=
        append_cons_eq_of_length_lt (hsplit.symm.trans hsplit') hlt'
      have hnonneg := h.nonneg other front' (hsplit ▸ List.prefix_append _ _)
      have hopen := hstays' middle (hback' ▸ List.prefix_append _ _)
      omega
    obtain ⟨middle, rfl, rfl⟩ :=
      append_cons_eq_of_length_lt hsplit'.symm (Nat.lt_of_le_of_lt hle hlt)
    have hbefore : outer.source.isBefore token.source = true := by
      have hpairs := (List.pairwise_append.1 hincreasing).2.2
      exact hpairs outer (by simp) token (by simp) (by simp [hopens'']) (by simp [hopens])
    rw [hsource, hearliest other _ (List.getLast?_eq_some_getLast hne)] at hbefore
    contradiction

theorem Tracks.finish_cases (h : Tracks tokens state) (hincreasing : IsIncreasing tokens) :
    (∃ front token back family, tokens = front ++ token :: back ∧
        Bracket.ofToken? token = some (.opens family) ∧ IsFirst StaysOpen front token back ∧
        state.finish =
          .error ⟨.unclosedBracket family.opener family.closer, token.source, 1⟩) ∨
      (∀ family, depth family tokens = 0) ∧
        state.finish = match openQuote tokens with
          | some quote => .error ⟨.unclosedQuote quote.text, quote.source, 1⟩
          | none => .ok () := by
  cases houtermost : state.outermost with
  | cons first others =>
    obtain ⟨hmem, hearliest⟩ := State.foldl_earlier others first
    rw [← houtermost] at hmem hearliest
    obtain ⟨front, token, back, rfl, hsource, hopens, hfirst⟩ :=
      h.isFirst_staysOpen hincreasing (State.mem_outermost.1 hmem)
        (fun other source' hother => hearliest (source', other) (State.mem_outermost.2 hother))
    refine .inl ⟨front, token, back, _, rfl, hopens, hfirst, ?_⟩
    rw [hsource]
    exact State.finish_of_outermost_eq_cons houtermost
  | nil =>
    refine .inr ⟨?_, ?_⟩
    · intro family
      rw [← h.length, List.length_eq_zero_iff.2]
      · rfl
      · apply List.getLast?_eq_none_iff.1
        apply Option.eq_none_iff_forall_ne_some.2
        intro source hsource
        have hmem := State.mem_outermost.2 hsource
        rw [houtermost] at hmem
        contradiction
    · rw [← h.quote]
      exact State.finish_of_outermost_eq_nil houtermost

end finish

theorem check_cases {tokens : List Token} (hincreasing : IsIncreasing tokens) :
    (∃ front token back family, tokens = front ++ token :: back ∧
        Bracket.ofToken? token = some (.closes family) ∧
        IsFirst ClosesNothing front token back ∧
        check tokens = .error ⟨.extraCloser family.closer, token.source, 1⟩) ∨
      (∀ front token back, tokens = front ++ token :: back → ¬ ClosesNothing front token back) ∧
        ((∃ front token back family, tokens = front ++ token :: back ∧
            Bracket.ofToken? token = some (.opens family) ∧
            IsFirst StaysOpen front token back ∧
            check tokens =
              .error ⟨.unclosedBracket family.opener family.closer, token.source, 1⟩) ∨
          (∀ family, depth family tokens = 0) ∧
            check tokens = match openQuote tokens with
              | some quote => .error ⟨.unclosedQuote quote.text, quote.source, 1⟩
              | none => .ok ()) := by
  have hrun : check tokens = tokens.foldlM State.step State.empty >>= State.finish := rfl
  obtain ⟨state, hok, h⟩ | ⟨front, token, back, family, passed, rfl, h, hcloses, hzero, herror⟩ :=
    tracks_empty.foldlM_step tokens
  · rw [List.nil_append] at h
    have hfinish : check tokens = state.finish := by
      rw [hrun, hok]
      rfl
    rw [hfinish]
    exact .inr ⟨h.not_closesNothing, h.finish_cases hincreasing⟩
  · rw [List.nil_append] at h hzero
    rw [herror] at hrun
    exact .inl ⟨front, token, back, family, rfl, hcloses, h.isFirst_closesNothing hcloses hzero,
      hrun⟩

theorem exists_isOdd_of_check_eq_error {tokens : List Token} (hincreasing : IsIncreasing tokens)
    (hquote : openQuote tokens = none) {failure : Failure} (h : check tokens = .error failure) :
    ∃ front token back bracket problem, tokens = front ++ token :: back ∧
      Bracket.ofToken? token = some bracket ∧ IsOdd front token back ∧
      failure = ⟨problem, token.source, 1⟩ := by
  obtain ⟨front, token, back, family, rfl, hbracket, hfirst, hcheck⟩ | ⟨hnone,
    ⟨front, token, back, family, rfl, hbracket, hfirst, hcheck⟩ | ⟨_, hcheck⟩⟩ :=
    check_cases hincreasing
  · rw [hcheck] at h
    exact ⟨front, token, back, _, _, rfl, hbracket, .inl hfirst, (Except.error.inj h).symm⟩
  · rw [hcheck] at h
    exact ⟨front, token, back, _, _, rfl, hbracket, .inr ⟨hnone, hfirst⟩,
      (Except.error.inj h).symm⟩
  · rw [hcheck, hquote] at h
    contradiction

end Balance

end Preflight
