import Preflight.Proofs.Balance.Verdict

/-!
This module contains that it pays to do what the check of the brackets and quotes advises: each time
one thing less is wrong with the tokens, until there is nothing left to complain about.
-/

namespace Preflight

namespace Balance

/--
How many of the brackets `later` find no bracket `earlier` in front of them to go with. Another
`level` of those are open before the first token.
-/
def unmatched (earlier later : Bracket) (level : Nat) : List Token → Nat
  | [] => 0
  | token :: tokens =>
    if Bracket.ofToken? token = some earlier then unmatched earlier later (level + 1) tokens
    else if Bracket.ofToken? token = some later then
      (if level = 0 then 1 else 0) + unmatched earlier later (level - 1) tokens
    else unmatched earlier later level tokens

def unmatchedClosers (family : Family) (tokens : List Token) : Nat :=
  unmatched (.opens family) (.closes family) 0 tokens

def unmatchedOpeners (family : Family) (tokens : List Token) : Nat :=
  unmatched (.closes family) (.opens family) 0 tokens.reverse

def bracketDefects (family : Family) (tokens : List Token) : Nat :=
  unmatchedClosers family tokens + unmatchedOpeners family tokens

def defects (tokens : List Token) : Nat :=
  bracketDefects .round tokens + bracketDefects .curly tokens + bracketDefects .square tokens
    + if (openQuote tokens).isSome then 1 else 0

/--
A way to follow the advice of the check. A bracket that is too much is taken away, and what is
missing is put behind all other tokens.
-/
inductive Repairs (tokens : List Token) : List Token → Prop where
  | removesBracket {front back : List Token} {token : Token} {bracket : Char} {length : Nat}
    (hcheck : check tokens = .error ⟨.extraCloser bracket, token.source, length⟩)
    (htokens : tokens = front ++ token :: back) (hkind : token.kind = .bracket)
    (htext : token.text.head? = some bracket) : Repairs tokens (front ++ back)
  | closesBracket {bracket closer : Char} {source loc : Location} {length : Nat}
    (hcheck : check tokens = .error ⟨.unclosedBracket bracket closer, source, length⟩)
    (hloc : ∀ token ∈ tokens, token.source.isBefore loc = true) :
    Repairs tokens (tokens ++ [⟨.bracket, [closer], loc⟩])
  | closesQuote {quote : Text} {source loc : Location} {length : Nat}
    (hcheck : check tokens = .error ⟨.unclosedQuote quote, source, length⟩)
    (hloc : ∀ token ∈ tokens, token.source.isBefore loc = true) :
    Repairs tokens (tokens ++ [⟨.quote, quote, loc⟩])

inductive RepairedIn : Nat → List Token → List Token → Prop where
  | unchanged (tokens : List Token) : RepairedIn 0 tokens tokens
  | step {n : Nat} {tokens next repaired : List Token} (hfirst : Repairs tokens next)
    (hrest : RepairedIn n next repaired) : RepairedIn (n + 1) tokens repaired

section unmatched

variable {earlier later : Bracket} {token : Token}

theorem unmatched_cons_earlier (h : Bracket.ofToken? token = some earlier) (level : Nat)
    (tokens : List Token) :
    unmatched earlier later level (token :: tokens) =
      unmatched earlier later (level + 1) tokens := if_pos h

theorem unmatched_cons_later (hne : earlier ≠ later) (h : Bracket.ofToken? token = some later)
    (level : Nat) (tokens : List Token) :
    unmatched earlier later level (token :: tokens) =
      (if level = 0 then 1 else 0) + unmatched earlier later (level - 1) tokens := by
  rw [unmatched, if_neg, if_pos h]
  rw [h, Option.some_inj]
  exact hne.symm

theorem unmatched_cons_other (hearlier : Bracket.ofToken? token ≠ some earlier)
    (hlater : Bracket.ofToken? token ≠ some later) (level : Nat) (tokens : List Token) :
    unmatched earlier later level (token :: tokens) = unmatched earlier later level tokens := by
  rw [unmatched, if_neg hearlier, if_neg hlater]

variable (hne : earlier ≠ later)
include hne

theorem unmatched_succ (level : Nat) (tokens : List Token) :
    unmatched earlier later (level + 1) tokens = unmatched earlier later level tokens - 1 := by
  induction tokens generalizing level with
  | nil => rfl
  | cons token tokens ih =>
    by_cases hearlier : Bracket.ofToken? token = some earlier
    · rw [unmatched_cons_earlier hearlier, unmatched_cons_earlier hearlier, ih]
    · by_cases hlater : Bracket.ofToken? token = some later
      · rw [unmatched_cons_later hne hlater, unmatched_cons_later hne hlater]
        cases level with
        | zero => simp
        | succ level => simp [ih]
      · rw [unmatched_cons_other hearlier hlater, unmatched_cons_other hearlier hlater, ih]

theorem unmatched_eq_sub (level : Nat) (tokens : List Token) :
    unmatched earlier later level tokens = unmatched earlier later 0 tokens - level := by
  induction level with
  | zero => rfl
  | succ level ih => rw [unmatched_succ hne, ih, Nat.sub_sub]

theorem unmatched_append (front back : List Token) :
    unmatched earlier later 0 (front ++ back) =
      unmatched earlier later 0 front
        + (unmatched earlier later 0 back - unmatched later earlier 0 front.reverse) := by
  induction front using List.reverseRecOn generalizing back with
  | nil =>
    rw [List.nil_append, unmatched, List.reverse_nil, unmatched]
    omega
  | append_singleton front token ih =>
    have hback := ih (token :: back)
    have hlast := ih [token]
    rw [← unmatched_eq_sub hne] at hback hlast
    rw [← unmatched_eq_sub hne, List.append_assoc, List.singleton_append, List.reverse_concat,
      hback, hlast]
    by_cases hearlier : Bracket.ofToken? token = some earlier
    · rw [unmatched_cons_earlier hearlier, unmatched_cons_earlier hearlier,
        unmatched_cons_later hne.symm hearlier, if_pos rfl, Nat.add_comm 1]
      rfl
    · by_cases hlater : Bracket.ofToken? token = some later
      · rw [unmatched_cons_later hne hlater, unmatched_cons_later hne hlater,
          unmatched_cons_earlier hlater, unmatched_succ hne.symm, unmatched]
        omega
      · rw [unmatched_cons_other hearlier hlater, unmatched_cons_other hearlier hlater,
          unmatched_cons_other hlater hearlier]
        rfl

end unmatched

section family

variable (family : Family) {token : Token}

theorem unmatchedClosers_append (front back : List Token) :
    unmatchedClosers family (front ++ back) =
      unmatchedClosers family front
        + (unmatchedClosers family back - unmatchedOpeners family front) :=
  unmatched_append (by simp) front back

theorem unmatchedOpeners_append (front back : List Token) :
    unmatchedOpeners family (front ++ back) =
      unmatchedOpeners family back
        + (unmatchedOpeners family front - unmatchedClosers family back) := by
  unfold unmatchedOpeners unmatchedClosers
  rw [List.reverse_append, unmatched_append (by simp), List.reverse_reverse]

theorem unmatchedClosers_singleton :
    unmatchedClosers family [token] =
      if Bracket.ofToken? token = some (.closes family) then 1 else 0 := by
  unfold unmatchedClosers
  split
  · next h => rw [unmatched_cons_later (by simp) h]; rfl
  · next h =>
    rw [unmatched, if_neg h]
    exact ite_self 0

theorem unmatchedOpeners_singleton :
    unmatchedOpeners family [token] =
      if Bracket.ofToken? token = some (.opens family) then 1 else 0 := by
  unfold unmatchedOpeners
  rw [List.reverse_singleton]
  split
  · next h => rw [unmatched_cons_later (by simp) h]; rfl
  · next h =>
    rw [unmatched, if_neg h]
    exact ite_self 0

theorem depth_eq_sub (tokens : List Token) :
    depth family tokens =
      (unmatchedOpeners family tokens : Int) - unmatchedClosers family tokens := by
  induction tokens using List.reverseRecOn with
  | nil => rfl
  | append_singleton tokens token ih =>
    have hsingleton : depth family [token] =
        (unmatchedOpeners family [token] : Int) - unmatchedClosers family [token] := by
      rw [unmatchedOpeners_singleton, unmatchedClosers_singleton]
      by_cases hopens : Bracket.ofToken? token = some (.opens family)
      · simp [depth, hopens]
      · by_cases hcloses : Bracket.ofToken? token = some (.closes family)
        · simp [depth, hcloses]
        · simp [depth, hopens, hcloses]
    rw [depth_append, ih, hsingleton, unmatchedOpeners_append, unmatchedClosers_append]
    omega

theorem unmatchedClosers_of_closesAll {tokens : List Token} (h : ClosesAll tokens) :
    unmatchedClosers family tokens = 0 := by
  induction tokens using List.reverseRecOn with
  | nil => rfl
  | append_singleton tokens token ih =>
    have hfront : ClosesAll tokens := by
      rintro front other back rfl
      exact fun hnothing => h front other (back ++ [token]) (by simp) hnothing
    have hdepth := depth_eq_sub family tokens
    rw [ih hfront] at hdepth
    rw [unmatchedClosers_append, ih hfront, unmatchedClosers_singleton]
    split
    · next hcloses =>
      have hne : depth family tokens ≠ 0 := fun hzero =>
        h tokens token [] rfl ⟨family, hcloses, hzero⟩
      omega
    · omega

end family

section defects

theorem bracketDefects_of_other {front back : List Token} {token : Token} {family : Family}
    (hopens : Bracket.ofToken? token ≠ some (.opens family))
    (hcloses : Bracket.ofToken? token ≠ some (.closes family)) :
    bracketDefects family (front ++ token :: back) = bracketDefects family (front ++ back) := by
  have hclosers : unmatchedClosers family (token :: back) = unmatchedClosers family back :=
    unmatched_cons_other hopens hcloses 0 back
  have hopeners : unmatchedOpeners family (token :: back) = unmatchedOpeners family back := by
    rw [← List.singleton_append, unmatchedOpeners_append, unmatchedOpeners_singleton, if_neg hopens]
    omega
  unfold bracketDefects
  rw [unmatchedClosers_append, unmatchedOpeners_append, hclosers, hopeners,
    unmatchedClosers_append, unmatchedOpeners_append]

theorem defects_append_cons {front back : List Token} {token : Token} {bracket : Bracket}
    {family : Family} {m n : Nat} (hbracket : Bracket.ofToken? token = some bracket)
    (hfamily : bracket = .opens family ∨ bracket = .closes family)
    (h : bracketDefects family (front ++ token :: back) + m =
      bracketDefects family (front ++ back) + n) :
    defects (front ++ token :: back) + m = defects (front ++ back) + n := by
  have hquote : openQuote (front ++ token :: back) = openQuote (front ++ back) := by
    unfold openQuote
    rw [List.foldl_append, List.foldl_cons, toggle_of_ofToken? hbracket, ← List.foldl_append]
  have hother : ∀ other, other ≠ family →
      bracketDefects other (front ++ token :: back) = bracketDefects other (front ++ back) := by
    intro other hne
    apply bracketDefects_of_other
    · rw [hbracket]
      rcases hfamily with rfl | rfl <;> simp [Ne.symm hne]
    · rw [hbracket]
      rcases hfamily with rfl | rfl <;> simp [Ne.symm hne]
  unfold defects
  rw [hquote]
  cases family with
  | round =>
    rw [hother .curly (by decide), hother .square (by decide)]
    omega
  | curly =>
    rw [hother .round (by decide), hother .square (by decide)]
    omega
  | square =>
    rw [hother .round (by decide), hother .curly (by decide)]
    omega

end defects

theorem ofToken?_eq_closes_iff {token : Token} {family : Family} :
    Bracket.ofToken? token = some (.closes family) ↔
      token.kind = .bracket ∧ token.text.head? = some family.closer := by
  constructor
  · intro h
    refine ⟨kind_eq_bracket_of_ofToken? h, ?_⟩
    unfold Bracket.ofToken? Bracket.ofChar? at h
    cases family <;> grind [Family.closer]
  · rintro ⟨hkind, htext⟩
    obtain ⟨kind, text, source⟩ := token
    obtain ⟨rest, rfl⟩ := List.head?_eq_some_iff.1 htext
    obtain rfl : kind = .bracket := hkind
    cases family <;> rfl

theorem exists_behind (tokens : List Token) :
    ∃ loc, ∀ token ∈ tokens, token.source.isBefore loc = true := by
  have hlines : ∃ line, ∀ token ∈ tokens, token.source.line < line := by
    induction tokens with
    | nil => exact ⟨0, by simp⟩
    | cons token tokens ih =>
      obtain ⟨line, hline⟩ := ih
      refine ⟨max line (token.source.line + 1), List.forall_mem_cons.2 ⟨by omega, ?_⟩⟩
      exact fun other hother => Nat.lt_of_lt_of_le (hline other hother) (Nat.le_max_left _ _)
  obtain ⟨line, hline⟩ := hlines
  exact ⟨⟨line, 0⟩, fun token htoken => Location.isBefore_iff.2 (.inl (hline token htoken))⟩

theorem IsIncreasing.concat {tokens : List Token} (h : IsIncreasing tokens) {last : Token}
    (hlast : ∀ token ∈ tokens, token.source.isBefore last.source = true) :
    IsIncreasing (tokens ++ [last]) := by
  refine List.pairwise_append.2 ⟨h, List.pairwise_singleton _ _, ?_⟩
  intro token htoken other hother _ _
  rw [List.mem_singleton.1 hother]
  exact hlast token htoken

theorem IsIncreasing.length_le_of_source_eq {front front' back back' : List Token}
    {token token' : Token} (h : IsIncreasing (front ++ token :: back))
    (hsplit : front ++ token :: back = front' ++ token' :: back')
    (hbracket : (Bracket.ofToken? token).isSome) (hbracket' : (Bracket.ofToken? token').isSome)
    (hsource : token.source = token'.source) : front'.length ≤ front.length := by
  refine Nat.not_lt.1 fun hlt => ?_
  obtain ⟨middle, -, rfl⟩ := append_cons_eq_of_length_lt hsplit hlt
  have hbefore := (List.pairwise_cons.1 (List.pairwise_append.1 h).2.1).1 token' (by simp)
    hbracket hbracket'
  rw [hsource, Location.not_isBefore_self] at hbefore
  contradiction

theorem IsIncreasing.eq_of_source_eq {front front' back back' : List Token}
    {token token' : Token} (h : IsIncreasing (front ++ token :: back))
    (hsplit : front ++ token :: back = front' ++ token' :: back')
    (hbracket : (Bracket.ofToken? token).isSome) (hbracket' : (Bracket.ofToken? token').isSome)
    (hsource : token.source = token'.source) : front = front' ∧ back = back' := by
  have hlength : front.length = front'.length := by
    apply Nat.le_antisymm
    · exact (hsplit ▸ h).length_le_of_source_eq hsplit.symm hbracket' hbracket hsource.symm
    · exact h.length_le_of_source_eq hsplit hbracket hbracket' hsource
  obtain ⟨hfront, hrest⟩ := List.append_inj hsplit hlength
  exact ⟨hfront, (List.cons.inj hrest).2⟩

section repair

variable {tokens next : List Token}

theorem defects_removeBracket {front back : List Token} {token : Token} {family : Family}
    (hcloses : Bracket.ofToken? token = some (.closes family))
    (hfirst : IsFirst ClosesNothing front token back) :
    defects (front ++ token :: back) = defects (front ++ back) + 1 := by
  have hall : ClosesAll front := by
    rintro front' token' back' rfl hnothing
    have hle := hfirst.first front' token' (back' ++ token :: back) (by simp) hnothing
    rw [List.length_append, List.length_cons] at hle
    omega
  have hzero : depth family front = 0 := by
    obtain ⟨other, hother, hzero⟩ := hfirst.holds
    rw [hcloses] at hother
    cases hother
    exact hzero
  -- So nothing is unmatched in front of the bracket, which is unmatched itself.
  have hclosers := unmatchedClosers_of_closesAll family hall
  have hopeners : unmatchedOpeners family front = 0 := by
    rw [depth_eq_sub, hclosers] at hzero
    omega
  apply defects_append_cons (m := 0) hcloses (.inr rfl)
  unfold bracketDefects
  rw [← List.singleton_append, unmatchedClosers_append, unmatchedOpeners_append,
    unmatchedClosers_append _ [token], unmatchedOpeners_append _ [token],
    unmatchedClosers_append _ front back, unmatchedOpeners_append _ front back,
    unmatchedClosers_singleton, unmatchedOpeners_singleton, if_pos hcloses,
    if_neg (by simp [hcloses]), hclosers, hopeners]
  omega

theorem defects_closeBracket {last : Token} {family : Family} (hall : ClosesAll tokens)
    (hcloses : Bracket.ofToken? last = some (.closes family)) (hopen : 0 < depth family tokens) :
    defects tokens = defects (tokens ++ [last]) + 1 := by
  have hclosers := unmatchedClosers_of_closesAll family hall
  rw [depth_eq_sub, hclosers] at hopen
  have hadd : defects (tokens ++ [last]) + 1 = defects (tokens ++ []) + 0 := by
    apply defects_append_cons hcloses (.inr rfl)
    unfold bracketDefects
    rw [List.append_nil, unmatchedClosers_append, unmatchedOpeners_append,
      unmatchedClosers_singleton, unmatchedOpeners_singleton, if_pos hcloses,
      if_neg (by simp [hcloses])]
    omega
  rw [hadd, List.append_nil]
  rfl

theorem defects_closeQuote {last quote : Token} (hkind : last.kind = .quote)
    (hquote : openQuote tokens = some quote) (htext : quote.text = last.text) :
    defects tokens = defects (tokens ++ [last]) + 1 := by
  have hclosed : openQuote (tokens ++ [last]) = none := by
    rw [openQuote_concat, hquote, toggle_some hkind, if_pos htext]
  have hnone : Bracket.ofToken? last = none := by
    unfold Bracket.ofToken?
    rw [hkind]
  have hsame : ∀ family, bracketDefects family (tokens ++ [last]) =
      bracketDefects family (tokens ++ []) :=
    fun family => bracketDefects_of_other (by simp [hnone]) (by simp [hnone])
  unfold defects
  rw [hclosed, hquote, hsame, hsame, hsame, List.append_nil]
  rfl

theorem defects_eq_zero (hall : ClosesAll tokens) (hzero : ∀ family, depth family tokens = 0)
    (hquote : openQuote tokens = none) : defects tokens = 0 := by
  have hnone : ∀ family, bracketDefects family tokens = 0 := by
    intro family
    have hclosers := unmatchedClosers_of_closesAll family hall
    have hdepth := depth_eq_sub family tokens
    rw [hzero family, hclosers] at hdepth
    unfold bracketDefects
    omega
  unfold defects
  rw [hnone, hnone, hnone, hquote]
  rfl

theorem check_eq_ok_or_exists_repairs (h : IsIncreasing tokens) :
    (check tokens = .ok () ∧ defects tokens = 0) ∨ ∃ next, Repairs tokens next := by
  obtain ⟨loc, hloc⟩ := exists_behind tokens
  obtain ⟨front, token, back, family, htokens, hcloses, -, hcheck⟩ | ⟨hall,
    ⟨front, token, back, family, -, -, -, hcheck⟩ | ⟨hzero, hcheck⟩⟩ := check_cases h
  · obtain ⟨hkind, htext⟩ := ofToken?_eq_closes_iff.1 hcloses
    exact .inr ⟨_, .removesBracket hcheck htokens hkind htext⟩
  · exact .inr ⟨_, .closesBracket hcheck hloc⟩
  · cases hquote : openQuote tokens with
    | none =>
      rw [hquote] at hcheck
      exact .inl ⟨hcheck, defects_eq_zero hall hzero hquote⟩
    | some quote =>
      rw [hquote] at hcheck
      exact .inr ⟨_, .closesQuote hcheck hloc⟩

theorem Repairs.defects_eq (hrepairs : Repairs tokens next) (h : IsIncreasing tokens) :
    IsIncreasing next ∧ defects tokens = defects next + 1 := by
  cases hrepairs with
  | @removesBracket front back token bracket length hcheck htokens hkind htext =>
    obtain ⟨front', token', back', family, rfl, hcloses, hfirst, hcheck'⟩ | ⟨-,
      ⟨_, _, _, _, _, _, _, hcheck'⟩ | ⟨-, hcheck'⟩⟩ := check_cases h
    · rw [hcheck', Except.error.injEq, Failure.mk.injEq, Problem.extraCloser.injEq] at hcheck
      obtain ⟨rfl, hsource, -⟩ := hcheck
      have hcloses' := ofToken?_eq_closes_iff.2 ⟨hkind, htext⟩
      obtain ⟨rfl, rfl⟩ :=
        h.eq_of_source_eq htokens (by simp [hcloses]) (by simp [hcloses']) hsource
      exact ⟨h.sublist (by simp), defects_removeBracket hcloses hfirst⟩
    · rw [hcheck'] at hcheck
      cases hcheck
    · rw [hcheck'] at hcheck
      split at hcheck <;> cases hcheck
  | closesBracket hcheck hloc =>
    obtain ⟨_, _, _, _, _, _, _, hcheck'⟩ | ⟨hall,
      ⟨front, token, back, family, rfl, hopens, hfirst, hcheck'⟩ | ⟨-, hcheck'⟩⟩ := check_cases h
    · rw [hcheck'] at hcheck
      cases hcheck
    · rw [hcheck', Except.error.injEq, Failure.mk.injEq, Problem.unclosedBracket.injEq] at hcheck
      obtain ⟨⟨-, rfl⟩, -⟩ := hcheck
      obtain ⟨other, hother, hdeeper⟩ := hfirst.holds
      rw [hopens] at hother
      cases hother
      have hnonneg := depth_nonneg_of_not_closesNothing hall family (List.prefix_append front _)
      have hend := hdeeper back (List.prefix_refl back)
      refine ⟨h.concat hloc, defects_closeBracket hall ?_ (Int.lt_of_le_of_lt hnonneg hend)⟩
      exact ofToken?_eq_closes_iff.2 ⟨rfl, rfl⟩
    · rw [hcheck'] at hcheck
      split at hcheck <;> cases hcheck
  | closesQuote hcheck hloc =>
    obtain ⟨_, _, _, _, _, _, _, hcheck'⟩ | ⟨-,
      ⟨_, _, _, _, _, _, _, hcheck'⟩ | ⟨-, hcheck'⟩⟩ := check_cases h
    · rw [hcheck'] at hcheck
      cases hcheck
    · rw [hcheck'] at hcheck
      cases hcheck
    · rw [hcheck'] at hcheck
      cases hquote : openQuote tokens with
      | none =>
        rw [hquote] at hcheck
        cases hcheck
      | some opening =>
        rw [hquote] at hcheck
        cases hcheck
        exact ⟨h.concat hloc, defects_closeQuote rfl hquote rfl⟩

end repair

theorem RepairedIn.defects_eq {n : Nat} {tokens repaired : List Token}
    (hrepaired : RepairedIn n tokens repaired) (h : IsIncreasing tokens) :
    IsIncreasing repaired ∧ defects tokens = defects repaired + n := by
  induction hrepaired with
  | unchanged => exact ⟨h, rfl⟩
  | step hfirst _ ih =>
    obtain ⟨hnext, hone⟩ := hfirst.defects_eq h
    obtain ⟨hlast, hrest⟩ := ih hnext
    exact ⟨hlast, by rw [hone, hrest, Nat.add_assoc]⟩

theorem exists_repairedIn_defects {tokens : List Token} (h : IsIncreasing tokens) :
    ∃ repaired, RepairedIn (defects tokens) tokens repaired := by
  generalize hdefects : defects tokens = n
  induction n generalizing tokens with
  | zero => exact ⟨tokens, .unchanged tokens⟩
  | succ n ih =>
    obtain ⟨-, hzero⟩ | ⟨next, hrepairs⟩ := check_eq_ok_or_exists_repairs h
    · rw [hzero] at hdefects
      contradiction
    · obtain ⟨hnext, hone⟩ := hrepairs.defects_eq h
      obtain ⟨repaired, hrepaired⟩ := ih hnext (by omega)
      exact ⟨repaired, .step hrepairs hrepaired⟩

theorem check_eq_ok_iff_defects {tokens : List Token} (h : IsIncreasing tokens) :
    check tokens = .ok () ↔ defects tokens = 0 := by
  constructor
  · intro hcheck
    obtain ⟨-, hzero⟩ | ⟨next, hrepairs⟩ := check_eq_ok_or_exists_repairs h
    · exact hzero
    · cases hrepairs <;> simp_all
  · intro hzero
    obtain ⟨hcheck, -⟩ | ⟨next, hrepairs⟩ := check_eq_ok_or_exists_repairs h
    · exact hcheck
    · have hone := (hrepairs.defects_eq h).2
      omega

theorem check_repairedIn_defects {tokens : List Token} (h : IsIncreasing tokens) :
    (∃ repaired, RepairedIn (defects tokens) tokens repaired ∧ check repaired = .ok ()) ∧
      ∀ n repaired, RepairedIn n tokens repaired →
        n ≤ defects tokens ∧ (check repaired = .ok () ↔ n = defects tokens) ∧
          (n < defects tokens → ∃ next, Repairs repaired next) := by
  have hall : ∀ n repaired, RepairedIn n tokens repaired →
      n ≤ defects tokens ∧ (check repaired = .ok () ↔ n = defects tokens) ∧
        (n < defects tokens → ∃ next, Repairs repaired next) := by
    intro n repaired hrepaired
    obtain ⟨hincreasing, hdefects⟩ := hrepaired.defects_eq h
    refine ⟨by omega, ?_, ?_⟩
    · rw [check_eq_ok_iff_defects hincreasing]
      omega
    · intro hlt
      obtain ⟨-, hzero⟩ | hnext := check_eq_ok_or_exists_repairs hincreasing
      · omega
      · exact hnext
  obtain ⟨repaired, hrepaired⟩ := exists_repairedIn_defects h
  exact ⟨⟨repaired, hrepaired, (hall _ _ hrepaired).2.1.2 rfl⟩, hall⟩

theorem check_repairedIn_defects_mixed :
    let tokens : List Token := [⟨.bracket, ['('], ⟨0, 0⟩⟩, ⟨.bracket, [']'], ⟨0, 1⟩⟩,
      ⟨.bracket, ['['], ⟨0, 2⟩⟩, ⟨.quote, ['"'], ⟨0, 3⟩⟩, ⟨.bracket, ['['], ⟨1, 0⟩⟩,
      ⟨.bracket, [']'], ⟨1, 1⟩⟩]
    IsIncreasing tokens ∧ defects tokens = 4 ∧
      ∃ repaired, RepairedIn 4 tokens repaired ∧ check repaired = .ok () := by
  intro tokens
  have hincreasing : IsIncreasing tokens := by
    unfold IsIncreasing
    decide
  exact ⟨hincreasing, rfl, (check_repairedIn_defects hincreasing).1⟩

end Balance

end Preflight
