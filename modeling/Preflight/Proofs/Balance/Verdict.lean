import Preflight.Proofs.Balance.Agreement

/-!
This module contains what the check of the brackets and quotes has to say about any tokens, said of
the tokens alone, and that this is what it says.
-/

namespace Preflight

namespace Balance

inductive QuotesClosed : List Token → Prop where
  | nil : QuotesClosed []
  | other {token : Token} {tokens : List Token} (hkind : token.kind ≠ .quote)
    (h : QuotesClosed tokens) : QuotesClosed (token :: tokens)
  | quoted {opening closing : Token} {inside tokens : List Token} (hopening : opening.kind = .quote)
    (hinside : ∀ token ∈ inside, token.kind = .quote → token.text ≠ opening.text)
    (hclosing : closing.kind = .quote) (htext : closing.text = opening.text)
    (h : QuotesClosed tokens) : QuotesClosed (opening :: inside ++ closing :: tokens)

structure StaysQuoted (front : List Token) (token : Token) (back : List Token) : Prop where
  kind : token.kind = .quote
  closed : QuotesClosed front
  unmatched : ∀ other ∈ back, other.kind = .quote → other.text ≠ token.text

def ClosesAll (tokens : List Token) : Prop :=
  ∀ front token back, tokens = front ++ token :: back → ¬ ClosesNothing front token back

/--
What is to be said about some tokens.

- The first closing bracket that closes nothing comes before everything else.
- Of all families together the earliest bracket that stays open comes next.
- A quote that stays open is only reported when there is nothing wrong with the brackets.
-/
inductive Verdict (tokens : List Token) : Except Failure Unit → Prop where
  | extraCloser {front back : List Token} {token : Token} {family : Family}
    (htokens : tokens = front ++ token :: back)
    (hcloses : Bracket.ofToken? token = some (.closes family))
    (hfirst : IsFirst ClosesNothing front token back) :
    Verdict tokens (.error ⟨.extraCloser family.closer, token.source, 1⟩)
  | unclosedBracket {front back : List Token} {token : Token} {family : Family}
    (hall : ClosesAll tokens) (hopen : ∃ family, 0 < depth family tokens)
    (htokens : tokens = front ++ token :: back)
    (hopens : Bracket.ofToken? token = some (.opens family))
    (hfirst : IsFirst StaysOpen front token back) :
    Verdict tokens (.error ⟨.unclosedBracket family.opener family.closer, token.source, 1⟩)
  | unclosedQuote {front back : List Token} {token : Token} (hall : ClosesAll tokens)
    (hnone : ∀ family, ¬ 0 < depth family tokens) (htokens : tokens = front ++ token :: back)
    (hstays : StaysQuoted front token back) :
    Verdict tokens (.error ⟨.unclosedQuote token.text, token.source, 1⟩)
  | balanced (hall : ClosesAll tokens) (hnone : ∀ family, ¬ 0 < depth family tokens)
    (hclosed : QuotesClosed tokens) : Verdict tokens (.ok ())

section quotes

variable {tokens others : List Token} {token : Token}

theorem toggle_of_kind_ne (h : token.kind ≠ .quote) (quote : Option Token) :
    toggle quote token = quote := if_neg h

theorem toggle_none (h : token.kind = .quote) : toggle none token = some token := if_pos h

theorem toggle_some (h : token.kind = .quote) (opening : Token) :
    toggle (some opening) token = if opening.text = token.text then none else some opening :=
  if_pos h

theorem QuotesClosed.append (h : QuotesClosed tokens) (hothers : QuotesClosed others) :
    QuotesClosed (tokens ++ others) := by
  induction h with
  | nil => exact hothers
  | other hkind _ ih => exact .other hkind ih
  | quoted hopening hinside hclosing htext _ ih =>
    rw [List.append_assoc, List.cons_append]
    exact .quoted hopening hinside hclosing htext ih

theorem foldl_toggle_some {quote : Token}
    (h : ∀ other ∈ tokens, other.kind = .quote → other.text ≠ quote.text) :
    tokens.foldl toggle (some quote) = some quote := by
  induction tokens with
  | nil => rfl
  | cons token tokens ih =>
    have hstays : toggle (some quote) token = some quote := by
      by_cases hkind : token.kind = .quote
      · rw [toggle_some hkind, if_neg (h token List.mem_cons_self hkind).symm]
      · exact toggle_of_kind_ne hkind _
    rw [List.foldl_cons, hstays]
    exact ih fun other hother => h other (List.mem_cons_of_mem token hother)

theorem QuotesClosed.openQuote_eq_none (h : QuotesClosed tokens) : openQuote tokens = none := by
  unfold openQuote
  induction h with
  | nil => rfl
  | other hkind _ ih => rwa [List.foldl_cons, toggle_of_kind_ne hkind]
  | quoted hopening hinside hclosing htext _ ih =>
    rw [List.foldl_append, List.foldl_cons, List.foldl_cons, toggle_none hopening]
    rwa [foldl_toggle_some hinside, toggle_some hclosing, if_pos htext.symm]

theorem StaysQuoted.openQuote_eq_some {front back : List Token}
    (h : StaysQuoted front token back) : openQuote (front ++ token :: back) = some token := by
  have hfront := h.closed.openQuote_eq_none
  unfold openQuote at hfront ⊢
  rw [List.foldl_append, hfront, List.foldl_cons, toggle_none h.kind]
  exact foldl_toggle_some h.unmatched

theorem quotesClosed_or_exists_staysQuoted (tokens : List Token) :
    QuotesClosed tokens ∨
      ∃ front token back, tokens = front ++ token :: back ∧ StaysQuoted front token back := by
  induction tokens using List.reverseRecOn with
  | nil => exact .inl .nil
  | append_singleton tokens last ih =>
    rcases ih with hclosed | ⟨front, token, back, rfl, hkind, hclosed, hunmatched⟩
    · by_cases hlast : last.kind = .quote
      · exact .inr ⟨tokens, last, [], rfl, hlast, hclosed, by simp⟩
      · exact .inl (hclosed.append (.other hlast .nil))
    · by_cases hmatch : last.kind = .quote ∧ last.text = token.text
      · refine .inl ?_
        rw [List.append_assoc]
        exact hclosed.append (.quoted hkind hunmatched hmatch.1 hmatch.2 .nil)
      · refine .inr ⟨front, token, back ++ [last], by simp, hkind, hclosed, ?_⟩
        intro other hother hquote htext
        rcases List.mem_append.1 hother with hother | hother
        · exact hunmatched other hother hquote htext
        · rw [List.mem_singleton.1 hother] at hquote htext
          exact hmatch ⟨hquote, htext⟩

end quotes

theorem IsFirst.unique {p : List Token → Token → List Token → Prop}
    {front front' back back' : List Token} {token token' : Token} (h : IsFirst p front token back)
    (h' : IsFirst p front' token' back')
    (heq : front ++ token :: back = front' ++ token' :: back') : token = token' := by
  have hlength : front.length = front'.length :=
    Nat.le_antisymm (h.first _ _ _ heq h'.holds) (h'.first _ _ _ heq.symm h.holds)
  exact (List.cons.inj (List.append_inj heq hlength).2).1

namespace Verdict

variable {tokens : List Token} {outcome : Except Failure Unit}

theorem not_closesAll {front back : List Token} {token : Token}
    (htokens : tokens = front ++ token :: back) (hfirst : IsFirst ClosesNothing front token back) :
    ¬ ClosesAll tokens :=
  fun hall => hall front token back htokens hfirst.holds

theorem unique {other : Except Failure Unit} (h : Verdict tokens outcome)
    (hother : Verdict tokens other) : outcome = other := by
  cases h with
  | extraCloser htokens hcloses hfirst =>
    cases hother with
    | extraCloser htokens' hcloses' hfirst' =>
      obtain rfl := hfirst.unique hfirst' (htokens.symm.trans htokens')
      rw [hcloses] at hcloses'
      cases hcloses'
      rfl
    | unclosedBracket hall => exact absurd hall (not_closesAll htokens hfirst)
    | unclosedQuote hall => exact absurd hall (not_closesAll htokens hfirst)
    | balanced hall => exact absurd hall (not_closesAll htokens hfirst)
  | unclosedBracket hall hopen htokens hopens hfirst =>
    obtain ⟨family, hfamily⟩ := hopen
    cases hother with
    | extraCloser htokens' _ hfirst' => exact absurd hall (not_closesAll htokens' hfirst')
    | unclosedBracket _ _ htokens' hopens' hfirst' =>
      obtain rfl := hfirst.unique hfirst' (htokens.symm.trans htokens')
      rw [hopens] at hopens'
      cases hopens'
      rfl
    | unclosedQuote _ hnone => exact absurd hfamily (hnone family)
    | balanced _ hnone => exact absurd hfamily (hnone family)
  | unclosedQuote hall hnone htokens hstays =>
    cases hother with
    | extraCloser htokens' _ hfirst' => exact absurd hall (not_closesAll htokens' hfirst')
    | unclosedBracket _ hopen => exact absurd hopen (not_exists.2 hnone)
    | unclosedQuote _ _ htokens' hstays' =>
      have hquote := hstays.openQuote_eq_some
      rw [← htokens, htokens', hstays'.openQuote_eq_some, Option.some.injEq] at hquote
      rw [hquote]
    | balanced _ _ hclosed =>
      have hquote := hstays.openQuote_eq_some
      rw [← htokens, hclosed.openQuote_eq_none] at hquote
      contradiction
  | balanced hall hnone hclosed =>
    cases hother with
    | extraCloser htokens' _ hfirst' => exact absurd hall (not_closesAll htokens' hfirst')
    | unclosedBracket _ hopen => exact absurd hopen (not_exists.2 hnone)
    | unclosedQuote _ _ htokens' hstays' =>
      have hquote := hstays'.openQuote_eq_some
      rw [← htokens', hclosed.openQuote_eq_none] at hquote
      contradiction
    | balanced => rfl

theorem exists_depth_pos {front back : List Token} {token : Token}
    (hall : ClosesAll (front ++ token :: back)) (hstays : StaysOpen front token back) :
    ∃ family, 0 < depth family (front ++ token :: back) := by
  obtain ⟨family, -, hdeeper⟩ := hstays
  have hnonneg := depth_nonneg_of_not_closesNothing hall family (List.prefix_append front _)
  have hend := hdeeper back (List.prefix_refl back)
  exact ⟨family, by omega⟩

theorem of_check (hincreasing : IsIncreasing tokens) : Verdict tokens (check tokens) := by
  obtain ⟨front, token, back, family, htokens, hcloses, hfirst, hcheck⟩ | ⟨hall,
    ⟨front, token, back, family, htokens, hopens, hfirst, hcheck⟩ | ⟨hzero, hcheck⟩⟩ :=
    check_cases hincreasing
  · rw [hcheck]
    exact .extraCloser htokens hcloses hfirst
  · rw [hcheck]
    refine .unclosedBracket hall ?_ htokens hopens hfirst
    rw [htokens] at hall ⊢
    exact exists_depth_pos hall hfirst.holds
  · have hnone : ∀ family, ¬ 0 < depth family tokens := by
      intro family
      rw [hzero family]
      exact Int.lt_irrefl 0
    rw [hcheck]
    obtain hclosed | ⟨front, token, back, htokens, hstays⟩ :=
      quotesClosed_or_exists_staysQuoted tokens
    · rw [hclosed.openQuote_eq_none]
      exact .balanced hall hnone hclosed
    · have hquote := hstays.openQuote_eq_some
      rw [← htokens] at hquote
      rw [hquote]
      exact .unclosedQuote hall hnone htokens hstays

end Verdict

theorem check_eq_iff_verdict {tokens : List Token} (hincreasing : IsIncreasing tokens)
    (outcome : Except Failure Unit) : check tokens = outcome ↔ Verdict tokens outcome := by
  constructor
  · rintro rfl
    exact .of_check hincreasing
  · intro h
    exact (Verdict.of_check hincreasing).unique h

theorem check_eq_iff_verdict_nested :
    let tokens : List Token := [⟨.bracket, ['\x7b'], ⟨0, 0⟩⟩, ⟨.quote, ['\''], ⟨0, 1⟩⟩,
      ⟨.bracket, ['['], ⟨0, 2⟩⟩, ⟨.bracket, ['('], ⟨0, 3⟩⟩, ⟨.bracket, ['\x7d'], ⟨1, 0⟩⟩,
      ⟨.bracket, ['('], ⟨1, 1⟩⟩, ⟨.bracket, [')'], ⟨1, 2⟩⟩]
    IsIncreasing tokens ∧
      Verdict tokens (.error ⟨.unclosedBracket '[' ']', ⟨0, 2⟩, 1⟩) := by
  intro tokens
  have hincreasing : IsIncreasing tokens := by
    unfold IsIncreasing
    decide
  exact ⟨hincreasing, (check_eq_iff_verdict hincreasing _).1 rfl⟩

end Balance

end Preflight
