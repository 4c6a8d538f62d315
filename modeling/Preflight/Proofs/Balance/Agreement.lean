import Mathlib.Data.List.Induction
import Preflight.Proofs.Balance.Cut

/-!
This module contains that the lexer and the check of the brackets and quotes agree: whether and
where a quote stays open they find out in different ways, but with the same result.
-/

namespace Preflight

namespace Problem

def isAboutBracket : Problem → Bool
  | extraCloser _ | unclosedBracket _ _ => true
  | _ => false

end Problem

namespace Balance

def IsBalanced (brackets : List Bracket) : Prop :=
  ∀ family,
    (∀ front, front <+: brackets →
      front.count (.closes family) ≤ front.count (.opens family)) ∧
    brackets.count (.opens family) = brackets.count (.closes family)

theorem depth_eq_count_sub_count (family : Family) (tokens : List Token) :
    depth family tokens = ((tokens.filterMap Bracket.ofToken?).count (.opens family) : Int)
      - (tokens.filterMap Bracket.ofToken?).count (.closes family) := by
  unfold depth
  simp only [List.count_filterMap, beq_eq_decide]

theorem isBalanced_filterMap_ofToken?_iff {tokens : List Token} :
    IsBalanced (tokens.filterMap Bracket.ofToken?) ↔
      (∀ family front, front <+: tokens → 0 ≤ depth family front) ∧
        ∀ family, depth family tokens = 0 := by
  constructor
  · intro h
    constructor
    · intro family front hfront
      have hcount := (h family).1 _ (hfront.filterMap Bracket.ofToken?)
      rw [depth_eq_count_sub_count]
      omega
    · intro family
      have hcount := (h family).2
      rw [depth_eq_count_sub_count]
      omega
  · rintro ⟨hnonneg, hzero⟩ family
    constructor
    · intro front hfront
      obtain ⟨front, hprefix, rfl⟩ := List.prefix_filterMap_iff.1 hfront
      have hdepth := hnonneg family front hprefix
      rw [depth_eq_count_sub_count] at hdepth
      omega
    · have hdepth := hzero family
      rw [depth_eq_count_sub_count] at hdepth
      omega

theorem depth_nonneg_of_not_closesNothing {tokens : List Token}
    (h : ∀ front token back, tokens = front ++ token :: back → ¬ ClosesNothing front token back)
    (family : Family) {front : List Token} (hfront : front <+: tokens) :
    0 ≤ depth family front := by
  induction front using List.reverseRecOn with
  | nil => exact Int.le_refl 0
  | append_singleton front token ih =>
    have hnonneg := ih ((List.prefix_append front [token]).trans hfront)
    cases hbracket : Bracket.ofToken? token with
    | none => rwa [depth_concat_of_none hbracket]
    | some bracket =>
      cases bracket with
      | opens other =>
        rw [depth_concat_of_opens hbracket]
        split <;> omega
      | closes other =>
        rw [depth_concat_of_closes hbracket]
        split
        case isTrue hfamily =>
          subst hfamily
          obtain ⟨back, rfl⟩ := hfront
          have hne : depth family front ≠ 0 := fun hzero =>
            h front token back (by simp) ⟨family, hbracket, hzero⟩
          omega
        case isFalse => omega

theorem not_isBalanced_of_closesNothing {front back : List Token} {token : Token}
    (h : ClosesNothing front token back) :
    ¬ IsBalanced ((front ++ token :: back).filterMap Bracket.ofToken?) := by
  rw [isBalanced_filterMap_ofToken?_iff]
  rintro ⟨hnonneg, -⟩
  obtain ⟨family, hcloses, hzero⟩ := h
  have hnext := hnonneg family (front ++ [token]) (by simp)
  rw [depth_concat_of_closes hcloses, hzero, if_pos rfl] at hnext
  omega

theorem not_isBalanced_of_staysOpen {front back : List Token} {token : Token}
    (h : StaysOpen front token back) :
    ¬ IsBalanced ((front ++ token :: back).filterMap Bracket.ofToken?) := by
  rw [isBalanced_filterMap_ofToken?_iff]
  rintro ⟨hnonneg, hzero⟩
  obtain ⟨family, -, hstays⟩ := h
  have hfront := hnonneg family front (List.prefix_append _ _)
  have hlast := hstays back (List.prefix_refl back)
  rw [hzero family] at hlast
  omega

theorem check_of_isIncreasing {tokens : List Token} (hincreasing : IsIncreasing tokens) :
    (¬ IsBalanced (tokens.filterMap Bracket.ofToken?) ∧
        ∃ failure, check tokens = .error failure ∧ failure.problem.isAboutBracket = true) ∨
      IsBalanced (tokens.filterMap Bracket.ofToken?) ∧
        check tokens = match openQuote tokens with
          | some quote => .error ⟨.unclosedQuote quote.text, quote.source, 1⟩
          | none => .ok () := by
  obtain ⟨front, token, back, family, rfl, -, hfirst, hcheck⟩ | ⟨hnone,
    ⟨front, token, back, family, rfl, -, hfirst, hcheck⟩ | ⟨hzero, hcheck⟩⟩ :=
    check_cases hincreasing
  · exact .inl ⟨not_isBalanced_of_closesNothing hfirst.holds, _, hcheck, rfl⟩
  · exact .inl ⟨not_isBalanced_of_staysOpen hfirst.holds, _, hcheck, rfl⟩
  · refine .inr ⟨isBalanced_filterMap_ofToken?_iff.2 ⟨?_, hzero⟩, hcheck⟩
    exact fun family front => depth_nonneg_of_not_closesNothing hnone family

end Balance

def Item.bracket? : Item → Option Bracket
  | punctuation .bracket c => Bracket.ofChar? c
  | _ => none

namespace Cut

def brackets : Cut → List Bracket
  | nil _ => []
  | cons _ item rest => item.bracket?.toList ++ rest.brackets

theorem filterMap_ofToken?_tokens (cut : Cut) (loc : Location) :
    (cut.tokens loc).filterMap Bracket.ofToken? = cut.brackets := by
  induction cut generalizing loc with
  | nil blanks => rfl
  | cons blanks item rest ih =>
    unfold tokens brackets
    rw [List.filterMap_append, ih]
    congr 1
    cases item with
    | word text => rfl
    | punctuation kind c =>
      cases kind with
      | bracket =>
        unfold Item.tokens Item.bracket?
        rw [List.filterMap_cons]
        cases hbracket : Bracket.ofChar? c <;> simp [Bracket.ofToken?, hbracket]
      | word => rfl
      | quote => rfl
      | pipe => rfl
      | dollar => rfl
    | quoted quote interior => rfl
    | unclosed quote interior => rfl

end Cut

/--
Of a text that the lexer has nothing against the check never says that a quote is open. Of any other
text it complains about the brackets if those outside of quotes are not balanced, and else about the
very quote that the lexer complains about.
-/
theorem check_tokens_agrees (t : Text) :
    ∃ cut : Cut, cut.IsProper ∧ cut.text = t ∧
      match tokenize t with
      | .ok tokens => tokens = (lex t).tokens ∧
        ∀ failure quote, Balance.check tokens = .error failure →
          failure.problem ≠ .unclosedQuote quote
      | .error failure => ∃ quote source,
        failure = ⟨.unterminatedQuote [quote], source, 1⟩ ∧
          (Balance.IsBalanced cut.brackets →
            Balance.check (lex t).tokens = .error ⟨.unclosedQuote [quote], source, 1⟩) ∧
          (¬ Balance.IsBalanced cut.brackets →
            ∃ other, Balance.check (lex t).tokens = .error other ∧
              other.problem.isAboutBracket = true) := by
  obtain ⟨cut, hcut, rfl⟩ := Cut.exists_isProper t
  refine ⟨cut, hcut, rfl, ?_⟩
  have htokens : (lex cut.text).tokens = cut.tokens .start := by
    unfold lex
    rw [Cut.lexFrom_text hcut]
  have hcheck := Balance.check_of_isIncreasing (Cut.isIncreasing_tokens cut .start)
  rw [Cut.filterMap_ofToken?_tokens, Cut.openQuote_tokens hcut] at hcheck
  rw [htokens, Cut.tokenize_text hcut]
  cases hquote : cut.unterminated? .start with
  | none =>
    refine ⟨rfl, ?_⟩
    intro failure quote herror
    rw [hquote] at hcheck
    obtain ⟨-, other, hother, hbracket⟩ | ⟨-, hok⟩ := hcheck
    · rw [hother] at herror
      rw [← Except.error.inj herror]
      rintro hproblem
      rw [hproblem] at hbracket
      contradiction
    · rw [hok] at herror
      contradiction
  | some token =>
    obtain ⟨placed, -, quote, interior, -, rfl⟩ :=
      @Cut.exists_placed_of_unterminated? cut [] _ hquote
    refine ⟨quote, placed.source, rfl, ?_, ?_⟩
    · intro hbalanced
      obtain ⟨hnot, -⟩ | ⟨-, herror⟩ := hcheck
      · contradiction
      · rw [herror, hquote]
    · intro hnot
      obtain ⟨-, hbracket⟩ | ⟨hbalanced, -⟩ := hcheck
      · exact hbracket
      · contradiction

theorem check_tokens_agrees_bracketOutside :
    (∃ source, tokenize ['\'', '(', '"'] = .error ⟨.unterminatedQuote ['\''], source, 1⟩ ∧
      Balance.check (lex ['\'', '(', '"']).tokens =
        .error ⟨.unclosedQuote ['\''], source, 1⟩) ∧
    ∃ source other, tokenize ['(', '\'', '"'] = .error ⟨.unterminatedQuote ['\''], source, 1⟩ ∧
      Balance.check (lex ['(', '\'', '"']).tokens = .error other ∧
      other.problem.isAboutBracket = true := by
  constructor
  · have htokenize : tokenize ['\'', '(', '"'] =
        .error ⟨.unterminatedQuote ['\''], .start, 1⟩ := by cbv
    obtain ⟨cut, hcut, htext, hagrees⟩ := check_tokens_agrees ['\'', '(', '"']
    have hproper : (Cut.cons [] (.unclosed '\'' ['(', '"']) (.nil [])).IsProper := by decide
    obtain rfl := Cut.eq_of_text_eq hcut hproper htext
    rw [htokenize] at hagrees
    obtain ⟨quote, source, hfailure, hbalanced, -⟩ := hagrees
    cases hfailure
    exact ⟨_, htokenize, hbalanced fun family => by simp [Cut.brackets, Item.bracket?]⟩
  · have htokenize : tokenize ['(', '\'', '"'] =
        .error ⟨.unterminatedQuote ['\''], ⟨0, 1⟩, 1⟩ := by cbv
    obtain ⟨cut, hcut, htext, hagrees⟩ := check_tokens_agrees ['(', '\'', '"']
    have hproper : (Cut.cons [] (.punctuation .bracket '(')
        (.cons [] (.unclosed '\'' ['"']) (.nil []))).IsProper := by
      decide
    obtain rfl := Cut.eq_of_text_eq hcut hproper htext
    rw [htokenize] at hagrees
    obtain ⟨quote, source, hfailure, -, hunbalanced⟩ := hagrees
    cases hfailure
    obtain ⟨other, herror, hbracket⟩ := hunbalanced fun hbalanced => by
      have hcount := (hbalanced .round).2
      revert hcount
      decide
    exact ⟨_, other, htokenize, herror, hbracket⟩

end Preflight
