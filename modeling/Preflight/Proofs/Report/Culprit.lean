import Mathlib.Data.List.Infix
import Preflight.Proofs.Balance.Cut
import Preflight.Proofs.Report.Highlight
import Preflight.Proofs.Resolution
import Preflight.Proofs.Syntax.Grammar

/-!
This module contains what is set off in the reports about a command line: the very characters that
are wrong, whatever stands around them.
-/

namespace Preflight

namespace Cut

def IsUnclosedQuote (cut : Cut) (before : Text) (quote : Char) (after : Text) : Prop :=
  ⟨before, .unclosed quote after⟩ ∈ cut.placed [] ∧ quote ∉ after

def IsOddBracket (cut : Cut) (before : Text) (c : Char) : Prop :=
  ⟨before, .punctuation .bracket c⟩ ∈ cut.placed [] ∧
    ∃ front back, cut.tokens .start =
        front ++ ⟨.bracket, [c], Location.start.after before⟩ :: back ∧
      Balance.IsOdd front ⟨.bracket, [c], Location.start.after before⟩ back

def IsCommandWord (cut : Cut) (before typed : Text) : Prop :=
  ∃ placed, (cut.placed []).find? Placed.isCommand = some placed ∧
    placed.content? = some (typed, Location.start.after before)

section highlights

variable {cut : Cut} (hcut : cut.IsProper) (theme : Theme) (file : Text) {failure : Failure}
include hcut

theorem highlights_quote (h : tokenize cut.text = .error failure) :
    ∃ before quote after, cut.text = before ++ [quote] ++ after ∧
      cut.IsUnclosedQuote before quote after ∧
      Report.Highlights theme failure.diagnostic file before [quote] after := by
  rw [tokenize_text hcut] at h
  cases hquote : cut.unterminated? .start with
  | none =>
    rw [hquote] at h
    contradiction
  | some token =>
    rw [hquote] at h
    obtain ⟨⟨before, item⟩, hmem, quote, interior, rfl, rfl⟩ :=
      @exists_placed_of_unterminated? cut [] _ hquote
    obtain ⟨hproper, after, htext, hlast⟩ := exists_text_eq_of_mem_placed hcut hmem
    rw [hlast quote interior rfl, List.nil_append, List.append_nil] at htext
    refine ⟨before, quote, interior, by simpa [Item.written] using htext, ⟨hmem, hproper.2⟩, ?_⟩
    rw [← Except.error.inj h]
    exact Report.highlights_of_source_eq theme rfl file rfl (by simp)
      (List.forall_mem_singleton.2 (Token.Kind.ne_of_mem_signs hproper.1).2) interior

theorem highlights_bracket {tokens : List Token} (hok : tokenize cut.text = .ok tokens)
    (h : Balance.check tokens = .error failure) :
    ∃ before c after, cut.text = before ++ [c] ++ after ∧ cut.IsOddBracket before c ∧
      Report.Highlights theme failure.diagnostic file before [c] after := by
  obtain ⟨rfl, hquote⟩ := tokenize_text_eq_ok hcut hok
  obtain ⟨front, token, back, bracket, problem, htokens, hbracket, hodd, rfl⟩ :=
    Balance.exists_isOdd_of_check_eq_error (isIncreasing_tokens cut .start) hquote h
  have hmem : token ∈ cut.tokens .start := by simp [htokens]
  obtain ⟨⟨before, item⟩, hplaced, c, rfl, rfl⟩ :=
    @exists_placed_of_mem_tokens cut token bracket [] hmem hbracket
  obtain ⟨hproper, after, htext, _⟩ := exists_text_eq_of_mem_placed hcut hplaced
  refine ⟨before, c, after, htext, ⟨hplaced, front, back, htokens, hodd⟩, ?_⟩
  exact Report.highlights_of_source_eq theme rfl file rfl (by simp)
    (List.forall_mem_singleton.2 (Token.Kind.ne_of_mem_signs hproper.2).2) after

theorem highlights_command {tokens : List Token} (hok : tokenize cut.text = .ok tokens)
    {σ : Type} {resolver : Resolver}
    {confirm : Text → List Char → StateM σ (Except ReadError Char)} {s : σ}
    (h : (resolve resolver confirm (parse tokens) s).1 = .error failure) :
    ∃ before typed after, cut.text = before ++ typed ++ after ∧ cut.IsCommandWord before typed ∧
      Report.Highlights theme failure.diagnostic file before typed after := by
  obtain ⟨rfl, -⟩ := tokenize_text_eq_ok hcut hok
  have hrepresents := Tree.represents_parse (cut.tokens .start)
  rw [clauses_tokens hcut] at hrepresents
  cases hfind : (cut.placed []).find? Placed.isCommand with
  | none =>
    rw [resolve_of_no_command
      (hrepresents.command?_eq_none (Placed.kind_ne_of_find?_eq_none hfind))] at h
    contradiction
  | some placed =>
    have hcommand := List.find?_some hfind
    unfold Placed.isCommand at hcommand
    rw [Option.any_eq_true] at hcommand
    obtain ⟨⟨typed, source⟩, hcontent, htyped⟩ := hcommand
    have hclause : .command typed source ∈ clauses (cut.tokens .start) := by
      rw [clauses_tokens hcut]
      refine Placed.mem_statement_of_find?_eq_some hfind ?_
      unfold Placed.command?
      rw [hcontent]
      rfl
    obtain ⟨before', after', hrepresents', hbefore, _⟩ :=
      Tree.exists_represents_of_command_mem hclause
    obtain ⟨id, corrected, hid, hentry, _⟩ := hrepresents'.exists_command hbefore
    have habout := isAbout_of_resolve_eq_error hid hentry h
    obtain ⟨before, after, htext, rfl⟩ :=
      exists_text_eq_of_content? hcut (List.mem_of_find?_eq_some hfind) hcontent
    rw [htext]
    refine ⟨before, typed, after, rfl, ⟨placed, hfind, hcontent⟩, ?_⟩
    have hne := Word.ne_nil_of_isCommand htyped
    have hlength : failure.diagnostic.length = typed.length := by
      rw [habout.length]
      exact Nat.max_eq_left (List.length_pos_iff.2 hne)
    exact Report.highlights_of_source_eq theme habout.source file hlength hne
      (fun c hc => (Word.ne_of_isCommand htyped hc).2) after

end highlights

end Cut

/--
Wherever a check of a text fails, the report about it sets off just what is wrong: the quote that is
never closed, the bracket that is odd, or the command as it is typed.
-/
theorem highlights_culprit {σ : Type} (resolver : Resolver)
    (confirm : Text → List Char → StateM σ (Except ReadError Char)) (s : σ) (theme : Theme)
    (t file : Text) :
    ∃ cut : Cut, cut.IsProper ∧ cut.text = t ∧
      (∀ failure, tokenize t = .error failure →
        ∃ before quote after, t = before ++ [quote] ++ after ∧
          cut.IsUnclosedQuote before quote after ∧
          Report.Highlights theme failure.diagnostic file before [quote] after) ∧
      (∀ tokens failure, tokenize t = .ok tokens → Balance.check tokens = .error failure →
        ∃ before c after, t = before ++ [c] ++ after ∧ cut.IsOddBracket before c ∧
          Report.Highlights theme failure.diagnostic file before [c] after) ∧
      ∀ tokens failure, tokenize t = .ok tokens →
        (resolve resolver confirm (parse tokens) s).1 = .error failure →
        ∃ before typed after, t = before ++ typed ++ after ∧ cut.IsCommandWord before typed ∧
          Report.Highlights theme failure.diagnostic file before typed after := by
  obtain ⟨cut, hcut, rfl⟩ := Cut.exists_isProper t
  refine ⟨cut, hcut, rfl, ?_, ?_, ?_⟩
  · exact fun failure => Cut.highlights_quote hcut theme file
  · exact fun tokens failure => Cut.highlights_bracket hcut theme file
  · exact fun tokens failure hok => Cut.highlights_command hcut theme file hok

def Resolver.knowsNothing : Resolver := ⟨⟨[]⟩, [], 0, ⟨[], none⟩⟩

def Cut.onThirdLine (rest : Cut) : Cut :=
  .cons [] (.word "v=é\\\nü".toList) <| .cons [' '] (.quoted '\'' "=ß\nñ".toList) rest

theorem highlights_culprit_onThirdLine :
    (∃ failure, tokenize "v=é\\\nü '=ß\nñ' \"x\ny".toList = .error failure ∧
      Report.Highlights .default failure.diagnostic "argv".toList
        "v=é\\\nü '=ß\nñ' ".toList "\"".toList "x\ny".toList) ∧
    (∃ tokens failure, tokenize "v=é\\\nü '=ß\nñ'\u3000œuf) |\r\n".toList = .ok tokens ∧
      Balance.check tokens = .error failure ∧
      Report.Highlights .default failure.diagnostic "argv".toList
        "v=é\\\nü '=ß\nñ'\u3000œuf".toList ")".toList " |\r\n".toList) ∧
    ∃ tokens failure, tokenize "v=é\\\nü '=ß\nñ'\u3000gti -l\r\n".toList = .ok tokens ∧
      (resolve (m := StateM Unit) Resolver.knowsNothing (fun _ _ => pure (.ok 'y'))
        (parse tokens) ()).1 = .error failure ∧
      Report.Highlights .default failure.diagnostic "argv".toList
        "v=é\\\nü '=ß\nñ'\u3000".toList "gti".toList " -l\r\n".toList := by
  have hculprit := fun t => highlights_culprit (σ := Unit) Resolver.knowsNothing
    (fun _ _ => pure (.ok 'y')) () .default t "argv".toList
  refine ⟨?quote, ?bracket, ?command⟩
  case quote =>
    let cut := Cut.onThirdLine <| .cons [' '] (.unclosed '"' "x\ny".toList) (.nil [])
    have hproper : cut.IsProper := by decide
    have htokenize := Cut.tokenize_text hproper
    obtain ⟨other, hother, htext, hquote, _, _⟩ := hculprit cut.text
    obtain rfl := Cut.eq_of_text_eq hother hproper htext
    obtain ⟨before, quote, after, _, ⟨hmem, _⟩, hhighlights⟩ := hquote _ htokenize
    simp only [cut, Cut.onThirdLine, Cut.placed, List.mem_cons, Placed.mk.injEq, reduceCtorEq,
      and_false, false_or, or_false, Item.unclosed.injEq, List.not_mem_nil] at hmem
    obtain ⟨rfl, rfl, rfl⟩ := hmem
    exact ⟨_, htokenize, hhighlights⟩
  case bracket =>
    let cut := Cut.onThirdLine <| .cons ['\u3000'] (.word "œuf".toList) <|
      .cons [] (.punctuation .bracket ')') <| .cons [' '] (.punctuation .pipe '|') <|
      .nil ['\r', '\n']
    have hproper : cut.IsProper := by decide
    have htokenize := Cut.tokenize_text hproper
    have hcheck : Balance.check (cut.tokens .start) = .error ⟨.extraCloser ')', ⟨2, 6⟩, 1⟩ := rfl
    obtain ⟨other, hother, htext, _, hbracket, _⟩ := hculprit cut.text
    obtain rfl := Cut.eq_of_text_eq hother hproper htext
    obtain ⟨before, c, after, htext', ⟨hmem, _⟩, hhighlights⟩ := hbracket _ _ htokenize hcheck
    simp only [cut, Cut.onThirdLine, Cut.placed, List.mem_cons, Placed.mk.injEq, reduceCtorEq,
      and_false, false_and, false_or, or_false, Item.punctuation.injEq, List.not_mem_nil] at hmem
    obtain ⟨rfl, -, rfl⟩ := hmem
    obtain rfl : " |\r\n".toList = after :=
      @List.append_cancel_left _ "v=é\\\nü '=ß\nñ'\u3000œuf)".toList _ _ htext'
    exact ⟨_, _, htokenize, hcheck, hhighlights⟩
  case command =>
    let cut := Cut.onThirdLine <| .cons ['\u3000'] (.word "gti".toList) <|
      .cons [' '] (.word "-l".toList) <| .nil ['\r', '\n']
    have hproper : cut.IsProper := by decide
    have htokenize := Cut.tokenize_text hproper
    have hresolve : (resolve (m := StateM Unit) Resolver.knowsNothing
        (fun _ _ => pure (.ok 'y')) (parse (cut.tokens .start)) ()).1 =
          .error ⟨.unknownCommand "gti".toList, ⟨2, 3⟩, 3⟩ := rfl
    obtain ⟨other, hother, htext, _, _, hcommand⟩ := hculprit cut.text
    obtain rfl := Cut.eq_of_text_eq hother hproper htext
    obtain ⟨before, typed, after, htext', ⟨placed, hfind, hcontent⟩, hhighlights⟩ :=
      hcommand _ _ htokenize hresolve
    obtain rfl : _ = placed := Option.some.inj hfind
    obtain ⟨rfl, hsource⟩ := Prod.mk.inj (Option.some.inj hcontent)
    have hbefore : ∀ front ∈ cut.text.inits, Location.start.after front = ⟨2, 3⟩ →
        front = "v=é\\\nü '=ß\nñ'\u3000".toList := by decide
    obtain rfl := hbefore before
      ((List.mem_inits _ _).2 ⟨_, (List.append_assoc ..).symm.trans htext'.symm⟩) hsource.symm
    obtain rfl : " -l\r\n".toList = after :=
      @List.append_cancel_left _ "v=é\\\nü '=ß\nñ'\u3000gti".toList _ _ htext'
    exact ⟨_, _, htokenize, hresolve, hhighlights⟩

end Preflight
