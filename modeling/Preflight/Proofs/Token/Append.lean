import Preflight.Proofs.Text.Backslashes
import Preflight.Proofs.Token.Cut

/-!
This module contains what the lexer makes of a text that is put behind another one: apart from where
they stand the tokens are the same as without it, unless the other text leaves something open.
-/

namespace Preflight

namespace Location

/--
Where something stands in a whole text if it stands at `loc` in a part that starts at `origin`. Only
the first line of the part is moved to the right.
-/
def relocate (origin loc : Location) : Location :=
  if loc.line = 0 then ⟨origin.line, origin.column + loc.column⟩
  else ⟨origin.line + loc.line, loc.column⟩

variable (origin loc : Location)

theorem advance_relocate (c : Char) :
    (origin.relocate loc).advance c = origin.relocate (loc.advance c) := by
  unfold relocate advance
  by_cases hc : c = '\n'
  · by_cases hline : loc.line = 0 <;> simp [hc, hline, Nat.add_assoc]
  · by_cases hline : loc.line = 0 <;> simp [hc, hline, Nat.add_assoc]

theorem after_relocate (t : Text) :
    (origin.relocate loc).after t = origin.relocate (loc.after t) := by
  induction t generalizing loc with
  | nil => rfl
  | cons c t ih =>
    rw [after_cons, advance_relocate, ih]
    rfl

end Location

namespace Token

def relocate (origin : Location) (token : Token) : Token :=
  { token with source := origin.relocate token.source }

end Token

section relocate

variable (origin loc : Location)

theorem Item.tokens_relocate (item : Item) :
    item.tokens (origin.relocate loc) = (item.tokens loc).map (Token.relocate origin) := by
  cases item with
  | word text => rfl
  | punctuation kind c => rfl
  | quoted quote interior =>
    simp only [tokens, Location.advance_relocate, Location.after_relocate]
    rfl
  | unclosed quote interior =>
    simp only [tokens, Location.advance_relocate]
    rfl

theorem Item.unterminated?_relocate (item : Item) :
    item.unterminated? (origin.relocate loc) =
      (item.unterminated? loc).map (Token.relocate origin) := by
  cases item <;> rfl

theorem Cut.tokens_relocate (cut : Cut) :
    cut.tokens (origin.relocate loc) = (cut.tokens loc).map (Token.relocate origin) := by
  induction cut generalizing loc with
  | nil blanks => rfl
  | cons blanks item rest ih =>
    unfold tokens
    rw [Location.after_relocate, Location.after_relocate, Item.tokens_relocate, ih]
    rw [List.map_append]

theorem Cut.unterminated?_relocate (cut : Cut) :
    cut.unterminated? (origin.relocate loc) =
      (cut.unterminated? loc).map (Token.relocate origin) := by
  induction cut generalizing loc with
  | nil blanks => rfl
  | cons blanks item rest ih =>
    unfold unterminated?
    rw [Location.after_relocate, Location.after_relocate, Item.unterminated?_relocate, ih]
    cases item.unterminated? (loc.after blanks) <;> rfl

theorem Lexer.lexFrom_relocate (t : Text) :
    lexFrom (origin.relocate loc) t =
      ⟨(lexFrom loc t).tokens.map (Token.relocate origin),
        (lexFrom loc t).unterminated.map (Token.relocate origin)⟩ := by
  obtain ⟨cut, hcut, rfl⟩ := Cut.exists_isProper t
  rw [Cut.lexFrom_text hcut, Cut.lexFrom_text hcut]
  rw [Cut.tokens_relocate, Cut.unterminated?_relocate]

end relocate

def Item.IsComplete : Item → Prop
  | word text => Lexer.IsWord text
  | unclosed _ _ => False
  | _ => True

def Cut.IsComplete : Cut → Prop
  | nil _ => True
  | cons _ item rest => item.IsComplete ∧ rest.IsComplete

theorem Lexer.IsWord.even_backslashesAtEnd_append {w : Text} (h : IsWord w) {s : Text}
    (hs : Even (Text.backslashesAtEnd s)) : Even (Text.backslashesAtEnd (s ++ w)) := by
  induction h generalizing s with
  | nil => rwa [List.append_nil]
  | @plain c w _ _ hne _ ih =>
    rw [List.append_cons]
    exact ih (Text.even_backslashesAtEnd_concat_of_ne s hne)
  | @escaped c w _ ih =>
    rw [List.append_cons, List.append_cons]
    apply ih
    by_cases hc : c = '\\'
    · subst hc
      rw [Text.backslashesAtEnd_concat_backslash, Text.backslashesAtEnd_concat_backslash]
      exact hs.add_one.add_one
    · exact Text.even_backslashesAtEnd_concat_of_ne _ hc

namespace Item

variable {item : Item}

theorem IsComplete.even_backslashesAtEnd_append (h : item.IsComplete) (hproper : item.IsProper)
    {s : Text} (hs : Even (Text.backslashesAtEnd s)) :
    Even (Text.backslashesAtEnd (s ++ item.written)) := by
  cases item with
  | word text => exact Lexer.IsWord.even_backslashesAtEnd_append h hs
  | punctuation kind c =>
    have hne := (Token.Kind.ne_of_mem_signs hproper.2).1
    exact Text.even_backslashesAtEnd_concat_of_ne s hne
  | quoted quote interior =>
    have hne := (Token.Kind.ne_of_mem_signs hproper.1).1
    unfold written
    rw [← List.append_assoc]
    exact Text.even_backslashesAtEnd_concat_of_ne _ hne
  | unclosed quote interior => exact h.elim

theorem fitsBefore_append {rest : Cut} {t : Text} (h : item.IsComplete)
    (hprecedes : item.Precedes rest) (hrest : rest.IsProper) (ht : Lexer.EndsAt t) :
    item.FitsBefore (rest.text ++ t) := by
  cases item with
  | word text =>
    refine .inl ⟨h, ?_⟩
    have hends := (Cut.endsAt_text_iff hrest).2 hprecedes.1
    cases htext : rest.text with
    | nil => exact ht
    | cons c cs =>
      rw [htext] at hends
      exact Lexer.endsAt_cons_iff.2 (Lexer.endsAt_cons_iff.1 hends)
  | punctuation kind c => trivial
  | quoted quote interior => trivial
  | unclosed quote interior => exact h.elim

end Item

namespace Cut

theorem lexFrom_text_append {cut : Cut} (h : cut.IsProper) (hcomplete : cut.IsComplete) {t : Text}
    (ht : Lexer.EndsAt t) (loc : Location) :
    Lexer.lexFrom loc (cut.text ++ t) =
      (Lexer.lexFrom (loc.after cut.text) t).after (cut.tokens loc) := by
  induction cut generalizing loc with
  | nil blanks => exact Lexer.lexFrom_blanks h loc t
  | cons blanks item rest ih =>
    obtain ⟨hblanks, hitem, hprecedes, hrest⟩ := h
    obtain ⟨hwhole, hrestWhole⟩ := hcomplete
    have hfits := Item.fitsBefore_append hwhole hprecedes hrest ht
    have hclosed : item.unterminated? (loc.after blanks) = none := by
      cases item with
      | unclosed quote interior => exact hwhole.elim
      | _ => rfl
    unfold text tokens
    rw [List.append_assoc, List.append_assoc, Lexer.lexFrom_blanks hblanks]
    rw [Item.lexFrom_written_append hitem hfits, ih hrest hrestWhole, hclosed]
    rw [Location.after_append, Location.after_append]
    simp [Lexed.after]

theorem isComplete_of_even {cut : Cut} (h : cut.IsProper) {loc : Location}
    (hclosed : cut.unterminated? loc = none) {before : Text}
    (hbefore : Even (Text.backslashesAtEnd before))
    (heven : Even (Text.backslashesAtEnd (before ++ cut.text))) : cut.IsComplete := by
  induction cut generalizing before loc with
  | nil blanks => trivial
  | cons blanks item rest ih =>
    obtain ⟨hblanks, hitem, hprecedes, hrest⟩ := h
    obtain ⟨hitemClosed, hrestClosed⟩ := Option.or_eq_none_iff.1 hclosed
    have hfront : Even (Text.backslashesAtEnd (before ++ blanks)) := by
      apply Text.even_backslashesAtEnd_append hbefore
      rintro c hc rfl
      exact absurd (hblanks _ hc) (by decide)
    unfold text at heven
    rw [← List.append_assoc, ← List.append_assoc] at heven
    have hwhole : item.IsComplete := by
      cases item with
      | word text =>
        rcases hprecedes.2 with hword | hnil
        · exact hword
        · rcases hitem.2 with hword | ⟨v, hv, rfl⟩
          · exact hword
          · -- The word is the last thing in the text and ends in one backslash too many.
            have hodd := (hv.even_backslashesAtEnd_append hfront).add_one
            unfold Item.written at heven
            rw [hnil, List.append_nil, ← List.append_assoc] at heven
            rw [Text.backslashesAtEnd_concat_backslash] at heven
            exact absurd heven (Nat.not_even_iff_odd.2 hodd)
      | unclosed quote interior => contradiction
      | punctuation kind c => trivial
      | quoted quote interior => trivial
    exact ⟨hwhole, ih hrest hrestClosed (hwhole.even_backslashesAtEnd_append hitem hfront) heven⟩

end Cut

theorem tokenize_append_space {a b : Text} {tokens : List Token} (hok : tokenize a = .ok tokens)
    (heven : Even (Text.backslashesAtEnd a)) :
    let reached := Location.start.after a
    let origin : Location := ⟨reached.line, reached.column + 1⟩
    (lex (a ++ [' '] ++ b)).tokens = tokens ++ (lex b).tokens.map (Token.relocate origin) ∧
      tokenize (a ++ [' '] ++ b) =
        match tokenize b with
        | .ok later => .ok (tokens ++ later.map (Token.relocate origin))
        | .error failure => .error { failure with source := origin.relocate failure.source } := by
  intro reached origin
  obtain ⟨cut, hcut, rfl⟩ := Cut.exists_isProper a
  rw [Cut.tokenize_text hcut] at hok
  cases hclosed : cut.unterminated? .start with
  | some quote =>
    rw [hclosed] at hok
    contradiction
  | none =>
    rw [hclosed] at hok
    have htokens : cut.tokens .start = tokens := Except.ok.inj hok
    have hcomplete : cut.IsComplete :=
      @Cut.isComplete_of_even cut hcut .start hclosed [] (by decide) heven
    have hspace : Lexer.EndsAt (' ' :: b) := Lexer.endsAt_cons_iff.2 (by decide)
    have hadvance : (Location.start.after cut.text).advance ' ' = origin.relocate .start := rfl
    have hlex : lex (cut.text ++ [' '] ++ b) =
        ⟨tokens ++ (lex b).tokens.map (Token.relocate origin),
          (lex b).unterminated.map (Token.relocate origin)⟩ := by
      unfold lex
      rw [List.append_assoc, List.singleton_append]
      rw [Cut.lexFrom_text_append hcut hcomplete hspace, Lexer.lexFrom_blank (by decide)]
      rw [hadvance, Lexer.lexFrom_relocate, htokens]
      rfl
    refine ⟨congrArg Lexed.tokens hlex, ?_⟩
    unfold tokenize
    rw [hlex]
    obtain ⟨later, unterminated⟩ := lex b
    cases unterminated <;> rfl

theorem tokenize_append_space_lineFeeds :
    tokenize ['\'', '\n', '\'', '\\', '\\'] =
        .ok [⟨.quote, ['\''], ⟨0, 0⟩⟩, ⟨.word, ['\n'], ⟨0, 1⟩⟩, ⟨.quote, ['\''], ⟨1, 0⟩⟩,
          ⟨.word, ['\\', '\\'], ⟨1, 1⟩⟩] ∧
      Even (Text.backslashesAtEnd ['\'', '\n', '\'', '\\', '\\']) ∧
      (lex (['\'', '\n', '\'', '\\', '\\'] ++ [' '] ++ [')', '\n', '"'])).tokens =
        [⟨.quote, ['\''], ⟨0, 0⟩⟩, ⟨.word, ['\n'], ⟨0, 1⟩⟩, ⟨.quote, ['\''], ⟨1, 0⟩⟩,
          ⟨.word, ['\\', '\\'], ⟨1, 1⟩⟩, ⟨.bracket, [')'], ⟨1, 4⟩⟩, ⟨.quote, ['"'], ⟨2, 0⟩⟩,
          ⟨.word, [], ⟨2, 1⟩⟩] ∧
      tokenize (['\'', '\n', '\'', '\\', '\\'] ++ [' '] ++ [')', '\n', '"']) =
        .error ⟨.unterminatedQuote ['"'], ⟨2, 0⟩, 1⟩ := by
  have hproper : (Cut.cons [] (.quoted '\'' ['\n'])
      (.cons [] (.word ['\\', '\\']) (.nil []))).IsProper := by
    decide
  have hok := Cut.tokenize_text hproper
  have heven : Even (Text.backslashesAtEnd ['\'', '\n', '\'', '\\', '\\']) := by decide
  have hbehind : tokenize [')', '\n', '"'] = .error ⟨.unterminatedQuote ['"'], ⟨1, 0⟩, 1⟩ := by cbv
  have htokens : (lex [')', '\n', '"']).tokens =
      [⟨.bracket, [')'], ⟨0, 0⟩⟩, ⟨.quote, ['"'], ⟨1, 0⟩⟩, ⟨.word, [], ⟨1, 1⟩⟩] := by cbv
  obtain ⟨hlex, htokenize⟩ := @tokenize_append_space _ [')', '\n', '"'] _ hok heven
  rw [htokens] at hlex
  rw [hbehind] at htokenize
  exact ⟨hok, heven, hlex, htokenize⟩

end Preflight
