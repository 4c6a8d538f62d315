import Preflight.Token
import Preflight.Problem

/-!
This module contains the cutting of a command line into tokens.

- Blanks that are not escaped separate words.
- A backslash escapes the next character, both stay in the word.
- A quote character, the raw interior up to the next such character as one word, and the closing
  quote character are three tokens. The interior may be empty.
- A bracket, `|` or `$` that is not escaped is a token of its own.
-/

namespace Preflight

/--
The tokens of a command line, and the opening quote that is never closed if there is one. After such
a quote the rest of the command line is one word, and that is the last token.
-/
structure Lexed where
  tokens : List Token
  unterminated : Option Token
  deriving DecidableEq, Repr

namespace Lexed

def after (tokens : List Token) (lexed : Lexed) : Lexed :=
  { lexed with tokens := tokens ++ lexed.tokens }

end Lexed

namespace Lexer

def endsWord (c : Char) : Bool :=
  Text.isBlank c || Word.isQuote c || (Token.Kind.ofPunctuation? c).isSome

def takeWord : Text → Text × Text
  | [] => ([], [])
  | '\\' :: [] => (['\\'], [])
  -- An escaped character never ends a word.
  | '\\' :: c :: cs =>
    let (word, rest) := takeWord cs
    ('\\' :: c :: word, rest)
  | c :: cs =>
    if endsWord c then
      ([], c :: cs)
    else
      let (word, rest) := takeWord cs
      (c :: word, rest)

def takeQuoted (quote : Char) (t : Text) : Text × Text :=
  (t.takeWhile (· != quote), t.dropWhile (· != quote))

theorem takeWord_append (t : Text) : (takeWord t).1 ++ (takeWord t).2 = t := by
  fun_induction takeWord t <;> simp_all

theorem length_takeWord_le (t : Text) : (takeWord t).2.length ≤ t.length := by
  have h := congrArg List.length (takeWord_append t)
  simp only [List.length_append] at h
  omega

theorem length_takeWord_lt {c : Char} {cs : Text} (h : endsWord c = false) :
    (takeWord (c :: cs)).2.length < (c :: cs).length := by
  rw [takeWord.eq_def]
  split
  · simp_all
  · simp
  · rename_i heq
    have hle := length_takeWord_le
    simp only [List.cons.injEq] at heq
    simp only [List.length_cons, heq]
    exact Nat.lt_succ_of_lt (Nat.lt_succ_of_le (hle _))
  · rename_i d ds _ _ heq
    simp only [List.cons.injEq] at heq
    obtain ⟨rfl, rfl⟩ := heq
    simp only [h]
    simpa using Nat.lt_succ_of_le (length_takeWord_le cs)

theorem length_takeQuoted_le (quote : Char) (t : Text) :
    (takeQuoted quote t).2.length ≤ t.length := by
  exact (List.dropWhile_suffix _).length_le

def lexFrom (loc : Location) (t : Text) : Lexed :=
  match t with
  | [] => ⟨[], none⟩
  | c :: cs =>
    if hb : Text.isBlank c then
      lexFrom (loc.advance c) cs
    else if hq : Word.isQuote c then
      let opening : Token := ⟨.quote, [c], loc⟩
      let inside := loc.advance c
      match h : takeQuoted c cs with
      | (interior, []) => ⟨[opening, ⟨.word, interior, inside⟩], some opening⟩
      | (interior, close :: rest) =>
        have : rest.length < cs.length := by
          have hle := length_takeQuoted_le c cs
          rw [h] at hle
          simp only [List.length_cons] at hle
          omega
        let closing := inside.after interior
        (lexFrom (closing.advance close) rest).after
          [opening, ⟨.word, interior, inside⟩, ⟨.quote, [close], closing⟩]
    else
      match hp : Token.Kind.ofPunctuation? c with
      | some kind => (lexFrom (loc.advance c) cs).after [⟨kind, [c], loc⟩]
      | none =>
        have : (takeWord (c :: cs)).2.length < (c :: cs).length :=
          length_takeWord_lt (by simp [endsWord, hb, hq, hp])
        (lexFrom (loc.after (takeWord (c :: cs)).1) (takeWord (c :: cs)).2).after
          [⟨.word, (takeWord (c :: cs)).1, loc⟩]
termination_by t.length
decreasing_by all_goals simp_all; try omega

end Lexer

def lex (t : Text) : Lexed := Lexer.lexFrom .start t

def tokenize (t : Text) : Except Failure (List Token) :=
  match lex t with
  | ⟨_, some quote⟩ => .error ⟨.unterminatedQuote quote.text, quote.source, 1⟩
  | ⟨tokens, none⟩ => .ok tokens

end Preflight
