import Preflight.Location
import Preflight.Text.Quoted
import Preflight.Word

/-!
This module contains the tokens of a command line.
-/

namespace Preflight

namespace Token

/--
What a token is. A word is a run of characters that are not punctuation, or the raw interior of a
quoted text.
-/
inductive Kind where
  | word
  | bracket
  | quote
  | pipe
  | dollar
  deriving DecidableEq, Repr

namespace Kind

def ofPunctuation? (c : Char) : Option Kind :=
  if c == '(' || c == ')' || c == '\x7b' || c == '\x7d' || c == '[' || c == ']' then some bracket
  else if c == '|' then some pipe
  else if c == '$' then some dollar
  else none

def name : Kind → String
  | word => "word"
  | bracket => "bracket"
  | quote => "quote"
  | pipe => "pipe"
  | dollar => "dollar"

end Kind

end Token

structure Token where
  kind : Token.Kind
  text : Text
  source : Location
  deriving DecidableEq, Repr

namespace Token

def display (token : Token) : Text :=
  token.source.display ++ ' ' :: token.kind.name.toList ++ ' ' :: Text.quote token.text

end Token

end Preflight
