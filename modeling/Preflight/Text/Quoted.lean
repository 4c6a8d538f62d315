import Preflight.Text.Numeral
import Preflight.Text.Printed

/-!
This module contains the quoted form of texts, in which every character that is not printed as
itself is written as an escape sequence.
-/

namespace Preflight

namespace Text

def escapeChar (c : Char) : Text :=
  if c = '\x00' then ['\\', '0']
  else if c = '\t' then ['\\', 't']
  else if c = '\r' then ['\\', 'r']
  else if c = '\n' then ['\\', 'n']
  else if c = '\\' then ['\\', '\\']
  else if c = '"' then ['\\', '"']
  else if isPrinted c then [c]
  else ['\\', 'u', '\x7b'] ++ hexadecimal c.toNat ++ ['\x7d']

def quote (t : Text) : Text := '"' :: t.flatMap escapeChar ++ ['"']

def quoteList (ts : List Text) : Text :=
  '[' :: [',', ' '].intercalate (ts.map quote) ++ [']']

end Text

end Preflight
