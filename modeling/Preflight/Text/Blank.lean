/-!
This module contains the type of texts and the characters that separate words.

A text is a list of characters: every rule of this library consumes its input one character at a
time, so it is written and reasoned about by recursion on the list. `String` is used for what
leaves the library and for literals.
-/

namespace Preflight

abbrev Text := List Char

namespace Text

def isBlank (c : Char) : Bool :=
  ('\t' ≤ c && c ≤ '\r') || c == ' ' || c == '\u0085' || c == '\u00a0' || c == '\u1680'
    || ('\u2000' ≤ c && c ≤ '\u200a') || c == '\u2028' || c == '\u2029' || c == '\u202f'
    || c == '\u205f' || c == '\u3000'

def words (t : Text) : List Text :=
  go t []
where
  flush (word : Text) : List Text :=
    if word.isEmpty then [] else [word]
  go : Text → Text → List Text
    | [], word => flush word
    | c :: cs, word => if isBlank c then flush word ++ go cs [] else go cs (word ++ [c])

end Text

end Preflight
