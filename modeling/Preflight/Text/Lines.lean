import Preflight.Text.Blank

/-!
This module contains the cutting of a text into numbered lines.
-/

namespace Preflight

namespace Text

def lines (t : Text) : List Text :=
  go t []
where
  withoutReturn : Text → Text
    | '\r' :: line => line
    | line => line
  go : Text → Text → List Text
    | [], line => if line.isEmpty then [] else [line.reverse]
    | c :: cs, line =>
      if c = '\n' then (withoutReturn line).reverse :: go cs [] else go cs (c :: line)

def numberedLines (t : Text) : List (Nat × Text) :=
  (lines t).zipIdx 1 |>.map fun (line, number) => (number, line)

def visibleLines (t : Text) (first last : Nat) : List (Nat × Text) :=
  (numberedLines t).filter fun (number, _) => first ≤ number && number ≤ last

end Text

end Preflight
