import Preflight.Text.Blank

/-!
This module contains sets of characters that are given by the ranges of their numbers.
-/

namespace Preflight

namespace Text

def inRanges (table : List (Nat × Nat)) (c : Char) : Bool :=
  table.any fun (low, high) => low ≤ c.toNat && c.toNat ≤ high

end Text

end Preflight
