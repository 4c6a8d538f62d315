import Preflight.Text.Blank

/-!
This module contains the values that settings can have, whatever the notation they are written in.
-/

namespace Preflight

inductive Setting where
  | text (t : Text)
  | integer (i : Int)
  | flag (b : Bool)
  | list (values : List Setting)
  | table (members : List (Text × Setting))

end Preflight
