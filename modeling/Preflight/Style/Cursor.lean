import Preflight.Text.Numeral

/-!
This module contains the escape sequences that move the cursor of a terminal and clear parts of its
screen.
-/

namespace Preflight

namespace Style

def introducer : Text := ['\x1b', '[']

end Style

inductive Cursor where
  | up (n : Nat)
  | down (n : Nat)
  | right (n : Nat)
  | left (n : Nat)
  | moveTo (row column : Nat)
  | clearScreen
  | clearLine
  | save
  | restore
  | hide
  | unhide
  deriving DecidableEq, Repr

namespace Cursor

def sequence (command : Cursor) : Text :=
  Style.introducer ++
    match command with
    | up n => Text.decimal n ++ ['A']
    | down n => Text.decimal n ++ ['B']
    | right n => Text.decimal n ++ ['C']
    | left n => Text.decimal n ++ ['D']
    | moveTo row column => Text.decimal row ++ ';' :: Text.decimal column ++ ['H']
    | clearScreen => ['2', 'J']
    | clearLine => ['2', 'K']
    | save => ['s']
    | restore => ['u']
    | hide => ['?', '2', '5', 'l']
    | unhide => ['?', '2', '5', 'h']

end Cursor

end Preflight
