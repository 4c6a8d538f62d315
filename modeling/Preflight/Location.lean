import Preflight.Text.Numeral

/-!
This module contains positions in a command line.
-/

namespace Preflight

/--
A position in a text. `column` counts characters, not bytes, so that it can be used to put a caret
under a character. Both numbers count from zero, people are shown numbers that count from one.
-/
structure Location where
  line : Nat
  column : Nat
  deriving DecidableEq, Repr, Inhabited

namespace Location

def lastColumn : Nat := 0xFFFFFFFF

def start : Location := ⟨0, 0⟩

def advance (loc : Location) (c : Char) : Location :=
  if c = '\n' then ⟨loc.line + 1, 0⟩ else ⟨loc.line, loc.column + 1⟩

def after (loc : Location) (t : Text) : Location := t.foldl advance loc

def offset (loc : Location) (columns : Nat) : Location :=
  ⟨loc.line, min (loc.column + columns) lastColumn⟩

def displayLine (loc : Location) : Nat := loc.line + 1

def displayColumn (loc : Location) : Nat := loc.column + 1

def display (loc : Location) : Text :=
  Text.decimal loc.displayLine ++ ':' :: Text.decimal loc.displayColumn

def isBefore (a b : Location) : Bool :=
  a.line < b.line || (a.line == b.line && a.column < b.column)

@[simp]
theorem after_nil (loc : Location) : loc.after [] = loc := rfl

@[simp]
theorem after_cons (loc : Location) (c : Char) (t : Text) :
    loc.after (c :: t) = (loc.advance c).after t := rfl

theorem after_append (loc : Location) (s t : Text) :
    loc.after (s ++ t) = (loc.after s).after t := by
  simp [after, List.foldl_append]

theorem after_concat (loc : Location) (t : Text) (c : Char) :
    loc.after (t ++ [c]) = (loc.after t).advance c := after_append loc t [c]

end Location

end Preflight
