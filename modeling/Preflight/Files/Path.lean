import Preflight.Text.Utf8

/-!
This module contains file paths as they are written. A path is a sequence of bytes, since file names
need not be well-formed text.
-/

namespace Preflight

abbrev Name := Utf8.Bytes

abbrev Path := Utf8.Bytes

/--
One move on the way that a path describes. Staying asks for a directory, like any other move, so a
path that ends in a slash only leads to directories.
-/
inductive Step where
  | stay
  | parent
  | child (name : Name)
  deriving DecidableEq, Repr

namespace Step

def isChild : Step → Bool
  | child _ => true
  | _ => false

def bytes : Step → Utf8.Bytes
  | stay => [0x2E]
  | parent => [0x2E, 0x2E]
  | child name => name

def ofPiece (piece : Utf8.Bytes) : Step :=
  if piece = [0x2E] then stay else if piece = [0x2E, 0x2E] then parent else child piece

end Step

namespace Path

def slash : UInt8 := 0x2F

def ofText (t : Text) : Path := Utf8.encode t

def display (path : Path) : Text := Utf8.decodeLossy path

def isAbsolute (path : Path) : Bool := path.head? == some slash

def pieces : Path → List Utf8.Bytes
  | [] => [[]]
  | b :: bytes =>
    if b = slash then
      [] :: pieces bytes
    else
      match pieces bytes with
      | piece :: rest => (b :: piece) :: rest
      | [] => [[b]]

def steps (path : Path) : List Step :=
  go (pieces path)
where
  go : List Utf8.Bytes → List Step
    | [] => []
    -- A slash at the end asks for a directory, the others count as one with those next to them.
    | [piece] => if piece = [] then [.stay] else [.ofPiece piece]
    | piece :: rest => if piece = [] then go rest else .ofPiece piece :: go rest

def moves (path : Path) : List Step := (steps path).filter (· ≠ .stay)

def ofMoves (moves : List Step) : Path := [slash].intercalate (moves.map Step.bytes)

def join (base path : Path) : Path :=
  if path.isAbsolute ∨ base = [] then path
  else if base.getLast? = some slash then base ++ path
  else base ++ slash :: path

def below? (base : Path) (moves : List Step) : Option (List Step) :=
  -- Nothing absolute lies below a relative path.
  if base.isAbsolute ∧ (Path.moves base).isPrefixOf moves then
    some (moves.drop (Path.moves base).length)
  else
    none

def fileName? (path : Path) : Option Name :=
  match (moves path).getLast? with
  | some (.child name) => some name
  | _ => none

def parent (path : Path) : Path :=
  let rest := ofMoves (moves path).dropLast
  if path.isAbsolute then slash :: rest else rest

end Path

end Preflight
