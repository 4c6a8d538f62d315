import Preflight.Files.FileSystem
import Preflight.Spelling

/-!
This module contains the correction of file paths that lead nowhere: one name after the other is
replaced by the closest name in the directory that has been reached.
-/

namespace Preflight

namespace PathCorrection

inductive Failure where
  | deadEnd
  | tooFar (typed : Name) (distance threshold : Nat)
  deriving DecidableEq, Repr

def isCloser (a b : Nat × Name) : Bool := a.1 < b.1 || (a.1 == b.1 && a.2 < b.2)

def closestOf (typed : Text) : Option (Nat × Name) → List Name → Option (Nat × Name)
  | best, [] => best
  | best, name :: names =>
    let found := (Spelling.distance (Utf8.decodeLossy name) typed, name)
    let best :=
      match best with
      | none => found
      | some best => if isCloser found best then found else best
    if found.1 = 0 then some best else closestOf typed (some best) names

def closestChild? (files : FileSystem) (directory : Path) (typed : Name) : Option (Nat × Name) :=
  match files.list directory with
  | .ok names => closestOf (Utf8.decodeLossy typed) none names
  | .error _ => none

def threshold (names : Nat) : Nat := 2 + 2 * names

/--
Correct the moves that follow the moves `done` from the directory `start`. The moves `done` are
correct. Moves to a parent directory are kept.
-/
def correctFrom (files : FileSystem) (start : Path) (threshold : Nat) (done : List Step) :
    List Step → Except Failure (List Step)
  | [] => .ok done
  | .child typed :: moves => do
    match closestChild? files (start.join (Path.ofMoves done)) typed with
    | none => .error .deadEnd
    | some (distance, name) =>
      if threshold < distance then
        .error (.tooFar typed distance threshold)
      else
        let done := done ++ [.child name]
        if moves.any Step.isChild ∧ ¬ files.isDirectory (start.join (Path.ofMoves done)) then
          .error .deadEnd
        else
          correctFrom files start threshold done moves
  | move :: moves => correctFrom files start threshold (done ++ [move]) moves

def correct (files : FileSystem) (base path : Path) : Except Failure Path := do
  let moves := path.moves
  let names := moves.countP Step.isChild
  if names = 0 then
    .error .deadEnd
  else if path.isAbsolute then
    let moves ← correctFrom files [Path.slash] (threshold names) [] moves
    match Path.below? base moves with
    | some below => .ok (Path.ofMoves below)
    | none => .ok (Path.slash :: Path.ofMoves moves)
  else
    Path.ofMoves <$> correctFrom files base (threshold names) [] moves

end PathCorrection

def closestPath? (files : FileSystem) (base path : Path) : Option Path :=
  (PathCorrection.correct files base path).toOption

end Preflight
