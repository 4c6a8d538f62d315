import Preflight.PathCorrection
import Preflight.Problem
import Preflight.ProgramIndex
import Preflight.Syntax.Tree
import Preflight.Terminal.Reader

/-!
This module contains the search for the program that a command stands for.

A local path has to lead to an executable file, any other command has to be the name of a known
program. If there is no such file or program but one that is close, the user is asked whether that
is what they meant. There is at most one question, and what follows from each answer to it is known
before it is asked.
-/

namespace Preflight

structure Resolver where
  index : ProgramIndex
  base : Path
  maxDistance : Nat
  files : FileSystem

namespace Resolver

def suggestCommand? (resolver : Resolver) (name : Text) : Option Candidate :=
  resolver.index.closest? name resolver.maxDistance

def suggestPath? (resolver : Resolver) (path : Path) : Option Path :=
  closestPath? resolver.files resolver.base path

end Resolver

inductive Resolution where
  | found
  | refused (failure : Failure)
  -- The command is replaced if the user says so, unless there is an obstacle to that.
  | asks (question replacement : Text) (obstacle : Option Failure) (declined : Failure)
  deriving DecidableEq, Repr

namespace Resolution

def failure (command : Entry) (problem : Problem) : Failure :=
  ⟨problem, command.source, command.text.length⟩

def answers : List Char := ['y', 'n']

def obstacle? (files : FileSystem) (path : Path) : Option Problem :=
  -- A path without links is what the messages show.
  let path := (files.canonical path).toOption.getD path
  if !files.isFile path then some (.notAFile path.display)
  else if !files.isExecutable path then some (.notExecutable path.display)
  else none

def ofName (resolver : Resolver) (command : Entry) : Resolution :=
  let name := Word.unescape command.text
  if resolver.index.contains name then
    found
  else
    let declined := failure command (.unknownCommand command.text)
    match resolver.suggestCommand? name with
    | none => refused declined
    | some candidate =>
      let question := "command '".toList ++ command.text
        ++ "' doesn't exist, do you mean '".toList ++ candidate.name ++ "'?".toList
      asks question candidate.name none declined

def relativePath (command : Text) : Path := Path.ofText (Word.unescape (command.drop 2))

def ofPath (resolver : Resolver) (command : Entry) : Resolution :=
  let relative := relativePath command.text
  let full := resolver.base.join relative
  if resolver.files.pathExists full then
    match obstacle? resolver.files full with
    | some problem => refused (failure command problem)
    | none => found
  else
    let declined := failure command (.missingPath command.text)
    match resolver.suggestPath? relative with
    | none => refused declined
    | some path =>
      let replacement := ['.', '/'] ++ path.display
      let question := "executable path '".toList ++ command.text
        ++ "' not found, do you mean '".toList ++ replacement ++ "'?".toList
      let obstacle := obstacle? resolver.files (resolver.base.join path)
      asks question replacement (obstacle.map (failure command)) declined

def ofCommand (resolver : Resolver) (command : Entry) : Resolution :=
  if Word.isLocal command.text then ofPath resolver command else ofName resolver command

def afterAnswer (tree : Tree) (id : Nat) (replacement : Text) (obstacle : Option Failure)
    (declined : Failure) : Except ReadError Char → Except Failure Tree
  -- Only the answer yes is consent.
  | .ok 'y' =>
    match obstacle with
    | some failure => .error failure
    | none => .ok (tree.setText id replacement)
  | _ => .error declined

end Resolution

def resolve {m : Type → Type} [Monad m] (resolver : Resolver)
    (confirm : Text → List Char → m (Except ReadError Char)) (tree : Tree) :
    m (Except Failure Tree) := do
  match tree.command? with
  | none => return .ok tree
  | some id =>
    match tree.entry? id with
    | none => return .ok tree
    | some command =>
      match Resolution.ofCommand resolver command with
      | .found => return .ok tree
      | .refused failure => return .error failure
      | .asks question replacement obstacle declined =>
        let answer ← confirm question Resolution.answers
        return Resolution.afterAnswer tree id replacement obstacle declined answer

/--
The same for a tree that is changed in place. It is touched last, when nothing can fail any more.
-/
def resolveInPlace {m : Type → Type} [Monad m] (resolver : Resolver)
    (confirm : Text → List Char → m (Except ReadError Char)) :
    StateT Tree m (Except Failure Unit) := do
  let tree ← get
  match tree.command? with
  | none => return .ok ()
  | some id =>
    match tree.entry? id with
    | none => return .ok ()
    | some command =>
      match Resolution.ofCommand resolver command with
      | .found => return .ok ()
      | .refused failure => return .error failure
      | .asks question replacement obstacle declined =>
        match ← confirm question Resolution.answers with
        | .ok 'y' =>
          match obstacle with
          | some failure => return .error failure
          | none =>
            set (tree.setText id replacement)
            return .ok ()
        | _ => return .error declined

end Preflight
