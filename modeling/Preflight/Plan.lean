import Preflight.ProgramIndex
import Preflight.Problem
import Preflight.Syntax.Outline

/-!
This module contains the plan that a checked command line leads to: which program to launch, and with
what arguments and variables.
-/

namespace Preflight

/--
A program to launch. The first argument is the name by which the program was called. A variable may
occur more than once, the last value is the one that counts.
-/
structure Plan where
  path : Path
  arguments : List Text
  assignments : List (Text × Text)
  deriving DecidableEq, Repr

namespace Plan

structure Parts where
  command : Option (Text × Location)
  arguments : List Text
  assignments : List (Text × Text)

def Parts.add (tree : Tree) (parts : Parts) (id : Nat) : Parts :=
  match tree.entry? id with
  -- Of several commands the last one counts.
  | some ⟨.command, text, source, _⟩ => { parts with command := some (text, source) }
  | some ⟨.option, text, _, _⟩ =>
    { parts with arguments := parts.arguments ++ [Word.unescape text] }
  | some ⟨.assignment, _, _, _⟩ =>
    match tree.keyValue? id with
    | some (key, value) =>
      { parts with assignments := parts.assignments ++ [(key, Word.unescape value)] }
    | none => parts
  | _ => parts

def Parts.ofTree (tree : Tree) : Parts :=
  (tree.visit (· = .statement) Tree.root).foldl (Parts.add tree) ⟨none, [], []⟩

def ofTree (tree : Tree) (index : ProgramIndex) : Except Failure Plan :=
  let parts := Parts.ofTree tree
  match parts.command with
  | none => .error ⟨.noCommand, .start, 1⟩
  | some (command, source) =>
    let name := Word.unescape command
    -- Only a local path is launched as it is written.
    let path? := if Word.isLocal command then some (Path.ofText name) else index.get? name
    match path? with
    | some path => .ok ⟨path, name :: parts.arguments, parts.assignments⟩
    | none => .error ⟨.unknownCommand command, source, command.length⟩

end Plan

end Preflight
