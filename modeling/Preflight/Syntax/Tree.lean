import Preflight.Syntax.Rose
import Preflight.Text.Json
import Preflight.Token

/-!
This module contains the syntax tree of a command line.

The nodes of a tree are numbered in the order in which they are added, starting with the root, and
refer to each other by number. A node is added below a node that is there already, so every node has
a greater number than its parent and the children of a node are listed in increasing order.
-/

namespace Preflight

namespace Node

/--
What a node stands for.

- The root is a statement.
- A command is the program to run, an option is an argument to it.
- An assignment before the command has an identifier and a literal below it.
- An option of the form `key=value` has an identifier and a parameter below it.
-/
inductive Kind where
  | statement
  | command
  | option
  | parameter
  | assignment
  | identifier
  | literal
  deriving DecidableEq, Repr

def Kind.name : Kind → String
  | statement => "statement"
  | command => "command"
  | option => "option"
  | parameter => "parameter"
  | assignment => "assignment"
  | identifier => "identifier"
  | literal => "literal"

def Kind.isInner : Kind → Bool
  | statement | command | option | assignment => true
  | parameter | identifier | literal => false

end Node

structure Entry where
  kind : Node.Kind
  text : Text
  source : Location
  -- Whether the text has not been taken from the command line.
  corrected : Bool
  deriving DecidableEq, Repr

structure Node where
  entry : Entry
  children : List Nat
  parent : Option Nat
  deriving DecidableEq, Repr

structure Tree where
  nodes : List Node
  deriving DecidableEq, Repr

namespace Tree

def root : Nat := 0

def empty : Tree where
  nodes := [⟨⟨.statement, [], .start, false⟩, [], none⟩]

def size (tree : Tree) : Nat := tree.nodes.length

def node? (tree : Tree) (id : Nat) : Option Node := tree.nodes[id]?

def entry? (tree : Tree) (id : Nat) : Option Entry := (tree.node? id).map (·.entry)

def children (tree : Tree) (id : Nat) : List Nat :=
  match tree.node? id with
  | some node => node.children
  | none => []

def push (tree : Tree) (parent : Nat) (entry : Entry) : Tree where
  nodes :=
    tree.nodes.modify parent (fun node => { node with children := node.children ++ [tree.size] })
      ++ [⟨entry, [], some parent⟩]

def setText (tree : Tree) (id : Nat) (text : Text) : Tree where
  nodes := tree.nodes.modify id fun node =>
    { node with entry := { node.entry with text := text, corrected := true } }

def topLevel (tree : Tree) (kind : Node.Kind) : List Nat :=
  (tree.children root).filter fun id => (tree.entry? id).any (·.kind = kind)

def command? (tree : Tree) : Option Nat :=
  (tree.children root).find? fun id => (tree.entry? id).any (·.kind = .command)

def keyValue? (tree : Tree) (id : Nat) : Option (Text × Text) :=
  match tree.children id with
  | [key, value] =>
    match tree.entry? key, tree.entry? value with
    | some k, some v => some (k.text, v.text)
    | _, _ => none
  | _ => none

def count (tree : Tree) (kind : Node.Kind) : Nat :=
  tree.nodes.countP (·.entry.kind = kind)

def shape (tree : Tree) (id : Nat) : Rose Nat :=
  go tree.size id
where
  go : Nat → Nat → Rose Nat
    | 0, id => .node id []
    | depth + 1, id => .node id ((tree.children id).map (go depth))

def view (tree : Tree) : Rose Entry :=
  (tree.shape root).map fun id => (tree.entry? id).getD ⟨.statement, [], .start, false⟩

def visit (tree : Tree) (descends : Node.Kind → Bool) (id : Nat) : List Nat :=
  (tree.shape id).walk fun id => (tree.entry? id).any (descends ·.kind)

def identifiers (tree : Tree) (id : Nat) : List Text :=
  ((tree.visit Node.Kind.isInner id).filterMap tree.entry?).filterMap fun entry =>
    if entry.kind = .identifier then some entry.text else none

@[simp]
theorem size_empty : empty.size = 1 := rfl

@[simp]
theorem size_push (tree : Tree) (parent : Nat) (entry : Entry) :
    (tree.push parent entry).size = tree.size + 1 := by
  simp [push, size]

@[simp]
theorem size_setText (tree : Tree) (id : Nat) (text : Text) :
    (tree.setText id text).size = tree.size := by
  simp [setText, size]

end Tree

end Preflight
