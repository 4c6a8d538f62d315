import Preflight.Syntax.Tree

/-!
This module contains the grammar of command lines. A command line is one flat statement: assignments
of the form `name=value`, then a command, then its arguments.

Every token is judged on its own. Until the command is found a word may be an assignment or the
command, after that a token may be part of a quoted argument or an argument by itself. A token that
is neither is dropped. Parsing never fails.
-/

namespace Preflight

inductive Clause where
  | assignment (text : Text) (source : Location) (name value : Text)
  | command (text : Text) (source : Location)
  | argument (text : Text) (source : Location) (split : Option (Text × Text))
  deriving DecidableEq, Repr

namespace Tree

def pushHalves (tree : Tree) (parent : Nat) (source : Location) (key : Text)
    (valueKind : Node.Kind) (value : Text) : Tree :=
  (tree.push parent ⟨.identifier, key, source, false⟩).push parent
    -- The value starts right after the sign.
    ⟨valueKind, value, source.offset (key.length + 1), false⟩

def pushClause (tree : Tree) : Clause → Tree
  | .assignment text source name value =>
    (tree.push root ⟨.assignment, text, source, false⟩).pushHalves tree.size source name .literal
      value
  | .command text source => tree.push root ⟨.command, text, source, false⟩
  | .argument text source none => tree.push root ⟨.option, text, source, false⟩
  | .argument text source (some (key, value)) =>
    (tree.push root ⟨.option, text, source, false⟩).pushHalves tree.size source key .parameter
      value

end Tree

namespace Parser

inductive Quoting where
  | outside
  -- The opening quote has been read, then what is quoted.
  | opened
  | inside
  deriving DecidableEq, Repr

structure State where
  foundCommand : Bool
  quoting : Quoting
  deriving DecidableEq, Repr

def State.start : State := ⟨false, .outside⟩

inductive Verdict where
  | clause (clause : Clause)
  | delimiter
  | dropped
  deriving DecidableEq, Repr

def assignment? (token : Token) : Option Clause :=
  if token.kind = .word then
    match Word.splitAssignment token.text with
    | some (name, value) =>
      if Word.isVariableName name then some (.assignment token.text token.source name value)
      else none
    | none => none
  else
    none

def command? (token : Token) : Option Clause :=
  if token.kind = .word ∧ Word.isCommand token.text then
    some (.command token.text token.source)
  else
    none

def argument? (token : Token) : Option Clause :=
  if token.kind = .word ∧ Word.isArgument token.text then
    some (.argument token.text token.source (Word.splitAssignment token.text))
  else
    none

def Verdict.ofClause? (found : Option Clause) : Verdict :=
  match found with
  | some c => .clause c
  | none => .dropped

def beforeCommand (quoting : Quoting) (token : Token) : State × Verdict :=
  let quoting :=
    -- The quote that closes a quoted command is not to open an argument.
    if token.kind = .quote then
      if quoting = .outside then .inside else .outside
    else
      quoting
  match assignment? token with
  | some clause => (⟨false, quoting⟩, .clause clause)
  | none =>
    match command? token with
    | some clause => (⟨true, quoting⟩, .clause clause)
    | none => (⟨false, quoting⟩, .dropped)

def afterCommand (quoting : Quoting) (token : Token) : State × Verdict :=
  match quoting, token.kind with
  | .outside, .quote => (⟨true, .opened⟩, .delimiter)
  -- A quoted text is one argument, whatever it contains.
  | .opened, .word => (⟨true, .inside⟩, .clause (.argument token.text token.source none))
  | .opened, .quote | .inside, .quote => (⟨true, .outside⟩, .delimiter)
  | _, _ => (⟨true, .outside⟩, Verdict.ofClause? (argument? token))

def step (state : State) (token : Token) : State × Verdict :=
  if state.foundCommand then afterCommand state.quoting token
  else beforeCommand state.quoting token

def verdicts (state : State) : List Token → List (Token × Verdict)
  | [] => []
  | token :: tokens =>
    let (state, verdict) := step state token
    (token, verdict) :: verdicts state tokens

end Parser

def clauses (tokens : List Token) : List Clause :=
  (Parser.verdicts .start tokens).filterMap fun
    | (_, .clause clause) => some clause
    | _ => none

def parse (tokens : List Token) : Tree := (clauses tokens).foldl Tree.pushClause Tree.empty

end Preflight
