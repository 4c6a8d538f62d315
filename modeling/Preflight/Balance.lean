import Preflight.Problem
import Preflight.Token

/-!
This module contains the check that the brackets and quotes of a command line match.

Each family of brackets is matched on its own: `( [ ) ]` is balanced. The first closing bracket
without an open one is reported, else the earliest bracket that stays open, else an open quote.
-/

namespace Preflight

inductive Family where
  | round
  | curly
  | square
  deriving DecidableEq, Repr

namespace Family

def opener : Family → Char
  | round => '('
  | curly => '\x7b'
  | square => '['

def closer : Family → Char
  | round => ')'
  | curly => '\x7d'
  | square => ']'

def all : List Family := [round, curly, square]

end Family

inductive Bracket where
  | opens (family : Family)
  | closes (family : Family)
  deriving DecidableEq, Repr

namespace Bracket

def ofChar? (c : Char) : Option Bracket :=
  if c = '(' then some (opens .round)
  else if c = ')' then some (closes .round)
  else if c = '\x7b' then some (opens .curly)
  else if c = '\x7d' then some (closes .curly)
  else if c = '[' then some (opens .square)
  else if c = ']' then some (closes .square)
  else none

def ofToken? (token : Token) : Option Bracket :=
  match token.kind, token.text with
  | .bracket, c :: _ => ofChar? c
  | _, _ => none

end Bracket

namespace Balance

structure State where
  -- The open brackets of each family, innermost first.
  brackets : Family → List Location
  quote : Option Token

namespace State

def empty : State := ⟨fun _ => [], none⟩

def toggleQuote (state : State) (token : Token) : State :=
  match state.quote with
  | none => { state with quote := some token }
  -- Another kind of quote is text while one is open.
  | some opening => if opening.text = token.text then { state with quote := none } else state

def withBrackets (state : State) (family : Family) (locations : List Location) : State :=
  { state with brackets := fun f => if f = family then locations else state.brackets f }

def step (state : State) (token : Token) : Except Failure State :=
  match token.kind with
  | .quote => .ok (state.toggleQuote token)
  | _ =>
    match Bracket.ofToken? token with
    | none => .ok state
    | some (.opens family) =>
      .ok (state.withBrackets family (token.source :: state.brackets family))
    | some (.closes family) =>
      match state.brackets family with
      | [] => .error ⟨.extraCloser family.closer, token.source, 1⟩
      | _ :: outer => .ok (state.withBrackets family outer)

def outermost (state : State) : List (Location × Family) :=
  Family.all.filterMap fun family => (state.brackets family).getLast?.map (·, family)

def earlier (a b : Location × Family) : Location × Family :=
  if b.1.isBefore a.1 || (a.1 == b.1 && b.2.opener < a.2.opener) then b else a

def finish (state : State) : Except Failure Unit :=
  match state.outermost with
  -- Brackets come before quotes, and the earliest one of all families first.
  | first :: others =>
    let (source, family) := others.foldl earlier first
    .error ⟨.unclosedBracket family.opener family.closer, source, 1⟩
  | [] =>
    match state.quote with
    | some quote => .error ⟨.unclosedQuote quote.text, quote.source, 1⟩
    | none => .ok ()

end State

def check (tokens : List Token) : Except Failure Unit := do
  let state ← tokens.foldlM State.step State.empty
  state.finish

end Balance

end Preflight
