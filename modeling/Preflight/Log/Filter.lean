import Preflight.Log.Event
import Preflight.Text.Regex
import Preflight.Text.Utf8

/-!
This module contains the filters that say which events are in a log, and how they are written.

A filter is written as directives with commas between them. A directive is about the events of some
targets, or about those that have a field, and says up to which level they are in the log:
`target=level`, `target[{field}]=level`, or without the target, without the level or without both.
Directives about spans, in which events would happen, are understood, but there are no spans here.
-/

namespace Preflight

namespace Log

structure Directive where
  target : Text
  -- The field that an event must have, if one is asked for.
  field? : Option Text
  detail : Nat
  deriving DecidableEq, Repr

namespace Directive

def appliesTo (directive : Directive) (event : Event) : Bool :=
  directive.target.isPrefixOf event.target.toList
    && match directive.field? with
      | none => true
      | some name => name == "message".toList || event.fields.any (·.1.toList == name)

def isNarrower (a b : Directive) : Bool :=
  b.target.length < a.target.length
    || (a.target.length == b.target.length
      && match b.field?, a.field? with
        | none, some _ => true
        -- Of two fields the one that is greater as a text counts more.
        | some m, some n => m < n
        | _, none => false)

end Directive

/--
A filter, as its directives. Of those that apply to an event the narrowest one counts, the last one
if there are several. Without one that applies the event is not in the log.
-/
abbrev Filter := List Directive

namespace Filter

def default : Filter := [⟨[], none, Level.warn.detail⟩]

def lower (c : Char) : Char := if 'A' ≤ c ∧ c ≤ 'Z' then Char.ofNat (c.toNat + 32) else c

def dropPlus : Text → Text
  | '+' :: cs => cs
  | cs => cs

def detail? (word : Text) : Option Nat :=
  let digits := dropPlus word
  match Word.number? digits with
  | some n => if digits ≠ [] ∧ n ≤ Level.trace.detail then some n else none
  | none =>
    let word := word.map lower
    if word = "off".toList then some 0
    else (Level.all.find? fun level => level.name.toList.map lower = word).map Level.detail

def detailAfter? (word : Text) : Option Nat :=
  -- Nothing behind the sign asks for everything.
  if word.isEmpty then some Level.trace.detail else detail? word

def isUnsigned (t : Text) : Bool :=
  let whole := t.takeWhile Word.isDigit
  let word := t.map lower
  word == "inf".toList || word == "infinity".toList || word == "nan".toList
    || match t.drop whole.length with
      | '.' :: cs =>
        let fraction := cs.takeWhile Word.isDigit
        !(whole ++ fraction).isEmpty && isExponent (cs.drop fraction.length)
      | exponent => !whole.isEmpty && isExponent exponent
where
  isExponent : Text → Bool
    | [] => true
    | c :: cs =>
      let digits := if cs.head? == some '-' then cs.drop 1 else dropPlus cs
      lower c == 'e' && !digits.isEmpty && digits.all Word.isDigit

def isFieldValue (t : Text) : Bool :=
  -- Any number without a plus is a regular expression.
  (t.head? == some '+' && isUnsigned (dropPlus t)) || Regex.isValid t

def field? (t : Text) : Option (Text × Bool) :=
  let name := t.takeWhile (· != '=')
  match t.drop name.length with
  | [] => if name.isEmpty then none else some (name, false)
  | _ :: value => if isFieldValue (value.takeWhile (· != '=')) then some (name, true) else none

def isStart (c : Char) : Bool :=
  c == '[' || c == '-' || c == ':' || c == '_' || Text.isAlphanumeric c

def trim (t : Text) : Text :=
  ((t.dropWhile Text.isBlank).reverse.dropWhile Text.isBlank).reverse

def detailFrom? (piece : Text) (place : Nat) (shape : Text) : Option Nat :=
  match shape with
  | [] => some Level.trace.detail
  | '=' :: _ => do detailAfter? (← Utf8.slice? (place + 1) (Utf8.size piece) piece)
  | _ => none

def scoped? (piece : Text) (place : Nat) (shape : Text) : Option Filter :=
  let span := shape.takeWhile fun c => c != ']' && c != '\x7b'
  let spanEnd := place + 1 + Utf8.size span
  match shape.drop span.length with
  -- There are no spans, so nothing is ever in the log because of one.
  | ']' :: rest => (detailFrom? piece (spanEnd + 1) rest).map fun _ => []
  | '\x7b' :: shape =>
    let field := shape.takeWhile (· != '\x7d')
    let fieldEnd := spanEnd + 1 + Utf8.size field
    match shape.drop field.length with
    | '\x7d' :: ']' :: rest => do
      let (name, hasValue) ← field? (← Utf8.slice? (spanEnd + 1) fieldEnd piece)
      let detail ← detailFrom? piece (fieldEnd + 2) rest
      if hasValue || !span.isEmpty then
        return []
      else
        return [⟨← Utf8.slice? 0 place piece, some name, detail⟩]
    | _ => none
  | _ => none

/--
The directives that a piece of a filter stands for, one at most.

What the parts of a piece are is found without the blanks around it. The parts themselves are taken
from the same places, in bytes, of the whole piece. So blanks are never skipped: one in front makes
all parts start too early, and one at the end belongs to the last part.
-/
def directives? (piece : Text) : Option Filter :=
  let shape := trim piece
  let target := shape.takeWhile fun c => c != '=' && c != '['
  let place := Utf8.size target
  if !shape.head?.any isStart then none
  else
    match shape.drop target.length with
    | [] =>
      match detail? piece with
      | some detail => some [⟨[], none, detail⟩]
      | none => some [⟨piece, none, Level.trace.detail⟩]
    | '[' :: rest => scoped? piece place rest
    | rest => do
      let detail ← detailFrom? piece place rest
      return [⟨← Utf8.slice? 0 place piece, none, detail⟩]

def pieces : Text → List Text
  | [] => [[]]
  | c :: cs =>
    match pieces cs with
    | piece :: rest => if c = ',' then [] :: piece :: rest else (c :: piece) :: rest
    | [] => [[c]]

def parse? (t : Text) : Option Filter := do
  let written := (pieces t).filter (¬ ·.isEmpty)
  -- A text without any directive lets errors through.
  if written.isEmpty then
    return [⟨[], none, Level.error.detail⟩]
  else
    return (← written.mapM directives?).flatten

def directiveFor? (filter : Filter) (event : Event) : Option Directive :=
  (filter.filter (·.appliesTo event)).foldl
    (fun best directive =>
      match best with
      | some b => if b.isNarrower directive then best else some directive
      | none => some directive)
    none

def admits (filter : Filter) (event : Event) : Bool :=
  match filter.directiveFor? event with
  | some directive => event.level.detail ≤ directive.detail
  | none => false

end Filter

end Log

end Preflight
