import Preflight.Dump

/-!
This module contains the options of the program and the reading of its arguments.

Options come first. Everything after `--` is the command line to check. An option that takes a value
takes it from its own argument, after `=` or right after the letter of the option, or else from the
next argument, unless that starts like an option.
-/

namespace Preflight

inductive Coloring where
  | always
  | never
  | auto
  deriving DecidableEq, Repr

structure Options where
  format : Dump.Format
  dump : Option Dump
  yes : Bool
  coloring : Coloring
  config : Option Text
  contextLines : Option Nat
  noEcho : Bool
  command : List Text
  deriving DecidableEq, Repr

namespace Options

def default : Options := ⟨.text, none, false, .auto, none, none, false, []⟩

inductive Switch where
  | output
  | dump
  | yes
  | color
  | config
  | contextLines
  | noEcho
  | help
  | version
  deriving DecidableEq, Repr

namespace Switch

def all : List Switch :=
  [output, dump, yes, color, config, contextLines, noEcho, help, version]

def name : Switch → String
  | output => "output"
  | dump => "dump"
  | yes => "yes"
  | color => "color"
  | config => "config"
  | contextLines => "context-lines"
  | noEcho => "no-echo"
  | help => "help"
  | version => "version"

def letter? : Switch → Option Char
  | output => some 'o'
  | yes => some 'y'
  | help => some 'h'
  | version => some 'V'
  | _ => none

def valueName? : Switch → Option String
  | output => some "OUTPUT"
  | dump => some "DUMP"
  | color => some "COLOR"
  | config => some "PATH"
  | contextLines => some "N"
  | _ => none

def takesValue (switch : Switch) : Bool := switch.valueName?.isSome

def display (switch : Switch) : Text :=
  "--".toList ++ switch.name.toList ++
    match switch.valueName? with
    | some value => " <".toList ++ value.toList ++ ['>']
    | none => []

def ofName? (name : Text) : Option Switch := all.find? fun switch => switch.name.toList = name

def ofLetter? (c : Char) : Option Switch := all.find? fun switch => switch.letter? = some c

end Switch

inductive NumberError where
  | empty
  | invalidDigit
  | tooLarge
  | tooSmall
  | outOfRange (number : Int)
  deriving DecidableEq, Repr

inductive Misuse where
  | unexpectedArgument (argument : Text)
  | missingValue (switch : Switch)
  | invalidValue (switch : Switch) (value : Text)
  | invalidNumber (switch : Switch) (value : Text) (reason : NumberError)
  | repeated (switch : Switch)
  | unexpectedValue (switch : Switch) (value : Text)
  deriving DecidableEq, Repr

def maxLines : Nat := 0xFFFFFFFF

def NumberError.message : NumberError → Text
  | empty => "cannot parse integer from empty string".toList
  | invalidDigit => "invalid digit found in string".toList
  | tooLarge => "number too large to fit in target type".toList
  | tooSmall => "number too small to fit in target type".toList
  | outOfRange number =>
    Text.signedDecimal number ++ " is not in 0..=".toList ++ Text.decimal maxLines

def invalid (switch : Switch) (value : Text) : Text :=
  "invalid value '".toList ++ value ++ "' for '".toList ++ switch.display ++ ['\'']

def Misuse.message : Misuse → Text
  | unexpectedArgument argument => "unexpected argument '".toList ++ argument ++ "' found".toList
  | missingValue switch =>
    "a value is required for '".toList ++ switch.display ++ "' but none was supplied".toList
  | invalidValue switch value => invalid switch value
  | invalidNumber switch value reason => invalid switch value ++ ": ".toList ++ reason.message
  | repeated switch =>
    "the argument '".toList ++ switch.display ++ "' cannot be used multiple times".toList
  | unexpectedValue switch value =>
    "unexpected value '".toList ++ value ++ "' for '".toList ++ switch.display
      ++ "' found; no more were expected".toList

inductive Stop where
  | help
  | version
  | misuse (error : Misuse)
  deriving DecidableEq, Repr

def natural? (t : Text) : Option Nat := if t.isEmpty then none else Word.number? t

def maxRead : Nat := 0x7FFFFFFFFFFFFFFF

def lines? (t : Text) : Except NumberError Nat :=
  match t with
  | [] => .error .empty
  | '-' :: rest =>
    match natural? rest with
    | some 0 => .ok 0
    -- The smallest number that is read is one further from zero than the greatest one.
    | some n => .error (if n ≤ maxRead + 1 then .outOfRange (-n) else .tooSmall)
    | none => .error .invalidDigit
  | c :: rest =>
    match natural? (if c = '+' then rest else c :: rest) with
    | some n =>
      if n ≤ maxLines then .ok n
      else .error (if n ≤ maxRead then .outOfRange n else .tooLarge)
    | none => .error .invalidDigit

def alternative {α : Type} (switch : Switch) (alternatives : List (String × α)) (value : Text) :
    Except Misuse α :=
  match alternatives.find? fun alternative => alternative.1.toList = value with
  | some (_, a) => .ok a
  | none => .error (if value.isEmpty then .missingValue switch else .invalidValue switch value)

def formats : List (String × Dump.Format) := [("text", .text), ("json", .json)]

def dumps : List (String × Dump) := [("tokens", .tokens), ("ast", .tree), ("plan", .plan)]

def colorings : List (String × Coloring) := [("always", .always), ("never", .never), ("auto", .auto)]

def set (options : Options) (switch : Switch) (value : Text) : Except Stop Options :=
  match switch with
  | .output => Except.mapError .misuse do
    return { options with format := ← alternative switch formats value }
  | .dump => Except.mapError .misuse do
    return { options with dump := some (← alternative switch dumps value) }
  | .yes => .ok { options with yes := true }
  | .color => Except.mapError .misuse do
    return { options with coloring := ← alternative switch colorings value }
  | .config =>
    if value.isEmpty then .error (.misuse (.missingValue switch))
    else .ok { options with config := some value }
  | .contextLines =>
    match lines? value with
    | .ok n => .ok { options with contextLines := some n }
    | .error reason => .error (.misuse (.invalidNumber switch value reason))
  | .noEcho => .ok { options with noEcho := true }
  | .help => .error .help
  | .version => .error .version

/--
What is known between two arguments: the options so far, the switches that have been given, and the
switch that waits for a value or has got it from an argument of its own. Such a switch takes effect
when another one comes, or at the end.
-/
structure State where
  options : Options
  given : List Switch
  pending : Option (Switch × Option Text)
  deriving DecidableEq, Repr

namespace State

def start : State := ⟨default, [], none⟩

def apply (state : State) (switch : Switch) (value : Text) : Except Stop State :=
  -- No switch takes effect twice.
  if switch ∈ state.given then
    .error (.misuse (.repeated switch))
  else do
    return { state with
      options := ← state.options.set switch value
      given := switch :: state.given }

def settle (state : State) : Except Stop State :=
  match state.pending with
  | none => .ok state
  | some (switch, none) => .error (.misuse (.missingValue switch))
  | some (switch, some value) => { state with pending := none }.apply switch value

def splitValue (t : Text) : Text × Option Text :=
  match Word.splitAssignment t with
  | some (name, value) => (name, some value)
  | none => (t, none)

def long (state : State) (argument : Text) : Except Stop State :=
  let (name, value?) := splitValue argument
  match Switch.ofName? name with
  | none => .error (.misuse (.unexpectedArgument ("--".toList ++ name)))
  | some switch =>
    match switch.takesValue, value? with
    | true, some value => do (← state.settle).apply switch value
    | true, none => do return { ← state.settle with pending := some (switch, none) }
    | false, some value => .error (.misuse (.unexpectedValue switch value))
    | false, none => do (← state.settle).apply switch []

def short (state : State) : Text → Except Stop State
  | [] => .ok state
  | c :: cs =>
    match Switch.ofLetter? c with
    | none => .error (.misuse (.unexpectedArgument ['-', c]))
    | some switch =>
      if switch.takesValue then do
        let state ← state.settle
        match cs with
        | [] => return { state with pending := some (switch, none) }
        -- What follows the letter is the value, and a sign between them is no part of it.
        | '=' :: value => state.apply switch value
        | value => state.apply switch value
      else do
        let state ← state.settle
        short (← state.apply switch []) cs

def word (state : State) (argument : Text) : Except Stop State :=
  match state.pending with
  | some (switch, none) => .ok { state with pending := some (switch, some argument) }
  | _ => .error (.misuse (.unexpectedArgument argument))

def step (state : State) (argument : Text) : Except Stop State :=
  match argument with
  | '-' :: '-' :: argument => state.long argument
  | '-' :: c :: cs => state.short (c :: cs)
  | argument => state.word argument

def read (state : State) : List Text → Except Stop Options
  | [] => do return (← state.settle).options
  | argument :: arguments =>
    if argument = ['-', '-'] then do
      return { (← state.settle).options with command := arguments }
    else do
      (← state.step argument).read arguments

end State

def ofArguments (arguments : List Text) : Except Stop Options := State.start.read arguments

def helpText : Text :=
  [
    "Check a command line, offer typo corrections, then run it",
    "",
    "Usage: cchell [OPTIONS] [-- <COMMAND>...]",
    "",
    "Arguments:",
    "  [COMMAND]...  Command line to check and run; read from stdin when absent",
    "",
    "Options:",
    "  -o, --output <OUTPUT>    Output format for dumps and errors [default: text] " ++
      "[possible values: text, json]",
    "      --dump <DUMP>        Print a pipeline stage instead of running the command " ++
      "[possible values: tokens, ast, plan]",
    "  -y, --yes                Accept every correction without asking",
    "      --color <COLOR>      When to color diagnostics [default: auto] " ++
      "[possible values: always, never, auto]",
    "      --config <PATH>      Config file (default: <config dir>/cchell/config.toml)",
    "      --context-lines <N>  Lines of context around the error line",
    "      --no-echo            Do not echo the answer to a correction question",
    "  -h, --help               Print help",
    "  -V, --version            Print version"
  ].flatMap fun line => line.toList ++ ['\n']

def versionText : Text := "cchell 0.1.0\n".toList

end Options

end Preflight
