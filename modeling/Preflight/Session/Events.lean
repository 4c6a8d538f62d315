import Preflight.Dump
import Preflight.Log
import Preflight.ProgramIndex
import Preflight.Resolution
import Preflight.Syntax.Parser
import Preflight.Terminal.Reader

/-!
This module contains the events of a session.
-/

namespace Preflight

namespace Session

open Log (Event)

inductive Origin where
  | arguments
  | input
  deriving DecidableEq, Repr

def Origin.label : Origin → Text
  | arguments => "argv".toList
  | input => "stdin".toList

namespace Events

def flagText (b : Bool) : Text := if b then "true".toList else "false".toList

def dumpText : Option Dump → Text
  | none => "None".toList
  | some .tokens => "Some(Tokens)".toList
  | some .tree => "Some(Ast)".toList
  | some .plan => "Some(Plan)".toList

def noConfig (path : Path) : Event :=
  ⟨.debug, "cchell::config", "no config file, using defaults", [("path", path.display)]⟩

def loadedConfig (path : Path) : Event :=
  ⟨.debug, "cchell::config", "loaded config", [("path", path.display)]⟩

def settings (colored : Bool) (dump : Option Dump) (yes : Bool) : Event :=
  ⟨.debug, "cchell", "session settings",
    [("colored", flagText colored), ("dump", dumpText dump), ("yes", flagText yes)]⟩

def rawMode : Event := ⟨.debug, "cchell::tty", "terminal in raw mode", []⟩

def lostTerminal : Event :=
  ⟨.warn, "cchell::tty", "failed to restore terminal mode",
    [("error", "EIO: I/O error".toList)]⟩

def dropped (bytes : Utf8.Bytes) : Event :=
  let numbers := [',', ' '].intercalate (bytes.map fun b => Text.decimal b.toNat)
  ⟨.trace, "cchell_shell::terminal::line", "discarding invalid utf-8",
    [("bytes", '[' :: numbers ++ [']'])]⟩

def commandLine (text : Text) (origin : Origin) : Event :=
  ⟨.debug, "cchell::session", "command line",
    [("text", text), ("origin", Text.quote origin.label)]⟩

def lexed (tokens : List Token) : Event :=
  ⟨.trace, "cchell_shell::lexer", "lexed command line",
    [("count", Text.decimal tokens.length)]⟩

def parsed (tokens : List Token) : List Event :=
  (Parser.verdicts .start tokens).filterMap fun
    | (_, .clause (.command text _)) =>
      some ⟨.debug, "cchell_shell::parser::words", "found command word",
        [("command", Text.quote text)]⟩
    | (token, .dropped) =>
      some ⟨.debug, "cchell_shell::parser", "dropping unclassified token",
        [("token", token.display)]⟩
    | _ => none

def noSearchPath : Event :=
  ⟨.warn, "cchell::session", "PATH is not set, no executables indexed", []⟩

def surveyed (survey : ProgramIndex.Survey) : List Event :=
  survey.skipped.map (fun (directory, error) =>
      ⟨.warn, "cchell_shell::resolve::index", "skipping PATH entry",
        [("dir", directory.display), ("error", error.describe)]⟩)
    ++ [⟨.info, "cchell_shell::resolve::index", "indexed executables",
        [("executables", Text.decimal survey.index.size),
          ("directories", Text.decimal survey.listed)]⟩]

def known (name : Text) : Event :=
  ⟨.debug, "cchell_shell::parser::resolve", "command found in PATH", [("command", name)]⟩

def suggestedCommand (name : Text) (candidate : Candidate) : Event :=
  ⟨.debug, "cchell_shell::parser::resolve", "suggesting command",
    [("command", name), ("candidate", Text.quote candidate.name),
      ("distance", Text.decimal candidate.distance)]⟩

def suggestedPath (typed : Text) (path : Path) : Event :=
  ⟨.debug, "cchell_shell::parser::resolve", "suggesting path",
    [("path", typed), ("suggestion", ['.', '/'] ++ path.display)]⟩

def tooFar (typed : Name) (distance threshold : Nat) : Event :=
  ⟨.debug, "cchell_shell::resolve::walker", "no close path segment",
    [("segment", Path.display typed), ("distance", Text.decimal distance),
      ("threshold", Text.decimal threshold)]⟩

def searched (resolver : Resolver) (command : Entry) : List Event :=
  if Word.isLocal command.text then
    let relative := Resolution.relativePath command.text
    if resolver.files.pathExists (resolver.base.join relative) then
      []
    else
      match PathCorrection.correct resolver.files resolver.base relative with
      | .ok path => [suggestedPath command.text path]
      | .error (.tooFar typed distance threshold) => [tooFar typed distance threshold]
      | .error .deadEnd => []
  else
    let name := Word.unescape command.text
    if resolver.index.contains name then
      [known name]
    else
      match resolver.suggestCommand? name with
      | some candidate => [suggestedCommand name candidate]
      | none => []

def accepted (question : Text) (answer : Char) : Event :=
  ⟨.info, "cchell::session", "auto-accepted",
    [("question", Text.quote question), ("answer", [answer])]⟩

def answered : Except ReadError Char → List Event
  | .ok c =>
    if c = 'y' then []
    else [⟨.debug, "cchell_shell::parser::resolve", "correction declined", [("answer", [c])]⟩]
  | .error error =>
    [⟨.debug, "cchell_shell::parser::resolve", "no answer to correction prompt",
      [("error", error.message)]⟩]

def planned (plan : Plan) : Event :=
  ⟨.debug, "cchell_shell::plan", "execution plan ready",
    [("path", plan.path.display), ("args", Text.decimal plan.arguments.length)]⟩

def launching (plan : Plan) : Event :=
  ⟨.info, "cchell::exec", "launching",
    [("path", plan.path.display), ("argv", Text.quoteList plan.arguments)]⟩

def finished (code : Nat) : Event :=
  ⟨.debug, "cchell::exec", "command finished", [("code", Text.decimal code)]⟩

end Events

end Session

end Preflight
