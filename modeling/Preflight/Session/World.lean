import Preflight.Launch
import Preflight.Log
import Preflight.Terminal.LineEditor

/-!
This module contains what a session has to do with, apart from its settings: files, variables, an
input and two outputs.
-/

namespace Preflight

/--
The standard input. What a pipe holds is waiting until someone reads, then all of it is taken at once
into the reader. What is typed on a terminal is in the reader from the start. A terminal that hangs
up does so when everything on it has been read.
-/
structure Input where
  isTerminal : Bool
  waiting : Utf8.Bytes
  reader : Reader
  hangsUp : Bool
  deriving DecidableEq, Repr

namespace Input

def ofPipe (bytes : Utf8.Bytes) : Input := ⟨false, bytes, .ofScript [], false⟩

def ofTerminal (script : List InputItem) (hangsUp : Bool) : Input :=
  ⟨true, [], .ofScript (script ++ if hangsUp then [.failure (.os .inputOutput)] else []), hangsUp⟩

def take (input : Input) : Input :=
  { input with
    waiting := []
    reader := { input.reader with script := input.reader.script ++ input.waiting.map .byte } }

def isGone (input : Input) : Bool := input.hangsUp && input.reader.script.isEmpty

def bytes (input : Input) : Utf8.Bytes :=
  input.reader.script.filterMap fun
    | .byte byte => some byte
    | _ => none

end Input

structure World where
  files : FileSystem
  environment : Environment
  input : Input
  -- Whether the standard error is a terminal.
  errorsAreShown : Bool
  output : Utf8.Bytes
  errors : Utf8.Bytes
  -- The plans whose launch has been attempted.
  launches : List Plan

namespace World

def start (files : FileSystem) (environment : Environment) (input : Input) : World :=
  ⟨files, environment, input, false, [], [], []⟩

def print (world : World) (t : Text) : World :=
  { world with output := world.output ++ Utf8.encode t }

def printError (world : World) (t : Text) : World :=
  { world with errors := world.errors ++ Utf8.encode t }

@[simp]
theorem printError_nil (world : World) : world.printError [] = world := by
  simp [printError]

end World

structure Complaint where
  message : Text
  causes : List Text
  deriving DecidableEq, Repr

namespace Complaint

def occursIn (part : Text) : Text → Bool
  | [] => part.isEmpty
  | c :: cs => part.isPrefixOf (c :: cs) || occursIn part cs

def display (complaint : Complaint) : Text :=
  -- The causes are left out if the message mentions all of them.
  if complaint.causes.all fun cause => occursIn cause complaint.message then
    complaint.message
  else
    complaint.message ++ complaint.causes.zipIdx.flatMap fun (cause, i) =>
      "\n\nCaused by:\n    ".toList ++ Text.decimal i ++ ": ".toList ++ cause

end Complaint

structure Exit where
  code : Nat
  complaint : Option Complaint
  deriving DecidableEq, Repr

namespace Exit

def silent (code : Nat) : Exit := ⟨code, none⟩

def complain (message : Text) (causes : List Text) : Exit := ⟨1, some ⟨message, causes⟩⟩

end Exit

abbrev SessionM := ExceptT Exit (StateM World)

namespace SessionM

def print (t : Text) : SessionM Unit := modify (·.print t)

def printError (t : Text) : SessionM Unit := modify (·.printError t)

def note (log : Log) (event : Log.Event) : SessionM Unit := printError (log.line event)

def notes (log : Log) (events : List Log.Event) : SessionM Unit :=
  printError (events.flatMap log.line)

def onConsole {α : Type} (interact : Console → α × Console) : SessionM α := do
  let world ← get
  let input := world.input.take
  let (result, console) := interact ⟨input.reader, .working⟩
  set { world with input := { input with reader := console.reader } }
  printError console.output.written
  return result

end SessionM

end Preflight
