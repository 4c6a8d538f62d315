import Preflight.Balance
import Preflight.Session.Setup
import Preflight.Token.Lexer

/-!
This module contains a session: one command line is read, checked and launched.

The stages of checking are lexing, matching brackets and quotes, parsing, resolution and planning. A
stage that fails ends the session with a report. If a dump is asked for, the session ends after the
stage in question.
-/

namespace Preflight

namespace Session

open SessionM

def interruptedCode : Nat := 130

def splitLine (bytes : Utf8.Bytes) : Utf8.Bytes × Utf8.Bytes :=
  (bytes.takeWhile (· ≠ 0x0A) ++ (bytes.dropWhile (· ≠ 0x0A)).take 1,
    (bytes.dropWhile (· ≠ 0x0A)).drop 1)

def trimLineEnd (line : Text) : Text :=
  (line.reverse.dropWhile fun c => c = '\n' ∨ c = '\r').reverse

def readPiped : SessionM Text := do
  let world ← get
  let input := world.input.take
  let (line, rest) := splitLine input.bytes
  -- What follows the line stays in the reader for answers.
  set { world with input := { input with reader := .ofBytes rest } }
  match Utf8.decode? line with
  | some t => return trimLineEnd t
  | none =>
    throw (.complain "failed to read command line from stdin".toList
      ["stream did not contain valid UTF-8".toList])

def readTyped (session : Session) : SessionM Text := do
  let editor : LineEditor :=
    { LineEditor.ofPrompt ['$', ' '] with note := fun bytes => session.log.line (Events.dropped bytes) }
  match ← onConsole editor.readLine with
  | .ok t => return t
  | .error .ended => throw (.silent 0)
  | .error .interrupted => throw (.silent interruptedCode)
  | .error (.io error) =>
    throw (.complain "failed to read command line".toList
      [(ReadError.io error).message, error.describe])

def readCommandLine (session : Session) : SessionM (Text × Origin) := do
  if ¬ session.options.command.isEmpty then
    return ([' '].intercalate session.options.command, .arguments)
  else if (← get).input.isTerminal then
    return (← session.readTyped, .input)
  else
    return (← readPiped, .input)

def report (session : Session) (failure : Failure) (text : Text) (origin : Origin) : Text :=
  match session.options.format with
  | .text => session.renderer.render failure.diagnostic text origin.label
  | .json => failure.toJson.pretty

def require {α : Type} (session : Session) (text : Text) (origin : Origin) :
    Except Failure α → SessionM α
  | .ok a => return a
  | .error failure => do
    printError (session.report failure text origin)
    throw (.silent 1)

def findPrograms (session : Session) : SessionM ProgramIndex := do
  let world ← get
  match world.environment.get? "PATH".toList with
  | none =>
    note session.log Events.noSearchPath
    return .empty
  | some searchPath =>
    let survey := ProgramIndex.survey world.files (ProgramIndex.searchDirectories searchPath)
    notes session.log (Events.surveyed survey)
    return survey.index

def makeResolver (session : Session) : SessionM Resolver := do
  let index ← session.findPrograms
  let files := (← get).files
  match files.currentDirectory with
  | .ok base => return ⟨index, base, ProgramIndex.defaultMaxDistance, files⟩
  | .error error =>
    throw (.complain "failed to read the current directory".toList [error.describe])

def confirm (session : Session) (question : Text) (options : List Char) :
    SessionM (Except ReadError Char) := do
  let answer ←
    if session.options.yes then
      let answer := Prompt.acceptDefault options
      notes session.log (answer.toOption.toList.map (Events.accepted question))
      pure answer
    else
      onConsole (Prompt.confirm session.manner question options)
  notes session.log (Events.answered answer)
  return answer

def resolveTree (session : Session) (resolver : Resolver) (tree : Tree) :
    SessionM (Except Failure Tree) := do
  match tree.command?.bind tree.entry? with
  | some command => notes session.log (Events.searched resolver command)
  | none => pure ()
  resolve resolver session.confirm tree

def check (session : Session) (text : Text) (origin : Origin) : SessionM (Option Plan) := do
  let format := session.options.format
  note session.log (Events.lexed (lex text).tokens)
  if session.options.dump = some .tokens then
    print (Token.dump (lex text).tokens format)
    return none
  let tokens ← session.require text origin (tokenize text)
  session.require text origin (Balance.check tokens)
  notes session.log (Events.parsed tokens)
  let tree := parse tokens
  if session.options.dump = some .tree then
    print (tree.dump format)
    return none
  let resolver ← session.makeResolver
  let tree ← session.require text origin (← session.resolveTree resolver tree)
  let plan ← session.require text origin (Plan.ofTree tree resolver.index)
  note session.log (Events.planned plan)
  if session.options.dump = some .plan then
    match plan.dump format with
    | .ok t => print t
    | .error message => throw (.complain message [])
    return none
  return some plan

def prepare (session : Session) : SessionM (Option Plan) := do
  let (text, origin) ← session.readCommandLine
  note session.log (Events.commandLine text origin)
  session.check text origin

def withRawTerminal {α : Type} (log : Log) (action : SessionM α) : SessionM α := fun world =>
  let (result, world) := action (world.printError (log.line Events.rawMode))
  (result,
    -- The terminal is put back afterwards, which fails if it is gone.
    if world.input.isGone then world.printError (log.line Events.lostTerminal) else world)

def launch (session : Session) (plan : Plan) : SessionM Unit := do
  note session.log (Events.launching plan)
  let world ← get
  let world := { world with launches := world.launches ++ [plan] }
  set world
  match plan.launch world.files world.environment world.input.waiting with
  | .error error =>
    throw (.complain ("failed to launch '".toList ++ plan.path.display ++ ['\''])
      [error.describe])
  | .ok run =>
    set { world with output := world.output ++ run.output, errors := world.errors ++ run.errors }
    note session.log (Events.finished run.status.exitCode)
    if run.status.exitCode ≠ 0 then
      throw (.silent run.status.exitCode)

def run (session : Session) : SessionM Unit := do
  -- Keys are read as they are typed if there may be anything to ask.
  let mayAsk := session.options.command.isEmpty || !session.options.yes
  let plan? ←
    if (← get).input.isTerminal && mayAsk then withRawTerminal session.log session.prepare
    else session.prepare
  match plan? with
  | some plan => session.launch plan
  | none => return

end Session

def runProgram (arguments : List Text) (world : World) : Nat × World :=
  match Options.ofArguments arguments with
  | .error .help => (0, world.print Options.helpText)
  | .error .version => (0, world.print Options.versionText)
  | .error (.misuse error) =>
    (2, world.printError ("error: ".toList ++ error.message ++ ['\n']))
  | .ok options =>
    match (Session.setUp options >>= Session.run) world with
    | (.ok (), world) => (0, world)
    | (.error ⟨code, none⟩, world) => (code, world)
    | (.error ⟨code, some complaint⟩, world) =>
      (code, world.printError ("Error: ".toList ++ complaint.display ++ ['\n']))

end Preflight
