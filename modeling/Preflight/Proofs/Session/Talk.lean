import Preflight.Session

/-!
This module contains what the parts of a session do to the world until there is something to launch:
they talk, on the standard error, and take what they are told from the input.
-/

namespace Preflight

namespace SessionM

section bind

variable {α β : Type} {x : SessionM α} {f : α → SessionM β} {world world' : World}

theorem bind_of_ok {a : α} (h : x world = (.ok a, world')) : (x >>= f) world = f a world' := by
  change ExceptT.bindCont f (x world).1 (x world).2 = _
  rw [h]
  rfl

theorem bind_of_error {exit : Exit} (h : x world = (.error exit, world')) :
    (x >>= f) world = (.error exit, world') := by
  change ExceptT.bindCont f (x world).1 (x world).2 = _
  rw [h]
  rfl

theorem get_bind (f : World → SessionM β) (world : World) : (get >>= f) world = f world world := rfl

theorem set_bind (other : World) (f : PUnit → SessionM β) (world : World) :
    (set other >>= f) world = f ⟨⟩ other := rfl

theorem note_bind (log : Log) (event : Log.Event) (f : Unit → SessionM β) (world : World) :
    (note log event >>= f) world = f () (world.printError (log.line event)) := rfl

theorem notes_bind (log : Log) (events : List Log.Event) (f : Unit → SessionM β) (world : World) :
    (notes log events >>= f) world = f () (world.printError (events.flatMap log.line)) := rfl

theorem onConsole_eq (interact : Console → α × Console) (world : World) :
    onConsole interact world =
      let (result, console) := interact ⟨world.input.take.reader, .working⟩
      (.ok result,
        { world with input := { world.input.take with reader := console.reader } }.printError
          console.output.written) := rfl

end bind

end SessionM

namespace Session

open SessionM

variable {session : Session} {world world' world'' : World}

/--
What a session says before its last word: lines of the log, and questions as they are shown with
their answers.
-/
inductive IsTalk (session : Session) : Text → Prop where
  | nil : session.IsTalk []
  | line (event : Log.Event) : session.IsTalk (session.log.line event)
  | question (message : Text) (options : List Char) (reader : Reader) :
    session.IsTalk
      (Prompt.confirm session.manner message options ⟨reader, .working⟩).2.output.written
  | append {s t : Text} (hs : session.IsTalk s) (ht : session.IsTalk t) : session.IsTalk (s ++ t)

theorem isTalk_lines (session : Session) (events : List Log.Event) :
    session.IsTalk (events.flatMap session.log.line) := by
  induction events with
  | nil => exact .nil
  | cons event events ih => exact .append (.line event) ih

structure OnlyTalks (session : Session) (world world' : World) : Prop where
  files : world'.files = world.files
  environment : world'.environment = world.environment
  isTerminal : world'.input.isTerminal = world.input.isTerminal
  output : world'.output = world.output
  launches : world'.launches = world.launches
  errors : ∃ t, session.IsTalk t ∧ world'.errors = world.errors ++ Utf8.encode t

theorem onlyTalks_printError {t : Text} (ht : session.IsTalk t) :
    session.OnlyTalks world (world.printError t) :=
  ⟨rfl, rfl, rfl, rfl, rfl, t, ht, rfl⟩

theorem onlyTalks_refl (session : Session) (world : World) : session.OnlyTalks world world := by
  have h : session.OnlyTalks world (world.printError []) := onlyTalks_printError .nil
  rwa [World.printError_nil] at h

theorem OnlyTalks.trans (h : session.OnlyTalks world world')
    (h' : session.OnlyTalks world' world'') : session.OnlyTalks world world'' where
  files := h'.files.trans h.files
  environment := h'.environment.trans h.environment
  isTerminal := h'.isTerminal.trans h.isTerminal
  output := h'.output.trans h.output
  launches := h'.launches.trans h.launches
  errors := by
    obtain ⟨s, hs, hworld⟩ := h.errors
    obtain ⟨t, ht, hworld'⟩ := h'.errors
    refine ⟨s ++ t, hs.append ht, ?_⟩
    rw [hworld', hworld, Utf8.encode_append, List.append_assoc]

theorem OnlyTalks.note (h : session.OnlyTalks world world') (event : Log.Event) :
    session.OnlyTalks world (world'.printError (session.log.line event)) :=
  h.trans (onlyTalks_printError (.line event))

theorem OnlyTalks.notes (h : session.OnlyTalks world world') (events : List Log.Event) :
    session.OnlyTalks world (world'.printError (events.flatMap session.log.line)) :=
  h.trans (onlyTalks_printError (isTalk_lines session events))

section reading

inductive Reads (session : Session) (input : Input) : Text → Origin → Reader → Prop where
  | arguments (hcommand : session.options.command ≠ []) :
    session.Reads input ([' '].intercalate session.options.command) .arguments input.take.reader
  | piped (hcommand : session.options.command = []) (hpipe : input.isTerminal = false)
    {line : Text} (hline : Utf8.decode? (splitLine input.take.bytes).1 = some line) :
    session.Reads input (trimLineEnd line) .input (.ofBytes (splitLine input.take.bytes).2)

variable {text : Text} {origin : Origin} {reader : Reader}

theorem readPiped_eq {line : Text}
    (hline : Utf8.decode? (splitLine world.input.take.bytes).1 = some line) :
    readPiped world = (.ok (trimLineEnd line),
      { world with input := { world.input.take with
          reader := .ofBytes (splitLine world.input.take.bytes).2 } }) := by
  unfold readPiped
  rw [get_bind]
  dsimp only
  rw [set_bind, hline]
  rfl

theorem readCommandLine_of_reads (h : session.Reads world.input text origin reader) :
    ∃ world', session.readCommandLine world = (.ok (text, origin), world') ∧
      session.OnlyTalks world world' ∧ world'.input.take.reader = reader := by
  unfold readCommandLine
  cases h with
  | arguments hcommand =>
    rw [if_pos (by simpa using hcommand)]
    exact ⟨world, rfl, onlyTalks_refl session world, rfl⟩
  | piped hcommand hpipe hline =>
    rw [if_neg (by simp [hcommand]), get_bind, if_neg (by simp [hpipe])]
    rw [bind_of_ok (readPiped_eq hline)]
    refine ⟨_, rfl, ⟨rfl, rfl, rfl, rfl, rfl, [], .nil, by simp⟩, ?_⟩
    simp [Input.take, Reader.ofBytes, Reader.ofScript]

end reading

section question

def answer (session : Session) (reader : Reader) (question : Text) (options : List Char) :
    Except ReadError Char :=
  if session.options.yes then Prompt.acceptDefault options
  else (Prompt.confirm session.manner question options ⟨reader, .working⟩).1

def inputAfter (session : Session) (input : Input) (question : Text) (options : List Char) : Input :=
  if session.options.yes then input
  else
    { input.take with reader :=
        (Prompt.confirm session.manner question options ⟨input.take.reader, .working⟩).2.reader }

theorem confirm_eq (session : Session) (question : Text) (options : List Char) (world : World) :
    ∃ world', session.confirm question options world =
        (.ok (session.answer world.input.take.reader question options), world') ∧
      session.OnlyTalks world world' ∧
      world'.input = session.inputAfter world.input question options := by
  unfold confirm answer inputAfter
  dsimp only
  by_cases hyes : session.options.yes = true
  · rw [if_pos hyes, if_pos hyes, if_pos hyes, notes_bind, pure_bind, notes_bind]
    exact ⟨_, rfl, ((onlyTalks_refl session world).notes _).notes _, rfl⟩
  · rw [if_neg hyes, if_neg hyes, if_neg hyes, bind_of_ok (onConsole_eq _ _), notes_bind]
    refine ⟨_, rfl, OnlyTalks.notes ?_ _, rfl⟩
    exact ⟨rfl, rfl, rfl, rfl, rfl, _, .question question options world.input.take.reader, rfl⟩

theorem resolve_eq (session : Session) (resolver : Resolver) (tree : Tree) (world : World) :
    ∃ world', resolve resolver session.confirm tree world =
        (.ok (resolve (m := Id) resolver (session.answer world.input.take.reader) tree), world') ∧
      session.OnlyTalks world world' := by
  unfold resolve
  cases tree.command? with
  | none => exact ⟨world, rfl, onlyTalks_refl session world⟩
  | some id =>
    dsimp only
    cases tree.entry? id with
    | none => exact ⟨world, rfl, onlyTalks_refl session world⟩
    | some command =>
      dsimp only
      cases Resolution.ofCommand resolver command with
      | found => exact ⟨world, rfl, onlyTalks_refl session world⟩
      | refused failure => exact ⟨world, rfl, onlyTalks_refl session world⟩
      | asks question replacement obstacle declined =>
        obtain ⟨world', hconfirm, htalks, _⟩ :=
          confirm_eq session question Resolution.answers world
        dsimp only
        rw [bind_of_ok hconfirm]
        exact ⟨world', rfl, htalks⟩

theorem resolveTree_eq (session : Session) (resolver : Resolver) (tree : Tree) (world : World) :
    ∃ world', session.resolveTree resolver tree world =
        (.ok (resolve (m := Id) resolver (session.answer world.input.take.reader) tree), world') ∧
      session.OnlyTalks world world' := by
  unfold resolveTree
  cases tree.command?.bind tree.entry? with
  | none => exact resolve_eq session resolver tree world
  | some command =>
    dsimp only
    rw [notes_bind]
    obtain ⟨world', heq, htalks⟩ := resolve_eq session resolver tree
      (world.printError ((Events.searched resolver command).flatMap session.log.line))
    exact ⟨world', heq, ((onlyTalks_refl session world).notes _).trans htalks⟩

theorem exists_resolveTree_of_asks (session : Session) {resolver : Resolver} {tree : Tree}
    {id : Nat} {command : Entry} {question replacement : Text} {obstacle : Option Failure}
    {declined : Failure} (hid : tree.command? = some id) (hentry : tree.entry? id = some command)
    (hasks : Resolution.ofCommand resolver command =
      .asks question replacement obstacle declined) (world : World) :
    ∃ world', session.resolveTree resolver tree world =
        (.ok (resolve (m := Id) resolver (session.answer world.input.take.reader) tree), world') ∧
      world'.input = session.inputAfter world.input question Resolution.answers := by
  unfold resolveTree resolve
  rw [hid]
  dsimp only [Option.bind_some]
  rw [hentry]
  dsimp only
  rw [notes_bind, hasks]
  obtain ⟨world', hconfirm, _, hinput⟩ := confirm_eq session question Resolution.answers
    (world.printError ((Events.searched resolver command).flatMap session.log.line))
  dsimp only
  rw [bind_of_ok hconfirm]
  exact ⟨world', rfl, hinput⟩

end question

section resolver

def programs (files : FileSystem) (environment : Environment) : ProgramIndex :=
  match environment.get? "PATH".toList with
  | none => .empty
  | some searchPath => .ofSearchPath files searchPath

def resolver? (files : FileSystem) (environment : Environment) : Except OsError Resolver :=
  files.currentDirectory.map fun base =>
    ⟨programs files environment, base, ProgramIndex.defaultMaxDistance, files⟩

theorem findPrograms_eq (session : Session) (world : World) :
    ∃ t, session.findPrograms world =
        (.ok (programs world.files world.environment), world.printError t) ∧
      session.IsTalk t := by
  unfold findPrograms programs
  rw [get_bind]
  dsimp only
  cases world.environment.get? "PATH".toList with
  | none => exact ⟨_, rfl, .line _⟩
  | some searchPath => exact ⟨_, rfl, isTalk_lines session _⟩

def noDirectory (error : OsError) : Exit :=
  .complain "failed to read the current directory".toList [error.describe]

theorem makeResolver_eq (session : Session) (world : World) :
    ∃ t, session.makeResolver world =
        ((resolver? world.files world.environment).mapError noDirectory, world.printError t) ∧
      session.IsTalk t := by
  obtain ⟨t, heq, ht⟩ := findPrograms_eq session world
  refine ⟨t, ?_, ht⟩
  unfold makeResolver resolver?
  rw [bind_of_ok heq, get_bind]
  dsimp only [World.printError]
  cases world.files.currentDirectory with
  | ok base => rfl
  | error error => rfl

end resolver

end Session

end Preflight
