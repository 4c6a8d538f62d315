import Mathlib
import Preflight.Proofs.Files.FileSystem
import Preflight.Proofs.Resolution
import Preflight.Proofs.Session.Check
import Preflight.Proofs.Token.Cut

/-!
This module contains the discipline of a session: there is one launch at most, and only if all of
checking succeeds.
-/

namespace Preflight

namespace Session

open SessionM

variable {session : Session} {world : World}

section run

variable {text : Text} {origin : Origin} {reader : Reader}

theorem prepare_eq {before : World} (hbefore : session.OnlyTalks world before)
    (h : session.Reads before.input text origin reader) :
    ∃ outcome after, session.ComesTo world reader text outcome ∧ session.OnlyTalks world after ∧
      session.prepare before =
        (outcome.result session.options.format, outcome.write session text origin after) := by
  obtain ⟨after, hread, htalks, hreader⟩ := readCommandLine_of_reads h
  unfold prepare
  rw [bind_of_ok hread]
  dsimp only
  rw [note_bind]
  exact check_eq ((hbefore.trans htalks).note _) origin hreader

def afterword (session : Session) (input : Input) : Text :=
  if input.isTerminal && !session.options.yes && input.isGone then
    session.log.line Events.lostTerminal
  else
    []

theorem afterword_cases (session : Session) (input : Input) :
    session.afterword input = [] ∨ input.isTerminal = true ∧ session.options.yes = false ∧
      input.isGone = true ∧ session.afterword input = session.log.line Events.lostTerminal := by
  unfold afterword
  split
  · next h =>
    rw [Bool.and_eq_true, Bool.and_eq_true, Bool.not_eq_true'] at h
    exact .inr ⟨h.1.1, h.1.2, h.2, rfl⟩
  · exact .inl rfl

def finish (session : Session) : Except Exit (Option Plan) → SessionM Unit
  | .ok (some plan) => session.launch plan
  | .ok none => return
  | .error exit => throw exit

theorem bind_finish {x : SessionM (Option Plan)} {result : Except Exit (Option Plan)}
    {before after : World} (h : x before = (result, after)) :
    (x >>= fun plan? =>
      match plan? with
      | some plan => session.launch plan
      | none => pure ()) before = session.finish result after := by
  cases result with
  | error exit =>
    rw [bind_of_error h]
    rfl
  | ok plan? =>
    rw [bind_of_ok h]
    cases plan? with
    | none => rfl
    | some plan => rfl

theorem withRawTerminal_eq {α : Type} {action : SessionM α} {result : Except Exit α}
    {before after : World} (hterminal : after.input.isTerminal = true)
    (hyes : session.options.yes = false)
    (h : action (before.printError (session.log.line Events.rawMode)) = (result, after)) :
    withRawTerminal session.log action before =
      (result, after.printError (session.afterword after.input)) := by
  unfold withRawTerminal afterword
  rw [h, hterminal, hyes]
  cases hgone : after.input.isGone with
  | true => simp [hgone]
  | false => simp [hgone]

theorem run_eq (h : session.Reads world.input text origin reader) :
    ∃ outcome after, session.ComesTo world reader text outcome ∧ session.OnlyTalks world after ∧
      session.run world = session.finish (outcome.result session.options.format)
        ((outcome.write session text origin after).printError (session.afterword after.input)) := by
  have hasks : (world.input.isTerminal && (session.options.command.isEmpty || !session.options.yes))
      = (world.input.isTerminal && !session.options.yes) := by
    cases h with
    | arguments hcommand => rw [List.isEmpty_eq_false_iff.2 hcommand, Bool.false_or]
    | piped hcommand hpipe hline => simp [hpipe]
  unfold run
  dsimp only
  rw [get_bind, hasks]
  by_cases hraw : (world.input.isTerminal && !session.options.yes) = true
  · rw [if_pos hraw]
    rw [Bool.and_eq_true, Bool.not_eq_true'] at hraw
    obtain ⟨outcome, after, hcomes, htalks, hprepare⟩ :=
      prepare_eq ((onlyTalks_refl session world).note Events.rawMode) h
    refine ⟨outcome, after, hcomes, htalks, bind_finish ?_⟩
    rw [← outcome.input_write session text origin after]
    refine withRawTerminal_eq ?_ hraw.2 hprepare
    rw [outcome.input_write, htalks.isTerminal, hraw.1]
  · rw [if_neg hraw]
    obtain ⟨outcome, after, hcomes, htalks, hprepare⟩ :=
      prepare_eq (onlyTalks_refl session world) h
    refine ⟨outcome, after, hcomes, htalks, bind_finish ?_⟩
    unfold afterword
    rw [htalks.isTerminal, if_neg (by simp_all), World.printError_nil, hprepare]

end run

section conclude

def conclude : Except Exit Unit × World → Nat × World
  | (.ok (), world) => (0, world)
  | (.error ⟨code, none⟩, world) => (code, world)
  | (.error ⟨code, some complaint⟩, world) =>
    (code, world.printError ("Error: ".toList ++ complaint.display ++ ['\n']))

theorem runProgram_eq {arguments : List Text} {options : Options} {start : World}
    (hoptions : Options.ofArguments arguments = .ok options)
    (hsetUp : setUp options start = (.ok session, world)) :
    runProgram arguments start = conclude (session.run world) := by
  unfold runProgram
  rw [hoptions]
  dsimp only
  rw [bind_of_ok hsetUp]
  rfl

theorem conclude_launch_of_ok (session : Session) {plan : Plan} {run : Run}
    (h : plan.launch world.files world.environment world.input.waiting = .ok run) :
    ∃ errors, conclude (session.launch plan world) =
      (run.status.exitCode,
        { world with
          launches := world.launches ++ [plan]
          output := world.output ++ run.output
          errors := errors }) := by
  unfold launch
  rw [note_bind, get_bind]
  dsimp only
  rw [set_bind]
  dsimp only [World.printError]
  rw [h]
  dsimp only
  rw [set_bind, note_bind]
  by_cases hcode : run.status.exitCode = 0
  · rw [if_neg (by simpa using hcode), hcode]
    exact ⟨_, rfl⟩
  · rw [if_pos hcode]
    exact ⟨_, rfl⟩

theorem conclude_launch_of_error (session : Session) {plan : Plan} {error : LaunchError}
    (h : plan.launch world.files world.environment world.input.waiting = .error error) :
    ∃ errors, conclude (session.launch plan world) =
      (1, { world with launches := world.launches ++ [plan], errors := errors }) := by
  unfold launch
  rw [note_bind, get_bind]
  dsimp only
  rw [set_bind]
  dsimp only [World.printError]
  rw [h]
  exact ⟨_, rfl⟩

theorem launches_and_input_launch (session : Session) (plan : Plan) (world : World) :
    (conclude (session.launch plan world)).2.launches = world.launches ++ [plan] ∧
      (conclude (session.launch plan world)).2.input = world.input := by
  cases h : plan.launch world.files world.environment world.input.waiting with
  | error error =>
    obtain ⟨errors, heq⟩ := conclude_launch_of_error session h
    rw [heq]
    exact ⟨rfl, rfl⟩
  | ok run =>
    obtain ⟨errors, heq⟩ := conclude_launch_of_ok session h
    rw [heq]
    exact ⟨rfl, rfl⟩

theorem conclude_launch_of_started (session : Session) (world : World) {plan : Plan} {run : Run}
    (h : plan.launch world.files world.environment
      (conclude (session.launch plan world)).2.input.waiting = .ok run) :
    (∀ c, run.status = .exited c → (conclude (session.launch plan world)).1 = c) ∧
      (∀ signal, run.status = .killed signal →
        (conclude (session.launch plan world)).1 = 128 + signal) ∧
      (conclude (session.launch plan world)).2.output = world.output ++ run.output := by
  rw [(launches_and_input_launch session plan world).2] at h
  obtain ⟨errors, heq⟩ := conclude_launch_of_ok session h
  rw [heq]
  refine ⟨?_, ?_, rfl⟩
  · intro c hstatus
    simp only [hstatus, Status.exitCode]
  · intro signal hstatus
    simp only [hstatus, Status.exitCode]

def Outcome.launched : Outcome → List Plan
  | launch plan => [plan]
  | _ => []

theorem Outcome.launched_eq_singleton_iff {outcome : Outcome} {plan : Plan} :
    outcome.launched = [plan] ↔ outcome = .launch plan := by
  cases outcome <;> simp [launched]

theorem launches_finish (session : Session) (outcome : Outcome) (world : World) :
    (conclude (session.finish (outcome.result session.options.format) world)).2.launches =
      world.launches ++ outcome.launched := by
  cases outcome with
  | report failure => exact (List.append_nil _).symm
  | dump content =>
    dsimp only [Outcome.result]
    split <;> exact (List.append_nil _).symm
  | launch plan => exact (launches_and_input_launch session plan world).1
  | stranded error => exact (List.append_nil _).symm

end conclude

/--
What a session does when it has read a command line: it launches the plan of the command line, or it
writes a dump, or a report of the stage that has failed. A report is what ends the standard error,
but for the log of a terminal that is gone. There is no dump of a plan as a record if the path in it
is not UTF-8.
-/
structure IsDisciplined (session : Session) (world : World) (text : Text) (origin : Origin)
    (reader : Reader) (code : Nat) (after : World) : Prop where
  atMostOne : after.launches = world.launches ∨
    ∃ plan, after.launches = world.launches ++ [plan]
  launches_iff : ∀ plan, after.launches = world.launches ++ [plan] ↔
    session.options.dump = none ∧ session.Plans world reader text plan
  child : ∀ plan run, after.launches = world.launches ++ [plan] →
    plan.launch world.files world.environment after.input.waiting = .ok run →
    (∀ c, run.status = .exited c → code = c) ∧
      (∀ signal, run.status = .killed signal → code = 128 + signal) ∧
      after.output = world.output ++ run.output
  reported : ∀ failure, session.Fails world reader text failure →
    after.launches = world.launches ∧ after.output = world.output ∧ code = 1 ∧
      ∃ talk report rest, session.IsTalk talk ∧ session.IsReport failure text origin report ∧
        (rest = [] ∨ world.input.isTerminal = true ∧ session.options.yes = false ∧
          after.input.isGone = true ∧
          rest = session.log.line ⟨.warn, "cchell::tty", "failed to restore terminal mode",
            [("error", "EIO: I/O error".toList)]⟩) ∧
        after.errors = world.errors ++ Utf8.encode (talk ++ report ++ rest)
  dumped : ∀ content, session.Dumps world reader text content →
    ¬content.IsUnwritable session.options.format →
      after.launches = world.launches ∧ code = 0 ∧
        ∃ t, content.IsWritten session.options.format t ∧
          after.output = world.output ++ Utf8.encode t
  notDumped : ∀ content, session.Dumps world reader text content →
    content.IsUnwritable session.options.format →
      after.launches = world.launches ∧ after.output = world.output ∧ code = 1 ∧
        ∃ errors, after.errors =
          errors ++ Utf8.ofString "Error: path contains invalid UTF-8 characters\n"

theorem isDisciplined_run {text : Text} {origin : Origin} {reader : Reader}
    (h : session.Reads world.input text origin reader) :
    session.IsDisciplined world text origin reader (conclude (session.run world)).1
      (conclude (session.run world)).2 := by
  obtain ⟨outcome, after, hcomes, htalks, hrun⟩ := run_eq h
  have hlaunches : (conclude (session.run world)).2.launches =
      world.launches ++ outcome.launched := by
    rw [hrun, launches_finish]
    change (outcome.write session text origin after).launches ++ _ = _
    rw [outcome.launches_write, htalks.launches]
  have hiff : ∀ plan, (conclude (session.run world)).2.launches = world.launches ++ [plan] ↔
      outcome = .launch plan := by
    intro plan
    rw [hlaunches, List.append_right_inj, Outcome.launched_eq_singleton_iff]
  constructor
  case atMostOne =>
    rw [hlaunches]
    cases outcome with
    | launch plan => exact .inr ⟨plan, rfl⟩
    | report failure => exact .inl (List.append_nil _)
    | dump t => exact .inl (List.append_nil _)
    | stranded error => exact .inl (List.append_nil _)
  case launches_iff =>
    intro plan
    rw [hiff]
    constructor
    · rintro rfl
      cases hcomes with
      | launch hdump hplans => exact ⟨hdump, hplans⟩
    · rintro ⟨hdump, hplans⟩
      exact hcomes.unique (.launch hdump hplans)
  case child =>
    intro plan run hlaunch hok
    obtain rfl := (hiff plan).1 hlaunch
    replace hrun : session.run world =
        session.launch plan (after.printError (session.afterword after.input)) := hrun
    rw [hrun] at hok ⊢
    rw [← htalks.files, ← htalks.environment] at hok
    obtain ⟨hexited, hkilled, houtput⟩ := conclude_launch_of_started session
      (after.printError (session.afterword after.input)) hok
    exact ⟨hexited, hkilled, houtput.trans (congrArg (· ++ run.output) htalks.output)⟩
  case reported =>
    intro failure hfails
    obtain rfl := hcomes.unique (.report hfails)
    obtain ⟨talk, htalk, herrors⟩ := htalks.errors
    rw [hrun]
    refine ⟨htalks.launches, htalks.output, rfl, talk, _, session.afterword after.input, htalk,
      isReport_report session failure text origin, ?_, ?_⟩
    · rw [← htalks.isTerminal]
      exact afterword_cases session after.input
    · change after.errors ++ _ ++ _ = _
      rw [herrors]
      simp
  case dumped =>
    intro content hdumps hwritable
    obtain rfl := hcomes.unique (.dump hdumps)
    rw [hrun]
    cases hdump : content.dump session.options.format with
    | error message => exact absurd (Dump.Content.dump_eq_error_iff.1 hdump).1 hwritable
    | ok t =>
      dsimp only [Outcome.result, Outcome.write]
      rw [hdump]
      refine ⟨htalks.launches, rfl, t, Dump.Content.isWritten_of_dump_eq_ok hdump, ?_⟩
      change after.output ++ _ = _
      rw [htalks.output]
  case notDumped =>
    intro content hdumps hunwritable
    obtain rfl := hcomes.unique (.dump hdumps)
    rw [hrun]
    dsimp only [Outcome.result, Outcome.write]
    rw [Dump.Content.dump_eq_error_iff.2 ⟨hunwritable, rfl⟩]
    exact ⟨htalks.launches, htalks.output, rfl, _, rfl⟩

/--
Every session is disciplined whose command line stands in the arguments or in a pipe that can be
read, and running the program is running such a session.
-/
theorem run_isDisciplined {text : Text} {origin : Origin} {reader : Reader}
    (h : session.Reads world.input text origin reader) :
    session.IsDisciplined world text origin reader (conclude (session.run world)).1
        (conclude (session.run world)).2 ∧
      ∀ arguments options start, Options.ofArguments arguments = .ok options →
        setUp options start = (.ok session, world) →
        runProgram arguments start = conclude (session.run world) :=
  ⟨isDisciplined_run h, fun _ _ _ => runProgram_eq⟩

def ofWord (word : Text) (dump : Option Dump) (format : Dump.Format) : Session :=
  ⟨{ Options.default with format := format, dump := dump, command := [word] },
    ⟨.default, false⟩, ⟨.default, false⟩, .plain⟩

def insideUnnamed (input : Input) : World :=
  .start ⟨[([0xFF], .directory [([0x61], .file true (.program Program.exitWithCode))])],
      some [[0xFF]]⟩
    [("PATH".toList, ['.']), ("CODE".toList, ['3'])] input

namespace insideUnnamed

variable (input : Input)

def resolver : Resolver :=
  ⟨⟨[(['a'], [0x2F, 0xFF, 0x2F, 0x61])]⟩, [0x2F, 0xFF], 2, (insideUnnamed (.ofPipe [])).files⟩

def plan : Plan := ⟨[0x2F, 0xFF, 0x2F, 0x61], [['a']], []⟩

theorem reads_ofWord (word : Text) (dump : Option Dump) (format : Dump.Format) :
    (ofWord word dump format).Reads (insideUnnamed input).input word .arguments
      input.take.reader := by
  have h : (ofWord word dump format).Reads (insideUnnamed input).input _ .arguments _ :=
    .arguments (List.cons_ne_nil _ _)
  rwa [show [' '].intercalate (ofWord word dump format).options.command = word from
    List.append_nil word] at h

theorem accepts_word {word : Text} (hword : Lexer.IsWord word) (hne : word ≠ []) :
    Accepts word [⟨.word, word, .start⟩] :=
  ⟨Cut.tokenize_word hword hne, rfl⟩

theorem accepts_a : Accepts ['a'] [⟨.word, ['a'], .start⟩] :=
  accepts_word (by decide) (List.cons_ne_nil _ _)

theorem accepts_b : Accepts ['b'] [⟨.word, ['b'], .start⟩] :=
  accepts_word (by decide) (List.cons_ne_nil _ _)

theorem resolver?_eq : resolver? (insideUnnamed input).files (insideUnnamed input).environment =
    .ok resolver := by
  cbv

theorem plans_a (dump : Option Dump) (format : Dump.Format) :
    (ofWord ['a'] dump format).Plans (insideUnnamed input) input.take.reader ['a'] plan := by
  have hfound : Resolution.ofCommand resolver ⟨.command, ['a'], .start, false⟩ = .found := by cbv
  have hresolves : (ofWord ['a'] dump format).Resolves (insideUnnamed input) input.take.reader
      [⟨.word, ['a'], .start⟩] _ _ := .intro (resolver?_eq input)
  rw [resolve_of_found rfl rfl hfound] at hresolves
  exact .intro accepts_a hresolves rfl

theorem launch_plan (waiting : Utf8.Bytes) :
    plan.launch (insideUnnamed input).files (insideUnnamed input).environment waiting =
      .ok ⟨.exited 3, [], []⟩ := by
  cbv

theorem asks_b : Resolution.ofCommand resolver ⟨.command, ['b'], .start, false⟩ =
    .asks "command 'b' doesn't exist, do you mean 'a'?".toList ['a'] none
      ⟨.unknownCommand ['b'], .start, 1⟩ := by
  cbv

theorem fails_b_of_resolve
    (h : resolve (m := Id) resolver ((ofWord ['b'] none .text).answer input.take.reader)
      (parse [⟨.word, ['b'], .start⟩]) = .error ⟨.unknownCommand ['b'], .start, 1⟩) :
    (ofWord ['b'] none .text).Fails (insideUnnamed input) input.take.reader ['b']
      ⟨.unknownCommand ['b'], .start, 1⟩ := by
  have hresolves : (ofWord ['b'] none .text).Resolves (insideUnnamed input) input.take.reader
      [⟨.word, ['b'], .start⟩] _ _ := .intro (resolver?_eq input)
  rw [h] at hresolves
  exact .resolution (by decide) (by decide) accepts_b hresolves

theorem report_b {report : Text}
    (h : (ofWord ['b'] none .text).IsReport ⟨.unknownCommand ['b'], .start, 1⟩ ['b'] .arguments
      report) :
    report = ("error in cchell::parser at argv:1:1\n  command 'b' doesn't exist\n".toList
      ++ "  consider fixing $PATH or installing the program\n".toList) := by
  cases h with
  | text _ h =>
    cases h
    rfl
  | json hformat _ => contradiction

theorem dump_a {t : Text}
    (h : Dump.Content.IsWritten (.tree (parse [⟨.word, ['a'], .start⟩])) .text t) :
    t = "statement\n└── command \"a\" 1:1\n".toList := by
  cases h with
  | tree hdrawn =>
    have hview : (parse [⟨.word, ['a'], .start⟩]).view.children =
        [.node ⟨.command, ['a'], .start, false⟩ []] := by cbv
    rw [hview] at hdrawn
    cases hdrawn with
    | last hline hbelow =>
      cases hline with
      | intro hquoted =>
        cases hbelow
        rw [Text.isQuoted_iff.1 hquoted]
        rfl
    | next _ _ hne _ => contradiction

end insideUnnamed

open insideUnnamed in
theorem run_isDisciplined_oneWord :
    let world := insideUnnamed (.ofPipe [])
    (∃ after, conclude ((ofWord ['a'] none .text).run world) = (3, after) ∧
      after.launches = [plan]) ∧
    (∃ after, conclude ((ofWord ['b'] none .text).run world) = (1, after) ∧
      after.launches = [] ∧ after.output = [] ∧ ∃ talk, after.errors = Utf8.encode (talk
        ++ "error in cchell::parser at argv:1:1\n  command 'b' doesn't exist\n".toList
        ++ "  consider fixing $PATH or installing the program\n".toList)) ∧
    ∃ after, conclude ((ofWord ['a'] (some .tree) .text).run world) = (0, after) ∧
      after.launches = [] ∧
      after.output = Utf8.encode "statement\n└── command \"a\" 1:1\n".toList := by
  intro world
  have hdisciplined := fun word dump =>
    (run_isDisciplined (reads_ofWord (.ofPipe []) word dump .text)).1
  refine ⟨?launched, ?reported, ?dumped⟩
  case launched =>
    have hlaunches := ((hdisciplined _ none).launches_iff _).2 ⟨rfl, plans_a _ none .text⟩
    exact ⟨_, Prod.ext (((hdisciplined _ none).child _ _ hlaunches (launch_plan _ _)).1 3 rfl) rfl,
      hlaunches⟩
  case reported =>
    obtain ⟨hlaunches, houtput, hcode, talk, report, rest, _, hreport, hrest, herrors⟩ :=
      (hdisciplined _ none).reported _ (fails_b_of_resolve (.ofPipe []) (by cbv))
    obtain rfl := report_b hreport
    obtain rfl : rest = [] := hrest.resolve_right fun h => absurd h.1 (by decide)
    rw [List.append_nil, ← List.append_assoc] at herrors
    exact ⟨_, Prod.ext hcode rfl, hlaunches, houtput, talk, herrors⟩
  case dumped =>
    obtain ⟨hlaunches, hcode, t, ht, houtput⟩ := (hdisciplined _ (some .tree)).dumped _
      (.tree rfl accepts_a) (fun h => absurd h.1 (by decide))
    obtain rfl := dump_a ht
    exact ⟨_, Prod.ext hcode rfl, hlaunches, houtput⟩

namespace insideUnnamed

theorem resolve_b_onTerminal :
    resolve (m := Id) resolver
      ((ofWord ['b'] none .text).answer (Input.ofTerminal [] true).take.reader)
      (parse [⟨.word, ['b'], .start⟩]) = .error ⟨.unknownCommand ['b'], .start, 1⟩ := by
  cbv

section terminal

variable {world : World} (hfiles : world.files = resolver.files)
  (henvironment : world.environment = (insideUnnamed (.ofPipe [])).environment)
  (hinput : world.input = .ofTerminal [] true)
include hfiles henvironment hinput

theorem exists_checkTree_b :
    ∃ after, (ofWord ['b'] none .text).checkTree ['b'] .arguments
        (parse [⟨.word, ['b'], .start⟩]) world = (.error (.silent 1), after) ∧
      after.input = ⟨true, [], .ofScript [], true⟩ := by
  obtain ⟨t, hmake, _⟩ := makeResolver_eq (ofWord ['b'] none .text) world
  rw [hfiles, henvironment] at hmake
  replace hmake := hmake.trans (congrArg (Prod.mk · _)
    (congrArg (Except.mapError noDirectory) (resolver?_eq (.ofPipe []))))
  obtain ⟨after, hresolve, hafter⟩ := @exists_resolveTree_of_asks (ofWord ['b'] none .text) resolver
    (parse [⟨.word, ['b'], .start⟩]) _ _ _ _ _ _ rfl rfl asks_b (world.printError t)
  replace hinput : (world.printError t).input = .ofTerminal [] true := hinput
  rw [hinput] at hresolve hafter
  unfold checkTree
  rw [bind_of_ok hmake, bind_of_ok hresolve, resolve_b_onTerminal, require_error_bind]
  refine ⟨_, rfl, hafter.trans ?_⟩
  cbv

theorem exists_prepare_b :
    ∃ after, (ofWord ['b'] none .text).prepare world = (.error (.silent 1), after) ∧
      after.input = ⟨true, [], .ofScript [], true⟩ := by
  have hread : (ofWord ['b'] none .text).readCommandLine world = (.ok (['b'], .arguments), world) :=
    rfl
  unfold prepare
  rw [bind_of_ok hread]
  dsimp only
  rw [note_bind]
  unfold check
  dsimp only
  rw [note_bind, if_neg (by decide), accepts_b.lexing, require_ok_bind, accepts_b.matching,
    require_ok_bind, notes_bind, if_neg (by decide)]
  exact exists_checkTree_b hfiles henvironment hinput

end terminal

theorem exists_run_b :
    ∃ after : World, (ofWord ['b'] none .text).run (insideUnnamed (.ofTerminal [] true)) =
      (.error (.silent 1), after.printError
        " WARN cchell::tty: failed to restore terminal mode error=EIO: I/O error\n".toList) := by
  obtain ⟨after, hprepare, hinput⟩ := @exists_prepare_b
    ((insideUnnamed (.ofTerminal [] true)).printError
      ((ofWord ['b'] none .text).log.line Events.rawMode)) rfl rfl rfl
  have hraw := @withRawTerminal_eq (ofWord ['b'] none .text) _ _ _ _ _ (by rw [hinput]) rfl hprepare
  have hrun : (ofWord ['b'] none .text).run (insideUnnamed (.ofTerminal [] true)) = _ :=
    bind_finish hraw
  have hline : (ofWord ['b'] none .text).afterword after.input =
      " WARN cchell::tty: failed to restore terminal mode error=EIO: I/O error\n".toList := by
    rw [hinput]
    cbv
  rw [hline] at hrun
  exact ⟨after, hrun⟩

theorem isUnwritable_plan : Dump.Content.IsUnwritable .json (.plan plan) := by
  refine ⟨rfl, plan, rfl, fun path hpath => ?_⟩
  have hnone : Utf8.decode? plan.path = none := by cbv
  rw [Utf8.decode?_eq_some_iff.2 hpath] at hnone
  contradiction

end insideUnnamed

open insideUnnamed in
/--
A terminal that has hung up is complained about after a report, and a plan is no record if its path
is not UTF-8.
-/
theorem not_endsIn_report :
    (∃ after, conclude ((ofWord ['b'] none .text).run (insideUnnamed (.ofTerminal [] true))) =
        (1, after) ∧
      ∃ failure, (ofWord ['b'] none .text).Fails (insideUnnamed (.ofTerminal [] true))
          (Input.ofTerminal [] true).take.reader ['b'] failure ∧
        ∀ report, (ofWord ['b'] none .text).IsReport failure ['b'] .arguments report →
          ¬Utf8.encode report <:+ after.errors) ∧
    ∃ after, conclude ((ofWord ['a'] (some .plan) .json).run (insideUnnamed (.ofPipe []))) =
        (1, after) ∧
      (ofWord ['a'] (some .plan) .json).Dumps (insideUnnamed (.ofPipe [])) (.ofScript []) ['a']
        (.plan plan) ∧
      after.output = [] := by
  refine ⟨?report, ?dump⟩
  case report =>
    have hfails := fails_b_of_resolve (.ofTerminal [] true) resolve_b_onTerminal
    obtain ⟨after, hrun⟩ := exists_run_b
    rw [hrun]
    refine ⟨_, rfl, _, hfails, fun report hreport => ?_⟩
    obtain rfl := report_b hreport
    rintro ⟨front, hfront⟩
    replace hfront : front ++ _ = after.errors ++ Utf8.encode _ := hfront
    -- One of them ends in "program" and the other one in "error".
    have hend := congrArg (fun bytes => bytes.reverse.take 2) hfront
    rw [List.reverse_append, List.reverse_append, List.take_append_of_le_length (by decide),
      List.take_append_of_le_length (by decide)] at hend
    exact absurd hend (by decide)
  case dump =>
    have hdumps : (ofWord ['a'] (some .plan) .json).Dumps (insideUnnamed (.ofPipe [])) _ ['a'] _ :=
      .plan rfl (plans_a _ _ _)
    obtain ⟨_, houtput, hcode, _⟩ := (isDisciplined_run (reads_ofWord _ _ _ _)).notDumped _ hdumps
      isUnwritable_plan
    exact ⟨_, Prod.ext hcode rfl, hdumps, houtput⟩

end Session

end Preflight
