import Preflight.Proofs.Dump.Written
import Preflight.Proofs.Report.Drawn
import Preflight.Proofs.Session.Talk

/-!
This module contains what checking a command line comes to: a plan, a dump or a report, and never
two of them.
-/

namespace Preflight

namespace Session

open SessionM

structure Accepts (text : Text) (tokens : List Token) : Prop where
  lexing : tokenize text = .ok tokens
  matching : Balance.check tokens = .ok ()

section stages

variable (session : Session) (world : World) (reader : Reader) (text : Text)

inductive Resolves (tokens : List Token) : Resolver → Except Failure Tree → Prop where
  | intro {resolver : Resolver}
    (hresolver : resolver? world.files world.environment = .ok resolver) :
    Resolves tokens resolver (resolve (m := Id) resolver (session.answer reader) (parse tokens))

inductive Plans : Plan → Prop where
  | intro {tokens : List Token} {resolver : Resolver} {tree : Tree} {plan : Plan}
    (haccepts : Accepts text tokens)
    (hresolves : session.Resolves world reader tokens resolver (.ok tree))
    (hplan : Plan.ofTree tree resolver.index = .ok plan) : Plans plan

inductive Fails : Failure → Prop where
  | lexing {failure : Failure} (htokens : session.options.dump ≠ some .tokens)
    (h : tokenize text = .error failure) : Fails failure
  | matching {tokens : List Token} {failure : Failure}
    (htokens : session.options.dump ≠ some .tokens) (hlexing : tokenize text = .ok tokens)
    (h : Balance.check tokens = .error failure) : Fails failure
  | resolution {tokens : List Token} {resolver : Resolver} {failure : Failure}
    (htokens : session.options.dump ≠ some .tokens) (htree : session.options.dump ≠ some .tree)
    (haccepts : Accepts text tokens)
    (h : session.Resolves world reader tokens resolver (.error failure)) : Fails failure
  | planning {tokens : List Token} {resolver : Resolver} {tree : Tree} {failure : Failure}
    (htokens : session.options.dump ≠ some .tokens) (htree : session.options.dump ≠ some .tree)
    (haccepts : Accepts text tokens)
    (hresolves : session.Resolves world reader tokens resolver (.ok tree))
    (h : Plan.ofTree tree resolver.index = .error failure) : Fails failure

/--
A dump is asked for, and the stages before it succeed. Tokens are dumped whatever the lexer thinks
of them.
-/
inductive Dumps : Dump.Content → Prop where
  | tokens (h : session.options.dump = some .tokens) : Dumps (.tokens (lex text).tokens)
  | tree {tokens : List Token} (h : session.options.dump = some .tree)
    (haccepts : Accepts text tokens) : Dumps (.tree (parse tokens))
  | plan {plan : Plan} (h : session.options.dump = some .plan)
    (hplans : session.Plans world reader text plan) : Dumps (.plan plan)

end stages

inductive IsReport (session : Session) (failure : Failure) (text : Text) (origin : Origin) :
    Text → Prop where
  | text {t : Text} (hformat : session.options.format = .text)
    (h : Report.IsReport failure.diagnostic text origin.label session.renderer t) :
    IsReport session failure text origin t
  | json {t : Text} (hformat : session.options.format = .json)
    (h : Json.IsPretty (.record [
      ("diagnostic".toList, .record [("annotation".toList, .text failure.problem.hint),
        ("domain".toList, .text failure.problem.domain.toList),
        ("length".toList, .number (max failure.length 1)),
        ("message".toList, .text failure.problem.message),
        ("severity".toList, .text "error".toList),
        ("source".toList, .record [("column".toList, .number failure.source.column),
          ("line".toList, .number failure.source.line)])]),
      ("kind".toList, .text failure.stage.name.toList)]) t) :
    IsReport session failure text origin (t ++ ['\n'])

theorem isReport_report (session : Session) (failure : Failure) (text : Text) (origin : Origin) :
    session.IsReport failure text origin (session.report failure text origin) := by
  unfold report
  split
  · next hformat => exact .text hformat (Report.isReport_render _)
  · next hformat =>
    obtain ⟨t, ht, hpretty⟩ := Json.exists_pretty_eq failure.toJson
    rw [hpretty]
    exact .json hformat ht

inductive Outcome where
  | report (failure : Failure)
  | dump (content : Dump.Content)
  | launch (plan : Plan)
  | stranded (error : OsError)

namespace Outcome

def result (format : Dump.Format) : Outcome → Except Exit (Option Plan)
  | report _ => .error (.silent 1)
  | dump content =>
    match content.dump format with
    | .ok _ => .ok none
    | .error message => .error (.complain message [])
  | launch plan => .ok (some plan)
  | stranded error => .error (noDirectory error)

def write (session : Session) (text : Text) (origin : Origin) (world : World) : Outcome → World
  | report failure => world.printError (session.report failure text origin)
  | dump content =>
    match content.dump session.options.format with
    | .ok t => world.print t
    | .error _ => world
  | launch _ => world
  | stranded _ => world

section write

variable (session : Session) (text : Text) (origin : Origin) (world : World) (outcome : Outcome)

theorem input_write : (outcome.write session text origin world).input = world.input := by
  cases outcome with
  | dump content =>
    dsimp only [write]
    split <;> rfl
  | _ => rfl

theorem launches_write : (outcome.write session text origin world).launches = world.launches := by
  cases outcome with
  | dump content =>
    dsimp only [write]
    split <;> rfl
  | _ => rfl

end write

end Outcome

section check

variable {session : Session} {world : World} {reader : Reader} {text : Text}

inductive ComesTo (session : Session) (world : World) (reader : Reader) (text : Text) :
    Outcome → Prop where
  | report {failure : Failure} (h : session.Fails world reader text failure) :
    ComesTo session world reader text (.report failure)
  | dump {content : Dump.Content} (h : session.Dumps world reader text content) :
    ComesTo session world reader text (.dump content)
  | launch {plan : Plan} (hdump : session.options.dump = none)
    (h : session.Plans world reader text plan) : ComesTo session world reader text (.launch plan)
  | stranded {tokens : List Token} {error : OsError} (htokens : session.options.dump ≠ some .tokens)
    (htree : session.options.dump ≠ some .tree) (haccepts : Accepts text tokens)
    (hresolver : resolver? world.files world.environment = .error error) :
    ComesTo session world reader text (.stranded error)

theorem ComesTo.unique {outcome outcome' : Outcome} (h : session.ComesTo world reader text outcome)
    (h' : session.ComesTo world reader text outcome') : outcome = outcome' := by
  cases h <;> cases h' <;> grind [Accepts, Resolves, Fails, Plans, Dumps]

theorem require_error_bind {α β : Type} (session : Session) (text : Text) (origin : Origin)
    (failure : Failure) (f : α → SessionM β) (world : World) :
    (session.require text origin (.error failure) >>= f) world =
      (.error (.silent 1), world.printError (session.report failure text origin)) := rfl

theorem require_ok_bind {α β : Type} (session : Session) (text : Text) (origin : Origin) (a : α)
    (f : α → SessionM β) (world : World) :
    (session.require text origin (.ok a) >>= f) world = f a world := rfl

def checkPlan (session : Session) (text : Text) (origin : Origin) (tree : Tree)
    (index : ProgramIndex) : SessionM (Option Plan) := do
  let plan ← session.require text origin (Plan.ofTree tree index)
  note session.log (Events.planned plan)
  if session.options.dump = some .plan then
    match plan.dump session.options.format with
    | .ok t => print t
    | .error message => throw (.complain message [])
    return none
  return some plan

def checkTree (session : Session) (text : Text) (origin : Origin) (tree : Tree) :
    SessionM (Option Plan) := do
  let resolver ← session.makeResolver
  let tree ← session.require text origin (← session.resolveTree resolver tree)
  session.checkPlan text origin tree resolver.index

variable {before : World} (hbefore : session.OnlyTalks world before) (origin : Origin)
include hbefore

section stages

variable {tokens : List Token} (htokens : session.options.dump ≠ some .tokens)
  (htree : session.options.dump ≠ some .tree) (haccepts : Accepts text tokens)
include htokens htree haccepts

theorem checkPlan_eq {resolver : Resolver} {tree : Tree}
    (hresolves : session.Resolves world reader tokens resolver (.ok tree)) :
    ∃ outcome after, session.ComesTo world reader text outcome ∧ session.OnlyTalks world after ∧
      session.checkPlan text origin tree resolver.index before =
        (outcome.result session.options.format, outcome.write session text origin after) := by
  unfold checkPlan
  cases hplan : Plan.ofTree tree resolver.index with
  | error failure =>
    rw [require_error_bind]
    exact ⟨_, _, .report (.planning htokens htree haccepts hresolves hplan), hbefore, rfl⟩
  | ok plan =>
    rw [require_ok_bind, note_bind]
    have htalks := hbefore.note (Events.planned plan)
    have hplans : session.Plans world reader text plan := .intro haccepts hresolves hplan
    by_cases hdump : session.options.dump = some .plan
    · rw [if_pos hdump]
      refine ⟨_, _, .dump (.plan hdump hplans), htalks, ?_⟩
      dsimp only [Outcome.result, Outcome.write, Dump.Content.dump]
      cases plan.dump session.options.format <;> rfl
    · rw [if_neg hdump]
      have hnone : session.options.dump = none := by
        cases h : session.options.dump with
        | none => rfl
        | some dump => cases dump <;> contradiction
      exact ⟨_, _, .launch hnone hplans, htalks, rfl⟩

theorem checkTree_eq (hreader : before.input.take.reader = reader) :
    ∃ outcome after, session.ComesTo world reader text outcome ∧ session.OnlyTalks world after ∧
      session.checkTree text origin (parse tokens) before =
        (outcome.result session.options.format, outcome.write session text origin after) := by
  unfold checkTree
  obtain ⟨t, hmake, ht⟩ := makeResolver_eq session before
  rw [hbefore.files, hbefore.environment] at hmake
  have htalks := hbefore.trans (onlyTalks_printError ht)
  cases hresolver : resolver? world.files world.environment with
  | error error =>
    rw [hresolver] at hmake
    rw [bind_of_error hmake]
    exact ⟨_, _, .stranded htokens htree haccepts hresolver, htalks, rfl⟩
  | ok resolver =>
    rw [hresolver] at hmake
    rw [bind_of_ok hmake]
    obtain ⟨after, hresolve, hasks⟩ :=
      resolveTree_eq session resolver (parse tokens) (before.printError t)
    -- What has been said up to here has taken nothing from the input.
    have hstill : (before.printError t).input.take.reader = reader := hreader
    rw [hstill] at hresolve
    rw [bind_of_ok hresolve]
    have hresolves : session.Resolves world reader tokens resolver _ := .intro hresolver
    cases hresult : resolve (m := Id) resolver (session.answer reader) (parse tokens) with
    | error failure =>
      rw [hresult] at hresolves
      rw [require_error_bind]
      exact ⟨_, _, .report (.resolution htokens htree haccepts hresolves), htalks.trans hasks, rfl⟩
    | ok tree =>
      rw [hresult] at hresolves
      rw [require_ok_bind]
      exact checkPlan_eq (htalks.trans hasks) origin htokens htree haccepts hresolves

end stages

theorem check_eq (hreader : before.input.take.reader = reader) :
    ∃ outcome after, session.ComesTo world reader text outcome ∧ session.OnlyTalks world after ∧
      session.check text origin before =
        (outcome.result session.options.format, outcome.write session text origin after) := by
  unfold check
  dsimp only
  rw [note_bind]
  have htalks := hbefore.note (Events.lexed (lex text).tokens)
  by_cases htokens : session.options.dump = some .tokens
  · rw [if_pos htokens]
    exact ⟨_, _, .dump (.tokens htokens), htalks, rfl⟩
  · rw [if_neg htokens]
    cases hlexing : tokenize text with
    | error failure =>
      rw [require_error_bind]
      exact ⟨_, _, .report (.lexing htokens hlexing), htalks, rfl⟩
    | ok tokens =>
      rw [require_ok_bind]
      cases hmatching : Balance.check tokens with
      | error failure =>
        rw [require_error_bind]
        exact ⟨_, _, .report (.matching htokens hlexing hmatching), htalks, rfl⟩
      | ok _ =>
        rw [require_ok_bind, notes_bind]
        have haccepts : Accepts text tokens := ⟨hlexing, hmatching⟩
        replace htalks := htalks.notes (Events.parsed tokens)
        by_cases htree : session.options.dump = some .tree
        · rw [if_pos htree]
          exact ⟨_, _, .dump (.tree htree haccepts), htalks, rfl⟩
        · rw [if_neg htree]
          exact checkTree_eq htalks origin htokens htree haccepts hreader

end check

end Session

end Preflight
