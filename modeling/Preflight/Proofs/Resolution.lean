import Preflight.Proofs.Syntax.Parser
import Preflight.Resolution

/-!
This module contains what follows from how the search for the program of a statement ends.
-/

namespace Preflight

section resolve

variable {m : Type → Type} [Monad m] {resolver : Resolver}
  {confirm : Text → List Char → m (Except ReadError Char)} {tree : Tree} {id : Nat}
  {command : Entry}

theorem resolve_of_no_command (hid : tree.command? = none) :
    resolve resolver confirm tree = pure (.ok tree) := by
  unfold resolve
  simp only [hid]

theorem resolve_of_found (hid : tree.command? = some id) (hentry : tree.entry? id = some command)
    (hfound : Resolution.ofCommand resolver command = .found) :
    resolve resolver confirm tree = pure (.ok tree) := by
  unfold resolve
  simp only [hid, hentry, hfound]

theorem resolve_of_asks [LawfulMonad m] {question replacement : Text} {obstacle : Option Failure}
    {declined : Failure} (hid : tree.command? = some id) (hentry : tree.entry? id = some command)
    (hasks : Resolution.ofCommand resolver command = .asks question replacement obstacle declined) :
    resolve resolver confirm tree =
      Resolution.afterAnswer tree id replacement obstacle declined <$>
        confirm question Resolution.answers := by
  unfold resolve
  simp only [hid, hentry, hasks]
  rw [bind_pure_comp]

theorem resolve_of_refused {failure : Failure} (hid : tree.command? = some id)
    (hentry : tree.entry? id = some command)
    (hrefused : Resolution.ofCommand resolver command = .refused failure) :
    resolve resolver confirm tree = pure (.error failure) := by
  unfold resolve
  simp only [hid, hentry, hrefused]

end resolve

namespace Resolution

theorem afterAnswer_eq_ok {tree tree' : Tree} {id : Nat} {replacement : Text}
    {obstacle : Option Failure} {declined : Failure} {answer : Except ReadError Char}
    (h : afterAnswer tree id replacement obstacle declined answer = .ok tree') :
    answer = .ok 'y' ∧ obstacle = none ∧ tree' = tree.setText id replacement := by
  unfold afterAnswer at h
  split at h
  · cases obstacle with
    | none => exact ⟨rfl, rfl, (Except.ok.inj h).symm⟩
    | some failure => contradiction
  · contradiction

theorem ofCommand_of_isLocal {resolver : Resolver} {command : Entry}
    (hlocal : Word.isLocal command.text = true) :
    ofCommand resolver command = ofPath resolver command := by
  unfold ofCommand
  rw [if_pos hlocal]

theorem ofCommand_of_not_isLocal {resolver : Resolver} {command : Entry}
    (hlocal : Word.isLocal command.text = false) :
    ofCommand resolver command = ofName resolver command := by
  unfold ofCommand
  rw [if_neg (by simp [hlocal])]

theorem ofName_of_contains {resolver : Resolver} {command : Entry}
    (h : resolver.index.contains (Word.unescape command.text) = true) :
    ofName resolver command = .found := by
  unfold ofName
  rw [if_pos h]

end Resolution

structure Failure.IsAbout (failure : Failure) (command : Entry) : Prop where
  stage : failure.stage = .semantic
  source : failure.diagnostic.source = command.source
  length : failure.diagnostic.length = max command.text.length 1

namespace Resolution

variable {resolver : Resolver} {command : Entry}

def IsAbout (command : Entry) : Resolution → Prop
  | found => True
  | refused failure => failure.IsAbout command
  | asks _ _ obstacle declined =>
    (∀ failure ∈ obstacle, failure.IsAbout command) ∧ declined.IsAbout command

theorem isAbout_failure {problem : Problem} (h : problem.stage = .semantic) (command : Entry) :
    (failure command problem).IsAbout command :=
  ⟨h, rfl, rfl⟩

theorem stage_of_obstacle?_eq_some {files : FileSystem} {path : Path} {problem : Problem}
    (h : obstacle? files path = some problem) : problem.stage = .semantic := by
  unfold obstacle? at h
  dsimp only at h
  split at h
  · rw [← Option.some.inj h]
    rfl
  · split at h
    · rw [← Option.some.inj h]
      rfl
    · contradiction

theorem isAbout_ofName (resolver : Resolver) (command : Entry) :
    (ofName resolver command).IsAbout command := by
  have hdeclined : (failure command (.unknownCommand command.text)).IsAbout command :=
    isAbout_failure rfl command
  unfold ofName
  dsimp only
  split
  · trivial
  · split
    · exact hdeclined
    · exact ⟨by simp, hdeclined⟩

theorem isAbout_ofPath (resolver : Resolver) (command : Entry) :
    (ofPath resolver command).IsAbout command := by
  have hdeclined : (failure command (.missingPath command.text)).IsAbout command :=
    isAbout_failure rfl command
  unfold ofPath
  dsimp only
  split
  · split
    · next hobstacle => exact isAbout_failure (stage_of_obstacle?_eq_some hobstacle) command
    · trivial
  · split
    · exact hdeclined
    · refine ⟨?_, hdeclined⟩
      intro failure hfailure
      obtain ⟨problem, hobstacle, rfl⟩ := Option.map_eq_some_iff.1 hfailure
      exact isAbout_failure (stage_of_obstacle?_eq_some hobstacle) command

theorem isAbout_ofCommand (resolver : Resolver) (command : Entry) :
    (ofCommand resolver command).IsAbout command := by
  unfold ofCommand
  split
  · exact isAbout_ofPath resolver command
  · exact isAbout_ofName resolver command

theorem afterAnswer_eq_error {tree : Tree} {id : Nat} {replacement : Text}
    {obstacle : Option Failure} {declined failure : Failure} {answer : Except ReadError Char}
    (h : afterAnswer tree id replacement obstacle declined answer = .error failure) :
    failure ∈ obstacle ∨ failure = declined := by
  unfold afterAnswer at h
  split at h
  · cases obstacle with
    | none => contradiction
    | some obstacle => exact .inl (congrArg some (Except.error.inj h))
  · exact .inr (Except.error.inj h).symm

end Resolution

section consent

variable {σ : Type} {resolver : Resolver}
  {confirm : Text → List Char → StateM σ (Except ReadError Char)} {s : σ}

def Consents (confirm : Text → List Char → StateM σ (Except ReadError Char)) (s : σ)
    (question : Text) : Prop :=
  (confirm question Resolution.answers s).1 = .ok 'y'

theorem resolve_eq_ok {tree tree' : Tree} {id : Nat} {command : Entry}
    (hid : tree.command? = some id) (hentry : tree.entry? id = some command)
    (h : (resolve resolver confirm tree s).1 = .ok tree') :
    (Resolution.ofCommand resolver command = .found ∧ tree' = tree) ∨
      ∃ question replacement declined,
        Resolution.ofCommand resolver command = .asks question replacement none declined ∧
        Consents confirm s question ∧ tree' = tree.setText id replacement := by
  cases hresolution : Resolution.ofCommand resolver command with
  | found =>
    rw [resolve_of_found hid hentry hresolution] at h
    exact .inl ⟨rfl, (Except.ok.inj h).symm⟩
  | refused failure =>
    rw [resolve_of_refused hid hentry hresolution] at h
    contradiction
  | asks question replacement obstacle declined =>
    rw [resolve_of_asks hid hentry hresolution] at h
    obtain ⟨hyes, rfl, htree⟩ := Resolution.afterAnswer_eq_ok h
    exact .inr ⟨question, replacement, declined, rfl, hyes, htree⟩

theorem isAbout_of_resolve_eq_error {tree : Tree} {id : Nat} {command : Entry} {failure : Failure}
    (hid : tree.command? = some id) (hentry : tree.entry? id = some command)
    (h : (resolve resolver confirm tree s).1 = .error failure) : failure.IsAbout command := by
  have habout := Resolution.isAbout_ofCommand resolver command
  cases hresolution : Resolution.ofCommand resolver command with
  | found =>
    rw [resolve_of_found hid hentry hresolution] at h
    contradiction
  | refused refusal =>
    rw [resolve_of_refused hid hentry hresolution] at h
    rw [hresolution, Except.error.inj h] at habout
    exact habout
  | asks question replacement obstacle declined =>
    rw [resolve_of_asks hid hentry hresolution] at h
    rw [hresolution] at habout
    rcases Resolution.afterAnswer_eq_error h with hobstacle | rfl
    · exact habout.1 failure hobstacle
    · exact habout.2

theorem exists_represents_of_resolve {tokens : List Token} {tree : Tree} {typed : Text}
    {source : Location} (h : .command typed source ∈ clauses tokens)
    (hok : (resolve resolver confirm (parse tokens) s).1 = .ok tree) :
    ∃ before after text corrected, tree.Represents (before ++ .command text source :: after) ∧
      (∀ clause ∈ before, clause.kind ≠ .command) ∧
      (∀ clause ∈ after, clause.kind ≠ .command) ∧
      ((Resolution.ofCommand resolver ⟨.command, typed, source, corrected⟩ = .found ∧
          text = typed) ∨
        ∃ question declined,
          Resolution.ofCommand resolver ⟨.command, typed, source, corrected⟩ =
            .asks question text none declined ∧
          Consents confirm s question) := by
  obtain ⟨before, after, hrepresents, hbefore, hafter⟩ := Tree.exists_represents_of_command_mem h
  obtain ⟨id, corrected, hid, hentry, hset⟩ := hrepresents.exists_command hbefore
  rcases resolve_eq_ok hid hentry hok with
    ⟨hfound, rfl⟩ | ⟨question, replacement, declined, hasks, hyes, rfl⟩
  · exact ⟨before, after, typed, corrected, hrepresents, hbefore, hafter, .inl ⟨hfound, rfl⟩⟩
  · exact ⟨before, after, replacement, corrected, hset replacement, hbefore, hafter,
      .inr ⟨question, declined, hasks, hyes⟩⟩

end consent

end Preflight
