import Preflight.Proofs.Syntax.Statement

/-!
This module contains which parts a statement has, and in which order.
-/

namespace Preflight

namespace Parser

def clausesFrom (state : State) (tokens : List Token) : List Clause :=
  (verdicts state tokens).filterMap fun
    | (_, .clause clause) => some clause
    | _ => none

def Verdict.clause? : Verdict → Option Clause
  | clause c => some c
  | _ => none

@[simp]
theorem clausesFrom_nil (state : State) : clausesFrom state [] = [] := rfl

theorem clausesFrom_cons (state : State) (token : Token) (tokens : List Token) :
    clausesFrom state (token :: tokens) =
      (step state token).2.clause?.toList ++ clausesFrom (step state token).1 tokens := by
  unfold clausesFrom
  rw [verdicts, List.filterMap_cons]
  cases (step state token).2 <;> rfl

section step

variable {token : Token} {quoting : Quoting} {clause : Clause}

theorem kind_of_assignment? (h : assignment? token = some clause) : clause.kind = .assignment := by
  unfold assignment? at h
  split at h
  · split at h
    · split at h
      · rw [← Option.some.inj h]
        rfl
      · contradiction
    · contradiction
  · contradiction

theorem kind_of_command? (h : command? token = some clause) : clause.kind = .command := by
  unfold command? at h
  split at h
  · rw [← Option.some.inj h]
    rfl
  · contradiction

theorem kind_of_argument? (h : argument? token = some clause) : clause.kind = .option := by
  unfold argument? at h
  split at h
  · rw [← Option.some.inj h]
    rfl
  · contradiction

theorem foundCommand_afterCommand (quoting : Quoting) (token : Token) :
    (afterCommand quoting token).1.foundCommand = true := by
  unfold afterCommand
  split <;> rfl

theorem cases_of_afterCommand (h : (afterCommand quoting token).2.clause? = some clause) :
    clause = .argument token.text token.source none ∨ argument? token = some clause := by
  unfold afterCommand at h
  split at h
  · contradiction
  · exact .inl (Option.some.inj h).symm
  · contradiction
  · contradiction
  · cases hargument : argument? token with
    | none =>
      rw [hargument] at h
      contradiction
    | some c =>
      rw [hargument] at h
      exact .inr h

theorem cases_of_beforeCommand (h : (beforeCommand quoting token).2.clause? = some clause) :
    ((beforeCommand quoting token).1.foundCommand = false ∧ assignment? token = some clause) ∨
      ((beforeCommand quoting token).1.foundCommand = true ∧ command? token = some clause) := by
  unfold beforeCommand at h ⊢
  cases hassignment : assignment? token with
  | some c =>
    simp only [hassignment, Verdict.clause?] at h ⊢
    exact .inl ⟨trivial, h⟩
  | none =>
    cases hcommand : command? token with
    | some c =>
      simp only [hassignment, hcommand, Verdict.clause?] at h ⊢
      exact .inr ⟨trivial, h⟩
    | none =>
      simp only [hassignment, hcommand, Verdict.clause?] at h
      contradiction

theorem cases_of_step {state : State} (h : (step state token).2.clause? = some clause) :
    assignment? token = some clause ∨ command? token = some clause ∨
      clause = .argument token.text token.source none ∨ argument? token = some clause := by
  unfold step at h
  split at h
  · exact .inr (.inr (cases_of_afterCommand h))
  · rcases cases_of_beforeCommand h with ⟨_, h⟩ | ⟨_, h⟩
    · exact .inl h
    · exact .inr (.inl h)

theorem kind_of_afterCommand (h : (afterCommand quoting token).2.clause? = some clause) :
    clause.kind = .option := by
  rcases cases_of_afterCommand h with rfl | h
  · rfl
  · exact kind_of_argument? h

theorem kind_of_beforeCommand (h : (beforeCommand quoting token).2.clause? = some clause) :
    ((beforeCommand quoting token).1.foundCommand = false ∧ clause.kind = .assignment) ∨
      ((beforeCommand quoting token).1.foundCommand = true ∧ clause.kind = .command) :=
  (cases_of_beforeCommand h).imp (And.imp_right kind_of_assignment?)
    (And.imp_right kind_of_command?)

theorem foundCommand_of_beforeCommand_eq_none
    (h : (beforeCommand quoting token).2.clause? = none) :
    (beforeCommand quoting token).1.foundCommand = false := by
  unfold beforeCommand at h ⊢
  cases hassignment : assignment? token with
  | some c =>
    simp only [hassignment, Verdict.clause?] at h
    contradiction
  | none =>
    cases hcommand : command? token with
    | some c =>
      simp only [hassignment, hcommand, Verdict.clause?] at h
      contradiction
    | none => rfl

end step

theorem kind_of_mem_clausesFrom {state : State} {tokens : List Token} {clause : Clause}
    (hstate : state.foundCommand = true) (h : clause ∈ clausesFrom state tokens) :
    clause.kind = .option := by
  induction tokens generalizing state with
  | nil => simp at h
  | cons token tokens ih =>
    have hstep : step state token = afterCommand state.quoting token := by
      unfold step
      rw [if_pos hstate]
    rw [clausesFrom_cons, List.mem_append, Option.mem_toList, hstep] at h
    rcases h with h | h
    · exact kind_of_afterCommand h
    · exact ih (foundCommand_afterCommand _ _) h

theorem exists_eq_append_of_command_mem {state : State} {tokens : List Token} {text : Text}
    {source : Location} (hstate : state.foundCommand = false)
    (h : .command text source ∈ clausesFrom state tokens) :
    ∃ before after, clausesFrom state tokens = before ++ .command text source :: after ∧
      (∀ clause ∈ before, clause.kind = .assignment) ∧
      ∀ clause ∈ after, clause.kind = .option := by
  induction tokens generalizing state with
  | nil => simp at h
  | cons token tokens ih =>
    have hstep : step state token = beforeCommand state.quoting token := by
      unfold step
      rw [if_neg (by simp [hstate])]
    rw [clausesFrom_cons, hstep] at h ⊢
    cases hverdict : (beforeCommand state.quoting token).2.clause? with
    | none =>
      rw [hverdict] at h
      exact ih (foundCommand_of_beforeCommand_eq_none hverdict) h
    | some clause =>
      rw [hverdict, Option.toList_some, List.singleton_append, List.mem_cons] at h
      rcases kind_of_beforeCommand hverdict with ⟨hopen, hkind⟩ | ⟨hfound, hkind⟩
      · -- The search goes on, so this part is an assignment and the command is still to come.
        have hmem := h.resolve_left (by rintro rfl; contradiction)
        obtain ⟨before, after, heq, hbefore, hafter⟩ := ih hopen hmem
        refine ⟨clause :: before, after, ?_, ?_, hafter⟩
        · rw [heq]
          rfl
        · intro c hc
          rcases List.mem_cons.1 hc with rfl | hc
          · exact hkind
          · exact hbefore c hc
      · have hrest : ∀ c ∈ clausesFrom (beforeCommand state.quoting token).1 tokens,
            c.kind = .option := fun c hc => kind_of_mem_clausesFrom hfound hc
        refine ⟨[], _, ?_, by simp, hrest⟩
        rcases h with rfl | h
        · rfl
        · have := hrest _ h
          contradiction

end Parser

theorem clauses_eq_clausesFrom (tokens : List Token) :
    clauses tokens = Parser.clausesFrom .start tokens := rfl

namespace Tree

variable {tokens : List Token} {text : Text} {source : Location}

theorem exists_represents_of_command_mem (h : .command text source ∈ clauses tokens) :
    ∃ before after, (parse tokens).Represents (before ++ .command text source :: after) ∧
      (∀ clause ∈ before, clause.kind ≠ .command) ∧ ∀ clause ∈ after, clause.kind ≠ .command := by
  rw [clauses_eq_clausesFrom] at h
  obtain ⟨before, after, heq, hbefore, hafter⟩ := Parser.exists_eq_append_of_command_mem rfl h
  refine ⟨before, after, ?_, ?_, ?_⟩
  · rw [← heq, ← clauses_eq_clausesFrom]
    exact represents_parse tokens
  · intro clause hclause
    simp [hbefore clause hclause]
  · intro clause hclause
    simp [hafter clause hclause]

end Tree

end Preflight
