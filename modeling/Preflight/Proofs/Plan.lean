import Preflight.Plan
import Preflight.Proofs.Syntax.Statement

/-!
This module contains the plan of a statement in terms of its parts.
-/

namespace Preflight

namespace Clause

def argument? : Clause → Option Text
  | argument text _ _ => some (Word.unescape text)
  | _ => none

def assignment? : Clause → Option (Text × Text)
  | assignment _ _ name value => some (name, Word.unescape value)
  | _ => none

@[simp]
theorem argument?_argument (text : Text) (source : Location) (split : Option (Text × Text)) :
    (argument text source split).argument? = some (Word.unescape text) := rfl

@[simp]
theorem assignment?_assignment (text : Text) (source : Location) (name value : Text) :
    (assignment text source name value).assignment? = some (name, Word.unescape value) := rfl

theorem filterMap_argument?_eq_nil {clauses : List Clause}
    (h : ∀ clause ∈ clauses, clause.kind = .assignment) : clauses.filterMap argument? = [] := by
  rw [List.filterMap_eq_nil_iff]
  intro clause hclause
  have := h clause hclause
  cases clause with
  | argument text source split => contradiction
  | assignment text source name value => rfl
  | command text source => rfl

theorem filterMap_assignment?_eq_nil {clauses : List Clause}
    (h : ∀ clause ∈ clauses, clause.kind = .option) : clauses.filterMap assignment? = [] := by
  rw [List.filterMap_eq_nil_iff]
  intro clause hclause
  have := h clause hclause
  cases clause with
  | assignment text source name value => contradiction
  | argument text source split => rfl
  | command text source => rfl

end Clause

namespace Plan

namespace Parts

def addClause (parts : Parts) : Clause → Parts
  | .command text source => { parts with command := some (text, source) }
  | .argument text _ _ => { parts with arguments := parts.arguments ++ [Word.unescape text] }
  | .assignment _ _ name value =>
    { parts with assignments := parts.assignments ++ [(name, Word.unescape value)] }

theorem add_of_shows {tree : Tree} {id : Nat} {clause : Clause} (h : tree.Shows id clause)
    (parts : Parts) : parts.add tree id = parts.addClause clause := by
  unfold add
  cases clause with
  | assignment text source name value =>
    rw [h.1]
    simp only [h.2.keyValue?]
    rfl
  | command text source =>
    obtain ⟨⟨corrected, hentry⟩, _⟩ := h
    rw [hentry]
    rfl
  | argument text source split =>
    cases split with
    | none =>
      rw [h.1]
      rfl
    | some halves =>
      rw [h.1]
      rfl

theorem foldl_add_of_forall₂ {tree : Tree} {ids : List Nat} {clauses : List Clause}
    (h : List.Forall₂ tree.Shows ids clauses) (parts : Parts) :
    ids.foldl (add tree) parts = clauses.foldl addClause parts := by
  induction h generalizing parts with
  | nil => rfl
  | cons hshows _ ih =>
    rw [List.foldl_cons, List.foldl_cons, add_of_shows hshows, ih]

theorem ofTree_of_represents {tree : Tree} {clauses : List Clause}
    (h : tree.Represents clauses) : ofTree tree = clauses.foldl addClause ⟨none, [], []⟩ := by
  have hroot : add tree ⟨none, [], []⟩ Tree.root = ⟨none, [], []⟩ := by
    obtain ⟨entry, hentry, hstatement⟩ := h.statement
    obtain ⟨kind, text, source, corrected⟩ := entry
    dsimp only at hstatement
    subst hstatement
    unfold add
    rw [hentry]
  unfold ofTree
  rw [h.visit_root, List.foldl_cons, hroot]
  exact foldl_add_of_forall₂ h.children _

theorem foldl_addClause {clauses : List Clause} (h : ∀ clause ∈ clauses, clause.kind ≠ .command)
    (parts : Parts) :
    clauses.foldl addClause parts =
      ⟨parts.command, parts.arguments ++ clauses.filterMap Clause.argument?,
        parts.assignments ++ clauses.filterMap Clause.assignment?⟩ := by
  induction clauses generalizing parts with
  | nil => simp
  | cons clause clauses ih =>
    rw [List.foldl_cons, ih fun c hc => h c (List.mem_cons_of_mem clause hc)]
    cases clause with
    | assignment text source name value =>
      simp [addClause, List.filterMap_cons, Clause.argument?, Clause.assignment?]
    | command text source =>
      have := h (.command text source) List.mem_cons_self
      contradiction
    | argument text source split =>
      simp [addClause, List.filterMap_cons, Clause.argument?, Clause.assignment?]

end Parts

section ofTree

variable {tree : Tree} {before after : List Clause} {text : Text} {source : Location}

theorem partsOfTree_eq (h : tree.Represents (before ++ .command text source :: after))
    (hbefore : ∀ clause ∈ before, clause.kind ≠ .command)
    (hafter : ∀ clause ∈ after, clause.kind ≠ .command) :
    Parts.ofTree tree =
      ⟨some (text, source), (before ++ after).filterMap Clause.argument?,
        (before ++ after).filterMap Clause.assignment?⟩ := by
  rw [Parts.ofTree_of_represents h, List.foldl_append, List.foldl_cons]
  rw [Parts.foldl_addClause hbefore, Parts.foldl_addClause hafter]
  simp [Parts.addClause]

theorem ofTree_of_isLocal (h : tree.Represents (before ++ .command text source :: after))
    (hbefore : ∀ clause ∈ before, clause.kind ≠ .command)
    (hafter : ∀ clause ∈ after, clause.kind ≠ .command) (hlocal : Word.isLocal text = true)
    (index : ProgramIndex) :
    ofTree tree index =
      .ok ⟨Path.ofText (Word.unescape text),
        Word.unescape text :: (before ++ after).filterMap Clause.argument?,
        (before ++ after).filterMap Clause.assignment?⟩ := by
  unfold ofTree
  rw [partsOfTree_eq h hbefore hafter]
  simp only [hlocal, if_true]

theorem ofTree_of_not_isLocal (h : tree.Represents (before ++ .command text source :: after))
    (hbefore : ∀ clause ∈ before, clause.kind ≠ .command)
    (hafter : ∀ clause ∈ after, clause.kind ≠ .command) (hlocal : Word.isLocal text = false)
    (index : ProgramIndex) :
    ofTree tree index =
      match index.get? (Word.unescape text) with
      | some path =>
        .ok ⟨path, Word.unescape text :: (before ++ after).filterMap Clause.argument?,
          (before ++ after).filterMap Clause.assignment?⟩
      | none => .error ⟨.unknownCommand text, source, text.length⟩ := by
  unfold ofTree
  rw [partsOfTree_eq h hbefore hafter]
  cases hpath : index.get? (Word.unescape text) <;> simp [hlocal, hpath]

theorem exists_ofTree_iff (h : tree.Represents (before ++ .command text source :: after))
    (hbefore : ∀ clause ∈ before, clause.kind ≠ .command)
    (hafter : ∀ clause ∈ after, clause.kind ≠ .command) (hlocal : Word.isLocal text = false)
    {index : ProgramIndex} {name : Text} {path : Path} (hpath : index.get? name = some path) :
    (∃ plan, ofTree tree index = .ok plan ∧ plan.path = path ∧ plan.arguments.head? = some name) ↔
      Word.unescape text = name := by
  rw [ofTree_of_not_isLocal h hbefore hafter hlocal]
  constructor
  · rintro ⟨plan, hplan, -, hname⟩
    split at hplan
    · rw [Except.ok.injEq] at hplan
      subst hplan
      exact Option.some.inj hname
    · contradiction
  · rintro rfl
    rw [hpath]
    exact ⟨_, rfl, rfl, rfl⟩

end ofTree

end Plan

end Preflight
