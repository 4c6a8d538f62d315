import Preflight.Proofs.Plan
import Preflight.Proofs.Resolution.Consent
import Preflight.Proofs.Syntax.Shape

/-!
This module contains that a plan has everything that a statement says about the program to launch,
once and in order, and nothing else: also if the command has been replaced by the search for the
program.
-/

namespace Preflight

namespace Tree

inductive IsSearched : Tree → Prop where
  | parsed (tokens : List Token) : IsSearched (parse tokens)
  | searched {σ : Type} {tree : Tree} (h : IsSearched tree) (resolver : Resolver)
    (confirm : Text → List Char → StateM σ (Except ReadError Char)) (s : σ) :
    IsSearched ((resolveInPlace resolver confirm).run tree s).1.2

end Tree

namespace Plan

def IsArgument (tree : Tree) (id : Nat) (argument : Text) : Prop :=
  ∃ entry, tree.entry? id = some entry ∧ argument = Word.unescape entry.text

def IsVariable (tree : Tree) (id : Nat) (assigned : Text × Text) : Prop :=
  ∃ entry written, tree.entry? id = some entry ∧ entry.text = assigned.1 ++ '=' :: written ∧
    Word.isVariableName assigned.1 = true ∧ tree.keyValue? id = some (assigned.1, written) ∧
    assigned.2 = Word.unescape written

/--
The plan launches the command. It has an argument for every option of the tree and a variable for
every assignment, in order, and no others.
-/
structure IsFaithful (plan : Plan) (tree : Tree) (index : ProgramIndex) (command : Entry) :
    Prop where
  path : if Word.isLocal command.text then plan.path = Path.ofText (Word.unescape command.text)
    else index.get? (Word.unescape command.text) = some plan.path
  arguments : ∃ options, plan.arguments = Word.unescape command.text :: options ∧
    List.Forall₂ (IsArgument tree) (tree.topLevel .option) options
  assignments : List.Forall₂ (IsVariable tree) (tree.topLevel .assignment) plan.assignments
  length_arguments : plan.arguments.length = tree.count .option + 1
  length_assignments : plan.assignments.length = tree.count .assignment

end Plan

namespace Tree

structure Holds (tree : Tree) (clauses : List Clause) : Prop where
  represents : tree.Represents clauses
  isPreorder : tree.IsPreorder
  isProper : ∀ clause ∈ clauses, clause.IsProper
  command : (∀ clause ∈ clauses, clause.kind ≠ .command) ∨
    ∃ before text source after, clauses = before ++ .command text source :: after ∧
      (∀ clause ∈ before, clause.kind ≠ .command) ∧ ∀ clause ∈ after, clause.kind ≠ .command

theorem holds_parse (tokens : List Token) : (parse tokens).Holds (clauses tokens) where
  represents := represents_parse tokens
  isPreorder := isPreorder_parse tokens
  isProper := fun _ hclause =>
    Parser.isProper_of_mem_clausesFrom (clauses_eq_clausesFrom tokens ▸ hclause)
  command := by
    by_cases hmem : ∃ text source, .command text source ∈ clauses tokens
    · obtain ⟨text, source, hmem⟩ := hmem
      obtain ⟨before, after, heq, hbefore, hafter⟩ :=
        Parser.exists_eq_append_of_command_mem rfl hmem
      refine .inr ⟨before, text, source, after, heq, fun clause hclause => ?_,
        fun clause hclause => ?_⟩
      · simp [hbefore clause hclause]
      · simp [hafter clause hclause]
    · refine .inl fun clause hclause hkind => hmem ?_
      cases clause with
      | command text source => exact ⟨text, source, hclause⟩
      | assignment text source name value => contradiction
      | argument text source split => contradiction

namespace Holds

variable {tree : Tree} {clauses : List Clause}

theorem setText (h : tree.Holds clauses) {id : Nat} (hid : tree.command? = some id) (text : Text) :
    ∃ clauses, (tree.setText id text).Holds clauses := by
  obtain hnone | ⟨before, typed, source, after, rfl, hbefore, hafter⟩ := h.command
  · rw [h.represents.command?_eq_none hnone] at hid
    contradiction
  · obtain ⟨other, _, hother, _, hset⟩ := h.represents.exists_command hbefore
    rw [hid, Option.some.injEq] at hother
    subst hother
    refine ⟨_, hset text, ?_, ?_, .inr ⟨before, text, source, after, rfl, hbefore, hafter⟩⟩
    · have hpreorder := h.isPreorder
      unfold IsPreorder at hpreorder ⊢
      simpa only [children_setText, size_setText] using hpreorder
    · intro clause hclause
      rcases List.mem_append.1 hclause with hclause | hclause
      · exact h.isProper clause (List.mem_append_left _ hclause)
      · rcases List.mem_cons.1 hclause with rfl | hclause
        · trivial
        · exact h.isProper clause (List.mem_append_right _ (List.mem_cons_of_mem _ hclause))

theorem resolveInPlace (h : tree.Holds clauses) {σ : Type} (resolver : Resolver)
    (confirm : Text → List Char → StateM σ (Except ReadError Char)) (s : σ) :
    ∃ clauses, ((resolveInPlace resolver confirm).run tree s).1.2.Holds clauses := by
  rw [run_resolveInPlace]
  change ∃ clauses, (tree.keep (resolve resolver confirm tree s).1).2.Holds clauses
  cases hresult : (resolve resolver confirm tree s).1 with
  | error failure => exact ⟨clauses, h⟩
  | ok after =>
    rw [keep_ok]
    cases hid : tree.command? with
    | none =>
      rw [resolve_of_no_command hid] at hresult
      rw [← Except.ok.inj hresult]
      exact ⟨clauses, h⟩
    | some id =>
      obtain ⟨command, hcommand⟩ := exists_hasCommand hid
      rcases resolve_eq_ok hid hcommand.entry hresult with
        ⟨_, rfl⟩ | ⟨_, replacement, _, _, _, rfl⟩
      · exact ⟨clauses, h⟩
      · exact h.setText hid replacement

end Holds

section topLevel

variable {tree : Tree} {clauses : List Clause}

theorem forall₂_topLevel {α : Type} (h : tree.Represents clauses) {kind : Node.Kind}
    {add : Clause → Option α} {r : Nat → α → Prop}
    (hother : ∀ clause, clause.kind ≠ kind → add clause = none)
    (hkind : ∀ id, ∀ clause ∈ clauses, tree.Shows id clause → clause.kind = kind →
      ∃ a, add clause = some a ∧ r id a) :
    List.Forall₂ r (tree.topLevel kind) (clauses.filterMap add) := by
  have hchildren := h.children
  unfold topLevel
  generalize tree.children root = ids at hchildren
  clear h
  induction hchildren with
  | nil => exact .nil
  | @cons id clause ids clauses hshows _ ih =>
    obtain ⟨entry, hentry, heq⟩ := hshows.entry?
    have hrest := ih fun id other hmem => hkind id other (List.mem_cons_of_mem clause hmem)
    by_cases hclause : clause.kind = kind
    · obtain ⟨a, ha, hr⟩ := hkind id clause List.mem_cons_self hshows hclause
      rw [List.filter_cons_of_pos (by simp [hentry, heq, hclause]), List.filterMap_cons, ha]
      exact .cons hr hrest
    · rw [List.filter_cons_of_neg (by simp [hentry, heq, hclause]), List.filterMap_cons,
        hother clause hclause]
      exact hrest

theorem filter_flatMap_children {ids : List Nat} {p : Nat → Bool}
    (h : ∀ id ∈ ids, ∀ child ∈ tree.children id, p child = false) :
    (ids.flatMap fun id => id :: tree.children id).filter p = ids.filter p := by
  induction ids with
  | nil => rfl
  | cons id ids ih =>
    have hleaves : (tree.children id).filter p = [] := by
      rw [List.filter_eq_nil_iff]
      intro child hchild
      simp [h id List.mem_cons_self child hchild]
    have hrest := ih fun other hother => h other (List.mem_cons_of_mem id hother)
    rw [List.flatMap_cons, List.filter_append, hrest, List.filter_cons, List.filter_cons, hleaves]
    split <;> rfl

theorem filter_range_eq_topLevel (h : tree.Represents clauses) (hpreorder : tree.IsPreorder)
    {kind : Node.Kind} (hinner : kind.isInner = true) (hne : kind ≠ .statement) :
    (List.range tree.size).filter (fun id => (tree.entry? id).any (·.kind = kind)) =
      tree.topLevel kind := by
  obtain ⟨entry, hentry, hstatement⟩ := h.statement
  have hroot : (tree.entry? root).any (·.kind = kind) = false := by
    simp [hentry, hstatement, Ne.symm hne]
  rw [← hpreorder, List.filter_cons_of_neg (by simp [hroot])]
  apply filter_flatMap_children
  intro id hid child hchild
  obtain ⟨clause, _, hshows⟩ := exists_mem_of_forall₂ h.children hid
  obtain ⟨entry, hentry, hhalf⟩ := hshows.isInner_eq_false_of_mem_children hchild
  rw [hentry, Option.any_some, decide_eq_false_iff_not]
  rintro rfl
  rw [hinner] at hhalf
  contradiction

theorem countP_eq_length_filter_range {α : Type} (p : α → Bool) (l : List α) :
    l.countP p = ((List.range l.length).filter fun i => l[i]?.any p).length := by
  induction l using List.reverseRecOn with
  | nil => rfl
  | append_singleton l a ih =>
    have hold : (List.range l.length).filter (fun i => (l ++ [a])[i]?.any p) =
        (List.range l.length).filter fun i => l[i]?.any p := by
      apply List.filter_congr
      intro i hi
      rw [List.getElem?_append_left (List.mem_range.1 hi)]
    rw [List.countP_append, ih, List.length_append, List.length_singleton, List.range_succ]
    rw [List.filter_append, hold, List.length_append, List.countP_singleton]
    cases h : p a <;> simp [h]

theorem count_eq_length_topLevel (h : tree.Represents clauses) (hpreorder : tree.IsPreorder)
    {kind : Node.Kind} (hinner : kind.isInner = true) (hne : kind ≠ .statement) :
    tree.count kind = (tree.topLevel kind).length := by
  rw [← filter_range_eq_topLevel h hpreorder hinner hne]
  unfold count size
  rw [countP_eq_length_filter_range]
  congr 2
  funext id
  unfold entry? node?
  cases tree.nodes[id]? <;> rfl

end topLevel

theorem IsSearched.exists_holds {tree : Tree} (h : tree.IsSearched) :
    ∃ clauses, tree.Holds clauses := by
  induction h with
  | parsed tokens => exact ⟨_, holds_parse tokens⟩
  | searched _ resolver confirm s ih =>
    obtain ⟨clauses, hclauses⟩ := ih
    exact hclauses.resolveInPlace resolver confirm s

end Tree

namespace Plan

section

variable {tree : Tree} {clauses : List Clause}

theorem forall₂_isArgument (h : tree.Represents clauses) :
    List.Forall₂ (IsArgument tree) (tree.topLevel .option)
      (clauses.filterMap Clause.argument?) := by
  apply Tree.forall₂_topLevel h
  · intro clause hclause
    cases clause with
    | argument text source split => exact absurd rfl hclause
    | assignment text source name value => rfl
    | command text source => rfl
  · intro id clause _ hshows hclause
    cases clause with
    | assignment text source name value => contradiction
    | command text source => contradiction
    | argument text source split =>
      obtain ⟨corrected, hentry⟩ := hshows.exists_entry
      exact ⟨_, rfl, _, hentry, rfl⟩

theorem forall₂_isVariable (h : tree.Represents clauses)
    (hproper : ∀ clause ∈ clauses, clause.IsProper) :
    List.Forall₂ (IsVariable tree) (tree.topLevel .assignment)
      (clauses.filterMap Clause.assignment?) := by
  apply Tree.forall₂_topLevel h
  · intro clause hclause
    cases clause with
    | assignment text source name value => exact absurd rfl hclause
    | argument text source split => rfl
    | command text source => rfl
  · intro id clause hmem hshows hclause
    cases clause with
    | argument text source split => contradiction
    | command text source => contradiction
    | assignment text source name value =>
      obtain ⟨hname, htext⟩ := hproper _ hmem
      exact ⟨_, rfl, _, value, hshows.1, htext.symm, hname, hshows.2.keyValue?, rfl⟩

theorem filterMap_eq_of_eq_none {α : Type} {add : Clause → Option α} {command : Clause}
    (h : add command = none) (before after : List Clause) :
    (before ++ after).filterMap add = (before ++ command :: after).filterMap add := by
  rw [List.filterMap_append, List.filterMap_append, List.filterMap_cons_none h]

theorem isFaithful_of_holds {before after : List Clause} (command : Entry) {index : ProgramIndex}
    {path : Path} (h : tree.Holds (before ++ .command command.text command.source :: after))
    (hpath : if Word.isLocal command.text then path = Path.ofText (Word.unescape command.text)
      else index.get? (Word.unescape command.text) = some path) :
    IsFaithful
      ⟨path, Word.unescape command.text :: (before ++ after).filterMap Clause.argument?,
        (before ++ after).filterMap Clause.assignment?⟩ tree index command := by
  have harguments := forall₂_isArgument h.represents
  have hassignments := forall₂_isVariable h.represents h.isProper
  rw [← filterMap_eq_of_eq_none rfl] at harguments hassignments
  constructor
  case path => exact hpath
  case arguments => exact ⟨_, rfl, harguments⟩
  case assignments => exact hassignments
  case length_arguments =>
    rw [Tree.count_eq_length_topLevel h.represents h.isPreorder rfl (by decide),
      harguments.length_eq, List.length_cons]
  case length_assignments =>
    rw [Tree.count_eq_length_topLevel h.represents h.isPreorder rfl (by decide),
      hassignments.length_eq]

theorem ofTree_of_no_command (h : tree.Holds clauses) (hid : tree.command? = none)
    (index : ProgramIndex) : ofTree tree index = .error ⟨.noCommand, .start, 1⟩ := by
  obtain hnone | ⟨before, text, source, after, rfl, hbefore, _⟩ := h.command
  · unfold ofTree
    rw [Parts.ofTree_of_represents h.represents, Parts.foldl_addClause hnone]
  · obtain ⟨id, _, hsome, _⟩ := h.represents.exists_command hbefore
    rw [hid] at hsome
    contradiction

theorem ofTree_cases (h : tree.Holds clauses) {id : Nat} {command : Entry}
    (hid : tree.command? = some id) (hentry : tree.entry? id = some command)
    (index : ProgramIndex) :
    (Word.isLocal command.text = false ∧ index.get? (Word.unescape command.text) = none ∧
        ofTree tree index =
          .error ⟨.unknownCommand command.text, command.source, command.text.length⟩) ∨
      ∃ plan, ofTree tree index = .ok plan ∧ plan.IsFaithful tree index command := by
  obtain hnone | ⟨before, text, source, after, rfl, hbefore, hafter⟩ := h.command
  · rw [h.represents.command?_eq_none hnone] at hid
    contradiction
  · obtain ⟨other, corrected, hother, hentry', _⟩ := h.represents.exists_command hbefore
    rw [hid, Option.some.injEq] at hother
    rw [← hother, hentry, Option.some.injEq] at hentry'
    subst hentry'
    dsimp only
    cases hlocal : Word.isLocal text with
    | true =>
      exact .inr ⟨_, ofTree_of_isLocal h.represents hbefore hafter hlocal index,
        isFaithful_of_holds ⟨.command, text, source, corrected⟩ h (by rw [if_pos hlocal])⟩
    | false =>
      have hplan := ofTree_of_not_isLocal h.represents hbefore hafter hlocal index
      cases hpath : index.get? (Word.unescape text) with
      | none =>
        rw [hpath] at hplan
        exact .inl ⟨rfl, rfl, hplan⟩
      | some path =>
        rw [hpath] at hplan
        exact .inr ⟨_, hplan,
          isFaithful_of_holds ⟨.command, text, source, corrected⟩ h (by simp [hlocal, hpath])⟩

theorem ofTree_eq_error_iff (h : tree.Holds clauses) {index : ProgramIndex} {failure : Failure} :
    ofTree tree index = .error failure ↔
      (tree.command? = none ∧ failure = ⟨.noCommand, .start, 1⟩) ∨
        ∃ id command, tree.command? = some id ∧ tree.entry? id = some command ∧
          Word.isLocal command.text = false ∧ index.get? (Word.unescape command.text) = none ∧
          failure = ⟨.unknownCommand command.text, command.source, command.text.length⟩ := by
  constructor
  · intro hfailure
    cases hid : tree.command? with
    | none =>
      rw [ofTree_of_no_command h hid, Except.error.injEq] at hfailure
      exact .inl ⟨rfl, hfailure.symm⟩
    | some id =>
      obtain ⟨command, hcommand⟩ := Tree.exists_hasCommand hid
      rcases ofTree_cases h hid hcommand.entry index with
        ⟨hlocal, hunknown, herror⟩ | ⟨plan, hok, -⟩
      · rw [herror, Except.error.injEq] at hfailure
        exact .inr ⟨id, command, rfl, hcommand.entry, hlocal, hunknown, hfailure.symm⟩
      · rw [hok] at hfailure
        contradiction
  · rintro (⟨hnone, rfl⟩ | ⟨id, command, hid, hentry, hlocal, hunknown, rfl⟩)
    · exact ofTree_of_no_command h hnone index
    · rcases ofTree_cases h hid hentry index with ⟨_, _, herror⟩ | ⟨plan, _, hfaithful⟩
      · exact herror
      · have hpath := hfaithful.path
        rw [hlocal, hunknown] at hpath
        contradiction

theorem exists_isFaithful_of_ofTree (h : tree.Holds clauses) {index : ProgramIndex} {plan : Plan}
    (hplan : ofTree tree index = .ok plan) :
    ∃ id command, tree.command? = some id ∧ tree.entry? id = some command ∧
      plan.IsFaithful tree index command := by
  cases hid : tree.command? with
  | none =>
    rw [ofTree_of_no_command h hid] at hplan
    contradiction
  | some id =>
    obtain ⟨command, hcommand⟩ := Tree.exists_hasCommand hid
    refine ⟨id, command, rfl, hcommand.entry, ?_⟩
    rcases ofTree_cases h hid hcommand.entry index with ⟨_, _, herror⟩ | ⟨other, hok, hfaithful⟩
    · rw [hplan] at herror
      contradiction
    · rw [hplan] at hok
      rwa [Except.ok.inj hok]

end

theorem isFaithful_ofTree {tree : Tree} (h : tree.IsSearched) (index : ProgramIndex) :
    ((∃ failure, ofTree tree index = .error failure) ↔
      tree.count .command = 0 ∨
        ∃ id command, tree.command? = some id ∧ tree.entry? id = some command ∧
          Word.isLocal command.text = false ∧
          index.get? (Word.unescape command.text) = none) ∧
    ∀ plan, ofTree tree index = .ok plan →
      ∃ id command, tree.command? = some id ∧ tree.entry? id = some command ∧
        plan.IsFaithful tree index command := by
  obtain ⟨clauses, hclauses⟩ := h.exists_holds
  have hcount : tree.count .command = 0 ↔ tree.command? = none := by
    rw [Tree.count_eq_length_topLevel hclauses.represents hclauses.isPreorder rfl (by decide),
      List.length_eq_zero_iff, Tree.topLevel_eq_nil_iff]
  rw [hcount]
  refine ⟨⟨?_, ?_⟩, fun plan => exists_isFaithful_of_ofTree hclauses⟩
  · rintro ⟨failure, herror⟩
    rcases (ofTree_eq_error_iff hclauses).1 herror with
      ⟨hnone, -⟩ | ⟨id, command, hid, hentry, hlocal, hunknown, -⟩
    · exact .inl hnone
    · exact .inr ⟨id, command, hid, hentry, hlocal, hunknown⟩
  · rintro (hnone | ⟨id, command, hid, hentry, hlocal, hunknown⟩)
    · exact ⟨_, (ofTree_eq_error_iff hclauses).2 (.inl ⟨hnone, rfl⟩)⟩
    · exact ⟨_, (ofTree_eq_error_iff hclauses).2
        (.inr ⟨id, command, hid, hentry, hlocal, hunknown, rfl⟩)⟩

def assignedTwice : List Token :=
  [⟨.word, ['A', '=', '1'], ⟨0, 0⟩⟩, ⟨.word, ['A', '=', '\\', '2'], ⟨0, 4⟩⟩,
    ⟨.word, ['a', 'c', 'b'], ⟨0, 9⟩⟩, ⟨.word, ['-', 'k', '=', '\\', 'v'], ⟨0, 13⟩⟩,
    ⟨.quote, ['\''], ⟨0, 19⟩⟩, ⟨.word, ['x', ' ', 'y'], ⟨0, 20⟩⟩, ⟨.quote, ['\''], ⟨0, 23⟩⟩]

theorem isFaithful_ofTree_assignedTwice :
    ∃ (tree : Tree) (index : ProgramIndex) (plan : Plan), tree.IsSearched ∧
      tree ≠ parse assignedTwice ∧ ofTree tree index = .ok plan ∧
      plan.arguments = [['a', 'b'], ['-', 'k', '=', 'v'], ['x', ' ', 'y']] ∧
      plan.assignments = [(['A'], ['1']), (['A'], ['2'])] ∧
      ∃ id command, tree.command? = some id ∧ tree.entry? id = some command ∧
        plan.IsFaithful tree index command := by
  have hsearched := Tree.IsSearched.searched (.parsed assignedTwice)
    ⟨⟨[(['a', 'b'], [0x2F, 0x78])]⟩, [0x2F], 2, .empty⟩
    (fun _ _ => (pure (.ok 'y') : StateM Unit _)) ()
  exact ⟨_, ⟨[(['a', 'b'], [0x2F, 0x78])]⟩, _, hsearched, by decide, rfl, rfl, rfl,
    (isFaithful_ofTree hsearched _).2 _ rfl⟩

end Plan

end Preflight
