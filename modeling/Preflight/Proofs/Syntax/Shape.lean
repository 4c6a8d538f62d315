import Preflight.Proofs.Syntax.Parser
import Preflight.Proofs.Syntax.Preorder

/-!
This module contains the form of the trees that the parser makes, whatever tokens it is given, also
tokens that no command line has.
-/

namespace Preflight

theorem Word.not_mem_of_splitAssignment_eq_some {t key value : Text}
    (h : splitAssignment t = some (key, value)) : '=' ∉ key := by
  fun_induction splitAssignment t generalizing key with
  | case1 => contradiction
  | case2 cs =>
    obtain ⟨rfl, -⟩ := Prod.mk.inj (Option.some.inj h)
    exact List.not_mem_nil
  | case3 c cs hc ih =>
    obtain ⟨⟨k, v⟩, hkv, heq⟩ := Option.map_eq_some_iff.1 h
    obtain ⟨rfl, rfl⟩ := Prod.mk.inj heq
    rw [List.mem_cons, not_or]
    exact ⟨Ne.symm hc, ih hkv⟩

def Clause.IsProper : Clause → Prop
  | assignment text _ name value =>
    Word.isVariableName name = true ∧ name ++ '=' :: value = text
  | command _ _ => True
  | argument _ _ none => True
  | argument text _ (some (key, value)) => '=' ∉ key ∧ key ++ '=' :: value = text

namespace Parser

section step

variable {state : State} {token : Token} {clause : Clause}

theorem isProper_of_assignment? (h : assignment? token = some clause) : clause.IsProper := by
  unfold assignment? at h
  split at h
  · split at h
    · next hsplit =>
      split at h
      · next hname =>
        rw [← Option.some.inj h]
        exact ⟨hname, (Word.eq_of_splitAssignment_eq_some hsplit).symm⟩
      · contradiction
    · contradiction
  · contradiction

theorem isProper_of_argument? (h : argument? token = some clause) : clause.IsProper := by
  unfold argument? at h
  split at h
  · rw [← Option.some.inj h]
    cases hsplit : Word.splitAssignment token.text with
    | none => trivial
    | some halves =>
      exact ⟨Word.not_mem_of_splitAssignment_eq_some hsplit,
        (Word.eq_of_splitAssignment_eq_some hsplit).symm⟩
  · contradiction

theorem isProper_of_command? (h : command? token = some clause) : clause.IsProper := by
  unfold command? at h
  split at h
  · rw [← Option.some.inj h]
    trivial
  · contradiction

theorem isProper_of_step (h : (step state token).2.clause? = some clause) : clause.IsProper := by
  rcases cases_of_step h with h | h | rfl | h
  · exact isProper_of_assignment? h
  · exact isProper_of_command? h
  · trivial
  · exact isProper_of_argument? h

end step

theorem isProper_of_mem_clausesFrom {state : State} {tokens : List Token} {clause : Clause}
    (h : clause ∈ clausesFrom state tokens) : clause.IsProper := by
  induction tokens generalizing state with
  | nil => simp at h
  | cons token tokens ih =>
    rw [clausesFrom_cons, List.mem_append, Option.mem_toList] at h
    rcases h with h | h
    · exact isProper_of_step h
    · exact ih h

theorem exists_clausesFrom_eq_append {state : State} (hstate : state.foundCommand = false)
    (tokens : List Token) :
    ∃ assignments commands arguments,
      clausesFrom state tokens = assignments ++ commands ++ arguments ∧
      (∀ clause ∈ assignments, clause.kind = .assignment) ∧
      (∀ clause ∈ commands, clause.kind = .command) ∧
      (∀ clause ∈ arguments, clause.kind = .option) ∧
      commands.length ≤ 1 ∧ (commands = [] → arguments = []) := by
  induction tokens generalizing state with
  | nil => exact ⟨[], [], [], rfl, by simp, by simp, by simp, Nat.zero_le 1, fun _ => rfl⟩
  | cons token tokens ih =>
    have hstep : step state token = beforeCommand state.quoting token := by
      unfold step
      rw [if_neg (by simp [hstate])]
    rw [clausesFrom_cons, hstep]
    cases hverdict : (beforeCommand state.quoting token).2.clause? with
    | none => exact ih (foundCommand_of_beforeCommand_eq_none hverdict)
    | some clause =>
      rcases kind_of_beforeCommand hverdict with ⟨hopen, hkind⟩ | ⟨hfound, hkind⟩
      · obtain ⟨assignments, commands, arguments, heq, hassignments, hrest⟩ := ih hopen
        refine ⟨clause :: assignments, commands, arguments, ?_, ?_, hrest⟩
        · rw [heq]
          rfl
        · exact List.forall_mem_cons.2 ⟨hkind, hassignments⟩
      · refine ⟨[], [clause], _, rfl, by simp, List.forall_mem_singleton.2 hkind, ?_,
          Nat.le_refl 1, fun h => absurd h (List.cons_ne_nil _ _)⟩
        exact fun other hother => kind_of_mem_clausesFrom hfound hother

end Parser

namespace Tree

def HasKind (tree : Tree) (id : Nat) (kind : Node.Kind) : Prop :=
  ∃ entry, tree.entry? id = some entry ∧ entry.kind = kind

/--
The root is the only statement and the only node without a parent, every other node is listed just
once by a node that is older. Below the root are assignments, then at most one command, then options
if there is a command. Assignments and some options have two halves below them, which make up their
text, and nothing else has anything below it but the root. A visit sees the nodes by age.
-/
structure IsStatement (tree : Tree) : Prop where
  exists_root : ∃ node, tree.node? root = some node
  statement_iff : ∀ id node, tree.node? id = some node →
    (node.entry.kind = .statement ↔ id = root)
  parent_eq_none_iff : ∀ id node, tree.node? id = some node → (node.parent = none ↔ id = root)
  exists_parent : ∀ id node, tree.node? id = some node → id ≠ root →
    ∃ parent, node.parent = some parent ∧ parent < id ∧ (tree.children parent).count id = 1
  children_root : ∃ assignments commands options,
    tree.children root = assignments ++ commands ++ options ∧
      (∀ id ∈ assignments, tree.HasKind id .assignment) ∧
      (∀ id ∈ commands, tree.HasKind id .command) ∧
      (∀ id ∈ options, tree.HasKind id .option) ∧
      commands.length ≤ 1 ∧ (commands = [] → options = [])
  assignment : ∀ id node, tree.node? id = some node → node.entry.kind = .assignment →
    ∃ name value, tree.HasHalves id node.entry.source .literal name value ∧
      Word.isVariableName name = true ∧ name ++ '=' :: value = node.entry.text
  option : ∀ id node, tree.node? id = some node → node.entry.kind = .option →
    node.children = [] ∨
      ∃ key value, tree.HasHalves id node.entry.source .parameter key value ∧
        '=' ∉ key ∧ key ++ '=' :: value = node.entry.text
  leaf : ∀ id node, tree.node? id = some node →
    node.entry.kind ∉ [.statement, .assignment, .option] → node.children = []
  visit : tree.visit Node.Kind.isInner root = List.range tree.size

inductive NodeForm (tree : Tree) (id : Nat) (node : Node) : Prop where
  | statement (hid : id = root) (hkind : node.entry.kind = .statement)
  | assignment (hid : id ≠ root) (hkind : node.entry.kind = .assignment)
    (halves : ∃ name value, tree.HasHalves id node.entry.source .literal name value ∧
      Word.isVariableName name = true ∧ name ++ '=' :: value = node.entry.text)
  | option (hid : id ≠ root) (hkind : node.entry.kind = .option)
    (halves : node.children = [] ∨
      ∃ key value, tree.HasHalves id node.entry.source .parameter key value ∧
        '=' ∉ key ∧ key ++ '=' :: value = node.entry.text)
  | leaf (hid : id ≠ root)
    (hkind : node.entry.kind ∉ [.statement, .assignment, .option])
    (hleaf : node.children = [])

section node

variable {tree : Tree} {id : Nat} {node : Node} (hnode : tree.node? id = some node)
include hnode

theorem entry?_of_node? : tree.entry? id = some node.entry := by
  unfold entry?
  rw [hnode]
  rfl

theorem children_of_node? : tree.children id = node.children := by
  unfold children
  rw [hnode]

theorem parent?_of_node? : tree.parent? id = node.parent := by
  unfold parent?
  rw [hnode]
  rfl

theorem nodeForm_of_shows (hid : id ≠ root) {clause : Clause} (hshows : tree.Shows id clause)
    (hproper : clause.IsProper) : tree.NodeForm id node := by
  have hentry := entry?_of_node? hnode
  have hchildren := children_of_node? hnode
  cases clause with
  | assignment text source name value =>
    obtain ⟨hassignment, hhalves⟩ := hshows
    rw [hentry, Option.some.injEq] at hassignment
    refine .assignment hid ?_ ⟨name, value, ?_, hproper.1, ?_⟩
    · rw [hassignment]
    · rwa [hassignment]
    · rw [hassignment]
      exact hproper.2
  | command text source =>
    obtain ⟨⟨corrected, hcommand⟩, hleaf⟩ := hshows
    rw [hentry, Option.some.injEq] at hcommand
    exact .leaf hid (by simp [hcommand]) (hchildren ▸ hleaf)
  | argument text source split =>
    cases split with
    | none =>
      obtain ⟨hargument, hleaf⟩ := hshows
      rw [hentry, Option.some.injEq] at hargument
      exact .option hid (by rw [hargument]) (.inl (hchildren ▸ hleaf))
    | some halves =>
      obtain ⟨hargument, hhalves⟩ := hshows
      rw [hentry, Option.some.injEq] at hargument
      refine .option hid ?_ (.inr ⟨halves.1, halves.2, ?_, hproper.1, ?_⟩)
      · rw [hargument]
      · rwa [hargument]
      · rw [hargument]
        exact hproper.2

end node

theorem notMem_of_isInner_eq_false {kind : Node.Kind} (h : kind.isInner = false) :
    kind ∉ [.statement, .assignment, .option] := by
  cases kind <;> simp_all [Node.Kind.isInner]

section form

variable {tree : Tree} {clauses : List Clause} (h : tree.Represents clauses)
  (harena : tree.IsArena) (hpreorder : tree.IsPreorder)
include h harena hpreorder

theorem children_eq_nil_of_mem_children {top id : Nat} (htop : top ∈ tree.children root)
    (hid : id ∈ tree.children top) : tree.children id = [] := by
  rw [List.eq_nil_iff_forall_not_mem]
  intro below hbelow
  have hparent := (harena.mem_children_iff id below).1 hbelow
  obtain ⟨clause, _, hshows⟩ := exists_mem_of_forall₂ h.children htop
  have hne : id ≠ root := Nat.ne_of_gt (Nat.zero_lt_of_lt (harena.lt_of_mem_children hid))
  have hplace : below ∈ List.range tree.size :=
    List.mem_range.2 (harena.lt_size_of_mem_children hbelow)
  rw [← hpreorder, List.mem_cons, List.mem_flatMap] at hplace
  rcases hplace with rfl | ⟨other, hother, hplace⟩
  · exact Nat.not_lt_zero id (harena.lt_of_mem_children hbelow)
  · rcases List.mem_cons.1 hplace with rfl | hplace
    · rw [(harena.mem_children_iff root _).1 hother, Option.some.injEq] at hparent
      exact hne hparent.symm
    · rw [(harena.mem_children_iff other below).1 hplace, Option.some.injEq] at hparent
      have hroot := (harena.mem_children_iff root id).1 (hparent ▸ hother)
      rw [(harena.mem_children_iff top id).1 hid, Option.some.injEq] at hroot
      exact h.ne_root_of_shows hshows hroot

theorem nodeForm_of_represents (hproper : ∀ clause ∈ clauses, clause.IsProper) {id : Nat}
    {node : Node} (hnode : tree.node? id = some node) : tree.NodeForm id node := by
  have hentry := entry?_of_node? hnode
  have hmem : id ∈ List.range tree.size := List.mem_range.2 (lt_size_of_node? hnode)
  rw [← hpreorder, List.mem_cons, List.mem_flatMap] at hmem
  rcases hmem with hid | ⟨top, htop, hid⟩
  · obtain ⟨entry, hroot, hkind⟩ := h.statement
    rw [← hid, hentry, Option.some.injEq] at hroot
    exact .statement hid (by rw [hroot, hkind])
  · obtain ⟨clause, hclause, hshows⟩ := exists_mem_of_forall₂ h.children htop
    rcases List.mem_cons.1 hid with rfl | hid
    · exact nodeForm_of_shows hnode (h.ne_root_of_shows hshows) hshows (hproper clause hclause)
    · obtain ⟨entry, hother, hinner⟩ := hshows.isInner_eq_false_of_mem_children hid
      rw [hentry, Option.some.injEq] at hother
      apply NodeForm.leaf
      · exact Nat.ne_of_gt (Nat.zero_lt_of_lt (harena.lt_of_mem_children hid))
      · rw [hother]
        exact notMem_of_isInner_eq_false hinner
      · rw [← children_of_node? hnode]
        exact children_eq_nil_of_mem_children h harena hpreorder htop hid

end form

theorem hasKind_of_forall₂ {tree : Tree} {ids : List Nat} {clauses : List Clause}
    (h : List.Forall₂ tree.Shows ids clauses) {kind : Node.Kind}
    (hkind : ∀ clause ∈ clauses, clause.kind = kind) : ∀ id ∈ ids, tree.HasKind id kind := by
  intro id hid
  obtain ⟨clause, hclause, hshows⟩ := exists_mem_of_forall₂ h hid
  obtain ⟨entry, hentry, heq⟩ := hshows.entry?
  exact ⟨entry, hentry, heq.trans (hkind clause hclause)⟩

theorem exists_children_root (tokens : List Token) :
    ∃ assignments commands options,
      (parse tokens).children root = assignments ++ commands ++ options ∧
      (∀ id ∈ assignments, (parse tokens).HasKind id .assignment) ∧
      (∀ id ∈ commands, (parse tokens).HasKind id .command) ∧
      (∀ id ∈ options, (parse tokens).HasKind id .option) ∧
      commands.length ≤ 1 ∧ (commands = [] → options = []) := by
  obtain ⟨assignments, commands, arguments, heq, hassignments, hcommands, harguments, hlength,
    hnone⟩ := @Parser.exists_clausesFrom_eq_append .start rfl tokens
  have hchildren := (represents_parse tokens).children
  rw [clauses_eq_clausesFrom, heq] at hchildren
  obtain ⟨front, options, hids, hfront, hoptions⟩ := exists_append_of_forall₂_append hchildren
  obtain ⟨firsts, middle, rfl, hfirsts, hmiddle⟩ := exists_append_of_forall₂_append hfront
  refine ⟨firsts, middle, options, hids, hasKind_of_forall₂ hfirsts hassignments,
    hasKind_of_forall₂ hmiddle hcommands, hasKind_of_forall₂ hoptions harguments, ?_, ?_⟩
  · rwa [hmiddle.length_eq]
  · rintro rfl
    cases hmiddle
    rw [hnone rfl] at hoptions
    cases hoptions
    rfl

theorem isStatement_parse (tokens : List Token) : (parse tokens).IsStatement := by
  have harena := isArena_parse tokens
  have hform : ∀ id node, (parse tokens).node? id = some node →
      (parse tokens).NodeForm id node := by
    intro id node hnode
    apply nodeForm_of_represents (represents_parse tokens) harena (isPreorder_parse tokens) _ hnode
    intro clause hclause
    exact Parser.isProper_of_mem_clausesFrom (clauses_eq_clausesFrom tokens ▸ hclause)
  constructor
  case exists_root =>
    obtain ⟨entry, hentry, _⟩ := (represents_parse tokens).statement
    obtain ⟨node, hnode, _⟩ := Option.map_eq_some_iff.1 hentry
    exact ⟨node, hnode⟩
  case statement_iff =>
    intro id node hnode
    cases hform id node hnode with
    | statement hid hkind => simp [hid, hkind]
    | assignment hid hkind => simp [hid, hkind]
    | option hid hkind => simp [hid, hkind]
    | leaf hid hkind => simp_all
  case parent_eq_none_iff =>
    intro id node hnode
    rw [← parent?_of_node? hnode]
    exact harena.parent?_eq_none_iff id (lt_size_of_node? hnode)
  case exists_parent =>
    intro id node hnode hne
    obtain ⟨parent, hparent⟩ := Option.ne_none_iff_exists'.1 fun hnone =>
      hne ((harena.parent?_eq_none_iff id (lt_size_of_node? hnode)).1 hnone)
    refine ⟨parent, ?_, harena.parent_lt id parent hparent, harena.count_children hparent⟩
    rw [← parent?_of_node? hnode, hparent]
  case children_root => exact exists_children_root tokens
  case assignment =>
    intro id node hnode hassignment
    cases hform id node hnode with
    | statement hid hkind => simp [hassignment] at hkind
    | assignment hid hkind halves => exact halves
    | option hid hkind => simp [hassignment] at hkind
    | leaf hid hkind => simp [hassignment] at hkind
  case option =>
    intro id node hnode hoption
    cases hform id node hnode with
    | statement hid hkind => simp [hoption] at hkind
    | assignment hid hkind => simp [hoption] at hkind
    | option hid hkind halves => exact halves
    | leaf hid hkind => simp [hoption] at hkind
  case leaf =>
    intro id node hnode hother
    cases hform id node hnode with
    | statement hid hkind => simp [hkind] at hother
    | assignment hid hkind => simp [hkind] at hother
    | option hid hkind => simp [hkind] at hother
    | leaf hid hkind hleaf => exact hleaf
  case visit => exact visit_root_parse tokens

end Tree

end Preflight
