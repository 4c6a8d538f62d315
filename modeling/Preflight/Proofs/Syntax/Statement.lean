import Mathlib.Data.List.Forall2
import Preflight.Proofs.Syntax.Tree
import Preflight.Syntax.Parser

/-!
This module contains the trees that have the parts of a statement below their root: every tree that
the parser makes is one, and stays one when the text of its command is replaced.
-/

namespace Preflight

namespace Tree

def HasHalves (tree : Tree) (id : Nat) (source : Location) (valueKind : Node.Kind)
    (key value : Text) : Prop :=
  ∃ k v, tree.children id = [k, v] ∧ tree.entry? k = some ⟨.identifier, key, source, false⟩ ∧
    tree.entry? v = some ⟨valueKind, value, source.offset (key.length + 1), false⟩

def Shows (tree : Tree) (id : Nat) : Clause → Prop
  | .assignment text source name value =>
    tree.entry? id = some ⟨.assignment, text, source, false⟩ ∧
      tree.HasHalves id source .literal name value
  | .command text source =>
    (∃ corrected, tree.entry? id = some ⟨.command, text, source, corrected⟩) ∧
      tree.children id = []
  | .argument text source none =>
    tree.entry? id = some ⟨.option, text, source, false⟩ ∧ tree.children id = []
  | .argument text source (some (key, value)) =>
    tree.entry? id = some ⟨.option, text, source, false⟩ ∧
      tree.HasHalves id source .parameter key value

end Tree

namespace Clause

def kind : Clause → Node.Kind
  | assignment .. => .assignment
  | command .. => .command
  | argument .. => .option

def text : Clause → Text
  | assignment text _ _ _ | command text _ | argument text _ _ => text

def source : Clause → Location
  | assignment _ source _ _ | command _ source | argument _ source _ => source

end Clause

namespace Tree

structure Represents (tree : Tree) (clauses : List Clause) : Prop where
  statement : ∃ entry, tree.entry? root = some entry ∧ entry.kind = .statement
  nodup : (tree.children root).Nodup
  children : List.Forall₂ tree.Shows (tree.children root) clauses

theorem Shows.exists_entry {tree : Tree} {id : Nat} {clause : Clause} (h : tree.Shows id clause) :
    ∃ corrected, tree.entry? id = some ⟨clause.kind, clause.text, clause.source, corrected⟩ := by
  cases clause with
  | assignment text source name value => exact ⟨false, h.1⟩
  | command text source => exact h.1
  | argument text source split =>
    cases split with
    | none => exact ⟨false, h.1⟩
    | some halves => exact ⟨false, h.1⟩

theorem Shows.entry? {tree : Tree} {id : Nat} {clause : Clause} (h : tree.Shows id clause) :
    ∃ entry, tree.entry? id = some entry ∧ entry.kind = clause.kind := by
  obtain ⟨corrected, hentry⟩ := h.exists_entry
  exact ⟨_, hentry, rfl⟩

theorem HasHalves.push {tree : Tree} {id : Nat} {source : Location} {valueKind : Node.Kind}
    {key value : Text} (h : tree.HasHalves id source valueKind key value) {parent : Nat}
    (hne : id ≠ parent) (entry : Entry) :
    (tree.push parent entry).HasHalves id source valueKind key value := by
  obtain ⟨k, v, hchildren, hk, hv⟩ := h
  refine ⟨k, v, ?_, ?_, ?_⟩
  · rw [children_push_of_ne _ _ _ hne]
    · exact hchildren
    · apply @lt_size_of_mem_children _ _ k
      simp [hchildren]
  · rw [entry?_push_of_lt _ _ _ (lt_size_of_entry?_eq_some hk), hk]
  · rw [entry?_push_of_lt _ _ _ (lt_size_of_entry?_eq_some hv), hv]

theorem Shows.push {tree : Tree} {id : Nat} {clause : Clause} (h : tree.Shows id clause)
    {parent : Nat} (hne : id ≠ parent) (entry : Entry) :
    (tree.push parent entry).Shows id clause := by
  obtain ⟨_, hentry, _⟩ := h.entry?
  have hlt := lt_size_of_entry?_eq_some hentry
  have hsame := entry?_push_of_lt tree parent entry hlt
  have hchildren := children_push_of_ne tree parent entry hne hlt
  cases clause with
  | assignment text source name value => exact ⟨hsame.trans h.1, h.2.push hne entry⟩
  | command text source =>
    obtain ⟨⟨corrected, hcommand⟩, hleaf⟩ := h
    exact ⟨⟨corrected, hsame.trans hcommand⟩, hchildren.trans hleaf⟩
  | argument text source split =>
    cases split with
    | none => exact ⟨hsame.trans h.1, hchildren.trans h.2⟩
    | some halves => exact ⟨hsame.trans h.1, h.2.push hne entry⟩

section pushHalves

variable (tree : Tree) {parent : Nat} (source : Location) (key : Text) (valueKind : Node.Kind)
  (value : Text)

theorem entry?_pushHalves_of_lt {id : Nat} (h : id < tree.size) :
    entry? (tree.pushHalves parent source key valueKind value) id = tree.entry? id := by
  unfold pushHalves
  rw [entry?_push_of_lt _ _ _ (lt_size_push _ _ _ (Nat.le_of_lt h)), entry?_push_of_lt _ _ _ h]

theorem children_pushHalves_of_ne {id : Nat} (hne : id ≠ parent) (h : id < tree.size) :
    (tree.pushHalves parent source key valueKind value).children id = tree.children id := by
  unfold pushHalves
  rw [children_push_of_ne _ _ _ hne (lt_size_push _ _ _ (Nat.le_of_lt h))]
  rw [children_push_of_ne _ _ _ hne h]

theorem hasHalves_pushHalves (h : parent < tree.size) (hleaf : tree.children parent = []) :
    (tree.pushHalves parent source key valueKind value).HasHalves parent source valueKind key
      value := by
  unfold pushHalves
  refine ⟨tree.size, tree.size + 1, ?_, ?_, ?_⟩
  · rw [children_push_self _ _ _ (lt_size_push _ _ _ (Nat.le_of_lt h))]
    rw [children_push_self _ _ _ h, hleaf, size_push]
    rfl
  · rw [entry?_push_of_lt _ _ _ (lt_size_push _ _ _ (Nat.le_refl tree.size))]
    rw [entry?_push_size]
  · rw [← size_push tree parent ⟨.identifier, key, source, false⟩]
    rw [entry?_push_size]

end pushHalves

section pushClause

variable (tree : Tree) (clause : Clause)

theorem entry?_pushClause_of_lt {id : Nat} (h : id < tree.size) :
    entry? (tree.pushClause clause) id = tree.entry? id := by
  have hlt := fun entry => lt_size_push tree root entry (Nat.le_of_lt h)
  cases clause with
  | assignment text source name value =>
    unfold pushClause
    rw [entry?_pushHalves_of_lt _ _ _ _ _ (hlt _), entry?_push_of_lt _ _ _ h]
  | command text source => exact entry?_push_of_lt _ _ _ h
  | argument text source split =>
    cases split with
    | none => exact entry?_push_of_lt _ _ _ h
    | some halves =>
      unfold pushClause
      rw [entry?_pushHalves_of_lt _ _ _ _ _ (hlt _), entry?_push_of_lt _ _ _ h]

theorem children_root_pushClause (h : root < tree.size) :
    (tree.pushClause clause).children root = tree.children root ++ [tree.size] := by
  have hne : root ≠ tree.size := Nat.ne_of_lt h
  have hlt := fun entry => lt_size_push tree root entry (Nat.le_of_lt h)
  cases clause with
  | assignment text source name value =>
    unfold pushClause
    rw [children_pushHalves_of_ne _ _ _ _ _ hne (hlt _), children_push_self _ _ _ h]
  | command text source => exact children_push_self _ _ _ h
  | argument text source split =>
    cases split with
    | none => exact children_push_self _ _ _ h
    | some halves =>
      unfold pushClause
      rw [children_pushHalves_of_ne _ _ _ _ _ hne (hlt _), children_push_self _ _ _ h]

theorem shows_pushClause :
    (tree.pushClause clause).Shows tree.size clause := by
  have hlt := fun entry => lt_size_push tree root entry (Nat.le_refl tree.size)
  cases clause with
  | assignment text source name value =>
    unfold pushClause
    refine ⟨?_, ?_⟩
    · rw [entry?_pushHalves_of_lt _ _ _ _ _ (hlt _), entry?_push_size]
    · exact hasHalves_pushHalves _ _ _ _ _ (hlt _) (children_push_size _ _ _)
  | command text source => exact ⟨⟨false, entry?_push_size _ _ _⟩, children_push_size _ _ _⟩
  | argument text source split =>
    cases split with
    | none => exact ⟨entry?_push_size _ _ _, children_push_size _ _ _⟩
    | some halves =>
      unfold pushClause
      refine ⟨?_, ?_⟩
      · rw [entry?_pushHalves_of_lt _ _ _ _ _ (hlt _), entry?_push_size]
      · exact hasHalves_pushHalves _ _ _ _ _ (hlt _) (children_push_size _ _ _)

end pushClause

theorem Shows.pushClause {tree : Tree} {id : Nat} {clause : Clause} (h : tree.Shows id clause)
    (hne : id ≠ root) (next : Clause) : (tree.pushClause next).Shows id clause := by
  obtain ⟨_, hentry, _⟩ := h.entry?
  -- What is added below the new node does not stand below an old one.
  have hsize : id ≠ tree.size := Nat.ne_of_lt (lt_size_of_entry?_eq_some hentry)
  cases next with
  | assignment text source name value => exact ((h.push hne _).push hsize _).push hsize _
  | command text source => exact h.push hne _
  | argument text source split =>
    cases split with
    | none => exact h.push hne _
    | some halves => exact ((h.push hne _).push hsize _).push hsize _

theorem exists_mem_of_forall₂ {α β : Type} {R : α → β → Prop} {l : List α} {l' : List β}
    (h : List.Forall₂ R l l') {a : α} (ha : a ∈ l) : ∃ b ∈ l', R a b := by
  induction h with
  | nil => simp at ha
  | cons hrel _ ih =>
    cases ha with
    | head => exact ⟨_, List.mem_cons_self, hrel⟩
    | tail _ ha =>
      obtain ⟨b, hmem, hb⟩ := ih ha
      exact ⟨b, List.mem_cons_of_mem _ hmem, hb⟩

theorem exists_append_of_forall₂_append {tree : Tree} {ids : List Nat} {front back : List Clause}
    (h : List.Forall₂ tree.Shows ids (front ++ back)) :
    ∃ is js, ids = is ++ js ∧ List.Forall₂ tree.Shows is front ∧
      List.Forall₂ tree.Shows js back := by
  refine ⟨ids.take front.length, ids.drop front.length, ?_, ?_, ?_⟩
  · rw [List.take_append_drop]
  · exact List.forall₂_take_append ids front back h
  · exact List.forall₂_drop_append ids front back h

namespace Represents

variable {tree : Tree} {clauses : List Clause}

theorem root_lt_size (h : tree.Represents clauses) : root < tree.size := by
  obtain ⟨_, hentry, _⟩ := h.statement
  exact lt_size_of_entry?_eq_some hentry

theorem ne_root_of_shows (h : tree.Represents clauses) {id : Nat} {clause : Clause}
    (hshows : tree.Shows id clause) : id ≠ root := by
  -- The root is a statement, and no part of a statement is one.
  rintro rfl
  obtain ⟨entry, hentry, hkind⟩ := h.statement
  obtain ⟨entry', hentry', hkind'⟩ := hshows.entry?
  rw [hentry, Option.some.injEq] at hentry'
  subst hentry'
  rw [hkind] at hkind'
  cases clause <;> simp [Clause.kind] at hkind'

theorem visit_root (h : tree.Represents clauses) :
    tree.visit (· = .statement) root = root :: tree.children root := by
  obtain ⟨entry, hentry, hstatement⟩ := h.statement
  apply Tree.visit_root h.root_lt_size
  · simp [hentry, hstatement]
  · intro id hid
    obtain ⟨clause, _, hshows⟩ := exists_mem_of_forall₂ h.children hid
    obtain ⟨_, hentry, hkind⟩ := hshows.entry?
    cases clause <;> simp [hentry, hkind, Clause.kind]

theorem pushClause (h : tree.Represents clauses) (clause : Clause) :
    (tree.pushClause clause).Represents (clauses ++ [clause]) := by
  have hroot := h.root_lt_size
  refine ⟨?_, ?_, ?_⟩
  · rw [entry?_pushClause_of_lt _ _ hroot]
    exact h.statement
  · rw [children_root_pushClause _ _ hroot, List.nodup_append]
    refine ⟨h.nodup, by simp, ?_⟩
    intro id hid other hother
    obtain ⟨_, _, hshows⟩ := exists_mem_of_forall₂ h.children hid
    obtain ⟨_, hentry, _⟩ := hshows.entry?
    have := lt_size_of_entry?_eq_some hentry
    simp only [List.mem_singleton] at hother
    omega
  · rw [children_root_pushClause _ _ hroot]
    apply List.rel_append
    · apply h.children.imp
      intro id shown hshows
      exact hshows.pushClause (h.ne_root_of_shows hshows) clause
    · exact .cons (shows_pushClause tree clause) .nil

theorem foldl_pushClause (h : tree.Represents clauses) (others : List Clause) :
    (others.foldl Tree.pushClause tree).Represents (clauses ++ others) := by
  induction others generalizing tree clauses with
  | nil => simpa using h
  | cons clause others ih =>
    have := ih (h.pushClause clause)
    simpa using this

end Represents

theorem represents_empty : empty.Represents [] := by
  refine ⟨⟨_, rfl, rfl⟩, ?_, ?_⟩
  · exact List.nodup_nil
  · exact .nil

theorem represents_parse (tokens : List Token) : (parse tokens).Represents (clauses tokens) := by
  unfold parse
  exact represents_empty.foldl_pushClause (clauses tokens)

theorem HasHalves.keyValue? {tree : Tree} {id : Nat} {source : Location} {valueKind : Node.Kind}
    {key value : Text} (h : tree.HasHalves id source valueKind key value) :
    tree.keyValue? id = some (key, value) := by
  obtain ⟨k, v, hchildren, hk, hv⟩ := h
  unfold Tree.keyValue?
  simp only [hchildren, hk, hv]

theorem shows_setText_self {tree : Tree} {target : Nat} {text : Text} {source : Location}
    (h : tree.Shows target (.command text source)) (other : Text) :
    (tree.setText target other).Shows target (.command other source) := by
  obtain ⟨⟨corrected, hentry⟩, hleaf⟩ := h
  refine ⟨⟨true, ?_⟩, ?_⟩
  · rw [entry?_setText_self, hentry]
    rfl
  · rw [children_setText, hleaf]

section setText

variable {tree : Tree} {target : Nat} {command : Entry}
  (htarget : tree.entry? target = some command) (hcommand : command.kind = .command)
include htarget hcommand

theorem ne_of_entry?_of_kind_ne {id : Nat} {entry : Entry} (h : tree.entry? id = some entry)
    (hkind : entry.kind ≠ .command) : id ≠ target := by
  rintro rfl
  rw [htarget, Option.some.injEq] at h
  subst h
  contradiction

theorem HasHalves.setText {id : Nat} {source : Location} {valueKind : Node.Kind} {key value : Text}
    (h : tree.HasHalves id source valueKind key value) (hvalue : valueKind ≠ .command)
    (text : Text) : (tree.setText target text).HasHalves id source valueKind key value := by
  obtain ⟨k, v, hchildren, hk, hv⟩ := h
  refine ⟨k, v, ?_, ?_, ?_⟩
  · rw [children_setText, hchildren]
  · rw [entry?_setText_of_ne, hk]
    exact ne_of_entry?_of_kind_ne htarget hcommand hk (by simp)
  · rw [entry?_setText_of_ne, hv]
    exact ne_of_entry?_of_kind_ne htarget hcommand hv hvalue

theorem Shows.setText {id : Nat} {clause : Clause} (h : tree.Shows id clause) (hne : id ≠ target)
    (text : Text) : (tree.setText target text).Shows id clause := by
  have hsame := entry?_setText_of_ne tree target text hne
  have hchildren := children_setText tree target text id
  cases clause with
  | assignment _ source name value =>
    exact ⟨hsame.trans h.1, h.2.setText htarget hcommand (by simp) text⟩
  | command _ source =>
    obtain ⟨⟨corrected, hentry⟩, hleaf⟩ := h
    exact ⟨⟨corrected, hsame.trans hentry⟩, hchildren.trans hleaf⟩
  | argument _ source split =>
    cases split with
    | none => exact ⟨hsame.trans h.1, hchildren.trans h.2⟩
    | some halves => exact ⟨hsame.trans h.1, h.2.setText htarget hcommand (by simp) text⟩

theorem forall₂_shows_setText {ids : List Nat} {clauses : List Clause}
    (h : List.Forall₂ tree.Shows ids clauses) (hne : target ∉ ids) (text : Text) :
    List.Forall₂ (tree.setText target text).Shows ids clauses := by
  induction h with
  | nil => exact .nil
  | cons hshows _ ih =>
    simp only [List.mem_cons, not_or] at hne
    apply List.Forall₂.cons
    · exact hshows.setText htarget hcommand (Ne.symm hne.1) text
    · exact ih hne.2

end setText

namespace Represents

variable {tree : Tree} {before after : List Clause} {text : Text} {source : Location}

theorem exists_children (h : tree.Represents (before ++ .command text source :: after)) :
    ∃ front id back, tree.children root = front ++ id :: back ∧ id ∉ front ∧ id ∉ back ∧
      List.Forall₂ tree.Shows front before ∧ tree.Shows id (.command text source) ∧
      List.Forall₂ tree.Shows back after := by
  have hnodup := h.nodup
  obtain ⟨front, back, hids, hfront, hback⟩ := exists_append_of_forall₂_append h.children
  cases hback with
  | cons hshows hrest =>
    next id back =>
    rw [hids, List.nodup_append, List.nodup_cons] at hnodup
    have hnotFront : id ∉ front := fun hmem => hnodup.2.2 id hmem id List.mem_cons_self rfl
    exact ⟨front, id, back, hids, hnotFront, hnodup.2.1.1, hfront, hshows, hrest⟩

section children

variable {front back : List Nat} {id : Nat} {corrected : Bool}
  (hids : tree.children root = front ++ id :: back)
  (hid : tree.entry? id = some ⟨.command, text, source, corrected⟩)
  (hfront : List.Forall₂ tree.Shows front before)
include hids hid hfront

theorem command?_eq (hbefore : ∀ clause ∈ before, clause.kind ≠ .command) :
    tree.command? = some id := by
  unfold command?
  rw [hids, List.find?_append, List.find?_eq_none.2]
  · simp [hid]
  · intro other hother
    obtain ⟨clause, hmem, hclause⟩ := exists_mem_of_forall₂ hfront hother
    obtain ⟨_, hother, hkind⟩ := hclause.entry?
    simp [hother, hkind, hbefore clause hmem]

theorem setText (h : tree.Represents (before ++ .command text source :: after))
    (hnotFront : id ∉ front) (hnotBack : id ∉ back)
    (hshows : tree.Shows id (.command text source)) (hback : List.Forall₂ tree.Shows back after)
    (other : Text) :
    (tree.setText id other).Represents (before ++ .command other source :: after) := by
  obtain ⟨entry, hentry, hstatement⟩ := h.statement
  refine ⟨?_, ?_, ?_⟩
  · rw [entry?_setText_of_ne]
    · exact ⟨entry, hentry, hstatement⟩
    · exact ne_of_entry?_of_kind_ne hid rfl hentry (by simp [hstatement])
  · rw [children_setText]
    exact h.nodup
  · rw [children_setText, hids]
    apply List.rel_append
    · exact forall₂_shows_setText hid rfl hfront hnotFront other
    · apply List.Forall₂.cons
      · exact shows_setText_self hshows other
      · exact forall₂_shows_setText hid rfl hback hnotBack other

end children

theorem command?_eq_none {clauses : List Clause} (h : tree.Represents clauses)
    (hkind : ∀ clause ∈ clauses, clause.kind ≠ .command) : tree.command? = none := by
  unfold command?
  rw [List.find?_eq_none]
  intro id hid
  obtain ⟨clause, hmem, hclause⟩ := exists_mem_of_forall₂ h.children hid
  obtain ⟨_, hentry, hclauseKind⟩ := hclause.entry?
  simp [hentry, hclauseKind, hkind clause hmem]

theorem exists_command (h : tree.Represents (before ++ .command text source :: after))
    (hbefore : ∀ clause ∈ before, clause.kind ≠ .command) :
    ∃ id corrected, tree.command? = some id ∧
      tree.entry? id = some ⟨.command, text, source, corrected⟩ ∧
      ∀ other, (tree.setText id other).Represents (before ++ .command other source :: after) := by
  obtain ⟨front, id, back, hids, hnotFront, hnotBack, hfront, hshows, hback⟩ := h.exists_children
  obtain ⟨corrected, hid⟩ := hshows.1
  refine ⟨id, corrected, command?_eq hids hid hfront hbefore, hid, ?_⟩
  exact h.setText hids hid hfront hnotFront hnotBack hshows hback

end Represents

end Tree

end Preflight
