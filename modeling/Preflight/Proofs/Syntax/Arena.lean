import Mathlib.Data.List.Nodup
import Preflight.Proofs.Syntax.Tree
import Preflight.Syntax.Parser

/-!
This module contains how the nodes of a syntax tree refer to each other, and that they keep doing so
when nodes are added.
-/

namespace Preflight

namespace Tree

def parent? (tree : Tree) (id : Nat) : Option Nat := (tree.node? id).bind (·.parent)

structure IsArena (tree : Tree) : Prop where
  root_lt_size : root < tree.size
  parent?_eq_none_iff : ∀ id, id < tree.size → (tree.parent? id = none ↔ id = root)
  mem_children_iff : ∀ id child, child ∈ tree.children id ↔ tree.parent? child = some id
  parent_lt : ∀ id parent, tree.parent? id = some parent → parent < id
  pairwise_children : ∀ id, (tree.children id).Pairwise (· < ·)

theorem lt_size_of_parent?_eq_some {tree : Tree} {id parent : Nat}
    (h : tree.parent? id = some parent) : id < tree.size := by
  obtain ⟨node, hnode, _⟩ := Option.bind_eq_some_iff.1 h
  exact lt_size_of_node? hnode

theorem node?_of_size_le {tree : Tree} {id : Nat} (h : tree.size ≤ id) : tree.node? id = none :=
  List.getElem?_eq_none h

theorem children_of_size_le {tree : Tree} {id : Nat} (h : tree.size ≤ id) :
    tree.children id = [] := by
  unfold children
  rw [node?_of_size_le h]

section push

variable (tree : Tree) {parent : Nat} (h : parent < tree.size) (entry : Entry) (id : Nat)
include h

theorem children_push :
    (tree.push parent entry).children id =
      if id = parent then tree.children id ++ [tree.size] else tree.children id := by
  rcases Nat.lt_trichotomy id tree.size with hid | rfl | hid
  · by_cases hparent : id = parent
    · subst hparent
      rw [if_pos rfl, children_push_self _ _ _ h]
    · rw [if_neg hparent, children_push_of_ne _ _ _ hparent hid]
  · rw [if_neg (Nat.ne_of_gt h), children_push_size, children_of_size_le (Nat.le_refl _)]
  · rw [if_neg (Nat.ne_of_gt (Nat.lt_trans h hid)), children_of_size_le (Nat.le_of_lt hid)]
    exact children_of_size_le (by rwa [size_push])

omit h in
theorem parent?_push :
    (tree.push parent entry).parent? id =
      if id = tree.size then some parent else tree.parent? id := by
  unfold parent?
  rcases Nat.lt_trichotomy id tree.size with hid | rfl | hid
  · rw [if_neg (Nat.ne_of_lt hid), node?_push_of_lt _ _ _ hid]
    cases tree.node? id with
    | none => rfl
    | some node =>
      dsimp only [Option.map_some, Option.bind_some]
      split <;> rfl
  · rw [if_pos rfl, node?_push_size]
    rfl
  · rw [if_neg (Nat.ne_of_gt hid), node?_of_size_le (Nat.le_of_lt hid)]
    rw [node?_of_size_le (by rwa [size_push])]

end push

namespace IsArena

variable {tree : Tree}

theorem lt_size_of_mem_children (h : tree.IsArena) {id child : Nat}
    (hchild : child ∈ tree.children id) : child < tree.size :=
  lt_size_of_parent?_eq_some ((h.mem_children_iff id child).1 hchild)

theorem lt_of_mem_children (h : tree.IsArena) {id child : Nat}
    (hchild : child ∈ tree.children id) : id < child :=
  h.parent_lt child id ((h.mem_children_iff id child).1 hchild)

theorem count_children (h : tree.IsArena) {id parent : Nat}
    (hparent : tree.parent? id = some parent) : (tree.children parent).count id = 1 := by
  have hnodup : (tree.children parent).Nodup := (h.pairwise_children parent).imp Nat.ne_of_lt
  exact List.count_eq_one_of_mem hnodup ((h.mem_children_iff parent id).2 hparent)

theorem push (h : tree.IsArena) {parent : Nat} (hparent : parent < tree.size) (entry : Entry) :
    (tree.push parent entry).IsArena := by
  constructor
  case root_lt_size => exact lt_size_push tree parent entry (Nat.le_of_lt h.root_lt_size)
  case parent?_eq_none_iff =>
    intro id hid
    rw [size_push] at hid
    rw [parent?_push]
    split
    case isTrue hnew =>
      have hne : id ≠ root := Nat.ne_of_gt (hnew ▸ h.root_lt_size)
      simp [hne]
    case isFalse hold => exact h.parent?_eq_none_iff id (by omega)
  case mem_children_iff =>
    intro id child
    rw [children_push _ hparent, parent?_push]
    by_cases hnew : child = tree.size
    · -- The new node is listed by its parent only, as it was not there before.
      have hnot : child ∉ tree.children id := fun hmem =>
        Nat.ne_of_lt (h.lt_size_of_mem_children hmem) hnew
      rw [if_pos hnew, Option.some_inj]
      split
      case isTrue hid => simp [hnew, hid]
      case isFalse hid => simp [hnot, Ne.symm hid]
    · rw [if_neg hnew, ← h.mem_children_iff]
      split <;> simp [hnew]
  case parent_lt =>
    intro id other hother
    rw [parent?_push] at hother
    split at hother
    case isTrue hnew =>
      rw [hnew, ← Option.some.inj hother]
      exact hparent
    case isFalse => exact h.parent_lt id other hother
  case pairwise_children =>
    intro id
    rw [children_push _ hparent]
    split
    case isTrue =>
      refine List.pairwise_append.2 ⟨h.pairwise_children id, List.pairwise_singleton _ _, ?_⟩
      intro child hchild new hnew
      rw [List.mem_singleton.1 hnew]
      exact h.lt_size_of_mem_children hchild
    case isFalse => exact h.pairwise_children id

theorem pushHalves (h : tree.IsArena) {parent : Nat} (hparent : parent < tree.size)
    (source : Location) (key : Text) (valueKind : Node.Kind) (value : Text) :
    (tree.pushHalves parent source key valueKind value).IsArena :=
  (h.push hparent _).push (lt_size_push _ _ _ (Nat.le_of_lt hparent)) _

theorem pushClause (h : tree.IsArena) (clause : Clause) : (tree.pushClause clause).IsArena := by
  have hnew := fun entry => lt_size_push tree root entry (Nat.le_refl tree.size)
  cases clause with
  | assignment text source name value =>
    exact (h.push h.root_lt_size _).pushHalves (hnew _) source name .literal value
  | command text source => exact h.push h.root_lt_size _
  | argument text source split =>
    cases split with
    | none => exact h.push h.root_lt_size _
    | some halves =>
      exact (h.push h.root_lt_size _).pushHalves (hnew _) source halves.1 .parameter halves.2

theorem foldl_pushClause (h : tree.IsArena) (clauses : List Clause) :
    (clauses.foldl Tree.pushClause tree).IsArena := by
  induction clauses generalizing tree with
  | nil => exact h
  | cons clause clauses ih => exact ih (h.pushClause clause)

end IsArena

theorem isArena_empty : empty.IsArena := by
  have hchildren : ∀ id, empty.children id = [] := fun id => by cases id <;> rfl
  have hparent : ∀ id, empty.parent? id = none := fun id => by cases id <;> rfl
  constructor
  case root_lt_size => exact Nat.zero_lt_one
  case parent?_eq_none_iff =>
    intro id hid
    rw [hparent, size_empty] at *
    simpa [root] using hid
  case mem_children_iff => simp [hchildren, hparent]
  case parent_lt => simp [hparent]
  case pairwise_children => simp [hchildren]

theorem isArena_parse (tokens : List Token) : (parse tokens).IsArena :=
  isArena_empty.foldl_pushClause (clauses tokens)

end Tree

end Preflight
