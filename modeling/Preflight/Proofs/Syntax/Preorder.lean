import Mathlib.Data.List.Range
import Preflight.Proofs.Syntax.Arena
import Preflight.Proofs.Syntax.Statement

/-!
This module contains the order in which a visit sees the nodes of the tree of a statement: it is the
order in which they were added.
-/

namespace Preflight

namespace Rose

theorem walkAll_map {α β : Type} (descends : α → Bool) (f : β → Rose α) (l : List β) :
    walkAll descends (l.map f) = l.flatMap fun b => (f b).walk descends := by
  induction l with
  | nil => rfl
  | cons b l ih =>
    rw [List.map_cons, List.flatMap_cons, ← ih]
    rfl

end Rose

namespace Tree

section visit

variable {tree : Tree} {descends : Node.Kind → Bool}

theorem walk_shape_go_succ {id : Nat} (depth : Nat)
    (hinner : tree.children id ≠ [] → (tree.entry? id).any (descends ·.kind) = true)
    (hleaves : ∀ child ∈ tree.children id, (tree.entry? child).any (descends ·.kind) = false) :
    (shape.go tree (depth + 1) id).walk (fun id => (tree.entry? id).any (descends ·.kind)) =
      id :: tree.children id := by
  unfold shape.go Rose.walk
  by_cases hchildren : tree.children id = []
  · rw [hchildren]
    split <;> rfl
  · rw [if_pos (hinner hchildren), Rose.walkAll_of_not_descends]
    · simp [Function.comp_def, label_shape_go]
    · intro t ht
      obtain ⟨child, hchild, rfl⟩ := List.mem_map.1 ht
      rw [label_shape_go]
      exact hleaves child hchild

theorem visit_root_eq_flatMap (h : tree.IsArena)
    (hroot : (tree.entry? root).any (descends ·.kind) = true)
    (hinner : ∀ id ∈ tree.children root, tree.children id ≠ [] →
      (tree.entry? id).any (descends ·.kind) = true)
    (hleaves : ∀ id ∈ tree.children root, ∀ child ∈ tree.children id,
      (tree.entry? child).any (descends ·.kind) = false) :
    tree.visit descends root =
      root :: (tree.children root).flatMap fun id => id :: tree.children id := by
  unfold Tree.visit shape
  obtain ⟨depth, hdepth⟩ := Nat.exists_eq_add_of_lt h.root_lt_size
  rw [hdepth]
  unfold shape.go Rose.walk
  rw [if_pos hroot, Rose.walkAll_map]
  congr 1
  apply List.flatMap_congr
  intro id hid
  -- There is a node besides the root, so the depth is enough for another step.
  have hlt := h.lt_size_of_mem_children hid
  have hpos := h.lt_of_mem_children hid
  obtain ⟨rest, hrest⟩ : ∃ rest, root + depth = rest + 1 := ⟨root + depth - 1, by omega⟩
  rw [hrest]
  exact walk_shape_go_succ rest (hinner id hid) (hleaves id hid)

end visit

section preorder

variable (tree : Tree) (clause : Clause)

theorem children_pushClause_of_ne {id : Nat} (hne : id ≠ root) (h : id < tree.size) :
    (tree.pushClause clause).children id = tree.children id := by
  have hlt := fun entry => lt_size_push tree root entry (Nat.le_of_lt h)
  have hsame := fun entry => children_push_of_ne tree root entry hne h
  cases clause with
  | assignment text source name value =>
    unfold pushClause
    rw [children_pushHalves_of_ne _ _ _ _ _ (Nat.ne_of_lt h) (hlt _), hsame]
  | command text source => exact hsame _
  | argument text source split =>
    cases split with
    | none => exact hsame _
    | some halves =>
      unfold pushClause
      rw [children_pushHalves_of_ne _ _ _ _ _ (Nat.ne_of_lt h) (hlt _), hsame]

theorem children_pushHalves_self {parent : Nat} (h : parent < tree.size)
    (hleaf : tree.children parent = []) (source : Location) (key : Text) (valueKind : Node.Kind)
    (value : Text) :
    (tree.pushHalves parent source key valueKind value).children parent =
      [tree.size, tree.size + 1] := by
  unfold pushHalves
  rw [children_push_self _ _ _ (lt_size_push _ _ _ (Nat.le_of_lt h))]
  rw [children_push_self _ _ _ h, hleaf, size_push]
  rfl

theorem exists_range'_pushClause :
    ∃ count, (tree.pushClause clause).size = tree.size + count ∧
      tree.size :: (tree.pushClause clause).children tree.size =
        List.range' tree.size count := by
  have hlt := fun entry => lt_size_push tree root entry (Nat.le_refl tree.size)
  have hleaf := children_push_size tree root
  cases clause with
  | assignment text source name value =>
    refine ⟨3, by simp [pushClause, pushHalves], ?_⟩
    unfold pushClause
    rw [children_pushHalves_self _ (hlt _) (hleaf _), size_push]
    rfl
  | command text source =>
    refine ⟨1, size_push _ _ _, ?_⟩
    unfold pushClause
    rw [hleaf]
    rfl
  | argument text source split =>
    cases split with
    | none =>
      refine ⟨1, size_push _ _ _, ?_⟩
      unfold pushClause
      rw [hleaf]
      rfl
    | some halves =>
      refine ⟨3, by simp [pushClause, pushHalves], ?_⟩
      unfold pushClause
      rw [children_pushHalves_self _ (hlt _) (hleaf _), size_push]
      rfl

end preorder

def IsPreorder (tree : Tree) : Prop :=
  (root :: (tree.children root).flatMap fun id => id :: tree.children id) = List.range tree.size

theorem IsPreorder.pushClause {tree : Tree} (h : tree.IsPreorder) (harena : tree.IsArena)
    (clause : Clause) : (tree.pushClause clause).IsPreorder := by
  unfold IsPreorder at h ⊢
  obtain ⟨count, hsize, hnew⟩ := exists_range'_pushClause tree clause
  have hold : ((tree.children root).flatMap fun id =>
      id :: (tree.pushClause clause).children id) =
      (tree.children root).flatMap fun id => id :: tree.children id := by
    apply List.flatMap_congr
    intro id hid
    rw [children_pushClause_of_ne _ _ (Nat.ne_of_gt (harena.lt_of_mem_children hid))
      (harena.lt_size_of_mem_children hid)]
  rw [children_root_pushClause _ _ harena.root_lt_size, List.flatMap_append, hold]
  rw [List.flatMap_singleton, hnew, ← List.cons_append, h, hsize]
  rw [List.range_eq_range', List.range_eq_range', ← List.range'_append_1, Nat.zero_add]

theorem isPreorder_parse (tokens : List Token) : (parse tokens).IsPreorder := by
  have hfold : ∀ (clauses : List Clause) {tree : Tree}, tree.IsArena → tree.IsPreorder →
      (clauses.foldl Tree.pushClause tree).IsPreorder := by
    intro clauses
    induction clauses with
    | nil => exact fun _ h => h
    | cons clause clauses ih =>
      exact fun harena h => ih (harena.pushClause clause) (h.pushClause harena clause)
  exact hfold (clauses tokens) isArena_empty rfl

namespace Shows

variable {tree : Tree} {id : Nat} {clause : Clause}

theorem isInner_eq_false_of_mem_children (h : tree.Shows id clause) {child : Nat}
    (hchild : child ∈ tree.children id) :
    ∃ entry, tree.entry? child = some entry ∧ entry.kind.isInner = false := by
  have hhalves : ∀ {source : Location} {valueKind : Node.Kind} {key value : Text},
      valueKind.isInner = false → tree.HasHalves id source valueKind key value →
      ∃ entry, tree.entry? child = some entry ∧ entry.kind.isInner = false := by
    rintro source valueKind key value hvalue ⟨k, v, hchildren, hk, hv⟩
    rw [hchildren, List.mem_pair] at hchild
    rcases hchild with rfl | rfl
    · exact ⟨_, hk, rfl⟩
    · exact ⟨_, hv, hvalue⟩
  cases clause with
  | assignment text source name value => exact hhalves rfl h.2
  | command text source =>
    rw [h.2] at hchild
    contradiction
  | argument text source split =>
    cases split with
    | none =>
      rw [h.2] at hchild
      contradiction
    | some halves => exact hhalves rfl h.2

theorem any_isInner (h : tree.Shows id clause) :
    (tree.entry? id).any (Node.Kind.isInner ·.kind) = true := by
  obtain ⟨entry, hentry, hkind⟩ := h.entry?
  rw [hentry, Option.any_some, hkind]
  cases clause <;> rfl

end Shows

theorem visit_root_parse (tokens : List Token) :
    (parse tokens).visit Node.Kind.isInner root = List.range (parse tokens).size := by
  have h := represents_parse tokens
  rw [visit_root_eq_flatMap (isArena_parse tokens)]
  · exact isPreorder_parse tokens
  · obtain ⟨entry, hentry, hkind⟩ := h.statement
    rw [hentry, Option.any_some, hkind]
    rfl
  · intro id hid _
    obtain ⟨clause, _, hshows⟩ := exists_mem_of_forall₂ h.children hid
    exact hshows.any_isInner
  · intro id hid child hchild
    obtain ⟨clause, _, hshows⟩ := exists_mem_of_forall₂ h.children hid
    obtain ⟨entry, hentry, hinner⟩ := hshows.isInner_eq_false_of_mem_children hchild
    rw [hentry, Option.any_some, hinner]

end Tree

end Preflight
