import Mathlib.Data.List.Perm.Basic
import Preflight.Proofs.Syntax.Preorder

/-!
This module contains that a syntax tree can be gone through from its root, whatever has been added
to it and whichever texts have been replaced: every node is met once, after its parent and after its
older siblings.
-/

namespace Preflight

namespace Rose

variable {α β : Type}

mutual

theorem labels_map (f : α → β) : ∀ tree : Rose α, (tree.map f).labels = tree.labels.map f
  | .node label children => by
    change f label :: walkAll (fun _ => true) (mapAll f children) = _
    rw [walkAll_mapAll f children]
    rfl

theorem walkAll_mapAll (f : α → β) : ∀ trees : List (Rose α),
    walkAll (fun _ => true) (mapAll f trees) = (walkAll (fun _ => true) trees).map f
  | [] => rfl
  | tree :: trees => by
    have hhead := labels_map f tree
    unfold labels at hhead
    rw [mapAll, walkAll, walkAll, hhead, walkAll_mapAll f trees, List.map_append]

end

end Rose

namespace Tree

inductive IsGrown : Tree → Prop where
  | empty : IsGrown empty
  | push {tree : Tree} {parent : Nat} (h : IsGrown tree) (hparent : parent < tree.size)
    (entry : Entry) : IsGrown (tree.push parent entry)
  | setText {tree : Tree} (h : IsGrown tree) (id : Nat) (text : Text) :
    IsGrown (tree.setText id text)

structure SameStructure (tree tree' : Tree) : Prop where
  size_eq : tree.size = tree'.size
  children_eq : ∀ id, tree.children id = tree'.children id
  parent?_eq : ∀ id, tree.parent? id = tree'.parent? id
  kind_eq : ∀ id, (tree.entry? id).map (·.kind) = (tree'.entry? id).map (·.kind)
  source_eq : ∀ id, (tree.entry? id).map (·.source) = (tree'.entry? id).map (·.source)

/--
An order of the nodes in which each one comes once, and in front of its children. The children come
in the order in which they were added.
-/
structure IsTraversal (tree : Tree) (order : List Nat) : Prop where
  perm : order.Perm (List.range tree.size)
  sublist : ∀ id, id < tree.size → (id :: tree.children id).Sublist order

theorem parent?_setText (tree : Tree) (target : Nat) (text : Text) (id : Nat) :
    (tree.setText target text).parent? id = tree.parent? id := by
  unfold parent?
  rw [node?_setText]
  cases tree.node? id with
  | none => rfl
  | some node =>
    dsimp only [Option.map_some, Option.bind_some]
    split <;> rfl

theorem sameStructure_setText (tree : Tree) (target : Nat) (text : Text) :
    tree.SameStructure (tree.setText target text) where
  size_eq := by rw [size_setText]
  children_eq id := by rw [children_setText]
  parent?_eq id := by rw [parent?_setText]
  kind_eq id := by
    by_cases hid : id = target
    · subst hid
      simp [entry?_setText_self, Function.comp_def]
    · rw [entry?_setText_of_ne _ _ _ hid]
  source_eq id := by
    by_cases hid : id = target
    · subst hid
      simp [entry?_setText_self, Function.comp_def]
    · rw [entry?_setText_of_ne _ _ _ hid]

theorem IsArena.setText {tree : Tree} (h : tree.IsArena) (target : Nat) (text : Text) :
    (tree.setText target text).IsArena := by
  constructor
  case root_lt_size => simpa using h.root_lt_size
  case parent?_eq_none_iff => simpa [parent?_setText] using h.parent?_eq_none_iff
  case mem_children_iff => simpa [parent?_setText] using h.mem_children_iff
  case parent_lt => simpa [parent?_setText] using h.parent_lt
  case pairwise_children => simpa using h.pairwise_children

theorem IsGrown.isArena {tree : Tree} (h : tree.IsGrown) : tree.IsArena := by
  induction h with
  | empty => exact isArena_empty
  | push _ hparent entry ih => exact ih.push hparent entry
  | setText _ target text ih => exact ih.setText target text

def visitAll (tree : Tree) (id : Nat) : List Nat := tree.visit (fun _ => true) id

namespace IsArena

variable {tree : Tree} (h : tree.IsArena)
include h

theorem count_children_eq {id parent : Nat} (hparent : tree.parent? id = some parent)
    (other : Nat) : (tree.children other).count id = if other = parent then 1 else 0 := by
  split
  case isTrue hother => exact hother ▸ h.count_children hparent
  case isFalse hother =>
    refine List.count_eq_zero_of_not_mem fun hmem => hother ?_
    exact Option.some.inj (((h.mem_children_iff other id).1 hmem).symm.trans hparent)

theorem exists_parent {id : Nat} (hid : id < tree.size) (hroot : id ≠ root) :
    ∃ parent, tree.parent? id = some parent ∧ parent < id ∧
      ∀ other, (tree.children other).count id = if other = parent then 1 else 0 := by
  obtain ⟨parent, hparent⟩ :=
    Option.ne_none_iff_exists'.1 (mt (h.parent?_eq_none_iff id hid).1 hroot)
  exact ⟨parent, hparent, h.parent_lt id parent hparent, h.count_children_eq hparent⟩

theorem wellFounded_children : WellFounded fun child id => child ∈ tree.children id := by
  apply Subrelation.wf _ (measure fun id => tree.size - id).wf
  intro child id hchild
  have hlt := h.lt_of_mem_children hchild
  have hsize := h.lt_size_of_mem_children hchild
  change tree.size - child < tree.size - id
  omega

theorem shape_go_eq {depth depth' id : Nat} (hdepth : tree.size ≤ depth + id)
    (hdepth' : tree.size ≤ depth' + id) : shape.go tree depth id = shape.go tree depth' id := by
  induction depth generalizing depth' id with
  | zero =>
    have hleaf := @children_of_size_le tree id (by omega)
    cases depth' with
    | zero => rfl
    | succ depth' => simp [shape.go, hleaf]
  | succ depth ih =>
    cases depth' with
    | zero =>
      have hleaf := @children_of_size_le tree id (by omega)
      simp [shape.go, hleaf]
    | succ depth' =>
      rw [shape.go, shape.go]
      congr 1
      apply List.map_congr_left
      intro child hchild
      have hlt := h.lt_of_mem_children hchild
      exact ih (by omega) (by omega)

theorem shape_eq (id : Nat) : tree.shape id = .node id ((tree.children id).map tree.shape) := by
  unfold shape
  obtain ⟨depth, hdepth⟩ := Nat.exists_eq_succ_of_ne_zero (Nat.ne_of_gt h.root_lt_size)
  conv_lhs => rw [hdepth, shape.go]
  congr 1
  apply List.map_congr_left
  intro child hchild
  have hlt := h.lt_of_mem_children hchild
  exact h.shape_go_eq (by omega) (by omega)

theorem visitAll_eq_cons (id : Nat) :
    tree.visitAll id = id :: (tree.children id).flatMap tree.visitAll := by
  unfold visitAll visit
  rw [h.shape_eq, Rose.walk, Rose.walkAll_map]
  by_cases hid : id < tree.size
  · have hentry : (tree.entry? id).any (fun _ => true) = true := by
      unfold entry? node?
      rw [List.getElem?_eq_getElem hid]
      rfl
    rw [if_pos hentry]
  · rw [children_of_size_le (Nat.not_lt.1 hid)]
    split <;> rfl

theorem labels_shape (id : Nat) : (tree.shape id).labels = tree.visitAll id := by
  induction id using h.wellFounded_children.induction with
  | _ id ih =>
    rw [h.visitAll_eq_cons, h.shape_eq, Rose.labels, Rose.walk, if_pos rfl, Rose.walkAll_map]
    congr 1
    exact List.flatMap_congr ih

theorem perm_visitAll (id : Nat) :
    (tree.visitAll id).Perm (id :: (tree.visitAll id).flatMap tree.children) := by
  induction id using h.wellFounded_children.induction with
  | _ id ih =>
    rw [h.visitAll_eq_cons]
    apply List.Perm.cons
    rw [List.flatMap_cons, List.flatMap_assoc]
    have hchildren : ((tree.children id).flatMap tree.visitAll).Perm
        ((tree.children id).flatMap fun child =>
          [child] ++ (tree.visitAll child).flatMap tree.children) := List.Perm.flatMap_left _ ih
    have happend := (List.flatMap_append_perm (tree.children id) (fun child => [child])
      fun child => (tree.visitAll child).flatMap tree.children).symm
    rw [List.flatMap_singleton'] at happend
    exact hchildren.trans happend

theorem count_flatMap_children (id : Nat) (ids : List Nat) :
    (ids.flatMap tree.children).count id =
      match tree.parent? id with
      | some parent => ids.count parent
      | none => 0 := by
  induction ids with
  | nil => cases tree.parent? id <;> rfl
  | cons other ids ih =>
    rw [List.flatMap_cons, List.count_append, ih]
    cases hparent : tree.parent? id with
    | none => exact List.count_eq_zero_of_not_mem (by simp [h.mem_children_iff, hparent])
    | some parent =>
      dsimp only
      rw [h.count_children_eq hparent, List.count_cons, Nat.add_comm]
      simp only [beq_iff_eq]

theorem count_visitAll_root (id : Nat) :
    (tree.visitAll root).count id = if id < tree.size then 1 else 0 := by
  induction id using Nat.strongRecOn with
  | _ id ih =>
    rw [(h.perm_visitAll root).count_eq, List.count_cons, h.count_flatMap_children]
    by_cases hid : id < tree.size
    · rw [if_pos hid]
      cases hparent : tree.parent? id with
      | none =>
        obtain rfl := (h.parent?_eq_none_iff id hid).1 hparent
        rfl
      | some parent =>
        have hlt := h.parent_lt id parent hparent
        have hne : root ≠ id := by
          rintro rfl
          contradiction
        dsimp only
        rw [ih parent hlt, if_pos (Nat.lt_trans hlt hid)]
        simp [hne]
    · have hparent : tree.parent? id = none :=
        Option.eq_none_iff_forall_ne_some.2 fun parent hparent =>
          hid (lt_size_of_parent?_eq_some hparent)
      have hne : root ≠ id := by
        rintro rfl
        exact hid h.root_lt_size
      rw [if_neg hid, hparent]
      simp [hne]

theorem visitAll_sublist {id : Nat} (hid : id < tree.size) :
    (tree.visitAll id).Sublist (tree.visitAll root) := by
  induction id using Nat.strongRecOn with
  | _ id ih =>
    cases hparent : tree.parent? id with
    | none =>
      obtain rfl := (h.parent?_eq_none_iff id hid).1 hparent
      exact List.Sublist.refl _
    | some parent =>
      have hlt := h.parent_lt id parent hparent
      have hmem := (h.mem_children_iff parent id).2 hparent
      refine List.Sublist.trans ?_ (ih parent hlt (Nat.lt_trans hlt hid))
      rw [h.visitAll_eq_cons parent, List.flatMap_def]
      exact (List.sublist_flatten_of_mem (List.mem_map_of_mem hmem)).cons _

theorem isTraversal_visitAll : tree.IsTraversal (tree.visitAll root) where
  perm := by
    rw [List.perm_iff_count]
    intro id
    rw [h.count_visitAll_root]
    by_cases hid : id < tree.size
    · rw [if_pos hid]
      exact (List.count_eq_one_of_mem List.nodup_range (List.mem_range.2 hid)).symm
    · rw [if_neg hid, List.count_eq_zero_of_not_mem (mt List.mem_range.1 hid)]
  sublist := by
    intro id hid
    refine List.Sublist.trans ?_ (h.visitAll_sublist hid)
    rw [h.visitAll_eq_cons id, List.cons_sublist_cons]
    -- Every child comes first in what is seen from it on.
    induction tree.children id with
    | nil => exact List.Sublist.refl _
    | cons child children ih =>
      rw [List.flatMap_cons, h.visitAll_eq_cons child]
      exact (ih.trans (List.sublist_append_right _ _)).cons_cons _

theorem labels_view :
    tree.view.labels.map some = (tree.visitAll root).map tree.entry? := by
  unfold view
  rw [Rose.labels_map, h.labels_shape, List.map_map]
  apply List.map_congr_left
  intro id hid
  have hlt := List.mem_range.1 ((h.isTraversal_visitAll.perm.mem_iff).1 hid)
  obtain ⟨node, hnode⟩ : ∃ node, tree.node? id = some node :=
    ⟨_, List.getElem?_eq_getElem hlt⟩
  dsimp only [Function.comp_apply]
  unfold entry?
  rw [hnode]
  rfl

end IsArena

end Tree

end Preflight
