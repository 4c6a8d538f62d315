import Preflight.Syntax.Tree

/-!
This module contains how the nodes of a syntax tree change when a node is added or a text is
replaced, and what a visit sees that does not descend.
-/

namespace Preflight

namespace Rose

variable {α : Type}

theorem walk_of_not_descends {descends : α → Bool} {tree : Rose α}
    (h : descends tree.label = false) : tree.walk descends = [tree.label] := by
  cases tree with
  | node label children =>
    unfold walk
    unfold Rose.label at h
    simp [h, Rose.label]

theorem walkAll_of_not_descends {descends : α → Bool} {trees : List (Rose α)}
    (h : ∀ tree ∈ trees, descends tree.label = false) :
    walkAll descends trees = trees.map label := by
  induction trees with
  | nil => rfl
  | cons tree trees ih =>
    unfold walkAll
    rw [walk_of_not_descends (h tree List.mem_cons_self)]
    rw [ih fun t ht => h t (List.mem_cons_of_mem tree ht)]
    rfl

end Rose

namespace Tree

theorem label_shape_go (tree : Tree) (depth id : Nat) : (shape.go tree depth id).label = id := by
  cases depth <;> rfl

theorem visit_root {tree : Tree} {descends : Node.Kind → Bool} (hsize : root < tree.size)
    (hroot : (tree.entry? root).any (descends ·.kind) = true)
    (hchildren : ∀ id ∈ tree.children root, (tree.entry? id).any (descends ·.kind) = false) :
    tree.visit descends root = root :: tree.children root := by
  unfold visit shape
  obtain ⟨depth, hdepth⟩ := Nat.exists_eq_add_of_lt hsize
  rw [hdepth]
  unfold shape.go Rose.walk
  rw [if_pos hroot, Rose.walkAll_of_not_descends]
  · simp [Function.comp_def, label_shape_go]
  · intro t ht
    obtain ⟨id, hid, rfl⟩ := List.mem_map.1 ht
    rw [label_shape_go]
    exact hchildren id hid

theorem lt_size_of_node? {tree : Tree} {id : Nat} {node : Node} (h : tree.node? id = some node) :
    id < tree.size := by
  unfold node? at h
  exact (List.getElem?_eq_some_iff.1 h).1

theorem lt_size_of_entry?_eq_some {tree : Tree} {id : Nat} {entry : Entry}
    (h : tree.entry? id = some entry) : id < tree.size := by
  obtain ⟨node, hnode, _⟩ := Option.map_eq_some_iff.1 h
  exact lt_size_of_node? hnode

theorem lt_size_of_mem_children {tree : Tree} {id child : Nat} (h : child ∈ tree.children id) :
    id < tree.size := by
  unfold children at h
  split at h
  · next hnode => exact lt_size_of_node? hnode
  · simp at h

section push

variable (tree : Tree) (parent : Nat) (entry : Entry)

theorem lt_size_push {id : Nat} (h : id ≤ tree.size) : id < (tree.push parent entry).size := by
  rw [size_push]
  omega

theorem node?_push_of_lt {id : Nat} (h : id < tree.size) :
    (tree.push parent entry).node? id =
      (tree.node? id).map fun node =>
        if parent = id then { node with children := node.children ++ [tree.size] } else node := by
  unfold push node?
  rw [List.getElem?_append_left (by simpa [size] using h), List.getElem?_modify]
  cases tree.nodes[id]? <;> split <;> rfl

theorem node?_push_size :
    (tree.push parent entry).node? tree.size = some ⟨entry, [], some parent⟩ := by
  unfold push node? size
  simp

theorem entry?_push_of_lt {id : Nat} (h : id < tree.size) :
    entry? (tree.push parent entry) id = tree.entry? id := by
  unfold entry?
  rw [node?_push_of_lt tree parent entry h, Option.map_map]
  congr 1
  funext node
  dsimp only [Function.comp_apply]
  split <;> rfl

theorem entry?_push_size : entry? (tree.push parent entry) tree.size = some entry := by
  unfold entry?
  rw [node?_push_size]
  rfl

theorem children_push_of_ne {id : Nat} (hne : id ≠ parent) (h : id < tree.size) :
    (tree.push parent entry).children id = tree.children id := by
  unfold children
  rw [node?_push_of_lt tree parent entry h]
  simp only [if_neg (Ne.symm hne)]
  cases tree.node? id <;> rfl

theorem children_push_self (h : parent < tree.size) :
    (tree.push parent entry).children parent = tree.children parent ++ [tree.size] := by
  unfold children
  rw [node?_push_of_lt tree parent entry h]
  unfold node?
  rw [List.getElem?_eq_getElem (by simpa [size] using h)]
  simp

theorem children_push_size : (tree.push parent entry).children tree.size = [] := by
  unfold children
  rw [node?_push_size]

end push

section setText

variable (tree : Tree) (target : Nat) (text : Text)

theorem node?_setText (id : Nat) :
    (tree.setText target text).node? id =
      (tree.node? id).map fun node =>
        if target = id then
          { node with entry := { node.entry with text := text, corrected := true } }
        else
          node := by
  unfold setText node?
  rw [List.getElem?_modify]
  cases tree.nodes[id]? <;> split <;> rfl

@[simp]
theorem children_setText (id : Nat) :
    (tree.setText target text).children id = tree.children id := by
  unfold children
  rw [node?_setText]
  cases tree.node? id with
  | none => rfl
  | some node =>
    dsimp only [Option.map_some]
    split <;> rfl

theorem entry?_setText_of_ne {id : Nat} (h : id ≠ target) :
    entry? (tree.setText target text) id = tree.entry? id := by
  unfold entry?
  rw [node?_setText]
  simp only [if_neg (Ne.symm h)]
  cases tree.node? id <;> rfl

theorem entry?_setText_self :
    entry? (tree.setText target text) target =
      (tree.entry? target).map fun entry => { entry with text := text, corrected := true } := by
  unfold entry?
  rw [node?_setText]
  simp only [if_pos]
  cases tree.node? target <;> rfl

end setText

end Tree

end Preflight
