/-!
This module contains trees in which a node has a label and any number of subtrees.
-/

namespace Preflight

inductive Rose (α : Type u) where
  | node (label : α) (children : List (Rose α))

namespace Rose

variable {α : Type u} {β : Type v}

def label : Rose α → α
  | node label _ => label

def children : Rose α → List (Rose α)
  | node _ children => children

mutual

def map (f : α → β) : Rose α → Rose β
  | node label children => node (f label) (mapAll f children)

def mapAll (f : α → β) : List (Rose α) → List (Rose β)
  | [] => []
  | tree :: trees => map f tree :: mapAll f trees

end

mutual

def walk (descends : α → Bool) : Rose α → List α
  | node label children => label :: if descends label then walkAll descends children else []

def walkAll (descends : α → Bool) : List (Rose α) → List α
  | [] => []
  | tree :: trees => walk descends tree ++ walkAll descends trees

end

def labels (tree : Rose α) : List α := tree.walk fun _ => true

end Rose

end Preflight
