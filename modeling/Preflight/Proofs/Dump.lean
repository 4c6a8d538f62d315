import Preflight.Dump
import Preflight.Proofs.Syntax.Traversal
import Preflight.Proofs.Text.Quoted

/-!
This module contains that nothing is lost when tokens and syntax trees are written for people: two
lists of tokens, or two trees but for what is never shown of them, are not written in the same way.
-/

namespace Preflight

theorem Text.eq_of_name_append_eq {α : Type} {name : α → String} {a b : α} {x y : Text}
    (hspace : ∀ a, ' ' ∉ (name a).toList) (hname : ∀ a b, name a = name b → a = b)
    (h : (name a).toList ++ ' ' :: x = (name b).toList ++ ' ' :: y) : a = b ∧ x = y := by
  obtain ⟨heq, hrest⟩ := eq_of_append_cons_eq (hspace a) (hspace b) h
  exact ⟨hname a b (String.toList_inj.1 heq), hrest⟩

theorem Location.eq_of_display_append_eq {a b : Location} {c : Char} {x y : Text}
    (hc : ∀ digit, Nat.digitChar digit ≠ c) (h : a.display ++ c :: x = b.display ++ c :: y) :
    a = b ∧ x = y := by
  have hcolon : ∀ digit, Nat.digitChar digit ≠ ':' := fun _ => Nat.digitChar_ne ':' (by decide)
  simp only [display, Text.decimal, List.append_assoc, List.cons_append] at h
  obtain ⟨hline, h⟩ :=
    Text.eq_of_append_cons_eq (Text.notMem_numeral hcolon _ _) (Text.notMem_numeral hcolon _ _) h
  obtain ⟨hcolumn, hrest⟩ :=
    Text.eq_of_append_cons_eq (Text.notMem_numeral hc _ _) (Text.notMem_numeral hc _ _) h
  have hline := Text.eq_of_numeral_eq (by decide) (by decide) hline
  have hcolumn := Text.eq_of_numeral_eq (by decide) (by decide) hcolumn
  refine ⟨?_, hrest⟩
  cases a
  cases b
  simp_all [displayLine, displayColumn]

namespace Token

theorem Kind.eq_of_name_append_eq {a b : Kind} {x y : Text}
    (h : a.name.toList ++ ' ' :: x = b.name.toList ++ ' ' :: y) : a = b ∧ x = y := by
  apply Text.eq_of_name_append_eq _ _ h
  · intro kind
    cases kind <;> decide
  · intro a b
    cases a <;> cases b <;> decide

theorem eq_of_display_append_eq {a b : Token} {x y : Text} (h : a.display ++ x = b.display ++ y) :
    a = b ∧ x = y := by
  simp only [display, List.append_assoc, List.cons_append] at h
  obtain ⟨hsource, h⟩ :=
    Location.eq_of_display_append_eq (fun _ => Nat.digitChar_ne ' ' (by decide)) h
  obtain ⟨hkind, h⟩ := Kind.eq_of_name_append_eq h
  obtain ⟨htext, hrest⟩ := Text.eq_of_quote_append_eq h
  refine ⟨?_, hrest⟩
  cases a
  cases b
  simp_all

theorem eq_of_dump_text_eq {tokens tokens' : List Token}
    (h : dump tokens .text = dump tokens' .text) : tokens = tokens' := by
  simp only [dump] at h
  induction tokens generalizing tokens' with
  | nil =>
    cases tokens' with
    | nil => rfl
    | cons token' tokens' => simp at h
  | cons token tokens ih =>
    cases tokens' with
    | nil => simp at h
    | cons token' tokens' =>
      simp only [List.flatMap_cons, List.append_assoc] at h
      obtain ⟨htoken, hrest⟩ := eq_of_display_append_eq h
      rw [htoken, ih (List.append_cancel_left hrest)]

end Token

namespace Entry

def shown (entry : Entry) : Entry := { entry with corrected := false }

theorem display_shown (entry : Entry) : entry.shown.display = entry.display := rfl

end Entry

theorem Node.Kind.eq_of_name_append_eq {a b : Node.Kind} {x y : Text}
    (h : a.name.toList ++ ' ' :: x = b.name.toList ++ ' ' :: y) : a = b ∧ x = y := by
  apply Text.eq_of_name_append_eq _ _ h
  · intro kind
    cases kind <;> decide
  · intro a b
    cases a <;> cases b <;> decide

theorem Entry.shown_eq_of_display_append_eq {a b : Entry} {x y : Text}
    (h : a.display ++ '\n' :: x = b.display ++ '\n' :: y) : a.shown = b.shown ∧ x = y := by
  simp only [display, List.append_assoc, List.cons_append] at h
  obtain ⟨hkind, h⟩ := Node.Kind.eq_of_name_append_eq h
  obtain ⟨htext, h⟩ := Text.eq_of_quote_append_eq h
  obtain ⟨hsource, hrest⟩ :=
    Location.eq_of_display_append_eq (fun _ => Nat.digitChar_ne '\n' (by decide))
      (List.tail_eq_of_cons_eq h)
  refine ⟨?_, hrest⟩
  simp [shown, hkind, htext, hsource]

namespace Outline

def branch (isLast : Bool) : Text :=
  if isLast then ['└', '─', '─', ' '] else ['├', '─', '─', ' ']

def nested (isLast : Bool) : Text :=
  if isLast then [' ', ' ', ' ', ' '] else ['│', ' ', ' ', ' ']

theorem printNodes_cons (guide : Text) (node : Rose Entry) (nodes : List (Rose Entry)) :
    printNodes guide (node :: nodes) =
      printNode guide (branch nodes.isEmpty) (nested nodes.isEmpty) node ++
        printNodes guide nodes := by
  cases nodes with
  | nil =>
    rw [printNodes, printNodes, List.append_nil]
    rfl
  | cons next nodes =>
    rw [printNodes]
    rfl

def Continues (guide rest : Text) : Prop := ∃ c t, rest = guide ++ c :: t

theorem continues_printNodes_cons (guide : Text) (node : Rose Entry) (nodes : List (Rose Entry))
    (rest : Text) : ∃ c t, printNodes guide (node :: nodes) ++ rest = guide ++ c :: t ∧
      (c = '└' ∨ c = '├') := by
  have hbranch : ∃ c, branch nodes.isEmpty = [c, '─', '─', ' '] ∧ (c = '└' ∨ c = '├') := by
    cases nodes.isEmpty with
    | true => exact ⟨'└', rfl, .inl rfl⟩
    | false => exact ⟨'├', rfl, .inr rfl⟩
  obtain ⟨c, hbranch, hc⟩ := hbranch
  obtain ⟨entry, children⟩ := node
  rw [printNodes_cons, printNode, hbranch]
  simp only [List.append_assoc, List.cons_append]
  exact ⟨c, _, rfl, hc⟩

theorem not_continues_nested {guide rest : Text} (h : ¬ Continues guide rest)
    (nodes : List (Rose Entry)) :
    ¬ Continues (guide ++ nested nodes.isEmpty) (printNodes guide nodes ++ rest) := by
  rintro ⟨c, t, heq⟩
  cases nodes with
  | nil => exact h ⟨' ', _, by simpa [printNodes, nested] using heq⟩
  | cons node nodes =>
    obtain ⟨d, t', hline, hd⟩ := continues_printNodes_cons guide node nodes rest
    rw [hline, List.append_assoc, List.append_cancel_left_eq] at heq
    have hhead := List.head_eq_of_cons_eq heq
    rcases hd with rfl | rfl
    · exact absurd hhead (by decide)
    · exact absurd hhead (by decide)

theorem isEmpty_eq_of_branch_append_eq {isLast isLast' : Bool} {x y : Text}
    (h : branch isLast ++ x = branch isLast' ++ y) : isLast = isLast' ∧ x = y := by
  cases isLast <;> cases isLast' <;> simp_all [branch]

mutual

theorem eq_of_printNode_append_eq : ∀ (node node' : Rose Entry) {guide branch nested x y : Text},
    ¬ Continues (guide ++ nested) x → ¬ Continues (guide ++ nested) y →
    printNode guide branch nested node ++ x = printNode guide branch nested node' ++ y →
    node.map Entry.shown = node'.map Entry.shown ∧ x = y
  | .node entry children, .node entry' children', guide, branch, nested, x, y, hx, hy, h => by
    simp only [printNode, List.append_assoc, List.cons_append, List.append_cancel_left_eq] at h
    obtain ⟨hentry, h⟩ := Entry.shown_eq_of_display_append_eq h
    obtain ⟨hchildren, hrest⟩ := eq_of_printNodes_append_eq children children' hx hy h
    refine ⟨?_, hrest⟩
    rw [Rose.map, Rose.map, hentry, hchildren]

theorem eq_of_printNodes_append_eq : ∀ (nodes nodes' : List (Rose Entry)) {guide x y : Text},
    ¬ Continues guide x → ¬ Continues guide y →
    printNodes guide nodes ++ x = printNodes guide nodes' ++ y →
    Rose.mapAll Entry.shown nodes = Rose.mapAll Entry.shown nodes' ∧ x = y
  | [], [], _, _, _, _, _, h => ⟨rfl, h⟩
  | [], node' :: nodes', guide, x, y, hx, _, h => by
    obtain ⟨c, t, hline, _⟩ := continues_printNodes_cons guide node' nodes' y
    exact absurd ⟨c, t, h.trans hline⟩ hx
  | node :: nodes, [], guide, x, y, _, hy, h => by
    obtain ⟨c, t, hline, _⟩ := continues_printNodes_cons guide node nodes x
    exact absurd ⟨c, t, h.symm.trans hline⟩ hy
  | node :: nodes, node' :: nodes', guide, x, y, hx, hy, h => by
    have hlast : nodes.isEmpty = nodes'.isEmpty := by
      obtain ⟨entry, children⟩ := node
      obtain ⟨entry', children'⟩ := node'
      simp only [printNodes_cons, printNode, List.append_assoc, List.append_cancel_left_eq] at h
      exact (isEmpty_eq_of_branch_append_eq h).1
    have hnested := not_continues_nested hy nodes'
    simp only [printNodes_cons, List.append_assoc] at h
    rw [← hlast] at h hnested
    obtain ⟨hnode, h⟩ :=
      eq_of_printNode_append_eq node node' (not_continues_nested hx nodes) hnested h
    obtain ⟨hnodes, hrest⟩ := eq_of_printNodes_append_eq nodes nodes' hx hy h
    refine ⟨?_, hrest⟩
    rw [Rose.mapAll, Rose.mapAll, hnode, hnodes]

end

mutual

theorem printNode_map_shown : ∀ (node : Rose Entry) (guide branch nested : Text),
    printNode guide branch nested (node.map Entry.shown) = printNode guide branch nested node
  | .node entry children, guide, branch, nested => by
    rw [Rose.map, printNode, printNode, Entry.display_shown, printNodes_mapAll_shown children]

theorem printNodes_mapAll_shown : ∀ (nodes : List (Rose Entry)) (guide : Text),
    printNodes guide (Rose.mapAll Entry.shown nodes) = printNodes guide nodes
  | [], _ => rfl
  | node :: nodes, guide => by
    have hlast : (Rose.mapAll Entry.shown nodes).isEmpty = nodes.isEmpty := by
      cases nodes <;> rfl
    rw [Rose.mapAll, printNodes_cons, printNodes_cons, hlast, printNode_map_shown node,
      printNodes_mapAll_shown nodes]

end

theorem printNodes_eq_iff {nodes nodes' : List (Rose Entry)} :
    printNodes [] nodes = printNodes [] nodes' ↔
      Rose.mapAll Entry.shown nodes = Rose.mapAll Entry.shown nodes' := by
  constructor
  · intro h
    have hend : ¬ Continues [] [] := by
      rintro ⟨c, t, heq⟩
      contradiction
    apply (eq_of_printNodes_append_eq nodes nodes' hend hend _).1
    rw [h]
  · intro h
    rw [← printNodes_mapAll_shown nodes, h, printNodes_mapAll_shown]

def shown : Rose Entry → Rose Entry
  | .node entry children =>
    .node { entry.shown with text := [] } (Rose.mapAll Entry.shown children)

end Outline

namespace Tree

variable {tree tree' : Tree}

theorem IsGrown.exists_entry?_root (h : tree.IsGrown) :
    ∃ text corrected, tree.entry? root = some ⟨.statement, text, .start, corrected⟩ := by
  induction h with
  | empty => exact ⟨[], false, rfl⟩
  | push h _ _ ih => rwa [entry?_push_of_lt _ _ _ h.isArena.root_lt_size]
  | @setText tree _ id text ih =>
    obtain ⟨old, corrected, hroot⟩ := ih
    by_cases hid : root = id
    · subst hid
      exact ⟨text, true, by rw [entry?_setText_self, hroot]; rfl⟩
    · exact ⟨old, corrected, by rw [entry?_setText_of_ne _ _ _ hid, hroot]⟩

theorem IsGrown.shown_view (h : tree.IsGrown) :
    Outline.shown tree.view =
      .node ⟨.statement, [], .start, false⟩ (Rose.mapAll Entry.shown tree.view.children) := by
  obtain ⟨text, corrected, hroot⟩ := h.exists_entry?_root
  unfold view
  rw [h.isArena.shape_eq, Rose.map, hroot]
  rfl

theorem IsGrown.outline_eq_iff (h : tree.IsGrown) (h' : tree'.IsGrown) :
    tree.outline = tree'.outline ↔ Outline.shown tree.view = Outline.shown tree'.view := by
  unfold outline
  rw [List.append_cancel_left_eq, Outline.printNodes_eq_iff, h.shown_view, h'.shown_view]
  simp

end Tree

/--
Tokens that are written in the same way are the same, and so are the views of trees that are written
in the same way, but for the text of the root and the marks of corrected texts. So no text can look
like something that does not belong to it.
-/
theorem dump_text_eq_iff :
    (∀ tokens tokens', Token.dump tokens .text = Token.dump tokens' .text ↔ tokens = tokens') ∧
    ∀ tree tree' : Tree, tree.IsGrown → tree'.IsGrown →
      (tree.dump .text = tree'.dump .text ↔
        Outline.shown tree.view = Outline.shown tree'.view) := by
  constructor
  · intro tokens tokens'
    constructor
    · exact Token.eq_of_dump_text_eq
    · rintro rfl
      rfl
  · intro tree tree' h h'
    exact h.outline_eq_iff h'

namespace Tree

def imitation : Tree :=
  empty.push root ⟨.option, "a\" 1:1\n└── option \"b".toList, .start, false⟩

def twoOptions : Tree :=
  (empty.push root ⟨.option, ['a'], .start, false⟩).push root ⟨.option, ['b'], .start, false⟩

end Tree

theorem dump_text_eq_iff_imitation :
    Tree.imitation.IsGrown ∧ Tree.twoOptions.IsGrown ∧
      Tree.imitation.dump .text ≠ Tree.twoOptions.dump .text ∧
      (Tree.twoOptions.setText 1 ['a']).dump .text = Tree.twoOptions.dump .text := by
  have himitation : Tree.imitation.IsGrown := .push .empty (by decide) _
  have htwo : Tree.twoOptions.IsGrown := .push (.push .empty (by decide) _) (by decide) _
  refine ⟨himitation, htwo, ?_, ?_⟩
  · intro h
    have hview := (dump_text_eq_iff.2 _ _ himitation htwo).1 h
    have hlength := congrArg (·.children.length) hview
    exact absurd hlength (by decide)
  · exact (dump_text_eq_iff.2 _ _ (htwo.setText 1 ['a']) htwo).2 rfl

end Preflight
