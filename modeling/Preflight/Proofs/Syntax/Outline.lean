import Preflight.Proofs.Syntax.Traversal
import Preflight.Proofs.Text.Quoted
import Preflight.Syntax.Outline

/-!
This module contains what the outline of a syntax tree looks like, line by line, and that whatever
goes through a tree from its root comes to an end and meets every node once.
-/

namespace Preflight

namespace Text

section newline

theorem newline_notMem_numeral (base n : Nat) : '\n' ∉ numeral base n :=
  notMem_numeral (fun _ => Nat.digitChar_ne '\n' (by decide)) base n

theorem newline_notMem_escapeChar (c : Char) : '\n' ∉ escapeChar c := by
  unfold escapeChar
  repeat' split
  all_goals try decide
  · next hnewline _ _ _ => simpa using Ne.symm hnewline
  · simpa [hexadecimal] using newline_notMem_numeral 16 c.toNat

theorem newline_notMem_quote (t : Text) : '\n' ∉ quote t := by
  simp [quote, newline_notMem_escapeChar]

end newline

end Text

theorem Entry.newline_notMem_display (entry : Entry) : '\n' ∉ entry.display := by
  have hname : '\n' ∉ entry.kind.name.toList := by
    cases entry.kind <;> decide
  have hquote := Text.newline_notMem_quote entry.text
  have hdecimal := Text.newline_notMem_numeral 10
  simp [Entry.display, Location.display, Text.decimal, hname, hquote, hdecimal]

namespace Outline

def IsGuide (t : Text) : Prop := ∀ c ∈ t, c ∈ ['│', '├', '└', '─', ' ']

def IsLineOf (line : Text) (entry : Entry) : Prop :=
  ∃ guide, IsGuide guide ∧ line = guide ++ entry.display

theorem IsGuide.append {s t : Text} (hs : IsGuide s) (ht : IsGuide t) : IsGuide (s ++ t) :=
  List.forall_mem_append.2 ⟨hs, ht⟩

theorem IsLineOf.newline_notMem {line : Text} {entry : Entry} (h : IsLineOf line entry) :
    '\n' ∉ line := by
  obtain ⟨guide, hguide, rfl⟩ := h
  rw [List.mem_append, not_or]
  exact ⟨fun hmem => absurd (hguide _ hmem) (by decide), entry.newline_notMem_display⟩

mutual

theorem exists_lines_printNode : ∀ (node : Rose Entry) {guide branch nested : Text},
    IsGuide guide → IsGuide branch → IsGuide nested →
    ∃ lines, printNode guide branch nested node = lines.flatMap (· ++ ['\n']) ∧
      List.Forall₂ IsLineOf lines node.labels
  | .node entry children, guide, branch, nested, hguide, hbranch, hnested => by
    obtain ⟨lines, heq, hlines⟩ := exists_lines_printNodes children (hguide.append hnested)
    refine ⟨(guide ++ branch ++ entry.display) :: lines, ?_, ?_⟩
    · rw [printNode, heq, List.flatMap_cons]
      simp
    · exact .cons ⟨_, hguide.append hbranch, rfl⟩ hlines

theorem exists_lines_printNodes : ∀ (nodes : List (Rose Entry)) {guide : Text}, IsGuide guide →
    ∃ lines, printNodes guide nodes = lines.flatMap (· ++ ['\n']) ∧
      List.Forall₂ IsLineOf lines (Rose.walkAll (fun _ => true) nodes)
  | [], _, _ => ⟨[], rfl, .nil⟩
  | node :: nodes, guide, hguide => by
    have hspaces : IsGuide [' ', ' ', ' ', ' '] := by simp [IsGuide]
    have hbar : IsGuide ['│', ' ', ' ', ' '] := by simp [IsGuide]
    have hlast : IsGuide ['└', '─', '─', ' '] := by simp [IsGuide]
    have hmiddle : IsGuide ['├', '─', '─', ' '] := by simp [IsGuide]
    obtain ⟨later, hlater, hlines⟩ := exists_lines_printNodes nodes hguide
    rw [Rose.walkAll]
    cases nodes with
    | nil =>
      obtain ⟨lines, heq, hnode⟩ := exists_lines_printNode node hguide hlast hspaces
      refine ⟨lines, ?_, ?_⟩
      · rw [printNodes, heq]
      · rw [Rose.walkAll, List.append_nil]
        exact hnode
    | cons next nodes =>
      obtain ⟨lines, heq, hnode⟩ := exists_lines_printNode node hguide hmiddle hbar
      refine ⟨lines ++ later, ?_, ?_⟩
      · rw [printNodes, heq, hlater, List.flatMap_append]
      · exact List.rel_append hnode hlines

end

end Outline

namespace Tree

variable {tree : Tree}

theorem exists_lines_outline (tree : Tree) :
    ∃ lines, tree.outline = ("statement".toList :: lines).flatMap (· ++ ['\n']) ∧
      List.Forall₂ Outline.IsLineOf lines tree.view.labels.tail := by
  unfold outline
  obtain ⟨label, children⟩ := tree.view
  have hguide : Outline.IsGuide [] := by simp [Outline.IsGuide]
  obtain ⟨lines, heq, hlines⟩ := Outline.exists_lines_printNodes children hguide
  refine ⟨lines, ?_, hlines⟩
  rw [List.flatMap_cons, ← heq]
  rfl

theorem IsArena.length_labels_view (h : tree.IsArena) : tree.view.labels.length = tree.size := by
  have hlength := congrArg List.length h.labels_view
  rw [List.length_map, List.length_map, h.isTraversal_visitAll.perm.length_eq,
    List.length_range] at hlength
  exact hlength

theorem isTraversal_of_isGrown (h : tree.IsGrown) :
    (∀ id, id < tree.size → id ≠ root → ∃ parent, tree.parent? id = some parent ∧ parent < id ∧
      ∀ other, (tree.children other).count id = if other = parent then 1 else 0) ∧
    (∀ id, (tree.children id).Pairwise (· < ·)) ∧
    (∀ target text, tree.SameStructure (tree.setText target text)) ∧
    (WellFounded fun child id => child ∈ tree.children id) ∧
    (∀ id, tree.shape id = .node id ((tree.children id).map tree.shape)) ∧
    tree.IsTraversal (tree.visit (fun _ => true) root) ∧
    tree.view.labels.map some = (tree.visit (fun _ => true) root).map tree.entry? ∧
    tree.view.labels.length = tree.size ∧
    ∃ lines, tree.outline = ("statement".toList :: lines).flatMap (· ++ ['\n']) ∧
      (∀ line ∈ "statement".toList :: lines, '\n' ∉ line) ∧
      lines.length + 1 = tree.size ∧ List.Forall₂ Outline.IsLineOf lines tree.view.labels.tail := by
  have harena := h.isArena
  obtain ⟨lines, heq, hlines⟩ := exists_lines_outline tree
  refine ⟨fun id => harena.exists_parent, harena.pairwise_children, tree.sameStructure_setText,
    harena.wellFounded_children, harena.shape_eq, harena.isTraversal_visitAll, harena.labels_view,
    harena.length_labels_view, lines, heq, ?_, ?_, hlines⟩
  · rw [List.forall_mem_cons]
    refine ⟨by decide, fun line hmem => ?_⟩
    obtain ⟨entry, _, hline⟩ := exists_mem_of_forall₂ hlines hmem
    exact hline.newline_notMem
  · have hsize := harena.root_lt_size
    rw [hlines.length_eq, List.length_tail, harena.length_labels_view]
    exact Nat.sub_add_cancel hsize

def threeLevels : Tree :=
  let entry kind text : Entry := ⟨kind, text, .start, false⟩
  let tree := (empty.push root (entry .command ['l', 's'])).push root (entry .option ['-', 'a'])
  let tree := (tree.push 2 (entry .identifier ['-'])).push root (entry .option ['-', 'b'])
  (tree.push 2 (entry .parameter ['a'])).setText 3 ['a', '\n']

theorem isTraversal_of_isGrown_threeLevels :
    threeLevels.IsGrown ∧ threeLevels.IsTraversal [0, 1, 2, 3, 5, 4] ∧
      threeLevels.view.labels.length = 6 := by
  have hgrown : threeLevels.IsGrown := by
    unfold threeLevels
    refine .setText (.push (.push (.push (.push (.push .empty ?_ _) ?_ _) ?_ _) ?_ _) ?_ _) _ _
    all_goals decide
  obtain ⟨_, _, _, _, _, horder, _, hlength, _⟩ := isTraversal_of_isGrown hgrown
  exact ⟨hgrown, horder, hlength⟩

end Tree

end Preflight
