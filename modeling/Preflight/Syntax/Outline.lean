import Preflight.Syntax.Tree

/-!
This module contains the two written forms of a syntax tree: as an outline with guide lines, one
node on a line, and as a structured value.
-/

namespace Preflight

namespace Entry

def display (entry : Entry) : Text :=
  entry.kind.name.toList ++ ' ' :: Text.quote entry.text ++ ' ' :: entry.source.display

end Entry

namespace Outline

mutual

def printNode (guide branch nested : Text) : Rose Entry → Text
  | .node entry children =>
    guide ++ branch ++ entry.display ++ '\n' :: printNodes (guide ++ nested) children

def printNodes (guide : Text) : List (Rose Entry) → Text
  | [] => []
  | node :: nodes =>
    match nodes with
    | [] => printNode guide ['└', '─', '─', ' '] [' ', ' ', ' ', ' '] node
    | _ :: _ =>
      printNode guide ['├', '─', '─', ' '] ['│', ' ', ' ', ' '] node ++ printNodes guide nodes

end

end Outline

namespace Tree

def outline (tree : Tree) : Text :=
  "statement\n".toList ++ Outline.printNodes [] tree.view.children

end Tree

namespace Location

def toJson (loc : Location) : Json :=
  .record [("line".toList, .number loc.line), ("column".toList, .number loc.column)]

end Location

namespace Entry

def members (entry : Entry) : List (Text × Json) :=
  [("kind".toList, .text entry.kind.name.toList), ("text".toList, .text entry.text),
      ("source".toList, entry.source.toJson)]
    ++ if entry.corrected then [("corrected".toList, .flag true)] else []

end Entry

namespace Outline

mutual

def toJson : Rose Entry → Json
  | .node entry children =>
    .record (entry.members ++
      if children.isEmpty then [] else [("children".toList, .list (toJsonAll children))])

def toJsonAll : List (Rose Entry) → List Json
  | [] => []
  | node :: nodes => toJson node :: toJsonAll nodes

end

end Outline

end Preflight
