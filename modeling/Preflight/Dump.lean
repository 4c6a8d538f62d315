import Preflight.Plan
import Preflight.Problem
import Preflight.Syntax.Outline

/-!
This module contains the written forms of what the stages of checking a command line come to, for
people and as JSON.
-/

namespace Preflight

inductive Dump where
  | tokens
  | tree
  | plan
  deriving DecidableEq, Repr

namespace Dump

inductive Format where
  | text
  | json
  deriving DecidableEq, Repr

end Dump

namespace Token

def toJson (token : Token) : Json :=
  .record [("kind".toList, .text token.kind.name.toList), ("text".toList, .text token.text),
    ("source".toList, token.source.toJson)]

def dump (tokens : List Token) : Dump.Format → Text
  | .text => tokens.flatMap fun token => token.display ++ ['\n']
  | .json => (Json.list (tokens.map toJson)).pretty

end Token

namespace Tree

def dump (tree : Tree) : Dump.Format → Text
  | .text => tree.outline
  | .json => (Outline.toJson tree.view).pretty

end Tree

namespace Plan

/--
A plan as a record. There is no record for a path that is not UTF-8, but a message that says so.
-/
def toJson (plan : Plan) : Except Text Json :=
  match Utf8.decode? plan.path with
  | some path =>
    .ok (.record [("path".toList, .text path),
      ("argv".toList, .list (plan.arguments.map .text)),
      ("envp".toList, .list (plan.assignments.map fun (name, value) =>
        .list [.text name, .text value]))])
  | none => .error "path contains invalid UTF-8 characters".toList

def describe (plan : Plan) : Text :=
  "path: ".toList ++ plan.path.display ++ "\nargv: ".toList ++ Text.quoteList plan.arguments
    ++ '\n' :: plan.assignments.flatMap fun (name, value) =>
      "env:  ".toList ++ name ++ '=' :: value ++ ['\n']

def dump (plan : Plan) : Dump.Format → Except Text Text
  | .text => .ok plan.describe
  | .json => plan.toJson.map Json.pretty

end Plan

namespace Diagnostic

def toJson (diagnostic : Diagnostic) : Json :=
  .record [("annotation".toList, .text diagnostic.hint), ("domain".toList, .text diagnostic.domain),
    ("length".toList, .number diagnostic.length), ("message".toList, .text diagnostic.message),
    ("severity".toList, .text diagnostic.severity.name.toList),
    ("source".toList, .record [("column".toList, .number diagnostic.source.column),
      ("line".toList, .number diagnostic.source.line)])]

end Diagnostic

namespace Failure

def toJson (failure : Failure) : Json :=
  .record [("diagnostic".toList, failure.diagnostic.toJson),
    ("kind".toList, .text failure.stage.name.toList)]

end Failure

end Preflight
