import Preflight.Dump
import Preflight.Proofs.Text.Json
import Preflight.Proofs.Text.Utf8.Decode

/-!
This module contains what a dump is, character by character: the lines of tokens and plans, the guide
lines of a syntax tree, and the records of all of them.
-/

namespace Preflight

namespace Location

def shown (loc : Location) : Text :=
  Nat.toDigits 10 (loc.line + 1) ++ ':' :: Nat.toDigits 10 (loc.column + 1)

def record (loc : Location) : Json :=
  .record [("line".toList, .number loc.line), ("column".toList, .number loc.column)]

theorem display_eq_shown (loc : Location) : loc.display = loc.shown := by
  unfold display shown
  rw [Text.decimal_eq_toDigits, Text.decimal_eq_toDigits]
  rfl

end Location

namespace Token

inductive IsLine (token : Token) : Text → Prop where
  | intro {quoted : Text} (h : Text.IsQuoted token.text quoted) :
    IsLine token
      (token.source.shown ++ ' ' :: token.kind.name.toList ++ ' ' :: quoted ++ ['\n'])

def record (token : Token) : Json :=
  .record [("kind".toList, .text token.kind.name.toList), ("text".toList, .text token.text),
    ("source".toList, token.source.record)]

theorem forall₂_isLine (tokens : List Token) :
    List.Forall₂ IsLine tokens (tokens.map fun token => token.display ++ ['\n']) := by
  rw [List.forall₂_map_right_iff, List.forall₂_same]
  intro token _
  unfold display
  rw [Location.display_eq_shown]
  exact .intro (Text.isQuoted_quote token.text)

end Token

namespace Entry

inductive IsLine (entry : Entry) : Text → Prop where
  | intro {quoted : Text} (h : Text.IsQuoted entry.text quoted) :
    IsLine entry (entry.kind.name.toList ++ ' ' :: quoted ++ ' ' :: entry.source.shown ++ ['\n'])

theorem isLine_display (entry : Entry) : entry.IsLine (entry.display ++ ['\n']) := by
  unfold display
  rw [Location.display_eq_shown]
  exact .intro (Text.isQuoted_quote entry.text)

end Entry

namespace Outline

inductive IsDrawn : Text → List (Rose Entry) → Text → Prop where
  | nil (guide : Text) : IsDrawn guide [] []
  | last {guide line below : Text} {entry : Entry} {children : List (Rose Entry)}
    (hline : entry.IsLine line) (hbelow : IsDrawn (guide ++ "    ".toList) children below) :
    IsDrawn guide [.node entry children] (guide ++ "└── ".toList ++ line ++ below)
  | next {guide line below others : Text} {entry : Entry} {children nodes : List (Rose Entry)}
    (hline : entry.IsLine line) (hbelow : IsDrawn (guide ++ "│   ".toList) children below)
    (hne : nodes ≠ []) (hothers : IsDrawn guide nodes others) :
    IsDrawn guide (.node entry children :: nodes)
      (guide ++ "├── ".toList ++ line ++ below ++ others)

inductive IsRecord : Rose Entry → Json → Prop where
  | node {entry : Entry} {children : List (Rose Entry)} {records : List Json}
    (h : List.Forall₂ IsRecord children records) :
    IsRecord (.node entry children)
      (.record ([("kind".toList, .text entry.kind.name.toList), ("text".toList, .text entry.text),
          ("source".toList, entry.source.record)]
        ++ (if entry.corrected then [("corrected".toList, .flag true)] else [])
        ++ (if children.isEmpty then [] else [("children".toList, .list records)])))

theorem isDrawn_printNodes : ∀ (nodes : List (Rose Entry)) (guide : Text),
    IsDrawn guide nodes (printNodes guide nodes)
  | [], guide => .nil guide
  | [.node entry children], guide => by
    have h := IsDrawn.last entry.isLine_display
      (isDrawn_printNodes children (guide ++ "    ".toList))
    rw [printNodes, printNode]
    simpa using h
  | .node entry children :: next :: nodes, guide => by
    have h := IsDrawn.next entry.isLine_display
      (isDrawn_printNodes children (guide ++ "│   ".toList)) (List.cons_ne_nil next nodes)
      (isDrawn_printNodes (next :: nodes) guide)
    rw [printNodes, printNode]
    simpa using h

mutual

theorem isRecord_toJson : ∀ node : Rose Entry, IsRecord node (toJson node)
  | .node entry children => by
    rw [toJson]
    exact .node (forall₂_isRecord children)

theorem forall₂_isRecord : ∀ nodes : List (Rose Entry),
    List.Forall₂ IsRecord nodes (toJsonAll nodes)
  | [] => .nil
  | node :: nodes => .cons (isRecord_toJson node) (forall₂_isRecord nodes)

end

end Outline

namespace Plan

def record (plan : Plan) (path : Text) : Json :=
  .record [("path".toList, .text path), ("argv".toList, .list (plan.arguments.map .text)),
    ("envp".toList, .list (plan.assignments.map fun (name, value) =>
      .list [.text name, .text value]))]

theorem toJson_eq_ok_iff {plan : Plan} {json : Json} :
    plan.toJson = .ok json ↔ ∃ path, plan.path = Utf8.encode path ∧ json = plan.record path := by
  simp only [← Utf8.decode?_eq_some_iff]
  unfold toJson
  cases Utf8.decode? plan.path with
  | none => simp
  | some path => simp [record, eq_comm]

theorem toJson_eq_error_iff {plan : Plan} {message : Text} :
    plan.toJson = .error message ↔ (∀ path, plan.path ≠ Utf8.encode path) ∧
      message = "path contains invalid UTF-8 characters".toList := by
  simp only [ne_eq, ← Utf8.decode?_eq_some_iff]
  unfold toJson
  cases Utf8.decode? plan.path with
  | none => simp [eq_comm]
  | some path => simp

end Plan

namespace Dump

inductive Content where
  | tokens (tokens : List Token)
  | tree (tree : Tree)
  | plan (plan : Plan)

namespace Content

inductive IsWritten : Content → Format → Text → Prop where
  | tokens {tokens : List Token} {lines : List Text} (h : List.Forall₂ Token.IsLine tokens lines) :
    IsWritten (.tokens tokens) .text lines.flatten
  | tree {tree : Tree} {rows : Text} (h : Outline.IsDrawn [] tree.view.children rows) :
    IsWritten (.tree tree) .text ("statement\n".toList ++ rows)
  | plan {plan : Plan} {arguments : List Text}
    (h : List.Forall₂ Text.IsQuoted plan.arguments arguments) :
    IsWritten (.plan plan) .text
      ("path: ".toList ++ plan.path.display
        ++ "\nargv: [".toList ++ [',', ' '].intercalate arguments ++ "]\n".toList
        ++ plan.assignments.flatMap fun (name, value) =>
          "env:  ".toList ++ name ++ ['='] ++ value ++ ['\n'])
  | tokensJson {tokens : List Token} {t : Text}
    (h : Json.IsPretty (.list (tokens.map Token.record)) t) :
    IsWritten (.tokens tokens) .json (t ++ ['\n'])
  | treeJson {tree : Tree} {record : Json} {t : Text} (hrecord : Outline.IsRecord tree.view record)
    (h : Json.IsPretty record t) : IsWritten (.tree tree) .json (t ++ ['\n'])
  | planJson {plan : Plan} {path t : Text} (hpath : plan.path = Utf8.encode path)
    (h : Json.IsPretty (plan.record path) t) : IsWritten (.plan plan) .json (t ++ ['\n'])

def dump (format : Format) : Content → Except Text Text
  | .tokens found => .ok (Token.dump found format)
  | .tree parsed => .ok (parsed.dump format)
  | .plan planned => planned.dump format

def IsUnwritable (format : Format) (content : Content) : Prop :=
  format = .json ∧ ∃ plan, content = .plan plan ∧ ∀ path, plan.path ≠ Utf8.encode path

variable {content : Content} {format : Format} {t : Text}

theorem isWritten_tokens (tokens : List Token) (format : Format) :
    (Content.tokens tokens).IsWritten format (Token.dump tokens format) := by
  cases format with
  | text =>
    unfold Token.dump
    rw [List.flatMap_def]
    exact .tokens (Token.forall₂_isLine tokens)
  | json =>
    obtain ⟨s, hs, hpretty⟩ := Json.exists_pretty_eq (.list (tokens.map Token.toJson))
    unfold Token.dump
    rw [hpretty]
    exact .tokensJson hs

theorem isWritten_tree (tree : Tree) (format : Format) :
    (Content.tree tree).IsWritten format (tree.dump format) := by
  cases format with
  | text => exact .tree (Outline.isDrawn_printNodes _ _)
  | json =>
    obtain ⟨s, hs, hpretty⟩ := Json.exists_pretty_eq (Outline.toJson tree.view)
    unfold Tree.dump
    rw [hpretty]
    exact .treeJson (Outline.isRecord_toJson _) hs

theorem isWritten_describe (plan : Plan) : (Content.plan plan).IsWritten .text plan.describe := by
  have hquoted : List.Forall₂ Text.IsQuoted plan.arguments (plan.arguments.map Text.quote) :=
    List.forall₂_map_right_iff.2 (List.forall₂_same.2 fun t _ => Text.isQuoted_quote t)
  have hwritten := IsWritten.plan hquoted
  unfold Plan.describe Text.quoteList
  simpa using hwritten

theorem isWritten_pretty {plan : Plan} {json : Json} (h : plan.toJson = .ok json) :
    (Content.plan plan).IsWritten .json json.pretty := by
  obtain ⟨path, hpath, rfl⟩ := Plan.toJson_eq_ok_iff.1 h
  obtain ⟨s, hs, hpretty⟩ := Json.exists_pretty_eq (plan.record path)
  rw [hpretty]
  exact .planJson hpath hs

theorem isWritten_of_dump_eq_ok (h : content.dump format = .ok t) : content.IsWritten format t := by
  cases content with
  | tokens tokens =>
    obtain rfl := Except.ok.inj h
    exact isWritten_tokens tokens format
  | tree tree =>
    obtain rfl := Except.ok.inj h
    exact isWritten_tree tree format
  | plan plan =>
    cases format with
    | text =>
      obtain rfl := Except.ok.inj h
      exact isWritten_describe plan
    | json =>
      replace h : plan.toJson.map Json.pretty = .ok t := h
      cases hjson : plan.toJson with
      | error message =>
        rw [hjson] at h
        contradiction
      | ok json =>
        rw [hjson] at h
        obtain rfl := Except.ok.inj h
        exact isWritten_pretty hjson

theorem dump_eq_error_iff : content.dump format = .error t ↔
    content.IsUnwritable format ∧ t = "path contains invalid UTF-8 characters".toList := by
  cases content with
  | tokens found => simp [dump, IsUnwritable]
  | tree parsed => simp [dump, IsUnwritable]
  | plan planned =>
    cases format with
    | text => simp [dump, Plan.dump, IsUnwritable]
    | json =>
      have hmap : (Content.plan planned).dump .json = .error t ↔ planned.toJson = .error t := by
        change planned.toJson.map Json.pretty = .error t ↔ _
        cases planned.toJson <;> simp [Except.map]
      rw [hmap, Plan.toJson_eq_error_iff]
      simp [IsUnwritable]

end Content

end Dump

end Preflight
