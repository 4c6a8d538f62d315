import Preflight.Proofs.Syntax.Parser
import Preflight.Proofs.Token.Cut
import Preflight.Proofs.Word.Written

/-!
This module contains the grammar of statements, said of the items of a command line: assignments up
to the first item that can be a command, that command, and arguments after it. The parser, which
sees one token at a time, computes it on every text.
-/

namespace Preflight

namespace Placed

def content? (placed : Placed) : Option (Text × Location) :=
  match placed.item with
  | .word text => some (text, placed.source)
  | .quoted quote interior | .unclosed quote interior =>
    some (interior, placed.source.advance quote)
  | .punctuation _ _ => none

def halves? (text : Text) : Option (Text × Text) :=
  if '=' ∈ text then some (text.takeWhile (· != '='), (text.dropWhile (· != '=')).tail) else none

def isCommand (placed : Placed) : Bool := placed.content?.any fun (text, _) => Word.isCommand text

def command? (placed : Placed) : Option Clause :=
  placed.content?.map fun (text, source) => .command text source

def assignmentOf? (text : Text) (source : Location) : Option Clause :=
  (halves? text).bind fun (name, value) =>
    if Word.isVariableName name then some (.assignment text source name value) else none

def assignment? (placed : Placed) : Option Clause :=
  placed.content?.bind fun (text, source) => assignmentOf? text source

def startsArgument (c : Char) : Bool :=
  'a' ≤ c && c ≤ 'z' || 'A' ≤ c && c ≤ 'Z' || c == '_' || c == '-'

def argument? (placed : Placed) : Option Clause :=
  match placed.item with
  | .word text =>
    if text.head?.any startsArgument then some (.argument text placed.source (halves? text))
    else none
  | .quoted quote interior | .unclosed quote interior =>
    some (.argument interior (placed.source.advance quote) none)
  | .punctuation _ _ => none

def statement (items : List Placed) : List Clause :=
  (items.takeWhile (!·.isCommand)).filterMap assignment? ++
    match items.dropWhile (!·.isCommand) with
    | [] => []
    | command :: arguments => command.command?.toList ++ arguments.filterMap argument?

theorem halves?_eq_splitAssignment (text : Text) : halves? text = Word.splitAssignment text := by
  unfold halves?
  by_cases hmem : '=' ∈ text
  · obtain ⟨name, value, rfl, hname⟩ := List.eq_append_cons_of_mem hmem
    have hall : ∀ c ∈ name, (c != '=') = true := by
      intro c hc
      simp only [bne_iff_ne, ne_eq]
      rintro rfl
      contradiction
    rw [if_pos hmem, Word.splitAssignment_append hname, List.takeWhile_append_of_pos hall,
      List.dropWhile_append_of_pos hall]
    simp
  · rw [if_neg hmem, Word.splitAssignment_eq_none hmem]

theorem any_startsArgument_eq_isArgument (text : Text) :
    text.head?.any startsArgument = Word.isArgument text := by
  cases text <;> rfl

theorem halves?_of_isCommand {text : Text} (h : Word.isCommand text = true) :
    halves? text = none := by
  unfold halves?
  rw [if_neg]
  intro hmem
  exact (Word.ne_of_isCommand h hmem).1 rfl

theorem statement_nil : statement [] = [] := rfl

theorem statement_cons_of_isCommand {placed : Placed} (h : placed.isCommand = true)
    (items : List Placed) :
    statement (placed :: items) = placed.command?.toList ++ items.filterMap argument? := by
  unfold statement
  rw [List.takeWhile_cons_of_neg (by simp [h]), List.dropWhile_cons_of_neg (by simp [h])]
  rfl

theorem statement_cons_of_not_isCommand {placed : Placed} (h : placed.isCommand = false)
    (items : List Placed) :
    statement (placed :: items) = placed.assignment?.toList ++ statement items := by
  unfold statement
  rw [List.takeWhile_cons_of_pos (by simp [h]), List.dropWhile_cons_of_pos (by simp [h])]
  rw [List.filterMap_cons, ← List.append_assoc]
  cases placed.assignment? <;> rfl

theorem kind_of_assignment?_eq_some {placed : Placed} {clause : Clause}
    (h : placed.assignment? = some clause) : clause.kind = .assignment := by
  obtain ⟨⟨text, source⟩, _, hassignment⟩ := Option.bind_eq_some_iff.1 h
  obtain ⟨⟨name, value⟩, _, hclause⟩ := Option.bind_eq_some_iff.1 hassignment
  dsimp only at hclause
  split at hclause
  · rw [← Option.some.inj hclause]
    rfl
  · contradiction

theorem mem_statement_of_find?_eq_some {items : List Placed} {placed : Placed}
    (h : items.find? isCommand = some placed) {clause : Clause}
    (hclause : placed.command? = some clause) : clause ∈ statement items := by
  induction items with
  | nil => contradiction
  | cons item items ih =>
    cases hitem : item.isCommand with
    | true =>
      rw [List.find?_cons_of_pos hitem, Option.some.injEq] at h
      rw [statement_cons_of_isCommand hitem, h, hclause]
      exact List.mem_cons_self
    | false =>
      rw [List.find?_cons_of_neg (by simp [hitem])] at h
      rw [statement_cons_of_not_isCommand hitem]
      exact List.mem_append_right _ (ih h)

theorem kind_ne_of_find?_eq_none {items : List Placed} (h : items.find? isCommand = none) :
    ∀ clause ∈ statement items, clause.kind ≠ .command := by
  induction items with
  | nil => simp [statement_nil]
  | cons item items ih =>
    have hitem : item.isCommand = false := by
      simpa using List.find?_eq_none.1 h item List.mem_cons_self
    rw [List.find?_cons_of_neg (by simp [hitem])] at h
    rw [statement_cons_of_not_isCommand hitem]
    intro clause hmem
    rcases List.mem_append.1 hmem with hmem | hmem
    · rw [kind_of_assignment?_eq_some (Option.mem_toList.1 hmem)]
      decide
    · exact ih h clause hmem

end Placed

namespace Parser

theorem assignment?_word (text : Text) (loc : Location) :
    assignment? ⟨.word, text, loc⟩ = Placed.assignmentOf? text loc := by
  unfold assignment? Placed.assignmentOf?
  rw [Placed.halves?_eq_splitAssignment]
  simp only [if_true]
  cases Word.splitAssignment text <;> rfl

theorem argument?_word (text : Text) (loc : Location) :
    argument? ⟨.word, text, loc⟩ =
      if text.head?.any Placed.startsArgument then some (.argument text loc (Placed.halves? text))
      else none := by
  rw [Placed.halves?_eq_splitAssignment, Placed.any_startsArgument_eq_isArgument]
  unfold argument?
  simp only [true_and]

theorem clausesFrom_word_of_isCommand {text : Text} (h : Word.isCommand text = true)
    (quoting : Quoting) (loc : Location) (tokens : List Token) :
    clausesFrom ⟨false, quoting⟩ (⟨.word, text, loc⟩ :: tokens) =
      .command text loc :: clausesFrom ⟨true, quoting⟩ tokens := by
  have hassignment : assignment? ⟨.word, text, loc⟩ = none := by
    rw [assignment?_word, Placed.assignmentOf?, Placed.halves?_of_isCommand h]
    rfl
  have hcommand : command? ⟨.word, text, loc⟩ = some (.command text loc) := by
    unfold command?
    simp only [h, and_self, if_true]
  rw [clausesFrom_cons]
  unfold step beforeCommand
  simp only [hassignment, hcommand]
  rfl

theorem clausesFrom_word_of_not_isCommand {text : Text} (h : Word.isCommand text = false)
    (quoting : Quoting) (loc : Location) (tokens : List Token) :
    clausesFrom ⟨false, quoting⟩ (⟨.word, text, loc⟩ :: tokens) =
      (Placed.assignmentOf? text loc).toList ++ clausesFrom ⟨false, quoting⟩ tokens := by
  have hcommand : command? ⟨.word, text, loc⟩ = none := by
    unfold command?
    simp [h]
  rw [clausesFrom_cons, ← assignment?_word]
  unfold step beforeCommand
  cases assignment? ⟨.word, text, loc⟩ with
  | none => simp [hcommand, Verdict.clause?]
  | some clause => simp [Verdict.clause?]

theorem clausesFrom_word_of_foundCommand (text : Text) (loc : Location) (tokens : List Token) :
    clausesFrom ⟨true, .outside⟩ (⟨.word, text, loc⟩ :: tokens) =
      (if text.head?.any Placed.startsArgument then
        some (.argument text loc (Placed.halves? text)) else none).toList ++
        clausesFrom ⟨true, .outside⟩ tokens := by
  rw [clausesFrom_cons, ← argument?_word]
  unfold step afterCommand
  cases argument? ⟨.word, text, loc⟩ <;> rfl

section item

variable {placed : Placed} (hproper : placed.item.IsProper) {tokens : List Token}
  (hlast : ∀ quote interior, placed.item = .unclosed quote interior → tokens = [])
include hproper hlast

theorem clausesFrom_tokens_of_isCommand (h : placed.isCommand = true) :
    clausesFrom ⟨false, .outside⟩ (placed.tokens ++ tokens) =
      placed.command?.toList ++ clausesFrom ⟨true, .outside⟩ tokens := by
  obtain ⟨before, item⟩ := placed
  cases item with
  | word text => exact clausesFrom_word_of_isCommand h .outside _ tokens
  | punctuation kind c => contradiction
  | quoted quote interior => exact clausesFrom_word_of_isCommand h .inside _ _
  | unclosed quote interior =>
    rw [hlast quote interior rfl]
    exact clausesFrom_word_of_isCommand h .inside _ _

theorem clausesFrom_tokens_of_not_isCommand (h : placed.isCommand = false) :
    clausesFrom ⟨false, .outside⟩ (placed.tokens ++ tokens) =
      placed.assignment?.toList ++ clausesFrom ⟨false, .outside⟩ tokens := by
  obtain ⟨before, item⟩ := placed
  cases item with
  | word text => exact clausesFrom_word_of_not_isCommand h .outside _ tokens
  | punctuation kind c =>
    rcases Item.IsProper.kind_cases hproper with rfl | rfl | rfl <;> rfl
  | quoted quote interior => exact clausesFrom_word_of_not_isCommand h .inside _ _
  | unclosed quote interior =>
    rw [hlast quote interior rfl]
    exact clausesFrom_word_of_not_isCommand h .inside _ _

theorem clausesFrom_tokens_of_foundCommand :
    clausesFrom ⟨true, .outside⟩ (placed.tokens ++ tokens) =
      placed.argument?.toList ++ clausesFrom ⟨true, .outside⟩ tokens := by
  obtain ⟨before, item⟩ := placed
  cases item with
  | word text => exact clausesFrom_word_of_foundCommand text _ tokens
  | punctuation kind c =>
    rcases Item.IsProper.kind_cases hproper with rfl | rfl | rfl <;> rfl
  | quoted quote interior => rfl
  | unclosed quote interior =>
    rw [hlast quote interior rfl]
    rfl

end item

theorem clausesFrom_tokens_eq_arguments {cut : Cut} (h : cut.IsProper) (before : Text) :
    clausesFrom ⟨true, .outside⟩ (cut.tokens (Location.start.after before)) =
      (cut.placed before).filterMap Placed.argument? := by
  induction cut generalizing before with
  | nil blanks => rfl
  | cons blanks item rest ih =>
    obtain ⟨_, hitem, hprecedes, hrest⟩ := h
    have hlast := Cut.tokens_eq_nil_of_precedes hprecedes hrest
      (Location.start.after (before ++ blanks ++ item.written))
    rw [Cut.tokens_cons, clausesFrom_tokens_of_foundCommand hitem hlast, ih hrest]
    rw [Cut.placed_cons, List.filterMap_cons]
    cases Placed.argument? ⟨before ++ blanks, item⟩ <;> rfl

theorem clausesFrom_tokens_eq_statement {cut : Cut} (h : cut.IsProper) (before : Text) :
    clausesFrom .start (cut.tokens (Location.start.after before)) =
      Placed.statement (cut.placed before) := by
  induction cut generalizing before with
  | nil blanks => rfl
  | cons blanks item rest ih =>
    obtain ⟨_, hitem, hprecedes, hrest⟩ := h
    have hlast := Cut.tokens_eq_nil_of_precedes hprecedes hrest
      (Location.start.after (before ++ blanks ++ item.written))
    rw [Cut.tokens_cons, Cut.placed_cons]
    cases hcommand : Placed.isCommand ⟨before ++ blanks, item⟩ with
    | true =>
      rw [Placed.statement_cons_of_isCommand hcommand]
      rw [State.start, clausesFrom_tokens_of_isCommand hitem hlast hcommand]
      rw [clausesFrom_tokens_eq_arguments hrest]
    | false =>
      rw [Placed.statement_cons_of_not_isCommand hcommand]
      rw [State.start, clausesFrom_tokens_of_not_isCommand hitem hlast hcommand]
      rw [← State.start, ih hrest]

end Parser

namespace Cut

theorem clauses_tokens {cut : Cut} (h : cut.IsProper) :
    clauses (cut.tokens .start) = Placed.statement (cut.placed []) :=
  Parser.clausesFrom_tokens_eq_statement h []

theorem exists_text_eq_of_content? {cut : Cut} (h : cut.IsProper) {placed : Placed}
    (hmem : placed ∈ cut.placed []) {typed : Text} {source : Location}
    (hcontent : placed.content? = some (typed, source)) :
    ∃ before after, cut.text = before ++ typed ++ after ∧
      source = Location.start.after before := by
  obtain ⟨_, after, htext, hlast⟩ := exists_text_eq_of_mem_placed h hmem
  rw [List.nil_append] at htext
  obtain ⟨before, item⟩ := placed
  unfold Placed.content? at hcontent
  cases item with
  | word text =>
    cases hcontent
    exact ⟨before, after, htext, rfl⟩
  | punctuation kind c => contradiction
  | quoted quote interior =>
    cases hcontent
    refine ⟨before ++ [quote], quote :: after, ?_, (Location.after_concat _ before quote).symm⟩
    simpa [Item.written] using htext
  | unclosed quote interior =>
    cases hcontent
    refine ⟨before ++ [quote], after, ?_, (Location.after_concat _ before quote).symm⟩
    simpa [Item.written] using htext

/--
The tree of every text has below its root what the grammar says of the items of the text, and
nothing else.
-/
theorem represents_statement (t : Text) :
    ∃ cut : Cut, cut.IsProper ∧ cut.text = t ∧
      (cut.placed []).flatMap Placed.tokens = (lex t).tokens ∧
      (parse (lex t).tokens).Represents (Placed.statement (cut.placed [])) := by
  obtain ⟨cut, hcut, rfl⟩ := exists_isProper t
  have htokens : (lex cut.text).tokens = cut.tokens .start := by
    unfold lex
    rw [lexFrom_text hcut]
  refine ⟨cut, hcut, rfl, ?_, ?_⟩
  · rw [htokens]
    exact (tokens_after cut []).symm
  · rw [htokens, ← clauses_tokens hcut]
    exact Tree.represents_parse (cut.tokens .start)

end Cut

end Preflight
