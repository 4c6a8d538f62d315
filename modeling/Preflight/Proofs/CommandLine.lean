import Preflight.Balance
import Preflight.Proofs.Plan
import Preflight.Proofs.Resolution
import Preflight.Proofs.Syntax.Parser
import Preflight.Proofs.Word.Written

/-!
This module contains command lines that are written down from what they are to mean. Every such
command line passes all stages and is planned as it was meant.
-/

namespace Preflight

inductive Piece where
  | word (text : Text)
  | quoted (quote : Char) (interior : Text)

namespace Piece

def written : Piece → Text
  | word text => text
  | quoted quote interior => quote :: interior ++ [quote]

def tokens (loc : Location) : Piece → List Token
  | word text => [⟨.word, text, loc⟩]
  | quoted quote interior =>
    [⟨.quote, [quote], loc⟩, ⟨.word, interior, loc.advance quote⟩,
      ⟨.quote, [quote], (loc.advance quote).after interior⟩]

def IsClosed : Piece → Prop
  | word text => Lexer.IsWord text ∧ text ≠ []
  | quoted quote interior => Word.isQuote quote = true ∧ quote ∉ interior

def writtenAll (pieces : List Piece) : Text := [' '].intercalate (pieces.map written)

def tokensAll (loc : Location) : List Piece → List Token
  | [] => []
  | piece :: pieces =>
    piece.tokens loc ++ tokensAll ((loc.after piece.written).advance ' ') pieces

theorem lexFrom_append {piece : Piece} (h : piece.IsClosed) {t : Text} (ht : Lexer.EndsAt t)
    (loc : Location) :
    Lexer.lexFrom loc (piece.written ++ t) =
      (Lexer.lexFrom (loc.after piece.written) t).after (piece.tokens loc) := by
  cases piece with
  | word text => exact h.1.lexFrom_append h.2 ht loc
  | quoted quote interior =>
    have hclosed := Lexer.lexFrom_closedQuote h.1 h.2 loc t
    have hloc : loc.after (quote :: interior ++ [quote]) =
        ((loc.advance quote).after interior).advance quote := by
      rw [Location.after_append]
      rfl
    unfold written tokens
    rw [List.append_assoc, List.singleton_append, hclosed, hloc]

theorem endsAt_space_cons (t : Text) : Lexer.EndsAt (' ' :: t) := by
  intro c hc
  rw [List.head?_cons, Option.mem_some_iff] at hc
  subst hc
  decide

theorem lexFrom_writtenAll {pieces : List Piece} (h : ∀ piece ∈ pieces, piece.IsClosed)
    (loc : Location) :
    Lexer.lexFrom loc (writtenAll pieces) = ⟨tokensAll loc pieces, none⟩ := by
  induction pieces generalizing loc with
  | nil => exact Lexer.lexFrom_nil loc
  | cons piece pieces ih =>
    have hpiece := h piece List.mem_cons_self
    have ih := ih fun p hp => h p (List.mem_cons_of_mem piece hp)
    cases pieces with
    | nil =>
      have hlex := lexFrom_append hpiece (t := []) (by simp [Lexer.EndsAt]) loc
      rw [List.append_nil, Lexer.lexFrom_nil] at hlex
      unfold writtenAll
      rw [List.map_singleton, List.intercalate_singleton, hlex]
      rfl
    | cons next pieces =>
      unfold writtenAll at ih ⊢
      rw [List.map_cons, List.map_cons, List.intercalate_cons_cons]
      rw [List.append_assoc, List.singleton_append]
      rw [lexFrom_append hpiece (endsAt_space_cons _), Lexer.lexFrom_blank (by decide)]
      rw [← List.map_cons, ih]
      rfl

theorem foldlM_step_tokens (piece : Piece) (loc : Location) {state : Balance.State}
    (h : state.quote = none) :
    (piece.tokens loc).foldlM Balance.State.step state = .ok state := by
  obtain ⟨brackets, quote⟩ := state
  dsimp only at h
  subst h
  cases piece with
  | word text => rfl
  | quoted quote interior =>
    simp [tokens, Balance.State.step, Balance.State.toggleQuote, Bracket.ofToken?, bind,
      Except.bind, pure, Except.pure]

theorem foldlM_step_tokensAll (pieces : List Piece) (loc : Location) {state : Balance.State}
    (h : state.quote = none) :
    (tokensAll loc pieces).foldlM Balance.State.step state = .ok state := by
  induction pieces generalizing loc with
  | nil => rfl
  | cons piece pieces ih =>
    unfold tokensAll
    rw [List.foldlM_append, foldlM_step_tokens piece loc h]
    exact ih _

theorem check_tokensAll (pieces : List Piece) (loc : Location) :
    Balance.check (tokensAll loc pieces) = .ok () := by
  unfold Balance.check
  rw [foldlM_step_tokensAll pieces loc rfl]
  rfl

end Piece

structure Assignment where
  name : Text
  value : Text
  isVariableName : Word.isVariableName name = true

/--
An argument and how it is written: without quotes if it starts like one, else between quotes that it
does not contain.
-/
inductive Argument where
  | bare (text : Text) (isArgument : Word.isArgument text = true)
  | quoted (quote : Char) (text : Text) (isQuote : Word.isQuote quote = true)
    (not_mem : quote ∉ text)

structure CommandLine where
  assignments : List Assignment
  command : Text
  arguments : List Argument
  isPlainCommand : Word.isPlainCommand command = true

namespace Assignment

def written (assignment : Assignment) : Text :=
  assignment.name ++ '=' :: Word.escape assignment.value

def piece (assignment : Assignment) : Piece := .word assignment.written

theorem isPlainChar_of_mem_name (assignment : Assignment) {c : Char} (h : c ∈ assignment.name) :
    Word.isPlainChar c = true :=
  Word.isPlainChar_of_mem_variableName assignment.isVariableName h

theorem isClosed_piece (assignment : Assignment) : assignment.piece.IsClosed := by
  constructor
  · apply Lexer.IsWord.append
    · exact Word.isWord_of_all_isPlainChar fun c hc => assignment.isPlainChar_of_mem_name hc
    · exact .cons (by decide) (by decide) (Word.isWord_escape assignment.value)
  · unfold written
    simp

theorem splitAssignment_written (assignment : Assignment) :
    Word.splitAssignment assignment.written =
      some (assignment.name, Word.escape assignment.value) := by
  apply Word.splitAssignment_append
  intro hmem
  have := (Word.isSpecial_of_isPlainChar (assignment.isPlainChar_of_mem_name hmem)).2.1
  contradiction

theorem exists_clausesFrom (assignment : Assignment) (loc : Location) (tokens : List Token) :
    ∃ clause, Parser.clausesFrom .start (assignment.piece.tokens loc ++ tokens) =
        clause :: Parser.clausesFrom .start tokens ∧
      clause.kind = .assignment ∧
      clause.assignment? = some (assignment.name, assignment.value) := by
  have hassignment : Parser.assignment? ⟨.word, assignment.written, loc⟩ =
      some (.assignment assignment.written loc assignment.name (Word.escape assignment.value)) := by
    unfold Parser.assignment?
    simp only [if_true, assignment.splitAssignment_written, assignment.isVariableName]
  refine ⟨.assignment assignment.written loc assignment.name (Word.escape assignment.value), ?_,
    rfl, ?_⟩
  · unfold piece Piece.tokens
    rw [List.singleton_append, Parser.clausesFrom_cons]
    unfold Parser.step Parser.State.start Parser.beforeCommand
    simp only [hassignment]
    rfl
  · rw [Clause.assignment?_assignment, Word.unescape_escape]

theorem exists_clausesFrom_append (assignments : List Assignment) (pieces : List Piece)
    (loc : Location) :
    ∃ before next, Parser.clausesFrom .start
          (Piece.tokensAll loc (assignments.map piece ++ pieces)) =
        before ++ Parser.clausesFrom .start (Piece.tokensAll next pieces) ∧
      (∀ clause ∈ before, clause.kind = .assignment) ∧
      before.filterMap Clause.assignment? =
        assignments.map fun assignment => (assignment.name, assignment.value) := by
  induction assignments generalizing loc with
  | nil => exact ⟨[], loc, rfl, by simp, rfl⟩
  | cons assignment assignments ih =>
    rw [List.map_cons, List.cons_append, Piece.tokensAll]
    obtain ⟨before, next, hbefore, hkinds, hassignments⟩ :=
      ih ((loc.after assignment.piece.written).advance ' ')
    obtain ⟨clause, hclause, hkind, hshown⟩ := assignment.exists_clausesFrom loc
      (Piece.tokensAll ((loc.after assignment.piece.written).advance ' ')
        (assignments.map piece ++ pieces))
    refine ⟨clause :: before, next, ?_, ?_, ?_⟩
    · rw [hclause, hbefore]
      rfl
    · intro c hc
      rcases List.mem_cons.1 hc with rfl | hc
      · exact hkind
      · exact hkinds c hc
    · rw [List.filterMap_cons_some hshown, hassignments]
      rfl

end Assignment

namespace Argument

def text : Argument → Text
  | bare text _ => text
  | quoted _ text _ _ => text

def written : Argument → Text
  | bare text _ => Word.escape text
  | quoted quote text _ _ => quote :: Word.double text ++ [quote]

def piece : Argument → Piece
  | bare text _ => .word (Word.escape text)
  | quoted quote text _ _ => .quoted quote (Word.double text)

theorem isClosed_piece (argument : Argument) : argument.piece.IsClosed := by
  cases argument with
  | bare text hargument =>
    constructor
    · exact Word.isWord_escape text
    · intro hnil
      have := Word.isArgument_escape hargument
      rw [hnil] at this
      contradiction
  | quoted quote text hquote hmem =>
    refine ⟨hquote, ?_⟩
    intro hdouble
    rcases Word.mem_escapeWhere hdouble with rfl | h
    · contradiction
    · contradiction

theorem exists_clausesFrom (argument : Argument) (loc : Location) (tokens : List Token) :
    ∃ clause, Parser.clausesFrom ⟨true, .outside⟩ (argument.piece.tokens loc ++ tokens) =
        clause :: Parser.clausesFrom ⟨true, .outside⟩ tokens ∧
      clause.argument? = some argument.text := by
  cases argument with
  | bare text hargument =>
    have hword : Parser.argument? ⟨.word, Word.escape text, loc⟩ =
        some (.argument (Word.escape text) loc (Word.splitAssignment (Word.escape text))) := by
      unfold Parser.argument?
      simp only [Word.isArgument_escape hargument, and_self, if_true]
    refine ⟨.argument (Word.escape text) loc (Word.splitAssignment (Word.escape text)), ?_, ?_⟩
    · unfold piece Piece.tokens
      rw [List.singleton_append, Parser.clausesFrom_cons]
      unfold Parser.step Parser.afterCommand
      simp only [hword]
      rfl
    · rw [Clause.argument?_argument, Word.unescape_escape]
      rfl
  | quoted quote text hquote hmem =>
    refine ⟨.argument (Word.double text) (loc.advance quote) none, rfl, ?_⟩
    rw [Clause.argument?_argument, Word.unescape_double]
    rfl

theorem filterMap_argument?_clausesFrom (arguments : List Argument) (loc : Location) :
    (Parser.clausesFrom ⟨true, .outside⟩ (Piece.tokensAll loc (arguments.map piece))).filterMap
      Clause.argument? = arguments.map text := by
  induction arguments generalizing loc with
  | nil => rfl
  | cons argument arguments ih =>
    rw [List.map_cons, Piece.tokensAll]
    obtain ⟨clause, heq, hclause⟩ := argument.exists_clausesFrom loc
      (Piece.tokensAll ((loc.after argument.piece.written).advance ' ') (arguments.map piece))
    rw [heq, List.filterMap_cons_some hclause, ih]
    rfl

end Argument

namespace CommandLine

def written (line : CommandLine) : Text :=
  [' '].intercalate
    (line.assignments.map Assignment.written ++ line.command :: line.arguments.map Argument.written)

def pieces (line : CommandLine) : List Piece :=
  line.assignments.map Assignment.piece ++ .word line.command :: line.arguments.map Argument.piece

theorem writtenAll_pieces (line : CommandLine) : Piece.writtenAll line.pieces = line.written := by
  have harguments : line.arguments.map (Piece.written ∘ Argument.piece) =
      line.arguments.map Argument.written := by
    apply List.map_congr_left
    intro argument _
    cases argument <;> rfl
  unfold Piece.writtenAll pieces written
  rw [List.map_append, List.map_cons, List.map_map, List.map_map, harguments]
  rfl

theorem isClosed_of_mem_pieces {line : CommandLine} {piece : Piece} (h : piece ∈ line.pieces) :
    piece.IsClosed := by
  unfold pieces at h
  rw [List.mem_append, List.mem_cons, List.mem_map, List.mem_map] at h
  rcases h with ⟨assignment, _, rfl⟩ | rfl | ⟨argument, _, rfl⟩
  · exact assignment.isClosed_piece
  · have hplain := line.isPlainCommand
    constructor
    · apply Word.isWord_of_all_isPlainChar
      intro c hc
      exact Word.isPlainChar_of_mem_plainCommand hplain hc
    · intro hnil
      rw [hnil] at hplain
      contradiction
  · exact argument.isClosed_piece

def tokens (line : CommandLine) : List Token := Piece.tokensAll .start line.pieces

theorem tokenize_written (line : CommandLine) : tokenize line.written = .ok line.tokens := by
  unfold tokenize lex
  rw [← writtenAll_pieces, Piece.lexFrom_writtenAll fun _ => isClosed_of_mem_pieces]
  rfl

theorem check_tokens (line : CommandLine) : Balance.check line.tokens = .ok () :=
  Piece.check_tokensAll line.pieces .start

theorem clausesFrom_command (line : CommandLine) (loc : Location) (tokens : List Token) :
    Parser.clausesFrom .start (⟨.word, line.command, loc⟩ :: tokens) =
      .command line.command loc :: Parser.clausesFrom ⟨true, .outside⟩ tokens := by
  have hassignment : Parser.assignment? ⟨.word, line.command, loc⟩ = none := by
    unfold Parser.assignment?
    rw [Word.splitAssignment_eq_none]
    · rfl
    · intro hmem
      have := Word.isPlainChar_of_mem_plainCommand line.isPlainCommand hmem
      have := (Word.isSpecial_of_isPlainChar this).2.1
      contradiction
  have hcommand : Parser.command? ⟨.word, line.command, loc⟩ =
      some (.command line.command loc) := by
    unfold Parser.command?
    simp only [Word.isCommand_of_isPlainCommand line.isPlainCommand, and_self, if_true]
  rw [Parser.clausesFrom_cons]
  unfold Parser.step Parser.State.start Parser.beforeCommand
  simp only [hassignment, hcommand]
  rfl

theorem exists_clauses_tokens (line : CommandLine) :
    ∃ before source after, clauses line.tokens = before ++ .command line.command source :: after ∧
      (∀ clause ∈ before, clause.kind = .assignment) ∧
      (∀ clause ∈ after, clause.kind = .option) ∧
      before.filterMap Clause.assignment? =
        line.assignments.map (fun assignment => (assignment.name, assignment.value)) ∧
      after.filterMap Clause.argument? = line.arguments.map Argument.text := by
  obtain ⟨before, source, heq, hkinds, hassignments⟩ :=
    Assignment.exists_clausesFrom_append line.assignments
      (.word line.command :: line.arguments.map Argument.piece) .start
  have hcommand := line.clausesFrom_command source (Piece.tokensAll
    ((source.after line.command).advance ' ') (line.arguments.map Argument.piece))
  refine ⟨before, source, Parser.clausesFrom ⟨true, .outside⟩ (Piece.tokensAll
    ((source.after line.command).advance ' ') (line.arguments.map Argument.piece)), ?_, hkinds, ?_,
    hassignments, ?_⟩
  · rw [clauses_eq_clausesFrom, tokens, pieces, heq, Piece.tokensAll, Piece.tokens]
    rw [List.singleton_append]
    exact congrArg (before ++ ·) hcommand
  · exact fun clause hclause => Parser.kind_of_mem_clausesFrom rfl hclause
  · exact Argument.filterMap_argument?_clausesFrom line.arguments _

/--
A command line whose command is known is cut into tokens, found balanced, parsed, resolved without a
question and planned as it was meant.
-/
theorem plan_written (line : CommandLine) (resolver : Resolver) {path : Path}
    (hpath : resolver.index.get? line.command = some path) :
    ∃ tokens, tokenize line.written = .ok tokens ∧ Balance.check tokens = .ok () ∧
      (∀ (m : Type → Type) [Monad m] (confirm : Text → List Char → m (Except ReadError Char)),
        resolve resolver confirm (parse tokens) = pure (.ok (parse tokens))) ∧
      Plan.ofTree (parse tokens) resolver.index =
        .ok ⟨path, line.command :: line.arguments.map Argument.text,
          line.assignments.map fun assignment => (assignment.name, assignment.value)⟩ := by
  obtain ⟨before, source, after, hclauses, hbefore, hafter, hassignments, harguments⟩ :=
    line.exists_clauses_tokens
  have hrepresents := Tree.represents_parse line.tokens
  rw [hclauses] at hrepresents
  have hlocal := Word.isLocal_of_isPlainCommand line.isPlainCommand
  have hname : Word.unescape line.command = line.command := by
    apply Word.unescape_eq_self_of_not_mem
    intro hmem
    have := Word.isPlainChar_of_mem_plainCommand line.isPlainCommand hmem
    have := (Word.isSpecial_of_isPlainChar this).1
    contradiction
  have hnoCommand : ∀ clause ∈ before, clause.kind ≠ .command := by
    intro clause hclause
    simp [hbefore clause hclause]
  refine ⟨line.tokens, line.tokenize_written, line.check_tokens, ?_, ?_⟩
  · intro m _ confirm
    obtain ⟨id, corrected, hid, hentry, _⟩ := hrepresents.exists_command hnoCommand
    apply resolve_of_found hid hentry
    rw [Resolution.ofCommand_of_not_isLocal hlocal, Resolution.ofName_of_contains]
    unfold ProgramIndex.contains
    rw [hname, hpath]
    rfl
  · rw [Plan.ofTree_of_not_isLocal hrepresents hnoCommand _ hlocal, hname, hpath]
    · rw [List.filterMap_append, List.filterMap_append, hassignments, harguments]
      rw [Clause.filterMap_argument?_eq_nil hbefore, Clause.filterMap_assignment?_eq_nil hafter]
      simp
    · intro clause hclause
      simp [hafter clause hclause]

def intricate : CommandLine where
  assignments := [⟨['N'], ['=', ' ', '\\'], rfl⟩]
  command := ['l', 's']
  arguments :=
    [.bare ['-', '|', '"'] rfl, .quoted '"' ['\\', '\n', '\''] rfl (by decide),
      .quoted '\'' [] rfl (by decide)]
  isPlainCommand := rfl

def knowsList : Resolver := ⟨⟨[(['l', 's'], [0x2F, 0x6C, 0x73])]⟩, [0x2F], 2, .empty⟩

theorem plan_intricate :
    intricate.written =
        ['N', '=', '=', '\\', ' ', '\\', '\\', ' ', 'l', 's', ' ', '-', '\\', '|', '\\', '"', ' ',
          '"', '\\', '\\', '\n', '\'', '"', ' ', '\'', '\''] ∧
      knowsList.index.get? intricate.command = some [0x2F, 0x6C, 0x73] ∧
      ∃ tokens, tokenize intricate.written = .ok tokens ∧ Balance.check tokens = .ok () ∧
        (∀ (m : Type → Type) [Monad m] (confirm : Text → List Char → m (Except ReadError Char)),
          resolve knowsList confirm (parse tokens) = pure (.ok (parse tokens))) ∧
        Plan.ofTree (parse tokens) knowsList.index =
          .ok ⟨[0x2F, 0x6C, 0x73], [['l', 's'], ['-', '|', '"'], ['\\', '\n', '\''], []],
            [(['N'], ['=', ' ', '\\'])]⟩ :=
  ⟨rfl, rfl, plan_written intricate knowsList rfl⟩

end CommandLine

end Preflight
