import Preflight.Diagnostic

/-!
This module contains everything that can be wrong with a command line, with the words in which it is
reported.
-/

namespace Preflight

inductive Stage where
  | lexical
  | structural
  | semantic
  deriving DecidableEq, Repr

def Stage.name : Stage → String
  | lexical => "lex"
  | structural => "syntax"
  | semantic => "semantic"

inductive Problem where
  | unterminatedQuote (quote : Text)
  | extraCloser (bracket : Char)
  | unclosedBracket (bracket closer : Char)
  | unclosedQuote (quote : Text)
  | unknownCommand (typed : Text)
  | missingPath (typed : Text)
  | notAFile (path : Text)
  | notExecutable (path : Text)
  | noCommand
  deriving DecidableEq, Repr

namespace Problem

def stage : Problem → Stage
  | unterminatedQuote _ => .lexical
  | extraCloser _ | unclosedBracket _ _ | unclosedQuote _ => .structural
  | unknownCommand _ | missingPath _ | notAFile _ | notExecutable _ | noCommand => .semantic

def domain (problem : Problem) : String :=
  match problem.stage with
  | .lexical | .structural => "cchell::lexer"
  | .semantic => "cchell::parser"

def message : Problem → Text
  | unterminatedQuote quote => "unterminated quote ".toList ++ quote ++ " found.".toList
  | extraCloser bracket => "extra closing bracket '".toList ++ bracket :: "' found.".toList
  | unclosedBracket bracket _ => "unclosed bracket '".toList ++ bracket :: "' found.".toList
  | unclosedQuote quote => "unclosed quote ".toList ++ quote ++ " found.".toList
  | unknownCommand typed => "command '".toList ++ typed ++ "' doesn't exist".toList
  | missingPath typed => "executable path '".toList ++ typed ++ "' doesn't exist".toList
  | notAFile path => "path '".toList ++ path ++ "' is not a file".toList
  | notExecutable path => "path '".toList ++ path ++ "' is not an executable".toList
  | noCommand => "no command to execute".toList

def hint : Problem → Text
  | unterminatedQuote quote => "consider adding a closing ".toList ++ quote ++ ['.']
  | extraCloser bracket => "try removing the '".toList ++ bracket :: "'.".toList
  | unclosedBracket _ closer => "consider adding a closing '".toList ++ closer :: "'.".toList
  | unclosedQuote quote => "consider adding a closing ".toList ++ quote ++ ['.']
  | unknownCommand _ => "consider fixing $PATH or installing the program".toList
  | missingPath _ | notAFile _ => "consider fixing the typo or the directory tree".toList
  | notExecutable path => "consider changing the permission on '".toList ++ path ++ ['\'']
  | noCommand => "consider adding a command after the assignments".toList

end Problem

structure Failure where
  problem : Problem
  source : Location
  length : Nat
  deriving DecidableEq, Repr

namespace Failure

def stage (failure : Failure) : Stage := failure.problem.stage

def diagnostic (failure : Failure) : Diagnostic where
  severity := .error
  domain := failure.problem.domain.toList
  message := failure.problem.message
  hint := failure.problem.hint
  source := failure.source
  length := max failure.length 1
  one_le_length := by omega

end Failure

end Preflight
