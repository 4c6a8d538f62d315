import Preflight.Location

/-!
This module contains diagnostics: a message about a stretch of a command line. A diagnostic does not
hold the command line, whoever reports it has to supply that.
-/

namespace Preflight

inductive Severity where
  | error
  | warning
  | note
  deriving DecidableEq, Repr

def Severity.name : Severity → String
  | error => "error"
  | warning => "warning"
  | note => "note"

structure Diagnostic where
  severity : Severity
  domain : Text
  message : Text
  hint : Text
  source : Location
  length : Nat
  one_le_length : 1 ≤ length := by decide

namespace Diagnostic

def withLength (diagnostic : Diagnostic) (length : Nat) : Diagnostic :=
  { diagnostic with length := max length 1, one_le_length := by omega }

def display (diagnostic : Diagnostic) : Text :=
  diagnostic.severity.name.toList ++ " in ".toList ++ diagnostic.domain ++ " at ".toList
    ++ diagnostic.source.display ++ ": ".toList ++ diagnostic.message

end Diagnostic

end Preflight
