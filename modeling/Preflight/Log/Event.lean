import Preflight.Text.Blank

/-!
This module contains the events that a log is about.
-/

namespace Preflight

namespace Log

inductive Level where
  | error
  | warn
  | info
  | debug
  | trace
  deriving DecidableEq, Repr

namespace Level

def all : List Level := [error, warn, info, debug, trace]

def name : Level → String
  | error => "ERROR"
  | warn => "WARN"
  | info => "INFO"
  | debug => "DEBUG"
  | trace => "TRACE"

def detail : Level → Nat
  | error => 1
  | warn => 2
  | info => 3
  | debug => 4
  | trace => 5

def colorCode : Level → Nat
  | error => 31
  | warn => 33
  | info => 32
  | debug => 34
  | trace => 35

end Level

structure Event where
  level : Level
  target : String
  message : String
  fields : List (String × Text)
  deriving DecidableEq, Repr

end Log

end Preflight
