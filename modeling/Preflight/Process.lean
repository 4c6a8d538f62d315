import Preflight.Text.Utf8
import Preflight.Word

/-!
This module contains processes: the variables that they see, how they end, and the programs that they
run.
-/

namespace Preflight

-- Of several values of a variable the first one counts.
abbrev Environment := List (Text × Text)

namespace Environment

def get? (environment : Environment) (name : Text) : Option Text := environment.lookup name

def nonempty? (environment : Environment) (name : Text) : Option Text :=
  (environment.get? name).filter (¬ ·.isEmpty)

end Environment

inductive Status where
  | exited (code : Nat)
  | killed (signal : Nat)
  | other
  deriving DecidableEq, Repr

namespace Status

def ofNumber (number : Nat) : Status :=
  -- The lower seven bits are the signal, with the exit code in the eight bits above them.
  let signal := number % 0x80
  if signal = 0 then exited (number / 0x100 % 0x100)
  else if signal = 0x7F then other
  else killed signal

def exitCode : Status → Nat
  | exited code => code
  | killed signal => 128 + signal
  | other => 128

end Status

structure Run where
  status : Status
  output : Utf8.Bytes
  errors : Utf8.Bytes
  deriving DecidableEq, Repr

structure Program where
  run : List Text → Environment → Utf8.Bytes → Run

namespace Program

def printing (text : List Text → Environment → Text) : Program where
  run arguments environment _ := ⟨.exited 0, Utf8.encode (text arguments environment), []⟩

def printArguments : Program :=
  printing fun arguments _ => arguments.flatMap fun a => '<' :: a ++ ['>', '\n']

def printVariables : Program :=
  printing fun arguments environment => arguments.flatMap fun name =>
    name ++ ['=', '<'] ++ (environment.get? name).getD [] ++ ['>', '\n']

def number? (environment : Environment) (name : String) : Option Nat :=
  Word.number? ((environment.get? name.toList).getD [])

def exitWithCode : Program where
  run _ environment _ :=
    match number? environment "CODE" with
    | some code => ⟨.exited (code % 0x100), [], []⟩
    | none => ⟨.exited 2, [], []⟩

def harmlessSignals : List Nat := [0, 17, 18, 23, 28]

def killItself : Program where
  run _ environment _ :=
    match number? environment "SIG" with
    | some signal => ⟨if signal ∈ harmlessSignals then .exited 0 else .killed signal, [], []⟩
    | none => ⟨.exited 2, [], []⟩

def printInput : Program where
  run _ _ input := ⟨.exited 0, Utf8.ofString "[" ++ input ++ Utf8.ofString "]", []⟩

def printBoth : Program where
  run _ _ _ := ⟨.exited 0, Utf8.ofString "out\n", Utf8.ofString "err\n"⟩

end Program

end Preflight
