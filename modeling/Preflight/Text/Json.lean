import Preflight.Text.Numeral

/-!
This module contains structured values and their printed form as JSON, spread over lines with an
indentation of two spaces.
-/

namespace Preflight

inductive Json where
  | text (t : Text)
  | number (n : Nat)
  | flag (b : Bool)
  | list (values : List Json)
  | record (members : List (Text × Json))

namespace Json

def escapeChar (c : Char) : Text :=
  if c = '"' then ['\\', '"']
  else if c = '\\' then ['\\', '\\']
  else if c = '\x08' then ['\\', 'b']
  else if c = '\x0c' then ['\\', 'f']
  else if c = '\n' then ['\\', 'n']
  else if c = '\r' then ['\\', 'r']
  else if c = '\t' then ['\\', 't']
  else if c.toNat < 0x20 then ['\\', 'u'] ++ Text.padLeft '0' 4 (Text.hexadecimal c.toNat)
  else [c]

def quote (t : Text) : Text := '"' :: t.flatMap escapeChar ++ ['"']

def newline (depth : Nat) : Text := '\n' :: List.replicate (2 * depth) ' '

mutual

def print (depth : Nat) : Json → Text
  | .text t => quote t
  | .number n => Text.decimal n
  | .flag b => if b then "true".toList else "false".toList
  | .list [] => ['[', ']']
  | .list (value :: values) =>
    '[' :: newline (depth + 1) ++ print (depth + 1) value ++ printValues (depth + 1) values
      ++ newline depth ++ [']']
  | .record [] => ['\x7b', '\x7d']
  | .record ((name, value) :: members) =>
    '\x7b' :: newline (depth + 1) ++ quote name ++ [':', ' '] ++ print (depth + 1) value
      ++ printMembers (depth + 1) members ++ newline depth ++ ['\x7d']

def printValues (depth : Nat) : List Json → Text
  | [] => []
  | value :: values => ',' :: newline depth ++ print depth value ++ printValues depth values

def printMembers (depth : Nat) : List (Text × Json) → Text
  | [] => []
  | (name, value) :: members =>
    ',' :: newline depth ++ quote name ++ [':', ' '] ++ print depth value
      ++ printMembers depth members

end

def pretty (value : Json) : Text := print 0 value ++ ['\n']

end Json

end Preflight
