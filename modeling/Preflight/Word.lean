import Preflight.Text.Blank

/-!
This module contains the rules about single words of a command line: what may be a variable name, a
command or an option, and what a word stands for once its backslashes are taken away.
-/

namespace Preflight

namespace Word

def isQuote (c : Char) : Bool := c == '\'' || c == '"' || c == '\x60'

def isLetter (c : Char) : Bool := ('a' ≤ c && c ≤ 'z') || ('A' ≤ c && c ≤ 'Z')

def isDigit (c : Char) : Bool := '0' ≤ c && c ≤ '9'

def number? (word : Text) : Option Nat :=
  if word.all isDigit then some (word.foldl (fun n c => n * 10 + (c.toNat - 0x30)) 0) else none

def copyUnescaped : Text → Text
  | [] => []
  -- At the end a backslash stands for nothing.
  | '\\' :: [] => []
  | '\\' :: c :: cs => c :: copyUnescaped cs
  | c :: cs => c :: copyUnescaped cs

def unescape (t : Text) : Text := if t.contains '\\' then copyUnescaped t else t

def isVariableName : Text → Bool
  | [] => false
  | c :: cs => (isLetter c || c == '_') && cs.all fun c => isLetter c || isDigit c || c == '_'

def splitAssignment : Text → Option (Text × Text)
  | [] => none
  | '=' :: cs => some ([], cs)
  | c :: cs => (splitAssignment cs).map fun (key, value) => (c :: key, value)

theorem eq_of_splitAssignment_eq_some {t key value : Text}
    (h : splitAssignment t = some (key, value)) : t = key ++ '=' :: value := by
  fun_induction splitAssignment t generalizing key with
  | case1 => simp at h
  | case2 => simp_all
  | case3 c cs hc ih =>
    obtain ⟨⟨k, v⟩, hkv, heq⟩ := Option.map_eq_some_iff.1 h
    simp only [Prod.mk.injEq] at heq
    obtain ⟨rfl, rfl⟩ := heq
    simp [ih hkv]

def isLocal : Text → Bool
  | '.' :: '/' :: _ => true
  | _ => false

def isCommandChar (c : Char) : Bool :=
  isLetter c || isDigit c || c == '_' || c == '.' || c == '-' || c == '\\'

def isReserved (c : Char) : Bool :=
  c == '"' || c == '\'' || c == '\x60' || c == '(' || c == ')' || c == '\x7b' || c == '\x7d'
    || c == '[' || c == ']' || c == '<' || c == '>' || c == '/' || c == '$' || c == '|'

def areCommandChars (slashes : Bool) (escaped : Bool) : Text → Bool
  | [] => true
  | c :: cs =>
    (isCommandChar c || (slashes && c == '/') || (escaped && isReserved c))
      && areCommandChars slashes (c == '\\') cs

def isCommandBody (slashes : Bool) : Text → Bool
  | [] => false
  -- No command starts like an option.
  | c :: cs => c != '-' && areCommandChars slashes false (c :: cs)

def isCommand : Text → Bool
  | '.' :: '/' :: body => isCommandBody true body
  | body => isCommandBody false body

def isArgument : Text → Bool
  | [] => false
  | c :: _ => isLetter c || c == '_' || c == '-'

end Word

end Preflight
