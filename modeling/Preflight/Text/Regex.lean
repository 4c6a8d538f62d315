import Preflight.Text.Alphanumeric
import Preflight.Text.Numeral
import Preflight.Word

/-!
This module contains the regular expressions that can be matched without a table of the properties
of characters: which texts are such expressions.

Within braces an expression ends at the first closing one, so there are no counted repetitions and
no characters or classes with a name in braces here: an opening brace stands for itself in a class
or after a backslash, and for nothing elsewhere.

The depth of an expression is the number of groups, repetitions, sequences, choices and classes that
are within each other. It is limited.
-/

namespace Preflight

namespace Regex

def depthLimit : Nat := 250

def joint : List Nat → Nat
  | [] => 0
  -- One part alone is all of it.
  | [depth] => depth
  | depths => depths.foldl max 0 + 1

structure Mode where
  ignoresCase : Bool
  isUnicode : Bool
  isSpaced : Bool
  deriving DecidableEq, Repr

def Mode.initial : Mode := ⟨false, true, false⟩

def skipComment : Text → Text
  | [] => []
  | c :: cs => if c = '\n' then cs else skipComment cs

theorem length_skipComment_le (t : Text) : (skipComment t).length ≤ t.length := by
  fun_induction skipComment t with
  | case1 => simp
  | case2 => simp
  | case3 _ _ _ ih => exact Nat.le_succ_of_le ih

def skipFiller (t : Text) : Text :=
  match t with
  | [] => []
  | c :: cs =>
    have := length_skipComment_le cs
    if Text.isBlank c then skipFiller cs
    else if c = '#' then skipFiller (skipComment cs)
    else c :: cs
termination_by t.length
decreasing_by all_goals simp only [List.length_cons]; omega

def Mode.next (mode : Mode) (t : Text) : Text := if mode.isSpaced then skipFiller t else t

inductive Escape where
  | char (c : Char)
  -- Two digits give a character below 256.
  | byte (n : Nat)
  -- The digits, the blanks or the word characters, or all others.
  | kind (negated : Bool)
  | anchor
  | boundary
  deriving DecidableEq, Repr

def hexNumber? (mode : Mode) : Nat → Nat → Text → Option (Nat × Text)
  | 0, value, t => some (value, t)
  | count + 1, value, t =>
    match mode.next t with
    | [] => none
    | c :: cs => do hexNumber? mode count (value * 16 + (← Text.hexDigit? c)) cs

def control? : Char → Option Char
  | 'a' => some '\x07'
  | 'f' => some '\x0c'
  | 't' => some '\t'
  | 'n' => some '\n'
  | 'r' => some '\r'
  | 'v' => some '\x0b'
  | _ => none

def escape? (mode : Mode) : Text → Option (Escape × Text)
  | [] => none
  | c :: cs =>
    match c with
    | 'x' => (hexNumber? mode 2 0 cs).map fun (n, rest) => (.byte n, rest)
    | 'u' => do
      let (n, rest) ← hexNumber? mode 4 0 cs
      return (.char (← Text.charOfNumber? n), rest)
    | 'U' => do
      let (n, rest) ← hexNumber? mode 8 0 cs
      return (.char (← Text.charOfNumber? n), rest)
    | 'd' | 's' | 'w' => some (.kind false, cs)
    | 'D' | 'S' | 'W' => some (.kind true, cs)
    | 'A' | 'z' => some (.anchor, cs)
    | 'b' | 'B' | '<' | '>' => some (.boundary, cs)
    | c =>
      match control? c with
      | some control => some (.char control, cs)
      | none =>
        if c.toNat < 0x80 ∧ ¬ Word.isLetter c ∧ ¬ Word.isDigit c then some (.char c, cs) else none

/--
Whether an escape can be matched outside of classes. Without a table characters have no kinds, their
case cannot be ignored, and words have no boundaries. Bytes of characters beyond ASCII are no text.
-/
def Mode.admits (mode : Mode) : Escape → Bool
  | .char _ => !(mode.isUnicode && mode.ignoresCase)
  | .byte n => if mode.isUnicode then !mode.ignoresCase else n < 0x80
  | .kind negated => !mode.isUnicode && !negated
  | .boundary => !mode.isUnicode
  | .anchor => true

def Mode.admitsLetters (mode : Mode) : Bool := !(mode.isUnicode && mode.ignoresCase)

def Mode.admitsInClass (mode : Mode) : Escape → Bool
  | .char c => if mode.isUnicode then !mode.ignoresCase else c.toNat < 0x80
  | .byte n => if mode.isUnicode then !mode.ignoresCase else n < 0x80
  | .kind negated => !mode.isUnicode && !negated
  | .boundary | .anchor => false

def Escape.number? : Escape → Option Nat
  | .char c => some c.toNat
  | .byte n => some n
  | _ => none

def member? (mode : Mode) : Text → Option (Escape × Text)
  | [] => none
  | c :: cs => do
    let (member, rest) ← if c = '\\' then escape? mode cs else some (.char c, cs)
    if mode.admitsInClass member then some (member, rest) else none

def opensRange (mode : Mode) : Text → Bool
  | '-' :: cs =>
    match if mode.isSpaced then pastBlanks cs else cs with
    | c :: _ => c != ']' && c != '-'
    | [] => true
  | _ => false
where
  pastBlanks (t : Text) : Text :=
    match t.dropWhile Text.isBlank with
    | '#' :: cs => cs.dropWhile Text.isBlank
    | cs => cs

def afterMembers? (mode : Mode) (t : Text) : Option Text := do
  let (first, rest) ← member? mode t
  let rest := mode.next rest
  if opensRange mode rest then
    let (last, rest) ← member? mode (mode.next (rest.drop 1))
    if (← first.number?) ≤ (← last.number?) then some rest else none
  else
    some rest

def classNames : List String :=
  ["alnum", "alpha", "ascii", "blank", "cntrl", "digit", "graph", "lower", "print", "punct",
    "space", "upper", "word", "xdigit"]

def namedClass? : Text → Option (Bool × Text)
  | ':' :: cs =>
    let negated := cs.head? == some '^'
    let cs := if negated then cs.drop 1 else cs
    let name := cs.takeWhile (· != ':')
    match cs.drop name.length with
    | ':' :: ']' :: rest =>
      if classNames.any (·.toList == name) then some (negated, rest) else none
    | _ => none
  | _ => none

structure CharClass where
  left? : Option Nat
  members : List Nat
  deriving DecidableEq, Repr

namespace CharClass

def push (self : CharClass) (depth : Nat) : CharClass :=
  { self with members := depth :: self.members }

def depth (self : CharClass) : Nat :=
  match self.left? with
  | none => joint self.members
  | some left => max left (joint self.members) + 1

def operator (self : CharClass) : CharClass := ⟨some self.depth, []⟩

def start? (mode : Mode) (t : Text) : Option (CharClass × Text) := do
  let t := mode.next t
  let negated := t.head? == some '^'
  let t := if negated then mode.next (t.drop 1) else t
  let (count, rest) :=
    match t with
    -- Right after the start a bracket stands for itself, and so do dashes.
    | ']' :: cs => (1, cs)
    | _ => dashes t.length 0 t
  if (negated && !mode.isUnicode) || (count != 0 && !mode.admitsLetters) then none
  else some (⟨none, List.replicate count 0⟩, rest)
where
  dashes : Nat → Nat → Text → Nat × Text
    | 0, count, t => (count, t)
    | fuel + 1, count, t =>
      match t with
      | '-' :: cs => dashes fuel (count + 1) (mode.next cs)
      | _ => (count, t)

/--
The depth of a class that is partly read, and what follows it. `outer` are the classes around it,
the innermost one first. Each step reads a character at least, so `fuel` need not be more than there
are.
-/
def finish? (mode : Mode) : Nat → CharClass → List CharClass → Text → Option (Nat × Text)
  | 0, _, _, _ => none
  | fuel + 1, self, outer, t =>
    match mode.next t with
    | [] => none
    | ']' :: cs =>
      match outer with
      | [] => some (self.depth + 1, cs)
      | around :: outer => finish? mode fuel (around.push (self.depth + 1)) outer cs
    | '[' :: cs =>
      match namedClass? cs with
      | some (negated, rest) =>
        if (negated && !mode.isUnicode) || !mode.admitsLetters then none
        else finish? mode fuel (self.push 0) outer rest
      | none => do
        let (inner, rest) ← start? mode cs
        finish? mode fuel inner (self :: outer) rest
    | '&' :: '&' :: cs => finish? mode fuel self.operator outer cs
    | '-' :: '-' :: cs => finish? mode fuel self.operator outer cs
    | '~' :: '~' :: cs => finish? mode fuel self.operator outer cs
    | t => do finish? mode fuel (self.push 0) outer (← afterMembers? mode t)

def read? (mode : Mode) (t : Text) : Option (Nat × Text) := do
  let (start, rest) ← start? mode t
  finish? mode t.length start [] rest

end CharClass

def optionLetters : Text := ['i', 'm', 's', 'R', 'U', 'u', 'x']

def Mode.change? (mode : Mode) (options : Text) : Option Mode :=
  let on := options.takeWhile (· != '-')
  let off := options.drop (on.length + 1)
  let choose (letter : Char) (old : Bool) : Bool :=
    if letter ∈ on then true else if letter ∈ off then false else old
  -- No option is written twice, and something follows the dash.
  if (on ++ off).all (· ∈ optionLetters) && (on ++ off).Nodup && options.getLast? != some '-' then
    some ⟨choose 'i' mode.ignoresCase, choose 'u' mode.isUnicode, choose 'x' mode.isSpaced⟩
  else
    none

def isGroupName : Text → Bool
  | [] => false
  | c :: cs =>
    (c == '_' || Text.isAlphabetic c)
      && cs.all fun c => c == '_' || c == '.' || c == '[' || c == ']' || Text.isAlphanumeric c

structure Scope where
  mode : Mode
  -- The depths of what stands before the last bar, and of the parts after it, last one first.
  choices : List Nat
  parts : List Nat
  isRepeatable : Bool
  deriving DecidableEq, Repr

namespace Scope

def ofMode (mode : Mode) : Scope := ⟨mode, [], [], false⟩

def push (group : Scope) (depth : Nat) : Scope :=
  { group with parts := depth :: group.parts, isRepeatable := true }

def change (group : Scope) (mode : Mode) : Scope :=
  { group with mode := mode, parts := 0 :: group.parts, isRepeatable := false }

def choose (group : Scope) : Scope :=
  { group with choices := joint group.parts :: group.choices, parts := [], isRepeatable := false }

def repeatLast? (group : Scope) : Option Scope :=
  match group.parts with
  | depth :: parts =>
    if group.isRepeatable then some { group with parts := (depth + 1) :: parts } else none
  | [] => none

def depth (group : Scope) : Nat := joint (joint group.parts :: group.choices)

end Scope

structure Reading where
  group : Scope
  outer : List Scope
  names : List Text
  deriving DecidableEq, Repr

namespace Reading

def initial : Reading := ⟨.ofMode .initial, [], []⟩

def mode (reading : Reading) : Mode := reading.group.mode

def push (reading : Reading) (depth : Nat) : Reading :=
  { reading with group := reading.group.push depth }

def enter (reading : Reading) (mode : Mode) : Reading :=
  { reading with group := .ofMode mode, outer := reading.group :: reading.outer }

def leave? (reading : Reading) : Option Reading :=
  match reading.outer with
  | [] => none
  | group :: outer =>
    some { reading with group := group.push (reading.group.depth + 1), outer := outer }

def enterNamed? (reading : Reading) (t : Text) : Option (Reading × Text) :=
  let name := t.takeWhile (· != '>')
  match t.drop name.length with
  | '>' :: rest =>
    if isGroupName name && !reading.names.contains name then
      some ({ reading.enter reading.mode with names := name :: reading.names }, rest)
    else
      none
  | _ => none

def enterGroup? (reading : Reading) (t : Text) : Option (Reading × Text) :=
  match reading.mode.next t with
  | '?' :: 'P' :: '<' :: cs => reading.enterNamed? cs
  | '?' :: '<' :: cs => reading.enterNamed? cs
  | '?' :: cs =>
    let options := cs.takeWhile fun c => c != ':' && c != ')'
    match cs.drop options.length with
    | ':' :: rest => (reading.mode.change? options).map fun mode => (reading.enter mode, rest)
    -- Options alone hold for what follows in the group around them.
    | ')' :: rest =>
      if options.isEmpty then none
      else
        (reading.mode.change? options).map fun mode =>
          ({ reading with group := reading.group.change mode }, rest)
    | _ => none
  | t => some (reading.enter reading.mode, t)

def step? (reading : Reading) (c : Char) (cs : Text) : Option (Reading × Text) :=
  match c with
  | '(' => reading.enterGroup? cs
  | ')' => reading.leave?.map (·, cs)
  | '|' => some ({ reading with group := reading.group.choose }, cs)
  | '[' => (CharClass.read? reading.mode cs).map fun (depth, rest) => (reading.push depth, rest)
  | '?' | '*' | '+' =>
    reading.group.repeatLast?.map fun group =>
      ({ reading with group := group }, if cs.head? == some '?' then cs.drop 1 else cs)
  | '\x7b' => none
  | '\\' => do
    let (escape, rest) ← escape? reading.mode cs
    if reading.mode.admits escape then some (reading.push 0, rest) else none
  | '.' => if reading.mode.isUnicode then some (reading.push 0, cs) else none
  | '^' | '$' => some (reading.push 0, cs)
  | c => if reading.mode.admits (.char c) then some (reading.push 0, cs) else none

def completes : Nat → Reading → Text → Bool
  | 0, _, _ => false
  | fuel + 1, reading, t =>
    match reading.mode.next t with
    | [] => reading.outer.isEmpty && reading.group.depth ≤ depthLimit
    | c :: cs =>
      match reading.step? c cs with
      | some (reading, rest) => completes fuel reading rest
      | none => false

end Reading

-- Each step reads a character at least, so there is fuel enough.
def isValid (t : Text) : Bool := Reading.initial.completes (t.length + 1) t

end Regex

end Preflight
