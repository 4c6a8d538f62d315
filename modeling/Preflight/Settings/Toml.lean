import Preflight.Settings.Value
import Preflight.Text.Numeral
import Preflight.Word

/-!
This module contains the reader of settings files, which are written in TOML.

A file is a list of tables, each with a header in brackets, and a table is a list of lines of the
form `key = value`. A key may have several parts with dots between them, which then lead through
tables inside tables. A value is a text, an integer, a truth value, a list or a table in braces.
Floating-point numbers, dates and lists of tables are refused by the reader, since no setting has
such a value.

Every reader takes a text and gives what it has read together with the rest of the text.
-/

namespace Preflight

namespace Toml

def isSpace (c : Char) : Bool := c == ' ' || c == '\t'

def isAllowed (c : Char) : Bool := c == '\t' || (0x20 ≤ c.toNat && c.toNat != 0x7F)

def isKeyChar (c : Char) : Bool := Word.isLetter c || Word.isDigit c || c == '-' || c == '_'

def isScalarChar (c : Char) : Bool := isKeyChar c || c == '+' || c == '.' || c == ':'

def skipSpaces (t : Text) : Text := t.dropWhile isSpace

def newline? : Text → Option Text
  | '\n' :: rest => some rest
  | '\r' :: '\n' :: rest => some rest
  | _ => none

def skipComment : Text → Text
  | '#' :: rest => rest.dropWhile isAllowed
  | t => t

def lineEnd? (t : Text) : Option Text :=
  match skipComment (skipSpaces t) with
  | [] => some []
  | t => newline? t

def skipFiller (inComment : Bool) : Text → Text
  | [] => []
  | '\n' :: rest => skipFiller false rest
  | '\r' :: '\n' :: rest => skipFiller false rest
  | c :: rest =>
    if inComment then
      if isAllowed c then skipFiller true rest else c :: rest
    else if isSpace c then skipFiller false rest
    else if c = '#' then skipFiller true rest
    else c :: rest

def hexNumber? (digits : Text) : Option Nat :=
  digits.foldlM (fun n c => (Text.hexDigit? c).map (n * 16 + ·)) 0

def numberedChar? (count : Nat) (t : Text) : Option (Char × Text) :=
  if t.length < count then none
  else ((hexNumber? (t.take count)).bind Text.charOfNumber?).map fun c => (c, t.drop count)

theorem length_numberedChar?_le {count : Nat} {t rest : Text} {c : Char}
    (h : numberedChar? count t = some (c, rest)) : rest.length ≤ t.length := by
  unfold numberedChar? at h
  split at h
  · simp at h
  · obtain ⟨_, _, heq⟩ := Option.map_eq_some_iff.1 h
    simp only [Prod.mk.injEq] at heq
    simp [← heq.2]

def escape? : Text → Option (Char × Text)
  | 'b' :: rest => some ('\x08', rest)
  | 't' :: rest => some ('\t', rest)
  | 'n' :: rest => some ('\n', rest)
  | 'f' :: rest => some ('\x0c', rest)
  | 'r' :: rest => some ('\r', rest)
  | '"' :: rest => some ('"', rest)
  | '\\' :: rest => some ('\\', rest)
  | 'u' :: rest => numberedChar? 4 rest
  | 'U' :: rest => numberedChar? 8 rest
  | _ => none

theorem length_escape?_lt {t rest : Text} {c : Char} (h : escape? t = some (c, rest)) :
    rest.length < t.length := by
  unfold escape? at h
  split at h
  case h_8 | h_9 => exact Nat.lt_succ_of_le (length_numberedChar?_le h)
  all_goals simp_all

def basicString (t : Text) : Option (Text × Text) :=
  match t with
  | [] => none
  | '"' :: rest => some ([], rest)
  | '\\' :: rest =>
    match h : escape? rest with
    | some (c, rest') =>
      have := length_escape?_lt h
      do
        let (cs, rest) ← basicString rest'
        return (c :: cs, rest)
    | none => none
  | c :: rest =>
    if isAllowed c then do
      let (cs, rest) ← basicString rest
      return (c :: cs, rest)
    else
      none
termination_by t.length

def literalString : Text → Option (Text × Text)
  | [] => none
  | '\'' :: rest => some ([], rest)
  | c :: rest =>
    if isAllowed c then do
      let (cs, rest) ← literalString rest
      return (c :: cs, rest)
    else
      none

def skipNewline (t : Text) : Text := (newline? t).getD t

def skipBlankLines : Text → Text
  | '\r' :: '\n' :: rest => skipBlankLines rest
  | c :: rest => if c = '\n' ∨ isSpace c then skipBlankLines rest else c :: rest
  | [] => []

theorem length_skipBlankLines_le (t : Text) : (skipBlankLines t).length ≤ t.length := by
  fun_induction skipBlankLines t <;> simp_all <;> omega

def closing? (quote : Char) (t : Text) : Option (Text × Text) :=
  let quotes := t.takeWhile (· == quote)
  -- Up to two quotes in front of the closing three belong to the text.
  if 3 ≤ quotes.length then
    let kept := min (quotes.length - 3) 2
    some (List.replicate kept quote, t.drop (kept + 3))
  else
    none

def multilineBasicString (t : Text) : Option (Text × Text) :=
  match closing? '"' t with
  | some closed => some closed
  | none =>
    match t with
    | [] => none
    | '\r' :: '\n' :: rest => do
      let (cs, rest) ← multilineBasicString rest
      return ('\n' :: cs, rest)
    | '\\' :: rest =>
      match h : escape? rest with
      | some (c, rest') =>
        have := length_escape?_lt h
        do
          let (cs, rest) ← multilineBasicString rest'
          return (c :: cs, rest)
      | none =>
        -- A backslash at the end of a line takes away all blanks up to the next character.
        if (newline? (skipSpaces rest)).isSome then
          have := length_skipBlankLines_le rest
          multilineBasicString (skipBlankLines rest)
        else
          none
    | c :: rest =>
      if c = '\n' ∨ isAllowed c then do
        let (cs, rest) ← multilineBasicString rest
        return (c :: cs, rest)
      else
        none
termination_by t.length
decreasing_by all_goals simp_all; try omega

def multilineLiteralString (t : Text) : Option (Text × Text) :=
  match closing? '\'' t with
  | some closed => some closed
  | none =>
    match t with
    | [] => none
    | '\r' :: '\n' :: rest => do
      let (cs, rest) ← multilineLiteralString rest
      return ('\n' :: cs, rest)
    | c :: rest =>
      if c = '\n' ∨ isAllowed c then do
        let (cs, rest) ← multilineLiteralString rest
        return (c :: cs, rest)
      else
        none

def string? : Text → Option (Text × Text)
  | '"' :: '"' :: '"' :: rest => multilineBasicString (skipNewline rest)
  | '"' :: rest => basicString rest
  | '\'' :: '\'' :: '\'' :: rest => multilineLiteralString (skipNewline rest)
  | '\'' :: rest => literalString rest
  | _ => none

def keyPart? : Text → Option (Text × Text)
  | '"' :: rest => basicString rest
  | '\'' :: rest => literalString rest
  | t =>
    let name := t.takeWhile isKeyChar
    if name.isEmpty then none else some (name, t.drop name.length)

def key? : Nat → Text → Option (List Text × Text)
  | 0, _ => none
  | count + 1, t => do
    let (part, rest) ← keyPart? t
    match skipSpaces rest with
    | '.' :: rest =>
      let (parts, rest) ← key? count (skipSpaces rest)
      return (part :: parts, rest)
    | _ => return ([part], rest)

def digits? (base : Nat) (afterDigit : Bool) (value : Nat) : Text → Option Nat
  | [] => if afterDigit then some value else none
  | c :: rest =>
    if c = '_' then
      if afterDigit then digits? base false value rest else none
    else
      match Text.hexDigit? c with
      | some digit => if digit < base then digits? base true (value * base + digit) rest else none
      | none => none

def decimalNumber? : Text → Option Nat
  | '0' :: _ :: _ => none
  | t => digits? 10 false 0 t

def integer? (word : Text) : Option Int := do
  let value : Int ←
    match word with
    -- Other bases than ten have no sign.
    | '0' :: 'x' :: digits => (digits? 16 false 0 digits).map Int.ofNat
    | '0' :: 'o' :: digits => (digits? 8 false 0 digits).map Int.ofNat
    | '0' :: 'b' :: digits => (digits? 2 false 0 digits).map Int.ofNat
    | '+' :: digits => (decimalNumber? digits).map Int.ofNat
    | '-' :: digits => (decimalNumber? digits).map fun n => -Int.ofNat n
    | digits => (decimalNumber? digits).map Int.ofNat
  if -0x8000000000000000 ≤ value ∧ value < 0x8000000000000000 then return value else none

def scalar? (t : Text) : Option (Setting × Text) :=
  let word := t.takeWhile isScalarChar
  let rest := t.drop word.length
  if word = "true".toList then some (.flag true, rest)
  else if word = "false".toList then some (.flag false, rest)
  else (integer? word).map fun i => (.integer i, rest)

inductive Origin where
  | header
  | implied
  | dotted
  deriving DecidableEq, Repr

inductive Item where
  | value (setting : Setting)
  | table (origin : Origin) (items : List (Text × Item))

namespace Item

def replace (name : Text) (item : Item) (items : List (Text × Item)) : List (Text × Item) :=
  items.map fun entry => if entry.1 = name then (name, item) else entry

def insert (name : Text) (value : Setting) :
    List Text → List (Text × Item) → Option (List (Text × Item))
  | [], items =>
    if (items.lookup name).isSome then none else some (items ++ [(name, .value value)])
  | part :: parts, items =>
    match items.lookup part with
    | none => do return items ++ [(part, .table .dotted (← insert name value parts []))]
    | some (.table .dotted below) => do
      return replace part (.table .dotted (← insert name value parts below)) items
    -- A table that has a header is closed to keys with dots.
    | some (.table .implied below) =>
      if parts.isEmpty then none
      else do return replace part (.table .implied (← insert name value parts below)) items
    | some _ => none

def within (change : List (Text × Item) → Option (List (Text × Item))) :
    List Text → List (Text × Item) → Option (List (Text × Item))
  | [], items => change items
  | part :: parts, items =>
    match items.lookup part with
    | none => do return items ++ [(part, .table .implied (← within change parts []))]
    | some (.table origin below) => do
      return replace part (.table origin (← within change parts below)) items
    | some (.value _) => none

def openTable (name : Text) (items : List (Text × Item)) : Option (List (Text × Item)) :=
  match items.lookup name with
  | none => some (items ++ [(name, .table .header [])])
  | some (.table .implied below) => some (replace name (.table .header below) items)
  | some _ => none

mutual

def toSetting : Item → Setting
  | .value setting => setting
  | .table _ items => .table (toMembers items)

def toMembers : List (Text × Item) → List (Text × Setting)
  | [] => []
  | (name, item) :: items => (name, toSetting item) :: toMembers items

end

end Item

def insertKey (key : List Text) (value : Setting) (items : List (Text × Item)) :
    Option (List (Text × Item)) :=
  match key.getLast? with
  | some name => Item.insert name value key.dropLast items
  | none => none

mutual

def value? : Nat → Text → Option (Setting × Text)
  | 0, _ => none
  | depth + 1, t =>
    match t with
    | '[' :: rest => do
      let (values, rest) ← values? depth (skipFiller false rest)
      return (.list values, rest)
    | '\x7b' :: rest =>
      match skipSpaces rest with
      | '\x7d' :: rest => some (.table [], rest)
      | rest => do
        let (items, rest) ← members? depth [] rest
        return (.table (Item.toMembers items), rest)
    | '"' :: _ | '\'' :: _ => do
      let (t, rest) ← string? t
      return (.text t, rest)
    | _ => scalar? t

def values? : Nat → Text → Option (List Setting × Text)
  | 0, _ => none
  | depth + 1, t =>
    match t with
    | ']' :: rest => some ([], rest)
    | _ => do
      let (value, rest) ← value? depth t
      match skipFiller false rest with
      | ',' :: rest =>
        let (values, rest) ← values? depth (skipFiller false rest)
        return (value :: values, rest)
      | ']' :: rest => return ([value], rest)
      | _ => none

def members? : Nat → List (Text × Item) → Text → Option (List (Text × Item) × Text)
  | 0, _, _ => none
  | depth + 1, items, t => do
    let (key, value, rest) ← member? depth t
    let items ← insertKey key value items
    match skipSpaces rest with
    | ',' :: rest => members? depth items (skipSpaces rest)
    | '\x7d' :: rest => return (items, rest)
    | _ => none

def member? : Nat → Text → Option (List Text × Setting × Text)
  | 0, _ => none
  | depth + 1, t => do
    let (key, rest) ← key? depth t
    match skipSpaces rest with
    | '=' :: rest =>
      let (value, rest) ← value? depth (skipSpaces rest)
      return (key, value, rest)
    | _ => none

end

def lines? (depth : Nat) : Nat → List Text → List (Text × Item) → Text →
    Option (List (Text × Item))
  | 0, _, _, _ => none
  | count + 1, header, items, t =>
    match skipSpaces t with
    | [] => some items
    | '[' :: rest => do
      let (header, rest) ← key? depth (skipSpaces rest)
      match skipSpaces rest with
      | ']' :: rest =>
        let rest ← lineEnd? rest
        let name ← header.getLast?
        let items ← Item.within (Item.openTable name) header.dropLast items
        lines? depth count header items rest
      | _ => none
    | t =>
      match lineEnd? t with
      | some rest => lines? depth count header items rest
      | none => do
        let (key, value, rest) ← member? depth t
        let rest ← lineEnd? rest
        let items ← Item.within (insertKey key value) header items
        lines? depth count header items rest

def read (t : Text) : Option (List (Text × Setting)) :=
  let t :=
    match t with
    -- A byte order mark is passed over.
    | '\ufeff' :: rest => rest
    | t => t
  -- Nothing lies deeper or has more parts than there are characters.
  let size := t.length + 2
  (lines? size size [] [] t).map Item.toMembers

end Toml

end Preflight
