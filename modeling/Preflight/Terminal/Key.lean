/-!
This module contains the keys of a terminal and the decoder that recognizes them in the bytes that a
terminal sends.
-/

namespace Preflight

inductive Key where
  | unknown
  | enter
  | tab
  | backspace
  | arrowUp
  | arrowDown
  | arrowLeft
  | arrowRight
  | home
  | end_
  | pageUp
  | pageDown
  | insert
  | delete
  deriving DecidableEq, Repr

structure Modifiers where
  shift : Bool
  alt : Bool
  ctrl : Bool
  deriving DecidableEq, Repr

namespace Modifiers

def none : Modifiers := ⟨false, false, false⟩

def ofCode (code : Nat) : Modifiers :=
  if 2 ≤ code ∧ code ≤ 8 then
    let bits := code - 1
    ⟨bits % 2 = 1, bits / 2 % 2 = 1, bits / 4 % 2 = 1⟩
  else
    none

end Modifiers

structure KeyEvent where
  key : Key
  modifiers : Modifiers
  deriving DecidableEq, Repr

inductive Decoded where
  | event (event : KeyEvent)
  | pending
  | unrecognized
  deriving DecidableEq, Repr

/--
The decoder of escape sequences: what it has read of one.

- `ground`: nothing.
- `escape`: the escape character.
- `sequence`: the escape character, `[`, and then digits and semicolons. `first` is the number before
  the first semicolon and `second` the one after it, in which further semicolons are ignored.
-/
inductive Decoder where
  | ground
  | escape
  | sequence (first second : Nat) (semicolon : Bool)
  deriving DecidableEq, Repr

namespace Decoder

def isPending (decoder : Decoder) : Bool := decoder ≠ ground

def maxParameter : Nat := 0xFFFFFFFF

def pushDigit (parameter digit : Nat) : Nat :=
  min (min (parameter * 10) maxParameter + digit) maxParameter

def finalKey? (first : Nat) (byte : UInt8) : Option Key :=
  if byte = 0x41 then some .arrowUp
  else if byte = 0x42 then some .arrowDown
  else if byte = 0x43 then some .arrowRight
  else if byte = 0x44 then some .arrowLeft
  else if byte = 0x48 then some .home
  else if byte = 0x46 then some .end_
  else if byte = 0x7E then
    match first with
    | 1 => some .home
    | 2 => some .insert
    | 3 => some .delete
    | 4 => some .end_
    | 5 => some .pageUp
    | 6 => some .pageDown
    | _ => none
  else none

def singleKey? (byte : UInt8) : Option Key :=
  if byte = 0x0D ∨ byte = 0x0A then some .enter
  else if byte = 0x09 then some .tab
  else if byte = 0x7F then some .backspace
  else none

def feed (decoder : Decoder) (byte : UInt8) : Decoder × Decoded :=
  match decoder with
  | ground =>
    if byte = 0x1B then (escape, .pending)
    else
      match singleKey? byte with
      | some key => (ground, .event ⟨key, .none⟩)
      | none => (ground, .unrecognized)
  | escape =>
    if byte = 0x5B then (sequence 0 0 false, .pending)
    else (ground, .event ⟨.unknown, { Modifiers.none with alt := true }⟩)
  | sequence first second semicolon =>
    if 0x30 ≤ byte ∧ byte ≤ 0x39 then
      let digit := byte.toNat - 0x30
      if semicolon then (sequence first (pushDigit second digit) semicolon, .pending)
      else (sequence (pushDigit first digit) second semicolon, .pending)
    else if byte = 0x3B then (sequence first second true, .pending)
    else
      match finalKey? first byte with
      | some key => (ground, .event ⟨key, .ofCode (if semicolon then second else 1)⟩)
      | none => (ground, .unrecognized)

end Decoder

end Preflight
