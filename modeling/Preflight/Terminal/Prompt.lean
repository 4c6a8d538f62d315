import Preflight.Style.Color
import Preflight.Terminal.Output

/-!
This module contains questions that are answered with a single key.
-/

namespace Preflight

namespace Prompt

def ctrlD : UInt8 := 0x04

structure Manner where
  echo : Bool
  tagColor : Option Color
  deriving DecidableEq, Repr

def Manner.plain : Manner := ⟨true, none⟩

def capitalize (c : Char) : Char :=
  if 'a' ≤ c ∧ c ≤ 'z' then Char.ofNat (c.toNat - 32) else c

def choices : List Char → Text
  | [] => []
  | c :: cs => capitalize c :: cs.flatMap fun c => ['/', c]

def question (manner : Manner) (message : Text) (options : List Char) : Text :=
  let tag :=
    match manner.tagColor with
    | some color => color.paint "ask".toList
    | none => "ask".toList
  tag ++ ": ".toList ++ message ++ " [".toList ++ choices options ++ "] ".toList

inductive Reply where
  | answer (c : Char)
  | ended
  | ignored
  deriving DecidableEq, Repr

def reply (first : Char) (options : List Char) (byte : UInt8) (decoded : Decoded) : Reply :=
  match decoded with
  -- The first option is the default.
  | .event ⟨.enter, _⟩ => .answer first
  | .event _ => .ignored
  | .pending => .ignored
  | .unrecognized =>
    if byte = ctrlD then .ended
    else
      let c := Char.ofNat byte.toNat
      if byte < 0x80 ∧ c ∈ options then .answer c else .ignored

def awaitAnswer (first : Char) (options : List Char) (reader : Reader) :
    Except ReadError Char × Reader :=
  match h : reader.readKey with
  | (.error error, reader) => (.error error, reader)
  | (.ok (byte, decoded), next) =>
    have := Reader.length_readKey_lt h
    match reply first options byte decoded with
    | .answer c => (.ok c, next)
    | .ended => (.error .ended, next)
    | .ignored => awaitAnswer first options next
termination_by reader.script.length

def confirm (manner : Manner) (message : Text) (options : List Char) (console : Console) :
    Except ReadError Char × Console :=
  match options with
  | [] => (.error (.io (.other "question has no options".toList)), console)
  | first :: _ =>
    match console.output.emit (question manner message options) with
    | (.error error, output) => (.error error, { console with output := output })
    | (.ok (), output) =>
      match awaitAnswer first options console.reader.resetDecoder with
      | (.error error, reader) => (.error error, ⟨reader, output⟩)
      | (.ok c, reader) =>
        if manner.echo then
          match output.emit [c, '\n'] with
          | (.ok (), output) => (.ok c, ⟨reader, output⟩)
          | (.error error, output) => (.error error, ⟨reader, output⟩)
        else
          (.ok c, ⟨reader, output⟩)

def acceptDefault (options : List Char) : Except ReadError Char :=
  match options with
  | [] => .error (.io (.other "no options".toList))
  | first :: _ => .ok first

end Prompt

end Preflight
