import Preflight.Style.Cursor
import Preflight.Terminal.Output
import Preflight.Terminal.Prompt
import Preflight.Text.Utf8

/-!
This module contains the editor with which one command line is typed on a terminal. Every edit
redraws the row that is being edited.

A row that ends in a backslash which is not escaped itself is continued on a new row. The backslash
and a line feed stay in the text.
-/

namespace Preflight

structure LineEditor where
  prompt : Text
  continuation : Text
  note : Utf8.Bytes → Text

namespace LineEditor

def ofPrompt (prompt : Text) : LineEditor := ⟨prompt, ['>', ' '], fun _ => []⟩

/--
What has been typed: the rows that are finished, the row that is being edited with the position of
the cursor in it, and the bytes of a character that is not complete yet.
-/
structure State where
  committed : Text
  row : Text
  cursor : Nat
  incomplete : Utf8.Bytes
  continued : Bool
  deriving DecidableEq, Repr

namespace State

def start : State := ⟨[], [], 0, [], false⟩

def insert (state : State) (c : Char) : State :=
  { state with row := state.row.insertIdx state.cursor c, cursor := state.cursor + 1 }

def isBlank (state : State) : Bool := state.committed.isEmpty && state.row.isEmpty

def isContinued (state : State) : Bool :=
  (state.row.reverse.takeWhile (· == '\\')).length % 2 == 1

def pushByte (state : State) (byte : UInt8) : State × Option Utf8.Bytes :=
  match state.incomplete ++ [byte] with
  | [] => (state, none)
  | lead :: tails =>
    match Utf8.scan lead tails with
    | .char c _ => ({ state with incomplete := [] }.insert c, none)
    | .truncated => ({ state with incomplete := lead :: tails }, none)
    | .malformed _ => ({ state with incomplete := [] }, some (lead :: tails))

def press (state : State) : Key → State
  | .backspace =>
    if 0 < state.cursor then
      { state with row := state.row.eraseIdx (state.cursor - 1), cursor := state.cursor - 1 }
    else
      state
  | .delete =>
    if state.cursor < state.row.length then { state with row := state.row.eraseIdx state.cursor }
    else state
  | .arrowLeft => { state with cursor := state.cursor - 1 }
  | .arrowRight => { state with cursor := min (state.cursor + 1) state.row.length }
  | .home => { state with cursor := 0 }
  | .end_ => { state with cursor := state.row.length }
  | _ => state

def nextRow (state : State) : State :=
  { state with
    committed := state.committed ++ state.row ++ ['\n']
    row := []
    cursor := 0
    continued := true }

end State

def ctrlL : UInt8 := 0x0C

inductive Reaction where
  | ignored
  | redrawn (state : State) (before : Text)
  | finished (text : Text)
  | ended
  deriving DecidableEq, Repr

def react (editor : LineEditor) (state : State) (byte : UInt8) (decoded : Decoded) : Reaction :=
  match decoded with
  | .pending => .ignored
  | .event ⟨.enter, _⟩ =>
    if state.isContinued then .redrawn state.nextRow ['\r', '\n']
    else .finished (state.committed ++ state.row)
  | .event ⟨key, _⟩ => .redrawn (state.press key) []
  | .unrecognized =>
    if byte = Prompt.ctrlD ∧ state.isBlank then .ended
    else if byte = ctrlL then
      .redrawn state (Cursor.clearScreen.sequence ++ (Cursor.moveTo 1 1).sequence)
    else if byte < 0x20 then .ignored
    else
      match state.pushByte byte with
      | (state, none) => .redrawn state []
      | (state, some dropped) => .redrawn state (editor.note dropped)

def maxMove : Nat := 0xFFFF

def drawing (editor : LineEditor) (state : State) : Text :=
  -- Finished rows stay above, on lines of their own.
  let prompt := if state.continued then editor.continuation else editor.prompt
  let back := state.row.length - state.cursor
  '\r' :: Cursor.clearLine.sequence ++ prompt ++ state.row
    ++ if 0 < back then (Cursor.left (min back maxMove)).sequence else []

def edit (editor : LineEditor) (state : State) (console : Console) :
    Except ReadError Text × Console :=
  match h : console.reader.readKey with
  | (.error error, reader) => (.error error, { console with reader := reader })
  | (.ok (byte, decoded), reader) =>
    have := Reader.length_readKey_lt h
    match editor.react state byte decoded with
    | .ignored => edit editor state { console with reader := reader }
    | .redrawn state before =>
      match console.output.emit (before ++ editor.drawing state) with
      | (.ok (), output) => edit editor state ⟨reader, output⟩
      | (.error error, output) => (.error error, ⟨reader, output⟩)
    | .finished text =>
      match console.output.emit ['\r', '\n'] with
      | (.ok (), output) => (.ok text, ⟨reader, output⟩)
      | (.error error, output) => (.error error, ⟨reader, output⟩)
    | .ended =>
      match console.output.emit ['\r', '\n'] with
      | (.ok (), output) => (.error .ended, ⟨reader, output⟩)
      | (.error error, output) => (.error error, ⟨reader, output⟩)
termination_by console.reader.script.length

def readLine (editor : LineEditor) (console : Console) : Except ReadError Text × Console :=
  let reader := console.reader.resetDecoder
  match console.output.emit (editor.drawing .start) with
  | (.ok (), output) => editor.edit .start ⟨reader, output⟩
  | (.error error, output) => (.error error, ⟨reader, output⟩)

end LineEditor

end Preflight
