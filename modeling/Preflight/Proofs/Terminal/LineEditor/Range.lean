import Preflight.Proofs.Terminal.LineEditor.Typed

/-!
This module contains that the line editor never reaches out of the row that is being edited, and
where on the input a line that is read ends.
-/

namespace Preflight

namespace LineEditor

def difference? (m n : Nat) : Option Nat := if n ≤ m then some (m - n) else none

namespace State

def insert? (state : State) (c : Char) : Option State :=
  if state.cursor ≤ state.row.length then some (state.insert c) else none

def remove? (state : State) (position : Nat) : Option State :=
  if position < state.row.length then some { state with row := state.row.eraseIdx position }
  else none

def press? (state : State) : Key → Option State
  | .backspace =>
    if 0 < state.cursor then
      (difference? state.cursor 1).bind fun cursor =>
        { state with cursor := cursor }.remove? cursor
    else
      some state
  | .delete => if state.cursor < state.row.length then state.remove? state.cursor else some state
  | key => some (state.press key)

def pushByte? (state : State) (byte : UInt8) : Option (State × Option Utf8.Bytes) :=
  match state.incomplete ++ [byte] with
  | [] => some (state, none)
  | lead :: tails =>
    match Utf8.scan lead tails with
    | .char c _ => ({ state with incomplete := [] }.insert? c).map (·, none)
    | .truncated => some ({ state with incomplete := lead :: tails }, none)
    | .malformed _ => some ({ state with incomplete := [] }, some (lead :: tails))

end State

def drawing? (editor : LineEditor) (state : State) : Option Text :=
  (difference? state.row.length state.cursor).map fun back =>
    '\r' :: Cursor.clearLine.sequence ++
      (if state.continued then editor.continuation else editor.prompt) ++ state.row
      ++ if 0 < back then (Cursor.left (min back maxMove)).sequence else []

/--
Whether the cursor is in the row, so that nothing that is done next reaches out of it, whichever key
or byte it is done for.
-/
structure IsInRange (editor : LineEditor) (state : State) : Prop where
  cursor_le : state.cursor ≤ state.row.length
  press? : ∀ key, state.press? key = some (state.press key)
  pushByte? : ∀ byte, state.pushByte? byte = some (state.pushByte byte)
  drawing? : editor.drawing? state = some (editor.drawing state)

theorem isInRange_of_cursor_le {editor : LineEditor} {state : State}
    (h : state.cursor ≤ state.row.length) : editor.IsInRange state where
  cursor_le := h
  press? key := by
    cases key with
    | backspace =>
      unfold State.press? State.press
      dsimp only
      split
      · next hpos =>
        rw [difference?, if_pos (Nat.succ_le_of_lt hpos), Option.bind_some, State.remove?, if_pos]
        exact Nat.lt_of_lt_of_le (Nat.sub_lt hpos Nat.one_pos) h
      · rfl
    | delete =>
      unfold State.press? State.press
      dsimp only
      split
      · next hlt => rw [State.remove?, if_pos hlt]
      · rfl
    | _ => rfl
  pushByte? byte := by
    unfold State.pushByte?
    cases happend : state.incomplete ++ [byte] with
    | nil => simp at happend
    | cons lead tails =>
      dsimp only
      cases hscan : Utf8.scan lead tails with
      | char c rest =>
        rw [State.pushByte_of_char happend hscan]
        dsimp only
        rw [State.insert?, if_pos h]
        rfl
      | truncated => rw [State.pushByte_of_truncated happend hscan]
      | malformed rest =>
        rw [State.pushByte_of_malformed happend hscan]
        rfl
  drawing? := by
    unfold LineEditor.drawing? LineEditor.drawing difference?
    rw [if_pos h]
    rfl

def Point.state? : Point → Option State
  | .drawing state _ _ => some state
  | .waiting state _ => some state
  | .leaving _ _ => none
  | .done _ _ => none

theorem IsOnCourse.cursor_le {editor : LineEditor} {start : Console} {point : Point}
    (h : IsOnCourse editor start point) {state : State} (hstate : point.state? = some state) :
    state.cursor ≤ state.row.length := by
  cases h with
  | drawing htyped _ =>
    obtain rfl := Option.some.inj hstate
    exact htyped.isProper.isSound.cursor_le
  | waiting htyped _ =>
    obtain rfl := Option.some.inj hstate
    exact htyped.isProper.isSound.cursor_le
  | leaving _ _ => contradiction
  | done _ => contradiction

theorem isInRange_course_and_isRead (editor : LineEditor) (console : Console) :
    (∀ n state, (editor.course console n).state? = some state → editor.IsInRange state) ∧
    (∃ n, editor.course console n =
      .done (editor.readLine console).1 (editor.readLine console).2) ∧
    ∀ text after, editor.readLine console = (.ok text, after) →
      IsRead console.reader.script text after.reader := by
  refine ⟨?_, exists_course_eq_done editor console, fun text after h => (isRead_of_readLine h).1⟩
  intro n state hstate
  exact isInRange_of_cursor_le ((isOnCourse_course editor console n).cursor_le hstate)

def interleaved : List InputItem :=
  ([0x61, 0x5C, 0x0D, 0xFF, 0xC3, 0x1B, 0x5B, 0x44, 0xA9, 0x0A, 0x78] : List UInt8).map .byte

theorem isInRange_course_and_isRead_interleaved :
    ∃ after, (ofPrompt ['$', ' ']).readLine ⟨.ofScript interleaved, .working⟩ =
        (.ok ['a', '\\', '\n', 'é'], after) ∧ after.reader.script = [.byte 0x78] ∧
      IsRead interleaved ['a', '\\', '\n', 'é'] after.reader := by
  have hcourse : (ofPrompt ['$', ' ']).course ⟨.ofScript interleaved, .working⟩ 19 =
      .done (.ok ['a', '\\', '\n', 'é']) _ := rfl
  have hread := readLine_of_course hcourse
  exact ⟨_, hread, rfl, (isInRange_course_and_isRead _ _).2.2 _ _ hread⟩

end LineEditor

end Preflight
