import Mathlib.Algebra.Group.Nat.Even
import Preflight.Proofs.Terminal.Keyboard
import Preflight.Proofs.Terminal.LineEditor
import Preflight.Proofs.Text.Backslashes

/-!
This module contains that the line editor edits the way one expects it to: whatever is typed, it
reads the same line as an editor that knows nothing of bytes and positions.
-/

namespace Preflight

/--
A line that is being edited: the rows that are finished, and the characters on the left and on the
right of the cursor, those next to the cursor first.
-/
structure Draft where
  committed : Text
  left : Text
  right : Text

namespace Draft

def empty : Draft := ⟨[], [], []⟩

def row (draft : Draft) : Text := draft.left.reverse ++ draft.right

def press (draft : Draft) : Key → Draft
  | .backspace => { draft with left := draft.left.tail }
  | .delete => { draft with right := draft.right.tail }
  | .arrowLeft =>
    match draft.left with
    | [] => draft
    | c :: left => { draft with left := left, right := c :: draft.right }
  | .arrowRight =>
    match draft.right with
    | [] => draft
    | c :: right => { draft with left := c :: draft.left, right := right }
  | .home => { draft with left := [], right := draft.row }
  | .end_ => { draft with left := draft.row.reverse, right := [] }
  | _ => draft

def enter (draft : Draft) : Except (Except ReadError Text) Draft :=
  if Odd (Text.backslashesAtEnd draft.row) then
    .ok ⟨draft.committed ++ draft.row ++ ['\n'], [], []⟩
  else
    .error (.ok (draft.committed ++ draft.row))

def type (draft : Draft) : Stroke → Except (Except ReadError Text) Draft
  | .char c _ => .ok { draft with left := c :: draft.left }
  | .key key _ _ _ => .ok (draft.press key)
  | .backspace => .ok (draft.press .backspace)
  | .enter _ _ => draft.enter
  | .ctrlD =>
    if draft.committed = [] ∧ draft.row = [] then .error (.error .ended) else .ok draft
  | .ctrlL => .ok draft
  | .alt _ _ => .ok draft
  | .control _ _ => .ok draft

def lineOf (draft : Draft) (strokes : List Stroke) : Except ReadError Text :=
  match strokes.foldlM type draft with
  | .error result => result
  | .ok _ => .error .ended

def toState (draft : Draft) : LineEditor.State :=
  ⟨draft.committed, draft.row, draft.left.length, [], !draft.committed.isEmpty⟩

theorem insertIdx_append (s t : Text) (c : Char) :
    (s ++ t).insertIdx s.length c = s ++ c :: t := by
  induction s with
  | nil => rfl
  | cons d s ih => simp [ih]

section toState

variable (draft : Draft)

theorem insert_toState (c : Char) :
    draft.toState.insert c = { draft with left := c :: draft.left }.toState := by
  have hinsert := insertIdx_append draft.left.reverse draft.right c
  rw [List.length_reverse] at hinsert
  simp [toState, LineEditor.State.insert, row, hinsert]

theorem press_toState (key : Key) : draft.toState.press key = (draft.press key).toState := by
  obtain ⟨committed, left, right⟩ := draft
  cases key with
  | backspace =>
    cases left with
    | nil => simp [toState, press, LineEditor.State.press, row]
    | cons c left =>
      simp [toState, press, LineEditor.State.press, row, List.eraseIdx_append_of_length_le]
  | delete =>
    cases right with
    | nil => simp [toState, press, LineEditor.State.press, row]
    | cons c right =>
      simp [toState, press, LineEditor.State.press, row, List.eraseIdx_append_of_length_le]
  | arrowLeft =>
    cases left with
    | nil => simp [toState, press, LineEditor.State.press, row]
    | cons c left => simp [toState, press, LineEditor.State.press, row]
  | arrowRight =>
    cases right with
    | nil => simp [toState, press, LineEditor.State.press, row]
    | cons c right => simp [toState, press, LineEditor.State.press, row]
  | home => simp [toState, press, LineEditor.State.press, row]
  | end_ => simp [toState, press, LineEditor.State.press, row, Nat.add_comm]
  | _ => rfl

variable (editor : LineEditor)

theorem follow_enter {byte : UInt8} (h : byte = 0x0D ∨ byte = 0x0A) :
    editor.follow ⟨draft.toState, .ground⟩ [byte] = draft.enter.map (⟨·.toState, .ground⟩) := by
  have hrow : draft.toState.row = draft.row := rfl
  rw [LineEditor.follow_enter h, hrow]
  unfold enter
  split
  · simp [LineEditor.State.nextRow, toState, row, Except.map]
  · rfl

theorem follow_ctrlD :
    editor.follow ⟨draft.toState, .ground⟩ [Prompt.ctrlD] =
      (draft.type .ctrlD).map (⟨·.toState, .ground⟩) := by
  have hfeed : Decoder.ground.feed Prompt.ctrlD = (.ground, .unrecognized) := rfl
  have hblank : draft.toState.isBlank = true ↔ draft.committed = [] ∧ draft.row = [] := by
    simp [toState, LineEditor.State.isBlank]
  rw [LineEditor.follow_singleton, LineEditor.advance_of_feed (by decide) hfeed]
  rw [LineEditor.settle_react_of_lt (by decide)]
  unfold type
  by_cases h : draft.committed = [] ∧ draft.row = []
  · rw [if_pos ⟨rfl, hblank.2 h⟩]
    dsimp only
    rw [if_pos h]
    rfl
  · rw [if_neg]
    · dsimp only
      rw [if_neg h]
      rfl
    · rintro ⟨_, h'⟩
      apply h (hblank.1 h')

theorem follow_control {byte : UInt8}
    (h : byte < 0x20 ∧
      byte ∉ [Reader.ctrlC, Prompt.ctrlD, LineEditor.ctrlL, 0x0A, 0x0D, 0x1B]) :
    editor.follow ⟨draft.toState, .ground⟩ [byte] = .ok ⟨draft.toState, .ground⟩ := by
  obtain ⟨hlow, hmem⟩ := h
  simp only [List.mem_cons, List.not_mem_nil, or_false, not_or] at hmem
  obtain ⟨hctrlC, hctrlD, _, hlineFeed, hreturn, hescape⟩ := hmem
  rw [LineEditor.follow_singleton]
  by_cases htab : byte = 0x09
  · subst htab
    rfl
  · have hkey : Decoder.singleKey? byte = none := by
      unfold Decoder.singleKey?
      rw [if_neg, if_neg htab, if_neg]
      · rintro rfl
        contradiction
      · simp [hreturn, hlineFeed]
    have hfeed : Decoder.ground.feed byte = (.ground, .unrecognized) := by
      unfold Decoder.feed
      dsimp only
      rw [if_neg hescape, hkey]
    rw [LineEditor.advance_of_feed hctrlC hfeed, LineEditor.settle_react_of_lt hlow]
    rw [if_neg]
    simp [hctrlD]

theorem follow_bytes (stroke : Stroke) :
    editor.follow ⟨draft.toState, .ground⟩ stroke.bytes =
      (draft.type stroke).map (⟨·.toState, .ground⟩) := by
  cases stroke with
  | char c hc =>
    unfold Stroke.bytes type
    rw [LineEditor.follow_text, LineEditor.State.pushBytes_encodeChar, insert_toState]
    · rfl
    · rfl
    · intro byte h
      apply LineEditor.isTextByte_of_mem_encodeChar hc h
  | key key parameters final hsent =>
    obtain ⟨hkey, hfinal⟩ := Key.finalKey?_of_isSentAs hsent
    have hctrlC : final ≠ Reader.ctrlC := by
      rintro rfl
      contradiction
    unfold Stroke.bytes
    rw [LineEditor.follow_control hsent.1 hfinal hctrlC, hkey]
    dsimp only
    rw [press_toState]
    rfl
  | backspace =>
    have hfeed : Decoder.ground.feed 0x7F = (.ground, .event ⟨.backspace, .none⟩) := rfl
    unfold Stroke.bytes
    rw [LineEditor.follow_singleton, LineEditor.advance_of_feed (by decide) hfeed]
    rw [LineEditor.settle_react_event (by decide), press_toState]
    rfl
  | enter byte hbyte => apply follow_enter draft editor hbyte
  | ctrlD => apply follow_ctrlD
  | ctrlL => rfl
  | alt byte hbyte =>
    unfold Stroke.bytes
    rw [LineEditor.follow_cons_of_pending (by decide) rfl, LineEditor.follow_singleton]
    rw [LineEditor.advance_of_feed hbyte.2 (Decoder.feed_escape hbyte.1)]
    rfl
  | control byte hbyte =>
    unfold Stroke.bytes
    rw [follow_control draft editor hbyte]
    rfl

theorem follow_strokes (strokes : List Stroke) :
    editor.follow ⟨draft.toState, .ground⟩ (strokes.flatMap Stroke.bytes) =
      (strokes.foldlM type draft).map (⟨·.toState, .ground⟩) := by
  induction strokes generalizing draft with
  | nil => rfl
  | cons stroke strokes ih =>
    rw [List.flatMap_cons, LineEditor.follow_append, follow_bytes, List.foldlM_cons]
    cases draft.type stroke with
    | error result => rfl
    | ok draft => apply ih

end toState

end Draft

namespace LineEditor

theorem lineOf_strokes (editor : LineEditor) (decoder : Decoder) {output : Output}
    (h : output.IsWorking) (strokes : List Stroke) :
    editor.lineOf decoder output (strokes.flatMap Stroke.bytes) =
      Draft.empty.lineOf strokes := by
  have hfollow := Draft.follow_strokes Draft.empty editor strokes
  rw [lineOf_eq h]
  change conclude (editor.follow ⟨Draft.empty.toState, .ground⟩ _) = _
  rw [hfollow]
  unfold Draft.lineOf
  cases strokes.foldlM Draft.type Draft.empty with
  | error result => rfl
  | ok draft => rfl

def twoRows : List Stroke :=
  [.char 'é' (by decide), .char 'b' (by decide),
    .key .arrowLeft [0x31, 0x3B, 0x35] 0x44 (by decide), .char 'a' (by decide),
    .key .end_ [0x30, 0x34, 0x3B, 0x32] 0x7E (by decide), .char '\\' (by decide),
    .enter 0x0D (by decide), .ctrlD, .char 'x' (by decide), .backspace, .alt 0x0D (by decide),
    .enter 0x0A (by decide), .char 'y' (by decide)]

theorem lineOf_twoRows :
    Output.working.IsWorking ∧
      (ofPrompt ['$', ' ']).lineOf .escape .working (twoRows.flatMap Stroke.bytes) =
        .ok "éab\\\n".toList :=
  ⟨⟨rfl, rfl⟩, (lineOf_strokes _ _ ⟨rfl, rfl⟩ twoRows).trans rfl⟩

end LineEditor

end Preflight
