import Preflight.Proofs.Terminal.LineEditor.State
import Preflight.Proofs.Terminal.Reader

/-!
This module contains the way of the line editor through the bytes of an input, when nothing goes
wrong with the output.
-/

namespace Preflight

namespace Output

def IsWorking (output : Output) : Prop := output.brokenFlush = none ∧ output.brokenAfter = none

theorem exists_emit_of_isWorking {output : Output} (h : output.IsWorking) (t : Text) :
    ∃ output', output.emit t = (.ok (), output') ∧ output'.IsWorking := by
  obtain ⟨hflush, hafter⟩ := h
  simp [emit, write, flush, isBroken, IsWorking, hflush, hafter]

end Output

namespace LineEditor

structure Position where
  state : State
  decoder : Decoder
  deriving DecidableEq, Repr

def Position.start : Position := ⟨.start, .ground⟩

def settle (position : Position) : Reaction → Except (Except ReadError Text) Position
  | .ignored => .ok position
  | .redrawn state _ => .ok { position with state := state }
  | .finished text => .error (.ok text)
  | .ended => .error (.error .ended)

def advance (editor : LineEditor) (position : Position) (byte : UInt8) :
    Except (Except ReadError Text) Position :=
  if byte = Reader.ctrlC then .error (.error .interrupted)
  else
    let (decoder, decoded) := position.decoder.feed byte
    settle { position with decoder := decoder } (editor.react position.state byte decoded)

def follow (editor : LineEditor) (position : Position) (bytes : List UInt8) :
    Except (Except ReadError Text) Position := bytes.foldlM editor.advance position

def conclude : Except (Except ReadError Text) Position → Except ReadError Text
  | .error result => result
  | .ok _ => .error .ended

def lineOf (editor : LineEditor) (decoder : Decoder) (output : Output) (bytes : List UInt8) :
    Except ReadError Text := (editor.readLine ⟨⟨bytes.map .byte, false, decoder⟩, output⟩).1

variable {editor : LineEditor} {position : Position} {bytes more : List UInt8}

def resume (editor : LineEditor) (state : State) (output : Output) :
    Except ReadError (UInt8 × Decoded) × Reader → Except ReadError Text × Console
  | (.error error, reader) => (.error error, ⟨reader, output⟩)
  | (.ok (byte, decoded), reader) =>
    match editor.react state byte decoded with
    | .ignored => editor.edit state ⟨reader, output⟩
    | .redrawn state before =>
      match output.emit (before ++ editor.drawing state) with
      | (.ok (), output) => editor.edit state ⟨reader, output⟩
      | (.error error, output) => (.error error, ⟨reader, output⟩)
    | .finished text =>
      match output.emit ['\r', '\n'] with
      | (.ok (), output) => (.ok text, ⟨reader, output⟩)
      | (.error error, output) => (.error error, ⟨reader, output⟩)
    | .ended =>
      match output.emit ['\r', '\n'] with
      | (.ok (), output) => (.error .ended, ⟨reader, output⟩)
      | (.error error, output) => (.error error, ⟨reader, output⟩)

theorem edit_eq (editor : LineEditor) (state : State) (console : Console) :
    editor.edit state console = editor.resume state console.output console.reader.readKey := by
  rw [edit.eq_def]
  split
  · next h => exact (congrArg (editor.resume state console.output) h).symm
  · next h => exact (congrArg (editor.resume state console.output) h).symm

@[simp]
theorem follow_nil : editor.follow position [] = .ok position := rfl

theorem follow_cons (byte : UInt8) (bytes : List UInt8) :
    editor.follow position (byte :: bytes) =
      (editor.advance position byte).bind (editor.follow · bytes) := rfl

theorem follow_singleton (byte : UInt8) :
    editor.follow position [byte] = editor.advance position byte := by
  rw [follow_cons]
  cases editor.advance position byte <;> rfl

theorem follow_append (bytes more : List UInt8) :
    editor.follow position (bytes ++ more) =
      (editor.follow position bytes).bind (editor.follow · more) := by
  unfold follow
  rw [List.foldlM_append]
  rfl

theorem fst_edit {output : Output} (h : output.IsWorking) (position : Position)
    (bytes : List UInt8) :
    (editor.edit position.state ⟨⟨bytes.map .byte, false, position.decoder⟩, output⟩).1 =
      conclude (editor.follow position bytes) := by
  induction bytes generalizing position output with
  | nil =>
    rw [edit_eq]
    rfl
  | cons byte bytes ih =>
    rw [edit_eq, List.map_cons, Reader.readKey_byte_cons, follow_cons, advance]
    split
    · rfl
    · dsimp only [resume]
      cases editor.react position.state byte (position.decoder.feed byte).2 with
      | ignored => apply ih h { position with decoder := (position.decoder.feed byte).1 }
      | redrawn state before =>
        obtain ⟨output', hemit, hworking⟩ :=
          Output.exists_emit_of_isWorking h (before ++ editor.drawing state)
        dsimp only
        rw [hemit]
        apply ih hworking ⟨state, (position.decoder.feed byte).1⟩
      | finished text =>
        obtain ⟨output', hemit, _⟩ := Output.exists_emit_of_isWorking h ['\r', '\n']
        dsimp only
        rw [hemit]
        rfl
      | ended =>
        obtain ⟨output', hemit, _⟩ := Output.exists_emit_of_isWorking h ['\r', '\n']
        dsimp only
        rw [hemit]
        rfl

theorem lineOf_eq {output : Output} (h : output.IsWorking) (decoder : Decoder)
    (bytes : List UInt8) :
    editor.lineOf decoder output bytes = conclude (editor.follow .start bytes) := by
  obtain ⟨output', hemit, hworking⟩ :=
    Output.exists_emit_of_isWorking h (editor.drawing .start)
  unfold lineOf readLine
  rw [hemit]
  apply fst_edit hworking .start

def IsTextByte (byte : UInt8) : Prop := 0x20 ≤ byte ∧ byte ≠ 0x7F

theorem feed_ground_of_isTextByte {byte : UInt8} (h : IsTextByte byte) :
    Decoder.ground.feed byte = (.ground, .unrecognized) := by
  obtain ⟨hlow, hdelete⟩ := h
  have hescape : byte ≠ 0x1B := by
    rintro rfl
    contradiction
  have hkey : Decoder.singleKey? byte = none := by
    unfold Decoder.singleKey?
    rw [if_neg, if_neg, if_neg hdelete]
    · rintro rfl
      contradiction
    · rintro (rfl | rfl)
      · contradiction
      · contradiction
  unfold Decoder.feed
  dsimp only
  rw [if_neg hescape, hkey]

section react

variable {state : State} {byte : UInt8}

theorem settle_react_of_le (h : 0x20 ≤ byte) (decoder : Decoder) :
    settle ⟨state, decoder⟩ (editor.react state byte .unrecognized) =
      .ok ⟨(state.pushByte byte).1, decoder⟩ := by
  unfold react
  dsimp only
  rw [if_neg, if_neg, if_neg]
  · split
    · next heq =>
      rw [heq]
      rfl
    · next heq =>
      rw [heq]
      rfl
  · simpa using h
  · rintro rfl
    contradiction
  · rintro ⟨rfl, _⟩
    contradiction

theorem settle_react_of_lt (h : byte < 0x20) (decoder : Decoder) :
    settle ⟨state, decoder⟩ (editor.react state byte .unrecognized) =
      if byte = Prompt.ctrlD ∧ state.isBlank then .error (.error .ended)
      else .ok ⟨state, decoder⟩ := by
  unfold react
  dsimp only
  split
  · rfl
  · split
    · rfl
    · rfl

theorem settle_react_event {event : KeyEvent} (h : event.key ≠ .enter) (decoder : Decoder) :
    settle ⟨state, decoder⟩ (editor.react state byte (.event event)) =
      .ok ⟨state.press event.key, decoder⟩ := by
  obtain ⟨key, modifiers⟩ := event
  cases key <;> first | contradiction | rfl

end react

theorem isTextByte_of_mem_encodeChar {c : Char} (h : 0x20 ≤ c.toNat ∧ c.toNat ≠ 0x7F) {byte : UInt8}
    (hmem : byte ∈ Utf8.encodeChar c) : IsTextByte byte := by
  unfold IsTextByte
  rw [UInt8.le_iff_toNat_le, ← UInt8.toNat_inj.ne]
  by_cases hbyte : byte.toNat < 0x80
  · have := Utf8.mem_encodeChar hmem hbyte
    simp
    omega
  · simp
    omega

theorem advance_of_feed {state : State} {decoder decoder' : Decoder} {byte : UInt8}
    {decoded : Decoded} (hctrlC : byte ≠ Reader.ctrlC)
    (hfeed : decoder.feed byte = (decoder', decoded)) :
    editor.advance ⟨state, decoder⟩ byte =
      settle ⟨state, decoder'⟩ (editor.react state byte decoded) := by
  rw [advance, if_neg hctrlC, hfeed]

theorem follow_cons_of_pending {state : State} {decoder decoder' : Decoder} {byte : UInt8}
    (hctrlC : byte ≠ Reader.ctrlC) (hfeed : decoder.feed byte = (decoder', .pending))
    (bytes : List UInt8) :
    editor.follow ⟨state, decoder⟩ (byte :: bytes) = editor.follow ⟨state, decoder'⟩ bytes := by
  rw [follow_cons, advance_of_feed hctrlC hfeed]
  rfl

theorem follow_parameters {parameters : List UInt8}
    (h : parameters.all Decoder.isParameter = true) (state : State) (number second : Nat)
    (semicolon : Bool) :
    editor.follow ⟨state, .sequence number second semicolon⟩ parameters =
      .ok ⟨state, (Decoder.sequence number second semicolon).after parameters⟩ := by
  induction parameters generalizing number second semicolon with
  | nil => rfl
  | cons byte parameters ih =>
    rw [List.all_cons, Bool.and_eq_true] at h
    obtain ⟨number', next, semicolon', hfeed, _⟩ :=
      Decoder.feed_parameter number second semicolon h.1
    rw [follow_cons_of_pending (Reader.ne_ctrlC_of_isParameter h.1) hfeed, ih h.2]
    rw [Decoder.after, Decoder.after, List.foldl_cons, hfeed]

theorem follow_control {parameters : List UInt8} {final : UInt8}
    (hparameters : parameters.all Decoder.isParameter = true)
    (hfinal : Decoder.isParameter final = false) (hctrlC : final ≠ Reader.ctrlC) (state : State) :
    editor.follow ⟨state, .ground⟩ (0x1B :: 0x5B :: parameters ++ [final]) =
      match Decoder.finalKey? (Decoder.firstNumber 0 parameters) final with
      | some key => .ok ⟨state.press key, .ground⟩
      | none => settle ⟨state, .ground⟩ (editor.react state final .unrecognized) := by
  obtain ⟨second, semicolon, hafter⟩ := Decoder.exists_after_parameters 0 0 false hparameters
  have hne := Decoder.finalKey?_ne_enter (Decoder.firstNumber 0 parameters) final
  have hfeed := Decoder.feed_final (Decoder.firstNumber 0 parameters) second semicolon hfinal
  rw [List.cons_append, follow_cons_of_pending (by decide) rfl]
  rw [List.cons_append, follow_cons_of_pending (by decide) rfl]
  rw [follow_append, follow_parameters hparameters, hafter, if_neg Bool.false_ne_true]
  change editor.follow ⟨state, _⟩ [final] = _
  rw [follow_singleton]
  cases hkey : Decoder.finalKey? (Decoder.firstNumber 0 parameters) final with
  | none =>
    rw [hkey] at hfeed
    rw [advance_of_feed hctrlC hfeed]
  | some key =>
    rw [hkey] at hfeed hne
    rw [advance_of_feed hctrlC hfeed, settle_react_event]
    simpa using hne

theorem follow_enter {byte : UInt8} (h : byte = 0x0D ∨ byte = 0x0A) (state : State) :
    editor.follow ⟨state, .ground⟩ [byte] =
      if Odd (Text.backslashesAtEnd state.row) then .ok ⟨state.nextRow, .ground⟩
      else .error (.ok (state.committed ++ state.row)) := by
  have hctrlC : byte ≠ Reader.ctrlC := by
    rcases h with rfl | rfl
    · decide
    · decide
  have hfeed : Decoder.ground.feed byte = (.ground, .event ⟨.enter, .none⟩) := by
    rcases h with rfl | rfl
    · rfl
    · rfl
  rw [follow_singleton, advance_of_feed hctrlC hfeed]
  unfold react
  dsimp only
  split
  · next h =>
    rw [if_pos (state.isContinued_iff.1 h)]
    rfl
  · next h =>
    rw [if_neg (mt state.isContinued_iff.2 h)]
    rfl

theorem follow_text {state : State} (h : ∀ byte ∈ bytes, IsTextByte byte) :
    editor.follow ⟨state, .ground⟩ bytes = .ok ⟨state.pushBytes bytes, .ground⟩ := by
  induction bytes generalizing state with
  | nil => rfl
  | cons byte bytes ih =>
    simp only [List.mem_cons, forall_eq_or_imp] at h
    have hctrlC : byte ≠ Reader.ctrlC := by
      rintro rfl
      have := h.1.1
      contradiction
    rw [follow_cons, advance, if_neg hctrlC, feed_ground_of_isTextByte h.1]
    dsimp only
    rw [settle_react_of_le h.1.1]
    apply ih h.2

section eq_ok

variable {position' : Position} {byte : UInt8}

theorem exists_of_follow_cons_eq_ok (h : editor.follow position (byte :: bytes) = .ok position') :
    ∃ next, editor.advance position byte = .ok next ∧ editor.follow next bytes = .ok position' := by
  rw [follow_cons] at h
  cases hadvance : editor.advance position byte with
  | error result =>
    rw [hadvance] at h
    contradiction
  | ok next =>
    rw [hadvance] at h
    exact ⟨next, rfl, h⟩

theorem settle_of_advance_eq_ok (h : editor.advance position byte = .ok position') :
    settle ⟨position.state, (position.decoder.feed byte).1⟩
      (editor.react position.state byte (position.decoder.feed byte).2) = .ok position' := by
  unfold advance at h
  split at h
  · contradiction
  · exact h

theorem decoder_settle {reaction : Reaction} (h : settle position reaction = .ok position') :
    position'.decoder = position.decoder := by
  cases reaction <;> cases h <;> rfl

theorem decoder_follow (h : editor.follow position bytes = .ok position') :
    position'.decoder = position.decoder.after bytes := by
  induction bytes generalizing position with
  | nil =>
    cases h
    rfl
  | cons byte bytes ih =>
    obtain ⟨next, hadvance, hfollow⟩ := exists_of_follow_cons_eq_ok h
    rw [ih hfollow, decoder_settle (settle_of_advance_eq_ok hadvance)]
    rfl

theorem isSound_settle {state : State} {decoder : Decoder} {decoded : Decoded}
    (hsound : state.IsSound)
    (h : settle ⟨state, decoder⟩ (editor.react state byte decoded) = .ok position') :
    position'.state.IsSound := by
  cases decoded with
  | pending =>
    cases h
    exact hsound
  | event event =>
    by_cases hkey : event.key = .enter
    · obtain ⟨key, modifiers⟩ := event
      subst hkey
      unfold react at h
      dsimp only at h
      split at h
      · cases h
        apply hsound.nextRow
      · contradiction
    · rw [settle_react_event hkey] at h
      cases h
      apply hsound.press
  | unrecognized =>
    by_cases hbyte : byte < 0x20
    · rw [settle_react_of_lt hbyte] at h
      split at h
      · contradiction
      · cases h
        exact hsound
    · rw [settle_react_of_le (by simpa using hbyte)] at h
      cases h
      apply hsound.pushByte

theorem isSound_follow (hsound : position.state.IsSound)
    (h : editor.follow position bytes = .ok position') : position'.state.IsSound := by
  induction bytes generalizing position with
  | nil =>
    cases h
    exact hsound
  | cons byte bytes ih =>
    obtain ⟨next, hadvance, hfollow⟩ := exists_of_follow_cons_eq_ok h
    apply ih _ hfollow
    apply isSound_settle hsound (settle_of_advance_eq_ok hadvance)

end eq_ok

end LineEditor

end Preflight
