import Preflight.Proofs.Terminal.KeyCode
import Preflight.Proofs.Terminal.LineEditor.Course
import Preflight.Proofs.Terminal.Prompt.Answer
import Preflight.Proofs.Text.Utf8.Decode

/-!
This module contains what holds at every point in the reading of a command line: the cursor is in
the row, the rows that are finished are continued, and there are as many of them as Enter was pressed
on the input so far.
-/

namespace Preflight

def Decoded.isEnter : Decoded → Bool
  | .event ⟨key, _⟩ => key = .enter
  | _ => false

def Decoder.enters (decoder : Decoder) (bytes : List UInt8) : Nat :=
  (decoder.answers bytes).countP (·.1.isEnter)

theorem Decoder.enters_append (decoder : Decoder) (front back : List UInt8) :
    decoder.enters (front ++ back) = decoder.enters front + (decoder.after front).enters back := by
  unfold enters
  rw [answers_append, List.countP_append]

theorem Decoder.enters_singleton (decoder : Decoder) (byte : UInt8) :
    decoder.enters [byte] = if (decoder.feed byte).2.isEnter then 1 else 0 := by
  unfold enters
  rw [answers_singleton, List.countP_singleton]

theorem Utf8.le_toNat_of_scan {b : UInt8} {bytes rest : Bytes} {c : Char}
    (h : scan b bytes = .char c rest) (hb : 0x20 ≤ b) : 0x20 ≤ c.toNat := by
  by_contra hc
  have hencode : encodeChar c = [UInt8.ofNat c.toNat] := by
    unfold encodeChar
    exact if_pos (by omega)
  have heq := encodeChar_append_of_scan h
  rw [hencode, List.singleton_append, List.cons.injEq] at heq
  rw [← heq.1, UInt8.le_iff_toNat_le, UInt8.toNat_ofNat_of_lt' (by simp [UInt8.size]; omega)] at hb
  exact hc hb

namespace Output

variable {output output' : Output} {t : Text}

theorem written_of_emit_eq_ok (h : output.emit t = (.ok (), output')) :
    output'.written = output.written ++ t := by
  unfold emit write flush at h
  grind

end Output

namespace LineEditor

namespace State

structure IsProper (state : State) : Prop where
  isSound : state.IsSound
  isPrintable : ∀ c ∈ state.row, 0x20 ≤ c.toNat
  continued_iff : state.continued = true ↔ state.committed ≠ []

theorem isProper_start : start.IsProper := ⟨isSound_start, by simp [start], by simp [start]⟩

section press

variable (state : State) (key : Key)

@[simp]
theorem committed_press : (state.press key).committed = state.committed := by
  cases key <;> simp only [press] <;> split <;> rfl

@[simp]
theorem continued_press : (state.press key).continued = state.continued := by
  cases key <;> simp only [press] <;> split <;> rfl

theorem row_press_subset : (state.press key).row ⊆ state.row := by
  cases key <;> simp only [press] <;> try split
  all_goals first | exact List.Subset.refl _ | exact List.eraseIdx_subset

end press

section pushByte

variable (state : State) (byte : UInt8)

@[simp]
theorem committed_pushByte : (state.pushByte byte).1.committed = state.committed := by
  unfold pushByte
  split
  · rfl
  · split <;> rfl

@[simp]
theorem continued_pushByte : (state.pushByte byte).1.continued = state.continued := by
  unfold pushByte
  split
  · rfl
  · split <;> rfl

end pushByte

namespace IsProper

variable {state : State} (h : state.IsProper)
include h

theorem press (key : Key) : (state.press key).IsProper where
  isSound := h.isSound.press key
  isPrintable c hc := h.isPrintable c (row_press_subset state key hc)
  continued_iff := by simpa using h.continued_iff

theorem exists_lead {byte : UInt8} (hbyte : 0x20 ≤ byte) :
    ∃ lead tails, state.incomplete ++ [byte] = lead :: tails ∧ 0x20 ≤ lead := by
  rcases h.isSound.isOpen with hincomplete | ⟨lead, tails, hincomplete, htails⟩
  · exact ⟨byte, [], by simp [hincomplete], hbyte⟩
  · refine ⟨lead, tails ++ [byte], by simp [hincomplete], ?_⟩
    by_contra hlead
    rw [UInt8.le_iff_toNat_le] at hlead
    have hlt : lead.toNat < 0x20 := Nat.not_le.1 hlead
    rw [Utf8.scan_of_ascii (by omega)] at htails
    contradiction

theorem pushByte {byte : UInt8} (hbyte : 0x20 ≤ byte) : (state.pushByte byte).1.IsProper where
  isSound := h.isSound.pushByte byte
  isPrintable := by
    obtain ⟨lead, tails, happend, hlead⟩ := h.exists_lead hbyte
    cases hscan : Utf8.scan lead tails with
    | char c rest =>
      rw [pushByte_of_char happend hscan]
      intro d hd
      rcases (List.mem_insertIdx h.isSound.cursor_le).1 hd with rfl | hd
      · exact Utf8.le_toNat_of_scan hscan hlead
      · exact h.isPrintable d hd
    | truncated =>
      rw [pushByte_of_truncated happend hscan]
      exact h.isPrintable
    | malformed rest =>
      rw [pushByte_of_malformed happend hscan]
      exact h.isPrintable
  continued_iff := by simpa using h.continued_iff

theorem nextRow : state.nextRow.IsProper where
  isSound := h.isSound.nextRow
  isPrintable := by simp [State.nextRow]
  continued_iff := by simp [State.nextRow]

theorem newline_notMem : '\n' ∉ state.row := fun hmem => absurd (h.isPrintable _ hmem) (by decide)

end IsProper

end State

section react

variable {editor : LineEditor} {state state' : State} {byte : UInt8} {decoded : Decoded}
  {before text : Text}

theorem of_react_eq_redrawn (h : editor.react state byte decoded = .redrawn state' before) :
    decoded.isEnter = true ∧ Odd (Text.backslashesAtEnd state.row) ∧ state' = state.nextRow ∨
      decoded.isEnter = false ∧ (state' = state ∨ (∃ key, state' = state.press key) ∨
        0x20 ≤ byte ∧ state' = (state.pushByte byte).1) := by
  unfold react at h
  split at h
  · contradiction
  · split at h
    · next hcontinued =>
      cases h
      exact .inl ⟨rfl, state.isContinued_iff.1 hcontinued, rfl⟩
    · contradiction
  · next key modifiers hne =>
    cases h
    refine .inr ⟨?_, .inr (.inl ⟨key, rfl⟩)⟩
    simpa [Decoded.isEnter] using hne
  · right
    refine ⟨rfl, ?_⟩
    split_ifs at h with hctrlD hctrlL hcontrol
    · cases h
      exact .inl rfl
    · right
      right
      refine ⟨by simpa using hcontrol, ?_⟩
      split at h
      · next heq =>
        cases h
        rw [heq]
      · next heq =>
        cases h
        rw [heq]

theorem of_react_eq_finished (h : editor.react state byte decoded = .finished text) :
    decoded.isEnter = true ∧ Even (Text.backslashesAtEnd state.row) ∧
      text = state.committed ++ state.row := by
  unfold react at h
  split at h
  · contradiction
  · split at h
    · contradiction
    · next hcontinued =>
      cases h
      rw [← Nat.not_odd_iff_even, ← state.isContinued_iff]
      exact ⟨rfl, hcontinued, rfl⟩
  · contradiction
  · split_ifs at h
    split at h <;> contradiction

theorem isEnter_of_react_eq_ignored (h : editor.react state byte decoded = .ignored) :
    decoded.isEnter = false := by
  unfold react at h
  split at h
  · rfl
  · split at h <;> contradiction
  · contradiction
  · rfl

end react

section reading

structure HasTaken (script taken : List InputItem) (n : Nat) (reader : Reader) : Prop where
  script_eq : script = taken ++ reader.script
  decoder_eq : reader.decoder = Decoder.ground.after (taken.filterMap InputItem.byte?)
  enters_eq : Decoder.ground.enters (taken.filterMap InputItem.byte?) = n

structure IsEntered (script taken : List InputItem) (n : Nat) (last : UInt8)
    (rest : List InputItem) : Prop where
  script_eq : script = taken ++ .byte last :: rest
  enters_eq : Decoder.ground.enters (taken.filterMap InputItem.byte?) = n
  isGround : Decoder.ground.after (taken.filterMap InputItem.byte?) = .ground
  isEnter : Prompt.IsEnter last

variable {script taken : List InputItem} {n : Nat} {reader after : Reader} {byte : UInt8}
  {decoded : Decoded}

theorem HasTaken.exists_front (h : HasTaken script taken n reader)
    (hread : reader.readKey = (.ok (byte, decoded), after)) :
    ∃ front, script = front ++ .byte byte :: after.script ∧
      Decoder.ground.enters (front.filterMap InputItem.byte?) = n ∧
      Decoder.ground.after (front.filterMap InputItem.byte?) = reader.decoder ∧
      reader.decoder.feed byte = (after.decoder, decoded) := by
  obtain ⟨skipped, hscript, hskipped, -, hfeed⟩ := Reader.exists_of_readKey_eq_ok hread
  refine ⟨taken ++ skipped, ?_, ?_, ?_, hfeed⟩
  · rw [h.script_eq, hscript, List.append_assoc]
  · rw [List.filterMap_append, hskipped, List.append_nil, h.enters_eq]
  · rw [List.filterMap_append, hskipped, List.append_nil, h.decoder_eq]

theorem HasTaken.readKey (h : HasTaken script taken n reader)
    (hread : reader.readKey = (.ok (byte, decoded), after)) :
    ∃ taken', HasTaken script taken' (n + if decoded.isEnter then 1 else 0) after := by
  obtain ⟨front, hscript, henters, hafter, hfeed⟩ := h.exists_front hread
  have hbytes : (front ++ [InputItem.byte byte]).filterMap InputItem.byte? =
      front.filterMap InputItem.byte? ++ [byte] := List.filterMap_append
  refine ⟨front ++ [.byte byte], ?_, ?_, ?_⟩
  · rw [hscript, List.append_assoc]
    rfl
  · rw [hbytes, Decoder.after_append, hafter, Decoder.after_cons, hfeed, Decoder.after_nil]
  · rw [hbytes, Decoder.enters_append, henters, hafter, Decoder.enters_singleton, hfeed]

theorem HasTaken.isEntered (h : HasTaken script taken n reader)
    (hread : reader.readKey = (.ok (byte, decoded), after)) (hdecoded : decoded.isEnter = true) :
    ∃ taken', IsEntered script taken' n byte after.script := by
  obtain ⟨front, hscript, henters, hafter, hfeed⟩ := h.exists_front hread
  obtain ⟨modifiers, hevent⟩ : ∃ modifiers, decoded = .event ⟨.enter, modifiers⟩ := by
    unfold Decoded.isEnter at hdecoded
    split at hdecoded
    · next key modifiers =>
      obtain rfl := of_decide_eq_true hdecoded
      exact ⟨modifiers, rfl⟩
    · contradiction
  rw [hevent] at hfeed
  obtain ⟨hground, hbyte⟩ := Decoder.of_feed_eq_enter (congrArg Prod.snd hfeed)
  exact ⟨front, hscript, henters, hafter.trans hground, hbyte⟩

end reading

section invariant

structure IsCommitted (rows : List Text) (text : Text) : Prop where
  text_eq : text = rows.flatMap (· ++ ['\n'])
  newline_notMem : ∀ row ∈ rows, '\n' ∉ row
  odd : ∀ row ∈ rows, Odd (Text.backslashesAtEnd row)

theorem IsCommitted.nextRow {rows : List Text} {state : State}
    (h : IsCommitted rows state.committed) (hproper : state.IsProper)
    (hodd : Odd (Text.backslashesAtEnd state.row)) :
    IsCommitted (rows ++ [state.row]) state.nextRow.committed where
  text_eq := by simp [State.nextRow, h.text_eq]
  newline_notMem := by
    rw [List.forall_mem_append, List.forall_mem_singleton]
    exact ⟨h.newline_notMem, hproper.newline_notMem⟩
  odd := by
    rw [List.forall_mem_append, List.forall_mem_singleton]
    exact ⟨h.odd, hodd⟩

structure IsLine (rows : List Text) (last text : Text) : Prop where
  text_eq : text = rows.flatMap (· ++ ['\n']) ++ last
  newline_notMem_rows : ∀ row ∈ rows, '\n' ∉ row
  odd_rows : ∀ row ∈ rows, Odd (Text.backslashesAtEnd row)
  newline_notMem_last : '\n' ∉ last
  even_last : Even (Text.backslashesAtEnd last)

structure IsTyped (script : List InputItem) (state : State) (reader : Reader) : Prop where
  isProper : state.IsProper
  exists_rows : ∃ rows taken, IsCommitted rows state.committed ∧
    HasTaken script taken rows.length reader

def IsRead (script : List InputItem) (text : Text) (reader : Reader) : Prop :=
  ∃ rows last taken enter, IsLine rows last text ∧
    IsEntered script taken rows.length enter reader.script

variable {script : List InputItem} {state : State} {reader after : Reader} {byte : UInt8}
  {decoded : Decoded} {editor : LineEditor}

theorem IsTyped.redrawn (h : IsTyped script state reader) {state' : State} {before : Text}
    (hread : reader.readKey = (.ok (byte, decoded), after))
    (hreact : editor.react state byte decoded = .redrawn state' before) :
    IsTyped script state' after := by
  obtain ⟨rows, taken, hcommitted, htaken⟩ := h.exists_rows
  obtain ⟨taken', htaken'⟩ := htaken.readKey hread
  rcases of_react_eq_redrawn hreact with ⟨henter, hodd, rfl⟩ | ⟨henter, hstate'⟩
  · rw [if_pos henter] at htaken'
    refine ⟨h.isProper.nextRow, rows ++ [state.row], taken', hcommitted.nextRow h.isProper hodd, ?_⟩
    rwa [List.length_append, List.length_singleton]
  · rw [henter, if_neg Bool.false_ne_true] at htaken'
    rcases hstate' with rfl | ⟨key, rfl⟩ | ⟨hbyte, rfl⟩
    · exact ⟨h.isProper, rows, taken', hcommitted, htaken'⟩
    · exact ⟨h.isProper.press key, rows, taken', by rwa [State.committed_press], htaken'⟩
    · exact ⟨h.isProper.pushByte hbyte, rows, taken', by rwa [State.committed_pushByte], htaken'⟩

theorem IsTyped.ignored (h : IsTyped script state reader)
    (hread : reader.readKey = (.ok (byte, decoded), after))
    (hreact : editor.react state byte decoded = .ignored) : IsTyped script state after := by
  obtain ⟨rows, taken, hcommitted, htaken⟩ := h.exists_rows
  obtain ⟨taken', htaken'⟩ := htaken.readKey hread
  rw [isEnter_of_react_eq_ignored hreact, if_neg Bool.false_ne_true] at htaken'
  exact ⟨h.isProper, rows, taken', hcommitted, htaken'⟩

theorem IsTyped.finished (h : IsTyped script state reader) {text : Text}
    (hread : reader.readKey = (.ok (byte, decoded), after))
    (hreact : editor.react state byte decoded = .finished text) : IsRead script text after := by
  obtain ⟨rows, taken, hcommitted, htaken⟩ := h.exists_rows
  obtain ⟨henter, heven, rfl⟩ := of_react_eq_finished hreact
  obtain ⟨taken', hentered⟩ := htaken.isEntered hread henter
  refine ⟨rows, state.row, taken', byte, ?_, hentered⟩
  exact ⟨congrArg (· ++ state.row) hcommitted.text_eq, hcommitted.newline_notMem, hcommitted.odd,
    h.isProper.newline_notMem, heven⟩

inductive IsOnCourse (editor : LineEditor) (start : Console) : Point → Prop where
  | drawing {state : State} {before : Text} {console : Console}
    (htyped : IsTyped start.reader.script state console.reader)
    (hshown : ∃ shown, console.output.written = start.output.written ++ shown) :
    IsOnCourse editor start (.drawing state before console)
  | waiting {state : State} {console : Console}
    (htyped : IsTyped start.reader.script state console.reader)
    (hshown : ∃ shown,
      console.output.written = start.output.written ++ shown ++ editor.drawing state) :
    IsOnCourse editor start (.waiting state console)
  | leaving {result : Except ReadError Text} {console : Console}
    (hread : ∀ text, result = .ok text → IsRead start.reader.script text console.reader)
    (hshown : ∃ shown, console.output.written = start.output.written ++ shown) :
    IsOnCourse editor start (.leaving result console)
  | done {result : Except ReadError Text} {console : Console}
    (hread : ∀ text, result = .ok text → IsRead start.reader.script text console.reader ∧
      ∃ shown, console.output.written = start.output.written ++ shown ++ ['\r', '\n']) :
    IsOnCourse editor start (.done result console)

theorem isOnCourse_start (start : Console) : IsOnCourse editor start (.start start) := by
  refine .drawing ⟨State.isProper_start, [], [], ?_, ?_⟩ ⟨[], (List.append_nil _).symm⟩
  · exact ⟨rfl, List.forall_mem_nil _, List.forall_mem_nil _⟩
  · exact ⟨rfl, rfl, rfl⟩

theorem IsOnCourse.failed {start console : Console} (error : ReadError) :
    IsOnCourse editor start (.done (.error error) console) :=
  .done (by simp)

theorem IsOnCourse.step {start : Console} {point point' : Point}
    (h : IsOnCourse editor start point) (hstep : editor.Step point point') :
    IsOnCourse editor start point' := by
  cases hstep with
  | @drawn state before console output hemit =>
    cases h with
    | drawing htyped hshown =>
      obtain ⟨shown, hshown⟩ := hshown
      refine .waiting htyped ⟨shown ++ before, ?_⟩
      rw [Output.written_of_emit_eq_ok hemit, hshown]
      simp only [List.append_assoc]
  | drawFailed hemit => exact .failed _
  | @read state console byte decoded reader hread =>
    cases h with
    | waiting htyped hshown =>
      have hwritten : ∃ shown, console.output.written = start.output.written ++ shown := by
        obtain ⟨shown, hshown⟩ := hshown
        exact ⟨_, hshown.trans (List.append_assoc _ _ _)⟩
      cases hreact : editor.react state byte decoded with
      | ignored => exact .waiting (htyped.ignored hread hreact) hshown
      | redrawn state' before => exact .drawing (htyped.redrawn hread hreact) hwritten
      | finished text =>
        refine .leaving (fun text' heq => ?_) hwritten
        obtain rfl := Except.ok.inj heq
        exact htyped.finished hread hreact
      | ended => exact .leaving (by simp) hwritten
  | readFailed hread => exact .failed _
  | left hemit =>
    cases h with
    | leaving hread hshown =>
      refine .done fun text heq => ⟨hread text heq, ?_⟩
      obtain ⟨shown, hshown⟩ := hshown
      exact ⟨shown, by rw [Output.written_of_emit_eq_ok hemit, hshown]⟩
  | leaveFailed hemit => exact .failed _
  | done => exact h

theorem isOnCourse_course (editor : LineEditor) (start : Console) (n : Nat) :
    IsOnCourse editor start (editor.course start n) := by
  unfold course
  induction n with
  | zero => exact isOnCourse_start start
  | succ n ih =>
    rw [Function.iterate_succ_apply']
    exact ih.step (step_next _)

theorem isRead_of_readLine {start after : Console} {text : Text}
    (h : editor.readLine start = (.ok text, after)) :
    IsRead start.reader.script text after.reader ∧
      ∃ shown, after.output.written = start.output.written ++ shown ++ ['\r', '\n'] := by
  obtain ⟨n, hn⟩ := exists_course_eq_done editor start
  have hcourse := isOnCourse_course editor start n
  rw [hn, h] at hcourse
  cases hcourse with
  | done hread => exact hread text rfl

end invariant

end LineEditor

end Preflight
