import Preflight.Proofs.Terminal.LineEditor

/-!
This module contains what control sequences that stand for no key do to a line that is being edited.
-/

namespace Preflight

namespace LineEditor

namespace State

/--
Whether a byte that stands for no key leaves a state as it is: a control character other than Ctrl-D
at the very beginning, or a byte that starts no character while none is in progress.
-/
def Ignores (state : State) (byte : UInt8) : Prop :=
  byte < 0x20 ∧ ¬(byte = Prompt.ctrlD ∧ state.isBlank = true) ∨
    state.incomplete = [] ∧ Utf8.lead? byte = none

section pushBytes

variable {state : State} {byte : UInt8} {more : List UInt8}

theorem IsSound.pushBytes_of_missing (h : state.IsSound) {lead : UInt8} {tails : List UInt8}
    {c : Char} (happend : state.incomplete ++ [byte] = lead :: tails)
    (hscan : Utf8.scan lead (tails ++ more) = .char c []) (hmore : ∀ b ∈ more, Utf8.IsTail b) :
    (state.pushBytes more).committed = state.committed ∧
      (state.pushBytes more).row = state.row := by
  rcases h.isOpen with hincomplete | ⟨lead', tails', hincomplete, htails⟩
  · rw [pushBytes_of_isTail hincomplete hmore]
    simp
  · rw [hincomplete, List.cons_append, List.cons.injEq] at happend
    obtain ⟨rfl, rfl⟩ := happend
    have hpushed := pushBytes_of_scan state hincomplete htails more
    -- A character takes as many bytes as its lead byte says, so there is one too few for this one.
    cases hshort : Utf8.scan lead' (tails' ++ more) with
    | char d rest =>
      have := Utf8.length_eq_of_scan_eq_char hscan hshort
      simp at this
      omega
    | truncated =>
      rw [hshort] at hpushed
      dsimp only at hpushed
      simp [hpushed]
    | malformed rest =>
      rw [hshort] at hpushed
      obtain ⟨taken, last, remaining, rfl, _, hpush⟩ := hpushed
      have hsplit : taken ++ last :: remaining = taken ++ [last] ++ remaining := by simp
      rw [hsplit, pushBytes_append, hpush, pushBytes_of_isTail]
      · simp [State.complete]
      · rfl
      · intro b hb
        apply hmore
        simp [hb]

theorem IsSound.pushBytes_twice (h : state.IsSound) (hcursor : state.cursor = state.row.length) :
    (state.pushBytes [0x78, 0x78]).committed = state.committed ∧
      (state.pushBytes [0x78, 0x78]).row =
        state.row ++ if state.incomplete = [] then ['x', 'x'] else ['x'] := by
  have hx : Char.ofNat (0x78 : UInt8).toNat = 'x' := rfl
  rw [pushBytes_cons, pushBytes_cons, pushBytes_nil, h.pushByte_of_ascii (by decide), hx]
  split
  · next hincomplete =>
    rw [(h.insert 'x').pushByte_of_ascii (by decide), hx]
    rw [incomplete_insert, if_pos hincomplete]
    rw [insert_at_end hcursor, insert_at_end rfl]
    simp
  · rw [h.complete.pushByte_of_ascii (by decide), hx, incomplete_complete, if_pos rfl]
    simp [State.insert, State.complete, hcursor]

end pushBytes

end State

def probe : List UInt8 := [0x1B, 0x5B, 0x46, 0x78, 0x78, 0x0D]

section probe

variable {editor : LineEditor} {state : State} {byte : UInt8}

theorem follow_probe (h : state.IsSound) :
    editor.follow ⟨state, .ground⟩ probe =
      .error (.ok (state.committed ++ state.row ++
        if state.incomplete = [] then ['x', 'x'] else ['x'])) := by
  have hend : editor.follow ⟨state, .ground⟩ [0x1B, 0x5B, 0x46] =
      .ok ⟨state.press .end_, .ground⟩ := rfl
  have hincomplete : (state.press .end_).incomplete = state.incomplete := rfl
  have hsplit : probe = [0x1B, 0x5B, 0x46] ++ ([0x78, 0x78] ++ [0x0D]) := rfl
  obtain ⟨hcommitted, hrow⟩ := (h.press .end_).pushBytes_twice rfl
  rw [hincomplete] at hrow
  rw [hsplit, follow_append, hend]
  change editor.follow ⟨state.press .end_, .ground⟩ _ = _
  rw [follow_append, follow_text (by simp [IsTextByte])]
  change editor.follow ⟨(state.press .end_).pushBytes [0x78, 0x78], .ground⟩ _ = _
  rw [follow_enter (.inl rfl), if_neg, hcommitted, hrow, List.append_assoc]
  · rfl
  · rw [hrow, Nat.not_odd_iff_even]
    split
    · rw [List.append_cons]
      apply Text.even_backslashesAtEnd_concat_of_ne _ (by decide)
    · apply Text.even_backslashesAtEnd_concat_of_ne _ (by decide)

theorem settle_react_of_ignores (h : state.Ignores byte) (decoder : Decoder) :
    settle ⟨state, decoder⟩ (editor.react state byte .unrecognized) = .ok ⟨state, decoder⟩ := by
  obtain ⟨hlow, hctrlD⟩ | ⟨hincomplete, hlead⟩ := h
  · rw [settle_react_of_lt hlow, if_neg hctrlD]
  · rw [settle_react_of_le, State.pushByte_of_lead?_eq_none hincomplete hlead]
    apply Classical.byContradiction
    intro hlow
    rw [UInt8.le_iff_toNat_le] at hlow
    rw [Utf8.lead?_of_ascii] at hlead
    · contradiction
    · simp at hlow
      omega

theorem State.IsSound.exists_missing (h : state.IsSound) :
    (∃ more c, (∀ b ∈ more, Utf8.IsTail b) ∧
        (state.pushByte byte).1.pushBytes more = state.complete.insert c ∧
        (state.pushBytes more).committed = state.committed ∧
        (state.pushBytes more).row = state.row) ∨
      (state.pushByte byte).1 = state.complete ∧
        (state.incomplete = [] → Utf8.lead? byte = none) := by
  rcases h.pushByte_cases byte with ⟨c, hpush⟩ | ⟨lead, tails, happend, hscan, hpush⟩ | hpush
  · left
    refine ⟨[], c, by simp, hpush, rfl, rfl⟩
  · left
    obtain ⟨more, c, hchar⟩ := Utf8.exists_scan_append_eq_char hscan
    obtain ⟨tails', heq, htails⟩ := Utf8.exists_tails_of_scan (.inl ⟨c, hchar⟩)
    have hmore : ∀ b ∈ more, Utf8.IsTail b := by
      intro b hb
      apply htails
      rw [List.append_nil] at heq
      simp [← heq, hb]
    refine ⟨more, c, hmore, ?_, h.pushBytes_of_missing happend hchar hmore⟩
    have hpushed := State.pushBytes_of_scan (state.pushByte byte).1 (by rw [hpush]) hscan more
    rw [hchar] at hpushed
    obtain ⟨taken, heq, hpushed⟩ := hpushed
    rw [heq, List.append_nil, hpushed, hpush]
    rfl
  · right
    exact hpush

theorem isTextByte_of_isTail (h : Utf8.IsTail byte) : IsTextByte byte := by
  unfold Utf8.IsTail at h
  unfold IsTextByte
  rw [UInt8.le_iff_toNat_le, ← UInt8.toNat_inj.ne]
  simp
  omega

theorem follow_append_probe (h : state.IsSound) {more : List UInt8}
    (hmore : ∀ b ∈ more, Utf8.IsTail b) :
    editor.follow ⟨state, .ground⟩ (more ++ probe) =
      .error (.ok ((state.pushBytes more).committed ++ (state.pushBytes more).row ++
        if (state.pushBytes more).incomplete = [] then ['x', 'x'] else ['x'])) := by
  rw [follow_append, follow_text]
  · apply follow_probe (h.pushBytes more)
  · intro b hb
    apply isTextByte_of_isTail (hmore b hb)

theorem exists_conclude_ne (h : state.IsSound) (hloud : ¬state.Ignores byte) :
    ∃ after, conclude ((settle ⟨state, .ground⟩ (editor.react state byte .unrecognized)).bind
        (editor.follow · after)) ≠ conclude (editor.follow ⟨state, .ground⟩ after) := by
  obtain ⟨hlow, hlead⟩ := not_or.1 hloud
  by_cases hbyte : byte < 0x20
  · have hctrlD : byte = Prompt.ctrlD ∧ state.isBlank = true := by simpa [hbyte] using hlow
    have hrow : state.row = [] := by
      have := hctrlD.2
      simp only [State.isBlank, Bool.and_eq_true, List.isEmpty_iff] at this
      exact this.2
    refine ⟨[0x0D], ?_⟩
    rw [settle_react_of_lt hbyte, if_pos hctrlD, follow_enter (.inl rfl), if_neg]
    · simp [conclude, Except.bind]
    · simp [hrow, Text.backslashesAtEnd]
  · rw [settle_react_of_le (by simpa using hbyte)]
    change ∃ after, conclude (editor.follow ⟨(state.pushByte byte).1, .ground⟩ after) ≠ _
    rcases h.exists_missing with ⟨more, c, hmore, hpush, hcommitted, hrow⟩ | ⟨hpush, hincomplete⟩
    · refine ⟨more ++ probe, ?_⟩
      rw [follow_append_probe (h.pushByte byte) hmore, follow_append_probe h hmore]
      rw [hpush, hcommitted, hrow, State.incomplete_insert, State.incomplete_complete]
      -- The row is longer by a character, and none of the two after it is lost.
      intro heq
      have hlength := congrArg List.length (Except.ok.inj heq)
      have hinsert := h.complete.length_insert c
      simp only [if_true, List.length_append, hinsert, State.committed_insert,
        State.committed_complete, State.row_complete] at hlength
      split at hlength
      · omega
      · simp at hlength
        omega
    · refine ⟨probe, ?_⟩
      have hbroken : state.incomplete ≠ [] := by
        intro h
        apply hlead ⟨h, hincomplete h⟩
      rw [hpush, follow_probe h, follow_probe h.complete, if_neg hbroken]
      simp [conclude]

end probe

theorem follow_unrecognized {editor : LineEditor} {state : State} {parameters : List UInt8}
    {final : UInt8} (hparameters : parameters.all Decoder.isParameter = true)
    (hfinal : Decoder.isParameter final = false)
    (hctrlC : Reader.ctrlC ∉ 0x1B :: 0x5B :: parameters ++ [final])
    (hunrecognized :
      ((Decoder.ground.after (0x1B :: 0x5B :: parameters)).feed final).2 = .unrecognized)
    (after : List UInt8) :
    editor.follow ⟨state, .ground⟩ (0x1B :: 0x5B :: parameters ++ [final] ++ after) =
      (settle ⟨state, .ground⟩ (editor.react state final .unrecognized)).bind
        (editor.follow · after) := by
  have hne : final ≠ Reader.ctrlC := by
    rintro rfl
    simp at hctrlC
  rw [follow_append, follow_control hparameters hfinal hne]
  rw [Decoder.finalKey?_eq_none hparameters hfinal hunrecognized]

/--
A control sequence that is not recognized can be taken off the input without changing the line
exactly if its last byte, standing alone, is ignored in the state to which the bytes in front of the
sequence lead.
-/
theorem lineOf_remove_iff (editor : LineEditor) (decoder : Decoder) {output : Output}
    (houtput : output.IsWorking) {before parameters : List UInt8} {final : UInt8}
    (hbefore : Decoder.ground.after before = .ground)
    (hparameters : parameters.all Decoder.isParameter = true)
    (hfinal : Decoder.isParameter final = false)
    (hctrlC : Reader.ctrlC ∉ 0x1B :: 0x5B :: parameters ++ [final])
    (hunrecognized :
      ((Decoder.ground.after (0x1B :: 0x5B :: parameters)).feed final).2 = .unrecognized) :
    (∀ after, editor.lineOf decoder output
        (before ++ (0x1B :: 0x5B :: parameters ++ [final] ++ after)) =
          editor.lineOf decoder output (before ++ after)) ↔
      ∀ state, editor.follow .start before = .ok ⟨state, .ground⟩ → state.Ignores final := by
  constructor
  · intro h state hstate
    apply Classical.byContradiction
    intro hloud
    obtain ⟨after, hne⟩ := exists_conclude_ne (isSound_follow State.isSound_start hstate) hloud
    apply hne
    have hsame := h after
    rw [lineOf_eq houtput, lineOf_eq houtput, follow_append, follow_append, hstate] at hsame
    rw [← follow_unrecognized hparameters hfinal hctrlC hunrecognized]
    exact hsame
  · intro h after
    rw [lineOf_eq houtput, lineOf_eq houtput, follow_append, follow_append]
    cases hstate : editor.follow .start before with
    | error result => rfl
    | ok position =>
      obtain ⟨state, decoder⟩ := position
      obtain rfl : decoder = .ground := (decoder_follow hstate).trans hbefore
      change conclude (editor.follow ⟨state, .ground⟩ _) = _
      rw [follow_unrecognized hparameters hfinal hctrlC hunrecognized]
      rw [settle_react_of_ignores (h state hstate)]

def f5 : List UInt8 := 0x1B :: 0x5B :: [0x31, 0x35] ++ [0x7E]

theorem lineOf_remove_f5_iff :
    Output.working.IsWorking ∧ Decoder.ground.after [0x61] = .ground ∧
      [0x31, 0x35].all Decoder.isParameter = true ∧ Decoder.isParameter 0x7E = false ∧
      Reader.ctrlC ∉ f5 ∧
      ((Decoder.ground.after [0x1B, 0x5B, 0x31, 0x35]).feed 0x7E).2 = .unrecognized ∧
      ((∀ after, (ofPrompt ['$', ' ']).lineOf .ground .working ([0x61] ++ (f5 ++ after)) =
          (ofPrompt ['$', ' ']).lineOf .ground .working ([0x61] ++ after)) ↔
        ∀ state, (ofPrompt ['$', ' ']).follow .start [0x61] = .ok ⟨state, .ground⟩ →
          state.Ignores 0x7E) :=
  ⟨⟨rfl, rfl⟩, rfl, rfl, rfl, by decide, rfl,
    lineOf_remove_iff _ _ ⟨rfl, rfl⟩ rfl rfl rfl (by decide) rfl⟩

theorem lineOf_f5 :
    Decoder.isParameter 0x7E = false ∧ Reader.ctrlC ∉ f5 ∧
      ((Decoder.ground.after [0x1B, 0x5B, 0x31, 0x35]).feed 0x7E).2 = .unrecognized ∧
      (ofPrompt ['$', ' ']).lineOf .ground .working (f5 ++ [0x0D]) = .ok ['~'] ∧
      (ofPrompt ['$', ' ']).lineOf .ground .working [0x0D] = .ok [] := by
  refine ⟨rfl, by decide, rfl, ?_, ?_⟩
  · rw [lineOf_eq ⟨rfl, rfl⟩]
    rfl
  · rw [lineOf_eq ⟨rfl, rfl⟩]
    rfl

end LineEditor

end Preflight
