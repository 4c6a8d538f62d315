import Preflight.Proofs.Terminal.Key
import Preflight.Proofs.Terminal.Reader
import Preflight.Terminal.Prompt

/-!
This module contains what escape sequences on the input of a question do to the answer.
-/

namespace Preflight

namespace Prompt

def respond (first : Char) (options : List Char) (decoder : Decoder) :
    List UInt8 → Except ReadError Char
  | [] => .error .ended
  | byte :: bytes =>
    if byte = Reader.ctrlC then
      .error .interrupted
    else
      match reply first options byte (decoder.feed byte).2 with
      | .answer c => .ok c
      | .ended => .error .ended
      | .ignored => respond first options (decoder.feed byte).1 bytes

def proceed (first : Char) (options : List Char) :
    Except ReadError (UInt8 × Decoded) × Reader → Except ReadError Char × Reader
  | (.error error, reader) => (.error error, reader)
  | (.ok (byte, decoded), reader) =>
    match reply first options byte decoded with
    | .answer c => (.ok c, reader)
    | .ended => (.error .ended, reader)
    | .ignored => awaitAnswer first options reader

def outcome (manner : Manner) (message : Text) (options : List Char) (output : Output)
    (bytes : List UInt8) : Except ReadError Char × Output :=
  let (result, console) := confirm manner message options ⟨.ofBytes bytes, output⟩
  (result, console.output)

def conclude (manner : Manner) (output : Output) :
    Except ReadError Char → Except ReadError Char × Output
  | .error error => (.error error, output)
  | .ok c =>
    if manner.echo then
      match output.emit [c, '\n'] with
      | (.ok (), output) => (.ok c, output)
      | (.error error, output) => (.error error, output)
    else
      (.ok c, output)

section respond

variable {first : Char} {options : List Char} {decoder : Decoder}

theorem awaitAnswer_eq (reader : Reader) :
    awaitAnswer first options reader = proceed first options reader.readKey := by
  rw [awaitAnswer.eq_def]
  split
  · next h => exact (congrArg (proceed first options) h).symm
  · next h => exact (congrArg (proceed first options) h).symm

theorem fst_awaitAnswer (bytes : List UInt8) :
    (awaitAnswer first options ⟨bytes.map .byte, false, decoder⟩).1 =
      respond first options decoder bytes := by
  induction bytes generalizing decoder with
  | nil =>
    rw [awaitAnswer_eq]
    rfl
  | cons byte bytes ih =>
    rw [List.map_cons, awaitAnswer_eq, Reader.readKey_byte_cons, respond]
    by_cases hctrlC : byte = Reader.ctrlC
    · rw [if_pos hctrlC, if_pos hctrlC, proceed]
    · rw [if_neg hctrlC, if_neg hctrlC, proceed]
      cases reply first options byte (decoder.feed byte).2 with
      | answer c => rfl
      | ended => rfl
      | ignored => exact ih

theorem respond_cons_of_ignored {byte : UInt8} (hctrlC : byte ≠ Reader.ctrlC)
    (h : reply first options byte (decoder.feed byte).2 = .ignored) (bytes : List UInt8) :
    respond first options decoder (byte :: bytes) =
      respond first options (decoder.feed byte).1 bytes := by
  rw [respond, if_neg hctrlC, h]

theorem respond_append_congr (before : List UInt8) {rest rest' : List UInt8}
    (h : respond first options (decoder.after before) rest =
      respond first options (decoder.after before) rest') :
    respond first options decoder (before ++ rest) =
      respond first options decoder (before ++ rest') := by
  induction before generalizing decoder with
  | nil => exact h
  | cons byte before ih =>
    rw [List.cons_append, List.cons_append, respond, respond]
    split
    · rfl
    · cases reply first options byte (decoder.feed byte).2 with
      | answer c => rfl
      | ended => rfl
      | ignored => exact ih h

theorem exists_respond_parameters {parameters : List UInt8}
    (h : parameters.all Decoder.isParameter = true) (number second : Nat)
    (semicolon : Bool) :
    ∃ second' semicolon', ∀ rest,
      respond first options (.sequence number second semicolon) (parameters ++ rest) =
        respond first options (.sequence
          (if semicolon then number else Decoder.firstNumber number parameters) second' semicolon')
          rest := by
  induction parameters generalizing number second semicolon with
  | nil =>
    refine ⟨second, semicolon, ?_⟩
    intro rest
    cases semicolon <;> rfl
  | cons byte parameters ih =>
    rw [List.all_cons, Bool.and_eq_true] at h
    obtain ⟨number', next, semicolon', hfeed, hfirst⟩ :=
      Decoder.feed_parameter number second semicolon h.1
    obtain ⟨second', last, hrest⟩ := ih h.2 number' next semicolon'
    refine ⟨second', last, ?_⟩
    intro rest
    have hignored : reply first options byte
        ((Decoder.sequence number second semicolon).feed byte).2 = .ignored := by
      rw [hfeed]
      rfl
    rw [List.cons_append, respond_cons_of_ignored (Reader.ne_ctrlC_of_isParameter h.1) hignored]
    rw [hfeed, hrest rest, hfirst parameters]

def finalReply (first : Char) (options : List Char) (number : Nat) (final : UInt8) : Reply :=
  match Decoder.finalKey? number final with
  | some _ => .ignored
  | none => reply first options final .unrecognized

theorem reply_feed_final {final : UInt8} (h : Decoder.isParameter final = false)
    (number second : Nat) (semicolon : Bool) :
    reply first options final ((Decoder.sequence number second semicolon).feed final).2 =
      finalReply first options number final := by
  have hne := Decoder.finalKey?_ne_enter number final
  rw [Decoder.feed_final number second semicolon h]
  unfold finalReply
  cases hkey : Decoder.finalKey? number final with
  | none => rfl
  | some key =>
    rw [hkey] at hne
    cases key with
    | enter => contradiction
    | _ => rfl

theorem respond_control {parameters : List UInt8} {final : UInt8}
    (hparameters : parameters.all Decoder.isParameter = true)
    (hfinal : Decoder.isParameter final = false) (hctrlC : final ≠ Reader.ctrlC)
    (rest : List UInt8) :
    respond first options .ground (0x1B :: 0x5B :: parameters ++ final :: rest) =
      match finalReply first options (Decoder.firstNumber 0 parameters) final with
      | .answer c => .ok c
      | .ended => .error .ended
      | .ignored => respond first options .ground rest := by
  obtain ⟨second, semicolon, hrest⟩ :=
    @exists_respond_parameters first options _ hparameters 0 0 false
  have hground : ((Decoder.sequence (Decoder.firstNumber 0 parameters) second semicolon).feed
      final).1 = .ground := by
    rw [Decoder.feed_final _ second semicolon hfinal]
    split <;> rfl
  rw [List.cons_append, respond_cons_of_ignored (by decide) rfl]
  rw [List.cons_append, respond_cons_of_ignored (by decide) rfl]
  refine (hrest (final :: rest)).trans ?_
  rw [if_neg Bool.false_ne_true, respond, if_neg hctrlC, reply_feed_final hfinal, hground]

end respond

/--
Whether a sequence leaves a question as it is. A control sequence that stands for no key does so if
its last byte would be ignored as well if it stood alone.
-/
def IsSilent (options : List Char) : EscapeSequence → Prop
  | .alt _ _ => True
  | .control parameters final _ _ =>
    (Decoder.finalKey? (Decoder.firstNumber 0 parameters) final).isSome = true ∨
      final ≠ ctrlD ∧ ¬(final < 0x80 ∧ Char.ofNat final.toNat ∈ options)

theorem finalReply_eq_ignored_iff {first : Char} {options : List Char} {number : Nat}
    {final : UInt8} :
    finalReply first options number final = .ignored ↔
      (Decoder.finalKey? number final).isSome = true ∨
        final ≠ ctrlD ∧ ¬(final < 0x80 ∧ Char.ofNat final.toNat ∈ options) := by
  unfold finalReply reply
  cases Decoder.finalKey? number final with
  | some key => simp
  | none =>
    by_cases hctrlD : final = ctrlD
    · simp [hctrlD]
    · by_cases hoption : final < 0x80 ∧ Char.ofNat final.toNat ∈ options
      · simp [hctrlD, hoption]
      · simp [hctrlD, hoption]

section sequence

variable {first : Char} {options : List Char} {sequence : EscapeSequence}

theorem respond_sequence_append (h : IsSilent options sequence)
    (hctrlC : Reader.ctrlC ∉ sequence.bytes) (rest : List UInt8) :
    respond first options .ground (sequence.bytes ++ rest) =
      respond first options .ground rest := by
  cases sequence with
  | alt byte hne =>
    have hbyte : byte ≠ Reader.ctrlC := by
      rintro rfl
      simp [EscapeSequence.bytes] at hctrlC
    have hfeed := Decoder.feed_escape hne
    unfold EscapeSequence.bytes
    rw [List.cons_append, respond_cons_of_ignored (by decide) rfl]
    rw [List.singleton_append]
    have hescape : (Decoder.ground.feed 0x1B).1 = .escape := rfl
    rw [hescape, respond_cons_of_ignored hbyte, hfeed]
    rw [hfeed]
    rfl
  | control parameters final hparameters hfinal =>
    have hbyte := Reader.ne_ctrlC_of_control hctrlC
    unfold EscapeSequence.bytes
    rw [List.append_assoc, List.singleton_append, respond_control hparameters hfinal hbyte]
    rw [finalReply_eq_ignored_iff.2 h]

theorem exists_respond_ne (h : ¬IsSilent options sequence)
    (hctrlC : Reader.ctrlC ∉ sequence.bytes) :
    ∃ rest, respond first options .ground (sequence.bytes ++ rest) ≠
      respond first options .ground rest := by
  cases sequence with
  | alt byte hne => exact absurd trivial h
  | control parameters final hparameters hfinal =>
    have hbyte := Reader.ne_ctrlC_of_control hctrlC
    unfold EscapeSequence.bytes
    have hfinalReply := mt (@finalReply_eq_ignored_iff first _ _ _).1 h
    cases heq : finalReply first options (Decoder.firstNumber 0 parameters) final with
    | answer c =>
      refine ⟨[], ?_⟩
      rw [List.append_assoc, List.singleton_append, respond_control hparameters hfinal hbyte, heq]
      simp [respond]
    | ended =>
      -- The input ends on either side if it is empty, so there is an answer after the sequence.
      refine ⟨[0x0D], ?_⟩
      rw [List.append_assoc, List.singleton_append, respond_control hparameters hfinal hbyte, heq]
      simp [respond, Reader.ctrlC, Decoder.feed, Decoder.singleKey?, reply]
    | ignored => contradiction

end sequence

theorem outcome_eq (manner : Manner) (message : Text) (first : Char) (others : List Char)
    (output : Output) (bytes : List UInt8) :
    outcome manner message (first :: others) output bytes =
      match output.emit (question manner message (first :: others)) with
      | (.error error, output) => (.error error, output)
      | (.ok (), output) =>
        conclude manner output (respond first (first :: others) .ground bytes) := by
  have hanswer : (awaitAnswer first (first :: others) (Reader.ofBytes bytes).resetDecoder).1 =
      respond first (first :: others) .ground bytes := fst_awaitAnswer bytes
  rw [← hanswer]
  unfold outcome confirm
  dsimp only
  rcases output.emit (question manner message (first :: others)) with ⟨error | _, output'⟩
  · rfl
  · dsimp only
    obtain ⟨result, reader⟩ :=
      awaitAnswer first (first :: others) (Reader.ofBytes bytes).resetDecoder
    cases result with
    | error error => rfl
    | ok c =>
      unfold conclude
      dsimp only
      cases manner.echo with
      | true => rcases output'.emit [c, '\n'] with ⟨_ | _, _⟩ <;> rfl
      | false => rfl

/--
An escape sequence that starts between two keys can be taken off the input without changing what a
question comes to exactly if it stands for a key or ends in a byte that is neither Ctrl-D nor one of
the options.
-/
theorem outcome_remove_iff {options : List Char} {sequence : EscapeSequence}
    (hoptions : options ≠ []) (hctrlC : Reader.ctrlC ∉ sequence.bytes) :
    (∀ manner message output before after, Decoder.ground.after before = .ground →
        outcome manner message options output (before ++ (sequence.bytes ++ after)) =
          outcome manner message options output (before ++ after)) ↔
      IsSilent options sequence := by
  obtain ⟨first, others, rfl⟩ := List.exists_cons_of_ne_nil hoptions
  constructor
  · intro h
    apply Classical.byContradiction
    intro hloud
    obtain ⟨rest, hne⟩ := @exists_respond_ne first _ _ hloud hctrlC
    have hsame := h ⟨false, none⟩ [] .working [] rest rfl
    rw [outcome_eq, outcome_eq] at hsame
    apply hne
    -- Nothing is shown of the answer, so what is left of the outcome is the answer itself.
    have hquiet : ∀ output result, (conclude ⟨false, none⟩ output result).1 = result := by
      intro output result
      cases result <;> rfl
    have := congrArg Prod.fst hsame
    simpa [Output.emit, Output.write, Output.flush, Output.isBroken, Output.working, hquiet]
      using this
  · intro hsilent manner message output before after hground
    rw [outcome_eq, outcome_eq, respond_append_congr before]
    rw [hground]
    exact respond_sequence_append hsilent hctrlC after

def shiftArrowUp : EscapeSequence := .control [0x31, 0x3B, 0x32] 0x41 rfl rfl

theorem outcome_remove_shiftArrowUp_iff :
    ['y', 'n'] ≠ [] ∧ Reader.ctrlC ∉ shiftArrowUp.bytes ∧
      ((∀ manner message output before after, Decoder.ground.after before = .ground →
          outcome manner message ['y', 'n'] output (before ++ (shiftArrowUp.bytes ++ after)) =
            outcome manner message ['y', 'n'] output (before ++ after)) ↔
        IsSilent ['y', 'n'] shiftArrowUp) :=
  ⟨by decide, by decide, outcome_remove_iff (by decide) (by decide)⟩

def strangeYes : EscapeSequence := .control [] 0x79 rfl rfl

theorem outcome_strangeYes :
    Reader.ctrlC ∉ strangeYes.bytes ∧
      outcome .plain [] ['y', 'n'] .working (strangeYes.bytes ++ [0x6E]) =
        (.ok 'y', ⟨"ask:  [Y/n] y\n".toList, 2, none, none⟩) ∧
      outcome .plain [] ['y', 'n'] .working [0x6E] =
        (.ok 'n', ⟨"ask:  [Y/n] n\n".toList, 2, none, none⟩) := by
  refine ⟨by decide, ?_, ?_⟩
  · rw [outcome_eq]
    rfl
  · rw [outcome_eq]
    rfl

end Prompt

end Preflight
